import SharedBike.Server.Frames
import Mathlib.Tactic.Linarith

/-!
# When `end_ride` is all or nothing

`end_ride` charges, archives, parks the bike, frees it and removes the
session, five effects one after the other with no transaction around them,
and looks at the result of the charge only, as a balance. `AllOrNothing` is
what a caller would want: an Ok stands for a ride that is paid, archived,
parked and closed, and any other code for a request that left no trace.

`allOrNothing_iff` says for every state, every authorised request on a live
session and every pattern of failures whether this run is all or nothing,
by what is in the tables and which statements fail. `paid_not_archived` is
a run that is neither: the ride is paid and gone.
-/

namespace SharedBike.Server

open SharedBike.Common SharedBike.Lib

variable {P : Platform} {rideId : Int} {p : RidePoint}

/-! ## Coordinates fit their columns -/

theorem decimal_isSome {q : ℚ} (hlo : -180 ≤ q) (hhi : q ≤ 180) :
    (decimal (.fin q)).isSome := by
  obtain ⟨hge, hle⟩ := Double.roundHalfEven_bounds (q * 10000000)
  have hfloorLo : -1800000000 ≤ (q * 10000000).floor := by
    rw [Rat.le_floor_iff]
    push_cast
    linarith
  have hfloorHi : (q * 10000000).floor ≤ 1800000000 := by
    rw [← Int.cast_le (R := ℚ)]
    refine (Rat.floor_le _).trans ?_
    push_cast
    linarith
  rw [decimal, Double.dec7, Option.isSome_filter]
  simp only [Option.any_some, decide_eq_true_eq]
  omega

theorem decimal_of_within {bound : ℚ} (hbound : bound ≤ 180) {x : Double}
    (h : (Double.le (.fin (-bound)) x && x.le (.fin bound)) = true) : (decimal x).isSome := by
  cases x with
  | nan => cases h
  | inf neg => cases neg <;> cases h
  | fin q =>
    simp only [Double.le, Bool.and_eq_true, decide_eq_true_eq] at h
    exact decimal_isSome (by linarith) (by linarith)

theorem decimal_of_validLat {lat : Double} (h : validLat lat = true) : (decimal lat).isSome :=
  decimal_of_within (by norm_num) h

theorem decimal_of_validLng {lng : Double} (h : validLng lng = true) : (decimal lng).isSome :=
  decimal_of_within (le_refl _) h

/-! ## Archiving -/

theorem CreateRideInput.row_isSome (inp : CreateRideInput) (id id' : Int) :
    (inp.row id).isSome = (inp.row id').isSome := by
  unfold row
  simp only [Option.bind_eq_bind, Option.isSome_bind, Option.pure_def, Option.isSome_some]

theorem RidePoint.row_isSome (p : RidePoint) (id id' : Int) :
    (p.row id).isSome = (p.row id').isSome := by
  unfold row
  simp only [Option.bind_eq_bind, Option.isSome_bind, Option.pure_def, Option.isSome_some]

theorem RidePoint.row_rideId {id : Int} {row : PositionRow} (h : p.row id = some row) :
    row.rideId = id := by
  simp only [RidePoint.row, Option.bind_eq_bind, Option.bind_eq_some_iff, Option.pure_def,
    Option.some.injEq] at h
  obtain ⟨_, -, _, -, rfl⟩ := h
  rfl

namespace Tables

variable {t t' : Tables P} {env : Env} {inp : CreateRideInput}

/-- The ride's row is there, and every point under it. -/
def HoldsRide (t : Tables P) (inp : CreateRideInput) : Prop :=
  ∃ row ∈ t.ride, inp.row row.id = some row ∧
    ∀ p ∈ inp.points, ∃ r ∈ t.ridePosition, p.row row.id = some r

/-- No statement of the archive fails and none breaks a rule of the schema. -/
structure Accepts (t : Tables P) (env : Env) (inp : CreateRideInput) : Prop where
  sites : ¬ (env.fails .rideBegin ∨ env.fails .rideInsert ∨ env.fails .rideCommit)
  pointSites : ∀ i < inp.points.length, env.fails (.ridePoint i) = false
  fits : (inp.row 0).isSome
  pointsFit : ∀ p ∈ inp.points, (p.row 0).isSome
  short : inp.rideNo.length ≤ 32
  user : inp.userId ∈ t.userinfo.map (·.id)
  bike : inp.bikeId ∈ t.bike.map (·.id)
  fresh : P.collation inp.rideNo ∉ t.ride.map fun r => P.collation r.rideNo

theorem insertPosition_some (h : t.insertPosition rideId p = some t') :
    ∃ r, p.row rideId = some r ∧ t'.ridePosition = t.ridePosition ++ [r] ∧ t'.ride = t.ride := by
  simp only [insertPosition, Option.bind_eq_bind, Option.bind_eq_some_iff,
    Option.dite_none_right_eq_some] at h
  obtain ⟨r, hr, _, heq⟩ := h
  cases heq
  exact ⟨r, hr, rfl, rfl⟩

theorem insertPosition_isSome (hride : rideId ∈ t.ride.map (·.id)) :
    (t.insertPosition rideId p).isSome ↔ (p.row 0).isSome := by
  rw [p.row_isSome 0 rideId, insertPosition]
  cases hrow : p.row rideId with
  | none => rfl
  | some r =>
    have hid : r.rideId ∈ t.ride.map (·.id) := by
      rw [RidePoint.row_rideId hrow]
      exact hride
    simp only [Option.bind_eq_bind, Option.bind_some, hid, dif_pos, Option.isSome_some]

/-- The points are added in their order, and no other goes. -/
theorem insertPositions_rows {i : Nat} {points : List RidePoint}
    (h : insertPositions env rideId i points t = some t') :
    ∃ rows, points.map (·.row rideId) = rows.map some ∧
      t'.ridePosition = t.ridePosition ++ rows := by
  induction points generalizing i t with
  | nil =>
    cases h
    exact ⟨[], rfl, (List.append_nil _).symm⟩
  | cons p rest ih =>
    simp only [insertPositions, Option.ite_none_left_eq_some, Option.bind_eq_some_iff] at h
    obtain ⟨-, t₁, hins, hrest⟩ := h
    obtain ⟨r, hr, hpos, -⟩ := insertPosition_some hins
    obtain ⟨rows, hrows, happend⟩ := ih hrest
    refine ⟨r :: rows, ?_, ?_⟩
    · rw [List.map_cons, List.map_cons, hr, hrows]
    · rw [happend, hpos, List.append_assoc]
      rfl

theorem insertPositions_isSome {i : Nat} {points : List RidePoint}
    (hride : rideId ∈ t.ride.map (·.id)) :
    (insertPositions env rideId i points t).isSome ↔
      (∀ j < points.length, env.fails (.ridePoint (i + j)) = false) ∧
        ∀ p ∈ points, (p.row 0).isSome := by
  induction points generalizing i t with
  | nil => simp [insertPositions]
  | cons p rest ih =>
    have hsites : (∀ j < (p :: rest).length, env.fails (.ridePoint (i + j)) = false) ↔
        env.fails (.ridePoint i) = false ∧
          ∀ j < rest.length, env.fails (.ridePoint (i + 1 + j)) = false := by
      rw [List.length_cons, Nat.forall_lt_succ_left]
      simp only [Nat.add_zero, Nat.add_assoc, Nat.add_comm 1]
    rw [hsites, insertPositions, List.forall_mem_cons]
    by_cases hf : env.fails (.ridePoint i) = true
    · simp [hf]
    · rw [if_neg hf]
      cases hins : t.insertPosition rideId p with
      | none =>
        have hrow := insertPosition_isSome hride (p := p)
        rw [hins] at hrow
        simp [← hrow]
      | some t₁ =>
        have hrow := insertPosition_isSome hride (p := p)
        rw [hins] at hrow
        obtain ⟨-, -, -, hsame⟩ := insertPosition_some hins
        rw [Option.bind_some, ih (by rw [hsame]; exact hride)]
        simp [hf, ← hrow]

/-- The archive takes a ride exactly when nothing speaks against it. -/
theorem archiveRide_isSome (rideId : Int) :
    (t.archiveRide env rideId inp).isSome ↔ t.Accepts env inp := by
  have hfields : t.Accepts env inp ↔
      ¬ (env.fails .rideBegin ∨ env.fails .rideInsert ∨ env.fails .rideCommit) ∧
      (∀ i < inp.points.length, env.fails (.ridePoint i) = false) ∧ (inp.row 0).isSome ∧
      (∀ p ∈ inp.points, (p.row 0).isSome) ∧ inp.rideNo.length ≤ 32 ∧
      inp.userId ∈ t.userinfo.map (·.id) ∧ inp.bikeId ∈ t.bike.map (·.id) ∧
      P.collation inp.rideNo ∉ t.ride.map fun r => P.collation r.rideNo :=
    ⟨fun ⟨a, b, c, d, e, f, g, h⟩ => ⟨a, b, c, d, e, f, g, h⟩,
      fun ⟨a, b, c, d, e, f, g, h⟩ => ⟨a, b, c, d, e, f, g, h⟩⟩
  rw [hfields, archiveRide, inp.row_isSome 0 rideId]
  by_cases hf : env.fails .rideBegin ∨ env.fails .rideInsert ∨ env.fails .rideCommit
  · simp [hf]
  rw [if_neg hf, insertRide]
  cases hrow : inp.row rideId with
  | none => simp
  | some row =>
    obtain ⟨hid, hno, huser, hbike⟩ := CreateRideInput.row_keys hrow
    simp only [Option.bind_eq_bind, Option.bind_some, hno, huser, hbike, Option.isSome_some,
      true_and]
    by_cases hok : inp.rideNo.length ≤ 32 ∧ inp.userId ∈ t.userinfo.map (·.id) ∧
        inp.bikeId ∈ t.bike.map (·.id) ∧
        P.collation inp.rideNo ∉ t.ride.map fun r => P.collation r.rideNo
    · rw [dif_pos hok, Option.bind_some, insertPositions_isSome (by simp [hid])]
      simp only [Nat.zero_add]
      constructor
      · rintro ⟨hsent, hrows⟩
        exact ⟨hf, hsent, hrows, hok⟩
      · rintro ⟨-, hsent, hrows, -⟩
        exact ⟨hsent, hrows⟩
    · rw [dif_neg hok]
      simp only [Option.bind_none, Option.isSome_none, Bool.false_eq_true, false_iff]
      rintro ⟨-, -, -, hall⟩
      exact hok hall

/-- What an archive adds to the two tables. -/
theorem archiveRide_rows (h : t.archiveRide env rideId inp = some t') :
    ∃ row rows, inp.row rideId = some row ∧ t'.ride = t.ride ++ [row] ∧
      inp.points.map (·.row rideId) = rows.map some ∧
      t'.ridePosition = t.ridePosition ++ rows := by
  obtain ⟨row, hrow, hride⟩ := archiveRide_ride h
  simp only [archiveRide, Option.ite_none_left_eq_some, Option.bind_eq_some_iff] at h
  obtain ⟨-, t₁, hins, hpos⟩ := h
  have hsame : t₁.ridePosition = t.ridePosition := by
    simp only [insertRide, Option.bind_eq_bind, Option.bind_eq_some_iff,
      Option.dite_none_right_eq_some] at hins
    obtain ⟨_, -, _, heq⟩ := hins
    cases heq
    rfl
  obtain ⟨rows, hrows, happend⟩ := insertPositions_rows hpos
  exact ⟨row, rows, hrow, hride, hrows, happend.trans (by rw [hsame])⟩

/-- What is archived is there. -/
theorem holdsRide_of_archiveRide (h : t.archiveRide env rideId inp = some t') :
    t'.HoldsRide inp := by
  obtain ⟨row, rows, hrow, hride, hrows, hpos⟩ := archiveRide_rows h
  have hid := (CreateRideInput.row_keys hrow).1
  refine ⟨row, by simp [hride], by rw [hid]; exact hrow, ?_⟩
  intro p hp
  have hmem : p.row rideId ∈ rows.map some := hrows ▸ List.mem_map_of_mem hp
  obtain ⟨r, hr, heq⟩ := List.mem_map.mp hmem
  rw [hpos, hid]
  exact ⟨r, List.mem_append_right _ hr, heq.symm⟩

end Tables

/-! ## Parking the bike -/

namespace Production

variable (env : Env) (s : Production P)

theorem bike_updateLocation (id : Int32) {lat lng : Double} {lat' lng' : Int}
    (hlat : decimal lat = some lat') (hlng : decimal lng = some lng') :
    (exec env (.updateLocation id lat lng) s).2.tables.bike =
      if env.fails .bikeLocation then s.tables.bike
      else s.tables.bike.map fun b => if b.id = id then { b with lat := lat', lng := lng' } else b := by
  simp only [exec, Mysql.updateLocation]
  rw [sql_single env _ rfl]
  by_cases hf : env.fails .bikeLocation = true
  · rw [if_pos hf, if_pos hf]
  · rw [if_neg hf, if_neg hf]
    simp only [Stmt.apply, hlat, hlng, Option.bind_eq_bind, Option.bind_some, Tables.updateBike]

theorem bike_updateStatus (id : Int32) (status : BikeStatus) :
    (exec env (.updateStatus id status) s).2.tables.bike =
      if env.fails .bikeStatus then s.tables.bike
      else s.tables.bike.map fun b => if b.id = id then { b with status } else b := by
  simp only [exec, Mysql.updateStatus]
  rw [sql_single env _ rfl]
  by_cases hf : env.fails .bikeStatus = true
  · rw [if_pos hf, if_pos hf]
  · rw [if_neg hf, if_neg hf]
    simp only [Stmt.apply, Tables.updateBike]

end Production

/-- The row stands at the end of the ride. -/
def BikeRow.atEnd (req : EndRideRequest) (b : BikeRow) : Prop :=
  decimal req.endLat = some b.lat ∧ decimal req.endLng = some b.lng

/-- The bike is there, and each update is carried out or has nothing to do. -/
def Parkable (env : Env) (bikes : List BikeRow) (req : EndRideRequest) (bikeId : Int32) : Prop :=
  ∃ b ∈ bikes, b.id = bikeId ∧ (env.fails .bikeLocation = false ∨ b.atEnd req) ∧
    (env.fails .bikeStatus = false ∨ b.status = .idle)

/-- After an update of the bike, if it is carried out, a property of the bike is
one of what the update makes of it. -/
theorem exists_updated (failed : Bool) {f : BikeRow → BikeRow} (hf : ∀ b, (f b).id = b.id)
    (bikes : List BikeRow) (id : Int32) (R : BikeRow → Prop) :
    (∃ b ∈ if failed then bikes else bikes.map fun b => if b.id = id then f b else b,
        b.id = id ∧ R b) ↔
      ∃ b ∈ bikes, b.id = id ∧ R (if failed then b else f b) := by
  cases failed with
  | true => rfl
  | false =>
    simp only [Bool.false_eq_true, if_false, List.mem_map, exists_exists_and_eq_and]
    refine exists_congr fun b => and_congr_right fun _ => ?_
    by_cases h : b.id = id
    · simp only [h, if_true, hf]
    · simp only [h, if_false, false_and]

/-- The bike stands idle at the end of the ride exactly when it was parkable. -/
theorem parked_iff (env : Env) {req : EndRideRequest} (hlat : validLat req.endLat = true)
    (hlng : validLng req.endLng = true) (bikeId : Int32) (s : Production P) :
    (∃ b ∈ (Production.exec env (.updateStatus bikeId .idle)
        (Production.exec env (.updateLocation bikeId req.endLat req.endLng) s).2).2.tables.bike,
      b.id = bikeId ∧ b.atEnd req ∧ b.status = .idle) ↔ Parkable env s.tables.bike req bikeId := by
  obtain ⟨lat, hlat⟩ := Option.isSome_iff_exists.mp (decimal_of_validLat hlat)
  obtain ⟨lng, hlng⟩ := Option.isSome_iff_exists.mp (decimal_of_validLng hlng)
  have hid : ∀ b : BikeRow, ({ b with status := .idle } : BikeRow).id = b.id := fun _ => rfl
  have hid' : ∀ b : BikeRow, ({ b with lat := lat, lng := lng } : BikeRow).id = b.id :=
    fun _ => rfl
  rw [Production.bike_updateStatus, exists_updated _ hid _ _ fun b => b.atEnd req ∧ b.status = .idle,
    Production.bike_updateLocation env s bikeId hlat hlng, exists_updated _ hid']
  refine exists_congr fun b => and_congr_right fun _ => and_congr_right fun _ => ?_
  cases env.fails .bikeStatus <;> cases env.fails .bikeLocation <;>
    simp [BikeRow.atEnd, hlat, hlng]

/-! ## The run -/

/-- The token is signed in, and its mobile is that of the user. -/
def Authorised (env : Env) (w : World P .production) (token : String) (uid : Int32) : Prop :=
  ∃ mobile u, w.repos.redis.lookupSession env token = some mobile ∧
    w.repos.tables.readUser env .userSelect mobile = some u ∧ u.id = uid

variable {env : Env} {w : World P .production} {req : EndRideRequest} {sess : RideSession}

theorem Authorised.run {token : String} {uid : Int32} (h : Authorised env w token uid) :
    World.run env (requireUser token) w = (some uid, w) := by
  obtain ⟨mobile, u, hlookup, hread, rfl⟩ := h
  have hfind : Production.exec env (.findOrCreate mobile) w.repos = (u, w.repos) := by
    rw [Production.exec, Production.sql_findOrCreate, hread]
  simp only [World.run, requireUser, repo, Prog.ask_bind, Prog.run_call, World.exec,
    Deployment.exec, Production.exec, hlookup]
  change (some (Production.exec env (.findOrCreate mobile) w.repos).1.id,
    (⟨(Production.exec env (.findOrCreate mobile) w.repos).2, w.sessions⟩ : World P .production)) = _
  rw [hfind]

theorem Authorised.hasUser {token : String} {uid : Int32} (h : Authorised env w token uid) :
    w.repos.tables.hasUser uid = true := by
  obtain ⟨mobile, u, -, hread, rfl⟩ := h
  rw [Tables.readUser] at hread
  split at hread
  · cases hread
  · simp only [Tables.hasUser, decide_eq_true_eq]
    exact List.mem_map_of_mem (List.mem_of_find?_eq_some hread)

/-- The fee of a duration that is not negative. -/
def fee (durationSec : Int32) : Int32 :=
  match computeFee durationSec with
  | .ok amount => amount
  | .error _ => 0

/-- A duration is never negative, so `compute_fee` never throws here. -/
theorem computeFee_duration (endTs startTs : Int) :
    computeFee (duration endTs startTs) = .ok (fee (duration endTs startTs)) := by
  have hd : 0 ≤ (duration endTs startTs).toInt := by
    unfold duration
    split
    · decide
    next h =>
      rw [Int32.lt_iff_toInt_lt] at h
      exact not_lt.mp h
  obtain ⟨amount, hamount, -⟩ := computeFee_eq hd
  rw [fee, hamount]

/-- The tables after the charge of a ride that ends now. -/
def afterCharge (env : Env) (sess : RideSession) (t : Tables P) : Tables P :=
  (t.charge env sess.userId .consume (-fee (duration env.now sess.startTs))).getD t

def World.withTables (w : World P .production) (t : Tables P) : World P .production :=
  let repos : Production P := w.repos
  ⟨{ repos with tables := t }, w.sessions⟩

/-- The ride as it is archived now. -/
def archiveNow (P : Platform) (env : Env) (req : EndRideRequest) (sess : RideSession) :
    CreateRideInput :=
  archive P req sess sess.userId env.now (fee (duration env.now sess.startTs))

/-- Once the caller is known, the end of a live ride is the rest of `end_ride`. -/
theorem run_endRide {Q : Platform} {w₁ : World P .production}
    (hcaller : World.run env (requireUser req.sessionToken) w = (some sess.userId, w₁))
    (hlat : validLat req.endLat = true) (hlng : validLng req.endLng = true)
    (hlive : w₁.sessions.find req.rideNo = some sess) :
    World.run env (endRide Q (some req)) w =
      World.run env (settleRide Q req sess sess.userId) w₁ := by
  simp only [World.run] at hcaller
  simp only [World.run, endRide, Prog.run_bind, hcaller, hlat, hlng, Bool.not_true, Bool.or_self,
    Bool.false_eq_true, if_false, rideSessions, Prog.run_ask]
  have hfind : World.exec env (.ride (.find req.rideNo)) w₁ = (some sess, w₁) := by
    simp only [World.exec, RideSessionStore.exec, hlive]
  rw [hfind]
  simp only [ne_eq, not_true_eq_false, if_false]

theorem run_settleRide {Q : Platform} :
    World.run env (settleRide Q req sess sess.userId) w =
      if (afterCharge env sess w.repos.tables).readBalance env sess.userId < 0 then
        (.ok (.fail .processFailed "余额不足"), w.withTables (afterCharge env sess w.repos.tables))
      else World.run env (finishRide req sess (archiveNow Q env req sess)
          ((afterCharge env sess w.repos.tables).readBalance env sess.userId))
        (w.withTables (afterCharge env sess w.repos.tables)) := by
  simp only [World.run, settleRide, nowUnix, Prog.ask_bind, Prog.run_call, World.exec,
    computeFee_duration, repo, Deployment.exec, Production.exec, Production.sql_addBalance,
    afterCharge]
  by_cases h : ((w.repos.tables.charge env sess.userId .consume
      (-fee (duration env.now sess.startTs))).getD w.repos.tables).readBalance env sess.userId < 0
  · rw [if_pos h]
    exact (if_pos h).symm
  · rw [if_neg h]
    exact (if_neg h).symm

/-- Whether the ride is archived after `finishRide`, and what it keeps. -/
theorem finishRide_spec (hlat : validLat req.endLat = true) (hlng : validLng req.endLng = true)
    (inp : CreateRideInput) (newBal : Int32) {out : Outcome EndRideResponse}
    {w' : World P .production} (hrun : World.run env (finishRide req sess inp newBal) w = (out, w')) :
    out = .ok ⟨ErrCode.ok.code, ErrCode.ok.toText, inp.durationSec, inp.distanceM, inp.amountCent,
        newBal⟩ ∧
      w'.sessions = w.sessions.remove sess.rideNo ∧
      w'.repos.tables.account = w.repos.tables.account ∧
      (w'.repos.tables.HoldsRide inp ↔
        w.repos.tables.Accepts env inp ∨ w.repos.tables.HoldsRide inp) ∧
      ((∃ b ∈ w'.repos.tables.bike, b.id = sess.bikeId ∧ b.atEnd req ∧ b.status = .idle) ↔
        Parkable env w.repos.tables.bike req sess.bikeId) := by
  -- the three repository calls, one after the other
  let s : Production P := w.repos
  let s₁ := (Production.exec env (.createWithPoints inp) s).2
  let s₂ := (Production.exec env (.updateLocation sess.bikeId req.endLat req.endLng) s₁).2
  let s₃ := (Production.exec env (.updateStatus sess.bikeId .idle) s₂).2
  obtain ⟨rfl, rfl⟩ : .ok ⟨ErrCode.ok.code, ErrCode.ok.toText, inp.durationSec, inp.distanceM,
      inp.amountCent, newBal⟩ = out ∧ (⟨s₃, w.sessions.remove sess.rideNo⟩ : World P .production) = w' :=
    Prod.mk.inj hrun
  have same₁ : ∀ {T}, T ∉ [Table.ride, .ridePosition] → s.tables.SameIn s₁.tables T :=
    fun hT => Production.exec_sameIn env (.createWithPoints inp) s hT
  have same₃ : ∀ {T}, T ∉ [Table.bike] → s₁.tables.SameIn s₃.tables T := fun hT =>
    (Production.exec_sameIn env (.updateLocation sess.bikeId req.endLat req.endLng) s₁ hT).trans
      (Production.exec_sameIn env (.updateStatus sess.bikeId .idle) s₂ hT)
  have haccount : s₃.tables.account = s.tables.account :=
    (same₁ (T := .account) (by simp)).trans (same₃ (T := .account) (by simp))
  have hride : s₃.tables.ride = s₁.tables.ride := same₃ (T := .ride) (by simp)
  have hpos : s₃.tables.ridePosition = s₁.tables.ridePosition :=
    same₃ (T := .ridePosition) (by simp)
  have hbike : s₁.tables.bike = s.tables.bike := same₁ (T := .bike) (by simp)
  refine ⟨rfl, rfl, haccount, ?_, ?_⟩
  · have hholds : s₃.tables.HoldsRide inp ↔ s₁.tables.HoldsRide inp := by
      unfold Tables.HoldsRide
      rw [hride, hpos]
    refine hholds.trans ?_
    rw [← Tables.archiveRide_isSome s.ids.ride]
    obtain ⟨ids, -, heq⟩ := s.sql_createWithPoints env inp
    have hs₁ : s₁ = (s.sql env (Mysql.createWithPoints inp)).2 := rfl
    rw [hs₁, heq]
    cases harch : s.tables.archiveRide env s.ids.ride inp with
    | none => simp [s]
    | some t => simp [Tables.holdsRide_of_archiveRide harch]
  · have := parked_iff env hlat hlng sess.bikeId s₁
    rwa [hbike] at this

/-! ## All or nothing -/

/-- The ride is paid as reported, archived with its points, parked and closed. -/
def Settled (req : EndRideRequest) (sess : RideSession) (env : Env) (w : World P .production)
    (rsp : EndRideResponse) (w' : World P .production) : Prop :=
  (w'.repos.tables.balance sess.userId).toInt =
      (w.repos.tables.balance sess.userId).toInt - rsp.amountCent.toInt ∧
    w'.repos.tables.HoldsRide (archive P req sess sess.userId env.now rsp.amountCent) ∧
    (∃ b ∈ w'.repos.tables.bike, b.id = sess.bikeId ∧ b.atEnd req ∧ b.status = .idle) ∧
    w'.sessions.find req.rideNo = none

/-- Every table, balances, ledger, rides, points and bikes among them, and the
sessions are as they were. -/
def LeftAlone (w w' : World P .production) : Prop :=
  (∀ T, w.repos.tables.SameIn w'.repos.tables T) ∧ w'.sessions = w.sessions

/-- An Ok stands for a settled ride, and anything else for nothing at all. -/
def AllOrNothing (req : EndRideRequest) (sess : RideSession) (env : Env) (w : World P .production) :
    Outcome EndRideResponse × World P .production → Prop
  | (.ok rsp, w') =>
    if rsp.code = ErrCode.ok.code then Settled req sess env w rsp w' else LeftAlone w w'
  | (.error _, w') => LeftAlone w w'

/-- The charge of the ride goes through. -/
def ChargeTaken (env : Env) (sess : RideSession) (t : Tables P) : Prop :=
  Tables.chargeFails env = false ∧
    Tables.Fits (t.balance sess.userId) (-fee (duration env.now sess.startTs))

instance (env : Env) (sess : RideSession) (t : Tables P) : Decidable (ChargeTaken env sess t) :=
  inferInstanceAs (Decidable (_ ∧ _))

theorem afterCharge_refused {t : Tables P} (huser : t.hasUser sess.userId = true)
    (h : ¬ ChargeTaken env sess t) : afterCharge env sess t = t := by
  unfold afterCharge
  cases hf : Tables.chargeFails env with
  | true => rw [Tables.charge_of_fails hf, Option.getD_none]
  | false =>
    have hfit : ¬ Tables.Fits (t.balance sess.userId) (-fee (duration env.now sess.startTs)) :=
      fun hfit => h ⟨hf, hfit⟩
    have := Tables.charge_of_user hf huser .consume (-fee (duration env.now sess.startTs))
    rw [if_neg hfit] at this
    rw [this, Option.getD_none]

theorem afterCharge_taken {t : Tables P} (huser : t.hasUser sess.userId = true)
    (h : ChargeTaken env sess t) :
    ((afterCharge env sess t).balance sess.userId).toInt =
        (t.balance sess.userId).toInt - (fee (duration env.now sess.startTs)).toInt ∧
      (afterCharge env sess t).accountRecord ≠ t.accountRecord := by
  have hcharge := Tables.charge_of_user h.1 huser .consume (-fee (duration env.now sess.startTs))
  rw [if_pos h.2] at hcharge
  obtain ⟨t', ht', hacc, hrec⟩ := hcharge
  obtain ⟨hlo, hhi⟩ := computeFee_range (computeFee_duration env.now sess.startTs)
  have hneg : (-fee (duration env.now sess.startTs)).toInt =
      -(fee (duration env.now sess.startTs)).toInt := toInt_neg_of_range (by omega)
  unfold afterCharge
  rw [ht', Option.getD_some]
  constructor
  · rw [Tables.balance, hacc, Function.update_self, Option.getD_some,
      toInt_add_of_range h.2.1 h.2.2, hneg]
    rfl
  · rw [hrec]
    simp

theorem afterCharge_sameIn (env : Env) (sess : RideSession) (w : World P .production) {T : Table}
    (hT : T ∉ [Table.account, .accountRecord]) :
    w.repos.tables.SameIn (afterCharge env sess w.repos.tables) T := by
  have h := Production.exec_sameIn env
    (.addBalance sess.userId .consume (-fee (duration env.now sess.startTs))) w.repos hT
  rw [Production.exec, Production.sql_addBalance] at h
  exact h

/-- What `finishRide` needs of the tables, the charge did not touch. -/
theorem afterCharge_archive (env : Env) (sess : RideSession) (w : World P .production)
    (inp : CreateRideInput) :
    ((afterCharge env sess w.repos.tables).Accepts env inp ↔ w.repos.tables.Accepts env inp) ∧
      ((afterCharge env sess w.repos.tables).HoldsRide inp ↔ w.repos.tables.HoldsRide inp) ∧
      (afterCharge env sess w.repos.tables).bike = w.repos.tables.bike := by
  have huser : _ = _ := afterCharge_sameIn env sess w (T := .userinfo) (by simp)
  have hbike : _ = _ := afterCharge_sameIn env sess w (T := .bike) (by simp)
  have hride : _ = _ := afterCharge_sameIn env sess w (T := .ride) (by simp)
  have hpos : _ = _ := afterCharge_sameIn env sess w (T := .ridePosition) (by simp)
  refine ⟨⟨fun h => ?_, fun h => ?_⟩, ?_, hbike⟩
  · exact ⟨h.sites, h.pointSites, h.fits, h.pointsFit, h.short, huser ▸ h.user, hbike ▸ h.bike,
      hride ▸ h.fresh⟩
  · exact ⟨h.sites, h.pointSites, h.fits, h.pointsFit, h.short, huser ▸ h.user, hbike ▸ h.bike,
      hride ▸ h.fresh⟩
  · unfold Tables.HoldsRide
    rw [hride, hpos]

/-- Whether the handler stops after the charge. -/
theorem short_iff (env : Env) (huser : w.repos.tables.hasUser sess.userId = true) :
    (afterCharge env sess w.repos.tables).readBalance env sess.userId < 0 ↔
      env.fails .balanceSelect = false ∧
        if ChargeTaken env sess w.repos.tables then
          (w.repos.tables.balance sess.userId).toInt < (fee (duration env.now sess.startTs)).toInt
        else w.repos.tables.balance sess.userId < 0 := by
  unfold Tables.readBalance
  cases hf : env.fails .balanceSelect with
  | true => simp
  | false =>
    simp only [Bool.false_eq_true, if_false, true_and]
    split
    next h =>
      rw [Int32.lt_iff_toInt_lt, (afterCharge_taken huser h).1]
      change (_ - _ : Int) < 0 ↔ _
      omega
    next h => rw [afterCharge_refused huser h]

/-- A handler that stops has left no trace exactly when the charge was rolled back. -/
theorem leftAlone_iff (huser : w.repos.tables.hasUser sess.userId = true) :
    LeftAlone w (w.withTables (afterCharge env sess w.repos.tables)) ↔
      ¬ ChargeTaken env sess w.repos.tables := by
  constructor
  · rintro ⟨hsame, -⟩ htaken
    exact (afterCharge_taken huser htaken).2 (hsame .accountRecord)
  · intro hrefused
    rw [afterCharge_refused huser hrefused]
    exact ⟨fun T => .refl _ T, rfl⟩

/-- A handler that goes on has settled the ride exactly when the charge, the
archive and the bike went well. -/
theorem settled_iff (huser : w.repos.tables.hasUser sess.userId = true)
    (hlat : validLat req.endLat = true) (hlng : validLng req.endLng = true)
    (hlive : w.sessions.find req.rideNo = some sess) (newBal : Int32) :
    AllOrNothing req sess env w (World.run env
        (finishRide req sess (archiveNow P env req sess) newBal)
        (w.withTables (afterCharge env sess w.repos.tables))) ↔
      ChargeTaken env sess w.repos.tables ∧
        (w.repos.tables.Accepts env (archiveNow P env req sess) ∨
          w.repos.tables.HoldsRide (archiveNow P env req sess)) ∧
        Parkable env w.repos.tables.bike req sess.bikeId := by
  obtain ⟨hfee, -⟩ := computeFee_range (computeFee_duration env.now sess.startTs)
  obtain ⟨haccepts, hholds, hbikes⟩ := afterCharge_archive env sess w (archiveNow P env req sess)
  obtain ⟨out, w', hrun⟩ : ∃ out w', World.run env
      (finishRide req sess (archiveNow P env req sess) newBal)
      (w.withTables (afterCharge env sess w.repos.tables)) = (out, w') := ⟨_, _, rfl⟩
  obtain ⟨rfl, hsessions, haccount, hride, hbike⟩ := finishRide_spec hlat hlng _ newBal hrun
  have hgone : w'.sessions.find req.rideNo = none := by
    rw [hsessions, ← w.sessions.keyed req.rideNo sess hlive]
    exact Function.update_self ..
  have hpaid : (w'.repos.tables.balance sess.userId).toInt =
      (w.repos.tables.balance sess.userId).toInt - (fee (duration env.now sess.startTs)).toInt ↔
        ChargeTaken env sess w.repos.tables := by
    have hbal : w'.repos.tables.balance sess.userId =
        (afterCharge env sess w.repos.tables).balance sess.userId := by
      rw [Tables.balance, haccount]
      rfl
    rw [hbal]
    by_cases htaken : ChargeTaken env sess w.repos.tables
    · simp only [(afterCharge_taken huser htaken).1, htaken]
    · simp only [afterCharge_refused huser htaken, htaken, iff_false]
      omega
  rw [hrun]
  change Settled req sess env w _ w' ↔ _
  unfold Settled
  change _ ∧ w'.repos.tables.HoldsRide (archiveNow P env req sess) ∧ _ ∧ _ ↔ _
  rw [hride, hbike]
  change _ ∧ ((afterCharge env sess w.repos.tables).Accepts env _ ∨
    (afterCharge env sess w.repos.tables).HoldsRide _) ∧
      Parkable env (afterCharge env sess w.repos.tables).bike req _ ∧ _ ↔ _
  rw [haccepts, hholds, hbikes]
  exact and_congr hpaid (and_congr_right fun _ => and_iff_left hgone)

/-- **When `end_ride` is all or nothing.** Either the charge is rolled back
and the balance that is read instead is negative, so the handler stops; or
the charge goes through, the balance read after it is not negative, the
archive accepts the ride or has it already, and the bike can be parked. -/
theorem allOrNothing_iff (hauth : Authorised env w req.sessionToken sess.userId)
    (hlat : validLat req.endLat = true) (hlng : validLng req.endLng = true)
    (hlive : w.sessions.find req.rideNo = some sess) :
    AllOrNothing req sess env w (World.run env (endRide P (some req)) w) ↔
      (¬ ChargeTaken env sess w.repos.tables ∧ env.fails .balanceSelect = false ∧
        w.repos.tables.balance sess.userId < 0) ∨
      (ChargeTaken env sess w.repos.tables ∧
        (env.fails .balanceSelect = true ∨
          (fee (duration env.now sess.startTs)).toInt ≤
            (w.repos.tables.balance sess.userId).toInt) ∧
        (w.repos.tables.Accepts env (archiveNow P env req sess) ∨
          w.repos.tables.HoldsRide (archiveNow P env req sess)) ∧
        Parkable env w.repos.tables.bike req sess.bikeId) := by
  have huser := hauth.hasUser
  have hshort := short_iff env huser
  rw [run_endRide hauth.run hlat hlng hlive, run_settleRide]
  by_cases htaken : ChargeTaken env sess w.repos.tables
  · rw [if_pos htaken] at hshort
    simp only [htaken, not_true_eq_false, false_and, true_and, false_or]
    split
    next h =>
      -- the charge stays, though the answer is that the balance is short
      obtain ⟨hread, hlow⟩ := hshort.mp h
      have hcovered : ¬ (env.fails .balanceSelect = true ∨
          (fee (duration env.now sess.startTs)).toInt ≤
            (w.repos.tables.balance sess.userId).toInt) := by
        rw [hread]
        simp only [Bool.false_eq_true, false_or]
        omega
      simp only [hcovered, false_and, iff_false]
      exact fun hleft => (leftAlone_iff huser).mp hleft htaken
    next h =>
      have hcovered : env.fails .balanceSelect = true ∨
          (fee (duration env.now sess.startTs)).toInt ≤
            (w.repos.tables.balance sess.userId).toInt := by
        rw [hshort, not_and_or, Bool.not_eq_false, not_lt] at h
        exact h
      rw [settled_iff huser hlat hlng hlive]
      simp only [htaken, hcovered, true_and]
  · rw [if_neg htaken] at hshort
    simp only [htaken, not_false_eq_true, true_and, false_and, or_false]
    rw [← hshort]
    split
    next h =>
      simp only [h, iff_true]
      exact (leftAlone_iff huser).mpr htaken
    next h =>
      rw [settled_iff huser hlat hlng hlive]
      simp only [htaken, h, false_and]

/-- The end of the small ride, where it started. -/
def EndRideRequest.small : EndRideRequest := ⟨"token", "R19700101000101", .fin 0, .fin 0⟩

/-- A covered end in fair weather is all. -/
theorem allOrNothing_fair :
    AllOrNothing .small .small (.calm 200) (.riding 1000)
      (World.run (.calm 200) (endRide .standstill (some .small)) (.riding 1000)) := by
  have hauth : Authorised (.calm 200) (World.riding 1000) EndRideRequest.small.sessionToken
      RideSession.small.userId :=
    ⟨"13800000000", ⟨1, "13800000000"⟩, by decide +kernel, by decide +kernel, rfl⟩
  have hlive : (World.riding 1000).sessions.find EndRideRequest.small.rideNo =
      some RideSession.small := by decide +kernel
  refine (allOrNothing_iff hauth (by decide +kernel) (by decide +kernel) hlive).mpr
    (.inr ⟨by decide +kernel, .inr (by decide +kernel), .inl ?_, ?_⟩)
  · exact
      { sites := by decide
        pointSites := fun _ _ => rfl
        fits := by decide +kernel
        pointsFit := by decide +kernel
        short := by decide +kernel
        user := by decide +kernel
        bike := by decide +kernel
        fresh := by decide +kernel }
  · exact ⟨⟨1, "SB00000001", 0, 0, .rented⟩, by decide, rfl, .inl rfl, .inl rfl⟩

/-- The end of the small ride when the insertion of the ride fails. -/
def lostRide : Outcome EndRideResponse × World Platform.standstill .production :=
  World.run (.losing .rideInsert 200) (endRide .standstill (some .small)) (.riding 1000)

/-- The answer is Ok, the ride is paid and its session gone, and no ride is archived. -/
theorem paid_not_archived :
    Authorised (.losing .rideInsert 200) (World.riding 1000) EndRideRequest.small.sessionToken
        RideSession.small.userId ∧
      validLat EndRideRequest.small.endLat = true ∧ validLng EndRideRequest.small.endLng = true ∧
      (World.riding 1000).sessions.find EndRideRequest.small.rideNo = some .small ∧
      lostRide.1.map (·.code) = .ok 200 ∧ lostRide.2.repos.tables.balance 1 = 900 ∧
      lostRide.2.repos.tables.ride = [] ∧
      lostRide.2.sessions.find EndRideRequest.small.rideNo = none ∧
      ¬ AllOrNothing .small .small (.losing .rideInsert 200) (.riding 1000) lostRide := by
  have hride : lostRide.2.repos.tables.ride = [] := by decide +kernel
  have hok : lostRide.1.map (·.code) = .ok 200 := by decide +kernel
  refine ⟨⟨"13800000000", ⟨1, "13800000000"⟩, by decide +kernel, by decide +kernel, rfl⟩,
    by decide +kernel, by decide +kernel, by decide +kernel, hok, by decide +kernel, hride,
    by decide +kernel, ?_⟩
  revert hride hok
  obtain ⟨out, w'⟩ := lostRide
  intro hride hok h
  cases out with
  | error what => cases hok
  | ok rsp =>
    have hcode : rsp.code = ErrCode.ok.code := Except.ok.inj hok
    rw [AllOrNothing, if_pos hcode] at h
    obtain ⟨-, ⟨row, hrow, -⟩, -⟩ := h
    rw [hride] at hrow
    cases hrow

end SharedBike.Server
