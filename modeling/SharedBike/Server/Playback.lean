import SharedBike.Server.Trajectories

/-!
# Playing a ride back

`end_ride` sums the distances along the points as its sort left them, by
`elapsed_sec`; `get_ride_detail` reads them back by `seq`. The points of an
archived ride stay as they were inserted (`keeps_handleAll`), so what a caller is
shown at any later time is the archived path, put in the order of the numbers.
That is the path itself when the numbers increase along it, and they do so for
every sort exactly when the numbers are distinct and the elapsed times follow
them (`playback_follows_iff`).
-/

namespace SharedBike.Server

open SharedBike.Common SharedBike.Lib

variable {P : Platform} {s : Production P}

/-! ## The ids of the rides -/

theorem Stmt.ride_le_bump (ids : Counters) (stmt : Stmt) : ids.ride ≤ (stmt.bump ids).ride := by
  cases stmt with
  | insertRide inp => exact Int.le_add_one (Int.le_refl _)
  | _ => exact Int.le_refl _

/-- No statement sets the counter of the rides back. -/
theorem Db.ride_le_exec (env : Env) (c : SqlCall) (db : Db P) :
    db.ids.ride ≤ (Db.exec env c db).2.ids.ride := by
  cases c with
  | acquire => exact Int.le_refl _
  | release conn => exact Int.le_refl _
  | query conn site stmt =>
    cases hcontrol : stmt.control with
    | true =>
      cases stmt <;> cases hcontrol <;> simp only [exec, query] <;>
        first | exact Int.le_refl _ | (split <;> exact Int.le_refl _)
    | false =>
      rw [exec_query, query_eq env conn site hcontrol]
      split
      · exact Int.le_refl _
      · split
        · exact Int.le_refl _
        · exact Stmt.ride_le_bump db.ids stmt

namespace Production

theorem ride_le_sql {α : Type} (env : Env) (p : Sql α) (s : Production P) :
    s.ids.ride ≤ (s.sql env p).2.ids.ride := by
  show s.ids.ride ≤ (p.run (Db.exec env) ⟨s.tables, none, s.ids, 0⟩).2.ids.ride
  rw [Prog.run_snd]
  refine Prog.after_keeps (I := fun db : Db P => s.ids.ride ≤ db.ids.ride) _ ?_ (Int.le_refl _)
  intro c _ db hle
  exact Int.le_trans hle (Db.ride_le_exec env c db)

theorem ride_le_exec (env : Env) (c : RepoCall) (s : Production P) :
    s.ids.ride ≤ (exec env c s).2.ids.ride := by
  cases hop : Mysql.operation P c with
  | some p =>
    rw [exec_operation hop]
    exact ride_le_sql env p s
  | none =>
    -- the codes and the sign-ins are not in the database
    cases c <;> first | exact Int.le_refl _ | cases hop

/-! ## A ride stays as it was archived -/

/-- The ride of `inp` stands in the tables as `row`, with the points of `inp` in
their order and no others, and its id is not given out again. -/
structure Keeps (inp : CreateRideInput) (row : RideRow) (s : Production P) : Prop where
  ride : row ∈ s.tables.ride
  issued : row.id < s.ids.ride
  points : inp.points.map (·.row row.id) =
    (s.tables.ridePosition.filter (·.rideId = row.id)).map some

theorem rideId_of_rows {points : List RidePoint} {id : Int} {rows : List PositionRow}
    (h : points.map (·.row id) = rows.map some) : ∀ r ∈ rows, r.rideId = id := by
  intro r hr
  have hmem : some r ∈ points.map (·.row id) := h ▸ List.mem_map_of_mem hr
  obtain ⟨p, -, hp⟩ := List.mem_map.mp hmem
  exact RidePoint.row_rideId hp

/-- Another ride goes under another id. -/
theorem Keeps.createWithPoints {inp : CreateRideInput} {row : RideRow} (h : s.Keeps inp row)
    (env : Env) (inp' : CreateRideInput) :
    (exec env (.createWithPoints inp') s).2.Keeps inp row := by
  have hissued := Int.lt_of_lt_of_le h.issued (ride_le_exec env (.createWithPoints inp') s)
  obtain ⟨ids, -, heq⟩ := s.sql_createWithPoints env inp'
  rw [exec, heq] at hissued ⊢
  cases harchive : s.tables.archiveRide env s.ids.ride inp' with
  | none =>
    rw [harchive] at hissued
    exact ⟨h.ride, hissued, h.points⟩
  | some t =>
    rw [harchive] at hissued
    obtain ⟨row', rows, -, hride, hrows, hpos⟩ := Tables.archiveRide_rows harchive
    have hother : rows.filter (·.rideId = row.id) = [] := by
      refine List.filter_eq_nil_iff.mpr ?_
      intro r hr hid
      have hsame := (rideId_of_rows hrows r hr).symm.trans (of_decide_eq_true hid)
      exact absurd h.issued (by omega)
    refine ⟨?_, hissued, ?_⟩
    · rw [hride]
      exact List.mem_append_left _ h.ride
    · rw [h.points, hpos, List.filter_append, hother, List.append_nil]

theorem Keeps.exec {inp : CreateRideInput} {row : RideRow} (h : s.Keeps inp row) (env : Env)
    (c : RepoCall) : (exec env c s).2.Keeps inp row := by
  by_cases hquiet : .ride ∉ c.targets ∧ .ridePosition ∉ c.targets
  · have hride : _ = _ := exec_sameIn env c s hquiet.1
    have hpos : _ = _ := exec_sameIn env c s hquiet.2
    refine ⟨?_, Int.lt_of_lt_of_le h.issued (ride_le_exec env c s), ?_⟩
    · rw [hride]
      exact h.ride
    · rw [hpos]
      exact h.points
  · cases c with
    | createWithPoints inp' => exact h.createWithPoints env inp'
    | _ => exact absurd (by simp [RepoCall.targets]) hquiet

end Production

namespace World

/-- Requests that are served one after the other. -/
def handleAll (w : World P .production) (later : List Arrival) : World P .production :=
  later.foldl handle w

theorem keeps_after {inp : CreateRideInput} {row : RideRow} {w : World P .production}
    (h : Production.Keeps inp row w.repos) (env : Env) (cs : List Call) :
    Production.Keeps inp row (w.after env cs).repos := by
  refine Prog.after_keeps (I := fun w : World P .production => Production.Keeps inp row w.repos)
    _ ?_ h
  intro c _ w h
  cases c with
  | repo c => exact h.exec env c
  | ride c => exact h
  | nowUnix => exact h
  | today => exact h

/-- Whatever is asked of the server later, the ride stays. -/
theorem keeps_handleAll {inp : CreateRideInput} {row : RideRow} {w : World P .production}
    (h : Production.Keeps inp row w.repos) (later : List Arrival) :
    Production.Keeps inp row (w.handleAll later).repos := by
  induction later generalizing w with
  | nil => exact h
  | cons e later ih =>
    refine ih ?_
    rw [handle, run, Prog.run_snd]
    exact keeps_after h e.env _

end World

/-! ## What is shown of it -/

/-- A point as the database gives it back. -/
def RidePoint.shown (P : Platform) (p : RidePoint) : Option PointInfo :=
  (p.row 0).map fun r => ⟨P.atof7 r.lat, P.atof7 r.lng, r.elapsedSec⟩

theorem RidePoint.shown_eq {p : RidePoint} {id : Int} {r : PositionRow} (h : p.row id = some r) :
    p.shown P = some ⟨P.atof7 r.lat, P.atof7 r.lng, r.elapsedSec⟩ ∧ r.seq = p.seq := by
  simp only [row, Option.bind_eq_bind, Option.bind_eq_some_iff, Option.pure_def,
    Option.some.injEq] at h
  obtain ⟨lat, hlat, lng, hlng, rfl⟩ := h
  simp only [shown, row, hlat, hlng, Option.bind_eq_bind, Option.bind_some, Option.pure_def,
    Option.map_some, and_self]

/-- The columns of the points and of their rows, side by side. -/
theorem rows_columns {points : List RidePoint} {id : Int} {rows : List PositionRow}
    (h : points.map (·.row id) = rows.map some) :
    points.map (·.shown P) =
        rows.map (fun r => some ⟨P.atof7 r.lat, P.atof7 r.lng, r.elapsedSec⟩) ∧
      rows.map (·.seq) = points.map (·.seq) := by
  induction points generalizing rows with
  | nil =>
    cases rows with
    | nil => exact ⟨rfl, rfl⟩
    | cons r rows => cases h
  | cons p points ih =>
    cases rows with
    | nil => cases h
    | cons r rows =>
      rw [List.map_cons, List.map_cons, List.cons.injEq] at h
      obtain ⟨hshown, hseq⟩ := RidePoint.shown_eq (P := P) h.1
      obtain ⟨hrest, hseqs⟩ := ih h.2
      constructor
      · rw [List.map_cons, List.map_cons, hshown, hrest]
      · rw [List.map_cons, List.map_cons, hseq, hseqs]

namespace World

variable {env : Env} {w : World P .production} {inp : CreateRideInput} {row : RideRow}

theorem rideFound_of_keeps (h : Production.Keeps inp row w.repos) {rideNo : String}
    (hno : row.rideNo = rideNo)
    (hread : ¬ (env.fails .rideSelect = true ∨ rideByNoWhole rideNo = false)) :
    w.rideFound env rideNo = some (Mysql.rowToRide P row) := by
  have hnamed : w.repos.tables.rideNamed rideNo = some row :=
    (Keyed.find?_eq_some_iff w.repos.tables.ride_no).mpr ⟨h.ride, by rw [hno]⟩
  rw [rideFound, if_neg hread, hnamed]
  rfl

/-- Points whose numbers increase are read in the order they were archived in. -/
theorem pointsFound_of_keeps (h : Production.Keeps inp row w.repos)
    (hid : 0 ≤ row.id ∧ row.id < 2 ^ 31) (hread : env.fails .pointsSelect = false)
    (hseq : inp.points.Pairwise fun p q => p.seq < q.seq) :
    (w.pointsFound env (Int32.ofInt row.id)).map (fun p => some ⟨p.lat, p.lng, p.elapsedSec⟩) =
      inp.points.map (·.shown P) := by
  have hback : (Int32.ofInt row.id).toInt = row.id := Int32.toInt_ofInt_of_le (by omega) (by omega)
  obtain ⟨hshown, hseqs⟩ := rows_columns (P := P) h.points
  have hsorted : (w.repos.tables.ridePosition.filter (·.rideId = row.id)).Pairwise
      fun a b => a.seq ≤ b.seq := by
    have hcolumn : (inp.points.map (·.seq)).Pairwise (· ≤ ·) :=
      List.pairwise_map.mpr (hseq.imp fun hlt => Int32.le_of_lt hlt)
    rw [← hseqs] at hcolumn
    exact List.pairwise_map.mp hcolumn
  rw [pointsFound, hread, if_neg Bool.false_ne_true, Tables.pointsOf, hback,
    hsorted.insertionSort_eq, hshown, List.map_map]
  rfl

/-- What a caller is shown of a ride whose numbers increase is the ride. -/
theorem detail_of_keeps (h : Production.Keeps inp row w.repos)
    (hid : 0 ≤ row.id ∧ row.id < 2 ^ 31) (hread : env.fails .pointsSelect = false)
    (hseq : inp.points.Pairwise fun p q => p.seq < q.seq) {req : GetRideDetailRequest}
    (hno : row.rideNo = req.rideNo) {detail : GetRideDetailResponse}
    (hok : (World.run env (getRideDetail P (some req)) w).1 = .ok detail)
    (hcode : detail.code = ErrCode.ok.code) :
    detail.points.map some = inp.points.map (·.shown P) := by
  cases huid : w.holder env req.sessionToken with
  | none =>
    rw [getRideDetail, run_user, huid] at hok
    cases hok
    exact absurd hcode (by decide)
  | some uid =>
    rw [run_getRideDetail huid, Except.ok.injEq] at hok
    subst hok
    rw [detailFor] at hcode ⊢
    by_cases hlost : env.fails .rideSelect = true ∨ rideByNoWhole req.rideNo = false
    · rw [rideFound, if_pos hlost] at hcode
      exact absurd (show GetRideDetailResponse.code (.fail .invalidData) = _ from hcode) (by decide)
    · rw [rideFound_of_keeps h hno hlost] at hcode ⊢
      dsimp only at hcode ⊢
      split at hcode
      case isTrue => exact absurd hcode (by decide)
      case isFalse howner =>
        rw [if_neg howner, ← pointsFound_of_keeps h hid hread hseq, List.map_map]
        rfl

end World

/-! ## The ride of a settled session -/

section Settled

variable {env : Env} {req : EndRideRequest} {sess : RideSession} {w : World P .production}

/-- Whether a ride is taken does not depend on the order of its points. -/
theorem accepts_withSort {t : Tables P} (h : t.Accepts env (archiveNow P env req sess))
    (σ : PointSort) : t.Accepts env (archiveNow (P.withSort σ) env req sess) := by
  have hperm : (archiveNow (P.withSort σ) env req sess).points.Perm
      (archiveNow P env req sess).points := (σ.perm _).trans (P.sort_perm _).symm
  refine ⟨h.sites, ?_, ?_, ?_, h.short, h.user, h.bike, h.fresh⟩
  · rw [hperm.length_eq]
    exact h.pointSites
  · have hfits := h.fits
    simp only [CreateRideInput.row, Option.bind_eq_bind, Option.isSome_bind, Option.pure_def,
      Option.isSome_some] at hfits ⊢
    exact hfits
  · intro p hp
    exact h.pointsFit p (hperm.mem_iff.mp hp)

/-- After the archive, `finishRide` touches the bike and the session only. -/
theorem ride_finishRide (inp : CreateRideInput) (newBal : Int32) (w : World P .production) :
    (w.after env (World.calls env (finishRide req sess inp newBal) w)).repos.tables.ride =
      (Production.exec env (.createWithPoints inp) w.repos).2.tables.ride := by
  have hlocation : _ = _ := Production.exec_sameIn env
    (.updateLocation sess.bikeId req.endLat req.endLng)
    (Production.exec env (.createWithPoints inp) w.repos).2 (T := .ride) (by simp [RepoCall.targets])
  have hstatus : _ = _ := Production.exec_sameIn env (.updateStatus sess.bikeId .idle)
    (Production.exec env (.updateLocation sess.bikeId req.endLat req.endLng)
      (Production.exec env (.createWithPoints inp) w.repos).2).2 (T := .ride)
    (by simp [RepoCall.targets])
  exact hstatus.trans hlocation

/-- What an archive that goes through leaves behind. -/
theorem keeps_createWithPoints {inp : CreateRideInput} {t : Tables P}
    (hids : ∀ r ∈ s.tables.ride, r.id < s.ids.ride)
    (harchive : s.tables.archiveRide env s.ids.ride inp = some t) :
    ∃ row, row.id = s.ids.ride ∧ row.rideNo = inp.rideNo ∧
      (Production.exec env (.createWithPoints inp) s).2.Keeps inp row := by
  obtain ⟨row, rows, hrow, hride, hrows, hpos⟩ := Tables.archiveRide_rows harchive
  obtain ⟨hid, hno, -, -⟩ := CreateRideInput.row_keys hrow
  obtain ⟨ids, hnext, heq⟩ := s.sql_createWithPoints env inp
  rw [harchive] at heq hnext
  refine ⟨row, hid, hno, ?_⟩
  rw [Production.exec, heq]
  refine ⟨?_, ?_, ?_⟩
  · rw [hride]
    exact List.mem_append_right _ List.mem_cons_self
  · have := hnext rfl
    show row.id < ids.ride
    omega
  · -- the id is new, so there were no points under it
    have hold : s.tables.ridePosition.filter (·.rideId = row.id) = [] := by
      refine List.filter_eq_nil_iff.mpr ?_
      intro p hp hpid
      obtain ⟨r, hr, hrid⟩ := List.mem_map.mp (s.tables.position_ride p hp)
      have hlt := hids r hr
      have hsame := of_decide_eq_true hpid
      omega
    have hnew : rows.filter (·.rideId = row.id) = rows := by
      refine List.filter_eq_self.mpr ?_
      intro r hr
      exact decide_eq_true ((Production.rideId_of_rows hrows r hr).trans hid.symm)
    show inp.points.map (·.row row.id) = (t.ridePosition.filter (·.rideId = row.id)).map some
    rw [hpos, List.filter_append, hold, hnew, List.nil_append, hid, hrows]

/-- The calls before the archive leave the archive alone. -/
theorem quiet_after (env : Env) (w : World P .production) {before : List Call}
    (hquiet : ∀ c ∈ before, c.Quiet) :
    (w.after env before).repos.tables.ride = w.repos.tables.ride ∧
      w.repos.ids.ride ≤ (w.after env before).repos.ids.ride := by
  refine Prog.after_keeps (I := fun w' : World P .production =>
    w'.repos.tables.ride = w.repos.tables.ride ∧ w.repos.ids.ride ≤ w'.repos.ids.ride) _ ?_
    ⟨rfl, Int.le_refl _⟩
  rintro c hc w' ⟨hride, hids⟩
  cases c with
  | repo c =>
    have htarget : .ride ∉ c.targets := by
      cases c with
      | createWithPoints inp => exact absurd rfl (hquiet _ hc inp)
      | _ => simp [RepoCall.targets]
    have hsame : _ = _ := Production.exec_sameIn env c w'.repos htarget
    exact ⟨hsame.trans hride, Int.le_trans hids (Production.ride_le_exec env c w'.repos)⟩
  | ride c => exact ⟨hride, hids⟩
  | nowUnix => exact ⟨hride, hids⟩
  | today => exact ⟨hride, hids⟩

/-- An `end_ride` that answers Ok to the end of a live ride and adds a ride to
the archive, where the ids of the rides fit an `int`. -/
structure Archived (env : Env) (req : EndRideRequest) (sess : RideSession)
    (w : World P .production) : Prop where
  live : w.sessions.find req.rideNo = some sess
  ok : ∃ rsp, (World.run env (endRide P (some req)) w).1 = .ok rsp ∧ rsp.code = ErrCode.ok.code
  added : (World.run env (endRide P (some req)) w).2.repos.tables.ride ≠ w.repos.tables.ride
  ids : ∀ r ∈ w.repos.tables.ride, r.id < w.repos.ids.ride
  fits : ∀ r ∈ (World.run env (endRide P (some req)) w).2.repos.tables.ride,
    0 ≤ r.id ∧ r.id < 2 ^ 31

/-- The ride is kept, whatever the sort made of its points. -/
theorem Archived.keeps (h : Archived env req sess w) (σ : PointSort) :
    ∃ row, (0 ≤ row.id ∧ row.id < 2 ^ 31) ∧ row.rideNo = sess.rideNo ∧
      Production.Keeps (archiveNow (P.withSort σ) env req sess) row
        (World.run env (endRide (P.withSort σ) (some req)) w).2.repos := by
  obtain ⟨rsp, hok, hcode⟩ := h.ok
  obtain ⟨before, newBal, hquiet, hcalls⟩ := endRide_settles h.live hok hcode
  obtain ⟨hride, hids⟩ := quiet_after env w hquiet
  have hend : ∀ Q, (World.run env (endRide Q (some req)) w).2 =
      (w.after env before).after env (World.calls env
        (finishRide req sess (archiveNow Q env req sess) newBal) (w.after env before)) := by
    intro Q
    rw [World.run, Prog.run_snd]
    change w.after env (World.calls env (endRide Q (some req)) w) = _
    rw [hcalls Q, World.after, Prog.after_append]
    rfl
  set s : Production P := (w.after env before).repos with hs
  have hids' : ∀ r ∈ s.tables.ride, r.id < s.ids.ride := by
    intro r hr
    rw [hride] at hr
    exact Int.lt_of_lt_of_le (h.ids r hr) hids
  -- the archive took the ride, so it takes it in any order
  have hadded : s.tables.Accepts env (archiveNow P env req sess) := by
    rw [← Tables.archiveRide_isSome s.ids.ride]
    by_contra hnone
    rw [Option.not_isSome_iff_eq_none] at hnone
    obtain ⟨ids, -, heq⟩ := s.sql_createWithPoints env (archiveNow P env req sess)
    rw [hnone] at heq
    refine h.added ?_
    rw [hend P, ride_finishRide, Production.exec, ← hs, heq]
    exact hride
  obtain ⟨t, ht⟩ := Option.isSome_iff_exists.mp
    ((Tables.archiveRide_isSome s.ids.ride).mpr hadded)
  obtain ⟨t', ht'⟩ := Option.isSome_iff_exists.mp
    ((Tables.archiveRide_isSome s.ids.ride).mpr (accepts_withSort hadded σ))
  obtain ⟨row₀, hid₀, -, hkeeps₀⟩ := keeps_createWithPoints hids' ht
  obtain ⟨row, hid, hno, hkeeps⟩ := keeps_createWithPoints hids' ht'
  refine ⟨row, ?_, hno, ?_⟩
  · rw [hid, ← hid₀]
    refine h.fits row₀ ?_
    rw [hend P, ride_finishRide]
    exact hkeeps₀.ride
  · rw [hend]
    exact (hkeeps.exec env (.updateLocation sess.bikeId req.endLat req.endLng)).exec env
      (.updateStatus sess.bikeId .idle)

/-- Whoever asks for the ride at any later time is shown the path, in its order. -/
def ShowsPath (env : Env) (req : EndRideRequest) (sess : RideSession) (w : World P .production)
    (σ : PointSort) : Prop :=
  ∀ (later : List Arrival) (env' : Env) (ask : GetRideDetailRequest)
    (detail : GetRideDetailResponse), ask.rideNo = sess.rideNo → env'.fails .pointsSelect = false →
    (World.run env' (getRideDetail P (some ask))
      ((World.run env (endRide (P.withSort σ) (some req)) w).2.handleAll later)).1 = .ok detail →
    detail.code = ErrCode.ok.code →
      detail.points.map some = (archiveNow (P.withSort σ) env req sess).points.map (·.shown P)

/-- The numbers of a ride's points are distinct, and its elapsed times follow them. -/
def RideSession.InStep (sess : RideSession) (req : EndRideRequest) (durationSec : Int32) : Prop :=
  ((sess.visited req durationSec).map (·.seq.toInt)).Nodup ∧
    ∀ a ∈ sess.visited req durationSec, ∀ b ∈ sess.visited req durationSec,
      a.seq.toInt < b.seq.toInt → a.elapsedSec.toInt < b.elapsedSec.toInt

/-- **When a replay follows the path that was measured.** For an archived ride
and every sort, the numbers increase along the path whose segments were summed,
the number of the end does not overflow, and the path is what `get_ride_detail`
shows, exactly when the numbers are distinct, the elapsed times follow them and
the last number is not the largest of its type. -/
theorem playback_follows_iff (h : Archived env req sess w) :
    (sess.lastSeq.toInt + 1 < 2 ^ 31 ∧ ∀ σ : PointSort,
      ((archiveNow (P.withSort σ) env req sess).points.Pairwise fun p q => p.seq < q.seq) ∧
        ShowsPath env req sess w σ) ↔
      sess.lastSeq.toInt + 1 < 2 ^ 31 ∧ sess.InStep req (duration env.now sess.startTs) := by
  refine and_congr_right fun _ => ?_
  have hincreasing : (∀ σ : PointSort,
      (archiveNow (P.withSort σ) env req sess).points.Pairwise fun p q => p.seq < q.seq) ↔
        sess.InStep req (duration env.now sess.startTs) := by
    rw [RideSession.InStep, ← forall_increasing_iff (k := fun p : RidePoint => p.elapsedSec.toInt)
      (j := fun p : RidePoint => p.seq.toInt)]
    simp only [← Int32.lt_iff_toInt_lt, ← Int32.le_iff_toInt_le]
    exact P.forall_sort_iff
  rw [← hincreasing]
  constructor
  · intro hall σ
    exact (hall σ).1
  · intro hall σ
    refine ⟨hall σ, ?_⟩
    obtain ⟨row, hid, hno, hkeeps⟩ := h.keeps σ
    intro later env' ask detail hask hread hok hcode
    exact World.detail_of_keeps (World.keeps_handleAll hkeeps later) hid hread (hall σ)
      (hno.trans hask.symm) hok hcode

/-- The ride with two reports on the way is shown as it was measured. -/
theorem playback_follows_small :
    Archived (.calm 200) .small .underway World.underway ∧
      ShowsPath (.calm 200) .small .underway World.underway Platform.standstill.pointSort ∧
      (World.run (.calm 300) (getRideDetail .standstill (some ⟨"token", "R19700101000101"⟩))
        (World.run (.calm 200) (endRide .standstill (some .small)) World.underway).2).1.map
          (fun detail => (detail.code, detail.points.map (·.elapsedSec))) =
        .ok (200, [0, 20, 50, 100]) := by
  have harchived : Archived (.calm 200) .small .underway World.underway :=
    { live := World.underway_find
      ok := ⟨_, World.underway_ends, rfl⟩
      added := by decide +kernel
      ids := fun _ hmem => absurd hmem List.not_mem_nil
      fits := by decide +kernel }
  have hstep : RideSession.underway.InStep .small
      (duration (200 : Nat) RideSession.underway.startTs) := by
    unfold RideSession.InStep
    decide +kernel
  refine ⟨harchived, ?_, by decide +kernel⟩
  exact (((playback_follows_iff harchived).mpr ⟨by decide, hstep⟩).2 _).2

/-- The small ride with two reports, the later of which has the smaller elapsed time. -/
def World.reportedTwice : World Platform.standstill .production :=
  ((World.riding 1000).handle
    ⟨.positionReport (some ⟨"R19700101000101", 1, .fin 1, .fin 1, 60⟩), .calm 150⟩).handle
    ⟨.positionReport (some ⟨"R19700101000101", 2, .fin 2, .fin 2, 30⟩), .calm 160⟩

/-- The distance is summed along one path, and another one is shown. -/
theorem playback_reordered :
    (World.run (.calm 200) (endRide .standstill (some .small)) World.reportedTwice).1.map (·.code) =
        .ok 200 ∧
      (World.reportedTwice.sessions.find EndRideRequest.small.rideNo).map (fun sess =>
        (archiveNow .standstill (.calm 200) .small sess).points.map fun p => (p.seq, p.elapsedSec)) =
          some [(0, 0), (2, 30), (1, 60), (3, 100)] ∧
      (World.run (.calm 300) (getRideDetail .standstill (some ⟨"token", "R19700101000101"⟩))
        (World.run (.calm 200) (endRide .standstill (some .small)) World.reportedTwice).2).1.map
          (fun detail => (detail.code, detail.points.map (·.elapsedSec))) =
        .ok (200, [0, 60, 30, 100]) := by
  decide +kernel

end Settled

end SharedBike.Server
