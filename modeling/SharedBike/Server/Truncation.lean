import SharedBike.Server.Escapes

/-!
# Statements in fixed buffers

What `snprintf` leaves out is missing from the statement that is sent, and nobody
looks at what it returns.

`list_by_user` has 256 bytes, of which five are left for the digits of the user's id
and of the limit. A caller with the id 1000 who asks for the usual 20 rides is shown
2, and from 10000 on none. `create_with_points` has 512 bytes for the ride, which are
always enough: its number was made by the server and its places passed the checks.
The places of a report pass none, and `%.7f` writes all their digits, for which the
256 bytes of a point may not be enough. Such a statement is no loss by itself, since
the column would refuse the value too (`RidePoint.whole_of_row`).
-/

namespace SharedBike.Server

open SharedBike.Common SharedBike.Lib

variable {P : Platform} {p : RidePoint}

/-! ## The query -/

/-- The id and the limit have no more than five digits. -/
def ListShort (uid limit : Int32) : Prop :=
  uid.toInt < 100 ∨ uid.toInt < 1000 ∧ limit.toInt < 100 ∨ uid.toInt < 10000 ∧ limit.toInt < 10

instance (uid limit : Int32) : Decidable (ListShort uid limit) := by
  unfold ListShort
  infer_instance

theorem listShort_iff {uid limit : Int32} (huid : 0 ≤ uid.toInt) (hlo : 0 ≤ limit.toInt)
    (hhi : limit.toInt < 1000) :
    ListShort uid limit ↔
      (Decimal.text uid.toInt).length + (Decimal.text limit.toInt).length ≤ 5 := by
  have huid₀ := Decimal.length_text_pos uid.toInt
  have huid₂ := Decimal.length_text_le_iff huid (k := 2) (by decide)
  have huid₃ := Decimal.length_text_le_iff huid (k := 3) (by decide)
  have huid₄ := Decimal.length_text_le_iff huid (k := 4) (by decide)
  have hlimit₀ := Decimal.length_text_pos limit.toInt
  have hlimit₁ := Decimal.length_text_le_iff hlo (k := 1) (by decide)
  have hlimit₂ := Decimal.length_text_le_iff hlo (k := 2) (by decide)
  have hlimit₃ := Decimal.length_text_le_iff hlo (k := 3) (by decide)
  unfold ListShort
  omega

/-- The query of a listing is whole, and its whole limit is read, exactly when the two numbers
are short. -/
theorem selectRides_whole_iff {uid : Int32} (huid : 1 ≤ uid) (n : Int32) :
    ((SqlText.selectRides uid (clampLimit n)).utf8ByteSize < 256 ∧
      limitLeft uid (clampLimit n) = .rows (clampLimit n).toInt.toNat) ↔
      ListShort uid (clampLimit n) := by
  obtain ⟨hlo, hhi⟩ := clampLimit_bounds n
  have hpos : 1 ≤ uid.toInt := Int32.le_iff_toInt_le.mp huid
  rw [listShort_iff (by omega) (by omega) (by omega), limitLeft_whole_iff (by omega),
    SqlText.selectRides_size]
  omega

/-! ## The insertions -/

/-- The statement for the ride fits its buffer, whichever texts its coordinates have. -/
def CreateRideInput.Whole (E : Escaper) (inp : CreateRideInput) : Prop :=
  ∀ startLat ∈ fixed7 inp.startLat, ∀ startLng ∈ fixed7 inp.startLng,
    ∀ endLat ∈ fixed7 inp.endLat, ∀ endLng ∈ fixed7 inp.endLng,
      (SqlText.insertRide (E.escape inp.rideNo) inp startLat startLng endLat endLng).utf8ByteSize <
        512

/-- The statement for a point fits its buffer. -/
def RidePoint.Whole (rideId : Int64) (p : RidePoint) : Prop :=
  ∀ lat ∈ fixed7 p.lat, ∀ lng ∈ fixed7 p.lng,
    (SqlText.insertPosition rideId p lat lng).utf8ByteSize < 256

/-- The numbers of a point have room in 256 bytes, of which the other text takes 79 and the
zero one. -/
def RidePoint.Short (rideId : Int64) (p : RidePoint) : Prop :=
  (Decimal.text rideId.toInt).length + (Decimal.text p.seq.toInt).length +
    (Decimal.text p.elapsedSec.toInt).length + width7 p.lat + width7 p.lng ≤ 176

instance (rideId : Int64) (p : RidePoint) : Decidable (p.Short rideId) := Nat.decLe ..

theorem RidePoint.whole_iff {rideId : Int64} :
    p.Whole rideId ↔ p.Short rideId := by
  have hsize : p.Whole rideId ↔ ∀ lat ∈ fixed7 p.lat, ∀ lng ∈ fixed7 p.lng,
      79 + (Decimal.text rideId.toInt).length + (Decimal.text p.seq.toInt).length +
        (Decimal.text p.elapsedSec.toInt).length + lat.length + lng.length < 256 := by
    refine forall₂_congr fun lat hlat => forall₂_congr fun lng hlng => ?_
    rw [SqlText.insertPosition_size rideId p hlat hlng]
    omega
  rw [hsize, forall_fixed7_lt_iff, Short]
  omega

/-- A value that its column holds takes twelve characters at most. -/
theorem width7_of_decimal {d : Double} (h : (decimal d).isSome) : width7 d ≤ 12 := by
  cases d with
  | nan => cases h
  | inf negative => cases h
  | fin q =>
    rw [decimal, Double.dec7, Option.isSome_filter] at h
    simp only [Option.any_some, decide_eq_true_eq] at h
    have hdigits : (Nat.toDigits 10
        ((Double.roundHalfEven (q * 10000000)).natAbs / 10 ^ 7)).length ≤ 3 :=
      (Nat.length_toDigits_le_iff (by decide) (by decide)).mpr (by omega)
    rw [width7, Decimal.length_fixed (by decide)]
    split <;> omega

theorem RidePoint.short_of_decimal (hlat : (decimal p.lat).isSome) (hlng : (decimal p.lng).isSome)
    (rideId : Int64) : p.Short rideId := by
  have hid := length_text_int64 rideId
  have hseq := length_text_int32 p.seq
  have helapsed := length_text_int32 p.elapsedSec
  have hlatWidth := width7_of_decimal hlat
  have hlngWidth := width7_of_decimal hlng
  unfold Short
  omega

theorem CreateRideInput.whole_of_decimal {E : Escaper} {inp : CreateRideInput}
    (hno : Room 64 inp.rideNo) (hstartLat : (decimal inp.startLat).isSome)
    (hstartLng : (decimal inp.startLng).isSome) (hendLat : (decimal inp.endLat).isSome)
    (hendLng : (decimal inp.endLng).isSome) : inp.Whole E := by
  intro startLat hsla startLng hsln endLat hela endLng heln
  have hsize := SqlText.insertRide_size_le (E.escape inp.rideNo) inp hsla hsln hela heln
  have hroom : (E.escape inp.rideNo).utf8ByteSize < 64 := (E.size_escape _).trans_lt hno
  have hslaLen := (length_fixed7_le hsla).trans (width7_of_decimal hstartLat)
  have hslnLen := (length_fixed7_le hsln).trans (width7_of_decimal hstartLng)
  have helaLen := (length_fixed7_le hela).trans (width7_of_decimal hendLat)
  have helnLen := (length_fixed7_le heln).trans (width7_of_decimal hendLng)
  omega

/-- A point that the table takes was sent whole: a statement that is cut has a value that the
column refuses too. -/
theorem RidePoint.whole_of_row {id : Int} (h : (p.row id).isSome) (rideId : Int64) :
    p.Whole rideId := by
  simp only [row, Option.bind_eq_bind, Option.isSome_bind, Option.any_eq_true] at h
  obtain ⟨lat, hlat, lng, hlng, -⟩ := h
  exact whole_iff.mpr (short_of_decimal (Option.isSome_of_mem hlat) (Option.isSome_of_mem hlng) _)

/-! ## What `end_ride` archives -/

namespace World

variable {env : Env} {req : EndRideRequest} {w : World P .production}

theorem settleRide_archives (sess : RideSession) (uid : Int32) :
    (settleRide P req sess uid).Makes (fun _ _ => True) fun c =>
      ∀ inp, c = .repo (.createWithPoints inp) →
        ∃ endTs amount, inp = archive P req sess uid endTs amount := by
  refine .ask (fun _ => nofun) fun endTs _ => ?_
  cases computeFee (duration endTs sess.startTs) with
  | error what => exact .done _
  | ok amount =>
    refine .ask (fun _ => nofun) fun newBal _ => .ite (fun _ => .done _) fun _ => ?_
    refine .ask ?_ fun _ _ => .ask (fun _ => nofun) fun _ _ => .ask (fun _ => nofun) fun _ _ =>
      .ask (fun _ => nofun) fun _ _ => .done _
    rintro _ ⟨⟩
    exact ⟨endTs, amount, rfl⟩

theorem replayRide_quiet (rideNo : String) (uid : Int32) :
    (replayRide rideNo uid).Makes (fun _ _ => True) Call.Quiet := by
  refine .ask (fun _ => nofun) fun found _ => ?_
  cases found with
  | none => exact .done _
  | some row => exact .ite (fun _ => .done _) fun _ => .ask (fun _ => nofun) fun _ _ => .done _

/-- A ride is archived only of a live session and with an end that passed the checks. -/
theorem endRide_archives {inp : CreateRideInput}
    (h : .repo (.createWithPoints inp) ∈ World.calls env (endRide P (some req)) w) :
    ∃ sess uid endTs amount, w.sessions.find req.rideNo = some sess ∧
      validLat req.endLat = true ∧ validLng req.endLng = true ∧
      inp = archive P req sess uid endTs amount := by
  rw [endRide, World.calls_user, List.mem_append,
    or_iff_right fun hmem => quiet_requireUser env req.sessionToken w _ hmem inp rfl] at h
  have hsessions : (World.run env (requireUser req.sessionToken) w).2.sessions = w.sessions :=
    sessions_requireUser req.sessionToken w
  generalize (World.run env (requireUser req.sessionToken) w).2 = w₁ at h hsessions
  cases hholder : w.holder env req.sessionToken with
  | none =>
    rw [hholder] at h
    cases h
  | some uid =>
    rw [hholder] at h
    dsimp only at h
    by_cases hvalid : (!validLat req.endLat || !validLng req.endLng) = true
    · rw [if_pos hvalid] at h
      cases h
    · rw [if_neg hvalid] at h
      simp only [Bool.or_eq_true, Bool.not_eq_true', not_or, Bool.not_eq_false] at hvalid
      have hfind : World.exec env (.ride (.find req.rideNo)) w₁ =
          (w.sessions.find req.rideNo, w₁) := by rw [← hsessions]; rfl
      simp only [World.calls, rideSessions, Prog.ask_bind, Prog.calls_call, hfind, List.mem_cons,
        reduceCtorEq, false_or] at h
      cases hlive : w.sessions.find req.rideNo with
      | none =>
        rw [hlive] at h
        exact absurd rfl ((replayRide_quiet req.rideNo uid).calls (fun _ _ => trivial) w₁ _ h inp)
      | some sess =>
        rw [hlive] at h
        dsimp only at h
        split at h
        · cases h
        · obtain ⟨endTs, amount, hinp⟩ :=
            (settleRide_archives sess uid).calls (fun _ _ => trivial) w₁ _ h inp rfl
          exact ⟨sess, uid, endTs, amount, rfl, hvalid.1, hvalid.2, hinp⟩

/-- The points of an archived ride are whole exactly when the reported ones are: the start and
the end passed the checks. -/
theorem archive_whole_iff {sess : RideSession} (hsess : sess.Unlocked)
    (hlat : validLat req.endLat = true) (hlng : validLng req.endLng = true) (uid : Int32)
    (endTs : Int) (amount : Int32) (rideId : Int64) :
    (∀ p ∈ (archive P req sess uid endTs amount).points, p.Whole rideId) ↔
      ∀ p ∈ sess.points, p.Short rideId := by
  have hstart : sess.startPoint.Short rideId :=
    RidePoint.short_of_decimal (decimal_of_validLat hsess.lat) (decimal_of_validLng hsess.lng) rideId
  have hend : ∀ durationSec, (sess.endPoint req durationSec).Short rideId := fun _ =>
    RidePoint.short_of_decimal (decimal_of_validLat hlat) (decimal_of_validLng hlng) rideId
  have hmem : ∀ p, p ∈ (archive P req sess uid endTs amount).points ↔
      p ∈ sess.visited req (duration endTs sess.startTs) := fun p => (P.sort_perm _).mem_iff
  simp only [hmem, RidePoint.whole_iff, RideSession.visited, List.cons_append, List.forall_mem_cons,
    List.forall_mem_append, List.not_mem_nil, IsEmpty.forall_iff, implies_true, hstart, hend,
    true_and, and_true]

/-- **When no statement is cut.** A listing is sent whole, and with its whole limit, exactly when
the caller's id and the limit have no more than five digits. Whatever the process has served, the
statements of an `end_ride` are whole exactly when the numbers of each reported point have room. -/
theorem statements_whole_iff (E : Escaper) :
    (∀ {uid : Int32}, 1 ≤ uid → ∀ n : Int32,
      (((SqlText.selectRides uid (clampLimit n)).utf8ByteSize < 256 ∧
          limitLeft uid (clampLimit n) = .rows (clampLimit n).toInt.toNat) ↔
        ListShort uid (clampLimit n))) ∧
    ∀ (repos : Production P) (before : List Arrival) (env : Env) (req : EndRideRequest)
      {inp : CreateRideInput},
      .repo (.createWithPoints inp) ∈
        World.calls env (endRide P (some req)) (handleAll ⟨repos, .empty⟩ before) →
      ∀ rideId : Int64, ((inp.Whole E ∧ ∀ p ∈ inp.points, p.Whole rideId) ↔
        ∀ sess, (handleAll ⟨repos, .empty⟩ before).sessions.find req.rideNo = some sess →
          ∀ p ∈ sess.points, p.Short rideId) := by
  refine ⟨fun huid n => selectRides_whole_iff huid n, ?_⟩
  intro repos before env req inp harchived rideId
  obtain ⟨sess, uid, endTs, amount, hlive, hlat, hlng, rfl⟩ := endRide_archives harchived
  have hsess : sess.Unlocked := unlocked_handleAll .empty before _ _ hlive
  have hride : (archive P req sess uid endTs amount).Whole E :=
    CreateRideInput.whole_of_decimal hsess.room (decimal_of_validLat hsess.lat)
      (decimal_of_validLng hsess.lng) (decimal_of_validLat hlat) (decimal_of_validLng hlng)
  rw [and_iff_right hride, archive_whole_iff hsess hlat hlng, hlive]
  simp only [Option.some.injEq, forall_eq']

/-- The small bike is unlocked, and one report comes in. -/
def reportedAt (lat : ℚ) : List Arrival :=
  [⟨.scanUnlock (some ⟨"token", "SB00000001", .fin 0, .fin 0⟩), .calm 100⟩,
    ⟨.positionReport (some ⟨"R19700101000101", 1, .fin lat, .fin 0, 50⟩), .calm 150⟩]

/-- A caller with the id 7 is shown the usual 20 rides, and a report from the right place is
archived. -/
theorem statements_whole_small :
    limitLeft 7 (clampLimit 0) = .rows 20 ∧
      ∃ inp, .repo (.createWithPoints inp) ∈ World.calls (.calm 200)
          (endRide .standstill (some .small))
          (handleAll ⟨.small 1000 .idle, .empty⟩ (reportedAt 1)) ∧
        inp.Whole .backslash ∧ ∀ p ∈ inp.points, p.Whole 1 := by
  have hlive : (handleAll ⟨.small 1000 .idle, .empty⟩ (reportedAt 1)).sessions.find
      EndRideRequest.small.rideNo = some { RideSession.small with
        lastLat := .fin 1, lastSeq := 1, points := [⟨1, .fin 1, .fin 0, 50⟩] } := by
    decide +kernel
  have hok : (World.run (.calm 200) (endRide .standstill (some .small))
      (handleAll ⟨.small 1000 .idle, .empty⟩ (reportedAt 1))).1 =
      .ok ⟨200, ErrCode.ok.toText, 100, 0, 100, 900⟩ := by decide +kernel
  have harchived := (archives_iff hlive hok rfl .standstill _).mpr rfl
  obtain ⟨hlist, hinserts⟩ := @statements_whole_iff .standstill .backslash
  refine ⟨((hlist (show (1 : Int32) ≤ 7 by decide) 0).mpr (by decide)).2, _, harchived,
    (hinserts (.small 1000 .idle) (reportedAt 1) (.calm 200) .small harchived 1).mpr ?_⟩
  rw [hlive]
  rintro _ ⟨⟩
  decide +kernel

/-- A caller with the id 1000 asks for the usual 20 rides and the statement is cut to `LIMIT 2`.
A report from the latitude 2 ^ 600 is taken, and the statement that archives it is cut. -/
theorem statements_cut :
    (clampLimit 0 = 20 ∧ (SqlText.selectRides 1000 20).utf8ByteSize = 256 ∧
        limitLeft 1000 20 = .rows 2) ∧
      ∃ inp, .repo (.createWithPoints inp) ∈ World.calls (.calm 200)
          (endRide .standstill (some .small))
          (handleAll ⟨.small 1000 .idle, .empty⟩ (reportedAt (2 ^ 600))) ∧
        ⟨1, .fin (2 ^ 600), .fin 0, 50⟩ ∈ inp.points ∧
        ¬ RidePoint.Whole 1 ⟨1, .fin (2 ^ 600), .fin 0, 50⟩ := by
  have hlive : (handleAll ⟨.small 1000 .idle, .empty⟩ (reportedAt (2 ^ 600))).sessions.find
      EndRideRequest.small.rideNo = some { RideSession.small with
        lastLat := .fin (2 ^ 600), lastSeq := 1, points := [⟨1, .fin (2 ^ 600), .fin 0, 50⟩] } := by
    decide +kernel
  have hok : (World.run (.calm 200) (endRide .standstill (some .small))
      (handleAll ⟨.small 1000 .idle, .empty⟩ (reportedAt (2 ^ 600)))).1 =
      .ok ⟨200, ErrCode.ok.toText, 100, 0, 100, 900⟩ := by decide +kernel
  refine ⟨⟨rfl, ?_, by decide +kernel⟩, _, (archives_iff hlive hok rfl .standstill _).mpr rfl, ?_, ?_⟩
  · rw [SqlText.selectRides_size]
    decide +kernel
  · exact (Platform.standstill.sort_perm _).mem_iff.mpr (List.mem_cons_of_mem _ List.mem_cons_self)
  · rw [RidePoint.whole_iff]
    decide +kernel

end World

end SharedBike.Server
