import SharedBike.Lib.Arrangements
import SharedBike.Server.RideDetail
import SharedBike.Server.EndRideLaws

/-!
# The trajectory of an archived ride

`end_ride` puts the start in front of the reported points and the end behind
them, and sorts the whole by `elapsed_sec`. The start carries 0 and the end the
duration on the server's clock, while the reported values are the client's, so
the sort may move the start and the end away from their places, and it may do so
among equal values too, since `std::sort` is not stable. A statement about the
archive is therefore made for every `PointSort`.
-/

namespace SharedBike.Server

open SharedBike.Common SharedBike.Lib

variable {P : Platform} {d : Deployment} {rsp : EndRideResponse}

/-! ## Every sort -/

/-- The order of `end_ride`'s sort. -/
def RidePoint.Before (a b : RidePoint) : Prop := a.elapsedSec ≤ b.elapsedSec

instance : Std.Total RidePoint.Before := ⟨fun a b => Int32.le_total a.elapsedSec b.elapsedSec⟩

instance : IsTrans RidePoint RidePoint.Before := ⟨fun _ _ _ => Int32.le_trans⟩

/-- A sort by the elapsed time, with any choice among equal ones. -/
structure PointSort where
  sort : List RidePoint → List RidePoint
  perm : ∀ l, (sort l).Perm l
  sorted : ∀ l, (sort l).Pairwise RidePoint.Before

namespace PointSort

variable (σ : PointSort)

theorem arranges (l : List RidePoint) : Arranges RidePoint.Before l (σ.sort l) :=
  ⟨σ.perm l, σ.sorted l⟩

/-- The sort that chooses `m` for `l`, and elsewhere what `σ` does. -/
def choosing {l m : List RidePoint} (h : Arranges RidePoint.Before l m) : PointSort where
  sort l' := if l' = l then m else σ.sort l'
  perm l' := by
    split
    case isTrue heq => exact heq ▸ h.perm
    case isFalse => exact σ.perm l'
  sorted l' := by
    split
    case isTrue => exact h.sorted
    case isFalse => exact σ.sorted l'

end PointSort

namespace Platform

def pointSort (P : Platform) : PointSort := ⟨P.sortPoints, P.sort_perm, P.sort_sorted⟩

/-- The same platform with another `std::sort`. -/
def withSort (P : Platform) (σ : PointSort) : Platform :=
  { P with sortPoints := σ.sort, sort_perm := σ.perm, sort_sorted := σ.sorted }

/-- What holds for every sort holds of every arrangement. -/
theorem forall_sort_iff (P : Platform) {l : List RidePoint} {Φ : List RidePoint → Prop} :
    (∀ σ : PointSort, Φ (σ.sort l)) ↔ ∀ m, Arranges RidePoint.Before l m → Φ m := by
  constructor
  · intro hall m hm
    have hchosen := hall (P.pointSort.choosing hm)
    rwa [show (P.pointSort.choosing hm).sort l = m from if_pos rfl] at hchosen
  · intro hall σ
    exact hall _ (σ.arranges l)

end Platform

/-! ## From the start to the end -/

/-- Where a session began. -/
def RideSession.startPoint (sess : RideSession) : RidePoint :=
  ⟨0, sess.startLat, sess.startLng, 0⟩

/-- Where a request ends it. -/
def RideSession.endPoint (sess : RideSession) (req : EndRideRequest) (durationSec : Int32) :
    RidePoint :=
  ⟨sess.lastSeq + 1, req.endLat, req.endLng, durationSec⟩

/-- The points of a ride before they are sorted. -/
def RideSession.visited (sess : RideSession) (req : EndRideRequest) (durationSec : Int32) :
    List RidePoint :=
  sess.startPoint :: sess.points ++ [sess.endPoint req durationSec]

/-- A path over the points of a ride, by the elapsed time, from its start to its end. -/
structure FromStartToEnd (req : EndRideRequest) (sess : RideSession) (durationSec : Int32)
    (path : List RidePoint) : Prop where
  perm : path.Perm (sess.visited req durationSec)
  sorted : path.Pairwise RidePoint.Before
  start : path.head? = some sess.startPoint
  finish : path.getLast? = some (sess.endPoint req durationSec)

/-- No point but the start has an elapsed time of 0 or less, and none but the
end one of the duration or more. -/
def RideSession.Within (sess : RideSession) (req : EndRideRequest) (durationSec : Int32) : Prop :=
  (∀ p ∈ sess.visited req durationSec, p.elapsedSec ≤ 0 → p = sess.startPoint) ∧
    ∀ p ∈ sess.visited req durationSec, durationSec ≤ p.elapsedSec → p = sess.endPoint req durationSec

theorem forall_fromStartToEnd_iff (req : EndRideRequest) (sess : RideSession)
    (durationSec : Int32) :
    (∀ m, Arranges RidePoint.Before (sess.visited req durationSec) m →
      FromStartToEnd req sess durationSec m) ↔ sess.Within req durationSec := by
  have hstart := forall_head?_iff (r := RidePoint.Before) (a := sess.startPoint)
    (l := sess.visited req durationSec) List.mem_cons_self
  have hfinish := forall_getLast?_iff (r := RidePoint.Before) (a := sess.endPoint req durationSec)
    (l := sess.visited req durationSec) (List.mem_append_right _ List.mem_cons_self)
  constructor
  · intro hall
    exact ⟨hstart.mp fun m hm => (hall m hm).start, hfinish.mp fun m hm => (hall m hm).finish⟩
  · rintro ⟨hfirst, hlast⟩ m hm
    exact ⟨hm.perm, hm.sorted, hstart.mpr hfirst m hm, hfinish.mpr hlast m hm⟩

/-! ## The calls of a settled ride -/

section Archive

variable {env : Env} {req : EndRideRequest} {sess : RideSession} {w : World P d}

/-- A call that archives no ride. -/
def Call.Quiet (c : Call) : Prop := ∀ inp, c ≠ .repo (.createWithPoints inp)

theorem quiet_requireUser (env : Env) (token : String) (w : World P d) :
    ∀ c ∈ World.calls env (requireUser token) w, c.Quiet := by
  intro c hc
  simp only [World.calls, requireUser, repo, Prog.ask_bind, Prog.calls_call, List.mem_cons] at hc
  rcases hc with rfl | hc
  · rintro _ ⟨⟩
  · split at hc
    · cases hc
    · simp only [Prog.calls_call, Prog.pure_eq, Prog.calls_done, List.mem_singleton] at hc
      subst hc
      rintro _ ⟨⟩

theorem sessions_requireUser (token : String) (w : World P d) :
    (World.run env (requireUser token) w).2.sessions = w.sessions :=
  requireUser_frame (R := fun w w' : World P d => w'.sessions = w.sessions)
    (fun h h' => h'.trans h) (fun _ _ => rfl) (fun _ _ => rfl) token w

theorem settleRide_settles (hok : (World.run env (settleRide P req sess sess.userId) w).1 = .ok rsp)
    (hcode : rsp.code = ErrCode.ok.code) :
    ∃ before newBal, (∀ c ∈ before, c.Quiet) ∧ ∀ Q,
      World.calls env (settleRide Q req sess sess.userId) w = before ++
        World.calls env (finishRide req sess (archiveNow Q env req sess) newBal)
          (w.after env before) := by
  obtain ⟨newBal, repos, hcharge⟩ : ∃ (newBal : Int32) (repos : d.Repos P),
      d.exec P env (.addBalance sess.userId .consume (-fee (duration env.now sess.startTs)))
        w.repos = (newBal, repos) := ⟨_, _, rfl⟩
  refine ⟨[.nowUnix, .repo (.addBalance sess.userId .consume
    (-fee (duration env.now sess.startTs)))], newBal, ?_, ?_⟩
  · intro c hc inp
    rcases List.mem_pair.mp hc with rfl | rfl <;> nofun
  · intro Q
    simp only [World.run, settleRide, nowUnix, Prog.ask_bind, Prog.run_call, World.exec,
      computeFee_duration, repo, hcharge] at hok
    simp only [World.calls, World.after, settleRide, nowUnix, Prog.ask_bind, Prog.calls_call,
      Prog.after_cons, Prog.after_nil, World.exec, computeFee_duration, repo, hcharge,
      List.cons_append, List.nil_append]
    by_cases hshort : newBal < 0
    · rw [if_pos hshort] at hok
      cases hok
      exact absurd hcode (by decide)
    · rw [if_neg hshort]
      rfl

/-- An `end_ride` that settles a live ride comes to the same `finishRide`,
whatever its sort and its distances are. -/
theorem endRide_settles (hlive : w.sessions.find req.rideNo = some sess)
    (hok : (World.run env (endRide P (some req)) w).1 = .ok rsp)
    (hcode : rsp.code = ErrCode.ok.code) :
    ∃ before newBal, (∀ c ∈ before, c.Quiet) ∧ ∀ Q,
      World.calls env (endRide Q (some req)) w = before ++
        World.calls env (finishRide req sess (archiveNow Q env req sess) newBal)
          (w.after env before) := by
  rw [endRide, World.run_user] at hok
  set w₁ := (World.run env (requireUser req.sessionToken) w).2 with hw₁
  have hlive₁ : w₁.sessions.find req.rideNo = some sess := by
    rw [hw₁, sessions_requireUser, hlive]
  have hfind : World.exec env (.ride (.find req.rideNo)) w₁ = (some sess, w₁) := by
    simp only [World.exec, RideSessionStore.exec, hlive₁]
  cases huid : w.holder env req.sessionToken with
  | none =>
    rw [huid] at hok
    cases hok
    exact absurd hcode (by decide)
  | some uid =>
    rw [huid] at hok
    simp only [rideSessions, Prog.ask_bind] at hok
    by_cases hvalid : (!validLat req.endLat || !validLng req.endLng) = true
    · rw [if_pos hvalid] at hok
      cases hok
      exact absurd hcode (by decide)
    simp only [if_neg hvalid, World.run, Prog.run_call, hfind] at hok
    by_cases hown : sess.userId = uid
    · subst hown
      rw [if_neg (not_not.mpr rfl)] at hok
      obtain ⟨before, newBal, hquiet, hcalls⟩ := settleRide_settles hok hcode
      refine ⟨World.calls env (requireUser req.sessionToken) w ++
        .ride (.find req.rideNo) :: before, newBal, ?_, ?_⟩
      · intro c hc
        rcases List.mem_append.mp hc with hc | hc
        · exact quiet_requireUser env req.sessionToken w c hc
        · rcases List.mem_cons.mp hc with rfl | hc
          · rintro _ ⟨⟩
          · exact hquiet c hc
      · intro Q
        have hafter : w.after env (World.calls env (requireUser req.sessionToken) w ++
            .ride (.find req.rideNo) :: before) = w₁.after env before := by
          rw [World.after, World.calls, Prog.after_append, ← Prog.run_snd, Prog.after_cons]
          change World.after env (World.exec env (.ride (.find req.rideNo)) w₁).2 before = _
          rw [hfind]
        rw [hafter, endRide, World.calls_user, huid, ← hw₁, List.append_assoc, List.cons_append,
          ← hcalls Q]
        simp only [World.calls, if_neg hvalid, rideSessions, Prog.ask_bind, Prog.calls_call, hfind,
          ne_eq, not_true_eq_false, if_false]
    · rw [if_pos hown] at hok
      cases hok
      exact absurd hcode (by decide)

/-- A settled ride is archived once. -/
theorem archives_iff (hlive : w.sessions.find req.rideNo = some sess)
    (hok : (World.run env (endRide P (some req)) w).1 = .ok rsp)
    (hcode : rsp.code = ErrCode.ok.code) (Q : Platform) (inp : CreateRideInput) :
    .repo (.createWithPoints inp) ∈ World.calls env (endRide Q (some req)) w ↔
      inp = archiveNow Q env req sess := by
  obtain ⟨before, newBal, hquiet, hcalls⟩ := endRide_settles hlive hok hcode
  rw [hcalls Q, List.mem_append, or_iff_right fun hmem => hquiet _ hmem inp rfl]
  simp [World.calls, finishRide, repo, rideSessions]

/-- **When the archived trajectory runs from start to end.** For a settled ride
and every sort, the archived points are the start, the reported points and the
end, by the elapsed time and with the start first and the end last, exactly when
no other point has an elapsed time of 0 or less or of the duration or more. -/
theorem trajectory_runs_iff {rsp : EndRideResponse}
    (hlive : w.sessions.find req.rideNo = some sess)
    (hok : (World.run env (endRide P (some req)) w).1 = .ok rsp)
    (hcode : rsp.code = ErrCode.ok.code) :
    (∀ (σ : PointSort) (inp : CreateRideInput),
      .repo (.createWithPoints inp) ∈ World.calls env (endRide (P.withSort σ) (some req)) w →
        FromStartToEnd req sess (duration env.now sess.startTs) inp.points) ↔
      sess.Within req (duration env.now sess.startTs) := by
  rw [← forall_fromStartToEnd_iff, ← P.forall_sort_iff]
  refine forall_congr' fun σ => ?_
  constructor
  · intro hall
    exact hall _ ((archives_iff hlive hok hcode _ _).mpr rfl)
  · intro hruns inp hinp
    rw [(archives_iff hlive hok hcode _ inp).mp hinp]
    exact hruns

/-- The small ride after two reports on the way, 20 and 50 seconds from its start. -/
def World.underway : World Platform.standstill .production :=
  ((World.riding 1000).handle
    ⟨.positionReport (some ⟨"R19700101000101", 1, .fin 1, .fin 0, 20⟩), .calm 120⟩).handle
    ⟨.positionReport (some ⟨"R19700101000101", 2, .fin 1, .fin 1, 50⟩), .calm 150⟩

def RideSession.underway : RideSession :=
  { RideSession.small with
    lastLat := .fin 1, lastLng := .fin 1, lastSeq := 2,
    points := [⟨1, .fin 1, .fin 0, 20⟩, ⟨2, .fin 1, .fin 1, 50⟩] }

theorem World.underway_find :
    World.underway.sessions.find EndRideRequest.small.rideNo = some RideSession.underway := by
  decide +kernel

theorem World.underway_ends :
    (World.run (.calm 200) (endRide .standstill (some .small)) World.underway).1 =
      .ok ⟨200, ErrCode.ok.toText, 100, 0, 100, 900⟩ := by
  decide +kernel

/-- The ride ends 100 seconds after its start, and both reports are between. -/
theorem trajectory_runs_small :
    .repo (.createWithPoints (archiveNow .standstill (.calm 200) .small .underway)) ∈
        World.calls (.calm 200) (endRide .standstill (some .small)) World.underway ∧
      (archiveNow .standstill (.calm 200) .small .underway).points =
        [⟨0, .fin 0, .fin 0, 0⟩, ⟨1, .fin 1, .fin 0, 20⟩, ⟨2, .fin 1, .fin 1, 50⟩,
          ⟨3, .fin 0, .fin 0, 100⟩] ∧
      FromStartToEnd .small .underway 100
        (archiveNow .standstill (.calm 200) .small .underway).points := by
  have hmem := (archives_iff World.underway_find World.underway_ends rfl .standstill _).mpr rfl
  have hwithin : RideSession.underway.Within .small
      (duration (200 : Nat) RideSession.underway.startTs) := by
    unfold RideSession.Within
    decide +kernel
  refine ⟨hmem, by decide +kernel, ?_⟩
  exact (trajectory_runs_iff World.underway_find World.underway_ends rfl).mpr hwithin
    Platform.standstill.pointSort _ hmem

/-- The small ride with one report, whose elapsed time is later than the end. -/
def World.reported : World Platform.standstill .production :=
  (World.riding 1000).handle
    ⟨.positionReport (some ⟨"R19700101000101", 1, .fin 1, .fin 1, 500⟩), .calm 150⟩

/-- The ride is settled, and its archived trajectory ends with the report. -/
theorem trajectory_past_end :
    (World.run (.calm 200) (endRide .standstill (some .small)) World.reported).1 =
        .ok ⟨200, ErrCode.ok.toText, 100, 0, 100, 900⟩ ∧
      ∃ sess inp, World.reported.sessions.find EndRideRequest.small.rideNo = some sess ∧
        .repo (.createWithPoints inp) ∈
          World.calls (.calm 200) (endRide .standstill (some .small)) World.reported ∧
        inp.points = [⟨0, .fin 0, .fin 0, 0⟩, ⟨2, .fin 0, .fin 0, 100⟩, ⟨1, .fin 1, .fin 1, 500⟩] ∧
        ¬ FromStartToEnd .small sess 100 inp.points := by
  have hlive : World.reported.sessions.find EndRideRequest.small.rideNo =
      some { RideSession.small with
        lastLat := .fin 1, lastLng := .fin 1, lastSeq := 1, points := [⟨1, .fin 1, .fin 1, 500⟩] } := by
    decide +kernel
  have hok : (World.run (.calm 200) (endRide .standstill (some .small)) World.reported).1 =
      .ok ⟨200, ErrCode.ok.toText, 100, 0, 100, 900⟩ := by decide +kernel
  have hpoints : (archiveNow .standstill (.calm 200) .small { RideSession.small with
      lastLat := .fin 1, lastLng := .fin 1, lastSeq := 1,
      points := [⟨1, .fin 1, .fin 1, 500⟩] }).points =
        [⟨0, .fin 0, .fin 0, 0⟩, ⟨2, .fin 0, .fin 0, 100⟩, ⟨1, .fin 1, .fin 1, 500⟩] := by
    decide +kernel
  refine ⟨hok, _, _, hlive, (archives_iff hlive hok rfl _ _).mpr rfl, hpoints, ?_⟩
  intro hruns
  have hlast := hruns.finish
  rw [hpoints] at hlast
  revert hlast
  decide +kernel

end Archive

end SharedBike.Server
