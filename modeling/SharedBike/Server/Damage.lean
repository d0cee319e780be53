import SharedBike.Server.Rentals

/-!
# Damage reports stick, if the bike is not returned afterwards

Requests handled one after the other, as in `Server.Rentals`, with a record
of the bikes that were reported. A report sets the bike damaged and leaves a
ride on it alone; the `end_ride` of that ride sets the bike idle, and the
next `scan_unlock` takes it (`returned_damaged`).

`damage_sticks` is the other half. When no `end_ride` is asked for a ride
on a reported bike, and the database takes the reports' marks, a reported
bike stays damaged and is never unlocked again. A bike that nobody rides
when it is reported meets the condition by itself, since from then on nobody
can.
-/

namespace SharedBike.Server

open SharedBike.Common SharedBike.Lib

/-! ## The runs -/

/-- The server with its records, and the bikes that were reported. -/
structure Damages (P : Platform) (d : Deployment) extends Rentals P d where
  /-- the bikes whose report was answered with Ok -/
  reported : List Int32
  /-- the bikes of successful unlocks, of those reported before -/
  reopened : List Int32

/-- A report that was answered with Ok. -/
def accepted : Outcome Reply → Bool
  | .ok (.reportDamage r) => r.code = ErrCode.ok.code
  | _ => false

namespace Damages

variable {P : Platform} {d : Deployment}

/-- The bike a request names. -/
def bikeOf (s : Damages P d) (bikeNo : String) : Option Int32 :=
  (d.bikeNamed P s.repos bikeNo).map Prod.fst

def newReports (s : Damages P d) (r : Request) (out : Outcome Reply) : List Int32 :=
  match r with
  | .reportDamage (some req) => if accepted out then (s.bikeOf req.bikeNo).toList else []
  | _ => []

def newRides (s : Damages P d) (r : Request) (out : Outcome Reply) : List Int32 :=
  match r with
  | .scanUnlock (some req) =>
    if (returned out).isSome then (s.bikeOf req.bikeNo).toList.filter (· ∈ s.reported) else []
  | _ => []

/-- One request, with nothing else going on. -/
def handle (s : Damages P d) (e : Arrival) : Damages P d :=
  let out := ((dispatch P e.request).run (Rentals.exec e.env) s.toRentals).1
  { toRentals := s.toRentals.handle e
    reported := s.newReports e.request out ++ s.reported
    reopened := s.newRides e.request out ++ s.reopened }

def machine (P : Platform) (d : Deployment) : Machine (Damages P d) Arrival where
  init s := (Rentals.machine P d).init s.toRentals ∧ s.reported = [] ∧ s.reopened = []
  next s e := if s.clock ≤ e.env.now then some (s.handle e) else none

/-- The condition on a request: a report does not lose its mark; no `end_ride`
names a live ride on a reported bike; the in-memory repository has numbers
left for the bikes it may put out. -/
def Unreturned (s : Damages P d) (e : Arrival) : Prop :=
  match e.request with
  | .reportDamage (some _) => ¬ Rentals.LosesStatus d e.env
  | .endRide (some req) => ∀ b ∈ s.reported, ¬ s.sessions.on req.rideNo b
  | .listNearbyBikes _ _ => d.Room P s.repos kSpawnTarget
  | _ => True

/-! ## One handler -/

/-- What a handler that begins with the sessions `store` keeps of the reported
bikes `R`: they are damaged, and it holds none of them. -/
structure Marked (R : List Int32) (store : RideSessionStore) (q : RidePhase) (s : Rentals P d) :
    Prop where
  numbered : d.Numbered P s.repos q.room
  damaged : ∀ b ∈ R, (b, BikeStatus.damaged) ∈ d.statuses P s.repos
  bike : ∀ b, q.bike = some b → b ∉ R
  session : ∀ sess, q.session = some sess → sess.bikeId ∉ R
  early : q.early → ∀ no b, s.sessions.on no b → store.on no b

variable {env : Env} {R : List Int32} {store : RideSessionStore} {s s' : Rentals P d}
  {q q' : RidePhase} {e : Arrival}

section

variable (h : Marked R store q s)

include h

/-- A call that takes hold of nothing and repairs nothing. -/
theorem Marked.move (hq : q'.Within q)
    (hnum : d.Numbered P s'.repos q'.room)
    (hst : ∀ b ∈ R, (b, BikeStatus.damaged) ∈ d.statuses P s.repos →
      (b, BikeStatus.damaged) ∈ d.statuses P s'.repos)
    (hearly : q'.early → ∀ no b, s'.sessions.on no b → store.on no b) :
    Marked R store q' s' where
  numbered := hnum
  damaged b hb := hst b hb (h.damaged b hb)
  bike b hb := h.bike b (hq.bike b hb)
  session sess hs := h.session sess (hq.session sess hs)
  early := hearly

/-- A damaged bike is not the one that was found idle. -/
theorem Marked.not_idle {b : Int32}
    (hb : (b, BikeStatus.idle) ∈ d.statuses P s.repos) : b ∉ R := by
  intro hR
  have heq := List.inj_on_of_nodup_map h.numbered.distinct hb (h.damaged b hR) rfl
  cases heq

theorem Marked.repo {c : RepoCall} (hget : ∀ no, c ≠ .getForUpdate no)
    (hstatus : ∀ id st, c ≠ .updateStatus id st) (hinsert : ∀ b, c ≠ .insert b) (r : c.Res) :
    Marked R store (q.next (.repo c) r) (Rentals.exec env (.repo c) s).2 := by
  have hst := Deployment.statuses_frame (P := P) (s := s.repos) env hstatus hinsert
  refine h.move (RidePhase.next_repo_within hget r)
    ((h.numbered.frame env hinsert).mono (RidePhase.next_room (.repo c) r)) (fun b _ hb => ?_)
    fun he => h.early (RidePhase.next_early he)
  change _ ∈ d.statuses P (d.exec P env c s.repos).2
  rw [hst]
  exact hb

theorem Marked.getForUpdate (bikeNo : String) :
    Marked R store
      (q.next (.repo (.getForUpdate bikeNo)) (Rentals.exec env (.repo (.getForUpdate bikeNo)) s).1)
      (Rentals.exec env (.repo (.getForUpdate bikeNo)) s).2 := by
  have hst : d.statuses P (Rentals.exec env (.repo (.getForUpdate bikeNo)) s).2.repos =
      d.statuses P s.repos :=
    Deployment.statuses_frame (P := P) (s := s.repos) env (by simp) (by simp)
  have hnum := h.numbered.frame env (c := .getForUpdate bikeNo) (by simp)
  have hstay : ∀ {q' : RidePhase}, q'.Within q → q'.room ≤ q.room → (q'.early → q.early) →
      Marked R store q' (Rentals.exec env (.repo (.getForUpdate bikeNo)) s).2 := by
    intro q' hq hroom he
    exact h.move hq (hnum.mono hroom) (fun b _ hb => hst ▸ hb) fun hq' => h.early (he hq')
  cases q with
  | scanning =>
    cases hfound : (d.exec P env (.getForUpdate bikeNo) s.repos).1 with
    | none =>
      have hnext : (Rentals.exec env (.repo (.getForUpdate bikeNo)) s).1 = none := hfound
      rw [hnext]
      exact hstay (.outside _) (Nat.le_refl _) False.elim
    | some b =>
      have hnext : (Rentals.exec env (.repo (.getForUpdate bikeNo)) s).1 = some b := hfound
      rw [hnext]
      by_cases hidle : b.status = .idle
      · simp only [RidePhase.next, hidle, if_true]
        have hmem := Deployment.bikeNamed_mem (Deployment.bikeNamed_of_getForUpdate hfound)
        rw [hidle] at hmem
        have hclear := h.not_idle hmem
        exact
          { numbered := hnum
            damaged := fun b hb => hst ▸ h.damaged b hb
            bike := fun b' hb' => by cases hb'; exact hclear
            session := fun _ hs => (by cases hs)
            early := False.elim }
      · simp only [RidePhase.next, hidle, if_false]
        exact hstay (.outside _) (Nat.le_refl _) False.elim
  | _ => exact hstay (.refl _) (Nat.le_refl _) id

/-- A mark touches the reported bikes only to set them damaged. -/
theorem Marked.updateStatus {bikeId : Int32} {st : BikeStatus}
    (hallowed : q.allowed (fun _ => True) (.repo (.updateStatus bikeId st))) (r : Bool) :
    Marked R store (q.next (.repo (.updateStatus bikeId st)) r)
      (Rentals.exec env (.repo (.updateStatus bikeId st)) s).2 := by
  have hnum := h.numbered.frame env (c := .updateStatus bikeId st) (by simp)
  have hclear : bikeId ∉ R ∨ st = .damaged := by
    cases st with
    | idle =>
      obtain ⟨sess, rfl, rfl⟩ := hallowed
      exact .inl (h.session sess rfl)
    | rented =>
      have hq : q = .created bikeId := hallowed
      subst hq
      exact .inl (h.bike bikeId rfl)
    | damaged => exact .inr rfl
  refine h.move (RidePhase.next_repo_within (c := .updateStatus bikeId st) (by simp) r)
    (hnum.mono (RidePhase.next_room (.repo (.updateStatus bikeId st)) r)) (fun b hR hb => ?_)
    fun he => h.early (RidePhase.next_early he)
  change _ ∈ d.statuses P (d.exec P env (.updateStatus bikeId st) s.repos).2
  rw [Deployment.statuses_updateStatus env h.numbered.distinct]
  split
  · exact hb
  · refine mem_setStatus.mpr ?_
    by_cases hbike : b = bikeId
    · refine .inl ⟨hbike, ?_, List.mem_map.mpr ⟨_, hb, rfl⟩⟩
      rcases hclear with hclear | hdamaged
      · exact absurd (hbike ▸ hR) hclear
      · exact hdamaged.symm
    · exact .inr ⟨hbike, hb⟩

/-- A call on the sessions: a `find` gives a ride that the request may end. -/
theorem Marked.ride {c : RideCall}
    (hallowed : q.allowed (fun no => ∀ b ∈ R, ¬ store.on no b) (.ride c)) :
    Marked R store (q.next (.ride c) (Rentals.exec env (.ride c) s).1)
      (Rentals.exec env (.ride c) s).2 := by
  cases c with
  | create sess =>
    have hq : q = .seen sess.bikeId := hallowed
    subst hq
    exact { h with early := False.elim }
  | find rideNo =>
    obtain ⟨hlook, uid, rfl⟩ := hallowed
    have hleave : Marked R store .outside (Rentals.exec env (.ride (.find rideNo)) s).2 :=
      h.move (.outside _) h.numbered (fun _ _ => id) False.elim
    cases hfind : s.sessions.find rideNo with
    | none =>
      have hnext : (Rentals.exec env (.ride (.find rideNo)) s).1 = none := hfind
      rw [hnext]
      exact hleave
    | some sess =>
      have hnext : (Rentals.exec env (.ride (.find rideNo)) s).1 = some sess := hfind
      rw [hnext]
      by_cases hown : sess.userId = uid
      · simp only [RidePhase.next, hown, if_true]
        have hon : store.on rideNo sess.bikeId := h.early trivial _ _ ⟨sess, hfind, rfl⟩
        refine { hleave with bike := fun _ hb => (by cases hb), session := fun sess' hs hR => ?_ }
        cases hs
        exact hlook sess.bikeId hR hon
      · simp only [RidePhase.next, hown, if_false]
        exact hleave
  | remove rideNo =>
    obtain ⟨sess, rfl, rfl⟩ := hallowed
    exact h.move (.outside _) h.numbered (fun _ _ => id) False.elim
  | updatePos rideNo lat lng seq elapsedSec =>
    have hq : q.next (.ride (.updatePos rideNo lat lng seq elapsedSec))
        (Rentals.exec env (.ride (.updatePos rideNo lat lng seq elapsedSec)) s).1 = q := by
      cases q <;> rfl
    rw [hq]
    refine h.move (.refl _) h.numbered (fun _ _ => id) fun he no b hno => h.early he no b ?_
    exact (RideSessionStore.on_updatePos rideNo lat lng seq elapsedSec).mp hno

theorem Marked.step {c : Call}
    (hallowed : q.allowed (fun no => ∀ b ∈ R, ¬ store.on no b) c) :
    Marked R store (q.next c (Rentals.exec env c s).1) (Rentals.exec env c s).2 := by
  cases c with
  | nowUnix =>
    rw [Rentals.exec_nowUnix]
    cases q <;> exact h
  | today =>
    rw [Rentals.exec_today]
    cases q <;> exact h
  | ride c => exact h.ride hallowed
  | repo c =>
    cases c with
    | getForUpdate bikeNo => exact h.getForUpdate bikeNo
    | updateStatus bikeId st => exact h.updateStatus (by cases st <;> exact hallowed) _
    | insert b =>
      obtain ⟨-, left, rfl⟩ := hallowed
      exact h.move (RidePhase.next_repo_within (by simp) _) (h.numbered.insert env)
        (fun _ _ => Deployment.mem_statuses_insert) fun he => h.early (RidePhase.next_early he)
    | _ => exact h.repo (by simp) (by simp) (by simp) _

end

theorem Marked.start (hnum : d.Numbered P s.repos 0)
    (hdamaged : ∀ b ∈ R, (b, BikeStatus.damaged) ∈ d.statuses P s.repos) {r : Request}
    (hroom : ∀ draws payload, r = .listNearbyBikes draws payload → d.Room P s.repos kSpawnTarget) :
    Marked R s.sessions r.phase s where
  numbered := by
    cases r with
    | listNearbyBikes draws payload => exact ⟨hnum.distinct, hroom draws payload rfl⟩
    | _ => exact hnum
  damaged := hdamaged
  bike b hb := by cases r <;> cases hb
  session sess hs := by cases r <;> cases hs
  early _ _ _ := id

/-- A report is refused, or it marks the bike it names. -/
theorem reportDamage_cases (env : Env) (req : ReportDamageRequest) (s : Rentals P d) :
    (∀ r, ((reportDamage (some req)).run (Rentals.exec env) s).1 = .ok r →
      r.code ≠ ErrCode.ok.code) ∨
    ∃ b st u, Rentals.Quiet s u ∧ d.bikeNamed P s.repos req.bikeNo = some (b, st) ∧
      ((reportDamage (some req)).run (Rentals.exec env) s).2 =
        (Rentals.exec env (.repo (.updateStatus b .damaged)) u).2 := by
  have refuse : ∀ {ec : ErrCode} {desc : String}, ec.code ≠ ErrCode.ok.code →
      ∀ r, (.ok (.fail ec desc) : Outcome ReportDamageResponse) = .ok r →
        r.code ≠ ErrCode.ok.code := by
    intro ec desc hec r hr
    cases hr
    exact hec
  have huser := Rentals.quiet_requireUser env req.sessionToken s
  simp only [reportDamage, Prog.run_bind]
  split
  · exact .inl (refuse (by decide))
  · split
    · exact .inl (refuse (by decide))
    · simp only [repo, Prog.ask_bind, Prog.run_call]
      split
      · exact .inl (refuse (by decide))
      next bike hbike =>
        have hnamed := Deployment.bikeNamed_of_getForUpdate hbike
        rw [huser.named] at hnamed
        exact .inr ⟨bike.id, bike.status, _,
          huser.trans (Rentals.quiet_repo env (by simp [RepoCall.targets]) _), hnamed, rfl⟩

/-! ## Whole runs -/

structure Inv (s : Damages P d) : Prop where
  numbered : d.Numbered P s.repos 0
  damaged : ∀ b ∈ s.reported, (b, BikeStatus.damaged) ∈ d.statuses P s.repos
  closed : s.reopened = []

/-- What the handlers keep. -/
theorem Inv.kept {s : Damages P d} (h : s.Inv) (hs : s.Unreturned e) :
    d.Numbered P (s.handle e).repos 0 ∧
      ∀ b ∈ s.reported, (b, BikeStatus.damaged) ∈ d.statuses P (s.handle e).repos := by
  have hobeys : ObeysFrom (fun no => ∀ b ∈ s.reported, ¬ s.sessions.on no b)
      e.request.phase (dispatch P e.request) := by
    refine dispatch_obeys P fun req hreq => ?_
    rw [Unreturned, hreq] at hs
    exact hs
  have hstart : Marked s.reported s.sessions e.request.phase s.toRentals := by
    refine .start h.numbered h.damaged fun draws payload hreq => ?_
    rw [Unreturned, hreq] at hs
    exact hs
  have hstep : ∀ q c (t : Rentals P d), Marked s.reported s.sessions q t →
      q.allowed (fun no => ∀ b ∈ s.reported, ¬ s.sessions.on no b) c →
      Marked s.reported s.sessions (q.next c (Rentals.exec e.env c t).1)
        (Rentals.exec e.env c t).2 := fun q c t ht hallowed => ht.step hallowed
  obtain ⟨q, -, hmarked⟩ := hobeys.run hstep hstart
  exact ⟨hmarked.numbered.mono (Nat.zero_le _), hmarked.damaged⟩

/-- A report that is answered with Ok has set its bike damaged. -/
theorem Inv.newReports_damaged {s : Damages P d} (h : s.Inv) (hs : s.Unreturned e) :
    ∀ b ∈ s.newReports e.request ((dispatch P e.request).run (Rentals.exec e.env) s.toRentals).1,
      (b, BikeStatus.damaged) ∈ d.statuses P (s.handle e).repos := by
  intro b hb
  unfold newReports at hb
  split at hb
  next req hreq =>
    rw [Unreturned, hreq] at hs
    have hkeeps : ¬ (d = .production ∧ e.env.fails .bikeStatus = true) := hs
    change _ ∈ d.statuses P ((dispatch P e.request).run (Rentals.exec e.env) s.toRentals).2.repos
    rw [hreq, dispatch, run_answer] at hb ⊢
    rcases reportDamage_cases e.env req s.toRentals with hrefused | ⟨b', st, u, hquiet, hnamed, hrun⟩
    · cases hout : ((reportDamage (some req)).run (Rentals.exec e.env) s.toRentals).1 with
      | error what =>
        rw [hout] at hb
        cases hb
      | ok r =>
        have hnot : accepted (.ok (.reportDamage r)) = false := decide_eq_false (hrefused r hout)
        rw [hout, Except.map, hnot] at hb
        cases hb
    · have hbike : b = b' := by
        split at hb
        · rw [bikeOf, hnamed] at hb
          exact List.mem_singleton.mp hb
        · cases hb
      have hnum := hquiet.numbered 0 h.numbered
      simp only [hrun]
      change _ ∈ d.statuses P (d.exec P e.env (.updateStatus b' .damaged) u.repos).2
      rw [Deployment.statuses_updateStatus e.env hnum.distinct, if_neg hkeeps, hbike]
      refine mem_setStatus.mpr (.inl ⟨rfl, rfl, ?_⟩)
      rw [hquiet.statuses]
      exact List.mem_map.mpr ⟨_, Deployment.bikeNamed_mem hnamed, rfl⟩
  · cases hb

/-- A successful unlock found its bike idle. -/
theorem Inv.newRides_nil {s : Damages P d} (h : s.Inv) (e : Arrival) :
    s.newRides e.request ((dispatch P e.request).run (Rentals.exec e.env) s.toRentals).1 = [] := by
  unfold newRides
  split
  next req hreq =>
    rw [hreq, dispatch, run_answer]
    rcases Rentals.scanUnlock_cases e.env (some req) s.toRentals with ⟨hcode, -⟩ | ⟨req', hreq', hu⟩
    · cases hout : ((scanUnlock (some req)).run (Rentals.exec e.env) s.toRentals).1 with
      | error what => rfl
      | ok r =>
        have hnot : returned (.ok (.scanUnlock r)) = none := if_neg (hcode r hout)
        rw [Except.map, hnot]
        rfl
    · cases hreq'
      obtain ⟨sess, -, -, -, hnamed, -⟩ := hu
      have hclear : sess.bikeId ∉ s.reported := by
        intro hR
        have heq := List.inj_on_of_nodup_map h.numbered.distinct
          (Deployment.bikeNamed_mem hnamed) (h.damaged _ hR) rfl
        cases heq
      rw [bikeOf, hnamed]
      simp [hclear]
  · rfl

theorem Inv.handle {s : Damages P d} (h : s.Inv) (hs : s.Unreturned e) :
    (s.handle e).Inv where
  numbered := (h.kept hs).1
  damaged := List.forall_mem_append.mpr ⟨h.newReports_damaged hs, (h.kept hs).2⟩
  closed := by
    have hnil := h.newRides_nil e
    simp only [Damages.handle, hnil, h.closed, List.append_nil]

theorem Inv.of_reachable {s : Damages P d} (h : (machine P d).ReachableWhile Unreturned s) :
    s.Inv := by
  refine Machine.invariant ?_ ?_ h
  · rintro s ⟨⟨-, hnum, -⟩, hreported, hclosed⟩
    exact ⟨hnum, by simp [hreported], hclosed⟩
  · intro s e t hinv hs hnext
    simp only [machine] at hnext
    split at hnext
    · cases hnext
      exact hinv.handle hs
    · cases hnext

/-- **Damage reports stick**, in every run in which no ride on a reported bike
is ended and no report loses its mark: a reported bike has the status damaged
and no other, and no unlock of it succeeds. -/
theorem damage_sticks {s : Damages P d} (h : (machine P d).ReachableWhile Unreturned s) :
    (∀ b ∈ s.reported, (b, BikeStatus.damaged) ∈ d.statuses P s.repos ∧
      ∀ st, (b, st) ∈ d.statuses P s.repos → st = .damaged) ∧ s.reopened = [] := by
  have hinv := Inv.of_reachable h
  refine ⟨fun b hb => ⟨hinv.damaged b hb, fun st hst => ?_⟩, hinv.closed⟩
  have heq := List.inj_on_of_nodup_map hinv.numbered.distinct hst (hinv.damaged b hb) rfl
  exact congrArg Prod.snd heq

/-! ## A report during a ride -/

def pairStart : Damages Platform.standstill .production := ⟨Rentals.pairStart, [], []⟩

def reportAt (bikeNo : String) (now : Nat) : Arrival :=
  ⟨.reportDamage (some ⟨"token", bikeNo, ""⟩), .calm now⟩

/-- The second bike is reported while the first is ridden, and the ride ends. -/
theorem damage_sticks_aside :
    ∃ s, (machine Platform.standstill .production).ReachableWhile Unreturned s ∧
      s.reported = [2] ∧ Deployment.production.statuses _ s.repos = [(1, .idle), (2, .damaged)] ∧
      (∀ b ∈ s.reported, (b, BikeStatus.damaged) ∈ Deployment.production.statuses _ s.repos ∧
        ∀ st, (b, st) ∈ Deployment.production.statuses _ s.repos → st = .damaged) ∧
      s.reopened = [] := by
  have hstart : (machine Platform.standstill .production).ReachableWhile Unreturned pairStart :=
    .start ⟨Rentals.pairStart_init, rfl, rfl⟩
  have hride := Machine.ReachableWhile.step (e := Rentals.unlockAt "SB00000001" 200) hstart
    trivial rfl
  have hreport := Machine.ReachableWhile.step (e := reportAt "SB00000002" 250) hride
    (fun hlost => absurd hlost.2 (by decide)) rfl
  have hreturn := Machine.ReachableWhile.step (e := Rentals.returnAt "R19700101000201" 300) hreport
    (fun b hb hon => by
      -- the only bike reported is the second, the ride is on the first
      obtain rfl : b = 2 := List.mem_singleton.mp hb
      obtain ⟨sess, hfind, hbike⟩ := hon
      obtain rfl := Option.some.inj hfind
      exact absurd hbike (by decide +kernel)) rfl
  exact ⟨_, hreturn, by decide +kernel, by decide +kernel, damage_sticks hreturn⟩

/-- A bike is reported while it is ridden, the ride is ended, and the next
unlock takes the bike. -/
theorem returned_damaged :
    ∃ s, (machine Platform.standstill .production).Reachable s ∧ s.reported = [1] ∧
      Deployment.production.statuses _ s.repos = [(1, .rented), (2, .idle)] ∧
      s.reopened = [1] :=
  Machine.exists_of_play pairStart ⟨Rentals.pairStart_init, rfl, rfl⟩
    [Rentals.unlockAt "SB00000001" 200, reportAt "SB00000001" 250,
      Rentals.returnAt "R19700101000201" 300, Rentals.unlockAt "SB00000001" 400]
    (by decide +kernel)

end Damages

end SharedBike.Server
