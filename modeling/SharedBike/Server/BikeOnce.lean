import SharedBike.Server.Bikes
import SharedBike.Server.Courses
import SharedBike.Lib.Pool

/-!
# A bike has one rider, if its unlocks and returns do not overlap

Any number of `scan_unlock`, `end_ride` and `report_damage` handlers, their
calls interleaved in any order. `get_for_update` locks the row for its own
statement only, so between seeing a bike idle and marking it rented nothing
keeps a second unlock out: in `ridden_twice` two of them pass each other.

`ridden_once` is the other half. When an unlock reads a bike only while no
other unlock is under way on it and no `end_ride` holds a session of it,
and the database takes the unlocks' marks, no bike is ever ridden by two
sessions. Returns matter because `end_ride` sets the bike idle before it
removes the session, and marks matter because a lost one leaves a ridden
bike idle. Sessions may be overwritten: two rides can have one number.

The argument is about three things only, and is made about them: which
session rides which bike, which bikes are idle, and the phases of the
handlers (`OneRider`).
-/

namespace SharedBike.Server

open SharedBike.Common SharedBike.Lib
open Function (update update_self update_of_ne update_eq_self forall_update_iff)

/-! ## Riders and phases -/

/-- The handler accounts for a bike that is idle and ridden: it is about to
mark the bike, or about to remove the session. -/
def RidePhase.occupies (b : Int32) : RidePhase → Prop
  | .created b' => b' = b
  | .freed sess => sess.bikeId = b
  | _ => False

section Abstract

variable {ι : Type} [DecidableEq ι] {on on' : String → Int32 → Prop} {idle idle' : Int32 → Prop}
  {phase : ι → RidePhase} {i : ι} {q : RidePhase}

/-- An idle bike that is ridden is accounted for. -/
def Busy (on : String → Int32 → Prop) (idle : Int32 → Prop) (phase : ι → RidePhase) : Prop :=
  ∀ b no, idle b → on no b → ∃ j, (phase j).occupies b

theorem Busy.update (h : Busy on idle phase) (hon : ∀ no b, on' no b → on no b)
    (hidle : ∀ b, idle' b → idle b)
    (hq : ∀ b no, idle' b → on' no b → (phase i).occupies b → q.occupies b) :
    Busy on' idle' (update phase i q) := by
  intro b no hi ho
  obtain ⟨j, hj⟩ := h b no (hidle b hi) (hon no b ho)
  by_cases hji : j = i
  · subst hji
    exact ⟨j, by rw [update_self]; exact hq b no hi ho hj⟩
  · exact ⟨j, by rw [update_of_ne hji]; exact hj⟩

/-- One rider a bike, and what the handlers under way must know for it. -/
structure OneRider (on : String → Int32 → Prop) (idle : Int32 → Prop) (phase : ι → RidePhase) :
    Prop where
  one : ∀ b no no', on no b → on no' b → no = no'
  unseen : ∀ i b, phase i = .seen b → ∀ no, ¬ on no b
  unlocks : ∀ i j b, (phase i).bike = some b → (phase j).bike = some b → i = j
  held : ∀ i sess, (phase i).session = some sess → ∀ no, on no sess.bikeId → no = sess.rideNo
  apart : ∀ i sess, (phase i).session = some sess → ∀ j, phase j ≠ .seen sess.bikeId
  busy : Busy on idle phase

namespace OneRider

/-- A call that starts nothing: no session is made and its handler takes hold of nothing. -/
theorem shrink (h : OneRider on idle phase) (hon : ∀ no b, on' no b → on no b)
    (hq : q.Within (phase i)) (hbusy : Busy on' idle' (update phase i q)) :
    OneRider on' idle' (update phase i q) := by
  have hwithin : ∀ j, (update phase i q j).Within (phase j) :=
    (forall_update_iff phase fun j q' => q'.Within (phase j)).mpr ⟨hq, fun _ _ => .refl _⟩
  exact
    { one := fun b no no' ho ho' => h.one b no no' (hon no b ho) (hon no' b ho')
      unseen := fun j b hj no ho => h.unseen j b ((hwithin j).seen b hj) no (hon no b ho)
      unlocks := fun j k b hj hk =>
        h.unlocks j k b ((hwithin j).bike b hj) ((hwithin k).bike b hk)
      held := fun j sess hj no ho => h.held j sess ((hwithin j).session sess hj) no (hon no _ ho)
      apart := fun j sess hj k hk =>
        h.apart j sess ((hwithin j).session sess hj) k ((hwithin k).seen _ hk)
      busy := hbusy }

/-- An unlock sees a bike idle that no other handler has to do with. -/
theorem see (h : OneRider on idle phase) (hi : phase i = .scanning) {b : Int32} (hidle : idle b)
    (halone : ∀ j, (phase j).bike ≠ some b ∧
      ∀ sess, (phase j).session = some sess → sess.bikeId ≠ b) :
    OneRider on idle (update phase i (.seen b)) := by
  -- an idle bike nobody accounts for is not ridden
  have hfree : ∀ no, ¬ on no b := by
    intro no ho
    obtain ⟨j, hj⟩ := h.busy b no hidle ho
    obtain ⟨hbike, hsess⟩ := halone j
    cases hphase : phase j with
    | created b' =>
      rw [hphase] at hj hbike
      exact hbike (congrArg some hj)
    | freed sess =>
      rw [hphase] at hj hsess
      exact hsess sess rfl hj
    | _ => rw [hphase] at hj; exact hj
  have hother : ∀ {j} {x : RidePhase}, j ≠ i → update phase i (.seen b) j = x →
      phase j = x := fun hji hj => by rwa [update_of_ne hji] at hj
  refine
    { one := h.one
      unseen := fun j b' hj => ?_
      unlocks := fun j k b' hj hk => ?_
      held := fun j sess hj => ?_
      apart := fun j sess hj k hk => ?_
      busy := h.busy.update (fun _ _ => id) (fun _ => id) fun b' no _ _ hocc => ?_ }
  · by_cases hji : j = i
    · subst hji
      rw [update_self] at hj
      cases hj
      exact hfree
    · exact h.unseen j b' (hother hji hj)
  · by_cases hji : j = i <;> by_cases hki : k = i
    · rw [hji, hki]
    · subst hji
      rw [update_self] at hj
      rw [update_of_ne hki] at hk
      cases hj
      exact absurd hk (halone k).1
    · subst hki
      rw [update_self] at hk
      rw [update_of_ne hji] at hj
      cases hk
      exact absurd hj (halone j).1
    · rw [update_of_ne hji] at hj
      rw [update_of_ne hki] at hk
      exact h.unlocks j k b' hj hk
  · by_cases hji : j = i
    · subst hji
      rw [update_self] at hj
      cases hj
    · rw [update_of_ne hji] at hj
      exact h.held j sess hj
  · by_cases hji : j = i
    · subst hji
      rw [update_self] at hj
      cases hj
    · rw [update_of_ne hji] at hj
      by_cases hki : k = i
      · subst hki
        rw [update_self] at hk
        cases hk
        exact (halone j).2 sess hj rfl
      · exact h.apart j sess hj k (hother hki hk)
  · rw [hi] at hocc
    cases hocc

/-- The unlock makes its session. -/
theorem create (h : OneRider on idle phase) {b : Int32} (hi : phase i = .seen b) {key : String}
    (hon : ∀ no b', on' no b' ↔ no = key ∧ b = b' ∨ no ≠ key ∧ on no b') :
    OneRider on' idle (update phase i (.created b)) := by
  have hbike : ∀ j b', (update phase i (.created b) j).bike = some b' →
      (phase j).bike = some b' := by
    refine fun j b' => of_update (fun q : RidePhase => q.bike = some b') fun hb => ?_
    rw [hi]
    exact hb
  have hseen : ∀ j b', update phase i (.created b) j = .seen b' →
      j ≠ i ∧ phase j = .seen b' := by
    intro j b' hj
    by_cases hji : j = i
    · subst hji
      rw [update_self] at hj
      cases hj
    · rw [update_of_ne hji] at hj
      exact ⟨hji, hj⟩
  have hsess : ∀ j sess, (update phase i (.created b) j).session = some sess →
      (phase j).session = some sess :=
    fun j sess => of_update (fun q : RidePhase => q.session = some sess) (by nofun)
  refine
    { one := fun b' no no' ho ho' => ?_
      unseen := fun j b' hj no ho => ?_
      unlocks := fun j k b' hj hk => h.unlocks j k b' (hbike j b' hj) (hbike k b' hk)
      held := fun j sess hj no ho => ?_
      apart := fun j sess hj k hk => h.apart j sess (hsess j sess hj) k (hseen k _ hk).2
      busy := fun b' no hidle ho => ?_ }
  · rcases (hon no b').mp ho with ⟨rfl, rfl⟩ | ⟨-, ho⟩ <;>
      rcases (hon no' _).mp ho' with ⟨rfl, hb⟩ | ⟨-, ho'⟩
    · rfl
    · exact absurd ho' (h.unseen i _ hi no')
    · subst hb
      exact absurd ho (h.unseen i _ hi no)
    · exact h.one b' no no' ho ho'
  · obtain ⟨hji, hj⟩ := hseen j b' hj
    rcases (hon no b').mp ho with ⟨-, rfl⟩ | ⟨-, ho⟩
    · exact hji (h.unlocks j i b (by rw [hj]; rfl) (by rw [hi]; rfl))
    · exact h.unseen j b' hj no ho
  · rcases (hon no _).mp ho with ⟨-, rfl⟩ | ⟨-, ho⟩
    · exact absurd hi (h.apart j sess (hsess j sess hj) i)
    · exact h.held j sess (hsess j sess hj) no ho
  · rcases (hon no b').mp ho with ⟨-, rfl⟩ | ⟨-, ho⟩
    · exact ⟨i, by rw [update_self]; rfl⟩
    · refine h.busy.update (fun _ _ => id) (fun _ => id) (fun _ _ _ _ hocc => ?_) b' no hidle ho
      rw [hi] at hocc
      cases hocc

/-- An `end_ride` finds a session. -/
theorem find (h : OneRider on idle phase) {sess : RideSession}
    (hi : ∀ b, ¬ (phase i).occupies b) (hon : on sess.rideNo sess.bikeId) :
    OneRider on idle (update phase i (.holding sess)) := by
  have hbike : ∀ j b, (update phase i (.holding sess) j).bike = some b →
      (phase j).bike = some b :=
    fun j b => of_update (fun q : RidePhase => q.bike = some b) (by nofun)
  have hseen : ∀ j b, update phase i (.holding sess) j = .seen b → phase j = .seen b :=
    fun j b => of_update (fun q : RidePhase => q = .seen b) (by nofun)
  refine
    { one := h.one
      unseen := fun j b hj => h.unseen j b (hseen j b hj)
      unlocks := fun j k b hj hk => h.unlocks j k b (hbike j b hj) (hbike k b hk)
      held := fun j sess' hj no ho => ?_
      apart := fun j sess' hj k hk => ?_
      busy := h.busy.update (fun _ _ => id) (fun _ => id) fun b _ _ _ hocc => absurd hocc (hi b) }
  · by_cases hji : j = i
    · subst hji
      rw [update_self] at hj
      cases hj
      exact h.one _ no _ ho hon
    · rw [update_of_ne hji] at hj
      exact h.held j sess' hj no ho
  · by_cases hji : j = i
    · subst hji
      rw [update_self] at hj
      cases hj
      exact h.unseen k _ (hseen k _ hk) _ hon
    · rw [update_of_ne hji] at hj
      exact h.apart j sess' hj k (hseen k _ hk)

end OneRider

end Abstract

/-! ## What the calls of the handlers do to it -/

namespace RidePhase

variable {q : RidePhase}

theorem next_ne_browsing (hq : ∀ n, q ≠ .browsing n) (c : Call) (r : c.Res) (n : Nat) :
    q.next c r ≠ .browsing n := by
  unfold next
  split
  case h_2 => split <;> [(split <;> simp); simp]
  case h_3 => split <;> simp
  case h_7 => split <;> [(split <;> simp); simp]
  case h_8 => split <;> simp
  case h_11 => exact absurd rfl (hq _)
  all_goals first | exact hq n | simp

/-- A handler accounts for its bike up to its `update_status`, or its `remove`. -/
theorem next_repo_occupies {c : RepoCall} (hc : ∀ id st, c ≠ .updateStatus id st) (r : c.Res)
    {b : Int32} (hq : q.occupies b) : (q.next (.repo c) r).occupies b := by
  cases q with
  | created b' =>
    cases c with
    | updateStatus id st => exact absurd rfl (hc id st)
    | _ => exact hq
  | freed sess => exact hq
  | _ => cases hq

end RidePhase

/-! ## The runs -/

/-- A handler that has to do with a bike. -/
inductive BikeJob where
  | scanUnlock (payload : Option ScanUnlockRequest)
  | endRide (payload : Option EndRideRequest)
  | reportDamage (payload : Option ReportDamageRequest)

def BikeJob.request : BikeJob → Request
  | .scanUnlock payload => .scanUnlock payload
  | .endRide payload => .endRide payload
  | .reportDamage payload => .reportDamage payload

section Runs

variable {P : Platform} {d : Deployment} {ι : Type} [DecidableEq ι]

/-- Any handlers of the three kinds, from the start of the process: no ride is
live, and the bikes are as they are. -/
def bikeJobs (P : Platform) (d : Deployment) (jobs : ι → BikeJob) :
    Machine (Pool (World P d) ι Call Call.Res (Outcome Reply) RidePhase) (Turn ι Env) :=
  Pool.machine (fun env c w => some (World.exec env c w)) (rideCalls fun _ => True)
    (fun w => w.sessions = .empty ∧ d.Distinct P w.repos)
    (fun i => dispatch P (jobs i).request) (fun i => (jobs i).request.phase)

/-- The turn does not show an unlock a bike idle while another unlock is under
way on it, or an `end_ride` holds a session of it. -/
def UnlockAlone (p : Pool (World P d) ι Call Call.Res (Outcome Reply) RidePhase)
    (e : Turn ι Env) : Prop :=
  match p.threads e.thread with
  | .call (.repo (.getForUpdate bikeNo)) _ =>
    p.phase e.thread = .scanning → ∀ b, d.bikeNamed P p.shared.repos bikeNo = some (b, .idle) →
      ∀ j, (p.phase j).bike ≠ some b ∧
        ∀ sess, (p.phase j).session = some sess → sess.bikeId ≠ b
  | _ => True

/-- The turn does not lose the mark of an unlock. -/
def MarkTaken (p : Pool (World P d) ι Call Call.Res (Outcome Reply) RidePhase)
    (e : Turn ι Env) : Prop :=
  match p.threads e.thread with
  | .call (.repo (.updateStatus _ .rented)) _ =>
    ¬ (d = .production ∧ e.env.fails .bikeStatus = true)
  | _ => True

/-- The bikes that a deployment shows idle. -/
def World.idle (w : World P d) (b : Int32) : Prop := (b, BikeStatus.idle) ∈ d.statuses P w.repos

structure RideInv (w : World P d) (phase : ι → RidePhase) : Prop where
  distinct : d.Distinct P w.repos
  indoors : ∀ i n, phase i ≠ .browsing n
  riders : OneRider w.sessions.on w.idle phase

variable {w : World P d} {phase : ι → RidePhase} {i : ι}

theorem RideInv.indoors_next (h : RideInv w phase) (c : Call) (r : c.Res) :
    ∀ j n, update phase i ((phase i).next c r) j ≠ .browsing n :=
  (forall_update_iff phase fun _ q => ∀ n, q ≠ .browsing n).mpr
    ⟨RidePhase.next_ne_browsing (h.indoors i) c r, fun j _ => h.indoors j⟩

/-- A call on the sessions, or one that no bike shows. -/
theorem RideInv.of_repos (h : RideInv w phase) {w' : World P d}
    (hst : d.statuses P w'.repos = d.statuses P w.repos) (c : Call) (r : c.Res)
    (hriders : OneRider w'.sessions.on w.idle (update phase i ((phase i).next c r))) :
    RideInv w' (update phase i ((phase i).next c r)) := by
  have hidle : w'.idle = w.idle := by
    funext b
    rw [World.idle, hst]
    rfl
  refine ⟨?_, h.indoors_next c r, hidle ▸ hriders⟩
  have := h.distinct
  rwa [Deployment.Distinct, ← hst] at this

/-- A repository call that is neither `get_for_update` nor `update_status`. -/
theorem RideInv.repo (h : RideInv w phase) (env : Env) {c : RepoCall}
    (hget : ∀ no, c ≠ .getForUpdate no) (hstatus : ∀ id st, c ≠ .updateStatus id st)
    (hinsert : ∀ b, c ≠ .insert b) (r : c.Res) :
    RideInv (World.exec env (.repo c) w).2
      (update phase i ((phase i).next (.repo c) r)) := by
  refine h.of_repos (Deployment.statuses_frame env hstatus hinsert) (.repo c) r ?_
  exact h.riders.shrink (fun _ _ => id) (RidePhase.next_repo_within hget r)
    (h.riders.busy.update (fun _ _ => id) (fun _ => id) fun _ _ _ _ =>
      RidePhase.next_repo_occupies hstatus r)

/-- `get_for_update`: an unlock may see its bike. -/
theorem RideInv.getForUpdate (h : RideInv w phase) (env : Env) {bikeNo : String}
    (halone : phase i = .scanning → ∀ b, d.bikeNamed P w.repos bikeNo = some (b, .idle) →
      ∀ j, (phase j).bike ≠ some b ∧ ∀ sess, (phase j).session = some sess → sess.bikeId ≠ b) :
    RideInv (World.exec env (.repo (.getForUpdate bikeNo)) w).2
      (update phase i ((phase i).next (.repo (.getForUpdate bikeNo))
        (World.exec env (.repo (.getForUpdate bikeNo)) w).1)) := by
  refine h.of_repos (Deployment.statuses_frame env (by simp) (by simp)) _ _ ?_
  have hstay : ∀ {q}, q.Within (phase i) → (∀ b, (phase i).occupies b → q.occupies b) →
      OneRider w.sessions.on w.idle (update phase i q) := fun hq hocc =>
    h.riders.shrink (fun _ _ => id) hq
      (h.riders.busy.update (fun _ _ => id) (fun _ => id) fun b _ _ _ => hocc b)
  cases hphase : phase i with
  | scanning =>
    change OneRider w.sessions.on w.idle (update phase i
      (RidePhase.scanning.next (.repo (.getForUpdate bikeNo))
        (d.exec P env (.getForUpdate bikeNo) w.repos).1))
    cases hfound : (d.exec P env (.getForUpdate bikeNo) w.repos).1 with
    | none => exact hstay (.outside _) fun b hocc => by rw [hphase] at hocc; cases hocc
    | some b =>
      have hnamed := Deployment.bikeNamed_of_getForUpdate hfound
      by_cases hst : b.status = .idle
      · rw [hst] at hnamed
        simp only [RidePhase.next, hst, if_true]
        exact h.riders.see hphase (Deployment.bikeNamed_mem hnamed) (halone hphase b.id hnamed)
      · simp only [RidePhase.next, hst, if_false]
        exact hstay (.outside _) fun b hocc => by rw [hphase] at hocc; cases hocc
  | _ => exact hstay (by rw [hphase]; exact .refl _) fun b hocc => by rw [hphase] at hocc; exact hocc

/-- `update_status`, in the one place each handler has for it. -/
theorem RideInv.updateStatus (h : RideInv w phase) (env : Env) {bikeId : Int32} {st : BikeStatus}
    (hallowed : (phase i).allowed (fun _ => True) (.repo (.updateStatus bikeId st)))
    (htaken : st = .rented → ¬ (d = .production ∧ env.fails .bikeStatus = true)) (r : Bool) :
    RideInv (World.exec env (.repo (.updateStatus bikeId st)) w).2
      (update phase i ((phase i).next (.repo (.updateStatus bikeId st)) r)) := by
  have hst := Deployment.statuses_updateStatus env h.distinct bikeId st
  have hdistinct : d.Distinct P (d.exec P env (.updateStatus bikeId st) w.repos).2 := by
    rw [Deployment.Distinct, hst]
    split
    · exact h.distinct
    · rw [setStatus_ids]
      exact h.distinct
  have hidle : ∀ b, (World.exec env (.repo (.updateStatus bikeId st)) w).2.idle b →
      w.idle b ∧ (b = bikeId → st ≠ .rented) ∨ b = bikeId ∧ st = .idle := by
    intro b hb
    rw [World.idle] at hb
    change (b, BikeStatus.idle) ∈ d.statuses P (d.exec P env (.updateStatus bikeId st) w.repos).2 at hb
    rw [hst] at hb
    split at hb
    next hf => exact .inl ⟨hb, fun _ hrented => htaken hrented hf⟩
    · rcases mem_setStatus.mp hb with ⟨rfl, rfl, -⟩ | ⟨hne, hb⟩
      · exact .inr ⟨rfl, rfl⟩
      · exact .inl ⟨hb, fun heq => absurd heq hne⟩
  refine ⟨hdistinct, h.indoors_next (.repo (.updateStatus bikeId st)) r, ?_⟩
  refine h.riders.shrink (fun _ _ => id)
    (RidePhase.next_repo_within (c := .updateStatus bikeId st) (by simp) r) ?_
  cases st with
  | idle =>
    -- the session is about to go: the handler accounts for its bike from here on
    obtain ⟨sess, hq, rfl⟩ := hallowed
    rw [hq]
    intro b no hb ho
    rcases hidle b hb with ⟨hb, -⟩ | ⟨rfl, -⟩
    · refine h.riders.busy.update (fun _ _ => id) (fun _ => id) (fun _ _ _ _ hocc => ?_) b no hb ho
      rw [hq] at hocc
      cases hocc
    · exact ⟨i, by rw [update_self]; rfl⟩
  | rented =>
    -- the bike is no longer idle, so nobody has to account for it
    have hq : phase i = .created bikeId := hallowed
    refine h.riders.busy.update (fun _ _ => id) (fun b hb => ?_) fun b no hb _ hocc => ?_
    · rcases hidle b hb with ⟨hb, -⟩ | ⟨-, hcontra⟩
      · exact hb
      · cases hcontra
    · rw [hq] at hocc
      cases hocc
      rcases hidle bikeId hb with ⟨-, hcontra⟩ | ⟨-, hcontra⟩
      · exact absurd rfl (hcontra rfl)
      · cases hcontra
  | damaged =>
    have hq : phase i = .reporting := hallowed
    refine h.riders.busy.update (fun _ _ => id) (fun b hb => ?_) fun b no _ _ hocc => ?_
    · rcases hidle b hb with ⟨hb, -⟩ | ⟨-, hcontra⟩
      · exact hb
      · cases hcontra
    · rw [hq] at hocc
      cases hocc

/-- A call on the sessions. -/
theorem RideInv.ride (h : RideInv w phase) (env : Env) {c : RideCall}
    (hallowed : (phase i).allowed (fun _ => True) (.ride c)) :
    RideInv (World.exec env (.ride c) w).2
      (update phase i ((phase i).next (.ride c) (World.exec env (.ride c) w).1)) := by
  have hst : d.statuses P (World.exec env (.ride c) w).2.repos = d.statuses P w.repos := rfl
  refine h.of_repos hst (.ride c) _ ?_
  cases c with
  | create s =>
    have hq : phase i = .seen s.bikeId := hallowed
    rw [hq]
    exact h.riders.create hq fun no b => RideSessionStore.on_create s
  | find rideNo =>
    obtain ⟨-, uid, hq⟩ := hallowed
    have hidle : ∀ b, ¬ (phase i).occupies b := fun b hocc => by rw [hq] at hocc; cases hocc
    have hleave : OneRider w.sessions.on w.idle (update phase i .outside) :=
      h.riders.shrink (fun _ _ => id) (.outside _)
        (h.riders.busy.update (fun _ _ => id) (fun _ => id) fun b _ _ _ hocc =>
          absurd hocc (hidle b))
    rw [hq]
    change OneRider w.sessions.on w.idle (update phase i
      ((RidePhase.caller uid).next (.ride (.find rideNo)) (w.sessions.find rideNo)))
    cases hfind : w.sessions.find rideNo with
    | none => exact hleave
    | some sess =>
      by_cases hown : sess.userId = uid
      · simp only [RidePhase.next, hown, if_true]
        refine h.riders.find hidle ⟨sess, ?_, rfl⟩
        rw [w.sessions.keyed rideNo sess hfind]
        exact hfind
      · simp only [RidePhase.next, hown, if_false]
        exact hleave
  | updatePos rideNo lat lng seq elapsedSec =>
    have hon : ∀ no b, (w.sessions.updatePos rideNo lat lng seq elapsedSec).2.on no b →
        w.sessions.on no b :=
      fun no b => (RideSessionStore.on_updatePos rideNo lat lng seq elapsedSec).mp
    have hq : (phase i).next (.ride (.updatePos rideNo lat lng seq elapsedSec))
        (World.exec env (.ride (.updatePos rideNo lat lng seq elapsedSec)) w).1 = phase i := by
      cases phase i <;> rfl
    rw [hq]
    exact h.riders.shrink hon (.refl _) (h.riders.busy.update hon (fun _ => id) fun _ _ _ _ => id)
  | remove rideNo =>
    obtain ⟨sess, hq, rfl⟩ := hallowed
    have hon : ∀ no b, (w.sessions.remove sess.rideNo).on no b → w.sessions.on no b :=
      fun no b ho => ((RideSessionStore.on_remove sess.rideNo).mp ho).2
    rw [hq]
    refine h.riders.shrink hon (.outside _) (h.riders.busy.update hon (fun _ => id) ?_)
    -- the session that went was the only one on its bike
    intro b no _ ho hocc
    rw [hq] at hocc
    cases hocc
    obtain ⟨hne, ho⟩ := (RideSessionStore.on_remove sess.rideNo).mp ho
    exact absurd (h.riders.held i sess (by rw [hq]; rfl) no ho) hne

theorem RideInv.step {p : Pool (World P d) ι Call Call.Res (Outcome Reply) RidePhase}
    {e : Turn ι Env} (h : RideInv p.shared p.phase) (halone : UnlockAlone p e)
    (htaken : MarkTaken p e) {c : Call} {k : c.Res → Calls (Outcome Reply)}
    (hc : p.threads e.thread = .call c k)
    (hallowed : (p.phase e.thread).allowed (fun _ => True) c) :
    RideInv (World.exec e.env c p.shared).2
      (update p.phase e.thread
        ((p.phase e.thread).next c (World.exec e.env c p.shared).1)) := by
  rw [UnlockAlone, hc] at halone
  rw [MarkTaken, hc] at htaken
  have stay : ∀ {q}, q = p.phase e.thread →
      RideInv p.shared (update p.phase e.thread q) := fun hq => by
    rw [hq, update_eq_self]
    exact h
  cases c with
  | nowUnix => exact stay (by cases p.phase e.thread <;> rfl)
  | today => exact stay (by cases p.phase e.thread <;> rfl)
  | ride c => exact h.ride e.env hallowed
  | repo c =>
    cases c with
    | getForUpdate bikeNo => exact h.getForUpdate e.env halone
    | updateStatus bikeId st =>
      refine h.updateStatus e.env hallowed (fun hst => ?_) _
      subst hst
      exact htaken
    | insert b =>
      obtain ⟨-, left, hq⟩ := hallowed
      exact absurd hq (h.indoors e.thread (left + 1))
    | _ => exact h.repo e.env (by simp) (by simp) (by simp) _

/-- **A bike is ridden by one session**, in every run in which no unlock reads
a bike that another unlock or a return is busy with and no mark is lost. -/
theorem ridden_once (jobs : ι → BikeJob)
    {p : Pool (World P d) ι Call Call.Res (Outcome Reply) RidePhase}
    (h : (bikeJobs P d jobs).ReachableWhile (fun p e => UnlockAlone p e ∧ MarkTaken p e) p)
    {no no' : String} {s s' : RideSession} (hs : p.shared.sessions.find no = some s)
    (hs' : p.shared.sessions.find no' = some s') (hbike : s.bikeId = s'.bikeId) : no = no' := by
  have hinv : RideInv p.shared p.phase := by
    refine Pool.invariant (fun i => dispatch_obeys P fun _ _ => trivial) (fun w hw => ?_) ?_ h
    · have hphase : ∀ i, ((jobs i).request.phase).bike = none ∧
          ((jobs i).request.phase).session = none ∧ ∀ n, (jobs i).request.phase ≠ .browsing n := by
        intro i
        cases jobs i <;> exact ⟨rfl, rfl, fun _ => nofun⟩
      have hempty : ∀ no b, ¬ w.sessions.on no b := by
        rw [hw.1]
        exact fun _ _ => RideSessionStore.not_on_empty
      refine ⟨hw.2, fun i => (hphase i).2.2, ?_⟩
      exact
        { one := fun b no _ ho => absurd ho (hempty no b)
          unseen := fun _ b _ no => hempty no b
          unlocks := fun i _ _ hi => by rw [(hphase i).1] at hi; cases hi
          held := fun i _ hi => by rw [(hphase i).2.1] at hi; cases hi
          apart := fun i _ hi => by rw [(hphase i).2.1] at hi; cases hi
          busy := fun b no _ ho => absurd ho (hempty no b) }
    · intro p e c k r w hI hok hc hallowed hexec
      have hstep := hI.step hok.1 hok.2 hc hallowed
      rw [Option.some.inj hexec] at hstep
      exact hstep
  exact hinv.riders.one s.bikeId no no' ⟨s, hs, rfl⟩ ⟨s', hs', hbike.symm⟩

end Runs

/-! ## Two unlocks of one bike -/

/-- An unlock, the return of its ride, and another unlock. -/
def smallJobs : Fin 3 → BikeJob
  | 0 => .scanUnlock (some ⟨"token", "SB00000001", .fin 0, .fin 0⟩)
  | 1 => .endRide (some ⟨"token", "R19700101000201", .fin 0, .fin 0⟩)
  | 2 => .scanUnlock (some ⟨"token", "SB00000001", .fin 0, .fin 0⟩)

def smallStart : Pool (World Platform.standstill .production) (Fin 3) Call Call.Res
    (Outcome Reply) RidePhase :=
  ⟨⟨Production.small 1000 .idle, .empty⟩, fun i => dispatch .standstill (smallJobs i).request,
    fun i => (smallJobs i).request.phase⟩

theorem smallStart_init :
    (bikeJobs Platform.standstill .production smallJobs).init smallStart :=
  ⟨⟨rfl, Deployment.distinct_production _⟩, rfl, rfl⟩

/-- Turns of one handler at one instant. -/
def atOnce (now n : Nat) (i : Fin 3) : List (Turn (Fin 3) Env) := List.replicate n ⟨i, .calm now⟩

/-- Both conditions of `ridden_once`, computed. -/
def smallCheck (p : Pool (World Platform.standstill .production) (Fin 3) Call Call.Res
    (Outcome Reply) RidePhase) (e : Turn (Fin 3) Env) : Bool :=
  match p.threads e.thread with
  | .call (.repo (.getForUpdate bikeNo)) _ =>
    (Deployment.production.bikeNamed _ p.shared.repos bikeNo).all fun (b, _) =>
      decide (∀ j, (p.phase j).bike ≠ some b ∧ (p.phase j).session.map (·.bikeId) ≠ some b)
  | .call (.repo (.updateStatus _ .rented)) _ => !e.env.fails .bikeStatus
  | _ => true

theorem smallCheck_sound (p : Pool (World Platform.standstill .production) (Fin 3) Call Call.Res
    (Outcome Reply) RidePhase) (e : Turn (Fin 3) Env) (h : smallCheck p e = true) :
    UnlockAlone p e ∧ MarkTaken p e := by
  unfold smallCheck at h
  unfold UnlockAlone MarkTaken
  split at h
  next heq =>
    rw [heq]
    refine ⟨fun _ b hb j => ?_, trivial⟩
    rw [hb] at h
    obtain ⟨hbike, hsess⟩ := of_decide_eq_true h j
    refine ⟨hbike, fun sess hj heq => hsess ?_⟩
    rw [hj, ← heq]
    rfl
  next heq =>
    rw [heq]
    exact ⟨trivial, fun hf => by rw [hf.2] at h; cases h⟩
  next hget hset =>
    constructor
    · split
      next heq => exact absurd heq (hget _ _)
      · trivial
    · split
      next heq => exact absurd heq (hset _ _)
      · trivial

/-- Unlock, return and unlock again, one after the other: one session is left. -/
theorem ridden_once_in_turn :
    ∃ p, (bikeJobs Platform.standstill .production smallJobs).ReachableWhile
        (fun p e => UnlockAlone p e ∧ MarkTaken p e) p ∧
      (p.shared.sessions.find "R19700101000401").map (·.bikeId) = some 1 ∧
      ∀ {no no' s s'}, p.shared.sessions.find no = some s → p.shared.sessions.find no' = some s' →
        s.bikeId = s'.bikeId → no = no' := by
  obtain ⟨p, hreach, hbike⟩ :
      ∃ p, (bikeJobs Platform.standstill .production smallJobs).ReachableWhile
          (fun p e => UnlockAlone p e ∧ MarkTaken p e) p ∧
        (p.shared.sessions.find "R19700101000401").map (·.bikeId) = some 1 :=
    Machine.exists_of_playWhile smallCheck_sound smallStart smallStart_init
      (atOnce 200 9 0 ++ atOnce 300 9 1 ++ atOnce 400 9 2) (by decide +kernel)
  exact ⟨p, hreach, hbike, ridden_once _ hreach⟩

/-- Both unlocks see the bike idle before either marks it: it has two riders. -/
theorem ridden_twice :
    ∃ p, (bikeJobs Platform.standstill .production smallJobs).Reachable p ∧
      (p.shared.sessions.find "R19700101000201").map (·.bikeId) = some 1 ∧
      (p.shared.sessions.find "R19700101000202").map (·.bikeId) = some 1 :=
  Machine.exists_of_play smallStart smallStart_init
    (atOnce 200 3 0 ++ atOnce 200 3 2 ++ atOnce 200 5 0 ++ atOnce 201 5 2) (by decide +kernel)

end SharedBike.Server
