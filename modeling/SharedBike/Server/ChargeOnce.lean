import SharedBike.Server.Frames
import SharedBike.Server.Courses
import SharedBike.Lib.Pool

/-!
# A ride is charged once, if its ends do not overlap

Any number of `end_ride` executions for one ride number, their calls
interleaved in any order. `end_ride` finds the session, charges, archives
and only then removes the session, with nothing to keep a second execution
from finding it in between: `charged_twice` is such a run, on the database.

`charged_once` is the other half. When no execution looks the ride up while
another one holds its session, and on the database no charge exceeds the
balance it is made against, then no run takes more than one payment or
archives more than one ride. The second condition is needed because the
database takes an overdraft where the in-memory repository refuses it: the
handler answers that the balance is short, leaves the session, and a retry
pays again.
-/

namespace SharedBike.Server

open SharedBike.Common SharedBike.Lib Function

variable {P : Platform} {d : Deployment} {c : Call} {sess : RideSession} {q : RidePhase}

/-! ## Payments and archived rides -/

/-- How many payments a user's ledger shows. -/
def Deployment.consumes (P : Platform) (d : Deployment) (s : d.Repos P) (uid : Int32) : Nat :=
  (d.ledger P s uid).countP (·.type = RecordType.consume.code)

/-- At most one record joins, and only the user's own. -/
theorem Deployment.ledger_addBalance (env : Env) (u : Int32) (type : RecordType) (amount : Int32)
    (s : d.Repos P) (uid : Int32) :
    d.ledger P (d.exec P env (.addBalance u type amount) s).2 uid = d.ledger P s uid ∨
      u = uid ∧ ∃ bal, d.ledger P (d.exec P env (.addBalance u type amount) s).2 uid =
        d.ledger P s uid ++ [⟨type.code, amount, bal, env.now⟩] := by
  cases d with
  | inMemory =>
    simp only [ledger, exec, InMemory.exec, InMemory.addBalance]
    split
    · exact .inl rfl
    · by_cases hu : u = uid
      · subst hu
        exact .inr ⟨rfl, _, update_self ..⟩
      · exact .inl (update_of_ne (Ne.symm hu) ..)
  | production =>
    simp only [ledger, exec, Production.exec, Production.sql_addBalance]
    rcases s.tables.charge_cases env u type amount with h | ⟨-, h⟩ | ⟨-, -, t', h, -, hrec⟩
    · exact .inl (by rw [h]; rfl)
    · exact .inl (by rw [h]; rfl)
    · rw [h, Option.getD_some, hrec, List.filter_append, List.map_append]
      by_cases hu : u = uid
      · subst hu
        exact .inr ⟨rfl, s.tables.balance u + amount, by simp⟩
      · exact .inl (by simp [hu])

/-- A refused debit is not in the ledger, unless the database took an overdraft. -/
theorem Deployment.ledger_refused (env : Env) {u : Int32} {amount : Int32} (hneg : amount < 0)
    (s : d.Repos P) (hanswer : (d.exec P env (.addBalance u .consume amount) s).1 < 0)
    (hcover : d = .production → 0 ≤ (d.balance P s u).toInt + amount.toInt) (uid : Int32) :
    d.ledger P (d.exec P env (.addBalance u .consume amount) s).2 uid = d.ledger P s uid := by
  cases d with
  | inMemory =>
    simp only [ledger, exec, InMemory.exec, InMemory.addBalance] at hanswer ⊢
    split
    · rfl
    next hok =>
      rw [if_neg hok] at hanswer
      exact absurd ⟨hneg, hanswer⟩ hok
  | production =>
    simp only [ledger, exec, Production.exec, Production.sql_addBalance] at hanswer ⊢
    rcases s.tables.charge_cases env u .consume amount with h | ⟨-, h⟩ | ⟨-, hfit, t', h, hacc, -⟩
    · rw [h]
      rfl
    · rw [h]
      rfl
    · -- a charge that went through left the sum, which is not negative
      exfalso
      have hsum : (s.tables.balance u + amount).toInt =
          (s.tables.balance u).toInt + amount.toInt := toInt_add_of_range hfit.1 hfit.2
      have hge : 0 ≤ (s.tables.balance u).toInt + amount.toInt := hcover rfl
      rw [h, Option.getD_some, Int32.lt_iff_toInt_lt, Tables.readBalance] at hanswer
      split at hanswer
      · exact lt_irrefl _ hanswer
      · rw [Tables.balance, hacc, update_self, Option.getD_some, hsum] at hanswer
        exact absurd hanswer (not_lt.mpr hge)

/-- At most one ride joins, under its own number. -/
theorem Deployment.archived_createWithPoints (env : Env) (inp : CreateRideInput) (s : d.Repos P)
    (rideNo : String) :
    d.archived P (d.exec P env (.createWithPoints inp) s).2 rideNo ≤ d.archived P s rideNo + 1 := by
  cases d with
  | inMemory =>
    simp only [archived, exec, InMemory.exec, InMemory.createWithPoints, List.countP_append]
    exact Nat.add_le_add_left (List.countP_le_length ..) _
  | production =>
    obtain ⟨ids, -, heq⟩ := s.sql_createWithPoints env inp
    simp only [archived, exec, Production.exec, heq]
    cases h : s.tables.archiveRide env s.ids.ride inp with
    | none => exact Nat.le_succ _
    | some t =>
      obtain ⟨row, -, hride⟩ := Tables.archiveRide_ride h
      simp only [hride, List.countP_append]
      exact Nat.add_le_add_left (List.countP_le_length ..) _

/-! ## Quiet calls -/

/-- The calls that neither charge, nor archive, nor make or remove a session. -/
def Call.quiet : Call → Bool
  | .repo (.addBalance _ .consume _) => false
  | .repo (.createWithPoints _) => false
  | .ride (.create _) => false
  | .ride (.remove _) => false
  | _ => true

namespace World

theorem consumes_quiet (env : Env) (hc : c.quiet = true) (w : World P d) (uid : Int32) :
    d.consumes P (exec env c w).2.repos uid = d.consumes P w.repos uid := by
  cases c with
  | repo c =>
    change d.consumes P (d.exec P env c w.repos).2 uid = _
    unfold Deployment.consumes
    by_cases hT : Table.accountRecord ∈ c.targets
    · cases c with
      | addBalance u type amount =>
        cases type with
        | consume => cases hc
        | recharge =>
          rcases Deployment.ledger_addBalance env u .recharge amount w.repos uid with
            h | ⟨-, bal, h⟩
          · rw [h]
          · rw [h, List.countP_append]
            rfl
      | _ => simp [RepoCall.targets] at hT
    · rw [d.ledger_exec env c w.repos hT]
  | _ => rfl

theorem archived_quiet (env : Env) (hc : c.quiet = true) (w : World P d) (rideNo : String) :
    d.archived P (exec env c w).2.repos rideNo = d.archived P w.repos rideNo := by
  cases c with
  | repo c =>
    change d.archived P (d.exec P env c w.repos).2 rideNo = _
    by_cases hT : Table.ride ∈ c.targets
    · cases c with
      | createWithPoints inp => cases hc
      | _ => simp [RepoCall.targets] at hT
    · exact d.archived_exec env c w.repos hT rideNo
  | _ => rfl

theorem find_quiet (env : Env) (hc : c.quiet = true) (w : World P d) (rideNo : String) :
    (exec env c w).2.sessions.find rideNo = none ↔ w.sessions.find rideNo = none := by
  cases c with
  | ride c =>
    change (RideSessionStore.exec c w.sessions).2.find rideNo = none ↔ _
    cases c with
    | create s => cases hc
    | find no => rfl
    | remove no => cases hc
    | updatePos no lat lng seq elapsedSec =>
      simp only [RideSessionStore.exec, RideSessionStore.updatePos]
      split
      · rfl
      next sess hfind =>
        have hno := (RideSessionStore.report_frame sess lat lng seq elapsedSec).1
        rw [w.sessions.keyed no sess hfind] at hno
        simp only [RideSessionStore.create, hno]
        by_cases heq : rideNo = no
        · subst heq
          simp [hfind]
        · rw [update_of_ne heq]
  | _ => rfl

end World

/-- The phases of a `scan_unlock`. -/
def RidePhase.ofUnlock : RidePhase → Bool
  | .scanning | .seen _ | .created _ => true
  | _ => false

/-- Apart from lookups, a quiet call of an `end_ride` at most moves it from
archiving to having freed the bike. -/
theorem RidePhase.next_quiet (hq : q.ofUnlock = false) (hc : c.quiet = true)
    (hfind : ∀ no, c ≠ .ride (.find no)) {look : String → Prop} (hallowed : q.allowed look c)
    (r : c.Res) :
    (q.next c r).ofUnlock = false ∧
      (q.next c r = q ∨ (q.session = none ∧ (q.next c r).session = none) ∨
        ∃ sess, q = .archived sess ∧ q.next c r = .freed sess) := by
  unfold RidePhase.next
  split
  case h_1 => exact ⟨rfl, .inr (.inl ⟨rfl, rfl⟩)⟩
  case h_2 rideNo _ => exact absurd rfl (hfind rideNo)
  case h_3 sess uid type amount newBal =>
    cases type with
    | consume => cases hc
    | recharge => cases hallowed
  case h_5 sess _ _ _ => exact ⟨rfl, .inr (.inr ⟨sess, rfl, rfl⟩)⟩
  case h_11 => exact ⟨rfl, .inr (.inl ⟨rfl, rfl⟩)⟩
  case h_12 => exact ⟨hq, .inl rfl⟩
  -- what is left is not quiet, or belongs to an unlock
  case h_4 => cases hc
  case h_6 => cases hc
  all_goals cases hq

/-! ## The invariant -/

section Once

variable {ι : Type} [DecidableEq ι] {rideNo : String}

/-- At most one execution holds the session, and it is the one of this ride. -/
structure Alone (rideNo : String) (phase : ι → RidePhase) : Prop where
  noUnlock : ∀ i, (phase i).ofUnlock = false
  alone : ∀ i j, (phase i).session ≠ none → (phase j).session ≠ none → i = j
  here : ∀ i sess, (phase i).session = some sess → sess.rideNo = rideNo

/-- An execution that goes on holding what it held, or lets go. -/
theorem Alone.update {phase : ι → RidePhase} (h : Alone rideNo phase) {i : ι}
    (hq : q.ofUnlock = false) (hs : ∀ s, q.session = some s → (phase i).session = some s) :
    Alone rideNo (Function.update phase i q) := by
  have hsub : ∀ j s, (Function.update phase i q j).session = some s → (phase j).session = some s :=
    fun j s => of_update (fun q : RidePhase => q.session = some s) (hs s)
  refine ⟨fun j => ?_, fun j k hj hk => ?_, fun j s hj => h.here j s (hsub j s hj)⟩
  · exact (forall_update_iff phase fun _ q => q.ofUnlock = false).mpr
      ⟨hq, fun j _ => h.noUnlock j⟩ j
  · obtain ⟨s, hs⟩ := Option.ne_none_iff_exists'.mp hj
    obtain ⟨s', hs'⟩ := Option.ne_none_iff_exists'.mp hk
    exact h.alone j k (by rw [hsub j s hs]; simp) (by rw [hsub k s' hs']; simp)

/-- Nothing was taken and nothing archived since `w₀`. -/
def Untouched (rideNo : String) (w₀ w : World P d) : Prop :=
  (∀ uid, d.consumes P w.repos uid ≤ d.consumes P w₀.repos uid) ∧
    d.archived P w.repos rideNo ≤ d.archived P w₀.repos rideNo

/-- At most one payment and one ride since `w₀`. While the session can still
be found by a newcomer, or is held and not charged, there is none. -/
structure OnceInv (rideNo : String) (w₀ w : World P d) (phase : ι → RidePhase) : Prop where
  alone : Alone rideNo phase
  paid : ∀ uid, d.consumes P w.repos uid ≤ d.consumes P w₀.repos uid + 1
  kept : d.archived P w.repos rideNo ≤ d.archived P w₀.repos rideNo + 1
  free : w.sessions.find rideNo ≠ none → (∀ i, (phase i).session = none) →
    Untouched rideNo w₀ w
  held : ∀ i sess, phase i = .holding sess → Untouched rideNo w₀ w
  unkept : ∀ i sess, phase i = .charged sess →
    d.archived P w.repos rideNo ≤ d.archived P w₀.repos rideNo

variable {w₀ w : World P d} {phase : ι → RidePhase} {i : ι}

/-- No other execution holds a session beside this one. -/
theorem Alone.other (h : Alone rideNo phase) (hi : (phase i).session ≠ none) {j : ι}
    (hj : (Function.update phase i q j).session ≠ none) : j = i := by
  by_contra hji
  rw [update_of_ne hji] at hj
  exact hji (h.alone j i hj hi)

section

variable (h : OnceInv rideNo w₀ w phase)

include h

theorem OnceInv.quiet (env : Env) (hc : c.quiet = true)
    (hfind : ∀ no, c ≠ .ride (.find no)) {look : String → Prop}
    (hallowed : (phase i).allowed look c) (r : c.Res) :
    OnceInv rideNo w₀ (World.exec env c w).2
      (update phase i ((phase i).next c r)) := by
  obtain ⟨hun, hmove⟩ := RidePhase.next_quiet (h.alone.noUnlock i) hc hfind hallowed r
  have hsess : ((phase i).next c r).session = (phase i).session := by
    rcases hmove with heq | ⟨h0, h1⟩ | ⟨sess, h0, h1⟩
    · rw [heq]
    · rw [h0, h1]
    · rw [h0] at h1 ⊢
      rw [h1]
      rfl
  have hsame : ∀ sess, ((phase i).next c r = .holding sess → phase i = .holding sess) ∧
      ((phase i).next c r = .charged sess → phase i = .charged sess) := by
    intro sess
    rcases hmove with heq | ⟨-, h1⟩ | ⟨sess', -, h1⟩
    · rw [heq]
      exact ⟨id, id⟩
    · constructor <;> intro hq <;> rw [hq] at h1 <;> cases h1
    · constructor <;> intro hq <;> rw [hq] at h1 <;> cases h1
  have hunt : Untouched rideNo w₀ w → Untouched rideNo w₀ (World.exec env c w).2 := by
    rintro ⟨hp, ha⟩
    refine ⟨fun uid => ?_, ?_⟩
    · rw [World.consumes_quiet env hc]
      exact hp uid
    · rw [World.archived_quiet env hc]
      exact ha
  refine
    { alone := h.alone.update hun fun s hs => by rw [← hsess]; exact hs
      paid := fun uid => by rw [World.consumes_quiet env hc]; exact h.paid uid
      kept := by rw [World.archived_quiet env hc]; exact h.kept
      free := fun hlive hnone => hunt (h.free ?_ fun j => ?_)
      held := fun j sess hj => hunt ?_
      unkept := fun j sess hj => ?_ }
  · exact fun hgone => hlive ((World.find_quiet env hc w rideNo).mpr hgone)
  · by_cases hji : j = i
    · subst hji
      rw [← hsess]
      simpa only [update_self] using hnone j
    · simpa only [update_of_ne hji] using hnone j
  · by_cases hji : j = i
    · subst hji
      rw [update_self] at hj
      exact h.held j sess ((hsame sess).1 hj)
    · rw [update_of_ne hji] at hj
      exact h.held j sess hj
  · rw [World.archived_quiet env hc]
    by_cases hji : j = i
    · subst hji
      rw [update_self] at hj
      exact h.unkept j sess ((hsame sess).2 hj)
    · rw [update_of_ne hji] at hj
      exact h.unkept j sess hj

/-- A lookup while nobody holds the session. -/
theorem OnceInv.find {uid : Int32} (hq : phase i = .caller uid)
    (hnone : ∀ j, (phase j).session = none) :
    OnceInv rideNo w₀ w (update phase i
      ((phase i).next (.ride (.find rideNo)) (w.sessions.find rideNo))) := by
  rw [hq]
  cases hfind : w.sessions.find rideNo with
  | none =>
    refine
      { alone := h.alone.update rfl fun s hs => by cases hs
        paid := h.paid
        kept := h.kept
        free := fun hlive => absurd hfind hlive
        held := fun j sess hj => ?_
        unkept := fun j sess hj => ?_ }
    all_goals
      by_cases hji : j = i
      · subst hji
        rw [update_self] at hj
        cases hj
      · rw [update_of_ne hji] at hj
        have := hnone j
        rw [hj] at this
        cases this
  | some sess =>
    have hunt := h.free (by rw [hfind]; simp) hnone
    by_cases hown : sess.userId = uid
    · simp only [RidePhase.next, hown, if_true]
      refine
        { alone := ⟨fun j => ?_, fun j k hj hk => ?_, fun j s hj => ?_⟩
          paid := h.paid
          kept := h.kept
          free := fun _ _ => hunt
          held := fun _ _ _ => hunt
          unkept := fun _ _ _ => hunt.2 }
      · by_cases hji : j = i
        · subst hji
          rw [update_self]
          rfl
        · rw [update_of_ne hji]
          exact h.alone.noUnlock j
      · -- nobody held it before, so whoever holds it now is the newcomer
        have hself : ∀ l, (update phase i (.holding sess) l).session ≠ none → l = i := by
          intro l hl
          by_contra hli
          rw [update_of_ne hli] at hl
          exact hl (hnone l)
        rw [hself j hj, hself k hk]
      · by_cases hji : j = i
        · subst hji
          rw [update_self] at hj
          cases hj
          exact w.sessions.keyed rideNo sess hfind
        · rw [update_of_ne hji, hnone j] at hj
          cases hj
    · simp only [RidePhase.next, hown, if_false]
      exact
        { alone := h.alone.update rfl fun s hs => by cases hs
          paid := h.paid
          kept := h.kept
          free := fun _ _ => hunt
          held := fun _ _ _ => hunt
          unkept := fun _ _ _ => hunt.2 }

/-- A charge that is covered: it is refused and nothing happened, or it may
have been taken and the session is past its one charge. -/
theorem OnceInv.charge (env : Env) (hq : phase i = .holding sess)
    {amount : Int32} (hneg : amount < 0)
    (hcover : d = .production → 0 ≤ (d.balance P w.repos sess.userId).toInt + amount.toInt) :
    OnceInv rideNo w₀ (World.exec env (.repo (.addBalance sess.userId .consume amount)) w).2
      (update phase i ((phase i).next (.repo (.addBalance sess.userId .consume amount))
        (World.exec env (.repo (.addBalance sess.userId .consume amount)) w).1)) := by
  have hunt := h.held i sess hq
  have hsess : (phase i).session ≠ none := by rw [hq]; simp [RidePhase.session]
  have harch : d.archived P (d.exec P env (.addBalance sess.userId .consume amount) w.repos).2
      rideNo = d.archived P w.repos rideNo :=
    d.archived_exec env _ w.repos (by simp [RepoCall.targets]) rideNo
  rw [hq]
  change OnceInv rideNo w₀
    ⟨(d.exec P env (.addBalance sess.userId .consume amount) w.repos).2, w.sessions⟩
    (update phase i
      (if (d.exec P env (.addBalance sess.userId .consume amount) w.repos).1 < 0 then .outside
        else .charged sess))
  by_cases hanswer : (d.exec P env (.addBalance sess.userId .consume amount) w.repos).1 < 0
  · rw [if_pos hanswer]
    have hunt' : Untouched rideNo w₀
        ⟨(d.exec P env (.addBalance sess.userId .consume amount) w.repos).2, w.sessions⟩ := by
      refine ⟨fun uid => ?_, harch.trans_le hunt.2⟩
      unfold Deployment.consumes
      rw [Deployment.ledger_refused env hneg w.repos hanswer hcover uid]
      exact hunt.1 uid
    exact
      { alone := h.alone.update rfl fun s hs => by cases hs
        paid := fun uid => (hunt'.1 uid).trans (Nat.le_succ _)
        kept := hunt'.2.trans (Nat.le_succ _)
        free := fun _ _ => hunt'
        held := fun _ _ _ => hunt'
        unkept := fun _ _ _ => hunt'.2 }
  · rw [if_neg hanswer]
    refine
      { alone := h.alone.update rfl fun s hs => by rw [hq]; exact hs
        paid := fun uid => ?_
        kept := (harch.trans_le hunt.2).trans (Nat.le_succ _)
        free := fun _ hnone => ?_
        held := fun j sess' hj => ?_
        unkept := fun _ _ _ => harch.trans_le hunt.2 }
    · refine le_trans ?_ (Nat.succ_le_succ (hunt.1 uid))
      unfold Deployment.consumes
      rcases Deployment.ledger_addBalance env sess.userId .consume amount w.repos uid with
        hl | ⟨-, bal, hl⟩
      · rw [hl]
        exact Nat.le_succ _
      · rw [hl, List.countP_append]
        rfl
    · have := hnone i
      rw [update_self] at this
      cases this
    · have hji := h.alone.other hsess (j := j) (by rw [hj]; simp [RidePhase.session])
      subst hji
      rw [update_self] at hj
      cases hj

/-- The one ride of the one payment. -/
theorem OnceInv.archive (env : Env) (hq : phase i = .charged sess)
    (inp : CreateRideInput) (r : Ride) :
    OnceInv rideNo w₀ (World.exec env (.repo (.createWithPoints inp)) w).2
      (update phase i ((phase i).next (.repo (.createWithPoints inp)) r)) := by
  have hsess : (phase i).session ≠ none := by rw [hq]; simp [RidePhase.session]
  have hledger : ∀ uid, d.consumes P (d.exec P env (.createWithPoints inp) w.repos).2 uid =
      d.consumes P w.repos uid := by
    intro uid
    unfold Deployment.consumes
    rw [d.ledger_exec env _ w.repos (by simp [RepoCall.targets])]
  have hother : ∀ j, (update phase i (.archived sess) j).session ≠ none → j = i :=
    fun j hj => h.alone.other hsess hj
  rw [hq]
  change OnceInv rideNo w₀ ⟨(d.exec P env (.createWithPoints inp) w.repos).2, w.sessions⟩
    (update phase i (.archived sess))
  refine
    { alone := h.alone.update rfl fun s hs => by rw [hq]; exact hs
      paid := fun uid => (hledger uid).trans_le (h.paid uid)
      kept := (Deployment.archived_createWithPoints env inp w.repos rideNo).trans
        (Nat.succ_le_succ (h.unkept i sess hq))
      free := fun _ hnone => ?_
      held := fun j sess' hj => ?_
      unkept := fun j sess' hj => ?_ }
  · have := hnone i
    rw [update_self] at this
    cases this
  all_goals
    have hji := hother j (by rw [hj]; simp [RidePhase.session])
    subst hji
    rw [update_self] at hj
    cases hj

/-- Once the session is removed, nobody finds it again. -/
theorem OnceInv.remove (env : Env) (hq : phase i = .freed sess)
    (r : Bool) :
    OnceInv rideNo w₀ (World.exec env (.ride (.remove sess.rideNo)) w).2
      (update phase i ((phase i).next (.ride (.remove sess.rideNo)) r)) := by
  have hsess : (phase i).session ≠ none := by rw [hq]; simp [RidePhase.session]
  have hno : sess.rideNo = rideNo := h.alone.here i sess (by rw [hq]; rfl)
  have hother : ∀ j, (update phase i .outside j).session ≠ none → j = i :=
    fun j hj => h.alone.other hsess hj
  rw [hq, hno]
  change OnceInv rideNo w₀ ⟨w.repos, w.sessions.remove rideNo⟩
    (update phase i .outside)
  refine
    { alone := h.alone.update rfl fun s hs => by cases hs
      paid := h.paid
      kept := h.kept
      free := fun hlive _ => absurd (update_self ..) hlive
      held := fun j sess' hj => ?_
      unkept := fun j sess' hj => ?_ }
  all_goals
    have hji := hother j (by rw [hj]; simp [RidePhase.session])
    subst hji
    rw [update_self] at hj
    cases hj

end

/-! ## The runs -/

/-- Executions of `end_ride` for one ride, whoever calls them. -/
def endRides (P : Platform) (d : Deployment) (rideNo : String) (reqs : ι → EndRideRequest)
    (w₀ : World P d) :
    Machine (Pool (World P d) ι Call Call.Res (Outcome EndRideResponse) RidePhase)
      (Turn ι Env) :=
  Pool.machine (fun env c w => some (World.exec env c w)) (rideCalls (· = rideNo)) (· = w₀)
    (fun i => endRide P (some { reqs i with rideNo })) (fun _ => .entering)

/-- The turn does not look the ride up while an execution is between the `find`
that gave it the session and its end. -/
def LookupAlone (p : Pool (World P d) ι Call Call.Res (Outcome EndRideResponse) RidePhase)
    (e : Turn ι Env) : Prop :=
  match p.threads e.thread with
  | .call (.ride (.find _)) _ => ∀ j, (p.phase j).session = none
  | _ => True

/-- The turn does not charge more than the balance, where the repository would take it. -/
def ChargeCovered (p : Pool (World P d) ι Call Call.Res (Outcome EndRideResponse) RidePhase)
    (e : Turn ι Env) : Prop :=
  match p.threads e.thread with
  | .call (.repo (.addBalance uid _ amount)) _ =>
    d = .production → 0 ≤ (d.balance P p.shared.repos uid).toInt + amount.toInt
  | _ => True

theorem OnceInv.step {p : Pool (World P d) ι Call Call.Res (Outcome EndRideResponse) RidePhase}
    {e : Turn ι Env} (h : OnceInv rideNo w₀ p.shared p.phase) (halone : LookupAlone p e)
    (hcover : ChargeCovered p e) {k : c.Res → Calls (Outcome EndRideResponse)}
    (hc : p.threads e.thread = .call c k) (hallowed : (p.phase e.thread).allowed (· = rideNo) c) :
    OnceInv rideNo w₀ (World.exec e.env c p.shared).2
      (update p.phase e.thread
        ((p.phase e.thread).next c (World.exec e.env c p.shared).1)) := by
  rw [LookupAlone, hc] at halone
  rw [ChargeCovered, hc] at hcover
  have quiet := fun hq hf => h.quiet e.env (c := c) hq hf hallowed (World.exec e.env c p.shared).1
  cases c with
  | nowUnix => exact quiet rfl nofun
  | today => exact quiet rfl nofun
  | ride c =>
    cases c with
    | create s =>
      have := h.alone.noUnlock e.thread
      rw [hallowed] at this
      cases this
    | find no =>
      obtain ⟨rfl, uid, hq⟩ := hallowed
      exact h.find hq halone
    | updatePos no lat lng seq elapsedSec => exact quiet rfl nofun
    | remove no =>
      obtain ⟨sess, hq, rfl⟩ := hallowed
      exact h.remove e.env hq _
  | repo c =>
    cases c with
    | addBalance uid type amount =>
      cases type with
      | recharge => exact quiet rfl nofun
      | consume =>
        obtain ⟨hneg, sess, hq, rfl⟩ := hallowed
        exact h.charge e.env hq hneg hcover
    | createWithPoints inp =>
      obtain ⟨sess, hq, -⟩ := hallowed
      exact h.archive e.env hq inp _
    | _ => exact quiet rfl nofun

/-- **At most one payment and one archived ride**, in every run in which the
lookups of the ride do not fall into one another's executions and no charge
overdraws the account. -/
theorem charged_once (rideNo : String) (reqs : ι → EndRideRequest) (w₀ : World P d)
    {p : Pool (World P d) ι Call Call.Res (Outcome EndRideResponse) RidePhase}
    (h : (endRides P d rideNo reqs w₀).ReachableWhile
      (fun p e => LookupAlone p e ∧ ChargeCovered p e) p) :
    (∀ uid, d.consumes P p.shared.repos uid ≤ d.consumes P w₀.repos uid + 1) ∧
      d.archived P p.shared.repos rideNo ≤ d.archived P w₀.repos rideNo + 1 := by
  have hcourse : ∀ i, KeepsTo (· = rideNo) (.endRide (some { reqs i with rideNo })) _
      (endRide P (some { reqs i with rideNo })) := fun i => endRide_course P _ rfl
  have hinv : OnceInv rideNo w₀ p.shared p.phase := by
    refine Pool.invariant (fun i => (hcourse i).obeys) (fun w hw => ?_) ?_ h
    · subst hw
      have hunt : Untouched rideNo w w := ⟨fun _ => le_refl _, le_refl _⟩
      exact
        { alone := ⟨fun _ => rfl, fun _ _ hi _ => absurd rfl hi, fun _ _ hi => by cases hi⟩
          paid := fun _ => Nat.le_succ _
          kept := Nat.le_succ _
          free := fun _ _ => hunt
          held := fun _ _ _ => hunt
          unkept := fun _ _ _ => hunt.2 }
    · intro p e c k r w hI hok hc hallowed hexec
      have hstep := hI.step hok.1 hok.2 hc hallowed
      rw [Option.some.inj hexec] at hstep
      exact hstep
  exact ⟨hinv.paid, hinv.kept⟩

end Once

/-! ## Two ends of one ride -/

/-- Two presses of the same button. -/
def twoEnds (balance : Int32) :
    Machine (Pool (World Platform.standstill .production) (Fin 2) Call Call.Res
      (Outcome EndRideResponse) RidePhase) (Turn (Fin 2) Env) :=
  endRides Platform.standstill .production "R19700101000101"
    (fun _ => ⟨"token", "", .fin 0, .fin 0⟩) (World.riding balance)

def twoEndsStart (balance : Int32) : Pool (World Platform.standstill .production) (Fin 2) Call
    Call.Res (Outcome EndRideResponse) RidePhase :=
  ⟨World.riding balance, fun _ => endRide .standstill (some ⟨"token", "R19700101000101", .fin 0, .fin 0⟩),
    fun _ => .entering⟩

/-- Turns of the two executions, all at one instant. -/
def turns (now : Nat) (l : List (Fin 2)) : List (Turn (Fin 2) Env) := l.map (⟨·, .calm now⟩)

instance (p : Pool (World P d) (Fin 2) Call Call.Res (Outcome EndRideResponse) RidePhase)
    (e : Turn (Fin 2) Env) : Decidable (LookupAlone p e) := by
  unfold LookupAlone
  split <;> infer_instance

instance (p : Pool (World P d) (Fin 2) Call Call.Res (Outcome EndRideResponse) RidePhase)
    (e : Turn (Fin 2) Env) : Decidable (ChargeCovered p e) := by
  unfold ChargeCovered
  split <;> infer_instance

/-- One end after the other: the second is answered from the archive, and the
payment of the first is the only one. -/
theorem charged_once_in_turn :
    ∃ p, (twoEnds 1000).ReachableWhile (fun p e => LookupAlone p e ∧ ChargeCovered p e) p ∧
      Deployment.production.consumes _ p.shared.repos 1 = 1 ∧
      Deployment.production.archived _ p.shared.repos "R19700101000101" = 1 ∧
      (∀ uid, Deployment.production.consumes _ p.shared.repos uid ≤
        Deployment.production.consumes _ (World.riding 1000).repos uid + 1) ∧
      Deployment.production.archived _ p.shared.repos "R19700101000101" ≤
        Deployment.production.archived _ (World.riding 1000).repos "R19700101000101" + 1 := by
  obtain ⟨p, hreach, hpaid, harchived⟩ : ∃ p, (twoEnds 1000).ReachableWhile
      (fun p e => LookupAlone p e ∧ ChargeCovered p e) p ∧
      Deployment.production.consumes _ p.shared.repos 1 = 1 ∧
      Deployment.production.archived _ p.shared.repos "R19700101000101" = 1 :=
    Machine.exists_of_playWhile (fun _ _ => of_decide_eq_true) (twoEndsStart 1000) ⟨rfl, rfl, rfl⟩
      (turns 200 (List.replicate 9 0 ++ List.replicate 5 1)) (by decide +kernel)
  exact ⟨p, hreach, hpaid, harchived, charged_once _ _ _ hreach⟩

/-- Both executions find the session before either removes it: both are paid. -/
theorem charged_twice :
    ∃ p, (twoEnds 1000).Reachable p ∧
      Deployment.production.consumes _ (World.riding 1000).repos 1 = 0 ∧
      Deployment.production.consumes _ p.shared.repos 1 = 2 :=
  Machine.exists_of_play (twoEndsStart 1000) ⟨rfl, rfl, rfl⟩
    (turns 200 [0, 0, 0, 1, 1, 1, 0, 0, 1, 1]) (by decide +kernel)

end SharedBike.Server
