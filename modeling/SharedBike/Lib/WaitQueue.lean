import Mathlib.Logic.Function.Basic
import Mathlib.Algebra.BigOperators.Group.Finset.Basic
import Mathlib.Algebra.BigOperators.Group.Finset.Piecewise
import Mathlib.Data.Fintype.Basic

/-!
# Queues that are waited for

A queue behind a mutex, with takers that wait for it on a condition variable. A
push locks, appends and unlocks, and signals afterwards, as a step of its own. A
taker locks and looks: it takes the first item, or it goes to sleep, which gives
the lock back in the same instant. So what happens under the lock is one step,
and a push and its signal are two.

A signal wakes one sleeper, whichever, and is lost when nobody sleeps. A sleeper
may also wake for no reason. Whoever wakes looks again, and may find that another
taker was faster.

`Covered` is the law that makes this right: while anybody sleeps, every item has a
signal that is still owed or a taker that is awake for it. It counts, since one
signal stands for one item; that somebody is awake would not be enough. A queue can be
closed, for takers that are to leave once it is empty.
-/

namespace SharedBike.Lib

open Function

/-- A sum over all parties when one of them has moved. -/
theorem sum_update {ι β M : Type} [Fintype ι] [DecidableEq ι] [AddCommMonoid M] (g : β → M)
    (f : ι → β) (i : ι) (b : β) :
    (∑ j, g (update f i b j)) + g (f i) = (∑ j, g (f j)) + g b := by
  have hcomp : (fun j => g (update f i b j)) = update (g ∘ f) i (g b) :=
    comp_update g f i b
  rw [hcomp, Finset.sum_update_of_mem (Finset.mem_univ i), add_right_comm, add_comm (g b),
    Finset.sum_eq_add_sum_sdiff_singleton_of_mem (Finset.mem_univ i), add_right_comm]
  rfl

/-- Where a taker stands. -/
inductive Taker where
  /-- it does not want anything -/
  | away
  /-- it is about to lock and look -/
  | awake
  | asleep
  deriving DecidableEq

/-- What a taker finds when it looks. -/
inductive Look (α : Type) where
  | sleep
  | take (a : α)
  | leave

structure WaitQueue (ι α : Type) where
  items : List α
  closed : Bool
  takers : ι → Taker
  /-- how many pushes have still to signal -/
  owed : Nat

namespace WaitQueue

variable {ι α : Type}

/-- A queue with all takers at its door. -/
def opened (items : List α) : WaitQueue ι α := ⟨items, false, fun _ => .awake, 0⟩

def setTaker [DecidableEq ι] (q : WaitQueue ι α) (i : ι) (t : Taker) : WaitQueue ι α :=
  { q with takers := update q.takers i t }

/-- Lock, append, unlock. -/
def push (q : WaitQueue ι α) (a : α) : WaitQueue ι α :=
  { q with items := q.items ++ [a], owed := q.owed + 1 }

/-- Whom a signal can wake: one sleeper, or nobody when nobody sleeps. -/
def NotifyOk (q : WaitQueue ι α) : Option ι → Prop
  | some i => q.takers i = .asleep
  | none => ∀ i, q.takers i ≠ .asleep

instance [Fintype ι] (q : WaitQueue ι α) : (woken : Option ι) → Decidable (q.NotifyOk woken)
  | some i => inferInstanceAs (Decidable (q.takers i = .asleep))
  | none => inferInstanceAs (Decidable (∀ i, q.takers i ≠ .asleep))

def notifyOne [DecidableEq ι] (q : WaitQueue ι α) (woken : Option ι) : WaitQueue ι α :=
  match woken with
  | some i => { q.setTaker i .awake with owed := q.owed - 1 }
  | none => { q with owed := q.owed - 1 }

/-- Every sleeper wakes. -/
def notifyAll (q : WaitQueue ι α) : WaitQueue ι α :=
  { q with takers := fun i => if q.takers i = .asleep then .awake else q.takers i }

def close (q : WaitQueue ι α) : WaitQueue ι α := { q with closed := true }

/-- What the predicate of the wait and the code behind it make of the queue. -/
def seen (q : WaitQueue ι α) : Look α :=
  match q.items, q.closed with
  | a :: _, _ => .take a
  | [], true => .leave
  | [], false => .sleep

/-- Lock and look. -/
def look [DecidableEq ι] (q : WaitQueue ι α) (i : ι) : WaitQueue ι α :=
  match q.seen with
  | .sleep => q.setTaker i .asleep
  | .take _ => { q.setTaker i .away with items := q.items.tail }
  | .leave => q.setTaker i .away

/-! ## What a look can come to -/

theorem setTaker_self [DecidableEq ι] (q : WaitQueue ι α) (i : ι) (t : Taker) :
    (q.setTaker i t).takers i = t := by
  simp only [setTaker, update_self]

theorem setTaker_of_ne [DecidableEq ι] (q : WaitQueue ι α) {i j : ι} (t : Taker) (h : j ≠ i) :
    (q.setTaker i t).takers j = q.takers j := by
  simp only [setTaker, update_of_ne h]

theorem seen_cases (q : WaitQueue ι α) :
    (q.items = [] ∧ q.closed = false ∧ q.seen = .sleep) ∨
      (∃ a rest, q.items = a :: rest ∧ q.seen = .take a) ∨
      (q.items = [] ∧ q.closed = true ∧ q.seen = .leave) := by
  unfold seen
  cases hitems : q.items with
  | cons a rest => exact .inr (.inl ⟨a, rest, rfl, rfl⟩)
  | nil =>
    cases hclosed : q.closed with
    | true => exact .inr (.inr ⟨rfl, rfl, rfl⟩)
    | false => exact .inl ⟨rfl, rfl, rfl⟩

/-! ## Every item has somebody to come for it -/

section Counting

variable [Fintype ι] {q : WaitQueue ι α}

/-- How many takers are awake. -/
def awake (q : WaitQueue ι α) : Nat := ∑ i, if q.takers i = .awake then 1 else 0

/-- While anybody sleeps, the signals that are owed and the takers that are awake
are enough for the items. -/
def Covered (q : WaitQueue ι α) : Prop :=
  (∃ i, q.takers i = .asleep) → q.items.length ≤ q.owed + q.awake

theorem awake_setTaker [DecidableEq ι] (q : WaitQueue ι α) (i : ι) (t : Taker) :
    (q.setTaker i t).awake + (if q.takers i = .awake then 1 else 0) =
      q.awake + (if t = .awake then 1 else 0) :=
  sum_update (fun t : Taker => if t = .awake then 1 else 0) q.takers i t

omit [Fintype ι] in
theorem asleep_of_setTaker [DecidableEq ι] {i : ι} {t : Taker} (ht : t ≠ .asleep)
    (h : ∃ j, (q.setTaker i t).takers j = .asleep) : ∃ j, q.takers j = .asleep := by
  obtain ⟨j, hj⟩ := h
  by_cases hji : j = i
  · rw [hji, setTaker_self] at hj
    exact absurd hj ht
  · rw [setTaker_of_ne q t hji] at hj
    exact ⟨j, hj⟩

theorem covered_opened (items : List α) : (opened items : WaitQueue ι α).Covered := by
  intro h
  obtain ⟨i, hi⟩ := h
  cases hi

namespace Covered

theorem push (h : q.Covered) (a : α) : (q.push a).Covered := by
  intro hasleep
  have hle := h hasleep
  show (q.items ++ [a]).length ≤ q.owed + 1 + q.awake
  rw [List.length_append, List.length_singleton]
  omega

/-- A signal that wakes somebody is replaced by the taker it woke, and one that
wakes nobody is not needed. -/
theorem notifyOne [DecidableEq ι] (h : q.Covered) {woken : Option ι} (hok : q.NotifyOk woken) :
    (q.notifyOne woken).Covered := by
  intro hasleep
  cases woken with
  | none =>
    obtain ⟨i, hi⟩ := hasleep
    exact absurd hi (hok i)
  | some i =>
    have hawake := awake_setTaker q i .awake
    rw [if_pos rfl, if_neg (by rw [show q.takers i = .asleep from hok]; decide)] at hawake
    have hle := h (asleep_of_setTaker (by decide) hasleep)
    show q.items.length ≤ q.owed - 1 + (q.setTaker i .awake).awake
    omega

/-- A taker comes to the door, or wakes for no reason. -/
theorem wake [DecidableEq ι] (h : q.Covered) (i : ι) : (q.setTaker i .awake).Covered := by
  intro hasleep
  have hawake := awake_setTaker q i .awake
  have hle := h (asleep_of_setTaker (by decide) hasleep)
  show q.items.length ≤ q.owed + (q.setTaker i .awake).awake
  rw [if_pos rfl] at hawake
  split at hawake <;> omega

/-- Whoever goes to sleep has seen an empty queue, and whoever takes an item is
no longer awake for another. -/
theorem look [DecidableEq ι] (h : q.Covered) {i : ι} (hi : q.takers i = .awake) :
    (q.look i).Covered := by
  intro hasleep
  unfold WaitQueue.look at hasleep ⊢
  rcases seen_cases q with ⟨hitems, -, hseen⟩ | ⟨a, rest, hitems, hseen⟩ | ⟨hitems, -, hseen⟩ <;>
    rw [hseen] at hasleep ⊢
  · show q.items.length ≤ _
    rw [hitems]
    exact Nat.zero_le _
  · have hawake := awake_setTaker q i .away
    rw [if_pos hi, if_neg (by decide)] at hawake
    have hle := h (asleep_of_setTaker (by decide) hasleep)
    rw [hitems] at hle
    show q.items.tail.length ≤ q.owed + (q.setTaker i .away).awake
    rw [hitems]
    simp only [List.tail_cons, List.length_cons] at hle ⊢
    omega
  · show q.items.length ≤ _
    rw [hitems]
    exact Nat.zero_le _

theorem close (h : q.Covered) : q.close.Covered := h

theorem notifyAll (q : WaitQueue ι α) : q.notifyAll.Covered := by
  intro hasleep
  obtain ⟨i, hi⟩ := hasleep
  simp only [WaitQueue.notifyAll] at hi
  split at hi
  · cases hi
  · exact absurd hi ‹_›

end Covered

/-- **No item waits behind sleepers.** When nobody is awake and no signal is owed,
somebody sleeps over an empty queue only. -/
theorem Covered.idle (h : q.Covered) (howed : q.owed = 0) (hawake : ∀ i, q.takers i ≠ .awake)
    {i : ι} (hi : q.takers i = .asleep) : q.items = [] := by
  have hzero : q.awake = 0 := by
    apply Finset.sum_eq_zero
    intro j _
    rw [if_neg (hawake j)]
  have hle := h ⟨i, hi⟩
  rw [howed, hzero] at hle
  exact List.length_eq_zero_iff.mp (Nat.le_zero.mp hle)

end Counting

end WaitQueue

end SharedBike.Lib
