import SharedBike.Lib.Machine
import SharedBike.Lib.WaitQueue
import Mathlib.Data.Multiset.AddSub
import Mathlib.Data.Fintype.Basic

/-!
# The thread pool

`server/util/thread_pool.hpp`: the gateway's workers and the business threads of
Dispatch. `post` puts a task into a queue under a mutex and signals a condition
variable; each thread takes a task, runs it and comes back, whether the task
returned or threw. The destructor sets `stop_`, wakes everybody and joins the
threads, and a thread leaves when it sees `stop_` and an empty queue.

Nobody may call `post` on an object that is being destroyed, so `post` is enabled
before the destructor only. What each thread has been given and done is history,
which no branch reads: `posted`, `started` and `finished`.

The pool runs every task once and starts them in the order they were posted
(`tasks_run_once`), it does not let a task wait while a thread sleeps
(`no_task_behind_sleeper`), and its destructor comes to an end when the tasks do
(`teardown_ends`). All three need nothing of the tasks.
-/

namespace SharedBike.Server

open SharedBike.Lib Function

/-- What a thread of the pool is doing. -/
inductive Work (τ : Type) where
  /-- it is at the queue -/
  | idle
  | running (task : τ)
  | exited
  deriving DecidableEq

def Work.hasExited {τ : Type} : Work τ → Bool
  | .exited => true
  | _ => false

theorem Work.eq_exited {τ : Type} {w : Work τ} (h : w.hasExited) : w = .exited := by
  cases w with
  | exited => rfl
  | _ => cases h

/-- How far the destructor has come. -/
inductive Teardown where
  | none
  /-- `stop_` is set -/
  | stopped
  /-- after `notify_all` -/
  | joining
  | done
  deriving DecidableEq

structure ThreadPool (n : Nat) (τ : Type) where
  /-- `q_`, `stop_` and the threads that wait on `cv_` -/
  queue : WaitQueue (Fin n) τ
  work : Fin n → Work τ
  teardown : Teardown
  posted : List τ
  started : List τ
  finished : List τ

inductive PoolEvent (n : Nat) (τ : Type) where
  | post (task : τ)
  /-- the signal of a `post`, with the thread it wakes -/
  | notifyOne (woken : Option (Fin n))
  /-- a thread locks, tests the predicate of its wait and acts on it -/
  | look (i : Fin n)
  /-- a task returns or throws -/
  | finish (i : Fin n) (threw : Bool)
  | spurious (i : Fin n)
  | setStop
  | notifyAll
  | joined

namespace ThreadPool

variable {n : Nat} {τ : Type}

def setWork (s : ThreadPool n τ) (i : Fin n) (w : Work τ) : ThreadPool n τ :=
  { s with work := update s.work i w }

/-- The body of a thread's loop, from the lock to the task. -/
def look (s : ThreadPool n τ) (i : Fin n) : ThreadPool n τ :=
  match s.queue.seen with
  | .sleep => { s with queue := s.queue.look i }
  | .take task =>
    { s.setWork i (.running task) with
      queue := s.queue.look i, started := s.started ++ [task] }
  | .leave => { s.setWork i .exited with queue := s.queue.look i }

def next (s : ThreadPool n τ) : PoolEvent n τ → Option (ThreadPool n τ)
  | .post task =>
    if s.teardown = .none then
      some { s with queue := s.queue.push task, posted := s.posted ++ [task] }
    else none
  | .notifyOne woken =>
    if 0 < s.queue.owed ∧ s.queue.NotifyOk woken then
      some { s with queue := s.queue.notifyOne woken }
    else none
  | .look i => if s.queue.takers i = .awake then some (s.look i) else none
  | .finish i _threw =>
    match s.work i with
    -- both catch clauses log and fall through to the next round of the loop
    | .running task =>
      some { s.setWork i .idle with
        queue := s.queue.setTaker i .awake, finished := s.finished ++ [task] }
    | _ => none
  | .spurious i =>
    if s.queue.takers i = .asleep then some { s with queue := s.queue.setTaker i .awake }
    else none
  | .setStop =>
    -- no call of `post` is on its way when the object's lifetime ends
    if s.teardown = .none ∧ s.queue.owed = 0 then
      some { s with queue := s.queue.close, teardown := .stopped }
    else none
  | .notifyAll =>
    if s.teardown = .stopped then
      some { s with queue := s.queue.notifyAll, teardown := .joining }
    else none
  | .joined =>
    if s.teardown = .joining ∧ ∀ i, (s.work i).hasExited then
      some { s with teardown := .done }
    else none

/-- A pool that was just constructed. -/
def fresh (n : Nat) (τ : Type) : ThreadPool n τ :=
  ⟨WaitQueue.opened [], fun _ => .idle, .none, [], [], []⟩

def machine (n : Nat) (τ : Type) : Machine (ThreadPool n τ) (PoolEvent n τ) where
  init s := s = fresh n τ
  next := next

/-! ## What holds throughout -/

end ThreadPool

/-- The task that a thread is at. -/
def Work.tasks {τ : Type} : Work τ → Multiset τ
  | .running task => {task}
  | _ => 0

namespace ThreadPool

variable {n : Nat} {τ : Type} {s t : ThreadPool n τ}

/-- The books of the pool: what was posted has been started or is queued, in that
order, and what was started is finished or on one thread. -/
structure Inv (s : ThreadPool n τ) : Prop where
  covered : s.queue.Covered
  order : s.posted = s.started ++ s.queue.items
  once : (s.started : Multiset τ) = s.finished + ∑ i, (s.work i).tasks
  away_iff : ∀ i, s.queue.takers i = .away ↔ s.work i ≠ .idle
  closed_iff : s.queue.closed = true ↔ s.teardown ≠ .none
  quiet : s.teardown ≠ .none → s.queue.owed = 0
  emptied : ∀ i, s.work i = .exited → s.queue.closed = true ∧ s.queue.items = []
  roused : s.teardown = .joining ∨ s.teardown = .done → ∀ i, s.queue.takers i ≠ .asleep
  left : s.teardown = .done → ∀ i, (s.work i).hasExited

namespace Inv

theorem fresh : Inv (fresh n τ) where
  covered := WaitQueue.covered_opened []
  order := rfl
  once := by
    show (0 : Multiset τ) = 0 + ∑ _i : Fin n, 0
    rw [Finset.sum_const_zero, add_zero]
  away_iff i := by
    show Taker.awake = .away ↔ Work.idle ≠ (Work.idle : Work τ)
    simp
  closed_iff := by
    show false = true ↔ Teardown.none ≠ .none
    simp
  quiet h := absurd rfl h
  emptied i h := by cases h
  roused h := by rcases h with h | h <;> cases h
  left h := by cases h

/-- The tasks at hand when one thread has turned to something else. -/
theorem tasks_setWork (s : ThreadPool n τ) (i : Fin n) (w : Work τ) :
    (∑ j, ((s.setWork i w).work j).tasks) + (s.work i).tasks =
      (∑ j, (s.work j).tasks) + w.tasks :=
  sum_update Work.tasks s.work i w

theorem post (h : Inv s) (hnone : s.teardown = .none) (task : τ) :
    Inv { s with queue := s.queue.push task, posted := s.posted ++ [task] } :=
  { h with
    covered := h.covered.push task
    order := by
      show s.posted ++ [task] = s.started ++ (s.queue.items ++ [task])
      rw [h.order, List.append_assoc]
    quiet := fun hne => absurd hnone hne
    emptied := fun i hi => absurd hnone (h.closed_iff.mp (h.emptied i hi).1) }

/-- A thread is away from the queue exactly when it has something else to do, also
after it has moved. -/
theorem away_update (h : Inv s) (i : Fin n) {taker : Taker} {w : Work τ}
    (hw : taker = .away ↔ w ≠ .idle) (j : Fin n) :
    update s.queue.takers i taker j = .away ↔ update s.work i w j ≠ .idle := by
  by_cases hj : j = i
  · subst hj
    rw [update_self, update_self]
    exact hw
  · rw [update_of_ne hj, update_of_ne hj]
    exact h.away_iff j

theorem roused_update (h : Inv s) (i : Fin n) {taker : Taker} (htaker : taker ≠ .asleep)
    (hdown : s.teardown = .joining ∨ s.teardown = .done) (j : Fin n) :
    update s.queue.takers i taker j ≠ .asleep := by
  by_cases hj : j = i
  · subst hj
    rw [update_self]
    exact htaker
  · rw [update_of_ne hj]
    exact h.roused hdown j

/-- A sleeper is woken, by a signal or for no reason. -/
theorem wake (h : Inv s) {i : Fin n} (hi : s.queue.takers i = .asleep) {owed : Nat}
    (hcovered : ({ s.queue.setTaker i .awake with owed } : WaitQueue (Fin n) τ).Covered)
    (howed : s.teardown ≠ .none → owed = 0) :
    Inv { s with queue := { s.queue.setTaker i .awake with owed } } := by
  have hidle : Taker.awake = .away ↔ s.work i ≠ .idle := by
    rw [← h.away_iff i, hi]
    simp
  have haway := h.away_update i hidle
  rw [update_eq_self] at haway
  exact { h with
    covered := hcovered
    away_iff := haway
    quiet := howed
    roused := h.roused_update i (by decide) }

theorem notifyOne (h : Inv s) {woken : Option (Fin n)} (hok : s.queue.NotifyOk woken) :
    Inv { s with queue := s.queue.notifyOne woken } := by
  have hquiet : s.teardown ≠ .none → s.queue.owed - 1 = 0 := by
    intro hne
    rw [h.quiet hne]
  cases woken with
  | none => exact { h with covered := h.covered.notifyOne hok, quiet := hquiet }
  | some i => exact h.wake hok (h.covered.notifyOne hok) hquiet

/-- A thread that is at the queue has no task and has not left. -/
theorem idle_of_awake (h : Inv s) {i : Fin n} (hi : s.queue.takers i = .awake) :
    s.work i = .idle := by
  by_contra hne
  have haway := (h.away_iff i).mpr hne
  rw [hi] at haway
  cases haway

/-- A thread that is awake has not left, so the destructor has not returned. -/
theorem not_done (h : Inv s) {i : Fin n} (hi : s.work i ≠ .exited) : s.teardown ≠ .done :=
  fun hdone => hi (Work.eq_exited (h.left hdone i))

theorem emptied_update {i : Fin n} {w : Work τ} {closed : Bool} {items : List τ}
    (h : ∀ j, s.work j = .exited → closed = true ∧ items = [])
    (hw : w = .exited → closed = true ∧ items = []) (j : Fin n)
    (hj : update s.work i w j = .exited) : closed = true ∧ items = [] := by
  by_cases hji : j = i
  · subst hji
    rw [update_self] at hj
    exact hw hj
  · rw [update_of_ne hji] at hj
    exact h j hj

/-- The three outcomes of a look: the thread sleeps, takes the first task or
leaves. -/
theorem look (h : Inv s) {i : Fin n} (hi : s.queue.takers i = .awake) : Inv (s.look i) := by
  have hcovered := h.covered.look hi
  have hidle := h.idle_of_awake hi
  have hdone : s.teardown ≠ .done := h.not_done (by rw [hidle]; simp)
  have htasks : (s.work i).tasks = 0 := by rw [hidle]; rfl
  unfold ThreadPool.look
  unfold WaitQueue.look at hcovered ⊢
  rcases s.queue.seen_cases with ⟨hitems, hopen, hseen⟩ | ⟨task, rest, hitems, hseen⟩ |
    ⟨hitems, hclosed, hseen⟩ <;> rw [hseen] at hcovered ⊢
  · -- nobody goes to sleep once `stop_` is set
    have hnone : s.teardown = .none := by
      by_contra hne
      rw [h.closed_iff.mpr hne] at hopen
      cases hopen
    have hasleep : Taker.asleep = .away ↔ s.work i ≠ .idle := by
      rw [hidle]
      simp
    have haway := h.away_update i hasleep
    rw [update_eq_self] at haway
    refine { h with covered := hcovered, away_iff := haway, roused := ?_ }
    intro hdown
    rw [hnone] at hdown
    rcases hdown with hdown | hdown <;> cases hdown
  · have hwork := tasks_setWork s i (.running task)
    rw [htasks, add_zero] at hwork
    refine
      { h with
        covered := hcovered
        order := ?_
        once := ?_
        away_iff := h.away_update i (by simp)
        emptied := ?_
        roused := h.roused_update i (by decide)
        left := fun hdown => absurd hdown hdone }
    · show s.posted = (s.started ++ [task]) ++ s.queue.items.tail
      rw [h.order, hitems, List.append_assoc]
      rfl
    · show ((s.started ++ [task] : List τ) : Multiset τ) =
        s.finished + ∑ j, ((s.setWork i (.running task)).work j).tasks
      rw [← Multiset.coe_add, h.once, hwork, add_assoc]
      rfl
    · apply emptied_update
      · intro j hj
        rw [(h.emptied j hj).2] at hitems
        cases hitems
      · intro hw
        cases hw
  · have hwork := tasks_setWork s i .exited
    rw [htasks, add_zero] at hwork
    refine
      { h with
        covered := hcovered
        once := ?_
        away_iff := h.away_update i (by simp)
        emptied := emptied_update h.emptied fun _ => ⟨hclosed, hitems⟩
        roused := h.roused_update i (by decide)
        left := fun hdown => absurd hdown hdone }
    show (s.started : Multiset τ) = s.finished + ∑ j, ((s.setWork i .exited).work j).tasks
    rw [hwork, h.once]
    exact congrArg _ (add_zero _).symm

theorem finish (h : Inv s) {i : Fin n} {task : τ} (hi : s.work i = .running task) :
    Inv { s.setWork i .idle with
      queue := s.queue.setTaker i .awake, finished := s.finished ++ [task] } :=
  { h with
    covered := h.covered.wake i
    once := by
      have hwork := tasks_setWork s i .idle
      rw [hi] at hwork
      show (s.started : Multiset τ) = ((s.finished ++ [task] : List τ) : Multiset τ) +
        ∑ j, ((s.setWork i .idle).work j).tasks
      rw [h.once, ← Multiset.coe_add, add_assoc, add_comm ([task] : Multiset τ)]
      exact congrArg _ (hwork.trans (add_zero _)).symm
    away_iff := h.away_update i (by simp)
    emptied := emptied_update h.emptied fun hw => by cases hw
    roused := h.roused_update i (by decide)
    left := fun hdown => absurd hdown (h.not_done (i := i) (by rw [hi]; simp)) }

theorem setStop (h : Inv s) (howed : s.queue.owed = 0) :
    Inv { s with queue := s.queue.close, teardown := .stopped } :=
  { h with
    covered := h.covered.close
    closed_iff := by
      show true = true ↔ Teardown.stopped ≠ .none
      simp
    quiet := fun _ => howed
    emptied := fun i hi => ⟨rfl, (h.emptied i hi).2⟩
    roused := fun hdown => by rcases hdown with hdown | hdown <;> cases hdown
    left := nofun }

theorem notifyAll (h : Inv s) (hstopped : s.teardown = .stopped) :
    Inv { s with queue := s.queue.notifyAll, teardown := .joining } :=
  { h with
    covered := WaitQueue.Covered.notifyAll s.queue
    away_iff := fun i => by
      show (if s.queue.takers i = .asleep then Taker.awake else s.queue.takers i) = .away ↔ _
      rw [← h.away_iff i]
      split
      next hi => rw [hi]; simp
      next => rfl
    closed_iff := by
      have hclosed := h.closed_iff.mpr (by rw [hstopped]; decide)
      show s.queue.closed = true ↔ Teardown.joining ≠ .none
      simp [hclosed]
    quiet := fun _ => h.quiet (by rw [hstopped]; decide)
    roused := fun _ i => by
      show (if s.queue.takers i = .asleep then Taker.awake else s.queue.takers i) ≠ .asleep
      split
      · decide
      · assumption
    left := nofun }

theorem joined (h : Inv s) (hjoining : s.teardown = .joining)
    (hexited : ∀ i, (s.work i).hasExited) : Inv { s with teardown := .done } :=
  { h with
    closed_iff := by
      have hclosed := h.closed_iff.mpr (by rw [hjoining]; decide)
      show s.queue.closed = true ↔ Teardown.done ≠ .none
      simp [hclosed]
    quiet := fun _ => h.quiet (by rw [hjoining]; decide)
    roused := fun _ => h.roused (.inl hjoining)
    left := fun _ => hexited }

/-- Every step keeps the books. -/
theorem step (h : Inv s) {e : PoolEvent n τ} (hs : s.next e = some t) : Inv t := by
  cases e with
  | post task =>
    obtain ⟨hnone, ⟨⟩⟩ := Option.ite_none_right_eq_some.mp hs
    exact h.post hnone task
  | notifyOne woken =>
    obtain ⟨⟨-, hok⟩, ⟨⟩⟩ := Option.ite_none_right_eq_some.mp hs
    exact h.notifyOne hok
  | look i =>
    obtain ⟨hi, ⟨⟩⟩ := Option.ite_none_right_eq_some.mp hs
    exact h.look hi
  | finish i threw =>
    simp only [ThreadPool.next] at hs
    split at hs
    next task hi =>
      cases hs
      exact h.finish hi
    next => cases hs
  | spurious i =>
    obtain ⟨hi, ⟨⟩⟩ := Option.ite_none_right_eq_some.mp hs
    exact h.wake hi (h.covered.wake i) h.quiet
  | setStop =>
    obtain ⟨⟨-, howed⟩, ⟨⟩⟩ := Option.ite_none_right_eq_some.mp hs
    exact h.setStop howed
  | notifyAll =>
    obtain ⟨hstopped, ⟨⟩⟩ := Option.ite_none_right_eq_some.mp hs
    exact h.notifyAll hstopped
  | joined =>
    obtain ⟨⟨hjoining, hexited⟩, ⟨⟩⟩ := Option.ite_none_right_eq_some.mp hs
    exact h.joined hjoining hexited

theorem reachable (h : (machine n τ).Reachable s) : Inv s := by
  apply Machine.invariant _ (fun s e t hI _ hs => hI.step hs) h
  intro s hs
  rw [hs]
  exact .fresh

end Inv

/-! ## Every task runs once -/

/-- Threads that have all left are at no task. -/
theorem tasks_of_exited (h : ∀ i, (s.work i).hasExited) : ∑ i, (s.work i).tasks = 0 := by
  apply Finset.sum_eq_zero
  intro i _
  rw [Work.eq_exited (h i)]
  rfl

/-- When the destructor has returned, nothing is left to do. -/
theorem Inv.all_finished (h : Inv s) (hn : 0 < n) (hdone : s.teardown = .done) :
    s.started = s.posted ∧ s.finished.Perm s.posted := by
  have hexited := h.left hdone
  -- the first thread has left, and it left an empty queue
  have hempty : s.queue.items = [] :=
    (h.emptied ⟨0, hn⟩ (Work.eq_exited (hexited ⟨0, hn⟩))).2
  have hall : s.started = s.posted := by
    rw [h.order, hempty, List.append_nil]
  refine ⟨hall, ?_⟩
  have honce := h.once
  rw [tasks_of_exited hexited, add_zero, hall] at honce
  exact (Multiset.coe_eq_coe.mp honce).symm

/-- **Every task runs once.** At any moment the tasks that were started are the
first ones that were posted, and each is finished or with exactly one thread.
When the destructor of a pool with at least one thread has returned, all were
started, in order, and all are finished. -/
theorem tasks_run_once (hn : 0 < n) (h : (machine n τ).Reachable s) :
    s.started <+: s.posted ∧
      (s.started : Multiset τ) = s.finished + ∑ i, (s.work i).tasks ∧
      (s.teardown = .done → s.started = s.posted ∧ s.finished.Perm s.posted) := by
  have hI := Inv.reachable h
  exact ⟨⟨s.queue.items, hI.order.symm⟩, hI.once, hI.all_finished hn⟩

/-- One thread, two tasks, the second of which throws. -/
def twoTasks (i : Fin 1) : List (PoolEvent 1 Nat) :=
  [.look i, .post 7, .notifyOne (some i), .look i, .post 8, .notifyOne none, .finish i false,
    .setStop, .notifyAll, .look i, .finish i true, .look i, .joined]

theorem tasks_run_once_twoTasks :
    ∃ s, (machine 1 Nat).play (fresh 1 Nat) (twoTasks 0) = some s ∧ s.teardown = .done ∧
      s.started = [7, 8] ∧ s.finished.Perm [7, 8] := by
  obtain ⟨s, hs, hdone, hposted⟩ : ∃ s ∈ (machine 1 Nat).play (fresh 1 Nat) (twoTasks 0),
      s.teardown = .done ∧ s.posted = [7, 8] := by decide
  have hall := (tasks_run_once (by decide) (Machine.reachable_of_play (.start rfl) hs)).2.2 hdone
  rw [hposted] at hall
  exact ⟨s, hs, hdone, hall⟩

/-! ## No task waits while a thread sleeps -/

/-- **A thread sleeps over an empty queue only.** While a thread sleeps, there are no
more tasks in the queue than calls of `post` that have still to signal and
threads that are on their way to look; so when every thread sleeps or is at a
task, and nobody is in `post`, nothing is queued. -/
theorem no_task_behind_sleeper (h : (machine n τ).Reachable s) {i : Fin n}
    (hi : s.queue.takers i = .asleep) :
    s.queue.items.length ≤ s.queue.owed + s.queue.awake ∧
      (s.queue.owed = 0 → (∀ j, s.queue.takers j = .asleep ∨ ∃ task, s.work j = .running task) →
        s.queue.items = []) := by
  have hI := Inv.reachable h
  refine ⟨hI.covered ⟨i, hi⟩, ?_⟩
  intro howed hbusy
  apply hI.covered.idle howed _ hi
  intro j hj
  rcases hbusy j with hasleep | ⟨task, htask⟩
  · rw [hj] at hasleep
    cases hasleep
  · rw [hI.idle_of_awake hj] at htask
    cases htask

/-- Two threads, one asleep and one at the only task. -/
def oneTask (i j : Fin 2) : List (PoolEvent 2 Nat) :=
  [.look i, .look j, .post 7, .notifyOne (some j), .look j]

theorem no_task_behind_sleeper_oneTask :
    ∃ s, (machine 2 Nat).play (fresh 2 Nat) (oneTask 0 1) = some s ∧ s.queue.takers 0 = .asleep ∧
      s.work 1 = .running 7 ∧ s.queue.items = [] := by
  obtain ⟨s, hs, hasleep, hrunning, howed⟩ : ∃ s ∈ (machine 2 Nat).play (fresh 2 Nat) (oneTask 0 1),
      s.queue.takers 0 = .asleep ∧ s.work 1 = .running 7 ∧ s.queue.owed = 0 := by decide
  refine ⟨s, hs, hasleep, hrunning, ?_⟩
  apply (no_task_behind_sleeper (Machine.reachable_of_play (.start rfl) hs) hasleep).2 howed
  intro j
  match j with
  | 0 => exact .inl hasleep
  | 1 => exact .inr ⟨7, hrunning⟩

/-! ## The destructor returns -/

end ThreadPool

/-- Everything but a wakeup for no reason. -/
def PoolEvent.productive {n : Nat} {τ : Type} : PoolEvent n τ → Bool
  | .spurious _ => false
  | _ => true

/-- The steps that a thread has still to make on its own account. -/
def Work.left {τ : Type} : Work τ → Nat
  | .idle => 1
  | .running _ => 2
  | .exited => 0

def Teardown.left : Teardown → Nat
  | .none => 3
  | .stopped => 2
  | .joining => 1
  | .done => 0

namespace ThreadPool

variable {n : Nat} {τ : Type} {s t : ThreadPool n τ}

/-- A bound on the steps until the destructor returns: each queued task is taken
and finished, each thread finishes its task and leaves. -/
def left (s : ThreadPool n τ) : Nat :=
  s.teardown.left + 2 * s.queue.items.length + ∑ i, (s.work i).left

theorem left_setWork (s : ThreadPool n τ) (i : Fin n) (w : Work τ) :
    (∑ j, ((s.setWork i w).work j).left) + (s.work i).left = (∑ j, (s.work j).left) + w.left :=
  sum_update Work.left s.work i w

/-- A look in the destructor's time takes a task or leaves. -/
theorem left_look (h : Inv s) (hdown : s.teardown ≠ .none) {i : Fin n}
    (hi : s.queue.takers i = .awake) : (s.look i).left + 1 ≤ s.left := by
  have hclosed := h.closed_iff.mpr hdown
  have hidle := h.idle_of_awake hi
  unfold ThreadPool.look
  rcases s.queue.seen_cases with ⟨-, hopen, -⟩ | ⟨task, rest, hitems, hseen⟩ | ⟨-, -, hseen⟩
  · rw [hclosed] at hopen
    cases hopen
  · have hwork := left_setWork s i (.running task)
    rw [hidle] at hwork
    simp only [hseen, left, WaitQueue.look, hitems, List.tail_cons, List.length_cons]
    simp only [Work.left, setWork] at hwork ⊢
    omega
  · have hwork := left_setWork s i .exited
    rw [hidle] at hwork
    simp only [hseen, left, WaitQueue.look, WaitQueue.setTaker]
    simp only [Work.left, setWork] at hwork ⊢
    omega

/-- Every productive step brings the end nearer, and no step puts it off. -/
theorem left_step (h : Inv s) (hdown : s.teardown ≠ .none) {e : PoolEvent n τ}
    (hs : s.next e = some t) :
    t.teardown ≠ .none ∧ t.left + (if e.productive then 1 else 0) ≤ s.left := by
  cases e with
  | post task =>
    obtain ⟨hnone, -⟩ := Option.ite_none_right_eq_some.mp hs
    exact absurd hnone hdown
  | notifyOne woken =>
    obtain ⟨⟨howed, -⟩, -⟩ := Option.ite_none_right_eq_some.mp hs
    rw [h.quiet hdown] at howed
    cases howed
  | look i =>
    obtain ⟨hi, ⟨⟩⟩ := Option.ite_none_right_eq_some.mp hs
    refine ⟨?_, left_look h hdown hi⟩
    unfold ThreadPool.look
    split <;> exact hdown
  | finish i threw =>
    simp only [ThreadPool.next] at hs
    split at hs
    next task hi =>
      cases hs
      refine ⟨hdown, ?_⟩
      have hwork := left_setWork s i .idle
      rw [hi] at hwork
      simp only [left, PoolEvent.productive, if_true, WaitQueue.setTaker]
      simp only [Work.left, setWork] at hwork ⊢
      omega
    next => cases hs
  | spurious i =>
    obtain ⟨-, ⟨⟩⟩ := Option.ite_none_right_eq_some.mp hs
    exact ⟨hdown, Nat.le_refl _⟩
  | setStop =>
    obtain ⟨⟨hnone, -⟩, -⟩ := Option.ite_none_right_eq_some.mp hs
    exact absurd hnone hdown
  | notifyAll =>
    obtain ⟨hstopped, ⟨⟩⟩ := Option.ite_none_right_eq_some.mp hs
    refine ⟨by simp, ?_⟩
    simp only [left, hstopped, Teardown.left, PoolEvent.productive, if_true, WaitQueue.notifyAll]
    omega
  | joined =>
    obtain ⟨⟨hjoining, -⟩, ⟨⟩⟩ := Option.ite_none_right_eq_some.mp hs
    refine ⟨by simp, ?_⟩
    simp only [left, hjoining, Teardown.left, PoolEvent.productive, if_true]
    omega

theorem left_play (h : Inv s) (hdown : s.teardown ≠ .none) {es : List (PoolEvent n τ)}
    (hs : (machine n τ).play s es = some t) :
    t.teardown ≠ .none ∧ es.countP (·.productive) + t.left ≤ s.left := by
  induction es generalizing s with
  | nil =>
    cases hs
    exact ⟨hdown, Nat.le_of_eq (Nat.zero_add _)⟩
  | cons e es ih =>
    obtain ⟨u, hu, hrest⟩ := Option.bind_eq_some_iff.mp hs
    obtain ⟨hdown', hle⟩ := left_step h hdown hu
    obtain ⟨hdown'', hle'⟩ := ih (h.step hu) hdown' hrest
    rw [List.countP_cons]
    exact ⟨hdown'', by omega⟩

/-- As long as the destructor has not returned, it is its turn, or the turn of a
thread that has not left. -/
theorem productive_enabled (h : Inv s) (hdown : s.teardown ≠ .none) (hdone : s.teardown ≠ .done) :
    ∃ e : PoolEvent n τ, e.productive ∧ (s.next e).isSome := by
  cases hteardown : s.teardown with
  | none => exact absurd hteardown hdown
  | done => exact absurd hteardown hdone
  | stopped => exact ⟨.notifyAll, rfl, by simp only [next, hteardown, if_true, Option.isSome_some]⟩
  | joining =>
    by_cases hall : ∀ i, (s.work i).hasExited
    · exact ⟨.joined, rfl, by simp only [next, hteardown, hall, implies_true, and_self, if_true,
        Option.isSome_some]⟩
    · obtain ⟨i, hi⟩ := not_forall.mp hall
      cases hw : s.work i with
      | exited =>
        rw [hw] at hi
        exact absurd rfl hi
      | running task =>
        exact ⟨.finish i false, rfl, by simp only [next, hw, Option.isSome_some]⟩
      | idle =>
        -- nobody sleeps any more
        have hasleep := h.roused (.inl hteardown) i
        have haway : s.queue.takers i ≠ .away := fun hc => (h.away_iff i).mp hc hw
        refine ⟨.look i, rfl, ?_⟩
        cases htaker : s.queue.takers i with
        | awake => simp only [next, htaker, if_true, Option.isSome_some]
        | asleep => exact absurd htaker hasleep
        | away => exact absurd htaker haway

/-- **The destructor returns.** A run from its first step on has no more productive
steps than `left`, and one is possible until it has returned. Then every thread has
left, and if there was one, every task that was posted was taken in its turn and is
finished. -/
theorem teardown_ends (h : (machine n τ).Reachable s) (hdown : s.teardown ≠ .none)
    {es : List (PoolEvent n τ)} (hs : (machine n τ).play s es = some t) :
    es.countP (·.productive) + t.left ≤ s.left ∧
      (t.teardown ≠ .done → ∃ e : PoolEvent n τ, e.productive ∧ (t.next e).isSome) ∧
      (t.teardown = .done → (∀ i, t.work i = .exited) ∧
        (0 < n → t.started = t.posted ∧ t.finished.Perm t.posted)) := by
  have hI := Inv.reachable (Machine.reachable_of_play h hs)
  obtain ⟨hdown', hle⟩ := left_play (Inv.reachable h) hdown hs
  refine ⟨hle, productive_enabled hI hdown', fun hdone => ⟨fun i => ?_, fun hn => ?_⟩⟩
  · exact Work.eq_exited (hI.left hdone i)
  · exact hI.all_finished hn hdone

/-- One thread that has yet to come to its first task when the destructor begins. -/
def lateStart : List (PoolEvent 1 Nat) := [.post 7, .notifyOne none, .setStop]

/-- It takes the task and leaves. -/
def lateEnd (i : Fin 1) : List (PoolEvent 1 Nat) :=
  [.notifyAll, .look i, .finish i true, .look i, .joined]

theorem teardown_ends_lateStart :
    ∃ s t, (machine 1 Nat).play (fresh 1 Nat) lateStart = some s ∧ s.left = 5 ∧
      (∃ e : PoolEvent 1 Nat, e.productive ∧ (s.next e).isSome) ∧
      (machine 1 Nat).play s (lateEnd 0) = some t ∧ 5 + t.left ≤ s.left ∧
      t.work 0 = .exited ∧ t.started = [7] ∧ t.finished.Perm [7] := by
  obtain ⟨s, hs, hstopped, hleft, t, ht, hdone, hposted⟩ :
      ∃ s ∈ (machine 1 Nat).play (fresh 1 Nat) lateStart, s.teardown = .stopped ∧ s.left = 5 ∧
        ∃ t ∈ (machine 1 Nat).play s (lateEnd 0), t.teardown = .done ∧ t.posted = [7] := by decide
  have hreach := Machine.reachable_of_play (.start rfl) hs
  have hdown : s.teardown ≠ .none := by rw [hstopped]; decide
  have hnow : (machine 1 Nat).play s [] = some s := rfl
  obtain ⟨-, henabled, -⟩ := teardown_ends hreach hdown hnow
  obtain ⟨hle, -, hends⟩ := teardown_ends hreach hdown ht
  obtain ⟨hexited, hall⟩ := hends hdone
  rw [hposted] at hall
  exact ⟨s, t, hs, hleft, henabled (by rw [hstopped]; decide), ht, hle, hexited 0,
    hall (by decide)⟩

end ThreadPool

end SharedBike.Server
