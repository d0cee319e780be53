import SharedBike.Lib.WaitQueue
import SharedBike.Server.PoolLaws

/-!
# Waiting for a connection

`mysql_pool.cpp` with its mutex and its condition variable. `Server.PoolLaws` takes
an `acquire` on an empty pool as a call that is not answered yet. In the source it is
a wait: the thread locks, finds the queue empty and sleeps; `return_` puts the
connection into the queue under the lock, unlocks and then signals. Between
the two the pool is not empty and the sleeper has not been told, another thread
may come and take the connection, and a sleeper may wake for nothing.

None of this matters. A run of `LeaseQueue` is a run of the pool in which nobody
needs waking, and the only states in which no thread can move are the deadlocks of
that pool: a thread that sleeps next to a free connection has its signal on the way
(`deadlocked_of_stuck`). Conversely every run of the pool is one in which no two threads
meet at the queue (`lift`). So the implementation can deadlock in exactly the
configurations in which the pool can (`leases_refine`).
-/

namespace SharedBike.Server

open SharedBike.Lib Function

/-- The pool as it is implemented, and the threads that use it. -/
structure LeaseQueue (ι : Type) where
  /-- `pool_`, and the threads inside `acquire` -/
  queue : WaitQueue ι Nat
  threads : ι → Sql Unit
  phase : ι → Leases

inductive LeaseEvent (ι : Type) where
  /-- a thread enters `acquire` -/
  | enter (i : ι)
  /-- it locks and tests whether the pool is empty -/
  | look (i : ι)
  | spurious (i : ι)
  /-- the locked part of `return_` -/
  | giveBack (i : ι)
  | notifyOne (woken : Option ι)
  | query (i : ι) (answers : Answers)

/-- Everything but a wakeup for no reason. -/
def LeaseEvent.productive {ι : Type} : LeaseEvent ι → Bool
  | .spurious _ => false
  | _ => true

namespace LeaseQueue

variable {ι : Type} [DecidableEq ι]

/-- A thread goes on after a call was answered. -/
def resume (s : LeaseQueue ι) (i : ι) (c : SqlCall) (r : c.Res) (rest : Sql Unit) : LeaseQueue ι :=
  { s with
    threads := update s.threads i rest
    phase := update s.phase i (Leases.discipline.next (s.phase i) c r) }

def next [Fintype ι] (s : LeaseQueue ι) : LeaseEvent ι → Option (LeaseQueue ι)
  | .enter i =>
    match s.threads i, s.queue.takers i with
    | .call .acquire _, .away => some { s with queue := s.queue.setTaker i .awake }
    | _, _ => none
  | .look i =>
    match s.threads i, s.queue.takers i with
    | .call .acquire k, .awake =>
      match s.queue.seen with
      | .take conn =>
        some { s.resume i .acquire conn (k conn) with queue := s.queue.look i }
      | _ => some { s with queue := s.queue.look i }
    | _, _ => none
  | .spurious i =>
    if s.queue.takers i = .asleep then some { s with queue := s.queue.setTaker i .awake }
    else none
  | .giveBack i =>
    match s.threads i with
    | .call (.release conn) k =>
      some { s.resume i (.release conn) () (k ()) with queue := s.queue.push conn }
    | _ => none
  | .notifyOne woken =>
    if 0 < s.queue.owed ∧ s.queue.NotifyOk woken then
      some { s with queue := s.queue.notifyOne woken }
    else none
  | .query i answers =>
    match s.threads i with
    | .call (.query conn site stmt) k =>
      some (s.resume i (.query conn site stmt) (answers stmt) (k (answers stmt)))
    | _ => none

/-- The pool of the same connections in which nobody needs waking. -/
def view (s : LeaseQueue ι) : Threads ι := ⟨s.queue.items, s.threads, s.phase⟩

/-- A pool of `n` connections with nobody at it. -/
def full (P : Platform) (n : Nat) (ops : ι → List RepoCall) : LeaseQueue ι where
  queue := ⟨List.range n, false, fun _ => .away, 0⟩
  threads i := Mysql.worker P (ops i)
  phase i := ⟨0, (ops i).any Mysql.nests⟩

def machine [Fintype ι] (P : Platform) (n : Nat) (ops : ι → List RepoCall) :
    Machine (LeaseQueue ι) (LeaseEvent ι) where
  init s := s = full P n ops
  next := next

/-- No thread can move, but for wakeups without a reason. -/
def Stuck [Fintype ι] (s : LeaseQueue ι) : Prop :=
  (∃ i, s.view.Unfinished i) ∧ ∀ e : LeaseEvent ι, e.productive → s.next e = none

/-! ## What holds throughout -/

variable [Fintype ι] {P : Platform} {n : Nat} {ops : ι → List RepoCall} {s t : LeaseQueue ι}
  {k : Nat → Sql Unit} {i : ι} {q : WaitQueue ι Nat}

/-- Only a thread in `acquire` is at the queue, and the queue is never closed. -/
structure Inv (s : LeaseQueue ι) : Prop where
  covered : s.queue.Covered
  open_ : s.queue.closed = false
  acquiring : ∀ i, s.queue.takers i ≠ .away → ∃ k, s.threads i = .call .acquire k

namespace Inv

omit [DecidableEq ι] in
theorem full (P : Platform) (n : Nat) (ops : ι → List RepoCall) : Inv (full P n ops) where
  covered h := by
    obtain ⟨i, hi⟩ := h
    cases hi
  open_ := rfl
  acquiring i h := absurd rfl h

/-- A thread that is in `acquire` moves at the queue. -/
theorem setTaker (h : Inv s) (hi : s.threads i = .call .acquire k) {taker : Taker}
    (hq : q.takers = (s.queue.setTaker i taker).takers) (hclosed : q.closed = s.queue.closed)
    (hcovered : q.Covered) :
    Inv { s with queue := q } where
  covered := hcovered
  open_ := hclosed.trans h.open_
  acquiring j hj := by
    by_cases hji : j = i
    · subst hji
      exact ⟨k, hi⟩
    · apply h.acquiring j
      intro haway
      apply hj
      show q.takers j = .away
      rw [hq, WaitQueue.setTaker_of_ne s.queue taker hji]
      exact haway

/-- A thread that is not at the queue, or leaves it, goes on. -/
theorem resume (h : Inv s) {c : SqlCall} {r : c.Res} {rest : Sql Unit}
    (hq : ∀ j, j ≠ i → q.takers j = s.queue.takers j) (hi : q.takers i = .away)
    (hclosed : q.closed = s.queue.closed) (hcovered : q.Covered) :
    Inv { s.resume i c r rest with queue := q } where
  covered := hcovered
  open_ := hclosed.trans h.open_
  acquiring j hj := by
    by_cases hji : j = i
    · subst hji
      exact absurd hi hj
    · obtain ⟨k, hk⟩ := h.acquiring j (by rw [← hq j hji]; exact hj)
      refine ⟨k, ?_⟩
      show update s.threads i rest j = _
      rw [update_of_ne hji]
      exact hk

omit [DecidableEq ι] in
theorem away_of_call (h : Inv s) {c : SqlCall} {k : c.Res → Sql Unit} (hi : s.threads i = .call c k)
    (hc : c ≠ .acquire) : s.queue.takers i = .away := by
  by_contra hne
  obtain ⟨k', hk'⟩ := h.acquiring i hne
  rw [hi] at hk'
  cases hk'
  exact hc rfl

/-- A look takes the first connection, or the thread goes to sleep. -/
theorem look_cases (h : Inv s) (i : ι) :
    (s.queue.items = [] ∧ s.queue.seen = .sleep ∧
        s.queue.look i = s.queue.setTaker i .asleep) ∨
      ∃ conn rest, s.queue.items = conn :: rest ∧ s.queue.seen = .take conn ∧
        s.queue.look i = { s.queue.setTaker i .away with items := rest } := by
  unfold WaitQueue.look
  rcases s.queue.seen_cases with ⟨hitems, -, hseen⟩ | ⟨conn, rest, hitems, hseen⟩ |
    ⟨-, hclosed, -⟩
  · rw [hseen]
    exact .inl ⟨hitems, rfl, rfl⟩
  · rw [hseen, hitems]
    exact .inr ⟨conn, rest, rfl, rfl, rfl⟩
  · rw [h.open_] at hclosed
    cases hclosed

end Inv

/-- What a step can do: it is a step of the pool, or it changes nothing that the pool
knows of. -/
theorem step_cases (h : Inv s) {e : LeaseEvent ι} (hs : s.next e = some t) :
    Inv t ∧ (t.view = s.view ∨ ∃ e', (poolRuns P n ops).next s.view e' = some t.view) := by
  cases e with
  | enter i =>
    simp only [next] at hs
    split at hs
    next k hi haway =>
      cases hs
      exact ⟨h.setTaker hi rfl rfl (h.covered.wake i), .inl rfl⟩
    next => cases hs
  | look i =>
    simp only [next] at hs
    split at hs
    next k hi hawake =>
      have hcovered := h.covered.look hawake
      rcases h.look_cases i with ⟨-, hseen, hlook⟩ | ⟨conn, rest, hitems, hseen, hlook⟩
      · rw [hseen] at hs
        cases hs
        rw [hlook] at hcovered ⊢
        exact ⟨h.setTaker hi rfl rfl hcovered, .inl rfl⟩
      · rw [hseen] at hs
        cases hs
        rw [hlook] at hcovered ⊢
        refine ⟨h.resume (fun j hj => ?_) ?_ rfl hcovered, .inr ⟨⟨i, fun _ => none⟩, ?_⟩⟩
        · exact WaitQueue.setTaker_of_ne s.queue .away hj
        · exact WaitQueue.setTaker_self s.queue i .away
        · simp only [poolRuns, Pool.machine, Pool.next, view, hi, hitems, MysqlPool.exec,
            Option.map_some, resume]
    next => cases hs
  | spurious i =>
    obtain ⟨hi, ⟨⟩⟩ := Option.ite_none_right_eq_some.mp hs
    obtain ⟨k, hk⟩ := h.acquiring i (by rw [hi]; decide)
    exact ⟨h.setTaker hk rfl rfl (h.covered.wake i), .inl rfl⟩
  | giveBack i =>
    simp only [next] at hs
    split at hs
    next conn k hi =>
      cases hs
      have haway := h.away_of_call hi (by simp)
      refine ⟨h.resume (fun j _ => rfl) haway rfl (h.covered.push conn),
        .inr ⟨⟨i, fun _ => none⟩, ?_⟩⟩
      simp only [poolRuns, Pool.machine, Pool.next, view, hi, MysqlPool.exec, Option.map_some,
        resume, WaitQueue.push]
    next => cases hs
  | notifyOne woken =>
    obtain ⟨⟨howed, hok⟩, ⟨⟩⟩ := Option.ite_none_right_eq_some.mp hs
    have hcovered := h.covered.notifyOne hok
    cases woken with
    | none => exact ⟨{ h with covered := hcovered }, .inl rfl⟩
    | some i =>
      obtain ⟨k, hk⟩ := h.acquiring i (by rw [show s.queue.takers i = .asleep from hok]; decide)
      exact ⟨h.setTaker hk rfl rfl hcovered, .inl rfl⟩
  | query i answers =>
    simp only [next] at hs
    split at hs
    next conn site stmt k hi =>
      cases hs
      have haway := h.away_of_call hi (by simp)
      refine ⟨h.resume (fun j _ => rfl) haway rfl h.covered, .inr ⟨⟨i, answers⟩, ?_⟩⟩
      simp only [poolRuns, Pool.machine, Pool.next, view, hi, MysqlPool.exec, Option.map_some,
        resume]
    next => cases hs

theorem Inv.reachable (h : (machine P n ops).Reachable s) : Inv s := by
  apply Machine.invariant _ _ h
  · intro s hs
    rw [hs]
    exact .full P n ops
  · intro s e t hI _ hs
    exact (@step_cases _ _ _ P n ops _ _ hI _ hs).1

/-- Every run of the implementation is a run of the pool. -/
theorem view_reachable (h : (machine P n ops).Reachable s) :
    (poolRuns P n ops).Reachable s.view := by
  apply Machine.reachable_map _ _ h
  · intro s hs
    rw [hs]
    exact .start ⟨rfl, rfl, rfl⟩
  · intro s e t hreach _ hs
    exact (step_cases (Inv.reachable hreach) hs).2

/-! ## Nobody sleeps next to a free connection -/

/-- A thread that looks is never refused. -/
theorem look_enabled (s : LeaseQueue ι) (hi : s.threads i = .call .acquire k)
    (hawake : s.queue.takers i = .awake) :
    s.next (.look i) ≠ none := by
  simp only [next, hi, hawake]
  split <;> simp

/-- A thread that has a call left can make it, or sleeps in `acquire`. -/
theorem asleep_of_stuck (hstuck : s.Stuck) (hi : s.view.Unfinished i) :
    s.queue.takers i = .asleep ∧ ∃ k, s.threads i = .call .acquire k := by
  have hnone := hstuck.2
  cases hthread : s.threads i with
  | done a => exact absurd hthread (hi a)
  | call c k =>
    cases c with
    | query conn site stmt =>
      have hquery := hnone (.query i fun _ => none) rfl
      simp only [next, hthread] at hquery
      cases hquery
    | release conn =>
      have hback := hnone (.giveBack i) rfl
      simp only [next, hthread] at hback
      cases hback
    | acquire =>
      refine ⟨?_, k, rfl⟩
      cases htaker : s.queue.takers i with
      | asleep => rfl
      | away =>
        have henter := hnone (.enter i) rfl
        simp only [next, hthread, htaker] at henter
        cases henter
      | awake => exact absurd (hnone (.look i) rfl) (look_enabled s hthread htaker)

/-- When no thread can move, every unfinished one waits on the empty pool. -/
theorem deadlocked_of_stuck (h : Inv s) (hstuck : s.Stuck) : s.view.Deadlocked := by
  obtain ⟨i, hi⟩ := hstuck.1
  obtain ⟨hasleep, -⟩ := asleep_of_stuck hstuck hi
  have howed : s.queue.owed = 0 := by
    by_contra hne
    have hnotify := hstuck.2 (.notifyOne (some i)) rfl
    rw [next, if_pos ⟨Nat.pos_of_ne_zero hne, hasleep⟩] at hnotify
    cases hnotify
  have hawake : ∀ j, s.queue.takers j ≠ .awake := by
    intro j hj
    obtain ⟨k, hk⟩ := h.acquiring j (by rw [hj]; decide)
    exact look_enabled s hk hj (hstuck.2 (.look j) rfl)
  have hempty := h.covered.idle howed hawake hasleep
  refine ⟨hstuck.1, ?_⟩
  intro j hj
  exact ⟨hempty, (asleep_of_stuck hstuck hj).2⟩

/-! ## Every run of the pool is one of the implementation -/

/-- Nobody is at the queue but those of `S`, who sleep, and no signal is owed. -/
structure Resting (S : Finset ι) (s : LeaseQueue ι) : Prop where
  asleep : ∀ i ∈ S, s.queue.takers i = .asleep
  away : ∀ i, i ∉ S → s.queue.takers i = .away
  signalled : s.queue.owed = 0

/-- A thread enters `acquire`. -/
theorem next_enter (s : LeaseQueue ι) (hi : s.threads i = .call .acquire k)
    (haway : s.queue.takers i = .away) :
    (machine P n ops).next s (.enter i) =
      some { s with queue := s.queue.setTaker i .awake } := by
  simp only [machine, next, hi, haway]

/-- A thread that has entered finds a connection. -/
theorem next_look_take (s : LeaseQueue ι) (hi : s.threads i = .call .acquire k) {conn : Nat}
    {rest : List Nat} (hitems : s.queue.items = conn :: rest) :
    (machine P n ops).next { s with queue := s.queue.setTaker i .awake } (.look i) =
      some { s.resume i .acquire conn (k conn) with
        queue := { s.queue.setTaker i .away with items := rest } } := by
  simp only [machine, next, hi, update_self, WaitQueue.seen, WaitQueue.look,
    WaitQueue.setTaker, hitems, update_idem, List.tail_cons]
  rfl

/-- A thread that has entered finds none. -/
theorem next_look_sleep (h : Inv s) (hi : s.threads i = .call .acquire k)
    (hitems : s.queue.items = []) :
    (machine P n ops).next { s with queue := s.queue.setTaker i .awake } (.look i) =
      some { s with queue := s.queue.setTaker i .asleep } := by
  simp only [machine, next, hi, update_self, WaitQueue.seen, WaitQueue.look,
    WaitQueue.setTaker, hitems, h.open_, update_idem]

/-- A signal that finds nobody asleep. -/
theorem next_notify {threads : ι → Sql Unit} {phase : ι → Leases} (howed : 0 < q.owed)
    (hnobody : ∀ i, q.takers i ≠ .asleep) :
    (machine P n ops).next ⟨q, threads, phase⟩ (.notifyOne none) =
      some ⟨q.notifyOne none, threads, phase⟩ :=
  if_pos ⟨howed, hnobody⟩

/-- The call of one thread, with nobody in its way. -/
theorem follow (h : (machine P n ops).Reachable s) (hrest : s.Resting ∅) {e : Turn ι Answers}
    {p : Threads ι} (hp : (poolRuns P n ops).next s.view e = some p) :
    ∃ t, (machine P n ops).Reachable t ∧ t.Resting ∅ ∧ t.view = p := by
  have haway : ∀ i, s.queue.takers i = .away := fun i => hrest.away i (Finset.notMem_empty i)
  obtain ⟨c, k, r, pool, hthread, hexec, rfl⟩ := Pool.next_cases hp
  obtain ⟨i, answers⟩ := e
  replace hthread : s.threads i = .call c k := hthread
  replace hexec : MysqlPool.exec answers c s.queue.items = some (r, pool) := hexec
  cases c with
  | acquire =>
    -- it enters, looks and finds a connection
    cases hitems : s.queue.items with
    | nil =>
      rw [hitems] at hexec
      cases hexec
    | cons conn rest =>
      rw [hitems] at hexec
      cases hexec
      have henter := Machine.ReachableWhile.step h trivial (next_enter s hthread (haway i))
      refine ⟨_, .step henter trivial (next_look_take s hthread hitems), ⟨?_, ?_, ?_⟩, rfl⟩
      · nofun
      · intro j _
        show update s.queue.takers i .away j = .away
        rw [← haway i, update_eq_self]
        exact (haway j).trans (haway i).symm
      · exact hrest.signalled
  | release conn =>
    -- it gives back, and its signal finds nobody
    cases hexec
    have hback : (machine P n ops).next s (.giveBack i) =
        some { s.resume i (.release conn) () (k ()) with queue := s.queue.push conn } := by
      simp only [machine, next, hthread]
    have hnobody : ∀ j, (s.queue.push conn).takers j ≠ .asleep := by
      intro j hj
      exact absurd ((haway j).symm.trans hj) (by decide)
    refine ⟨_, .step (.step h trivial hback) trivial (next_notify (Nat.succ_pos _) hnobody),
      ⟨?_, ?_, ?_⟩, rfl⟩
    · nofun
    · exact fun j _ => haway j
    · exact hrest.signalled
  | query conn site stmt =>
    cases hexec
    have hquery : (machine P n ops).next s (.query i answers) =
        some (s.resume i (.query conn site stmt) (answers stmt) (k (answers stmt))) := by
      simp only [machine, next, hthread]
    exact ⟨_, .step h trivial hquery, ⟨nofun, fun j _ => haway j, hrest.signalled⟩, rfl⟩

/-- Every run of the pool is the view of a run of the implementation. -/
theorem lift {p : Threads ι} (h : (poolRuns P n ops).Reachable p) :
    ∃ s, (machine P n ops).Reachable s ∧ s.Resting ∅ ∧ s.view = p := by
  induction h with
  | @start p hp =>
    obtain ⟨pool, threads, phase⟩ := p
    obtain ⟨rfl, rfl, rfl⟩ := hp
    exact ⟨full P n ops, .start rfl, ⟨nofun, fun _ _ => rfl, rfl⟩, rfl⟩
  | step _ _ he ih =>
    obtain ⟨s, hs, hrest, rfl⟩ := ih
    exact follow hs hrest he

/-- Threads that wait on the empty pool go to sleep, one after the other. -/
theorem fall_asleep (h : (machine P n ops).Reachable s) (hrest : s.Resting ∅)
    (S : Finset ι) (hwait : ∀ i ∈ S, s.view.Waits i) :
    ∃ t, (machine P n ops).Reachable t ∧ t.Resting S ∧ t.view = s.view := by
  induction S using Finset.induction_on with
  | empty => exact ⟨s, h, hrest, rfl⟩
  | insert i S hi ih =>
    obtain ⟨t, ht, htrest, hview⟩ := ih fun j hj => hwait j (Finset.mem_insert_of_mem hj)
    have hwaits := hwait i (Finset.mem_insert_self i S)
    rw [← hview] at hwaits
    obtain ⟨hitems, k, hk⟩ := hwaits
    have henter := Machine.ReachableWhile.step ht trivial (next_enter t hk (htrest.away i hi))
    have hinv := Inv.reachable ht
    refine ⟨_, .step henter trivial (next_look_sleep hinv hk hitems),
      ⟨?_, ?_, htrest.signalled⟩, hview⟩
    · intro j hj
      rcases Finset.mem_insert.mp hj with rfl | hj
      · exact WaitQueue.setTaker_self t.queue j .asleep
      · have hne : j ≠ i := fun heq => hi (heq ▸ hj)
        exact (WaitQueue.setTaker_of_ne t.queue .asleep hne).trans (htrest.asleep j hj)
    · intro j hj
      have hne : j ≠ i := fun heq => hj (heq ▸ Finset.mem_insert_self i S)
      refine (WaitQueue.setTaker_of_ne t.queue .asleep hne).trans (htrest.away j ?_)
      exact fun hmem => hj (Finset.mem_insert_of_mem hmem)

/-- With every unfinished thread asleep in `acquire` and no signal owed, nothing moves. -/
theorem stuck_of_deadlocked {S : Finset ι} (hrest : s.Resting S) (hdead : s.view.Deadlocked)
    (hS : ∀ i, i ∈ S ↔ s.view.Unfinished i) : s.Stuck := by
  have hcall : ∀ {i c k}, s.threads i = .call c k → i ∈ S ∧ c = .acquire := by
    intro i c k hi
    have hunf : s.view.Unfinished i := by
      intro a ha
      exact absurd (hi.symm.trans ha) nofun
    obtain ⟨-, k', hk'⟩ := hdead.2 i hunf
    cases hi.symm.trans hk'
    exact ⟨(hS i).mpr hunf, rfl⟩
  have hnotAwake : ∀ i, s.queue.takers i ≠ .awake := by
    intro i hi
    by_cases hmem : i ∈ S
    · exact absurd ((hrest.asleep i hmem).symm.trans hi) (by decide)
    · exact absurd ((hrest.away i hmem).symm.trans hi) (by decide)
  refine ⟨hdead.1, ?_⟩
  intro e he
  cases e with
  | enter i =>
    simp only [next]
    split
    next hi haway => exact absurd ((hrest.asleep i (hcall hi).1).symm.trans haway) (by decide)
    next => rfl
  | look i =>
    simp only [next]
    split
    next hi hawake => exact absurd hawake (hnotAwake i)
    next => rfl
  | spurious i => cases he
  | giveBack i | query i answers =>
    simp only [next]
    split
    next hi => exact absurd (hcall hi).2 nofun
    next => rfl
  | notifyOne woken =>
    rw [next, if_neg]
    rw [hrest.signalled]
    exact fun hpos => absurd hpos.1 (Nat.lt_irrefl 0)

/-- **The condition variable adds nothing to the pool.** With the mutex, the wait, the
signal after the unlock and wakeups for no reason, the states that the threads reach are
those of the pool in which an `acquire` is one step; and the implementation can get stuck,
with work left and nothing able to move, exactly when that pool can deadlock. -/
theorem leases_refine (P : Platform) (n : Nat) (ops : ι → List RepoCall) :
    (∀ p, (poolRuns P n ops).Reachable p ↔ ∃ s, (machine P n ops).Reachable s ∧ s.view = p) ∧
      ((∃ s, (machine P n ops).Reachable s ∧ s.Stuck) ↔
        ∃ p, (poolRuns P n ops).Reachable p ∧ p.Deadlocked) := by
  refine ⟨?_, ?_, ?_⟩
  · intro p
    constructor
    · intro hp
      obtain ⟨s, hs, -, hview⟩ := lift hp
      exact ⟨s, hs, hview⟩
    · rintro ⟨s, hs, rfl⟩
      exact view_reachable hs
  · rintro ⟨s, hs, hstuck⟩
    exact ⟨s.view, view_reachable hs, deadlocked_of_stuck (Inv.reachable hs) hstuck⟩
  · rintro ⟨p, hp, hdead⟩
    classical
    obtain ⟨s, hs, hrest, rfl⟩ := lift hp
    obtain ⟨t, ht, htrest, hview⟩ := fall_asleep hs hrest
      (Finset.univ.filter fun i => s.view.Unfinished i)
      fun i hi => hdead.2 i (Finset.mem_filter.mp hi).2
    refine ⟨t, ht, stuck_of_deadlocked htrest (hview ▸ hdead) ?_⟩
    intro i
    rw [hview, Finset.mem_filter]
    exact and_iff_right (Finset.mem_univ i)

end LeaseQueue

end SharedBike.Server
