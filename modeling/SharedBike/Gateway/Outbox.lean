import SharedBike.Gateway.Worker
import SharedBike.Lib.Machine
import Mathlib.Logic.Function.Basic
import Mathlib.Data.List.Infix

/-!
# The wakeup of the main loop

`worker_outbox.cpp`, `outbox_queue.hpp` and `complete_wakeup` of
`uring_engine.cpp`. A worker hands its items to the main loop through a queue
under a mutex, and adds one to an eventfd after each. The main loop has a read
of the eventfd in the kernel; the read completes when the counter is not zero,
and sets it back. The completion re-arms the read first and then takes the
whole queue.

The queue and the counter are two things, so an item can be in the queue while
the counter is zero: before its own write, and when an earlier read has taken
its one already. `Inv` says that there is a completion on its way in the second
case. An item is out after six more steps of the main loop and the kernel,
however many steps the workers take in between (`drained_of_steps`), and such
steps can be taken (`Inv.loop_enabled`).

A queue entry has the worker that pushed it, and `calls` and `drained` are
history; the code has neither.
-/

namespace SharedBike.Gateway

open SharedBike.Lib Function

/-- The read of the eventfd: in the submission queue, in the kernel, or
completed and not handled yet. -/
inductive EventfdRead where
  | queued
  | inFlight
  | done
  deriving DecidableEq

structure Outbox (ι : Type) where
  queue : List (ι × OutboxItem)
  counter : Nat
  read : EventfdRead
  /-- `complete_wakeup` has re-armed the read and not drained yet -/
  rearmed : Bool
  /-- the worker is between its entry and its write -/
  writing : ι → Bool
  calls : ι → List OutboxItem
  drained : List (ι × OutboxItem)

/-- One step of a worker, of the kernel or of the main loop. -/
inductive OutboxEvent (ι : Type) where
  | push (i : ι) (item : OutboxItem)
  | write (i : ι)
  | submit
  | readCompletes
  | readFails
  | rearm
  | drain

/-- The kernel or the main loop moves. -/
def OutboxEvent.ofLoop {ι : Type} : OutboxEvent ι → Bool
  | .push _ _ => false
  | .write _ => false
  | _ => true

/-- The largest value of an eventfd; a write beyond it blocks. -/
def kEventfdMax : Nat := 2 ^ 64 - 2

namespace Outbox

variable {ι : Type} [DecidableEq ι]

def next (s : Outbox ι) : OutboxEvent ι → Option (Outbox ι)
  | .push i item =>
    if s.writing i then none
    else some { s with
      queue := s.queue ++ [(i, item)]
      writing := update s.writing i true
      calls := update s.calls i (s.calls i ++ [item]) }
  | .write i =>
    if s.writing i ∧ s.counter < kEventfdMax then
      some { s with counter := s.counter + 1, writing := update s.writing i false }
    else none
  | .submit =>
    match s.read with
    | .queued => some { s with read := .inFlight }
    | _ => none
  | .readCompletes =>
    match s.read with
    | .inFlight => if 0 < s.counter then some { s with counter := 0, read := .done } else none
    | _ => none
  -- the completion handler does not look at the result
  | .readFails =>
    match s.read with
    | .inFlight => some { s with read := .done }
    | _ => none
  | .rearm =>
    match s.read, s.rearmed with
    | .done, false => some { s with read := .queued, rearmed := true }
    | _, _ => none
  | .drain =>
    if s.rearmed then
      some { s with queue := [], rearmed := false, drained := s.drained ++ s.queue }
    else none

/-- `run` has put the first read into the submission queue. -/
def start : Outbox ι where
  queue := []
  counter := 0
  read := .queued
  rearmed := false
  writing _ := false
  calls _ := []
  drained := []

def machine (ι : Type) [DecidableEq ι] : Machine (Outbox ι) (OutboxEvent ι) where
  init s := s = start
  next := next

/-! ## What a step does -/

/-- A completion has come, and its drain has not run. -/
def WakeupPending (s : Outbox ι) : Prop := s.read = .done ∨ s.rearmed = true

/-- What a worker has among some items. -/
def ofWorker (i : ι) (l : List (ι × OutboxItem)) : List OutboxItem :=
  (l.filter (·.1 = i)).map Prod.snd

/-- The items of a worker, in the order in which they are drained. -/
def itemsOf (s : Outbox ι) (i : ι) : List OutboxItem := ofWorker i (s.drained ++ s.queue)

structure Inv (s : Outbox ι) : Prop where
  heard : s.queue ≠ [] → 0 < s.counter ∨ s.WakeupPending ∨ ∃ i, s.writing i = true
  kept : ∀ i, s.itemsOf i = s.calls i

variable {s t : Outbox ι}

theorem Inv.init : Inv (start : Outbox ι) where
  heard hne := absurd rfl hne
  kept _ := rfl

theorem ofWorker_concat (l : List (ι × OutboxItem)) (i : ι) (item : OutboxItem) (j : ι) :
    ofWorker j (l ++ [(i, item)]) = ofWorker j l ++ if i = j then [item] else [] := by
  rw [ofWorker, List.filter_append, List.map_append]
  refine congrArg (ofWorker j l ++ ·) ?_
  by_cases hij : i = j
  · simp only [List.filter_cons, hij, decide_true, if_true, List.filter_nil, List.map_singleton]
  · simp only [List.filter_cons, hij, decide_false, Bool.false_eq_true, if_false, List.filter_nil,
      List.map_nil]

theorem Inv.step (h : Inv s) {e : OutboxEvent ι} (hs : s.next e = some t) : Inv t := by
  cases e with
  | push i item =>
    simp only [next] at hs
    split at hs
    · cases hs
    · cases hs
      refine ⟨fun _ => .inr (.inr ⟨i, update_self ..⟩), fun j => ?_⟩
      rw [itemsOf, ← List.append_assoc, ofWorker_concat]
      show s.itemsOf j ++ _ = update s.calls i (s.calls i ++ [item]) j
      rw [h.kept j]
      by_cases hij : i = j
      · subst hij
        simp only [if_true, update_self]
      · simp only [if_neg hij, List.append_nil, update_of_ne (Ne.symm hij)]
  | write i =>
    simp only [next] at hs
    split at hs
    · cases hs
      exact ⟨fun _ => .inl (Nat.succ_pos _), h.kept⟩
    · cases hs
  | submit =>
    simp only [next] at hs
    split at hs
    next hread =>
      cases hs
      refine ⟨fun hne => ?_, h.kept⟩
      rcases h.heard hne with hpos | (hdone | hrearmed) | hwriting
      · exact .inl hpos
      · rw [hread] at hdone
        cases hdone
      · exact .inr (.inl (.inr hrearmed))
      · exact .inr (.inr hwriting)
    next => cases hs
  | readCompletes =>
    simp only [next] at hs
    split at hs
    next =>
      split at hs
      · cases hs
        exact ⟨fun _ => .inr (.inl (.inl rfl)), h.kept⟩
      · cases hs
    next => cases hs
  | readFails =>
    simp only [next] at hs
    split at hs
    next =>
      cases hs
      exact ⟨fun _ => .inr (.inl (.inl rfl)), h.kept⟩
    next => cases hs
  | rearm =>
    simp only [next] at hs
    split at hs
    next =>
      cases hs
      exact ⟨fun _ => .inr (.inl (.inr rfl)), h.kept⟩
    next => cases hs
  | drain =>
    simp only [next] at hs
    split at hs
    · cases hs
      refine ⟨fun hne => absurd rfl hne, fun i => ?_⟩
      rw [← h.kept i, itemsOf, itemsOf, List.append_nil]
    · cases hs

theorem inv_of_reachable (h : (machine ι).Reachable s) : Inv s :=
  Machine.invariant (fun _ hs => hs ▸ .init) (fun _ _ _ hs _ ht => hs.step ht) h

/-! ## The way out of the queue -/

/-- How many steps of the kernel and the main loop it takes to the end of the
next drain. -/
def toGo (s : Outbox ι) : Nat :=
  match s.rearmed, s.read with
  | true, .done => 1
  | true, .inFlight => 2
  | true, .queued => 3
  | false, .done => 4
  | false, .inFlight => 5
  | false, .queued => 6

omit [DecidableEq ι] in
theorem toGo_bounds (s : Outbox ι) : 1 ≤ s.toGo ∧ s.toGo ≤ 6 := by
  unfold toGo
  split <;> decide

/-- A step ends the wait, or shortens it when the workers have no part in it. -/
theorem step_toGo {e : OutboxEvent ι} (hs : s.next e = some t) :
    (e.ofLoop = true ∧ t.drained = s.drained ++ s.queue) ∨
      (t.drained = s.drained ∧ s.queue <+: t.queue ∧
        t.toGo + (if e.ofLoop then 1 else 0) = s.toGo) := by
  cases e with
  | push i item =>
    simp only [next] at hs
    split at hs
    · cases hs
    · cases hs
      exact .inr ⟨rfl, List.prefix_append .., rfl⟩
  | write i =>
    simp only [next] at hs
    split at hs
    · cases hs
      exact .inr ⟨rfl, List.prefix_rfl, rfl⟩
    · cases hs
  | submit | readFails =>
    simp only [next] at hs
    split at hs
    next hread =>
      cases hs
      refine .inr ⟨rfl, List.prefix_rfl, ?_⟩
      simp only [toGo, hread]
      cases s.rearmed <;> rfl
    next => cases hs
  | readCompletes =>
    simp only [next] at hs
    split at hs
    next hread =>
      split at hs
      · cases hs
        refine .inr ⟨rfl, List.prefix_rfl, ?_⟩
        simp only [toGo, hread]
        cases s.rearmed <;> rfl
      · cases hs
    next => cases hs
  | rearm =>
    simp only [next] at hs
    split at hs
    next hread hrearmed =>
      cases hs
      refine .inr ⟨rfl, List.prefix_rfl, ?_⟩
      simp only [toGo, hread, hrearmed]
      rfl
    next => cases hs
  | drain =>
    simp only [next] at hs
    split at hs
    · cases hs
      exact .inl ⟨rfl, rfl⟩
    · cases hs

/-- What is drained stays so. -/
theorem drained_mono {es : List (OutboxEvent ι)} (h : (machine ι).play s es = some t) :
    s.drained <+: t.drained := by
  induction es generalizing s with
  | nil =>
    cases h
    exact List.prefix_rfl
  | cons e es ih =>
    obtain ⟨u, hu, hrest⟩ := Option.bind_eq_some_iff.mp h
    rcases step_toGo hu with ⟨-, hdrained⟩ | ⟨hdrained, -⟩
    · exact (List.prefix_append ..).trans (hdrained ▸ ih hrest)
    · exact hdrained ▸ ih hrest

/-- What is in the queue now is out after that many steps, whatever the workers do. -/
theorem drained_of_steps {es : List (OutboxEvent ι)} (h : (machine ι).play s es = some t)
    (hcount : s.toGo ≤ es.countP (·.ofLoop)) : s.drained ++ s.queue <+: t.drained := by
  induction es generalizing s with
  | nil =>
    have hpos := s.toGo_bounds.1
    rw [List.countP_nil] at hcount
    omega
  | cons e es ih =>
    obtain ⟨u, hu, hrest⟩ := Option.bind_eq_some_iff.mp h
    rcases step_toGo hu with ⟨-, hdrained⟩ | ⟨hdrained, hqueue, hgo⟩
    · exact hdrained ▸ drained_mono hrest
    · rw [List.countP_cons] at hcount
      have hlong := ih hrest (by omega)
      rw [hdrained] at hlong
      exact ((List.prefix_append_right_inj _).mpr hqueue).trans hlong

theorem Inv.wakes (h : Inv s) (hne : s.queue ≠ []) (hwriting : ∀ i, s.writing i = false) :
    0 < s.counter ∨ s.WakeupPending := by
  rcases h.heard hne with hpos | hpending | ⟨i, hi⟩
  · exact .inl hpos
  · exact .inr hpending
  · rw [hwriting i] at hi
    cases hi

/-- While something is in the queue and its one is written, the kernel or the
main loop can move, without an error. -/
theorem Inv.loop_enabled (h : Inv s) (hne : s.queue ≠ [])
    (hwriting : ∀ i, s.writing i = false) :
    ∃ e : OutboxEvent ι, e.ofLoop = true ∧ e ≠ .readFails ∧ (s.next e).isSome = true := by
  cases hrearmed : s.rearmed with
  | true => exact ⟨.drain, rfl, by nofun, by simp [next, hrearmed]⟩
  | false =>
    cases hread : s.read with
    | queued => exact ⟨.submit, rfl, by nofun, by simp [next, hread]⟩
    | done => exact ⟨.rearm, rfl, by nofun, by simp [next, hread, hrearmed]⟩
    | inFlight =>
      have hpos : 0 < s.counter := by
        rcases h.wakes hne hwriting with hpos | hdone | hrearmed'
        · exact hpos
        · rw [hread] at hdone
          cases hdone
        · rw [hrearmed] at hrearmed'
          cases hrearmed'
      exact ⟨.readCompletes, rfl, by nofun, by simp [next, hread, hpos]⟩

/-- **The outbox.** When an item waits and no worker is about to write, the
counter is not zero or a drain is to come; every item is handed over once, and
those of one worker in the order of its calls; the main loop can always go on,
and six steps of it are enough for what is in the queue. -/
theorem outbox_delivers (h : (machine ι).Reachable s) :
    (s.queue ≠ [] → (∀ i, s.writing i = false) → 0 < s.counter ∨ s.WakeupPending) ∧
      (∀ i, s.itemsOf i = s.calls i) ∧
      (s.queue ≠ [] → (∀ i, s.writing i = false) →
        ∃ e : OutboxEvent ι, e.ofLoop = true ∧ e ≠ .readFails ∧ (s.next e).isSome = true) ∧
      ∀ es t, (machine ι).play s es = some t → 6 ≤ es.countP (·.ofLoop) →
        s.drained ++ s.queue <+: t.drained := by
  have hinv := inv_of_reachable h
  refine ⟨hinv.wakes, hinv.kept, hinv.loop_enabled, fun es t hplay hcount => ?_⟩
  exact drained_of_steps hplay (s.toGo_bounds.2.trans hcount)

/-- Two workers and an item each; the second item comes between the read of the
counter and the drain, and its own write wakes the main loop once more. -/
theorem outbox_delivers_two :
    ∃ s : Outbox (Fin 2), (machine (Fin 2)).Reachable s ∧ s.drained.length = 2 ∧
      s.counter = 1 ∧ ∀ i, s.itemsOf i = s.calls i := by
  obtain ⟨s, hreach, hdrained, hcounter⟩ :
      ∃ s, (machine (Fin 2)).Reachable s ∧ s.drained.length = 2 ∧ s.counter = 1 :=
    Machine.exists_of_play start rfl
      [.push 0 ⟨.close, 1, []⟩, .write 0, .submit, .readCompletes, .push 1 ⟨.close, 2, []⟩,
        .rearm, .drain, .write 1] (by decide)
  exact ⟨s, hreach, hdrained, hcounter, (outbox_delivers hreach).2.1⟩

end Outbox

end SharedBike.Gateway
