import Mathlib.Data.Option.Basic
import Mathlib.Data.List.Basic

/-!
# Guarded machines and their runs

A machine is a predicate of start states and one guarded step function:
`next s e` is `some t` when the event `e` can happen in `s`, and `none`
when it cannot. Everything the environment chooses (which thread moves,
what a call answers, what a clock reads) is part of the event, so the
step function computes and a run can be replayed.

`Machine.ReachableWhile ok` is what a machine reaches by steps that all
meet `ok`, a condition on the event and on the state before it; plain
reachability is the case with no condition. So "in every run whose steps
all meet the condition" is one predicate, and both cases share one
induction, `Machine.invariant`: what holds at the start and is kept by
every step that meets the condition holds in every state reached.

`Machine.play` replays a list of events. A successful replay from a start
state ends in a reachable state, so a counterexample is a list
(`Machine.exists_of_play`); `Machine.playWhile` also checks a condition
before every step.
-/

namespace SharedBike.Lib

/-- A guarded machine: its start states and its step function. -/
structure Machine (σ ε : Type) where
  init : σ → Prop
  next : σ → ε → Option σ

namespace Machine

variable {σ ε : Type} (M : Machine σ ε)

/-- What a machine reaches by steps that all meet `ok`. -/
inductive ReachableWhile (ok : σ → ε → Prop) : σ → Prop
  | start {s : σ} : M.init s → ReachableWhile ok s
  | step {s t : σ} {e : ε} : ReachableWhile ok s → ok s e → M.next s e = some t →
      ReachableWhile ok t

/-- What a machine reaches at all. -/
abbrev Reachable : σ → Prop := M.ReachableWhile fun _ _ => True

variable {M} {ok : σ → ε → Prop}

/-- **The invariant rule.** -/
theorem invariant {I : σ → Prop} (hinit : ∀ s, M.init s → I s)
    (hstep : ∀ s e t, I s → ok s e → M.next s e = some t → I t) {s : σ}
    (h : M.ReachableWhile ok s) :
    I s := by
  induction h with
  | start hs => exact hinit _ hs
  | step _ hok he ih => exact hstep _ _ _ ih hok he

/-- **The refinement rule.** A view of the states under which every step is a step
of another machine or none takes runs to runs. -/
theorem reachable_map {σ' ε' : Type} {N : Machine σ' ε'} {view : σ → σ'}
    (hinit : ∀ s, M.init s → N.Reachable (view s))
    (hstep : ∀ s e t, M.ReachableWhile ok s → ok s e → M.next s e = some t →
      view t = view s ∨ ∃ e', N.next (view s) e' = some (view t))
    {s : σ} (h : M.ReachableWhile ok s) : N.Reachable (view s) := by
  induction h with
  | start hs => exact hinit _ hs
  | step hs hok he ih =>
    rcases hstep _ _ _ hs hok he with hsame | ⟨e', he'⟩
    · rw [hsame]
      exact ih
    · exact .step ih trivial he'

variable (M) in
/-- Replay a list of events; `none` when one of them is not enabled. -/
def play : σ → List ε → Option σ
  | s, [] => some s
  | s, e :: es => (M.next s e).bind fun t => play t es

theorem play_append (s : σ) (es es' : List ε) :
    M.play s (es ++ es') = (M.play s es).bind fun t => M.play t es' := by
  induction es generalizing s with
  | nil => rfl
  | cons e es ih => simp only [List.cons_append, play, Option.bind_assoc, ih]

/-- Replaying never leaves the reachable states. -/
theorem reachable_of_play {s t : σ} {es : List ε} (hs : M.Reachable s)
    (h : M.play s es = some t) : M.Reachable t := by
  induction es generalizing s with
  | nil => cases h; exact hs
  | cons e es ih =>
    obtain ⟨u, hu, hrest⟩ := Option.bind_eq_some_iff.mp h
    exact ih (.step hs trivial hu) hrest

/-- A replay that ends with a property shows that it can be reached. -/
theorem exists_of_play {P : σ → Prop} (s : σ) (hs : M.init s) (es : List ε)
    (h : ∃ t ∈ M.play s es, P t) : ∃ t, M.Reachable t ∧ P t := by
  obtain ⟨t, hplay, ht⟩ := h
  exact ⟨t, reachable_of_play (.start hs) hplay, ht⟩

variable (M) in
/-- Replay a list of events that all pass a check. -/
def playWhile (check : σ → ε → Bool) : σ → List ε → Option σ
  | s, [] => some s
  | s, e :: es =>
    if check s e then (M.next s e).bind fun t => playWhile check t es else none

/-- Replaying under a check stays with the runs under the condition it checks. -/
theorem reachableWhile_of_playWhile {check : σ → ε → Bool}
    (hcheck : ∀ s e, check s e = true → ok s e) {s t : σ} {es : List ε} (hs : M.ReachableWhile ok s)
    (h : M.playWhile check s es = some t) :
    M.ReachableWhile ok t := by
  induction es generalizing s with
  | nil => cases h; exact hs
  | cons e es ih =>
    rw [playWhile] at h
    split at h
    case isTrue hc =>
      obtain ⟨u, hu, hrest⟩ := Option.bind_eq_some_iff.mp h
      exact ih (.step hs (hcheck s e hc) hu) hrest
    case isFalse => cases h

theorem exists_of_playWhile {check : σ → ε → Bool} (hcheck : ∀ s e, check s e = true → ok s e)
    {P : σ → Prop} (s : σ) (hs : M.init s) (es : List ε)
    (h : ∃ t ∈ M.playWhile check s es, P t) : ∃ t, M.ReachableWhile ok t ∧ P t := by
  obtain ⟨t, hplay, ht⟩ := h
  exact ⟨t, reachableWhile_of_playWhile hcheck (.start hs) hplay, ht⟩

end Machine

end SharedBike.Lib
