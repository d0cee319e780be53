import SharedBike.Lib.Machine
import SharedBike.Lib.Prog
import Mathlib.Logic.Function.Basic

/-!
# Pools of programs

Any number of programs share one state. A turn lets one of them make its
next call; the call is one atomic step, and calls of different programs
interleave in any order. A call that cannot be answered now (a blocked
`acquire`) leaves its program where it is: the turn is not enabled.

Each program carries the phase that its discipline assigns to it, moved on
by every answer. The phases are history: they say what a program has seen
and done so far. `Pool.invariant` is the rule for the whole pool: when
every program obeys the discipline, a property of the shared state and
the phases that every allowed call keeps holds in every state reached.
-/

namespace SharedBike.Lib

open Function

/-- What an update says of an entry was said before, if the new entry says no
more than the old one. -/
theorem of_update {ι Q : Type} [DecidableEq ι] {f : ι → Q} {i : ι} {q : Q} (R : Q → Prop)
    (hq : R q → R (f i)) {j : ι} : R (update f i q j) → R (f j) :=
  (forall_update_iff f fun j q' => R q' → R (f j)).mpr ⟨hq, fun _ _ => id⟩ j

/-- A shared state, the programs at work on it and their phases. -/
structure Pool (σ ι C : Type) (R : C → Type) (α Q : Type) where
  shared : σ
  threads : ι → Prog C R α
  phase : ι → Q

/-- A program's turn, with what its surroundings answer in it. -/
structure Turn (ι ε : Type) where
  thread : ι
  env : ε

namespace Pool

variable {σ ι C ε α Q : Type} {R : C → Type} [DecidableEq ι]

/-- One turn. `exec` answers a call, or refuses it for now. -/
def next (exec : ε → (c : C) → σ → Option (R c × σ)) (D : Discipline C R Q)
    (p : Pool σ ι C R α Q) (e : Turn ι ε) : Option (Pool σ ι C R α Q) :=
  match p.threads e.thread with
  | .done _ => none
  | .call c k =>
    (exec e.env c p.shared).map fun (r, s) =>
      { shared := s
        threads := update p.threads e.thread (k r)
        phase := update p.phase e.thread (D.next (p.phase e.thread) c r) }

/-- All interleavings of the programs `threads`, each from its own first phase,
from the shared states `init`. -/
def machine (exec : ε → (c : C) → σ → Option (R c × σ)) (D : Discipline C R Q)
    (init : σ → Prop) (threads : ι → Prog C R α) (q : ι → Q) :
    Machine (Pool σ ι C R α Q) (Turn ι ε) where
  init p := init p.shared ∧ p.threads = threads ∧ p.phase = q
  next := next exec D

variable {exec : ε → (c : C) → σ → Option (R c × σ)} {D : Discipline C R Q}
  {p t : Pool σ ι C R α Q}

/-- What a turn can do: the program has a call left, it is answered, and only
the shared state and that program move. -/
theorem next_cases {e : Turn ι ε} (h : p.next exec D e = some t) :
    ∃ c k r s, p.threads e.thread = .call c k ∧ exec e.env c p.shared = some (r, s) ∧
      t = ⟨s, update p.threads e.thread (k r),
        update p.phase e.thread (D.next (p.phase e.thread) c r)⟩ := by
  unfold next at h
  split at h
  case h_1 => cases h
  case h_2 c k hc =>
    obtain ⟨⟨r, s⟩, hx, rfl⟩ := Option.map_eq_some_iff.mp h
    exact ⟨c, k, r, s, hc, hx, rfl⟩

/-- Every program obeys its discipline from the phase it is in. -/
def Obedient (D : Discipline C R Q) (Post : Q → α → Prop) (p : Pool σ ι C R α Q) : Prop :=
  ∀ i, (p.threads i).Obeys D Post (p.phase i)

variable {Post : Q → α → Prop}

theorem Obedient.next {e : Turn ι ε} (h : p.Obedient D Post) (hs : p.next exec D e = some t) :
    t.Obedient D Post := by
  obtain ⟨c, k, r, s, hc, -, rfl⟩ := next_cases hs
  intro i
  by_cases hi : i = e.thread
  · subst hi
    have hobey := h e.thread
    rw [hc] at hobey
    simpa only [update_self] using hobey.2 r
  · simpa only [update_of_ne hi] using h i

section Runs

variable {init : σ → Prop} {threads : ι → Prog C R α} {q : ι → Q}
  {ok : Pool σ ι C R α Q → Turn ι ε → Prop}

/-- Programs that obey at the start obey throughout. -/
theorem obedient (hobey : ∀ i, (threads i).Obeys D Post (q i))
    (h : (machine exec D init threads q).ReachableWhile ok p) : p.Obedient D Post := by
  refine Machine.invariant ?_ (fun p e t hob _ hs => hob.next hs) h
  rintro ⟨s, ts, ph⟩ ⟨-, rfl, rfl⟩
  exact hobey

/-- **The pool rule.** When every program obeys the discipline, what each
allowed call keeps of the shared state and the phases holds throughout. -/
theorem invariant {I : σ → (ι → Q) → Prop} (hobey : ∀ i, (threads i).Obeys D Post (q i))
    (hinit : ∀ s, init s → I s q)
    (hstep : ∀ (p : Pool σ ι C R α Q) (e : Turn ι ε) (c : C) (k : R c → Prog C R α) (r : R c)
      (s : σ), I p.shared p.phase → ok p e → p.threads e.thread = .call c k →
      D.allowed (p.phase e.thread) c → exec e.env c p.shared = some (r, s) →
      I s (update p.phase e.thread (D.next (p.phase e.thread) c r)))
    (h : (machine exec D init threads q).ReachableWhile ok p) : I p.shared p.phase := by
  suffices hI : p.Obedient D Post ∧ I p.shared p.phase from hI.2
  refine Machine.invariant (I := fun p => p.Obedient D Post ∧ I p.shared p.phase) ?_ ?_ h
  · rintro ⟨s, ts, ph⟩ ⟨hs, rfl, rfl⟩
    exact ⟨hobey, hinit s hs⟩
  · rintro p e t ⟨hob, hI⟩ hok hs
    refine ⟨hob.next hs, ?_⟩
    obtain ⟨c, k, r, s, hc, hx, rfl⟩ := next_cases hs
    have hallowed := hob e.thread
    rw [hc] at hallowed
    exact hstep p e c k r s hI hok hc hallowed.1 hx

end Runs

end Pool

/-! ## One program's turns in a row -/

namespace Prog

variable {σ C ε α β : Type} {R : C → Type}

/-- What a program comes to by calls that are answered, with nobody else moving. -/
inductive Steps (exec : ε → (c : C) → σ → Option (R c × σ)) :
    σ → Prog C R α → σ → Prog C R α → Prop
  | refl (s : σ) (p : Prog C R α) : Steps exec s p s p
  | step {s s' t : σ} {c : C} {k : R c → Prog C R α} {r : R c} {q : Prog C R α} (e : ε) :
      exec e c s = some (r, s') → Steps exec s' (k r) t q → Steps exec s (.call c k) t q

variable {exec : ε → (c : C) → σ → Option (R c × σ)} {s s' t : σ} {p q : Prog C R α}

theorem Steps.trans {u : Prog C R α} (h : Steps exec s p s' q) (h' : Steps exec s' q t u) :
    Steps exec s p t u := by
  induction h with
  | refl => exact h'
  | step e hx _ ih => exact .step e hx (ih h')

theorem Steps.bind (h : Steps exec s p s' q) (f : α → Prog C R β) :
    Steps exec s (p >>= f) s' (q >>= f) := by
  induction h with
  | refl => exact .refl _ _
  | step e hx _ ih => exact .step e hx ih

end Prog

namespace Pool

variable {σ ι C ε α Q : Type} {R : C → Type} [DecidableEq ι]
  {exec : ε → (c : C) → σ → Option (R c × σ)} {D : Discipline C R Q} {init : σ → Prop}
  {threads : ι → Prog C R α} {q : ι → Q}

/-- A pool can let one program make its steps alone. -/
theorem reachable_of_steps {p : Pool σ ι C R α Q} (h : (machine exec D init threads q).Reachable p)
    {i : ι} {t : σ} {u : Prog C R α} (hs : Prog.Steps exec p.shared (p.threads i) t u) :
    ∃ p', (machine exec D init threads q).Reachable p' ∧ p'.shared = t ∧
      p'.threads = update p.threads i u := by
  obtain ⟨s, ts, ph⟩ := p
  dsimp only at hs
  generalize hi : ts i = v at hs
  induction hs generalizing ts ph with
  | refl s v => exact ⟨_, h, rfl, by rw [← hi, update_eq_self]⟩
  | @step s s' t c k r u e hx _ ih =>
    have hnext : (machine exec D init threads q).next ⟨s, ts, ph⟩ ⟨i, e⟩ =
        some ⟨s', update ts i (k r), update ph i (D.next (ph i) c r)⟩ := by
      simp only [machine, next, hi, hx, Option.map_some]
    obtain ⟨p', hp', hshared, hthreads⟩ := ih (update ts i (k r)) _ (.step h trivial hnext)
      (update_self i (k r) ts)
    refine ⟨p', hp', hshared, ?_⟩
    rw [hthreads, update_idem]

end Pool

end SharedBike.Lib
