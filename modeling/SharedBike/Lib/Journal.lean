import SharedBike.Lib.Pool
import Mathlib.Data.List.Infix

/-!
# Pools that keep a record

A pool of programs that writes down every call that is answered: which program made
it, what its surroundings were and what it was told. The record is history that no
program reads. It lets a property speak of what must have happened before: an entry
that stands on others has them behind it.

The newest entry stands first, so what came before an entry is a suffix of the
record. `Founded` says that every entry is backed by its past, and `Recorded.invariant`
is the pool rule for properties that also speak of the record.
-/

namespace SharedBike.Lib

open Function

/-- A call that was answered. -/
structure Entry (ι ε C : Type) (R : C → Type) where
  thread : ι
  env : ε
  call : C
  answer : R call

/-- Every entry is backed by what came before it. -/
def Founded {E : Type} (backed : List E → E → Prop) (log : List E) : Prop :=
  ∀ e past, e :: past <:+ log → backed past e

theorem Founded.nil {E : Type} (backed : List E → E → Prop) : Founded backed [] := by
  intro e past h
  have hlength := h.length_le
  simp at hlength

theorem Founded.cons {E : Type} {backed : List E → E → Prop} {log : List E}
    (h : Founded backed log) {e : E} (he : backed log e) : Founded backed (e :: log) := by
  intro e' past hsuffix
  rcases List.suffix_cons_iff.mp hsuffix with heq | hold
  · cases heq
    exact he
  · exact h e' past hold

/-- Some entry of the record, with what came before it. -/
def Earlier {E : Type} (log : List E) (did : E → List E → Prop) : Prop :=
  ∃ e past, e :: past <:+ log ∧ did e past

namespace Earlier

variable {E : Type} {log log' : List E} {did : E → List E → Prop}

theorem now {e : E} (h : did e log) : Earlier (e :: log) did := ⟨e, log, List.suffix_refl _, h⟩

theorem later (h : Earlier log did) (hlog : log <:+ log') : Earlier log' did := by
  obtain ⟨e, past, hsuffix, hdid⟩ := h
  exact ⟨e, past, hsuffix.trans hlog, hdid⟩

end Earlier

/-- A pool and the record of its calls. -/
structure Recorded (σ ι ε C : Type) (R : C → Type) (α Q : Type) extends Pool σ ι C R α Q where
  log : List (Entry ι ε C R)

namespace Recorded

variable {σ ι C ε α Q : Type} {R : C → Type} [DecidableEq ι]

def next (exec : ε → (c : C) → σ → Option (R c × σ)) (D : Discipline C R Q)
    (p : Recorded σ ι ε C R α Q) (e : Turn ι ε) : Option (Recorded σ ι ε C R α Q) :=
  match p.threads e.thread with
  | .done _ => none
  | .call c k =>
    (exec e.env c p.shared).map fun (r, s) =>
      { shared := s
        threads := update p.threads e.thread (k r)
        phase := update p.phase e.thread (D.next (p.phase e.thread) c r)
        log := ⟨e.thread, e.env, c, r⟩ :: p.log }

/-- All interleavings of the programs, from an empty record. -/
def machine (exec : ε → (c : C) → σ → Option (R c × σ)) (D : Discipline C R Q)
    (init : σ → Prop) (threads : ι → Prog C R α) (q : ι → Q) :
    Machine (Recorded σ ι ε C R α Q) (Turn ι ε) where
  init p := init p.shared ∧ p.threads = threads ∧ p.phase = q ∧ p.log = []
  next := next exec D

variable {exec : ε → (c : C) → σ → Option (R c × σ)} {D : Discipline C R Q}
  {init : σ → Prop} {threads : ι → Prog C R α} {q : ι → Q} {Post : Q → α → Prop}
  {ok : Recorded σ ι ε C R α Q → Turn ι ε → Prop} {p t : Recorded σ ι ε C R α Q}

theorem next_cases {e : Turn ι ε} (h : p.next exec D e = some t) :
    ∃ c k r s, p.threads e.thread = .call c k ∧ exec e.env c p.shared = some (r, s) ∧
      t = ⟨⟨s, update p.threads e.thread (k r),
        update p.phase e.thread (D.next (p.phase e.thread) c r)⟩,
        ⟨e.thread, e.env, c, r⟩ :: p.log⟩ := by
  unfold next at h
  split at h
  case h_1 => cases h
  case h_2 c k hc =>
    obtain ⟨⟨r, s⟩, hx, rfl⟩ := Option.map_eq_some_iff.mp h
    exact ⟨c, k, r, s, hc, hx, rfl⟩

/-- **The pool rule**, with the record. -/
theorem invariant {I : σ → (ι → Q) → List (Entry ι ε C R) → Prop}
    (hobey : ∀ i, (threads i).Obeys D Post (q i)) (hinit : ∀ s, init s → I s q [])
    (hstep : ∀ (p : Recorded σ ι ε C R α Q) (e : Turn ι ε) (c : C) (r : R c) (s : σ),
      I p.shared p.phase p.log → ok p e → D.allowed (p.phase e.thread) c →
      exec e.env c p.shared = some (r, s) →
      I s (update p.phase e.thread (D.next (p.phase e.thread) c r))
        (⟨e.thread, e.env, c, r⟩ :: p.log))
    (h : (machine exec D init threads q).ReachableWhile ok p) : I p.shared p.phase p.log := by
  suffices hI : p.Obedient D Post ∧ I p.shared p.phase p.log from hI.2
  refine Machine.invariant (I := fun p => p.Obedient D Post ∧ I p.shared p.phase p.log) ?_ ?_ h
  · rintro ⟨⟨s, ts, ph⟩, log⟩ ⟨hs, rfl, rfl, rfl⟩
    exact ⟨hobey, hinit s hs⟩
  · rintro p e t ⟨hob, hI⟩ hok hs
    obtain ⟨c, k, r, s, hc, hx, rfl⟩ := next_cases hs
    have hthread := hob e.thread
    rw [hc] at hthread
    have hturn : p.toPool.next exec D e = some ⟨s, update p.threads e.thread (k r),
        update p.phase e.thread (D.next (p.phase e.thread) c r)⟩ := by
      simp only [Pool.next, hc, hx, Option.map_some]
    exact ⟨hob.next hturn, hstep p e c r s hI hok hthread.1 hx⟩

end Recorded

end SharedBike.Lib
