import Mathlib.Data.Prod.Basic

/-!
# Programs over calls

Code that talks to stores is a tree of calls: `Prog C R α` either is done
with a value, or makes a call `c : C` and goes on with whatever answer of
type `R c` comes back. What a call does is not part of the tree. So one
definition of a handler has two readings: `Prog.run` answers the calls one
after the other from a state nobody else touches, and a pool of programs
(`SharedBike.Lib.Pool`) interleaves the calls of many.

A `Discipline` says in what order calls may be made: in phase `q` the
calls `allowed q` are, and the answer moves the phase on. `Prog.Obeys` is
checked once for each program, over every answer, and then carries every
invariant: `Obeys.run` for the sequential reading, `Pool.invariant` for
the interleaved one. Neither looks into a program again. `Prog.Makes` is
the plain form with no phases, and `Makes.simulate` compares the runs of one
program from two states. `Prog.Gives` is about the value at the end.
-/

namespace SharedBike.Lib

/-- A program: a value, or a call and what to do with its answer. -/
inductive Prog (C : Type) (R : C → Type) (α : Type) where
  | done (a : α)
  | call (c : C) (k : R c → Prog C R α)

namespace Prog

variable {C : Type} {R : C → Type} {α β : Type}

protected def bind : Prog C R α → (α → Prog C R β) → Prog C R β
  | .done a, f => f a
  | .call c k, f => .call c fun r => (k r).bind f

instance : Monad (Prog C R) where
  pure := .done
  bind := .bind

/-- Make one call and return its answer. -/
def ask (c : C) : Prog C R (R c) := .call c .done

@[simp] theorem pure_eq (a : α) : (pure a : Prog C R α) = .done a := rfl

@[simp] theorem done_bind (a : α) (f : α → Prog C R β) : (Prog.done a >>= f) = f a := rfl

@[simp] theorem call_bind (c : C) (k : R c → Prog C R α) (f : α → Prog C R β) :
    (Prog.call c k >>= f) = .call c fun r => k r >>= f := rfl

@[simp] theorem ask_bind (c : C) (f : R c → Prog C R β) : (ask c >>= f) = .call c f := rfl

/-- What a program that is done has come to. -/
def result : Prog C R α → Option α
  | .done a => some a
  | .call _ _ => none

/-- Every call carried out by a program of finer calls. -/
def expand {D : Type} {S : D → Type} (f : (c : C) → Prog D S (R c)) : Prog C R α → Prog D S α
  | .done a => .done a
  | .call c k => f c >>= fun r => (k r).expand f

/-! ## Running a program on its own -/

section Run

variable {σ : Type} (exec : (c : C) → σ → R c × σ)

/-- Answer every call in turn, from a state that nobody else touches. -/
def run : Prog C R α → σ → α × σ
  | .done a, s => (a, s)
  | .call c k, s => run (k (exec c s).1) (exec c s).2

@[simp] theorem run_done (a : α) (s : σ) : run exec (.done a) s = (a, s) := rfl

@[simp] theorem run_call (c : C) (k : R c → Prog C R α) (s : σ) :
    run exec (.call c k) s = run exec (k (exec c s).1) (exec c s).2 := rfl

@[simp] theorem run_ask (c : C) (s : σ) : run exec (ask c) s = exec c s := rfl

/-- Sequencing runs the first program and then the second from where it ended. -/
theorem run_bind (p : Prog C R α) (f : α → Prog C R β) (s : σ) :
    run exec (p >>= f) s = run exec (f (run exec p s).1) (run exec p s).2 := by
  induction p generalizing s with
  | done a => rfl
  | call c k ih => exact ih _ _

/-- A part of the state that answers the calls by itself runs by itself. -/
theorem run_map {τ : Type} (part : (c : C) → τ → R c × τ) (f : σ → τ)
    (h : ∀ c s, part c (f s) = Prod.map id f (exec c s)) (p : Prog C R α) (s : σ) :
    run part p (f s) = Prod.map id f (run exec p s) := by
  induction p generalizing s with
  | done a => rfl
  | call c k ih =>
    rw [run_call, run_call, h]
    exact ih _ _

/-- The calls that a run makes, in their order. -/
def calls : Prog C R α → σ → List C
  | .done _, _ => []
  | .call c k, s => c :: calls (k (exec c s).1) (exec c s).2

@[simp] theorem calls_done (a : α) (s : σ) : calls exec (.done a : Prog C R α) s = [] := rfl

@[simp] theorem calls_call (c : C) (k : R c → Prog C R α) (s : σ) :
    calls exec (.call c k) s = c :: calls exec (k (exec c s).1) (exec c s).2 := rfl

theorem calls_bind (p : Prog C R α) (f : α → Prog C R β) (s : σ) :
    calls exec (p >>= f) s =
      calls exec p s ++ calls exec (f (run exec p s).1) (run exec p s).2 := by
  induction p generalizing s with
  | done a => rfl
  | call c k ih => exact congrArg (c :: ·) (ih _ _)

/-- The state after some calls. -/
def after (s : σ) (cs : List C) : σ := cs.foldl (fun s c => (exec c s).2) s

@[simp] theorem after_nil (s : σ) : after exec s [] = s := rfl

@[simp] theorem after_cons (s : σ) (c : C) (cs : List C) :
    after exec s (c :: cs) = after exec (exec c s).2 cs := rfl

theorem after_append (s : σ) (cs ds : List C) :
    after exec s (cs ++ ds) = after exec (after exec s cs) ds := List.foldl_append

/-- A run ends in the state after its calls. -/
theorem run_snd (p : Prog C R α) (s : σ) : (run exec p s).2 = after exec s (calls exec p s) := by
  induction p generalizing s with
  | done a => rfl
  | call c k ih => exact ih _ _

/-- What every one of the calls keeps, all of them keep. -/
theorem after_keeps {I : σ → Prop} {cs : List C}
    (hstep : ∀ c ∈ cs, ∀ s, I s → I (exec c s).2) {s : σ} (hs : I s) : I (after exec s cs) := by
  induction cs generalizing s with
  | nil => exact hs
  | cons c cs ih =>
    exact ih (fun c' hc' => hstep c' (List.mem_cons_of_mem c hc'))
      (hstep c List.mem_cons_self s hs)

/-- A program of finer calls runs as the one it was made of, with each call
answered by its part. -/
theorem run_expand {D : Type} {S : D → Type} (f : (c : D) → Prog C R (S c)) (p : Prog D S α)
    (s : σ) : run exec (p.expand f) s = run (fun c => run exec (f c)) p s := by
  induction p generalizing s with
  | done a => rfl
  | call c k ih => rw [expand, run_bind, run_call, ih]

end Run

end Prog

/-! ## What a program can be seen to call -/

namespace Prog

variable {C : Type} {R : C → Type} {α β : Type} {can : (c : C) → R c → Prop} {may : C → Prop}
  {Q : α → Prop}

/-- Every call is one that the program `may` make, as long as every answer is
one that `can` be given. -/
def Makes (can : (c : C) → R c → Prop) (may : C → Prop) : Prog C R α → Prop
  | .done _ => True
  | .call c k => may c ∧ ∀ r, can c r → Makes can may (k r)

theorem Makes.done (a : α) : (Prog.done a : Prog C R α).Makes can may := trivial

theorem Makes.ask {c : C} {k : R c → Prog C R α} (hc : may c)
    (hk : ∀ r, can c r → (k r).Makes can may) : (Prog.ask c >>= k).Makes can may :=
  ⟨hc, hk⟩

theorem Makes.bind {p : Prog C R α} {f : α → Prog C R β} (h : p.Makes can may)
    (hf : ∀ a, (f a).Makes can may) : (p >>= f).Makes can may := by
  induction p with
  | done a => exact hf a
  | call c k ih => exact ⟨h.1, fun r hr => ih r (h.2 r hr)⟩

theorem Makes.ite {b : Prop} [Decidable b] {x y : Prog C R α} (hx : b → x.Makes can may)
    (hy : ¬ b → y.Makes can may) : (if b then x else y).Makes can may := by
  split
  · exact hx ‹_›
  · exact hy ‹_›

theorem Makes.of_all (h : ∀ c, may c) (p : Prog C R α) : p.Makes can may := by
  induction p with
  | done a => exact .done a
  | call c k ih => exact ⟨h c, fun r _ => ih r⟩

theorem Makes.mono {may' : C → Prop} {p : Prog C R α} (h : p.Makes can may)
    (hmay : ∀ c, may c → may' c) : p.Makes can may' := by
  induction p with
  | done a => exact .done a
  | call c k ih => exact ⟨hmay c h.1, fun r hr => ih r (h.2 r hr)⟩

/-- What every such call keeps, a whole run keeps. -/
theorem Makes.run {σ : Type} {exec : (c : C) → σ → R c × σ} {I : σ → Prop} {p : Prog C R α}
    (h : p.Makes can may)
    (hstep : ∀ c s, I s → may c → can c (exec c s).1 ∧ I (exec c s).2) {s : σ} (hs : I s) :
    I (p.run exec s).2 := by
  induction p generalizing s with
  | done a => exact hs
  | call c k ih =>
    obtain ⟨hcan, hI⟩ := hstep c s hs h.1
    exact ih _ (h.2 _ hcan) hI

/-- Every call of a run is one that the program may make. -/
theorem Makes.calls {σ : Type} {exec : (c : C) → σ → R c × σ} {p : Prog C R α}
    (h : p.Makes can may) (hcan : ∀ c s, can c (exec c s).1) (s : σ) :
    ∀ c ∈ p.calls exec s, may c := by
  induction p generalizing s with
  | done a => exact fun _ hmem => absurd hmem List.not_mem_nil
  | call c k ih => exact List.forall_mem_cons.mpr ⟨h.1, ih _ (h.2 _ (hcan c s)) _⟩

/-- **The simulation rule.** Two states that answer every call of the program
alike, and stay related by it, take the program to the same result. -/
theorem Makes.simulate {σ τ : Type} {exec : (c : C) → σ → R c × σ} {exec' : (c : C) → τ → R c × τ}
    {Rel : σ → τ → Prop} {p : Prog C R α} (h : p.Makes can may)
    (hstep : ∀ c s t, Rel s t → may c → can c (exec c s).1 ∧ (exec' c t).1 = (exec c s).1 ∧
      Rel (exec c s).2 (exec' c t).2)
    {s : σ} {t : τ} (hst : Rel s t) :
    (p.run exec' t).1 = (p.run exec s).1 ∧ Rel (p.run exec s).2 (p.run exec' t).2 := by
  induction p generalizing s t with
  | done a => exact ⟨rfl, hst⟩
  | call c k ih =>
    obtain ⟨hcan, hsame, hrel⟩ := hstep c s t hst h.1
    rw [run_call, run_call, hsame]
    exact ih _ (h.2 _ hcan) hrel

/-- The value at the end meets `Q`, as long as every answer is one that `can` be given. -/
def Gives (can : (c : C) → R c → Prop) (Q : α → Prop) : Prog C R α → Prop
  | .done a => Q a
  | .call c k => ∀ r, can c r → Gives can Q (k r)

theorem Gives.ask {c : C} {k : R c → Prog C R α} (hk : ∀ r, can c r → (k r).Gives can Q) :
    (Prog.ask c >>= k).Gives can Q :=
  hk

theorem Gives.bind {Q : β → Prop} {M : α → Prop} {p : Prog C R α} {f : α → Prog C R β}
    (h : p.Gives can M) (hf : ∀ a, M a → (f a).Gives can Q) : (p >>= f).Gives can Q := by
  induction p with
  | done a => exact hf a h
  | call c k ih => exact fun r hr => ih r (h r hr)

theorem Gives.ite {b : Prop} [Decidable b] {x y : Prog C R α} (hx : b → x.Gives can Q)
    (hy : ¬ b → y.Gives can Q) : (if b then x else y).Gives can Q := by
  split
  · exact hx ‹_›
  · exact hy ‹_›

theorem Gives.run {σ : Type} {exec : (c : C) → σ → R c × σ} {I : σ → Prop} {p : Prog C R α}
    (h : p.Gives can Q) (hstep : ∀ c s, I s → can c (exec c s).1 ∧ I (exec c s).2) {s : σ}
    (hs : I s) :
    Q (p.run exec s).1 := by
  induction p generalizing s with
  | done a => exact h
  | call c k ih =>
    obtain ⟨hcan, hI⟩ := hstep c s hs
    exact ih _ (h _ hcan) hI

end Prog

/-! ## Call disciplines -/

/-- In which phase which calls may be made, and where their answers lead. -/
structure Discipline (C : Type) (R : C → Type) (Q : Type) where
  allowed : Q → C → Prop
  next : (q : Q) → (c : C) → R c → Q

namespace Prog

variable {C : Type} {R : C → Type} {Q α β : Type} {D : Discipline C R Q}

/-- Whatever the answers are, the program makes only allowed calls, and it
ends in a phase and with a value that meet `Post`. -/
def Obeys (D : Discipline C R Q) (Post : Q → α → Prop) : Q → Prog C R α → Prop
  | q, .done a => Post q a
  | q, .call c k => D.allowed q c ∧ ∀ r, Obeys D Post (D.next q c r) (k r)

variable {Post Post' : Q → α → Prop} {q : Q}

theorem Obeys.mono {p : Prog C R α} (h : p.Obeys D Post q)
    (hpost : ∀ q' a, Post q' a → Post' q' a) : p.Obeys D Post' q := by
  induction p generalizing q with
  | done a => exact hpost q a h
  | call c k ih => exact ⟨h.1, fun r => ih r (h.2 r)⟩

/-- What obeys one discipline obeys another that its phases lead to. -/
theorem Obeys.map {Q' : Type} {D' : Discipline C R Q'} {Out : Q' → α → Prop} {p : Prog C R α}
    (h : p.Obeys D Post q) (f : Q → Q') (hallowed : ∀ q c, D.allowed q c → D'.allowed (f q) c)
    (hnext : ∀ q c r, f (D.next q c r) = D'.next (f q) c r)
    (hpost : ∀ q a, Post q a → Out (f q) a) : p.Obeys D' Out (f q) := by
  induction p generalizing q with
  | done a => exact hpost q a h
  | call c k ih =>
    refine ⟨hallowed q c h.1, fun r => ?_⟩
    rw [← hnext]
    exact ih r (h.2 r)

/-- What obeys a discipline makes the calls that its phases allow, as long as the answers
keep them within `I`. -/
theorem Obeys.makes {can : (c : C) → R c → Prop} {may may' : C → Prop} {I : Q → Prop}
    {p : Prog C R α} (h : p.Obeys D Post q) (hp : p.Makes can may) (hq : I q)
    (hstep : ∀ q c, I q → D.allowed q c → may c →
      may' c ∧ ∀ r, can c r → I (D.next q c r)) : p.Makes can may' := by
  induction p generalizing q with
  | done a => exact .done a
  | call c k ih =>
    obtain ⟨hmay, hnext⟩ := hstep q c hq h.1 hp.1
    exact ⟨hmay, fun r hr => ih r (h.2 r) (hp.2 r hr) (hnext r hr)⟩

/-- Sequencing: the second part starts in whatever phase the first one ends in. -/
theorem Obeys.bind {p : Prog C R α} {f : α → Prog C R β} {Out : Q → β → Prop}
    (h : p.Obeys D Post q) (hf : ∀ q' a, Post q' a → (f a).Obeys D Out q') :
    (p >>= f).Obeys D Out q := by
  induction p generalizing q with
  | done a => exact hf q a h
  | call c k ih => exact ⟨h.1, fun r => ih r (h.2 r)⟩

/-- One call that is allowed, and the rest from the phase it leads to. -/
theorem Obeys.ask {c : C} {k : R c → Prog C R α} (hc : D.allowed q c)
    (hk : ∀ r, (k r).Obeys D Post (D.next q c r)) : (Prog.ask c >>= k).Obeys D Post q :=
  ⟨hc, hk⟩

theorem Obeys.ite {b : Prop} [Decidable b] {x y : Prog C R α} (hx : b → x.Obeys D Post q)
    (hy : ¬ b → y.Obeys D Post q) : (if b then x else y).Obeys D Post q := by
  split
  · exact hx ‹_›
  · exact hy ‹_›

/-- A program of finer calls obeys what its parts obey one by one. -/
theorem Obeys.expand {C' : Type} {R' : C' → Type} {D' : Discipline C' R' Q}
    {f : (c : C') → Prog C R (R' c)} {p : Prog C' R' α} (h : p.Obeys D' Post q)
    (hf : ∀ q c, D'.allowed q c → (f c).Obeys D (fun q' r => q' = D'.next q c r) q) :
    (p.expand f).Obeys D Post q := by
  induction p generalizing q with
  | done a => exact h
  | call c k ih =>
    refine (hf q c h.1).bind fun q' r hq => ?_
    subst hq
    exact ih r (h.2 r)

/-- **The sequential rule.** What every allowed call keeps, a whole run keeps. -/
theorem Obeys.run {σ : Type} {exec : (c : C) → σ → R c × σ} {I : Q → σ → Prop}
    (hstep : ∀ q c s, I q s → D.allowed q c → I (D.next q c (exec c s).1) (exec c s).2)
    {p : Prog C R α} (h : p.Obeys D Post q) {s : σ} (hs : I q s) :
    ∃ q', Post q' (p.run exec s).1 ∧ I q' (p.run exec s).2 := by
  induction p generalizing q s with
  | done a => exact ⟨q, h, hs⟩
  | call c k ih => exact ih _ (h.2 _) (hstep q c s hs h.1)

end Prog

end SharedBike.Lib
