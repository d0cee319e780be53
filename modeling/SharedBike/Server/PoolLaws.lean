import SharedBike.Server.World
import SharedBike.Lib.Pool
import Mathlib.Algebra.BigOperators.Group.Finset.Piecewise
import Mathlib.Algebra.Order.BigOperators.Group.Finset
import Mathlib.Data.Fintype.Card

/-!
# When the connection pool deadlocks

`MysqlPool` and any number of threads that run repository operations on it,
one after the other. An `acquire` on an empty pool waits; statements are
answered in any way at all. Two operations hold their lease while they call
another operation: `add_balance` ends in `get_balance`, and `find_or_create`
looks again when its insertion fails.

`deadlock_iff`: a pool of `n ≥ 1` connections can deadlock exactly when at
least `n` of the threads have such an operation to run. Below that number
some thread always holds a lease and needs no other one, by counting
(`Leased`). From it on, `n` threads can each take one lease and wait for the
next (`stuck`).
-/

namespace SharedBike.Server

open SharedBike.Lib Function

/-! ## The pool -/

/-- What the server answers to each statement. -/
abbrev Answers := (stmt : Stmt) → Option stmt.Rows

/-- `MysqlPool`: `acquire` takes the front of the queue, and waits while there
is none; `return_` puts a connection back at its end. -/
def MysqlPool.exec (answers : Answers) : (c : SqlCall) → List Nat → Option (c.Res × List Nat)
  | .acquire, [] => none
  | .acquire, conn :: pool => some (conn, pool)
  | .release conn, pool => some ((), pool ++ [conn])
  | .query _ _ stmt, pool => some (answers stmt, pool)

namespace Mysql

/-- What a thread runs: operations in order. -/
def worker (P : Platform) : List RepoCall → Sql Unit
  | [] => return ()
  | c :: rest =>
    match operation P c with
    | some p => do
      let _ ← p
      worker P rest
    | none => worker P rest

/-- The operations that call another one while they hold their lease. -/
def nests : RepoCall → Bool
  | .addBalance _ _ _ | .findOrCreate _ => true
  | _ => false

end Mysql

/-! ## Leases held -/

/-- How many leases a thread holds, and whether its operations nest. -/
structure Leases where
  held : Nat
  deep : Bool

namespace Leases

/-- A lease is taken with none in hand, or with one by an operation that nests. -/
def discipline : Discipline SqlCall SqlCall.Res Leases where
  allowed q
    | .acquire => q.held = 0 ∨ q.deep = true ∧ q.held = 1
    | .release _ => 0 < q.held
    | .query _ _ _ => True
  next q
    | .acquire, _ => { q with held := q.held + 1 }
    | .release _, _ => { q with held := q.held - 1 }
    | .query _ _ _, _ => q

/-- A program that ends with the leases it began with. -/
abbrev Balanced {α : Type} (q : Leases) (p : Sql α) : Prop :=
  p.Obeys discipline (fun q' _ => q' = q) q

variable {α β : Type} {q : Leases}

theorem Balanced.seq {p : Sql α} {f : α → Sql β} (hp : Balanced q p)
    (hf : ∀ a, Balanced q (f a)) : Balanced q (p >>= f) :=
  hp.bind fun _ a hq => hq ▸ hf a

theorem balanced_done (a : α) : Balanced q (.done a) := rfl

theorem balanced_query (conn : Nat) (site : Option Site) (stmt : Stmt) :
    Balanced q (Prog.ask (SqlCall.query conn site stmt)) :=
  ⟨trivial, fun _ => rfl⟩

theorem balanced_ite {b : Prop} [Decidable b] {x y : Sql α} (hx : Balanced q x)
    (hy : Balanced q y) : Balanced q (if b then x else y) := by
  split
  · exact hx
  · exact hy

theorem balanced_withLease {body : Nat → Sql α}
    (hq : q.held = 0 ∨ q.deep = true ∧ q.held = 1)
    (hbody : ∀ conn, Balanced { q with held := q.held + 1 } (body conn)) :
    Balanced q (Mysql.withLease body) := by
  refine ⟨hq, fun conn => (hbody conn).bind fun q' a hq' => ?_⟩
  subst hq'
  exact ⟨Nat.succ_pos _, fun _ => rfl⟩

theorem balanced_single {site : Site} {stmt : Stmt} {f : Option stmt.Rows → α}
    (hq : q.held = 0 ∨ q.deep = true ∧ q.held = 1) : Balanced q (Mysql.single site stmt f) :=
  balanced_withLease hq fun conn => (balanced_query conn _ stmt).seq fun _ => balanced_done _

theorem balanced_run (conn : Nat) (site : Site) (stmt : Stmt) :
    Balanced q (Mysql.run conn site stmt) :=
  (balanced_query conn _ stmt).seq fun _ => balanced_done _

theorem balanced_rollback (conn : Nat) : Balanced q (Mysql.rollback conn) :=
  (balanced_query conn _ _).seq fun _ => balanced_done _

theorem balanced_runAll (conn : Nat) (stmts : List (Site × Stmt)) :
    Balanced q (Mysql.runAll conn stmts) := by
  induction stmts with
  | nil => exact balanced_done _
  | cons x rest ih =>
    exact (balanced_run conn x.1 x.2).seq fun ok => balanced_ite (balanced_done _) ih

/-- `get_balance` is called with the lease of the transaction in hand. -/
theorem balanced_addBalance (uid : Int32) (type : RecordType) (amount : Int32) :
    Balanced ⟨0, true⟩ (Mysql.addBalance uid type amount) := by
  have hread : Balanced ⟨1, true⟩ (Mysql.getBalance uid) := balanced_single (.inr ⟨rfl, rfl⟩)
  refine balanced_withLease (.inl rfl) fun conn => (balanced_run conn _ _).seq fun _ => ?_
  refine balanced_ite hread ((balanced_runAll conn _).seq fun _ => ?_)
  refine balanced_ite ((balanced_rollback conn).seq fun _ => hread) ?_
  refine (balanced_run conn _ _).seq fun _ => ?_
  exact balanced_ite ((balanced_rollback conn).seq fun _ => hread) hread

/-- The first lookup returns its lease; the second is made with the lease of
the failed insertion in hand. -/
theorem balanced_findOrCreate (mobile : String) :
    Balanced ⟨0, true⟩ (Mysql.findOrCreate mobile) := by
  refine (balanced_single (.inl rfl)).seq fun found => ?_
  cases found with
  | some existing => exact balanced_done _
  | none =>
    refine balanced_withLease (.inl rfl) fun conn => (balanced_query conn _ _).seq fun res => ?_
    cases res with
    | none => exact (balanced_single (.inr ⟨rfl, rfl⟩)).seq fun _ => balanced_done _
    | some id => exact balanced_done _

theorem balanced_createWithPoints (deep : Bool) (inp : CreateRideInput) :
    Balanced ⟨0, deep⟩ (Mysql.createWithPoints inp) := by
  refine balanced_withLease (.inl rfl) fun conn => (balanced_run conn _ _).seq fun _ => ?_
  refine balanced_ite (balanced_done _) ((balanced_query conn _ _).seq fun res => ?_)
  have hback : Balanced ⟨1, deep⟩ (Mysql.rollback conn >>= fun _ => (return .empty : Sql Ride)) :=
    (balanced_rollback conn).seq fun _ => balanced_done _
  cases res with
  | none => exact hback
  | some rideId =>
    refine (balanced_runAll conn _).seq fun _ => balanced_ite hback ?_
    exact (balanced_run conn _ _).seq fun _ => balanced_ite hback (balanced_done _)

/-- Every operation gives its leases back, and only the nesting ones take a second. -/
theorem balanced_operation {P : Platform} {c : RepoCall} {p : Sql c.Res} {deep : Bool}
    (h : Mysql.operation P c = some p) (hdeep : Mysql.nests c = true → deep = true) :
    Balanced ⟨0, deep⟩ p := by
  cases c with
  | addBalance uid type amount =>
    cases h
    cases hdeep rfl
    exact balanced_addBalance uid type amount
  | findOrCreate mobile =>
    cases h
    cases hdeep rfl
    exact balanced_findOrCreate mobile
  | createWithPoints inp =>
    cases h
    exact balanced_createWithPoints deep inp
  | _ =>
    cases h <;> exact balanced_single (.inl rfl)

theorem balanced_worker (P : Platform) {ops : List RepoCall} {deep : Bool}
    (hdeep : ∀ c ∈ ops, Mysql.nests c = true → deep = true) :
    Balanced ⟨0, deep⟩ (Mysql.worker P ops) := by
  induction ops with
  | nil => exact balanced_done _
  | cons c rest ih =>
    have hrest := ih fun c' hc' => hdeep c' (List.mem_cons_of_mem c hc')
    unfold Mysql.worker
    split
    next p hp =>
      exact (balanced_operation hp (hdeep c List.mem_cons_self)).seq fun _ => hrest
    · exact hrest

end Leases

/-! ## Threads and deadlocks -/

section Threads

variable {P : Platform} {ι : Type} [DecidableEq ι] {n : Nat} {ops : ι → List RepoCall}

/-- The free connections and the threads. -/
abbrev Threads (ι : Type) := Pool (List Nat) ι SqlCall SqlCall.Res Unit Leases

/-- A pool of `n` connections, and for each thread the operations it runs. -/
def poolRuns (P : Platform) (n : Nat) (ops : ι → List RepoCall) :
    Machine (Threads ι) (Turn ι Answers) :=
  Pool.machine MysqlPool.exec Leases.discipline (· = List.range n)
    (fun i => Mysql.worker P (ops i)) (fun i => ⟨0, (ops i).any Mysql.nests⟩)

namespace Threads

def Unfinished (p : Threads ι) (i : ι) : Prop := ∀ a, p.threads i ≠ .done a

/-- The thread is in `acquire`, and the pool is empty. -/
def Waits (p : Threads ι) (i : ι) : Prop := p.shared = [] ∧ ∃ k, p.threads i = .call .acquire k

def Deadlocked (p : Threads ι) : Prop :=
  (∃ i, p.Unfinished i) ∧ ∀ i, p.Unfinished i → p.Waits i

omit [DecidableEq ι] in
theorem finished_or_waits {p : Threads ι} (h : p.Deadlocked) (i : ι) :
    (∃ a, p.threads i = .done a) ∨ p.Waits i := by
  by_cases hi : p.Unfinished i
  · exact .inr (h.2 i hi)
  · simp only [Unfinished, not_forall, not_not] at hi
    exact .inl hi

/-- A deadlock is the end: no thread has a turn. -/
theorem Deadlocked.next_none {p : Threads ι} (h : p.Deadlocked) (e : Turn ι Answers) :
    (poolRuns P n ops).next p e = none := by
  simp only [poolRuns, Pool.machine, Pool.next]
  rcases finished_or_waits h e.thread with ⟨a, ha⟩ | ⟨hempty, k, hk⟩
  · rw [ha]
  · rw [hk, hempty]
    rfl

end Threads

/-! ## Fewer nesting threads than connections -/

/-- The threads that have a nesting operation to run. -/
def nesting [Fintype ι] (ops : ι → List RepoCall) : Finset ι :=
  Finset.univ.filter fun i => (ops i).any Mysql.nests = true

/-- Every connection is free or held. -/
structure Leased [Fintype ι] (n : Nat) (ops : ι → List RepoCall) (pool : List Nat)
    (ph : ι → Leases) : Prop where
  total : pool.length + ∑ i, (ph i).held = n
  deep : ∀ i, (ph i).deep = (ops i).any Mysql.nests

variable [Fintype ι]

theorem sum_held_update (ph : ι → Leases) (i : ι) (q : Leases) :
    ∑ j, (update ph i q j).held + (ph i).held = ∑ j, (ph j).held + q.held := by
  have hupdate : (fun j => (update ph i q j).held) =
      update (fun j => (ph j).held) i q.held :=
    comp_update Leases.held ph i q
  rw [hupdate, Finset.sum_update_of_mem (Finset.mem_univ i),
    Finset.sum_eq_add_sum_sdiff_singleton_of_mem (Finset.mem_univ i)]
  omega

/-- A lease moves between the pool and a thread. -/
theorem Leased.step {pool pool' : List Nat} {ph : ι → Leases} (h : Leased n ops pool ph) {i : ι}
    {c : SqlCall} (hallowed : Leases.discipline.allowed (ph i) c) {answers : Answers} {r : c.Res}
    (hexec : MysqlPool.exec answers c pool = some (r, pool')) :
    Leased n ops pool' (update ph i (Leases.discipline.next (ph i) c r)) := by
  have hsum := sum_held_update ph i (Leases.discipline.next (ph i) c r)
  have htotal := h.total
  refine ⟨?_, (forall_update_iff ph fun j q => q.deep = (ops j).any Mysql.nests).mpr
    ⟨?_, fun j _ => h.deep j⟩⟩
  · cases c with
    | acquire =>
      cases pool with
      | nil => cases hexec
      | cons conn rest =>
        cases hexec
        simp only [List.length_cons] at htotal
        simp only [Leases.discipline] at hsum ⊢
        omega
    | release conn =>
      cases hexec
      have hheld : 0 < (ph i).held := hallowed
      simp only [Leases.discipline] at hsum ⊢
      simp only [List.length_append, List.length_cons, List.length_nil]
      omega
    | query conn site stmt =>
      cases hexec
      simp only [Leases.discipline] at hsum ⊢
      omega
  · cases c <;> exact h.deep i

theorem Leased.of_reachable {p : Threads ι} (h : (poolRuns P n ops).Reachable p) :
    Leased n ops p.shared p.phase ∧
      p.Obedient Leases.discipline fun q _ => q.held = 0 := by
  have hobeys : ∀ i, (Mysql.worker P (ops i)).Obeys Leases.discipline (fun q _ => q.held = 0)
      ⟨0, (ops i).any Mysql.nests⟩ := fun i =>
    (Leases.balanced_worker P fun c hc hnests => List.any_eq_true.mpr ⟨c, hc, hnests⟩).mono
      fun q _ hq => by rw [hq]
  refine ⟨Pool.invariant hobeys (fun pool hpool => ⟨?_, fun i => rfl⟩) ?_ h, Pool.obedient hobeys h⟩
  · rw [hpool]
    simp
  · intro p e c k r pool hleased _ _ hallowed hexec
    exact hleased.step hallowed hexec

/-- In a deadlock every lease is held by a thread that waits for its second. -/
theorem le_card_nesting {p : Threads ι} (h : (poolRuns P n ops).Reachable p)
    (hdead : p.Deadlocked) : n ≤ (nesting ops).card := by
  obtain ⟨hleased, hob⟩ := Leased.of_reachable h
  have hheld : ∀ i, (p.phase i).held ≤ if (ops i).any Mysql.nests = true then 1 else 0 := by
    intro i
    have hi := hob i
    rcases Threads.finished_or_waits hdead i with ⟨a, ha⟩ | ⟨-, k, hk⟩
    · rw [ha] at hi
      have hzero : (p.phase i).held = 0 := hi
      omega
    · rw [hk] at hi
      rcases hi.1 with hzero | ⟨hdeep, hone⟩
      · omega
      · rw [hleased.deep] at hdeep
        rw [if_pos hdeep]
        omega
  have hempty : p.shared = [] := by
    obtain ⟨i, hi⟩ := hdead.1
    exact (hdead.2 i hi).1
  calc n = ∑ i, (p.phase i).held := by
        rw [← hleased.total, hempty, List.length_nil, Nat.zero_add]
    _ ≤ ∑ i, if (ops i).any Mysql.nests = true then 1 else 0 := Finset.sum_le_sum fun i _ => hheld i
    _ = (nesting ops).card := (Finset.card_filter _ _).symm

end Threads

/-! ## As many nesting threads as connections -/

namespace Mysql

variable {P : Platform}

/-- An operation that does not nest runs to its end while there is a connection. -/
theorem completes {α : Type} {p : Sql α} {q : Leases} {pool : List Nat}
    (h : p.Obeys Leases.discipline (fun q _ => q.held = 0) q) (hflat : q.deep = false)
    (hpos : 0 < pool.length + q.held) :
    ∃ a pool', Prog.Steps MysqlPool.exec pool p pool' (.done a) ∧
      pool'.length = pool.length + q.held := by
  induction p generalizing q pool with
  | done a =>
    have hzero : q.held = 0 := h
    exact ⟨a, pool, .refl _ _, by omega⟩
  | call c k ih =>
    obtain ⟨hallowed, hrest⟩ := h
    cases c with
    | acquire =>
      have hzero : q.held = 0 := hallowed.resolve_right fun hdeep => by
        rw [hflat] at hdeep
        cases hdeep.1
      cases pool with
      | nil => simp [hzero] at hpos
      | cons conn pool =>
        obtain ⟨a, pool', hsteps, hlen⟩ := ih conn (hrest conn) hflat
          (Nat.lt_add_left _ (Nat.succ_pos _))
        refine ⟨a, pool', .step (fun _ => none) rfl hsteps, ?_⟩
        simp only [Leases.discipline] at hlen
        simp only [List.length_cons]
        omega
    | release conn =>
      have hheld : 0 < q.held := hallowed
      have hback : 0 < (pool ++ [conn]).length + (q.held - 1) := by simp
      obtain ⟨a, pool', hsteps, hlen⟩ := ih () (hrest ()) hflat hback
      refine ⟨a, pool', .step (fun _ => none) rfl hsteps, ?_⟩
      simp only [Leases.discipline, List.length_append, List.length_cons, List.length_nil] at hlen
      omega
    | query conn site stmt =>
      obtain ⟨a, pool', hsteps, hlen⟩ := ih none (hrest none) hflat hpos
      exact ⟨a, pool', .step (fun _ => none) rfl hsteps, hlen⟩

/-- A nesting operation can come to wait for its second lease. -/
theorem nests_waits {c : RepoCall} {p : Sql c.Res} (h : operation P c = some p)
    (hnests : nests c = true) (conn : Nat) (pool : List Nat) :
    ∃ k pool', Prog.Steps MysqlPool.exec (conn :: pool) p pool' (.call .acquire k) ∧
      pool'.length = pool.length := by
  cases c with
  | addBalance uid type amount =>
    cases h
    exact ⟨_, _, .step (fun _ => none) rfl (.step (fun _ => none) rfl (.refl _ _)), rfl⟩
  | findOrCreate mobile =>
    cases h
    -- the first lookup finds nothing and puts its connection back
    obtain ⟨conn', pool', hpool⟩ := List.exists_cons_of_ne_nil (List.concat_ne_nil conn pool)
    have hfront : MysqlPool.exec (fun _ => none) .acquire (pool ++ [conn]) =
        some (conn', pool') := by
      rw [hpool]
      rfl
    have hlen := congrArg List.length hpool
    simp only [List.length_append, List.length_cons, List.length_nil] at hlen
    -- the insertion fails, on the connection at the front
    exact ⟨_, pool', .step (fun _ => none) rfl (.step (fun _ => none) rfl
      (.step (fun _ => none) rfl (.step (fun _ => none) hfront
        (.step (fun _ => none) rfl (.refl _ _))))), by omega⟩
  | _ => cases hnests

/-- A thread comes to wait with one lease in hand, in its first nesting operation. -/
theorem worker_waits {ops : List RepoCall} (hnests : ops.any nests = true) {pool : List Nat}
    (hpos : 0 < pool.length) :
    ∃ k pool', Prog.Steps MysqlPool.exec pool (worker P ops) pool' (.call .acquire k) ∧
      pool'.length + 1 = pool.length := by
  induction ops generalizing pool with
  | nil => cases hnests
  | cons c rest ih =>
    rw [List.any_cons, Bool.or_eq_true] at hnests
    unfold worker
    cases hop : operation P c with
    | none =>
      have hflat : nests c ≠ true := by cases c <;> simp [operation, nests] at hop ⊢
      exact ih (hnests.resolve_left hflat) hpos
    | some p =>
      by_cases hc : nests c = true
      · obtain ⟨conn, pool, rfl⟩ := List.exists_cons_of_ne_nil (List.ne_nil_of_length_pos hpos)
        obtain ⟨k, pool', hsteps, hlen⟩ := nests_waits hop hc conn pool
        exact ⟨_, pool', hsteps.bind _, by rw [hlen]; rfl⟩
      · have hflat : Leases.Balanced ⟨0, false⟩ p :=
          Leases.balanced_operation hop fun h => absurd h hc
        obtain ⟨a, pool', hsteps, hlen⟩ := completes (hflat.mono fun q _ hq => by rw [hq]) rfl
          (Nat.lt_add_right 0 hpos)
        obtain ⟨k, pool'', hwait, hlen'⟩ := ih (hnests.resolve_left hc) (hpos.trans_eq hlen.symm)
        exact ⟨k, pool'', (hsteps.bind _).trans hwait, hlen'.trans hlen⟩

/-- A thread that has not begun is done or is about to take a lease. -/
theorem worker_head (P : Platform) (ops : List RepoCall) :
    (∃ a, worker P ops = .done a) ∨ ∃ k, worker P ops = .call .acquire k := by
  induction ops with
  | nil => exact .inl ⟨(), rfl⟩
  | cons c rest ih =>
    unfold worker
    split
    next p hp =>
      have hhead : ∃ k, p = .call .acquire k := by
        cases c <;> cases hp <;> exact ⟨_, rfl⟩
      obtain ⟨k, rfl⟩ := hhead
      exact .inr ⟨_, rfl⟩
    · exact ih

end Mysql

section Deadlocks

variable {P : Platform} {ι : Type} [DecidableEq ι] [Fintype ι] {n : Nat}
  {ops : ι → List RepoCall}

/-- The threads of `S` go one after the other, each up to the wait for its second lease. -/
theorem all_wait {S : Finset ι} (hS : S ⊆ nesting ops) (hcard : S.card ≤ n) :
    ∃ p, (poolRuns P n ops).Reachable p ∧ p.shared.length + S.card = n ∧
      (∀ i ∈ S, ∃ k, p.threads i = .call .acquire k) ∧
      ∀ i ∉ S, p.threads i = Mysql.worker P (ops i) := by
  induction S using Finset.induction_on with
  | empty =>
    have hinit : (poolRuns P n ops).init
        ⟨List.range n, fun i => Mysql.worker P (ops i), fun i => ⟨0, (ops i).any Mysql.nests⟩⟩ :=
      ⟨rfl, rfl, rfl⟩
    exact ⟨_, .start hinit, by simp, by simp, fun _ _ => rfl⟩
  | insert i S hi ih =>
    rw [Finset.card_insert_of_notMem hi] at hcard ⊢
    obtain ⟨hnests, hS⟩ := Finset.insert_subset_iff.mp hS
    obtain ⟨p, hp, hlen, hwait, hrest⟩ := ih hS (Nat.le_of_succ_le hcard)
    have hpool : 0 < p.shared.length := by omega
    obtain ⟨k, pool', hsteps, hlen'⟩ :=
      Mysql.worker_waits (P := P) (Finset.mem_filter.mp hnests).2 hpool
    rw [← hrest i hi] at hsteps
    obtain ⟨p', hp', hshared, hthreads⟩ := Pool.reachable_of_steps hp hsteps
    refine ⟨p', hp', by rw [hshared]; omega, fun j hj => ?_, fun j hj => ?_⟩
    · rw [hthreads]
      by_cases hji : j = i
      · exact ⟨k, by rw [hji, update_self]⟩
      · rw [update_of_ne hji]
        exact hwait j (Finset.mem_of_mem_insert_of_ne hj hji)
    · rw [Finset.mem_insert, not_or] at hj
      rw [hthreads, update_of_ne hj.1]
      exact hrest j hj.2

/-- **When the pool deadlocks.** Some run of the threads comes to a state in
which every unfinished operation waits in `acquire` on the empty pool exactly
when there are at least as many nesting threads as connections. -/
theorem deadlock_iff (P : Platform) (hn : 0 < n) (ops : ι → List RepoCall) :
    (∃ p, (poolRuns P n ops).Reachable p ∧ p.Deadlocked) ↔ n ≤ (nesting ops).card := by
  constructor
  · rintro ⟨p, hp, hdead⟩
    exact le_card_nesting hp hdead
  · intro hle
    obtain ⟨S, hS, hcard⟩ := Finset.exists_subset_card_eq hle
    obtain ⟨p, hp, hlen, hwait, hrest⟩ := all_wait (P := P) hS hcard.le
    have hempty : p.shared = [] := List.eq_nil_of_length_eq_zero (by omega)
    refine ⟨p, hp, ?_, fun i hi => ⟨hempty, ?_⟩⟩
    · obtain ⟨i, hi⟩ := Finset.card_pos.mp (hcard ▸ hn)
      obtain ⟨k, hk⟩ := hwait i hi
      exact ⟨i, fun a ha => by rw [hk] at ha; cases ha⟩
    · by_cases hmem : i ∈ S
      · exact hwait i hmem
      · rcases Mysql.worker_head P (ops i) with ⟨a, ha⟩ | hk
        · exact absurd ((hrest i hmem).trans ha) (hi a)
        · rw [hrest i hmem]
          exact hk

end Deadlocks

/-! ## Eight connections and sixteen threads, as in `server.toml` -/

/-- A charge in seven of the threads, a look at a balance in the others. -/
def sevenCharges (i : Fin 16) : List RepoCall :=
  if i < 7 then [.addBalance 1 .consume (-100)] else [.getBalance 1]

/-- Seven charges at once do no harm. -/
theorem deadlock_iff_seven :
    ¬ ∃ p, (poolRuns Platform.standstill 8 sevenCharges).Reachable p ∧ p.Deadlocked := by
  intro hdead
  have hle := (deadlock_iff Platform.standstill (by decide) sevenCharges).mp hdead
  exact absurd hle (by decide +kernel)

/-- Every statement of a charge succeeds. -/
def Answers.granted : Answers
  | .startTransaction | .insertIgnoreAccount _ | .updateBalance _ _ | .insertRecord _ _ _
  | .commit => some ()
  | _ => none

def Mysql.acquires {α : Type} : Sql α → Bool
  | .call .acquire _ => true
  | _ => false

theorem Mysql.acquires_iff {α : Type} {p : Sql α} :
    acquires p = true ↔ ∃ k, p = .call .acquire k := by
  constructor
  · intro h
    unfold acquires at h
    split at h
    · exact ⟨_, rfl⟩
    · cases h
  · rintro ⟨k, rfl⟩
    rfl

def charges (_ : Fin 16) : List RepoCall := [.addBalance 1 .consume (-100)]

def chargesStart : Threads (Fin 16) :=
  ⟨List.range 8, fun i => Mysql.worker .standstill (charges i),
    fun i => ⟨0, (charges i).any Mysql.nests⟩⟩

/-- Eight charges take the eight connections and commit, and all sixteen threads
wait: nobody has a turn any more. -/
theorem eight_charges :
    ∃ p, (poolRuns Platform.standstill 8 charges).Reachable p ∧ p.Deadlocked ∧
      ∀ e, (poolRuns Platform.standstill 8 charges).next p e = none := by
  obtain ⟨p, hreach, hempty, hall⟩ : ∃ p, (poolRuns Platform.standstill 8 charges).Reachable p ∧
      p.shared = [] ∧ ∀ i, Mysql.acquires (p.threads i) = true :=
    Machine.exists_of_play chargesStart ⟨rfl, rfl, rfl⟩
      ((List.finRange 8).flatMap fun i => List.replicate 6 ⟨i.castAdd 8, .granted⟩)
      (by decide +kernel)
  have hacquire : ∀ i, ∃ k, p.threads i = .call .acquire k := fun i =>
    Mysql.acquires_iff.mp (hall i)
  have hdead : p.Deadlocked := by
    refine ⟨⟨0, fun a ha => ?_⟩, fun i _ => ⟨hempty, hacquire i⟩⟩
    obtain ⟨k, hk⟩ := hacquire 0
    rw [hk] at ha
    cases ha
  exact ⟨p, hreach, hdead, hdead.next_none⟩

end SharedBike.Server
