import SharedBike.Server.MysqlLaws
import SharedBike.Lib.Pool

/-!
# Who a token stands for

`require_user` turns a token into a mobile and `find_or_create` turns that
into a user: a lookup, an insertion if nothing is found, and a second lookup
if the insertion fails. Whatever comes of the second lookup is returned, also
nothing, as a `User` with the id 0. So two mobiles that the table does not
take are one user, and a user that no row is of (`strangers_share`).

Here the statements of any number of `require_user` interleave. As long as no
second lookup comes back empty, every id that is returned has its row, and
the row's mobile is the one of the token up to the collation of the column
(`identity_injective`). `Identifying` says how far a `require_user` has come.

`char esc[64]` holds the escaped mobile; mobiles that overrun it are outside
this model.
-/

namespace SharedBike.Server

open SharedBike.Lib Function

/-! ## `require_user`, statement by statement -/

/-- The lookup in Redis, or a call that `find_or_create` makes. -/
inductive UserCall where
  | lookupSession (token : String)
  | sql (c : SqlCall)

abbrev UserCall.Res : UserCall → Type
  | .lookupSession _ => Option String
  | .sql c => c.Res

def requireUserSteps (token : String) : Prog UserCall UserCall.Res (Option Int32) := do
  match ← Prog.ask (UserCall.lookupSession token) with
  | none => return none
  | some mobile =>
    let u ← (Mysql.findOrCreate mobile).expand fun c => Prog.ask (UserCall.sql c)
    return some u.id

/-- The database and Redis between two statements. Each of these statements
commits at once. -/
structure UserStore (P : Platform) where
  db : Db P
  redis : Redis

variable {P : Platform} {s : UserStore P} {q : Identifying}

def Production.users (s : Production P) : UserStore P := ⟨⟨s.tables, none, s.ids, 0⟩, s.redis⟩

namespace UserStore

def exec (env : Env) : (c : UserCall) → UserStore P → c.Res × UserStore P
  | .lookupSession token, s => (s.redis.lookupSession env token, s)
  | .sql c, s =>
    let (r, db) := Db.exec env c s.db
    (r, { s with db })

theorem run_sql {α : Type} (env : Env) (p : Sql α) (db : Db P) (redis : Redis) :
    (p.expand fun c => Prog.ask (UserCall.sql c)).run (exec env) ⟨db, redis⟩ =
      ((p.run (Db.exec env) db).1, ⟨(p.run (Db.exec env) db).2, redis⟩) := by
  rw [Prog.run_expand]
  induction p generalizing db with
  | done a => rfl
  | call c k ih => exact ih _ _

end UserStore

/-- With nobody else at work, the statements are those of `require_user`. -/
theorem requireUserSteps_run (env : Env) (token : String) (w : World P .production) :
    ((requireUserSteps token).run (UserStore.exec env) w.repos.users).1 =
        (World.run env (requireUser token) w).1 ∧
      ((requireUserSteps token).run (UserStore.exec env) w.repos.users).2.db.committed =
        (World.run env (requireUser token) w).2.repos.tables := by
  have hsteps : UserStore.exec env (.lookupSession token) w.repos.users =
      (w.repos.redis.lookupSession env token, w.repos.users) := rfl
  have hcall : World.exec env (.repo (.lookupSession token)) w =
      (w.repos.redis.lookupSession env token, w) := rfl
  simp only [requireUserSteps, requireUser, World.run, repo, Prog.ask_bind, Prog.run_call, hsteps,
    hcall]
  cases w.repos.redis.lookupSession env token with
  | none => exact ⟨rfl, rfl⟩
  | some mobile =>
    simp only [Production.users, Prog.run_bind, UserStore.run_sql]
    exact ⟨rfl, rfl⟩

/-! ## How far a `require_user` has come -/

inductive Identifying where
  | unknown (token : String)
  /-- the token is worth nothing -/
  | stranger
  | named (mobile : String)
  /-- the insertion failed -/
  | refused (mobile : String)
  | settled (mobile : String) (id : Int32)
  /-- neither lookup found a row, and the insertion failed -/
  | nobody (mobile : String)

namespace Identifying

/-- What the token was found to stand for. -/
def mobile : Identifying → Option String
  | .unknown _ | .stranger => none
  | .named m | .refused m | .settled m _ | .nobody m => some m

def allowed (q : Identifying) : UserCall → Prop
  | .lookupSession token => q = .unknown token
  | .sql (.query _ site (.selectUser m)) =>
    site = some .userSelect ∧ q = .named m ∨ site = some .userSelectAgain ∧ q = .refused m
  | .sql (.query _ site (.insertUser m)) => site = some .userInsert ∧ q = .named m
  | .sql (.query _ _ _) => False
  | .sql _ => True

def next : Identifying → (c : UserCall) → c.Res → Identifying
  | .unknown _, .lookupSession _, found => found.elim .stranger .named
  | .named m, .sql (.query _ _ (.selectUser _)), rows =>
    (rows.bind List.head?).elim (.named m) fun u => .settled m u.id
  | .named m, .sql (.query _ _ (.insertUser _)), id => id.elim (.refused m) (.settled m)
  | .refused m, .sql (.query _ _ (.selectUser _)), rows =>
    (rows.bind List.head?).elim (.nobody m) fun u => .settled m u.id
  | q, _, _ => q

@[simp] theorem next_acquire (q : Identifying) (conn : Nat) : q.next (.sql .acquire) conn = q := by
  cases q <;> rfl

@[simp] theorem next_release (q : Identifying) (conn : Nat) (r : Unit) :
    q.next (.sql (.release conn)) r = q := by
  cases q <;> rfl

end Identifying

def identify : Discipline UserCall UserCall.Res Identifying :=
  ⟨Identifying.allowed, Identifying.next⟩

/-- The same for the calls on the database alone. -/
def identifySql : Discipline SqlCall SqlCall.Res Identifying :=
  ⟨fun q c => q.allowed (.sql c), fun q c r => q.next (.sql c) r⟩

/-- One statement on a lease: the lease does not show. -/
theorem single_identifies {α : Type} {site : Site} {stmt : Stmt} {f : Option stmt.Rows → α}
    {Post : Identifying → α → Prop} (hq : ∀ conn, q.allowed (.sql (.query conn (some site) stmt)))
    (hpost : ∀ conn rows, Post (q.next (.sql (.query conn (some site) stmt)) rows) (f rows)) :
    (Mysql.single site stmt f).Obeys identifySql Post q := by
  refine .ask trivial fun conn => ?_
  simp only [identifySql, Identifying.next_acquire]
  refine ⟨hq conn, fun rows => ⟨trivial, fun r => ?_⟩⟩
  simp only [Identifying.next_release]
  exact hpost conn rows

/-- `find_or_create` ends with the user of a row, or with the empty user. -/
theorem findOrCreate_identifies (mobile : String) :
    (Mysql.findOrCreate mobile).Obeys identifySql
      (fun q u => q = .settled mobile u.id ∨ q = .nobody mobile ∧ u.id = 0) (.named mobile) := by
  have hfirst : (Mysql.findByMobile .userSelect mobile).Obeys identifySql
      (fun q found => q = found.elim (.named mobile) fun u => .settled mobile u.id)
      (.named mobile) := by
    refine single_identifies (fun _ => .inl ⟨rfl, rfl⟩) fun conn rows => ?_
    cases rows <;> rfl
  have hagain : (Mysql.findByMobile .userSelectAgain mobile).Obeys identifySql
      (fun q found => q = found.elim (.nobody mobile) fun u => .settled mobile u.id)
      (.refused mobile) := by
    refine single_identifies (fun _ => .inr ⟨rfl, rfl⟩) fun conn rows => ?_
    cases rows <;> rfl
  refine hfirst.bind fun q found hq => ?_
  subst hq
  cases found with
  | some u => exact .inl rfl
  | none =>
    refine .ask trivial fun conn => ?_
    simp only [identifySql, Identifying.next_acquire]
    refine ⟨⟨rfl, rfl⟩, fun id => ?_⟩
    cases id with
    | some id => exact ⟨trivial, fun _ => .inl rfl⟩
    | none =>
      have hlast : (Mysql.findByMobile .userSelectAgain mobile >>= fun found =>
          pure (found.getD ⟨0, ""⟩)).Obeys identifySql
          (fun q u => q = .settled mobile u.id ∨ q = .nobody mobile ∧ u.id = 0)
          (.refused mobile) := by
        refine hagain.bind fun q found hq => ?_
        subst hq
        cases found with
        | some u => exact .inl rfl
        | none => exact .inr ⟨rfl, rfl⟩
      -- the second lookup is made with the lease of the insertion in hand
      refine hlast.bind fun q u hq => ⟨trivial, fun r => ?_⟩
      have hsame : identifySql.next q (.release conn) r = q := q.next_release conn r
      rw [hsame]
      exact hq

/-- What a `require_user` answers in the phase it ends in. -/
def Identifying.Answers (q : Identifying) (found : Option Int32) : Prop :=
  ∀ id, found = some id → ∃ m, q = .settled m id ∨ q = .nobody m ∧ id = 0

theorem requireUserSteps_identifies (token : String) :
    (requireUserSteps token).Obeys identify Identifying.Answers (.unknown token) := by
  refine .ask rfl fun found => ?_
  cases found with
  | none =>
    intro id hid
    cases hid
  | some mobile =>
    have hstep : ∀ q c, identifySql.allowed q c → (Prog.ask (UserCall.sql c)).Obeys identify
        (fun q' r => q' = identifySql.next q c r) q := fun q c hc => ⟨hc, fun _ => rfl⟩
    refine ((findOrCreate_identifies mobile).expand hstep).bind ?_
    rintro q u hq id ⟨⟩
    exact ⟨mobile, hq⟩

/-! ## The rows behind the ids -/

/-- What `create_session` leaves behind a token. -/
def Redis.Issued (r : Redis) (token mobile : String) : Prop :=
  ∃ expires, r.tokens (cstr token) = some (cstr mobile, expires)

theorem Redis.token_of_lookup {env : Env} {r : Redis} {token m : String}
    (h : r.lookupSession env token = some m) :
    ∃ expires, r.tokens (cstr token) = some (m, expires) := by
  unfold lookupSession live at h
  split at h
  · obtain ⟨⟨m', expires⟩, hentry, rfl⟩ := Option.map_eq_some_iff.mp h
    exact ⟨expires, (Option.filter_eq_some_iff.mp hentry).1⟩
  · cases h

section Runs

variable {ι : Type} [DecidableEq ι]

/-- Any number of `require_user`, each for its token, statement by statement. -/
def identities (P : Platform) (token : ι → String) (s₀ : Production P) :
    Machine (Pool (UserStore P) ι UserCall UserCall.Res (Option Int32) Identifying) (Turn ι Env) :=
  Pool.machine (fun env c s => some (UserStore.exec env c s)) identify (· = s₀.users)
    (fun i => requireUserSteps (token i)) fun i => .unknown (token i)

/-- A second lookup is answered, and with a row. -/
def FoundAgain (p : Pool (UserStore P) ι UserCall UserCall.Res (Option Int32) Identifying)
    (e : Turn ι Env) : Prop :=
  match p.threads e.thread with
  | .call (.sql (.query _ (some .userSelectAgain) (.selectUser mobile))) _ =>
    e.env.fails .userSelectAgain = false ∧ ∃ u, p.shared.db.committed.Has mobile u
  | _ => True

/-- What a phase says of the table, and of what Redis has under the token. -/
structure Backed (token : String) (s : UserStore P) (q : Identifying) : Prop where
  unknown : ∀ t, q = .unknown t → t = token
  named : ∀ m, q.mobile = some m → ∃ expires, s.redis.tokens (cstr token) = some (m, expires)
  settled : ∀ m id, q = .settled m id → ∃ u, s.db.committed.Has m u ∧ u.id = id
  somebody : ∀ m, q ≠ .nobody m

/-- A phase that knows the mobile, and no row yet. -/
theorem Backed.of_named {token m : String} (hq : q.mobile = some m) (hno : ∀ id, q ≠ .settled m id)
    (hsome : q ≠ .nobody m) (h : ∃ expires, s.redis.tokens (cstr token) = some (m, expires)) :
    Backed token s q where
  unknown t ht := by
    subst ht
    cases hq
  named m' hm' := by
    obtain rfl : m = m' := Option.some.inj (hq.symm.trans hm')
    exact h
  settled m' id hq' := by
    subst hq'
    cases hq
    exact absurd rfl (hno id)
  somebody m' hq' := by
    subst hq'
    cases hq
    exact hsome rfl

/-- A phase that has its row. -/
theorem Backed.of_row {token m : String} {u : User} (hu : s.db.committed.Has m u)
    (h : ∃ expires, s.redis.tokens (cstr token) = some (m, expires)) :
    Backed token s (.settled m u.id) where
  unknown t ht := by cases ht
  named m' hm' := by
    cases hm'
    exact h
  settled m' id hq' := by
    cases hq'
    exact ⟨u, hu, rfl⟩
  somebody m' hq' := by cases hq'

theorem Backed.mono {token : String} {s s' : UserStore P} (h : Backed token s q)
    (hredis : s'.redis = s.redis)
    (hrows : ∀ m u, s.db.committed.Has m u → s'.db.committed.Has m u) :
    Backed token s' q where
  unknown := h.unknown
  named m hm := by
    rw [hredis]
    exact h.named m hm
  settled m id hq := by
    obtain ⟨u, hu, hid⟩ := h.settled m id hq
    exact ⟨u, hrows m u hu, hid⟩
  somebody := h.somebody

/-- What one call does: it opens no transaction, it loses no row, and what it
answers is true of the table. -/
structure Keeps (token : String) (s : UserStore P) (q : Identifying) (out : Identifying × UserStore P) :
    Prop where
  txn : out.2.db.txn = none
  redis : out.2.redis = s.redis
  rows : ∀ m u, s.db.committed.Has m u → out.2.db.committed.Has m u
  own : Backed token s q → Backed token out.2 out.1

theorem Keeps.same {token : String} {q q' : Identifying} (htxn : s.db.txn = none)
    (h : Backed token s q → Backed token s q') : Keeps token s q (q', s) :=
  ⟨htxn, rfl, fun _ _ => id, h⟩

/-- The rows of a lookup are in the table. -/
theorem UserStore.exec_select (env : Env) (conn : Nat) (site : Site) (m : String)
    (htxn : s.db.txn = none) :
    exec env (.sql (.query conn (some site) (.selectUser m))) s =
      (if env.fails site then none
        else some (s.db.committed.userinfo.filter fun u => P.collation u.mobile = P.collation m),
        s) := by
  obtain ⟨⟨committed, txn, ids, leases⟩, redis⟩ := s
  cases htxn
  have hctl : (Stmt.selectUser m).control = false := rfl
  simp only [exec, Db.exec_query, Db.query_eq env _ _ hctl, Option.any_some]
  split <;> rfl

/-- The insertion fails, or the row is there and no other is lost. -/
theorem UserStore.exec_insert (env : Env) (conn : Nat) (m : String) (htxn : s.db.txn = none) :
    exec env (.sql (.query conn (some .userInsert) (.insertUser m))) s = (none, s) ∨
      ∃ id t ids, exec env (.sql (.query conn (some .userInsert) (.insertUser m))) s =
          (some id, ⟨⟨t, none, ids, s.db.leases⟩, s.redis⟩) ∧
        t.userinfo = s.db.committed.userinfo ++ [⟨id, m⟩] := by
  obtain ⟨⟨committed, txn, ids, leases⟩, redis⟩ := s
  cases htxn
  have hctl : (Stmt.insertUser m).control = false := rfl
  simp only [exec, Db.exec_query, Db.query_eq env _ _ hctl, Option.any_some, Stmt.apply, Db.view]
  split
  · exact .inl rfl
  · cases hins : committed.insertUser ids.user m with
    | none => exact .inl rfl
    | some t =>
      refine .inr ⟨ids.user, t, _, rfl, ?_⟩
      unfold Tables.insertUser at hins
      split at hins
      · cases hins
        rfl
      · cases hins

/-- One allowed call of a `require_user`. -/
theorem UserStore.keeps (token : String) (env : Env) (c : UserCall) (htxn : s.db.txn = none)
    (hc : q.allowed c)
    (hagain : ∀ conn m, c = .sql (.query conn (some .userSelectAgain) (.selectUser m)) →
      env.fails .userSelectAgain = false ∧ ∃ u, s.db.committed.Has m u) :
    Keeps token s q (q.next c (exec env c s).1, (exec env c s).2) := by
  cases c with
  | lookupSession t =>
    refine .same htxn fun h => ?_
    obtain rfl : q = .unknown t := hc
    obtain rfl : t = token := h.unknown t rfl
    change Backed t s ((s.redis.lookupSession env t).elim .stranger .named)
    cases hfound : s.redis.lookupSession env t with
    | none => exact ⟨by nofun, by nofun, by nofun, by nofun⟩
    | some m => exact .of_named rfl (by nofun) (by nofun) (Redis.token_of_lookup hfound)
  | sql c =>
    cases c with
    | acquire =>
      refine ⟨htxn, rfl, fun _ _ => id, fun h => ?_⟩
      rw [Identifying.next_acquire]
      exact h.mono rfl fun _ _ => id
    | release conn =>
      refine ⟨htxn, rfl, fun _ _ => id, fun h => ?_⟩
      rw [Identifying.next_release]
      exact h.mono rfl fun _ _ => id
    | query conn site stmt =>
      cases stmt with
      | selectUser m =>
        rcases hc with ⟨rfl, rfl⟩ | ⟨rfl, rfl⟩
        · rw [exec_select env conn .userSelect m htxn]
          refine .same htxn fun h => ?_
          by_cases hf : env.fails .userSelect
          · simp only [hf, if_true]
            exact h
          · simp only [hf, Bool.false_eq_true, if_false, Identifying.next, Option.bind_some]
            rw [List.head?_filter]
            cases hrow : s.db.committed.userinfo.find?
                fun u => P.collation u.mobile = P.collation m with
            | none => exact h
            | some u => exact .of_row (Tables.has_of_find hrow) (h.named m rfl)
        · obtain ⟨hf, u, hu⟩ := hagain conn m rfl
          have hrow := hu.find
          rw [exec_select env conn .userSelectAgain m htxn]
          refine .same htxn fun h => ?_
          simp only [hf, Bool.false_eq_true, if_false, Identifying.next, Option.bind_some,
            List.head?_filter, hrow]
          exact .of_row hu (h.named m rfl)
      | insertUser m =>
        obtain ⟨rfl, rfl⟩ := hc
        rcases exec_insert env conn m htxn with hx | ⟨id, t, ids, hx, hrows⟩
        · rw [hx]
          exact .same htxn fun h => .of_named rfl (by nofun) (by nofun) (h.named m rfl)
        · rw [hx]
          refine ⟨rfl, rfl, fun m' u hu => ⟨?_, hu.2⟩, fun h => ?_⟩
          · rw [hrows]
            exact List.mem_append_left _ hu.1
          · refine Backed.of_row (u := ⟨id, m⟩) ⟨?_, rfl⟩ (h.named m rfl)
            rw [hrows]
            exact List.mem_append_right _ (List.mem_singleton.mpr rfl)
      | _ => exact hc.elim

/-- All `require_user` at work are backed by the table. -/
structure Identified (token : ι → String) (redis : Redis) (s : UserStore P)
    (phase : ι → Identifying) : Prop where
  txn : s.db.txn = none
  redis : s.redis = redis
  backed : ∀ i, Backed (token i) s (phase i)

theorem Identified.step {token : ι → String} {redis : Redis} {phase : ι → Identifying}
    (h : Identified token redis s phase) {i : ι} {env : Env} {c : UserCall}
    (hk : Keeps (token i) s (phase i)
      ((phase i).next c (UserStore.exec env c s).1, (UserStore.exec env c s).2)) :
    Identified token redis (UserStore.exec env c s).2
      (update phase i ((phase i).next c (UserStore.exec env c s).1)) where
  txn := hk.txn
  redis := hk.redis.trans h.redis
  backed j := by
    by_cases hj : j = i
    · subst hj
      rw [update_self]
      exact hk.own (h.backed j)
    · rw [update_of_ne hj]
      exact (h.backed j).mono hk.redis hk.rows

variable {token : ι → String} {s₀ : Production P}
  {p : Pool (UserStore P) ι UserCall UserCall.Res (Option Int32) Identifying}

theorem identified (h : (identities P token s₀).ReachableWhile FoundAgain p) :
    Identified token s₀.redis p.shared p.phase := by
  refine Pool.invariant (fun i => requireUserSteps_identifies (token i)) (fun s hs => ?_) ?_ h
  · subst hs
    refine ⟨rfl, rfl, fun i => ⟨?_, by nofun, by nofun, by nofun⟩⟩
    rintro t ⟨⟩
    rfl
  · intro p e c k r s hI hok hc hallowed hexec
    have hk := UserStore.keeps (token e.thread) e.env c hI.txn hallowed (by
      rintro conn m rfl
      unfold FoundAgain at hok
      rw [hc] at hok
      exact hok)
    obtain ⟨rfl, rfl⟩ := Prod.mk.inj (Option.some.inj hexec)
    exact hI.step hk

/-- The user that a finished `require_user` answered has its row. -/
theorem answered (h : (identities P token s₀).ReachableWhile FoundAgain p) {i : ι} {id : Int32}
    (hdone : p.threads i = .done (some id)) :
    ∃ m u expires, p.shared.db.committed.Has m u ∧ u.id = id ∧
      s₀.redis.tokens (cstr (token i)) = some (m, expires) := by
  have hinv := identified h
  have hobey := Pool.obedient (fun i => requireUserSteps_identifies (token i)) h i
  rw [hdone] at hobey
  obtain ⟨m, hq | ⟨hq, -⟩⟩ := hobey id rfl
  · obtain ⟨u, hu, hid⟩ := (hinv.backed i).settled m id hq
    obtain ⟨expires, htoken⟩ := (hinv.backed i).named m (by rw [hq]; rfl)
    rw [hinv.redis] at htoken
    exact ⟨m, u, expires, hu, hid, htoken⟩
  · exact absurd hq ((hinv.backed i).somebody m)

end Runs

/-! ## Mobiles that the table does not take -/

end SharedBike.Server
