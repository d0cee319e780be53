import SharedBike.Server.World
import SharedBike.Lib.Keyed

/-!
# What the production repositories do

One equation for each operation, over the database between two operations:
what it answers and which tables it leaves. `Production.sql_single` covers
every operation that is a single statement. The two transactions have
theirs, `sql_addBalance` and `sql_createWithPoints`; both come down to one
question, whether the whole transaction went through (`Tables.charge`,
`Tables.archiveRide`). Nothing later looks into a program over statements.
-/

namespace SharedBike.Server

open SharedBike.Common SharedBike.Lib Function

variable {P : Platform} {t : Tables P} {stmt : Stmt} {uid : Int32} {mobile : String}

/-! ## Statements on a connection -/

/-- The statements that open or close a transaction. -/
def Stmt.control : Stmt → Bool
  | .startTransaction | .commit | .rollback => true
  | _ => false

namespace Db

@[simp] theorem exec_acquire (env : Env) (db : Db P) :
    exec env .acquire db = (db.leases, { db with leases := db.leases + 1 }) := rfl

@[simp] theorem exec_release (env : Env) (conn : Nat) (db : Db P) :
    exec env (.release conn) db = ((), { db with leases := db.leases - 1 }) := rfl

@[simp] theorem exec_query (env : Env) (conn : Nat) (site : Option Site) (stmt : Stmt)
    (db : Db P) : exec env (.query conn site stmt) db = db.query env conn site stmt := rfl

theorem query_eq (env : Env) (conn : Nat) (site : Option Site) (h : stmt.control = false)
    (db : Db P) :
    db.query env conn site stmt =
      if site.any env.fails then (none, db)
      else
        match stmt.apply env.now db.ids (db.view conn) with
        | none => (none, db)
        | some (rows, t) => (some rows, { db.store conn t with ids := stmt.bump db.ids }) := by
  cases stmt <;> first | rfl | cases h

theorem query_start (env : Env) (conn : Nat) (site : Option Site) (db : Db P) :
    db.query env conn site .startTransaction =
      if site.any env.fails then (none, db)
      else (some (), { db with txn := some (conn, db.committed) }) := rfl

theorem query_commit (env : Env) (conn : Nat) (site : Option Site) (db : Db P) :
    db.query env conn site .commit =
      if site.any env.fails then (none, db)
      else (some (), { db with committed := db.view conn, txn := none }) := rfl

/-- A lease is given back whatever the body did with it. -/
theorem run_withLease {α : Type} (env : Env) (body : Nat → Sql α) (db : Db P) :
    (Mysql.withLease body).run (exec env) db =
      (((body db.leases).run (exec env) { db with leases := db.leases + 1 }).1,
        { ((body db.leases).run (exec env) { db with leases := db.leases + 1 }).2 with
          leases := ((body db.leases).run (exec env)
            { db with leases := db.leases + 1 }).2.leases - 1 }) := by
  unfold Mysql.withLease
  rw [Prog.ask_bind, Prog.run_call, Prog.run_bind]
  rfl

theorem run_run (env : Env) (conn : Nat) (site : Site) (stmt : Stmt) (db : Db P) :
    (Mysql.run conn site stmt).run (exec env) db =
      ((db.query env conn (some site) stmt).1.isSome, (db.query env conn (some site) stmt).2) :=
  rfl

theorem run_rollback (env : Env) (conn : Nat) (db : Db P) :
    (Mysql.rollback conn).run (exec env) db = ((), { db with txn := none }) := rfl

/-- A single statement outside a transaction commits at once. -/
theorem run_single {α : Type} (env : Env) (site : Site) (h : stmt.control = false)
    (f : Option stmt.Rows → α) {db : Db P} (hdb : db.txn = none) :
    (Mysql.single site stmt f).run (exec env) db =
      if env.fails site then (f none, db)
      else
        match stmt.apply env.now db.ids db.committed with
        | none => (f none, db)
        | some (rows, t) =>
          (f (some rows), { db with committed := t, ids := stmt.bump db.ids }) := by
  obtain ⟨committed, txn, ids, leases⟩ := db
  cases hdb
  unfold Mysql.single Mysql.query
  simp only [run_withLease, Prog.ask_bind, Prog.pure_eq, Prog.run_call, Prog.run_done, exec_query,
    query_eq env _ _ h]
  by_cases hf : env.fails site
  · simp only [hf, Option.any_some, if_true, Nat.add_sub_cancel]
  · rw [if_neg hf, if_neg (by simpa using hf)]
    cases happ : stmt.apply env.now ids committed with
    | none => simp only [view, happ, Nat.add_sub_cancel]
    | some res => simp only [view, happ, store, Nat.add_sub_cancel]

/-- Inside its own transaction a connection changes nothing that is committed. -/
theorem query_txn (env : Env) (conn : Nat) (site : Site) (h : stmt.control = false)
    (committed t : Tables P) (ids : Counters) (leases : Nat) :
    query env conn (some site) stmt ⟨committed, some (conn, t), ids, leases⟩ =
      if env.fails site then (none, ⟨committed, some (conn, t), ids, leases⟩)
      else
        match stmt.apply env.now ids t with
        | none => (none, ⟨committed, some (conn, t), ids, leases⟩)
        | some (rows, t') =>
          (some rows, ⟨committed, some (conn, t'), stmt.bump ids, leases⟩) := by
  rw [query_eq env _ _ h]
  simp only [Option.any_some, view, store, if_true]

/-- A sequence of statements inside a transaction, up to the first that fails. -/
def applyAll (env : Env) (ids : Counters) : List (Site × Stmt) → Tables P → Option (Tables P)
  | [], t => some t
  | (site, stmt) :: rest, t =>
    if env.fails site then none
    else (stmt.apply env.now ids t).bind fun res => applyAll env ids rest res.2

/-- Inside a transaction, `runAll` says whether all statements went through,
and leaves what they did pending. -/
theorem run_runAll (env : Env) (conn : Nat) (committed : Tables P) (ids : Counters) (leases : Nat)
    (stmts : List (Site × Stmt))
    (h : ∀ x ∈ stmts, x.2.control = false ∧ x.2.bump ids = ids) (t : Tables P) :
    match applyAll env ids stmts t with
    | some t' => (Mysql.runAll conn stmts).run (exec env) ⟨committed, some (conn, t), ids, leases⟩ =
        (true, ⟨committed, some (conn, t'), ids, leases⟩)
    | none => ∃ t', (Mysql.runAll conn stmts).run (exec env)
        ⟨committed, some (conn, t), ids, leases⟩ =
          (false, ⟨committed, some (conn, t'), ids, leases⟩) := by
  induction stmts generalizing t with
  | nil => rfl
  | cons x rest ih =>
    obtain ⟨site, stmt⟩ := x
    obtain ⟨hctl, hbump⟩ := h _ List.mem_cons_self
    have hrest := fun y hy => h y (List.mem_cons_of_mem _ hy)
    simp only [applyAll, Mysql.runAll, Prog.run_bind, run_run, query_txn env _ _ hctl]
    by_cases hf : env.fails site
    · simp only [hf, if_true]
      exact ⟨t, rfl⟩
    · simp only [hf, Bool.false_eq_true, if_false]
      cases happ : stmt.apply env.now ids t with
      | none => exact ⟨t, rfl⟩
      | some res =>
        simp only [Option.bind_some, Option.isSome_some, Bool.not_true, Bool.false_eq_true,
          if_false, hbump]
        exact ih hrest res.2

end Db

/-! ## Single statements -/

namespace Production

theorem sql_single {α : Type} (env : Env) (site : Site) (h : stmt.control = false)
    (f : Option stmt.Rows → α) (s : Production P) :
    s.sql env (Mysql.single site stmt f) =
      if env.fails site then (f none, s)
      else
        match stmt.apply env.now s.ids s.tables with
        | none => (f none, s)
        | some (rows, t) => (f (some rows), { s with tables := t, ids := stmt.bump s.ids }) := by
  unfold sql
  rw [Db.run_single env site h f rfl]
  cases env.fails site <;> cases stmt.apply env.now s.ids s.tables <;> rfl

end Production

/-! ## The charge -/

namespace Tables

/-- What the column `balance` says of a user. -/
def balance (t : Tables P) (uid : Int32) : Int32 := (t.account uid).getD 0

/-- What `get_balance` reads. -/
def readBalance (t : Tables P) (env : Env) (uid : Int32) : Int32 :=
  if env.fails .balanceSelect then 0 else t.balance uid

/-- The statements of the `add_balance` transaction that can fail. -/
def chargeFails (env : Env) : Bool :=
  env.fails .chargeBegin || env.fails .chargeAccount || env.fails .chargeUpdate ||
    env.fails .chargeRecord || env.fails .chargeCommit

/-- The whole `add_balance` transaction; `none` is a rollback. -/
def charge (t : Tables P) (env : Env) (uid : Int32) (type : RecordType) (amount : Int32) :
    Option (Tables P) :=
  if chargeFails env then none
  else ((t.insertIgnoreAccount uid).updateBalance uid amount).map
    (·.insertRecord env.now uid type amount)

theorem charge_eq (t : Tables P) (env : Env) (ids : Counters) (uid : Int32) (type : RecordType)
    (amount : Int32) :
    t.charge env uid type amount =
      if env.fails .chargeBegin ∨ env.fails .chargeCommit then none
      else Db.applyAll env ids (Mysql.chargeStmts uid type amount) t := by
  unfold charge chargeFails Mysql.chargeStmts
  simp only [Db.applyAll, Stmt.apply, Option.bind_some]
  cases env.fails .chargeBegin <;> cases env.fails .chargeCommit <;>
    cases env.fails .chargeAccount <;> cases env.fails .chargeUpdate <;>
    cases env.fails .chargeRecord <;> simp
  cases (t.insertIgnoreAccount uid).updateBalance uid amount <;> rfl

/-- The sum that `UPDATE` would store is a value of the column. -/
def Fits (a b : Int32) : Prop := -2 ^ 31 ≤ a.toInt + b.toInt ∧ a.toInt + b.toInt < 2 ^ 31

instance (a b : Int32) : Decidable (Fits a b) := inferInstanceAs (Decidable (_ ∧ _))

theorem account_none_of_no_user (h : t.hasUser uid = false) :
    t.account uid = none := by
  by_contra hne
  have := t.account_user uid (Option.isSome_iff_ne_none.mpr hne)
  simp only [hasUser, decide_eq_false_iff_not] at h
  exact h this

theorem charge_of_fails {env : Env} (h : chargeFails env = true) (uid : Int32) (type : RecordType)
    (amount : Int32) : t.charge env uid type amount = none := by
  simp [charge, h]

/-- Without a user there is no account row, and the transaction commits nothing. -/
theorem charge_of_no_user {env : Env} (h : chargeFails env = false) (hu : t.hasUser uid = false)
    (type : RecordType) (amount : Int32) :
    t.charge env uid type amount = some t := by
  have hacc := account_none_of_no_user hu
  have hins : t.insertIgnoreAccount uid = t := by
    simp [insertIgnoreAccount, hu]
  have hupd : t.updateBalance uid amount = some t := by
    unfold updateBalance
    split
    · rfl
    next bal hbal =>
      rw [hacc] at hbal
      cases hbal
  simp [charge, h, hins, hupd, insertRecord, hacc]

/-- With a user, the row is there after `INSERT IGNORE`, with the old balance. -/
theorem insertIgnoreAccount_account (hu : t.hasUser uid = true) :
    (t.insertIgnoreAccount uid).account = update t.account uid (some (t.balance uid)) := by
  unfold insertIgnoreAccount
  split
  next h => simp [balance, h.1]
  next h =>
    have hsome : t.account uid ≠ none := fun hnone => h ⟨hnone, hu⟩
    obtain ⟨bal, hbal⟩ := Option.ne_none_iff_exists'.mp hsome
    rw [balance, hbal, Option.getD_some, ← hbal, update_eq_self]

theorem updateBalance_of_row {uid bal : Int32} (h : t.account uid = some bal) (amount : Int32) :
    if Fits bal amount then
      ∃ t', t.updateBalance uid amount = some t' ∧
        t'.account = update t.account uid (some (bal + amount)) ∧
        t'.accountRecord = t.accountRecord
    else t.updateBalance uid amount = none := by
  generalize hupd : t.updateBalance uid amount = after
  unfold updateBalance at hupd
  split at hupd
  next hnone =>
    rw [h] at hnone
    cases hnone
  next bal' hbal =>
    rw [h] at hbal
    cases hbal
    by_cases hfit : Fits bal amount
    · rw [if_pos hfit]
      exact ⟨_, hupd.symm.trans (if_pos hfit), rfl, rfl⟩
    · rw [if_neg hfit]
      exact hupd.symm.trans (if_neg hfit)

/-- With a user, the transaction writes the new balance and one record of it,
or is rolled back because the sum does not fit. -/
theorem charge_of_user {env : Env} (h : chargeFails env = false) (hu : t.hasUser uid = true)
    (type : RecordType) (amount : Int32) :
    if Fits (t.balance uid) amount then
      ∃ t', t.charge env uid type amount = some t' ∧
        t'.account = update t.account uid (some (t.balance uid + amount)) ∧
        t'.accountRecord = t.accountRecord ++
          [⟨uid, ⟨type.code, amount, t.balance uid + amount, env.now⟩⟩]
    else t.charge env uid type amount = none := by
  have hacc := insertIgnoreAccount_account hu
  have hrec : (t.insertIgnoreAccount uid).accountRecord = t.accountRecord := by
    unfold insertIgnoreAccount
    split <;> rfl
  have hrow : (t.insertIgnoreAccount uid).account uid = some (t.balance uid) := by
    rw [hacc, update_self]
  have hupd := updateBalance_of_row hrow amount
  simp only [charge, h, Bool.false_eq_true, if_false]
  by_cases hfit : Fits (t.balance uid) amount
  · rw [if_pos hfit] at hupd ⊢
    obtain ⟨t', ht', hacc', hrec'⟩ := hupd
    have hrow' : t'.account uid = some (t.balance uid + amount) := by
      rw [hacc', update_self]
    refine ⟨_, by rw [ht']; rfl, ?_, ?_⟩
    · simp [insertRecord, hrow', hacc', hacc]
    · simp [insertRecord, hrow', hrec', hrec]
  · rw [if_neg hfit] at hupd ⊢
    rw [hupd]
    rfl

/-- The ways an `add_balance` can end: rolled back, empty, or done. -/
theorem charge_cases (t : Tables P) (env : Env) (uid : Int32) (type : RecordType)
    (amount : Int32) :
    t.charge env uid type amount = none ∨
      (t.hasUser uid = false ∧ t.charge env uid type amount = some t) ∨
      (t.hasUser uid = true ∧ Fits (t.balance uid) amount ∧
        ∃ t', t.charge env uid type amount = some t' ∧
          t'.account = update t.account uid (some (t.balance uid + amount)) ∧
          t'.accountRecord = t.accountRecord ++
            [⟨uid, ⟨type.code, amount, t.balance uid + amount, env.now⟩⟩]) := by
  cases hf : chargeFails env with
  | true => exact .inl (charge_of_fails hf uid type amount)
  | false =>
    cases hu : t.hasUser uid with
    | false => exact .inr (.inl ⟨rfl, charge_of_no_user hf hu type amount⟩)
    | true =>
      have hdone := charge_of_user hf hu type amount
      by_cases hfit : Fits (t.balance uid) amount
      · rw [if_pos hfit] at hdone
        exact .inr (.inr ⟨rfl, hfit, hdone⟩)
      · rw [if_neg hfit] at hdone
        exact .inl hdone

end Tables

theorem Db.run_getBalance (env : Env) (uid : Int32) {db : Db P} (hdb : db.txn = none) :
    (Mysql.getBalance uid).run (exec env) db = (db.committed.readBalance env uid, db) := by
  unfold Mysql.getBalance Tables.readBalance
  rw [run_single env _ rfl _ hdb]
  simp only [Stmt.apply, Tables.balance]
  cases env.fails .balanceSelect <;> cases db.committed.account uid <;> rfl

namespace Production

/-- The answer is read after the transaction, from what is then committed. -/
theorem sql_addBalance (env : Env) (uid : Int32) (type : RecordType) (amount : Int32)
    (s : Production P) :
    s.sql env (Mysql.addBalance uid type amount) =
      (((s.tables.charge env uid type amount).getD s.tables).readBalance env uid,
        { s with tables := (s.tables.charge env uid type amount).getD s.tables }) := by
  unfold sql Mysql.addBalance
  simp only [Db.run_withLease, Prog.run_bind, Db.run_run, Db.query_start, Option.any_some]
  rw [Tables.charge_eq _ env s.ids]
  by_cases hbegin : env.fails .chargeBegin
  · simp [hbegin, Db.run_getBalance]
  simp only [hbegin, Bool.false_eq_true, if_false, Option.isSome_some, Bool.not_true, false_or,
    Prog.run_bind]
  have hall := Db.run_runAll env 0 s.tables s.ids 1 (Mysql.chargeStmts uid type amount)
    (by simp [Mysql.chargeStmts, Stmt.control, Stmt.bump]) s.tables
  cases happ : Db.applyAll env s.ids (Mysql.chargeStmts uid type amount) s.tables with
  | none =>
    simp only [happ] at hall
    obtain ⟨t', ht'⟩ := hall
    simp [ht', Prog.run_bind, Db.run_rollback, Db.run_getBalance]
  | some t' =>
    simp only [happ] at hall
    simp only [hall, Bool.not_true, Bool.false_eq_true, if_false, Prog.run_bind, Db.run_run,
      Db.query_commit, Option.any_some]
    by_cases hcommit : env.fails .chargeCommit
    · simp [hcommit, Prog.run_bind, Db.run_rollback, Db.run_getBalance]
    · simp [hcommit, Db.run_getBalance, Db.view]

end Production

/-! ## Users -/

namespace Tables

/-- The table has this row of the mobile. -/
def Has (t : Tables P) (mobile : String) (u : User) : Prop :=
  u ∈ t.userinfo ∧ P.collation u.mobile = P.collation mobile

theorem has_of_find {u : User}
    (h : (t.userinfo.find? fun u => P.collation u.mobile = P.collation mobile) = some u) :
    t.Has mobile u :=
  (Keyed.find?_eq_some_iff t.userinfo_mobile).mp h

/-- A mobile has one row at most. -/
theorem Has.unique {u v : User} (hu : t.Has mobile u) (hv : t.Has mobile v) :
    u = v :=
  List.inj_on_of_nodup_map t.userinfo_mobile hu.1 hv.1 (hu.2.trans hv.2.symm)

theorem Has.find {u : User} (h : t.Has mobile u) :
    (t.userinfo.find? fun u => P.collation u.mobile = P.collation mobile) = some u :=
  (Keyed.find?_eq_some_iff t.userinfo_mobile).mpr h

/-- What `find_by_mobile` reads. -/
def readUser (t : Tables P) (env : Env) (site : Site) (mobile : String) : Option User :=
  if env.fails site then none
  else t.userinfo.find? fun u => P.collation u.mobile = P.collation mobile

end Tables

theorem Db.run_findByMobile (env : Env) (site : Site) (mobile : String) {db : Db P}
    (hdb : db.txn = none) :
    (Mysql.findByMobile site mobile).run (exec env) db =
      (db.committed.readUser env site mobile, db) := by
  unfold Mysql.findByMobile Tables.readUser
  rw [run_single env _ rfl _ hdb]
  simp only [Stmt.apply, ← List.head?_filter]
  cases env.fails site <;> rfl

namespace Production

/-- A mobile that cannot be inserted and is not found is the user with id 0. -/
theorem sql_findOrCreate (env : Env) (mobile : String) (s : Production P) :
    s.sql env (Mysql.findOrCreate mobile) =
      match s.tables.readUser env .userSelect mobile with
      | some u => (u, s)
      | none =>
        match if env.fails .userInsert then none else s.tables.insertUser s.ids.user mobile with
        | some t => (⟨s.ids.user, mobile⟩,
            { s with tables := t, ids := { s.ids with user := s.ids.user + 1 } })
        | none => ((s.tables.readUser env .userSelectAgain mobile).getD ⟨0, ""⟩, s) := by
  unfold sql Mysql.findOrCreate
  rw [Prog.run_bind, Db.run_findByMobile env _ _ rfl]
  cases hfound : s.tables.readUser env .userSelect mobile with
  | some u => rfl
  | none =>
    simp only [Db.run_withLease, Prog.run_bind, Mysql.query, Prog.run_ask, Db.exec_query,
      Db.query_eq env _ _ (show (Stmt.insertUser mobile).control = false from rfl),
      Option.any_some, Db.view]
    by_cases hf : env.fails .userInsert
    · simp [hf, Db.run_findByMobile, Prog.run_bind]
    · simp only [hf, Bool.false_eq_true, if_false, Stmt.apply]
      cases hins : s.tables.insertUser s.ids.user mobile with
      | none => simp [Db.run_findByMobile, Prog.run_bind]
      | some t => simp [Db.store, Stmt.bump]

end Production

/-! ## Archiving a ride -/

namespace Tables

/-- The insertions of the points, counted from `i`. -/
def insertPositions (env : Env) (rideId : Int) :
    Nat → List RidePoint → Tables P → Option (Tables P)
  | _, [], t => some t
  | i, p :: rest, t =>
    if env.fails (.ridePoint i) then none
    else (t.insertPosition rideId p).bind (insertPositions env rideId (i + 1) rest)

theorem pointStmts_plain (ids : Counters) (rideId : Int) (i : Nat) (points : List RidePoint) :
    ∀ x ∈ Mysql.pointStmts rideId i points, x.2.control = false ∧ x.2.bump ids = ids := by
  induction points generalizing i with
  | nil => simp [Mysql.pointStmts]
  | cons p rest ih =>
    intro x hx
    rcases List.mem_cons.mp hx with rfl | hx
    · exact ⟨rfl, rfl⟩
    · exact ih (i + 1) x hx

theorem applyAll_pointStmts (env : Env) (ids : Counters) (rideId : Int) (i : Nat)
    (points : List RidePoint) (t : Tables P) :
    Db.applyAll env ids (Mysql.pointStmts rideId i points) t =
      insertPositions env rideId i points t := by
  induction points generalizing i t with
  | nil => rfl
  | cons p rest ih =>
    simp only [Mysql.pointStmts, Db.applyAll, insertPositions, Stmt.apply]
    cases t.insertPosition rideId p with
    | none => rfl
    | some t' => simp only [Option.map_some, Option.bind_some, ih]

/-- The whole `create_with_points` transaction; `none` is a rollback. -/
def archiveRide (t : Tables P) (env : Env) (rideId : Int) (inp : CreateRideInput) :
    Option (Tables P) :=
  if env.fails .rideBegin ∨ env.fails .rideInsert ∨ env.fails .rideCommit then none
  else (t.insertRide rideId inp).bind (insertPositions env rideId 0 inp.points)

/-- The points go to their own table. -/
theorem insertPositions_ride {env : Env} {rideId : Int} {i : Nat} {points : List RidePoint}
    {t t' : Tables P} (h : insertPositions env rideId i points t = some t') :
    t'.ride = t.ride := by
  induction points generalizing i t with
  | nil =>
    cases h
    rfl
  | cons p rest ih =>
    simp only [insertPositions, Option.ite_none_left_eq_some, Option.bind_eq_some_iff] at h
    obtain ⟨-, t'', hins, hrest⟩ := h
    rw [ih hrest]
    simp only [insertPosition, Option.bind_eq_bind, Option.bind_eq_some_iff,
      Option.dite_none_right_eq_some] at hins
    obtain ⟨row, -, hmem, heq⟩ := hins
    cases heq
    rfl

/-- A ride that is archived is one more row, under its number. -/
theorem archiveRide_ride {env : Env} {rideId : Int} {inp : CreateRideInput} {t t' : Tables P}
    (h : t.archiveRide env rideId inp = some t') :
    ∃ row, inp.row rideId = some row ∧ t'.ride = t.ride ++ [row] := by
  simp only [archiveRide, Option.ite_none_left_eq_some, Option.bind_eq_some_iff] at h
  obtain ⟨-, t'', hins, hpos⟩ := h
  rw [insertPositions_ride hpos]
  simp only [insertRide, Option.bind_eq_bind, Option.bind_eq_some_iff,
    Option.dite_none_right_eq_some] at hins
  obtain ⟨row, hrow, hok, heq⟩ := hins
  cases heq
  exact ⟨row, hrow, rfl⟩

end Tables

namespace Production

/-- The id of a ride that is rolled back is used up. -/
theorem sql_createWithPoints (env : Env) (inp : CreateRideInput) (s : Production P) :
    ∃ ids, ((s.tables.archiveRide env s.ids.ride inp).isSome → ids.ride = s.ids.ride + 1) ∧
      s.sql env (Mysql.createWithPoints inp) =
      match s.tables.archiveRide env s.ids.ride inp with
      | some t => (inp.toRide (Int32.ofInt s.ids.ride), { s with tables := t, ids })
      | none => (.empty, { s with ids }) := by
  unfold sql Mysql.createWithPoints Tables.archiveRide
  simp only [Db.run_withLease, Prog.run_bind, Db.run_run, Db.query_start, Option.any_some]
  by_cases hbegin : env.fails .rideBegin
  · exact ⟨s.ids, by simp [hbegin], by simp [hbegin]⟩
  simp only [hbegin, Bool.false_eq_true, if_false, Option.isSome_some, Bool.not_true, false_or,
    Prog.run_bind, Mysql.query, Prog.run_ask, Db.exec_query,
    Db.query_txn env _ _ (show (Stmt.insertRide inp).control = false from rfl)]
  by_cases hinsert : env.fails .rideInsert
  · exact ⟨s.ids, by simp [hinsert], by simp [hinsert, Prog.run_bind, Db.run_rollback]⟩
  simp only [hinsert, Bool.false_eq_true, if_false, false_or, Stmt.apply]
  cases hins : s.tables.insertRide s.ids.ride inp with
  | none => exact ⟨s.ids, by simp, by simp [Prog.run_bind, Db.run_rollback]⟩
  | some t =>
    refine ⟨Stmt.bump s.ids (.insertRide inp), fun _ => rfl, ?_⟩
    simp only [Option.map_some, Option.bind_some, Prog.run_bind]
    have hall := Db.run_runAll env 0 s.tables (Stmt.bump s.ids (.insertRide inp)) 1
      (Mysql.pointStmts s.ids.ride 0 inp.points) (Tables.pointStmts_plain _ _ _ _) t
    rw [Tables.applyAll_pointStmts] at hall
    cases hpos : Tables.insertPositions env s.ids.ride 0 inp.points t with
    | none =>
      simp only [hpos] at hall
      obtain ⟨t', ht'⟩ := hall
      simp [ht', Prog.run_bind, Db.run_rollback]
    | some t' =>
      simp only [hpos] at hall
      simp only [hall, Bool.not_true, Bool.false_eq_true, if_false, Prog.run_bind, Db.run_run,
        Db.query_commit, Option.any_some]
      by_cases hcommit : env.fails .rideCommit
      · simp [hcommit, Prog.run_bind, Db.run_rollback]
      · simp [hcommit, Db.view]

end Production

/-! ## Reading rides and bikes -/

namespace Tables

def rideNamed (t : Tables P) (rideNo : String) : Option RideRow :=
  t.ride.find? fun r => P.collation r.rideNo = P.collation rideNo

/-- The points of a ride, in the order of their numbers. -/
def pointsOf (t : Tables P) (rideId : Int32) : List PositionRow :=
  (t.ridePosition.filter (·.rideId = rideId.toInt)).insertionSort fun a b => a.seq ≤ b.seq

/-- A user's rides, newest first. -/
def ridesOf (t : Tables P) (uid : Int32) : List RideRow :=
  (t.ride.filter (·.userId = uid)).reverse.insertionSort fun a b => b.startTm ≤ a.startTm

def bikeNamed (t : Tables P) (bikeNo : String) : Option BikeRow :=
  t.bike.find? fun b => P.collation b.bikeNo = P.collation bikeNo

/-- The bikes in a box that are not rented; a bound that is no number is an error. -/
def bikesInBox (t : Tables P) (latMin latMax lngMin lngMax : Double) : Option (List BikeRow) := do
  let latMin ← latMin.dec7
  let latMax ← latMax.dec7
  let lngMin ← lngMin.dec7
  let lngMax ← lngMax.dec7
  some (t.bike.filter fun b => b.status ≠ .rented ∧ latMin ≤ b.lat ∧ b.lat ≤ latMax ∧
    lngMin ≤ b.lng ∧ b.lng ≤ lngMax)

end Tables

/-- A point as `list_points` reads it. -/
def Mysql.rowToPoint (P : Platform) (row : PositionRow) : RidePoint :=
  ⟨row.seq, P.atof7 row.lat, P.atof7 row.lng, row.elapsedSec⟩

namespace Production

variable (env : Env) (s : Production P)

/-- A text that is cut is an error, and an error reads as no ride. -/
theorem exec_findByNo (rideNo : String) :
    exec env (.findByNo rideNo) s =
      (if env.fails .rideSelect = true ∨ rideByNoWhole rideNo = false then none
        else (s.tables.rideNamed rideNo).map (Mysql.rowToRide P), s) := by
  rw [exec, Mysql.findByNo, sql_single env _ rfl]
  cases env.fails .rideSelect with
  | true => simp only [if_true, true_or]
  | false =>
    cases hwhole : rideByNoWhole rideNo <;>
      simp [Stmt.apply, Stmt.bump, hwhole, Tables.rideNamed]

theorem exec_listPoints (rideId : Int32) :
    exec env (.listPoints rideId) s =
      (if env.fails .pointsSelect then []
        else (s.tables.pointsOf rideId).map (Mysql.rowToPoint P), s) := by
  rw [exec, Mysql.listPoints, sql_single env _ rfl]
  cases env.fails .pointsSelect <;> rfl

/-- The rides that what is left of the limit lets through. -/
theorem exec_listByUser (uid limit : Int32) :
    exec env (.listByUser uid limit) s =
      (if env.fails .ridesSelect then []
        else ((s.tables.ridesOf uid).take
          ((limitLeft uid limit).most (s.tables.ridesOf uid).length)).map (Mysql.rowToRide P),
        s) := by
  rw [exec, Mysql.listByUser, sql_single env _ rfl]
  by_cases hf : env.fails .ridesSelect = true
  · simp only [hf, if_true]
  · simp only [if_neg hf, Stmt.apply, ← LimitClause.getD_apply]
    show _ = ((((limitLeft uid limit).apply (s.tables.ridesOf uid)).getD []).map _, s)
    cases happly : (limitLeft uid limit).apply (s.tables.ridesOf uid) with
    | none =>
      simp only [Tables.ridesOf] at happly
      simp only [happly, Option.map_none]
      rfl
    | some rows =>
      simp only [Tables.ridesOf] at happly
      simp only [happly, Option.map_some, Stmt.bump]
      rfl

theorem exec_listInBounds (latMin latMax lngMin lngMax : Double) :
    exec env (.listInBounds latMin latMax lngMin lngMax) s =
      (if env.fails .bikesSelect then []
        else ((s.tables.bikesInBox latMin latMax lngMin lngMax).getD []).map (Mysql.rowToBike P),
        s) := by
  rw [exec, Mysql.listInBounds, sql_single env _ rfl]
  cases env.fails .bikesSelect with
  | true => rfl
  | false =>
    simp only [Stmt.apply, Tables.bikesInBox]
    cases latMin.dec7 <;> cases latMax.dec7 <;> cases lngMin.dec7 <;> cases lngMax.dec7 <;> rfl

theorem exec_getForUpdate (bikeNo : String) :
    exec env (.getForUpdate bikeNo) s =
      (if env.fails .bikeSelect then none
        else (s.tables.bikeNamed bikeNo).map (Mysql.rowToBike P), s) := by
  rw [exec, Mysql.getForUpdate, sql_single env _ rfl]
  rw [Tables.bikeNamed, ← List.head?_filter]
  cases env.fails .bikeSelect <;> rfl

theorem exec_updateStatus (id : Int32) (status : BikeStatus) :
    exec env (.updateStatus id status) s =
      if env.fails .bikeStatus then (false, s)
      else (decide (0 < (s.tables.bike.filter fun b => b.id = id ∧ b.status ≠ status).length),
        { s with
          tables := s.tables.updateBike id (fun b => { b with status }) fun _ => ⟨rfl, rfl⟩ }) := by
  rw [exec, Mysql.updateStatus, sql_single env _ rfl]
  cases env.fails .bikeStatus <;> rfl

/-- A coordinate that does not fit its column is an error. -/
theorem exec_updateLocation (id : Int32) (lat lng : Double) :
    exec env (.updateLocation id lat lng) s =
      match if env.fails .bikeLocation then none else some (decimal lat, decimal lng) with
      | some (some lat, some lng) =>
        (decide (0 < (s.tables.bike.filter fun b => b.id = id ∧ (b.lat ≠ lat ∨ b.lng ≠ lng)).length),
          { s with
            tables := s.tables.updateBike id (fun b => { b with lat, lng }) fun _ => ⟨rfl, rfl⟩ })
      | _ => (false, s) := by
  rw [exec, Mysql.updateLocation, sql_single env _ rfl]
  simp only [Stmt.apply]
  cases env.fails .bikeLocation <;> cases decimal lat <;> cases decimal lng <;> rfl

theorem exec_insert (b : Bike) :
    exec env (.insert b) s =
      match if env.fails .bikeInsert then none else s.tables.insertBike s.ids.bike b with
      | some t => (some { b with id := s.ids.bike },
          { s with tables := t, ids := { s.ids with bike := s.ids.bike + 1 } })
      | none => (none, s) := by
  rw [exec, Mysql.insert, sql_single env _ rfl]
  simp only [Stmt.apply]
  cases env.fails .bikeInsert <;> cases s.tables.insertBike s.ids.bike b <;> rfl

end Production

end SharedBike.Server
