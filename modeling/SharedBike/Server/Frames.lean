import SharedBike.Server.MysqlLaws

/-!
# What a repository call leaves alone

Each call writes to few tables (`RepoCall.targets`), in either deployment.
For the database this is read off the statements an operation sends
(`Sends`), whatever they answer and however its transaction ends. The
theorems at the end say it for the views of `Server.World`.
-/

namespace SharedBike.Server

open SharedBike.Common SharedBike.Lib

variable {P : Platform} {T : Table} {stmt : Stmt} {S : Stmt → Prop} {tables : List Table} {α : Type}

/-! ## Which table a call can change -/

inductive Table where
  | userinfo
  | account
  | accountRecord
  | bike
  | ride
  | ridePosition
  deriving DecidableEq

/-- The table a statement writes to. -/
def Stmt.target : Stmt → Option Table
  | .insertUser _ => some .userinfo
  | .insertIgnoreAccount _ => some .account
  | .updateBalance _ _ => some .account
  | .insertRecord _ _ _ => some .accountRecord
  | .insertRide _ => some .ride
  | .insertPosition _ _ => some .ridePosition
  | .updateBikeStatus _ _ => some .bike
  | .updateBikeLocation _ _ _ => some .bike
  | .insertBike _ => some .bike
  | _ => none

/-- The tables a repository call writes to. -/
def RepoCall.targets : RepoCall → List Table
  | .findOrCreate _ => [.userinfo]
  | .addBalance _ _ _ => [.account, .accountRecord]
  | .updateStatus _ _ => [.bike]
  | .updateLocation _ _ _ => [.bike]
  | .insert _ => [.bike]
  | .createWithPoints _ => [.ride, .ridePosition]
  | _ => []

/-- Two states of the tables that agree on one of them. -/
def Tables.SameIn (t t' : Tables P) : Table → Prop
  | .userinfo => t'.userinfo = t.userinfo
  | .account => t'.account = t.account
  | .accountRecord => t'.accountRecord = t.accountRecord
  | .bike => t'.bike = t.bike
  | .ride => t'.ride = t.ride
  | .ridePosition => t'.ridePosition = t.ridePosition

theorem Tables.SameIn.refl (t : Tables P) (T : Table) : t.SameIn t T := by
  cases T <;> rfl

theorem Tables.SameIn.trans {t t' t'' : Tables P} (h : t.SameIn t' T) (h' : t'.SameIn t'' T) :
    t.SameIn t'' T := by
  cases T <;> exact Eq.trans h' h

/-- A statement leaves every table but its own as it was. -/
theorem Stmt.apply_sameIn {now : Nat} {ids : Counters} {t t' : Tables P} {rows : stmt.Rows}
    (h : stmt.apply now ids t = some (rows, t')) (hT : stmt.target ≠ some T) :
    t.SameIn t' T := by
  cases stmt with
  | insertUser mobile =>
    simp only [apply, Tables.insertUser, Option.map_eq_some_iff,
      Option.dite_none_right_eq_some] at h
    obtain ⟨_, ⟨_, h⟩, h'⟩ := h
    cases h
    cases h'
    cases T <;> first | rfl | exact absurd rfl hT
  | insertIgnoreAccount uid =>
    simp only [apply, Tables.insertIgnoreAccount] at h
    cases h
    split <;> cases T <;> first | rfl | exact absurd rfl hT
  | updateBalance uid amount =>
    simp only [apply, Option.map_eq_some_iff] at h
    obtain ⟨t'', h, h'⟩ := h
    cases h'
    unfold Tables.updateBalance at h
    split at h
    · cases h
      exact .refl t T
    · split at h
      · cases h
        cases T <;> first | rfl | exact absurd rfl hT
      · cases h
  | insertRecord uid type amount =>
    simp only [apply, Tables.insertRecord] at h
    cases h
    split <;> cases T <;> first | rfl | exact absurd rfl hT
  | insertRide inp =>
    simp only [apply, Tables.insertRide, Option.map_eq_some_iff, Option.bind_eq_bind,
      Option.bind_eq_some_iff, Option.dite_none_right_eq_some] at h
    obtain ⟨_, ⟨_, _, _, h⟩, h'⟩ := h
    cases h
    cases h'
    cases T <;> first | rfl | exact absurd rfl hT
  | insertPosition rideId p =>
    simp only [apply, Tables.insertPosition, Option.map_eq_some_iff, Option.bind_eq_bind,
      Option.bind_eq_some_iff, Option.dite_none_right_eq_some] at h
    obtain ⟨_, ⟨_, _, _, h⟩, h'⟩ := h
    cases h
    cases h'
    cases T <;> first | rfl | exact absurd rfl hT
  | updateBikeStatus id status =>
    cases h
    cases T <;> first | rfl | exact absurd rfl hT
  | updateBikeLocation id lat lng =>
    simp only [apply, Option.bind_eq_bind, Option.bind_eq_some_iff] at h
    obtain ⟨_, _, _, _, h⟩ := h
    cases h
    cases T <;> first | rfl | exact absurd rfl hT
  | insertBike b =>
    simp only [apply, Tables.insertBike, Option.map_eq_some_iff, Option.bind_eq_bind,
      Option.bind_eq_some_iff, Option.dite_none_right_eq_some] at h
    obtain ⟨_, ⟨_, _, _, _, _, h⟩, h'⟩ := h
    cases h
    cases h'
    cases T <;> first | rfl | exact absurd rfl hT
  | selectRecords uid limit | selectRides uid limit =>
    simp only [apply, Option.map_eq_some_iff] at h
    obtain ⟨_, _, h⟩ := h
    cases h
    exact .refl t T
  | selectRideByNo rideNo =>
    simp only [apply, Option.ite_none_right_eq_some] at h
    cases h.2
    exact .refl t T
  | selectBikesInBox latMin latMax lngMin lngMax =>
    simp only [apply, Option.bind_eq_bind, Option.bind_eq_some_iff] at h
    obtain ⟨_, _, _, _, _, _, _, _, h⟩ := h
    cases h
    exact .refl t T
  | _ =>
    cases h
    exact .refl t T

/-- The statements an operation sends, whatever the answers are. -/
def issues (S : Stmt → Prop) : Discipline SqlCall SqlCall.Res Unit where
  allowed _ c := match c with
    | .query _ _ stmt => S stmt
    | _ => True
  next _ _ _ := ()

/-- An operation that sends only statements in `S`. -/
abbrev Sends {α : Type} (S : Stmt → Prop) (p : Sql α) : Prop :=
  p.Obeys (issues S) (fun _ _ => True) ()

theorem sends_withLease {body : Nat → Sql α} (h : ∀ conn, Sends S (body conn)) :
    Sends S (Mysql.withLease body) :=
  ⟨trivial, fun conn => (h conn).bind fun _ _ _ => ⟨trivial, fun _ => trivial⟩⟩

theorem sends_single {site : Site} {f : Option stmt.Rows → α} (h : S stmt) :
    Sends S (Mysql.single site stmt f) :=
  sends_withLease fun _ => ⟨h, fun _ => trivial⟩

theorem sends_runAll (conn : Nat) {stmts : List (Site × Stmt)} (h : ∀ x ∈ stmts, S x.2) :
    Sends S (Mysql.runAll conn stmts) := by
  induction stmts with
  | nil => trivial
  | cons x rest ih =>
    refine ⟨h x List.mem_cons_self, fun res => ?_⟩
    cases res with
    | none => trivial
    | some rows => exact ih fun y hy => h y (List.mem_cons_of_mem _ hy)

/-- What is committed and what is pending both agree with `t` on one table. -/
def Db.Agrees (t : Tables P) (T : Table) (db : Db P) : Prop :=
  t.SameIn db.committed T ∧ ∀ conn t', db.txn = some (conn, t') → t.SameIn t' T

theorem Db.Agrees.view {t : Tables P} {db : Db P} (h : db.Agrees t T) (conn : Nat) :
    t.SameIn (db.view conn) T := by
  unfold Db.view
  split
  next c t' htxn =>
    split
    · exact h.2 c t' htxn
    · exact h.1
  · exact h.1

theorem Db.Agrees.store {t t' : Tables P} {db : Db P} (h : db.Agrees t T) (conn : Nat)
    (ht : t.SameIn t' T) : (db.store conn t').Agrees t T := by
  unfold Db.store
  split
  next c t'' htxn =>
    split
    · exact ⟨h.1, fun _ _ heq => by cases heq; exact ht⟩
    · exact ⟨ht, h.2⟩
  · exact ⟨ht, h.2⟩

theorem Db.Agrees.query {t : Tables P} {db : Db P} (h : db.Agrees t T) (env : Env) (conn : Nat)
    (site : Option Site) (hT : stmt.target ≠ some T) :
    (db.query env conn site stmt).2.Agrees t T := by
  cases hctl : stmt.control with
  | false =>
    rw [query_eq env conn site hctl]
    split
    · exact h
    · split
      · exact h
      next rows t' happ =>
        have hkeep := (h.view conn).trans (Stmt.apply_sameIn happ hT)
        exact ⟨(h.store conn hkeep).1, (h.store conn hkeep).2⟩
  | true =>
    cases stmt with
    | startTransaction =>
      rw [query_start]
      split
      · exact h
      · exact ⟨h.1, fun _ _ heq => by cases heq; exact h.1⟩
    | commit =>
      rw [query_commit]
      split
      · exact h
      · exact ⟨h.view conn, fun _ _ heq => by cases heq⟩
    | rollback => exact ⟨h.1, fun _ _ heq => by cases heq⟩
    | _ => cases hctl

/-- An operation leaves every table alone that none of its statements writes to. -/
theorem Production.sql_sameIn {p : Sql α} (hp : Sends S p)
    (hT : ∀ stmt, S stmt → stmt.target ≠ some T) (env : Env) (s : Production P) :
    s.tables.SameIn (s.sql env p).2.tables T := by
  have hstep : ∀ (q : Unit) (c : SqlCall) (db : Db P), db.Agrees s.tables T →
      (issues S).allowed q c → (Db.exec env c db).2.Agrees s.tables T := by
    intro _ c db h hc
    cases c with
    | acquire => exact h
    | release conn => exact h
    | query conn site stmt => exact h.query env conn site (hT stmt hc)
  have hstart : (⟨s.tables, none, s.ids, 0⟩ : Db P).Agrees s.tables T :=
    ⟨.refl _ T, fun _ _ h => by cases h⟩
  obtain ⟨_, -, hend⟩ := hp.run hstep hstart
  exact hend.1

/-- The statements that write only to the given tables. -/
def WritesTo (tables : List Table) (stmt : Stmt) : Prop :=
  ∀ T, stmt.target = some T → T ∈ tables

theorem writesTo_of_target (h : stmt.target = none) :
    WritesTo tables stmt := by
  intro T hT
  rw [h] at hT
  cases hT

theorem writesTo_of_mem (h : stmt.target = some T) (hT : T ∈ tables) :
    WritesTo tables stmt := by
  intro T' hT'
  rw [h] at hT'
  cases hT'
  exact hT

theorem sends_getBalance (tables : List Table) (uid : Int32) :
    Sends (WritesTo tables) (Mysql.getBalance uid) :=
  sends_single (writesTo_of_target rfl)

theorem sends_rollback (conn : Nat) {p : Sql α} (hp : Sends (WritesTo tables) p) :
    Sends (WritesTo tables) (Mysql.rollback conn >>= fun _ => p) :=
  ⟨writesTo_of_target rfl, fun _ => hp⟩

theorem sends_addBalance (uid : Int32) (type : RecordType) (amount : Int32) :
    Sends (WritesTo [.account, .accountRecord]) (Mysql.addBalance uid type amount) := by
  have hread := sends_getBalance [.account, .accountRecord] uid
  refine sends_withLease fun conn => ⟨writesTo_of_target rfl, fun res => ?_⟩
  cases res with
  | none => exact hread
  | some _ =>
    refine (sends_runAll conn ?_).bind fun _ ok _ => ?_
    · simp [Mysql.chargeStmts, WritesTo, Stmt.target]
    · cases ok with
      | false => exact sends_rollback conn hread
      | true =>
        refine ⟨writesTo_of_target rfl, fun res => ?_⟩
        cases res with
        | none => exact sends_rollback conn hread
        | some _ => exact hread

theorem sends_findOrCreate (mobile : String) :
    Sends (WritesTo [.userinfo]) (Mysql.findOrCreate mobile) := by
  have hfind : ∀ site, Sends (WritesTo [.userinfo]) (Mysql.findByMobile site mobile) :=
    fun site => sends_single (writesTo_of_target rfl)
  refine (hfind .userSelect).bind fun _ found _ => ?_
  cases found with
  | some u => trivial
  | none =>
    refine sends_withLease fun conn => ⟨writesTo_of_mem rfl (by simp), fun res => ?_⟩
    cases res with
    | none => exact (hfind .userSelectAgain).bind fun _ _ _ => trivial
    | some id => trivial

theorem sends_createWithPoints (inp : CreateRideInput) :
    Sends (WritesTo [.ride, .ridePosition]) (Mysql.createWithPoints inp) := by
  have hpoints : ∀ rideId i points, ∀ x ∈ Mysql.pointStmts rideId i points,
      WritesTo [.ride, .ridePosition] x.2 := by
    intro rideId i points
    induction points generalizing i with
    | nil => simp [Mysql.pointStmts]
    | cons p rest ih =>
      intro x hx
      rcases List.mem_cons.mp hx with rfl | hx
      · exact writesTo_of_mem rfl (by simp)
      · exact ih (i + 1) x hx
  refine sends_withLease fun conn => ⟨writesTo_of_target rfl, fun res => ?_⟩
  cases res with
  | none => trivial
  | some _ =>
    refine ⟨writesTo_of_mem rfl (by simp), fun res => ?_⟩
    cases res with
    | none => exact sends_rollback conn trivial
    | some rideId =>
      refine (sends_runAll conn (hpoints rideId 0 inp.points)).bind fun _ ok _ => ?_
      cases ok with
      | false => exact sends_rollback conn trivial
      | true =>
        refine ⟨writesTo_of_target rfl, fun res => ?_⟩
        cases res with
        | none => exact sends_rollback conn trivial
        | some _ => trivial

/-- A repository call leaves every table alone but its own. -/
theorem Production.exec_sameIn (env : Env) (c : RepoCall) (s : Production P) (hT : T ∉ c.targets) :
    s.tables.SameIn (exec env c s).2.tables T := by
  have keep : ∀ {α : Type} {p : Sql α}, Sends (WritesTo c.targets) p →
      s.tables.SameIn (s.sql env p).2.tables T :=
    fun hp => sql_sameIn hp (fun stmt hstmt htarget => hT (hstmt T htarget)) env s
  cases c with
  | findByMobile mobile | listRecords uid limit | getForUpdate bikeNo | findByNo rideNo
  | listPoints rideId | listByUser uid limit =>
    exact keep (sends_single (writesTo_of_target rfl))
  | findOrCreate mobile => exact keep (sends_findOrCreate mobile)
  | getBalance uid => exact keep (sends_getBalance _ uid)
  | addBalance uid type amount => exact keep (sends_addBalance uid type amount)
  | updateStatus id status | updateLocation id lat lng =>
    exact keep (sends_single (writesTo_of_mem rfl List.mem_cons_self))
  | listInBounds latMin latMax lngMin lngMax =>
    exact keep (sends_single (writesTo_of_target rfl))
  | insert b => exact keep (sends_single (writesTo_of_mem rfl List.mem_cons_self))
  | createWithPoints inp => exact keep (sends_createWithPoints inp)
  | _ => exact .refl _ T

/-! ## The in-memory repositories -/

/-- Two states of the repositories that agree on what stands for one table. -/
def InMemory.SameIn (m m' : InMemory) : Table → Prop
  | .userinfo => m'.users = m.users
  | .account => m'.balances = m.balances
  | .accountRecord => m'.records = m.records
  | .bike => m'.bikes = m.bikes
  | .ride => m'.rides = m.rides ∧ m'.rideByNo = m.rideByNo
  | .ridePosition => m'.points = m.points

theorem InMemory.SameIn.refl (m : InMemory) (T : Table) : m.SameIn m T := by
  cases T <;> first | rfl | exact ⟨rfl, rfl⟩

theorem InMemory.exec_sameIn (env : Env) (c : RepoCall) (m : InMemory) (hT : T ∉ c.targets) :
    m.SameIn (exec env c m).2 T := by
  cases c with
  | findOrCreate mobile =>
    simp only [exec, findOrCreate]
    split
    · exact .refl m T
    · cases T <;> first | rfl | exact ⟨rfl, rfl⟩ | simp [RepoCall.targets] at hT
  | addBalance uid type amount =>
    simp only [exec, addBalance]
    split
    · exact .refl m T
    · cases T <;> first | rfl | exact ⟨rfl, rfl⟩ | simp [RepoCall.targets] at hT
  | getCode mobile =>
    simp only [exec, getCode]
    split
    · exact .refl m T
    · split <;> exact .refl m T
  | lookupSession token =>
    simp only [exec, lookupSession]
    split
    · exact .refl m T
    · split <;> exact .refl m T
  | insert b =>
    simp only [exec, insert]
    split
    · cases T <;> first | rfl | exact ⟨rfl, rfl⟩ | simp [RepoCall.targets] at hT
    · exact .refl m T
  | updateStatus id status | updateLocation id lat lng | createWithPoints inp =>
    cases T <;> first | rfl | exact ⟨rfl, rfl⟩ | simp [RepoCall.targets] at hT
  | _ => exact .refl m T

/-- Only `insert` and `create_with_points` move a counter of the in-memory repository. -/
theorem InMemory.exec_counters (env : Env) (c : RepoCall) (m : InMemory) :
    ((∀ b, c ≠ .insert b) → (exec env c m).2.nextBikeId = m.nextBikeId) ∧
      ((∀ inp, c ≠ .createWithPoints inp) → (exec env c m).2.nextRideId = m.nextRideId) := by
  cases c with
  | insert b =>
    simp only [exec, insert]
    exact ⟨fun h => absurd rfl (h b), fun _ => by split <;> rfl⟩
  | createWithPoints inp => exact ⟨fun _ => rfl, fun h => absurd rfl (h inp)⟩
  | findOrCreate mobile =>
    simp only [exec, findOrCreate]
    split <;> exact ⟨fun _ => rfl, fun _ => rfl⟩
  | addBalance uid type amount =>
    simp only [exec, addBalance]
    split <;> exact ⟨fun _ => rfl, fun _ => rfl⟩
  | getCode mobile =>
    simp only [exec, getCode]
    split <;> [skip; split] <;> exact ⟨fun _ => rfl, fun _ => rfl⟩
  | lookupSession token =>
    simp only [exec, lookupSession]
    split <;> [skip; split] <;> exact ⟨fun _ => rfl, fun _ => rfl⟩
  | _ => exact ⟨fun _ => rfl, fun _ => rfl⟩

/-! ## The views of either deployment -/

namespace Deployment

variable (d : Deployment) (env : Env) (c : RepoCall) (s : d.Repos P)

theorem balance_exec (h : .account ∉ c.targets) (uid : Int32) :
    d.balance P (d.exec P env c s).2 uid = d.balance P s uid := by
  cases d with
  | production =>
    have hsame : _ = _ := Production.exec_sameIn env c s h
    simp only [balance, exec, hsame]
  | inMemory =>
    have hsame : _ = _ := InMemory.exec_sameIn env c s h
    simp only [balance, InMemory.balance, exec, hsame]

theorem ledger_exec (h : .accountRecord ∉ c.targets) (uid : Int32) :
    d.ledger P (d.exec P env c s).2 uid = d.ledger P s uid := by
  cases d with
  | production =>
    have hsame : _ = _ := Production.exec_sameIn env c s h
    simp only [ledger, exec, hsame]
  | inMemory =>
    have hsame : _ = _ := InMemory.exec_sameIn env c s h
    simp only [ledger, exec, hsame]

theorem archived_exec (h : .ride ∉ c.targets) (rideNo : String) :
    d.archived P (d.exec P env c s).2 rideNo = d.archived P s rideNo := by
  cases d with
  | production =>
    have hsame : _ = _ := Production.exec_sameIn env c s h
    simp only [archived, exec, hsame]
  | inMemory =>
    have hsame := (InMemory.exec_sameIn env c s h).1
    simp only [archived, exec, hsame]

theorem statuses_exec (h : .bike ∉ c.targets) :
    d.statuses P (d.exec P env c s).2 = d.statuses P s := by
  cases d with
  | production =>
    have hsame : _ = _ := Production.exec_sameIn env c s h
    simp only [statuses, exec, hsame]
  | inMemory =>
    have hsame : _ = _ := InMemory.exec_sameIn env c s h
    simp only [statuses, exec, hsame]

end Deployment

end SharedBike.Server
