import SharedBike.Server.Frames

/-!
# Where the two account repositories agree

What `add_balance` is for is to post an amount to an account book: the
balance moves by the amount and the ledger gains one record of it. Seen as
a book, each repository either posts or leaves the book alone, and they
differ in when. The in-memory one refuses a debit beyond the balance; the
database takes every amount, but only for a user it knows.

`addBalance_agrees_iff` puts the two together: on the same book they give
the same answer and leave the same book exactly for known users and amounts
that are no overdraft. `overdraft_taken` is an overdraft: the tests see it
refused, and the database carries it out.
-/

namespace SharedBike.Server

open SharedBike.Common SharedBike.Lib

/-! ## Account books -/

/-- Balances and ledgers, by user. -/
@[ext] structure Book where
  balance : Int32 → Int32
  ledger : Int32 → List AccountRecord

namespace Book

/-- Move a balance by an amount, and put it on record. -/
def post (b : Book) (now : Nat) (uid : Int32) (type : RecordType) (amount : Int32) : Book where
  balance := Function.update b.balance uid (b.balance uid + amount)
  ledger := Function.update b.ledger uid
    (b.ledger uid ++ [⟨type.code, amount, b.balance uid + amount, now⟩])

/-- A posting is on record. -/
theorem post_ne (b : Book) (now : Nat) (uid : Int32) (type : RecordType) (amount : Int32) :
    b.post now uid type amount ≠ b := by
  intro h
  have hledger := congrFun (congrArg Book.ledger h) uid
  simp [post] at hledger

/-- A posting shows whose account it was made to. -/
theorem post_user {b : Book} {now : Nat} {uid uid' : Int32} {type : RecordType} {amount : Int32}
    (h : b.post now uid type amount = b.post now uid' type amount) : uid = uid' := by
  by_contra hne
  have hledger := congrFun (congrArg Book.ledger h) uid
  simp [post, hne] at hledger

end Book

variable {P : Platform}

/-- The account book of a deployment. -/
def Deployment.book (P : Platform) (d : Deployment) (s : d.Repos P) : Book :=
  ⟨d.balance P s, d.ledger P s⟩

/-- `add_balance` on the book: its answer, and the book it leaves. -/
def Deployment.addBalance (P : Platform) (d : Deployment) (env : Env) (uid : Int32)
    (type : RecordType) (amount : Int32) (s : d.Repos P) : Int32 × Book :=
  let (answer, s') := d.exec P env (.addBalance uid type amount) s
  (answer, d.book P s')

/-! ## Each repository on its book -/

/-- In memory, every amount is posted but an overdraft. -/
theorem InMemory.book_addBalance (P : Platform) (env : Env) (uid : Int32) (type : RecordType)
    (amount : Int32) (m : InMemory) :
    Deployment.inMemory.addBalance P env uid type amount m =
      if amount < 0 ∧ m.balance uid + amount < 0 then (-1, Deployment.inMemory.book P m)
      else (m.balance uid + amount,
        (Deployment.inMemory.book P m).post env.now uid type amount) := by
  simp only [Deployment.addBalance, Deployment.exec, exec, addBalance]
  split
  · rfl
  · refine Prod.ext rfl (Book.ext ?_ rfl)
    funext u
    by_cases hu : u = uid
    · subst hu
      simp [Deployment.book, Deployment.balance, balance, Book.post]
    · simp [Deployment.book, Deployment.balance, balance, Book.post, hu]

namespace Production

/-- No statement of the transaction fails, the user has a row, and the sum fits
the column. -/
def Charges (s : Production P) (env : Env) (uid amount : Int32) : Prop :=
  Tables.chargeFails env = false ∧ s.tables.hasUser uid = true ∧
    Tables.Fits (s.tables.balance uid) amount

instance (s : Production P) (env : Env) (uid amount : Int32) : Decidable (s.Charges env uid amount) :=
  inferInstanceAs (Decidable (_ ∧ _ ∧ _))

/-- In the database, an amount is posted by the whole transaction or not at all. -/
theorem book_charge (env : Env) (uid : Int32) (type : RecordType) (amount : Int32)
    (s : Production P) :
    Deployment.production.book P (s.sql env (Mysql.addBalance uid type amount)).2 =
      if s.Charges env uid amount then
        (Deployment.production.book P s).post env.now uid type amount
      else Deployment.production.book P s := by
  rw [sql_addBalance]
  cases hsites : Tables.chargeFails env with
  | true => simp [Charges, hsites, Tables.charge_of_fails]
  | false =>
    cases huser : s.tables.hasUser uid with
    | false => simp [Charges, huser, Tables.charge_of_no_user hsites huser]
    | true =>
      have hcharge := Tables.charge_of_user hsites huser type amount
      by_cases hfits : Tables.Fits (s.tables.balance uid) amount
      · rw [if_pos hfits] at hcharge
        obtain ⟨t', ht', hacc, hrec⟩ := hcharge
        rw [ht', Option.getD_some, if_pos ⟨hsites, huser, hfits⟩]
        refine Book.ext ?_ ?_
        · funext u
          by_cases hu : u = uid
          · subst hu
            simp [Deployment.book, Deployment.balance, Book.post, hacc, Tables.balance]
          · simp [Deployment.book, Deployment.balance, Book.post, hacc, hu]
        · funext u
          by_cases hu : u = uid
          · subst hu
            simp [Deployment.book, Deployment.balance, Deployment.ledger, Book.post, hrec,
              Tables.balance]
          · simp [Deployment.book, Deployment.ledger, Book.post, hrec, hu, Ne.symm hu]
      · rw [if_neg hfits] at hcharge
        rw [hcharge, Option.getD_none, if_neg fun h => hfits h.2.2]

/-- With no error and no overflow, every amount is posted for a user that the
database knows, and the answer is the new balance. -/
theorem book_addBalance {env : Env} (hsites : Tables.chargeFails env = false)
    (hread : env.fails .balanceSelect = false) {uid : Int32} (type : RecordType) {amount : Int32}
    {s : Production P} (hfits : Tables.Fits (s.tables.balance uid) amount) :
    Deployment.production.addBalance P env uid type amount s =
      if s.tables.hasUser uid then (s.tables.balance uid + amount,
        (Deployment.production.book P s).post env.now uid type amount)
      else (0, Deployment.production.book P s) := by
  have hbook := book_charge env uid type amount s
  have hanswer : (s.sql env (Mysql.addBalance uid type amount)).1 =
      (Deployment.production.book P (s.sql env (Mysql.addBalance uid type amount)).2).balance uid := by
    rw [sql_addBalance]
    simp only [Tables.readBalance, hread, Bool.false_eq_true, if_false]
    rfl
  have hout : Deployment.production.addBalance P env uid type amount s =
      ((s.sql env (Mysql.addBalance uid type amount)).1,
        Deployment.production.book P (s.sql env (Mysql.addBalance uid type amount)).2) := rfl
  rw [hout, hanswer, hbook]
  cases huser : s.tables.hasUser uid with
  | false =>
    have hnone : (Deployment.production.book P s).balance uid = 0 := by
      simp [Deployment.book, Deployment.balance, Tables.account_none_of_no_user huser]
    have hcharges : ¬ s.Charges env uid amount := by simp [Charges, huser]
    rw [if_neg hcharges, hnone]
    rfl
  | true =>
    rw [if_pos ⟨hsites, huser, hfits⟩]
    simp [Book.post, Deployment.book, Deployment.balance, Tables.balance]

end Production

/-! ## The two together -/

/-- **Where the repositories agree.** From the same book, with no database
error and no overflow, they answer the same and leave the same book exactly
when the user is known and the amount is no overdraft. -/
theorem addBalance_agrees_iff {env : Env} (hsites : Tables.chargeFails env = false)
    (hread : env.fails .balanceSelect = false) {uid : Int32} (type : RecordType) {amount : Int32}
    {m : InMemory} {s : Production P}
    (hbook : Deployment.inMemory.book P m = Deployment.production.book P s)
    (hfits : Tables.Fits (s.tables.balance uid) amount) :
    Deployment.inMemory.addBalance P env uid type amount m =
        Deployment.production.addBalance P env uid type amount s ↔
      s.tables.hasUser uid = true ∧ ¬ (amount < 0 ∧ s.tables.balance uid + amount < 0) := by
  have hbal : m.balance uid = s.tables.balance uid := congrFun (congrArg Book.balance hbook) uid
  have hmemory := InMemory.book_addBalance P env uid type amount m
  have hdatabase := Production.book_addBalance hsites hread type hfits
  rw [hmemory, hdatabase, hbal, hbook]
  cases huser : s.tables.hasUser uid with
  | false =>
    by_cases hover : amount < 0 ∧ s.tables.balance uid + amount < 0
    · simp [hover]
    · simp [hover, Book.post_ne]
  | true =>
    by_cases hover : amount < 0 ∧ s.tables.balance uid + amount < 0
    · simp [hover, (Book.post_ne _ _ _ _ _).symm]
    · simp [hover]

/-- The account of the small database, in memory. -/
def InMemory.small (balance : Int32) : InMemory where
  users mobile := if mobile = "13800000000" then some ⟨1, mobile⟩ else none
  nextUserId := 2
  balances uid := if uid = 1 then some balance else none
  records _ := []
  codes _ := none
  tokens _ := none
  bikes := ⟨[], BikeMap.nil_sorted⟩
  nextBikeId := 1
  rides := []
  points _ := []
  rideByNo _ := none
  nextRideId := 1

theorem book_small (balance : Int32) (status : BikeStatus) :
    Deployment.inMemory.book Platform.standstill (InMemory.small balance) =
      Deployment.production.book Platform.standstill (Production.small balance status) := rfl

/-- A payment that is covered is the same in both. -/
theorem addBalance_agrees_covered :
    Deployment.inMemory.addBalance Platform.standstill (.calm 200) 1 .consume (-100)
        (InMemory.small 1000) =
      Deployment.production.addBalance Platform.standstill (.calm 200) 1 .consume (-100)
        (Production.small 1000 .idle) :=
  (addBalance_agrees_iff (by decide) (by decide) .consume (book_small 1000 .idle)
    (by decide)).mpr (by decide)

/-- A payment of 100 from a balance of 50: refused in memory, and on the database a
balance of −50 with its record. -/
theorem overdraft_taken :
    Deployment.inMemory.book Platform.standstill (InMemory.small 50) =
        Deployment.production.book Platform.standstill (Production.small 50 .idle) ∧
      (Deployment.inMemory.addBalance Platform.standstill (.calm 200) 1 .consume (-100)
        (InMemory.small 50)).1 = -1 ∧
      (Deployment.inMemory.addBalance Platform.standstill (.calm 200) 1 .consume (-100)
        (InMemory.small 50)).2.ledger 1 = [] ∧
      (Deployment.production.addBalance Platform.standstill (.calm 200) 1 .consume (-100)
        (Production.small 50 .idle)).1 = -50 ∧
      (Deployment.production.addBalance Platform.standstill (.calm 200) 1 .consume (-100)
        (Production.small 50 .idle)).2.balance 1 = -50 ∧
      (Deployment.production.addBalance Platform.standstill (.calm 200) 1 .consume (-100)
        (Production.small 50 .idle)).2.ledger 1 = [⟨RecordType.consume.code, -100, -50, 200⟩] := by
  refine ⟨book_small 50 .idle, ?_⟩
  decide +kernel

end SharedBike.Server
