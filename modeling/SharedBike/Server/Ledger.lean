import SharedBike.Server.Frames
import SharedBike.Server.Courses
import SharedBike.Lib.Machine

/-!
# The ledger explains the balance, if no recharge runs over

The account book in memory, under any sequence of requests. A balance is a
32-bit `int`, and `add_balance` looks at the sum before it takes a debit but
not before it takes a credit. So two recharges can add up to more than an
`int` holds: the addition overflows, and the balance is no longer the sum of
the ledger (`recharged_over`).

`ledger_explains` is the other half. When every recharge finds room for its
amount, no addition overflows, no balance is negative, and balance and
`balance_after` are the exact sums of what is on record. Nothing has to be
asked of `end_ride`: a debit cannot leave the range from above, and the check
keeps it from leaving at zero.
-/

namespace SharedBike.Server

open SharedBike.Common SharedBike.Lib Function

/-! ## Exact sums -/

/-- What is on record, added up over the integers. -/
def total (records : List AccountRecord) : Int := (records.map fun r => r.amount.toInt).sum

theorem total_append (l l' : List AccountRecord) : total (l ++ l') = total l + total l' := by
  simp [total]

/-- The balance is the sum of the amounts on record, and every record shows
the sum up to itself. -/
structure Explains (records : List AccountRecord) (balance : Int32) : Prop where
  sum : balance.toInt = total records
  after : ∀ earlier r, earlier ++ [r] <+: records → r.balanceAfter.toInt = total (earlier ++ [r])

theorem Explains.nil : Explains [] 0 where
  sum := rfl
  after earlier r h := by
    have := h.length_le
    simp at this

/-- A posting that stays in the range is explained. -/
theorem Explains.post {records : List AccountRecord} {balance amount : Int32}
    (h : Explains records balance) (type : Int32) (timestamp : Int)
    (hlo : -2 ^ 31 ≤ balance.toInt + amount.toInt) (hhi : balance.toInt + amount.toInt < 2 ^ 31) :
    Explains (records ++ [⟨type, amount, balance + amount, timestamp⟩]) (balance + amount) := by
  have hsum : (balance + amount).toInt =
      total (records ++ [⟨type, amount, balance + amount, timestamp⟩]) := by
    rw [toInt_add_of_range hlo hhi, total_append, h.sum]
    simp [total]
  refine ⟨hsum, ?_⟩
  intro earlier r hprefix
  rcases List.prefix_concat_iff.mp hprefix with heq | hold
  · -- the new record is the one that was appended
    obtain ⟨rfl, hr⟩ := List.append_inj' heq rfl
    cases hr
    exact hsum
  · exact h.after earlier r hold

/-! ## The account book in memory -/

namespace InMemory

/-- Nobody owes anything, and every balance is explained. -/
def Sound (m : InMemory) : Prop :=
  ∀ uid, 0 ≤ (m.balance uid).toInt ∧ Explains (m.records uid) (m.balance uid)

/-- The addition of `add_balance` does not fit into an `int`. -/
def overflows (m : InMemory) : Call → Bool
  | .repo (.addBalance uid _ amount) =>
    !decide (-2 ^ 31 ≤ (m.balance uid).toInt + amount.toInt ∧
      (m.balance uid).toInt + amount.toInt < 2 ^ 31)
  | _ => false

/-- The user a token stands for; a mobile without a user would get the next id. -/
def holder (m : InMemory) (now : Nat) (token : String) : Option Int32 :=
  match m.tokens token with
  | none => none
  | some (mobile, expiry) =>
    if now > expiry then none
    else some (match m.users mobile with
      | some u => u.id
      | none => m.nextUserId)

variable {m : InMemory}

/-- The two calls that look a caller up answer with the holder of the token. -/
theorem holder_of_lookup {now : Nat} {token mobile : String}
    (h : (m.lookupSession now token).1 = some mobile) :
    (m.lookupSession now token).2 = m ∧ m.holder now token = some (m.findOrCreate mobile).1.id := by
  unfold lookupSession at h ⊢
  split at h
  · cases h
  next mobile' expiry htoken =>
    split at h
    · cases h
    next hlive =>
      cases h
      simp only [holder, findOrCreate, htoken, hlive, if_false]
      exact ⟨trivial, by cases m.users mobile <;> rfl⟩

theorem balance_findOrCreate (m : InMemory) (mobile : String) :
    (m.findOrCreate mobile).2.balance = m.balance := by
  unfold findOrCreate
  split <;> rfl

/-- A debit, or a credit that there is room for. -/
def Fits (m : InMemory) (uid amount : Int32) : Prop :=
  amount < 0 ∨ 0 < amount ∧ (m.balance uid).toInt + amount.toInt < 2 ^ 31

theorem Sound.not_overflows (h : m.Sound) {uid amount : Int32} (hfits : m.Fits uid amount)
    (type : RecordType) : m.overflows (.repo (.addBalance uid type amount)) = false := by
  have hbal := (h uid).1
  have hrange := (m.balance uid).toInt_lt
  have hlow := amount.le_toInt
  simp only [overflows, Bool.not_eq_false', decide_eq_true_eq]
  rcases hfits with hneg | ⟨hpos, hroom⟩
  · rw [Int32.lt_iff_toInt_lt] at hneg
    have : amount.toInt < 0 := hneg
    omega
  · rw [Int32.lt_iff_toInt_lt] at hpos
    have : 0 < amount.toInt := hpos
    omega

theorem Sound.addBalance (h : m.Sound) {uid amount : Int32} (hfits : m.Fits uid amount)
    (now : Nat) (type : RecordType) : (m.addBalance now uid type amount).2.Sound := by
  have hrange := h.not_overflows hfits type
  simp only [overflows, Bool.not_eq_false', decide_eq_true_eq] at hrange
  have hsum := toInt_add_of_range hrange.1 hrange.2
  simp only [InMemory.addBalance]
  split
  · exact h
  next hcovered =>
    intro u
    by_cases hu : u = uid
    · subst hu
      refine ⟨?_, ?_⟩
      · simp only [balance, update_self, Option.getD_some]
        change 0 ≤ (m.balance u + amount).toInt
        rcases hfits with hneg | ⟨hpos, -⟩
        · by_contra hlt
          exact hcovered ⟨hneg, Int32.lt_iff_toInt_lt.mpr (not_le.mp hlt)⟩
        · rw [Int32.lt_iff_toInt_lt] at hpos
          have : 0 < amount.toInt := hpos
          have := (h u).1
          omega
      · simp only [balance, update_self, Option.getD_some]
        exact (h u).2.post type.code now hrange.1 hrange.2
    · simpa only [balance, update_of_ne hu] using h u

/-- Only `add_balance` adds. -/
theorem overflows_of_ne {c : Call} (hc : ∀ uid type amount, c ≠ .repo (.addBalance uid type amount)) :
    m.overflows c = false := by
  unfold overflows
  split
  · exact absurd rfl (hc _ _ _)
  · rfl

/-- Only `add_balance` writes to the account book. -/
theorem Sound.frame (h : m.Sound) (env : Env) {c : RepoCall}
    (hc : ∀ uid type amount, c ≠ .addBalance uid type amount) : (exec env c m).2.Sound := by
  have htargets : .account ∉ c.targets ∧ .accountRecord ∉ c.targets := by
    cases c with
    | addBalance uid type amount => exact absurd rfl (hc uid type amount)
    | _ => exact ⟨by simp [RepoCall.targets], by simp [RepoCall.targets]⟩
  have hbal : _ = _ := exec_sameIn env c m htargets.1
  have hrec : _ = _ := exec_sameIn env c m htargets.2
  intro uid
  simpa only [balance, hbal, hrec] using h uid

end InMemory

/-! ## The runs -/

/-- The server in memory, and whether an addition has overflowed. -/
structure Audit (P : Platform) extends World P .inMemory where
  overflowed : Bool

namespace Audit

variable {P : Platform}

def exec (env : Env) (c : Call) (s : Audit P) : c.Res × Audit P :=
  ((World.exec env c s.toWorld).1,
    ⟨(World.exec env c s.toWorld).2, s.overflowed || s.repos.overflows c⟩)

def handle (s : Audit P) (e : Arrival) : Audit P :=
  ((dispatch P e.request).run (exec e.env) s).2

/-- Any requests in any order, from an empty account book. -/
def machine (P : Platform) : Machine (Audit P) Arrival where
  init s := (∀ uid, s.repos.balances uid = none ∧ s.repos.records uid = []) ∧
    s.overflowed = false
  next s e := some (s.handle e)

/-- The condition on a request: a recharge finds room for its amount. -/
def Creditable (s : Audit P) (e : Arrival) : Prop :=
  match e.request with
  | .recharge (some req) => ∀ uid, s.repos.holder e.env.now req.sessionToken = some uid →
      (s.repos.balance uid).toInt + req.amount.toInt < 2 ^ 31
  | _ => True

/-- What every state of such a run has. -/
structure Inv (s : Audit P) : Prop where
  sound : s.repos.Sound
  exact : s.overflowed = false

variable {s : Audit P} {env : Env}

/-- A call that adds nothing. -/
theorem Inv.frame (h : Inv s) (env : Env) {c : Call}
    (hc : ∀ uid type amount, c ≠ .repo (.addBalance uid type amount)) :
    Inv (Audit.exec env c s).2 := by
  refine ⟨?_, ?_⟩
  · cases c with
    | repo c => exact h.sound.frame env fun uid type amount heq => hc uid type amount (by rw [heq])
    | _ => exact h.sound
  · change (s.overflowed || s.repos.overflows c) = false
    rw [h.exact, InMemory.overflows_of_ne hc]
    rfl

/-- A debit, or a credit that there is room for. -/
theorem Inv.addBalance (h : Inv s) (env : Env) {uid amount : Int32} (type : RecordType)
    (hfits : s.repos.Fits uid amount) :
    Inv (Audit.exec env (.repo (.addBalance uid type amount)) s).2 := by
  refine ⟨h.sound.addBalance hfits env.now type, ?_⟩
  change (s.overflowed || s.repos.overflows _) = false
  rw [h.exact, h.sound.not_overflows hfits type]
  rfl

/-- A handler that is not `recharge` takes no credit. -/
theorem Inv.handle_other (h : Inv s) {r : Request} (hr : ∀ req, r ≠ .recharge (some req)) :
    Inv ((dispatch P r).run (Audit.exec env) s).2 := by
  have hstep : ∀ (q : Acting) (c : Call) (t : Audit P), Inv t → (accountCalls r).allowed q c →
      Inv (Audit.exec env c t).2 := by
    intro q c t ht hallowed
    by_cases hc : ∃ uid type amount, c = .repo (.addBalance uid type amount)
    · obtain ⟨uid, type, amount, rfl⟩ := hc
      cases type with
      | recharge =>
        obtain ⟨-, -, token, hreq⟩ := hallowed
        exact absurd hreq (hr _)
      | consume => exact ht.addBalance env .consume (.inl hallowed.1)
    · exact ht.frame env fun uid type amount heq => hc ⟨uid, type, amount, heq⟩
  obtain ⟨-, -, hend⟩ := (dispatch_acts P r).run hstep h
  exact hend

/-- The credit goes to the holder of the token, who has the balance of before. -/
theorem Inv.recharge (h : Inv s) (req : RechargeRequest)
    (hroom : ∀ uid, s.repos.holder env.now req.sessionToken = some uid →
      (s.repos.balance uid).toInt + req.amount.toInt < 2 ^ 31) :
    Inv ((recharge (some req)).run (Audit.exec env) s).2 := by
  have hlookup := h.frame env (c := .repo (.lookupSession req.sessionToken)) (by simp)
  simp only [Server.recharge, repo, Prog.ask_bind]
  split
  · exact h
  next hpos =>
    rw [Prog.run_call]
    split
    · exact hlookup
    next mobile hfound =>
      have huser := hlookup.frame env (c := .repo (.findOrCreate mobile)) (by simp)
      simp only [Prog.run_call, Prog.pure_eq, Prog.run_done]
      obtain ⟨hsame, hholder⟩ := InMemory.holder_of_lookup hfound
      refine huser.addBalance env .recharge (.inr ⟨Int32.not_le.mp hpos, ?_⟩)
      have hcredit := hroom _ hholder
      rw [← InMemory.balance_findOrCreate _ mobile, ← hsame] at hcredit
      exact hcredit

theorem Inv.handle (h : Inv s) {e : Arrival} (hcredit : Creditable s e) : Inv (s.handle e) := by
  obtain ⟨request, env⟩ := e
  by_cases hr : ∃ req, request = .recharge (some req)
  · obtain ⟨req, rfl⟩ := hr
    change Inv ((answer _ _).run (Audit.exec env) s).2
    rw [run_answer]
    exact h.recharge req hcredit
  · exact h.handle_other fun req heq => hr ⟨req, heq⟩

theorem Inv.of_reachable (h : (machine P).ReachableWhile Creditable s) : Inv s := by
  refine Machine.invariant ?_ ?_ h
  · intro s hinit
    refine ⟨fun uid => ?_, hinit.2⟩
    obtain ⟨hbal, hrec⟩ := hinit.1 uid
    rw [InMemory.balance, hbal, hrec]
    exact ⟨le_refl _, .nil⟩
  · intro s e t hs hcredit hnext
    cases hnext
    exact hs.handle hcredit

/-- **The ledger explains the balance.** In every run whose recharges all find
room for their amount. -/
theorem ledger_explains (h : (machine P).ReachableWhile Creditable s) :
    (∀ uid, 0 ≤ (s.repos.balance uid).toInt ∧
      Explains (s.repos.records uid) (s.repos.balance uid)) ∧ s.overflowed = false :=
  ⟨(Inv.of_reachable h).sound, (Inv.of_reachable h).exact⟩

/-! ## Two recharges -/

/-- A process that has just started. -/
def fresh : Audit Platform.standstill where
  repos :=
    { users := fun _ => none
      nextUserId := 1
      balances := fun _ => none
      records := fun _ => []
      codes := fun _ => none
      tokens := fun _ => none
      bikes := ⟨[], BikeMap.nil_sorted⟩
      nextBikeId := 1
      rides := []
      points := fun _ => []
      rideByNo := fun _ => none
      nextRideId := 1 }
  sessions := .empty
  overflowed := false

theorem fresh_init : (machine Platform.standstill).init fresh := ⟨fun _ => ⟨rfl, rfl⟩, rfl⟩

/-- A user signs in. -/
def signIn : Arrival × Arrival :=
  (⟨.mobileCode (some ⟨"13800000000"⟩), ⟨100, 123456, "", fun _ => false⟩⟩,
    ⟨.login (some ⟨"13800000000", 123456⟩), ⟨101, 0, "token", fun _ => false⟩⟩)

def rechargeAt (amount : Int32) (now : Nat) : Arrival :=
  ⟨.recharge (some ⟨"token", amount⟩), .calm now⟩

/-- A recharge of 5000 cents. -/
theorem ledger_explains_once :
    ∃ s, (machine Platform.standstill).ReachableWhile Creditable s ∧ s.repos.balance 1 = 5000 ∧
      ((∀ uid, 0 ≤ (s.repos.balance uid).toInt ∧
        Explains (s.repos.records uid) (s.repos.balance uid)) ∧ s.overflowed = false) := by
  have hstart : (machine Platform.standstill).ReachableWhile Creditable fresh := .start fresh_init
  have hcode := Machine.ReachableWhile.step (e := signIn.1) hstart trivial rfl
  have hlogin := Machine.ReachableWhile.step (e := signIn.2) hcode trivial rfl
  have hholder : ((fresh.handle signIn.1).handle signIn.2).repos.holder 200 "token" = some 1 := by
    decide +kernel
  have hpaid := Machine.ReachableWhile.step (e := rechargeAt 5000 200) hlogin
    (fun uid huid => by
      obtain rfl : 1 = uid := Option.some.inj (hholder.symm.trans huid)
      decide +kernel) rfl
  exact ⟨_, hpaid, by decide +kernel, ledger_explains hpaid⟩

/-- The greatest amount and one cent more: the addition overflows, the balance
is at the other end of the range, and the ledger adds up to 2³¹. -/
theorem recharged_over :
    ∃ s, (machine Platform.standstill).Reachable s ∧ s.overflowed = true ∧
      (s.repos.balance 1).toInt = -2 ^ 31 ∧ total (s.repos.records 1) = 2 ^ 31 :=
  Machine.exists_of_play fresh fresh_init
    [signIn.1, signIn.2, rechargeAt 2147483647 200, rechargeAt 1 201] (by decide +kernel)

end Audit

end SharedBike.Server
