import SharedBike.Server.Touching

/-!
# Two instances behind one address

The reverse proxy spreads the connections over two instances. Each of them is
built by `make_prod_ctx`: MySQL and Redis are shared, and the
`RideSessionStore` is not, it lives in the process. A client that reconnects
may come to the other instance, which then knows nothing of its ride
(`return_at_the_other`): the `end_ride` is refused, and the bike stays rented.

`two_like_one` is the other half. As long as no request touches a ride that is
live in the other instance, the two answer every request as one instance
would, and leave the same database. `Merged` is the relation that carries it:
the single store holds what the two hold together.
-/

namespace SharedBike.Server

open SharedBike.Common SharedBike.Lib Function

/-! ## One store that holds what two hold -/

/-- `all` has every session of `own` and of `other`, which have no number in common. -/
structure Merged (own other all : RideSessionStore) : Prop where
  apart : ∀ no, own.find no = none ∨ other.find no = none
  find : ∀ no, all.find no = (own.find no).or (other.find no)

namespace Merged

variable {own other all : RideSessionStore}

theorem symm (h : Merged own other all) : Merged other own all where
  apart no := (h.apart no).symm
  find no := by
    rw [h.find]
    rcases h.apart no with hnone | hnone
    · rw [hnone, Option.none_or, Option.or_none]
    · rw [hnone, Option.none_or, Option.or_none]

theorem find_own (h : Merged own other all) {no : String} (hother : other.find no = none) :
    all.find no = own.find no := by
  rw [h.find, hother, Option.or_none]

/-- Both stores change in the same way under a number that `other` has not. -/
theorem update (h : Merged own other all) {no : String} (hother : other.find no = none)
    {own' all' : RideSessionStore} {entry : Option RideSession}
    (hown : own'.find = update own.find no entry)
    (hall : all'.find = update all.find no entry) : Merged own' other all' where
  apart k := by
    by_cases hk : k = no
    · exact .inr (hk ▸ hother)
    · rw [hown, update_of_ne hk]
      exact h.apart k
  find k := by
    rw [hown, hall]
    by_cases hk : k = no
    · subst hk
      rw [update_self, update_self, hother, Option.or_none]
    · rw [update_of_ne hk, update_of_ne hk]
      exact h.find k

/-- A call on a session that is not live in the other store. -/
theorem exec (h : Merged own other all) (c : RideCall) (hother : other.find c.rideNo = none) :
    (RideSessionStore.exec c all).1 = (RideSessionStore.exec c own).1 ∧
      Merged (RideSessionStore.exec c own).2 other (RideSessionStore.exec c all).2 := by
  have hsame := h.find_own hother
  cases c with
  | create s => exact ⟨rfl, h.update hother rfl rfl⟩
  | find no => exact ⟨hsame, h⟩
  | updatePos no lat lng seq elapsedSec =>
    replace hsame : all.find no = own.find no := hsame
    simp only [RideSessionStore.exec, RideSessionStore.updatePos, hsame]
    cases hfind : own.find no with
    | none => exact ⟨rfl, h⟩
    | some s =>
      have hno : (RideSessionStore.report s lat lng seq elapsedSec).rideNo = no :=
        (RideSessionStore.report_frame s lat lng seq elapsedSec).1.trans (own.keyed no s hfind)
      exact ⟨rfl, h.update (hno.symm ▸ hother) rfl rfl⟩
  | remove no =>
    replace hsame : all.find no = own.find no := hsame
    exact ⟨congrArg Option.isSome hsame, h.update hother rfl rfl⟩

end Merged

/-! ## The two instances -/

inductive Instance where
  | first
  | second
  deriving DecidableEq

def Instance.peer : Instance → Instance
  | .first => .second
  | .second => .first

/-- The shared MySQL and Redis, and the live rides of either process. -/
structure Twin (P : Platform) where
  repos : Production P
  sessions : Instance → RideSessionStore

namespace Twin

variable {P : Platform}

/-- Both processes have just been started. -/
def fresh (repos : Production P) : Twin P := ⟨repos, fun _ => .empty⟩

/-- What the handlers of one instance work on. -/
def world (t : Twin P) (i : Instance) : World P .production := ⟨t.repos, t.sessions i⟩

/-- A request that is routed to this instance. -/
def handle (t : Twin P) (i : Instance) (e : Arrival) : Outcome Reply × Twin P :=
  let out := World.run e.env (dispatch P e.request) (t.world i)
  (out.1, ⟨out.2.repos, update t.sessions i out.2.sessions⟩)

/-- Successive requests, each with the instance it comes to. -/
def serve : Twin P → List (Instance × Arrival) → List (Outcome Reply) × Twin P
  | t, [] => ([], t)
  | t, (i, e) :: rest =>
    let (r, t') := t.handle i e
    let (rs, t'') := t'.serve rest
    (r :: rs, t'')

/-- The request touches no ride that is live in the other instance. -/
def AtHome (t : Twin P) (i : Instance) (e : Arrival) : Prop :=
  ∀ no, e.request.touches e.env.now no → (t.sessions i.peer).find no = none

/-- Every request comes to an instance where it is at home. -/
def Sticky : Twin P → List (Instance × Arrival) → Prop
  | _, [] => True
  | t, (i, e) :: rest => t.AtHome i e ∧ (t.handle i e).2.Sticky rest

end Twin

namespace World

variable {P : Platform} {d : Deployment}

/-- Successive requests at a single instance. -/
def serve : World P d → List Arrival → List (Outcome Reply) × World P d
  | w, [] => ([], w)
  | w, e :: rest =>
    let (r, w') := World.run e.env (dispatch P e.request) w
    let (rs, w'') := w'.serve rest
    (r :: rs, w'')

end World

/-- A single process that has just been started. -/
def Production.alone {P : Platform} (repos : Production P) : World P .production := ⟨repos, .empty⟩

/-- The code of an answer to `end_ride`. -/
def returnCode : Outcome Reply → Option Int32
  | .ok (.endRide r) => some r.code
  | _ => none

/-! ## They answer like one -/

namespace Twin

variable {P : Platform} {w : World P .production} {t : Twin P}

/-- The instance `i` of two, with the peer's rides `other`, and the single one. -/
structure Alike (other : RideSessionStore) (w v : World P .production) : Prop where
  repos : v.repos = w.repos
  sessions : Merged w.sessions other v.sessions

theorem Alike.exec {other : RideSessionStore} {w v : World P .production} (h : Alike other w v)
    (env : Env) (c : Call) (hc : ∀ rc, c = .ride rc → other.find rc.rideNo = none) :
    (World.exec env c v).1 = (World.exec env c w).1 ∧
      Alike other (World.exec env c w).2 (World.exec env c v).2 := by
  obtain ⟨repos, sessions⟩ := w
  obtain ⟨_, all⟩ := v
  obtain rfl : _ = repos := h.repos
  cases c with
  | repo c => exact ⟨rfl, rfl, h.sessions⟩
  | ride c =>
    obtain ⟨hsame, hmerged⟩ := h.sessions.exec c (hc c rfl)
    exact ⟨hsame, rfl, hmerged⟩
  | nowUnix => exact ⟨rfl, h⟩
  | today => exact ⟨rfl, h⟩

/-- The two instances are one instance, taken apart. -/
structure Like (t : Twin P) (w : World P .production) : Prop where
  repos : w.repos = t.repos
  sessions : Merged (t.sessions .first) (t.sessions .second) w.sessions

theorem Like.alike (h : t.Like w) (i : Instance) :
    Alike (t.sessions i.peer) (t.world i) w := by
  cases i with
  | first => exact ⟨h.repos, h.sessions⟩
  | second => exact ⟨h.repos, h.sessions.symm⟩

theorem Like.of_alike {i : Instance} {w v : World P .production}
    (h : Alike (t.sessions i.peer) w v) :
    (⟨w.repos, update t.sessions i w.sessions⟩ : Twin P).Like v := by
  cases i with
  | first => exact ⟨h.repos, h.sessions⟩
  | second => exact ⟨h.repos, h.sessions.symm⟩

/-- One request: the same answer, and the two are still like the one. -/
theorem Like.handle (h : t.Like w) {i : Instance} {e : Arrival} (hhome : t.AtHome i e) :
    (World.run e.env (dispatch P e.request) w).1 = (t.handle i e).1 ∧
      (t.handle i e).2.Like (World.run e.env (dispatch P e.request) w).2 := by
  have hstep : ∀ (c : Call) (w v : World P .production), Alike (t.sessions i.peer) w v →
      c.within e.env.now e.request →
      c.answers e.env.now (World.exec e.env c w).1 ∧
        (World.exec e.env c v).1 = (World.exec e.env c w).1 ∧
        Alike (t.sessions i.peer) (World.exec e.env c w).2 (World.exec e.env c v).2 := by
    intro c w v hwv hc
    refine ⟨World.exec_answers e.env c w, hwv.exec e.env c ?_⟩
    rintro rc rfl
    exact hhome rc.rideNo (Call.touches_of_within hc)
  have hsim := (dispatch_touches P e.env.now e.request).simulate hstep (h.alike i)
  exact ⟨hsim.1, .of_alike hsim.2⟩

theorem Like.serve (h : t.Like w) {l : List (Instance × Arrival)} (hsticky : t.Sticky l) :
    (t.serve l).1 = (w.serve (l.map (·.2))).1 ∧
      (t.serve l).2.Like (w.serve (l.map (·.2))).2 := by
  induction l generalizing t w with
  | nil => exact ⟨rfl, h⟩
  | cons ie rest ih =>
    obtain ⟨i, e⟩ := ie
    obtain ⟨hreply, hlike⟩ := h.handle hsticky.1
    obtain ⟨hreplies, hend⟩ := ih hlike hsticky.2
    refine ⟨?_, hend⟩
    simp only [Twin.serve, World.serve, List.map_cons, hreply, hreplies]

theorem fresh_like (repos : Production P) : (fresh repos).Like repos.alone :=
  ⟨rfl, ⟨fun _ => .inl rfl, fun _ => rfl⟩⟩

/-- **Two instances behave like one**, when no request comes to an instance
while the ride it touches is live in the other: the answers are those of a
single instance that handles the requests in the same order, and so is the
database at the end. -/
theorem two_like_one (repos : Production P) (l : List (Instance × Arrival))
    (hsticky : (fresh repos).Sticky l) :
    ((fresh repos).serve l).1 = (repos.alone.serve (l.map (·.2))).1 ∧
      ((fresh repos).serve l).2.repos = (repos.alone.serve (l.map (·.2))).2.repos := by
  obtain ⟨hreplies, hend⟩ := (fresh_like repos).serve hsticky
  exact ⟨hreplies, hend.repos.symm⟩

def balanceAt (now : Nat) : Arrival := ⟨.accountBalance (some ⟨"token"⟩), .calm now⟩

/-- A ride that is returned where it was unlocked, while its user asks the
other instance for the balance. -/
def returnAtHome : List (Instance × Arrival) :=
  [(.first, Rentals.unlockAt "SB00000001" 200), (.second, balanceAt 250),
    (.first, Rentals.returnAt "R19700101000201" 300)]

theorem two_like_one_ride :
    ((fresh (Production.small 1000 .idle)).serve returnAtHome).1 =
        ((Production.small 1000 .idle).alone.serve (returnAtHome.map (·.2))).1 ∧
      ((fresh (Production.small 1000 .idle)).serve returnAtHome).2.repos =
        ((Production.small 1000 .idle).alone.serve (returnAtHome.map (·.2))).2.repos ∧
      ((fresh (Production.small 1000 .idle)).serve returnAtHome).1.map returnCode =
        [none, none, some ErrCode.ok.code] ∧
      Deployment.production.balance _
        ((fresh (Production.small 1000 .idle)).serve returnAtHome).2.repos 1 = 900 ∧
      Deployment.production.statuses _
        ((fresh (Production.small 1000 .idle)).serve returnAtHome).2.repos = [(1, .idle)] ∧
      Deployment.production.archived _
        ((fresh (Production.small 1000 .idle)).serve returnAtHome).2.repos "R19700101000201" = 1 := by
  obtain ⟨hreplies, hrepos⟩ := two_like_one (Production.small 1000 .idle) returnAtHome
    ⟨fun _ _ => rfl, fun _ h => h.elim False.elim False.elim, fun _ _ => rfl, trivial⟩
  refine ⟨hreplies, hrepos, ?_, ?_, ?_, ?_⟩ <;> decide +kernel

/-- A ride that is returned at the other instance. -/
def returnElsewhere : List (Instance × Arrival) :=
  [(.first, Rentals.unlockAt "SB00000001" 200),
    (.second, Rentals.returnAt "R19700101000201" 300)]

/-- The other instance refuses the return, and the bike stays rented; a single
instance takes it back. -/
theorem return_at_the_other :
    ((fresh (Production.small 1000 .idle)).serve returnElsewhere).1.map returnCode =
        [none, some ErrCode.invalidData.code] ∧
      ((Production.small 1000 .idle).alone.serve (returnElsewhere.map (·.2))).1.map returnCode =
        [none, some ErrCode.ok.code] ∧
      Deployment.production.statuses _
        ((fresh (Production.small 1000 .idle)).serve returnElsewhere).2.repos = [(1, .rented)] ∧
      Deployment.production.statuses _
        ((Production.small 1000 .idle).alone.serve (returnElsewhere.map (·.2))).2.repos =
        [(1, .idle)] := by
  refine ⟨?_, ?_, ?_, ?_⟩ <;> decide +kernel

end Twin

end SharedBike.Server
