import SharedBike.Server.Handlers

/-!
# On whose account a handler writes

A handler knows its caller by a token: `lookup_session` turns it into a
mobile and `find_or_create` turns that into a user. `Acting` is how far a
handler has come with this, and `accountCalls` says what it may do then: a
request that carries a token has it looked up first, money moves and rides
are archived for the caller, a session is removed after it was seen to be the
caller's, and only a `position_report` touches a session without knowing
anybody.

`Standing` follows the same handlers from the code on: a code is made for the
mobile that asks for it, a session for the mobile whose code was the stored
one, and an account is used by the user that a token stands for.

`Server.Phases` tells in what order the calls come; this one tells for whom.
-/

namespace SharedBike.Server

open SharedBike.Common SharedBike.Lib

inductive Acting where
  /-- no token was looked up -/
  | anyone
  /-- the token is worth nothing -/
  | stranger
  /-- the token belongs to this mobile -/
  | named (mobile : String)
  | user (uid : Int32)
  /-- an `end_ride` that has found the caller's session -/
  | riding (sess : RideSession)

/-- The token a request carries. -/
def Request.token : Request → Option String
  | .recharge (some req) => some req.sessionToken
  | .accountBalance (some req) => some req.sessionToken
  | .listRecords (some req) => some req.sessionToken
  | .listNearbyBikes _ (some req) => some req.sessionToken
  | .scanUnlock (some req) => some req.sessionToken
  | .endRide (some req) => some req.sessionToken
  | .reportDamage (some req) => some req.sessionToken
  | .getRideDetail (some req) => some req.sessionToken
  | .listRides (some req) => some req.sessionToken
  | _ => none

namespace Acting

/-- The lookup is over. -/
def known : Acting → Prop
  | .anyone | .named _ => False
  | _ => True

/-- The calls of the handler of `r`; the writes, each for the one it is made for. -/
def allowed (r : Request) (q : Acting) : Call → Prop
  | .repo (.lookupSession token) => q = .anyone ∧ r.token = some token
  | .repo (.findOrCreate mobile) => q = .named mobile ∨ q = .anyone ∧ r.token = none
  | .repo (.addBalance uid .recharge amount) =>
    q = .user uid ∧ 0 < amount ∧ ∃ token, r = .recharge (some ⟨token, amount⟩)
  | .repo (.addBalance uid .consume amount) =>
    amount < 0 ∧ ∃ sess, q = .riding sess ∧ uid = sess.userId
  | .repo (.createWithPoints inp) =>
    ∃ sess, q = .riding sess ∧ inp.rideNo = sess.rideNo ∧ inp.userId = sess.userId
  | .ride (.create sess) => q = .user sess.userId ∧ ∃ req, r = .scanUnlock (some req)
  | .ride (.updatePos rideNo lat lng seq elapsedSec) =>
    r = .positionReport (some ⟨rideNo, seq, lat, lng, elapsedSec⟩)
  | .ride (.remove rideNo) => ∃ sess, q = .riding sess ∧ rideNo = sess.rideNo
  | _ => q.known ∨ q = .anyone ∧ r.token = none

def next : Acting → (c : Call) → c.Res → Acting
  | .anyone, .repo (.lookupSession _), found =>
    match found with
    | some mobile => .named mobile
    | none => .stranger
  | .named _, .repo (.findOrCreate _), u => .user u.id
  | .user uid, .ride (.find _), found =>
    match found with
    | some sess => if sess.userId = uid then .riding sess else .user uid
    | none => .user uid
  | q, _, _ => q

/-- Once the lookup is over, a repository call teaches a handler nothing about
its caller. -/
theorem next_repo {q : Acting} (hq : q.known) (c : RepoCall) (answer : c.Res) :
    q.next (.repo c) answer = q := by
  cases q with
  | anyone => exact hq.elim
  | named mobile => exact hq.elim
  | _ => rfl

end Acting

def accountCalls (r : Request) : Discipline Call Call.Res Acting := ⟨Acting.allowed r, Acting.next⟩

/-! ## On what a handler stands -/

inductive Standing where
  /-- nobody, or somebody whose token or code is worth nothing -/
  | stranger
  /-- a `mobile_code` -/
  | asking (mobile : String)
  /-- a `login` that has not seen the stored code -/
  | entering (mobile : String) (icode : Int32)
  /-- a `login` whose code was the stored one -/
  | verified (mobile : String) (icode : Int32)
  | bearer (token : String)
  /-- the token belongs to this mobile -/
  | named (mobile : String)
  | user (uid : Int32)

namespace Standing

/-- Codes and sessions are made by the handlers they are made for, and an account is used
by its user. `login` reads the balance of the user it signs in. -/
def allowed (q : Standing) : Call → Prop
  | .repo (.setCode mobile) => q = .asking mobile
  | .repo (.getCode mobile) => ∃ icode, q = .entering mobile icode
  | .repo (.deleteCode mobile) => ∃ icode, q = .verified mobile icode
  | .repo (.createSession mobile) => ∃ icode, q = .verified mobile icode
  | .repo (.lookupSession token) => q = .bearer token
  | .repo (.destroySession _) => False
  | .repo (.findOrCreate mobile) => q = .named mobile ∨ ∃ icode, q = .verified mobile icode
  | .repo (.getBalance uid) => q = .user uid ∨ ∃ mobile icode, q = .verified mobile icode
  | .repo (.addBalance uid _ _) => q = .user uid
  | .repo (.listRecords uid _) => q = .user uid
  | .repo (.createWithPoints inp) => q = .user inp.userId
  | .repo (.listByUser uid _) => q = .user uid
  | .ride (.create s) => q = .user s.userId
  | _ => True

def next : Standing → (c : Call) → c.Res → Standing
  | .entering mobile icode, .repo (.getCode _), stored =>
    if stored = some icode then .verified mobile icode else .stranger
  | .bearer _, .repo (.lookupSession _), found =>
    match found with
    | some mobile => .named mobile
    | none => .stranger
  | .named _, .repo (.findOrCreate _), u => .user u.id
  | q, _, _ => q

def discipline : Discipline Call Call.Res Standing := ⟨allowed, next⟩

end Standing

/-- Where the handler of a request begins. -/
def Request.standing : Request → Standing
  | .mobileCode (some req) => .asking req.mobile
  | .login (some req) => .entering req.mobile req.icode
  | r =>
    match r.token with
    | some token => .bearer token
    | none => .stranger

end SharedBike.Server
