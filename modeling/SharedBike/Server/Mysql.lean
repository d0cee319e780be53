import SharedBike.Server.Sql

/-!
# The production repositories

`server/src/db/mysql_*_repo.cpp` as programs over leases and statements,
and `server/src/cache/redis_session_store.cpp`. A lease is returned where
its C++ object goes out of scope, so `add_balance` still holds its own
connection while the `get_balance` it ends with waits for another one.

`Production.exec` is the atomic reading: one operation runs to its end on
the database. The interleaved reading of the same programs, as far as the
pool is concerned, is `Server.PoolLaws`.
-/

namespace SharedBike.Server

open SharedBike.Common SharedBike.Lib Function

/-- A repository operation. -/
abbrev Sql (α : Type) := Prog SqlCall SqlCall.Res α

namespace Mysql

/-- `auto lease = pool_->acquire()` for the rest of a scope. -/
def withLease {α : Type} (body : Nat → Sql α) : Sql α := do
  let conn ← Prog.ask SqlCall.acquire
  let a ← body conn
  Prog.ask (SqlCall.release conn)
  return a

def query (conn : Nat) (site : Site) (stmt : Stmt) : Sql (Option stmt.Rows) :=
  Prog.ask (SqlCall.query conn (some site) stmt)

/-- `run`, `run_sql`: whether a statement succeeded. -/
def run (conn : Nat) (site : Site) (stmt : Stmt) : Sql Bool := do
  return (← query conn site stmt).isSome

/-- Statements in order, up to the first that fails. -/
def runAll (conn : Nat) : List (Site × Stmt) → Sql Bool
  | [] => return true
  | (site, stmt) :: rest => do
    if !(← run conn site stmt) then return false
    else runAll conn rest

def rollback (conn : Nat) : Sql Unit := do
  let _ ← Prog.ask (SqlCall.query conn none .rollback)
  return ()

/-- One statement on a lease of its own, and the answer made of its result. -/
def single {α : Type} (site : Site) (stmt : Stmt) (f : Option stmt.Rows → α) : Sql α :=
  withLease fun conn => do
    return f (← query conn site stmt)

/-! ## `mysql_account_repo.cpp` -/

def getBalance (uid : Int32) : Sql Int32 :=
  single .balanceSelect (.selectBalance uid) fun
    | none => 0
    | some rows => rows.head?.getD 0

/-- The three statements of the transaction. -/
def chargeStmts (uid : Int32) (type : RecordType) (amount : Int32) : List (Site × Stmt) :=
  [(.chargeAccount, .insertIgnoreAccount uid), (.chargeUpdate, .updateBalance uid amount),
    (.chargeRecord, .insertRecord uid type amount)]

def addBalance (uid : Int32) (type : RecordType) (amount : Int32) : Sql Int32 :=
  withLease fun conn => do
    if !(← run conn .chargeBegin .startTransaction) then getBalance uid
    else if !(← runAll conn (chargeStmts uid type amount)) then
      rollback conn
      getBalance uid
    else if !(← run conn .chargeCommit .commit) then
      rollback conn
      getBalance uid
    else getBalance uid

def listRecords (uid limit : Int32) : Sql (List AccountRecord) :=
  single .recordsSelect (.selectRecords uid limit) (·.getD [])

/-! ## `mysql_user_repo.cpp` -/

/-- The site tells the two calls of `find_or_create` apart. -/
def findByMobile (site : Site) (mobile : String) : Sql (Option User) :=
  single site (.selectUser mobile) fun
    | none => none
    | some rows => rows.head?

def findOrCreate (mobile : String) : Sql User := do
  match ← findByMobile .userSelect mobile with
  | some existing => return existing
  | none =>
    withLease fun conn => do
      match ← query conn .userInsert (.insertUser mobile) with
      | none => return (← findByMobile .userSelectAgain mobile).getD ⟨0, ""⟩
      | some id => return ⟨id, mobile⟩

/-! ## `mysql_bike_repo.cpp` -/

def rowToBike (P : Platform) (row : BikeRow) : Bike :=
  ⟨row.id, row.bikeNo, P.atof7 row.lat, P.atof7 row.lng, row.status⟩

def getForUpdate (P : Platform) (bikeNo : String) : Sql (Option Bike) :=
  single .bikeSelect (.selectBikeForUpdate bikeNo) fun
    | none => none
    | some rows => rows.head?.map (rowToBike P)

/-- The answer is whether a row was changed, not whether there is one. -/
def updateStatus (id : Int32) (status : BikeStatus) : Sql Bool :=
  single .bikeStatus (.updateBikeStatus id status) fun
    | none => false
    | some affected => 0 < affected

def updateLocation (id : Int32) (lat lng : Double) : Sql Bool :=
  single .bikeLocation (.updateBikeLocation id lat lng) fun
    | none => false
    | some affected => 0 < affected

def listInBounds (P : Platform) (latMin latMax lngMin lngMax : Double) : Sql (List Bike) :=
  single .bikesSelect (.selectBikesInBox latMin latMax lngMin lngMax) fun
    | none => []
    | some rows => rows.map (rowToBike P)

def insert (b : Bike) : Sql (Option Bike) :=
  single .bikeInsert (.insertBike b) fun
    | none => none
    | some id => some { b with id }

/-! ## `mysql_ride_repo.cpp` -/

def rowToRide (P : Platform) (row : RideRow) : Ride where
  id := Int32.ofInt row.id
  rideNo := row.rideNo
  userId := row.userId
  bikeId := row.bikeId
  startTs := row.startTm
  endTs := row.endTm
  startLat := P.atof7 row.startLat
  startLng := P.atof7 row.startLng
  endLat := P.atof7 row.endLat
  endLng := P.atof7 row.endLng
  durationSec := row.durationSec
  distanceM := row.distanceM
  amountCent := row.amountCent
  status := row.status

/-- One insertion for each point, counted from `i`. -/
def pointStmts (rideId : Int) : Nat → List RidePoint → List (Site × Stmt)
  | _, [] => []
  | i, p :: rest => (.ridePoint i, .insertPosition rideId p) :: pointStmts rideId (i + 1) rest

def createWithPoints (inp : CreateRideInput) : Sql Ride :=
  withLease fun conn => do
    if !(← run conn .rideBegin .startTransaction) then return .empty
    else
      match ← query conn .rideInsert (.insertRide inp) with
      | none =>
        rollback conn
        return .empty
      | some rideId =>
        if !(← runAll conn (pointStmts rideId 0 inp.points)) then
          rollback conn
          return .empty
        else if !(← run conn .rideCommit .commit) then
          rollback conn
          return .empty
        else return inp.toRide (Int32.ofInt rideId)

def findByNo (P : Platform) (rideNo : String) : Sql (Option Ride) :=
  single .rideSelect (.selectRideByNo rideNo) fun
    | none => none
    | some rows => rows.head?.map (rowToRide P)

def listPoints (P : Platform) (rideId : Int32) : Sql (List RidePoint) :=
  single .pointsSelect (.selectPoints rideId) fun
    | none => []
    | some rows => rows.map fun r => ⟨r.seq, P.atof7 r.lat, P.atof7 r.lng, r.elapsedSec⟩

def listByUser (P : Platform) (uid limit : Int32) : Sql (List Ride) :=
  single .ridesSelect (.selectRides uid limit) fun
    | none => []
    | some rows => rows.map (rowToRide P)

/-- The operation of a repository call. The verification codes and the sign-ins
are not in the database. -/
def operation (P : Platform) : (c : RepoCall) → Option (Sql c.Res)
  | .findByMobile mobile => some (findByMobile .userSelect mobile)
  | .findOrCreate mobile => some (findOrCreate mobile)
  | .getBalance uid => some (getBalance uid)
  | .addBalance uid type amount => some (addBalance uid type amount)
  | .listRecords uid limit => some (listRecords uid limit)
  | .getForUpdate bikeNo => some (getForUpdate P bikeNo)
  | .updateStatus id status => some (updateStatus id status)
  | .updateLocation id lat lng => some (updateLocation id lat lng)
  | .listInBounds latMin latMax lngMin lngMax => some (listInBounds P latMin latMax lngMin lngMax)
  | .insert b => some (insert b)
  | .createWithPoints inp => some (createWithPoints inp)
  | .findByNo rideNo => some (findByNo P rideNo)
  | .listPoints rideId => some (listPoints P rideId)
  | .listByUser uid limit => some (listByUser P uid limit)
  | .setCode _ | .getCode _ | .deleteCode _ | .createSession _ | .lookupSession _
  | .destroySession _ => none

end Mysql

/-! ## `redis_session_store.cpp` -/

/-- A `%s` argument ends at the first zero byte. -/
def cstr (s : String) : String := String.ofList (s.toList.takeWhile (· ≠ Char.ofNat 0))

/-- The keys under `code:` and under `session:`, with the time they expire at. -/
structure Redis where
  codes : String → Option (Int32 × Nat)
  tokens : String → Option (String × Nat)

namespace Redis

/-- Whether a command gets through: a connection, and a reply on it. -/
def reachable (env : Env) : Bool := !env.fails .redisConnect && !env.fails .redisCommand

/-- `GET` of an entry that has not expired. -/
def live {α : Type} (now : Nat) (entry : Option (α × Nat)) : Option α :=
  (entry.filter fun e => now < e.2).map (·.1)

/-- A code is answered even when Redis did not take it. -/
def setCode (env : Env) (r : Redis) (mobile : String) : Int32 × Redis :=
  if env.fails .redisConnect then (0, r)
  else if env.fails .redisCommand then (env.code, r)
  else (env.code, { r with
    codes := update r.codes (cstr mobile) (some (env.code, env.now + 300)) })

def getCode (env : Env) (r : Redis) (mobile : String) : Option Int32 :=
  if reachable env then live env.now (r.codes (cstr mobile)) else none

def deleteCode (env : Env) (r : Redis) (mobile : String) : Redis :=
  if reachable env then { r with codes := update r.codes (cstr mobile) none } else r

def createSession (env : Env) (r : Redis) (mobile : String) : String × Redis :=
  if env.fails .redisConnect then ("", r)
  else if env.fails .redisCommand then (env.token, r)
  else (env.token, { r with
    tokens := update r.tokens (cstr env.token) (some (cstr mobile, env.now + 604800)) })

def lookupSession (env : Env) (r : Redis) (token : String) : Option String :=
  if reachable env then live env.now (r.tokens (cstr token)) else none

def destroySession (env : Env) (r : Redis) (token : String) : Redis :=
  if reachable env then { r with tokens := update r.tokens (cstr token) none } else r

end Redis

/-! ## Answering the repository calls -/

/-- The database and Redis between two calls. -/
structure Production (P : Platform) where
  tables : Tables P
  ids : Counters
  redis : Redis

namespace Production

variable {P : Platform}

/-- Run one operation to its end. -/
def sql {α : Type} (env : Env) (p : Sql α) (s : Production P) : α × Production P :=
  let (a, db) := p.run (Db.exec env) ⟨s.tables, none, s.ids, 0⟩
  (a, { s with tables := db.committed, ids := db.ids })

def exec (env : Env) : (c : RepoCall) → Production P → c.Res × Production P
  | .findByMobile mobile, s => s.sql env (Mysql.findByMobile .userSelect mobile)
  | .findOrCreate mobile, s => s.sql env (Mysql.findOrCreate mobile)
  | .getBalance uid, s => s.sql env (Mysql.getBalance uid)
  | .addBalance uid type amount, s => s.sql env (Mysql.addBalance uid type amount)
  | .listRecords uid limit, s => s.sql env (Mysql.listRecords uid limit)
  | .setCode mobile, s =>
    let (code, redis) := s.redis.setCode env mobile
    (code, { s with redis })
  | .getCode mobile, s => (s.redis.getCode env mobile, s)
  | .deleteCode mobile, s => ((), { s with redis := s.redis.deleteCode env mobile })
  | .createSession mobile, s =>
    let (token, redis) := s.redis.createSession env mobile
    (token, { s with redis })
  | .lookupSession token, s => (s.redis.lookupSession env token, s)
  | .destroySession token, s => ((), { s with redis := s.redis.destroySession env token })
  | .getForUpdate bikeNo, s => s.sql env (Mysql.getForUpdate P bikeNo)
  | .updateStatus id status, s => s.sql env (Mysql.updateStatus id status)
  | .updateLocation id lat lng, s => s.sql env (Mysql.updateLocation id lat lng)
  | .listInBounds latMin latMax lngMin lngMax, s =>
    s.sql env (Mysql.listInBounds P latMin latMax lngMin lngMax)
  | .insert b, s => s.sql env (Mysql.insert b)
  | .createWithPoints inp, s => s.sql env (Mysql.createWithPoints inp)
  | .findByNo rideNo, s => s.sql env (Mysql.findByNo P rideNo)
  | .listPoints rideId, s => s.sql env (Mysql.listPoints P rideId)
  | .listByUser uid limit, s => s.sql env (Mysql.listByUser P uid limit)

theorem exec_operation {c : RepoCall} {p : Sql c.Res} (h : Mysql.operation P c = some p)
    (env : Env) (s : Production P) : exec env c s = s.sql env p := by
  cases c <;> cases h <;> rfl

end Production

end SharedBike.Server
