import SharedBike.Server.SqlText
import Mathlib.Data.List.Sort
import Mathlib.Data.List.Nodup
import Mathlib.Logic.Function.Basic

/-!
# The database

`docker/mysql-init/*.sql` as tables whose keys and references hold by
construction, and the statements that the repositories send, with their
standard meaning. A statement that would break a constraint, or whose
value does not fit its column, is refused: each insertion is an `if` over
the schema's conditions, and the tables it builds take their proofs from it.
A statement is what its buffer leaves of the text (`Server.SqlText`).

Coordinates are `decimal(10,7)` columns, in units of the seventh decimal.
Rows stand in the order they were inserted in. Where an `ORDER BY` leaves
the order open, the order is that of the index the schema gives for it.
-/

namespace SharedBike.Server

open SharedBike.Common SharedBike.Lib Function

/-! ## Rows -/

structure LedgerRow where
  userId : Int32
  record : AccountRecord
  deriving DecidableEq

structure BikeRow where
  id : Int32
  bikeNo : String
  lat : Int
  lng : Int
  status : BikeStatus
  deriving DecidableEq

structure RideRow where
  id : Int
  rideNo : String
  userId : Int32
  bikeId : Int32
  startTm : Int
  endTm : Int
  startLat : Int
  startLng : Int
  endLat : Int
  endLng : Int
  durationSec : Int32
  distanceM : Int32
  amountCent : Int32
  status : Int32
  deriving DecidableEq

structure PositionRow where
  rideId : Int
  seq : Int32
  lat : Int
  lng : Int
  elapsedSec : Int32
  deriving DecidableEq

/-- The tables, with the keys, unique columns and references of the schema.
`account` has its primary key for an index. -/
structure Tables (P : Platform) where
  userinfo : List User
  account : Int32 → Option Int32
  accountRecord : List LedgerRow
  bike : List BikeRow
  ride : List RideRow
  ridePosition : List PositionRow
  userinfo_id : (userinfo.map (·.id)).Nodup
  userinfo_mobile : (userinfo.map fun u => P.collation u.mobile).Nodup
  account_user : ∀ uid, (account uid).isSome → uid ∈ userinfo.map (·.id)
  bike_id : (bike.map (·.id)).Nodup
  bike_no : (bike.map fun b => P.collation b.bikeNo).Nodup
  ride_no : (ride.map fun r => P.collation r.rideNo).Nodup
  ride_user : ∀ r ∈ ride, r.userId ∈ userinfo.map (·.id)
  ride_bike : ∀ r ∈ ride, r.bikeId ∈ bike.map (·.id)
  position_ride : ∀ p ∈ ridePosition, p.rideId ∈ ride.map (·.id)

/-! ## Column values -/

/-- A literal for a `decimal(10,7)` column. -/
def decimal (d : Double) : Option Int := d.dec7.filter fun n => n.natAbs < 10 ^ 10

/-- `FROM_UNIXTIME` of a value that a `timestamp` column holds. -/
def timestamp (ts : Int) : Option Int := if 1 ≤ ts ∧ ts < 2 ^ 31 then some ts else none

/-- The columns of a `ride` row, when every literal fits. -/
def CreateRideInput.row (inp : CreateRideInput) (id : Int) : Option RideRow := do
  let startTm ← timestamp inp.startTs
  let endTm ← timestamp inp.endTs
  let startLat ← decimal inp.startLat
  let startLng ← decimal inp.startLng
  let endLat ← decimal inp.endLat
  let endLng ← decimal inp.endLng
  return ⟨id, inp.rideNo, inp.userId, inp.bikeId, startTm, endTm, startLat, startLng, endLat,
    endLng, inp.durationSec, inp.distanceM, inp.amountCent, 0⟩

theorem CreateRideInput.row_keys {inp : CreateRideInput} {id : Int} {row : RideRow}
    (h : inp.row id = some row) :
    row.id = id ∧ row.rideNo = inp.rideNo ∧ row.userId = inp.userId ∧ row.bikeId = inp.bikeId := by
  simp only [CreateRideInput.row, Option.bind_eq_bind, Option.bind_eq_some_iff, Option.pure_def,
    Option.some.injEq] at h
  obtain ⟨_, -, _, -, _, -, _, -, _, -, _, -, rfl⟩ := h
  exact ⟨rfl, rfl, rfl, rfl⟩

def RidePoint.row (p : RidePoint) (rideId : Int) : Option PositionRow := do
  let lat ← decimal p.lat
  let lng ← decimal p.lng
  return ⟨rideId, p.seq, lat, lng, p.elapsedSec⟩

/-! ## Insertions and updates -/

/-- A column stays unique when a row with a new value joins. -/
theorem unique_concat {α β : Type} {f : α → β} {l : List α} {a : α} (h : (l.map f).Nodup)
    (hnew : f a ∉ l.map f) : ((l ++ [a]).map f).Nodup := by
  rw [List.map_append, List.map_singleton]
  refine List.nodup_append.mpr ⟨h, List.nodup_singleton _, ?_⟩
  intro x hx y hy hxy
  rw [List.mem_singleton.mp hy] at hxy
  exact hnew (hxy ▸ hx)

/-- A reference stays good when a row joins. -/
theorem mem_column_concat {α β : Type} {f : α → β} {l : List α} {a : α} {b : β}
    (h : b ∈ l.map f) : b ∈ (l ++ [a]).map f := by
  rw [List.map_append]
  exact List.mem_append_left _ h

namespace Tables

variable {P : Platform}

def hasUser (t : Tables P) (uid : Int32) : Bool := uid ∈ t.userinfo.map (·.id)

/-- `INSERT INTO userinfo (mobile)`, under the next id. -/
def insertUser (t : Tables P) (id : Int32) (mobile : String) : Option (Tables P) :=
  if h : mobile.length ≤ 16 ∧ id ∉ t.userinfo.map (·.id) ∧
      P.collation mobile ∉ t.userinfo.map fun u => P.collation u.mobile then
    some { t with
      userinfo := t.userinfo ++ [⟨id, mobile⟩]
      userinfo_id := unique_concat t.userinfo_id h.2.1
      userinfo_mobile := unique_concat t.userinfo_mobile h.2.2
      account_user := fun uid huid => mem_column_concat (t.account_user uid huid)
      ride_user := fun r hr => mem_column_concat (t.ride_user r hr) }
  else none

/-- `INSERT IGNORE INTO account`: a row that is there stays, and a user that
is not there makes the row be skipped. Neither is an error. -/
def insertIgnoreAccount (t : Tables P) (uid : Int32) : Tables P :=
  if h : t.account uid = none ∧ t.hasUser uid then
    { t with
      account := update t.account uid (some 0)
      account_user := fun uid' huid => by
        by_cases heq : uid' = uid
        · subst heq
          simpa [hasUser] using h.2
        · rw [update_of_ne heq] at huid
          exact t.account_user uid' huid }
  else t

/-- `UPDATE account SET balance = balance + amount`: a sum outside the
column's range is an error. -/
def updateBalance (t : Tables P) (uid amount : Int32) : Option (Tables P) :=
  match h : t.account uid with
  | none => some t
  | some bal =>
    if -2 ^ 31 ≤ bal.toInt + amount.toInt ∧ bal.toInt + amount.toInt < 2 ^ 31 then
      some { t with
        account := update t.account uid (some (bal + amount))
        account_user := fun uid' huid => by
          by_cases heq : uid' = uid
          · subst heq
            exact t.account_user uid' (by rw [h]; rfl)
          · rw [update_of_ne heq] at huid
            exact t.account_user uid' huid }
    else none

/-- `INSERT INTO account_record … SELECT … FROM account`: one row for the
account, none when there is no account. -/
def insertRecord (t : Tables P) (now : Nat) (uid : Int32) (type : RecordType) (amount : Int32) :
    Tables P :=
  match t.account uid with
  | none => t
  | some bal =>
    { t with accountRecord := t.accountRecord ++ [⟨uid, ⟨type.code, amount, bal, now⟩⟩] }

/-- `INSERT INTO bike`, under the next id. -/
def insertBike (t : Tables P) (id : Int32) (b : Bike) : Option (Tables P) := do
  let lat ← decimal b.lat
  let lng ← decimal b.lng
  if h : b.bikeNo.length ≤ 32 ∧ id ∉ t.bike.map (·.id) ∧
      P.collation b.bikeNo ∉ t.bike.map fun b => P.collation b.bikeNo then
    some { t with
      bike := t.bike ++ [⟨id, b.bikeNo, lat, lng, b.status⟩]
      bike_id := unique_concat t.bike_id h.2.1
      bike_no := unique_concat t.bike_no h.2.2
      ride_bike := fun r hr => mem_column_concat (t.ride_bike r hr) }
  else none

/-- `UPDATE bike SET … WHERE id = …`, for columns other than the keys. -/
def updateBike (t : Tables P) (id : Int32) (f : BikeRow → BikeRow)
    (hf : ∀ b, (f b).id = b.id ∧ (f b).bikeNo = b.bikeNo) : Tables P :=
  have hid : (t.bike.map fun b => if b.id = id then f b else b).map (·.id) = t.bike.map (·.id) := by
    rw [List.map_map]
    refine List.map_congr_left fun b _ => ?_
    by_cases hb : b.id = id <;> simp [hb, (hf b).1]
  { t with
    bike := t.bike.map fun b => if b.id = id then f b else b
    bike_id := by rw [hid]; exact t.bike_id
    bike_no := by
      rw [List.map_map]
      convert t.bike_no using 2
      funext b
      by_cases hb : b.id = id <;> simp [hb, (hf b).2]
    ride_bike := fun r hr => by rw [hid]; exact t.ride_bike r hr }

/-- `INSERT INTO ride`, under the next id. -/
def insertRide (t : Tables P) (id : Int) (inp : CreateRideInput) : Option (Tables P) := do
  let row ← inp.row id
  if h : row.rideNo.length ≤ 32 ∧ row.userId ∈ t.userinfo.map (·.id) ∧
      row.bikeId ∈ t.bike.map (·.id) ∧
      P.collation row.rideNo ∉ t.ride.map fun r => P.collation r.rideNo then
    some { t with
      ride := t.ride ++ [row]
      ride_no := unique_concat t.ride_no h.2.2.2
      ride_user := fun r hr => by
        rcases List.mem_append.mp hr with hr | hr
        · exact t.ride_user r hr
        · rw [List.mem_singleton.mp hr]
          exact h.2.1
      ride_bike := fun r hr => by
        rcases List.mem_append.mp hr with hr | hr
        · exact t.ride_bike r hr
        · rw [List.mem_singleton.mp hr]
          exact h.2.2.1
      position_ride := fun p hp => mem_column_concat (t.position_ride p hp) }
  else none

/-- `INSERT INTO ride_position`. -/
def insertPosition (t : Tables P) (rideId : Int) (p : RidePoint) : Option (Tables P) := do
  let row ← p.row rideId
  if h : row.rideId ∈ t.ride.map (·.id) then
    some { t with
      ridePosition := t.ridePosition ++ [row]
      position_ride := fun p hp => by
        rcases List.mem_append.mp hp with hp | hp
        · exact t.position_ride p hp
        · rw [List.mem_singleton.mp hp]
          exact h }
  else none

end Tables

/-! ## Statements -/

/-- The statements of the repositories, each with the values it is
formatted with. -/
inductive Stmt where
  | startTransaction
  | commit
  | rollback
  | selectUser (mobile : String)
  | insertUser (mobile : String)
  | selectBalance (uid : Int32)
  | insertIgnoreAccount (uid : Int32)
  | updateBalance (uid amount : Int32)
  | insertRecord (uid : Int32) (type : RecordType) (amount : Int32)
  | selectRecords (uid limit : Int32)
  | insertRide (inp : CreateRideInput)
  | insertPosition (rideId : Int) (p : RidePoint)
  | selectRideByNo (rideNo : String)
  | selectPoints (rideId : Int32)
  | selectRides (uid limit : Int32)
  | selectBikeForUpdate (bikeNo : String)
  | updateBikeStatus (id : Int32) (status : BikeStatus)
  | updateBikeLocation (id : Int32) (lat lng : Double)
  | selectBikesInBox (latMin latMax lngMin lngMax : Double)
  | insertBike (b : Bike)

/-- What a statement that is carried out gives back: rows, the insert id, the
number of changed rows, or nothing. -/
abbrev Stmt.Rows : Stmt → Type
  | .selectUser _ => List User
  | .insertUser _ => Int32
  | .selectBalance _ => List Int32
  | .selectRecords _ _ => List AccountRecord
  | .insertRide _ => Int
  | .selectRideByNo _ => List RideRow
  | .selectPoints _ => List PositionRow
  | .selectRides _ _ => List RideRow
  | .selectBikeForUpdate _ => List BikeRow
  | .updateBikeStatus _ _ => Nat
  | .updateBikeLocation _ _ _ => Nat
  | .selectBikesInBox _ _ _ _ => List BikeRow
  | .insertBike _ => Int32
  | _ => Unit

/-- The `AUTO_INCREMENT` counters. A rollback does not set them back. -/
structure Counters where
  user : Int32
  bike : Int32
  ride : Int
  deriving DecidableEq

namespace Stmt

variable {P : Platform}

/-- A negative `LIMIT` is an error. -/
def limited {α : Type} (limit : Int32) (rows : List α) : Option (List α) :=
  if limit < 0 then none else some (rows.take limit.toInt.toNat)

/-- What a statement does to the tables it sees; `none` is an error. -/
def apply (now : Nat) (ids : Counters) : (s : Stmt) → Tables P → Option (s.Rows × Tables P)
  | .startTransaction, t => some ((), t)
  | .commit, t => some ((), t)
  | .rollback, t => some ((), t)
  | .selectUser mobile, t =>
    some (t.userinfo.filter fun u => P.collation u.mobile = P.collation mobile, t)
  | .insertUser mobile, t => (t.insertUser ids.user mobile).map (ids.user, ·)
  | .selectBalance uid, t => some ((t.account uid).toList, t)
  | .insertIgnoreAccount uid, t => some ((), t.insertIgnoreAccount uid)
  | .updateBalance uid amount, t => (t.updateBalance uid amount).map ((), ·)
  | .insertRecord uid type amount, t => some ((), t.insertRecord now uid type amount)
  | .selectRecords uid limit, t =>
    -- the index on (user_id, tm), read backwards
    let own := (t.accountRecord.filter (·.userId = uid)).reverse.map (·.record)
    (limited limit (own.insertionSort fun a b => b.timestamp ≤ a.timestamp)).map (·, t)
  | .insertRide inp, t => (t.insertRide ids.ride inp).map (ids.ride, ·)
  | .insertPosition rideId p, t => (t.insertPosition rideId p).map ((), ·)
  | .selectRideByNo rideNo, t =>
    -- a text that loses its last quote is an error
    if rideByNoWhole rideNo then
      some (t.ride.filter fun r => P.collation r.rideNo = P.collation rideNo, t)
    else none
  | .selectPoints rideId, t =>
    let own := t.ridePosition.filter (·.rideId = rideId.toInt)
    some (own.insertionSort fun a b => a.seq ≤ b.seq, t)
  | .selectRides uid limit, t =>
    -- the index on (user_id, start_tm), read backwards
    let own := (t.ride.filter (·.userId = uid)).reverse
    ((limitLeft uid limit).apply (own.insertionSort fun a b => b.startTm ≤ a.startTm)).map (·, t)
  | .selectBikeForUpdate bikeNo, t =>
    some (t.bike.filter fun b => P.collation b.bikeNo = P.collation bikeNo, t)
  | .updateBikeStatus id status, t =>
    some ((t.bike.filter fun b => b.id = id ∧ b.status ≠ status).length,
      t.updateBike id (fun b => { b with status }) fun _ => ⟨rfl, rfl⟩)
  | .updateBikeLocation id lat lng, t => do
    let lat ← decimal lat
    let lng ← decimal lng
    some ((t.bike.filter fun b => b.id = id ∧ (b.lat ≠ lat ∨ b.lng ≠ lng)).length,
      t.updateBike id (fun b => { b with lat, lng }) fun _ => ⟨rfl, rfl⟩)
  | .selectBikesInBox latMin latMax lngMin lngMax, t => do
    let latMin ← latMin.dec7
    let latMax ← latMax.dec7
    let lngMin ← lngMin.dec7
    let lngMax ← lngMax.dec7
    some (t.bike.filter fun b => b.status ≠ .rented ∧ latMin ≤ b.lat ∧ b.lat ≤ latMax ∧
      lngMin ≤ b.lng ∧ b.lng ≤ lngMax, t)
  | .insertBike b, t => (t.insertBike ids.bike b).map (ids.bike, ·)

/-- Which counter a successful statement moves. -/
def bump (ids : Counters) : Stmt → Counters
  | .insertUser _ => { ids with user := ids.user + 1 }
  | .insertRide _ => { ids with ride := ids.ride + 1 }
  | .insertBike _ => { ids with bike := ids.bike + 1 }
  | _ => ids

end Stmt

/-! ## Connections -/

/-- What a repository asks of the pool and of the server. A statement can
fail at its site; a `ROLLBACK` takes effect even then, since the server
drops the transaction of a connection it loses. -/
inductive SqlCall where
  | acquire
  | release (conn : Nat)
  | query (conn : Nat) (site : Option Site) (stmt : Stmt)

abbrev SqlCall.Res : SqlCall → Type
  | .acquire => Nat
  | .release _ => Unit
  | .query _ _ stmt => Option stmt.Rows

/-- The server while one repository operation runs on its own: what is
committed, the open transaction and its connection, and the leases held. -/
structure Db (P : Platform) where
  committed : Tables P
  txn : Option (Nat × Tables P)
  ids : Counters
  leases : Nat

namespace Db

variable {P : Platform}

/-- What a connection sees: its own transaction, or what is committed. -/
def view (db : Db P) (conn : Nat) : Tables P :=
  match db.txn with
  | some (c, t) => if c = conn then t else db.committed
  | none => db.committed

/-- A change goes to the connection's transaction, or is committed at once. -/
def store (db : Db P) (conn : Nat) (t : Tables P) : Db P :=
  match db.txn with
  | some (c, _) => if c = conn then { db with txn := some (c, t) } else { db with committed := t }
  | none => { db with committed := t }

/-- `mysql_real_query` and the fetching of its result. -/
def query (env : Env) (conn : Nat) (site : Option Site) :
    (stmt : Stmt) → Db P → Option stmt.Rows × Db P
  | .startTransaction, db =>
    if site.any env.fails then (none, db)
    else (some (), { db with txn := some (conn, db.committed) })
  | .commit, db =>
    if site.any env.fails then (none, db)
    else (some (), { db with committed := db.view conn, txn := none })
  | .rollback, db => (some (), { db with txn := none })
  | stmt, db =>
    if site.any env.fails then (none, db)
    else
      match stmt.apply env.now db.ids (db.view conn) with
      | none => (none, db)
      | some (rows, t) => (some rows, { db.store conn t with ids := stmt.bump db.ids })

/-- One operation at a time: there is a connection for every `acquire`. -/
def exec (env : Env) : (c : SqlCall) → Db P → c.Res × Db P
  | .acquire, db => (db.leases, { db with leases := db.leases + 1 })
  | .release _, db => ((), { db with leases := db.leases - 1 })
  | .query conn site stmt, db => query env conn site stmt db

end Db

end SharedBike.Server
