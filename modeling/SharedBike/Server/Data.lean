import SharedBike.Common.RideNo
import SharedBike.Lib.Prog

/-!
# The server's data and the calls of its handlers

The records of `server/include/server/repo/` and `ride_session_store.hpp`,
the messages of `proto/bike.proto`, and the calls a handler can make: on
the five repositories behind `Ctx`, on the ride session store, and on the
clock. What a call does is another matter: `Server.InMemory` answers the
repository calls from maps, `Server.Production` from the database and Redis.

A C++ `long long` of seconds is an `Int`, since it never comes near its end.
-/

namespace SharedBike.Server

open SharedBike.Common SharedBike.Lib

/-! ## Records -/

structure User where
  id : Int32
  mobile : String
  deriving DecidableEq

inductive RecordType where
  | recharge
  | consume
  deriving DecidableEq

def RecordType.code : RecordType → Int32
  | .recharge => 1
  | .consume => 2

structure AccountRecord where
  type : Int32
  amount : Int32
  balanceAfter : Int32
  timestamp : Int
  deriving DecidableEq

inductive BikeStatus where
  | idle
  | rented
  | damaged
  deriving DecidableEq

def BikeStatus.code : BikeStatus → Int32
  | .idle => 0
  | .rented => 1
  | .damaged => 2

structure Bike where
  id : Int32
  bikeNo : String
  lat : Double
  lng : Double
  status : BikeStatus
  deriving DecidableEq

structure RidePoint where
  seq : Int32
  lat : Double
  lng : Double
  elapsedSec : Int32
  deriving DecidableEq

structure Ride where
  id : Int32
  rideNo : String
  userId : Int32
  bikeId : Int32
  startTs : Int
  endTs : Int
  startLat : Double
  startLng : Double
  endLat : Double
  endLng : Double
  durationSec : Int32
  distanceM : Int32
  amountCent : Int32
  status : Int32
  deriving DecidableEq

structure CreateRideInput where
  rideNo : String
  userId : Int32
  bikeId : Int32
  startTs : Int
  endTs : Int
  startLat : Double
  startLng : Double
  endLat : Double
  endLng : Double
  durationSec : Int32
  distanceM : Int32
  amountCent : Int32
  points : List RidePoint
  deriving DecidableEq

/-- The ride that a repository makes of its input, under the id it gave it. -/
def CreateRideInput.toRide (inp : CreateRideInput) (id : Int32) : Ride where
  id := id
  rideNo := inp.rideNo
  userId := inp.userId
  bikeId := inp.bikeId
  startTs := inp.startTs
  endTs := inp.endTs
  startLat := inp.startLat
  startLng := inp.startLng
  endLat := inp.endLat
  endLng := inp.endLng
  durationSec := inp.durationSec
  distanceM := inp.distanceM
  amountCent := inp.amountCent
  status := 0

/-- `Ride{}`, what `create_with_points` returns after a rollback. -/
def Ride.empty : Ride := ⟨0, "", 0, 0, 0, 0, .fin 0, .fin 0, .fin 0, .fin 0, 0, 0, 0, 0⟩

structure RideSession where
  rideNo : String
  userId : Int32
  bikeId : Int32
  startLat : Double
  startLng : Double
  startTs : Int
  lastLat : Double
  lastLng : Double
  lastSeq : Int32
  points : List RidePoint
  deriving DecidableEq

/-! ## Messages -/

structure MobileRequest where
  mobile : String

structure MobileResponse where
  code : Int32
  icode : Int32
  data : String
  deriving DecidableEq

structure LoginRequest where
  mobile : String
  icode : Int32

structure LoginResponse where
  code : Int32
  desc : String
  sessionToken : String
  deriving DecidableEq

structure RechargeRequest where
  sessionToken : String
  amount : Int32

structure RechargeResponse where
  code : Int32
  balance : Int32
  desc : String
  deriving DecidableEq

structure AccountBalanceRequest where
  sessionToken : String

structure AccountBalanceResponse where
  code : Int32
  balance : Int32
  deriving DecidableEq

structure ListAccountRecordsRequest where
  sessionToken : String

structure RecordInfo where
  type : Int32
  amount : Int32
  timestamp : Int
  deriving DecidableEq

structure ListAccountRecordsResponse where
  code : Int32
  records : List RecordInfo
  deriving DecidableEq

structure ListNearbyBikesRequest where
  sessionToken : String
  lat : Double
  lng : Double
  radiusM : Double

structure BikeInfo where
  bikeNo : String
  lat : Double
  lng : Double
  status : Int32
  deriving DecidableEq

structure ListNearbyBikesResponse where
  code : Int32
  bikes : List BikeInfo
  deriving DecidableEq

structure ScanUnlockRequest where
  sessionToken : String
  bikeNo : String
  lat : Double
  lng : Double

structure ScanUnlockResponse where
  code : Int32
  desc : String
  rideNo : String
  startTs : Int
  deriving DecidableEq

structure RidePositionReport where
  rideNo : String
  seq : Int32
  lat : Double
  lng : Double
  elapsedSec : Int32

structure EndRideRequest where
  sessionToken : String
  rideNo : String
  endLat : Double
  endLng : Double

structure EndRideResponse where
  code : Int32
  desc : String
  durationSec : Int32
  distanceM : Int32
  amountCent : Int32
  balanceAfter : Int32
  deriving DecidableEq

structure ReportDamageRequest where
  sessionToken : String
  bikeNo : String
  note : String

structure ReportDamageResponse where
  code : Int32
  desc : String
  deriving DecidableEq

structure GetRideDetailRequest where
  sessionToken : String
  rideNo : String

structure PointInfo where
  lat : Double
  lng : Double
  elapsedSec : Int32
  deriving DecidableEq

structure GetRideDetailResponse where
  code : Int32
  rideNo : String
  durationSec : Int32
  distanceM : Int32
  amountCent : Int32
  startTm : String
  endTm : String
  points : List PointInfo
  deriving DecidableEq

structure ListRidesRequest where
  sessionToken : String
  limit : Int32

structure RideSummary where
  rideNo : String
  startTm : String
  durationSec : Int32
  distanceM : Int32
  amountCent : Int32
  deriving DecidableEq

structure ListRidesResponse where
  code : Int32
  rides : List RideSummary
  deriving DecidableEq

/-! ## What the code takes from its platform -/

/-- The floating-point arithmetic and the library functions whose results no
check of the server depends on, and the collation of the database. `std::sort`
may order equal keys as it likes: what is known is that it sorts. -/
structure Platform where
  haversineM : Double → Double → Double → Double → Double
  /-- `dist_m += d` -/
  add : Double → Double → Double
  /-- `static_cast<int>` of a double -/
  toInt : Double → Int32
  /-- `atof` of a `decimal(10,7)` column -/
  atof7 : Int → Double
  /-- the bounding box of `list_nearby_bikes`: least and largest latitude, then longitude -/
  searchBox : Double → Double → Double → Double × Double × Double × Double
  /-- `random_offset` of a centre, a radius and two draws from the unit interval -/
  randomOffset : Double → Double → Double → Double → Double → Double × Double
  /-- `fmt_iso` -/
  fmtIso : Int → String
  sortPoints : List RidePoint → List RidePoint
  sort_perm : ∀ l, (sortPoints l).Perm l
  sort_sorted : ∀ l, (sortPoints l).Pairwise fun a b => a.elapsedSec ≤ b.elapsedSec
  /-- two texts are equal to the database when their keys are -/
  collation : String → String

/-! ## Calls -/

/-- The calls on the repositories behind `Ctx`. -/
inductive RepoCall where
  | findByMobile (mobile : String)
  | findOrCreate (mobile : String)
  | getBalance (uid : Int32)
  | addBalance (uid : Int32) (type : RecordType) (amount : Int32)
  | listRecords (uid limit : Int32)
  | setCode (mobile : String)
  | getCode (mobile : String)
  | deleteCode (mobile : String)
  | createSession (mobile : String)
  | lookupSession (token : String)
  | destroySession (token : String)
  | getForUpdate (bikeNo : String)
  | updateStatus (bikeId : Int32) (status : BikeStatus)
  | updateLocation (bikeId : Int32) (lat lng : Double)
  | listInBounds (latMin latMax lngMin lngMax : Double)
  | insert (b : Bike)
  | createWithPoints (inp : CreateRideInput)
  | findByNo (rideNo : String)
  | listPoints (rideId : Int32)
  | listByUser (uid limit : Int32)

abbrev RepoCall.Res : RepoCall → Type
  | .findByMobile _ => Option User
  | .findOrCreate _ => User
  | .getBalance _ => Int32
  | .addBalance _ _ _ => Int32
  | .listRecords _ _ => List AccountRecord
  | .setCode _ => Int32
  | .getCode _ => Option Int32
  | .deleteCode _ => Unit
  | .createSession _ => String
  | .lookupSession _ => Option String
  | .destroySession _ => Unit
  | .getForUpdate _ => Option Bike
  | .updateStatus _ _ => Bool
  | .updateLocation _ _ _ => Bool
  | .listInBounds _ _ _ _ => List Bike
  | .insert _ => Option Bike
  | .createWithPoints _ => Ride
  | .findByNo _ => Option Ride
  | .listPoints _ => List RidePoint
  | .listByUser _ _ => List Ride

/-- The calls on `RideSessionStore`. -/
inductive RideCall where
  | create (s : RideSession)
  | find (rideNo : String)
  | updatePos (rideNo : String) (lat lng : Double) (seq elapsedSec : Int32)
  | remove (rideNo : String)

abbrev RideCall.Res : RideCall → Type
  | .create _ => Unit
  | .find _ => Option RideSession
  | .updatePos _ _ _ _ _ => Bool
  | .remove _ => Bool

/-- Everything a handler can call. -/
inductive Call where
  | repo (c : RepoCall)
  | ride (c : RideCall)
  | nowUnix
  | today

abbrev Call.Res : Call → Type
  | .repo c => c.Res
  | .ride c => c.Res
  | .nowUnix => Int
  | .today => Int32

/-! ## What surrounds a call -/

/-- The places in the repositories where the database or Redis can fail. -/
inductive Site where
  | redisConnect
  | redisCommand
  | userSelect
  | userInsert
  | userSelectAgain
  | balanceSelect
  | chargeBegin
  | chargeAccount
  | chargeUpdate
  | chargeRecord
  | chargeCommit
  | recordsSelect
  | rideBegin
  | rideInsert
  | ridePoint (i : Nat)
  | rideCommit
  | rideSelect
  | pointsSelect
  | ridesSelect
  | bikeSelect
  | bikeStatus
  | bikeLocation
  | bikesSelect
  | bikeInsert
  deriving DecidableEq

/-- The clock, the draws of the session store's generator, and which
statements fail. -/
structure Env where
  now : Nat
  code : Int32
  token : String
  fails : Site → Bool

/-- A program over these calls. -/
abbrev Calls (α : Type) := Prog Call Call.Res α

/-- How a handler ends: with its answer, or with an exception that leaves it. -/
abbrev Outcome (α : Type) := Except String α

end SharedBike.Server
