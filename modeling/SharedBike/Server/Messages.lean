import SharedBike.Server.World
import SharedBike.Lib.Protobuf
import SharedBike.Wire.Protocol
import Mathlib.Data.Int.Log
import Mathlib.Algebra.Order.Field.Rat
import Mathlib.Data.Rat.Floor

/-!
# The replies as bytes

`proto/bike.proto`, and the last step of every handler: the message is
serialised, put into a frame under the event of the reply, and encoded. The
sequence number is stamped on later. `encode` throws when the payload is too
long, and the exception leaves the handler.
-/

namespace SharedBike.Common.Double

/-- The bits of the binary64 format. Only values of the format occur; any other
is cut to the format's precision. -/
def bits : Double → UInt64
  | .nan => 0x7FF8000000000000
  | .inf negative => if negative then 0xFFF0000000000000 else 0x7FF0000000000000
  | .fin q =>
    let sign : Nat := if q < 0 then 2 ^ 63 else 0
    -- below the smallest normal number the exponent stays
    let exponent : Int := max (Int.log 2 |q|) (-1022)
    let mantissa : Nat := (|q| * 2 ^ (52 - exponent)).floor.toNat
    if mantissa < 2 ^ 52 then UInt64.ofNat (sign + mantissa)
    else UInt64.ofNat (sign + (exponent + 1023).toNat * 2 ^ 52 + (mantissa - 2 ^ 52))

end SharedBike.Common.Double

namespace SharedBike.Server

open SharedBike.Common SharedBike.Lib SharedBike.Lib.Protobuf SharedBike.Wire

/-- A `double` field; the value has no sign when it is zero. -/
def doubleField (field : Nat) (x : Double) : Bytes := double field (x = .fin 0) x.bits

/-! ## Messages -/

def MobileResponse.serialize (m : MobileResponse) : Bytes :=
  int 1 m.code.toInt ++ int 2 m.icode.toInt ++ string 3 m.data

def LoginResponse.serialize (m : LoginResponse) : Bytes :=
  int 1 m.code.toInt ++ string 2 m.desc ++ string 3 m.sessionToken

def RechargeResponse.serialize (m : RechargeResponse) : Bytes :=
  int 1 m.code.toInt ++ int 2 m.balance.toInt ++ string 3 m.desc

def AccountBalanceResponse.serialize (m : AccountBalanceResponse) : Bytes :=
  int 1 m.code.toInt ++ int 2 m.balance.toInt

def RecordInfo.serialize (m : RecordInfo) : Bytes :=
  int 1 m.type.toInt ++ int 2 m.amount.toInt ++ int 3 m.timestamp

def ListAccountRecordsResponse.serialize (m : ListAccountRecordsResponse) : Bytes :=
  int 1 m.code.toInt ++ messages 2 RecordInfo.serialize m.records

def BikeInfo.serialize (m : BikeInfo) : Bytes :=
  string 1 m.bikeNo ++ doubleField 2 m.lat ++ doubleField 3 m.lng ++ int 4 m.status.toInt

def ListNearbyBikesResponse.serialize (m : ListNearbyBikesResponse) : Bytes :=
  int 1 m.code.toInt ++ messages 2 BikeInfo.serialize m.bikes

def ScanUnlockResponse.serialize (m : ScanUnlockResponse) : Bytes :=
  int 1 m.code.toInt ++ string 2 m.desc ++ string 3 m.rideNo ++ int 4 m.startTs

def EndRideResponse.serialize (m : EndRideResponse) : Bytes :=
  int 1 m.code.toInt ++ string 2 m.desc ++ int 3 m.durationSec.toInt ++ int 4 m.distanceM.toInt ++
    int 5 m.amountCent.toInt ++ int 6 m.balanceAfter.toInt

def ReportDamageResponse.serialize (m : ReportDamageResponse) : Bytes :=
  int 1 m.code.toInt ++ string 2 m.desc

def PointInfo.serialize (m : PointInfo) : Bytes :=
  doubleField 1 m.lat ++ doubleField 2 m.lng ++ int 3 m.elapsedSec.toInt

def GetRideDetailResponse.serialize (m : GetRideDetailResponse) : Bytes :=
  int 1 m.code.toInt ++ string 2 m.rideNo ++ int 3 m.durationSec.toInt ++ int 4 m.distanceM.toInt ++
    int 5 m.amountCent.toInt ++ string 6 m.startTm ++ string 7 m.endTm ++
    messages 8 PointInfo.serialize m.points

def RideSummary.serialize (m : RideSummary) : Bytes :=
  string 1 m.rideNo ++ string 2 m.startTm ++ int 3 m.durationSec.toInt ++ int 4 m.distanceM.toInt ++
    int 5 m.amountCent.toInt

def ListRidesResponse.serialize (m : ListRidesResponse) : Bytes :=
  int 1 m.code.toInt ++ messages 2 RideSummary.serialize m.rides

/-! ## Events -/

/-- The event under which `register_handlers` has the handler. -/
def Request.eventId : Request → UInt16
  | .mobileCode _ => 0x01
  | .login _ => 0x03
  | .recharge _ => 0x05
  | .accountBalance _ => 0x07
  | .listRecords _ => 0x09
  | .listNearbyBikes _ _ => 0x11
  | .scanUnlock _ => 0x13
  | .positionReport _ => ridePositionReport
  | .endRide _ => 0x17
  | .reportDamage _ => 0x19
  | .getRideDetail _ => 0x1B
  | .listRides _ => 0x1D

/-- The event and the payload of the frame that a handler returns; a one-way
handler returns none. -/
def Reply.message : Reply → Option (UInt16 × Bytes)
  | .mobileCode r => some (0x02, r.serialize)
  | .login r => some (0x04, r.serialize)
  | .recharge r => some (0x06, r.serialize)
  | .accountBalance r => some (0x08, r.serialize)
  | .listRecords r => some (0x10, r.serialize)
  | .listNearbyBikes r => some (0x12, r.serialize)
  | .scanUnlock r => some (0x14, r.serialize)
  | .endRide r => some (0x18, r.serialize)
  | .reportDamage r => some (0x1A, r.serialize)
  | .getRideDetail r => some (0x1C, r.serialize)
  | .listRides r => some (0x1E, r.serialize)
  | .nothing => none

/-- What the handler returns for its message: the empty vector, or the encoded frame. -/
def Reply.encode (r : Reply) : Outcome Bytes :=
  match r.message with
  | none => .ok []
  | some (eventId, payload) => Wire.encode ⟨eventId, 0, payload⟩

/-- `Router::dispatch` of a request: the bytes, or an exception. -/
def World.respond {P : Platform} {d : Deployment} (env : Env) (r : Request) (w : World P d) :
    Outcome Bytes :=
  (World.run env (dispatch P r) w).1.bind Reply.encode

end SharedBike.Server
