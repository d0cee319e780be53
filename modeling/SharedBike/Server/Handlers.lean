import SharedBike.Server.Data

/-!
# The handlers

`server/src/handlers/*.cpp` and `auth.cpp`, as programs over calls. The
payload of a request is what `ParseFromArray` makes of the bytes: a message,
or nothing. An answer is the message that is sent back; the frame around it
belongs to the gateway.
-/

namespace SharedBike.Server

open SharedBike.Common SharedBike.Lib

/-- A call on one of the repositories. -/
def repo (c : RepoCall) : Calls c.Res := Prog.ask (Call.repo c)

/-- A call on the ride session store. -/
def rideSessions (c : RideCall) : Calls c.Res := Prog.ask (Call.ride c)

def nowUnix : Calls Int := Prog.ask Call.nowUnix

def today : Calls Int32 := Prog.ask Call.today

/-- `desc.empty() ? to_string(ec) : desc` -/
def descOr (ec : ErrCode) (desc : String) : String := if desc = "" then ec.toText else desc

/-- The id of the user that a token stands for. A mobile that has no user yet
is given one. -/
def requireUser (token : String) : Calls (Option Int32) := do
  match ← repo (.lookupSession token) with
  | none => return none
  | some mobile =>
    let u ← repo (.findOrCreate mobile)
    return some u.id

/-! ## Login -/

def MobileResponse.finish (ec : ErrCode) (icode : Int32) : MobileResponse :=
  ⟨ec.code, icode, ec.toText⟩

def mobileCode (payload : Option MobileRequest) : Calls (Outcome MobileResponse) := do
  match payload with
  | none => return .ok (.finish .invalidMsg 0)
  | some req =>
    let icode ← repo (.setCode req.mobile)
    return .ok (.finish .ok icode)

def LoginResponse.fail (ec : ErrCode) : LoginResponse := ⟨ec.code, ec.toText, ""⟩

def login (payload : Option LoginRequest) : Calls (Outcome LoginResponse) := do
  match payload with
  | none => return .ok (.fail .invalidMsg)
  | some req =>
    let stored ← repo (.getCode req.mobile)
    if stored ≠ some req.icode then return .ok (.fail .invalidData)
    else
      repo (.deleteCode req.mobile)
      let u ← repo (.findOrCreate req.mobile)
      let _ ← repo (.getBalance u.id)
      let token ← repo (.createSession req.mobile)
      return .ok ⟨ErrCode.ok.code, ErrCode.ok.toText, token⟩

/-! ## Accounts -/

def RechargeResponse.fail (ec : ErrCode) : RechargeResponse := ⟨ec.code, 0, ec.toText⟩

def recharge (payload : Option RechargeRequest) : Calls (Outcome RechargeResponse) := do
  match payload with
  | none => return .ok (.fail .invalidMsg)
  | some req =>
    if req.amount ≤ 0 then return .ok (.fail .invalidData)
    else
      match ← repo (.lookupSession req.sessionToken) with
      | none => return .ok (.fail .unauthorized)
      | some mobile =>
        let u ← repo (.findOrCreate mobile)
        let newBal ← repo (.addBalance u.id .recharge req.amount)
        return .ok ⟨ErrCode.ok.code, newBal, ErrCode.ok.toText⟩

def accountBalance (payload : Option AccountBalanceRequest) : Calls (Outcome AccountBalanceResponse) := do
  match payload with
  | none => return .ok ⟨ErrCode.invalidMsg.code, 0⟩
  | some req =>
    match ← repo (.lookupSession req.sessionToken) with
    | none => return .ok ⟨ErrCode.unauthorized.code, 0⟩
    | some mobile =>
      let u ← repo (.findOrCreate mobile)
      let bal ← repo (.getBalance u.id)
      return .ok ⟨ErrCode.ok.code, bal⟩

def listRecords (payload : Option ListAccountRecordsRequest) :
    Calls (Outcome ListAccountRecordsResponse) := do
  match payload with
  | none => return .ok ⟨ErrCode.invalidMsg.code, []⟩
  | some req =>
    match ← repo (.lookupSession req.sessionToken) with
    | none => return .ok ⟨ErrCode.unauthorized.code, []⟩
    | some mobile =>
      let u ← repo (.findOrCreate mobile)
      let recs ← repo (.listRecords u.id 100)
      return .ok ⟨ErrCode.ok.code, recs.map fun r => ⟨r.type, r.amount, r.timestamp⟩⟩

/-! ## Bikes -/

def kSpawnThreshold : Nat := 5
def kSpawnTarget : Nat := 12
def kMaxNoRetry : Nat := 4

/-- What a request draws from its thread's generator: for each bike the two
numbers of its offset, and for each attempt at its number six places in the
alphabet. -/
structure SpawnDraws where
  offset : Nat → Double × Double
  pick : Nat → Nat → Nat → Fin 31

def kAlphabet : List Char := "23456789ABCDEFGHJKMNPQRSTUVWXYZ".toList

def makeDynBikeNo (pick : Nat → Fin 31) : String :=
  String.ofList ("DY-".toList ++ (List.range 6).map fun k => kAlphabet.getD (pick k) '2')

theorem makeDynBikeNo_length (pick : Nat → Fin 31) : (makeDynBikeNo pick).length = 9 := by
  refine String.length_ofList.trans ?_
  rw [List.length_append, List.length_map, List.length_range]
  rfl

/-- The attempts at one bike: a number that is taken is drawn again. -/
def insertBike (draws : SpawnDraws) (i : Nat) (lat lng : Double) :
    Nat → Calls (Option Bike)
  | 0 => return none
  | left + 1 => do
    let bikeNo := makeDynBikeNo (draws.pick i (kMaxNoRetry - (left + 1)))
    match ← repo (.insert ⟨0, bikeNo, lat, lng, .idle⟩) with
    | some b => return some b
    | none => insertBike draws i lat lng left

/-- The last `need` of the bikes that are put out. -/
def spawnBikes (P : Platform) (draws : SpawnDraws) (total : Nat) (lat lng r : Double) :
    Nat → Calls (List Bike)
  | 0 => return []
  | need + 1 => do
    let i := total - (need + 1)
    let (plat, plng) := P.randomOffset lat lng r (draws.offset i).1 (draws.offset i).2
    let b ← insertBike draws i plat plng kMaxNoRetry
    let rest ← spawnBikes P draws total lat lng r need
    return b.toList ++ rest

def BikeInfo.ofBike (b : Bike) : BikeInfo := ⟨b.bikeNo, b.lat, b.lng, b.status.code⟩

def listNearbyBikes (P : Platform) (draws : SpawnDraws) (payload : Option ListNearbyBikesRequest) :
    Calls (Outcome ListNearbyBikesResponse) := do
  match payload with
  | none => return .ok ⟨ErrCode.invalidMsg.code, []⟩
  | some req =>
    match ← requireUser req.sessionToken with
    | none => return .ok ⟨ErrCode.unauthorized.code, []⟩
    | some _ =>
      if !validLat req.lat || !validLng req.lng then return .ok ⟨ErrCode.invalidData.code, []⟩
      else
        let r := clampRadius req.radiusM
        let (latMin, latMax, lngMin, lngMax) := P.searchBox req.lat req.lng r
        let bikes ← repo (.listInBounds latMin latMax lngMin lngMax)
        let near := bikes.filter fun b => (P.haversineM req.lat req.lng b.lat b.lng).le r
        let spawned ←
          if near.length < kSpawnThreshold then
            spawnBikes P draws (kSpawnTarget - near.length) req.lat req.lng r
              (kSpawnTarget - near.length)
          else pure []
        return .ok ⟨ErrCode.ok.code, (near ++ spawned).map .ofBike⟩

def ReportDamageResponse.fail (ec : ErrCode) (desc : String := "") : ReportDamageResponse :=
  ⟨ec.code, descOr ec desc⟩

def reportDamage (payload : Option ReportDamageRequest) : Calls (Outcome ReportDamageResponse) := do
  match payload with
  | none => return .ok (.fail .invalidMsg)
  | some req =>
    match ← requireUser req.sessionToken with
    | none => return .ok (.fail .unauthorized)
    | some _ =>
      if !validBikeNo req.bikeNo then return .ok (.fail .invalidData)
      else
        match ← repo (.getForUpdate req.bikeNo) with
        | none => return .ok (.fail .invalidData "车辆不存在")
        | some bike =>
          let _ ← repo (.updateStatus bike.id .damaged)
          return .ok ⟨ErrCode.ok.code, ErrCode.ok.toText⟩

/-! ## Unlocking -/

def ScanUnlockResponse.fail (ec : ErrCode) (desc : String := "") : ScanUnlockResponse :=
  ⟨ec.code, descOr ec desc, "", 0⟩

/-- `(now_unix() % 999999) + 1` as an `int` -/
def dailySeq (now : Int) : Int32 := Int32.ofInt (now.tmod 999999 + 1)

/-- From the balance check on, for a bike that was seen idle. -/
def unlockBike (req : ScanUnlockRequest) (uid : Int32) (bike : Bike) :
    Calls (Outcome ScanUnlockResponse) := do
  let bal ← repo (.getBalance uid)
  if bal < 100 then return .ok (.fail .processFailed "余额不足")
  else
    let seqTs ← nowUnix
    let date ← today
    match makeRideNo date (dailySeq seqTs) with
    | .error what => return .error what
    | .ok rideNo =>
      let startTs ← nowUnix
      rideSessions (.create ⟨rideNo, uid, bike.id, req.lat, req.lng, startTs, req.lat, req.lng,
        0, []⟩)
      let _ ← repo (.updateStatus bike.id .rented)
      return .ok ⟨ErrCode.ok.code, ErrCode.ok.toText, rideNo, startTs⟩

def scanUnlock (payload : Option ScanUnlockRequest) : Calls (Outcome ScanUnlockResponse) := do
  match payload with
  | none => return .ok (.fail .invalidMsg)
  | some req =>
    match ← requireUser req.sessionToken with
    | none => return .ok (.fail .unauthorized)
    | some uid =>
      if !validBikeNo req.bikeNo || !validLat req.lat || !validLng req.lng then
        return .ok (.fail .invalidData)
      else
        match ← repo (.getForUpdate req.bikeNo) with
        | none => return .ok (.fail .invalidData "车辆不存在")
        | some bike =>
          match bike.status with
          | .damaged => return .ok (.fail .bikeIsDamaged)
          | .rented => return .ok (.fail .bikeIsRunning)
          | .idle => unlockBike req uid bike

/-- A one-way event. -/
def positionReport (payload : Option RidePositionReport) : Calls (Outcome Unit) := do
  match payload with
  | none => return .ok ()
  | some req =>
    let _ ← rideSessions (.updatePos req.rideNo req.lat req.lng req.seq req.elapsedSec)
    return .ok ()

/-! ## Ending a ride -/

def EndRideResponse.fail (ec : ErrCode) (desc : String := "") : EndRideResponse :=
  ⟨ec.code, descOr ec desc, 0, 0, 0, 0⟩

/-- `static_cast<int>(end_ts - start_ts)`, and not less than 0. -/
def duration (endTs startTs : Int) : Int32 :=
  if Int32.ofInt (endTs - startTs) < 0 then 0 else Int32.ofInt (endTs - startTs)

/-- Start, reported points and end, in the order of the elapsed time. -/
def trajectory (P : Platform) (req : EndRideRequest) (sess : RideSession) (durationSec : Int32) :
    List RidePoint :=
  P.sortPoints (⟨0, sess.startLat, sess.startLng, 0⟩ :: sess.points ++
    [⟨sess.lastSeq + 1, req.endLat, req.endLng, durationSec⟩])

/-- The sum over the segments, added up from the start. -/
def pathLength (P : Platform) : Double → List RidePoint → Double
  | acc, a :: b :: rest =>
    pathLength P (P.add acc (P.haversineM a.lat a.lng b.lat b.lng)) (b :: rest)
  | acc, _ => acc

/-- The ride that `end_ride` archives. -/
def archive (P : Platform) (req : EndRideRequest) (sess : RideSession) (uid : Int32) (endTs : Int)
    (amount : Int32) : CreateRideInput where
  rideNo := sess.rideNo
  userId := uid
  bikeId := sess.bikeId
  startTs := sess.startTs
  endTs := endTs
  startLat := sess.startLat
  startLng := sess.startLng
  endLat := req.endLat
  endLng := req.endLng
  durationSec := duration endTs sess.startTs
  distanceM := P.toInt
    (pathLength P (.fin 0) (trajectory P req sess (duration endTs sess.startTs)))
  amountCent := amount
  points := trajectory P req sess (duration endTs sess.startTs)

/-- The settled ride of a number that has no session. -/
def replayRide (rideNo : String) (uid : Int32) : Calls (Outcome EndRideResponse) := do
  match ← repo (.findByNo rideNo) with
  | none => return .ok (.fail .invalidData "订单不存在")
  | some row =>
    if row.userId ≠ uid then return .ok (.fail .unauthorized)
    else
      let bal ← repo (.getBalance uid)
      return .ok ⟨ErrCode.ok.code, ErrCode.ok.toText, row.durationSec, row.distanceM,
        row.amountCent, bal⟩

/-- Everything after the charge; no result is looked at. -/
def finishRide (req : EndRideRequest) (sess : RideSession) (inp : CreateRideInput)
    (newBal : Int32) : Calls (Outcome EndRideResponse) := do
  let _ ← repo (.createWithPoints inp)
  let _ ← repo (.updateLocation sess.bikeId req.endLat req.endLng)
  let _ ← repo (.updateStatus sess.bikeId .idle)
  let _ ← rideSessions (.remove sess.rideNo)
  return .ok ⟨ErrCode.ok.code, ErrCode.ok.toText, inp.durationSec, inp.distanceM, inp.amountCent,
    newBal⟩

/-- Charge and archive a session that was found. -/
def settleRide (P : Platform) (req : EndRideRequest) (sess : RideSession) (uid : Int32) :
    Calls (Outcome EndRideResponse) := do
  let endTs ← nowUnix
  match computeFee (duration endTs sess.startTs) with
  | .error what => return .error what
  | .ok amount =>
    let newBal ← repo (.addBalance uid .consume (-amount))
    if newBal < 0 then return .ok (.fail .processFailed "余额不足")
    else finishRide req sess (archive P req sess uid endTs amount) newBal

def endRide (P : Platform) (payload : Option EndRideRequest) : Calls (Outcome EndRideResponse) := do
  match payload with
  | none => return .ok (.fail .invalidMsg)
  | some req =>
    match ← requireUser req.sessionToken with
    | none => return .ok (.fail .unauthorized)
    | some uid =>
      if !validLat req.endLat || !validLng req.endLng then return .ok (.fail .invalidData)
      else
        match ← rideSessions (.find req.rideNo) with
        | none => replayRide req.rideNo uid
        | some sess =>
          if sess.userId ≠ uid then return .ok (.fail .unauthorized)
          else settleRide P req sess uid

/-! ## Looking at rides -/

def GetRideDetailResponse.fail (ec : ErrCode) : GetRideDetailResponse :=
  ⟨ec.code, "", 0, 0, 0, "", "", []⟩

def getRideDetail (P : Platform) (payload : Option GetRideDetailRequest) :
    Calls (Outcome GetRideDetailResponse) := do
  match payload with
  | none => return .ok (.fail .invalidMsg)
  | some req =>
    match ← requireUser req.sessionToken with
    | none => return .ok (.fail .unauthorized)
    | some uid =>
      match ← repo (.findByNo req.rideNo) with
      | none => return .ok (.fail .invalidData)
      | some ride =>
        if ride.userId ≠ uid then return .ok (.fail .unauthorized)
        else
          let points ← repo (.listPoints ride.id)
          return .ok ⟨ErrCode.ok.code, ride.rideNo, ride.durationSec, ride.distanceM,
            ride.amountCent, P.fmtIso ride.startTs, P.fmtIso ride.endTs,
            points.map fun p => ⟨p.lat, p.lng, p.elapsedSec⟩⟩

def listRides (P : Platform) (payload : Option ListRidesRequest) : Calls (Outcome ListRidesResponse) := do
  match payload with
  | none => return .ok ⟨ErrCode.invalidMsg.code, []⟩
  | some req =>
    match ← requireUser req.sessionToken with
    | none => return .ok ⟨ErrCode.unauthorized.code, []⟩
    | some uid =>
      let rides ← repo (.listByUser uid (clampLimit req.limit))
      return .ok ⟨ErrCode.ok.code, rides.map fun r =>
        ⟨r.rideNo, P.fmtIso r.startTs, r.durationSec, r.distanceM, r.amountCent⟩⟩

/-! ## The router -/

/-- A request as `register_handlers` routes it. -/
inductive Request where
  | mobileCode (payload : Option MobileRequest)
  | login (payload : Option LoginRequest)
  | recharge (payload : Option RechargeRequest)
  | accountBalance (payload : Option AccountBalanceRequest)
  | listRecords (payload : Option ListAccountRecordsRequest)
  | listNearbyBikes (draws : SpawnDraws) (payload : Option ListNearbyBikesRequest)
  | scanUnlock (payload : Option ScanUnlockRequest)
  | positionReport (payload : Option RidePositionReport)
  | endRide (payload : Option EndRideRequest)
  | reportDamage (payload : Option ReportDamageRequest)
  | getRideDetail (payload : Option GetRideDetailRequest)
  | listRides (payload : Option ListRidesRequest)

inductive Reply where
  | mobileCode (r : MobileResponse)
  | login (r : LoginResponse)
  | recharge (r : RechargeResponse)
  | accountBalance (r : AccountBalanceResponse)
  | listRecords (r : ListAccountRecordsResponse)
  | listNearbyBikes (r : ListNearbyBikesResponse)
  | scanUnlock (r : ScanUnlockResponse)
  | endRide (r : EndRideResponse)
  | reportDamage (r : ReportDamageResponse)
  | getRideDetail (r : GetRideDetailResponse)
  | listRides (r : ListRidesResponse)
  /-- a one-way event: the empty vector -/
  | nothing
  deriving DecidableEq

/-- Put a handler's message into the common type of replies. -/
def answer {α : Type} (h : Calls (Outcome α)) (f : α → Reply) : Calls (Outcome Reply) := do
  return (← h).map f

/-- `Router::dispatch` of the registered events. -/
def dispatch (P : Platform) : Request → Calls (Outcome Reply)
  | .mobileCode payload => answer (mobileCode payload) .mobileCode
  | .login payload => answer (login payload) .login
  | .recharge payload => answer (recharge payload) .recharge
  | .accountBalance payload => answer (accountBalance payload) .accountBalance
  | .listRecords payload => answer (listRecords payload) .listRecords
  | .listNearbyBikes draws payload => answer (listNearbyBikes P draws payload) .listNearbyBikes
  | .scanUnlock payload => answer (scanUnlock payload) .scanUnlock
  | .positionReport payload => answer (positionReport payload) fun _ => .nothing
  | .endRide payload => answer (endRide P payload) .endRide
  | .reportDamage payload => answer (reportDamage payload) .reportDamage
  | .getRideDetail payload => answer (getRideDetail P payload) .getRideDetail
  | .listRides payload => answer (listRides P payload) .listRides

/-! ## Runs of a handler -/

section Run

variable {σ : Type} {exec : (c : Call) → σ → c.Res × σ}

theorem run_answer {α : Type} (h : Calls (Outcome α)) (f : α → Reply) (s : σ) :
    (answer h f).run exec s = ((h.run exec s).1.map f, (h.run exec s).2) := by
  rw [answer, Prog.run_bind]
  rfl

/-- What both calls of `require_user` leave alone, it leaves alone. -/
theorem requireUser_frame {R : σ → σ → Prop} (htrans : ∀ {a b c}, R a b → R b c → R a c)
    (hlookup : ∀ token s, R s (exec (.repo (.lookupSession token)) s).2)
    (hfind : ∀ mobile s, R s (exec (.repo (.findOrCreate mobile)) s).2) (token : String) (s : σ) :
    R s ((requireUser token).run exec s).2 := by
  simp only [requireUser, repo, Prog.ask_bind, Prog.run_call]
  split
  · exact hlookup token s
  · exact htrans (hlookup token s) (hfind _ _)

end Run

end SharedBike.Server
