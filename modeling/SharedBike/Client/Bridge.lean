import SharedBike.Wire.Protocol
import SharedBike.Server.Data
import SharedBike.Lib.Machine
import Mathlib.Logic.Function.Basic

/-!
# The client's two threads

`net/api_bridge.cpp` and `net/tcp_worker.cpp`. The bridge lives in the GUI
thread: an entry point takes a sequence number, notes the request in
`in_flight_` and signals `requestSend`. The worker lives in a thread of its
own and owns the socket. Signals between the two are queued, in order, in
each direction. `Link` puts them together with the socket and the server at
its other end, and an `Action` is one step of any of them.

A request that went through is followed by its number among the calls, which
the program does not have: `Link.owner` says which call an entry of
`in_flight_` comes from, and `Link.matched` what was answered with what.

A frame on the socket stands for its bytes (`Wire.Codec`). What the bridge
signals to the user interface is not part of the model.
-/

namespace SharedBike.Client

open SharedBike.Wire SharedBike.Lib SharedBike.Server Function

/-! ## The bridge -/

/-- The entry points, with the arguments that the bridge keeps. -/
inductive Entry where
  | sendMobileCode
  | login (mobile : String)
  | recharge
  | refreshBalance
  | listRecords
  | refreshNearbyBikes
  | scanUnlock
  | reportPosition
  | endRide
  | reportDamage
  | rideDetail
  | listRides
  deriving DecidableEq

def Entry.eid : Entry → UInt16
  | .sendMobileCode => 0x01
  | .login _ => 0x03
  | .recharge => 0x05
  | .refreshBalance => 0x07
  | .listRecords => 0x09
  | .refreshNearbyBikes => 0x11
  | .scanUnlock => 0x13
  | .reportPosition => ridePositionReport
  | .endRide => 0x17
  | .reportDamage => 0x19
  | .rideDetail => 0x1B
  | .listRides => 0x1D

def isKnownResponse (rsp : UInt16) : Bool :=
  rsp ∈ [0x02, 0x04, 0x06, 0x08, 0x10, 0x12, 0x14, 0x18, 0x1A, 0x1C, 0x1E]

/-- The records' reply is the exception. -/
def rspToReq (rsp : UInt16) : UInt16 := if rsp = 0x10 then 0x09 else rsp - 1

/-- What `ParseFromArray` makes of the replies that the bridge keeps something of. -/
structure Parsers where
  login : Bytes → Option LoginResponse
  scanUnlock : Bytes → Option ScanUnlockResponse
  endRide : Bytes → Option EndRideResponse

structure Bridge where
  seqCounter : UInt32
  inFlight : UInt16 → Option UInt32
  linkUp : Bool
  token : String
  mobile : String
  pendingMobile : String
  activeRide : String
  /-- `active_ride` of the settings, which outlive the process -/
  stored : String

namespace Bridge

/-- The counter skips 0 when it wraps. -/
def nextSeq (b : Bridge) : UInt32 × Bridge :=
  let s := if b.seqCounter + 1 = 0 then b.seqCounter + 1 + 1 else b.seqCounter + 1
  (s, { b with seqCounter := s })

def sendRequest (b : Bridge) (eid : UInt16) (payload : Bytes) : Frame × Bridge :=
  let (seq, b) := b.nextSeq
  (⟨eid, seq, payload⟩, { b with inFlight := update b.inFlight eid (some seq) })

/-- `beginRequest` and `sendRequest`: one request of an event at a time. -/
def request (b : Bridge) (eid : UInt16) (payload : Bytes) : Option Frame × Bridge :=
  if (b.inFlight eid).isSome then (none, b)
  else
    let (f, b) := b.sendRequest eid payload
    (some f, b)

/-- An entry point, with its serialised message: the frame of the `requestSend`,
if it comes to one. A position report takes a number and no slot. -/
def call (b : Bridge) (e : Entry) (payload : Bytes) : Option Frame × Bridge :=
  match e with
  | .reportPosition =>
    let (seq, b) := b.nextSeq
    (some ⟨ridePositionReport, seq, payload⟩, b)
  | .login mobile =>
    if (b.inFlight e.eid).isSome then (none, b)
    else { b with pendingMobile := mobile }.request e.eid payload
  | .endRide => if b.activeRide = "" then (none, b) else b.request e.eid payload
  | _ => b.request e.eid payload

def clearActiveRide (b : Bridge) : Bridge := { b with activeRide := "", stored := "" }

def failInFlight (b : Bridge) : Bridge := { b with inFlight := fun _ => none }

def onWorkerConnected (b : Bridge) : Bridge :=
  { { b with seqCounter := 0 }.failInFlight with linkUp := true }

def onWorkerDisconnected (b : Bridge) : Bridge := { b.failInFlight with linkUp := false }

/-- What the bridge keeps of a reply. -/
def handleFrame (parse : Parsers) (b : Bridge) (rsp : UInt16) (payload : Bytes) : Bridge :=
  if rsp = 0x04 then
    match parse.login payload with
    | some r =>
      if r.code = 200 ∧ r.sessionToken ≠ "" then
        { b with token := r.sessionToken, mobile := b.pendingMobile, activeRide := b.stored }
      else b
    | none => b
  else if rsp = 0x14 then
    match parse.scanUnlock payload with
    | some r => if r.code = 200 then { b with activeRide := r.rideNo, stored := r.rideNo } else b
    | none => b
  else if rsp = 0x18 then
    match parse.endRide payload with
    | some r => if r.code = 200 then { b with activeRide := "", stored := "" } else b
    | none => b
  else b

/-- The event of the entry that the frame clears, if it is accepted. -/
def onFrameReady (parse : Parsers) (b : Bridge) (f : Frame) : Option UInt16 × Bridge :=
  if !isKnownResponse f.eventId then (none, b)
  else
    let req := rspToReq f.eventId
    match b.inFlight req with
    | none => (none, b)
    | some seq =>
      if seq ≠ f.seq then (none, b)
      else (some req,
        { b with inFlight := update b.inFlight req none }.handleFrame parse f.eventId
          f.payload)

@[simp] theorem nextSeq_inFlight (b : Bridge) : b.nextSeq.2.inFlight = b.inFlight := rfl

@[simp] theorem handleFrame_inFlight (parse : Parsers) (b : Bridge) (rsp : UInt16)
    (payload : Bytes) : (b.handleFrame parse rsp payload).inFlight = b.inFlight := by
  unfold handleFrame
  split
  · split <;> [(split <;> rfl); rfl]
  · split
    · split <;> [(split <;> rfl); rfl]
    · split
      · split <;> [(split <;> rfl); rfl]
      · rfl

end Bridge

/-! ## The worker -/

def kMaxPendingFrames : Nat := 128

/-- A frame, and the call of an entry point that it comes from. -/
structure Sent where
  call : Nat
  frame : Frame
  deriving DecidableEq

structure TcpWorker where
  /-- there is a socket, in the connected state -/
  connected : Bool
  pending : List Sent

namespace TcpWorker

/-- What `sendFrame` writes to the socket. Without a connection only position
reports are kept. -/
def sendFrame (w : TcpWorker) (x : Sent) : List Sent × TcpWorker :=
  match encode x.frame with
  | .error _ => ([], w)
  | .ok _ =>
    if w.connected then ([x], w)
    else if x.frame.eventId ≠ ridePositionReport then ([], w)
    else
      let pending := if w.pending.length ≥ kMaxPendingFrames then w.pending.tail else w.pending
      ([], { w with pending := pending ++ [x] })

/-- `onConnected`: what was kept is written. -/
def onConnected (w : TcpWorker) : List Sent × TcpWorker :=
  (w.pending, { w with connected := true, pending := [] })

end TcpWorker

/-! ## The server -/

/-- The events that have a reply, and the event of the reply. -/
def responses : List (UInt16 × UInt16) :=
  [(0x01, 0x02), (0x03, 0x04), (0x05, 0x06), (0x07, 0x08), (0x09, 0x10), (0x11, 0x12),
    (0x13, 0x14), (0x17, 0x18), (0x19, 0x1A), (0x1B, 0x1C), (0x1D, 0x1E)]

/-- The reply to a request carries its sequence number. -/
def answerTo (x : Sent) (payload : Bytes) : Option Sent :=
  (responses.lookup x.frame.eventId).map fun rsp => ⟨x.call, ⟨rsp, x.frame.seq, payload⟩⟩

/-! ## The link -/

/-- What the worker signals to the bridge. -/
inductive Signal where
  | frameReady (x : Sent)
  | connected
  | disconnected
  deriving DecidableEq

structure Link where
  bridge : Bridge
  /-- `requestSend` signals on their way -/
  sends : List Sent
  worker : TcpWorker
  /-- what was written on this connection and is not answered -/
  asked : List Sent
  /-- replies on this connection that were not read -/
  inbound : List Sent
  /-- signals on their way to the bridge -/
  signals : List Signal
  /-- how many calls have sent something -/
  calls : Nat
  /-- the calls that the entries of `in_flight_` come from -/
  owner : UInt16 → Option Nat
  /-- for each frame that was accepted, the call it answers and the call of the entry it cleared -/
  matched : List (Nat × Option Nat)

inductive Action where
  | call (e : Entry) (payload : Bytes)
  | clearActiveRide
  /-- the GUI thread takes its next signal -/
  | handle
  /-- the worker takes its next `requestSend` -/
  | send
  | connect
  /-- the connection ends; `disconnected` is signalled so many times more than once -/
  | disconnect (more : Nat)
  /-- the server answers one of the requests it has -/
  | answer (i : Nat) (payload : Bytes)
  /-- the worker reads a reply -/
  | read

namespace Link

def call (s : Link) (e : Entry) (payload : Bytes) : Link :=
  match s.bridge.call e payload with
  | (none, b) => { s with bridge := b }
  | (some f, b) =>
    { s with
      bridge := b
      sends := s.sends ++ [⟨s.calls, f⟩]
      calls := s.calls + 1
      owner :=
        if e = .reportPosition then s.owner else update s.owner e.eid (some s.calls) }

def onFrameReady (parse : Parsers) (s : Link) (x : Sent) : Link :=
  match s.bridge.onFrameReady parse x.frame with
  | (none, b) => { s with bridge := b }
  | (some req, b) =>
    { s with
      bridge := b
      owner := update s.owner req none
      matched := s.matched ++ [(x.call, s.owner req)] }

def handle (parse : Parsers) (s : Link) : Option Link :=
  match s.signals with
  | [] => none
  | .frameReady x :: rest => some ({ s with signals := rest }.onFrameReady parse x)
  | .connected :: rest =>
    some { s with signals := rest, bridge := s.bridge.onWorkerConnected, owner := fun _ => none }
  | .disconnected :: rest =>
    some { s with signals := rest, bridge := s.bridge.onWorkerDisconnected, owner := fun _ => none }

def send (s : Link) : Option Link :=
  match s.sends with
  | [] => none
  | x :: rest =>
    let (written, worker) := s.worker.sendFrame x
    some { s with sends := rest, worker, asked := s.asked ++ written }

def connect (s : Link) : Option Link :=
  if s.worker.connected then none
  else
    let (written, worker) := s.worker.onConnected
    some { s with worker, asked := written, inbound := [], signals := s.signals ++ [.connected] }

def disconnect (s : Link) (more : Nat) : Option Link :=
  if s.worker.connected then
    some { s with
      worker := { s.worker with connected := false }
      asked := []
      inbound := []
      signals := s.signals ++ List.replicate (more + 1) .disconnected }
  else none

def answer (s : Link) (i : Nat) (payload : Bytes) : Option Link :=
  match s.asked[i]? with
  | none => none
  | some x => (answerTo x payload).map fun y =>
      { s with asked := s.asked.eraseIdx i, inbound := s.inbound ++ [y] }

def read (s : Link) : Option Link :=
  match s.inbound with
  | [] => none
  | x :: rest => some { s with inbound := rest, signals := s.signals ++ [.frameReady x] }

def step (parse : Parsers) (s : Link) : Action → Option Link
  | .call e payload => some (s.call e payload)
  | .clearActiveRide => some { s with bridge := s.bridge.clearActiveRide }
  | .handle => s.handle parse
  | .send => s.send
  | .connect => s.connect
  | .disconnect more => s.disconnect more
  | .answer i payload => s.answer i payload
  | .read => s.read

/-- A client that has just started. The settings may hold a ride. -/
def start (stored : String) : Link where
  bridge := ⟨0, fun _ => none, false, "", "", "", "", stored⟩
  sends := []
  worker := ⟨false, []⟩
  asked := []
  inbound := []
  signals := []
  calls := 0
  owner _ := none
  matched := []

def machine (parse : Parsers) : Machine Link Action where
  init s := ∃ stored, s = start stored
  next := step parse

end Link

end SharedBike.Client
