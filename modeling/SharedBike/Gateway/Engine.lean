import SharedBike.Lib.Machine
import SharedBike.Gateway.Worker
import SharedBike.Ipc.SpscRing
import Mathlib.Logic.Function.Basic

/-!
# The io_uring engine

`uring_engine.cpp`: the main thread of the gateway, which owns the
connections and every operation in flight. `Engine` is what its member
functions work on, with one definition for each of them, and `MainLoop.next`
is one step of the main loop or of a worker.

A handler works on a connection that it has read from the table and puts
the outcome back, so a `Connection&` is a value that is passed along. What
the surroundings decide is part of the event: the result of a completion,
the bytes that a `recv` brought, whether `io_uring_get_sqe` finds room, the
order in which the table is walked and the clock. A completion whose
connection is gone would follow a stale pointer; `dangling` records it.

Connection ids and operations are numbered without bound: the 64-bit
counter of ids does not come round.
-/

namespace SharedBike.Gateway

open SharedBike.Lib SharedBike.Wire SharedBike.Ipc Function

/-- The options that the modelled functions read; `ipc` says whether
`attach_ipc` was called. -/
structure GatewayOptions where
  rxBufBytes : Nat
  sendBacklogLimit : Nat
  idleTimeoutMs : Int
  ipc : Bool

inductive OpKind where
  | accept
  | recv
  | send
  | wakeup
  | stop
  | rspNotify
  deriving DecidableEq

structure UringOp where
  kind : OpKind
  conn : Option Nat
  deriving DecidableEq

/-- A filled slot of the response ring. -/
structure Response where
  connId : Nat
  payload : Bytes
  deriving DecidableEq

/-! ## The books -/

/-- Who is connected, what is in flight, and the log of descriptors accepted
and closed. -/
structure Table where
  conns : Nat → Option Connection
  nextConnId : Nat
  ops : Nat → Option UringOp
  nextOp : Nat
  batches : List Batch
  opened : List Int
  closed : List Int
  dangling : Bool

namespace Table

/-- The books of a gateway that has just started. -/
def empty : Table where
  conns _ := none
  nextConnId := 1
  ops _ := none
  nextOp := 0
  batches := []
  opened := []
  closed := []
  dangling := false

def setConn (T : Table) (c : Connection) : Table :=
  { T with conns := update T.conns c.connId (some c) }

/-- A new operation. -/
def addOp (T : Table) (op : UringOp) : Table :=
  { T with ops := update T.ops T.nextOp (some op), nextOp := T.nextOp + 1 }

/-- `delete &op` -/
def dropOp (T : Table) (o : Nat) : Table := { T with ops := update T.ops o none }

/-- `::close` -/
def closeFd (T : Table) (fd : Int) : Table := { T with closed := T.closed ++ [fd] }

/-- `conns_.erase`: the destructor closes a descriptor that is still there. -/
def erase (T : Table) (c : Connection) : Table :=
  let T := { T with conns := update T.conns c.connId none }
  if 0 ≤ c.fd then T.closeFd c.fd else T

/-- The ids in `conns_`. -/
def ids (T : Table) : List Nat :=
  (List.range T.nextConnId).filter fun id => (T.conns id).isSome

end Table

/-- What the handlers work on: the books, the control flags, and what the
surroundings answer in this step (`answers`: whether `io_uring_get_sqe` finds
room, call by call and always once they are used up; `now`: the clock in ns). -/
structure Engine extends Table where
  accepting : Bool
  draining : Bool
  stopping : Bool
  drainDeadline : Int
  sqFailLogged : Bool
  acceptFailStreak : Nat
  rspNotifyFailStreak : Nat
  answers : List Bool
  now : Int

namespace Engine

def kDrainDeadline : Int := 5 * 1000000000

def kExhaustDrainLimit : Int := 10 * 1000000000

/-- `EINTR` and `ECANCELED` -/
def eIntr : Int := 4

def eCanceled : Int := 125

def setConn (e : Engine) (c : Connection) : Engine := { e with toTable := e.toTable.setConn c }

/-! ## Submitting -/

/-- Without room the engine starts to drain. -/
def getSqe (e : Engine) : Bool × Engine :=
  match e.answers with
  | [] => (true, e)
  | true :: rest => (true, { e with answers := rest })
  | false :: rest =>
    (false, { e with
      answers := rest
      sqFailLogged := true
      drainDeadline := if e.sqFailLogged then e.drainDeadline else e.now + kExhaustDrainLimit
      draining := true })

/-- Take an entry and put a new operation in it. -/
def submitOp (op : UringOp) (e : Engine) : Option Nat × Engine :=
  match e.getSqe with
  | (false, e) => (none, e)
  | (true, e) => (some e.nextOp, { e with toTable := e.toTable.addOp op })

def submitAccept (e : Engine) : Engine := (e.submitOp ⟨.accept, none⟩).2

def submitEventfdRead (e : Engine) : Engine := (e.submitOp ⟨.wakeup, none⟩).2

def submitStopRead (e : Engine) : Engine := (e.submitOp ⟨.stop, none⟩).2

def submitRspNotifyRead (e : Engine) : Engine := (e.submitOp ⟨.rspNotify, none⟩).2

/-- The entry of a cancellation carries no operation. -/
def submitCancel (e : Engine) : Engine := e.getSqe.2

def submitRecv (opt : GatewayOptions) (c : Connection) (e : Engine) : Bool × Engine :=
  let c := { c with rx := c.rx.prepare opt.rxBufBytes }
  match e.submitOp ⟨.recv, some c.connId⟩ with
  | (none, e) => (false, e.setConn c)
  | (some op, e) => (true, e.setConn { c with recvOp := some op, pendingOps := c.pendingOps + 1 })

def submitSend (c : Connection) (e : Engine) : Bool × Engine :=
  match e.submitOp ⟨.send, some c.connId⟩ with
  | (none, e) => (false, e.setConn c)
  | (some op, e) =>
    (true, e.setConn
      { c with sendOp := some op, pendingOps := c.pendingOps + 1, sendActive := true })

/-! ## Connections -/

def makeConn (opt : GatewayOptions) (fd : Int) (e : Engine) : Connection × Engine :=
  let c := Connection.new fd e.nextConnId opt.rxBufBytes e.now
  (c, { e.setConn c with nextConnId := e.nextConnId + 1 })

def maybeFinalize (c : Connection) (e : Engine) : Engine :=
  if c.state ≠ .closing ∨ c.pendingOps > 0 then e.setConn c
  else
    let (fd, c) := c.releaseFd
    { e with toTable := (e.toTable.closeFd fd).erase c }

/-- Both operations in flight are cancelled; their completions still come. -/
def closeConn (c : Connection) (e : Engine) : Engine :=
  if c.state = .closing then e.setConn c
  else
    let e := if c.recvOp.isSome then e.submitCancel else e
    let e := if c.sendOp.isSome then e.submitCancel else e
    maybeFinalize { c with state := .closing } e

/-- `close_conn` on a table entry, if there is one. -/
def closeId (id : Nat) (e : Engine) : Engine :=
  match e.conns id with
  | some c => closeConn c e
  | none => e

def pushResponse (opt : GatewayOptions) (frame : Bytes) (c : Connection) (e : Engine) : Engine :=
  if c.sendBytes + frame.length > opt.sendBacklogLimit then closeConn c e
  else
    let c := c.sendPush frame
    if c.sendActive then e.setConn c else (submitSend c e).2

/-! ## The outbox and the response ring -/

/-- Post the next `recv`; a connection for which that fails is closed. -/
def rearm (opt : GatewayOptions) (c : Connection) (e : Engine) : Engine :=
  match submitRecv opt c e with
  | (true, e) => e
  | (false, e) => closeId c.connId e

def drainItem (opt : GatewayOptions) (e : Engine) (it : OutboxItem) : Engine :=
  match e.conns it.connId with
  | none => e
  | some c =>
    if c.state = .closing then e
    else
      match it.kind with
      | .respond => pushResponse opt it.bytes c e
      | .rearmRecv =>
        if e.draining then closeConn c e
        else if c.state ≠ .parsing then e
        else rearm opt { c with rx := c.rx.feed it.bytes, state := .active } e
      | .close => closeConn c e

/-- `items` is what the outbox held. -/
def drainOutbox (opt : GatewayOptions) (items : List OutboxItem) (e : Engine) : Engine :=
  items.foldl (drainItem opt) e

/-- One slot of the response ring. -/
def deliver (opt : GatewayOptions) (e : Engine) (r : Response) : Engine :=
  if r.payload.length = 0 then e
  else if r.payload.length > RspRing.kPayloadMax then e
  else
    match e.conns r.connId with
    | none => e
    | some c => if c.state = .closing then e else pushResponse opt r.payload c e

/-- `peerDead` is the outcome of the check of the other process, when it is due. -/
def drainResponseRing (opt : GatewayOptions) (peerDead : Bool) (rs : List Response) (e : Engine) :
    Engine :=
  if opt.ipc then
    rs.foldl (deliver opt) { e with stopping := e.stopping || peerDead }
  else e

/-! ## Completions

`on_cqe` deletes the operation first; each handler gets the engine without it. -/

def completeAccept (opt : GatewayOptions) (res : Int) (e : Engine) : Engine :=
  if !e.accepting then
    if 0 ≤ res then
      { e with toTable := { e.toTable with opened := e.opened ++ [res] }.closeFd res }
    else e
  else if res < 0 then
    if res ≠ -eIntr then
      if e.acceptFailStreak + 1 ≥ 8 then { e with acceptFailStreak := 0 }
      else submitAccept { e with acceptFailStreak := e.acceptFailStreak + 1 }
    else submitAccept e
  else
    let (c, e) := makeConn opt res { e with acceptFailStreak := 0, opened := e.opened ++ [res] }
    match submitRecv opt c e with
    | (true, e) => submitAccept e
    | (false, e) => submitAccept { e with toTable := e.toTable.erase c }

/-- `data` is what the kernel has written. -/
def completeRecv (opt : GatewayOptions) (res : Int) (data : Bytes) (c : Connection) (e : Engine) :
    Engine :=
  let c := { c with rx := c.rx.receive data, recvOp := none, pendingOps := c.pendingOps - 1 }
  if c.state = .closing then maybeFinalize c e
  else if res < 0 then closeConn c e
  else if res = 0 then closeConn c e
  else
    let c := { c with rx := c.rx.commit res.toNat, lastActive := e.now }
    if c.rx.rxLen > kHeaderLen + kMaxMessageLen + opt.rxBufBytes then closeConn c e
    else
      let (raw, rx) := c.rx.take opt.rxBufBytes
      let e := e.setConn { c with rx, state := .parsing }
      { e with batches := e.batches ++ [Batch.start c.connId raw] }

def completeSend (res : Int) (c : Connection) (e : Engine) : Engine :=
  let c := { c with sendOp := none, pendingOps := c.pendingOps - 1, sendActive := false }
  if c.state = .closing then maybeFinalize c e
  else if res < 0 then closeConn c e
  else
    let c := { c.sendPop res.toNat with lastActive := e.now }
    if c.sendPending then (submitSend c e).2 else e.setConn c

def completeWakeup (opt : GatewayOptions) (items : List OutboxItem) (e : Engine) : Engine :=
  drainOutbox opt items (submitEventfdRead e)

def completeStop (e : Engine) : Engine := { e with stopping := true }

def completeRspNotify (opt : GatewayOptions) (res : Int) (peerDead : Bool) (rs : List Response)
    (e : Engine) : Engine :=
  if res = -eCanceled then e
  else if res < 0 then
    if e.rspNotifyFailStreak + 1 ≥ 8 then { e with rspNotifyFailStreak := 0 }
    else submitRspNotifyRead { e with rspNotifyFailStreak := e.rspNotifyFailStreak + 1 }
  else drainResponseRing opt peerDead rs (submitRspNotifyRead { e with rspNotifyFailStreak := 0 })

/-- Follow an operation's pointer to its connection. -/
def atConn (op : UringOp) (f : Connection → Engine → Engine) (e : Engine) : Engine :=
  match op.conn.bind e.conns with
  | some c => f c e
  | none => { e with dangling := true }

/-- What a completion brings besides its operation. -/
structure Completion where
  res : Int
  data : Bytes
  peerDead : Bool
  responses : List Response

def onCqe (opt : GatewayOptions) (o : Nat) (op : UringOp) (q : Completion)
    (items : List OutboxItem) (e : Engine) : Engine :=
  let e := { e with toTable := e.toTable.dropOp o }
  match op.kind with
  | .accept => completeAccept opt q.res e
  | .recv => atConn op (completeRecv opt q.res q.data) e
  | .send => atConn op (completeSend q.res) e
  | .wakeup => completeWakeup opt items e
  | .stop => completeStop e
  | .rspNotify => completeRspNotify opt q.res q.peerDead q.responses e

/-! ## The main loop -/

/-- The engine as it is constructed. -/
def new (answers : List Bool) : Engine :=
  { Table.empty with
    accepting := true
    draining := false
    stopping := false
    drainDeadline := 0
    sqFailLogged := false
    acceptFailStreak := 0
    rspNotifyFailStreak := 0
    answers := answers
    now := 0 }

/-- `run` up to the loop. -/
def start (opt : GatewayOptions) (answers : List Bool) : Engine :=
  let e := submitStopRead (submitEventfdRead (submitAccept (new answers)))
  if opt.ipc then submitRspNotifyRead e else e

/-- Whether a connection is a victim of `sweep_idle`. -/
def idle (opt : GatewayOptions) (e : Engine) (id : Nat) : Bool :=
  match e.conns id with
  | none => false
  | some c => c.state ≠ .closing && e.now - c.lastActive > opt.idleTimeoutMs * 1000000

/-- `order` is the order in which the table is walked. -/
def sweepIdle (opt : GatewayOptions) (order : List Nat) (e : Engine) : Engine :=
  if opt.idleTimeoutMs ≤ 0 then e
  else (order.filter (e.idle opt)).foldl (fun e id => closeId id e) e

/-- The main loop's reaction to a request to stop. -/
def checkStop (e : Engine) : Engine :=
  if e.stopping && !e.draining then
    { e with
      draining := true
      accepting := false
      drainDeadline := if e.drainDeadline = 0 then e.now + kDrainDeadline else e.drainDeadline }
  else e

def drainComplete (e : Engine) : Bool := e.ids.isEmpty || e.now > e.drainDeadline

/-- One round of closing after the loop: at most 64 connections. -/
def reap (order : List Nat) (e : Engine) : Engine :=
  (order.take 64).foldl (fun e id => closeId id e) e

/-- The hard limit: every descriptor that is still there is taken and closed,
then the table is cleared. -/
def forceClose (order : List Nat) (e : Engine) : Engine :=
  let fds := order.filterMap fun id => (e.conns id).map (·.fd)
  { e with conns := fun _ => none, closed := e.closed ++ fds.filter (0 ≤ ·) }

/-- What the kernel promises of a result: a new descriptor is not open already,
and a `recv` has written as many bytes as it says, within what it was given. -/
def promised (e : Engine) (op : UringOp) (q : Completion) : Bool :=
  match op.kind with
  | .accept => q.res < 0 || e.opened.count q.res == e.closed.count q.res
  | .recv =>
    (q.data.length : Int) == max q.res 0 &&
      match op.conn.bind e.conns with
      | some c => q.data.length ≤ c.rx.writable
      | none => true
  | _ => true

end Engine

/-- How far `run` has got. -/
inductive Stage where
  | running
  | reaping
  | exited
  deriving DecidableEq

/-- The engine, the outbox that the workers share with it, and the stage. -/
structure MainLoop where
  engine : Engine
  outbox : List OutboxItem
  stage : Stage

namespace MainLoop

/-- What happens next: a completion is harvested, a worker goes on with a batch,
or the main loop does one of its other turns. -/
inductive Action where
  | cqe (o : Nat) (q : Engine.Completion)
  | work (i : Nat) (r : SinkResult)
  | drainResponses (peerDead : Bool) (rs : List Response)
  | sweep (order : List Nat)
  | requestStop
  | checkStop
  | leave (failed : Bool)
  | reap (order : List Nat)
  | exit
  | forceClose (order : List Nat)

/-- An action with the answers of `io_uring_get_sqe` and the clock. -/
structure Event where
  action : Action
  answers : List Bool
  now : Int

/-- A completion. Reading the eventfd is what empties the outbox. -/
def cqe (opt : GatewayOptions) (o : Nat) (q : Engine.Completion) (g : MainLoop) : Option MainLoop :=
  match g.engine.ops o with
  | none => none
  | some op =>
    if g.stage ≠ .exited ∧ g.engine.promised op q then
      some { g with
        engine := g.engine.onCqe opt o op q g.outbox
        outbox := if op.kind = .wakeup then [] else g.outbox }
    else none

/-- A worker goes on: a batch that has ended leaves the pool. -/
def work (i : Nat) (r : SinkResult) (g : MainLoop) : Option MainLoop :=
  match g.engine.batches[i]? with
  | none => none
  | some b =>
    let (items, next) := b.step r
    some { g with
      engine := { g.engine with
        batches := g.engine.batches.take i ++ next.toList ++ g.engine.batches.drop (i + 1) }
      outbox := g.outbox ++ items }

/-- A turn of the main loop, if the loop is at the stage for it. -/
def turn (g : MainLoop) (ok : Bool) (e : Engine) (stage : Stage) : Option MainLoop :=
  if ok then some { g with engine := e, stage := stage } else none

/-- An action, if it can happen now. -/
def step (opt : GatewayOptions) (g : MainLoop) : Action → Option MainLoop
  | .cqe o q => g.cqe opt o q
  | .work i r => g.work i r
  | .drainResponses peerDead rs =>
    g.turn (g.stage = .running) (g.engine.drainResponseRing opt peerDead rs) .running
  | .sweep order =>
    g.turn (g.stage = .running && !g.engine.draining && order.isPerm g.engine.ids)
      (g.engine.sweepIdle opt order) .running
  | .requestStop => some { g with engine := { g.engine with stopping := true } }
  | .checkStop => g.turn (g.stage = .running) g.engine.checkStop .running
  | .leave failed =>
    g.turn (g.stage = .running && (failed || g.engine.draining && g.engine.drainComplete))
      g.engine .reaping
  | .reap order =>
    g.turn (g.stage = .reaping && order.isPerm g.engine.ids) (g.engine.reap order) .reaping
  | .exit => g.turn (g.stage = .reaping && g.engine.ids.isEmpty) g.engine .exited
  | .forceClose order =>
    g.turn (g.stage = .reaping && order.isPerm g.engine.ids) (g.engine.forceClose order) .exited

/-- One step: the action, with what the surroundings answer in it. -/
def next (opt : GatewayOptions) (g : MainLoop) (ev : Event) : Option MainLoop :=
  step opt { g with engine := { g.engine with answers := ev.answers, now := ev.now } } ev.action

def start (opt : GatewayOptions) (answers : List Bool) : MainLoop :=
  ⟨Engine.start opt answers, [], .running⟩

/-- The runs of a gateway. -/
def machine (opt : GatewayOptions) : Machine MainLoop Event where
  init g := ∃ answers, g = start opt answers
  next := next opt

end MainLoop

end SharedBike.Gateway
