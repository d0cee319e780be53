import SharedBike.Gateway.Replies
import SharedBike.Dispatch.Routing

/-!
# One gateway, in either mode

A gateway from its start, with the sink that its mode gives it: in ring mode
the two processes of `System`, in-process a call of the router on the
worker's own thread. Beside the state a journal is kept, which no branch
reads: the requests that workers handed over, the reply frames that came
about for connections, the frames put on send queues, the bytes that sockets
took, and the connections that were with a worker when the gateway was told
to stop.
-/

namespace SharedBike.Gateway.MainLoop

open SharedBike.Lib SharedBike.Wire

/-- The frames that a step of the main loop moves from the outbox to send queues. -/
def queues (opt : GatewayOptions) (g : MainLoop) (ev : Event) : List (Nat × Bytes) :=
  match ev.action with
  | .cqe o _ =>
    if (g.engine.ops o).any (·.kind = .wakeup) then
      Engine.queuedItems opt
        (Engine.submitEventfdRead
          { g.engine with
            toTable := g.engine.toTable.dropOp o, answers := ev.answers, now := ev.now }) g.outbox
    else []
  | _ => []

/-- The bytes that a socket has taken when its `send` completes. -/
def sends (g : MainLoop) (ev : Event) : List (Nat × Bytes) :=
  match ev.action with
  | .cqe o q =>
    match g.engine.ops o with
    | some ⟨.send, some id⟩ =>
      (g.engine.out id).toList.map fun x => (id, x.sendQ.flatten.take q.res.toNat)
    | _ => []
  | _ => []

/-- The connections that are with a worker when a request to stop takes effect. -/
def stops (g : MainLoop) (ev : Event) : List Nat :=
  match ev.action with
  | .checkStop =>
    if g.stage = .running && g.engine.stopping && !g.engine.draining then
      g.engine.ids.filter fun id => (g.engine.conns id).any (·.state = .parsing)
    else []
  | _ => []

end SharedBike.Gateway.MainLoop

namespace SharedBike.Dispatch

open SharedBike.Lib SharedBike.Wire SharedBike.Ipc SharedBike.Gateway

/-- What has happened so far; frames carry the connection that they are for. -/
structure Journal where
  handed : List Request := []
  produced : List (Nat × Bytes) := []
  queued : List (Nat × Bytes) := []
  sent : List (Nat × Bytes) := []
  watched : List Nat := []

def Journal.append (a b : Journal) : Journal where
  handed := a.handed ++ b.handed
  produced := a.produced ++ b.produced
  queued := a.queued ++ b.queued
  sent := a.sent ++ b.sent
  watched := a.watched ++ b.watched

structure Service where
  system : System
  journal : Journal

namespace Service

/-- `InProcessRouterSink::handle`; `none` is a handler that threw. -/
def inProcessSink : Option Bytes → SinkResult
  | none => .threw
  | some frame => .reply frame

inductive Step where
  | system (step : System.Step)
  | call (i : Nat) (frame : Option Bytes)

/-- The step itself: a worker calls the sink of the gateway's mode, and there is
one gateway only. -/
def moves (opt : GatewayOptions) (s : System) : Step → Option System
  | .call i frame =>
    if opt.ipc then none
    else (s.gateway.work i (inProcessSink frame)).map fun g => { s with gateway := g }
  | .system (.work i ring) => if opt.ipc then s.work i ring else none
  | .system (.restart _) => none
  | .system step => s.next opt step

/-- The request that a worker hands over next. -/
def nextRequest (i : Nat) (s : System) : List Request :=
  match s.gateway.engine.batches[i]? with
  | none => []
  | some b => (b.frames.head?.map (request b.connId)).toList

/-- The reply of a call. -/
def answers (i : Nat) (frame : Option Bytes) (s : System) : List (Nat × Bytes) :=
  match s.gateway.engine.batches[i]? with
  | none => []
  | some b => replies (b.step (inProcessSink frame)).1

/-- The reply that a flush publishes. -/
def published (s : System) : List (Nat × Bytes) :=
  match s.flushing with
  | [] => []
  | r :: _ => if r.frame.length > RspRing.kPayloadMax then [] else [(r.connId, r.frame)]

/-- The frame that a delivery puts on a send queue. -/
def delivers (opt : GatewayOptions) (s : System) : List (Nat × Bytes) :=
  match s.responses.peek with
  | none => []
  | some slot =>
    if System.pushes opt s.gateway.engine slot.rsp then [(slot.rsp.connId, slot.rsp.payload)] else []

/-- What a step adds to the journal. -/
def records (opt : GatewayOptions) (s : System) : Step → Journal
  | .call i frame => { handed := nextRequest i s, produced := answers i frame s }
  | .system (.work i _) => { handed := nextRequest i s }
  | .system (.gateway ev) =>
    { queued := s.gateway.queues opt ev, sent := s.gateway.sends ev, watched := s.gateway.stops ev }
  | .system (.deliver _) => { queued := delivers opt s }
  | .system .flush => { produced := published s }
  | .system _ => {}

def next (opt : GatewayOptions) (s : Service) (step : Step) : Option Service :=
  (moves opt s.system step).map fun t => ⟨t, s.journal.append (records opt s.system step)⟩

def start (opt : GatewayOptions) (rings : Nat) (answers : List Bool) : Service :=
  ⟨.start opt rings answers, {}⟩

/-- The runs of one gateway. -/
def machine (opt : GatewayOptions) (rings : Nat) : Machine Service Step where
  init s := ∃ answers, s = start opt rings answers
  next := next opt

theorem published_of_long {s : System} {x : ReplyItem} {rest : List ReplyItem}
    (h : s.flushing = x :: rest) (hlong : RspRing.kPayloadMax < x.frame.length) :
    published s = [] := by
  rw [published, h]
  exact if_pos hlong

theorem published_of_fits {s : System} {x : ReplyItem} {rest : List ReplyItem}
    (h : s.flushing = x :: rest) (hfits : x.frame.length ≤ RspRing.kPayloadMax) :
    published s = [(x.connId, x.frame)] := by
  rw [published, h]
  exact if_neg (Nat.not_lt.mpr hfits)

theorem moves_call {opt : GatewayOptions} {s t : System} {i : Nat} {frame : Option Bytes}
    (h : moves opt s (.call i frame) = some t) :
    ∃ g, s.gateway.work i (inProcessSink frame) = some g ∧ t = { s with gateway := g } := by
  simp only [moves] at h
  split at h
  · cases h
  · obtain ⟨g, hg, rfl⟩ := Option.map_eq_some_iff.mp h
    exact ⟨g, hg, rfl⟩

theorem moves_work {opt : GatewayOptions} {s t : System} {i ring : Nat}
    (h : moves opt s (.system (.work i ring)) = some t) : s.work i ring = some t := by
  simp only [moves] at h
  split at h
  · exact h
  · cases h

end Service

end SharedBike.Dispatch
