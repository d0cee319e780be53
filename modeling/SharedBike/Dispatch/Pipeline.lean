import SharedBike.Gateway.Lifecycle

/-!
# Gateway and Dispatch together

The way of a request through two processes. A gateway worker hands it to
the `RingSink`, which puts it into the worker's request ring; the reader of
Dispatch posts it to the business threads; a business thread asks the router
and queues the reply; the reader flushes the queue to the response ring; the
main loop of the gateway delivers what it finds there. Each of these is a
step of its own, in any order with all others.

The gateway may end at any moment and a new one attach the same rings. It
begins with no connections and numbers them from 1 again, and it sees every
response that the old one had not released. Dispatch goes on meanwhile.

Each request carries, for the record, the gateway process and the connection
it was received on (`Origin`); no branch reads it. Within one gateway process
an id is given to one connection only, so an `Origin` is one connection.
-/

namespace SharedBike.Dispatch

open SharedBike.Lib SharedBike.Wire SharedBike.Ipc SharedBike.Gateway

/-! ## Rings -/

/-- A ring by its law, a queue without loss: the entries that are published and
not yet released, the first `taken` of which have been read. -/
structure Channel (α : Type) where
  items : List α
  taken : Nat

namespace Channel

variable {α : Type}

def empty : Channel α := ⟨[], 0⟩

/-- Reserve, fill and publish; `none` when every slot is in use. -/
def push (slots : Nat) (x : α) (ch : Channel α) : Option (Channel α) :=
  if ch.items.length = slots then none else some { ch with items := ch.items ++ [x] }

/-- The next entry of a batch. -/
def peek (ch : Channel α) : Option α := ch.items[ch.taken]?

def advance (ch : Channel α) : Channel α := { ch with taken := ch.taken + 1 }

/-- Give the slots of what was read back. -/
def release (ch : Channel α) : Channel α := ⟨ch.items.drop ch.taken, 0⟩

/-- A new consumer starts at the shared tail. -/
def reattach (ch : Channel α) : Channel α := { ch with taken := 0 }

theorem push_eq {slots : Nat} {x : α} {ch ch' : Channel α} (h : ch.push slots x = some ch') :
    ch' = { ch with items := ch.items ++ [x] } := by
  unfold push at h
  split at h
  · cases h
  · cases h
    rfl

end Channel

/-! ## What travels -/

/-- A connection of a gateway process. -/
structure Origin where
  life : Nat
  connId : Nat
  deriving DecidableEq

/-- A request ring's slot, and a task of the business threads. -/
structure ReqSlot where
  req : Request
  oneWay : Bool
  origin : Origin
  deriving DecidableEq

structure ReplyItem where
  connId : Nat
  seq : UInt32
  oneWay : Bool
  frame : Bytes
  origin : Origin
  deriving DecidableEq

/-- What a business thread queues for the frame that the router gave; `none` is
a handler that threw. -/
def ReqSlot.reply (t : ReqSlot) : Option Bytes → List ReplyItem
  | none => []
  | some frame =>
    if t.oneWay || frame.isEmpty then []
    else
      match stampSeq frame t.req.seq with
      | some stamped => [⟨t.req.connId, t.req.seq, t.oneWay, stamped, t.origin⟩]
      | none => []

structure RspSlot where
  rsp : Response
  origin : Origin
  deriving DecidableEq

/-- A frame on a connection's send queue: where it went and where its request
came from. -/
structure Delivery where
  dest : Origin
  origin : Origin
  deriving DecidableEq

/-- Both processes. `life` counts the gateway processes. -/
structure System where
  gateway : MainLoop
  life : Nat
  requests : List (Channel ReqSlot)
  tasks : List ReqSlot
  replies : List ReplyItem
  flushing : List ReplyItem
  responses : Channel RspSlot
  delivered : List Delivery

namespace System

/-! ## The gateway's side -/

/-- `RingSink::handle`, on the thread that is bound to the ring `ring`. -/
def ringSink (ring : Nat) (origin : Origin) (req : Request) (s : System) : SinkResult × System :=
  match s.requests[ring]? with
  | none => (.threw, s)
  | some ch =>
    if req.payload.length > ReqRing.kPayloadMax then (.malformed, s)
    else
      match ch.push ReqRing.kSlotCount.toNat
        ⟨req, req.eventId = ridePositionReport, origin⟩ with
      | none => (.overload, s)
      | some ch => (.reply [], { s with requests := s.requests.set ring ch })

/-- What the sink says to the next frame of a batch, if there is one. -/
def ask (ring : Nat) (b : Batch) (s : System) : SinkResult × System :=
  match b.frames with
  | [] => (.threw, s)
  | f :: _ => s.ringSink ring ⟨s.life, b.connId⟩ (request b.connId f)

/-- A worker goes on with a batch. -/
def work (i ring : Nat) (s : System) : Option System :=
  match s.gateway.engine.batches[i]? with
  | none => none
  | some b =>
    let (r, s) := s.ask ring b
    (s.gateway.work i r).map fun g => { s with gateway := g }

/-- Whether `deliver` puts the frame on a send queue. -/
def pushes (opt : GatewayOptions) (e : Engine) (r : Response) : Bool :=
  r.payload.length ≠ 0 && r.payload.length ≤ RspRing.kPayloadMax &&
    (e.conns r.connId).any fun c =>
      c.state ≠ .closing && c.sendBytes + r.payload.length ≤ opt.sendBacklogLimit

/-- `drain_response_ring` at one slot. -/
def deliver (opt : GatewayOptions) (answers : List Bool) (s : System) : Option System :=
  match s.responses.peek with
  | none => none
  | some slot =>
    let e : Engine := { s.gateway.engine with answers := answers }
    if s.gateway.stage = .exited then none
    else some { s with
      gateway := { s.gateway with engine := e.deliver opt slot.rsp }
      responses := s.responses.advance
      delivered :=
        if pushes opt e slot.rsp then
          s.delivered ++ [⟨⟨s.life, slot.rsp.connId⟩, slot.origin⟩]
        else s.delivered }

/-- What the gateway does without the rings. -/
def alone : MainLoop.Action → Bool
  | .work _ _ => false
  | .drainResponses _ _ => false
  | .cqe _ q => q.responses.isEmpty
  | _ => true

/-! ## Dispatch's side -/

/-- The reader takes a request; a request that cannot be copied or posted is
dropped. -/
def read (ring : Nat) (posted : Bool) (s : System) : Option System :=
  match s.requests[ring]? with
  | none => none
  | some ch =>
    match ch.peek with
    | none => none
    | some slot =>
      let s := { s with requests := s.requests.set ring ch.advance }
      some (if posted && slot.req.payload.length ≤ ReqRing.kPayloadMax then
        { s with tasks := s.tasks ++ [slot] } else s)

def releaseRequests (ring : Nat) (s : System) : Option System :=
  match s.requests[ring]? with
  | none => none
  | some ch => some { s with requests := s.requests.set ring ch.release }

/-- A business thread runs a task. -/
def business (i : Nat) (frame : Option Bytes) (s : System) : Option System :=
  match s.tasks[i]? with
  | none => none
  | some t =>
    some { s with tasks := s.tasks.eraseIdx i, replies := s.replies ++ t.reply frame }

/-- `flush_replies` takes the queue. -/
def drainReplies (s : System) : Option System :=
  if s.flushing = [] then some { s with flushing := s.replies, replies := [] } else none

/-- `flush_replies` at one reply; with a full ring it waits. What a frame that
is too large does to the ring itself is in `Dispatch.Flush`. -/
def flush (s : System) : Option System :=
  match s.flushing with
  | [] => none
  | r :: rest =>
    if r.frame.length > RspRing.kPayloadMax then some { s with flushing := rest }
    else
      (s.responses.push RspRing.kSlotCount.toNat ⟨⟨r.connId, r.frame⟩, r.origin⟩).map fun ch =>
        { s with responses := ch, flushing := rest }

/-! ## Both together -/

inductive Step where
  | gateway (ev : MainLoop.Event)
  | work (i ring : Nat)
  | deliver (answers : List Bool)
  | releaseResponses
  | restart (answers : List Bool)
  | read (ring : Nat) (posted : Bool)
  | releaseRequests (ring : Nat)
  | business (i : Nat) (frame : Option Bytes)
  | drainReplies
  | flush
  | dropReplies

def next (opt : GatewayOptions) (s : System) : Step → Option System
  | .gateway ev =>
    if alone ev.action then (s.gateway.next opt ev).map fun g => { s with gateway := g } else none
  | .work i ring => s.work i ring
  | .deliver answers => s.deliver opt answers
  | .releaseResponses => some { s with responses := s.responses.release }
  | .restart answers =>
    some { s with
      gateway := MainLoop.start opt answers
      life := s.life + 1
      responses := s.responses.reattach }
  | .read ring posted => s.read ring posted
  | .releaseRequests ring => s.releaseRequests ring
  | .business i frame => s.business i frame
  | .drainReplies => s.drainReplies
  | .flush => s.flush
  | .dropReplies => some { s with flushing := [] }

/-- The first gateway on rings that are new. -/
def start (opt : GatewayOptions) (rings : Nat) (answers : List Bool) : System where
  gateway := MainLoop.start opt answers
  life := 0
  requests := List.replicate rings .empty
  tasks := []
  replies := []
  flushing := []
  responses := .empty
  delivered := []

def machine (opt : GatewayOptions) (rings : Nat) : Machine System Step where
  init s := ∃ answers, s = start opt rings answers
  next := next opt

/-! ## What each step does -/

variable {opt : GatewayOptions} {s t : System}

theorem gateway_eq {ev : MainLoop.Event} (h : s.next opt (.gateway ev) = some t) :
    alone ev.action = true ∧ ∃ g, s.gateway.next opt ev = some g ∧ t = { s with gateway := g } := by
  simp only [next] at h
  split at h
  next halone =>
    obtain ⟨g, hg, rfl⟩ := Option.map_eq_some_iff.mp h
    exact ⟨halone, g, hg, rfl⟩
  · cases h

/-- The ring's sink refuses and nothing happens, or it takes the request without a
reply. -/
theorem ask_cases {ring : Nat} {b : Batch} {r : SinkResult} (h : s.ask ring b = (r, t)) :
    (t = s ∧ ∀ bytes, r ≠ .reply bytes) ∨
      ∃ f rest ch, b.frames = f :: rest ∧ s.requests[ring]? = some ch ∧ r = .reply [] ∧
        t = { s with
          requests := s.requests.set ring { ch with
            items := ch.items ++ [⟨request b.connId f,
              (request b.connId f).eventId = ridePositionReport, ⟨s.life, b.connId⟩⟩] } } := by
  unfold ask at h
  split at h
  · cases h
    exact .inl ⟨rfl, nofun⟩
  next f rest hframes =>
    unfold ringSink at h
    split at h
    · cases h
      exact .inl ⟨rfl, nofun⟩
    next ch hch =>
      split at h
      · cases h
        exact .inl ⟨rfl, nofun⟩
      · split at h
        · cases h
          exact .inl ⟨rfl, nofun⟩
        next ch' hpush =>
          obtain rfl := Channel.push_eq hpush
          cases h
          exact .inr ⟨f, rest, ch, hframes, hch, rfl, rfl⟩

theorem work_eq {i ring : Nat} (h : s.work i ring = some t) :
    ∃ b x v g, s.gateway.engine.batches[i]? = some b ∧ s.ask ring b = (x, v) ∧
      v = { s with requests := v.requests } ∧ s.gateway.work i x = some g ∧
        t = { v with gateway := g } := by
  unfold work at h
  split at h
  · cases h
  next b hb =>
    obtain ⟨x, v, hask⟩ : ∃ x v, s.ask ring b = (x, v) := ⟨_, _, rfl⟩
    rw [hask] at h
    obtain ⟨g, hg, rfl⟩ := Option.map_eq_some_iff.mp h
    have hsame : v = { s with requests := v.requests } := by
      rcases ask_cases hask with ⟨rfl, -⟩ | ⟨f, rest, ch, -, -, -, rfl⟩
      · rfl
      · rfl
    refine ⟨b, x, v, g, hb, hask, hsame, ?_, rfl⟩
    rwa [hsame] at hg

theorem deliver_eq {answers : List Bool} (h : s.deliver opt answers = some t) :
    ∃ slot, s.responses.peek = some slot ∧ s.gateway.stage ≠ .exited ∧
      t = { s with
        gateway := { s.gateway with
          engine := Engine.deliver opt { s.gateway.engine with answers := answers } slot.rsp }
        responses := s.responses.advance
        delivered :=
          if pushes opt { s.gateway.engine with answers := answers } slot.rsp then
            s.delivered ++ [⟨⟨s.life, slot.rsp.connId⟩, slot.origin⟩]
          else s.delivered } := by
  unfold deliver at h
  split at h
  · cases h
  next slot hpeek =>
    dsimp only at h
    split at h
    · cases h
    next hstage => exact ⟨slot, hpeek, hstage, (Option.some.inj h).symm⟩

theorem read_eq {ring : Nat} {posted : Bool} (h : s.read ring posted = some t) :
    ∃ ch slot, s.requests[ring]? = some ch ∧ ch.peek = some slot ∧
      t = { s with
        requests := s.requests.set ring ch.advance
        tasks := s.tasks ++
          if posted && slot.req.payload.length ≤ ReqRing.kPayloadMax then [slot] else [] } := by
  unfold read at h
  split at h
  · cases h
  next ch hch =>
    split at h
    · cases h
    next slot hpeek =>
      refine ⟨ch, slot, hch, hpeek, ?_⟩
      rw [← Option.some.inj h]
      split
      · rfl
      · rw [List.append_nil]

theorem releaseRequests_eq {ring : Nat} (h : s.releaseRequests ring = some t) :
    ∃ ch, s.requests[ring]? = some ch ∧
      t = { s with requests := s.requests.set ring ch.release } := by
  unfold releaseRequests at h
  split at h
  · cases h
  next ch hch => exact ⟨ch, hch, (Option.some.inj h).symm⟩

theorem business_eq {i : Nat} {frame : Option Bytes} (h : s.business i frame = some t) :
    ∃ x, s.tasks[i]? = some x ∧
      t = { s with tasks := s.tasks.eraseIdx i, replies := s.replies ++ x.reply frame } := by
  unfold business at h
  split at h
  · cases h
  next x hx => exact ⟨x, hx, (Option.some.inj h).symm⟩

theorem drainReplies_eq (h : s.drainReplies = some t) :
    s.flushing = [] ∧ t = { s with flushing := s.replies, replies := [] } := by
  unfold drainReplies at h
  split at h
  next hempty => exact ⟨hempty, (Option.some.inj h).symm⟩
  · cases h

/-- A reply that is too long for a slot is dropped, any other is published. -/
theorem flush_cases (h : s.flush = some t) :
    ∃ x rest, s.flushing = x :: rest ∧
      ((RspRing.kPayloadMax < x.frame.length ∧ t = { s with flushing := rest }) ∨
        (x.frame.length ≤ RspRing.kPayloadMax ∧
          t = { s with
            flushing := rest
            responses := { s.responses with
              items := s.responses.items ++ [⟨⟨x.connId, x.frame⟩, x.origin⟩] } })) := by
  unfold flush at h
  split at h
  · cases h
  next x rest hitems =>
    refine ⟨x, rest, hitems, ?_⟩
    split at h
    next hlong => exact .inl ⟨hlong, (Option.some.inj h).symm⟩
    next hfits =>
      obtain ⟨ch, hpush, rfl⟩ := Option.map_eq_some_iff.mp h
      obtain rfl := Channel.push_eq hpush
      exact .inr ⟨Nat.not_lt.mp hfits, rfl⟩

end System

end SharedBike.Dispatch
