import SharedBike.Lib.Machine
import SharedBike.Lib.Counter

/-!
# The single-producer single-consumer ring

`server/include/bike/ipc/spsc_ring.hpp` and the parts of `shm_layout.hpp`
and `ipc_packet.hpp` it stands on. The ring is a table of `2 ^ k` slots in
memory that two processes map, with two shared 32-bit counters: `head`,
written only by the producer, and `tail`, written only by the consumer.

`Producer` and `Consumer` are the two views with the fields they cache
locally. `Ring` is everything at one moment, and `Ring.machine` interleaves
the two sides. A step touches shared memory once: it loads or stores `head`
or `tail`, or it moves one packet header or one payload byte. So a write and
a read of one slot are as finely interleaved as the hardware can make them,
and "no mix of two writes" has content.

The last four fields of `Ring` are history. No branch of the code reads them.
-/

namespace SharedBike.Ipc

open SharedBike.Lib Function

/-- `IpcPacket`: the 32-byte head of a slot. -/
structure IpcPacket where
  connId : UInt64
  eventId : UInt16
  flags : UInt16
  seq : UInt32
  payloadLen : UInt32
  reserved0 : UInt32
  reserved1 : UInt32
  deriving DecidableEq

/-- The template arguments of `SpscRing`, with the two static assertions
that every instance passes. -/
structure RingShape where
  slotSize : Nat
  slotCountBits : Nat
  slot_holds_packet : 32 < slotSize ∧ slotSize % 64 = 0
  bits_ge : 1 ≤ slotCountBits
  bits_le : slotCountBits ≤ 16

namespace RingShape

variable (S : RingShape)

def kSlotCount : UInt32 := tableSize S.slotCountBits
def kMask : UInt32 := S.kSlotCount - 1
def kPayloadMax : Nat := S.slotSize - 32

end RingShape

/-- `ReqRing`: 512 slots of 4096 bytes. -/
def ReqRing : RingShape := ⟨4096, 9, by decide, by decide, by decide⟩

/-- `RspRing`: 256 slots of 401408 bytes. -/
def RspRing : RingShape := ⟨401408, 8, by decide, by decide, by decide⟩

/-- The two counters of `RingHeader`. Its pids and heartbeats take no part in
the queue. -/
structure RingHeader where
  head : UInt32
  tail : UInt32
  deriving DecidableEq

/-- `RingSlotT`: a packet and the payload bytes behind it. -/
structure Slot where
  pkt : IpcPacket
  payload : Nat → UInt8

/-! ## The producer view -/

structure Producer where
  headLocal : UInt32
  headPublished : UInt32
  unpublished : UInt32
  deriving DecidableEq

/-- The constructor copies the shared head. -/
def Producer.attach (h : RingHeader) : Producer := ⟨h.head, h.head, 0⟩

/-- `begin_write`: `none` is the null pointer; otherwise the index of the
reserved slot. -/
def Producer.beginWrite (S : RingShape) (p : Producer) (h : RingHeader) :
    Option (Nat × Producer) :=
  if p.headLocal - h.tail = S.kSlotCount then none
  else some ((p.headLocal &&& S.kMask).toNat,
    { p with headLocal := p.headLocal + 1, unpublished := p.unpublished + 1 })

/-- `publish`: `none` is the failed assertion `n == unpublished_`. -/
def Producer.publish (n : UInt32) (p : Producer) (h : RingHeader) :
    Option (Producer × RingHeader) :=
  if n = p.unpublished then
    some ({ p with unpublished := p.unpublished - n, headPublished := p.headPublished + n },
      { h with head := p.headPublished + n })
  else none

/-! ## The consumer view -/

structure Consumer where
  tailLocal : UInt32
  deriving DecidableEq

/-- The constructor copies the shared tail. -/
def Consumer.attach (h : RingHeader) : Consumer := ⟨h.tail⟩

/-- `pop_batch`: how many slots may be read, from `firstSlot` on. A batch
does not run over the end of the array. -/
def Consumer.popBatch (S : RingShape) (c : Consumer) (h : RingHeader) (max : UInt32) : UInt32 :=
  let n := min max (h.head - c.tailLocal)
  let toEnd := S.kSlotCount - (c.tailLocal &&& S.kMask)
  min n toEnd

/-- `*out`: the index of the first slot of a batch. -/
def Consumer.firstSlot (S : RingShape) (c : Consumer) : Nat := (c.tailLocal &&& S.kMask).toNat

def Consumer.release (n : UInt32) (c : Consumer) (h : RingHeader) : Consumer × RingHeader :=
  (⟨c.tailLocal + n⟩, { h with tail := c.tailLocal + n })

/-! ## The two sides at work -/

/-- What one `fill` is given: a packet and as many payload bytes as it
announces, no more than a slot holds. `RingSink::handle` checks the bound
before it reserves a slot, `flush_replies` before it fills one. -/
structure Entry (S : RingShape) where
  pkt : IpcPacket
  payload : List UInt8
  len_eq : payload.length = pkt.payloadLen.toNat
  fits : payload.length ≤ S.kPayloadMax
  deriving DecidableEq

/-- The packet and payload a reader is meant to see. -/
def Entry.raw {S : RingShape} (e : Entry S) : IpcPacket × List UInt8 := (e.pkt, e.payload)

/-- Where the producer stands between `begin_write` and the end of `fill`. -/
inductive Writing (S : RingShape) where
  | idle
  | header (slot : Nat) (e : Entry S)
  | bytes (slot : Nat) (e : Entry S) (done : Nat)

/-- Where the consumer stands between `pop_batch` and `release`: how many of
the batch's `n` slots it has read, and the part of the next one copied so far. -/
inductive Reading where
  | idle
  | batch (n : UInt32) (done : Nat) (copy : Option (IpcPacket × List UInt8))

/-- The ring, its two users and what has passed through it. -/
structure Ring (S : RingShape) where
  hdr : RingHeader
  slots : Nat → Slot
  prod : Producer
  cons : Consumer
  writing : Writing S
  reading : Reading
  published : List (Entry S)
  pending : List (Entry S)
  released : Nat
  got : List (IpcPacket × List UInt8)

/-- One step of one side. -/
inductive RingEvent (S : RingShape) where
  | beginWrite (e : Entry S)
  | fillPkt
  | fillByte
  | publish
  | popBatch (max : UInt32)
  | readPkt
  | readByte
  | release

namespace Ring

variable {S : RingShape}

def setPkt (r : Ring S) (i : Nat) (pkt : IpcPacket) : Ring S :=
  { r with slots := update r.slots i ⟨pkt, (r.slots i).payload⟩ }

def setByte (r : Ring S) (i j : Nat) (b : UInt8) : Ring S :=
  { r with
    slots := update r.slots i
      ⟨(r.slots i).pkt, update (r.slots i).payload j b⟩ }

/-- `fill` is over once every byte of the entry has been moved. -/
def putNext (r : Ring S) (slot : Nat) (e : Entry S) (done : Nat) : Ring S :=
  { r with writing := if done = e.payload.length then .idle else .bytes slot e done }

/-- A slot has been read once as many bytes as its packet announces were copied. -/
def takeNext (r : Ring S) (n : UInt32) (done : Nat) (pkt : IpcPacket) (bytes : List UInt8) :
    Ring S :=
  if bytes.length = pkt.payloadLen.toNat then
    { r with reading := .batch n (done + 1) none, got := r.got ++ [(pkt, bytes)] }
  else { r with reading := .batch n done (some (pkt, bytes)) }

/-- The interleaving step function. The producer reserves or publishes only
between two fills, and publishes every outstanding reservation; the consumer
releases exactly the batch it has read. -/
def next (r : Ring S) : RingEvent S → Option (Ring S)
  | .beginWrite e =>
    match r.writing with
    | .idle =>
      match r.prod.beginWrite S r.hdr with
      | none => some r
      | some (slot, p) =>
        some { r with prod := p, writing := .header slot e, pending := r.pending ++ [e] }
    | _ => none
  | .fillPkt =>
    match r.writing with
    | .header slot e => some ((r.setPkt slot e.pkt).putNext slot e 0)
    | _ => none
  | .fillByte =>
    match r.writing with
    | .bytes slot e done =>
      (e.payload[done]?).map fun b => (r.setByte slot done b).putNext slot e (done + 1)
    | _ => none
  | .publish =>
    match r.writing with
    | .idle =>
      (r.prod.publish r.prod.unpublished r.hdr).map fun (p, h) =>
        { r with prod := p, hdr := h, published := r.published ++ r.pending, pending := [] }
    | _ => none
  | .popBatch max =>
    match r.reading with
    | .idle =>
      let n := r.cons.popBatch S r.hdr max
      some (if n = 0 then r else { r with reading := .batch n 0 none })
    | _ => none
  | .readPkt =>
    match r.reading with
    | .batch n done none =>
      if done < n.toNat then
        some (r.takeNext n done (r.slots (r.cons.firstSlot S + done)).pkt [])
      else none
    | _ => none
  | .readByte =>
    match r.reading with
    | .batch n done (some (pkt, bytes)) =>
      some (r.takeNext n done pkt
        (bytes ++ [(r.slots (r.cons.firstSlot S + done)).payload bytes.length]))
    | _ => none
  | .release =>
    match r.reading with
    | .batch n done none =>
      if done = n.toNat then
        let (c, h) := r.cons.release n r.hdr
        some { r with cons := c, hdr := h, reading := .idle, released := r.released + n.toNat }
      else none
    | _ => none

/-- Both sides attached to a ring whose counters both read `start`, whatever
its slots hold. -/
def attached (S : RingShape) (start : UInt32) (slots : Nat → Slot) : Ring S where
  hdr := ⟨start, start⟩
  slots := slots
  prod := .attach ⟨start, start⟩
  cons := .attach ⟨start, start⟩
  writing := .idle
  reading := .idle
  published := []
  pending := []
  released := 0
  got := []

/-- All interleavings of the two sides from one start value of the counters. -/
def machine (S : RingShape) (start : UInt32) : Machine (Ring S) (RingEvent S) where
  init r := ∃ slots, r = attached S start slots
  next := next

end Ring

end SharedBike.Ipc
