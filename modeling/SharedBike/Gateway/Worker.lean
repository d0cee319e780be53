import SharedBike.Gateway.Connection

/-!
# The workers of the gateway

`worker_batch` and the outbox. A worker cuts the bytes of one connection
into frames, hands each to the sink and gives back, through the outbox, the
replies and at the end one terminal item: take the leftover and receive
again, or close. A batch stops early when the sink refuses a request.

`Batch.step` is what a worker does between two of its visits to the outbox,
so the main thread may come between any two of them; `Batch.run` is a batch
from beginning to end.
-/

namespace SharedBike.Gateway

open SharedBike.Lib SharedBike.Wire

inductive OutboxKind where
  | respond
  | rearmRecv
  | close
  deriving DecidableEq

structure OutboxItem where
  kind : OutboxKind
  connId : Nat
  bytes : Bytes
  deriving DecidableEq

/-- `PacketSink::Request` -/
structure Request where
  connId : Nat
  eventId : UInt16
  seq : UInt32
  payload : Bytes
  deriving DecidableEq

/-- What a worker asks the sink for one frame of a connection. -/
def request (connId : Nat) (f : Frame) : Request := ⟨connId, f.eventId, f.seq, f.payload⟩

/-- How `PacketSink::handle` ends: with a reply, which may be empty, or with one
of the exceptions that a worker tells apart. -/
inductive SinkResult where
  | reply (bytes : Bytes)
  | overload
  | malformed
  | threw
  deriving DecidableEq

/-- The sink took the request. -/
def SinkResult.Accepts : SinkResult → Prop
  | .reply _ => True
  | .threw => True
  | .overload => False
  | .malformed => False

instance : (r : SinkResult) → Decidable r.Accepts
  | .reply _ => .isTrue trivial
  | .threw => .isTrue trivial
  | .overload => .isFalse id
  | .malformed => .isFalse id

/-- A batch at work: the frames to come, and how the cut ended. -/
structure Batch where
  connId : Nat
  frames : List Frame
  bad : Bool
  leftover : Bytes
  deriving DecidableEq

namespace Batch

/-- The cut that a worker begins with. -/
def start (connId : Nat) (raw : Bytes) : Batch :=
  ⟨connId, (cutFrames raw).frames, (cutFrames raw).bad, (cutFrames raw).leftover⟩

/-- A reply goes out under the sequence number of its request, or not at all. -/
def respond (b : Batch) (f : Frame) (reply : Bytes) : List OutboxItem :=
  if reply.isEmpty then []
  else
    match stampSeq reply f.seq with
    | some stamped => [⟨.respond, b.connId, stamped⟩]
    | none => []

/-- The item after the last frame. -/
def last (b : Batch) : OutboxItem :=
  if b.bad then ⟨.close, b.connId, []⟩ else ⟨.rearmRecv, b.connId, b.leftover⟩

/-- One frame: the items, and the batch if it goes on. -/
def handle (b : Batch) (f : Frame) (rest : List Frame) :
    SinkResult → List OutboxItem × Option Batch
  | .reply bytes => (b.respond f bytes, some { b with frames := rest })
  | .threw => ([], some { b with frames := rest })
  | .overload => ([⟨.close, b.connId, []⟩], none)
  | .malformed => ([⟨.close, b.connId, []⟩], none)

/-- The next thing a worker does; after the last frame the sink is not asked. -/
def step (b : Batch) (r : SinkResult) : List OutboxItem × Option Batch :=
  match b.frames with
  | [] => ([b.last], none)
  | f :: rest => b.handle f rest r

/-- A whole batch. The sink may answer by all that it was handed before. -/
def run (sink : List Request → Request → SinkResult) (b : Batch) :
    List Frame → List Request → List Request × List OutboxItem
  | [], handled => (handled, [b.last])
  | f :: rest, handled =>
    let req := request b.connId f
    match b.handle f rest (sink handled req) with
    | (items, none) => (handled ++ [req], items)
    | (items, some _) =>
      let (handled, more) := b.run sink rest (handled ++ [req])
      (handled, items ++ more)

end Batch

def workerBatch (sink : List Request → Request → SinkResult) (connId : Nat) (raw : Bytes)
    (handled : List Request) : List Request × List OutboxItem :=
  let b := Batch.start connId raw
  b.run sink b.frames handled

/-! ## What a batch gives back -/

namespace Batch

theorem respond_kind {b : Batch} {f : Frame} {reply : Bytes} {it : OutboxItem}
    (h : it ∈ b.respond f reply) : it.kind = .respond ∧ it.connId = b.connId := by
  unfold respond at h
  split at h
  · cases h
  · split at h
    · rw [List.mem_singleton] at h
      subst h
      exact ⟨rfl, rfl⟩
    · cases h

/-- With a sink that takes everything, each frame is handed over and the batch
ends with its last item, after replies only. -/
theorem run_of_accepts {sink : List Request → Request → SinkResult}
    (hsink : ∀ handled req, (sink handled req).Accepts) (b : Batch) (frames : List Frame)
    (handled : List Request) :
    (b.run sink frames handled).1 = handled ++ frames.map (request b.connId) ∧
      ∃ replies, (b.run sink frames handled).2 = replies ++ [b.last] ∧
        ∀ it ∈ replies, it.kind = .respond := by
  induction frames generalizing handled with
  | nil => exact ⟨(List.append_nil _).symm, [], rfl, by simp⟩
  | cons f rest ih =>
    obtain ⟨hhanded, replies, hitems, hreplies⟩ := ih (handled ++ [request b.connId f])
    have hacc := hsink handled (request b.connId f)
    unfold run
    cases hr : sink handled (request b.connId f) with
    | reply bytes =>
      refine ⟨by simp [handle, hr, hhanded], b.respond f bytes ++ replies,
        by simp [handle, hr, hitems], ?_⟩
      intro it hit
      rcases List.mem_append.mp hit with hit | hit
      · exact (respond_kind hit).1
      · exact hreplies it hit
    | threw =>
      exact ⟨by simp [handle, hr, hhanded], replies, by simp [handle, hr, hitems], hreplies⟩
    | overload => rw [hr] at hacc; exact hacc.elim
    | malformed => rw [hr] at hacc; exact hacc.elim

end Batch

end SharedBike.Gateway
