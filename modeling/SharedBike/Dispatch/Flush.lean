import SharedBike.Dispatch.Pipeline
import SharedBike.Ipc.PollRounds

/-!
# `flush_replies`, step by step

The reader of Dispatch is the only producer of the response ring. It takes
the whole `ReplyQueue`, reserves and fills a slot for each reply, and
publishes when the ring is full or at the end, by a local count of what it has
filled. The gateway reads and releases all the while.

A frame that is too large for a slot is skipped after its slot was reserved.
The local count does not include that slot and the producer's own count does,
so the next `publish` is called with another number than the assertion in it
wants; without the assertion it shows the consumer the slot that was skipped,
and the last reply stays behind (`oversize_shifts`). As long as every frame
fits, the two counts agree, and the consumer is shown what was queued, in
order, but for what was given up with a full ring (`flush_exact`).
-/

namespace SharedBike.Dispatch

open SharedBike.Lib SharedBike.Ipc

namespace ReplyItem

/-- The packet that `flush_replies` writes for a reply. -/
def packet (r : ReplyItem) : IpcPacket :=
  ⟨UInt64.ofNat r.connId, 0, 0, r.seq, UInt32.ofNat r.frame.length, 0, 0⟩

/-- What is filled into a slot; `none` when the frame is too large for one. -/
def entry (r : ReplyItem) : Option (Entry RspRing) :=
  if h : r.frame.length > RspRing.kPayloadMax then none
  else some {
    pkt := r.packet
    payload := r.frame
    len_eq := by
      have hlen : r.frame.length ≤ 401376 := Nat.not_lt.mp h
      exact (UInt32.toNat_ofNat_of_lt' (Nat.lt_of_le_of_lt hlen (by decide))).symm
    fits := Nat.not_lt.mp h }

/-- What the gateway is to see of a reply. -/
def raw (r : ReplyItem) : IpcPacket × List UInt8 := (r.packet, r.frame)

theorem entry_eq_none {r : ReplyItem} (h : RspRing.kPayloadMax < r.frame.length) :
    r.entry = none :=
  dif_pos h

theorem exists_entry {r : ReplyItem} (h : r.frame.length ≤ RspRing.kPayloadMax) :
    ∃ e, r.entry = some e ∧ e.raw = r.raw :=
  ⟨_, dif_neg (Nat.not_lt.mpr h), rfl⟩

end ReplyItem

/-! ## The model -/

/-- The local variables of a call: `was_empty`, the replies from `i` on, and
`pending`. -/
structure FlushCall where
  wasEmpty : Bool
  items : List ReplyItem
  pending : UInt32
  deriving DecidableEq

/-- Where the reader stands in `flush_replies`. -/
inductive Flushing where
  | outside
  | drained (items : List ReplyItem)
  /-- at the head of the loop -/
  | loop (c : FlushCall)
  | filling (c : FlushCall)
  /-- `begin_write` was null -/
  | full (c : FlushCall)
  | waiting (c : FlushCall)
  /-- behind the loop -/
  | done (c : FlushCall)
  | notifying (wasEmpty : Bool)
  /-- the assertion in `publish` has failed -/
  | aborted
  deriving DecidableEq

/-- The reader in `flush_replies`, the ring with its consumer, the clock in
nanoseconds and `g_stopping`. The last four fields are history: what was
published when the call began, what it took from the queue, what it gave up,
and how much was released when `begin_write` was last null. -/
structure Flusher where
  ring : Ring RspRing
  stage : Flushing
  deadline : Nat
  clock : Nat
  stopping : Bool
  fifo : Nat
  before : List (Entry RspRing)
  taken : List ReplyItem
  dropped : List ReplyItem
  refusedAt : Nat

inductive FlushEvent where
  /-- the call begins; this is what the queue holds -/
  | drain (items : List ReplyItem)
  | sample
  | iterate
  | fillPkt
  | fillByte
  | publish
  | check
  | notify
  /-- a step of the consumer -/
  | consume (ev : RingEvent RspRing)
  | tick (ns : Nat)
  | stop

/-- `publish` where the assertion is not compiled in. -/
def publishUnchecked (n : UInt32) (p : Producer) (h : RingHeader) : Producer × RingHeader :=
  ({ p with unpublished := p.unpublished - n, headPublished := p.headPublished + n },
    { h with head := p.headPublished + n })

/-- `publish(n)`, with the assertion or without; `none` when it fails. -/
def publishRing (asserts : Bool) (n : UInt32) (r : Ring RspRing) : Option (Ring RspRing) :=
  (if asserts then r.prod.publish n r.hdr else some (publishUnchecked n r.prod r.hdr)).map
    fun (p, h) => { r with prod := p, hdr := h, published := r.published ++ r.pending, pending := [] }

namespace Flusher

/-- What follows a piece of `fill`. -/
def filled (f : Flusher) (c : FlushCall) (r : Ring RspRing) : Flusher :=
  { f with
    ring := r
    stage :=
      match r.writing with
      | .idle => .loop { c with items := c.items.tail, pending := c.pending + 1 }
      | _ => .filling c }

/-- The call goes on behind a `publish`, if that returns. -/
def published (f : Flusher) (stage : Flushing) : Option (Ring RspRing) → Flusher
  | none => { f with stage := .aborted }
  | some r => { f with ring := r, stage := stage }

def next (asserts : Bool) (peerTimeoutMs : Nat) (f : Flusher) : FlushEvent → Option Flusher
  | .drain items =>
    match f.stage with
    | .outside =>
      if items.isEmpty then some f
      else some { f with
        stage := .drained items, before := f.ring.published, taken := items, dropped := [] }
    | _ => none
  | .sample =>
    match f.stage with
    | .drained items => some { f with
        deadline := f.clock + (peerTimeoutMs + 1000) * 1000000
        stage := .loop ⟨f.ring.prod.empty f.ring.hdr, items, 0⟩ }
    | _ => none
  | .iterate =>
    match f.stage with
    | .loop c =>
      match c.items with
      | [] => some { f with stage := .done c }
      | r :: rest =>
        match f.ring.prod.beginWrite RspRing f.ring.hdr with
        | none => some { f with stage := .full c, refusedAt := f.ring.released }
        | some (_, p) =>
          match r.entry with
          -- the slot stays reserved
          | none => some { f with
              ring := { f.ring with prod := p }, stage := .loop { c with items := rest } }
          | some e =>
            (f.ring.next (.beginWrite e)).map fun ring => { f with ring, stage := .filling c }
    | _ => none
  | .fillPkt =>
    match f.stage with
    | .filling c => (f.ring.next .fillPkt).map (f.filled c)
    | _ => none
  | .fillByte =>
    match f.stage with
    | .filling c => (f.ring.next .fillByte).map (f.filled c)
    | _ => none
  | .publish =>
    match f.stage with
    | .full c =>
      some (f.published (.waiting { c with pending := 0 }) (publishRing asserts c.pending f.ring))
    | .done c =>
      if c.pending > 0 then
        some (f.published (.notifying c.wasEmpty) (publishRing asserts c.pending f.ring))
      else some { f with stage := .notifying c.wasEmpty }
    | _ => none
  | .check =>
    match f.stage with
    | .waiting c =>
      if f.stopping || f.clock > f.deadline then
        some { f with stage := .done c, dropped := c.items }
      else some { f with stage := .loop c }
    | _ => none
  | .notify =>
    match f.stage with
    | .notifying wasEmpty => some { f with
        stage := .outside, fifo := if wasEmpty then write1 f.fifo else f.fifo }
    | _ => none
  | .consume ev =>
    if ev.produces then none else (f.ring.next ev).map fun ring => { f with ring }
  | .tick ns => some { f with clock := f.clock + ns }
  | .stop => some { f with stopping := true }

/-- All interleavings of calls with the consumer, from a ring that holds
anything. -/
def machine (asserts : Bool) (peerTimeoutMs : Nat) (start : UInt32) :
    Machine Flusher FlushEvent where
  init f := (Ring.machine RspRing start).Reachable f.ring ∧ f.ring.writing = .idle ∧
    f.ring.pending = [] ∧ f.stage = .outside ∧ f.before = f.ring.published ∧ f.taken = [] ∧
    f.dropped = []
  next := next asserts peerTimeoutMs

/-! ## The two counts -/

/-- Every frame that is taken from the queue fits a slot. -/
def Sendable (_ : Flusher) : FlushEvent → Prop
  | .drain items => ∀ r ∈ items, r.frame.length ≤ RspRing.kPayloadMax
  | _ => True

instance (f : Flusher) (e : FlushEvent) : Decidable (Sendable f e) := by
  unfold Sendable
  split <;> infer_instance

/-- What was taken from the queue and what was published before. -/
structure History where
  before : List (Entry RspRing)
  taken : List ReplyItem

def history (f : Flusher) : History := ⟨f.before, f.taken⟩

/-- Between two replies: `pending` is the producer's own count, and what is in
the ring is what was there and the replies up to the rest, each complete. -/
structure Books (ring : Ring RspRing) (hist : History) (pending : UInt32)
    (rest : List ReplyItem) : Prop where
  idle : ring.writing = .idle
  count : pending = ring.prod.unpublished
  sent : ∃ sent, hist.taken = sent ++ rest ∧ (ring.published ++ ring.pending).map Entry.raw =
    hist.before.map Entry.raw ++ sent.map ReplyItem.raw

/-- In the middle of a fill the producer is one ahead. -/
structure Ahead (ring : Ring RspRing) (hist : History) (c : FlushCall) : Prop where
  count : c.pending + 1 = ring.prod.unpublished
  sent : ∃ sent r, hist.taken = sent ++ c.items ∧ c.items.head? = some r ∧
    (ring.published ++ ring.pending).map Entry.raw =
      hist.before.map Entry.raw ++ (sent ++ [r]).map ReplyItem.raw

/-- Every slot was in use when `begin_write` was last null, and none has been
reserved since. -/
def Refused (f : Flusher) : Prop := f.ring.reserved = f.refusedAt + 2 ^ RspRing.slotCountBits

/-- A reply is given up only with a full ring, at the stop or past the deadline. -/
def GaveUp (f : Flusher) : Prop :=
  f.dropped ≠ [] → f.Refused ∧ (f.stopping = true ∨ f.deadline < f.clock)

def StageOk (f : Flusher) : Prop :=
  match f.stage with
  | .outside => Books f.ring f.history 0 f.dropped ∧ f.GaveUp
  | .drained items => Books f.ring f.history 0 items ∧ f.dropped = []
  | .loop c => Books f.ring f.history c.pending c.items ∧ f.dropped = []
  | .filling c => Ahead f.ring f.history c ∧ f.dropped = []
  | .full c => Books f.ring f.history c.pending c.items ∧ f.dropped = [] ∧ f.Refused
  | .waiting c => Books f.ring f.history c.pending c.items ∧ f.dropped = [] ∧ f.Refused
  | .done c => Books f.ring f.history c.pending c.items ∧ f.dropped = c.items ∧ f.GaveUp
  | .notifying _ => Books f.ring f.history 0 f.dropped ∧ f.GaveUp
  | .aborted => False

/-- The ring is a run of the ring alone, and the call is in step with it. -/
structure Inv (start : UInt32) (f : Flusher) : Prop where
  ring : (Ring.machine RspRing start).Reachable f.ring
  sendable : ∀ r ∈ f.taken, r.frame.length ≤ RspRing.kPayloadMax
  stage : f.StageOk

variable {asserts : Bool} {peerTimeoutMs : Nat} {start : UInt32} {f g : Flusher} {c : FlushCall}
  {pending : UInt32} {rest : List ReplyItem} {ring : Ring RspRing} {hist : History}
  {ring' : Ring RspRing}

/-- With the right number, `publish` is the ring's, assertion or not. -/
theorem publishRing_eq {r : Ring RspRing} (hidle : r.writing = .idle)
    (hcount : pending = r.prod.unpublished) : publishRing asserts pending r = r.next .publish := by
  subst hcount
  cases asserts with
  | true => simp only [publishRing, Ring.next, hidle, if_true]
  | false =>
    simp only [publishRing, publishUnchecked, Ring.next, hidle, Producer.publish, if_true,
      Bool.false_eq_true, if_false, Option.map_some]

theorem Books.congr (h : Books ring hist pending rest) (hwriting : ring'.writing = ring.writing)
    (hprod : ring'.prod = ring.prod) (hpublished : ring'.published = ring.published)
    (hpending : ring'.pending = ring.pending) :
    Books ring' hist pending rest := by
  refine ⟨hwriting ▸ h.idle, hprod ▸ h.count, ?_⟩
  rw [hpublished, hpending]
  exact h.sent

theorem Ahead.congr (h : Ahead ring hist c) (hprod : ring'.prod = ring.prod)
    (hpublished : ring'.published = ring.published) (hpending : ring'.pending = ring.pending) :
    Ahead ring' hist c := by
  refine ⟨hprod ▸ h.count, ?_⟩
  rw [hpublished, hpending]
  exact h.sent

/-- The consumer does not disturb a call. -/
theorem StageOk.consume (h : f.StageOk) {ev : RingEvent RspRing} (hev : ev.produces = false)
    (hs : f.ring.next ev = some ring) : StageOk { f with ring } := by
  obtain ⟨hprod, hpublished, hpending, hwriting⟩ := Ring.next_keeps hs
    (fun e he => by rw [he] at hev; cases hev) (fun he => by rw [he] at hev; cases hev)
  have hbooks : ∀ {pending rest}, Books f.ring f.history pending rest →
      Books ring f.history pending rest :=
    fun hb => hb.congr (hwriting hev) hprod hpublished hpending
  have hrefused : f.Refused → Refused { f with ring } := by
    intro hr
    unfold Refused Ring.reserved at hr ⊢
    rw [hpublished, hpending]
    exact hr
  have hgave : f.GaveUp → GaveUp { f with ring } :=
    fun hg hne => ⟨hrefused (hg hne).1, (hg hne).2⟩
  unfold StageOk at h ⊢
  cases hstage : f.stage with
  | outside | notifying => simp only [hstage] at h ⊢; exact ⟨hbooks h.1, hgave h.2⟩
  | drained | loop => simp only [hstage] at h ⊢; exact ⟨hbooks h.1, h.2⟩
  | filling c => simp only [hstage] at h ⊢; exact ⟨h.1.congr hprod hpublished hpending, h.2⟩
  | full | waiting => simp only [hstage] at h ⊢; exact ⟨hbooks h.1, h.2.1, hrefused h.2.2⟩
  | done => simp only [hstage] at h ⊢; exact ⟨hbooks h.1, h.2.1, hgave h.2.2⟩
  | aborted => simp only [hstage] at h

/-- Time passes and the stop comes, and what was late stays late. -/
theorem StageOk.later (h : f.StageOk) {clock : Nat} {stopping : Bool} (hclock : f.clock ≤ clock)
    (hstop : f.stopping = true → stopping = true) : StageOk { f with clock, stopping } := by
  have hgave : f.GaveUp → GaveUp { f with clock, stopping } := fun hg hne =>
    ⟨(hg hne).1, (hg hne).2.imp hstop fun hlt => Nat.lt_of_lt_of_le hlt hclock⟩
  unfold StageOk at h ⊢
  cases hstage : f.stage with
  | outside | notifying => simp only [hstage] at h ⊢; exact ⟨h.1, hgave h.2⟩
  | done => simp only [hstage] at h ⊢; exact ⟨h.1, h.2.1, hgave h.2.2⟩
  | drained | loop | filling | full | waiting => simp only [hstage] at h ⊢; exact h
  | aborted => simp only [hstage] at h

/-- A reservation for a reply that fits. -/
theorem Books.reserve {r : ReplyItem} (h : Books ring hist c.pending c.items)
    (hitems : c.items = r :: rest) {e : Entry RspRing} (he : e.raw = r.raw) {slot : Nat}
    {p : Producer} (hb : ring.prod.beginWrite RspRing ring.hdr = some (slot, p))
    (hs : ring.next (.beginWrite e) = some ring') : Ahead ring' hist c := by
  simp only [Ring.next, h.idle, hb] at hs
  cases hs
  obtain ⟨sent, htaken, hraw⟩ := h.sent
  have hp : p.unpublished = ring.prod.unpublished + 1 := by
    unfold Producer.beginWrite at hb
    split at hb
    · cases hb
    · cases hb
      rfl
  refine ⟨by rw [h.count, hp], sent, r, htaken, by rw [hitems]; rfl, ?_⟩
  simp only [← List.append_assoc, List.map_append, List.map_cons, List.map_nil, he] at hraw ⊢
  rw [hraw]

/-- A fill that goes on, or is over. -/
theorem Ahead.filled (h : Ahead f.ring f.history c) (hdropped : f.dropped = [])
    {ev : RingEvent RspRing} (hreserve : ∀ e, ev ≠ .beginWrite e) (hpublish : ev ≠ .publish)
    (hs : f.ring.next ev = some ring) : (f.filled c ring).StageOk := by
  obtain ⟨hprod, hpublished, hpending, -⟩ := Ring.next_keeps hs hreserve hpublish
  have hahead := h.congr hprod hpublished hpending
  unfold Flusher.filled StageOk
  cases hwriting : ring.writing with
  | header | bytes => exact ⟨hahead, hdropped⟩
  | idle =>
    obtain ⟨sent, r, htaken, hhead, hraw⟩ := hahead.sent
    obtain ⟨tail, htail⟩ := List.head?_eq_some_iff.mp hhead
    refine ⟨⟨hwriting, hahead.count, sent ++ [r], ?_, hraw⟩, hdropped⟩
    change f.history.taken = _
    simp only [htaken, htail, List.tail_cons, List.append_assoc, List.singleton_append]

/-- `publish` returns, and nothing is outstanding. -/
theorem Books.publish (h : Books ring hist pending rest) (asserts : Bool) :
    ∃ ring', publishRing asserts pending ring = some ring' ∧ ring.next .publish = some ring' ∧
      ring'.reserved = ring.reserved ∧ Books ring' hist 0 rest := by
  obtain ⟨sent, htaken, hraw⟩ := h.sent
  rw [publishRing_eq h.idle h.count]
  simp only [Ring.next, h.idle, Producer.publish, if_true, Option.map_some, Option.some.injEq,
    exists_eq_left', true_and]
  refine ⟨?_, rfl, (UInt32.sub_self _).symm, sent, htaken, ?_⟩
  · simp only [Ring.reserved, List.length_append, List.length_nil, Nat.add_zero]
  · simpa only [List.append_nil] using hraw

/-- With nothing counted there is nothing outstanding. -/
theorem Books.pending_nil (h : Books ring hist 0 rest) (hinv : ring.Inv start) :
    ring.pending = [] := by
  have hcount := h.count
  have hwindow := hinv.window
  have hle := hinv.released_le
  unfold Ring.reserved at hwindow
  change _ ≤ ring.released + 256 at hwindow
  have hzero : (UInt32.ofNat ring.pending.length).toNat = 0 := by
    rw [← hinv.unpublished, ← hcount]
    rfl
  rw [UInt32.toNat_ofNat', Nat.mod_eq_of_lt (by omega)] at hzero
  exact List.length_eq_zero_iff.mp hzero

theorem Inv.init (h : (machine asserts peerTimeoutMs start).init f) : Inv start f := by
  obtain ⟨hring, hidle, hpending, hstage, hbefore, htaken, hdropped⟩ := h
  refine ⟨hring, ?_, ?_⟩
  · rw [htaken]
    exact fun _ hmem => absurd hmem List.not_mem_nil
  · unfold StageOk
    rw [hstage]
    refine ⟨⟨hidle, ?_, [], ?_, ?_⟩, fun hne => absurd hdropped hne⟩
    · rw [(Ring.inv_of_reachable hring).unpublished, hpending]
      rfl
    · simp only [history, htaken, hdropped, List.append_nil]
    · simp only [history, hpending, hbefore, List.append_nil, List.map_nil]

/-- The loop at a reply. -/
theorem Inv.iterate (h : Inv start f) (hstage : f.stage = .loop c)
    (hs : f.next asserts peerTimeoutMs .iterate = some g) : Inv start g := by
  have hok := h.stage
  unfold StageOk at hok
  rw [hstage] at hok
  obtain ⟨hbooks, hdropped⟩ := hok
  simp only [next, hstage] at hs
  split at hs
  next hitems =>
    cases hs
    refine ⟨h.ring, h.sendable, hbooks, ?_, fun hne => absurd hdropped hne⟩
    rw [hitems]
    exact hdropped
  next r rest hitems =>
    split at hs
    next hnull =>
      cases hs
      refine ⟨h.ring, h.sendable, hbooks, hdropped, ?_⟩
      have hinv := Ring.inv_of_reachable h.ring
      have hfull := hinv.beginWrite_none_iff.mp hnull
      have hle := hinv.released_le.trans f.ring.published_le_reserved
      change f.ring.reserved = f.ring.released + _
      omega
    next slot p hb =>
      obtain ⟨sent, htaken, -⟩ := hbooks.sent
      have hfits : r.frame.length ≤ RspRing.kPayloadMax := by
        refine h.sendable r ?_
        change r ∈ f.history.taken
        rw [htaken, hitems]
        exact List.mem_append_right _ List.mem_cons_self
      obtain ⟨e, he, hraw⟩ := ReplyItem.exists_entry hfits
      rw [he] at hs
      obtain ⟨ring, hring, rfl⟩ := Option.map_eq_some_iff.mp hs
      exact ⟨Ring.reachable_next h.ring hring, h.sendable,
        hbooks.reserve hitems hraw hb hring, hdropped⟩

theorem Inv.publish (h : Inv start f) (hs : f.next asserts peerTimeoutMs .publish = some g) :
    Inv start g := by
  have hok := h.stage
  unfold StageOk at hok
  simp only [next] at hs
  split at hs
  next c hstage =>
    rw [hstage] at hok
    obtain ⟨hbooks, hdropped, hrefused⟩ := hok
    obtain ⟨ring, hpub, hring, hreserved, hbooks'⟩ :=
      hbooks.publish asserts
    rw [hpub] at hs
    cases hs
    exact ⟨Ring.reachable_next h.ring hring, h.sendable, hbooks', hdropped, hreserved.trans hrefused⟩
  next c hstage =>
    rw [hstage] at hok
    obtain ⟨hbooks, hdropped, hgave⟩ := hok
    rw [← hdropped] at hbooks
    split at hs
    next =>
      obtain ⟨ring, hpub, hring, hreserved, hbooks'⟩ :=
        hbooks.publish asserts
      rw [hpub] at hs
      cases hs
      refine ⟨Ring.reachable_next h.ring hring, h.sendable, hbooks', fun hne => ?_⟩
      exact ⟨hreserved.trans (hgave hne).1, (hgave hne).2⟩
    next hzero =>
      cases hs
      have hpending : c.pending = 0 := by
        rw [gt_iff_lt, UInt32.lt_iff_toNat_lt] at hzero
        exact UInt32.toNat_inj.mp (Nat.le_zero.mp (Nat.not_lt.mp hzero))
      exact ⟨h.ring, h.sendable, hpending ▸ hbooks, hgave⟩
  next => cases hs

theorem Inv.step (h : Inv start f) {ev : FlushEvent} (hok : f.Sendable ev)
    (hs : f.next asserts peerTimeoutMs ev = some g) : Inv start g := by
  have hst := h.stage
  unfold StageOk at hst
  cases ev with
  | drain items =>
    simp only [next] at hs
    split at hs
    next hstage =>
      rw [hstage] at hst
      split at hs
      next => cases hs; exact h
      next =>
        cases hs
        refine ⟨h.ring, hok, ⟨hst.1.idle, hst.1.count, [], rfl, ?_⟩, rfl⟩
        rw [hst.1.pending_nil (Ring.inv_of_reachable h.ring), List.append_nil, List.map_nil,
          List.append_nil]
        rfl
    next => cases hs
  | sample =>
    simp only [next] at hs
    split at hs
    next items hstage =>
      rw [hstage] at hst
      cases hs
      exact ⟨h.ring, h.sendable, hst⟩
    next => cases hs
  | iterate =>
    cases hstage : f.stage with
    | loop c => exact h.iterate hstage hs
    | _ => simp only [next, hstage] at hs; cases hs
  | fillPkt | fillByte =>
    simp only [next] at hs
    split at hs
    next c hstage =>
      rw [hstage] at hst
      obtain ⟨ring, hring, rfl⟩ := Option.map_eq_some_iff.mp hs
      exact ⟨Ring.reachable_next h.ring hring, h.sendable,
        hst.1.filled hst.2 (fun _ he => by cases he) (fun he => by cases he) hring⟩
    next => cases hs
  | publish => exact h.publish hs
  | check =>
    simp only [next] at hs
    split at hs
    next c hstage =>
      rw [hstage] at hst
      obtain ⟨hbooks, hdropped, hrefused⟩ := hst
      split at hs
      next hlate =>
        cases hs
        refine ⟨h.ring, h.sendable, hbooks, rfl, fun _ => ⟨hrefused, ?_⟩⟩
        simpa only [Bool.or_eq_true, decide_eq_true_eq] using hlate
      next => cases hs; exact ⟨h.ring, h.sendable, hbooks, hdropped⟩
    next => cases hs
  | notify =>
    simp only [next] at hs
    split at hs
    next hstage =>
      rw [hstage] at hst
      cases hs
      exact ⟨h.ring, h.sendable, hst⟩
    next => cases hs
  | consume ev =>
    simp only [next] at hs
    split at hs
    next => cases hs
    next hev =>
      obtain ⟨ring, hring, rfl⟩ := Option.map_eq_some_iff.mp hs
      exact ⟨Ring.reachable_next h.ring hring, h.sendable,
        h.stage.consume (Bool.not_eq_true _ ▸ hev) hring⟩
  | tick ns =>
    cases hs
    exact ⟨h.ring, h.sendable, h.stage.later (Nat.le_add_right _ _) id⟩
  | stop =>
    cases hs
    exact ⟨h.ring, h.sendable, h.stage.later (Nat.le_refl _) fun _ => rfl⟩

theorem inv_of_reachable
    (h : (machine asserts peerTimeoutMs start).ReachableWhile Sendable f) : Inv start f :=
  Machine.invariant (fun _ hf => .init hf) (fun _ _ _ hf hok hs => hf.step hok hs) h

/-- The number that the next `publish` is called with. -/
def publishes (f : Flusher) : Option UInt32 :=
  match f.stage with
  | .full c => some c.pending
  | .done c => if c.pending > 0 then some c.pending else none
  | _ => none

/-- **Flushing is exact** as long as every frame fits a slot. No assertion
fails: `publish` is called with the number of outstanding reservations, none of
them half filled, and every slot that is published and not released holds its
reply. The consumer has read what was published, entry by entry, and no more.
When the call is over, that is what was published before and then the replies
of the queue, each complete, once and in order, up to those that were given up;
and one was given up only when every slot was in use at the last attempt, at
the stop or past the deadline. -/
theorem flush_exact (h : (machine asserts peerTimeoutMs start).ReachableWhile Sendable f) :
    f.stage ≠ .aborted ∧
    (∀ n, f.publishes = some n → n = f.ring.prod.unpublished ∧ f.ring.writing = .idle) ∧
    (∀ i e, f.ring.released ≤ i → f.ring.published[i]? = some e →
      (f.ring.slots (cell start RspRing.slotCountBits i)).Holds e) ∧
    (f.ring.got = (f.ring.published.take f.ring.slotsRead).map Entry.raw ∧
      f.ring.slotsRead ≤ f.ring.published.length) ∧
    (f.stage = .outside →
      (∃ sent, f.taken = sent ++ f.dropped ∧
        f.ring.published.map Entry.raw = f.before.map Entry.raw ++ sent.map ReplyItem.raw) ∧
      (f.dropped ≠ [] → f.ring.published.length = f.refusedAt + 2 ^ RspRing.slotCountBits ∧
        (f.stopping = true ∨ f.deadline < f.clock))) := by
  have hinv := inv_of_reachable h
  have hring := Ring.inv_of_reachable hinv.ring
  have hok := hinv.stage
  unfold StageOk at hok
  refine ⟨?_, ?_, ?_, hring.got_eq, ?_⟩
  · intro habort
    rw [habort] at hok
    exact hok
  · intro n hn
    unfold publishes at hn
    split at hn
    next c hstage =>
      rw [hstage] at hok
      cases hn
      exact ⟨hok.1.count, hok.1.idle⟩
    next c hstage =>
      rw [hstage] at hok
      split at hn
      · cases hn
        exact ⟨hok.1.count, hok.1.idle⟩
      · cases hn
    next => cases hn
  · exact fun i e hlo hget => hring.published_holds hlo hget
  · intro hstage
    rw [hstage] at hok
    have hpending := hok.1.pending_nil hring
    obtain ⟨sent, htaken, hraw⟩ := hok.1.sent
    rw [hpending, List.append_nil] at hraw
    refine ⟨⟨sent, htaken, hraw⟩, fun hne => ?_⟩
    obtain ⟨hrefused, hlate⟩ := hok.2 hne
    unfold Refused Ring.reserved at hrefused
    rw [hpending] at hrefused
    exact ⟨hrefused, hlate⟩

/-- A new ring, and no call yet. -/
def fresh : Flusher where
  ring := Ring.attached RspRing 0 fun _ => ⟨⟨0, 0, 0, 0, 0, 0, 0⟩, fun _ => 0⟩
  stage := .outside
  deadline := 0
  clock := 0
  stopping := false
  fifo := 0
  before := []
  taken := []
  dropped := []
  refusedAt := 0

/-- A reply of one byte. -/
def small : ReplyItem := ⟨7, 1, false, [5], ⟨0, 7⟩⟩

/-- A reply that says nothing. -/
def blank : Entry RspRing := ⟨⟨0, 0, 0, 0, 0, 0, 0⟩, [], rfl, Nat.zero_le _⟩

/-- The new ring after `n` blank replies, which no one has read. -/
def unread (n : Nat) : Ring RspRing :=
  { fresh.ring with
    hdr := ⟨UInt32.ofNat n, 0⟩
    prod := ⟨UInt32.ofNat n, UInt32.ofNat n, 0⟩
    published := .replicate n blank }

theorem beginWrite_unread {n : Nat} (hn : n < 256) :
    ∃ slot, (unread n).prod.beginWrite RspRing (unread n).hdr =
      some (slot, ⟨UInt32.ofNat n + 1, UInt32.ofNat n, 1⟩) := by
  have hfree : ¬ UInt32.ofNat n - 0 = RspRing.kSlotCount := by
    intro hfull
    have htoNat := congrArg UInt32.toNat hfull
    rw [UInt32.sub_zero, UInt32.toNat_ofNat_of_lt' (Nat.lt_trans hn (by decide))] at htoNat
    exact absurd htoNat (Nat.ne_of_lt hn)
  exact ⟨_, if_neg hfree⟩

/-- A blank reply leaves the slots of `unread` as they are. -/
theorem unread_succ {n : Nat} (hn : n < 256) :
    (Ring.machine RspRing 0).play (unread n) [.beginWrite blank, .fillPkt, .publish] =
      some (unread (n + 1)) := by
  obtain ⟨slot, hslot⟩ := beginWrite_unread hn
  have hslots : Function.update (unread n).slots slot ⟨blank.pkt, ((unread n).slots slot).payload⟩ =
      (unread n).slots := Function.update_eq_self slot _
  have hcount : UInt32.ofNat n + 1 = UInt32.ofNat (n + 1) := (UInt32.ofNat_add n 1).symm
  have hpublish : (unread n).published ++ [blank] = (unread (n + 1)).published :=
    List.replicate_succ'.symm
  have hidle : (unread n).writing = .idle := rfl
  have hpending : (unread n).pending = [] := rfl
  have hdone : (0 = blank.payload.length) = True := eq_true rfl
  simp only [Machine.play, Ring.machine, Ring.next, hidle, hslot, Option.bind_some, Ring.setPkt,
    Ring.putNext, hslots, hdone, if_true, Producer.publish, Option.map_some, hpending,
    List.nil_append, hpublish, hcount]
  rfl

theorem unread_reachable {n : Nat} (hn : n ≤ 256) :
    (Ring.machine RspRing 0).Reachable (unread n) := by
  induction n with
  | zero => exact .start ⟨_, rfl⟩
  | succ n ih =>
    exact Machine.reachable_of_play (ih (Nat.le_of_succ_le hn)) (unread_succ hn)

/-- Four replies, for a ring in which two slots are free. -/
def four : List ReplyItem :=
  [small, ⟨7, 2, false, [], ⟨0, 7⟩⟩, ⟨8, 1, false, [6, 7], ⟨1, 8⟩⟩, ⟨9, 1, false, [8], ⟨2, 9⟩⟩]

/-- Two replies are filled in and published when the ring is full, the gateway
reads one slot, the third reply takes it, and the last one is given up when the
deadline is past. -/
def overflow : List FlushEvent :=
  [.drain four, .sample, .iterate, .fillPkt, .fillByte, .iterate, .fillPkt, .iterate, .publish,
    .consume (.popBatch 1), .consume .readPkt, .consume .release, .check,
    .iterate, .fillPkt, .fillByte, .fillByte, .iterate, .publish, .tick 4000000001, .check,
    .publish, .notify]

theorem flush_exact_overflow :
    ∃ f : Flusher, f.stage = .outside ∧ f.before.length = 254 ∧ f.taken = four ∧
      f.dropped = four.drop 3 ∧ f.ring.got = [blank.raw] ∧
      f.ring.published.map Entry.raw =
        f.before.map Entry.raw ++ (four.take 3).map ReplyItem.raw ∧
      f.ring.published.length = 257 ∧ f.refusedAt = 1 ∧ f.deadline < f.clock := by
  let start : Flusher := { fresh with ring := unread 254, before := (unread 254).published }
  have hstart : (machine true 3000 0).init start :=
    ⟨unread_reachable (by decide), rfl, rfl, rfl, rfl, rfl, rfl⟩
  obtain ⟨f, hreach, hstage, hbefore, htaken, hdropped, hgot, hrefused, hrunning⟩ :
      ∃ f, (machine true 3000 0).ReachableWhile Sendable f ∧ f.stage = .outside ∧
        f.before.length = 254 ∧ f.taken = four ∧ f.dropped = four.drop 3 ∧
        f.ring.got = [blank.raw] ∧ f.refusedAt = 1 ∧ f.stopping = false :=
    Machine.exists_of_playWhile (fun _ _ => of_decide_eq_true) start hstart overflow
      (by decide +kernel)
  obtain ⟨⟨sent, hsent, hpublished⟩, hgave⟩ := (flush_exact hreach).2.2.2.2 hstage
  have hfirst : four.take 3 = sent := by
    rw [htaken, hdropped, ← List.take_append_drop 3 four] at hsent
    exact List.append_cancel_right hsent
  obtain ⟨hlength, hlate⟩ := hgave (by rw [hdropped]; exact List.cons_ne_nil _ _)
  rw [hrefused] at hlength
  rw [hrunning] at hlate
  exact ⟨f, hstage, hbefore, htaken, hdropped, hgot, hfirst ▸ hpublished, hlength, hrefused,
    hlate.resolve_left Bool.false_ne_true⟩

/-! ## A frame that is too large -/

/-- A frame that is too large leaves a reservation behind. -/
theorem next_skip {r : ReplyItem} (hstage : f.stage = .loop c) (hitems : c.items = r :: rest)
    (hlarge : r.entry = none) {slot : Nat} {p : Producer}
    (hb : f.ring.prod.beginWrite RspRing f.ring.hdr = some (slot, p)) :
    f.next asserts peerTimeoutMs .iterate =
      some { f with ring := { f.ring with prod := p }, stage := .loop { c with items := rest } } := by
  simp only [next, hstage, hitems, hb, hlarge]

/-- One byte more than a slot holds. -/
def large : ReplyItem := ⟨7, 1, false, .replicate (RspRing.kPayloadMax + 1) 0, ⟨0, 7⟩⟩

/-- The call with a large reply before a small one, up to the small one. -/
def skips : List FlushEvent := [.drain [large, small], .sample, .iterate]

/-- The large reply is skipped, and its slot stays reserved. -/
def skipped : Flusher :=
  { fresh with
    ring := { fresh.ring with prod := ⟨1, 0, 1⟩ }
    stage := .loop ⟨true, [small], 0⟩
    deadline := fresh.clock + (3000 + 1000) * 1000000
    taken := [large, small] }

theorem play_skips (asserts : Bool) :
    (machine asserts 3000 0).play fresh skips = some skipped := by
  let begun : Flusher := { skipped with
    ring := fresh.ring, stage := .loop ⟨true, [large, small], 0⟩ }
  have hbegun : (machine asserts 3000 0).play fresh [.drain [large, small], .sample] =
      some begun := by
    with_unfolding_all rfl
  have hlarge : large.entry = none := by
    refine ReplyItem.entry_eq_none ?_
    rw [large, List.length_replicate]
    exact Nat.lt_succ_self _
  have hreserve : begun.ring.prod.beginWrite RspRing begun.ring.hdr = some (0, ⟨1, 0, 1⟩) := by
    decide +kernel
  have hskip : begun.next asserts 3000 .iterate = some skipped := next_skip rfl rfl hlarge hreserve
  have hskips : skips = [.drain [large, small], .sample] ++ [.iterate] := rfl
  rw [hskips, Machine.play_append, hbegun, Option.bind_some, Machine.play]
  change (begun.next asserts 3000 .iterate).bind _ = _
  rw [hskip]
  rfl

/-- The small reply is filled, counted and published. -/
def sends : List FlushEvent := [.iterate, .fillPkt, .fillByte, .iterate, .publish]

/-- With the assertion in `publish` the process ends; without it the consumer
is shown what the skipped slot held, and the small reply stays behind. -/
theorem oversize_shifts :
    (∃ f, (machine true 3000 0).play fresh (skips ++ sends) = some f ∧ f.stage = .aborted) ∧
    ∃ f, (machine false 3000 0).play fresh (skips ++ (sends ++ [.notify, .consume (.popBatch 64),
        .consume .readPkt, .consume .release])) = some f ∧
      f.stage = .outside ∧ f.dropped = [] ∧ f.ring.got = [(⟨0, 0, 0, 0, 0, 0, 0⟩, [])] := by
  simp only [Machine.play_append, play_skips, Option.bind_some]
  constructor
  · change ∃ f ∈ (machine true 3000 0).play skipped sends, _
    decide +kernel
  · change ∃ f ∈ ((machine false 3000 0).play skipped sends).bind _, _
    decide +kernel

end Flusher

end SharedBike.Dispatch
