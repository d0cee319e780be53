import SharedBike.Ipc.SpscLaws
import SharedBike.Wire.Protocol

/-!
# The notification of the request path

`server/src/ipc/ring_sink.cpp` and `ring_source.cpp`. Every worker of the
gateway has a request ring of its own; one reader in Dispatch empties all of
them. A worker that found its ring empty writes a byte into a FIFO after it
has published; the reader looks at the rings, spins, and goes into `poll` on
the FIFO when it found nothing.

`RequestPath` is every ring with both its sides, where each worker stands in
`handle`, the FIFO, and where the reader stands in `wait_pop`. A step touches
shared memory or the FIFO once, and the rings move by `Ring.next`, so each of
them is a run of the ring alone (`Inv.rings`).

The test "was the ring empty" and the publication are two steps. A worker that
saw an entry which the reader was about to release publishes without a byte,
and when the reader has looked at that ring for the last time before `poll` in
between, it goes to sleep over a request (`request_left_waiting`). `Timely`
excludes that publication; under it nothing waits behind a sleeping reader
(`no_lost_wakeup`). What ends the sleep otherwise is the time slice of `poll`.
-/

namespace SharedBike.Ipc

open SharedBike.Lib SharedBike.Wire Function

/-! ## `RingSink` -/

def kFlagOneWay : UInt16 := 0x1

/-- What `handle` is called with. -/
structure SinkRequest where
  connId : UInt64
  eventId : UInt16
  seq : UInt32
  payload : List UInt8
  deriving DecidableEq

/-- The packet and payload of a request; `none` is `MalformedIpcRequest`. -/
def SinkRequest.entry (req : SinkRequest) : Option (Entry ReqRing) :=
  if h : req.payload.length > ReqRing.kPayloadMax then none
  else some {
    pkt := ⟨req.connId, req.eventId, if req.eventId = ridePositionReport then kFlagOneWay else 0,
      req.seq, UInt32.ofNat req.payload.length, 0, 0⟩
    payload := req.payload
    len_eq := by
      have hlen : req.payload.length ≤ 4064 := Nat.not_lt.mp h
      rw [UInt32.toNat_ofNat_of_lt' (Nat.lt_of_le_of_lt hlen (by decide))]
    fits := Nat.not_lt.mp h }

/-- `Producer::empty` -/
def Producer.empty (p : Producer) (h : RingHeader) : Bool := p.headLocal - h.tail = 0

/-- Where a worker stands in `handle`, with what it knows of its ring. -/
inductive Handling where
  | outside
  | sampled (wasEmpty : Bool) (e : Entry ReqRing)
  /-- a slot is reserved -/
  | filling (wasEmpty : Bool)
  | published (wasEmpty : Bool)
  deriving DecidableEq

/-! ## `RingSource` -/

/-- The sweeps over the rings in one `wait_pop`: those before `poll`, by the
number of spins that are left, and the one behind it. -/
inductive Sweep where
  | before (left : Nat)
  | last
  deriving DecidableEq

/-- Where the reader stands. -/
inductive Source where
  /-- between two calls of `wait_pop` -/
  | outside
  /-- in `pop_once`, at the ring `k`, with so many slots read -/
  | popping (sweep : Sweep) (k : Nat) (total : UInt32)
  | polling
  /-- `poll` has returned; `wake` is readable or not -/
  | woken (wake : Bool)
  deriving DecidableEq

/-- What follows when `pop_once` returns. -/
def Source.popped (sweep : Sweep) (total : UInt32) : Source :=
  if total > 0 then .outside
  else
    match sweep with
    | .before (left + 1) => .popping (.before left) 0 0
    | .before 0 => .polling
    | .last => .outside

/-! ## Both -/

structure RequestPath (N : Nat) where
  rings : Fin N → Ring ReqRing
  workers : Fin N → Handling
  /-- the bytes in the FIFO -/
  fifo : Nat
  source : Source

/-- One step of a worker or of the reader. -/
inductive PathEvent (N : Nat) where
  | sample (i : Fin N) (req : SinkRequest)
  | beginWrite (i : Fin N)
  | fillPkt (i : Fin N)
  | fillByte (i : Fin N)
  | publish (i : Fin N)
  | notify (i : Fin N)
  | waitPop
  | popBatch
  | readPkt
  | readByte
  | release
  /-- a byte, the time slice, a signal, or `wake` -/
  | pollReturns (wake : Bool)
  | pollFails
  | drain

/-- How many bytes a FIFO holds. -/
def kFifoBytes : Nat := 65536

/-- `write1`: a FIFO that is full has a byte for the reader already. -/
def write1 (fifo : Nat) : Nat := if fifo < kFifoBytes then fifo + 1 else fifo

/-- The size of the batch that is being read. -/
def Ring.batchSize {S : RingShape} (r : Ring S) : UInt32 :=
  match r.reading with
  | .idle => 0
  | .batch n _ _ => n

namespace RequestPath

variable {N : Nat}

def setRing (s : RequestPath N) (i : Fin N) (r : Ring ReqRing) : RequestPath N :=
  { s with rings := update s.rings i r }

def setWorker (s : RequestPath N) (i : Fin N) (h : Handling) : RequestPath N :=
  { s with workers := update s.workers i h }

/-- A worker in the middle of `handle` does something to its ring. -/
def produce (s : RequestPath N) (i : Fin N) (ev : RingEvent ReqRing) (h : Handling) :
    Option (RequestPath N) :=
  ((s.rings i).next ev).map fun r => (s.setRing i r).setWorker i h

/-- The reader does something to the ring where it stands. -/
def consume (s : RequestPath N) (k : Nat) (ev : RingEvent ReqRing) (source : Source) :
    Option (RequestPath N) :=
  if h : k < N then
    ((s.rings ⟨k, h⟩).next ev).map fun r => { s.setRing ⟨k, h⟩ r with source := source }
  else none

/-- What `pop_batch` answers at the ring `k`. -/
def popSize (s : RequestPath N) (k : Nat) : UInt32 :=
  if h : k < N then (s.rings ⟨k, h⟩).cons.popBatch ReqRing (s.rings ⟨k, h⟩).hdr 64 else 0

/-- The size of the batch that is being read at the ring `k`. -/
def batchSize (s : RequestPath N) (k : Nat) : UInt32 :=
  if h : k < N then (s.rings ⟨k, h⟩).batchSize else 0

def next (spinTries : Nat) (s : RequestPath N) : PathEvent N → Option (RequestPath N)
  | .sample i req =>
    match s.workers i, req.entry with
    | .outside, none => some s
    | .outside, some e =>
      some (s.setWorker i (.sampled ((s.rings i).prod.empty (s.rings i).hdr) e))
    | _, _ => none
  | .beginWrite i =>
    match s.workers i with
    | .sampled wasEmpty e =>
      match (s.rings i).prod.beginWrite ReqRing (s.rings i).hdr with
      -- `SinkOverload`
      | none => some (s.setWorker i .outside)
      | some _ => s.produce i (.beginWrite e) (.filling wasEmpty)
    | _ => none
  | .fillPkt i =>
    match s.workers i with
    | .filling wasEmpty => s.produce i .fillPkt (.filling wasEmpty)
    | _ => none
  | .fillByte i =>
    match s.workers i with
    | .filling wasEmpty => s.produce i .fillByte (.filling wasEmpty)
    | _ => none
  | .publish i =>
    match s.workers i with
    | .filling wasEmpty => s.produce i .publish (.published wasEmpty)
    | _ => none
  | .notify i =>
    match s.workers i with
    | .published wasEmpty =>
      some { s.setWorker i .outside with fifo := if wasEmpty then write1 s.fifo else s.fifo }
    | _ => none
  | .waitPop =>
    match s.source with
    | .outside => some { s with source := .popping (.before spinTries) 0 0 }
    | _ => none
  | .popBatch =>
    match s.source with
    | .popping sweep k total =>
      if k < N then
        -- the ring is done when there is nothing more in it
        s.consume k (.popBatch 64) (.popping sweep (if s.popSize k = 0 then k + 1 else k) total)
      else some { s with source := .popped sweep total }
    | _ => none
  | .readPkt =>
    match s.source with
    | .popping sweep k total => s.consume k .readPkt (.popping sweep k total)
    | _ => none
  | .readByte =>
    match s.source with
    | .popping sweep k total => s.consume k .readByte (.popping sweep k total)
    | _ => none
  | .release =>
    match s.source with
    | .popping sweep k total =>
      s.consume k .release (.popping sweep k (total + s.batchSize k))
    | _ => none
  | .pollReturns wake =>
    match s.source with
    | .polling => some { s with source := .woken wake }
    | _ => none
  | .pollFails =>
    match s.source with
    | .polling => some { s with source := .outside }
    | _ => none
  | .drain =>
    match s.source with
    | .woken wake =>
      some { s with fifo := 0, source := if wake then .outside else .popping .last 0 0 }
    | _ => none

/-- All interleavings, from rings that both sides have attached to. What an
earlier process left in the FIFO does not matter. -/
def machine (spinTries : Nat) (start : Fin N → UInt32) :
    Machine (RequestPath N) (PathEvent N) where
  init s := (∀ i, ∃ slots, s.rings i = Ring.attached ReqRing (start i) slots) ∧
    (∀ i, s.workers i = .outside) ∧ s.source = .outside
  next := next spinTries

/-! ## What wakes the reader -/

end RequestPath

/-- Something is published and not released. -/
def Ring.Waiting {S : RingShape} (r : Ring S) : Prop := r.published.length ≠ r.released

/-- The reader does not look at the ring `i` again before it is in `poll`. -/
def Source.Passed : Source → Nat → Prop
  | .polling, _ => True
  | .popping (.before 0) k _, i => i < k
  | _, _ => False

instance (source : Source) (i : Nat) : Decidable (source.Passed i) := by
  unfold Source.Passed
  split <;> infer_instance

/-- The worker has a slot and will write a byte. -/
def Handling.Notifies : Handling → Prop
  | .filling wasEmpty => wasEmpty = true
  | .published wasEmpty => wasEmpty = true
  | _ => False

instance (w : Handling) : Decidable w.Notifies := by
  unfold Handling.Notifies
  split <;> infer_instance

namespace RequestPath

variable {N : Nat} {spinTries : Nat} {start : Fin N → UInt32} {s t : RequestPath N}
  {ev : RingEvent ReqRing} {i : Fin N} {source : Source} {k : Nat} {w : Handling} {sweep : Sweep}

/-- There is a byte in the FIFO, or there will be. -/
def Rung (s : RequestPath N) : Prop := 0 < s.fifo ∨ ∃ j, (s.workers j).Notifies

/-- A worker that found its ring in use does not publish behind the reader's
back. -/
def Timely (s : RequestPath N) : PathEvent N → Prop
  | .publish i => s.workers i = .filling false → s.source.Passed i → s.Rung
  | _ => True

instance (s : RequestPath N) (e : PathEvent N) : Decidable (s.Timely e) := by
  unfold Timely Rung
  split <;> infer_instance

/-- Every ring is a run of the ring alone, and the reader passes over an entry
only when a byte is there or comes. -/
structure Inv (start : Fin N → UInt32) (s : RequestPath N) : Prop where
  rings : ∀ i, (Ring.machine ReqRing (start i)).Reachable (s.rings i)
  covered : ∀ i : Fin N, s.source.Passed i → (s.rings i).Waiting → s.Rung

theorem produce_eq_some :
    s.produce i ev w = some t ↔
      ∃ r, (s.rings i).next ev = some r ∧ (s.setRing i r).setWorker i w = t :=
  Option.map_eq_some_iff

theorem consume_eq_some :
    s.consume k ev source = some t ↔ ∃ (h : k < N) (r : Ring ReqRing),
      (s.rings ⟨k, h⟩).next ev = some r ∧ { s.setRing ⟨k, h⟩ r with source := source } = t := by
  unfold consume
  split
  next h => simp only [Option.map_eq_some_iff, h, exists_true_left]
  next h => simp only [h, reduceCtorEq, false_iff, not_exists, IsEmpty.forall_iff]

theorem Rung.setWorker (h : s.Rung) (hkeep : (s.workers i).Notifies → w.Notifies) :
    (s.setWorker i w).Rung := by
  rcases h with hbyte | ⟨j, hj⟩
  · exact .inl hbyte
  · refine .inr ⟨j, ?_⟩
    by_cases hji : j = i
    · subst hji
      simpa only [RequestPath.setWorker, update_self] using hkeep hj
    · simpa only [RequestPath.setWorker, update_of_ne hji] using hj

theorem reachable_setRing (h : ∀ i, (Ring.machine ReqRing (start i)).Reachable (s.rings i))
    {k : Fin N} {r : Ring ReqRing} (hr : (s.rings k).next ev = some r) (i : Fin N) :
    (Ring.machine ReqRing (start i)).Reachable ((s.setRing k r).rings i) := by
  by_cases hik : i = k
  · subst hik
    simpa only [setRing, update_self] using .step (h i) trivial hr
  · simpa only [setRing, update_of_ne hik] using h i

namespace Inv

theorem init (h : (machine spinTries start).init s) : Inv start s where
  rings i := .start (h.1 i)
  covered i hpassed := by
    rw [h.2.2] at hpassed
    exact absurd hpassed id

section

variable (h : Inv start s)

include h

theorem setWorker (hkeep : (s.workers i).Notifies → w.Notifies) :
    Inv start (s.setWorker i w) where
  rings := h.rings
  covered j hpassed hwaiting := (h.covered j hpassed hwaiting).setWorker hkeep

/-- A worker's step in its ring that publishes nothing. -/
theorem produce (hs : s.produce i ev w = some t) (hpublish : ev ≠ .publish)
    (hrelease : ev ≠ .release) (hkeep : (s.workers i).Notifies → w.Notifies) : Inv start t := by
  obtain ⟨r, hr, rfl⟩ := produce_eq_some.mp hs
  refine ⟨reachable_setRing h.rings hr, ?_⟩
  intro j hpassed hwaiting
  refine Rung.setWorker (s := s.setRing i r) (h.covered j hpassed ?_) hkeep
  by_cases hji : j = i
  · subst hji
    obtain ⟨hpub, hrel⟩ := Ring.next_queue hr hpublish hrelease
    simpa only [RequestPath.setWorker, setRing, update_self, Ring.Waiting, hpub, hrel]
      using hwaiting
  · simpa only [RequestPath.setWorker, setRing, update_of_ne hji] using hwaiting

theorem publish {wasEmpty : Bool}
    (hs : s.produce i .publish (.published wasEmpty) = some t)
    (hworker : s.workers i = .filling wasEmpty)
    (htimely : s.workers i = .filling false → s.source.Passed i → s.Rung) : Inv start t := by
  obtain ⟨r, hr, rfl⟩ := produce_eq_some.mp hs
  have hkeep : (s.workers i).Notifies → (Handling.published wasEmpty).Notifies := by
    rw [hworker]
    exact id
  refine ⟨reachable_setRing h.rings hr, ?_⟩
  intro j hpassed hwaiting
  refine Rung.setWorker (s := s.setRing i r) ?_ hkeep
  by_cases hji : j = i
  · subst hji
    cases wasEmpty with
    | false => exact htimely hworker hpassed
    | true => exact .inr ⟨j, by rw [setRing, hworker]; rfl⟩
  · refine h.covered j hpassed ?_
    simpa only [RequestPath.setWorker, setRing, update_of_ne hji] using hwaiting

theorem notify {wasEmpty : Bool} (hworker : s.workers i = .published wasEmpty) :
    Inv start
      { s.setWorker i .outside with fifo := if wasEmpty then write1 s.fifo else s.fifo } := by
  refine ⟨h.rings, ?_⟩
  intro j hpassed hwaiting
  cases wasEmpty with
  | true =>
    refine .inl ?_
    show 0 < write1 s.fifo
    unfold write1 kFifoBytes
    split <;> omega
  | false =>
    refine Rung.setWorker (h.covered j hpassed hwaiting) ?_
    rw [hworker]
    exact fun hfalse => absurd hfalse Bool.false_ne_true

/-- The reader passes over no ring that is not empty. -/
theorem moveSource {fifo : Nat}
    (hpassed : ∀ i : Fin N, source.Passed i → s.source.Passed i)
    (hfifo : fifo = s.fifo ∨ ∀ i : Fin N, ¬ source.Passed i) :
    Inv start { s with source := source, fifo := fifo } := by
  refine ⟨h.rings, ?_⟩
  intro i hi hwaiting
  rcases hfifo with rfl | hnone
  · exact h.covered i (hpassed i hi) hwaiting
  · exact absurd hi (hnone i)

theorem consume (hs : s.consume k ev source = some t)
    (hpassed : ∀ i : Fin N, source.Passed i → (i.val ≠ k ∧ s.source.Passed i) ∨
      ¬ (t.rings i).Waiting) :
    Inv start t := by
  obtain ⟨hk, r, hr, rfl⟩ := consume_eq_some.mp hs
  refine ⟨reachable_setRing h.rings hr, ?_⟩
  intro i hi hwaiting
  rcases hpassed i hi with ⟨hik, hold⟩ | hempty
  · refine h.covered i hold ?_
    have hne : i ≠ ⟨k, hk⟩ := fun heq => hik (congrArg Fin.val heq)
    simpa only [setRing, update_of_ne hne] using hwaiting
  · exact absurd hwaiting hempty

/-- What the reader does to the ring where it stays. -/
theorem consumeHere {total total' : UInt32}
    (hsource : s.source = .popping sweep k total)
    (hs : s.consume k ev (.popping sweep k total') = some t) : Inv start t := by
  refine h.consume hs fun i hi => .inl ?_
  rw [hsource]
  match sweep, hi with
  | .before 0, hi => exact ⟨Nat.ne_of_lt hi, hi⟩

/-- A ring at which `pop_batch` answers 0 is empty. -/
theorem popBatch_empty (hsize : s.popSize k = 0)
    (hs : s.consume k (.popBatch 64) source = some t) (hi : i.val = k) :
    ¬ (t.rings i).Waiting := by
  obtain ⟨hk, r, hr, rfl⟩ := consume_eq_some.mp hs
  subst hi
  have hinv := Ring.inv_of_reachable (h.rings ⟨i, hk⟩)
  obtain ⟨hpub, hrel⟩ := Ring.next_queue hr (by nofun) (by nofun)
  simp only [popSize, hk, dite_true] at hsize
  have hdiff := (hinv.popBatch_eq_zero_iff (by decide)).mp hsize
  have hle := hinv.released_le
  simp only [setRing, update_self, Ring.Waiting, hpub, hrel, not_not]
  omega

end

/-- The rings that the reader has passed when it is at the next one. -/
theorem passed_succ {total : UInt32} {i : Nat} (h : (Source.popping sweep (k + 1) total).Passed i) :
    i = k ∨ (i ≠ k ∧ (Source.popping sweep k total).Passed i) := by
  match sweep, h with
  | .before 0, h =>
    rcases Nat.lt_succ_iff_lt_or_eq.mp h with hlt | heq
    · exact .inr ⟨Nat.ne_of_lt hlt, hlt⟩
    · exact .inl heq

theorem passed_popped {total : UInt32} (hk : ¬ k < N) (h : (Source.popped sweep total).Passed i) :
    (Source.popping sweep k total).Passed i := by
  unfold Source.popped at h
  split at h
  · exact absurd h id
  · match sweep, h with
    | .before 0, _ => exact Nat.lt_of_lt_of_le i.isLt (Nat.not_lt.mp hk)
    | .before (left + 1), h => cases left <;> exact absurd h (by simp [Source.Passed])
    | .last, h => exact absurd h id

/-- A timely step keeps the invariant. -/
theorem step (h : Inv start s) {e : PathEvent N} (htimely : s.Timely e)
    (hs : s.next spinTries e = some t) : Inv start t := by
  cases e with
  | sample i req =>
    simp only [next] at hs
    split at hs
    next => cases hs; exact h
    next hworker _ =>
      cases hs
      refine h.setWorker ?_
      rw [hworker]
      exact id
    next => cases hs
  | beginWrite i =>
    simp only [next] at hs
    split at hs
    next hworker =>
      have hkeep : ∀ w, (s.workers i).Notifies → Handling.Notifies w := by
        rw [hworker]
        exact fun _ hfalse => absurd hfalse id
      split at hs
      · cases hs
        exact h.setWorker (hkeep _)
      · exact h.produce hs (by nofun) (by nofun) (hkeep _)
    next => cases hs
  | fillPkt i | fillByte i =>
    simp only [next] at hs
    split at hs
    next hworker => exact h.produce hs (by nofun) (by nofun) (by rw [hworker]; exact id)
    next => cases hs
  | publish i =>
    simp only [next] at hs
    split at hs
    next hworker => exact h.publish hs hworker htimely
    next => cases hs
  | notify i =>
    simp only [next] at hs
    split at hs
    next hworker => cases hs; exact h.notify hworker
    next => cases hs
  | waitPop =>
    simp only [next] at hs
    split at hs
    next =>
      cases hs
      have hnone : ∀ i, ¬ (Source.popping (.before spinTries) 0 0).Passed i := by
        intro i hi
        cases spinTries with
        | zero => exact Nat.not_lt_zero i hi
        | succ left => exact hi
      exact h.moveSource (fun i hi => absurd hi (hnone i)) (.inl rfl)
    next => cases hs
  | popBatch =>
    simp only [next] at hs
    split at hs
    next sweep k total hsource =>
      split at hs
      next =>
        by_cases hsize : s.popSize k = 0
        · rw [if_pos hsize] at hs
          refine h.consume hs fun i hi => ?_
          rw [hsource]
          rcases passed_succ hi with heq | hold
          · exact .inr (h.popBatch_empty hsize hs heq)
          · exact .inl hold
        · rw [if_neg hsize] at hs
          exact h.consumeHere hsource hs
      next hk =>
        cases hs
        refine h.moveSource (fun i hi => ?_) (.inl rfl)
        rw [hsource]
        exact passed_popped hk hi
    next => cases hs
  | readPkt | readByte | release =>
    simp only [next] at hs
    split at hs
    next hsource => exact h.consumeHere hsource hs
    next => cases hs
  | pollReturns wake | pollFails =>
    simp only [next] at hs
    split at hs
    next =>
      cases hs
      exact h.moveSource (fun _ hi => absurd hi id) (.inl rfl)
    next => cases hs
  | drain =>
    simp only [next] at hs
    split at hs
    next wake _ =>
      cases hs
      have hnone : ∀ i, ¬ (if wake then Source.outside else .popping .last 0 0).Passed i := by
        cases wake <;> exact fun _ => id
      exact h.moveSource (fun i hi => absurd hi (hnone i)) (.inr fun i => hnone i)
    next => cases hs

end Inv

theorem inv_of_reachable (h : (machine spinTries start).ReachableWhile Timely s) : Inv start s :=
  Machine.invariant (fun _ hs => .init hs) (fun _ _ _ hs hok ht => hs.step hok ht) h

/-- When the reader sleeps, the FIFO is empty and no worker is at work, there is
no request in any ring. -/
theorem no_lost_wakeup (h : (machine spinTries start).ReachableWhile Timely s)
    (hpoll : s.source = .polling) (hfifo : s.fifo = 0) (hidle : ∀ i, s.workers i = .outside)
    (i : Fin N) : (s.rings i).hdr.head = (s.rings i).hdr.tail := by
  have hinv := inv_of_reachable h
  have hring := Ring.inv_of_reachable (hinv.rings i)
  have hempty : ¬ (s.rings i).Waiting := by
    intro hwaiting
    rcases hinv.covered i (by rw [hpoll]; trivial) hwaiting with hbyte | ⟨j, hj⟩
    · exact absurd hfifo (Nat.pos_iff_ne_zero.mp hbyte)
    · rw [hidle j] at hj
      exact hj
  rw [hring.head, hring.tail, not_not.mp hempty]

/-! ## One ring, step by step -/

/-- Both sides have attached to one ring. -/
def fresh : RequestPath 1 where
  rings _ := Ring.attached ReqRing 0 fun _ => ⟨⟨0, 0, 0, 0, 0, 0, 0⟩, fun _ => 0⟩
  workers _ := .outside
  fifo := 0
  source := .outside

theorem fresh_init : (machine 64 fun _ => 0).init fresh :=
  ⟨fun _ => ⟨_, rfl⟩, fun _ => rfl, rfl⟩

/-- `wait_pop` up to `poll`, with all its spins, when there is nothing. -/
def fruitless : List (PathEvent 1) := .waitPop :: .replicate 130 .popBatch

/-- A request without a payload is put into the ring; the sample comes before. -/
def delivered : List (PathEvent 1) := [.beginWrite 0, .fillPkt 0, .publish 0, .notify 0]

/-- `wait_pop` that is woken by the byte and returns without a request. -/
def woken : List (PathEvent 1) := [.pollReturns false, .drain, .popBatch, .popBatch]

/-- A request is put in and taken out, and the reader sleeps. -/
theorem no_lost_wakeup_after_one :
    ∃ s : RequestPath 1, s.source = .polling ∧ s.fifo = 0 ∧ (s.rings 0).hdr = ⟨1, 1⟩ ∧
      (s.rings 0).hdr.head = (s.rings 0).hdr.tail := by
  obtain ⟨s, hreach, hpoll, hfifo, hidle, hhdr⟩ :
      ∃ s : RequestPath 1, (machine 64 fun _ => 0).ReachableWhile Timely s ∧ s.source = .polling ∧
        s.fifo = 0 ∧ (∀ i, s.workers i = .outside) ∧ (s.rings 0).hdr = ⟨1, 1⟩ :=
    Machine.exists_of_playWhile (fun _ _ => of_decide_eq_true) fresh fresh_init
      ([.sample 0 ⟨7, 1, 1, []⟩] ++ delivered ++
        [.waitPop, .popBatch, .readPkt, .release, .popBatch, .popBatch] ++ fruitless ++ woken ++
        fruitless) (by decide +kernel)
  exact ⟨s, hpoll, hfifo, hhdr, no_lost_wakeup hreach hpoll hfifo hidle 0⟩

/-- The worker samples while the reader still holds the first request, and
publishes when the reader is asleep. -/
theorem request_left_waiting :
    ∃ s : RequestPath 1, (machine 64 fun _ => 0).Reachable s ∧ s.source = .polling ∧
      s.fifo = 0 ∧ (∀ i, s.workers i = .outside) ∧ (s.rings 0).hdr = ⟨2, 1⟩ :=
  Machine.exists_of_play fresh fresh_init
    ([.sample 0 ⟨7, 1, 1, []⟩] ++ delivered ++
      [.waitPop, .popBatch, .readPkt, .sample 0 ⟨7, 1, 2, []⟩, .release, .popBatch, .popBatch] ++
      fruitless ++ woken ++ fruitless ++ delivered) (by decide +kernel)

end RequestPath

end SharedBike.Ipc
