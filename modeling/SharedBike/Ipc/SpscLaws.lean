import SharedBike.Ipc.SpscRing

/-!
# The ring is a lossless queue

`Ring.Inv` relates the five counters to three natural numbers: how many
entries were published, how many reservations are outstanding, how many
slots were given back. Every 32-bit comparison of the code is then a
comparison of naturals (`Lib.counterAt_sub_toNat`), and the cell each
side touches is `Lib.cell` of a count. The window `[released, released +
2 ^ k)` holds every cell in use, so the two sides never meet in one slot:
a slot that is being written lies beyond every published count.

`Ring.Step` says once what a step can do; what one step keeps is proved along its
cases, the run by `Machine.invariant`.
`spsc_lossless_fifo` reads the four promises off the invariant.
-/

namespace SharedBike.Ipc

open SharedBike.Lib Function

/-- A slot holds an entry: its packet, and its bytes up to the announced
length. What an earlier, longer write left behind them is not read. -/
def Slot.Holds {S : RingShape} (slot : Slot) (e : Entry S) : Prop :=
  slot.pkt = e.pkt ∧ ∀ (j : Nat) (b : UInt8), e.payload[j]? = some b → slot.payload j = b

/-- The steps of the producer. -/
def RingEvent.produces {S : RingShape} : RingEvent S → Bool
  | .beginWrite _ | .fillPkt | .fillByte | .publish => true
  | .popBatch _ | .readPkt | .readByte | .release => false

namespace Ring

variable {S : RingShape} {start : UInt32}

/-- How many entries were reserved so far. -/
def reserved (r : Ring S) : Nat := r.published.length + r.pending.length

/-- How many of the reserved entries are completely filled. -/
def filled (r : Ring S) : Nat :=
  match r.writing with
  | .idle => r.reserved
  | _ => r.reserved - 1

/-- What the producer has moved so far into the slot it is filling. -/
def WritingOk (start : UInt32) (r : Ring S) : Prop :=
  match r.writing with
  | .idle => True
  | .header slot e =>
    r.pending.getLast? = some e ∧ slot = cell start S.slotCountBits (r.reserved - 1)
  | .bytes slot e done =>
    r.pending.getLast? = some e ∧ slot = cell start S.slotCountBits (r.reserved - 1) ∧
      (r.slots slot).pkt = e.pkt ∧
      ∀ (j : Nat) (b : UInt8), j < done → e.payload[j]? = some b → (r.slots slot).payload j = b

/-- What the consumer has copied so far, and where its batch ends. -/
def ReadingOk (start : UInt32) (r : Ring S) : Prop :=
  match r.reading with
  | .idle => r.got = (r.published.take r.released).map Entry.raw
  | .batch n done copy =>
    done ≤ n.toNat ∧ r.released + n.toNat ≤ r.published.length ∧
      cell start S.slotCountBits r.released + n.toNat ≤ 2 ^ S.slotCountBits ∧
      r.got = (r.published.take (r.released + done)).map Entry.raw ∧
      ∀ pkt bytes, copy = some (pkt, bytes) → done < n.toNat ∧
        ∃ e, r.published[r.released + done]? = some e ∧ pkt = e.pkt ∧
          bytes = e.payload.take bytes.length ∧ bytes.length < e.payload.length

/-- The invariant. The first six fields are the counters. -/
structure Inv (start : UInt32) (r : Ring S) : Prop where
  headLocal : r.prod.headLocal = counterAt start r.reserved
  headPublished : r.prod.headPublished = counterAt start r.published.length
  unpublished : r.prod.unpublished = UInt32.ofNat r.pending.length
  head : r.hdr.head = counterAt start r.published.length
  tailLocal : r.cons.tailLocal = counterAt start r.released
  tail : r.hdr.tail = counterAt start r.released
  released_le : r.released ≤ r.published.length
  window : r.reserved ≤ r.released + 2 ^ S.slotCountBits
  holds : ∀ i e, r.released ≤ i → i < r.filled → (r.published ++ r.pending)[i]? = some e →
    (r.slots (cell start S.slotCountBits i)).Holds e
  writing : r.WritingOk start
  reading : r.ReadingOk start

/-! ## What the code computes, under the invariant -/

theorem two_pow_bits_lt (S : RingShape) : 2 ^ S.slotCountBits < 2 ^ 32 :=
  Nat.pow_lt_pow_right (by omega) (by have := S.bits_le; omega)

theorem kSlotCount_toNat (S : RingShape) : S.kSlotCount.toNat = 2 ^ S.slotCountBits :=
  tableSize_toNat S.bits_le

variable {r : Ring S} {ev : RingEvent S} {e : Entry S} {t : Ring S} {p : Producer}

theorem published_le_reserved (r : Ring S) : r.published.length ≤ r.reserved := by
  unfold reserved
  omega

/-- `begin_write` refuses exactly when the reserved and unreleased slots fill
the ring. -/
theorem Inv.beginWrite_none_iff (h : Inv start r) :
    r.prod.beginWrite S r.hdr = none ↔ r.reserved - r.released = 2 ^ S.slotCountBits := by
  have hw := h.window
  have hlt := two_pow_bits_lt S
  have hge := r.published_le_reserved
  have hle := h.released_le
  have hdiff : (r.prod.headLocal - r.hdr.tail).toNat = r.reserved - r.released := by
    rw [h.headLocal, h.tail]
    exact counterAt_sub_toNat start (by omega) (by omega)
  unfold Producer.beginWrite
  rw [← hdiff, ← kSlotCount_toNat S, UInt32.toNat_inj]
  by_cases hf : r.prod.headLocal - r.hdr.tail = S.kSlotCount
  · simp only [hf, if_true]
  · rw [if_neg hf]
    simp only [reduceCtorEq, hf]

/-- A reservation takes the cell of the next count. -/
theorem Inv.beginWrite_some (h : Inv start r) {slot : Nat}
    (hb : r.prod.beginWrite S r.hdr = some (slot, p)) :
    r.reserved < r.released + 2 ^ S.slotCountBits ∧ slot = cell start S.slotCountBits r.reserved ∧
      p = ⟨counterAt start (r.reserved + 1), r.prod.headPublished,
        UInt32.ofNat (r.pending.length + 1)⟩ := by
  have hfree : r.reserved - r.released ≠ 2 ^ S.slotCountBits := by
    intro hfull
    rw [h.beginWrite_none_iff.mpr hfull] at hb
    cases hb
  have hw := h.window
  have hge := r.published_le_reserved
  have hle := h.released_le
  unfold Producer.beginWrite at hb
  split at hb
  · cases hb
  · cases hb
    refine ⟨by omega, ?_, ?_⟩
    · rw [h.headLocal]
      exact counterAt_mask S.bits_le start _
    · rw [h.headLocal, h.unpublished, counterAt_succ, UInt32.ofNat_add]
      rfl

theorem Inv.firstSlot (h : Inv start r) :
    r.cons.firstSlot S = cell start S.slotCountBits r.released := by
  rw [Consumer.firstSlot, h.tailLocal]
  exact counterAt_mask S.bits_le start _

/-- `pop_batch` as naturals: the request, what is published and unreleased,
and the room up to the end of the array. -/
theorem Inv.popBatch_toNat (h : Inv start r) (max : UInt32) :
    (r.cons.popBatch S r.hdr max).toNat =
      min (min max.toNat (r.published.length - r.released))
        (2 ^ S.slotCountBits - cell start S.slotCountBits r.released) := by
  have hlt := two_pow_bits_lt S
  have hw := h.window
  have hge := r.published_le_reserved
  have hle := h.released_le
  have hcell := cell_lt start S.slotCountBits r.released
  have hmask : (r.cons.tailLocal &&& S.kMask).toNat = cell start S.slotCountBits r.released :=
    h.firstSlot
  have hend : (S.kSlotCount - (r.cons.tailLocal &&& S.kMask)).toNat =
      2 ^ S.slotCountBits - cell start S.slotCountBits r.released := by
    rw [UInt32.toNat_sub_of_le, kSlotCount_toNat, hmask]
    rw [UInt32.le_iff_toNat_le, kSlotCount_toNat, hmask]
    omega
  have hdiff : (r.hdr.head - r.cons.tailLocal).toNat = r.published.length - r.released := by
    rw [h.head, h.tailLocal]
    exact counterAt_sub_toNat start hle (by omega)
  rw [Consumer.popBatch, UInt32.toNat_min, UInt32.toNat_min, hdiff, hend]

/-- `pop_batch` answers 0 exactly when nothing is published and unreleased. -/
theorem Inv.popBatch_eq_zero_iff (h : Inv start r) {max : UInt32} (hmax : 1 ≤ max.toNat) :
    r.cons.popBatch S r.hdr max = 0 ↔ r.published.length - r.released = 0 := by
  have hcell := cell_lt start S.slotCountBits r.released
  rw [← UInt32.toNat_inj, h.popBatch_toNat]
  change min _ _ = 0 ↔ _
  omega

/-! ## What a step can do -/

/-- The steps of `next`, with what each one found. -/
inductive Step (r : Ring S) : RingEvent S → Ring S → Prop
  | full {e : Entry S} (hidle : r.writing = .idle) (hfull : r.prod.beginWrite S r.hdr = none) :
    r.Step (.beginWrite e) r
  | reserve {e : Entry S} {slot : Nat} {p : Producer} (hidle : r.writing = .idle)
    (hb : r.prod.beginWrite S r.hdr = some (slot, p)) :
    r.Step (.beginWrite e)
      { r with prod := p, writing := .header slot e, pending := r.pending ++ [e] }
  | fillPkt {slot : Nat} {e : Entry S} (hw : r.writing = .header slot e) :
    r.Step .fillPkt ((r.setPkt slot e.pkt).putNext slot e 0)
  | fillByte {slot done : Nat} {e : Entry S} {b : UInt8} (hw : r.writing = .bytes slot e done)
    (hb : e.payload[done]? = some b) :
    r.Step .fillByte ((r.setByte slot done b).putNext slot e (done + 1))
  | publish {p : Producer} {hdr : RingHeader} (hidle : r.writing = .idle)
    (hp : r.prod.publish r.prod.unpublished r.hdr = some (p, hdr)) :
    r.Step .publish
      { r with prod := p, hdr := hdr, published := r.published ++ r.pending, pending := [] }
  | empty {max : UInt32} (hidle : r.reading = .idle) (hn : r.cons.popBatch S r.hdr max = 0) :
    r.Step (.popBatch max) r
  | batch {max : UInt32} (hidle : r.reading = .idle) (hn : r.cons.popBatch S r.hdr max ≠ 0) :
    r.Step (.popBatch max) { r with reading := .batch (r.cons.popBatch S r.hdr max) 0 none }
  | readPkt {n : UInt32} {done : Nat} (hread : r.reading = .batch n done none)
    (hlt : done < n.toNat) :
    r.Step .readPkt (r.takeNext n done (r.slots (r.cons.firstSlot S + done)).pkt [])
  | readByte {n : UInt32} {done : Nat} {pkt : IpcPacket} {bytes : List UInt8}
    (hread : r.reading = .batch n done (some (pkt, bytes))) :
    r.Step .readByte (r.takeNext n done pkt
      (bytes ++ [(r.slots (r.cons.firstSlot S + done)).payload bytes.length]))
  | release {n : UInt32} (hread : r.reading = .batch n n.toNat none) :
    r.Step .release { r with
      cons := (r.cons.release n r.hdr).1, hdr := (r.cons.release n r.hdr).2
      reading := .idle, released := r.released + n.toNat }

theorem step_of_next (hs : r.next ev = some t) : r.Step ev t := by
  cases ev with
  | beginWrite e =>
    simp only [next] at hs
    split at hs
    case h_1 hidle =>
      split at hs
      case h_1 hfull => cases hs; exact .full hidle hfull
      case h_2 slot p hb => cases hs; exact .reserve hidle hb
    case h_2 => cases hs
  | fillPkt =>
    simp only [next] at hs
    split at hs
    case h_1 slot e hw => cases hs; exact .fillPkt hw
    case h_2 => cases hs
  | fillByte =>
    simp only [next] at hs
    split at hs
    case h_1 slot e done hw =>
      obtain ⟨b, hb, rfl⟩ := Option.map_eq_some_iff.mp hs
      exact .fillByte hw hb
    case h_2 => cases hs
  | publish =>
    simp only [next] at hs
    split at hs
    case h_1 hidle =>
      obtain ⟨⟨p, hdr⟩, hp, rfl⟩ := Option.map_eq_some_iff.mp hs
      exact .publish hidle hp
    case h_2 => cases hs
  | popBatch max =>
    simp only [next] at hs
    split at hs
    case h_1 hidle =>
      cases hs
      split
      case isTrue hn => exact .empty hidle hn
      case isFalse hn => exact .batch hidle hn
    case h_2 => cases hs
  | readPkt =>
    simp only [next] at hs
    split at hs
    case h_1 n done hread =>
      split at hs
      case isTrue hlt => cases hs; exact .readPkt hread hlt
      case isFalse => cases hs
    case h_2 => cases hs
  | readByte =>
    simp only [next] at hs
    split at hs
    case h_1 n done pkt bytes hread => cases hs; exact .readByte hread
    case h_2 => cases hs
  | release =>
    simp only [next] at hs
    split at hs
    case h_1 n done hread =>
      split at hs
      case isTrue hdone =>
        cases hs
        subst hdone
        exact .release hread
      case isFalse => cases hs
    case h_2 => cases hs

/-- A copied piece moves the reader and what it has got, nothing else. -/
theorem takeNext_frame (n : UInt32) (done : Nat) (pkt : IpcPacket) (bytes : List UInt8) :
    ∃ copy done' got, r.takeNext n done pkt bytes =
      { r with reading := .batch n done' copy, got := got } := by
  unfold takeNext
  split
  · exact ⟨none, done + 1, r.got ++ [(pkt, bytes)], rfl⟩
  · exact ⟨some (pkt, bytes), done, r.got, rfl⟩

/-! ## What one step keeps -/

theorem Inv.attached (slots : Nat → Slot) : Inv start (attached S start slots) where
  headLocal := by simp [Ring.attached, Producer.attach, reserved]
  headPublished := by simp [Ring.attached, Producer.attach]
  unpublished := rfl
  head := by simp [Ring.attached]
  tailLocal := by simp [Ring.attached, Consumer.attach]
  tail := by simp [Ring.attached]
  released_le := Nat.le_refl _
  window := Nat.zero_le _
  holds := by
    intro i e _ hi
    exact absurd hi (Nat.not_lt_zero i)
  writing := trivial
  reading := rfl

section

variable (h : Inv start r)

include h

/-- A reservation. The new entry is the last one, and not filled yet. -/
theorem Inv.beginWrite (hidle : r.writing = .idle) (e : Entry S) {slot : Nat}
    (hb : r.prod.beginWrite S r.hdr = some (slot, p)) :
    Inv start { r with prod := p, writing := .header slot e, pending := r.pending ++ [e] } := by
  obtain ⟨hroom, rfl, rfl⟩ := h.beginWrite_some hb
  have hres : ({ r with
      prod := ⟨counterAt start (r.reserved + 1), r.prod.headPublished,
        UInt32.ofNat (r.pending.length + 1)⟩
      writing := .header (cell start S.slotCountBits r.reserved) e
      pending := r.pending ++ [e] } : Ring S).reserved = r.reserved + 1 := by
    simp only [reserved, List.length_append, List.length_singleton]
    omega
  refine
    { headLocal := by rw [hres]
      headPublished := h.headPublished
      unpublished := by simp only [List.length_append, List.length_singleton]
      head := h.head
      tailLocal := h.tailLocal
      tail := h.tail
      released_le := h.released_le
      window := by rw [hres]; exact hroom
      holds := ?_
      writing := ⟨List.getLast?_concat .., by rw [hres]; rfl⟩
      reading := h.reading }
  intro i e' hlo hi hget
  have hi' : i < r.reserved := by
    simpa only [filled, hres, Nat.add_sub_cancel] using hi
  refine h.holds i e' hlo (by simpa only [filled, hidle] using hi') ?_
  rw [← List.append_assoc] at hget
  rwa [List.getElem?_append_left (by
    simpa only [List.length_append, reserved] using hi')] at hget

/-- Writing into the last reserved slot disturbs no filled one. -/
theorem Inv.last_cell_ne {i : Nat} (hlo : r.released ≤ i)
    (hi : i < r.reserved - 1) :
    cell start S.slotCountBits i ≠ cell start S.slotCountBits (r.reserved - 1) := by
  have hw := h.window
  intro heq
  have := cell_inj r.released hlo (by omega) (by omega) (by omega) heq
  omega

/-- The two sides of the argument for a step of `fill`: the slot being filled
gets `slot'`, and every earlier slot stays as it was. -/
theorem Inv.fillStep {slot done : Nat} {slot' : Slot}
    (hlast : r.pending.getLast? = some e)
    (hslot : slot = cell start S.slotCountBits (r.reserved - 1)) (hwriting : r.writing ≠ .idle)
    (hpkt : slot'.pkt = e.pkt)
    (hbytes : ∀ (j : Nat) (b : UInt8), j < done → e.payload[j]? = some b → slot'.payload j = b) :
    Inv start ({ r with slots := update r.slots slot slot' }.putNext slot e done) := by
  have hfilled : r.filled = r.reserved - 1 := by
    unfold filled
    cases hw : r.writing with
    | idle => exact absurd hw hwriting
    | header => rfl
    | bytes => rfl
  have hother : ∀ i, r.released ≤ i → i < r.reserved - 1 →
      update r.slots slot slot' (cell start S.slotCountBits i) =
        r.slots (cell start S.slotCountBits i) := by
    intro i hlo hi
    rw [hslot, update_of_ne (h.last_cell_ne hlo hi)]
  refine
    { headLocal := h.headLocal
      headPublished := h.headPublished
      unpublished := h.unpublished
      head := h.head
      tailLocal := h.tailLocal
      tail := h.tail
      released_le := h.released_le
      window := h.window
      holds := ?_
      writing := ?_
      reading := h.reading }
  · intro i e' hlo hi hget
    change (update r.slots slot slot' (cell start S.slotCountBits i)).Holds e'
    change (r.published ++ r.pending)[i]? = some e' at hget
    by_cases hold : i < r.reserved - 1
    · rw [hother i hlo hold]
      exact h.holds i e' hlo (by rw [hfilled]; exact hold) hget
    · -- the slot just filled: `putNext` went back to idle, so every byte is there
      have hlen : i < r.reserved := by
        have := List.getElem?_eq_some_iff.mp hget |>.1
        simpa only [reserved, List.length_append] using this
      have hidx : i = r.reserved - 1 := by omega
      have hdone : done = e.payload.length := by
        by_contra hne
        simp only [filled, putNext, if_neg hne, reserved] at hi
        unfold reserved at hold
        omega
      have he : e' = e := by
        have hpos : r.pending ≠ [] := by
          intro hnil
          rw [hnil] at hlast
          cases hlast
        have hplen := List.length_pos_of_ne_nil hpos
        rw [hidx, List.getElem?_append_right (by unfold reserved; omega)] at hget
        rw [List.getLast?_eq_getElem?] at hlast
        have hpos' : r.reserved - 1 - r.published.length = r.pending.length - 1 := by
          unfold reserved; omega
        rw [hpos', hlast] at hget
        exact (Option.some.inj hget).symm
      subst he
      rw [hidx, ← hslot, update_self]
      refine ⟨hpkt, fun j b hb => hbytes j b ?_ hb⟩
      rw [hdone]
      exact (List.getElem?_eq_some_iff.mp hb).1
  · unfold WritingOk putNext
    by_cases hdone : done = e.payload.length
    · simp only [if_pos hdone]
    · simp only [if_neg hdone, update_self]
      exact ⟨hlast, hslot, hpkt, hbytes⟩

/-- The packet header is moved. -/
theorem Inv.fillPkt {slot : Nat} (hw : r.writing = .header slot e) :
    Inv start ((r.setPkt slot e.pkt).putNext slot e 0) := by
  have hok := h.writing
  simp only [WritingOk, hw] at hok
  exact h.fillStep hok.1 hok.2 (by rw [hw]; simp) rfl (fun j _ hj => absurd hj (Nat.not_lt_zero j))

/-- One payload byte is moved. -/
theorem Inv.fillByte {slot done : Nat} {b : UInt8}
    (hw : r.writing = .bytes slot e done) (hb : e.payload[done]? = some b) :
    Inv start ((r.setByte slot done b).putNext slot e (done + 1)) := by
  have hok := h.writing
  simp only [WritingOk, hw] at hok
  obtain ⟨hlast, hslot, hpkt, hbytes⟩ := hok
  refine h.fillStep hlast hslot (by rw [hw]; simp) hpkt ?_
  intro j b' hj hb'
  by_cases hjd : j = done
  · subst hjd
    rw [hb] at hb'
    cases hb'
    exact update_self ..
  · change update (r.slots slot).payload done b j = b'
    rw [update_of_ne hjd]
    exact hbytes j b' (by omega) hb'

/-- Every outstanding reservation becomes visible at once. -/
theorem Inv.publish (hidle : r.writing = .idle) {hdr : RingHeader}
    (hp : r.prod.publish r.prod.unpublished r.hdr = some (p, hdr)) :
    Inv start { r with
      prod := p, hdr := hdr, published := r.published ++ r.pending, pending := [] } := by
  rw [Producer.publish, if_pos rfl] at hp
  cases hp
  have hres : ({ r with
      prod := ⟨r.prod.headLocal, r.prod.headPublished + r.prod.unpublished,
        r.prod.unpublished - r.prod.unpublished⟩
      hdr := ⟨r.prod.headPublished + r.prod.unpublished, r.hdr.tail⟩
      published := r.published ++ r.pending
      pending := [] } : Ring S).reserved = r.reserved := by
    simp only [reserved, List.length_append, List.length_nil, Nat.add_zero]
  have hpub : r.prod.headPublished + r.prod.unpublished =
      counterAt start (r.published ++ r.pending).length := by
    rw [h.headPublished, h.unpublished, counterAt_add, List.length_append]
  refine
    { headLocal := by rw [hres]; exact h.headLocal
      headPublished := hpub
      unpublished := by simp
      head := hpub
      tailLocal := h.tailLocal
      tail := h.tail
      released_le := by
        have := h.released_le
        simp only [List.length_append]
        omega
      window := by rw [hres]; exact h.window
      holds := ?_
      writing := by simp only [WritingOk, hidle]
      reading := ?_ }
  · intro i e hlo hi hget
    rw [List.append_nil] at hget
    refine h.holds i e hlo ?_ hget
    simpa only [filled, hidle, reserved, List.length_append, List.length_nil,
      Nat.add_zero] using hi
  · -- what the consumer has read is a prefix, and prefixes do not see the growth
    have hrd := h.reading
    unfold ReadingOk at hrd ⊢
    have htake : ∀ n, n ≤ r.published.length →
        (r.published ++ r.pending).take n = r.published.take n :=
      fun n hn => List.take_append_of_le_length hn
    cases hread : r.reading with
    | idle =>
      simp only [hread] at hrd ⊢
      rw [htake _ h.released_le]
      exact hrd
    | batch n done copy =>
      simp only [hread] at hrd ⊢
      obtain ⟨hdone, hle, hend, hgot, hcopy⟩ := hrd
      refine ⟨hdone, by rw [List.length_append]; omega, hend, ?_, ?_⟩
      · rw [htake _ (by omega)]
        exact hgot
      · intro pkt bytes hc
        obtain ⟨hlt, e, he, hrest⟩ := hcopy pkt bytes hc
        exact ⟨hlt, e, by rw [List.getElem?_append_left (by omega)]; exact he, hrest⟩

/-- Only the consumer's own fields move: the counters, the slots and the
producer's side stay. -/
theorem Inv.withReading (reading : Reading)
    (got : List (IpcPacket × List UInt8))
    (hread : ({ r with reading, got } : Ring S).ReadingOk start) :
    Inv start { r with reading, got } :=
  { headLocal := h.headLocal
    headPublished := h.headPublished
    unpublished := h.unpublished
    head := h.head
    tailLocal := h.tailLocal
    tail := h.tail
    released_le := h.released_le
    window := h.window
    holds := h.holds
    writing := h.writing
    reading := hread }

/-- A batch starts inside what is published and left of the array's end. -/
theorem Inv.popBatch (hidle : r.reading = .idle) (max : UInt32) :
    Inv start { r with reading := .batch (r.cons.popBatch S r.hdr max) 0 none } := by
  have hn := h.popBatch_toNat max
  have hcell := cell_lt start S.slotCountBits r.released
  have hle := h.released_le
  have hgot := h.reading
  simp only [ReadingOk, hidle] at hgot
  refine h.withReading _ r.got ?_
  unfold ReadingOk
  refine ⟨Nat.zero_le _, ?_, ?_, hgot, ?_⟩
  · change r.released + _ ≤ r.published.length
    omega
  · change cell start S.slotCountBits r.released + _ ≤ _
    omega
  intro pkt bytes hc
  cases hc

/-- A published entry is filled: the one being written is not published. -/
theorem Inv.published_le_filled : r.published.length ≤ r.filled := by
  have hw := h.writing
  unfold WritingOk at hw
  have hpending : ∀ e, r.pending.getLast? = some e → 0 < r.pending.length := by
    intro e he
    exact List.length_pos_of_ne_nil (by rintro hnil; rw [hnil] at he; cases he)
  unfold filled
  cases hwr : r.writing with
  | idle => exact r.published_le_reserved
  | header slot e | bytes slot e d =>
    simp only [hwr] at hw
    have := hpending e hw.1
    simp only [reserved]
    omega

/-- Every slot that is published and not released holds its entry. -/
theorem Inv.published_holds {i : Nat} (hlo : r.released ≤ i)
    (hget : r.published[i]? = some e) : (r.slots (cell start S.slotCountBits i)).Holds e := by
  have hin := (List.getElem?_eq_some_iff.mp hget).1
  refine h.holds i e hlo (Nat.lt_of_lt_of_le hin h.published_le_filled) ?_
  rw [List.getElem?_append_left hin]
  exact hget

/-- The slot under the reader holds the entry it is due. -/
theorem Inv.read_holds {n : UInt32} {done : Nat}
    {copy : Option (IpcPacket × List UInt8)} (hread : r.reading = .batch n done copy)
    (hlt : done < n.toNat) :
    ∃ e, r.published[r.released + done]? = some e ∧
      (r.slots (r.cons.firstSlot S + done)).Holds e := by
  have hok := h.reading
  simp only [ReadingOk, hread] at hok
  obtain ⟨-, hle, hend, -, -⟩ := hok
  have hin : r.released + done < r.published.length := by omega
  refine ⟨r.published[r.released + done], List.getElem?_eq_getElem hin, ?_⟩
  rw [h.firstSlot, ← cell_add (by omega)]
  exact h.published_holds (Nat.le_add_right _ _) (List.getElem?_eq_getElem hin)

/-- One more piece of the slot under the reader has been copied. -/
theorem Inv.takeNext {n : UInt32} {done : Nat}
    {copy : Option (IpcPacket × List UInt8)} (hread : r.reading = .batch n done copy)
    (hlt : done < n.toNat) (he : r.published[r.released + done]? = some e) {bytes : List UInt8}
    (hbytes : bytes = e.payload.take bytes.length) :
    Inv start (r.takeNext n done e.pkt bytes) := by
  have hok := h.reading
  simp only [ReadingOk, hread] at hok
  obtain ⟨-, hle, hend, hgot, -⟩ := hok
  unfold Ring.takeNext
  by_cases hfull : bytes.length = e.pkt.payloadLen.toNat
  · rw [if_pos hfull]
    refine h.withReading _ _ ?_
    unfold ReadingOk
    refine ⟨by omega, hle, hend, ?_, fun _ _ hc => by cases hc⟩
    have hall : bytes = e.payload := by
      rw [hbytes, hfull, ← e.len_eq, List.take_length]
    rw [hgot, ← Nat.add_assoc, List.take_add_one, he, hall]
    simp [Entry.raw]
  · rw [if_neg hfull]
    refine h.withReading _ r.got ?_
    unfold ReadingOk
    refine ⟨by omega, hle, hend, hgot, ?_⟩
    intro pkt' bytes' hc
    cases hc
    refine ⟨hlt, e, he, rfl, hbytes, ?_⟩
    have hlen : bytes.length ≤ e.payload.length := by
      rw [hbytes, List.length_take]
      omega
    rw [e.len_eq] at hlen ⊢
    omega

/-- The batch is given back: its slots leave the window from below. -/
theorem Inv.release {n : UInt32}
    (hread : r.reading = .batch n n.toNat none) :
    Inv start { r with
      cons := (r.cons.release n r.hdr).1, hdr := (r.cons.release n r.hdr).2
      reading := .idle, released := r.released + n.toNat } := by
  have hok := h.reading
  simp only [ReadingOk, hread] at hok
  obtain ⟨-, hle, -, hgot, -⟩ := hok
  have htail : r.cons.tailLocal + n = counterAt start (r.released + n.toNat) := by
    rw [h.tailLocal, ← counterAt_add, UInt32.ofNat_toNat]
  have hw := h.window
  exact
    { headLocal := h.headLocal
      headPublished := h.headPublished
      unpublished := h.unpublished
      head := h.head
      tailLocal := htail
      tail := htail
      released_le := hle
      window := hw.trans (by simp only; omega)
      holds := fun i e hlo hi hget => h.holds i e ((Nat.le_add_right _ _).trans hlo) hi hget
      writing := h.writing
      reading := hgot }

/-- Every step of either side keeps the invariant. -/
theorem Inv.step (hs : r.Step ev t) :
    Inv start t := by
  cases hs with
  | full hidle hfull => exact h
  | reserve hidle hb => exact h.beginWrite hidle _ hb
  | fillPkt hw => exact h.fillPkt hw
  | fillByte hw hb => exact h.fillByte hw hb
  | publish hidle hp => exact h.publish hidle hp
  | empty hidle hn => exact h
  | batch hidle hn => exact h.popBatch hidle _
  | readPkt hread hlt =>
    obtain ⟨e, he, hpkt, -⟩ := h.read_holds hread hlt
    rw [hpkt]
    exact h.takeNext hread hlt he rfl
  | readByte hread =>
    have hok := h.reading
    simp only [ReadingOk, hread] at hok
    obtain ⟨hlt, e, he, rfl, hbytes, hshort⟩ := hok.2.2.2.2 _ _ rfl
    obtain ⟨e', he', -, hbyte⟩ := h.read_holds hread hlt
    cases he.symm.trans he'
    have hget := List.getElem?_eq_getElem hshort
    rw [hbyte _ _ hget]
    refine h.takeNext hread hlt he ?_
    rw [List.length_append, List.length_singleton, List.take_add_one, hget, ← hbytes]
    rfl
  | release hread => exact h.release hread

end

/-- What is in the queue changes only by a publication or a release. -/
theorem next_queue (hs : r.next ev = some t) (hpublish : ev ≠ .publish) (hrelease : ev ≠ .release) :
    t.published = r.published ∧ t.released = r.released := by
  cases step_of_next hs with
  | publish => exact absurd rfl hpublish
  | release => exact absurd rfl hrelease
  | readPkt | readByte =>
    obtain ⟨_, _, _, htake⟩ := takeNext_frame ..
    rw [htake]
    exact ⟨rfl, rfl⟩
  | _ => exact ⟨rfl, rfl⟩

/-- How many entries an event publishes. -/
def adds (r : Ring S) : RingEvent S → Nat
  | .publish => r.pending.length
  | _ => 0

/-- A producer does not move the reader, and adds what it publishes. -/
theorem next_producer (hs : r.next ev = some t) (hev : ev.produces = true) :
    t.reading = r.reading ∧ t.released = r.released ∧
      t.published.length = r.published.length + r.adds ev := by
  cases step_of_next hs with
  | full | reserve | fillPkt | fillByte => exact ⟨rfl, rfl, rfl⟩
  | publish => exact ⟨rfl, rfl, List.length_append⟩
  | _ => cases hev

/-- Filling a slot and reading one leave what the producer counts by. -/
theorem next_keeps (hs : r.next ev = some t) (hreserve : ∀ e, ev ≠ .beginWrite e)
    (hpublish : ev ≠ .publish) :
    t.prod = r.prod ∧ t.published = r.published ∧ t.pending = r.pending ∧
      (ev.produces = false → t.writing = r.writing) := by
  cases step_of_next hs with
  | full => exact absurd rfl (hreserve _)
  | reserve => exact absurd rfl (hreserve _)
  | publish => exact absurd rfl hpublish
  | fillPkt => exact ⟨rfl, rfl, rfl, nofun⟩
  | fillByte => exact ⟨rfl, rfl, rfl, nofun⟩
  | readPkt | readByte =>
    obtain ⟨_, _, _, htake⟩ := takeNext_frame ..
    rw [htake]
    exact ⟨rfl, rfl, rfl, fun _ => rfl⟩
  | _ => exact ⟨rfl, rfl, rfl, fun _ => rfl⟩

theorem inv_of_reachable (h : (machine S start).Reachable r) : Inv start r := by
  refine Machine.invariant (I := Inv start) ?_ ?_ h
  · rintro s ⟨slots, rfl⟩
    exact Inv.attached slots
  · intro s ev t hs _ ht
    exact hs.step (step_of_next ht)

/-! ## The promises -/

/-- How many slots the consumer has read so far. -/
def slotsRead (r : Ring S) : Nat :=
  match r.reading with
  | .idle => r.released
  | .batch _ done _ => r.released + done

theorem Inv.got_eq (h : Inv start r) :
    r.got = (r.published.take r.slotsRead).map Entry.raw ∧ r.slotsRead ≤ r.published.length := by
  have hle := h.released_le
  have hok := h.reading
  unfold ReadingOk at hok
  unfold slotsRead
  cases hread : r.reading with
  | idle =>
    simp only [hread] at hok
    exact ⟨hok, hle⟩
  | batch n done copy =>
    simp only [hread] at hok
    exact ⟨hok.2.2.2.1, by simp only; omega⟩

/-- In the code's own variables: the slots between `head_published_` and
`head_local_` are none of those between the shared `tail` and `head`. -/
theorem Inv.reserved_ne_unreleased (h : Inv start r) {i j : Nat}
    (hi : i < r.prod.unpublished.toNat) (hj : j < (r.hdr.head - r.hdr.tail).toNat) :
    (r.prod.headPublished + UInt32.ofNat i) &&& S.kMask ≠
      (r.hdr.tail + UInt32.ofNat j) &&& S.kMask := by
  have hw := h.window
  have hlt := two_pow_bits_lt S
  have hle := h.released_le
  have hge := r.published_le_reserved
  have hpend : r.prod.unpublished.toNat = r.pending.length := by
    rw [h.unpublished, UInt32.toNat_ofNat']
    refine Nat.mod_eq_of_lt ?_
    unfold reserved at hw
    omega
  have hlive : (r.hdr.head - r.hdr.tail).toNat = r.published.length - r.released := by
    rw [h.head, h.tail]
    exact counterAt_sub_toNat start hle (by omega)
  rw [hpend] at hi
  rw [hlive] at hj
  unfold reserved at hw
  intro heq
  have hcell := congrArg UInt32.toNat heq
  rw [h.headPublished, h.tail, counterAt_add, counterAt_add] at hcell
  unfold RingShape.kMask RingShape.kSlotCount at hcell
  rw [counterAt_mask S.bits_le, counterAt_mask S.bits_le] at hcell
  have := cell_inj r.released (by omega) (by omega) (by omega) (by omega) hcell
  omega

end Ring

/-- **The ring is a lossless first-in first-out queue.** In every state that
the two sides reach from any common start value of the counters, wrapped or
not: what the consumer has read is what was published, entry by entry and
byte by byte, as far as it has come; `begin_write` answers null exactly when
every slot is reserved or unreleased; no slot that is reserved and not yet
published is one that is published and not yet released; and `pop_batch`
answers 0 exactly when nothing is published and unreleased. -/
theorem spsc_lossless_fifo {S : RingShape} {start : UInt32} {r : Ring S}
    (h : (Ring.machine S start).Reachable r) :
    (r.got = (r.published.take r.slotsRead).map Entry.raw ∧
        r.slotsRead ≤ r.published.length ∧ r.got <+: r.published.map Entry.raw) ∧
      (r.prod.beginWrite S r.hdr = none ↔
        r.published.length + r.pending.length - r.released = 2 ^ S.slotCountBits) ∧
      (∀ i j, i < r.prod.unpublished.toNat → j < (r.hdr.head - r.hdr.tail).toNat →
        (r.prod.headPublished + UInt32.ofNat i) &&& S.kMask ≠
          (r.hdr.tail + UInt32.ofNat j) &&& S.kMask) ∧
      ∀ max : UInt32, 1 ≤ max.toNat →
        (r.cons.popBatch S r.hdr max = 0 ↔ r.published.length - r.released = 0) := by
  have hinv := Ring.inv_of_reachable h
  obtain ⟨hgot, hread⟩ := hinv.got_eq
  refine ⟨⟨hgot, hread, ?_⟩, hinv.beginWrite_none_iff,
    fun i j hi hj => hinv.reserved_ne_unreleased hi hj,
    fun max hmax => hinv.popBatch_eq_zero_iff hmax⟩
  rw [hgot]
  exact (List.take_prefix _ _).map _

/-- A ring of two slots. -/
def twoSlots : RingShape := ⟨64, 1, by decide, by decide, by decide⟩

/-- A packet that announces as many bytes as it is given. -/
def Entry.ofBytes (seq : UInt32) (payload : List UInt8)
    (h : payload.length = (UInt32.ofNat payload.length).toNat ∧ payload.length ≤ 32) :
    Entry twoSlots where
  pkt := ⟨7, 1, 0, seq, UInt32.ofNat payload.length, 0, 0⟩
  payload := payload
  len_eq := h.1
  fits := h.2

/-- The queue over the wrap of both counters: the ring starts one short of
`2 ^ 32`, two entries go through, and the reader is given them in order. -/
theorem spsc_lossless_fifo_over_wrap :
    ∃ r : Ring twoSlots, (Ring.machine twoSlots 0xFFFFFFFF).Reachable r ∧
      r.hdr = ⟨1, 1⟩ ∧
      r.got = [Entry.raw (.ofBytes 0 [5, 6] (by decide)), Entry.raw (.ofBytes 1 [] (by decide))] ∧
      r.got <+: r.published.map Entry.raw := by
  let blank : Slot := ⟨⟨0, 0, 0, 0, 0, 0, 0⟩, fun _ => 0⟩
  obtain ⟨r, hreach, hhdr, hgot⟩ : ∃ r, (Ring.machine twoSlots 0xFFFFFFFF).Reachable r ∧
      r.hdr = ⟨1, 1⟩ ∧ r.got = [Entry.raw (.ofBytes 0 [5, 6] (by decide)),
        Entry.raw (.ofBytes 1 [] (by decide))] :=
    Machine.exists_of_play (Ring.attached twoSlots 0xFFFFFFFF fun _ => blank) ⟨_, rfl⟩
      [.beginWrite (.ofBytes 0 [5, 6] (by decide)), .fillPkt, .fillByte, .fillByte, .publish,
        .popBatch 8, .beginWrite (.ofBytes 1 [] (by decide)), .readPkt, .fillPkt, .readByte,
        .publish, .readByte, .release, .popBatch 8, .readPkt, .release] (by decide)
  exact ⟨r, hreach, hhdr, hgot, (spsc_lossless_fifo hreach).1.2.2⟩

end SharedBike.Ipc
