import SharedBike.Wire.Protocol

/-!
# The codec is exact

Encoding and decoding undo one another: a frame that fits is read back from
its own bytes whatever follows them, and no fewer bytes are a frame; what is
read from a buffer encodes to the bytes it was read from. Restamping an
encoded frame is encoding the frame with the new number.

The integers are compared as numbers: a little-endian field is the sum of its
bytes (`toNat_getU16le`, `toNat_getU32le`), and the rest is arithmetic.
-/

namespace SharedBike.Wire

open SharedBike.Lib

/-! ## Little-endian fields as numbers -/

theorem or_shiftLeft {a k : Nat} (ha : a < 2 ^ k) (b : Nat) : a ||| b <<< k = a + b * 2 ^ k := by
  rw [Nat.or_comm, ← Nat.shiftLeft_add_eq_or_of_lt ha, Nat.shiftLeft_eq, Nat.add_comm]

theorem toNat_shiftLeft32 (x : UInt8) (k : UInt32) (hk : k.toNat ≤ 24) :
    (x.toUInt32 <<< k).toNat = x.toNat <<< k.toNat := by
  have hx : x.toNat * 2 ^ k.toNat < 2 ^ 8 * 2 ^ 24 :=
    Nat.mul_lt_mul_of_lt_of_le x.toNat_lt (Nat.pow_le_pow_right (by decide) hk) (by decide)
  rw [UInt32.toNat_shiftLeft, UInt8.toNat_toUInt32, Nat.mod_eq_of_lt (by omega : k.toNat < 32),
    Nat.shiftLeft_eq, Nat.mod_eq_of_lt (by omega)]

theorem toNat_shiftLeft16 (x : UInt8) : (x.toUInt16 <<< 8).toNat = x.toNat <<< 8 := by
  have hx := x.toNat_lt
  rw [UInt16.toNat_shiftLeft, UInt8.toNat_toUInt16]
  change x.toNat <<< 8 % 2 ^ 16 = x.toNat <<< 8
  rw [Nat.shiftLeft_eq, Nat.mod_eq_of_lt (by omega)]

theorem toNat_getU16le (buf : Bytes) (i : Nat) :
    (getU16le buf i).toNat = (buf.getD i 0).toNat + (buf.getD (i + 1) 0).toNat * 2 ^ 8 := by
  rw [getU16le, UInt16.toNat_or, toNat_shiftLeft16, UInt8.toNat_toUInt16,
    or_shiftLeft (UInt8.toNat_lt _)]

theorem toNat_getU32le (buf : Bytes) (i : Nat) :
    (getU32le buf i).toNat = (buf.getD i 0).toNat + (buf.getD (i + 1) 0).toNat * 2 ^ 8 +
      (buf.getD (i + 2) 0).toNat * 2 ^ 16 + (buf.getD (i + 3) 0).toNat * 2 ^ 24 := by
  have h₀ := (buf.getD i 0).toNat_lt
  have h₁ := (buf.getD (i + 1) 0).toNat_lt
  have h₂ := (buf.getD (i + 2) 0).toNat_lt
  rw [getU32le, UInt32.toNat_or, UInt32.toNat_or, UInt32.toNat_or,
    toNat_shiftLeft32 _ 8 (by decide), toNat_shiftLeft32 _ 16 (by decide),
    toNat_shiftLeft32 _ 24 (by decide), UInt8.toNat_toUInt32]
  change (((_ ||| _ <<< 8) ||| _ <<< 16) ||| _ <<< 24) = _
  rw [or_shiftLeft h₀, or_shiftLeft (k := 16) (by omega), or_shiftLeft (k := 24) (by omega)]

/-- The bytes of a number are its digits to the base 256. -/
theorem putU16le_eq {v : UInt16} {a b : UInt8} (h : v.toNat = a.toNat + b.toNat * 2 ^ 8) :
    putU16le v = [a, b] := by
  have ha := a.toNat_lt
  have hb := b.toNat_lt
  have h₀ : v.toUInt8.toNat = a.toNat := by
    rw [UInt16.toNat_toUInt8]
    omega
  have h₁ : (v >>> 8).toUInt8.toNat = b.toNat := by
    rw [UInt16.toNat_toUInt8, UInt16.toNat_shiftRight]
    change v.toNat >>> 8 % 2 ^ 8 = b.toNat
    rw [Nat.shiftRight_eq_div_pow]
    omega
  rw [putU16le, UInt8.toNat_inj.mp h₀, UInt8.toNat_inj.mp h₁]

theorem putU32le_eq {v : UInt32} {a b c d : UInt8}
    (h : v.toNat = a.toNat + b.toNat * 2 ^ 8 + c.toNat * 2 ^ 16 + d.toNat * 2 ^ 24) :
    putU32le v = [a, b, c, d] := by
  have ha := a.toNat_lt
  have hb := b.toNat_lt
  have hc := c.toNat_lt
  have hd := d.toNat_lt
  have hdigit : ∀ (k : UInt32) (x : UInt8), k.toNat < 32 →
      v.toNat / 2 ^ k.toNat % 2 ^ 8 = x.toNat → (v >>> k).toUInt8 = x := by
    intro k x hk hx
    refine UInt8.toNat_inj.mp ?_
    rw [UInt32.toNat_toUInt8, UInt32.toNat_shiftRight, Nat.mod_eq_of_lt hk,
      Nat.shiftRight_eq_div_pow]
    exact hx
  have h₀ : v.toUInt8 = a := by
    refine UInt8.toNat_inj.mp ?_
    rw [UInt32.toNat_toUInt8]
    omega
  rw [putU32le, h₀, hdigit 8 b (by decide) ?_, hdigit 16 c (by decide) ?_,
    hdigit 24 d (by decide) ?_]
  · change v.toNat / 2 ^ 24 % 2 ^ 8 = _
    omega
  · change v.toNat / 2 ^ 16 % 2 ^ 8 = _
    omega
  · change v.toNat / 2 ^ 8 % 2 ^ 8 = _
    omega

theorem getD_cons_drop {buf : Bytes} {i : Nat} (h : i < buf.length) :
    buf.drop i = buf.getD i 0 :: buf.drop (i + 1) := by
  rw [List.getD_eq_getElem buf 0 h]
  exact List.drop_eq_getElem_cons h

/-- Writing what was read gives the bytes back. -/
theorem putU16le_getU16le {buf : Bytes} {i : Nat} (h : i + 2 ≤ buf.length) :
    putU16le (getU16le buf i) = (buf.drop i).take 2 := by
  rw [putU16le_eq (toNat_getU16le buf i), getD_cons_drop (by omega : i < buf.length),
    getD_cons_drop (by omega : i + 1 < buf.length)]
  rfl

theorem putU32le_getU32le {buf : Bytes} {i : Nat} (h : i + 4 ≤ buf.length) :
    putU32le (getU32le buf i) = (buf.drop i).take 4 := by
  rw [putU32le_eq (toNat_getU32le buf i), getD_cons_drop (by omega : i < buf.length),
    getD_cons_drop (by omega : i + 1 < buf.length), getD_cons_drop (by omega : i + 2 < buf.length),
    getD_cons_drop (by omega : i + 3 < buf.length)]
  rfl

/-! ## Frames field by field -/

/-- The bytes are the frame: its header, field by field, and its payload. -/
structure Layout (f : Frame) (bs : Bytes) : Prop where
  whole : kHeaderLen ≤ bs.length
  magic : bs.take 4 = kFrameMagic
  event : getU16le bs 4 = f.eventId
  seq : getU32le bs 6 = f.seq
  length : getI32le bs 10 = Int32.ofNat f.payload.length
  payload : bs.drop kHeaderLen = f.payload
  fits : f.payload.length ≤ kMaxMessageLen

variable {f : Frame} {bs : Bytes} {encoded : List Bytes} {frames : List Frame}

theorem Layout.length_eq (h : Layout f bs) :
    bs.length = kHeaderLen + f.payload.length := by
  have hlen := congrArg List.length h.payload
  have hwhole := h.whole
  rw [List.length_drop] at hlen
  omega

/-- A length that is admitted is not changed by its way through `int`. -/
theorem toNat_int32_ofNat {n : Nat} (h : n ≤ kMaxMessageLen) :
    ¬ Int32.ofNat n < 0 ∧ (Int32.ofNat n).toUInt32.toNat = n := by
  unfold kMaxMessageLen at h
  have hint : (Int32.ofNat n).toInt = n := Int32.toInt_ofNat_of_lt (by omega)
  refine ⟨?_, ?_⟩
  · rw [Int32.lt_iff_toInt_lt, hint]
    exact not_lt.mpr (Int.natCast_nonneg n)
  · change (UInt32.ofNat n).toNat = n
    exact UInt32.toNat_ofNat_of_lt' (by change _ < 2 ^ 32; omega)

theorem encode_eq (h : f.payload.length ≤ kMaxMessageLen) :
    encode f = .ok (kFrameMagic ++ putU16le f.eventId ++ putU32le f.seq ++
      putI32le (Int32.ofNat f.payload.length) ++ f.payload) := by
  rw [encode, if_neg (Nat.not_lt.mpr h)]

theorem digits16 (v : UInt16) : ∃ a b : UInt8, v.toNat = a.toNat + b.toNat * 2 ^ 8 := by
  have hv := v.toNat_lt
  refine ⟨.ofNat (v.toNat % 2 ^ 8), .ofNat (v.toNat / 2 ^ 8), ?_⟩
  rw [UInt8.toNat_ofNat_of_lt' (by change _ < 256; omega),
    UInt8.toNat_ofNat_of_lt' (by change _ < 256; omega)]
  omega

theorem digits32 (v : UInt32) : ∃ a b c d : UInt8,
    v.toNat = a.toNat + b.toNat * 2 ^ 8 + c.toNat * 2 ^ 16 + d.toNat * 2 ^ 24 := by
  have hv := v.toNat_lt
  refine ⟨.ofNat (v.toNat % 2 ^ 8), .ofNat (v.toNat / 2 ^ 8 % 2 ^ 8),
    .ofNat (v.toNat / 2 ^ 16 % 2 ^ 8), .ofNat (v.toNat / 2 ^ 24), ?_⟩
  have hsmall : ∀ {n : Nat}, n < 2 ^ 8 → (UInt8.ofNat n).toNat = n :=
    fun hn => UInt8.toNat_ofNat_of_lt' hn
  rw [hsmall (by omega), hsmall (by omega), hsmall (by omega), hsmall (by omega)]
  omega

theorem layout_of_encode (h : encode f = .ok bs) : Layout f bs := by
  have hfits : f.payload.length ≤ kMaxMessageLen := by
    unfold encode at h
    split at h
    · cases h
    next hlen => exact Nat.not_lt.mp hlen
  rw [encode_eq hfits] at h
  obtain ⟨e₀, e₁, hevent⟩ := digits16 f.eventId
  obtain ⟨s₀, s₁, s₂, s₃, hseq⟩ := digits32 f.seq
  obtain ⟨l₀, l₁, l₂, l₃, hlen⟩ := digits32 (Int32.ofNat f.payload.length).toUInt32
  rw [putI32le, putU16le_eq hevent, putU32le_eq hseq, putU32le_eq hlen] at h
  cases h
  refine ⟨by simp [kFrameMagic, kHeaderLen], rfl, ?_, ?_, ?_, rfl, hfits⟩
  · refine UInt16.toNat_inj.mp ?_
    rw [toNat_getU16le, hevent]
    rfl
  · refine UInt32.toNat_inj.mp ?_
    rw [toNat_getU32le, hseq]
    rfl
  · rw [getI32le, ← Int32.toInt32_toUInt32 (Int32.ofNat f.payload.length)]
    congr 1
    refine UInt32.toNat_inj.mp ?_
    rw [toNat_getU32le, hlen]
    rfl

theorem encode_of_layout (h : Layout f bs) : encode f = .ok bs := by
  have hwhole : 14 ≤ bs.length := h.whole
  have hlength : (Int32.ofNat f.payload.length).toUInt32 = getU32le bs 10 := by
    rw [← h.length, getI32le, UInt32.toUInt32_toInt32]
  have hsplit : ∀ i n, bs.drop i = (bs.drop i).take n ++ bs.drop (i + n) := by
    intro i n
    rw [← List.drop_drop, List.take_append_drop]
  rw [encode_eq h.fits, putI32le, hlength, ← h.event, ← h.seq, putU16le_getU16le (by omega),
    putU32le_getU32le (by omega), putU32le_getU32le (by omega), ← h.magic, ← h.payload]
  congr 1
  calc bs.take 4 ++ (bs.drop 4).take 2 ++ (bs.drop 6).take 4 ++ (bs.drop 10).take 4 ++ bs.drop 14
      = bs.take 4 ++ ((bs.drop 4).take 2 ++ ((bs.drop 6).take 4 ++
          ((bs.drop 10).take 4 ++ bs.drop 14))) := by simp only [List.append_assoc]
    _ = bs.take 4 ++ bs.drop 4 := by rw [← hsplit 10 4, ← hsplit 6 4, ← hsplit 4 2]
    _ = bs := List.take_append_drop 4 bs

theorem decodeFrame_of_layout (h : Layout f bs) :
    decodeFrame bs = .ok f bs.length := by
  obtain ⟨hpos, hnat⟩ := toNat_int32_ofNat h.fits
  rw [decodeFrame_of_header h.whole, h.magic, h.event, h.seq, h.length, hnat, h.payload,
    List.take_length, ← h.length_eq]
  rw [if_neg (by simp), if_neg (not_or.mpr ⟨hpos, Nat.not_lt.mpr h.fits⟩), if_neg (lt_irrefl _)]

theorem layout_of_decodeFrame {buf : Bytes} {n : Nat} (h : decodeFrame buf = .ok f n) :
    Layout f (buf.take n) := by
  have hmore : decodeFrame buf ≠ .needMore := by rw [h]; simp
  have hheader := header_of_decodeFrame hmore
  obtain ⟨-, hle⟩ := decodeFrame_bounds h
  rw [decodeFrame_of_header hheader] at h
  split at h
  · cases h
  next hmagic =>
    split at h
    · cases h
    next hlen =>
      split at h
      · cases h
      · injection h with hf hn
        subst hf hn
        rw [not_or, Nat.not_lt] at hlen
        -- the frame's own bytes have the header of the buffer
        have hwhole : kHeaderLen ≤
            (buf.take (kHeaderLen + (getI32le buf 10).toUInt32.toNat)).length := by
          rw [List.length_take]
          omega
        have hfields := header_append hwhole
          (buf.drop (kHeaderLen + (getI32le buf 10).toUInt32.toNat))
        rw [List.take_append_drop] at hfields
        obtain ⟨htake, hevent, hseq, hfield⟩ := hfields
        have hpayload : ((buf.drop kHeaderLen).take (getI32le buf 10).toUInt32.toNat).length =
            (getI32le buf 10).toUInt32.toNat := by
          rw [List.length_take, List.length_drop]
          omega
        refine ⟨hwhole, htake ▸ not_not.mp hmagic, hevent.symm, hseq.symm, ?_, ?_, ?_⟩
        · rw [← hfield, hpayload]
          exact (congrArg UInt32.toInt32 UInt32.ofNat_toNat).symm
        · rw [List.drop_take, Nat.add_sub_cancel_left]
        · rw [hpayload]
          exact hlen.2

/-- Less than the whole frame is not a frame yet. -/
theorem decodeFrame_prefix {bs pre : Bytes} (h : Layout f bs) (hpre : pre <+: bs) (hne : pre ≠ bs) :
    decodeFrame pre = .needMore := by
  obtain ⟨rest, rfl⟩ := hpre
  by_cases hshort : pre.length < kHeaderLen
  · rw [decodeFrame, if_pos hshort]
  · have hheader := Nat.not_lt.mp hshort
    obtain ⟨htake, -, -, hfield⟩ := header_append hheader rest
    obtain ⟨hpos, hnat⟩ := toNat_int32_ofNat h.fits
    have hmissing : pre.length < kHeaderLen + f.payload.length := by
      have hrest : rest ≠ [] := fun hnil => hne (by rw [hnil, List.append_nil])
      rw [← h.length_eq, List.length_append]
      exact Nat.lt_add_of_pos_right (List.length_pos_of_ne_nil hrest)
    rw [decodeFrame_of_header hheader, ← htake, h.magic, ← hfield, h.length, hnat]
    rw [if_neg (by simp), if_neg (not_or.mpr ⟨hpos, Nat.not_lt.mpr h.fits⟩), if_pos hmissing]

/-- The sequence number is bytes 6 to 9, and no other field reaches there. -/
theorem stampSeq_encode (h : f.payload.length ≤ kMaxMessageLen) (hbs : encode f = .ok bs)
    (s : UInt32) :
    ∃ bs', stampSeq bs s = some bs' ∧ encode { f with seq := s } = .ok bs' := by
  have hlayout := layout_of_encode hbs
  refine ⟨_, ?_, encode_eq h⟩
  rw [stampSeq, if_neg (Nat.not_lt.mpr hlayout.whole), if_neg (not_not.mpr hlayout.magic)]
  rw [encode_eq h] at hbs
  cases hbs
  rfl

/-- **The codec is exact.** A frame that fits decodes from its own bytes with
anything behind them, and no fewer bytes decode; what decodes encodes to the
bytes consumed; what follows changes neither a frame nor a refusal; and
stamping commutes with encoding. -/
theorem codec_exact :
    (∀ f : Frame, f.payload.length ≤ kMaxMessageLen → ∃ bs, encode f = .ok bs ∧
      (∀ rest, decodeFrame (bs ++ rest) = .ok f (kHeaderLen + f.payload.length)) ∧
      (∀ pre, pre <+: bs → pre ≠ bs → decodeFrame pre = .needMore) ∧
      ∀ s, ∃ bs', stampSeq bs s = some bs' ∧ encode { f with seq := s } = .ok bs') ∧
    (∀ buf f n, decodeFrame buf = .ok f n → encode f = .ok (buf.take n)) ∧
    (∀ buf rest, decodeFrame buf = .bad → decodeFrame (buf ++ rest) = .bad) ∧
    ∀ buf rest f n, decodeFrame buf = .ok f n → decodeFrame (buf ++ rest) = .ok f n := by
  refine ⟨fun f hfits => ?_, ?_, ?_, ?_⟩
  · have hlayout := layout_of_encode (encode_eq hfits)
    refine ⟨_, encode_eq hfits, fun rest => ?_, fun pre => decodeFrame_prefix hlayout,
      stampSeq_encode hfits (encode_eq hfits)⟩
    rw [← hlayout.length_eq]
    exact decodeFrame_ok_append (decodeFrame_of_layout hlayout) rest
  · intro buf f n h
    exact encode_of_layout (layout_of_decodeFrame h)
  · intro buf rest h
    exact decodeFrame_bad_append h rest
  · intro buf rest f n h
    exact decodeFrame_ok_append h rest

section

variable (h : List.Forall₂ (fun f bs => encode f = .ok bs) frames encoded)

include h

/-- Cutting a stream of encoded frames gives the frames. -/
theorem cutFrames_encoded :
    cutFrames encoded.flatten = ⟨frames, false, []⟩ := by
  induction h with
  | nil => rfl
  | @cons f bs frames encoded hf _ ih =>
    have hdecode := decodeFrame_ok_append (decodeFrame_of_layout (layout_of_encode hf))
      encoded.flatten
    rw [List.flatten_cons, cutFrames_turn, hdecode]
    simp only [List.drop_left, ih]

/-- So does cutting a stream that begins with them, for a start. -/
theorem frames_prefix_cutFrames {stream : Bytes}

    (hbegins : encoded.flatten <+: stream) : frames <+: (cutFrames stream).frames := by
  obtain ⟨rest, rfl⟩ := hbegins
  have hwhole := frameDecoder.cut_append encoded.flatten rest
  rw [← cutFrames, ← cutFrames, cutFrames_encoded h, if_neg Bool.false_ne_true] at hwhole
  rw [hwhole]
  exact List.prefix_append _ _

/-- A stream of encoded frames is nowhere bad. -/
theorem cutFrames_prefix_good {stream : Bytes}

    (hbegins : stream <+: encoded.flatten) : (cutFrames stream).bad = false := by
  obtain ⟨rest, hrest⟩ := hbegins
  have hwhole := frameDecoder.cut_append stream rest
  rw [← cutFrames, ← cutFrames, hrest, cutFrames_encoded h] at hwhole
  cases hbad : (cutFrames stream).bad with
  | false => rfl
  | true =>
    rw [if_pos hbad] at hwhole
    cases (congrArg Cut.bad hwhole).trans hbad

end

end SharedBike.Wire
