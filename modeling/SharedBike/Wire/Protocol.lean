import SharedBike.Lib.Framing
import Mathlib.Data.UInt
import Mathlib.Data.List.GetD

/-!
# The FBEB protocol

`bike/protocol.hpp`: frames, their encoding, the three-valued decoder and
`stamp_seq`. A frame is a header of 14 bytes (magic, event, sequence number
and length, all little-endian) and the payload. `frameDecoder` is the
decoder as the framing library wants it: what it answers is decided by the
frame's own bytes.
-/

namespace SharedBike.Wire

open SharedBike.Lib

abbrev Bytes := List UInt8

/-- `FBEB` -/
def kFrameMagic : Bytes := [0x46, 0x42, 0x45, 0x42]

def kHeaderLen : Nat := 14

def kMaxMessageLen : Nat := 372680

/-- The event of a one-way position report. -/
def ridePositionReport : UInt16 := 0x15

structure Frame where
  eventId : UInt16
  seq : UInt32
  payload : Bytes
  deriving DecidableEq

/-! ## Little-endian integers -/

def putU16le (v : UInt16) : Bytes := [v.toUInt8, (v >>> 8).toUInt8]

def putU32le (v : UInt32) : Bytes :=
  [v.toUInt8, (v >>> 8).toUInt8, (v >>> 16).toUInt8, (v >>> 24).toUInt8]

def putI32le (v : Int32) : Bytes := putU32le v.toUInt32

def getU16le (buf : Bytes) (i : Nat) : UInt16 :=
  (buf.getD i 0).toUInt16 ||| ((buf.getD (i + 1) 0).toUInt16 <<< 8)

def getU32le (buf : Bytes) (i : Nat) : UInt32 :=
  (buf.getD i 0).toUInt32 ||| ((buf.getD (i + 1) 0).toUInt32 <<< 8) |||
    ((buf.getD (i + 2) 0).toUInt32 <<< 16) ||| ((buf.getD (i + 3) 0).toUInt32 <<< 24)

def getI32le (buf : Bytes) (i : Nat) : Int32 := (getU32le buf i).toInt32

/-! ## Encoding and decoding -/

/-- The error is the exception's text. -/
def encode (f : Frame) : Except String Bytes :=
  if f.payload.length > kMaxMessageLen then .error "payload exceeds kMaxMessageLen"
  else .ok (kFrameMagic ++ putU16le f.eventId ++ putU32le f.seq ++
    putI32le (Int32.ofNat f.payload.length) ++ f.payload)

def decodeFrame (buf : Bytes) : Decoded Frame :=
  if buf.length < kHeaderLen then .needMore
  else if buf.take 4 ≠ kFrameMagic then .bad
  else
    let len := getI32le buf 10
    if len < 0 ∨ len.toUInt32.toNat > kMaxMessageLen then .bad
    else
      let total := kHeaderLen + len.toUInt32.toNat
      if buf.length < total then .needMore
      else .ok ⟨getU16le buf 4, getU32le buf 6, (buf.drop kHeaderLen).take len.toUInt32.toNat⟩ total

/-- Write a sequence number over that of an encoded frame. -/
def stampSeq (encoded : Bytes) (seq : UInt32) : Option Bytes :=
  if encoded.length < kHeaderLen then none
  else if encoded.take 4 ≠ kFrameMagic then none
  else some (encoded.take 6 ++ putU32le seq ++ encoded.drop 10)

theorem length_stampSeq {bytes stamped : Bytes} {seq : UInt32}
    (h : stampSeq bytes seq = some stamped) : stamped.length = bytes.length := by
  unfold stampSeq at h
  split at h
  · cases h
  next hlen =>
    split at h
    · cases h
    · cases h
      rw [kHeaderLen] at hlen
      simp only [putU32le, List.length_append, List.length_take, List.length_drop, List.length_cons,
        List.length_nil]
      omega

/-! ## The decoder looks at its frame only -/

variable {buf : Bytes}

theorem getU16le_append {i : Nat} (h : i + 2 ≤ buf.length) (rest : Bytes) :
    getU16le (buf ++ rest) i = getU16le buf i := by
  simp only [getU16le, List.getD_append buf rest 0 i (by omega),
    List.getD_append buf rest 0 (i + 1) (by omega)]

theorem getU32le_append {i : Nat} (h : i + 4 ≤ buf.length) (rest : Bytes) :
    getU32le (buf ++ rest) i = getU32le buf i := by
  simp only [getU32le, List.getD_append buf rest 0 i (by omega),
    List.getD_append buf rest 0 (i + 1) (by omega),
    List.getD_append buf rest 0 (i + 2) (by omega),
    List.getD_append buf rest 0 (i + 3) (by omega)]

/-- The decoder on a buffer that holds a whole header. -/
theorem decodeFrame_of_header (h : kHeaderLen ≤ buf.length) :
    decodeFrame buf =
      if buf.take 4 ≠ kFrameMagic then .bad
      else if getI32le buf 10 < 0 ∨ (getI32le buf 10).toUInt32.toNat > kMaxMessageLen then .bad
      else if buf.length < kHeaderLen + (getI32le buf 10).toUInt32.toNat then .needMore
      else .ok ⟨getU16le buf 4, getU32le buf 6,
        (buf.drop kHeaderLen).take (getI32le buf 10).toUInt32.toNat⟩
          (kHeaderLen + (getI32le buf 10).toUInt32.toNat) := by
  rw [decodeFrame, if_neg (Nat.not_lt.mpr h)]

/-- The header of a longer buffer is the same header. -/
theorem header_append (h : kHeaderLen ≤ buf.length) (rest : Bytes) :
    (buf ++ rest).take 4 = buf.take 4 ∧ getU16le (buf ++ rest) 4 = getU16le buf 4 ∧
      getU32le (buf ++ rest) 6 = getU32le buf 6 ∧ getI32le (buf ++ rest) 10 = getI32le buf 10 := by
  unfold kHeaderLen at h
  refine ⟨List.take_append_of_le_length (by omega), getU16le_append (by omega) rest,
    getU32le_append (by omega) rest, ?_⟩
  rw [getI32le, getU32le_append (by omega), getI32le]

theorem header_of_decodeFrame (h : decodeFrame buf ≠ .needMore) :
    kHeaderLen ≤ buf.length := by
  by_contra hshort
  exact h (by rw [decodeFrame, if_pos (Nat.not_le.mp hshort)])

theorem decodeFrame_bounds {f : Frame} {n : Nat} (h : decodeFrame buf = .ok f n) :
    0 < n ∧ n ≤ buf.length := by
  have hmore : decodeFrame buf ≠ .needMore := by rw [h]; simp
  have hlen := header_of_decodeFrame hmore
  rw [decodeFrame_of_header hlen] at h
  split at h
  · cases h
  · split at h
    · cases h
    · split at h
      · cases h
      · cases h
        unfold kHeaderLen
        unfold kHeaderLen at *
        omega

theorem decodeFrame_bad_append (h : decodeFrame buf = .bad) (rest : Bytes) :
    decodeFrame (buf ++ rest) = .bad := by
  have hmore : decodeFrame buf ≠ .needMore := by rw [h]; simp
  have hlen := header_of_decodeFrame hmore
  obtain ⟨hmagic, -, -, hfield⟩ := header_append hlen rest
  rw [decodeFrame_of_header (by rw [List.length_append]; omega), hmagic, hfield]
  rw [decodeFrame_of_header hlen] at h
  split at h
  next hm => rw [if_pos hm]
  next hm =>
    rw [if_neg hm]
    split at h
    next hf => rw [if_pos hf]
    · split at h <;> cases h

theorem decodeFrame_ok_append {f : Frame} {n : Nat} (h : decodeFrame buf = .ok f n) (rest : Bytes) :
    decodeFrame (buf ++ rest) = .ok f n := by
  have hmore : decodeFrame buf ≠ .needMore := by rw [h]; simp
  have hlen := header_of_decodeFrame hmore
  obtain ⟨hmagic, hevent, hseq, hfield⟩ := header_append hlen rest
  rw [decodeFrame_of_header (by rw [List.length_append]; omega), hmagic, hevent, hseq, hfield]
  rw [decodeFrame_of_header hlen] at h
  split at h
  · cases h
  next hm =>
    rw [if_neg hm]
    split at h
    · cases h
    next hf =>
      rw [if_neg hf]
      split at h
      · cases h
      next ht =>
        rw [if_neg (by rw [List.length_append]; omega)]
        rw [List.drop_append_of_le_length hlen, List.take_append_of_le_length]
        · exact h
        · rw [List.length_drop]
          omega

/-- The decoder of the protocol. -/
def frameDecoder : Decoder UInt8 Frame where
  decode := decodeFrame
  ok_bounds := decodeFrame_bounds
  ok_append := decodeFrame_ok_append
  bad_append := decodeFrame_bad_append

/-- `cut_frames` -/
def cutFrames (buf : Bytes) : Cut UInt8 Frame := frameDecoder.cut buf

/-- One turn of cutting, over the buffer as a whole; an empty one needs more. -/
theorem cutFrames_turn (buf : Bytes) :
    cutFrames buf =
      match decodeFrame buf with
      | .needMore => ⟨[], false, buf⟩
      | .bad => ⟨[], true, buf⟩
      | .ok f n =>
        let rest := cutFrames (buf.drop n)
        ⟨f :: rest.frames, rest.bad, rest.leftover⟩ := by
  cases buf with
  | nil => rfl
  | cons a rest =>
    have hturn := frameDecoder.cut_cons a rest
    have hdecode : frameDecoder.decode (a :: rest) = decodeFrame (a :: rest) := rfl
    rw [hdecode] at hturn
    rw [cutFrames, hturn]
    cases decodeFrame (a :: rest) <;> rfl

/-- A buffer that is still no frame is shorter than the largest one. -/
theorem length_of_needMore (h : decodeFrame buf = .needMore) :
    buf.length < kHeaderLen + kMaxMessageLen := by
  by_cases hlen : kHeaderLen ≤ buf.length
  · rw [decodeFrame_of_header hlen] at h
    split at h
    · cases h
    · split at h
      · cases h
      next hf =>
        split at h
        next ht =>
          rw [not_or, Nat.not_lt] at hf
          omega
        · cases h
  · omega

/-- A half frame that waits for more bytes is shorter than the largest frame. -/
theorem leftover_length (h : (cutFrames buf).bad = false) :
    (cutFrames buf).leftover.length < kHeaderLen + kMaxMessageLen := by
  rcases frameDecoder.decode_leftover h with hnil | hmore
  · rw [cutFrames, hnil]
    decide
  · exact length_of_needMore hmore

end SharedBike.Wire
