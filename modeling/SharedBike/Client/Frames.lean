import SharedBike.Wire.Protocol

/-!
# Cutting frames on both sides

`consume_frames` of the client and `cut_frames` of the gateway are two loops
around `decode_frame`. The client's takes each frame off the front of its
buffer, asks the decoder even when the buffer is empty, and passes every length
through `int`; the gateway's moves an offset and stops at the end. Both are given
here turn by turn, with `none` for a loop that is still running after its turns.

A decoded frame takes at least the 14 bytes of its header, so both loops end, and
they agree on every buffer (`consumeFrames_cutFrames`). What the rest of the
development calls `cutFrames` is what both compute. `onReadyRead` puts the client's
loop behind a socket: however the stream is split, the frames of the whole stream
are signalled (`onReadyRead_frames`).
-/

namespace SharedBike.Client

open SharedBike.Wire SharedBike.Lib

/-! ## The client's loop -/

/-- `static_cast<int>` of a size. -/
def toInt (n : Nat) : Int := (Int32.ofNat n).toInt

/-- `QByteArray(data, size)`: a negative size asks for the text up to a zero. -/
def byteArray (data : Bytes) (size : Int) : Bytes :=
  if size < 0 then data.takeWhile (· ≠ 0) else data.take size.toNat

/-- `QByteArray::remove(0, len)`. -/
def removeFront (buf : Bytes) (len : Int) : Bytes :=
  if len ≤ 0 then buf else buf.drop len.toNat

/-- What `consume_frames` returns, what it called `on_frame` with, and its buffer
afterwards. -/
structure Consumed where
  ok : Bool
  frames : List Frame
  buf : Bytes
  deriving DecidableEq

/-- The loop of `consume_frames` after the frames `seen`. -/
def consumeLoop : Nat → Bytes → List Frame → Option Consumed
  | 0, _, _ => none
  | turns + 1, buf, seen =>
    match decodeFrame buf with
    | .needMore => some ⟨true, seen, buf⟩
    | .bad => some ⟨false, seen, buf⟩
    | .ok f consumed =>
      let payload := byteArray f.payload (toInt f.payload.length)
      consumeLoop turns (removeFront buf (toInt consumed)) (seen ++ [⟨f.eventId, f.seq, payload⟩])

/-! ## The gateway's loop -/

/-- The loop of `cut_frames` at the offset `off`, with the frames `out`. -/
def cutFramesLoop : Nat → Bytes → Nat → List Frame → Option (Cut UInt8 Frame)
  | 0, _, _, _ => none
  | turns + 1, p, off, out =>
    if off < p.length then
      match decodeFrame (p.drop off) with
      | .needMore => some ⟨out, false, p.drop off⟩
      | .bad => some ⟨out, true, p.drop off⟩
      | .ok f consumed => cutFramesLoop turns p (off + consumed) (out ++ [f])
    else some ⟨out, false, p.drop off⟩

/-! ## What a frame takes -/

/-- A decoded frame is its header and its payload, and no longer than the largest. -/
theorem decodeFrame_consumed {buf : Bytes} {f : Frame} {n : Nat} (h : decodeFrame buf = .ok f n) :
    n = kHeaderLen + f.payload.length ∧ f.payload.length ≤ kMaxMessageLen := by
  have hmore : decodeFrame buf ≠ .needMore := by rw [h]; simp
  rw [decodeFrame_of_header (header_of_decodeFrame hmore)] at h
  split at h
  · cases h
  · split at h
    · cases h
    next hfield =>
      split at h
      · cases h
      next hlen =>
        cases h
        rw [not_or] at hfield
        simp only [List.length_take, List.length_drop]
        unfold kHeaderLen at hlen ⊢
        omega

theorem toInt_of_small {n : Nat} (h : n ≤ kHeaderLen + kMaxMessageLen) : toInt n = n := by
  unfold kHeaderLen kMaxMessageLen at h
  exact Int32.toInt_ofNat_of_lt (by omega)

theorem byteArray_length {data : Bytes} (h : data.length ≤ kMaxMessageLen) :
    byteArray data (toInt data.length) = data := by
  rw [toInt_of_small (by omega), byteArray, if_neg (by omega), Int.toNat_natCast,
    List.take_length]

theorem removeFront_drop {buf : Bytes} {n : Nat} (hpos : 0 < n)
    (h : n ≤ kHeaderLen + kMaxMessageLen) : removeFront buf (toInt n) = buf.drop n := by
  rw [toInt_of_small h, removeFront, if_neg (by omega), Int.toNat_natCast]

/-! ## Both loops cut -/

/-- The client's loop, by its turns: each frame makes the buffer shorter by at
least a header. -/
theorem consumeLoop_eq {turns : Nat} {buf : Bytes} (h : buf.length < kHeaderLen * turns)
    (seen : List Frame) :
    consumeLoop turns buf seen =
      some ⟨!(cutFrames buf).bad, seen ++ (cutFrames buf).frames, (cutFrames buf).leftover⟩ := by
  induction turns generalizing buf seen with
  | zero => omega
  | succ turns ih =>
    rw [consumeLoop, cutFrames_turn]
    cases hd : decodeFrame buf with
    | needMore => simp
    | bad => simp
    | ok f n =>
      obtain ⟨hn, hpayload⟩ := decodeFrame_consumed hd
      obtain ⟨hpos, hle⟩ := decodeFrame_bounds hd
      have hshort : (buf.drop n).length < kHeaderLen * turns := by
        rw [List.length_drop]
        rw [Nat.mul_succ] at h
        omega
      simp only [byteArray_length hpayload, removeFront_drop hpos (by omega),
        ih hshort, List.append_assoc, List.singleton_append]

/-- The gateway's loop, by its turns. -/
theorem cutFramesLoop_eq {turns : Nat} {p : Bytes} {off : Nat} (hoff : off ≤ p.length)
    (h : p.length - off < kHeaderLen * turns) (out : List Frame) :
    cutFramesLoop turns p off out =
      some ⟨out ++ (cutFrames (p.drop off)).frames, (cutFrames (p.drop off)).bad,
        (cutFrames (p.drop off)).leftover⟩ := by
  induction turns generalizing off out with
  | zero => omega
  | succ turns ih =>
    rw [cutFramesLoop]
    by_cases hlt : off < p.length
    · rw [if_pos hlt, cutFrames_turn]
      cases hd : decodeFrame (p.drop off) with
      | needMore => simp
      | bad => simp
      | ok f n =>
        obtain ⟨hn, -⟩ := decodeFrame_consumed hd
        have hle := (decodeFrame_bounds hd).2
        rw [List.length_drop] at hle
        rw [Nat.mul_succ] at h
        have hrest : p.length - (off + n) < kHeaderLen * turns := by omega
        simp only [ih (show off + n ≤ p.length by omega) hrest, List.drop_drop, List.append_assoc,
          List.singleton_append]
    · have hend : p.drop off = [] := List.drop_eq_nil_of_le (by omega)
      rw [if_neg hlt, hend]
      simp [cutFrames]

/-- **Client and server cut frames identically.** On every buffer both loops end,
within one turn for each 14 bytes and one more; they give the same frames in the
same order, the client's answer is the negation of `bad`, and what the client's
buffer keeps is the leftover. -/
theorem consumeFrames_cutFrames (buf : Bytes) :
    ∃ cut : Cut UInt8 Frame, ∀ turns, buf.length < kHeaderLen * turns →
      cutFramesLoop turns buf 0 [] = some cut ∧
        consumeLoop turns buf [] = some ⟨!cut.bad, cut.frames, cut.leftover⟩ := by
  refine ⟨cutFrames buf, fun turns hturns => ⟨?_, consumeLoop_eq hturns []⟩⟩
  exact cutFramesLoop_eq (Nat.zero_le _) hturns []

/-! ## Behind the socket -/

/-- `consume_frames`, with the turns that are enough. -/
def consumeFrames (buf : Bytes) : Option Consumed := consumeLoop (buf.length / kHeaderLen + 1) buf []

/-- The receive side of the worker: `rx_`, the frames signalled so far, and whether
the socket was dropped. -/
structure Reader where
  rx : Bytes
  signalled : List Frame
  dropped : Bool
  deriving DecidableEq

def Reader.start : Reader := ⟨[], [], false⟩

/-- `onReadyRead` with the bytes of `readAll`; a dropped socket is not read again. -/
def onReadyRead (r : Reader) (chunk : Bytes) : Option Reader :=
  if r.dropped then some r
  else
    (consumeFrames (r.rx ++ chunk)).map fun c =>
      if c.ok then ⟨c.buf, r.signalled ++ c.frames, false⟩
      else ⟨[], r.signalled ++ c.frames, true⟩

/-- Where the worker stands after the bytes `got`. -/
structure Reader.Follows (got : Bytes) (r : Reader) : Prop where
  signalled : r.signalled = (cutFrames got).frames
  dropped : r.dropped = (cutFrames got).bad
  rx : (cutFrames got).bad = false → r.rx = (cutFrames got).leftover

theorem consumeFrames_eq (buf : Bytes) :
    consumeFrames buf =
      some ⟨!(cutFrames buf).bad, (cutFrames buf).frames, (cutFrames buf).leftover⟩ :=
  consumeLoop_eq (by unfold kHeaderLen; omega) []

theorem Reader.Follows.onReadyRead {got : Bytes} {r : Reader} (h : r.Follows got) (chunk : Bytes) :
    ∃ r', onReadyRead r chunk = some r' ∧ r'.Follows (got ++ chunk) := by
  have hwhole := frameDecoder.cut_append got chunk
  rw [← cutFrames, ← cutFrames, ← cutFrames] at hwhole
  cases hbad : (cutFrames got).bad with
  | true =>
    rw [if_pos hbad] at hwhole
    refine ⟨r, by rw [Client.onReadyRead, h.dropped, hbad, if_pos rfl], ?_, ?_, ?_⟩
    · rw [h.signalled, hwhole]
    · rw [h.dropped, hwhole]
    · rw [hwhole, hbad]
      intro hfalse
      cases hfalse
  | false =>
    rw [hbad, if_neg (by decide)] at hwhole
    rw [Client.onReadyRead, h.dropped, hbad, if_neg (by decide), consumeFrames_eq, h.rx hbad]
    cases hrest : (cutFrames ((cutFrames got).leftover ++ chunk)).bad with
    | true | false =>
      refine ⟨_, rfl, ?_, ?_, ?_⟩ <;> rw [hwhole] <;> simp [hrest, h.signalled]

/-- However the stream of a connection is split into reads, the worker signals the
frames of the whole stream in order, and drops the socket exactly when the stream
has a bad frame. -/
theorem onReadyRead_frames (chunks : List Bytes) :
    ∃ r, chunks.foldlM onReadyRead Reader.start = some r ∧ r.Follows chunks.flatten := by
  have hrun : ∀ (got : Bytes) (r : Reader), r.Follows got →
      ∃ r', chunks.foldlM onReadyRead r = some r' ∧ r'.Follows (got ++ chunks.flatten) := by
    induction chunks with
    | nil => exact fun got r h => ⟨r, rfl, by rwa [List.flatten_nil, List.append_nil]⟩
    | cons chunk chunks ih =>
      intro got r h
      obtain ⟨r', hr', h'⟩ := h.onReadyRead chunk
      obtain ⟨r'', hr'', h''⟩ := ih _ _ h'
      refine ⟨r'', ?_, by rwa [List.flatten_cons, ← List.append_assoc]⟩
      rw [List.foldlM_cons, hr']
      exact hr''
  exact hrun [] _ ⟨rfl, rfl, fun _ => rfl⟩

end SharedBike.Client
