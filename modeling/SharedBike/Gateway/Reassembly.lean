import SharedBike.Gateway.Worker

/-!
# Reassembling a connection's stream

The receive loop of one connection: a `recv` completes with some bytes,
`complete_recv` commits them and hands everything that is valid to a worker,
the worker cuts frames off, and `drain_outbox` feeds what is left over back
and posts the next `recv`. However the bytes of a stream are split into
completions, the sink is handed the frames of the stream as a whole, and
the connection is closed for a bad frame exactly when the stream has one.

The invariant (`Stream.Follows`) says where the loop stands after the bytes
received so far: what the sink has got is what cutting those bytes gives,
and the valid bytes of the receive area are the leftover of that cut.
-/

namespace SharedBike.Gateway

open SharedBike.Lib SharedBike.Wire

/-- The receive side of a connection, and what the sink has been handed. -/
structure Stream where
  rx : Rx
  state : ConnState
  handled : List Request

namespace Stream

/-- A new connection with its first `recv` posted. -/
def start (rxBufBytes : Nat) : Stream := ⟨(Rx.init rxBufBytes).prepare rxBufBytes, .active, []⟩

/-- One item of the outbox; replies go to the send queue, which is no part of
this side. -/
def drain (rxBufBytes : Nat) (s : Stream) (it : OutboxItem) : Stream :=
  match it.kind with
  | .respond => s
  | .rearmRecv =>
    if s.state ≠ .parsing then s
    else { s with rx := (s.rx.feed it.bytes).prepare rxBufBytes, state := .active }
  | .close => { s with state := .closing }

/-- From one completion to the next `recv`. -/
def round (rxBufBytes connId : Nat) (sink : List Request → Request → SinkResult) (s : Stream)
    (chunk : Bytes) : Stream :=
  let rx := (s.rx.receive chunk).commit chunk.length
  if rx.rxLen > kHeaderLen + kMaxMessageLen + rxBufBytes then { s with rx, state := .closing }
  else
    let (raw, rx) := rx.take rxBufBytes
    let (handled, items) := workerBatch sink connId raw s.handled
    items.foldl (drain rxBufBytes) { rx, state := .parsing, handled }

/-- A run over completions; a connection that is closing gets no more. -/
def run (rxBufBytes connId : Nat) (sink : List Request → Request → SinkResult) :
    Stream → List Bytes → Stream
  | s, [] => s
  | s, chunk :: chunks =>
    match s.state with
    | .active => run rxBufBytes connId sink (s.round rxBufBytes connId sink chunk) chunks
    | _ => s

/-- Each completion brings at least one byte and no more than was asked for. -/
def Admits (rxBufBytes connId : Nat) (sink : List Request → Request → SinkResult) :
    Stream → List Bytes → Prop
  | _, [] => True
  | s, chunk :: chunks =>
    s.state = .active →
      (0 < chunk.length ∧ chunk.length ≤ s.rx.writable) ∧
        Admits rxBufBytes connId sink (s.round rxBufBytes connId sink chunk) chunks

/-- A run can be interrupted. -/
theorem run_append (rxBufBytes connId : Nat) (sink : List Request → Request → SinkResult)
    (s : Stream) (xs ys : List Bytes) :
    s.run rxBufBytes connId sink (xs ++ ys) =
      (s.run rxBufBytes connId sink xs).run rxBufBytes connId sink ys := by
  induction xs generalizing s with
  | nil => rfl
  | cons chunk chunks ih =>
    cases hstate : s.state with
    | active => simp only [List.cons_append, run, hstate, ih]
    | parsing => cases ys <;> simp only [List.cons_append, run, hstate]
    | closing => cases ys <;> simp only [List.cons_append, run, hstate]

theorem admits_append (rxBufBytes connId : Nat) (sink : List Request → Request → SinkResult)
    (s : Stream) (xs ys : List Bytes) :
    s.Admits rxBufBytes connId sink (xs ++ ys) ↔
      s.Admits rxBufBytes connId sink xs ∧
        (s.run rxBufBytes connId sink xs).Admits rxBufBytes connId sink ys := by
  induction xs generalizing s with
  | nil => simp only [List.nil_append, Admits, run, true_and]
  | cons chunk chunks ih =>
    cases hstate : s.state with
    | active => simp only [List.cons_append, Admits, run, hstate, ih, forall_const, and_assoc]
    | parsing => cases ys <;> simp [Admits, run, hstate]
    | closing => cases ys <;> simp [Admits, run, hstate]

/-- Where the loop stands after the bytes `got`. -/
structure Follows (rxBufBytes connId : Nat) (got : Bytes) (s : Stream) : Prop where
  handled : s.handled = (cutFrames got).frames.map (request connId)
  bad : (cutFrames got).bad = true → s.state = .closing
  good : (cutFrames got).bad = false →
    s.state = .active ∧ s.rx.Ok ∧ s.rx.data = (cutFrames got).leftover ∧
      s.rx.writable = rxBufBytes

variable {rxBufBytes connId : Nat} {sink : List Request → Request → SinkResult} {s : Stream}

theorem start_follows : (start rxBufBytes).Follows rxBufBytes connId [] where
  handled := rfl
  bad h := by simp [cutFrames] at h
  good _ := by
    have hok := Rx.init_ok rxBufBytes
    refine ⟨rfl, Rx.prepare_ok hok _, (Rx.prepare_data hok _).trans rfl, ?_⟩
    exact Rx.prepare_writable (by rw [Rx.init, length_resize, Nat.zero_add])

/-- Replies leave the receive side alone. -/
theorem foldl_drain_replies {replies : List OutboxItem} (h : ∀ it ∈ replies, it.kind = .respond)
    (s : Stream) : replies.foldl (drain rxBufBytes) s = s := by
  induction replies with
  | nil => rfl
  | cons it rest ih =>
    obtain ⟨hit, hrest⟩ := List.forall_mem_cons.mp h
    rw [List.foldl_cons, drain, hit]
    exact ih hrest

/-- The last item of a batch, as the main thread finds it. -/
theorem drain_last {b : Batch} (h : s.state = .parsing) :
    drain rxBufBytes s b.last =
      if b.bad then { s with state := .closing }
      else { s with rx := (s.rx.feed b.leftover).prepare rxBufBytes, state := .active } := by
  unfold Batch.last
  split
  · rfl
  · simp [drain, h]

/-- A leftover that is fed back and the room for the next `recv`. -/
theorem rearm (leftover : Bytes) :
    (((Rx.init rxBufBytes).feed leftover).prepare rxBufBytes).Ok ∧
      (((Rx.init rxBufBytes).feed leftover).prepare rxBufBytes).data = leftover ∧
      (((Rx.init rxBufBytes).feed leftover).prepare rxBufBytes).writable = rxBufBytes := by
  obtain ⟨hok, hdata⟩ := Rx.feed_ok_data (Rx.init_ok rxBufBytes) leftover
  refine ⟨Rx.prepare_ok hok _, (Rx.prepare_data hok _).trans hdata, Rx.prepare_writable ?_⟩
  have hmark : ((Rx.init rxBufBytes).feed leftover).rxLen = leftover.length := Nat.zero_add _
  rw [Rx.feed_init_length, hmark]
  omega

/-- The check for too much data never fires: half a frame and one `recv` fit. -/
theorem no_overflow {got chunk : Bytes} (h : s.Follows rxBufBytes connId got)
    (hgood : (cutFrames got).bad = false) (hfit : chunk.length ≤ s.rx.writable) :
    ¬ ((s.rx.receive chunk).commit chunk.length).rxLen >
      kHeaderLen + kMaxMessageLen + rxBufBytes := by
  obtain ⟨-, hok, hdata, hroom⟩ := h.good hgood
  have hleft := leftover_length hgood
  rw [← hdata, Rx.data_length hok] at hleft
  change ¬ s.rx.rxLen + chunk.length > _
  omega

/-- **One completion.** -/
theorem Follows.round (hsink : ∀ handled req, (sink handled req).Accepts) {got chunk : Bytes}
    (h : s.Follows rxBufBytes connId got) (hgood : (cutFrames got).bad = false)
    (hfit : chunk.length ≤ s.rx.writable) :
    (s.round rxBufBytes connId sink chunk).Follows rxBufBytes connId (got ++ chunk) := by
  obtain ⟨-, hok, hdata, -⟩ := h.good hgood
  have hraw : (((s.rx.receive chunk).commit chunk.length).take rxBufBytes).1 =
      (cutFrames got).leftover ++ chunk := by
    rw [Rx.take_fst (Rx.receive_ok hok hfit), Rx.receive_data hok, hdata]
  have hwhole := frameDecoder.cut_append got chunk
  rw [← cutFrames, ← cutFrames, ← cutFrames, hgood, if_neg (by decide)] at hwhole
  -- the batch is cut from the leftover and what has come
  generalize hb : Batch.start connId ((cutFrames got).leftover ++ chunk) = b
  obtain ⟨hhanded, replies, hitems, hreplies⟩ := b.run_of_accepts hsink b.frames s.handled
  have hround : s.round rxBufBytes connId sink chunk =
      drain rxBufBytes ⟨Rx.init rxBufBytes, .parsing,
        s.handled ++ b.frames.map (request b.connId)⟩ b.last := by
    simp only [Stream.round, if_neg (no_overflow h hgood hfit), hraw, workerBatch, hb, hhanded,
      hitems, Rx.take_snd, List.foldl_append, foldl_drain_replies hreplies, List.foldl_cons,
      List.foldl_nil]
  have hhandled : s.handled ++ b.frames.map (request b.connId) =
      (cutFrames (got ++ chunk)).frames.map (request connId) := by
    rw [hwhole, List.map_append, h.handled, ← hb]
    rfl
  have hbad : (cutFrames (got ++ chunk)).bad = b.bad := by rw [hwhole, ← hb]; rfl
  have hleft : (cutFrames (got ++ chunk)).leftover = b.leftover := by rw [hwhole, ← hb]; rfl
  rw [hround, drain_last rfl]
  split
  case isTrue htrue =>
    refine ⟨hhandled, fun _ => rfl, fun hnot => ?_⟩
    rw [hbad, htrue] at hnot
    cases hnot
  case isFalse hfalse =>
    refine ⟨hhandled, fun hnot => absurd (hbad.symm.trans hnot) hfalse, fun _ => ⟨rfl, ?_⟩⟩
    rw [hleft]
    exact rearm _

/-- **Every run.** -/
theorem Follows.run (hsink : ∀ handled req, (sink handled req).Accepts) {got : Bytes}
    {chunks : List Bytes} (h : s.Follows rxBufBytes connId got)
    (hfit : s.Admits rxBufBytes connId sink chunks) :
    (s.run rxBufBytes connId sink chunks).Follows rxBufBytes connId (got ++ chunks.flatten) := by
  induction chunks generalizing got s with
  | nil => simpa only [Stream.run, List.flatten_nil, List.append_nil] using h
  | cons chunk chunks ih =>
    cases hbad : (cutFrames got).bad with
    | true =>
      -- what follows a bad frame is not received, and cutting stops there too
      have hclosing := h.bad hbad
      have hwhole := frameDecoder.cut_append got (chunk :: chunks).flatten
      rw [← cutFrames, ← cutFrames, if_pos hbad] at hwhole
      simp only [Stream.run, hclosing]
      refine ⟨?_, fun _ => hclosing, fun hnot => ?_⟩
      · rw [hwhole]
        exact h.handled
      · rw [hwhole, hbad] at hnot
        cases hnot
    | false =>
      have hactive := (h.good hbad).1
      obtain ⟨⟨-, hroom⟩, hrest⟩ := hfit hactive
      simp only [Stream.run, hactive]
      rw [List.flatten_cons, ← List.append_assoc]
      exact ih (h.round hsink hbad hroom) hrest

end Stream

/-- **Chunking does not matter.** However a stream is split into completions,
the sink gets the frames of the whole stream in order, the connection is
closed exactly when the whole stream has a bad frame, and otherwise its
receive area holds what the whole stream leaves over. -/
theorem reassembly {rxBufBytes connId : Nat} {sink : List Request → Request → SinkResult}
    (hsink : ∀ handled req, (sink handled req).Accepts) {chunks : List Bytes}
    (hfit : (Stream.start rxBufBytes).Admits rxBufBytes connId sink chunks) :
    ((Stream.start rxBufBytes).run rxBufBytes connId sink chunks).handled =
        (cutFrames chunks.flatten).frames.map (request connId) ∧
      (((Stream.start rxBufBytes).run rxBufBytes connId sink chunks).state = .closing ↔
        (cutFrames chunks.flatten).bad = true) ∧
      ((cutFrames chunks.flatten).bad = false →
        ((Stream.start rxBufBytes).run rxBufBytes connId sink chunks).rx.data =
          (cutFrames chunks.flatten).leftover) := by
  have h := Stream.start_follows.run hsink hfit
  rw [List.nil_append] at h
  refine ⟨h.handled, ⟨fun hclosing => ?_, h.bad⟩, fun hgood => (h.good hgood).2.2.1⟩
  by_contra hnot
  rw [(h.good (Bool.eq_false_iff.mpr hnot)).1] at hclosing
  cases hclosing

/-- A frame with a payload of two bytes in three pieces, then no frame. -/
def threePieces : List Bytes :=
  [[0x46, 0x42, 0x45, 0x42, 0x15], [0, 7, 0, 0, 0, 2, 0, 0],
    [0, 1, 2, 0x46, 0x42, 0x45, 0x41], [1, 1, 1, 1, 1, 1, 1, 1], [1, 1, 1, 1, 1, 1, 1, 1]]

theorem reassembly_threePieces :
    ((Stream.start 8).run 8 3 (fun _ _ => .reply []) threePieces).handled =
        [⟨3, ridePositionReport, 7, [1, 2]⟩] ∧
      ((Stream.start 8).run 8 3 (fun _ _ => .reply []) threePieces).state = .closing := by
  have hfit : (Stream.start 8).Admits 8 3 (fun _ _ => .reply []) threePieces :=
    fun _ => ⟨by decide +kernel, fun _ => ⟨by decide +kernel, fun _ => ⟨by decide +kernel,
      fun _ => ⟨by decide +kernel, fun _ => ⟨by decide +kernel, trivial⟩⟩⟩⟩⟩
  have htakes : ∀ (_ : List Request) (_ : Request), (SinkResult.reply []).Accepts :=
    fun _ _ => trivial
  obtain ⟨hhandled, hclosing, -⟩ := reassembly htakes hfit
  exact ⟨hhandled.trans (by decide +kernel), hclosing.mpr (by decide +kernel)⟩

end SharedBike.Gateway
