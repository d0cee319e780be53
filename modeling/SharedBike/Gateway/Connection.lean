import SharedBike.Wire.Protocol

/-!
# A connection of the gateway

`conn_context.hpp`: the receive area, the send queue and the fields that
the engine keeps for each connection. The receive area is a vector that is
always filled up to its size, of which the first `rxLen` bytes are valid.
The kernel writes behind them, `rx_commit` moves the mark only, and
`rx_take` hands the valid bytes over and starts on a new vector. The laws
say what each operation does to the valid bytes (`Rx.data`): nothing that
was received is lost, moved or zeroed.
-/

namespace SharedBike.Gateway

open SharedBike.Lib SharedBike.Wire

/-! ## Vectors -/

/-- `std::vector::resize`: cut off, or fill up with zeros. -/
def resize (v : Bytes) (n : Nat) : Bytes := v.take n ++ List.replicate (n - v.length) 0

/-- Write bytes over a vector, from an offset on. -/
def overwrite (v : Bytes) (off : Nat) (bytes : Bytes) : Bytes :=
  v.take off ++ bytes ++ v.drop (off + bytes.length)

theorem length_resize (v : Bytes) (n : Nat) : (resize v n).length = n := by
  simp only [resize, List.length_append, List.length_take, List.length_replicate]
  omega

/-- Growing keeps what was there. -/
theorem take_resize {v : Bytes} {k n : Nat} (hk : k ≤ v.length) (hn : k ≤ n) :
    (resize v n).take k = v.take k := by
  rw [resize, List.take_append_of_le_length (by rw [List.length_take]; omega), List.take_take,
    Nat.min_eq_left hn]

theorem resize_of_le {v : Bytes} {n : Nat} (h : n ≤ v.length) : resize v n = v.take n := by
  rw [resize, Nat.sub_eq_zero_of_le h, List.replicate_zero, List.append_nil]

theorem length_overwrite {v bytes : Bytes} {off : Nat} (h : off + bytes.length ≤ v.length) :
    (overwrite v off bytes).length = v.length := by
  simp only [overwrite, List.length_append, List.length_take, List.length_drop]
  omega

/-- What is written follows what stood before the offset. -/
theorem take_overwrite {v bytes : Bytes} {off : Nat} (h : off ≤ v.length) :
    (overwrite v off bytes).take (off + bytes.length) = v.take off ++ bytes := by
  rw [overwrite, List.take_append_of_le_length]
  · exact List.take_of_length_le (by simp [Nat.min_eq_left h])
  · simp [Nat.min_eq_left h]

/-! ## The receive area -/

structure Rx where
  pending : Bytes
  rxLen : Nat
  deriving DecidableEq

namespace Rx

/-- The area of a new connection. -/
def init (rxBufBytes : Nat) : Rx := ⟨resize [] rxBufBytes, 0⟩

/-- `rx_prepare` -/
def prepare (rx : Rx) (spare : Nat) : Rx :=
  if rx.pending.length < rx.rxLen + spare then
    { rx with pending := resize rx.pending (rx.rxLen + spare) }
  else rx

/-- The size of `rx_writable`. -/
def writable (rx : Rx) : Nat := rx.pending.length - rx.rxLen

/-- The kernel carries out a `recv`: it writes at the start of `rx_writable`. -/
def receive (rx : Rx) (bytes : Bytes) : Rx :=
  { rx with pending := overwrite rx.pending rx.rxLen bytes }

/-- `rx_commit` -/
def commit (rx : Rx) (n : Nat) : Rx := { rx with rxLen := rx.rxLen + n }

/-- `rx_take`: the valid bytes, and a new area. -/
def take (rx : Rx) (reserveCap : Nat) : Bytes × Rx :=
  (resize rx.pending rx.rxLen, ⟨resize [] reserveCap, 0⟩)

/-- `rx_feed` -/
def feed (rx : Rx) (leftover : Bytes) : Rx :=
  let pending :=
    if rx.rxLen + leftover.length > rx.pending.length then
      resize rx.pending (rx.rxLen + leftover.length)
    else rx.pending
  ⟨overwrite pending rx.rxLen leftover, rx.rxLen + leftover.length⟩

/-- The valid bytes. -/
def data (rx : Rx) : Bytes := rx.pending.take rx.rxLen

/-- The mark is within the vector. -/
def Ok (rx : Rx) : Prop := rx.rxLen ≤ rx.pending.length

variable {rx : Rx}

theorem data_length (h : rx.Ok) : rx.data.length = rx.rxLen := by
  rw [data, List.length_take]
  exact Nat.min_eq_left h

theorem init_ok (n : Nat) : (init n).Ok := Nat.zero_le _

theorem prepare_ok (h : rx.Ok) (spare : Nat) : (rx.prepare spare).Ok := by
  unfold prepare
  split
  · rw [Ok, length_resize]
    exact Nat.le_add_right _ _
  · exact h

theorem prepare_data (h : rx.Ok) (spare : Nat) : (rx.prepare spare).data = rx.data := by
  unfold prepare
  split
  · exact take_resize h (Nat.le_add_right _ _)
  · rfl

/-- An area with less room than asked for gets exactly that room. -/
theorem prepare_writable {spare : Nat} (h : rx.pending.length ≤ rx.rxLen + spare) :
    (rx.prepare spare).writable = spare := by
  unfold prepare writable
  split
  · simp only [length_resize, Nat.add_sub_cancel_left]
  · omega

theorem receive_ok (h : rx.Ok) {bytes : Bytes} (hfit : bytes.length ≤ rx.writable) :
    ((rx.receive bytes).commit bytes.length).Ok := by
  have hroom : rx.rxLen + bytes.length ≤ rx.pending.length := by
    rw [writable] at hfit
    rw [Ok] at h
    omega
  change rx.rxLen + bytes.length ≤ (overwrite rx.pending rx.rxLen bytes).length
  rwa [length_overwrite hroom]

/-- What is received follows what was there. -/
theorem receive_data (h : rx.Ok) (bytes : Bytes) :
    ((rx.receive bytes).commit bytes.length).data = rx.data ++ bytes := take_overwrite h

/-- What is taken is what was valid. -/
theorem take_fst (h : rx.Ok) (cap : Nat) : (rx.take cap).1 = rx.data := resize_of_le h

theorem take_snd (rx : Rx) (cap : Nat) : (rx.take cap).2 = init cap := rfl

/-- A leftover is put behind what is there. -/
theorem feed_ok_data (h : rx.Ok) (leftover : Bytes) :
    (rx.feed leftover).Ok ∧ (rx.feed leftover).data = rx.data ++ leftover := by
  unfold feed
  by_cases hgrow : rx.rxLen + leftover.length > rx.pending.length
  · have hsize := length_resize rx.pending (rx.rxLen + leftover.length)
    have hmark : rx.rxLen ≤ (resize rx.pending (rx.rxLen + leftover.length)).length := by
      rw [hsize]
      exact Nat.le_add_right _ _
    simp only [hgrow, if_true, Ok, data]
    rw [take_overwrite hmark, take_resize h (Nat.le_add_right _ _),
      length_overwrite (by rw [hsize]), hsize]
    exact ⟨Nat.le_refl _, rfl⟩
  · simp only [hgrow, if_false, Ok, data]
    rw [take_overwrite h, length_overwrite (Nat.not_lt.mp hgrow)]
    exact ⟨Nat.not_lt.mp hgrow, rfl⟩

/-- A new area is as large as it was asked to be, or as the leftover it is fed. -/
theorem feed_init_length (cap : Nat) (leftover : Bytes) :
    ((init cap).feed leftover).pending.length = max cap leftover.length := by
  have hinit : (init cap).pending.length = cap := length_resize [] cap
  have hmark : (init cap).rxLen = 0 := rfl
  unfold feed
  simp only [hinit, hmark, Nat.zero_add]
  split
  · rw [length_overwrite (by rw [length_resize, Nat.zero_add]), length_resize]
    omega
  · rw [length_overwrite (by rw [hinit]; omega), hinit]
    omega

end Rx

/-! ## The connection -/

inductive ConnState where
  | active
  | parsing
  | closing
  deriving DecidableEq

/-- Operations in flight are named by a number, for their address. -/
structure Connection where
  fd : Int
  connId : Nat
  rx : Rx
  sendQ : List Bytes
  sendBytes : Nat
  sendActive : Bool
  state : ConnState
  pendingOps : Int
  recvOp : Option Nat
  sendOp : Option Nat
  lastActive : Int
  deriving DecidableEq

namespace Connection

/-- The constructor. -/
def new (fd : Int) (connId rxBufBytes : Nat) (now : Int) : Connection where
  fd := fd
  connId := connId
  rx := Rx.init rxBufBytes
  sendQ := []
  sendBytes := 0
  sendActive := false
  state := .active
  pendingOps := 0
  recvOp := none
  sendOp := none
  lastActive := now

/-- `release_fd`: the caller has to close what it gets. -/
def releaseFd (c : Connection) : Int × Connection := (c.fd, { c with fd := -1 })

def sendPush (c : Connection) (bytes : Bytes) : Connection :=
  { c with sendBytes := c.sendBytes + bytes.length, sendQ := c.sendQ ++ [bytes] }

def sendPending (c : Connection) : Bool := !c.sendQ.isEmpty

/-- The loop of `send_pop` over the queue and its byte count. -/
def popSent : Nat → List Bytes → Nat → List Bytes × Nat
  | _, [], total => ([], total)
  | n, head :: rest, total =>
    if n = 0 then (head :: rest, total)
    else if n < head.length then (head.drop n :: rest, total - n)
    else popSent (n - head.length) rest (total - head.length)

/-- Take off what was sent; a head that was sent in part is cut. -/
def sendPop (c : Connection) (n : Nat) : Connection :=
  let (sendQ, sendBytes) := popSent n c.sendQ c.sendBytes
  { c with sendQ, sendBytes }

end Connection

end SharedBike.Gateway
