import SharedBike.Gateway.Each
import SharedBike.Gateway.Reassembly

/-!
# The room for a `recv`

`complete_recv` closes a connection whose valid bytes exceed the largest frame and
one receive buffer. It never comes to that. What a worker gives back waits for
more bytes, so it is shorter than the largest frame; `rx_feed` and `rx_prepare` then
make room for exactly one receive buffer behind it; and the kernel writes no more
than it was given.

`Connection.Receives` is that as a property of each connection, in every run of the
gateway. So every completion that brings bytes posts a batch with all that is valid
(`completeRecv_posts`).
-/

namespace SharedBike.Gateway

open SharedBike.Lib SharedBike.Wire

namespace Rx

/-- An area that has the room is left alone. -/
theorem prepare_of_writable {rx : Rx} (h : rx.Ok) {spare : Nat} (hroom : rx.writable = spare) :
    rx.prepare spare = rx := by
  unfold prepare
  rw [if_neg]
  unfold writable at hroom
  unfold Ok at h
  omega

theorem init_writable (n : Nat) : (init n).writable = n := by
  rw [writable, init, length_resize, Nat.sub_zero]

end Rx

/-- A connection that waits for bytes holds less than the largest frame and has room
for one receive buffer; one that is with a worker holds nothing. -/
structure Connection.Receives (opt : GatewayOptions) (c : Connection) : Prop where
  active : c.state = .active →
    c.rx.Ok ∧ c.rx.rxLen < kHeaderLen + kMaxMessageLen ∧ c.rx.writable = opt.rxBufBytes
  parsing : c.state = .parsing → c.rx = Rx.init opt.rxBufBytes

/-- Half a frame. -/
def HalfFrame (bytes : Bytes) : Prop := bytes.length < kHeaderLen + kMaxMessageLen

/-- What a worker gives back has room for one receive buffer behind it. -/
theorem receives_upheld (opt : GatewayOptions) :
    Upheld opt (fun _ => True) (fun _ => HalfFrame) (Connection.Receives opt) where
  closing h := by
    refine ⟨fun hactive => ?_, fun hparsing => ?_⟩
    · cases h.symm.trans hactive
    · cases h.symm.trans hparsing
  made _ _ _ _ := ⟨fun _ => ⟨Rx.init_ok _, Nat.zero_lt_succ _, Rx.init_writable _⟩, fun _ => rfl⟩
  posted {c} h op n := by
    refine ⟨fun hactive => ?_, fun hparsing => ?_⟩
    · obtain ⟨hok, hlen, hroom⟩ := h.active hactive
      have hsame := Rx.prepare_of_writable hok hroom
      simp only [hsame]
      exact ⟨hok, hlen, hroom⟩
    · have hrx := h.parsing hparsing
      have hsame := Rx.prepare_of_writable (Rx.init_ok _) (Rx.init_writable opt.rxBufBytes)
      simp only [hrx, hsame]
  rearmed {c bytes} h hparsing hfed op n := by
    refine ⟨fun _ => ?_, nofun⟩
    obtain ⟨hok, hdata, hroom⟩ := @Stream.rearm opt.rxBufBytes bytes
    simp only [h.parsing hparsing]
    refine ⟨hok, ?_, hroom⟩
    rw [← Rx.data_length hok, hdata]
    exact hfed
  pushed h _ _ := ⟨h.active, h.parsing⟩
  sending h _ _ := ⟨h.active, h.parsing⟩
  received _ _ _ _ := ⟨nofun, fun _ => rfl⟩
  sent h _ _ _ _ := ⟨h.active, h.parsing⟩

/-- Every connection of every run, and what the workers give back to it. -/
theorem MainLoop.receives {opt : GatewayOptions} {g : MainLoop}
    (h : (MainLoop.machine opt).Reachable g) :
    g.EachInv (fun _ => HalfFrame) (Connection.Receives opt) :=
  MainLoop.each (receives_upheld opt) (fun _ _ hgood => leftover_length hgood) (fun _ => trivial) h

/-- A completion that brings bytes within the room stays below the limit, so all that is
valid goes to a worker. -/
theorem Engine.completeRecv_posts {opt : GatewayOptions} {c : Connection} {res : Int} {data : Bytes}
    (hc : c.Receives opt) (hactive : c.state = .active) (hres : 0 < res)
    (hdata : (data.length : Int) = res) (hfit : data.length ≤ c.rx.writable) (e : Engine) :
    ((c.rx.receive data).commit res.toNat).rxLen ≤
        kHeaderLen + kMaxMessageLen - 1 + opt.rxBufBytes ∧
      completeRecv opt res data c e =
        { e.setConn { c with
            rx := Rx.init opt.rxBufBytes, recvOp := none, pendingOps := c.pendingOps - 1,
            lastActive := e.now, state := .parsing } with
          batches := e.batches ++ [Batch.start c.connId (c.rx.data ++ data)] } := by
  obtain ⟨hok, hlen, hroom⟩ := hc.active hactive
  have hcount : res.toNat = data.length := by omega
  have hmark : ((c.rx.receive data).commit res.toNat).rxLen ≤
      kHeaderLen + kMaxMessageLen - 1 + opt.rxBufBytes := by
    change c.rx.rxLen + res.toNat ≤ _
    omega
  refine ⟨hmark, ?_⟩
  have hvalid : (((c.rx.receive data).commit res.toNat).take opt.rxBufBytes).1 =
      c.rx.data ++ data := by
    rw [hcount, Rx.take_fst (Rx.receive_ok hok hfit), Rx.receive_data hok]
  unfold completeRecv
  dsimp only
  rw [if_neg (by rw [hactive]; nofun), if_neg (by omega), if_neg (by omega),
    if_neg (by rw [gt_iff_lt, Nat.not_lt]; omega), hvalid]
  rfl

namespace Engine

variable {opt : GatewayOptions} {e : Engine} {id : Nat} {c : Connection} {q : Completion}

/-- A `recv` brings no more than it has room for. -/
theorem promised_recv (h : e.promised ⟨.recv, some id⟩ q = true) (hc : e.conns id = some c) :
    (q.data.length : Int) = max q.res 0 ∧ q.data.length ≤ c.rx.writable := by
  simpa only [promised, Option.bind_some, hc, Bool.and_eq_true, beq_iff_eq, decide_eq_true_eq]
    using h

/-- When it completes for an open connection, this is what happens. -/
theorem onCqe_posts {free : Nat → Prop} {due : List OutboxItem} (h : e.toTable.Lifecycle free due)
    {o : Nat} (ho : e.ops o = some ⟨.recv, some id⟩) (hc : e.conns id = some c)
    (hreceives : c.Receives opt) (hopen : c.state ≠ .closing) (hres : 0 < q.res)
    (hpromised : e.promised ⟨.recv, some id⟩ q = true) (items : List OutboxItem) :
    ((c.rx.receive q.data).commit q.res.toNat).rxLen ≤
        kHeaderLen + kMaxMessageLen - 1 + opt.rxBufBytes ∧
      (onCqe opt o ⟨.recv, some id⟩ q items e).batches =
        e.batches ++ [Batch.start id (c.rx.data ++ q.data)] ∧
      ∃ d, (onCqe opt o ⟨.recv, some id⟩ q items e).conns id = some d ∧ d.state = .parsing := by
  obtain ⟨hdata, hfit⟩ := promised_recv hpromised hc
  obtain ⟨hmark, hposts⟩ := completeRecv_posts hreceives (h.of_recv ho hc hopen).1 hres (by omega)
    hfit { e with toTable := e.toTable.dropOp o }
  refine ⟨hmark, ?_⟩
  simp only [onCqe, atConn, Option.bind_some, Table.dropOp, hc] at hposts ⊢
  rw [hposts, (h.booked.named hc).1]
  exact ⟨rfl, _, Function.update_self _ _ _, rfl⟩

end Engine

end SharedBike.Gateway
