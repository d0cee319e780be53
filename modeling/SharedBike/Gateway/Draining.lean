import SharedBike.Gateway.Standing
import SharedBike.Gateway.Replies

/-!
# The outbox while the gateway drains

A worker ends its batch with one terminal item, behind the replies. No
connection is owed two of them, so a terminal item is the last that the
outbox has for its connection (`Orderly`), and a drain of the outbox meets
all replies of a batch before its end.

While the gateway drains, the end of a batch closes the connection. What is
then still on the send queue goes out only if a `send` is in flight for it:
`Leaving` is a connection with such a `send`, or one that is gone with
nothing left to send.
-/

namespace SharedBike.Gateway

open SharedBike.Lib SharedBike.Wire Function

/-! ## The order of the outbox -/

/-- A worker gives back one item at a time. -/
theorem Batch.step_items (b : Batch) (x : SinkResult) :
    (b.step x).1 = [] ∨ ∃ it, (b.step x).1 = [it] ∧ it.connId = b.connId := by
  unfold step
  cases b.frames with
  | nil =>
    refine .inr ⟨b.last, rfl, ?_⟩
    unfold last
    split <;> rfl
  | cons f rest =>
    cases x with
    | reply bytes =>
      change b.respond f bytes = [] ∨ ∃ it, b.respond f bytes = [it] ∧ it.connId = b.connId
      unfold respond
      split
      · exact .inl rfl
      · split
        · exact .inr ⟨_, rfl, rfl⟩
        · exact .inl rfl
    | threw => exact .inl rfl
    | overload => exact .inr ⟨_, rfl, rfl⟩
    | malformed => exact .inr ⟨_, rfl, rfl⟩

/-- A batch that goes on is its connection's still. -/
theorem Batch.step_next {b b' : Batch} {x : SinkResult} (h : (b.step x).2 = some b') :
    b'.connId = b.connId := by
  unfold step at h
  cases hframes : b.frames with
  | nil =>
    rw [hframes] at h
    cases h
  | cons f rest =>
    rw [hframes] at h
    cases x <;> cases h <;> rfl

/-- The end of a connection's batch is among the items. -/
def Ends (id : Nat) (items : List OutboxItem) : Prop :=
  ∃ it ∈ items, it.connId = id ∧ it.kind ≠ .respond

instance (id : Nat) (items : List OutboxItem) : Decidable (Ends id items) :=
  inferInstanceAs (Decidable (∃ it ∈ items, it.connId = id ∧ it.kind ≠ .respond))

/-- Nothing for a connection stands behind the end of its batch. -/
def Tidy (items : List OutboxItem) : Prop :=
  items.Pairwise fun a b => a.kind ≠ .respond → b.connId ≠ a.connId

namespace MainLoop

variable {opt : GatewayOptions} {free : Nat → Prop} {g g' : MainLoop}

/-- Nobody is owed two ends of a batch, and the outbox is in order. -/
structure Orderly (g : MainLoop) : Prop where
  owed : ∀ id, g.engine.toTable.owed g.outbox id ≤ 1
  tidy : Tidy g.outbox

/-- A batch that is at work has no end in the outbox. -/
theorem Orderly.not_ends (h : g.Orderly) {b : Batch} (hb : b ∈ g.engine.batches) :
    ¬ Ends b.connId g.outbox := by
  rintro ⟨it, hit, hid, hkind⟩
  have hbatch : 0 < g.engine.batches.countP (·.connId = b.connId) :=
    List.countP_pos_iff.mpr ⟨b, hb, by simp⟩
  have hend : 0 < g.outbox.countP fun it => it.connId = b.connId ∧ it.kind ≠ .respond :=
    List.countP_pos_iff.mpr ⟨it, hit, by simp [hid, hkind]⟩
  have howed := h.owed b.connId
  rw [Table.owed] at howed
  omega

/-- And no other beside it. -/
theorem Orderly.alone (h : g.Orderly) {i : Nat} {b : Batch} (hb : g.engine.batches[i]? = some b) :
    (∀ b' ∈ g.engine.batches.take i ++ g.engine.batches.drop (i + 1), b'.connId ≠ b.connId) ∧
      ∀ it ∈ g.outbox, it.kind ≠ .respond → it.connId ≠ b.connId := by
  obtain ⟨hlt, hget⟩ := List.getElem?_eq_some_iff.mp hb
  have hsplit : g.engine.batches =
      g.engine.batches.take i ++ b :: g.engine.batches.drop (i + 1) := by
    rw [← hget, List.getElem_cons_drop, List.take_append_drop]
  refine ⟨fun b' hb' hid => ?_, fun it hit hkind hid => ?_⟩
  · have hpos : 0 < (g.engine.batches.take i ++ g.engine.batches.drop (i + 1)).countP
        (·.connId = b.connId) := List.countP_pos_iff.mpr ⟨b', hb', by simpa using hid⟩
    have howed := h.owed b.connId
    rw [Table.owed, hsplit] at howed
    simp only [List.countP_append, List.countP_cons, decide_true, if_true] at hpos howed
    omega
  · exact h.not_ends (List.mem_of_getElem? hb) ⟨it, hit, hid, hkind⟩

theorem Orderly.work (h : g.Orderly) {i : Nat} {x : SinkResult} (hwork : g.work i x = some g') :
    g'.Orderly := by
  have howed := work_owed hwork
  obtain ⟨b, hb, rfl⟩ := work_eq hwork
  refine ⟨fun id => (howed id).trans_le (h.owed id), List.pairwise_append.mpr ⟨h.tidy, ?_, ?_⟩⟩
  · rcases b.step_items x with hnil | ⟨it, hit, -⟩
    · rw [hnil]
      exact .nil
    · rw [hit]
      exact List.pairwise_singleton ..
  · intro a ha it hit hkind hid
    refine h.not_ends (List.mem_of_getElem? hb) ⟨a, ha, ?_, hkind⟩
    rcases b.step_items x with hnil | ⟨it', hit', hsame⟩
    · rw [hnil] at hit
      cases hit
    · rw [hit', List.mem_singleton] at hit
      rw [← hid, hit, hsame]

/-- A step that posts no batch and adds nothing to the outbox. -/
theorem Orderly.shrink (h : g.Orderly) (hbatches : g'.engine.batches = g.engine.batches)
    (houtbox : g'.outbox = g.outbox ∨ g'.outbox = []) : g'.Orderly := by
  refine ⟨fun id => ?_, ?_⟩
  · have howed := h.owed id
    rw [Table.owed] at howed ⊢
    rw [hbatches]
    rcases houtbox with hsame | hnil
    · rw [hsame]
      exact howed
    · rw [hnil, List.countP_nil]
      omega
  · rcases houtbox with hsame | hnil
    · rw [hsame]
      exact h.tidy
    · rw [hnil]
      exact .nil

theorem Orderly.next (h : g.Orderly) (hinv : g.Inv free) {ev : Event}
    (hnext : g.next opt ev = some g') : g'.Orderly := by
  obtain ⟨action, answers, now⟩ := ev
  generalize hg : ({ g with engine := { g.engine with answers := answers, now := now } } : MainLoop) =
    g₁
  have h₁ : g₁.Orderly := by rw [← hg]; exact ⟨h.owed, h.tidy⟩
  have hinv₁ : g₁.Inv free := by rw [← hg]; exact ⟨hinv.lifecycle, hinv.fds⟩
  change MainLoop.step opt _ action = some g' at hnext
  rw [hg] at hnext
  cases action with
  | cqe o q =>
    obtain ⟨op, hop, hstage, -, rfl⟩ := cqe_eq hnext
    have houtbox : (if op.kind = .wakeup then [] else g₁.outbox) = g₁.outbox ∨
        (if op.kind = .wakeup then [] else g₁.outbox) = [] := by
      split
      · exact .inr rfl
      · exact .inl rfl
    rcases Engine.onCqe_batches opt (hinv₁.lifecycle hstage) hop q g₁.outbox with
      hsame | ⟨id, c, raw, rfl, hc, hopen, -, hposted⟩
    · exact h₁.shrink hsame houtbox
    · have howed := ((hinv₁.lifecycle hstage).of_recv hop hc hopen).2
      refine ⟨fun j => ?_, h₁.tidy⟩
      have hbefore := h₁.owed j
      simp only [Table.owed, reduceCtorEq, if_false, hposted, List.countP_append,
        List.countP_singleton] at howed hbefore ⊢
      by_cases hj : id = j
      · subst hj
        simp only [Batch.start, decide_true, if_true]
        omega
      · simp only [Batch.start, hj, decide_false, Bool.false_eq_true, if_false]
        omega
  | work i x => exact h₁.work hnext
  | _ =>
    obtain ⟨hkeeps, houtbox⟩ := turn_keeps (k := .accept) (by decide) (by rintro _ _ ⟨⟩)
      (by rintro _ _ ⟨⟩) hnext
    exact h₁.shrink hkeeps.batches (.inl houtbox)

theorem start_batches (opt : GatewayOptions) (answers : List Bool) :
    (start opt answers).engine.batches = [] := by
  have hop : ∀ (op : UringOp) (e : Engine), (e.submitOp op).2.batches = e.batches := by
    intro op e
    rcases Engine.submitOp_snd op e with ⟨hsame, -⟩ | hadded
    · rw [hsame]
    · rw [hadded]
      rfl
  have hreads : (Engine.submitStopRead (Engine.submitEventfdRead
      (Engine.submitAccept (Engine.new answers)))).batches = [] := by
    rw [Engine.submitStopRead, hop, Engine.submitEventfdRead, hop, Engine.submitAccept, hop]
    rfl
  unfold start Engine.start
  dsimp only
  split
  · rw [Engine.submitRspNotifyRead, hop]
    exact hreads
  · exact hreads

theorem Orderly.start (opt : GatewayOptions) (answers : List Bool) :
    (MainLoop.start opt answers).Orderly := by
  refine ⟨fun id => ?_, .nil⟩
  rw [Table.owed, start_batches]
  exact Nat.zero_le _

theorem Orderly.of_reachable (h : (machine opt).Reachable g) : g.Orderly := by
  induction h with
  | start hg =>
    obtain ⟨answers, rfl⟩ := hg
    exact .start opt answers
  | step hg _ hnext ih => exact ih.next (Inv.of_reachable hg) hnext

end MainLoop

/-! ## One connection -/

/-- What still has to go out for a connection that is closing is in the hands of a
`send`; for one that is gone nothing has. -/
def Leaving (unsent : Bytes) : Option Connection → Prop
  | none => unsent = []
  | some c => c.state = .closing ∧ c.recvOp = none ∧ c.sendOp.isSome ∧ c.sendQ.flatten = unsent

theorem Leaving.closing {unsent : Bytes} {x : Option Connection} {c : Connection}
    (h : Leaving unsent x) (hc : x = some c) : c.state = .closing := by
  subst hc
  exact h.1

namespace Engine

variable {opt : GatewayOptions} {free : Nat → Prop} {due : List OutboxItem} {e : Engine}
  {c : Connection} {id : Nat} {items : List OutboxItem} {it : OutboxItem}

theorem drainItem_respond (hc : e.conns it.connId = some c) (hopen : c.state ≠ .closing)
    (hkind : it.kind = .respond) :
    drainItem opt e it = pushResponse opt it.bytes c e := by
  simp only [drainItem, hc, if_neg hopen, hkind]

theorem drainItem_ends (hc : e.conns it.connId = some c) (hopen : c.state ≠ .closing)
    (hkind : it.kind ≠ .respond) (hdraining : e.draining = true) :
    drainItem opt e it = closeConn c e := by
  simp only [drainItem, hc, if_neg hopen]
  cases hk : it.kind with
  | respond => exact absurd hk hkind
  | rearmRecv => simp only [hdraining, if_true]
  | close => rfl

theorem drainItem_of_ne (h : e.toTable.Lifecycle free due) (hid : it.connId ≠ id) :
    (drainItem opt e it).conns id = e.conns id := by
  obtain ⟨x, -, hconns⟩ := drainItem_taken opt it h
  rw [hconns, update_of_ne (Ne.symm hid)]

theorem drainOutbox_of_ne (h : e.toTable.Lifecycle free items)
    (hids : ∀ it ∈ items, it.connId ≠ id) :
    (drainOutbox opt items e).conns id = e.conns id := by
  induction items generalizing e with
  | nil => rfl
  | cons it rest ih =>
    rw [List.forall_mem_cons] at hids
    exact (ih (drainItem_lifecycle h) hids.2).trans (drainItem_of_ne h hids.1)

theorem forConn_replies_of_ne (hids : ∀ it ∈ items, it.connId ≠ id) :
    forConn id (replies items) = [] := by
  induction items with
  | nil => rfl
  | cons it rest ih =>
    rw [List.forall_mem_cons] at hids
    rw [replies_cons, forConn_append, it.forConn_reply_of_ne hids.1, ih hids.2]
    rfl

theorem forConn_queuedItems_of_ne (hids : ∀ it ∈ items, it.connId ≠ id) (e : Engine) :
    forConn id (queuedItems opt e items) = [] := by
  induction items generalizing e with
  | nil => rfl
  | cons it rest ih =>
    rw [List.forall_mem_cons] at hids
    rw [queuedItems, forConn_append, ih hids.2, List.append_nil]
    split
    · exact it.forConn_reply_of_ne hids.1
    · rfl

/-- Closing a connection that has a `send` for what it has to send. -/
theorem closeConn_leaving (hcounted : c.Counted) (hopen : c.state ≠ .closing)
    (hrecv : c.recvOp = none) (hsending : c.sendQ = [] ∨ c.sendOp.isSome) (e : Engine) :
    Leaving c.sendQ.flatten ((closeConn c e).conns c.connId) := by
  rw [closeConn_conns hopen, update_self]
  have hpending := hcounted.pendingOps
  simp only [hrecv, Option.isSome_none, Bool.false_eq_true, if_false] at hpending
  unfold rest
  split
  next hpos =>
    refine ⟨rfl, hrecv, ?_, rfl⟩
    change c.sendOp.isSome = true
    by_contra hnone
    rw [if_neg hnone] at hpending
    change 0 < c.pendingOps at hpos
    omega
  next hzero =>
    rcases hsending with hnil | hsend
    · rw [hnil]
      rfl
    · rw [if_pos hsend] at hpending
      change ¬ 0 < c.pendingOps at hzero
      omega

/-- **A drain of the outbox, while the gateway drains,** seen from a connection
that is with a worker. Every reply for it is queued; with the end of its batch
among the items it leaves, otherwise it goes on waiting. -/
theorem drainOutbox_parsing (h : e.toTable.Lifecycle free items) (htidy : Tidy items)
    (hdraining : e.draining = true) (hc : e.conns id = some c) (hparsing : c.state = .parsing)
    (hrecv : c.recvOp = none)
    (hfits : c.sendBytes + (forConn id (replies items)).flatten.length ≤ opt.sendBacklogLimit)
    (hready : Ends id items → false ∉ e.answers ∧ (c.sendQ = [] ∨ c.sendOp.isSome)) :
    forConn id (queuedItems opt e items) = forConn id (replies items) ∧
      (Ends id items → Leaving (c.sendQ ++ forConn id (replies items)).flatten
        ((drainOutbox opt items e).conns id)) ∧
      (¬ Ends id items → ∃ d, (drainOutbox opt items e).conns id = some d ∧ d.state = .parsing) := by
  have hopen : c.state ≠ .closing := by rw [hparsing]; decide
  induction items generalizing e c with
  | nil => exact ⟨rfl, nofun, fun _ => ⟨c, hc, hparsing⟩⟩
  | cons it rest ih =>
    obtain ⟨hafter, htidy⟩ := List.pairwise_cons.mp htidy
    have hkeeps : Keeps .accept e (drainItem opt e it) := drainItem_keeps (by nofun) (by nofun) e it
    have hnext : (drainItem opt e it).toTable.Lifecycle free rest := drainItem_lifecycle h
    rw [replies_cons, forConn_append] at hfits ⊢
    rw [queuedItems, forConn_append]
    by_cases hid : it.connId = id
    · subst hid
      by_cases hkind : it.kind = .respond
      · -- a reply goes to the queue
        have hends : Ends it.connId (it :: rest) ↔ Ends it.connId rest := by simp [Ends, hkind]
        have hreply : forConn it.connId it.reply = [it.bytes] := by
          rw [OutboxItem.reply, if_pos hkind, forConn_self]
        rw [hends] at hready ⊢
        rw [hreply] at hfits ⊢
        rw [List.flatten_append, List.length_append, List.flatten_singleton] at hfits
        have hroom : c.sendBytes + it.bytes.length ≤ opt.sendBacklogLimit := by omega
        have htakes : e.takes opt it.connId it.bytes = true := by
          rw [takes, out_of_conns hc]
          simp [Connection.out, hopen, hroom]
        obtain ⟨d, hconns, hout, hdrecv, hdsend⟩ := pushResponse_conns hroom e
        rw [(h.booked.named hc).1] at hconns
        have hd : (drainItem opt e it).conns it.connId = some d := by
          rw [drainItem_respond hc hopen hkind, hconns, update_self]
        have hstate : d.state = c.state := congrArg Out.state hout
        have hqueue : d.sendQ = c.sendQ ++ [it.bytes] := congrArg Out.sendQ hout
        have hbytes : d.sendBytes = c.sendBytes + it.bytes.length := congrArg Out.sendBytes hout
        have hrest := ih hnext htidy (hkeeps.draining hdraining) hd (hstate.trans hparsing)
          (hdrecv.trans hrecv) (by omega) ?_ (by rw [hstate]; exact hopen)
        · rw [if_pos htakes, hreply, hrest.1]
          rw [hqueue, List.append_assoc] at hrest
          exact ⟨rfl, hrest.2⟩
        · intro hend
          have hanswers := (hready hend).1
          exact ⟨hkeeps.room hanswers, .inr (hdsend hanswers (h.booked.counted hc).sendActive)⟩
      · -- the end of the batch closes the connection, and nothing comes for it afterwards
        have hend : Ends it.connId (it :: rest) := ⟨it, .head _, rfl, hkind⟩
        have hnone : ∀ x ∈ rest, x.connId ≠ it.connId := fun x hx => hafter x hx hkind
        have hreply : it.reply = [] := if_neg hkind
        have hclose : drainItem opt e it = closeConn c e := drainItem_ends hc hopen hkind hdraining
        have hrest : (drainOutbox opt rest (drainItem opt e it)).conns it.connId = _ :=
          drainOutbox_of_ne hnext hnone
        have hleaving := closeConn_leaving (h.booked.counted hc) hopen hrecv (hready hend).2 e
        rw [(h.booked.named hc).1, ← hclose, ← hrest] at hleaving
        rw [forConn_queuedItems_of_ne hnone, forConn_replies_of_ne hnone, hreply, ite_self]
        refine ⟨rfl, fun _ => ?_, fun hnot => absurd hend hnot⟩
        rw [forConn_nil, List.append_nil, List.append_nil]
        exact hleaving
    · -- the item is for somebody else
      have hends : Ends id (it :: rest) ↔ Ends id rest := by simp [Ends, hid]
      have hreply := it.forConn_reply_of_ne hid
      have hnothing : forConn id (if e.takes opt it.connId it.bytes then it.reply else []) = [] := by
        split
        · exact hreply
        · rfl
      rw [hends] at hready ⊢
      rw [hreply, List.nil_append] at hfits
      rw [hreply, hnothing]
      exact ih hnext htidy (hkeeps.draining hdraining) ((drainItem_of_ne h hid).trans hc) hparsing
        hrecv hfits (fun hend => ⟨hkeeps.room (hready hend).1, (hready hend).2⟩) hopen

end Engine

end SharedBike.Gateway
