import SharedBike.Gateway.Books

/-!
# The life of a connection

Every handler of the engine keeps the invariant of the books. A handler
begins with a connection from the table, makes the moves of `Books` on it,
and ends by putting it back, settled, or by erasing it. `close_conn` is the
common way out: it needs nothing but the books, so a handler may give up on
a connection at any point.
-/

namespace SharedBike.Gateway

open SharedBike.Lib SharedBike.Wire

namespace Connection

variable {c : Connection}

theorem Counted.startRecv (h : c.Counted) (hnone : c.recvOp = none) (o : Nat) (rx : Rx) :
    Counted { c with rx := rx, recvOp := some o, pendingOps := c.pendingOps + 1 } := by
  refine ⟨?_, h.sendActive, h.fd⟩
  have hpending := h.pendingOps
  simp only [hnone, Option.isSome] at hpending ⊢
  simp only [hpending, Bool.false_eq_true, if_false, if_true]
  omega

theorem Counted.startSend (h : c.Counted) (hnone : c.sendOp = none) (o : Nat) :
    Counted { c with sendOp := some o, pendingOps := c.pendingOps + 1, sendActive := true } := by
  refine ⟨?_, rfl, h.fd⟩
  have hpending := h.pendingOps
  simp only [hnone, Option.isSome] at hpending ⊢
  simp only [hpending, Bool.false_eq_true, if_false, if_true]
  omega

theorem Counted.endRecv (h : c.Counted) {o : Nat} (hop : c.recvOp = some o) (rx : Rx) :
    Counted { c with rx := rx, recvOp := none, pendingOps := c.pendingOps - 1 } := by
  refine ⟨?_, h.sendActive, h.fd⟩
  have hpending := h.pendingOps
  simp only [hop, Option.isSome] at hpending ⊢
  simp only [hpending, Bool.false_eq_true, if_false, if_true]
  omega

theorem Counted.endSend (h : c.Counted) {o : Nat} (hop : c.sendOp = some o) :
    Counted { c with sendOp := none, pendingOps := c.pendingOps - 1, sendActive := false } := by
  refine ⟨?_, rfl, h.fd⟩
  have hpending := h.pendingOps
  simp only [hop, Option.isSome] at hpending ⊢
  simp only [hpending, Bool.false_eq_true, if_false, if_true]
  omega

theorem new_counted {fd : Int} (hfd : 0 ≤ fd) (connId rxBufBytes : Nat) (now : Int) :
    (new fd connId rxBufBytes now).Counted := ⟨rfl, rfl, hfd⟩

end Connection

namespace Engine

variable {opt : GatewayOptions} {free : Nat → Prop} {due : List OutboxItem} {e : Engine}
  {c : Connection}

/-! ## Submitting -/

@[simp] theorem getSqe_toTable (e : Engine) : e.getSqe.2.toTable = e.toTable := by
  unfold getSqe
  split <;> rfl

theorem submitCancel_toTable (e : Engine) : e.submitCancel.toTable = e.toTable := getSqe_toTable e

/-- An operation is started, or the books stay as they are. -/
theorem submitOp_cases (op : UringOp) (e : Engine) :
    (∃ e', e.submitOp op = (none, e') ∧ e'.toTable = e.toTable) ∨
      ∃ e', e.submitOp op = (some e.nextOp, e') ∧ e'.toTable = e.toTable.addOp op := by
  have hbooks := getSqe_toTable e
  obtain ⟨ok, e', hsqe⟩ : ∃ ok e', e.getSqe = (ok, e') := ⟨_, _, rfl⟩
  rw [hsqe] at hbooks
  change e'.toTable = e.toTable at hbooks
  unfold submitOp
  cases ok with
  | false => exact .inl ⟨e', by rw [hsqe], hbooks⟩
  | true => exact .inr ⟨_, by rw [hsqe, ← hbooks], by rw [← hbooks]⟩

/-- An operation that belongs to no connection. -/
theorem submitOp_lifecycle {op : UringOp} (hk : op.kind ≠ .recv ∧ op.kind ≠ .send)
    (h : e.toTable.Lifecycle free due) : (e.submitOp op).2.toTable.Lifecycle free due := by
  rcases submitOp_cases op e with ⟨e', hsub, hbooks⟩ | ⟨e', hsub, hbooks⟩
  · rw [hsub, hbooks]
    exact h
  · rw [hsub, hbooks]
    exact h.addOp hk

theorem submitAccept_lifecycle (h : e.toTable.Lifecycle free due) :
    e.submitAccept.toTable.Lifecycle free due := submitOp_lifecycle ⟨nofun, nofun⟩ h

theorem submitEventfdRead_lifecycle (h : e.toTable.Lifecycle free due) :
    e.submitEventfdRead.toTable.Lifecycle free due := submitOp_lifecycle ⟨nofun, nofun⟩ h

theorem submitStopRead_lifecycle (h : e.toTable.Lifecycle free due) :
    e.submitStopRead.toTable.Lifecycle free due := submitOp_lifecycle ⟨nofun, nofun⟩ h

theorem submitRspNotifyRead_lifecycle (h : e.toTable.Lifecycle free due) :
    e.submitRspNotifyRead.toTable.Lifecycle free due := submitOp_lifecycle ⟨nofun, nofun⟩ h

/-- A `recv` that could not be posted has only made room; one that was posted
makes the connection active. -/
theorem submitRecv_cases (opt : GatewayOptions) (h : e.toTable.Focus free due c)
    (hnone : c.recvOp = none) (hstate : c.state = .active) (howed : e.toTable.owed due c.connId = 0) :
    (∃ e', submitRecv opt c e = (false, e') ∧
      e'.toTable = e.toTable.setConn { c with rx := c.rx.prepare opt.rxBufBytes }) ∨
      ∃ e', submitRecv opt c e = (true, e') ∧ e'.toTable.Lifecycle free due := by
  have hcount := h.counted
  rcases submitOp_cases ⟨.recv, some c.connId⟩ e with ⟨e', hsub, hbooks⟩ | ⟨e', hsub, hbooks⟩
  · refine .inl ⟨_, by simp only [submitRecv, hsub]; rfl, ?_⟩
    rw [setConn, hbooks]
  · refine .inr ⟨_, by simp only [submitRecv, hsub]; rfl, ?_⟩
    have hcount' := hcount.startRecv hnone e.nextOp (c.rx.prepare opt.rxBufBytes)
    have hfocus := h.startOp (k := .recv) hnone hcount' rfl rfl rfl (by
      intro k hk
      cases k <;> first | rfl | exact absurd rfl hk)
    rw [setConn, hbooks]
    refine hfocus.settle ⟨fun _ => ⟨rfl, howed⟩, fun hp => ?_, fun hc => ?_⟩
    · exact absurd (hstate.symm.trans hp) (by decide)
    · exact absurd (hstate.symm.trans hc) (by decide)

/-- A `send` is posted or left for later; the connection stays as settled as it was. -/
theorem submitSend_lifecycle (h : e.toTable.Focus free due c) (hnone : c.sendOp = none)
    (hs : c.Settled (e.toTable.owed due c.connId)) :
    (submitSend c e).2.toTable.Lifecycle free due := by
  have hcount := h.counted
  unfold submitSend
  rcases submitOp_cases ⟨.send, some c.connId⟩ e with ⟨e', hsub, hbooks⟩ | ⟨e', hsub, hbooks⟩
  · simp only [hsub, setConn, hbooks]
    exact h.settle hs
  · have hcount' := hcount.startSend hnone e.nextOp
    have hfocus := h.startOp (k := .send) hnone hcount' rfl rfl rfl (by
      intro k hk
      cases k <;> first | rfl | exact absurd rfl hk)
    simp only [hsub, setConn, hbooks]
    refine hfocus.settle ⟨hs.active, hs.parsing, fun hc => ?_⟩
    have hpos := hs.closing hc
    change 0 < c.pendingOps + 1
    omega

/-! ## Giving up on a connection -/

theorem maybeFinalize_lifecycle (h : e.toTable.Focus free due c) (hstate : c.state = .closing) :
    (maybeFinalize c e).toTable.Lifecycle free due := by
  have hcount := h.counted
  unfold maybeFinalize
  split
  next hkeep =>
    refine h.settle ⟨fun ha => ?_, fun hp => ?_, fun _ => ?_⟩
    · exact absurd (hstate.symm.trans ha) (by decide)
    · exact absurd (hstate.symm.trans hp) (by decide)
    · exact hkeep.resolve_left fun hne => hne hstate
  next hgone =>
    have herase := h.erase fun hpos => hgone (.inr hpos)
    rw [← Table.closeFd_erase hcount.fd] at herase
    exact herase

/-- A handler may close a connection at any point. -/
theorem closeConn_lifecycle (h : e.toTable.Focus free due c) (hstate : c.state ≠ .closing) :
    (closeConn c e).toTable.Lifecycle free due := by
  unfold closeConn
  rw [if_neg hstate]
  refine maybeFinalize_lifecycle ?_ rfl
  have hfocus : e.toTable.Focus free due { c with state := .closing } :=
    h.reshape ⟨rfl, rfl, rfl, rfl, rfl, rfl⟩
  -- cancelling does not touch the books
  split <;> split <;> simpa only [submitCancel_toTable] using hfocus

theorem closeId_lifecycle (h : e.toTable.Lifecycle free due) (id : Nat) :
    (closeId id e).toTable.Lifecycle free due := by
  unfold closeId
  split
  next c hc =>
    by_cases hstate : c.state = .closing
    · unfold closeConn
      rw [if_pos hstate, setConn, Table.setConn_eq (by rw [(h.booked.named hc).1]; exact hc)]
      exact h
    · exact closeConn_lifecycle (h.focus hc) hstate
  next => exact h

theorem foldl_closeId_lifecycle (h : e.toTable.Lifecycle free due) (order : List Nat) :
    (order.foldl (fun e id => closeId id e) e).toTable.Lifecycle free due := by
  induction order generalizing e with
  | nil => exact h
  | cons id rest ih => exact ih (closeId_lifecycle h id)

/-! ## Replies, the outbox and the response ring -/

theorem pushResponse_lifecycle (h : e.toTable.Lifecycle free due) {id : Nat}
    (hc : e.conns id = some c) (hstate : c.state ≠ .closing) (frame : Bytes) :
    (pushResponse opt frame c e).toTable.Lifecycle free due := by
  have hfocus := h.focus hc
  have hs := h.settled hc
  rw [← (h.booked.named hc).1] at hs
  have hpushed : e.toTable.Focus free due (c.sendPush frame) :=
    hfocus.reshape ⟨rfl, rfl, rfl, rfl, rfl, rfl⟩
  unfold pushResponse
  split
  · exact closeConn_lifecycle hfocus hstate
  · dsimp only
    split
    · exact hpushed.settle ⟨hs.active, hs.parsing, hs.closing⟩
    next hidle =>
      refine submitSend_lifecycle hpushed ?_ ⟨hs.active, hs.parsing, hs.closing⟩
      have hactive := (h.booked.counted hc).sendActive
      exact Option.not_isSome_iff_eq_none.mp fun hsome => hidle (hactive.trans hsome)

/-- A connection that gets its leftover back receives again, or is closed. -/
theorem rearm_lifecycle (h : e.toTable.Focus free due c) (hnone : c.recvOp = none)
    (hstate : c.state = .active) (howed : e.toTable.owed due c.connId = 0) :
    (rearm opt c e).toTable.Lifecycle free due := by
  unfold rearm
  rcases submitRecv_cases opt h hnone hstate howed with
    ⟨e', hsub, hbooks⟩ | ⟨e', hsub, hdone⟩
  · rw [hsub]
    generalize hd : { c with rx := c.rx.prepare opt.rxBufBytes } = d at hbooks
    have hsame : c.SameBooks d := by rw [← hd]; exact ⟨rfl, rfl, rfl, rfl, rfl, rfl⟩
    have hactive : d.state = .active := by rw [← hd]; exact hstate
    have hconn : e'.conns c.connId = some d := by
      rw [hbooks, ← hsame.connId]
      exact Table.setConn_self
    have hfocus : e'.toTable.Focus free due d := by
      rw [hbooks]
      exact (h.reshape hsame).stored
    simp only [closeId, hconn]
    exact closeConn_lifecycle hfocus (by rw [hactive]; decide)
  · rw [hsub]
    exact hdone

theorem drainItem_lifecycle {it : OutboxItem} (h : e.toTable.Lifecycle free (it :: due)) :
    (drainItem opt e it).toTable.Lifecycle free due := by
  unfold drainItem
  split
  next hnone => exact h.discard fun c hc => by rw [hnone] at hc; cases hc
  next c hc =>
    have hfocus := h.consume hc
    have hs := h.settled hc
    rw [Table.owed_cons] at hs
    split
    next hclosing =>
      exact h.discard fun d hd => by rw [hc] at hd; cases hd; exact .inl hclosing
    next hopen =>
      cases hkind : it.kind with
      | respond =>
        exact pushResponse_lifecycle (h.discard fun _ _ => .inr hkind) hc hopen _
      | close => exact closeConn_lifecycle hfocus hopen
      | rearmRecv =>
        rw [if_pos ⟨rfl, by rw [hkind]; decide⟩] at hs
        dsimp only
        split
        · exact closeConn_lifecycle hfocus hopen
        · -- an active connection is owed nothing, so this one is with a worker
          have hparsing : c.state = .parsing := by
            cases hstate : c.state with
            | active => exact absurd (hs.active hstate).2 (by omega)
            | parsing => rfl
            | closing => exact absurd hstate hopen
          obtain ⟨hnone, howed⟩ := hs.parsing hparsing
          have hid := (h.booked.named hc).1
          have hfed : e.toTable.Focus free due { c with rx := c.rx.feed it.bytes, state := .active } :=
            hfocus.reshape ⟨rfl, rfl, rfl, rfl, rfl, rfl⟩
          rw [if_neg fun hne => hne hparsing]
          exact rearm_lifecycle hfed hnone rfl (by rw [hid]; omega)

theorem drainOutbox_lifecycle {items : List OutboxItem} (h : e.toTable.Lifecycle free items) :
    (drainOutbox opt items e).toTable.Lifecycle free [] := by
  unfold drainOutbox
  induction items generalizing e with
  | nil => exact h
  | cons it rest ih => exact ih (drainItem_lifecycle h)

theorem deliver_lifecycle (h : e.toTable.Lifecycle free due) (r : Response) :
    (deliver opt e r).toTable.Lifecycle free due := by
  unfold deliver
  split
  · exact h
  · split
    · exact h
    · split
      · exact h
      next c hc =>
        split
        · exact h
        next hopen => exact pushResponse_lifecycle h hc hopen _

theorem drainResponseRing_lifecycle (h : e.toTable.Lifecycle free due) (peerDead : Bool)
    (rs : List Response) : (drainResponseRing opt peerDead rs e).toTable.Lifecycle free due := by
  unfold drainResponseRing
  split
  · generalize hg : ({ e with stopping := e.stopping || peerDead } : Engine) = e₀
    have h₀ : e₀.toTable.Lifecycle free due := by rw [← hg]; exact h
    clear hg
    induction rs generalizing e₀ with
    | nil => exact h₀
    | cons r rest ih => exact ih _ (deliver_lifecycle h₀ r)
  · exact h

/-! ## Completions -/

/-- A new connection is in the books, with nothing in flight and nothing owed. -/
theorem makeConn_focus (opt : GatewayOptions) (h : e.toTable.Lifecycle free due) {fd : Int}
    (hpos : 0 ≤ fd) (hnew : e.opened.count fd = e.closed.count fd)
    (hfree : ¬ free e.nextConnId) {e' : Engine}
    (hmake : makeConn opt fd { e with acceptFailStreak := 0, opened := e.opened ++ [fd] } = (c, e')) :
    e'.toTable.Focus free due c ∧ c.recvOp = none ∧ c.state = .active ∧ c.pendingOps = 0 ∧
      e'.toTable.owed due c.connId = 0 := by
  cases hmake
  have hcount := Connection.new_counted hpos e.nextConnId opt.rxBufBytes e.now
  have hfocus := h.accept hnew hfree rfl rfl hcount (by intro k; cases k <;> rfl)
  exact ⟨hfocus.stored, rfl, rfl, rfl, h.fresh (Nat.le_refl _)⟩

theorem completeAccept_lifecycle (h : e.toTable.Lifecycle free due) {res : Int}
    (hnew : 0 ≤ res → e.opened.count res = e.closed.count res)
    (hfree : e.accepting = true → 0 ≤ res → ¬ free e.nextConnId) :
    (completeAccept opt res e).toTable.Lifecycle free due := by
  unfold completeAccept
  split
  · split
    · exact h.refuse res
    · exact h
  next hopen =>
    have haccepting : e.accepting = true := by simpa using hopen
    split
    · split
      · split
        · exact h
        · exact submitAccept_lifecycle h
      · exact submitAccept_lifecycle h
    next hres =>
      have hpos : 0 ≤ res := Int.not_lt.mp hres
      split
      next c e₁ hmake =>
        obtain ⟨hfocus, hnone, hactive, hzero, howed⟩ :=
          makeConn_focus opt h hpos (hnew hpos) (hfree haccepting hpos) hmake
        rcases submitRecv_cases opt hfocus hnone hactive howed with
          ⟨e', hsub, hbooks⟩ | ⟨e', hsub, hdone⟩
        · -- the connection is erased again, which closes its descriptor
          rw [hsub]
          refine submitAccept_lifecycle ?_
          have hstored := (hfocus.reshape (d := { c with rx := c.rx.prepare opt.rxBufBytes })
            ⟨rfl, rfl, rfl, rfl, rfl, rfl⟩).stored
          rw [← hbooks] at hstored
          exact hstored.erase (by rw [hzero]; decide)
        · rw [hsub]
          exact submitAccept_lifecycle hdone

/-- A `recv` completes. -/
theorem completeRecv_lifecycle {T : Table} {o id : Nat} (h : T.Lifecycle free due)
    (hc : T.conns id = some c) (hop : c.op .recv = some o) (he : e.toTable = T.dropOp o)
    (res : Int) (data : Bytes) : (completeRecv opt res data c e).toTable.Lifecycle free due := by
  have hs := h.settled hc
  rw [← (h.booked.named hc).1] at hs
  have hcount := (h.booked.counted hc).endRecv hop (c.rx.receive data)
  have hfocus := h.endOp (k := .recv) hc hop hcount rfl rfl rfl (by
    intro k hk
    cases k <;> first | rfl | exact absurd rfl hk)
  rw [← he] at hfocus
  unfold completeRecv
  dsimp only
  split
  next hclosing => exact maybeFinalize_lifecycle hfocus hclosing
  next hopen =>
    split
    · exact closeConn_lifecycle hfocus hopen
    · split
      · exact closeConn_lifecycle hfocus hopen
      · split
        · exact closeConn_lifecycle (hfocus.reshape ⟨rfl, rfl, rfl, rfl, rfl, rfl⟩) hopen
        · -- a connection that was receiving was active, and is owed this batch alone
          have hactive : c.state = .active := by
            cases hstate : c.state with
            | active => rfl
            | parsing => exact absurd (hop.symm.trans (hs.parsing hstate).1) (by simp)
            | closing => exact absurd hstate hopen
          have howed : e.toTable.owed due c.connId = 0 := by
            rw [he]
            exact (hs.active hactive).2
          refine Table.Focus.post ?_ rfl rfl rfl howed
          exact hfocus.reshape ⟨rfl, rfl, rfl, rfl, rfl, rfl⟩

/-- A `send` completes. -/
theorem completeSend_lifecycle {T : Table} {o id : Nat} (h : T.Lifecycle free due)
    (hc : T.conns id = some c) (hop : c.op .send = some o) (he : e.toTable = T.dropOp o)
    (res : Int) : (completeSend res c e).toTable.Lifecycle free due := by
  have hs := h.settled hc
  rw [← (h.booked.named hc).1] at hs
  have hcount := (h.booked.counted hc).endSend hop
  have hfocus := h.endOp (k := .send) hc hop hcount rfl rfl rfl (by
    intro k hk
    cases k <;> first | rfl | exact absurd rfl hk)
  rw [← he] at hfocus
  unfold completeSend
  dsimp only
  split
  next hclosing => exact maybeFinalize_lifecycle hfocus hclosing
  next hopen =>
    have hs' : ∀ {d : Connection}, d.state = c.state → d.recvOp = c.recvOp →
        d.Settled (e.toTable.owed due c.connId) := by
      intro d hstate hrecv
      rw [he]
      refine ⟨fun ha => ?_, fun hp => ?_, fun hc => absurd (hstate.symm.trans hc) hopen⟩
      · rw [hrecv]
        exact hs.active (hstate.symm.trans ha)
      · rw [hrecv]
        exact hs.parsing (hstate.symm.trans hp)
    split
    · exact closeConn_lifecycle hfocus hopen
    · split
      · exact submitSend_lifecycle (hfocus.reshape ⟨rfl, rfl, rfl, rfl, rfl, rfl⟩) rfl (hs' rfl rfl)
      · refine Table.Focus.settle ?_ (hs' rfl rfl)
        exact hfocus.reshape ⟨rfl, rfl, rfl, rfl, rfl, rfl⟩

theorem completeRspNotify_lifecycle (h : e.toTable.Lifecycle free due) (res : Int) (peerDead : Bool)
    (rs : List Response) : (completeRspNotify opt res peerDead rs e).toTable.Lifecycle free due := by
  unfold completeRspNotify
  split
  · exact h
  · split
    · split
      · exact h
      · exact submitRspNotifyRead_lifecycle h
    · refine drainResponseRing_lifecycle ?_ peerDead rs
      exact submitRspNotifyRead_lifecycle h

/-- **Every completion.** Only reading the eventfd empties the outbox. -/
theorem onCqe_lifecycle (h : e.toTable.Lifecycle free due) {o : Nat} {op : UringOp}
    (ho : e.ops o = some op) {q : Completion} (hq : e.promised op q = true)
    (hfree : op.kind = .accept → e.accepting = true → 0 ≤ q.res → ¬ free e.nextConnId) :
    (onCqe opt o op q due e).toTable.Lifecycle free (if op.kind = .wakeup then [] else due) := by
  obtain ⟨kind, conn⟩ := op
  unfold onCqe
  cases kind with
  | accept =>
    refine completeAccept_lifecycle (h.dropOp ho ⟨nofun, nofun⟩) (fun hpos => ?_) (hfree rfl)
    simp only [promised, Bool.or_eq_true, decide_eq_true_eq, beq_iff_eq] at hq
    exact hq.resolve_left (Int.not_lt.mpr hpos)
  | recv =>
    obtain ⟨id, c, rfl, hc, hop⟩ := h.booked.owned ho (.inl rfl)
    simp only [atConn, Option.bind_some, Table.dropOp, hc]
    exact completeRecv_lifecycle h hc hop rfl q.res q.data
  | send =>
    obtain ⟨id, c, rfl, hc, hop⟩ := h.booked.owned ho (.inr rfl)
    simp only [atConn, Option.bind_some, Table.dropOp, hc]
    exact completeSend_lifecycle h hc hop rfl q.res
  | wakeup =>
    exact drainOutbox_lifecycle (submitEventfdRead_lifecycle (h.dropOp ho ⟨nofun, nofun⟩))
  | stop => exact h.dropOp ho ⟨nofun, nofun⟩
  | rspNotify =>
    exact completeRspNotify_lifecycle (h.dropOp ho ⟨nofun, nofun⟩) q.res q.peerDead _

theorem sweepIdle_lifecycle (h : e.toTable.Lifecycle free due) (order : List Nat) :
    (sweepIdle opt order e).toTable.Lifecycle free due := by
  unfold sweepIdle
  split
  · exact h
  · exact foldl_closeId_lifecycle h _

theorem checkStop_toTable (e : Engine) : e.checkStop.toTable = e.toTable := by
  unfold checkStop
  split <;> rfl

theorem start_lifecycle (opt : GatewayOptions) (answers : List Bool) :
    (start opt answers).toTable.Lifecycle free [] := by
  have hnew : (new answers).toTable.Lifecycle free [] := Table.empty_lifecycle
  have h := submitStopRead_lifecycle (submitEventfdRead_lifecycle (submitAccept_lifecycle hnew))
  unfold start
  dsimp only
  split
  · exact submitRspNotifyRead_lifecycle h
  · exact h

theorem mem_ids (h : e.toTable.Lifecycle free due) {id : Nat} (hc : e.conns id = some c) :
    id ∈ e.ids :=
  List.mem_filter.mpr ⟨List.mem_range.mpr (h.booked.named hc).2, by rw [hc]; rfl⟩

/-- After the hard limit every descriptor has been closed as often as accepted. -/
theorem forceClose_fds (h : e.toTable.Lifecycle free due) {order : List Nat} (horder : order.Perm e.ids) :
    (e.forceClose order).toTable.Fds := by
  refine ⟨nofun, nofun, fun {fd} _ => ?_⟩
  have hb := h.booked
  generalize hfds : order.filterMap (fun id => (e.conns id).map (·.fd)) = fds
  have hmem : ∀ {x}, x ∈ fds ↔ ∃ id c, e.conns id = some c ∧ c.fd = x := by
    intro x
    rw [← hfds, List.mem_filterMap]
    constructor
    · rintro ⟨id, -, hid⟩
      obtain ⟨c, hc, rfl⟩ := Option.map_eq_some_iff.mp hid
      exact ⟨id, c, hc, rfl⟩
    · rintro ⟨id, c, hc, rfl⟩
      exact ⟨id, horder.mem_iff.mpr (mem_ids h hc), by rw [hc]; rfl⟩
  have hnodup : fds.Nodup := by
    rw [← hfds]
    refine (horder.nodup_iff.mpr (List.nodup_range.filter _)).filterMap ?_
    intro i j x hi hj
    obtain ⟨c, hc, rfl⟩ := Option.map_eq_some_iff.mp hi
    obtain ⟨d, hd, hdc⟩ := Option.map_eq_some_iff.mp hj
    exact hb.fds.distinct hc hd hdc.symm
  have hall : fds.filter (0 ≤ ·) = fds := List.filter_eq_self.mpr fun x hx => by
    obtain ⟨id, c, hc, rfl⟩ := hmem.mp hx
    exact decide_eq_true (hb.counted hc).fd
  simp only [forceClose, hfds, hall, List.count_append]
  by_cases hin : fd ∈ fds
  · obtain ⟨id, c, hc, rfl⟩ := hmem.mp hin
    rw [List.count_eq_one_of_mem hnodup hin]
    exact hb.fds.held hc
  · rw [List.count_eq_zero_of_not_mem hin]
    exact hb.fds.gone fun id c hc heq => hin (hmem.mpr ⟨id, c, hc, heq⟩)

end Engine

/-! ## Workers -/

/-- A worker passes on what it owes: the batch or, at its end, one terminal item. -/
theorem Batch.step_owed (b : Batch) (r : SinkResult) (id : Nat) :
    (b.step r).2.toList.countP (·.connId = id) +
        (b.step r).1.countP (fun it => it.connId = id ∧ it.kind ≠ .respond) =
      if b.connId = id then 1 else 0 := by
  have hreplies : ∀ f bytes,
      (b.respond f bytes).countP (fun it => it.connId = id ∧ it.kind ≠ .respond) = 0 := by
    intro f bytes
    refine List.countP_eq_zero.mpr fun it hit => ?_
    simp [(respond_kind hit).1]
  unfold step
  cases b.frames with
  | nil =>
    unfold last
    cases b.bad <;> simp
  | cons f rest =>
    cases r with
    | reply bytes =>
      simp only [handle, hreplies, Option.toList_some, List.countP_singleton, decide_eq_true_eq,
        Nat.add_zero]
    | threw => simp [handle]
    | overload => simp [handle]
    | malformed => simp [handle]

namespace MainLoop

variable {opt : GatewayOptions} {free : Nat → Prop} {g g' : MainLoop} {r : SinkResult} {i : Nat}

/-- What each kind of action comes to. -/
theorem cqe_eq {o : Nat} {q : Engine.Completion} (hcqe : g.cqe opt o q = some g') :
    ∃ op, g.engine.ops o = some op ∧ g.stage ≠ .exited ∧ g.engine.promised op q ∧
      g' = { g with
        engine := g.engine.onCqe opt o op q g.outbox
        outbox := if op.kind = .wakeup then [] else g.outbox } := by
  unfold cqe at hcqe
  split at hcqe
  · cases hcqe
  next op hop =>
    split at hcqe
    next hok =>
      cases hcqe
      exact ⟨op, hop, hok.1, hok.2, rfl⟩
    · cases hcqe

theorem work_eq (hwork : g.work i r = some g') :
    ∃ b, g.engine.batches[i]? = some b ∧
      g' = { g with
        engine := { g.engine with
          batches := g.engine.batches.take i ++ (b.step r).2.toList ++ g.engine.batches.drop (i + 1) }
        outbox := g.outbox ++ (b.step r).1 } := by
  unfold work at hwork
  split at hwork
  · cases hwork
  next b hb =>
    cases hwork
    exact ⟨b, hb, rfl⟩

theorem turn_eq {ok : Bool} {e : Engine} {stage : Stage} (hturn : g.turn ok e stage = some g') :
    ok = true ∧ g' = { g with engine := e, stage := stage } := by
  unfold turn at hturn
  split at hturn
  next hok =>
    cases hturn
    exact ⟨hok, rfl⟩
  · cases hturn

/-- A worker leaves what is owed as it is. -/
theorem work_owed (hwork : g.work i r = some g') (id : Nat) :
    g'.engine.toTable.owed g'.outbox id = g.engine.toTable.owed g.outbox id := by
  obtain ⟨b, hb, rfl⟩ := work_eq hwork
  obtain ⟨hlt, hget⟩ := List.getElem?_eq_some_iff.mp hb
  have hsplit : g.engine.batches =
      g.engine.batches.take i ++ b :: g.engine.batches.drop (i + 1) := by
    rw [← hget, List.getElem_cons_drop, List.take_append_drop]
  have hstep := b.step_owed r id
  simp only [Table.owed] at hstep ⊢
  conv_rhs => rw [hsplit]
  simp only [List.countP_append, List.countP_cons, decide_eq_true_eq]
  omega

theorem work_lifecycle (h : g.engine.toTable.Lifecycle free g.outbox)
    (hwork : g.work i r = some g') :
    g'.engine.toTable.Lifecycle free g'.outbox := by
  have howed := work_owed hwork
  obtain ⟨b, -, rfl⟩ := work_eq hwork
  exact h.of_owed howed

/-- The invariant of the main loop: the life of every connection until `run` is
over, and the descriptors also after that. -/
structure Inv (free : Nat → Prop) (g : MainLoop) : Prop where
  lifecycle : g.stage ≠ .exited → g.engine.toTable.Lifecycle free g.outbox
  fds : g.engine.toTable.Fds

theorem Inv.of_lifecycle (h : g.engine.toTable.Lifecycle free g.outbox) : g.Inv free :=
  ⟨fun _ => h, h.booked.fds⟩

theorem Inv.mono {free' : Nat → Prop} (hsub : ∀ id, free' id → free id) (h : g.Inv free) :
    g.Inv free' := ⟨fun hstage => (h.lifecycle hstage).mono hsub, h.fds⟩

/-- A gateway starts with nobody connected. -/
theorem Inv.start (opt : GatewayOptions) (answers : List Bool) : (start opt answers).Inv free :=
  .of_lifecycle (Engine.start_lifecycle opt answers)

/-- A turn of the loop that keeps the invariant of the books. -/
theorem Inv.turn (h : g.Inv free) {ok : Bool} {e : Engine} {stage : Stage}
    (he : g.engine.toTable.Lifecycle free g.outbox → e.toTable.Lifecycle free g.outbox)
    (hturn : g.turn ok e stage = some g')
    (hok : ok = true → g.stage ≠ .exited := by intro hok hexit; simp [hexit] at hok) :
    g'.Inv free := by
  obtain ⟨htrue, rfl⟩ := turn_eq hturn
  exact .of_lifecycle (he (h.lifecycle (hok htrue)))

/-- Whether an action makes a new connection. -/
def accepts (g : MainLoop) : Action → Bool
  | .cqe o q =>
    g.engine.accepting && (g.engine.ops o).any fun op => op.kind = .accept && 0 ≤ q.res
  | _ => false

theorem Inv.cqe (h : g.Inv free) {o : Nat} {q : Engine.Completion}
    (hfree : g.accepts (.cqe o q) = true → ¬ free g.engine.nextConnId)
    (hcqe : g.cqe opt o q = some g') : g'.Inv free := by
  obtain ⟨op, ho, hstage, hpromised, rfl⟩ := cqe_eq hcqe
  refine .of_lifecycle (Engine.onCqe_lifecycle (h.lifecycle hstage) ho hpromised ?_)
  exact fun hkind hopen hres => hfree (by simp [accepts, ho, hkind, hopen, hres])

/-- Workers may go on after the loop is over. -/
theorem Inv.work (h : g.Inv free) (hwork : g.work i r = some g') :
    g'.Inv free := by
  have hkept : g.engine.toTable.Lifecycle free g.outbox → _ := fun hl => work_lifecycle hl hwork
  obtain ⟨b, -, rfl⟩ := work_eq hwork
  exact ⟨fun hne => hkept (h.lifecycle hne), ⟨h.fds.held, h.fds.distinct, h.fds.gone⟩⟩

/-- **One step** of the main loop or of a worker. -/
theorem Inv.step (h : g.Inv free) {action : Action}
    (hfree : g.accepts action = true → ¬ free g.engine.nextConnId)
    (hstep : g.step opt action = some g') : g'.Inv free := by
  cases action with
  | cqe o q => exact h.cqe hfree hstep
  | work i r => exact h.work hstep
  | drainResponses peerDead rs =>
    exact h.turn (fun hl => Engine.drainResponseRing_lifecycle hl peerDead rs) hstep
  | sweep order => exact h.turn (fun hl => Engine.sweepIdle_lifecycle hl order) hstep
  | requestStop =>
    cases hstep
    exact ⟨h.lifecycle, h.fds⟩
  | checkStop =>
    exact h.turn (fun hl => by rw [Engine.checkStop_toTable]; exact hl) hstep
  | leave failed => exact h.turn (fun hl => hl) hstep
  | reap order => exact h.turn (fun hl => Engine.foldl_closeId_lifecycle hl _) hstep
  | exit => exact h.turn (fun hl => hl) hstep
  | forceClose order =>
    obtain ⟨hok, rfl⟩ := turn_eq hstep
    rw [Bool.and_eq_true, decide_eq_true_eq, List.isPerm_iff] at hok
    have hl := h.lifecycle (by rw [hok.1]; decide)
    exact ⟨fun hne => absurd rfl hne, Engine.forceClose_fds hl hok.2⟩

theorem Inv.next (h : g.Inv free) {ev : Event}
    (hfree : g.accepts ev.action = true → ¬ free g.engine.nextConnId)
    (hnext : g.next opt ev = some g') : g'.Inv free := by
  have h' : Inv free { g with engine := { g.engine with answers := ev.answers, now := ev.now } } :=
    ⟨h.lifecycle, h.fds⟩
  exact h'.step hfree hnext

/-- **Every run.** -/
theorem Inv.of_reachable (h : (machine opt).Reachable g) : g.Inv fun _ => False := by
  refine Machine.invariant (I := Inv fun _ => False) ?_ ?_ h
  · rintro g ⟨answers, rfl⟩
    exact .start opt answers
  · exact fun g ev g' hinv _ hnext => hinv.next (fun _ => id) hnext

/-- A gateway that is over stays so. -/
theorem next_exited {ev : Event} (hexit : g.stage = .exited) (hnext : g.next opt ev = some g') :
    g'.stage = .exited := by
  obtain ⟨action, answers, now⟩ := ev
  change MainLoop.step opt _ action = some g' at hnext
  cases action with
  | cqe o q =>
    obtain ⟨-, -, hrun, -, -⟩ := cqe_eq hnext
    exact absurd hexit hrun
  | work i x =>
    obtain ⟨b, -, rfl⟩ := work_eq hnext
    exact hexit
  | requestStop =>
    cases hnext
    exact hexit
  | _ =>
    obtain ⟨hok, -⟩ := turn_eq hnext
    simp [hexit] at hok

/-- It is over when nobody is connected any more. -/
theorem next_over {ev : Event}
    (h : g.stage ≠ .exited → g.engine.toTable.Lifecycle free g.outbox)
    (hover : g.stage = .exited → ∀ id, g.engine.conns id = none) (hnext : g.next opt ev = some g')
    (hexit : g'.stage = .exited) : ∀ id, g'.engine.conns id = none := by
  obtain ⟨action, answers, now⟩ := ev
  change MainLoop.step opt _ action = some g' at hnext
  cases action with
  | cqe o q =>
    obtain ⟨op, -, hrun, -, rfl⟩ := cqe_eq hnext
    exact absurd hexit hrun
  | work i x =>
    obtain ⟨b, -, rfl⟩ := work_eq hnext
    exact hover hexit
  | requestStop =>
    cases hnext
    exact hover hexit
  | exit =>
    obtain ⟨hok, rfl⟩ := turn_eq hnext
    simp only [Bool.and_eq_true, decide_eq_true_eq, List.isEmpty_iff] at hok
    intro id
    refine Option.eq_none_iff_forall_ne_some.mpr fun c hc => ?_
    have hid := Engine.mem_ids (h (by rw [hok.1]; decide)) hc
    rw [show g.engine.ids = [] from hok.2] at hid
    cases hid
  | forceClose order =>
    obtain ⟨-, rfl⟩ := turn_eq hnext
    exact fun id => rfl
  | _ =>
    obtain ⟨-, rfl⟩ := turn_eq hnext
    cases hexit

/-- **Nobody is left** when `run` is over. -/
theorem over_of_reachable (h : (machine opt).Reachable g) (hexit : g.stage = .exited) :
    ∀ id, g.engine.conns id = none := by
  induction h with
  | start hg =>
    obtain ⟨answers, rfl⟩ := hg
    cases hexit
  | step hg _ hnext ih => exact next_over (Inv.of_reachable hg).lifecycle ih hnext hexit

theorem running_of_conns (h : (machine opt).Reachable g) {id : Nat} {c : Connection}
    (hc : g.engine.conns id = some c) : g.stage ≠ .exited := by
  intro hexit
  cases hc.symm.trans (over_of_reachable h hexit id)

/-- What the life of a connection comes to, at any moment of the main loop. -/
structure Sound (g : MainLoop) : Prop where
  /-- The counters match the operations in flight. -/
  pendingOps : ∀ {id c}, g.engine.conns id = some c →
    c.pendingOps = (if c.recvOp.isSome then 1 else 0) + if c.sendOp.isSome then 1 else 0
  sendActive : ∀ {id c}, g.engine.conns id = some c → c.sendActive = c.sendOp.isSome
  /-- A pointer to an operation points to one that is in flight for the connection. -/
  inFlight : ∀ {id c k o}, g.engine.conns id = some c → c.op k = some o →
    g.engine.ops o = some ⟨k, some id⟩
  active : ∀ {id c}, g.engine.conns id = some c → c.state = .active → c.recvOp.isSome
  /-- A connection that is with a worker gets exactly one terminal item. -/
  parsing : ∀ {id c}, g.engine.conns id = some c → c.state = .parsing →
    c.recvOp = none ∧ g.engine.owed g.outbox id = 1
  closing : ∀ {id c}, g.engine.conns id = some c → c.state = .closing → 0 < c.pendingOps
  /-- An operation in flight points to a connection that is there and knows of it. -/
  alive : ∀ {o op}, g.engine.ops o = some op → op.kind = .recv ∨ op.kind = .send →
    ∃ id c, op.conn = some id ∧ g.engine.conns id = some c ∧ c.op op.kind = some o
  dangling : g.engine.dangling = false

end MainLoop

/-- **The life of every connection.** In every state that the main loop and its
workers reach, the connections are sound until `run` is over, none is left when it
is, and a descriptor has been closed as often as it was accepted, or once less while
it is in use. -/
theorem connection_lifecycle {opt : GatewayOptions} {g : MainLoop}
    (h : (MainLoop.machine opt).Reachable g) :
    (g.stage ≠ .exited → g.Sound) ∧ (g.stage = .exited → ∀ id, g.engine.conns id = none) ∧
      g.engine.toTable.Fds := by
  have hinv := MainLoop.Inv.of_reachable h
  refine ⟨fun hstage => ?_, MainLoop.over_of_reachable h, hinv.fds⟩
  obtain ⟨hb, hs, -⟩ := hinv.lifecycle hstage
  exact
    { pendingOps := fun hc => (hb.counted hc).pendingOps
      sendActive := fun hc => (hb.counted hc).sendActive
      inFlight := hb.owns
      active := fun hc ha => ((hs hc).active ha).1
      parsing := fun hc => (hs hc).parsing
      closing := fun hc => (hs hc).closing
      alive := hb.owned
      dangling := hb.live }

/-- A client connects, sends half a header, and the worker hands it back; then
the submission queue is full, so no further `recv` can be posted and the
connection is closed. -/
def shortLife : List MainLoop.Event :=
  [⟨.cqe 0 ⟨7, [], false, []⟩, [], 1⟩,
    ⟨.cqe 3 ⟨2, [0x46, 0x42], false, []⟩, [], 2⟩,
    ⟨.work 0 .threw, [], 3⟩,
    ⟨.cqe 1 ⟨8, [], false, []⟩, [true, false], 4⟩]

theorem connection_lifecycle_shortLife :
    ((MainLoop.machine ⟨8, 1000, 0, false⟩).play (MainLoop.start ⟨8, 1000, 0, false⟩ [])
        shortLife).map (fun g => (g.engine.opened, g.engine.closed, g.engine.ids)) =
        some ([7], [7], []) ∧
      ∀ g, (MainLoop.machine ⟨8, 1000, 0, false⟩).play (MainLoop.start ⟨8, 1000, 0, false⟩ [])
        shortLife = some g → (g.stage ≠ .exited → g.Sound) ∧
          (g.stage = .exited → ∀ id, g.engine.conns id = none) ∧ g.engine.toTable.Fds :=
  ⟨by decide +kernel, fun _ hg =>
    connection_lifecycle (Machine.reachable_of_play (.start ⟨[], rfl⟩) hg)⟩

end SharedBike.Gateway
