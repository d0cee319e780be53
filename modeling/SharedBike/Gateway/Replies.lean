import SharedBike.Gateway.Lifecycle

/-!
# Replies inside the gateway

`Out` is the part of a connection that its replies depend on: the state and
the send queue. A handler changes the connection in its hands and no other,
so each handler has one equation, an update of the table at one id. What can
stand there afterwards is said once for an item of the outbox or a slot of
the response ring (`Taken`) and once for a completion (`Completes`).

A connection that is closing or gone (`Shut`) never takes a reply again, so
a connection that is open at the end of a drain has taken, in order, every
reply in it (`drainOutbox_open`).
-/

namespace SharedBike.Gateway

open SharedBike.Lib SharedBike.Wire Function

/-- What a connection's replies depend on. -/
structure Out where
  state : ConnState
  sendQ : List Bytes
  sendBytes : Nat
  deriving DecidableEq

def Connection.out (c : Connection) : Out := ⟨c.state, c.sendQ, c.sendBytes⟩

namespace Out

/-- A frame is put behind the others. -/
def push (o : Out) (frame : Bytes) : Out :=
  { o with sendQ := o.sendQ ++ [frame], sendBytes := o.sendBytes + frame.length }

/-- Bytes that were sent are taken off. -/
def pop (n : Nat) (o : Out) : Out :=
  { o with
    sendQ := (Connection.popSent n o.sendQ o.sendBytes).1
    sendBytes := (Connection.popSent n o.sendQ o.sendBytes).2 }

/-- Nobody is there, or it is being closed. -/
def Shut (x : Option Out) : Prop := ∀ o, x = some o → o.state = .closing

theorem shut_none : Shut none := nofun

theorem Shut.not_open {x : Option Out} {o : Out} (h : Shut x) (hx : x = some o) :
    ¬ o.state ≠ .closing := fun hopen => hopen (h o hx)

end Out

/-- What is taken off the queue is what was sent. -/
theorem Connection.flatten_popSent (n : Nat) (q : List Bytes) (total : Nat) :
    (popSent n q total).1.flatten = q.flatten.drop n := by
  induction q generalizing n total with
  | nil => simp [popSent]
  | cons head rest ih =>
    rw [popSent]
    split
    next hzero => simp [hzero]
    next =>
      split
      next hlt => simp [List.drop_append_of_le_length (Nat.le_of_lt hlt)]
      next hle => rw [ih, List.flatten_cons, List.drop_append, List.drop_eq_nil_of_le
          (Nat.not_lt.mp hle), List.nil_append]

theorem Out.flatten_pop (n : Nat) (o : Out) : (o.pop n).sendQ.flatten = o.sendQ.flatten.drop n :=
  Connection.flatten_popSent ..

/-! ## Frames with an address -/

/-- The frames for one connection, in order. -/
def forConn (id : Nat) (frames : List (Nat × Bytes)) : List Bytes :=
  (frames.filter (·.1 = id)).map Prod.snd

@[simp] theorem forConn_nil (id : Nat) : forConn id [] = [] := rfl

@[simp] theorem forConn_append (id : Nat) (l₁ l₂ : List (Nat × Bytes)) :
    forConn id (l₁ ++ l₂) = forConn id l₁ ++ forConn id l₂ := by
  simp [forConn]

theorem forConn_self (id : Nat) (frame : Bytes) : forConn id [(id, frame)] = [frame] := by
  simp [forConn]

theorem forConn_of_ne {id id' : Nat} (h : id' ≠ id) (frame : Bytes) :
    forConn id [(id', frame)] = [] := by
  simp [forConn, h]

/-- A reply in the outbox. -/
def OutboxItem.reply (it : OutboxItem) : List (Nat × Bytes) :=
  if it.kind = .respond then [(it.connId, it.bytes)] else []

/-- The replies in the outbox. -/
def replies (items : List OutboxItem) : List (Nat × Bytes) := items.flatMap OutboxItem.reply

@[simp] theorem replies_nil : replies [] = [] := rfl

theorem replies_cons (it : OutboxItem) (items : List OutboxItem) :
    replies (it :: items) = it.reply ++ replies items := List.flatMap_cons ..

@[simp] theorem replies_append (l₁ l₂ : List OutboxItem) :
    replies (l₁ ++ l₂) = replies l₁ ++ replies l₂ := List.flatMap_append

theorem OutboxItem.forConn_reply_of_ne {it : OutboxItem} {id : Nat} (h : it.connId ≠ id) :
    forConn id it.reply = [] := by
  unfold reply
  split
  · exact forConn_of_ne h _
  · rfl

namespace Engine

open Out

/-- The `Out` of a connection id. -/
def out (e : Engine) (id : Nat) : Option Out := (e.conns id).map Connection.out

/-- A connection that takes replies. -/
def Open (e : Engine) (id : Nat) : Prop := ∃ o, e.out id = some o ∧ o.state ≠ .closing

/-- Whether a connection would put a reply on its queue. -/
def takes (opt : GatewayOptions) (e : Engine) (id : Nat) (frame : Bytes) : Bool :=
  (e.out id).any fun o =>
    o.state ≠ .closing && o.sendBytes + frame.length ≤ opt.sendBacklogLimit

/-- The frames that a drain of the outbox puts on send queues. -/
def queuedItems (opt : GatewayOptions) : Engine → List OutboxItem → List (Nat × Bytes)
  | _, [] => []
  | e, it :: rest =>
    (if e.takes opt it.connId it.bytes then it.reply else []) ++
      queuedItems opt (drainItem opt e it) rest

variable {opt : GatewayOptions} {free : Nat → Prop} {due : List OutboxItem} {e e' : Engine}
  {c : Connection} {id : Nat} {op : UringOp}

theorem out_of_conns (h : e.conns id = some c) : e.out id = some c.out := by rw [out, h]; rfl

theorem out_of_conns_none (h : e.conns id = none) : e.out id = none := by rw [out, h]; rfl

theorem out_congr (h : e'.conns = e.conns) : e'.out = e.out := by
  funext id
  rw [out, out, h]

theorem out_update {x : Option Connection} (h : e'.conns = update e.conns id x) :
    e'.out = update e.out id (x.map Connection.out) := by
  funext j
  rw [out, h]
  by_cases hj : j = id
  · rw [hj, update_self, update_self]
  · rw [update_of_ne hj, update_of_ne hj, out]

/-! ## Submitting -/

theorem setConn_conns (c : Connection) (e : Engine) :
    (e.setConn c).conns = update e.conns c.connId (some c) := rfl

theorem submitOp_conns (op : UringOp) (e : Engine) : (e.submitOp op).2.conns = e.conns := by
  rcases submitOp_cases op e with ⟨e', hsub, hbooks⟩ | ⟨e', hsub, hbooks⟩
  · rw [hsub, hbooks]
  · rw [hsub, hbooks]
    rfl

theorem submitOp_of_room (op : UringOp) (hroom : false ∉ e.answers) :
    ∃ o, (e.submitOp op).1 = some o := by
  unfold submitOp getSqe
  rcases hanswers : e.answers with _ | ⟨_ | _, rest⟩
  · exact ⟨_, rfl⟩
  · rw [hanswers] at hroom
    exact absurd (.head _) hroom
  · exact ⟨_, rfl⟩

/-- A `recv` changes its connection, but not what its replies depend on. -/
theorem submitRecv_conns (opt : GatewayOptions) (c : Connection) (e : Engine) :
    ∃ d, (submitRecv opt c e).2.conns = update e.conns c.connId (some d) ∧
      d.connId = c.connId ∧ d.out = c.out := by
  have hsub := submitOp_conns ⟨.recv, some c.connId⟩ e
  simp only [submitRecv]
  split
  all_goals
    next hop =>
      rw [hop] at hsub
      rw [← hsub]
      exact ⟨_, rfl, rfl, rfl⟩

/-- So does a `send`; it is in flight if there is room for it. -/
theorem submitSend_conns (c : Connection) (e : Engine) :
    ∃ d, (submitSend c e).2.conns = update e.conns c.connId (some d) ∧
      d.out = c.out ∧ d.recvOp = c.recvOp ∧ (false ∉ e.answers → d.sendOp.isSome) := by
  have hsub := submitOp_conns ⟨.send, some c.connId⟩ e
  unfold submitSend
  split
  next e₁ hop =>
    rw [hop] at hsub
    rw [← hsub]
    refine ⟨c, rfl, rfl, rfl, fun hroom => ?_⟩
    obtain ⟨o, ho⟩ := submitOp_of_room ⟨.send, some c.connId⟩ hroom
    rw [hop] at ho
    cases ho
  next hop =>
    rw [hop] at hsub
    rw [← hsub]
    exact ⟨_, rfl, rfl, rfl, fun _ => rfl⟩

/-- A gateway starts with nobody connected. -/
theorem start_out (opt : GatewayOptions) (answers : List Bool) (id : Nat) :
    (start opt answers).out id = none := by
  have hreads : (submitStopRead (submitEventfdRead (submitAccept (new answers)))).out id = none := by
    refine out_of_conns_none ?_
    rw [submitStopRead, submitOp_conns, submitEventfdRead, submitOp_conns, submitAccept,
      submitOp_conns]
    rfl
  unfold start
  dsimp only
  split
  · rw [submitRspNotifyRead, out_congr (submitOp_conns _ _)]
    exact hreads
  · exact hreads

theorem submitCancel_conns (e : Engine) : e.submitCancel.conns = e.conns := by
  rw [submitCancel_toTable]

/-! ## Giving up on a connection -/

/-- What is left of a connection that is closing: nothing, once none of its
operations is in flight. -/
def rest (c : Connection) : Option Connection := if 0 < c.pendingOps then some c else none

theorem rest_shut (c : Connection) (h : c.state = .closing) : Shut ((rest c).map Connection.out) := by
  unfold rest
  split
  · rintro o ⟨⟩
    exact h
  · exact shut_none

theorem maybeFinalize_conns (c : Connection) (e : Engine) (h : c.state = .closing) :
    (maybeFinalize c e).conns = update e.conns c.connId (rest c) := by
  unfold maybeFinalize rest
  simp only [h, ne_eq, not_true_eq_false, false_or]
  split
  · rfl
  · exact Table.erase_conns

theorem closeConn_conns (hopen : c.state ≠ .closing) (e : Engine) :
    (closeConn c e).conns =
      update e.conns c.connId (rest { c with state := .closing }) := by
  unfold closeConn
  rw [if_neg hopen]
  refine (maybeFinalize_conns _ _ rfl).trans ?_
  -- cancelling changes nothing here
  congr 1
  split <;> split <;> simp only [submitCancel_conns]

theorem closeConn_shut (c : Connection) (e : Engine) :
    ∃ x, Shut (x.map Connection.out) ∧
      (closeConn c e).conns = update e.conns c.connId x := by
  by_cases hclosing : c.state = .closing
  · refine ⟨some c, ?_, ?_⟩
    · rintro o ⟨⟩
      exact hclosing
    · unfold closeConn
      rw [if_pos hclosing, setConn_conns]
  · exact ⟨_, rest_shut _ rfl, closeConn_conns hclosing e⟩

theorem closeId_shut (id : Nat) (h : ∀ c, e.conns id = some c → c.connId = id) :
    ∃ x, Shut (x.map Connection.out) ∧ (closeId id e).conns = update e.conns id x := by
  unfold closeId
  split
  next c hc =>
    obtain ⟨x, hx, hconns⟩ := closeConn_shut c e
    rw [h c hc] at hconns
    exact ⟨x, hx, hconns⟩
  next hnone =>
    refine ⟨none, shut_none, ?_⟩
    rw [← hnone, update_eq_self]

/-- Who is gone stays so. -/
theorem foldl_closeId_none (h : e.toTable.Lifecycle free due) (order : List Nat)
    (hnone : e.conns id = none) :
    (order.foldl (fun e id => closeId id e) e).conns id = none := by
  induction order generalizing e with
  | nil => exact hnone
  | cons j rest ih =>
    refine ih (closeId_lifecycle h j) ?_
    by_cases hj : id = j
    · subst hj
      simp only [closeId, hnone]
    · obtain ⟨x, -, hconns⟩ := closeId_shut j fun _ hc => (h.booked.named hc).1
      rw [hconns, update_of_ne hj]
      exact hnone

theorem foldl_closeId_out (h : e.toTable.Lifecycle free due) (order : List Nat) (id : Nat) :
    (order.foldl (fun e id => closeId id e) e).out id = e.out id ∨
      Shut ((order.foldl (fun e id => closeId id e) e).out id) := by
  induction order generalizing e with
  | nil => exact .inl rfl
  | cons j rest ih =>
    obtain ⟨x, hx, hconns⟩ := closeId_shut j fun _ hc => (h.booked.named hc).1
    have hout := out_update hconns
    rcases ih (closeId_lifecycle h j) with hsame | hshut
    · by_cases hj : id = j
      · refine .inr ?_
        rw [List.foldl_cons, hsame, hout, hj, update_self]
        exact hx
      · refine .inl ?_
        rw [List.foldl_cons, hsame, hout, update_of_ne hj]
    · exact .inr hshut

theorem sweepIdle_out (h : e.toTable.Lifecycle free due) (order : List Nat) (id : Nat) :
    (sweepIdle opt order e).out id = e.out id ∨ Shut ((sweepIdle opt order e).out id) := by
  unfold sweepIdle
  split
  · exact .inl rfl
  · exact foldl_closeId_out h _ id

theorem checkStop_conns (e : Engine) : e.checkStop.conns = e.conns := by
  rw [checkStop_toTable]

/-! ## Taking a reply -/

/-- What an item of the outbox can do to its connection. -/
inductive Taken (opt : GatewayOptions) (draining : Bool) (it : OutboxItem) :
    Option Out → Option Out → Prop
  | dropped {x : Option Out} : Shut x → Taken opt draining it x x
  | queued {o : Out} : it.kind = .respond → o.state ≠ .closing →
      o.sendBytes + it.bytes.length ≤ opt.sendBacklogLimit →
      Taken opt draining it (some o) (some (o.push it.bytes))
  | overflow {o : Out} {x : Option Out} : it.kind = .respond → o.state ≠ .closing →
      opt.sendBacklogLimit < o.sendBytes + it.bytes.length → Shut x →
      Taken opt draining it (some o) x
  | ended {o : Out} {x : Option Out} : it.kind ≠ .respond → o.state ≠ .closing → Shut x →
      Taken opt draining it (some o) x
  | rearmed {o : Out} : it.kind = .rearmRecv → draining = false → o.state = .parsing →
      Taken opt draining it (some o) (some { o with state := .active })
  | ignored {o : Out} : it.kind = .rearmRecv → draining = false → o.state ≠ .closing →
      Taken opt draining it (some o) (some o)

theorem pushResponse_conns {frame : Bytes}
    (hfits : c.sendBytes + frame.length ≤ opt.sendBacklogLimit) (e : Engine) :
    ∃ d, (pushResponse opt frame c e).conns = update e.conns c.connId (some d) ∧
      d.out = c.out.push frame ∧ d.recvOp = c.recvOp ∧
        (false ∉ e.answers → c.sendActive = c.sendOp.isSome → d.sendOp.isSome) := by
  unfold pushResponse
  rw [if_neg (Nat.not_lt.mpr hfits)]
  dsimp only
  split
  next hactive => exact ⟨_, rfl, rfl, rfl, fun _ hsend => hsend ▸ hactive⟩
  next =>
    obtain ⟨d, hconns, hout, hrecv, hsend⟩ := submitSend_conns (c.sendPush frame) e
    exact ⟨d, hconns, hout, hrecv, fun hroom _ => hsend hroom⟩

theorem pushResponse_taken {draining : Bool} {it : OutboxItem} (hkind : it.kind = .respond)
    (hopen : c.state ≠ .closing) (e : Engine) :
    ∃ x, Taken opt draining it (some c.out) (x.map Connection.out) ∧
      (pushResponse opt it.bytes c e).conns = update e.conns c.connId x := by
  by_cases hfits : c.sendBytes + it.bytes.length ≤ opt.sendBacklogLimit
  · obtain ⟨d, hconns, hout, -⟩ := pushResponse_conns hfits e
    refine ⟨some d, ?_, hconns⟩
    rw [Option.map_some, hout]
    exact .queued hkind hopen hfits
  · obtain ⟨x, hx, hconns⟩ := closeConn_shut c e
    refine ⟨x, .overflow hkind hopen (Nat.not_le.mp hfits) hx, ?_⟩
    unfold pushResponse
    rw [if_pos (Nat.not_le.mp hfits)]
    exact hconns

theorem rearm_conns (opt : GatewayOptions) (c : Connection) (e : Engine) :
    ∃ x, (x.map Connection.out = some c.out ∨ Shut (x.map Connection.out)) ∧
      (rearm opt c e).conns = update e.conns c.connId x := by
  obtain ⟨d, hconns, hid, hout⟩ := submitRecv_conns opt c e
  unfold rearm
  split
  next e₁ hop =>
    rw [hop] at hconns
    exact ⟨some d, .inl (congrArg some hout), hconns⟩
  next e₁ hop =>
    rw [hop] at hconns
    change e₁.conns = _ at hconns
    obtain ⟨x, hx, hclose⟩ := closeId_shut (e := e₁) c.connId fun c' hc' => by
      rw [hconns, update_self] at hc'
      cases hc'
      exact hid
    refine ⟨x, .inr hx, ?_⟩
    rw [hclose, hconns, update_idem]

theorem drainItem_taken (opt : GatewayOptions) (it : OutboxItem)
    (h : e.toTable.Lifecycle free due) :
    ∃ x, Taken opt e.draining it (e.out it.connId) (x.map Connection.out) ∧
      (drainItem opt e it).conns = update e.conns it.connId x := by
  unfold drainItem
  split
  next hnone =>
    refine ⟨none, ?_, ?_⟩
    · rw [out_of_conns_none hnone]
      exact .dropped shut_none
    · rw [← hnone, update_eq_self]
  next c hc =>
    have hout := out_of_conns hc
    have hid := (h.booked.named hc).1
    split
    next hclosing =>
      refine ⟨some c, ?_, ?_⟩
      · rw [hout]
        exact .dropped fun o ho => by cases ho; exact hclosing
      · rw [← hc, update_eq_self]
    next hopen =>
      rw [hout]
      have hclose : it.kind ≠ .respond →
          ∃ x, Taken opt e.draining it (some c.out) (x.map Connection.out) ∧
            (closeConn c e).conns = update e.conns it.connId x := by
        intro hkind
        obtain ⟨x, hx, hshut⟩ := closeConn_shut c e
        rw [hid] at hshut
        exact ⟨x, .ended hkind hopen hx, hshut⟩
      cases hkind : it.kind with
      | respond =>
        rw [← hid]
        exact pushResponse_taken hkind hopen e
      | close => exact hclose (by rw [hkind]; decide)
      | rearmRecv =>
        have hnot : it.kind ≠ .respond := by rw [hkind]; decide
        dsimp only
        split
        next => exact hclose hnot
        next hrun =>
          have hrun : e.draining = false := by simpa using hrun
          split
          next hstate =>
            refine ⟨some c, .ignored hkind hrun hopen, ?_⟩
            rw [← hc, update_eq_self]
          next hstate =>
            have hparsing : c.state = .parsing := not_not.mp hstate
            obtain ⟨x, hx, hrearm⟩ :=
              rearm_conns opt { c with rx := c.rx.feed it.bytes, state := .active } e
            refine ⟨x, ?_, hrearm.trans (by rw [← hid])⟩
            rcases hx with hx | hx
            · rw [hx]
              exact .rearmed hkind hrun hparsing
            · exact .ended hnot hopen hx

/-- A slot of the response ring does what a reply in the outbox does, or nothing. -/
theorem deliver_taken (opt : GatewayOptions) (h : e.toTable.Lifecycle free due) (r : Response) :
    (r.payload.length = 0 ∨ Ipc.RspRing.kPayloadMax < r.payload.length) ∧ deliver opt e r = e ∨
      ∃ x, Taken opt e.draining ⟨.respond, r.connId, r.payload⟩ (e.out r.connId)
          (x.map Connection.out) ∧
        (deliver opt e r).conns = update e.conns r.connId x := by
  unfold deliver
  split
  next hzero => exact .inl ⟨.inl hzero, rfl⟩
  next =>
    split
    next hmax => exact .inl ⟨.inr hmax, rfl⟩
    next => exact .inr (drainItem_taken opt ⟨.respond, r.connId, r.payload⟩ h)

/-- A shut connection stays shut, and an open one was open before. -/
theorem Taken.of_open {draining : Bool} {it : OutboxItem} {x y : Option Out} {o' : Out}
    (h : Taken opt draining it x y) (hy : y = some o') (hopen : o'.state ≠ .closing) :
    ∃ o, x = some o ∧ o.state ≠ .closing ∧
      o'.sendQ = o.sendQ ++ (if it.kind = .respond then [it.bytes] else []) ∧
      (it.kind = .respond → o.sendBytes + it.bytes.length ≤ opt.sendBacklogLimit) := by
  cases h with
  | dropped hshut | overflow _ _ _ hshut | ended _ _ hshut => exact absurd hopen (hshut.not_open hy)
  | queued hkind ho hfits =>
    cases hy
    exact ⟨_, rfl, ho, by rw [if_pos hkind]; rfl, fun _ => hfits⟩
  | rearmed hkind _ hstate =>
    cases hy
    refine ⟨_, rfl, by rw [hstate]; decide, by simp [hkind], fun h => ?_⟩
    rw [hkind] at h
    cases h
  | ignored hkind _ ho =>
    cases hy
    refine ⟨_, rfl, ho, by simp [hkind], fun h => ?_⟩
    rw [hkind] at h
    cases h

/-- **A drain of the outbox.** A connection that is open after it was open before,
and all replies for it, and no others, went to its queue in their order. -/
theorem drainOutbox_open {items : List OutboxItem} {o' : Out} (h : e.toTable.Lifecycle free items)
    (ho' : (drainOutbox opt items e).out id = some o') (hopen : o'.state ≠ .closing) :
    ∃ o, e.out id = some o ∧ o.state ≠ .closing ∧
      o'.sendQ = o.sendQ ++ forConn id (replies items) ∧
      forConn id (queuedItems opt e items) = forConn id (replies items) := by
  induction items generalizing e with
  | nil => exact ⟨o', ho', hopen, by simp, rfl⟩
  | cons it rest ih =>
    obtain ⟨o₁, ho₁, hopen₁, hq₁, hqueued⟩ := ih (drainItem_lifecycle h) ho'
    obtain ⟨x, htaken, hconns⟩ := drainItem_taken opt it h
    rw [out_update hconns] at ho₁
    rw [replies_cons, queuedItems, forConn_append, forConn_append, hqueued]
    by_cases hid : it.connId = id
    · subst hid
      rw [update_self] at ho₁
      obtain ⟨o, ho, hopen, hq, hfits⟩ := htaken.of_open ho₁ hopen₁
      refine ⟨o, ho, hopen, ?_, ?_⟩
      · rw [hq₁, hq, List.append_assoc]
        unfold OutboxItem.reply
        split <;> simp [forConn_self]
      · by_cases hkind : it.kind = .respond
        · rw [if_pos (by simp [takes, ho, hopen, hfits hkind])]
        · simp [OutboxItem.reply, hkind]
    · rw [update_of_ne (Ne.symm hid)] at ho₁
      refine ⟨o₁, ho₁, hopen₁, ?_, ?_⟩
      · rw [hq₁, it.forConn_reply_of_ne hid, List.nil_append]
      · rw [it.forConn_reply_of_ne hid]
        split
        · rw [it.forConn_reply_of_ne hid]
        · rfl

theorem mem_queuedItems {items : List OutboxItem} {p : Nat × Bytes}
    (h : p ∈ queuedItems opt e items) : p ∈ replies items := by
  induction items generalizing e with
  | nil => exact h
  | cons it rest ih =>
    rw [queuedItems] at h
    rw [replies_cons]
    refine List.mem_append.mpr ((List.mem_append.mp h).imp (fun hit => ?_) ih)
    split at hit
    · exact hit
    · cases hit

/-- The same for one slot of the response ring. -/
theorem deliver_open {r : Response} {o' : Out} (h : e.toTable.Lifecycle free due)
    (hsize : r.payload.length ≠ 0 ∧ r.payload.length ≤ Ipc.RspRing.kPayloadMax)
    (ho' : (deliver opt e r).out id = some o') (hopen : o'.state ≠ .closing) :
    ∃ o, e.out id = some o ∧ o.state ≠ .closing ∧
      o'.sendQ = o.sendQ ++ forConn id [(r.connId, r.payload)] ∧
      (r.connId = id → e.takes opt id r.payload = true) := by
  rcases deliver_taken opt h r with ⟨hzero | hmax, -⟩ | ⟨x, htaken, hconns⟩
  · exact absurd hzero hsize.1
  · exact absurd hsize.2 (Nat.not_le.mpr hmax)
  · rw [out_update hconns] at ho'
    by_cases hid : r.connId = id
    · subst hid
      rw [update_self] at ho'
      obtain ⟨o, ho, hopen, hq, hfits⟩ := htaken.of_open ho' hopen
      refine ⟨o, ho, hopen, ?_, fun _ => by simp [takes, ho, hopen, hfits rfl]⟩
      rw [hq, forConn_self]
      rfl
    · rw [update_of_ne (Ne.symm hid)] at ho'
      refine ⟨o', ho', hopen, ?_, fun heq => absurd heq hid⟩
      rw [forConn_of_ne hid, List.append_nil]

/-! ## Completions -/

theorem onCqe_wakeup {o : Nat} (hwake : op.kind = .wakeup) (q : Completion)
    (items : List OutboxItem) : onCqe opt o op q items e =
      drainOutbox opt items (submitEventfdRead { e with toTable := e.toTable.dropOp o }) := by
  unfold onCqe
  rw [hwake]
  rfl

/-- What the outbox is drained with. -/
theorem wakeup_lifecycle (h : e.toTable.Lifecycle free due) {o : Nat} (ho : e.ops o = some op)
    (hwake : op.kind = .wakeup) :
    (submitEventfdRead { e with toTable := e.toTable.dropOp o }).toTable.Lifecycle free due :=
  submitEventfdRead_lifecycle (h.dropOp ho (by rw [hwake]; exact ⟨nofun, nofun⟩))

theorem completeRecv_conns (opt : GatewayOptions) (res : Int) (data : Bytes) (c : Connection)
    (e : Engine) :
    ∃ x, (completeRecv opt res data c e).conns = update e.conns c.connId x ∧
      (Shut (x.map Connection.out) ∨ c.state ≠ .closing ∧
        x.map Connection.out = some { c.out with state := .parsing }) := by
  have hshut : ∀ {e' : Engine}, (∃ x, Shut (x.map Connection.out) ∧
      e'.conns = update e.conns c.connId x) →
      ∃ x, e'.conns = update e.conns c.connId x ∧
        (Shut (x.map Connection.out) ∨ c.state ≠ .closing ∧
          x.map Connection.out = some { c.out with state := .parsing }) := by
    rintro e' ⟨x, hx, hconns⟩
    exact ⟨x, hconns, .inl hx⟩
  unfold completeRecv
  dsimp only
  split
  next hclosing => exact ⟨_, maybeFinalize_conns _ e hclosing, .inl (rest_shut _ hclosing)⟩
  next hopen =>
    split
    · exact hshut (closeConn_shut _ e)
    · split
      · exact hshut (closeConn_shut _ e)
      · split
        · exact hshut (closeConn_shut _ e)
        · exact ⟨_, setConn_conns _ e, .inr ⟨hopen, rfl⟩⟩

theorem completeSend_conns (res : Int) (c : Connection) (e : Engine) :
    ∃ x, (completeSend res c e).conns = update e.conns c.connId x ∧
      (c.state = .closing ∧ Shut (x.map Connection.out) ∧ (c.pendingOps = 1 → x = none) ∨
        c.state ≠ .closing ∧ res < 0 ∧ Shut (x.map Connection.out) ∨
        c.state ≠ .closing ∧ 0 ≤ res ∧ x.map Connection.out = some (c.out.pop res.toNat)) := by
  unfold completeSend
  dsimp only
  split
  next hclosing =>
    refine ⟨_, maybeFinalize_conns _ e hclosing,
      .inl ⟨hclosing, rest_shut _ hclosing, fun hone => ?_⟩⟩
    unfold rest
    rw [if_neg]
    simp only [hone]
    omega
  next hopen =>
    split
    next hneg =>
      obtain ⟨x, hx, hconns⟩ := closeConn_shut { c with
        sendOp := none, pendingOps := c.pendingOps - 1, sendActive := false } e
      exact ⟨x, hconns, .inr (.inl ⟨hopen, hneg, hx⟩)⟩
    next hpos =>
      have hpos := Int.not_lt.mp hpos
      split
      · obtain ⟨d, hconns, hout, -⟩ := submitSend_conns { ({ c with
          sendOp := none, pendingOps := c.pendingOps - 1, sendActive := false } :
            Connection).sendPop res.toNat with lastActive := e.now } e
        exact ⟨some d, hconns, .inr (.inr ⟨hopen, hpos, congrArg some hout⟩)⟩
      · exact ⟨_, setConn_conns _ e, .inr (.inr ⟨hopen, hpos, rfl⟩)⟩

theorem completeAccept_conns (opt : GatewayOptions) (res : Int) (e : Engine) :
    (completeAccept opt res e).conns = e.conns ∨ e.accepting = true ∧
      ∃ x, (Shut (x.map Connection.out) ∨ x.map Connection.out = some ⟨.active, [], 0⟩) ∧
        (completeAccept opt res e).conns = update e.conns e.nextConnId x := by
  have harm : ∀ e : Engine, e.submitAccept.conns = e.conns := fun e =>
    submitOp_conns ⟨.accept, none⟩ e
  unfold completeAccept
  split
  · refine .inl ?_
    split <;> rfl
  next hon =>
    split
    · refine .inl ?_
      split
      · split
        · rfl
        · exact harm _
      · exact harm _
    · refine .inr ⟨by simpa using hon, ?_⟩
      generalize hg : ({ e with acceptFailStreak := 0, opened := e.opened ++ [res] } : Engine) = e₀
      have hid : (makeConn opt res e₀).1.connId = e.nextConnId := by rw [← hg]; rfl
      have hmake : (makeConn opt res e₀).2.conns =
          update e.conns e.nextConnId (some (makeConn opt res e₀).1) := by
        rw [← hg]
        rfl
      obtain ⟨d, hrecv, -, hd⟩ :=
        submitRecv_conns opt (makeConn opt res e₀).1 (makeConn opt res e₀).2
      have hnew : d.out = ⟨.active, [], 0⟩ := by rw [hd, ← hg]; rfl
      rw [hmake, hid, update_idem] at hrecv
      dsimp only
      split
      next e₁ hop =>
        rw [hop] at hrecv
        exact ⟨some d, .inr (congrArg some hnew), (harm e₁).trans hrecv⟩
      next e₁ hop =>
        rw [hop] at hrecv
        refine ⟨none, .inl shut_none, (harm _).trans ?_⟩
        change e₁.conns = _ at hrecv
        exact Table.erase_conns.trans (by rw [hid, hrecv, update_idem])

/-- What a completion can do to one id: nothing, or what is said for the operation
that it completes. -/
inductive Completes (e : Engine) (op : UringOp) (res : Int) : Nat → Option Connection → Prop
  | same {id : Nat} : op ≠ ⟨.send, some id⟩ → Completes e op res id (e.conns id)
  | refused {x : Option Connection} : op.kind = .accept → Shut (x.map Connection.out) →
      Completes e op res e.nextConnId x
  | accepted {x : Option Connection} : op.kind = .accept → e.accepting = true →
      x.map Connection.out = some ⟨.active, [], 0⟩ → Completes e op res e.nextConnId x
  | hungUp {id : Nat} {x : Option Connection} : op = ⟨.recv, some id⟩ →
      Shut (x.map Connection.out) → Completes e op res id x
  | received {id : Nat} {c : Connection} {x : Option Connection} : op = ⟨.recv, some id⟩ →
      e.conns id = some c → c.state ≠ .closing →
      x.map Connection.out = some { c.out with state := .parsing } → Completes e op res id x
  | finished {id : Nat} {c : Connection} {x : Option Connection} : op = ⟨.send, some id⟩ →
      e.conns id = some c → c.state = .closing → Shut (x.map Connection.out) →
      (c.pendingOps = 1 → x = none) → Completes e op res id x
  | failed {id : Nat} {c : Connection} {x : Option Connection} : op = ⟨.send, some id⟩ →
      e.conns id = some c → c.state ≠ .closing → res < 0 → Shut (x.map Connection.out) →
      Completes e op res id x
  | sent {id : Nat} {c : Connection} {x : Option Connection} : op = ⟨.send, some id⟩ →
      e.conns id = some c → c.state ≠ .closing → 0 ≤ res →
      x.map Connection.out = some (c.out.pop res.toNat) → Completes e op res id x

/-- **Every completion** but the one that drains the outbox, with nothing in the
response ring. -/
theorem onCqe_completes (h : e.toTable.Lifecycle free due) {o : Nat} (ho : e.ops o = some op)
    {q : Completion} (hwake : op.kind ≠ .wakeup) (hring : q.responses = []) (id : Nat) :
    Completes e op q.res id ((onCqe opt o op q due e).conns id) := by
  -- an update at one id is right there and changes nothing elsewhere
  have hat : ∀ {e' : Engine} {j : Nat} {x : Option Connection},
      e'.conns = update e.conns j x → (id ≠ j → op ≠ ⟨.send, some id⟩) →
        Completes e op q.res j x → Completes e op q.res id (e'.conns id) := by
    intro e' j x hconns hne hx
    rw [hconns]
    by_cases hj : id = j
    · rw [hj, update_self]
      exact hx
    · rw [update_of_ne hj]
      exact .same (hne hj)
  have hnone : ∀ {e' : Engine}, e'.conns = e.conns → op.kind ≠ .send →
      Completes e op q.res id (e'.conns id) := by
    intro e' hconns hkind
    rw [hconns]
    exact .same fun heq => hkind (by rw [heq])
  obtain ⟨kind, conn⟩ := op
  unfold onCqe
  cases kind with
  | accept =>
    rcases completeAccept_conns opt q.res { e with toTable := e.toTable.dropOp o } with
      hsame | ⟨hon, x, hx, hconns⟩
    · exact hnone hsame (by simp)
    · refine hat hconns (fun _ => by simp) ?_
      rcases hx with hx | hx
      · exact .refused rfl hx
      · exact .accepted rfl hon hx
  | recv =>
    obtain ⟨j, c, rfl, hc, -⟩ := h.booked.owned ho (.inl rfl)
    obtain ⟨x, hconns, hx⟩ := completeRecv_conns opt q.res q.data c
      { e with toTable := e.toTable.dropOp o }
    rw [(h.booked.named hc).1] at hconns
    simp only [atConn, Option.bind_some, Table.dropOp, hc]
    refine hat hconns (fun _ => by simp) ?_
    rcases hx with hx | ⟨hopen, hx⟩
    · exact .hungUp rfl hx
    · exact .received rfl hc hopen hx
  | send =>
    obtain ⟨j, c, rfl, hc, -⟩ := h.booked.owned ho (.inr rfl)
    obtain ⟨x, hconns, hx⟩ := completeSend_conns q.res c { e with toTable := e.toTable.dropOp o }
    rw [(h.booked.named hc).1] at hconns
    simp only [atConn, Option.bind_some, Table.dropOp, hc]
    refine hat hconns (fun hne heq => ?_) ?_
    · cases heq
      exact hne rfl
    rcases hx with ⟨hclosing, hx, hgone⟩ | ⟨hopen, hneg, hx⟩ | ⟨hopen, hpos, hx⟩
    · exact .finished rfl hc hclosing hx hgone
    · exact .failed rfl hc hopen hneg hx
    · exact .sent rfl hc hopen hpos hx
  | wakeup => exact absurd rfl hwake
  | stop => exact hnone rfl (by simp)
  | rspNotify =>
    have harm : ∀ e : Engine, e.submitRspNotifyRead.conns = e.conns := fun e =>
      submitOp_conns ⟨.rspNotify, none⟩ e
    refine hnone ?_ (by simp)
    simp only [completeRspNotify, hring]
    split
    · rfl
    · split
      · split
        · rfl
        · exact harm _
      · unfold drainResponseRing
        split <;> exact harm _

end Engine

end SharedBike.Gateway
