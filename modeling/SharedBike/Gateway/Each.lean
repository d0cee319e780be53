import SharedBike.Gateway.Draining

/-!
# A property of every connection

The handlers of the engine change one connection at a time, and only in a few
ways: it is made, its next `recv` is posted, a frame is put on its queue, a `send`
is started or completes, what a `recv` brought is handed to a worker, or it is on
its way out. `Upheld` says of a property of connections that it survives each of
these. Then it holds of every connection in every run (`MainLoop.each`), with no
look at the handlers again.

What the surroundings bring may be limited: `fresh` is what is known of the id of a
new connection, `fed` of the bytes that come back to an id with the end of its batch.
-/

namespace SharedBike.Gateway

open SharedBike.Lib SharedBike.Wire Function

/-- The property `P` of connections survives what handlers do to one. Nothing is
asked of a connection that is closing. -/
structure Upheld (opt : GatewayOptions) (fresh : Nat → Prop) (fed : Nat → Bytes → Prop)
    (P : Connection → Prop) : Prop where
  closing : ∀ {c}, c.state = .closing → P c
  made : ∀ fd id now, fresh id → P (Connection.new fd id opt.rxBufBytes now)
  posted : ∀ {c}, P c → ∀ op n,
    P { c with rx := c.rx.prepare opt.rxBufBytes, recvOp := op, pendingOps := n }
  rearmed : ∀ {c bytes}, P c → c.state = .parsing → fed c.connId bytes → ∀ op n,
    P { c with
      rx := (c.rx.feed bytes).prepare opt.rxBufBytes, state := .active, recvOp := op,
      pendingOps := n }
  pushed : ∀ {c frame}, P c → c.state ≠ .closing →
    c.sendBytes + frame.length ≤ opt.sendBacklogLimit → P (c.sendPush frame)
  sending : ∀ {c}, P c → ∀ op n, P { c with sendOp := op, pendingOps := n, sendActive := true }
  received : ∀ {c}, P c → c.state ≠ .closing → ∀ n now,
    P { c with
      rx := Rx.init opt.rxBufBytes, recvOp := none, pendingOps := n, lastActive := now,
      state := .parsing }
  sent : ∀ {c}, P c → c.state ≠ .closing → ∀ res n now,
    P { c.sendPop res with
      sendOp := none, pendingOps := n, sendActive := false, lastActive := now }

namespace Engine

def Each (P : Connection → Prop) (e : Engine) : Prop := ∀ id c, e.conns id = some c → P c

variable {opt : GatewayOptions} {fresh free : Nat → Prop} {fed : Nat → Bytes → Prop}
  {P : Connection → Prop} {e e' : Engine} {c : Connection} {id : Nat}

/-! ## Updates of the table -/

theorem Each.of_conns (h : e.Each P) (hconns : e'.conns = e.conns) : e'.Each P := by
  intro id c hc
  rw [hconns] at hc
  exact h id c hc

theorem Each.update (h : e.Each P) {x : Option Connection}
    (hconns : e'.conns = update e.conns id x) (hx : ∀ c, x = some c → P c) : e'.Each P := by
  intro j c hc
  rw [hconns] at hc
  by_cases hj : j = id
  · rw [hj, update_self] at hc
    exact hx c hc
  · rw [update_of_ne hj] at hc
    exact h j c hc

theorem Each.setConn (h : e.Each P) (hc : P c) : (e.setConn c).Each P :=
  h.update rfl fun _ hd => Option.some.inj hd ▸ hc

theorem Each.submitOp (h : e.Each P) (op : UringOp) : (e.submitOp op).2.Each P :=
  h.of_conns (submitOp_conns op e)

/-! ## The handlers -/

section Handlers

variable (hP : Upheld opt fresh fed P)

include hP

/-- A connection that is given up is of no interest. -/
theorem Each.shut (h : e.Each P) {x : Option Connection} (hx : Out.Shut (x.map Connection.out))
    (hconns : e'.conns = Function.update e.conns id x) : e'.Each P := by
  refine h.update hconns ?_
  rintro c rfl
  exact hP.closing (hx _ rfl)

theorem Each.closeConn (h : e.Each P) (c : Connection) : (closeConn c e).Each P := by
  obtain ⟨x, hx, hconns⟩ := closeConn_shut c e
  exact h.shut hP hx hconns

theorem Each.closeId (h : e.Each P) (id : Nat) : (closeId id e).Each P := by
  unfold Engine.closeId
  split
  · exact h.closeConn hP _
  · exact h

theorem Each.closeIds (h : e.Each P) (order : List Nat) :
    (order.foldl (fun e id => Engine.closeId id e) e).Each P := by
  induction order generalizing e with
  | nil => exact h
  | cons id rest ih => exact ih (h.closeId hP id)

theorem Each.maybeFinalize (h : e.Each P) (hstate : c.state = .closing) :
    (maybeFinalize c e).Each P :=
  h.shut hP (rest_shut c hstate) (maybeFinalize_conns c e hstate)

omit hP in
/-- A `recv` is posted for a connection that is fine with or without it. -/
theorem Each.submitRecv (h : e.Each P)
    (hc : ∀ op n, P { c with rx := c.rx.prepare opt.rxBufBytes, recvOp := op, pendingOps := n }) :
    (submitRecv opt c e).2.Each P := by
  have hsub := h.submitOp ⟨.recv, some c.connId⟩
  unfold Engine.submitRecv
  dsimp only
  split
  next hop =>
    rw [hop] at hsub
    exact hsub.setConn (hc c.recvOp c.pendingOps)
  next op _ hop =>
    rw [hop] at hsub
    exact hsub.setConn (hc (some op) (c.pendingOps + 1))

theorem Each.submitSend (h : e.Each P) (hc : P c) : (submitSend c e).2.Each P := by
  have hsub := h.submitOp ⟨.send, some c.connId⟩
  unfold Engine.submitSend
  split
  next hop =>
    rw [hop] at hsub
    exact hsub.setConn hc
  next op _ hop =>
    rw [hop] at hsub
    exact hsub.setConn (hP.sending hc (some op) _)

theorem Each.pushResponse (h : e.Each P) (hc : P c) (hopen : c.state ≠ .closing) (frame : Bytes) :
    (pushResponse opt frame c e).Each P := by
  unfold Engine.pushResponse
  split
  · exact h.closeConn hP c
  next hfits =>
    have hpushed := hP.pushed hc hopen (Nat.not_lt.mp hfits)
    dsimp only
    split
    · exact h.setConn hpushed
    · exact h.submitSend hP hpushed

theorem Each.drainItem (h : e.Each P) {it : OutboxItem}
    (hnamed : ∀ c, e.conns it.connId = some c → c.connId = it.connId)
    (hfed : it.kind = .rearmRecv → fed it.connId it.bytes) : (drainItem opt e it).Each P := by
  unfold Engine.drainItem
  split
  · exact h
  next c hc =>
    split
    · exact h
    next hopen =>
      split
      · exact h.pushResponse hP (h _ c hc) hopen it.bytes
      next hkind =>
        split
        · exact h.closeConn hP c
        · split
          · exact h
          next hparsing =>
            have hback : fed c.connId it.bytes := by
              rw [hnamed c hc]
              exact hfed hkind
            have hposted := h.submitRecv (e := e)
              (c := { c with rx := c.rx.feed it.bytes, state := .active })
              (hP.rearmed (h _ c hc) (not_not.mp hparsing) hback)
            unfold Engine.rearm
            split
            next hop =>
              rw [hop] at hposted
              exact hposted
            next hop =>
              rw [hop] at hposted
              exact hposted.closeId hP _
      · exact h.closeConn hP c

theorem Each.drainOutbox (h : e.Each P) {items : List OutboxItem}
    (hlife : e.toTable.Lifecycle free items)
    (hfed : ∀ it ∈ items, it.kind = .rearmRecv → fed it.connId it.bytes) :
    (drainOutbox opt items e).Each P := by
  unfold Engine.drainOutbox
  induction items generalizing e with
  | nil => exact h
  | cons it rest ih =>
    obtain ⟨hit, hrest⟩ := List.forall_mem_cons.mp hfed
    have hnamed : ∀ c, e.conns it.connId = some c → c.connId = it.connId :=
      fun c hc => (hlife.booked.named hc).1
    exact ih (h.drainItem hP hnamed hit) (drainItem_lifecycle hlife) hrest

theorem Each.deliver (h : e.Each P) (r : Response) : (deliver opt e r).Each P := by
  unfold Engine.deliver
  split
  · exact h
  · split
    · exact h
    · split
      · exact h
      next c hc =>
        split
        · exact h
        next hopen => exact h.pushResponse hP (h _ c hc) hopen r.payload

theorem Each.drainResponseRing (h : e.Each P) (peerDead : Bool) (rs : List Response) :
    (drainResponseRing opt peerDead rs e).Each P := by
  unfold Engine.drainResponseRing
  split
  · have h' : Each P { e with stopping := e.stopping || peerDead } := h
    generalize ({ e with stopping := e.stopping || peerDead } : Engine) = e₀ at h'
    clear h
    induction rs generalizing e₀ with
    | nil => exact h'
    | cons r rest ih => exact ih _ (h'.deliver hP r)
  · exact h

/-! ## The completions -/

theorem Each.completeAccept (h : e.Each P) {res : Int}
    (hfresh : e.accepting = true → 0 ≤ res → fresh e.nextConnId) :
    (completeAccept opt res e).Each P := by
  unfold Engine.completeAccept
  split
  · split
    · exact h
    · exact h
  next hon =>
    split
    · split
      · split
        · exact h
        · exact Each.submitOp (e := { e with acceptFailStreak := e.acceptFailStreak + 1 }) h _
      · exact h.submitOp _
    next hres =>
      -- the new connection is entered, and its first `recv` is posted
      have hnew := hfresh (by simpa using hon) (Int.not_lt.mp hres)
      have hmade : Each P (makeConn opt res
          { e with acceptFailStreak := 0, opened := e.opened ++ [res] }).2 :=
        Each.setConn (e := { e with acceptFailStreak := 0, opened := e.opened ++ [res] }) h
          (hP.made res _ _ hnew)
      have hposted := hmade.submitRecv (hP.posted (hP.made res e.nextConnId e.now hnew))
      dsimp only [makeConn] at hposted ⊢
      split
      next hop =>
        rw [hop] at hposted
        exact hposted.submitOp _
      next e₁ hop =>
        rw [hop] at hposted
        refine Each.submitOp (e := { e₁ with toTable := e₁.toTable.erase _ }) ?_ _
        exact hposted.update Table.erase_conns (by simp)

theorem Each.completeRecv (h : e.Each P) (hc : P c) (res : Int) (data : Bytes) :
    (completeRecv opt res data c e).Each P := by
  unfold Engine.completeRecv
  dsimp only
  split
  next hclosing => exact h.maybeFinalize hP hclosing
  next hopen =>
    split
    · exact h.closeConn hP _
    · split
      · exact h.closeConn hP _
      · split
        · exact h.closeConn hP _
        · exact Each.setConn (e := e) h (hP.received hc hopen _ _)

theorem Each.completeSend (h : e.Each P) (hc : P c) (res : Int) :
    (completeSend res c e).Each P := by
  unfold Engine.completeSend
  dsimp only
  split
  next hclosing => exact h.maybeFinalize hP hclosing
  next hopen =>
    split
    · exact h.closeConn hP _
    · have hsent := hP.sent hc hopen res.toNat (c.pendingOps - 1) e.now
      split
      · exact h.submitSend hP hsent
      · exact h.setConn hsent

theorem Each.completeRspNotify (h : e.Each P) (res : Int) (peerDead : Bool) (rs : List Response) :
    (completeRspNotify opt res peerDead rs e).Each P := by
  have hstreak : ∀ n, Each P { e with rspNotifyFailStreak := n } := fun _ => h
  unfold Engine.completeRspNotify
  split
  · exact h
  · split
    · split
      · exact h
      · exact (hstreak _).submitOp _
    · exact ((hstreak 0).submitOp _).drainResponseRing hP peerDead rs

theorem Each.onCqe (h : e.Each P) {o : Nat} {op : UringOp} (ho : e.ops o = some op) (q : Completion)
    {items : List OutboxItem} (hlife : e.toTable.Lifecycle free items)
    (hfresh : op.kind = .accept → e.accepting = true → 0 ≤ q.res → fresh e.nextConnId)
    (hfed : ∀ it ∈ items, it.kind = .rearmRecv → fed it.connId it.bytes) :
    (onCqe opt o op q items e).Each P := by
  have hdrop : Each P { e with toTable := e.toTable.dropOp o } := h
  have hat : ∀ {f : Connection → Engine → Engine},
      (∀ (e : Engine) (c : Connection), e.Each P → P c → (f c e).Each P) →
        (atConn op f { e with toTable := e.toTable.dropOp o }).Each P := by
    intro f hf
    unfold atConn
    split
    next c hc =>
      obtain ⟨id, -, hid⟩ := Option.bind_eq_some_iff.mp hc
      exact hf _ c hdrop (hdrop id c hid)
    · exact h
  unfold Engine.onCqe
  split
  next haccept => exact hdrop.completeAccept hP (hfresh haccept)
  · exact hat fun e c he hc => he.completeRecv hP hc q.res q.data
  · exact hat fun e c he hc => he.completeSend hP hc q.res
  next hwake => exact (hdrop.submitOp _).drainOutbox hP (wakeup_lifecycle hlife ho hwake) hfed
  · exact h
  · exact hdrop.completeRspNotify hP q.res q.peerDead q.responses

end Handlers

end Engine

/-! ## The runs -/

/-- Only the last item of a batch brings bytes back, and a batch that goes on ends
as it would have before. -/
theorem Batch.step_fed {fed : Nat → Bytes → Prop} {b : Batch}
    (hb : b.bad = false → fed b.connId b.leftover) (r : SinkResult) :
    (∀ it ∈ (b.step r).1, it.kind = .rearmRecv → fed it.connId it.bytes) ∧
      ∀ b', (b.step r).2 = some b' → b'.bad = false → fed b'.connId b'.leftover := by
  unfold Batch.step
  cases b.frames with
  | nil =>
    refine ⟨fun it hit hkind => ?_, nofun⟩
    rw [List.mem_singleton] at hit
    subst hit
    unfold Batch.last at hkind ⊢
    split at hkind
    · cases hkind
    next hbad =>
      rw [if_neg hbad]
      exact hb (Bool.eq_false_iff.mpr hbad)
  | cons f rest =>
    have hclose : ∀ it ∈ [(⟨.close, b.connId, []⟩ : OutboxItem)],
        it.kind = .rearmRecv → fed it.connId it.bytes := by
      intro it hit hkind
      rw [List.mem_singleton.mp hit] at hkind
      cases hkind
    cases r with
    | reply bytes =>
      refine ⟨fun it hit hkind => ?_, ?_⟩
      · rw [(Batch.respond_kind hit).1] at hkind
        cases hkind
      · rintro b' ⟨⟩
        exact hb
    | threw =>
      refine ⟨nofun, ?_⟩
      rintro b' ⟨⟩
      exact hb
    | overload => exact ⟨hclose, nofun⟩
    | malformed => exact ⟨hclose, nofun⟩

namespace MainLoop

variable {opt : GatewayOptions} {fresh free : Nat → Prop} {fed : Nat → Bytes → Prop}
  {P : Connection → Prop} {g g' : MainLoop}

/-- Every connection has the property, and what the workers give back, now or later,
is as expected. -/
structure EachInv (fed : Nat → Bytes → Prop) (P : Connection → Prop) (g : MainLoop) : Prop where
  conns : g.engine.Each P
  outbox : ∀ it ∈ g.outbox, it.kind = .rearmRecv → fed it.connId it.bytes
  batches : ∀ b ∈ g.engine.batches, b.bad = false → fed b.connId b.leftover

theorem EachInv.work (h : g.EachInv fed P) {i : Nat} {r : SinkResult}
    (hwork : g.work i r = some g') : g'.EachInv fed P := by
  obtain ⟨b, hb, rfl⟩ := work_eq hwork
  obtain ⟨hitems, hnext⟩ := Batch.step_fed (h.batches b (List.mem_of_getElem? hb)) r
  refine ⟨h.conns, fun it hit => ?_, fun b' hb' => ?_⟩
  · rcases List.mem_append.mp hit with hit | hit
    · exact h.outbox it hit
    · exact hitems it hit
  · rcases List.mem_append.mp hb' with hb' | hb'
    · rcases List.mem_append.mp hb' with hb' | hb'
      · exact h.batches b' (List.mem_of_mem_take hb')
      · exact hnext b' (Option.mem_toList.mp hb')
    · exact h.batches b' (List.mem_of_mem_drop hb')

section Steps

variable (hP : Upheld opt fresh fed P)
  (hcut : ∀ id raw, (cutFrames raw).bad = false → fed id (cutFrames raw).leftover)

include hP hcut

theorem EachInv.cqe (hinv : g.Inv free) (h : g.EachInv fed P) {o : Nat} {q : Engine.Completion}
    (hfresh : g.accepts (.cqe o q) = true → fresh g.engine.nextConnId)
    (hcqe : g.cqe opt o q = some g') : g'.EachInv fed P := by
  obtain ⟨op, ho, hstage, -, rfl⟩ := cqe_eq hcqe
  refine ⟨h.conns.onCqe hP ho q (hinv.lifecycle hstage) (fun hkind haccepting hres => ?_) h.outbox,
    fun it hit => ?_, fun b hb => ?_⟩
  · exact hfresh (by simp [accepts, ho, hkind, haccepting, hres])
  · dsimp only at hit
    split at hit
    · cases hit
    · exact h.outbox it hit
  · rcases Engine.onCqe_batches opt (hinv.lifecycle hstage) ho q g.outbox with
      hsame | ⟨id, c, raw, -, -, -, -, hposted⟩
    · rw [hsame] at hb
      exact h.batches b hb
    · rw [hposted] at hb
      rcases List.mem_append.mp hb with hb | hb
      · exact h.batches b hb
      · rw [List.mem_singleton.mp hb]
        exact hcut id raw

omit hcut in
/-- The other turns of the main loop. -/
theorem each_turn (h : g.engine.Each P) {action : Action} (hcqe : ∀ o q, action ≠ .cqe o q)
    (hwork : ∀ i r, action ≠ .work i r) (hstep : g.step opt action = some g') :
    g'.engine.Each P := by
  have hturn : ∀ {ok : Bool} {e : Engine} {stage : Stage}, g.turn ok e stage = some g' →
      e.Each P → g'.engine.Each P := by
    intro ok e stage hturn he
    obtain ⟨-, rfl⟩ := turn_eq hturn
    exact he
  cases action with
  | cqe o q => exact absurd rfl (hcqe o q)
  | work i r => exact absurd rfl (hwork i r)
  | drainResponses peerDead rs => exact hturn hstep (h.drainResponseRing hP peerDead rs)
  | sweep order =>
    refine hturn hstep ?_
    unfold Engine.sweepIdle
    split
    · exact h
    · exact h.closeIds hP _
  | requestStop =>
    cases hstep
    exact h
  | checkStop => exact hturn hstep (h.of_conns (Engine.checkStop_conns _))
  | leave failed => exact hturn hstep h
  | reap order => exact hturn hstep (h.closeIds hP _)
  | exit => exact hturn hstep h
  | forceClose order => exact hturn hstep nofun

omit hcut in
/-- They leave the outbox and the batches alone. -/
theorem EachInv.turn (h : g.EachInv fed P) {action : Action} (hcqe : ∀ o q, action ≠ .cqe o q)
    (hwork : ∀ i r, action ≠ .work i r) (hstep : g.step opt action = some g') :
    g'.EachInv fed P := by
  obtain ⟨hkeeps, houtbox⟩ := turn_keeps (k := .stop) nofun hcqe hwork hstep
  refine ⟨each_turn hP h.conns hcqe hwork hstep, ?_, ?_⟩
  · rw [houtbox]
    exact h.outbox
  · rw [hkeeps.batches]
    exact h.batches

theorem EachInv.next (hinv : g.Inv free) (h : g.EachInv fed P) {ev : Event}
    (hfresh : g.accepts ev.action = true → fresh g.engine.nextConnId)
    (hnext : g.next opt ev = some g') : g'.EachInv fed P := by
  have hinv' : Inv free { g with engine := { g.engine with answers := ev.answers, now := ev.now } } :=
    ⟨hinv.lifecycle, hinv.fds⟩
  have h' : EachInv fed P
      { g with engine := { g.engine with answers := ev.answers, now := ev.now } } :=
    ⟨h.conns, h.outbox, h.batches⟩
  unfold MainLoop.next at hnext
  cases haction : ev.action with
  | cqe o q =>
    rw [haction] at hnext hfresh
    exact h'.cqe hP hcut hinv' hfresh hnext
  | work i r =>
    rw [haction] at hnext
    exact h'.work hnext
  | _ =>
    rw [haction] at hnext
    exact h'.turn hP (by nofun) (by nofun) hnext

/-- **Every run.** -/
theorem each (hfresh : ∀ id, fresh id) (h : (machine opt).Reachable g) : g.EachInv fed P := by
  have hboth : g.Inv (fun _ => False) ∧ g.EachInv fed P := by
    refine Machine.invariant (I := fun g => g.Inv (fun _ => False) ∧ g.EachInv fed P) ?_ ?_ h
    · rintro g ⟨answers, rfl⟩
      refine ⟨.start opt answers, ?_, nofun, ?_⟩
      · intro id c hc
        cases (Engine.out_of_conns hc).symm.trans (Engine.start_out opt answers id)
      · rw [start_batches]
        exact nofun
    · intro g ev g' ⟨hinv, hg⟩ _ hnext
      exact ⟨hinv.next (fun _ => id) hnext, hg.next hP hcut hinv (fun _ => hfresh _) hnext⟩
  exact hboth.2

end Steps

end MainLoop

end SharedBike.Gateway
