import SharedBike.Gateway.Each
import Mathlib.Logic.Relation

/-!
# The stream of a connection's replies

`push_response` puts a frame behind the others and starts a `send` of the first
block unless one is in flight; `complete_send` takes off what was sent, which may be
a part of that block, and starts the next. Starting can fail, for want of an entry
in the submission queue; then the queue waits for the next push.

`Sender` is a gateway seen from one connection: the engine, and beside it what the
program does not keep: the block that the kernel was handed, the frames that were
pushed and the bytes that were sent. A `Step` is a call of one of the two functions,
or anything that leaves the send side of the connection alone. Whatever their order,
one `send` is in flight at most, the kernel reads the block it was handed, and what
was sent followed by the queue is what was pushed (`replies_stream`).

That the count of queued bytes is right and within its limit needs no history: it is
a property of each connection in every run of the gateway (`accounted_upheld`).
-/

namespace SharedBike.Gateway

open SharedBike.Lib SharedBike.Wire Function

/-! ## The queue and its byte count -/

namespace Connection

/-- A count that is right stays right. -/
theorem popSent_count (n : Nat) {q : List Bytes} {total : Nat} (h : total = q.flatten.length) :
    (popSent n q total).2 = (popSent n q total).1.flatten.length := by
  induction q generalizing n total with
  | nil => exact h
  | cons head rest ih =>
    rw [List.flatten_cons, List.length_append] at h
    rw [popSent]
    split
    · rw [h, List.flatten_cons, List.length_append]
    · split
      · rw [h, List.flatten_cons, List.length_append, List.length_drop]
        omega
      · exact ih (n - head.length) (by omega)

/-- What is left over of a block is not empty. -/
theorem popSent_nonempty (n : Nat) {q : List Bytes} (total : Nat) (h : ∀ b ∈ q, b ≠ []) :
    ∀ b ∈ (popSent n q total).1, b ≠ [] := by
  induction q generalizing n total with
  | nil => exact h
  | cons head rest ih =>
    obtain ⟨hhead, hrest⟩ := List.forall_mem_cons.mp h
    rw [popSent]
    split
    · exact h
    · split
      next hlt =>
        refine List.forall_mem_cons.mpr ⟨fun hnil => ?_, hrest⟩
        have hlen := congrArg List.length hnil
        rw [List.length_drop, List.length_nil] at hlen
        omega
      · exact ih _ _ hrest

/-- The count of queued bytes is right and within the limit. -/
structure Accounted (opt : GatewayOptions) (c : Connection) : Prop where
  count : c.sendBytes = c.sendQ.flatten.length
  limit : c.sendBytes ≤ opt.sendBacklogLimit

variable {c : Connection}

theorem Accounted.push {opt : GatewayOptions} {frame : Bytes} (h : c.Accounted opt)
    (hfits : c.sendBytes + frame.length ≤ opt.sendBacklogLimit) :
    (c.sendPush frame).Accounted opt := by
  refine ⟨?_, hfits⟩
  simp only [sendPush, h.count, List.flatten_append, List.length_append, List.flatten_singleton]

theorem Accounted.pop {opt : GatewayOptions} (h : c.Accounted opt) (n : Nat) :
    (c.sendPop n).Accounted opt := by
  have hcount := popSent_count n h.count
  refine ⟨hcount, ?_⟩
  have hlimit := h.limit
  rw [h.count] at hlimit
  change (popSent n c.sendQ c.sendBytes).2 ≤ _
  rw [hcount, flatten_popSent, List.length_drop]
  omega

end Connection

theorem accounted_upheld (opt : GatewayOptions) :
    Upheld opt (fun _ => True) (fun _ _ => True) fun c => c.state ≠ .closing → c.Accounted opt where
  closing h hopen := absurd h hopen
  made _ _ _ _ _ := ⟨rfl, Nat.zero_le _⟩
  posted h _ _ hopen := ⟨(h hopen).count, (h hopen).limit⟩
  rearmed h hparsing _ _ _ _ := by
    have hc := h (by rw [hparsing]; nofun)
    exact ⟨hc.count, hc.limit⟩
  pushed h hopen hfits _ := (h hopen).push hfits
  sending h _ _ hopen := ⟨(h hopen).count, (h hopen).limit⟩
  received h hopen _ _ _ := ⟨(h hopen).count, (h hopen).limit⟩
  sent h hopen res _ _ _ := ⟨((h hopen).pop res).count, ((h hopen).pop res).limit⟩

/-! ## One connection and its replies -/

structure Sender where
  engine : Engine
  block : Option Bytes
  pushed : List Bytes
  sent : Bytes

/-- What `submit_send` has handed to the kernel, when it has just been called: the
first block of the queue. -/
def Engine.handed (id : Nat) (e : Engine) : Option Bytes :=
  (e.conns id).bind fun c => if c.sendActive then c.sendQ.head? else none

/-- A step that does not concern the send side of the connection `id`. -/
structure Engine.Elsewhere (id : Nat) (e e' : Engine) : Prop where
  conn : ∀ {c}, e.conns id = some c → ∃ d, e'.conns id = some d ∧ d.connId = c.connId ∧
    (d.state = .closing ↔ c.state = .closing) ∧ d.sendQ = c.sendQ ∧ d.sendBytes = c.sendBytes ∧
      d.sendActive = c.sendActive ∧ d.sendOp = c.sendOp
  ops : ∀ o, e'.ops o = some ⟨.send, some id⟩ ↔ e.ops o = some ⟨.send, some id⟩
  bounded : e.toTable.Bounded → e'.toTable.Bounded

namespace Sender

/-- The calls on the connection `id`, with what the surroundings answer: a push of a
frame that is not empty and is accepted, a completion of the `send` in flight
within its block, or something else. -/
inductive Step (opt : GatewayOptions) (id : Nat) : Sender → Sender → Prop
  | push {s : Sender} {c : Connection} {frame : Bytes} {e : Engine} (answers : List Bool)
      (now : Int) :
      s.engine.conns id = some c → c.state ≠ .closing → frame ≠ [] →
      c.sendBytes + frame.length ≤ opt.sendBacklogLimit →
      e = Engine.pushResponse opt frame c { s.engine with answers := answers, now := now } →
      Step opt id s
        { engine := e
          block := if c.sendActive then s.block else e.handed id
          pushed := s.pushed ++ [frame]
          sent := s.sent }
  | complete {s : Sender} {c : Connection} {o : Nat} {block : Bytes} {q : Engine.Completion}
      {e : Engine} (answers : List Bool) (now : Int) :
      s.engine.conns id = some c → c.state ≠ .closing → c.sendOp = some o →
      s.block = some block → 0 ≤ q.res → q.res ≤ block.length →
      e = Engine.onCqe opt o ⟨.send, some id⟩ q []
        { s.engine with answers := answers, now := now } →
      Step opt id s
        { engine := e
          block := e.handed id
          pushed := s.pushed
          sent := s.sent ++ block.take q.res.toNat }
  | elsewhere {s : Sender} {e : Engine} : s.engine.Elsewhere id e → Step opt id s { s with engine := e }

/-- A connection that has sent nothing yet. -/
structure Fresh (id : Nat) (s : Sender) : Prop where
  bounded : s.engine.toTable.Bounded
  ops : ∀ o, s.engine.ops o ≠ some ⟨.send, some id⟩
  conn : ∃ c, s.engine.conns id = some c ∧ c.connId = id ∧ c.state ≠ .closing ∧ c.sendQ = [] ∧
    c.sendBytes = 0 ∧ c.sendActive = false ∧ c.sendOp = none
  block : s.block = none
  pushed : s.pushed = []
  sent : s.sent = []

/-- The connection in the engine's table, with its `send` in flight or not. -/
structure Held (opt : GatewayOptions) (id : Nat) (e : Engine) (c : Connection) : Prop where
  bounded : e.toTable.Bounded
  conn : e.conns id = some c
  connId : c.connId = id
  isOpen : c.state ≠ .closing
  active : c.sendActive = c.sendOp.isSome
  ops : ∀ o, e.ops o = some ⟨.send, some id⟩ ↔ c.sendOp = some o
  accounted : c.Accounted opt
  blocks : ∀ b ∈ c.sendQ, b ≠ []

/-- What holds after every step. -/
structure Ok (opt : GatewayOptions) (id : Nat) (s : Sender) : Prop where
  held : ∃ c, Held opt id s.engine c ∧
    (s.block.isSome ↔ c.sendOp.isSome) ∧ (∀ b, s.block = some b → c.sendQ.head? = some b) ∧
      s.sent ++ c.sendQ.flatten = s.pushed.flatten

variable {opt : GatewayOptions} {id : Nat} {s t : Sender} {e : Engine}

theorem Fresh.ok (h : Fresh id s) : s.Ok opt id := by
  obtain ⟨c, hc, hid, hopen, hq, hbytes, hactive, hop⟩ := h.conn
  refine ⟨c, ⟨h.bounded, hc, hid, hopen, by rw [hactive, hop]; rfl, fun o => ?_, ⟨?_, ?_⟩, ?_⟩,
    ?_, ?_, ?_⟩
  · exact iff_of_false (h.ops o) (by rw [hop]; nofun)
  · rw [hbytes, hq]
    rfl
  · rw [hbytes]
    exact Nat.zero_le _
  · rw [hq]
    exact nofun
  · rw [h.block, hop]
    exact iff_of_false nofun nofun
  · rw [h.block]
    exact nofun
  · rw [h.sent, h.pushed, hq]
    rfl

/-- Starting a `send` for a connection that has none in flight. -/
theorem held_submitSend (hbounded : e.toTable.Bounded) (hid : c.connId = id)
    (hopen : c.state ≠ .closing) (hactive : c.sendActive = false) (hop : c.sendOp = none)
    (hops : ∀ o, e.ops o ≠ some ⟨.send, some id⟩) (haccounted : c.Accounted opt)
    (hblocks : ∀ b ∈ c.sendQ, b ≠ []) :
    ∃ d, Held opt id (Engine.submitSend c e).2 d ∧ d.sendQ = c.sendQ := by
  unfold Engine.submitSend
  rcases Engine.submitOp_cases ⟨.send, some c.connId⟩ e with ⟨e', hsub, hbooks⟩ | ⟨e', hsub, hbooks⟩
  · rw [hsub]
    refine ⟨c, ⟨?_, ?_, hid, hopen, by rw [hactive, hop]; rfl, fun o => ?_, haccounted, hblocks⟩, rfl⟩
    · change (e'.toTable.setConn c).Bounded
      rw [hbooks]
      exact hbounded
    · rw [Engine.setConn_conns, hid, update_self]
    · refine iff_of_false ?_ (by rw [hop]; nofun)
      change e'.toTable.ops o ≠ _
      rw [hbooks]
      exact hops o
  · rw [hsub]
    refine ⟨{ c with sendOp := some e.nextOp, pendingOps := c.pendingOps + 1, sendActive := true },
      ⟨?_, ?_, hid, hopen, rfl, fun o => ?_, ⟨haccounted.count, haccounted.limit⟩, hblocks⟩, rfl⟩
    · change (e'.toTable.setConn _).Bounded
      rw [hbooks]
      exact hbounded.addOp _
    · rw [Engine.setConn_conns]
      dsimp only
      rw [hid, update_self]
    · change e'.toTable.ops o = _ ↔ some e.nextOp = some o
      rw [hbooks, hid, Option.some.injEq]
      change update e.ops e.nextOp _ o = _ ↔ _
      by_cases ho : o = e.nextOp
      · rw [ho, update_self]
        exact iff_of_true rfl rfl
      · rw [update_of_ne ho]
        exact iff_of_false (hops o) (Ne.symm ho)

/-- The kernel is handed the first block, if there is one. -/
theorem handed_of_held (h : Held opt id e c) (hpending : c.sendOp.isSome → c.sendQ ≠ []) :
    ((e.handed id).isSome ↔ c.sendOp.isSome) ∧
      ∀ b, e.handed id = some b → c.sendQ.head? = some b := by
  rw [Engine.handed, h.conn, Option.bind_some, h.active]
  cases hop : c.sendOp with
  | none => exact ⟨iff_of_false nofun nofun, nofun⟩
  | some o =>
    rw [hop] at hpending
    refine ⟨iff_of_true ?_ rfl, fun b hb => hb⟩
    obtain ⟨b, rest, hq⟩ := List.exists_cons_of_ne_nil (hpending rfl)
    rw [hq]
    rfl

theorem Ok.push (h : s.Ok opt id) {frame : Bytes} (answers : List Bool) (now : Int)
    (hc : s.engine.conns id = some c) (hne : frame ≠ [])
    (hfits : c.sendBytes + frame.length ≤ opt.sendBacklogLimit)
    (he : e = Engine.pushResponse opt frame c { s.engine with answers := answers, now := now }) :
    Ok opt id ⟨e, if c.sendActive then s.block else e.handed id, s.pushed ++ [frame], s.sent⟩ := by
  obtain ⟨c', hheld, hsome, hhead, hstream⟩ := h.held
  cases hheld.conn.symm.trans hc
  have hblocks : ∀ b ∈ (c.sendPush frame).sendQ, b ≠ [] := by
    intro b hb
    rcases List.mem_append.mp hb with hb | hb
    · exact hheld.blocks b hb
    · rw [List.mem_singleton.mp hb]
      exact hne
  have hwhole : s.sent ++ (c.sendPush frame).sendQ.flatten = (s.pushed ++ [frame]).flatten := by
    simp only [Connection.sendPush, List.flatten_append, List.flatten_singleton, ← hstream,
      List.append_assoc]
  unfold Engine.pushResponse at he
  rw [if_neg (Nat.not_lt.mpr hfits)] at he
  cases hactive : c.sendActive with
  | true =>
    -- a block is in flight: the queue grows behind it
    have hop : c.sendOp.isSome := by rw [← hheld.active, hactive]
    change e = if c.sendActive then _ else _ at he
    rw [hactive, if_pos rfl] at he
    subst he
    refine ⟨c.sendPush frame, ⟨hheld.bounded, ?_, hheld.connId, hheld.isOpen, hheld.active,
      hheld.ops, hheld.accounted.push hfits, hblocks⟩, hsome, fun b hb => ?_, hwhole⟩
    · change update s.engine.conns c.connId _ id = _
      rw [hheld.connId, update_self]
    · change (c.sendQ ++ [frame]).head? = some b
      rw [List.head?_append, hhead b hb]
      rfl
  | false =>
    have hop : c.sendOp = none := by
      rw [← Option.not_isSome_iff_eq_none, ← hheld.active, hactive]
      nofun
    have hops : ∀ o, s.engine.ops o ≠ some ⟨.send, some id⟩ := by
      intro o ho
      rw [hheld.ops, hop] at ho
      cases ho
    change e = if c.sendActive then _ else _ at he
    rw [hactive, if_neg nofun] at he
    obtain ⟨d, hd, hq⟩ := held_submitSend (e := { s.engine with answers := answers, now := now })
      (c := c.sendPush frame) hheld.bounded hheld.connId hheld.isOpen hactive hop hops
      (hheld.accounted.push hfits) hblocks
    rw [← he] at hd
    have hfirst := handed_of_held hd fun _ => by
      rw [hq]
      exact List.append_ne_nil_of_right_ne_nil _ (List.cons_ne_nil _ _)
    exact ⟨d, hd, hfirst.1, hfirst.2, by rw [hq]; exact hwhole⟩

theorem Ok.complete (h : s.Ok opt id) {o : Nat} {block : Bytes} {q : Engine.Completion}
    (answers : List Bool) (now : Int) (hc : s.engine.conns id = some c) (hop : c.sendOp = some o)
    (hblock : s.block = some block) (hpos : 0 ≤ q.res) (hres : q.res ≤ block.length)
    (he : e = Engine.onCqe opt o ⟨.send, some id⟩ q []
      { s.engine with answers := answers, now := now }) :
    Ok opt id ⟨e, e.handed id, s.pushed, s.sent ++ block.take q.res.toNat⟩ := by
  obtain ⟨c', hheld, -, hhead, hstream⟩ := h.held
  cases hheld.conn.symm.trans hc
  -- what was sent is the front of the queue
  obtain ⟨rest, hq⟩ : ∃ rest, c.sendQ = block :: rest := by
    have hfirst := hhead block hblock
    cases hsendQ : c.sendQ with
    | nil =>
      rw [hsendQ] at hfirst
      cases hfirst
    | cons b rest =>
      rw [hsendQ] at hfirst
      cases hfirst
      exact ⟨rest, rfl⟩
  have hwhole : s.sent ++ block.take q.res.toNat ++ (c.sendPop q.res.toNat).sendQ.flatten =
      s.pushed.flatten := by
    change _ ++ (Connection.popSent q.res.toNat c.sendQ c.sendBytes).1.flatten = _
    rw [Connection.flatten_popSent, ← hstream, hq, List.flatten_cons,
      List.drop_append_of_le_length (by omega), List.append_assoc, ← List.append_assoc (block.take _),
      List.take_append_drop]
  have hrest := hheld.accounted.pop q.res.toNat
  generalize hd : ({ c.sendPop q.res.toNat with
    sendOp := none, pendingOps := c.pendingOps - 1, sendActive := false, lastActive := now } :
      Connection) = d
  generalize hdropped : ({ s.engine with
    toTable := s.engine.toTable.dropOp o, answers := answers, now := now } : Engine) = e₀
  have hcomplete : e = if d.sendPending then (Engine.submitSend d e₀).2 else e₀.setConn d := by
    rw [he, ← hd, ← hdropped]
    change Engine.atConn _ _ { s.engine with
      toTable := s.engine.toTable.dropOp o, answers := answers, now := now } = _
    simp only [Engine.atConn, Option.bind_some, Table.dropOp, hc]
    unfold Engine.completeSend
    rw [if_neg hheld.isOpen, if_neg (Int.not_lt.mpr hpos)]
    rfl
  have hbounded : e₀.toTable.Bounded := by
    rw [← hdropped]
    exact hheld.bounded.dropOp o
  have hops : ∀ o', e₀.ops o' ≠ some ⟨.send, some id⟩ := by
    intro o' ho'
    rw [← hdropped] at ho'
    obtain ⟨hne, ho'⟩ := Table.dropOp_cases ho'
    exact hne (Option.some.inj (((hheld.ops o').mp ho').symm.trans hop))
  have hid : d.connId = id := by rw [← hd]; exact hheld.connId
  have hopen : d.state ≠ .closing := by rw [← hd]; exact hheld.isOpen
  have hsendActive : d.sendActive = false := by rw [← hd]
  have hsendOp : d.sendOp = none := by rw [← hd]
  have hcount : d.Accounted opt := by rw [← hd]; exact ⟨hrest.count, hrest.limit⟩
  have hblocks : ∀ b ∈ d.sendQ, b ≠ [] := by
    rw [← hd]
    exact Connection.popSent_nonempty _ _ hheld.blocks
  have hqueue : d.sendQ = (c.sendPop q.res.toNat).sendQ := by rw [← hd]
  rw [← hqueue] at hwhole
  cases hpending : d.sendPending with
  | true =>
    rw [hpending, if_pos rfl] at hcomplete
    obtain ⟨d', hd', hq'⟩ := held_submitSend hbounded hid hopen hsendActive hsendOp hops hcount hblocks
    rw [← hcomplete] at hd'
    have hfirst := handed_of_held hd' fun _ => by
      rw [hq']
      intro hnil
      rw [Connection.sendPending, hnil] at hpending
      cases hpending
    exact ⟨d', hd', hfirst.1, hfirst.2, by rw [hq']; exact hwhole⟩
  | false =>
    rw [hpending, if_neg Bool.false_ne_true] at hcomplete
    have hd' : Held opt id e d := by
      refine ⟨?_, ?_, hid, hopen, by rw [hsendActive, hsendOp]; rfl, fun o' => ?_, hcount, hblocks⟩
      · rw [hcomplete]
        exact hbounded
      · rw [hcomplete, Engine.setConn_conns, hid, update_self]
      · rw [hcomplete]
        exact iff_of_false (hops o') (by simp [hsendOp])
    have hfirst := handed_of_held hd' fun h => by
      rw [hsendOp] at h
      cases h
    exact ⟨d, hd', hfirst.1, hfirst.2, hwhole⟩

theorem Ok.elsewhere (h : s.Ok opt id) (he : s.engine.Elsewhere id e) :
    Ok opt id { s with engine := e } := by
  obtain ⟨c, hheld, hsome, hhead, hstream⟩ := h.held
  obtain ⟨d, hd, hid, hstate, hq, hbytes, hactive, hop⟩ := he.conn hheld.conn
  refine ⟨d, ⟨he.bounded hheld.bounded, hd, hid.trans hheld.connId,
    fun hclosing => hheld.isOpen (hstate.mp hclosing), ?_, fun o => ?_, ⟨?_, ?_⟩, ?_⟩, ?_, ?_, ?_⟩
  · rw [hactive, hop]
    exact hheld.active
  · rw [hop]
    exact (he.ops o).trans (hheld.ops o)
  · rw [hbytes, hq]
    exact hheld.accounted.count
  · rw [hbytes]
    exact hheld.accounted.limit
  · rw [hq]
    exact hheld.blocks
  · rw [hop]
    exact hsome
  · rw [hq]
    exact hhead
  · rw [hq]
    exact hstream

theorem Ok.step (h : s.Ok opt id) (hstep : Step opt id s t) : t.Ok opt id := by
  cases hstep with
  | push answers now hc _ hne hfits he => exact h.push answers now hc hne hfits he
  | complete answers now hc _ hop hblock hpos hres he =>
    exact h.complete answers now hc hop hblock hpos hres he
  | elsewhere he => exact h.elsewhere he

theorem Ok.run (h : s.Ok opt id) (hrun : Relation.ReflTransGen (Step opt id) s t) : t.Ok opt id := by
  induction hrun with
  | refl => exact h
  | tail _ hstep ih => exact ih.step hstep

end Sender

/-- In any order of accepted pushes and of completions within the block in flight, a
connection's replies leave as one stream: one `send` is in flight at most, the queue
starts with the block it was handed, what was sent followed by the queue is what was
pushed, and the count of queued bytes is right and within its limit. In every run of
the gateway the count is right and within its limit, and a connection has one `send`
in flight at most. -/
theorem replies_stream {opt : GatewayOptions} :
    (∀ {id : Nat} {s₀ s : Sender}, s₀.Fresh id →
      Relation.ReflTransGen (Sender.Step opt id) s₀ s →
      ∃ c, s.engine.conns id = some c ∧
        (∀ {o o'}, s.engine.ops o = some ⟨.send, some id⟩ →
          s.engine.ops o' = some ⟨.send, some id⟩ → o = o') ∧
        ((∃ o, s.engine.ops o = some ⟨.send, some id⟩) ↔ s.block.isSome) ∧
        (∀ b, s.block = some b → c.sendQ.head? = some b) ∧
        s.sent ++ c.sendQ.flatten = s.pushed.flatten ∧
        c.sendBytes = c.sendQ.flatten.length ∧ c.sendBytes ≤ opt.sendBacklogLimit) ∧
    (∀ {g : MainLoop}, (MainLoop.machine opt).Reachable g → g.stage ≠ .exited →
      ∀ {id : Nat} {c : Connection}, g.engine.conns id = some c → c.state ≠ .closing →
        (∀ {o o'}, g.engine.ops o = some ⟨.send, some id⟩ →
          g.engine.ops o' = some ⟨.send, some id⟩ → o = o') ∧
        c.sendBytes = c.sendQ.flatten.length ∧ c.sendBytes ≤ opt.sendBacklogLimit) := by
  refine ⟨?_, ?_⟩
  · intro id s₀ s hfresh hrun
    obtain ⟨c, hheld, hsome, hhead, hstream⟩ := (hfresh.ok.run hrun).held
    refine ⟨c, hheld.conn, fun ho ho' => ?_, ?_, hhead, hstream, hheld.accounted.count,
      hheld.accounted.limit⟩
    · exact Option.some.inj (((hheld.ops _).mp ho).symm.trans ((hheld.ops _).mp ho'))
    · rw [hsome, Option.isSome_iff_exists]
      exact exists_congr hheld.ops
  · intro g h hstage id c hc hopen
    have hbooked := ((MainLoop.Inv.of_reachable h).lifecycle hstage).booked
    have haccounted := (MainLoop.each (accounted_upheld opt) (fun _ _ _ => trivial)
      (fun _ => trivial) h).conns id c hc hopen
    have howner : ∀ {o}, g.engine.ops o = some ⟨.send, some id⟩ → c.sendOp = some o := by
      intro o ho
      obtain ⟨id', c', hid, hc', hsend⟩ := hbooked.owned ho (.inr rfl)
      cases hid
      cases hc.symm.trans hc'
      exact hsend
    exact ⟨fun ho ho' => Option.some.inj ((howner ho).symm.trans (howner ho')), haccounted.count,
      haccounted.limit⟩

/-- A frame of three bytes, of which the first `send` takes one. -/
theorem replies_stream_partial :
    ∃ (s₀ s : Sender) (c : Connection), s₀.Fresh 1 ∧
      Relation.ReflTransGen (Sender.Step ⟨4096, 1000, 0, false⟩ 1) s₀ s ∧
      s.pushed = [[1, 2, 3]] ∧ s.sent = [1] ∧ s.engine.conns 1 = some c ∧
      s.sent ++ c.sendQ.flatten = [1, 2, 3] ∧ c.sendBytes = c.sendQ.flatten.length := by
  obtain ⟨e₀, he₀⟩ : ∃ e₀ : Engine, e₀ = (Engine.new []).setConn (.new 7 1 4096 0) := ⟨_, rfl⟩
  obtain ⟨e₁, he₁⟩ : ∃ e₁, e₁ = Engine.pushResponse ⟨4096, 1000, 0, false⟩ [1, 2, 3]
    (.new 7 1 4096 0) { e₀ with answers := [], now := 0 } := ⟨_, rfl⟩
  have hfresh : Sender.Fresh 1 ⟨e₀, none, [], []⟩ := by
    rw [he₀]
    exact ⟨nofun, nofun, ⟨_, rfl, rfl, nofun, rfl, rfl, rfl, rfl⟩, rfl, rfl, rfl⟩
  have hpush : Sender.Step ⟨4096, 1000, 0, false⟩ 1 ⟨e₀, none, [], []⟩
      ⟨e₁, e₁.handed 1, [[1, 2, 3]], []⟩ :=
    @Sender.Step.push _ 1 ⟨e₀, none, [], []⟩ (.new 7 1 4096 0) [1, 2, 3] e₁ [] 0 (by rw [he₀]; rfl)
      nofun (List.cons_ne_nil _ _) (by decide) he₁
  have hconn : e₁.conns 1 = some { (Connection.new 7 1 4096 0).sendPush [1, 2, 3] with
      sendOp := some 0, pendingOps := 1, sendActive := true } := by
    rw [he₁, he₀]
    rfl
  have hhanded : e₁.handed 1 = some [1, 2, 3] := by
    rw [Engine.handed, hconn]
    rfl
  have hcomplete := @Sender.Step.complete ⟨4096, 1000, 0, false⟩ 1
    ⟨e₁, e₁.handed 1, [[1, 2, 3]], []⟩ _ 0 _ ⟨1, [], false, []⟩ _ [] 0 hconn nofun rfl hhanded
    (by decide) (by decide) rfl
  obtain ⟨c, hc, -, -, -, hstream, hcount, -⟩ :=
    replies_stream.1 hfresh (.tail (.single hpush) hcomplete)
  exact ⟨_, _, c, hfresh, .tail (.single hpush) hcomplete, rfl, rfl, hc, hstream, hcount⟩

end SharedBike.Gateway
