import SharedBike.Dispatch.Pipeline

/-!
# Where replies go

A reply finds its connection by an id that a gateway process counts from 1.
As long as one gateway runs, an id belongs to one connection, and a reply
reaches the connection that asked or nobody. A gateway that takes over the
rings of another may give out an id that something in them still carries;
then the reply to one client goes to another (`misrouted`).

The condition that excludes this is on the moment of accepting: nothing that
an earlier gateway left in the rings, with the business threads or in the
reply queue carries the id that the new connection gets. Under it the ids of
such leftovers stay out of use, which the engine's invariant carries along.
-/

namespace SharedBike.Dispatch

open SharedBike.Lib SharedBike.Wire SharedBike.Ipc SharedBike.Gateway

namespace System

/-! ## What is on its way -/

/-- The id a thing on its way carries, and where its request came from. -/
structure Trace where
  connId : Nat
  origin : Origin
  deriving DecidableEq

def ofRequest (x : ReqSlot) : Trace := ⟨x.req.connId, x.origin⟩

def ofReply (x : ReplyItem) : Trace := ⟨x.connId, x.origin⟩

def ofResponse (x : RspSlot) : Trace := ⟨x.rsp.connId, x.origin⟩

/-- Everything in the rings, with the business threads and in the reply queue. -/
def traces (s : System) : List Trace :=
  (s.requests.flatMap fun ch => ch.items.map ofRequest) ++ s.tasks.map ofRequest ++
    s.replies.map ofReply ++ s.flushing.map ofReply ++ s.responses.items.map ofResponse

/-- An earlier gateway has left something that carries the id. -/
def stale (s : System) (id : Nat) : Bool :=
  s.traces.any fun t => t.origin.life ≠ s.life && t.connId = id

/-- An id that is given to a new connection is not carried by anything that an
earlier gateway left. -/
def IdUnclaimed (s : System) : Step → Prop
  | .gateway ev =>
    s.gateway.accepts ev.action = true → s.stale s.gateway.engine.nextConnId = false
  | _ => True

/-- The invariant: leftovers keep their ids out of use, what is on its way
carries the id of the connection it came from, and what was delivered went
back to it. -/
structure Routed (s : System) : Prop where
  gateway : s.gateway.Inv fun id => s.stale id = true
  honest : ∀ t ∈ s.traces, t.connId = t.origin.connId
  delivered : ∀ d ∈ s.delivered, d.dest = d.origin

variable {opt : GatewayOptions} {s s' : System} {frame : Option Bytes} {ring : Nat}

theorem stale_iff {id : Nat} :
    s.stale id = true ↔ ∃ t ∈ s.traces, t.origin.life ≠ s.life ∧ t.connId = id := by
  simp [stale]

/-- Things move on: what is on its way was so before, or was received by the
gateway that runs now. -/
theorem Routed.pass (h : s.Routed) (hlife : s'.life = s.life)
    (hgateway : s'.gateway.Inv fun id => s.stale id = true)
    (htraces : ∀ t ∈ s'.traces, t ∈ s.traces ∨ t.origin = ⟨s.life, t.connId⟩)
    (hdelivered : ∀ d ∈ s'.delivered, d.dest = d.origin) : s'.Routed := by
  refine ⟨hgateway.mono fun id hid => ?_, fun t ht => ?_, hdelivered⟩
  · obtain ⟨t, ht, hne, rfl⟩ := stale_iff.mp hid
    rw [hlife] at hne
    rcases htraces t ht with hold | hnew
    · exact stale_iff.mpr ⟨t, hold, hne, rfl⟩
    · rw [hnew] at hne
      exact absurd rfl hne
  · rcases htraces t ht with hold | hnew
    · exact h.honest t hold
    · rw [hnew]

/-- Nothing but what is on its way has changed, and nothing was added to it. -/
structure Carries (s s' : System) : Prop where
  life : s'.life = s.life
  gateway : s'.gateway = s.gateway
  delivered : s'.delivered = s.delivered
  traces : ∀ t ∈ s'.traces, t ∈ s.traces

theorem Routed.carry (h : s.Routed) (hc : Carries s s') : s'.Routed :=
  h.pass hc.life (by rw [hc.gateway]; exact h.gateway) (fun t ht => .inl (hc.traces t ht))
    (by rw [hc.delivered]; exact h.delivered)

/-! ## The steps of Dispatch -/

/-- What holds of everything on its way, station by station. -/
theorem forall_traces {P : Trace → Prop} : (∀ t ∈ s.traces, P t) ↔
    (∀ ch ∈ s.requests, ∀ x ∈ ch.items, P (ofRequest x)) ∧ (∀ x ∈ s.tasks, P (ofRequest x)) ∧
      (∀ x ∈ s.replies, P (ofReply x)) ∧ (∀ x ∈ s.flushing, P (ofReply x)) ∧
        ∀ x ∈ s.responses.items, P (ofResponse x) := by
  simp only [traces, List.forall_mem_append, List.forall_mem_flatMap, List.forall_mem_map,
    and_assoc]

/-- A ring is replaced by one with nothing new in it. -/
theorem forall_set {P : ReqSlot → Prop} {rings : List (Channel ReqSlot)} {ch : Channel ReqSlot}
    (ch' : Channel ReqSlot) (h : ∀ ch ∈ rings, ∀ x ∈ ch.items, P x) (hch : rings[ring]? = some ch)
    (hsub : ∀ x ∈ ch'.items, x ∈ ch.items ∨ P x) :
    ∀ ch ∈ rings.set ring ch', ∀ x ∈ ch.items, P x := by
  intro ch'' hmem x hx
  rcases List.mem_or_eq_of_mem_set hmem with hold | rfl
  · exact h ch'' hold x hx
  · exact (hsub x hx).elim (h ch (List.mem_of_getElem? hch) x) id

theorem read_carries {posted : Bool} (hread : s.read ring posted = some s') :
    Carries s s' := by
  obtain ⟨h₁, h₂, h₃, h₄, h₅⟩ := forall_traces.mp fun t (ht : t ∈ s.traces) => ht
  obtain ⟨ch, slot, hch, hslot, rfl⟩ := read_eq hread
  have hring := forall_set ch.advance h₁ hch fun _ hx => .inl hx
  have htask := h₁ ch (List.mem_of_getElem? hch) slot (List.mem_of_getElem? hslot)
  refine ⟨rfl, rfl, rfl, forall_traces.mpr
    ⟨hring, List.forall_mem_append.mpr ⟨h₂, ?_⟩, h₃, h₄, h₅⟩⟩
  split
  · exact List.forall_mem_singleton.mpr htask
  · nofun

theorem releaseRequests_carries (hrelease : s.releaseRequests ring = some s') :
    Carries s s' := by
  obtain ⟨h₁, hrest⟩ := forall_traces.mp fun t (ht : t ∈ s.traces) => ht
  obtain ⟨ch, hch, rfl⟩ := releaseRequests_eq hrelease
  have hring := forall_set ch.release h₁ hch fun _ hx => .inl (List.mem_of_mem_drop hx)
  exact ⟨rfl, rfl, rfl, forall_traces.mpr ⟨hring, hrest⟩⟩

/-- What a business thread queues is the router's frame, with the request's number. -/
theorem ReqSlot.mem_reply {t : ReqSlot} {x : ReplyItem} (hx : x ∈ t.reply frame) :
    ∃ bytes stamped, frame = some bytes ∧ bytes ≠ [] ∧
      stampSeq bytes t.req.seq = some stamped ∧
        x = ⟨t.req.connId, t.req.seq, t.oneWay, stamped, t.origin⟩ := by
  unfold ReqSlot.reply at hx
  split at hx
  · cases hx
  next bytes =>
    split at hx
    · cases hx
    next hsend =>
      split at hx
      next stamped hstamp =>
        rw [List.mem_singleton] at hx
        refine ⟨bytes, stamped, rfl, ?_, hstamp, hx⟩
        rintro rfl
        simp at hsend
      · cases hx

/-- A reply carries what its task carried. -/
theorem ofReply_reply {t : ReqSlot} {x : ReplyItem} (hx : x ∈ t.reply frame) :
    ofReply x = ofRequest t := by
  obtain ⟨bytes, stamped, -, -, -, rfl⟩ := ReqSlot.mem_reply hx
  rfl

theorem business_carries {i : Nat} (hrun : s.business i frame = some s') :
    Carries s s' := by
  obtain ⟨h₁, h₂, h₃, hrest⟩ := forall_traces.mp fun t (ht : t ∈ s.traces) => ht
  obtain ⟨t, htask, rfl⟩ := business_eq hrun
  refine ⟨rfl, rfl, rfl, forall_traces.mpr
    ⟨h₁, fun x hx => h₂ x (List.mem_of_mem_eraseIdx hx),
      List.forall_mem_append.mpr ⟨h₃, fun x hx => ?_⟩, hrest⟩⟩
  rw [ofReply_reply hx]
  exact h₂ t (List.mem_of_getElem? htask)

theorem drainReplies_carries (hdrain : s.drainReplies = some s') : Carries s s' := by
  obtain ⟨h₁, h₂, h₃, -, h₅⟩ := forall_traces.mp fun t (ht : t ∈ s.traces) => ht
  obtain ⟨-, rfl⟩ := drainReplies_eq hdrain
  exact ⟨rfl, rfl, rfl, forall_traces.mpr ⟨h₁, h₂, by simp, h₃, h₅⟩⟩

theorem dropReplies_carries (s : System) : Carries s { s with flushing := [] } := by
  obtain ⟨h₁, h₂, h₃, -, h₅⟩ := forall_traces.mp fun t (ht : t ∈ s.traces) => ht
  exact ⟨rfl, rfl, rfl, forall_traces.mpr ⟨h₁, h₂, h₃, by simp, h₅⟩⟩

theorem releaseResponses_carries (s : System) :
    Carries s { s with responses := s.responses.release } := by
  obtain ⟨h₁, h₂, h₃, h₄, h₅⟩ := forall_traces.mp fun t (ht : t ∈ s.traces) => ht
  exact ⟨rfl, rfl, rfl, forall_traces.mpr
    ⟨h₁, h₂, h₃, h₄, fun x hx => h₅ x (List.mem_of_mem_drop hx)⟩⟩

theorem flush_carries (hflush : s.flush = some s') : Carries s s' := by
  obtain ⟨h₁, h₂, h₃, h₄, h₅⟩ := forall_traces.mp fun t (ht : t ∈ s.traces) => ht
  obtain ⟨r, rest, hitems, ⟨-, rfl⟩ | ⟨-, rfl⟩⟩ := flush_cases hflush
  all_goals rw [hitems, List.forall_mem_cons] at h₄
  · exact ⟨rfl, rfl, rfl, forall_traces.mpr ⟨h₁, h₂, h₃, h₄.2, h₅⟩⟩
  · exact ⟨rfl, rfl, rfl, forall_traces.mpr ⟨h₁, h₂, h₃, h₄.2,
      List.forall_mem_append.mpr ⟨h₅, List.forall_mem_singleton.mpr h₄.1⟩⟩⟩

/-! ## The steps of the gateway -/

/-- A worker's call of the sink puts at most its request on its way, under the
name of the gateway that runs now. -/
theorem ask_traces {b : Batch} {r : SinkResult} (hask : s.ask ring b = (r, s')) :
    ∀ t ∈ s'.traces, t ∈ s.traces ∨ t = ⟨b.connId, ⟨s.life, b.connId⟩⟩ := by
  rcases ask_cases hask with ⟨rfl, -⟩ | ⟨f, rest, ch, -, hch, -, rfl⟩
  · exact fun _ => .inl
  · obtain ⟨h₁, hrest⟩ := forall_traces.mp fun t (ht : t ∈ s.traces) =>
      (Or.inl ht : t ∈ s.traces ∨ t = ⟨b.connId, ⟨s.life, b.connId⟩⟩)
    refine forall_traces.mpr ⟨forall_set _ h₁ hch fun x hx => ?_, hrest⟩
    rcases List.mem_append.mp hx with hold | hnew
    · exact .inl hold
    · rw [List.mem_singleton] at hnew
      rw [hnew]
      exact .inr (.inr rfl)

/-- A request is put into a ring under the name of the gateway that runs now. -/
theorem Routed.work (h : s.Routed) {i ring : Nat} (hwork : s.work i ring = some s') :
    s'.Routed := by
  obtain ⟨b, x, v, g, -, hask, hsame, hg, rfl⟩ := work_eq hwork
  have hlife : v.life = s.life := by rw [hsame]
  have hdelivered : v.delivered = s.delivered := by rw [hsame]
  refine h.pass hlife (h.gateway.work hg) (fun t ht => ?_) (hdelivered ▸ h.delivered)
  refine (ask_traces hask t ht).imp_right ?_
  rintro rfl
  rfl

/-- A frame goes to a connection of this gateway only if its request came from
this gateway: the ids of all others are out of use. -/
theorem Routed.deliver (h : s.Routed) {answers : List Bool}
    (hdeliver : s.deliver opt answers = some s') : s'.Routed := by
  obtain ⟨slot, hslot, hstage, rfl⟩ := deliver_eq hdeliver
  have hbooks := h.gateway.lifecycle hstage
  have htrace : ofResponse slot ∈ s.traces :=
    (forall_traces.mp fun t (ht : t ∈ s.traces) => ht).2.2.2.2 slot (List.mem_of_getElem? hslot)
  refine h.pass rfl ?_ (fun _ => .inl) fun d hd => ?_
  · exact .of_lifecycle (Engine.deliver_lifecycle (e := { s.gateway.engine with answers }) hbooks _)
  · dsimp only at hd
    split at hd
    next hpush =>
      rcases List.mem_append.mp hd with hold | hnew
      · exact h.delivered d hold
      · rw [List.mem_singleton] at hnew
        subst hnew
        have hhonest := h.honest _ htrace
        have hlife : slot.origin.life = s.life := by
          by_contra hne
          have habsent := hbooks.booked.absent (stale_iff.mpr ⟨_, htrace, hne, rfl⟩)
          simp only [pushes, Bool.and_eq_true] at hpush
          rw [show s.gateway.engine.conns slot.rsp.connId = none from habsent] at hpush
          simp at hpush
        change (⟨s.life, slot.rsp.connId⟩ : Origin) = slot.origin
        rw [← hlife, show slot.rsp.connId = slot.origin.connId from hhonest]
    next => exact h.delivered d hd

/-- A new gateway begins with nobody connected. -/
theorem Routed.restart (h : s.Routed) (answers : List Bool) :
    Routed { s with
      gateway := MainLoop.start opt answers
      life := s.life + 1
      responses := s.responses.reattach } :=
  ⟨.start opt answers, h.honest, h.delivered⟩

/-- **One step** of either process. -/
theorem Routed.next (h : s.Routed) {step : Step} (hid : s.IdUnclaimed step)
    (hnext : s.next opt step = some s') : s'.Routed := by
  cases step with
  | gateway ev =>
    obtain ⟨-, g, hg, rfl⟩ := gateway_eq hnext
    have hfree : s.gateway.accepts ev.action = true →
        ¬ s.stale s.gateway.engine.nextConnId = true :=
      fun haccepts => Bool.eq_false_iff.mp (hid haccepts)
    exact h.pass rfl (h.gateway.next hfree hg) (fun _ => .inl) h.delivered
  | work i ring => exact h.work hnext
  | deliver answers => exact h.deliver hnext
  | releaseResponses =>
    cases hnext
    exact h.carry (releaseResponses_carries s)
  | restart answers =>
    cases hnext
    exact h.restart answers
  | read ring posted => exact h.carry (read_carries hnext)
  | releaseRequests ring => exact h.carry (releaseRequests_carries hnext)
  | business i frame => exact h.carry (business_carries hnext)
  | drainReplies => exact h.carry (drainReplies_carries hnext)
  | flush => exact h.carry (flush_carries hnext)
  | dropReplies =>
    cases hnext
    exact h.carry (dropReplies_carries s)

theorem Routed.start (opt : GatewayOptions) (rings : Nat) (answers : List Bool) :
    (start opt rings answers).Routed := by
  refine ⟨.start opt answers, forall_traces.mpr ⟨fun ch hch => ?_, by simp [System.start],
    by simp [System.start], by simp [System.start], by simp [System.start, Channel.empty]⟩,
    by simp [System.start]⟩
  rw [List.eq_of_mem_replicate hch]
  simp [Channel.empty]

end System

/-- **A reply reaches the connection that asked.** In every run in which no new
connection gets an id that leftovers of an earlier gateway carry, whatever was
put on a send queue went to the connection that its request was received on. -/
theorem reply_routed {opt : GatewayOptions} {rings : Nat} {s : System}
    (h : (System.machine opt rings).ReachableWhile System.IdUnclaimed s) :
    ∀ d ∈ s.delivered, d.dest = d.origin := by
  refine (Machine.invariant (I := System.Routed) ?_ ?_ h).delivered
  · rintro s ⟨answers, rfl⟩
    exact .start opt rings answers
  · exact fun s step s' hrouted hid hnext => hrouted.next hid hnext

/-! ## Two gateways, one after the other -/

/-- A gateway in ring mode. -/
def ringMode : GatewayOptions := ⟨64, 1000, 0, true⟩

/-- A frame without payload. -/
def ping : Bytes := [0x46, 0x42, 0x45, 0x42, 1, 0, 9, 0, 0, 0, 0, 0, 0, 0]

/-- A client connects and sends one request, which a worker puts into its ring. -/
def oneRequest : List System.Step :=
  [.gateway ⟨.cqe 0 ⟨7, [], false, []⟩, [], 1⟩,
    .gateway ⟨.cqe 4 ⟨14, ping, false, []⟩, [], 2⟩,
    .work 0 0]

/-- Dispatch answers it. -/
def oneReply : List System.Step := [.read 0 true, .business 0 (some ping), .drainReplies, .flush]

/-- Whether a step meets the condition. -/
def System.unclaimed (s : System) : System.Step → Bool
  | .gateway ev => !(s.gateway.accepts ev.action && s.stale s.gateway.engine.nextConnId)
  | _ => true

theorem System.unclaimed_sound (s : System) (step : System.Step) (h : s.unclaimed step = true) :
    s.IdUnclaimed step := by
  cases step with
  | gateway ev =>
    intro haccepts
    simpa [unclaimed, haccepts] using h
  | _ => trivial

theorem reply_routed_home :
    (((System.machine ringMode 1).playWhile System.unclaimed (System.start ringMode 1 [])
        (oneRequest ++ oneReply ++ [.deliver []])).map System.delivered =
          some [⟨⟨0, 1⟩, ⟨0, 1⟩⟩]) ∧
      ∀ s, (System.machine ringMode 1).playWhile System.unclaimed (System.start ringMode 1 [])
        (oneRequest ++ oneReply ++ [.deliver []]) = some s → ∀ d ∈ s.delivered, d.dest = d.origin :=
  ⟨by decide +kernel, fun _ hs => reply_routed
    (Machine.reachableWhile_of_playWhile System.unclaimed_sound (.start ⟨[], rfl⟩) hs)⟩

/-- The first gateway ends before the answer is there. The next one gives its
first client the id of the client that asked. -/
def takeOver : List System.Step :=
  oneRequest ++ [.restart []] ++ oneReply ++
    [.gateway ⟨.cqe 0 ⟨8, [], false, []⟩, [], 3⟩, .deliver []]

/-- The reply to a request of one connection reaches another. -/
theorem misrouted : ∃ s, (System.machine ringMode 1).Reachable s ∧
    ∃ d ∈ s.delivered, d.dest ≠ d.origin :=
  Machine.exists_of_play (System.start ringMode 1 []) ⟨[], rfl⟩ takeOver (by decide +kernel)

end SharedBike.Dispatch
