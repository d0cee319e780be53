import SharedBike.Gateway.Draining
import SharedBike.Dispatch.Accounts

/-!
# A graceful stop

When a request to stop takes effect, some connections are with a worker.
The design has the gateway wait for their replies. What it waits for is the
end of the batch: on it the connection is closed, whatever is still on its
send queue, in the outbox behind an overflow, or on its way through Dispatch.

`Unhurried` is when this does no harm, for a connection that was with a
worker at the stop. Its replies fit its send queue; when the end of its batch
comes out of the outbox nothing of it is on its way, and a `send` is in
flight for what is queued, or will be as there is room for one; and a `send`
that completes while the connection is closing has taken the whole queue.
Then such a connection is `Working`, or it is `Finished`: all its replies
were queued, and what was not sent yet is in the hands of a `send`.
-/

namespace SharedBike.Gateway.MainLoop

variable {opt : GatewayOptions} {free : Nat → Prop} {g g' : MainLoop} {id : Nat}

/-- While the gateway drains and is not cut short, a connection is left alone by
all but completions and workers, and while it is there the loop runs. -/
theorem turn_watched (h : g.Inv free) {action : Action} (hcqe : ∀ o q, action ≠ .cqe o q)
    (halone : Dispatch.System.alone action = true) (hdraining : g.engine.draining = true)
    (hrun : (g.engine.conns id).isSome → g.stage = .running)
    (hleave : ∀ failed, action = .leave failed →
      failed = false ∧ g.engine.now ≤ g.engine.drainDeadline)
    (hstep : g.step opt action = some g') :
    g'.engine.conns id = g.engine.conns id ∧
      ((g.engine.conns id).isSome → g'.stage = .running) := by
  have hgone : ∀ {ok : Bool}, (g.stage = .reaping && ok) = true → g.engine.conns id = none := by
    intro ok hok
    rw [Bool.and_eq_true, decide_eq_true_eq] at hok
    cases hc : g.engine.conns id with
    | none => rfl
    | some c =>
      rw [hrun (by rw [hc]; rfl)] at hok
      cases hok.1
  cases action with
  | cqe o q => exact absurd rfl (hcqe o q)
  | work i x => cases halone
  | drainResponses peerDead rs => cases halone
  | sweep order =>
    obtain ⟨hok, -⟩ := turn_eq hstep
    simp [hdraining] at hok
  | requestStop =>
    cases hstep
    exact ⟨rfl, hrun⟩
  | checkStop =>
    obtain ⟨-, rfl⟩ := turn_eq hstep
    exact ⟨by rw [Engine.checkStop_conns], fun _ => rfl⟩
  | leave failed =>
    obtain ⟨hok, rfl⟩ := turn_eq hstep
    obtain ⟨rfl, hnow⟩ := hleave failed rfl
    refine ⟨rfl, fun hsome => ?_⟩
    -- the loop is left when nobody is connected
    simp only [Bool.and_eq_true, decide_eq_true_eq, Bool.false_or, Engine.drainComplete,
      Bool.or_eq_true, List.isEmpty_iff] at hok
    obtain ⟨c, hc⟩ := Option.isSome_iff_exists.mp hsome
    have hid := Engine.mem_ids (h.lifecycle (by rw [hok.1]; decide)) hc
    rcases hok.2.2 with hempty | hlate
    · rw [hempty] at hid
      cases hid
    · omega
  | reap order =>
    obtain ⟨hok, rfl⟩ := turn_eq hstep
    have hnone := hgone hok
    rw [Bool.and_eq_true, decide_eq_true_eq] at hok
    refine ⟨?_, fun hsome => by rw [hnone] at hsome; cases hsome⟩
    rw [hnone]
    exact Engine.foldl_closeId_none (h.lifecycle (by rw [hok.1]; decide)) _ hnone
  | exit =>
    obtain ⟨hok, rfl⟩ := turn_eq hstep
    exact ⟨rfl, fun hsome => by rw [hgone hok] at hsome; cases hsome⟩
  | forceClose order =>
    obtain ⟨hok, rfl⟩ := turn_eq hstep
    have hnone := hgone hok
    exact ⟨by rw [hnone]; rfl, fun hsome => by rw [hnone] at hsome; cases hsome⟩

end SharedBike.Gateway.MainLoop

namespace SharedBike.Dispatch

open SharedBike.Lib SharedBike.Wire SharedBike.Ipc SharedBike.Gateway

namespace Service

/-! ## What is on its way -/

/-- The connections that something is on its way for, in Dispatch or a ring. -/
def underway (s : System) : List Nat :=
  (waiting s).map (·.req.connId) ++ s.tasks.map (·.req.connId) ++ s.replies.map (·.connId) ++
    s.flushing.map (·.connId) ++ (unread s.responses).map (·.1)

variable {opt : GatewayOptions} {s : Service} {u t : System} {r : Journal} {id : Nat}
  {new : List (Nat × Bytes)} {ev : MainLoop.Event} {step : Step}

theorem mem_underway : id ∈ underway u ↔ (∃ x ∈ waiting u, x.req.connId = id) ∨
    (∃ x ∈ u.tasks, x.req.connId = id) ∨ (∃ x ∈ u.replies, x.connId = id) ∨
      (∃ x ∈ u.flushing, x.connId = id) ∨ ∃ p ∈ unread u.responses, p.1 = id := by
  simp only [underway, List.mem_append, List.mem_map, or_assoc]

/-- What waits after a ring has changed. -/
theorem mem_waiting_set {ring : Nat} {ch : Channel ReqSlot} {x : ReqSlot}
    (h : x ∈ waiting { u with requests := u.requests.set ring ch }) :
    x ∈ waiting u ∨ x ∈ ch.items.drop ch.taken := by
  obtain ⟨ch', hch', hx⟩ := List.mem_flatMap.mp h
  rcases List.mem_or_eq_of_mem_set hch' with hold | rfl
  · exact .inl (List.mem_flatMap.mpr ⟨ch', hold, hx⟩)
  · exact .inr hx

theorem underway_read {ring : Nat} {posted : Bool} (hread : u.read ring posted = some t)
    (h : id ∈ underway t) : id ∈ underway u := by
  obtain ⟨ch, slot, hch, hpeek, rfl⟩ := System.read_eq hread
  have hfront : ch.items.drop ch.taken = slot :: ch.items.drop (ch.taken + 1) := by
    obtain ⟨hlt, hget⟩ := List.getElem?_eq_some_iff.mp hpeek
    rw [List.drop_eq_getElem_cons hlt, hget]
  have hslot : slot ∈ waiting u :=
    List.mem_flatMap.mpr ⟨ch, List.mem_of_getElem? hch, by rw [hfront]; exact .head _⟩
  have hold : ∀ {x}, x ∈ waiting { u with requests := u.requests.set ring ch.advance } →
      x ∈ waiting u := by
    intro x hx
    rcases mem_waiting_set hx with hx | hx
    · exact hx
    · refine List.mem_flatMap.mpr ⟨ch, List.mem_of_getElem? hch, ?_⟩
      rw [hfront]
      exact List.mem_cons_of_mem _ hx
  rw [mem_underway] at h ⊢
  rcases h with ⟨x, hx, hid⟩ | ⟨x, hx, hid⟩ | h
  · exact .inl ⟨x, hold hx, hid⟩
  · rcases List.mem_append.mp hx with hx | hx
    · exact .inr (.inl ⟨x, hx, hid⟩)
    · split at hx
      · rw [List.mem_singleton] at hx
        exact .inl ⟨slot, hslot, hx ▸ hid⟩
      · cases hx
  · exact .inr (.inr h)

theorem underway_releaseRequests {ring : Nat} (hrelease : u.releaseRequests ring = some t)
    (h : id ∈ underway t) : id ∈ underway u := by
  obtain ⟨ch, hch, rfl⟩ := System.releaseRequests_eq hrelease
  rw [mem_underway] at h ⊢
  refine h.imp_left fun ⟨x, hx, hid⟩ => ⟨x, ?_, hid⟩
  rcases mem_waiting_set hx with hx | hx
  · exact hx
  · exact List.mem_flatMap.mpr ⟨ch, List.mem_of_getElem? hch, hx⟩

theorem underway_business {i : Nat} {frame : Option Bytes} (hrun : u.business i frame = some t)
    (h : id ∈ underway t) : id ∈ underway u := by
  obtain ⟨task, htask, rfl⟩ := System.business_eq hrun
  rw [mem_underway] at h ⊢
  rcases h with h | ⟨x, hx, hid⟩ | ⟨x, hx, hid⟩ | h
  · exact .inl h
  · exact .inr (.inl ⟨x, List.mem_of_mem_eraseIdx hx, hid⟩)
  · rcases List.mem_append.mp hx with hx | hx
    · exact .inr (.inr (.inl ⟨x, hx, hid⟩))
    · obtain ⟨_, _, -, -, -, rfl⟩ := System.ReqSlot.mem_reply hx
      exact .inr (.inl ⟨task, List.mem_of_getElem? htask, hid⟩)
  · exact .inr (.inr (.inr h))

theorem underway_drainReplies (hdrain : u.drainReplies = some t) (h : id ∈ underway t) :
    id ∈ underway u := by
  obtain ⟨-, rfl⟩ := System.drainReplies_eq hdrain
  rw [mem_underway] at h ⊢
  rcases h with h | h | ⟨x, hx, -⟩ | h | h
  · exact .inl h
  · exact .inr (.inl h)
  · cases hx
  · exact .inr (.inr (.inl h))
  · exact .inr (.inr (.inr (.inr h)))

/-- A flush takes up what was flushing, and nobody's reply is published but one of
those. -/
theorem underway_flush (id : Nat) (hflush : u.flush = some t) :
    (id ∈ underway t → id ∈ underway u) ∧ ∀ p ∈ published u, p.1 ∈ underway u := by
  obtain ⟨x, rest, hitems, hcases⟩ := System.flush_cases hflush
  have hx : x.connId ∈ underway u :=
    mem_underway.mpr (.inr (.inr (.inr (.inl ⟨x, by rw [hitems]; exact .head _, rfl⟩))))
  have hrest : (∃ y ∈ rest, y.connId = id) → ∃ y ∈ u.flushing, y.connId = id := by
    rintro ⟨y, hy, hid⟩
    exact ⟨y, by rw [hitems]; exact List.mem_cons_of_mem _ hy, hid⟩
  rcases hcases with ⟨hlong, rfl⟩ | ⟨hfits, rfl⟩
  · rw [published_of_long hitems hlong]
    refine ⟨fun h => ?_, nofun⟩
    rw [mem_underway] at h ⊢
    exact h.imp_right (Or.imp_right (Or.imp_right (Or.imp_left hrest)))
  · rw [published_of_fits hitems hfits]
    refine ⟨fun h => ?_, List.forall_mem_singleton.mpr hx⟩
    rw [mem_underway] at h
    rcases h with h | h | h | h | ⟨p, hp, hid⟩
    · exact mem_underway.mpr (.inl h)
    · exact mem_underway.mpr (.inr (.inl h))
    · exact mem_underway.mpr (.inr (.inr (.inl h)))
    · exact mem_underway.mpr (.inr (.inr (.inr (.inl (hrest h)))))
    · rw [unread, List.drop_append, List.map_append, List.mem_append] at hp
      rcases hp with hp | hp
      · exact mem_underway.mpr (.inr (.inr (.inr (.inr ⟨p, hp, hid⟩))))
      · obtain ⟨y, hy, rfl⟩ := List.mem_map.mp hp
        rw [List.mem_singleton.mp (List.mem_of_mem_drop hy)] at hid
        exact hid ▸ hx

/-! ## The conditions -/

/-- The completion that a step harvests, with the answers of `io_uring_get_sqe`. -/
def Step.harvests : Step → List (Nat × Engine.Completion × List Bool)
  | .system (.gateway ⟨.cqe o q, answers, _⟩) => [(o, q, answers)]
  | _ => []

/-- How a step leaves the main loop: whether it broke off, and when. -/
def Step.leaves : Step → List (Bool × Int)
  | .system (.gateway ⟨.leave failed, _, now⟩) => [(failed, now)]
  | _ => []

/-- The slot of the response ring that a step delivers. -/
def Step.delivers (s : System) : Step → List RspSlot
  | .system (.deliver _) => s.responses.peek.toList
  | _ => []

/-- The drain deadline does not pass, the loop does not break off, and no `send` of
a connection that was with a worker at the stop fails. -/
def Undisturbed (s : Service) (step : Step) : Prop :=
  (∀ x ∈ step.harvests, ∀ id ∈ s.journal.watched,
    ∀ c ∈ (s.system.gateway.engine.conns id).toList,
      s.system.gateway.engine.ops x.1 = some ⟨.send, some id⟩ → c.state ≠ .closing →
        0 ≤ x.2.1.res) ∧
  ∀ x ∈ step.leaves, s.journal.watched ≠ [] →
    x.1 = false ∧ x.2 ≤ s.system.gateway.engine.drainDeadline

/-- The outbox may be drained as far as a connection is concerned: its replies fit
its queue, and if the end of its batch is there, nothing of it is on its way and
what it has to send is in flight or will be. -/
def MayDrain (opt : GatewayOptions) (s : System) (answers : List Bool) (id : Nat)
    (c : Connection) : Prop :=
  c.sendBytes + (forConn id (replies s.gateway.outbox)).flatten.length ≤ opt.sendBacklogLimit ∧
    (Ends id s.gateway.outbox →
      id ∉ underway s ∧ (c.sendQ = [] ∨ c.sendOp.isSome) ∧ false ∉ answers)

instance (opt : GatewayOptions) (s : System) (answers : List Bool) (id : Nat) (c : Connection) :
    Decidable (MayDrain opt s answers id c) :=
  inferInstanceAs (Decidable (_ ∧ (_ → _ ∧ (_ ∨ _) ∧ _)))

/-- Nobody who was with a worker at the stop is closed before its replies are out:
the outbox is drained when it may be, a `send` that completes on a connection that
is closing has taken all that was queued, and a response fits the queue. -/
def Unhurried (opt : GatewayOptions) (s : Service) (step : Step) : Prop :=
  ∀ id ∈ s.journal.watched, ∀ c ∈ (s.system.gateway.engine.conns id).toList,
    (∀ x ∈ step.harvests,
      ((s.system.gateway.engine.ops x.1).any (·.kind = .wakeup) → c.state = .parsing →
        MayDrain opt s.system x.2.2 id c) ∧
      (s.system.gateway.engine.ops x.1 = some ⟨.send, some id⟩ → c.state = .closing →
        (c.sendQ.flatten.length : Int) ≤ x.2.1.res)) ∧
    ∀ slot ∈ step.delivers s.system, slot.rsp.connId = id → c.state = .parsing →
      c.sendBytes + slot.rsp.payload.length ≤ opt.sendBacklogLimit

instance (s : Service) (step : Step) : Decidable (s.Undisturbed step) :=
  inferInstanceAs (Decidable (_ ∧ _))

instance (opt : GatewayOptions) (s : Service) (step : Step) : Decidable (s.Unhurried opt step) :=
  inferInstanceAs (Decidable (∀ id ∈ s.journal.watched, _))

/-! ## The two states of a connection -/

/-- The connection is with a worker, or its batch's end is in the outbox. -/
def Working (s : System) (id : Nat) : Prop :=
  s.gateway.stage = .running ∧ ∃ c, s.gateway.engine.conns id = some c ∧ c.state = .parsing

/-- All replies of the connection were queued, and nothing of it is anywhere but in
the hands of a `send`. -/
structure Finished (s : Service) (id : Nat) : Prop where
  known : id < nextId s.system
  batches : ∀ b ∈ s.system.gateway.engine.batches, b.connId ≠ id
  outbox : ∀ it ∈ s.system.gateway.outbox, it.connId ≠ id
  clear : id ∉ underway s.system
  produced : (forConn id s.journal.produced).Perm (forConn id s.journal.queued)
  sent : ∃ unsent, Leaving unsent (s.system.gateway.engine.conns id) ∧
    (forConn id s.journal.sent).flatten ++ unsent = (forConn id s.journal.queued).flatten
  running : (s.system.gateway.engine.conns id).isSome → s.system.gateway.stage = .running

/-- What a step has to keep. -/
theorem Finished.pass (h : Finished s id) (hnext : nextId s.system ≤ nextId t)
    (hbatches : ∀ b ∈ t.gateway.engine.batches, b.connId ≠ id)
    (houtbox : ∀ it ∈ t.gateway.outbox, it.connId ≠ id)
    (hclear : id ∈ underway t → id ∈ underway s.system)
    (hproduced : forConn id r.produced = []) (hqueued : forConn id r.queued = [])
    (hsent : ∀ {unsent}, Leaving unsent (s.system.gateway.engine.conns id) →
      ∃ unsent', Leaving unsent' (t.gateway.engine.conns id) ∧
        (forConn id r.sent).flatten ++ unsent' = unsent)
    (hrunning : (t.gateway.engine.conns id).isSome → t.gateway.stage = .running) :
    Finished ⟨t, s.journal.append r⟩ id := by
  obtain ⟨unsent, hleaving, hold⟩ := h.sent
  obtain ⟨unsent', hleaving', hnew⟩ := hsent hleaving
  refine ⟨Nat.lt_of_lt_of_le h.known hnext, hbatches, houtbox, fun hin => h.clear (hclear hin),
    ?_, ⟨unsent', hleaving', ?_⟩, hrunning⟩
  · simp only [Journal.append, forConn_append, hproduced, hqueued, List.append_nil]
    exact h.produced
  · simp only [Journal.append, forConn_append, hqueued, List.append_nil, List.flatten_append]
    rw [List.append_assoc, hnew, hold]

/-- A step of Dispatch. -/
theorem Finished.aside (h : Finished s id) (hgateway : t.gateway = s.system.gateway)
    (hclear : id ∈ underway t → id ∈ underway s.system) (hnew : ∀ p ∈ new, p.1 ≠ id) :
    Finished ⟨t, s.journal.append { produced := new }⟩ id := by
  refine h.pass (Nat.le_of_eq ?_) ?_ ?_ hclear (forConn_eq_nil hnew) rfl ?_ ?_
  · rw [nextId, nextId, hgateway]
  · rw [hgateway]
    exact h.batches
  · rw [hgateway]
    exact h.outbox
  · intro unsent hleaving
    rw [hgateway]
    exact ⟨unsent, hleaving, rfl⟩
  · rw [hgateway]
    exact h.running

/-- A worker goes on with somebody else's batch. -/
theorem Finished.work (h : Finished s id) {i : Nat} {x : SinkResult} {b : Batch}
    (hb : s.system.gateway.engine.batches[i]? = some b)
    (hwork : s.system.gateway.work i x = some t.gateway)
    (hclear : id ∈ underway t → id ∈ underway s.system ∨ b.connId = id)
    (hnew : ∀ p ∈ new, p.1 = b.connId) {handed : List Request} :
    Finished ⟨t, s.journal.append { handed := handed, produced := new }⟩ id := by
  obtain ⟨b', hb', hg⟩ := MainLoop.work_eq hwork
  rw [hb] at hb'
  obtain rfl := Option.some.inj hb'
  have hne := h.batches b (List.mem_of_getElem? hb)
  refine h.pass (Nat.le_of_eq ?_) ?_ ?_ ?_ ?_ rfl ?_ ?_
  · rw [nextId, nextId, hg]
  · rw [hg]
    simp only [List.forall_mem_append, Option.mem_toList]
    refine ⟨⟨fun x hx => h.batches x (List.mem_of_mem_take hx), fun x hx => ?_⟩,
      fun x hx => h.batches x (List.mem_of_mem_drop hx)⟩
    rw [Batch.step_next hx]
    exact hne
  · rw [hg]
    refine List.forall_mem_append.mpr ⟨h.outbox, fun it hit => ?_⟩
    rcases b.step_items x with hnil | ⟨it', hit', hsame⟩
    · rw [hnil] at hit
      cases hit
    · rw [hit', List.mem_singleton] at hit
      rw [hit, hsame]
      exact hne
  · exact fun hin => (hclear hin).resolve_right hne
  · exact forConn_eq_nil fun p hp => by rw [hnew p hp]; exact hne
  · intro unsent hleaving
    rw [hg]
    exact ⟨unsent, hleaving, rfl⟩
  · rw [hg]
    exact h.running

/-- A worker hands a request to the ring; it is one of the batch's connection. -/
theorem underway_work {i ring : Nat} (hwork : u.work i ring = some t) (h : id ∈ underway t) :
    id ∈ underway u ∨ ∃ b, u.gateway.engine.batches[i]? = some b ∧ b.connId = id := by
  obtain ⟨b, x, v, g, hb, hask, -, -, rfl⟩ := System.work_eq hwork
  have hnew : id ∈ underway v → id ∈ underway u ∨ b.connId = id := by
    intro hin
    rcases System.ask_cases hask with ⟨rfl, -⟩ | ⟨f, rest, ch, -, hch, -, rfl⟩
    · exact .inl hin
    · rw [mem_underway] at hin
      rcases hin with ⟨y, hy, hid⟩ | hin
      · rcases mem_waiting_set hy with hy | hy
        · exact .inl (mem_underway.mpr (.inl ⟨y, hy, hid⟩))
        · rw [List.drop_append, List.mem_append] at hy
          rcases hy with hy | hy
          · exact .inl (mem_underway.mpr (.inl
              ⟨y, List.mem_flatMap.mpr ⟨ch, List.mem_of_getElem? hch, hy⟩, hid⟩))
          · rw [List.mem_singleton.mp (List.mem_of_mem_drop hy)] at hid
            exact .inr hid
      · exact .inl (mem_underway.mpr (.inr hin))
  exact (hnew h).imp_right fun hid => ⟨b, hb, hid⟩

theorem deliver_of_ne (opt : GatewayOptions) (answers : List Bool) {slot : RspSlot}
    (h : u.gateway.Inv fun _ => False) (hstage : u.gateway.stage ≠ .exited) (hid : slot.rsp.connId ≠ id) :
    (Engine.deliver opt { u.gateway.engine with answers := answers } slot.rsp).conns id =
      u.gateway.engine.conns id := by
  have hbooks : ({ u.gateway.engine with answers := answers } : Engine).toTable.Lifecycle
    (fun _ => False) u.gateway.outbox := h.lifecycle hstage
  rcases Engine.deliver_taken opt hbooks slot.rsp with ⟨-, hsame⟩ | ⟨x, -, hconns⟩
  · rw [hsame]
  · rw [hconns, Function.update_of_ne (Ne.symm hid)]

/-- A slot of the response ring is delivered to somebody else. -/
theorem Finished.deliver (h : Finished s id) (hinv : s.system.gateway.Inv fun _ => False)
    {answers : List Bool} (hdeliver : s.system.deliver opt answers = some t) :
    Finished ⟨t, s.journal.append { queued := delivers opt s.system }⟩ id := by
  obtain ⟨slot, hpeek, hstage, rfl⟩ := System.deliver_eq hdeliver
  rw [delivers, hpeek]
  dsimp only
  have hunread := unread_advance hpeek
  have hne : slot.rsp.connId ≠ id := by
    intro hid
    refine h.clear (mem_underway.mpr
      (.inr (.inr (.inr (.inr ⟨(slot.rsp.connId, slot.rsp.payload), ?_, hid⟩)))))
    rw [hunread]
    exact .head _
  have hkeeps := Engine.deliver_keeps (k := .accept) (by decide) opt
    { s.system.gateway.engine with answers := answers } slot.rsp
  have hconns := deliver_of_ne opt answers hinv hstage hne
  refine h.pass hkeeps.nextConnId ?_ h.outbox ?_ rfl ?_ ?_ ?_
  · change ∀ b ∈ (Engine.deliver opt _ slot.rsp).batches, _
    rw [hkeeps.batches]
    exact h.batches
  · intro hin
    rw [mem_underway] at hin ⊢
    refine hin.imp_right (Or.imp_right (Or.imp_right (Or.imp_right ?_)))
    rintro ⟨p, hp, hid⟩
    exact ⟨p, by rw [hunread]; exact List.mem_cons_of_mem _ hp, hid⟩
  · refine forConn_eq_nil fun p hp => ?_
    split at hp
    · rw [List.mem_singleton.mp hp]
      exact hne
    · cases hp
  · intro unsent hleaving
    exact ⟨unsent, by rw [hconns]; exact hleaving, rfl⟩
  · rw [hconns]
    exact h.running

/-- A completion while the connection leaves: its `send` has taken what was left. -/
theorem leaving_completes {g : MainLoop} {answers : List Bool} {now : Int} {due : List OutboxItem}
    (hbooks : g.engine.toTable.Lifecycle (fun _ => False) due) {o : Nat} {op : UringOp}
    {q : Engine.Completion} (hop : g.engine.ops o = some op) {x : Option Connection}
    (hx : Engine.Completes { g.engine with answers := answers, now := now } op q.res id x)
    (hknown : id < g.engine.nextConnId)
    (htaken : ∀ c, g.engine.conns id = some c → op = ⟨.send, some id⟩ →
      (c.sendQ.flatten.length : Int) ≤ q.res)
    {unsent : Bytes} (h : Leaving unsent (g.engine.conns id)) :
    (x.isSome → (g.engine.conns id).isSome) ∧ ∃ unsent', Leaving unsent' x ∧
      (forConn id (g.sends ⟨.cqe o q, answers, now⟩)).flatten ++ unsent' = unsent := by
  have hnosend : op ≠ ⟨.send, some id⟩ → forConn id (g.sends ⟨.cqe o q, answers, now⟩) = [] :=
    fun hne => forConn_sends_of_ne answers now hop hne q
  -- it has no `recv` in flight
  have hnorecv : op = ⟨.recv, some id⟩ → False := by
    rintro rfl
    obtain ⟨j, c, hj, hc, hrecv⟩ := hbooks.booked.owned hop (.inl rfl)
    cases hj
    rw [hc] at h
    rw [show c.op .recv = c.recvOp from rfl, h.2.1] at hrecv
    cases hrecv
  cases hx with
  | same hne => exact ⟨fun hsome => hsome, unsent, h, by rw [hnosend hne]; rfl⟩
  | refused _ _ => exact absurd hknown (Nat.lt_irrefl _)
  | accepted _ _ _ => exact absurd hknown (Nat.lt_irrefl _)
  | hungUp hkind _ => exact (hnorecv hkind).elim
  | received hkind _ _ _ => exact (hnorecv hkind).elim
  | failed _ hc hopen _ _ =>
    exact absurd (h.closing hc) hopen
  | sent _ hc hopen _ _ =>
    exact absurd (h.closing hc) hopen
  | @finished _ c _ hkind hc _ _ hgone =>
    change g.engine.conns id = some c at hc
    have hall := htaken c hc hkind
    rw [hc] at h
    obtain ⟨-, hrecv, hsend, hunsent⟩ := h
    have hone : c.pendingOps = 1 := by
      have hpending := (hbooks.booked.counted hc).pendingOps
      simp only [hrecv, hsend, Option.isSome_none, Bool.false_eq_true, if_false, if_true] at hpending
      omega
    rw [hgone hone]
    refine ⟨nofun, [], rfl, ?_⟩
    rw [hkind] at hop
    rw [sends_eq answers now hop hc q, forConn_self, List.flatten_singleton, List.append_nil,
      List.take_of_length_le (by omega), hunsent]

theorem Finished.event (h : Finished s id) (hinv : s.system.gateway.Inv fun _ => False)
    (hdraining : s.system.gateway.engine.draining = true) (hid : id ∈ s.journal.watched)
    {g : MainLoop} (hgo : s.Undisturbed (.system (.gateway ev)))
    (hcalm : s.Unhurried opt (.system (.gateway ev))) (halone : System.alone ev.action = true)
    (hnext : s.system.gateway.next opt ev = some g) {watched : List Nat} :
    Finished ⟨{ s.system with gateway := g }, s.journal.append
      { queued := s.system.gateway.queues opt ev, sent := s.system.gateway.sends ev,
        watched := watched }⟩ id := by
  obtain ⟨action, answers, now⟩ := ev
  obtain ⟨k, hkeeps⟩ := MainLoop.next_keeps hnext
  have hinv' : MainLoop.Inv (fun _ => False) { s.system.gateway with
      engine := { s.system.gateway.engine with answers := answers, now := now } } :=
    ⟨hinv.lifecycle, hinv.fds⟩
  by_cases hcqe : ∃ o q, action = .cqe o q
  · obtain ⟨o, q, rfl⟩ := hcqe
    obtain ⟨op, hop, hstage, -, rfl⟩ := MainLoop.cqe_eq hnext
    have hbooks := hinv'.lifecycle hstage
    change s.system.gateway.engine.ops o = some op at hop
    obtain ⟨unsent, hleaving, -⟩ := h.sent
    have hmoved : ∀ {unsent}, Leaving unsent (s.system.gateway.engine.conns id) →
        (((Engine.onCqe opt o op q s.system.gateway.outbox
          { s.system.gateway.engine with answers := answers, now := now }).conns id).isSome →
            (s.system.gateway.engine.conns id).isSome) ∧
        ∃ unsent', Leaving unsent' ((Engine.onCqe opt o op q s.system.gateway.outbox
            { s.system.gateway.engine with answers := answers, now := now }).conns id) ∧
          (forConn id (s.system.gateway.sends ⟨.cqe o q, answers, now⟩)).flatten ++ unsent' =
            unsent := by
      intro unsent hleaving
      by_cases hwake : op.kind = .wakeup
      · have hconns : (Engine.onCqe opt o op q s.system.gateway.outbox
            { s.system.gateway.engine with answers := answers, now := now }).conns id =
              s.system.gateway.engine.conns id := by
          rw [Engine.onCqe_wakeup hwake, Engine.drainOutbox_of_ne
            (Engine.wakeup_lifecycle hbooks hop hwake) h.outbox, Engine.submitEventfdRead,
            Engine.submitOp_conns]
          rfl
        rw [hconns, forConn_sends_of_ne answers now hop (by rintro rfl; cases hwake) q]
        exact ⟨fun hsome => hsome, unsent, hleaving, rfl⟩
      · refine leaving_completes (hinv.lifecycle hstage) hop (Engine.onCqe_completes hbooks hop hwake
          (List.isEmpty_iff.mp halone) id) h.known (fun c hc hsend => ?_) hleaving
        exact ((hcalm id hid c (Option.mem_toList.mpr hc)).1 _ (.head _)).2 (hsend ▸ hop)
          (hleaving.closing hc)
    refine h.pass hkeeps.nextConnId ?_ ?_ (fun hin => hin) rfl ?_ ?_ ?_
    · rcases Engine.onCqe_batches opt hbooks hop q s.system.gateway.outbox with
        hsame | ⟨j, c, raw, -, hc, hopen, -, hposted⟩
      · exact fun b hb => h.batches b (hsame ▸ hb)
      · refine fun b hb => ?_
        rcases List.mem_append.mp (hposted ▸ hb : b ∈ _ ++ [Batch.start j raw]) with hb | hb
        · exact h.batches b hb
        · rw [List.mem_singleton.mp hb]
          rintro rfl
          exact hopen (hleaving.closing hc)
    · dsimp only
      split
      · rintro _ ⟨⟩
      · exact h.outbox
    · unfold MainLoop.queues
      dsimp only
      split
      · exact Engine.forConn_queuedItems_of_ne h.outbox _
      · rfl
    · exact fun hleaving => (hmoved hleaving).2
    · exact fun hsome => h.running ((hmoved hleaving).1 hsome)
  · have hne : ∀ o q, action ≠ .cqe o q := fun o q heq => hcqe ⟨o, q, heq⟩
    have hnowork : ∀ i x, action ≠ .work i x := by
      rintro i x rfl
      cases halone
    obtain ⟨hqueues, hsends⟩ : s.system.gateway.queues opt ⟨action, answers, now⟩ = [] ∧
      s.system.gateway.sends ⟨action, answers, now⟩ = [] := records_turn hne
    obtain ⟨hsame, houtbox⟩ := MainLoop.turn_keeps (k := .accept) (by decide) hne hnowork hnext
    obtain ⟨hconns, hrunning⟩ := MainLoop.turn_watched (g := { s.system.gateway with
      engine := { s.system.gateway.engine with answers := answers, now := now } })
      hinv' hne halone hdraining h.running (by
        rintro failed rfl
        exact hgo.2 _ (.head _) (List.ne_nil_of_mem hid)) hnext
    refine h.pass hkeeps.nextConnId ?_ ?_ (fun hin => hin) rfl ?_ ?_ ?_
    · exact fun b hb => h.batches b (hsame.batches ▸ hb)
    · exact fun it hit => h.outbox it (houtbox ▸ hit)
    · rw [hqueues]
      rfl
    · intro unsent hleaving
      rw [hsends, show g.engine.conns id = _ from hconns]
      exact ⟨unsent, hleaving, rfl⟩
    · rw [show g.engine.conns id = _ from hconns]
      exact hrunning

/-! ## With a worker -/

theorem Working.congr (h : Working u id) (hstage : t.gateway.stage = u.gateway.stage)
    (hconns : t.gateway.engine.conns id = u.gateway.engine.conns id) : Working t id := by
  obtain ⟨hrun, c, hc, hparsing⟩ := h
  exact ⟨hstage.trans hrun, c, hconns.trans hc, hparsing⟩

theorem Working.deliver (h : Working s.system id) (hinv : s.system.gateway.Inv fun _ => False)
    (hid : id ∈ s.journal.watched) {answers : List Bool}
    (hcalm : s.Unhurried opt (.system (.deliver answers)))
    (hdeliver : s.system.deliver opt answers = some t) : Working t id := by
  obtain ⟨slot, hpeek, hstage, rfl⟩ := System.deliver_eq hdeliver
  by_cases hslot : slot.rsp.connId = id
  · obtain ⟨hrun, c, hc, hparsing⟩ := h
    have hfits := (hcalm id hid c (Option.mem_toList.mpr hc)).2 slot
      (Option.mem_toList.mpr hpeek) hslot hparsing
    refine ⟨hrun, ?_⟩
    change ∃ c, (Engine.deliver opt { s.system.gateway.engine with answers := answers }
      slot.rsp).conns id = some c ∧ c.state = .parsing
    have hopen : c.state ≠ .closing := by rw [hparsing]; decide
    unfold Engine.deliver
    split
    · exact ⟨c, hc, hparsing⟩
    · split
      · exact ⟨c, hc, hparsing⟩
      · have hc' : s.system.gateway.engine.conns slot.rsp.connId = some c := hslot ▸ hc
        simp only [hc', if_neg hopen]
        obtain ⟨d, hconns, hout, -⟩ := Engine.pushResponse_conns hfits
          { s.system.gateway.engine with answers := answers }
        refine ⟨d, ?_, (congrArg Out.state hout).trans hparsing⟩
        rw [hconns, ((hinv.lifecycle hstage).booked.named hc).1, Function.update_self]
  · exact h.congr rfl (deliver_of_ne opt answers hinv hstage hslot)

/-- The outbox is drained: the connection goes on waiting for its worker, or leaves
with all its replies. -/
theorem Working.wakeup (h : Working s.system id) (hacc : s.Accounted)
    (horderly : s.system.gateway.Orderly) (hdraining : s.system.gateway.engine.draining = true)
    {o : Nat} {op : UringOp} {q : Engine.Completion} {answers : List Bool} {now : Int}
    (hop : s.system.gateway.engine.ops o = some op) (hwake : op.kind = .wakeup)
    (hmay : ∀ c, s.system.gateway.engine.conns id = some c → MayDrain opt s.system answers id c)
    {g : MainLoop} (hg : g = { s.system.gateway with
      engine := Engine.onCqe opt o op q s.system.gateway.outbox
        { s.system.gateway.engine with answers := answers, now := now }
      outbox := [] }) {watched : List Nat} :
    Working { s.system with gateway := g } id ∨
      Finished ⟨{ s.system with gateway := g }, s.journal.append
        { queued := s.system.gateway.queues opt ⟨.cqe o q, answers, now⟩
          sent := s.system.gateway.sends ⟨.cqe o q, answers, now⟩
          watched := watched }⟩ id := by
  obtain ⟨hrun, c, hc, hparsing⟩ := h
  have hbooks : ({ s.system.gateway.engine with answers := answers, now := now } :
      Engine).toTable.Lifecycle (fun _ => False) s.system.gateway.outbox :=
    hacc.gateway.lifecycle (by rw [hrun]; decide)
  have hrecv := ((hbooks.settled hc).parsing hparsing).1
  obtain ⟨hfits, hready⟩ := hmay c hc
  generalize he : Engine.submitEventfdRead { s.system.gateway.engine with
    toTable := s.system.gateway.engine.toTable.dropOp o, answers := answers, now := now } = e
  have hlife : e.toTable.Lifecycle (fun _ => False) s.system.gateway.outbox :=
    he ▸ Engine.wakeup_lifecycle hbooks hop hwake
  have hkeeps : Engine.Keeps .accept { s.system.gateway.engine with
      toTable := s.system.gateway.engine.toTable.dropOp o, answers := answers, now := now } e :=
    he ▸ Engine.submitEventfdRead_keeps (by decide) _
  have hconns : e.conns id = some c := by
    rw [← he, Engine.submitEventfdRead, Engine.submitOp_conns]
    exact hc
  obtain ⟨hqueued, hends, hwaits⟩ := Engine.drainOutbox_parsing hlife horderly.tidy
    (hkeeps.draining hdraining) hconns hparsing hrecv hfits
    fun hend => ⟨hkeeps.room (hready hend).2.2, (hready hend).2.1⟩
  have hengine : g.engine = Engine.drainOutbox opt s.system.gateway.outbox e := by
    rw [hg, ← he]
    exact Engine.onCqe_wakeup hwake q _
  by_cases hend : Ends id s.system.gateway.outbox
  · obtain ⟨hclear, -, -⟩ := hready hend
    have hqueues : s.system.gateway.queues opt ⟨.cqe o q, answers, now⟩ =
        Engine.queuedItems opt e s.system.gateway.outbox := by
      rw [← he]
      simp [MainLoop.queues, hop, hwake]
    have hsends : forConn id (s.system.gateway.sends ⟨.cqe o q, answers, now⟩) = [] :=
      forConn_sends_of_ne answers now hop (by rintro rfl; cases hwake) q
    have hall : Engine.Keeps .accept e (Engine.drainOutbox opt s.system.gateway.outbox e) :=
      Engine.drainOutbox_keeps (by decide) (by decide) _ e
    refine .inr ⟨?_, ?_, ?_, hclear, ?_, ⟨_, by rw [hengine]; exact hends hend, ?_⟩, ?_⟩
    · change id < g.engine.nextConnId
      rw [hengine]
      refine Nat.lt_of_lt_of_le (hbooks.booked.named hc).2 ?_
      exact Nat.le_trans hkeeps.nextConnId hall.nextConnId
    · rw [hengine, hall.batches, hkeeps.batches]
      rintro b hb rfl
      exact horderly.not_ends hb hend
    · rw [hg]
      rintro _ ⟨⟩
    · -- nothing of it is left in the rings
      have hproduced := hacc.produced ⟨c.out, Engine.out_of_conns hc, by
        rw [show c.out.state = _ from hparsing]; decide⟩
      have hunread : forConn id (unread s.system.responses) = [] :=
        forConn_eq_nil fun p hp hid =>
          hclear (mem_underway.mpr (.inr (.inr (.inr (.inr ⟨p, hp, hid⟩)))))
      rw [hunread, List.append_nil] at hproduced
      simp only [Journal.append, forConn_append, List.append_nil, hqueues, hqueued]
      exact hproduced
    · have hsent := hacc.sent (Engine.out_of_conns hc) (by
        rw [show c.out.state = _ from hparsing]; decide)
      simp only [Journal.append, forConn_append, hsends, hqueues, hqueued, List.append_nil,
        List.flatten_append]
      rw [← List.append_assoc]
      congr 1
    · rw [hg]
      exact fun _ => hrun
  · obtain ⟨d, hd, hparsing'⟩ := hwaits hend
    exact .inl ⟨by rw [hg]; exact hrun, d, by rw [hengine]; exact hd, hparsing'⟩

/-- Any other completion leaves the connection with its worker: nothing is in flight
for it but a `send`, and that does not fail. -/
theorem parsing_completes {e : Engine} {due : List OutboxItem}
    (hbooks : e.toTable.Lifecycle (fun _ => False) due) {o : Nat} {op : UringOp}
    (hop : e.ops o = some op) {res : Int} {x : Option Connection}
    (hx : Engine.Completes e op res id x) {c : Connection} (hc : e.conns id = some c)
    (hparsing : c.state = .parsing) (hsend : op = ⟨.send, some id⟩ → 0 ≤ res) :
    ∃ d, x = some d ∧ d.state = .parsing := by
  have hknown := (hbooks.booked.named hc).2
  have hnorecv : op = ⟨.recv, some id⟩ → False := by
    rintro rfl
    obtain ⟨j, c', hj, hc', hrecv⟩ := hbooks.booked.owned hop (.inl rfl)
    cases hj
    rw [hc] at hc'
    cases hc'
    rw [show c.op .recv = c.recvOp from rfl, ((hbooks.settled hc).parsing hparsing).1] at hrecv
    cases hrecv
  cases hx with
  | same _ => exact ⟨c, hc, hparsing⟩
  | refused _ _ => exact absurd hknown (Nat.lt_irrefl _)
  | accepted _ _ _ => exact absurd hknown (Nat.lt_irrefl _)
  | hungUp hkind _ => exact (hnorecv hkind).elim
  | received hkind _ _ _ => exact (hnorecv hkind).elim
  | finished _ hc' hclosing _ _ =>
    rw [hc] at hc'
    cases hc'
    rw [hparsing] at hclosing
    cases hclosing
  | failed hkind _ _ hneg _ => exact absurd (hsend hkind) (by omega)
  | sent _ hc' _ _ hout =>
    rw [hc] at hc'
    cases hc'
    obtain ⟨d, rfl, hd⟩ := Option.map_eq_some_iff.mp hout
    exact ⟨d, rfl, (congrArg Out.state hd).trans hparsing⟩

theorem Working.event (h : Working s.system id) (hacc : s.Accounted)
    (horderly : s.system.gateway.Orderly) (hdraining : s.system.gateway.engine.draining = true)
    (hid : id ∈ s.journal.watched) {g : MainLoop} (hgo : s.Undisturbed (.system (.gateway ev)))
    (hcalm : s.Unhurried opt (.system (.gateway ev))) (halone : System.alone ev.action = true)
    (hnext : s.system.gateway.next opt ev = some g) {watched : List Nat} :
    Working { s.system with gateway := g } id ∨
      Finished ⟨{ s.system with gateway := g }, s.journal.append
        { queued := s.system.gateway.queues opt ev, sent := s.system.gateway.sends ev,
          watched := watched }⟩ id := by
  obtain ⟨action, answers, now⟩ := ev
  have hinv' : MainLoop.Inv (fun _ => False) { s.system.gateway with
      engine := { s.system.gateway.engine with answers := answers, now := now } } :=
    ⟨hacc.gateway.lifecycle, hacc.gateway.fds⟩
  obtain ⟨hrun, c, hc, hparsing⟩ := h
  by_cases hcqe : ∃ o q, action = .cqe o q
  · obtain ⟨o, q, rfl⟩ := hcqe
    obtain ⟨op, hop, hstage, -, hg⟩ := MainLoop.cqe_eq hnext
    have hbooks := hinv'.lifecycle hstage
    change s.system.gateway.engine.ops o = some op at hop
    by_cases hwake : op.kind = .wakeup
    · rw [if_pos hwake] at hg
      refine Working.wakeup ⟨hrun, c, hc, hparsing⟩ hacc horderly hdraining hop hwake ?_ hg
      intro d hd
      refine ((hcalm id hid d (Option.mem_toList.mpr hd)).1 _ (.head _)).1 (by simp [hop, hwake]) ?_
      rw [hc] at hd
      cases hd
      exact hparsing
    · refine .inl ⟨by rw [hg]; exact hrun, ?_⟩
      change ∃ d, g.engine.conns id = some d ∧ d.state = .parsing
      rw [hg]
      refine parsing_completes hbooks hop (Engine.onCqe_completes hbooks hop hwake
        (List.isEmpty_iff.mp halone) id) hc hparsing fun hsend => ?_
      exact hgo.1 _ (.head _) id hid c (Option.mem_toList.mpr hc) (hsend ▸ hop)
        (by rw [hparsing]; decide)
  · have hne : ∀ o q, action ≠ .cqe o q := fun o q heq => hcqe ⟨o, q, heq⟩
    obtain ⟨hconns, hrunning⟩ := MainLoop.turn_watched (g := { s.system.gateway with
      engine := { s.system.gateway.engine with answers := answers, now := now } })
      hinv' hne halone hdraining (fun _ => hrun) (by
        rintro failed rfl
        exact hgo.2 _ (.head _) (List.ne_nil_of_mem hid)) hnext
    exact .inl ⟨hrunning (by rw [hc]; rfl), c, hconns.trans hc, hparsing⟩

/-! ## Whole runs -/

/-- Whoever was with a worker at the stop is so still, or has all its replies out
but for what a `send` is about to take. -/
structure Stopping (s : Service) : Prop where
  inv : s.system.gateway.Inv fun _ => False
  orderly : s.system.gateway.Orderly
  draining : s.journal.watched ≠ [] → s.system.gateway.engine.draining = true
  watched : ∀ id ∈ s.journal.watched, Working s.system id ∨ Finished s id

/-- What the gateway's own part needs. -/
theorem Stopping.gateway (h : s.Stopping) (hmoves : moves opt s.system step = some t) :
    t.gateway.Inv (fun _ => False) ∧ t.gateway.Orderly ∧
      (s.system.gateway.engine.draining = true → t.gateway.engine.draining = true) := by
  rcases gateway_cases hmoves with
    hsame | ⟨i, x, hwork⟩ | ⟨ev, -, -, hev⟩ | ⟨answers, slot, -, -, hrun, hg⟩
  · rw [hsame]
    exact ⟨h.inv, h.orderly, fun hd => hd⟩
  · refine ⟨h.inv.work hwork, h.orderly.work hwork, ?_⟩
    obtain ⟨b, -, hg⟩ := MainLoop.work_eq hwork
    rw [hg]
    exact fun hd => hd
  · obtain ⟨k, hkeeps⟩ := MainLoop.next_keeps hev
    exact ⟨h.inv.next (fun _ hfree => hfree) hev, h.orderly.next h.inv hev, hkeeps.draining⟩
  · have hkeeps := Engine.deliver_keeps (k := .accept) nofun opt
      { s.system.gateway.engine with answers := answers } slot.rsp
    have hbooks : ({ s.system.gateway.engine with answers := answers } : Engine).toTable.Lifecycle
      (fun _ => False) s.system.gateway.outbox := h.inv.lifecycle hrun
    rw [hg]
    exact ⟨.of_lifecycle (Engine.deliver_lifecycle hbooks _),
      h.orderly.shrink hkeeps.batches (.inl rfl), hkeeps.draining⟩

/-- When the stop takes effect, those it concerns are with a worker. -/
theorem stops_working {g : MainLoop} (hnext : s.system.gateway.next opt ev = some g)
    (hid : id ∈ s.system.gateway.stops ev) :
    g.engine.draining = true ∧ Working { s.system with gateway := g } id := by
  obtain ⟨action, answers, now⟩ := ev
  unfold MainLoop.stops at hid
  split at hid
  next haction =>
    dsimp only at haction
    subst haction
    obtain ⟨-, rfl⟩ := MainLoop.turn_eq hnext
    split at hid
    next hstop =>
      simp only [Bool.and_eq_true, decide_eq_true_eq] at hstop
      obtain ⟨-, hparsing⟩ := List.mem_filter.mp hid
      obtain ⟨c, hc, hstate⟩ := (Option.any_eq_true _ _).mp hparsing
      refine ⟨?_, rfl, c, ?_, of_decide_eq_true hstate⟩
      · simp only [Engine.checkStop, hstop.1.2, hstop.2, Bool.and_self, if_true]
      · rw [show _ = _ from Engine.checkStop_conns _]
        exact hc
    next => cases hid
  next => cases hid

/-- A worker's step, in either mode. -/
theorem Stopping.work (h : s.Stopping) (hid : id ∈ s.journal.watched) {i : Nat} {x : SinkResult}
    {b : Batch} (hb : s.system.gateway.engine.batches[i]? = some b)
    (hwork : s.system.gateway.work i x = some t.gateway)
    (hclear : id ∈ underway t → id ∈ underway s.system ∨ b.connId = id)
    (hnew : ∀ p ∈ new, p.1 = b.connId) {handed : List Request} :
    Working t id ∨ Finished ⟨t, s.journal.append { handed := handed, produced := new }⟩ id := by
  refine (h.watched id hid).imp (fun hworking => ?_) fun hfinished =>
    hfinished.work hb hwork hclear hnew
  obtain ⟨b', -, hg⟩ := MainLoop.work_eq hwork
  exact hworking.congr (by rw [hg]) (by rw [hg])

/-- A step of Dispatch. -/
theorem Stopping.aside (h : s.Stopping) (hid : id ∈ s.journal.watched)
    (hgateway : t.gateway = s.system.gateway) (hclear : id ∈ underway t → id ∈ underway s.system)
    (hnew : ∀ p ∈ new, p.1 ∈ underway s.system) :
    Working t id ∨ Finished ⟨t, s.journal.append { produced := new }⟩ id := by
  refine (h.watched id hid).imp (fun hworking => ?_) fun hfinished => ?_
  · exact hworking.congr (by rw [hgateway]) (by rw [hgateway])
  · refine hfinished.aside hgateway hclear fun p hp heq => hfinished.clear ?_
    rw [← heq]
    exact hnew p hp

/-- **One step**, for those who were with a worker at the stop. -/
theorem Stopping.watched_next (h : s.Stopping)
    (hacc : s.system.gateway.stage ≠ .exited → s.Accounted) (hid : id ∈ s.journal.watched)
    (hgo : s.Undisturbed step) (hcalm : s.Unhurried opt step)
    (hmoves : moves opt s.system step = some t) :
    Working t id ∨ Finished ⟨t, s.journal.append (records opt s.system step)⟩ id := by
  have hdraining := h.draining (List.ne_nil_of_mem hid)
  cases step with
  | call i frame =>
    obtain ⟨g, hg, rfl⟩ := moves_call hmoves
    obtain ⟨b, hb, -⟩ := MainLoop.work_eq hg
    refine h.work (t := { s.system with gateway := g }) hid hb hg .inl fun p hp => ?_
    rw [answers, hb] at hp
    exact step_replies hp
  | system step =>
    cases step with
    | gateway ev =>
      obtain ⟨halone, g, hg, rfl⟩ := System.gateway_eq hmoves
      rcases h.watched id hid with hworking | hfinished
      · have hrun : s.system.gateway.stage ≠ .exited := by rw [hworking.1]; decide
        exact hworking.event (hacc hrun) h.orderly hdraining hid hgo hcalm halone hg
      · exact .inr (hfinished.event h.inv hdraining hid hgo hcalm halone hg)
    | work i ring =>
      have hwork := moves_work hmoves
      have hclear : id ∈ underway t → _ := underway_work hwork
      obtain ⟨b, x, v, g, hb, -, -, hg, rfl⟩ := System.work_eq hwork
      refine h.work hid hb hg (fun hin => (hclear hin).imp_right ?_) (by rintro _ ⟨⟩)
      rintro ⟨b', hb', hconn⟩
      rw [hb] at hb'
      cases hb'
      exact hconn
    | deliver answers =>
      exact (h.watched id hid).imp (fun hworking => hworking.deliver h.inv hid hcalm hmoves)
        fun hfinished => hfinished.deliver h.inv hmoves
    | restart answers => cases hmoves
    | releaseResponses =>
      cases hmoves
      exact h.aside (t := { s.system with responses := s.system.responses.release }) hid rfl
        (fun hin => hin) (by rintro _ ⟨⟩)
    | read ring posted =>
      exact h.aside hid (System.read_carries hmoves).gateway (underway_read hmoves) (by rintro _ ⟨⟩)
    | releaseRequests ring =>
      exact h.aside hid (System.releaseRequests_carries hmoves).gateway
        (underway_releaseRequests hmoves) (by rintro _ ⟨⟩)
    | business i frame =>
      exact h.aside hid (System.business_carries hmoves).gateway (underway_business hmoves)
        (by rintro _ ⟨⟩)
    | drainReplies =>
      exact h.aside hid (System.drainReplies_carries hmoves).gateway (underway_drainReplies hmoves)
        (by rintro _ ⟨⟩)
    | flush =>
      obtain ⟨hclear, hpublished⟩ := underway_flush id hmoves
      exact h.aside hid (System.flush_carries hmoves).gateway hclear hpublished
    | dropReplies =>
      cases hmoves
      refine h.aside (t := { s.system with flushing := [] }) hid rfl (fun hin => ?_) (by rintro _ ⟨⟩)
      rw [mem_underway] at hin ⊢
      refine hin.imp_right (Or.imp_right (Or.imp_right (Or.imp_left ?_)))
      rintro ⟨x, hx, -⟩
      cases hx

/-- The journal's list of those who are concerned grows only when the stop takes
effect. -/
theorem records_watched (opt : GatewayOptions) (u : System) (step : Step) :
    (records opt u step).watched = [] ∨
      ∃ ev, step = .system (.gateway ev) ∧ (records opt u step).watched = u.gateway.stops ev := by
  cases step with
  | call i frame => exact .inl rfl
  | system step =>
    cases step with
    | gateway ev => exact .inr ⟨ev, rfl, rfl⟩
    | _ => exact .inl rfl

theorem Stopping.next (h : s.Stopping) (hacc : s.system.gateway.stage ≠ .exited → s.Accounted)
    {s' : Service} (hok : s.Undisturbed step ∧ s.Unhurried opt step)
    (hnext : s.next opt step = some s') : s'.Stopping := by
  obtain ⟨t, hmoves, rfl⟩ := Option.map_eq_some_iff.mp hnext
  obtain ⟨hinv, horderly, hdraining⟩ := h.gateway hmoves
  have hnew : ∀ id ∈ (records opt s.system step).watched,
      t.gateway.engine.draining = true ∧ Working t id := by
    intro id hid
    rcases records_watched opt s.system step with hnil | ⟨ev, rfl, hstops⟩
    · rw [hnil] at hid
      cases hid
    · rw [hstops] at hid
      obtain ⟨-, g, hg, rfl⟩ := System.gateway_eq hmoves
      exact stops_working hg hid
  refine ⟨hinv, horderly, fun hne => ?_, fun id hid => ?_⟩
  · obtain ⟨id, hid⟩ := List.exists_mem_of_ne_nil _ hne
    rcases List.mem_append.mp hid with hid | hid
    · exact hdraining (h.draining (List.ne_nil_of_mem hid))
    · exact (hnew id hid).1
  · rcases List.mem_append.mp hid with hid | hid
    · exact h.watched_next hacc hid hok.1 hok.2 hmoves
    · exact .inl (hnew id hid).2

/-- **Every run** under the conditions. -/
theorem Stopping.of_reachable {rings : Nat} (h : (machine opt rings).ReachableWhile
    (fun s step => s.Undisturbed step ∧ s.Unhurried opt step) s) : s.Stopping := by
  induction h with
  | start hs =>
    obtain ⟨answers, rfl⟩ := hs
    exact ⟨.start opt answers, .start opt answers, fun hne => absurd rfl hne, nofun⟩
  | step hs hok hnext ih => exact ih.next (Accounted.of_reachable hs) hok hnext

end Service

open Service in
/-- **A stop that is not hurried finishes what is in flight.** In every run whose
steps are undisturbed and unhurried, a connection that was with a worker when the
stop took effect and is closed has had every reply that came about for it sent, in
some order and completely. -/
theorem stop_finishes {opt : GatewayOptions} {rings : Nat} {s : Service}
    (h : (machine opt rings).ReachableWhile
      (fun s step => s.Undisturbed step ∧ s.Unhurried opt step) s) {id : Nat}
    (hid : id ∈ s.journal.watched) (hclosed : s.system.gateway.engine.conns id = none) :
    ∃ frames : List Bytes, frames.Perm (forConn id s.journal.produced) ∧
      (forConn id s.journal.sent).flatten = frames.flatten := by
  rcases (Stopping.of_reachable h).watched id hid with ⟨-, c, hc, -⟩ | hfinished
  · rw [hclosed] at hc
    cases hc
  · obtain ⟨unsent, hleaving, hsent⟩ := hfinished.sent
    rw [hclosed] at hleaving
    obtain rfl : unsent = [] := hleaving
    rw [List.append_nil] at hsent
    exact ⟨_, hfinished.produced.symm, hsent⟩

/-- A client connects and sends `data`, the gateway is told to stop, and workers go
on until the batch has ended; then the outbox is drained and the first reply sent. -/
def stopDuring (data : Bytes) (replies : List Bytes) : List Service.Step :=
  [.system (.gateway ⟨.cqe 0 ⟨7, [], false, []⟩, [], 1⟩),
    .system (.gateway ⟨.cqe 3 ⟨data.length, data, false, []⟩, [], 2⟩),
    .system (.gateway ⟨.requestStop, [], 3⟩), .system (.gateway ⟨.checkStop, [], 4⟩)] ++
  replies.map (fun frame => .call 0 (some frame)) ++
  [.call 0 none, .system (.gateway ⟨.cqe 1 ⟨8, [], false, []⟩, [], 5⟩),
    .system (.gateway ⟨.cqe 6 ⟨14, [], false, []⟩, [], 6⟩)]

open Service in
/-- A batch of one request: its reply is out before the connection is closed. -/
theorem stop_finishes_one : ∃ s, (machine ⟨64, 1000, 0, false⟩ 0).ReachableWhile
    (fun s step => s.Undisturbed step ∧ s.Unhurried ⟨64, 1000, 0, false⟩ step) s ∧
      s.journal.watched = [1] ∧ s.system.gateway.engine.conns 1 = none ∧
        ∃ frames : List Bytes, frames.Perm [ping] ∧
          (forConn 1 s.journal.sent).flatten = frames.flatten := by
  obtain ⟨s, hs, hwatched, hclosed, hproduced⟩ :
      ∃ s, (machine ⟨64, 1000, 0, false⟩ 0).ReachableWhile
          (fun s step => s.Undisturbed step ∧ s.Unhurried ⟨64, 1000, 0, false⟩ step) s ∧
        s.journal.watched = [1] ∧ s.system.gateway.engine.conns 1 = none ∧
        forConn 1 s.journal.produced = [ping] :=
    Machine.exists_of_playWhile (fun _ _ => of_decide_eq_true) (start _ 0 []) ⟨[], rfl⟩
      (stopDuring ping [ping]) (by decide +kernel)
  refine ⟨s, hs, hwatched, hclosed, ?_⟩
  rw [← hproduced]
  exact stop_finishes hs (by rw [hwatched]; exact .head _) hclosed

open Service in
/-- **A batch of two requests loses its second reply**, with nothing going wrong: the
first is being sent and the second is queued behind it when the end of the batch
closes the connection. -/
theorem stop_loses_reply : ∃ s, (machine ⟨64, 1000, 0, false⟩ 0).ReachableWhile Undisturbed s ∧
    1 ∈ s.journal.watched ∧ s.system.gateway.engine.conns 1 = none ∧
      ¬ ∃ frames : List Bytes, frames.Perm (forConn 1 s.journal.produced) ∧
        (forConn 1 s.journal.sent).flatten = frames.flatten := by
  obtain ⟨s, hs, hwatched, hclosed, hproduced, hsent⟩ :
      ∃ s, (machine ⟨64, 1000, 0, false⟩ 0).ReachableWhile Undisturbed s ∧
        s.journal.watched = [1] ∧ s.system.gateway.engine.conns 1 = none ∧
        forConn 1 s.journal.produced = [ping, ping] ∧ forConn 1 s.journal.sent = [ping] :=
    Machine.exists_of_playWhile (fun _ _ => of_decide_eq_true) (start _ 0 []) ⟨[], rfl⟩
      (stopDuring (ping ++ ping) [ping, ping]) (by decide +kernel)
  refine ⟨s, hs, by rw [hwatched]; exact .head _, hclosed, ?_⟩
  rintro ⟨frames, hperm, hflatten⟩
  rw [hproduced] at hperm
  have hframes : frames = [ping, ping] := (List.perm_replicate (n := 2) (a := ping)).mp hperm
  rw [hsent, hframes] at hflatten
  exact absurd (congrArg List.length hflatten) (by decide)

end SharedBike.Dispatch
