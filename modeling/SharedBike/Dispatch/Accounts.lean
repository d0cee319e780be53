import SharedBike.Gateway.Standing
import SharedBike.Dispatch.Service

/-!
# The account of replies

`Accounted` ties the journal of a `Service` to its state. For a connection
that is open, what was queued is what was sent followed by its send queue,
and every reply that came about is queued, in the outbox or in the response
ring. A connection that is open was open ever since it was accepted, so what
a step does to closing connections does not matter (`Accounted.pass`).
-/

namespace SharedBike.Dispatch

open SharedBike.Lib SharedBike.Wire SharedBike.Ipc SharedBike.Gateway

namespace Service

/-- The requests that the reader of Dispatch has not taken. -/
def waiting (s : System) : List ReqSlot := s.requests.flatMap fun ch => ch.items.drop ch.taken

/-- The responses that the gateway has not read. -/
def unread (ch : Channel RspSlot) : List (Nat × Bytes) :=
  (ch.items.drop ch.taken).map fun x => (x.rsp.connId, x.rsp.payload)

/-- The id that the next connection gets. -/
def nextId (s : System) : Nat := s.gateway.engine.nextConnId

/-- What stands at an id that is in use or comes next: an open connection, or one
that is still to be accepted. -/
def Held (s : System) (id : Nat) (o : Out) : Prop :=
  s.gateway.engine.out id = some o ∧ o.state ≠ .closing ∨ id = nextId s ∧ o = ⟨.active, [], 0⟩

/-- The journal is right about every connection that is open. -/
structure Accounted (s : Service) : Prop where
  gateway : s.system.gateway.Inv fun _ => False
  known : ∀ t ∈ s.system.traces, t.connId < nextId s.system
  logged : ∀ p ∈ s.journal.produced ++ s.journal.queued ++ s.journal.sent ++
    replies s.system.gateway.outbox, p.1 < nextId s.system
  taken : s.system.responses.taken ≤ s.system.responses.items.length
  sized : ∀ x ∈ s.system.responses.items,
    x.rsp.payload.length ≠ 0 ∧ x.rsp.payload.length ≤ RspRing.kPayloadMax
  filled : ∀ r ∈ s.system.replies ++ s.system.flushing, r.frame.length ≠ 0
  /-- What was queued is what was sent, followed by the send queue. -/
  sent : ∀ {id o}, s.system.gateway.engine.out id = some o → o.state ≠ .closing →
    (forConn id s.journal.sent).flatten ++ o.sendQ.flatten = (forConn id s.journal.queued).flatten
  /-- No reply is lost on its way to the queue. -/
  produced : ∀ {id}, s.system.gateway.engine.Open id → (forConn id s.journal.produced).Perm
    (forConn id s.journal.queued ++ forConn id (replies s.system.gateway.outbox) ++
      forConn id (unread s.system.responses))

variable {opt : GatewayOptions} {s : Service} {t : System} {r : Journal} {id : Nat} {o : Out}
  {g : MainLoop} {ev : MainLoop.Event} {ok : Service → Step → Prop} {u : System} {b : Batch}
  {x : SinkResult} {o' : Out} {op : UringOp} {step : Step} {rings : Nat}

theorem forConn_eq_nil {l : List (Nat × Bytes)} (h : ∀ p ∈ l, p.1 ≠ id) : forConn id l = [] := by
  unfold forConn
  rw [List.filter_eq_nil_iff.mpr fun p hp => by simpa using h p hp]
  rfl

section

variable (h : s.Accounted)

include h

/-- Nothing is known of an id that has not been given out. -/
theorem Accounted.fresh (hid : id = nextId s.system) :
    forConn id s.journal.produced = [] ∧ forConn id s.journal.queued = [] ∧
      forConn id s.journal.sent = [] ∧ forConn id (replies s.system.gateway.outbox) = [] ∧
        forConn id (unread s.system.responses) = [] := by
  have hlogged := h.logged
  simp only [List.forall_mem_append] at hlogged
  obtain ⟨⟨⟨hproduced, hqueued⟩, hsent⟩, houtbox⟩ := hlogged
  have hnil : ∀ {l : List (Nat × Bytes)}, (∀ p ∈ l, p.1 < nextId s.system) → forConn id l = [] :=
    fun hl => forConn_eq_nil fun p hp => by have hlt := hl p hp; omega
  refine ⟨hnil hproduced, hnil hqueued, hnil hsent, hnil houtbox, hnil fun p hp => ?_⟩
  obtain ⟨x, hx, rfl⟩ := List.mem_map.mp hp
  exact (System.forall_traces.mp h.known).2.2.2.2 x (List.mem_of_mem_drop hx)

theorem Accounted.held (ho : Held s.system id o) :
    (forConn id s.journal.sent).flatten ++ o.sendQ.flatten =
        (forConn id s.journal.queued).flatten ∧
      (forConn id s.journal.produced).Perm
        (forConn id s.journal.queued ++ forConn id (replies s.system.gateway.outbox) ++
          forConn id (unread s.system.responses)) := by
  rcases ho with ⟨ho, hopen⟩ | ⟨hid, rfl⟩
  · exact ⟨h.sent ho hopen, h.produced ⟨o, ho, hopen⟩⟩
  · obtain ⟨hproduced, hqueued, hsent, houtbox, hunread⟩ := h.fresh hid
    rw [hproduced, hqueued, hsent, houtbox, hunread]
    exact ⟨rfl, .refl _⟩

/-- **What a step has to keep.** A connection that is open afterwards was held
before; the step sends from the front of its queue and queues behind; and the
replies that it adds or moves are the ones it says. -/
theorem Accounted.pass (hgateway : t.gateway.Inv fun _ => False)
    (hknown : ∀ x ∈ t.traces, x.connId < nextId t) (hnext : nextId s.system ≤ nextId t)
    (hlogged : ∀ p ∈ r.produced ++ r.queued ++ r.sent ++ replies t.gateway.outbox, p.1 < nextId t)
    (htaken : t.responses.taken ≤ t.responses.items.length)
    (hsized : ∀ x ∈ t.responses.items,
      x.rsp.payload.length ≠ 0 ∧ x.rsp.payload.length ≤ RspRing.kPayloadMax)
    (hfilled : ∀ x ∈ t.replies ++ t.flushing, x.frame.length ≠ 0)
    (hconn : ∀ {id o'}, t.gateway.engine.out id = some o' → o'.state ≠ .closing →
      ∃ o, Held s.system id o ∧
        (forConn id r.sent).flatten ++ o'.sendQ.flatten =
          o.sendQ.flatten ++ (forConn id r.queued).flatten ∧
        (forConn id r.produced ++ forConn id (replies s.system.gateway.outbox) ++
            forConn id (unread s.system.responses)).Perm
          (forConn id r.queued ++ forConn id (replies t.gateway.outbox) ++
            forConn id (unread t.responses))) :
    Accounted ⟨t, s.journal.append r⟩ := by
  have hold := h.logged
  simp only [List.forall_mem_append] at hold hlogged
  have hlater : ∀ {l : List (Nat × Bytes)}, (∀ p ∈ l, p.1 < nextId s.system) →
      ∀ p ∈ l, p.1 < nextId t := fun hl p hp => Nat.lt_of_lt_of_le (hl p hp) hnext
  refine ⟨hgateway, hknown, ?_, htaken, hsized, hfilled, ?_, ?_⟩
  · simp only [Journal.append, List.forall_mem_append]
    exact ⟨⟨⟨⟨hlater hold.1.1.1, hlogged.1.1.1⟩, hlater hold.1.1.2, hlogged.1.1.2⟩,
      hlater hold.1.2, hlogged.1.2⟩, hlogged.2⟩
  · intro id o' ho' hopen
    obtain ⟨o, ho, hqueue, -⟩ := hconn ho' hopen
    simp only [Journal.append, forConn_append, List.flatten_append]
    rw [List.append_assoc, hqueue, ← List.append_assoc, (h.held ho).1]
  · rintro id ⟨o', ho', hopen⟩
    obtain ⟨o, ho, -, hmoved⟩ := hconn ho' hopen
    have hbefore := (h.held ho).2
    simp only [Journal.append, forConn_append]
    rw [List.perm_iff_count] at hbefore hmoved ⊢
    intro a
    have h₁ := hbefore a
    have h₂ := hmoved a
    simp only [List.count_append] at h₁ h₂ ⊢
    omega

/-! ## The steps of Dispatch -/

/-- A step that leaves the gateway alone and publishes what it says. -/
theorem Accounted.publish (hcarries : System.Carries s.system t)
    (htaken : t.responses.taken ≤ t.responses.items.length)
    (hsized : ∀ x ∈ t.responses.items,
      x.rsp.payload.length ≠ 0 ∧ x.rsp.payload.length ≤ RspRing.kPayloadMax)
    (hfilled : ∀ x ∈ t.replies ++ t.flushing, x.frame.length ≠ 0) (new : List (Nat × Bytes))
    (hnew : ∀ p ∈ new, p.1 < nextId s.system)
    (hunread : unread t.responses = unread s.system.responses ++ new) :
    Accounted ⟨t, s.journal.append { produced := new }⟩ := by
  have hgateway := hcarries.gateway
  have hlogged := h.logged
  have hid : nextId t = nextId s.system := by rw [nextId, hgateway]; rfl
  simp only [List.forall_mem_append] at hlogged
  refine h.pass (by rw [hgateway]; exact h.gateway) ?_ (Nat.le_of_eq hid.symm) ?_ htaken hsized
    hfilled ?_
  · intro x hx
    rw [hid]
    exact h.known x (hcarries.traces x hx)
  · rw [hid, hgateway]
    simp only [List.append_nil, List.forall_mem_append]
    exact ⟨hnew, hlogged.2⟩
  · intro id o' ho' hopen
    rw [hgateway] at ho' ⊢
    refine ⟨o', .inl ⟨ho', hopen⟩, by simp, ?_⟩
    rw [hunread, forConn_append, forConn_nil, List.nil_append, List.append_assoc,
      ← List.append_assoc (forConn id (replies _))]
    exact List.perm_append_comm

/-- A step that leaves the gateway and the response ring alone. -/
theorem Accounted.aside (hcarries : System.Carries s.system t)
    (hresponses : t.responses = s.system.responses)
    (hfilled : ∀ x ∈ t.replies ++ t.flushing, x.frame.length ≠ 0) :
    Accounted ⟨t, s.journal.append {}⟩ := by
  refine h.publish hcarries ?_ ?_ hfilled [] (by simp) ?_
  · rw [hresponses]
    exact h.taken
  · rw [hresponses]
    exact h.sized
  · rw [hresponses, List.append_nil]

theorem Accounted.business {i : Nat} {frame : Option Bytes}
    (hrun : s.system.business i frame = some t) : Accounted ⟨t, s.journal.append {}⟩ := by
  have hcarries := System.business_carries hrun
  obtain ⟨task, -, rfl⟩ := System.business_eq hrun
  refine h.aside hcarries rfl ?_
  have hfilled := h.filled
  simp only [List.forall_mem_append] at hfilled ⊢
  refine ⟨⟨hfilled.1, fun x hx => ?_⟩, hfilled.2⟩
  obtain ⟨bytes, stamped, -, hne, hstamp, rfl⟩ := System.ReqSlot.mem_reply hx
  rw [length_stampSeq hstamp]
  exact fun hzero => hne (List.eq_nil_of_length_eq_zero hzero)

theorem Accounted.read {ring : Nat} {posted : Bool}
    (hread : s.system.read ring posted = some t) : Accounted ⟨t, s.journal.append {}⟩ := by
  have hcarries := System.read_carries hread
  obtain ⟨ch, slot, -, -, rfl⟩ := System.read_eq hread
  exact h.aside hcarries rfl h.filled

theorem Accounted.releaseRequests {ring : Nat}
    (hrelease : s.system.releaseRequests ring = some t) : Accounted ⟨t, s.journal.append {}⟩ := by
  have hcarries := System.releaseRequests_carries hrelease
  obtain ⟨ch, -, rfl⟩ := System.releaseRequests_eq hrelease
  exact h.aside hcarries rfl h.filled

theorem Accounted.drainReplies (hdrain : s.system.drainReplies = some t) :
    Accounted ⟨t, s.journal.append {}⟩ := by
  have hcarries := System.drainReplies_carries hdrain
  obtain ⟨-, rfl⟩ := System.drainReplies_eq hdrain
  refine h.aside hcarries rfl ?_
  have hfilled := h.filled
  simp only [List.forall_mem_append] at hfilled
  exact hfilled.1

theorem Accounted.dropReplies :
    Accounted ⟨{ s.system with flushing := [] }, s.journal.append {}⟩ := by
  refine h.aside (System.dropReplies_carries _) rfl ?_
  have hfilled := h.filled
  simp only [List.forall_mem_append] at hfilled
  simpa using hfilled.1

theorem Accounted.releaseResponses :
    Accounted ⟨{ s.system with responses := s.system.responses.release }, s.journal.append {}⟩ := by
  refine h.publish (System.releaseResponses_carries _) (Nat.zero_le _) ?_ h.filled []
    (by simp) ?_
  · exact fun x hx => h.sized x (List.mem_of_mem_drop hx)
  · rw [List.append_nil]
    rfl

theorem Accounted.flush (hflush : s.system.flush = some t) :
    Accounted ⟨t, s.journal.append { produced := published s.system }⟩ := by
  have hcarries := System.flush_carries hflush
  have hfilled := h.filled
  obtain ⟨x, rest, hitems, hcases⟩ := System.flush_cases hflush
  rw [hitems, List.forall_mem_append, List.forall_mem_cons] at hfilled
  have hrest : ∀ y ∈ s.system.replies ++ rest, y.frame.length ≠ 0 :=
    List.forall_mem_append.mpr ⟨hfilled.1, hfilled.2.2⟩
  rcases hcases with ⟨hlong, rfl⟩ | ⟨hfits, rfl⟩
  · rw [published_of_long hitems hlong]
    exact h.publish hcarries h.taken h.sized hrest [] (by simp) (by simp)
  · rw [published_of_fits hitems hfits]
    refine h.publish hcarries ?_ ?_ hrest _ ?_ ?_
    · have htaken := h.taken
      simp only [List.length_append]
      omega
    · refine List.forall_mem_append.mpr ⟨h.sized, List.forall_mem_singleton.mpr ?_⟩
      exact ⟨hfilled.2.1, hfits⟩
    · refine List.forall_mem_singleton.mpr ?_
      exact (System.forall_traces.mp h.known).2.2.2.1 x (by rw [hitems]; exact .head _)
    · simp only [unread, List.drop_append_of_le_length h.taken, List.map_append]
      rfl

end

/-! ## The steps of the gateway -/

/-- Who has a batch has been given its id. -/
theorem batch_known {free : Nat → Prop} {due : List OutboxItem} {T : Table}
    (h : T.Lifecycle free due) (hb : b ∈ T.batches) : b.connId < T.nextConnId := by
  refine Nat.not_le.mp fun hle => ?_
  have howed : 0 < T.owed due b.connId := Table.owed_of_batch hb
  rw [h.fresh hle] at howed
  cases howed

/-- What a router's frame becomes: nothing, or a frame with the request's number. -/
def stamped (seq : UInt32) : Option Bytes → List Bytes
  | none => []
  | some bytes => if bytes.isEmpty then [] else (stampSeq bytes seq).toList

theorem replies_respond (b : Batch) (f : Frame) (bytes : Bytes) :
    replies (b.respond f bytes) = (stamped f.seq (some bytes)).map (Prod.mk b.connId) := by
  unfold Batch.respond stamped
  dsimp only
  split
  · rfl
  · cases stampSeq bytes f.seq <;> rfl

/-- The replies among what a worker gives back: that of the sink, if the sink gives
one for the next frame. -/
theorem replies_step (b : Batch) (x : SinkResult) :
    replies (b.step x).1 = match b.frames, x with
      | f :: _, .reply bytes => (stamped f.seq (some bytes)).map (Prod.mk b.connId)
      | _, _ => [] := by
  unfold Batch.step
  cases b.frames with
  | nil =>
    unfold Batch.last
    cases b.bad <;> rfl
  | cons f rest =>
    cases x with
    | reply bytes => exact replies_respond b f bytes
    | threw => rfl
    | overload => rfl
    | malformed => rfl

/-- The replies of a worker are for the connection of its batch. -/
theorem step_replies {p : Nat × Bytes} (hp : p ∈ replies (b.step x).1) :
    p.1 = b.connId := by
  rw [replies_step] at hp
  split at hp
  · obtain ⟨bytes, -, rfl⟩ := List.mem_map.mp hp
    rfl
  · cases hp

/-- A worker's step puts its items into the outbox; the replies among them have
just come about. -/
theorem Accounted.work (h : s.Accounted) (hstage : s.system.gateway.stage ≠ .exited) {i : Nat}
    (hwork : s.system.gateway.work i x = some g) (hb : s.system.gateway.engine.batches[i]? = some b)
    (handed : List Request) (hu : u = { s.system with requests := u.requests })
    (htraces : ∀ y ∈ u.traces, y ∈ s.system.traces ∨ y.connId = b.connId) :
    Accounted ⟨{ u with gateway := g },
      s.journal.append { handed := handed, produced := replies (b.step x).1 }⟩ := by
  obtain ⟨b', hb', hg⟩ := MainLoop.work_eq hwork
  rw [hb] at hb'
  obtain rfl := Option.some.inj hb'
  have houtbox : g.outbox = s.system.gateway.outbox ++ (b.step x).1 := by rw [hg]
  have hout : g.engine.out = s.system.gateway.engine.out := by rw [hg]; rfl
  have hbatch := batch_known (h.gateway.lifecycle hstage) (List.mem_of_getElem? hb)
  have hlogged := h.logged
  simp only [List.forall_mem_append] at hlogged
  have hnext : nextId { u with gateway := g } = nextId s.system := by rw [nextId, hg]; rfl
  have hresponses : u.responses = s.system.responses := by rw [hu]
  refine h.pass (h.gateway.work hwork) ?_ (Nat.le_of_eq hnext.symm) ?_ ?_ ?_ ?_ ?_
  · intro y hy
    rw [hnext]
    rcases htraces y hy with hold | hnew
    · exact h.known y hold
    · rw [hnew]
      exact hbatch
  · rw [hnext]
    simp only [houtbox, replies_append, List.append_nil, List.forall_mem_append]
    have hnew : ∀ p ∈ replies (b.step x).1, p.1 < nextId s.system := fun p hp => by
      rw [step_replies hp]
      exact hbatch
    exact ⟨hnew, hlogged.2, hnew⟩
  · rw [show ({ u with gateway := g } : System).responses = _ from hresponses]
    exact h.taken
  · rw [show ({ u with gateway := g } : System).responses = _ from hresponses]
    exact h.sized
  · have hsame : ({ u with gateway := g } : System).replies ++ u.flushing =
        s.system.replies ++ s.system.flushing := by rw [hu]
    rw [hsame]
    exact h.filled
  · intro id o' ho' hopen
    change g.engine.out id = some o' at ho'
    rw [hout] at ho'
    refine ⟨o', .inl ⟨ho', hopen⟩, by simp, ?_⟩
    simp only [houtbox, hresponses, replies_append, forConn_append, forConn_nil, List.nil_append]
    exact List.Perm.append_right _ List.perm_append_comm

/-- The ring's sink gives no reply, only the word that it took the request. -/
theorem replies_ask {ring : Nat} (hask : s.system.ask ring b = (x, u)) :
    replies (b.step x).1 = [] := by
  have hx : ∀ bytes, x = .reply bytes → bytes = [] := by
    intro bytes hx
    rcases System.ask_cases hask with ⟨-, hne⟩ | ⟨_, _, _, -, -, htook, -⟩
    · exact absurd hx (hne bytes)
    · exact SinkResult.reply.inj (hx.symm.trans htook)
  rw [replies_step]
  split
  next f rest bytes _ =>
    rw [hx bytes rfl]
    rfl
  next => rfl

/-- A response of a proper size is put on a queue when its connection takes it. -/
theorem pushes_eq {e : Engine} {x : Response}
    (hsize : x.payload.length ≠ 0 ∧ x.payload.length ≤ RspRing.kPayloadMax) :
    System.pushes opt e x = e.takes opt x.connId x.payload := by
  simp only [System.pushes, Engine.takes, Engine.out, hsize.1, hsize.2, ne_eq, not_false_eq_true,
    decide_true, Bool.true_and, Option.any_map]
  rfl

/-- Reading a slot takes it off the front of what is unread. -/
theorem unread_advance {ch : Channel RspSlot} {slot : RspSlot} (h : ch.peek = some slot) :
    unread ch = (slot.rsp.connId, slot.rsp.payload) :: unread ch.advance := by
  obtain ⟨hlt, hget⟩ := List.getElem?_eq_some_iff.mp h
  rw [unread, List.drop_eq_getElem_cons hlt, hget]
  rfl

/-- A slot of the response ring is delivered. -/
theorem Accounted.deliver (h : s.Accounted) {answers : List Bool}
    (hdeliver : s.system.deliver opt answers = some t) :
    Accounted ⟨t, s.journal.append { queued := delivers opt s.system }⟩ := by
  obtain ⟨slot, hpeek, hstage, rfl⟩ := System.deliver_eq hdeliver
  rw [delivers, hpeek]
  dsimp only
  have hlogged := h.logged
  simp only [List.forall_mem_append] at hlogged
  have hbooks : ({ s.system.gateway.engine with answers := answers } : Engine).toTable.Lifecycle
    (fun _ => False) s.system.gateway.outbox := h.gateway.lifecycle hstage
  have hslot : slot ∈ s.system.responses.items := List.mem_of_getElem? hpeek
  have hsized := h.sized slot hslot
  have hkeeps := Engine.deliver_keeps (k := .accept) nofun opt
    { s.system.gateway.engine with answers := answers } slot.rsp
  have hlater : ∀ {n : Nat}, n < nextId s.system → n < (Engine.deliver opt
      { s.system.gateway.engine with answers := answers } slot.rsp).nextConnId :=
    fun hn => Nat.lt_of_lt_of_le hn hkeeps.nextConnId
  have hknown := (System.forall_traces.mp h.known).2.2.2.2 slot hslot
  refine h.pass (.of_lifecycle (Engine.deliver_lifecycle hbooks _)) (fun x hx => hlater (h.known x hx))
    hkeeps.nextConnId ?_ ?_ h.sized h.filled ?_
  · simp only [List.nil_append, List.append_nil, List.forall_mem_append]
    refine ⟨fun p hp => ?_, fun p hp => hlater (hlogged.2 p hp)⟩
    split at hp
    · rw [List.mem_singleton] at hp
      subst hp
      exact hlater hknown
    · cases hp
  · exact (List.getElem?_eq_some_iff.mp hpeek).1
  · intro id o' ho' hopen
    obtain ⟨o, ho, hopen, hq, htakes⟩ := Engine.deliver_open hbooks hsized ho' hopen
    have hqueued : forConn id (if System.pushes opt s.system.gateway.engine slot.rsp then
        [(slot.rsp.connId, slot.rsp.payload)] else []) =
          forConn id [(slot.rsp.connId, slot.rsp.payload)] := by
      by_cases hid : slot.rsp.connId = id
      · rw [if_pos]
        have hfits := htakes hid
        subst hid
        rw [pushes_eq hsized]
        exact hfits
      · split
        · rfl
        · rw [forConn_of_ne hid, forConn_nil]
    refine ⟨o, .inl ⟨ho, hopen⟩, ?_, ?_⟩
    · rw [hqueued, hq]
      simp
    · have hfront : forConn id (unread s.system.responses) =
          forConn id [(slot.rsp.connId, slot.rsp.payload)] ++
            forConn id (unread s.system.responses.advance) := by
        rw [unread_advance hpeek, ← forConn_append]
        rfl
      rw [hqueued, hfront, forConn_nil, List.nil_append, ← List.append_assoc]
      exact List.Perm.append_right _ List.perm_append_comm

/-- The main loop does something other than harvesting a completion. -/
theorem turn_open {g g' : MainLoop} {action : MainLoop.Action} (h : g.Inv fun _ => False)
    (halone : System.alone action = true) (hcqe : ∀ o q, action ≠ .cqe o q)
    (hstep : g.step opt action = some g') (ho' : g'.engine.out id = some o')
    (hopen : o'.state ≠ .closing) :
    g.engine.out id = some o' ∧ g'.outbox = g.outbox := by
  -- the connection stays as it is, or is closed
  have hquiet : ∀ {ok : Bool} {e : Engine} {stage : Stage}, g.turn ok e stage = some g' →
      (ok = true → e.out id = g.engine.out id ∨ Out.Shut (e.out id)) →
        g.engine.out id = some o' ∧ g'.outbox = g.outbox := by
    intro ok e stage hturn hor
    obtain ⟨hok, rfl⟩ := MainLoop.turn_eq hturn
    rcases hor hok with hsame | hshut
    · exact ⟨hsame ▸ ho', rfl⟩
    · exact absurd hopen (hshut.not_open ho')
  cases action with
  | cqe o q => exact absurd rfl (hcqe o q)
  | work i x => cases halone
  | drainResponses peerDead rs => cases halone
  | sweep order =>
    refine hquiet hstep fun hok => ?_
    exact Engine.sweepIdle_out (h.lifecycle fun hexit => by simp [hexit] at hok) order id
  | requestStop =>
    cases hstep
    exact ⟨ho', rfl⟩
  | checkStop =>
    exact hquiet hstep fun _ => .inl (by rw [Engine.out_congr (Engine.checkStop_conns _)])
  | leave failed => exact hquiet hstep fun _ => .inl rfl
  | reap order =>
    refine hquiet hstep fun hok => ?_
    exact Engine.foldl_closeId_out (h.lifecycle fun hexit => by simp [hexit] at hok) _ id
  | exit => exact hquiet hstep fun _ => .inl rfl
  | forceClose order => exact hquiet hstep fun _ => .inr Out.shut_none

/-- The eventfd has been read, and the outbox is drained. -/
theorem wakeup_open {answers : List Bool} {now : Int} {o : Nat} {q : Engine.Completion}
    (hbooks : ({ g.engine with answers := answers, now := now } : Engine).toTable.Lifecycle
      (fun _ => False) g.outbox)
    (hop : g.engine.ops o = some op) (hwake : op.kind = .wakeup)
    (ho' : (Engine.onCqe opt o op q g.outbox { g.engine with answers := answers, now := now }).out
      id = some o')
    (hopen : o'.state ≠ .closing) :
    ∃ x, (g.engine.out id = some x ∧ x.state ≠ .closing ∨
        id = g.engine.nextConnId ∧ x = ⟨.active, [], 0⟩) ∧
      (forConn id (g.sends ⟨.cqe o q, answers, now⟩)).flatten ++ o'.sendQ.flatten =
        x.sendQ.flatten ++ (forConn id (g.queues opt ⟨.cqe o q, answers, now⟩)).flatten ∧
      forConn id (replies g.outbox) =
        forConn id (g.queues opt ⟨.cqe o q, answers, now⟩) ++
          forConn id (replies (if op.kind = .wakeup then [] else g.outbox)) := by
  have hsends : g.sends ⟨.cqe o q, answers, now⟩ = [] := by
    obtain ⟨kind, conn⟩ := op
    cases hwake
    simp [MainLoop.sends, hop]
  have hqueues : g.queues opt ⟨.cqe o q, answers, now⟩ = Engine.queuedItems opt
      (Engine.submitEventfdRead { g.engine with
        toTable := g.engine.toTable.dropOp o, answers := answers, now := now }) g.outbox := by
    simp [MainLoop.queues, hop, hwake]
  have hbefore : (Engine.submitEventfdRead { g.engine with
      toTable := g.engine.toTable.dropOp o, answers := answers, now := now }).out =
        g.engine.out := Engine.out_congr (Engine.submitOp_conns _ _)
  rw [Engine.onCqe_wakeup hwake] at ho'
  obtain ⟨x, hx, hxopen, hq, hqueued⟩ := Engine.drainOutbox_open
    (Engine.wakeup_lifecycle hbooks hop hwake) ho' hopen
  rw [hbefore] at hx
  refine ⟨x, .inl ⟨hx, hxopen⟩, ?_, ?_⟩
  · rw [hsends, hqueues, hqueued, hq]
    simp
  · rw [hqueues, hqueued, if_pos hwake]
    simp

/-- Only the completion of a `send` of its own hands over bytes of a connection. -/
theorem forConn_sends_of_ne (answers : List Bool) (now : Int) {o : Nat}
    (hop : g.engine.ops o = some op) (hne : op ≠ ⟨.send, some id⟩) (q : Engine.Completion) :
    forConn id (g.sends ⟨.cqe o q, answers, now⟩) = [] := by
  simp only [MainLoop.sends, hop]
  split
  next j heq =>
    cases heq
    refine forConn_eq_nil fun p hp => ?_
    obtain ⟨x, -, rfl⟩ := List.mem_map.mp hp
    rintro rfl
    exact hne rfl
  next => rfl

theorem sends_eq (answers : List Bool) (now : Int) {o : Nat} {c : Connection}
    (hop : g.engine.ops o = some ⟨.send, some id⟩) (hc : g.engine.conns id = some c)
    (q : Engine.Completion) :
    g.sends ⟨.cqe o q, answers, now⟩ = [(id, c.sendQ.flatten.take q.res.toNat)] := by
  simp [MainLoop.sends, hop, Engine.out_of_conns hc, Connection.out]

/-- Any other completion leaves the outbox alone. -/
theorem completion_open (answers : List Bool) (now : Int) {o : Nat} {q : Engine.Completion}
    (hop : g.engine.ops o = some op) {y : Option Connection}
    (hcompletes : Engine.Completes { g.engine with answers := answers, now := now } op q.res id y)
    (ho' : y.map Connection.out = some o') (hopen : o'.state ≠ .closing) :
    ∃ x, (g.engine.out id = some x ∧ x.state ≠ .closing ∨
        id = g.engine.nextConnId ∧ x = ⟨.active, [], 0⟩) ∧
      (forConn id (g.sends ⟨.cqe o q, answers, now⟩)).flatten ++ o'.sendQ.flatten =
        x.sendQ.flatten := by
  have hidle : op ≠ ⟨.send, some id⟩ → forConn id (g.sends ⟨.cqe o q, answers, now⟩) = [] :=
    fun hne => forConn_sends_of_ne answers now hop hne q
  cases hcompletes with
  | same hne => exact ⟨o', .inl ⟨ho', hopen⟩, by rw [hidle hne]; rfl⟩
  | refused _ hshut | hungUp _ hshut | finished _ _ _ hshut _ | failed _ _ _ _ hshut =>
    exact absurd hopen (hshut.not_open ho')
  | accepted hkind _ hnew =>
    obtain rfl := Option.some.inj (hnew.symm.trans ho')
    refine ⟨_, .inr ⟨rfl, rfl⟩, ?_⟩
    rw [hidle fun heq => by rw [heq] at hkind; cases hkind]
    rfl
  | received hkind hc hcopen hnew =>
    obtain rfl := Option.some.inj (hnew.symm.trans ho')
    refine ⟨_, .inl ⟨Engine.out_of_conns hc, hcopen⟩, ?_⟩
    rw [hidle (by rw [hkind]; nofun)]
    rfl
  | @sent _ c _ hkind hc hcopen _ hnew =>
    obtain rfl := Option.some.inj (hnew.symm.trans ho')
    refine ⟨c.out, .inl ⟨Engine.out_of_conns hc, hcopen⟩, ?_⟩
    rw [hkind] at hop
    rw [sends_eq answers now hop hc q, forConn_self, Out.flatten_pop]
    simp [Connection.out]

/-- Nothing is queued or sent but by completions. -/
theorem records_turn (hne : ∀ o q, ev.action ≠ .cqe o q) :
    g.queues opt ev = [] ∧ g.sends ev = [] := by
  refine ⟨?_, ?_⟩
  · unfold MainLoop.queues
    split
    next heq => exact absurd heq (hne _ _)
    next => rfl
  · unfold MainLoop.sends
    split
    next heq => exact absurd heq (hne _ _)
    next => rfl

/-- **An event of the main loop.** A connection that is open afterwards was held
before, sends from the front of its queue, queues what the outbox had for it, and
nothing of that gets lost. -/
theorem next_open {g g' : MainLoop} (h : g.Inv fun _ => False)
    (halone : System.alone ev.action = true) (hnext : g.next opt ev = some g')
    (ho' : g'.engine.out id = some o') (hopen : o'.state ≠ .closing) :
    ∃ o, (g.engine.out id = some o ∧ o.state ≠ .closing ∨
        id = g.engine.nextConnId ∧ o = ⟨.active, [], 0⟩) ∧
      (forConn id (g.sends ev)).flatten ++ o'.sendQ.flatten =
        o.sendQ.flatten ++ (forConn id (g.queues opt ev)).flatten ∧
      forConn id (replies g.outbox) =
        forConn id (g.queues opt ev) ++ forConn id (replies g'.outbox) := by
  obtain ⟨action, answers, now⟩ := ev
  have h' : MainLoop.Inv (fun _ => False)
      { g with engine := { g.engine with answers := answers, now := now } } := ⟨h.lifecycle, h.fds⟩
  by_cases hcqe : ∃ o q, action = .cqe o q
  · obtain ⟨o, q, rfl⟩ := hcqe
    obtain ⟨op, hop, hstage, -, rfl⟩ := MainLoop.cqe_eq hnext
    have hbooks := h'.lifecycle hstage
    change g.engine.ops o = some op at hop
    by_cases hwake : op.kind = .wakeup
    · exact wakeup_open hbooks hop hwake ho' hopen
    · have hring : q.responses = [] := List.isEmpty_iff.mp halone
      obtain ⟨x, hx, hsent⟩ := completion_open answers now hop
        (Engine.onCqe_completes hbooks hop hwake hring id) ho' hopen
      refine ⟨x, hx, ?_, ?_⟩
      · simp [MainLoop.queues, hop, hwake, hsent]
      · simp [MainLoop.queues, hop, hwake]
  · have hne : ∀ o q, action ≠ .cqe o q := fun o q heq => hcqe ⟨o, q, heq⟩
    obtain ⟨ho, houtbox⟩ := turn_open h' halone hne hnext ho' hopen
    obtain ⟨hqueues, hsends⟩ : g.queues opt ⟨action, answers, now⟩ = [] ∧
      g.sends ⟨action, answers, now⟩ = [] := records_turn hne
    refine ⟨o', .inl ⟨ho, hopen⟩, ?_, ?_⟩
    · simp [hsends, hqueues]
    · rw [hqueues, houtbox]
      rfl

/-- An event leaves the outbox alone or empties it. -/
theorem next_outbox {g g' : MainLoop} (halone : System.alone ev.action = true)
    (hnext : g.next opt ev = some g') : g'.outbox = g.outbox ∨ g'.outbox = [] := by
  obtain ⟨action, answers, now⟩ := ev
  change MainLoop.step opt _ action = some g' at hnext
  cases action with
  | cqe o q =>
    obtain ⟨op, -, -, -, rfl⟩ := MainLoop.cqe_eq hnext
    dsimp only
    split
    · exact .inr rfl
    · exact .inl rfl
  | work i x => cases halone
  | drainResponses peerDead rs => cases halone
  | requestStop =>
    cases hnext
    exact .inl rfl
  | _ =>
    obtain ⟨-, rfl⟩ := MainLoop.turn_eq hnext
    exact .inl rfl

/-- What a step of the main loop hands over belongs to connections that are there. -/
theorem sends_known {free : Nat → Prop} {due : List OutboxItem}
    (h : g.engine.toTable.Lifecycle free due) {p : Nat × Bytes} (hp : p ∈ g.sends ev) :
    p.1 < g.engine.nextConnId := by
  unfold MainLoop.sends at hp
  split at hp
  · split at hp
    next j _ =>
      obtain ⟨x, hx, rfl⟩ := List.mem_map.mp hp
      obtain ⟨c, hc, -⟩ := Option.map_eq_some_iff.mp (Option.mem_toList.mp hx)
      exact (h.booked.named hc).2
    next => cases hp
  · cases hp

theorem Accounted.event (h : s.Accounted) (hstage : s.system.gateway.stage ≠ .exited)
    (halone : System.alone ev.action = true) (hnext : s.system.gateway.next opt ev = some g)
    {watched : List Nat} :
    Accounted ⟨{ s.system with gateway := g }, s.journal.append
      { queued := s.system.gateway.queues opt ev, sent := s.system.gateway.sends ev,
        watched := watched }⟩ := by
  obtain ⟨k, hkeeps⟩ := MainLoop.next_keeps hnext
  have hid : nextId s.system ≤ nextId { s.system with gateway := g } := hkeeps.nextConnId
  have hlogged := h.logged
  simp only [List.forall_mem_append] at hlogged
  have hlater : ∀ {n : Nat}, n < nextId s.system → n < nextId { s.system with gateway := g } :=
    fun hn => Nat.lt_of_lt_of_le hn hid
  refine h.pass (h.gateway.next (fun _ => id) hnext) (fun x hx => hlater (h.known x hx)) hid ?_
    h.taken h.sized h.filled fun ho' hopen => ?_
  · simp only [List.nil_append, List.forall_mem_append]
    refine ⟨⟨fun p hp => hlater ?_, fun p hp => ?_⟩, fun p hp => hlater ?_⟩
    · refine hlogged.2 p ?_
      unfold MainLoop.queues at hp
      split at hp
      · split at hp
        · exact Engine.mem_queuedItems hp
        · cases hp
      · cases hp
    · exact hlater (sends_known (h.gateway.lifecycle hstage) hp)
    · rcases next_outbox halone hnext with hsame | hempty
      · exact hlogged.2 p (hsame ▸ hp)
      · rw [hempty] at hp
        cases hp
  · obtain ⟨o, ho, hsent, houtbox⟩ := next_open h.gateway halone hnext ho' hopen
    refine ⟨o, ho, hsent, ?_⟩
    rw [houtbox, forConn_nil, List.nil_append]

theorem Accounted.call (h : s.Accounted) (hstage : s.system.gateway.stage ≠ .exited) {i : Nat}
    {frame : Option Bytes} (hwork : s.system.gateway.work i (inProcessSink frame) = some g) :
    Accounted ⟨{ s.system with gateway := g },
      s.journal.append (records opt s.system (.call i frame))⟩ := by
  obtain ⟨b, hb, -⟩ := MainLoop.work_eq hwork
  have hanswers : answers i frame s.system = replies (b.step (inProcessSink frame)).1 := by
    rw [answers, hb]
  rw [records, hanswers]
  exact h.work hstage hwork hb _ rfl fun _ => .inl

theorem Accounted.ringWork (h : s.Accounted) (hstage : s.system.gateway.stage ≠ .exited)
    {i ring : Nat} (hwork : s.system.work i ring = some t) :
    Accounted ⟨t, s.journal.append (records opt s.system (.system (.work i ring)))⟩ := by
  obtain ⟨b, x, v, g, hb, hask, hsame, hg, rfl⟩ := System.work_eq hwork
  have hreplies := replies_ask hask
  have hwork' := h.work hstage hg hb (nextRequest i s.system) hsame fun y hy =>
    (System.ask_traces hask y hy).imp_right fun heq => by rw [heq]
  rwa [hreplies] at hwork'

/-- What a step does to the gateway. -/
theorem gateway_cases (hmoves : moves opt u step = some t) :
    t.gateway = u.gateway ∨ (∃ i x, u.gateway.work i x = some t.gateway) ∨
      (∃ ev, step = .system (.gateway ev) ∧ System.alone ev.action = true ∧
        u.gateway.next opt ev = some t.gateway) ∨
      ∃ answers slot, step = .system (.deliver answers) ∧ u.responses.peek = some slot ∧
        u.gateway.stage ≠ .exited ∧ t.gateway = { u.gateway with
          engine := Engine.deliver opt { u.gateway.engine with answers := answers } slot.rsp } := by
  cases step with
  | call i frame =>
    obtain ⟨g, hg, rfl⟩ := moves_call hmoves
    exact .inr (.inl ⟨i, _, hg⟩)
  | system step =>
    cases step with
    | gateway ev =>
      obtain ⟨halone, g, hg, rfl⟩ := System.gateway_eq hmoves
      exact .inr (.inr (.inl ⟨ev, rfl, halone, hg⟩))
    | work i ring =>
      obtain ⟨_, x, _, g, -, -, -, hg, rfl⟩ := System.work_eq (moves_work hmoves)
      exact .inr (.inl ⟨i, x, hg⟩)
    | deliver answers =>
      obtain ⟨slot, hpeek, hstage, rfl⟩ := System.deliver_eq hmoves
      exact .inr (.inr (.inr ⟨answers, slot, rfl, hpeek, hstage, rfl⟩))
    | restart answers => cases hmoves
    | releaseResponses =>
      cases hmoves
      exact .inl rfl
    | read ring posted => exact .inl (System.read_carries hmoves).gateway
    | releaseRequests ring => exact .inl (System.releaseRequests_carries hmoves).gateway
    | business i frame => exact .inl (System.business_carries hmoves).gateway
    | drainReplies => exact .inl (System.drainReplies_carries hmoves).gateway
    | flush => exact .inl (System.flush_carries hmoves).gateway
    | dropReplies =>
      cases hmoves
      exact .inl rfl

/-- A gateway that is not over after a step was not over before. -/
theorem running_before (hmoves : moves opt u step = some t) (hstage : t.gateway.stage ≠ .exited) :
    u.gateway.stage ≠ .exited := by
  intro hexit
  rcases gateway_cases hmoves with hsame | ⟨i, x, hwork⟩ | ⟨ev, -, -, hev⟩ | ⟨-, -, -, -, hrun, -⟩
  · exact hstage (hsame ▸ hexit)
  · obtain ⟨b, -, hg⟩ := MainLoop.work_eq hwork
    exact hstage (by rw [hg]; exact hexit)
  · exact hstage (MainLoop.next_exited hexit hev)
  · exact hrun hexit

/-- **One step** of the gateway, its workers or Dispatch. -/
theorem Accounted.next (h : s.Accounted) (hrun : s.system.gateway.stage ≠ .exited) {s' : Service}
    (hnext : s.next opt step = some s') : s'.Accounted := by
  obtain ⟨t, hmoves, rfl⟩ := Option.map_eq_some_iff.mp hnext
  cases step with
  | call i frame =>
    obtain ⟨g, hg, rfl⟩ := moves_call hmoves
    exact h.call hrun hg
  | system step =>
    cases step with
    | gateway ev =>
      obtain ⟨halone, g, hg, rfl⟩ := System.gateway_eq hmoves
      exact h.event hrun halone hg
    | work i ring => exact h.ringWork hrun (moves_work hmoves)
    | deliver answers => exact h.deliver hmoves
    | restart answers => cases hmoves
    | releaseResponses =>
      cases hmoves
      exact h.releaseResponses
    | read ring posted => exact h.read hmoves
    | releaseRequests ring => exact h.releaseRequests hmoves
    | business i frame => exact h.business hmoves
    | drainReplies => exact h.drainReplies hmoves
    | flush => exact h.flush hmoves
    | dropReplies =>
      cases hmoves
      exact h.dropReplies

theorem Accounted.start (opt : GatewayOptions) (rings : Nat) (answers : List Bool) :
    (start opt rings answers).Accounted := by
  have htraces : (System.start opt rings answers).traces = [] := by
    simp [System.traces, System.start, Channel.empty, List.flatMap_replicate]
  have hnobody : ∀ {id o}, (System.start opt rings answers).gateway.engine.out id = some o → False := by
    intro id o ho
    change (Engine.start opt answers).out id = some o at ho
    rw [Engine.start_out] at ho
    cases ho
  refine ⟨.start opt answers, ?_, by rintro _ ⟨⟩, Nat.le_refl _, by rintro _ ⟨⟩, by rintro _ ⟨⟩, ?_, ?_⟩
  · intro x hx
    change x ∈ (System.start opt rings answers).traces at hx
    rw [htraces] at hx
    cases hx
  · exact fun ho _ => (hnobody ho).elim
  · rintro id ⟨o, ho, -⟩
    exact (hnobody ho).elim

/-! ## When the gateway is over -/

/-- What holds of every run: the account, and when the gateway is over nobody is
connected. -/
theorem accounted_or_over (h : (machine opt rings).ReachableWhile ok s) :
    (s.system.gateway.stage ≠ .exited → s.Accounted) ∧
      (s.system.gateway.stage = .exited → ∀ id, s.system.gateway.engine.conns id = none) := by
  induction h with
  | start hs =>
    obtain ⟨answers, rfl⟩ := hs
    exact ⟨fun _ => .start opt rings answers, nofun⟩
  | @step s s' step hs _ hnext ih =>
    obtain ⟨t, hmoves, rfl⟩ := Option.map_eq_some_iff.mp hnext
    refine ⟨fun hstage => ?_, fun hexit => ?_⟩
    · have hrun := running_before hmoves hstage
      exact (ih.1 hrun).next hrun hnext
    · change t.gateway.stage = .exited at hexit
      rcases gateway_cases hmoves with
        hsame | ⟨i, x, hwork⟩ | ⟨ev, -, -, hev⟩ | ⟨_, _, -, -, hrun, hg⟩
      · rw [hsame] at hexit ⊢
        exact ih.2 hexit
      · obtain ⟨b, -, hg⟩ := MainLoop.work_eq hwork
        rw [hg] at hexit ⊢
        exact ih.2 hexit
      · exact MainLoop.next_over (fun hrun => (ih.1 hrun).gateway.lifecycle hrun) ih.2 hev hexit
      · rw [hg] at hexit
        exact absurd hexit hrun

/-- **The account is right in every run**, until the gateway is over. -/
theorem Accounted.of_reachable (h : (machine opt rings).ReachableWhile ok s)
    (hstage : s.system.gateway.stage ≠ .exited) :
    s.Accounted := (accounted_or_over h).1 hstage

/-- Who is open is so while the gateway runs. -/
theorem running_of_open (h : (machine opt rings).ReachableWhile ok s)
    (hopen : s.system.gateway.engine.Open id) :
    s.system.gateway.stage ≠ .exited := by
  intro hexit
  obtain ⟨o, ho, -⟩ := hopen
  cases ho.symm.trans (Engine.out_of_conns_none ((accounted_or_over h).2 hexit id))

end Service

end SharedBike.Dispatch
