import SharedBike.Wire.Codec
import SharedBike.Dispatch.Accounts
import Mathlib.Data.Multiset.AddSub
import Mathlib.Tactic.Abel

/-!
# Ring mode and in-process mode

Both modes give the same replies, for a router that answers by the event and
the payload alone. In either mode the replies that the requests handed over
will have (`expected`) are those that came about and those that are still on
their way through Dispatch (`Conserved`); in-process nothing is ever on that
way. Together with the account of what came about, a connection that is open
once everything has drained has on its queue exactly the replies to its own
requests, each once and under the number of its request. So two runs that
handed over the same requests agree, whatever their modes.

What a frame needs to pass the response ring is that it fits a slot; a frame
that `encode` gave does (`mem_answer`).
-/

namespace SharedBike.Dispatch

open SharedBike.Lib SharedBike.Wire SharedBike.Ipc SharedBike.Gateway

/-- A router that answers by the event and the payload; `none` is a handler that
threw. A position report gets no answer, and every other answer is empty or
comes from `encode`. -/
structure Router where
  dispatch : UInt16 → Bytes → Option Bytes
  oneWay : ∀ payload, dispatch ridePositionReport payload = some []
  encoded : ∀ {eventId payload frame}, dispatch eventId payload = some frame → frame ≠ [] →
    ∃ f, encode f = .ok frame

namespace Service

/-- The reply to a request, as it goes to the client. -/
def answer (R : Router) (req : Request) : List Bytes :=
  stamped req.seq (R.dispatch req.eventId req.payload)

/-- The replies to requests, with the connections that they are for. -/
def expected (R : Router) (reqs : List Request) : List (Nat × Bytes) :=
  reqs.flatMap fun req => (answer R req).map (Prod.mk req.connId)

def frames (items : List ReplyItem) : List (Nat × Bytes) := items.map fun x => (x.connId, x.frame)

/-- The replies that Dispatch still owes. -/
def owing (R : Router) (s : System) : List (Nat × Bytes) :=
  frames s.flushing ++ frames s.replies ++ expected R (s.tasks.map (·.req)) ++
    expected R ((waiting s).map (·.req))

/-- Nothing is on its way in either direction. -/
@[mk_iff]
structure Drained (s : System) : Prop where
  outbox : replies s.gateway.outbox = []
  requests : waiting s = []
  tasks : s.tasks = []
  replies : s.replies = []
  flushing : s.flushing = []
  responses : unread s.responses = []

instance (s : System) : Decidable (Drained s) := decidable_of_iff _ (drained_iff s).symm

/-- The router is asked and answers; no request is too long for its ring or finds
it full, and Dispatch drops nothing. -/
def Calm (R : Router) (s : Service) : Step → Prop
  | .call i frame => ∀ req ∈ nextRequest i s.system, frame = R.dispatch req.eventId req.payload
  | .system (.work i ring) => ∀ req ∈ nextRequest i s.system,
      req.payload.length ≤ ReqRing.kPayloadMax ∧ ∃ ch ∈ s.system.requests[ring]?.toList,
        ch.items.length ≠ ReqRing.kSlotCount.toNat
  | .system (.read _ posted) => posted = true
  | .system (.business i frame) => ∀ t ∈ s.system.tasks[i]?.toList,
      frame = R.dispatch t.req.eventId t.req.payload
  | .system .dropReplies => False
  | _ => True

instance (R : Router) (s : Service) (step : Step) : Decidable (s.Calm R step) := by
  unfold Calm
  split <;> infer_instance

/-- A request as the sink writes it into a slot. -/
structure Proper (x : ReqSlot) : Prop where
  oneWay : x.oneWay = decide (x.req.eventId = ridePositionReport)
  fits : x.req.payload.length ≤ ReqRing.kPayloadMax

structure Conserved (R : Router) (s : Service) : Prop where
  conserved : (expected R s.journal.handed).Perm (s.journal.produced ++ owing R s.system)
  proper : ∀ x ∈ s.system.tasks ++ waiting s.system, Proper x
  fits : ∀ x ∈ s.system.replies ++ s.system.flushing, x.frame.length ≤ RspRing.kPayloadMax
  taken : ∀ ch ∈ s.system.requests, ch.taken ≤ ch.items.length

variable {R : Router} {opt : GatewayOptions} {s : Service} {t : System} {r : Journal} {rings : Nat}

@[simp] theorem expected_nil : expected R [] = [] := rfl

@[simp] theorem expected_append (l₁ l₂ : List Request) :
    expected R (l₁ ++ l₂) = expected R l₁ ++ expected R l₂ := List.flatMap_append

@[simp] theorem expected_singleton (req : Request) :
    expected R [req] = (answer R req).map (Prod.mk req.connId) := List.flatMap_singleton ..

theorem expected_perm {l₁ l₂ : List Request} (h : l₁.Perm l₂) :
    (expected R l₁).Perm (expected R l₂) := h.flatMap_right _

@[simp] theorem frames_nil : frames [] = [] := rfl

@[simp] theorem frames_append (l₁ l₂ : List ReplyItem) :
    frames (l₁ ++ l₂) = frames l₁ ++ frames l₂ := List.map_append

/-- **An answer is a frame with its request's number**, and fits a slot. -/
theorem mem_answer {req : Request} {frame : Bytes} (h : frame ∈ answer R req) :
    frame.length ≤ RspRing.kPayloadMax ∧
      ∃ f, decodeFrame frame = .ok f frame.length ∧ f.seq = req.seq := by
  unfold answer stamped at h
  split at h
  · cases h
  next bytes hbytes =>
    split at h
    · cases h
    next hne =>
      obtain ⟨f, hf⟩ := R.encoded hbytes fun hnil => hne (by rw [hnil]; rfl)
      have hfits := (layout_of_encode hf).fits
      obtain ⟨stamped, hstamp, hencode⟩ := stampSeq_encode hfits hf req.seq
      rw [hstamp, Option.toList_some, List.mem_singleton] at h
      subst h
      have hlayout := layout_of_encode hencode
      refine ⟨?_, _, decodeFrame_of_layout hlayout, rfl⟩
      have hmax : kHeaderLen + kMaxMessageLen ≤ RspRing.kPayloadMax := by decide
      rw [hlayout.length_eq]
      change kHeaderLen + f.payload.length ≤ _
      omega

/-- A business thread queues the answer to its task. -/
theorem frames_reply {x : ReqSlot} (hx : Proper x) :
    frames (x.reply (R.dispatch x.req.eventId x.req.payload)) =
      (answer R x.req).map (Prod.mk x.req.connId) := by
  have hone := hx.oneWay
  by_cases hevent : x.req.eventId = ridePositionReport
  · -- the router has no answer, and the thread would drop it
    rw [answer, hevent, R.oneWay]
    simp [ReqSlot.reply, stamped]
  · rw [decide_eq_false hevent] at hone
    unfold answer ReqSlot.reply stamped
    rw [hone]
    cases R.dispatch x.req.eventId x.req.payload with
    | none => rfl
    | some bytes =>
      dsimp only
      rw [Bool.false_or]
      split
      · rfl
      · cases stampSeq bytes x.req.seq <;> rfl

/-- One element of a list changes. -/
theorem flatMap_set_perm {α β : Type} {l : List α} {i : Nat} {a : α} (a' : α) (f : α → List β)
    (h : l[i]? = some a) : (f a ++ (l.set i a').flatMap f).Perm (f a' ++ l.flatMap f) := by
  obtain ⟨hlt, rfl⟩ := List.getElem?_eq_some_iff.mp h
  rw [List.set_eq_take_append_cons_drop, if_pos hlt]
  conv_rhs => rw [← List.take_append_drop i l, List.drop_eq_getElem_cons hlt]
  simp only [List.flatMap_append, List.flatMap_cons, ← Multiset.coe_eq_coe, ← Multiset.coe_add]
  abel

/-! ## One step -/

section

variable (h : s.Conserved R)

include h

/-- What a step has to keep: the requests that it hands over and the replies that
it lets come about are made up for on the way. -/
theorem Conserved.pass
    (howing : (expected R r.handed ++ owing R s.system).Perm (r.produced ++ owing R t))
    (hproper : ∀ x ∈ t.tasks ++ waiting t, Proper x)
    (hfits : ∀ x ∈ t.replies ++ t.flushing, x.frame.length ≤ RspRing.kPayloadMax)
    (htaken : ∀ ch ∈ t.requests, ch.taken ≤ ch.items.length) :
    Conserved R ⟨t, s.journal.append r⟩ := by
  refine ⟨?_, hproper, hfits, htaken⟩
  have hbefore := h.conserved
  simp only [Journal.append, expected_append]
  rw [← Multiset.coe_eq_coe] at hbefore howing ⊢
  simp only [← Multiset.coe_add] at hbefore howing ⊢
  rw [hbefore, add_assoc, add_comm (↑(owing R s.system) : Multiset (Nat × Bytes)), howing]
  abel

/-- A step that nobody in Dispatch notices. -/
theorem Conserved.aside (hrequests : t.requests = s.system.requests)
    (htasks : t.tasks = s.system.tasks) (hreplies : t.replies = s.system.replies)
    (hflushing : t.flushing = s.system.flushing)
    (hsame : (expected R r.handed).Perm r.produced) : Conserved R ⟨t, s.journal.append r⟩ := by
  have hwaiting : waiting t = waiting s.system := by rw [waiting, hrequests]; rfl
  have howing : owing R t = owing R s.system := by
    rw [owing, htasks, hreplies, hflushing, hwaiting]
    rfl
  refine h.pass ?_ ?_ ?_ ?_
  · rw [howing]
    exact hsame.append_right _
  · rw [htasks, hwaiting]
    exact h.proper
  · rw [hreplies, hflushing]
    exact h.fits
  · rw [hrequests]
    exact h.taken

/-- The gateway hands a request over and has the answer at once. -/
theorem Conserved.call {i : Nat} {frame : Option Bytes}
    (hcalm : s.Calm R (.call i frame)) {g : MainLoop}
    (hwork : s.system.gateway.work i (inProcessSink frame) = some g) :
    Conserved R ⟨{ s.system with gateway := g },
      s.journal.append (records opt s.system (.call i frame))⟩ := by
  obtain ⟨b, hb, -⟩ := MainLoop.work_eq hwork
  refine h.aside rfl rfl rfl rfl ?_
  simp only [Calm, records, nextRequest, answers, hb] at hcalm ⊢
  rw [replies_step]
  cases hframes : b.frames with
  | nil => exact .refl _
  | cons f rest =>
    rw [hframes, List.head?_cons, Option.map_some, Option.toList_some] at hcalm
    rw [List.head?_cons, Option.map_some, Option.toList_some, expected_singleton, answer,
      ← hcalm _ (List.mem_singleton_self _)]
    cases frame <;> exact .refl _

/-- The gateway puts a request into a ring. -/
theorem Conserved.ringWork {i ring : Nat}
    (hcalm : s.Calm R (.system (.work i ring))) (hwork : s.system.work i ring = some t) :
    Conserved R ⟨t, s.journal.append (records opt s.system (.system (.work i ring)))⟩ := by
  obtain ⟨b, x, v, g, hb, hask, -, -, rfl⟩ := System.work_eq hwork
  simp only [Calm, records, nextRequest, hb] at hcalm ⊢
  unfold System.ask at hask
  cases hframes : b.frames with
  | nil =>
    rw [hframes] at hask
    cases hask
    exact h.aside rfl rfl rfl rfl (.refl _)
  | cons f rest =>
    rw [hframes, List.head?_cons, Option.map_some, Option.toList_some] at hcalm
    obtain ⟨hsmall, ch, hring, hroom⟩ := hcalm _ (List.mem_singleton_self _)
    have hch := Option.mem_toList.mp hring
    rw [hframes] at hask
    simp only [System.ringSink, hch, if_neg (Nat.not_lt.mpr hsmall), Channel.push,
      if_neg hroom] at hask
    cases hask
    generalize hslot : (⟨request b.connId f, (request b.connId f).eventId = ridePositionReport,
      ⟨s.system.life, b.connId⟩⟩ : ReqSlot) = slot
    have hnew : Proper slot := by rw [← hslot]; exact ⟨rfl, hsmall⟩
    have hreq : slot.req = request b.connId f := by rw [← hslot]
    have htaken := h.taken ch (List.mem_of_getElem? hch)
    -- the ring has the request behind what was waiting in it
    have hwaiting : ([slot] ++ waiting s.system).Perm (waiting
        { s.system with
          gateway := g
          requests := s.system.requests.set ring { ch with items := ch.items ++ [slot] } }) := by
      have hset := flatMap_set_perm { ch with items := ch.items ++ [slot] }
        (fun ch : Channel ReqSlot => ch.items.drop ch.taken) hch
      rw [List.drop_append_of_le_length htaken, List.append_assoc] at hset
      exact ((List.perm_append_left_iff _).mp hset).symm
    refine h.pass ?_ ?_ h.fits ?_
    · have hexpected := expected_perm (R := R) (hwaiting.map (·.req))
      rw [List.map_append, List.map_singleton, expected_append, hreq] at hexpected
      simp only [owing, List.head?_cons, Option.map_some, Option.toList_some, List.nil_append]
      rw [← Multiset.coe_eq_coe] at hexpected ⊢
      simp only [← Multiset.coe_add] at hexpected ⊢
      rw [← hexpected]
      abel
    · have hproper := h.proper
      rw [List.forall_mem_append] at hproper ⊢
      refine ⟨hproper.1, fun y hy => ?_⟩
      rcases List.mem_append.mp (hwaiting.mem_iff.mpr hy) with hy | hy
      · rw [List.mem_singleton] at hy
        rw [hy]
        exact hnew
      · exact hproper.2 y hy
    · intro ch' hch'
      rcases List.mem_or_eq_of_mem_set hch' with hold | rfl
      · exact h.taken ch' hold
      · simp only [List.length_append]
        omega

/-- The reader takes a request from a ring and posts it. -/
theorem Conserved.read {ring : Nat} (hread : s.system.read ring true = some t) :
    Conserved R ⟨t, s.journal.append {}⟩ := by
  have hproper := h.proper
  rw [List.forall_mem_append] at hproper
  obtain ⟨ch, slot, hch, hpeek, rfl⟩ := System.read_eq hread
  obtain ⟨hlt, hget⟩ := List.getElem?_eq_some_iff.mp hpeek
  have hfront : ch.items.drop ch.taken = slot :: ch.items.drop (ch.taken + 1) := by
    rw [List.drop_eq_getElem_cons hlt, hget]
  have hset := flatMap_set_perm ch.advance
    (fun ch : Channel ReqSlot => ch.items.drop ch.taken) hch
  have hslot : slot ∈ waiting s.system :=
    List.mem_flatMap.mpr ⟨ch, List.mem_of_getElem? hch, by rw [hfront]; exact .head _⟩
  rw [Bool.true_and, if_pos (by simpa using (hproper.2 slot hslot).fits)]
  -- the request has moved from its ring to the tasks
  have hwaiting : (slot :: waiting
      { s.system with
        requests := s.system.requests.set ring ch.advance
        tasks := s.system.tasks ++ [slot] }).Perm (waiting s.system) := by
    rw [hfront, List.cons_append] at hset
    exact (List.perm_append_left_iff _).mp (List.perm_middle.trans hset)
  refine h.pass ?_ ?_ h.fits ?_
  · have hexpected := expected_perm (R := R) (hwaiting.map (·.req))
    rw [List.map_cons, ← List.singleton_append, expected_append] at hexpected
    simp only [owing, List.map_append, List.map_singleton, expected_append, expected_nil,
      List.nil_append]
    rw [← Multiset.coe_eq_coe] at hexpected ⊢
    simp only [← Multiset.coe_add] at hexpected ⊢
    rw [← hexpected]
    abel
  · rw [List.forall_mem_append]
    refine ⟨List.forall_mem_append.mpr
      ⟨hproper.1, List.forall_mem_singleton.mpr (hproper.2 slot hslot)⟩, fun y hy => ?_⟩
    exact hproper.2 y (hwaiting.mem_iff.mp (List.mem_cons_of_mem _ hy))
  · intro ch' hch'
    rcases List.mem_or_eq_of_mem_set hch' with hold | rfl
    · exact h.taken ch' hold
    · exact hlt

theorem Conserved.releaseRequests {ring : Nat}
    (hrelease : s.system.releaseRequests ring = some t) :
    Conserved R ⟨t, s.journal.append {}⟩ := by
  obtain ⟨ch, hch, rfl⟩ := System.releaseRequests_eq hrelease
  have hset := flatMap_set_perm ch.release
    (fun ch : Channel ReqSlot => ch.items.drop ch.taken) hch
  have hwaiting : (waiting { s.system with
      requests := s.system.requests.set ring ch.release }).Perm (waiting s.system) :=
    (List.perm_append_left_iff _).mp hset
  have hproper := h.proper
  rw [List.forall_mem_append] at hproper
  refine h.pass ?_ ?_ h.fits ?_
  · exact ((expected_perm (hwaiting.map (·.req))).symm).append_left _
  · exact List.forall_mem_append.mpr
      ⟨hproper.1, fun y hy => hproper.2 y (hwaiting.mem_iff.mp hy)⟩
  · intro ch' hch'
    rcases List.mem_or_eq_of_mem_set hch' with hold | rfl
    · exact h.taken ch' hold
    · exact Nat.zero_le _

/-- A business thread asks the router and queues the answer. -/
theorem Conserved.business {i : Nat} {frame : Option Bytes}
    (hcalm : s.Calm R (.system (.business i frame)))
    (hrun : s.system.business i frame = some t) : Conserved R ⟨t, s.journal.append {}⟩ := by
  obtain ⟨task, htask, rfl⟩ := System.business_eq hrun
  have hproper := h.proper
  have hfits := h.fits
  rw [List.forall_mem_append] at hproper hfits
  have hframe : frame = R.dispatch task.req.eventId task.req.payload :=
    hcalm task (by rw [htask]; exact .head _)
  have hreply := frames_reply (R := R) (hproper.1 task (List.mem_of_getElem? htask))
  rw [← hframe] at hreply
  obtain ⟨hlt, hget⟩ := List.getElem?_eq_some_iff.mp htask
  have htasks := List.getElem_cons_eraseIdx_perm hlt
  rw [hget] at htasks
  refine h.pass ?_ ?_ ?_ h.taken
  · have hexpected := expected_perm (R := R) (htasks.map (·.req))
    rw [List.map_cons, ← List.singleton_append, expected_append, expected_singleton] at hexpected
    simp only [owing, frames_append, hreply, expected_nil, List.nil_append]
    rw [← Multiset.coe_eq_coe] at hexpected ⊢
    simp only [← Multiset.coe_add] at hexpected ⊢
    rw [← hexpected]
    abel
  · exact List.forall_mem_append.mpr
      ⟨fun y hy => hproper.1 y (List.mem_of_mem_eraseIdx hy), hproper.2⟩
  · rw [List.forall_mem_append]
    refine ⟨List.forall_mem_append.mpr ⟨hfits.1, fun x hx => ?_⟩, hfits.2⟩
    have hmem : (x.connId, x.frame) ∈ frames (task.reply frame) :=
      List.mem_map.mpr ⟨x, hx, rfl⟩
    rw [hreply] at hmem
    obtain ⟨y, hy, heq⟩ := List.mem_map.mp hmem
    obtain rfl : y = x.frame := congrArg Prod.snd heq
    exact (mem_answer hy).1

theorem Conserved.drainReplies (hdrain : s.system.drainReplies = some t) :
    Conserved R ⟨t, s.journal.append {}⟩ := by
  obtain ⟨hempty, rfl⟩ := System.drainReplies_eq hdrain
  have hfits := h.fits
  rw [List.forall_mem_append] at hfits
  refine h.pass ?_ h.proper hfits.1 h.taken
  simp only [owing, hempty, frames_nil, List.nil_append, List.append_nil, expected_nil]
  exact .refl _

/-- A reply is published; none is too long for a slot. -/
theorem Conserved.flush (hflush : s.system.flush = some t) :
    Conserved R ⟨t, s.journal.append { produced := published s.system }⟩ := by
  have hfits := h.fits
  obtain ⟨x, rest, hitems, hcases⟩ := System.flush_cases hflush
  rw [hitems, List.forall_mem_append, List.forall_mem_cons] at hfits
  rcases hcases with ⟨hlong, -⟩ | ⟨hshort, rfl⟩
  · exact absurd hfits.2.1 (Nat.not_le.mpr hlong)
  · rw [published_of_fits hitems hshort]
    refine h.pass ?_ h.proper (List.forall_mem_append.mpr ⟨hfits.1, hfits.2.2⟩) h.taken
    simp only [owing, hitems, expected_nil, List.nil_append]
    exact .refl _

/-- **One step** under the condition. -/
theorem Conserved.next {step : Step} {s' : Service} (hcalm : s.Calm R step)
    (hnext : s.next opt step = some s') : s'.Conserved R := by
  obtain ⟨t, hmoves, rfl⟩ := Option.map_eq_some_iff.mp hnext
  cases step with
  | call i frame =>
    obtain ⟨g, hg, rfl⟩ := moves_call hmoves
    exact h.call hcalm hg
  | system step =>
    cases step with
    | gateway ev =>
      obtain ⟨-, g, -, rfl⟩ := System.gateway_eq hmoves
      exact h.aside rfl rfl rfl rfl (.refl _)
    | work i ring => exact h.ringWork hcalm (moves_work hmoves)
    | deliver answers =>
      obtain ⟨slot, -, -, rfl⟩ := System.deliver_eq hmoves
      exact h.aside rfl rfl rfl rfl (.refl _)
    | restart answers => cases hmoves
    | releaseResponses =>
      cases hmoves
      exact h.aside rfl rfl rfl rfl (.refl _)
    | read ring posted =>
      obtain rfl : posted = true := hcalm
      exact h.read hmoves
    | releaseRequests ring => exact h.releaseRequests hmoves
    | business i frame => exact h.business hcalm hmoves
    | drainReplies => exact h.drainReplies hmoves
    | flush => exact h.flush hmoves
    | dropReplies => exact hcalm.elim

end

theorem Conserved.start (opt : GatewayOptions) (rings : Nat) (answers : List Bool) :
    (start opt rings answers).Conserved R := by
  have hwaiting : waiting (System.start opt rings answers) = [] := by
    simp [waiting, System.start, Channel.empty, List.flatMap_replicate]
  refine ⟨?_, ?_, by rintro _ ⟨⟩, ?_⟩
  · rw [owing, show waiting (Service.start opt rings answers).system = [] from hwaiting]
    exact .refl _
  · rw [show waiting (Service.start opt rings answers).system = [] from hwaiting]
    rintro _ ⟨⟩
  · intro ch hch
    rw [List.eq_of_mem_replicate hch]
    exact Nat.le_refl _

/-- **Every run** under the condition. -/
theorem Conserved.of_reachable (h : (machine opt rings).ReachableWhile (Calm R) s) :
    s.Conserved R := by
  refine Machine.invariant ?_ ?_ h
  · rintro s ⟨answers, rfl⟩
    exact .start opt rings answers
  · exact fun s step s' hs hcalm hnext => hs.next hcalm hnext

/-! ## Once everything has drained -/

/-- The frames for one connection among the replies to requests. -/
theorem forConn_expected (id : Nat) (reqs : List Request) :
    forConn id (expected R reqs) = (reqs.filter (·.connId = id)).flatMap (answer R) := by
  induction reqs with
  | nil => rfl
  | cons req rest ih =>
    rw [← List.singleton_append, expected_append, forConn_append, ih, expected_singleton,
      List.singleton_append, List.filter_cons]
    by_cases hid : req.connId = id
    · rw [if_pos (by simpa using hid), List.flatMap_cons]
      congr 1
      subst hid
      simp [forConn, List.filter_map, Function.comp_def]
    · rw [if_neg (by simpa using hid)]
      rw [forConn_eq_nil fun p hp => ?_, List.nil_append]
      obtain ⟨frame, -, rfl⟩ := List.mem_map.mp hp
      exact hid

/-- **A drained run, in either mode.** A connection that is open has had exactly
the replies to its own requests put on its queue. -/
theorem queued_of_drained (h : (machine opt rings).ReachableWhile (Calm R) s)
    (hdrained : Drained s.system) {id : Nat} (hopen : s.system.gateway.engine.Open id) :
    (forConn id s.journal.queued).Perm
      ((s.journal.handed.filter (·.connId = id)).flatMap (answer R)) := by
  have hproduced := (Accounted.of_reachable h (running_of_open h hopen)).produced hopen
  have hconserved := (Conserved.of_reachable h).conserved
  rw [hdrained.outbox, hdrained.responses, forConn_nil, List.append_nil, List.append_nil] at hproduced
  have howing : owing R s.system = [] := by
    rw [owing, hdrained.flushing, hdrained.replies, hdrained.tasks, hdrained.requests]
    rfl
  rw [howing, List.append_nil] at hconserved
  rw [← forConn_expected]
  exact hproduced.symm.trans ((hconserved.filter _).map _).symm

/-- What was queued for a connection has been sent, and the rest is on its send queue. -/
def OnItsWay (s : Service) (id : Nat) : Prop :=
  ∃ c, s.system.gateway.engine.conns id = some c ∧
    (forConn id s.journal.sent).flatten ++ c.sendQ.flatten = (forConn id s.journal.queued).flatten

theorem onItsWay_of_open {ok : Service → Step → Prop} (h : (machine opt rings).ReachableWhile ok s)
    {id : Nat} (hopen : s.system.gateway.engine.Open id) : s.OnItsWay id := by
  have haccounted := Accounted.of_reachable h (running_of_open h hopen)
  obtain ⟨o, ho, hstate⟩ := hopen
  obtain ⟨c, hc, rfl⟩ := Option.map_eq_some_iff.mp ho
  exact ⟨c, hc, haccounted.sent ho hstate⟩

end Service

open Service in
/-- **Both modes give the same replies.** A run in ring mode and one in-process
have handed over the same requests, and everything has drained. Then a
connection that is open in both has had the same frames put on its queue: one
for each of its requests that the router answers, with that request's number. In
both runs they have been sent or are on the send queue of the connection. -/
theorem modes_agree (R : Router) (opt opt' : GatewayOptions) {rings rings' : Nat} {s t : Service}
    (hs : (machine { opt with ipc := true } rings).ReachableWhile (Calm R) s)
    (ht : (machine { opt' with ipc := false } rings').ReachableWhile (Calm R) t)
    (hsame : s.journal.handed.Perm t.journal.handed)
    (hsdrained : Drained s.system) (htdrained : Drained t.system) {id : Nat}
    (hsopen : s.system.gateway.engine.Open id) (htopen : t.system.gateway.engine.Open id) :
    (forConn id s.journal.queued).Perm (forConn id t.journal.queued) ∧
      (forConn id s.journal.queued).Perm
        ((s.journal.handed.filter (·.connId = id)).flatMap (answer R)) ∧
      (∀ req, ∀ frame ∈ answer R req, ∃ f, decodeFrame frame = .ok f frame.length ∧
        f.seq = req.seq) ∧
      s.OnItsWay id ∧ t.OnItsWay id := by
  have hring := queued_of_drained hs hsdrained hsopen
  have hdirect := queued_of_drained ht htdrained htopen
  refine ⟨?_, hring, fun req frame hframe => (mem_answer hframe).2, onItsWay_of_open hs hsopen,
    onItsWay_of_open ht htopen⟩
  exact hring.trans (((hsame.filter _).flatMap_right _).trans hdirect.symm)

/-- A frame without payload, as handlers encode it. -/
def pong : Bytes := [0x46, 0x42, 0x45, 0x42, 2, 0, 0, 0, 0, 0, 0, 0, 0, 0]

/-- A router with one answer to everything. -/
def pongRouter : Router where
  dispatch eventId _ := if eventId = ridePositionReport then some [] else some pong
  oneWay _ := rfl
  encoded := by
    intro eventId payload frame hframe hne
    split at hframe
    · cases hframe
      exact absurd rfl hne
    · cases hframe
      exact ⟨⟨2, 0, []⟩, rfl⟩

/-- A client connects and sends a request through Dispatch. -/
def throughRings : List Service.Step :=
  oneRequest.map .system ++ [.system (.work 0 0), .system (.read 0 true),
    .system (.business 0 (some pong)), .system .drainReplies, .system .flush,
    .system (.deliver [])]

/-- The same request with the router in the gateway, and the first bytes of the reply
are sent. -/
def inGateway : List Service.Step :=
  [.system (.gateway ⟨.cqe 0 ⟨7, [], false, []⟩, [], 1⟩),
    .system (.gateway ⟨.cqe 3 ⟨14, ping, false, []⟩, [], 2⟩),
    .call 0 (some pong), .call 0 none,
    .system (.gateway ⟨.cqe 1 ⟨8, [], false, []⟩, [], 3⟩),
    .system (.gateway ⟨.cqe 6 ⟨5, [], false, []⟩, [], 4⟩)]

open Service in
/-- Through the rings the reply is on the send queue; in-process it is half sent. -/
theorem modes_agree_pong : ∃ s t,
    (machine ⟨64, 1000, 0, true⟩ 1).ReachableWhile (Calm pongRouter) s ∧
    (machine ⟨64, 1000, 0, false⟩ 1).ReachableWhile (Calm pongRouter) t ∧
    forConn 1 s.journal.queued = [[0x46, 0x42, 0x45, 0x42, 2, 0, 9, 0, 0, 0, 0, 0, 0, 0]] ∧
    (forConn 1 s.journal.queued).Perm (forConn 1 t.journal.queued) ∧
    (∃ c, s.system.gateway.engine.conns 1 = some c ∧
      c.sendQ = [[0x46, 0x42, 0x45, 0x42, 2, 0, 9, 0, 0, 0, 0, 0, 0, 0]]) ∧
    (∃ c, t.system.gateway.engine.conns 1 = some c ∧
      forConn 1 t.journal.sent = [[0x46, 0x42, 0x45, 0x42, 2]] ∧
      c.sendQ = [[0, 9, 0, 0, 0, 0, 0, 0, 0]]) ∧
    s.OnItsWay 1 ∧ t.OnItsWay 1 := by
  obtain ⟨s, hs, hshanded, hsqueued, hsdrained, hsopen, hsconn⟩ :
      ∃ s, (machine ⟨64, 1000, 0, true⟩ 1).ReachableWhile (Calm pongRouter) s ∧
        s.journal.handed = [⟨1, 1, 9, []⟩] ∧
        forConn 1 s.journal.queued = [[0x46, 0x42, 0x45, 0x42, 2, 0, 9, 0, 0, 0, 0, 0, 0, 0]] ∧
        Drained s.system ∧ (∃ o ∈ s.system.gateway.engine.out 1, o.state ≠ .closing) ∧
        ∃ c ∈ s.system.gateway.engine.conns 1,
          c.sendQ = [[0x46, 0x42, 0x45, 0x42, 2, 0, 9, 0, 0, 0, 0, 0, 0, 0]] :=
    Machine.exists_of_playWhile (fun _ _ => of_decide_eq_true) (start _ 1 []) ⟨[], rfl⟩
      throughRings (by decide +kernel)
  obtain ⟨t, ht, hthanded, htdrained, htopen, htconn⟩ :
      ∃ t, (machine ⟨64, 1000, 0, false⟩ 1).ReachableWhile (Calm pongRouter) t ∧
        t.journal.handed = [⟨1, 1, 9, []⟩] ∧
        Drained t.system ∧ (∃ o ∈ t.system.gateway.engine.out 1, o.state ≠ .closing) ∧
        ∃ c ∈ t.system.gateway.engine.conns 1,
          forConn 1 t.journal.sent = [[0x46, 0x42, 0x45, 0x42, 2]] ∧
            c.sendQ = [[0, 9, 0, 0, 0, 0, 0, 0, 0]] :=
    Machine.exists_of_playWhile (fun _ _ => of_decide_eq_true) (start _ 1 []) ⟨[], rfl⟩
      inGateway (by decide +kernel)
  obtain ⟨hagree, -, -, hsway, htway⟩ :=
    modes_agree pongRouter ⟨64, 1000, 0, true⟩ ⟨64, 1000, 0, false⟩ hs ht
      (by rw [hshanded, hthanded]) hsdrained htdrained hsopen htopen
  exact ⟨s, t, hs, ht, hsqueued, hagree, hsconn, htconn, hsway, htway⟩

end SharedBike.Dispatch
