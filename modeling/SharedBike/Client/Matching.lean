import SharedBike.Client.Bridge
import Mathlib.Data.List.Perm.Basic
import Mathlib.Data.List.Nodup

/-!
# A reply clears the request that it answers, on settled connections

The bridge numbers its requests anew on every connection, when it handles the
`connected` signal. The worker is ahead of it: a request that is sent on the
new connection before the signal is handled keeps its number, the signal
empties `in_flight_`, and the next request of the same event takes the same
number again. The reply to the first then clears the second
(`answered_for_another`).

`matches_own` is the other half. When no request is made while a `connected`
is on its way, and no connection is made while a request is on its way to the
worker, every frame that is accepted answers the very call whose entry it
clears. The invariant is that whatever can still come back as a reply is in
`in_flight_`, with its number, and only once for each event.
-/

namespace SharedBike.Client

open SharedBike.Wire SharedBike.Lib Function

/-! ## Requests under way -/

/-- A request that can still be answered. -/
structure Flight where
  eid : UInt16
  seq : UInt32
  call : Nat

/-- A position report has no answer. -/
def Sent.twoWay (x : Sent) : Bool := x.frame.eventId ≠ ridePositionReport

def Sent.request (x : Sent) : Flight := ⟨x.frame.eventId, x.frame.seq, x.call⟩

def Sent.response (x : Sent) : Flight := ⟨rspToReq x.frame.eventId, x.frame.seq, x.call⟩

theorem rspToReq_of_response {req rsp : UInt16} (h : responses.lookup req = some rsp) :
    rspToReq rsp = req ∧ req ≠ ridePositionReport := by
  -- over the table as a list: `UInt16` itself is finite, and far too long to go through
  have hall : responses.all fun p => rspToReq p.2 = p.1 ∧ p.1 ≠ ridePositionReport := by decide
  have hmem : (req, rsp) ∈ responses := by
    obtain ⟨l₁, l₂, heq, -⟩ := List.lookup_eq_some_iff.mp h
    rw [heq]
    simp
  exact of_decide_eq_true (List.all_eq_true.mp hall _ hmem)

/-- The reply is to its request. -/
theorem answerTo_response {x y : Sent} {payload : Bytes} (h : answerTo x payload = some y) :
    y.response = x.request ∧ x.twoWay = true := by
  obtain ⟨rsp, hrsp, rfl⟩ := Option.map_eq_some_iff.mp h
  obtain ⟨hreq, htwo⟩ := rspToReq_of_response hrsp
  exact ⟨by simp [Sent.response, Sent.request, hreq], by simp [Sent.twoWay, htwo]⟩

/-- Every request of `flights` is noted, with its number and its call, and no
event has two. -/
structure Noted (b : Bridge) (owner : UInt16 → Option Nat) (flights : List Flight) : Prop where
  nodup : (flights.map Flight.eid).Nodup
  noted : ∀ x ∈ flights, b.inFlight x.eid = some x.seq ∧ owner x.eid = some x.call

namespace Noted

variable {b b' : Bridge} {owner owner' : UInt16 → Option Nat} {l l' : List Flight}

theorem nil (b : Bridge) (owner : UInt16 → Option Nat) : Noted b owner [] :=
  ⟨List.nodup_nil, fun _ h => by cases h⟩

theorem sublist (h : Noted b owner l) (hsub : l'.Sublist l) : Noted b owner l' :=
  ⟨h.nodup.sublist (hsub.map _), fun x hx => h.noted x (hsub.subset hx)⟩

theorem perm (h : Noted b owner l) (hperm : l'.Perm l) : Noted b owner l' :=
  ⟨(hperm.map _).nodup_iff.mpr h.nodup, fun x hx => h.noted x (hperm.subset hx)⟩

/-- Only `in_flight_` matters. -/
theorem congr (h : Noted b owner l) (hb : b'.inFlight = b.inFlight) : Noted b' owner l :=
  ⟨h.nodup, fun x hx => by rw [hb]; exact h.noted x hx⟩

/-- A new request of an event that has none. -/
theorem add (h : Noted b owner l) {x : Flight} (hfree : b.inFlight x.eid = none)
    (hb : b'.inFlight = update b.inFlight x.eid (some x.seq))
    (howner : owner' = update owner x.eid (some x.call)) : Noted b' owner' (l ++ [x]) := by
  have hnew : ∀ y ∈ l, y.eid ≠ x.eid := by
    intro y hy heq
    have := (h.noted y hy).1
    rw [heq, hfree] at this
    cases this
  refine ⟨?_, ?_⟩
  · rw [List.map_append, List.map_singleton]
    refine List.nodup_append.mpr ⟨h.nodup, List.nodup_singleton _, ?_⟩
    intro e he e' he' heq
    obtain ⟨y, hy, rfl⟩ := List.mem_map.mp he
    exact hnew y hy (heq.trans (List.mem_singleton.mp he'))
  · intro y hy
    rw [hb, howner]
    rcases List.mem_append.mp hy with hy | hy
    · rw [update_of_ne (hnew y hy), update_of_ne (hnew y hy)]
      exact h.noted y hy
    · cases List.mem_singleton.mp hy
      simp only [update_self, and_self]

/-- The first request is answered. -/
theorem tail {x : Flight} (h : Noted b owner (x :: l))
    (hb : b'.inFlight = update b.inFlight x.eid none)
    (howner : owner' = update owner x.eid none) : Noted b' owner' l := by
  obtain ⟨hx, hnodup⟩ := List.nodup_cons.mp h.nodup
  refine ⟨hnodup, ?_⟩
  intro y hy
  have hne : y.eid ≠ x.eid := by
    intro heq
    exact hx (heq ▸ List.mem_map_of_mem hy)
  rw [hb, howner, update_of_ne hne, update_of_ne hne]
  exact h.noted y (List.mem_cons_of_mem _ hy)

end Noted

/-! ## The invariant -/

/-- A signal that empties `in_flight_`. -/
def Signal.clears : Signal → Bool
  | .frameReady _ => false
  | _ => true

namespace Link

/-- The requests that the server has, or will have when the worker sends them. -/
def waiting (s : Link) : List Sent :=
  (s.asked ++ if s.worker.connected then s.sends else []).filter Sent.twoWay

/-- The replies that the bridge has not seen. -/
def replies (s : Link) : List Sent :=
  s.signals.filterMap (fun | .frameReady x => some x | _ => none) ++ s.inbound

def live (s : Link) : List Flight := s.replies.map Sent.response ++ s.waiting.map Sent.request

/-- The condition on a step: no request while a `connected` is on its way, and
no connection while a request is. -/
def Settled (s : Link) : Action → Prop
  | .call e _ => e ≠ .reportPosition → Signal.connected ∉ s.signals
  | .connect => ∀ x ∈ s.sends, x.twoWay = false
  | _ => True

instance (s : Link) (a : Action) : Decidable (s.Settled a) := by
  unfold Settled
  split <;> infer_instance

/-- The signals on their way: replies, and behind them those that empty
`in_flight_`. Then nothing more can come back, and if there is a connection, it
is announced. -/
structure Ordered (s : Link) (frames : List Sent) (resets : List Signal) : Prop where
  signals : s.signals = frames.map .frameReady ++ resets
  clears : ∀ c ∈ resets, c.clears = true
  idle : resets ≠ [] → s.inbound = [] ∧ s.waiting = []
  announced : resets ≠ [] → s.worker.connected = true → .connected ∈ resets.getLast?

/-- What every state of a settled run has. The worker keeps position reports only. -/
structure Inv (s : Link) : Prop where
  noted : Noted s.bridge s.owner s.live
  kept : ∀ x ∈ s.worker.pending, x.twoWay = false
  ordered : ∃ frames resets, Ordered s frames resets
  down : s.worker.connected = false → s.inbound = [] ∧ s.asked = []
  matched : ∀ p ∈ s.matched, p.2 = some p.1

theorem Ordered.replies {s : Link} {frames : List Sent} {resets : List Signal}
    (h : Ordered s frames resets) : s.replies = frames ++ s.inbound := by
  have hnone : resets.filterMap
      (fun | .frameReady x => some x | _ => none : Signal → Option Sent) = [] := by
    refine List.filterMap_eq_nil_iff.mpr ?_
    intro c hc
    have := h.clears c hc
    cases c with
    | frameReady x => cases this
    | _ => rfl
  rw [Link.replies, h.signals, List.filterMap_append, hnone, List.append_nil, List.filterMap_map]
  congr 1
  exact List.filterMap_some

/-! ## Calls of the entry points -/

/-- A call that leaves `in_flight_` alone and sends nothing. -/
def Refused (b : Bridge) (out : Option Frame × Bridge) : Prop :=
  out.1 = none ∧ out.2.inFlight = b.inFlight

/-- A request of an event that has none under way. -/
def Requested (b : Bridge) (eid : UInt16) (out : Option Frame × Bridge) : Prop :=
  b.inFlight eid = none ∧ ∃ f, out.1 = some f ∧ f.eventId = eid ∧
    out.2.inFlight = update b.inFlight eid (some f.seq)

theorem request_cases {b c : Bridge} (hc : c.inFlight = b.inFlight) (eid : UInt16)
    (payload : Bytes) :
    Refused b (c.request eid payload) ∨ Requested b eid (c.request eid payload) := by
  unfold Bridge.request
  split
  · exact .inl ⟨rfl, hc⟩
  next hfree =>
    rw [Option.not_isSome_iff_eq_none, hc] at hfree
    refine .inr ⟨hfree, _, rfl, rfl, ?_⟩
    simp only [Bridge.sendRequest, Bridge.nextSeq_inFlight, hc]

theorem call_cases (b : Bridge) {e : Entry} (he : e ≠ .reportPosition) (payload : Bytes) :
    Refused b (b.call e payload) ∨ Requested b e.eid (b.call e payload) := by
  cases e with
  | reportPosition => exact absurd rfl he
  | login mobile | endRide =>
    simp only [Bridge.call]
    split
    · exact .inl ⟨rfl, rfl⟩
    · exact request_cases rfl _ payload
  | _ => exact request_cases rfl _ payload

/-! ## One step -/

variable {s t : Link} {parse : Parsers}

/-- A step that leaves the books alone, and after which no more can come back
than before. -/
theorem Inv.shrink (h : Inv s) (hb : t.bridge.inFlight = s.bridge.inFlight)
    (howner : t.owner = s.owner) (hmatched : t.matched = s.matched)
    (hreplies : t.replies.Sublist s.replies) (hwaiting : t.waiting.Sublist s.waiting)
    (hkept : ∀ x ∈ t.worker.pending, x.twoWay = false)
    (hordered : ∃ frames resets, Ordered t frames resets)
    (hdown : t.worker.connected = false → t.inbound = [] ∧ t.asked = []) : Inv t where
  noted := by
    rw [howner]
    exact (h.noted.congr hb).sublist ((hreplies.map _).append (hwaiting.map _))
  kept := hkept
  ordered := hordered
  down := hdown
  matched := by
    rw [hmatched]
    exact h.matched

/-- What is sent in vain, or is no request, does not come back. -/
theorem waiting_sends_append (s : Link) (x : Sent) :
    { s with sends := s.sends ++ [x] }.waiting =
      s.waiting ++ if s.worker.connected ∧ x.twoWay then [x] else [] := by
  unfold waiting
  cases s.worker.connected <;> cases hx : x.twoWay <;> simp [hx, List.filter_append]

/-- A position report takes a number and no slot. -/
theorem Inv.report (h : Inv s) (payload : Bytes) : Inv (s.call .reportPosition payload) := by
  obtain ⟨frames, resets, ho⟩ := h.ordered
  have hwait := waiting_sends_append s ⟨s.calls, ⟨ridePositionReport, s.bridge.nextSeq.1, payload⟩⟩
  have hone : Sent.twoWay ⟨s.calls, ⟨ridePositionReport, s.bridge.nextSeq.1, payload⟩⟩ = false := by
    simp [Sent.twoWay]
  rw [hone] at hwait
  simp only [Bool.false_eq_true, and_false, if_false, List.append_nil] at hwait
  have hsame : (s.call .reportPosition payload).waiting = s.waiting := hwait
  refine h.shrink rfl rfl rfl (List.Sublist.refl _) (by rw [hsame]) h.kept
    ⟨frames, resets, ho.signals, ho.clears, ?_, ho.announced⟩ h.down
  intro hresets
  exact ⟨(ho.idle hresets).1, hsame.trans (ho.idle hresets).2⟩

theorem Inv.call (h : Inv s) {e : Entry} (he : e ≠ .reportPosition)
    (hsettled : Signal.connected ∉ s.signals) (payload : Bytes) : Inv (s.call e payload) := by
  obtain ⟨frames, resets, ho⟩ := h.ordered
  rcases call_cases s.bridge he payload with ⟨hnone, hb⟩ | ⟨hfree, f, hsome, heid, hb⟩
  · have hcall : s.call e payload = { s with bridge := (s.bridge.call e payload).2 } := by
      unfold Link.call
      split
      next heq => rw [heq]
      next heq => rw [heq] at hnone; cases hnone
    rw [hcall]
    exact h.shrink hb rfl rfl (List.Sublist.refl _) (List.Sublist.refl _) h.kept
      ⟨frames, resets, ho.signals, ho.clears, ho.idle, ho.announced⟩ h.down
  · have hcall : s.call e payload =
        { s with
          bridge := (s.bridge.call e payload).2
          sends := s.sends ++ [⟨s.calls, f⟩]
          calls := s.calls + 1
          owner := update s.owner e.eid (some s.calls) } := by
      unfold Link.call
      split
      next heq => rw [heq] at hsome; cases hsome
      next f' b' heq =>
        rw [heq] at hsome
        cases hsome
        rw [heq, if_neg he]
    have hwait := waiting_sends_append s ⟨s.calls, f⟩
    rw [hcall]
    refine ⟨?_, h.kept, ⟨frames, resets, ho.signals, ho.clears, ?_, ho.announced⟩, h.down, h.matched⟩
    · -- the new request, if it can come back at all, is noted
      rw [← heid] at hfree hb ⊢
      refine (h.noted.add (x := Sent.request ⟨s.calls, f⟩) hfree hb rfl).sublist ?_
      change (List.map _ s.replies ++ List.map _ ({ s with sends := s.sends ++ [_] }.waiting)).Sublist _
      rw [hwait, List.map_append, live, List.append_assoc]
      refine (List.Sublist.refl _).append ((List.Sublist.refl _).append ?_)
      split
      · exact List.Sublist.refl _
      · exact List.nil_sublist _
    · intro hresets
      refine ⟨(ho.idle hresets).1, ?_⟩
      -- a connection would be announced by a signal that is still on its way
      have hdown : s.worker.connected ≠ true := by
        intro hup
        refine hsettled ?_
        rw [ho.signals]
        exact List.mem_append_right _ (List.mem_of_getLast? (ho.announced hresets hup))
      refine hwait.trans ?_
      simp [hdown, (ho.idle hresets).2]

/-! The worker and the socket. -/

theorem sendFrame_cases (w : TcpWorker) (x : Sent) :
    (w.sendFrame x).2.connected = w.connected ∧
      ((w.sendFrame x).1 = [] ∨ w.connected = true ∧ (w.sendFrame x).1 = [x]) ∧
      ∀ y ∈ (w.sendFrame x).2.pending, y ∈ w.pending ∨ y.twoWay = false := by
  unfold TcpWorker.sendFrame
  split
  · exact ⟨rfl, .inl rfl, fun y hy => .inl hy⟩
  · split
    next hup => exact ⟨rfl, .inr ⟨hup, rfl⟩, fun y hy => .inl hy⟩
    next hdown =>
      split
      · exact ⟨rfl, .inl rfl, fun y hy => .inl hy⟩
      next hone =>
        refine ⟨rfl, .inl rfl, ?_⟩
        intro y hy
        rcases List.mem_append.mp hy with hy | hy
        · left
          split at hy
          · exact List.mem_of_mem_tail hy
          · exact hy
        · right
          cases List.mem_singleton.mp hy
          simpa [Sent.twoWay] using hone

theorem send_eq {x : Sent} {rest : List Sent} (h : s.sends = x :: rest) :
    s.send = some { s with
      sends := rest
      worker := (s.worker.sendFrame x).2
      asked := s.asked ++ (s.worker.sendFrame x).1 } := by
  rw [Link.send, h]

/-- A frame moves from the signals to the socket, or is lost. -/
theorem Inv.send (h : Inv s) (hstep : s.send = some t) : Inv t := by
  obtain ⟨frames, resets, ho⟩ := h.ordered
  cases hsends : s.sends with
  | nil =>
    rw [Link.send, hsends] at hstep
    cases hstep
  | cons x rest =>
    rw [send_eq hsends] at hstep
    obtain rfl := Option.some.inj hstep
    obtain ⟨hconn, hwritten, hpending⟩ := sendFrame_cases s.worker x
    have hsub : Link.waiting { s with
        sends := rest
        worker := (s.worker.sendFrame x).2
        asked := s.asked ++ (s.worker.sendFrame x).1 } |>.Sublist s.waiting := by
      unfold waiting
      refine List.Sublist.filter _ ?_
      rw [hconn, hsends]
      rcases hwritten with hnone | ⟨hup, hone⟩
      · rw [hnone, List.append_nil]
        refine List.Sublist.append (List.Sublist.refl _) ?_
        split
        · exact List.sublist_cons_self _ _
        · exact List.Sublist.refl _
      · rw [hone, if_pos hup, if_pos hup]
        simp
    refine h.shrink rfl rfl rfl (List.Sublist.refl _) hsub ?_ ⟨frames, resets, ho.signals, ho.clears,
      ?_, ?_⟩ ?_
    · intro y hy
      rcases hpending y hy with hy | hy
      · exact h.kept y hy
      · exact hy
    · intro hresets
      refine ⟨(ho.idle hresets).1, List.eq_nil_of_sublist_nil ?_⟩
      exact (ho.idle hresets).2 ▸ hsub
    · intro hresets hup
      exact ho.announced hresets (hconn ▸ hup)
    · intro hdown
      have hdown' : s.worker.connected = false := hconn ▸ hdown
      refine ⟨(h.down hdown').1, ?_⟩
      rcases hwritten with hnone | ⟨hup, -⟩
      · simp only [hnone, List.append_nil, (h.down hdown').2]
      · rw [hdown'] at hup
        cases hup

theorem Inv.connect (h : Inv s) (hsettled : ∀ x ∈ s.sends, x.twoWay = false)
    (hstep : s.connect = some t) : Inv t := by
  obtain ⟨frames, resets, ho⟩ := h.ordered
  unfold Link.connect at hstep
  split at hstep
  · cases hstep
  next hdown =>
    simp only [TcpWorker.onConnected] at hstep
    obtain rfl := Option.some.inj hstep
    obtain ⟨hinbound, hasked⟩ := h.down (by simpa using hdown)
    have hwait : Link.waiting { s with
        worker := { s.worker with connected := true, pending := [] }
        asked := s.worker.pending
        inbound := []
        signals := s.signals ++ [.connected] } = [] := by
      refine List.filter_eq_nil_iff.mpr ?_
      intro x hx
      rw [Bool.not_eq_true]
      rcases List.mem_append.mp hx with hx | hx
      · exact h.kept x hx
      · exact hsettled x hx
    have hordered : Ordered { s with
        worker := { s.worker with connected := true, pending := [] }
        asked := s.worker.pending
        inbound := []
        signals := s.signals ++ [.connected] } frames (resets ++ [.connected]) := by
      refine ⟨?_, ?_, fun _ => ⟨rfl, hwait⟩, fun _ _ => by simp⟩
      · rw [ho.signals, List.append_assoc]
      · intro c hc
        rcases List.mem_append.mp hc with hc | hc
        · exact ho.clears c hc
        · cases List.mem_singleton.mp hc
          rfl
    refine h.shrink rfl rfl rfl ?_ (hwait ▸ List.nil_sublist _) (fun x hx => by cases hx)
      ⟨frames, _, hordered⟩ (fun hup => by cases hup)
    rw [hordered.replies, ho.replies, hinbound]

/-- What the connection had is gone. -/
theorem Inv.disconnect (h : Inv s) {more : Nat} (hstep : s.disconnect more = some t) : Inv t := by
  obtain ⟨frames, resets, ho⟩ := h.ordered
  unfold Link.disconnect at hstep
  split at hstep
  · obtain rfl := Option.some.inj hstep
    have hordered : Ordered { s with
        worker := { s.worker with connected := false }
        asked := []
        inbound := []
        signals := s.signals ++ List.replicate (more + 1) .disconnected } frames
        (resets ++ List.replicate (more + 1) .disconnected) := by
      refine ⟨?_, ?_, fun _ => ⟨rfl, rfl⟩, fun _ hup => by cases hup⟩
      · rw [ho.signals, List.append_assoc]
      · intro c hc
        rcases List.mem_append.mp hc with hc | hc
        · exact ho.clears c hc
        · rw [List.eq_of_mem_replicate hc]
          rfl
    refine h.shrink rfl rfl rfl ?_ (List.nil_sublist _) h.kept ⟨frames, _, hordered⟩
      (fun _ => ⟨rfl, rfl⟩)
    rw [hordered.replies, ho.replies, List.append_nil]
    exact List.sublist_append_left _ _
  · cases hstep

/-- A request becomes a reply. -/
theorem Inv.answer (h : Inv s) {i : Nat} {payload : Bytes} (hstep : s.answer i payload = some t) :
    Inv t := by
  obtain ⟨frames, resets, ho⟩ := h.ordered
  unfold Link.answer at hstep
  split at hstep
  · cases hstep
  next x hx =>
    obtain ⟨y, hy, rfl⟩ := Option.map_eq_some_iff.mp hstep
    obtain ⟨hsame, htwo⟩ := answerTo_response hy
    have hmem : x ∈ s.asked := List.mem_of_getElem? hx
    have hwaits : x ∈ s.waiting := List.mem_filter.mpr ⟨List.mem_append_left _ hmem, htwo⟩
    have hresets : resets = [] := by
      by_contra hne
      rw [(ho.idle hne).2] at hwaits
      cases hwaits
    subst hresets
    refine ⟨h.noted.perm ?_, h.kept, ⟨frames, [], ho.signals, ho.clears, fun hne => absurd rfl hne,
      fun hne => absurd rfl hne⟩, ?_, h.matched⟩
    · obtain ⟨hi, rfl⟩ := List.getElem?_eq_some_iff.mp hx
      have hwaiting := ((List.getElem_cons_eraseIdx_perm hi).append_right
        (if s.worker.connected then s.sends else [])).filter Sent.twoWay
      rw [List.cons_append, List.filter_cons_of_pos htwo] at hwaiting
      have hlive := (hwaiting.map Sent.request).append_left (s.replies.map Sent.response)
      refine List.Perm.trans (List.Perm.of_eq ?_) hlive
      simp only [live, waiting, replies, List.map_append, List.map_cons, List.map_nil, hsame,
        List.append_assoc, List.cons_append, List.nil_append]
    · intro hdown
      rw [(h.down hdown).2] at hmem
      cases hmem

theorem Inv.read (h : Inv s) (hstep : s.read = some t) : Inv t := by
  obtain ⟨frames, resets, ho⟩ := h.ordered
  unfold Link.read at hstep
  split at hstep
  · cases hstep
  next x rest hinbound =>
    obtain rfl := Option.some.inj hstep
    have hresets : resets = [] := by
      by_contra hne
      have := (ho.idle hne).1
      rw [hinbound] at this
      cases this
    subst hresets
    have hordered : Ordered { s with inbound := rest, signals := s.signals ++ [.frameReady x] }
        (frames ++ [x]) [] := by
      refine ⟨?_, fun _ hc => (by cases hc), fun hne => absurd rfl hne, fun hne => absurd rfl hne⟩
      simp [ho.signals]
    refine h.shrink rfl rfl rfl ?_ (List.Sublist.refl _) h.kept ⟨_, _, hordered⟩ ?_
    · rw [hordered.replies, ho.replies, hinbound]
      simp
    · intro hdown
      have := (h.down hdown).1
      rw [hinbound] at this
      cases this

/-- A reply that reaches the bridge finds its own entry. -/
theorem Inv.onFrameReady (h : Inv s) {x : Sent} {rest : List Signal}
    (hsignals : s.signals = .frameReady x :: rest) :
    Inv ({ s with signals := rest }.onFrameReady parse x) := by
  obtain ⟨frames, resets, ho⟩ := h.ordered
  have hcons := ho.signals.symm.trans hsignals
  cases frames with
  | nil =>
    have := ho.clears (.frameReady x) (by simp at hcons; simp [hcons])
    cases this
  | cons x' frames =>
    obtain ⟨hhead, hrest⟩ := List.cons.inj hcons
    cases hhead
    have ho' : Ordered { s with signals := rest } frames resets :=
      ⟨hrest.symm, ho.clears, ho.idle, ho.announced⟩
    have hlive : s.live = x.response :: { s with signals := rest }.live := by
      simp only [live, ho.replies, ho'.replies, List.cons_append, List.map_cons]
      rfl
    have hnoted := h.noted
    rw [hlive] at hnoted
    obtain ⟨hslot, hown⟩ := hnoted.noted x.response List.mem_cons_self
    have hslot' : s.bridge.inFlight (rspToReq x.frame.eventId) = some x.frame.seq := hslot
    unfold Link.onFrameReady Bridge.onFrameReady
    cases isKnownResponse x.frame.eventId with
    | false =>
      exact h.shrink rfl rfl rfl (by rw [ho.replies]; exact ho'.replies ▸ List.sublist_cons_self _ _)
        (List.Sublist.refl _) h.kept ⟨frames, resets, ho'⟩ h.down
    | true =>
      simp only [Bool.not_true, Bool.false_eq_true, if_false, hslot', ne_eq, not_true]
      refine ⟨hnoted.tail (by simp [Sent.response]) rfl, h.kept,
        ⟨frames, resets, ho'.signals, ho'.clears, ho'.idle, ho'.announced⟩, h.down, ?_⟩
      intro p hp
      rcases List.mem_append.mp hp with hp | hp
      · exact h.matched p hp
      · cases List.mem_singleton.mp hp
        exact hown

/-- A signal that empties `in_flight_` is the last of what can come back. -/
theorem Inv.reset (h : Inv s) {c : Signal} (hc : c.clears = true) {rest : List Signal}
    (hsignals : s.signals = c :: rest) (b : Bridge) :
    Inv { s with signals := rest, bridge := b, owner := fun _ => none } := by
  obtain ⟨frames, resets, ho⟩ := h.ordered
  have hcons := ho.signals.symm.trans hsignals
  cases frames with
  | cons x frames =>
    obtain ⟨rfl, -⟩ := List.cons.inj hcons
    cases hc
  | nil =>
    have hresets : resets = c :: rest := hcons
    subst hresets
    obtain ⟨hinbound, hwaiting⟩ := ho.idle (by simp)
    have ho' : Ordered { s with signals := rest, bridge := b, owner := fun _ => none } [] rest := by
      refine ⟨rfl, fun c hc => ho.clears c (List.mem_cons_of_mem _ hc),
        fun _ => ⟨hinbound, hwaiting⟩, ?_⟩
      intro hrest hup
      have hlast := ho.announced (by simp) hup
      rwa [List.getLast?_cons_of_ne_nil hrest] at hlast
    refine ⟨?_, h.kept, ⟨[], rest, ho'⟩, h.down, h.matched⟩
    have hlive : Link.live { s with signals := rest, bridge := b, owner := fun _ => none } = [] := by
      rw [live, ho'.replies]
      change List.map _ ([] ++ s.inbound) ++ List.map _ s.waiting = []
      rw [hinbound, hwaiting]
      rfl
    rw [hlive]
    exact .nil _ _

theorem Inv.handle (h : Inv s) (hstep : s.handle parse = some t) : Inv t := by
  unfold Link.handle at hstep
  split at hstep
  · cases hstep
  next x rest hsignals =>
    cases hstep
    exact h.onFrameReady hsignals
  next rest hsignals =>
    cases hstep
    exact h.reset rfl hsignals _
  next rest hsignals =>
    cases hstep
    exact h.reset rfl hsignals _

theorem Inv.step (h : Inv s) {a : Action} (hsettled : s.Settled a) (hstep : s.step parse a = some t) :
    Inv t := by
  cases a with
  | call e payload =>
    obtain rfl := Option.some.inj hstep
    by_cases he : e = .reportPosition
    · subst he
      exact h.report payload
    · exact h.call he (hsettled he) payload
  | clearActiveRide =>
    obtain rfl := Option.some.inj hstep
    obtain ⟨frames, resets, ho⟩ := h.ordered
    exact h.shrink rfl rfl rfl (List.Sublist.refl _) (List.Sublist.refl _) h.kept
      ⟨frames, resets, ho.signals, ho.clears, ho.idle, ho.announced⟩ h.down
  | handle => exact h.handle hstep
  | send => exact h.send hstep
  | connect => exact h.connect hsettled hstep
  | disconnect more => exact h.disconnect hstep
  | answer i payload => exact h.answer hstep
  | read => exact h.read hstep

theorem Inv.start (stored : String) : Inv (start stored) where
  noted := .nil _ _
  kept _ hx := by cases hx
  ordered := ⟨[], [], rfl, fun _ hc => (by cases hc), fun hne => absurd rfl hne,
    fun hne => absurd rfl hne⟩
  down _ := ⟨rfl, rfl⟩
  matched _ hp := by cases hp

/-- **Replies go to their requests.** In every settled run, a frame that is accepted
answers the call whose entry it clears. -/
theorem matches_own (h : (machine parse).ReachableWhile Settled s) :
    ∀ p ∈ s.matched, p.2 = some p.1 := by
  have hinv : Inv s := by
    refine Machine.invariant ?_ ?_ h
    · rintro s ⟨stored, rfl⟩
      exact .start stored
    · intro s a t hs hsettled hstep
      exact hs.step hsettled hstep
  exact hinv.matched

/-! ## Two logins -/

/-- Replies that cannot be parsed. -/
def mute : Parsers := ⟨fun _ => none, fun _ => none, fun _ => none⟩

/-- A login after the connection is announced, and its reply. -/
theorem matches_own_login :
    ∃ s, (machine mute).ReachableWhile Settled s ∧ s.matched = [(0, some 0)] ∧
      ∀ p ∈ s.matched, p.2 = some p.1 := by
  obtain ⟨s, hreach, hmatched⟩ : ∃ s, (machine mute).ReachableWhile Settled s ∧
      s.matched = [(0, some 0)] :=
    Machine.exists_of_playWhile (fun _ _ => of_decide_eq_true) (start "") ⟨"", rfl⟩
      [.connect, .handle, .call (.login "13800000000") [], .send, .answer 0 [], .read, .handle]
      (by decide +kernel)
  exact ⟨s, hreach, hmatched, matches_own hreach⟩

/-- A login on the new connection, before the bridge has heard of it; the signal;
and the login again. The reply to the first clears the entry of the second. -/
theorem answered_for_another :
    ∃ s, (machine mute).Reachable s ∧ s.matched = [(0, some 1)] :=
  Machine.exists_of_play (start "") ⟨"", rfl⟩
    [.connect, .call (.login "13800000000") [], .send, .handle, .call (.login "13800000001") [],
      .answer 0 [], .read, .handle] (by decide +kernel)

end Link

end SharedBike.Client
