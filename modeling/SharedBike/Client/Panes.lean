import SharedBike.Client.Matching
import Mathlib.Algebra.Order.Group.Multiset
import Mathlib.Data.Finset.Filter

/-!
# Every call is answered, and no button stays locked

What the bridge signals to the user interface, and the four flags by which the QML
panes keep a button disabled until its result is there: `pendingCode` and
`pendingLogin` of `LoginView`, `pending` of `WalletPane`, `ending` of `RidePane`.

An entry point that is refused signals its failure at once, a reply signals its
result, and a `connected` or `disconnected` signals a failure for everything that
is in flight (`failInFlight`). `one_result_each` counts them: the calls made are the
results shown and the requests in flight, kind by kind. `panes_unlock` is what the
flags are for: a locked button has a request in flight, whose end will unlock it.

Two events end in `balanceReady`, so a refresh may unlock a recharge that is still
under way; the reverse cannot happen. A slot that calls the bridge in turn, which none
does on a failure, makes a call of its own.
-/

namespace SharedBike.Client

open SharedBike.Wire SharedBike.Lib Function

inductive ResultSignal where
  | mobileCodeResult
  | loginResult
  | balanceReady
  | recordsReady
  | nearbyBikesReady
  | unlockResult
  | rideEnded
  | damageResult
  | rideDetailReady
  | ridesReady
  deriving DecidableEq

/-- What an entry point signals when it is refused. -/
def Entry.result : Entry → Option ResultSignal
  | .sendMobileCode => some .mobileCodeResult
  | .login _ => some .loginResult
  | .recharge => some .balanceReady
  | .refreshBalance => some .balanceReady
  | .listRecords => some .recordsReady
  | .refreshNearbyBikes => some .nearbyBikesReady
  | .scanUnlock => some .unlockResult
  | .reportPosition => none
  | .endRide => some .rideEnded
  | .reportDamage => some .damageResult
  | .rideDetail => some .rideDetailReady
  | .listRides => some .ridesReady

/-- The keys of the switch in `failInFlight`. -/
def requestEvents : Finset UInt16 :=
  {0x01, 0x03, 0x05, 0x07, 0x09, 0x11, 0x13, 0x17, 0x19, 0x1B, 0x1D}

/-- What `failInFlight` signals for an entry, and `handleFrame` for the reply to it. -/
def resultOf (eid : UInt16) : Option ResultSignal :=
  if eid = 0x01 then some .mobileCodeResult
  else if eid = 0x03 then some .loginResult
  else if eid = 0x05 ∨ eid = 0x07 then some .balanceReady
  else if eid = 0x09 then some .recordsReady
  else if eid = 0x11 then some .nearbyBikesReady
  else if eid = 0x13 then some .unlockResult
  else if eid = 0x17 then some .rideEnded
  else if eid = 0x19 then some .damageResult
  else if eid = 0x1B then some .rideDetailReady
  else if eid = 0x1D then some .ridesReady
  else none

theorem Entry.eid_spec {e : Entry} (he : e ≠ .reportPosition) :
    e.eid ∈ requestEvents ∧ resultOf e.eid = e.result := by
  cases e with
  | reportPosition => exact absurd rfl he
  | login mobile =>
    exact (by decide : (0x03 : UInt16) ∈ requestEvents ∧ resultOf 0x03 = some .loginResult)
  | _ => decide

/-- A signal, if there is one. -/
def once : Option ResultSignal → Multiset ResultSignal
  | none => 0
  | some r => {r}

/-- The events that have a request in flight. -/
def held (inFlight : UInt16 → Option UInt32) : Finset UInt16 :=
  requestEvents.filter fun eid => (inFlight eid).isSome

/-- The results that are still to come. -/
def outstanding (inFlight : UInt16 → Option UInt32) : Multiset ResultSignal :=
  (held inFlight).val.filterMap resultOf

section Outstanding

variable {f : UInt16 → Option UInt32} {eid : UInt16}

theorem outstanding_insert (hmem : eid ∈ requestEvents) (hfree : f eid = none) (seq : UInt32) :
    outstanding (update f eid (some seq)) = outstanding f + once (resultOf eid) := by
  have hheld : held (update f eid (some seq)) = insert eid (held f) := by
    ext x
    by_cases hx : x = eid
    · subst hx
      simp [held, hmem]
    · simp [held, hx]
  have hnew : eid ∉ held f := by simp [held, hfree]
  rw [outstanding, hheld, Finset.insert_val_of_notMem hnew, outstanding]
  cases hr : resultOf eid with
  | none => rw [Multiset.filterMap_cons_none _ _ hr, once, add_zero]
  | some r => rw [Multiset.filterMap_cons_some _ _ _ hr, once, add_comm, Multiset.singleton_add]

theorem outstanding_erase (hmem : eid ∈ requestEvents) {seq : UInt32} (hheld : f eid = some seq) :
    outstanding f = outstanding (update f eid none) + once (resultOf eid) := by
  have hback : update (update f eid none) eid (some seq) = f := by
    rw [update_idem, ← hheld, update_eq_self]
  rw [← outstanding_insert hmem (update_self ..) seq, hback]

end Outstanding

/-! ## What a step signals -/

namespace Link

variable {s t : Link} {parse : Parsers}

/-- The results that the GUI thread signals in a step. -/
def emits (parse : Parsers) (s : Link) : Action → Multiset ResultSignal
  | .call e payload =>
    match (s.bridge.call e payload).1 with
    | none => once e.result
    | some _ => 0
  | .handle =>
    match s.signals with
    | [] => 0
    | .frameReady x :: _ =>
      match (s.bridge.onFrameReady parse x.frame).1 with
      | none => 0
      | some req => once (resultOf req)
    | _ :: _ => outstanding s.bridge.inFlight
  | _ => 0

/-- The results that a step asks for. -/
def asks : Action → Multiset ResultSignal
  | .call e _ => once e.result
  | _ => 0

/-- How a step moves `in_flight_`, with what it asks for and what it signals. -/
inductive Flow (f f' : UInt16 → Option UInt32) (asked shown : Multiset ResultSignal) : Prop
  /-- nothing, or a call that is refused -/
  | still : f' = f → asked = shown → Flow f f' asked shown
  | taken (eid : UInt16) (seq : UInt32) : eid ∈ requestEvents → f eid = none →
      f' = update f eid (some seq) → asked = once (resultOf eid) →
      shown = 0 → Flow f f' asked shown
  | answered (eid : UInt16) (seq : UInt32) : f eid = some seq →
      f' = update f eid none → asked = 0 →
      shown = once (resultOf eid) → Flow f f' asked shown
  | failed : f' = (fun _ => none) → asked = 0 → shown = outstanding f → Flow f f' asked shown

theorem call_bridge (s : Link) (e : Entry) (payload : Bytes) :
    (s.call e payload).bridge = (s.bridge.call e payload).2 := by
  unfold Link.call
  split <;> simp_all

theorem flow_call (s : Link) (e : Entry) (payload : Bytes) :
    Flow s.bridge.inFlight (s.call e payload).bridge.inFlight (asks (.call e payload))
      (s.emits parse (.call e payload)) := by
  by_cases he : e = .reportPosition
  · subst he
    exact .still rfl rfl
  · obtain ⟨hmem, hresult⟩ := Entry.eid_spec he
    rw [call_bridge]
    rcases call_cases s.bridge he payload with ⟨hnone, hsame⟩ | ⟨hfree, f, hsome, -, hnew⟩
    · refine .still hsame ?_
      simp only [asks, emits, hnone]
    · refine .taken e.eid f.seq hmem hfree hnew ?_ ?_
      · rw [hresult]
        rfl
      · simp only [emits, hsome]

theorem flow_handle (h : s.handle parse = some t) :
    Flow s.bridge.inFlight t.bridge.inFlight 0 (s.emits parse .handle) := by
  unfold Link.handle at h
  split at h
  · cases h
  next x rest hsig =>
    cases h
    simp only [emits, hsig, Link.onFrameReady]
    generalize hout : s.bridge.onFrameReady parse x.frame = out
    obtain ⟨found, b⟩ := out
    unfold Bridge.onFrameReady at hout
    split at hout
    · cases hout
      exact .still rfl rfl
    · dsimp only at hout
      split at hout
      · cases hout
        exact .still rfl rfl
      next seq hseq =>
        split at hout
        · cases hout
          exact .still rfl rfl
        · cases hout
          refine .answered _ seq hseq ?_ rfl rfl
          simp only [Bridge.handleFrame_inFlight]
  next hsig =>
    cases h
    simp only [emits, hsig]
    exact .failed rfl rfl rfl
  next hsig =>
    cases h
    simp only [emits, hsig]
    exact .failed rfl rfl rfl

/-- **One step of the client.** -/
theorem flow_step {a : Action} (h : s.step parse a = some t) :
    Flow s.bridge.inFlight t.bridge.inFlight (asks a) (s.emits parse a) := by
  cases a with
  | call e payload =>
    cases h
    exact flow_call s e payload
  | handle => exact flow_handle h
  | clearActiveRide =>
    cases h
    exact .still rfl rfl
  | answer i payload =>
    simp only [step, answer] at h
    split at h
    · cases h
    · obtain ⟨y, -, rfl⟩ := Option.map_eq_some_iff.mp h
      exact .still rfl rfl
  | _ =>
    -- what the worker does does not reach the bridge
    simp only [step, send, connect, disconnect, read] at h
    split at h <;> cases h
    exact .still rfl rfl

/-- A call is refused with its result, or it is in flight. -/
theorem call_result (s : Link) {e : Entry} {r : ResultSignal} (hr : e.result = some r)
    (payload : Bytes) : r ∈ s.emits parse (.call e payload) ∨
      ((s.call e payload).bridge.inFlight e.eid).isSome := by
  have he : e ≠ .reportPosition := by
    rintro rfl
    cases hr
  rcases call_cases s.bridge he payload with ⟨hnone, -⟩ | ⟨-, f, hsome, -, hnew⟩
  · left
    simp only [emits, hnone, hr, once, Multiset.mem_singleton]
  · right
    rw [call_bridge, hnew, update_self]
    rfl

namespace Flow

variable {f f' : UInt16 → Option UInt32} {asked shown : Multiset ResultSignal}

theorem requests (h : Flow f f' asked shown) (hf : ∀ eid, f eid ≠ none → eid ∈ requestEvents)
    (eid : UInt16) (heid : f' eid ≠ none) : eid ∈ requestEvents := by
  cases h with
  | still hsame => exact hf eid (hsame ▸ heid)
  | taken x seq hmem _ hnew =>
    rw [hnew] at heid
    by_cases hx : eid = x
    · exact hx ▸ hmem
    · exact hf eid (by rwa [update_of_ne hx] at heid)
  | answered x seq _ hnew =>
    rw [hnew] at heid
    by_cases hx : eid = x
    · exact absurd (hx ▸ update_self ..) heid
    · exact hf eid (by rwa [update_of_ne hx] at heid)
  | failed hnone => exact absurd (congrFun hnone eid) heid

/-- What is asked for is shown or stays outstanding. -/
theorem account (h : Flow f f' asked shown) (hf : ∀ eid, f eid ≠ none → eid ∈ requestEvents) :
    outstanding f + asked = shown + outstanding f' := by
  cases h with
  | still hsame heq => rw [hsame, heq, add_comm]
  | taken x seq hmem hfree hnew hasked hshown =>
    rw [hnew, outstanding_insert hmem hfree, hasked, hshown, zero_add]
  | answered x seq hheld hnew hasked hshown =>
    have hmem := hf x (by rw [hheld]; exact Option.some_ne_none seq)
    rw [outstanding_erase hmem hheld, hnew, hasked, hshown, add_zero, add_comm]
  | failed hnone hasked hshown =>
    have hempty : outstanding f' = 0 := by
      rw [hnone]
      rfl
    rw [hasked, hshown, hempty]

/-- A request leaves `in_flight_` with its result. -/
theorem stays (h : Flow f f' asked shown) {eid : UInt16} {r : ResultSignal}
    (hmem : eid ∈ requestEvents) (hr : resultOf eid = some r) (hheld : (f eid).isSome)
    (hnot : r ∉ shown) : (f' eid).isSome := by
  cases h with
  | still hsame => rwa [hsame]
  | taken x seq _ _ hnew =>
    rw [hnew]
    by_cases hx : eid = x
    · rw [hx, update_self]
      rfl
    · rwa [update_of_ne hx]
  | answered x seq _ hnew _ hshown =>
    rw [hnew]
    by_cases hx : eid = x
    · rw [hshown, ← hx, hr] at hnot
      exact absurd (Multiset.mem_singleton_self r) hnot
    · rwa [update_of_ne hx]
  | failed _ _ hshown =>
    rw [hshown] at hnot
    refine absurd ((Multiset.mem_filterMap resultOf _).mpr ⟨eid, ?_, hr⟩) hnot
    exact Finset.mem_val.mpr (Finset.mem_filter.mpr ⟨hmem, hheld⟩)

end Flow

end Link

/-! ## The panes -/

/-- The flags that keep a button disabled. -/
inductive Lock where
  | pendingCode
  | pendingLogin
  | pending
  | ending
  deriving DecidableEq

/-- The entry point behind the button. -/
def Lock.entry (mobile : String) : Lock → Entry
  | .pendingCode => .sendMobileCode
  | .pendingLogin => .login mobile
  | .pending => .recharge
  | .ending => .endRide

/-- The signal whose slot resets the flag. -/
def Lock.signal : Lock → ResultSignal
  | .pendingCode => .mobileCodeResult
  | .pendingLogin => .loginResult
  | .pending => .balanceReady
  | .ending => .rideEnded

/-- The event of its request. -/
def Lock.eid (l : Lock) : UInt16 := (l.entry "").eid

theorem Lock.entry_spec (l : Lock) (mobile : String) : (l.entry mobile).eid = l.eid ∧
    (l.entry mobile).result = some l.signal ∧ l.eid ∈ requestEvents ∧
    resultOf l.eid = some l.signal := by
  cases l <;> refine ⟨rfl, rfl, by decide, by decide⟩

/-- The client with its panes, and all results asked for and shown so far. -/
structure Panes where
  link : Link
  locked : Lock → Bool
  asked : Multiset ResultSignal
  shown : Multiset ResultSignal

inductive PaneAction where
  /-- the button behind a flag is clicked -/
  | click (l : Lock) (mobile : String) (payload : Bytes)
  /-- any other call, or a step of the network -/
  | step (a : Action)

namespace Panes

/-- A step with the flags as they are at its beginning; its signals reset theirs. -/
def does (parse : Parsers) (p : Panes) (locked : Lock → Bool) (a : Action) : Option Panes :=
  (p.link.step parse a).map fun link =>
    { link
      locked := fun l => locked l && l.signal ∉ p.link.emits parse a
      asked := p.asked + Link.asks a
      shown := p.shown + p.link.emits parse a }

/-- A button is enabled while its flag is not set and the link is up; it sets the flag and
calls. -/
def next (parse : Parsers) (p : Panes) : PaneAction → Option Panes
  | .click l mobile payload =>
    if p.locked l = false ∧ p.link.bridge.linkUp then
      p.does parse (update p.locked l true) (.call (l.entry mobile) payload)
    else none
  | .step a => p.does parse p.locked a

def machine (parse : Parsers) : Machine Panes PaneAction where
  init p := (∃ stored, p.link = Link.start stored) ∧ p.locked = (fun _ => false) ∧ p.asked = 0 ∧
    p.shown = 0
  next := next parse

variable {parse : Parsers} {p p' : Panes}

structure Inv (p : Panes) : Prop where
  requests : ∀ eid, p.link.bridge.inFlight eid ≠ none → eid ∈ requestEvents
  account : p.asked = p.shown + outstanding p.link.bridge.inFlight
  locks : ∀ l, p.locked l = true → (p.link.bridge.inFlight l.eid).isSome

theorem Inv.does (h : p.Inv) {locked : Lock → Bool} {a : Action}
    (hs : p.does parse locked a = some p')
    (hlocked : ∀ l link, p.link.step parse a = some link → locked l = true →
      (p.link.bridge.inFlight l.eid).isSome ∨ l.signal ∈ p.link.emits parse a ∨
        (link.bridge.inFlight l.eid).isSome) : p'.Inv := by
  obtain ⟨link, hstep, rfl⟩ := Option.map_eq_some_iff.mp hs
  have hflow := Link.flow_step hstep
  refine ⟨hflow.requests h.requests, ?_, fun l hl => ?_⟩
  · show p.asked + Link.asks a = p.shown + p.link.emits parse a + outstanding link.bridge.inFlight
    rw [h.account, add_assoc, hflow.account h.requests, add_assoc]
  · obtain ⟨hold, hnot⟩ := Bool.and_eq_true_iff.mp hl
    have hnot := of_decide_eq_true hnot
    obtain ⟨-, -, hmem, hr⟩ := l.entry_spec ""
    rcases hlocked l link hstep hold with hheld | hshown | hheld
    · exact hflow.stays hmem hr hheld hnot
    · exact absurd hshown hnot
    · exact hheld

theorem Inv.next (h : p.Inv) {a : PaneAction} (hs : p.next parse a = some p') : p'.Inv := by
  cases a with
  | step a => exact h.does hs fun l _ _ hl => .inl (h.locks l hl)
  | click l mobile payload =>
    obtain ⟨-, hs⟩ := Option.ite_none_right_eq_some.mp hs
    refine h.does hs fun l' link hstep hl => ?_
    by_cases hsame : l' = l
    · subst hsame
      cases hstep
      obtain ⟨heid, hresult, -⟩ := l'.entry_spec mobile
      rw [← heid]
      exact .inr (p.link.call_result hresult payload)
    · rw [update_of_ne hsame] at hl
      exact .inl (h.locks l' hl)

theorem inv_of_reachable (h : (machine parse).Reachable p) : p.Inv := by
  refine Machine.invariant (fun p hp => ?_) (fun _ _ _ hp _ hs => hp.next hs) h
  obtain ⟨⟨stored, hlink⟩, hlocked, hasked, hshown⟩ := hp
  refine ⟨?_, ?_, ?_⟩
  · rw [hlink]
    exact fun _ hne => absurd rfl hne
  · rw [hlink, hasked, hshown]
    rfl
  · rw [hlocked]
    exact nofun

/-- **Every call gets one result.** The calls that were made, kind by kind, are the results
that were shown and the requests in flight. -/
theorem one_result_each (h : (machine parse).Reachable p) :
    p.asked = p.shown + outstanding p.link.bridge.inFlight :=
  (inv_of_reachable h).account

/-- The code is asked for, and the connection is lost. -/
def lostCode : List PaneAction :=
  [.step .connect, .step .handle, .click .pendingCode "" [], .step (.disconnect 0)]

def opened : Panes := ⟨Link.start "", fun _ => false, 0, 0⟩

theorem opened_init : (machine Link.mute).init opened := ⟨⟨"", rfl⟩, rfl, rfl, rfl⟩

theorem one_result_each_lostCode :
    ∃ p, (machine Link.mute).Reachable p ∧ p.asked = {.mobileCodeResult} ∧ p.shown = 0 ∧
      p.asked = p.shown + outstanding p.link.bridge.inFlight := by
  obtain ⟨p, hreach, hasked, hshown⟩ : ∃ p, (machine Link.mute).Reachable p ∧
      p.asked = {.mobileCodeResult} ∧ p.shown = 0 :=
    Machine.exists_of_play opened opened_init lostCode (by decide)
  exact ⟨p, hreach, hasked, hshown, one_result_each hreach⟩

/-- **No button stays locked.** A locked button has a request in flight, which unlocks it
when it is answered; and a signal that the link has changed unlocks them all. -/
theorem panes_unlock (h : (machine parse).Reachable p) :
    (∀ l, p.locked l = true → (p.link.bridge.inFlight l.eid).isSome) ∧
      ∀ c rest p', p.link.signals = c :: rest → c.clears = true →
        (machine parse).next p (.step .handle) = some p' → ∀ l, p'.locked l = false := by
  refine ⟨(inv_of_reachable h).locks, fun c rest p' hsig hclears hs l => ?_⟩
  have hempty : p'.link.bridge.inFlight l.eid = none := by
    obtain ⟨link, hstep, rfl⟩ := Option.map_eq_some_iff.mp hs
    simp only [Link.step, Link.handle, hsig] at hstep
    cases c with
    | frameReady x => cases hclears
    | _ =>
      cases hstep
      rfl
  have hlocks := (inv_of_reachable (.step h trivial hs)).locks l
  rw [hempty] at hlocks
  exact Bool.eq_false_iff.mpr fun hl => absurd (hlocks hl) (by decide)

theorem panes_unlock_lostCode :
    ∃ p, (machine Link.mute).Reachable p ∧ p.locked .pendingCode = true ∧
      p.link.signals = [.disconnected] ∧
      ∀ p', (machine Link.mute).next p (.step .handle) = some p' → ∀ l, p'.locked l = false := by
  obtain ⟨p, hreach, hlocked, hsig⟩ : ∃ p, (machine Link.mute).Reachable p ∧
      p.locked .pendingCode = true ∧ p.link.signals = [.disconnected] :=
    Machine.exists_of_play opened opened_init lostCode (by decide)
  exact ⟨p, hreach, hlocked, hsig,
    fun p' => (panes_unlock hreach).2 .disconnected [] p' hsig rfl⟩

end Panes

end SharedBike.Client
