import SharedBike.Ipc.SpscLaws
import SharedBike.Ipc.Startup

/-!
# Attaching and recovering agree

A view keeps its own copy of a counter from the moment it attaches. So a ring
that is reset under a view of the gateway is out of step with it from then on
(`attach_before_reset`), and a run in which that never happens ends with every
view in step (`attach_agrees`).

`RingOk` is what holds of one ring, whoever uses it; `Startup.Inv` is that for
every ring, with how far the loops of the two processes have come. Every step
changes one ring at most, and `Startup.Inv.change` is the one place where the
rings are put together again.
-/

namespace SharedBike.Ipc

open SharedBike.Lib Function

/-- The two sides of a ring are in step, and no more entries are in it than it has slots. -/
def FifoReady (S : RingShape) (h : RingHeader) (p : Producer) (c : Consumer) : Prop :=
  p.headLocal = h.head ∧ c.tailLocal = h.tail ∧ (h.head - h.tail).toNat ≤ S.kSlotCount.toNat

/-! ## One ring -/

/-- What holds of a ring whatever its views: a view is as if it had just attached. Once
the ring is `ready` its counters are at most a table apart. -/
structure RingOk (S : RingShape) (h : RingHeader) (p : Option Producer) (c : Option Consumer)
    (ready : Prop) : Prop where
  prod : ∀ x, p = some x → x = .attach h
  cons : ∀ x, c = some x → x = .attach h
  window : ready → (h.head - h.tail).toNat ≤ S.kSlotCount.toNat

namespace RingOk

variable {S : RingShape} {h : RingHeader} {p : Option Producer} {c : Option Consumer}
  {ready ready' : Prop}

theorem mono (hok : RingOk S h p c ready) (himp : ready' → ready) : RingOk S h p c ready' :=
  ⟨hok.prod, hok.cons, fun hr => hok.window (himp hr)⟩

theorem attachProducer (hok : RingOk S h p c ready) : RingOk S h (some (.attach h)) c ready :=
  ⟨fun _ hx => (Option.some.inj hx).symm, hok.cons, hok.window⟩

theorem attachConsumer (hok : RingOk S h p c ready) : RingOk S h p (some (.attach h)) ready :=
  ⟨hok.prod, fun _ hx => (Option.some.inj hx).symm, hok.window⟩

/-- A ring that nobody sees can be reset. -/
theorem zero : RingOk S SharedHeader.zero.toRingHeader none none ready :=
  ⟨by simp, by simp, fun _ => by simp [SharedHeader.zero]⟩

theorem push {x x' q : Producer} {h' : RingHeader} {slot : Nat} (hok : RingOk S h (some x) c ready)
    (hbegin : x.beginWrite S h = some (slot, x')) (hpublish : x'.publish 1 h = some (q, h')) :
    RingOk S h' (some q) c ready := by
  obtain rfl := hok.prod x rfl
  unfold Producer.beginWrite at hbegin
  split at hbegin
  · cases hbegin
  · rename_i hfull
    obtain ⟨-, rfl⟩ := Prod.mk.inj (Option.some.inj hbegin)
    simp only [Producer.publish, Producer.attach, UInt32.zero_add, if_true, Option.some.injEq,
      Prod.mk.injEq] at hpublish
    obtain ⟨rfl, rfl⟩ := hpublish
    refine ⟨?_, hok.cons, ?_⟩
    · intro y hy
      obtain rfl := Option.some.inj hy
      simp [Producer.attach]
    · intro hr
      have hle := hok.window hr
      have hbits := Ring.two_pow_bits_lt S
      have hcap := Ring.kSlotCount_toNat S
      have hne : (h.head - h.tail).toNat ≠ S.kSlotCount.toNat := by
        intro heq
        exact hfull (UInt32.toNat_inj.mp heq)
      have hone : h.head + 1 - h.tail = h.head - h.tail + 1 := by grind
      show (h.head + 1 - h.tail).toNat ≤ _
      rw [hone, UInt32.toNat_add, UInt32.toNat_one]
      omega

theorem take {x : Consumer} (hok : RingOk S h p (some x) ready) (max : UInt32) :
    RingOk S (x.release (x.popBatch S h max) h).2 p (some (x.release (x.popBatch S h max) h).1)
      ready := by
  obtain rfl := hok.cons x rfl
  refine ⟨hok.prod, ?_, ?_⟩
  · intro y hy
    obtain rfl := Option.some.inj hy
    rfl
  · intro hr
    have hle := hok.window hr
    have hpop : (Consumer.attach h).popBatch S h max ≤ h.head - h.tail := by
      rw [UInt32.le_iff_toNat_le, Consumer.popBatch, UInt32.toNat_min, UInt32.toNat_min]
      exact (min_le_left _ _).trans (min_le_right _ _)
    generalize (Consumer.attach h).popBatch S h max = n at hpop
    have hsub : h.head - (h.tail + n) = h.head - h.tail - n := by grind
    show (h.head - (h.tail + n)).toNat ≤ _
    rw [hsub, UInt32.toNat_sub_of_le _ _ hpop]
    omega

end RingOk

/-! ## Where the loops are -/

/-- A loop that is at `c` has passed the ring. -/
def RingId.Before (r c : RingId) : Prop :=
  (r.file = c.file ∧ r.no < c.no) ∨ (r.file = .req ∧ c.file = .rsp)

theorem RingId.before_next {P : Params} {r c c' : RingId} (hr : r.In P) (hc : c.next P = some c')
    (h : r.Before c') : r.Before c ∨ (r = c ∧ c.In P) := by
  obtain ⟨f, i⟩ := r
  obtain ⟨g, j⟩ := c
  simp only [next] at hc
  split at hc
  · rename_i hin
    obtain rfl := Option.some.inj hc
    rcases h with ⟨rfl, hlt⟩ | h
    · rcases Nat.lt_succ_iff_lt_or_eq.mp hlt with hlt | rfl
      · exact .inl (.inl ⟨rfl, hlt⟩)
      · exact .inr ⟨rfl, hin⟩
    · exact .inl (.inr h)
  · rename_i hout
    cases g with
    | rsp => cases hc
    | req =>
      obtain rfl := Option.some.inj hc
      rcases h with ⟨-, hlt⟩ | ⟨rfl, -⟩
      · exact absurd hlt (Nat.not_lt_zero _)
      · -- the loop over `req` has ended
        refine .inl (.inl ⟨rfl, ?_⟩)
        exact Nat.lt_of_lt_of_le hr (Nat.not_lt.mp hout)

theorem RingId.not_before_first (r : RingId) : ¬ r.Before ⟨.req, 0⟩ := by
  rintro (⟨-, hlt⟩ | ⟨-, hf⟩)
  · exact Nat.not_lt_zero _ hlt
  · cases hf

theorem RingId.before_last {P : Params} {r c : RingId} (hr : r.In P) (hc : c.next P = none) :
    r.Before c := by
  obtain ⟨f, i⟩ := r
  obtain ⟨g, j⟩ := c
  simp only [next] at hc
  split at hc
  · cases hc
  · rename_i hout
    cases g with
    | req => cases hc
    | rsp =>
      cases f with
      | req => exact .inr ⟨rfl, rfl⟩
      | rsp =>
        refine .inl ⟨rfl, ?_⟩
        exact Nat.lt_of_lt_of_le hr (Nat.not_lt.mp hout)

/-- Dispatch has reset the ring. -/
def DispatchAt.HasReset (r : RingId) : DispatchAt → Prop
  | .check f => r.Before ⟨f, 0⟩
  | .clear f => r.Before ⟨f, 0⟩
  | .fill f => r.Before ⟨f, 0⟩
  | .reset c => r.Before c
  | .attach _ => True
  | .register _ => True
  | .running => True
  | .refused => False

/-- Dispatch has left `create_or_recover`. -/
def DispatchAt.Recovered : DispatchAt → Prop
  | .attach _ => True
  | .register _ => True
  | .running => True
  | _ => False

/-- Dispatch has attached to the ring. -/
def DispatchAt.HasAttached (r : RingId) : DispatchAt → Prop
  | .attach c => r.Before c
  | .register _ => True
  | .running => True
  | _ => False

def GatewayAt.HasAttached (r : RingId) : GatewayAt → Prop
  | .validate _ => False
  | .attach c => r.Before c
  | .register _ => True
  | .running => True

namespace Startup

variable {P : Params} {s t : Startup} {c : RingId}

/-! ## What a step changes -/

theorem ring_setRing (s : Startup) (r : RingId) (h : SharedHeader) :
    (s.setRing r h).ring = update s.ring r h := by
  funext r'
  obtain ⟨f, i⟩ := r
  obtain ⟨g, j⟩ := r'
  by_cases hg : g = f
  · subst hg
    by_cases hj : j = i
    · subst hj
      simp [ring, setRing]
    · have hne : (⟨g, j⟩ : RingId) ≠ ⟨g, i⟩ := by simpa using hj
      simp [ring, setRing, update_of_ne hne, update_of_ne hj]
  · have hne : (⟨g, j⟩ : RingId) ≠ ⟨f, i⟩ := by simp [hg]
    simp [ring, setRing, update_of_ne hne, update_of_ne hg]

@[simp] theorem ring_setHeader (s : Startup) (f : FileId) (h : ShmFileHeader) :
    (s.setHeader f h).ring = s.ring := by
  funext ⟨g, j⟩
  by_cases hg : g = f
  · subst hg
    simp [ring, setHeader]
  · simp [ring, setHeader, update_of_ne hg]

/-- A view is a producer's or a consumer's, by who looks. -/
theorem prods_isSome (s : Startup) (r : RingId) :
    (s.prods r).isSome = s.sees r.file.producer r := by
  simp [sees]

theorem cons_isSome (s : Startup) (r : RingId) : (s.cons r).isSome = s.sees r.file.consumer r := by
  obtain ⟨f, i⟩ := r
  cases f <;> rfl

@[simp] theorem dispatch_attach (who : Process) (s : Startup) (r : RingId) :
    (s.attach who r).dispatch = s.dispatch := by
  unfold attach
  split <;> rfl

@[simp] theorem gateway_attach (who : Process) (s : Startup) (r : RingId) :
    (s.attach who r).gateway = s.gateway := by
  unfold attach
  split <;> rfl

/-- What every run keeps in which no ring is reset under the gateway. -/
structure Inv (P : Params) (s : Startup) : Prop where
  ringOk : ∀ r, RingOk r.file.shape (s.ring r).toRingHeader (s.prods r) (s.cons r)
    (r.In P ∧ s.dispatch.HasReset r)
  recovered : ∀ r, s.sees .dispatch r → s.dispatch.Recovered
  dispatchSees : ∀ r, r.In P → s.dispatch.HasAttached r → s.sees .dispatch r
  gatewaySees : ∀ r, r.In P → s.gateway.HasAttached r → s.sees .gateway r

namespace Inv

theorem leftover (files : FileId → ShmFile) : Inv P (leftover files) where
  ringOk r := by
    refine ⟨by simp [Startup.leftover], by simp [Startup.leftover], ?_⟩
    rintro ⟨-, hreset⟩
    exact absurd hreset r.not_before_first
  recovered r h := by simp [Startup.leftover, sees] at h
  dispatchSees r _ h := h.elim
  gatewaySees r _ h := h.elim

section

variable (h : Inv P s)

include h

/-- A step that changes the counters or the views of one ring at most. -/
theorem change (c : RingId)
    (hring : ∀ r, r ≠ c → (t.ring r).toRingHeader = (s.ring r).toRingHeader)
    (hprods : ∀ r, r ≠ c → t.prods r = s.prods r) (hcons : ∀ r, r ≠ c → t.cons r = s.cons r)
    (hok : RingOk c.file.shape (t.ring c).toRingHeader (t.prods c) (t.cons c)
      (c.In P ∧ t.dispatch.HasReset c))
    (hsees : ∀ who, s.sees who c → t.sees who c)
    (hnew : t.sees .dispatch c → s.sees .dispatch c ∨ t.dispatch.Recovered)
    (hreset : ∀ r, r ≠ c → r.In P → t.dispatch.HasReset r → s.dispatch.HasReset r)
    (hrecovered : s.dispatch.Recovered → t.dispatch.Recovered)
    (hdispatch : ∀ r, r.In P → t.dispatch.HasAttached r →
      s.dispatch.HasAttached r ∨ t.sees .dispatch r)
    (hgateway : ∀ r, r.In P → t.gateway.HasAttached r →
      s.gateway.HasAttached r ∨ t.sees .gateway r) : Inv P t := by
  have hothers : ∀ who r, r ≠ c → t.sees who r = s.sees who r := by
    intro who r hr
    simp only [sees, hprods r hr, hcons r hr]
  have hkept : ∀ who r, s.sees who r → t.sees who r := by
    intro who r hr
    by_cases hc : r = c
    · rw [hc] at hr ⊢
      exact hsees who hr
    · rw [hothers who r hc]
      exact hr
  refine ⟨?_, ?_, ?_, ?_⟩
  · intro r
    by_cases hc : r = c
    · rw [hc]
      exact hok
    · rw [hring r hc, hprods r hc, hcons r hc]
      exact (h.ringOk r).mono fun hr => ⟨hr.1, hreset r hc hr.1 hr.2⟩
  · intro r hr
    by_cases hc : r = c
    · rw [hc] at hr
      exact (hnew hr).elim (fun hold => hrecovered (h.recovered c hold)) id
    · rw [hothers .dispatch r hc] at hr
      exact hrecovered (h.recovered r hr)
  · intro r hin hr
    exact (hdispatch r hin hr).elim (fun hold => hkept _ r (h.dispatchSees r hin hold)) id
  · intro r hin hr
    exact (hgateway r hin hr).elim (fun hold => hkept _ r (h.gatewaySees r hin hold)) id

/-- A step that leaves the counters and the views alone is a matter of where the two
processes are. -/
theorem move (hring : ∀ r, (t.ring r).toRingHeader = (s.ring r).toRingHeader)
    (hprods : t.prods = s.prods) (hcons : t.cons = s.cons)
    (hreset : ∀ r, r.In P → t.dispatch.HasReset r → s.dispatch.HasReset r)
    (hrecovered : s.dispatch.Recovered → t.dispatch.Recovered)
    (hdispatch : ∀ r, r.In P → t.dispatch.HasAttached r →
      s.dispatch.HasAttached r ∨ s.sees .dispatch r)
    (hgateway : ∀ r, r.In P → t.gateway.HasAttached r →
      s.gateway.HasAttached r ∨ s.sees .gateway r) : Inv P t := by
  have hsees : t.sees = s.sees := by
    funext who r
    simp only [sees, hprods, hcons]
  rw [← hsees] at hdispatch hgateway
  refine h.change ⟨.req, 0⟩ (fun r _ => hring r) (fun r _ => congrFun hprods r)
    (fun r _ => congrFun hcons r) ?_ ?_ ?_ (fun r _ => hreset r) hrecovered hdispatch hgateway
  · rw [hring, hprods, hcons]
    exact (h.ringOk _).mono fun hr => ⟨hr.1, hreset _ hr.1 hr.2⟩
  · intro who
    rw [hsees]
    exact id
  · intro hr
    rw [hsees] at hr
    exact .inl hr

/-- A process and its pid or heartbeat: the counters stay. -/
theorem setRing {hdr : SharedHeader}
    (hhdr : hdr.toRingHeader = (s.ring c).toRingHeader) : Inv P (s.setRing c hdr) := by
  refine h.move ?_ rfl rfl (fun _ _ => id) id (fun _ _ => .inl) (fun _ _ => .inl)
  intro r
  rw [ring_setRing]
  by_cases hc : r = c
  · rw [hc, update_self, hhdr]
  · rw [update_of_ne hc]

theorem setHeader (f : FileId) (hdr : ShmFileHeader) : Inv P (s.setHeader f hdr) := by
  refine h.move ?_ rfl rfl (fun _ _ => id) id (fun _ _ => .inl) (fun _ _ => .inl)
  intro r
  rw [ring_setHeader]

theorem registerPid (who : Process) (pid : UInt32) (c : RingId) :
    Inv P (s.registerPid who pid c) := by
  apply h.setRing
  split <;> rfl

theorem stamp (who : Process) (now : UInt64) (c : RingId) :
    Inv P (s.stamp who now c) := by
  apply h.setRing
  split <;> rfl

/-- A process takes its view of a ring; Dispatch does so after the recovery. -/
theorem attach {who : Process} (c : RingId)
    (hwho : who = .dispatch → s.dispatch.Recovered) :
    Inv P (s.attach who c) ∧ (s.attach who c).sees who c := by
  have hok := h.ringOk c
  have hrec : (s.attach who c).sees .dispatch c → s.sees .dispatch c ∨ s.dispatch.Recovered := by
    intro hsees
    by_cases hd : who = .dispatch
    · exact .inr (hwho hd)
    · left
      cases who with
      | dispatch => exact absurd rfl hd
      | gateway =>
        obtain ⟨f, i⟩ := c
        cases f <;> exact hsees
  unfold Startup.attach at hrec ⊢
  split at hrec <;> rename_i hprod
  · rw [if_pos hprod]
    refine ⟨h.change c (fun _ _ => rfl) ?_ (fun _ _ => rfl) ?_ ?_ hrec (fun _ _ _ => id) id
      (fun _ _ => .inl) (fun _ _ => .inl), by simp [sees, hprod]⟩
    · intro r hr
      exact update_of_ne hr _ _
    · show RingOk _ (s.ring c).toRingHeader (update s.prods c _ c) (s.cons c) _
      rw [update_self]
      exact hok.attachProducer
    · intro who' hsees
      simp only [sees, update_self] at hsees ⊢
      split <;> simp_all
  · rw [if_neg hprod]
    refine ⟨h.change c (fun _ _ => rfl) (fun _ _ => rfl) ?_ ?_ ?_ hrec (fun _ _ _ => id) id
      (fun _ _ => .inl) (fun _ _ => .inl), by simp [sees, hprod]⟩
    · intro r hr
      exact update_of_ne hr _ _
    · show RingOk _ (s.ring c).toRingHeader (s.prods c) (update s.cons c _ c) _
      rw [update_self]
      exact hok.attachConsumer
    · intro who' hsees
      simp only [sees, update_self] at hsees ⊢
      split <;> simp_all

/-- One round of a loop that attaches. -/
theorem attachRound (who : Process) (c : RingId)
    (hwho : who = .dispatch → s.dispatch.Recovered) :
    Inv P (s.within P c (Startup.attach who)) ∧
      (c.In P → (s.within P c (Startup.attach who)).sees who c) ∧
      (s.within P c (Startup.attach who)).dispatch = s.dispatch ∧
      (s.within P c (Startup.attach who)).gateway = s.gateway := by
  unfold within
  split
  · obtain ⟨hinv, hsees⟩ := h.attach c hwho
    exact ⟨hinv, fun _ => hsees, dispatch_attach who s c, gateway_attach who s c⟩
  · rename_i hout
    exact ⟨h, fun hin => absurd hin hout, rfl, rfl⟩

theorem registerRound (who : Process) (pid : UInt32) (c : RingId) :
    Inv P (s.within P c (Startup.registerPid who pid)) := by
  unfold within
  split
  · exact h.registerPid who pid c
  · exact h

/-- A ring is used: its counters and the views that there are go on together. -/
theorem exchange {hdr : RingHeader} {p : Option Producer} {x : Option Consumer}
    (hp : p.isSome = (s.prods c).isSome) (hx : x.isSome = (s.cons c).isSome)
    (hok : RingOk c.file.shape hdr p x (c.In P ∧ s.dispatch.HasReset c)) :
    Inv P { s.setRing c { s.ring c with toRingHeader := hdr } with
      prods := update s.prods c p, cons := update s.cons c x } := by
  have hsees : ∀ who, sees { s.setRing c { s.ring c with toRingHeader := hdr } with
      prods := update s.prods c p, cons := update s.cons c x } who c =
        s.sees who c := by
    intro who
    simp only [sees, update_self, hp, hx]
  refine h.change c ?_ ?_ ?_ ?_ ?_ ?_ (fun _ _ _ => id) id (fun _ _ => .inl) (fun _ _ => .inl)
  · intro r hr
    show ((s.setRing c _).ring r).toRingHeader = _
    rw [ring_setRing, update_of_ne hr]
  · intro r hr
    exact update_of_ne hr _ _
  · intro r hr
    exact update_of_ne hr _ _
  · show RingOk _ ((s.setRing c _).ring c).toRingHeader (update s.prods c _ c)
      (update s.cons c _ c) _
    rw [ring_setRing, update_self, update_self, update_self]
    exact hok
  · intro who hr
    rw [hsees]
    exact hr
  · intro hr
    rw [hsees] at hr
    exact .inl hr

theorem push (hs : s.push c = some t) : Inv P t := by
  obtain ⟨p, hp, hs⟩ := Option.bind_eq_some_iff.mp hs
  split at hs
  · obtain rfl := Option.some.inj hs
    exact h
  · rename_i slot p' hbegin
    obtain ⟨⟨q, hdr⟩, hpublish, rfl⟩ := Option.map_eq_some_iff.mp hs
    have hok := h.ringOk c
    rw [hp] at hok
    have hq := h.exchange (p := some q) (by rw [hp]; rfl) rfl (hok.push hbegin hpublish)
    rw [update_eq_self] at hq
    exact hq

theorem take {max : UInt32} (hs : s.take c max = some t) : Inv P t := by
  obtain ⟨x, hx, rfl⟩ := Option.map_eq_some_iff.mp hs
  have hok := h.ringOk c
  rw [hx] at hok
  have hq := h.exchange (p := s.prods c) rfl (by rw [hx]; rfl) (hok.take max)
  rw [update_eq_self] at hq
  exact hq

/-- Dispatch resets a ring that nobody sees. -/
theorem reset (hat : s.dispatch = .reset c) (hin : c.In P)
    (hunseen : s.sees .gateway c = false) :
    Inv P { s.setRing c .zero with dispatch := .reset ⟨c.file, c.no + 1⟩ } := by
  have hdispatch : s.sees .dispatch c = false := by
    by_contra hsees
    have hrec := h.recovered c (by simpa using hsees)
    rw [hat] at hrec
    exact hrec
  have hnone : s.prods c = none ∧ s.cons c = none := by
    obtain ⟨f, i⟩ := c
    cases f with
    | req => exact ⟨by simpa [sees, FileId.producer] using hunseen,
        by simpa [sees, FileId.producer] using hdispatch⟩
    | rsp => exact ⟨by simpa [sees, FileId.producer] using hdispatch,
        by simpa [sees, FileId.producer] using hunseen⟩
  have hnext : c.next P = some ⟨c.file, c.no + 1⟩ := if_pos hin
  refine h.change c ?_ (fun _ _ => rfl) (fun _ _ => rfl) ?_ (fun _ => id) .inl ?_ ?_ ?_
    (fun _ _ => .inl)
  · intro r hr
    show ((s.setRing c _).ring r).toRingHeader = _
    rw [ring_setRing, update_of_ne hr]
  · show RingOk _ ((s.setRing c _).ring c).toRingHeader (s.prods c) (s.cons c) _
    rw [ring_setRing, update_self, hnone.1, hnone.2]
    exact .zero
  · intro r hr hrin hreset
    rw [hat]
    exact (RingId.before_next hrin hnext hreset).resolve_right fun heq => hr heq.1
  · intro hrec
    rw [hat] at hrec
    exact hrec.elim
  · intro r _ hr
    exact hr.elim

theorem dispatchStep {host : Host} {pid : UInt32}
    (hunseen : s.resetsUnseen (.dispatch host pid)) (hs : s.dispatchStep P host pid = some t) :
    Inv P t := by
  unfold Startup.dispatchStep at hs
  split at hs
  case h_1 f hat =>
    obtain rfl := Option.some.inj hs
    split
    · exact h.move (fun _ => rfl) rfl rfl (fun _ _ => False.elim)
        (by simp [hat, DispatchAt.Recovered]) (fun _ _ => False.elim) (fun _ _ => .inl)
    · exact h.move (fun _ => rfl) rfl rfl (by simp [hat, DispatchAt.HasReset])
        (by simp [hat, DispatchAt.Recovered]) (fun _ _ => False.elim) (fun _ _ => .inl)
  case h_2 f hat | h_3 f hat =>
    obtain rfl := Option.some.inj hs
    exact (h.setHeader f _).move (fun _ => rfl) rfl rfl
      (by simp [Startup.setHeader, hat, DispatchAt.HasReset])
      (by simp [Startup.setHeader, hat, DispatchAt.Recovered]) (fun _ _ => False.elim)
      (fun _ _ => .inl)
  case h_4 c hat =>
    obtain rfl := Option.some.inj hs
    simp only [resetsUnseen, hat] at hunseen
    by_cases hin : c.In P
    · rw [within, if_pos hin, if_pos hin]
      exact h.reset hat hin (by simpa using hunseen)
    · -- the loop of one file is over
      rw [within, if_neg hin, if_neg hin]
      obtain ⟨f, i⟩ := c
      cases f with
      | req =>
        refine h.move (fun _ => rfl) rfl rfl ?_ (by simp [hat, DispatchAt.Recovered])
          (fun _ _ => False.elim) (fun _ _ => .inl)
        intro r hrin hreset
        rw [hat]
        exact (RingId.before_next hrin (if_neg hin) hreset).resolve_right fun heq => hin heq.2
      | rsp =>
        refine h.move (fun _ => rfl) rfl rfl ?_ (fun _ => trivial) ?_ (fun _ _ => .inl)
        · intro r hrin _
          rw [hat]
          exact RingId.before_last hrin (if_neg hin)
        · intro r _ hr
          exact absurd hr r.not_before_first
  case h_5 c hat =>
    obtain rfl := Option.some.inj hs
    obtain ⟨hinv, hsees, hd, -⟩ :=
      h.attachRound .dispatch c (by simp [hat, DispatchAt.Recovered])
    generalize s.within P c (Startup.attach .dispatch) = s' at hinv hsees hd ⊢
    rw [hat] at hd
    cases hnext : c.next P with
    | some c' =>
      refine hinv.move (fun _ => rfl) rfl rfl (by simp [hd, DispatchAt.HasReset]) (fun _ => trivial)
        ?_ (fun _ _ => .inl)
      intro r hrin hr
      rw [hd]
      rcases RingId.before_next hrin hnext hr with hbefore | ⟨rfl, hin⟩
      · exact .inl hbefore
      · exact .inr (hsees hin)
    | none =>
      refine hinv.move (fun _ => rfl) rfl rfl (by simp [hd, DispatchAt.HasReset]) (fun _ => trivial)
        ?_ (fun _ _ => .inl)
      intro r hrin _
      rw [hd]
      exact .inl (RingId.before_last hrin hnext)
  case h_6 c hat =>
    obtain rfl := Option.some.inj hs
    have hinv := h.registerRound .dispatch pid c
    have hd : (s.within P c (Startup.registerPid .dispatch pid)).dispatch = .register c := by
      rw [← hat]
      unfold within
      split <;> rfl
    refine hinv.move (fun _ => rfl) rfl rfl (by simp [hd, DispatchAt.HasReset]) ?_ ?_
      (fun _ _ => .inl)
    · intro _
      dsimp only
      split <;> trivial
    · intro r _ _
      rw [hd]
      exact .inl trivial
  case h_7 => cases hs
  case h_8 => cases hs

theorem gatewayStep {pid : UInt32} (hs : s.gatewayStep P pid = some t) : Inv P t := by
  unfold Startup.gatewayStep at hs
  split at hs
  case h_1 f hat =>
    obtain rfl := Option.some.inj hs
    refine h.move (fun _ => rfl) rfl rfl (fun _ _ => id) id (fun _ _ => .inl) ?_
    intro r _ hr
    dsimp only at hr
    split at hr
    · cases f with
      | req => exact hr.elim
      | rsp => exact absurd hr r.not_before_first
    · exact hr.elim
  case h_2 c hat =>
    obtain rfl := Option.some.inj hs
    obtain ⟨hinv, hsees, -, hg⟩ := h.attachRound .gateway c nofun
    generalize s.within P c (Startup.attach .gateway) = s' at hinv hsees hg ⊢
    rw [hat] at hg
    refine hinv.move (fun _ => rfl) rfl rfl (fun _ _ => id) id (fun _ _ => .inl) ?_
    intro r hrin hr
    rw [hg]
    cases hnext : c.next P with
    | some c' =>
      simp only [hnext] at hr
      rcases RingId.before_next hrin hnext hr with hbefore | ⟨rfl, hin⟩
      · exact .inl hbefore
      · exact .inr (hsees hin)
    | none => exact .inl (RingId.before_last hrin hnext)
  case h_3 c hat =>
    obtain rfl := Option.some.inj hs
    have hinv := h.registerRound .gateway pid c
    have hg : (s.within P c (Startup.registerPid .gateway pid)).gateway = .register c := by
      rw [← hat]
      unfold within
      split <;> rfl
    refine hinv.move (fun _ => rfl) rfl rfl (fun _ _ => id) id (fun _ _ => .inl) ?_
    intro r _ _
    rw [hg]
    exact .inl trivial
  case h_4 => cases hs

theorem step (ev : StartupEvent) (hunseen : s.resetsUnseen ev)
    (hs : s.next P ev = some t) : Inv P t := by
  cases ev with
  | dispatch host pid => exact h.dispatchStep hunseen hs
  | gateway pid => exact h.gatewayStep hs
  | heartbeat who r now =>
    simp only [next, Option.ite_none_right_eq_some, Option.some.injEq] at hs
    obtain ⟨-, rfl⟩ := hs
    exact h.stamp who now r
  | push r =>
    simp only [next, Option.ite_none_right_eq_some] at hs
    exact h.push hs.2
  | take r max =>
    simp only [next, Option.ite_none_right_eq_some] at hs
    exact h.take hs.2

end

end Inv

theorem inv_of_reachable
    (h : (machine P).ReachableWhile (fun s ev => s.resetsUnseen ev) s) : Inv P s := by
  refine Machine.invariant ?_ ?_ h
  · rintro s ⟨files, -, rfl⟩
    exact .leftover files
  · intro s ev t hinv hunseen hs
    exact hinv.step ev hunseen hs

end Startup

/-! ## Both running -/

/-- Once both processes run, every ring has both its views, and they are in step. -/
def Startup.Agrees (P : Params) (s : Startup) : Prop :=
  s.dispatch = .running → s.gateway = .running → ∀ r : RingId, r.In P →
    ∃ p c, s.prods r = some p ∧ s.cons r = some c ∧
      FifoReady r.file.shape (s.ring r).toRingHeader p c

/-- In every interleaving that resets no ring under a view of the gateway, attaching and
recovering agree. -/
theorem attach_agrees (P : Params) (s : Startup)
    (h : (Startup.machine P).ReachableWhile (fun s ev => s.resetsUnseen ev) s) : s.Agrees P := by
  intro hd hg r hin
  have hinv := Startup.inv_of_reachable h
  have hdispatch := hinv.dispatchSees r hin (by rw [hd]; trivial)
  have hgateway := hinv.gatewaySees r hin (by rw [hg]; trivial)
  have hviews : (s.prods r).isSome ∧ (s.cons r).isSome := by
    rw [s.prods_isSome, s.cons_isSome]
    obtain ⟨f, i⟩ := r
    cases f with
    | req => exact ⟨hgateway, hdispatch⟩
    | rsp => exact ⟨hdispatch, hgateway⟩
  obtain ⟨p, hp⟩ := Option.isSome_iff_exists.mp hviews.1
  obtain ⟨c, hc⟩ := Option.isSome_iff_exists.mp hviews.2
  have hok := hinv.ringOk r
  refine ⟨p, c, hp, hc, ?_, ?_, hok.window ⟨hin, by rw [hd]; trivial⟩⟩
  · rw [hok.prod p hp]
    rfl
  · rw [hok.cons c hc]
    rfl

/-- A region of one worker, left with every counter at 5. -/
def staleRegion : Startup :=
  .leftover fun f => ⟨totalBytes { workers := 1 } f, freshHeader { workers := 1 } f 1,
    fun _ => ⟨⟨5, 5⟩, 0, 0, 0, 0⟩⟩

theorem staleRegion_init : (Startup.machine { workers := 1 }).init staleRegion := by
  refine ⟨_, ?_, rfl⟩
  intro f
  cases f <;> decide +kernel

/-- Where both processes are, and the heads that the writer of request ring 0 and the ring
itself have. -/
def Startup.heads (s : Startup) : DispatchAt × GatewayAt × Option UInt32 × UInt32 :=
  (s.dispatch, s.gateway, (s.prods ⟨.req, 0⟩).map Producer.headLocal, (s.ring ⟨.req, 0⟩).head)

/-- Dispatch starts, and then the gateway. -/
theorem attach_agrees_in_turn :
    ∃ s, (Startup.machine { workers := 1 }).ReachableWhile (fun s ev => s.resetsUnseen ev) s ∧
      s.heads = (.running, .running, some 0, 0) ∧ s.Agrees { workers := 1 } := by
  obtain ⟨s, hreach, hheads⟩ : ∃ s, (Startup.machine { workers := 1 }).ReachableWhile
      (fun s ev => s.resetsUnseen ev) s ∧ s.heads = (.running, .running, some 0, 0) :=
    Machine.exists_of_playWhile (fun _ _ => id) staleRegion staleRegion_init
      (List.replicate 18 (.dispatch tenSeconds 7) ++ List.replicate 10 (.gateway 42))
      (by decide +kernel)
  exact ⟨s, hreach, hheads, attach_agrees _ s hreach⟩

/-- The gateway starts on the stale region before Dispatch has come to reset it. It has not
given a heartbeat yet, so Dispatch goes on. Both run then, the gateway's writer with a head
of 5 on a ring whose head is 0. -/
theorem attach_before_reset :
    ∃ s, (Startup.machine { workers := 1 }).Reachable s ∧
      s.heads = (.running, .running, some 5, 0) ∧ ¬ s.Agrees { workers := 1 } := by
  obtain ⟨s, hreach, hheads⟩ : ∃ s, (Startup.machine { workers := 1 }).Reachable s ∧
      s.heads = (.running, .running, some 5, 0) :=
    Machine.exists_of_play staleRegion staleRegion_init
      (List.replicate 10 (.gateway 42) ++ List.replicate 18 (.dispatch tenSeconds 7))
      (by decide +kernel)
  refine ⟨s, hreach, hheads, ?_⟩
  intro hagrees
  obtain ⟨hd, hg, hlocal, hhead⟩ : s.dispatch = .running ∧ s.gateway = .running ∧
      (s.prods ⟨.req, 0⟩).map Producer.headLocal = some 5 ∧ (s.ring ⟨.req, 0⟩).head = 0 := by
    simpa [Startup.heads] using hheads
  obtain ⟨p, c, hp, -, hready⟩ := hagrees hd hg ⟨.req, 0⟩ (by decide)
  rw [hp, Option.map_some, Option.some.injEq, hready.1, hhead] at hlocal
  exact absurd hlocal (by decide)

end SharedBike.Ipc
