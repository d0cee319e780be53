import SharedBike.Lib.Machine
import Mathlib.Logic.Function.Basic
import Mathlib.Order.Nat
import Mathlib.Algebra.Group.Nat.Defs

/-!
# Is the gateway alive?

The heartbeat thread of the gateway (`gateway_main.cpp`, `RingSink::heartbeat_all`)
samples the clock once a second and writes the time to every request ring. The
reader of Dispatch (`RingSource::producer_alive`, `dispatch_main.cpp`) samples
the clock and then loads the heartbeats; when none is younger than the timeout,
and one was before, it ends its process.

The age of a heartbeat is an unsigned difference. A heartbeat that is written
between the sample and the load is newer than the sample, its age wraps to
almost `2 ^ 64`, and the youngest of all heartbeats counts as dead
(`newer_beat_missed`). The gateway's own check of Dispatch
(`UringEngine::drain_response_ring`) loads first and samples then. As long as no
load reads a heartbeat that is newer than the sample, a young one is seen
(`beating_peer_alive`).

`Young` says in natural numbers when a heartbeat is younger than the timeout;
`isFresh` is what the code computes.
-/

namespace SharedBike.Ipc

open SharedBike.Lib Function

/-- Where the heartbeat thread stands: which ring it writes next. -/
inductive Beater where
  | asleep
  | writing (ts : UInt64) (k : Nat)

/-- Where the reader stands in `producer_alive`. -/
inductive Checker where
  | outside
  | loading (now : UInt64) (k : Nat)
  | answered (alive : Bool)
  deriving DecidableEq

/-- The clock in nanoseconds, the heartbeats of the request rings, both threads
and what the reader remembers. The last three fields are history: when the
reader last sampled the clock, what the heartbeats were then, and what each
load has read, and when. -/
structure Liveness (N : Nat) where
  clock : Nat
  beats : Fin N → UInt64
  beater : Beater
  checker : Checker
  peerSeen : Bool
  exiting : Bool
  sampledAt : Nat
  atSample : Fin N → UInt64
  loads : Fin N → Option (UInt64 × Nat)

inductive LivenessEvent where
  | tick (ns : Nat)
  | beat
  | store
  | check
  | load
  | conclude

/-- `limit` in `producer_alive` -/
def limitNs (timeoutMs : Nat) : UInt64 := UInt64.ofNat timeoutMs * 1000000

/-- The test of one heartbeat in `producer_alive`. -/
def isFresh (limit now hb : UInt64) : Bool := hb ≠ 0 && now - hb < limit

namespace Liveness

variable {N : Nat}

def next (timeoutMs : Nat) (s : Liveness N) : LivenessEvent → Option (Liveness N)
  -- the count of `steady_clock` is a signed 64-bit number
  | .tick ns => if s.clock + ns < 2 ^ 63 then some { s with clock := s.clock + ns } else none
  | .beat =>
    match s.beater with
    | .asleep => some { s with beater := .writing (UInt64.ofNat s.clock) 0 }
    | _ => none
  | .store =>
    match s.beater with
    | .writing ts k =>
      if h : k < N then some { s with
        beats := update s.beats ⟨k, h⟩ ts, beater := .writing ts (k + 1) }
      else some { s with beater := .asleep }
    | _ => none
  | .check =>
    match s.checker with
    | .outside =>
      if s.exiting then none
      else some { s with
        checker := .loading (UInt64.ofNat s.clock) 0
        sampledAt := s.clock, atSample := s.beats, loads := fun _ => none }
    | _ => none
  | .load =>
    match s.checker with
    | .loading now k =>
      if h : k < N then some { s with
        checker := if isFresh (limitNs timeoutMs) now (s.beats ⟨k, h⟩) then .answered true
          else .loading now (k + 1)
        loads := update s.loads ⟨k, h⟩ (some (s.beats ⟨k, h⟩, s.clock)) }
      else some { s with checker := .answered false }
    | _ => none
  | .conclude =>
    match s.checker with
    | .answered true => some { s with checker := .outside, peerSeen := true }
    | .answered false => some { s with checker := .outside, exiting := s.exiting || s.peerSeen }
    | _ => none

/-- Both threads, in any order. What is in the rings was written by the same
clock. -/
def machine (N timeoutMs : Nat) : Machine (Liveness N) LivenessEvent where
  init s := s.clock < 2 ^ 63 ∧ (∀ i, (s.beats i).toNat ≤ s.clock) ∧ s.beater = .asleep ∧
    s.checker = .outside ∧ s.exiting = false
  next := next timeoutMs

/-! ## What a check misses -/

/-- At the time `t` the heartbeat `hb` is younger than the timeout. -/
def Young (timeoutMs : Nat) (hb : UInt64) (t : Nat) : Prop :=
  hb ≠ 0 ∧ t < hb.toNat + timeoutMs * 1000000

instance (timeoutMs : Nat) (hb : UInt64) (t : Nat) : Decidable (Young timeoutMs hb t) :=
  inferInstanceAs (Decidable (_ ∧ _))

/-- No load reads a heartbeat from after the sample. -/
def NotNewer (s : Liveness N) : LivenessEvent → Prop
  | .load => ∀ now k (h : k < N), s.checker = .loading now k → s.beats ⟨k, h⟩ ≤ now
  | _ => True

variable {timeoutMs : Nat} {s t : Liveness N} {now : UInt64}

theorem limitNs_toNat (hfits : timeoutMs * 1000000 < 2 ^ 64) :
    (limitNs timeoutMs).toNat = timeoutMs * 1000000 := by
  have hms : timeoutMs < 2 ^ 64 := by omega
  rw [limitNs, UInt64.toNat_mul, UInt64.toNat_ofNat_of_lt' hms]
  exact Nat.mod_eq_of_lt hfits

/-- What is too old for the code is too old. -/
theorem old_of_not_fresh (hfits : timeoutMs * 1000000 < 2 ^ 64) {now hb : UInt64} (hle : hb ≤ now)
    (hfresh : isFresh (limitNs timeoutMs) now hb = false) {t : Nat} (ht : now.toNat ≤ t) :
    ¬ Young timeoutMs hb t := by
  rintro ⟨hne, hlt⟩
  have hage : ¬ now - hb < limitNs timeoutMs := by
    simpa only [isFresh, ne_eq, hne, not_false_eq_true, decide_true, Bool.true_and,
      decide_eq_false_iff_not] using hfresh
  rw [UInt64.lt_iff_toNat_lt, UInt64.toNat_sub_of_le _ _ hle, limitNs_toNat hfits] at hage
  have hle' := UInt64.le_iff_toNat_le.mp hle
  omega

/-- Neither at the sample nor at its load was the heartbeat of the ring young. -/
def Old (timeoutMs : Nat) (s : Liveness N) (i : Fin N) : Prop :=
  ¬ Young timeoutMs (s.atSample i) s.sampledAt ∧
    ∃ hb t, s.loads i = some (hb, t) ∧ ¬ Young timeoutMs hb t

/-- Where a check has come to: the rings behind it are old, and those before it
have not been read, nor set back. -/
structure Checking (timeoutMs : Nat) (s : Liveness N) (now : UInt64) (k : Nat) : Prop where
  now_eq : now.toNat = s.sampledAt
  sampled : s.sampledAt ≤ s.clock
  behind : ∀ i : Fin N, i.val < k → s.Old timeoutMs i
  ahead : ∀ i : Fin N, k ≤ i.val → s.atSample i ≤ s.beats i
  unread : ∀ i : Fin N, k ≤ i.val → s.loads i = none

/-- Every heartbeat is a time of the clock, and a round of the heartbeat thread
sets none back. -/
structure Inv (timeoutMs : Nat) (s : Liveness N) : Prop where
  clock_lt : s.clock < 2 ^ 63
  beats_le : ∀ i, (s.beats i).toNat ≤ s.clock
  writing : ∀ ts k, s.beater = .writing ts k → ts.toNat ≤ s.clock ∧ ∀ i, s.beats i ≤ ts
  loading : ∀ now k, s.checker = .loading now k → s.Checking timeoutMs now k
  dead : s.checker = .answered false ∨ s.exiting = true → ∀ i, s.Old timeoutMs i
  running : s.exiting = true → s.checker = .outside

theorem ofNat_clock (h : s.clock < 2 ^ 63) : (UInt64.ofNat s.clock).toNat = s.clock :=
  UInt64.toNat_ofNat_of_lt' (Nat.lt_trans h (by decide))

namespace Inv

theorem init (h : (machine N timeoutMs).init s) : Inv timeoutMs s := by
  obtain ⟨hclock, hbeats, hbeater, hchecker, hexiting⟩ := h
  refine ⟨hclock, hbeats, ?_, ?_, ?_, fun _ => hchecker⟩
  · intro ts k hwriting
    rw [hbeater] at hwriting
    cases hwriting
  · intro now k hloading
    rw [hchecker] at hloading
    cases hloading
  · rintro (hdead | hdead)
    · rw [hchecker] at hdead
      cases hdead
    · rw [hexiting] at hdead
      cases hdead

theorem tick (h : Inv timeoutMs s) {ns : Nat} (hlt : s.clock + ns < 2 ^ 63) :
    Inv timeoutMs { s with clock := s.clock + ns } where
  clock_lt := hlt
  beats_le i := (h.beats_le i).trans (Nat.le_add_right _ _)
  writing ts k hw := ⟨(h.writing ts k hw).1.trans (Nat.le_add_right _ _), (h.writing ts k hw).2⟩
  loading now k hl :=
    have hc := h.loading now k hl
    ⟨hc.now_eq, Nat.le_trans hc.sampled (Nat.le_add_right _ _), hc.behind, hc.ahead, hc.unread⟩
  dead := h.dead
  running := h.running

theorem beat (h : Inv timeoutMs s) :
    Inv timeoutMs { s with beater := .writing (UInt64.ofNat s.clock) 0 } where
  clock_lt := h.clock_lt
  beats_le := h.beats_le
  writing ts k hw := by
    cases hw
    refine ⟨(ofNat_clock h.clock_lt).le, fun i => ?_⟩
    rw [UInt64.le_iff_toNat_le, ofNat_clock h.clock_lt]
    exact h.beats_le i
  loading now k hl := ⟨(h.loading now k hl).now_eq, (h.loading now k hl).sampled,
    (h.loading now k hl).behind, (h.loading now k hl).ahead, (h.loading now k hl).unread⟩
  dead := h.dead
  running := h.running

theorem store (h : Inv timeoutMs s) {ts : UInt64} {k : Nat} (hwriting : s.beater = .writing ts k)
    (hk : k < N) :
    Inv timeoutMs { s with
      beats := update s.beats ⟨k, hk⟩ ts, beater := .writing ts (k + 1) } := by
  obtain ⟨hts, hbeats⟩ := h.writing ts k hwriting
  -- a store only moves a heartbeat forward
  have hforward : ∀ i, s.beats i ≤ update s.beats ⟨k, hk⟩ ts i := by
    intro i
    by_cases hi : i = ⟨k, hk⟩
    · rw [hi, update_self]
      exact hbeats _
    · rw [update_of_ne hi]
      exact UInt64.le_refl _
  refine ⟨h.clock_lt, fun i => ?_, fun ts' k' hw => ?_, fun now j hl => ?_, h.dead, h.running⟩
  · by_cases hi : i = ⟨k, hk⟩
    · simpa only [hi, update_self] using hts
    · simpa only [update_of_ne hi] using h.beats_le i
  · cases hw
    refine ⟨hts, fun i => ?_⟩
    by_cases hi : i = ⟨k, hk⟩
    · simp only [hi, update_self, UInt64.le_refl]
    · simpa only [update_of_ne hi] using hbeats i
  · have hc := h.loading now j hl
    exact ⟨hc.now_eq, hc.sampled, hc.behind,
      fun i hi => UInt64.le_trans (hc.ahead i hi) (hforward i), hc.unread⟩

theorem sleep (h : Inv timeoutMs s) : Inv timeoutMs { s with beater := .asleep } where
  clock_lt := h.clock_lt
  beats_le := h.beats_le
  writing ts k hw := by cases hw
  loading now k hl := ⟨(h.loading now k hl).now_eq, (h.loading now k hl).sampled,
    (h.loading now k hl).behind, (h.loading now k hl).ahead, (h.loading now k hl).unread⟩
  dead := h.dead
  running := h.running

theorem check (h : Inv timeoutMs s) (hexiting : s.exiting = false) :
    Inv timeoutMs { s with
      checker := .loading (UInt64.ofNat s.clock) 0
      sampledAt := s.clock, atSample := s.beats, loads := fun _ => none } := by
  refine ⟨h.clock_lt, h.beats_le, h.writing, fun now k hl => ?_, ?_, fun hexit => ?_⟩
  · cases hl
    exact ⟨ofNat_clock h.clock_lt, Nat.le_refl _, fun i hi => absurd hi (Nat.not_lt_zero _),
      fun i _ => UInt64.le_refl _, fun _ _ => rfl⟩
  · rintro (hdead | hexit)
    · cases hdead
    · exact absurd (hexiting.symm.trans hexit) Bool.false_ne_true
  · exact absurd (hexiting.symm.trans hexit) Bool.false_ne_true

/-- A load that goes on leaves an old ring behind. -/
theorem load (hfits : timeoutMs * 1000000 < 2 ^ 64) (h : Inv timeoutMs s) {k : Nat} (hk : k < N)
    (hloading : s.checker = .loading now k) (hle : s.beats ⟨k, hk⟩ ≤ now) :
    Inv timeoutMs { s with
      checker := if isFresh (limitNs timeoutMs) now (s.beats ⟨k, hk⟩) then .answered true
        else .loading now (k + 1)
      loads := update s.loads ⟨k, hk⟩ (some (s.beats ⟨k, hk⟩, s.clock)) } := by
  have hc := h.loading now k hloading
  have hrunning : s.exiting ≠ true := by
    intro hexit
    rw [h.running hexit] at hloading
    cases hloading
  refine ⟨h.clock_lt, h.beats_le, h.writing, fun now' k' hl => ?_, ?_,
    fun hexit => absurd hexit hrunning⟩
  · split at hl
    next => cases hl
    next hfresh =>
      cases hl
      refine ⟨hc.now_eq, hc.sampled, fun i hi => ?_,
        fun i hi => hc.ahead i (Nat.le_of_succ_le hi), fun i hi => ?_⟩
      rotate_left
      · have hne : i ≠ ⟨k, hk⟩ := by
          rintro rfl
          exact Nat.not_succ_le_self k hi
        exact (update_of_ne hne ..).trans (hc.unread i (Nat.le_of_succ_le hi))
      by_cases hik : i = ⟨k, hk⟩
      · have hold := fun {t} => old_of_not_fresh hfits hle (Bool.not_eq_true _ ▸ hfresh) (t := t)
        subst hik
        refine ⟨?_, _, _, update_self .., hold (hc.now_eq ▸ hc.sampled)⟩
        -- what was there at the sample is no younger than what was loaded
        rintro ⟨hne, hlt⟩
        have hahead := hc.ahead ⟨k, hk⟩ (Nat.le_refl _)
        rw [UInt64.le_iff_toNat_le] at hahead
        refine hold hc.now_eq.le ⟨fun hzero => hne ?_, ?_⟩
        · rw [hzero] at hahead
          exact UInt64.toNat_inj.mp (Nat.le_zero.mp hahead)
        · have hlt' : s.sampledAt < (s.atSample ⟨k, hk⟩).toNat + timeoutMs * 1000000 := hlt
          omega
      · obtain ⟨hsample, hb, t, hload, hyoung⟩ := hc.behind i (by
          have hne : i.val ≠ k := fun heq => hik (Fin.ext heq)
          omega)
        exact ⟨hsample, hb, t, (update_of_ne hik ..).trans hload, hyoung⟩
  · rintro (hdead | hexit)
    · split at hdead
      next => cases hdead
      next => cases hdead
    · exact absurd hexit hrunning

theorem answerFalse (h : Inv timeoutMs s) {k : Nat} (hk : ¬ k < N)
    (hloading : s.checker = .loading now k) :
    Inv timeoutMs { s with checker := .answered false } := by
  have hrunning : s.exiting ≠ true := by
    intro hexit
    rw [h.running hexit] at hloading
    cases hloading
  refine ⟨h.clock_lt, h.beats_le, h.writing, fun _ _ hl => (by cases hl), fun _ i => ?_,
    fun hexit => absurd hexit hrunning⟩
  exact (h.loading now k hloading).behind i (by have := i.isLt; omega)

theorem step (hfits : timeoutMs * 1000000 < 2 ^ 64) (h : Inv timeoutMs s) {e : LivenessEvent}
    (hnewer : s.NotNewer e) (hs : s.next timeoutMs e = some t) : Inv timeoutMs t := by
  cases e with
  | tick ns =>
    simp only [next] at hs
    split at hs
    next hlt => cases hs; exact h.tick hlt
    next => cases hs
  | beat =>
    simp only [next] at hs
    split at hs
    next => cases hs; exact h.beat
    next => cases hs
  | store =>
    simp only [next] at hs
    split at hs
    next hwriting =>
      split at hs
      next hk => cases hs; exact h.store hwriting hk
      next => cases hs; exact h.sleep
    next => cases hs
  | check =>
    simp only [next] at hs
    split at hs
    next =>
      split at hs
      next => cases hs
      next hexiting => cases hs; exact h.check (Bool.not_eq_true _ ▸ hexiting)
    next => cases hs
  | load =>
    simp only [next] at hs
    split at hs
    next now k hloading =>
      split at hs
      next hk => cases hs; exact h.load hfits hk hloading (hnewer now k hk hloading)
      next hk => cases hs; exact h.answerFalse hk hloading
    next => cases hs
  | conclude =>
    simp only [next] at hs
    split at hs
    next halive =>
      cases hs
      have hrunning : s.exiting ≠ true := by
        intro hexit
        rw [h.running hexit] at halive
        cases halive
      refine ⟨h.clock_lt, h.beats_le, h.writing, fun _ _ hl => (by cases hl), ?_, fun _ => rfl⟩
      rintro (hdead | hexit)
      · cases hdead
      · exact absurd hexit hrunning
    next hdead =>
      cases hs
      refine ⟨h.clock_lt, h.beats_le, h.writing, fun _ _ hl => (by cases hl), fun _ => ?_,
        fun _ => rfl⟩
      exact h.dead (.inl hdead)
    next => cases hs

end Inv

theorem inv_of_reachable (hfits : timeoutMs * 1000000 < 2 ^ 64)
    (h : (machine N timeoutMs).ReachableWhile NotNewer s) : Inv timeoutMs s :=
  Machine.invariant (fun _ hs => .init hs) (fun _ _ _ hs hok ht => hs.step hfits hok ht) h

/-- A check goes on to the next ring or answers. -/
theorem load_progresses (timeoutMs : Nat) {k : Nat} (hloading : s.checker = .loading now k) :
    ∃ t, s.next timeoutMs .load = some t ∧ t.beats = s.beats ∧ t.atSample = s.atSample ∧
      t.sampledAt = s.sampledAt ∧
      ((∃ alive, t.checker = .answered alive) ∨ k < N ∧ t.checker = .loading now (k + 1)) := by
  simp only [next, hloading]
  split
  next hk =>
    refine ⟨_, rfl, rfl, rfl, rfl, ?_⟩
    simp only
    split
    · exact .inl ⟨true, rfl⟩
    · exact .inr ⟨hk, rfl⟩
  next => exact ⟨_, rfl, rfl, rfl, rfl, .inl ⟨false, rfl⟩⟩

/-- So it answers, after a load for each ring and one more at most. -/
theorem check_answers (timeoutMs : Nat) {s : Liveness N} {k : Nat}
    (hloading : s.checker = .loading now k) :
    ∃ j t alive, j ≤ N - k + 1 ∧
      (machine N timeoutMs).play s (List.replicate j .load) = some t ∧
      t.checker = .answered alive ∧ t.atSample = s.atSample ∧ t.sampledAt = s.sampledAt ∧
      ((∀ i, s.beats i ≤ now) → (machine N timeoutMs).ReachableWhile NotNewer s →
        (machine N timeoutMs).ReachableWhile NotNewer t) := by
  obtain ⟨t, hs, hbeats, hat, hsampled, hgoes⟩ := load_progresses timeoutMs hloading
  have hstep : (∀ i, s.beats i ≤ now) → (machine N timeoutMs).ReachableWhile NotNewer s →
      (machine N timeoutMs).ReachableWhile NotNewer t := by
    refine fun hnewer h => .step (e := .load) h ?_ hs
    intro now' k' hk' hloading'
    cases hloading.symm.trans hloading'
    exact hnewer _
  rcases hgoes with ⟨alive, halive⟩ | ⟨hk, hloading₁⟩
  · exact ⟨1, t, alive, by omega, Option.bind_eq_some_iff.mpr ⟨t, hs, rfl⟩, halive, hat, hsampled,
      hstep⟩
  · obtain ⟨j, t', alive, hj, hplay, halive, hat', hsampled', hrun⟩ :=
      check_answers timeoutMs hloading₁
    refine ⟨j + 1, t', alive, by omega, Option.bind_eq_some_iff.mpr ⟨t, hs, hplay⟩, halive,
      hat'.trans hat, hsampled'.trans hsampled, fun hnewer h => ?_⟩
    exact hrun (by rw [hbeats]; exact hnewer) (hstep hnewer h)
termination_by N - k

/-- **A beating gateway is alive.** When the heartbeat of some ring was younger
than the timeout at the sample of a check, or at the load of that ring, the
check answers nothing but true, and the reader does not exit. And the check does
answer: it takes a load for each ring and one more at most, and if no heartbeat has
been written since the sample, the answer is true. -/
theorem beating_peer_alive (hfits : timeoutMs * 1000000 < 2 ^ 64)
    (h : (machine N timeoutMs).ReachableWhile NotNewer s) {i : Fin N}
    (hyoung : Young timeoutMs (s.atSample i) s.sampledAt ∨
      ∃ hb t, s.loads i = some (hb, t) ∧ Young timeoutMs hb t) :
    (∀ alive, s.checker = .answered alive → alive = true) ∧ s.exiting = false ∧
      ∀ now k, s.checker = .loading now k → ∃ j t alive, j ≤ N - k + 1 ∧
        (machine N timeoutMs).play s (List.replicate j .load) = some t ∧
        t.checker = .answered alive ∧ ((∀ i, s.beats i ≤ now) → alive = true) := by
  have hdead : ∀ {s : Liveness N}, (machine N timeoutMs).ReachableWhile NotNewer s →
      (Young timeoutMs (s.atSample i) s.sampledAt ∨
        ∃ hb t, s.loads i = some (hb, t) ∧ Young timeoutMs hb t) →
      s.checker ≠ .answered false ∧ s.exiting ≠ true := by
    intro s h hyoung
    rw [← not_or]
    intro hdead
    obtain ⟨hsample, hb, t, hload, hold⟩ := (inv_of_reachable hfits h).dead hdead i
    rcases hyoung with hyoung | ⟨hb', t', hload', hyoung⟩
    · exact hsample hyoung
    · cases hload.symm.trans hload'
      exact hold hyoung
  refine ⟨fun alive halive => ?_, Bool.not_eq_true _ ▸ (hdead h hyoung).2, fun now k hloading => ?_⟩
  · cases alive with
    | true => rfl
    | false => exact absurd halive (hdead h hyoung).1
  · obtain ⟨j, t, alive, hj, hplay, halive, hat, hsampled, hrun⟩ :=
      check_answers timeoutMs hloading
    refine ⟨j, t, alive, hj, hplay, halive, fun hnewer => ?_⟩
    -- no load behind the check was young, so the sample was
    have hchecking := (inv_of_reachable hfits h).loading now k hloading
    have hsample : Young timeoutMs (s.atSample i) s.sampledAt := by
      rcases hyoung with hsample | ⟨hb, t', hload, hyoung⟩
      · exact hsample
      · rcases Nat.lt_or_ge i.val k with hbehind | hahead
        · obtain ⟨-, _, _, hload', hold⟩ := hchecking.behind i hbehind
          cases hload.symm.trans hload'
          exact absurd hyoung hold
        · cases hload.symm.trans (hchecking.unread i hahead)
    rw [← hat, ← hsampled] at hsample
    cases alive with
    | true => rfl
    | false => exact absurd halive (hdead (hrun hnewer h) (.inl hsample)).1

/-- One ring, a second after the start of the clock. -/
def fresh : Liveness 1 where
  clock := 1000000000
  beats _ := 0
  beater := .asleep
  checker := .outside
  peerSeen := false
  exiting := false
  sampledAt := 0
  atSample _ := 0
  loads _ := none

theorem fresh_init : (machine 1 5000).init fresh :=
  ⟨by decide, fun _ => Nat.zero_le _, rfl, rfl, rfl⟩

/-- A heartbeat is written, and a check a second later finds it. -/
def seen : List LivenessEvent := [.beat, .store, .store, .tick 1000000000, .check, .load]

/-- `NotNewer`, as a check that can be run. -/
def notNewer (s : Liveness 1) : LivenessEvent → Bool
  | .load =>
    match s.checker with
    | .loading now k => if h : k < 1 then s.beats ⟨k, h⟩ ≤ now else true
    | _ => true
  | _ => true

theorem notNewer_sound (s : Liveness 1) (e : LivenessEvent) (h : notNewer s e = true) :
    NotNewer s e := by
  cases e with
  | load =>
    intro now k hk hloading
    simpa only [notNewer, hloading, dif_pos hk, decide_eq_true_eq] using h
  | _ => trivial

/-- The check has sampled the clock; it answers that the peer is alive. -/
theorem beating_peer_alive_once :
    ∃ s : Liveness 1, (machine 1 5000).ReachableWhile NotNewer s ∧
      s.checker = .loading 2000000000 0 ∧ s.exiting = false ∧
      Young 5000 (s.atSample 0) s.sampledAt ∧
      ∃ j t, j ≤ 2 ∧ (machine 1 5000).play s (List.replicate j .load) = some t ∧
        t.checker = .answered true := by
  obtain ⟨s, hreach, hloading, hyoung, hnewer⟩ : ∃ s : Liveness 1,
      (machine 1 5000).ReachableWhile NotNewer s ∧ s.checker = .loading 2000000000 0 ∧
        Young 5000 (s.atSample 0) s.sampledAt ∧ ∀ i, s.beats i ≤ 2000000000 :=
    Machine.exists_of_playWhile notNewer_sound fresh fresh_init
      [.beat, .store, .store, .tick 1000000000, .check] (by decide +kernel)
  obtain ⟨-, hexit, hanswers⟩ := beating_peer_alive (by decide) hreach (.inl hyoung)
  obtain ⟨j, t, alive, hj, hplay, halive, htrue⟩ := hanswers _ _ hloading
  rw [htrue hnewer] at halive
  exact ⟨s, hreach, hloading, hexit, hyoung, j, t, hj, hplay, halive⟩

/-- The next heartbeat is written a nanosecond after the sample of the next
check, and before its load: the reader has read a heartbeat of this very moment,
and exits. -/
theorem newer_beat_missed :
    ∃ s : Liveness 1, (machine 1 5000).Reachable s ∧ s.exiting = true ∧
      s.loads 0 = some (3000000001, 3000000001) ∧ Young 5000 3000000001 3000000001 := by
  exact Machine.exists_of_play fresh fresh_init (seen ++ [.conclude, .tick 1000000000, .check,
    .tick 1, .beat, .store, .load, .load, .conclude]) (by decide +kernel)

end Liveness

end SharedBike.Ipc
