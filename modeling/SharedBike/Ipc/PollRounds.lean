import SharedBike.Ipc.RingNotify
import Mathlib.Algebra.BigOperators.Ring.Finset
import Mathlib.Algebra.Group.Action.Defs
import Mathlib.Algebra.Order.BigOperators.Group.Finset
import Mathlib.Tactic.Ring

/-!
# How long a polling round takes

`RingSource::pop_once` goes through the rings, and stays at each one until a
`pop_batch` of it finds nothing. A producer fills the slots that the reader
releases, so a round is not over when the reader has seen what was there: it
reads what the rings held when the round began and what arrives at a ring
before the reader leaves it (`called_eq`). It stays within `ring_count *
kSlotCount` callbacks exactly when no more arrive than there were free slots
(`round_bounded_iff`), and one busy ring is enough to keep the reader in a
round for any number of callbacks (`round_unbounded`).

`Round` follows the round that the reader is in: what each ring had released
and what it held when the round began, what has arrived since, and how many
steps the reader has taken. `Ring.labour` is the potential that pays for those
steps: what is published bounds it (`Ring.labour_le`), so a round whose
arrivals are bounded is bounded in its steps too.
-/

namespace SharedBike.Ipc

open SharedBike.Lib SharedBike.Wire Function

/-! ## What the reader spends at a ring -/

namespace Ring

variable {S : RingShape} {r t : Ring S} {ev : RingEvent S} {start : UInt32}

/-- How many callbacks have begun. -/
def invoked (r : Ring S) : Nat :=
  match r.reading with
  | .idle => r.released
  | .batch _ done none => r.released + done
  | .batch _ done (some _) => r.released + done + 1

/-- What the reader may have spent on a ring since it had released `base`
slots: a slot costs its packet and its bytes, a batch its two ends. -/
def labour (r : Ring S) (base : Nat) : Nat :=
  (r.released - base) * (S.kPayloadMax + 3) +
    match r.reading with
    | .idle => 0
    | .batch _ done none => 1 + done * (S.kPayloadMax + 1)
    | .batch _ done (some (_, bytes)) => 2 + done * (S.kPayloadMax + 1) + bytes.length

theorem batch_ne_zero (h : (machine S start).Reachable r) {n : UInt32} {done : Nat}
    {copy : Option (IpcPacket × List UInt8)} (hread : r.reading = .batch n done copy) :
    n ≠ 0 := by
  refine Machine.invariant
    (I := fun r => ∀ n done copy, r.reading = .batch n done copy → n ≠ 0) ?_ ?_ h n done copy hread
  · rintro s ⟨slots, rfl⟩ n done copy hread
    cases hread
  · intro s ev t ih _ hs n done copy hread
    by_cases hev : ev.produces = true
    · rw [(next_producer hs hev).1] at hread
      exact ih n done copy hread
    · cases step_of_next hs with
      | empty hidle => exact ih n done copy hread
      | batch hidle hn => cases hread; exact hn
      | readPkt hold | readByte hold =>
        obtain ⟨_, _, _, htake⟩ := takeNext_frame ..
        rw [htake] at hread
        cases hread
        exact ih _ _ _ hold
      | release => cases hread
      | _ => exact absurd rfl hev

/-- A reader publishes nothing and takes nothing back, and each of its steps
but the sight of an empty ring is paid for. -/
theorem next_consumer (h : (machine S start).Reachable r) (hs : r.next ev = some t)
    (hev : ev.produces = false)
    (hbatch : ∀ max, ev = .popBatch max → r.cons.popBatch S r.hdr max ≠ 0) {base : Nat}
    (hbase : base ≤ r.released) :
    t.published = r.published ∧ r.released ≤ t.released ∧ r.labour base + 1 ≤ t.labour base := by
  have hok := (inv_of_reachable h).reading
  cases step_of_next hs with
  | empty hidle hn => exact absurd hn (hbatch _ rfl)
  | batch hidle =>
    refine ⟨rfl, Nat.le_refl _, ?_⟩
    simp only [labour, hidle]
    omega
  | readPkt hread =>
    unfold takeNext
    split
    next =>
      refine ⟨rfl, Nat.le_refl _, ?_⟩
      simp only [labour, hread, Nat.succ_mul]
      omega
    next =>
      refine ⟨rfl, Nat.le_refl _, ?_⟩
      simp only [labour, hread, List.length_nil]
      omega
  | readByte hread =>
    -- the copy is shorter than the payload, and the payload fits the slot
    simp only [ReadingOk, hread] at hok
    obtain ⟨-, e, -, -, -, hshort⟩ := hok.2.2.2.2 _ _ rfl
    have hfits := e.fits
    unfold takeNext
    split
    next =>
      refine ⟨rfl, Nat.le_refl _, ?_⟩
      simp only [labour, hread, Nat.succ_mul]
      omega
    next =>
      refine ⟨rfl, Nat.le_refl _, ?_⟩
      simp only [labour, hread, List.length_append, List.length_singleton]
      omega
  | @release n hread =>
    refine ⟨rfl, Nat.le_add_right _ _, ?_⟩
    have hn : n.toNat ≠ 0 := fun hzero => batch_ne_zero h hread (UInt32.toNat_inj.mp hzero)
    have hsum : r.released + n.toNat - base = (r.released - base) + n.toNat := by omega
    have hslots : n.toNat * (S.kPayloadMax + 3) =
        n.toNat * (S.kPayloadMax + 1) + n.toNat * 2 := by ring
    simp only [labour, hread, hsum, Nat.add_mul (r.released - base)]
    omega
  | _ => cases hev

/-- What has been begun is published. -/
theorem Inv.invoked_le (h : Inv start r) : r.invoked ≤ r.published.length := by
  have hok := h.reading
  unfold ReadingOk at hok
  unfold invoked
  cases hread : r.reading with
  | idle => exact h.released_le
  | batch n done copy =>
    simp only [hread] at hok
    obtain ⟨hdone, hle, -, -, hcopy⟩ := hok
    cases copy with
    | none => exact (Nat.add_le_add_left hdone _).trans hle
    | some c =>
      have := (hcopy c.1 c.2 rfl).1
      change r.released + done + 1 ≤ _
      omega

/-- The slots that are published pay for the work at a ring. -/
theorem labour_le (h : (machine S start).Reachable r) {base : Nat} (hbase : base ≤ r.released) :
    r.labour base ≤ (r.published.length - base) * (S.kPayloadMax + 3) := by
  have hinv := inv_of_reachable h
  have hok := hinv.reading
  unfold ReadingOk at hok
  cases hread : r.reading with
  | idle =>
    simp only [labour, hread, Nat.add_zero]
    exact Nat.mul_le_mul_right _ (Nat.sub_le_sub_right hinv.released_le _)
  | batch n done copy =>
    simp only [hread] at hok
    obtain ⟨hdone, hle, -, -, hcopy⟩ := hok
    have hn : n.toNat ≠ 0 := fun hzero => batch_ne_zero h hread (UInt32.toNat_inj.mp hzero)
    have hslots : ((r.released - base) + n.toNat) * (S.kPayloadMax + 3) ≤
        (r.published.length - base) * (S.kPayloadMax + 3) :=
      Nat.mul_le_mul_right _ (by omega)
    have hbatch : n.toNat * (S.kPayloadMax + 3) =
        n.toNat * (S.kPayloadMax + 1) + n.toNat * 2 := by ring
    rw [Nat.add_mul] at hslots
    cases copy with
    | none =>
      have hread' : done * (S.kPayloadMax + 1) ≤ n.toNat * (S.kPayloadMax + 1) :=
        Nat.mul_le_mul_right _ hdone
      simp only [labour, hread]
      omega
    | some c =>
      obtain ⟨hlt, e, -, -, -, hshort⟩ := hcopy c.1 c.2 rfl
      have hfits := e.fits
      have hread' : (done + 1) * (S.kPayloadMax + 1) ≤ n.toNat * (S.kPayloadMax + 1) :=
        Nat.mul_le_mul_right _ hlt
      rw [Nat.succ_mul] at hread'
      simp only [labour, hread]
      omega

end Ring

/-! ## What a step does to a round -/

/-- The ring where the reader stands in `pop_once`. -/
def Source.ring : Source → Option Nat
  | .popping _ k _ => some k
  | _ => none

namespace RequestPath

variable {N : Nat} {spinTries : Nat} {s t : RequestPath N} {e : PathEvent N}

/-- The reader enters `pop_once`, or leaves it. -/
def begins (s : RequestPath N) : PathEvent N → Bool
  | .waitPop => true
  | .drain => true
  | .popBatch =>
    match s.source with
    | .popping _ k _ => !decide (k < N)
    | _ => false
  | _ => false

/-- How many entries a step publishes at a ring that the reader has not left. -/
def arrives (s : RequestPath N) (e : PathEvent N) (i : Fin N) : Nat :=
  match e with
  | .publish j => if i = j ∧ s.source.ring.any (· ≤ j.val) then (s.rings j).adds .publish else 0
  | _ => 0

/-- Whether a step is one of the reader's at the ring `i`. -/
def works (s : RequestPath N) (e : PathEvent N) (i : Fin N) : Nat :=
  match e with
  | .popBatch | .readPkt | .readByte | .release => if s.source.ring = some i.val then 1 else 0
  | _ => 0

/-- What a step is to the rings and to the place of the reader. -/
inductive Effect (s t : RequestPath N) (e : PathEvent N) : Prop
  | quiet (hbegins : s.begins e = false) (harrives : ∀ i, s.arrives e i = 0)
      (hworks : ∀ i, s.works e i = 0) (hrings : t.rings = s.rings)
      (hring : t.source.ring = s.source.ring)
  /-- the next round, or none -/
  | begin (hbegins : s.begins e = true) (hsource : ∀ i : Fin N, s.source.ring ≠ some i.val)
      (hrings : t.rings = s.rings) (hring : ∀ k, t.source.ring = some k → k = 0)
  | produce (hbegins : s.begins e = false) (i : Fin N) (ev : RingEvent ReqRing) (r : Ring ReqRing)
      (hev : ev.produces = true) (harrives : ∀ j, s.arrives e j =
        if j = i ∧ s.source.ring.any (· ≤ i.val) then (s.rings i).adds ev else 0)
      (hworks : ∀ j, s.works e j = 0) (hr : (s.rings i).next ev = some r)
      (hrings : t.rings = update s.rings i r) (hring : t.source.ring = s.source.ring)
  | consume (hbegins : s.begins e = false) (k : Fin N) (ev : RingEvent ReqRing) (r : Ring ReqRing)
      (hev : ev.produces = false) (hsource : s.source.ring = some k.val)
      (hbatch : ∀ max, ev = .popBatch max → (s.rings k).cons.popBatch ReqRing (s.rings k).hdr max ≠ 0)
      (harrives : ∀ j, s.arrives e j = 0) (hworks : ∀ j, s.works e j = if j = k then 1 else 0)
      (hr : (s.rings k).next ev = some r) (hrings : t.rings = update s.rings k r)
      (hring : t.source.ring = some k.val)
  /-- the ring is empty, and the reader goes on to the next one -/
  | pass (hbegins : s.begins e = false) (k : Fin N) (hsource : s.source.ring = some k.val)
      (hidle : (s.rings k).reading = .idle)
      (hempty : (s.rings k).cons.popBatch ReqRing (s.rings k).hdr 64 = 0)
      (harrives : ∀ j, s.arrives e j = 0) (hworks : ∀ j, s.works e j = if j = k then 1 else 0)
      (hrings : t.rings = s.rings) (hring : t.source.ring = some (k.val + 1))

theorem works_eq {k : Fin N} (hsource : s.source.ring = some k.val) (j : Fin N) :
    (if s.source.ring = some j.val then 1 else 0) = if j = k then 1 else 0 := by
  refine if_congr ?_ rfl rfl
  rw [hsource, Option.some.injEq, Fin.ext_iff]
  exact eq_comm

/-- A worker's step that publishes nothing. -/
theorem Effect.of_produce {i : Fin N} {ev : RingEvent ReqRing} {w : Handling}
    (hs : s.produce i ev w = some t) (hev : ev.produces = true) (hadds : (s.rings i).adds ev = 0)
    (hbegins : s.begins e = false) (harrives : ∀ j, s.arrives e j = 0)
    (hworks : ∀ j, s.works e j = 0) : Effect s t e := by
  obtain ⟨r, hr, rfl⟩ := produce_eq_some.mp hs
  refine .produce hbegins i ev r hev (fun j => ?_) hworks hr rfl rfl
  rw [harrives, hadds, ite_self]

/-- The reader reads on at its ring. -/
theorem Effect.of_consume {sweep : Sweep} {k : Nat} {total total' : UInt32}
    {ev : RingEvent ReqRing} (hsource : s.source = .popping sweep k total)
    (hs : s.consume k ev (.popping sweep k total') = some t) (hev : ev.produces = false)
    (hbatch : ∀ max, ev = .popBatch max → max = 64 ∧ s.popSize k ≠ 0)
    (hbegins : s.begins e = false) (harrives : ∀ j, s.arrives e j = 0)
    (hworks : ∀ j, s.works e j = if s.source.ring = some j.val then 1 else 0) : Effect s t e := by
  obtain ⟨hk, r, hr, rfl⟩ := consume_eq_some.mp hs
  have hring : s.source.ring = some (⟨k, hk⟩ : Fin N).val := by rw [hsource]; rfl
  refine .consume hbegins ⟨k, hk⟩ ev r hev hring ?_ harrives (fun j => ?_) hr rfl rfl
  · intro max hmax
    obtain ⟨rfl, hsize⟩ := hbatch max hmax
    rwa [popSize, dif_pos hk] at hsize
  · rw [hworks, works_eq hring]

theorem ring_popped (sweep : Sweep) (total : UInt32) {k : Nat}
    (h : (Source.popped sweep total).ring = some k) : k = 0 := by
  unfold Source.popped at h
  split at h
  · cases h
  · split at h
    · exact (Option.some.inj h).symm
    · cases h
    · cases h

theorem effect_of_next (hs : s.next spinTries e = some t) : Effect s t e := by
  cases e with
  | sample i req =>
    simp only [next] at hs
    split at hs
    next => cases hs; exact .quiet rfl (fun _ => rfl) (fun _ => rfl) rfl rfl
    next => cases hs; exact .quiet rfl (fun _ => rfl) (fun _ => rfl) rfl rfl
    next => cases hs
  | beginWrite i =>
    simp only [next] at hs
    split at hs
    next =>
      split at hs
      next => cases hs; exact .quiet rfl (fun _ => rfl) (fun _ => rfl) rfl rfl
      next => exact .of_produce hs rfl rfl rfl (fun _ => rfl) (fun _ => rfl)
    next => cases hs
  | fillPkt i | fillByte i =>
    simp only [next] at hs
    split at hs
    next => exact .of_produce hs rfl rfl rfl (fun _ => rfl) (fun _ => rfl)
    next => cases hs
  | publish i =>
    simp only [next] at hs
    split at hs
    next =>
      obtain ⟨r, hr, rfl⟩ := produce_eq_some.mp hs
      exact .produce rfl i .publish r rfl (fun _ => rfl) (fun _ => rfl) hr rfl rfl
    next => cases hs
  | notify i =>
    simp only [next] at hs
    split at hs
    next => cases hs; exact .quiet rfl (fun _ => rfl) (fun _ => rfl) rfl rfl
    next => cases hs
  | waitPop =>
    simp only [next] at hs
    split at hs
    next hsource =>
      cases hs
      refine .begin rfl (fun i => ?_) rfl fun k hk => (Option.some.inj hk).symm
      rw [hsource]
      rintro ⟨⟩
    next => cases hs
  | popBatch =>
    simp only [next] at hs
    split at hs
    next sweep k total hsource =>
      by_cases hk : k < N
      · have hbegins : s.begins .popBatch = false := by
          simp only [begins, hsource, hk, decide_true, Bool.not_true]
        rw [if_pos hk] at hs
        by_cases hsize : s.popSize k = 0
        · rw [if_pos hsize] at hs
          obtain ⟨_, r, hr, rfl⟩ := consume_eq_some.mp hs
          rw [popSize, dif_pos hk] at hsize
          have hring : s.source.ring = some (⟨k, hk⟩ : Fin N).val := by rw [hsource]; rfl
          cases Ring.step_of_next hr with
          | empty hidle =>
            exact .pass hbegins ⟨k, hk⟩ hring hidle hsize (fun _ => rfl) (works_eq hring)
              (update_eq_self _ _) rfl
          | batch _ hn => exact absurd hsize hn
        · rw [if_neg hsize] at hs
          exact .of_consume hsource hs rfl (fun _ hmax => by cases hmax; exact ⟨rfl, hsize⟩)
            hbegins (fun _ => rfl) (fun _ => rfl)
      · rw [if_neg hk] at hs
        cases hs
        refine .begin ?_ (fun i => ?_) rfl fun _ hring => ring_popped sweep total hring
        · simp only [begins, hsource, hk, decide_false, Bool.not_false]
        · rw [hsource]
          intro hi
          exact hk ((Option.some.inj hi) ▸ i.isLt)
    next => cases hs
  | readPkt | readByte | release =>
    simp only [next] at hs
    split at hs
    next hsource =>
      exact .of_consume hsource hs rfl (by rintro _ ⟨⟩) rfl (fun _ => rfl) (fun _ => rfl)
    next => cases hs
  | pollReturns wake | pollFails =>
    simp only [next] at hs
    split at hs
    next hsource =>
      cases hs
      exact .quiet rfl (fun _ => rfl) (fun _ => rfl) rfl (by rw [hsource]; rfl)
    next => cases hs
  | drain =>
    simp only [next] at hs
    split at hs
    next wake hsource =>
      cases hs
      refine .begin rfl (fun i => ?_) rfl fun k hk => ?_
      · rw [hsource]
        rintro ⟨⟩
      · cases wake with
        | false => exact (Option.some.inj hk).symm
        | true => cases hk
    next => cases hs

end RequestPath

/-! ## The account of one ring -/

/-- What the round has to do with one ring: it had released `base` slots and
held `first - base` when the round began, `arrived` came while the reader had
not left it, and the reader has taken `steps` steps at it. -/
structure Account {S : RingShape} (r : Ring S) (passed : Prop) (base first arrived steps : Nat) :
    Prop where
  base_le : base ≤ first
  first_le : first ≤ base + 2 ^ S.slotCountBits
  released : base ≤ r.released
  here : ¬ passed → r.published.length = first + arrived ∧ steps ≤ r.labour base
  past : passed → r.reading = .idle ∧ r.released = first + arrived ∧ steps ≤ r.labour base + 1

namespace Account

variable {S : RingShape} {start : UInt32} {r t : Ring S} {ev : RingEvent S} {passed : Prop}
  {base first arrived steps : Nat}

theorem begin (h : r.Inv start) (hpassed : ¬ passed) :
    Account r passed r.released r.published.length 0 0 where
  base_le := h.released_le
  first_le := r.published_le_reserved.trans h.window
  released := Nat.le_refl _
  here _ := ⟨rfl, Nat.zero_le _⟩
  past hp := absurd hp hpassed

section

variable (h : Account r passed base first arrived steps)

include h

theorem produce (hs : r.next ev = some t)
    (hev : ev.produces = true) {more : Nat} (hmore : ¬ passed → more = r.adds ev)
    (hnone : passed → more = 0) : Account t passed base first (arrived + more) steps := by
  obtain ⟨hreading, hreleased, hpublished⟩ := Ring.next_producer hs hev
  have hlabour : t.labour base = r.labour base := by
    unfold Ring.labour
    rw [hreading, hreleased]
  refine ⟨h.base_le, h.first_le, hreleased ▸ h.released, fun hp => ?_, fun hp => ?_⟩
  · obtain ⟨hlen, hsteps⟩ := h.here hp
    rw [hpublished, hlabour, hmore hp, hlen, Nat.add_assoc]
    exact ⟨rfl, hsteps⟩
  · rw [hreading, hreleased, hlabour, hnone hp]
    exact h.past hp

theorem consume
    (hr : (Ring.machine S start).Reachable r) (hpassed : ¬ passed) (hs : r.next ev = some t)
    (hev : ev.produces = false)
    (hbatch : ∀ max, ev = .popBatch max → r.cons.popBatch S r.hdr max ≠ 0) :
    Account t passed base first arrived (steps + 1) := by
  obtain ⟨hpublished, hreleased, hlabour⟩ := Ring.next_consumer hr hs hev hbatch h.released
  obtain ⟨hlen, hsteps⟩ := h.here hpassed
  refine ⟨h.base_le, h.first_le, h.released.trans hreleased, fun _ => ⟨?_, ?_⟩,
    fun hp => absurd hp hpassed⟩
  · rw [hpublished, hlen]
  · omega

/-- The reader leaves a ring when it has read everything in it. -/
theorem pass (hinv : r.Inv start)
    (hpassed : ¬ passed) (hidle : r.reading = .idle) {max : UInt32} (hmax : 1 ≤ max.toNat)
    (hempty : r.cons.popBatch S r.hdr max = 0) {passed' : Prop} (hpassed' : passed') :
    Account r passed' base first arrived (steps + 1) := by
  obtain ⟨hlen, hsteps⟩ := h.here hpassed
  have hall := (hinv.popBatch_eq_zero_iff hmax).mp hempty
  have hle := hinv.released_le
  exact ⟨h.base_le, h.first_le, h.released, fun hp => absurd hpassed' hp,
    fun _ => ⟨hidle, by omega, by omega⟩⟩

theorem congr {passed' : Prop}
    (hiff : passed ↔ passed') : Account r passed' base first arrived steps :=
  propext hiff ▸ h

/-- No callback begins for anything but what was there and what arrived. -/
theorem invoked_le (hinv : r.Inv start) :
    r.invoked - base ≤ first - base + arrived := by
  have hbase := h.base_le
  by_cases hp : passed
  · obtain ⟨hidle, hreleased, -⟩ := h.past hp
    simp only [Ring.invoked, hidle]
    omega
  · have := (h.here hp).1
    have := hinv.invoked_le
    omega

/-- At a ring that the reader has left, a callback has begun for all of it. -/
theorem invoked_eq (hp : passed) :
    r.invoked - base = first - base + arrived := by
  have hbase := h.base_le
  obtain ⟨hidle, hreleased, -⟩ := h.past hp
  simp only [Ring.invoked, hidle]
  omega

theorem steps_le (hr : (Ring.machine S start).Reachable r) :
    steps ≤ (first - base + arrived) * (S.kPayloadMax + 3) + 1 := by
  have hbase := h.base_le
  have hsum : first + arrived - base = first - base + arrived := by omega
  rw [← hsum]
  by_cases hp : passed
  · obtain ⟨hidle, hreleased, hsteps⟩ := h.past hp
    simpa only [Ring.labour, hidle, hreleased, Nat.add_zero] using hsteps
  · obtain ⟨hlen, hsteps⟩ := h.here hp
    rw [← hlen]
    exact (hsteps.trans (Ring.labour_le hr h.released)).trans (Nat.le_succ _)

end

end Account

/-! ## The round -/

/-- The request path, with the account of the round that the reader is in. -/
structure Round (N : Nat) where
  path : RequestPath N
  base : Fin N → Nat
  first : Fin N → Nat
  arrived : Fin N → Nat
  steps : Fin N → Nat

namespace Round

variable {N : Nat} {spinTries : Nat} {start : Fin N → UInt32} {g : Round N}

/-- A round begins with what the rings hold. -/
def begin (p : RequestPath N) : Round N where
  path := p
  base i := (p.rings i).released
  first i := (p.rings i).published.length
  arrived _ := 0
  steps _ := 0

/-- The path moves, and the account with it. -/
def next (spinTries : Nat) (g : Round N) (e : PathEvent N) : Option (Round N) :=
  (g.path.next spinTries e).map fun p =>
    if g.path.begins e then .begin p
    else { g with
      path := p
      arrived := fun i => g.arrived i + g.path.arrives e i
      steps := fun i => g.steps i + g.path.works e i }

def machine (spinTries : Nat) (start : Fin N → UInt32) : Machine (Round N) (PathEvent N) where
  init g := (RequestPath.machine spinTries start).init g.path
  next := next spinTries

theorem fresh_init : (machine 64 fun _ => 0).init (.begin RequestPath.fresh : Round 1) :=
  RequestPath.fresh_init

/-- The callbacks that have begun in the round. -/
def called (g : Round N) : Nat := ∑ i, ((g.path.rings i).invoked - g.base i)

/-- What the rings held when the round began. -/
def held (g : Round N) : Nat := ∑ i, (g.first i - g.base i)

/-- The slots that were free when the round began. -/
def free (g : Round N) : Nat := ∑ i, (ReqRing.kSlotCount.toNat - (g.first i - g.base i))

/-- What came to a ring before the reader left it. -/
def arrivals (g : Round N) : Nat := ∑ i, g.arrived i

/-- The reader's steps in the round. -/
def spent (g : Round N) : Nat := ∑ i, g.steps i

/-- Every ring is a run of the ring alone, the reader is in the middle of a
batch at no ring but its own, and in a round every ring has its account. -/
structure Inv (start : Fin N → UInt32) (g : Round N) : Prop where
  rings : ∀ i, (Ring.machine ReqRing (start i)).Reachable (g.path.rings i)
  idle : ∀ i : Fin N, g.path.source.ring ≠ some i.val → (g.path.rings i).reading = .idle
  account : ∀ k, g.path.source.ring = some k → ∀ i : Fin N,
    Account (g.path.rings i) (i.val < k) (g.base i) (g.first i) (g.arrived i) (g.steps i)

namespace Inv

theorem init (h : (machine spinTries start).init g) : Inv start g where
  rings i := .start (h.1 i)
  idle i _ := by
    obtain ⟨slots, hring⟩ := h.1 i
    rw [hring]
    rfl
  account k hk := by
    rw [h.2.2] at hk
    cases hk

theorem begin (h : Inv start g) {p : RequestPath N} (hrings : p.rings = g.path.rings)
    (hsource : ∀ i : Fin N, g.path.source.ring ≠ some i.val)
    (hring : ∀ k, p.source.ring = some k → k = 0) : Inv start (.begin p) where
  rings := hrings ▸ h.rings
  idle i _ := by
    change (p.rings i).reading = .idle
    rw [hrings]
    exact h.idle i (hsource i)
  account k hk i := by
    obtain rfl := hring k hk
    refine Account.begin (Ring.inv_of_reachable (?_ : (Ring.machine ReqRing (start i)).Reachable _))
      (Nat.not_lt_zero _)
    change (Ring.machine ReqRing (start i)).Reachable (p.rings i)
    rw [hrings]
    exact h.rings i

/-- A step inside a round, or between two. -/
theorem move (h : Inv start g) {p : RequestPath N} {e : PathEvent N}
    (hs : g.path.next spinTries e = some p) (hbegins : g.path.begins e = false) :
    Inv start { g with
      path := p
      arrived := fun i => g.arrived i + g.path.arrives e i
      steps := fun i => g.steps i + g.path.works e i } := by
  cases RequestPath.effect_of_next hs with
  | begin htrue => rw [hbegins] at htrue; cases htrue
  | quiet _ harrives hworks hrings hring =>
    simp only [harrives, hworks, Nat.add_zero]
    refine ⟨?_, ?_, ?_⟩
    · simpa only [hrings] using h.rings
    · simpa only [hrings, hring] using h.idle
    · simpa only [hrings, hring] using h.account
  | produce _ i ev r hev harrives hworks hr hrings hring =>
    refine ⟨fun j => ?_, fun j hj => ?_, fun k hk j => ?_⟩
    · simpa only [hrings, RequestPath.setRing] using RequestPath.reachable_setRing h.rings hr j
    · have hidle := h.idle j (hring ▸ hj)
      by_cases hji : j = i
      · subst hji
        simpa only [hrings, update_self, (Ring.next_producer hr hev).1] using hidle
      · simpa only [hrings, update_of_ne hji] using hidle
    · simp only [hworks, Nat.add_zero]
      have hk' : g.path.source.ring = some k := hring ▸ hk
      have hacc := h.account k hk' j
      by_cases hji : j = i
      · subst hji
        simp only [hrings, update_self]
        -- a publication counts as long as the reader is not past the ring
        simp only [hk', Option.any_some, decide_eq_true_eq] at harrives
        refine hacc.produce hr hev (fun hp => ?_) (fun hp => ?_)
        · rw [harrives, if_pos (And.intro rfl (Nat.not_lt.mp hp))]
        · rw [harrives, if_neg fun hahead => Nat.not_lt.mpr hahead.2 hp]
      · simpa only [hrings, update_of_ne hji, harrives, hji, false_and, if_false,
          Nat.add_zero] using hacc
  | consume _ k ev r hev hsource hbatch harrives hworks hr hrings hring =>
    refine ⟨fun j => ?_, fun j hj => ?_, fun k' hk' j => ?_⟩
    · simpa only [hrings, RequestPath.setRing] using RequestPath.reachable_setRing h.rings hr j
    · have hjk : j ≠ k := by
        rintro rfl
        exact hj hring
      simpa only [hrings, update_of_ne hjk] using h.idle j (hsource ▸ hring ▸ hj)
    · obtain rfl : k.val = k' := Option.some.inj (hring.symm.trans hk')
      have hacc := h.account k.val hsource j
      simp only [harrives, hworks, Nat.add_zero]
      by_cases hjk : j = k
      · subst hjk
        simpa only [hrings, update_self, if_true] using
          hacc.consume (h.rings j) (Nat.lt_irrefl _) hr hev hbatch
      · simpa only [hrings, update_of_ne hjk, if_neg hjk, Nat.add_zero] using hacc
  | pass _ k hsource hidle hempty harrives hworks hrings hring =>
    refine ⟨?_, fun j hj => ?_, fun k' hk' j => ?_⟩
    · simpa only [hrings] using h.rings
    · simp only [hrings]
      by_cases hjk : j = k
      · rw [hjk]
        exact hidle
      · refine h.idle j ?_
        rw [hsource]
        exact fun heq => hjk (Fin.ext (Option.some.inj heq).symm)
    · obtain rfl : k.val + 1 = k' := Option.some.inj (hring.symm.trans hk')
      have hacc := h.account k.val hsource j
      simp only [harrives, hworks, hrings, Nat.add_zero]
      by_cases hjk : j = k
      · subst hjk
        simpa only [if_true] using hacc.pass (Ring.inv_of_reachable (h.rings j))
          (Nat.lt_irrefl _) hidle (by decide) hempty (Nat.lt_succ_self _)
      · have hne : j.val ≠ k.val := fun heq => hjk (Fin.ext heq)
        simpa only [if_neg hjk, Nat.add_zero] using hacc.congr (by omega)

theorem step (h : Inv start g) {e : PathEvent N} {g' : Round N}
    (hs : g.next spinTries e = some g') : Inv start g' := by
  obtain ⟨p, hp, rfl⟩ := Option.map_eq_some_iff.mp hs
  cases hbegins : g.path.begins e with
  | false =>
    simp only [Bool.false_eq_true, if_false]
    exact h.move hp hbegins
  | true =>
    simp only [if_true]
    cases RequestPath.effect_of_next hp with
    | begin _ hsource hrings hring => exact h.begin hrings hsource hring
    | quiet hfalse | produce hfalse | consume hfalse | pass hfalse =>
      rw [hbegins] at hfalse
      cases hfalse

end Inv

theorem inv_of_reachable (h : (machine spinTries start).Reachable g) : Inv start g :=
  Machine.invariant (fun _ hg => .init hg) (fun _ _ _ hg _ hs => hg.step hs) h

theorem held_add_free (h : Inv start g) {k : Nat} (hround : g.path.source.ring = some k) :
    g.held + g.free = N * ReqRing.kSlotCount.toNat := by
  have hone : ∀ i, (g.first i - g.base i) +
      (ReqRing.kSlotCount.toNat - (g.first i - g.base i)) = ReqRing.kSlotCount.toNat := by
    intro i
    have hle := (h.account k hround i).first_le
    rw [← Ring.kSlotCount_toNat] at hle
    omega
  simp only [held, free, ← Finset.sum_add_distrib, hone, Finset.sum_const, Finset.card_univ,
    Fintype.card_fin, smul_eq_mul]

theorem called_le (h : Inv start g) {k : Nat} (hround : g.path.source.ring = some k) :
    g.called ≤ g.held + g.arrivals := by
  rw [called, held, arrivals, ← Finset.sum_add_distrib]
  exact Finset.sum_le_sum fun i _ =>
    (h.account k hround i).invoked_le (Ring.inv_of_reachable (h.rings i))

/-- Behind the last ring, the round has read what was there and what arrived. -/
theorem called_eq (h : Inv start g) (hend : g.path.source.ring = some N) :
    g.called = g.held + g.arrivals := by
  rw [called, held, arrivals, ← Finset.sum_add_distrib]
  exact Finset.sum_congr rfl fun i _ => (h.account N hend i).invoked_eq i.isLt

theorem spent_le (h : Inv start g) {k : Nat} (hround : g.path.source.ring = some k) :
    g.spent ≤ (g.held + g.arrivals) * (ReqRing.kPayloadMax + 3) + N := by
  calc g.spent
      ≤ ∑ i, ((g.first i - g.base i + g.arrived i) * (ReqRing.kPayloadMax + 3) + 1) :=
        Finset.sum_le_sum fun i _ => (h.account k hround i).steps_le (h.rings i)
    _ = (g.held + g.arrivals) * (ReqRing.kPayloadMax + 3) + N := by
        simp only [held, arrivals, Finset.sum_add_distrib, ← Finset.sum_mul, Finset.sum_const,
          Finset.card_univ, Fintype.card_fin, smul_eq_mul, Nat.mul_one]

/-- **A round is bounded** as long as no more requests arrive at the rings ahead
of the reader than there were free slots, and then its steps are; a round that
is over has kept the bound exactly then. -/
theorem round_bounded_iff (h : (machine spinTries start).Reachable g) {k : Nat}
    (hround : g.path.source.ring = some k) :
    (g.arrivals ≤ g.free → g.called ≤ N * ReqRing.kSlotCount.toNat ∧
      g.spent ≤ N * ReqRing.kSlotCount.toNat * (ReqRing.kPayloadMax + 3) + N) ∧
    (k = N → (g.called ≤ N * ReqRing.kSlotCount.toNat ↔ g.arrivals ≤ g.free)) := by
  have hinv := inv_of_reachable h
  have hslots := held_add_free hinv hround
  refine ⟨fun hfree => ?_, fun hend => ?_⟩
  · have hall : g.held + g.arrivals ≤ N * ReqRing.kSlotCount.toNat := by omega
    refine ⟨(called_le hinv hround).trans hall, (spent_le hinv hround).trans ?_⟩
    exact Nat.add_le_add_right (Nat.mul_le_mul_right _ hall) N
  · subst hend
    rw [called_eq hinv hround, ← hslots]
    exact Nat.add_le_add_iff_left

/-- A request is there when the round begins, and another comes to the ring in it. Both are
read, and the round ends. -/
theorem round_bounded_arriving :
    ∃ g : Round 1, g.path.source.ring = some 1 ∧ g.held = 1 ∧ g.arrivals = 1 ∧ g.called = 2 ∧
      g.arrivals ≤ g.free ∧ g.called ≤ 1 * ReqRing.kSlotCount.toNat ∧
      g.spent ≤ 1 * ReqRing.kSlotCount.toNat * (ReqRing.kPayloadMax + 3) + 1 := by
  obtain ⟨g, hreach, hend, hheld, harrivals, hcalled, hfree⟩ :
      ∃ g : Round 1, (machine 64 fun _ => 0).Reachable g ∧ g.path.source.ring = some 1 ∧
        g.held = 1 ∧ g.arrivals = 1 ∧ g.called = 2 ∧ g.arrivals ≤ g.free :=
    Machine.exists_of_play _ fresh_init
      ([.sample 0 ⟨7, 1, 1, []⟩] ++ RequestPath.delivered ++ [.waitPop] ++
        [.sample 0 ⟨7, 1, 2, []⟩] ++ RequestPath.delivered ++
        [.popBatch, .readPkt, .readPkt, .release, .popBatch]) (by decide +kernel)
  exact ⟨g, hend, hheld, harrivals, hcalled, hfree, (round_bounded_iff hreach hend).1 hfree⟩

end Round

/-! ## A ring that is never empty -/

namespace Ring

variable {S : RingShape} {start : UInt32} {r : Ring S}

/-- Neither side is at work, and there is nothing in the ring. -/
structure Rests (r : Ring S) : Prop where
  writing : r.writing = .idle
  reading : r.reading = .idle
  pending : r.pending = []
  released : r.released = r.published.length

/-- An entry without a payload is put in, -/
theorem deliver (h : (machine S start).Reachable r) (hrest : r.Rests) (e : Entry S)
    (hempty : e.payload = []) :
    r.prod.beginWrite S r.hdr ≠ none ∧ ∃ r₁ r₂ r₃, r.next (.beginWrite e) = some r₁ ∧
      r₁.next .fillPkt = some r₂ ∧ r₂.next .publish = some r₃ ∧ r₃.writing = .idle ∧
      r₃.reading = .idle ∧ r₃.pending = [] ∧ r₃.released = r.released ∧
      r₃.published = r.published ++ [e] := by
  have hinv := inv_of_reachable h
  have hfree : r.prod.beginWrite S r.hdr ≠ none := by
    rw [Ne, hinv.beginWrite_none_iff, reserved, hrest.pending, hrest.released]
    have := Nat.two_pow_pos S.slotCountBits
    simp only [List.length_nil]
    omega
  refine ⟨hfree, ?_⟩
  obtain ⟨⟨slot, p⟩, hb⟩ := Option.ne_none_iff_exists'.mp hfree
  have hbegin : r.next (.beginWrite e) =
      some { r with prod := p, writing := .header slot e, pending := [e] } := by
    simp only [next, hrest.writing, hb, hrest.pending, List.nil_append]
  have hfill : Ring.next { r with prod := p, writing := .header slot e, pending := [e] } .fillPkt =
      some { r.setPkt slot e.pkt with prod := p, writing := .idle, pending := [e] } := by
    simp only [next, putNext, hempty, List.length_nil, if_true, setPkt]
  have hpublish : Ring.next
      { r.setPkt slot e.pkt with prod := p, writing := .idle, pending := [e] } .publish =
      some { r.setPkt slot e.pkt with
        prod := ⟨p.headLocal, p.headPublished + p.unpublished, p.unpublished - p.unpublished⟩
        hdr := ⟨p.headPublished + p.unpublished, r.hdr.tail⟩
        writing := .idle, published := r.published ++ [e], pending := [] } := by
    simp only [next, Producer.publish, if_true, Option.map_some, setPkt]
  exact ⟨_, _, _, hbegin, hfill, hpublish, rfl, hrest.reading, rfl, rfl, rfl⟩

/-- and read and released. -/
theorem fetch (h : (machine S start).Reachable r) (hidle : r.reading = .idle) {e : Entry S}
    {es : List (Entry S)} (hpublished : r.published = es ++ [e]) (hreleased : r.released = es.length)
    (hempty : e.payload = []) :
    r.cons.popBatch S r.hdr 64 ≠ 0 ∧ ∃ r₁ r₂ r₃, r.next (.popBatch 64) = some r₁ ∧
      r₁.next .readPkt = some r₂ ∧ r₂.next .release = some r₃ ∧ r₃.writing = r.writing ∧
      r₃.reading = .idle ∧ r₃.pending = r.pending ∧ r₃.released = es.length + 1 ∧
      r₃.published = r.published := by
  have hinv := inv_of_reachable h
  have hone : (r.cons.popBatch S r.hdr 64).toNat = 1 := by
    have hcell := cell_lt start S.slotCountBits r.released
    rw [hinv.popBatch_toNat, hpublished, List.length_append, List.length_singleton, hreleased]
    rw [hreleased] at hcell
    change min (min 64 _) _ = 1
    omega
  have hne : r.cons.popBatch S r.hdr 64 ≠ 0 := by
    intro hzero
    rw [hzero] at hone
    cases hone
  refine ⟨hne, ?_⟩
  have hpop : r.next (.popBatch 64) =
      some { r with reading := .batch (r.cons.popBatch S r.hdr 64) 0 none } := by
    simp only [next, hidle, if_neg hne]
  -- the slot under the reader holds the packet, which announces no bytes
  obtain ⟨e', he', hpkt, -⟩ :=
    (hinv.step (step_of_next hpop)).read_holds rfl (Nat.lt_of_lt_of_eq Nat.one_pos hone.symm)
  obtain rfl : e' = e := by
    simp only [hpublished, hreleased, Nat.add_zero, List.getElem?_concat_length,
      Option.some.injEq] at he'
    exact he'.symm
  have hlen : (0 : Nat) = e'.pkt.payloadLen.toNat := by
    rw [← e'.len_eq, hempty]
    rfl
  have hread : Ring.next { r with reading := .batch (r.cons.popBatch S r.hdr 64) 0 none } .readPkt =
      some { r with
        reading := .batch (r.cons.popBatch S r.hdr 64) 1 none, got := r.got ++ [(e'.pkt, [])] } := by
    simp only [next]
    rw [if_pos (Nat.lt_of_lt_of_eq Nat.one_pos hone.symm), hpkt]
    simp only [takeNext, List.length_nil, if_pos hlen]
  have hrelease : Ring.next
      { r with
        reading := .batch (r.cons.popBatch S r.hdr 64) 1 none, got := r.got ++ [(e'.pkt, [])] }
      .release =
      some { r with
        cons := (r.cons.release (r.cons.popBatch S r.hdr 64) r.hdr).1
        hdr := (r.cons.release (r.cons.popBatch S r.hdr 64) r.hdr).2
        reading := .idle, got := r.got ++ [(e'.pkt, [])], released := es.length + 1 } := by
    simp only [next, hone, if_true, hreleased]
  exact ⟨_, _, _, hpop, hread, hrelease, rfl, rfl, rfl, rfl, rfl⟩

theorem reachable_next (h : (machine S start).Reachable r) {ev : RingEvent S} {t : Ring S}
    (hs : r.next ev = some t) : (machine S start).Reachable t :=
  .step h trivial hs

end Ring

namespace RequestPath

/-- One ring, with its reader in the first sweep of `wait_pop`. -/
def busy (r : Ring ReqRing) (w : Handling) (fifo : Nat) (total : UInt32) : RequestPath 1 where
  rings _ := r
  workers _ := w
  fifo := fifo
  source := .popping (.before 64) 0 total

theorem update_const {α : Type} (a b : α) (i : Fin 1) :
    update (fun _ => a) i b = fun _ => b :=
  funext fun j => by rw [Subsingleton.elim j i, update_self]

variable {r r' : Ring ReqRing} {w w' : Handling} {fifo : Nat} {total total' : UInt32}

theorem produce_busy {ev : RingEvent ReqRing} (hr : r.next ev = some r') :
    (busy r w fifo total).produce 0 ev w' = some (busy r' w' fifo total) := by
  simp only [produce, busy, hr, Option.map_some, setRing, setWorker, update_const]

theorem consume_busy {ev : RingEvent ReqRing} (hr : r.next ev = some r') :
    (busy r w fifo total).consume 0 ev (.popping (.before 64) 0 total') =
      some (busy r' w fifo total') := by
  simp only [consume, busy, Nat.one_pos, dite_true, hr, Option.map_some, setRing, update_const]

theorem next_popBatch_busy :
    (busy r w fifo total).next 64 .popBatch = (busy r w fifo total).consume 0 (.popBatch 64)
      (.popping (.before 64) (if (busy r w fifo total).popSize 0 = 0 then 1 else 0) total) :=
  rfl

/-- A step inside a round. -/
def Within (s t : RequestPath 1) : Prop := ∃ e, s.begins e = false ∧ s.next 64 e = some t

/-- A worker puts a request without a payload into the ring, -/
theorem busy_deliver (fifo : Nat) (total : UInt32) {e : Entry ReqRing} {req : SinkRequest}
    (he : req.entry = some e) (hfree : r.prod.beginWrite ReqRing r.hdr ≠ none) {r₁ r₂ r₃ : Ring ReqRing}
    (hbegin : r.next (.beginWrite e) = some r₁) (hfill : r₁.next .fillPkt = some r₂)
    (hpublish : r₂.next .publish = some r₃) :
    ∃ fifo', Relation.ReflTransGen Within (busy r .outside fifo total)
      (busy r₃ .outside fifo' total) := by
  obtain ⟨b, hb⟩ := Option.ne_none_iff_exists'.mp hfree
  have hsample : Within (busy r .outside fifo total)
      (busy r (.sampled (r.prod.empty r.hdr) e) fifo total) :=
    ⟨.sample 0 req, rfl, by simp only [next, busy, he, setWorker, update_const]⟩
  have hreserve : Within (busy r (.sampled (r.prod.empty r.hdr) e) fifo total)
      (busy r₁ (.filling (r.prod.empty r.hdr)) fifo total) := by
    refine ⟨.beginWrite 0, rfl, ?_⟩
    simp only [next, busy, hb]
    exact produce_busy hbegin
  have hput : Within (busy r₁ (.filling (r.prod.empty r.hdr)) fifo total)
      (busy r₂ (.filling (r.prod.empty r.hdr)) fifo total) :=
    ⟨.fillPkt 0, rfl, produce_busy hfill⟩
  have hshow : Within (busy r₂ (.filling (r.prod.empty r.hdr)) fifo total)
      (busy r₃ (.published (r.prod.empty r.hdr)) fifo total) :=
    ⟨.publish 0, rfl, produce_busy hpublish⟩
  have hring : Within (busy r₃ (.published (r.prod.empty r.hdr)) fifo total)
      (busy r₃ .outside (if r.prod.empty r.hdr then write1 fifo else fifo) total) :=
    ⟨.notify 0, rfl, by simp only [next, busy, setWorker, update_const]⟩
  exact ⟨_, .tail (.tail (.tail (.tail (.single hsample) hreserve) hput) hshow) hring⟩

/-- and the reader takes it out. -/
theorem busy_fetch (w : Handling) (fifo : Nat) (total : UInt32)
    (hsize : r.cons.popBatch ReqRing r.hdr 64 ≠ 0) {r₁ r₂ r₃ : Ring ReqRing}
    (hpop : r.next (.popBatch 64) = some r₁) (hread : r₁.next .readPkt = some r₂)
    (hrelease : r₂.next .release = some r₃) :
    ∃ total', Relation.ReflTransGen Within (busy r w fifo total) (busy r₃ w fifo total') := by
  have hbatch : Within (busy r w fifo total) (busy r₁ w fifo total) := by
    refine ⟨.popBatch, rfl, ?_⟩
    have hsize' : (busy r w fifo total).popSize 0 ≠ 0 := hsize
    rw [next_popBatch_busy, if_neg hsize']
    exact consume_busy hpop
  have hcopy : Within (busy r₁ w fifo total) (busy r₂ w fifo total) :=
    ⟨.readPkt, rfl, consume_busy hread⟩
  have hback : Within (busy r₂ w fifo total)
      (busy r₃ w fifo (total + (busy r₂ w fifo total).batchSize 0)) :=
    ⟨.release, rfl, consume_busy hrelease⟩
  exact ⟨_, .tail (.tail (.single hbatch) hcopy) hback⟩

/-- A request comes and is read while the reader is in the round. -/
theorem serve {start : UInt32} (h : (Ring.machine ReqRing start).Reachable r) (hrest : r.Rests)
    (fifo : Nat) (total : UInt32) :
    ∃ r' fifo' total', Relation.ReflTransGen Within (busy r .outside fifo total)
        (busy r' .outside fifo' total') ∧
      (Ring.machine ReqRing start).Reachable r' ∧ r'.Rests ∧ r'.released = r.released + 1 := by
  obtain ⟨e, he, hempty⟩ : ∃ e, (⟨7, 1, 1, []⟩ : SinkRequest).entry = some e ∧ e.payload = [] :=
    ⟨_, rfl, rfl⟩
  obtain ⟨hfree, r₁, r₂, r₃, hbegin, hfill, hpublish, hwriting, hreading, hpending, hreleased,
    hpublished⟩ := Ring.deliver h hrest e hempty
  have h₃ := Ring.reachable_next (Ring.reachable_next (Ring.reachable_next h hbegin) hfill) hpublish
  obtain ⟨hsize, r₄, r₅, r₆, hpop, hread, hrelease, hwriting', hreading', hpending', hreleased',
    hpublished'⟩ := Ring.fetch h₃ hreading hpublished (hreleased.trans hrest.released) hempty
  have h₆ := Ring.reachable_next (Ring.reachable_next (Ring.reachable_next h₃ hpop) hread) hrelease
  obtain ⟨fifo', hin⟩ := busy_deliver fifo total he hfree hbegin hfill hpublish
  obtain ⟨total', hout⟩ := busy_fetch .outside fifo' total hsize hpop hread
    hrelease
  refine ⟨r₆, fifo', total', hin.trans hout, h₆, ?_, ?_⟩
  · refine ⟨hwriting'.trans hwriting, hreading', hpending'.trans hpending, ?_⟩
    rw [hreleased', hpublished', hpublished, List.length_append, List.length_singleton]
  · rw [hreleased', hrest.released]

/-- Any number of requests are read in one round. -/
theorem serve_many {start : UInt32} (h : (Ring.machine ReqRing start).Reachable r)
    (hrest : r.Rests) (fifo : Nat) (total : UInt32) (n : Nat) :
    ∃ r' fifo' total', Relation.ReflTransGen Within (busy r .outside fifo total)
        (busy r' .outside fifo' total') ∧
      (Ring.machine ReqRing start).Reachable r' ∧ r'.Rests ∧ r'.released = r.released + n := by
  induction n with
  | zero => exact ⟨r, fifo, total, .refl, h, hrest, rfl⟩
  | succ n ih =>
    obtain ⟨r₁, fifo₁, total₁, hrun, h₁, hrest₁, hreleased₁⟩ := ih
    obtain ⟨r₂, fifo₂, total₂, hnext, h₂, hrest₂, hreleased₂⟩ := serve h₁ hrest₁ fifo₁ total₁
    exact ⟨r₂, fifo₂, total₂, hrun.trans hnext, h₂, hrest₂, by rw [hreleased₂, hreleased₁]; rfl⟩

/-- The reader finds the ring empty and goes on. -/
theorem busy_pass {start : UInt32} (h : (Ring.machine ReqRing start).Reachable r)
    (hrest : r.Rests) : Within (busy r w fifo total)
      { busy r w fifo total with source := .popping (.before 64) 1 total } := by
  have hempty : r.cons.popBatch ReqRing r.hdr 64 = 0 :=
    ((Ring.inv_of_reachable h).popBatch_eq_zero_iff (by decide)).mpr (by rw [hrest.released]; omega)
  have hsame : r.next (.popBatch 64) = some r := by
    simp only [Ring.next, hrest.reading, hempty, if_true]
  have hsize : (busy r w fifo total).popSize 0 = 0 := hempty
  refine ⟨.popBatch, rfl, ?_⟩
  rw [next_popBatch_busy, if_pos hsize]
  simp only [consume, busy, Nat.one_pos, dite_true, hsame, Option.map_some, setRing, update_const]

end RequestPath

namespace Round

open RequestPath

/-- What the path does inside a round, the round does. -/
theorem follow {g : Round 1} {start : Fin 1 → UInt32} (h : (machine 64 start).Reachable g)
    {p : RequestPath 1} (hrun : Relation.ReflTransGen Within g.path p) :
    ∃ g', (machine 64 start).Reachable g' ∧ g'.path = p ∧ g'.base = g.base := by
  induction hrun with
  | refl => exact ⟨g, h, rfl, rfl⟩
  | @tail _ q _ hstep ih =>
    obtain ⟨g', hreach, rfl, hbase⟩ := ih
    obtain ⟨e, hbegins, hs⟩ := hstep
    have hnext : g'.next 64 e = some { g' with
        path := q
        arrived := fun i => g'.arrived i + g'.path.arrives e i
        steps := fun i => g'.steps i + g'.path.works e i } := by
      simp only [Round.next, hs, Option.map_some, hbegins, Bool.false_eq_true, if_false]
    exact ⟨_, .step hreach trivial hnext, rfl, hbase⟩

/-- One busy ring keeps the reader in a round for any number of callbacks. -/
theorem round_unbounded (n : Nat) :
    ∃ g : Round 1, (machine 64 fun _ => 0).Reachable g ∧ g.path.source.ring = some 1 ∧
      g.called = n := by
  let r := Ring.attached ReqRing 0 fun _ => ⟨⟨0, 0, 0, 0, 0, 0, 0⟩, fun _ => 0⟩
  have hr : (Ring.machine ReqRing 0).Reachable r := .start ⟨_, rfl⟩
  have hbegun : (machine 64 fun _ => 0).Reachable (.begin (busy r .outside 0 0) : Round 1) :=
    .step (e := .waitPop) (.start Round.fresh_init) trivial rfl
  obtain ⟨r', fifo, total, hrun, hr', hrest, hreleased⟩ :=
    serve_many hr ⟨rfl, rfl, rfl, rfl⟩ 0 0 n
  obtain ⟨g, hreach, hpath, hbase⟩ := follow hbegun (hrun.tail (busy_pass hr' hrest))
  refine ⟨g, hreach, by rw [hpath]; rfl, ?_⟩
  have hzero : g.base 0 = 0 := by rw [hbase]; rfl
  have hcalls : (g.path.rings 0).invoked = n := by
    rw [hpath]
    simp only [busy, Ring.invoked, hrest.reading, hreleased]
    exact Nat.zero_add n
  simp only [called, Finset.univ_unique, Fin.default_eq_zero, Finset.sum_singleton, hcalls, hzero,
    Nat.sub_zero]

/-- With one ring, 513 callbacks in one `pop_once`. -/
theorem round_overrun :
    ∃ g : Round 1, (machine 64 fun _ => 0).Reachable g ∧ g.path.source.ring = some 1 ∧
      1 * ReqRing.kSlotCount.toNat < g.called := by
  obtain ⟨g, hreach, hend, hcalled⟩ := round_unbounded 513
  exact ⟨g, hreach, hend, by rw [hcalled]; decide⟩

end Round

end SharedBike.Ipc
