import SharedBike.Server.Reports

/-!
# The client's trajectory

`trajectory_sim.cpp`, `trajectory_model.cpp` and the two handlers of
`RidePane.qml` that drive them. While a ride is on, a timer makes one step a
second and reports it with its number and its second. A failed `end_ride` starts
the model again for the same ride, and `start` sets both counters back to 0.

The server takes a report when its number is larger than every number before
(`Server.Reports`). So the reports of a model that was started again are refused
until their numbers pass the old ones: every tick is recorded exactly when no
tick follows a start that follows a tick (`recording_iff`).

The doubles of a step come from the platform (`Motion`).
-/

namespace SharedBike.Client

open SharedBike.Common SharedBike.Lib SharedBike.Server

/-! ## The simulation -/

/-- The random draws and the geometry of a step. -/
structure Motion where
  /-- the speed and the bearing that `start` draws from a seed -/
  first : UInt32 → Double × Double
  /-- the speed and the bearing of a step, from its seed and the bearing before -/
  turn : UInt32 → Double → Double × Double
  advance : Double → Double → Double → Double → Double × Double
  haversineM : Double → Double → Double → Double → Double
  add : Double → Double → Double

structure TrajectorySim where
  seed : UInt32
  speedMps : Double
  bearingDeg : Double
  currentLat : Double
  currentLng : Double
  distanceM : Double
  seq : Int32
  started : Bool

namespace TrajectorySim

/-- `TrajectorySim(seed)`; the speed and the bearing are not set before `start`. -/
def new (seed : UInt32) : TrajectorySim :=
  ⟨seed, .fin 0, .fin 0, .fin 0, .fin 0, .fin 0, 0, false⟩

def start (M : Motion) (s : TrajectorySim) (lat0 lng0 : Double) : TrajectorySim :=
  { s with
    speedMps := (M.first s.seed).1
    bearingDeg := (M.first s.seed).2
    currentLat := lat0
    currentLng := lng0
    distanceM := .fin 0
    seq := 0
    started := true }

def step (M : Motion) (s : TrajectorySim) : TrajectorySim :=
  if !s.started then s
  else
    let (speedMps, bearingDeg) := M.turn (s.seed + s.seq.toUInt32 + 1) s.bearingDeg
    let (lat, lng) := M.advance s.currentLat s.currentLng bearingDeg speedMps
    { s with
      speedMps
      bearingDeg
      distanceM := M.add s.distanceM (M.haversineM s.currentLat s.currentLng lat lng)
      currentLat := lat
      currentLng := lng
      seq := s.seq + 1 }

theorem step_seq (M : Motion) {s : TrajectorySim} (h : s.started = true) :
    (s.step M).seq = s.seq + 1 ∧ (s.step M).started = true := by
  unfold step
  rw [if_neg (by rw [h]; decide)]
  exact ⟨rfl, h⟩

end TrajectorySim

/-! ## The model -/

structure TrajectoryModel where
  sim : TrajectorySim
  rideNo : String
  elapsedSec : Int32
  active : Bool

namespace TrajectoryModel

/-- The constructor. -/
def new : TrajectoryModel := ⟨.new 0, "", 0, false⟩

def start (M : Motion) (rideNo : String) (lat lng : Double) (seed : UInt32) : TrajectoryModel :=
  ⟨(TrajectorySim.new seed).start M lat lng, rideNo, 0, true⟩

def stop (m : TrajectoryModel) : TrajectoryModel :=
  if !m.active then m else { m with active := false }

/-- What the signal `tick` carries. -/
structure Tick where
  lat : Double
  lng : Double
  seq : Int32
  elapsedSec : Int32
  distanceM : Double

def onTick (M : Motion) (m : TrajectoryModel) : Option Tick × TrajectoryModel :=
  if !m.active then (none, m)
  else
    let elapsedSec := m.elapsedSec + 1
    let sim := m.sim.step M
    (some ⟨sim.currentLat, sim.currentLng, sim.seq, elapsedSec, sim.distanceM⟩,
      { m with sim, elapsedSec })

end TrajectoryModel

/-- What the ride pane reports of a tick. -/
def RidePane.onTick (activeRide : String) (t : TrajectoryModel.Tick) : RidePositionReport :=
  ⟨activeRide, t.seq, t.lat, t.lng, t.elapsedSec⟩

/-! ## A ride under control of the pane -/

/-- The calls on the model during one ride. -/
inductive Control where
  | start (lat lng : Double) (seed : UInt32)
  | tick
  | stop

namespace Control

/-- How many starts a tick follows at once; `started` says that the call before
was a start. The ticks behind such a pair are the model's reports, up to the next
start or stop. -/
def legs : Bool → List Control → Nat
  | _, [] => 0
  | _, .start _ _ _ :: cs => legs true cs
  | started, .tick :: cs => (if started then 1 else 0) + legs false cs
  | _, .stop :: cs => legs false cs

/-- The model is not started again, for more ticks, behind a leg. -/
def Uninterrupted (cs : List Control) : Prop := legs false cs ≤ 1

instance (cs : List Control) : Decidable (Uninterrupted cs) :=
  inferInstanceAs (Decidable (_ ≤ _))

theorem legs_append_start (started : Bool) (before : List Control) (lat lng : Double)
    (seed : UInt32) (rest : List Control) :
    legs started (before ++ .start lat lng seed :: rest) = legs started before + legs true rest := by
  induction before generalizing started with
  | nil => exact (Nat.zero_add _).symm
  | cons c before ih =>
    cases c with
    | start _ _ _ => exact ih true
    | stop => exact ih false
    | tick => rw [List.cons_append, legs, legs, ih, Nat.add_assoc]

/-- Behind a call that was not a start, a leg begins with one. -/
theorem exists_start {cs : List Control} (h : 0 < legs false cs) :
    ∃ before lat lng seed rest, cs = before ++ .start lat lng seed :: rest ∧
      0 < legs true rest := by
  induction cs with
  | nil => exact absurd h (Nat.lt_irrefl 0)
  | cons c cs ih =>
    cases c with
    | start lat lng seed => exact ⟨[], lat, lng, seed, cs, rfl, h⟩
    | tick =>
      rw [legs, if_neg Bool.false_ne_true, Nat.zero_add] at h
      obtain ⟨before, lat, lng, seed, rest, rfl, hrest⟩ := ih h
      exact ⟨.tick :: before, lat, lng, seed, rest, rfl, hrest⟩
    | stop =>
      obtain ⟨before, lat, lng, seed, rest, rfl, hrest⟩ := ih h
      exact ⟨.stop :: before, lat, lng, seed, rest, rfl, hrest⟩

/-- Two legs are parted by the start of the second. -/
theorem exists_restart {started : Bool} {cs : List Control} (h : 1 < legs started cs) :
    ∃ before lat lng seed rest, cs = before ++ .start lat lng seed :: rest ∧
      0 < legs started before ∧ 0 < legs true rest := by
  induction cs generalizing started with
  | nil => exact absurd h (Nat.not_lt_zero 1)
  | cons c cs ih =>
    cases c with
    | start lat' lng' seed' =>
      obtain ⟨before, lat, lng, seed, rest, rfl, hbefore, hrest⟩ := ih h
      exact ⟨.start lat' lng' seed' :: before, lat, lng, seed, rest, rfl, hbefore, hrest⟩
    | stop =>
      obtain ⟨before, lat, lng, seed, rest, rfl, hbefore, hrest⟩ := ih h
      exact ⟨.stop :: before, lat, lng, seed, rest, rfl, hbefore, hrest⟩
    | tick =>
      rw [legs] at h
      cases started with
      | true =>
        -- the tick is the first leg, so the second begins anywhere behind it
        obtain ⟨before, lat, lng, seed, rest, rfl, hrest⟩ :=
          exists_start (Nat.lt_of_add_lt_add_left h)
        refine ⟨.tick :: before, lat, lng, seed, rest, rfl, ?_, hrest⟩
        rw [legs]
        exact Nat.add_pos_left Nat.one_pos _
      | false =>
        rw [if_neg Bool.false_ne_true, Nat.zero_add] at h
        obtain ⟨before, lat, lng, seed, rest, rfl, hbefore, hrest⟩ := ih h
        refine ⟨.tick :: before, lat, lng, seed, rest, rfl, ?_, hrest⟩
        rw [legs]
        exact Nat.add_pos_right _ hbefore

end Control

namespace TrajectoryModel

variable (M : Motion) (rideNo : String)

/-- One call, and the report that it leads to. -/
def apply (m : TrajectoryModel) : Control → Option RidePositionReport × TrajectoryModel
  | .start lat lng seed => (none, start M rideNo lat lng seed)
  | .tick => ((m.onTick M).1.map (RidePane.onTick rideNo), (m.onTick M).2)
  | .stop => (none, m.stop)

/-- The model after a sequence of calls. -/
def steer (m : TrajectoryModel) (cs : List Control) : TrajectoryModel :=
  cs.foldl (fun m c => (m.apply M rideNo c).2) m

/-- The reports of a sequence of calls, in their order. -/
def reports (m : TrajectoryModel) : List Control → List RidePositionReport
  | [] => []
  | c :: cs => (m.apply M rideNo c).1.toList ++ reports (m.apply M rideNo c).2 cs

variable {M rideNo}

theorem steer_concat (m : TrajectoryModel) (cs : List Control) (c : Control) :
    m.steer M rideNo (cs ++ [c]) = ((m.steer M rideNo cs).apply M rideNo c).2 := by
  rw [steer, List.foldl_append]
  rfl

theorem reports_append (m : TrajectoryModel) (cs cs' : List Control) :
    m.reports M rideNo (cs ++ cs') =
      m.reports M rideNo cs ++ (m.steer M rideNo cs).reports M rideNo cs' := by
  induction cs generalizing m with
  | nil => rfl
  | cons c cs ih =>
    rw [List.cons_append, reports, reports, ih, List.append_assoc]
    rfl

theorem reports_concat (m : TrajectoryModel) (cs : List Control) (c : Control) :
    m.reports M rideNo (cs ++ [c]) =
      m.reports M rideNo cs ++ ((m.steer M rideNo cs).apply M rideNo c).1.toList := by
  rw [reports_append, reports, reports, List.append_nil]

theorem rideNo_reports (m : TrajectoryModel) (cs : List Control) :
    ∀ r ∈ m.reports M rideNo cs, r.rideNo = rideNo := by
  induction cs generalizing m with
  | nil => nofun
  | cons c cs ih =>
    intro r hr
    rcases List.mem_append.mp hr with hr | hr
    · cases c with
      | tick =>
        obtain ⟨t, -, rfl⟩ := Option.map_eq_some_iff.mp (Option.mem_toList.mp hr)
        rfl
      | _ => cases hr
    · exact ih _ r hr

/-! ## The counters -/

/-- An active model has counted the ticks since its start in both counters,
`n` of them at most. -/
structure Counts (n : Nat) (m : TrajectoryModel) : Prop where
  started : m.active = true → m.sim.started = true
  elapsed : m.active = true → m.elapsedSec = m.sim.seq
  range : m.active = true → 0 ≤ m.sim.seq.toInt ∧ m.sim.seq.toInt ≤ n

theorem counts_of_inactive {m : TrajectoryModel} (h : m.active = false) (n : Nat) :
    Counts n m := by
  refine ⟨?_, ?_, ?_⟩ <;> rw [h] <;> nofun

/-- A call that leads to a report counts one more. -/
structure Ticked (m : TrajectoryModel) (r : RidePositionReport) (m' : TrajectoryModel) : Prop where
  active : m.active = true
  seq : r.seq = m.sim.seq + 1
  elapsed : r.elapsedSec = m.elapsedSec + 1
  next : m'.sim.seq = r.seq
  same : m'.active = true ∧ m'.sim.started = true ∧ m'.elapsedSec = r.elapsedSec

theorem active_stop (m : TrajectoryModel) : m.stop.active = false := by
  unfold stop
  cases hactive : m.active with
  | false => exact hactive
  | true => rfl

theorem onTick_of_inactive {m : TrajectoryModel} (h : m.active = false) :
    m.onTick M = (none, m) := by
  unfold onTick
  rw [h]
  rfl

variable (M rideNo) in
/-- What a call can do: start the model, report a tick, or neither. -/
theorem apply_cases {m : TrajectoryModel} (h : m.active = true → m.sim.started = true)
    (c : Control) :
    (∃ lat lng seed, c = .start lat lng seed) ∨
      (c = .tick ∧ ∃ r, (m.apply M rideNo c).1 = some r ∧ Ticked m r (m.apply M rideNo c).2) ∨
      ((m.apply M rideNo c).1 = none ∧ (m.apply M rideNo c).2.sim = m.sim ∧
        (m.apply M rideNo c).2.active = false) := by
  cases c with
  | start lat lng seed => exact .inl ⟨lat, lng, seed, rfl⟩
  | stop =>
    refine .inr (.inr ⟨rfl, ?_, m.active_stop⟩)
    show m.stop.sim = m.sim
    unfold stop
    split <;> rfl
  | tick =>
    cases hactive : m.active with
    | false =>
      refine .inr (.inr ?_)
      rw [apply, onTick_of_inactive hactive]
      exact ⟨rfl, rfl, hactive⟩
    | true =>
      have hticks : m.onTick M =
          (some ⟨(m.sim.step M).currentLat, (m.sim.step M).currentLng, (m.sim.step M).seq,
            m.elapsedSec + 1, (m.sim.step M).distanceM⟩,
            { m with sim := m.sim.step M, elapsedSec := m.elapsedSec + 1 }) := by
        unfold onTick
        rw [if_neg (by rw [hactive]; decide)]
      obtain ⟨hseq, hstarted⟩ := TrajectorySim.step_seq M (h hactive)
      refine .inr (.inl ⟨rfl, ?_⟩)
      rw [apply, hticks]
      exact ⟨_, rfl, hactive, hseq, rfl, rfl, hactive, hstarted, rfl⟩

theorem Ticked.seq_toInt {n : Nat} {m m' : TrajectoryModel} {r : RidePositionReport}
    (h : Ticked m r m') (hm : Counts n m) (hn : n + 1 < 2 ^ 31) :
    r.seq.toInt = m.sim.seq.toInt + 1 := by
  obtain ⟨hlo, hhi⟩ := hm.range h.active
  have hone : (1 : Int32).toInt = 1 := rfl
  rw [h.seq, toInt_add_of_range (by omega) (by omega), hone]

theorem Counts.apply {n : Nat} {m : TrajectoryModel} (h : Counts n m) (hn : n + 1 < 2 ^ 31)
    (c : Control) : Counts (n + 1) (m.apply M rideNo c).2 := by
  rcases apply_cases M rideNo h.started c with
    ⟨lat, lng, seed, rfl⟩ | ⟨-, r, -, hr⟩ | ⟨-, -, hstopped⟩
  · exact ⟨fun _ => rfl, fun _ => rfl, fun _ => ⟨Int.le_refl 0, Int.natCast_nonneg _⟩⟩
  · have hseq := hr.seq_toInt h hn
    obtain ⟨hlo, hhi⟩ := h.range hr.active
    refine ⟨fun _ => hr.same.2.1, fun _ => ?_, fun _ => ?_⟩
    · rw [hr.same.2.2, hr.next, hr.elapsed, hr.seq, h.elapsed hr.active]
    · rw [hr.next, hseq]
      omega
  · exact counts_of_inactive hstopped _

/-- The first report after a start has the number 1. -/
theorem first_report {m : TrajectoryModel}
    (h : m.active = true → m.sim.started = true ∧ m.sim.seq = 0) {cs : List Control}
    (hne : m.reports M rideNo cs ≠ []) :
    ∃ pre post r, cs = pre ++ .tick :: post ∧ m.reports M rideNo (pre ++ [.tick]) = [r] ∧
      r.seq = 1 := by
  induction cs generalizing m with
  | nil => exact absurd rfl hne
  | cons c cs ih =>
    -- a call without a report leads to a model that has not ticked either
    have hquiet : (m.apply M rideNo c).1 = none →
        ((m.apply M rideNo c).2.active = true →
          (m.apply M rideNo c).2.sim.started = true ∧ (m.apply M rideNo c).2.sim.seq = 0) →
        ∃ pre post r, c :: cs = pre ++ .tick :: post ∧
          m.reports M rideNo (pre ++ [.tick]) = [r] ∧ r.seq = 1 := by
      intro hnone hnew
      rw [reports, hnone] at hne
      obtain ⟨pre, post, r, hcs, hreports, hr⟩ := ih hnew hne
      refine ⟨c :: pre, post, r, by rw [hcs]; rfl, ?_, hr⟩
      rw [List.cons_append, reports, hnone, hreports]
      rfl
    rcases apply_cases M rideNo (fun hactive => (h hactive).1) c with
      ⟨lat, lng, seed, rfl⟩ | ⟨rfl, r, hr, hticked⟩ | ⟨hnone, -, hstopped⟩
    · exact hquiet rfl fun _ => ⟨rfl, rfl⟩
    · refine ⟨[], cs, r, rfl, ?_, ?_⟩
      · rw [List.nil_append, reports, hr]
        rfl
      · rw [hticked.seq, (h hticked.active).2]
        rfl
    · refine hquiet hnone ?_
      rw [hstopped]
      nofun

/-! ## Recording -/

/-- Without a leg there is no report, and a leg has one. -/
theorem reports_eq_nil_iff (m : TrajectoryModel) (cs : List Control) :
    m.reports M rideNo cs = [] ↔ Control.legs m.active cs = 0 := by
  induction cs generalizing m with
  | nil => exact iff_of_true rfl rfl
  | cons c cs ih =>
    rw [reports]
    cases c with
    | start lat lng seed => exact ih (start M rideNo lat lng seed)
    | stop =>
      have hrest := ih m.stop
      rw [active_stop] at hrest
      exact hrest
    | tick =>
      cases hactive : m.active with
      | false =>
        rw [apply, onTick_of_inactive hactive, Control.legs, if_neg Bool.false_ne_true,
          Nat.zero_add, ← hactive]
        exact ih m
      | true =>
        have hsome : (m.apply M rideNo .tick).1.toList ≠ [] := by
          rw [apply, onTick, if_neg (by rw [hactive]; decide)]
          exact List.cons_ne_nil _ _
        rw [Control.legs, if_pos rfl]
        exact iff_of_false (List.append_ne_nil_of_left_ne_nil hsome _) (by omega)

variable (M rideNo) in
/-- No tick is reported after a start that comes after a reported tick. -/
def Unbroken (m : TrajectoryModel) (cs : List Control) : Prop :=
  ∀ before lat lng seed rest, cs = before ++ .start lat lng seed :: rest →
    m.reports M rideNo before = [] ∨ (start M rideNo lat lng seed).reports M rideNo rest = []

theorem unbroken_iff {m : TrajectoryModel} (hidle : m.active = false) (cs : List Control) :
    m.Unbroken M rideNo cs ↔ Control.Uninterrupted cs := by
  have hnil : ∀ before, m.reports M rideNo before = [] ↔ Control.legs false before = 0 := by
    intro before
    rw [reports_eq_nil_iff, hidle]
  have hstart : ∀ lat lng seed rest, (start M rideNo lat lng seed).reports M rideNo rest = [] ↔
      Control.legs true rest = 0 := fun _ _ _ rest => reports_eq_nil_iff _ rest
  constructor
  · intro h
    refine Nat.le_of_not_lt fun hlt => ?_
    obtain ⟨before, lat, lng, seed, rest, hcs, hbefore, hrest⟩ := Control.exists_restart hlt
    rcases h before lat lng seed rest hcs with hnone | hnone
    · exact Nat.ne_of_gt hbefore ((hnil before).mp hnone)
    · exact Nat.ne_of_gt hrest ((hstart lat lng seed rest).mp hnone)
  · rintro h before lat lng seed rest rfl
    rw [hnil, hstart]
    rw [Control.Uninterrupted, Control.legs_append_start] at h
    omega

theorem Unbroken.of_append {m : TrajectoryModel} {cs cs' : List Control}
    (h : m.Unbroken M rideNo (cs ++ cs')) : m.Unbroken M rideNo cs := by
  intro before lat lng seed rest hcs
  rcases h before lat lng seed (rest ++ cs') (by rw [hcs, List.append_assoc]; rfl) with hnil | hnil
  · exact .inl hnil
  · rw [reports_append] at hnil
    exact .inr (List.append_eq_nil_iff.mp hnil).1

/-- A run of the model from `m₀`: its counters, its reports, and how they compare. -/
structure Steered (M : Motion) (rideNo : String) (m₀ : TrajectoryModel) (cs : List Control) :
    Prop where
  counts : Counts cs.length (m₀.steer M rideNo cs)
  elapsed : ∀ r ∈ m₀.reports M rideNo cs, r.elapsedSec = r.seq
  /-- the reports are not ahead of the counter, unless it was set back after some of them -/
  order : (∀ r ∈ m₀.reports M rideNo cs,
      r.seq.toInt ≤ (m₀.steer M rideNo cs).sim.seq.toInt) ∨
    ∃ before lat lng seed rest, cs = before ++ .start lat lng seed :: rest ∧
      m₀.reports M rideNo before ≠ []
  increasing : m₀.Unbroken M rideNo cs →
    (m₀.reports M rideNo cs).Pairwise fun a b => a.seq.toInt < b.seq.toInt

theorem Steered.concat {m₀ : TrajectoryModel} {cs : List Control}
    (h : Steered M rideNo m₀ cs) (hlen : cs.length + 1 < 2 ^ 31) (c : Control) :
    Steered M rideNo m₀ (cs ++ [c]) := by
  have hcounts : Counts (cs ++ [c]).length (m₀.steer M rideNo (cs ++ [c])) := by
    rw [steer_concat, List.length_append]
    exact h.counts.apply hlen c
  -- a start before the new call is a start before it still
  have hback : (∃ before lat lng seed rest, cs = before ++ .start lat lng seed :: rest ∧
      m₀.reports M rideNo before ≠ []) →
      ∃ before lat lng seed rest, cs ++ [c] = before ++ .start lat lng seed :: rest ∧
        m₀.reports M rideNo before ≠ [] := by
    rintro ⟨before, lat, lng, seed, rest, rfl, hne⟩
    exact ⟨before, lat, lng, seed, rest ++ [c], by simp, hne⟩
  rcases apply_cases M rideNo h.counts.started c with
    ⟨lat, lng, seed, rfl⟩ | ⟨rfl, r, hr, hticked⟩ | ⟨hnone, hsim, -⟩
  · have hreports : m₀.reports M rideNo (cs ++ [.start lat lng seed]) = m₀.reports M rideNo cs := by
      rw [reports_concat]
      exact List.append_nil _
    refine ⟨hcounts, by rw [hreports]; exact h.elapsed, ?_, ?_⟩
    · rw [hreports]
      by_cases hnil : m₀.reports M rideNo cs = []
      · rw [hnil]
        exact .inl nofun
      · exact .inr ⟨cs, lat, lng, seed, [], rfl, hnil⟩
    · intro hun
      rw [hreports]
      exact h.increasing hun.of_append
  · have hreports : m₀.reports M rideNo (cs ++ [.tick]) = m₀.reports M rideNo cs ++ [r] := by
      rw [reports_concat, hr]
      rfl
    have hseq := hticked.seq_toInt h.counts hlen
    refine ⟨hcounts, ?_, ?_, ?_⟩
    · rw [hreports]
      intro x hx
      rcases List.mem_append.mp hx with hx | hx
      · exact h.elapsed x hx
      · rw [List.mem_singleton.mp hx, hticked.elapsed, hticked.seq,
          h.counts.elapsed hticked.active]
    · rcases h.order with hle | hrestarted
      · refine .inl ?_
        rw [hreports, steer_concat, hticked.next]
        intro x hx
        rcases List.mem_append.mp hx with hx | hx
        · have := hle x hx
          omega
        · rw [List.mem_singleton.mp hx]
      · exact .inr (hback hrestarted)
    · intro hun
      rw [hreports]
      refine List.pairwise_append.mpr
        ⟨h.increasing hun.of_append, List.pairwise_singleton _ _, ?_⟩
      intro a ha b hb
      rw [List.mem_singleton.mp hb]
      rcases h.order with hle | ⟨before, lat, lng, seed, rest, rfl, hne⟩
      · have := hle a ha
        omega
      · -- the model was started again, so this tick interrupts the run
        exfalso
        rcases hun before lat lng seed (rest ++ [.tick]) (by simp) with hnil | hnil
        · exact hne hnil
        · have hsteer : m₀.steer M rideNo (before ++ .start lat lng seed :: rest) =
              (start M rideNo lat lng seed).steer M rideNo rest := by
            rw [steer, List.foldl_append]
            rfl
          rw [reports_concat, ← hsteer, hr] at hnil
          exact absurd hnil (List.append_ne_nil_of_right_ne_nil _ (List.cons_ne_nil r []))
  · have hreports : m₀.reports M rideNo (cs ++ [c]) = m₀.reports M rideNo cs := by
      rw [reports_concat, hnone]
      exact List.append_nil _
    refine ⟨hcounts, by rw [hreports]; exact h.elapsed, ?_, ?_⟩
    · rw [hreports, steer_concat, hsim]
      rcases h.order with hle | hrestarted
      · exact .inl hle
      · exact .inr (hback hrestarted)
    · intro hun
      rw [hreports]
      exact h.increasing hun.of_append

theorem steered {m₀ : TrajectoryModel} (hidle : m₀.active = false) {cs : List Control}
    (hlen : cs.length < 2 ^ 31) : Steered M rideNo m₀ cs := by
  induction cs using List.reverseRecOn with
  | nil => exact ⟨counts_of_inactive hidle _, nofun, .inl nofun, fun _ => List.Pairwise.nil⟩
  | append_singleton cs c ih =>
    rw [List.length_append, List.length_singleton] at hlen
    exact (ih (by omega)).concat hlen c

section Recording

variable {store : RideSessionStore} {s₀ : RideSession} {m₀ : TrajectoryModel}

/-- The session after the reports of the model. -/
theorem find_reports (hfind : store.find rideNo = some s₀) (cs : List Control) :
    (store.updateAll (m₀.reports M rideNo cs)).find rideNo =
      some (s₀.reportAll (m₀.reports M rideNo cs)) := by
  have hown : RideSessionStore.own rideNo (m₀.reports M rideNo cs) = m₀.reports M rideNo cs :=
    List.filter_eq_self.mpr fun r hr => decide_eq_true (rideNo_reports m₀ cs r hr)
  rw [RideSessionStore.find_updateAll, hfind, Option.map_some, hown]

/-- The recorded seconds increase, since each is the number of its report. -/
theorem elapsed_pairwise {taken : List RidePoint} {s : RideSession}
    (h : RideSession.Tracked s₀ s taken) (helapsed : ∀ p ∈ taken, p.elapsedSec = p.seq) :
    s.points.Pairwise fun p q => p.elapsedSec ≤ q.elapsedSec := by
  refine (RideSession.points_pairwise h).imp_of_mem ?_
  intro p q hp hq hlt
  rw [h.points] at hp hq
  rw [helapsed p ((rtake_sublist _ taken).subset hp), helapsed q ((rtake_sublist _ taken).subset hq)]
  exact Int32.le_of_lt hlt

/-- The report that follows a restart is refused, and so it is missing. -/
theorem restart_refused (hseq : s₀.lastSeq = 0) (hpoints : s₀.points = [])
    {before : List RidePositionReport} {first r : RidePositionReport}
    (hfirst : before.head? = some first) (hle : r.seq.toInt ≤ first.seq.toInt)
    (hrecorded : (s₀.reportAll before).points =
      (before.map (·.point)).rtake RideSessionStore.kMaxPoints) :
    (s₀.reportAll (before ++ [r])).points ≠
      ((before ++ [r]).map (·.point)).rtake RideSessionStore.kMaxPoints := by
  have htracked := RideSession.tracked_reportAll hseq hpoints before
  have hrefused : RideSession.fresh (before ++ [r]) = RideSession.fresh before := by
    rw [RideSession.fresh, List.map_append, List.map_singleton, records_concat, addRecord, if_neg]
    · rfl
    · intro hall
      have hhead : (RideSession.fresh before).head? = some first.point := by
        rw [RideSession.fresh, head?_records, List.head?_map, hfirst]
        rfl
      exact absurd (hall first.point (List.mem_of_head? hhead)) (not_lt.mpr hle)
  rw [(RideSession.tracked_reportAll hseq hpoints (before ++ [r])).points, hrefused,
    ← htracked.points, hrecorded, List.map_append, List.map_singleton]
  have hwindow : ((before.map (·.point)).rtake RideSessionStore.kMaxPoints).Pairwise
      fun p q => p.seq.toInt < q.seq.toInt := by
    rw [← hrecorded, htracked.points]
    exact htracked.increasing.sublist (rtake_sublist _ _)
  exact (rtake_concat_ne (by decide) hwindow _).symm

/-- **When a resumed ride keeps recording.** Every tick is in the session's
points at once, up to the cap, and the recorded seconds never decrease, exactly
when the calls start the model for ticks once at most. -/
theorem recording_iff (hidle : m₀.active = false) (hfind : store.find rideNo = some s₀)
    (hseq : s₀.lastSeq = 0) (hpoints : s₀.points = []) {cs : List Control}
    (hlen : cs.length < 2 ^ 31) :
    (∀ cs', cs' <+: cs → ∃ s,
      (store.updateAll (m₀.reports M rideNo cs')).find rideNo = some s ∧
      s.points = ((m₀.reports M rideNo cs').map (·.point)).rtake RideSessionStore.kMaxPoints ∧
      s.points.Pairwise fun p q => p.elapsedSec ≤ q.elapsedSec) ↔
      Control.Uninterrupted cs := by
  rw [← unbroken_iff (M := M) hidle]
  constructor
  · intro hall before lat lng seed rest hcs
    by_contra hboth
    rw [not_or] at hboth
    obtain ⟨pre, post, r, hrest, hreports, hr⟩ := first_report (M := M) (fun _ => ⟨rfl, rfl⟩) hboth.2
    obtain ⟨pre₀, post₀, r₀, hbefore, hreports₀, hr₀⟩ :=
      first_report (m := m₀) (fun hactive => absurd hactive (by rw [hidle]; decide)) hboth.1
    have hhead : (m₀.reports M rideNo before).head? = some r₀ := by
      rw [hbefore, show pre₀ ++ Control.tick :: post₀ = (pre₀ ++ [.tick]) ++ post₀ by simp,
        reports_append, hreports₀]
      rfl
    -- the run up to the restart, and the run up to the first tick after it
    obtain ⟨s, hs, hrecorded, -⟩ := hall before ⟨_, hcs.symm⟩
    obtain ⟨s', hs', hrecorded', -⟩ := hall (before ++ .start lat lng seed :: (pre ++ [.tick]))
      ⟨post, by rw [hcs, hrest]; simp⟩
    have hlonger : m₀.reports M rideNo (before ++ .start lat lng seed :: (pre ++ [.tick])) =
        m₀.reports M rideNo before ++ [r] := by
      rw [reports_append, reports]
      exact congrArg (_ ++ ·) hreports
    rw [find_reports hfind, Option.some.injEq] at hs hs'
    subst hs hs'
    rw [hlonger] at hrecorded'
    refine restart_refused hseq hpoints hhead ?_ hrecorded hrecorded'
    rw [hr, hr₀]
  · rintro hun cs' ⟨rest, rfl⟩
    rw [List.length_append] at hlen
    have hsteered : Steered M rideNo m₀ cs' := steered hidle (by omega)
    have hincreasing := hsteered.increasing hun.of_append
    have htracked := RideSession.tracked_reportAll hseq hpoints (m₀.reports M rideNo cs')
    have hfresh : RideSession.fresh (m₀.reports M rideNo cs') =
        (m₀.reports M rideNo cs').map (·.point) :=
      records_eq_self (List.pairwise_map.mpr hincreasing)
    rw [hfresh] at htracked
    refine ⟨_, find_reports hfind cs', htracked.points, elapsed_pairwise htracked ?_⟩
    intro p hp
    obtain ⟨r, hr, rfl⟩ := List.mem_map.mp hp
    exact hsteered.elapsed r hr

end Recording

/-- A client that does not move. -/
def still : Motion where
  first _ := (.fin 0, .fin 0)
  turn _ bearingDeg := (.fin 0, bearingDeg)
  advance lat lng _ _ := (lat, lng)
  haversineM _ _ _ _ := .fin 0
  add a _ := a

/-- A ride that is not resumed: both ticks are recorded. -/
theorem recording_small :
    ∃ s, ((RideSessionStore.empty.create .small).updateAll
        (new.reports still "R19700101000101"
          [.start (.fin 0) (.fin 0) 7, .tick, .tick, .stop])).find "R19700101000101" = some s ∧
      s.points = [⟨1, .fin 0, .fin 0, 1⟩, ⟨2, .fin 0, .fin 0, 2⟩] := by
  have hun : Control.Uninterrupted [.start (.fin 0) (.fin 0) 7, .tick, .tick, .stop] := by decide
  have hfind : (RideSessionStore.empty.create .small).find "R19700101000101" =
      some RideSession.small := by decide
  obtain ⟨s, hs, hpoints, -⟩ :=
    (recording_iff (M := still) (show new.active = false from rfl) hfind rfl rfl (by decide)).mpr
      hun _ (List.prefix_refl _)
  exact ⟨s, hs, hpoints.trans (by decide)⟩

/-- A ride that is resumed after a failed end: the model reports two ticks, and
the session has one point. -/
theorem resumed_unrecorded :
    (new.reports still "R19700101000101" [.start (.fin 0) (.fin 0) 7, .tick, .stop,
        .start (.fin 0) (.fin 0) 8, .tick]).map (·.point) =
        [⟨1, .fin 0, .fin 0, 1⟩, ⟨1, .fin 0, .fin 0, 1⟩] ∧
      (((RideSessionStore.empty.create .small).updateAll
        (new.reports still "R19700101000101" [.start (.fin 0) (.fin 0) 7, .tick, .stop,
          .start (.fin 0) (.fin 0) 8, .tick])).find "R19700101000101").map (·.points) =
        some [⟨1, .fin 0, .fin 0, 1⟩] := by
  decide

end TrajectoryModel

end SharedBike.Client
