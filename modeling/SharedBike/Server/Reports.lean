import SharedBike.Lib.Records
import SharedBike.Server.World

/-!
# The position reports of a ride

`RideSessionStore::update_pos` takes a report when its number is larger than
`last_seq`, and takes the first one whatever its number is: `last_seq != 0 ||
!points.empty()` tells the first report from the later ones. The points of a
session are then the newest `kMaxPoints` records of its reports in the sense of
`Lib.Records`, for every number a report may carry: a negative `last_seq`, or
one of 0, comes with a point, and the eviction of the oldest point never
empties the list.
-/

namespace SharedBike.Server

open SharedBike.Common SharedBike.Lib Function

/-- The point that a report becomes. -/
def RidePositionReport.point (r : RidePositionReport) : RidePoint :=
  ⟨r.seq, r.lat, r.lng, r.elapsedSec⟩

namespace RideSession

/-- The reports to one session, one after the other. -/
def reportAll (s : RideSession) (reports : List RidePositionReport) : RideSession :=
  reports.foldl (fun s r => RideSessionStore.report s r.lat r.lng r.seq r.elapsedSec) s

/-- The points of the reports whose number is larger than that of every report
taken before. -/
def fresh (reports : List RidePositionReport) : List RidePoint :=
  records (fun p : RidePoint => p.seq.toInt) (reports.map (·.point))

/-- A session that began as `s₀` and has taken the points `taken`. -/
structure Tracked (s₀ s : RideSession) (taken : List RidePoint) : Prop where
  points : s.points = taken.rtake RideSessionStore.kMaxPoints
  last : ∀ p, taken.getLast? = some p → s.lastSeq = p.seq ∧ s.lastLat = p.lat ∧ s.lastLng = p.lng
  untouched : taken = [] → s = s₀
  increasing : taken.Pairwise fun p q => p.seq.toInt < q.seq.toInt

namespace Tracked

variable {s₀ s : RideSession} {taken : List RidePoint}

/-- The test of `update_pos` refuses exactly the reports that are no records. -/
theorem refuses_iff (h : Tracked s₀ s taken) (hseq : s₀.lastSeq = 0) (hpoints : s₀.points = [])
    (seq : Int32) :
    ((s.lastSeq ≠ 0 ∨ s.points ≠ []) ∧ seq ≤ s.lastSeq) ↔
      ¬ ∀ p ∈ taken, p.seq.toInt < seq.toInt := by
  rcases List.eq_nil_or_concat taken with hnil | ⟨before, p, hlast⟩
  · rw [h.untouched hnil, hseq, hpoints, hnil]
    simp
  · rw [List.concat_eq_append] at hlast
    have hpos : s.points ≠ [] := by
      rw [h.points, hlast]
      exact rtake_ne_nil (by decide) before p
    have hlt : (∀ q ∈ taken, q.seq.toInt < seq.toInt) ↔ p.seq.toInt < seq.toInt := by
      rw [hlast]
      exact forall_mem_lt_iff (a := (⟨seq, p.lat, p.lng, 0⟩ : RidePoint)) (hlast ▸ h.increasing)
    rw [hlt, (h.last p (by rw [hlast, List.getLast?_concat])).1, Int32.le_iff_toInt_le, not_lt]
    exact ⟨fun hrefused => hrefused.2, fun hle => ⟨.inr hpos, hle⟩⟩

theorem report (h : Tracked s₀ s taken) (hseq : s₀.lastSeq = 0) (hpoints : s₀.points = [])
    (r : RidePositionReport) :
    Tracked s₀ (RideSessionStore.report s r.lat r.lng r.seq r.elapsedSec)
      (addRecord (fun p : RidePoint => p.seq.toInt) taken r.point) := by
  have htest := h.refuses_iff hseq hpoints r.point.seq
  unfold RideSessionStore.report
  split
  case isTrue hrefused =>
    rw [addRecord, if_neg (htest.mp hrefused)]
    exact h
  case isFalse htaken =>
    have hfresh : ∀ p ∈ taken, p.seq.toInt < r.point.seq.toInt := by
      by_contra hold
      exact htaken (htest.mpr hold)
    have hincreasing := addRecord_pairwise h.increasing r.point
    rw [addRecord, if_pos hfresh] at hincreasing ⊢
    refine ⟨?_, ?_, ?_, hincreasing⟩
    · rw [rtake_concat (by decide), ← h.points]
      rfl
    · intro p hp
      rw [List.getLast?_concat, Option.some.injEq] at hp
      subst hp
      exact ⟨rfl, rfl, rfl⟩
    · intro hnil
      exact absurd hnil (List.append_ne_nil_of_right_ne_nil _ (List.cons_ne_nil _ []))

end Tracked

/-- The run of the reports of one session. -/
theorem tracked_reportAll {s₀ : RideSession} (hseq : s₀.lastSeq = 0) (hpoints : s₀.points = [])
    (reports : List RidePositionReport) :
    Tracked s₀ (s₀.reportAll reports) (fresh reports) := by
  induction reports using List.reverseRecOn with
  | nil =>
    refine ⟨?_, ?_, fun _ => rfl, List.Pairwise.nil⟩
    · exact hpoints.trans (List.rtake_nil _).symm
    · intro p hp
      cases hp
  | append_singleton reports r ih =>
    rw [reportAll, List.foldl_append, fresh, List.map_append, List.map_singleton, records_concat]
    exact ih.report hseq hpoints r

theorem points_pairwise {s₀ s : RideSession} {taken : List RidePoint} (h : Tracked s₀ s taken) :
    s.points.Pairwise fun p q => p.seq < q.seq := by
  rw [h.points]
  refine (h.increasing.sublist (rtake_sublist _ taken)).imp ?_
  intro p q hlt
  exact Int32.lt_iff_toInt_lt.mpr hlt

end RideSession

namespace RideSessionStore

/-- A sequence of calls of `update_pos`. -/
def updateAll (store : RideSessionStore) (reports : List RidePositionReport) : RideSessionStore :=
  reports.foldl (fun store r => (store.updatePos r.rideNo r.lat r.lng r.seq r.elapsedSec).2) store

/-- The reports that name a ride. -/
def own (rideNo : String) (reports : List RidePositionReport) : List RidePositionReport :=
  reports.filter (·.rideNo = rideNo)

theorem find_updatePos (store : RideSessionStore) (r : RidePositionReport) (rideNo : String) :
    (store.updatePos r.rideNo r.lat r.lng r.seq r.elapsedSec).2.find rideNo =
      if r.rideNo = rideNo then
        (store.find rideNo).map fun s => report s r.lat r.lng r.seq r.elapsedSec
      else store.find rideNo := by
  unfold updatePos
  cases hfind : store.find r.rideNo with
  | none =>
    by_cases hno : r.rideNo = rideNo
    · rw [if_pos hno, ← hno, hfind]
      rfl
    · rw [if_neg hno]
  | some s =>
    have hkey : (report s r.lat r.lng r.seq r.elapsedSec).rideNo = r.rideNo :=
      (report_frame s r.lat r.lng r.seq r.elapsedSec).1.trans (store.keyed _ s hfind)
    show update store.find _ _ rideNo = _
    rw [hkey]
    by_cases hno : r.rideNo = rideNo
    · rw [if_pos hno, ← hno, update_self, hfind]
      rfl
    · rw [if_neg hno, update_of_ne (Ne.symm hno)]

/-- A session hears the reports that name it, and no others. -/
theorem find_updateAll (store : RideSessionStore) (reports : List RidePositionReport)
    (rideNo : String) :
    (store.updateAll reports).find rideNo =
      (store.find rideNo).map fun s => s.reportAll (own rideNo reports) := by
  induction reports generalizing store with
  | nil => exact Option.map_id'.symm
  | cons r reports ih =>
    show ((store.updatePos r.rideNo r.lat r.lng r.seq r.elapsedSec).2.updateAll reports).find
      rideNo = _
    rw [ih, find_updatePos]
    by_cases hno : r.rideNo = rideNo
    · have hown : own rideNo (r :: reports) = r :: own rideNo reports :=
        List.filter_cons_of_pos (by simpa using hno)
      rw [if_pos hno, hown, Option.map_map]
      rfl
    · have hown : own rideNo (r :: reports) = own rideNo reports :=
        List.filter_cons_of_neg (by simpa using hno)
      rw [if_neg hno, hown]

/-- A session that starts with `last_seq` 0 and no points keeps the newest
`kMaxPoints` of the reports that were fresh when they came, and the position of
the last of them; its first report is always fresh. What other sessions see of
the calls is what names them. -/
theorem session_points_fresh (store : RideSessionStore) (rideNo : String) (s₀ : RideSession)
    (hfind : store.find rideNo = some s₀) (hseq : s₀.lastSeq = 0) (hpoints : s₀.points = [])
    (reports : List RidePositionReport) :
    (∃ s, (store.updateAll reports).find rideNo = some s ∧
      s.points = (RideSession.fresh (own rideNo reports)).rtake kMaxPoints ∧
      (RideSession.fresh (own rideNo reports)).head? =
        (own rideNo reports).head?.map (·.point) ∧
      (∀ p, (RideSession.fresh (own rideNo reports)).getLast? = some p →
        s.lastSeq = p.seq ∧ s.lastLat = p.lat ∧ s.lastLng = p.lng) ∧
      (RideSession.fresh (own rideNo reports) = [] → s = s₀) ∧
      s.points.Pairwise fun p q => p.seq < q.seq) ∧
    ∀ other, (store.updateAll reports).find other =
      (store.updateAll (own other reports)).find other := by
  have htracked := RideSession.tracked_reportAll hseq hpoints (own rideNo reports)
  refine ⟨⟨s₀.reportAll (own rideNo reports), ?_, htracked.points, ?_, htracked.last,
    htracked.untouched, RideSession.points_pairwise htracked⟩, ?_⟩
  · rw [find_updateAll, hfind]
    rfl
  · rw [RideSession.fresh, head?_records, List.head?_map]
  · intro other
    have hown : own other (own other reports) = own other reports := by
      simp only [own, List.filter_filter, Bool.and_self]
    rw [find_updateAll, find_updateAll, hown]

/-- The first report has the number 0, the second repeats it, the third is older
and the last is new: the first and the last are kept. -/
theorem session_points_fresh_small :
    ∃ s, ((empty.create .small).updateAll
        [⟨"R19700101000101", 0, .fin 1, .fin 1, 1⟩, ⟨"R19700101000101", 0, .fin 2, .fin 2, 2⟩,
          ⟨"R19700101000101", -1, .fin 3, .fin 3, 3⟩, ⟨"R19700101000101", 7, .fin 4, .fin 4, 4⟩]).find
          "R19700101000101" = some s ∧
      s.points = [⟨0, .fin 1, .fin 1, 1⟩, ⟨7, .fin 4, .fin 4, 4⟩] := by
  obtain ⟨⟨s, hs, hpoints, -⟩, -⟩ := session_points_fresh (empty.create .small) "R19700101000101"
    .small (by decide) rfl rfl
    [⟨"R19700101000101", 0, .fin 1, .fin 1, 1⟩, ⟨"R19700101000101", 0, .fin 2, .fin 2, 2⟩,
      ⟨"R19700101000101", -1, .fin 3, .fin 3, 3⟩, ⟨"R19700101000101", 7, .fin 4, .fin 4, 4⟩]
  refine ⟨s, hs, hpoints.trans ?_⟩
  decide

end RideSessionStore

end SharedBike.Server
