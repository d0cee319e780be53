import Mathlib.Data.List.Sort

/-!
# The orders a sort may choose

A sort that is not stable gives some list with the entries of its input in an
order that its relation allows, and equal entries in any order. `Arranges` is
that much. A fact holds whatever the sort does when it holds of every
arrangement, and this module says of three facts when that is: an entry comes
first (`forall_head?_iff`), an entry comes last (`forall_getLast?_iff`), and a
second key increases along the list (`forall_increasing_iff`).
-/

namespace SharedBike.Lib

variable {α : Type}

/-- `m` has the entries of `l`, in an order that `r` allows. -/
structure Arranges (r : α → α → Prop) (l m : List α) : Prop where
  perm : m.Perm l
  sorted : m.Pairwise r

namespace Arranges

variable {r : α → α → Prop} {l m : List α}

theorem reverse (h : Arranges r l m) : Arranges (fun a b => r b a) l m.reverse :=
  ⟨(List.reverse_perm m).trans h.perm, List.pairwise_reverse.mpr h.sorted⟩

/-- Nothing comes before the first entry. -/
theorem head_le [Std.Total r] {a b : α} {rest : List α} (h : Arranges r l (b :: rest))
    (ha : a ∈ l) : r b a := by
  rcases List.mem_cons.mp (h.perm.mem_iff.mpr ha) with rfl | ha
  · exact (Std.Total.total (r := r) a a).elim id id
  · exact (List.pairwise_cons.mp h.sorted).1 a ha

variable [Std.Total r] [IsTrans α r]

theorem insertionSort [DecidableRel r] (l : List α) : Arranges r l (l.insertionSort r) :=
  ⟨List.perm_insertionSort r l, List.pairwise_insertionSort r l⟩

open Classical in
/-- An entry that may come before all others may come first. -/
theorem of_le {p : α} (hp : p ∈ l) (hle : ∀ q ∈ l, r p q) :
    Arranges r l (p :: (l.erase p).insertionSort r) := by
  constructor
  · exact ((List.perm_insertionSort r _).cons p).trans (List.perm_cons_erase hp).symm
  · refine List.pairwise_cons.mpr ⟨?_, List.pairwise_insertionSort r _⟩
    intro q hq
    exact hle q (List.mem_of_mem_erase ((List.mem_insertionSort r).mp hq))

end Arranges

section Ends

variable {r : α → α → Prop} {l : List α}

/-- An entry comes first in every arrangement when it is the only one that may. -/
theorem forall_head?_iff [Std.Total r] [IsTrans α r] {a : α} (ha : a ∈ l) :
    (∀ m, Arranges r l m → m.head? = some a) ↔ ∀ p ∈ l, r p a → p = a := by
  constructor
  · intro hall p hp hpa
    -- `a` comes first, so nothing comes before `p` either
    have hfirst : ∀ q ∈ l, r a q := by
      classical
      intro q hq
      have hsort := Arranges.insertionSort (r := r) l
      obtain ⟨rest, hrest⟩ := List.head?_eq_some_iff.mp (hall _ hsort)
      rw [hrest] at hsort
      exact hsort.head_le hq
    have hother := hall _ (Arranges.of_le hp fun q hq => IsTrans.trans _ _ _ hpa (hfirst q hq))
    rw [List.head?_cons, Option.some.injEq] at hother
    exact hother
  · intro hall m hm
    cases m with
    | nil => exact absurd (hm.perm.mem_iff.mpr ha) List.not_mem_nil
    | cons b rest =>
      rw [List.head?_cons, hall b (hm.perm.mem_iff.mp List.mem_cons_self) (hm.head_le ha)]

/-- An entry comes last in every arrangement when it is the only one that may. -/
theorem forall_getLast?_iff [Std.Total r] [IsTrans α r] {a : α} (ha : a ∈ l) :
    (∀ m, Arranges r l m → m.getLast? = some a) ↔ ∀ p ∈ l, r a p → p = a := by
  have htotal : Std.Total fun a b => r b a := ⟨fun a b => Std.Total.total (r := r) b a⟩
  have htrans : IsTrans α fun a b => r b a := ⟨fun _ _ _ hab hbc => IsTrans.trans _ _ _ hbc hab⟩
  rw [← forall_head?_iff (r := fun a b => r b a) ha]
  constructor
  · intro hall m hm
    rw [← List.getLast?_reverse]
    exact hall _ hm.reverse
  · intro hall m hm
    rw [← List.head?_reverse]
    exact hall _ hm.reverse

end Ends

/-- A second key increases along every arrangement by the first when its values
are distinct and the first follows them. -/
theorem forall_increasing_iff {κ ι : Type} [LinearOrder κ] [LinearOrder ι] {k : α → κ}
    {j : α → ι} {l : List α} :
    (∀ m, Arranges (fun a b => k a ≤ k b) l m → m.Pairwise fun a b => j a < j b) ↔
      (l.map j).Nodup ∧ ∀ a ∈ l, ∀ b ∈ l, j a < j b → k a < k b := by
  have htotal : Std.Total fun a b : α => k a ≤ k b := ⟨fun a b => le_total (k a) (k b)⟩
  have htrans : IsTrans α fun a b => k a ≤ k b := ⟨fun _ _ _ => le_trans⟩
  constructor
  · intro hall
    have hnodup : (l.map j).Nodup := by
      have hsort := Arranges.insertionSort (r := fun a b => k a ≤ k b) l
      have hne := (List.pairwise_map.mpr (hall _ hsort)).imp (S := (· ≠ ·)) fun h => h.ne
      exact (hsort.perm.map j).nodup_iff.mp hne
    refine ⟨hnodup, ?_⟩
    intro a ha b hb hlt
    by_contra hle
    rw [not_lt] at hle
    -- the stable sort of a list that begins with `b` keeps `b` before `a`
    classical
    have hperm : (b :: l.erase b).Perm l := (List.perm_cons_erase hb).symm
    have hpair : [b, a].Sublist (b :: l.erase b) := by
      refine List.Sublist.cons_cons b (List.singleton_sublist.mpr ?_)
      refine (List.mem_erase_of_ne ?_).mpr ha
      rintro rfl
      exact lt_irrefl _ hlt
    have hsort := Arranges.insertionSort (r := fun a b => k a ≤ k b) (b :: l.erase b)
    have hincreasing := hall _ ⟨hsort.perm.trans hperm, hsort.sorted⟩
    have hback := hincreasing.sublist
      (List.pair_sublist_insertionSort (r := fun a b => k a ≤ k b) hle hpair)
    exact lt_asymm hlt ((List.pairwise_cons.mp hback).1 a List.mem_cons_self)
  · rintro ⟨hnodup, hfollows⟩ m hm
    have hne : m.Pairwise fun a b => j a ≠ j b :=
      List.pairwise_map.mp ((hm.perm.map j).nodup_iff.mpr hnodup)
    refine (hm.sorted.and hne).imp_of_mem ?_
    intro a b ha hb hab
    refine lt_of_le_of_ne (not_lt.mp ?_) hab.2
    intro hlt
    exact not_lt.mpr hab.1
      (hfollows b (hm.perm.mem_iff.mp hb) a (hm.perm.mem_iff.mp ha) hlt)

end SharedBike.Lib
