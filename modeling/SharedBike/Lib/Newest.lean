import Mathlib.Data.List.Sort

/-!
# The newest entries of a list

A log keeps its entries in the order of their arrival, and is read by a key,
the largest first and among equal keys the last arrival first (`latest`). The
first `n` entries of that reading are the first `n` arrivals, in their order,
exactly when each of them has a larger key than everything that arrived after
it (`take_latest_eq_iff`).
-/

namespace SharedBike.Lib

variable {α β κ : Type} [LinearOrder κ] (key : α → κ)

/-- The entries by their keys, the largest first. -/
def latest (l : List α) : List α := l.reverse.insertionSort fun a b => key b ≤ key a

/-- Each of the first `n` entries has a larger key than all that come after it. -/
def Descends : Nat → List α → Prop
  | 0, _ => True
  | _, [] => True
  | n + 1, a :: l => (∀ b ∈ l, key b < key a) ∧ Descends n l

variable {key} {l : List α}

theorem descends_map {f : β → α} {n : Nat} {l : List β} :
    Descends key n (l.map f) ↔ Descends (fun b => key (f b)) n l := by
  induction l generalizing n with
  | nil => cases n <;> rfl
  | cons b l ih =>
    cases n with
    | zero => rfl
    | succ n =>
      simp only [List.map_cons, Descends, List.forall_mem_map, ih]

theorem insertionSort_concat_of_lt {a : α} (h : ∀ b ∈ l, key b < key a) :
    (l ++ [a]).insertionSort (fun a b => key b ≤ key a) =
      a :: l.insertionSort fun a b => key b ≤ key a := by
  induction l with
  | nil => rfl
  | cons b l ih =>
    have hb : ¬ key a ≤ key b := not_le.mpr (h b List.mem_cons_self)
    rw [List.cons_append, List.insertionSort_cons, ih fun x hx => h x (List.mem_cons_of_mem b hx),
      List.orderedInsert, if_neg hb, List.insertionSort_cons]

/-- An entry with the largest key comes first. -/
theorem latest_cons_of_lt {a : α} (h : ∀ b ∈ l, key b < key a) :
    latest key (a :: l) = a :: latest key l := by
  rw [latest, List.reverse_cons]
  exact insertionSort_concat_of_lt fun b hb => h b (List.mem_reverse.mp hb)

/-- The first arrival comes first only when it has the largest key. -/
theorem lt_of_head?_latest {a : α} (hnodup : (a :: l).Nodup)
    (h : (latest key (a :: l)).head? = some a) : ∀ b ∈ l, key b < key a := by
  intro b hb
  by_contra hle
  obtain ⟨rest, hrest⟩ := List.head?_eq_some_iff.mp h
  -- the sort is stable, so that `b` stays before `a`
  have hpair : [b, a].Sublist (latest key (a :: l)) := by
    refine List.pair_sublist_insertionSort (not_lt.mp hle) ?_
    rw [List.reverse_cons]
    exact (List.singleton_sublist.mpr (List.mem_reverse.mpr hb)).append (List.Sublist.refl [a])
  have hsorted : (latest key (a :: l)).Nodup :=
    (List.perm_insertionSort _ _).nodup_iff.mpr (List.nodup_reverse.mpr hnodup)
  rw [hrest] at hpair hsorted
  have hba : b ≠ a := fun heq => (List.nodup_cons.mp hnodup).1 (heq ▸ hb)
  have htail : [b, a].Sublist rest := by
    rcases List.sublist_cons_iff.mp hpair with htail | ⟨r, hr, -⟩
    · exact htail
    · rw [List.cons.injEq] at hr
      exact absurd hr.1 hba
  exact (List.nodup_cons.mp hsorted).1 (htail.subset (by simp))

theorem take_latest_eq_iff {n : Nat} (hnodup : l.Nodup) :
    (latest key l).take n = l.take n ↔ Descends key n l := by
  induction l generalizing n with
  | nil =>
    cases n <;> exact iff_of_true rfl trivial
  | cons a l ih =>
    cases n with
    | zero => exact iff_of_true rfl trivial
    | succ n =>
      have hrest := (List.nodup_cons.mp hnodup).2
      rw [Descends]
      constructor
      · intro htake
        have hhead : (latest key (a :: l)).head? = some a := by
          have hheads := congrArg List.head? htake
          rwa [List.head?_take, if_neg (Nat.succ_ne_zero n), List.take_succ_cons,
            List.head?_cons] at hheads
        have hlt := lt_of_head?_latest hnodup hhead
        rw [latest_cons_of_lt hlt, List.take_succ_cons, List.take_succ_cons,
          List.cons.injEq] at htake
        exact ⟨hlt, (ih hrest).mp htake.2⟩
      · rintro ⟨hlt, hdescends⟩
        rw [latest_cons_of_lt hlt, List.take_succ_cons, List.take_succ_cons,
          (ih hrest).mpr hdescends]

/-- The first `n` arrivals are the first `m` of the reading. -/
theorem take_eq_take_latest_iff {n m : Nat} (hnodup : l.Nodup) :
    l.take n = (latest key l).take m ↔ min n l.length = min m l.length ∧ Descends key n l := by
  have hlen : (latest key l).length = l.length := by
    rw [latest, List.length_insertionSort, List.length_reverse]
  have hsame : min n l.length = min m l.length →
      (latest key l).take m = (latest key l).take n := by
    intro hmin
    rw [List.take_eq_take_min, hlen, ← hmin, ← hlen, ← List.take_eq_take_min]
  rw [← take_latest_eq_iff hnodup]
  constructor
  · intro htake
    have hmin := congrArg List.length htake
    rw [List.length_take, List.length_take, hlen] at hmin
    exact ⟨hmin, (hsame hmin).symm.trans htake.symm⟩
  · rintro ⟨hmin, htake⟩
    rw [hsame hmin, htake]

end SharedBike.Lib
