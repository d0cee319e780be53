import Mathlib.Data.List.DropRight
import Mathlib.Order.Lattice

/-!
# The records of a list

An entry of a list is a record when its key is larger than the key of every
record before it. The records are a strictly increasing part of the list that
begins with its first entry, so it is enough to compare a new entry with the
last record (`forall_mem_lt_iff`).

A buffer that holds the newest `n` of them and drops its oldest entry when it
gets too long is `List.rtake n` of all there have been (`rtake_concat`).
-/

namespace SharedBike.Lib

variable {α κ : Type} [LinearOrder κ] (key : α → κ)

/-- One more entry, which counts when its key is larger than those of all records so far. -/
def addRecord (acc : List α) (a : α) : List α :=
  if ∀ b ∈ acc, key b < key a then acc ++ [a] else acc

/-- The entries whose key is larger than those of all records before them. -/
def records (l : List α) : List α := l.foldl (addRecord key) []

variable {key}

theorem records_concat (l : List α) (a : α) :
    records key (l ++ [a]) = addRecord key (records key l) a := by
  rw [records, List.foldl_append]
  rfl

theorem addRecord_pairwise {acc : List α} (h : acc.Pairwise fun a b => key a < key b) (a : α) :
    (addRecord key acc a).Pairwise fun a b => key a < key b := by
  unfold addRecord
  split
  case isTrue hlt =>
    refine List.pairwise_append.mpr ⟨h, List.pairwise_singleton _ _, ?_⟩
    intro b hb c hc
    rw [List.mem_singleton.mp hc]
    exact hlt b hb
  case isFalse => exact h

/-- Of an increasing list only the last entry has to be compared. -/
theorem forall_mem_lt_iff {acc : List α} {p a : α}
    (h : (acc ++ [p]).Pairwise fun a b => key a < key b) :
    (∀ b ∈ acc ++ [p], key b < key a) ↔ key p < key a := by
  constructor
  · intro hall
    exact hall p (List.mem_append_right acc List.mem_cons_self)
  · intro hlt b hb
    rcases List.mem_append.mp hb with hb | hb
    · exact lt_trans ((List.pairwise_append.mp h).2.2 b hb p List.mem_cons_self) hlt
    · rw [List.mem_singleton.mp hb]
      exact hlt

/-- The first entry is a record. -/
theorem head?_records (l : List α) : (records key l).head? = l.head? := by
  induction l using List.reverseRecOn with
  | nil => rfl
  | append_singleton l a ih =>
    rw [records_concat, addRecord]
    cases l with
    | nil => rfl
    | cons b l =>
      rw [List.head?_cons] at ih
      obtain ⟨rest, hrest⟩ := List.head?_eq_some_iff.mp ih
      rw [hrest]
      split <;> rfl

/-- An increasing list consists of records. -/
theorem records_eq_self {l : List α} (h : l.Pairwise fun a b => key a < key b) :
    records key l = l := by
  induction l using List.reverseRecOn with
  | nil => rfl
  | append_singleton l a ih =>
    obtain ⟨hl, -, hlt⟩ := List.pairwise_append.mp h
    rw [records_concat, ih hl, addRecord, if_pos fun b hb => hlt b hb a List.mem_cons_self]

/-! ## The newest of them -/

/-- A buffer of the newest entries takes one more and drops its oldest when it is full. -/
theorem rtake_concat {n : Nat} (hn : 0 < n) (l : List α) (a : α) :
    (l ++ [a]).rtake n =
      if (l.rtake n ++ [a]).length > n then (l.rtake n ++ [a]).tail else l.rtake n ++ [a] := by
  obtain ⟨m, rfl⟩ := Nat.exists_eq_succ_of_ne_zero (Nat.pos_iff_ne_zero.mp hn)
  rw [List.rtake_concat_succ]
  have hlength : (l.rtake (m + 1) ++ [a]).length = min l.length (m + 1) + 1 := by
    simp only [List.rtake, List.length_append, List.length_drop, List.length_cons, List.length_nil]
    omega
  rw [hlength]
  split
  case isTrue hfull =>
    have hne : l.rtake (m + 1) ≠ [] := by
      intro hnil
      rw [hnil] at hlength
      simp only [List.nil_append, List.length_cons, List.length_nil] at hlength
      omega
    rw [List.tail_append_of_ne_nil hne, List.rtake, List.rtake, List.tail_drop]
    congr 2
    omega
  case isFalse hroom =>
    rw [List.rtake, List.rtake]
    congr 2
    omega

theorem rtake_ne_nil {n : Nat} (hn : 0 < n) (l : List α) (a : α) : (l ++ [a]).rtake n ≠ [] := by
  obtain ⟨m, rfl⟩ := Nat.exists_eq_succ_of_ne_zero (Nat.pos_iff_ne_zero.mp hn)
  rw [List.rtake_concat_succ]
  exact List.append_ne_nil_of_right_ne_nil _ (List.cons_ne_nil a [])

/-- A buffer whose entries increase is changed by one more entry. -/
theorem rtake_concat_ne {n : Nat} (hn : 2 ≤ n) {l : List α}
    (h : (l.rtake n).Pairwise fun a b => key a < key b) (a : α) :
    (l ++ [a]).rtake n ≠ l.rtake n := by
  rw [rtake_concat (by omega)]
  intro heq
  split at heq
  case isFalse => simp at heq
  case isTrue hfull =>
    -- the window is full, and would have to be its own shift
    cases hwindow : l.rtake n with
    | nil => simp [hwindow] at hfull; omega
    | cons b rest =>
      rw [hwindow] at h heq hfull
      cases rest with
      | nil => simp at hfull; omega
      | cons c rest =>
        rw [List.cons_append, List.tail_cons, List.cons_append, List.cons.injEq] at heq
        have hlt := (List.pairwise_cons.mp h).1 c List.mem_cons_self
        rw [heq.1] at hlt
        exact lt_irrefl _ hlt

theorem rtake_sublist (n : Nat) (l : List α) : (l.rtake n).Sublist l :=
  List.drop_sublist _ l

end SharedBike.Lib
