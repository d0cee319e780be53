import Mathlib.Data.List.Nodup
import Mathlib.Data.Set.Basic

/-!
# Lists with a key

A table is a list of entries with distinct keys. What the entries look like
through a view is a set (`seen`), and a table that is changed at some keys is
seen as that set, changed at the same keys (`seen_update`): which entries an
update names may be said by the key, although the update finds them by
something the view does not show.
-/

namespace SharedBike.Lib.Keyed

variable {α β κ ι : Type} [DecidableEq κ] [DecidableEq ι] {key : α → κ} {l : List α} {label : α → ι}

/-- The entry of a key is the one that a search for the key finds. -/
theorem find?_eq_some_iff (h : (l.map key).Nodup) {k : κ} {a : α} :
    l.find? (fun x => key x = k) = some a ↔ a ∈ l ∧ key a = k := by
  constructor
  · intro hfind
    exact ⟨List.mem_of_find?_eq_some hfind, by simpa using List.find?_some hfind⟩
  · rintro ⟨ha, hk⟩
    cases hfind : l.find? fun x => key x = k with
    | none => exact absurd (decide_eq_true hk) (List.find?_eq_none.mp hfind a ha)
    | some b =>
      have hb : key b = k := by simpa using List.find?_some hfind
      rw [List.inj_on_of_nodup_map h (List.mem_of_find?_eq_some hfind) ha (hb.trans hk.symm)]

omit [DecidableEq κ] in
/-- What a list looks like. -/
def seen (view : α → β) (l : List α) : Set β := {b | ∃ a ∈ l, view a = b}

/-- The keys of the entries that have a label. -/
def named (key : α → κ) (label : α → ι) (i : ι) (l : List α) : List κ :=
  (l.filter (label · = i)).map key

omit [DecidableEq κ] in
theorem mem_named {i : ι} {k : κ} :
    k ∈ named key label i l ↔ ∃ a ∈ l, label a = i ∧ key a = k := by
  simp only [named, List.mem_map, List.mem_filter, decide_eq_true_eq, and_assoc]

omit [DecidableEq κ] in
/-- An entry has the label when its key is among those that have it. -/
theorem label_iff_mem_named (h : (l.map key).Nodup) {i : ι} {a : α} (ha : a ∈ l) :
    label a = i ↔ key a ∈ named key label i l := by
  rw [mem_named]
  constructor
  · intro hlabel
    exact ⟨a, ha, hlabel, rfl⟩
  · rintro ⟨b, hb, hlabel, hkey⟩
    rwa [← List.inj_on_of_nodup_map h hb ha hkey]

/-- The view of a list whose entries with a label are changed. -/
theorem seen_update (h : (l.map key).Nodup) {view : α → β} {viewKey : β → κ} {i : ι} {f : α → α}
    {g : β → β} (hkey : ∀ a, viewKey (view a) = key a) (hf : ∀ a, view (f a) = g (view a)) :
    seen view (l.map fun a => if label a = i then f a else a) =
      (fun b => if viewKey b ∈ named key label i l then g b else b) '' seen view l := by
  ext b
  simp only [seen, List.mem_map, exists_exists_and_eq_and, Set.mem_ofPred_eq, Set.mem_image]
  refine exists_congr fun a => and_congr_right fun ha => ?_
  rw [hkey]
  by_cases hlabel : label a = i
  · rw [if_pos hlabel, if_pos ((label_iff_mem_named h ha).mp hlabel), hf]
  · rw [if_neg hlabel, if_neg fun hmem => hlabel ((label_iff_mem_named h ha).mpr hmem)]

end SharedBike.Lib.Keyed
