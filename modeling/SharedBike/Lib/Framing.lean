import Mathlib.Data.List.Basic

/-!
# Cutting a stream into frames

A three-valued decoder looks at the bytes from the start of a buffer and
says that it needs more, that what is there is no frame, or gives a frame
and how many bytes it took. A `Decoder` also carries the three laws that
make such an answer a fact about the stream and not about the buffer: a
frame takes at least one byte and no more than there are, and neither a
frame nor a refusal changes when more bytes follow.

`Decoder.cut` takes frames off a buffer until one of the other two answers
comes. With the laws, cutting can be interrupted anywhere: `cut_append`
says that cutting a buffer and then what it left over together with the
bytes that follow is cutting the whole.
-/

namespace SharedBike.Lib

/-- The answer of a decoder. -/
inductive Decoded (β : Type) where
  | needMore
  | bad
  | ok (b : β) (consumed : Nat)

/-- A decoder whose answers do not depend on what follows them. -/
structure Decoder (α β : Type) where
  decode : List α → Decoded β
  ok_bounds : ∀ {l b n}, decode l = .ok b n → 0 < n ∧ n ≤ l.length
  ok_append : ∀ {l b n}, decode l = .ok b n → ∀ r, decode (l ++ r) = .ok b n
  bad_append : ∀ {l}, decode l = .bad → ∀ r, decode (l ++ r) = .bad

/-- What cutting gives: the frames, whether it met what is no frame, and the
bytes from there on. -/
structure Cut (α β : Type) where
  frames : List β
  bad : Bool
  leftover : List α
  deriving DecidableEq

namespace Decoder

variable {α β : Type} (D : Decoder α β)

/-- The loop, with enough fuel for one frame a byte. -/
def cutLoop : Nat → List α → Cut α β
  | 0, l => ⟨[], false, l⟩
  | _ + 1, [] => ⟨[], false, []⟩
  | fuel + 1, a :: l =>
    match D.decode (a :: l) with
    | .needMore => ⟨[], false, a :: l⟩
    | .bad => ⟨[], true, a :: l⟩
    | .ok b n =>
      let rest := cutLoop fuel ((a :: l).drop n)
      { rest with frames := b :: rest.frames }

/-- Cut off every whole frame. -/
def cut (l : List α) : Cut α β := D.cutLoop l.length l

@[simp] theorem cut_nil : D.cut [] = ⟨[], false, []⟩ := rfl

/-- More fuel than bytes changes nothing. -/
theorem cutLoop_of_le {fuel : Nat} {l : List α} (h : l.length ≤ fuel) :
    D.cutLoop fuel l = D.cut l := by
  induction fuel using Nat.strongRecOn generalizing l with
  | ind fuel ih =>
    cases l with
    | nil => cases fuel <;> rfl
    | cons a l =>
      obtain ⟨fuel, rfl⟩ : ∃ k, fuel = k + 1 := ⟨fuel - 1, by simp at h; omega⟩
      rw [cut, List.length_cons, cutLoop, cutLoop]
      cases hd : D.decode (a :: l) with
      | needMore => rfl
      | bad => rfl
      | ok b n =>
        obtain ⟨hpos, hle⟩ := D.ok_bounds hd
        simp only [List.length_cons] at h hle
        have hdrop : ((a :: l).drop n).length ≤ l.length := by
          simp only [List.length_drop, List.length_cons]
          omega
        simp only [ih fuel (Nat.lt_succ_self _) (Nat.le_trans hdrop (by omega)),
          ih l.length (by omega) hdrop]

/-- One turn of the loop. -/
theorem cut_cons (a : α) (l : List α) :
    D.cut (a :: l) =
      match D.decode (a :: l) with
      | .needMore => ⟨[], false, a :: l⟩
      | .bad => ⟨[], true, a :: l⟩
      | .ok b n =>
        { D.cut ((a :: l).drop n) with frames := b :: (D.cut ((a :: l).drop n)).frames } := by
  rw [cut, List.length_cons, cutLoop]
  cases hd : D.decode (a :: l) with
  | needMore => rfl
  | bad => rfl
  | ok b n =>
    have hpos := (D.ok_bounds hd).1
    have hdrop : ((a :: l).drop n).length ≤ l.length := by
      simp only [List.length_drop, List.length_cons]
      omega
    simp only [D.cutLoop_of_le hdrop]

/-- **Cutting can be interrupted.** After a cut that met nothing bad, cutting
the leftover with what follows gives the rest of the frames. -/
theorem cut_append (l r : List α) :
    D.cut (l ++ r) =
      if (D.cut l).bad then { D.cut l with leftover := (D.cut l).leftover ++ r }
      else { D.cut ((D.cut l).leftover ++ r) with
        frames := (D.cut l).frames ++ (D.cut ((D.cut l).leftover ++ r)).frames } := by
  -- by the length of the first part: each frame that is cut off makes it shorter
  induction hlen : l.length using Nat.strongRecOn generalizing l with
  | ind len ih =>
    cases l with
    | nil => simp
    | cons a l =>
      cases hd : D.decode (a :: l) with
      | needMore => simp [D.cut_cons a l, hd]
      | bad =>
        have hbad := D.bad_append hd r
        rw [List.cons_append] at hbad ⊢
        simp [D.cut_cons a l, D.cut_cons a (l ++ r), hd, hbad]
      | ok b n =>
        obtain ⟨hpos, hle⟩ := D.ok_bounds hd
        have hok := D.ok_append hd r
        have hdrop : (a :: (l ++ r)).drop n = (a :: l).drop n ++ r := by
          rw [← List.cons_append, List.drop_append_of_le_length hle]
        have hshort : ((a :: l).drop n).length < len := by
          rw [List.length_drop]
          omega
        have hrest := ih _ hshort ((a :: l).drop n) rfl
        rw [List.cons_append] at hok ⊢
        rw [D.cut_cons a l, D.cut_cons a (l ++ r), hd, hok]
        simp only [hdrop, hrest]
        split <;> simp

/-- What is left over by a cut that met nothing bad is still no frame. -/
theorem decode_leftover {l : List α} (h : (D.cut l).bad = false) :
    (D.cut l).leftover = [] ∨ D.decode (D.cut l).leftover = .needMore := by
  induction hlen : l.length using Nat.strongRecOn generalizing l with
  | ind len ih =>
    cases l with
    | nil => exact .inl rfl
    | cons a l =>
      rw [D.cut_cons] at h ⊢
      cases hd : D.decode (a :: l) with
      | needMore => exact .inr hd
      | bad => simp [hd] at h
      | ok b n =>
        obtain ⟨hpos, hle⟩ := D.ok_bounds hd
        have hshort : ((a :: l).drop n).length < len := by
          rw [List.length_drop]
          omega
        simp only [hd] at h ⊢
        exact ih _ hshort h rfl

end Decoder

end SharedBike.Lib
