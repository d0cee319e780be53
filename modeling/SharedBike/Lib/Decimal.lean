import Mathlib.Data.Nat.Digits.Defs
import Mathlib.Data.List.Basic
import Mathlib.Data.String.Basic
import Mathlib.Order.Nat

/-!
# Decimal texts

Integers and fixed-point numbers as `printf` writes them, how long the texts
are, and what is read of one that was cut: a number that loses digits at its
end is smaller (`value_take_lt`).
-/

namespace SharedBike.Lib.Decimal

/-! ## Integers -/

/-- What `%d` writes. -/
def text (n : Int) : List Char :=
  if n < 0 then '-' :: Nat.toDigits 10 n.natAbs else Nat.toDigits 10 n.natAbs

variable {n : Int} {k : Nat}

theorem text_of_nonneg (h : 0 ≤ n) : text n = Nat.toDigits 10 n.natAbs :=
  if_neg (Int.not_lt.mpr h)

theorem text_of_neg (h : n < 0) : text n = '-' :: Nat.toDigits 10 n.natAbs :=
  if_pos h

theorem length_text_pos (n : Int) : 0 < (text n).length := by
  unfold text
  split
  · exact Nat.succ_pos _
  · exact Nat.length_toDigits_pos

theorem length_text_le_iff (h : 0 ≤ n) (hk : 0 < k) :
    (text n).length ≤ k ↔ n < 10 ^ k := by
  rw [text_of_nonneg h, Nat.length_toDigits_le_iff (by decide) hk]
  constructor
  · intro hlt
    have hcast : (n.natAbs : Int) < ((10 ^ k : Nat) : Int) := Int.ofNat_lt.mpr hlt
    rwa [Int.natAbs_of_nonneg h, Int.natCast_pow] at hcast
  · intro hlt
    refine Int.ofNat_lt.mp ?_
    rwa [Int.natAbs_of_nonneg h, Int.natCast_pow]

/-- A sign takes one character more. -/
theorem length_text_neg_le_iff (h : n < 0) (hk : 0 < k) :
    (text n).length ≤ k + 1 ↔ -10 ^ k < n := by
  have hpos : 0 ≤ -n := by omega
  have hsame : text n = '-' :: text (-n) := by
    rw [text_of_neg h, text_of_nonneg hpos, Int.natAbs_neg]
  rw [hsame, List.length_cons, Nat.add_le_add_iff_right, length_text_le_iff hpos hk]
  constructor <;> intro hlt <;> omega

theorem length_text_le (hlo : -10 ^ k < n) (hhi : n < 10 ^ (k + 1)) (hk : 0 < k) :
    (text n).length ≤ k + 1 := by
  by_cases h : n < 0
  · exact (length_text_neg_le_iff h hk).mpr hlo
  · exact (length_text_le_iff (Int.not_lt.mp h) (Nat.succ_pos k)).mpr hhi

theorem isDigit_of_mem_text (h : 0 ≤ n) {c : Char} (hc : c ∈ text n) :
    c.isDigit = true := by
  rw [text_of_nonneg h] at hc
  exact Nat.isDigit_of_mem_toDigits (by decide) (by decide) hc

/-! ## Reading -/

/-- The number of a text of digits. -/
def value (l : List Char) : Nat := Nat.ofDigitChars 10 l 0

theorem value_text (h : 0 ≤ n) : value (text n) = n.toNat := by
  rw [value, text_of_nonneg h, Nat.ofDigitChars_ten_toDigits]
  omega

theorem value_append (l m : List Char) : value (l ++ m) = value l * 10 ^ m.length + value m := by
  rw [value, Nat.ofDigitChars_append, Nat.ofDigitChars_eq_ofDigitChars_zero, value, value]
  ring

/-- A number is its first `k` digits, shifted by the others, and the others. -/
theorem value_take_drop (k : Nat) (l : List Char) :
    value l = value (l.take k) * 10 ^ (l.drop k).length + value (l.drop k) := by
  rw [← value_append, List.take_append_drop]

theorem value_take_le (k : Nat) (l : List Char) : value (l.take k) ≤ value l := by
  rw [value_take_drop k l]
  exact Nat.le_add_right_of_le (Nat.le_mul_of_pos_right _ (Nat.pow_pos (by decide)))

/-- A number that loses digits at its end is smaller. -/
theorem value_take_lt {l : List Char} (hpos : 0 < value l) (hk : k < l.length) :
    value (l.take k) < value l := by
  rcases Nat.eq_zero_or_pos (value (l.take k)) with hzero | hkept
  · omega
  · have hdrop : (l.drop k).length ≠ 0 := by
      rw [List.length_drop]
      omega
    have hten : 10 ≤ 10 ^ (l.drop k).length := Nat.le_self_pow hdrop 10
    calc value (l.take k) < value (l.take k) * 10 := by omega
      _ ≤ value (l.take k) * 10 ^ (l.drop k).length := Nat.mul_le_mul_left _ hten
      _ ≤ value l := by
        rw [value_take_drop k l]
        exact Nat.le_add_right _ _

/-! ## Fixed-point numbers -/

/-- What `%.pf` writes of a number that is `n` units of its last place. -/
def fixed (p n : Nat) : List Char :=
  Nat.toDigits 10 (n / 10 ^ p) ++ '.' :: List.leftpad p '0' (Nat.toDigits 10 (n % 10 ^ p))

theorem length_fixed {p : Nat} (hp : 0 < p) (n : Nat) :
    (fixed p n).length = (Nat.toDigits 10 (n / 10 ^ p)).length + 1 + p := by
  have hrest : (Nat.toDigits 10 (n % 10 ^ p)).length ≤ p :=
    (Nat.length_toDigits_le_iff (by decide) hp).mpr (Nat.mod_lt _ (Nat.pow_pos (by decide)))
  rw [fixed, List.length_append, List.length_cons, List.leftpad, List.length_append,
    List.length_replicate]
  omega

/-! ## Bytes -/

/-- In a text of one-byte characters, bytes and characters are as many. -/
theorem utf8Len_eq_length {l : List Char} (h : ∀ c ∈ l, c.utf8Size = 1) :
    String.utf8Len l = l.length := by
  induction l with
  | nil => rfl
  | cons c l ih =>
    obtain ⟨hc, hl⟩ := List.forall_mem_cons.mp h
    rw [String.utf8Len_cons, ih hl, hc, List.length_cons]

theorem utf8Size_of_isDigit {c : Char} (h : c.isDigit = true) : c.utf8Size = 1 := by
  rw [Char.utf8Size_eq_one_iff]
  exact UInt32.le_trans (Char.isDigit_iff_toNat.mp h).2 (by decide)

theorem utf8Size_toDigits {n : Nat} {c : Char} (hc : c ∈ Nat.toDigits 10 n) : c.utf8Size = 1 :=
  utf8Size_of_isDigit (Nat.isDigit_of_mem_toDigits (by decide) (by decide) hc)

theorem utf8Size_text : ∀ c ∈ text n, c.utf8Size = 1 := by
  intro c hc
  unfold text at hc
  split at hc
  · rcases List.mem_cons.mp hc with rfl | hc
    · decide
    · exact utf8Size_toDigits hc
  · exact utf8Size_toDigits hc

theorem utf8Size_fixed {p n : Nat} : ∀ c ∈ fixed p n, c.utf8Size = 1 := by
  intro c hc
  simp only [fixed, List.leftpad, List.mem_append, List.mem_cons, List.mem_replicate] at hc
  rcases hc with hc | rfl | ⟨-, rfl⟩ | hc
  · exact utf8Size_toDigits hc
  · decide
  · decide
  · exact utf8Size_toDigits hc

end SharedBike.Lib.Decimal
