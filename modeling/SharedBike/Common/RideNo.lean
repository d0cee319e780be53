import Mathlib.Data.List.Basic
import Mathlib.Order.Monotone.Basic
import SharedBike.Common.Values

/-!
# Ride numbers

`common/src/ride_no.cpp`, and the date that `scan_unlock.cpp` takes from
`gmtime`: the calendar is counted day by day from the first of January 1970.

A ride number is the letter R, the date in eight digits and a number in six,
cut to the fifteen characters that fit the buffer. Up to the year 9999
nothing is cut and the number gives back both parts (`makeRideNo_inj`).
-/

namespace SharedBike.Common

/-! ## The calendar -/

structure Date where
  year : Nat
  month : Nat
  day : Nat
  deriving DecidableEq

namespace Date

def isLeap (year : Nat) : Bool := year % 4 = 0 && (year % 100 != 0 || year % 400 = 0)

def daysIn (year month : Nat) : Nat :=
  if month = 2 then (if isLeap year then 29 else 28)
  else if month = 4 ∨ month = 6 ∨ month = 9 ∨ month = 11 then 30
  else 31

def nextDay (d : Date) : Date :=
  if d.day < daysIn d.year d.month then { d with day := d.day + 1 }
  else if d.month < 12 then ⟨d.year, d.month + 1, 1⟩
  else ⟨d.year + 1, 1, 1⟩

/-- The date `n` days after the first of January 1970. -/
def ofDays : Nat → Date
  | 0 => ⟨1970, 1, 1⟩
  | n + 1 => (ofDays n).nextDay

/-- The decimal number `yyyymmdd`. -/
def yyyymmdd (d : Date) : Nat := d.year * 10000 + d.month * 100 + d.day

/-- A month and a day that exist. -/
def Valid (d : Date) : Prop := 1970 ≤ d.year ∧ d.month ≤ 12 ∧ d.day ≤ 31

theorem daysIn_le (year month : Nat) : daysIn year month ≤ 31 := by
  unfold daysIn
  split <;> split <;> omega

theorem Valid.nextDay {d : Date} (h : d.Valid) : d.nextDay.Valid := by
  obtain ⟨hy, hm, hd⟩ := h
  have := daysIn_le d.year d.month
  unfold Date.nextDay
  split
  · refine ⟨hy, hm, ?_⟩
    simp only
    omega
  · split
    · exact ⟨hy, by simp only; omega, by simp only; omega⟩
    · exact ⟨by simp only; omega, by simp only; omega, by simp only; omega⟩

theorem ofDays_valid (n : Nat) : (ofDays n).Valid := by
  induction n with
  | zero => exact ⟨by decide, by decide, by decide⟩
  | succ n ih => exact ih.nextDay

theorem yyyymmdd_lt_nextDay {d : Date} (h : d.Valid) : d.yyyymmdd < d.nextDay.yyyymmdd := by
  obtain ⟨-, hm, hd⟩ := h
  unfold nextDay yyyymmdd
  split
  · simp only
    omega
  · split <;> simp only <;> omega

/-- Later days have larger numbers. -/
theorem yyyymmdd_ofDays_strictMono : StrictMono fun n => (ofDays n).yyyymmdd :=
  strictMono_nat_of_lt_succ fun n => yyyymmdd_lt_nextDay (ofDays_valid n)

end Date

/-- `today_yyyymmdd` at a second of the clock. -/
def todayYyyymmdd (now : Nat) : Int32 := Int32.ofNat (Date.ofDays (now / 86400)).yyyymmdd

/-! ## The number -/

/-- What `%0wd` writes. -/
def padded (width : Nat) (x : Int32) : List Char :=
  if x < 0 then '-' :: List.leftpad (width - 1) '0' (Nat.toDigits 10 x.toInt.natAbs)
  else List.leftpad width '0' (Nat.toDigits 10 x.toInt.natAbs)

/-- The error is the exception's text. The buffer holds fifteen characters
and the terminator. -/
def makeRideNo (date dailySeq : Int32) : Except String String :=
  if dailySeq < 1 ∨ dailySeq > 999999 then .error "daily_seq out of [1, 999999]"
  else .ok (String.ofList (('R' :: (padded 8 date ++ padded 6 dailySeq)).take 15))

theorem makeRideNo_length {date dailySeq : Int32} {no : String}
    (h : makeRideNo date dailySeq = .ok no) : no.length ≤ 15 := by
  unfold makeRideNo at h
  split at h
  · cases h
  · cases h
    rw [String.length_ofList, List.length_take]
    exact Nat.min_le_left 15 _

/-- Padding keeps the value. -/
theorem padded_inj {w : Nat} {x y : Int32} (hx : 0 ≤ x.toInt) (hy : 0 ≤ y.toInt)
    (h : padded w x = padded w y) : x = y := by
  have hpad : ∀ {z : Int32}, 0 ≤ z.toInt →
      Nat.ofDigitChars 10 (padded w z) 0 = z.toInt.natAbs := by
    intro z hz
    have hpos : ¬ z < 0 := by
      rw [Int32.lt_iff_toInt_lt]
      exact not_lt.mpr hz
    unfold padded
    rw [if_neg hpos, List.leftpad, Nat.ofDigitChars_append, Nat.ofDigitChars_replicate_zero,
      Nat.mul_zero, Nat.ofDigitChars_ten_toDigits]
  have habs := congrArg (Nat.ofDigitChars 10 · 0) h
  simp only [hpad hx, hpad hy] at habs
  exact Int32.toInt_inj.mp (by omega)

theorem padded_length {w : Nat} (hw : 0 < w) {x : Int32} (hx : 0 ≤ x.toInt)
    (hlt : x.toInt < 10 ^ w) : (padded w x).length = w := by
  have hpos : ¬ x < 0 := by
    rw [Int32.lt_iff_toInt_lt]
    exact not_lt.mpr hx
  have hlen : (Nat.toDigits 10 x.toInt.natAbs).length ≤ w := by
    rw [Nat.length_toDigits_le_iff (by decide) hw]
    have hcast : (x.toInt.natAbs : Int) < ((10 ^ w : Nat) : Int) := by
      rw [Int.natAbs_of_nonneg hx]
      exact_mod_cast hlt
    exact_mod_cast hcast
  unfold padded
  rw [if_neg hpos, List.leftpad, List.length_append, List.length_replicate]
  omega

/-- Two ride numbers with eight-digit dates are equal only when both their
parts are. -/
theorem makeRideNo_inj {date date' dailySeq dailySeq' : Int32} {no : String}
    (hd : 0 ≤ date.toInt ∧ date.toInt < 10 ^ 8) (hd' : 0 ≤ date'.toInt ∧ date'.toInt < 10 ^ 8)
    (h : makeRideNo date dailySeq = .ok no) (h' : makeRideNo date' dailySeq' = .ok no) :
    date = date' ∧ dailySeq = dailySeq' := by
  have hparts : ∀ {d s : Int32}, 0 ≤ d.toInt ∧ d.toInt < 10 ^ 8 → makeRideNo d s = .ok no →
      0 ≤ s.toInt ∧ no = String.ofList ('R' :: (padded 8 d ++ padded 6 s)) ∧
        (padded 8 d).length = 8 := by
    intro d s hd h
    unfold makeRideNo at h
    split at h
    · cases h
    next hs =>
      have hlo : 1 ≤ s.toInt := by
        have : ¬ s < 1 := fun hlt => hs (.inl hlt)
        rw [Int32.lt_iff_toInt_lt] at this
        exact not_lt.mp this
      have hhi : s.toInt ≤ 999999 := by
        have : ¬ s > 999999 := fun hlt => hs (.inr hlt)
        rw [gt_iff_lt, Int32.lt_iff_toInt_lt] at this
        exact not_lt.mp this
      have h8 := padded_length (w := 8) (by decide) hd.1 hd.2
      have h6 := padded_length (w := 6) (x := s) (by decide) (by omega) (by omega)
      refine ⟨by omega, ?_, h8⟩
      cases h
      rw [List.take_of_length_le]
      simp only [List.length_cons, List.length_append, h8, h6]
      decide
  obtain ⟨hs, rfl, hlen⟩ := hparts hd h
  obtain ⟨hs', heq, hlen'⟩ := hparts hd' h'
  have hchars := String.ofList_injective heq
  obtain ⟨hdate, hseq⟩ := List.append_inj (List.cons.inj hchars).2 (hlen.trans hlen'.symm)
  exact ⟨padded_inj hd.1 hd'.1 hdate, padded_inj hs hs' hseq⟩

end SharedBike.Common
