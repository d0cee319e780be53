import Mathlib.Data.Rat.Floor
import SharedBike.Common.Values
import SharedBike.Lib.MachineInt

/-!
# The tariff on both sides

`compute_fee` of `common/pricing.cpp` settles a ride, and `feeCent` of
`Theme.qml` shows its price while it runs. The server rounds up by adding
`step_sec - 1` before an integer division, near the end of the range of `int`
for the longest rides; the client takes the ceiling of a quotient.

`computeFeeChecked` is `compute_fee` once more with every operation stopping at
an overflow. It never stops, and both sides give one price for every duration
(`computeFee_exact`). The client's numbers are taken as exact here.
-/

namespace SharedBike.Client

open SharedBike.Common SharedBike.Lib.MachineInt

/-! ## The server's arithmetic, checked -/

/-- `compute_fee`, operation by operation; `none` is an overflow. -/
def computeFeeChecked (durationSec : Int32) : Option (Except String Int32) :=
  if durationSec < 0 then some (.error "negative duration")
  else do
    let baseSec ← mul 15 60
    let stepSec ← mul 15 60
    let fee : Int32 := 100
    if durationSec ≤ baseSec then pure (.ok fee)
    else do
      let extraSec ← sub durationSec baseSec
      let shifted ← add extraSec stepSec
      let rounded ← sub shifted 1
      let extraChunks ← div rounded stepSec
      let surcharge ← mul extraChunks 50
      let total ← add fee surcharge
      pure (.ok total)

/-- The last chunk ends at the end of the range: adding `step_sec` to the extra
time gives the duration back. -/
theorem surcharge_checked {d : Int32} (hd : 900 < d.toInt) :
    (do
      let extraSec ← sub d (15 * 60)
      let shifted ← add extraSec (15 * 60)
      let rounded ← sub shifted 1
      let extraChunks ← div rounded (15 * 60)
      let surcharge ← mul extraChunks 50
      let total ← add 100 surcharge
      pure (Except.ok total : Except String Int32)) =
    some (.ok (100 + (d - 15 * 60 + 15 * 60 - 1) / (15 * 60) * 50)) := by
  have hhi := d.toInt_lt
  have hone : (1 : Int32).toInt = 1 := by decide
  have hfifty : (50 : Int32).toInt = 50 := by decide
  have hhundred : (100 : Int32).toInt = 100 := by decide
  have hdiv : (d.toInt - 1).tdiv 900 = (d.toInt - 1) / 900 :=
    Int.tdiv_eq_ediv_of_nonneg (by omega)
  have hextra : sub d (15 * 60) = some (d - 15 * 60) :=
    checked_eq (by rw [toInt_base]; unfold Fits; omega)
  have hshifted : add (d - 15 * 60) (15 * 60) = some (d - 15 * 60 + 15 * 60) :=
    checked_eq (by rw [toInt_extraSec hd, toInt_base]; unfold Fits; omega)
  have hrounded : sub (d - 15 * 60 + 15 * 60) 1 = some (d - 15 * 60 + 15 * 60 - 1) :=
    checked_eq (by rw [toInt_extraSec_add hd, hone]; unfold Fits; omega)
  have hchunks : div (d - 15 * 60 + 15 * 60 - 1) (15 * 60) =
      some ((d - 15 * 60 + 15 * 60 - 1) / (15 * 60)) := by
    unfold div
    rw [if_neg (by decide)]
    exact checked_eq (by rw [toInt_rounded hd, toInt_base, hdiv]; unfold Fits; omega)
  have hsurcharge : mul ((d - 15 * 60 + 15 * 60 - 1) / (15 * 60)) 50 =
      some ((d - 15 * 60 + 15 * 60 - 1) / (15 * 60) * 50) :=
    checked_eq (by rw [toInt_extraChunks hd, hfifty]; unfold Fits; omega)
  have htotal : add 100 ((d - 15 * 60 + 15 * 60 - 1) / (15 * 60) * 50) =
      some (100 + (d - 15 * 60 + 15 * 60 - 1) / (15 * 60) * 50) :=
    checked_eq (by rw [toInt_surcharge hd, hhundred]; unfold Fits; omega)
  simp only [hextra, hshifted, hrounded, hchunks, hsurcharge, htotal, Option.bind_eq_bind,
    Option.bind_some, Option.pure_def]

/-- No operation of `compute_fee` overflows, whatever the duration. -/
theorem computeFeeChecked_eq (d : Int32) : computeFeeChecked d = some (computeFee d) := by
  have hbase : mul 15 60 = some (15 * 60) := checked_eq (by decide)
  unfold computeFeeChecked computeFee
  split
  · rfl
  · rw [hbase, Option.bind_eq_bind, Option.bind_some, Option.bind_some]
    by_cases hle : d ≤ 15 * 60
    · simp only [hle, if_true, Option.pure_def]
    · simp only [hle, if_false]
      rw [Int32.le_iff_toInt_le, toInt_base] at hle
      exact surcharge_checked (not_le.mp hle)

/-! ## The client's estimate -/

/-- `Theme.feeCent`, over exact numbers. -/
def feeCent (sec : ℚ) : ℤ :=
  let base : ℚ := 15 * 60
  let step : ℚ := 15 * 60
  if sec ≤ base then 100 else 100 + ⌈(sec - base) / step⌉ * 50

/-- The ceiling of a number of chunks is the server's rounded division. -/
theorem ceil_chunks (n : ℤ) : ⌈(n : ℚ) / 900⌉ = (n + 899) / 900 := by
  have hceil := Rat.ceil_intCast_div_natCast n 900
  rw [Nat.cast_ofNat, Nat.cast_ofNat] at hceil
  rw [hceil]
  omega

theorem feeCent_eq (n : ℤ) :
    feeCent n = if n ≤ 900 then 100 else 100 + (n - 1) / 900 * 50 := by
  have hbase : (15 * 60 : ℚ) = ((900 : ℤ) : ℚ) := by norm_num
  unfold feeCent
  dsimp only
  rw [hbase]
  simp only [Int.cast_le]
  split
  · rfl
  · have hceil := ceil_chunks (n - 900)
    push_cast at hceil ⊢
    rw [hceil]
    congr 2
    omega

/-! ## One price -/

/-- The tariff as its text says it: the base fee, and a fee for each chunk begun
after the base time. -/
theorem tariff_eq (n : ℤ) :
    100 + 50 * ⌈(max 0 (n - 900) : ℚ) / 900⌉ =
      if n ≤ 900 then 100 else 100 + (n - 1) / 900 * 50 := by
  have hmax : (max 0 ((n : ℚ) - 900)) = ((max 0 (n - 900) : ℤ) : ℚ) := by push_cast; rfl
  rw [hmax, ceil_chunks]
  split <;> omega

/-- The price of a ride is exact over the whole range of durations: no step of
`compute_fee` overflows, the fee is the tariff's, it grows with the duration, it
is one number on each chunk, and the client shows it. -/
theorem computeFee_exact (d : Int32) (hd : 0 ≤ d.toInt) :
    ∃ fee : Int32, computeFee d = .ok fee ∧ computeFeeChecked d = some (.ok fee) ∧
      fee.toInt = 100 + 50 * ⌈(max 0 ((d.toInt : ℚ) - 900)) / 900⌉ ∧
      (∀ d' fee' : Int32, d.toInt ≤ d'.toInt → computeFee d' = .ok fee' →
        fee.toInt ≤ fee'.toInt) ∧
      (∀ k : ℤ, 1 ≤ k → 900 * k < d.toInt → d.toInt ≤ 900 * (k + 1) →
        ∀ d' : Int32, 900 * k < d'.toInt → d'.toInt ≤ 900 * (k + 1) →
          computeFee d' = .ok fee) ∧
      feeCent d.toInt = fee.toInt := by
  obtain ⟨fee, hfee, heq⟩ := computeFee_eq hd
  refine ⟨fee, hfee, ?_, ?_, ?_, ?_, ?_⟩
  · rw [computeFeeChecked_eq, hfee]
  · rw [heq, tariff_eq]
  · intro d' fee' hle hfee'
    obtain ⟨fee'', hfee'', heq'⟩ := computeFee_eq (d := d') (by omega)
    rw [hfee'] at hfee''
    cases hfee''
    rw [heq, heq']
    split <;> split <;> omega
  · intro k hk hlo hhi d' hlo' hhi'
    obtain ⟨fee', hfee', heq'⟩ := computeFee_eq (d := d') (by omega)
    rw [hfee']
    congr 1
    apply Int32.toInt_inj.mp
    rw [heq, heq', if_neg (by omega), if_neg (by omega)]
    have hchunk : (d.toInt - 1) / 900 = k := by omega
    have hchunk' : (d'.toInt - 1) / 900 = k := by omega
    rw [hchunk, hchunk']
  · rw [feeCent_eq, heq]

/-- The longest ride of all. -/
theorem computeFee_longest :
    ∃ fee : Int32, computeFee 2147483647 = .ok fee ∧
      feeCent (2147483647 : Int32).toInt = fee.toInt := by
  obtain ⟨fee, hfee, -, -, -, -, hclient⟩ := computeFee_exact 2147483647 (by decide)
  exact ⟨fee, hfee, hclient⟩

end SharedBike.Client
