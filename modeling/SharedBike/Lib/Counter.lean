import Mathlib.Data.UInt
import Mathlib.Data.Nat.ModEq
import Mathlib.Order.Interval.Finset.Nat

/-!
# Free-running 32-bit counters over a power-of-two table

A producer and a consumer that share a table of `2 ^ k` cells each keep a
32-bit counter that is only ever advanced and wraps past `2 ^ 32`. What
such a counter means is a natural number: how often it was advanced.
`counterAt start n` is the counter that began at `start` and was advanced
`n` times, and the lemmas say that wrapping is invisible:

- the difference of two counters is the difference of their counts, as
  long as that fits 32 bits (`counterAt_sub_toNat`);
- masking a counter gives the cell `(start + n) % 2 ^ k`, because `2 ^ k`
  divides `2 ^ 32` (`counterAt_mask`);
- counts less than `2 ^ k` apart meet different cells (`cell_inj`), and a
  run of counts that stays left of the table's end meets neighbouring
  cells (`cell_add`).
-/

namespace SharedBike.Lib

/-- The counter that began at `start` and was advanced `n` times. -/
def counterAt (start : UInt32) (n : Nat) : UInt32 := start + UInt32.ofNat n

/-- The cell of a table of `2 ^ k` that count `n` meets. -/
def cell (start : UInt32) (k n : Nat) : Nat := (start.toNat + n) % 2 ^ k

@[simp] theorem counterAt_zero (start : UInt32) : counterAt start 0 = start := by
  simp [counterAt]

theorem counterAt_toNat (start : UInt32) (n : Nat) :
    (counterAt start n).toNat = (start.toNat + n) % 2 ^ 32 := by
  simp [counterAt]

/-- Advancing a counter advances its count. -/
theorem counterAt_add (start : UInt32) (n m : Nat) :
    counterAt start n + UInt32.ofNat m = counterAt start (n + m) := by
  apply UInt32.toNat_inj.mp
  rw [UInt32.toNat_add, counterAt_toNat, counterAt_toNat, UInt32.toNat_ofNat']
  omega

theorem counterAt_succ (start : UInt32) (n : Nat) :
    counterAt start n + 1 = counterAt start (n + 1) :=
  counterAt_add start n 1

/-- Counters subtract as their counts do, also across the 32-bit wrap. -/
theorem counterAt_sub_toNat (start : UInt32) {n m : Nat} (h : m ≤ n) (hlt : n - m < 2 ^ 32) :
    (counterAt start n - counterAt start m).toNat = n - m := by
  have := start.toNat_lt
  rw [UInt32.toNat_sub, counterAt_toNat, counterAt_toNat]
  omega

/-- The table size `1 << k` as the 32-bit constant it is. -/
def tableSize (k : Nat) : UInt32 := 1 <<< UInt32.ofNat k

theorem tableSize_toNat {k : Nat} (hk : k ≤ 16) : (tableSize k).toNat = 2 ^ k := by
  have hlt : 2 ^ k < 2 ^ 32 := Nat.pow_lt_pow_right (by omega) (by omega)
  have hshift : (UInt32.ofNat k).toNat % 32 = k := by
    rw [UInt32.toNat_ofNat']; omega
  rw [tableSize, UInt32.toNat_shiftLeft, hshift, Nat.shiftLeft_eq]
  simpa using Nat.mod_eq_of_lt hlt

/-- Masking with `2 ^ k - 1` is the remainder by `2 ^ k`. -/
theorem mask_toNat {k : Nat} (hk : k ≤ 16) (x : UInt32) :
    (x &&& (tableSize k - 1)).toNat = x.toNat % 2 ^ k := by
  have hone : 1 ≤ tableSize k := by
    rw [UInt32.le_iff_toNat_le, tableSize_toNat hk]
    exact Nat.one_le_two_pow
  have hmask : (tableSize k - 1).toNat = 2 ^ k - 1 := by
    rw [UInt32.toNat_sub_of_le _ _ hone, tableSize_toNat hk]
    rfl
  rw [UInt32.toNat_and, hmask, Nat.and_two_pow_sub_one_eq_mod]

/-- A masked counter is the cell of its count. -/
theorem counterAt_mask {k : Nat} (hk : k ≤ 16) (start : UInt32) (n : Nat) :
    (counterAt start n &&& (tableSize k - 1)).toNat = cell start k n := by
  rw [mask_toNat hk, counterAt_toNat, cell]
  exact Nat.mod_mod_of_dvd _ (Nat.pow_dvd_pow 2 (by omega))

theorem cell_lt (start : UInt32) (k n : Nat) : cell start k n < 2 ^ k :=
  Nat.mod_lt _ (Nat.two_pow_pos k)

/-- Two counts of one window of `2 ^ k` meet the same cell only when equal. -/
theorem cell_inj {start : UInt32} {k n m : Nat} (base : Nat) (hn : base ≤ n)
    (hn' : n < base + 2 ^ k) (hm : base ≤ m) (hm' : m < base + 2 ^ k)
    (h : cell start k n = cell start k m) : n = m := by
  have hmem : ∀ {i : Nat}, base ≤ i → i < base + 2 ^ k →
      start.toNat + i ∈ (Finset.Ico (start.toNat + base) (start.toNat + base + 2 ^ k) : Set Nat) := by
    intro i hlo hhi
    simp only [Finset.coe_Ico, Set.mem_Ico]
    omega
  have key := Nat.mod_injOn_Ico (start.toNat + base) (2 ^ k) (hmem hn hn') (hmem hm hm') h
  omega

/-- Up to the end of the table, the next counts meet the next cells. -/
theorem cell_add {start : UInt32} {k n j : Nat} (h : cell start k n + j < 2 ^ k) :
    cell start k (n + j) = cell start k n + j := by
  unfold cell at h ⊢
  have hj : j % 2 ^ k = j := Nat.mod_eq_of_lt (by omega)
  rw [← Nat.add_assoc, Nat.add_mod_of_add_mod_lt (by rw [hj]; exact h), hj]

end SharedBike.Lib
