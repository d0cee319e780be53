import Mathlib.Algebra.Order.Ring.Int

/-!
# Machine integers

Operations of a 32-bit `int` that stop at an overflow, and the narrowing of a
64-bit integer. A program over `int` runs without an overflow when the same
program over the stopping operations gives the same result.
-/

namespace SharedBike.Lib.MachineInt

/-- The values of a 32-bit `int`. -/
def Fits (x : Int) : Prop := -2 ^ 31 ≤ x ∧ x < 2 ^ 31

instance (x : Int) : Decidable (Fits x) := inferInstanceAs (Decidable (_ ∧ _))

theorem fits_toInt (a : Int32) : Fits a.toInt := ⟨a.le_toInt, a.toInt_lt⟩

/-! ## Operations that stop at an overflow -/

/-- The operation `g`, when the exact result `f` fits. -/
def checked (f : Int → Int → Int) (g : Int32 → Int32 → Int32) (a b : Int32) : Option Int32 :=
  if Fits (f a.toInt b.toInt) then some (g a b) else none

def add : Int32 → Int32 → Option Int32 := checked (· + ·) (· + ·)

def sub : Int32 → Int32 → Option Int32 := checked (· - ·) (· - ·)

def mul : Int32 → Int32 → Option Int32 := checked (· * ·) (· * ·)

/-- A division by 0 stops too. -/
def div (a b : Int32) : Option Int32 :=
  if b = 0 then none else checked Int.tdiv (· / ·) a b

theorem checked_eq {f : Int → Int → Int} {g : Int32 → Int32 → Int32} {a b : Int32}
    (h : Fits (f a.toInt b.toInt)) : checked f g a b = some (g a b) :=
  if_pos h

/-! ## Narrowing -/

/-- A 64-bit integer survives the conversion to `int` exactly when it fits. -/
theorem toInt_toInt32_eq_iff (v : Int64) : v.toInt32.toInt = v.toInt ↔ Fits v.toInt := by
  constructor
  · intro h
    rw [← h]
    exact fits_toInt v.toInt32
  · intro h
    rw [Int64.toInt_toInt32]
    exact Int.bmod_eq_of_le (by have := h.1; omega) (by have := h.2; omega)

end SharedBike.Lib.MachineInt
