import Mathlib.Algebra.GroupWithZero.Nat
import Mathlib.Algebra.Order.Group.Nat
import Mathlib.Algebra.Order.BigOperators.Group.List

/-!
# The protobuf wire format, and its sizes

A message is the bytes of its fields, one after the other. A field is a tag,
which is its number and its wire type, and a value: a varint, eight bytes, or
a length and so many bytes. A scalar field of a proto3 message that has its
default value is not written; an element of a repeated field always is.

The fields here have numbers below 16, so a tag is one byte. Each field has
its size as an equation (`length_…`) where the size depends on the value, and
its largest size as a bound (`length_…_le`).
-/

namespace SharedBike.Lib.Protobuf

/-! ## Varints -/

/-- Seven bits a byte, lowest first; every byte but the last has its high bit set. -/
def varint (n : Nat) : List UInt8 :=
  if n < 128 then [UInt8.ofNat n] else UInt8.ofNat (n % 128 + 128) :: varint (n / 128)
termination_by n
decreasing_by omega

theorem varint_of_lt {n : Nat} (h : n < 128) : varint n = [UInt8.ofNat n] := by
  rw [varint, if_pos h]

theorem varint_of_le {n : Nat} (h : 128 ≤ n) :
    varint n = UInt8.ofNat (n % 128 + 128) :: varint (n / 128) := by
  rw [varint, if_neg (Nat.not_lt.mpr h)]

theorem length_varint_pos (n : Nat) : 1 ≤ (varint n).length := by
  rw [varint]
  split <;> simp

/-- A number of `k + 1` groups of seven bits has at most so many bytes. -/
theorem length_varint_le {n k : Nat} (h : n < 128 ^ (k + 1)) : (varint n).length ≤ k + 1 := by
  induction k generalizing n with
  | zero =>
    rw [varint_of_lt (by simpa using h)]
    simp
  | succ k ih =>
    by_cases hn : n < 128
    · rw [varint_of_lt hn]
      simp
    · have hdiv : n / 128 < 128 ^ (k + 1) := Nat.div_lt_of_lt_mul (by rw [← pow_succ']; exact h)
      rw [varint_of_le (Nat.not_lt.mp hn), List.length_cons]
      exact Nat.succ_le_succ (ih hdiv)

/-- No varint of 64 bits has more than ten bytes. -/
theorem length_varint_mod_le (z : Int) : (varint (z % 2 ^ 64).toNat).length ≤ 10 := by
  refine length_varint_le (k := 9) ?_
  have hlt : z % 2 ^ 64 < 2 ^ 64 := Int.emod_lt_of_pos z (by decide)
  have hpow : (2 : Int) ^ 64 < 128 ^ 10 := by decide
  omega

/-! ## Fields -/

inductive WireType where
  | varint
  | fixed64
  | lengthDelimited

def WireType.code : WireType → Nat
  | .varint => 0
  | .fixed64 => 1
  | .lengthDelimited => 2

def tag (field : Nat) (wire : WireType) : List UInt8 := varint (field * 8 + wire.code)

variable {field : Nat}

theorem length_tag (h : field < 16) (wire : WireType) :
    (tag field wire).length = 1 := by
  have hcode : wire.code ≤ 2 := by cases wire <;> decide
  rw [tag, varint_of_lt (by omega)]
  rfl

/-- An `int32` or `int64` field: a negative number is written with 64 bits. -/
def int (field : Nat) (z : Int) : List UInt8 :=
  if z = 0 then [] else tag field .varint ++ varint (z % 2 ^ 64).toNat

theorem length_int_le (field : Nat) (h : field < 16) (z : Int) :
    (int field z).length ≤ 11 := by
  have hsize := length_varint_mod_le z
  unfold int
  split
  · exact Nat.zero_le _
  · rw [List.length_append, length_tag h]
    omega

/-- The eight bytes of a number, lowest first. -/
def fixed64 (bits : UInt64) : List UInt8 :=
  (List.range 8).map fun i => (bits >>> (8 * UInt64.ofNat i)).toUInt8

theorem length_fixed64 (bits : UInt64) : (fixed64 bits).length = 8 := by
  simp [fixed64]

/-- A `double` field; `zero` says whether the value is the default. -/
def double (field : Nat) (zero : Bool) (bits : UInt64) : List UInt8 :=
  if zero then [] else tag field .fixed64 ++ fixed64 bits

theorem length_double (h : field < 16) (zero : Bool) (bits : UInt64) :
    (double field zero bits).length = if zero then 0 else 9 := by
  unfold double
  split
  · rfl
  · rw [List.length_append, length_tag h, length_fixed64]

theorem length_double_le (h : field < 16) (zero : Bool) (bits : UInt64) :
    (double field zero bits).length ≤ 9 := by
  rw [length_double h]
  split <;> omega

/-- A length and so many bytes. -/
def delimited (field : Nat) (body : List UInt8) : List UInt8 :=
  tag field .lengthDelimited ++ varint body.length ++ body

theorem length_delimited (h : field < 16) (body : List UInt8) :
    (delimited field body).length = 1 + (varint body.length).length + body.length := by
  simp only [delimited, List.length_append, length_tag h]

theorem length_delimited_le (h : field < 16) {body : List UInt8} {n : Nat} (hbody : body.length ≤ n)
    {k : Nat} (hn : n < 128 ^ (k + 1)) :
    (delimited field body).length ≤ k + 2 + n := by
  have hsize := length_varint_le (Nat.lt_of_le_of_lt hbody hn)
  rw [length_delimited h]
  omega

/-- A `string` field. -/
def string (field : Nat) (s : String) : List UInt8 :=
  if s = "" then [] else delimited field s.toUTF8.data.toList

theorem length_string_le (h : field < 16) {s : String} {n : Nat} (hs : s.utf8ByteSize ≤ n) {k : Nat}
    (hn : n < 128 ^ (k + 1)) :
    (string field s).length ≤ k + 2 + n := by
  unfold string
  split
  · exact Nat.zero_le _
  · exact length_delimited_le h hs hn

/-- A repeated field of messages. -/
def messages {α : Type} (field : Nat) (body : α → List UInt8) (l : List α) : List UInt8 :=
  l.flatMap fun a => delimited field (body a)

theorem length_messages {α : Type} (field : Nat) (body : α → List UInt8) (l : List α) :
    (messages field body l).length = (l.map fun a => (delimited field (body a)).length).sum := by
  simp only [messages, List.length_flatMap]

theorem length_messages_le {α : Type} {body : α → List UInt8} {l : List α} {n : Nat}
    (h : ∀ a ∈ l, (delimited field (body a)).length ≤ n) :
    (messages field body l).length ≤ l.length * n := by
  rw [length_messages]
  refine (List.sum_le_card_nsmul _ n ?_).trans_eq (by simp)
  intro size hsize
  obtain ⟨a, ha, rfl⟩ := List.mem_map.mp hsize
  exact h a ha

end SharedBike.Lib.Protobuf
