import Mathlib.Algebra.Ring.Int.Defs

/-!
# Sums and products that must fit into a word

Words of 32 bits wrap around, and so do signed words of 64 bits.  `UInt32.add?`, `UInt32.mul?` and
`Int64.add?` have no result where they would, so a computation that is written with them and has a
result never wraps around.

* `UInt32.add?_of_lt`, `UInt32.mul?_of_lt` : where they fit, sums and products are the usual ones.
* `UInt32.toNat_add_of_lt`, `UInt32.toNat_mul_of_lt` : and those are the sums and products of
  numbers.
* `Int64.toInt_add_emod_two` : a signed sum has the parity of the sum of numbers even where it wraps
  around.
-/

namespace UInt32

/-- The sum, if it is a word. -/
def add? (a b : UInt32) : Option UInt32 := if a.toNat + b.toNat < size then some (a + b) else none

/-- The product, if it is a word. -/
def mul? (a b : UInt32) : Option UInt32 := if a.toNat * b.toNat < size then some (a * b) else none

variable {a b : UInt32}

theorem add?_of_lt (h : a.toNat + b.toNat < size) : a.add? b = some (a + b) := if_pos h

theorem mul?_of_lt (h : a.toNat * b.toNat < size) : a.mul? b = some (a * b) := if_pos h

theorem mul?_of_le (h : size ≤ a.toNat * b.toNat) : a.mul? b = none := if_neg (Nat.not_lt.2 h)

theorem toNat_add_of_lt (h : a.toNat + b.toNat < size) : (a + b).toNat = a.toNat + b.toNat := by
  rw [UInt32.toNat_add]
  exact Nat.mod_eq_of_lt h

theorem toNat_mul_of_lt (h : a.toNat * b.toNat < size) : (a * b).toNat = a.toNat * b.toNat := by
  rw [UInt32.toNat_mul]
  exact Nat.mod_eq_of_lt h

/-- What is below a word is one itself. -/
theorem toNat_ofNat_of_lt_toNat {n : Nat} (h : n < b.toNat) : (UInt32.ofNat n).toNat = n :=
  toNat_ofNat_of_lt' (Nat.lt_trans h b.toNat_lt)

/-- Below another word, the next word exists. -/
theorem add_one_lt_size (h : a < b) : a.toNat + 1 < size := by
  rw [lt_iff_toNat_lt] at h
  exact Nat.lt_of_le_of_lt h b.toNat_lt

theorem toNat_add_one (h : a < b) : (a + 1).toNat = a.toNat + 1 :=
  toNat_add_of_lt (b := 1) (add_one_lt_size h)

theorem add?_one (h : a < b) : a.add? 1 = some (a + 1) := add?_of_lt (add_one_lt_size h)

end UInt32

namespace Int64

/-- The sum, if it is a signed word. -/
def add? (a b : Int64) : Option Int64 :=
  if minValue.toInt ≤ a.toInt + b.toInt ∧ a.toInt + b.toInt ≤ maxValue.toInt then some (a + b)
  else none

variable {a b : Int64}

theorem isSome_add?_iff :
    (a.add? b).isSome = true ↔ -2 ^ 63 ≤ a.toInt + b.toInt ∧ a.toInt + b.toInt < 2 ^ 63 := by
  have hmin : minValue.toInt = -2 ^ 63 := rfl
  have hmax : maxValue.toInt = 2 ^ 63 - 1 := rfl
  unfold add?
  split <;> simp <;> omega

theorem toInt_add_emod_two (a b : Int64) : (a + b).toInt % 2 = (a.toInt + b.toInt) % 2 := by
  rw [Int64.toInt_add, Int.bmod_eq_emod]
  split <;> omega

end Int64
