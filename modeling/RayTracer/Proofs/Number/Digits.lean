import RayTracer.Number.Reading

/-!
# Digits of natural numbers

`Decimal.digitsOf` writes a natural number and `naturalOfDigits` reads one.

* `naturalOfDigits_digitsOf` : reading what was written gives the number back.
* `naturalOfDigits_append`, `naturalOfDigits_zeros` : zeros after the digits are factors of ten, and
  zeros before them count for nothing.
* `Decimal.lt_power_length`, `Decimal.power_length_le` : how many digits a number has.
-/

namespace RayTracer

namespace Decimal

theorem isDigit_of_mem_digitsOf {n : Nat} {c : Char} (h : c ∈ digitsOf n) : c.isDigit = true :=
  Nat.isDigit_of_mem_toDigits (by omega) (by omega) h

theorem notMem_digitsOf {c : Char} (hc : c.isDigit = false) (n : Nat) : c ∉ digitsOf n := by
  intro h
  rw [isDigit_of_mem_digitsOf h] at hc
  cases hc

theorem digitsOf_ne_nil (n : Nat) : digitsOf n ≠ [] := Nat.toDigits_ne_nil

theorem lt_power_length (n : Nat) : n < power 10 (digitsOf n).length :=
  (Nat.length_toDigits_le_iff (by decide) Nat.length_toDigits_pos).1 (Nat.le_refl _)

theorem power_length_le {n : Nat} (h : 0 < n) : power 10 ((digitsOf n).length - 1) ≤ n := by
  rcases Nat.eq_zero_or_pos ((digitsOf n).length - 1) with hone | hmore
  · rw [hone, power_zero]
    exact h
  · refine Nat.not_lt.1 fun hlt => ?_
    -- the number would fit into fewer digits than it has
    have hshort : (digitsOf n).length ≤ (digitsOf n).length - 1 :=
      (Nat.length_toDigits_le_iff (by decide) hmore).2 hlt
    omega

end Decimal

theorem naturalOfDigits_digitsOf (n : Nat) : naturalOfDigits (Decimal.digitsOf n) = n :=
  Nat.ofDigitChars_ten_toDigits

theorem naturalOfDigits_append (l m : List Char) :
    naturalOfDigits (l ++ m) = power 10 m.length * naturalOfDigits l + naturalOfDigits m := by
  have hsplit : naturalOfDigits (l ++ m) = Nat.ofDigitChars 10 m (naturalOfDigits l) :=
    Nat.ofDigitChars_append 0
  rw [hsplit, Nat.ofDigitChars_eq_ofDigitChars_zero]
  rfl

theorem naturalOfDigits_zeros (k : Nat) : naturalOfDigits (List.replicate k '0') = 0 :=
  Nat.ofDigitChars_replicate_zero.trans (Nat.mul_zero _)

theorem digitsOf_injective {i j : Nat} (h : Decimal.digitsOf i = Decimal.digitsOf j) : i = j := by
  rw [← naturalOfDigits_digitsOf i, h, naturalOfDigits_digitsOf]

end RayTracer
