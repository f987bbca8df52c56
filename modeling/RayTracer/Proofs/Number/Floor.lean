import Mathlib.Data.Rat.Floor
import RayTracer.Proofs.Number.Text

/-!
# Whole parts of exact values

The exact value of a machine number is a rational number (`ExactValue.value`), and its whole part is
the greatest integer below it.

* `ExactValue.floorWithin_finite` : what is computed from the significand and the exponent is the
  whole part, clamped to the given range.
* `Float32.exists_exact_eq` : finite singles have significands of at most 24 digits.
* `ExactValue.even_floor` : **above 24 digits, the whole part of such a value is even.**
-/

namespace RayTracer

namespace ExactValue

/-- The number that a finite value stands for, and zero where there is none. -/
def value : ExactValue → ℚ
  | undefined | infinite _ => 0
  | finite negative m e => (if negative then -1 else 1) * (m * 2 ^ e)

/-- The greatest integer not above the value. -/
def floor (v : ExactValue) : ℤ := ⌊v.value⌋

variable {negative : Bool} {m : ℕ} {e : ℤ}

/-- **Clamping the whole part.** -/
theorem floorWithin_finite (lo hi : ℤ) :
    (finite negative m e).floorWithin lo hi = max lo (min hi (finite negative m e).floor) := by
  have htwo : (2 : ℚ) ^ e = power 2 e.toNat / power 2 (-e).toNat :=
    zpow_eq_power_div_power (by decide) e
  have hvalue : (finite negative m e).value =
      ((if negative then -((m * power 2 e.toNat : ℕ) : ℤ) else (m * power 2 e.toNat : ℕ) : ℤ) : ℚ) /
        (power 2 (-e).toNat : ℕ) := by
    rw [value, htwo]
    cases negative
    · simp [mul_div_assoc]
    · simp [mul_div_assoc, neg_div]
  rw [floor, hvalue, Rat.floor_intCast_div_natCast]
  rfl

theorem abs_value_le (negative : Bool) (m : ℕ) (h : e ≤ 0) : |(finite negative m e).value| ≤ m := by
  have hpow : (2 : ℚ) ^ e ≤ 1 := zpow_le_one_of_nonpos₀ (by norm_num) h
  have hpos : (0 : ℚ) < 2 ^ e := zpow_pos (by norm_num) e
  have habs : |(finite negative m e).value| = m * 2 ^ e := by
    rw [value, abs_mul, abs_of_nonneg (a := (m : ℚ) * 2 ^ e) (by positivity)]
    cases negative <;> simp
  rw [habs]
  exact mul_le_of_le_one_right (Nat.cast_nonneg m) hpow

/-- With an exponent above zero, the value is an even integer. -/
theorem floor_of_pos (h : 0 < e) :
    (finite negative m e).floor = (if negative then -1 else 1) * (m * 2 ^ e.toNat) := by
  have hpow : (2 : ℚ) ^ e = 2 ^ e.toNat := by
    rw [← zpow_natCast, Int.toNat_of_nonneg h.le]
  have hvalue : (finite negative m e).value =
      (((if negative then -1 else 1) * (m * 2 ^ e.toNat) : ℤ) : ℚ) := by
    rw [value, hpow]
    push_cast
    rfl
  rw [floor, hvalue, Int.floor_intCast]

/-- **A value of 24 significant digits has an even whole part where that has more digits.** -/
theorem even_floor (hm : m < 2 ^ 24) (large : 2 ^ 24 < |(finite negative m e).floor|) :
    Even (finite negative m e).floor := by
  rcases lt_or_ge 0 e with hpos | hneg
  · rw [floor_of_pos hpos]
    have heven : Even ((2 : ℤ) ^ e.toNat) := (even_two.pow_of_ne_zero (by omega))
    exact (heven.mul_left _).mul_left _
  · -- the value itself has at most 24 digits before the point
    obtain ⟨hlow, hhigh⟩ := abs_le.1 (abs_value_le negative m hneg)
    have hbound : (m : ℚ) < 2 ^ 24 := by exact_mod_cast hm
    have hge : -2 ^ 24 ≤ (finite negative m e).floor := by
      rw [floor, Int.le_floor]
      push_cast
      linarith
    have hle : (finite negative m e).floor < 2 ^ 24 := by
      rw [floor, Int.floor_lt]
      push_cast
      linarith
    have habs : |(finite negative m e).floor| ≤ 2 ^ 24 := abs_le.2 ⟨hge, hle.le⟩
    omega

end ExactValue

/-- **The digits of a finite single.** -/
theorem Float32.exists_exact_eq {x : Float32} (h : x.isFinite = true) :
    ∃ negative m e, x.exact = .finite negative m e ∧ m < 2 ^ 24 := by
  have hword := x.isFinite_iff.1 h
  have hexact : x.exact = .finite (BinaryFormat.single.signBit ≤ x.toBits.toNat)
      (BinaryFormat.single.significand (x.toBits.toNat % BinaryFormat.single.signBit))
      (BinaryFormat.single.exponent (x.toBits.toNat % BinaryFormat.single.signBit)) := by
    rw [Float32.exact, ExactValue.ofWord, if_neg hword.not_gt, if_neg hword.ne]
  refine ⟨_, _, _, hexact, ?_⟩
  have hstride : BinaryFormat.single.stride = 2 ^ 23 := rfl
  rcases BinaryFormat.single.word_cases (x.toBits.toNat % BinaryFormat.single.signBit) with
    ⟨-, hlt, -⟩ | ⟨-, -, hlt, -⟩ <;> omega

end RayTracer
