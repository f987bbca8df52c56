import Mathlib.Algebra.Order.Field.Power
import Mathlib.Algebra.Order.Field.Rat
import Mathlib.Tactic.FieldSimp
import Mathlib.Tactic.Linarith
import Mathlib.Tactic.Positivity
import Mathlib.Tactic.Ring
import RayTracer.Number.Decimal

/-!
# Rounding to a format

`BinaryFormat.nearest` works on a numerator and a denominator.  It finds the exponent at which their
quotient has a significand of full length, and gives back every value that the format has.

* `BinaryFormat.exists_targetExponent` : the exponent is the one at which the quotient has a
  significand of full length (`BinaryFormat.FullLength`), or the least one.
* `BinaryFormat.nearest_exact` : **the value of a word is rounded to the word.**
* `BinaryFormat.nearest_eq_zero`, `BinaryFormat.nearest_single_eq_infinity` : what is far below the
  least value or far above the greatest one.
-/

namespace RayTracer

theorem cast_power (base exponent : ℕ) : (power base exponent : ℚ) = (base : ℚ) ^ exponent :=
  Nat.cast_pow base exponent

/-- An integral power as a fraction. -/
theorem zpow_eq_power_div_power {base : ℕ} (hbase : base ≠ 0) (e : ℤ) :
    (base : ℚ) ^ e = power base e.toNat / power base (-e).toNat := by
  have hcast : (base : ℚ) ≠ 0 := Nat.cast_ne_zero.2 hbase
  rw [cast_power, cast_power, ← zpow_natCast, ← zpow_natCast, ← zpow_sub₀ hcast]
  congr 1
  omega

/-- Comparing an integral quotient in units of a power with a bound. -/
theorem scaled_div_lt_iff {base n d : ℕ} (hbase : base ≠ 0) (hd : 0 < d) (e : ℤ) (bound : ℕ) :
    n * power base (-e).toNat / (d * power base e.toNat) < bound ↔
      (n : ℚ) / d < bound * (base : ℚ) ^ e := by
  have hpower (k : ℕ) : 0 < power base k := power_pos (Nat.pos_of_ne_zero hbase) k
  have hpos : (0 : ℚ) < power base (-e).toNat := Nat.cast_pos.2 (hpower _)
  have hd' : (0 : ℚ) < d := Nat.cast_pos.2 hd
  have hcast : (bound : ℚ) * power base e.toNat * d = bound * (d * power base e.toNat) := by ring
  rw [Nat.div_lt_iff_lt_mul (Nat.mul_pos hd (hpower _)), zpow_eq_power_div_power hbase e,
    div_lt_iff₀ hd', ← mul_div_assoc, div_mul_eq_mul_div, lt_div_iff₀ hpos, hcast]
  exact_mod_cast Iff.rfl

namespace BinaryFormat

variable {f : BinaryFormat} {n d : ℕ}

theorem stride_pos (f : BinaryFormat) : 0 < f.stride := power_pos (by decide) _

/-- At the exponent `t` the significand of `q` has its full length. -/
structure FullLength (f : BinaryFormat) (t : ℤ) (q : ℚ) : Prop where
  le : (f.stride : ℚ) * 2 ^ t ≤ q
  lt : q < 2 * f.stride * 2 ^ t

theorem FullLength.exponent_le {t t' : ℤ} {q : ℚ} (h : f.FullLength t q)
    (h' : f.FullLength t' q) : t ≤ t' := by
  by_contra hlt
  have hstride : (0 : ℚ) < f.stride := Nat.cast_pos.2 f.stride_pos
  have hpow : (2 : ℚ) ^ (t' + 1) ≤ 2 ^ t := zpow_le_zpow_right₀ (by norm_num) (by omega)
  rw [zpow_add_one₀ (by norm_num)] at hpow
  have hle := mul_le_mul_of_nonneg_left hpow hstride.le
  linarith [h.le, h'.lt]

/-- There is only one such exponent. -/
theorem FullLength.unique {t t' : ℤ} {q : ℚ} (h : f.FullLength t q) (h' : f.FullLength t' q) :
    t = t' :=
  le_antisymm (h.exponent_le h') (h'.exponent_le h)

/-- Comparing an integral quotient with a bound. -/
theorem div_lt_iff (hd : 0 < d) (e : ℤ) (bound : ℕ) :
    n * power 2 (-e).toNat / (d * power 2 e.toNat) < bound ↔ (n : ℚ) / d < bound * 2 ^ e :=
  scaled_div_lt_iff two_ne_zero hd e bound

/-- The quotient lies between the powers of two that its lengths allow. -/
theorem quotient_bounds (hn : 0 < n) (hd : 0 < d) :
    (2 : ℚ) ^ ((n.log2 : ℤ) - d.log2 - 1) ≤ n / d ∧
      (n / d : ℚ) < 2 ^ ((n.log2 : ℤ) - d.log2 + 1) := by
  have hd' : (0 : ℚ) < d := Nat.cast_pos.2 hd
  have hnle : (2 : ℚ) ^ n.log2 ≤ n := by exact_mod_cast Nat.log2_self_le hn.ne'
  have hnlt : (n : ℚ) < 2 ^ (n.log2 + 1) := by exact_mod_cast Nat.lt_log2_self
  have hdle : (2 : ℚ) ^ d.log2 ≤ d := by exact_mod_cast Nat.log2_self_le hd.ne'
  have hdlt : (d : ℚ) < 2 ^ (d.log2 + 1) := by exact_mod_cast Nat.lt_log2_self
  constructor
  · rw [le_div_iff₀ hd']
    calc (2 : ℚ) ^ ((n.log2 : ℤ) - d.log2 - 1) * d
        ≤ 2 ^ ((n.log2 : ℤ) - d.log2 - 1) * 2 ^ (d.log2 + 1) := by gcongr
      _ = 2 ^ n.log2 := by
        rw [← zpow_natCast, ← zpow_natCast, ← zpow_add₀ (by norm_num)]
        congr 1
        push_cast
        ring
      _ ≤ n := hnle
  · rw [div_lt_iff₀ hd']
    calc (n : ℚ) < 2 ^ (n.log2 + 1) := hnlt
      _ = 2 ^ ((n.log2 : ℤ) - d.log2 + 1) * 2 ^ d.log2 := by
        rw [← zpow_natCast, ← zpow_natCast, ← zpow_add₀ (by norm_num)]
        congr 1
        push_cast
        ring
      _ ≤ 2 ^ ((n.log2 : ℤ) - d.log2 + 1) * d := by gcongr

/-- **The exponent that is rounded to.** -/
theorem exists_targetExponent (f : BinaryFormat) (hn : 0 < n) (hd : 0 < d) :
    ∃ t, f.targetExponent n d = max f.leastExponent t ∧ f.FullLength t (n / d) := by
  obtain ⟨hlow, hhigh⟩ := quotient_bounds hn hd
  have hstride : (f.stride : ℚ) = 2 ^ (f.fractionBits : ℤ) := by
    rw [stride, cast_power, zpow_natCast, Nat.cast_ofNat]
  generalize hguess : (n.log2 : ℤ) - d.log2 - f.fractionBits - 1 = e
  have hfirst : (f.stride : ℚ) * 2 ^ e ≤ n / d := by
    rw [hstride, ← zpow_add₀ (by norm_num)]
    have he : (f.fractionBits : ℤ) + e = (n.log2 : ℤ) - d.log2 - 1 := by omega
    rwa [he]
  have hlast : (n / d : ℚ) < 2 * f.stride * 2 ^ (e + 1) := by
    rw [hstride, mul_assoc, ← zpow_add₀ (by norm_num), ← zpow_one_add₀ (by norm_num)]
    have he : 1 + ((f.fractionBits : ℤ) + (e + 1)) = (n.log2 : ℤ) - d.log2 + 1 := by omega
    rwa [he]
  have hdef : f.targetExponent n d = max f.leastExponent
      (if n * power 2 (-e).toNat / (d * power 2 e.toNat) < 2 * f.stride then e else e + 1) := by
    rw [← hguess]
    rfl
  have htest := div_lt_iff (n := n) hd e (2 * f.stride)
  push_cast at htest
  by_cases htwo : (n : ℚ) / d < 2 * f.stride * 2 ^ e
  · rw [if_pos (htest.2 htwo)] at hdef
    exact ⟨e, hdef, hfirst, htwo⟩
  · rw [if_neg (mt htest.1 htwo)] at hdef
    refine ⟨e + 1, hdef, ?_, hlast⟩
    rw [zpow_add_one₀ (by norm_num)]
    linarith [not_lt.1 htwo]

/-! ### Values of words -/

/-- The value of a magnitude word. -/
def value (f : BinaryFormat) (word : ℕ) : ℚ := f.significand word * 2 ^ f.exponent word

theorem roundedQuotient_exact (hd : 0 < d) {m : ℕ} {e : ℤ} (h : (n / d : ℚ) = m * 2 ^ e) :
    roundedQuotient n d e = m := by
  have hD : 0 < d * power 2 e.toNat := Nat.mul_pos hd (power_pos (by decide) _)
  have htwo : (2 : ℚ) ^ e = power 2 e.toNat / power 2 (-e).toNat :=
    zpow_eq_power_div_power (by decide) e
  have hpos : (0 : ℚ) < power 2 (-e).toNat := Nat.cast_pos.2 (power_pos (by decide) _)
  have hcross : n * power 2 (-e).toNat = m * (d * power 2 e.toNat) := by
    rw [htwo, ← mul_div_assoc, div_eq_div_iff (by positivity) hpos.ne'] at h
    have hcast : (m : ℚ) * power 2 e.toNat * d = m * (d * power 2 e.toNat) := by ring
    rw [hcast] at h
    exact_mod_cast h
  simp only [roundedQuotient, hcross, Nat.mul_div_cancel _ hD, Nat.mul_mod_left]
  rw [if_neg (by omega)]

/-- The value of a word has a significand of full length, or the least exponent. -/
theorem word_cases (f : BinaryFormat) (word : ℕ) :
    (f.exponent word = f.leastExponent ∧ f.significand word < f.stride ∧
      word = f.significand word) ∨
    (f.leastExponent ≤ f.exponent word ∧ f.stride ≤ f.significand word ∧
      f.significand word < 2 * f.stride ∧
      word = (f.exponent word - f.leastExponent).toNat * f.stride + f.significand word) := by
  by_cases hlt : word < f.stride
  · simp [exponent, significand, hlt]
  · right
    have hdiv : 0 < word / f.stride := Nat.div_pos (not_lt.1 hlt) f.stride_pos
    have hmod := Nat.mod_lt word f.stride_pos
    have hdecomp := Nat.div_add_mod word f.stride
    simp only [exponent, significand, hlt, if_false]
    refine ⟨by omega, by omega, by omega, ?_⟩
    have hsteps : (f.leastExponent + (word / f.stride : ℕ) - 1 - f.leastExponent).toNat =
        word / f.stride - 1 := by omega
    rw [hsteps, Nat.sub_mul, one_mul, Nat.mul_comm]
    have hle : f.stride ≤ f.stride * (word / f.stride) := Nat.le_mul_of_pos_right _ hdiv
    omega

theorem targetExponent_of_fullLength (hn : 0 < n) (hd : 0 < d) {e : ℤ}
    (h : f.FullLength e (n / d)) (least : f.leastExponent ≤ e) : f.targetExponent n d = e := by
  obtain ⟨t, ht, hfull⟩ := f.exists_targetExponent hn hd
  rw [ht, hfull.unique h, max_eq_right least]

/-- Below the values with a significand of full length, the exponent is the least one. -/
theorem targetExponent_of_lt (hn : 0 < n) (hd : 0 < d)
    (h : (n / d : ℚ) < f.stride * 2 ^ f.leastExponent) :
    f.targetExponent n d = f.leastExponent := by
  obtain ⟨t, ht, hfull⟩ := f.exists_targetExponent hn hd
  have hbelow : t < f.leastExponent := by
    by_contra hge
    have hpow : (2 : ℚ) ^ f.leastExponent ≤ 2 ^ t :=
      zpow_le_zpow_right₀ (by norm_num) (not_lt.1 hge)
    have hlarge := mul_le_mul_of_nonneg_left hpow (Nat.cast_nonneg (α := ℚ) f.stride)
    linarith [hfull.le]
  rw [ht, max_eq_left hbelow.le]

/-- The value of a word is rounded to the exponent of the word. -/
theorem targetExponent_of_value (hn : 0 < n) (hd : 0 < d) {word : ℕ}
    (h : (n / d : ℚ) = f.value word) : f.targetExponent n d = f.exponent word := by
  have htwo : (0 : ℚ) < 2 ^ f.exponent word := zpow_pos (by norm_num) _
  rcases f.word_cases word with ⟨hexp, hlt, -⟩ | ⟨hleast, hle, hlt, -⟩
  · rw [hexp]
    refine targetExponent_of_lt hn hd ?_
    rw [h, value, ← hexp]
    exact mul_lt_mul_of_pos_right (Nat.cast_lt.2 hlt) htwo
  · refine targetExponent_of_fullLength hn hd ⟨?_, ?_⟩ hleast
    · rw [h, value]
      exact mul_le_mul_of_nonneg_right (Nat.cast_le.2 hle) htwo.le
    · rw [h, value]
      exact mul_lt_mul_of_pos_right (by exact_mod_cast hlt) htwo

theorem eq_zero_of_value_eq_zero {word : ℕ} (h : f.value word = 0) : word = 0 := by
  have htwo : (2 : ℚ) ^ f.exponent word ≠ 0 := zpow_ne_zero _ (by norm_num)
  have hzero : f.significand word = 0 := by
    rw [value, mul_eq_zero] at h
    exact_mod_cast h.resolve_right htwo
  have hstride := f.stride_pos
  rcases f.word_cases word with ⟨-, -, hword⟩ | ⟨-, hle, -, -⟩ <;> omega

/-- **The value of a word is rounded to the word.** -/
theorem nearest_exact (hd : 0 < d) {word : ℕ} (below : word < f.infinity)
    (h : (n / d : ℚ) = f.value word) : f.nearest n d = word := by
  rcases Nat.eq_zero_or_pos n with rfl | hn
  · rw [Nat.cast_zero, zero_div] at h
    rw [eq_zero_of_value_eq_zero h.symm, nearest, if_pos rfl]
  rw [nearest, if_neg hn.ne']
  simp only [targetExponent_of_value hn hd h, roundedQuotient_exact hd h]
  rcases f.word_cases word with ⟨hexp, -, hword⟩ | ⟨-, -, -, hword⟩
  · rw [hexp, Int.sub_self, Int.toNat_zero, zero_mul, zero_add, ← hword, min_eq_right below.le]
  · rw [← hword, min_eq_right below.le]

/-! ### What is out of range -/

/-- What is below half of the least value is rounded to zero. -/
theorem nearest_eq_zero (hd : 0 < d) (small : 2 * (n / d : ℚ) < 2 ^ f.leastExponent) :
    f.nearest n d = 0 := by
  rcases Nat.eq_zero_or_pos n with rfl | hn
  · rw [nearest, if_pos rfl]
  have htwo : (0 : ℚ) < 2 ^ f.leastExponent := zpow_pos (by norm_num) _
  have hbelow : (n / d : ℚ) < f.stride * 2 ^ f.leastExponent := by
    have hstride : (1 : ℚ) ≤ f.stride := by exact_mod_cast f.stride_pos
    have hq : (0 : ℚ) ≤ n / d := by positivity
    calc (n / d : ℚ) ≤ 2 * (n / d) := by linarith
      _ < 1 * 2 ^ f.leastExponent := by rwa [one_mul]
      _ ≤ f.stride * 2 ^ f.leastExponent := by gcongr
  have hD : 0 < d * power 2 f.leastExponent.toNat :=
    Nat.mul_pos hd (power_pos (by decide) _)
  have hhalf : 2 * (n * power 2 (-f.leastExponent).toNat) < d * power 2 f.leastExponent.toNat := by
    have htest := div_lt_iff (n := 2 * n) hd f.leastExponent 1
    rw [Nat.div_lt_iff_lt_mul hD, one_mul, mul_assoc] at htest
    refine htest.2 ?_
    push_cast
    rw [one_mul, mul_div_assoc]
    exact small
  have hrounded : roundedQuotient n d f.leastExponent = 0 := by
    have hlt : n * power 2 (-f.leastExponent).toNat < d * power 2 f.leastExponent.toNat := by omega
    simp only [roundedQuotient, Nat.div_eq_of_lt hlt, Nat.mod_eq_of_lt hlt]
    rw [if_neg (by omega)]
  rw [nearest, if_neg hn.ne']
  simp only [targetExponent_of_lt hn hd hbelow, hrounded, Int.sub_self, Int.toNat_zero, zero_mul,
    add_zero, Nat.min_zero]

/-- A quotient is rounded to no less than its integral part. -/
theorem le_roundedQuotient (hd : 0 < d) {m : ℕ} {e : ℤ} (h : (m : ℚ) * 2 ^ e ≤ n / d) :
    m ≤ roundedQuotient n d e := by
  have hfloor : m ≤ n * power 2 (-e).toNat / (d * power 2 e.toNat) :=
    not_lt.1 fun hlt => absurd ((div_lt_iff hd e m).1 hlt) (not_lt.2 h)
  refine hfloor.trans ?_
  simp only [roundedQuotient]
  split <;> omega

/-- What is at least twice the greatest power of two is rounded to infinity. -/
theorem nearest_single_eq_infinity (hd : 0 < d) (large : (2 : ℚ) ^ (128 : ℤ) ≤ n / d) :
    single.nearest n d = single.infinity := by
  have hn : 0 < n := by
    rcases Nat.eq_zero_or_pos n with rfl | hn
    · norm_num at large
    · exact hn
  have hstride : single.stride = 8388608 := rfl
  obtain ⟨t, ht, hfull⟩ := single.exists_targetExponent hn hd
  have hlarge : 104 < t := by
    by_contra hle
    have hpow : (2 : ℚ) ^ t ≤ 2 ^ (104 : ℤ) := zpow_le_zpow_right₀ (by norm_num) (not_lt.1 hle)
    have hlt := hfull.lt
    rw [hstride] at hlt
    have hsplit : (2 : ℚ) ^ (128 : ℤ) = 2 * 8388608 * 2 ^ (104 : ℤ) := by norm_num
    push_cast at hlt
    linarith
  have hleast : single.leastExponent = -149 := rfl
  have htarget : single.targetExponent n d = t := by rw [ht, hleast, max_eq_right (by omega)]
  have hrounded := le_roundedQuotient hd hfull.le
  have hinfinity : single.infinity = 255 * 8388608 := rfl
  rw [nearest, if_neg hn.ne']
  simp only [htarget, hstride, hleast, hinfinity] at *
  omega

end BinaryFormat

end RayTracer
