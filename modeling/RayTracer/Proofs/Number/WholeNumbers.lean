import RayTracer.Proofs.Number.Single

/-!
# Whole numbers in single precision

A number of 32 bits is rounded to single precision when it becomes a float, and cut down to a whole
number within 32 bits when it comes back.

* `IsShort` : the natural numbers with at most 24 significant digits.
* `Float.Model.UnpackedFloat.exists_ofNat_eq` : rounding keeps a short number.
* `Float32.isShort_toUInt32` : **every whole number that a float is cut down to is short**, or is
  the greatest number of 32 bits, which stands for everything above it.
* `UInt32.toUInt32_toFloat32_eq_iff` : **exactly these numbers survive.**

The second direction of the last statement needs nothing of rounding: a number that survives has
come out of a float.
-/

namespace RayTracer

/-- At most 24 binary digits are significant: the number is one of 24 digits, with zeros behind. -/
def IsShort (n : ℕ) : Prop := ∃ m e : ℕ, m < 2 ^ 24 ∧ n = m * 2 ^ e

theorem log2_mul_two_pow {m : ℕ} (hm : m ≠ 0) (e : ℕ) : (m * 2 ^ e).log2 = m.log2 + e := by
  rw [← Nat.shiftLeft_eq, log2_shiftLeft hm]

theorem isShort_of_lt {n : ℕ} (h : n < 2 ^ 24) : IsShort n := ⟨n, 0, h, by simp⟩

/-- The digits that a short number has beyond the first 24 are zeros. -/
theorem IsShort.exists_eq {n t : ℕ} (h : IsShort n) (ht : n.log2 = 23 + t) :
    ∃ k < 2 ^ 24, n = k * 2 ^ t := by
  obtain ⟨m, e, hm, rfl⟩ := h
  have hne : m ≠ 0 := by
    rintro rfl
    rw [Nat.zero_mul, Nat.log2_zero] at ht
    omega
  have hlog := log2_mul_two_pow hne e
  have hle : t ≤ e := by
    have hfull := log2_of_lt hm
    omega
  have hsplit : m * 2 ^ e = m * 2 ^ (e - t) * 2 ^ t := by
    rw [Nat.mul_assoc, ← Nat.pow_add, Nat.sub_add_cancel hle]
  refine ⟨m * 2 ^ (e - t), ?_, hsplit⟩
  have hpos : m * 2 ^ (e - t) ≠ 0 := Nat.mul_ne_zero hne (Nat.two_pow_pos _).ne'
  rw [← Nat.log2_lt hpos, log2_mul_two_pow hne]
  omega

end RayTracer

namespace Float.Model.UnpackedFloat

open RayTracer

/-! ### Rounding what fits -/

/-- Digits that are zero leave no trace when they are dropped. -/
theorem shiftRight_exact (k t : ℕ) :
    ExtendedMantissa.ofMantissaAndAccuracy (k * 2 ^ t) .exact >>> t =
      .ofMantissaAndAccuracy k .exact := by
  induction t generalizing k with
  | zero =>
    rw [Nat.pow_zero, Nat.mul_one]
    rfl
  | succ t ih =>
    have hsplit : k * 2 ^ (t + 1) = k * 2 * 2 ^ t := by
      rw [Nat.pow_succ, Nat.mul_right_comm, Nat.mul_assoc]
    change (ExtendedMantissa.ofMantissaAndAccuracy (k * 2 ^ (t + 1)) .exact >>> t).shiftRightOne = _
    rw [hsplit, ih]
    simp [ExtendedMantissa.shiftRightOne, ExtendedMantissa.ofMantissaAndAccuracy]

theorem Kept.eq_finite {s : Sign} {k : ℕ} {e : ℤ} {u : UnpackedFloat} (h : Kept s k e u)
    (hk : 0 < k) (hlt : k < 2 ^ 24) : u = .finite s k e hk := by
  cases h with
  | zero hzero => omega
  | same => rfl
  | carry hcarry => omega

/-- **A significand is rounded to its first 24 digits if only zeros follow.** -/
theorem round_exact (s : Sign) {k t : ℕ} {e : ℤ} (hk : 0 < k) (hlt : k < 2 ^ 24)
    (ht : target (k * 2 ^ t) e = e + t) :
    roundWithAccuracy .binary32 s (k * 2 ^ t) e .exact = .finite s k (e + t) hk := by
  have hn : (target (k * 2 ^ t) e - e).toNat = t := by omega
  have hleast : -149 ≤ e + t := ht ▸ le_max_right _ _
  have hfirst : shiftToTargetExponent .binary32 (k * 2 ^ t) e .exact =
      (.ofMantissaAndAccuracy k .exact, e + t) := by
    simp only [shiftToTargetExponent, shiftToExponent, targetExponent_eq, hn, shiftRight_exact]
  rw [roundWithAccuracy, hfirst]
  exact (kept_finish s hlt.le hleast).eq_finite hk hlt

/-- A number of at most 24 digits gets zeros behind until it has 24. -/
theorem ofNat_eq_of_zeros {n a : ℕ} (hn : 0 < n * 2 ^ a) (ha : n.log2 + a = 23) :
    ofNat .binary32 n = .finite .positive (n * 2 ^ a) (-a) hn := by
  have hne : n ≠ 0 := (Nat.pos_of_mul_pos_right hn).ne'
  have hfull : (n * 2 ^ a).log2 = 23 := by rw [log2_mul_two_pow hne, ha]
  have hlt : n * 2 ^ a < 2 ^ 24 := by
    rw [← Nat.log2_lt hn.ne', hfull]
    decide
  have htarget : target n 0 = -a := by
    rw [target, add_zero]
    omega
  have hshift : (-target n 0).toNat = a := by omega
  have hstays : target (n * 2 ^ a * 2 ^ 0) (-(a : ℤ)) = -(a : ℤ) + (0 : ℕ) := by
    rw [Nat.pow_zero, Nat.mul_one, target, hfull]
    omega
  have hround := round_exact .positive hn hlt hstays
  simp only [Nat.pow_zero, Nat.mul_one, Nat.cast_zero, add_zero] at hround
  rw [ofNat_eq_round hne, ← hround]
  simp only [round, targetExponent_eq, decreaseExponent, zero_sub, hshift, Nat.shiftLeft_eq]

/-- A number of more digits loses those behind the first 24, if they are zeros. -/
theorem ofNat_eq_of_digits {k t : ℕ} (hk : 0 < k) (hlt : k < 2 ^ 24)
    (ht : (k * 2 ^ t).log2 = 23 + t) :
    ofNat .binary32 (k * 2 ^ t) = .finite .positive k t hk := by
  have hne : k * 2 ^ t ≠ 0 := (Nat.mul_pos hk (Nat.two_pow_pos t)).ne'
  have htarget : target (k * 2 ^ t) 0 = 0 + t := by
    rw [target, ht]
    omega
  have hshift : (0 - target (k * 2 ^ t) 0).toNat = 0 := by omega
  have hround := round_exact .positive hk hlt htarget
  rw [zero_add] at hround
  rw [ofNat_eq_round hne, ← hround]
  simp only [round, targetExponent_eq, decreaseExponent, hshift]
  rfl

/-- **A short number is kept**, with a significand and an exponent that give it back. -/
theorem exists_ofNat_eq {n : ℕ} (hn : n ≠ 0) (short : IsShort n) (hbits : n < 2 ^ 32) :
    ∃ k e, ∃ hk : 0 < k, ofNat .binary32 n = .finite .positive k e hk ∧ e ≤ 8 ∧
      k * 2 ^ e.toNat / 2 ^ (-e).toNat = n := by
  have hlog : n.log2 < 32 := (Nat.log2_lt hn).2 hbits
  rcases Nat.le_total n.log2 23 with hle | hge
  · obtain ⟨a, ha⟩ := Nat.exists_eq_add_of_le hle
    have hpos : 0 < n * 2 ^ a := Nat.mul_pos (Nat.pos_of_ne_zero hn) (Nat.two_pow_pos a)
    have hup : (-(a : ℤ)).toNat = 0 := by omega
    have hdown : (-(-(a : ℤ))).toNat = a := by omega
    refine ⟨n * 2 ^ a, -a, hpos, ofNat_eq_of_zeros hpos ha.symm, by omega, ?_⟩
    rw [hup, hdown, Nat.pow_zero, Nat.mul_one, Nat.mul_div_cancel _ (Nat.two_pow_pos a)]
  · obtain ⟨t, ht⟩ := Nat.exists_eq_add_of_le hge
    obtain ⟨k, hlt, rfl⟩ := short.exists_eq ht
    have hpos : 0 < k := Nat.pos_of_ne_zero (left_ne_zero_of_mul hn)
    have hdown : (-(t : ℤ)).toNat = 0 := by omega
    refine ⟨k, t, hpos, ofNat_eq_of_digits hpos hlt ht, by omega, ?_⟩
    rw [Int.toNat_natCast, hdown, Nat.pow_zero, Nat.div_one]

/-! ### Cutting down -/

theorem roundToInt_eq (s : Sign) (m : ℕ) (e : ℤ) :
    roundToInt s m e = s.apply (m * 2 ^ e.toNat / 2 ^ (-e).toNat : ℕ) := by
  have hup : (e - 0).toNat = e.toNat := by omega
  have hdown : (0 - (e - e.toNat)).toNat = (-e).toNat := by omega
  simp only [roundToInt, decreaseExponent, shiftToExponent, hup, hdown, shiftRight_mantissa,
    ofMantissaAndAccuracy_mantissa, Nat.shiftLeft_eq]

/-- What is above 32 bits becomes the greatest number. -/
theorem toNat_ofNatClamp (n : ℕ) : (UInt32.ofNatClamp n).toNat = min n (2 ^ 32 - 1) := by
  unfold UInt32.ofNatClamp
  split
  · rename_i h
    have hn : n ≤ 2 ^ 32 - 1 := Nat.le_pred_of_lt h
    rw [min_eq_left hn]
    exact UInt32.toNat_ofNatLT
  · rename_i h
    have hn : 2 ^ 32 - 1 ≤ n := by
      have hsize : UInt32.size = 2 ^ 32 := rfl
      omega
    rw [min_eq_right hn]
    rfl

theorem toNat_toUInt32_finite {m : ℕ} {e : ℤ} {hm : 0 < m} :
    (toUInt32 (.finite .positive m e hm)).toNat =
      min (m * 2 ^ e.toNat / 2 ^ (-e).toNat) (2 ^ 32 - 1) := by
  rw [toUInt32, toNat_ofNatClamp, toInt, roundToInt_eq]
  rfl

/-- **Only short numbers come out**, and the greatest one. -/
theorem isShort_toUInt32 {u : UnpackedFloat} (h : u.IsRounded) :
    IsShort u.toUInt32.toNat ∨ u.toUInt32.toNat = 2 ^ 32 - 1 := by
  have hzero : IsShort (UInt32.ofNatClamp 0).toNat := isShort_of_lt (by decide)
  rcases u with (_ | _) | _ | _ | ⟨s, m, e, hm⟩
  case infinity.negative => exact .inl hzero
  case infinity.positive => exact .inr rfl
  case notANumber | zero => exact .inl hzero
  case finite =>
    obtain ⟨hlt, -, -⟩ := h
    cases s with
    | negative =>
      -- cutting down gives no positive number
      have hnone (n : ℕ) : (Sign.negative.apply (n : ℤ)).toNat = 0 := Int.toNat_neg_natCast n
      rw [toUInt32, toInt, roundToInt_eq, hnone]
      exact .inl hzero
    | positive =>
      rw [toNat_toUInt32_finite]
      rcases min_choice (m * 2 ^ e.toNat / 2 ^ (-e).toNat) (2 ^ 32 - 1) with hmin | hmin
      · rw [hmin]
        rcases Int.le_total 0 e with hnonneg | hneg
        · have hnone : (-e).toNat = 0 := by omega
          rw [hnone, Nat.pow_zero, Nat.div_one]
          exact .inl ⟨m, e.toNat, hlt, rfl⟩
        · have hnone : e.toNat = 0 := by omega
          rw [hnone, Nat.pow_zero, Nat.mul_one]
          exact .inl (isShort_of_lt ((Nat.div_le_self _ _).trans_lt hlt))
      · exact .inr hmin

end Float.Model.UnpackedFloat

open RayTracer Float.Model UnpackedFloat

theorem Float32.isShort_toUInt32 (x : Float32) :
    IsShort x.toUInt32.toNat ∨ x.toUInt32.toNat = 2 ^ 32 - 1 :=
  UnpackedFloat.isShort_toUInt32 (isRounded_unpack x.toModel)

/-- A short number comes back. -/
theorem UInt32.toUInt32_toFloat32 {n : UInt32} (short : IsShort n.toNat) :
    n.toFloat32.toUInt32 = n := by
  by_cases hn : n.toNat = 0
  · obtain rfl : n = 0 := UInt32.toNat_inj.1 hn
    decide
  · obtain ⟨k, e, hk, hround, hexponent, hvalue⟩ := exists_ofNat_eq hn short n.toNat_lt
    have hunpack : n.toFloat32.toModel.unpack = .finite .positive k e hk := by
      rw [Float32.unpack_toFloat32, hround, stored, if_neg (by omega)]
    have hback : n.toFloat32.toUInt32 = n.toFloat32.toModel.unpack.toUInt32 := rfl
    have hlt := n.toNat_lt
    rw [← UInt32.toNat_inj, hback, hunpack, toNat_toUInt32_finite, hvalue]
    omega

/-- **The numbers of 32 bits that single precision gives back** are the short ones and the greatest
one, which is rounded up and cut down again. -/
theorem UInt32.toUInt32_toFloat32_eq_iff (n : UInt32) :
    n.toFloat32.toUInt32 = n ↔ IsShort n.toNat ∨ n.toNat = 2 ^ 32 - 1 := by
  constructor
  · intro h
    rw [← h]
    exact n.toFloat32.isShort_toUInt32
  · rintro (short | hlast)
    · exact toUInt32_toFloat32 short
    · obtain rfl : n = 4294967295 := UInt32.toNat_inj.1 hlast
      decide
