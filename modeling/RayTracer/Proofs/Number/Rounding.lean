import Mathlib
import RayTracer.Number.Scalar

/-!
# Rounding to single precision

The arithmetic of machine numbers decodes its operands, computes with significands and exponents of
any size, rounds, and encodes the result.  What rounding does to the order of magnitude of a result
is all that proofs about the geometry need to know of it.

* `UnpackedFloat.IsRounded` : the decoded values that rounding leads to, and that words encode if
  the exponent fits (`unpack_pack`, `of_unpack_eq_finite`).
* `UnpackedFloat.Kept` : the value that a rounded significand is kept as, after a carry where it has
  one digit too many.
* `UnpackedFloat.atLeast_round`, `UnpackedFloat.below_round` : **rounding keeps the order of
  magnitude, or raises it by one, as long as it is not below the least one.**

Significands are natural numbers and the order of magnitude of `m * 2 ^ e` is `m.log2 + e`, so
every bound is a statement about integers.
-/

namespace RayTracer

/-! ### Binary logarithms -/

theorem log2_mono {m m' : ℕ} (h : m ≤ m') : m.log2 ≤ m'.log2 := by
  rw [Nat.log2_eq_log_two, Nat.log2_eq_log_two]
  exact Nat.log_mono_right h

/-- One more adds at most one digit. -/
theorem log2_succ_le {m : ℕ} (h : m ≠ 0) : (m + 1).log2 ≤ m.log2 + 1 := by
  have hdouble : m + 1 ≤ 2 * m := by omega
  refine (log2_mono hdouble).trans ?_
  rw [Nat.log2_two_mul h]

theorem log2_div_two_pow (m n : ℕ) : (m / 2 ^ n).log2 = m.log2 - n := by
  rw [Nat.log2_eq_log_two, Nat.log2_eq_log_two, Nat.log_div_base_pow]

theorem log2_of_lt {m : ℕ} (h : m < 2 ^ 24) : m.log2 ≤ 23 := by
  rcases Nat.eq_zero_or_pos m with rfl | hpos
  · decide
  · exact Nat.lt_succ_iff.1 ((Nat.log2_lt hpos.ne').2 h)

theorem log2_of_le {m : ℕ} (h : 2 ^ 23 ≤ m) : 23 ≤ m.log2 := by
  rw [← Nat.log2_two_pow (n := 23)]
  exact log2_mono h

end RayTracer

namespace Float.Model.UnpackedFloat

open RayTracer

/-! ### Values that words encode -/

/-- A decoded value with a significand of full length, or with the least exponent. -/
def IsRounded : UnpackedFloat → Prop
  | .finite _ m e _ => m < 2 ^ 24 ∧ -149 ≤ e ∧ (2 ^ 23 ≤ m ∨ e = -149)
  | .infinity _ | .notANumber | .zero _ => True

/-- What is left of a rounded value once it is encoded: too large an exponent makes it infinite. -/
def stored : UnpackedFloat → UnpackedFloat
  | .finite s m e h => if 104 < e then .infinity s else .finite s m e h
  | .infinity s => .infinity s
  | .notANumber => .notANumber
  | .zero s => .zero s

/-- The leading digit in front of a stored significand. -/
theorem toNat_one_append (w : BitVec 23) : (1#1 ++ w).toNat = 2 ^ 23 + w.toNat := by
  rw [BitVec.toNat_append, ← Nat.shiftLeft_add_eq_or_of_lt (BitVec.isLt _)]
  rfl

/-- The distance between an exponent and its code. -/
theorem exponentBias_add :
    (Format.binary32.exponentBias : ℤ) + Format.binary32.mantissaBitsWithoutImplicit = 150 := rfl

/-- **Encoding a rounded value loses nothing but exponents that are too large.** -/
theorem unpack_pack {u : UnpackedFloat} (h : IsRounded u) :
    (Float32.Model.pack u).unpack = stored u := by
  cases u with
  | infinity s => cases s <;> rfl
  | notANumber => rfl
  | zero s => cases s <;> rfl
  | finite s m e hm =>
    obtain ⟨hlt, hleast, hfull⟩ := h
    change unpack .binary32 (pack .binary32 (.finite s m e hm)) = _
    have hbias : e + Format.binary32.exponentBias + Format.binary32.mantissaBitsWithoutImplicit =
        e + 150 := Int.add_assoc _ _ _
    simp only [pack, hbias]
    by_cases hover : 104 < e
    · rw [if_pos (by show 256 ≤ _; omega), stored, if_pos hover]
      cases s <;> rfl
    · rw [if_neg (by show ¬256 ≤ _; omega), stored, if_neg hover]
      rcases Nat.lt_or_ge m (2 ^ 23) with hsmall | hlarge
      · -- the least exponent has the code zero
        obtain rfl : e = -149 := by omega
        have hlog : ¬m.log2 + 1 = Format.binary32.mantissaBits := by
          have hlt := (Nat.log2_lt hm.ne').2 hsmall
          show ¬m.log2 + 1 = 24
          omega
        have hword : (BitVec.ofNat 23 m).toNat = m := Nat.mod_eq_of_lt hsmall
        have hne : BitVec.ofNat 23 m ≠ 0#23 := by
          intro hzero
          rw [hzero] at hword
          exact hm.ne hword
        simp only [if_neg hlog, unpack, unpackExponent_packComponents,
          unpackMantissa_packComponents, unpackSign_packComponents, Sign.ofBitVec_toBitVec]
        rw [if_neg (by decide), if_pos trivial, dif_neg hne]
        congr 1
      · have hlog : m.log2 + 1 = Format.binary32.mantissaBits := by
          rw [le_antisymm (log2_of_lt hlt) (log2_of_le hlarge)]
          rfl
        have hword : (BitVec.ofNat 23 m).toNat = m % 2 ^ 23 := rfl
        have hcode : (BitVec.ofNat 8 (e + 150).toNat).toNat = (e + 150).toNat :=
          Nat.mod_eq_of_lt (by omega)
        have hones : BitVec.ofNat 8 (e + 150).toNat ≠ -1#8 := by
          intro h
          have hlast : (-1#8).toNat = 255 := rfl
          rw [h] at hcode
          omega
        have hzero : BitVec.ofNat 8 (e + 150).toNat ≠ 0#8 := by
          intro h
          have hfirst : (0#8).toNat = 0 := rfl
          rw [h] at hcode
          omega
        simp only [if_pos hlog, unpack, unpackExponent_packComponents,
          unpackMantissa_packComponents, unpackSign_packComponents, Sign.ofBitVec_toBitVec]
        rw [if_neg hones, if_neg hzero]
        congr 1
        · rw [toNat_one_append, hword]
          omega
        · rw [hcode, exponentBias_add]
          omega

/-- What the words of finite values decode to. -/
theorem of_unpack_eq_finite {x : Float32.Model} {s : Sign} {m : ℕ} {e : ℤ} {hm : 0 < m}
    (h : x.unpack = .finite s m e hm) :
    m < 2 ^ 24 ∧ -149 ≤ e ∧ e ≤ 104 ∧ (2 ^ 23 ≤ m ∨ e = -149) := by
  have hmantissa : (@unpackMantissa .binary32 x.toBits.toBitVec).toNat < 2 ^ 23 :=
    BitVec.isLt _
  have hexponent : (@unpackExponent .binary32 x.toBits.toBitVec).toNat < 2 ^ 8 :=
    BitVec.isLt _
  unfold Float32.Model.unpack unpack at h
  dsimp only at h
  rw [exponentBias_add] at h
  split at h
  · split at h <;> cases h
  · rename_i hones
    have hlast : (@unpackExponent .binary32 x.toBits.toBitVec).toNat ≠ 255 :=
      fun hlast => hones (BitVec.eq_of_toNat_eq hlast)
    split at h
    · rename_i hzero
      have hcode : (@unpackExponent .binary32 x.toBits.toBitVec).toNat = 0 := by
        rw [hzero]
        rfl
      split at h
      · cases h
      · cases h
        omega
    · rename_i hzero
      have hfirst : (@unpackExponent .binary32 x.toBits.toBitVec).toNat ≠ 0 :=
        fun hfirst => hzero (BitVec.eq_of_toNat_eq hfirst)
      cases h
      rw [toNat_one_append]
      omega

theorem isRounded_unpack (x : Float32.Model) : IsRounded x.unpack := by
  cases h : x.unpack with
  | finite s m e hm =>
    obtain ⟨hlt, hleast, -, hfull⟩ := of_unpack_eq_finite h
    exact ⟨hlt, hleast, hfull⟩
  | infinity | notANumber | zero => trivial

/-! ### Rounding -/

/-- The exponent at which a significand has its full length, or the least one. -/
def target (m : ℕ) (e : ℤ) : ℤ := max (m.log2 + e - 23) (-149)

theorem targetExponent_eq (m : ℕ) (e : ℤ) :
    Format.binary32.targetExponent (totalExponent m e) = target m e := by
  change max ((m.log2 : ℤ) + 1 + e - 24) (-149) = _
  rw [target]
  omega

theorem shiftRight_mantissa (em : ExtendedMantissa) (n : ℕ) :
    (em >>> n).mantissa = em.mantissa / 2 ^ n := by
  induction n with
  | zero => exact (Nat.div_one _).symm
  | succ n ih =>
    change (em >>> n).mantissa / 2 = _
    rw [ih, Nat.div_div_eq_div_mul, Nat.pow_succ]

theorem ofMantissaAndAccuracy_mantissa (m : ℕ) (acc : Accuracy) :
    (ExtendedMantissa.ofMantissaAndAccuracy m acc).mantissa = m := by
  rcases acc with _ | (_ | _ | _) <;> rfl

theorem roundedMantissa_bounds (em : ExtendedMantissa) :
    em.mantissa ≤ em.roundedMantissa ∧ em.roundedMantissa ≤ em.mantissa + 1 := by
  obtain ⟨m, roundBit, stickyBit⟩ := em
  cases roundBit <;> cases stickyBit <;>
    simp only [ExtendedMantissa.roundedMantissa, ExtendedMantissa.accuracy,
      Accuracy.roundToNearestEven] <;> omega

/-- The value that a rounded significand is kept as. -/
inductive Kept (s : Sign) (m : ℕ) (e : ℤ) : UnpackedFloat → Prop
  | zero (h : m = 0) : Kept s m e (.zero s)
  | same (h : 0 < m) (lt : m < 2 ^ 24) : Kept s m e (.finite s m e h)
  | carry (h : m = 2 ^ 24) : Kept s m e (.finite s (2 ^ 23) (e + 1) (by decide))

theorem kept_finish (s : Sign) {m : ℕ} {e : ℤ} (hm : m ≤ 2 ^ 24) (he : -149 ≤ e) :
    Kept s m e
      (if h : (shiftToTargetExponent .binary32 m e .exact).1.mantissa = 0 then .zero s
      else .finite s (shiftToTargetExponent .binary32 m e .exact).1.mantissa
        (shiftToTargetExponent .binary32 m e .exact).2 (Nat.pos_of_ne_zero h)) := by
  rcases Nat.lt_or_ge m (2 ^ 24) with hlt | hge
  · have hlog := log2_of_lt hlt
    have hzero : (target m e - e).toNat = 0 := by
      rw [target]
      omega
    have hstays : shiftToTargetExponent .binary32 m e .exact =
        (.ofMantissaAndAccuracy m .exact, e) := by
      simp only [shiftToTargetExponent, shiftToExponent, targetExponent_eq, hzero]
      exact Prod.ext rfl (Int.add_zero e)
    simp only [hstays, ofMantissaAndAccuracy_mantissa]
    split
    · rename_i hzero
      exact .zero hzero
    · rename_i hne
      exact .same (Nat.pos_of_ne_zero hne) hlt
  · obtain rfl : m = 2 ^ 24 := by omega
    have htarget : target (2 ^ 24) e = e + 1 := by
      rw [target, Nat.log2_two_pow]
      omega
    have hone : (e + 1 - e).toNat = 1 := by omega
    simp only [shiftToTargetExponent, shiftToExponent, targetExponent_eq, htarget, hone]
    exact .carry rfl

/-- Rounding drops the last digits of the significand and may add one to the rest. -/
theorem exists_kept (s : Sign) {m : ℕ} {e : ℤ} (acc : Accuracy) (h : e ≤ target m e) :
    ∃ n r : ℕ, e + n = target m e ∧ m / 2 ^ n ≤ r ∧ r ≤ m / 2 ^ n + 1 ∧
      Kept s r (e + n) (roundWithAccuracy .binary32 s m e acc) := by
  have hn : e + (target m e - e).toNat = target m e := by omega
  have hfirst : shiftToTargetExponent .binary32 m e acc =
      (ExtendedMantissa.ofMantissaAndAccuracy m acc >>> (target m e - e).toNat,
        e + (target m e - e).toNat) := by
    simp only [shiftToTargetExponent, shiftToExponent, targetExponent_eq]
  obtain ⟨hle, hge⟩ := roundedMantissa_bounds
    (ExtendedMantissa.ofMantissaAndAccuracy m acc >>> (target m e - e).toNat)
  rw [shiftRight_mantissa, ofMantissaAndAccuracy_mantissa] at hle hge
  have hquotient : m / 2 ^ (target m e - e).toNat < 2 ^ 24 := by
    rw [Nat.div_lt_iff_lt_mul (Nat.two_pow_pos _), ← Nat.pow_add]
    refine Nat.lt_log2_self.trans_le (Nat.pow_le_pow_right (by decide) ?_)
    rw [target] at hn ⊢
    omega
  refine ⟨(target m e - e).toNat, _, hn, hle, hge, ?_⟩
  have hleast : -149 ≤ e + (target m e - e).toNat := by
    rw [hn]
    exact le_max_right _ _
  have hkept := kept_finish s (hge.trans hquotient) hleast
  rw [roundWithAccuracy, hfirst]
  exact hkept

/-! ### Orders of magnitude -/

/-- A finite value of magnitude at least `2 ^ k`. -/
def AtLeast (u : UnpackedFloat) (k : ℤ) : Prop :=
  match u with
  | .finite _ m e _ => k ≤ m.log2 + e
  | .infinity _ | .notANumber | .zero _ => False

/-- A finite value of magnitude less than `2 ^ k`. -/
def Below (u : UnpackedFloat) (k : ℤ) : Prop :=
  match u with
  | .finite _ m e _ => m.log2 + e < k
  | .zero _ => True
  | .infinity _ | .notANumber => False

/-- Not below zero. -/
def IsNonneg : UnpackedFloat → Prop
  | .finite .positive _ _ _ | .infinity .positive | .zero _ => True
  | .finite .negative _ _ _ | .infinity .negative | .notANumber => False

theorem AtLeast.mono {u : UnpackedFloat} {k k' : ℤ} (h : u.AtLeast k) (hk : k' ≤ k) :
    u.AtLeast k' := by
  cases u with
  | finite => exact hk.trans h
  | infinity | notANumber | zero => exact h.elim

theorem Below.mono {u : UnpackedFloat} {k k' : ℤ} (h : u.Below k) (hk : k ≤ k') : u.Below k' := by
  cases u with
  | finite => exact lt_of_lt_of_le h hk
  | zero => trivial
  | infinity | notANumber => exact h.elim

/-- A value that fits is stored as it is. -/
theorem Below.stored_eq {u : UnpackedFloat} {k : ℤ} (h : u.Below k) (hu : u.IsRounded)
    (fits : k ≤ 128) : stored u = u := by
  cases u with
  | finite s m e hm =>
    have horder : m.log2 + e < k := h
    have hexponent : ¬104 < e := by
      intro hlt
      have hfull := log2_of_le (hu.2.2.resolve_right (by omega))
      omega
    rw [stored, if_neg hexponent]
  | infinity | notANumber | zero => rfl

theorem stored_eq_of_isFinite {u : UnpackedFloat} (h : (stored u).isFinite = true) :
    stored u = u := by
  cases u with
  | finite s m e hm =>
    rw [stored] at h ⊢
    split at h
    · cases h
    · rename_i hfits
      rw [if_neg hfits]
  | infinity | notANumber | zero => rfl

theorem IsNonneg.stored {u : UnpackedFloat} (h : u.IsNonneg) : u.stored.IsNonneg := by
  rcases u with _ | _ | _ | ⟨s, m, e, hm⟩
  case finite =>
    rw [UnpackedFloat.stored]
    split
    · cases s <;> exact h
    · exact h
  all_goals exact h

section Round

variable (s : Sign) {m : ℕ} {e : ℤ} (acc : Accuracy) (h : e ≤ target m e)

include h

theorem isRounded_round : IsRounded (roundWithAccuracy .binary32 s m e acc) := by
  obtain ⟨n, r, hn, hle, -, hkept⟩ := exists_kept s acc h
  generalize roundWithAccuracy .binary32 s m e acc = u at hkept
  rw [target] at hn
  cases hkept with
  | zero => trivial
  | carry => exact ⟨by decide, by omega, .inl le_rfl⟩
  | same hpos hlt =>
    refine ⟨hlt, by omega, ?_⟩
    by_cases hleast : e + n = -149
    · exact .inr hleast
    · have hfull : (m / 2 ^ n).log2 = 23 := by
        rw [log2_div_two_pow]
        omega
      have hquotient : m / 2 ^ n ≠ 0 := by
        intro hzero
        rw [hzero] at hfull
        cases hfull
      refine .inl (le_trans ?_ hle)
      rw [← hfull]
      exact Nat.log2_self_le hquotient

theorem atLeast_round (hm : m ≠ 0) (hleast : -149 ≤ m.log2 + e) :
    (roundWithAccuracy .binary32 s m e acc).AtLeast (m.log2 + e) := by
  obtain ⟨n, r, hn, hle, -, hkept⟩ := exists_kept s acc h
  generalize roundWithAccuracy .binary32 s m e acc = u at hkept
  rw [target] at hn
  have hlog := log2_div_two_pow m n
  have hmono := log2_mono hle
  have hpow : 2 ^ n ≤ m :=
    (Nat.pow_le_pow_right (by decide) (by omega)).trans (Nat.log2_self_le hm)
  have hquotient : 0 < m / 2 ^ n := Nat.div_pos hpow (Nat.two_pow_pos n)
  cases hkept with
  | zero hzero => omega
  | same hpos hlt =>
    show (m.log2 : ℤ) + e ≤ r.log2 + (e + n)
    omega
  | carry =>
    show (m.log2 : ℤ) + e ≤ (2 ^ 23 : ℕ).log2 + (e + n + 1)
    rw [Nat.log2_two_pow]
    omega

theorem below_round {k : ℤ} (hleast : -149 ≤ k) (hm : m.log2 + e < k) :
    (roundWithAccuracy .binary32 s m e acc).Below (k + 1) := by
  obtain ⟨n, r, hn, hle, hge, hkept⟩ := exists_kept s acc h
  generalize roundWithAccuracy .binary32 s m e acc = u at hkept
  rw [target] at hn h
  have hlog := log2_div_two_pow m n
  cases hkept with
  | zero hzero => trivial
  | same hpos hlt =>
    show (r.log2 : ℤ) + (e + n) < k + 1
    by_cases hquotient : m / 2 ^ n = 0
    · -- a value below the least one becomes at most the least one
      obtain rfl : r = 1 := by omega
      have hone : Nat.log2 1 = 0 := by decide
      rw [hquotient, Nat.log2_zero] at hlog
      omega
    · have hsucc := (log2_mono hge).trans (log2_succ_le hquotient)
      have hshift : n ≤ m.log2 := by
        by_contra hlt
        refine hquotient (Nat.div_eq_of_lt (Nat.lt_log2_self.trans_le ?_))
        exact Nat.pow_le_pow_right (by decide) (by omega)
      omega
  | carry hcarry =>
    show ((2 ^ 23 : ℕ).log2 : ℤ) + (e + n + 1) < k + 1
    have hfull : 23 ≤ (m / 2 ^ n).log2 := log2_of_le (by omega)
    rw [Nat.log2_two_pow]
    omega

theorem isNonneg_round : (roundWithAccuracy .binary32 .positive m e acc).IsNonneg := by
  obtain ⟨n, r, -, -, -, hkept⟩ := exists_kept .positive acc h
  generalize roundWithAccuracy .binary32 .positive m e acc = u at hkept
  cases hkept <;> trivial

end Round

end Float.Model.UnpackedFloat
