import Mathlib.Data.Nat.Sqrt
import RayTracer.Proofs.Number.Order
import RayTracer.Proofs.Number.Rounding

/-!
# Orders of magnitude of results

What each operation does to orders of magnitude: a product adds them, a sum of values that are not
below zero keeps the larger one, a square root halves it and a reciprocal negates it, each up to a
few units for carries.  The bounds are far from sharp.  They are there to tell values that stay
finite and nonzero from those that do not, and for that a factor of two does not matter.

* `exists_add`, `exists_sqrt`, `exists_recip` : **what an operation rounds**: a significand and an
  exponent whose order of magnitude follows from those of the operands.
* `atLeast_mul`, `below_mul`, and so on: the bounds that this gives for the result.
* `cases_of_le` : larger values have larger orders of magnitude.

Everything here is about decoded values, before they are stored.
-/

namespace RayTracer

/-! ### Logarithms of results -/

theorem log2_mul_bounds {m m' : ℕ} (hm : m ≠ 0) (hm' : m' ≠ 0) :
    m.log2 + m'.log2 ≤ (m * m').log2 ∧ (m * m').log2 ≤ m.log2 + m'.log2 + 1 := by
  have hne : m * m' ≠ 0 := Nat.mul_ne_zero hm hm'
  constructor
  · rw [Nat.le_log2 hne, Nat.pow_add]
    exact Nat.mul_le_mul (Nat.log2_self_le hm) (Nat.log2_self_le hm')
  · rw [← Nat.lt_succ_iff, Nat.log2_lt hne]
    have hlt := Nat.mul_lt_mul'' (Nat.lt_log2_self (n := m)) (Nat.lt_log2_self (n := m'))
    rw [← Nat.pow_add] at hlt
    have hsum : m.log2 + m'.log2 + 1 + 1 = m.log2 + 1 + (m'.log2 + 1) := by omega
    rwa [Nat.succ_eq_add_one, hsum]

theorem log2_add_le {m m' k : ℕ} (hm : m.log2 ≤ k) (hm' : m'.log2 ≤ k) :
    (m + m').log2 ≤ k + 1 := by
  have hlt : m < 2 ^ (k + 1) :=
    Nat.lt_log2_self.trans_le (Nat.pow_le_pow_right (by decide) (by omega))
  have hlt' : m' < 2 ^ (k + 1) :=
    Nat.lt_log2_self.trans_le (Nat.pow_le_pow_right (by decide) (by omega))
  have hsum : m + m' < 2 ^ (k + 1 + 1) := by
    rw [Nat.pow_succ]
    omega
  rcases Nat.eq_zero_or_pos (m + m') with hzero | hpos
  · rw [hzero, Nat.log2_zero]
    omega
  · exact Nat.lt_succ_iff.1 ((Nat.log2_lt hpos.ne').2 hsum)

theorem log2_shiftLeft {m : ℕ} (hm : m ≠ 0) (n : ℕ) : (m <<< n).log2 = m.log2 + n := by
  induction n with
  | zero => rfl
  | succ n ih =>
    rw [Nat.shiftLeft_succ, Nat.log2_two_mul, ih]
    · omega
    · rw [Nat.shiftLeft_eq]
      exact Nat.mul_ne_zero hm (Nat.two_pow_pos n).ne'

theorem log2_sqrt (m : ℕ) : m.sqrt.log2 = m.log2 / 2 := by
  rcases Nat.eq_zero_or_pos m with rfl | hpos
  · decide
  have hne : m.sqrt ≠ 0 := (Nat.sqrt_pos.2 hpos).ne'
  refine (Nat.log2_eq_iff hne).2 ⟨?_, ?_⟩
  · rw [Nat.le_sqrt, ← Nat.pow_add]
    refine (Nat.pow_le_pow_right (by decide) ?_).trans (Nat.log2_self_le hpos.ne')
    omega
  · rw [Nat.sqrt_lt, ← Nat.pow_add]
    refine Nat.lt_log2_self.trans_le (Nat.pow_le_pow_right (by decide) ?_)
    omega

theorem log2_two_pow_div {m n : ℕ} (hm : m ≠ 0) (h : m.log2 < n) :
    n ≤ (2 ^ n / m).log2 + m.log2 + 1 ∧ (2 ^ n / m).log2 + m.log2 ≤ n := by
  have hle : m ≤ 2 ^ n := (Nat.lt_log2_self.trans_le (Nat.pow_le_pow_right (by decide) h)).le
  have hne : 2 ^ n / m ≠ 0 := (Nat.div_pos hle (Nat.pos_of_ne_zero hm)).ne'
  constructor
  · have hlow : n - (m.log2 + 1) ≤ (2 ^ n / m).log2 := by
      rw [Nat.le_log2 hne, Nat.le_div_iff_mul_le (Nat.pos_of_ne_zero hm)]
      refine (Nat.mul_le_mul_left _ Nat.lt_log2_self.le).trans_eq ?_
      rw [← Nat.pow_add, Nat.sub_add_cancel h]
    omega
  · have hlog := (log2_mul_bounds hne hm).1
    have hmono := log2_mono (Nat.div_mul_le_self (2 ^ n) m)
    rw [Nat.log2_two_pow] at hmono
    omega

end RayTracer

namespace Float.Model.UnpackedFloat

open RayTracer

/-! ### Products -/

variable {u v : UnpackedFloat} {i j k : ℤ}

theorem exponent_le_target_mul {m m' : ℕ} {e e' : ℤ} (hm : m ≠ 0) (hm' : m' ≠ 0)
    (h : 2 ^ 23 ≤ m ∨ e = -149) (h' : 2 ^ 23 ≤ m' ∨ e' = -149) :
    e + e' ≤ target (m * m') (e + e') := by
  have hlog := (log2_mul_bounds hm hm').1
  rw [target]
  rcases h with h | h
  · have hfull := log2_of_le h
    omega
  · rcases h' with h' | h'
    · have hfull := log2_of_le h'
      omega
    · omega

theorem isRounded_mul (hu : u.IsRounded) (hv : v.IsRounded) : (mul .binary32 u v).IsRounded := by
  cases u with
  | finite s m e hm =>
    cases v with
    | finite s' m' e' hm' =>
      exact isRounded_round _ _ (exponent_le_target_mul hm.ne' hm'.ne' hu.2.2 hv.2.2)
    | infinity | notANumber | zero => trivial
  | infinity | notANumber | zero => cases v <;> trivial

theorem atLeast_mul (hu : u.IsRounded) (hv : v.IsRounded) (hi : u.AtLeast i) (hj : v.AtLeast j)
    (least : -149 ≤ i + j) : (mul .binary32 u v).AtLeast (i + j) := by
  cases u with
  | finite s m e hm =>
    cases v with
    | finite s' m' e' hm' =>
      have hlog := (log2_mul_bounds hm.ne' hm'.ne').1
      have hi : i ≤ m.log2 + e := hi
      have hj : j ≤ m'.log2 + e' := hj
      refine (atLeast_round (s * s') .exact ?_ (Nat.mul_ne_zero hm.ne' hm'.ne') ?_).mono ?_
      · exact exponent_le_target_mul hm.ne' hm'.ne' hu.2.2 hv.2.2
      · omega
      · omega
    | infinity | notANumber | zero => exact hj.elim
  | infinity | notANumber | zero => exact hi.elim

theorem below_mul (hu : u.IsRounded) (hv : v.IsRounded) (hi : u.Below i) (hj : v.Below j)
    (least : -149 ≤ i + j) : (mul .binary32 u v).Below (i + j + 1) := by
  cases u with
  | finite s m e hm =>
    cases v with
    | finite s' m' e' hm' =>
      have hlog := (log2_mul_bounds hm.ne' hm'.ne').2
      have hi : m.log2 + e < i := hi
      have hj : m'.log2 + e' < j := hj
      refine below_round (s * s') .exact ?_ least ?_
      · exact exponent_le_target_mul hm.ne' hm'.ne' hu.2.2 hv.2.2
      · omega
    | zero => trivial
    | infinity | notANumber => exact hj.elim
  | zero =>
    cases v with
    | finite | zero => trivial
    | infinity | notANumber => exact hj.elim
  | infinity | notANumber => exact hi.elim

theorem isNonneg_mul_self (hu : u.IsRounded) (hnumber : u ≠ .notANumber) :
    (mul .binary32 u u).IsNonneg := by
  cases u with
  | finite s m e hm =>
    have hsign : s * s = .positive := by cases s <;> rfl
    change (roundWithAccuracy .binary32 (s * s) (m * m) (e + e) .exact).IsNonneg
    rw [hsign]
    exact isNonneg_round .exact (exponent_le_target_mul hm.ne' hm.ne' hu.2.2 hu.2.2)
  | infinity s => cases s <;> trivial
  | zero => trivial
  | notANumber => exact absurd rfl hnumber

/-! ### Sums -/

theorem shiftLeft_ne_zero {m : ℕ} (hm : m ≠ 0) (n : ℕ) : m <<< n ≠ 0 := by
  rw [Nat.shiftLeft_eq]
  exact Nat.mul_ne_zero hm (Nat.two_pow_pos n).ne'

/-- A significand is extended on the right until it has its full length. -/
theorem exists_round (s : Sign) {m : ℕ} (e : ℤ) (hm : m ≠ 0) :
    ∃ m' e', m' ≠ 0 ∧ m'.log2 + e' = m.log2 + e ∧ e' ≤ target m' e' ∧
      round .binary32 s m e = roundWithAccuracy .binary32 s m' e' .exact := by
  have hlog := log2_shiftLeft hm (e - target m e).toNat
  refine ⟨m <<< (e - target m e).toNat, e - (e - target m e).toNat, shiftLeft_ne_zero hm _, ?_, ?_,
    ?_⟩
  · omega
  · have htarget : target m e = max (m.log2 + e - 23) (-149) := rfl
    generalize target m e = t at *
    rw [target, hlog]
    omega
  · simp only [round, targetExponent_eq, decreaseExponent]

/-- A positive whole number is rounded. -/
theorem ofNat_eq_round {n : ℕ} (hn : n ≠ 0) :
    ofNat .binary32 n = round .binary32 .positive n 0 := by
  have hpos : compare (n : ℤ) 0 = .gt := by
    rw [compare_gt_iff_gt]
    omega
  rw [ofNat, ofInt, normalize, hpos, Int.toNat_natCast]

theorem isRounded_ofNat (n : ℕ) : (ofNat .binary32 n).IsRounded := by
  by_cases hn : n = 0
  · rw [hn]
    trivial
  · obtain ⟨m, e, -, -, htarget, hround⟩ := exists_round .positive 0 hn
    rw [ofNat_eq_round hn, hround]
    exact isRounded_round _ _ htarget

theorem below_ofNat {n k : ℕ} (h : n < 2 ^ k) : (ofNat .binary32 n).Below (k + 1) := by
  by_cases hn : n = 0
  · rw [hn]
    trivial
  · obtain ⟨m, e, -, horder, htarget, hround⟩ := exists_round .positive 0 hn
    have hlog := (Nat.log2_lt hn).2 h
    rw [ofNat_eq_round hn, hround]
    exact below_round _ _ htarget (by omega) (by omega)

/-- The sum of two positive values. -/
theorem exists_add (m m' : ℕ) (e e' : ℤ) (hm : 0 < m) (hm' : 0 < m') :
    ∃ n t, n ≠ 0 ∧ t ≤ target n t ∧ m.log2 + e ≤ n.log2 + t ∧ m'.log2 + e' ≤ n.log2 + t ∧
      n.log2 + t ≤ max (m.log2 + e) (m'.log2 + e') + 1 ∧
      add .binary32 (.finite .positive m e hm) (.finite .positive m' e' hm') =
        roundWithAccuracy .binary32 .positive n t .exact := by
  have hlog := log2_shiftLeft hm.ne' (e - min e e').toNat
  have hlog' := log2_shiftLeft hm'.ne' (e' - min e e').toNat
  have hne := shiftLeft_ne_zero hm.ne' (e - min e e').toNat
  have hadd : add .binary32 (.finite .positive m e hm) (.finite .positive m' e' hm') =
      normalize .binary32
        ((m <<< (e - min e e').toNat : ℕ) + (m' <<< (e' - min e e').toNat : ℕ) : ℤ)
        (min e e') .positive := rfl
  -- both significands at the lower exponent
  generalize m <<< (e - min e e').toNat = a at *
  generalize m' <<< (e' - min e e').toNat = b at *
  obtain ⟨n, t, hn, horder, htarget, hround⟩ :=
    exists_round .positive (min e e') (show a + b ≠ 0 by omega)
  have hleft := log2_mono (Nat.le_add_right a b)
  have hright := log2_mono (Nat.le_add_left b a)
  have hupper := log2_add_le (le_max_left a.log2 b.log2) (le_max_right a.log2 b.log2)
  have hpos : compare ((a : ℤ) + b) 0 = .gt := by
    rw [compare_gt_iff_gt]
    omega
  refine ⟨n, t, hn, htarget, by omega, by omega, by omega, ?_⟩
  rw [hadd, normalize, hpos, ← hround]
  rfl

theorem isRounded_add (hu : u.IsRounded) (hv : v.IsRounded) (hpos : u.IsNonneg)
    (hpos' : v.IsNonneg) : (add .binary32 u v).IsRounded ∧ (add .binary32 u v).IsNonneg := by
  rcases u with (_ | _) | _ | _ | ⟨_ | _, m, e, hm⟩
  case finite.positive =>
    rcases v with (_ | _) | _ | _ | ⟨_ | _, m', e', hm'⟩
    case finite.positive =>
      obtain ⟨n, t, -, htarget, -, -, -, hadd⟩ := exists_add m m' e e' hm hm'
      rw [hadd]
      exact ⟨isRounded_round .positive .exact htarget, isNonneg_round .exact htarget⟩
    case infinity.positive => exact ⟨trivial, trivial⟩
    case zero => exact ⟨hu, hpos⟩
    all_goals exact hpos'.elim
  case infinity.positive =>
    rcases v with (_ | _) | _ | _ | ⟨_ | _, m', e', hm'⟩
    case infinity.negative | notANumber | finite.negative => exact hpos'.elim
    all_goals exact ⟨trivial, trivial⟩
  case zero s =>
    rcases v with (_ | _) | _ | s' | ⟨_ | _, m', e', hm'⟩
    case zero => cases s <;> cases s' <;> exact ⟨trivial, trivial⟩
    all_goals exact ⟨hv, hpos'⟩
  all_goals exact hpos.elim

/-- A finite value that is not below zero. -/
theorem cases_of_isNonneg (hpos : u.IsNonneg) (hk : u.Below k) :
    (∃ s, u = .zero s) ∨ ∃ m e hm, u = .finite .positive m e hm ∧ m.log2 + e < k := by
  rcases u with _ | _ | s | ⟨_ | _, m, e, hm⟩
  case zero => exact .inl ⟨s, rfl⟩
  case finite.positive => exact .inr ⟨m, e, hm, rfl, hk⟩
  case finite.negative => exact hpos.elim
  all_goals exact hk.elim

theorem IsRounded.order_ge {s : Sign} {m : ℕ} {e : ℤ} {hm : 0 < m}
    (h : (finite s m e hm).IsRounded) : -149 ≤ m.log2 + e := by
  have hleast := h.2.1
  omega

theorem atLeast_add (hu : u.IsRounded) (hv : v.IsRounded) (hpos : u.IsNonneg) (hpos' : v.IsNonneg)
    (hk : u.Below k) (hk' : v.Below k) (h : u.AtLeast i ∨ v.AtLeast i) :
    (add .binary32 u v).AtLeast i := by
  rcases cases_of_isNonneg hpos hk with ⟨s, rfl⟩ | ⟨m, e, hm, rfl, -⟩ <;>
    rcases cases_of_isNonneg hpos' hk' with ⟨s', rfl⟩ | ⟨m', e', hm', rfl, -⟩
  · exact h.elim False.elim False.elim
  · exact h.resolve_left id
  · exact h.resolve_right id
  · obtain ⟨n, t, hn, htarget, hleft, hright, -, hadd⟩ := exists_add m m' e e' hm hm'
    have hleast := hu.order_ge
    rw [hadd]
    refine (atLeast_round .positive .exact htarget hn (by omega)).mono ?_
    rcases h with h | h
    · exact le_trans h hleft
    · exact le_trans h hright

theorem below_add (hpos : u.IsNonneg) (hpos' : v.IsNonneg) (hk : u.Below k) (hk' : v.Below k)
    (least : -150 ≤ k) : (add .binary32 u v).Below (k + 2) := by
  rcases cases_of_isNonneg hpos hk with ⟨s, rfl⟩ | ⟨m, e, hm, rfl, horder⟩ <;>
    rcases cases_of_isNonneg hpos' hk' with ⟨s', rfl⟩ | ⟨m', e', hm', rfl, horder'⟩
  · cases s <;> cases s' <;> trivial
  · exact hk'.mono (by omega)
  · exact hk.mono (by omega)
  · obtain ⟨n, t, -, htarget, -, -, hupper, hadd⟩ := exists_add m m' e e' hm hm'
    rw [hadd]
    exact (below_round .positive .exact htarget (show -149 ≤ k + 1 by omega) (by omega)).mono
      (by omega)

theorem add_of_not_isFinite (h : ¬(u.isFinite = true ∧ v.isFinite = true)) :
    (add .binary32 u v).isFinite = false ∧ (add .binary32 u v).IsRounded := by
  rcases u with (_ | _) | _ | _ | _ <;> rcases v with (_ | _) | _ | _ | _ <;>
    first | exact ⟨rfl, trivial⟩ | exact absurd ⟨rfl, rfl⟩ h

theorem add_notANumber (u : UnpackedFloat) :
    add .binary32 u .notANumber = .notANumber ∧ add .binary32 .notANumber u = .notANumber := by
  cases u <;> exact ⟨rfl, rfl⟩

/-! ### Square roots -/

/-- The root of a positive value halves its order of magnitude. -/
theorem exists_sqrt (m : ℕ) (e : ℤ) (hm : 0 < m) :
    ∃ n t acc, n ≠ 0 ∧ t ≤ target n t ∧ n.log2 + t = (m.log2 + e) / 2 ∧
      sqrt .binary32 (.finite .positive m e hm) =
        roundWithAccuracy .binary32 .positive n t acc := by
  have htotal : Format.binary32.targetExponent ((totalExponent m e + 1).ediv 2) =
      max ((m.log2 + 1 + e + 1) / 2 - 24) (-149) := rfl
  have hsqrt : ∃ acc, sqrt .binary32 (.finite .positive m e hm) =
      roundWithAccuracy .binary32 .positive
        (m <<< (e - 2 * min (e / 2) (max ((m.log2 + 1 + e + 1) / 2 - 24) (-149))).toNat).sqrt
        (min (e / 2) (max ((m.log2 + 1 + e + 1) / 2 - 24) (-149))) acc := ⟨_, rfl⟩
  obtain ⟨acc, hsqrt⟩ := hsqrt
  generalize ht : min (e / 2) (max (((m.log2 : ℤ) + 1 + e + 1) / 2 - 24) (-149)) = t at *
  have hlog : ((m <<< (e - 2 * t).toNat).sqrt).log2 = (m.log2 + (e - 2 * t).toNat) / 2 := by
    rw [log2_sqrt, log2_shiftLeft hm.ne']
  have hne : (m <<< (e - 2 * t).toNat).sqrt ≠ 0 :=
    (Nat.sqrt_pos.2 (Nat.pos_of_ne_zero (shiftLeft_ne_zero hm.ne' _))).ne'
  generalize (m <<< (e - 2 * t).toNat).sqrt = n at *
  refine ⟨n, t, acc, hne, ?_, ?_, hsqrt⟩
  · rw [target]
    omega
  · omega

theorem isRounded_sqrt (u : UnpackedFloat) : (sqrt .binary32 u).IsRounded := by
  rcases u with (_ | _) | _ | _ | ⟨_ | _, m, e, hm⟩
  case finite.positive =>
    obtain ⟨n, t, acc, -, htarget, -, hsqrt⟩ := exists_sqrt m e hm
    rw [hsqrt]
    exact isRounded_round .positive acc htarget
  all_goals trivial

theorem isNonneg_sqrt (hpos : u.IsNonneg) : (sqrt .binary32 u).IsNonneg := by
  rcases u with (_ | _) | _ | _ | ⟨_ | _, m, e, hm⟩
  case finite.positive =>
    obtain ⟨n, t, acc, -, htarget, -, hsqrt⟩ := exists_sqrt m e hm
    rw [hsqrt]
    exact isNonneg_round acc htarget
  case infinity.positive | zero => trivial
  all_goals exact hpos.elim

theorem atLeast_sqrt (hu : u.IsRounded) (hpos : u.IsNonneg) (h : u.AtLeast (2 * i)) :
    (sqrt .binary32 u).AtLeast i := by
  rcases u with (_ | _) | _ | _ | ⟨_ | _, m, e, hm⟩
  case finite.positive =>
    obtain ⟨n, t, acc, hn, htarget, horder, hsqrt⟩ := exists_sqrt m e hm
    have h : 2 * i ≤ m.log2 + e := h
    have hleast := hu.order_ge
    rw [hsqrt]
    exact (atLeast_round .positive acc htarget hn (by omega)).mono (by omega)
  case finite.negative => exact hpos.elim
  all_goals exact h.elim

theorem below_sqrt (hpos : u.IsNonneg) (h : u.Below (2 * k)) (least : -149 ≤ k) :
    (sqrt .binary32 u).Below (k + 1) := by
  rcases cases_of_isNonneg hpos h with ⟨s, rfl⟩ | ⟨m, e, hm, rfl, horder⟩
  · trivial
  · obtain ⟨n, t, acc, hn, htarget, hhalf, hsqrt⟩ := exists_sqrt m e hm
    rw [hsqrt]
    exact below_round .positive acc htarget least (by omega)

/-! ### Reciprocals -/

/-- The value one. -/
def one : UnpackedFloat := .finite .positive (2 ^ 23) (-23) (by decide)

/-- The reciprocal negates the order of magnitude, up to one. -/
theorem exists_recip (s : Sign) (m : ℕ) (e : ℤ) (hm : 0 < m) :
    ∃ n t acc, t ≤ target n t ∧ n.log2 + t ≤ max (-(m.log2 + e)) (-149) ∧
      (m.log2 + e ≤ 148 → n ≠ 0 ∧ -(m.log2 + e) - 1 ≤ n.log2 + t) ∧
      div .binary32 one (.finite s m e hm) =
        roundWithAccuracy .binary32 (.positive / s) n t acc := by
  have hdiv : ∃ acc, div .binary32 one (.finite s m e hm) =
      roundWithAccuracy .binary32 (.positive / s)
        ((2 ^ 23) <<< (-23 - e - min (-23 - e)
          (max ((2 ^ 23 : ℕ).log2 + 1 + -23 - (m.log2 + 1 + e) - 24) (-149))).toNat / m)
        (min (-23 - e) (max ((2 ^ 23 : ℕ).log2 + 1 + -23 - (m.log2 + 1 + e) - 24) (-149))) acc :=
    ⟨_, rfl⟩
  obtain ⟨acc, hdiv⟩ := hdiv
  rw [Nat.log2_two_pow] at hdiv
  generalize ht : min (-23 - e)
    (max (((23 : ℕ) : ℤ) + 1 + -23 - (m.log2 + 1 + e) - 24) (-149)) = t at *
  have hpow : (2 ^ 23) <<< (-23 - e - t).toNat = 2 ^ (23 + (-23 - e - t).toNat) := by
    rw [Nat.shiftLeft_eq, ← Nat.pow_add]
  rw [hpow] at hdiv
  have hquotient := log2_two_pow_div (n := 23 + (-23 - e - t).toNat) hm.ne'
  have hsmall : 23 + (-23 - e - t).toNat ≤ m.log2 →
      (2 ^ (23 + (-23 - e - t).toNat) / m).log2 = 0 := by
    intro hle
    have hone : 2 ^ (23 + (-23 - e - t).toNat) / m ≤ 1 := by
      rw [← Nat.lt_succ_iff, Nat.div_lt_iff_lt_mul hm]
      have hself := (Nat.pow_le_pow_right (by decide : 0 < 2) hle).trans (Nat.log2_self_le hm.ne')
      omega
    exact Nat.le_zero.1 (log2_mono hone)
  have hne : m.log2 < 23 + (-23 - e - t).toNat → 2 ^ (23 + (-23 - e - t).toNat) / m ≠ 0 := by
    intro hlt
    have hle := Nat.lt_log2_self.trans_le
      (Nat.pow_le_pow_right (by decide : 0 < 2) (Nat.succ_le_of_lt hlt))
    exact (Nat.div_pos hle.le hm).ne'
  generalize 2 ^ (23 + (-23 - e - t).toNat) / m = q at *
  refine ⟨q, t, acc, ?_, ?_, ?_, hdiv⟩
  · rw [target]
    omega
  · omega
  · intro hupper
    refine ⟨hne (by omega), by omega⟩

theorem isRounded_recip (u : UnpackedFloat) : (div .binary32 one u).IsRounded := by
  cases u with
  | finite s m e hm =>
    obtain ⟨n, t, acc, htarget, -, -, hdiv⟩ := exists_recip s m e hm
    rw [hdiv]
    exact isRounded_round _ acc htarget
  | infinity | notANumber | zero => trivial

theorem isNonneg_recip (hpos : u.IsNonneg) (hk : u.AtLeast k) :
    (div .binary32 one u).IsNonneg := by
  rcases u with (_ | _) | _ | _ | ⟨_ | _, m, e, hm⟩
  case finite.positive =>
    obtain ⟨n, t, acc, htarget, -, -, hdiv⟩ := exists_recip .positive m e hm
    rw [hdiv]
    exact isNonneg_round acc htarget
  case finite.negative => exact hpos.elim
  all_goals exact hk.elim

theorem atLeast_recip (hpos : u.IsNonneg) (hk : u.Below k) (hi : u.AtLeast i) (least : k ≤ 149) :
    (div .binary32 one u).AtLeast (-k) := by
  rcases cases_of_isNonneg hpos hk with ⟨s, rfl⟩ | ⟨m, e, hm, rfl, horder⟩
  · exact hi.elim
  · obtain ⟨n, t, acc, htarget, -, hlower, hdiv⟩ := exists_recip .positive m e hm
    obtain ⟨hn, hlower⟩ := hlower (by omega)
    rw [hdiv]
    exact (atLeast_round _ acc htarget hn (by omega)).mono (by omega)

theorem below_recip (h : u.AtLeast i) (least : i ≤ 148) :
    (div .binary32 one u).Below (-i + 2) := by
  cases u with
  | finite s m e hm =>
    obtain ⟨n, t, acc, htarget, hupper, -, hdiv⟩ := exists_recip s m e hm
    have h : i ≤ m.log2 + e := h
    rw [hdiv]
    exact (below_round _ acc htarget (show -149 ≤ -i + 1 by omega) (by omega)).mono (by omega)
  | infinity | notANumber | zero => exact h.elim

/-! ### Comparisons -/

/-- Finite and above zero. -/
theorem pos_iff : (zero .positive).lt u = true ∧ u.isFinite = true ↔
    u.IsNonneg ∧ ∃ k, u.AtLeast k := by
  rcases u with (_ | _) | _ | _ | ⟨_ | _, m, e, hm⟩
  case finite.positive =>
    exact ⟨fun _ => ⟨trivial, _, le_refl (m.log2 + e)⟩, fun _ => ⟨rfl, rfl⟩⟩
  all_goals
    constructor
    · rintro ⟨hlt, hfinite⟩
      first | (cases hlt; done) | cases hfinite
    · rintro ⟨hpos, k, hk⟩
      first | (cases hpos; done) | cases hk

theorem same_zero_iff : u.le (zero .positive) = true ∧ (zero .positive).le u = true ↔
    ∃ s, u = .zero s := by
  rcases u with (_ | _) | _ | s | ⟨_ | _, m, e, hm⟩
  case zero => exact ⟨fun _ => ⟨s, rfl⟩, fun _ => ⟨rfl, rfl⟩⟩
  all_goals
    constructor
    · rintro ⟨hle, hge⟩
      first | (cases hle; done) | cases hge
    · rintro ⟨s, h⟩
      cases h

/-- What a positive value is compared with decides its order of magnitude. -/
theorem cases_of_le {m : ℕ} {e : ℤ} {hm : 0 < m} (hu : (finite .positive m e hm).IsRounded)
    (hv : v.IsRounded) (h : (finite .positive m e hm).le v = true) :
    v = .infinity .positive ∨
      ∃ m' e' hm', v = .finite .positive m' e' hm' ∧ m.log2 + e ≤ m'.log2 + e' := by
  rcases v with (_ | _) | _ | _ | ⟨_ | _, m', e', hm'⟩
  case infinity.positive => exact .inl rfl
  case finite.positive =>
    refine .inr ⟨m', e', hm', rfl, ?_⟩
    have hcompare : ((compare e e').then (compare m m')).isLE = true := h
    rcases (Float32.isLE_then_compare e e' m m').1 hcompare with hlt | ⟨rfl, hle⟩
    · have hlog := log2_of_lt hu.1
      have hleast := hu.2.1
      have hfull := log2_of_le (hv.2.2.resolve_right (by omega))
      omega
    · have hlog := log2_mono hle
      omega
  all_goals nomatch h

/-- A finite value that is not below a positive one is at least as large. -/
theorem AtLeast.of_le (hk : u.AtLeast k) (hu : u.IsRounded) (hv : v.IsRounded) (hpos : u.IsNonneg)
    (finite : v.isFinite = true) (h : u.le v = true) : v.AtLeast k := by
  rcases u with (_ | _) | _ | _ | ⟨_ | _, m, e, hm⟩
  case finite.positive =>
    rcases cases_of_le hu hv h with rfl | ⟨m', e', hm', rfl, horder⟩
    · nomatch finite
    · exact le_trans hk horder
  case finite.negative => exact hpos.elim
  all_goals exact hk.elim

/-- A value from zero up to a finite one is at most as large. -/
theorem Below.of_le (hk : v.Below k) (hu : u.IsRounded) (hv : v.IsRounded) (hpos : u.IsNonneg)
    (h : u.le v = true) : u.Below k := by
  rcases u with (_ | _) | _ | _ | ⟨_ | _, m, e, hm⟩
  case finite.positive =>
    rcases cases_of_le hu hv h with rfl | ⟨m', e', hm', rfl, horder⟩
    · exact hk.elim
    · exact lt_of_le_of_lt horder hk
  case zero => trivial
  case infinity.positive =>
    rcases v with (_ | _) | _ | _ | _
    case infinity.positive => exact hk
    all_goals nomatch h
  all_goals exact hpos.elim

theorem isRounded_abs (hu : u.IsRounded) : u.abs.IsRounded := by
  cases u <;> exact hu

theorem isFinite_abs (u : UnpackedFloat) : u.abs.isFinite = u.isFinite := by
  cases u <;> rfl

/-- An absolute value that compares is not below zero. -/
theorem isNonneg_abs (h : u.abs.le v = true) : u.abs.IsNonneg := by
  cases u with
  | finite | zero | infinity => trivial
  | notANumber => nomatch h

end Float.Model.UnpackedFloat
