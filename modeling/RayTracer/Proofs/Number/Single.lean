import RayTracer.Proofs.Number.Magnitude

/-!
# Orders of magnitude in single precision

The bounds on decoded results, for the operations of machine numbers.  A result that is too large is
infinite, so a bound from below asks that the result is finite, while a bound from above that fits
the format shows that it is.

* `Float32.AtLeast`, `Float32.Below` : the order of magnitude of a finite number.
* `Float32.unpack_mul`, `Float32.unpack_add`, `Float32.unpack_sqrt`, `Float32.unpack_recip` : a
  result decodes to what is stored of the decoded result.
* `Float32.pos_iff`, `Float32.same_zero_iff` : the tests of numbers in these terms.
* `Float32.AtLeast.of_le_abs`, `Float32.Below.of_abs_le` : bounds that comparisons give.
-/

namespace Float32

open Float.Model UnpackedFloat

/-- Not below zero. -/
def IsNonneg (x : Float32) : Prop := x.toModel.unpack.IsNonneg

/-- Finite and of magnitude at least `2 ^ k`. -/
def AtLeast (x : Float32) (k : ℤ) : Prop := x.toModel.unpack.AtLeast k

/-- Finite and of magnitude less than `2 ^ k`. -/
def Below (x : Float32) (k : ℤ) : Prop := x.toModel.unpack.Below k

variable {x y : Float32} {i j k : ℤ}

theorem AtLeast.mono (h : x.AtLeast k) (hk : i ≤ k) : x.AtLeast i := UnpackedFloat.AtLeast.mono h hk

theorem Below.mono (h : x.Below k) (hk : k ≤ i) : x.Below i := UnpackedFloat.Below.mono h hk

theorem Below.isFinite (h : x.Below k) : x.isFinite = true := by
  change x.toModel.unpack.isFinite = true
  have h : x.toModel.unpack.Below k := h
  cases hx : x.toModel.unpack with
  | finite | zero => rfl
  | infinity | notANumber =>
    rw [hx] at h
    exact h.elim

/-- Finite values are less than `2 ^ 128`. -/
theorem below_of_isFinite (h : x.isFinite = true) : x.Below 128 := by
  have h : x.toModel.unpack.isFinite = true := h
  change x.toModel.unpack.Below 128
  cases hx : x.toModel.unpack with
  | finite s m e hm =>
    obtain ⟨hlt, -, hupper, -⟩ := of_unpack_eq_finite hx
    have hlog := RayTracer.log2_of_lt hlt
    show (m.log2 : ℤ) + e < 128
    omega
  | zero => trivial
  | infinity | notANumber =>
    rw [hx] at h
    cases h

/-- The results of operations are what is stored of the decoded results. -/
theorem unpack_mul (x y : Float32) : (x * y).toModel.unpack =
    stored (UnpackedFloat.mul .binary32 x.toModel.unpack y.toModel.unpack) :=
  unpack_pack (isRounded_mul (isRounded_unpack _) (isRounded_unpack _))

theorem unpack_add (hx : x.IsNonneg) (hy : y.IsNonneg) : (x + y).toModel.unpack =
    stored (UnpackedFloat.add .binary32 x.toModel.unpack y.toModel.unpack) :=
  unpack_pack (isRounded_add (isRounded_unpack _) (isRounded_unpack _) hx hy).1

theorem unpack_sqrt (x : Float32) :
    x.sqrt.toModel.unpack = stored (UnpackedFloat.sqrt .binary32 x.toModel.unpack) :=
  unpack_pack (isRounded_sqrt _)

theorem unpack_recip (x : Float32) :
    (1.0 / x).toModel.unpack = stored (UnpackedFloat.div .binary32 one x.toModel.unpack) :=
  unpack_pack (isRounded_recip _)

theorem unpack_toFloat32 (n : UInt32) :
    n.toFloat32.toModel.unpack = stored (UnpackedFloat.ofNat .binary32 n.toNat) :=
  unpack_pack (isRounded_ofNat _)

theorem atLeast_mul (hx : x.AtLeast i) (hy : y.AtLeast j) (least : -149 ≤ i + j)
    (finite : (x * y).isFinite = true) : (x * y).AtLeast (i + j) := by
  have hmul := unpack_mul x y
  have finite : (x * y).toModel.unpack.isFinite = true := finite
  rw [AtLeast, hmul, stored_eq_of_isFinite (hmul ▸ finite)]
  exact UnpackedFloat.atLeast_mul (isRounded_unpack _) (isRounded_unpack _) hx hy least

theorem below_mul (hx : x.Below i) (hy : y.Below j) (least : -149 ≤ i + j) (fits : i + j < 128) :
    (x * y).Below (i + j + 1) := by
  have h := UnpackedFloat.below_mul (isRounded_unpack _) (isRounded_unpack _) hx hy least
  rw [Below, unpack_mul, h.stored_eq (isRounded_mul (isRounded_unpack _) (isRounded_unpack _)) fits]
  exact h

/-- A square is not below zero. -/
theorem isNonneg_mul_self (hx : x.isFinite = true) : (x * x).IsNonneg := by
  have hnumber : x.toModel.unpack ≠ .notANumber := by
    intro h
    have hx : x.toModel.unpack.isFinite = true := hx
    rw [h] at hx
    cases hx
  rw [IsNonneg, unpack_mul]
  exact (UnpackedFloat.isNonneg_mul_self (isRounded_unpack _) hnumber).stored

theorem isNonneg_add (hx : x.IsNonneg) (hy : y.IsNonneg) : (x + y).IsNonneg := by
  rw [IsNonneg, unpack_add hx hy]
  exact (isRounded_add (isRounded_unpack _) (isRounded_unpack _) hx hy).2.stored

theorem atLeast_add (hx : x.IsNonneg) (hy : y.IsNonneg) (hk : x.isFinite = true)
    (hk' : y.isFinite = true) (finite : (x + y).isFinite = true) (h : x.AtLeast i ∨ y.AtLeast i) :
    (x + y).AtLeast i := by
  have hadd := unpack_add hx hy
  have finite : (x + y).toModel.unpack.isFinite = true := finite
  rw [AtLeast, hadd, stored_eq_of_isFinite (hadd ▸ finite)]
  exact UnpackedFloat.atLeast_add (isRounded_unpack _) (isRounded_unpack _) hx hy
    (below_of_isFinite hk) (below_of_isFinite hk') h

theorem below_add (hx : x.IsNonneg) (hy : y.IsNonneg) (hk : x.Below k) (hk' : y.Below k)
    (least : -150 ≤ k) (fits : k + 2 ≤ 128) : (x + y).Below (k + 2) := by
  have h := UnpackedFloat.below_add hx hy hk hk' least
  rw [Below, unpack_add hx hy,
    h.stored_eq (isRounded_add (isRounded_unpack _) (isRounded_unpack _) hx hy).1 fits]
  exact h

theorem isNonneg_sqrt (hx : x.IsNonneg) : x.sqrt.IsNonneg := by
  rw [IsNonneg, unpack_sqrt]
  exact (UnpackedFloat.isNonneg_sqrt hx).stored

theorem below_sqrt (hx : x.IsNonneg) (hk : x.Below (2 * k)) (least : -149 ≤ k)
    (fits : k < 128) : x.sqrt.Below (k + 1) := by
  have h := UnpackedFloat.below_sqrt hx hk least
  rw [Below, unpack_sqrt, h.stored_eq (isRounded_sqrt _) fits]
  exact h

theorem atLeast_sqrt (hx : x.IsNonneg) (hi : x.AtLeast (2 * i)) (finite : x.isFinite = true) :
    x.sqrt.AtLeast i := by
  have hroot := UnpackedFloat.below_sqrt (k := 64) hx (below_of_isFinite finite) (by decide)
  rw [AtLeast, unpack_sqrt, hroot.stored_eq (isRounded_sqrt _) (by decide)]
  exact UnpackedFloat.atLeast_sqrt (isRounded_unpack _) hx hi

theorem isNonneg_recip (hx : x.IsNonneg) (hi : x.AtLeast i) : (1.0 / x).IsNonneg := by
  rw [IsNonneg, unpack_recip]
  exact (UnpackedFloat.isNonneg_recip hx hi).stored

theorem below_recip (hi : x.AtLeast i) (least : -126 ≤ i) (fits : i ≤ 148) :
    (1.0 / x).Below (-i + 2) := by
  have h := UnpackedFloat.below_recip hi fits
  rw [Below, unpack_recip, h.stored_eq (isRounded_recip _) (by omega)]
  exact h

theorem atLeast_recip (hx : x.IsNonneg) (hk : x.Below k) (hi : x.AtLeast i)
    (finite : (1.0 / x).isFinite = true) (least : k ≤ 149) : (1.0 / x).AtLeast (-k) := by
  have hrecip := unpack_recip x
  have finite : (1.0 / x).toModel.unpack.isFinite = true := finite
  rw [AtLeast, hrecip, stored_eq_of_isFinite (hrecip ▸ finite)]
  exact UnpackedFloat.atLeast_recip hx hk hi least

/-! ### Operands of finite results -/

/-- Whole numbers in 32 bits are finite. -/
theorem isFinite_toFloat32 (n : UInt32) : n.toFloat32.isFinite = true := by
  have h : (UnpackedFloat.ofNat .binary32 n.toNat).Below (32 + 1) := below_ofNat n.toNat_lt
  refine Below.isFinite (k := 32 + 1) ?_
  rw [Below, unpack_toFloat32, h.stored_eq (isRounded_ofNat _) (by decide)]
  exact h

theorem isFinite_of_mul (h : (x * y).isFinite = true) : x.isFinite = true ∧ y.isFinite = true := by
  have h : (x * y).toModel.unpack.isFinite = true := h
  change x.toModel.unpack.isFinite = true ∧ y.toModel.unpack.isFinite = true
  rw [unpack_mul, stored_eq_of_isFinite (unpack_mul x y ▸ h)] at h
  cases hx : x.toModel.unpack <;> cases hy : y.toModel.unpack <;> rw [hx, hy] at h <;>
    first | exact ⟨rfl, rfl⟩ | cases h

theorem isFinite_of_add (h : (x + y).isFinite = true) : x.isFinite = true ∧ y.isFinite = true := by
  by_contra hne
  obtain ⟨hadd, hrounded⟩ :=
    UnpackedFloat.add_of_not_isFinite (u := x.toModel.unpack) (v := y.toModel.unpack) hne
  have h : (Model.pack (UnpackedFloat.add .binary32 x.toModel.unpack
    y.toModel.unpack)).unpack.isFinite = true := h
  rw [unpack_pack hrounded] at h
  rw [stored_eq_of_isFinite h, hadd] at h
  cases h

/-! ### Comparisons -/

theorem lt_iff_unpack : x < y ↔ x.toModel.unpack.lt y.toModel.unpack = true := by
  show decide (x.toModel < y.toModel) = true ↔ _
  rw [decide_eq_true_eq]
  rfl

theorem le_iff_unpack : x ≤ y ↔ x.toModel.unpack.le y.toModel.unpack = true := by
  show decide (x.toModel ≤ y.toModel) = true ↔ _
  rw [decide_eq_true_eq]
  rfl

/-- Finite and above zero. -/
theorem pos_iff : (0.0 : Float32) < x ∧ x.isFinite = true ↔ x.IsNonneg ∧ ∃ k, x.AtLeast k := by
  rw [lt_iff_unpack]
  exact UnpackedFloat.pos_iff

/-- The same as zero, up to its sign. -/
theorem same_zero_iff : RayTracer.Scalar.Same x 0.0 ↔ ∃ s, x.toModel.unpack = .zero s := by
  change x ≤ 0.0 ∧ 0.0 ≤ x ↔ _
  rw [le_iff_unpack, le_iff_unpack]
  exact UnpackedFloat.same_zero_iff

theorem unpack_abs (x : Float32) : x.abs.toModel.unpack = x.toModel.unpack.abs := by
  have hrounded := isRounded_unpack x.toModel
  have hstored : stored x.toModel.unpack.abs = x.toModel.unpack.abs := by
    cases hx : x.toModel.unpack with
    | finite s m e hm =>
      obtain ⟨-, -, hupper, -⟩ := of_unpack_eq_finite hx
      change stored (.finite .positive m e hm) = .finite .positive m e hm
      rw [stored, if_neg (by omega)]
    | infinity | notANumber | zero => rfl
  exact (unpack_pack (isRounded_abs hrounded)).trans hstored

/-- A bound from below on the absolute value. -/
theorem AtLeast.of_le_abs (hk : y.AtLeast k) (hpos : y.IsNonneg) (hx : x.isFinite = true)
    (h : y ≤ x.abs) : x.AtLeast k := by
  rw [le_iff_unpack, unpack_abs] at h
  have habs := UnpackedFloat.AtLeast.of_le hk (isRounded_unpack _)
    (isRounded_abs (isRounded_unpack x.toModel)) hpos ((isFinite_abs _).trans hx) h
  rw [AtLeast]
  cases hux : x.toModel.unpack <;> rw [hux] at habs <;> exact habs

/-- A bound from above on the absolute value. -/
theorem Below.of_abs_le (hk : y.Below k) (h : x.abs ≤ y) : x.Below k := by
  rw [le_iff_unpack, unpack_abs] at h
  have habs := UnpackedFloat.Below.of_le hk (isRounded_abs (isRounded_unpack x.toModel))
    (isRounded_unpack _) (isNonneg_abs h) h
  rw [Below]
  cases hux : x.toModel.unpack <;> rw [hux] at habs <;> exact habs

/-! ### Zero, and values without a reciprocal root -/

/-- Every magnitude but zero is at least the least one. -/
theorem AtLeast.least (h : x.AtLeast k) : x.AtLeast (-149) := by
  have hrounded := isRounded_unpack x.toModel
  rw [AtLeast] at h ⊢
  cases hx : x.toModel.unpack with
  | finite =>
    rw [hx] at hrounded
    exact hrounded.order_ge
  | infinity | notANumber | zero =>
    rw [hx] at h
    exact h.elim

theorem atLeast_or_below (h : x.isFinite = true) (k : ℤ) : x.AtLeast k ∨ x.Below k := by
  have h : x.toModel.unpack.isFinite = true := h
  rw [AtLeast, Below]
  cases hx : x.toModel.unpack with
  | finite => exact le_or_gt _ _
  | zero => exact .inr trivial
  | infinity | notANumber =>
    rw [hx] at h
    cases h

/-- A number that is not zero has an order of magnitude. -/
theorem AtLeast.exists_order (h : x.AtLeast i) :
    ∃ k ≥ i, k < 128 ∧ x.AtLeast k ∧ x.Below (k + 1) := by
  rw [AtLeast] at h
  have hupper : ∀ {s m e hm}, x.toModel.unpack = .finite s m e hm → m.log2 + e < 128 := by
    intro s m e hm hx
    obtain ⟨hlt, -, hexponent, -⟩ := of_unpack_eq_finite hx
    have hlog := RayTracer.log2_of_lt hlt
    omega
  simp only [AtLeast, Below]
  cases hx : x.toModel.unpack with
  | finite s m e hm =>
    rw [hx] at h
    exact ⟨m.log2 + e, h, hupper hx, le_refl _, Int.lt_succ _⟩
  | infinity | notANumber | zero =>
    rw [hx] at h
    exact h.elim

theorem AtLeast.not_same_zero (h : x.AtLeast k) : ¬RayTracer.Scalar.Same x 0.0 := by
  rw [same_zero_iff]
  rintro ⟨s, hs⟩
  rw [AtLeast, hs] at h
  exact h

theorem Below.same_zero (h : x.Below (-149)) : RayTracer.Scalar.Same x 0.0 := by
  rw [same_zero_iff]
  have hrounded := isRounded_unpack x.toModel
  rw [Below] at h
  cases hx : x.toModel.unpack with
  | finite =>
    rw [hx] at hrounded h
    exact absurd h (not_lt.2 hrounded.order_ge)
  | zero s => exact ⟨s, rfl⟩
  | infinity | notANumber =>
    rw [hx] at h
    exact h.elim

theorem same_zero_mul_self (h : RayTracer.Scalar.Same x 0.0) :
    RayTracer.Scalar.Same (x * x) 0.0 := by
  rw [same_zero_iff] at h ⊢
  obtain ⟨s, hs⟩ := h
  rw [unpack_mul, hs]
  exact ⟨_, rfl⟩

theorem same_zero_add (hx : RayTracer.Scalar.Same x 0.0) (hy : RayTracer.Scalar.Same y 0.0) :
    RayTracer.Scalar.Same (x + y) 0.0 := by
  rw [same_zero_iff] at hx hy ⊢
  obtain ⟨s, hs⟩ := hx
  obtain ⟨s', hs'⟩ := hy
  have hpos : x.IsNonneg := by
    rw [IsNonneg, hs]
    trivial
  have hpos' : y.IsNonneg := by
    rw [IsNonneg, hs']
    trivial
  rw [unpack_add hpos hpos', hs, hs']
  cases s <;> cases s' <;> exact ⟨_, rfl⟩

/-- Only positive finite numbers have a root with a positive finite reciprocal. -/
theorem pos_of_recip_sqrt
    (h : (0.0 : Float32) < 1.0 / x.sqrt ∧ (1.0 / x.sqrt).isFinite = true) :
    (0.0 : Float32) < x ∧ x.isFinite = true := by
  have hlt := lt_iff_unpack.1 h.1
  have hfinite : (1.0 / x.sqrt).toModel.unpack.isFinite = true := h.2
  rw [unpack_recip, unpack_sqrt] at hlt hfinite
  rw [lt_iff_unpack]
  change _ ∧ x.toModel.unpack.isFinite = true
  generalize x.toModel.unpack = u at *
  rcases u with (_ | _) | _ | (_ | _) | ⟨_ | _, m, e, hm⟩
  case finite.positive => exact ⟨rfl, rfl⟩
  all_goals first | (cases hlt; done) | cases hfinite

/-! ### Roots that are zero or infinite -/

theorem Below.not_isInf (h : x.Below k) : ¬x.isInf = true := by
  have h : x.toModel.unpack.Below k := h
  change ¬x.toModel.unpack.isInf = true
  generalize x.toModel.unpack = u at *
  cases u with
  | finite | zero => exact Bool.false_ne_true
  | infinity | notANumber => exact h.elim

/-- A square is not below zero, unless it is undefined. -/
theorem isNonneg_or_isNaN_mul_self (x : Float32) : (x * x).IsNonneg ∨ (x * x).isNaN = true := by
  by_cases hx : x.toModel.unpack = .notANumber
  · refine .inr ?_
    change (x * x).toModel.unpack.isNaN = true
    rw [unpack_mul, hx]
    rfl
  · rw [IsNonneg, unpack_mul]
    exact .inl (UnpackedFloat.isNonneg_mul_self (isRounded_unpack _) hx).stored

theorem isNonneg_or_isNaN_add (hx : x.IsNonneg ∨ x.isNaN = true)
    (hy : y.IsNonneg ∨ y.isNaN = true) :
    (x + y).IsNonneg ∨ (x + y).isNaN = true := by
  have hnan : ∀ z : Float32, z.isNaN = true → z.toModel.unpack = .notANumber := by
    intro z hz
    have hz : z.toModel.unpack.isNaN = true := hz
    cases h : z.toModel.unpack <;> rw [h] at hz <;> first | rfl | cases hz
  have hadd : (x + y).isNaN =
    (Model.pack (UnpackedFloat.add .binary32 x.toModel.unpack y.toModel.unpack)).unpack.isNaN := rfl
  rcases hx with hx | hx
  · rcases hy with hy | hy
    · exact .inl (isNonneg_add hx hy)
    · refine .inr ?_
      rw [hadd, hnan y hy, (add_notANumber _).1]
      rfl
  · refine .inr ?_
    rw [hadd, hnan x hx, (add_notANumber _).2]
    rfl

theorem isInf_iff (h : x.IsNonneg ∨ x.isNaN = true) :
    x.isInf = true ↔ x.toModel.unpack = .infinity .positive := by
  change x.toModel.unpack.IsNonneg ∨ x.toModel.unpack.isNaN = true at h
  change x.toModel.unpack.isInf = true ↔ _
  generalize x.toModel.unpack = u at *
  rcases u with (_ | _) | _ | _ | _
  case infinity.positive => exact iff_of_true rfl rfl
  case infinity.negative => exact absurd h (by rintro (h | h) <;> cases h)
  all_goals exact iff_of_false Bool.false_ne_true nofun

/-- A root is zero where its square is, and infinite where its square is. -/
theorem sqrt_degenerate_iff (x : Float32) :
    (RayTracer.Scalar.Same x.sqrt 0.0 ↔ RayTracer.Scalar.Same x 0.0) ∧
      (x.sqrt.isInf = true ↔ x.toModel.unpack = .infinity .positive) := by
  by_cases h : (0.0 : Float32) < x ∧ x.isFinite = true
  · obtain ⟨hpos, k, hk⟩ := pos_iff.1 h
    have hroot : x.sqrt.AtLeast (-75) := atLeast_sqrt hpos (hk.least.mono (by decide)) h.2
    have hroot' : x.sqrt.Below 65 :=
      below_sqrt (k := 64) hpos (below_of_isFinite h.2) (by decide) (by decide)
    refine ⟨iff_of_false hroot.not_same_zero hk.not_same_zero, iff_of_false hroot'.not_isInf ?_⟩
    intro hinf
    have hfinite : x.toModel.unpack.isFinite = true := h.2
    rw [hinf] at hfinite
    cases hfinite
  · rw [same_zero_iff, same_zero_iff]
    change _ ∧ (x.sqrt.toModel.unpack.isInf = true ↔ _)
    rw [unpack_sqrt]
    rw [lt_iff_unpack] at h
    change ¬(_ ∧ x.toModel.unpack.isFinite = true) at h
    generalize x.toModel.unpack = u at *
    rcases u with (_ | _) | _ | s | ⟨_ | _, m, e, hm⟩
    case finite.positive => exact absurd ⟨rfl, rfl⟩ h
    case zero => exact ⟨Iff.rfl, iff_of_false Bool.false_ne_true nofun⟩
    case infinity.positive => exact ⟨iff_of_false nofun nofun, iff_of_true rfl rfl⟩
    all_goals exact ⟨iff_of_false nofun nofun, iff_of_false Bool.false_ne_true nofun⟩

end Float32
