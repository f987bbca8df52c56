import RayTracer.Geometry.Vec3
import RayTracer.Proofs.Number.Single

/-!
# Which vectors have a direction

`Vec3.normalize` divides by a length whose square is computed first.  That square may round to zero
or overflow although the vector is neither zero nor infinite, and then the direction is lost.

* `Vec3.HasLength` : the squared length is positive and finite in single precision.
* `Vec3.normalize_same_zero_iff` : **a vector is normalized to zero exactly if it has no length in
  this sense.**
* `Vec3.isFinite_normalize` : whatever the vector is, its direction is finite.
* `Vec3.hasLength_of_bounds` : vectors with components of moderate size have a length.
-/

namespace RayTracer

namespace Vec3

open Float32

/-- The three components. -/
def components (v : Vec3 Float32) : List Float32 := [v.x, v.y, v.z]

/-- The squared length, as it is computed, neither rounds to zero nor overflows. -/
def HasLength (v : Vec3 Float32) : Prop :=
  (0.0 : Float32) < v.dot v ∧ (v.dot v).isFinite = true

variable {v : Vec3 Float32} {c : Float32} {k : ℤ}

theorem mem_components : c ∈ v.components ↔ c = v.x ∨ c = v.y ∨ c = v.z := by
  simp only [components, List.mem_cons, List.not_mem_nil, or_false]

theorem forall_components {P : Float32 → Prop} :
    (∀ c ∈ v.components, P c) ↔ P v.x ∧ P v.y ∧ P v.z := by
  simp [components]

theorem components_smul (v : Vec3 Float32) (s : Float32) :
    (v * s).components = v.components.map (· * s) := rfl

/-! ### The squared length -/

theorem isFinite_of_dot (h : (v.dot v).isFinite = true) (hc : c ∈ v.components) :
    c.isFinite = true ∧ (c * c).isFinite = true := by
  obtain ⟨hxy, hz⟩ := isFinite_of_add h
  obtain ⟨hx, hy⟩ := isFinite_of_add hxy
  rcases mem_components.1 hc with rfl | rfl | rfl
  · exact ⟨(isFinite_of_mul hx).1, hx⟩
  · exact ⟨(isFinite_of_mul hy).1, hy⟩
  · exact ⟨(isFinite_of_mul hz).1, hz⟩

theorem isNonneg_dot (h : ∀ c ∈ v.components, c.isFinite = true) : (v.dot v).IsNonneg := by
  obtain ⟨hx, hy, hz⟩ := forall_components.1 h
  exact isNonneg_add (isNonneg_add (isNonneg_mul_self hx) (isNonneg_mul_self hy))
    (isNonneg_mul_self hz)

theorem atLeast_dot (finite : (v.dot v).isFinite = true) (hc : c ∈ v.components)
    (hk : c.AtLeast k) (least : -149 ≤ k + k) : (v.dot v).AtLeast (k + k) := by
  have hsquare : (c * c).AtLeast (k + k) := atLeast_mul hk hk least (isFinite_of_dot finite hc).2
  obtain ⟨hxy, hz⟩ := isFinite_of_add finite
  obtain ⟨hx, hy⟩ := isFinite_of_add hxy
  have hx' := isNonneg_mul_self (isFinite_of_mul hx).1
  have hy' := isNonneg_mul_self (isFinite_of_mul hy).1
  have hz' := isNonneg_mul_self (isFinite_of_mul hz).1
  refine atLeast_add (isNonneg_add hx' hy') hz' hxy hz finite ?_
  rcases mem_components.1 hc with rfl | rfl | rfl
  · exact .inl (atLeast_add hx' hy' hx hy hxy (.inl hsquare))
  · exact .inl (atLeast_add hx' hy' hx hy hxy (.inr hsquare))
  · exact .inr hsquare

theorem below_dot (h : ∀ c ∈ v.components, c.Below k) (least : -149 ≤ k + k)
    (fits : k + k + 5 ≤ 128) : (v.dot v).Below (k + k + 5) := by
  have hsquare : ∀ c ∈ v.components, (c * c).IsNonneg ∧ (c * c).Below (k + k + 1) := fun c hc =>
    ⟨isNonneg_mul_self (h c hc).isFinite, below_mul (h c hc) (h c hc) least (by omega)⟩
  obtain ⟨⟨hx, hkx⟩, ⟨hy, hky⟩, hz, hkz⟩ := forall_components.1 hsquare
  have hxy := below_add hx hy hkx hky (by omega) (by omega)
  exact (below_add (isNonneg_add hx hy) hz hxy (hkz.mono (by omega)) (by omega) (by omega)).mono
    (by omega)

theorem same_zero_dot (h : ∀ c ∈ v.components, Scalar.Same c 0.0) :
    Scalar.Same (v.dot v) 0.0 := by
  obtain ⟨hx, hy, hz⟩ := forall_components.1 h
  exact same_zero_add (same_zero_add (same_zero_mul_self hx) (same_zero_mul_self hy))
    (same_zero_mul_self hz)

/-- Vectors with a component that is not too small, and none that is too large, have a length. -/
theorem hasLength_of_bounds (hc : c ∈ v.components) (hk : c.AtLeast (-74))
    (h : ∀ c ∈ v.components, c.Below 61) : v.HasLength := by
  have hfinite := (below_dot h (by decide) (by decide)).isFinite
  exact pos_iff.2 ⟨isNonneg_dot fun c hc => (h c hc).isFinite, _,
    atLeast_dot hfinite hc hk (by decide)⟩

/-- The length is zero or infinite where its square is. -/
theorem length_degenerate_iff (v : Vec3 Float32) :
    (Scalar.Same v.length 0.0 ↔ Scalar.Same (v.dot v) 0.0) ∧
      (v.length.isInf = true ↔ (v.dot v).isInf = true) := by
  have hdot : (v.dot v).IsNonneg ∨ (v.dot v).isNaN = true :=
    isNonneg_or_isNaN_add
      (isNonneg_or_isNaN_add (isNonneg_or_isNaN_mul_self _) (isNonneg_or_isNaN_mul_self _))
      (isNonneg_or_isNaN_mul_self _)
  rw [isInf_iff hdot]
  exact sqrt_degenerate_iff (v.dot v)

/-! ### The reciprocal of the length -/

/-- What a vector is scaled by. -/
def reciprocal (v : Vec3 Float32) : Float32 := 1.0 / v.length

theorem isNonneg_length (h : v.HasLength) : v.length.IsNonneg := isNonneg_sqrt (pos_iff.1 h).1

theorem atLeast_length (h : v.HasLength) : v.length.AtLeast (-75) := by
  obtain ⟨hpos, k, hk⟩ := pos_iff.1 h
  exact atLeast_sqrt hpos (hk.least.mono (by decide)) h.2

theorem below_length (h : v.HasLength) : v.length.Below 65 :=
  below_sqrt (k := 64) (pos_iff.1 h).1 (below_of_isFinite h.2) (by decide) (by decide)

theorem below_reciprocal (h : v.HasLength) : v.reciprocal.Below 77 :=
  below_recip (atLeast_length h) (by decide) (by decide)

theorem atLeast_reciprocal (h : v.HasLength) : v.reciprocal.AtLeast (-65) :=
  atLeast_recip (isNonneg_length h) (below_length h) (atLeast_length h)
    (below_reciprocal h).isFinite (by decide)

theorem HasLength.normalize_eq (h : v.HasLength) : v.normalize = v * v.reciprocal := by
  have hpos : (0.0 : Float32) < v.reciprocal ∧ v.reciprocal.isFinite = true :=
    pos_iff.2 ⟨isNonneg_recip (isNonneg_length h) (atLeast_length h), _, atLeast_reciprocal h⟩
  exact if_pos hpos.symm

theorem normalize_eq_zero (h : ¬v.HasLength) : v.normalize = .zero :=
  if_neg fun hrecip => h (pos_of_recip_sqrt ⟨hrecip.2, hrecip.1⟩)

/-! ### Directions -/

/-- The components of a direction are less than sixteen, whether the vector is long or short. -/
theorem below_direction (h : v.HasLength) (hc : c ∈ v.components) :
    (c * v.reciprocal).Below 4 := by
  have hfinite := (isFinite_of_dot h.2 hc).1
  rcases atLeast_or_below hfinite (-74) with hlarge | hsmall
  · -- the length is at least the component
    obtain ⟨k, hge, hlt, hk, hk'⟩ := hlarge.exists_order
    have hlength : v.length.AtLeast k :=
      atLeast_sqrt (pos_iff.1 h).1 ((atLeast_dot h.2 hc hk (by omega)).mono (by omega)) h.2
    have hreciprocal : v.reciprocal.Below (-k + 2) := below_recip hlength (by omega) (by omega)
    exact (below_mul hk' hreciprocal (by omega) (by omega)).mono (by omega)
  · exact below_mul (i := -74) (j := 77) hsmall (below_reciprocal h) (by decide) (by decide)

/-- Whatever the vector is, its direction is finite. -/
theorem isFinite_normalize (v : Vec3 Float32) :
    ∀ c ∈ v.normalize.components, c.isFinite = true := by
  by_cases h : v.HasLength
  · intro c hc
    rw [h.normalize_eq, components_smul] at hc
    obtain ⟨c', hc', rfl⟩ := List.mem_map.1 hc
    exact (below_direction h hc').isFinite
  · rw [normalize_eq_zero h]
    decide +kernel

/-- **A vector is normalized to zero exactly if it has no length.** -/
theorem normalize_same_zero_iff : v.normalize.Same .zero ↔ ¬v.HasLength := by
  constructor
  · intro hzero h
    have hsame : ∀ c ∈ v.components, Scalar.Same (c * v.reciprocal) 0.0 := by
      rw [h.normalize_eq] at hzero
      exact forall_components.2 hzero
    have hbelow : ∀ {i j : ℤ}, v.reciprocal.AtLeast j → -149 ≤ i + j →
        ∀ c ∈ v.components, c.Below i := by
      intro i j hreciprocal hleast c hc
      refine (atLeast_or_below (isFinite_of_dot h.2 hc).1 i).resolve_left fun hi => ?_
      exact (atLeast_mul hi hreciprocal hleast (below_direction h hc).isFinite).not_same_zero
        (hsame c hc)
    -- a short vector is scaled by more, so that its components would have to be zero
    have hshort : ∀ c ∈ v.components, c.Below (-74) := fun c hc =>
      (hbelow (i := -84) (atLeast_reciprocal h) (by decide) c hc).mono (by decide)
    have hdot : (v.dot v).Below (2 * -71) :=
      (below_dot hshort (by decide) (by decide)).mono (by decide)
    have hlength : v.length.Below (-70) := below_sqrt (pos_iff.1 h).1 hdot (by decide) (by decide)
    have hreciprocal : v.reciprocal.AtLeast 70 := atLeast_recip (isNonneg_length h) hlength
      (atLeast_length h) (below_reciprocal h).isFinite (by decide)
    obtain ⟨-, k, hk⟩ := pos_iff.1 h
    exact hk.not_same_zero (same_zero_dot fun c hc =>
      (hbelow (i := -149) hreciprocal (by decide) c hc).same_zero)
  · intro h
    rw [normalize_eq_zero h]
    decide +kernel

end Vec3

end RayTracer
