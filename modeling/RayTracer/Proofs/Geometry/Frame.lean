import RayTracer.Proofs.Geometry.ExactVectors

/-!
# Upright frames

A direction that is not vertical determines two further unit vectors: a horizontal one across it and
one that points upward from it.  All three are built from vector products over a field.

* `Vec3.IsFrame` : three unit vectors, orthogonal to each other, the second one horizontal and the
  third one upward.
* `Vec3.isFrame_unit` : **every direction that is not vertical has such a frame.**
* `Vec3.IsFrame.unit_injective` : vectors of one component along the first direction stay different
  when they are scaled to unit length.
-/

namespace RayTracer

namespace Vec3

variable {K : Type} [Field K]

/-- The vector product. -/
def wedge (v w : Vec3 K) : Vec3 K :=
  ⟨v.y * w.z - v.z * w.y, v.z * w.x - v.x * w.z, v.x * w.y - v.y * w.x⟩

section Products

variable (v w : Vec3 K)

theorem inner_wedge_left : v.inner (v.wedge w) = 0 := by
  simp only [inner, wedge]
  ring

theorem inner_wedge_right : w.inner (v.wedge w) = 0 := by
  simp only [inner, wedge]
  ring

/-- The product of a vector with a product that contains it. -/
theorem wedge_wedge : v.wedge (w.wedge v) = w * v.inner v - v * v.inner w := by
  simp only [wedge, inner, sub_mk, mul_mk]
  congr 1 <;> ring

/-- The square of the length of a product. -/
theorem inner_wedge_self :
    (v.wedge w).inner (v.wedge w) = v.inner v * w.inner w - v.inner w * v.inner w := by
  simp only [inner, wedge]
  ring

/-- What is across a direction and horizontal. -/
theorem wedge_upward : v.wedge ⟨0, 1, 0⟩ = ⟨-v.z, 0, v.x⟩ := by
  simp [wedge]

end Products

/-- A multiple of the vector `(0, 1, 0)`. -/
def IsVertical (v : Vec3 K) : Prop := ∃ s : K, v = (⟨0, 1, 0⟩ : Vec3 K) * s

theorem isVertical_iff (v : Vec3 K) : v.IsVertical ↔ v.x = 0 ∧ v.z = 0 := by
  constructor
  · rintro ⟨s, rfl⟩
    simp [mul_mk]
  · rintro ⟨hx, hz⟩
    refine ⟨v.y, ?_⟩
    calc v = ⟨v.x, v.y, v.z⟩ := rfl
      _ = (⟨0, 1, 0⟩ : Vec3 K) * v.y := by simp [mul_mk, hx, hz]

variable [LinearOrder K]

/-- Three unit vectors, orthogonal to each other, of which `r` is horizontal and `u` is upward. -/
structure IsFrame (f r u : Vec3 K) : Prop where
  forward_self : f.inner f = 1
  right_self : r.inner r = 1
  up_self : u.inner u = 1
  forward_right : f.inner r = 0
  forward_up : f.inner u = 0
  right_up : r.inner u = 0
  wedge_eq : f.wedge u = r
  up_pos : 0 < u.y
  right_level : r.y = 0

/-! ### Components in a frame -/

namespace IsFrame

variable {f r u : Vec3 K} (h : IsFrame f r u) (a b : K)
include h

theorem inner_forward : (f + r * a + u * b).inner f = 1 := by
  rw [inner_add_mul_left, inner_add_mul_left, h.forward_self, inner_comm r, h.forward_right,
    inner_comm u, h.forward_up]
  ring

theorem inner_right : (f + r * a + u * b).inner r = a := by
  rw [inner_add_mul_left, inner_add_mul_left, h.forward_right, h.right_self, inner_comm u,
    h.right_up]
  ring

theorem inner_up : (f + r * a + u * b).inner u = b := by
  rw [inner_add_mul_left, inner_add_mul_left, h.forward_up, h.right_up, h.up_self]
  ring

end IsFrame

variable [IsStrictOrderedRing K] [HasRoots K]

namespace IsFrame

variable {f r u : Vec3 K} (h : IsFrame f r u)
include h

theorem size_pos (a b : K) : 0 < (f + r * a + u * b).size := by
  refine Vec3.size_pos fun hzero => ?_
  have hone := h.inner_forward a b
  rw [hzero] at hone
  simp [inner] at hone

/-- **Scaled to unit length, different vectors differ**: the component along the first direction
gives the scale, and the other two components then give the vector. -/
theorem unit_injective {a b a' b' : K}
    (heq : (f + r * a + u * b).unit = (f + r * a' + u * b').unit) : a = a' ∧ b = b' := by
  have hcomponent (w : Vec3 K) : (f + r * a + u * b).inner w / (f + r * a + u * b).size =
      (f + r * a' + u * b').inner w / (f + r * a' + u * b').size := by
    rw [← inner_div_left, ← inner_div_left, ← unit, ← unit, heq]
  have hscale : (f + r * a + u * b).size = (f + r * a' + u * b').size := by
    have hforward := hcomponent f
    rw [h.inner_forward, h.inner_forward] at hforward
    exact inv_injective (by rwa [one_div, one_div] at hforward)
  have hinner (w : Vec3 K) : (f + r * a + u * b).inner w = (f + r * a' + u * b').inner w := by
    have hw := hcomponent w
    rw [hscale] at hw
    exact (div_left_inj' (h.size_pos a' b').ne').1 hw
  have hright := hinner r
  have hup := hinner u
  rw [h.inner_right, h.inner_right] at hright
  rw [h.inner_up, h.inner_up] at hup
  exact ⟨hright, hup⟩

end IsFrame

/-! ### The frame of a direction -/

omit [IsStrictOrderedRing K] in
theorem inner_unit_right (v w : Vec3 K) : v.inner w.unit = v.inner w / w.size :=
  inner_div_right v w w.size

variable {d : Vec3 K}

theorem size_pos_of_not_isVertical (h : ¬d.IsVertical) : 0 < d.size := by
  refine size_pos fun hd => h ((isVertical_iff d).2 ?_)
  simp [hd]

/-- The length of what is across a direction is not zero, unless the direction is vertical. -/
theorem size_wedge_upward_pos (h : ¬d.IsVertical) : 0 < (d.unit.wedge ⟨0, 1, 0⟩).size := by
  refine size_pos fun hzero => h ((isVertical_iff d).2 ?_)
  have hsize : d.size ≠ 0 := (size_pos_of_not_isVertical h).ne'
  rw [wedge_upward] at hzero
  simp only [unit, div_mk, mk.injEq, neg_eq_zero, div_eq_zero_iff, hsize, or_false] at hzero
  exact ⟨hzero.2.2, hzero.1⟩

/-- The third vector rises by the length that the second one had before it was scaled. -/
theorem y_wedge_unit {f : Vec3 K} (h : 0 < (f.wedge ⟨0, 1, 0⟩).size) :
    ((f.wedge ⟨0, 1, 0⟩).unit.wedge f).y = (f.wedge ⟨0, 1, 0⟩).size := by
  have hsquare : (f.wedge ⟨0, 1, 0⟩).size * (f.wedge ⟨0, 1, 0⟩).size = f.x * f.x + f.z * f.z := by
    rw [size_mul_size, wedge_upward]
    simp only [inner]
    ring
  generalize hsize : (f.wedge ⟨0, 1, 0⟩).size = s at *
  have hunit : (f.wedge ⟨0, 1, 0⟩).unit = ⟨-f.z / s, 0 / s, f.x / s⟩ := by
    rw [unit, hsize, wedge_upward, div_mk]
  calc ((f.wedge ⟨0, 1, 0⟩).unit.wedge f).y = f.x / s * f.x - -f.z / s * f.z := by
        rw [hunit]
        rfl
    _ = (f.x * f.x + f.z * f.z) / s := by ring
    _ = s := by rw [← hsquare, mul_div_assoc, div_self h.ne', mul_one]

/-- **Every direction that is not vertical has a frame.** -/
theorem isFrame_unit (h : ¬d.IsVertical) :
    IsFrame d.unit (d.unit.wedge ⟨0, 1, 0⟩).unit
      ((d.unit.wedge ⟨0, 1, 0⟩).unit.wedge d.unit) := by
  have hpos : 0 < (d.unit.wedge ⟨0, 1, 0⟩).size := size_wedge_upward_pos h
  have hforward : d.unit.inner d.unit = 1 := inner_unit_self (size_pos_of_not_isVertical h)
  have hright : (d.unit.wedge ⟨0, 1, 0⟩).unit.inner (d.unit.wedge ⟨0, 1, 0⟩).unit = 1 :=
    inner_unit_self hpos
  have hacross : d.unit.inner (d.unit.wedge ⟨0, 1, 0⟩).unit = 0 := by
    rw [inner_unit_right, inner_wedge_left, zero_div]
  have hlevel : (d.unit.wedge ⟨0, 1, 0⟩).unit.y = 0 := by
    rw [wedge_upward]
    exact zero_div _
  have hup : ((d.unit.wedge ⟨0, 1, 0⟩).unit.wedge d.unit).y = (d.unit.wedge ⟨0, 1, 0⟩).size :=
    y_wedge_unit hpos
  refine ⟨hforward, hright, ?_, hacross, inner_wedge_right _ _, inner_wedge_left _ _, ?_, ?_,
    hlevel⟩
  · rw [inner_wedge_self, hright, hforward, (inner_comm _ _).trans hacross]
    ring
  · rw [wedge_wedge, hforward, hacross]
    simp [sub_mk, mul_mk]
  · rw [hup]
    exact hpos

end Vec3

end RayTracer
