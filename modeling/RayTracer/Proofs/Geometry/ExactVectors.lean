import RayTracer.Proofs.Number.ExactField

/-!
# Vectors of exact numbers

`v.map number` is a vector of numbers in exact arithmetic.  Sums, differences, products and inner
products of such vectors are those of their numbers, and the length of one is a number too.

* `Vec3.inner_add_mul_self` : the square of the length along a line, as a quadratic.
* `Vec3.map_dot_map`, `Vec3.length_map` : inner products and lengths.
* `Vec3.spans_map_iff` : what lies between the ends of an axis.
* `Vec3.normalize_map` : **every vector of positive length is scaled to unit length.**
* `Ray.at_map` : the points of a ray.
-/

namespace RayTracer

open Exact (number)
open HasRoots (root root_mul_root)

/-- The vector with all components changed. -/
def Vec3.map {α β : Type} (f : α → β) (v : Vec3 α) : Vec3 β := ⟨f v.x, f v.y, f v.z⟩

/-- The ray with all components changed. -/
def Ray.map {α β : Type} (f : α → β) (r : Ray α) : Ray β := ⟨r.origin.map f, r.direction.map f⟩

namespace Vec3

/-! ### Along an axis -/

section Axis

variable {α : Type} [Scalar α]

/-- The vector divided by its length. -/
def versor (v : Vec3 α) : Vec3 α := v / v.length

/-- The projection of `w` onto the axis does not leave it at either end. -/
def Spans (axis w : Vec3 α) : Prop :=
  (0.0 : α) ≤ w.dot axis.versor ∧ w.dot axis.versor ≤ axis.length

instance (axis w : Vec3 α) : Decidable (axis.Spans w) := inferInstanceAs (Decidable (_ ∧ _))

end Axis

/-! ### Over a field -/

variable {K : Type} [Field K]

instance : Add (Vec3 K) := ⟨fun v w => ⟨v.x + w.x, v.y + w.y, v.z + w.z⟩⟩

instance : Sub (Vec3 K) := ⟨fun v w => ⟨v.x - w.x, v.y - w.y, v.z - w.z⟩⟩

instance : HMul (Vec3 K) K (Vec3 K) := ⟨fun v s => ⟨v.x * s, v.y * s, v.z * s⟩⟩

instance : HDiv (Vec3 K) K (Vec3 K) := ⟨fun v s => ⟨v.x / s, v.y / s, v.z / s⟩⟩

theorem add_mk (v w : Vec3 K) : v + w = ⟨v.x + w.x, v.y + w.y, v.z + w.z⟩ := rfl

theorem sub_mk (v w : Vec3 K) : v - w = ⟨v.x - w.x, v.y - w.y, v.z - w.z⟩ := rfl

theorem mul_mk (v : Vec3 K) (s : K) : v * s = ⟨v.x * s, v.y * s, v.z * s⟩ := rfl

theorem div_mk (v : Vec3 K) (s : K) : v / s = ⟨v.x / s, v.y / s, v.z / s⟩ := rfl

/-- The inner product. -/
def inner (v w : Vec3 K) : K := v.x * w.x + v.y * w.y + v.z * w.z

/-- The part of `v` across the unit vector `u`. -/
def perp (u v : Vec3 K) : Vec3 K := v - u * v.inner u

section Lines

variable (u v w : Vec3 K) (s t : K)

theorem add_mul_sub : v + w * t - u = (v - u) + w * t := by
  simp only [add_mk, sub_mk, mul_mk]
  congr 1 <;> ring

theorem inner_comm : v.inner w = w.inner v := by
  simp only [inner]
  ring

theorem sub_ne_zero {v w : Vec3 K} (h : v ≠ w) : w - v ≠ ⟨0, 0, 0⟩ := by
  intro hzero
  simp only [sub_mk, mk.injEq, sub_eq_zero] at hzero
  obtain ⟨hx, hy, hz⟩ := hzero
  apply h
  calc v = ⟨v.x, v.y, v.z⟩ := rfl
    _ = ⟨w.x, w.y, w.z⟩ := by rw [hx, hy, hz]

theorem sub_add : u - (v + w) = u - v - w := by
  simp only [add_mk, sub_mk]
  congr 1 <;> ring

theorem inner_add_mul_left : (v + w * t).inner u = v.inner u + w.inner u * t := by
  simp only [inner, add_mk, mul_mk]
  ring

theorem inner_add_mul_self : (v + w * t).inner (v + w * t) =
    w.inner w * (t * t) + 2 * w.inner v * t + v.inner v := by
  simp only [inner, add_mk, mul_mk]
  ring

theorem inner_div_left : (v / s).inner w = v.inner w / s := by
  simp only [inner, div_mk]
  ring

theorem inner_div_right : v.inner (w / s) = v.inner w / s := by
  simp only [inner, div_mk]
  ring

theorem perp_add_mul : u.perp (v + w * t) = u.perp v + u.perp w * t := by
  simp only [perp, inner_add_mul_left]
  simp only [add_mk, sub_mk, mul_mk]
  congr 1 <;> ring

theorem inner_perp {u : Vec3 K} (h : u.inner u = 1) : (u.perp v).inner u = 0 := by
  have hinner : (u.perp v).inner u = v.inner u - v.inner u * u.inner u := by
    simp only [perp, inner, sub_mk, mul_mk]
    ring
  rw [hinner, h, mul_one, sub_self]

end Lines

section Size

variable [LinearOrder K] [IsStrictOrderedRing K]

theorem inner_self_nonneg (v : Vec3 K) : 0 ≤ v.inner v := by
  have hx := mul_self_nonneg v.x
  have hy := mul_self_nonneg v.y
  have hz := mul_self_nonneg v.z
  simp only [inner]
  linarith

theorem inner_self_pos {v : Vec3 K} (h : v ≠ ⟨0, 0, 0⟩) : 0 < v.inner v := by
  refine v.inner_self_nonneg.lt_of_ne fun hzero => h ?_
  have hx := mul_self_nonneg v.x
  have hy := mul_self_nonneg v.y
  have hz := mul_self_nonneg v.z
  simp only [inner] at hzero
  have hx₀ : v.x = 0 := mul_self_eq_zero.1 (by linarith)
  have hy₀ : v.y = 0 := mul_self_eq_zero.1 (by linarith)
  have hz₀ : v.z = 0 := mul_self_eq_zero.1 (by linarith)
  calc v = ⟨v.x, v.y, v.z⟩ := rfl
    _ = ⟨0, 0, 0⟩ := by rw [hx₀, hy₀, hz₀]

variable [HasRoots K]

/-- The Euclidean length. -/
def size (v : Vec3 K) : K := root (v.inner v)

/-- The vector divided by its length. -/
def unit (v : Vec3 K) : Vec3 K := v / v.size

theorem size_mul_size (v : Vec3 K) : v.size * v.size = v.inner v :=
  root_mul_root v.inner_self_nonneg

theorem size_pos {v : Vec3 K} (h : v ≠ ⟨0, 0, 0⟩) : 0 < v.size := root_pos (inner_self_pos h)

theorem size_eq_iff {v : Vec3 K} {s : K} (h : 0 ≤ s) : v.size = s ↔ v.inner v = s * s :=
  root_eq_iff v.inner_self_nonneg h

theorem inner_unit_left {v : Vec3 K} (h : 0 < v.size) : v.unit.inner v = v.size := by
  rw [unit, inner_div_left, ← v.size_mul_size, mul_div_assoc, div_self h.ne', mul_one]

theorem inner_unit_self {v : Vec3 K} (h : 0 < v.size) : v.unit.inner v.unit = 1 := by
  calc v.unit.inner v.unit = v.unit.inner (v / v.size) := rfl
    _ = v.size / v.size := by rw [inner_div_right, inner_unit_left h]
    _ = 1 := div_self h.ne'

theorem size_unit {v : Vec3 K} (h : 0 < v.size) : v.unit.size = 1 := by
  rw [size_eq_iff zero_le_one, inner_unit_self h, one_mul]

end Size

/-! ### In exact arithmetic -/

variable [LinearOrder K] [HasRoots K]

section Numbers

variable (v w : Vec3 K) (s : K)

@[simp] theorem map_add_map : v.map number + w.map number = (v + w).map number := rfl

@[simp] theorem map_sub_map : v.map number - w.map number = (v - w).map number := rfl

@[simp] theorem map_mul_number : v.map number * number s = (v * s).map number := rfl

@[simp] theorem map_dot_map : (v.map number).dot (w.map number) = number (v.inner w) := rfl

end Numbers

theorem map_div_number (v : Vec3 K) {s : K} (h : s ≠ 0) :
    v.map number / number s = (v / s).map number := by
  simp only [sdiv_def, map, Exact.number_div _ h, div_mk]

variable [IsStrictOrderedRing K]

@[simp] theorem length_map (v : Vec3 K) : (v.map number).length = number v.size :=
  Exact.sqrt_number v.inner_self_nonneg

theorem versor_map {v : Vec3 K} (h : 0 < v.size) : (v.map number).versor = v.unit.map number := by
  rw [versor, length_map, map_div_number v h.ne', unit]

theorem spans_map_iff {axis : Vec3 K} (h : 0 < axis.size) (w : Vec3 K) :
    (axis.map number).Spans (w.map number) ↔
      0 ≤ w.inner axis.unit ∧ w.inner axis.unit ≤ axis.size := by
  rw [Spans, versor_map h, map_dot_map, length_map, Exact.zero_eq, Exact.number_le_number,
    Exact.number_le_number]

/-- **A vector of positive length is scaled to unit length.** -/
theorem normalize_map {v : Vec3 K} (h : 0 < v.size) :
    (v.map number).normalize = v.unit.map number := by
  have hone : 0 < 1 / v.size := one_div_pos.2 h
  simp only [normalize, length_map, Exact.one_eq, Exact.zero_eq, Exact.number_div _ h.ne',
    Exact.isFinite_number, Exact.number_lt_number, hone, and_self, if_true, map_mul_number]
  simp only [unit, mul_mk, div_mk, mul_one_div]

end Vec3

theorem Ray.at_map {K : Type} [Field K] [LinearOrder K] [HasRoots K] (r : Ray K) (t : K) :
    (r.map number).at (number t) = (r.origin + r.direction * t).map number := rfl

end RayTracer
