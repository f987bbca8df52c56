import RayTracer.Proofs.Shape.NearestContact
import RayTracer.Shape.Cylinder
import RayTracer.Shape.Sphere

/-!
# Spheres and cylinders in exact arithmetic

A sphere is the set of points at a given distance from its center (`Sphere.Surface`), and the side
of a cylinder is the set of points at a given distance from its axis line whose projection onto the
axis lies between the caps (`Cylinder.Side`).  In exact arithmetic no rounding comes between these
equations and the quadratics that a ray query solves.

* `Sphere.reportsNearest_hit`, `Cylinder.reportsNearest_hit` : **the nearest point of the surface
  in the interval is reported**, and nothing is reported only where there is no such point.
* `Sphere.unit_outward`, `Cylinder.unit_across` : the normal is a unit vector that points away
  from the center, or across the axis.
* `roundSurfaces_reported` : all of this for every ray.

A cylinder only keeps its promise above `axisEpsilon`: below it neither a short axis nor a ray
along the axis is looked at.
-/

namespace RayTracer

open Exact (number)

/-! ### Spheres -/

namespace Sphere

/-- The sphere with all numbers changed. -/
def map {α β : Type} (f : α → β) (s : Sphere α) : Sphere β := ⟨s.center.map f, f s.radius⟩

/-- The point has the distance `radius` from the center. -/
def Surface {α : Type} [Scalar α] (s : Sphere α) (p : Vec3 α) : Prop :=
  (p - s.center).length = s.radius

variable {K : Type} [Field K] [LinearOrder K] [IsStrictOrderedRing K] [HasRoots K]
  {s : Sphere K} {r : Ray K} {range : Interval (Exact K)}

theorem surface_map_iff {p : Vec3 K} :
    (s.map number).Surface (p.map number) ↔ (p - s.center).size = s.radius := by
  rw [← Exact.number.injEq, ← Vec3.length_map]
  rfl

theorem hit_map (s : Sphere K) (r : Ray K) (range : Interval (Exact K)) :
    (s.map number).hit (r.map number) range = do
      let roots ← quadraticRoots (number (r.direction.inner r.direction))
        (number (2 * (r.origin - s.center).inner r.direction))
        (number ((r.origin - s.center).inner (r.origin - s.center) - s.radius * s.radius))
      let t ← nearestRoot roots range fun _ => true
      return ⟨t, (r.map number).at t,
        ((r.map number).at t - s.center.map number) / number s.radius⟩ := by
  simp only [hit, Exact.two_eq]
  rfl

/-- **The nearest point of a sphere is reported.** -/
theorem reportsNearest_hit (hradius : 0 < s.radius) (hdirection : r.direction ≠ ⟨0, 0, 0⟩) :
    ReportsNearest (s.map number).Surface (r.map number) range
      ((s.map number).hit (r.map number) range) := by
  rw [hit_map]
  refine reportsNearest_of_roots (Vec3.inner_self_pos hdirection).ne' (fun _ => rfl)
    (fun _ => rfl) fun t => ?_
  rw [Ray.at_map, surface_map_iff, Vec3.size_eq_iff hradius.le, Vec3.add_mul_sub,
    Vec3.inner_add_mul_self, Vec3.inner_comm r.direction (r.origin - s.center), ← add_sub_assoc,
    sub_eq_zero]
  exact (and_iff_right rfl).symm

/-- The normal is a unit vector that points away from the center. -/
theorem unit_outward (hradius : 0 < s.radius) (hdirection : r.direction ≠ ⟨0, 0, 0⟩)
    {k : Contact (Exact K)} (h : (s.map number).hit (r.map number) range = some k) :
    k.normal.length = 1.0 ∧ (0.0 : Exact K) < k.normal.dot (k.point - (s.map number).center) := by
  obtain ⟨t, ht, hpoint, hsurface⟩ :=
    (reportsNearest_hit hradius hdirection).exists_of_some h
  rw [hit_map] at h
  have hk := eq_contact_of_roots (fun _ => rfl) h
  rw [Ray.at_map] at hpoint hsurface
  rw [surface_map_iff] at hsurface
  set w := r.origin + r.direction * t - s.center
  have hpos : 0 < w.size := hsurface ▸ hradius
  have houtward : k.point - (s.map number).center = w.map number := by
    rw [hpoint]
    rfl
  have hnormal : k.normal = w.unit.map number := by
    rw [hk, ht, Ray.at_map, Vec3.map_sub_map, Vec3.map_div_number _ hradius.ne', ← hsurface]
    rfl
  rw [houtward, hnormal, Vec3.length_map, Vec3.map_dot_map, Vec3.size_unit hpos,
    Vec3.inner_unit_left hpos, Exact.one_eq, Exact.zero_eq, Exact.number_lt_number]
  exact ⟨rfl, hpos⟩

end Sphere

/-! ### Cylinders -/

namespace Cylinder

/-- The cylinder with all numbers changed. -/
def map {α β : Type} (f : α → β) (c : Cylinder α) : Cylinder β :=
  ⟨c.start.map f, c.stop.map f, f c.radius⟩

section Surface

variable {α : Type} [Scalar α] (c : Cylinder α)

/-- The part of a vector across the axis. -/
def across (w : Vec3 α) : Vec3 α := w - c.axis.versor * w.dot c.axis.versor

/-- The point has the distance `radius` from the axis line and lies between the caps. -/
def Side (p : Vec3 α) : Prop :=
  (c.across (p - c.start)).length = c.radius ∧ c.axis.Spans (p - c.start)

/-- The axis counts as one, and the ray as not parallel to it. -/
structure IsCrossedBy (r : Ray α) : Prop where
  axis : axisEpsilon ≤ c.axis.length
  across : axisEpsilon ≤ (c.across r.direction).dot (c.across r.direction)

/-- The unit normal at a point of the side. -/
def normalAt (p : Vec3 α) : Vec3 α :=
  (p - (c.start + c.axis.versor * (p - c.start).dot c.axis.versor)).normalize

variable {c} in
theorem hit_eq {r : Ray α} {range : Interval α} (haxis : ¬c.axis.length < axisEpsilon)
    (hacross : ¬Scalar.abs ((c.across r.direction).dot (c.across r.direction)) < axisEpsilon) :
    c.hit r range = do
      let roots ← quadraticRoots ((c.across r.direction).dot (c.across r.direction))
        ((2.0 : α) * (c.across r.direction).dot (c.across (r.origin - c.start)))
        ((c.across (r.origin - c.start)).dot (c.across (r.origin - c.start)) -
          c.radius * c.radius)
      let t ← nearestRoot roots range fun t => c.axis.Spans (r.at t - c.start)
      return ⟨t, r.at t, c.normalAt (r.at t)⟩ := by
  unfold hit
  rw [if_neg haxis]
  exact if_neg hacross

end Surface

variable {K : Type} [Field K] [LinearOrder K] [IsStrictOrderedRing K] [HasRoots K]
  {c : Cylinder K} {r : Ray K} {range : Interval (Exact K)}

theorem size_axis_pos (h : (c.map number).IsCrossedBy (r.map number)) :
    0 < (c.stop - c.start).size := by
  have haxis : (number 1e-8 : Exact K) ≤ ((c.stop - c.start).map number).length := h.axis
  rw [Vec3.length_map, Exact.number_le_number] at haxis
  exact lt_of_lt_of_le (by norm_num) haxis

section Axis

variable (h : 0 < (c.stop - c.start).size)
include h

theorem versor_axis_map : (c.map number).axis.versor = (c.stop - c.start).unit.map number :=
  Vec3.versor_map h

theorem across_map (w : Vec3 K) :
    (c.map number).across (w.map number) = ((c.stop - c.start).unit.perp w).map number := by
  rw [across, versor_axis_map h, Vec3.map_dot_map, Vec3.map_mul_number, Vec3.map_sub_map,
    Vec3.perp]

theorem side_map_iff {p : Vec3 K} : (c.map number).Side (p.map number) ↔
    ((c.stop - c.start).unit.perp (p - c.start)).size = c.radius ∧
      (c.map number).axis.Spans (p.map number - (c.map number).start) := by
  rw [← Exact.number.injEq, ← Vec3.length_map, ← across_map h]
  rfl

theorem normalAt_map {p : Vec3 K}
    (hp : 0 < ((c.stop - c.start).unit.perp (p - c.start)).size) :
    (c.map number).normalAt (p.map number) =
      ((c.stop - c.start).unit.perp (p - c.start)).unit.map number := by
  have hstart : (c.map number).start = c.start.map number := rfl
  rw [normalAt, versor_axis_map h, hstart, Vec3.map_sub_map, Vec3.map_dot_map,
    Vec3.map_mul_number, Vec3.map_add_map, Vec3.map_sub_map, Vec3.sub_add, ← Vec3.perp,
    Vec3.normalize_map hp]

theorem inner_perp_axis (w : Vec3 K) :
    ((c.stop - c.start).unit.perp w).inner (c.stop - c.start) = 0 := by
  have hunit := Vec3.inner_perp w (Vec3.inner_unit_self h)
  rw [Vec3.unit, Vec3.inner_div_right, div_eq_zero_iff] at hunit
  exact hunit.resolve_right h.ne'

end Axis

/-- The quadratic that a ray across the axis leads to. -/
theorem hit_map (h : (c.map number).IsCrossedBy (r.map number)) :
    (c.map number).hit (r.map number) range = do
      let u := (c.stop - c.start).unit
      let oc := r.origin - c.start
      let roots ← quadraticRoots (number ((u.perp r.direction).inner (u.perp r.direction)))
        (number (2 * (u.perp r.direction).inner (u.perp oc)))
        (number ((u.perp oc).inner (u.perp oc) - c.radius * c.radius))
      let t ← nearestRoot roots range fun t =>
        (c.map number).axis.Spans ((r.map number).at t - (c.map number).start)
      return ⟨t, (r.map number).at t, (c.map number).normalAt ((r.map number).at t)⟩ := by
  have hpos := size_axis_pos h
  have hdirection : (c.map number).across (r.map number).direction =
      ((c.stop - c.start).unit.perp r.direction).map number := across_map hpos _
  have horigin : (c.map number).across ((r.map number).origin - (c.map number).start) =
      ((c.stop - c.start).unit.perp (r.origin - c.start)).map number :=
    across_map hpos (r.origin - c.start)
  have haxis : ¬(c.map number).axis.length < axisEpsilon := Exact.not_lt_of_le h.axis
  have hacross : ¬Scalar.abs (((c.map number).across (r.map number).direction).dot
      ((c.map number).across (r.map number).direction)) < axisEpsilon := by
    have habs := h.across
    rw [hdirection, Vec3.map_dot_map] at habs ⊢
    rw [Exact.abs_number, abs_of_nonneg (Vec3.inner_self_nonneg _)]
    exact Exact.not_lt_of_le habs
  rw [hit_eq haxis hacross, hdirection, horigin, Exact.two_eq]
  rfl

theorem inner_perp_direction_pos (h : (c.map number).IsCrossedBy (r.map number)) :
    0 < ((c.stop - c.start).unit.perp r.direction).inner
      ((c.stop - c.start).unit.perp r.direction) := by
  have hacross : (number 1e-8 : Exact K) ≤ ((c.map number).across (r.direction.map number)).dot
      ((c.map number).across (r.direction.map number)) := h.across
  rw [across_map (size_axis_pos h), Vec3.map_dot_map, Exact.number_le_number] at hacross
  exact lt_of_lt_of_le (by norm_num) hacross

/-- **The nearest point of the side of a cylinder is reported.** -/
theorem reportsNearest_hit (hradius : 0 < c.radius)
    (h : (c.map number).IsCrossedBy (r.map number)) :
    ReportsNearest (c.map number).Side (r.map number) range
      ((c.map number).hit (r.map number) range) := by
  rw [hit_map h]
  refine reportsNearest_of_roots (inner_perp_direction_pos h).ne' (fun _ => rfl) (fun _ => rfl)
    fun t => ?_
  rw [Ray.at_map, side_map_iff (size_axis_pos h), Vec3.size_eq_iff hradius.le, Vec3.add_mul_sub,
    Vec3.perp_add_mul, Vec3.inner_add_mul_self, ← add_sub_assoc, sub_eq_zero, decide_eq_true_iff,
    and_comm]

/-- The normal is a unit vector across the axis. -/
theorem unit_across (hradius : 0 < c.radius) (h : (c.map number).IsCrossedBy (r.map number))
    {k : Contact (Exact K)} (hk : (c.map number).hit (r.map number) range = some k) :
    k.normal.length = 1.0 ∧ k.normal.dot (c.map number).axis = 0.0 := by
  have hpos := size_axis_pos h
  obtain ⟨t, ht, -, hside⟩ := (reportsNearest_hit hradius h).exists_of_some hk
  rw [hit_map h] at hk
  rw [Ray.at_map, side_map_iff hpos] at hside
  set w := (c.stop - c.start).unit.perp (r.origin + r.direction * t - c.start)
  have hwpos : 0 < w.size := hside.1 ▸ hradius
  have hnormal : k.normal = w.unit.map number := by
    rw [eq_contact_of_roots (fun _ => rfl) hk, ht, Ray.at_map, normalAt_map hpos hwpos]
  have haxis : w.unit.inner (c.stop - c.start) = 0 := by
    rw [Vec3.unit, Vec3.inner_div_left, inner_perp_axis hpos, zero_div]
  constructor
  · rw [hnormal, Vec3.length_map, Vec3.size_unit hwpos, Exact.one_eq]
  · calc k.normal.dot (c.map number).axis
        = (w.unit.map number).dot ((c.stop - c.start).map number) := by
          rw [hnormal]
          rfl
      _ = 0.0 := by rw [Vec3.map_dot_map, haxis, Exact.zero_eq]

/-! ### An upright cylinder -/

/-- The cylinder of radius one around the second axis, between the heights `-1` and `1`. -/
def upright (K : Type) [Field K] : Cylinder K := ⟨⟨0, -1, 0⟩, ⟨0, 1, 0⟩, 1⟩

theorem size_upright : ((upright K).stop - (upright K).start).size = 2 := by
  rw [Vec3.size_eq_iff zero_le_two]
  norm_num [upright, Vec3.sub_mk, Vec3.inner]

theorem unit_upright : ((upright K).stop - (upright K).start).unit = ⟨0, 1, 0⟩ := by
  rw [Vec3.unit, size_upright]
  norm_num [upright, Vec3.sub_mk, Vec3.div_mk]

theorem side_upright_iff (p : Vec3 K) : ((upright K).map number).Side (p.map number) ↔
    p.x * p.x + p.z * p.z = 1 ∧ -1 ≤ p.y ∧ p.y ≤ 1 := by
  have hpos : 0 < ((upright K).stop - (upright K).start).size := size_upright (K := K) ▸ two_pos
  have hperp : (⟨0, 1, 0⟩ : Vec3 K).perp (p - (upright K).start) = ⟨p.x, 0, p.z⟩ := by
    simp [upright, Vec3.perp, Vec3.inner, Vec3.sub_mk, Vec3.mul_mk]
  have hheight : (p - (upright K).start).inner ⟨0, 1, 0⟩ = p.y + 1 := by
    simp [upright, Vec3.inner, Vec3.sub_mk]
  have hspans : ((upright K).map number).axis.Spans
      (p.map number - ((upright K).map number).start) ↔ 0 ≤ p.y + 1 ∧ p.y + 1 ≤ 2 := by
    rw [← hheight, ← unit_upright, ← size_upright (K := K)]
    exact Vec3.spans_map_iff hpos (p - (upright K).start)
  rw [side_map_iff hpos, hspans, unit_upright, hperp, show (upright K).radius = 1 from rfl,
    Vec3.size_eq_iff zero_le_one]
  refine and_congr ?_ (and_congr ?_ ?_)
  · simp [Vec3.inner]
  · exact neg_le_iff_add_nonneg.symm
  · rw [← one_add_one_eq_two, add_le_add_iff_right]

theorem isCrossedBy_upright {r : Ray K} (h : r.direction = ⟨1, 0, 0⟩) :
    ((upright K).map number).IsCrossedBy (r.map number) := by
  have hpos : 0 < ((upright K).stop - (upright K).start).size := size_upright (K := K) ▸ two_pos
  have hacross : ((upright K).map number).across (r.map number).direction =
      (⟨1, 0, 0⟩ : Vec3 K).map number := by
    refine (across_map hpos r.direction).trans (congrArg _ ?_)
    rw [unit_upright, h]
    simp [Vec3.perp, Vec3.inner, Vec3.sub_mk, Vec3.mul_mk]
  constructor
  · show (number 1e-8 : Exact K) ≤ (((upright K).stop - (upright K).start).map number).length
    rw [Vec3.length_map, size_upright, Exact.number_le_number]
    norm_num
  · rw [hacross, Vec3.map_dot_map]
    show (number 1e-8 : Exact K) ≤ _
    rw [Exact.number_le_number]
    norm_num [Vec3.inner]

end Cylinder

/-- **Spheres and cylinders report their nearest point**, with a unit normal that points away from
the center or is orthogonal to the axis. -/
theorem roundSurfaces_reported {K : Type} [Field K] [LinearOrder K] [IsStrictOrderedRing K]
    [HasRoots K] (r : Ray K) (hdirection : r.direction ≠ ⟨0, 0, 0⟩) (range : Interval (Exact K)) :
    (∀ s : Sphere K, 0 < s.radius →
      ReportsNearest (s.map number).Surface (r.map number) range
          ((s.map number).hit (r.map number) range) ∧
        ∀ k, (s.map number).hit (r.map number) range = some k →
          k.normal.length = 1.0 ∧
            (0.0 : Exact K) < k.normal.dot (k.point - (s.map number).center)) ∧
      ∀ c : Cylinder K, 0 < c.radius → (c.map number).IsCrossedBy (r.map number) →
        ReportsNearest (c.map number).Side (r.map number) range
            ((c.map number).hit (r.map number) range) ∧
          ∀ k, (c.map number).hit (r.map number) range = some k →
            k.normal.length = 1.0 ∧ k.normal.dot (c.map number).axis = 0.0 :=
  ⟨fun _ hradius => ⟨Sphere.reportsNearest_hit hradius hdirection,
      fun _ => Sphere.unit_outward hradius hdirection⟩,
    fun _ hradius h => ⟨Cylinder.reportsNearest_hit hradius h,
      fun _ => Cylinder.unit_across hradius h⟩⟩

/-- A ray across the unit sphere and the upright cylinder of radius one enters both at the
distance two. -/
theorem roundSurfaces_entered :
    let r : Ray ℝ := ⟨⟨-3, 0, 0⟩, ⟨1, 0, 0⟩⟩
    let s : Sphere ℝ := ⟨⟨0, 0, 0⟩, 1⟩
    let c : Cylinder ℝ := Cylinder.upright ℝ
    let range : Interval (Exact ℝ) := ⟨number 0, .infinite false⟩
    r.direction ≠ ⟨0, 0, 0⟩ ∧ 0 < s.radius ∧ 0 < c.radius ∧
      (c.map number).IsCrossedBy (r.map number) ∧
      ((s.map number).hit (r.map number) range).map (·.t) = some (number 2) ∧
      ((c.map number).hit (r.map number) range).map (·.t) = some (number 2) := by
  intro r s c range
  have hdirection : r.direction ≠ ⟨0, 0, 0⟩ := by simp [r]
  have hcrossed : (c.map number).IsCrossedBy (r.map number) := Cylinder.isCrossedBy_upright rfl
  have hreported := roundSurfaces_reported r hdirection range
  have hsphere : ∀ t, (s.map number).Surface ((r.map number).at (number t)) ↔
      (t - 3) * (t - 3) = 1 := by
    intro t
    rw [Ray.at_map, Sphere.surface_map_iff, Vec3.size_eq_iff zero_le_one]
    norm_num [r, s, Vec3.inner, Vec3.add_mk, Vec3.sub_mk, Vec3.mul_mk, neg_add_eq_sub]
  have hcylinder : ∀ t, (c.map number).Side ((r.map number).at (number t)) ↔
      (t - 3) * (t - 3) = 1 := by
    intro t
    rw [Ray.at_map, Cylinder.side_upright_iff]
    norm_num [r, Vec3.add_mk, Vec3.mul_mk, neg_add_eq_sub]
  have hleast : IsLeast {t : ℝ | range.Contains (number t) ∧ (t - 3) * (t - 3) = 1} 2 := by
    refine ⟨⟨⟨Exact.number_le_number.2 zero_le_two, rfl⟩, by norm_num⟩, ?_⟩
    rintro t ⟨-, ht⟩
    nlinarith
  have hsphereLeast := (hreported.1 s one_pos).1.least
  have hcylinderLeast := (hreported.2 c one_pos hcrossed).1.least
  simp only [hsphere] at hsphereLeast
  simp only [hcylinder] at hcylinderLeast
  exact ⟨hdirection, one_pos, one_pos, hcrossed, hsphereLeast.eq_some hleast,
    hcylinderLeast.eq_some hleast⟩

end RayTracer
