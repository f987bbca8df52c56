import RayTracer.Proofs.Shape.NearestContact
import RayTracer.Shape.Cone

/-!
# Cones in exact arithmetic

The side of a cone is the set of points that satisfy the equation of the half angle and whose
projection onto the axis lies between the apex and the base (`Cone.Side`).  Along a ray the
equation is a quadratic, and its leading term vanishes where the direction of the ray itself
satisfies the equation (`Cone.IsGenerator`): the ray then is parallel to a line on the surface.

* `Cone.reportsNearest_hit` : on every other ray **the nearest point of the side in the interval
  is reported**, whichever of the two roots it belongs to.
* `Cone.hit_generator_eq_none` : **on a ray parallel to a generator nothing is reported**, since
  both quotients have a zero below them.  The linear equation that remains is not solved.
* `Cone.reportsNearest_iff` : so the answer is right except where such a ray meets the side.
-/

namespace RayTracer

open Exact (number)

namespace Cone

/-- The cone with all numbers changed. -/
def map {α β : Type} (f : α → β) (c : Cone α) : Cone β := ⟨c.apex.map f, c.base.map f, f c.radius⟩

section Surface

variable {α : Type} [Scalar α] (c : Cone α)

/-- The square of the cosine of the half angle. -/
def cosSquared : α :=
  c.axis.length * c.axis.length / (c.axis.length * c.axis.length + c.radius * c.radius)

/-- The vector has the half angle with the axis, or the opposite vector has. -/
def IsGenerator (w : Vec3 α) : Prop :=
  w.dot c.axis.versor * w.dot c.axis.versor = c.cosSquared * w.dot w

/-- The point satisfies the equation of the half angle and lies between the apex and the base. -/
def Side (p : Vec3 α) : Prop := c.IsGenerator (p - c.apex) ∧ c.axis.Spans (p - c.apex)

/-- The unit normal at a point of the side. -/
def normalAt (p : Vec3 α) : Vec3 α :=
  ((p - c.apex - c.axis.versor * (p - c.apex).dot c.axis.versor).normalize -
    c.axis.versor * (c.radius / c.axis.length)).normalize

variable {c} in
theorem hit_eq {r : Ray α} {range : Interval α} (haxis : c.axis.normalize = c.axis.versor) :
    c.hit r range = do
      let roots ← quadraticRoots
        (r.direction.dot c.axis.versor * r.direction.dot c.axis.versor -
          c.cosSquared * r.direction.dot r.direction)
        ((2.0 : α) * (r.direction.dot c.axis.versor * (r.origin - c.apex).dot c.axis.versor -
          c.cosSquared * r.direction.dot (r.origin - c.apex)))
        ((r.origin - c.apex).dot c.axis.versor * (r.origin - c.apex).dot c.axis.versor -
          c.cosSquared * (r.origin - c.apex).dot (r.origin - c.apex))
      let t ← nearestRoot roots range fun t => c.axis.Spans (r.at t - c.apex)
      return ⟨t, r.at t, c.normalAt (r.at t)⟩ := by
  unfold hit
  rw [haxis]
  rfl

end Surface

variable {K : Type} [Field K] [LinearOrder K] [IsStrictOrderedRing K] [HasRoots K]
  {c : Cone K} {r : Ray K} {range : Interval (Exact K)}

/-- The square of the cosine as a number. -/
def cosine₂ (c : Cone K) : K :=
  (c.base - c.apex).inner (c.base - c.apex) /
    ((c.base - c.apex).inner (c.base - c.apex) + c.radius * c.radius)

section Axis

variable (h : 0 < (c.base - c.apex).size)
include h

theorem versor_axis_map : (c.map number).axis.versor = (c.base - c.apex).unit.map number :=
  Vec3.versor_map h

theorem normalize_axis_map : (c.map number).axis.normalize = (c.map number).axis.versor := by
  show ((c.base - c.apex).map number).normalize = _
  rw [Vec3.normalize_map h, versor_axis_map h]

theorem cosSquared_map : (c.map number).cosSquared = number c.cosine₂ := by
  have hlength : (c.map number).axis.length = number (c.base - c.apex).size :=
    Vec3.length_map (c.base - c.apex)
  have hradius : (c.map number).radius = number c.radius := rfl
  have hpos : 0 < (c.base - c.apex).inner (c.base - c.apex) + c.radius * c.radius := by
    rw [← Vec3.size_mul_size]
    exact add_pos_of_pos_of_nonneg (mul_pos h h) (mul_self_nonneg _)
  rw [cosSquared, hlength, hradius]
  simp only [Exact.number_mul, Exact.number_add, Vec3.size_mul_size]
  rw [Exact.number_div _ hpos.ne', cosine₂]

/-- How far a vector is from satisfying the equation of the half angle. -/
def excess (c : Cone K) (v w : Vec3 K) : K :=
  v.inner (c.base - c.apex).unit * w.inner (c.base - c.apex).unit - c.cosine₂ * v.inner w

theorem isGenerator_map_iff (w : Vec3 K) :
    (c.map number).IsGenerator (w.map number) ↔ c.excess w w = 0 := by
  rw [IsGenerator, versor_axis_map h, cosSquared_map h, Vec3.map_dot_map, Vec3.map_dot_map,
    Exact.number_mul, Exact.number_mul, Exact.number.injEq, excess, sub_eq_zero]

theorem hit_map : (c.map number).hit (r.map number) range = do
    let oc := r.origin - c.apex
    let roots ← quadraticRoots (number (c.excess r.direction r.direction))
      (number (2 * c.excess r.direction oc)) (number (c.excess oc oc))
    let t ← nearestRoot roots range fun t =>
      (c.map number).axis.Spans ((r.map number).at t - (c.map number).apex)
    return ⟨t, (r.map number).at t, (c.map number).normalAt ((r.map number).at t)⟩ := by
  rw [hit_eq (normalize_axis_map h), versor_axis_map h, cosSquared_map h, Exact.two_eq]
  rfl

end Axis

omit [IsStrictOrderedRing K] in
/-- The excess along a line is a quadratic. -/
theorem excess_add_mul_self (c : Cone K) (v w : Vec3 K) (t : K) :
    c.excess (v + w * t) (v + w * t) =
      c.excess w w * (t * t) + 2 * c.excess w v * t + c.excess v v := by
  rw [excess, Vec3.inner_add_mul_self, Vec3.inner_add_mul_left]
  simp only [excess]
  ring

/-- **The nearest point of the side is reported** on a ray that is not parallel to a generator. -/
theorem reportsNearest_hit (h : 0 < (c.base - c.apex).size)
    (hdirection : ¬(c.map number).IsGenerator (r.map number).direction) :
    ReportsNearest (c.map number).Side (r.map number) range
      ((c.map number).hit (r.map number) range) := by
  rw [hit_map h]
  refine reportsNearest_of_roots (fun hzero => hdirection ((isGenerator_map_iff h _).2 hzero))
    (fun _ => rfl) (fun _ => rfl) fun t => ?_
  have hside : (c.map number).Side ((r.map number).at (number t)) ↔
      c.excess (r.origin + r.direction * t - c.apex) (r.origin + r.direction * t - c.apex) = 0 ∧
        (c.map number).axis.Spans ((r.map number).at (number t) - (c.map number).apex) :=
    and_congr_left' (isGenerator_map_iff h (r.origin + r.direction * t - c.apex))
  rw [hside, Vec3.add_mul_sub, excess_add_mul_self, decide_eq_true_iff, and_comm]

/-- **Nothing is reported** on a ray that is parallel to a generator. -/
theorem hit_generator_eq_none (h : 0 < (c.base - c.apex).size)
    (hdirection : (c.map number).IsGenerator (r.map number).direction) :
    (c.map number).hit (r.map number) range = none := by
  rw [hit_map h, (isGenerator_map_iff h _).1 hdirection,
    ← Option.map_eq_none_iff, map_t_of_roots fun _ => rfl]
  exact quadratic_linear_eq_none range _

/-! ### An upright cone -/

/-- The cone of half angle 45° over the unit disc. -/
def upright (K : Type) [Field K] : Cone K := ⟨⟨0, 1, 0⟩, ⟨0, 0, 0⟩, 1⟩

theorem size_upright : ((upright K).base - (upright K).apex).size = 1 := by
  rw [Vec3.size_eq_iff zero_le_one]
  simp [upright, Vec3.sub_mk, Vec3.inner]

theorem unit_upright : ((upright K).base - (upright K).apex).unit = ⟨0, -1, 0⟩ := by
  rw [Vec3.unit, size_upright]
  simp [upright, Vec3.sub_mk, Vec3.div_mk]

theorem isGenerator_upright_iff (w : Vec3 K) :
    ((upright K).map number).IsGenerator (w.map number) ↔
      w.x * w.x + w.z * w.z = w.y * w.y := by
  have hcosine : (upright K).cosine₂ = 1 / 2 := by
    norm_num [cosine₂, upright, Vec3.sub_mk, Vec3.inner]
  have hexcess : (upright K).excess w w = (w.y * w.y - (w.x * w.x + w.z * w.z)) / 2 := by
    rw [excess, unit_upright, hcosine]
    simp only [Vec3.inner]
    ring
  rw [isGenerator_map_iff (size_upright (K := K) ▸ one_pos), hexcess, div_eq_zero_iff]
  simp [sub_eq_zero, eq_comm]

theorem side_upright_iff (p : Vec3 K) : ((upright K).map number).Side (p.map number) ↔
    p.x * p.x + p.z * p.z = (1 - p.y) * (1 - p.y) ∧ 0 ≤ p.y ∧ p.y ≤ 1 := by
  have hpos : 0 < ((upright K).base - (upright K).apex).size := size_upright (K := K) ▸ one_pos
  have hdepth : (p - (upright K).apex).inner ⟨0, -1, 0⟩ = 1 - p.y := by
    simp [upright, Vec3.inner, Vec3.sub_mk]
  have hspans : ((upright K).map number).axis.Spans
      (p.map number - ((upright K).map number).apex) ↔ 0 ≤ 1 - p.y ∧ 1 - p.y ≤ 1 := by
    rw [← hdepth, ← unit_upright, ← size_upright (K := K)]
    exact Vec3.spans_map_iff hpos (p - (upright K).apex)
  have hgenerator := isGenerator_upright_iff (p - (upright K).apex)
  rw [Side, hspans, sub_nonneg, sub_le_self_iff, and_comm (a := p.y ≤ 1)]
  refine and_congr_left' (hgenerator.trans ?_)
  simp only [upright, Vec3.sub_mk, sub_zero]
  rw [← neg_sub 1 p.y, neg_mul_neg]

/-! ### When the answer is right -/

/-- **The nearest point of the side is reported**, except on a ray that is parallel to a generator:
there nothing is reported, which is wrong as soon as the ray meets the side in the interval. -/
theorem reportsNearest_iff (hapex : c.apex ≠ c.base) :
    ((c.map number).IsGenerator (r.map number).direction →
        (c.map number).hit (r.map number) range = none) ∧
      (ReportsNearest (c.map number).Side (r.map number) range
          ((c.map number).hit (r.map number) range) ↔
        ¬(c.map number).IsGenerator (r.map number).direction ∨
          ∀ t, ¬(range.Contains (number t) ∧
            (c.map number).Side ((r.map number).at (number t)))) := by
  have hpos := Vec3.size_pos (Vec3.sub_ne_zero hapex)
  refine ⟨hit_generator_eq_none hpos, ?_⟩
  by_cases hdirection : (c.map number).IsGenerator (r.map number).direction
  · rw [hit_generator_eq_none hpos hdirection, or_iff_right (not_not_intro hdirection)]
    exact ⟨fun h => h.least, fun h => ⟨h, nofun⟩⟩
  · exact iff_of_true (reportsNearest_hit hpos hdirection) (.inl hdirection)

/-- A ray across the axis at half the height enters the upright cone at the distance `5 / 2`. -/
theorem hit_upright_across :
    let r : Ray ℝ := ⟨⟨-3, 1 / 2, 0⟩, ⟨1, 0, 0⟩⟩
    (upright ℝ).apex ≠ (upright ℝ).base ∧
      (((upright ℝ).map number).hit (r.map number) ⟨number 0, number 10⟩).map (·.t) =
        some (number (5 / 2)) := by
  intro r
  have hapex : (upright ℝ).apex ≠ (upright ℝ).base := by simp [upright]
  have hdirection : ¬((upright ℝ).map number).IsGenerator (r.map number).direction := by
    intro h
    have := (isGenerator_upright_iff r.direction).1 h
    norm_num [r] at this
  have hside : ∀ t, ((upright ℝ).map number).Side ((r.map number).at (number t)) ↔
      (t - 3) * (t - 3) = 1 / 4 := by
    intro t
    rw [Ray.at_map, side_upright_iff]
    norm_num [r, Vec3.add_mk, Vec3.mul_mk, neg_add_eq_sub]
  refine ⟨hapex, ((reportsNearest_iff hapex).2.2 (.inl hdirection)).least.eq_some ⟨⟨?_, ?_⟩, ?_⟩⟩
  · constructor <;> rw [Exact.number_le_number] <;> norm_num
  · rw [hside]
    norm_num
  · rintro t ⟨-, ht⟩
    rw [hside] at ht
    nlinarith

/-- A ray down along the side of the upright cone enters it at the distance `1 / 2`, and is not
seen to do so. -/
theorem upright_missed_along_generator :
    let r : Ray ℝ := ⟨⟨-1, 1, 0⟩, ⟨1, -1, 0⟩⟩
    let range : Interval (Exact ℝ) := ⟨number 0, number 10⟩
    (upright ℝ).apex ≠ (upright ℝ).base ∧ 0 < (upright ℝ).radius ∧ r.direction ≠ ⟨0, 0, 0⟩ ∧
      ¬ReportsNearest ((upright ℝ).map number).Side (r.map number) range
        (((upright ℝ).map number).hit (r.map number) range) := by
  intro r range
  refine ⟨by simp [upright], one_pos, by simp [r], fun h => ?_⟩
  have hdirection : ((upright ℝ).map number).IsGenerator (r.map number).direction :=
    (isGenerator_upright_iff r.direction).2 (by norm_num [r])
  have hside : ((upright ℝ).map number).Side ((r.map number).at (number (1 / 2))) := by
    rw [Ray.at_map, side_upright_iff]
    norm_num [r, Vec3.add_mk, Vec3.mul_mk]
  have hleast := h.least
  rw [hit_generator_eq_none (size_upright (K := ℝ) ▸ one_pos) hdirection] at hleast
  refine hleast (1 / 2) ⟨?_, hside⟩
  constructor <;> rw [Exact.number_le_number] <;> norm_num

end Cone

end RayTracer
