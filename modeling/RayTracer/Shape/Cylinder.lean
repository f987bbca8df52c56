import RayTracer.Shape.Contact

/-!
# Finite cylinders

The side of a cylinder between two cap centers, without the caps.  A point belongs to it when its
distance from the axis line is the radius and its projection onto the axis lies between the caps.
A cylinder whose axis is shorter than `axisEpsilon` is never hit, nor is one whose axis the ray
follows so closely that the quadratic loses its leading term.
-/

namespace RayTracer

/-- The side of the cylinder of the given radius around the segment from `start` to `stop`. -/
structure Cylinder (α : Type) where
  start : Vec3 α
  stop : Vec3 α
  radius : α
  deriving DecidableEq, Repr

namespace Cylinder

variable {α : Type} [Scalar α]

/-- Below this an axis counts as a point and a ray as parallel to the axis. -/
def axisEpsilon : α := 1e-8

/-- The vector from one cap center to the other. -/
def axis (c : Cylinder α) : Vec3 α := c.stop - c.start

/-- The nearest contact of the ray with the side in the interval. -/
def hit (c : Cylinder α) (r : Ray α) (range : Interval α) : Option (Contact α) := do
  let height := c.axis.length
  if height < axisEpsilon then none
  else
    let v := c.axis / height
    let oc := r.origin - c.start
    let across := r.direction - v * r.direction.dot v
    let ocAcross := oc - v * oc.dot v
    let qa := across.dot across
    if Scalar.abs qa < axisEpsilon then none
    else
      let qb := (2.0 : α) * across.dot ocAcross
      let qc := ocAcross.dot ocAcross - c.radius * c.radius
      let roots ← quadraticRoots qa qb qc
      let t ← nearestRoot roots range fun t =>
        let projection := (r.at t - c.start).dot v
        (0.0 : α) ≤ projection ∧ projection ≤ height
      let point := r.at t
      let foot := c.start + v * (point - c.start).dot v
      return ⟨t, point, (point - foot).normalize⟩

end Cylinder

end RayTracer
