import RayTracer.Shape.Contact

/-!
# Spheres

A ray meets a sphere where `|at t - center|² = radius²`, a quadratic in `t`.
-/

namespace RayTracer

/-- The points at distance `radius` from `center`. -/
structure Sphere (α : Type) where
  center : Vec3 α
  radius : α
  deriving DecidableEq, Repr

namespace Sphere

variable {α : Type} [Scalar α]

/-- The nearest contact of the ray with the sphere in the interval. -/
def hit (s : Sphere α) (r : Ray α) (range : Interval α) : Option (Contact α) := do
  let oc := r.origin - s.center
  let a := r.direction.dot r.direction
  let b := (2.0 : α) * oc.dot r.direction
  let c := oc.dot oc - s.radius * s.radius
  let roots ← quadraticRoots a b c
  let t ← nearestRoot roots range fun _ => true
  let point := r.at t
  return ⟨t, point, (point - s.center) / s.radius⟩

end Sphere

end RayTracer
