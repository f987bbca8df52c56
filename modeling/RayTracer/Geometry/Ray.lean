import RayTracer.Geometry.Vec3

/-!
# Rays and parameter intervals

A ray is the half line `t ↦ origin + t · direction`.  Its direction need not have unit length for
an intersection, though the camera and the shading only build unit directions.  An `Interval` is
the closed range of parameters in which a hit counts.
-/

namespace RayTracer

/-- A point and a direction. -/
structure Ray (α : Type) where
  origin : Vec3 α
  direction : Vec3 α
  deriving DecidableEq, Repr

/-- The closed range from `min` to `max`. -/
structure Interval (α : Type) where
  min : α
  max : α
  deriving DecidableEq, Repr

variable {α : Type} [Scalar α]

/-- The point at parameter `t`. -/
def Ray.at (r : Ray α) (t : α) : Vec3 α := r.origin + r.direction * t

namespace Interval

/-- `t` lies in the range, ends included; a value that compares with nothing never does. -/
def Contains (i : Interval α) (t : α) : Prop := i.min ≤ t ∧ t ≤ i.max

instance (i : Interval α) (t : α) : Decidable (i.Contains t) :=
  inferInstanceAs (Decidable (_ ∧ _))

/-- The same lower end with another upper end. -/
def withMax (i : Interval α) (max : α) : Interval α := ⟨i.min, max⟩

end Interval

end RayTracer
