import RayTracer.Geometry.Quadratic

/-!
# Contacts

A `Contact` is what a shape reports about the nearest point at which a ray meets it: the ray
parameter, the point and the outward unit normal there.
-/

namespace RayTracer

/-- Where a ray meets a surface. -/
structure Contact (α : Type) where
  /-- Parameter of the point along the ray. -/
  t : α
  point : Vec3 α
  /-- Outward unit normal of the surface at the point. -/
  normal : Vec3 α
  deriving DecidableEq, Repr

end RayTracer
