import RayTracer.Shape.Contact

/-!
# Finite cones

The side of a cone from its apex to a circular base, without the base disc.  With `v` the unit
axis from the apex to the base, `θ` the half angle and `p` a point relative to the apex, the
surface is `(p·v)² = cos² θ (p·p)`, a quadratic along a ray.  Its solutions also form a second
nappe behind the apex and go on past the base; both are cut off by asking that the axial
projection `p·v` lies between zero and the length of the axis.
-/

namespace RayTracer

/-- The side of the cone with tip `apex` over the disc of the given radius around `base`. -/
structure Cone (α : Type) where
  apex : Vec3 α
  base : Vec3 α
  radius : α
  deriving DecidableEq, Repr

namespace Cone

variable {α : Type} [Scalar α]

/-- The vector from the apex to the center of the base. -/
def axis (c : Cone α) : Vec3 α := c.base - c.apex

/-- The nearest contact of the ray with the side in the interval. -/
def hit (c : Cone α) (r : Ray α) (range : Interval α) : Option (Contact α) := do
  let v := c.axis.normalize
  let height := c.axis.length
  let height₂ := height * height
  let cos₂ := height₂ / (height₂ + c.radius * c.radius)
  let oc := r.origin - c.apex
  let dv := r.direction.dot v
  let ov := oc.dot v
  let qa := dv * dv - cos₂ * r.direction.dot r.direction
  let qb := (2.0 : α) * (dv * ov - cos₂ * r.direction.dot oc)
  let qc := ov * ov - cos₂ * oc.dot oc
  let roots ← quadraticRoots qa qb qc
  let t ← nearestRoot roots range fun t =>
    let projection := (r.at t - c.apex).dot v
    (0.0 : α) ≤ projection ∧ projection ≤ height
  let point := r.at t
  let p := point - c.apex
  let outward := p - v * p.dot v
  return ⟨t, point, (outward.normalize - v * (c.radius / height)).normalize⟩

end Cone

end RayTracer
