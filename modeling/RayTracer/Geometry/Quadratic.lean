import RayTracer.Geometry.Ray

/-!
# Roots of quadratics and the choice among them

The sphere, the cone and the cylinder meet a ray where a quadratic in the ray parameter vanishes.
`quadraticRoots` gives both roots in ascending order, and `nearestRoot` picks the smaller one that
lies in the interval and satisfies a further condition, else the larger one under the same test.
-/

namespace RayTracer

variable {α : Type} [Scalar α]

/-- The roots of `a t² + b t + c`, the first not above the second where they compare; none if the
discriminant is negative. -/
def quadraticRoots (a b c : α) : Option (α × α) :=
  let discriminant := b * b - (4.0 : α) * a * c
  if discriminant < (0.0 : α) then none
  else
    let s := Scalar.sqrt discriminant
    let t₀ := (-b - s) / ((2.0 : α) * a)
    let t₁ := (-b + s) / ((2.0 : α) * a)
    if t₀ ≤ t₁ then some (t₀, t₁) else some (t₁, t₀)

/-- The first of the two roots that lies in the interval and is accepted. -/
def nearestRoot (roots : α × α) (range : Interval α) (accept : α → Bool) : Option α :=
  [roots.1, roots.2].find? fun t => range.Contains t ∧ accept t

/-- A chosen root is one of the two, lies in the interval and is accepted. -/
theorem of_nearestRoot_eq_some {roots : α × α} {range : Interval α} {accept : α → Bool} {t : α}
    (h : nearestRoot roots range accept = some t) :
    (t = roots.1 ∨ t = roots.2) ∧ range.Contains t ∧ accept t = true := by
  have hp := List.find?_some h
  have hm := List.mem_of_find?_eq_some h
  exact ⟨by simpa using hm, by simpa using hp⟩

end RayTracer
