import RayTracer.Proofs.Geometry.ExactRoots
import RayTracer.Proofs.Geometry.ExactVectors
import RayTracer.Shape.Contact

/-!
# The nearest contact in exact arithmetic

A surface is a set of points.  The answer of a ray query is right (`ReportsNearest`) if it is the
contact at the least parameter in the interval that leads to the surface, and if there is no
answer only where no parameter in the interval does.

* `reportsNearest_of_roots` : the law for all surfaces that a ray meets where a quadratic with a
  leading term vanishes and a condition on the point holds.
* `ReportsNearest.exists_of_some` : a contact lies on the surface.
-/

namespace RayTracer

open Exact (number)

/-! ### Contacts at roots -/

section Roots

variable {α : Type} [Scalar α] {roots? : Option (α × α)} {range : Interval α}
  {accept : α → Bool} {contact : α → Contact α}

theorem map_t_of_roots (parameter : ∀ t, (contact t).t = t) :
    (do
      let roots ← roots?
      let t ← nearestRoot roots range accept
      return contact t : Option (Contact α)).map (·.t) =
      roots?.bind fun roots => nearestRoot roots range accept := by
  cases roots? with
  | none => rfl
  | some roots =>
    show ((nearestRoot roots range accept).bind fun t => some (contact t)).map (·.t) =
      nearestRoot roots range accept
    cases nearestRoot roots range accept with
    | none => rfl
    | some t => exact congrArg some (parameter t)

theorem eq_contact_of_roots (parameter : ∀ t, (contact t).t = t) {k : Contact α}
    (h : (do
      let roots ← roots?
      let t ← nearestRoot roots range accept
      return contact t) = some k) : k = contact k.t := by
  obtain ⟨roots, -, h⟩ := Option.bind_eq_some_iff.1 h
  obtain ⟨t, -, h⟩ := Option.bind_eq_some_iff.1 h
  obtain rfl := Option.some.inj h
  rw [parameter]

end Roots

/-! ### Nearest contacts -/

variable {K : Type} [Field K] [LinearOrder K] [HasRoots K]

/-- The answer is the contact with the surface at the least parameter in the interval, or there is
neither an answer nor such a parameter. -/
structure ReportsNearest (surface : Vec3 (Exact K) → Prop) (r : Ray (Exact K))
    (range : Interval (Exact K)) (answer : Option (Contact (Exact K))) : Prop where
  least : FindsLeast {t | range.Contains (number t) ∧ surface (r.at (number t))}
    (answer.map (·.t))
  point : ∀ {k}, answer = some k → k.point = r.at k.t

/-- **A contact lies on the surface.** -/
theorem ReportsNearest.exists_of_some {surface : Vec3 (Exact K) → Prop} {r : Ray (Exact K)}
    {range : Interval (Exact K)} {answer : Option (Contact (Exact K))} {k : Contact (Exact K)}
    (h : ReportsNearest surface r range answer) (hk : answer = some k) :
    ∃ t, k.t = number t ∧ k.point = r.at (number t) ∧ surface (r.at (number t)) := by
  have hleast := h.least
  rw [hk] at hleast
  obtain ⟨t, ht, hmem, -⟩ := hleast
  refine ⟨t, ht, ?_, hmem.2⟩
  rw [h.point hk, show k.t = number t from ht]

/-- **A surface that a ray meets where a quadratic vanishes.** -/
theorem reportsNearest_of_roots [IsStrictOrderedRing K] {surface : Vec3 (Exact K) → Prop}
    {r : Ray (Exact K)} {range : Interval (Exact K)} {accept : Exact K → Bool}
    {contact : Exact K → Contact (Exact K)} {a b c : K} (ha : a ≠ 0)
    (parameter : ∀ t, (contact t).t = t) (point : ∀ t, (contact t).point = r.at t)
    (hsurface : ∀ t, surface (r.at (number t)) ↔
      accept (number t) = true ∧ a * (t * t) + b * t + c = 0) :
    ReportsNearest surface r range (do
      let roots ← quadraticRoots (number a) (number b) (number c)
      let t ← nearestRoot roots range accept
      return contact t) where
  least := by
    simp only [map_t_of_roots parameter, hsurface, ← and_assoc]
    exact findsLeast_quadratic ha range accept
  point h := by
    rw [eq_contact_of_roots parameter h, point, parameter]

end RayTracer
