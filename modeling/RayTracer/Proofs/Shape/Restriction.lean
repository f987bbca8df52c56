import RayTracer.Primitive
import RayTracer.Proofs.Number.Order

/-!
# Shapes and the interval

Every shape treats the interval of a ray query in the same way (`ObeysInterval`): a contact lies
in the interval, and lowering the upper end of the interval drops the contact if it is above the
new end and changes nothing otherwise.  In particular no other contact takes its place: the larger
root of a quadratic lies above every end that the smaller one lies above.

* `nearestRoot_withMax` : the law for the choice among two roots in ascending order.
* `Shape.obeysInterval`, `Primitive.hit_withMax` : the law for all shapes and primitives.

The roots are only in ascending order where they compare.  That is enough, since a root that does
not compare lies in no interval.
-/

namespace RayTracer

variable {α : Type} [Scalar α]

/-- The contact lies in the interval, and lowering the upper end of the interval only drops
contacts above it. -/
structure ObeysInterval (hit : Interval α → Option (Contact α)) : Prop where
  contains : ∀ {range : Interval α} {c : Contact α}, hit range = some c → range.Contains c.t
  withMax : ∀ {range : Interval α} {m : α}, m ≤ range.max →
    hit (range.withMax m) = (hit range).filter fun c => c.t ≤ m

/-- The first root is not above the second where both compare with themselves. -/
def Ascending (roots : α × α) : Prop :=
  roots.1 ≤ roots.1 → roots.2 ≤ roots.2 → roots.1 ≤ roots.2

/-- A condition that does not depend on the interval may come first. -/
theorem ObeysInterval.ite {hit : Interval α → Option (Contact α)} (p : Prop) [Decidable p]
    (h : ObeysInterval hit) : ObeysInterval fun range => if p then none else hit range := by
  by_cases hp : p
  · simp only [hp, if_true]
    exact ⟨nofun, fun _ => rfl⟩
  · simp only [hp, if_false]
    exact h

/-! ### The choice among two roots -/

section Roots

variable [Scalar.LawfulOrder α]

open Scalar.LawfulOrder

theorem contains_withMax {range : Interval α} {m t : α} (h : m ≤ range.max) :
    (range.withMax m).Contains t ↔ range.Contains t ∧ t ≤ m := by
  constructor
  · rintro ⟨hmin, hm⟩
    exact ⟨⟨hmin, le_trans hm h⟩, hm⟩
  · rintro ⟨⟨hmin, -⟩, hm⟩
    exact ⟨hmin, hm⟩

theorem ascending_of_quadraticRoots {a b c : α} {roots : α × α}
    (h : quadraticRoots a b c = some roots) : Ascending roots := by
  intro h₁ h₂
  simp only [quadraticRoots] at h
  split at h
  · cases h
  · split at h
    · obtain rfl := Option.some.inj h
      assumption
    · rename_i hle
      obtain rfl := Option.some.inj h
      exact (le_total h₁ h₂).resolve_right hle

theorem nearestRoot_withMax {roots : α × α} {range : Interval α} {accept : α → Bool} {m : α}
    (ascending : Ascending roots) (h : m ≤ range.max) :
    nearestRoot roots (range.withMax m) accept =
      (nearestRoot roots range accept).filter fun t => t ≤ m := by
  obtain ⟨t₀, t₁⟩ := roots
  simp only [nearestRoot, List.find?_cons, List.find?_nil, contains_withMax h]
  by_cases h₀ : range.Contains t₀ ∧ accept t₀ = true
  · by_cases hm : t₀ ≤ m
    · simp [h₀, hm, Option.filter_some]
    · -- the second root is above the new end as well
      have h₁ : ¬(range.Contains t₁ ∧ t₁ ≤ m) := by
        rintro ⟨-, hm₁⟩
        exact hm (le_trans (ascending (le_self_left h₀.1.2) (le_self_left hm₁)) hm₁)
      simp [h₀, hm, h₁, Option.filter_some]
  · have h₀' : ¬((range.Contains t₀ ∧ t₀ ≤ m) ∧ accept t₀ = true) := by
      rintro ⟨⟨hr, -⟩, ha⟩
      exact h₀ ⟨hr, ha⟩
    by_cases h₁ : range.Contains t₁ ∧ accept t₁ = true
    · by_cases hm : t₁ ≤ m <;> simp [h₀, h₀', h₁, hm, Option.filter_some]
    · have h₁' : ¬((range.Contains t₁ ∧ t₁ ≤ m) ∧ accept t₁ = true) := by
        rintro ⟨⟨hr, -⟩, ha⟩
        exact h₁ ⟨hr, ha⟩
      simp [h₀, h₀', h₁, h₁']

/-! ### Shapes -/

/-- A shape that is met where a quadratic vanishes obeys the interval. -/
theorem obeysInterval_of_roots {roots? : Option (α × α)} {accept : α → Bool}
    {contact : α → Contact α} (ascending : ∀ roots, roots? = some roots → Ascending roots)
    (parameter : ∀ t, (contact t).t = t) :
    ObeysInterval fun range => do
      let roots ← roots?
      let t ← nearestRoot roots range accept
      return contact t := by
  cases roots? with
  | none => exact ⟨nofun, fun _ => rfl⟩
  | some roots =>
    have hroots : Ascending roots := ascending roots rfl
    refine ⟨?_, ?_⟩
    · intro range c h
      change (nearestRoot roots range accept).bind (fun t => some (contact t)) = some c at h
      obtain ⟨t, ht, hc⟩ := Option.bind_eq_some_iff.1 h
      obtain rfl := Option.some.inj hc
      rw [parameter]
      exact (of_nearestRoot_eq_some ht).2.1
    · intro range m hm
      show (nearestRoot roots (range.withMax m) accept).bind _ =
        Option.filter _ ((nearestRoot roots range accept).bind _)
      rw [nearestRoot_withMax hroots hm]
      cases hr : nearestRoot roots range accept with
      | none => rfl
      | some t => by_cases ht : t ≤ m <;> simp [ht, parameter, Option.filter_some]

theorem Sphere.obeysInterval (s : Sphere α) (r : Ray α) : ObeysInterval (s.hit r) :=
  obeysInterval_of_roots (fun _ => ascending_of_quadraticRoots) fun _ => rfl

theorem Cone.obeysInterval (c : Cone α) (r : Ray α) : ObeysInterval (c.hit r) :=
  obeysInterval_of_roots (fun _ => ascending_of_quadraticRoots) fun _ => rfl

theorem Cylinder.obeysInterval (c : Cylinder α) (r : Ray α) : ObeysInterval (c.hit r) := by
  refine .ite _ (.ite _ ?_)
  exact obeysInterval_of_roots (fun _ => ascending_of_quadraticRoots) fun _ => rfl

theorem Plane.obeysInterval (p : Plane α) (r : Ray α) : ObeysInterval (p.hit r) := by
  refine .ite _ ⟨?_, ?_⟩
  · intro range c h
    split at h
    · obtain rfl := Option.some.inj h
      assumption
    · cases h
  · intro range m hm
    simp only [contains_withMax hm]
    generalize (p.point - r.origin).dot p.normal / r.direction.dot p.normal = t
    by_cases hr : range.Contains t
    · by_cases ht : t ≤ m <;> simp [hr, ht, Option.filter_some]
    · simp [hr]

theorem Shape.obeysInterval (s : Shape α) (r : Ray α) : ObeysInterval (s.hit r) := by
  cases s with
  | sphere s => exact s.obeysInterval r
  | plane p => exact p.obeysInterval r
  | cone c => exact c.obeysInterval r
  | cylinder c => exact c.obeysInterval r

namespace Primitive

theorem contains_of_hit {p : Primitive α} {r : Ray α} {range : Interval α} {h : Hit α}
    (hit : p.hit r range = some h) : range.Contains h.t := by
  obtain ⟨c, hc, rfl⟩ := Option.map_eq_some_iff.1 hit
  exact (p.shape.obeysInterval r).contains hc

/-- **Lowering the upper end of the interval drops the hit if it is above the new end, and changes
nothing otherwise.** -/
theorem hit_withMax (p : Primitive α) (r : Ray α) {range : Interval α} {m : α}
    (h : m ≤ range.max) :
    p.hit r (range.withMax m) = (p.hit r range).filter fun hit => hit.t ≤ m := by
  rw [hit, hit, (p.shape.obeysInterval r).withMax h, Option.filter_map]
  rfl

end Primitive

end Roots

end RayTracer
