import Mathlib.Algebra.QuadraticDiscriminant
import Mathlib.Order.Bounds.Basic
import RayTracer.Geometry.Quadratic
import RayTracer.Proofs.Number.ExactField

/-!
# Roots of quadratics in exact arithmetic

* `FindsLeast` : an answer is the least element of a set, or there is none and the set is empty.
  `FindsLeast.eq_some` : a set with a least element leaves no other answer.
* `exists_quadraticRoots` : with a discriminant that is not negative, the two roots are given in
  ascending order.
* `findsLeast_quadratic` : **the least root in an interval that satisfies a further condition is
  found**, as long as the quadratic has a leading term.
* `quadratic_linear_eq_none` : without a leading term, nothing is found.
-/

namespace RayTracer

open Exact (number undefined)
open HasRoots (root root_mul_root)

/-- The answer is the least element of the set, or there is none and the set is empty. -/
def FindsLeast {K : Type} [LE K] (S : Set K) : Option (Exact K) → Prop
  | none => ∀ t, t ∉ S
  | some x => ∃ t, x = number t ∧ IsLeast S t

theorem FindsLeast.eq_some {K : Type} [PartialOrder K] {S : Set K} {answer : Option (Exact K)}
    {t : K} (h : FindsLeast S answer) (ht : IsLeast S t) : answer = some (number t) := by
  cases answer with
  | none => exact absurd ht.1 (h t)
  | some x =>
    obtain ⟨t', rfl, ht'⟩ := h
    rw [ht'.unique ht]

variable {K : Type} [Field K] [LinearOrder K] [HasRoots K]

/-- The smaller one of two numbers that satisfies the conditions is found. -/
theorem findsLeast_nearestRoot {x y : K} (hle : x ≤ y) (range : Interval (Exact K))
    (accept : Exact K → Bool) :
    FindsLeast {t | (range.Contains (number t) ∧ accept (number t) = true) ∧ (t = x ∨ t = y)}
      (nearestRoot (number x, number y) range accept) := by
  simp only [nearestRoot, List.find?_cons, List.find?_nil]
  by_cases hx : range.Contains (number x) ∧ accept (number x) = true
  · rw [decide_eq_true hx]
    refine ⟨x, rfl, ⟨hx, .inl rfl⟩, ?_⟩
    rintro t ⟨-, rfl | rfl⟩
    · exact le_refl t
    · exact hle
  · rw [decide_eq_false hx]
    by_cases hy : range.Contains (number y) ∧ accept (number y) = true
    · rw [decide_eq_true hy]
      refine ⟨y, rfl, ⟨hy, .inr rfl⟩, ?_⟩
      rintro t ⟨ht, rfl | rfl⟩
      · exact absurd ht hx
      · exact le_refl t
    · rw [decide_eq_false hy]
      rintro t ⟨ht, rfl | rfl⟩
      · exact hx ht
      · exact hy ht

variable [IsStrictOrderedRing K] {a b c : K}

theorem quadraticRoots_number (a b c : K) :
    quadraticRoots (number a) (number b) (number c) =
      if discrim a b c < 0 then none
      else
        let t₀ := number (-b - root (discrim a b c)) / number (2 * a)
        let t₁ := number (-b + root (discrim a b c)) / number (2 * a)
        if t₀ ≤ t₁ then some (t₀, t₁) else some (t₁, t₀) := by
  have hdiscrim : b * b - 4 * a * c = discrim a b c := by
    rw [discrim]
    ring
  simp only [quadraticRoots, Exact.four_eq, Exact.two_eq, Exact.zero_eq, Exact.number_mul,
    Exact.number_sub, Exact.number_lt_number, hdiscrim]
  split
  · rfl
  · rename_i h
    simp only [Exact.sqrt_number (not_lt.1 h), Exact.number_neg, Exact.number_sub,
      Exact.number_add]

/-- **Both roots, in ascending order.** -/
theorem exists_quadraticRoots (ha : a ≠ 0) (h : 0 ≤ discrim a b c) :
    ∃ x y : K, x ≤ y ∧
      quadraticRoots (number a) (number b) (number c) = some (number x, number y) ∧
      ∀ t, a * (t * t) + b * t + c = 0 ↔ t = x ∨ t = y := by
  have htwo : 2 * a ≠ 0 := mul_ne_zero two_ne_zero ha
  have hroots := quadratic_eq_zero_iff ha (root_mul_root h).symm
  rw [quadraticRoots_number, if_neg (not_lt.2 h)]
  simp only [Exact.number_div _ htwo, Exact.number_le_number]
  split
  · rename_i hle
    exact ⟨_, _, hle, rfl, fun t => (hroots t).trans or_comm⟩
  · rename_i hle
    exact ⟨_, _, (le_total _ _).resolve_left hle, rfl, hroots⟩

/-- **The least root that satisfies the conditions is found.** -/
theorem findsLeast_quadratic (ha : a ≠ 0) (range : Interval (Exact K))
    (accept : Exact K → Bool) :
    FindsLeast {t | (range.Contains (number t) ∧ accept (number t) = true) ∧
        a * (t * t) + b * t + c = 0}
      ((quadraticRoots (number a) (number b) (number c)).bind
        fun roots => nearestRoot roots range accept) := by
  rcases lt_or_ge (discrim a b c) 0 with hneg | hpos
  · rw [quadraticRoots_number, if_pos hneg]
    rintro t ⟨-, ht⟩
    -- the discriminant of a quadratic with a root is a square
    rw [discrim_eq_sq_of_quadratic_eq_zero ht] at hneg
    exact absurd (sq_nonneg _) (not_le.2 hneg)
  · obtain ⟨x, y, hle, hroots, hzero⟩ := exists_quadraticRoots ha hpos
    simp only [hroots, Option.bind_some, hzero]
    exact findsLeast_nearestRoot hle range accept

/-- **Without a leading term nothing is found**: both quotients are undefined. -/
theorem quadratic_linear_eq_none (range : Interval (Exact K)) (accept : Exact K → Bool) :
    ((quadraticRoots (number 0) (number b) (number c)).bind
      fun roots => nearestRoot roots range accept) = none := by
  rw [quadraticRoots_number, mul_zero]
  simp only [Exact.number_div_zero, Exact.not_undefined_le, if_false]
  split
  · rfl
  · simp [nearestRoot, Exact.not_contains_undefined]

end RayTracer
