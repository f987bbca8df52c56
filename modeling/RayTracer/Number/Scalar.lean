/-!
# Scalars

`Scalar α` is the arithmetic that the geometry of the ray tracer uses: the four operations, a
square root, an absolute value, comparisons that can be tested and decimal constants.  No law of
arithmetic or order is assumed, so the same formulas run on rounded machine numbers and can be
read over exact ones.

* `Scalar.Same a b` is equality as the comparisons see it: a value that compares with nothing is
  not even the same as itself, and two zeros of different sign are the same;
* `Scalar.positivePart x` is `x` where `x` is above zero, and zero otherwise, also for a value
  that compares with nothing;
* `Float32` is the instance that the program runs on: single precision, one rounding for each
  operation.
-/

namespace RayTracer

/-- Arithmetic, tests of order and decimal constants of a number type. -/
class Scalar (α : Type) extends
    Add α, Sub α, Mul α, Div α, Neg α, LE α, LT α, OfScientific α where
  /-- The test of `a ≤ b`. -/
  atMost : α → α → Bool
  atMost_iff : ∀ a b : α, atMost a b = true ↔ a ≤ b
  /-- The test of `a < b`. -/
  below : α → α → Bool
  below_iff : ∀ a b : α, below a b = true ↔ a < b
  /-- Square root. -/
  sqrt : α → α
  /-- Absolute value. -/
  abs : α → α
  /-- Neither infinite nor undefined. -/
  isFinite : α → Bool

namespace Scalar

variable {α : Type} [Scalar α]

instance : DecidableLE α := fun a b => decidable_of_iff _ (atMost_iff a b)

instance : DecidableLT α := fun a b => decidable_of_iff _ (below_iff a b)

/-- `a` and `b` are equal as far as comparisons can tell. -/
def Same (a b : α) : Prop := a ≤ b ∧ b ≤ a

instance (a b : α) : Decidable (Same a b) := inferInstanceAs (Decidable (a ≤ b ∧ b ≤ a))

/-- `x` where it is above zero, and zero otherwise. -/
def positivePart (x : α) : α := if (0.0 : α) < x then x else 0.0

end Scalar

/-- Single precision, one rounding for each operation. -/
instance : Scalar Float32 where
  atMost := Float32.le
  atMost_iff _ _ := Iff.rfl
  below := Float32.lt
  below_iff _ _ := Iff.rfl
  sqrt := Float32.sqrt
  abs := Float32.abs
  isFinite := Float32.isFinite

end RayTracer
