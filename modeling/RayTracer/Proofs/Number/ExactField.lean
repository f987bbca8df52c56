import Mathlib.Analysis.Real.Sqrt
import RayTracer.Geometry.Ray

/-!
# Exact arithmetic

What the formulas of the geometry mean is said over exact numbers instead of rounded ones: the
elements of an ordered field in which everything that is not negative has a square root
(`HasRoots`).  Machine numbers have three further values, which `Exact K` adds to such a field.  Two
of them stand at the ends of the order and only serve as ends of intervals.  The third one compares
with nothing: a quotient by zero has this value, and so has every result that is computed from one.

* `Exact.number_add`, `Exact.number_div` and so on : **on numbers, all operations are those of the
  field**, as long as nothing is divided by zero and no root of a negative number is taken.
* `Exact.not_contains_undefined` : an undefined value lies in no interval.
* `root_eq_iff` : roots are determined by their squares.
-/

namespace RayTracer

/-- Square roots of all numbers that are not negative. -/
class HasRoots (K : Type) [Zero K] [Mul K] [LE K] where
  root : K → K
  root_nonneg : ∀ x, 0 ≤ root x
  root_mul_root : ∀ {x}, 0 ≤ x → root x * root x = x

noncomputable instance : HasRoots ℝ := ⟨Real.sqrt, Real.sqrt_nonneg, Real.mul_self_sqrt⟩

/-- The numbers of `K`, the two ends of their order and a value that compares with nothing. -/
inductive Exact (K : Type) where
  | number (x : K)
  | infinite (negative : Bool)
  | undefined

open HasRoots (root root_nonneg root_mul_root)

variable {K : Type} [Field K] [LinearOrder K] [HasRoots K]

namespace Exact

/-- An operation on numbers.  There is no other arithmetic. -/
def onNumbers (f : K → K → K) : Exact K → Exact K → Exact K
  | number x, number y => number (f x y)
  | _, _ => undefined

/-- The quotient of two numbers, the second one not zero. -/
def quotient : Exact K → Exact K → Exact K
  | number x, number y => if y = 0 then undefined else number (x / y)
  | _, _ => undefined

/-- The order of the numbers and its two ends. -/
def atMost : Exact K → Exact K → Bool
  | undefined, _ | _, undefined => false
  | infinite true, _ | _, infinite false => true
  | infinite false, _ | _, infinite true => false
  | number x, number y => x ≤ y

instance : Scalar (Exact K) where
  add := onNumbers (· + ·)
  sub := onNumbers (· - ·)
  mul := onNumbers (· * ·)
  div := quotient
  neg := onNumbers (· - ·) (number 0)
  le a b := atMost a b = true
  lt a b := (atMost a b && !atMost b a) = true
  ofScientific m s e := number (OfScientific.ofScientific m s e)
  atMost := atMost
  atMost_iff _ _ := Iff.rfl
  below a b := atMost a b && !atMost b a
  below_iff _ _ := Iff.rfl
  sqrt
    | number x => if 0 ≤ x then number (root x) else undefined
    | _ => undefined
  abs
    | number x => number |x|
    | _ => undefined
  isFinite
    | number _ => true
    | _ => false

variable {x y : K}

@[simp] theorem number_add (x y : K) : number x + number y = number (x + y) := rfl

@[simp] theorem number_sub (x y : K) : number x - number y = number (x - y) := rfl

@[simp] theorem number_mul (x y : K) : number x * number y = number (x * y) := rfl

@[simp] theorem number_neg (x : K) : -number x = number (-x) := congrArg number (zero_sub x)

theorem number_div (x : K) (h : y ≠ 0) : number x / number y = number (x / y) := if_neg h

theorem number_div_zero (x : K) : number x / number 0 = undefined := if_pos rfl

@[simp] theorem number_le_number : number x ≤ number y ↔ x ≤ y := decide_eq_true_iff

@[simp] theorem number_lt_number : number x < number y ↔ x < y := by
  have h : number x < number y ↔ (decide (x ≤ y) && !decide (y ≤ x)) = true := Iff.rfl
  simp only [h, Bool.and_eq_true, decide_eq_true_eq, Bool.not_eq_true', decide_eq_false_iff_not,
    lt_iff_le_not_ge]

@[simp] theorem sqrt_number (h : 0 ≤ x) : Scalar.sqrt (number x) = number (root x) := if_pos h

@[simp] theorem abs_number (x : K) : Scalar.abs (number x) = number |x| := rfl

@[simp] theorem isFinite_number (x : K) : Scalar.isFinite (number x) = true := rfl

theorem not_undefined_le (a : Exact K) : ¬undefined ≤ a := nofun

theorem not_lt_of_le {a b : Exact K} (h : a ≤ b) : ¬b < a := by
  intro hlt
  have hnot : (atMost b a && !atMost a b) = true := hlt
  rw [show atMost a b = true from h, Bool.not_true, Bool.and_false] at hnot
  exact Bool.false_ne_true hnot

/-- **An undefined value lies in no interval.** -/
theorem not_contains_undefined (range : Interval (Exact K)) : ¬range.Contains undefined :=
  fun h => not_undefined_le _ h.2

section Constants

variable [IsStrictOrderedRing K]

theorem zero_eq : (0.0 : Exact K) = number 0 := by
  show number (OfScientific.ofScientific 0 true 1 : K) = number 0
  norm_num

theorem one_eq : (1.0 : Exact K) = number 1 := by
  show number (OfScientific.ofScientific 10 true 1 : K) = number 1
  norm_num

theorem two_eq : (2.0 : Exact K) = number 2 := by
  show number (OfScientific.ofScientific 20 true 1 : K) = number 2
  norm_num

theorem four_eq : (4.0 : Exact K) = number 4 := by
  show number (OfScientific.ofScientific 40 true 1 : K) = number 4
  norm_num

end Constants

end Exact

/-! ### Roots -/

theorem root_pos {x : K} (h : 0 < x) : 0 < root x := by
  refine (root_nonneg x).lt_of_ne fun hzero => h.ne' ?_
  rw [← root_mul_root h.le, ← hzero, mul_zero]

/-- **Roots are determined by their squares.** -/
theorem root_eq_iff [IsStrictOrderedRing K] {x y : K} (hx : 0 ≤ x) (hy : 0 ≤ y) :
    root x = y ↔ x = y * y := by
  rw [← mul_self_inj (root_nonneg x) hy, root_mul_root hx]

end RayTracer
