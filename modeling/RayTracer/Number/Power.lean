/-!
# Powers of natural numbers

`power b k` is the product of `k` factors `b`.  Number formats and decimals are full of powers of
two, five and ten whose exponents are computed; this function evaluates them on machine integers of
any size.
-/

namespace RayTracer

/-- The product of `exponent` factors `base`. -/
def power (base exponent : Nat) : Nat := Nat.pow base exponent

@[simp] theorem power_zero (base : Nat) : power base 0 = 1 := rfl

/-- Powers of a positive base are positive. -/
theorem power_pos {base : Nat} (h : 0 < base) (exponent : Nat) : 0 < power base exponent :=
  Nat.pow_pos h

end RayTracer
