import RayTracer.Number.Power

/-!
# Binary interchange formats and exact values

A `BinaryFormat` is a radix-two floating-point format.  The magnitude part of its words (all bits
but the sign) is the natural number `stride · (exponent - least exponent) + significand`, in
ascending order of the values, so that rounding and its carries are additions.

* `BinaryFormat.significand` and `BinaryFormat.exponent` read a word below infinity as
  `significand · 2 ^ exponent`;
* `BinaryFormat.nearest n d` is the word of the value nearest to the fraction `n / d`, a half way
  case going to the even significand, and infinity where the magnitude is too large;
* `Float32.exact` and `Float.exact` give the exact value of a machine number, from which floors,
  conversions to integers and the narrowing of doubles are computed.
-/

namespace RayTracer

/-- A radix-two format with `fractionBits` stored bits below the leading one. -/
structure BinaryFormat where
  /-- Stored bits of the significand. -/
  fractionBits : Nat
  /-- Magnitude word of infinity. -/
  infinity : Nat
  /-- Word of the sign of a negative number, above all magnitude words. -/
  signBit : Nat
  /-- Exponent of the last place of the smallest values. -/
  leastExponent : Int
  deriving DecidableEq, Repr

namespace BinaryFormat

/-- Single precision. -/
def single : BinaryFormat := ⟨23, 0x7f800000, 0x80000000, -149⟩

/-- Double precision. -/
def double : BinaryFormat := ⟨52, 0x7ff0000000000000, 0x8000000000000000, -1074⟩

variable (f : BinaryFormat)

/-- The word of a sign and a magnitude. -/
def signed (negative : Bool) (magnitude : Nat) : Nat :=
  if negative then f.signBit + magnitude else magnitude

/-- Number of words between two consecutive powers of two. -/
def stride : Nat := power 2 f.fractionBits

/-- Significand of the value that a magnitude word stands for. -/
def significand (word : Nat) : Nat :=
  if word < f.stride then word else word % f.stride + f.stride

/-- Exponent of the last place of the value that a magnitude word stands for. -/
def exponent (word : Nat) : Int :=
  if word < f.stride then f.leastExponent else f.leastExponent + (word / f.stride : Nat) - 1

/-- The fraction `n / (d · 2 ^ e)` rounded to a natural number, a half going to the even one. -/
def roundedQuotient (n d : Nat) (e : Int) : Nat :=
  let n := n * power 2 (-e).toNat
  let d := d * power 2 e.toNat
  let q := n / d
  let r := n % d
  if d < 2 * r ∨ (d = 2 * r ∧ q % 2 = 1) then q + 1 else q

/-- The exponent at which `n / d` has a significand of full length, or the least exponent. -/
def targetExponent (n d : Nat) : Int :=
  let e : Int := (n.log2 : Int) - d.log2 - f.fractionBits - 1
  let e := if n * power 2 (-e).toNat / (d * power 2 e.toNat) < 2 * f.stride then e else e + 1
  max f.leastExponent e

/-- Magnitude word of the value nearest to `n / d`, for a positive denominator. -/
def nearest (n d : Nat) : Nat :=
  if n = 0 then 0
  else
    let e := f.targetExponent n d
    min f.infinity ((e - f.leastExponent).toNat * f.stride + roundedQuotient n d e)

end BinaryFormat

/-- The exact value of a floating-point number. -/
inductive ExactValue where
  /-- Not a number. -/
  | undefined
  | infinite (negative : Bool)
  /-- The value `significand · 2 ^ exponent` with its sign, zero included. -/
  | finite (negative : Bool) (significand : Nat) (exponent : Int)
  deriving DecidableEq, Repr

namespace ExactValue

/-- The value that a magnitude word with a sign stands for. -/
def ofWord (f : BinaryFormat) (negative : Bool) (word : Nat) : ExactValue :=
  if f.infinity < word then undefined
  else if word = f.infinity then infinite negative
  else finite negative (f.significand word) (f.exponent word)

/-- The greatest integer not above the value, clamped to the range from `lo` to `hi`; zero where
there is no value. -/
def floorWithin (lo hi : Int) : ExactValue → Int
  | undefined => 0
  | infinite negative => if negative then lo else hi
  | finite negative m e =>
    let n : Int := (m * power 2 e.toNat : Nat)
    max lo (min hi ((if negative then -n else n) / ((power 2 (-e).toNat : Nat) : Int)))

end ExactValue

end RayTracer

open RayTracer

/-- The exact value of a single. -/
def Float32.exact (x : Float32) : ExactValue :=
  .ofWord .single (BinaryFormat.single.signBit ≤ x.toBits.toNat)
    (x.toBits.toNat % BinaryFormat.single.signBit)

/-- The single with the given sign nearest to the fraction `n / d`. -/
def Float32.ofFraction (negative : Bool) (n d : Nat) : Float32 :=
  .ofBits (.ofNat (BinaryFormat.single.signed negative (BinaryFormat.single.nearest n d)))

/-- Positive infinity. -/
def Float32.infinity : Float32 := .ofBits 0x7f800000

/-- Not a number. -/
def Float32.undefined : Float32 := .ofBits 0x7fc00000

/-- The exact value of a double. -/
def Float.exact (x : Float) : ExactValue :=
  .ofWord .double (BinaryFormat.double.signBit ≤ x.toBits.toNat)
    (x.toBits.toNat % BinaryFormat.double.signBit)

/-- The single nearest to a double. -/
def Float.toSingle (x : Float) : Float32 :=
  match x.exact with
  | .undefined => .undefined
  | .infinite negative => if negative then -.infinity else .infinity
  | .finite negative m e => .ofFraction negative (m * power 2 e.toNat) (power 2 (-e).toNat)
