import RayTracer.Number.Reading

/-!
# JSON numbers

A `Numeral` is a number as it is written.  It is turned into a machine number in one of two ways:

* an integer that fits a 64-bit word is rounded to single precision in one step;
* everything else goes through double precision: the digits are collected into a 64-bit
  significand for as long as they fit, further ones only count as powers of ten, and the
  significand is multiplied or divided by that power.  This step rounds twice, and its result may
  differ from the nearest double in the last place.

A numeral beyond double precision has no value.
-/

namespace RayTracer

/-- A number as it is written. -/
structure Numeral where
  negative : Bool
  /-- Digits before the point, at least one. -/
  whole : List Char
  /-- Digits after the point, if there is one. -/
  fraction : Option (List Char)
  /-- Whether the exponent is negative and its digits, if there is one. -/
  exponent : Option (Bool × List Char)
  deriving DecidableEq, Repr

end RayTracer

open RayTracer

/-- The double with the given sign nearest to the fraction `n / d`. -/
def Float.ofFraction (negative : Bool) (n d : Nat) : Float :=
  .ofBits (.ofNat (BinaryFormat.double.signed negative (BinaryFormat.double.nearest n d)))

/-- The double nearest to a power of ten. -/
def Float.powerOfTen (k : Nat) : Float := .ofFraction false (power 10 k) 1

/-- A double divided by `10 ^ k` in steps of at most 308 places. -/
def Float.dividePower (x : Float) (k : Nat) : Float :=
  if k ≤ 308 then x / .powerOfTen k
  else if x == 0.0 then x
  else Float.dividePower (x / .powerOfTen 308) (k - 308)
termination_by k

/-- A double multiplied by `10 ^ k`, unless that is out of range. -/
def Float.multiplyPower? (x : Float) (k : Nat) : Option Float :=
  if k ≤ 308 then
    let y := x * .powerOfTen k
    if y.isInf then none else some y
  else if x == 0.0 then some x
  else none

namespace RayTracer.Numeral

/-- Greatest 64-bit word. -/
def maxWord : Nat := UInt64.size - 1

/-- Greatest exponent that is told apart from larger ones. -/
def maxExponent : Nat := 0x7fffffff

/-- Appends digits to a significand for as long as it fits a 64-bit word, and gives the digits
that are left. -/
def collect (significand : Nat) : List Char → Nat × List Char
  | [] => (significand, [])
  | c :: rest =>
    let next := 10 * significand + (c.toNat - '0'.toNat)
    if next ≤ maxWord then collect next rest else (significand, c :: rest)

variable (n : Numeral)

/-- The written digits as a 64-bit significand and a power of ten. -/
def parts : Nat × Int :=
  let (significand, dropped) := collect 0 n.whole
  let fraction := n.fraction.getD []
  let (significand, ignored) := collect significand fraction
  (significand, (dropped.length : Int) - (fraction.length - ignored.length : Nat))

/-- Absolute value in double precision, unless it is out of range. -/
def magnitude? : Option Float :=
  let (significand, shift) := n.parts
  let x : Float := .ofFraction false significand 1
  let scaled (power : Int) : Option Float :=
    if 0 ≤ power then x.multiplyPower? power.toNat else some (x.dividePower (-power).toNat)
  match n.exponent with
  | none => if n.fraction.isNone ∧ shift = 0 then some x else scaled shift
  | some (negativePower, digits) =>
    let power := naturalOfDigits digits
    if maxExponent < power then
      if significand ≠ 0 ∧ ¬ negativePower then none else some 0.0
    else scaled (shift + if negativePower then -(power : Int) else power)

/-- The value in double precision, unless it is out of range. -/
def double? : Option Float := n.magnitude?.map fun x => if n.negative then -x else x

/-- Neither a point nor an exponent. -/
def isInteger : Bool := n.fraction.isNone && n.exponent.isNone

/-- The value of a nonnegative integer. -/
def natural? : Option Nat :=
  if n.isInteger ∧ ¬ n.negative then some (naturalOfDigits n.whole) else none

/-- The value in single precision, unless it is out of the range of doubles. -/
def single? : Option Float32 :=
  let m := naturalOfDigits n.whole
  if n.isInteger ∧ (if n.negative then m ≠ 0 ∧ m ≤ 0x8000000000000000 else m ≤ maxWord) then
    some (.ofFraction n.negative m 1)
  else n.double?.map Float.toSingle

end RayTracer.Numeral
