import RayTracer.Number.Decimal

/-!
# Reading singles from text

`Float32.ofText?` reads a decimal number, rounded correctly to the nearest single: an optional
sign, digits with an optional point among or beside them, and an optional power of ten.  The
words `inf`, `infinity` and `nan` are read in any case.  Anything else, blanks included, is
refused.
-/

namespace RayTracer

/-- The natural number written by a list of digits. -/
def naturalOfDigits (digits : List Char) : Nat :=
  digits.foldl (fun n c => 10 * n + (c.toNat - '0'.toNat)) 0

namespace Decimal

/-- The power of ten after an `e`: an optional sign and at least one digit up to the end. -/
def exponentOfText? (cs : List Char) : Option Int :=
  let (negative, cs) : Bool × List Char := match cs with
    | '-' :: rest => (true, rest)
    | '+' :: rest => (false, rest)
    | _ => (false, cs)
  if cs.isEmpty ∨ ¬ cs.all Char.isDigit then none
  else
    let n : Int := naturalOfDigits cs
    some (if negative then -n else n)

/-- An unsigned decimal number that takes up the whole text. -/
def ofText? (cs : List Char) : Option Decimal := do
  let whole := cs.takeWhile Char.isDigit
  let afterWhole := cs.dropWhile Char.isDigit
  let (fraction, rest) : List Char × List Char := match afterWhole with
    | '.' :: more => (more.takeWhile Char.isDigit, more.dropWhile Char.isDigit)
    | _ => ([], afterWhole)
  if whole.isEmpty ∧ fraction.isEmpty then none
  else
    let exponent ← match rest with
      | [] => some 0
      | c :: power => if c = 'e' ∨ c = 'E' then exponentOfText? power else none
    return ⟨naturalOfDigits (whole ++ fraction), exponent - fraction.length⟩

/-- Magnitude word of the nearest single.  Numbers far outside the range of single precision are
decided by their number of digits alone. -/
def singleWord (d : Decimal) : Nat :=
  let point := d.exponent + (digitsOf d.digits).length
  if d.digits = 0 ∨ point < -60 then 0
  else if 60 < point then BinaryFormat.single.infinity
  else d.word .single

end Decimal

end RayTracer

open RayTracer

/-- The single with the given sign and magnitude word. -/
def Float32.ofWord (negative : Bool) (word : Nat) : Float32 :=
  .ofBits (.ofNat (BinaryFormat.single.signed negative word))

/-- The single that a text without sign stands for, given the sign in front of it. -/
def Float32.ofUnsignedText? (negative : Bool) (cs : List Char) : Option Float32 :=
  let lower := String.ofList (cs.map Char.toLower)
  if lower = "inf" ∨ lower = "infinity" then
    some (.ofWord negative BinaryFormat.single.infinity)
  else if lower = "nan" then some .undefined
  else (Decimal.ofText? cs).map fun d => .ofWord negative d.singleWord

/-- The single that a text stands for. -/
def Float32.ofText? (cs : List Char) : Option Float32 :=
  match cs with
  | '-' :: rest => Float32.ofUnsignedText? true rest
  | '+' :: rest => Float32.ofUnsignedText? false rest
  | _ => Float32.ofUnsignedText? false cs
