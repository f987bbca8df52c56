import RayTracer.Number.Binary

/-!
# Decimal text of singles

`Decimal` is a number `digits · 10 ^ exponent`.  `Decimal.shortest` finds, for a magnitude word of
single precision, the decimal with the fewest digits that reads back to the same word, of two such
decimals the nearer one, and of two equally near ones the greater one.  It tries one digit, two
digits, and so on, testing the two neighbours of the exact value on each decimal grid, and falls
back on the exact expansion, which always reads back.

`NumberStyle` collects the decisions about the text: which magnitudes are written with an exponent,
and whether a whole number keeps a fraction.  `Float32.text` writes a single in a style.
-/

namespace RayTracer

/-- The number `digits · 10 ^ exponent`. -/
structure Decimal where
  digits : Nat
  exponent : Int
  deriving DecidableEq, Repr

namespace Decimal

/-- The digits of a natural number in base ten, the first one first. -/
def digitsOf (n : Nat) : List Char := Nat.toDigits 10 n

/-- Magnitude word of the value of format `f` nearest to the decimal. -/
def word (f : BinaryFormat) (d : Decimal) : Nat :=
  f.nearest (d.digits * power 10 d.exponent.toNat) (power 10 (-d.exponent).toNat)

/-- The same number without zeros at the end of its digits. -/
def normalize (d : Decimal) : Decimal :=
  let kept := ((digitsOf d.digits).reverse.dropWhile (· == '0')).length
  let dropped := (digitsOf d.digits).length - kept
  ⟨d.digits / power 10 dropped, d.exponent + dropped⟩

/-- The exact decimal expansion of `m · 2 ^ e`. -/
def ofBinary (m : Nat) (e : Int) : Decimal :=
  if 0 ≤ e then ⟨m * power 2 e.toNat, 0⟩ else ⟨m * power 5 (-e).toNat, e⟩

/-- Position of the decimal point of `n / d`: the number of digits before it, or minus the number
of zeros after it.  Exact for every nonzero single. -/
def magnitude (n d : Nat) : Int := (digitsOf (n * power 10 60 / d)).length - 60

/-- The decimals next to `n / d` on the grid of multiples of `10 ^ exponent`, the nearer first; in
the middle between them, the greater first. -/
def neighbours (n d : Nat) (exponent : Int) : List Decimal :=
  let n := n * power 10 (-exponent).toNat
  let d := d * power 10 exponent.toNat
  let low : Decimal := ⟨n / d, exponent⟩
  let high : Decimal := ⟨n / d + 1, exponent⟩
  if 2 * (n % d) < d then [low, high] else [high, low]

/-- The decimal with the fewest digits that reads back to the magnitude word. -/
def shortest (word : Nat) : Decimal :=
  let exact := ofBinary (BinaryFormat.single.significand word) (BinaryFormat.single.exponent word)
  let n := exact.digits * power 10 exact.exponent.toNat
  let d := power 10 (-exact.exponent).toNat
  let point := magnitude n d
  let candidates := (List.range 9).flatMap fun k => neighbours n d (point - (k + 1 : Nat))
  (candidates.find? fun c => c.word .single == word).getD exact

/-- The shortest decimal is nearest to the word that it was made for, or it is the exact
expansion of that word's value. -/
theorem word_shortest (word : Nat) :
    (shortest word).word .single = word ∨
      shortest word =
        ofBinary (BinaryFormat.single.significand word) (BinaryFormat.single.exponent word) := by
  unfold shortest
  simp only
  generalize List.flatMap _ _ = candidates
  cases h : candidates.find? fun c => c.word .single == word with
  | none => exact .inr rfl
  | some c => exact .inl (by simpa using List.find?_some h)

end Decimal

/-- Decisions about the text of a single. -/
structure NumberStyle where
  /-- Least magnitude word that is written with an exponent, as are all above it. -/
  largeFrom : Option Nat
  /-- Nonzero magnitude words below this one are written with an exponent. -/
  smallBelow : Nat
  /-- Whole numbers in positional notation end in `.0`. -/
  keepsFraction : Bool
  deriving DecidableEq, Repr

namespace NumberStyle

/-- Constructor literals of the shading language: positional from `0.0001` up to below `1e16`, and
always with a point or an exponent, so that they are read as floating-point literals. -/
def literal : NumberStyle := ⟨some 0x5a0e1bca, 0x38d1b717, true⟩

/-- Numbers inside messages: never an exponent, and no fraction on whole numbers. -/
def message : NumberStyle := ⟨none, 0, false⟩

variable (style : NumberStyle)

/-- Digits with a decimal point after the first `point` of them. -/
def positional (digits : List Char) (point : Int) : List Char :=
  if point ≤ 0 then '0' :: '.' :: List.replicate (-point).toNat '0' ++ digits
  else if (digits.length : Int) ≤ point then
    digits ++ List.replicate (point.toNat - digits.length) '0' ++
      if style.keepsFraction then ['.', '0'] else []
  else digits.take point.toNat ++ '.' :: digits.drop point.toNat

/-- Digits with a point after the first one, and the power of ten that follows. -/
def exponential (digits : List Char) (point : Int) : List Char :=
  let fraction := digits.drop 1
  let exponent := point - 1
  digits.take 1 ++ (if fraction.isEmpty then [] else '.' :: fraction) ++
    'e' :: (if exponent < 0 then ['-'] else []) ++ Decimal.digitsOf exponent.natAbs

/-- Text of the nonzero finite value of a magnitude word. -/
def magnitude (word : Nat) : List Char :=
  let d := (Decimal.shortest word).normalize
  let digits := Decimal.digitsOf d.digits
  let point := d.exponent + digits.length
  if style.largeFrom.any (· ≤ word) ∨ word < style.smallBelow then
    exponential digits point
  else style.positional digits point

/-- Text of a zero without its sign. -/
def zero : List Char := if style.keepsFraction then ['0', '.', '0'] else ['0']

/-- Text of a single given by its sign and its magnitude word. -/
def ofWord (negative : Bool) (word : Nat) : List Char :=
  if BinaryFormat.single.infinity < word then ['N', 'a', 'N']
  else
    (if negative then ['-'] else []) ++
      if word = BinaryFormat.single.infinity then ['i', 'n', 'f']
      else if word = 0 then style.zero
      else style.magnitude word

end NumberStyle

end RayTracer

/-- The text of a single in the given style. -/
def Float32.text (x : Float32) (style : RayTracer.NumberStyle) : List Char :=
  let signBit := RayTracer.BinaryFormat.single.signBit
  style.ofWord (signBit ≤ x.toBits.toNat) (x.toBits.toNat % signBit)
