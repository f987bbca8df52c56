import RayTracer.Json.Basic

/-!
# JSON tokens

`Token.ofText?` cuts a text into the tokens of JSON.  Between tokens a blank, a tab, a line feed or
a carriage return is skipped.  Every scanner gives the text that it leaves, which is shorter than
the text it was given.
-/

namespace RayTracer

/-- The smallest parts of a JSON text. -/
inductive Token where
  | openArray
  | closeArray
  | openObject
  | closeObject
  | comma
  | colon
  | null
  | bool (value : Bool)
  | number (value : Numeral)
  | string (value : Option String)
  deriving DecidableEq, Repr

namespace Token

/-! ### Strings -/

/-- Part of a string: a character, or a UTF-16 code unit written as four hexadecimal digits. -/
inductive Piece where
  | char (c : Char)
  | unit (code : Nat)
  deriving DecidableEq, Repr

/-- The value of a hexadecimal digit. -/
def hexDigit? (c : Char) : Option Nat :=
  if c.isDigit then some (c.toNat - '0'.toNat)
  else if 'a' ≤ c ∧ c ≤ 'f' then some (c.toNat - 'a'.toNat + 10)
  else if 'A' ≤ c ∧ c ≤ 'F' then some (c.toNat - 'A'.toNat + 10)
  else none

/-- The character that a letter after a backslash stands for. -/
def escaped? : Char → Option Char
  | '"' => some '"'
  | '\\' => some '\\'
  | '/' => some '/'
  | 'b' => some '\x08'
  | 'f' => some '\x0c'
  | 'n' => some '\n'
  | 'r' => some '\r'
  | 't' => some '\t'
  | _ => none

/-- The pieces of a string up to its closing quote, and the text after it. -/
def scanString : List Char → Option (List Piece × List Char)
  | [] => none
  | '"' :: rest => some ([], rest)
  | '\\' :: 'u' :: a :: b :: c :: d :: rest => do
    let a ← hexDigit? a
    let b ← hexDigit? b
    let c ← hexDigit? c
    let d ← hexDigit? d
    let (pieces, rest) ← scanString rest
    return (.unit (((a * 16 + b) * 16 + c) * 16 + d) :: pieces, rest)
  | '\\' :: c :: rest => do
    let c ← escaped? c
    let (pieces, rest) ← scanString rest
    return (.char c :: pieces, rest)
  | c :: rest =>
    if c.toNat < 0x20 ∨ c = '\\' then none
    else do
      let (pieces, rest) ← scanString rest
      return (.char c :: pieces, rest)

theorem length_of_scanString {cs rest : List Char} {pieces : List Piece}
    (h : scanString cs = some (pieces, rest)) : rest.length < cs.length := by
  fun_induction scanString cs generalizing pieces rest with
  | case1 => simp at h
  | case2 tail => simp at h; simp [h]
  | case3 a b c d tail ih =>
    simp only [Option.bind_eq_bind, Option.bind_eq_some_iff] at h
    obtain ⟨_, _, _, _, _, _, _, _, ⟨_, _⟩, hr, h⟩ := h
    have := ih hr
    simp at h
    simp [← h.2]
    omega
  | case4 c tail _ ih =>
    simp only [Option.bind_eq_bind, Option.bind_eq_some_iff] at h
    obtain ⟨_, _, ⟨_, _⟩, hr, h⟩ := h
    have := ih hr
    simp at h
    simp [← h.2]
    omega
  | case5 => simp at h
  | case6 c tail _ _ _ _ ih =>
    simp only [Option.bind_eq_bind, Option.bind_eq_some_iff] at h
    obtain ⟨⟨_, _⟩, hr, h⟩ := h
    have := ih hr
    simp at h
    simp [← h.2]
    omega

/-- The characters that the pieces stand for.  Two units that form a surrogate pair are one
character, and half of a pair is refused. -/
def textOf? : List Piece → Option (List Char)
  | [] => some []
  | .char c :: rest => (textOf? rest).map (c :: ·)
  | .unit hi :: rest =>
    if hi < 0xd800 ∨ 0xdfff < hi then (textOf? rest).map (Char.ofNat hi :: ·)
    else if 0xdc00 ≤ hi then none
    else match rest with
      | .unit lo :: rest =>
        if 0xdc00 ≤ lo ∧ lo ≤ 0xdfff then
          (textOf? rest).map (Char.ofNat (0x10000 + (hi - 0xd800) * 0x400 + (lo - 0xdc00)) :: ·)
        else none
      | _ => none

/-! ### Numbers -/

/-- An exponent with its sign, if the text starts with one; `none` if its digits are missing. -/
def scanExponent : List Char → Option (Option (Bool × List Char) × List Char)
  | [] => some (none, [])
  | e :: rest =>
    if e = 'e' ∨ e = 'E' then
      let (negative, rest) : Bool × List Char := match rest with
        | '-' :: more => (true, more)
        | '+' :: more => (false, more)
        | _ => (false, rest)
      let digits := rest.takeWhile Char.isDigit
      if digits.isEmpty then none else some (some (negative, digits), rest.dropWhile Char.isDigit)
    else some (none, e :: rest)

/-- Digits after a point, if the text starts with one; `none` if the digits are missing. -/
def scanFraction : List Char → Option (Option (List Char) × List Char)
  | '.' :: rest =>
    let digits := rest.takeWhile Char.isDigit
    if digits.isEmpty then none else some (some digits, rest.dropWhile Char.isDigit)
  | cs => some (none, cs)

/-- Digits before the point: a zero, or digits that do not start with one. -/
def scanWhole : List Char → Option (List Char × List Char)
  | '0' :: rest => some (['0'], rest)
  | c :: rest =>
    if c.isDigit then some (c :: rest.takeWhile Char.isDigit, rest.dropWhile Char.isDigit)
    else none
  | [] => none

/-- A number at the start of the text. -/
def scanNumber (cs : List Char) : Option (Numeral × List Char) := do
  let (negative, cs) : Bool × List Char := match cs with
    | '-' :: rest => (true, rest)
    | _ => (false, cs)
  let (whole, cs) ← scanWhole cs
  let (fraction, cs) ← scanFraction cs
  let (exponent, cs) ← scanExponent cs
  return (⟨negative, whole, fraction, exponent⟩, cs)

theorem length_dropWhile_le (p : Char → Bool) (cs : List Char) :
    (cs.dropWhile p).length ≤ cs.length :=
  (List.dropWhile_sublist p).length_le

theorem length_of_scanExponent {cs rest : List Char} {x : Option (Bool × List Char)}
    (h : scanExponent cs = some (x, rest)) : rest.length ≤ cs.length := by
  unfold scanExponent at h
  split at h
  · simp at h
    simp [h]
  · rename_i e tail
    by_cases he : e = 'e' ∨ e = 'E'
    · rw [if_pos he] at h
      simp only at h
      split at h <;> split at h <;> simp at h <;> rw [← h.2] <;>
        exact Nat.le_trans (length_dropWhile_le ..) (by simp <;> omega)
    · rw [if_neg he] at h
      simp at h
      simp [← h.2]

theorem length_of_scanFraction {cs rest : List Char} {x : Option (List Char)}
    (h : scanFraction cs = some (x, rest)) : rest.length ≤ cs.length := by
  unfold scanFraction at h
  split at h
  · simp only at h
    split at h
    · simp at h
    · simp at h
      rw [← h.2]
      exact Nat.le_trans (length_dropWhile_le ..) (by simp)
  · simp at h
    simp [h.2]

theorem length_of_scanWhole {cs rest digits : List Char}
    (h : scanWhole cs = some (digits, rest)) : rest.length < cs.length := by
  unfold scanWhole at h
  split at h
  · simp at h
    simp [h.2]
  · split at h
    · simp at h
      rw [← h.2]
      exact Nat.lt_succ_of_le (length_dropWhile_le ..)
    · simp at h
  · simp at h

theorem length_of_scanNumber {cs rest : List Char} {n : Numeral}
    (h : scanNumber cs = some (n, rest)) : rest.length < cs.length := by
  unfold scanNumber at h
  simp only [Option.bind_eq_bind, Option.bind_eq_some_iff] at h
  split at h <;> obtain ⟨⟨_, _⟩, hw, ⟨_, _⟩, hf, ⟨_, _⟩, he, h⟩ := h <;>
  · have h₁ := length_of_scanWhole hw
    have h₂ := length_of_scanFraction hf
    have h₃ := length_of_scanExponent he
    simp at h h₁ h₂ h₃ ⊢
    rw [← h.2]
    omega

/-! ### Tokens -/

/-- The token at the start of the text and the text after it. -/
def scan : List Char → Option (Token × List Char)
  | '[' :: rest => some (openArray, rest)
  | ']' :: rest => some (closeArray, rest)
  | '\x7b' :: rest => some (openObject, rest)
  | '\x7d' :: rest => some (closeObject, rest)
  | ',' :: rest => some (comma, rest)
  | ':' :: rest => some (colon, rest)
  | '"' :: rest =>
    (scanString rest).map fun (pieces, rest) => (string ((textOf? pieces).map .ofList), rest)
  | 'n' :: 'u' :: 'l' :: 'l' :: rest => some (null, rest)
  | 't' :: 'r' :: 'u' :: 'e' :: rest => some (bool true, rest)
  | 'f' :: 'a' :: 'l' :: 's' :: 'e' :: rest => some (bool false, rest)
  | cs => (scanNumber cs).map fun (n, rest) => (number n, rest)

theorem length_of_scan {cs rest : List Char} {t : Token} (h : scan cs = some (t, rest)) :
    rest.length < cs.length := by
  unfold scan at h
  split at h
  case h_7 =>
    simp only [Option.map_eq_some_iff] at h
    obtain ⟨⟨_, _⟩, hs, heq⟩ := h
    have := length_of_scanString hs
    simp at heq
    obtain ⟨_, rfl⟩ := heq
    simp
    omega
  case h_11 =>
    simp only [Option.map_eq_some_iff] at h
    obtain ⟨⟨_, _⟩, hs, heq⟩ := h
    have := length_of_scanNumber hs
    simp at heq
    obtain ⟨_, rfl⟩ := heq
    exact this
  all_goals
    simp at h
    obtain ⟨_, rfl⟩ := h
    simp
    try omega

/-- The characters that may stand between tokens. -/
def isSpace (c : Char) : Bool := c = ' ' || c = '\t' || c = '\n' || c = '\r'

/-- The tokens of a text in front of which the tokens of `before`, last one first, were read. -/
def scanAll (before : List Token) (cs : List Char) : Option (List Token) :=
  match cs with
  | [] => some before.reverse
  | c :: rest =>
    if isSpace c then scanAll before rest
    else match _h : scan (c :: rest) with
      | none => none
      | some (t, rest) => scanAll (t :: before) rest
termination_by cs.length
decreasing_by
  · simp
  · exact length_of_scan ‹_›

/-- The tokens of a text, unless it contains something else. -/
def ofText? (cs : List Char) : Option (List Token) := scanAll [] cs

end Token

end RayTracer
