/-!
# Lines of text

A `Line` is a list of characters.  `Text.lines` splits a text at line feeds, each of which may be
preceded by one carriage return, and a last line feed starts no further line.  Blanks are the
characters with the Unicode property `White_Space`.

`Line.before?` and `Line.after?` cut a line at the first occurrence of a pattern.
-/

namespace RayTracer

/-- A line of text, or part of one. -/
abbrev Line := List Char

/-- The characters with the Unicode property `White_Space`. -/
def isBlank (c : Char) : Bool :=
  let n := c.toNat
  (9 ≤ n && n ≤ 13) || n == 0x20 || n == 0x85 || n == 0xa0 || n == 0x1680 ||
    (0x2000 ≤ n && n ≤ 0x200a) || n == 0x2028 || n == 0x2029 || n == 0x202f || n == 0x205f ||
    n == 0x3000

theorem isBlank_of_isWhitespace {c : Char} (h : c.isWhitespace = true) : isBlank c = true := by
  simp only [Char.isWhitespace, Bool.or_eq_true, decide_eq_true_eq] at h
  rcases h with ((rfl | rfl) | rfl) | rfl <;> decide

namespace Line

/-- The line without the blanks at its start. -/
def trimStart (l : Line) : Line := l.dropWhile isBlank

/-- The line without the blanks at its end. -/
def trimEnd (l : Line) : Line := (l.reverse.dropWhile isBlank).reverse

/-- The line without the blanks at both ends. -/
def trim (l : Line) : Line := trimEnd (trimStart l)

/-- The blanks at the start of the line. -/
def indent (l : Line) : Line := l.takeWhile isBlank

/-- The words of a line, `word` being the part read so far of the current one, last character
first. -/
def wordsAfter (word : List Char) : Line → List Line
  | [] => if word.isEmpty then [] else [word.reverse]
  | c :: rest =>
    if isBlank c then
      if word.isEmpty then wordsAfter [] rest else word.reverse :: wordsAfter [] rest
    else wordsAfter (c :: word) rest

/-- The parts of the line between blanks. -/
def words (l : Line) : List Line := wordsAfter [] l

/-- The rest of a line that starts with the pattern. -/
def rest? (pattern l : Line) : Option Line :=
  if pattern.isPrefixOf l then some (l.drop pattern.length) else none

theorem rest?_eq_some {pattern l rest : Line} (h : rest? pattern l = some rest) :
    l = pattern ++ rest := by
  unfold rest? at h
  split at h
  · rename_i hp
    obtain ⟨t, rfl⟩ := List.isPrefixOf_iff_prefix.mp hp
    simpa using h
  · simp at h

/-- Where the pattern occurs first: the line before it and the line after it. -/
def cut? (pattern : Line) : Line → Option (Line × Line)
  | [] => if pattern.isEmpty then some ([], []) else none
  | c :: tail =>
    match rest? pattern (c :: tail) with
    | some after => some ([], after)
    | none => (cut? pattern tail).map fun (before, after) => (c :: before, after)

/-- Whether the pattern occurs in the line. -/
def has (pattern l : Line) : Bool := (cut? pattern l).isSome

/-- The line up to the first occurrence of the pattern, or all of it. -/
def before (pattern l : Line) : Line :=
  match cut? pattern l with
  | some (before, _) => before
  | none => l

/-- Cutting loses nothing but the pattern. -/
theorem eq_of_cut? {pattern l before after : Line} (h : cut? pattern l = some (before, after)) :
    l = before ++ pattern ++ after := by
  induction l generalizing before with
  | nil =>
    unfold cut? at h
    split at h
    · rename_i hp
      simp at h hp
      simp [h, hp]
    · simp at h
  | cons c tail ih =>
    unfold cut? at h
    split at h
    · rename_i hr
      simp at h
      simp [rest?_eq_some hr, h]
    · simp only [Option.map_eq_some_iff] at h
      obtain ⟨⟨b, a⟩, hr, he⟩ := h
      simp at he
      rw [← he.1, ih (he.2 ▸ hr)]
      simp

end Line

namespace Text

/-- A line without a carriage return at its end. -/
def dropReturn (l : Line) : Line := if l.getLast? = some '\r' then l.dropLast else l

/-- The lines of a text, `line` being the part read so far of the current one, last character
first. -/
def linesAfter (line : List Char) : List Char → List Line
  | [] => if line.isEmpty then [] else [line.reverse]
  | c :: rest =>
    if c = '\n' then dropReturn line.reverse :: linesAfter [] rest
    else linesAfter (c :: line) rest

/-- The lines of a text. -/
def lines (text : List Char) : List Line := linesAfter [] text

/-- The text of the given lines, each with a line feed. -/
def unlines (ls : List Line) : List Char := ls.flatMap (· ++ ['\n'])

end Text

end RayTracer
