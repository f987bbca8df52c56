import RayTracer.Text.Line

/-!
# Directives

A directive is a comment line `// rec:<kind> <name>`.  Blanks may surround the slashes and the two
words.  A line is ordinary if it is no comment that starts with `rec:`; a comment that does, but
holds something else than a known kind and one name, is an error wherever directives are read.
-/

namespace RayTracer

/-- The kinds of directive. -/
inductive DirectiveKind where
  /-- `func`: the next line declares a function of the group. -/
  | function
  /-- `endfunc`: the function ends here. -/
  | endFunction
  /-- `if`: a block starts that is kept only where deeper levels remain. -/
  | block
  /-- `endif`: the block ends here. -/
  | endBlock
  /-- `call`: the next line calls a function of the group on the same level. -/
  | call
  /-- `rec-call`: the next line calls a function of the group one level deeper. -/
  | recursiveCall
  deriving DecidableEq, Repr

namespace DirectiveKind

/-- The word for a kind of directive. -/
def text : DirectiveKind → String
  | function => "func"
  | endFunction => "endfunc"
  | block => "if"
  | endBlock => "endif"
  | call => "call"
  | recursiveCall => "rec-call"

/-- All kinds of directive. -/
def all : List DirectiveKind := [function, endFunction, block, endBlock, call, recursiveCall]

/-- The kind that a word stands for. -/
def ofWord? (word : Line) : Option DirectiveKind := all.find? (·.text.toList == word)

end DirectiveKind

/-- What a line is to the reader of directives. -/
inductive LineKind where
  /-- Code, or a comment that is no directive. -/
  | ordinary
  | directive (kind : DirectiveKind) (name : Line)
  /-- A directive without exactly two words. -/
  | malformed
  /-- A directive whose first word is no kind. -/
  | unknown (word : Line)
  deriving DecidableEq, Repr

/-- What follows `rec:` in a comment line. -/
def directiveBody? (line : Line) : Option Line := do
  let comment ← Line.rest? "//".toList line.trimStart
  Line.rest? "rec:".toList comment.trimStart

/-- What a line is to the reader of directives. -/
def LineKind.of (line : Line) : LineKind :=
  match directiveBody? line with
  | none => ordinary
  | some body =>
    match Line.words body with
    | [word, name] =>
      match DirectiveKind.ofWord? word with
      | some kind => directive kind name
      | none => unknown word
    | _ => malformed

end RayTracer
