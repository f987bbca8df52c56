import RayTracer.Unroll.Call
import RayTracer.Unroll.Error

/-!
# Marked sources

Shading languages forbid recursion.  A group of functions that call each other recursively is
therefore written with directives, and a `MarkedSource` is such a text taken apart: the regular
lines, which are outside all marked functions, and the marked functions with their calls of each
other and the blocks that exist only while deeper levels remain.

`MarkedSource.parse` reads a text line by line.  The reader is a machine whose `Mode` says what the
next line may be, so the first line that breaks the rules decides the error, whatever follows.
Once the group is known, every marked call must have a marked callee, and no unmarked line of a
marked function may call a function of the group.
-/

namespace RayTracer

/-- The level that a marked call goes to. -/
inductive CallKind where
  /-- The level of the caller. -/
  | forward
  /-- The next deeper level. -/
  | recursive
  deriving DecidableEq, Repr

/-- The directive that marks calls of this kind. -/
def CallKind.directive : CallKind → DirectiveKind
  | forward => .call
  | recursive => .recursiveCall

/-- A marked call. -/
structure CallSite where
  kind : CallKind
  callee : Line
  /-- Number of the line of the call, counted from one. -/
  line : Nat
  text : Line
  deriving DecidableEq, Repr

/-- A line of a marked function. -/
inductive Statement where
  | text (line : Line)
  | call (site : CallSite)
  deriving DecidableEq, Repr

/-- Lines that are kept only on levels above the deepest one. -/
structure DepthBlock where
  name : Line
  body : List Statement
  deriving DecidableEq, Repr

/-- A part of the body of a marked function. -/
inductive BodyPart where
  | statement (s : Statement)
  | block (b : DepthBlock)
  deriving DecidableEq, Repr

/-- A function of the recursive group. -/
structure MarkedFunction where
  name : Line
  declaration : Line
  body : List BodyPart
  deriving DecidableEq, Repr

/-- A text taken apart into regular lines and marked functions. -/
structure MarkedSource where
  regular : List Line
  functions : List MarkedFunction
  deriving DecidableEq, Repr

/-- The call on a line, if it is a marked one. -/
def Statement.call? : Statement → Option CallSite
  | text _ => none
  | call site => some site

/-- The lines that a part of a body consists of. -/
def BodyPart.statements : BodyPart → List Statement
  | statement s => [s]
  | block b => b.body

/-- The block, if the part is one. -/
def BodyPart.block? : BodyPart → Option DepthBlock
  | statement _ => none
  | block b => some b

namespace MarkedFunction

/-- All lines of the body, inside and outside blocks. -/
def statements (f : MarkedFunction) : List Statement := f.body.flatMap BodyPart.statements

/-- All marked calls, inside and outside blocks. -/
def calls (f : MarkedFunction) : List CallSite := f.statements.filterMap Statement.call?

/-- The blocks of the body. -/
def blocks (f : MarkedFunction) : List DepthBlock := f.body.filterMap BodyPart.block?

end MarkedFunction

/-- The marked function of the given name. -/
def MarkedSource.function? (source : MarkedSource) (name : Line) : Option MarkedFunction :=
  source.functions.find? (·.name == name)

/-! ### The reader -/

/-- A marked function whose end has not been read. -/
structure OpenFunction where
  name : Line
  declaration : Line
  body : List BodyPart
  /-- The block whose end has not been read, if there is one. -/
  block : Option DepthBlock
  deriving DecidableEq, Repr

/-- The function with one more line, inside its open block if it has one. -/
def OpenFunction.push (f : OpenFunction) (s : Statement) : OpenFunction :=
  match f.block with
  | some b => { f with block := some { b with body := b.body ++ [s] } }
  | none => { f with body := f.body ++ [.statement s] }

/-- What the next line may be. -/
inductive Mode where
  /-- A line outside all marked functions. -/
  | outside
  /-- The declaration of a function, marked on line `marker`. -/
  | declaration (name : Line) (marker : Nat)
  /-- A line inside a marked function. -/
  | inside (f : OpenFunction)
  /-- A call, marked on line `marker`. -/
  | callSite (f : OpenFunction) (kind : CallKind) (callee : Line) (marker : Nat)
  deriving DecidableEq, Repr

/-- An unmarked line of a marked function. -/
structure PlainLine where
  line : Nat
  function : Line
  text : Line
  deriving DecidableEq, Repr

/-- What has been read so far. -/
structure Scan where
  regular : List Line := []
  functions : List MarkedFunction := []
  plain : List PlainLine := []
  mode : Mode := .outside
  deriving DecidableEq, Repr

namespace Scan

/-- Reads the directive `kind name` on line `n` outside all marked functions. -/
def directiveOutside (s : Scan) (n : Nat) (kind : DirectiveKind) (name : Line) :
    Except UnrollError Scan :=
  match kind with
  | .function =>
    if s.functions.any (·.name == name) then .error (.duplicateFunction n name)
    else .ok { s with mode := .declaration name n }
  | kind => .error (.outsideFunction n kind)

/-- Reads the directive `kind name` on line `n` inside the function `f`. -/
def directiveInside (s : Scan) (f : OpenFunction) (n : Nat) (kind : DirectiveKind) (name : Line) :
    Except UnrollError Scan :=
  match kind with
  | .function => .error (.nestedFunction n name f.name)
  | .endFunction =>
    if f.name ≠ name then .error (.mismatchedEnd n .endFunction f.name name)
    else match f.block with
      | some b => .error (.unclosedBlock n f.name b.name)
      | none =>
        .ok { s with
          functions := s.functions ++ [⟨f.name, f.declaration, f.body⟩]
          mode := .outside }
  | .block =>
    match f.block with
    | some b => .error (.nestedBlock n name b.name)
    | none => .ok { s with mode := .inside { f with block := some ⟨name, []⟩ } }
  | .endBlock =>
    match f.block with
    | none => .error (.outsideFunction n .endBlock)
    | some b =>
      if b.name ≠ name then .error (.mismatchedEnd n .endBlock b.name name)
      else .ok { s with mode := .inside { f with body := f.body ++ [.block b], block := none } }
  | .call => .ok { s with mode := .callSite f .forward name n }
  | .recursiveCall => .ok { s with mode := .callSite f .recursive name n }

/-- Reads line number `n`. -/
def step (s : Scan) (text : Line) (n : Nat) : Except UnrollError Scan :=
  match s.mode with
  | .declaration name marker =>
    if Line.has ("fn ".toList ++ callPattern name) text then
      .ok { s with mode := .inside ⟨name, text, [], none⟩ }
    else .error (.missingDeclaration marker name)
  | .callSite f kind callee marker =>
    if LineKind.of text = .ordinary ∧ hasCall text callee then
      if kind = .recursive ∧ f.block = none then .error (.unguardedRecursion n callee)
      else .ok { s with mode := .inside (f.push (.call ⟨kind, callee, n, text⟩)) }
    else .error (.missingCallSite marker callee)
  | .outside =>
    match LineKind.of text with
    | .malformed => .error (.malformedDirective n (Line.trim text))
    | .unknown word => .error (.unknownDirective n word)
    | .ordinary => .ok { s with regular := s.regular ++ [text] }
    | .directive kind name => s.directiveOutside n kind name
  | .inside f =>
    match LineKind.of text with
    | .malformed => .error (.malformedDirective n (Line.trim text))
    | .unknown word => .error (.unknownDirective n word)
    | .ordinary =>
      .ok { s with plain := s.plain ++ [⟨n, f.name, text⟩], mode := .inside (f.push (.text text)) }
    | .directive kind name => s.directiveInside f n kind name

/-- Reads lines that are numbered from `n` on. -/
def run (s : Scan) (n : Nat) : List Line → Except UnrollError Scan
  | [] => .ok s
  | text :: rest => do
    let s ← s.step text n
    s.run (n + 1) rest

/-- A marked call whose callee is not marked, the first one in the order of the source. -/
def unknownCallee? (functions : List MarkedFunction) : Option CallSite :=
  (functions.flatMap MarkedFunction.calls).find? fun site =>
    !functions.any (·.name == site.callee)

/-- A function of the group that the line calls before any comment, the first one in the order of
the source. -/
def calledFunction? (functions : List MarkedFunction) (text : Line) : Option MarkedFunction :=
  functions.find? fun f => hasCall (Line.before "//".toList text) f.name

/-- The first unmarked line that calls a function of the group, as an error. -/
def unmarkedCall? (functions : List MarkedFunction) (plain : List PlainLine) :
    Option UnrollError :=
  plain.findSome? fun l =>
    (calledFunction? functions l.text).map fun f => .unmarkedCall l.line l.function f.name

/-- What has been read, if the text may end here. -/
def finish (s : Scan) : Except UnrollError MarkedSource :=
  match s.mode with
  | .declaration name marker => .error (.missingDeclaration marker name)
  | .callSite _ _ callee marker => .error (.missingCallSite marker callee)
  | .inside f => .error (.unclosedFunction f.name)
  | .outside =>
    match unknownCallee? s.functions with
    | some site => .error (.unknownCallee site.line site.callee)
    | none =>
      match unmarkedCall? s.functions s.plain with
      | some e => .error e
      | none => .ok ⟨s.regular, s.functions⟩

end Scan

/-- Takes a marked text apart. -/
def MarkedSource.parse (text : List Char) : Except UnrollError MarkedSource := do
  let s ← Scan.run {} 1 (Text.lines text)
  s.finish

end RayTracer
