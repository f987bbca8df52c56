import RayTracer.Number.Decimal
import RayTracer.Unroll.Source

/-!
# Unrolling

`MarkedSource.unroll` writes a program without recursion: the regular lines, and then, for every
level, a copy of every marked function.  Level zero keeps the names, and level `i` adds the suffix
`_d` and the number `i`.  A forward call goes to the copy on the same level and a recursive call to
the copy one level deeper.  On the last level the blocks are left out, and with them all recursive
calls.
-/

namespace RayTracer

/-- The name of the copy of a function on a level. -/
def specializedName (name : Line) (level : Nat) : Line :=
  if level = 0 then name else name ++ '_' :: 'd' :: Decimal.digitsOf level

/-- The level of the callee of a call from the given level. -/
def CallKind.target (kind : CallKind) (level : Nat) : Nat :=
  match kind with
  | forward => level
  | recursive => level + 1

/-- A line of a copy. -/
inductive CopyLine where
  | text (line : Line)
  /-- A marked call and the name of the copy that it goes to. -/
  | call (site : CallSite) (target : Line)
  deriving DecidableEq, Repr

/-- The line as it is written. -/
def CopyLine.emit : CopyLine → Line
  | text line => line
  | call site target => renameCall site.text site.callee target

/-- The copy of a line on a level. -/
def Statement.copy (level : Nat) : Statement → CopyLine
  | text line => .text line
  | call site => .call site (specializedName site.callee (site.kind.target level))

/-- The lines of a part of a body that a copy keeps. -/
def BodyPart.kept (isLast : Bool) : BodyPart → List Statement
  | statement s => [s]
  | block b => if isLast then [] else b.body

/-- The lines of the body that a copy keeps. -/
def MarkedFunction.kept (f : MarkedFunction) (isLast : Bool) : List Statement :=
  f.body.flatMap (BodyPart.kept isLast)

/-- The copy of a marked function on a level. -/
structure Copy where
  name : Line
  declaration : Line
  body : List CopyLine
  deriving DecidableEq, Repr

/-- The copy of a function on a level. -/
def MarkedFunction.copy (f : MarkedFunction) (level : Nat) (isLast : Bool) : Copy where
  name := specializedName f.name level
  declaration := renameCall f.declaration f.name (specializedName f.name level)
  body := (f.kept isLast).map (Statement.copy level)

/-- The lines of a copy, after an empty line. -/
def Copy.emit (c : Copy) : List Line := [] :: c.declaration :: c.body.map CopyLine.emit

namespace MarkedSource

/-- The copies of all marked functions on a level. -/
def copiesOn (source : MarkedSource) (depth level : Nat) : List Copy :=
  source.functions.map fun f => f.copy level (level + 1 == depth)

/-- The copies of all marked functions, level by level. -/
def copies (source : MarkedSource) (depth : Nat) : List Copy :=
  (List.range depth).flatMap (source.copiesOn depth)

/-- The lines of the program with `depth` levels. -/
def emit (source : MarkedSource) (depth : Nat) : List Line :=
  source.regular ++ (source.copies depth).flatMap Copy.emit

/-- The program with `depth` levels, at least one. -/
def unroll (source : MarkedSource) (depth : UInt32) : Except UnrollError (List Char) :=
  if depth = 0 then .error .zeroDepth else .ok (Text.unlines (source.emit depth.toNat))

end MarkedSource

end RayTracer
