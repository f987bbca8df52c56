import RayTracer.Text.Line

/-!
# Calls inside a line

A call of `name` is an occurrence of `name(` that is not the tail of a longer identifier.
`findCall` gives the position of the first one, and `renameCall` puts another name in the place of
`name` at each of them.
-/

namespace RayTracer

/-- ASCII letters, digits and the underscore. -/
def isIdentifierChar (c : Char) : Bool := c.isAlphanum || c == '_'

/-- No identifier character stands right before. -/
def isBoundary (previous : Option Char) : Bool := !previous.any isIdentifierChar

/-- Position of the first call from here on: `previous` is the character right before the line, and
the next `skip` characters cannot start one, because they belong to an occurrence that was already
refused. -/
def findCallFrom (pattern : Line) (previous : Option Char) (skip : Nat) : Line → Option Nat
  | [] => none
  | c :: rest =>
    match skip with
    | skip + 1 => (findCallFrom pattern (some c) skip rest).map (· + 1)
    | 0 =>
      if pattern.isPrefixOf (c :: rest) then
        if isBoundary previous then some 0
        else (findCallFrom pattern (some c) (pattern.length - 1) rest).map (· + 1)
      else (findCallFrom pattern (some c) 0 rest).map (· + 1)

/-- What a call of `name` starts with. -/
def callPattern (name : Line) : Line := name ++ ['(']

/-- Position of the first call of `name` in the line. -/
def findCall (line name : Line) : Option Nat := findCallFrom (callPattern name) none 0 line

/-- Whether the line calls `name`. -/
def hasCall (line name : Line) : Bool := (findCall line name).isSome

@[simp] theorem findCall_nil (name : Line) : findCall [] name = none := rfl

/-- The rest of a line in which calls of `name` get another name: `previous` is the character right
before it, the next `refused` characters cannot start a call, and the next `replaced` characters
belong to a name that was replaced already.  What stands before such a name no longer counts. -/
def renameFrom (name target : Line) (previous : Option Char) (refused replaced : Nat) :
    Line → Line
  | [] => []
  | c :: rest =>
    match replaced, refused with
    | replaced + 1, _ => renameFrom name target none 0 replaced rest
    | 0, refused + 1 => c :: renameFrom name target (some c) refused 0 rest
    | 0, 0 =>
      if (callPattern name).isPrefixOf (c :: rest) then
        if isBoundary previous then target ++ renameFrom name target none 0 (name.length - 1) rest
        else c :: renameFrom name target (some c) name.length 0 rest
      else c :: renameFrom name target (some c) 0 0 rest

/-- The line with `target` in the place of `name` at every call of `name`.  There are no calls of
an empty name. -/
def renameCall (line name target : Line) : Line :=
  if name = [] then line else renameFrom name target none 0 0 line

end RayTracer
