import RayTracer.Unroll.Call

/-!
# Compiled shaders

Shaders are compiled outside of this library.  What is known of a compiled shader is the number of
its functions and whether it has the entry point that draws a fragment.

The text of a shader is read as far as the functions that it declares and its words: the spellings
of floats that are not finite are words, and the shading language knows none of them.
-/

namespace RayTracer

/-- A shader that compiled. -/
structure CompiledShader where
  /-- Number of functions, without the entry point. -/
  functionCount : Nat
  hasEntryPoint : Bool
  deriving DecidableEq, Repr

namespace CompiledShader

/-- The name of the function that draws a fragment. -/
def entryPoint : Line := "fs_main".toList

/-- The name of the function that a line declares. -/
def declaredName? (line : Line) : Option Line :=
  (Line.rest? "fn ".toList line).map (Line.before ['('])

/-- The identifiers and numbers of a line, `word` being the part read so far of the current one,
last character first. -/
def identifiersAfter (word : List Char) : Line → List Line
  | [] => if word.isEmpty then [] else [word.reverse]
  | c :: rest =>
    if isIdentifierChar c then identifiersAfter (c :: word) rest
    else if word.isEmpty then identifiersAfter [] rest
    else word.reverse :: identifiersAfter [] rest

/-- The identifiers and numbers of a line before any comment. -/
def identifiers (line : Line) : List Line := identifiersAfter [] (Line.before "//".toList line)

/-- The spellings of floats that are not finite. -/
def notFinite : List Line := ["inf".toList, "NaN".toList]

end CompiledShader

end RayTracer
