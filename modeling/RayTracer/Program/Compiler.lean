import RayTracer.Shader.Program

/-!
# In place of a compiler

The compiler of the shading language belongs to the outside of the program.
`CompiledShader.compile` stands in for it where there is none.  It is made for the shaders of scenes
only: it looks for floats that are not finite, the one thing that is taken to be wrong with such a
text, and refuses every text without an entry point.  What is proved of compiling takes the compiler
as a parameter (`Shader.RefusesNonFinite`).
-/

namespace RayTracer.CompiledShader

/-- Compiles the shader of a scene, or says what is wrong with it. -/
def compile (source : List Char) : Except String CompiledShader :=
  let lines := Text.lines source
  let names := lines.filterMap declaredName?
  if names.contains entryPoint then
    match (lines.flatMap identifiers).find? notFinite.contains with
    | some word => .error s!"no definition in scope for identifier: `{String.ofList word}`"
    | none => .ok ⟨(names.filter (· != entryPoint)).length, true⟩
  else .error "no entry point"

end RayTracer.CompiledShader
