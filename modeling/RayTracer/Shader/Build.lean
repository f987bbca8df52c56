import RayTracer.Shader.Injection
import RayTracer.Shader.Template
import RayTracer.Unroll.Levels

/-!
# Building the shader of a scene

The template is taken apart, unrolled to the depth of the scene, and the scene is written into the
result.
-/

namespace RayTracer.Shader

/-- The shader that a template gives for a scene. -/
def buildFrom (template : List Char) (scene : Scene) : Except UnrollError (List Char) := do
  let source ← MarkedSource.parse template
  let unrolled ← source.unroll scene.maxDepth
  inject scene unrolled

-- Irreducible because the template is closed: a definitional check that unfolds `build` would read
-- all of it.
/-- The shader of a scene. -/
@[irreducible] def build (scene : Scene) : Except UnrollError (List Char) :=
  buildFrom template scene

end RayTracer.Shader
