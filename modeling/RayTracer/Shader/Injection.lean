import RayTracer.Shader.Row
import RayTracer.Unroll.Error

/-!
# Writing a scene into a shader

The line that holds the marker `// scene:declarations` is replaced by the sizes of the scene's
arrays, the arrays themselves and the ambient light, and the line that holds
`// scene:constructors` by the assignments that fill the arrays.  An array has at least one place;
an empty one gets a row of zeros.
-/

namespace RayTracer.Shader

/-- The marker that is replaced by declarations. -/
def declarationsMarker : Line := "// scene:declarations".toList

/-- The marker that is replaced by assignments. -/
def constructorsMarker : Line := "// scene:constructors".toList

/-- The declarations of an array of `size` entities and of its size. -/
def arrayDeclarations (counter array type : Line) (size : Nat) : List Line :=
  ["const ".toList ++ counter ++ ": u32 = ".toList ++ Decimal.digitsOf size ++ "u;".toList,
    "var<private> ".toList ++ array ++ ": array<".toList ++ type ++ ", ".toList ++
      Decimal.digitsOf (max size 1) ++ ">;".toList]

/-- The declarations of everything that the shader reads of a scene. -/
def declarations (scene : Scene) : List Line :=
  arrayDeclarations "PRIMITIVE_COUNT".toList "primitives".toList
      (Packed.typeName (Primitive Float32)) scene.primitives.length ++
    arrayDeclarations "LIGHT_COUNT".toList "lights".toList (Packed.typeName Light)
      scene.lights.length ++
    arrayDeclarations "MATERIAL_COUNT".toList "materials".toList (Packed.typeName Material)
      scene.materials.size ++
    ["var<private> ambient_light: vec4<f32> = ".toList ++ rowLiteral scene.ambient.row ++ [';']]

/-- The assignment of a value to a place of an array. -/
def assignment (indent array : Line) (index : Nat) (value : Line) : Line :=
  indent ++ array ++ '[' :: Decimal.digitsOf index ++ "] = ".toList ++ value ++ [';']

/-- The assignments of all entities of a list to an array. -/
def assignments {α : Type} [Packed α] (indent array : Line) (entities : List α) : List Line :=
  entities.zipIdx.map fun (a, i) => assignment indent array i (Packed.literal a)

/-- The assignment to the only place of an array without entities. -/
def placeholder {α : Type} [Packed α] (indent array : Line) (rows : Nat) (entities : List α) :
    List Line :=
  if entities.isEmpty then
    [assignment indent array 0
      (construct (Packed.typeName α) (List.replicate rows (rowLiteral .zero)))]
  else []

/-- The assignments that fill the arrays of a scene. -/
def constructors (scene : Scene) (indent : Line) : List Line :=
  let materials := scene.materials.materials
  assignments indent "primitives".toList scene.primitives ++
    assignments indent "lights".toList scene.lights ++
    assignments indent "materials".toList materials ++
    placeholder indent "primitives".toList 3 scene.primitives ++
    placeholder indent "lights".toList 2 scene.lights ++
    placeholder indent "materials".toList 2 materials

/-- What a line of the template is replaced by. -/
def injectLine (scene : Scene) (line : Line) : List Line :=
  if line.trim = declarationsMarker then declarations scene
  else if line.trim = constructorsMarker then constructors scene line.indent
  else [line]

/-- The text with the scene written into it, if it has both markers. -/
def inject (scene : Scene) (text : List Char) : Except UnrollError (List Char) :=
  let lines := Text.lines text
  if !lines.any (·.trim == declarationsMarker) then
    .error (.missingSceneMarker "declarations".toList)
  else if !lines.any (·.trim == constructorsMarker) then
    .error (.missingSceneMarker "constructors".toList)
  else .ok (Text.unlines (lines.flatMap (injectLine scene)))

end RayTracer.Shader
