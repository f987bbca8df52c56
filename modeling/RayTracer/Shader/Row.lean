import RayTracer.Number.Reading
import RayTracer.Scene
import RayTracer.Text.Line

/-!
# Entities as rows of four floats

The shader stores every entity of a scene in a few rows of four floats:

| entity        | rows                                                             |
|---------------|------------------------------------------------------------------|
| primitive     | `(kind, material, radius, checker size or 0)`, `(a, 0)`, `(b, 0)` |
| material      | `(color, ambient)`, `(diffuse, specular, power, reflective)`     |
| light         | `(position, intensity)`, `(color, 0)`                            |
| ambient light | `(color, intensity)`                                             |

`Packed` pairs the rows of a type with the way back.  `Packed.literal` writes an entity as an
expression of the shading language, and `readRows` finds all rows in such a text.
-/

namespace RayTracer

/-- Four floats. -/
structure Row where
  x : Float32
  y : Float32
  z : Float32
  w : Float32
  deriving Repr

namespace Row

/-- The row of zeros. -/
def zero : Row := ⟨0.0, 0.0, 0.0, 0.0⟩

/-- A vector and a fourth component. -/
def ofVector (v : Vec3 Float32) (w : Float32) : Row := ⟨v.x, v.y, v.z, w⟩

/-- The first three components. -/
def vector (r : Row) : Vec3 Float32 := ⟨r.x, r.y, r.z⟩

/-- The components in order. -/
def toList (r : Row) : List Float32 := [r.x, r.y, r.z, r.w]

/-- The row of four components. -/
def ofList? : List Float32 → Option Row
  | [x, y, z, w] => some ⟨x, y, z, w⟩
  | _ => none

@[simp] theorem ofList?_toList (r : Row) : ofList? r.toList = some r := rfl

@[simp] theorem vector_ofVector (v : Vec3 Float32) (w : Float32) : (ofVector v w).vector = v := rfl

end Row

/-- A type whose values are stored as rows. -/
class Packed (α : Type) where
  /-- The name of the type in the shading language. -/
  typeName : Line
  rows : α → List Row
  ofRows? : List Row → Option α

/-! ### Literals -/

/-- Joins lines with a separator between them. -/
def joinWith (separator : Line) : List Line → Line
  | [] => []
  | [l] => l
  | l :: rest => l ++ separator ++ joinWith separator rest

/-- The literal of a float, which reads back to the same float. -/
def floatLiteral (x : Float32) : Line := x.text .literal

/-- The name of the type of rows, which is also the opening of each row. -/
def rowType : Line := "vec4<f32>".toList

/-- A call of a constructor. -/
def construct (name : Line) (arguments : List Line) : Line :=
  name ++ '(' :: joinWith ", ".toList arguments ++ [')']

/-- The literal of a row. -/
def rowLiteral (r : Row) : Line := construct rowType (r.toList.map floatLiteral)

/-- The literal of an entity. -/
def Packed.literal {α : Type} [Packed α] (a : α) : Line :=
  construct (Packed.typeName α) ((Packed.rows a).map rowLiteral)

/-- The parts of a line between commas, `part` being what is read of the current one, last
character first. -/
def partsAfter (part : List Char) : Line → List Line
  | [] => [part.reverse]
  | c :: rest => if c = ',' then part.reverse :: partsAfter [] rest else partsAfter (c :: part) rest

/-- The row whose components stand between commas. -/
def readRow? (arguments : Line) : Option Row := do
  let components ← (partsAfter [] arguments).mapM fun part => Float32.ofText? part.trim
  Row.ofList? components

/-- What each row starts with. -/
def rowOpening : Line := rowType ++ ['(']

/-- All rows in a text, in order, or the text inside the first row that cannot be read. -/
def readRows (text : Line) : Except Line (List Row) :=
  match _h : Line.cut? rowOpening text with
  | none => .ok []
  | some (_, inner) =>
    match _h' : Line.cut? [')'] inner with
    | none => .error inner
    | some (arguments, rest) =>
      match readRow? arguments with
      | none => .error arguments
      | some row => (readRows rest).map (row :: ·)
termination_by text.length
decreasing_by
  rw [Line.eq_of_cut? _h, Line.eq_of_cut? _h']
  simp
  omega

/-! ### The rows of each entity -/

/-- Codes of the kinds of surface in the shader. -/
def Shape.code : Shape Float32 → Float32
  | .sphere _ => 1.0
  | .plane _ => 2.0
  | .cone _ => 3.0
  | .cylinder _ => 4.0

/-- The shape of the given code with a radius, a checker size and two vectors. -/
def Shape.ofCode? (code radius checker : Float32) (a b : Vec3 Float32) : Option (Shape Float32) :=
  if code == 1.0 then some (.sphere ⟨a, radius⟩)
  else if code == 2.0 then
    some (.plane ⟨a, b, if (0.0 : Float32) < checker then some checker else none⟩)
  else if code == 3.0 then some (.cone ⟨a, b, radius⟩)
  else if code == 4.0 then some (.cylinder ⟨a, b, radius⟩)
  else none

instance : Packed (Primitive Float32) where
  typeName := "Primitive".toList
  rows p :=
    let material := p.material.number.toFloat32
    let code := p.shape.code
    match p.shape with
    | .sphere s => [⟨code, material, s.radius, 0.0⟩, .ofVector s.center 0.0, .zero]
    | .plane s =>
      [⟨code, material, 0.0, s.checker.getD 0.0⟩, .ofVector s.point 0.0, .ofVector s.normal 0.0]
    | .cone s => [⟨code, material, s.radius, 0.0⟩, .ofVector s.apex 0.0, .ofVector s.base 0.0]
    | .cylinder s => [⟨code, material, s.radius, 0.0⟩, .ofVector s.start 0.0, .ofVector s.stop 0.0]
  ofRows?
    | [header, a, b] =>
      (Shape.ofCode? header.x header.z header.w a.vector b.vector).map fun shape =>
        ⟨shape, ⟨header.y.toUInt32⟩⟩
    | _ => none

instance : Packed Material where
  typeName := "Material".toList
  rows m :=
    [.ofVector m.color m.ambient, ⟨m.diffuse, m.specular, m.specularPower, m.reflectiveIndex⟩]
  ofRows?
    | [color, coefficients] =>
      some ⟨color.vector, color.w, coefficients.x, coefficients.y, coefficients.z, coefficients.w⟩
    | _ => none

instance : Packed Light where
  typeName := "Light".toList
  rows l := [.ofVector l.position l.intensity, .ofVector l.color 0.0]
  ofRows?
    | [position, color] => some ⟨position.vector, color.vector, position.w⟩
    | _ => none

namespace AmbientLight

/-- The single row of the ambient light. -/
def row (l : AmbientLight) : Row := .ofVector l.color l.intensity

/-- The ambient light of a row. -/
def ofRow (r : Row) : AmbientLight := ⟨r.vector, r.w⟩

@[simp] theorem ofRow_row (l : AmbientLight) : ofRow l.row = l := rfl

/-- The ambient light of rows, if there is a single one. -/
def ofRows? : List Row → Option AmbientLight
  | [r] => some (ofRow r)
  | _ => none

end AmbientLight

end RayTracer
