import RayTracer.Number.Decimal

/-!
# Reasons to reject a scene

A `SceneError` names the part of the description that is at fault and what is wrong with it.
`SceneError.message` words it.
-/

namespace RayTracer

/-- A part of a scene description. -/
inductive Entity where
  | camera
  | scene
  | material (index : Nat)
  | light (index : Nat)
  | ambientLight
  /-- An object, with its type once that is known. -/
  | object (index : Nat) (type : Option String)
  deriving DecidableEq, Repr

/-- How messages refer to a part of a scene description. -/
def Entity.text : Entity → String
  | camera => "camera"
  | scene => "scene"
  | material i => s!"materials[{i}]"
  | light i => s!"lights[{i}]"
  | ambientLight => "ambient_light"
  | object i none => s!"objects[{i}]"
  | object i (some type) => s!"objects[{i}] ({type})"

/-- What can be wrong with the value of a field. -/
inductive Defect where
  /-- The camera looks at the point where it stands. -/
  | equalsOrigin
  /-- No level at all is to be traced. -/
  | noLevels
  /-- A color has neither three nor four components. -/
  | componentCount (count : Nat)
  | negative (value : Float32)
  | notPositive (value : Float32)
  /-- Both ends of an axis are the same point. -/
  | emptyAxis
  deriving Repr

/-- The wording of a defect. -/
def Defect.text : Defect → String
  | equalsOrigin => "must differ from origin"
  | noLevels => "must be at least 1"
  | componentCount n => s!"expected 3 or 4 components, got {n}"
  | negative x => s!"must not be negative, got {String.ofList (x.text .message)}"
  | notPositive x => s!"must be greater than zero, got {String.ofList (x.text .message)}"
  | emptyAxis => "axis has zero length"

/-- Why a scene is rejected. -/
inductive SceneError where
  /-- The file cannot be read as text. -/
  | unreadable
  /-- The text is no scene description. -/
  | malformed
  | missingType (entity : Entity)
  | unknownType (entity : Entity) (type : String)
  /-- A field of the object is absent or has the wrong type. -/
  | invalidObject (entity : Entity)
  | duplicateMaterial (entity : Entity) (name : String)
  | unknownMaterial (entity : Entity) (name : String)
  | missingField (entity : Entity) (field : String)
  | invalidField (entity : Entity) (field : String) (defect : Defect)
  deriving Repr

/-- The wording of an error.  Faults of files and of JSON are not detailed. -/
def SceneError.message : SceneError → String
  | unreadable => "failed to read scene file"
  | malformed => "malformed scene description"
  | missingType e => s!"{e.text}: missing `type` tag"
  | unknownType e type => s!"{e.text}: unknown object type `{type}`"
  | invalidObject e => s!"{e.text}: malformed object"
  | duplicateMaterial e name => s!"{e.text}: duplicate material type `{name}`"
  | unknownMaterial e name => s!"{e.text}: unknown material `{name}`"
  | missingField e field => s!"{e.text}: missing required field `{field}`"
  | invalidField e field defect => s!"{e.text}: invalid `{field}`: {defect.text}"

end RayTracer
