import RayTracer.Description.Error
import RayTracer.Description.Reading
import RayTracer.Scene

/-!
# From descriptions to scenes

`Description.toScene` checks a description and builds the scene, part by part: the camera, the
depth, the materials, the lights, the ambient light and the objects.  The first part that fails
decides the error.  `Scene.ofText` reads and builds in one go.

An object vector that is absent reads as zero, and zero counts as absent, so an object cannot be
given a point at the origin of the world.
-/

namespace RayTracer

/-- A value that is not below zero. -/
def nonNegative (entity : Entity) (field : String) (x : Float32) : Except SceneError Float32 :=
  if (0.0 : Float32) ≤ x then .ok x else .error (.invalidField entity field (.negative x))

/-- A value above zero. -/
def positive (entity : Entity) (field : String) (x : Float32) : Except SceneError Float32 :=
  if (0.0 : Float32) < x then .ok x else .error (.invalidField entity field (.notPositive x))

/-- Red, green and blue, with a fourth component that is ignored. -/
def colorOf (entity : Entity) (field : String) : List Float32 → Except SceneError Color
  | [r, g, b] | [r, g, b, _] => .ok ⟨r, g, b⟩
  | components => .error (.invalidField entity field (.componentCount components.length))

/-- A vector that is not zero. -/
def requiredVector (entity : Entity) (field : String) (v : Vec3 Float32) :
    Except SceneError (Vec3 Float32) :=
  if v.Same .zero then .error (.missingField entity field) else .ok v

/-- Two points that differ. -/
def distinctPoints (entity : Entity) (field : String) (v w : Vec3 Float32) :
    Except SceneError Unit :=
  if v.Same w then .error (.invalidField entity field .emptyAxis) else .ok ()

/-- The number of a material that is in the table. -/
def materialNamed (entity : Entity) (table : MaterialTable) (name : String) :
    Except SceneError MaterialId :=
  match table.id? name with
  | some id => .ok id
  | none => .error (.unknownMaterial entity name)

/-! ### Objects -/

/-- The kinds of object that a description can ask for. -/
inductive ObjectKind where
  | sphere
  | plane
  | cone
  | cylinder
  deriving DecidableEq, Repr

/-- The kind of object that a `type` stands for. -/
def ObjectKind.ofType? : String → Option ObjectKind
  | "sphere" => some sphere
  | "plane" => some plane
  | "cone" => some cone
  | "cylinder" => some cylinder
  | _ => none

/-- The fields of an object, read but not checked. -/
inductive ObjectDescription where
  | sphere (center : Vec3 Float32) (radius : Float32) (material : String)
  | plane (point normal : Vec3 Float32) (checkerboard : Bool) (checkerSize : Float32)
      (material : String)
  | cone (apex base : Vec3 Float32) (radius : Float32) (material : String)
  | cylinder (center1 center2 : Vec3 Float32) (radius : Float32) (material : String)

namespace ObjectDescription

/-- The fields of an object of the given kind.  Only the material is required; absent vectors and
numbers read as zero. -/
def ofJson? (kind : ObjectKind) (j : Json) : Option ObjectDescription :=
  let vector (key : String) := Json.withDefault .zero Json.vector? (j.get? key)
  let number (key : String) := Json.withDefault 0.0 Json.single? (j.get? key)
  let flag (key : String) := Json.withDefault false Json.bool? (j.get? key)
  let material := (j.get? "material").bind Json.text?
  match kind with
  | .sphere => do return sphere (← vector "center") (← number "radius") (← material)
  | .plane => do
    return plane (← vector "point") (← vector "normal") (← flag "checkerboard")
      (← number "checker_size") (← material)
  | .cone => do return cone (← vector "apex") (← vector "base") (← number "radius") (← material)
  | .cylinder => do
    return cylinder (← vector "center1") (← vector "center2") (← number "radius") (← material)

/-- The primitive that an object describes. -/
def toPrimitive (entity : Entity) (table : MaterialTable) :
    ObjectDescription → Except SceneError (Primitive Float32)
  | sphere center radius material => do
    let center ← requiredVector entity "center" center
    let radius ← positive entity "radius" radius
    let material ← materialNamed entity table material
    return ⟨.sphere ⟨center, radius⟩, material⟩
  | plane point normal checkerboard checkerSize material => do
    let checker ←
      if checkerboard then (positive entity "checker_size" checkerSize).map some else .ok none
    let point ← requiredVector entity "point" point
    let normal ← requiredVector entity "normal" normal
    let material ← materialNamed entity table material
    return ⟨.plane (.through point normal checker), material⟩
  | cone apex base radius material => do
    let apex ← requiredVector entity "apex" apex
    let base ← requiredVector entity "base" base
    distinctPoints entity "base" apex base
    let radius ← positive entity "radius" radius
    let material ← materialNamed entity table material
    return ⟨.cone ⟨apex, base, radius⟩, material⟩
  | cylinder center1 center2 radius material => do
    let center1 ← requiredVector entity "center1" center1
    let center2 ← requiredVector entity "center2" center2
    distinctPoints entity "center2" center1 center2
    let radius ← positive entity "radius" radius
    let material ← materialNamed entity table material
    return ⟨.cylinder ⟨center1, center2, radius⟩, material⟩

end ObjectDescription

/-! ### Parts of a scene -/

/-- The primitive that the object at position `index` describes. -/
def primitiveOf (table : MaterialTable) (index : Nat) (j : Json) :
    Except SceneError (Primitive Float32) :=
  match (j.get? "type").bind Json.text? with
  | none => .error (.missingType (.object index none))
  | some type =>
    let entity := Entity.object index (some type)
    match ObjectKind.ofType? type with
    | none => .error (.unknownType entity type)
    | some kind =>
      match ObjectDescription.ofJson? kind j with
      | none => .error (.invalidObject entity)
      | some object => object.toPrimitive entity table

/-- The camera, which must not look at the point where it stands. -/
def CameraDescription.toCamera (d : CameraDescription) : Except SceneError (Camera Float32) :=
  if d.origin.Same d.lookAt then .error (.invalidField .camera "lookAt" .equalsOrigin)
  else .ok ⟨d.origin, d.lookAt⟩

/-- The bound on the reflection levels, at least one. -/
def depthOf (depth : Option UInt32) : Except SceneError UInt32 :=
  match depth with
  | none => .ok Scene.defaultMaxDepth
  | some d => if d = 0 then .error (.invalidField .scene "max_depth" .noLevels) else .ok d

/-- The material at position `index`. -/
def MaterialDescription.toMaterial (index : Nat) (d : MaterialDescription) :
    Except SceneError Material := do
  let color ← colorOf (.material index) "color" d.color
  let power ← nonNegative (.material index) "specular_power" d.specularPower
  return ⟨color, d.ambient, d.diffuse, d.specular, power, d.reflectiveIndex⟩

/-- The table with the material at position `index` under a new name. -/
def addMaterial (table : MaterialTable) (index : Nat) (d : MaterialDescription) :
    Except SceneError MaterialTable := do
  let material ← d.toMaterial index
  match table.insert? d.name material with
  | some (_, table) => return table
  | none => .error (.duplicateMaterial (.material index) d.name)

/-- The table with all materials from position `index` on. -/
def addMaterials (table : MaterialTable) (index : Nat) :
    List MaterialDescription → Except SceneError MaterialTable
  | [] => .ok table
  | d :: rest => do
    let table ← addMaterial table index d
    addMaterials table (index + 1) rest

/-- The light at position `index`. -/
def LightDescription.toLight (index : Nat) (d : LightDescription) : Except SceneError Light := do
  let color ← colorOf (.light index) "color" d.color
  let intensity ← nonNegative (.light index) "intensity" d.intensity
  return ⟨d.origin, color, intensity⟩

/-- The ambient light, which is black if it is not described. -/
def ambientOf : Option AmbientDescription → Except SceneError AmbientLight
  | none => .ok {}
  | some d => do
    let color ← colorOf .ambientLight "color" d.color
    let intensity ← nonNegative .ambientLight "intensity" d.intensity
    return ⟨color, intensity⟩

/-- What `build` makes of the members of a list, numbered from `index` on, up to the first error. -/
def buildFrom {β γ : Type} (build : Nat → β → Except SceneError γ) (index : Nat) :
    List β → Except SceneError (List γ)
  | [] => .ok []
  | b :: rest => do
    let c ← build index b
    let cs ← buildFrom build (index + 1) rest
    return c :: cs

/-- The scene that a description stands for. -/
def Description.toScene (d : Description) (name : String) : Except SceneError Scene := do
  let camera ← d.camera.toCamera
  let maxDepth ← depthOf d.maxDepth
  let materials ← addMaterials {} 0 d.materials
  let lights ← buildFrom (fun i light => LightDescription.toLight i light) 0 d.lights
  let ambient ← ambientOf d.ambientLight
  let primitives ← buildFrom (primitiveOf materials) 0 d.objects
  return { name, camera, primitives, lights, materials, ambient, maxDepth }

/-- The scene of the given name that a text describes. -/
def Scene.ofText (name text : String) : Except SceneError Scene :=
  match Description.ofText? text with
  | none => .error .malformed
  | some d => d.toScene name

end RayTracer
