import RayTracer.Description.Basic
import RayTracer.Json.Reader

/-!
# Reading scene descriptions

Every record of a description may be written as an object or as an array of its fields in the order
in which they are listed here.  Fields with a default may be absent, but not `null`, except the
ambient light and the depth, for which `null` means absent.
-/

namespace RayTracer

/-- A camera: `origin` and `lookAt`, also spelled `look_at`. -/
def CameraDescription.ofJson? (j : Json) : Option CameraDescription := do
  let [origin, lookAt] ← j.record? [["origin"], ["lookAt", "look_at"]] | none
  return ⟨← origin.bind Json.vector?, ← lookAt.bind Json.vector?⟩

/-- A material: its name, its color, and coefficients that default to zero. -/
def MaterialDescription.ofJson? (j : Json) : Option MaterialDescription := do
  let [name, color, ambient, diffuse, specular, power, reflective] ←
    j.record? [["type"], ["color"], ["ambient"], ["diffuse"], ["specular"], ["specular_power"],
      ["reflective_index"]] | none
  let coefficient : Option Json → Option Float32 := Json.withDefault 0.0 Json.single?
  return {
    name := ← name.bind Json.text?
    color := ← color.bind Json.singles?
    ambient := ← coefficient ambient
    diffuse := ← coefficient diffuse
    specular := ← coefficient specular
    specularPower := ← coefficient power
    reflectiveIndex := ← coefficient reflective }

/-- A light, all of whose fields are required. -/
def LightDescription.ofJson? (j : Json) : Option LightDescription := do
  let [origin, color, intensity] ← j.record? [["origin"], ["color"], ["intensity"]] | none
  return ⟨← origin.bind Json.vector?, ← color.bind Json.singles?, ← intensity.bind Json.single?⟩

/-- The ambient light, whose intensity defaults to zero. -/
def AmbientDescription.ofJson? (j : Json) : Option AmbientDescription := do
  let [color, intensity] ← j.record? [["color"], ["intensity"]] | none
  return ⟨← color.bind Json.singles?, ← Json.withDefault 0.0 Json.single? intensity⟩

namespace Description

/-- The objects, each of which must be strict JSON inside the document and its list of objects. -/
def objects? (j : Json) : Option (List Json) :=
  j.list?.bind fun items => if items.all (Json.isStrict 2) then some items else none

/-- A scene, of which only the camera is required. -/
def ofJson? (j : Json) : Option Description := do
  let [camera, objects, materials, lights, ambient, depth] ←
    j.record? [["camera"], ["objects"], ["materials"], ["lights"], ["ambient_light"],
      ["max_depth"]] | none
  let listOf {β : Type} (read : Json → Option β) : Option Json → Option (List β) :=
    Json.withDefault [] fun j => j.list?.bind (·.mapM read)
  return {
    camera := ← camera.bind CameraDescription.ofJson?
    objects := ← Json.withDefault [] objects? objects
    materials := ← listOf MaterialDescription.ofJson? materials
    lights := ← listOf LightDescription.ofJson? lights
    ambientLight := ← Json.withDefault none (Json.nullable? AmbientDescription.ofJson?) ambient
    maxDepth := ← Json.withDefault none (Json.nullable? Json.word?) depth }

/-- The description that a text holds. -/
def ofText? (text : String) : Option Description := (Json.ofText? text).bind ofJson?

end Description

end RayTracer
