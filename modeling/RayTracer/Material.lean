import RayTracer.Geometry.Vec3

/-!
# Materials

A `Material` holds the coefficients of the reflection model, and a `MaterialTable` numbers named
materials densely in the order in which they were inserted.  A name is inserted once.

* `MaterialTable.insert?` appends a material under a new name;
* `MaterialTable.id?`, `get?` and `name?` look up by name and by number.
-/

namespace RayTracer

/-- Number of a material in its table. -/
structure MaterialId where
  number : UInt32
  deriving DecidableEq, Repr

/-- How a surface answers to light.  The coefficients are meant to lie between zero and one, but
nothing clamps them. -/
structure Material where
  /-- Base diffuse color. -/
  color : Color := .splat 1.0
  /-- Weight of the ambient term. -/
  ambient : Float32 := 0.0
  /-- Weight of the Lambert term. -/
  diffuse : Float32 := 0.0
  /-- Weight of the Phong highlight. -/
  specular : Float32 := 0.0
  /-- Exponent of the highlight. -/
  specularPower : Float32 := 0.0
  /-- Fraction of the mirrored color that is added to the surface color. -/
  reflectiveIndex : Float32 := 0.0
  deriving Repr

/-- Named materials, numbered in the order of insertion. -/
structure MaterialTable where
  entries : List (String × Material) := []
  deriving Repr

namespace MaterialTable

variable (table : MaterialTable)

/-- Number of materials. -/
def size : Nat := table.entries.length

/-- The materials in the order of their numbers. -/
def materials : List Material := table.entries.map (·.2)

/-- The number of the material inserted under `name`. -/
def id? (name : String) : Option MaterialId :=
  (table.entries.findIdx? (·.1 == name)).map fun i => ⟨.ofNat i⟩

/-- The material with the given number. -/
def get? (id : MaterialId) : Option Material := (table.entries[id.number.toNat]?).map (·.2)

/-- The name of the material with the given number. -/
def name? (id : MaterialId) : Option String := (table.entries[id.number.toNat]?).map (·.1)

/-- Appends a material under a name that is not in the table yet; its number is the former size. -/
def insert? (name : String) (material : Material) : Option (MaterialId × MaterialTable) :=
  if table.entries.any (·.1 == name) then none
  else some (⟨.ofNat table.size⟩, ⟨table.entries ++ [(name, material)]⟩)

end MaterialTable

end RayTracer
