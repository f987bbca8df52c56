import RayTracer.Material
import RayTracer.Shape.Cone
import RayTracer.Shape.Cylinder
import RayTracer.Shape.Plane
import RayTracer.Shape.Sphere

/-!
# Primitives

A `Shape` is one of the four kinds of surface, and a `Primitive` is a shape made of a material.
What a ray finds on a primitive is a `Hit`: the contact with the shape and the number of the
material.
-/

namespace RayTracer

/-- The kinds of surface that a ray can meet. -/
inductive Shape (α : Type) where
  | sphere (s : Sphere α)
  | plane (p : Plane α)
  | cone (c : Cone α)
  | cylinder (c : Cylinder α)
  deriving DecidableEq, Repr

namespace Shape

variable {α : Type} [Scalar α]

/-- The nearest contact of the ray with the surface in the interval. -/
def hit (s : Shape α) (r : Ray α) (range : Interval α) : Option (Contact α) :=
  match s with
  | sphere s => s.hit r range
  | plane p => p.hit r range
  | cone c => c.hit r range
  | cylinder c => c.hit r range

/-- The word for the kind of surface in scene descriptions. -/
def kind {α : Type} : Shape α → String
  | sphere _ => "sphere"
  | plane _ => "plane"
  | cone _ => "cone"
  | cylinder _ => "cylinder"

end Shape

/-- A contact and the material found there. -/
structure Hit (α : Type) extends Contact α where
  material : MaterialId
  deriving DecidableEq, Repr

/-- A surface made of a material. -/
structure Primitive (α : Type) where
  shape : Shape α
  material : MaterialId
  deriving DecidableEq, Repr

namespace Primitive

variable {α : Type} [Scalar α]

/-- The nearest hit of the ray on the primitive in the interval. -/
def hit (p : Primitive α) (r : Ray α) (range : Interval α) : Option (Hit α) :=
  (p.shape.hit r range).map fun contact => ⟨contact, p.material⟩

/-- Diffuse color at a point, given the color of the material. -/
def surfaceColor (p : Primitive Float32) (point : Vec3 Float32) (base : Color) : Color :=
  match p.shape with
  | .plane plane => plane.surfaceColor point base
  | .sphere _ | .cone _ | .cylinder _ => base

end Primitive

end RayTracer
