import RayTracer.Number.Binary
import RayTracer.Shape.Contact

/-!
# Planes and their checkerboard

An infinite plane through a point, optionally covered with a checkerboard whose cells are squares
in the `x` and `z` coordinates.  A cell is dark when the sum of its column and its row is even.
-/

namespace RayTracer

/-- The plane through `point` with unit normal `normal`. -/
structure Plane (α : Type) where
  point : Vec3 α
  normal : Vec3 α
  /-- Edge length of the checkerboard cells, if there is a checkerboard. -/
  checker : Option α
  deriving DecidableEq, Repr

namespace Plane

variable {α : Type} [Scalar α]

/-- Below this cosine a ray counts as parallel to the plane. -/
def parallelEpsilon : α := 1e-6

/-- The plane whose normal has the direction of `normal`. -/
def through (point normal : Vec3 α) (checker : Option α) : Plane α :=
  ⟨point, normal.normalize, checker⟩

/-- The contact of the ray with the plane, if it lies in the interval. -/
def hit (p : Plane α) (r : Ray α) (range : Interval α) : Option (Contact α) :=
  let slope := r.direction.dot p.normal
  if Scalar.abs slope < parallelEpsilon then none
  else
    let t := (p.point - r.origin).dot p.normal / slope
    if range.Contains t then some ⟨t, r.at t, p.normal⟩ else none

/-! ### The checkerboard -/

/-- Color of the cells whose column and row have an even sum. -/
def checkerDark : Color := .splat 0.1

/-- Number of the cell of the given size that a coordinate falls into, clamped to 64 bits. -/
def cell (x size : Float32) : Int64 :=
  .ofInt ((x / size).exact.floorWithin Int64.minValue.toInt Int64.maxValue.toInt)

/-- Whether the cell that contains the point has an even sum of column and row, added in 64 bits. -/
def onDarkCell (point : Vec3 Float32) (size : Float32) : Bool :=
  (cell point.x size + cell point.z size).toInt % 2 == 0

/-- The dark color on the dark cells of the checkerboard, and `base` everywhere else. -/
def surfaceColor (p : Plane Float32) (point : Vec3 Float32) (base : Color) : Color :=
  match p.checker with
  | some size => if onDarkCell point size then checkerDark else base
  | none => base

end Plane

end RayTracer
