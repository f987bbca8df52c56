import RayTracer.Geometry.Ray

/-!
# The pinhole camera

A camera stands at `origin`, looks at `lookAt` and is kept upright against the world's up vector
`(0, 1, 0)`.  Its basis is computed from the two points, so it is never out of date.  When the view
direction is parallel to the world's up vector, `right` and `up` are zero and every primary ray
points straight ahead.
-/

namespace RayTracer

/-- The pose of the camera. -/
structure Camera (α : Type) where
  origin : Vec3 α
  lookAt : Vec3 α
  deriving DecidableEq, Repr

namespace Camera

variable {α : Type} [Scalar α]

/-- The direction against which the camera is kept upright. -/
def worldUp : Vec3 α := ⟨0.0, 1.0, 0.0⟩

/-- Tangent of half the vertical field of view, which is 45 degrees. -/
def halfHeight : α := 0.41421357

/-- Unit view direction. -/
def forward (c : Camera α) : Vec3 α := (c.lookAt - c.origin).normalize

/-- Unit vector to the right in the image. -/
def right (c : Camera α) : Vec3 α := (c.forward.cross worldUp).normalize

/-- Unit vector upward in the image. -/
def up (c : Camera α) : Vec3 α := c.right.cross c.forward

/-- The ray through the position `(px, py)` of an image of the given size, in pixels from its top
left corner.  Pixel centers have half-integer positions. -/
def primaryRay (c : Camera α) (px py width height : α) : Ray α :=
  let aspect := width / height
  let halfWidth := aspect * halfHeight
  let u := px / width
  let v := py / height
  let direction := c.forward
    + c.right * (((2.0 : α) * u - (1.0 : α)) * halfWidth)
    + c.up * (((1.0 : α) - (2.0 : α) * v) * halfHeight)
  ⟨c.origin, direction.normalize⟩

end Camera

end RayTracer
