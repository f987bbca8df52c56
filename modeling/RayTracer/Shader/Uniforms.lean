import RayTracer.Camera
import RayTracer.Shader.Row

/-!
# Inputs of the shader for one frame

The shader reads the pose of the camera and the size of the image from three rows of floats.
-/

namespace RayTracer

/-- Inputs of the shader for one frame. -/
structure FrameUniforms where
  origin : Row
  lookAt : Row
  resolution : Row
  deriving Repr

namespace FrameUniforms

/-- The inputs for a pose of the camera and a size of the image. -/
def ofCamera (camera : Camera Float32) (width height : UInt32) : FrameUniforms where
  origin := .ofVector camera.origin 0.0
  lookAt := .ofVector camera.lookAt 0.0
  resolution := ⟨width.toFloat32, height.toFloat32, 0.0, 0.0⟩

/-- The rows in the order in which the shader declares them. -/
def rows (u : FrameUniforms) : List Row := [u.origin, u.lookAt, u.resolution]

/-- The bytes of a word, the lowest first. -/
def bytesOfWord (w : UInt32) : List UInt8 :=
  [w.toUInt8, (w >>> 8).toUInt8, (w >>> 16).toUInt8, (w >>> 24).toUInt8]

/-- The contents of the buffer that the shader reads. -/
def bytes (u : FrameUniforms) : List UInt8 :=
  u.rows.flatMap fun r => r.toList.flatMap fun x => bytesOfWord x.toBits

end FrameUniforms

end RayTracer
