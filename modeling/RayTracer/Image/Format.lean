import RayTracer.Frame
import RayTracer.Text.Path

/-!
# Image formats

A frame is written either as PNG, with its colors clamped and scaled to bytes, or as EXR, with its
colors untouched.  The extension of the file name decides, in any case.
-/

namespace RayTracer

/-- The formats in which a frame can be written. -/
inductive ImageFormat where
  | png
  | exr
  deriving DecidableEq, Repr

/-- The format that the extension of a path stands for. -/
def ImageFormat.ofPath? (path : String) : Option ImageFormat :=
  match (Path.extension? path).map fun e => String.ofList (e.toList.map Char.toLower) with
  | some "png" => some png
  | some "exr" => some exr
  | _ => none

/-- A color component as a byte: clamped to the range from zero to one and scaled, without a gamma
curve.  What is no number becomes zero. -/
def byteOfComponent (x : Float32) : UInt8 :=
  let low := if x < (0.0 : Float32) then 0.0 else x
  let clamped := if (1.0 : Float32) < low then 1.0 else low
  (clamped * 255.0).toUInt8

/-- The three bytes of a color. -/
def bytesOfColor (c : Color) : List UInt8 :=
  [byteOfComponent c.x, byteOfComponent c.y, byteOfComponent c.z]

end RayTracer
