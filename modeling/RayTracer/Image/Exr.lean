import RayTracer.Frame
import RayTracer.Number.Power

/-!
# EXR files

A frame is written as uncompressed scan lines with three channels of 32-bit floats, which keep
every color as it is.
-/

namespace RayTracer.Exr

/-- The bytes of a number, the lowest first. -/
def littleEndian (width n : Nat) : List UInt8 :=
  (List.range width).map fun i => .ofNat (n / power 256 i)

/-- A text that ends in a zero byte. -/
def terminated (s : String) : List UInt8 := s.toUTF8.toList ++ [0]

/-- An attribute of the header. -/
def headerEntry (name type : String) (value : List UInt8) : List UInt8 :=
  terminated name ++ terminated type ++ littleEndian 4 value.length ++ value

/-- A channel of 32-bit floats, one for each pixel. -/
def channel (name : String) : List UInt8 :=
  terminated name ++ littleEndian 4 2 ++ [0, 0, 0, 0] ++ littleEndian 4 1 ++ littleEndian 4 1

/-- The rectangle that the frame covers, as its first and its last column and row.  The frame has
pixels: a rectangle that is written in this way is never empty. -/
def window (frame : Frame) : List UInt8 :=
  littleEndian 8 0 ++ littleEndian 4 (frame.width - 1) ++ littleEndian 4 (frame.height - 1)

/-- The bits of a float. -/
def single (x : Float32) : List UInt8 := littleEndian 4 x.toBits.toNat

/-- The magic number, the version and the attributes of the header. -/
def header (frame : Frame) : List UInt8 :=
  [0x76, 0x2f, 0x31, 0x01] ++ littleEndian 4 2 ++
    headerEntry "channels" "chlist" (channel "B" ++ channel "G" ++ channel "R" ++ [0]) ++
    headerEntry "compression" "compression" [0] ++
    headerEntry "dataWindow" "box2i" (window frame) ++
    headerEntry "displayWindow" "box2i" (window frame) ++
    headerEntry "lineOrder" "lineOrder" [0] ++
    headerEntry "pixelAspectRatio" "float" (single 1.0) ++
    headerEntry "screenWindowCenter" "v2f" (single 0.0 ++ single 0.0) ++
    headerEntry "screenWindowWidth" "float" (single 1.0) ++ [0]

/-- A scan line: its number, its size, and its channels one after the other. -/
def scanline (frame : Frame) (y : Nat) : List UInt8 :=
  let row := (frame.pixels.extract (y * frame.width) ((y + 1) * frame.width)).toList
  littleEndian 4 y ++ littleEndian 4 (12 * row.length) ++
    row.flatMap (single ·.z) ++ row.flatMap (single ·.y) ++ row.flatMap (single ·.x)

/-- The contents of the file. -/
def encode (frame : Frame) : List UInt8 :=
  let header := header frame
  let first := header.length + 8 * frame.height
  let offsets := (List.range frame.height).flatMap fun y =>
    littleEndian 8 (first + y * (8 + 12 * frame.width))
  header ++ offsets ++ (List.range frame.height).flatMap (scanline frame)

end RayTracer.Exr
