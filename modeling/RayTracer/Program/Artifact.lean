import RayTracer.Image.Exr
import RayTracer.Image.Png

/-!
# Files that the program writes

An `Artifact` is what the program puts into a file: a text, or an image in one of the formats.  It
says which bytes the file gets, and which image a reader finds in them.

A frame without pixels has no encoding.  PNG excludes the width and the height zero, and EXR names
the first and the last column and row of an image, both of which lie inside it.
-/

namespace RayTracer

/-- The contents of a file that the program writes. -/
inductive Artifact where
  | text (contents : List Char)
  | image (format : ImageFormat) (frame : Frame)

namespace Artifact

/-- Whether the contents have an encoding. -/
def isEncodable : Artifact → Bool
  | text _ => true
  | image _ frame => !frame.isEmpty

/-- The bytes of the file; what has no encoding leaves it empty. -/
def bytes (artifact : Artifact) : List UInt8 :=
  if artifact.isEncodable then
    match artifact with
    | text contents => (String.ofList contents).toUTF8.toList
    | image .png frame => Png.encode frame
    | image .exr frame => Exr.encode frame
  else []

/-- The image that a reader finds in the file. -/
def image? : Artifact → Option (ImageFormat × Frame)
  | text _ => none
  | image format frame => if frame.isEmpty then none else some (format, frame)

/-- The text that a reader finds in the file. -/
def text? : Artifact → Option (List Char)
  | text contents => some contents
  | image _ _ => none

end Artifact

end RayTracer
