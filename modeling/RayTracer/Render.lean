import RayTracer.Frame
import RayTracer.Shading

/-!
# Rendering

A render pass divides the image into square blocks.  Each block is traced once, through the center
of its top left pixel, and the color found there fills the block.  Blocks are numbered row by row
with words of 32 bits; `Settings.samples` traces them and `render` spreads them over the frame.
-/

namespace RayTracer

/-- What a render pass is asked for. -/
structure Settings where
  width : UInt32
  height : UInt32
  /-- Edge of the square blocks that share one sample; zero counts as one. -/
  blockSize : UInt32 := 1
  /-- Gather the color from the eye outward instead of by recursion. -/
  iterative : Bool := false
  deriving DecidableEq, Repr

namespace Settings

variable (settings : Settings)

/-- Edge of the blocks. -/
def block : UInt32 := if settings.blockSize < 1 then 1 else settings.blockSize

/-- Number of blocks of edge `block` that cover `length` pixels. -/
def blocksAlong (length block : UInt32) : UInt32 :=
  length / block + if length % block = 0 then 0 else 1

/-- Number of blocks in a row. -/
def columns : UInt32 := blocksAlong settings.width settings.block

/-- Number of rows of blocks. -/
def rows : UInt32 := blocksAlong settings.height settings.block

/-- The ray through the center of the top left pixel of a block. -/
def sampleRay (camera : Camera Float32) (index : UInt32) : Ray Float32 :=
  let column := index % settings.columns
  let row := index / settings.columns
  camera.primaryRay
    ((column * settings.block).toFloat32 + 0.5) ((row * settings.block).toFloat32 + 0.5)
    settings.width.toFloat32 settings.height.toFloat32

/-- The color of every block, row by row. -/
def samples (scene : Scene) (camera : Camera Float32) : Array Color :=
  let view := View.ofScene scene
  let evaluate := if settings.iterative then view.traceIterative else view.trace
  Array.ofFn fun index : Fin (settings.columns * settings.rows).toNat =>
    evaluate (settings.sampleRay camera (.ofNat index))

/-- Number of the block that contains the pixel in column `x` and row `y`. -/
def sampleIndex (x y : UInt32) : UInt32 :=
  y / settings.block * settings.columns + x / settings.block

end Settings

/-- The image of the scene through the camera. -/
def render (scene : Scene) (camera : Camera Float32) (settings : Settings) : Frame :=
  let samples := settings.samples scene camera
  .generate settings.width.toNat settings.height.toNat fun x y =>
    samples.getD (settings.sampleIndex (.ofNat x) (.ofNat y)).toNat background

end RayTracer
