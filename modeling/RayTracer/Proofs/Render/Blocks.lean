import Mathlib.Algebra.Order.Floor.Div
import RayTracer.Proofs.Number.Checked
import RayTracer.Render

/-!
# Blocks and their samples

A pass numbers the blocks with words of 32 bits: `Settings.samples` takes a number apart into the
column and the row of a block, and `Settings.sampleIndex` puts the block of a pixel together again.
`render?` is the same pass with sums and products that must fit, and with lookups that must be in
bounds; here both are compared with blocks that are counted in natural numbers.

* `Settings.lt_columns_iff`, `Settings.lt_rows_iff` : a block is one of the image exactly if its
  first pixel is.
* `Settings.samples_sampleIndex` : the sample of a pixel is in bounds and is that of its block.
* `render?_eq_none_iff`, `render?_eq_some` : **the pass fails exactly if the number of blocks is no
  word.**
* `pixel?_render` : **otherwise each pixel has the color of the first pixel of its block.**
* `render_samples_first_pixels` : all of this, and what it says of the image without blocks.
-/

namespace RayTracer

namespace Settings

/-! ### The pass with sums and products that must fit -/

/-- Number of blocks that cover `length` pixels, if it is a word. -/
def blocksAlong? (length block : UInt32) : Option UInt32 :=
  (length / block).add? (if length % block = 0 then 0 else 1)

variable (settings : Settings)

/-- The color of the scene along a ray, found as the settings ask. -/
def evaluate (scene : Scene) : Ray Float32 → Color :=
  if settings.iterative then (View.ofScene scene).traceIterative else (View.ofScene scene).trace

/-- The ray of a sample, if the coordinates of its pixel are words. -/
def sampleRay? (camera : Camera Float32) (columns index : UInt32) : Option (Ray Float32) := do
  let x ← (index % columns).mul? settings.block
  let y ← (index / columns).mul? settings.block
  return camera.primaryRay (x.toFloat32 + 0.5) (y.toFloat32 + 0.5)
    settings.width.toFloat32 settings.height.toFloat32

/-- The color of every block, if the number of blocks and all coordinates are words. -/
def samples? (scene : Scene) (camera : Camera Float32) (columns rows : UInt32) :
    Option (Array Color) := do
  let count ← columns.mul? rows
  let colors ← Vector.ofFnM fun index : Fin count.toNat =>
    (settings.sampleRay? camera columns (.ofNat index)).map (settings.evaluate scene)
  return colors.toArray

/-- The sample of a pixel, if its number is a word and in bounds. -/
def sampleAt? (samples : Array Color) (columns x y : UInt32) : Option Color := do
  let first ← (y / settings.block).mul? columns
  let index ← first.add? (x / settings.block)
  samples[index.toNat]?

end Settings

/-- The image of the scene through the camera, if all words of the pass fit and all its lookups are
in bounds. -/
def render? (scene : Scene) (camera : Camera Float32) (settings : Settings) : Option Frame := do
  let columns ← Settings.blocksAlong? settings.width settings.block
  let rows ← Settings.blocksAlong? settings.height settings.block
  let samples ← settings.samples? scene camera columns rows
  let pixels ← Vector.ofFnM fun i : Fin (settings.width.toNat * settings.height.toNat) =>
    settings.sampleAt? samples columns (.ofNat (i % settings.width.toNat))
      (.ofNat (i / settings.width.toNat))
  return ⟨settings.width.toNat, settings.height.toNat, pixels.toArray, pixels.size_toArray⟩

/-- Where each member has a result, so has the vector. -/
theorem ofFnM_eq_some {α : Type} {n : Nat} {f : Fin n → Option α} {g : Fin n → α}
    (h : ∀ i, f i = some (g i)) : Vector.ofFnM f = some (Vector.ofFn g) := by
  rw [funext h]
  exact Vector.ofFnM_pure

namespace Settings

variable (settings : Settings)

/-! ### Blocks in natural numbers -/

/-- Edge of the blocks, as a number. -/
def edge : Nat := max settings.blockSize.toNat 1

/-- Number of blocks of the image. -/
def blockCount : Nat :=
  settings.width.toNat ⌈/⌉ settings.edge * (settings.height.toNat ⌈/⌉ settings.edge)

/-- The column or row where the block of a column or row begins. -/
def blockStart (x : Nat) : Nat := x - x % settings.edge

/-- Number of the block that contains the pixel in column `x` and row `y`. -/
def blockNumber (x y : Nat) : Nat :=
  y / settings.edge * settings.columns.toNat + x / settings.edge

/-- The ray through the center of the pixel in column `x` and row `y`. -/
def pixelRay (camera : Camera Float32) (x y : Nat) : Ray Float32 :=
  camera.primaryRay ((UInt32.ofNat x).toFloat32 + 0.5) ((UInt32.ofNat y).toFloat32 + 0.5)
    settings.width.toFloat32 settings.height.toFloat32

theorem edge_pos : 0 < settings.edge := Nat.lt_of_lt_of_le Nat.one_pos (Nat.le_max_right _ _)

theorem div_mul_edge (x : Nat) : x / settings.edge * settings.edge = settings.blockStart x :=
  Nat.div_mul_self_eq_mod_sub_self

theorem blockStart_le (x : Nat) : settings.blockStart x ≤ x := Nat.sub_le _ _

@[simp] theorem toNat_block : settings.block.toNat = settings.edge := by
  rw [block, edge]
  by_cases small : settings.blockSize < 1
  · have le_one := Nat.le_of_lt (UInt32.lt_iff_toNat_lt.1 small)
    rw [if_pos small]
    exact (Nat.max_eq_right le_one).symm
  · have one_le : 1 ≤ settings.blockSize.toNat :=
      Nat.le_of_not_lt fun h => small (UInt32.lt_iff_toNat_lt.2 h)
    rw [if_neg small, Nat.max_eq_left one_le]

/-- The blocks that fit and the one that sticks out cover the length. -/
theorem div_add_rest {edge : Nat} (positive : 0 < edge) (length : Nat) :
    length / edge + (if length % edge = 0 then 0 else 1) = length ⌈/⌉ edge := by
  have whole := Nat.div_add_mod length edge
  have rest := Nat.mod_lt length positive
  have cover := (ceilDiv_le_iff_le_mul positive).1 (le_refl (length ⌈/⌉ edge))
  by_cases even : length % edge = 0
  · rw [if_pos even, Nat.add_zero]
    refine le_antisymm (Nat.le_of_mul_le_mul_left ?_ positive) ?_
    · omega
    · exact (ceilDiv_le_iff_le_mul positive).2 (by omega)
  · rw [if_neg even]
    refine le_antisymm (Nat.lt_of_mul_lt_mul_left (a := edge) ?_) ?_
    · omega
    · exact (ceilDiv_le_iff_le_mul positive).2 (by rw [Nat.mul_succ]; omega)

variable {length block : UInt32}

/-- The sum in `blocksAlong`, in natural numbers. -/
theorem toNat_summands (positive : 0 < block.toNat) :
    (length / block).toNat + (if length % block = 0 then 0 else 1 : UInt32).toNat =
      length.toNat ⌈/⌉ block.toNat := by
  have rest : length % block = 0 ↔ length.toNat % block.toNat = 0 := by
    rw [← UInt32.toNat_inj, UInt32.toNat_mod]
    rfl
  rw [← div_add_rest positive, UInt32.toNat_div, apply_ite UInt32.toNat]
  simp only [rest]
  rfl

/-- There are at most as many blocks as pixels, so their number is a word. -/
theorem summands_fit (positive : 0 < block.toNat) :
    (length / block).toNat + (if length % block = 0 then 0 else 1 : UInt32).toNat <
      UInt32.size := by
  rw [toNat_summands positive]
  calc length.toNat ⌈/⌉ block.toNat ≤ length.toNat :=
        (ceilDiv_le_iff_le_mul positive).2 (Nat.le_mul_of_pos_left _ positive)
    _ < UInt32.size := length.toNat_lt

theorem blocksAlong?_eq (positive : 0 < block.toNat) :
    blocksAlong? length block = some (blocksAlong length block) :=
  UInt32.add?_of_lt (summands_fit positive)

theorem toNat_blocksAlong (positive : 0 < block.toNat) :
    (blocksAlong length block).toNat = length.toNat ⌈/⌉ block.toNat := by
  rw [blocksAlong, UInt32.toNat_add_of_lt (summands_fit positive), toNat_summands positive]

theorem block_pos : 0 < settings.block.toNat := by
  rw [toNat_block]
  exact settings.edge_pos

theorem blocksAlong?_width :
    blocksAlong? settings.width settings.block = some settings.columns :=
  blocksAlong?_eq settings.block_pos

theorem blocksAlong?_height :
    blocksAlong? settings.height settings.block = some settings.rows :=
  blocksAlong?_eq settings.block_pos

theorem columns_mul_rows :
    settings.columns.toNat * settings.rows.toNat = settings.blockCount := by
  rw [columns, rows, toNat_blocksAlong settings.block_pos, toNat_blocksAlong settings.block_pos,
    toNat_block, blockCount]

theorem lt_blocksAlong_iff {c : Nat} :
    c < (blocksAlong length settings.block).toNat ↔ c * settings.edge < length.toNat := by
  rw [toNat_blocksAlong settings.block_pos, toNat_block, Nat.mul_comm]
  exact lt_iff_lt_of_le_iff_le (ceilDiv_le_iff_le_mul settings.edge_pos)

/-- **A column of blocks is one of the image exactly if its first pixels are.** -/
theorem lt_columns_iff {c : Nat} :
    c < settings.columns.toNat ↔ c * settings.edge < settings.width.toNat :=
  settings.lt_blocksAlong_iff

/-- **A row of blocks is one of the image exactly if its first pixels are.** -/
theorem lt_rows_iff {c : Nat} :
    c < settings.rows.toNat ↔ c * settings.edge < settings.height.toNat :=
  settings.lt_blocksAlong_iff

/-! ### The ray of a sample -/

section Samples

variable {settings} {index : UInt32}

/-- The block of a number in range begins in the image. -/
theorem block_in_image (h : index.toNat < settings.columns.toNat * settings.rows.toNat) :
    (index % settings.columns).toNat * settings.block.toNat < settings.width.toNat ∧
      (index / settings.columns).toNat * settings.block.toNat < settings.height.toNat := by
  have columns_pos : 0 < settings.columns.toNat := Nat.pos_of_lt_mul_right h
  rw [UInt32.toNat_mod, UInt32.toNat_div, toNat_block]
  exact ⟨settings.lt_columns_iff.1 (Nat.mod_lt _ columns_pos),
    settings.lt_rows_iff.1 (Nat.div_lt_of_lt_mul h)⟩

theorem sampleRay?_eq (camera : Camera Float32)
    (h : index.toNat < settings.columns.toNat * settings.rows.toNat) :
    settings.sampleRay? camera settings.columns index = some (settings.sampleRay camera index) := by
  obtain ⟨hcolumn, hrow⟩ := block_in_image h
  rw [sampleRay?, UInt32.mul?_of_lt (hcolumn.trans settings.width.toNat_lt),
    UInt32.mul?_of_lt (hrow.trans settings.height.toNat_lt)]
  rfl

/-- The ray of a sample goes through the first pixel of its block. -/
theorem sampleRay_eq (camera : Camera Float32) (index : UInt32) :
    settings.sampleRay camera index =
      settings.pixelRay camera (index.toNat % settings.columns.toNat * settings.edge)
        (index.toNat / settings.columns.toNat * settings.edge) := by
  rw [sampleRay, pixelRay, ← toNat_block, ← UInt32.toNat_mod, ← UInt32.toNat_div,
    UInt32.ofNat_mul, UInt32.ofNat_mul]
  simp only [UInt32.ofNat_toNat]

/-! ### All samples -/

section Fits

variable (fits : settings.blockCount < UInt32.size)

include fits

theorem columns_mul_rows_fit : settings.columns.toNat * settings.rows.toNat < UInt32.size := by
  rwa [columns_mul_rows]

theorem toNat_columns_mul_rows :
    (settings.columns * settings.rows).toNat = settings.columns.toNat * settings.rows.toNat :=
  UInt32.toNat_mul_of_lt (columns_mul_rows_fit fits)

theorem size_samples (scene : Scene) (camera : Camera Float32) :
    (settings.samples scene camera).size = settings.columns.toNat * settings.rows.toNat := by
  rw [samples, Array.size_ofFn, toNat_columns_mul_rows fits]

theorem samples?_eq (scene : Scene) (camera : Camera Float32) :
    settings.samples? scene camera settings.columns settings.rows =
      some (settings.samples scene camera) := by
  have each (index : Fin (settings.columns * settings.rows).toNat) :
      (settings.sampleRay? camera settings.columns (.ofNat index)).map (settings.evaluate scene) =
        some (settings.evaluate scene (settings.sampleRay camera (.ofNat index))) := by
    have inRange : (UInt32.ofNat index).toNat < settings.columns.toNat * settings.rows.toNat := by
      rw [UInt32.toNat_ofNat_of_lt' (index.isLt.trans (UInt32.toNat_lt _)),
        ← toNat_columns_mul_rows fits]
      exact index.isLt
    rw [sampleRay?_eq camera inRange, Option.map_some]
  rw [samples?, UInt32.mul?_of_lt (columns_mul_rows_fit fits), Option.bind_eq_bind,
    Option.bind_some, ofFnM_eq_some each]
  rfl

theorem getElem?_samples {i : Nat} (scene : Scene) (camera : Camera Float32)
    (h : i < settings.columns.toNat * settings.rows.toNat) :
    (settings.samples scene camera)[i]? =
      some (settings.evaluate scene (settings.sampleRay camera (.ofNat i))) := by
  rw [samples, Array.getElem?_ofFn, dif_pos (by rwa [toNat_columns_mul_rows fits])]
  rfl

end Fits

/-! ### The sample of a pixel -/

section Number

variable {x y : Nat} (hx : x < settings.width.toNat) (hy : y < settings.height.toNat)

include hx in
theorem div_edge_lt_columns : x / settings.edge < settings.columns.toNat :=
  settings.lt_columns_iff.2 (Nat.lt_of_le_of_lt (Nat.div_mul_le_self _ _) hx)

include hx in
theorem blockNumber_mod : settings.blockNumber x y % settings.columns.toNat = x / settings.edge :=
  Nat.mul_add_mod_of_lt (div_edge_lt_columns hx)

include hx in
theorem blockNumber_div :
    settings.blockNumber x y / settings.columns.toNat = y / settings.edge := by
  have column := div_edge_lt_columns hx
  rw [blockNumber, Nat.mul_comm, Nat.mul_add_div (Nat.zero_lt_of_lt column),
    Nat.div_eq_of_lt column, Nat.add_zero]

include hx hy in
/-- The number of the block of a pixel is in range. -/
theorem blockNumber_lt :
    settings.blockNumber x y < settings.columns.toNat * settings.rows.toNat := by
  have row : y / settings.edge < settings.rows.toNat :=
    settings.lt_rows_iff.2 (Nat.lt_of_le_of_lt (Nat.div_mul_le_self _ _) hy)
  calc settings.blockNumber x y
      = settings.columns.toNat * (y / settings.edge) + x / settings.edge := by
        rw [blockNumber, Nat.mul_comm]
    _ < settings.rows.toNat * settings.columns.toNat :=
        Nat.mul_add_lt_mul_of_lt_of_lt row (div_edge_lt_columns hx)
    _ = settings.columns.toNat * settings.rows.toNat := Nat.mul_comm _ _

end Number

section Pixel

variable (fits : settings.blockCount < UInt32.size) {x y : Nat}
  (hx : x < settings.width.toNat) (hy : y < settings.height.toNat)

include fits hx hy

theorem blockNumber_fits : settings.blockNumber x y < UInt32.size :=
  (blockNumber_lt hx hy).trans (columns_mul_rows_fit fits)

theorem row_mul_columns_fits :
    (UInt32.ofNat y / settings.block).toNat * settings.columns.toNat < UInt32.size := by
  rw [UInt32.toNat_div, UInt32.toNat_ofNat_of_lt_toNat hy, toNat_block]
  exact Nat.lt_of_le_of_lt (Nat.le_add_right _ _) (blockNumber_fits fits hx hy)

/-- The sum in `sampleIndex`, in natural numbers. -/
theorem toNat_row_add_column :
    (UInt32.ofNat y / settings.block * settings.columns).toNat +
        (UInt32.ofNat x / settings.block).toNat = settings.blockNumber x y := by
  rw [UInt32.toNat_mul_of_lt (row_mul_columns_fits fits hx hy), UInt32.toNat_div, UInt32.toNat_div,
    UInt32.toNat_ofNat_of_lt_toNat hx, UInt32.toNat_ofNat_of_lt_toNat hy, toNat_block, blockNumber]

theorem row_add_column_fits :
    (UInt32.ofNat y / settings.block * settings.columns).toNat +
        (UInt32.ofNat x / settings.block).toNat < UInt32.size := by
  rw [toNat_row_add_column fits hx hy]
  exact blockNumber_fits fits hx hy

theorem toNat_sampleIndex :
    (settings.sampleIndex (.ofNat x) (.ofNat y)).toNat = settings.blockNumber x y := by
  rw [sampleIndex, UInt32.toNat_add_of_lt (row_add_column_fits fits hx hy),
    toNat_row_add_column fits hx hy]

/-- **The sample of a pixel is in bounds and is that of its block.** -/
theorem samples_sampleIndex (scene : Scene) (camera : Camera Float32) :
    (settings.samples scene camera)[(settings.sampleIndex (.ofNat x) (.ofNat y)).toNat]? =
      some (settings.evaluate scene
        (settings.pixelRay camera (settings.blockStart x) (settings.blockStart y))) := by
  have number := toNat_sampleIndex fits hx hy
  have inRange := number ▸ blockNumber_lt hx hy
  rw [getElem?_samples fits scene camera inRange, UInt32.ofNat_toNat, sampleRay_eq, number,
    blockNumber_mod hx, blockNumber_div hx, div_mul_edge, div_mul_edge]

theorem sampleAt?_eq (scene : Scene) (camera : Camera Float32) :
    settings.sampleAt? (settings.samples scene camera) settings.columns (.ofNat x) (.ofNat y) =
      some ((settings.samples scene camera).getD
        (settings.sampleIndex (.ofNat x) (.ofNat y)).toNat background) := by
  have sample := samples_sampleIndex fits hx hy scene camera
  rw [sampleAt?, UInt32.mul?_of_lt (row_mul_columns_fits fits hx hy), Option.bind_eq_bind,
    Option.bind_some, UInt32.add?_of_lt (row_add_column_fits fits hx hy),
    Array.getD_eq_getD_getElem?, sample]
  exact sample

end Pixel

end Samples

end Settings

/-! ### The pass -/

open Scene Settings

section Pass

variable {settings : Settings} (fits : settings.blockCount < UInt32.size)

include fits

/-- **If the number of blocks is a word, so are all numbers of the pass, and no lookup is out of
bounds.** -/
theorem render?_eq_some (scene : Scene) (camera : Camera Float32) :
    render? scene camera settings = some (render scene camera settings) := by
  have each (i : Fin (settings.width.toNat * settings.height.toNat)) :
      settings.sampleAt? (settings.samples scene camera) settings.columns
          (.ofNat (i % settings.width.toNat)) (.ofNat (i / settings.width.toNat)) =
        some ((settings.samples scene camera).getD (settings.sampleIndex
          (.ofNat (i % settings.width.toNat)) (.ofNat (i / settings.width.toNat))).toNat
            background) := by
    have hcolumn := Nat.mod_lt i (Nat.pos_of_lt_mul_right i.isLt)
    have hrow := Nat.div_lt_of_lt_mul i.isLt
    exact sampleAt?_eq fits hcolumn hrow scene camera
  simp only [render?, blocksAlong?_width, blocksAlong?_height, samples?_eq fits, ofFnM_eq_some each,
    Option.bind_eq_bind, Option.bind_some]
  rfl

/-- **Each pixel has the color of the first pixel of its block.** -/
theorem pixel?_render (scene : Scene) (camera : Camera Float32) {x y : Nat}
    (hx : x < settings.width.toNat) (hy : y < settings.height.toNat) :
    (render scene camera settings).pixel? x y =
      some (settings.evaluate scene
        (settings.pixelRay camera (settings.blockStart x) (settings.blockStart y))) := by
  rw [render, Frame.pixel?_generate _ hx hy, Array.getD_eq_getD_getElem?,
    samples_sampleIndex fits hx hy, Option.getD_some]

end Pass

/-- **The pass fails exactly if the number of blocks is no word.** -/
theorem render?_eq_none_iff (scene : Scene) (camera : Camera Float32) (settings : Settings) :
    render? scene camera settings = none ↔ UInt32.size ≤ settings.blockCount := by
  constructor
  · intro failed
    by_contra few
    rw [render?_eq_some (Nat.lt_of_not_le few)] at failed
    contradiction
  · intro many
    rw [← columns_mul_rows] at many
    have noSamples : settings.samples? scene camera settings.columns settings.rows = none := by
      rw [samples?, UInt32.mul?_of_le many]
      rfl
    simp only [render?, blocksAlong?_width, blocksAlong?_height, noSamples, Option.bind_eq_bind,
      Option.bind_some, Option.bind_none]

/-- Blocks of one pixel begin where they are. -/
theorem blockStart_one (settings : Settings) (x : Nat) :
    { settings with blockSize := 1 }.blockStart x = x := by
  change x - x % 1 = x
  rw [Nat.mod_one, Nat.sub_zero]

/-- **A pass samples the right pixels.**  A word of the pass is too small only if the number of
blocks is; otherwise all lookups are in bounds, each pixel has the color that the chosen evaluator
finds through the center of the first pixel of its block, and that is the color this first pixel has
in the image without blocks. -/
theorem render_samples_first_pixels (scene : Scene) (camera : Camera Float32)
    (settings : Settings) :
    (render? scene camera settings = none ↔ UInt32.size ≤ settings.blockCount) ∧
    (settings.blockCount < UInt32.size →
      render? scene camera settings = some (render scene camera settings) ∧
      ∀ x y : Nat, x < settings.width.toNat → y < settings.height.toNat →
        (settings.sampleIndex (.ofNat x) (.ofNat y)).toNat < (settings.samples scene camera).size ∧
        (render scene camera settings).pixel? x y =
          some (settings.evaluate scene
            (settings.pixelRay camera (settings.blockStart x) (settings.blockStart y))) ∧
        ({ settings with blockSize := 1 }.blockCount < UInt32.size →
          (render scene camera settings).pixel? x y =
            (render scene camera { settings with blockSize := 1 }).pixel?
              (settings.blockStart x) (settings.blockStart y))) := by
  refine ⟨render?_eq_none_iff scene camera settings, fun fits =>
    ⟨render?_eq_some fits scene camera, fun x y hx hy => ?_⟩⟩
  have pixel := pixel?_render fits scene camera hx hy
  refine ⟨?_, pixel, fun fitsOne => ?_⟩
  · rw [size_samples fits, toNat_sampleIndex fits hx hy]
    exact blockNumber_lt hx hy
  · have first := pixel?_render fitsOne scene camera
      (Nat.lt_of_le_of_lt (settings.blockStart_le x) hx)
      (Nat.lt_of_le_of_lt (settings.blockStart_le y) hy)
    rw [blockStart_one, blockStart_one] at first
    rw [pixel, first]
    rfl

/-- A ball in the middle of the view. -/
def Scene.ball : Scene where
  camera := ⟨⟨0.0, 0.0, 10.0⟩, .zero⟩
  primitives := [⟨.sphere ⟨.zero, 3.0⟩, ⟨0⟩⟩]
  maxDepth := 1

/-- Three by two blocks, of which the last column and the last row stick out. -/
def Settings.coarse : Settings := { width := 5, height := 3, blockSize := 2 }

/-- A pixel beside the ball has the color of the ball where the first pixel of its block shows it,
and keeps the background in an image without blocks.  An image of `65536` by `65536` pixels has too
many blocks of one pixel. -/
theorem render_samples_first_pixels_ball :
    coarse.blockCount < UInt32.size ∧ { coarse with blockSize := 1 }.blockCount < UInt32.size ∧
    3 < coarse.width.toNat ∧ 2 < coarse.height.toNat ∧
    (render ball ball.camera coarse).pixel? 3 2 = some missingMaterialColor ∧
    (render ball ball.camera { coarse with blockSize := 1 }).pixel? 2 2 =
      some missingMaterialColor ∧
    (render ball ball.camera { coarse with blockSize := 1 }).pixel? 3 2 = some background ∧
    render? ball ball.camera { width := 65536, height := 65536 } = none := by
  have fits : coarse.blockCount < UInt32.size := by decide
  have fitsOne : { coarse with blockSize := 1 }.blockCount < UInt32.size := by decide
  have hx : 3 < coarse.width.toNat := by decide
  have hy : 2 < coarse.height.toNat := by decide
  have hshown : coarse.evaluate ball
      (coarse.pixelRay ball.camera (coarse.blockStart 3) (coarse.blockStart 2)) =
        missingMaterialColor := by decide +kernel
  have hbeside : { coarse with blockSize := 1 }.evaluate ball
      ({ coarse with blockSize := 1 }.pixelRay ball.camera
        ({ coarse with blockSize := 1 }.blockStart 3)
        ({ coarse with blockSize := 1 }.blockStart 2)) = background := by decide +kernel
  obtain ⟨-, pixels⟩ := (render_samples_first_pixels ball ball.camera coarse).2 fits
  obtain ⟨-, color, first⟩ := pixels 3 2 hx hy
  rw [hshown] at color
  obtain ⟨-, own⟩ :=
    (render_samples_first_pixels ball ball.camera { coarse with blockSize := 1 }).2 fitsOne
  obtain ⟨-, beside, -⟩ := own 3 2 hx hy
  rw [hbeside] at beside
  have large := (render_samples_first_pixels ball ball.camera
    { width := 65536, height := 65536 }).1.2 (by decide)
  exact ⟨fits, fitsOne, hx, hy, color, (first fitsOne).symm.trans color, beside, large⟩

end RayTracer
