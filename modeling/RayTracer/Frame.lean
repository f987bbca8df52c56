import RayTracer.Geometry.Vec3

/-!
# Frames

A `Frame` is a rectangular image of linear colors, stored row by row from the top.
-/

namespace RayTracer

/-- An image, row by row from the top. -/
structure Frame where
  width : Nat
  height : Nat
  pixels : Array Color
  size_eq : pixels.size = width * height

namespace Frame

/-- The frame whose pixel in column `x` and row `y` is `color x y`. -/
def generate (width height : Nat) (color : Nat → Nat → Color) : Frame where
  width := width
  height := height
  pixels := Array.ofFn fun i : Fin (width * height) => color (i % width) (i / width)
  size_eq := Array.size_ofFn

/-- Whether a frame has no pixels. -/
def isEmpty (frame : Frame) : Bool := frame.pixels.isEmpty

/-- The pixel in column `x` and row `y`. -/
def pixel? (frame : Frame) (x y : Nat) : Option Color :=
  if x < frame.width then frame.pixels[y * frame.width + x]? else none

/-- A frame of one color. -/
def fill (width height : Nat) (color : Color) : Frame := generate width height fun _ _ => color

@[simp] theorem width_generate (w h : Nat) (c : Nat → Nat → Color) : (generate w h c).width = w :=
  rfl

@[simp] theorem height_generate (w h : Nat) (c : Nat → Nat → Color) :
    (generate w h c).height = h := rfl

/-- A generated frame holds the color that the function gives. -/
theorem pixel?_generate {w h x y : Nat} (c : Nat → Nat → Color) (hx : x < w) (hy : y < h) :
    (generate w h c).pixel? x y = some (c x y) := by
  have hw : 0 < w := by omega
  have hi : y * w + x < w * h := by
    calc y * w + x < y * w + w := by omega
      _ = (y + 1) * w := by rw [Nat.succ_mul]
      _ ≤ h * w := Nat.mul_le_mul_right w hy
      _ = w * h := Nat.mul_comm h w
  have hmod : (y * w + x) % w = x := by
    rw [Nat.mul_comm, Nat.mul_add_mod, Nat.mod_eq_of_lt hx]
  have hdiv : (y * w + x) / w = y := by
    rw [Nat.mul_comm, Nat.mul_add_div hw, Nat.div_eq_of_lt hx, Nat.add_zero]
  simp only [pixel?, generate, hx, if_true]
  rw [Array.getElem?_ofFn, dif_pos hi]
  simp only [hmod, hdiv]

end Frame

end RayTracer
