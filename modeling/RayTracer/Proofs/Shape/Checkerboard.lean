import RayTracer.Proofs.Number.Checked
import RayTracer.Proofs.Number.Floor
import RayTracer.Shape.Plane

/-!
# The parity of checkerboard cells

The cells of a checkerboard are numbered by the whole parts of two quotients, and a cell is dark if
its two numbers have an even sum.  Numbers and sum are computed in signed words of 64 bits, which
clamp the numbers and wrap the sum around.

* `Plane.toInt_cell` : the number of a cell, clamped.
* `Plane.emod_two_cell` : **clamping keeps the parity of every number below the range and of none
  above it**: numbers that large are even, the least word is even too and the greatest one is odd.
* `Plane.checkerboard_iff` : where the colors of a board without ends are seen, and where the sum
  does not wrap around either.
* `Plane.farPoint_not_dark` : a dark cell that is not seen.
-/

namespace RayTracer

namespace Plane

/-- Number of the cell on a board without ends. -/
def boardCell (x size : Float32) : ℤ := (x / size).exact.floor

/-- The color on a board without ends. -/
def boardColor (point : Vec3 Float32) (size : Float32) (base : Color) : Color :=
  if Even (boardCell point.x size + boardCell point.z size) then checkerDark else base

/-- The sum of column and row, if it does not wrap around. -/
def cellSum? (point : Vec3 Float32) (size : Float32) : Option Int64 :=
  (cell point.x size).add? (cell point.z size)

variable {x size : Float32} {point : Vec3 Float32}

theorem toInt_cell (h : (x / size).isFinite = true) :
    (cell x size).toInt = max (-2 ^ 63) (min (2 ^ 63 - 1) (boardCell x size)) := by
  obtain ⟨negative, m, e, hexact, -⟩ := Float32.exists_exact_eq h
  have hmin : Int64.minValue.toInt = -2 ^ 63 := rfl
  have hmax : Int64.maxValue.toInt = 2 ^ 63 - 1 := rfl
  rw [cell, boardCell, hexact, ExactValue.floorWithin_finite, hmin, hmax]
  exact Int64.toInt_ofInt_of_le (by omega) (by omega)

/-- **The parity of a clamped number.** -/
theorem emod_two_cell (h : (x / size).isFinite = true) :
    (cell x size).toInt % 2 =
      if 2 ^ 63 ≤ boardCell x size then boardCell x size % 2 + 1 else boardCell x size % 2 := by
  have hclamp := toInt_cell h
  obtain ⟨negative, m, e, hexact, hdigits⟩ := Float32.exists_exact_eq h
  have hlarge : 2 ^ 24 < |boardCell x size| → boardCell x size % 2 = 0 := by
    rw [boardCell, hexact, ← Int.even_iff]
    exact ExactValue.even_floor hdigits
  rw [lt_abs] at hlarge
  split <;> omega

theorem onDarkCell_iff (hx : (point.x / size).isFinite = true)
    (hz : (point.z / size).isFinite = true) :
    onDarkCell point size = true ↔
      (Even (boardCell point.x size + boardCell point.z size) ↔
        (2 ^ 63 ≤ boardCell point.x size ↔ 2 ^ 63 ≤ boardCell point.z size)) := by
  have hcolumn := emod_two_cell hx
  have hrow := emod_two_cell hz
  rw [onDarkCell, beq_iff_eq, Int64.toInt_add_emod_two, Int.even_iff]
  split at hcolumn <;> split at hrow <;> omega

theorem checkerDark_ne : checkerDark ≠ .splat 0.2 := by decide

variable {p : Plane Float32}

/-- **Where a checkerboard looks like one without ends.**  The colors are those of a board without
ends exactly if the numbers of column and row are both below `2 ^ 63` or both not.  The sum does not
wrap around either exactly if both are below, so is their sum, and numbers below `-2 ^ 63` do not
make it too small once they are clamped. -/
theorem checkerboard_iff (checker : p.checker = some size) (hx : (point.x / size).isFinite = true)
    (hz : (point.z / size).isFinite = true) :
    ((∀ base, p.surfaceColor point base = boardColor point size base) ↔
      (2 ^ 63 ≤ boardCell point.x size ↔ 2 ^ 63 ≤ boardCell point.z size)) ∧
    ((cellSum? point size).isSome = true ∧
        (∀ base, p.surfaceColor point base = boardColor point size base) ↔
      boardCell point.x size < 2 ^ 63 ∧ boardCell point.z size < 2 ^ 63 ∧
        boardCell point.x size + boardCell point.z size < 2 ^ 63 ∧
        -2 ^ 63 ≤ max (boardCell point.x size) (-2 ^ 63) +
          max (boardCell point.z size) (-2 ^ 63)) := by
  have hcolors : (∀ base, p.surfaceColor point base = boardColor point size base) ↔
      (2 ^ 63 ≤ boardCell point.x size ↔ 2 ^ 63 ≤ boardCell point.z size) := by
    have hdark := onDarkCell_iff hx hz
    simp only [surfaceColor, checker, boardColor]
    constructor
    · intro h
      -- a base color that tells the two kinds of cell apart
      have hbase := h (.splat 0.2)
      by_contra hends
      have hother := hdark.trans (iff_false_right hends)
      by_cases heven : Even (boardCell point.x size + boardCell point.z size)
      · rw [if_pos heven, if_neg (fun h => hother.1 h heven)] at hbase
        exact checkerDark_ne hbase.symm
      · rw [if_neg heven, if_pos (hother.2 heven)] at hbase
        exact checkerDark_ne hbase
    · intro hends base
      exact if_congr (hdark.trans (iff_true_right hends)) rfl rfl
  refine ⟨hcolors, ?_⟩
  rw [hcolors, cellSum?, Int64.isSome_add?_iff, toInt_cell hx, toInt_cell hz]
  omega

/-- The plane through the origin with a checkerboard of unit cells. -/
def unitBoard : Plane Float32 := ⟨⟨0, 0, 0⟩, ⟨0, 1, 0⟩, some 1⟩

theorem boardCell_of_exact {s : Bool} {m : ℕ} {e n : ℤ} (h : (x / size).exact = .finite s m e)
    (hn : ⌊(ExactValue.finite s m e).value⌋ = n) : boardCell x size = n := by
  rw [boardCell, h, ExactValue.floor, hn]

/-- A point three columns to the left of the origin, in the row next to it. -/
def nearPoint : Vec3 Float32 := ⟨-2.5, 0, 1.5⟩

theorem checkerboard_nearPoint :
    (nearPoint.x / 1).isFinite = true ∧ (nearPoint.z / 1).isFinite = true ∧
      boardCell nearPoint.x 1 = -3 ∧ boardCell nearPoint.z 1 = 1 ∧
      (cellSum? nearPoint 1).isSome = true ∧
      ∀ base, unitBoard.surfaceColor nearPoint base = boardColor nearPoint 1 base := by
  have hx : (nearPoint.x / 1).isFinite = true := by decide +kernel
  have hz : (nearPoint.z / 1).isFinite = true := by decide +kernel
  have hcolumn : boardCell nearPoint.x 1 = -3 :=
    boardCell_of_exact (s := true) (m := 10485760) (e := -22) (by decide +kernel)
      (by norm_num [ExactValue.value])
  have hrow : boardCell nearPoint.z 1 = 1 :=
    boardCell_of_exact (s := false) (m := 12582912) (e := -23) (by decide +kernel)
      (by norm_num [ExactValue.value])
  obtain ⟨hfits, hcolors⟩ := (checkerboard_iff (p := unitBoard) rfl hx hz).2.2
    (by rw [hcolumn, hrow]; omega)
  exact ⟨hx, hz, hcolumn, hrow, hfits, hcolors⟩

/-- A point in column `2 ^ 63`. -/
def farPoint : Vec3 Float32 := ⟨9223372036854775808, 0, 0⟩

/-- **A dark cell that is not seen**: the number of its column is clamped to an odd one.  Half as
far out in both directions, the sum wraps around. -/
theorem farPoint_not_dark :
    unitBoard.checker = some 1 ∧ (farPoint.x / 1).isFinite = true ∧
      (farPoint.z / 1).isFinite = true ∧
      Even (boardCell farPoint.x 1 + boardCell farPoint.z 1) ∧
      (∀ base, unitBoard.surfaceColor farPoint base = base) ∧
      cellSum? ⟨farPoint.x / 2, 0, farPoint.x / 2⟩ 1 = none := by
  have hcolumn : boardCell farPoint.x 1 = 2 ^ 63 :=
    boardCell_of_exact (s := false) (m := 8388608) (e := 40) (by decide +kernel)
      (by norm_num [ExactValue.value])
  have hrow : boardCell farPoint.z 1 = 0 :=
    boardCell_of_exact (s := false) (m := 0) (e := -149) (by decide +kernel)
      (by norm_num [ExactValue.value])
  have hlight : onDarkCell farPoint 1 = false := by decide +kernel
  refine ⟨rfl, by decide +kernel, by decide +kernel, ?_, fun base => ?_, by decide +kernel⟩
  · rw [hcolumn, hrow]
    decide
  · simp only [surfaceColor, unitBoard, hlight, Bool.false_eq_true, if_false]

end Plane

end RayTracer
