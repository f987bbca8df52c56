import RayTracer.Proofs.Number.WholeNumbers
import RayTracer.Shader.Row

/-!
# What the rows of an entity keep

A primitive shares its first row between floats and two things that are none: the number of its
material is rounded to single precision, and the zero in the place of the checker size stands for a
plane without a checkerboard.

* `Primitive.IsStorable` : the number has at most 24 significant digits or is the greatest one, and
  the cells of a checkerboard have a positive size.
* `Packed.rows_retraction` : **exactly these primitives come back from their rows**, every primitive
  that is read from rows is one of them, and the other entities always come back.
-/

namespace RayTracer

/-- The rows of the primitive give it back. -/
structure Primitive.IsStorable (p : Primitive Float32) : Prop where
  material : IsShort p.material.number.toNat ∨ p.material.number.toNat = 2 ^ 32 - 1
  checker : ∀ s, p.shape = .plane s → ∀ size, s.checker = some size → (0.0 : Float32) < size

namespace Shape

/-- What the rows keep of a shape: a checkerboard whose cells have no positive size is lost. -/
def stored : Shape Float32 → Shape Float32
  | plane s => plane { s with checker := s.checker.filter fun size => (0.0 : Float32) < size }
  | s => s

theorem stored_eq_iff (shape : Shape Float32) :
    shape.stored = shape ↔
      ∀ s, shape = plane s → ∀ size, s.checker = some size → (0.0 : Float32) < size := by
  rcases shape with s | ⟨point, normal, checker⟩ | s | s
  case plane =>
    cases checker with
    | none => simp [stored]
    | some size => simp [stored, Option.filter]
  all_goals simp [stored]

/-- No size is read as zero. -/
theorem checker_getD (checker : Option Float32) :
    (if (0.0 : Float32) < checker.getD 0.0 then some (checker.getD 0.0) else none) =
      checker.filter fun size => (0.0 : Float32) < size := by
  cases checker with
  | none =>
    have hzero : ¬(0.0 : Float32) < 0.0 := by decide
    exact if_neg hzero
  | some size => simp [Option.filter]

/-- The checkerboard of a plane that is read has cells of a positive size. -/
theorem checker_pos {code radius checker : Float32} {a b : Vec3 Float32} {shape : Shape Float32}
    (h : ofCode? code radius checker a b = some shape) :
    ∀ s, shape = plane s → ∀ size, s.checker = some size → (0.0 : Float32) < size := by
  unfold ofCode? at h
  split at h
  · obtain rfl := Option.some.inj h
    rintro _ ⟨⟩
  split at h
  · obtain rfl := Option.some.inj h
    rintro s ⟨⟩ size hsize
    split at hsize
    · rename_i hpos
      obtain rfl := Option.some.inj hsize
      exact hpos
    · cases hsize
  split at h
  · obtain rfl := Option.some.inj h
    rintro _ ⟨⟩
  split at h
  · obtain rfl := Option.some.inj h
    rintro _ ⟨⟩
  · cases h

end Shape

/-- **What comes back from the rows of a primitive.** -/
theorem Primitive.ofRows?_rows (p : Primitive Float32) :
    Packed.ofRows? (Packed.rows p) =
      some (⟨p.shape.stored, ⟨p.material.number.toFloat32.toUInt32⟩⟩ : Primitive Float32) := by
  have hread (radius checker : Float32) (a b : Vec3 Float32) :
      Shape.ofCode? 1.0 radius checker a b = some (.sphere ⟨a, radius⟩) ∧
      Shape.ofCode? 2.0 radius checker a b =
        some (.plane ⟨a, b, if (0.0 : Float32) < checker then some checker else none⟩) ∧
      Shape.ofCode? 3.0 radius checker a b = some (.cone ⟨a, b, radius⟩) ∧
      Shape.ofCode? 4.0 radius checker a b = some (.cylinder ⟨a, b, radius⟩) := by
    -- the codes are four different floats
    have hsame : ∀ code ∈ [(1.0 : Float32), 2.0, 3.0, 4.0], (code == code) = true := by decide
    have hother : [(1.0 : Float32), 2.0, 3.0, 4.0].Pairwise fun x y => (y == x) = false := by
      decide
    simp_all [Shape.ofCode?]
  obtain ⟨s | ⟨point, normal, checker⟩ | s | s, material⟩ := p
  case plane =>
    simp only [Packed.ofRows?, Packed.rows, Shape.code, Row.vector_ofVector, hread,
      Shape.checker_getD]
    rfl
  all_goals
    simp only [Packed.ofRows?, Packed.rows, Shape.code, Row.vector_ofVector, hread]
    rfl

theorem Primitive.ofRows?_rows_eq_iff (p : Primitive Float32) :
    Packed.ofRows? (Packed.rows p) = some p ↔ p.IsStorable := by
  have hparts : (⟨p.shape.stored, ⟨p.material.number.toFloat32.toUInt32⟩⟩ : Primitive Float32) = p ↔
      p.shape.stored = p.shape ∧ p.material.number.toFloat32.toUInt32 = p.material.number := by
    obtain ⟨shape, ⟨number⟩⟩ := p
    simp only [Primitive.mk.injEq, MaterialId.mk.injEq]
  rw [p.ofRows?_rows, Option.some_inj, hparts, Shape.stored_eq_iff,
    UInt32.toUInt32_toFloat32_eq_iff]
  exact ⟨fun ⟨hchecker, hmaterial⟩ => ⟨hmaterial, hchecker⟩, fun h => ⟨h.checker, h.material⟩⟩

/-- **Whatever rows a primitive is read from**, its own rows give it back. -/
theorem Primitive.isStorable_of_ofRows? {rows : List Row} {p : Primitive Float32}
    (h : Packed.ofRows? rows = some p) : p.IsStorable := by
  simp only [Packed.ofRows?] at h
  split at h
  · rename_i header a b
    obtain ⟨shape, hshape, rfl⟩ := Option.map_eq_some_iff.1 h
    exact ⟨header.y.isShort_toUInt32, Shape.checker_pos hshape⟩
  · cases h

namespace Packed

/-- **Reading the rows of an entity gives it back**: a primitive if and only if it is storable, as
is every primitive that is read from any rows; materials, lights and the ambient light always. -/
theorem rows_retraction :
    (∀ p : Primitive Float32, ofRows? (rows p) = some p ↔ p.IsStorable) ∧
      (∀ stored, ∀ p : Primitive Float32, ofRows? stored = some p →
        p.IsStorable ∧ ofRows? (rows p) = some p) ∧
      (∀ m : Material, ofRows? (rows m) = some m) ∧
      (∀ l : Light, ofRows? (rows l) = some l) ∧
      ∀ l : AmbientLight, AmbientLight.ofRows? [l.row] = some l := by
  refine ⟨Primitive.ofRows?_rows_eq_iff, fun stored p h => ?_, fun _ => rfl, fun _ => rfl,
    fun _ => rfl⟩
  have hstorable := Primitive.isStorable_of_ofRows? h
  exact ⟨hstorable, (Primitive.ofRows?_rows_eq_iff p).2 hstorable⟩

/-- Rows of no primitive are read as a plane without a checkerboard, which comes back. -/
theorem rows_retraction_plane :
    let p : Primitive Float32 := ⟨.plane ⟨.zero, .zero, none⟩, ⟨4294967295⟩⟩
    ofRows? [⟨2.0, 1e10, 5.0, -1.0⟩, .zero, ⟨0.0, 0.0, 0.0, 7.0⟩] = some p ∧
      p.IsStorable ∧ ofRows? (rows p) = some p := by
  have h : ofRows? [⟨2.0, 1e10, 5.0, -1.0⟩, .zero, ⟨0.0, 0.0, 0.0, 7.0⟩] =
      some (⟨.plane ⟨.zero, .zero, none⟩, ⟨4294967295⟩⟩ : Primitive Float32) := by decide +kernel
  exact ⟨h, rows_retraction.2.1 _ _ h⟩

/-- The number with 25 digits is rounded to its neighbor. -/
example : ofRows? (rows (⟨.sphere ⟨.zero, 1.0⟩, ⟨16777217⟩⟩ : Primitive Float32)) =
    some (⟨.sphere ⟨.zero, 1.0⟩, ⟨16777216⟩⟩ : Primitive Float32) := by
  decide +kernel

end Packed

end RayTracer
