import RayTracer.Number.Scalar

/-!
# Vectors in three dimensions

`Vec3 α` serves as a position, a direction and a linear RGB color.  Products and quotients are
componentwise or by a scalar, and every formula is evaluated in the order in which it is written,
because on rounded numbers the order shows.

`normalize` scales by the reciprocal of the length where that is finite and positive, and sends
every other vector to zero.  `reflect v n` mirrors `v` at the plane with unit normal `n`.
-/

namespace RayTracer

/-- Three components. -/
structure Vec3 (α : Type) where
  x : α
  y : α
  z : α
  deriving DecidableEq, Repr

/-- A linear RGB color in single precision. -/
abbrev Color := Vec3 Float32

namespace Vec3

variable {α : Type} [Scalar α]

instance : Add (Vec3 α) := ⟨fun v w => ⟨v.x + w.x, v.y + w.y, v.z + w.z⟩⟩

instance : Sub (Vec3 α) := ⟨fun v w => ⟨v.x - w.x, v.y - w.y, v.z - w.z⟩⟩

instance : Mul (Vec3 α) := ⟨fun v w => ⟨v.x * w.x, v.y * w.y, v.z * w.z⟩⟩

instance : Neg (Vec3 α) := ⟨fun v => ⟨-v.x, -v.y, -v.z⟩⟩

instance : HMul (Vec3 α) α (Vec3 α) := ⟨fun v s => ⟨v.x * s, v.y * s, v.z * s⟩⟩

instance : HDiv (Vec3 α) α (Vec3 α) := ⟨fun v s => ⟨v.x / s, v.y / s, v.z / s⟩⟩

/-- The vector with all three components equal to `s`. -/
def splat (s : α) : Vec3 α := ⟨s, s, s⟩

/-- The zero vector. -/
def zero : Vec3 α := splat 0.0

/-- The inner product, summed from the first component on. -/
def dot (v w : Vec3 α) : α := v.x * w.x + v.y * w.y + v.z * w.z

/-- The vector product. -/
def cross (v w : Vec3 α) : Vec3 α :=
  ⟨v.y * w.z - v.z * w.y, v.z * w.x - v.x * w.z, v.x * w.y - v.y * w.x⟩

/-- The Euclidean length. -/
def length (v : Vec3 α) : α := Scalar.sqrt (v.dot v)

/-- `v` scaled to unit length, or zero if the length has no finite positive reciprocal. -/
def normalize (v : Vec3 α) : Vec3 α :=
  let reciprocal : α := 1.0 / v.length
  if Scalar.isFinite reciprocal ∧ (0.0 : α) < reciprocal then v * reciprocal else zero

/-- The mirror image of `v` at the plane with unit normal `n`: `v - 2 (v·n) n`. -/
def reflect (v n : Vec3 α) : Vec3 α := v - n * ((2.0 : α) * v.dot n)

/-- Componentwise equality as far as comparisons can tell. -/
def Same (v w : Vec3 α) : Prop :=
  Scalar.Same v.x w.x ∧ Scalar.Same v.y w.y ∧ Scalar.Same v.z w.z

instance (v w : Vec3 α) : Decidable (Same v w) :=
  inferInstanceAs (Decidable (_ ∧ _ ∧ _))

/-! ### Components of sums and products -/

@[simp] theorem add_def (v w : Vec3 α) : v + w = ⟨v.x + w.x, v.y + w.y, v.z + w.z⟩ := rfl

@[simp] theorem sub_def (v w : Vec3 α) : v - w = ⟨v.x - w.x, v.y - w.y, v.z - w.z⟩ := rfl

@[simp] theorem mul_def (v w : Vec3 α) : v * w = ⟨v.x * w.x, v.y * w.y, v.z * w.z⟩ := rfl

@[simp] theorem neg_def (v : Vec3 α) : -v = ⟨-v.x, -v.y, -v.z⟩ := rfl

@[simp] theorem smul_def (v : Vec3 α) (s : α) : v * s = ⟨v.x * s, v.y * s, v.z * s⟩ := rfl

@[simp] theorem sdiv_def (v : Vec3 α) (s : α) : v / s = ⟨v.x / s, v.y / s, v.z / s⟩ := rfl

end Vec3

end RayTracer
