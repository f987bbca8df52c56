import RayTracer.Proofs.Number.Order
import RayTracer.Proofs.Shape.Restriction

/-!
# What a hit records

A hit is a point of the ray: its parameter lies in the interval, its point is where the ray is at
that parameter, and on a cone or a cylinder that point projects onto the axis between its ends
(`Shape.Covers`).  With the law of the interval this says what every query with a lowered upper end
gives, once the answer for the whole interval is known.

* `exists_root_of_contact` : a contact at a root was made for a parameter that passed both tests.
* `Shape.isOnRay_of_hit` : the contacts of every shape are points of the ray.
* `Primitive.hit_restricts_and_records` : **the law of the interval and what a hit records**, for
  machine numbers, whatever their values.
-/

namespace RayTracer

variable {α : Type} [Scalar α]

/-- The point projects onto the axis neither behind the apex nor past the base. -/
def Cone.Covers (c : Cone α) (p : Vec3 α) : Prop :=
  (0.0 : α) ≤ (p - c.apex).dot c.axis.normalize ∧
    (p - c.apex).dot c.axis.normalize ≤ c.axis.length

/-- The point projects onto the axis between the two caps. -/
def Cylinder.Covers (c : Cylinder α) (p : Vec3 α) : Prop :=
  (0.0 : α) ≤ (p - c.start).dot (c.axis / c.axis.length) ∧
    (p - c.start).dot (c.axis / c.axis.length) ≤ c.axis.length

instance (c : Cone α) (p : Vec3 α) : Decidable (c.Covers p) := inferInstanceAs (Decidable (_ ∧ _))

instance (c : Cylinder α) (p : Vec3 α) : Decidable (c.Covers p) :=
  inferInstanceAs (Decidable (_ ∧ _))

/-- The point does not leave the axis of the shape at either end, if the shape has an axis. -/
def Shape.Covers : Shape α → Vec3 α → Prop
  | .cone c, p => c.Covers p
  | .cylinder c, p => c.Covers p
  | .sphere _, _ | .plane _, _ => True

/-- The contact is the point of the ray at a parameter of the interval, and the shape covers it. -/
structure IsOnRay (s : Shape α) (r : Ray α) (range : Interval α) (k : Contact α) : Prop where
  contains : range.Contains k.t
  point : k.point = r.at k.t
  covered : s.Covers k.point

/-- A contact at a root was made for a parameter in the interval that was accepted. -/
theorem exists_root_of_contact {roots? : Option (α × α)} {range : Interval α} {accept : α → Bool}
    {contact : α → Contact α} {k : Contact α}
    (h : (do
      let roots ← roots?
      let t ← nearestRoot roots range accept
      return contact t) = some k) :
    ∃ t, k = contact t ∧ range.Contains t ∧ accept t = true := by
  obtain ⟨roots, -, h⟩ := Option.bind_eq_some_iff.1 h
  obtain ⟨t, ht, h⟩ := Option.bind_eq_some_iff.1 h
  obtain rfl := Option.some.inj h
  exact ⟨t, rfl, (of_nearestRoot_eq_some ht).2⟩

variable {r : Ray α} {range : Interval α} {k : Contact α}

theorem Sphere.isOnRay_of_hit {s : Sphere α} (h : s.hit r range = some k) :
    IsOnRay (.sphere s) r range k := by
  obtain ⟨t, rfl, ht, -⟩ := exists_root_of_contact h
  exact ⟨ht, rfl, trivial⟩

theorem Plane.isOnRay_of_hit {p : Plane α} (h : p.hit r range = some k) :
    IsOnRay (.plane p) r range k := by
  unfold hit at h
  dsimp only at h
  split at h
  · cases h
  · split at h
    · obtain rfl := Option.some.inj h
      exact ⟨‹_›, rfl, trivial⟩
    · cases h

theorem Cone.isOnRay_of_hit {c : Cone α} (h : c.hit r range = some k) :
    IsOnRay (.cone c) r range k := by
  obtain ⟨t, rfl, ht, haccept⟩ := exists_root_of_contact h
  have hcovers : c.Covers (r.at t) := of_decide_eq_true haccept
  exact ⟨ht, rfl, hcovers⟩

theorem Cylinder.isOnRay_of_hit {c : Cylinder α} (h : c.hit r range = some k) :
    IsOnRay (.cylinder c) r range k := by
  unfold hit at h
  dsimp only at h
  split at h
  · cases h
  · split at h
    · cases h
    · obtain ⟨t, rfl, ht, haccept⟩ := exists_root_of_contact h
      have hcovers : c.Covers (r.at t) := of_decide_eq_true haccept
      exact ⟨ht, rfl, hcovers⟩

/-- **The contacts of every shape are points of the ray.** -/
theorem Shape.isOnRay_of_hit {s : Shape α} (h : s.hit r range = some k) : IsOnRay s r range k := by
  cases s with
  | sphere s => exact Sphere.isOnRay_of_hit h
  | plane p => exact Plane.isOnRay_of_hit h
  | cone c => exact Cone.isOnRay_of_hit h
  | cylinder c => exact Cylinder.isOnRay_of_hit h

end RayTracer

/-- A number that compares with another one is a number. -/
theorem Float32.isNaN_eq_false_of_le {a b : Float32} (h : a ≤ b) : a.isNaN = false := by
  obtain ⟨i, hi, -⟩ := le_iff_rank.1 h
  change position a.toModel.unpack = some i at hi
  change a.toModel.unpack.isNaN = false
  cases hu : a.toModel.unpack with
  | notANumber =>
    rw [hu] at hi
    cases hi
  | infinity | zero | finite => rfl

namespace RayTracer

namespace Primitive

/-- **The law of the interval, and what a hit records.**  Lowering the upper end of the interval to
`m` keeps the hit where its parameter is at most `m`, and leaves none otherwise.  A hit has a
parameter in the interval, which is a number, the point of the ray there, the material of the
primitive, and on a cone or a cylinder a point that projects onto the axis. -/
theorem hit_restricts_and_records (p : Primitive Float32) (r : Ray Float32)
    (range : Interval Float32) :
    (∀ m, m ≤ range.max →
      p.hit r (range.withMax m) = (p.hit r range).filter fun hit => hit.t ≤ m) ∧
    ∀ hit, p.hit r range = some hit →
      range.Contains hit.t ∧ hit.t.isNaN = false ∧ hit.point = r.at hit.t ∧
        hit.material = p.material ∧ p.shape.Covers hit.point := by
  constructor
  · intro m hm
    convert p.hit_withMax r hm
  · intro hit h
    obtain ⟨k, hk, rfl⟩ := Option.map_eq_some_iff.1 h
    have hray := Shape.isOnRay_of_hit hk
    have hnumber : k.t.isNaN = false := Float32.isNaN_eq_false_of_le hray.contains.2
    exact ⟨hray.contains, hnumber, hray.point, rfl, hray.covered⟩

/-- An upright cone of height two, made of the material with number seven. -/
def uprightCone : Primitive Float32 := ⟨.cone ⟨⟨0.0, 2.0, 0.0⟩, ⟨0.0, 0.0, 0.0⟩, 1.0⟩, ⟨7⟩⟩

/-- A horizontal ray meets the cone at `4.5` and again at `5.5`.  Below `5.0` it is the first of
them that is left, and below `4.0` none. -/
theorem hit_uprightCone :
    let r : Ray Float32 := ⟨⟨0.0, 1.0, 5.0⟩, ⟨0.0, 0.0, -1.0⟩⟩
    let range : Interval Float32 := ⟨0.001, 1e30⟩
    5.0 ≤ range.max ∧ 4.0 ≤ range.max ∧ uprightCone.hit r (range.withMax 4.0) = none ∧
      ∃ hit, uprightCone.hit r range = some hit ∧
        uprightCone.hit r (range.withMax 5.0) = some hit ∧ hit.point = r.at hit.t ∧
        hit.material = ⟨7⟩ ∧ uprightCone.shape.Covers hit.point := by
  intro r range
  have hlower : 5.0 ≤ range.max := by decide +kernel
  have hlowest : 4.0 ≤ range.max := by decide +kernel
  have hlaw := hit_restricts_and_records uprightCone r range
  have hsome : ((uprightCone.hit r range).any fun hit =>
      decide (hit.t ≤ 5.0) && !decide (hit.t ≤ 4.0)) = true := by decide +kernel
  obtain ⟨hit, hhit, hbetween⟩ := (Option.any_eq_true _ _).1 hsome
  simp only [Bool.and_eq_true, decide_eq_true_eq, Bool.not_eq_true', decide_eq_false_iff_not]
    at hbetween
  obtain ⟨-, -, hpoint, hmaterial, hcovered⟩ := hlaw.2 hit hhit
  refine ⟨hlower, hlowest, ?_, hit, hhit, ?_, hpoint, hmaterial, hcovered⟩
  · rw [hlaw.1 4.0 hlowest, hhit, Option.filter_some_neg (by simpa using hbetween.2)]
  · rw [hlaw.1 5.0 hlower, hhit, Option.filter_some_pos (by simpa using hbetween.1)]

end Primitive

end RayTracer
