import RayTracer.Proofs.Scene.NearestHit

/-!
# What casts a shadow

`Scene.occluded` asks for the nearest hit on the segment to a light, though any hit will do.  The
answer is that of a search for any hit (`Primitive.Blocks`), so it depends on neither the order of
the primitives nor on how the scan lowers its bound.

* `Primitive.Blocks.mono` : what blocks a segment blocks every longer one.
* `Scene.occluded_eq_true_iff` : a point is in the shadow exactly if a primitive blocks the segment.
* `Scene.occluded_iff_blocked` : **so the order of the primitives does not matter, and neither more
  primitives nor a longer segment bring light into a shadow.**
-/

namespace RayTracer

/-- The primitive on its own is hit on the segment that starts at `point` and has the given
direction and length. -/
def Primitive.Blocks (p : Primitive Float32) (point direction : Vec3 Float32)
    (distance : Float32) : Prop :=
  (p.hit ⟨point, direction⟩ ⟨Scene.shadowEpsilon, distance⟩).isSome

instance (p : Primitive Float32) (point direction : Vec3 Float32) (distance : Float32) :
    Decidable (p.Blocks point direction distance) := inferInstanceAs (Decidable (_ = true))

variable {point direction : Vec3 Float32} {distance farther : Float32}

/-- What blocks a segment blocks every longer one. -/
theorem Primitive.Blocks.mono {p : Primitive Float32} (h : p.Blocks point direction distance)
    (longer : distance ≤ farther) : p.Blocks point direction farther := by
  obtain ⟨hit, hhit⟩ := Option.isSome_iff_exists.1 h
  -- the hit on the shorter segment is the one on the longer segment, below a bound
  have within : distance ≤ (Interval.mk Scene.shadowEpsilon farther).max := longer
  have hlowered := p.hit_withMax ⟨point, direction⟩ within
  have hshort : p.hit ⟨point, direction⟩
      (Interval.withMax ⟨Scene.shadowEpsilon, farther⟩ distance) = some hit := hhit
  rw [hshort] at hlowered
  obtain ⟨hfull, -⟩ := Option.filter_eq_some_iff.1 hlowered.symm
  exact Option.isSome_iff_exists.2 ⟨hit, hfull⟩

namespace Scene

/-- **A point is in the shadow exactly if a primitive blocks the segment.** -/
theorem occluded_eq_true_iff (scene : Scene) :
    scene.occluded point direction distance = true ↔
      ∃ p ∈ scene.primitives, p.Blocks point direction distance := by
  rw [occluded, ← Option.ne_none_iff_isSome, Ne, intersect_eq_none_iff]
  simp only [Primitive.Blocks, ← Option.ne_none_iff_isSome]
  push Not
  rfl

/-- **A shadow is the existence of a blocker.**  It stays what it is in any order of the primitives,
more primitives leave what is in the shadow there, and so does a light farther away. -/
theorem occluded_iff_blocked (scene : Scene) (point direction : Vec3 Float32)
    (distance : Float32) :
    (scene.occluded point direction distance = true ↔
      ∃ p ∈ scene.primitives, (p.hit ⟨point, direction⟩ ⟨0.001, distance⟩).isSome) ∧
    (∀ other : Scene, other.primitives.Perm scene.primitives →
      other.occluded point direction distance = scene.occluded point direction distance) ∧
    (∀ other : Scene, scene.primitives ⊆ other.primitives →
      scene.occluded point direction distance = true →
        other.occluded point direction distance = true) ∧
    ∀ farther : Float32, distance ≤ farther → scene.occluded point direction distance = true →
      scene.occluded point direction farther = true := by
  refine ⟨occluded_eq_true_iff scene, ?_, ?_, ?_⟩
  · intro other perm
    rw [Bool.eq_iff_iff, occluded_eq_true_iff, occluded_eq_true_iff]
    simp only [perm.mem_iff]
  · intro other more h
    obtain ⟨p, hp, hblocks⟩ := (occluded_eq_true_iff scene).1 h
    exact (occluded_eq_true_iff other).2 ⟨p, more hp, hblocks⟩
  · intro farther longer h
    obtain ⟨p, hp, hblocks⟩ := (occluded_eq_true_iff scene).1 h
    exact (occluded_eq_true_iff scene).2 ⟨p, hp, hblocks.mono longer⟩

/-- In the shadow of two spheres of `spheresInRow`: in the other order, with the third one, and from
farther away. -/
theorem occluded_behind_spheres :
    (spheresInRow.take 2).reverse.Perm (spheresInRow.take 2) ∧
      spheresInRow.take 2 ⊆ spheresInRow ∧ (20.0 : Float32) ≤ farthest ∧
      (ofPrimitives (spheresInRow.take 2)).occluded axisRay.origin axisRay.direction 20.0 = true ∧
      (ofPrimitives (spheresInRow.take 2).reverse).occluded axisRay.origin axisRay.direction 20.0 =
        true ∧
      (ofPrimitives spheresInRow).occluded axisRay.origin axisRay.direction 20.0 = true ∧
      (ofPrimitives (spheresInRow.take 2)).occluded axisRay.origin axisRay.direction farthest =
        true := by
  have perm : (spheresInRow.take 2).reverse.Perm (spheresInRow.take 2) := List.reverse_perm _
  have more : spheresInRow.take 2 ⊆ spheresInRow := List.take_subset 2 spheresInRow
  have longer : (20.0 : Float32) ≤ farthest := by decide +kernel
  have shadow : (ofPrimitives (spheresInRow.take 2)).occluded axisRay.origin axisRay.direction
      20.0 = true := by decide +kernel
  have blocked := occluded_iff_blocked (ofPrimitives (spheresInRow.take 2)) axisRay.origin
    axisRay.direction 20.0
  refine ⟨perm, more, longer, shadow, ?_, ?_, ?_⟩
  · exact (blocked.2.1 (ofPrimitives (spheresInRow.take 2).reverse) perm).trans shadow
  · exact blocked.2.2.1 (ofPrimitives spheresInRow) more shadow
  · exact blocked.2.2.2 farthest longer shadow

/-- A light in front of the spheres is not in their shadow. -/
example : (ofPrimitives spheresInRow).occluded axisRay.origin axisRay.direction 5.0 = false := by
  decide +kernel

end Scene

end RayTracer
