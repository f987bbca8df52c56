import RayTracer.Proofs.Lists
import RayTracer.Proofs.Shape.Restriction
import RayTracer.Scene

/-!
# The scan finds the nearest hit

`Scene.intersect` tests each primitive only up to the nearest hit found so far.  What it finds is
what a search among the hits of all primitives in the full interval finds (`IsNearest`): no hit is
nearer, and none on a later primitive is as near.

* `Scene.scanned_advance` : one primitive; its hit below the bound is its hit in the full interval,
  or there is none because that hit is farther away.
* `Scene.scanned_nearestFrom` : all primitives, by induction on those that are left.
* `Scene.intersect_eq_nearest` : **the scan finds the nearest hit, the last one of equally near
  ones, and nothing exactly if no primitive is hit**; if no two hits are equally near, the order of
  the primitives does not matter.
-/

namespace RayTracer

open Scalar.LawfulOrder

variable {r : Ray Float32} {range : Interval Float32}

/-- What was found is a hit in the full interval, none of the hits is nearer, and the hits on
primitives after it are farther away. -/
structure IsNearest (r : Ray Float32) (range : Interval Float32)
    (primitives : List (Primitive Float32)) (found : Found) : Prop where
  primitive : primitives[found.index]? = some found.primitive
  hit : found.primitive.hit r range = some found.hit
  le : ∀ (j : Nat) (p : Primitive Float32) (h : Hit Float32), primitives[j]? = some p →
    p.hit r range = some h → found.hit.t ≤ h.t
  lt : ∀ (j : Nat) (p : Primitive Float32) (h : Hit Float32), primitives[j]? = some p →
    p.hit r range = some h → found.index < j → found.hit.t < h.t

/-- No two primitives are hit at the same parameter. -/
def DistancesDiffer (r : Ray Float32) (range : Interval Float32)
    (primitives : List (Primitive Float32)) : Prop :=
  (primitives.filterMap (·.hit r range)).Pairwise fun h h' => ¬Scalar.Same h.t h'.t

instance (r : Ray Float32) (range : Interval Float32) (primitives : List (Primitive Float32)) :
    Decidable (DistancesDiffer r range primitives) :=
  inferInstanceAs (Decidable (List.Pairwise _ _))

theorem DistancesDiffer.eq_of_same {primitives : List (Primitive Float32)}
    (differ : DistancesDiffer r range primitives) {i j : Nat} {p q : Primitive Float32}
    {h h' : Hit Float32} (hi : primitives[i]? = some p) (hj : primitives[j]? = some q)
    (hp : p.hit r range = some h) (hq : q.hit r range = some h') (same : Scalar.Same h.t h'.t) :
    i = j := by
  have hpairs := List.pairwise_iff_getElem.1 (List.pairwise_filterMap.1 differ)
  obtain ⟨hi', rfl⟩ := List.getElem?_eq_some_iff.1 hi
  obtain ⟨hj', rfl⟩ := List.getElem?_eq_some_iff.1 hj
  rcases Nat.lt_trichotomy i j with hij | hij | hij
  · exact absurd same (hpairs i j hi' hj' hij h hp h' hq)
  · exact hij
  · exact absurd same.symm (hpairs j i hj' hi' hij h' hq h hp)

namespace IsNearest

variable {primitives : List (Primitive Float32)} {found f g : Found}

theorem contains (h : IsNearest r range primitives found) : range.Contains found.hit.t :=
  Primitive.contains_of_hit h.hit

theorem same_primitive (hf : primitives[f.index]? = some f.primitive)
    (hg : primitives[g.index]? = some g.primitive) (h : f.index = g.index) :
    f.primitive = g.primitive := by
  rw [h, hg] at hf
  exact (Option.some.inj hf).symm

/-- There is only one nearest hit. -/
theorem unique (hf : IsNearest r range primitives f) (hg : IsNearest r range primitives g) :
    f = g := by
  have hfg : f.hit.t ≤ g.hit.t := hf.le _ _ _ hg.primitive hg.hit
  have hgf : g.hit.t ≤ f.hit.t := hg.le _ _ _ hf.primitive hf.hit
  have hindex : f.index = g.index := by
    rcases Nat.lt_trichotomy f.index g.index with h | h | h
    · exact absurd hgf (lt_iff.1 (hf.lt _ _ _ hg.primitive hg.hit h)).2
    · exact h
    · exact absurd hfg (lt_iff.1 (hg.lt _ _ _ hf.primitive hf.hit h)).2
  have hprimitive : f.primitive = g.primitive :=
    same_primitive hf.primitive hg.primitive hindex
  have hhit : f.hit = g.hit := by
    have h := hf.hit
    rw [hprimitive, hg.hit] at h
    exact (Option.some.inj h).symm
  cases f
  cases g
  simp_all

end IsNearest

namespace Scene

/-! ### One primitive -/

/-- The upper end of the interval in which the next primitive is tested. -/
def bound (range : Interval Float32) : Option Found → Float32
  | some found => found.hit.t
  | none => range.max

/-- What has been found after one more primitive, number `index` in the scene. -/
def advance (r : Ray Float32) (range : Interval Float32) (index : Nat) (best : Option Found)
    (p : Primitive Float32) : Option Found :=
  ((p.hit r (range.withMax (bound range best))).map (Found.mk index p)).or best

theorem nearestFrom_cons (index : Nat) (best : Option Found) (p : Primitive Float32)
    (rest : List (Primitive Float32)) :
    nearestFrom r range index best (p :: rest) =
      nearestFrom r range (index + 1) (advance r range index best p) rest := by
  cases best with
  | none =>
    simp only [nearestFrom, advance, bound]
    cases p.hit r (range.withMax range.max) <;> rfl
  | some found =>
    simp only [nearestFrom, advance, bound]
    cases p.hit r (range.withMax found.hit.t) <;> rfl

/-- What has been found among the primitives seen so far is right. -/
def Scanned (r : Ray Float32) (range : Interval Float32) (seen : List (Primitive Float32)) :
    Option Found → Prop
  | none => ∀ p ∈ seen, p.hit r range = none
  | some found => IsNearest r range seen found

variable {seen : List (Primitive Float32)} {p : Primitive Float32}

/-- A hit on a new primitive that no hit before is nearer than. -/
theorem isNearest_new {hit : Hit Float32} (hp : p.hit r range = some hit)
    (le : ∀ (j : Nat) (q : Primitive Float32) (h : Hit Float32), seen[j]? = some q →
      q.hit r range = some h → hit.t ≤ h.t) :
    IsNearest r range (seen ++ [p]) ⟨seen.length, p, hit⟩ where
  primitive := by simp
  hit := hp
  le := by
    intro j q h hq hh
    rcases getElem?_append_cases hq with ⟨-, rfl⟩ | hq
    · obtain rfl : hit = h := Option.some.inj (hp.symm.trans hh)
      exact le_self_left (Primitive.contains_of_hit hp).2
    · exact le j q h hq hh
  lt := by
    intro j q h hq _ hj
    have hlt : j < (seen ++ [p]).length := (List.getElem?_eq_some_iff.1 hq).1
    rw [List.length_append, List.length_singleton] at hlt
    simp only at hj
    omega

/-- The nearest hit stays what it is if the new primitive is hit farther away or not at all. -/
theorem isNearest_old {found : Found} (h : IsNearest r range seen found)
    (hp : ∀ hit, p.hit r range = some hit → found.hit.t < hit.t) :
    IsNearest r range (seen ++ [p]) found where
  primitive := getElem?_append_of_some h.primitive
  hit := h.hit
  le := by
    intro j q hit hq hh
    rcases getElem?_append_cases hq with ⟨-, rfl⟩ | hq
    · exact (lt_iff.1 (hp hit hh)).1
    · exact h.le j q hit hq hh
  lt := by
    intro j q hit hq hh hj
    rcases getElem?_append_cases hq with ⟨-, rfl⟩ | hq
    · exact hp hit hh
    · exact h.lt j q hit hq hh hj

/-- **One primitive.**  What was right for the primitives seen so far is right with one more. -/
theorem scanned_advance {best : Option Found} (h : Scanned r range seen best)
    (p : Primitive Float32) :
    Scanned r range (seen ++ [p]) (advance r range seen.length best p) := by
  cases best with
  | none =>
    have hfull : range.withMax range.max = range := rfl
    rw [advance, bound, hfull]
    cases hp : p.hit r range with
    | none =>
      intro q hq
      rcases List.mem_append.1 hq with hq | hq
      · exact h q hq
      · rw [List.mem_singleton.1 hq, hp]
    | some hit =>
      refine isNearest_new hp ?_
      intro j q hit' hq hh
      rw [h q (List.mem_of_getElem? hq)] at hh
      cases hh
  | some found =>
    have hfound : IsNearest r range seen found := h
    rw [advance, bound, p.hit_withMax r hfound.contains.2]
    cases hp : p.hit r range with
    | none =>
      refine isNearest_old hfound ?_
      intro hit hh
      cases hp.symm.trans hh
    | some hit =>
      by_cases hle : hit.t ≤ found.hit.t
      · -- of equally near hits the new one counts
        simp only [Option.filter_some, hle, decide_true, if_true]
        exact isNearest_new hp fun j q h hq hh => le_trans hle (hfound.le j q h hq hh)
      · simp only [Option.filter_some, hle, decide_false]
        refine isNearest_old hfound ?_
        intro hit' hh
        obtain rfl : hit = hit' := Option.some.inj (hp.symm.trans hh)
        have htotal := le_total (le_self_left hfound.contains.2)
          (le_self_left (Primitive.contains_of_hit hp).2)
        exact lt_iff.2 ⟨htotal.resolve_right hle, hle⟩

/-- **All primitives.** -/
theorem scanned_nearestFrom {seen : List (Primitive Float32)} {best : Option Found}
    (h : Scanned r range seen best) (rest : List (Primitive Float32)) :
    Scanned r range (seen ++ rest) (nearestFrom r range seen.length best rest) := by
  induction rest generalizing seen best with
  | nil => simpa [nearestFrom] using h
  | cons p rest ih =>
    have hstep := ih (scanned_advance h p)
    rw [List.length_append, List.length_singleton, List.append_assoc] at hstep
    rw [nearestFrom_cons]
    exact hstep

theorem scanned_intersect (scene : Scene) (r : Ray Float32) (range : Interval Float32) :
    Scanned r range scene.primitives (scene.intersect r range) := by
  have hnothing : Scanned r range [] none := by simp [Scanned]
  exact scanned_nearestFrom hnothing scene.primitives

/-! ### The whole scan -/

theorem isNearest_of_intersect {scene : Scene} {found : Found}
    (h : scene.intersect r range = some found) : IsNearest r range scene.primitives found := by
  have hscan := scanned_intersect scene r range
  rw [h] at hscan
  exact hscan

theorem intersect_eq_none_iff (scene : Scene) (r : Ray Float32) (range : Interval Float32) :
    scene.intersect r range = none ↔ ∀ p ∈ scene.primitives, p.hit r range = none := by
  constructor
  · intro h
    have hscan := scanned_intersect scene r range
    rw [h] at hscan
    exact hscan
  · intro h
    cases hfound : scene.intersect r range with
    | none => rfl
    | some found =>
      have hnearest := isNearest_of_intersect hfound
      have hnone := h found.primitive (List.mem_of_getElem? hnearest.primitive)
      rw [hnearest.hit] at hnone
      cases hnone

theorem intersect_eq_some_iff (scene : Scene) (r : Ray Float32) (range : Interval Float32)
    (found : Found) :
    scene.intersect r range = some found ↔ IsNearest r range scene.primitives found := by
  constructor
  · exact isNearest_of_intersect
  · intro h
    cases hfound : scene.intersect r range with
    | none =>
      have hnone := (intersect_eq_none_iff scene r range).1 hfound found.primitive
        (List.mem_of_getElem? h.primitive)
      rw [h.hit] at hnone
      cases hnone
    | some other => rw [(isNearest_of_intersect hfound).unique h]

/-- If no two hits are equally near, then what is found does not depend on the order. -/
theorem intersect_perm {scene other : Scene} (differ : DistancesDiffer r range scene.primitives)
    (perm : other.primitives.Perm scene.primitives) :
    (other.intersect r range).map (fun f => (f.primitive, f.hit)) =
      (scene.intersect r range).map fun f => (f.primitive, f.hit) := by
  cases hg : other.intersect r range with
  | none =>
    have hnone : scene.intersect r range = none := by
      rw [intersect_eq_none_iff] at hg ⊢
      intro p hp
      exact hg p (perm.mem_iff.2 hp)
    rw [hnone]
  | some g =>
    have hgn : IsNearest r range other.primitives g := isNearest_of_intersect hg
    -- the primitive found in the other order has a place in this one
    obtain ⟨i, hi⟩ := List.getElem?_of_mem (perm.mem_iff.1 (List.mem_of_getElem? hgn.primitive))
    cases hf : scene.intersect r range with
    | none =>
      have hnone := (intersect_eq_none_iff scene r range).1 hf g.primitive
        (List.mem_of_getElem? hi)
      rw [hgn.hit] at hnone
      cases hnone
    | some f =>
      have hfn : IsNearest r range scene.primitives f := isNearest_of_intersect hf
      obtain ⟨j, hj⟩ := List.getElem?_of_mem
        (perm.mem_iff.2 (List.mem_of_getElem? hfn.primitive))
      have hsame : Scalar.Same f.hit.t g.hit.t :=
        ⟨hfn.le i _ _ hi hgn.hit, hgn.le j _ _ hj hfn.hit⟩
      have hindex : f.index = i := differ.eq_of_same hfn.primitive hi hfn.hit hgn.hit hsame
      have hprimitive : g.primitive = f.primitive := by
        rw [← hindex, hfn.primitive] at hi
        exact (Option.some.inj hi).symm
      have hhit : g.hit = f.hit := by
        have h := hgn.hit
        rw [hprimitive, hfn.hit] at h
        exact (Option.some.inj h).symm
      simp [hprimitive, hhit]

/-- **The scan with the shrinking interval is the search for the nearest hit.**  Nothing is found
exactly if no primitive is hit in the full interval; otherwise the hit in the full interval that
none is nearer than, the last one if several are equally near.  If no two are, what is found does
not depend on the order of the primitives. -/
theorem intersect_eq_nearest (scene : Scene) (r : Ray Float32) (range : Interval Float32) :
    (scene.intersect r range = none ↔ ∀ p ∈ scene.primitives, p.hit r range = none) ∧
    (∀ found, scene.intersect r range = some found ↔
      IsNearest r range scene.primitives found) ∧
    (DistancesDiffer r range scene.primitives →
      ∀ other : Scene, other.primitives.Perm scene.primitives →
        (other.intersect r range).map (fun f => (f.primitive, f.hit)) =
          (scene.intersect r range).map fun f => (f.primitive, f.hit)) :=
  ⟨intersect_eq_none_iff scene r range, intersect_eq_some_iff scene r range,
    fun differ _ perm => intersect_perm differ perm⟩

/-- Spheres of unit radius on the `z` axis, seen along the axis; two of them are in the same
place. -/
def spheresInRow : List (Primitive Float32) :=
  [⟨.sphere ⟨⟨0.0, 0.0, -5.0⟩, 1.0⟩, ⟨0⟩⟩, ⟨.sphere ⟨⟨0.0, 0.0, 0.0⟩, 1.0⟩, ⟨1⟩⟩,
    ⟨.sphere ⟨⟨0.0, 0.0, 0.0⟩, 1.0⟩, ⟨2⟩⟩]

/-- A scene of primitives only. -/
def ofPrimitives (primitives : List (Primitive Float32)) : Scene where
  camera := ⟨⟨0.0, 0.0, 10.0⟩, .zero⟩
  primitives := primitives
  maxDepth := 1

/-- The ray from the camera along the axis. -/
def axisRay : Ray Float32 := ⟨⟨0.0, 0.0, 10.0⟩, ⟨0.0, 0.0, -1.0⟩⟩

theorem nearest_of_spheresInRow :
    (∃ found, (ofPrimitives spheresInRow).intersect axisRay viewRange = some found ∧
      found.index = 2 ∧ IsNearest axisRay viewRange spheresInRow found) ∧
    DistancesDiffer axisRay viewRange (spheresInRow.take 2) ∧
    ((ofPrimitives (spheresInRow.take 2).reverse).intersect axisRay viewRange).map
        (fun f => (f.primitive, f.hit)) =
      ((ofPrimitives (spheresInRow.take 2)).intersect axisRay viewRange).map
        fun f => (f.primitive, f.hit) := by
  have differ : DistancesDiffer axisRay viewRange (spheresInRow.take 2) := by decide +kernel
  have hindex : ((ofPrimitives spheresInRow).intersect axisRay viewRange).map Found.index =
      some 2 := by decide +kernel
  obtain ⟨found, hfound, hlast⟩ := Option.map_eq_some_iff.1 hindex
  refine ⟨⟨found, hfound, hlast, ?_⟩, differ, ?_⟩
  · exact ((intersect_eq_nearest _ axisRay viewRange).2.1 found).1 hfound
  · exact (intersect_eq_nearest (ofPrimitives (spheresInRow.take 2)) axisRay viewRange).2.2 differ
      (ofPrimitives (spheresInRow.take 2).reverse) (List.reverse_perm _)

end Scene

end RayTracer
