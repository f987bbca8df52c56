import RayTracer.Proofs.Description.FirstFault
import RayTracer.Proofs.Geometry.Normalize

/-!
# Which accepted scenes are degenerate

The checks of a description compare vectors and points, while the geometry squares their
components.  A normal, an axis or a line of sight that is not zero may still have a squared length
that rounds to zero, or one that overflows, and no check finds that.

* `Scene.NonDegenerate` : no normal and no view direction is zero, and the length of an axis is
  neither zero nor infinite.
* `Scene.accepts_degenerate` : accepted scenes may be degenerate.
* `Scene.nonDegenerate_iff` : **they are not exactly if the squared lengths of what they describe
  can be represented**, for which components of moderate size are enough.
-/

namespace RayTracer

/-! ### Degenerate shapes -/

/-- Neither zero nor infinite. -/
def IsLength (x : Float32) : Prop := ¬Scalar.Same x 0.0 ∧ ¬x.isInf = true

instance (x : Float32) : Decidable (IsLength x) := inferInstanceAs (Decidable (_ ∧ _))

/-- The normal of a plane is not zero, and the length of an axis is neither zero nor infinite. -/
def Shape.NonDegenerate : Shape Float32 → Prop
  | .sphere _ => True
  | .plane p => ¬p.normal.Same .zero
  | .cone c => IsLength c.axis.length
  | .cylinder c => IsLength c.axis.length

instance : DecidablePred Shape.NonDegenerate
  | .sphere _ => isTrue trivial
  | .plane p => inferInstanceAs (Decidable (¬p.normal.Same .zero))
  | .cone c => inferInstanceAs (Decidable (IsLength c.axis.length))
  | .cylinder c => inferInstanceAs (Decidable (IsLength c.axis.length))

/-- No normal and no view direction is zero, and the length of an axis, as rays meet it, is neither
zero nor infinite. -/
structure Scene.NonDegenerate (scene : Scene) : Prop where
  forward : ¬scene.camera.forward.Same .zero
  shapes : ∀ p ∈ scene.primitives, p.shape.NonDegenerate

/-- The squared length of the normal of a plane neither rounds to zero nor overflows, nor does that
of an axis. -/
def ObjectDescription.HasLengths : ObjectDescription → Prop
  | sphere _ _ _ => True
  | plane _ normal _ _ _ => normal.HasLength
  | cone apex base _ _ => IsLength ((base - apex).dot (base - apex))
  | cylinder center1 center2 _ _ =>
    IsLength ((center2 - center1).dot (center2 - center1))

theorem Vec3.isLength_length_iff (v : Vec3 Float32) : IsLength v.length ↔ IsLength (v.dot v) :=
  and_congr (not_congr v.length_degenerate_iff.1) (not_congr v.length_degenerate_iff.2)

theorem ObjectDescription.nonDegenerate_shape_iff (object : ObjectDescription) :
    object.shape.NonDegenerate ↔ object.HasLengths := by
  cases object with
  | sphere => exact Iff.rfl
  | plane point normal checkerboard size m =>
    change ¬normal.normalize.Same .zero ↔ normal.HasLength
    rw [Vec3.normalize_same_zero_iff, not_not]
  | cone apex base radius m => exact (base - apex).isLength_length_iff
  | cylinder center1 center2 radius m => exact (center2 - center1).isLength_length_iff

/-! ### Components of moderate size -/

/-- Some component is not below `1e-22` in absolute value, and none is above `1e18`. -/
def Vec3.IsModerate (v : Vec3 Float32) : Prop :=
  (∃ c ∈ v.components, (1e-22 : Float32) ≤ c.abs) ∧ ∀ c ∈ v.components, c.abs ≤ (1e18 : Float32)

instance (v : Vec3 Float32) : Decidable v.IsModerate := inferInstanceAs (Decidable (_ ∧ _))

theorem Vec3.IsModerate.hasLength {v : Vec3 Float32} (h : v.IsModerate) : v.HasLength := by
  have hleast : (1e-22 : Float32).AtLeast (-74) := by
    show (-74 : ℤ) ≤ (15845633 : ℕ).log2 + -97
    decide
  have hgreatest : (1e18 : Float32).Below 61 := by
    show ((14551915 : ℕ).log2 : ℤ) + 36 < 61
    decide
  obtain ⟨⟨c, hc, hge⟩, hle⟩ := h
  have hbelow : ∀ c ∈ v.components, c.Below 61 := fun c hc => hgreatest.of_abs_le (hle c hc)
  exact Vec3.hasLength_of_bounds hc (hleast.of_le_abs trivial (hbelow c hc).isFinite hge) hbelow

theorem Vec3.HasLength.isLength {v : Vec3 Float32} (h : v.HasLength) : IsLength (v.dot v) := by
  obtain ⟨-, k, hk⟩ := Float32.pos_iff.1 h
  exact ⟨hk.not_same_zero, (Float32.below_of_isFinite h.2).not_isInf⟩

/-- The normal of a plane is of moderate size, or the axis of a cone or a cylinder. -/
def ObjectDescription.IsModerate : ObjectDescription → Prop
  | sphere _ _ _ => True
  | plane _ normal _ _ _ => normal.IsModerate
  | cone apex base _ _ => (base - apex).IsModerate
  | cylinder center1 center2 _ _ => (center2 - center1).IsModerate

instance : DecidablePred ObjectDescription.IsModerate
  | .sphere _ _ _ => isTrue trivial
  | .plane _ normal _ _ _ => inferInstanceAs (Decidable normal.IsModerate)
  | .cone apex base _ _ => inferInstanceAs (Decidable (base - apex).IsModerate)
  | .cylinder center1 center2 _ _ => inferInstanceAs (Decidable (center2 - center1).IsModerate)

theorem ObjectDescription.IsModerate.hasLengths {object : ObjectDescription}
    (h : object.IsModerate) : object.HasLengths := by
  cases object with
  | sphere => trivial
  | plane => exact Vec3.IsModerate.hasLength h
  | cone | cylinder => exact (Vec3.IsModerate.hasLength h).isLength

/-! ### Accepted scenes -/

/-- What an object of a description reads as. -/
def Json.object? (j : Json) : Option ObjectDescription := do
  let kind ← ObjectKind.ofType? (← (j.get? "type").bind Json.text?)
  ObjectDescription.ofJson? kind j

/-- The objects of a description, as far as they can be read. -/
def Description.readObjects (d : Description) : List ObjectDescription :=
  d.objects.filterMap Json.object?

theorem ObjectDescribes.object?_eq {declared : List String} {j : Json} {p : Primitive Float32}
    (h : ObjectDescribes declared j p) :
    ∃ object, j.object? = some object ∧ p.shape = object.shape := by
  obtain ⟨kind, object, hkind, hobject, hshape⟩ := h.shape
  refine ⟨object, ?_, hshape⟩
  simp only [Json.object?, h.kind, Option.bind_eq_bind, Option.bind_some, hkind, hobject]

theorem shapes_of_describes {declared : List String} {objects : List Json}
    {primitives : List (Primitive Float32)}
    (h : List.Forall₂ (ObjectDescribes declared) objects primitives) :
    primitives.map (·.shape) = (objects.filterMap Json.object?).map (·.shape) := by
  induction h with
  | nil => rfl
  | cons hp _ ih =>
    obtain ⟨object, hread, hshape⟩ := hp.object?_eq
    rw [List.filterMap_cons_some hread, List.map_cons, List.map_cons, ih, hshape]

/-- An accepted scene has the shapes that its description describes. -/
theorem Description.KeptIn.shapes_eq {d : Description} {scene : Scene} (h : d.KeptIn scene) :
    scene.primitives.map (·.shape) = d.readObjects.map (·.shape) :=
  shapes_of_describes h.objects

theorem Description.KeptIn.scene_nonDegenerate_iff {d : Description} {scene : Scene}
    (h : d.KeptIn scene) : scene.NonDegenerate ↔
      (d.camera.lookAt - d.camera.origin).HasLength ∧
        ∀ object ∈ d.readObjects, object.HasLengths := by
  have hforward : ¬scene.camera.forward.Same .zero ↔
      (d.camera.lookAt - d.camera.origin).HasLength := by
    rw [h.camera, Camera.forward, Vec3.normalize_same_zero_iff, not_not]
  have hshapes : (∀ p ∈ scene.primitives, p.shape.NonDegenerate) ↔
      ∀ object ∈ d.readObjects, object.HasLengths := by
    have hmap : (∀ s ∈ scene.primitives.map (·.shape), s.NonDegenerate) ↔
        ∀ s ∈ d.readObjects.map (·.shape), s.NonDegenerate := by
      rw [h.shapes_eq]
    simpa only [List.forall_mem_map, ObjectDescription.nonDegenerate_shape_iff] using hmap
  rw [← hforward, ← hshapes]
  exact ⟨fun h => ⟨h.forward, h.shapes⟩, fun h => ⟨h.1, h.2⟩⟩

namespace Scene

theorem keptIn_of_ofText {name text : String} {d : Description} {scene : Scene}
    (described : Description.ofText? text = some d) (accepted : ofText name text = .ok scene) :
    d.KeptIn scene := by
  have checked := ofText_checked described name
  rw [accepted] at checked
  exact checked.2.2

/-- **When accepted scenes are not degenerate.**  No normal and no view direction of an accepted
scene is zero, and no axis has a length that is zero or infinite, exactly if the squared lengths of
what is described neither round to zero nor overflow.  That holds where each of these vectors has a
component that is not below `1e-22`, and none above `1e18`. -/
theorem nonDegenerate_iff {name text : String} {d : Description} {scene : Scene}
    (described : Description.ofText? text = some d) (accepted : ofText name text = .ok scene) :
    (scene.NonDegenerate ↔ (d.camera.lookAt - d.camera.origin).HasLength ∧
      ∀ object ∈ d.readObjects, object.HasLengths) ∧
    ((d.camera.lookAt - d.camera.origin).IsModerate →
      (∀ object ∈ d.readObjects, object.IsModerate) → scene.NonDegenerate) := by
  have hiff := (keptIn_of_ofText described accepted).scene_nonDegenerate_iff
  exact ⟨hiff, fun hcamera hobjects =>
    hiff.2 ⟨hcamera.hasLength, fun object hobject => (hobjects object hobject).hasLengths⟩⟩

theorem nonDegenerate_coneText :
    ∃ d scene, Description.ofText? coneText = some d ∧ ofText "cone" coneText = .ok scene ∧
      scene.primitives.length = 1 ∧ scene.NonDegenerate := by
  have check : (Description.ofText? coneText).any (fun d =>
      (d.toScene "cone").toOption.any (fun scene => scene.primitives.length == 1) &&
        decide (d.camera.lookAt - d.camera.origin).IsModerate &&
        d.readObjects.all (fun object => decide object.IsModerate)) = true := by
    decide +kernel
  cases described : Description.ofText? coneText with
  | none =>
    rw [described] at check
    cases check
  | some d =>
    rw [described, Option.any_some, Bool.and_eq_true, Bool.and_eq_true] at check
    obtain ⟨⟨hscene, hcamera⟩, hobjects⟩ := check
    have hload : ofText "cone" coneText = d.toScene "cone" := by rw [ofText, described]
    cases built : d.toScene "cone" with
    | error e =>
      rw [built] at hscene
      cases hscene
    | ok scene =>
      rw [built] at hscene
      have accepted : ofText "cone" coneText = .ok scene := hload.trans built
      refine ⟨d, scene, rfl, accepted, eq_of_beq hscene, ?_⟩
      exact (nonDegenerate_iff described accepted).2 (of_decide_eq_true hcamera)
        fun object hobject => of_decide_eq_true (List.all_eq_true.1 hobjects object hobject)

/-- A camera that looks along a step of `1e-30`, a plane with a normal of that length and a cone
with an axis of that length. -/
def degenerateText : String :=
  "\x7b\"camera\":[[1,0,0],[1,1e-30,0]],\"materials\":[[\"m\",[1,1,1]]],\"objects\":[" ++
    "\x7b\"type\":\"plane\",\"point\":[0,1,0],\"normal\":[1e-30,0,0],\"material\":\"m\"\x7d," ++
    "\x7b\"type\":\"cone\",\"apex\":[1,0,0],\"base\":[1,1e-30,0],\"radius\":1," ++
    "\"material\":\"m\"\x7d]\x7d"

/-- **Accepted scenes may be degenerate**, in the view direction and in every shape. -/
theorem accepts_degenerate :
    ∃ scene, ofText "" degenerateText = .ok scene ∧ scene.camera.forward.Same .zero ∧
      scene.primitives.map (·.shape.kind) = ["plane", "cone"] ∧
      ∀ p ∈ scene.primitives, ¬p.shape.NonDegenerate := by
  have check : (ofText "" degenerateText).toOption.any (fun scene =>
      decide (scene.camera.forward.Same .zero) &&
        scene.primitives.map (·.shape.kind) == ["plane", "cone"] &&
        scene.primitives.all (fun p => decide ¬p.shape.NonDegenerate)) = true := by
    decide +kernel
  cases accepted : ofText "" degenerateText with
  | error e =>
    rw [accepted] at check
    cases check
  | ok scene =>
    rw [accepted] at check
    obtain ⟨hboth, hshapes⟩ := Bool.and_eq_true_iff.1 check
    obtain ⟨hforward, hkinds⟩ := Bool.and_eq_true_iff.1 hboth
    exact ⟨scene, rfl, of_decide_eq_true hforward, eq_of_beq hkinds,
      fun p hp => of_decide_eq_true (List.all_eq_true.1 hshapes p hp)⟩

end Scene

end RayTracer
