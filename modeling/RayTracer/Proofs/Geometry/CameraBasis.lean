import RayTracer.Camera
import RayTracer.Proofs.Geometry.Frame

/-!
# The basis of the camera and its primary rays

The basis of a camera is a function of its pose.  A camera that is moved step by step may as well
keep the basis that it computed last (`CameraRig`): after any moves this is the basis of the pose
that they lead to.

* `CameraRig.isCurrent_run` : **the basis that is kept is never out of date.**
* `Camera.exists_frame` : in exact arithmetic the basis of a camera that does not look along the
  vertical is an upright frame.
* `Camera.direction_primaryRay` : the direction of a primary ray is a sum of the frame's vectors,
  scaled to unit length.
* `CameraRig.basis_and_rays` : **so after any moves the basis is an upright frame, and rays through
  different positions of the image have different directions on the forward side.**
-/

namespace RayTracer

open Exact (number)

/-! ### Moving a camera -/

/-- A change of one of the two points of the pose. -/
inductive CameraMove (α : Type) where
  | origin (p : Vec3 α)
  | lookAt (p : Vec3 α)

/-- The move with all components changed. -/
def CameraMove.map {α β : Type} (f : α → β) : CameraMove α → CameraMove β
  | origin p => origin (p.map f)
  | lookAt p => lookAt (p.map f)

namespace Camera

/-- The pose with all components changed. -/
def map {α β : Type} (f : α → β) (c : Camera α) : Camera β := ⟨c.origin.map f, c.lookAt.map f⟩

/-- The pose after a move. -/
def moved {α : Type} (c : Camera α) : CameraMove α → Camera α
  | .origin p => { c with origin := p }
  | .lookAt p => { c with lookAt := p }

/-- The pose after a sequence of moves. -/
def after {α : Type} (c : Camera α) (moves : List (CameraMove α)) : Camera α := moves.foldl moved c

theorem after_map {α β : Type} (f : α → β) (c : Camera α) (moves : List (CameraMove α)) :
    (c.map f).after (moves.map (CameraMove.map f)) = (c.after moves).map f := by
  have hmoved (c : Camera α) (m : CameraMove α) :
      (c.map f).moved (m.map f) = (c.moved m).map f := by
    cases m <;> rfl
  unfold after
  induction moves generalizing c with
  | nil => rfl
  | cons m moves ih => rw [List.map_cons, List.foldl_cons, List.foldl_cons, hmoved, ih]

end Camera

/-- A camera that keeps the basis it computed last. -/
structure CameraRig (α : Type) where
  camera : Camera α
  forward : Vec3 α
  right : Vec3 α
  up : Vec3 α

namespace CameraRig

variable {α : Type} [Scalar α]

/-- The basis is computed anew. -/
def aimed (rig : CameraRig α) : CameraRig α :=
  let forward := (rig.camera.lookAt - rig.camera.origin).normalize
  let right := (forward.cross Camera.worldUp).normalize
  { rig with forward, right, up := right.cross forward }

/-- A camera in its first pose. -/
def start (c : Camera α) : CameraRig α := aimed ⟨c, .zero, .zero, .zero⟩

/-- A move, after which the basis is computed anew. -/
def move (rig : CameraRig α) (m : CameraMove α) : CameraRig α :=
  aimed { rig with camera := rig.camera.moved m }

/-- The camera after a sequence of moves. -/
def run (c : Camera α) (moves : List (CameraMove α)) : CameraRig α := moves.foldl move (start c)

/-- The ray through a position of the image, by the basis that is kept. -/
def primaryRay (rig : CameraRig α) (px py width height : α) : Ray α :=
  let aspect := width / height
  let halfWidth := aspect * Camera.halfHeight
  let u := px / width
  let v := py / height
  let direction := rig.forward
    + rig.right * (((2.0 : α) * u - (1.0 : α)) * halfWidth)
    + rig.up * (((1.0 : α) - (2.0 : α) * v) * Camera.halfHeight)
  ⟨rig.camera.origin, direction.normalize⟩

/-- The basis that is kept is the one of the pose. -/
structure IsCurrent (rig : CameraRig α) : Prop where
  forward : rig.forward = rig.camera.forward
  right : rig.right = rig.camera.right
  up : rig.up = rig.camera.up

theorem isCurrent_aimed (rig : CameraRig α) : rig.aimed.IsCurrent := ⟨rfl, rfl, rfl⟩

theorem IsCurrent.primaryRay_eq {rig : CameraRig α} (h : rig.IsCurrent) (px py width height : α) :
    rig.primaryRay px py width height = rig.camera.primaryRay px py width height := by
  rw [primaryRay, h.forward, h.right, h.up]
  rfl

/-- A run from any camera that is up to date. -/
theorem foldl_move {rig : CameraRig α} (h : rig.IsCurrent) (moves : List (CameraMove α)) :
    (moves.foldl move rig).IsCurrent ∧
      (moves.foldl move rig).camera = rig.camera.after moves := by
  induction moves generalizing rig with
  | nil => exact ⟨h, rfl⟩
  | cons m moves ih =>
    have hmoved : (rig.move m).IsCurrent := isCurrent_aimed _
    exact ih hmoved

/-- **The basis that is kept is never out of date.** -/
theorem isCurrent_run (c : Camera α) (moves : List (CameraMove α)) : (run c moves).IsCurrent :=
  (foldl_move (isCurrent_aimed _) moves).1

/-- The moves change the pose as if no basis were kept. -/
theorem camera_run (c : Camera α) (moves : List (CameraMove α)) :
    (run c moves).camera = c.after moves :=
  (foldl_move (isCurrent_aimed _) moves).2

/-- The basis consists of unit vectors, orthogonal to each other, of which `right` is horizontal and
`up` is upward. -/
structure IsUpright (rig : CameraRig α) : Prop where
  length_forward : rig.forward.length = 1.0
  length_right : rig.right.length = 1.0
  length_up : rig.up.length = 1.0
  forward_right : rig.forward.dot rig.right = 0.0
  forward_up : rig.forward.dot rig.up = 0.0
  right_up : rig.right.dot rig.up = 0.0
  right_eq : rig.right = rig.forward.cross rig.up
  up_pos : (0.0 : α) < rig.up.y
  right_level : rig.right.y = 0.0

end CameraRig

/-! ### The basis in exact arithmetic -/

variable {K : Type} [Field K] [LinearOrder K] [HasRoots K]

theorem Vec3.cross_map (v w : Vec3 K) :
    (v.map number).cross (w.map number) = (v.wedge w).map number := rfl

omit [Field K] [LinearOrder K] [HasRoots K] in
theorem Vec3.eq_of_map_eq {v w : Vec3 K} (h : v.map number = w.map number) : v = w := by
  obtain ⟨hx, hy, hz⟩ := Vec3.mk.inj h
  calc v = ⟨v.x, v.y, v.z⟩ := rfl
    _ = ⟨w.x, w.y, w.z⟩ := by rw [Exact.number.inj hx, Exact.number.inj hy, Exact.number.inj hz]

namespace Camera

/-- The basis of the camera consists of numbers. -/
structure HasBasis (c : Camera (Exact K)) (f r u : Vec3 K) : Prop where
  forward : c.forward = f.map number
  right : c.right = r.map number
  up : c.up = u.map number

variable [IsStrictOrderedRing K]

/-- The view direction. -/
def view (c : Camera K) : Vec3 K := c.lookAt - c.origin

/-- **The basis is an upright frame**, unless the view direction is vertical. -/
theorem exists_frame {c : Camera K} (h : ¬c.view.IsVertical) :
    ∃ f r u, (c.map number).HasBasis f r u ∧ Vec3.IsFrame f r u := by
  have hworldUp : (worldUp : Vec3 (Exact K)) = (⟨0, 1, 0⟩ : Vec3 K).map number := by
    rw [worldUp, Exact.zero_eq, Exact.one_eq]
    rfl
  have hforward : (c.map number).forward = c.view.unit.map number :=
    Vec3.normalize_map (Vec3.size_pos_of_not_isVertical h)
  have hright : (c.map number).right = (c.view.unit.wedge ⟨0, 1, 0⟩).unit.map number := by
    rw [right, hforward, hworldUp, Vec3.cross_map,
      Vec3.normalize_map (Vec3.size_wedge_upward_pos h)]
  refine ⟨_, _, _, ⟨hforward, hright, ?_⟩, Vec3.isFrame_unit h⟩
  rw [up, hforward, hright, Vec3.cross_map]

/-! ### Primary rays in exact arithmetic -/

/-- Tangent of half the field of view. -/
def tangent (K : Type) [Field K] : K := 0.41421357

/-- How far a position of the image is to the right of its middle. -/
def across (px width height : K) : K := (2 * (px / width) - 1) * (width / height * tangent K)

/-- How far a position of the image is above its middle. -/
def above (py height : K) : K := (1 - 2 * (py / height)) * tangent K

omit [HasRoots K] in
theorem tangent_ne_zero : tangent K ≠ 0 := by
  norm_num [tangent]

omit [HasRoots K] in
theorem across_injective {px px' width height : K} (hwidth : width ≠ 0) (hheight : height ≠ 0)
    (h : across px width height = across px' width height) : px = px' := by
  have hhalf : width / height * tangent K ≠ 0 :=
    mul_ne_zero (div_ne_zero hwidth hheight) tangent_ne_zero
  have hfraction := mul_right_cancel₀ hhalf h
  have hquotient : px / width = px' / width := by linarith
  exact (div_left_inj' hwidth).1 hquotient

omit [HasRoots K] in
theorem above_injective {py py' height : K} (hheight : height ≠ 0)
    (h : above py height = above py' height) : py = py' := by
  have hfraction := mul_right_cancel₀ tangent_ne_zero h
  have hquotient : py / height = py' / height := by linarith
  exact (div_left_inj' hheight).1 hquotient

/-- **The direction of a primary ray in the frame of the camera.** -/
theorem direction_primaryRay {c : Camera (Exact K)} {f r u : Vec3 K} (hbasis : c.HasBasis f r u)
    (h : Vec3.IsFrame f r u) (px py : K) {width height : K} (hwidth : width ≠ 0)
    (hheight : height ≠ 0) :
    (c.primaryRay (number px) (number py) (number width) (number height)).direction =
      (f + r * across px width height + u * above py height).unit.map number := by
  have htangent : (halfHeight : Exact K) = number (tangent K) := rfl
  rw [← Vec3.normalize_map (h.size_pos _ _)]
  simp only [primaryRay, hbasis.forward, hbasis.right, hbasis.up, htangent, Exact.two_eq,
    Exact.one_eq, Exact.number_div _ hwidth, Exact.number_div _ hheight]
  rfl

end Camera

/-! ### Cameras that were moved -/

namespace CameraRig

variable [IsStrictOrderedRing K]

theorem isUpright_of_hasBasis {rig : CameraRig (Exact K)} {f r u : Vec3 K}
    (hcurrent : rig.IsCurrent) (hbasis : rig.camera.HasBasis f r u) (h : Vec3.IsFrame f r u) :
    rig.IsUpright := by
  have hforward : rig.forward = f.map number := hcurrent.forward.trans hbasis.forward
  have hright : rig.right = r.map number := hcurrent.right.trans hbasis.right
  have hup : rig.up = u.map number := hcurrent.up.trans hbasis.up
  have hlength {v : Vec3 K} (hv : v.inner v = 1) : (v.map number).length = 1.0 := by
    rw [Vec3.length_map, (Vec3.size_eq_iff zero_le_one).2 (hv.trans (mul_one 1).symm), Exact.one_eq]
  have hdot {v w : Vec3 K} (hvw : v.inner w = 0) : (v.map number).dot (w.map number) = 0.0 := by
    rw [Vec3.map_dot_map, hvw, Exact.zero_eq]
  constructor
  case length_forward => rw [hforward, hlength h.forward_self]
  case length_right => rw [hright, hlength h.right_self]
  case length_up => rw [hup, hlength h.up_self]
  case forward_right => rw [hforward, hright, hdot h.forward_right]
  case forward_up => rw [hforward, hup, hdot h.forward_up]
  case right_up => rw [hright, hup, hdot h.right_up]
  case right_eq => rw [hforward, hright, hup, Vec3.cross_map, h.wedge_eq]
  case up_pos =>
    rw [hup, Exact.zero_eq]
    exact Exact.number_lt_number.2 h.up_pos
  case right_level =>
    rw [hright, Exact.zero_eq]
    exact congrArg number h.right_level

/-- **The basis of a camera and its primary rays.**  After any moves the basis is the one of the
pose.  If the camera does not look along the vertical then, the basis is an upright frame, and every
primary ray starts at the camera and has a unit direction on the forward side, a different one for
every position of the image. -/
theorem basis_and_rays (first : Camera K) (moves : List (CameraMove K))
    (h : ¬(first.after moves).view.IsVertical) :
    let rig := run (first.map number) (moves.map (CameraMove.map number))
    rig.IsCurrent ∧ rig.IsUpright ∧
      ∀ width height : K, width ≠ 0 → height ≠ 0 → ∀ px py : K,
        let ray := rig.primaryRay (number px) (number py) (number width) (number height)
        ray.origin = (first.after moves).origin.map number ∧ ray.direction.length = 1.0 ∧
          0.0 < ray.direction.dot rig.forward ∧
          ∀ px' py' : K, ray.direction =
            (rig.primaryRay (number px') (number py') (number width) (number height)).direction →
              px = px' ∧ py = py' := by
  intro rig
  have hcurrent : rig.IsCurrent := isCurrent_run _ _
  have hpose : rig.camera = (first.after moves).map number := by
    rw [camera_run, Camera.after_map]
  obtain ⟨f, r, u, hbasis, hframe⟩ := Camera.exists_frame h
  rw [← hpose] at hbasis
  refine ⟨hcurrent, isUpright_of_hasBasis hcurrent hbasis hframe, ?_⟩
  intro width height hwidth hheight px py ray
  have hdirection (px py : K) := Camera.direction_primaryRay hbasis hframe px py hwidth hheight
  simp only [← hcurrent.primaryRay_eq] at hdirection
  have hpos := hframe.size_pos (Camera.across px width height) (Camera.above py height)
  refine ⟨congrArg Camera.origin hpose, ?_, ?_, ?_⟩
  · rw [hdirection, Vec3.length_map, Vec3.size_unit hpos, Exact.one_eq]
  · rw [hdirection, hcurrent.forward, hbasis.forward, Vec3.map_dot_map, Exact.zero_eq,
      Exact.number_lt_number, Vec3.unit, Vec3.inner_div_left, hframe.inner_forward]
    exact one_div_pos.2 hpos
  · intro px' py' heq
    rw [hdirection, hdirection] at heq
    obtain ⟨hacross, habove⟩ := hframe.unit_injective (Vec3.eq_of_map_eq heq)
    exact ⟨Camera.across_injective hwidth hheight hacross,
      Camera.above_injective hheight habove⟩

/-- A camera that is carried around its target and then turned away from it, and two neighbouring
pixels of an image of two by one. -/
theorem basis_and_rays_carried :
    let first : Camera ℝ := ⟨⟨0, 0, 5⟩, ⟨0, 0, 0⟩⟩
    let moves : List (CameraMove ℝ) := [.origin ⟨5, 0, 0⟩, .lookAt ⟨5, 1, -3⟩]
    let rig := run (first.map number) (moves.map (CameraMove.map number))
    ¬(first.after moves).view.IsVertical ∧
      (2 : ℝ) ≠ 0 ∧ (1 : ℝ) ≠ 0 ∧ rig.IsUpright ∧
      (rig.primaryRay (number 0.5) (number 0.5) (number 2) (number 1)).direction ≠
        (rig.primaryRay (number 1.5) (number 0.5) (number 2) (number 1)).direction := by
  intro first moves rig
  have hview : ¬(first.after moves).view.IsVertical := by
    rw [Vec3.isVertical_iff]
    norm_num [first, moves, Camera.after, Camera.moved, Camera.view, Vec3.sub_mk]
  obtain ⟨-, hupright, hrays⟩ := basis_and_rays first moves hview
  refine ⟨hview, two_ne_zero, one_ne_zero, hupright, fun heq => ?_⟩
  obtain ⟨-, -, -, hdiffer⟩ := hrays 2 1 two_ne_zero one_ne_zero 0.5 0.5
  have hsame := (hdiffer 1.5 0.5 heq).1
  norm_num at hsame

end CameraRig

end RayTracer
