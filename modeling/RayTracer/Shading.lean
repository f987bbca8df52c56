import RayTracer.Scene

/-!
# Shading

The color seen along a ray: the ambient, diffuse and specular light at the nearest hit, with hard
shadows, plus what the surface mirrors.  Levels of reflection count up from zero, and a mirrored
ray is only followed while `depth + 1` is below the bound of the scene view.

* `View.trace` follows the mirrored rays by recursion;
* `View.traceIterative` walks the same rays from the eye outward and carries the product of the
  reflective indices;
* `View.chainFrom` lists what both of them meet.
-/

namespace RayTracer

/-- The color of rays that leave the scene. -/
def background : Color := .splat 0.0

/-- The color of surfaces without a material, chosen to be noticed. -/
def missingMaterialColor : Color := ⟨1.0, 0.0, 1.0⟩

/-- Weight of the highlight for the cosine between the mirrored light and the view direction.  A
zero exponent gives one even where the light is mirrored away from the viewer. -/
def phongFactor (cosine power : Float32) : Float32 := (Scalar.positivePart cosine).pow power

/-- The ray that leaves a hit in the mirrored direction. -/
def mirrorRay (r : Ray Float32) (hit : Hit Float32) : Ray Float32 :=
  ⟨hit.point, (r.direction.reflect hit.normal).normalize⟩

/-- A scene with the bound on reflection levels that is in force. -/
structure View where
  scene : Scene
  maxDepth : UInt32

namespace View

/-- The view with the scene's own bound. -/
def ofScene (scene : Scene) : View := ⟨scene, scene.maxDepth⟩

/-- Diffuse and specular light from one light source, which must not be occluded. -/
def lightContribution (r : Ray Float32) (base : Color) (material : Material) (hit : Hit Float32)
    (light : Light) : Color :=
  let toLight := light.position - hit.point
  let distance := toLight.length
  let lightDirection := toLight.normalize
  let viewDirection := (-r.direction).normalize
  let diffuse := base * material.diffuse * Scalar.positivePart (hit.normal.dot lightDirection)
  let mirrored := (-lightDirection).reflect hit.normal
  let cosine := viewDirection.dot mirrored
  let specular := light.color * material.specular * phongFactor cosine material.specularPower
  let attenuation : Float32 := 1.0 / (distance * distance)
  (diffuse + specular) * light.color * light.intensity * attenuation

/-- Whether the light reaches the hit point. -/
def lit (scene : Scene) (hit : Hit Float32) (light : Light) : Bool :=
  let toLight := light.position - hit.point
  !scene.occluded hit.point toLight.normalize toLight.length

/-- Ambient light plus the contributions of the lights that are not occluded, in order. -/
def localColor (scene : Scene) (r : Ray Float32) (found : Found) (material : Material) : Color :=
  let base := found.primitive.surfaceColor found.hit.point material.color
  let ambient := base * material.ambient * scene.ambient.radiance
  (scene.lights.filter (lit scene found.hit)).foldl
    (fun color light => color + lightContribution r base material found.hit light) ambient

/-- The nearest hit of a primary or mirrored ray. -/
def lookAlong (view : View) (r : Ray Float32) : Option Found :=
  view.scene.intersect r Scene.viewRange

/-- Whether a surface of this material at level `depth` sends a mirrored ray. -/
def Bounces (view : View) (material : Material) (depth : UInt32) : Prop :=
  (0.0 : Float32) < material.reflectiveIndex ∧ depth + 1 < view.maxDepth

instance (view : View) (material : Material) (depth : UInt32) :
    Decidable (view.Bounces material depth) := inferInstanceAs (Decidable (_ ∧ _))

/-- One level of reflection uses up one of the levels that are left. -/
theorem levels_decrease {depth bound : UInt32} (h : depth < bound) :
    bound.toNat - (depth + 1).toNat < bound.toNat - depth.toNat := by
  have hb := bound.toNat_lt
  rw [UInt32.lt_iff_toNat_lt] at h
  have : (depth + 1).toNat = depth.toNat + 1 := by
    rw [UInt32.toNat_add]
    simp
    omega
  omega

/-- The color seen along a ray at level `depth`. -/
def traceFrom (view : View) (r : Ray Float32) (depth : UInt32) : Color :=
  if depth < view.maxDepth then
    match view.lookAlong r with
    | none => background
    | some found =>
      match view.scene.materials.get? found.hit.material with
      | none => missingMaterialColor
      | some material =>
        let color := localColor view.scene r found material
        if view.Bounces material depth then
          color + view.traceFrom (mirrorRay r found.hit) (depth + 1) * material.reflectiveIndex
        else color
  else background
termination_by view.maxDepth.toNat - depth.toNat
decreasing_by exact levels_decrease (by assumption)

/-- The color seen along a primary ray. -/
def trace (view : View) (r : Ray Float32) : Color := view.traceFrom r 0

/-- The color seen along a ray at level `depth`, added with the given weight to the color gathered
so far. -/
def gatherFrom (view : View) (color : Color) (weight : Float32) (r : Ray Float32)
    (depth : UInt32) : Color :=
  if depth < view.maxDepth then
    match view.lookAlong r with
    | none => color + background * weight
    | some found =>
      match view.scene.materials.get? found.hit.material with
      | none => color + missingMaterialColor * weight
      | some material =>
        let color := color + localColor view.scene r found material * weight
        if view.Bounces material depth then
          view.gatherFrom color (weight * material.reflectiveIndex) (mirrorRay r found.hit)
            (depth + 1)
        else color
  else color + background * weight
termination_by view.maxDepth.toNat - depth.toNat
decreasing_by exact levels_decrease (by assumption)

/-- The color seen along a primary ray, gathered from the eye outward. -/
def traceIterative (view : View) (r : Ray Float32) : Color :=
  view.gatherFrom (.splat 0.0) 1.0 r 0

/-! ### What both evaluators meet -/

/-- Why the rays of a chain end. -/
inductive ChainEnd where
  /-- The bound on the levels is reached before the first hit. -/
  | depth
  /-- The last ray leaves the scene. -/
  | miss
  /-- The last surface has no material. -/
  | missingMaterial
  /-- The last surface sends no mirrored ray. -/
  | absorbed
  deriving DecidableEq, Repr

/-- A hit on the way: the ray, what it found and the material of the surface. -/
structure ChainLink where
  ray : Ray Float32
  found : Found
  material : Material

/-- The hits that a ray and its mirrored rays meet from level `depth` on, and why they end. -/
def chainFrom (view : View) (r : Ray Float32) (depth : UInt32) : List ChainLink × ChainEnd :=
  if depth < view.maxDepth then
    match view.lookAlong r with
    | none => ([], .miss)
    | some found =>
      match view.scene.materials.get? found.hit.material with
      | none => ([], .missingMaterial)
      | some material =>
        if view.Bounces material depth then
          let (links, stop) := view.chainFrom (mirrorRay r found.hit) (depth + 1)
          (⟨r, found, material⟩ :: links, stop)
        else ([⟨r, found, material⟩], .absorbed)
  else ([], .depth)
termination_by view.maxDepth.toNat - depth.toNat
decreasing_by exact levels_decrease (by assumption)

end View

end RayTracer
