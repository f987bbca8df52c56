import RayTracer.Camera
import RayTracer.Light
import RayTracer.Primitive

/-!
# Scenes and ray queries

A `Scene` is everything that a render pass reads.  `Scene.intersect` finds the nearest primitive
along a ray by one pass over the list, in which each hit lowers the upper end of the interval for
the primitives after it; of hits at the same parameter the last one counts.  `Scene.occluded` asks
the same of the segment between a point and a light.
-/

namespace RayTracer

/-- A scene ready to be rendered. -/
structure Scene where
  /-- Display name. -/
  name : String := ""
  /-- Initial pose of the camera. -/
  camera : Camera Float32
  primitives : List (Primitive Float32) := []
  lights : List Light := []
  materials : MaterialTable := {}
  ambient : AmbientLight := {}
  /-- Bound on the reflection levels, at least one. -/
  maxDepth : UInt32
  deriving Repr

/-- What a ray query found: the position of a primitive in the scene, the primitive and the hit. -/
structure Found where
  index : Nat
  primitive : Primitive Float32
  hit : Hit Float32
  deriving Repr

namespace Scene

/-- Bound on the reflection levels of a scene whose description sets none. -/
def defaultMaxDepth : UInt32 := 5

/-- Lower end of every ray query, which keeps a surface from meeting the rays that leave it. -/
def shadowEpsilon : Float32 := 0.001

/-- Upper end of the queries of primary and mirrored rays. -/
def farthest : Float32 := 1.0e30

/-- The interval of primary and mirrored rays. -/
def viewRange : Interval Float32 := ⟨shadowEpsilon, farthest⟩

/-- The same scene with another bound on the reflection levels, raised to one if it is zero. -/
def withMaxDepth (scene : Scene) (depth : UInt32) : Scene :=
  { scene with maxDepth := if depth < 1 then 1 else depth }

/-- The nearest hit on the primitives, numbered from `index` on, at or below `best` where there is
one, and otherwise in the interval. -/
def nearestFrom (r : Ray Float32) (range : Interval Float32) :
    Nat → Option Found → List (Primitive Float32) → Option Found
  | _, best, [] => best
  | index, best, p :: rest =>
    let upper := match best with
      | some found => found.hit.t
      | none => range.max
    match p.hit r (range.withMax upper) with
    | some hit => nearestFrom r range (index + 1) (some ⟨index, p, hit⟩) rest
    | none => nearestFrom r range (index + 1) best rest

/-- The nearest primitive along the ray in the interval. -/
def intersect (scene : Scene) (r : Ray Float32) (range : Interval Float32) : Option Found :=
  nearestFrom r range 0 none scene.primitives

/-- Whether anything lies on the segment that starts at `point` and has the given unit direction
and length. -/
def occluded (scene : Scene) (point direction : Vec3 Float32) (distance : Float32) : Bool :=
  (scene.intersect ⟨point, direction⟩ ⟨shadowEpsilon, distance⟩).isSome

end Scene

end RayTracer
