import RayTracer.Geometry.Vec3

/-!
# Lights

Point lights, whose effect falls off with the square of the distance, and the ambient light, which
reaches every surface whatever stands between.
-/

namespace RayTracer

/-- A light that shines from a point in all directions. -/
structure Light where
  position : Vec3 Float32
  color : Color
  intensity : Float32
  deriving Repr

/-- Uniform light on every surface. -/
structure AmbientLight where
  color : Color := .splat 0.0
  intensity : Float32 := 0.0
  deriving Repr

/-- The color scaled by the intensity. -/
def AmbientLight.radiance (light : AmbientLight) : Color := light.color * light.intensity

end RayTracer
