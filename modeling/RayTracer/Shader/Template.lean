import RayTracer.Text.Line

/-!
# The shader template

The fragment shader that evaluates the same shading as the direct renderer.  The functions of the
reflection group are marked with directives, so that they can be unrolled, and the scene is written
into it at the two markers `scene:declarations` and `scene:constructors`.
-/

namespace RayTracer.Shader

/-- The inputs of one frame and the entities of a scene. -/
def structures : List String := [
  "// Whitted ray tracer, fragment stage.",
  "//",
  "// The functions between `rec:func` and `rec:endfunc` form the recursive",
  "// reflection group. WGSL rejects recursion, so they are unrolled into",
  "// depth-indexed copies before this source reaches the compiler. Scene data is",
  "// spliced in at the `scene:` markers.",
  "",
  "struct FrameUniforms \x7b",
  "    camera_origin: vec4<f32>,",
  "    camera_look_at: vec4<f32>,",
  "    resolution: vec4<f32>,",
  "\x7d",
  "",
  "struct Primitive \x7b",
  "    header: vec4<f32>,",
  "    data0: vec4<f32>,",
  "    data1: vec4<f32>,",
  "\x7d",
  "",
  "struct Material \x7b",
  "    color_ambient: vec4<f32>,",
  "    coefficients: vec4<f32>,",
  "\x7d",
  "",
  "struct Light \x7b",
  "    position_intensity: vec4<f32>,",
  "    color: vec4<f32>,",
  "\x7d",
  "",
  "struct SceneHit \x7b",
  "    found: bool,",
  "    index: u32,",
  "    t: f32,",
  "\x7d",
  ""]

/-- Binding of the inputs, codes of the kinds of surface, and limits. -/
def constants : List String := [
  "@group(0) @binding(0) var<uniform> frame: FrameUniforms;",
  "",
  "const KIND_SPHERE: u32 = 1u;",
  "const KIND_PLANE: u32 = 2u;",
  "const KIND_CONE: u32 = 3u;",
  "const KIND_CYLINDER: u32 = 4u;",
  "",
  "const T_MIN: f32 = 0.001;",
  "const T_MAX: f32 = 1.0e30;",
  "const MISS: f32 = -1.0;",
  "const PARALLEL_EPSILON: f32 = 1e-6;",
  "const AXIS_EPSILON: f32 = 1e-8;",
  "const FIELD_OF_VIEW: f32 = 45.0;",
  "",
  "const WORLD_UP: vec3<f32> = vec3<f32>(0.0, 1.0, 0.0);",
  "const BACKGROUND: vec3<f32> = vec3<f32>(0.0, 0.0, 0.0);",
  "const ERROR_COLOR: vec3<f32> = vec3<f32>(1.0, 0.0, 1.0);",
  "const CHECKER_DARK: vec3<f32> = vec3<f32>(0.1, 0.1, 0.1);",
  "const NO_BOUNCE: vec3<f32> = vec3<f32>(0.0, 0.0, 0.0);",
  ""]

/-- The arrays of the scene and the function that fills them. -/
def sceneData : List String := [
  "// scene:declarations",
  "",
  "fn load_scene() \x7b",
  "    // scene:constructors",
  "\x7d",
  ""]

/-- Where a ray meets a sphere or a plane. -/
def sphereAndPlaneHits : List String := [
  "fn in_range(t: f32, t_min: f32, t_max: f32) -> bool \x7b",
  "    return t_min <= t && t <= t_max;",
  "\x7d",
  "",
  "fn hit_sphere(prim: Primitive, origin: vec3<f32>, direction: vec3<f32>, t_min: f32, t_max: f32) -> f32 \x7b",
  "    let center = prim.data0.xyz;",
  "    let radius = prim.header.z;",
  "    let oc = origin - center;",
  "    let a = dot(direction, direction);",
  "    let b = 2.0 * dot(oc, direction);",
  "    let c = dot(oc, oc) - radius * radius;",
  "    let discriminant = b * b - 4.0 * a * c;",
  "    if (discriminant < 0.0) \x7b",
  "        return MISS;",
  "    \x7d",
  "    let root = sqrt(discriminant);",
  "    let t0 = (-b - root) / (2.0 * a);",
  "    let t1 = (-b + root) / (2.0 * a);",
  "    let near = min(t0, t1);",
  "    let far = max(t0, t1);",
  "    if (in_range(near, t_min, t_max)) \x7b",
  "        return near;",
  "    \x7d",
  "    if (in_range(far, t_min, t_max)) \x7b",
  "        return far;",
  "    \x7d",
  "    return MISS;",
  "\x7d",
  "",
  "fn hit_plane(prim: Primitive, origin: vec3<f32>, direction: vec3<f32>, t_min: f32, t_max: f32) -> f32 \x7b",
  "    let point = prim.data0.xyz;",
  "    let normal = prim.data1.xyz;",
  "    let denom = dot(direction, normal);",
  "    if (abs(denom) < PARALLEL_EPSILON) \x7b",
  "        return MISS;",
  "    \x7d",
  "    let t = dot(point - origin, normal) / denom;",
  "    if (in_range(t, t_min, t_max)) \x7b",
  "        return t;",
  "    \x7d",
  "    return MISS;",
  "\x7d",
  ""]

/-- Where a ray meets a cone. -/
def coneHit : List String := [
  "fn within_height(origin: vec3<f32>, direction: vec3<f32>, t: f32, start: vec3<f32>, axis_dir: vec3<f32>, axis_length: f32) -> bool \x7b",
  "    let projection = dot(origin + direction * t - start, axis_dir);",
  "    return 0.0 <= projection && projection <= axis_length;",
  "\x7d",
  "",
  "fn hit_cone(prim: Primitive, origin: vec3<f32>, direction: vec3<f32>, t_min: f32, t_max: f32) -> f32 \x7b",
  "    let apex = prim.data0.xyz;",
  "    let radius = prim.header.z;",
  "    let axis = prim.data1.xyz - apex;",
  "    let axis_length = length(axis);",
  "    let axis_dir = normalize(axis);",
  "    let length_sq = axis_length * axis_length;",
  "    let cos2 = length_sq / (length_sq + radius * radius);",
  "",
  "    let oc = origin - apex;",
  "    let dv = dot(direction, axis_dir);",
  "    let ov = dot(oc, axis_dir);",
  "    let a = dv * dv - cos2 * dot(direction, direction);",
  "    let b = 2.0 * (dv * ov - cos2 * dot(direction, oc));",
  "    let c = ov * ov - cos2 * dot(oc, oc);",
  "    let discriminant = b * b - 4.0 * a * c;",
  "    if (discriminant < 0.0) \x7b",
  "        return MISS;",
  "    \x7d",
  "    let root = sqrt(discriminant);",
  "    let t0 = (-b - root) / (2.0 * a);",
  "    let t1 = (-b + root) / (2.0 * a);",
  "    let near = min(t0, t1);",
  "    let far = max(t0, t1);",
  "    if (in_range(near, t_min, t_max) && within_height(origin, direction, near, apex, axis_dir, axis_length)) \x7b",
  "        return near;",
  "    \x7d",
  "    if (in_range(far, t_min, t_max) && within_height(origin, direction, far, apex, axis_dir, axis_length)) \x7b",
  "        return far;",
  "    \x7d",
  "    return MISS;",
  "\x7d",
  ""]

/-- Where a ray meets a cylinder. -/
def cylinderHit : List String := [
  "fn hit_cylinder(prim: Primitive, origin: vec3<f32>, direction: vec3<f32>, t_min: f32, t_max: f32) -> f32 \x7b",
  "    let start = prim.data0.xyz;",
  "    let radius = prim.header.z;",
  "    let axis = prim.data1.xyz - start;",
  "    let axis_length = length(axis);",
  "    if (axis_length < AXIS_EPSILON) \x7b",
  "        return MISS;",
  "    \x7d",
  "    let axis_dir = axis / axis_length;",
  "",
  "    let oc = origin - start;",
  "    let d_perp = direction - axis_dir * dot(direction, axis_dir);",
  "    let oc_perp = oc - axis_dir * dot(oc, axis_dir);",
  "    let a = dot(d_perp, d_perp);",
  "    if (abs(a) < AXIS_EPSILON) \x7b",
  "        return MISS;",
  "    \x7d",
  "    let b = 2.0 * dot(d_perp, oc_perp);",
  "    let c = dot(oc_perp, oc_perp) - radius * radius;",
  "    let discriminant = b * b - 4.0 * a * c;",
  "    if (discriminant < 0.0) \x7b",
  "        return MISS;",
  "    \x7d",
  "    let root = sqrt(discriminant);",
  "    let t0 = (-b - root) / (2.0 * a);",
  "    let t1 = (-b + root) / (2.0 * a);",
  "    let near = min(t0, t1);",
  "    let far = max(t0, t1);",
  "    if (in_range(near, t_min, t_max) && within_height(origin, direction, near, start, axis_dir, axis_length)) \x7b",
  "        return near;",
  "    \x7d",
  "    if (in_range(far, t_min, t_max) && within_height(origin, direction, far, start, axis_dir, axis_length)) \x7b",
  "        return far;",
  "    \x7d",
  "    return MISS;",
  "\x7d",
  ""]

/-- The nearest hit of a ray in the scene. -/
def nearestHit : List String := [
  "fn hit_primitive(prim: Primitive, origin: vec3<f32>, direction: vec3<f32>, t_min: f32, t_max: f32) -> f32 \x7b",
  "    let kind = u32(prim.header.x);",
  "    if (kind == KIND_SPHERE) \x7b",
  "        return hit_sphere(prim, origin, direction, t_min, t_max);",
  "    \x7d",
  "    if (kind == KIND_PLANE) \x7b",
  "        return hit_plane(prim, origin, direction, t_min, t_max);",
  "    \x7d",
  "    if (kind == KIND_CONE) \x7b",
  "        return hit_cone(prim, origin, direction, t_min, t_max);",
  "    \x7d",
  "    if (kind == KIND_CYLINDER) \x7b",
  "        return hit_cylinder(prim, origin, direction, t_min, t_max);",
  "    \x7d",
  "    return MISS;",
  "\x7d",
  "",
  "fn intersect_scene(origin: vec3<f32>, direction: vec3<f32>, t_min: f32, t_max: f32) -> SceneHit \x7b",
  "    var nearest = SceneHit(false, 0u, t_max);",
  "    for (var i: u32 = 0u; i < PRIMITIVE_COUNT; i = i + 1u) \x7b",
  "        let t = hit_primitive(primitives[i], origin, direction, t_min, nearest.t);",
  "        if (t != MISS) \x7b",
  "            nearest = SceneHit(true, i, t);",
  "        \x7d",
  "    \x7d",
  "    return nearest;",
  "\x7d",
  ""]

/-- Normals and colors of surfaces. -/
def surfaces : List String := [
  "fn primitive_normal(prim: Primitive, point: vec3<f32>) -> vec3<f32> \x7b",
  "    let kind = u32(prim.header.x);",
  "    let radius = prim.header.z;",
  "    if (kind == KIND_SPHERE) \x7b",
  "        return (point - prim.data0.xyz) / radius;",
  "    \x7d",
  "    if (kind == KIND_PLANE) \x7b",
  "        return prim.data1.xyz;",
  "    \x7d",
  "    if (kind == KIND_CONE) \x7b",
  "        let apex = prim.data0.xyz;",
  "        let axis = prim.data1.xyz - apex;",
  "        let axis_dir = normalize(axis);",
  "        let to_point = point - apex;",
  "        let perp = to_point - axis_dir * dot(to_point, axis_dir);",
  "        return normalize(normalize(perp) - axis_dir * (radius / length(axis)));",
  "    \x7d",
  "    if (kind == KIND_CYLINDER) \x7b",
  "        let start = prim.data0.xyz;",
  "        let axis_dir = normalize(prim.data1.xyz - start);",
  "        let axis_point = start + axis_dir * dot(point - start, axis_dir);",
  "        return normalize(point - axis_point);",
  "    \x7d",
  "    return vec3<f32>(0.0, 0.0, 0.0);",
  "\x7d",
  "",
  "fn surface_color(prim: Primitive, point: vec3<f32>, base: vec3<f32>) -> vec3<f32> \x7b",
  "    let size = prim.header.w;",
  "    if (u32(prim.header.x) == KIND_PLANE && size > 0.0) \x7b",
  "        let cell = i32(floor(point.x / size)) + i32(floor(point.z / size));",
  "        if (cell % 2 == 0) \x7b",
  "            return CHECKER_DARK;",
  "        \x7d",
  "    \x7d",
  "    return base;",
  "\x7d",
  "",
  "fn known_surface(prim: Primitive) -> bool \x7b",
  "    let kind = u32(prim.header.x);",
  "    let material = u32(prim.header.y);",
  "    return kind >= KIND_SPHERE && kind <= KIND_CYLINDER && material < MATERIAL_COUNT;",
  "\x7d",
  ""]

/-- Ambient, diffuse and specular light, with shadows. -/
def localLight : List String := [
  "fn local_color(prim: Primitive, point: vec3<f32>, normal: vec3<f32>, direction: vec3<f32>) -> vec3<f32> \x7b",
  "    let material = materials[u32(prim.header.y)];",
  "    let base = surface_color(prim, point, material.color_ambient.xyz);",
  "    var result = base * material.color_ambient.w * ambient_light.xyz * ambient_light.w;",
  "    let view_dir = normalize(-direction);",
  "",
  "    for (var i: u32 = 0u; i < LIGHT_COUNT; i = i + 1u) \x7b",
  "        let light = lights[i];",
  "        let to_light = light.position_intensity.xyz - point;",
  "        let light_distance = length(to_light);",
  "        let light_dir = normalize(to_light);",
  "",
  "        let blocker = intersect_scene(point, light_dir, T_MIN, light_distance);",
  "        if (blocker.found) \x7b",
  "            continue;",
  "        \x7d",
  "",
  "        let diffuse = base * material.coefficients.x * max(0.0, dot(normal, light_dir));",
  "        let reflect_dir = reflect(-light_dir, normal);",
  "        let cos_spec = dot(view_dir, reflect_dir);",
  "        // pow(0, 0) is undefined in WGSL; a zero exponent gives 1",
  "        var spec_factor = 1.0;",
  "        if (material.coefficients.z > 0.0) \x7b",
  "            spec_factor = pow(max(cos_spec, 0.0), material.coefficients.z);",
  "        \x7d",
  "        let specular = light.color.xyz * material.coefficients.y * spec_factor;",
  "        let attenuation = 1.0 / (light_distance * light_distance);",
  "        result = result + (diffuse + specular) * light.color.xyz * light.position_intensity.w * attenuation;",
  "    \x7d",
  "    return result;",
  "\x7d",
  ""]

/-- The functions that call each other for mirrored rays. -/
def reflectionGroup : List String := [
  "// rec:func trace",
  "fn trace(origin: vec3<f32>, direction: vec3<f32>) -> vec3<f32> \x7b",
  "    let hit = intersect_scene(origin, direction, T_MIN, T_MAX);",
  "    if (!hit.found) \x7b",
  "        return BACKGROUND;",
  "    \x7d",
  "    // rec:call shade",
  "    return shade(origin, direction, hit);",
  "\x7d",
  "// rec:endfunc trace",
  "",
  "// rec:func shade",
  "fn shade(origin: vec3<f32>, direction: vec3<f32>, hit: SceneHit) -> vec3<f32> \x7b",
  "    let prim = primitives[hit.index];",
  "    if (!known_surface(prim)) \x7b",
  "        return ERROR_COLOR;",
  "    \x7d",
  "    let point = origin + direction * hit.t;",
  "    let normal = primitive_normal(prim, point);",
  "    let reflective = materials[u32(prim.header.y)].coefficients.w;",
  "    var result = local_color(prim, point, normal, direction);",
  "    // rec:call reflection",
  "    result = result + reflection(point, direction, normal, reflective);",
  "    return result;",
  "\x7d",
  "// rec:endfunc shade",
  "",
  "// rec:func reflection",
  "fn reflection(point: vec3<f32>, direction: vec3<f32>, normal: vec3<f32>, reflective: f32) -> vec3<f32> \x7b",
  "    // rec:if bounce",
  "    if (reflective > 0.0) \x7b",
  "        let mirrored = normalize(reflect(direction, normal));",
  "        // rec:rec-call trace",
  "        let bounced = trace(point, mirrored);",
  "        return bounced * reflective;",
  "    \x7d",
  "    // rec:endif bounce",
  "    return NO_BOUNCE;",
  "\x7d",
  "// rec:endfunc reflection",
  ""]

/-- The view direction of a pixel, and the color of a fragment. -/
def entryPoint : List String := [
  "fn primary_direction(origin: vec3<f32>, look_at: vec3<f32>, resolution: vec2<f32>, pixel: vec2<f32>) -> vec3<f32> \x7b",
  "    let forward = normalize(look_at - origin);",
  "    let right = normalize(cross(forward, WORLD_UP));",
  "    let up = cross(right, forward);",
  "    let aspect = resolution.x / resolution.y;",
  "    let half_height = tan(radians(FIELD_OF_VIEW) / 2.0);",
  "    let half_width = aspect * half_height;",
  "    let u = pixel.x / resolution.x;",
  "    let v = pixel.y / resolution.y;",
  "    let direction = forward + right * ((2.0 * u - 1.0) * half_width) + up * ((1.0 - 2.0 * v) * half_height);",
  "    return normalize(direction);",
  "\x7d",
  "",
  "@fragment",
  "fn fs_main(@builtin(position) position: vec4<f32>) -> @location(0) vec4<f32> \x7b",
  "    load_scene();",
  "    let origin = frame.camera_origin.xyz;",
  "    let direction = primary_direction(origin, frame.camera_look_at.xyz, frame.resolution.xy, position.xy);",
  "    let color = trace(origin, direction);",
  "    return vec4<f32>(clamp(color, vec3<f32>(0.0), vec3<f32>(1.0)), 1.0);",
  "\x7d"]

/-- The lines of the template. -/
def templateLines : List String :=
  structures ++ constants ++ sceneData ++ sphereAndPlaneHits ++ coneHit ++
    cylinderHit ++ nearestHit ++ surfaces ++ localLight ++ reflectionGroup ++ entryPoint

/-- The text of the template. -/
def template : List Char := Text.unlines (templateLines.map String.toList)

end RayTracer.Shader
