import RayTracer.Description.Loading
import RayTracer.Render
import RayTracer.Session.FrameSlot
import RayTracer.Session.ShaderSlot
import RayTracer.Shader.Build
import RayTracer.Shader.Uniforms

/-!
# Sessions

A `Session` ties a scene to what is shown of it: the camera, which the user may move, the settings
of the direct renderer, the shader generated from the scene, and the two slots through which
background threads hand over frames and programs.

The shader is generated when the scene is set, so a session always holds the shader of its scene.
Each new scene gets a new generation, and only programs of that generation count as current.
-/

namespace RayTracer

/-- What feeds the display. -/
inductive Backend where
  /-- The direct renderer. -/
  | direct
  /-- The compiled shader. -/
  | compiled
  deriving DecidableEq, Repr

/-- What the display shows. -/
inductive Display (P : Type) where
  /-- A frame of the direct renderer. -/
  | frame (f : Frame)
  /-- The program of the current scene, or an older one while that is being compiled. -/
  | program (p : P)
  /-- A compile is on its way and there is no older program. -/
  | compiling
  /-- There is no program to show; the last frame, if any. -/
  | fallback (f : Option Frame)

/-- Why a scene could not be set. -/
inductive SessionError where
  | scene (e : SceneError)
  | unroll (e : UnrollError)

/-- The wording of an error. -/
def SessionError.message : SessionError → String
  | scene e => e.message
  | unroll e => s!"shader generation failed: {e.message}"

/-- A scene with its camera, both backends and their state. -/
structure Session (P : Type) where
  scene : Scene
  camera : Camera Float32
  settings : Settings
  backend : Backend := .direct
  /-- The shader of the scene. -/
  source : List Char
  /-- Number of scenes that were set before this one.  It stands for a word of 64 bits, which no run
  exhausts: that would take `2 ^ 64` replacements. -/
  generation : Nat := 0
  frames : FrameSlot := {}
  shader : ShaderSlot P := {}

namespace Session

variable {P : Type}

/-- A session that shows a scene from its own camera. -/
def start (scene : Scene) (settings : Settings) : Except UnrollError (Session P) := do
  let source ← Shader.build scene
  return { scene, camera := scene.camera, settings, source }

variable (session : Session P)

/-! ### Changes by the user -/

/-- Selects what feeds the display. -/
def setBackend (backend : Backend) : Session P := { session with backend }

/-- Moves the camera. -/
def setCamera (camera : Camera Float32) : Session P := { session with camera }

/-- Changes the settings of the direct renderer. -/
def setSettings (settings : Settings) : Session P := { session with settings }

/-- Sets another scene and puts the camera at its pose.  Nothing changes if no shader can be
generated for it. -/
def replaceScene (scene : Scene) : Except UnrollError (Session P) := do
  let source ← Shader.build scene
  return { session with
    scene, camera := scene.camera, source, generation := session.generation + 1 }

/-- Sets the scene of the given name that a file describes; `none` stands for a file that cannot be
read. -/
def reload (name : String) (file : Option String) : Except SessionError (Session P) :=
  match file with
  | none => .error (.scene .unreadable)
  | some text => do
    let scene ← (Scene.ofText name text).mapError .scene
    (session.replaceScene scene).mapError .unroll

/-! ### Direct rendering -/

/-- The image of the scene as the session stands. -/
def image : Frame := render session.scene session.camera session.settings

/-- Renders a frame without interruption, and tells whether it was published. -/
def requestRender : Bool × Session P :=
  let (generation, frames) := session.frames.begin
  let (published, frames) := frames.publish generation session.image
  (published, { session with frames })

/-- Renders a frame without interruption and gives it back, unless a newer render has begun. -/
def renderBlocking : Option Frame × Session P :=
  let (published, session) := session.requestRender
  (if published then session.frames.latest else none, session)

/-! ### The compiled shader -/

/-- The request to compile the shader of the scene. -/
def compileRequest : CompileRequest := ⟨session.source, session.generation⟩

/-- The program of the current scene. -/
def program? : Option P := session.shader.state.current? session.generation

/-- Requests a compile and runs it to its end without interruption. -/
def compileNow (compile : List Char → Except String P) : Session P :=
  let (shader, thread) := CompileThread.settle session.shader (.start session.compileRequest)
  match thread with
  | .compiling request =>
    let (shader, _) := CompileThread.settle shader (.returned request (compile request.source))
    { session with shader }
  | _ => { session with shader }

/-- What is shown for a compiled shader, given the four readings that decide it in the order in
which they are taken: the state, the pending request, the state again if that request is not for
the current generation, and the state from which an older program is taken. -/
def displayCompiled (generation : Nat) (first : ShaderState P) (pending : Option CompileRequest)
    (second third : ShaderState P) (latest : Option Frame) : Display P :=
  match first.current? generation with
  | some p => .program p
  | none =>
    if pending.any (·.generation == generation) || second.compiling? == some generation then
      match third.program? with
      | some p => .program p
      | none => .compiling
    else .fallback latest

/-- What the display shows. -/
def display : Display P :=
  match session.backend with
  | .direct =>
    match session.frames.latest with
    | some f => .frame f
    | none => .fallback none
  | .compiled =>
    displayCompiled session.generation session.shader.state session.shader.pending
      session.shader.state session.shader.state session.frames.latest

/-- The inputs of the shader for the pose of the camera and the size of the image. -/
def uniforms : FrameUniforms :=
  .ofCamera session.camera session.settings.width session.settings.height

end Session

end RayTracer
