import RayTracer.Program.Artifact
import RayTracer.Program.CommandLine
import RayTracer.Shader.Program

/-!
# The program

`run` loads the scene, renders it and writes the image, and on demand generates and compiles the
shader.  It reaches the outside only through a `Host`, which reads and writes files, shows messages
and brings a compiler of shaders along, so the same program runs on a file system and on a directory
held in memory.

A file that cannot be written is reported and does not change the exit code.
-/

namespace RayTracer

/-- The outside of the program. -/
structure Host (m : Type → Type) where
  /-- The text of a file, if it can be read. -/
  read : String → m (Option String)
  /-- Writes a file, and tells whether that succeeded. -/
  write : String → Artifact → m Bool
  /-- Shows a message. -/
  tell : LogEntry → m Unit
  /-- Compiles the text of a shader, or says what is wrong with it. -/
  compile : List Char → Except String CompiledShader

namespace Program

variable {m : Type → Type} [Monad m] (host : Host m) (options : Options)

/-- Shows a message if it is important enough. -/
def log (level : LogLevel) (message : String) : m Unit :=
  if level.rank ≤ options.logLevel.rank then host.tell ⟨level, message⟩ else pure ()

/-- The counts of the entities of a scene, for messages. -/
def counts (scene : Scene) : String :=
  s!"{scene.primitives.length} primitives, {scene.lights.length} lights, " ++
    s!"{scene.materials.size} materials"

/-- Loads the scene. -/
def load : m (Except SceneError Scene) := do
  match ← host.read options.scene with
  | none => return .error .unreadable
  | some text =>
    match Scene.ofText (Path.stem options.scene) text with
    | .error e => return .error e
    | .ok scene =>
      log host options .info s!"Loaded scene '{scene.name}': {counts scene}"
      return .ok scene

/-- Writes a file and shows one message for its success and another for its failure. -/
def write (path : String) (artifact : Artifact) (written failed : String) : m Unit := do
  if ← host.write path artifact then log host options .info written
  else log host options .warn failed

/-- Writes the image. -/
def save (format : ImageFormat) (frame : Frame) : m Unit :=
  let path := options.output
  let artifact := Artifact.image format frame
  match format with
  | .png => write host options path artifact s!"Image saved as {path}" "Failed to save image"
  | .exr =>
    write host options path artifact s!"HDR image saved as EXR: {path}" "Failed to save EXR image"

/-- Shows what became of the compile. -/
def report : Display CompiledShader → m Unit
  | .program p =>
    log host options .info <| s!"Compiled program ready: {p.functionCount} functions, " ++
      s!"entry point present: {p.hasEntryPoint}"
  | .fallback _ =>
    log host options .warn "Compiled backend unavailable, keeping the direct render"
  | .compiling | .frame _ => pure ()

/-- Renders the scene in a session, and compiles its shader if that is asked for. -/
def present (format : ImageFormat) (session : Session CompiledShader) : m UInt32 := do
  if let some path := options.emitShader then
    write host options path (.text session.source) s!"Generated shader written to {path}"
      s!"Failed to write shader to {path}"
  if options.backend ≠ session.backend then
    log host options .info "Switching to Compiled backend"
  let session := session.setBackend options.backend
  let compiles := options.backend = .compiled ∨ options.emitShader.isSome
  let session := if compiles then session.compileNow host.compile else session
  match session.renderBlocking with
  | (none, _) =>
    log host options .error "Render was superseded before it completed"
    return 1
  | (some frame, session) =>
    if compiles then report host options session.display
    save host options format frame
    return 0

/-- Runs the program and gives its exit code. -/
def run : m UInt32 := do
  match ImageFormat.ofPath? options.output with
  | none =>
    let extension := (Path.extension? options.output).getD ""
    log host options .error <| s!"Unsupported file extension '{extension}'. " ++
      "Only .png and .exr formats are supported."
    return 2
  | some format =>
    match ← load host options with
    | .error e =>
      log host options .error s!"Failed to load scene {options.scene}: {e.message}"
      return 1
    | .ok scene =>
      let scene := match options.maxDepth with
        | some depth => scene.withMaxDepth depth
        | none => scene
      log host options .info
        s!"Scene '{scene.name}': {counts scene}, max depth {scene.maxDepth.toNat}"
      let settings : Settings := ⟨options.width, options.height, options.quality, options.iterative⟩
      match Session.start scene settings with
      | .error e =>
        log host options .error s!"Shader generation failed: {e.message}"
        return 1
      | .ok session => present host options format session

end Program

end RayTracer
