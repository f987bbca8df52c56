import RayTracer.Proofs.Session.SessionRun
import RayTracer.Proofs.Shader.Structure

/-!
# A session changes as a whole or not at all

A scene, its shader, the camera and the generation belong together.  `SessionProgram.ofChange`
carries out a change the way a caller sees it: one field after the other, in a session that keeps
what was assigned before an error.  Since everything that can fail comes first, an error leaves the
session as it was.

* `Session.perform_eq_outcome` : **a change in place is the change made at once, or none.**
* `Session.perform_replaceScene`, `Session.perform_reload` : when the scene is replaced, and which
  error there is otherwise.
* `Session.snapshot_coherent` : a session that was started holds the shader of its scene whatever
  is done to it, and a generation stands for one scene.
-/

namespace RayTracer

/-- A program that changes a session in place.  If it stops with an error, the assignments before
the error have been made. -/
abbrev SessionProgram (P : Type) := ExceptT SessionError (StateM (Session P))

namespace SessionProgram

variable {P : Type}

/-- Stops with the error, if there is one. -/
def check {α : Type} (outcome : Except SessionError α) : SessionProgram P α :=
  ExceptT.mk (pure outcome)

/-- Sets a scene with its shader, field by field. -/
def assign (scene : Scene) (source : List Char) : SessionProgram P Unit := do
  modify fun session => { session with camera := scene.camera }
  modify fun session => { session with scene }
  modify fun session => { session with source }
  modify fun session => { session with generation := session.generation + 1 }

/-- Sets a scene if its shader could be built. -/
def install (scene : Scene) (built : Except UnrollError (List Char)) : SessionProgram P Unit := do
  let source ← check (built.mapError .unroll)
  assign scene source

/-- Carries out a change. -/
def ofChange : SessionChange → SessionProgram P Unit
  | .backend b => modify (·.setBackend b)
  | .camera c => modify (·.setCamera c)
  | .settings s => modify (·.setSettings s)
  | .replaceScene scene => install scene (Shader.build scene)
  | .reload _ none => check (.error (.scene .unreadable))
  | .reload name (some text) => do
    let scene ← check ((Scene.ofText name text).mapError .scene)
    install scene (Shader.build scene)

end SessionProgram

namespace Session

variable {P : Type} (session : Session P)

/-- What came of a change, and the session afterwards. -/
def perform (c : SessionChange) : Except SessionError Unit × Session P :=
  (SessionProgram.ofChange c).run session

/-- The session after some changes, whatever came of each. -/
def after (changes : List SessionChange) : Session P := changes.foldl Session.change session

/-- What a change attempts to make of the session. -/
def attempt : SessionChange → Except SessionError (Session P)
  | .backend b => .ok (session.setBackend b)
  | .camera c => .ok (session.setCamera c)
  | .settings s => .ok (session.setSettings s)
  | .replaceScene scene => (session.replaceScene scene).mapError .unroll
  | .reload name file => session.reload name file

/-- What comes of an attempt, and the session afterwards. -/
def outcome (attempted : Except SessionError (Session P)) : Except SessionError Unit × Session P :=
  (attempted.map fun _ => (), session.orKeep attempted)

/-- A scene has been set: the scene, its shader and its camera together, under the next generation.
Everything else is as before. -/
structure ReplacedBy (new : Scene) (session' : Session P) : Prop where
  scene : session'.scene = new
  source : Shader.build new = .ok session'.source
  camera : session'.camera = new.camera
  generation : session'.generation = session.generation + 1
  settings : session'.settings = session.settings
  backend : session'.backend = session.backend
  frames : session'.frames = session.frames
  shader : session'.shader = session.shader

variable {session}

/-! ### Programs -/

/-- A check comes before everything that depends on it, in place as in an attempt. -/
theorem run_check_bind {α : Type} (checked : Except SessionError α)
    {next : α → SessionProgram P Unit} {made : α → Except SessionError (Session P)}
    (h : ∀ a, (next a).run session = session.outcome (made a)) :
    (SessionProgram.check checked >>= next).run session = session.outcome (checked >>= made) := by
  cases checked with
  | error e => rfl
  | ok a => exact h a

theorem replaceScene_eq_map (new : Scene) :
    session.replaceScene new = (Shader.build new).map fun source => { session with
      scene := new, camera := new.camera, source, generation := session.generation + 1 } := by
  rw [replaceScene]
  exact bind_pure_comp _ _

/-- Whether the shader could be built is known before anything is assigned. -/
theorem run_install (new : Scene) (built : Except UnrollError (List Char)) :
    (SessionProgram.install new built).run session =
      session.outcome ((built.map fun source => { session with
        scene := new, camera := new.camera, source,
        generation := session.generation + 1 }).mapError .unroll) := by
  cases built <;> rfl

/-- **A change in place is the change made at once, or none.** -/
theorem perform_eq_outcome (c : SessionChange) :
    session.perform c = session.outcome (session.attempt c) := by
  cases c with
  | backend | camera | settings => rfl
  | replaceScene new =>
    rw [perform, SessionProgram.ofChange, run_install, attempt, replaceScene_eq_map]
  | reload name file =>
    cases file with
    | none => rfl
    | some text =>
      rw [perform, SessionProgram.ofChange, attempt, reload]
      refine run_check_bind _ fun new => ?_
      rw [run_install, replaceScene_eq_map]

/-- The session after a change in place is the session after the change. -/
theorem perform_snd (c : SessionChange) : (session.perform c).2 = session.change c := by
  rw [perform_eq_outcome]
  cases c with
  | backend | camera | settings | reload => rfl
  | replaceScene new =>
    rw [change, attempt, outcome]
    generalize session.replaceScene new = replaced
    cases replaced <;> rfl

/-- An error leaves the session as it was. -/
theorem change_eq_self_of_error {c : SessionChange} {e : SessionError}
    (h : (session.perform c).1 = .error e) : session.change c = session := by
  rw [← perform_snd]
  rw [perform_eq_outcome] at h ⊢
  generalize session.attempt c = attempted at h ⊢
  cases attempted with
  | error => rfl
  | ok => cases h

/-! ### Setting a scene -/

theorem replacedBy_of_replaceScene {new : Scene} {session' : Session P}
    (h : session.replaceScene new = .ok session') : session.ReplacedBy new session' := by
  obtain ⟨source, hbuild, hsession⟩ := bind_eq_ok.1 h
  obtain rfl := Except.ok.inj hsession
  exact ⟨rfl, hbuild, rfl, rfl, rfl, rfl, rfl, rfl⟩

theorem exists_replaceScene {new : Scene} (h : new.maxDepth ≠ 0) :
    ∃ session', session.replaceScene new = .ok session' := by
  obtain ⟨source, hbuild⟩ := (Shader.exists_build_iff new).2 h
  exact ⟨_, bind_eq_ok.2 ⟨source, hbuild, rfl⟩⟩

theorem replaceScene_eq_error {new : Scene} (h : new.maxDepth = 0) :
    session.replaceScene new = .error .zeroDepth := by
  rw [replaceScene, Shader.build_eq_zeroDepth h]
  rfl

theorem perform_of_attempt {c : SessionChange} {session' : Session P}
    (h : session.attempt c = .ok session') : session.perform c = (.ok (), session') := by
  rw [perform_eq_outcome, h]
  rfl

theorem perform_of_attempt_error {c : SessionChange} {e : SessionError}
    (h : session.attempt c = .error e) : session.perform c = (.error e, session) := by
  rw [perform_eq_outcome, h]
  rfl

/-- **A scene is set exactly if it has a level.** -/
theorem perform_replaceScene (session : Session P) (new : Scene) :
    (new.maxDepth = 0 →
      session.perform (.replaceScene new) = (.error (.unroll .zeroDepth), session)) ∧
    (new.maxDepth ≠ 0 → ∃ session',
      session.perform (.replaceScene new) = (.ok (), session') ∧
        session.ReplacedBy new session') := by
  refine ⟨fun hzero => perform_of_attempt_error ?_, fun hne => ?_⟩
  · rw [attempt, replaceScene_eq_error hzero]
    rfl
  · obtain ⟨session', hreplaced⟩ : ∃ session', session.replaceScene new = .ok session' :=
      exists_replaceScene hne
    exact ⟨session', perform_of_attempt (mapError_eq_ok.2 hreplaced),
      replacedBy_of_replaceScene hreplaced⟩

/-- **A file is loaded exactly if it can be read and describes a scene**; no scene that is
described fails later. -/
theorem perform_reload (session : Session P) (name : String) :
    session.perform (.reload name none) = (.error (.scene .unreadable), session) ∧
    (∀ text e, Scene.ofText name text = .error e →
      session.perform (.reload name (some text)) = (.error (.scene e), session)) ∧
    (∀ text new, Scene.ofText name text = .ok new → ∃ session',
      session.perform (.reload name (some text)) = (.ok (), session') ∧
        session.ReplacedBy new session') := by
  refine ⟨perform_of_attempt_error rfl, fun text e rejected => ?_, fun text new accepted => ?_⟩
  · refine perform_of_attempt_error ?_
    rw [attempt, reload, rejected]
    rfl
  · obtain ⟨session', hreplaced⟩ : ∃ session', session.replaceScene new = .ok session' :=
      exists_replaceScene (Scene.maxDepth_ne_zero_of_ofText accepted)
    refine ⟨session', perform_of_attempt ?_, replacedBy_of_replaceScene hreplaced⟩
    rw [attempt, reload, accepted]
    exact bind_eq_ok.2 ⟨new, rfl, mapError_eq_ok.2 hreplaced⟩

/-! ### Runs -/

/-- **What a change does**: nothing to scene, shader and generation, or it sets a scene. -/
theorem change_keeps_or_replaces (session : Session P) (c : SessionChange) :
    ((session.change c).scene = session.scene ∧ (session.change c).source = session.source ∧
      (session.change c).generation = session.generation) ∨
    ∃ new, session.ReplacedBy new (session.change c) := by
  rw [← perform_snd]
  cases c with
  | backend | camera | settings => exact .inl ⟨rfl, rfl, rfl⟩
  | replaceScene new =>
    obtain ⟨hfails, hdone⟩ := session.perform_replaceScene new
    by_cases hzero : new.maxDepth = 0
    · rw [hfails hzero]
      exact .inl ⟨rfl, rfl, rfl⟩
    · obtain ⟨session', hperform, hreplaced⟩ := hdone hzero
      rw [hperform]
      exact .inr ⟨new, hreplaced⟩
  | reload name file =>
    obtain ⟨hunreadable, hrejected, haccepted⟩ := session.perform_reload name
    cases file with
    | none =>
      rw [hunreadable]
      exact .inl ⟨rfl, rfl, rfl⟩
    | some text =>
      cases hread : Scene.ofText name text with
      | error e =>
        rw [hrejected text e hread]
        exact .inl ⟨rfl, rfl, rfl⟩
      | ok new =>
        obtain ⟨session', hperform, hreplaced⟩ := haccepted text new hread
        rw [hperform]
        exact .inr ⟨new, hreplaced⟩

/-- The session holds the shader of its scene. -/
def IsCoherent (session : Session P) : Prop := Shader.build session.scene = .ok session.source

theorem IsCoherent.start {scene : Scene} {settings : Settings}
    (h : Session.start scene settings = .ok session) : session.IsCoherent := by
  obtain ⟨source, hbuild, hsession⟩ := bind_eq_ok.1 h
  obtain rfl := Except.ok.inj hsession
  exact hbuild

theorem IsCoherent.change (h : session.IsCoherent) (c : SessionChange) :
    (session.change c).IsCoherent := by
  rcases session.change_keeps_or_replaces c with ⟨hscene, hsource, -⟩ | ⟨new, hreplaced⟩
  · rwa [IsCoherent, hscene, hsource]
  · rw [IsCoherent, hreplaced.scene]
    exact hreplaced.source

theorem IsCoherent.after (h : session.IsCoherent) (changes : List SessionChange) :
    (session.after changes).IsCoherent := by
  induction changes generalizing session with
  | nil => exact h
  | cons c changes ih => exact ih (h.change c)

/-- The session is an older state of the other one, and one of another scene only if that has a
later generation. -/
structure Precedes (session session' : Session P) : Prop where
  le : session.generation ≤ session'.generation
  same : session.generation = session'.generation →
    session'.scene = session.scene ∧ session'.source = session.source

theorem Precedes.change {first : Session P} (h : first.Precedes session) (c : SessionChange) :
    first.Precedes (session.change c) := by
  rcases session.change_keeps_or_replaces c with ⟨hscene, hsource, hgeneration⟩ | ⟨new, hreplaced⟩
  · refine ⟨hgeneration ▸ h.le, fun heq => ?_⟩
    rw [hscene, hsource]
    exact h.same (heq.trans hgeneration)
  · -- the new scene is of a later generation than all before it
    have hlt : first.generation < (session.change c).generation := by
      rw [hreplaced.generation]
      exact Nat.lt_succ_of_le h.le
    exact ⟨hlt.le, fun heq => absurd heq hlt.ne⟩

theorem Precedes.after {first : Session P} (h : first.Precedes session)
    (changes : List SessionChange) : first.Precedes (session.after changes) := by
  induction changes generalizing session with
  | nil => exact h
  | cons c changes ih => exact ih (h.change c)

/-- **A session is coherent, and changes as a whole or not at all.**  Whatever was done to a session
since it was started, it holds the shader of its scene; an error leaves it as it was; a scene is set
together with its shader and its camera, under a new generation, and fails to be set for the stated
reasons only; and a later state of the same generation has the same scene and the same shader. -/
theorem snapshot_coherent {scene : Scene} {settings : Settings} {started : Session P}
    (h : Session.start scene settings = .ok started) (changes : List SessionChange) :
    let session := started.after changes
    Shader.build session.scene = .ok session.source ∧
      (∀ c, (session.perform c).2 = session.change c ∧
        ∀ e, (session.perform c).1 = .error e → session.change c = session) ∧
      (∀ new : Scene,
        (new.maxDepth = 0 →
          session.perform (.replaceScene new) = (.error (.unroll .zeroDepth), session)) ∧
        (new.maxDepth ≠ 0 → ∃ session',
          session.perform (.replaceScene new) = (.ok (), session') ∧
            session.ReplacedBy new session')) ∧
      (∀ name : String,
        session.perform (.reload name none) = (.error (.scene .unreadable), session) ∧
        (∀ text e, Scene.ofText name text = .error e →
          session.perform (.reload name (some text)) = (.error (.scene e), session)) ∧
        (∀ text new, Scene.ofText name text = .ok new → ∃ session',
          session.perform (.reload name (some text)) = (.ok (), session') ∧
            session.ReplacedBy new session')) ∧
      ∀ later, session.generation ≤ (session.after later).generation ∧
        (session.generation = (session.after later).generation →
          (session.after later).scene = session.scene ∧
            (session.after later).source = session.source) := by
  intro session
  refine ⟨(IsCoherent.start h).after changes, fun c => ⟨perform_snd c, fun e => ?_⟩,
    session.perform_replaceScene, session.perform_reload, fun later => ?_⟩
  · exact change_eq_self_of_error
  · have here : session.Precedes session := ⟨Nat.le_refl _, fun _ => ⟨rfl, rfl⟩⟩
    exact ⟨(here.after later).le, (here.after later).same⟩

open SessionRun (emptyScene) in
/-- A scene with two levels is set, and then one without any is refused. -/
theorem snapshot_emptyScene : ∃ started session : Session Nat,
    Session.start (emptyScene 1) ⟨1, 1, 1, false⟩ = .ok started ∧
      started.after [.replaceScene (emptyScene 2), .backend .compiled] = session ∧
      session.generation = 1 ∧ session.backend = .compiled ∧
      Shader.build (emptyScene 2) = .ok session.source ∧
      session.perform (.replaceScene (emptyScene 0)) = (.error (.unroll .zeroDepth), session) := by
  obtain ⟨source, hbuild⟩ := (Shader.exists_build_iff (emptyScene 1)).2 (by decide)
  obtain ⟨started, h⟩ : ∃ started : Session Nat,
      Session.start (emptyScene 1) ⟨1, 1, 1, false⟩ = .ok started :=
    ⟨_, bind_eq_ok.2 ⟨source, hbuild, rfl⟩⟩
  obtain ⟨session, hset, replaced⟩ := (started.perform_replaceScene (emptyScene 2)).2 (by decide)
  have hafter : started.after [.replaceScene (emptyScene 2), .backend .compiled] =
      session.setBackend .compiled := by
    rw [after, List.foldl_cons, ← perform_snd, hset]
    rfl
  have hgeneration : started.generation = 0 := by
    obtain ⟨source, rfl⟩ := start_eq_ok h
    rfl
  obtain ⟨coherent, -, set, -⟩ :=
    snapshot_coherent h [.replaceScene (emptyScene 2), .backend .compiled]
  rw [hafter] at coherent set
  have hscene : (session.setBackend .compiled).scene = emptyScene 2 := replaced.scene
  rw [hscene] at coherent
  exact ⟨started, _, h, hafter, replaced.generation.trans (congrArg (· + 1) hgeneration), rfl,
    coherent, (set (emptyScene 0)).1 (by decide)⟩

end Session

end RayTracer
