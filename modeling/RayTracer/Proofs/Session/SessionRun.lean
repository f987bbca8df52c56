import RayTracer.Proofs.Outcome
import RayTracer.Proofs.Session.SingleFlight
import RayTracer.Proofs.Shader.Template
import RayTracer.Session.Basic

/-!
# A stale program is never presented as current

A `SessionRun` is a session with the threads that were started for it.  Requests, changes by the
user and turns of the threads follow each other in any order; a request is made for the shader that
the session has at that moment, but its thread may run much later, when the session has another
shader and another generation.

* `SessionRun.Reachable.pool` : the threads of a session form a reachable pool.
* `SessionRun.Reachable.made` : every request belongs to a scene that the session has or had, and
  if it is of the session's generation, its text is the session's shader.
* `SessionRun.current_program` : the current program was compiled from the session's shader.
-/

namespace RayTracer

/-- What the user can change about a session. -/
inductive SessionChange where
  | backend (b : Backend)
  | camera (c : Camera Float32)
  | settings (s : Settings)
  | replaceScene (scene : Scene)
  | reload (name : String) (file : Option String)

namespace CompilePool

variable {P : Type}

/-- Thread number `i` was started with the request. -/
def StartedWith (pool : CompilePool P) (i : Nat) (r : CompileRequest) : Prop :=
  pool.threads[i]? = some (.start r) ∨ .parked i r ∈ pool.history

/-- A thread goes on that has parked its request before, or does so now. -/
theorem StartedWith.of_set {slot slot' : ShaderSlot P} {threads : List (CompileThread P)}
    {h h' : CompileHistory P} {i j : Nat} {t' : CompileThread P} {r : CompileRequest}
    (started : StartedWith ⟨slot', threads.set i t', h'⟩ j r) (ht' : t'.hasParked = true)
    (hold : .parked j r ∈ h' → .parked j r ∈ h) : StartedWith ⟨slot, threads, h⟩ j r := by
  rcases started with hj | hj
  · rcases getElem?_set_cases hj with ⟨-, rfl⟩ | ⟨-, hj⟩
    · cases ht'
    · exact .inl hj
  · exact .inr (hold hj)

/-- A turn starts no thread. -/
theorem startedWith_of_turn {pool : CompilePool P} {next : CompileTurn P} {j : Nat}
    {r : CompileRequest} (started : (pool.turn next).StartedWith j r) : pool.StartedWith j r := by
  have hmove := move_turn pool next
  generalize pool.turn next = pool' at started hmove
  cases hmove with
  | @park i r' thread =>
    -- the request that is parked now is the one that the thread was started with
    by_cases hnew : j = i ∧ r = r'
    · obtain ⟨rfl, rfl⟩ := hnew
      exact .inl thread
    · exact started.of_set rfl (by simp [hnew])
  | enter | refused | drained | release | retry | leave => exact started.of_set rfl id
  | take | call | compilerReturns | announce => exact started.of_set rfl (by simp)
  | idle => exact started

theorem Reachable.lt_length {pool : CompilePool P} (hr : pool.Reachable) {i : Nat}
    {r : CompileRequest} (started : pool.StartedWith i r) : i < pool.threads.length := by
  rcases started with hi | hi
  · exact (List.getElem?_eq_some_iff.1 hi).1
  · have hmem : i ∈ pool.history.parkedJobs.map CompileJob.thread :=
      List.mem_map.2 ⟨⟨i, r⟩, mem_parkedJobs.2 hi, rfl⟩
    obtain ⟨t, ht, -⟩ := (hr.numbering.mem_iff i).1 hmem
    exact (List.getElem?_eq_some_iff.1 ht).1

end CompilePool

namespace Session

variable {P : Type}

/-- What an attempt gives, or the session as it is if the attempt fails. -/
def orKeep {ε : Type} (session : Session P) : Except ε (Session P) → Session P
  | .ok session' => session'
  | .error _ => session

/-- The session after a change. -/
def change (session : Session P) : SessionChange → Session P
  | .backend b => session.setBackend b
  | .camera c => session.setCamera c
  | .settings s => session.setSettings s
  | .replaceScene scene => session.orKeep (session.replaceScene scene)
  | .reload name file => session.orKeep (session.reload name file)

/-- The request is for a scene that the session has or had, and if its generation is that of the
session, then its text is the shader of the session. -/
structure Made (session : Session P) (r : CompileRequest) : Prop where
  le : r.generation ≤ session.generation
  source : r.generation = session.generation → r.source = session.source

variable {session : Session P}

theorem start_eq_ok {scene : Scene} {settings : Settings}
    (h : Session.start scene settings = .ok session) :
    ∃ source, session = { scene, camera := scene.camera, settings, source } := by
  obtain ⟨source, -, hsession⟩ := bind_eq_ok.1 h
  exact ⟨source, (Except.ok.inj hsession).symm⟩

theorem replaceScene_eq_ok {scene : Scene} {session' : Session P}
    (h : session.replaceScene scene = .ok session') : ∃ source, session' =
      { session with
        scene, camera := scene.camera, source, generation := session.generation + 1 } := by
  obtain ⟨source, -, hsession⟩ := bind_eq_ok.1 h
  exact ⟨source, (Except.ok.inj hsession).symm⟩

theorem reload_eq_ok {name : String} {file : Option String} {session' : Session P}
    (h : session.reload name file = .ok session') :
    ∃ scene, session.replaceScene scene = .ok session' := by
  cases file with
  | none => cases h
  | some text =>
    obtain ⟨scene, -, hscene⟩ := bind_eq_ok.1 h
    exact ⟨scene, mapError_eq_ok.1 hscene⟩

theorem orKeep_cases {ε : Type} (attempt : Except ε (Session P)) :
    session.orKeep attempt = session ∨ attempt = .ok (session.orKeep attempt) := by
  cases attempt with
  | error e => exact .inl rfl
  | ok session' => exact .inr rfl

/-- **A change keeps the shader and its generation, or replaces the scene.** -/
theorem change_cases (session : Session P) (c : SessionChange) :
    ((session.change c).shader = session.shader ∧
      (session.change c).generation = session.generation ∧
      (session.change c).source = session.source) ∨
    ∃ scene, session.replaceScene scene = .ok (session.change c) := by
  cases c with
  | backend | camera | settings => exact .inl ⟨rfl, rfl, rfl⟩
  | replaceScene scene =>
    rcases orKeep_cases (session.replaceScene scene) with hkept | hdone
    · left
      rw [change, hkept]
      exact ⟨rfl, rfl, rfl⟩
    · exact .inr ⟨scene, hdone⟩
  | reload name file =>
    rcases orKeep_cases (session.reload name file) with hkept | hdone
    · left
      rw [change, hkept]
      exact ⟨rfl, rfl, rfl⟩
    · exact .inr (reload_eq_ok hdone)

theorem shader_change (session : Session P) (c : SessionChange) :
    (session.change c).shader = session.shader := by
  rcases session.change_cases c with ⟨hshader, -⟩ | ⟨scene, h⟩
  · exact hshader
  · obtain ⟨source, hreplaced⟩ := replaceScene_eq_ok h
    rw [hreplaced]

theorem Made.change {r : CompileRequest} (made : session.Made r) (c : SessionChange) :
    (session.change c).Made r := by
  rcases session.change_cases c with ⟨-, hgeneration, hsource⟩ | ⟨scene, h⟩
  · refine ⟨hgeneration ▸ made.le, fun hg => ?_⟩
    rw [hsource]
    exact made.source (hg.trans hgeneration)
  · -- the request is older than the new scene
    obtain ⟨source, hreplaced⟩ := replaceScene_eq_ok h
    have hlt : r.generation < (session.change c).generation := by
      rw [hreplaced]
      exact Nat.lt_succ_of_le made.le
    exact ⟨Nat.le_of_lt hlt, fun hg => absurd hg (Nat.ne_of_lt hlt)⟩

end Session

/-- A session, the threads that compile for it and what they did. -/
structure SessionRun (P : Type) where
  session : Session P
  threads : List (CompileThread P) := []
  history : CompileHistory P := []

open CompilePool (soloTurns soloEvents foldl_soloTurns)

namespace SessionRun

variable {P : Type}

/-- The threads with the slot of the session. -/
def pool (run : SessionRun P) : CompilePool P := ⟨run.session.shader, run.threads, run.history⟩

/-- The run after a change by the user. -/
def change (run : SessionRun P) (c : SessionChange) : SessionRun P :=
  { run with session := run.session.change c }

/-- The run after a request to compile the shader, which starts a thread. -/
def request (run : SessionRun P) : SessionRun P :=
  { run with threads := run.threads ++ [.start run.session.compileRequest] }

/-- The run with its threads and their slot as in a pool. -/
def withPool (run : SessionRun P) (pool : CompilePool P) : SessionRun P :=
  ⟨{ run.session with shader := pool.slot }, pool.threads, pool.history⟩

/-- The run after a turn of the threads. -/
def turn (run : SessionRun P) (next : CompileTurn P) : SessionRun P :=
  run.withPool (run.pool.turn next)

/-- The runs that begin with a new session. -/
inductive Reachable : SessionRun P → Prop
  | start {scene : Scene} {settings : Settings} {session : Session P}
      (h : Session.start scene settings = .ok session) : Reachable ⟨session, [], []⟩
  | change {run : SessionRun P} (hr : Reachable run) (c : SessionChange) : Reachable (run.change c)
  | request {run : SessionRun P} (hr : Reachable run) : Reachable run.request
  | turn {run : SessionRun P} (hr : Reachable run) (next : CompileTurn P) :
      Reachable (run.turn next)

variable {run : SessionRun P}

theorem Reachable.turns (hr : Reachable run) (schedule : List (CompileTurn P)) :
    Reachable (schedule.foldl SessionRun.turn run) := by
  induction schedule generalizing run with
  | nil => exact hr
  | cons next schedule ih => exact ih (hr.turn next)

theorem foldl_turn (schedule : List (CompileTurn P)) :
    schedule.foldl turn run = run.withPool (schedule.foldl CompilePool.turn run.pool) := by
  induction schedule generalizing run with
  | nil => rfl
  | cons next schedule ih => exact ih

theorem foldl_alone {i : Nat} {r : CompileRequest} (hi : run.threads[i]? = some (.start r))
    (free : run.session.shader.gateHeld = false) (result : Except String P) :
    (soloTurns i result).foldl turn run = run.withPool
      ⟨⟨false, none, (run.session.shader.state.startCompile r).finishCompile r result⟩,
        run.threads.set i (.done true), soloEvents i r result ++ run.history⟩ := by
  have alone := foldl_soloTurns (show run.pool.threads[i]? = some (.start r) from hi) free result
  rw [foldl_turn, alone]
  rfl

/-- **The threads of a session form a reachable pool.** -/
theorem Reachable.pool (hr : Reachable run) : run.pool.Reachable := by
  induction hr with
  | start h =>
    obtain ⟨source, hsession⟩ := Session.start_eq_ok h
    rw [hsession]
    exact .init
  | @change run _ c ih =>
    have same : (run.change c).pool = run.pool := by
      simp [SessionRun.pool, SessionRun.change, Session.shader_change]
    rw [same]
    exact ih
  | request _ ih => exact ih.spawn _
  | turn _ next ih => exact ih.turn next

/-- A request starts one thread, with the shader of the session. -/
theorem startedWith_of_request {i : Nat} {r : CompileRequest}
    (started : run.request.pool.StartedWith i r) :
    run.pool.StartedWith i r ∨ (i = run.threads.length ∧ r = run.session.compileRequest) := by
  rcases started with hi | hi
  · rcases getElem?_append_cases hi with ⟨hlast, hnew⟩ | hi
    · exact .inr ⟨hlast, CompileThread.start.inj hnew⟩
    · exact .inl (.inl hi)
  · exact .inl (.inr hi)

/-- **Every request belongs to a scene that the session has or had.** -/
theorem Reachable.made (hr : Reachable run) {i : Nat} {r : CompileRequest}
    (started : run.pool.StartedWith i r) : run.session.Made r := by
  induction hr with
  | start =>
    rcases started with hi | hi
    · cases hi
    · cases hi
  | change _ c ih => exact (ih started).change c
  | request _ ih =>
    rcases startedWith_of_request started with hold | ⟨-, rfl⟩
    · exact ih hold
    · exact ⟨Nat.le_refl _, fun _ => rfl⟩
  | turn _ next ih =>
    have made := ih (CompilePool.startedWith_of_turn started)
    exact ⟨made.le, made.source⟩

/-! ### Two generations -/

theorem change_replaceScene {scene : Scene} {source : List Char}
    (h : Shader.build scene = .ok source) (run : SessionRun P) :
    run.change (.replaceScene scene) = { run with
      session := { run.session with
        scene, camera := scene.camera, source, generation := run.session.generation + 1 } } := by
  have hreplaced : run.session.replaceScene scene = .ok { run.session with
      scene, camera := scene.camera, source, generation := run.session.generation + 1 } := by
    rw [Session.replaceScene, h]
    rfl
  rw [change, Session.change, hreplaced]
  rfl

/-- A scene without entities. -/
def emptyScene (levels : UInt32) : Scene where
  camera := ⟨⟨0, 0, 0⟩, ⟨0, 0, -1⟩⟩
  maxDepth := levels

/-- A new session, given the shader of its scene. -/
def emptySession (levels : UInt32) (source : List Char) : Session Nat where
  scene := emptyScene levels
  camera := (emptyScene levels).camera
  settings := ⟨1, 1, 1, false⟩
  source := source

/-- A request, a scene with more levels, and a request for that scene.  No thread has done anything
yet. -/
def twoGenerations (source : List Char) : SessionRun Nat :=
  ((request ⟨emptySession 1 source, [], []⟩).change (.replaceScene (emptyScene 2))).request

theorem twoGenerations_eq {source source' : List Char}
    (h : Shader.build (emptyScene 2) = .ok source') :
    twoGenerations source = ⟨{ emptySession 2 source' with generation := 1 },
      [.start ⟨source, 0⟩, .start ⟨source', 1⟩], []⟩ := by
  rw [twoGenerations, change_replaceScene h]
  rfl

theorem exists_twoGenerations : ∃ source source', Shader.build (emptyScene 2) = .ok source' ∧
    (twoGenerations source).Reachable := by
  obtain ⟨source, h⟩ := (Shader.exists_build_iff (emptyScene 1)).2 (by decide)
  obtain ⟨source', h'⟩ := (Shader.exists_build_iff (emptyScene 2)).2 (by decide)
  have hstart : Session.start (emptyScene 1) ⟨1, 1, 1, false⟩ = .ok (emptySession 1 source) := by
    rw [Session.start, h]
    rfl
  exact ⟨source, source', h', ((Reachable.start hstart).request.change _).request⟩

/-- The two threads run one after the other, in the order of the requests. -/
theorem foldl_inOrder {source source' : List Char}
    (h : Shader.build (emptyScene 2) = .ok source') :
    (soloTurns 1 (.ok 2)).foldl turn ((soloTurns 0 (.ok 1)).foldl turn (twoGenerations source)) =
      ⟨{ emptySession 2 source' with generation := 1, shader := ⟨false, none, .ready 1 2⟩ },
        [.done true, .done true],
        soloEvents 1 ⟨source', 1⟩ (.ok 2) ++ soloEvents 0 ⟨source, 0⟩ (.ok 1)⟩ := by
  rw [twoGenerations_eq h, foldl_alone (i := 0) (r := ⟨source, 0⟩),
    foldl_alone (i := 1) (r := ⟨source', 1⟩)]
  all_goals rfl

/-! ### The current program -/

theorem program?_eq_some {session : Session P} {p : P} :
    session.program? = some p ↔ session.shader.state = .ready session.generation p := by
  unfold Session.program? ShaderState.current?
  split
  · rename_i g program hs
    constructor
    · intro h
      split at h
      · rename_i hg
        rw [hs, hg, Option.some.inj h]
      · cases h
    · intro h
      obtain ⟨rfl, rfl⟩ := ShaderState.ready.inj (hs.symm.trans h)
      exact if_pos rfl
  · rename_i hs
    exact ⟨nofun, fun h => absurd h (hs _ _)⟩

/-- **A stale program is never presented as current.**  Whatever was requested and replaced before
and however the threads took turns, the current program is one that the compiler returned when it
was called on the session's shader. -/
theorem current_program (hr : run.Reachable) {p : P} (h : run.session.program? = some p) :
    ∃ (i : Nat) (r : CompileRequest), r.source = run.session.source ∧
      .called i r ∈ run.history ∧ .returned i r (.ok p) ∈ run.history := by
  have hstate := program?_eq_some.1 h
  obtain ⟨i, r, hcalled, hreturned, hg⟩ := hr.pool.ready _ _ hstate
  obtain ⟨j, hparked⟩ := hr.pool.exists_parked hcalled
  have made := hr.made (.inr hparked)
  exact ⟨i, r, made.source hg, hcalled, hreturned⟩

theorem current_program_inOrder : ∃ run : SessionRun Nat, run.Reachable ∧
    run.session.program? = some 2 ∧ ∃ (i : Nat) (r : CompileRequest),
      r.source = run.session.source ∧ .called i r ∈ run.history ∧
        .returned i r (.ok 2) ∈ run.history := by
  obtain ⟨source, source', hbuild, hr⟩ := exists_twoGenerations
  have reachable := (hr.turns (soloTurns 0 (.ok 1))).turns (soloTurns 1 (.ok 2))
  rw [foldl_inOrder hbuild] at reachable
  exact ⟨_, reachable, rfl, current_program reachable rfl⟩

end SessionRun

end RayTracer
