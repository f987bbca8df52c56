import RayTracer.Proofs.Session.LastProgram
import RayTracer.Proofs.Session.SessionRun

/-!
# What the display sees of a compile

The display takes four readings one after the other (`Session.displayCompiled`), and the threads go
on in between.  A `DisplayCall` is a session at the moments of its readings.

While the request for the session's shader is on its way, the display should show an older program
or that a compile is on its way.  It does so unless its readings fall into one of two gaps, and
`SessionRun.fallback_iff` says exactly which.

* A thread takes a request and announces the compile in two steps.  In between the request is
  neither pending nor being compiled.
* The display looks for the current program once, before it looks for the request.  A request that
  is no longer pending when it looks there, and already compiled when it looks at the state again,
  is missed by all readings.

In both cases it shows that there is nothing on its way.  It does the same when an older request is
compiled after the current one (`SessionRun.display_falls_back`).
-/

namespace RayTracer

variable {P : Type}

namespace CompileHistory

variable {h newer : CompileHistory P} {job : CompileJob}

theorem parkedJobs_append (newer h : CompileHistory P) :
    parkedJobs (newer ++ h) = parkedJobs newer ++ parkedJobs h := by
  induction newer with
  | nil => rfl
  | cons e newer ih => cases e <;> simp [parkedJobs, ih]

theorem parkedJobs_suffix {h' : CompileHistory P} (hsuffix : h <:+ h') :
    h.parkedJobs <:+ h'.parkedJobs := by
  obtain ⟨newer, rfl⟩ := hsuffix
  rw [parkedJobs_append]
  exact List.suffix_append _ _

/-- Nothing becomes pending unless it is parked. -/
theorem pendingJob?_append (unparked : parkedJobs newer = []) (hnone : h.pendingJob? = none) :
    pendingJob? (newer ++ h) = none := by
  induction newer with
  | nil => exact hnone
  | cons e newer ih =>
    cases e with
    | parked => cases unparked
    | taken => rfl
    | called | returned | announced => exact ih unparked

end CompileHistory

open CompileHistory

namespace CompilePool

variable {pool : CompilePool P} {job : CompileJob}

/-- No compile is open while a request is taken. -/
theorem Reachable.isOpen_of_taken (hr : Reachable pool)
    (htaken : pool.history.takenJob? = some job) : pool.history.isOpen = false := by
  have notIdle : ∀ {r}, pool.history.Compiling r → False := by
    rintro r ⟨hnone, -⟩
    rw [hnone] at htaken
    cases htaken
  rw [hr.isOpen_eq_false_iff]
  intro t ht
  obtain ⟨i, hi⟩ := List.mem_iff_getElem?.1 ht
  have agrees := hr.phases.agrees i t hi
  cases t with
  | compiling r => exact (notIdle agrees).elim
  | returned r result => exact (notIdle agrees.1).elim
  | _ => rfl

/-- The request that is pending is the newest one. -/
theorem Reachable.eq_of_pendingJob? (hr : Reachable pool)
    (newest : pool.history.parkedJobs.head? = some job) {pending : CompileJob}
    (hpending : pool.history.pendingJob? = some pending) : pending = job := by
  have hnewest := hr.books.newest
  rw [newest, hpending] at hnewest
  exact (Option.some.inj hnewest).symm

theorem Reachable.pending_any_iff (hr : Reachable pool)
    (newest : pool.history.parkedJobs.head? = some job) :
    (pool.slot.pending.any fun r => r.generation == job.request.generation) = true ↔
      pool.history.pendingJob? = some job := by
  rw [hr.pending_eq]
  cases hpending : pool.history.pendingJob? with
  | none => simp
  | some pending =>
    obtain rfl := hr.eq_of_pendingJob? newest hpending
    simp

/-- Once the newest request is not pending any more, its generation is being compiled unless the
compile has not been announced yet or its result has been. -/
theorem Reachable.compiling?_newest (hr : Reachable pool)
    (newest : pool.history.parkedJobs.head? = some job) (hnone : pool.history.pendingJob? = none)
    (succeeds : ∀ d, ⟨job, .error d⟩ ∉ pool.history.finished) :
    pool.slot.state.compiling? ≠ some job.request.generation ↔
      pool.history.takenJob? = some job ∨ ∃ p, ⟨job, .ok p⟩ ∈ pool.history.finished := by
  have account := hr.account
  have hnewest := hr.books.newest
  rw [newest, hnone, Option.none_or] at hnewest
  cases htaken : pool.history.takenJob? with
  | some taken =>
    rw [htaken] at hnewest
    obtain rfl : job = taken := Option.some.inj hnewest
    simp [account.compiling, hr.isOpen_of_taken htaken]
  | none =>
    rw [htaken, Option.none_or] at hnewest
    obtain ⟨earlier, hcalled⟩ := List.head?_eq_some_iff.1 hnewest.symm
    have jobs := account.jobs
    cases hopen : pool.history.isOpen with
    | true =>
      -- the compile of the job is the open one, so it has not finished
      rw [hopen, hcalled] at jobs
      have fresh : job ∉ earlier := by
        have hnodup := hr.nodup_calledJobs
        rw [hcalled] at hnodup
        exact fun hmem => (List.nodup_cons.1 hnodup).1 (List.mem_map_of_mem hmem)
      have unfinished : ∀ p, ⟨job, .ok p⟩ ∉ pool.history.finished := by
        intro p hp
        have hmem : job ∈ pool.history.finished.map CompileOutcome.job := List.mem_map_of_mem hp
        rw [jobs] at hmem
        exact fresh hmem
      simp [account.compiling, hopen, hcalled, unfinished]
    | false =>
      rw [hopen, hcalled] at jobs
      have hmem : job ∈ pool.history.finished.map CompileOutcome.job := by simp [jobs]
      obtain ⟨⟨_, result⟩, hfinished, rfl⟩ := List.mem_map.1 hmem
      cases result with
      | error d => exact absurd hfinished (succeeds d)
      | ok p => simpa [account.compiling, hopen] using ⟨p, hfinished⟩

end CompilePool

namespace Session

/-- When nothing but the last frame is shown. -/
theorem displayCompiled_eq_fallback_iff {generation : Nat} {first second third : ShaderState P}
    {pending : Option CompileRequest} {latest : Option Frame} :
    (∃ f, displayCompiled generation first pending second third latest = .fallback f) ↔
      first.current? generation = none ∧
        ¬ (pending.any fun r => r.generation == generation) = true ∧
          second.compiling? ≠ some generation := by
  unfold displayCompiled
  cases first.current? generation with
  | some p => simp
  | none =>
    by_cases hpending : (pending.any fun r => r.generation == generation) = true <;>
      by_cases hsecond : second.compiling? = some generation <;>
      cases third.program? <;> simp [hpending, hsecond]

/-- A compiled session shows a program, that a compile is on its way, or the last frame. -/
theorem displayCompiled_cases (generation : Nat) (first second third : ShaderState P)
    (pending : Option CompileRequest) (latest : Option Frame) :
    (∃ f, displayCompiled generation first pending second third latest = .fallback f) ∨
      (∃ p, displayCompiled generation first pending second third latest = .program p) ∨
      displayCompiled generation first pending second third latest = .compiling := by
  unfold displayCompiled
  split
  · exact .inr (.inl ⟨_, rfl⟩)
  · split
    · split
      · exact .inr (.inl ⟨_, rfl⟩)
      · exact .inr (.inr rfl)
    · exact .inl ⟨_, rfl⟩

end Session

namespace SessionRun

variable {run run' : SessionRun P}

/-- What the run can become while the user changes nothing. -/
inductive Meanwhile (run : SessionRun P) : SessionRun P → Prop
  | refl : Meanwhile run run
  | request {run' : SessionRun P} (h : Meanwhile run run') : Meanwhile run run'.request
  | turn {run' : SessionRun P} (h : Meanwhile run run') (next : CompileTurn P) :
      Meanwhile run (run'.turn next)

theorem Meanwhile.reachable (meanwhile : Meanwhile run run') (hr : run.Reachable) :
    run'.Reachable := by
  induction meanwhile with
  | refl => exact hr
  | request _ ih => exact ih.request
  | turn _ next ih => exact ih.turn next

theorem Meanwhile.suffix (meanwhile : Meanwhile run run') : run.history <:+ run'.history := by
  induction meanwhile with
  | refl => exact List.suffix_rfl
  | request _ ih => exact ih
  | @turn run' _ next ih =>
    exact ih.trans (CompilePool.suffix_of_move (CompilePool.move_turn run'.pool next))

theorem Meanwhile.turns (meanwhile : Meanwhile run run') (schedule : List (CompileTurn P)) :
    Meanwhile run (schedule.foldl SessionRun.turn run') := by
  induction schedule generalizing run' with
  | nil => exact meanwhile
  | cons next schedule ih => exact ih (meanwhile.turn next)

/-- A session at the moments of the four readings of the display. -/
structure DisplayCall (P : Type) where
  /-- When the current program is looked for. -/
  first : SessionRun P
  /-- When the pending request is read. -/
  second : SessionRun P
  /-- When the state is read again. -/
  third : SessionRun P
  /-- When an older program is looked for. -/
  last : SessionRun P
  toSecond : first.Meanwhile second
  toThird : second.Meanwhile third
  toLast : third.Meanwhile last
  /-- The frame that is found if nothing else is shown. -/
  latest : Option Frame := none

namespace DisplayCall

variable {call : DisplayCall P} {job : CompileJob}

/-- What the display shows. -/
def shown (call : DisplayCall P) : Display P :=
  Session.displayCompiled call.first.session.generation call.first.session.shader.state
    call.second.session.shader.pending call.third.session.shader.state
    call.last.session.shader.state call.latest

/-- A display without interruption. -/
def atOnce (run : SessionRun P) : DisplayCall P :=
  ⟨run, run, run, run, .refl, .refl, .refl, run.session.frames.latest⟩

theorem shown_atOnce (hcompiled : run.session.backend = .compiled) :
    (atOnce run).shown = run.session.display := by
  simp [Session.display, hcompiled, shown, atOnce]

/-- The request for the session's shader was parked before the display starts, no other request
replaces it while it is pending, and its compile does not fail. -/
structure OnItsWay (call : DisplayCall P) (job : CompileJob) : Prop where
  parked : job ∈ call.first.history.parkedJobs
  current : job.request.generation = call.first.session.generation
  kept : job ∉ call.last.history.replacedJobs
  succeeds : ∀ d, ⟨job, .error d⟩ ∉ call.last.history.finished

end DisplayCall

open DisplayCall

variable {call : DisplayCall P} {job : CompileJob}

/-- If the newest request was parked before, then nothing is parked meanwhile. -/
theorem Meanwhile.exists_unparked (meanwhile : Meanwhile run run') (hr : run.Reachable)
    (parked : job ∈ run.history.parkedJobs) (newest : run'.history.parkedJobs.head? = some job) :
    ∃ newer, parkedJobs newer = [] ∧ run'.history = newer ++ run.history := by
  obtain ⟨newer, hnewer⟩ := meanwhile.suffix
  refine ⟨newer, ?_, hnewer.symm⟩
  have hnodup : ((parkedJobs run'.history).map CompileJob.thread).Nodup :=
    (meanwhile.reachable hr).pool.numbering.nodup
  rw [← hnewer, parkedJobs_append] at hnodup newest
  cases hparked : parkedJobs newer with
  | nil => rfl
  | cons other rest =>
    -- a request that is parked meanwhile would be the newest one
    rw [hparked] at hnodup newest
    obtain rfl : other = job := Option.some.inj newest
    have again := List.mem_map_of_mem (f := CompileJob.thread) (List.mem_append_right rest parked)
    exact absurd again (List.nodup_cons.1 hnodup).1

/-- **When the display falls back.**  Let the request for the session's shader be on its way, and
let no other one be parked before the third reading.  The display falls back exactly if there is no
current program at the first reading, the request is not pending any more at the second one, and at
the third one its compile has not been announced yet or is over already.  Otherwise it shows a
program or that a compile is on its way. -/
theorem fallback_iff (hr : call.first.Reachable) (way : call.OnItsWay job)
    (newest : call.third.history.parkedJobs.head? = some job) :
    ((∃ f, call.shown = .fallback f) ↔ call.first.session.program? = none ∧
      call.second.history.pendingJob? ≠ some job ∧
      (call.third.history.takenJob? = some job ∨
        ∃ p, ⟨job, .ok p⟩ ∈ call.third.history.finished)) ∧
    ((∃ f, call.shown = .fallback f) ∨ (∃ p, call.shown = .program p) ∨
      call.shown = .compiling) := by
  refine ⟨?_, Session.displayCompiled_cases _ _ _ _ _ _⟩
  have hr₂ := call.toSecond.reachable hr
  have hr₃ := call.toThird.reachable hr₂
  have parked₂ : job ∈ call.second.history.parkedJobs :=
    (parkedJobs_suffix call.toSecond.suffix).subset way.parked
  obtain ⟨newer, unparked, hnewer⟩ := call.toThird.exists_unparked hr₂ parked₂ newest
  have newest₂ : call.second.history.parkedJobs.head? = some job := by
    rw [hnewer, parkedJobs_append, unparked] at newest
    exact newest
  have succeeds : ∀ d, ⟨job, .error d⟩ ∉ call.third.history.finished := fun d hd =>
    way.succeeds d ((finished_suffix call.toLast.suffix).subset hd)
  have hpending := hr₂.pool.pending_any_iff newest₂
  have hstate := hr₃.pool.compiling?_newest newest
  rw [way.current] at hpending hstate
  rw [shown, Session.displayCompiled_eq_fallback_iff]
  refine and_congr_right fun _ => (and_congr (not_congr hpending) Iff.rfl).trans ?_
  refine and_congr_right fun passed => hstate ?_ succeeds
  -- what is pending at the second reading is the newest request or nothing
  have hnone : call.second.history.pendingJob? = none := by
    cases hp : call.second.history.pendingJob? with
    | none => rfl
    | some pending =>
      obtain rfl := hr₂.pool.eq_of_pendingJob? newest₂ hp
      exact absurd hp passed
  show call.third.history.pendingJob? = none
  rw [hnewer]
  exact pendingJob?_append unparked hnone

/-! ### Displays that fall back -/

open CompilePool (soloTurns soloEvents)

/-- The display falls back although the request is on its way and is compiled in the end. -/
structure DisplayCall.Misses (call : DisplayCall P) (job : CompileJob) : Prop where
  reachable : call.first.Reachable
  way : call.OnItsWay job
  compiled : ∃ run p, call.last.Meanwhile run ∧ ⟨job, .ok p⟩ ∈ run.history.finished
  shown : call.shown = .fallback none

/-- A new session with one request. -/
def oneRequest (source : List Char) : SessionRun Nat := request ⟨emptySession 1 source, [], []⟩

theorem exists_oneRequest : ∃ source, (oneRequest source).Reachable := by
  obtain ⟨source, h⟩ := (Shader.exists_build_iff (emptyScene 1)).2 (by decide)
  have hstart : Session.start (emptyScene 1) ⟨1, 1, 1, false⟩ = .ok (emptySession 1 source) := by
    rw [Session.start, h]
    rfl
  exact ⟨source, (Reachable.start hstart).request⟩

/-- The request has been taken, and its compile has not been announced. -/
def requestTaken (source : List Char) : SessionRun Nat where
  session := { emptySession 1 source with shader := ⟨true, none, .idle⟩ }
  threads := [.taken ⟨source, 0⟩]
  history := [.taken 0 ⟨source, 0⟩, .parked 0 ⟨source, 0⟩]

/-- The compiler has been called. -/
def requestCalled (source : List Char) : SessionRun Nat where
  session := { emptySession 1 source with shader := ⟨true, none, .compiling 0 none⟩ }
  threads := [.compiling ⟨source, 0⟩]
  history := .called 0 ⟨source, 0⟩ :: (requestTaken source).history

/-- The program is ready. -/
def requestReady (source : List Char) : SessionRun Nat where
  session := { emptySession 1 source with shader := ⟨true, none, .ready 0 1⟩ }
  threads := [.drain true]
  history := .announced 0 ⟨source, 0⟩ (.ok 1) :: .returned 0 ⟨source, 0⟩ (.ok 1) ::
    (requestCalled source).history

variable {source source' : List Char}

theorem meanwhile_taken : (oneRequest source).Meanwhile (requestTaken source) :=
  Meanwhile.refl.turns (List.replicate 3 (.thread 0))

theorem meanwhile_called : (requestTaken source).Meanwhile (requestCalled source) :=
  Meanwhile.refl.turn (.thread 0)

theorem meanwhile_ready : (requestCalled source).Meanwhile (requestReady source) :=
  (Meanwhile.refl.turn (.compiler 0 (.ok 1))).turn (.thread 0)

/-- All readings are taken before the compile is announced. -/
theorem misses_taken (hr : (oneRequest source).Reachable) :
    (atOnce (requestTaken source)).Misses ⟨0, ⟨source, 0⟩⟩ where
  reachable := meanwhile_taken.reachable hr
  way := ⟨List.mem_singleton.2 rfl, rfl, nofun, nofun⟩
  compiled := ⟨requestReady source, 1,
    (meanwhile_called.turn (.compiler 0 (.ok 1))).turn (.thread 0),
    List.mem_singleton.2 rfl⟩
  shown := rfl

/-- The compile is announced after the first reading and is over before the third one. -/
def acrossCompile (source : List Char) : DisplayCall Nat :=
  ⟨requestCalled source, requestCalled source, requestReady source, requestReady source,
    .refl, meanwhile_ready, .refl, none⟩

theorem misses_acrossCompile (hr : (oneRequest source).Reachable) :
    (acrossCompile source).Misses ⟨0, ⟨source, 0⟩⟩ where
  reachable := meanwhile_called.reachable (meanwhile_taken.reachable hr)
  way := ⟨List.mem_singleton.2 rfl, rfl, nofun, fun _ hd => nomatch List.mem_singleton.1 hd⟩
  compiled := ⟨requestReady source, 1, .refl, List.mem_singleton.2 rfl⟩
  shown := rfl

/-- The thread of an older request runs when the current program is ready. -/
def olderCalled (source source' : List Char) : SessionRun Nat where
  session := { emptySession 2 source' with
    generation := 1, shader := ⟨true, none, .compiling 0 (some 1)⟩ }
  threads := [.compiling ⟨source, 0⟩, .done true]
  history := .called 0 ⟨source, 0⟩ :: .taken 0 ⟨source, 0⟩ :: .parked 0 ⟨source, 0⟩ ::
    soloEvents 1 ⟨source', 1⟩ (.ok 1)

theorem meanwhile_older (h : Shader.build (emptyScene 2) = .ok source') :
    (twoGenerations source).Meanwhile (olderCalled source source') := by
  have newer : (soloTurns 1 (.ok 1)).foldl turn (twoGenerations source) =
      ⟨{ emptySession 2 source' with generation := 1, shader := ⟨false, none, .ready 1 1⟩ },
        [.start ⟨source, 0⟩, .done true], soloEvents 1 ⟨source', 1⟩ (.ok 1)⟩ := by
    rw [twoGenerations_eq h, foldl_alone (i := 1) (r := ⟨source', 1⟩)]
    all_goals rfl
  have meanwhile : (twoGenerations source).Meanwhile _ := Meanwhile.refl.turns (soloTurns 1 (.ok 1))
  rw [newer] at meanwhile
  exact meanwhile.turns (List.replicate 4 (.thread 0))

theorem misses_older (h : Shader.build (emptyScene 2) = .ok source')
    (hr : (twoGenerations source).Reachable) :
    (atOnce (olderCalled source source')).Misses ⟨1, ⟨source', 1⟩⟩ where
  reachable := (meanwhile_older h).reachable hr
  way := ⟨.tail _ (.head _), rfl, nofun, fun _ hd => nomatch List.mem_singleton.1 hd⟩
  compiled := ⟨_, 1, .refl, List.mem_singleton.2 rfl⟩
  shown := rfl

/-- **The display falls back although the current program is on its way**: between taking a request
and announcing its compile, across a compile that is over before the third reading, and while an
older request is compiled. -/
theorem display_falls_back :
    (∃ (call : DisplayCall Nat) (job : CompileJob), call.Misses job ∧
      call.third.history.takenJob? = some job) ∧
    (∃ (call : DisplayCall Nat) (job : CompileJob), call.Misses job ∧
      call.first.session.shader.state.compiling? = some job.request.generation) ∧
    ∃ (call : DisplayCall Nat) (job : CompileJob), call.Misses job ∧
      ∃ p, ⟨job, .ok p⟩ ∈ call.first.history.finished := by
  obtain ⟨source, hr⟩ := exists_oneRequest
  obtain ⟨source₁, source₂, hbuild, hr₂⟩ := exists_twoGenerations
  exact ⟨⟨_, _, misses_taken hr, rfl⟩, ⟨_, _, misses_acrossCompile hr, rfl⟩,
    ⟨_, _, misses_older hbuild hr₂, 1, List.mem_singleton.2 rfl⟩⟩

/-- A display that is not interrupted while the compiler is at work. -/
theorem fallback_iff_called : ∃ call : DisplayCall Nat, call.first.Reachable ∧
    call.shown = .compiling ∧ ¬ ∃ f, call.shown = .fallback f := by
  obtain ⟨source, hr⟩ := exists_oneRequest
  have reachable := meanwhile_called.reachable (meanwhile_taken.reachable hr)
  have way : (atOnce (requestCalled source)).OnItsWay ⟨0, ⟨source, 0⟩⟩ :=
    ⟨List.mem_singleton.2 rfl, rfl, nofun, nofun⟩
  obtain ⟨falls, -⟩ := fallback_iff reachable way rfl
  refine ⟨atOnce (requestCalled source), reachable, rfl, fun hfallback => ?_⟩
  -- the compile has been announced and is not over
  obtain ⟨-, -, htaken | ⟨p, hp⟩⟩ := falls.1 hfallback
  · cases htaken
  · cases hp

end SessionRun

end RayTracer
