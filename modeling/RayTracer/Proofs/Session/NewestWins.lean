import RayTracer.Proofs.Session.SessionRun

/-!
# The request that is parked last wins

When all threads of a session have returned and every compile succeeded, the slot holds the program
of the request that was parked last, and that program is current exactly if the request is of the
session's generation (`SessionRun.current_iff_parked_last`).

If the thread of the last request is also the last one to park, the newest generation wins
(`SessionRun.Reachable.current_of_parked_inOrder`).  But nothing orders the threads of two requests,
and neither parking nor announcing a result looks at the generation that is replaced.  So an older
request displaces a newer one when its thread is late (`SessionRun.older_request_displaces_newer`).
-/

namespace RayTracer

/-- The event is not the failure of a compile. -/
def CompileEvent.succeeded {P : Type} : CompileEvent P → Bool
  | returned _ _ (.error _) => false
  | _ => true

namespace CompileHistory

variable {P : Type} {h : CompileHistory P}

/-- Every compile succeeded. -/
def AllSucceeded (h : CompileHistory P) : Prop := h.all CompileEvent.succeeded = true

theorem mem_of_lastReturned? {r : CompileRequest} {result : Except String P}
    (hlast : h.lastReturned? = some (r, result)) : ∃ i, .returned i r result ∈ h := by
  induction h with
  | nil => cases hlast
  | cons e h ih =>
    cases e with
    | returned i r' result' =>
      cases hlast
      exact ⟨i, List.mem_cons_self⟩
    | _ =>
      obtain ⟨i, hi⟩ := ih hlast
      exact ⟨i, List.mem_cons_of_mem _ hi⟩

theorem AllSucceeded.exists_program (succeeded : h.AllSucceeded) {r : CompileRequest}
    {result : Except String P} (hlast : h.lastReturned? = some (r, result)) :
    ∃ program, result = .ok program := by
  obtain ⟨i, hi⟩ := mem_of_lastReturned? hlast
  have hsucceeded := List.all_eq_true.1 succeeded _ hi
  cases result with
  | ok program => exact ⟨program, rfl⟩
  | error diagnostic => cases hsucceeded

end CompileHistory

open CompilePool (soloTurns soloEvents)

namespace SessionRun

variable {P : Type} {run : SessionRun P}

/-- The state when all threads have returned: the program of the request that was parked last. -/
theorem Reachable.ready_parked_last (hr : run.Reachable) (done : run.pool.AllDone)
    (succeeded : run.history.AllSucceeded) {job : CompileJob}
    (hjob : run.history.parkedJobs.head? = some job) :
    ∃ program, run.session.shader.state = .ready job.request.generation program := by
  obtain ⟨result, hlast, hstate⟩ := hr.pool.announces done hjob
  obtain ⟨program, rfl⟩ := succeeded.exists_program hlast
  exact ⟨program, hstate⟩

/-- Requests are made for newer and newer scenes. -/
theorem Reachable.generation_le (hr : run.Reachable) {i j : Nat} {r r' : CompileRequest}
    (hi : run.pool.StartedWith i r) (hj : run.pool.StartedWith j r') (hle : i ≤ j) :
    r.generation ≤ r'.generation := by
  induction hr with
  | start =>
    rcases hi with hi | hi
    · cases hi
    · cases hi
  | change _ c ih => exact ih hi hj
  | request hr ih =>
    rcases startedWith_of_request hi with hi | ⟨rfl, rfl⟩
    · rcases startedWith_of_request hj with hj | ⟨-, rfl⟩
      · exact ih hi hj
      · exact (hr.made hi).le
    · -- no older thread comes after the new one
      rcases startedWith_of_request hj with hj | ⟨-, rfl⟩
      · have hlt := hr.pool.lt_length hj
        exact absurd hle (Nat.not_le_of_lt hlt)
      · exact Nat.le_refl _
  | turn _ next ih =>
    exact ih (CompilePool.startedWith_of_turn hi) (CompilePool.startedWith_of_turn hj)

/-- **The newest generation wins if the last thread is the last one to park its request.** -/
theorem Reachable.current_of_parked_inOrder (hr : run.Reachable) (done : run.pool.AllDone)
    (succeeded : run.history.AllSucceeded) {last : CompileJob}
    (hlast : run.history.parkedJobs.head? = some last)
    (inOrder : ∀ job ∈ run.history.parkedJobs, job.thread ≤ last.thread)
    (newest : ∃ job ∈ run.history.parkedJobs, job.request.generation = run.session.generation) :
    ∃ program, run.session.program? = some program := by
  obtain ⟨program, hstate⟩ := hr.ready_parked_last done succeeded hlast
  obtain ⟨job, hjob, hgeneration⟩ := newest
  have started : ∀ job ∈ run.history.parkedJobs, run.pool.StartedWith job.thread job.request :=
    fun job hjob => .inr (CompilePool.mem_parkedJobs.1 hjob)
  have hstarted := started last (List.mem_of_head? hlast)
  have hle := hr.generation_le (started job hjob) hstarted (inOrder job hjob)
  have hge := (hr.made hstarted).le
  have hcurrent : last.request.generation = run.session.generation := by omega
  rw [hcurrent] at hstate
  exact ⟨program, program?_eq_some.2 hstate⟩

/-- **The request that is parked last wins.**  Once all threads have returned and if every compile
succeeded, the session has a current program if and only if the request that was parked last is of
the session's generation. -/
theorem current_iff_parked_last (hr : run.Reachable) (done : run.pool.AllDone)
    (succeeded : run.history.AllSucceeded) :
    (∃ program, run.session.program? = some program) ↔
      ∃ job, run.history.parkedJobs.head? = some job ∧
        job.request.generation = run.session.generation := by
  constructor
  · rintro ⟨program, hcurrent⟩
    have hstate := program?_eq_some.1 hcurrent
    -- something was compiled, so something was parked
    obtain ⟨i, r, hcalled, -, -⟩ := hr.pool.ready _ _ hstate
    obtain ⟨j, hparked⟩ := hr.pool.exists_parked hcalled
    have hmem : ⟨j, r⟩ ∈ run.history.parkedJobs := CompilePool.mem_parkedJobs.2 hparked
    obtain ⟨job, hjob⟩ := Option.isSome_iff_exists.1
      (List.isSome_head?.2 (List.ne_nil_of_mem hmem))
    obtain ⟨program', hstate'⟩ := hr.ready_parked_last done succeeded hjob
    obtain ⟨hgeneration, -⟩ := ShaderState.ready.inj (hstate'.symm.trans hstate)
    exact ⟨job, hjob, hgeneration⟩
  · rintro ⟨job, hjob, hgeneration⟩
    obtain ⟨program, hstate⟩ := hr.ready_parked_last done succeeded hjob
    rw [hgeneration] at hstate
    exact ⟨program, program?_eq_some.2 hstate⟩

theorem current_inOrder : ∃ run : SessionRun Nat, run.Reachable ∧ run.pool.AllDone ∧
    run.history.AllSucceeded ∧ ∃ program, run.session.program? = some program := by
  obtain ⟨source, source', hbuild, hr⟩ := exists_twoGenerations
  have reachable := (hr.turns (soloTurns 0 (.ok 1))).turns (soloTurns 1 (.ok 2))
  rw [foldl_inOrder hbuild] at reachable
  have done : ∀ t ∈ ([.done true, .done true] : List (CompileThread Nat)), t.isDone = true := by
    decide
  exact ⟨_, reachable, done, rfl, (current_iff_parked_last reachable done rfl).2 ⟨_, rfl, rfl⟩⟩

/-- The thread of the second request runs first. -/
theorem foldl_outOfOrder {source source' : List Char}
    (h : Shader.build (emptyScene 2) = .ok source') :
    (soloTurns 0 (.ok 2)).foldl turn ((soloTurns 1 (.ok 1)).foldl turn (twoGenerations source)) =
      ⟨{ emptySession 2 source' with generation := 1, shader := ⟨false, none, .ready 0 2⟩ },
        [.done true, .done true],
        soloEvents 0 ⟨source, 0⟩ (.ok 2) ++ soloEvents 1 ⟨source', 1⟩ (.ok 1)⟩ := by
  rw [twoGenerations_eq h, foldl_alone (i := 1) (r := ⟨source', 1⟩),
    foldl_alone (i := 0) (r := ⟨source, 0⟩)]
  all_goals rfl

/-- **An older request displaces a newer one when its thread is late**: a request for the session's
generation was made and compiled, and there is no current program. -/
theorem older_request_displaces_newer : ∃ run : SessionRun Nat, run.Reachable ∧
    run.pool.AllDone ∧ run.history.AllSucceeded ∧
      (∃ job ∈ run.history.parkedJobs, job.request.generation = run.session.generation) ∧
      run.session.program? = none := by
  obtain ⟨source, source', hbuild, hr⟩ := exists_twoGenerations
  have reachable := (hr.turns (soloTurns 1 (.ok 1))).turns (soloTurns 0 (.ok 2))
  rw [foldl_outOfOrder hbuild] at reachable
  have done : ∀ t ∈ ([.done true, .done true] : List (CompileThread Nat)), t.isDone = true := by
    decide
  have newer : (⟨1, ⟨source', 1⟩⟩ : CompileJob) ∈ [⟨0, ⟨source, 0⟩⟩, ⟨1, ⟨source', 1⟩⟩] := by simp
  exact ⟨_, reachable, done, rfl, ⟨_, newer, rfl⟩, rfl⟩

end SessionRun

end RayTracer
