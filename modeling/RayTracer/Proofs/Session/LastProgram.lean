import RayTracer.Proofs.Session.SingleFlight

/-!
# The last good program

The history of a pool tells which compiles have finished and with which results
(`CompileHistory.finished`), and the state of the slot is an extract of it
(`CompilePool.Reachable.account`): the program is that of the last compile that succeeded, and the
diagnostic is that of the last compile, if it failed and no other one has begun.

The state keeps its own copy of the program in each of its forms.  That none of the forms loses it
is `ShaderState.program?_startCompile` and `ShaderState.program?_finishCompile`.

* `CompilePool.last_program` : **failures never lose the last program that compiled**.
-/

namespace RayTracer

variable {P : Type}

/-- A compile that has finished. -/
structure CompileOutcome (P : Type) where
  job : CompileJob
  result : Except String P

namespace CompileOutcome

/-- The program, if the compile succeeded. -/
def program? (outcome : CompileOutcome P) : Option P := outcome.result.toOption

/-- What the compiler said, if the compile failed. -/
def diagnostic? (outcome : CompileOutcome P) : Option String :=
  match outcome.result with
  | .ok _ => none
  | .error diagnostic => some diagnostic

/-- The compile failed. -/
def Failed (outcome : CompileOutcome P) : Prop := ∃ diagnostic, outcome.result = .error diagnostic

variable {outcome : CompileOutcome P}

theorem program?_eq_some {p : P} : outcome.program? = some p ↔ outcome.result = .ok p := by
  unfold program?
  cases outcome.result <;> simp [Except.toOption]

theorem program?_eq_none : outcome.program? = none ↔ outcome.Failed := by
  unfold program? Failed
  cases outcome.result <;> simp [Except.toOption]

theorem diagnostic?_eq_some {d : String} :
    outcome.diagnostic? = some d ↔ outcome.result = .error d := by
  unfold diagnostic?
  cases outcome.result <;> simp

end CompileOutcome

namespace ShaderState

variable (state : ShaderState P) (r : CompileRequest)

theorem program?_startCompile : (state.startCompile r).program? = state.program? := rfl

theorem program?_finishCompile (result : Except String P) :
    (state.finishCompile r result).program? = result.toOption.or state.program? := by
  cases result <;> rfl

theorem diagnostic?_finishCompile (job : CompileJob) (result : Except String P) :
    (state.finishCompile r result).diagnostic? = CompileOutcome.diagnostic? ⟨job, result⟩ := by
  cases result <;> rfl

theorem compiling?_finishCompile (result : Except String P) :
    (state.finishCompile r result).compiling? = none := by
  cases result <;> rfl

end ShaderState

/-- The thread is between announcing a compile and announcing its result. -/
def CompileThread.isCompiling : CompileThread P → Bool
  | compiling _ | returned _ _ => true
  | _ => false

namespace CompileHistory

/-- The compiles whose results have been announced, the newest first. -/
def finished : CompileHistory P → List (CompileOutcome P)
  | [] => []
  | .announced _ _ result :: h => (calledJobs h).head?.toList.map (⟨·, result⟩) ++ finished h
  | _ :: h => finished h

variable {h h' : CompileHistory P}

theorem finished_announced {job : CompileJob} (hjob : h.calledJobs.head? = some job) (i : Nat)
    (r : CompileRequest) (result : Except String P) :
    finished (.announced i r result :: h) = ⟨job, result⟩ :: h.finished := by
  simp [finished, hjob]

/-- What has finished stays on record. -/
theorem finished_suffix (hsuffix : h <:+ h') : h.finished <:+ h'.finished := by
  obtain ⟨newer, rfl⟩ := hsuffix
  induction newer with
  | nil => exact List.suffix_rfl
  | cons e newer ih =>
    cases e with
    | announced => exact ih.trans (List.suffix_append _ _)
    | _ => exact ih

end CompileHistory

open CompileHistory

namespace CompilePool

variable {pool pool' : CompilePool P} {h : CompileHistory P} {state : ShaderState P}

/-! ### What the state tells -/

/-- The state is an extract of the history. -/
structure Account (state : ShaderState P) (h : CompileHistory P) : Prop where
  /-- The program is that of the last compile that succeeded. -/
  program : state.program? = h.finished.findSome? CompileOutcome.program?
  /-- A generation is being compiled from the call to the announcement of the result. -/
  compiling : state.compiling? =
    if h.isOpen then h.calledJobs.head?.map fun job => job.request.generation else none
  /-- Between compiles there is the diagnostic of the last one. -/
  diagnostic : state.diagnostic? =
    if h.isOpen then none else h.finished.head?.bind CompileOutcome.diagnostic?
  /-- Every compile finishes but the open one. -/
  jobs : h.finished.map CompileOutcome.job =
    if h.isOpen then h.calledJobs.tail else h.calledJobs

theorem Account.call (account : Account state h) (closed : h.isOpen = false) {job : CompileJob}
    (taken : h.takenJob? = some job) (i : Nat) :
    Account (state.startCompile job.request) (.called i job.request :: h) := by
  have called : calledJobs (.called i job.request :: h) = job :: h.calledJobs := by
    simp [calledJobs, taken]
  refine ⟨?_, ?_, rfl, ?_⟩
  · rw [ShaderState.program?_startCompile]
    exact account.program
  · rw [called]
    rfl
  · have jobs := account.jobs
    rw [closed] at jobs
    rw [called]
    exact jobs

theorem Account.announce (account : Account state h) (opened : h.isOpen = true) {job : CompileJob}
    (hjob : h.calledJobs.head? = some job) (i : Nat) (result : Except String P) :
    Account (state.finishCompile job.request result) (.announced i job.request result :: h) := by
  have finished := finished_announced hjob i job.request result
  refine ⟨?_, ShaderState.compiling?_finishCompile _ _ _, ?_, ?_⟩
  · rw [finished, ShaderState.program?_finishCompile, account.program]
    cases result <;> rfl
  · rw [finished]
    exact ShaderState.diagnostic?_finishCompile _ _ job result
  · obtain ⟨earlier, hcalled⟩ := List.head?_eq_some_iff.1 hjob
    have jobs := account.jobs
    rw [opened, hcalled] at jobs
    rw [finished, List.map_cons, jobs]
    exact hcalled.symm

/-- **The state is an extract of the history.** -/
theorem Reachable.account (hr : Reachable pool) : Account pool.slot.state pool.history := by
  refine hr.invariant (I := fun pool => Account pool.slot.state pool.history)
    ⟨rfl, rfl, rfl, rfl⟩ (fun _ _ account => account) fun pool pool' hr hmove account => ?_
  have phases := hr.phases
  cases hmove with
  | call thread =>
    obtain ⟨closed, job, hjob, rfl⟩ := phases.agrees _ _ thread
    exact account.call closed hjob _
  | announce thread =>
    obtain ⟨⟨-, opened, job, hjob, rfl⟩, -⟩ := phases.agrees _ _ thread
    exact account.announce opened hjob _ _
  | park | take | compilerReturns =>
    exact ⟨account.program, account.compiling, account.diagnostic, account.jobs⟩
  | _ => exact account

/-- A compile is open while a thread is at it. -/
theorem Reachable.isOpen_eq_false_iff (hr : Reachable pool) :
    pool.history.isOpen = false ↔ ∀ t ∈ pool.threads, t.isCompiling = false := by
  constructor
  · intro closed t ht
    obtain ⟨i, hi⟩ := List.mem_iff_getElem?.1 ht
    have agrees := hr.phases.agrees i t hi
    cases t with
    | compiling r => exact absurd (closed.symm.trans agrees.2.1) Bool.false_ne_true
    | returned r result => exact absurd (closed.symm.trans agrees.1.2.1) Bool.false_ne_true
    | _ => rfl
  · intro none
    cases held : pool.slot.gateHeld with
    | false => exact (hr.phases.idle held).2
    | true =>
      -- the holder of the gate is at something else
      obtain ⟨i, t, hi, hholds⟩ := hr.gate.held_iff.1 held
      have agrees := hr.phases.agrees i t hi
      have notCompiling := none t (List.mem_of_getElem? hi)
      cases t with
      | drain c | release c => exact agrees.2
      | taken r => exact agrees.1
      | compiling r | returned r result => cases notCompiling
      | start r | tryGate c | recheck c | done c => cases hholds

/-- A result that is announced is one that the compiler returned. -/
theorem Reachable.returned_of_finished (hr : Reachable pool) : ∀ outcome ∈ pool.history.finished,
    ∃ i, .returned i outcome.job.request outcome.result ∈ pool.history := by
  refine hr.invariant (I := fun pool => ∀ outcome ∈ pool.history.finished,
    ∃ i, .returned i outcome.job.request outcome.result ∈ pool.history)
    nofun (fun _ _ returned => returned) fun pool pool' hr hmove returned => ?_
  have kept : ∀ e : CompileEvent P, ∀ outcome ∈ pool.history.finished,
      ∃ i, .returned i outcome.job.request outcome.result ∈ e :: pool.history := by
    intro e outcome hmem
    obtain ⟨i, hi⟩ := returned outcome hmem
    exact ⟨i, List.mem_cons_of_mem _ hi⟩
  cases hmove with
  | announce thread =>
    obtain ⟨-, -, job, hjob, rfl⟩ := (hr.phases.agrees _ _ thread).1
    have hreturned := (hr.recorded _ _ thread).2
    intro outcome hmem
    rw [finished_announced hjob] at hmem
    rcases List.mem_cons.1 hmem with rfl | hmem
    · exact ⟨_, List.mem_cons_of_mem _ hreturned⟩
    · exact kept _ outcome hmem
  | park | take | call | compilerReturns => exact kept _
  | _ => exact returned

/-! ### Later pools -/

/-- What the pool can become. -/
inductive Later (pool : CompilePool P) : CompilePool P → Prop
  | refl : Later pool pool
  | spawn {pool' : CompilePool P} (h : Later pool pool') (r : CompileRequest) :
      Later pool (pool'.spawn r)
  | turn {pool' : CompilePool P} (h : Later pool pool') (next : CompileTurn P) :
      Later pool (pool'.turn next)

theorem Later.reachable (later : Later pool pool') (hr : Reachable pool) : Reachable pool' := by
  induction later with
  | refl => exact hr
  | spawn _ r ih => exact ih.spawn r
  | turn _ next ih => exact ih.turn next

theorem suffix_of_move (hmove : Move pool pool') : pool.history <:+ pool'.history := by
  cases hmove with
  | park | take | call | compilerReturns | announce => exact List.suffix_cons _ _
  | _ => exact List.suffix_rfl

/-- Nothing is taken off the record. -/
theorem Later.suffix (later : Later pool pool') : pool.history <:+ pool'.history := by
  induction later with
  | refl => exact List.suffix_rfl
  | spawn _ r ih => exact ih
  | turn _ next ih => exact ih.trans (suffix_of_move (move_turn _ next))

/-! ### The last program -/

/-- **Failures never lose the last program that compiled.**  There is no program exactly if no
compile has succeeded, and otherwise it is that of the last compile that did, however many have
failed since or are under way.  There is a diagnostic exactly if no compile is under way and the
last one failed, and then it is what the compiler said.  As long as compiles only fail, the program
stays. -/
theorem last_program (hr : Reachable pool) :
    (pool.slot.state.program? = none ↔ ∀ outcome ∈ pool.history.finished, outcome.Failed) ∧
    (∀ p, pool.slot.state.program? = some p ↔ ∃ newer job older,
      pool.history.finished = newer ++ ⟨job, .ok p⟩ :: older ∧
        ∀ outcome ∈ newer, outcome.Failed) ∧
    (∀ d, pool.slot.state.diagnostic? = some d ↔
      (∀ t ∈ pool.threads, t.isCompiling = false) ∧
        ∃ job older, pool.history.finished = ⟨job, .error d⟩ :: older) ∧
    (∀ outcome ∈ pool.history.finished,
      ∃ i, .returned i outcome.job.request outcome.result ∈ pool.history) ∧
    (∀ later, pool.Later later → ∃ newer,
      later.history.finished = newer ++ pool.history.finished ∧
        ((∀ outcome ∈ newer, outcome.Failed) →
          later.slot.state.program? = pool.slot.state.program?)) := by
  have account := hr.account
  refine ⟨?_, fun p => ?_, fun d => ?_, hr.returned_of_finished, fun later hlater => ?_⟩
  · simp [account.program, CompileOutcome.program?_eq_none]
  · rw [account.program, List.findSome?_eq_some_iff]
    constructor
    · rintro ⟨newer, ⟨job, result⟩, older, hfinished, hok, hnone⟩
      obtain rfl : result = .ok p := CompileOutcome.program?_eq_some.1 hok
      exact ⟨newer, job, older, hfinished,
        fun o ho => CompileOutcome.program?_eq_none.1 (hnone o ho)⟩
    · rintro ⟨newer, job, older, hfinished, hfailed⟩
      exact ⟨newer, ⟨job, .ok p⟩, older, hfinished, rfl,
        fun o ho => CompileOutcome.program?_eq_none.2 (hfailed o ho)⟩
  · rw [account.diagnostic, ← hr.isOpen_eq_false_iff]
    cases pool.history.isOpen with
    | true => simp
    | false =>
      cases pool.history.finished with
      | nil => simp
      | cons outcome older =>
        obtain ⟨job, result⟩ := outcome
        simp [CompileOutcome.diagnostic?_eq_some]
  · obtain ⟨newer, hnewer⟩ := finished_suffix hlater.suffix
    refine ⟨newer, hnewer.symm, fun failed => ?_⟩
    have skipped : newer.findSome? CompileOutcome.program? = none := by
      simpa [CompileOutcome.program?_eq_none] using failed
    rw [(hlater.reachable hr).account.program, account.program, ← hnewer, List.findSome?_append,
      skipped, Option.none_or]

/-- The second request fails, and the program of the first one stays. -/
theorem last_program_twoRequests : Reachable twoRequests ∧
    twoRequests.slot.state.program? = some 1 ∧
    twoRequests.slot.state.diagnostic? = some "no" := by
  have reachable : Reachable twoRequests := ((Reachable.init.spawn _).spawn _).turns _
  obtain ⟨-, program, diagnostic, -⟩ := last_program reachable
  refine ⟨reachable, (program 1).2 ?_, (diagnostic "no").2 ⟨by decide, ?_⟩⟩
  · exact ⟨[⟨⟨1, ⟨['b'], 1⟩⟩, .error "no"⟩], ⟨0, ⟨['a'], 0⟩⟩, [], rfl,
      by simp [CompileOutcome.Failed]⟩
  · exact ⟨⟨1, ⟨['b'], 1⟩⟩, [⟨⟨0, ⟨['a'], 0⟩⟩, .ok 1⟩], rfl⟩

end CompilePool

end RayTracer
