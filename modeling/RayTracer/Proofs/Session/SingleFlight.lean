import RayTracer.Proofs.Session.CompilePool

/-!
# One compile at a time, and no request is lost

Requests with the same text are told apart by the thread that made them: a `CompileJob` is a
request with its thread.  The history of a pool says what became of every job.  It is pending, or
it has been taken, or the compiler was called for it, or another request replaced it while it was
pending (`CompilePool.Books`), and whoever holds the gate knows how far the last job has come
(`CompileThread.Agrees`).

`CompilePool.single_flight` puts this together.  When all threads have returned, nothing is
pending, and the job that was parked last is the one that was compiled last.
-/

namespace RayTracer

/-- A request and the number of the thread that made it. -/
structure CompileJob where
  thread : Nat
  request : CompileRequest
  deriving DecidableEq, Repr

namespace CompileHistory

variable {P : Type}

/-- The jobs that were parked, the newest first. -/
def parkedJobs : CompileHistory P → List CompileJob
  | [] => []
  | .parked i r :: h => ⟨i, r⟩ :: parkedJobs h
  | _ :: h => parkedJobs h

/-- The job whose request is pending. -/
def pendingJob? : CompileHistory P → Option CompileJob
  | [] => none
  | .parked i r :: _ => some ⟨i, r⟩
  | .taken _ _ :: _ => none
  | _ :: h => pendingJob? h

/-- The job that was taken, until the compiler is called. -/
def takenJob? : CompileHistory P → Option CompileJob
  | [] => none
  | .taken _ _ :: h => pendingJob? h
  | .called _ _ :: _ => none
  | _ :: h => takenJob? h

/-- The jobs for which the compiler was called, the newest first. -/
def calledJobs : CompileHistory P → List CompileJob
  | [] => []
  | .called _ _ :: h => (takenJob? h).toList ++ calledJobs h
  | _ :: h => calledJobs h

/-- The jobs that another request replaced while they were pending, the newest first. -/
def replacedJobs : CompileHistory P → List CompileJob
  | [] => []
  | .parked _ _ :: h => (pendingJob? h).toList ++ replacedJobs h
  | _ :: h => replacedJobs h

/-- The requests on which the compiler was called, the newest first. -/
def calls : CompileHistory P → List CompileRequest
  | [] => []
  | .called _ r :: h => r :: calls h
  | _ :: h => calls h

/-- What the compiler returned last, and for which request. -/
def lastReturned? : CompileHistory P → Option (CompileRequest × Except String P)
  | [] => none
  | .returned _ r result :: _ => some (r, result)
  | _ :: h => lastReturned? h

/-- A compile has been announced, and its result has not. -/
def isOpen : CompileHistory P → Bool
  | [] => false
  | .called _ _ :: _ => true
  | .announced _ _ _ :: _ => false
  | _ :: h => isOpen h

/-- No thread works on a request. -/
def Idle (h : CompileHistory P) : Prop := h.takenJob? = none ∧ h.isOpen = false

/-- The compiler was called on the request, and its result has not been announced. -/
def Compiling (h : CompileHistory P) (r : CompileRequest) : Prop :=
  h.takenJob? = none ∧ h.isOpen = true ∧ ∃ job, h.calledJobs.head? = some job ∧ job.request = r

end CompileHistory

open CompileHistory

variable {P : Type}

/-- The thread has parked its request. -/
def CompileThread.hasParked : CompileThread P → Bool
  | start _ => false
  | _ => true

theorem CompileThread.hasParked_of_isDone {t : CompileThread P} (h : t.isDone = true) :
    t.hasParked = true := by
  cases t <;> first | rfl | cases h

/-- The state gives the result of a compile: the program under the generation of the request, or
the diagnostic. -/
def ShaderState.Announces (state : ShaderState P) (r : CompileRequest) : Except String P → Prop
  | .ok program => state = .ready r.generation program
  | .error diagnostic => ∃ previous, state = .failed diagnostic previous

theorem ShaderState.announces_finishCompile (state : ShaderState P) (r : CompileRequest)
    (result : Except String P) : (state.finishCompile r result).Announces r result := by
  cases result with
  | ok program => rfl
  | error diagnostic => exact ⟨_, rfl⟩

/-- The history says of the thread's request what the thread is about to do with it. -/
def CompileThread.Agrees (h : CompileHistory P) : CompileThread P → Prop
  | drain _ | release _ => h.Idle
  | taken r => h.isOpen = false ∧ ∃ job, h.takenJob? = some job ∧ job.request = r
  | compiling r => h.Compiling r
  | returned r result => h.Compiling r ∧ h.lastReturned? = some (r, result)
  | _ => True

theorem CompileThread.agrees_of_not_holdsGate {h : CompileHistory P} {t : CompileThread P}
    (ht : t.holdsGate = false) : t.Agrees h := by
  cases t <;> trivial

theorem CompileThread.agrees_parked {h : CompileHistory P} {t : CompileThread P} {i : Nat}
    {r : CompileRequest} (ht : t.Agrees h) : t.Agrees (.parked i r :: h) := by
  cases t <;> exact ht

namespace CompilePool

/-! ### How far the jobs have come -/

/-- Every thread agrees with the history, and while no one holds the gate no one works. -/
structure Phases (threads : List (CompileThread P)) (held : Bool) (h : CompileHistory P) :
    Prop where
  agrees : ∀ (i : Nat) (t : CompileThread P), threads[i]? = some t → t.Agrees h
  idle : held = false → h.Idle

variable {threads : List (CompileThread P)} {held : Bool} {i : Nat} {t t' : CompileThread P}
  {h h' : CompileHistory P}

/-- The holder of the gate goes on and stays inside. -/
theorem Phases.act (gate : Gate threads held) (hi : threads[i]? = some t)
    (ht : t.holdsGate = true) (ht' : t'.Agrees h') : Phases (threads.set i t') held h' := by
  refine ⟨fun j u hj => ?_, fun hf => ?_⟩
  · rcases getElem?_set_cases hj with ⟨rfl, rfl⟩ | ⟨hne, hj⟩
    · exact ht'
    · refine CompileThread.agrees_of_not_holdsGate ?_
      cases hu : u.holdsGate with
      | false => rfl
      | true => exact absurd (gate.unique _ _ _ _ hj hi hu ht) hne
  · exact absurd (gate.held_iff.2 ⟨i, t, hi, ht⟩) (by simp [hf])

/-- A thread goes on without a record. -/
theorem Phases.set (phases : Phases threads held h) (ht' : t'.Agrees h) {held' : Bool}
    (idle : held' = false → h.Idle) : Phases (threads.set i t') held' h := by
  refine ⟨fun j u hj => ?_, idle⟩
  rcases getElem?_set_cases hj with ⟨rfl, rfl⟩ | ⟨-, hj⟩
  · exact ht'
  · exact phases.agrees j u hj

/-- The slot holds the request of the pending job. -/
theorem Reachable.pending_eq {pool : CompilePool P} (hr : Reachable pool) :
    pool.slot.pending = (pendingJob? pool.history).map CompileJob.request := by
  refine hr.invariant
    (I := fun pool => pool.slot.pending = (pendingJob? pool.history).map CompileJob.request)
    rfl (fun _ _ pending => pending) fun pool pool' _ hmove pending => ?_
  cases hmove with
  | park | take => rfl
  | _ => exact pending

theorem Reachable.phases {pool : CompilePool P} (hr : Reachable pool) :
    Phases pool.threads pool.slot.gateHeld pool.history := by
  refine hr.invariant (I := fun pool => Phases pool.threads pool.slot.gateHeld pool.history)
    ⟨nofun, fun _ => ⟨rfl, rfl⟩⟩ (fun pool r phases => ?_) fun pool pool' hr hmove phases => ?_
  · refine ⟨fun j u hj => ?_, phases.idle⟩
    rcases getElem?_append_cases hj with ⟨-, rfl⟩ | hj
    · trivial
    · exact phases.agrees j u hj
  have gate := hr.gate
  cases hmove with
  | park thread =>
    refine ⟨fun j u hj => ?_, phases.idle⟩
    rcases getElem?_set_cases hj with ⟨rfl, rfl⟩ | ⟨-, hj⟩
    · trivial
    · exact CompileThread.agrees_parked (phases.agrees j u hj)
  | enter thread free =>
    refine phases.set ?_ nofun
    exact phases.idle free
  | refused thread _ | retry thread _ | leave thread _ =>
    refine phases.set ?_ phases.idle
    trivial
  | take thread pending =>
    refine .act gate thread rfl ?_
    have hidle := phases.agrees _ _ thread
    obtain ⟨job, hjob, hrequest⟩ := Option.map_eq_some_iff.1 (hr.pending_eq.symm.trans pending)
    exact ⟨hidle.2, job, hjob, hrequest⟩
  | drained thread _ =>
    have hidle : Idle _ := phases.agrees _ _ thread
    refine .set phases ?_ phases.idle
    exact hidle
  | call thread =>
    refine .act gate thread rfl ?_
    obtain ⟨-, job, hjob, hrequest⟩ := phases.agrees _ _ thread
    exact ⟨rfl, rfl, job, by simp [calledJobs, hjob], hrequest⟩
  | compilerReturns thread result =>
    refine .act gate thread rfl ?_
    exact ⟨phases.agrees _ _ thread, rfl⟩
  | announce thread =>
    refine .act gate thread rfl ?_
    exact ⟨(phases.agrees _ _ thread).1.1, rfl⟩
  | release thread =>
    refine phases.set ?_ fun _ => phases.agrees _ _ thread
    trivial
  | idle => exact phases

/-! ### What became of the jobs -/

/-- The history accounts for every parked job, and the slot's state for the last compile. -/
structure Books (state : ShaderState P) (h : CompileHistory P) : Prop where
  /-- Every parked job is pending, taken, called or replaced. -/
  jobs : h.parkedJobs.Perm
    (h.pendingJob?.toList ++ (h.takenJob?.toList ++ (h.calledJobs ++ h.replacedJobs)))
  /-- The newest job is the one that has come the least far. -/
  newest : h.parkedJobs.head? = h.pendingJob?.or (h.takenJob?.or h.calledJobs.head?)
  /-- Every call of the compiler is for a job. -/
  calls : h.calledJobs.map CompileJob.request = h.calls
  /-- Between compiles the state is what became of the last one. -/
  settled : h.isOpen = false → ∀ job, h.calledJobs.head? = some job →
    ∃ result, h.lastReturned? = some (job.request, result) ∧ state.Announces job.request result

variable {state : ShaderState P}

theorem Books.park (books : Books state h) (i : Nat) (r : CompileRequest) :
    Books state (.parked i r :: h) := by
  refine ⟨?_, rfl, books.calls, books.settled⟩
  show List.Perm (⟨i, r⟩ :: h.parkedJobs)
    (⟨i, r⟩ :: (h.takenJob?.toList ++ (h.calledJobs ++ (h.pendingJob?.toList ++ h.replacedJobs))))
  refine (books.jobs.trans ?_).cons _
  -- the job that was pending moves past the others
  have past : List.Perm (h.pendingJob?.toList ++ (h.takenJob?.toList ++ h.calledJobs))
      ((h.takenJob?.toList ++ h.calledJobs) ++ h.pendingJob?.toList) := List.perm_append_comm
  simpa only [List.append_assoc] using past.append_right h.replacedJobs

theorem Books.take (books : Books state h) (idle : h.takenJob? = none) (i : Nat)
    (r : CompileRequest) : Books state (.taken i r :: h) := by
  refine ⟨?_, ?_, books.calls, books.settled⟩
  · have jobs := books.jobs
    rw [idle] at jobs
    exact jobs
  · have newest := books.newest
    rw [idle] at newest
    exact newest

theorem Books.call (books : Books state h) {job : CompileJob} (taken : h.takenJob? = some job)
    (i : Nat) : Books (state.startCompile job.request) (.called i job.request :: h) := by
  have called : calledJobs (.called i job.request :: h) = job :: h.calledJobs := by
    simp [calledJobs, taken]
  refine ⟨?_, ?_, ?_, nofun⟩
  · have jobs := books.jobs
    rw [taken] at jobs
    rw [called]
    exact jobs
  · have newest := books.newest
    rw [taken] at newest
    rw [called]
    exact newest
  · rw [called, List.map_cons, books.calls]
    rfl

theorem Books.return (books : Books state h) (opened : h.isOpen = true) (i : Nat)
    (r : CompileRequest) (result : Except String P) : Books state (.returned i r result :: h) :=
  ⟨books.jobs, books.newest, books.calls, fun hf => absurd (opened.symm.trans hf) (by decide)⟩

theorem Books.announce (books : Books state h) {r : CompileRequest} {result : Except String P}
    (compiling : h.Compiling r) (returned : h.lastReturned? = some (r, result)) (i : Nat) :
    Books (state.finishCompile r result) (.announced i r result :: h) := by
  refine ⟨books.jobs, books.newest, books.calls, fun _ job hjob => ?_⟩
  obtain ⟨-, -, job', hjob', rfl⟩ := compiling
  obtain rfl : job = job' := Option.some.inj (hjob.symm.trans hjob')
  exact ⟨result, returned, state.announces_finishCompile _ result⟩

theorem Reachable.books {pool : CompilePool P} (hr : Reachable pool) :
    Books pool.slot.state pool.history := by
  refine hr.invariant (I := fun pool => Books pool.slot.state pool.history)
    ⟨.refl _, rfl, rfl, nofun⟩ (fun _ _ books => books) fun pool pool' hr hmove books => ?_
  have phases := hr.phases
  cases hmove with
  | park => exact books.park _ _
  | take thread _ => exact books.take (phases.agrees _ _ thread).1 _ _
  | call thread =>
    obtain ⟨-, job, hjob, rfl⟩ := phases.agrees _ _ thread
    exact books.call hjob _
  | compilerReturns thread result => exact books.return (phases.agrees _ _ thread).2.1 _ _ result
  | announce thread =>
    obtain ⟨compiling, returned⟩ := phases.agrees _ _ thread
    exact books.announce compiling returned _
  | _ => exact books

theorem mem_calls {r : CompileRequest} : r ∈ h.calls ↔ ∃ i, .called i r ∈ h := by
  induction h with
  | nil => simp [CompileHistory.calls]
  | cons e h ih => cases e <;> simp [CompileHistory.calls, ih, exists_or]

theorem mem_parkedJobs {job : CompileJob} :
    job ∈ h.parkedJobs ↔ .parked job.thread job.request ∈ h := by
  induction h with
  | nil => simp [parkedJobs]
  | cons e h ih =>
    obtain ⟨i, r⟩ := job
    cases e <;> simp [parkedJobs, ih]

/-- The compiler is called only for requests that were parked. -/
theorem Reachable.exists_parked {pool : CompilePool P} (hr : Reachable pool) {i : Nat}
    {r : CompileRequest} (hcalled : .called i r ∈ pool.history) :
    ∃ j, .parked j r ∈ pool.history := by
  have hmem : r ∈ pool.history.calls := mem_calls.2 ⟨i, hcalled⟩
  rw [← hr.books.calls] at hmem
  obtain ⟨job, hjob, rfl⟩ := List.mem_map.1 hmem
  have hparked : job ∈ pool.history.parkedJobs := by
    refine hr.books.jobs.mem_iff.2 ?_
    simp only [List.mem_append]
    exact .inr (.inr (.inl hjob))
  exact ⟨job.thread, mem_parkedJobs.1 hparked⟩

/-! ### Whose jobs there are -/

/-- There is one job for each thread that has parked its request. -/
structure Numbering (threads : List (CompileThread P)) (jobs : List CompileJob) : Prop where
  nodup : (jobs.map CompileJob.thread).Nodup
  mem_iff : ∀ i, i ∈ jobs.map CompileJob.thread ↔
    ∃ t : CompileThread P, threads[i]? = some t ∧ t.hasParked = true

variable {jobs : List CompileJob}

theorem Numbering.spawn (numbering : Numbering threads jobs) (r : CompileRequest) :
    Numbering (threads ++ [.start r]) jobs := by
  refine ⟨numbering.nodup, fun j => (numbering.mem_iff j).trans ⟨?_, ?_⟩⟩
  · rintro ⟨u, hj, hu⟩
    exact ⟨u, getElem?_append_of_some hj, hu⟩
  · rintro ⟨u, hj, hu⟩
    rcases getElem?_append_cases hj with ⟨-, rfl⟩ | hj
    · cases hu
    · exact ⟨u, hj, hu⟩

theorem Numbering.park (numbering : Numbering threads jobs) {r : CompileRequest}
    (hi : threads[i]? = some (.start r)) (ht' : t'.hasParked = true) :
    Numbering (threads.set i t') (⟨i, r⟩ :: jobs) := by
  have fresh : i ∉ jobs.map CompileJob.thread := by
    intro hmem
    obtain ⟨u, hu, hparked⟩ := (numbering.mem_iff i).1 hmem
    obtain rfl := Option.some.inj (hi.symm.trans hu)
    cases hparked
  refine ⟨List.nodup_cons.2 ⟨fresh, numbering.nodup⟩, fun j => ?_⟩
  rw [List.map_cons, List.mem_cons, numbering.mem_iff]
  constructor
  · rintro (rfl | ⟨u, hj, hu⟩)
    · exact ⟨t', getElem?_set_self_of_some hi, ht'⟩
    · have hne : j ≠ i := by
        rintro rfl
        exact fresh ((numbering.mem_iff _).2 ⟨u, hj, hu⟩)
      exact ⟨u, getElem?_set_of_ne hne hj, hu⟩
  · rintro ⟨u, hj, hu⟩
    rcases getElem?_set_cases hj with ⟨hji, -⟩ | ⟨-, hj⟩
    · exact .inl hji
    · exact .inr ⟨u, hj, hu⟩

/-- A thread goes on that has parked its request before. -/
theorem Numbering.set (numbering : Numbering threads jobs) (hi : threads[i]? = some t)
    (ht : t.hasParked = true) (ht' : t'.hasParked = true) : Numbering (threads.set i t') jobs := by
  refine ⟨numbering.nodup, fun j => (numbering.mem_iff j).trans ⟨?_, ?_⟩⟩
  · rintro ⟨u, hj, hu⟩
    by_cases hji : j = i
    · subst hji
      exact ⟨t', getElem?_set_self_of_some hi, ht'⟩
    · exact ⟨u, getElem?_set_of_ne hji hj, hu⟩
  · rintro ⟨u, hj, hu⟩
    rcases getElem?_set_cases hj with ⟨rfl, -⟩ | ⟨-, hj⟩
    · exact ⟨t, hi, ht⟩
    · exact ⟨u, hj, hu⟩

theorem Reachable.numbering {pool : CompilePool P} (hr : Reachable pool) :
    Numbering pool.threads pool.history.parkedJobs := by
  refine hr.invariant (I := fun pool => Numbering pool.threads pool.history.parkedJobs)
    ⟨List.nodup_nil, by simp [parkedJobs]⟩ (fun _ r numbering => numbering.spawn r)
    fun pool pool' _ hmove numbering => ?_
  cases hmove with
  | park thread => exact numbering.park thread rfl
  | enter thread _ | refused thread _ | take thread _ | drained thread _ | call thread
  | compilerReturns thread _ | announce thread | release thread | retry thread _
  | leave thread _ => exact numbering.set thread rfl rfl
  | idle => exact numbering

/-! ### When all threads have returned -/

/-- All threads have returned. -/
def AllDone (pool : CompilePool P) : Prop := ∀ t ∈ pool.threads, t.isDone = true

instance (pool : CompilePool P) : Decidable pool.AllDone :=
  inferInstanceAs (Decidable (∀ t ∈ pool.threads, t.isDone = true))

variable {pool : CompilePool P}

theorem AllDone.isDone (done : pool.AllDone) {i : Nat} {t : CompileThread P}
    (hi : pool.threads[i]? = some t) : t.isDone = true :=
  done t (List.mem_of_getElem? hi)

theorem Reachable.pending_eq_none (hr : Reachable pool) (done : pool.AllDone) :
    pool.slot.pending = none := by
  refine Classical.not_not.1 fun hp => ?_
  obtain ⟨i, t, hi, ht⟩ := hr.served hp
  rw [CompileThread.isActive_eq_false_of_isDone (done.isDone hi)] at ht
  cases ht

theorem Reachable.idle_of_allDone (hr : Reachable pool) (done : pool.AllDone) :
    Idle pool.history := by
  refine hr.phases.idle (Bool.eq_false_iff.2 fun held => ?_)
  obtain ⟨i, t, hi, ht⟩ := hr.gate.held_iff.1 held
  have hactive := CompileThread.isActive_of_holdsGate ht
  rw [CompileThread.isActive_eq_false_of_isDone (done.isDone hi)] at hactive
  cases hactive

theorem Reachable.pendingJob?_eq_none (hr : Reachable pool) (done : pool.AllDone) :
    pool.history.pendingJob? = none :=
  Option.map_eq_none_iff.1 (hr.pending_eq.symm.trans (hr.pending_eq_none done))

/-- **The job that was parked last is the one compiled last**, once all threads have returned. -/
theorem Reachable.head?_calledJobs (hr : Reachable pool) (done : pool.AllDone) :
    pool.history.calledJobs.head? = pool.history.parkedJobs.head? := by
  rw [hr.books.newest, hr.pendingJob?_eq_none done, (hr.idle_of_allDone done).1]
  simp

/-- **The state announces what became of the job that was parked last**, once all threads have
returned. -/
theorem Reachable.announces (hr : Reachable pool) (done : pool.AllDone) {job : CompileJob}
    (hjob : pool.history.parkedJobs.head? = some job) :
    ∃ result, pool.history.lastReturned? = some (job.request, result) ∧
      pool.slot.state.Announces job.request result :=
  hr.books.settled (hr.idle_of_allDone done).2 job ((hr.head?_calledJobs done).trans hjob)

theorem Reachable.mem_jobs (hr : Reachable pool) {job : CompileJob}
    (hjob : job ∈ pool.history.parkedJobs) :
    job ∈ pool.history.calledJobs ∨ job ∈ pool.history.replacedJobs ∨
      pool.history.pendingJob? = some job ∨ pool.history.takenJob? = some job := by
  have hmem := hr.books.jobs.mem_iff.1 hjob
  simp only [List.mem_append, Option.mem_toList] at hmem
  rcases hmem with hp | ht | hc | hr
  · exact .inr (.inr (.inl hp))
  · exact .inr (.inr (.inr ht))
  · exact .inl hc
  · exact .inr (.inl hr)

theorem Reachable.nodup_calledJobs (hr : Reachable pool) :
    (pool.history.calledJobs.map CompileJob.thread).Nodup := by
  have hnodup := (hr.books.jobs.map CompileJob.thread).nodup_iff.1 hr.numbering.nodup
  simp only [List.map_append] at hnodup
  exact (List.nodup_append.1 (List.nodup_append.1 (List.nodup_append.1 hnodup).2.1).2.1).1

/-- **Single flight without lost requests.**  At most one thread is between taking a request and
announcing what became of it.  The compiler is called at most once for the request of a thread, and
if it is not called, the request is on its way or was replaced by a later one while it was pending.
Once all threads have returned, nothing is pending, the job that was parked last is the one compiled
last, and the state announces its result. -/
theorem single_flight (hr : Reachable pool) :
    (∀ (i j : Nat) (t u : CompileThread P), pool.threads[i]? = some t →
      pool.threads[j]? = some u → t.isBusy = true → u.isBusy = true → i = j) ∧
    ((pool.history.calledJobs.map CompileJob.thread).Nodup ∧
      pool.history.calledJobs.map CompileJob.request = pool.history.calls ∧
      pool.slot.pending = pool.history.pendingJob?.map CompileJob.request ∧
      ∀ (i : Nat) (t : CompileThread P), pool.threads[i]? = some t → t.hasParked = true →
        ∃ job, job.thread = i ∧ (job ∈ pool.history.calledJobs ∨ job ∈ pool.history.replacedJobs ∨
          pool.history.pendingJob? = some job ∨ pool.history.takenJob? = some job)) ∧
    (pool.AllDone → pool.slot.pending = none ∧
      (∀ i < pool.threads.length, ∃ job, job.thread = i ∧
        (job ∈ pool.history.calledJobs ∨ job ∈ pool.history.replacedJobs)) ∧
      (pool.threads ≠ [] → ∃ job result, pool.history.parkedJobs.head? = some job ∧
        pool.history.calledJobs.head? = some job ∧
        pool.history.lastReturned? = some (job.request, result) ∧
        pool.slot.state.Announces job.request result)) := by
  have accounted : ∀ (i : Nat) (t : CompileThread P), pool.threads[i]? = some t →
      t.hasParked = true → ∃ job, job.thread = i ∧ job ∈ pool.history.parkedJobs := by
    intro i t hi ht
    obtain ⟨job, hjob, hthread⟩ := List.mem_map.1 ((hr.numbering.mem_iff i).2 ⟨t, hi, ht⟩)
    exact ⟨job, hthread, hjob⟩
  refine ⟨fun i j t u hi hj ht hu => hr.gate.unique i j t u hi hj
    (CompileThread.holdsGate_of_isBusy ht) (CompileThread.holdsGate_of_isBusy hu),
    ⟨hr.nodup_calledJobs, hr.books.calls, hr.pending_eq, fun i t hi ht => ?_⟩,
    fun done => ⟨hr.pending_eq_none done, fun i hi => ?_, fun hne => ?_⟩⟩
  · obtain ⟨job, hthread, hjob⟩ := accounted i t hi ht
    exact ⟨job, hthread, hr.mem_jobs hjob⟩
  · have hparked := CompileThread.hasParked_of_isDone (done _ (List.getElem_mem hi))
    obtain ⟨job, hthread, hjob⟩ := accounted i _ (List.getElem?_eq_getElem hi) hparked
    refine ⟨job, hthread, ?_⟩
    have hidle := hr.idle_of_allDone done
    simpa [hr.pendingJob?_eq_none done, hidle.1] using hr.mem_jobs hjob
  · have hlength := List.length_pos_iff.2 hne
    have hparked := CompileThread.hasParked_of_isDone (done _ (List.getElem_mem hlength))
    obtain ⟨job, -, hjob⟩ := accounted 0 _ (List.getElem?_eq_getElem hlength) hparked
    obtain ⟨newest, hnewest⟩ : ∃ newest, pool.history.parkedJobs.head? = some newest :=
      Option.isSome_iff_exists.1 (List.isSome_head?.2 (List.ne_nil_of_mem hjob))
    obtain ⟨result, hreturned, hannounced⟩ := hr.announces done hnewest
    exact ⟨newest, result, hnewest, (hr.head?_calledJobs done).trans hnewest, hreturned,
      hannounced⟩

/-- Two threads; the second finds the gate taken and leaves its request to the first. -/
def twoRequests : CompilePool Nat :=
  List.foldl turn ((spawn {} ⟨['a'], 0⟩).spawn ⟨['b'], 1⟩) <|
    -- the first thread parks, enters, takes and calls the compiler
    [.thread 0, .thread 0, .thread 0, .thread 0] ++
    -- the second one parks and is refused
    [.thread 1, .thread 1] ++
    -- the first one goes on with its own request and with that of the second
    [.compiler 0 (.ok 1), .thread 0, .thread 0, .thread 0, .compiler 0 (.error "no"), .thread 0] ++
    -- and leaves
    [.thread 0, .thread 0, .thread 0]

theorem single_flight_twoRequests : Reachable twoRequests ∧ AllDone twoRequests ∧
    twoRequests.slot.pending = none ∧ ∃ job result,
      twoRequests.history.parkedJobs.head? = some job ∧ job = ⟨1, ⟨['b'], 1⟩⟩ ∧
      twoRequests.history.lastReturned? = some (job.request, result) ∧
      twoRequests.slot.state.Announces job.request result := by
  have reachable : Reachable twoRequests := ((Reachable.init.spawn _).spawn _).turns _
  have done : AllDone twoRequests := by decide
  obtain ⟨-, -, final⟩ := single_flight reachable
  obtain ⟨empty, -, last⟩ := final done
  obtain ⟨job, result, hjob, -, hreturned, hannounced⟩ := last (by decide)
  exact ⟨reachable, done, empty, job, result, hjob, Option.some.inj (hjob.symm.trans rfl),
    hreturned, hannounced⟩

end CompilePool

end RayTracer
