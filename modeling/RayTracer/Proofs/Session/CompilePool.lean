import RayTracer.Proofs.Lists
import RayTracer.Session.ShaderSlot

/-!
# Threads that compile

A `CompilePool` is a slot with the threads that work on it and a record of what they did.  At each
turn one thread does one step (`CompileThread.step`) or the compiler returns to a thread that waits
for it; nothing is assumed about whose turn it is or when threads are started, so the reachable
pools are those of all interleavings.

`CompilePool.Move` lists what a turn can do, one constructor for each atomic action, and
`CompilePool.move_turn` says that there is nothing else.  Invariants are proved from it.

* `CompilePool.Reachable.gate` : the gate is held by one thread or by none, and the slot says which.
* `CompilePool.Reachable.served` : while a request is pending, some thread is on its way to it.
* `CompilePool.Reachable.ready` : a program in the slot is one that the compiler returned.

The second is why no request is lost: a thread that finds the gate taken leaves its request to the
holder, and a holder that has found nothing pending looks once more after it has released the gate.
-/

namespace RayTracer

/-- What a thread did. -/
inductive CompileEvent (P : Type) where
  /-- It parked its request. -/
  | parked (thread : Nat) (request : CompileRequest)
  /-- It took the pending request. -/
  | taken (thread : Nat) (request : CompileRequest)
  /-- It announced the compile and called the compiler. -/
  | called (thread : Nat) (request : CompileRequest)
  /-- The compiler returned to it. -/
  | returned (thread : Nat) (request : CompileRequest) (result : Except String P)
  /-- It announced the result. -/
  | announced (thread : Nat) (request : CompileRequest) (result : Except String P)

namespace CompileThread

variable {P : Type}

/-- What thread number `i` records of its next step. -/
def event? (i : Nat) (slot : ShaderSlot P) : CompileThread P → Option (CompileEvent P)
  | start request => some (.parked i request)
  | drain _ => slot.pending.map (.taken i)
  | taken request => some (.called i request)
  | returned request result => some (.announced i request result)
  | _ => none

/-- The thread is between taking the gate and releasing it. -/
def holdsGate : CompileThread P → Bool
  | drain _ | taken _ | compiling _ | returned _ _ | release _ => true
  | _ => false

/-- The thread is between taking a request and announcing what became of it. -/
def isBusy : CompileThread P → Bool
  | taken _ | compiling _ | returned _ _ => true
  | _ => false

/-- The thread has parked its request and has not returned. -/
def isActive : CompileThread P → Bool
  | start _ | done _ => false
  | _ => true

/-- The thread has returned. -/
def isDone : CompileThread P → Bool
  | done _ => true
  | _ => false

theorem holdsGate_of_isBusy {t : CompileThread P} (h : t.isBusy = true) : t.holdsGate = true := by
  cases t <;> first | rfl | cases h

theorem isActive_of_holdsGate {t : CompileThread P} (h : t.holdsGate = true) :
    t.isActive = true := by
  cases t <;> first | rfl | cases h

theorem isActive_eq_false_of_isDone {t : CompileThread P} (h : t.isDone = true) :
    t.isActive = false := by
  cases t <;> first | rfl | cases h

end CompileThread

/-- What the threads of a pool did, the newest event first. -/
abbrev CompileHistory (P : Type) := List (CompileEvent P)

/-- Whose turn it is. -/
inductive CompileTurn (P : Type) where
  /-- The thread does its next step. -/
  | thread (i : Nat)
  /-- The compiler returns to the thread. -/
  | compiler (i : Nat) (result : Except String P)

/-- A slot, the threads that compile for it and what they did. -/
structure CompilePool (P : Type) where
  slot : ShaderSlot P := {}
  threads : List (CompileThread P) := []
  history : CompileHistory P := []

namespace CompilePool

variable {P : Type}

/-- Starts a thread with a request. -/
def spawn (pool : CompilePool P) (request : CompileRequest) : CompilePool P :=
  { pool with threads := pool.threads ++ [.start request] }

/-- The pool after a turn.  A turn of a thread that cannot take it changes nothing. -/
def turn (pool : CompilePool P) : CompileTurn P → CompilePool P
  | .thread i =>
    match pool.threads[i]? with
    | some t =>
      { slot := (t.step pool.slot).1
        threads := pool.threads.set i (t.step pool.slot).2
        history := (t.event? i pool.slot).toList ++ pool.history }
    | none => pool
  | .compiler i result =>
    match pool.threads[i]? with
    | some (.compiling request) =>
      { pool with
        threads := pool.threads.set i ((CompileThread.compiling request).compilerReturns result)
        history := .returned i request result :: pool.history }
    | _ => pool

/-- The pools that can be reached from a new slot without threads. -/
inductive Reachable : CompilePool P → Prop
  | init : Reachable {}
  | spawn {pool : CompilePool P} (h : Reachable pool) (request : CompileRequest) :
      Reachable (pool.spawn request)
  | turn {pool : CompilePool P} (h : Reachable pool) (next : CompileTurn P) :
      Reachable (pool.turn next)

theorem Reachable.turns {pool : CompilePool P} (h : Reachable pool)
    (schedule : List (CompileTurn P)) : Reachable (schedule.foldl CompilePool.turn pool) := by
  induction schedule generalizing pool with
  | nil => exact h
  | cons next schedule ih => exact ih (h.turn next)

/-- The atomic actions of the threads. -/
inductive Move : CompilePool P → CompilePool P → Prop
  /-- A request is parked. -/
  | park {pool : CompilePool P} {i : Nat} {r : CompileRequest}
      (thread : pool.threads[i]? = some (.start r)) :
      Move pool ⟨{ pool.slot with pending := some r }, pool.threads.set i (.tryGate false),
        .parked i r :: pool.history⟩
  /-- The gate is taken. -/
  | enter {pool : CompilePool P} {i : Nat} {c : Bool}
      (thread : pool.threads[i]? = some (.tryGate c)) (free : pool.slot.gateHeld = false) :
      Move pool ⟨{ pool.slot with gateHeld := true }, pool.threads.set i (.drain c), pool.history⟩
  /-- The gate is held by another thread. -/
  | refused {pool : CompilePool P} {i : Nat} {c : Bool}
      (thread : pool.threads[i]? = some (.tryGate c)) (held : pool.slot.gateHeld = true) :
      Move pool { pool with threads := pool.threads.set i (.done c) }
  /-- The pending request is taken. -/
  | take {pool : CompilePool P} {i : Nat} {c : Bool} {r : CompileRequest}
      (thread : pool.threads[i]? = some (.drain c)) (pending : pool.slot.pending = some r) :
      Move pool ⟨{ pool.slot with pending := none }, pool.threads.set i (.taken r),
        .taken i r :: pool.history⟩
  /-- Nothing is pending. -/
  | drained {pool : CompilePool P} {i : Nat} {c : Bool}
      (thread : pool.threads[i]? = some (.drain c)) (pending : pool.slot.pending = none) :
      Move pool { pool with threads := pool.threads.set i (.release c) }
  /-- A compile is announced and the compiler is called. -/
  | call {pool : CompilePool P} {i : Nat} {r : CompileRequest}
      (thread : pool.threads[i]? = some (.taken r)) :
      Move pool ⟨{ pool.slot with state := pool.slot.state.startCompile r },
        pool.threads.set i (.compiling r), .called i r :: pool.history⟩
  /-- The compiler returns. -/
  | compilerReturns {pool : CompilePool P} {i : Nat} {r : CompileRequest}
      (thread : pool.threads[i]? = some (.compiling r)) (result : Except String P) :
      Move pool ⟨pool.slot, pool.threads.set i (.returned r result),
        .returned i r result :: pool.history⟩
  /-- A result is announced. -/
  | announce {pool : CompilePool P} {i : Nat} {r : CompileRequest} {result : Except String P}
      (thread : pool.threads[i]? = some (.returned r result)) :
      Move pool ⟨{ pool.slot with state := pool.slot.state.finishCompile r result },
        pool.threads.set i (.drain true), .announced i r result :: pool.history⟩
  /-- The gate is released. -/
  | release {pool : CompilePool P} {i : Nat} {c : Bool}
      (thread : pool.threads[i]? = some (.release c)) :
      Move pool
        ⟨{ pool.slot with gateHeld := false }, pool.threads.set i (.recheck c), pool.history⟩
  /-- A request was parked between the last look and the release. -/
  | retry {pool : CompilePool P} {i : Nat} {c : Bool}
      (thread : pool.threads[i]? = some (.recheck c)) (pending : pool.slot.pending ≠ none) :
      Move pool { pool with threads := pool.threads.set i (.tryGate c) }
  /-- Still nothing is pending. -/
  | leave {pool : CompilePool P} {i : Nat} {c : Bool}
      (thread : pool.threads[i]? = some (.recheck c)) (pending : pool.slot.pending = none) :
      Move pool { pool with threads := pool.threads.set i (.done c) }
  /-- The turn is one that no one can take. -/
  | idle (pool : CompilePool P) : Move pool pool

theorem set_eq_self_of_getElem? {α : Type} {l : List α} {i : Nat} {a : α} (h : l[i]? = some a) :
    l.set i a = l := by
  obtain ⟨hi, rfl⟩ := List.getElem?_eq_some_iff.1 h
  exact List.set_getElem_self hi

/-- The step of a thread is one of the atomic actions. -/
theorem move_step {pool : CompilePool P} {i : Nat} {t : CompileThread P}
    (thread : pool.threads[i]? = some t) :
    Move pool ⟨(t.step pool.slot).1, pool.threads.set i (t.step pool.slot).2,
      (t.event? i pool.slot).toList ++ pool.history⟩ := by
  cases t with
  | start r => exact .park thread
  | tryGate c =>
    cases hg : pool.slot.gateHeld with
    | true => simpa [CompileThread.step, CompileThread.event?, hg] using Move.refused thread hg
    | false => simpa [CompileThread.step, CompileThread.event?, hg] using Move.enter thread hg
  | drain c =>
    cases hp : pool.slot.pending with
    | none => simpa [CompileThread.step, CompileThread.event?, hp] using Move.drained thread hp
    | some r => simpa [CompileThread.step, CompileThread.event?, hp] using Move.take thread hp
  | taken r => exact .call thread
  | returned r result => exact .announce thread
  | release c => exact .release thread
  | recheck c =>
    cases hp : pool.slot.pending with
    | none => simpa [CompileThread.step, CompileThread.event?, hp] using Move.leave thread hp
    | some r =>
      have hne : pool.slot.pending ≠ none := by simp [hp]
      simpa [CompileThread.step, CompileThread.event?, hp] using Move.retry thread hne
  | compiling _ | done _ =>
    simpa [CompileThread.step, CompileThread.event?, set_eq_self_of_getElem? thread]
      using Move.idle pool

/-- **A turn is one of the atomic actions.** -/
theorem move_turn (pool : CompilePool P) (next : CompileTurn P) : Move pool (pool.turn next) := by
  cases next with
  | thread i =>
    simp only [turn]
    split
    · rename_i t thread
      exact move_step thread
    · exact .idle pool
  | compiler i result =>
    simp only [turn]
    split
    · rename_i r thread
      exact .compilerReturns thread result
    · exact .idle pool

/-- What holds of the new slot and is kept by new threads and by every action holds of all
reachable pools. -/
theorem Reachable.invariant {I : CompilePool P → Prop} {pool : CompilePool P} (h : Reachable pool)
    (init : I {}) (hspawn : ∀ pool r, I pool → I (pool.spawn r))
    (hmove : ∀ pool pool', Reachable pool → Move pool pool' → I pool → I pool') : I pool := by
  induction h with
  | init => exact init
  | spawn h r ih => exact hspawn _ r ih
  | turn h next ih => exact hmove _ _ h (move_turn _ next) ih

/-! ### The gate -/

/-- At most one thread holds the gate, and `held` says whether one does. -/
structure Gate (threads : List (CompileThread P)) (held : Bool) : Prop where
  unique : ∀ (i j : Nat) (t u : CompileThread P), threads[i]? = some t → threads[j]? = some u →
    t.holdsGate = true → u.holdsGate = true → i = j
  held_iff : held = true ↔
    ∃ (i : Nat) (t : CompileThread P), threads[i]? = some t ∧ t.holdsGate = true

variable {threads : List (CompileThread P)} {held : Bool} {i : Nat} {t t' : CompileThread P}

/-- A thread goes on, inside the gate or outside of it. -/
theorem Gate.set (h : Gate threads held) (hi : threads[i]? = some t)
    (ht : t'.holdsGate = t.holdsGate) : Gate (threads.set i t') held := by
  refine ⟨fun j k u v hj hk hu hv => ?_, h.held_iff.trans ⟨?_, ?_⟩⟩
  · rcases getElem?_set_cases hj with ⟨rfl, rfl⟩ | ⟨-, hj'⟩ <;>
      rcases getElem?_set_cases hk with ⟨rfl, rfl⟩ | ⟨-, hk'⟩
    · rfl
    · exact h.unique _ _ _ _ hi hk' (ht ▸ hu) hv
    · exact h.unique _ _ _ _ hj' hi hu (ht ▸ hv)
    · exact h.unique _ _ _ _ hj' hk' hu hv
  · rintro ⟨j, u, hj, hu⟩
    by_cases hji : j = i
    · subst hji
      obtain rfl : t = u := Option.some.inj (hi.symm.trans hj)
      exact ⟨j, t', getElem?_set_self_of_some hi, ht.trans hu⟩
    · exact ⟨j, u, getElem?_set_of_ne hji hj, hu⟩
  · rintro ⟨j, u, hj, hu⟩
    rcases getElem?_set_cases hj with ⟨rfl, rfl⟩ | ⟨-, hj⟩
    · exact ⟨j, t, hi, ht ▸ hu⟩
    · exact ⟨j, u, hj, hu⟩

theorem Gate.not_holds (h : Gate threads false) (hi : threads[i]? = some t) :
    t.holdsGate = false := by
  cases ht : t.holdsGate with
  | false => rfl
  | true => exact absurd (h.held_iff.2 ⟨i, t, hi, ht⟩) Bool.false_ne_true

theorem Gate.enter (h : Gate threads false) (hi : threads[i]? = some t)
    (ht : t'.holdsGate = true) : Gate (threads.set i t') true := by
  refine ⟨fun j k u v hj hk hu hv => ?_, fun _ => ⟨i, t', getElem?_set_self_of_some hi, ht⟩,
    fun _ => rfl⟩
  rcases getElem?_set_cases hj with ⟨rfl, rfl⟩ | ⟨-, hj⟩
  · rcases getElem?_set_cases hk with ⟨rfl, rfl⟩ | ⟨-, hk⟩
    · rfl
    · exact absurd ((h.not_holds hk).symm.trans hv) Bool.false_ne_true
  · exact absurd ((h.not_holds hj).symm.trans hu) Bool.false_ne_true

theorem Gate.release (h : Gate threads held) (hi : threads[i]? = some t)
    (ht : t.holdsGate = true) (ht' : t'.holdsGate = false) : Gate (threads.set i t') false := by
  have none : ∀ (j : Nat) (u : CompileThread P), (threads.set i t')[j]? = some u →
      u.holdsGate = false := by
    intro j u hj
    rcases getElem?_set_cases hj with ⟨rfl, rfl⟩ | ⟨hne, hj⟩
    · exact ht'
    · cases hu : u.holdsGate with
      | false => rfl
      | true => exact absurd (h.unique _ _ _ _ hj hi hu ht) hne
  refine ⟨fun j k u v hj _ hu _ => ?_, fun hf => absurd hf Bool.false_ne_true, ?_⟩
  · exact absurd ((none j u hj).symm.trans hu) Bool.false_ne_true
  · rintro ⟨j, u, hj, hu⟩
    exact absurd ((none j u hj).symm.trans hu) Bool.false_ne_true

theorem Gate.spawn (h : Gate threads held) (ht : t.holdsGate = false) :
    Gate (threads ++ [t]) held := by
  refine ⟨fun j k u v hj hk hu hv => ?_, h.held_iff.trans ⟨?_, ?_⟩⟩
  · rcases getElem?_append_cases hj with ⟨-, rfl⟩ | hj
    · exact absurd (ht.symm.trans hu) Bool.false_ne_true
    · rcases getElem?_append_cases hk with ⟨-, rfl⟩ | hk
      · exact absurd (ht.symm.trans hv) Bool.false_ne_true
      · exact h.unique _ _ _ _ hj hk hu hv
  · rintro ⟨j, u, hj, hu⟩
    exact ⟨j, u, getElem?_append_of_some hj, hu⟩
  · rintro ⟨j, u, hj, hu⟩
    rcases getElem?_append_cases hj with ⟨-, rfl⟩ | hj
    · exact absurd (ht.symm.trans hu) Bool.false_ne_true
    · exact ⟨j, u, hj, hu⟩

/-- **The gate is held by one thread or by none**, and the slot says which. -/
theorem Reachable.gate {pool : CompilePool P} (h : Reachable pool) :
    Gate pool.threads pool.slot.gateHeld := by
  refine h.invariant (I := fun pool => Gate pool.threads pool.slot.gateHeld)
    ⟨nofun, nofun, nofun⟩ (fun pool r gate => gate.spawn rfl) fun pool pool' _ hmove gate => ?_
  cases hmove with
  | enter thread free => rw [free] at gate; exact gate.enter thread rfl
  | release thread => exact gate.release thread rfl rfl
  | park thread | refused thread _ | take thread _ | drained thread _ | call thread
  | compilerReturns thread _ | announce thread | retry thread _ | leave thread _ =>
    exact gate.set thread rfl
  | idle => exact gate

/-! ### No request is left alone -/

/-- If a request is pending, some thread is on its way to the gate or holds it. -/
def Served (pool : CompilePool P) : Prop :=
  pool.slot.pending ≠ none →
    ∃ (i : Nat) (t : CompileThread P), pool.threads[i]? = some t ∧ t.isActive = true

theorem served_set {slot : ShaderSlot P} {history : CompileHistory P}
    (hi : threads[i]? = some t) (ht : t'.isActive = true) :
    Served ⟨slot, threads.set i t', history⟩ :=
  fun _ => ⟨i, t', getElem?_set_self_of_some hi, ht⟩

/-- **While a request is pending, some thread is on its way to it.** -/
theorem Reachable.served {pool : CompilePool P} (h : Reachable pool) : pool.Served := by
  refine h.invariant (fun hp => absurd rfl hp) (fun pool r served hp => ?_)
    fun pool pool' hr hmove served => ?_
  · obtain ⟨j, u, hj, hu⟩ := served hp
    exact ⟨j, u, getElem?_append_of_some hj, hu⟩
  cases hmove with
  | @refused i c thread held =>
    -- the holder of the gate is another thread
    obtain ⟨j, u, hj, hu⟩ := hr.gate.held_iff.1 held
    have hne : j ≠ i := by
      rintro rfl
      obtain rfl := Option.some.inj (thread.symm.trans hj)
      cases hu
    intro _
    exact ⟨j, u, getElem?_set_of_ne hne hj, CompileThread.isActive_of_holdsGate hu⟩
  | leave thread pending => exact fun hp => absurd pending hp
  | park thread | enter thread _ | take thread _ | drained thread _ | call thread
  | compilerReturns thread _ | announce thread | release thread | retry thread _ =>
    exact served_set thread rfl
  | idle => exact served

/-! ### What the compiler did -/

variable {h h' : CompileHistory P}

/-- The calls and returns that brought the thread where it is are on record. -/
def Recorded (h : CompileHistory P) (i : Nat) : CompileThread P → Prop
  | .compiling r => .called i r ∈ h
  | .returned r result => .called i r ∈ h ∧ .returned i r result ∈ h
  | _ => True

theorem Recorded.mono {t : CompileThread P} (ht : Recorded h i t) (hsub : h ⊆ h') :
    Recorded h' i t := by
  cases t with
  | compiling r => exact hsub ht
  | returned r result => exact ⟨hsub ht.1, hsub ht.2⟩
  | _ => trivial

/-- All threads are on record. -/
def AllRecorded (threads : List (CompileThread P)) (h : CompileHistory P) : Prop :=
  ∀ (i : Nat) (t : CompileThread P), threads[i]? = some t → Recorded h i t

theorem AllRecorded.set (recorded : AllRecorded threads h) (hsub : h ⊆ h')
    (ht' : Recorded h' i t') : AllRecorded (threads.set i t') h' := by
  intro j u hj
  rcases getElem?_set_cases hj with ⟨rfl, rfl⟩ | ⟨-, hj⟩
  · exact ht'
  · exact (recorded j u hj).mono hsub

theorem Reachable.recorded {pool : CompilePool P} (hr : Reachable pool) :
    AllRecorded pool.threads pool.history := by
  refine hr.invariant (I := fun pool => AllRecorded pool.threads pool.history) nofun
    (fun pool r recorded j u hj => ?_) fun pool pool' _ hmove recorded => ?_
  · rcases getElem?_append_cases hj with ⟨-, rfl⟩ | hj
    · trivial
    · exact recorded j u hj
  cases hmove with
  | call thread => exact recorded.set (List.subset_cons_self _ _) List.mem_cons_self
  | compilerReturns thread result =>
    have called := recorded _ _ thread
    exact recorded.set (List.subset_cons_self _ _)
      ⟨List.mem_cons_of_mem _ called, List.mem_cons_self⟩
  | park | take | announce => exact recorded.set (List.subset_cons_self _ _) trivial
  | enter | refused | drained | release | retry | leave =>
    exact recorded.set (List.Subset.refl _) trivial
  | idle => exact recorded

/-- If a program is ready, the compiler returned it for a request of its generation. -/
def ReadyRecorded (state : ShaderState P) (h : CompileHistory P) : Prop :=
  ∀ g program, state = .ready g program → ∃ (i : Nat) (r : CompileRequest),
    .called i r ∈ h ∧ .returned i r (.ok program) ∈ h ∧ r.generation = g

theorem ReadyRecorded.mono {state : ShaderState P} (ready : ReadyRecorded state h)
    (hsub : h ⊆ h') : ReadyRecorded state h' := by
  intro g program hs
  obtain ⟨i, r, hcalled, hreturned, hg⟩ := ready g program hs
  exact ⟨i, r, hsub hcalled, hsub hreturned, hg⟩

/-- **A program in the slot is one that the compiler returned.** -/
theorem Reachable.ready {pool : CompilePool P} (hr : Reachable pool) :
    ReadyRecorded pool.slot.state pool.history := by
  refine hr.invariant (I := fun pool => ReadyRecorded pool.slot.state pool.history) nofun
    (fun _ _ ready => ready) fun pool pool' hr hmove ready => ?_
  cases hmove with
  | call => exact nofun
  | @announce i r result thread =>
    obtain ⟨hcalled, hreturned⟩ := hr.recorded _ _ thread
    cases result with
    | ok program =>
      rintro g _ ⟨⟩
      exact ⟨i, r, List.mem_cons_of_mem _ hcalled, List.mem_cons_of_mem _ hreturned, rfl⟩
    | error diagnostic => exact nofun
  | park | take | compilerReturns => exact ready.mono (List.subset_cons_self _ _)
  | _ => exact ready

/-! ### A thread by itself -/

/-- The turns of a thread that finds the gate free and is not interrupted. -/
def soloTurns (i : Nat) (result : Except String P) : List (CompileTurn P) :=
  List.replicate 4 (.thread i) ++ .compiler i result :: List.replicate 4 (.thread i)

/-- What the thread does in these turns. -/
def soloEvents (i : Nat) (r : CompileRequest) (result : Except String P) : CompileHistory P :=
  [.announced i r result, .returned i r result, .called i r, .taken i r, .parked i r]

theorem turn_set {slot : ShaderSlot P} (hi : i < threads.length) :
    turn ⟨slot, threads.set i t, h⟩ (.thread i) =
      ⟨(t.step slot).1, threads.set i (t.step slot).2, (t.event? i slot).toList ++ h⟩ := by
  simp [turn, hi]

theorem turn_set_compiling {slot : ShaderSlot P} {r : CompileRequest} (hi : i < threads.length)
    (result : Except String P) :
    turn ⟨slot, threads.set i (.compiling r), h⟩ (.compiler i result) =
      ⟨slot, threads.set i (.returned r result), .returned i r result :: h⟩ := by
  simp [turn, hi, CompileThread.compilerReturns]

/-- **A thread by itself compiles its request and returns**, whatever was pending before. -/
theorem foldl_soloTurns {pool : CompilePool P} {r : CompileRequest}
    (hi : pool.threads[i]? = some (.start r)) (free : pool.slot.gateHeld = false)
    (result : Except String P) :
    (soloTurns i result).foldl turn pool =
      ⟨⟨false, none, (pool.slot.state.startCompile r).finishCompile r result⟩,
        pool.threads.set i (.done true), soloEvents i r result ++ pool.history⟩ := by
  obtain ⟨slot, threads, history⟩ := pool
  obtain ⟨hlt, -⟩ := List.getElem?_eq_some_iff.1 hi
  have hstart : threads = threads.set i (.start r) := (set_eq_self_of_getElem? hi).symm
  rw [hstart]
  have hgate : slot.gateHeld = false := free
  -- the nine turns, one after the other
  simp [soloTurns, soloEvents, List.replicate, turn_set hlt, turn_set_compiling hlt,
    CompileThread.step, CompileThread.event?, hgate]

end CompilePool

end RayTracer
