/-!
# Compiling in the background

The shader is compiled on background threads, of which at most one is inside the compiler.  A
request is first parked in `pending`, where it replaces an older one; then the thread tries to take
the gate.  The thread that holds the gate compiles what is pending until nothing is, releases the
gate and looks once more.

`CompileThread.step` is one step of a thread, between any two of which other threads may run.
`CompileThread.settle` runs a thread by itself until it is inside the compiler or done.
-/

namespace RayTracer

/-- The text of a shader and the generation of the scene that it was made for. -/
structure CompileRequest where
  source : List Char
  generation : Nat
  deriving DecidableEq, Repr

/-- What has become of the shader.  Programs carry the generation of their source, so that the
program of a replaced scene is never taken for the current one. -/
inductive ShaderState (P : Type) where
  | idle
  | compiling (generation : Nat) (previous : Option P)
  | ready (generation : Nat) (program : P)
  | failed (diagnostic : String) (previous : Option P)
  deriving Repr

namespace ShaderState

variable {P : Type}

/-- The last program that compiled, whatever its generation. -/
def program? : ShaderState P → Option P
  | idle => none
  | compiling _ previous | failed _ previous => previous
  | ready _ program => some program

/-- The program of the given generation. -/
def current? (generation : Nat) : ShaderState P → Option P
  | ready g program => if g = generation then some program else none
  | _ => none

/-- The generation that is being compiled. -/
def compiling? : ShaderState P → Option Nat
  | compiling g _ => some g
  | _ => none

/-- What the compiler said last, if the last compile failed. -/
def diagnostic? : ShaderState P → Option String
  | failed d _ => some d
  | _ => none

/-- The state while a request is inside the compiler. -/
def startCompile (state : ShaderState P) (request : CompileRequest) : ShaderState P :=
  compiling request.generation state.program?

/-- The state after the compiler has returned. -/
def finishCompile (state : ShaderState P) (request : CompileRequest) :
    Except String P → ShaderState P
  | .ok program => ready request.generation program
  | .error diagnostic => failed diagnostic state.program?

end ShaderState

/-- What the threads that compile share. -/
structure ShaderSlot (P : Type) where
  /-- Some thread holds the gate. -/
  gateHeld : Bool := false
  pending : Option CompileRequest := none
  state : ShaderState P := .idle
  deriving Repr

/-- Whether the generation is waiting or being compiled. -/
def ShaderSlot.isCompilingFor {P : Type} (slot : ShaderSlot P) (generation : Nat) : Bool :=
  slot.pending.any (·.generation == generation) || slot.state.compiling? == some generation

/-! ### Threads -/

/-- How far a thread has come.  `compiled` says whether it has compiled anything. -/
inductive CompileThread (P : Type) where
  /-- About to park its request. -/
  | start (request : CompileRequest)
  /-- About to try the gate. -/
  | tryGate (compiled : Bool)
  /-- Holding the gate, about to take what is pending. -/
  | drain (compiled : Bool)
  /-- Holding the gate with a request, about to announce it. -/
  | taken (request : CompileRequest)
  /-- Inside the compiler. -/
  | compiling (request : CompileRequest)
  /-- The compiler has returned; about to announce the result. -/
  | returned (request : CompileRequest) (result : Except String P)
  /-- Nothing was pending; about to release the gate. -/
  | release (compiled : Bool)
  /-- The gate is released; about to look for a request parked meanwhile. -/
  | recheck (compiled : Bool)
  /-- Finished; `false` if the request was left to another thread. -/
  | done (compiled : Bool)
  deriving Repr

namespace CompileThread

variable {P : Type}

/-- One step of a thread that is neither inside the compiler nor done. -/
def step (slot : ShaderSlot P) : CompileThread P → ShaderSlot P × CompileThread P
  | start request => ({ slot with pending := some request }, tryGate false)
  | tryGate compiled =>
    if slot.gateHeld then (slot, done compiled)
    else ({ slot with gateHeld := true }, drain compiled)
  | drain compiled =>
    match slot.pending with
    | none => (slot, release compiled)
    | some request => ({ slot with pending := none }, taken request)
  | taken request =>
    ({ slot with state := slot.state.startCompile request }, compiling request)
  | compiling request => (slot, compiling request)
  | returned request result =>
    ({ slot with state := slot.state.finishCompile request result }, drain true)
  | release compiled => ({ slot with gateHeld := false }, recheck compiled)
  | recheck compiled =>
    if slot.pending.isNone then (slot, done compiled) else (slot, tryGate compiled)
  | done compiled => (slot, done compiled)

/-- The thread after the compiler has returned. -/
def compilerReturns (result : Except String P) : CompileThread P → CompileThread P
  | compiling request => returned request result
  | t => t

/-- Whether the thread waits for the compiler or has finished. -/
def isSettled : CompileThread P → Bool
  | compiling _ | done _ => true
  | _ => false

/-- Bound on the steps that a thread can take by itself before it is settled. -/
def stepsLeft (slot : ShaderSlot P) : CompileThread P → Nat
  | start _ => 7
  | tryGate _ => if slot.pending.isSome then 3 else 6
  | drain _ => if slot.pending.isSome then 2 else 5
  | taken _ => 1
  | compiling _ => 0
  | returned _ _ => 7
  | release _ => if slot.pending.isSome then 5 else 2
  | recheck _ => if slot.pending.isSome then 4 else 1
  | done _ => 0

theorem stepsLeft_step (slot : ShaderSlot P) (t : CompileThread P) (h : t.isSettled = false) :
    (t.step slot).2.stepsLeft (t.step slot).1 < t.stepsLeft slot := by
  cases t <;> simp only [isSettled, reduceCtorEq] at h <;> simp only [step]
  case start => simp [stepsLeft]
  case tryGate c => split <;> simp [stepsLeft] <;> split <;> omega
  case drain c => cases hp : slot.pending <;> simp [stepsLeft, hp]
  case taken => simp [stepsLeft]
  case returned => simp only [stepsLeft]; split <;> omega
  case release => simp only [stepsLeft]; split <;> omega
  case recheck => cases hp : slot.pending <;> simp [stepsLeft, hp]

/-- Runs a thread by itself until it waits for the compiler or has finished. -/
def settle (slot : ShaderSlot P) (t : CompileThread P) : ShaderSlot P × CompileThread P :=
  if _h : t.isSettled then (slot, t)
  else settle (t.step slot).1 (t.step slot).2
termination_by t.stepsLeft slot
decreasing_by exact stepsLeft_step slot t (by simpa using _h)

end CompileThread

end RayTracer
