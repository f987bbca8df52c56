import RayTracer.Unroll.Directive

/-!
# Faults of marked sources

An `UnrollError` says why no program can be made from a marked source.  Those that carry a line
number point at the line at fault, counted from one.
-/

namespace RayTracer

/-- Why a marked source is refused. -/
inductive UnrollError where
  | unknownDirective (line : Nat) (word : Line)
  | malformedDirective (line : Nat) (text : Line)
  | nestedFunction (line : Nat) (name enclosing : Line)
  | missingDeclaration (line : Nat) (name : Line)
  | mismatchedEnd (line : Nat) (kind : DirectiveKind) (expected found : Line)
  | outsideFunction (line : Nat) (kind : DirectiveKind)
  | nestedBlock (line : Nat) (name enclosing : Line)
  | unclosedBlock (line : Nat) (function block : Line)
  | unclosedFunction (name : Line)
  | duplicateFunction (line : Nat) (name : Line)
  | missingCallSite (line : Nat) (callee : Line)
  | unknownCallee (line : Nat) (callee : Line)
  | unmarkedCall (line : Nat) (function callee : Line)
  | unguardedRecursion (line : Nat) (callee : Line)
  /-- No level at all is asked for. -/
  | zeroDepth
  /-- The place where the scene is to be written is missing. -/
  | missingSceneMarker (name : Line)
  deriving DecidableEq, Repr

/-- The wording of a fault. -/
def UnrollError.message : UnrollError → String
  | unknownDirective n word => s!"line {n}: unknown directive `rec:{String.ofList word}`"
  | malformedDirective n text => s!"line {n}: malformed directive `{String.ofList text}`"
  | nestedFunction n name enclosing =>
    s!"line {n}: `rec:func {String.ofList name}` opened inside function " ++
      s!"`{String.ofList enclosing}`"
  | missingDeclaration n name =>
    s!"line {n}: expected `fn {String.ofList name}(` after `rec:func {String.ofList name}`"
  | mismatchedEnd n kind expected found =>
    s!"line {n}: `rec:{kind.text} {String.ofList found}` does not close " ++
      s!"`{String.ofList expected}`"
  | outsideFunction n kind => s!"line {n}: `rec:{kind.text}` outside any marked function"
  | nestedBlock n name enclosing =>
    s!"line {n}: depth block `{String.ofList name}` opened inside depth block " ++
      s!"`{String.ofList enclosing}`"
  | unclosedBlock n function block =>
    s!"line {n}: function `{String.ofList function}` closed inside depth block " ++
      s!"`{String.ofList block}`"
  | unclosedFunction name => s!"function `{String.ofList name}` is never closed"
  | duplicateFunction n name => s!"line {n}: function `{String.ofList name}` is marked twice"
  | missingCallSite n callee =>
    s!"line {n}: call marker for `{String.ofList callee}` is not followed by a call to it"
  | unknownCallee n callee => s!"line {n}: `{String.ofList callee}` is not a marked function"
  | unmarkedCall n function callee =>
    s!"line {n}: call to `{String.ofList callee}` in `{String.ofList function}` has no " ++
      "`rec:call` or `rec:rec-call` marker"
  | unguardedRecursion n callee =>
    s!"line {n}: recursive call to `{String.ofList callee}` outside a depth block never terminates"
  | zeroDepth => "maximum depth must be at least 1"
  | missingSceneMarker name => s!"scene marker `scene:{String.ofList name}` not found"

end RayTracer
