import RayTracer.Program.Log
import RayTracer.Session.Basic

/-!
# The command line

`Options.ofArguments` reads the arguments of the program one by one.  A long option is written
`--name value` or `--name=value`, a short one `-n value`, `-nvalue` or `-n=value`.  An option is
given at most once.

The value of an option is checked when the next option begins or the arguments end.  An argument
that is neither an option nor a value is therefore reported before a wrong value in front of it.
-/

namespace RayTracer

/-- What the user asked for. -/
structure Options where
  /-- Path of the scene description. -/
  scene : String := "scenes/default.json"
  logLevel : LogLevel := .info
  width : UInt32 := 800
  height : UInt32 := 600
  /-- Bound on the reflection levels in place of the scene's own. -/
  maxDepth : Option UInt32 := none
  /-- Edge of the blocks that share one sample. -/
  quality : UInt32 := 1
  backend : Backend := .direct
  /-- Where to write the generated shader. -/
  emitShader : Option String := none
  iterative : Bool := false
  /-- Where to write the image. -/
  output : String := "output.png"
  deriving DecidableEq, Repr

/-- Why the arguments give no options. -/
inductive ArgumentError where
  /-- The user asked for help. -/
  | helpRequested
  /-- An argument that is neither an option nor the value of one. -/
  | unknownArgument
  /-- A value is missing, empty, or not in the list of values. -/
  | invalidValue
  /-- A number is malformed or out of range. -/
  | numberOutOfRange
  /-- An option is given twice. -/
  | repeatedOption
  /-- A value is attached to an option that takes none. -/
  | unexpectedValue
  deriving DecidableEq, Repr

namespace ArgumentError

/-- The exit code of the program. -/
def exitCode : ArgumentError → UInt32
  | helpRequested => 0
  | _ => 2

/-- The help text. -/
def help : List String :=
  ["Usage: [OPTIONS]",
    "",
    "Options:",
    "  -s, --scene <SCENE>              Scene description (JSON)",
    "      --debug-level <LEVEL>        error, warn, info, debug or trace",
    "      --width <WIDTH>              Image width in pixels",
    "      --height <HEIGHT>            Image height in pixels",
    "      --max-depth <DEPTH>          Bound on the reflection levels, at least 1",
    "  -q, --quality <EDGE>             Edge of the blocks that share one sample",
    "      --backend <BACKEND>          direct or compiled",
    "      --emit-shader <PATH>         Write the generated shader to this path",
    "      --iterative                  Gather colors by a loop instead of recursion",
    "  -o, --output <OUTPUT>            Image file, .png or .exr",
    "  -h, --help                       Print help"]

/-- The wording of an error. -/
def message : ArgumentError → String
  | helpRequested => "\n".intercalate help
  | unknownArgument => "error: unexpected argument"
  | invalidValue => "error: missing or unknown value"
  | numberOutOfRange => "error: number out of range"
  | repeatedOption => "error: option given more than once"
  | unexpectedValue => "error: value for an option that takes none"

end ArgumentError

/-- The options that take a value. -/
inductive OptionName where
  | scene
  | debugLevel
  | width
  | height
  | maxDepth
  | quality
  | backend
  | emitShader
  | output
  deriving DecidableEq, Repr

/-- What the name of an option stands for. -/
inductive OptionRole where
  | withValue (name : OptionName)
  | iterative
  | help
  deriving DecidableEq, Repr

namespace OptionRole

/-- The option of the given long name. -/
def ofLong? : String → Option OptionRole
  | "scene" => some (withValue .scene)
  | "debug-level" => some (withValue .debugLevel)
  | "width" => some (withValue .width)
  | "height" => some (withValue .height)
  | "max-depth" => some (withValue .maxDepth)
  | "quality" => some (withValue .quality)
  | "backend" => some (withValue .backend)
  | "emit-shader" => some (withValue .emitShader)
  | "output" => some (withValue .output)
  | "iterative" => some iterative
  | "help" => some help
  | _ => none

/-- The option of the given short name. -/
def ofShort? : Char → Option OptionRole
  | 's' => some (withValue .scene)
  | 'q' => some (withValue .quality)
  | 'o' => some (withValue .output)
  | 'h' => some help
  | _ => none

end OptionRole

/-! ### Values -/

/-- A whole number from `least` to the greatest 32-bit word, with an optional sign. -/
def wordOption (least : Nat) (value : String) : Except ArgumentError UInt32 :=
  let (negative, digits) : Bool × List Char := match value.toList with
    | '-' :: rest => (true, rest)
    | '+' :: rest => (false, rest)
    | cs => (false, cs)
  let n := naturalOfDigits digits
  if digits.isEmpty ∨ ¬ digits.all Char.isDigit then .error .numberOutOfRange
  else if (negative ∧ n ≠ 0) ∨ n < least ∨ UInt32.size ≤ n then .error .numberOutOfRange
  else .ok (.ofNat n)

/-- A path, which is not empty. -/
def pathOption (value : String) : Except ArgumentError String :=
  if value = "" then .error .invalidValue else .ok value

/-- The backend of the given name. -/
def backendOption : String → Except ArgumentError Backend
  | "direct" => .ok .direct
  | "compiled" => .ok .compiled
  | _ => .error .invalidValue

/-- The level of the given name. -/
def levelOption (value : String) : Except ArgumentError LogLevel :=
  match LogLevel.ofOption? value with
  | some level => .ok level
  | none => .error .invalidValue

/-- The options with the value of one of them set. -/
def Options.set (options : Options) (value : String) : OptionName → Except ArgumentError Options
  | .scene => do return { options with scene := ← pathOption value }
  | .debugLevel => do return { options with logLevel := ← levelOption value }
  | .width => do return { options with width := ← wordOption 0 value }
  | .height => do return { options with height := ← wordOption 0 value }
  | .maxDepth => do return { options with maxDepth := some (← wordOption 1 value) }
  | .quality => do return { options with quality := ← wordOption 1 value }
  | .backend => do return { options with backend := ← backendOption value }
  | .emitShader => do return { options with emitShader := some (← pathOption value) }
  | .output => do return { options with output := ← pathOption value }

/-! ### Arguments -/

/-- What has been read of the arguments. -/
structure ArgumentReader where
  options : Options := {}
  /-- The options whose value has been checked. -/
  given : List OptionRole := []
  /-- An option whose value has not been checked, or not even been given. -/
  pending : Option (OptionName × Option String) := none
  /-- After `--` there are no more options. -/
  optionsEnded : Bool := false

namespace ArgumentReader

variable (reader : ArgumentReader)

/-- Checks the value of the pending option. -/
def settle : Except ArgumentError ArgumentReader :=
  match reader.pending with
  | none => .ok reader
  | some (_, none) => .error .invalidValue
  | some (name, some value) => do
    if reader.given.contains (.withValue name) then throw .repeatedOption
    let options ← reader.options.set value name
    return { reader with options, given := .withValue name :: reader.given, pending := none }

/-- Reads an option with the value attached to it, if there is one.  The value of an earlier option
is checked first, except where this option is at fault by itself. -/
def option (role : OptionRole) (attached : Option String) :
    Except ArgumentError ArgumentReader :=
  match role, attached with
  | .withValue name, none => do
    let reader ← reader.settle
    return { reader with pending := some (name, none) }
  | .withValue name, some value => do
    let reader ← reader.settle
    { reader with pending := some (name, some value) }.settle
  | .iterative, none => do
    let reader ← reader.settle
    if reader.given.contains .iterative then throw .repeatedOption
    return { reader with
      options := { reader.options with iterative := true }
      given := .iterative :: reader.given }
  | .help, none => do
    let _ ← reader.settle
    throw .helpRequested
  | _, some _ => .error .unexpectedValue

/-- Reads a long option without its dashes. -/
def long (text : List Char) : Except ArgumentError ArgumentReader :=
  let name := text.takeWhile (· != '=')
  let attached := match text.dropWhile (· != '=') with
    | [] => none
    | _ :: value => some (String.ofList value)
  match OptionRole.ofLong? (String.ofList name) with
  | none => .error .unknownArgument
  | some role => reader.option role attached

/-- Reads a group of short options without its dash.  None of the options that take no value lets
another one follow in the same group. -/
def short : List Char → Except ArgumentError ArgumentReader
  | [] => .ok reader
  | c :: rest =>
    match OptionRole.ofShort? c with
    | none => .error .unknownArgument
    | some (.withValue name) =>
      let attached := match rest with
        | [] => none
        | '=' :: value => some (String.ofList value)
        | value => some (String.ofList value)
      reader.option (.withValue name) attached
    | some role => reader.option role none

/-- Reads an argument that is no option. -/
def word (text : String) : Except ArgumentError ArgumentReader :=
  match reader.pending with
  | some (name, none) => .ok { reader with pending := some (name, some text) }
  | _ => .error .unknownArgument

/-- Reads one argument. -/
def step (argument : String) : Except ArgumentError ArgumentReader :=
  if reader.optionsEnded then .error .unknownArgument
  else match argument.toList with
    | ['-', '-'] => .ok { reader with optionsEnded := true }
    | '-' :: '-' :: text => reader.long text
    | '-' :: c :: text => reader.short (c :: text)
    | _ => reader.word argument

end ArgumentReader

/-- The options that the arguments of the program stand for. -/
def Options.ofArguments (arguments : List String) : Except ArgumentError Options := do
  let reader ← arguments.foldlM ArgumentReader.step {}
  let reader ← reader.settle
  return reader.options

end RayTracer
