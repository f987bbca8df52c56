import RayTracer.Program.Compiler
import RayTracer.Program.Run

/-!
# The command line program

Runs the program on the file system, with messages on the standard error stream and the stand-in
for a compiler.
-/

open RayTracer

/-- The file system and the standard error stream. -/
def fileSystemHost : Host IO where
  read path := do
    try return some (← IO.FS.readFile path)
    catch _ => return none
  write path artifact := do
    try
      IO.FS.writeBinFile path ⟨artifact.bytes.toArray⟩
      return artifact.isEncodable
    catch _ => return false
  tell entry := IO.eprintln entry.text
  compile := CompiledShader.compile

/-- Runs the program with the given arguments. -/
def main (arguments : List String) : IO UInt32 := do
  match Options.ofArguments arguments with
  | .error e =>
    if e = .helpRequested then IO.println e.message else IO.eprintln e.message
    return e.exitCode
  | .ok options => Program.run fileSystemHost options
