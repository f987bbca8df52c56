import RayTracer.Program.Compiler
import RayTracer.Program.Run
import RayTracer.Text.Path

/-!
# A directory in memory

`Directory.host` lets the program run on a single directory without subdirectories, held in memory
together with the messages that were shown.  A path stands for a file of the directory if it ends in
the name of the file and nothing but single dots and slashes stands before that.  A slash after the
name would ask for a directory of that name, and there is none; nor does a path reach anything
outside.
-/

namespace RayTracer

/-- Files by name, and the messages that were shown. -/
structure Directory where
  files : List (String × Artifact) := []
  /-- The messages, the last one first. -/
  shown : List LogEntry := []

namespace Directory

/-- The number of bytes that a file name may have. -/
def maxNameSize : Nat := 255

/-- The number of bytes that a path may have. -/
def maxPathSize : Nat := 4095

/-- Whether a name and a path are short enough, and free of the character that ends a path. -/
def admits (name path : String) : Bool :=
  name.utf8ByteSize ≤ maxNameSize && path.utf8ByteSize ≤ maxPathSize && !path.toList.contains '\x00'

/-- The name of the file of the directory that a path stands for. -/
def nameOf? (path : String) : Option String :=
  match Path.parts path, Path.fileName? path with
  | [_], some name =>
    let isRelative := path.toList.head? != some '/'
    if isRelative && name.isSuffixOf path.toList && admits (.ofList name) path then
      some (.ofList name)
    else none
  | _, _ => none

/-- The contents of the file that a path stands for. -/
def get? (directory : Directory) (path : String) : Option Artifact :=
  (nameOf? path).bind fun name => directory.files.lookup name

/-- The text of the file that a path stands for. -/
def text? (directory : Directory) (path : String) : Option (List Char) :=
  (directory.get? path).bind Artifact.text?

/-- The image in the file that a path stands for. -/
def image? (directory : Directory) (path : String) : Option (ImageFormat × Frame) :=
  (directory.get? path).bind Artifact.image?

/-- The directory with a file written, if that is possible. -/
def put? (directory : Directory) (path : String) (artifact : Artifact) : Option Directory :=
  (nameOf? path).map fun name =>
    { directory with files := (name, artifact) :: directory.files.filter (·.1 != name) }

/-- The outside of a program that runs on the directory. -/
def host : Host (StateM Directory) where
  read path := fun d => ((d.text? path).map String.ofList, d)
  write path artifact := fun d =>
    let isEncodable := artifact.isEncodable
    match d.put? path (if isEncodable then artifact else .text []) with
    | some d => (isEncodable, d)
    | none => (false, d)
  tell entry := fun d => ((), { d with shown := entry :: d.shown })
  compile := CompiledShader.compile

end Directory

end RayTracer
