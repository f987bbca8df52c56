/-!
# File names in paths

The parts of a path are separated by slashes; empty parts and single dots do not count.  The last
part is the file name, unless it is `..`.  A dot that is not at the start of the file name ends its
stem, and the extension follows the last such dot.
-/

namespace RayTracer.Path

/-- The parts of a path between slashes, `part` being what is read of the current one, last
character first. -/
def partsAfter (part : List Char) : List Char → List (List Char)
  | [] => [part.reverse]
  | c :: rest => if c = '/' then part.reverse :: partsAfter [] rest else partsAfter (c :: part) rest

/-- The parts of a path that name something. -/
def parts (path : String) : List (List Char) :=
  (partsAfter [] path.toList).filter fun part => !part.isEmpty && part != ['.']

/-- The last part of a path. -/
def fileName? (path : String) : Option (List Char) :=
  (parts path).getLast?.filter (· != ['.', '.'])

/-- The file name up to and after its last dot, if that dot is not its first character. -/
def splitName (name : List Char) : List Char × Option (List Char) :=
  match name.reverse.span (· != '.') with
  | (_, []) => (name, none)
  | (_, [_]) => (name, none)
  | (extension, _ :: stem) => (stem.reverse, some extension.reverse)

/-- The extension of the file name. -/
def extension? (path : String) : Option String :=
  (fileName? path).bind fun name => (splitName name).2.map String.ofList

/-- The file name without its extension; empty if there is no file name. -/
def stem (path : String) : String :=
  match fileName? path with
  | some name => .ofList (splitName name).1
  | none => ""

end RayTracer.Path
