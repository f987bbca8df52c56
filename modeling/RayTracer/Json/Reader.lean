import RayTracer.Json.Token

/-!
# Reading JSON documents

`Json.ofText?` reads a text that holds one JSON document and nothing else.  The tokens are fed one
by one to a machine whose state lists the arrays and objects that are still open, so documents may
be nested to any depth.
-/

namespace RayTracer

namespace Json

/-- An array or object that is still open, with what it holds so far, last part first. -/
inductive Open where
  | array (items : List Json)
  /-- An object whose member under `key` is being read. -/
  | object (members : List (Option String × Json)) (key : Option String)

/-- What the reader has seen, and with that what may come next. -/
inductive Reader where
  /-- A value must come. -/
  | value (outer : List Open)
  /-- An array was opened: a value or the end of the array must come. -/
  | firstItem (outer : List Open)
  /-- An item is complete: a comma or the end of the array must come. -/
  | afterItem (items : List Json) (outer : List Open)
  /-- An object was opened: a key or the end of the object must come. -/
  | firstKey (outer : List Open)
  /-- A comma was read in an object: a key must come. -/
  | key (members : List (Option String × Json)) (outer : List Open)
  /-- A key was read: a colon must come. -/
  | colon (members : List (Option String × Json)) (key : Option String) (outer : List Open)
  /-- A member is complete: a comma or the end of the object must come. -/
  | afterMember (members : List (Option String × Json)) (outer : List Open)
  /-- The document is complete: nothing may come. -/
  | finished (document : Json)

namespace Reader

/-- The state after a complete value inside `outer`. -/
def complete (j : Json) : List Open → Reader
  | [] => finished j
  | .array items :: outer => afterItem (j :: items) outer
  | .object members k :: outer => afterMember ((k, j) :: members) outer

/-- The state after the first token of a value inside `outer`. -/
def startValue (outer : List Open) : Token → Option Reader
  | .openArray => some (firstItem outer)
  | .openObject => some (firstKey outer)
  | .null => some (complete .null outer)
  | .bool b => some (complete (.bool b) outer)
  | .number n => some (complete (.number n) outer)
  | .string s => some (complete (.string s) outer)
  | .closeArray | .closeObject | .comma | .colon => none

/-- The state after one more token, if that token may come. -/
def step : Reader → Token → Option Reader
  | value outer, t => startValue outer t
  | firstItem outer, .closeArray => some (complete (.array []) outer)
  | firstItem outer, t => startValue (.array [] :: outer) t
  | afterItem items outer, .comma => some (value (.array items :: outer))
  | afterItem items outer, .closeArray => some (complete (.array items.reverse) outer)
  | firstKey outer, .closeObject => some (complete (.object []) outer)
  | firstKey outer, .string s => some (colon [] s outer)
  | key members outer, .string s => some (colon members s outer)
  | colon members k outer, .colon => some (value (.object members k :: outer))
  | afterMember members outer, .comma => some (key members outer)
  | afterMember members outer, .closeObject => some (complete (.object members.reverse) outer)
  | _, _ => none

/-- The document that has been read, if it is complete. -/
def document? : Reader → Option Json
  | finished j => some j
  | _ => none

end Reader

/-- The document that consists of the given tokens. -/
def ofTokens? (tokens : List Token) : Option Json :=
  (tokens.foldlM Reader.step (.value [])).bind Reader.document?

/-- The document that a text holds. -/
def ofText? (text : String) : Option Json := (Token.ofText? text.toList).bind ofTokens?

end Json

end RayTracer
