import RayTracer.Json.Numeral

/-!
# JSON values

`Json` keeps a document as it is written: numbers are not evaluated, members of an object stay in
order and may repeat, and a string that is no text, because it contains half of a surrogate pair,
is kept as `none`.  What such things mean is up to the reader of the value.
-/

namespace RayTracer

/-- A JSON document. -/
inductive Json where
  | null
  | bool (value : Bool)
  | number (value : Numeral)
  /-- A string, or `none` if it contains half of a surrogate pair. -/
  | string (value : Option String)
  | array (items : List Json)
  | object (members : List (Option String × Json))

namespace Json

/-- Levels of arrays and objects that may be open at once in a strict value. -/
def maxNesting : Nat := 127

/-- Every number is in the range of doubles, every string is text, and with the `outer` levels
around the value no more than `maxNesting` levels of arrays and objects are open at once. -/
def isStrict (outer : Nat) : Json → Bool
  | null | bool _ => true
  | number n => n.double?.isSome
  | string s => s.isSome
  | array items => outer + 1 ≤ maxNesting && items.attach.all fun ⟨j, _⟩ => j.isStrict (outer + 1)
  | object members =>
    outer + 1 ≤ maxNesting &&
      members.attach.all fun ⟨(key, j), _⟩ => key.isSome && j.isStrict (outer + 1)
termination_by j => sizeOf j
decreasing_by
  · have := List.sizeOf_lt_of_mem ‹_ ∈ _›
    simp
    omega
  · have := List.sizeOf_lt_of_mem ‹_ ∈ _›
    simp at this ⊢
    omega

/-! ### Reading parts of a value -/

/-- A number in single precision. -/
def single? : Json → Option Float32
  | number n => n.single?
  | _ => none

/-- A string that is text. -/
def text? : Json → Option String
  | string s => s
  | _ => none

/-- A truth value. -/
def bool? : Json → Option Bool
  | bool b => some b
  | _ => none

/-- A nonnegative integer that fits a 32-bit word. -/
def word? : Json → Option UInt32
  | number n => n.natural?.bind fun m => if m < UInt32.size then some (.ofNat m) else none
  | _ => none

/-- The items of an array. -/
def list? : Json → Option (List Json)
  | array items => some items
  | _ => none

/-- `null` as nothing, anything else as `read` has it. -/
def nullable? {β : Type} (read : Json → Option β) : Json → Option (Option β)
  | null => some none
  | j => (read j).map some

/-- The last member of an object under the given key. -/
def get? (key : String) : Json → Option Json
  | object members => (members.reverse.find? (·.1 == some key)).map (·.2)
  | _ => none

/-- The fields of a record in the order of `spellings`, each absent or given once under one of its
spellings.  A record may be written as an object, in which other keys are ignored, or as an array
of its fields in order, of which the last ones may be absent. -/
def record? (spellings : List (List String)) : Json → Option (List (Option Json))
  | object members =>
    if members.all (·.1.isSome) then
      spellings.mapM fun names =>
        match members.filter fun m => m.1.any names.contains with
        | [] => some none
        | [(_, j)] => some (some j)
        | _ => none
    else none
  | array items =>
    if items.length ≤ spellings.length then
      some (items.map some ++ List.replicate (spellings.length - items.length) none)
    else none
  | _ => none

end Json

end RayTracer
