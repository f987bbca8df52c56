import RayTracer.Proofs.Number.Digits
import RayTracer.Proofs.Text.Line
import RayTracer.Shader.Injection

/-!
# The arrays of a scene

The declarations say how many entities of each kind a scene has and how long the array of them is.
The assignments fill the array; what fills the place of an array without entities comes after
everything else.

* `Line.numberAfter?` : the number that a line holds between two patterns.
* `Shader.ArrayAgrees` : the count, the length and the places that are read off the lines belong to
  one list of entities.
* `Shader.arrays_agree` : **the lines of every scene agree on its three arrays**, and no line
  assigns anything else.

Lines about different arrays are told apart by what stands before the first colon, or the first
bracket after the indent.
-/

namespace RayTracer

/-! ### Reading a number off a line -/

namespace Line

/-- The number between an opening, which starts the line, and a closing, and what follows. -/
def numberAfter? (opening closing l : Line) : Option (Nat × Line) := do
  let inner ← rest? opening l
  let (digits, rest) ← cut? closing inner
  if !digits.isEmpty && digits.all (·.isDigit) then some (naturalOfDigits digits, rest) else none

variable {opening closing l : Line} {mark : Char}

theorem numberAfter?_digitsOf {tail : Line} (hclosing : closing = mark :: tail)
    (hmark : mark.isDigit = false) (opening rest : Line) (n : Nat) :
    numberAfter? opening closing (opening ++ (Decimal.digitsOf n ++ (closing ++ rest))) =
      some (n, rest) := by
  have hcut : cut? closing (Decimal.digitsOf n ++ (closing ++ rest)) =
      some (Decimal.digitsOf n, rest) := by
    rw [hclosing]
    exact cut?_append (p := []) List.not_mem_nil (Decimal.notMem_digitsOf hmark n) rest
  have hdigits :
      (!(Decimal.digitsOf n).isEmpty && (Decimal.digitsOf n).all (·.isDigit)) = true := by
    rw [Bool.and_eq_true, List.all_eq_true, Bool.not_eq_true', List.isEmpty_eq_false_iff]
    exact ⟨Decimal.digitsOf_ne_nil n, fun _ => Decimal.isDigit_of_mem_digitsOf⟩
  simp only [numberAfter?, rest?_eq_some_iff.2 rfl, Option.bind_eq_bind, Option.bind_some, hcut]
  rw [if_pos hdigits, naturalOfDigits_digitsOf]

/-- What starts the opening and the line alike does not count. -/
theorem numberAfter?_append (start opening closing l : Line) :
    numberAfter? (start ++ opening) closing (start ++ l) = numberAfter? opening closing l := by
  have hrest : rest? (start ++ opening) (start ++ l) = rest? opening l := by
    ext rest
    rw [rest?_eq_some_iff, rest?_eq_some_iff, List.append_assoc, List.append_cancel_left_eq]
  rw [numberAfter?, hrest]
  rfl

/-- Lines are told apart by what stands before a mark. -/
theorem numberAfter?_eq_none {head head' : Line} (hhead : mark ∉ head) (hhead' : mark ∉ head')
    (hne : head ≠ head') (tail rest closing : Line) :
    numberAfter? (head ++ mark :: tail) closing (head' ++ mark :: rest) = none := by
  have hnone : rest? (head ++ mark :: tail) (head' ++ mark :: rest) = none := by
    rw [Option.eq_none_iff_forall_ne_some]
    intro after hrest
    have htake := congrArg (List.takeWhile (· ≠ mark)) (rest?_eq_some_iff.1 hrest)
    rw [List.append_assoc, List.cons_append, takeWhile_ne_append hhead',
      takeWhile_ne_append hhead] at htake
    exact hne htake.symm
  rw [numberAfter?, hnone]
  rfl

end Line

namespace Shader

open Line (numberAfter?)

/-! ### What the declarations say -/

/-- What stands before the number of entities. -/
def countOpening (counter : Line) : Line :=
  "const ".toList ++ counter ++ ':' :: " u32 = ".toList

/-- What stands before the length of an array. -/
def lengthOpening (array type : Line) : Line :=
  "var<private> ".toList ++ array ++ ':' :: (" array<".toList ++ type ++ ", ".toList)

/-- The numbers to which the lines set a constant, each with what follows it. -/
def declaredCounts (counter : Line) (lines : List Line) : List (Nat × Line) :=
  lines.filterMap (numberAfter? (countOpening counter) "u;".toList)

/-- The lengths with which the lines declare an array, each with what follows it. -/
def declaredLengths (array type : Line) (lines : List Line) : List (Nat × Line) :=
  lines.filterMap (numberAfter? (lengthOpening array type) ">;".toList)

variable {counter counter' array array' l : Line}

theorem countOpening_append (counter rest : Line) : countOpening counter ++ rest =
    "const ".toList ++ counter ++ ':' :: (" u32 = ".toList ++ rest) :=
  List.append_assoc _ _ _

theorem lengthOpening_append (array type rest : Line) : lengthOpening array type ++ rest =
    "var<private> ".toList ++ array ++
      ':' :: (" array<".toList ++ type ++ ", ".toList ++ rest) :=
  List.append_assoc _ _ _

/-- The declarations of an array as the lines that are read. -/
theorem arrayDeclarations_eq (counter array type : Line) (size : Nat) :
    arrayDeclarations counter array type size =
      [countOpening counter ++ (Decimal.digitsOf size ++ ("u;".toList ++ [])),
        lengthOpening array type ++ (Decimal.digitsOf (max size 1) ++ (">;".toList ++ []))] := by
  unfold arrayDeclarations
  rw [countOpening_append, lengthOpening_append]
  simp only [List.append_assoc, List.append_nil]
  rfl

theorem constant_ne_variable (counter array : Line) :
    "const ".toList ++ counter ≠ "var<private> ".toList ++ array := by
  intro h
  exact absurd (List.cons.inj h).1 (by decide)

/-- A line about another name declares no count of this one. -/
theorem numberAfter?_countOpening {head : Line} (hcounter : ':' ∉ counter) (hhead : ':' ∉ head)
    (hne : "const ".toList ++ counter ≠ head) (rest closing : Line) :
    numberAfter? (countOpening counter) closing (head ++ ':' :: rest) = none := by
  have hname : ':' ∉ "const ".toList ++ counter := by simp [hcounter]
  exact Line.numberAfter?_eq_none hname hhead hne _ rest closing

/-- A line about another name declares no length of this one. -/
theorem numberAfter?_lengthOpening {head : Line} (harray : ':' ∉ array) (hhead : ':' ∉ head)
    (hne : "var<private> ".toList ++ array ≠ head) (type rest closing : Line) :
    numberAfter? (lengthOpening array type) closing (head ++ ':' :: rest) = none := by
  have hname : ':' ∉ "var<private> ".toList ++ array := by simp [harray]
  exact Line.numberAfter?_eq_none hname hhead hne _ rest closing

/-- The declarations of an array hold its own count, and no other. -/
theorem declaredCounts_arrayDeclarations (hcounter : ':' ∉ counter) (hcounter' : ':' ∉ counter')
    (harray : ':' ∉ array) (type : Line) (size : Nat) :
    declaredCounts counter (arrayDeclarations counter' array type size) =
      if counter = counter' then [(size, [])] else [] := by
  have hlength : numberAfter? (countOpening counter) "u;".toList (lengthOpening array type ++
      (Decimal.digitsOf (max size 1) ++ (">;".toList ++ []))) = none := by
    rw [lengthOpening_append]
    exact numberAfter?_countOpening hcounter (by simp [harray]) (constant_ne_variable _ _) _ _
  rw [arrayDeclarations_eq, declaredCounts]
  split
  · rename_i heq
    have hclosing : "u;".toList = 'u' :: [';'] := rfl
    have hcount := Line.numberAfter?_digitsOf hclosing (by decide) (countOpening counter) [] size
    rw [← heq, List.filterMap_cons_some hcount, List.filterMap_cons_none hlength]
    rfl
  · rename_i hne
    have hcount : numberAfter? (countOpening counter) "u;".toList (countOpening counter' ++
        (Decimal.digitsOf size ++ ("u;".toList ++ []))) = none := by
      rw [countOpening_append]
      refine numberAfter?_countOpening hcounter (by simp [hcounter']) ?_ _ _
      exact fun h => hne (List.append_cancel_left h)
    rw [List.filterMap_cons_none hcount, List.filterMap_cons_none hlength]
    rfl

/-- The declarations of an array hold its own length, and no other. -/
theorem declaredLengths_arrayDeclarations (harray : ':' ∉ array) (harray' : ':' ∉ array')
    (hcounter : ':' ∉ counter) {type type' : Line} (htype : array = array' → type = type')
    (size : Nat) :
    declaredLengths array type (arrayDeclarations counter array' type' size) =
      if array = array' then [(max size 1, [])] else [] := by
  have hcount : numberAfter? (lengthOpening array type) ">;".toList (countOpening counter ++
      (Decimal.digitsOf size ++ ("u;".toList ++ []))) = none := by
    rw [countOpening_append]
    exact numberAfter?_lengthOpening harray (by simp [hcounter]) (constant_ne_variable _ _).symm
      _ _ _
  rw [arrayDeclarations_eq, declaredLengths, List.filterMap_cons_none hcount]
  split
  · rename_i heq
    have hclosing : ">;".toList = '>' :: [';'] := rfl
    have hlength := Line.numberAfter?_digitsOf hclosing (by decide) (lengthOpening array type) []
      (max size 1)
    rw [← heq, ← htype heq, List.filterMap_cons_some hlength]
    rfl
  · rename_i hne
    have hlength : numberAfter? (lengthOpening array type) ">;".toList
        (lengthOpening array' type' ++
          (Decimal.digitsOf (max size 1) ++ (">;".toList ++ []))) = none := by
      rw [lengthOpening_append]
      refine numberAfter?_lengthOpening harray (by simp [harray']) ?_ _ _ _
      exact fun h => hne (List.append_cancel_left h)
    rw [List.filterMap_cons_none hlength]
    rfl

/-- The ambient light is a variable of its own. -/
theorem ambient_eq (l : AmbientLight) :
    "var<private> ambient_light: vec4<f32> = ".toList ++ rowLiteral l.row ++ [';'] =
      "var<private> ".toList ++ "ambient_light".toList ++
        ':' :: (" vec4<f32> = ".toList ++ (rowLiteral l.row ++ [';'])) :=
  List.append_assoc _ _ _

/-- **Every count is declared once**, under its own name. -/
theorem declaredCounts_declarations (hcounter : ':' ∉ counter) (scene : Scene) :
    declaredCounts counter (declarations scene) =
      (if counter = "PRIMITIVE_COUNT".toList then [(scene.primitives.length, [])] else []) ++
      (if counter = "LIGHT_COUNT".toList then [(scene.lights.length, [])] else []) ++
      (if counter = "MATERIAL_COUNT".toList then [(scene.materials.size, [])] else []) := by
  have hambient (rest : Line) := numberAfter?_countOpening hcounter (by decide)
    (constant_ne_variable counter "ambient_light".toList) rest "u;".toList
  have hread (counter' array type : Line) (h : ':' ∉ counter' ∧ ':' ∉ array) (size : Nat) :=
    declaredCounts_arrayDeclarations hcounter h.1 h.2 type size
  unfold declaredCounts at hread ⊢
  unfold declarations
  rw [ambient_eq, List.filterMap_append, List.filterMap_append, List.filterMap_append,
    hread _ _ _ (by decide), hread _ _ _ (by decide), hread _ _ _ (by decide),
    List.filterMap_cons_none (hambient _), List.filterMap_nil, List.append_nil]

/-- **Every length is declared once**, under the name of its array. -/
theorem declaredLengths_declarations (harray : ':' ∉ array) (hne : array ≠ "ambient_light".toList)
    {type : Line}
    (hprimitives : array = "primitives".toList → type = Packed.typeName (Primitive Float32))
    (hlights : array = "lights".toList → type = Packed.typeName Light)
    (hmaterials : array = "materials".toList → type = Packed.typeName Material) (scene : Scene) :
    declaredLengths array type (declarations scene) =
      (if array = "primitives".toList then [(max scene.primitives.length 1, [])] else []) ++
      (if array = "lights".toList then [(max scene.lights.length 1, [])] else []) ++
      (if array = "materials".toList then [(max scene.materials.size 1, [])] else []) := by
  have hname : "var<private> ".toList ++ array ≠ "var<private> ".toList ++ "ambient_light".toList :=
    fun h => hne (List.append_cancel_left h)
  have hambient (rest : Line) := numberAfter?_lengthOpening harray (by decide) hname type rest
    ">;".toList
  have hread (counter array' : Line) {type' : Line} (h : ':' ∉ array' ∧ ':' ∉ counter)
      (htype : array = array' → type = type') (size : Nat) :=
    declaredLengths_arrayDeclarations harray h.1 h.2 htype size
  unfold declaredLengths at hread ⊢
  unfold declarations
  rw [ambient_eq, List.filterMap_append, List.filterMap_append, List.filterMap_append,
    hread _ _ (by decide) hprimitives, hread _ _ (by decide) hlights,
    hread _ _ (by decide) hmaterials, List.filterMap_cons_none (hambient _), List.filterMap_nil,
    List.append_nil]

/-! ### What the assignments say -/

/-- What stands before the number of a place. -/
def placeOpening (indent array : Line) : Line := indent ++ array ++ ['[']

/-- The place of an array that the line assigns, with the value. -/
def assigned? (indent array l : Line) : Option (Nat × Line) := do
  let (place, rest) ← numberAfter? (placeOpening indent array) "] = ".toList l
  if rest.getLast? = some ';' then some (place, rest.dropLast) else none

/-- The places of an array that the lines assign, with the values. -/
def assignedPlaces (indent array : Line) (lines : List Line) : List (Nat × Line) :=
  lines.filterMap (assigned? indent array)

variable {α : Type} [Packed α] {indent : Line}

theorem assigned?_assignment (indent array value : Line) (i : Nat) :
    assigned? indent array (assignment indent array i value) = some (i, value) := by
  have hclosing : "] = ".toList = ']' :: " = ".toList := rfl
  have hplace := Line.numberAfter?_digitsOf hclosing (by decide) (placeOpening indent array)
    (value ++ [';']) i
  have hsplit : assignment indent array i value = placeOpening indent array ++
      (Decimal.digitsOf i ++ ("] = ".toList ++ (value ++ [';']))) := by
    unfold assignment placeOpening
    simp only [List.append_assoc, List.cons_append, List.nil_append]
  simp only [assigned?, hsplit, hplace, Option.bind_eq_bind, Option.bind_some,
    List.getLast?_concat, List.dropLast_concat, if_true]

theorem assigned?_assignment_of_ne (harray : '[' ∉ array) (harray' : '[' ∉ array')
    (hne : array ≠ array') (indent value : Line) (i : Nat) :
    assigned? indent array (assignment indent array' i value) = none := by
  have hsplit : assignment indent array' i value = indent ++ (array' ++
      '[' :: (Decimal.digitsOf i ++ ("] = ".toList ++ (value ++ [';'])))) := by
    unfold assignment
    simp only [List.append_assoc, List.cons_append]
  have hopening : placeOpening indent array = indent ++ (array ++ ['[']) :=
    List.append_assoc indent array ['[']
  have hplace : numberAfter? (placeOpening indent array) "] = ".toList
      (assignment indent array' i value) = none := by
    rw [hsplit, hopening, Line.numberAfter?_append]
    exact Line.numberAfter?_eq_none harray harray' hne _ _ _
  rw [assigned?, hplace]
  rfl

/-- The places that the entities of an array have. -/
def entityPlaces (entities : List α) : List (Nat × Line) :=
  entities.zipIdx.map fun (a, i) => (i, Packed.literal a)

/-- The place that an array without entities has. -/
def sparePlaces (rows : Nat) (entities : List α) : List (Nat × Line) :=
  if entities.isEmpty then
    [(0, construct (Packed.typeName α) (List.replicate rows (rowLiteral .zero)))]
  else []

/-- The assignments to an array hold its own places, and no other. -/
theorem assignedPlaces_assignments (harray : '[' ∉ array) (harray' : '[' ∉ array')
    (indent : Line) (entities : List α) :
    assignedPlaces indent array (assignments indent array' entities) =
      if array = array' then entityPlaces entities else [] := by
  rw [assignedPlaces, assignments, List.filterMap_map]
  split
  · rename_i heq
    have hread : assigned? indent array ∘
        (fun (a, i) => assignment indent array' i (Packed.literal a)) =
          some ∘ fun ((a, i) : α × Nat) => (i, Packed.literal a) := by
      funext (a, i)
      rw [← heq]
      exact assigned?_assignment indent array _ i
    rw [hread, List.filterMap_eq_map]
    rfl
  · rename_i hne
    rw [List.filterMap_eq_nil_iff]
    exact fun (a, i) _ => assigned?_assignment_of_ne harray harray' hne indent _ i

theorem assignedPlaces_placeholder (harray : '[' ∉ array) (harray' : '[' ∉ array')
    (indent : Line) (rows : Nat) (entities : List α) :
    assignedPlaces indent array (placeholder indent array' rows entities) =
      if array = array' then sparePlaces rows entities else [] := by
  unfold placeholder sparePlaces assignedPlaces
  split
  · by_cases heq : array = array'
    · rw [if_pos heq, heq, List.filterMap_cons_some (assigned?_assignment indent array' _ 0)]
      rfl
    · rw [if_neg heq,
        List.filterMap_cons_none (assigned?_assignment_of_ne harray harray' heq indent _ 0)]
      rfl
  · exact (ite_self _).symm

/-- Each array is assigned under its own name. -/
theorem assignedPlaces_constructors (harray : '[' ∉ array) (scene : Scene) (indent : Line) :
    assignedPlaces indent array (constructors scene indent) =
      (if array = "primitives".toList then entityPlaces scene.primitives else []) ++
      (if array = "lights".toList then entityPlaces scene.lights else []) ++
      (if array = "materials".toList then entityPlaces scene.materials.materials else []) ++
      (if array = "primitives".toList then sparePlaces 3 scene.primitives else []) ++
      (if array = "lights".toList then sparePlaces 2 scene.lights else []) ++
      (if array = "materials".toList then sparePlaces 2 scene.materials.materials else []) := by
  have hassigned {α : Type} [Packed α] {array' : Line} (h : '[' ∉ array') (entities : List α) :=
    assignedPlaces_assignments harray h indent entities
  have hspare {α : Type} [Packed α] {array' : Line} (h : '[' ∉ array') (rows : Nat)
      (entities : List α) := assignedPlaces_placeholder harray h indent rows entities
  have hprimitives : '[' ∉ "primitives".toList := by decide
  have hlights : '[' ∉ "lights".toList := by decide
  have hmaterials : '[' ∉ "materials".toList := by decide
  unfold assignedPlaces at hassigned hspare ⊢
  simp only [constructors, List.filterMap_append, hassigned hprimitives, hassigned hlights,
    hassigned hmaterials, hspare hprimitives, hspare hlights, hspare hmaterials]

/-- The arrays of a scene. -/
def arrayNames : List Line := ["primitives".toList, "lights".toList, "materials".toList]

/-- Every line assigns a place of an array. -/
theorem exists_assignment {scene : Scene} {indent l : Line} (h : l ∈ constructors scene indent) :
    ∃ array ∈ arrayNames, ∃ i value, l = assignment indent array i value := by
  have hassigned {α : Type} [Packed α] {array : Line} {entities : List α}
      (h : l ∈ assignments indent array entities) :
      ∃ i value, l = assignment indent array i value := by
    obtain ⟨⟨a, i⟩, -, rfl⟩ := List.mem_map.1 h
    exact ⟨i, _, rfl⟩
  have hspare {α : Type} [Packed α] {array : Line} {rows : Nat} {entities : List α}
      (h : l ∈ placeholder indent array rows entities) :
      ∃ i value, l = assignment indent array i value := by
    unfold placeholder at h
    split at h
    · exact ⟨0, _, List.mem_singleton.1 h⟩
    · cases h
  simp only [constructors, List.mem_append] at h
  obtain ((((h | h) | h) | h) | h) | h := h
  · exact ⟨_, by decide, hassigned h⟩
  · exact ⟨_, by decide, hassigned h⟩
  · exact ⟨_, by decide, hassigned h⟩
  · exact ⟨_, by decide, hspare h⟩
  · exact ⟨_, by decide, hspare h⟩
  · exact ⟨_, by decide, hspare h⟩

/-! ### Agreement -/

/-- The lines of a scene describe one array of the entities. -/
structure ArrayAgrees (scene : Scene) (indent counter array : Line) (entities : List α) : Prop where
  /-- The entities are counted. -/
  counted : declaredCounts counter (declarations scene) = [(entities.length, [])]
  /-- The array is declared once, with a length, and each of its places is assigned once. -/
  places : ∃ length, length ≠ 0 ∧
    declaredLengths array (Packed.typeName α) (declarations scene) = [(length, [])] ∧
    (assignedPlaces indent array (constructors scene indent)).map (·.1) = List.range length
  /-- The places of the entities get the entities. -/
  literals : ∀ (i : Nat) (a : α), entities[i]? = some a →
    (assignedPlaces indent array (constructors scene indent))[i]? = some (i, Packed.literal a)

/-- **An array agrees** if its places are those of its entities, or a single one with something else
in it. -/
theorem ArrayAgrees.of_places {scene : Scene} {indent counter array : Line}
    {entities : List α} (rows : Nat)
    (counted : declaredCounts counter (declarations scene) = [(entities.length, [])])
    (length : declaredLengths array (Packed.typeName α) (declarations scene) =
      [(max entities.length 1, [])])
    (places : assignedPlaces indent array (constructors scene indent) =
      entityPlaces entities ++ sparePlaces rows entities) :
    ArrayAgrees scene indent counter array entities := by
  refine ⟨counted, ⟨_, by omega, length, ?_⟩, fun i a ha => ?_⟩
  · rw [places]
    cases entities with
    | nil => rfl
    | cons a entities =>
      have hspare : sparePlaces rows (a :: entities) = [] := rfl
      have hlength : max (a :: entities).length 1 = (a :: entities).length :=
        Nat.max_eq_left (Nat.succ_le_of_lt (Nat.zero_lt_succ _))
      rw [hspare, List.append_nil, entityPlaces, List.map_map, hlength, List.range_eq_range']
      exact List.zipIdx_map_snd 0 _
  · obtain ⟨hi, -⟩ := List.getElem?_eq_some_iff.1 ha
    have hlength : i < (entityPlaces entities).length := by simpa [entityPlaces] using hi
    rw [places, List.getElem?_append_left hlength, entityPlaces, List.getElem?_map,
      List.getElem?_zipIdx, ha, Nat.zero_add]
    rfl

/-- **The declarations and the assignments of a scene agree on each of its arrays**, whatever the
indent is, and every line assigns a place of one of them. -/
theorem arrays_agree (scene : Scene) (indent : Line) :
    ArrayAgrees scene indent "PRIMITIVE_COUNT".toList "primitives".toList scene.primitives ∧
      ArrayAgrees scene indent "LIGHT_COUNT".toList "lights".toList scene.lights ∧
      ArrayAgrees scene indent "MATERIAL_COUNT".toList "materials".toList
        scene.materials.materials ∧
      ∀ l ∈ constructors scene indent,
        ∃ array ∈ arrayNames, (assigned? indent array l).isSome = true := by
  have hsize : scene.materials.size = scene.materials.materials.length :=
    (List.length_map _).symm
  have hcounts {counter : Line} (h : ':' ∉ counter) := declaredCounts_declarations h scene
  have hplaces {array : Line} (h : '[' ∉ array) := assignedPlaces_constructors h scene indent
  rw [hsize] at hcounts
  refine ⟨.of_places 3 (hcounts (by decide)) ?_ ?_, .of_places 2 (hcounts (by decide)) ?_ ?_,
    .of_places 2 (hcounts (by decide)) ?_ ?_, fun l hl => ?_⟩
  · exact declaredLengths_declarations (by decide) (by decide) (fun _ => rfl) (by decide)
      (by decide) scene
  · rw [hplaces (by decide)]
    simp
  · exact declaredLengths_declarations (by decide) (by decide) (by decide) (fun _ => rfl)
      (by decide) scene
  · rw [hplaces (by decide)]
    simp
  · rw [← hsize]
    exact declaredLengths_declarations (by decide) (by decide) (by decide) (by decide)
      (fun _ => rfl) scene
  · rw [hplaces (by decide)]
    simp
  · obtain ⟨array, harray, i, value, rfl⟩ := exists_assignment hl
    refine ⟨array, harray, ?_⟩
    rw [assigned?_assignment]
    rfl

end Shader

end RayTracer
