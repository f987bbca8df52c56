import Mathlib.Data.List.Basic
import RayTracer.Material
import RayTracer.Proofs.Lists

/-!
# The numbers of materials

Whatever is inserted into a table of materials, and whatever is refused on the way, the numbers, the
names and the materials correspond to each other: number `i` belongs to the `i`-th name that was
inserted (`firstUses`) and to the material that came with it.

* `MaterialTable.entries_tableAfter` : a table holds the first use of every name, in order.
* `IndexedTable` : the same table as three parallel structures, one of them an index by name, and
  `IndexedTable.InStep` : **the three stay in step**, so nobody can tell the two tables apart
  (`IndexedTable.view_tableAfter`, `IndexedTable.answersOf_eq`).
* `MaterialTable.numbered_insertions` : **the correspondence, for every sequence of calls** with
  which the numbers do not run out.

Numbers have 32 bits.  Up to `2 ^ 32` names, a position and the number made of it are the same; the
run lemmas hold without this bound.
-/

namespace RayTracer

/-! ### Materials by name -/

namespace MaterialTable

variable {table : MaterialTable}

/-- The names of the materials, in the order of their numbers. -/
def names (table : MaterialTable) : List String := table.entries.map (·.1)

theorem id?_eq_findIdx? (name : String) :
    table.id? name = (table.names.findIdx? (· == name)).map fun i => ⟨.ofNat i⟩ := by
  rw [id?, names, List.findIdx?_map]
  rfl

theorem id?_isSome_iff {name : String} : (table.id? name).isSome ↔ name ∈ table.names := by
  simp [id?_eq_findIdx?]

/-- Where names are distinct, the name at a position leads back to the position. -/
theorem id?_eq_some {name : String} {i : Nat} (distinct : table.names.Nodup)
    (hi : table.names[i]? = some name) : table.id? name = some ⟨.ofNat i⟩ := by
  obtain ⟨hlt, hname⟩ := List.getElem?_eq_some_iff.1 hi
  have hfirst : table.names.findIdx? (· == name) = some i := by
    rw [List.findIdx?_eq_some_iff_getElem]
    refine ⟨hlt, by simp [hname], ?_⟩
    intro j hj hbeq
    have heq : table.names[j] = table.names[i] := (eq_of_beq hbeq).trans hname.symm
    exact absurd ((List.getElem_inj distinct).1 heq) (Nat.ne_of_lt hj)
  rw [id?_eq_findIdx?, hfirst]
  rfl

end MaterialTable

/-! ### Calls -/

/-- What a call inserts: a name and a material. -/
abbrev Insertion := String × Material

/-- The answer to a name that is in the table already. -/
structure DuplicateName where
  name : String
  deriving DecidableEq, Repr

/-- What a call answers: the number of the material, or a refusal. -/
abbrev InsertAnswer := Except DuplicateName MaterialId

/-- The calls whose name is neither in `seen` nor in a call before. -/
def firstUses (seen : List String) : List Insertion → List Insertion
  | [] => []
  | call :: calls =>
    if call.1 ∈ seen then firstUses seen calls else call :: firstUses (seen ++ [call.1]) calls

theorem not_mem_of_mem_firstUses {seen : List String} {calls : List Insertion} {call : Insertion}
    (h : call ∈ firstUses seen calls) : call.1 ∉ seen := by
  fun_induction firstUses seen calls with
  | case1 => cases h
  | case2 seen first calls hseen ih => exact ih h
  | case3 seen first calls hseen ih =>
    rcases List.mem_cons.1 h with rfl | h
    · exact hseen
    · exact fun hmem => ih h (List.mem_append_left _ hmem)

theorem nodup_firstUses (seen : List String) (calls : List Insertion) :
    ((firstUses seen calls).map (·.1)).Nodup := by
  fun_induction firstUses seen calls with
  | case1 => exact List.nodup_nil
  | case2 seen first calls hseen ih => exact ih
  | case3 seen first calls hseen ih =>
    refine List.nodup_cons.2 ⟨fun hmem => ?_, ih⟩
    obtain ⟨call, hcall, hname⟩ := List.mem_map.1 hmem
    exact not_mem_of_mem_firstUses hcall (by simp [hname])

section Runs

variable {σ : Type} (insert : σ → Insertion → InsertAnswer × σ)

/-- The table after calls, one after the other. -/
def tableAfter (start : σ) (calls : List Insertion) : σ :=
  calls.foldl (fun s call => (insert s call).2) start

/-- What the calls answer. -/
def answersOf (start : σ) : List Insertion → List InsertAnswer
  | [] => []
  | call :: calls => (insert start call).1 :: answersOf (insert start call).2 calls

/-- Every call is answered by the table that the calls before it leave. -/
theorem getElem?_answersOf (start : σ) (calls : List Insertion) (k : ℕ) :
    (answersOf insert start calls)[k]? =
      calls[k]?.map fun call => (insert (tableAfter insert start (calls.take k)) call).1 := by
  induction calls generalizing start k with
  | nil => rfl
  | cons call calls ih =>
    cases k with
    | zero => rfl
    | succ k => exact ih (insert start call).2 k

theorem tableAfter_take_succ (start : σ) {calls : List Insertion} {k : ℕ} {call : Insertion}
    (h : calls[k]? = some call) :
    tableAfter insert start (calls.take (k + 1)) =
      (insert (tableAfter insert start (calls.take k)) call).2 := by
  rw [List.take_add_one, h, tableAfter, List.foldl_append]
  rfl

theorem tableAfter_take_drop (start : σ) (calls : List Insertion) (k : ℕ) :
    tableAfter insert (tableAfter insert start (calls.take k)) (calls.drop k) =
      tableAfter insert start calls := by
  rw [tableAfter, tableAfter, ← List.foldl_append, List.take_append_drop]
  rfl

end Runs

/-! ### What can be asked -/

/-- What can be asked of a table. -/
structure TableView where
  size : ℕ
  materials : List Material
  id? : String → Option MaterialId
  get? : MaterialId → Option Material
  name? : MaterialId → Option String

/-- The numbers, names and materials of a table are those of what was inserted, and no others. -/
structure TableView.Numbers (view : TableView) (inserted : List Insertion) : Prop where
  size : view.size = inserted.length
  materials : view.materials = inserted.map (·.2)
  id_iff : ∀ name id,
    view.id? name = some id ↔ inserted[id.number.toNat]?.map (·.1) = some name
  name_iff : ∀ name id,
    view.name? id = some name ↔ inserted[id.number.toNat]?.map (·.1) = some name
  get_eq : ∀ id, view.get? id = inserted[id.number.toNat]?.map (·.2)
  isSome_get : ∀ id, (view.get? id).isSome ↔ id.number.toNat < view.size
  isSome_name : ∀ id, (view.name? id).isSome ↔ id.number.toNat < view.size

/-- A table that starts as `start` and gets the calls numbers the first uses of names in order, for
good, and takes no notice of the other calls but for refusing them. -/
structure NumbersInsertions {σ : Type} (insert : σ → Insertion → InsertAnswer × σ)
    (view : σ → TableView) (start : σ) (calls : List Insertion) : Prop where
  /-- A call is refused exactly if its name was inserted before. -/
  answers : ∀ k call, calls[k]? = some call → (answersOf insert start calls)[k]? =
    some (if call.1 ∈ (firstUses [] (calls.take k)).map (·.1) then .error ⟨call.1⟩
      else .ok ⟨.ofNat (firstUses [] (calls.take k)).length⟩)
  /-- The numbers that are given are `0`, `1`, `2` and so on. -/
  ids : (answersOf insert start calls).filterMap Except.toOption =
    (List.range (firstUses [] calls).length).map fun i => ⟨.ofNat i⟩
  numbers : (view (tableAfter insert start calls)).Numbers (firstUses [] calls)
  /-- A refusal changes nothing. -/
  refused : ∀ k call e, calls[k]? = some call →
    (answersOf insert start calls)[k]? = some (.error e) →
    view (tableAfter insert start (calls.take (k + 1))) =
      view (tableAfter insert start (calls.take k))
  /-- What has a number keeps it. -/
  stable : ∀ k id material name,
    ((view (tableAfter insert start (calls.take k))).get? id = some material →
      (view (tableAfter insert start calls)).get? id = some material) ∧
    ((view (tableAfter insert start (calls.take k))).name? id = some name →
      (view (tableAfter insert start calls)).name? id = some name)

namespace MaterialTable

variable {table : MaterialTable} {call : Insertion}

/-- What can be asked of a table. -/
def view (table : MaterialTable) : TableView :=
  ⟨table.size, table.materials, table.id?, table.get?, table.name?⟩

/-- A call: its answer and the table after it, which is the same table if the name is refused. -/
def insert (table : MaterialTable) (call : Insertion) : InsertAnswer × MaterialTable :=
  match table.insert? call.1 call.2 with
  | some (id, table') => (.ok id, table')
  | none => (.error ⟨call.1⟩, table)

/-- **One call.** -/
theorem insert_eq (table : MaterialTable) (call : Insertion) :
    table.insert call =
      if call.1 ∈ table.names then (.error ⟨call.1⟩, table)
      else (.ok ⟨.ofNat table.size⟩, ⟨table.entries ++ [call]⟩) := by
  have hany : table.entries.any (·.1 == call.1) = true ↔ call.1 ∈ table.names := by
    simp [names]
  by_cases h : call.1 ∈ table.names
  · simp [insert, insert?, hany.2 h, h]
  · have hfresh : ¬table.entries.any (·.1 == call.1) = true := fun hmem => h (hany.1 hmem)
    simp only [insert, insert?, if_neg hfresh, if_neg h]

theorem names_append (table : MaterialTable) (call : Insertion) :
    names ⟨table.entries ++ [call]⟩ = table.names ++ [call.1] := by
  simp [names]

/-- **A table holds what it started with and the first use of every other name.** -/
theorem entries_tableAfter (table : MaterialTable) (calls : List Insertion) :
    (tableAfter insert table calls).entries = table.entries ++ firstUses table.names calls := by
  induction calls generalizing table with
  | nil => exact (List.append_nil _).symm
  | cons call calls ih =>
    have hrest := ih (table.insert call).2
    rw [tableAfter, List.foldl_cons, ← tableAfter, hrest, insert_eq, firstUses]
    split
    · rfl
    · rw [names_append, List.append_assoc, List.singleton_append]

/-- The numbers that are given follow each other. -/
theorem filterMap_answersOf (table : MaterialTable) (calls : List Insertion) :
    (answersOf insert table calls).filterMap Except.toOption =
      (List.range' table.size (firstUses table.names calls).length).map fun i => ⟨.ofNat i⟩ := by
  induction calls generalizing table with
  | nil => rfl
  | cons call calls ih =>
    rw [answersOf, firstUses, insert_eq]
    split
    · rw [List.filterMap_cons_none rfl]
      exact ih table
    · have hanswer : Except.toOption (.ok ⟨.ofNat table.size⟩ : InsertAnswer) =
          some ⟨.ofNat table.size⟩ := rfl
      have hsize : size ⟨table.entries ++ [call]⟩ = table.size + 1 := List.length_append
      rw [List.filterMap_cons_some hanswer, ih, names_append, hsize, List.length_cons,
        List.range'_succ, List.map_cons]

/-- **Numbers and names are each other's inverse**, if names are distinct and numbers do not run
out. -/
theorem id?_eq_some_iff (distinct : table.names.Nodup) (small : table.size ≤ UInt32.size)
    (name : String) (id : MaterialId) :
    table.id? name = some id ↔ table.names[id.number.toNat]? = some name := by
  constructor
  · intro h
    rw [id?_eq_findIdx?, Option.map_eq_some_iff] at h
    obtain ⟨i, hi, rfl⟩ := h
    obtain ⟨hlt, hname, -⟩ := List.findIdx?_eq_some_iff_getElem.1 hi
    have hsize : table.names.length = table.size := List.length_map _
    have hnumber : (UInt32.ofNat i).toNat = i := UInt32.toNat_ofNat_of_lt' (by omega)
    rw [hnumber, List.getElem?_eq_getElem hlt, eq_of_beq hname]
  · intro h
    rw [id?_eq_some distinct h, UInt32.ofNat_toNat]

theorem numbers_view (distinct : table.names.Nodup) (small : table.size ≤ UInt32.size) :
    table.view.Numbers table.entries where
  size := rfl
  materials := rfl
  id_iff name id := by
    rw [← List.getElem?_map]
    exact id?_eq_some_iff distinct small name id
  name_iff name id := Iff.rfl
  get_eq id := rfl
  isSome_get id := by simp [view, get?, size]
  isSome_name id := by simp [view, name?, size]

theorem entries_start (calls : List Insertion) :
    (tableAfter insert {} calls).entries = firstUses [] calls :=
  entries_tableAfter {} calls

theorem numbersInsertions (calls : List Insertion)
    (small : (firstUses [] calls).length ≤ UInt32.size) :
    NumbersInsertions insert view {} calls where
  answers k call h := by
    have hnames : names (tableAfter insert {} (calls.take k)) =
        (firstUses [] (calls.take k)).map (·.1) := by
      rw [names, entries_start]
    rw [getElem?_answersOf, h, Option.map_some, insert_eq, hnames, size, entries_start]
    split <;> rfl
  ids := by
    rw [filterMap_answersOf, List.range_eq_range']
    rfl
  numbers := by
    have hentries := entries_start calls
    rw [← hentries]
    refine numbers_view ?_ ?_
    · rw [names, hentries]
      exact nodup_firstUses [] calls
    · rw [size, hentries]
      exact small
  refused k call e h hrefused := by
    rw [getElem?_answersOf, h, Option.map_some, insert_eq] at hrefused
    rw [tableAfter_take_succ insert {} h, insert_eq]
    split
    · rfl
    · rename_i hfresh
      rw [if_neg hfresh] at hrefused
      cases hrefused
  stable k id material name := by
    obtain ⟨more, hentries⟩ : ∃ more, (tableAfter insert {} calls).entries =
        (tableAfter insert {} (calls.take k)).entries ++ more := by
      rw [← tableAfter_take_drop insert {} calls k]
      exact ⟨_, entries_tableAfter _ _⟩
    simp only [view, get?, name?, hentries, Option.map_eq_some_iff]
    constructor <;> rintro ⟨entry, hentry, rfl⟩ <;>
      exact ⟨entry, getElem?_append_of_some hentry, rfl⟩

end MaterialTable

/-! ### Three parallel structures -/

/-- A table as three parallel structures: the materials and the names in the order of their
numbers, and an index that leads from names to numbers. -/
structure IndexedTable where
  materials : List Material := []
  names : List String := []
  index : Std.HashMap String MaterialId := {}

namespace IndexedTable

/-- A call: its answer and the table after it.  The number is the length of one of the structures,
and whether a name is in the table is asked of another one. -/
def insert (t : IndexedTable) (call : Insertion) : InsertAnswer × IndexedTable :=
  if t.index.contains call.1 then (.error ⟨call.1⟩, t)
  else
    let id : MaterialId := ⟨.ofNat t.materials.length⟩
    (.ok id, ⟨t.materials ++ [call.2], t.names ++ [call.1], t.index.insert call.1 id⟩)

/-- What can be asked of the table: each question goes to one of the structures. -/
def view (t : IndexedTable) : TableView where
  size := t.materials.length
  materials := t.materials
  id? name := t.index[name]?
  get? id := t.materials[id.number.toNat]?
  name? id := t.names[id.number.toNat]?

/-- The three structures hold the table. -/
structure InStep (t : IndexedTable) (table : MaterialTable) : Prop where
  materials : t.materials = table.materials
  names : t.names = table.names
  index : ∀ name, t.index[name]? = table.id? name

variable {t : IndexedTable} {table : MaterialTable}

theorem inStep_start : InStep {} {} where
  materials := rfl
  names := rfl
  index _ := Std.HashMap.getElem?_empty

theorem InStep.contains_iff (h : InStep t table) (name : String) :
    t.index.contains name = true ↔ name ∈ table.names := by
  rw [Std.HashMap.contains_eq_isSome_getElem?, h.index, MaterialTable.id?_isSome_iff]

/-- A new name gets the number that follows, and no other name changes its number. -/
theorem id?_append {call : Insertion} (fresh : call.1 ∉ table.names) (name : String) :
    MaterialTable.id? ⟨table.entries ++ [call]⟩ name =
      if call.1 == name then some ⟨.ofNat table.size⟩ else table.id? name := by
  have hsize : table.names.length = table.size := List.length_map _
  rw [MaterialTable.id?_eq_findIdx?, MaterialTable.names_append, List.findIdx?_append,
    MaterialTable.id?_eq_findIdx?]
  by_cases hname : call.1 == name
  · have hnone : table.names.findIdx? (· == name) = none := by
      rw [List.findIdx?_eq_none_iff]
      rintro other hother
      refine Bool.eq_false_iff.2 fun hsame => fresh ?_
      rwa [eq_of_beq hname, ← eq_of_beq hsame]
    simp [hnone, hname, hsize]
  · simp [hname]

/-- **A call is answered in the same way, and leaves the structures in step.** -/
theorem InStep.insert (h : InStep t table) (call : Insertion) :
    (t.insert call).1 = (table.insert call).1 ∧
      InStep (t.insert call).2 (table.insert call).2 := by
  rw [IndexedTable.insert, MaterialTable.insert_eq]
  by_cases hname : call.1 ∈ table.names
  · rw [if_pos ((h.contains_iff _).2 hname), if_pos hname]
    exact ⟨rfl, h⟩
  · have hsize : t.materials.length = table.size := by
      rw [h.materials, MaterialTable.materials, List.length_map, MaterialTable.size]
    rw [if_neg (fun hmem => hname ((h.contains_iff _).1 hmem)), if_neg hname, hsize]
    refine ⟨rfl, ?_, ?_, fun name => ?_⟩
    · simp [h.materials, MaterialTable.materials]
    · rw [h.names, MaterialTable.names_append]
    · rw [Std.HashMap.getElem?_insert, id?_append hname, h.index]

theorem InStep.tableAfter (h : InStep t table) (calls : List Insertion) :
    InStep (tableAfter IndexedTable.insert t calls)
      (tableAfter MaterialTable.insert table calls) := by
  induction calls generalizing t table with
  | nil => exact h
  | cons call calls ih => exact ih (h.insert call).2

theorem InStep.answersOf_eq (h : InStep t table) (calls : List Insertion) :
    answersOf IndexedTable.insert t calls = answersOf MaterialTable.insert table calls := by
  induction calls generalizing t table with
  | nil => rfl
  | cons call calls ih =>
    obtain ⟨hanswer, hstep⟩ := h.insert call
    rw [answersOf, answersOf, hanswer, ih hstep]

theorem InStep.view_eq (h : InStep t table) : t.view = table.view := by
  have hsize : t.materials.length = table.size := by
    rw [h.materials, MaterialTable.materials, List.length_map, MaterialTable.size]
  rw [view, MaterialTable.view, hsize, h.materials, h.names]
  congr 1
  · exact funext h.index
  · funext id
    exact List.getElem?_map
  · funext id
    exact List.getElem?_map

/-- After any calls there is no difference between the two tables. -/
theorem view_tableAfter (calls : List Insertion) :
    (tableAfter insert {} calls).view = (tableAfter MaterialTable.insert {} calls).view :=
  (inStep_start.tableAfter calls).view_eq

end IndexedTable

namespace MaterialTable

/-- **The numbers of materials are the positions of the first uses of their names**, in every table
that calls lead to.  This holds of the list of entries and of the three parallel structures. -/
theorem numbered_insertions (calls : List Insertion)
    (small : (firstUses [] calls).length ≤ UInt32.size) :
    NumbersInsertions insert view {} calls ∧
      NumbersInsertions IndexedTable.insert IndexedTable.view {} calls := by
  have h := numbersInsertions calls small
  have hanswers := IndexedTable.inStep_start.answersOf_eq calls
  refine ⟨h, ?_, ?_, ?_, ?_, ?_⟩
  · rw [hanswers]
    exact h.answers
  · rw [hanswers]
    exact h.ids
  · rw [IndexedTable.view_tableAfter]
    exact h.numbers
  · simp only [hanswers, IndexedTable.view_tableAfter]
    exact h.refused
  · simp only [IndexedTable.view_tableAfter]
    exact h.stable

/-- Two names, the first of which is used again with another material. -/
def redTwice : List Insertion := [("red", {}), ("blue", {}), ("red", { ambient := 1.0 })]

theorem numbered_redTwice :
    (firstUses [] redTwice).length ≤ UInt32.size ∧
      answersOf insert {} redTwice = [.ok ⟨0⟩, .ok ⟨1⟩, .error ⟨"red"⟩] ∧
      (tableAfter IndexedTable.insert {} redTwice).view.Numbers
        [("red", {}), ("blue", {})] := by
  have small : (firstUses [] redTwice).length ≤ UInt32.size := by decide
  exact ⟨small, rfl, (numbered_insertions redTwice small).2.numbers⟩

end MaterialTable

end RayTracer
