import RayTracer.Proofs.Number.Text
import RayTracer.Proofs.Text.Line
import RayTracer.Shader.Injection

/-!
# The literals of a scene read back

The reader of rows searches a text for the opening `vec4<f32>(`, takes what stands up to the next
closing parenthesis, and goes on behind it.  It finds the rows that were written if nothing else in
the text looks like an opening.  This holds because the opening has a *mark*, a character that
stands nowhere outside the rows: `<` in the assignments, and in the declarations, which do name
types with `<`, the opening parenthesis.

* `floatLiteral_readsBack` : **the literal of a number reads back**, and that of a finite one is a
  numeral with a point or a power of ten, which is rounded correctly to that number.
* `readRow?_components` : the text between the parentheses of a row reads back.
* `Holds mark text rows` : the text is made of the literals of the rows and of text without the
  mark.
* `readRows_of_holds` : the reader finds exactly the rows that a text holds.
* `readRows_literal` : the literal of an entity reads back to its rows.
* `Shader.readRows_scene` : **the text that is written for a scene reads back to the rows of
  everything in the scene.**
-/

namespace RayTracer

/-! ### One number -/

theorem IsLiteralChar.isBlank_eq_false {c : Char} (h : IsLiteralChar c) : isBlank c = false := by
  rcases h with h | rfl | rfl
  · have hrange : (48 ≤ c.toNat ∧ c.toNat ≤ 57) ∨ (65 ≤ c.toNat ∧ c.toNat ≤ 90) ∨
        (97 ≤ c.toNat ∧ c.toNat ≤ 122) := by
      simp only [Char.isAlphanum, Char.isAlpha, Char.isUpper, Char.isLower, Char.isDigit,
        Bool.or_eq_true, Bool.and_eq_true, decide_eq_true_eq, UInt32.le_iff_toNat_le] at h
      change ((65 ≤ c.toNat ∧ c.toNat ≤ 90) ∨ (97 ≤ c.toNat ∧ c.toNat ≤ 122)) ∨
        (48 ≤ c.toNat ∧ c.toNat ≤ 57) at h
      omega
    simp only [isBlank, Bool.or_eq_false_iff, Bool.and_eq_false_iff, decide_eq_false_iff_not,
      beq_eq_false_iff_ne]
    omega
  · decide
  · decide

theorem isLiteralChar_of_mem_floatLiteral {x : Float32} {c : Char} (h : c ∈ floatLiteral x) :
    IsLiteralChar c :=
  Float32.isLiteralChar_of_mem_text h

theorem not_mem_floatLiteral {x : Float32} {c : Char} (hc : ¬IsLiteralChar c) :
    c ∉ floatLiteral x :=
  fun h => hc (isLiteralChar_of_mem_floatLiteral h)

/-- **The literal of a number reads back.**  For a finite number it is a numeral, and the number is
the only one that this numeral is rounded to correctly.  The numeral has a point or a power of ten,
and none of the characters that stand between literals. -/
theorem floatLiteral_readsBack (x : Float32) :
    Float32.ofText? (floatLiteral x) = some x ∧
      (x.isFinite = true →
        (∃ n : Numeral, n.IsWellFormed ∧ floatLiteral x = n.text ∧ ∀ y, n.RoundsTo y ↔ y = x) ∧
        ('.' ∈ floatLiteral x ∨ 'e' ∈ floatLiteral x) ∧
        ∀ c ∈ [',', '(', ')', ' '], c ∉ floatLiteral x) := by
  have hread : Float32.ofText? (floatLiteral x) = some x := x.ofText?_text
  refine ⟨hread, fun hfinite => ?_⟩
  obtain ⟨n, hn, hpoint, htext, -⟩ := NumberStyle.literal.exists_numeral rfl
    (BinaryFormat.single.signBit ≤ x.toBits.toNat) (x.isFinite_iff.1 hfinite)
  change n.text = floatLiteral x at htext
  have hseparator : ∀ c ∈ [',', '(', ')', ' '], ¬IsLiteralChar c := by
    rw [List.forall_mem_cons, List.forall_mem_cons, List.forall_mem_cons, List.forall_mem_singleton]
    decide
  refine ⟨⟨n, hn, htext.symm, fun y => ?_⟩, ?_, fun c hc => not_mem_floatLiteral (hseparator c hc)⟩
  · rw [← Numeral.ofText?_text_iff hn, htext, hread, Option.some.injEq, eq_comm]
  · rw [← htext]
    exact Numeral.point_or_power_mem_text hpoint

/-- The negative number nearest to zero is written with one digit and a power of ten. -/
theorem floatLiteral_readsBack_subnormal :
    (Float32.ofBits 0x80000001).isFinite = true ∧
      floatLiteral (Float32.ofBits 0x80000001) = "-1e-45".toList ∧
      ∃ n : Numeral, n.IsWellFormed ∧ n.text = "-1e-45".toList ∧
        ∀ y, n.RoundsTo y ↔ y = Float32.ofBits 0x80000001 := by
  have hfinite : (Float32.ofBits 0x80000001).isFinite = true := by decide +kernel
  have htext : floatLiteral (Float32.ofBits 0x80000001) = "-1e-45".toList := by decide +kernel
  obtain ⟨-, hnumeral⟩ := floatLiteral_readsBack (Float32.ofBits 0x80000001)
  obtain ⟨⟨n, hn, hliteral, hrounds⟩, -⟩ := hnumeral hfinite
  exact ⟨hfinite, htext, n, hn, by rw [← hliteral, htext], hrounds⟩

/-! ### One row -/

/-- A component reads back without the blanks at its start. -/
theorem ofText?_trim_floatLiteral (x : Float32) :
    Float32.ofText? (Line.trim (floatLiteral x)) = some x := by
  rw [Line.trim_eq_self fun c hc => (isLiteralChar_of_mem_floatLiteral hc).isBlank_eq_false]
  exact x.ofText?_text

theorem partsAfter_append {l : Line} (h : ',' ∉ l) (part rest : Line) :
    partsAfter part (l ++ ',' :: rest) = (part.reverse ++ l) :: partsAfter [] rest := by
  induction l generalizing part with
  | nil => simp [partsAfter]
  | cons c l ih =>
    have hc : c ≠ ',' := (List.ne_of_not_mem_cons h).symm
    simp [partsAfter, hc, ih (List.not_mem_of_not_mem_cons h)]

theorem partsAfter_eq_singleton {l : Line} (h : ',' ∉ l) (part : Line) :
    partsAfter part l = [part.reverse ++ l] := by
  induction l generalizing part with
  | nil => simp [partsAfter]
  | cons c l ih =>
    have hc : c ≠ ',' := (List.ne_of_not_mem_cons h).symm
    simp [partsAfter, hc, ih (List.not_mem_of_not_mem_cons h)]

/-- What stands between the parentheses of the literal of a row. -/
def components (r : Row) : Line := joinWith ", ".toList (r.toList.map floatLiteral)

theorem rowLiteral_eq (r : Row) : rowLiteral r = rowOpening ++ (components r ++ [')']) := by
  simp [rowLiteral, construct, rowOpening, components]

/-- Each component but the first one is read with the blank in front of it. -/
theorem partsAfter_components (r : Row) : partsAfter [] (components r) =
    [floatLiteral r.x, ' ' :: floatLiteral r.y, ' ' :: floatLiteral r.z,
      ' ' :: floatLiteral r.w] := by
  have hx (x : Float32) : ',' ∉ floatLiteral x := not_mem_floatLiteral (by decide)
  have hblank (x : Float32) : ',' ∉ ' ' :: floatLiteral x :=
    List.not_mem_cons_of_ne_of_not_mem (by decide) (hx x)
  have htext : components r = floatLiteral r.x ++ ',' :: ((' ' :: floatLiteral r.y) ++ ',' ::
      ((' ' :: floatLiteral r.z) ++ ',' :: ' ' :: floatLiteral r.w)) := by
    simp [components, Row.toList, joinWith]
  rw [htext, partsAfter_append (hx r.x), partsAfter_append (hblank r.y),
    partsAfter_append (hblank r.z), partsAfter_eq_singleton (hblank r.w)]
  rfl

/-- **The components of a row read back.** -/
theorem readRow?_components (r : Row) : readRow? (components r) = some r := by
  have hblank (x : Float32) : Float32.ofText? (Line.trim (' ' :: floatLiteral x)) = some x := by
    rw [Line.trim_cons_of_blank (by decide), ofText?_trim_floatLiteral]
  have hread : (partsAfter [] (components r)).mapM (fun part => Float32.ofText? part.trim) =
      some r.toList := by
    simp [partsAfter_components, ofText?_trim_floatLiteral, hblank, Row.toList]
  rw [readRow?, hread]
  exact Row.ofList?_toList r

theorem close_not_mem_components (r : Row) : ')' ∉ components r := by
  have hx (x : Float32) : ')' ∉ floatLiteral x := not_mem_floatLiteral (by decide)
  simp [components, Row.toList, joinWith, hx]

/-! ### The rows of a text -/

/-- The text is made of the literals of the rows, in order, and of text without the mark. -/
inductive Holds (mark : Char) : Line → List Row → Prop
  | none {l : Line} (h : mark ∉ l) : Holds mark l []
  | row {l tail : Line} {rows : List Row} (r : Row) (h : mark ∉ l) (rest : Holds mark tail rows) :
    Holds mark (l ++ (rowLiteral r ++ tail)) (r :: rows)

section Reading

variable {mark : Char} {p q : Line} {l : Line} {rows : List Row}

/-- The reader finds the row at the first mark. -/
theorem readRows_row (opening : rowOpening = p ++ mark :: q) (hp : mark ∉ p) (hl : mark ∉ l)
    (r : Row) (tail : Line) :
    readRows (l ++ (rowLiteral r ++ tail)) = (readRows tail).map (r :: ·) := by
  have htext : l ++ (rowLiteral r ++ tail) =
      l ++ (rowOpening ++ (components r ++ ')' :: tail)) := by
    simp [rowLiteral_eq]
  have hopen : Line.cut? rowOpening (l ++ (rowLiteral r ++ tail)) =
      some (l, components r ++ ')' :: tail) := by
    rw [htext, opening]
    exact Line.cut?_append hp hl _
  have hclose : Line.cut? [')'] (components r ++ ')' :: tail) = some (components r, tail) :=
    Line.cut?_append List.not_mem_nil (close_not_mem_components r) tail
  rw [readRows]
  split
  · rename_i hnone
    rw [hopen] at hnone
    cases hnone
  · rename_i inner hinner
    obtain ⟨-, rfl⟩ : l = _ ∧ components r ++ ')' :: tail = inner := by
      simpa [hopen] using hinner
    split
    · rename_i hnone
      rw [hclose] at hnone
      cases hnone
    · rename_i arguments rest hrest
      obtain ⟨rfl, rfl⟩ : components r = arguments ∧ tail = rest := by
        simpa [hclose] using hrest
      rw [readRow?_components]

/-- **The reader finds exactly the rows that a text holds**, if the mark stands once in the
opening. -/
theorem readRows_of_holds (opening : rowOpening = p ++ mark :: q) (hp : mark ∉ p)
    (h : Holds mark l rows) : readRows l = .ok rows := by
  induction h with
  | @none l hl =>
    have hmark : mark ∈ rowOpening := by simp [opening]
    rw [readRows]
    split
    · rfl
    · rename_i hsome
      rw [Line.cut?_eq_none hmark hl] at hsome
      cases hsome
  | row r hl rest ih => rw [readRows_row opening hp hl, ih, Except.map]

end Reading

namespace Holds

variable {mark : Char} {l m : Line} {rows others : List Row}

theorem prepend (hm : mark ∉ m) (h : Holds mark l rows) : Holds mark (m ++ l) rows := by
  have both {l : Line} (hl : mark ∉ l) : mark ∉ m ++ l :=
    fun h => (List.mem_append.1 h).elim hm hl
  cases h with
  | none hl => exact .none (both hl)
  | row r hl rest =>
    rw [← List.append_assoc]
    exact .row r (both hl) rest

protected theorem append (h : Holds mark l rows) (h' : Holds mark m others) :
    Holds mark (l ++ m) (rows ++ others) := by
  induction h with
  | none hl => exact h'.prepend hl
  | row r hl rest ih =>
    simp only [List.append_assoc, List.cons_append]
    exact .row r hl ih

theorem postpone (h : Holds mark l rows) (hm : mark ∉ m) : Holds mark (l ++ m) rows := by
  have happend := h.append (.none hm)
  rwa [List.append_nil] at happend

theorem ofRow (r : Row) : Holds mark (rowLiteral r) [r] := by
  have hrow := Holds.row r (List.not_mem_nil (a := mark)) (.none List.not_mem_nil)
  simpa using hrow

/-- Joined texts hold the rows of all of them. -/
theorem ofJoin {separator : Line} (hseparator : mark ∉ separator) {ls : List Line}
    {rows : List (List Row)} (h : List.Forall₂ (Holds mark) ls rows) :
    Holds mark (joinWith separator ls) rows.flatten := by
  induction h with
  | nil => exact .none List.not_mem_nil
  | @cons l r ls rs hl hls ih =>
    cases hls with
    | nil => simpa [joinWith] using hl
    | cons => exact (hl.postpone hseparator).append ih

end Holds

/-! ### The text of a scene -/

open Line (AllBlank)

variable {α : Type} {indent array name value : Line} {rows : List Row}

/-- The rows of the place that an array without entities has. -/
def Shader.placeholderRows (count : ℕ) (entities : List α) : List Row :=
  if entities.isEmpty then List.replicate count .zero else []

theorem Shader.flatten_placeholder (count : ℕ) (entities : List α) :
    (if entities.isEmpty then [placeholderRows count entities] else []).flatten =
      placeholderRows count entities := by
  unfold placeholderRows
  split
  · exact List.flatten_singleton
  · rfl

variable [Packed α]

theorem holds_construct (hname : '<' ∉ name) (rows : List Row) :
    Holds '<' (construct name (rows.map rowLiteral)) rows := by
  have hrows : List.Forall₂ (Holds '<') (rows.map rowLiteral) (rows.map ([·])) := by
    rw [List.forall₂_map_left_iff, List.forall₂_map_right_iff, List.forall₂_same]
    exact fun r _ => .ofRow r
  have hcomma : '<' ∉ ", ".toList := by decide
  have hjoin := Holds.ofJoin hcomma hrows
  rw [← List.flatMap_def, List.flatMap_singleton'] at hjoin
  have hopen : '<' ∉ name ++ ['('] := by simp [hname]
  have hclose : '<' ∉ [')'] := by decide
  simpa [construct] using (hjoin.prepend hopen).postpone hclose

/-- **The literal of an entity reads back to its rows.** -/
theorem readRows_literal (htype : '<' ∉ Packed.typeName α) (a : α) :
    readRows (Packed.literal a) = .ok (Packed.rows a) :=
  readRows_of_holds (p := "vec4".toList) rfl (by decide) (holds_construct htype (Packed.rows a))

namespace Shader

theorem holds_assignment (hindent : AllBlank indent) (harray : '<' ∉ array)
    (hvalue : Holds '<' value rows) (index : ℕ) :
    Holds '<' (assignment indent array index value) rows := by
  have hblank : '<' ∉ indent := fun h => absurd (hindent '<' h) (by decide)
  have hindex : '<' ∉ Decimal.digitsOf index := Decimal.notMem_digitsOf (by decide) index
  have hplace : '<' ∉ indent ++ array ++ '[' :: Decimal.digitsOf index ++ "] = ".toList := by
    simp [hblank, harray, hindex]
  exact (hvalue.prepend hplace).postpone (by decide)

theorem holds_assignments (hindent : AllBlank indent) (harray : '<' ∉ array)
    (htype : '<' ∉ Packed.typeName α) (entities : List α) :
    List.Forall₂ (Holds '<') (assignments indent array entities) (entities.map Packed.rows) := by
  have hnumbered : entities.map Packed.rows = entities.zipIdx.map fun e => Packed.rows e.1 :=
    (congrArg (List.map Packed.rows) (List.zipIdx_map_fst 0 entities)).symm.trans List.map_map
  rw [assignments, hnumbered, List.forall₂_map_left_iff, List.forall₂_map_right_iff,
    List.forall₂_same]
  exact fun e _ => holds_assignment hindent harray (holds_construct htype (Packed.rows e.1)) e.2

theorem holds_placeholder (hindent : AllBlank indent) (harray : '<' ∉ array)
    (htype : '<' ∉ Packed.typeName α) (count : ℕ) (entities : List α) :
    List.Forall₂ (Holds '<') (placeholder indent array count entities)
      (if entities.isEmpty then [placeholderRows count entities] else []) := by
  unfold placeholder placeholderRows
  split
  · have hzeros := holds_construct htype (List.replicate count Row.zero)
    rw [List.map_replicate] at hzeros
    exact .cons (holds_assignment hindent harray hzeros 0) .nil
  · exact .nil

/-- The declarations of an array have no parentheses at all. -/
theorem holds_arrayDeclarations {counter type : Line} (h : '(' ∉ counter ++ array ++ type)
    (size : ℕ) :
    List.Forall₂ (Holds '(') (arrayDeclarations counter array type size) [[], []] := by
  obtain ⟨hcounter, harray, htype⟩ : '(' ∉ counter ∧ '(' ∉ array ∧ '(' ∉ type := by
    simpa using h
  have hdigits (n : ℕ) : '(' ∉ Decimal.digitsOf n := Decimal.notMem_digitsOf (by decide) n
  refine .cons (.none ?_) (.cons (.none ?_) .nil)
  · simp [hcounter, hdigits]
  · simp [harray, htype, hdigits]

/-- The assignments read back to the rows of everything that they assign. -/
theorem readRows_constructors (scene : Scene) (hindent : AllBlank indent) :
    readRows (joinWith ['\n'] (constructors scene indent)) =
      .ok (scene.primitives.flatMap Packed.rows ++ scene.lights.flatMap Packed.rows ++
        scene.materials.materials.flatMap Packed.rows ++
        placeholderRows 3 scene.primitives ++ placeholderRows 2 scene.lights ++
        placeholderRows 2 scene.materials.materials) := by
  have hprimitive : '<' ∉ Packed.typeName (Primitive Float32) := by decide
  have hlight : '<' ∉ Packed.typeName Light := by decide
  have hmaterial : '<' ∉ Packed.typeName Material := by decide
  have hprimitives : '<' ∉ "primitives".toList := by decide
  have hlights : '<' ∉ "lights".toList := by decide
  have hmaterials : '<' ∉ "materials".toList := by decide
  have hfeed : '<' ∉ ['\n'] := by decide
  have hassigned := List.rel_append (List.rel_append
    (holds_assignments hindent hprimitives hprimitive scene.primitives)
    (holds_assignments hindent hlights hlight scene.lights))
    (holds_assignments hindent hmaterials hmaterial scene.materials.materials)
  have hall := List.rel_append (List.rel_append (List.rel_append hassigned
    (holds_placeholder hindent hprimitives hprimitive 3 scene.primitives))
    (holds_placeholder hindent hlights hlight 2 scene.lights))
    (holds_placeholder hindent hmaterials hmaterial 2 scene.materials.materials)
  have hread := readRows_of_holds (p := "vec4".toList) rfl (by decide) (Holds.ofJoin hfeed hall)
  simp only [List.flatten_append, flatten_placeholder, ← List.flatMap_def] at hread
  exact hread

/-- The declarations read back to the row of the ambient light. -/
theorem readRows_declarations (scene : Scene) :
    readRows (joinWith ['\n'] (declarations scene)) = .ok [scene.ambient.row] := by
  have hambient : Holds '(' ("var<private> ambient_light: vec4<f32> = ".toList ++
      rowLiteral scene.ambient.row ++ [';']) [scene.ambient.row] :=
    ((Holds.ofRow _).prepend (by decide)).postpone (by decide)
  have hprimitives : '(' ∉ "PRIMITIVE_COUNT".toList ++ "primitives".toList ++
      Packed.typeName (Primitive Float32) := by decide
  have hlights : '(' ∉ "LIGHT_COUNT".toList ++ "lights".toList ++ Packed.typeName Light := by
    decide
  have hmaterials : '(' ∉ "MATERIAL_COUNT".toList ++ "materials".toList ++
      Packed.typeName Material := by decide
  have hall := List.rel_append (List.rel_append (List.rel_append
    (holds_arrayDeclarations hprimitives scene.primitives.length)
    (holds_arrayDeclarations hlights scene.lights.length))
    (holds_arrayDeclarations hmaterials scene.materials.size)) (.cons hambient .nil)
  have hfeed : '(' ∉ ['\n'] := by decide
  exact readRows_of_holds (p := "vec4<f32>".toList) rfl (by decide) (Holds.ofJoin hfeed hall)

/-- **The text that is written for a scene reads back.**  Reading gives every row of every entity as
it was, float for float: in the order of the arrays, then the rows of the places that empty arrays
have, and for the declarations the row of the ambient light. -/
theorem readRows_scene (scene : Scene) (hindent : AllBlank indent) :
    readRows (joinWith ['\n'] (constructors scene indent)) =
        .ok (scene.primitives.flatMap Packed.rows ++ scene.lights.flatMap Packed.rows ++
          scene.materials.materials.flatMap Packed.rows ++
          placeholderRows 3 scene.primitives ++ placeholderRows 2 scene.lights ++
          placeholderRows 2 scene.materials.materials) ∧
      readRows (joinWith ['\n'] (declarations scene)) = .ok [scene.ambient.row] :=
  ⟨readRows_constructors scene hindent, readRows_declarations scene⟩

/-- A cylinder of infinite length with the least radius there is, in the dark. -/
def needle : Scene where
  camera := ⟨⟨0.0, 0.0, 10.0⟩, .zero⟩
  primitives := [⟨.cylinder ⟨⟨-0.0, 0.1, 1.0e-7⟩, ⟨0.0, .infinity, 0.0⟩, .ofBits 1⟩, ⟨0⟩⟩]
  materials := ⟨[("steel", ⟨⟨0.5, 0.5, 0.5⟩, 0.1, 0.9, .undefined, 32.0, 0.25⟩)]⟩
  ambient := ⟨⟨1.0, 1.0, 1.0⟩, 0.15⟩
  maxDepth := 1

theorem readRows_needle :
    AllBlank [' ', '\t'] ∧
      readRows (joinWith ['\n'] (constructors needle [' ', '\t'])) =
        .ok [⟨4.0, UInt32.toFloat32 0, .ofBits 1, 0.0⟩, ⟨-0.0, 0.1, 1.0e-7, 0.0⟩,
          ⟨0.0, .infinity, 0.0, 0.0⟩, ⟨0.5, 0.5, 0.5, 0.1⟩, ⟨0.9, .undefined, 32.0, 0.25⟩,
          .zero, .zero] ∧
      readRows (joinWith ['\n'] (declarations needle)) = .ok [⟨1.0, 1.0, 1.0, 0.15⟩] := by
  have hindent : AllBlank [' ', '\t'] := .cons (by decide) (.cons (by decide) .nil)
  exact ⟨hindent, readRows_scene needle hindent⟩

end Shader

end RayTracer
