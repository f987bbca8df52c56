import RayTracer.Proofs.Number.Text
import RayTracer.Proofs.Unroll.Naming
import RayTracer.Proofs.Unroll.Renaming
import RayTracer.Proofs.Unroll.Directive
import RayTracer.Proofs.Shader.Literals
import RayTracer.Shader.Program

/-!
# Lines that are only code

What a line is to the readers of a shader shows at its start: a directive and a scene marker are
comments, and the declaration of a function starts with `fn`.  So a line in which something else
stands behind the blanks is none of these (`IsQuiet`, `IsCode`), whatever follows.

* `IsIndented.renameCall` : an indented call stays code when it gets another name.
* `Shader.injectLine_cases` : **whatever the scene, the lines that are written for it are code.**
-/

namespace RayTracer

open Line (AllBlank)
open CompiledShader (declaredName?)

/-- The line holds neither a line feed nor a carriage return. -/
def Unbroken (l : Line) : Prop := '\n' ∉ l ∧ '\r' ∉ l

instance (l : Line) : Decidable (Unbroken l) := inferInstanceAs (Decidable (_ ∧ _))

/-- The line is a comment that starts like a scene marker. -/
def IsSceneMarker (l : Line) : Prop := "// scene:".toList <+: l.trimStart

instance (l : Line) : Decidable (IsSceneMarker l) :=
  decidable_of_iff ("// scene:".toList.isPrefixOf l.trimStart = true) List.isPrefixOf_iff_prefix

/-- A single line that is neither a directive nor a scene marker. -/
structure IsQuiet (l : Line) : Prop where
  unbroken : Unbroken l
  ordinary : LineKind.of l = .ordinary
  unmarked : ¬IsSceneMarker l

instance (l : Line) : Decidable (IsQuiet l) :=
  decidable_of_iff (Unbroken l ∧ LineKind.of l = .ordinary ∧ ¬IsSceneMarker l)
    ⟨fun h => ⟨h.1, h.2.1, h.2.2⟩, fun h => ⟨h.unbroken, h.ordinary, h.unmarked⟩⟩

/-- A quiet line that declares no function. -/
structure IsCode (l : Line) : Prop extends IsQuiet l where
  undeclared : declaredName? l = none

instance (l : Line) : Decidable (IsCode l) :=
  decidable_of_iff (IsQuiet l ∧ declaredName? l = none)
    ⟨fun h => ⟨h.1, h.2⟩, fun h => ⟨h.toIsQuiet, h.undeclared⟩⟩

variable {l a rest : Line} {c : Char}

theorem Unbroken.append {m : Line} (h : Unbroken l) (hm : Unbroken m) : Unbroken (l ++ m) :=
  ⟨fun hc => (List.mem_append.1 hc).elim h.1 hm.1, fun hc => (List.mem_append.1 hc).elim h.2 hm.2⟩

theorem Unbroken.of_subset {l' : Line} (h : Unbroken l) (hsub : l' ⊆ l) : Unbroken l' :=
  ⟨fun hc => h.1 (hsub hc), fun hc => h.2 (hsub hc)⟩

/-- A marker is recognized whatever blanks stand around it. -/
theorem isSceneMarker_of_trim {marker : Line} (hmarker : "// scene:".toList <+: marker)
    (h : l.trim = marker) : IsSceneMarker l := by
  have htrim : l.trim <+: l.trimStart := by
    refine List.reverse_suffix.1 ?_
    rw [Line.trim, Line.trimEnd, List.reverse_reverse]
    exact List.dropWhile_suffix _
  exact (h ▸ hmarker).trans htrim

/-! ### The start of a line -/

/-- A line that starts with no slash is no comment. -/
theorem isQuiet_of_start (ha : AllBlank a) (hc : isBlank c = false) (hslash : c ≠ '/')
    (unbroken : Unbroken (a ++ c :: rest)) : IsQuiet (a ++ c :: rest) := by
  have hstart : Line.trimStart (a ++ c :: rest) = c :: rest := Line.trimStart_append ha hc
  refine ⟨unbroken, ?_, ?_⟩
  · rw [LineKind.of_eq_ordinary_iff]
    rintro body ⟨b, d, hb, -, hl⟩
    have hcomment :
        Line.trimStart (a ++ c :: rest) = '/' :: ('/' :: (d ++ ("rec:".toList ++ body))) := by
      rw [hl]
      exact Line.trimStart_append hb (by decide)
    exact hslash (List.cons.inj (hstart.symm.trans hcomment)).1
  · rintro ⟨after, hafter⟩
    rw [hstart] at hafter
    exact hslash (List.cons.inj hafter).1.symm

/-- A line that does not start with `f` declares no function. -/
theorem declaredName?_eq_none (h : l.head? ≠ some 'f') : declaredName? l = none := by
  have hrest : Line.rest? "fn ".toList l = none := by
    rw [Option.eq_none_iff_forall_ne_some]
    intro after hafter
    rw [Line.rest?_eq_some_iff.1 hafter] at h
    exact h rfl
  rw [declaredName?, hrest, Option.map_none]

theorem declaredName?_declaration {name : Line} (hname : '(' ∉ name) (rest : Line) :
    declaredName? ("fn ".toList ++ (name ++ '(' :: rest)) = some name := by
  have hcut : Line.cut? ['('] (name ++ '(' :: rest) = some (name, rest) :=
    Line.cut?_append List.not_mem_nil hname rest
  rw [declaredName?, Line.rest?_eq_some_iff.2 rfl, Option.map_some, Line.before, hcut]

/-- A line that starts with no slash, and with no `f` unless it is indented, is only code. -/
theorem isCode_of_start (ha : AllBlank a) (hc : isBlank c = false) (hslash : c ≠ '/')
    (hf : a = [] → c ≠ 'f') (unbroken : Unbroken (a ++ c :: rest)) : IsCode (a ++ c :: rest) := by
  refine ⟨isQuiet_of_start ha hc hslash unbroken, declaredName?_eq_none ?_⟩
  cases a with
  | nil => simpa using hf
  | cons b a =>
    have hb : isBlank b = true := ha b List.mem_cons_self
    rintro ⟨⟩
    cases hb

/-! ### Renamed calls -/

theorem IsIdentifier.isBlank_eq_false {c : Char} (h : isIdentifierChar c = true) :
    isBlank c = false := by
  rcases Bool.or_eq_true_iff.1 h with h | h
  · exact IsLiteralChar.isBlank_eq_false (.inl h)
  · obtain rfl := eq_of_beq h
    decide

theorem IsIdentifier.unbroken {name : Line} (h : IsIdentifier name) : Unbroken name :=
  ⟨h.not_mem (by decide), h.not_mem (by decide)⟩

theorem unbroken_renameCall {target : Line} (h : Unbroken l) (htarget : Unbroken target)
    (name : Line) : Unbroken (renameCall l name target) :=
  ⟨fun hc => (mem_renameCall hc).elim h.1 htarget.1,
    fun hc => (mem_renameCall hc).elim h.2 htarget.2⟩

section Rename

variable {name target : Line} {previous : Option Char}

/-- Calls do not start in blanks. -/
theorem renameFrom_blanks (hname : IsIdentifier name) (ha : AllBlank a) (l : Line) :
    renameFrom name target previous 0 0 (a ++ l) =
      a ++ renameFrom name target (a.getLast?.or previous) 0 0 l := by
  induction a generalizing previous with
  | nil => rfl
  | cons b a ih =>
    obtain ⟨hb, ha⟩ := List.forall_mem_cons.1 ha
    have hother : ¬callPattern name <+: b :: (a ++ l) := by
      obtain ⟨c, tail, rfl, hc⟩ := hname.exists_cons
      intro hprefix
      obtain rfl : c = b := (List.cons_prefix_cons.1 hprefix).1
      rw [IsIdentifier.isBlank_eq_false hc] at hb
      cases hb
    rw [List.cons_append, renameFrom_other hother, ih ha, List.getLast?_cons, List.cons_append]
    cases a.getLast? <;> rfl

/-- Behind the blanks, a renamed line starts as before or with the new name. -/
theorem exists_renameFrom_cons (hname : IsIdentifier name) (htarget : IsIdentifier target)
    (hc : isBlank c = false) (hslash : c ≠ '/') (previous : Option Char) (rest : Line) : ∃ d tail,
      renameFrom name target previous 0 0 (c :: rest) = d :: tail ∧
        isBlank d = false ∧ d ≠ '/' := by
  obtain ⟨d, target, rfl, hd⟩ := htarget.exists_cons
  generalize hl : c :: rest = l
  cases callScan name previous l with
  | nil => cases hl
  | call boundary after =>
    rw [renameFrom_call hname.isName boundary]
    refine ⟨d, _, rfl, IsIdentifier.isBlank_eq_false hd, ?_⟩
    rintro rfl
    cases hd
  | tail boundary after =>
    obtain ⟨e, name, rfl, -⟩ := hname.exists_cons
    rw [renameFrom_tail hname.ne_nil boundary]
    obtain ⟨rfl, -⟩ := List.cons.inj hl
    exact ⟨c, _, rfl, hc, hslash⟩
  | other none after =>
    obtain ⟨rfl, -⟩ := List.cons.inj hl
    rw [renameFrom_other none]
    exact ⟨c, _, rfl, hc, hslash⟩

/-- The line is indented, and something else than a comment stands behind the blanks. -/
structure IsIndented (l : Line) : Prop where
  unbroken : Unbroken l
  indented : l.indent ≠ []
  start : (l.trimStart.head?.any (· ≠ '/')) = true

instance (l : Line) : Decidable (IsIndented l) :=
  decidable_of_iff (Unbroken l ∧ l.indent ≠ [] ∧ (l.trimStart.head?.any (· ≠ '/')) = true)
    ⟨fun h => ⟨h.1, h.2.1, h.2.2⟩, fun h => ⟨h.unbroken, h.indented, h.start⟩⟩

theorem allBlank_indent (l : Line) : AllBlank l.indent :=
  List.all_eq_true.1 List.all_takeWhile

theorem IsIndented.exists_start (h : IsIndented l) : ∃ c rest, l = l.indent ++ c :: rest ∧
    isBlank c = false ∧ c ≠ '/' := by
  have hstart := h.start
  have hblank := List.head?_dropWhile_not isBlank l
  cases htrim : l.trimStart with
  | nil =>
    rw [htrim] at hstart
    cases hstart
  | cons c rest =>
    rw [Line.trimStart] at htrim
    rw [htrim] at hblank
    rw [Line.trimStart, htrim] at hstart
    refine ⟨c, rest, ?_, by simpa using hblank, by simpa using hstart⟩
    rw [← htrim, Line.indent, List.takeWhile_append_dropWhile]

/-- **An indented call stays code when it gets another name.** -/
theorem IsIndented.renameCall (h : IsIndented l) (hname : IsIdentifier name)
    (htarget : IsIdentifier target) : IsCode (renameCall l name target) := by
  have unbroken := unbroken_renameCall h.unbroken htarget.unbroken name
  obtain ⟨c, rest, hl, hc, hslash⟩ := h.exists_start
  obtain ⟨d, tail, hrename, hd, hslash⟩ :=
    exists_renameFrom_cons hname htarget hc hslash l.indent.getLast? rest
  have heq : RayTracer.renameCall l name target = l.indent ++ d :: tail := by
    rw [RayTracer.renameCall, if_neg hname.ne_nil, ← hrename]
    conv_lhs => rw [hl]
    rw [renameFrom_blanks hname (allBlank_indent l), Option.or_none]
  rw [heq] at unbroken ⊢
  exact isCode_of_start (allBlank_indent l) hd hslash (fun hnil => absurd hnil h.indented) unbroken

end Rename

/-- The declaration of a function declares its new name when it is renamed. -/
theorem renameCall_declaration {name : Line} (hname : IsIdentifier name) (rest target : Line) :
    ∃ rest', renameCall ("fn ".toList ++ (name ++ '(' :: rest)) name target =
      "fn ".toList ++ (target ++ '(' :: rest') := by
  have hnot := hname.parenthesis_not_mem
  -- the name is shorter than what stands in front of the parenthesis before it
  have hother : ∀ u : Line, '(' ∉ u → u ≠ [] →
      ¬callPattern name <+: u ++ (name ++ '(' :: rest) := by
    intro u hu hne hprefix
    have hparenthesis : '(' ∉ u ++ name := fun h => (List.mem_append.1 h).elim hu hnot
    rw [← List.append_assoc, callPattern_prefix_iff hnot hparenthesis] at hprefix
    exact hne (List.append_left_eq_self.1 hprefix.symm)
  have hf : ¬callPattern name <+: 'f' :: 'n' :: ' ' :: (name ++ '(' :: rest) :=
    hother ['f', 'n', ' '] (by decide) (by decide)
  have hn : ¬callPattern name <+: 'n' :: ' ' :: (name ++ '(' :: rest) :=
    hother ['n', ' '] (by decide) (by decide)
  have hblank : ¬callPattern name <+: ' ' :: (name ++ '(' :: rest) :=
    hother [' '] (by decide) (by decide)
  refine ⟨renameFrom name target (some '(') 0 0 rest, ?_⟩
  rw [renameCall, if_neg hname.ne_nil]
  show renameFrom name target none 0 0 ('f' :: 'n' :: ' ' :: (name ++ '(' :: rest)) = _
  rw [renameFrom_other hf, renameFrom_other hn, renameFrom_other hblank,
    renameFrom_call hname.isName (by decide)]
  rfl

/-! ### The lines of a scene -/

theorem unbroken_digitsOf (n : Nat) : Unbroken (Decimal.digitsOf n) :=
  ⟨Decimal.notMem_digitsOf (by decide) n, Decimal.notMem_digitsOf (by decide) n⟩

theorem notMem_joinWith {separator : Line} (hseparator : c ∉ separator) {ls : List Line}
    (h : ∀ l ∈ ls, c ∉ l) : c ∉ joinWith separator ls := by
  induction ls with
  | nil => exact List.not_mem_nil
  | cons l ls ih =>
    obtain ⟨hl, hls⟩ := List.forall_mem_cons.1 h
    cases ls with
    | nil => exact hl
    | cons => simp [joinWith, hl, hseparator, ih hls]

theorem notMem_construct {name : Line} (hname : c ∉ name) (hmarks : c ∉ "(, )".toList)
    {arguments : List Line} (h : ∀ l ∈ arguments, c ∉ l) : c ∉ construct name arguments := by
  have hmarks : c ≠ '(' ∧ c ≠ ',' ∧ c ≠ ' ' ∧ c ≠ ')' := by simpa using hmarks
  have hseparator : c ∉ ", ".toList := by simp [hmarks]
  simp only [construct, List.mem_append, List.mem_cons, List.not_mem_nil, or_false, not_or]
  exact ⟨⟨hname, hmarks.1, notMem_joinWith hseparator h⟩, hmarks.2.2.2⟩

/-- A row is written with the characters of numbers and a few more. -/
theorem notMem_rowLiteral (hc : ¬IsLiteralChar c) (hmarks : c ∉ rowType ++ "(, )".toList)
    (r : Row) : c ∉ rowLiteral r := by
  rw [List.mem_append, not_or] at hmarks
  refine notMem_construct hmarks.1 hmarks.2 fun l hl => ?_
  obtain ⟨x, -, rfl⟩ := List.mem_map.1 hl
  exact not_mem_floatLiteral hc

theorem notMem_rowLiterals {name : Line} (hname : c ∉ name) (hc : ¬IsLiteralChar c)
    (hmarks : c ∉ rowType ++ "(, )".toList) (rows : List Row) :
    c ∉ construct name (rows.map rowLiteral) := by
  refine notMem_construct hname (fun h => hmarks (List.mem_append_right _ h)) fun l hl => ?_
  obtain ⟨r, -, rfl⟩ := List.mem_map.1 hl
  exact notMem_rowLiteral hc hmarks r

theorem unbroken_rowLiteral (r : Row) : Unbroken (rowLiteral r) :=
  ⟨notMem_rowLiteral (by decide) (by decide) r, notMem_rowLiteral (by decide) (by decide) r⟩

theorem unbroken_rowLiterals {name : Line} (hname : Unbroken name) (rows : List Row) :
    Unbroken (construct name (rows.map rowLiteral)) :=
  ⟨notMem_rowLiterals hname.1 (by decide) (by decide) rows,
    notMem_rowLiterals hname.2 (by decide) (by decide) rows⟩

namespace Shader

variable {indent array value : Line}

/-- The name of an array that does not start like a declaration. -/
structure IsArrayName (array : Line) : Prop extends IsIdentifier array where
  start : array.head? ≠ some 'f'

instance (array : Line) : Decidable (IsArrayName array) :=
  decidable_of_iff (IsIdentifier array ∧ array.head? ≠ some 'f')
    ⟨fun h => ⟨h.1, h.2⟩, fun h => ⟨h.toIsIdentifier, h.start⟩⟩

theorem isCode_assignment (hindent : AllBlank indent) (unbroken : Unbroken indent)
    (harray : IsArrayName array) (hvalue : Unbroken value) (index : Nat) :
    IsCode (assignment indent array index value) := by
  have hline : Unbroken (assignment indent array index value) := by
    have hplace := (unbroken.append harray.unbroken).append (m := ['[']) (by decide)
    have hnumber := hplace.append (unbroken_digitsOf index)
    have hindex := hnumber.append (m := "] = ".toList) (by decide)
    have hall := (hindex.append hvalue).append (m := [';']) (by decide)
    simpa [assignment] using hall
  obtain ⟨c, tail, rfl, hc⟩ := harray.exists_cons
  have hslash : c ≠ '/' := by
    rintro rfl
    cases hc
  have hstart : assignment indent (c :: tail) index value = indent ++ c :: (tail ++
      '[' :: (Decimal.digitsOf index ++ ("] = ".toList ++ (value ++ [';'])))) := by
    simp [assignment]
  rw [hstart] at hline ⊢
  exact isCode_of_start hindent (IsIdentifier.isBlank_eq_false hc) hslash
    (fun _ h => harray.start (congrArg some h)) hline

theorem isCode_assignments {α : Type} [Packed α] (hindent : AllBlank indent)
    (unbroken : Unbroken indent) (harray : IsArrayName array)
    (htype : Unbroken (Packed.typeName α)) (entities : List α) :
    ∀ l ∈ assignments indent array entities, IsCode l := by
  intro l hl
  obtain ⟨e, -, rfl⟩ := List.mem_map.1 hl
  exact isCode_assignment hindent unbroken harray (unbroken_rowLiterals htype _) _

theorem isCode_placeholder {α : Type} [Packed α] (hindent : AllBlank indent)
    (unbroken : Unbroken indent) (harray : IsArrayName array)
    (htype : Unbroken (Packed.typeName α)) (count : Nat) (entities : List α) :
    ∀ l ∈ placeholder indent array count entities, IsCode l := by
  intro l hl
  unfold placeholder at hl
  split at hl
  · obtain rfl := List.mem_singleton.1 hl
    have hzeros := unbroken_rowLiterals htype (List.replicate count Row.zero)
    rw [List.map_replicate] at hzeros
    exact isCode_assignment hindent unbroken harray hzeros 0
  · cases hl

theorem isCode_constructors (scene : Scene) (hindent : AllBlank indent)
    (unbroken : Unbroken indent) : ∀ l ∈ constructors scene indent, IsCode l := by
  have hprimitives : IsArrayName "primitives".toList := by decide
  have hlights : IsArrayName "lights".toList := by decide
  have hmaterials : IsArrayName "materials".toList := by decide
  have hprimitive : Unbroken (Packed.typeName (Primitive Float32)) := by decide
  have hlight : Unbroken (Packed.typeName Light) := by decide
  have hmaterial : Unbroken (Packed.typeName Material) := by decide
  intro l hl
  simp only [constructors, List.mem_append] at hl
  rcases hl with ((((hl | hl) | hl) | hl) | hl) | hl
  · exact isCode_assignments hindent unbroken hprimitives hprimitive _ l hl
  · exact isCode_assignments hindent unbroken hlights hlight _ l hl
  · exact isCode_assignments hindent unbroken hmaterials hmaterial _ l hl
  · exact isCode_placeholder hindent unbroken hprimitives hprimitive _ _ l hl
  · exact isCode_placeholder hindent unbroken hlights hlight _ _ l hl
  · exact isCode_placeholder hindent unbroken hmaterials hmaterial _ _ l hl

theorem isCode_arrayDeclarations {counter type : Line} (hcounter : Unbroken counter)
    (harray : Unbroken array) (htype : Unbroken type) (size : Nat) :
    ∀ l ∈ arrayDeclarations counter array type size, IsCode l := by
  have hconst : Unbroken ("const ".toList ++ counter ++ ": u32 = ".toList ++
      Decimal.digitsOf size ++ "u;".toList) := by
    have hname := (Unbroken.append (l := "const ".toList) (by decide) hcounter).append
      (m := ": u32 = ".toList) (by decide)
    exact (hname.append (unbroken_digitsOf size)).append (by decide)
  have hvar : Unbroken ("var<private> ".toList ++ array ++ ": array<".toList ++ type ++
      ", ".toList ++ Decimal.digitsOf (max size 1) ++ ">;".toList) := by
    have hname := (Unbroken.append (l := "var<private> ".toList) (by decide) harray).append
      (m := ": array<".toList) (by decide)
    have helement := (hname.append htype).append (m := ", ".toList) (by decide)
    exact (helement.append (unbroken_digitsOf _)).append (by decide)
  refine List.forall_mem_cons.2 ⟨?_, List.forall_mem_singleton.2 ?_⟩
  · exact isCode_of_start (c := 'c') .nil (by decide) (by decide) (by decide) hconst
  · exact isCode_of_start (c := 'v') .nil (by decide) (by decide) (by decide) hvar

theorem isCode_declarations (scene : Scene) : ∀ l ∈ declarations scene, IsCode l := by
  have hambient : Unbroken ("var<private> ambient_light: vec4<f32> = ".toList ++
      rowLiteral scene.ambient.row ++ [';']) :=
    (Unbroken.append (by decide) (unbroken_rowLiteral _)).append (by decide)
  intro l hl
  simp only [declarations, List.mem_append, List.mem_singleton] at hl
  rcases hl with ((hl | hl) | hl) | rfl
  · exact isCode_arrayDeclarations (by decide) (by decide) (by decide) _ l hl
  · exact isCode_arrayDeclarations (by decide) (by decide) (by decide) _ l hl
  · exact isCode_arrayDeclarations (by decide) (by decide) (by decide) _ l hl
  · exact isCode_of_start (c := 'v') .nil (by decide) (by decide) (by decide) hambient

/-- **Whatever the scene, the lines that are written in the place of a marker are code**, and all
other lines stay. -/
theorem injectLine_cases (scene : Scene) {line : Line} (unbroken : Unbroken line) :
    (IsSceneMarker line ∧ ∀ l ∈ injectLine scene line, IsCode l) ∨
      ((line.trim ≠ declarationsMarker ∧ line.trim ≠ constructorsMarker) ∧
        injectLine scene line = [line]) := by
  unfold injectLine
  split
  · rename_i htrim
    exact .inl ⟨isSceneMarker_of_trim (by decide) htrim, isCode_declarations scene⟩
  · rename_i hdeclarations
    split
    · rename_i htrim
      have hindent : Unbroken line.indent := unbroken.of_subset (List.takeWhile_sublist _).subset
      exact .inl ⟨isSceneMarker_of_trim (by decide) htrim,
        isCode_constructors scene (allBlank_indent line) hindent⟩
    · rename_i hconstructors
      exact .inr ⟨⟨hdeclarations, hconstructors⟩, rfl⟩

/-- No declaration of a function is a marker, so writing a scene declares none and hides none. -/
theorem filterMap_injectLine (scene : Scene) {line : Line} (unbroken : Unbroken line) :
    (injectLine scene line).filterMap declaredName? = [line].filterMap declaredName? := by
  rcases injectLine_cases scene unbroken with ⟨hmarker, hcode⟩ | ⟨-, hsame⟩
  · have hnone : declaredName? line = none := by
      refine declaredName?_eq_none fun hhead => ?_
      obtain ⟨rest, rfl⟩ := List.head?_eq_some_iff.1 hhead
      obtain ⟨after, hafter⟩ := hmarker
      have hstart : Line.trimStart ('f' :: rest) = 'f' :: rest :=
        Line.trimStart_append (a := []) .nil (by decide)
      rw [hstart] at hafter
      cases hafter
    have hall : (injectLine scene line).filterMap declaredName? = [] :=
      List.filterMap_eq_nil_iff.2 fun l hl => (hcode l hl).undeclared
    rw [hall, List.filterMap_cons_none hnone, List.filterMap_nil]
  · rw [hsame]

end Shader

end RayTracer
