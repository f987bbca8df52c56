import RayTracer.Proofs.Shader.Arrays
import RayTracer.Proofs.Shader.Structure
import RayTracer.Proofs.Unroll.LineEnds

/-!
# Writing a scene before or after unrolling

A scene is written into the unrolled text.  It might as well be written into the marked text, which
is then read and unrolled: the lines of a scene are ordinary lines, so they are read as regular
ones, and regular lines come first whatever stands between them.

* `Layout.inject` : the layout of a marked text after a scene has been written into it.
* `Layout.lines_inject`, `Layout.valid_inject` : its lines are those of the text with the scene, and
  they follow the grammar.
* `Layout.emit_inject` : it is unrolled to the lines of the unrolled text, with the scene in them.
* `Shader.inject_unroll` : **writing a scene and unrolling commute**, if no place of the scene is
  inside a marked function.

Each of the two passes splits its text into lines, so carriage returns are dropped between them and
not only before; this commutes with everything else that happens to a line
(`Shader.injectLine_dropReturn`, `renameCall_dropReturn`).
-/

namespace RayTracer

open Line (AllBlank IsWord)
open Layout
open Text (dropReturn)
open Scan (FindsCall)

/-- Blanks at the start of a line do not matter to the reader of directives. -/
theorem IsOrdinary.append {a l : Line} (h : IsOrdinary l) (ha : AllBlank a) :
    IsOrdinary (a ++ l) := by
  intro body hmarked
  refine h body (directiveBody?_eq_some_iff.1 ?_)
  rw [← directiveBody?_eq_some_iff.2 hmarked, directiveBody?, directiveBody?, Line.trimStart,
    Line.trimStart, List.dropWhile_append_of_pos ha]

namespace Shader

variable {c : Char} {l m indent : Line} {scene : Scene}

/-- The line is replaced when a scene is written into the text. -/
def IsScenePlace (l : Line) : Prop := l.trim = declarationsMarker ∨ l.trim = constructorsMarker

instance (l : Line) : Decidable (IsScenePlace l) := inferInstanceAs (Decidable (_ ∨ _))

theorem isScenePlace_dropReturn : IsScenePlace (dropReturn l) ↔ IsScenePlace l := by
  rw [IsScenePlace, IsScenePlace, Text.trim_dropReturn]

/-- What is trimmed off is blank. -/
theorem mem_trim (hc : isBlank c = false) (h : c ∈ l) : c ∈ l.trim := by
  have hstart : ∀ {l : Line}, c ∈ l → c ∈ l.dropWhile isBlank := by
    intro l h
    rw [← List.takeWhile_append_dropWhile (p := isBlank) (l := l)] at h
    rcases List.mem_append.1 h with h | h
    · have hblank := List.all_eq_true.1 List.all_takeWhile c h
      rw [hc] at hblank
      cases hblank
    · exact h
  exact List.mem_reverse.2 (hstart (List.mem_reverse.2 (hstart h)))

/-- Neither marker has a parenthesis. -/
theorem not_isScenePlace_of_parenthesis (h : '(' ∈ l) : ¬IsScenePlace l := by
  have hmem := mem_trim (by decide) h
  rintro (htrim | htrim)
  · exact absurd (htrim ▸ hmem) (by decide)
  · exact absurd (htrim ▸ hmem) (by decide)

theorem IsScenePlace.slash_mem (h : IsScenePlace l) : '/' ∈ l := by
  have hmem : '/' ∈ l.trim := by
    rcases h with htrim | htrim
    · exact htrim ▸ (by decide)
    · exact htrim ▸ (by decide)
  have hstart := List.dropWhile_subset _ (List.mem_reverse.1 hmem)
  exact List.dropWhile_subset _ (List.mem_reverse.1 hstart)

/-- The place of a scene is no directive. -/
theorem IsScenePlace.isOrdinary (h : IsScenePlace l) : IsOrdinary l := by
  have hmarker : IsSceneMarker l :=
    h.elim (isSceneMarker_of_trim (by decide)) (isSceneMarker_of_trim (by decide))
  obtain ⟨rest, hrest⟩ := hmarker
  have hbody : directiveBody? l = none := by
    rw [directiveBody?, ← hrest]
    rfl
  intro body hmarked
  rw [directiveBody?_eq_some_iff.2 hmarked] at hbody
  cases hbody

theorem not_isScenePlace_of_isDirective {kind : DirectiveKind} {name : Line}
    (h : IsDirective kind name l) : ¬IsScenePlace l := by
  obtain ⟨body, hmarked, -⟩ := h.exists_body
  exact fun hplace => hplace.isOrdinary body hmarked

theorem injectLine_of_not_isScenePlace (h : ¬IsScenePlace l) (scene : Scene) :
    injectLine scene l = [l] := by
  unfold injectLine
  rw [if_neg fun htrim => h (.inl htrim), if_neg fun htrim => h (.inr htrim)]

/-! ### The lines of a scene -/

/-- The indent stands before every assignment. -/
theorem constructors_eq_map (scene : Scene) (indent : Line) :
    constructors scene indent = (constructors scene []).map (indent ++ ·) := by
  have hassignment (array value : Line) (i : Nat) :
      assignment indent array i value = indent ++ assignment [] array i value := by
    unfold assignment
    simp only [List.append_assoc, List.nil_append]
  have hassignments {α : Type} [Packed α] (array : Line) (entities : List α) :
      assignments indent array entities = (assignments [] array entities).map (indent ++ ·) := by
    rw [assignments, assignments, List.map_map]
    exact List.map_congr_left fun _ _ => hassignment _ _ _
  have hplaceholder {α : Type} [Packed α] (array : Line) (rows : Nat) (entities : List α) :
      placeholder indent array rows entities =
        (placeholder [] array rows entities).map (indent ++ ·) := by
    unfold placeholder
    split
    · exact congrArg ([·]) (hassignment _ _ _)
    · rfl
  simp only [constructors, List.map_append, ← hassignments, ← hplaceholder]

theorem ne_nil_of_mem_constructors (h : l ∈ constructors scene indent) : l ≠ [] := by
  obtain ⟨array, -, i, value, rfl⟩ := exists_assignment h
  exact List.append_ne_nil_of_right_ne_nil _ (List.cons_ne_nil _ _)

theorem ne_nil_of_mem_declarations (h : l ∈ declarations scene) : l ≠ [] := by
  rintro rfl
  simp [declarations, arrayDeclarations] at h

/-- **A line of a scene is code behind blanks** of the line that it replaces. -/
theorem exists_code_of_mem_injectLine (h : IsScenePlace l) (hm : m ∈ injectLine scene l) :
    ∃ a code, m = a ++ code ∧ a ⊆ l ∧ AllBlank a ∧ IsCode code ∧ code ≠ [] := by
  unfold injectLine at hm
  split at hm
  · exact ⟨[], m, rfl, List.nil_subset l, .nil, isCode_declarations scene m hm,
      ne_nil_of_mem_declarations hm⟩
  · rename_i hdeclarations
    rw [if_pos (h.resolve_left hdeclarations), constructors_eq_map] at hm
    obtain ⟨code, hcode, rfl⟩ := List.mem_map.1 hm
    exact ⟨l.indent, code, rfl, (List.takeWhile_sublist _).subset, allBlank_indent l,
      isCode_constructors scene .nil (by decide) code hcode, ne_nil_of_mem_constructors hcode⟩

theorem isOrdinary_of_mem_injectLine (h : IsOrdinary l) (hm : m ∈ injectLine scene l) :
    IsOrdinary m := by
  by_cases hplace : IsScenePlace l
  · obtain ⟨a, code, rfl, -, ha, hcode, -⟩ := exists_code_of_mem_injectLine hplace hm
    exact (LineKind.of_eq_ordinary_iff.1 hcode.ordinary).append ha
  · rw [injectLine_of_not_isScenePlace hplace, List.mem_singleton] at hm
    exact hm ▸ h

theorem feed_notMem_of_mem_injectLine (h : '\n' ∉ l) (hm : m ∈ injectLine scene l) :
    '\n' ∉ m := by
  by_cases hplace : IsScenePlace l
  · obtain ⟨a, code, rfl, hsub, -, hcode, -⟩ := exists_code_of_mem_injectLine hplace hm
    exact fun hfeed => (List.mem_append.1 hfeed).elim (fun ha => h (hsub ha)) hcode.unbroken.1
  · rw [injectLine_of_not_isScenePlace hplace, List.mem_singleton] at hm
    exact hm ▸ h

/-- The lines of a scene end in no carriage return. -/
theorem dropReturn_of_mem_injectLine (h : IsScenePlace l) (hm : m ∈ injectLine scene l) :
    dropReturn m = m := by
  obtain ⟨a, code, rfl, -, -, hcode, hne⟩ := exists_code_of_mem_injectLine h hm
  refine if_neg fun hlast => ?_
  rw [List.getLast?_append_of_ne_nil _ hne] at hlast
  exact hcode.unbroken.2 (List.mem_of_getLast? hlast)

/-- **Writing a scene and dropping the carriage returns commute.** -/
theorem injectLine_dropReturn (scene : Scene) (l : Line) :
    injectLine scene (dropReturn l) = (injectLine scene l).map dropReturn := by
  by_cases h : IsScenePlace l
  · have hsame : (injectLine scene l).map dropReturn = (injectLine scene l).map id :=
      List.map_congr_left fun m hm => dropReturn_of_mem_injectLine h hm
    rw [hsame, List.map_id, injectLine, injectLine, Text.trim_dropReturn,
      Text.indent_dropReturn (by decide) h.slash_mem]
    rcases h with htrim | htrim
    · rw [if_pos htrim, if_pos htrim]
    · rw [htrim]
      rfl
  · rw [injectLine_of_not_isScenePlace h,
      injectLine_of_not_isScenePlace (mt isScenePlace_dropReturn.1 h)]
    rfl

end Shader

/-! ### The functions of a source -/

theorem parenthesis_mem_callPattern (name : Line) : '(' ∈ callPattern name :=
  List.mem_append_right name List.mem_cons_self

/-- A call has a parenthesis. -/
theorem parenthesis_mem_of_hasCall {l name : Line} (h : hasCall l name = true) : '(' ∈ l := by
  have hfind {previous : Option Char} {skip : Nat} {l : Line}
      (h : (findCallFrom (callPattern name) previous skip l).isSome = true) : '(' ∈ l := by
    fun_induction findCallFrom (callPattern name) previous skip l with
    | case1 => cases h
    | case2 _ c rest _ ih => exact List.mem_cons_of_mem c (ih (by simpa using h))
    | case3 _ c rest hpattern | case4 _ c rest hpattern =>
      exact (List.isPrefixOf_iff_prefix.1 hpattern).subset (parenthesis_mem_callPattern name)
    | case5 _ c rest _ ih => exact List.mem_cons_of_mem c (ih (by simpa using h))
  exact hfind h

theorem parenthesis_mem_renameCall {l name : Line} (h : '(' ∈ l) (target : Line) :
    '(' ∈ renameCall l name target := by
  unfold renameCall
  split
  · exact h
  · rename_i hne
    exact parenthesis_mem_renameFrom hne h

open Shader

namespace Layout

variable {f : Function} {scene : Scene}

/-- No unmarked line of the function is the place of a scene. -/
def Function.PlacesOutside (f : Function) : Prop :=
  ∀ e ∈ f.entries, ∀ l, e.text? = some l → ¬IsScenePlace l

theorem Function.kept_subset (f : Function) (isLast : Bool) : f.kept isLast ⊆ f.entries := by
  intro e he
  obtain ⟨p, hp, he⟩ := List.mem_flatMap.1 he
  refine List.mem_flatMap.2 ⟨p, hp, ?_⟩
  cases p with
  | entry e' => exact he
  | block b =>
    cases isLast with
    | true => cases he
    | false => exact he

theorem Function.parenthesis_mem_declaration (valid : f.Valid FindsCall) :
    '(' ∈ f.declaration :=
  valid.declaration.subset (List.mem_append_right _ (parenthesis_mem_callPattern f.name))

theorem Entry.not_isScenePlace {e : Entry} {inBlock : Bool} (valid : e.Valid FindsCall inBlock)
    (outside : ∀ l, e.text? = some l → ¬IsScenePlace l) : ∀ l ∈ e.lines, ¬IsScenePlace l := by
  cases e with
  | text l => exact List.forall_mem_singleton.2 (outside l rfl)
  | call marker kind callee l =>
    obtain ⟨hmarker, -, hcalls, -⟩ := valid
    exact List.forall_mem_cons.2 ⟨not_isScenePlace_of_isDirective hmarker,
      List.forall_mem_singleton.2
        (not_isScenePlace_of_parenthesis (parenthesis_mem_of_hasCall hcalls))⟩

/-- **No line of the function is the place of a scene.**  Directives, declarations and calls do not
look like one. -/
theorem Function.not_isScenePlace (valid : f.Valid FindsCall) (outside : f.PlacesOutside) :
    ∀ l ∈ f.lines, ¬IsScenePlace l := by
  have hdeclaration := parenthesis_mem_declaration valid
  obtain ⟨hmarker, -, hparts, hclosing⟩ := valid
  have hentry {p : Part} (hp : p ∈ f.parts) {e : Entry} (he : e ∈ p.entries) :=
    outside e (List.mem_flatMap.2 ⟨p, hp, he⟩)
  refine List.forall_mem_cons.2 ⟨not_isScenePlace_of_isDirective hmarker,
    List.forall_mem_cons.2 ⟨not_isScenePlace_of_parenthesis hdeclaration,
      List.forall_mem_append.2 ⟨fun l hl => ?_, List.forall_mem_singleton.2
        (not_isScenePlace_of_isDirective hclosing)⟩⟩⟩
  obtain ⟨p, hp, hl⟩ := List.mem_flatMap.1 hl
  have hpart := hparts p hp
  cases p with
  | entry e => exact e.not_isScenePlace hpart (hentry hp List.mem_cons_self) l hl
  | block b =>
    rcases List.mem_cons.1 hl with rfl | hl
    · exact not_isScenePlace_of_isDirective hpart.opening
    rcases List.mem_append.1 hl with hl | hl
    · obtain ⟨e, he, hl⟩ := List.mem_flatMap.1 hl
      exact e.not_isScenePlace (hpart.entries e he) (hentry hp he) l hl
    · rw [List.mem_singleton.1 hl]
      exact not_isScenePlace_of_isDirective hpart.closing

/-- **Nothing that is written for the function is the place of a scene.** -/
theorem Function.not_isScenePlace_emit (valid : f.Valid FindsCall) (outside : f.PlacesOutside)
    (level : Nat) (isLast : Bool) :
    ∀ l ∈ (f.written level isLast).map Written.emit, ¬IsScenePlace l := by
  have hempty : ¬IsScenePlace [] := by decide
  refine List.forall_mem_cons.2 ⟨hempty, List.forall_mem_cons.2
    ⟨not_isScenePlace_of_parenthesis
      (parenthesis_mem_renameCall (parenthesis_mem_declaration valid) _),
      List.forall_mem_map.2 (List.forall_mem_map.2 fun e he => ?_)⟩⟩
  obtain ⟨⟨inBlock, hvalid⟩, -⟩ := f.exists_of_mem_kept valid he
  cases e with
  | text l => exact outside _ (f.kept_subset isLast he) l rfl
  | call marker kind callee l =>
    obtain ⟨-, -, hcalls, -⟩ := hvalid
    exact not_isScenePlace_of_parenthesis
      (parenthesis_mem_renameCall (parenthesis_mem_of_hasCall hcalls) _)

/-! ### Writing a scene into a layout -/

/-- A part of a text after a scene has been written into it. -/
def Piece.inject (scene : Scene) : Piece → Layout
  | regular l => ((injectLine scene l).map dropReturn).map .regular
  | function f => [.function (f.mapLines dropReturn)]

/-- The layout of the text after a scene has been written into it. -/
def inject (scene : Scene) (d : Layout) : Layout := d.flatMap (Piece.inject scene)

/-- No unmarked line of a marked function is the place of a scene. -/
def PlacesOutside (d : Layout) : Prop := ∀ f ∈ d.functions, f.PlacesOutside

variable {d : Layout} {l : Line}

theorem flatMap_injectLine {ls : List Line} (h : ∀ l ∈ ls, ¬IsScenePlace l) (scene : Scene) :
    ls.flatMap (injectLine scene) = ls := by
  have hsame : ∀ l ∈ ls, injectLine scene l = [l] := fun l hl =>
    injectLine_of_not_isScenePlace (h l hl) scene
  rw [List.flatMap_congr hsame, List.flatMap_singleton']

theorem mem_functions {f : Function} : f ∈ d.functions ↔ .function f ∈ d := by
  rw [functions, List.mem_filterMap]
  constructor
  · rintro ⟨p, hp, hf⟩
    cases p with
    | regular l => cases hf
    | function g => exact Option.some.inj hf ▸ hp
  · exact fun hf => ⟨_, hf, rfl⟩

/-- **The lines of the layout** are those of the text into which a scene has been written. -/
theorem lines_inject (valid : d.Valid FindsCall) (outside : d.PlacesOutside) (scene : Scene) :
    (d.inject scene).lines = (d.lines.flatMap (injectLine scene)).map dropReturn := by
  rw [lines, inject, lines, List.flatMap_assoc, List.flatMap_assoc, List.map_flatMap]
  refine List.flatMap_congr fun p hp => ?_
  cases p with
  | regular l =>
    rw [Piece.inject, List.flatMap_map, Piece.lines, List.flatMap_singleton]
    exact List.flatMap_singleton' _
  | function f =>
    have hmarkers := f.not_isScenePlace (valid.pieces _ hp) (outside f (mem_functions.2 hp))
    rw [Piece.inject, List.flatMap_singleton, Piece.lines, Function.lines_mapLines, Piece.lines,
      flatMap_injectLine hmarkers]

theorem functions_inject (scene : Scene) (d : Layout) :
    (d.inject scene).functions = d.functions.map (Function.mapLines dropReturn) := by
  rw [functions, inject, List.filterMap_flatMap, functions, List.map_filterMap,
    List.filterMap_eq_flatMap_toList]
  refine List.flatMap_congr fun p _ => ?_
  cases p with
  | regular l =>
    exact List.filterMap_eq_nil_iff.2 (List.forall_mem_map.2 fun _ _ => rfl)
  | function f => rfl

theorem regular_inject (scene : Scene) (d : Layout) :
    (d.inject scene).regular = (d.regular.flatMap (injectLine scene)).map dropReturn := by
  rw [regular, inject, List.filterMap_flatMap, regular, List.filterMap_eq_flatMap_toList,
    List.flatMap_assoc, List.map_flatMap]
  refine List.flatMap_congr fun p _ => ?_
  cases p with
  | regular l =>
    rw [Piece.inject, List.filterMap_map, Piece.regular?, Option.toList_some,
      List.flatMap_singleton]
    exact List.filterMap_some
  | function f => rfl

theorem names_inject (scene : Scene) (d : Layout) : (d.inject scene).names = d.names := by
  rw [names, names, functions_inject, List.map_map]
  rfl

theorem entries_inject (scene : Scene) (d : Layout) :
    (d.inject scene).entries = d.entries.map (Entry.mapLines dropReturn) := by
  rw [entries, entries, functions_inject, List.flatMap_map, List.map_flatMap]
  exact List.flatMap_congr fun f _ => f.entries_mapLines dropReturn

theorem pieces_inject (valid : ∀ p ∈ d, p.Valid FindsCall) (scene : Scene) :
    ∀ p ∈ d.inject scene, p.Valid FindsCall := by
  intro q hq
  obtain ⟨p, hp, hq⟩ := List.mem_flatMap.1 hq
  have hvalid := valid p hp
  cases p with
  | regular l =>
    obtain ⟨m', hm', rfl⟩ := List.mem_map.1 hq
    obtain ⟨m, hm, rfl⟩ := List.mem_map.1 hm'
    exact (isOrdinary_of_mem_injectLine hvalid hm).dropReturn
  | function f =>
    rw [List.mem_singleton.1 hq]
    exact Function.valid_dropReturn hvalid

/-- **The text is accepted** with the scene in it. -/
theorem valid_inject (valid : d.Valid FindsCall) (scene : Scene) :
    (d.inject scene).Valid FindsCall where
  pieces := pieces_inject valid.pieces scene
  names := by
    rw [names_inject]
    exact valid.names
  callees e he callee hcallee := by
    rw [entries_inject] at he
    obtain ⟨e', he', rfl⟩ := List.mem_map.1 he
    rw [names_inject]
    cases e' with
    | text l => cases hcallee
    | call marker kind callee' l => exact valid.callees _ he' callee hcallee
  unmarked e he l hl name hname := by
    rw [entries_inject] at he
    obtain ⟨e', he', rfl⟩ := List.mem_map.1 he
    rw [names_inject] at hname
    obtain ⟨_, _, _, hdirective⟩ := exists_directive_of_mem_names valid.pieces hname
    cases e' with
    | call marker kind callee l' => cases hl
    | text l' =>
      obtain rfl := Option.some.inj hl
      rw [FindsCall, hasCall_before_dropReturn hdirective.1]
      exact valid.unmarked _ he' l' rfl name hname

/-- **It is unrolled to the same lines** as before, with the scene in them. -/
theorem emit_inject (valid : d.Valid FindsCall) (outside : d.PlacesOutside) (scene : Scene)
    (depth : Nat) : ((d.inject scene).written depth).map Written.emit =
      (((d.written depth).map Written.emit).map dropReturn).flatMap (injectLine scene) := by
  have hregular (ls : List Line) : (ls.map Written.same).map Written.emit = ls := by
    rw [List.map_map]
    exact List.map_id ls
  have hlines (ls : List Line) : (ls.map dropReturn).flatMap (injectLine scene) =
      (ls.flatMap (injectLine scene)).map dropReturn := by
    rw [List.flatMap_map, List.map_flatMap]
    exact List.flatMap_congr fun l _ => injectLine_dropReturn scene l
  have hcopies (level : Nat) (isLast : Bool) :
      ((d.inject scene).functions.flatMap fun f => (f.written level isLast).map Written.emit) =
        d.functions.flatMap fun f => (((f.written level isLast).map Written.emit).flatMap
          (injectLine scene)).map dropReturn := by
    rw [functions_inject, List.flatMap_map]
    refine List.flatMap_congr fun f hf => ?_
    have hvalid := valid.pieces _ (mem_functions.1 hf)
    rw [Function.emit_dropReturn hvalid,
      flatMap_injectLine (f.not_isScenePlace_emit hvalid (outside f hf) level isLast)]
  rw [hlines, written, written, regular_inject]
  simp only [List.map_append, List.map_flatMap, List.flatMap_append, List.flatMap_assoc, hregular,
    hcopies]

/-- The lines of the unrolled source are regular lines and lines of copies. -/
theorem mem_emit {depth : Nat} (h : l ∈ (d.written depth).map Written.emit) : l ∈ d.regular ∨
    ∃ f ∈ d.functions, ∃ level isLast, l ∈ (f.written level isLast).map Written.emit := by
  obtain ⟨w, hw, rfl⟩ := List.mem_map.1 h
  rcases List.mem_append.1 hw with hw | hw
  · obtain ⟨l, hl, rfl⟩ := List.mem_map.1 hw
    exact .inl hl
  · obtain ⟨level, -, hw⟩ := List.mem_flatMap.1 hw
    obtain ⟨f, hf, hw⟩ := List.mem_flatMap.1 hw
    exact .inr ⟨f, hf, level, _, List.mem_map.2 ⟨w, hw, rfl⟩⟩

theorem mem_regular : l ∈ d.regular ↔ .regular l ∈ d := by
  rw [regular, List.mem_filterMap]
  constructor
  · rintro ⟨p, hp, hl⟩
    cases p with
    | regular m => exact Option.some.inj hl ▸ hp
    | function f => cases hl
  · exact fun hl => ⟨_, hl, rfl⟩

/-- **Unrolling keeps the places of the scene**: they are regular lines of the text. -/
theorem place_mem_emit_iff (valid : d.Valid FindsCall) (outside : d.PlacesOutside) (depth : Nat)
    (hplace : IsScenePlace l) : l ∈ (d.written depth).map Written.emit ↔ l ∈ d.lines := by
  constructor
  · intro h
    rcases mem_emit h with h | ⟨f, hf, level, isLast, h⟩
    · exact List.mem_flatMap.2 ⟨_, mem_regular.1 h, List.mem_cons_self⟩
    · have hvalid := valid.pieces _ (mem_functions.1 hf)
      exact absurd hplace (f.not_isScenePlace_emit hvalid (outside f hf) level isLast l h)
  · intro h
    obtain ⟨p, hp, hl⟩ := List.mem_flatMap.1 h
    cases p with
    | regular m =>
      obtain rfl := List.mem_singleton.1 hl
      have hsame : Written.same l ∈ d.written depth :=
        List.mem_append_left _ (List.mem_map.2 ⟨l, mem_regular.2 hp, rfl⟩)
      exact List.mem_map.2 ⟨_, hsame, rfl⟩
    | function f =>
      have hvalid := valid.pieces _ hp
      exact absurd hplace (f.not_isScenePlace hvalid (outside f (mem_functions.2 hp)) l hl)

/-- The text that is unrolled has both markers if and only if the source has. -/
theorem hasMarkers_emit_iff (valid : d.Valid FindsCall) (outside : d.PlacesOutside) (depth : Nat) :
    HasMarkers (((d.written depth).map Written.emit).map dropReturn) ↔ HasMarkers d.lines := by
  have hmarker {marker : Line} (hplace : ∀ l : Line, l.trim = marker → IsScenePlace l) :
      (∃ l ∈ ((d.written depth).map Written.emit).map dropReturn, l.trim = marker) ↔
        ∃ l ∈ d.lines, l.trim = marker := by
    constructor
    · rintro ⟨l, hl, htrim⟩
      obtain ⟨m, hm, rfl⟩ := List.mem_map.1 hl
      rw [Text.trim_dropReturn] at htrim
      exact ⟨m, (place_mem_emit_iff valid outside depth (hplace m htrim)).1 hm, htrim⟩
    · rintro ⟨l, hl, htrim⟩
      have hemit := (place_mem_emit_iff valid outside depth (hplace l htrim)).2 hl
      exact ⟨dropReturn l, List.mem_map.2 ⟨l, hemit, rfl⟩, by rwa [Text.trim_dropReturn]⟩
  exact and_congr (hmarker fun _ => .inl) (hmarker fun _ => .inr)

end Layout

/-- The line, if it is no marked call. -/
def Statement.text? : Statement → Option Line
  | text l => some l
  | call _ => none

/-- The unmarked lines of the functions that are read. -/
theorem Layout.texts_read (d : Layout) : (d.read.functions.flatMap fun f =>
    f.statements.filterMap Statement.text?) = d.entries.filterMap Entry.text? := by
  have hentry : ∀ n (e : Entry), (e.read n).flatMap (fun s => s.text?.toList) = e.text?.toList := by
    intro n e
    cases e <;> rfl
  have hfunction : ∀ n (f : Function),
      (f.read n).statements.filterMap Statement.text? = f.entries.filterMap Entry.text? := by
    intro n f
    rw [List.filterMap_eq_flatMap_toList, List.filterMap_eq_flatMap_toList,
      ← MarkedFunction.kept_false, ← Function.kept_false]
    exact flatMap_kept_read hentry false n f
  rw [entries, List.filterMap_flatMap]
  exact flatMap_functions_read hfunction d

/-- No unmarked line of a marked function is the place of a scene.  The other lines of the function
are directives, a declaration and calls, which never look like one. -/
def MarkedSource.PlacesOutside (source : MarkedSource) : Prop :=
  ∀ f ∈ source.functions, ∀ l ∈ f.statements.filterMap Statement.text?, ¬IsScenePlace l

instance (source : MarkedSource) : Decidable source.PlacesOutside :=
  inferInstanceAs (Decidable (∀ f ∈ source.functions, _))

theorem MarkedSource.PlacesOutside.layout {d : Layout} (h : d.read.PlacesOutside) :
    d.PlacesOutside := by
  intro f hf e he l hl
  have hmem : l ∈ d.entries.filterMap Entry.text? :=
    List.mem_filterMap.2 ⟨e, List.mem_flatMap.2 ⟨f, hf, he⟩, hl⟩
  rw [← Layout.texts_read] at hmem
  obtain ⟨g, hg, hmem⟩ := List.mem_flatMap.1 hmem
  exact h g hg l hmem

namespace Shader

/-- **Writing a scene into a text commutes with unrolling the text**, if the places of the scene are
outside the marked functions.  A scene can be written into the unrolled text if and only if the text
has both places; and then the scene can be written into the text itself, which is accepted again and
unrolled to the same. -/
theorem inject_unroll {template : List Char} {source : MarkedSource}
    (accepted : MarkedSource.parse template = .ok source) (outside : source.PlacesOutside)
    {depth : UInt32} (positive : depth ≠ 0) (scene : Scene) :
    ((∃ text, (source.unroll depth >>= inject scene) = .ok text) ↔
      HasMarkers (Text.lines template)) ∧
    ∀ text, (source.unroll depth >>= inject scene) = .ok text →
      ∃ injected source', inject scene template = .ok injected ∧
        MarkedSource.parse injected = .ok source' ∧ source'.unroll depth = .ok text := by
  obtain ⟨d, hlines, valid, rfl⟩ := MarkedSource.parse_eq_ok_iff.1 accepted
  have feeds : ∀ l ∈ d.lines, '\n' ∉ l := fun l hl =>
    Text.feed_not_mem_of_mem_lines (hlines ▸ hl)
  have hunroll (d : Layout) : d.read.unroll depth =
      .ok (Text.unlines ((d.written depth.toNat).map Written.emit)) := by
    rw [MarkedSource.unroll, if_neg positive, emit_read]
  have hunrolled : Text.lines (Text.unlines ((d.written depth.toNat).map Written.emit)) =
      ((d.written depth.toNat).map Written.emit).map dropReturn :=
    Text.lines_unlines_map
      (List.forall_mem_map.2 fun w hw => feed_not_mem_emit valid.pieces feeds hw)
  have hok (text : List Char) : (d.read.unroll depth >>= inject scene) = .ok text ↔
      HasMarkers (Text.lines template) ∧
        text = Text.unlines (((d.inject scene).written depth.toNat).map Written.emit) := by
    rw [hunroll, emit_inject valid outside.layout, ← hlines,
      ← hasMarkers_emit_iff valid outside.layout depth.toNat, ← hunrolled]
    exact inject_eq_ok_iff
  refine ⟨⟨?_, fun hmarkers => ⟨_, (hok _).2 ⟨hmarkers, rfl⟩⟩⟩, fun text h => ?_⟩
  · rintro ⟨text, h⟩
    exact ((hok text).1 h).1
  obtain ⟨hmarkers, rfl⟩ := (hok text).1 h
  refine ⟨_, (d.inject scene).read, inject_eq_ok_iff.2 ⟨hmarkers, rfl⟩, ?_, hunroll _⟩
  refine MarkedSource.parse_eq_ok_iff.2 ⟨d.inject scene, ?_, valid_inject valid scene, rfl⟩
  have hinjected : ∀ l ∈ (Text.lines template).flatMap (injectLine scene), '\n' ∉ l := by
    intro l hl
    obtain ⟨m, hm, hl⟩ := List.mem_flatMap.1 hl
    exact feed_notMem_of_mem_injectLine (Text.feed_not_mem_of_mem_lines hm) hl
  rw [lines_inject valid outside.layout, hlines, Text.lines_unlines_map hinjected]

/-- A function that calls itself, and the places of a scene before and behind it.  Lines end in
carriage returns, one of them in two, and the last one is not ended. -/
def placedText : List Char :=
  ("// scene:declarations \r\n// rec:func t\r\nfn t(x)\r\n// rec:if b\r\n// rec:rec-call t\r\n" ++
    "1+t(x)\r\r\n// rec:endif b\r\n// rec:endfunc t\r\n\t// scene:constructors\r").toList

theorem inject_unroll_placedText : ∃ source text, MarkedSource.parse placedText = .ok source ∧
    source.PlacesOutside ∧ (2 : UInt32) ≠ 0 ∧ (source.unroll 2 >>= inject needle) = .ok text ∧
      ∃ injected source', inject needle placedText = .ok injected ∧
        MarkedSource.parse injected = .ok source' ∧ source'.unroll 2 = .ok text := by
  have check : (MarkedSource.parse placedText).toOption.any (decide ·.PlacesOutside) = true := by
    decide +kernel
  cases accepted : MarkedSource.parse placedText with
  | error e =>
    rw [accepted] at check
    cases check
  | ok source =>
    rw [accepted] at check
    have outside : source.PlacesOutside := of_decide_eq_true check
    have positive : (2 : UInt32) ≠ 0 := by decide
    have hmarkers : HasMarkers (Text.lines placedText) := by decide +kernel
    have commutes := inject_unroll accepted outside positive needle
    obtain ⟨text, htext⟩ := commutes.1.2 hmarkers
    exact ⟨source, text, rfl, outside, positive, htext, commutes.2 text htext⟩

end Shader

end RayTracer
