import RayTracer.Proofs.Description.Accepted
import RayTracer.Proofs.Shader.Code
import RayTracer.Proofs.Shader.Template
import RayTracer.Proofs.Unroll.Meaning

/-!
# The functions of a shader

The shader of a scene declares the functions of the template and, on every level, a copy of each of
the three marked ones.  Neither the scene nor the copies bring in anything else: no function, no
directive and no place for a scene (`WellStructured`).

* `Shader.build_wellStructured` : **every scene with a level has such a shader**, so every scene
  that is accepted has one, whatever bound on the levels it gets.

What the template is like (`MarkedSource.IsShaped`) is checked by the kernel; the rest follows for
every source of that shape, one lemma for each kind of line.
-/

namespace RayTracer

open CompiledShader (declaredName?)

namespace Shader

/-- The functions of the template that are not marked, in the order of their declarations. -/
def regularFunctions : List Line :=
  ["load_scene".toList, "in_range".toList, "hit_sphere".toList, "hit_plane".toList,
    "within_height".toList, "hit_cone".toList, "hit_cylinder".toList, "hit_primitive".toList,
    "intersect_scene".toList, "primitive_normal".toList, "surface_color".toList,
    "known_surface".toList, "local_color".toList, "primary_direction".toList,
    CompiledShader.entryPoint]

/-- The functions of the recursive group. -/
def markedFunctions : List Line := ["trace".toList, "shade".toList, "reflection".toList]

/-- The functions of a shader with `depth` levels. -/
def functionNames (depth : Nat) : List Line :=
  regularFunctions ++ (List.range depth).flatMap fun level =>
    markedFunctions.map (specializedName · level)

/-- The names that the lines of a text declare. -/
def declaredFunctions (text : List Char) : List Line := (Text.lines text).filterMap declaredName?

/-- The text declares the functions of a shader with `depth` levels, each once, and holds no
directive and no scene marker. -/
structure WellStructured (depth : Nat) (text : List Char) : Prop where
  declared : declaredFunctions text = functionNames depth
  distinct : (declaredFunctions text).Nodup
  levels : ∀ name ∈ markedFunctions, ∀ level,
    specializedName name level ∈ declaredFunctions text ↔ level < depth
  ordinary : ∀ l ∈ Text.lines text, LineKind.of l = .ordinary
  unmarked : ∀ l ∈ Text.lines text, ¬IsSceneMarker l

/-! ### The names -/

theorem unnumbered_functions : ∀ name ∈ regularFunctions ++ markedFunctions, Unnumbered name := by
  decide

theorem nodup_functions : (regularFunctions ++ markedFunctions).Nodup := by decide

variable {name other : Line} {depth : Nat}

theorem mem_functionNames : name ∈ functionNames depth ↔
    name ∈ regularFunctions ∨
      ∃ level < depth, ∃ marked ∈ markedFunctions, specializedName marked level = name := by
  simp only [functionNames, List.mem_append, List.mem_flatMap, List.mem_range, List.mem_map]

/-- Two functions of the template have no copies of the same name. -/
theorem eq_of_specializedName (h : name ∈ regularFunctions ++ markedFunctions)
    (hother : other ∈ regularFunctions ++ markedFunctions) {i j : Nat}
    (heq : specializedName name i = specializedName other j) : name = other ∧ i = j :=
  (unnumbered_functions name h).eq_of_specializedName (unnumbered_functions other hother) heq

theorem specializedName_notMem_regularFunctions (hname : name ∈ markedFunctions) (level : Nat) :
    specializedName name level ∉ regularFunctions := by
  intro hregular
  have heq : specializedName name level = specializedName (specializedName name level) 0 := rfl
  obtain ⟨hsame, -⟩ := eq_of_specializedName (List.mem_append_right _ hname)
    (List.mem_append_left _ hregular) heq
  rw [← hsame] at hregular
  exact List.disjoint_of_nodup_append nodup_functions hregular hname

theorem specializedName_mem_functionNames (hname : name ∈ markedFunctions) (level : Nat) :
    specializedName name level ∈ functionNames depth ↔ level < depth := by
  rw [mem_functionNames]
  constructor
  · rintro (hregular | ⟨level', hlevel, marked, hmarked, heq⟩)
    · exact absurd hregular (specializedName_notMem_regularFunctions hname level)
    · obtain ⟨-, rfl⟩ := eq_of_specializedName (List.mem_append_right _ hmarked)
        (List.mem_append_right _ hname) heq
      exact hlevel
  · intro hlevel
    exact .inr ⟨level, hlevel, name, hname, rfl⟩

theorem WellStructured.entryPoint_mem {text : List Char} (h : WellStructured depth text) :
    CompiledShader.entryPoint ∈ declaredFunctions text := by
  rw [h.declared]
  exact List.mem_append_left _ (by decide)

theorem nodup_functionNames (depth : Nat) : (functionNames depth).Nodup := by
  obtain ⟨hregular, hmarked, -⟩ := List.nodup_append.1 nodup_functions
  refine List.Nodup.append hregular (List.nodup_flatMap.2 ⟨fun level _ => ?_, ?_⟩) ?_
  · refine hmarked.map_on fun a ha b hb heq => ?_
    exact (eq_of_specializedName (List.mem_append_right _ ha) (List.mem_append_right _ hb) heq).1
  · refine List.nodup_range.imp fun hne => ?_
    intro copy hi hj
    obtain ⟨a, ha, rfl⟩ := List.mem_map.1 hi
    obtain ⟨b, hb, heq⟩ := List.mem_map.1 hj
    exact hne (eq_of_specializedName (List.mem_append_right _ ha) (List.mem_append_right _ hb)
      heq.symm).2
  · intro name hname hcopy
    obtain ⟨level, -, hcopy⟩ := List.mem_flatMap.1 hcopy
    obtain ⟨marked, hmarked, rfl⟩ := List.mem_map.1 hcopy
    exact specializedName_notMem_regularFunctions hmarked level hname

/-! ### The shape of the template -/

/-- A line outside the marked functions: it is the place of a scene if it looks like one. -/
structure IsRegularLine (l : Line) : Prop where
  unbroken : Unbroken l
  ordinary : LineKind.of l = .ordinary
  marker : IsSceneMarker l → l.trim = declarationsMarker ∨ l.trim = constructorsMarker

instance (l : Line) : Decidable (IsRegularLine l) :=
  decidable_of_iff (Unbroken l ∧ LineKind.of l = .ordinary ∧
      (IsSceneMarker l → l.trim = declarationsMarker ∨ l.trim = constructorsMarker))
    ⟨fun h => ⟨h.1, h.2.1, h.2.2⟩, fun h => ⟨h.unbroken, h.ordinary, h.marker⟩⟩

end Shader

open Shader

/-- The line is code in every copy. -/
def Statement.IsShaped : Statement → Prop
  | text l => IsCode l
  | call site => IsIndented site.text ∧ IsIdentifier site.callee

instance (s : Statement) : Decidable s.IsShaped :=
  match s with
  | .text l => inferInstanceAs (Decidable (IsCode l))
  | .call _ => inferInstanceAs (Decidable (_ ∧ _))

/-- The declaration starts with the name, and the body is code. -/
structure MarkedFunction.IsShaped (f : MarkedFunction) : Prop where
  name : IsIdentifier f.name
  declaration : "fn ".toList ++ callPattern f.name <+: f.declaration
  unbroken : Unbroken f.declaration
  statements : ∀ s ∈ f.statements, s.IsShaped

instance (f : MarkedFunction) : Decidable f.IsShaped :=
  decidable_of_iff (IsIdentifier f.name ∧
      ("fn ".toList ++ callPattern f.name).isPrefixOf f.declaration = true ∧
      Unbroken f.declaration ∧ ∀ s ∈ f.statements, s.IsShaped)
    ⟨fun h => ⟨h.1, List.isPrefixOf_iff_prefix.1 h.2.1, h.2.2.1, h.2.2.2⟩,
      fun h => ⟨h.name, List.isPrefixOf_iff_prefix.2 h.declaration, h.unbroken, h.statements⟩⟩

/-- The source declares the functions of the template, and is code apart from the places of the
scene. -/
structure MarkedSource.IsShaped (source : MarkedSource) : Prop where
  regular : ∀ l ∈ source.regular, IsRegularLine l
  declared : source.regular.filterMap declaredName? = regularFunctions
  functions : ∀ f ∈ source.functions, f.IsShaped
  names : source.functions.map (·.name) = markedFunctions

instance (source : MarkedSource) : Decidable source.IsShaped :=
  decidable_of_iff ((∀ l ∈ source.regular, IsRegularLine l) ∧
      source.regular.filterMap declaredName? = regularFunctions ∧
      (∀ f ∈ source.functions, f.IsShaped) ∧ source.functions.map (·.name) = markedFunctions)
    ⟨fun h => ⟨h.1, h.2.1, h.2.2.1, h.2.2.2⟩,
      fun h => ⟨h.regular, h.declared, h.functions, h.names⟩⟩

/-! ### What is written for a source of that shape -/

theorem Unbroken.isPlain {l : Line} (h : Unbroken l) : Text.IsPlain l :=
  ⟨h.1, fun hlast => h.2 (List.mem_of_getLast? hlast)⟩

theorem IsQuiet.isRegularLine {l : Line} (h : IsQuiet l) : IsRegularLine l :=
  ⟨h.unbroken, h.ordinary, fun hmarker => absurd hmarker h.unmarked⟩

theorem Statement.IsShaped.isCode_copy {s : Statement} (h : s.IsShaped) (level : Nat) :
    IsCode (s.copy level).emit := by
  cases s with
  | text l => exact h
  | call site => exact h.1.renameCall h.2 (isIdentifier_specializedName h.2 _)

namespace MarkedFunction.IsShaped

variable {f : MarkedFunction} (h : f.IsShaped) (level : Nat) (isLast : Bool)

include h

/-- The declaration of a copy declares the copy. -/
theorem declaration_copy : IsQuiet (f.copy level isLast).declaration ∧
    declaredName? (f.copy level isLast).declaration = some (specializedName f.name level) := by
  have htarget := isIdentifier_specializedName h.name level
  obtain ⟨rest, hrest⟩ := h.declaration
  have hdeclaration : f.declaration = "fn ".toList ++ (f.name ++ '(' :: rest) := by
    simp [← hrest, callPattern]
  obtain ⟨rest', hcopy⟩ := renameCall_declaration h.name rest (specializedName f.name level)
  have unbroken := unbroken_renameCall h.unbroken htarget.unbroken f.name
  rw [hdeclaration, hcopy] at unbroken
  simp only [MarkedFunction.copy, hdeclaration, hcopy]
  refine ⟨?_, declaredName?_declaration htarget.parenthesis_not_mem rest'⟩
  exact isQuiet_of_start (a := []) (c := 'f') .nil (by decide) (by decide) unbroken

theorem isCode_body : ∀ l ∈ (f.copy level isLast).body.map CopyLine.emit, IsCode l := by
  intro l hl
  obtain ⟨line, hline, rfl⟩ := List.mem_map.1 hl
  obtain ⟨s, hs, rfl⟩ := List.mem_map.1 hline
  exact (h.statements s (mem_statements_of_mem_kept hs)).isCode_copy level

theorem isQuiet_emit : ∀ l ∈ (f.copy level isLast).emit, IsQuiet l := by
  refine List.forall_mem_cons.2 ⟨by decide, List.forall_mem_cons.2 ⟨?_, fun l hl => ?_⟩⟩
  · exact (h.declaration_copy level isLast).1
  · exact (h.isCode_body level isLast l hl).toIsQuiet

/-- A copy declares one function. -/
theorem filterMap_emit :
    (f.copy level isLast).emit.filterMap declaredName? = [specializedName f.name level] := by
  have hempty : declaredName? [] = none := rfl
  have hbody : ((f.copy level isLast).body.map CopyLine.emit).filterMap declaredName? = [] :=
    List.filterMap_eq_nil_iff.2 fun l hl => (h.isCode_body level isLast l hl).undeclared
  rw [Copy.emit, List.filterMap_cons_none hempty,
    List.filterMap_cons_some (h.declaration_copy level isLast).2, hbody]

end MarkedFunction.IsShaped

namespace MarkedSource.IsShaped

variable {source : MarkedSource} (h : source.IsShaped) (depth : Nat)

include h

theorem isRegularLine_emit : ∀ l ∈ source.emit depth, IsRegularLine l := by
  intro l hl
  rcases List.mem_append.1 hl with hl | hl
  · exact h.regular l hl
  · obtain ⟨copy, hcopy, hl⟩ := List.mem_flatMap.1 hl
    obtain ⟨level, -, hcopy⟩ := List.mem_flatMap.1 hcopy
    obtain ⟨f, hf, rfl⟩ := List.mem_map.1 hcopy
    exact ((h.functions f hf).isQuiet_emit level _ l hl).isRegularLine

/-- An unrolled source declares the copies of the marked functions after all others. -/
theorem filterMap_emit : (source.emit depth).filterMap declaredName? = functionNames depth := by
  have hlevel : ∀ level, ((source.copiesOn depth level).flatMap Copy.emit).filterMap declaredName? =
      markedFunctions.map (specializedName · level) := by
    intro level
    rw [copiesOn, List.flatMap_map, List.filterMap_flatMap, ← h.names, List.map_map,
      List.map_eq_flatMap]
    exact List.flatMap_congr fun f hf => (h.functions f hf).filterMap_emit level _
  rw [emit, copies, List.filterMap_append, h.declared, functionNames, List.flatMap_assoc,
    List.filterMap_flatMap]
  exact congrArg (regularFunctions ++ (List.range depth).flatMap ·) (funext hlevel)

end MarkedSource.IsShaped

namespace Shader

variable {scene : Scene} {text : List Char}

/-- Where a scene has been written there is no place for a scene left. -/
theorem IsRegularLine.isQuiet_injectLine {line : Line} (h : IsRegularLine line) (scene : Scene) :
    ∀ l ∈ injectLine scene line, IsQuiet l := by
  rcases injectLine_cases scene h.unbroken with ⟨-, hcode⟩ | ⟨⟨hdeclarations, hconstructors⟩, hsame⟩
  · exact fun l hl => (hcode l hl).toIsQuiet
  · rw [hsame, List.forall_mem_singleton]
    refine ⟨h.unbroken, h.ordinary, fun hmarker => ?_⟩
    exact (h.marker hmarker).elim hdeclarations hconstructors

theorem isQuiet_injectLine_emit {source : MarkedSource} (shaped : source.IsShaped) (scene : Scene)
    (depth : Nat) : ∀ l ∈ (source.emit depth).flatMap (injectLine scene), IsQuiet l := by
  intro l hl
  obtain ⟨line, hline, hl⟩ := List.mem_flatMap.1 hl
  exact (shaped.isRegularLine_emit depth line hline).isQuiet_injectLine scene l hl

/-- The lines of what is built are those that the lines of the unrolled source are replaced by. -/
theorem lines_of_inject {source : MarkedSource} (shaped : source.IsShaped)
    (h : inject scene (Text.unlines (source.emit depth)) = .ok text) :
    Text.lines text = (source.emit depth).flatMap (injectLine scene) := by
  have hregular := shaped.isRegularLine_emit depth
  have hquiet := isQuiet_injectLine_emit shaped scene depth
  have hresult := (inject_eq_ok_iff.1 h).2
  rw [hresult, Text.lines_unlines fun l hl => (hregular l hl).unbroken.isPlain,
    Text.lines_unlines fun l hl => (hquiet l hl).unbroken.isPlain]

/-- **What is built from a source of the shape of the template has the structure of a shader.** -/
theorem wellStructured_of_inject {source : MarkedSource} (shaped : source.IsShaped)
    (h : inject scene (Text.unlines (source.emit depth)) = .ok text) :
    WellStructured depth text := by
  have hregular := shaped.isRegularLine_emit depth
  have hquiet := isQuiet_injectLine_emit shaped scene depth
  have hlines := lines_of_inject shaped h
  have hdeclared : declaredFunctions text = functionNames depth := by
    rw [declaredFunctions, hlines, List.filterMap_flatMap, ← shaped.filterMap_emit depth]
    conv_rhs => rw [← List.flatMap_singleton' (source.emit depth), List.filterMap_flatMap]
    exact List.flatMap_congr fun l hl => filterMap_injectLine scene (hregular l hl).unbroken
  exact {
    declared := hdeclared
    distinct := hdeclared ▸ nodup_functionNames depth
    levels := fun name hname level => hdeclared ▸ specializedName_mem_functionNames hname level
    ordinary := fun l hl => (hquiet l (hlines ▸ hl)).ordinary
    unmarked := fun l hl => (hquiet l (hlines ▸ hl)).unmarked }

/-- The template has that shape. -/
theorem shaped_template :
    readsAs MarkedSource.IsShaped (templateLines.map String.toList) = true :=
  spelledTemplate.property.check (by decide +kernel)

theorem exists_parse_shaped :
    ∃ source, MarkedSource.parse template = .ok source ∧ source.IsShaped :=
  exists_parse_of_readsAs shaped_template

/-- The shader of a scene is what the unrolled template becomes with the scene written into it. -/
theorem inject_of_build {source : MarkedSource} (hparse : MarkedSource.parse template = .ok source)
    (h : build scene = .ok text) :
    inject scene (Text.unlines (source.emit scene.maxDepth.toNat)) = .ok text := by
  unfold build at h
  rw [buildFrom_eq hparse] at h
  obtain ⟨unrolled, hunroll, h⟩ := bind_eq_ok.1 h
  unfold MarkedSource.unroll at hunroll
  split at hunroll
  · cases hunroll
  · obtain rfl := Except.ok.inj hunroll
    exact h

theorem wellStructured_of_build (h : build scene = .ok text) :
    WellStructured scene.maxDepth.toNat text := by
  obtain ⟨source, hparse, shaped⟩ := exists_parse_shaped
  exact wellStructured_of_inject shaped (inject_of_build hparse h)

/-- A shader can be built for the scene, and it has the structure of one with all its levels. -/
def HasShader (scene : Scene) : Prop :=
  ∃ text, build scene = .ok text ∧ WellStructured scene.maxDepth.toNat text

theorem hasShader_of_ne_zero (h : scene.maxDepth ≠ 0) : HasShader scene := by
  obtain ⟨text, hbuild⟩ := (exists_build_iff scene).2 h
  exact ⟨text, hbuild, wellStructured_of_build hbuild⟩

theorem withMaxDepth_ne_zero (scene : Scene) (depth : UInt32) :
    (scene.withMaxDepth depth).maxDepth ≠ 0 := by
  unfold Scene.withMaxDepth
  split
  · show (1 : UInt32) ≠ 0
    decide
  · rename_i hdepth
    rintro rfl
    exact hdepth (by decide)

/-- **Every scene with a level has a shader of the right structure.**  So a scene that is accepted
has one, and keeps having one whatever bound on the levels it gets. -/
theorem build_wellStructured :
    (∀ scene : Scene, scene.maxDepth ≠ 0 → HasShader scene) ∧
    ∀ name text scene, Scene.ofText name text = .ok scene →
      HasShader scene ∧ ∀ depth, HasShader (scene.withMaxDepth depth) := by
  refine ⟨fun scene => hasShader_of_ne_zero, fun name text scene accepted => ⟨?_, fun depth => ?_⟩⟩
  · have hdepth := Scene.one_le_maxDepth_of_ofText accepted
    refine hasShader_of_ne_zero fun hzero => ?_
    rw [hzero] at hdepth
    exact absurd hdepth (by decide)
  · exact hasShader_of_ne_zero (withMaxDepth_ne_zero scene depth)

/-- A scene that is accepted, under three bounds. -/
theorem build_wellStructured_coneText : ∃ scene, Scene.ofText "cone" Scene.coneText = .ok scene ∧
    scene.maxDepth = 5 ∧ HasShader scene ∧ HasShader (scene.withMaxDepth 0) ∧
      HasShader { scene with maxDepth := 4 } := by
  have check : (Scene.ofText "cone" Scene.coneText).toOption.any (·.maxDepth == 5) = true := by
    decide +kernel
  cases accepted : Scene.ofText "cone" Scene.coneText with
  | error e =>
    rw [accepted] at check
    cases check
  | ok scene =>
    rw [accepted] at check
    obtain ⟨shader, bounded⟩ := build_wellStructured.2 "cone" Scene.coneText scene accepted
    have hfour : (4 : UInt32) ≠ 0 := by decide
    exact ⟨scene, rfl, eq_of_beq check, shader, bounded 0, build_wellStructured.1 _ hfour⟩

end Shader

end RayTracer
