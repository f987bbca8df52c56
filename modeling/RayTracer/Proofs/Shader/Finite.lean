import RayTracer.Program.Compiler
import RayTracer.Proofs.Description.Degenerate
import RayTracer.Proofs.Shader.Words

/-!
# Which scenes have shaders that compile

A float that is not finite is written as a word that the shading language does not know, and the
checks of a description do not exclude infinity: a number that is too large for single precision
reads as infinite.

* `known_floatLiteral_iff` : the literal of a float is known exactly if the float is finite.
* `Shader.knownLine_build_iff` : the lines of the shader of a scene are known exactly if the floats
  in the rows that are written for the scene are finite.
* `Scene.isFinite_writtenRows_iff` : they are if the numbers of the scene are, as long as normals
  are finite.
* `Scene.compiles_iff` : **the shader of an accepted scene compiles exactly if all numbers of the
  scene are finite**, those of the camera and of normals apart: the camera is not written, and the
  normals of an accepted scene are always finite.
* `Scene.boundless_not_compiled` : accepted scenes may have shaders that do not compile.

The compiler is any function of which one thing is taken as given (`Shader.RefusesNonFinite`): among
the shaders of scenes it refuses exactly those in whose text a float that is not finite is spelled.
This is about texts alone; which scenes have such texts is proved here.

The rows of `Shader.writtenRows` are those that reading finds in the text
(`Shader.readRows_constructors`, `Shader.readRows_declarations`).
-/

namespace RayTracer

open Line (AllBlank)

/-! ### Literals -/

/-- The literals of the floats that are not finite. -/
def nonFiniteLiterals : List Line := ["inf".toList, "-inf".toList, "NaN".toList]

theorem known_floatLiteral_iff (x : Float32) : Known (floatLiteral x) ↔ x.isFinite = true := by
  by_cases h : x.isFinite = true
  · have hdecimal := Float32.allDecimal_text h .literal
    have hletter (c : Char) (hc : ¬IsDecimalChar c) : c ∉ floatLiteral x :=
      fun hmem => hc (hdecimal c hmem)
    exact iff_of_true (known_of_notMem (hletter 'f' (by decide)) (hletter 'a' (by decide))) h
  · have hnone : ∀ l ∈ nonFiniteLiterals, ¬Known l := by decide
    exact iff_of_false (hnone _ (Float32.text_of_not_isFinite h .literal)) h

theorem floatLiteral_mem_iff (x : Float32) :
    floatLiteral x ∈ nonFiniteLiterals ↔ ¬x.isFinite = true := by
  have hnone : ∀ l ∈ nonFiniteLiterals, ¬Known l := by decide
  constructor
  · intro hmem
    rw [← known_floatLiteral_iff]
    exact hnone _ hmem
  · exact fun h => Float32.text_of_not_isFinite h .literal

/-- All four floats are finite. -/
def Row.IsFinite (r : Row) : Prop := ∀ x ∈ r.toList, x.isFinite = true

theorem Row.isFinite_zero : Row.zero.IsFinite := by
  unfold Row.IsFinite
  decide +kernel

theorem known_joinWith {ls : List Line} :
    Known (joinWith ", ".toList ls) ↔ ∀ l ∈ ls, Known l := by
  induction ls with
  | nil => exact iff_of_true (by decide) nofun
  | cons l ls ih =>
    cases ls with
    | nil => exact List.forall_mem_singleton.symm
    | cons m ls =>
      have hjoin : joinWith ", ".toList (l :: m :: ls) =
          l ++ ',' :: ' ' :: joinWith ", ".toList (m :: ls) := by
        simp [joinWith]
      rw [hjoin, known_append (by decide), known_cons (by decide), ih]
      exact List.forall_mem_cons.symm

theorem known_construct {name : Line} (hname : Known name) {arguments : List Line} :
    Known (construct name arguments) ↔ ∀ l ∈ arguments, Known l := by
  have hclose : Known (joinWith ", ".toList arguments ++ [')']) ↔
      Known (joinWith ", ".toList arguments) := by
    rw [known_append (by decide)]
    exact and_iff_left (by decide)
  rw [construct, List.append_assoc, List.cons_append, known_append (by decide), hclose,
    known_joinWith]
  exact and_iff_right hname

theorem known_rowLiteral_iff (r : Row) : Known (rowLiteral r) ↔ r.IsFinite := by
  rw [rowLiteral, known_construct (by decide), List.forall_mem_map]
  exact forall₂_congr fun x _ => known_floatLiteral_iff x

theorem known_rows_iff {name : Line} (hname : Known name) (rows : List Row) :
    Known (construct name (rows.map rowLiteral)) ↔ ∀ r ∈ rows, r.IsFinite := by
  rw [known_construct hname, List.forall_mem_map]
  exact forall₂_congr fun r _ => known_rowLiteral_iff r

namespace Shader

/-! ### The lines of a scene -/

section Lines

variable {indent array type : Line}

theorem knownLine_assignment_iff (hindent : AllBlank indent) (harray : IsKnownName array)
    (htype : IsKnownName type) (index : Nat) (rows : List Row) :
    KnownLine (assignment indent array index (construct type (rows.map rowLiteral))) ↔
      ∀ r ∈ rows, r.IsFinite := by
  have hvalue : '/' ∉ construct type (rows.map rowLiteral) :=
    notMem_rowLiterals (htype.not_mem (by decide)) (by decide) (by decide) rows
  have hslash : '/' ∉ assignment indent array index (construct type (rows.map rowLiteral)) := by
    have hblank : '/' ∉ indent := fun h => absurd (hindent '/' h) (by decide)
    have hname : '/' ∉ array := harray.not_mem (by decide)
    have hdigits : '/' ∉ Decimal.digitsOf index := Decimal.notMem_digitsOf (by decide) index
    simp [assignment, hblank, hname, hdigits, hvalue]
  have hline : assignment indent array index (construct type (rows.map rowLiteral)) =
      indent ++ (array ++ '[' :: (Decimal.digitsOf index ++ ']' :: (' ' :: '=' :: ' ' ::
        (construct type (rows.map rowLiteral) ++ [';'])))) := by
    simp [assignment]
  have hafter : Known [] := by decide
  rw [knownLine_iff hslash, hline, known_blanks hindent, known_append (by decide),
    known_append (by decide), known_cons (by decide), known_cons (by decide),
    known_cons (by decide), known_append (by decide), known_rows_iff htype.known_self]
  simp only [harray.known_self, known_digitsOf, hafter, true_and, and_true]

variable {α : Type} [Packed α]

theorem knownLine_assignments_iff (hindent : AllBlank indent) (harray : IsKnownName array)
    (htype : IsKnownName (Packed.typeName α)) (entities : List α) :
    (∀ l ∈ assignments indent array entities, KnownLine l) ↔
      ∀ r ∈ entities.flatMap Packed.rows, r.IsFinite := by
  have hnumbered : entities.flatMap Packed.rows =
      entities.zipIdx.flatMap fun e => Packed.rows e.1 := by
    conv_lhs => rw [← List.zipIdx_map_fst 0 entities, List.flatMap_map]
  rw [assignments, List.forall_mem_map, hnumbered, List.forall_mem_flatMap]
  exact forall₂_congr fun e _ => knownLine_assignment_iff hindent harray htype e.2 _

theorem isFinite_of_mem_replicate {r : Row} {count : Nat} (h : r ∈ List.replicate count Row.zero) :
    r.IsFinite := by
  rw [List.eq_of_mem_replicate h]
  exact Row.isFinite_zero

/-- The place of an array without entities is filled with zeros. -/
theorem knownLine_placeholder (hindent : AllBlank indent) (harray : IsKnownName array)
    (htype : IsKnownName (Packed.typeName α)) (count : Nat) (entities : List α) :
    ∀ l ∈ placeholder indent array count entities, KnownLine l := by
  intro l hl
  unfold placeholder at hl
  split at hl
  · obtain rfl := List.mem_singleton.1 hl
    rw [← List.map_replicate, knownLine_assignment_iff hindent harray htype]
    exact fun r hr => isFinite_of_mem_replicate hr
  · cases hl

/-- No number stands in the declarations of an array but its size. -/
theorem knownLine_arrayDeclarations {counter : Line} (hcounter : IsKnownName counter)
    (harray : IsKnownName array) (htype : IsKnownName type) (size : Nat) :
    ∀ l ∈ arrayDeclarations counter array type size, KnownLine l := by
  have hslash {name : Line} (h : IsKnownName name) : '/' ∉ name := h.not_mem (by decide)
  have hdigits (n : Nat) : '/' ∉ Decimal.digitsOf n := Decimal.notMem_digitsOf (by decide) n
  refine List.forall_mem_cons.2 ⟨?_, List.forall_mem_singleton.2 ?_⟩
  · have hsize : Known (Decimal.digitsOf size ++ ['u']) := known_of_notMem
      (by simp [Decimal.notMem_digitsOf (c := 'f')]) (by simp [Decimal.notMem_digitsOf (c := 'a')])
    have hline : "const ".toList ++ counter ++ ": u32 = ".toList ++ Decimal.digitsOf size ++
        "u;".toList = "const".toList ++ ' ' :: (counter ++ ':' :: (" u32 =".toList ++
          ' ' :: (Decimal.digitsOf size ++ ['u'] ++ ';' :: []))) := by
      simp
    rw [knownLine_iff (by simp [hslash hcounter, hdigits]), hline, known_append (by decide),
      known_append (by decide), known_append (by decide), known_append (by decide)]
    exact ⟨by decide, hcounter.known_self, by decide, hsize, by decide⟩
  · have hline : "var<private> ".toList ++ array ++ ": array<".toList ++ type ++ ", ".toList ++
        Decimal.digitsOf (max size 1) ++ ">;".toList = "var<private>".toList ++ ' ' :: (array ++
          ':' :: (" array".toList ++ '<' :: (type ++ ',' :: ' ' :: (Decimal.digitsOf (max size 1) ++
            '>' :: [';'])))) := by
      simp
    rw [knownLine_iff (by simp [hslash harray, hslash htype, hdigits]), hline,
      known_append (by decide), known_append (by decide), known_append (by decide),
      known_append (by decide), known_cons (by decide), known_append (by decide)]
    exact ⟨by decide, harray.known_self, by decide, htype.known_self, known_digitsOf _, by decide⟩

end Lines

/-- The rows that are written for a scene: those of the arrays and of places without entities, and
the ambient light. -/
def writtenRows (scene : Scene) : List Row :=
  scene.primitives.flatMap Packed.rows ++ scene.lights.flatMap Packed.rows ++
    scene.materials.materials.flatMap Packed.rows ++ placeholderRows 3 scene.primitives ++
    placeholderRows 2 scene.lights ++ placeholderRows 2 scene.materials.materials ++
    [scene.ambient.row]

theorem isFinite_placeholderRows {α : Type} (count : Nat) (entities : List α) :
    ∀ r ∈ placeholderRows count entities, r.IsFinite := by
  intro r hr
  unfold placeholderRows at hr
  split at hr
  · exact isFinite_of_mem_replicate hr
  · cases hr

theorem forall_writtenRows_iff (scene : Scene) : (∀ r ∈ writtenRows scene, r.IsFinite) ↔
    ((∀ r ∈ scene.primitives.flatMap Packed.rows, r.IsFinite) ∧
      (∀ r ∈ scene.lights.flatMap Packed.rows, r.IsFinite) ∧
      ∀ r ∈ scene.materials.materials.flatMap Packed.rows, r.IsFinite) ∧
    scene.ambient.row.IsFinite := by
  simp only [writtenRows, List.forall_mem_append, List.forall_mem_singleton,
    iff_true_intro (isFinite_placeholderRows _ _), and_true, and_assoc]

theorem knownLine_constructors_iff (scene : Scene) {indent : Line} (hindent : AllBlank indent) :
    (∀ l ∈ constructors scene indent, KnownLine l) ↔
      (∀ r ∈ scene.primitives.flatMap Packed.rows, r.IsFinite) ∧
      (∀ r ∈ scene.lights.flatMap Packed.rows, r.IsFinite) ∧
      ∀ r ∈ scene.materials.materials.flatMap Packed.rows, r.IsFinite := by
  have hprimitives : IsKnownName "primitives".toList := by decide
  have hlights : IsKnownName "lights".toList := by decide
  have hmaterials : IsKnownName "materials".toList := by decide
  have hprimitive : IsKnownName (Packed.typeName (Primitive Float32)) := by decide
  have hlight : IsKnownName (Packed.typeName Light) := by decide
  have hmaterial : IsKnownName (Packed.typeName Material) := by decide
  simp only [constructors, List.forall_mem_append,
    knownLine_assignments_iff hindent hprimitives hprimitive,
    knownLine_assignments_iff hindent hlights hlight,
    knownLine_assignments_iff hindent hmaterials hmaterial,
    iff_true_intro (knownLine_placeholder hindent hprimitives hprimitive _ _),
    iff_true_intro (knownLine_placeholder hindent hlights hlight _ _),
    iff_true_intro (knownLine_placeholder hindent hmaterials hmaterial _ _), and_true, and_assoc]

theorem knownLine_declarations_iff (scene : Scene) :
    (∀ l ∈ declarations scene, KnownLine l) ↔ scene.ambient.row.IsFinite := by
  have hslash : '/' ∉ "var<private> ambient_light: vec4<f32> = ".toList ++
      rowLiteral scene.ambient.row ++ [';'] := by
    simp [notMem_rowLiteral (c := '/') (by decide) (by decide)]
  have hline : "var<private> ambient_light: vec4<f32> = ".toList ++
      rowLiteral scene.ambient.row ++ [';'] =
      "var<private> ambient_light: vec4<f32> =".toList ++ ' ' ::
        (rowLiteral scene.ambient.row ++ ';' :: []) := by
    simp
  have hambient : KnownLine ("var<private> ambient_light: vec4<f32> = ".toList ++
      rowLiteral scene.ambient.row ++ [';']) ↔ scene.ambient.row.IsFinite := by
    have hbefore : Known "var<private> ambient_light: vec4<f32> =".toList := by decide
    have hafter : Known [] := by decide
    rw [knownLine_iff hslash, hline, known_append (by decide), known_append (by decide),
      known_rowLiteral_iff]
    exact (and_iff_right hbefore).trans (and_iff_left hafter)
  have hprimitives : ∀ l ∈ arrayDeclarations "PRIMITIVE_COUNT".toList "primitives".toList
      (Packed.typeName (Primitive Float32)) scene.primitives.length, KnownLine l :=
    knownLine_arrayDeclarations (by decide) (by decide) (by decide) _
  have hlights : ∀ l ∈ arrayDeclarations "LIGHT_COUNT".toList "lights".toList
      (Packed.typeName Light) scene.lights.length, KnownLine l :=
    knownLine_arrayDeclarations (by decide) (by decide) (by decide) _
  have hmaterials : ∀ l ∈ arrayDeclarations "MATERIAL_COUNT".toList "materials".toList
      (Packed.typeName Material) scene.materials.size, KnownLine l :=
    knownLine_arrayDeclarations (by decide) (by decide) (by decide) _
  simp only [declarations, List.forall_mem_append, List.forall_mem_singleton, hambient,
    iff_true_intro hprimitives, iff_true_intro hlights, iff_true_intro hmaterials, true_and]

/-- **The lines that are written for a scene are known exactly if the floats in its rows are
finite.** -/
theorem knownLine_written_iff (scene : Scene) {indent : Line} (hindent : AllBlank indent) :
    (∀ l ∈ declarations scene ++ constructors scene indent, KnownLine l) ↔
      ∀ r ∈ writtenRows scene, r.IsFinite := by
  rw [List.forall_mem_append, knownLine_declarations_iff, knownLine_constructors_iff scene hindent,
    forall_writtenRows_iff, and_comm]

/-- The other lines are known in any case, if the source has only known lines; the scene is written
where the source has places for it. -/
theorem knownLine_injected_iff {source : MarkedSource} (holds : HoldsMarkers source)
    (known : source.IsKnown) (scene : Scene) (depth : Nat) :
    (∀ l ∈ (source.emit depth).flatMap (injectLine scene), KnownLine l) ↔
      ∀ r ∈ writtenRows scene, r.IsFinite := by
  constructor
  · intro h
    have hplace : ∀ line ∈ source.regular, ∀ l ∈ injectLine scene line, KnownLine l :=
      fun line hline l hl => h l (List.mem_flatMap.2 ⟨line, List.mem_append_left _ hline, hl⟩)
    obtain ⟨d, hd, hdtrim⟩ := holds.declarations
    obtain ⟨c, hc, hctrim⟩ := holds.constructors
    have hdplace := hplace d hd
    have hcplace := hplace c hc
    rw [injectLine, if_pos hdtrim] at hdplace
    rw [injectLine, if_neg (by rw [hctrim]; decide), if_pos hctrim] at hcplace
    exact (knownLine_written_iff scene (allBlank_indent c)).1
      (List.forall_mem_append.2 ⟨hdplace, hcplace⟩)
  · intro h l hl
    obtain ⟨line, hline, hl⟩ := List.mem_flatMap.1 hl
    have hwritten := (knownLine_written_iff scene (allBlank_indent line)).2 h
    unfold injectLine at hl
    split at hl
    · exact hwritten l (List.mem_append_left _ hl)
    split at hl
    · exact hwritten l (List.mem_append_right _ hl)
    · obtain rfl := List.mem_singleton.1 hl
      exact known.knownLine_emit depth _ hline

/-- The lines of the shader of a scene are known exactly if the floats in its rows are finite. -/
theorem knownLine_build_iff {scene : Scene} {text : List Char} (h : build scene = .ok text) :
    (∀ l ∈ Text.lines text, KnownLine l) ↔ ∀ r ∈ writtenRows scene, r.IsFinite := by
  obtain ⟨source, hparse, shaped⟩ := exists_parse_shaped
  obtain ⟨source', hparse', holds⟩ := exists_parse_template
  obtain ⟨source'', hparse'', known⟩ := exists_parse_known
  obtain rfl := Except.ok.inj (hparse.symm.trans hparse')
  obtain rfl := Except.ok.inj (hparse.symm.trans hparse'')
  rw [lines_of_inject shaped (inject_of_build hparse h)]
  exact knownLine_injected_iff holds known scene _

/-! ### Compilers -/

/-- What is taken as given of a compiler: it refuses the shader of a scene exactly if a word of it,
outside comments, spells a float that is not finite.  Nothing is said of other texts. -/
structure RefusesNonFinite {P : Type} (compile : List Char → Except String P) : Prop where
  error_iff : ∀ {scene : Scene} {text : List Char}, build scene = .ok text →
    ((∃ e, compile text = .error e) ↔ ∃ l ∈ Text.lines text, ¬KnownLine l)

/-- Such a compiler accepts the shaders whose lines are known. -/
theorem RefusesNonFinite.ok_iff {P : Type} {compile : List Char → Except String P}
    (given : RefusesNonFinite compile) {scene : Scene} {text : List Char}
    (h : build scene = .ok text) :
    (∃ program, compile text = .ok program) ↔ ∀ l ∈ Text.lines text, KnownLine l := by
  rw [← not_iff_not, ← exists_error_iff, given.error_iff h]
  simp only [not_forall, exists_prop]

end Shader

namespace CompiledShader

open Shader (declaredFunctions)

/-- What stands in for a compiler accepts a text with an entry point if its lines are known, and
counts the functions that they declare. -/
theorem compile_eq_ok_iff {source : List Char} (entry : entryPoint ∈ declaredFunctions source)
    (shader : CompiledShader) : compile source = .ok shader ↔
      (∀ l ∈ Text.lines source, KnownLine l) ∧
        shader = ⟨((declaredFunctions source).filter (· != entryPoint)).length, true⟩ := by
  have hnone : ((Text.lines source).flatMap identifiers).find? notFinite.contains = none ↔
      ∀ l ∈ Text.lines source, KnownLine l := by
    simp only [List.find?_eq_none, List.contains_iff_mem, List.forall_mem_flatMap]
    exact Iff.rfl
  have hentry : ((Text.lines source).filterMap declaredName?).contains entryPoint = true :=
    List.contains_iff_mem.2 entry
  rw [← hnone, compile, if_pos hentry]
  split
  · rename_i word hfound
    rw [hfound]
    exact iff_of_false nofun nofun
  · rename_i hnot
    rw [and_iff_right hnot, Except.ok.injEq, eq_comm]
    exact Iff.rfl

/-- The shaders of scenes have an entry point, so the stand-in treats them like a compiler. -/
theorem refusesNonFinite_compile : Shader.RefusesNonFinite compile where
  error_iff := by
    intro scene text built
    have accepted : (∃ shader, compile text = .ok shader) ↔ ∀ l ∈ Text.lines text, KnownLine l := by
      simp only [compile_eq_ok_iff (Shader.wellStructured_of_build built).entryPoint_mem,
        exists_and_left, exists_eq, and_true]
    rw [exists_error_iff, accepted]
    simp only [not_forall, exists_prop]

end CompiledShader

/-! ### The numbers of a scene -/

/-- The numbers of a shape apart from the normal of a plane. -/
def Shape.numbers : Shape Float32 → List Float32
  | .sphere s => s.radius :: s.center.components
  | .plane p => p.checker.toList ++ p.point.components
  | .cone c => c.radius :: (c.apex.components ++ c.base.components)
  | .cylinder c => c.radius :: (c.start.components ++ c.stop.components)

/-- The numbers of a light. -/
def Light.numbers (l : Light) : List Float32 :=
  l.intensity :: (l.position.components ++ l.color.components)

/-- The numbers of a material. -/
def Material.numbers (m : Material) : List Float32 :=
  m.color.components ++
    [m.ambient, m.diffuse, m.specular, m.specularPower, m.reflectiveIndex]

/-- The numbers of the ambient light. -/
def AmbientLight.numbers (l : AmbientLight) : List Float32 := l.intensity :: l.color.components

/-- The numbers of a scene apart from the camera and from normals. -/
def Scene.numbers (scene : Scene) : List Float32 :=
  scene.primitives.flatMap (·.shape.numbers) ++ scene.lights.flatMap Light.numbers ++
    scene.materials.materials.flatMap Material.numbers ++ scene.ambient.numbers

/-- All numbers of the scene apart from the camera and from normals are finite. -/
def Scene.IsFinite (scene : Scene) : Prop := ∀ x ∈ scene.numbers, x.isFinite = true

/-- If the shape is a plane, its normal is finite. -/
def Shape.HasFiniteNormal : Shape Float32 → Prop
  | .plane p => ∀ x ∈ p.normal.components, x.isFinite = true
  | .sphere _ | .cone _ | .cylinder _ => True

theorem Row.isFinite_mk (x y z w : Float32) : (Row.mk x y z w).IsFinite ↔
    x.isFinite = true ∧ y.isFinite = true ∧ z.isFinite = true ∧ w.isFinite = true := by
  simp only [Row.IsFinite, Row.toList, List.forall_mem_cons, List.not_mem_nil, false_imp_iff,
    implies_true, and_true]

theorem Row.isFinite_ofVector (v : Vec3 Float32) (w : Float32) : (Row.ofVector v w).IsFinite ↔
    (∀ x ∈ v.components, x.isFinite = true) ∧ w.isFinite = true := by
  rw [Row.ofVector, Row.isFinite_mk, Vec3.forall_components, and_assoc, and_assoc]

theorem isFinite_zero : (0.0 : Float32).isFinite = true := by decide +kernel

theorem Shape.isFinite_code (s : Shape Float32) : s.code.isFinite = true := by
  have hcodes : ∀ code ∈ [(1.0 : Float32), 2.0, 3.0, 4.0], code.isFinite = true := by
    decide +kernel
  cases s <;> exact hcodes _ (by simp [Shape.code])

/-- Beside the numbers of its shape, the rows of a primitive hold a normal, and finite numbers for
the kind and the material. -/
theorem Primitive.isFinite_rows_iff {p : Primitive Float32} (normal : p.shape.HasFiniteNormal) :
    (∀ r ∈ Packed.rows p, r.IsFinite) ↔ ∀ x ∈ p.shape.numbers, x.isFinite = true := by
  have hcode := p.shape.isFinite_code
  have hmaterial := Float32.isFinite_toFloat32 p.material.number
  obtain ⟨shape, material⟩ := p
  cases shape with
  | plane s =>
    have normal : ∀ x ∈ s.normal.components, x.isFinite = true := normal
    have hchecker : (s.checker.getD 0.0).isFinite = true ↔
        ∀ x ∈ s.checker.toList, x.isFinite = true := by
      cases s.checker with
      | none => exact iff_of_true isFinite_zero nofun
      | some size => rw [Option.getD_some, Option.toList_some, List.forall_mem_singleton]
    simp only [Packed.rows, Shape.numbers, List.forall_mem_cons, List.forall_mem_append,
      List.not_mem_nil, false_imp_iff, implies_true, Row.isFinite_mk, Row.isFinite_ofVector, hcode,
      hmaterial, isFinite_zero, iff_true_intro normal, hchecker, true_and, and_true]
  | sphere s | cone s | cylinder s =>
    simp only [Packed.rows, Shape.numbers, List.forall_mem_cons, List.forall_mem_append,
      List.not_mem_nil, false_imp_iff, implies_true, Row.isFinite_mk, Row.isFinite_ofVector, hcode,
      hmaterial, isFinite_zero, Row.isFinite_zero, true_and, and_true]

theorem Light.isFinite_rows_iff (l : Light) :
    (∀ r ∈ Packed.rows l, r.IsFinite) ↔ ∀ x ∈ l.numbers, x.isFinite = true := by
  simp only [Packed.rows, Light.numbers, List.forall_mem_cons, List.forall_mem_append,
    List.not_mem_nil, false_imp_iff, implies_true, Row.isFinite_ofVector, isFinite_zero, and_true]
  rw [and_comm (a := l.intensity.isFinite = true), and_right_comm]

theorem Material.isFinite_rows_iff (m : Material) :
    (∀ r ∈ Packed.rows m, r.IsFinite) ↔ ∀ x ∈ m.numbers, x.isFinite = true := by
  simp only [Packed.rows, Material.numbers, List.forall_mem_cons, List.forall_mem_append,
    List.not_mem_nil, false_imp_iff, implies_true, Row.isFinite_mk, Row.isFinite_ofVector,
    and_true, and_assoc]

theorem AmbientLight.isFinite_row_iff (l : AmbientLight) :
    l.row.IsFinite ↔ ∀ x ∈ l.numbers, x.isFinite = true := by
  rw [AmbientLight.row, Row.isFinite_ofVector, AmbientLight.numbers, List.forall_mem_cons, and_comm]

/-- The rows that are written for a scene are finite exactly if its numbers are. -/
theorem Scene.isFinite_writtenRows_iff {scene : Scene}
    (normals : ∀ p ∈ scene.primitives, p.shape.HasFiniteNormal) :
    (∀ r ∈ Shader.writtenRows scene, r.IsFinite) ↔ scene.IsFinite := by
  have hprimitives : (∀ p ∈ scene.primitives, ∀ r ∈ Packed.rows p, r.IsFinite) ↔
      ∀ p ∈ scene.primitives, ∀ x ∈ p.shape.numbers, x.isFinite = true :=
    forall₂_congr fun p hp => Primitive.isFinite_rows_iff (normals p hp)
  simp only [Shader.forall_writtenRows_iff, Scene.IsFinite, Scene.numbers, List.forall_mem_append,
    List.forall_mem_flatMap, hprimitives, Light.isFinite_rows_iff, Material.isFinite_rows_iff,
    AmbientLight.isFinite_row_iff, and_assoc]

/-! ### Accepted scenes -/

theorem ObjectDescription.hasFiniteNormal_shape (object : ObjectDescription) :
    object.shape.HasFiniteNormal := by
  cases object with
  | plane point normal checkerboard size m => exact normal.isFinite_normalize
  | sphere | cone | cylinder => trivial

namespace Scene

/-- The normals of an accepted scene are finite, whatever it describes. -/
theorem hasFiniteNormal_of_ofText {name text : String} {scene : Scene}
    (accepted : ofText name text = .ok scene) :
    ∀ p ∈ scene.primitives, p.shape.HasFiniteNormal := by
  cases described : Description.ofText? text with
  | none =>
    rw [ofText, described] at accepted
    cases accepted
  | some d =>
    intro p hp
    have hshape : p.shape ∈ d.readObjects.map (·.shape) := by
      rw [← (keptIn_of_ofText described accepted).shapes_eq]
      exact List.mem_map_of_mem hp
    obtain ⟨object, -, hobject⟩ := List.mem_map.1 hshape
    rw [← hobject]
    exact object.hasFiniteNormal_shape

theorem exists_build_of_ofText {name text : String} {scene : Scene}
    (accepted : ofText name text = .ok scene) : ∃ source, Shader.build scene = .ok source :=
  (Shader.exists_build_iff scene).2 (maxDepth_ne_zero_of_ofText accepted)

/-- **Whether the shader of an accepted scene compiles.**  No word of the lines that are written for
the scene is unknown, and no float literal among them that of an infinity or of what is no number,
exactly if the numbers of the scene are finite, those of the camera and of normals apart.  A shader
can be built in any case; its lines are known, and it compiles, exactly if the numbers are. -/
theorem compiles_iff {P : Type} {compile : List Char → Except String P}
    (given : Shader.RefusesNonFinite compile) {name text : String} {scene : Scene} {indent : Line}
    (accepted : ofText name text = .ok scene) (hindent : AllBlank indent) :
    ((∀ l ∈ Shader.declarations scene ++ Shader.constructors scene indent, KnownLine l) ↔
      scene.IsFinite) ∧
    ((∀ r ∈ Shader.writtenRows scene, ∀ x ∈ r.toList, floatLiteral x ∉ nonFiniteLiterals) ↔
      scene.IsFinite) ∧
    ∃ source, Shader.build scene = .ok source ∧
      ((∀ l ∈ Text.lines source, KnownLine l) ↔ scene.IsFinite) ∧
      ((∃ program, compile source = .ok program) ↔ scene.IsFinite) := by
  have hrows := isFinite_writtenRows_iff (hasFiniteNormal_of_ofText accepted)
  obtain ⟨source, hbuild⟩ := exists_build_of_ofText accepted
  have hlines := (Shader.knownLine_build_iff hbuild).trans hrows
  refine ⟨(Shader.knownLine_written_iff scene hindent).trans hrows, ?_, source, hbuild, hlines,
    (given.ok_iff hbuild).trans hlines⟩
  simp only [floatLiteral_mem_iff, not_not]
  exact hrows

theorem compiles_coneText : Shader.RefusesNonFinite CompiledShader.compile ∧ AllBlank [' ', ' '] ∧
    ∃ scene source, ofText "cone" coneText = .ok scene ∧ scene.primitives.length = 1 ∧
      (∀ l ∈ Shader.declarations scene ++ Shader.constructors scene [' ', ' '], KnownLine l) ∧
      Shader.build scene = .ok source ∧ CompiledShader.compile source = .ok ⟨29, true⟩ := by
  have given := CompiledShader.refusesNonFinite_compile
  have hindent : AllBlank [' ', ' '] := .cons (by decide) (.cons (by decide) .nil)
  have check : (ofText "cone" coneText).toOption.any (fun scene =>
      scene.primitives.length == 1 && scene.maxDepth == 5 &&
        scene.numbers.all (·.isFinite)) = true := by
    decide +kernel
  cases accepted : ofText "cone" coneText with
  | error e =>
    rw [accepted] at check
    cases check
  | ok scene =>
    rw [accepted] at check
    obtain ⟨hcounts, hnumbers⟩ := Bool.and_eq_true_iff.1 check
    obtain ⟨hlength, hdepth⟩ := Bool.and_eq_true_iff.1 hcounts
    have hfinite : scene.IsFinite := List.all_eq_true.1 hnumbers
    obtain ⟨hlines, -, source, hbuild, -, hcompile⟩ := compiles_iff given accepted hindent
    obtain ⟨shader, hshader⟩ := hcompile.2 hfinite
    -- five levels of three functions, and fourteen functions beside the entry point
    have structured := Shader.wellStructured_of_build hbuild
    obtain ⟨-, hcounted⟩ :=
      (CompiledShader.compile_eq_ok_iff structured.entryPoint_mem shader).1 hshader
    have hcount : ((Shader.functionNames 5).filter (· != CompiledShader.entryPoint)).length = 29 :=
      by decide +kernel
    have hfive : scene.maxDepth.toNat = 5 := congrArg UInt32.toNat (eq_of_beq hdepth)
    rw [structured.declared, hfive, hcount] at hcounted
    exact ⟨given, hindent, scene, source, rfl, eq_of_beq hlength, hlines.2 hfinite, hbuild,
      hcounted ▸ hshader⟩

/-- A sphere with a radius beyond single precision. -/
def boundlessText : String :=
  "\x7b\"camera\":[[0,1,5],[0,0,0]],\"materials\":[[\"m\",[1,1,1]]],\"objects\":[" ++
    "\x7b\"type\":\"sphere\",\"center\":[0,0,1],\"radius\":1e39,\"material\":\"m\"\x7d]\x7d"

/-- **An accepted scene may have a shader that no compiler accepts**: the radius reads as infinity
and is written as a word. -/
theorem boundless_not_compiled : ∃ scene source, ofText "" boundlessText = .ok scene ∧
    (∃ r ∈ Shader.writtenRows scene, ∃ x ∈ r.toList, floatLiteral x = "inf".toList) ∧
    Shader.build scene = .ok source ∧
    ∀ (P : Type) (compile : List Char → Except String P), Shader.RefusesNonFinite compile →
      ∀ program, compile source ≠ .ok program := by
  have check : (ofText "" boundlessText).toOption.any (fun scene =>
      (Shader.writtenRows scene).any fun r => r.toList.any fun x =>
        floatLiteral x == "inf".toList) = true := by
    decide +kernel
  cases accepted : ofText "" boundlessText with
  | error e =>
    rw [accepted] at check
    cases check
  | ok scene =>
    rw [accepted] at check
    obtain ⟨r, hr, hx⟩ := List.any_eq_true.1 check
    obtain ⟨x, hx, hliteral⟩ := List.any_eq_true.1 hx
    have hliteral : floatLiteral x = "inf".toList := eq_of_beq hliteral
    obtain ⟨source, hbuild⟩ := exists_build_of_ofText accepted
    refine ⟨scene, source, rfl, ⟨r, hr, x, hx, hliteral⟩, hbuild, ?_⟩
    intro P compile given program hprogram
    have hknown := (given.ok_iff hbuild).1 ⟨program, hprogram⟩
    have hfinite := (Shader.knownLine_build_iff hbuild).1 hknown r hr x hx
    refine (floatLiteral_mem_iff x).1 ?_ hfinite
    rw [hliteral]
    decide

end Scene

end RayTracer
