import RayTracer.Proofs.Text.Line
import RayTracer.Shader.Build

/-!
# The template is accepted

The shader of a scene is built from one fixed template, so whether building succeeds depends on the
scene alone, and of the scene only on the number of its levels.

* `Shader.accepted_template` : the reader accepts the template, and the regular lines hold both
  markers.  This is a computation, done by the kernel on the lines of the template
  (`Shader.spelledTemplate`); `Shader.readsAs` does it for any property of what is read.
* `Shader.exists_build_iff` : a shader can be built for a scene that has at least one level.

The markers are still there after unrolling because the regular lines come first and reading a text
back gives the lines it was written from (`Text.lines_unlines_append`).
-/

namespace RayTracer

namespace Shader

/-! ### Reading the template -/

/-- The strings are spelled with these characters.  Evaluating `String.toList` decodes a literal
byte by byte, but a literal unifies with `String.ofList` of its characters at once. -/
inductive Spelled : List String → List Line → Prop
  | nil : Spelled [] []
  | cons (l : Line) {ss : List String} {ls : List Line} (h : Spelled ss ls) :
      Spelled (String.ofList l :: ss) (l :: ls)

theorem Spelled.append {ss ss' : List String} {ls ls' : List Line} (h : Spelled ss ls)
    (h' : Spelled ss' ls') : Spelled (ss ++ ss') (ls ++ ls') := by
  induction h with
  | nil => exact h'
  | cons l _ ih => exact ih.cons l

theorem Spelled.map_toList {ss : List String} {ls : List Line} (h : Spelled ss ls) :
    ss.map String.toList = ls := by
  induction h with
  | nil => rfl
  | cons l _ ih => rw [List.map_cons, ih, String.toList_ofList]

/-- A check of the characters of some strings may be done on their spelling. -/
theorem Spelled.check {ss : List String} {ls : List Line} {p : List Line → Bool}
    (h : Spelled ss ls) (hp : p ls = true) : p (ss.map String.toList) = true := by
  rw [h.map_toList]
  exact hp

/-- The regular lines are read back as they are written, and hold both markers. -/
structure HoldsMarkers (source : MarkedSource) : Prop where
  plain : ∀ l ∈ source.regular, Text.IsPlain l
  declarations : ∃ l ∈ source.regular, l.trim = declarationsMarker
  constructors : ∃ l ∈ source.regular, l.trim = constructorsMarker

instance (source : MarkedSource) : Decidable (HoldsMarkers source) :=
  decidable_of_iff ((∀ l ∈ source.regular, Text.IsPlain l) ∧
      (∃ l ∈ source.regular, l.trim = declarationsMarker) ∧
      ∃ l ∈ source.regular, l.trim = constructorsMarker)
    ⟨fun h => ⟨h.1, h.2.1, h.2.2⟩, fun h => ⟨h.plain, h.declarations, h.constructors⟩⟩

/-- The lines are read back as they are written, and as a source with the property. -/
def readsAs (P : MarkedSource → Prop) [DecidablePred P] (ls : List Line) : Bool :=
  decide (∀ l ∈ ls, Text.IsPlain l) &&
    match Scan.run {} 1 ls >>= Scan.finish with
    | .ok source => decide (P source)
    | .error _ => false

theorem parse_unlines {ls : List Line} (h : ∀ l ∈ ls, Text.IsPlain l) :
    MarkedSource.parse (Text.unlines ls) = Scan.run {} 1 ls >>= Scan.finish := by
  rw [MarkedSource.parse, Text.lines_unlines h]

theorem exists_parse_of_readsAs {P : MarkedSource → Prop} [DecidablePred P] {ls : List Line}
    (h : readsAs P ls = true) :
    ∃ source, MarkedSource.parse (Text.unlines ls) = .ok source ∧ P source := by
  simp only [readsAs, Bool.and_eq_true, decide_eq_true_eq] at h
  obtain ⟨hplain, hsource⟩ := h
  rw [parse_unlines hplain]
  split at hsource
  · rename_i source hread
    exact ⟨source, hread, of_decide_eq_true hsource⟩
  · cases hsource

/-- The characters of the template. -/
noncomputable def spelledTemplate : { ls : List Line // Spelled templateLines ls } := by
  apply Subtype.mk
  case property =>
    dsimp only [templateLines, structures, constants, sceneData, sphereAndPlaneHits, coneHit,
      cylinderHit, nearestHit, surfaces, localLight, reflectionGroup, entryPoint]
    repeat first
      | apply Spelled.append
      | exact Spelled.nil
      | apply Spelled.cons

/-- **The reader accepts the template**, and finds both markers in the regular lines. -/
theorem accepted_template : readsAs HoldsMarkers (templateLines.map String.toList) = true :=
  spelledTemplate.property.check (by decide +kernel)

theorem exists_parse_template :
    ∃ source, MarkedSource.parse template = .ok source ∧ HoldsMarkers source :=
  exists_parse_of_readsAs accepted_template

/-! ### Building -/

/-- A text has both markers. -/
def HasMarkers (ls : List Line) : Prop :=
  (∃ l ∈ ls, l.trim = declarationsMarker) ∧ ∃ l ∈ ls, l.trim = constructorsMarker

instance (ls : List Line) : Decidable (HasMarkers ls) := inferInstanceAs (Decidable (_ ∧ _))

theorem inject_eq_ok_iff {scene : Scene} {text result : List Char} :
    inject scene text = .ok result ↔ HasMarkers (Text.lines text) ∧
      result = Text.unlines ((Text.lines text).flatMap (injectLine scene)) := by
  have hany (marker : Line) : (Text.lines text).any (·.trim == marker) = true ↔
      ∃ l ∈ Text.lines text, l.trim = marker := by simp
  rw [HasMarkers, ← hany, ← hany, inject]
  cases (Text.lines text).any (·.trim == declarationsMarker) with
  | false => simp
  | true =>
    cases (Text.lines text).any (·.trim == constructorsMarker) with
    | false => simp
    | true => simp [eq_comm]

/-- A scene can be written into a text that begins with lines that hold both markers. -/
theorem exists_inject {source : MarkedSource} (h : HoldsMarkers source) (scene : Scene)
    (copies : List Line) :
    ∃ text, inject scene (Text.unlines (source.regular ++ copies)) = .ok text := by
  have hlines : Text.lines (Text.unlines (source.regular ++ copies)) =
      source.regular ++ Text.lines (Text.unlines copies) := by
    have happend : Text.unlines (source.regular ++ copies) =
        Text.unlines source.regular ++ Text.unlines copies := List.flatMap_append
    rw [happend, Text.lines_unlines_append h.plain]
  have hfound : ∀ marker, (∃ l ∈ source.regular, l.trim = marker) →
      ∃ l ∈ Text.lines (Text.unlines (source.regular ++ copies)), l.trim = marker := by
    rintro marker ⟨l, hl, htrim⟩
    rw [hlines]
    exact ⟨l, List.mem_append_left _ hl, htrim⟩
  have hmarkers : HasMarkers (Text.lines (Text.unlines (source.regular ++ copies))) :=
    ⟨hfound _ h.declarations, hfound _ h.constructors⟩
  exact ⟨_, inject_eq_ok_iff.2 ⟨hmarkers, rfl⟩⟩

theorem buildFrom_eq {text : List Char} {source : MarkedSource}
    (h : MarkedSource.parse text = .ok source) (scene : Scene) :
    buildFrom text scene = source.unroll scene.maxDepth >>= inject scene := by
  rw [buildFrom, h]
  rfl

/-- **A shader can be built for every scene that has at least one level**, and for no other. -/
theorem exists_build_iff (scene : Scene) :
    (∃ text, build scene = .ok text) ↔ scene.maxDepth ≠ 0 := by
  obtain ⟨source, hparse, hmarkers⟩ := exists_parse_template
  unfold build
  rw [buildFrom_eq hparse]
  by_cases hdepth : scene.maxDepth = 0
  · simp [MarkedSource.unroll, hdepth, bind, Except.bind]
  · simp only [MarkedSource.unroll, hdepth, if_false, ne_eq, not_false_eq_true, iff_true]
    exact exists_inject hmarkers scene _

/-- For a scene without a level, it is the depth that is at fault. -/
theorem build_eq_zeroDepth {scene : Scene} (h : scene.maxDepth = 0) :
    build scene = .error .zeroDepth := by
  obtain ⟨source, hparse, -⟩ := exists_parse_template
  unfold build
  rw [buildFrom_eq hparse, MarkedSource.unroll, if_pos h]
  rfl

end Shader

end RayTracer
