import Mathlib.Data.List.Basic
import RayTracer.Proofs.Unroll.Reading

/-!
# Where the reader of marked sources stops

The reader goes through a text line by line and stops at the first line that breaks the rules.
Most errors point at that line.  A marker whose next line does not answer it is found one line
later, or at the end of the text, and the error points at the marker.

* `Scan.step_eq_error`, `Scan.finish_eq_error` : which line an error points at.
* `Scan.run_eq_error`, `Scan.run_append_eq_error` : a failed reading stops at one line, and what
  follows makes no difference.
* `MarkedSource.parse_error_first` : **an error of the reader points at the first violation and
  ignores what follows.**

The faults of the whole group (`UnrollError.IsOfGroup`) are different: they show only once all lines
have been read.
-/

namespace RayTracer

/-! ### Whole lines -/

namespace Text

/-- The text ends where a line ends. -/
def IsWhole (text : List Char) : Prop := text = [] ∨ text.getLast? = some '\n'

theorem linesAfter_append_of_feed {line text : List Char} (rest : List Char)
    (h : (text = [] ∧ line = []) ∨ text.getLast? = some '\n') :
    linesAfter line (text ++ rest) = linesAfter line text ++ lines rest := by
  induction text generalizing line with
  | nil =>
    obtain ⟨-, rfl⟩ := h.resolve_right (by simp)
    rfl
  | cons c text ih =>
    have hlast : (c :: text).getLast? = some '\n' := h.resolve_left (by simp)
    have hnext : text = [] ∧ c = '\n' ∨ text.getLast? = some '\n' := by
      cases text with
      | nil => exact .inl ⟨rfl, Option.some.inj hlast⟩
      | cons d text => exact .inr (by rwa [List.getLast?_cons_cons] at hlast)
    by_cases hc : c = '\n'
    · -- the next line starts afresh
      simp only [List.cons_append, linesAfter, if_pos hc, ih (hnext.imp_left fun h => ⟨h.1, rfl⟩)]
    · simp only [List.cons_append, linesAfter, if_neg hc,
        ih (.inr (hnext.resolve_left fun h => hc h.2))]

/-- **What follows whole lines is lines of its own.** -/
theorem IsWhole.lines_append {text : List Char} (h : IsWhole text) (rest : List Char) :
    lines (text ++ rest) = lines text ++ lines rest :=
  linesAfter_append_of_feed rest (h.imp_left fun hnil => ⟨hnil, rfl⟩)

end Text

/-! ### What an error points at -/

namespace UnrollError

/-- The line that the error points at. -/
def line? : UnrollError → Option Nat
  | unknownDirective n _ | malformedDirective n _ | nestedFunction n _ _ | missingDeclaration n _
  | mismatchedEnd n _ _ _ | outsideFunction n _ | nestedBlock n _ _ | unclosedBlock n _ _
  | duplicateFunction n _ | missingCallSite n _ | unknownCallee n _ | unmarkedCall n _ _
  | unguardedRecursion n _ => some n
  | unclosedFunction _ | zeroDepth | missingSceneMarker _ => none

/-- The error is found when all lines have been read: a function is still open, or the calls do not
fit the functions. -/
def IsOfGroup : UnrollError → Prop
  | unclosedFunction _ | unknownCallee _ _ | unmarkedCall _ _ _ => True
  | _ => False

/-- The marker on line `n` has no declaration or no call after it. -/
def IsUnanswered (n : Nat) : UnrollError → Prop
  | missingDeclaration marker _ | missingCallSite marker _ => marker = n
  | _ => False

end UnrollError

/-- The marker that the next line has to answer. -/
def Mode.marker? : Mode → Option Nat
  | outside | inside _ => none
  | declaration _ marker | callSite _ _ _ marker => some marker

namespace Scan

variable {s s' : Scan} {n : Nat} {text : Line} {e : UnrollError}

theorem Reads.marker_eq (h : Reads n text s s') {marker : Nat}
    (hmarker : s'.mode.marker? = some marker) : marker = n := by
  cases h with
  | regular mode _ =>
    have hnone : s.mode.marker? = some marker := hmarker
    rw [mode] at hnone
    cases hnone
  | functionMarker | callMarker => exact (Option.some.inj hmarker).symm
  | declaration | plain | endFunction | block | endBlock | callSite => cases hmarker

/-- **A marker that is not answered yet stands on the last line.** -/
theorem marker_eq_length {lines : List Line} (h : run {} 1 lines = .ok s) {marker : Nat}
    (hmarker : s.mode.marker? = some marker) : marker = lines.length := by
  have hinvariant : ∀ marker, s.mode.marker? = some marker → marker = ([] ++ lines).length := by
    refine run_invariant_lines
      (I := fun read s => ∀ marker, s.mode.marker? = some marker → marker = read.length) ?_ h nofun
    intro read text s s' hread _ marker hmarker
    rw [hread.marker_eq hmarker, List.length_append, List.length_singleton]
  exact hinvariant marker hmarker

theorem line?_of_directiveOutside {kind : DirectiveKind} {name : Line}
    (h : s.directiveOutside n kind name = .error e) : e.line? = some n ∧ ¬e.IsOfGroup := by
  cases kind with
  | function =>
    simp only [directiveOutside] at h
    split at h
    · obtain rfl := Except.error.inj h
      exact ⟨rfl, id⟩
    · cases h
  | _ =>
    obtain rfl := Except.error.inj h
    exact ⟨rfl, id⟩

theorem line?_of_directiveInside {f : OpenFunction} {kind : DirectiveKind} {name : Line}
    (h : s.directiveInside f n kind name = .error e) : e.line? = some n ∧ ¬e.IsOfGroup := by
  cases kind with
  | function =>
    obtain rfl := Except.error.inj h
    exact ⟨rfl, id⟩
  | endFunction =>
    simp only [directiveInside] at h
    split at h
    · obtain rfl := Except.error.inj h
      exact ⟨rfl, id⟩
    · split at h
      · obtain rfl := Except.error.inj h
        exact ⟨rfl, id⟩
      · cases h
  | block =>
    simp only [directiveInside] at h
    split at h
    · obtain rfl := Except.error.inj h
      exact ⟨rfl, id⟩
    · cases h
  | endBlock =>
    simp only [directiveInside] at h
    split at h
    · obtain rfl := Except.error.inj h
      exact ⟨rfl, id⟩
    · split at h
      · obtain rfl := Except.error.inj h
        exact ⟨rfl, id⟩
      · cases h
  | call | recursiveCall => cases h

/-- **A line that cannot be read is at fault itself, or it is the answer of the marker before.** -/
theorem step_eq_error (h : s.step text n = .error e) : ¬e.IsOfGroup ∧
    (e.line? = some n ∨ ∃ marker, s.mode.marker? = some marker ∧ e.line? = some marker) := by
  unfold step at h
  split at h
  · rename_i name marker mode
    split at h
    · cases h
    · obtain rfl := Except.error.inj h
      exact ⟨id, .inr ⟨marker, by rw [mode]; rfl, rfl⟩⟩
  · rename_i f call callee marker mode
    split at h
    · split at h
      · obtain rfl := Except.error.inj h
        exact ⟨id, .inl rfl⟩
      · cases h
    · obtain rfl := Except.error.inj h
      exact ⟨id, .inr ⟨marker, by rw [mode]; rfl, rfl⟩⟩
  · split at h
    · obtain rfl := Except.error.inj h
      exact ⟨id, .inl rfl⟩
    · obtain rfl := Except.error.inj h
      exact ⟨id, .inl rfl⟩
    · cases h
    · obtain ⟨hline, hgroup⟩ := line?_of_directiveOutside h
      exact ⟨hgroup, .inl hline⟩
  · split at h
    · obtain rfl := Except.error.inj h
      exact ⟨id, .inl rfl⟩
    · obtain rfl := Except.error.inj h
      exact ⟨id, .inl rfl⟩
    · cases h
    · obtain ⟨hline, hgroup⟩ := line?_of_directiveInside h
      exact ⟨hgroup, .inl hline⟩

/-- **At the end of a text, a marker is not answered or the group is at fault.** -/
theorem finish_eq_error (h : s.finish = .error e) :
    e.IsOfGroup ∨ ∃ marker, s.mode.marker? = some marker ∧ e.IsUnanswered marker := by
  unfold finish at h
  split at h
  · rename_i name marker mode
    obtain rfl := Except.error.inj h
    exact .inr ⟨marker, by rw [mode]; rfl, rfl⟩
  · rename_i f call callee marker mode
    obtain rfl := Except.error.inj h
    exact .inr ⟨marker, by rw [mode]; rfl, rfl⟩
  · obtain rfl := Except.error.inj h
    exact .inl trivial
  · split at h
    · obtain rfl := Except.error.inj h
      exact .inl trivial
    · split at h
      · rename_i e' hunmarked
        obtain rfl := Except.error.inj h
        obtain ⟨l, -, hl⟩ := List.exists_of_findSome?_eq_some hunmarked
        obtain ⟨f, -, rfl⟩ := Option.map_eq_some_iff.1 hl
        exact .inl trivial
      · cases h

/-! ### Readings that fail -/

/-- **A failed reading stops at one line**: the lines before it are read. -/
theorem run_eq_error {lines : List Line} (h : s.run n lines = .error e) :
    ∃ before text after t, lines = before ++ text :: after ∧ s.run n before = .ok t ∧
      t.step text (n + before.length) = .error e := by
  induction lines generalizing s n with
  | nil => cases h
  | cons text rest ih =>
    rcases bind_eq_error.1 h with hstep | ⟨s', hstep, hrest⟩
    · exact ⟨[], text, rest, s, rfl, rfl, hstep⟩
    · obtain ⟨before, next, after, t, rfl, hbefore, hnext⟩ := ih hrest
      refine ⟨text :: before, next, after, t, rfl, ?_, ?_⟩
      · exact run_cons_eq_ok.2 ⟨s', step_eq_ok_iff.1 hstep, hbefore⟩
      · rwa [Nat.add_right_comm, Nat.add_assoc] at hnext

/-- **What follows a failed reading makes no difference.** -/
theorem run_append_eq_error {before : List Line} (h : s.run n before = .error e)
    (after : List Line) : s.run n (before ++ after) = .error e := by
  induction before generalizing s n with
  | nil => cases h
  | cons text rest ih =>
    rcases bind_eq_error.1 h with hstep | ⟨s', hstep, hrest⟩
    · exact bind_eq_error.2 (.inl hstep)
    · exact bind_eq_error.2 (.inr ⟨s', hstep, ih hrest⟩)

end Scan

namespace MarkedSource

variable {text : List Char} {e : UnrollError}

theorem parse_eq_error_iff : parse text = .error e ↔ Scan.run {} 1 (Text.lines text) = .error e ∨
    ∃ s, Scan.run {} 1 (Text.lines text) = .ok s ∧ s.finish = .error e := by
  rw [parse]
  exact bind_eq_error

/-- An error at the end of a text is one of the group, or the last line is a marker. -/
theorem isUnanswered_of_finish {s : Scan} (read : Scan.run {} 1 (Text.lines text) = .ok s)
    (h : s.finish = .error e) (scanned : ¬e.IsOfGroup) :
    e.IsUnanswered (Text.lines text).length := by
  obtain ⟨marker, hmarker, hunanswered⟩ := (Scan.finish_eq_error h).resolve_left scanned
  rwa [Scan.marker_eq_length read hmarker] at hunanswered

/-- **An error of the reader points at the first violation and ignores what follows.**  Let reading
whole lines fail by an error that is not one of the group, nor a marker on the last line that is not
answered.  Then the same error is found whatever follows.  It points at one of the lines, and the
lines before that one are read without such an error, except that their last one may be a marker. -/
theorem parse_error_first (whole : Text.IsWhole text) (failed : parse text = .error e)
    (scanned : ¬e.IsOfGroup) (answered : ¬e.IsUnanswered (Text.lines text).length) :
    (∀ rest, parse (text ++ rest) = .error e) ∧
      ∃ n, e.line? = some n ∧ 1 ≤ n ∧ n ≤ (Text.lines text).length ∧
        ∀ start, start <+: text → Text.IsWhole start → (Text.lines start).length < n →
          ∀ e', parse start = .error e' → ¬e'.IsOfGroup →
            e'.IsUnanswered (Text.lines start).length := by
  have hrun : Scan.run {} 1 (Text.lines text) = .error e := by
    rcases parse_eq_error_iff.1 failed with hrun | ⟨s, hread, hfinish⟩
    · exact hrun
    · exact absurd (isUnanswered_of_finish hread hfinish scanned) answered
  refine ⟨fun rest => ?_, ?_⟩
  · rw [parse_eq_error_iff, whole.lines_append]
    exact .inl (Scan.run_append_eq_error hrun _)
  · obtain ⟨before, line, after, s, hlines, hbefore, hstep⟩ := Scan.run_eq_error hrun
    have hlength : (Text.lines text).length = before.length + after.length + 1 := by
      rw [hlines, List.length_append, List.length_cons, Nat.add_assoc]
    -- the error points at the line that cannot be read, or at the marker right before it
    have hline : ∃ n, e.line? = some n ∧ 1 ≤ n ∧ n ≤ before.length + 1 := by
      rcases (Scan.step_eq_error hstep).2 with hline | ⟨marker, hmarker, hline⟩
      · exact ⟨_, hline, Nat.le_add_right _ _, by omega⟩
      · have hlast := Scan.marker_eq_length hbefore hmarker
        refine ⟨marker, hline, ?_, by omega⟩
        cases before with
        | nil =>
          obtain rfl := Except.ok.inj hbefore
          cases hmarker
        | cons => simp [hlast]
    obtain ⟨n, hn, hpos, hle⟩ := hline
    refine ⟨n, hn, hpos, by omega, fun start hstart hwhole hshort e' hfailed hscanned => ?_⟩
    obtain ⟨rest, rfl⟩ := hstart
    rw [hwhole.lines_append] at hlines
    -- fewer lines than are read in the whole text
    have hread : ∃ t, Scan.run {} 1 (Text.lines start) = .ok t := by
      obtain ⟨more, hmore⟩ : Text.lines start <+: before :=
        List.prefix_of_prefix_length_le ⟨_, hlines⟩ ⟨_, rfl⟩ (by omega)
      rw [← hmore] at hbefore
      obtain ⟨t, ht, -⟩ := Scan.run_append_eq_ok.1 hbefore
      exact ⟨t, ht⟩
    obtain ⟨t, ht⟩ := hread
    rcases parse_eq_error_iff.1 hfailed with hrun' | ⟨t', ht', hfinish⟩
    · rw [ht] at hrun'
      cases hrun'
    · exact isUnanswered_of_finish ht' hfinish hscanned

/-- A block that is closed under another name, after a recursive call in it. -/
def misclosedText : List Char :=
  "// rec:func a\nfn a() \x7b\n// rec:if b\n// rec:rec-call a\na();\n// rec:endif c\n".toList

theorem misclosed_error_first :
    Text.IsWhole misclosedText ∧
      parse misclosedText = .error (.mismatchedEnd 6 .endBlock "b".toList "c".toList) ∧
      (∀ rest, parse (misclosedText ++ rest) =
        .error (.mismatchedEnd 6 .endBlock "b".toList "c".toList)) ∧
      ∀ start, start <+: misclosedText → Text.IsWhole start → (Text.lines start).length < 6 →
        ∀ e', parse start = .error e' → ¬e'.IsOfGroup →
          e'.IsUnanswered (Text.lines start).length := by
  have whole : Text.IsWhole misclosedText := .inr (by decide +kernel)
  have failed : parse misclosedText =
      .error (.mismatchedEnd 6 .endBlock "b".toList "c".toList) := by decide +kernel
  obtain ⟨same, n, hn, -, -, first⟩ := parse_error_first whole failed id id
  obtain rfl := Option.some.inj hn
  exact ⟨whole, failed, same, first⟩

end MarkedSource

end RayTracer
