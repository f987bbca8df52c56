import RayTracer.Proofs.Text.Line
import RayTracer.Unroll.Directive

/-!
# What a directive looks like

The reader of directives looks at a line from the left: blanks, slashes, blanks, `rec:` and the
words after it.  Said of the whole line at once, a directive is a comment that consists of `rec:`, a
word for a kind and a name, with blanks around them (`IsDirective`), and a line is ordinary if it is
no comment that starts with `rec:` (`IsOrdinary`).

* `LineKind.of_eq_directive_iff`, `LineKind.of_eq_ordinary_iff` : **this is what the reader sees.**
-/

namespace RayTracer

open Line (AllBlank IsWord)

/-- The line is a comment that starts with `rec:`, and this is what follows. -/
def IsMarked (l body : Line) : Prop :=
  ∃ a b, AllBlank a ∧ AllBlank b ∧ l = a ++ ("//".toList ++ (b ++ ("rec:".toList ++ body)))

/-- The line holds the directive of the given kind and name, and nothing else. -/
def IsDirective (kind : DirectiveKind) (name l : Line) : Prop :=
  IsWord name ∧ ∃ a b c, AllBlank a ∧ AllBlank b ∧ b ≠ [] ∧ AllBlank c ∧
    IsMarked l (a ++ (kind.text.toList ++ (b ++ (name ++ c))))

/-- The line is no directive, neither a well-formed one nor an ill-formed one. -/
def IsOrdinary (l : Line) : Prop := ∀ body, ¬IsMarked l body

/-- Trimming ends where the first character that is no blank stands. -/
theorem Line.trimStart_append {a l : Line} {c : Char} (ha : AllBlank a) (hc : isBlank c = false) :
    Line.trimStart (a ++ c :: l) = c :: l := by
  rw [Line.trimStart, List.dropWhile_append_of_pos ha, List.dropWhile_cons_of_neg (by simp [hc])]

theorem Line.exists_trimStart (l : Line) : ∃ a, AllBlank a ∧ l = a ++ l.trimStart :=
  ⟨l.takeWhile isBlank, List.all_eq_true.1 List.all_takeWhile,
    List.takeWhile_append_dropWhile.symm⟩

theorem directiveBody?_eq_some_iff {l body : Line} :
    directiveBody? l = some body ↔ IsMarked l body := by
  simp only [directiveBody?, Option.bind_eq_bind, Option.bind_eq_some_iff,
    Line.rest?_eq_some_iff]
  constructor
  · rintro ⟨comment, hslashes, hword⟩
    obtain ⟨a, ha, hl⟩ := l.exists_trimStart
    obtain ⟨b, hb, hcomment⟩ := comment.exists_trimStart
    refine ⟨a, b, ha, hb, ?_⟩
    rw [hl, hslashes, hcomment, hword]
  · rintro ⟨a, b, ha, hb, rfl⟩
    exact ⟨_, Line.trimStart_append ha (by decide), Line.trimStart_append hb (by decide)⟩

theorem DirectiveKind.ofWord?_eq_some_iff {word : Line} {kind : DirectiveKind} :
    ofWord? word = some kind ↔ word = kind.text.toList := by
  constructor
  · intro h
    rw [ofWord?] at h
    have hfound := List.find?_some h
    exact (eq_of_beq hfound).symm
  · rintro rfl
    cases kind <;> decide

theorem DirectiveKind.isWord_text (kind : DirectiveKind) : IsWord kind.text.toList := by
  have hne : kind.text.toList ≠ [] := by cases kind <;> decide
  have hall : kind.text.toList.all (fun c => !isBlank c) = true := by cases kind <;> decide
  exact ⟨hne, fun c hc => by simpa using List.all_eq_true.1 hall c hc⟩

/-- The words of a directive. -/
theorem IsDirective.exists_body {l name : Line} {kind : DirectiveKind}
    (h : IsDirective kind name l) :
    ∃ body, IsMarked l body ∧ Line.words body = [kind.text.toList, name] := by
  obtain ⟨hname, a, b, c, ha, hb, hne, hc, hmarked⟩ := h
  exact ⟨_, hmarked, Line.words_eq_pair_iff.2
    ⟨kind.isWord_text, hname, a, b, c, ha, hb, hne, hc, rfl⟩⟩

/-- **Which lines are directives.** -/
theorem LineKind.of_eq_directive_iff {l name : Line} {kind : DirectiveKind} :
    LineKind.of l = .directive kind name ↔ IsDirective kind name l := by
  constructor
  · intro h
    unfold LineKind.of at h
    split at h
    · cases h
    · rename_i body hbody
      split at h
      · rename_i word other hwords
        split at h
        · rename_i found hfound
          obtain ⟨rfl, rfl⟩ := LineKind.directive.inj h
          obtain rfl := DirectiveKind.ofWord?_eq_some_iff.1 hfound
          obtain ⟨-, hname, a, b, c, ha, hb, hne, hc, rfl⟩ := Line.words_eq_pair_iff.1 hwords
          exact ⟨hname, a, b, c, ha, hb, hne, hc, directiveBody?_eq_some_iff.1 hbody⟩
        · cases h
      · cases h
  · intro h
    obtain ⟨body, hmarked, hwords⟩ := h.exists_body
    simp only [LineKind.of, directiveBody?_eq_some_iff.2 hmarked, hwords,
      DirectiveKind.ofWord?_eq_some_iff.2 rfl]

/-- **Which lines are ordinary.** -/
theorem LineKind.of_eq_ordinary_iff {l : Line} : LineKind.of l = .ordinary ↔ IsOrdinary l := by
  constructor
  · intro h body hmarked
    unfold LineKind.of at h
    simp only [directiveBody?_eq_some_iff.2 hmarked] at h
    split at h
    · split at h <;> cases h
    · cases h
  · intro h
    cases hbody : directiveBody? l with
    | none => simp only [LineKind.of, hbody]
    | some body => exact absurd (directiveBody?_eq_some_iff.1 hbody) (h body)

end RayTracer
