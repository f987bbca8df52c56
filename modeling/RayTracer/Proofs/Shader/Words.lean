import RayTracer.Proofs.Shader.Structure

/-!
# The words of a shader

A float that is not finite is spelled by a word that the shading language does not know.  A line is
known if none of its words, outside comments, spells such a float (`Known`, `KnownLine`).  Words end
at every character that belongs to no identifier, so a text that is put together at such characters
is known exactly if its parts are.

* `Known.renameCall` : renaming a call brings in no word but the new name.
* `MarkedSource.IsKnown.knownLine_emit` : **the copies of a source whose lines are known have known
  lines**, whatever the depth.

That the lines of the template are known is checked by the kernel.
-/

namespace RayTracer

open Line (AllBlank)
open CompiledShader (identifiersAfter notFinite)

/-- No word of the text spells a number that is not finite. -/
def Known (l : Line) : Prop := ∀ word ∈ identifiersAfter [] l, word ∉ notFinite

instance (l : Line) : Decidable (Known l) :=
  inferInstanceAs (Decidable (∀ word ∈ identifiersAfter [] l, word ∉ notFinite))

/-- Nor does a word of the line in front of a comment. -/
def KnownLine (l : Line) : Prop := Known (Line.before "//".toList l)

instance (l : Line) : Decidable (KnownLine l) := inferInstanceAs (Decidable (Known _))

variable {l rest : Line} {c : Char}

/-! ### Words -/

theorem identifiersAfter_of_true (hc : isIdentifierChar c = true) (word : List Char) (rest : Line) :
    identifiersAfter word (c :: rest) = identifiersAfter (c :: word) rest := by
  rw [identifiersAfter, if_pos hc]

/-- A character that belongs to no identifier ends the word before it. -/
theorem identifiersAfter_of_false (hc : isIdentifierChar c = false) (word : List Char)
    (rest : Line) : identifiersAfter word (c :: rest) =
      identifiersAfter word [] ++ identifiersAfter [] rest := by
  simp only [identifiersAfter, hc]
  cases word <;> rfl

/-- The words of a text are those on both sides of such a character. -/
theorem identifiersAfter_append (hc : isIdentifierChar c = false) (word : List Char)
    (l rest : Line) : identifiersAfter word (l ++ c :: rest) =
      identifiersAfter word l ++ identifiersAfter [] rest := by
  induction l generalizing word with
  | nil => exact identifiersAfter_of_false hc word rest
  | cons d l ih =>
    rw [List.cons_append]
    cases hd : isIdentifierChar d with
    | true => rw [identifiersAfter_of_true hd, identifiersAfter_of_true hd, ih]
    | false =>
      rw [identifiersAfter_of_false hd, identifiersAfter_of_false hd, ih, List.append_assoc]

/-- An identifier is one word. -/
theorem identifiersAfter_identifier {name : Line} (hname : IsIdentifier name) :
    identifiersAfter [] name = [name] := by
  have hread (l word : Line) (hl : ∀ c ∈ l, isIdentifierChar c = true) :
      identifiersAfter word l = identifiersAfter (l.reverse ++ word) [] := by
    induction l generalizing word with
    | nil => rfl
    | cons c l ih =>
      obtain ⟨hc, hl⟩ := List.forall_mem_cons.1 hl
      rw [identifiersAfter_of_true hc, ih _ hl, List.reverse_cons, List.append_assoc,
        List.singleton_append]
  rw [hread name [] hname.chars, List.append_nil, identifiersAfter, List.isEmpty_reverse,
    if_neg (by simpa using hname.ne_nil), List.reverse_reverse]

/-- The words of a text are made of its characters. -/
theorem mem_of_mem_identifiersAfter {w word : Line} (h : w ∈ identifiersAfter word l) (hc : c ∈ w) :
    c ∈ word ∨ c ∈ l := by
  fun_induction identifiersAfter word l with
  | case1 => cases h
  | case2 word hword =>
    obtain rfl := List.mem_singleton.1 h
    exact .inl (List.mem_reverse.1 hc)
  | case3 word d rest hd ih =>
    rcases ih h with hmem | hmem
    · rcases List.mem_cons.1 hmem with rfl | hmem
      · exact .inr List.mem_cons_self
      · exact .inl hmem
    · exact .inr (List.mem_cons_of_mem d hmem)
  | case4 word d rest hd hword ih =>
    exact .inr (List.mem_cons_of_mem d ((ih h).resolve_left List.not_mem_nil))
  | case5 word d rest hd hword ih =>
    rcases List.mem_cons.1 h with rfl | h
    · exact .inl (List.mem_reverse.1 hc)
    · exact .inr (List.mem_cons_of_mem d ((ih h).resolve_left List.not_mem_nil))

theorem known_append (hc : isIdentifierChar c = false) :
    Known (l ++ c :: rest) ↔ Known l ∧ Known rest := by
  rw [Known, identifiersAfter_append hc]
  exact List.forall_mem_append

theorem known_cons (hc : isIdentifierChar c = false) : Known (c :: rest) ↔ Known rest := by
  rw [Known, identifiersAfter_of_false hc]
  exact Iff.rfl

/-- A text with too few letters to spell a number that is not finite. -/
theorem known_of_notMem (hf : 'f' ∉ l) (ha : 'a' ∉ l) : Known l := by
  intro word hword hmem
  have hchars (c : Char) (hc : c ∈ word) : c ∈ l :=
    (mem_of_mem_identifiersAfter hword hc).resolve_left List.not_mem_nil
  simp only [notFinite, List.mem_cons, List.not_mem_nil, or_false] at hmem
  rcases hmem with rfl | rfl
  · exact hf (hchars 'f' (by decide))
  · exact ha (hchars 'a' (by decide))

theorem known_digitsOf (n : Nat) : Known (Decimal.digitsOf n) :=
  known_of_notMem (Decimal.notMem_digitsOf (by decide) n) (Decimal.notMem_digitsOf (by decide) n)

/-- Blanks in front of a text make no difference. -/
theorem known_blanks {indent : Line} (hindent : AllBlank indent) (l : Line) :
    Known (indent ++ l) ↔ Known l := by
  induction indent with
  | nil => exact Iff.rfl
  | cons c indent ih =>
    obtain ⟨hc, hindent⟩ := List.forall_mem_cons.1 hindent
    have hother : isIdentifierChar c = false := by
      by_contra hc'
      rw [IsIdentifier.isBlank_eq_false (Bool.not_eq_false _ ▸ hc')] at hc
      cases hc
    rw [List.cons_append, known_cons hother, ih hindent]

theorem knownLine_iff (h : '/' ∉ l) : KnownLine l ↔ Known l := by
  have hcut : Line.cut? "//".toList l = none := Line.cut?_eq_none (c := '/') (by decide) h
  rw [KnownLine, Line.before, hcut]

/-! ### Renamed calls -/

section Rename

variable {name target : Line}

/-- Renaming writes no word but those of the text and the new name. -/
theorem mem_identifiersAfter_renameFrom {w word : Line} {previous : Option Char}
    (hname : IsIdentifier name) (htarget : IsIdentifier target)
    -- at a boundary no word has been started
    (start : isBoundary previous = true → word = [])
    (h : w ∈ identifiersAfter word (renameFrom name target previous 0 0 l)) :
    w = target ∨ w ∈ identifiersAfter word l := by
  have hopen : isIdentifierChar '(' = false := by decide
  induction callScan name previous l generalizing word with
  | nil previous => exact .inr h
  | call boundary _ ih =>
    obtain rfl := start boundary
    rw [renameFrom_call hname.isName boundary, identifiersAfter_append hopen,
      identifiersAfter_identifier htarget, List.singleton_append, List.mem_cons] at h
    rw [identifiersAfter_append hopen]
    rcases h with rfl | h
    · exact .inl rfl
    · exact (ih (fun _ => rfl) h).imp_right (List.mem_append_right _)
  | tail boundary _ ih =>
    rw [renameFrom_tail hname.ne_nil boundary, identifiersAfter_append hopen,
      List.mem_append] at h
    rw [identifiersAfter_append hopen]
    rcases h with h | h
    · exact .inr (List.mem_append_left _ h)
    · exact (ih (fun _ => rfl) h).imp_right (List.mem_append_right _)
  | @other previous c rest none _ ih =>
    rw [renameFrom_other none] at h
    cases hc : isIdentifierChar c with
    | true =>
      rw [identifiersAfter_of_true hc] at h ⊢
      exact ih (fun boundary => by simp [isBoundary, hc] at boundary) h
    | false =>
      rw [identifiersAfter_of_false hc, List.mem_append] at h
      rw [identifiersAfter_of_false hc]
      rcases h with h | h
      · exact .inr (List.mem_append_left _ h)
      · exact (ih (fun _ => rfl) h).imp_right (List.mem_append_right _)

/-- **A known text stays known when a call in it gets a known name.** -/
theorem Known.renameCall (h : Known l) (hname : IsIdentifier name) (htarget : IsIdentifier target)
    (known : target ∉ notFinite) : Known (renameCall l name target) := by
  intro word hword
  rw [RayTracer.renameCall, if_neg hname.ne_nil] at hword
  rcases mem_identifiersAfter_renameFrom hname htarget (fun _ => rfl) hword with rfl | hword
  · exact known
  · exact h word hword

end Rename

/-- The copies of a function have known names if the function has. -/
theorem specializedName_notMem {name : Line} (h : name ∉ notFinite) (level : Nat) :
    specializedName name level ∉ notFinite := by
  unfold specializedName
  split
  · exact h
  · intro hmem
    have hall : ∀ word ∈ notFinite, '_' ∉ word := by decide
    exact hall _ hmem (by simp)

/-! ### The lines of a source -/

/-- A name that the shading language knows. -/
structure IsKnownName (name : Line) : Prop extends IsIdentifier name where
  known : name ∉ notFinite

instance (name : Line) : Decidable (IsKnownName name) :=
  decidable_of_iff (IsIdentifier name ∧ name ∉ notFinite)
    ⟨fun h => ⟨h.1, h.2⟩, fun h => ⟨h.toIsIdentifier, h.known⟩⟩

theorem IsKnownName.known_self {name : Line} (h : IsKnownName name) : Known name := by
  rw [Known, identifiersAfter_identifier h.toIsIdentifier, List.forall_mem_singleton]
  exact h.known

theorem IsKnownName.knownLine_renameCall {name : Line} (hname : IsKnownName name)
    (hslash : '/' ∉ l) (h : Known l) (level : Nat) :
    KnownLine (renameCall l name (specializedName name level)) := by
  have htarget := isIdentifier_specializedName hname.toIsIdentifier level
  have hnone : '/' ∉ renameCall l name (specializedName name level) := fun hmem =>
    (mem_renameCall hmem).elim hslash (htarget.not_mem (by decide))
  exact (knownLine_iff hnone).2
    (h.renameCall hname.toIsIdentifier htarget (specializedName_notMem hname.known level))

/-- The line is known in every copy. -/
def Statement.IsKnown : Statement → Prop
  | text l => KnownLine l
  | call site => '/' ∉ site.text ∧ Known site.text ∧ IsKnownName site.callee

instance (s : Statement) : Decidable s.IsKnown :=
  match s with
  | .text l => inferInstanceAs (Decidable (KnownLine l))
  | .call _ => inferInstanceAs (Decidable (_ ∧ _ ∧ _))

/-- All lines of the function are known in every copy. -/
structure MarkedFunction.IsKnown (f : MarkedFunction) : Prop where
  name : IsKnownName f.name
  uncommented : '/' ∉ f.declaration
  declaration : Known f.declaration
  statements : ∀ s ∈ f.statements, s.IsKnown

instance (f : MarkedFunction) : Decidable f.IsKnown :=
  decidable_of_iff (IsKnownName f.name ∧ '/' ∉ f.declaration ∧ Known f.declaration ∧
      ∀ s ∈ f.statements, s.IsKnown)
    ⟨fun h => ⟨h.1, h.2.1, h.2.2.1, h.2.2.2⟩,
      fun h => ⟨h.name, h.uncommented, h.declaration, h.statements⟩⟩

/-- All lines of the source are known. -/
structure MarkedSource.IsKnown (source : MarkedSource) : Prop where
  regular : ∀ l ∈ source.regular, KnownLine l
  functions : ∀ f ∈ source.functions, f.IsKnown

instance (source : MarkedSource) : Decidable source.IsKnown :=
  decidable_of_iff ((∀ l ∈ source.regular, KnownLine l) ∧ ∀ f ∈ source.functions, f.IsKnown)
    ⟨fun h => ⟨h.1, h.2⟩, fun h => ⟨h.regular, h.functions⟩⟩

theorem Statement.IsKnown.knownLine_copy {s : Statement} (h : s.IsKnown) (level : Nat) :
    KnownLine (s.copy level).emit := by
  cases s with
  | text l => exact h
  | call site => exact h.2.2.knownLine_renameCall h.1 h.2.1 _

theorem MarkedFunction.IsKnown.knownLine_emit {f : MarkedFunction} (h : f.IsKnown) (level : Nat)
    (isLast : Bool) : ∀ l ∈ (f.copy level isLast).emit, KnownLine l := by
  refine List.forall_mem_cons.2 ⟨by decide, List.forall_mem_cons.2 ⟨?_, fun l hl => ?_⟩⟩
  · exact h.name.knownLine_renameCall h.uncommented h.declaration level
  · obtain ⟨line, hline, rfl⟩ := List.mem_map.1 hl
    obtain ⟨s, hs, rfl⟩ := List.mem_map.1 hline
    exact (h.statements s (mem_statements_of_mem_kept hs)).knownLine_copy level

/-- **The copies of a source whose lines are known have known lines.** -/
theorem MarkedSource.IsKnown.knownLine_emit {source : MarkedSource} (h : source.IsKnown)
    (depth : Nat) : ∀ l ∈ source.emit depth, KnownLine l := by
  intro l hl
  rcases List.mem_append.1 hl with hl | hl
  · exact h.regular l hl
  · obtain ⟨copy, hcopy, hl⟩ := List.mem_flatMap.1 hl
    obtain ⟨level, -, hcopy⟩ := List.mem_flatMap.1 hcopy
    obtain ⟨f, hf, rfl⟩ := List.mem_map.1 hcopy
    exact (h.functions f hf).knownLine_emit level _ l hl

namespace Shader

/-- The lines of the template are known. -/
theorem known_template : readsAs MarkedSource.IsKnown (templateLines.map String.toList) = true :=
  spelledTemplate.property.check (by decide +kernel)

theorem exists_parse_known :
    ∃ source, MarkedSource.parse template = .ok source ∧ source.IsKnown :=
  exists_parse_of_readsAs known_template

end Shader

end RayTracer
