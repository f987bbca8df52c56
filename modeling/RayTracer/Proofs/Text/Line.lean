import RayTracer.Text.Line

/-!
# Words and cuts of a line

* `Line.words_append_blank` : a blank separates the words before it from those after it.
* `Line.words_concat` : a character that is no blank ends the last word of a line that it ends.
* `Line.words_ne_nil` : a line with such a character has a word.
* `Line.words_eq_pair_iff` : which lines have exactly two words.
* `Line.before_cons` : what stands before a pattern, found one character at a time.
* `Line.has_iff` : a line has a pattern exactly if the pattern is a part of it.
* `Line.cut?_append` : where a pattern is found that holds a character which the text before it does
  not have.
* `Text.feed_not_mem_of_mem_lines` : the lines of a text have no line feed.
* `Text.eq_of_unlines_eq` : a text determines the lines that it was written from.
* `Text.lines_unlines_map` : lines are read back without the carriage returns at their ends.
-/

namespace RayTracer

namespace Line

theorem wordsAfter_append_blank {c : Char} (hc : isBlank c = true) (word : List Char)
    (a b : Line) : wordsAfter word (a ++ c :: b) = wordsAfter word a ++ words b := by
  induction a generalizing word with
  | nil =>
    by_cases hw : word = []
    · simp [wordsAfter, hc, hw, words]
    · simp [wordsAfter, hc, hw, words]
  | cons d a ih =>
    rw [List.cons_append]
    simp only [wordsAfter]
    by_cases hd : isBlank d = true
    · by_cases hw : word = []
      · simp [hd, hw, ih]
      · simp [hd, hw, ih]
    · simp [hd, ih]

/-- **A blank separates words.** -/
theorem words_append_blank {c : Char} (hc : isBlank c = true) (a b : Line) :
    words (a ++ c :: b) = words a ++ words b :=
  wordsAfter_append_blank hc [] a b

theorem wordsAfter_concat {c : Char} (hc : isBlank c = false) (word : List Char) (a : Line) :
    ∃ ws u, wordsAfter word (a ++ [c]) = ws ++ [u ++ [c]] := by
  induction a generalizing word with
  | nil => exact ⟨[], word.reverse, by simp [wordsAfter, hc]⟩
  | cons d a ih =>
    rw [List.cons_append]
    simp only [wordsAfter]
    by_cases hd : isBlank d = true
    · obtain ⟨ws, u, h⟩ := ih []
      by_cases hw : word = []
      · exact ⟨ws, u, by simp [hd, hw, h]⟩
      · exact ⟨word.reverse :: ws, u, by simp [hd, hw, h]⟩
    · obtain ⟨ws, u, h⟩ := ih (d :: word)
      exact ⟨ws, u, by simp [hd, h]⟩

/-- **The last word ends where the line does**, if that is not in a blank. -/
theorem words_concat {c : Char} (hc : isBlank c = false) (a : Line) :
    ∃ ws u, words (a ++ [c]) = ws ++ [u ++ [c]] :=
  wordsAfter_concat hc [] a

theorem wordsAfter_ne_nil {word : List Char} (hw : word ≠ []) (l : Line) :
    wordsAfter word l ≠ [] := by
  induction l generalizing word with
  | nil => simp [wordsAfter, hw]
  | cons c l ih =>
    by_cases hc : isBlank c = true
    · simp [wordsAfter, hc, hw]
    · have h := ih (List.cons_ne_nil c word)
      simpa [wordsAfter, hc] using h

theorem words_ne_nil {c : Char} (hc : isBlank c = false) {l : Line} (h : c ∈ l) :
    words l ≠ [] := by
  induction l with
  | nil => cases h
  | cons d l ih =>
    by_cases hd : isBlank d = true
    · have hmem : c ∈ l := by
        rcases List.mem_cons.1 h with rfl | h
        · rw [hc] at hd
          cases hd
        · exact h
      simpa [words, wordsAfter, hd] using ih hmem
    · have hne := wordsAfter_ne_nil (List.cons_ne_nil d []) l
      simpa [words, wordsAfter, hd] using hne

/-- Of two words, the first one ends in front of a blank that has a word on both sides. -/
theorem getLast?_of_words_eq_pair {a b v w : Line} {c d e : Char} (hc : isBlank c = false)
    (hd : isBlank d = true) (he : isBlank e = false) (hb : e ∈ b)
    (h : words (a ++ [c] ++ d :: b) = [v, w]) : v.getLast? = some c := by
  obtain ⟨ws, u, hfirst⟩ := words_concat hc a
  rw [words_append_blank hd, hfirst] at h
  have hws : ws = [] := by
    have hlength := congrArg List.length h
    have hpos := List.length_pos_iff.2 (words_ne_nil he hb)
    simp only [List.length_append, List.length_cons, List.length_nil] at hlength
    exact List.eq_nil_of_length_eq_zero (by omega)
  rw [hws] at h
  obtain ⟨rfl, -⟩ := List.cons.inj h
  exact List.getLast?_concat

/-- Nothing but blanks. -/
def AllBlank (l : Line) : Prop := ∀ c ∈ l, isBlank c = true

/-- A part of a line that holds no blank. -/
def IsWord (l : Line) : Prop := l ≠ [] ∧ ∀ c ∈ l, isBlank c = false

theorem AllBlank.nil : AllBlank [] := nofun

theorem AllBlank.cons {c : Char} {l : Line} (hc : isBlank c = true) (h : AllBlank l) :
    AllBlank (c :: l) := List.forall_mem_cons.2 ⟨hc, h⟩

theorem words_cons_of_blank {c : Char} (hc : isBlank c = true) (l : Line) :
    words (c :: l) = words l := by
  simp [words, wordsAfter, hc]

theorem words_append_of_allBlank {a : Line} (ha : AllBlank a) (l : Line) :
    words (a ++ l) = words l := by
  induction a with
  | nil => rfl
  | cons c a ih =>
    obtain ⟨hc, ha⟩ := List.forall_mem_cons.1 ha
    rw [List.cons_append, words_cons_of_blank hc, ih ha]

/-- A word that has been started goes on to the next blank. -/
theorem wordsAfter_eq {word : List Char} (hw : word ≠ []) (l : Line) :
    wordsAfter word l = (word.reverse ++ l.takeWhile fun c => !isBlank c) ::
      words (l.dropWhile fun c => !isBlank c) := by
  induction l generalizing word with
  | nil => simp [wordsAfter, hw, words]
  | cons c l ih =>
    by_cases hc : isBlank c = true
    · simp [wordsAfter, hc, hw, words]
    · simp [wordsAfter, hc, ih (List.cons_ne_nil c word)]

theorem words_eq_nil_iff {l : Line} : words l = [] ↔ AllBlank l := by
  constructor
  · intro h c hc
    cases hblank : isBlank c with
    | true => rfl
    | false => exact absurd h (words_ne_nil hblank hc)
  · intro h
    have hwords := words_append_of_allBlank h []
    rwa [List.append_nil] at hwords

/-- The first word, and the words after it. -/
theorem words_eq_cons_iff {l w : Line} {ws : List Line} :
    words l = w :: ws ↔ ∃ a rest, AllBlank a ∧ IsWord w ∧ l = a ++ (w ++ rest) ∧
      (∀ c, rest.head? = some c → isBlank c = true) ∧ words rest = ws := by
  constructor
  · intro h
    induction l with
    | nil => cases h
    | cons c l ih =>
      by_cases hc : isBlank c = true
      · rw [words_cons_of_blank hc] at h
        obtain ⟨a, rest, ha, hw, rfl, hrest⟩ := ih h
        exact ⟨c :: a, rest, ha.cons hc, hw, rfl, hrest⟩
      · simp only [words, wordsAfter, hc, Bool.false_eq_true, if_false] at h
        rw [wordsAfter_eq (List.cons_ne_nil c [])] at h
        obtain ⟨hw, hws⟩ := List.cons.inj h
        refine ⟨[], _, .nil, ?_, ?_, ?_, hws⟩
        · rw [← hw]
          refine ⟨by simp, ?_⟩
          intro d hd
          rcases List.mem_append.1 hd with hd | hd
          · obtain rfl : d = c := by simpa using hd
            simpa using hc
          · simpa using List.all_eq_true.1 List.all_takeWhile d hd
        · rw [← hw]
          simp [List.takeWhile_append_dropWhile]
        · intro d hd
          have hnot := List.head?_dropWhile_not (fun c => !isBlank c) l
          rw [hd] at hnot
          simpa using hnot
  · rintro ⟨a, rest, ha, ⟨hne, hw⟩, rfl, hrest, rfl⟩
    rw [words_append_of_allBlank ha]
    obtain ⟨c, w, rfl⟩ := List.exists_cons_of_ne_nil hne
    obtain ⟨hc, hw⟩ := List.forall_mem_cons.1 hw
    have hkept : ∀ d ∈ w, (fun c => !isBlank c) d = true := by simpa using hw
    -- the word ends where what follows it starts
    have hstop : rest.takeWhile (fun c => !isBlank c) = [] ∧
        rest.dropWhile (fun c => !isBlank c) = rest := by
      cases rest with
      | nil => exact ⟨rfl, rfl⟩
      | cons d rest => simp [hrest d rfl]
    rw [List.cons_append, words, wordsAfter, if_neg (by simp [hc]),
      wordsAfter_eq (List.cons_ne_nil c []), List.takeWhile_append_of_pos hkept,
      List.dropWhile_append_of_pos hkept, hstop.1, hstop.2]
    simp

/-- **A line has exactly two words if it consists of them and of blanks**, at least one of which
stands between them. -/
theorem words_eq_pair_iff {l v w : Line} :
    words l = [v, w] ↔ IsWord v ∧ IsWord w ∧ ∃ a b c, AllBlank a ∧ AllBlank b ∧ b ≠ [] ∧
      AllBlank c ∧ l = a ++ (v ++ (b ++ (w ++ c))) := by
  simp only [words_eq_cons_iff, words_eq_nil_iff]
  constructor
  · rintro ⟨a, rest, ha, hv, rfl, hrest, b, c, hb, hw, rfl, -, hc⟩
    refine ⟨hv, hw, a, b, c, ha, hb, ?_, hc, rfl⟩
    -- without a blank between them, the second word would go on from the first one
    rintro rfl
    obtain ⟨d, w, rfl⟩ := List.exists_cons_of_ne_nil hw.1
    have hblank := hrest d rfl
    rw [hw.2 d List.mem_cons_self] at hblank
    cases hblank
  · rintro ⟨hv, hw, a, b, c, ha, hb, hne, hc, rfl⟩
    refine ⟨a, _, ha, hv, rfl, ?_, b, c, hb, hw, rfl, ?_, hc⟩
    · obtain ⟨d, b, rfl⟩ := List.exists_cons_of_ne_nil hne
      intro e he
      obtain rfl := Option.some.inj he
      exact hb d List.mem_cons_self
    · intro d hd
      exact hc d (List.mem_of_head? hd)

/-! ### Trimming -/

theorem dropWhile_isBlank {l : Line} (h : ∀ c ∈ l, isBlank c = false) :
    l.dropWhile isBlank = l := by
  cases l with
  | nil => rfl
  | cons c l => rw [List.dropWhile_cons_of_neg (by simp [h c List.mem_cons_self])]

/-- Nothing is trimmed from a line without blanks. -/
theorem trim_eq_self {l : Line} (h : ∀ c ∈ l, isBlank c = false) : trim l = l := by
  have hreverse : ∀ c ∈ l.reverse, isBlank c = false := fun c hc => h c (List.mem_reverse.1 hc)
  rw [trim, trimStart, dropWhile_isBlank h, trimEnd, dropWhile_isBlank hreverse,
    List.reverse_reverse]

theorem trim_cons_of_blank {c : Char} (hc : isBlank c = true) (l : Line) :
    trim (c :: l) = trim l := by
  simp [trim, trimStart, hc]

/-! ### Cuts -/

/-- What stands before the first occurrence of a character. -/
theorem takeWhile_ne_append {c : Char} {l : Line} (h : c ∉ l) (rest : Line) :
    (l ++ c :: rest).takeWhile (· ≠ c) = l := by
  have hl : ∀ d ∈ l, decide (d ≠ c) = true := by
    intro d hd
    exact decide_eq_true fun heq => h (heq ▸ hd)
  rw [List.takeWhile_append_of_pos hl, List.takeWhile_cons_of_neg (by simp), List.append_nil]

/-- What is left of a line that starts with a pattern. -/
theorem rest?_eq_some_iff {pattern l rest : Line} :
    rest? pattern l = some rest ↔ l = pattern ++ rest := by
  constructor
  · exact rest?_eq_some
  · rintro rfl
    have hprefix : pattern.isPrefixOf (pattern ++ rest) = true :=
      List.isPrefixOf_iff_prefix.2 (List.prefix_append pattern rest)
    rw [rest?, if_pos hprefix, List.drop_left]

/-- **A line has a pattern exactly if the pattern is a part of it.** -/
theorem has_iff {pattern l : Line} : has pattern l = true ↔ pattern <:+: l := by
  constructor
  · intro h
    obtain ⟨⟨a, b⟩, hcut⟩ := Option.isSome_iff_exists.1 h
    exact ⟨a, b, (eq_of_cut? hcut).symm⟩
  · intro h
    unfold has
    induction l with
    | nil =>
      obtain rfl := List.infix_nil.1 h
      rfl
    | cons c l ih =>
      unfold cut?
      split
      · rfl
      · rename_i hrest
        rcases List.infix_cons_iff.1 h with ⟨rest, hprefix⟩ | h
        · rw [← hprefix, rest?_eq_some_iff.2 rfl] at hrest
          cases hrest
        · rw [Option.isSome_map]
          exact ih h

/-- There is no cut where a character of the pattern is missing. -/
theorem cut?_eq_none {c : Char} {pattern l : Line} (hc : c ∈ pattern) (hl : c ∉ l) :
    cut? pattern l = none := by
  have hnot : ¬has pattern l = true := fun h => hl ((has_iff.1 h).subset hc)
  rwa [has, Option.not_isSome_iff_eq_none] at hnot

/-- **A pattern is found where one of its characters occurs first.**  The character is a mark: it
does not stand before the pattern, nor further left in it. -/
theorem cut?_append {mark : Char} {p q l : Line} (hp : mark ∉ p) (hl : mark ∉ l) (rest : Line) :
    cut? (p ++ mark :: q) (l ++ (p ++ mark :: q ++ rest)) = some (l, rest) := by
  induction l with
  | nil =>
    obtain ⟨c, tail, hcons⟩ : ∃ c tail, p ++ mark :: q ++ rest = c :: tail :=
      List.exists_cons_of_ne_nil (by simp)
    rw [List.nil_append, hcons, cut?, ← hcons, rest?_eq_some_iff.2 rfl]
  | cons c l ih =>
    have hnone : rest? (p ++ mark :: q) (c :: (l ++ (p ++ mark :: q ++ rest))) = none := by
      rw [Option.eq_none_iff_forall_ne_some]
      intro after hrest
      -- up to the mark, the pattern is shorter than the line
      have hleft : (c :: (l ++ (p ++ mark :: q ++ rest))).takeWhile (· ≠ mark) = c :: l ++ p := by
        have hmark : mark ∉ c :: l ++ p := fun h => (List.mem_append.1 h).elim hl hp
        have htake := takeWhile_ne_append hmark (q ++ rest)
        simpa using htake
      have hright : (p ++ mark :: q ++ after).takeWhile (· ≠ mark) = p := by
        have htake := takeWhile_ne_append hp (q ++ after)
        simpa using htake
      rw [rest?_eq_some_iff.1 hrest, hright] at hleft
      have hlength := congrArg List.length hleft
      simp only [List.length_append, List.length_cons] at hlength
      omega
    rw [List.cons_append, cut?, hnone, ih (List.not_mem_of_not_mem_cons hl)]
    rfl

theorem before_nil {pattern : Line} : before pattern [] = [] := by
  cases pattern <;> rfl

theorem before_cons (pattern : Line) (c : Char) (l : Line) :
    before pattern (c :: l) =
      if pattern <+: c :: l then [] else c :: before pattern l := by
  by_cases h : pattern <+: c :: l
  · have hpattern : pattern.isPrefixOf (c :: l) = true := List.isPrefixOf_iff_prefix.2 h
    simp [before, cut?, rest?, hpattern, h]
  · have hpattern : ¬pattern.isPrefixOf (c :: l) = true := by rwa [List.isPrefixOf_iff_prefix]
    simp only [before, cut?, rest?, hpattern, h, if_false]
    cases cut? pattern l <;> rfl

theorem before_prefix (pattern l : Line) : before pattern l <+: l := by
  induction l with
  | nil => simp only [before_nil, List.nil_prefix]
  | cons c l ih =>
    rw [before_cons]
    split
    · exact List.nil_prefix
    · exact List.cons_prefix_cons.2 ⟨rfl, ih⟩

/-- The pattern does not start in a part in which its first character does not occur. -/
theorem before_append {c : Char} {pattern x : Line} (hx : c ∉ x) (l : Line) :
    before (c :: pattern) (x ++ l) = x ++ before (c :: pattern) l := by
  induction x with
  | nil => rfl
  | cons d x ih =>
    have hd : c ≠ d := List.ne_of_not_mem_cons hx
    rw [List.cons_append, before_cons, if_neg, ih (List.not_mem_of_not_mem_cons hx),
      List.cons_append]
    intro h
    exact hd (List.cons_prefix_cons.1 h).1

end Line

namespace Text

theorem feed_not_mem_of_mem_linesAfter {line text : List Char} (hline : '\n' ∉ line) :
    ∀ l ∈ linesAfter line text, '\n' ∉ l := by
  have hreturn {l : Line} (h : '\n' ∉ l) : '\n' ∉ dropReturn l := by
    unfold dropReturn
    split
    · exact fun hmem => h (List.dropLast_subset l hmem)
    · exact h
  fun_induction linesAfter line text with
  | case1 => simp
  | case2 line hne => simpa using hline
  | case3 line rest ih =>
    refine List.forall_mem_cons.2 ⟨hreturn (by simpa using hline), ih List.not_mem_nil⟩
  | case4 line c rest hc ih =>
    exact ih (List.not_mem_cons_of_ne_of_not_mem (Ne.symm hc) hline)

theorem feed_not_mem_of_mem_lines {text : List Char} {l : Line} (h : l ∈ lines text) :
    '\n' ∉ l :=
  feed_not_mem_of_mem_linesAfter List.not_mem_nil l h

/-- Lines without line feeds are determined by their text. -/
theorem eq_of_unlines_eq {as bs : List Line} (has : ∀ l ∈ as, '\n' ∉ l)
    (hbs : ∀ l ∈ bs, '\n' ∉ l) (h : unlines as = unlines bs) : as = bs := by
  have hcons (l : Line) (ls : List Line) : unlines (l :: ls) = l ++ '\n' :: unlines ls := by
    simp [unlines]
  induction as generalizing bs with
  | nil =>
    cases bs with
    | nil => rfl
    | cons b bs => simp [unlines] at h
  | cons a as ih =>
    cases bs with
    | nil => simp [unlines] at h
    | cons b bs =>
      rw [List.forall_mem_cons] at has hbs
      rw [hcons, hcons] at h
      have hfirst : a = b := by
        have htake := congrArg (List.takeWhile (· ≠ '\n')) h
        rwa [Line.takeWhile_ne_append has.1, Line.takeWhile_ne_append hbs.1] at htake
      rw [hfirst, List.append_cancel_left_eq, List.cons.injEq] at h
      rw [hfirst, ih has.2 hbs.2 h.2]

/-! ### Writing lines and reading them back -/

theorem linesAfter_append {l : Line} (h : '\n' ∉ l) (read rest : List Char) :
    linesAfter read (l ++ rest) = linesAfter (l.reverse ++ read) rest := by
  induction l generalizing read with
  | nil => rfl
  | cons c l ih =>
    have hc : c ≠ '\n' := by
      rintro rfl
      exact h List.mem_cons_self
    have hl : '\n' ∉ l := fun hmem => h (List.mem_cons_of_mem c hmem)
    simp [linesAfter, hc, ih hl]

/-- **Lines are read back without the carriage returns at their ends.** -/
theorem lines_unlines_append_map {ls : List Line} (h : ∀ l ∈ ls, '\n' ∉ l) (rest : List Char) :
    lines (unlines ls ++ rest) = ls.map dropReturn ++ lines rest := by
  induction ls with
  | nil => rfl
  | cons l ls ih =>
    obtain ⟨hfeed, hfeeds⟩ := List.forall_mem_cons.1 h
    have hrest := ih hfeeds
    unfold lines at hrest ⊢
    simp only [unlines, List.flatMap_cons, List.append_assoc] at hrest ⊢
    rw [linesAfter_append hfeed]
    simp [linesAfter, hrest]

theorem lines_unlines_map {ls : List Line} (h : ∀ l ∈ ls, '\n' ∉ l) :
    lines (unlines ls) = ls.map dropReturn := by
  have hlines := lines_unlines_append_map h []
  rw [List.append_nil] at hlines
  exact hlines.trans (List.append_nil _)

/-- A line that is read back as it was written: it has no line feed, and no carriage return at its
end. -/
def IsPlain (l : Line) : Prop := '\n' ∉ l ∧ l.getLast? ≠ some '\r'

instance (l : Line) : Decidable (IsPlain l) := inferInstanceAs (Decidable (_ ∧ _))

theorem map_dropReturn {ls : List Line} (h : ∀ l ∈ ls, IsPlain l) : ls.map dropReturn = ls := by
  have hsame : ∀ l ∈ ls, dropReturn l = id l := fun l hl => if_neg (h l hl).2
  rw [List.map_congr_left hsame, List.map_id]

theorem lines_unlines_append {ls : List Line} (h : ∀ l ∈ ls, IsPlain l) (rest : List Char) :
    lines (unlines ls ++ rest) = ls ++ lines rest := by
  rw [lines_unlines_append_map fun l hl => (h l hl).1, map_dropReturn h]

theorem lines_unlines {ls : List Line} (h : ∀ l ∈ ls, IsPlain l) : lines (unlines ls) = ls := by
  rw [lines_unlines_map fun l hl => (h l hl).1, map_dropReturn h]

end Text

end RayTracer
