import RayTracer.Proofs.Unroll.Output

/-!
# Carriage returns at the ends of lines

A text that is written and read again loses a carriage return at the end of each line.  No reader
sees it, because it is a blank, and no pattern that is searched for has blanks at its end.

* `renameCall_dropReturn` : **renaming and dropping the carriage return commute.**  A line does not
  lose its end when it is renamed (`getLast?_renameFrom`).
* `IsDirective.dropReturn`, `IsOrdinary.dropReturn`, `hasCall_dropReturn` : directives and calls
  stay.
* `Layout.Function.valid_dropReturn`, `Layout.Function.emit_dropReturn` : so a marked function stays
  one, and its copies lose what it has lost.

Names are words here; they may hold parentheses, so a renamed line is not known from where its names
stand alone, and these are inductions on the search itself.
-/

namespace RayTracer

open Line (AllBlank IsWord)

variable {c : Char} {l p : Line}

/-! ### A character at the end that a pattern does not have -/

namespace Line

theorem prefix_concat_iff (hc : c ∉ p) : p <+: l ++ [c] ↔ p <+: l := by
  rw [List.prefix_concat_iff]
  constructor
  · rintro (rfl | h)
    · exact absurd (List.mem_append_right l List.mem_cons_self) hc
    · exact h
  · exact .inr

theorem infix_concat_iff (hne : p ≠ []) (hc : c ∉ p) : p <:+: l ++ [c] ↔ p <:+: l := by
  rw [List.infix_concat_iff]
  constructor
  · rintro (hsuffix | h)
    · obtain ⟨before, h⟩ := hsuffix
      have hlast := congrArg List.getLast? h
      rw [List.getLast?_append_of_ne_nil _ hne, List.getLast?_concat] at hlast
      exact absurd (List.mem_of_getLast? hlast) hc
    · exact h
  · exact .inr

theorem before_concat (hne : p ≠ []) (hc : c ∉ p) (l : Line) :
    before p (l ++ [c]) = before p l ∨ before p (l ++ [c]) = before p l ++ [c] := by
  induction l with
  | nil =>
    have hnot : ¬p <+: [] ++ [c] := fun h => hne (List.prefix_nil.1 ((prefix_concat_iff hc).1 h))
    rw [List.nil_append] at hnot ⊢
    rw [before_cons, if_neg hnot, before_nil]
    exact .inr rfl
  | cons d l ih =>
    have hstarts : p <+: d :: (l ++ [c]) ↔ p <+: d :: l := prefix_concat_iff (l := d :: l) hc
    rw [List.cons_append, before_cons, before_cons]
    by_cases h : p <+: d :: l
    · rw [if_pos h, if_pos (hstarts.2 h)]
      exact .inl rfl
    · rw [if_neg h, if_neg (mt hstarts.1 h)]
      exact ih.imp (congrArg (d :: ·)) (congrArg (d :: ·))

/-! ### A blank at the end -/

theorem trim_concat (hc : isBlank c = true) (l : Line) : trim (l ++ [c]) = trim l := by
  have hend (l : Line) : trimEnd (l ++ [c]) = trimEnd l := by
    rw [trimEnd, List.reverse_append, List.reverse_singleton, List.singleton_append,
      List.dropWhile_cons_of_pos hc, trimEnd]
  rw [trim, trim, trimStart, List.dropWhile_append]
  split
  · rename_i hnil
    rw [trimStart, List.isEmpty_iff.1 hnil, List.dropWhile_cons_of_pos hc]
    rfl
  · exact hend _

/-- The blanks at the start of a line are the same without a character at the end, unless there is
nothing else. -/
theorem indent_concat {d : Char} (hd : isBlank d = false) (hmem : d ∈ l) (c : Char) :
    indent (l ++ [c]) = indent l := by
  rw [indent, List.takeWhile_append, if_neg]
  · rfl
  · intro hlength
    have hall : l.takeWhile isBlank = l := (List.takeWhile_prefix _).eq_of_length hlength
    have hblank := List.all_eq_true.1 List.all_takeWhile d (hall.symm ▸ hmem)
    rw [hd] at hblank
    cases hblank

end Line

/-! ### Calls -/

variable {name target : Line} {previous : Option Char}

theorem callPattern_ne_nil (name : Line) : callPattern name ≠ [] :=
  List.append_ne_nil_of_right_ne_nil _ (List.cons_ne_nil _ _)

theorem Line.IsWord.notMem_callPattern (hname : IsWord name) (hc : isBlank c = true) :
    c ∉ callPattern name := by
  intro hmem
  rcases List.mem_append.1 hmem with hmem | hmem
  · rw [hname.2 c hmem] at hc
    cases hc
  · rw [List.mem_singleton.1 hmem] at hc
    cases hc

theorem isPrefixOf_concat (hc : c ∉ p) (l : Line) : p.isPrefixOf (l ++ [c]) = p.isPrefixOf l := by
  rw [Bool.eq_iff_iff, List.isPrefixOf_iff_prefix, List.isPrefixOf_iff_prefix,
    Line.prefix_concat_iff hc]

theorem isPrefixOf_singleton (hne : p ≠ []) (hc : c ∉ p) : p.isPrefixOf [c] = false := by
  rw [← List.nil_append [c], isPrefixOf_concat hc]
  cases p with
  | nil => exact absurd rfl hne
  | cons d p => rfl

theorem findCallFrom_concat (hne : p ≠ []) (hc : c ∉ p) (previous : Option Char) (skip : Nat)
    (l : Line) : findCallFrom p previous skip (l ++ [c]) = findCallFrom p previous skip l := by
  induction l generalizing previous skip with
  | nil =>
    cases skip with
    | zero => simp [findCallFrom, isPrefixOf_singleton hne hc]
    | succ skip => rfl
  | cons d l ih =>
    have hstarts : p.isPrefixOf (d :: (l ++ [c])) = p.isPrefixOf (d :: l) :=
      isPrefixOf_concat hc (d :: l)
    cases skip with
    | zero => simp only [List.cons_append, findCallFrom, hstarts, ih]
    | succ skip => simp only [List.cons_append, findCallFrom, ih]

/-- A blank at the end of a line is part of no call. -/
theorem hasCall_concat (hname : IsWord name) (hc : isBlank c = true) (l : Line) :
    hasCall (l ++ [c]) name = hasCall l name := by
  rw [hasCall, hasCall, findCall, findCall,
    findCallFrom_concat (callPattern_ne_nil name) (hname.notMem_callPattern hc)]

theorem renameFrom_concat (hc : c ∉ callPattern name) (previous : Option Char) (refused : Nat)
    {replaced : Nat} (hreplaced : replaced ≤ l.length) :
    renameFrom name target previous refused replaced (l ++ [c]) =
      renameFrom name target previous refused replaced l ++ [c] := by
  have hpattern := callPattern_ne_nil name
  induction l generalizing previous refused replaced with
  | nil =>
    obtain rfl := Nat.le_zero.1 hreplaced
    cases refused with
    | zero => simp [renameFrom, isPrefixOf_singleton hpattern hc]
    | succ refused => simp [renameFrom]
  | cons d l ih =>
    have hstarts : (callPattern name).isPrefixOf (d :: (l ++ [c])) =
        (callPattern name).isPrefixOf (d :: l) := isPrefixOf_concat hc (d :: l)
    cases replaced with
    | succ replaced =>
      simp only [List.cons_append, renameFrom]
      exact ih _ _ (Nat.le_of_succ_le_succ hreplaced)
    | zero =>
      have hkeep (refused : Nat) := ih (some d) refused (Nat.zero_le _)
      cases refused with
      | succ refused => simp only [List.cons_append, renameFrom, hkeep]
      | zero =>
        simp only [List.cons_append, renameFrom, hstarts, hkeep]
        split
        · rename_i hcall
          have hlength : name.length - 1 ≤ l.length := by
            have hle := (List.isPrefixOf_iff_prefix.1 hcall).length_le
            simp only [callPattern, List.length_append, List.length_cons] at hle
            omega
          rw [ih none 0 hlength]
          split <;> simp
        · rfl

/-- Behind the characters of a name that is replaced stands a parenthesis. -/
theorem parenthesis_mem_drop (hne : name ≠ []) {d : Char} {rest : Line}
    (h : (callPattern name).isPrefixOf (d :: rest) = true) : '(' ∈ rest.drop (name.length - 1) := by
  obtain ⟨e, tail, rfl⟩ := List.exists_cons_of_ne_nil hne
  obtain ⟨after, hafter⟩ := List.isPrefixOf_iff_prefix.1 h
  have hrest : rest = tail ++ '(' :: after := by
    rw [(List.cons.inj hafter).2.symm]
    simp
  rw [hrest, List.length_cons, Nat.add_sub_cancel, List.drop_left]
  exact List.mem_cons_self

theorem renameFrom_of_nil (name target : Line) (previous : Option Char) (refused replaced : Nat) :
    renameFrom name target previous refused replaced [] = [] := by
  unfold renameFrom
  rfl

/-- **A renamed line ends as before**: a name is replaced only in front of a parenthesis. -/
theorem getLast?_renameFrom (hne : name ≠ []) {refused replaced : Nat} {l : Line}
    (hreplaced : replaced < l.length) :
    (renameFrom name target previous refused replaced l).getLast? = l.getLast? := by
  have hkeep {d : Char} {rest : Line} (previous : Option Char) (refused : Nat)
      (ih : 0 < rest.length →
        (renameFrom name target previous refused 0 rest).getLast? = rest.getLast?) :
      (d :: renameFrom name target previous refused 0 rest).getLast? = (d :: rest).getLast? := by
    cases rest with
    | nil => rw [renameFrom_of_nil]
    | cons e rest => rw [List.getLast?_cons, ih (Nat.zero_lt_succ _), ← List.getLast?_cons]
  fun_induction renameFrom name target previous refused replaced l with
  | case1 => exact absurd hreplaced (Nat.not_lt_zero _)
  | case2 previous refused d rest replaced ih =>
    have hlt : replaced < rest.length := Nat.lt_of_succ_lt_succ hreplaced
    rw [ih hlt]
    cases rest with
    | nil => exact absurd hlt (Nat.not_lt_zero _)
    | cons e rest => rfl
  | case3 previous d rest refused ih => exact hkeep _ _ ih
  | case4 previous d rest hpattern boundary ih =>
    -- what is left of the line is not empty, so it has the same end
    have hlt : name.length - 1 < rest.length := by
      have hpos := List.length_pos_of_mem (parenthesis_mem_drop hne hpattern)
      rw [List.length_drop] at hpos
      omega
    cases rest with
    | nil => exact absurd hlt (Nat.not_lt_zero _)
    | cons e rest =>
      have hend := ih hlt
      rw [List.getLast?_append, hend, List.getLast?_cons_cons, List.getLast?_cons]
      rfl
  | case5 previous d rest hpattern boundary ih => exact hkeep _ _ ih
  | case6 previous d rest hpattern ih => exact hkeep _ _ ih

/-- **A renamed call is still followed by a parenthesis.** -/
theorem parenthesis_mem_renameFrom (hne : name ≠ []) {refused replaced : Nat} {l : Line}
    (h : '(' ∈ l.drop replaced) :
    '(' ∈ renameFrom name target previous refused replaced l := by
  have hkeep {d : Char} {rest rest' : Line} (ih : '(' ∈ rest → '(' ∈ rest')
      (h : '(' ∈ d :: rest) : '(' ∈ d :: rest' := by
    rcases List.mem_cons.1 h with rfl | h
    · exact List.mem_cons_self
    · exact List.mem_cons_of_mem d (ih h)
  fun_induction renameFrom name target previous refused replaced l with
  | case1 previous refused replaced =>
    rw [List.drop_nil] at h
    cases h
  | case2 previous refused d rest replaced ih => exact ih h
  | case3 previous d rest refused ih => exact hkeep ih h
  | case4 previous d rest hpattern boundary ih =>
    exact List.mem_append_right target (ih (parenthesis_mem_drop hne hpattern))
  | case5 previous d rest hpattern boundary ih => exact hkeep ih h
  | case6 previous d rest hpattern ih => exact hkeep ih h

/-! ### Without the carriage return -/

namespace Text

theorem dropReturn_cases (l : Line) : (l.getLast? ≠ some '\r' ∧ dropReturn l = l) ∨
    ∃ m, l = m ++ ['\r'] ∧ dropReturn l = m := by
  by_cases h : l.getLast? = some '\r'
  · obtain ⟨m, rfl⟩ := List.getLast?_eq_some_iff.1 h
    refine .inr ⟨m, rfl, ?_⟩
    rw [dropReturn, if_pos h, List.dropLast_concat]
  · exact .inl ⟨h, if_neg h⟩

/-- What does not see a carriage return at the end of a line does not miss it. -/
theorem apply_dropReturn {α : Type} {f : Line → α} (h : ∀ l, f (l ++ ['\r']) = f l) (l : Line) :
    f (dropReturn l) = f l := by
  obtain ⟨-, hdrop⟩ | ⟨m, rfl, hdrop⟩ := dropReturn_cases l
  · rw [hdrop]
  · rw [hdrop, h]

theorem trim_dropReturn (l : Line) : (dropReturn l).trim = l.trim :=
  apply_dropReturn (Line.trim_concat (by decide)) l

theorem indent_dropReturn {d : Char} (hd : isBlank d = false) (hmem : d ∈ l) :
    (dropReturn l).indent = l.indent := by
  obtain ⟨-, hdrop⟩ | ⟨m, rfl, hdrop⟩ := dropReturn_cases l
  · rw [hdrop]
  · have hm : d ∈ m := by
      rcases List.mem_append.1 hmem with hm | hm
      · exact hm
      · rw [List.mem_singleton.1 hm] at hd
        cases hd
    rw [hdrop, Line.indent_concat hd hm]

end Text

open Text (dropReturn)

theorem hasCall_dropReturn (hname : IsWord name) (l : Line) :
    hasCall (dropReturn l) name = hasCall l name :=
  Text.apply_dropReturn (f := fun l => hasCall l name) (hasCall_concat hname (by decide)) l

theorem hasCall_before_dropReturn (hname : IsWord name) (l : Line) :
    hasCall (Line.before "//".toList (dropReturn l)) name =
      hasCall (Line.before "//".toList l) name := by
  refine Text.apply_dropReturn (f := fun l => hasCall (Line.before "//".toList l) name) ?_ l
  intro l
  rcases Line.before_concat (p := "//".toList) (c := '\r') (by decide) (by decide) l with h | h
  · exact congrArg (hasCall · name) h
  · exact (congrArg (hasCall · name) h).trans (hasCall_concat hname (by decide) _)

/-- **Renaming and dropping the carriage return commute.** -/
theorem renameCall_dropReturn (hname : IsWord name) (l target : Line) :
    renameCall (dropReturn l) name target = dropReturn (renameCall l name target) := by
  simp only [renameCall, if_neg hname.1]
  obtain ⟨hlast, hdrop⟩ | ⟨m, rfl, hdrop⟩ := Text.dropReturn_cases l
  · have hlast' : (renameFrom name target none 0 0 l).getLast? ≠ some '\r' := by
      cases l with
      | nil => rwa [renameFrom_of_nil]
      | cons d l => rwa [getLast?_renameFrom hname.1 (Nat.zero_lt_succ _)]
    rw [hdrop, dropReturn, if_neg hlast']
  · have hc : '\r' ∉ callPattern name := hname.notMem_callPattern (by decide)
    rw [hdrop, renameFrom_concat hc none 0 (Nat.zero_le _), dropReturn, List.getLast?_concat,
      if_pos rfl, List.dropLast_concat]

theorem infix_dropReturn (hne : p ≠ []) (hc : '\r' ∉ p) (h : p <:+: l) : p <:+: dropReturn l := by
  obtain ⟨-, hdrop⟩ | ⟨m, rfl, hdrop⟩ := Text.dropReturn_cases l
  · rwa [hdrop]
  · rwa [hdrop, ← Line.infix_concat_iff hne hc]

theorem IsOrdinary.dropReturn (h : IsOrdinary l) : IsOrdinary (dropReturn l) := by
  obtain ⟨-, hdrop⟩ | ⟨m, rfl, hdrop⟩ := Text.dropReturn_cases l
  · rwa [hdrop]
  · rw [hdrop]
    rintro body ⟨a, b, ha, hb, rfl⟩
    exact h (body ++ ['\r']) ⟨a, b, ha, hb, by simp only [List.append_assoc]⟩

theorem IsDirective.dropReturn {kind : DirectiveKind} (h : IsDirective kind name l) :
    IsDirective kind name (dropReturn l) := by
  obtain ⟨-, hdrop⟩ | ⟨m, rfl, hdrop⟩ := Text.dropReturn_cases l
  · rwa [hdrop]
  rw [hdrop]
  obtain ⟨hname, a, b, c, ha, hb, hne, hc, d, e, hd, he, hl⟩ := h
  -- the carriage return is one of the blanks behind the name
  obtain ⟨c, rfl⟩ : ∃ c', c = c' ++ ['\r'] := by
    have hsplit : m ++ ['\r'] = (d ++ "//".toList ++ e ++ "rec:".toList ++ a ++
        kind.text.toList ++ b ++ name) ++ c := by
      rw [hl]
      simp only [List.append_assoc]
    have hlast := congrArg List.getLast? hsplit
    rw [List.getLast?_concat] at hlast
    rcases List.eq_nil_or_concat c with rfl | ⟨c', x, rfl⟩
    · rw [List.append_nil, List.getLast?_append_of_ne_nil _ hname.1] at hlast
      exact absurd (hname.2 '\r' (List.mem_of_getLast? hlast.symm)) (by decide)
    · rw [List.concat_eq_append, ← List.append_assoc, List.getLast?_concat] at hlast
      rw [List.concat_eq_append, ← Option.some.inj hlast]
      exact ⟨c', rfl⟩
  have hc : AllBlank c := fun x hx => hc x (List.mem_append_left _ hx)
  refine ⟨hname, a, b, c, ha, hb, hne, hc, d, e, hd, he, ?_⟩
  refine (List.append_left_inj ['\r']).1 (hl.trans ?_)
  simp only [List.append_assoc]

/-! ### Layouts with other lines -/

namespace Layout

section MapLines

variable (g : Line → Line)

def Entry.mapLines : Entry → Entry
  | text l => .text (g l)
  | call marker kind callee l => .call (g marker) kind callee (g l)

def Block.mapLines (b : Block) : Block :=
  ⟨g b.opening, b.name, b.entries.map (Entry.mapLines g), g b.closing⟩

def Part.mapLines : Part → Part
  | entry e => .entry (e.mapLines g)
  | block b => .block (b.mapLines g)

/-- The function with other lines in the places of its lines. -/
def Function.mapLines (f : Function) : Function :=
  ⟨g f.marker, f.name, g f.declaration, f.parts.map (Part.mapLines g), g f.closing⟩

theorem Entry.lines_mapLines (e : Entry) : (e.mapLines g).lines = e.lines.map g := by
  cases e <;> rfl

theorem flatMap_lines_mapLines (es : List Entry) :
    (es.map (Entry.mapLines g)).flatMap Entry.lines = (es.flatMap Entry.lines).map g := by
  rw [List.flatMap_map, List.map_flatMap]
  exact List.flatMap_congr fun e _ => e.lines_mapLines g

theorem Part.lines_mapLines (p : Part) : (p.mapLines g).lines = p.lines.map g := by
  cases p with
  | entry e => exact e.lines_mapLines g
  | block b =>
    simp only [Part.mapLines, Part.lines, Block.mapLines, Block.lines, flatMap_lines_mapLines,
      List.map_cons, List.map_append, List.map_nil]

theorem Function.lines_mapLines (f : Function) : (f.mapLines g).lines = f.lines.map g := by
  have hparts : (f.parts.map (Part.mapLines g)).flatMap Part.lines =
      (f.parts.flatMap Part.lines).map g := by
    rw [List.flatMap_map, List.map_flatMap]
    exact List.flatMap_congr fun p _ => p.lines_mapLines g
  simp only [Function.mapLines, Function.lines, hparts, List.map_cons, List.map_append,
    List.map_nil]

theorem Function.kept_mapLines (f : Function) (isLast : Bool) :
    (f.mapLines g).kept isLast = (f.kept isLast).map (Entry.mapLines g) := by
  rw [Function.kept, Function.kept, Function.mapLines, List.flatMap_map, List.map_flatMap]
  refine List.flatMap_congr fun p _ => ?_
  cases p with
  | entry e => rfl
  | block b => cases isLast <;> rfl

theorem Function.entries_mapLines (f : Function) :
    (f.mapLines g).entries = f.entries.map (Entry.mapLines g) := by
  rw [← Function.kept_false, ← Function.kept_false, Function.kept_mapLines]

end MapLines

/-! ### Layouts without carriage returns -/

open Scan (FindsCall)

theorem Entry.valid_dropReturn {e : Entry} {inBlock : Bool} (h : e.Valid FindsCall inBlock) :
    (e.mapLines dropReturn).Valid FindsCall inBlock := by
  cases e with
  | text l => exact IsOrdinary.dropReturn h
  | call marker kind callee l =>
    obtain ⟨hmarker, hordinary, hcalls, hguarded⟩ := h
    have hcalls' : FindsCall (dropReturn l) callee := (hasCall_dropReturn hmarker.1 l).trans hcalls
    exact ⟨hmarker.dropReturn, hordinary.dropReturn, hcalls', hguarded⟩

theorem Part.valid_dropReturn {p : Part} (h : p.Valid FindsCall) :
    (p.mapLines dropReturn).Valid FindsCall := by
  cases p with
  | entry e => exact Entry.valid_dropReturn h
  | block b =>
    obtain ⟨hopening, hentries, hclosing⟩ := h
    refine ⟨hopening.dropReturn, List.forall_mem_map.2 fun e he => ?_, hclosing.dropReturn⟩
    exact Entry.valid_dropReturn (hentries e he)

/-- **A marked function stays one** when its lines lose their carriage returns. -/
theorem Function.valid_dropReturn {f : Function} (h : f.Valid FindsCall) :
    (f.mapLines dropReturn).Valid FindsCall := by
  obtain ⟨hmarker, hdeclaration, hparts, hclosing⟩ := h
  refine ⟨hmarker.dropReturn, infix_dropReturn (by simp) ?_ hdeclaration,
    List.forall_mem_map.2 fun p hp => Part.valid_dropReturn (hparts p hp), hclosing.dropReturn⟩
  rw [List.mem_append, not_or]
  exact ⟨by decide, hmarker.1.notMem_callPattern (by decide)⟩

theorem Entry.emit_dropReturn {e : Entry} {inBlock : Bool} (h : e.Valid FindsCall inBlock)
    (level : Nat) : ((e.mapLines dropReturn).written level).emit =
      dropReturn (e.written level).emit := by
  cases e with
  | text l => rfl
  | call marker kind callee l => exact renameCall_dropReturn h.1.1 l _

/-- **A copy of a function** is written without the carriage returns that the function has lost. -/
theorem Function.emit_dropReturn {f : Function} (h : f.Valid FindsCall) (level : Nat)
    (isLast : Bool) : ((f.mapLines dropReturn).written level isLast).map Written.emit =
      ((f.written level isLast).map Written.emit).map dropReturn := by
  have hdeclaration := renameCall_dropReturn h.marker.1 f.declaration (specializedName f.name level)
  have hbody : (((f.kept isLast).map (Entry.mapLines dropReturn)).map (Entry.written level)).map
      Written.emit =
        (((f.kept isLast).map (Entry.written level)).map Written.emit).map dropReturn := by
    simp only [List.map_map]
    refine List.map_congr_left fun e he => ?_
    obtain ⟨⟨inBlock, hvalid⟩, -⟩ := f.exists_of_mem_kept h he
    exact Entry.emit_dropReturn hvalid level
  rw [Function.written, Function.kept_mapLines]
  simp only [Function.written, List.map_cons, hbody]
  exact congrArg ([] :: · :: _) hdeclaration

end Layout

end RayTracer
