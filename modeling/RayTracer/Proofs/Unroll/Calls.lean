import RayTracer.Proofs.Text.Line
import RayTracer.Unroll.Call

/-!
# Finding and renaming calls

`findCall` and `renameCall` go through a line in the same way (`CallScan`): where they find the name
with a parenthesis they pass over both, whether it is a call or the end of a longer identifier, and
everything else they pass over one character at a time.  The equations beside `CallScan` say what
they do at each of these places.

For names without a parenthesis of their own:

* `hasCall_iff` : a call is found exactly if the name stands in front of a parenthesis and no
  identifier character stands in front of the name.

For names that are identifiers:

* `hasCall_of_hasCall_renameCall` : **renaming calls leaves no call of the old name and makes none
  but of the new one.**
* `before_comment_renameCall` : it makes no difference whether a comment is cut off before or after
  renaming.
-/

namespace RayTracer

/-- A name made of identifier characters. -/
structure IsIdentifier (name : Line) : Prop where
  ne_nil : name ≠ []
  chars : ∀ c ∈ name, isIdentifierChar c = true

instance (name : Line) : Decidable (IsIdentifier name) :=
  decidable_of_iff (name ≠ [] ∧ name.all isIdentifierChar = true)
    ⟨fun h => ⟨h.1, List.all_eq_true.1 h.2⟩, fun h => ⟨h.1, List.all_eq_true.2 h.2⟩⟩

namespace IsIdentifier

variable {name : Line}

theorem not_mem {c : Char} (h : IsIdentifier name) (hc : isIdentifierChar c = false) :
    c ∉ name := by
  intro hmem
  rw [h.chars c hmem] at hc
  cases hc

theorem parenthesis_not_mem (h : IsIdentifier name) : '(' ∉ name := h.not_mem (by decide)

theorem exists_cons (h : IsIdentifier name) :
    ∃ c rest, name = c :: rest ∧ isIdentifierChar c = true := by
  obtain ⟨c, rest, rfl⟩ := List.exists_cons_of_ne_nil h.ne_nil
  exact ⟨c, rest, rfl, h.chars c List.mem_cons_self⟩

end IsIdentifier

/-- A name whose calls do not overlap, because the only parenthesis in them is the one that ends
them. -/
structure IsName (name : Line) : Prop where
  ne_nil : name ≠ []
  parenthesis_not_mem : '(' ∉ name

instance (name : Line) : Decidable (IsName name) :=
  decidable_of_iff (name ≠ [] ∧ '(' ∉ name) ⟨fun h => ⟨h.1, h.2⟩, fun h => ⟨h.1, h.2⟩⟩

theorem IsIdentifier.isName {name : Line} (h : IsIdentifier name) : IsName name :=
  ⟨h.ne_nil, h.parenthesis_not_mem⟩

/-- Two names in front of the first parenthesis are the same. -/
theorem callPattern_prefix_iff {g u b : Line} (hg : '(' ∉ g) (hu : '(' ∉ u) :
    callPattern g <+: u ++ '(' :: b ↔ g = u := by
  constructor
  · rintro ⟨t, ht⟩
    rw [callPattern, List.append_assoc, List.singleton_append] at ht
    rcases List.append_eq_append_iff.1 ht with ⟨v, hv, ht⟩ | ⟨v, hv, ht⟩
    · cases v with
      | nil => simpa using hv.symm
      | cons c v =>
        obtain ⟨rfl, -⟩ := List.cons.inj ht
        exact absurd (by simp [hv]) hu
    · cases v with
      | nil => simpa using hv
      | cons c v =>
        obtain ⟨rfl, -⟩ := List.cons.inj ht
        exact absurd (by simp [hv]) hg
  · rintro rfl
    exact ⟨b, by simp [callPattern]⟩

/-! ### Going through a line -/

/-- The places of a line where a call of `name` is looked for, the character `previous` standing
before it. -/
inductive CallScan (name : Line) : Option Char → Line → Prop
  | nil (previous : Option Char) : CallScan name previous []
  /-- A call. -/
  | call {previous : Option Char} {rest : Line} (boundary : isBoundary previous = true)
      (after : CallScan name (some '(') rest) : CallScan name previous (name ++ '(' :: rest)
  /-- The end of a longer identifier. -/
  | tail {previous : Option Char} {rest : Line} (boundary : isBoundary previous = false)
      (after : CallScan name (some '(') rest) : CallScan name previous (name ++ '(' :: rest)
  /-- A character where the name does not stand in front of a parenthesis. -/
  | other {previous : Option Char} {c : Char} {rest : Line}
      (none : ¬callPattern name <+: c :: rest) (after : CallScan name (some c) rest) :
      CallScan name previous (c :: rest)

/-- Every line can be gone through. -/
theorem callScan (name : Line) (previous : Option Char) (l : Line) :
    CallScan name previous l := by
  -- on the length, because a whole name may be passed over at once
  induction hn : l.length using Nat.strongRecOn generalizing previous l with
  | ind n ih =>
    cases l with
    | nil => exact .nil previous
    | cons c rest =>
      rw [List.length_cons] at hn
      by_cases h : callPattern name <+: c :: rest
      · obtain ⟨after, hl⟩ := h
        rw [callPattern, List.append_assoc, List.singleton_append] at hl
        have hlength := congrArg List.length hl
        simp only [List.length_append, List.length_cons] at hlength
        have scan : CallScan name (some '(') after := ih _ (by omega) _ _ rfl
        rw [← hl]
        cases hb : isBoundary previous with
        | true => exact .call hb scan
        | false => exact .tail hb scan
      · exact .other h (ih _ (by omega) _ _ rfl)

/-! ### Finding -/

section Find

variable {name : Line} {previous : Option Char}

theorem findCallFrom_skip (pattern : Line) (previous : Option Char) (x l : Line) :
    findCallFrom pattern previous x.length (x ++ l) =
      (findCallFrom pattern (x.getLast?.or previous) 0 l).map (· + x.length) := by
  induction x generalizing previous with
  | nil => simp
  | cons c x ih =>
    rw [List.cons_append, List.length_cons, findCallFrom, ih, Option.map_map]
    rw [List.getLast?_cons]
    cases x.getLast? <;> rfl

theorem findCallFrom_call (hname : name ≠ []) (boundary : isBoundary previous = true)
    (rest : Line) : findCallFrom (callPattern name) previous 0 (name ++ '(' :: rest) = some 0 := by
  obtain ⟨c, tail, rfl⟩ := List.exists_cons_of_ne_nil hname
  have hpattern : (callPattern (c :: tail)).isPrefixOf (c :: (tail ++ '(' :: rest)) = true :=
    List.isPrefixOf_iff_prefix.2 ⟨rest, by simp [callPattern]⟩
  rw [List.cons_append, findCallFrom, if_pos hpattern, if_pos boundary]

theorem findCallFrom_tail (hname : name ≠ []) (boundary : isBoundary previous = false)
    (rest : Line) :
    findCallFrom (callPattern name) previous 0 (name ++ '(' :: rest) =
      (findCallFrom (callPattern name) (some '(') 0 rest).map (· + (name.length + 1)) := by
  obtain ⟨c, tail, rfl⟩ := List.exists_cons_of_ne_nil hname
  have hpattern : (callPattern (c :: tail)).isPrefixOf (c :: (tail ++ '(' :: rest)) = true :=
    List.isPrefixOf_iff_prefix.2 ⟨rest, by simp [callPattern]⟩
  have hskip := findCallFrom_skip (callPattern (c :: tail)) (some c) (tail ++ ['(']) rest
  rw [List.cons_append, findCallFrom, if_pos hpattern, if_neg (by simp [boundary])]
  have hlength : (callPattern (c :: tail)).length - 1 = (tail ++ ['(']).length := by
    simp [callPattern]
  have hline : tail ++ '(' :: rest = tail ++ ['('] ++ rest := by simp
  rw [hlength, hline, hskip, Option.map_map, List.getLast?_concat]
  simp [Function.comp_def, Nat.add_assoc]

theorem findCallFrom_other {c : Char} {rest : Line} (none : ¬callPattern name <+: c :: rest) :
    findCallFrom (callPattern name) previous 0 (c :: rest) =
      (findCallFrom (callPattern name) (some c) 0 rest).map (· + 1) := by
  have hpattern : ¬(callPattern name).isPrefixOf (c :: rest) = true := by
    rwa [List.isPrefixOf_iff_prefix]
  rw [findCallFrom, if_neg hpattern]

/-- The name stands in front of a parenthesis, and no identifier character stands in front of it;
the character `previous` stands before the line. -/
def CallsAfter (previous : Option Char) (l name : Line) : Prop :=
  ∃ before after, l = before ++ (name ++ '(' :: after) ∧
    isBoundary (before.getLast?.or previous) = true

theorem callsAfter_cons {c : Char} {rest : Line} :
    CallsAfter previous (c :: rest) name ↔
      (isBoundary previous = true ∧ callPattern name <+: c :: rest) ∨
        CallsAfter (some c) rest name := by
  have hlast (before : Line) :
      (c :: before).getLast?.or previous = before.getLast?.or (some c) := by
    rw [List.getLast?_cons]
    cases before.getLast? <;> rfl
  constructor
  · rintro ⟨before, after, hl, boundary⟩
    cases before with
    | nil => exact .inl ⟨boundary, after, by simp [hl, callPattern]⟩
    | cons d before =>
      obtain ⟨rfl, hrest⟩ := List.cons.inj hl
      rw [hlast] at boundary
      exact .inr ⟨before, after, hrest, boundary⟩
  · rintro (⟨boundary, after, hl⟩ | ⟨before, after, hrest, boundary⟩)
    · exact ⟨[], after, by simp [← hl, callPattern], boundary⟩
    · exact ⟨c :: before, after, by rw [hrest, List.cons_append], by rwa [hlast]⟩

theorem not_callsAfter_nil (name : Line) : ¬CallsAfter previous [] name := by
  rintro ⟨before, after, hl, -⟩
  simp at hl

/-- In the rest of an identifier there is no call. -/
theorem callsAfter_rest {u rest : Line} (hu : ∀ c ∈ u, isIdentifierChar c = true)
    (inside : isBoundary previous = false) :
    CallsAfter previous (u ++ '(' :: rest) name ↔ CallsAfter (some '(') rest name := by
  induction u generalizing previous with
  | nil => simp [callsAfter_cons, inside]
  | cons c u ih =>
    have hc : isBoundary (some c) = false := by simp [isBoundary, hu c List.mem_cons_self]
    rw [List.cons_append, callsAfter_cons, inside,
      ih (fun d hd => hu d (List.mem_cons_of_mem c hd)) hc]
    simp

/-- An identifier in front of a parenthesis is a call of itself, if it has no identifier character
in front of it. -/
theorem callsAfter_identifier {u rest : Line} (hu : IsIdentifier u) (hname : IsIdentifier name) :
    CallsAfter previous (u ++ '(' :: rest) name ↔
      (name = u ∧ isBoundary previous = true) ∨ CallsAfter (some '(') rest name := by
  have hpattern : callPattern name <+: u ++ '(' :: rest ↔ name = u :=
    callPattern_prefix_iff hname.parenthesis_not_mem hu.parenthesis_not_mem
  obtain ⟨c, tail, rfl, hc⟩ := hu.exists_cons
  have inside : isBoundary (some c) = false := by simp [isBoundary, hc]
  rw [List.cons_append] at hpattern ⊢
  rw [callsAfter_cons, hpattern,
    callsAfter_rest (fun d hd => hu.chars d (List.mem_cons_of_mem c hd)) inside,
    and_comm]

/-- A call of a name does not start in the rest of the name. -/
theorem not_callPattern_prefix (hname : IsName name) {u : Line} (hu : '(' ∉ u)
    (shorter : u.length < name.length) (rest : Line) : ¬callPattern name <+: u ++ '(' :: rest := by
  rw [callPattern_prefix_iff hname.parenthesis_not_mem hu]
  rintro rfl
  exact Nat.lt_irrefl _ shorter

theorem callsAfter_inside (hname : IsName name) {u rest : Line} (hu : '(' ∉ u)
    (shorter : u.length < name.length) :
    CallsAfter previous (u ++ '(' :: rest) name ↔ CallsAfter (some '(') rest name := by
  induction u generalizing previous with
  | nil =>
    have hnone := not_callPattern_prefix hname hu shorter rest
    rw [List.nil_append] at hnone ⊢
    simp only [callsAfter_cons, hnone, and_false, false_or]
  | cons c u ih =>
    have hnone := not_callPattern_prefix hname hu shorter rest
    rw [List.cons_append] at hnone ⊢
    rw [callsAfter_cons, ih (List.not_mem_of_not_mem_cons hu) (Nat.lt_of_succ_lt shorter)]
    simp only [hnone, and_false, false_or]

/-- Where the name ends a longer identifier, no call of it starts in it. -/
theorem callsAfter_tail (hname : IsName name) (boundary : isBoundary previous = false)
    (rest : Line) :
    CallsAfter previous (name ++ '(' :: rest) name ↔ CallsAfter (some '(') rest name := by
  have hnot := hname.parenthesis_not_mem
  have hinside (c : Char) {u : Line} (hu : '(' ∉ u) (hshort : u.length < name.length) :
      CallsAfter (some c) (u ++ '(' :: rest) name ↔ CallsAfter (some '(') rest name :=
    callsAfter_inside hname hu hshort
  obtain ⟨c, u, rfl⟩ := List.exists_cons_of_ne_nil hname.ne_nil
  rw [List.cons_append, callsAfter_cons,
    hinside c (List.not_mem_of_not_mem_cons hnot) (Nat.lt_succ_self _)]
  simp only [boundary, Bool.false_eq_true, false_and, false_or]

theorem isSome_findCallFrom (hname : IsName name) (previous : Option Char) (l : Line) :
    (findCallFrom (callPattern name) previous 0 l).isSome = true ↔ CallsAfter previous l name := by
  induction callScan name previous l with
  | nil previous => simp [findCallFrom, not_callsAfter_nil]
  | call boundary _ _ =>
    rw [findCallFrom_call hname.ne_nil boundary]
    exact iff_of_true rfl ⟨[], _, rfl, boundary⟩
  | tail boundary _ ih =>
    rw [findCallFrom_tail hname.ne_nil boundary, callsAfter_tail hname boundary,
      Option.isSome_map, ih]
  | other none _ ih =>
    rw [findCallFrom_other none, callsAfter_cons, Option.isSome_map, ih]
    simp [none]

end Find

/-- **A call is found exactly where the name stands as a whole in front of a parenthesis.** -/
theorem hasCall_iff {name : Line} (hname : IsName name) (l : Line) :
    hasCall l name = true ↔
      ∃ before after, l = before ++ (name ++ '(' :: after) ∧
        isBoundary before.getLast? = true := by
  rw [hasCall, findCall, isSome_findCallFrom hname, CallsAfter]
  simp only [Option.or_none]

/-! ### Renaming -/

section Rename

variable {name target : Line} {previous : Option Char}

theorem renameFrom_refused (previous : Option Char) (x l : Line) :
    renameFrom name target previous x.length 0 (x ++ l) =
      x ++ renameFrom name target (x.getLast?.or previous) 0 0 l := by
  induction x generalizing previous with
  | nil => simp
  | cons c x ih =>
    rw [List.cons_append, List.length_cons, renameFrom, ih, List.getLast?_cons, List.cons_append]
    cases x.getLast? <;> rfl

theorem renameFrom_replaced (x l : Line) :
    renameFrom name target none 0 x.length (x ++ l) = renameFrom name target none 0 0 l := by
  induction x with
  | nil => rfl
  | cons c x ih => rw [List.cons_append, List.length_cons, renameFrom, ih]

theorem renameFrom_nil : renameFrom name target previous 0 0 [] = [] := rfl

theorem renameFrom_other {c : Char} {rest : Line} (none : ¬callPattern name <+: c :: rest) :
    renameFrom name target previous 0 0 (c :: rest) =
      c :: renameFrom name target (some c) 0 0 rest := by
  have hpattern : ¬(callPattern name).isPrefixOf (c :: rest) = true := by
    rwa [List.isPrefixOf_iff_prefix]
  rw [renameFrom, if_neg hpattern]

theorem renameFrom_call (hname : IsName name) (boundary : isBoundary previous = true)
    (rest : Line) :
    renameFrom name target previous 0 0 (name ++ '(' :: rest) =
      target ++ '(' :: renameFrom name target (some '(') 0 0 rest := by
  have hnot := hname.parenthesis_not_mem
  obtain ⟨c, tail, rfl⟩ := List.exists_cons_of_ne_nil hname.ne_nil
  have hpattern : (callPattern (c :: tail)).isPrefixOf (c :: (tail ++ '(' :: rest)) = true :=
    List.isPrefixOf_iff_prefix.2 ⟨rest, by simp [callPattern]⟩
  -- the parenthesis does not start the name
  have hother : ¬callPattern (c :: tail) <+: '(' :: rest := by
    intro h
    obtain ⟨t, ht⟩ := h
    obtain ⟨rfl, -⟩ := List.cons.inj ht
    exact hnot List.mem_cons_self
  rw [List.cons_append, renameFrom, if_pos hpattern, if_pos boundary, List.length_cons,
    Nat.add_sub_cancel, renameFrom_replaced, renameFrom_other hother]

theorem renameFrom_tail (hname : name ≠ []) (boundary : isBoundary previous = false)
    (rest : Line) :
    renameFrom name target previous 0 0 (name ++ '(' :: rest) =
      name ++ '(' :: renameFrom name target (some '(') 0 0 rest := by
  obtain ⟨c, tail, rfl⟩ := List.exists_cons_of_ne_nil hname
  have hpattern : (callPattern (c :: tail)).isPrefixOf (c :: (tail ++ '(' :: rest)) = true :=
    List.isPrefixOf_iff_prefix.2 ⟨rest, by simp [callPattern]⟩
  rw [List.cons_append, renameFrom, if_pos hpattern, if_neg (by simp [boundary])]
  have hlength : (c :: tail).length = (tail ++ ['(']).length := by simp
  have hline : tail ++ '(' :: rest = tail ++ ['('] ++ rest := by simp
  rw [hlength, hline, renameFrom_refused, List.getLast?_concat]
  simp

/-- The rest of an identifier is not changed. -/
theorem prefix_of_prefix_renameFrom (hname : IsIdentifier name) {u l : Line}
    (hu : ∀ c ∈ u, isIdentifierChar c = true) (inside : isBoundary previous = false)
    (h : u ++ ['('] <+: renameFrom name target previous 0 0 l) : u ++ ['('] <+: l := by
  -- inside an identifier no call starts, so each character of it is passed over as it is
  have hnot : '(' ∉ u := by
    intro hmem
    exact absurd (hu _ hmem) (by decide)
  induction callScan name previous l generalizing u with
  | nil previous => exact h
  | call boundary _ _ =>
    rw [inside] at boundary
    cases boundary
  | tail boundary _ _ =>
    rw [renameFrom_tail hname.ne_nil boundary] at h
    obtain rfl := (callPattern_prefix_iff hnot hname.parenthesis_not_mem).1 h
    exact (callPattern_prefix_iff hnot hnot).2 rfl
  | @other _ c rest none _ ih =>
    rw [renameFrom_other none] at h
    cases u with
    | nil => simpa using h
    | cons d u =>
      obtain ⟨rfl, h⟩ := List.cons_prefix_cons.1 h
      have hc : isBoundary (some d) = false := by simp [isBoundary, hu d List.mem_cons_self]
      have hrest := ih (fun e he => hu e (List.mem_cons_of_mem d he)) hc h
        (fun he => hnot (List.mem_cons_of_mem d he))
      exact List.cons_prefix_cons.2 ⟨rfl, hrest⟩

theorem callsAfter_of_callsAfter_renameFrom {g : Line} (hname : IsIdentifier name)
    (htarget : IsIdentifier target) (hg : IsIdentifier g) (l : Line)
    (h : CallsAfter previous (renameFrom name target previous 0 0 l) g) :
    g = target ∨ (g ≠ name ∧ CallsAfter previous l g) := by
  induction callScan name previous l with
  | nil previous => exact absurd h (not_callsAfter_nil g)
  | call boundary _ ih =>
    rw [renameFrom_call hname.isName boundary, callsAfter_identifier htarget hg] at h
    rcases h with ⟨heq, -⟩ | h
    · exact .inl heq
    · rw [callsAfter_identifier hname hg]
      rcases ih h with heq | ⟨hne, hrest⟩
      · exact .inl heq
      · exact .inr ⟨hne, .inr hrest⟩
  | tail boundary _ ih =>
    rw [renameFrom_tail hname.ne_nil boundary, callsAfter_identifier hname hg] at h
    rcases h with ⟨-, hb⟩ | h
    · rw [boundary] at hb
      cases hb
    · rw [callsAfter_identifier hname hg]
      rcases ih h with heq | ⟨hne, hrest⟩
      · exact .inl heq
      · exact .inr ⟨hne, .inr hrest⟩
  | @other previous c rest none _ ih =>
    rw [renameFrom_other none, callsAfter_cons] at h
    rw [callsAfter_cons]
    rcases h with ⟨boundary, hpattern⟩ | h
    · -- the call starts here, so its name was here before
      obtain ⟨d, tail, rfl, hd⟩ := hg.exists_cons
      obtain ⟨rfl, htail⟩ := List.cons_prefix_cons.1 hpattern
      have hc : isBoundary (some d) = false := by simp [isBoundary, hd]
      have hrest : callPattern (d :: tail) <+: d :: rest :=
        List.cons_prefix_cons.2 ⟨rfl, prefix_of_prefix_renameFrom hname
          (fun e he => hg.chars e (List.mem_cons_of_mem d he)) hc htail⟩
      refine .inr ⟨?_, .inl ⟨boundary, hrest⟩⟩
      intro heq
      rw [heq] at hrest
      exact none hrest
    · rcases ih h with heq | ⟨hne, hrest⟩
      · exact .inl heq
      · exact .inr ⟨hne, .inr hrest⟩

/-- A slash stands at the start before renaming exactly if it does afterwards. -/
theorem slash_prefix_renameFrom (hname : IsIdentifier name) (htarget : IsIdentifier target)
    (l : Line) : ['/'] <+: renameFrom name target previous 0 0 l ↔ ['/'] <+: l := by
  have hnot {u : Line} (hu : IsIdentifier u) (rest : Line) : ¬['/'] <+: u ++ rest := by
    obtain ⟨c, tail, rfl, hc⟩ := hu.exists_cons
    intro h
    rw [List.cons_append] at h
    obtain ⟨rfl, -⟩ := List.cons_prefix_cons.1 h
    exact absurd hc (by decide)
  cases callScan name previous l with
  | nil _ => rfl
  | call boundary _ =>
    rw [renameFrom_call hname.isName boundary]
    exact iff_of_false (hnot htarget _) (hnot hname _)
  | tail boundary _ =>
    rw [renameFrom_tail hname.ne_nil boundary]
    exact iff_of_false (hnot hname _) (hnot hname _)
  | other none _ =>
    rw [renameFrom_other none]
    simp [List.cons_prefix_cons]

/-- No comment starts in front of a call's parenthesis. -/
theorem before_comment_call {u : Line} (hu : IsIdentifier u) (rest : Line) :
    Line.before "//".toList (u ++ '(' :: rest) = u ++ '(' :: Line.before "//".toList rest := by
  have hslash : '/' ∉ u ++ ['('] := by simp [hu.not_mem (c := '/') (by decide)]
  have hcut : Line.before ['/', '/'] (u ++ ['('] ++ rest) = _ := Line.before_append hslash rest
  simpa using hcut

theorem before_renameFrom (hname : IsIdentifier name) (htarget : IsIdentifier target) (l : Line) :
    Line.before "//".toList (renameFrom name target previous 0 0 l) =
      renameFrom name target previous 0 0 (Line.before "//".toList l) := by
  induction callScan name previous l with
  | nil previous => rfl
  | call boundary _ ih =>
    rw [renameFrom_call hname.isName boundary, before_comment_call htarget,
      before_comment_call hname, renameFrom_call hname.isName boundary, ih]
  | tail boundary _ ih =>
    rw [renameFrom_tail hname.ne_nil boundary, before_comment_call hname, before_comment_call hname,
      renameFrom_tail hname.ne_nil boundary, ih]
  | @other previous c rest none _ ih =>
    -- a comment starts here after renaming exactly if it did before
    have hcut : "//".toList <+: c :: renameFrom name target (some c) 0 0 rest ↔
        "//".toList <+: c :: rest := by
      have hslashes : "//".toList = ['/', '/'] := rfl
      rw [hslashes, List.cons_prefix_cons, List.cons_prefix_cons,
        slash_prefix_renameFrom hname htarget]
    rw [renameFrom_other none, Line.before_cons, Line.before_cons]
    by_cases h : "//".toList <+: c :: rest
    · rw [if_pos (hcut.2 h), if_pos h, renameFrom_nil]
    · have hnone : ¬callPattern name <+: c :: Line.before "//".toList rest := by
        intro hpattern
        exact none (hpattern.trans (List.cons_prefix_cons.2 ⟨rfl, Line.before_prefix _ rest⟩))
      rw [if_neg (fun hc => h (hcut.1 hc)), if_neg h, renameFrom_other hnone, ih]

end Rename

/-- **It makes no difference whether a comment is cut off before or after renaming.** -/
theorem before_comment_renameCall {name target : Line} (hname : IsIdentifier name)
    (htarget : IsIdentifier target) (l : Line) :
    Line.before "//".toList (renameCall l name target) =
      renameCall (Line.before "//".toList l) name target := by
  rw [renameCall, if_neg hname.ne_nil, renameCall, if_neg hname.ne_nil]
  exact before_renameFrom hname htarget l

/-- **Renaming leaves no call of the old name and makes none but of the new one.** -/
theorem hasCall_of_hasCall_renameCall {name target g : Line} (hname : IsIdentifier name)
    (htarget : IsIdentifier target) (hg : IsIdentifier g) {l : Line}
    (h : hasCall (renameCall l name target) g = true) :
    g = target ∨ (g ≠ name ∧ hasCall l g = true) := by
  rw [renameCall, if_neg hname.ne_nil] at h
  rw [hasCall, findCall, isSome_findCallFrom hg.isName] at h ⊢
  exact callsAfter_of_callsAfter_renameFrom hname htarget hg l h

end RayTracer
