import RayTracer.Proofs.Unroll.Calls

/-!
# Which parts of a line are calls

A name is called where it stands in front of a parenthesis and is not the end of a longer identifier
(`StandsAlone`).  `Renames` says what it means to put another name in all of these places; it says
nothing about a search.

* `Renames.unique` : there is one way to do it.
* `hasCall_iff_standsAlone`, `renames_iff` : **for a name without a parenthesis, `hasCall` finds
  such a place exactly if there is one, and `renameCall` replaces exactly these places.**
* `hasCall_skips_overlap` : a name with a parenthesis may stand alone behind a place where it does
  not, and overlap it.  The search passes over both.

The search and the replacement go through a line in the same way (`CallScan`), so the first two are
inductions on that.
-/

namespace RayTracer

/-- The name stands in front of a parenthesis and is not the end of a longer identifier. -/
def StandsAlone (l name : Line) : Prop :=
  ∃ before after, l = before ++ (name ++ '(' :: after) ∧ isBoundary before.getLast? = true

/-- The line `l`, which stands behind the character `previous`, becomes `l'` if `target` is put in
the place of `name` wherever `name` stands in front of a parenthesis and is not the end of a longer
identifier. -/
inductive Renames (name target : Line) : Option Char → Line → Line → Prop
  | nil (previous : Option Char) : Renames name target previous [] []
  | call {previous : Option Char} {l rest rest' : Line} (here : l = name ++ '(' :: rest)
      (boundary : isBoundary previous = true) (after : Renames name target (some '(') rest rest') :
      Renames name target previous l (target ++ '(' :: rest')
  | other {previous : Option Char} {c : Char} {rest rest' : Line}
      (none : ¬(isBoundary previous = true ∧ callPattern name <+: c :: rest))
      (after : Renames name target (some c) rest rest') :
      Renames name target previous (c :: rest) (c :: rest')

variable {name target : Line} {previous : Option Char}

theorem callPattern_prefix (name rest : Line) : callPattern name <+: name ++ '(' :: rest :=
  ⟨rest, by simp [callPattern]⟩

/-- **There is one way to rename.** -/
theorem Renames.unique {l a b : Line} (ha : Renames name target previous l a)
    (hb : Renames name target previous l b) : a = b := by
  induction ha generalizing b with
  | nil previous =>
    cases hb with
    | nil => rfl
    | call here => simp at here
  | @call previous l rest rest' here boundary _ ih =>
    cases hb with
    | nil => simp at here
    | call here' _ after =>
      rw [here, List.append_cancel_left_eq] at here'
      obtain rfl := (List.cons.inj here').2
      rw [ih after]
    | other none =>
      rw [here] at none
      exact absurd ⟨boundary, callPattern_prefix name rest⟩ none
  | other none _ ih =>
    cases hb with
    | call here boundary =>
      rw [here] at none
      exact absurd ⟨boundary, callPattern_prefix name _⟩ none
    | other _ after => rw [ih after]

/-- What follows the first character of a name that is no call is not changed either. -/
theorem Renames.inside (hname : IsName name) {u rest rest' : Line} (hu : '(' ∉ u)
    (shorter : u.length < name.length) (after : Renames name target (some '(') rest rest') :
    Renames name target previous (u ++ '(' :: rest) (u ++ '(' :: rest') := by
  induction u generalizing previous with
  | nil =>
    have hnone := not_callPattern_prefix hname hu shorter rest
    exact .other (fun h => hnone h.2) after
  | cons c u ih =>
    have hnone := not_callPattern_prefix hname hu shorter rest
    exact .other (fun h => hnone h.2)
      (ih (List.not_mem_of_not_mem_cons hu) (Nat.lt_of_succ_lt shorter))

theorem Renames.tail (hname : IsName name) (boundary : isBoundary previous = false)
    {rest rest' : Line} (after : Renames name target (some '(') rest rest') :
    Renames name target previous (name ++ '(' :: rest) (name ++ '(' :: rest') := by
  have hnot := hname.parenthesis_not_mem
  have hinside (c : Char) {u : Line} (hu : '(' ∉ u) (hshort : u.length < name.length) :
      Renames name target (some c) (u ++ '(' :: rest) (u ++ '(' :: rest') :=
    Renames.inside hname hu hshort after
  obtain ⟨c, u, rfl⟩ := List.exists_cons_of_ne_nil hname.ne_nil
  refine .other ?_ (hinside c (List.not_mem_of_not_mem_cons hnot) (Nat.lt_succ_self _))
  rintro ⟨h, -⟩
  rw [boundary] at h
  cases h

theorem renames_renameFrom (hname : IsName name) (previous : Option Char) (l : Line) :
    Renames name target previous l (renameFrom name target previous 0 0 l) := by
  induction callScan name previous l with
  | nil previous => exact .nil previous
  | call boundary _ ih =>
    rw [renameFrom_call hname boundary]
    exact .call rfl boundary ih
  | tail boundary _ ih =>
    rw [renameFrom_tail hname.ne_nil boundary]
    exact .tail hname boundary ih
  | other none _ ih =>
    rw [renameFrom_other none]
    exact .other (fun h => none h.2) ih

/-- **Exactly the calls are renamed.** -/
theorem renames_iff (hname : IsName name) {l l' : Line} :
    Renames name target none l l' ↔ l' = renameCall l name target := by
  rw [renameCall, if_neg hname.ne_nil]
  constructor
  · intro h
    exact h.unique (renames_renameFrom hname none l)
  · rintro rfl
    exact renames_renameFrom hname none l

/-- **Exactly the calls are found.** -/
theorem hasCall_iff_standsAlone (hname : IsName name) {l : Line} :
    hasCall l name = true ↔ StandsAlone l name :=
  hasCall_iff hname l

/-- Renaming writes no character but those of the line and of the new name. -/
theorem mem_renameFrom {c : Char} {refused replaced : Nat} {l : Line}
    (h : c ∈ renameFrom name target previous refused replaced l) : c ∈ l ∨ c ∈ target := by
  have keep {d : Char} {rest rest' : Line} (ih : c ∈ rest' → c ∈ rest ∨ c ∈ target)
      (h : c ∈ d :: rest') : c ∈ d :: rest ∨ c ∈ target := by
    rcases List.mem_cons.1 h with rfl | h
    · exact .inl List.mem_cons_self
    · exact (ih h).imp_left (List.mem_cons_of_mem d)
  fun_induction renameFrom name target previous refused replaced l with
  | case1 => cases h
  | case2 previous refused d rest replaced ih => exact (ih h).imp_left (List.mem_cons_of_mem d)
  | case3 previous d rest refused ih => exact keep ih h
  | case4 previous d rest hpattern boundary ih =>
    rcases List.mem_append.1 h with h | h
    · exact .inr h
    · exact (ih h).imp_left (List.mem_cons_of_mem d)
  | case5 previous d rest hpattern boundary ih => exact keep ih h
  | case6 previous d rest hpattern ih => exact keep ih h

theorem mem_renameCall {c : Char} {l : Line} (h : c ∈ renameCall l name target) :
    c ∈ l ∨ c ∈ target := by
  unfold renameCall at h
  split at h
  · exact .inl h
  · exact mem_renameFrom h

/-- A name with a parenthesis of its own is not found where it stands alone, if that place overlaps
one where it is the end of a longer identifier. -/
theorem hasCall_skips_overlap :
    StandsAlone "xa(a(a(".toList "a(a".toList ∧ hasCall "xa(a(a(".toList "a(a".toList = false := by
  refine ⟨⟨"xa(".toList, [], ?_, ?_⟩, ?_⟩ <;> decide +kernel

end RayTracer
