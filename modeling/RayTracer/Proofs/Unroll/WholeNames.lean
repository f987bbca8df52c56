import Mathlib.Data.List.SplitBy
import Mathlib.Data.Nat.Find
import RayTracer.Proofs.Unroll.Calls

/-!
# Calls are whole names

A line is cut into its longest runs of identifier characters, every other character by itself
(`runs`).  A name made of identifier characters is called at those runs that are equal to it and
that a parenthesis follows (`CalledAt`).

* `runs_eq_iff` : there is one way to cut a line.
* `findCall_eq_some_iff`, `renameCall_eq` : the first call is found where the first such run starts,
  and renaming puts the new name in the place of each of them.
* `Replaces` : renaming as a loop that replaces the first call and goes on behind the name.
  `replaces_iff` : the loop comes to an end, and with the line that `renameCall` gives.
* `renameCall_wholeNames` : **all of this in one statement.**

The search and the replacement pass over an identifier at once (`findCallFrom_identifier`,
`renameFrom_identifier`), even if the name and a parenthesis are found at its end and refused there.
So a line is gone through run by run (`RunScan`).
-/

namespace RayTracer

variable {name target : Line} {previous : Option Char}

/-! ### The runs of a line -/

/-- The longest runs of identifier characters of a line, and every other character by itself. -/
def runs (l : Line) : List Line := l.splitBy fun c d => isIdentifierChar c && isIdentifierChar d

/-- A run of identifier characters, or one character of another kind. -/
def IsRun (run : Line) : Prop := IsIdentifier run ∨ ∃ c, run = [c] ∧ isIdentifierChar c = false

theorem runs_of_isRun {run : Line} (h : IsRun run) : runs run = [run] := by
  rcases h with h | ⟨c, rfl, -⟩
  · have hall : run.Pairwise fun c d => (isIdentifierChar c && isIdentifierChar d) = true := by
      rw [List.pairwise_iff_forall_sublist]
      intro c d hsub
      rw [h.chars c (hsub.subset (by simp)), h.chars d (hsub.subset (by simp)), Bool.and_self]
    exact List.splitBy_of_isChain h.ne_nil hall.isChain
  · rfl

/-- A line is cut in front of a character that belongs to no identifier. -/
theorem runs_append_cons {c : Char} (hc : isIdentifierChar c = false) (l rest : Line) :
    runs (l ++ c :: rest) = runs l ++ runs (c :: rest) :=
  List.splitBy_append_cons rest fun d _ => by rw [hc, Bool.and_false]

/-- And behind it. -/
theorem runs_cons {c : Char} (hc : isIdentifierChar c = false) (rest : Line) :
    runs (c :: rest) = [c] :: runs rest :=
  List.splitBy_append (l := [c]) fun d hd e _ => by
    obtain rfl : c = d := by simpa using hd
    rw [hc, Bool.false_and]

theorem runs_identifier {u : Line} (hu : IsIdentifier u) {c : Char}
    (hc : isIdentifierChar c = false) (rest : Line) :
    runs (u ++ c :: rest) = u :: [c] :: runs rest := by
  rw [runs_append_cons hc, runs_of_isRun (.inl hu), runs_cons hc, List.singleton_append]

/-- The runs of a line, one after the other. -/
inductive RunScan : Line → Prop
  | nil : RunScan []
  /-- A character that belongs to no identifier. -/
  | other {c : Char} {rest : Line} (hc : isIdentifierChar c = false) (after : RunScan rest) :
      RunScan (c :: rest)
  /-- An identifier at the end of the line. -/
  | last {u : Line} (hu : IsIdentifier u) : RunScan u
  /-- An identifier and the character that ends it. -/
  | identifier {u rest : Line} {c : Char} (hu : IsIdentifier u) (hc : isIdentifierChar c = false)
      (after : RunScan rest) : RunScan (u ++ c :: rest)

/-- Every line can be gone through. -/
theorem runScan (l : Line) : RunScan l := by
  induction hn : l.length using Nat.strongRecOn generalizing l with
  | ind n ih =>
    have hsplit := List.takeWhile_append_dropWhile (p := isIdentifierChar) (l := l)
    have hchars : ∀ c ∈ l.takeWhile isIdentifierChar, isIdentifierChar c = true :=
      fun c hc => List.all_eq_true.1 List.all_takeWhile c hc
    cases hdrop : l.dropWhile isIdentifierChar with
    | nil =>
      rw [hdrop, List.append_nil] at hsplit
      rw [hsplit] at hchars
      by_cases hl : l = []
      · rw [hl]
        exact .nil
      · exact .last ⟨hl, hchars⟩
    | cons c rest =>
      have hc : isIdentifierChar c = false := by
        have hhead := List.head_dropWhile_not isIdentifierChar (l := l) (by simp [hdrop])
        simpa [hdrop] using hhead
      rw [hdrop] at hsplit
      have hlength := congrArg List.length hsplit
      rw [List.length_append, List.length_cons] at hlength
      have after : RunScan rest := ih rest.length (by omega) rest rfl
      rw [← hsplit]
      by_cases hu : l.takeWhile isIdentifierChar = []
      · rw [hu]
        exact .other hc after
      · exact .identifier ⟨hu, hchars⟩ hc after

theorem not_isIdentifier_singleton {c : Char} (hc : isIdentifierChar c = false) :
    ¬IsIdentifier [c] := fun h => h.not_mem hc (List.mem_singleton_self c)

/-- **A line is cut into runs in one way such that no two identifiers touch.** -/
theorem runs_eq_iff {l : Line} {rs : List Line} :
    runs l = rs ↔ rs.flatten = l ∧ (∀ run ∈ rs, IsRun run) ∧
      rs.IsChain fun a b => ¬(IsIdentifier a ∧ IsIdentifier b) := by
  constructor
  · rintro rfl
    refine ⟨List.flatten_splitBy _ l, ?_⟩
    induction runScan l with
    | nil => exact ⟨List.forall_mem_nil _, List.isChain_nil⟩
    | @other c rest hc _ ih =>
      rw [runs_cons hc, List.forall_mem_cons, List.isChain_cons]
      exact ⟨⟨.inr ⟨c, rfl, hc⟩, ih.1⟩, fun _ _ h => not_isIdentifier_singleton hc h.1, ih.2⟩
    | last hu =>
      rw [runs_of_isRun (.inl hu), List.forall_mem_singleton]
      exact ⟨.inl hu, List.isChain_singleton _⟩
    | @identifier u rest c hu hc _ ih =>
      have hother := not_isIdentifier_singleton hc
      rw [runs_identifier hu hc, List.forall_mem_cons, List.forall_mem_cons, List.isChain_cons_cons,
        List.isChain_cons]
      exact ⟨⟨.inl hu, .inr ⟨c, rfl, hc⟩, ih.1⟩, fun h => hother h.2, fun _ _ h => hother h.1, ih.2⟩
  · rintro ⟨rfl, hrun, hchain⟩
    induction rs with
    | nil => rfl
    | cons run rs ih =>
      obtain ⟨hrun, hrest⟩ := List.forall_mem_cons.1 hrun
      have hruns := ih hrest hchain.tail
      rw [List.flatten_cons]
      rcases hrun with hu | ⟨c, rfl, hc⟩
      · cases rs with
        | nil => rw [List.flatten_nil, List.append_nil, runs_of_isRun (.inl hu)]
        | cons next rs =>
          -- an identifier touches no other one, so a single character follows
          obtain ⟨c, rfl, hc⟩ := (hrest next List.mem_cons_self).resolve_left fun h =>
            (List.isChain_cons_cons.1 hchain).1 ⟨hu, h⟩
          rw [List.flatten_cons, List.singleton_append] at hruns ⊢
          rw [runs_append_cons hc, hruns, runs_of_isRun (.inl hu), List.singleton_append]
      · rw [List.singleton_append, runs_cons hc, hruns]

/-! ### The calls of a name -/

/-- The run with the number `k` is the name, and a parenthesis follows. -/
def CalledAt (name : Line) (rs : List Line) (k : ℕ) : Prop :=
  rs[k]? = some name ∧ rs[k + 1]? = some ['(']

instance (name : Line) (rs : List Line) (k : ℕ) : Decidable (CalledAt name rs k) :=
  inferInstanceAs (Decidable (_ ∧ _))

/-- The first call of the name starts at the position `i`. -/
def FirstCallAt (name : Line) (rs : List Line) (i : ℕ) : Prop :=
  ∃ k, CalledAt name rs k ∧ (∀ j < k, ¬CalledAt name rs j) ∧ i = (rs.take k).flatten.length

/-- The runs with the new name at every call. -/
def renamedRuns (name target : Line) (rs : List Line) : List Line :=
  rs.mapIdx fun k run => if CalledAt name rs k then target else run

section Called

variable {run : Line} {rs : List Line} {i : ℕ}

theorem firstCallAt_of_called (h : CalledAt name (run :: rs) 0) :
    FirstCallAt name (run :: rs) i ↔ i = 0 := by
  constructor
  · rintro ⟨k, -, hfirst, rfl⟩
    cases k with
    | zero => rfl
    | succ k => exact absurd h (hfirst 0 (Nat.succ_pos k))
  · rintro rfl
    exact ⟨0, h, fun j hj => absurd hj (Nat.not_lt_zero j), rfl⟩

theorem firstCallAt_of_not_called (h : ¬CalledAt name (run :: rs) 0) :
    FirstCallAt name (run :: rs) i ↔ ∃ j, FirstCallAt name rs j ∧ j + run.length = i := by
  constructor
  · rintro ⟨k, hk, hfirst, rfl⟩
    cases k with
    | zero => exact absurd hk h
    | succ k =>
      refine ⟨_, ⟨k, hk, fun j hj => hfirst (j + 1) (Nat.succ_lt_succ hj), rfl⟩, ?_⟩
      rw [List.take_succ_cons, List.flatten_cons, List.length_append, Nat.add_comm]
  · rintro ⟨j, ⟨k, hk, hfirst, rfl⟩, rfl⟩
    refine ⟨k + 1, hk, fun j hj => ?_, ?_⟩
    · cases j with
      | zero => exact h
      | succ j => exact hfirst j (Nat.lt_of_succ_lt_succ hj)
    · rw [List.take_succ_cons, List.flatten_cons, List.length_append, Nat.add_comm]

theorem not_firstCallAt (h : ∀ k, ¬CalledAt name rs k) : ¬FirstCallAt name rs i := by
  rintro ⟨k, hk, -⟩
  exact h k hk

theorem exists_firstCallAt : (∃ i, FirstCallAt name rs i) ↔ ∃ k, CalledAt name rs k := by
  constructor
  · rintro ⟨i, k, hk, -⟩
    exact ⟨k, hk⟩
  · intro h
    exact ⟨_, Nat.find h, Nat.find_spec h, fun j hj => Nat.find_min h hj, rfl⟩

theorem renamedRuns_cons : renamedRuns name target (run :: rs) =
    (if CalledAt name (run :: rs) 0 then target else run) :: renamedRuns name target rs := by
  rw [renamedRuns, List.mapIdx_cons]
  rfl

end Called

/-! ### Passing over a run -/

section Inside

variable {u : Line} {c : Char}

/-- A call starts in front of an identifier only if the name is the whole identifier and a
parenthesis follows. -/
theorem callPattern_prefix_identifier (hname : IsIdentifier name)
    (hu : ∀ d ∈ u, isIdentifierChar d = true) (hc : isIdentifierChar c = false) (rest : Line) :
    callPattern name <+: u ++ c :: rest ↔ name = u ∧ c = '(' := by
  constructor
  · rintro ⟨t, ht⟩
    rw [callPattern, List.append_assoc, List.singleton_append] at ht
    have hwhole := congrArg (List.takeWhile isIdentifierChar) ht
    rw [List.takeWhile_append_of_pos hname.chars, List.takeWhile_append_of_pos hu,
      List.takeWhile_cons_of_neg (by decide), List.takeWhile_cons_of_neg (by simp [hc]),
      List.append_nil, List.append_nil] at hwhole
    rw [hwhole, List.append_cancel_left_eq] at ht
    exact ⟨hwhole, (List.cons.inj ht).1.symm⟩
  · rintro ⟨rfl, rfl⟩
    exact (callPattern_prefix_iff hname.parenthesis_not_mem hname.parenthesis_not_mem).2 rfl

theorem isBoundary_some_of_false (hc : isIdentifierChar c = false) :
    isBoundary (some c) = true := by
  simp [isBoundary, hc]

theorem not_prefix_other (hname : IsIdentifier name) (hc : isIdentifierChar c = false)
    (rest : Line) : ¬callPattern name <+: c :: rest := by
  rw [← List.nil_append (c :: rest), callPattern_prefix_identifier hname (List.forall_mem_nil _) hc]
  exact fun h => hname.ne_nil h.1

/-- The search passes over an identifier that is not called. -/
theorem findCallFrom_identifier (hname : IsIdentifier name)
    (hu : ∀ d ∈ u, isIdentifierChar d = true) (hc : isIdentifierChar c = false)
    (hnot : isBoundary previous = true → ¬(name = u ∧ c = '(')) (rest : Line) :
    findCallFrom (callPattern name) previous 0 (u ++ c :: rest) =
      (findCallFrom (callPattern name) (some c) 0 rest).map (· + (u.length + 1)) := by
  induction u generalizing previous with
  | nil => exact findCallFrom_other (not_prefix_other hname hc rest)
  | cons d u ih =>
    by_cases h : callPattern name <+: d :: u ++ c :: rest
    · -- the name is the end of a longer identifier
      have hcall := (callPattern_prefix_identifier hname hu hc rest).1 h
      have boundary : isBoundary previous = false := Bool.eq_false_iff.2 fun hb => hnot hb hcall
      obtain ⟨rfl, rfl⟩ := hcall
      exact findCallFrom_tail hname.ne_nil boundary rest
    · obtain ⟨hd, hu⟩ := List.forall_mem_cons.1 hu
      have inside : isBoundary (some d) = false := by simp [isBoundary, hd]
      rw [List.cons_append] at h ⊢
      rw [findCallFrom_other h, ih hu (by simp [inside]), Option.map_map]
      rfl

/-- So does the replacement. -/
theorem renameFrom_identifier (hname : IsIdentifier name)
    (hu : ∀ d ∈ u, isIdentifierChar d = true) (hc : isIdentifierChar c = false)
    (hnot : isBoundary previous = true → ¬(name = u ∧ c = '(')) (rest : Line) :
    renameFrom name target previous 0 0 (u ++ c :: rest) =
      u ++ c :: renameFrom name target (some c) 0 0 rest := by
  induction u generalizing previous with
  | nil => exact renameFrom_other (not_prefix_other hname hc rest)
  | cons d u ih =>
    by_cases h : callPattern name <+: d :: u ++ c :: rest
    · have hcall := (callPattern_prefix_identifier hname hu hc rest).1 h
      have boundary : isBoundary previous = false := Bool.eq_false_iff.2 fun hb => hnot hb hcall
      obtain ⟨rfl, rfl⟩ := hcall
      exact renameFrom_tail hname.ne_nil boundary rest
    · obtain ⟨hd, hu⟩ := List.forall_mem_cons.1 hu
      have inside : isBoundary (some d) = false := by simp [isBoundary, hd]
      rw [List.cons_append] at h ⊢
      rw [renameFrom_other h, ih hu (by simp [inside])]
      rfl

end Inside

/-! ### The loop -/

/-- Renaming in turns.  `written` is what is finished and `rest` what is left: the first call of the
name in the rest is replaced, and the next turn starts right behind the name. -/
inductive Replaces (name target : Line) : Line → Line → Line → Prop
  | done {written rest : Line} (none : findCall rest name = none) :
      Replaces name target written rest (written ++ rest)
  | turn {written rest result : Line} {i : ℕ} (first : findCall rest name = some i)
      (next : Replaces name target (written ++ rest.take i ++ target)
        (rest.drop (i + name.length)) result) :
      Replaces name target written rest result

/-- A line without a call stays as it is. -/
theorem renameFrom_of_findCallFrom_eq_none (hname : IsName name) {l : Line}
    (h : findCallFrom (callPattern name) previous 0 l = none) :
    renameFrom name target previous 0 0 l = l := by
  induction callScan name previous l with
  | nil previous => rfl
  | call boundary _ _ =>
    rw [findCallFrom_call hname.ne_nil boundary] at h
    cases h
  | tail boundary _ ih =>
    rw [findCallFrom_tail hname.ne_nil boundary, Option.map_eq_none_iff] at h
    rw [renameFrom_tail hname.ne_nil boundary, ih h]
  | other none _ ih =>
    rw [findCallFrom_other none, Option.map_eq_none_iff] at h
    rw [renameFrom_other none, ih h]

/-- Behind the first call the replacement starts anew: what is left starts with the parenthesis, and
that it has lost what stood before it makes no difference. -/
theorem renameFrom_of_findCallFrom_eq_some (hname : IsName name) {l : Line} {i : ℕ}
    (h : findCallFrom (callPattern name) previous 0 l = some i) :
    renameFrom name target previous 0 0 l =
      l.take i ++ target ++ renameFrom name target none 0 0 (l.drop (i + name.length)) := by
  induction callScan name previous l generalizing i with
  | nil previous => cases h
  | @call previous rest boundary _ _ =>
    rw [findCallFrom_call hname.ne_nil boundary, Option.some.injEq] at h
    subst h
    have hpositive := List.length_pos_of_ne_nil hname.ne_nil
    have hparenthesis := not_callPattern_prefix hname List.not_mem_nil hpositive rest
    rw [List.nil_append] at hparenthesis
    rw [renameFrom_call hname boundary, List.take_zero, List.nil_append, Nat.zero_add,
      List.drop_left, renameFrom_other hparenthesis]
  | @tail previous rest boundary _ ih =>
    rw [findCallFrom_tail hname.ne_nil boundary, Option.map_eq_some_iff] at h
    obtain ⟨j, hj, rfl⟩ := h
    have hline : name ++ '(' :: rest = name ++ ['('] ++ rest := by simp
    have htake : j + (name.length + 1) = (name ++ ['(']).length + j := by
      rw [List.length_append, List.length_singleton, Nat.add_comm]
    have hdrop : (name ++ ['(']).length + j + name.length =
        (name ++ ['(']).length + (j + name.length) := Nat.add_assoc _ _ _
    rw [renameFrom_tail hname.ne_nil boundary, ih hj, hline, htake, hdrop,
      List.take_length_add_append, List.drop_length_add_append]
    simp
  | @other previous c rest none _ ih =>
    rw [findCallFrom_other none, Option.map_eq_some_iff] at h
    obtain ⟨j, hj, rfl⟩ := h
    rw [renameFrom_other none, ih hj, List.take_succ_cons, Nat.add_right_comm, List.drop_succ_cons,
      List.cons_append, List.cons_append]

/-- **The loop comes to an end, and with the renamed line.** -/
theorem replaces_iff (hname : IsName name) {written rest result : Line} :
    Replaces name target written rest result ↔ result = written ++ renameCall rest name target := by
  have hrename (l : Line) : renameCall l name target = renameFrom name target none 0 0 l :=
    if_neg hname.ne_nil
  simp only [hrename]
  constructor
  · intro h
    induction h with
    | done none => rw [renameFrom_of_findCallFrom_eq_none hname none]
    | turn first _ ih =>
      rw [ih, renameFrom_of_findCallFrom_eq_some hname first]
      simp only [List.append_assoc]
  · rintro rfl
    -- on what is left, which every turn makes shorter
    induction hn : rest.length using Nat.strongRecOn generalizing written rest with
    | ind n ih =>
      cases hfind : findCall rest name with
      | none =>
        rw [renameFrom_of_findCallFrom_eq_none hname hfind]
        exact .done hfind
      | some i =>
        have hshorter : (rest.drop (i + name.length)).length < n := by
          have hname := List.length_pos_of_ne_nil hname.ne_nil
          have hrest : 0 < rest.length := by
            refine List.length_pos_of_ne_nil ?_
            rintro rfl
            cases hfind
          rw [List.length_drop]
          omega
        rw [renameFrom_of_findCallFrom_eq_some hname hfind, ← List.append_assoc,
          ← List.append_assoc]
        exact .turn hfind (ih _ hshorter rfl)

/-! ### Calls are runs -/

theorem calledAt_identifier {u : Line} {c : Char} {rest : Line} :
    CalledAt name (u :: [c] :: runs rest) 0 ↔ name = u ∧ c = '(' := by
  simp [CalledAt, eq_comm]

theorem not_calledAt_other (hname : IsIdentifier name) {c : Char} (hc : isIdentifierChar c = false)
    (rs : List Line) : ¬CalledAt name ([c] :: rs) 0 := by
  rintro ⟨h, -⟩
  obtain rfl := Option.some.inj h
  exact not_isIdentifier_singleton hc hname

theorem not_calledAt_nil (k : ℕ) : ¬CalledAt name [] k := fun h => by simpa using h.1

theorem not_calledAt_singleton (u : Line) (k : ℕ) : ¬CalledAt name [u] k :=
  fun h => by simpa using h.2

/-- In front of the end of the line there is no call. -/
theorem findCallFrom_last {u : Line} (hname : IsName name) (hu : IsIdentifier u) :
    findCallFrom (callPattern name) previous 0 u = none := by
  rw [← Option.not_isSome_iff_eq_none, isSome_findCallFrom hname]
  rintro ⟨before, after, h, -⟩
  exact hu.parenthesis_not_mem (by simp [h])

/-- The search finds the first run that is called. -/
theorem findCallFrom_eq_some_iff (hname : IsIdentifier name) (boundary : isBoundary previous = true)
    {l : Line} {i : ℕ} :
    findCallFrom (callPattern name) previous 0 l = some i ↔ FirstCallAt name (runs l) i := by
  induction runScan l generalizing previous i with
  | nil => exact iff_of_false (by simp [findCallFrom]) (not_firstCallAt not_calledAt_nil)
  | @other c rest hc _ ih =>
    rw [findCallFrom_other (not_prefix_other hname hc rest), runs_cons hc,
      firstCallAt_of_not_called (not_calledAt_other hname hc _), Option.map_eq_some_iff]
    simp only [ih (isBoundary_some_of_false hc), List.length_singleton]
  | @last u hu =>
    rw [findCallFrom_last hname.isName hu, runs_of_isRun (.inl hu)]
    exact iff_of_false (by simp) (not_firstCallAt (not_calledAt_singleton u))
  | @identifier u rest c hu hc _ ih =>
    rw [runs_identifier hu hc]
    by_cases hcall : name = u ∧ c = '('
    · rw [firstCallAt_of_called (calledAt_identifier.2 hcall)]
      obtain ⟨rfl, rfl⟩ := hcall
      rw [findCallFrom_call hname.ne_nil boundary, Option.some.injEq, eq_comm]
    · rw [firstCallAt_of_not_called (mt calledAt_identifier.1 hcall),
        findCallFrom_identifier hname hu.chars hc (fun _ => hcall)]
      simp only [firstCallAt_of_not_called (not_calledAt_other hname hc _), Option.map_eq_some_iff,
        ih (isBoundary_some_of_false hc), List.length_singleton]
      constructor
      · rintro ⟨j, hj, rfl⟩
        exact ⟨j + 1, ⟨j, hj, rfl⟩, by omega⟩
      · rintro ⟨_, ⟨j, hj, rfl⟩, rfl⟩
        exact ⟨j, hj, by omega⟩

/-- **The first call is found where the first run that is called starts.** -/
theorem findCall_eq_some_iff (hname : IsIdentifier name) {l : Line} {i : ℕ} :
    findCall l name = some i ↔ FirstCallAt name (runs l) i :=
  findCallFrom_eq_some_iff hname rfl

theorem findCall_eq_none_iff (hname : IsIdentifier name) {l : Line} :
    findCall l name = none ↔ ∀ k, ¬CalledAt name (runs l) k := by
  rw [← not_exists, ← exists_firstCallAt, not_exists, Option.eq_none_iff_forall_ne_some]
  exact forall_congr' fun i => not_congr (findCall_eq_some_iff hname)

/-- The replacement goes through the runs one by one. -/
theorem renameFrom_eq (hname : IsIdentifier name) (boundary : isBoundary previous = true)
    (l : Line) :
    renameFrom name target previous 0 0 l = (renamedRuns name target (runs l)).flatten := by
  induction runScan l generalizing previous with
  | nil => rfl
  | @other c rest hc _ ih =>
    rw [renameFrom_other (not_prefix_other hname hc rest), runs_cons hc, renamedRuns_cons,
      if_neg (not_calledAt_other hname hc _), ih (isBoundary_some_of_false hc)]
    rfl
  | @last u hu =>
    rw [renameFrom_of_findCallFrom_eq_none hname.isName (findCallFrom_last hname.isName hu),
      runs_of_isRun (.inl hu), renamedRuns_cons, if_neg (not_calledAt_singleton u 0)]
    exact (List.append_nil u).symm
  | @identifier u rest c hu hc _ ih =>
    rw [runs_identifier hu hc, renamedRuns_cons, renamedRuns_cons,
      if_neg (not_calledAt_other hname hc _), List.flatten_cons, List.flatten_cons,
      ← ih (isBoundary_some_of_false hc)]
    by_cases hcall : name = u ∧ c = '('
    · rw [if_pos (calledAt_identifier.2 hcall)]
      obtain ⟨rfl, rfl⟩ := hcall
      exact renameFrom_call hname.isName boundary rest
    · rw [if_neg (mt calledAt_identifier.1 hcall)]
      exact renameFrom_identifier hname hu.chars hc (fun _ => hcall) rest

/-- **Renaming puts the new name in the place of every run that is called.** -/
theorem renameCall_eq (hname : IsIdentifier name) (l : Line) :
    renameCall l name target = (renamedRuns name target (runs l)).flatten := by
  rw [renameCall, if_neg hname.ne_nil, renameFrom_eq hname rfl]

/-- **Calls are whole names.**  The loop that replaces one call after the other comes to an end, and
with the line in which exactly the runs that are called are replaced; and the search finds the
position of the first of them, and nothing exactly if there is none. -/
theorem renameCall_wholeNames (hname : IsIdentifier name) (target l : Line) :
    (∀ result, Replaces name target [] l result ↔ result = renameCall l name target) ∧
      renameCall l name target = (renamedRuns name target (runs l)).flatten ∧
      (∀ i, findCall l name = some i ↔ FirstCallAt name (runs l) i) ∧
      (findCall l name = none ↔ ∀ k, ¬CalledAt name (runs l) k) :=
  ⟨fun _ => replaces_iff hname.isName, renameCall_eq hname l,
    fun _ => findCall_eq_some_iff hname, findCall_eq_none_iff hname⟩

/-- A name is left alone as the end or the start of a longer one and without a parenthesis. -/
theorem renameCall_wholeNames_nested :
    IsIdentifier "trace".toList ∧
      Replaces "trace".toList "trace_d2".toList []
        "retrace(trace(x) + trace (trace(trace_2(z))))".toList
        "retrace(trace_d2(x) + trace (trace_d2(trace_2(z))))".toList ∧
      findCall "retrace(trace(x) + trace (trace(trace_2(z))))".toList "trace".toList = some 8 := by
  have hname : IsIdentifier "trace".toList := by decide
  obtain ⟨loop, renamed, first, -⟩ := renameCall_wholeNames hname "trace_d2".toList
    "retrace(trace(x) + trace (trace(trace_2(z))))".toList
  refine ⟨hname, (loop _).2 ?_, (first 8).2 ⟨2, ?_, ?_, ?_⟩⟩
  · rw [renamed]
    decide +kernel
  · decide +kernel
  · decide +kernel
  · decide +kernel

end RayTracer
