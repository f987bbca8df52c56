import Mathlib.Data.List.Nodup
import Mathlib.Data.List.ProdSigma
import RayTracer.Proofs.Unroll.Grammar
import RayTracer.Proofs.Unroll.Meaning

/-!
# The names that copies are declared under

The declaration of a copy is that of the marked function with the name of the copy in the place of
its own.  A program that declares one name twice is no program, so it matters when two copies have
one name.

* `Declares.renameCall` : a declaration that gets a longer name declares this name, whatever
  characters the name is made of.  Its name stands behind a blank, and no call reaches across one.
* `MarkedSource.declares_of_mem_copies` : each copy of an accepted source is declared under its
  name.
* `MarkedSource.nodup_names_iff` : the names of the copies differ exactly if no marked name is
  another one with the suffix of a level.
* `MarkedSource.declared_once_iff` : both, and when two names of copies are the same.
* `MarkedSource.clashing_declared_twice` : an accepted source that declares one name twice.
-/

namespace RayTracer

/-- The line holds the start of a declaration of a function of this name. -/
def Declares (l name : Line) : Prop := "fn ".toList ++ callPattern name <:+: l

instance (l name : Line) : Decidable (Declares l name) :=
  decidable_of_iff (Line.has ("fn ".toList ++ callPattern name) l = true) Line.has_iff

/-! ### Renaming a declaration -/

section Rename

variable {name target u : Line} {previous : Option Char}

/-- A call that starts in front of a blank has its parenthesis in front of it. -/
theorem not_callPattern_prefix_blank (hname : ' ' ∉ name) (hu : '(' ∉ u) (rest : Line) :
    ¬callPattern name <+: u ++ ' ' :: rest := by
  rintro ⟨after, h⟩
  have hpattern : ' ' ∉ callPattern name := by simp [callPattern, hname]
  have hparenthesis : '(' ∈ callPattern name := by simp [callPattern]
  rcases List.append_eq_append_iff.1 h with ⟨v, rfl, -⟩ | ⟨v, hv, hrest⟩
  · exact hu (List.mem_append_left v hparenthesis)
  · cases v with
    | nil =>
      rw [List.append_nil] at hv
      exact hu (hv ▸ hparenthesis)
    | cons c v =>
      obtain ⟨rfl, -⟩ := List.cons.inj hrest
      exact hpattern (hv ▸ List.mem_append_right u List.mem_cons_self)

/-- A call that starts in front of such a part of a line ends in front of it. -/
theorem length_lt_of_callPattern {a rest : Line} (hname : ' ' ∉ name) (hu : '(' ∉ u)
    (h : callPattern name <+: a ++ (u ++ ' ' :: rest)) : name.length < a.length := by
  refine Nat.not_le.1 fun hlong => ?_
  have hprefix : name <+: a ++ (u ++ ' ' :: rest) := (List.prefix_append name ['(']).trans h
  obtain ⟨w, rfl⟩ := List.prefix_of_prefix_length_le (List.prefix_append a _) hprefix hlong
  have hw : ' ' ∉ w := fun hmem => hname (List.mem_append_right a hmem)
  rw [callPattern, List.append_assoc, List.prefix_append_right_inj] at h
  exact not_callPattern_prefix_blank hw hu rest h

/-- What stands in front of a blank, without a parenthesis, stays. -/
theorem renameFrom_blank (hname : ' ' ∉ name) (hu : '(' ∉ u) (previous : Option Char)
    (rest : Line) :
    renameFrom name target previous 0 0 (u ++ ' ' :: rest) =
      u ++ ' ' :: renameFrom name target (some ' ') 0 0 rest := by
  induction u generalizing previous with
  | nil => exact renameFrom_other (not_callPattern_prefix_blank (u := []) hname hu rest)
  | cons c u ih =>
    have hother := not_callPattern_prefix_blank hname hu rest
    rw [List.cons_append] at hother ⊢
    rw [renameFrom_other hother, ih (List.not_mem_of_not_mem_cons hu), List.cons_append]

/-- The same behind any start of the line: a call that starts there ends there. -/
theorem exists_renameFrom_blank (hname : ' ' ∉ name) (hu : '(' ∉ u) (rest a : Line)
    (previous : Option Char) {refused replaced : Nat} (hrefused : refused ≤ a.length)
    (hreplaced : replaced ≤ a.length) :
    ∃ a', renameFrom name target previous refused replaced (a ++ (u ++ ' ' :: rest)) =
      a' ++ (u ++ ' ' :: renameFrom name target (some ' ') 0 0 rest) := by
  induction a generalizing previous refused replaced with
  | nil =>
    obtain rfl := Nat.le_zero.1 hrefused
    obtain rfl := Nat.le_zero.1 hreplaced
    exact ⟨[], renameFrom_blank hname hu previous rest⟩
  | cons c a ih =>
    rw [List.cons_append]
    rw [List.length_cons] at hrefused hreplaced
    cases replaced with
    | succ replaced =>
      obtain ⟨a', ha'⟩ := ih none (Nat.zero_le _) (Nat.le_of_succ_le_succ hreplaced)
      exact ⟨a', ha'⟩
    | zero =>
      cases refused with
      | succ refused =>
        obtain ⟨a', ha'⟩ := ih (some c) (Nat.le_of_succ_le_succ hrefused) (Nat.zero_le _)
        exact ⟨c :: a', by rw [renameFrom, ha', List.cons_append]⟩
      | zero =>
        by_cases hcall : callPattern name <+: c :: (a ++ (u ++ ' ' :: rest))
        · have hshort : name.length ≤ a.length :=
            Nat.le_of_lt_succ (length_lt_of_callPattern (a := c :: a) hname hu hcall)
          rw [renameFrom, if_pos (List.isPrefixOf_iff_prefix.2 hcall)]
          split
          · obtain ⟨a', ha'⟩ := ih none (Nat.zero_le _)
              (Nat.le_trans (Nat.sub_le _ 1) hshort)
            exact ⟨target ++ a', by rw [ha', List.append_assoc]⟩
          · obtain ⟨a', ha'⟩ := ih (some c) hshort (Nat.zero_le _)
            exact ⟨c :: a', by rw [ha', List.cons_append]⟩
        · obtain ⟨a', ha'⟩ := ih (some c) (Nat.zero_le _) (Nat.zero_le _)
          exact ⟨c :: a', by rw [renameFrom_other hcall, ha', List.cons_append]⟩

/-- The parenthesis behind a replaced name stays, or a name that starts with one takes its place. -/
theorem parenthesis_prefix_renameFrom (hname : name ≠ []) (longer : name <+: target)
    (rest : Line) : ['('] <+: renameFrom name target none 0 0 ('(' :: rest) := by
  by_cases hcall : callPattern name <+: '(' :: rest
  · have boundary : isBoundary none = true := rfl
    rw [renameFrom, if_pos (List.isPrefixOf_iff_prefix.2 hcall), if_pos boundary]
    obtain ⟨c, tail, rfl⟩ := List.exists_cons_of_ne_nil hname
    obtain ⟨rfl, -⟩ := List.cons_prefix_cons.1 hcall
    have hstart : ['('] <+: '(' :: tail := ⟨tail, rfl⟩
    exact (hstart.trans longer).trans (List.prefix_append _ _)
  · rw [renameFrom_other hcall]
    exact ⟨_, rfl⟩

/-- **A declaration that gets a longer name declares this name.** -/
theorem Declares.renameCall {l : Line} (h : Declares l name) (hname : Line.IsWord name)
    (longer : name <+: target) : Declares (renameCall l name target) target := by
  obtain ⟨before, after, rfl⟩ := h
  obtain ⟨hne, hblank⟩ := hname
  have hnospace : ' ' ∉ name := fun hmem => absurd (hblank _ hmem) (by decide)
  have hline : before ++ ("fn ".toList ++ callPattern name) ++ after =
      before ++ (['f', 'n'] ++ ' ' :: (name ++ '(' :: after)) := by
    simp [callPattern]
  obtain ⟨before', hbefore⟩ : ∃ before',
      renameFrom name target none 0 0 (before ++ (['f', 'n'] ++ ' ' :: (name ++ '(' :: after))) =
        before' ++
          (['f', 'n'] ++ ' ' :: renameFrom name target (some ' ') 0 0 (name ++ '(' :: after)) :=
    exists_renameFrom_blank hnospace (by decide) (name ++ '(' :: after) before none (Nat.zero_le _)
      (Nat.zero_le _)
  -- behind the blank the name is replaced, and what follows starts with a parenthesis as before
  obtain ⟨after', hafter⟩ := parenthesis_prefix_renameFrom hne longer after
  have hreplaced : renameFrom name target (some ' ') 0 0 (name ++ '(' :: after) =
      target ++ renameFrom name target none 0 0 ('(' :: after) := by
    obtain ⟨c, tail, rfl⟩ := List.exists_cons_of_ne_nil hne
    have hcall : callPattern (c :: tail) <+: c :: (tail ++ '(' :: after) :=
      ⟨after, by simp [callPattern]⟩
    have boundary : isBoundary (some ' ') = true := by decide
    rw [List.cons_append, renameFrom, if_pos (List.isPrefixOf_iff_prefix.2 hcall),
      if_pos boundary, List.length_cons, Nat.add_sub_cancel, renameFrom_replaced]
  refine ⟨before', after', ?_⟩
  rw [RayTracer.renameCall, if_neg hne, hline, hbefore, hreplaced, ← hafter]
  simp [callPattern]

end Rename

/-! ### The copies of an accepted source -/

theorem prefix_specializedName (name : Line) (level : Nat) :
    name <+: specializedName name level := by
  unfold specializedName
  split
  · exact List.prefix_rfl
  · exact List.prefix_append _ _

namespace MarkedSource

variable {source : MarkedSource} {text : List Char} {depth : Nat}

/-- A marked name is a word of a directive, and the declaration line declares it. -/
theorem declares_of_parse (accepted : parse text = .ok source) {f : MarkedFunction}
    (hf : f ∈ source.functions) : Line.IsWord f.name ∧ Declares f.declaration f.name := by
  obtain ⟨d, -, valid, rfl⟩ := parse_eq_ok_iff.1 accepted
  have hread : d.read.functions.flatMap (fun f => [(f.name, f.declaration)]) =
      d.functions.flatMap fun f => [(f.name, f.declaration)] :=
    Layout.flatMap_functions_read (fun n f => rfl) d
  have hmem :
      (f.name, f.declaration) ∈ d.read.functions.flatMap fun f => [(f.name, f.declaration)] :=
    List.mem_flatMap.2 ⟨f, hf, List.mem_singleton_self _⟩
  rw [hread] at hmem
  obtain ⟨g, hg, hfg⟩ := List.mem_flatMap.1 hmem
  obtain ⟨hname, hdeclaration⟩ := Prod.mk.inj (List.mem_singleton.1 hfg)
  obtain ⟨p, hp, hfunction⟩ := List.mem_filterMap.1 hg
  cases p with
  | regular l => cases hfunction
  | function g' =>
    obtain rfl := Option.some.inj hfunction
    have hvalid : g'.Valid Scan.FindsCall := valid.pieces _ hp
    rw [hname, hdeclaration]
    exact ⟨hvalid.marker.1, hvalid.declaration⟩

/-- **Each copy is declared under its name.** -/
theorem declares_of_mem_copies (accepted : parse text = .ok source) {c : Copy}
    (hc : c ∈ source.copies depth) : Declares c.declaration c.name := by
  obtain ⟨level, -, f, hf, rfl⟩ := mem_copies.1 hc
  obtain ⟨hname, hdeclares⟩ := declares_of_parse accepted hf
  exact hdeclares.renameCall hname (prefix_specializedName f.name level)

/-- The names of the copies: for every level and every marked function one. -/
theorem names_copies : (source.copies depth).map Copy.name =
    ((List.range depth).product (source.functions.map MarkedFunction.name)).map
      fun p => specializedName p.2 p.1 := by
  simp [copies, copiesOn, List.map_flatMap, List.product, MarkedFunction.copy, Function.comp_def]

/-- **The names of the copies differ exactly if the marked names are apart.** -/
theorem nodup_names_iff (nodup : (source.functions.map MarkedFunction.name).Nodup) :
    ((source.copies depth).map Copy.name).Nodup ↔ source.NamesApart depth := by
  have hproduct : ((List.range depth).product
      (source.functions.map MarkedFunction.name)).Nodup := List.nodup_range.product nodup
  rw [names_copies, List.nodup_map_iff_inj_on hproduct]
  constructor
  · intro inj f hf g hg level hlevel hpositive hname
    -- the copy of `f` on level zero is called like that of `g` on the other level
    have hzero : ((0, f.name) : Nat × Line) ∈ (List.range depth).product _ :=
      List.mem_product.2 ⟨List.mem_range.2 (by omega), List.mem_map_of_mem hf⟩
    have hother : ((level, g.name) : Nat × Line) ∈ (List.range depth).product _ :=
      List.mem_product.2 ⟨List.mem_range.2 hlevel, List.mem_map_of_mem hg⟩
    have hsame : specializedName f.name 0 = specializedName g.name level :=
      specializedName_eq_iff.2 (.inr (.inl ⟨rfl, hpositive, hname⟩))
    have hlevels := (Prod.mk.inj (inj _ hzero _ hother hsame)).1
    omega
  · rintro apart ⟨i, a⟩ ha ⟨j, b⟩ hb hname
    obtain ⟨hi, ha⟩ := List.mem_product.1 ha
    obtain ⟨hj, hb⟩ := List.mem_product.1 hb
    obtain ⟨f, hf, rfl⟩ := List.mem_map.1 ha
    obtain ⟨g, hg, rfl⟩ := List.mem_map.1 hb
    obtain ⟨hnames, hlevels⟩ := apart.eq_of_specializedName hf hg (List.mem_range.1 hi)
      (List.mem_range.1 hj) hname
    exact Prod.ext hlevels hnames

/-- **When copies are declared under one name.**  Two names of copies are the same if function and
level are, or if one function is on level zero and is called like the other one with the suffix of
its level.  So the copies of an accepted source, which are declared under these names and are as
many as there are levels and functions, have different names exactly if no marked name is another
one with the suffix of a level that is written. -/
theorem declared_once_iff :
    (∀ (a b : Line) (i j : Nat), specializedName a i = specializedName b j ↔
      (a = b ∧ i = j) ∨ (i = 0 ∧ 1 ≤ j ∧ a = b ++ '_' :: 'd' :: Decimal.digitsOf j) ∨
        (j = 0 ∧ 1 ≤ i ∧ b = a ++ '_' :: 'd' :: Decimal.digitsOf i)) ∧
    ∀ (text : List Char) (source : MarkedSource) (depth : UInt32), parse text = .ok source →
      depth ≠ 0 →
        source.unroll depth = .ok (Text.unlines
          (source.regular ++ (source.copies depth.toNat).flatMap Copy.emit)) ∧
        (source.copies depth.toNat).length = depth.toNat * source.functions.length ∧
        (∀ c ∈ source.copies depth.toNat, Declares c.declaration c.name) ∧
        (((source.copies depth.toNat).map Copy.name).Nodup ↔
          ∀ f ∈ source.functions, ∀ g ∈ source.functions, ∀ level < depth.toNat, 1 ≤ level →
            f.name ≠ g.name ++ '_' :: 'd' :: Decimal.digitsOf level) := by
  refine ⟨fun a b i j => specializedName_eq_iff, fun text source depth accepted positive => ?_⟩
  have hnat : depth.toNat ≠ 0 := fun h => positive (UInt32.toNat_inj.1 h)
  exact ⟨unroll_eq_ok hnat, length_copies, fun c hc => declares_of_mem_copies accepted hc,
    nodup_names_iff (wellFormed_of_parse accepted).nodup⟩

/-- Two functions, one of them called like the copy of the other one on level one. -/
def clashingText : List Char :=
  ("// rec:func t\nfn t(x)\n// rec:endfunc t\n" ++
    "// rec:func t_d1\nfn t_d1(x)\n// rec:endfunc t_d1\n").toList

/-- The two functions of `clashingText`. -/
def clashing : MarkedSource where
  regular := []
  functions := [⟨"t".toList, "fn t(x)".toList, []⟩, ⟨"t_d1".toList, "fn t_d1(x)".toList, []⟩]

/-- With one level the names differ, and with two levels one is declared twice. -/
theorem clashing_declared_twice :
    parse clashingText = .ok clashing ∧ (1 : UInt32) ≠ 0 ∧ (2 : UInt32) ≠ 0 ∧
      ((clashing.copies 1).map Copy.name).Nodup ∧ ¬((clashing.copies 2).map Copy.name).Nodup := by
  have accepted : parse clashingText = .ok clashing := by decide +kernel
  have hone : (1 : UInt32) ≠ 0 := by decide
  have htwo : (2 : UInt32) ≠ 0 := by decide
  have iffOne := (declared_once_iff.2 _ _ 1 accepted hone).2.2.2
  have iffTwo := (declared_once_iff.2 _ _ 2 accepted htwo).2.2.2
  refine ⟨accepted, hone, htwo, iffOne.2 ?_, fun distinct => ?_⟩
  · intro f _ g _ level hlevel hpositive
    exact absurd hlevel (Nat.not_lt.2 hpositive)
  · exact iffTwo.1 distinct ⟨"t_d1".toList, "fn t_d1(x)".toList, []⟩ (by simp [clashing])
      ⟨"t".toList, "fn t(x)".toList, []⟩ (by simp [clashing]) 1 (by decide) (by decide)
      (by decide +kernel)

end MarkedSource

end RayTracer
