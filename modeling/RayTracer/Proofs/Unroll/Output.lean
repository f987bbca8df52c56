import Mathlib.Data.List.Basic
import RayTracer.Proofs.Unroll.Grammar
import RayTracer.Proofs.Unroll.GroupCalls

/-!
# The lines of an unrolled source

`Layout.written` lists the lines of an unrolled source without unrolling anything: every line is a
line of the text, or a line of the text in which a name gets another one, or the empty line before a
copy.  Nothing of the text is left out but directives and, on the last level, blocks.

* `Layout.emit_read` : **these are the lines that are emitted**, in this order.
* `MarkedSource.unroll_eq_written` : what this means for an accepted text.  A name without a
  parenthesis gets the other one exactly where it stands alone.
* `MarkedSource.overlap_kept` : a name with a parenthesis may stand alone and stay as it is.

Everything that is emitted for a part of a layout depends on that part alone, so these are
inductions over the layout; no run of the reader is needed.
-/

namespace RayTracer

open Layout

namespace Layout

/-- A line of an unrolled source. -/
inductive Written where
  /-- A line of the text, or the empty line before a copy. -/
  | same (l : Line)
  /-- A line of the text in which `name` becomes `target`. -/
  | renamed (l name target : Line)

namespace Written

/-- The line as it is written. -/
def emit : Written → Line
  | same l => l
  | renamed l name target => renameCall l name target

/-- The line may be written as `l'`: with the other name exactly where the name stands alone. -/
def Is : Written → Line → Prop
  | same l, l' => l' = l
  | renamed l name target, l' => Renames name target none l l'

/-- The name has no parenthesis, if there is one. -/
def Plain : Written → Prop
  | same _ => True
  | renamed _ name _ => IsName name

theorem is_emit {w : Written} (plain : w.Plain) : w.Is w.emit := by
  cases w with
  | same l => rfl
  | renamed l name target => exact (renames_iff plain).2 rfl

end Written

/-- A marked call goes to the copy on its own level or on the next one. -/
def Entry.written (level : Nat) : Entry → Written
  | text l => .same l
  | call _ kind callee l => .renamed l callee (specializedName callee (kind.target level))

/-- A copy of a function: an empty line, the declaration and what stays of the body. -/
def Function.written (f : Function) (level : Nat) (isLast : Bool) : List Written :=
  .same [] :: .renamed f.declaration f.name (specializedName f.name level) ::
    (f.kept isLast).map (Entry.written level)

/-- The lines of the source with `depth` levels: the regular lines, and then, level by level, a copy
of every marked function. -/
def written (d : Layout) (depth : Nat) : List Written :=
  d.regular.map .same ++ (List.range depth).flatMap fun level =>
    d.functions.flatMap fun f => f.written level (level + 1 == depth)

/-! ### What is emitted -/

theorem emit_copy (f : Function) (n level : Nat) (isLast : Bool) :
    ((f.read n).copy level isLast).emit = (f.written level isLast).map Written.emit := by
  have hentry : ∀ n (e : Entry), (e.read n).flatMap (fun s => [(s.copy level).emit]) =
      [(e.written level).emit] := by
    intro n e
    cases e <;> rfl
  have hkept := flatMap_kept_read hentry isLast n f
  simp only [← List.map_eq_flatMap] at hkept
  simp only [Copy.emit, MarkedFunction.copy, Function.written, List.map_cons, List.map_map]
  exact congrArg (fun body =>
    [] :: renameCall f.declaration f.name (specializedName f.name level) :: body) hkept

/-- **The lines that are emitted for a layout.** -/
theorem emit_read (d : Layout) (depth : Nat) :
    d.read.emit depth = (d.written depth).map Written.emit := by
  have hlevel : ∀ level, (d.read.copiesOn depth level).flatMap Copy.emit =
      (d.functions.flatMap fun f => f.written level (level + 1 == depth)).map Written.emit := by
    intro level
    rw [MarkedSource.copiesOn, List.flatMap_map, List.map_flatMap]
    exact flatMap_functions_read (fun n f => emit_copy f n level _) d
  have hregular : (d.regular.map Written.same).map Written.emit = d.regular := by
    rw [List.map_map]
    exact List.map_id _
  rw [MarkedSource.emit, MarkedSource.copies, List.flatMap_assoc, written, List.map_append,
    hregular, List.map_flatMap]
  exact congrArg (d.regular ++ (List.range depth).flatMap ·) (funext hlevel)

/-! ### Where what is written comes from -/

section Valid

variable {Calls : Line → Line → Prop} {isLast : Bool}

/-- What stays of a body is in its lines. -/
theorem Function.exists_of_mem_kept {f : Function} (valid : f.Valid Calls) {e : Entry}
    (he : e ∈ f.kept isLast) : (∃ inBlock, e.Valid Calls inBlock) ∧ e.lines ⊆ f.lines := by
  obtain ⟨p, hp, he⟩ := List.mem_flatMap.1 he
  have hpart : (∃ inBlock, e.Valid Calls inBlock) ∧ e.lines ⊆ p.lines := by
    cases p with
    | entry e' =>
      obtain rfl := List.mem_singleton.1 he
      exact ⟨⟨false, valid.parts _ hp⟩, fun _ hl => hl⟩
    | block b =>
      have hb : e ∈ b.entries := by
        simp only [Part.kept] at he
        split at he
        · cases he
        · exact he
      refine ⟨⟨true, (valid.parts _ hp).entries e hb⟩, fun l hl => ?_⟩
      exact List.mem_cons_of_mem _ (List.mem_append_left _ (List.mem_flatMap.2 ⟨e, hb, hl⟩))
  refine ⟨hpart.1, fun l hl => ?_⟩
  exact List.mem_cons_of_mem _ (List.mem_cons_of_mem _ (List.mem_append_left _
    (List.mem_flatMap.2 ⟨p, hp, hpart.2 hl⟩)))

/-- **Every line that is written** is one of the text, is empty, or is one of the text in which a
name of a directive becomes the name of a copy. -/
theorem exists_of_mem_written {d : Layout} (valid : ∀ p ∈ d, p.Valid Calls) {depth : Nat}
    {w : Written} (hw : w ∈ d.written depth) :
    (∃ l ∈ d.lines, w = .same l) ∨ w = .same [] ∨
      ∃ l ∈ d.lines, ∃ marker ∈ d.lines, ∃ kind name level, IsDirective kind name marker ∧
        w = .renamed l name (specializedName name level) := by
  rcases List.mem_append.1 hw with hw | hw
  · obtain ⟨l, hl, rfl⟩ := List.mem_map.1 hw
    obtain ⟨p, hp, hregular⟩ := List.mem_filterMap.1 hl
    cases p with
    | function f => cases hregular
    | regular l' =>
      obtain rfl := Option.some.inj hregular
      exact .inl ⟨l', List.mem_flatMap.2 ⟨_, hp, List.mem_cons_self⟩, rfl⟩
  · obtain ⟨level, -, hw⟩ := List.mem_flatMap.1 hw
    obtain ⟨f, hf, hw⟩ := List.mem_flatMap.1 hw
    obtain ⟨p, hp, hfunction⟩ := List.mem_filterMap.1 hf
    cases p with
    | regular l => cases hfunction
    | function g =>
      obtain rfl := Option.some.inj hfunction
      have hg : Function.Valid Calls g := valid _ hp
      have hlines : g.lines ⊆ d.lines := fun l hl => List.mem_flatMap.2 ⟨_, hp, hl⟩
      rcases List.mem_cons.1 hw with rfl | hw
      · exact .inr (.inl rfl)
      rcases List.mem_cons.1 hw with rfl | hw
      · exact .inr (.inr ⟨_, hlines (List.mem_cons_of_mem _ List.mem_cons_self), _,
          hlines List.mem_cons_self, _, _, _, hg.marker, rfl⟩)
      obtain ⟨e, he, rfl⟩ := List.mem_map.1 hw
      obtain ⟨⟨inBlock, hvalid⟩, hsub⟩ := g.exists_of_mem_kept hg he
      cases e with
      | text l => exact .inl ⟨l, hlines (hsub List.mem_cons_self), rfl⟩
      | call marker kind callee l =>
        exact .inr (.inr ⟨l, hlines (hsub (List.mem_cons_of_mem _ List.mem_cons_self)), marker,
          hlines (hsub List.mem_cons_self), _, _, _, hvalid.1, rfl⟩)

end Valid

end Layout

theorem IsDirective.subset {kind : DirectiveKind} {name l : Line} (h : IsDirective kind name l) :
    name ⊆ l := by
  obtain ⟨-, a, b, c, -, -, -, -, d, e, -, -, rfl⟩ := h
  intro x hx
  simp [hx]

namespace Layout

variable {Calls : Line → Line → Prop}

/-- Nothing that is written has a line feed, if no line of the text has one. -/
theorem feed_not_mem_emit {d : Layout} (valid : ∀ p ∈ d, p.Valid Calls)
    (feeds : ∀ l ∈ d.lines, '\n' ∉ l) {depth : Nat} {w : Written} (hw : w ∈ d.written depth) :
    '\n' ∉ w.emit := by
  rcases exists_of_mem_written valid hw with ⟨l, hl, rfl⟩ | rfl |
    ⟨l, hl, marker, hmarker, kind, name, level, hd, rfl⟩
  · exact feeds l hl
  · exact List.not_mem_nil
  · intro hfeed
    rcases mem_renameCall hfeed with hfeed | hfeed
    · exact feeds l hl hfeed
    · rcases mem_specializedName hfeed with hfeed | hfeed
      · exact feeds marker hmarker (hd.subset hfeed)
      · exact absurd hfeed (by decide)

theorem plain_of_mem_written {d : Layout} (valid : ∀ p ∈ d, p.Valid Calls)
    (plain : PlainNames d.lines) {depth : Nat} {w : Written} (hw : w ∈ d.written depth) :
    w.Plain := by
  rcases exists_of_mem_written valid hw with ⟨l, hl, rfl⟩ | rfl |
    ⟨l, hl, marker, hmarker, kind, name, level, hd, rfl⟩
  · trivial
  · trivial
  · exact ⟨hd.1.1, plain marker hmarker kind name hd⟩

end Layout

namespace MarkedSource

variable {source : MarkedSource} {text : List Char}

/-- **The number of a marked call is that of its line.** -/
theorem getElem?_line (accepted : parse text = .ok source) {f : MarkedFunction}
    (hf : f ∈ source.functions) {site : CallSite} (hs : site ∈ f.calls) :
    0 < site.line ∧ (Text.lines text)[site.line - 1]? = some site.text := by
  obtain ⟨r, -, -, htranscribes⟩ := exists_region accepted hf
  obtain ⟨i, hi, hline, -⟩ := htranscribes.getElem?_of_call (MarkedFunction.mem_calls.1 hs)
  have hlt : i < r.body.length := (List.getElem?_eq_some_iff.1 hline).1
  have htext : (r.before ++ r.marker :: r.declaration :: (r.body ++ r.close :: r.after))[
      r.before.length + (i + 2)]? = some site.text := by
    rw [List.getElem?_append_right (Nat.le_add_right _ _), Nat.add_sub_cancel_left,
      List.getElem?_cons_succ, List.getElem?_cons_succ, List.getElem?_append_left hlt, hline]
  have hnumber : site.line - 1 = r.before.length + (i + 2) := by
    rw [hi, Region.first]
    omega
  refine ⟨by rw [hi, Region.first]; omega, ?_⟩
  rw [hnumber]
  exact (congrArg (·[r.before.length + (i + 2)]?) r.eq).trans htext

/-- **No line is lost, doubled or moved.**  The text that an accepted source is unrolled to consists
of the lines that `Layout.written` lists for the layout of the source. -/
theorem unroll_eq_written (accepted : parse text = .ok source) {depth : UInt32}
    (positive : depth ≠ 0) :
    (∃ d : Layout, d.lines = Text.lines text ∧ d.Valid Scan.FindsCall) ∧
    (∀ d : Layout, d.lines = Text.lines text → d.Valid Scan.FindsCall →
      ∃ out : List Line, source.unroll depth = .ok (Text.unlines out) ∧ (∀ l ∈ out, '\n' ∉ l) ∧
        out = (d.written depth.toNat).map Written.emit ∧
        (PlainNames (Text.lines text) →
          d.Valid StandsAlone ∧ List.Forall₂ Written.Is (d.written depth.toNat) out)) ∧
    ∀ f ∈ source.functions, ∀ site ∈ f.calls,
      0 < site.line ∧ (Text.lines text)[site.line - 1]? = some site.text := by
  refine ⟨?_, fun d hlines valid => ?_, fun f hf site hs => getElem?_line accepted hf hs⟩
  · obtain ⟨d, hlines, valid, -⟩ := parse_eq_ok_iff.1 accepted
    exact ⟨d, hlines, valid⟩
  have hread : parse text = .ok d.read := parse_eq_ok_iff.2 ⟨d, hlines, valid, rfl⟩
  obtain rfl : source = d.read := Except.ok.inj (accepted.symm.trans hread)
  refine ⟨_, if_neg positive, ?_, emit_read d depth.toNat, ?_⟩
  · intro l hl
    rw [emit_read] at hl
    obtain ⟨w, hw, rfl⟩ := List.mem_map.1 hl
    have feeds : ∀ l ∈ d.lines, '\n' ∉ l := by
      rw [hlines]
      exact fun l hl => Text.feed_not_mem_of_mem_lines hl
    exact feed_not_mem_emit valid.pieces feeds hw
  · intro plain
    rw [← hlines] at plain
    refine ⟨valid.congr plain.agree, ?_⟩
    rw [emit_read, List.forall₂_map_right_iff, List.forall₂_same]
    exact fun w hw => Written.is_emit (plain_of_mem_written valid.pieces plain hw)

theorem loopLayout_unroll :
    parse loopText = .ok loopLayout.read ∧ (2 : UInt32) ≠ 0 ∧ PlainNames (Text.lines loopText) ∧
      ∃ out : List Line, loopLayout.read.unroll 2 = .ok (Text.unlines out) ∧
        (∀ l ∈ out, '\n' ∉ l) ∧ List.Forall₂ Written.Is (loopLayout.written 2) out := by
  have accepted : parse loopText = .ok loopLayout.read := by decide +kernel
  have positive : (2 : UInt32) ≠ 0 := by decide
  have valid : loopLayout.Valid Scan.FindsCall :=
    loopLayout_valid.congr (lines_loopText ▸ plainNames_loopText.agree.symm)
  obtain ⟨out, hunroll, hfeeds, -, hwritten⟩ :=
    (unroll_eq_written accepted positive).2.1 loopLayout lines_loopText valid
  exact ⟨accepted, positive, plainNames_loopText, out, hunroll, hfeeds,
    (hwritten plainNames_loopText).2⟩

/-- A function with a declaration in which its name stands alone twice, the second time where it
overlaps the end of a longer identifier. -/
def overlapDeclaration : Layout := [
  .function
    { marker := "// rec:func a(a".toList
      name := "a(a".toList
      declaration := "fn a(a(xa(a(a(".toList
      parts := []
      closing := "// rec:endfunc a(a".toList }]

theorem renames_overlap : Renames "a(a".toList "a(a_d1".toList none "fn a(a(xa(a(a(".toList
    "fn a(a_d1(xa(a(a_d1(".toList := by
  have hl : "fn a(a(xa(a(a(".toList = 'f' :: 'n' :: ' ' :: ("a(a".toList ++ '(' :: 'x' :: 'a' ::
      '(' :: ("a(a".toList ++ ['('])) := by decide +kernel
  have hl' : "fn a(a_d1(xa(a(a_d1(".toList = 'f' :: 'n' :: ' ' :: ("a(a_d1".toList ++ '(' :: 'x' ::
      'a' :: '(' :: ("a(a_d1".toList ++ ['('])) := by decide +kernel
  rw [hl, hl']
  refine .other (by decide +kernel) (.other (by decide +kernel) (.other (by decide +kernel)
    (.call rfl (by decide) ?_)))
  exact .other (by decide +kernel) (.other (by decide +kernel) (.other (by decide +kernel)
    (.call rfl (by decide) (.nil _))))

/-- The name stays in the declaration where it stands alone for the second time. -/
theorem overlap_kept :
    parse (Text.unlines overlapDeclaration.lines) = .ok overlapDeclaration.read ∧
      overlapDeclaration.read.unroll 2 =
        .ok (Text.unlines ["".toList, "fn a(a(xa(a(a(".toList, "".toList,
          "fn a(a_d1(xa(a(a(".toList]) ∧
      ¬∀ text source depth, parse text = .ok source → depth ≠ 0 → ∀ d : Layout,
        d.lines = Text.lines text → d.Valid StandsAlone → ∃ out : List Line,
          source.unroll depth = .ok (Text.unlines out) ∧ (∀ l ∈ out, '\n' ∉ l) ∧
            List.Forall₂ Written.Is (d.written depth.toNat) out := by
  have accepted : parse (Text.unlines overlapDeclaration.lines) = .ok overlapDeclaration.read := by
    decide +kernel
  have unrolled : overlapDeclaration.read.unroll 2 =
      .ok (Text.unlines ["".toList, "fn a(a(xa(a(a(".toList, "".toList,
        "fn a(a_d1(xa(a(a(".toList]) := by decide +kernel
  refine ⟨accepted, unrolled, fun all => ?_⟩
  have valid : overlapDeclaration.Valid StandsAlone := by
    refine ⟨List.forall_mem_singleton.2 ?_, by decide +kernel, nofun, nofun⟩
    exact ⟨LineKind.of_eq_directive_iff.1 (by decide +kernel), ⟨"".toList, "xa(a(a(".toList,
      by decide +kernel⟩, nofun, LineKind.of_eq_directive_iff.1 (by decide +kernel)⟩
  obtain ⟨out, hunroll, hfeeds, hwritten⟩ :=
    all _ _ 2 accepted (by decide) overlapDeclaration (by decide +kernel) valid
  -- the lines of the output are known, and the last one is another line of the same text renamed
  have hout := Text.eq_of_unlines_eq hfeeds (by decide +kernel)
    (Except.ok.inj (hunroll.symm.trans unrolled))
  subst hout
  have hlast : Renames "a(a".toList "a(a_d1".toList none "fn a(a(xa(a(a(".toList
      "fn a(a_d1(xa(a(a(".toList := by
    have hindex := hwritten.get (i := 3) (by decide +kernel) (by decide +kernel)
    exact hindex
  exact absurd (hlast.unique renames_overlap) (by decide +kernel)

end MarkedSource

end RayTracer
