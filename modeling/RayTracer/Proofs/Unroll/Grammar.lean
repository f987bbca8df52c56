import Mathlib.Data.List.Basic
import RayTracer.Proofs.Unroll.Layout
import RayTracer.Proofs.Unroll.Meaning
import RayTracer.Proofs.Unroll.Renaming

/-!
# Which texts are accepted

`Layout.run_lines` says that a text with a layout is read to its end.  Here is the converse: a
reading that ends outside all marked functions has taken the lines of a layout
(`Scan.exists_layout`), which is found from the inside to the outside, the lines of a block first.
Together with the two checks that are made when all lines are read, this says which texts are
accepted.

* `MarkedSource.parse_eq_ok_iff` : **a text is accepted exactly if it has a layout that is valid for
  the search for calls**, and `Layout.read` of it is the source.
* `MarkedSource.accepts_iff` : if no directive names something with a parenthesis (`PlainNames`),
  this is the grammar in which a call is a name that stands alone.
* `MarkedSource.overlap_refused` : with such a name a text may follow that grammar and be refused.
-/

namespace RayTracer

open Layout

/-! ### From a reading to a layout -/

namespace OpenFunction

/-- The line ends what the function has open, its block if there is one, or starts a block. -/
def Closes (f : OpenFunction) (l : Line) : Prop :=
  match f.block with
  | some b => IsDirective .endBlock b.name l
  | none => IsDirective .endFunction f.name l ∨ ∃ name, IsDirective .block name l

theorem closes_push {f : OpenFunction} {s : Statement} {l : Line} :
    (f.push s).Closes l ↔ f.Closes l := by
  cases hb : f.block <;> simp [Closes, push, hb]

theorem isSome_block_push (f : OpenFunction) (s : Statement) :
    (f.push s).block.isSome = f.block.isSome := by
  cases hb : f.block <;> simp [push, hb]

end OpenFunction

namespace Scan

variable {s t : Scan} {f : OpenFunction} {n : Nat} {lines : List Line}

theorem run_nil_ne_ok (hs : s.mode ≠ .outside) (ht : t.mode = .outside) :
    s.run n [] ≠ .ok t := by
  intro h
  obtain rfl := Except.ok.inj h
  exact hs ht

/-- The line after the directive of a call is the call. -/
theorem exists_callSite {kind : CallKind} {callee : Line} {marker : Nat}
    (mode : s.mode = .callSite f kind callee marker) (h : s.run n lines = .ok t)
    (ht : t.mode = .outside) :
    ∃ l rest, lines = l :: rest ∧ IsOrdinary l ∧ FindsCall l callee ∧
      (kind = .recursive → f.block.isSome = true) ∧
      { s with mode := .inside (f.push (.call ⟨kind, callee, n, l⟩)) }.run (n + 1) rest =
        .ok t := by
  cases lines with
  | nil => exact absurd h (run_nil_ne_ok (by simp [mode]) ht)
  | cons l rest =>
    obtain ⟨s', hread, hrest⟩ := run_cons_eq_ok.1 h
    cases hread with
    | callSite hmode ordinary calls guarded =>
      obtain ⟨rfl, rfl, rfl, rfl⟩ := Mode.callSite.inj (mode.symm.trans hmode)
      exact ⟨l, rest, rfl, LineKind.of_eq_ordinary_iff.1 ordinary, calls,
        fun hk => Option.isSome_iff_ne_none.2 (guarded hk), hrest⟩
    | regular hmode | functionMarker hmode | declaration hmode | plain hmode | endFunction hmode
    | block hmode | endBlock hmode | callMarker hmode => simp [mode] at hmode

/-- The line after the directive of a function is its declaration. -/
theorem exists_declaration {name : Line} {marker : Nat} (mode : s.mode = .declaration name marker)
    (h : s.run n lines = .ok t) (ht : t.mode = .outside) :
    ∃ l rest, lines = l :: rest ∧ "fn ".toList ++ callPattern name <:+: l ∧
      { s with mode := .inside ⟨name, l, [], none⟩ }.run (n + 1) rest = .ok t := by
  cases lines with
  | nil => exact absurd h (run_nil_ne_ok (by simp [mode]) ht)
  | cons l rest =>
    obtain ⟨s', hread, hrest⟩ := run_cons_eq_ok.1 h
    cases hread with
    | declaration hmode declares =>
      obtain ⟨rfl, rfl⟩ := Mode.declaration.inj (mode.symm.trans hmode)
      exact ⟨l, rest, rfl, Line.has_iff.1 declares, hrest⟩
    | regular hmode | functionMarker hmode | plain hmode | endFunction hmode | block hmode
    | endBlock hmode | callMarker hmode | callSite hmode => simp [mode] at hmode

/-- The lines of a function up to the next directive that belongs to no call. -/
theorem exists_entries (mode : s.mode = .inside f) (h : s.run n lines = .ok t)
    (ht : t.mode = .outside) :
    ∃ (es : List Entry) (l : Line) (rest : List Line), lines = es.flatMap Entry.lines ++ l :: rest ∧
      (∀ e ∈ es, e.Valid FindsCall f.block.isSome) ∧ f.Closes l := by
  induction hlength : lines.length using Nat.strongRecOn generalizing s f n lines with
  | _ length ih =>
    subst hlength
    cases lines with
    | nil => exact absurd h (run_nil_ne_ok (by simp [mode]) ht)
    | cons l rest =>
      obtain ⟨s', hread, hrest⟩ := run_cons_eq_ok.1 h
      cases hread with
      | plain hmode ordinary =>
        obtain rfl := Mode.inside.inj (mode.symm.trans hmode)
        obtain ⟨es, c, rest', rfl, hvalid, hcloses⟩ := ih _ (Nat.lt_succ_self _) rfl hrest rfl
        rw [OpenFunction.isSome_block_push] at hvalid
        refine ⟨.text l :: es, c, rest', rfl, ?_, OpenFunction.closes_push.1 hcloses⟩
        exact List.forall_mem_cons.2 ⟨LineKind.of_eq_ordinary_iff.1 ordinary, hvalid⟩
      | @callMarker g kind callee hmode hkind =>
        obtain rfl := Mode.inside.inj (mode.symm.trans hmode)
        obtain ⟨l', rest', rfl, hordinary, hcalls, hguarded, hrest'⟩ :=
          exists_callSite rfl hrest ht
        obtain ⟨es, c, rest'', rfl, hvalid, hcloses⟩ :=
          ih _ (Nat.lt_succ_of_lt (Nat.lt_succ_self _)) rfl hrest' rfl
        rw [OpenFunction.isSome_block_push] at hvalid
        refine ⟨.call l kind callee l' :: es, c, rest'', rfl, ?_,
          OpenFunction.closes_push.1 hcloses⟩
        exact List.forall_mem_cons.2
          ⟨⟨LineKind.of_eq_directive_iff.1 hkind, hordinary, hcalls, hguarded⟩, hvalid⟩
      | endFunction hmode kind closed =>
        obtain rfl := Mode.inside.inj (mode.symm.trans hmode)
        refine ⟨[], l, rest, rfl, nofun, ?_⟩
        simp only [OpenFunction.Closes, closed]
        exact .inl (LineKind.of_eq_directive_iff.1 kind)
      | block hmode kind closed =>
        obtain rfl := Mode.inside.inj (mode.symm.trans hmode)
        refine ⟨[], l, rest, rfl, nofun, ?_⟩
        simp only [OpenFunction.Closes, closed]
        exact .inr ⟨_, LineKind.of_eq_directive_iff.1 kind⟩
      | endBlock hmode kind opened =>
        obtain rfl := Mode.inside.inj (mode.symm.trans hmode)
        refine ⟨[], l, rest, rfl, nofun, ?_⟩
        simp only [OpenFunction.Closes, opened]
        exact LineKind.of_eq_directive_iff.1 kind
      | regular hmode | functionMarker hmode | declaration hmode | callSite hmode =>
        simp [mode] at hmode

/-- The body of a function, up to the directive that ends it. -/
theorem exists_parts (mode : s.mode = .inside f) (closed : f.block = none)
    (h : s.run n lines = .ok t) (ht : t.mode = .outside) :
    ∃ (ps : List Part) (l : Line) (rest : List Line), lines = ps.flatMap Part.lines ++ l :: rest ∧
      (∀ p ∈ ps, p.Valid FindsCall) ∧ IsDirective .endFunction f.name l := by
  induction hlength : lines.length using Nat.strongRecOn generalizing s f n lines with
  | _ length ih =>
    subst hlength
    obtain ⟨es, l, rest, rfl, hes, hcloses⟩ := exists_entries mode h ht
    have hlines : (es.map Part.entry).flatMap Part.lines = es.flatMap Entry.lines := by
      rw [List.flatMap_map]
      rfl
    have hparts : ∀ p ∈ es.map Part.entry, p.Valid FindsCall := by
      rw [closed] at hes
      simpa [Part.Valid] using hes
    simp only [OpenFunction.Closes, closed] at hcloses
    rcases hcloses with hend | ⟨name, hopening⟩
    · exact ⟨es.map .entry, l, rest, by rw [hlines], hparts, hend⟩
    · -- the lines of the block are found first, then the block is read as a part of the body
      have hblock := h
      rw [run_entries mode hes,
        run_cons_of_reads (.block rfl (LineKind.of_eq_directive_iff.2 hopening)
          (by rw [OpenFunction.pushAll_of_closed closed]; exact closed))] at hblock
      obtain ⟨inner, l', rest', rfl, hinner, hclosing⟩ := exists_entries rfl hblock ht
      obtain ⟨first, hfirst, hfirstValid⟩ : ∃ first : List Part,
          es.flatMap Entry.lines ++ l :: (inner.flatMap Entry.lines ++ l' :: rest') =
            first.flatMap Part.lines ++ rest' ∧ ∀ p ∈ first, p.Valid FindsCall := by
        refine ⟨es.map .entry ++ [.block ⟨l, name, inner, l'⟩], ?_, ?_⟩
        · simp [hlines, Part.lines, Block.lines]
        · exact List.forall_mem_append.2
            ⟨hparts, List.forall_mem_singleton.2 ⟨hopening, hinner, hclosing⟩⟩
      rw [hfirst, run_parts mode closed hfirstValid] at h
      obtain ⟨ps, c, rest'', rfl, hrest, hc⟩ := ih rest'.length (by simp; omega)
        (f := { f with body := f.body ++ readFrom Part.lines Part.read n first }) rfl closed h rfl
      refine ⟨first ++ ps, c, rest'', ?_, List.forall_mem_append.2 ⟨hfirstValid, hrest⟩, hc⟩
      rw [hfirst, List.flatMap_append, List.append_assoc]

/-- **A reading that ends outside all marked functions has taken the lines of a layout.** -/
theorem exists_layout (mode : s.mode = .outside) (h : s.run n lines = .ok t)
    (ht : t.mode = .outside) :
    ∃ d : Layout, d.lines = lines ∧ (∀ p ∈ d, p.Valid FindsCall) ∧ d.names.Nodup ∧
      ∀ f ∈ s.functions, f.name ∉ d.names := by
  induction hlength : lines.length using Nat.strongRecOn generalizing s n lines with
  | _ length ih =>
    subst hlength
    cases lines with
    | nil => exact ⟨[], rfl, nofun, List.nodup_nil, fun _ _ => List.not_mem_nil⟩
    | cons l rest =>
      obtain ⟨s', hread, hrest⟩ := run_cons_eq_ok.1 h
      cases hread with
      | regular _ ordinary =>
        obtain ⟨d, rfl, hvalid, hnodup, hfresh⟩ := ih _ (Nat.lt_succ_self _)
          (s := { s with regular := s.regular ++ [l] }) mode hrest rfl
        refine ⟨.regular l :: d, rfl, ?_, hnodup, hfresh⟩
        exact List.forall_mem_cons.2 ⟨LineKind.of_eq_ordinary_iff.1 ordinary, hvalid⟩
      | @functionMarker name _ hkind hfresh =>
        obtain ⟨declaration, rest, rfl, hdeclares, hbody⟩ := exists_declaration rfl hrest ht
        obtain ⟨ps, c, rest', rfl, hps, hc⟩ := exists_parts rfl rfl hbody ht
        -- all of the function is known, and it can be read at once
        let g : Layout.Function := ⟨l, name, declaration, ps, c⟩
        have hg : g.Valid FindsCall :=
          ⟨LineKind.of_eq_directive_iff.1 hkind, hdeclares, hps, hc⟩
        have hlines : l :: declaration :: (ps.flatMap Part.lines ++ c :: rest') =
            g.lines ++ rest' := by
          simp [g, Function.lines]
        rw [hlines, run_function mode hg hfresh] at h
        obtain ⟨d, rfl, hvalid, hnodup, hnew⟩ := ih rest'.length (by simp; omega) rfl h rfl
        refine ⟨.function g :: d, hlines.symm, List.forall_mem_cons.2 ⟨hg, hvalid⟩, ?_, ?_⟩
        · exact List.nodup_cons.2 ⟨hnew _ (List.mem_append_right _ List.mem_cons_self), hnodup⟩
        · intro f hf
          exact List.not_mem_cons_of_ne_of_not_mem (hfresh f hf)
            (hnew f (List.mem_append_left _ hf))
      | declaration hmode | plain hmode | endFunction hmode | block hmode | endBlock hmode
      | callMarker hmode | callSite hmode => simp [mode] at hmode

end Scan

/-! ### What is checked at the end -/

namespace Layout

section ReadFrom

variable {α β γ : Type} {lines : α → List Line} {read : Nat → α → List β}

/-- What is taken from the things read, if it does not depend on line numbers. -/
theorem flatMap_readFrom {take : β → List γ} {take' : α → List γ}
    (h : ∀ n a, (read n a).flatMap take = take' a) (n : Nat) (as : List α) :
    (readFrom lines read n as).flatMap take = as.flatMap take' := by
  induction as generalizing n with
  | nil => rfl
  | cons a as ih => rw [readFrom, List.flatMap_append, h, ih, List.flatMap_cons]

end ReadFrom

/-- What is taken from the functions read. -/
theorem flatMap_functions_read {γ : Type} {take : MarkedFunction → List γ}
    {take' : Function → List γ} (h : ∀ n f, take (f.read n) = take' f) (d : Layout) :
    d.read.functions.flatMap take = d.functions.flatMap take' := by
  have hpiece : ∀ n (p : Piece), (p.read n).flatMap take = p.function?.toList.flatMap take' := by
    intro n p
    cases p with
    | regular l => rfl
    | function f => simp [Piece.read, Piece.function?, h]
  rw [functions, List.filterMap_eq_flatMap_toList, List.flatMap_assoc]
  exact flatMap_readFrom hpiece 1 d

/-- What is taken from the lines that a copy of a function that was read keeps. -/
theorem flatMap_kept_read {γ : Type} {take : Statement → List γ} {take' : Entry → List γ}
    (h : ∀ n e, (Entry.read n e).flatMap take = take' e) (isLast : Bool) (n : Nat) (f : Function) :
    ((f.read n).kept isLast).flatMap take = (f.kept isLast).flatMap take' := by
  have hpart : ∀ n (p : Part), (p.read n).flatMap (fun b => (b.kept isLast).flatMap take) =
      (p.kept isLast).flatMap take' := by
    intro n p
    cases p with
    | entry e => simp [Part.read, Part.kept, BodyPart.kept, List.flatMap_map, ← h n e]
    | block b =>
      cases isLast with
      | true => rfl
      | false => simpa [Part.read, Part.kept, BodyPart.kept, Block.read] using
          flatMap_readFrom h (n + 1) b.entries
  rw [MarkedFunction.kept, Function.kept, List.flatMap_assoc, List.flatMap_assoc]
  exact flatMap_readFrom hpart (n + 2) f.parts

theorem names_read (d : Layout) : d.read.functions.map MarkedFunction.name = d.names := by
  rw [List.map_eq_flatMap, names, List.map_eq_flatMap]
  exact flatMap_functions_read (fun n f => rfl) d

theorem callees_read (d : Layout) :
    (d.read.functions.flatMap MarkedFunction.calls).map CallSite.callee =
      d.entries.filterMap Entry.callee? := by
  have hentry : ∀ n (e : Entry),
      (e.read n).flatMap (fun s => (s.call?.map CallSite.callee).toList) = e.callee?.toList := by
    intro n e
    cases e <;> rfl
  have hfunction : ∀ n (f : Function),
      (f.read n).calls.map CallSite.callee = f.entries.filterMap Entry.callee? := by
    intro n f
    rw [MarkedFunction.calls, List.map_filterMap, List.filterMap_eq_flatMap_toList,
      List.filterMap_eq_flatMap_toList]
    rw [← MarkedFunction.kept_false, ← Function.kept_false]
    exact flatMap_kept_read hentry false n f
  rw [List.map_flatMap, entries, List.filterMap_flatMap]
  exact flatMap_functions_read hfunction d

theorem texts_plain (d : Layout) :
    d.plain.map PlainLine.text = d.entries.filterMap Entry.text? := by
  have hentry : ∀ name n (e : Entry),
      (e.plain name n).flatMap (fun l => [l.text]) = e.text?.toList := by
    intro name n e
    cases e <;> rfl
  have hpart : ∀ name n (p : Part), (p.plain name n).flatMap (fun l => [l.text]) =
      p.entries.flatMap fun e => e.text?.toList := by
    intro name n p
    cases p with
    | entry e => simpa [Part.plain, Part.entries] using hentry name n e
    | block b => exact flatMap_readFrom (hentry name) (n + 1) b.entries
  have hpiece : ∀ n (p : Piece), (p.plain n).flatMap (fun l => [l.text]) =
      p.function?.toList.flatMap fun f => f.entries.filterMap Entry.text? := by
    intro n p
    cases p with
    | regular l => rfl
    | function f =>
      simp only [Piece.plain, Piece.function?, Option.toList_some, List.flatMap_singleton,
        Function.entries, List.filterMap_eq_flatMap_toList, List.flatMap_assoc]
      exact flatMap_readFrom (hpart f.name) (n + 2) f.parts
  rw [List.map_eq_flatMap, entries, functions, List.filterMap_flatMap,
    List.filterMap_eq_flatMap_toList, List.flatMap_assoc]
  exact flatMap_readFrom hpiece 1 d

end Layout

namespace Scan

theorem unknownCallee?_eq_none_iff {functions : List MarkedFunction} :
    unknownCallee? functions = none ↔
      ∀ callee ∈ (functions.flatMap MarkedFunction.calls).map CallSite.callee,
        callee ∈ functions.map MarkedFunction.name := by
  rw [unknownCallee?, List.find?_eq_none, List.forall_mem_map]
  simp

theorem unmarkedCall?_eq_none_iff {functions : List MarkedFunction} {plain : List PlainLine} :
    unmarkedCall? functions plain = none ↔
      ∀ l ∈ plain.map PlainLine.text, ∀ name ∈ functions.map MarkedFunction.name,
        ¬FindsCall (Line.before "//".toList l) name := by
  simp [unmarkedCall?, calledFunction?, List.findSome?_eq_none_iff, List.find?_eq_none, FindsCall]

theorem finish_eq_ok_iff {s : Scan} {source : MarkedSource} :
    s.finish = .ok source ↔ s.mode = .outside ∧ unknownCallee? s.functions = none ∧
      unmarkedCall? s.functions s.plain = none ∧ source = ⟨s.regular, s.functions⟩ := by
  refine ⟨finish_eq_ok, ?_⟩
  rintro ⟨mode, known, unmarked, rfl⟩
  simp only [finish, mode, known, unmarked]

/-- The checks at the end are those that the grammar asks for. -/
theorem finish_layout_iff {d : Layout} {source : MarkedSource} :
    Scan.finish { regular := d.read.regular, functions := d.read.functions, plain := d.plain } =
        .ok source ↔
      (∀ e ∈ d.entries, ∀ callee, e.callee? = some callee → callee ∈ d.names) ∧
      (∀ e ∈ d.entries, ∀ l, e.text? = some l → ∀ name ∈ d.names,
        ¬FindsCall (Line.before "//".toList l) name) ∧ source = d.read := by
  rw [finish_eq_ok_iff, unknownCallee?_eq_none_iff, unmarkedCall?_eq_none_iff]
  simp only [callees_read, names_read, texts_plain, List.mem_filterMap, true_and]
  constructor
  · rintro ⟨hcallees, hunmarked, rfl⟩
    exact ⟨fun e he callee hc => hcallees callee ⟨e, he, hc⟩,
      fun e he l hl => hunmarked l ⟨e, he, hl⟩, rfl⟩
  · rintro ⟨hcallees, hunmarked, rfl⟩
    exact ⟨fun callee ⟨e, he, hc⟩ => hcallees e he callee hc,
      fun l ⟨e, he, hl⟩ => hunmarked e he l hl, rfl⟩

end Scan

/-- **What is read from a text is read from one of its layouts.** -/
theorem MarkedSource.parse_eq_ok_iff {text : List Char} {source : MarkedSource} :
    parse text = .ok source ↔ ∃ d : Layout, d.lines = Text.lines text ∧ d.Valid Scan.FindsCall ∧
      source = d.read := by
  constructor
  · intro h
    obtain ⟨s, hrun, hfinish⟩ := parse_eq_ok h
    obtain ⟨d, hlines, hpieces, hnames, -⟩ :=
      Scan.exists_layout rfl hrun (Scan.finish_eq_ok hfinish).1
    rw [← hlines, run_lines hpieces hnames] at hrun
    obtain rfl := Except.ok.inj hrun
    obtain ⟨hcallees, hunmarked, hsource⟩ := Scan.finish_layout_iff.1 hfinish
    exact ⟨d, hlines, ⟨hpieces, hnames, hcallees, hunmarked⟩, hsource⟩
  · rintro ⟨d, hlines, hvalid, hsource⟩
    rw [parse, ← hlines, run_lines hvalid.pieces hvalid.names]
    exact Scan.finish_layout_iff.2 ⟨hvalid.callees, hvalid.unmarked, hsource⟩

/-! ### Names that stand alone -/

namespace Layout

section Agree

variable {Calls Calls' : Line → Line → Prop}

/-- The two say the same of calls of the names that are in directives. -/
def Agree (Calls Calls' : Line → Line → Prop) (lines : List Line) : Prop :=
  ∀ marker ∈ lines, ∀ kind name, IsDirective kind name marker → ∀ l, Calls l name ↔ Calls' l name

theorem Agree.symm {lines : List Line} (h : Agree Calls Calls' lines) :
    Agree Calls' Calls lines :=
  fun marker hm kind name hd l => (h marker hm kind name hd l).symm

theorem Agree.mono {lines lines' : List Line} (h : Agree Calls Calls' lines)
    (sub : lines' ⊆ lines) : Agree Calls Calls' lines' :=
  fun marker hm => h marker (sub hm)

theorem Entry.Valid.congr {e : Entry} {inBlock : Bool} (h : e.Valid Calls inBlock)
    (agree : Agree Calls Calls' e.lines) : e.Valid Calls' inBlock := by
  cases e with
  | text l => exact h
  | call marker kind callee l =>
    obtain ⟨hmarker, hordinary, hcalls, hguarded⟩ := h
    have hl := (agree marker List.mem_cons_self _ callee hmarker l).1 hcalls
    exact ⟨hmarker, hordinary, hl, hguarded⟩

theorem Part.Valid.congr {p : Part} (h : p.Valid Calls) (agree : Agree Calls Calls' p.lines) :
    p.Valid Calls' := by
  cases p with
  | entry e => exact Entry.Valid.congr h agree
  | block b =>
    refine ⟨h.opening, fun e he => (h.entries e he).congr (agree.mono ?_), h.closing⟩
    intro l hl
    exact List.mem_cons_of_mem _ (List.mem_append_left _ (List.mem_flatMap.2 ⟨e, he, hl⟩))

theorem Piece.Valid.congr {p : Piece} (h : p.Valid Calls) (agree : Agree Calls Calls' p.lines) :
    p.Valid Calls' := by
  cases p with
  | regular l => exact h
  | function f =>
    refine ⟨h.marker, h.declaration, fun q hq => (h.parts q hq).congr (agree.mono ?_), h.closing⟩
    intro l hl
    exact List.mem_cons_of_mem _ (List.mem_cons_of_mem _
      (List.mem_append_left _ (List.mem_flatMap.2 ⟨q, hq, hl⟩)))

/-- The names of marked functions are in directives. -/
theorem exists_directive_of_mem_names {d : Layout} (h : ∀ p ∈ d, p.Valid Calls) {name : Line}
    (hname : name ∈ d.names) : ∃ l ∈ d.lines, ∃ kind, IsDirective kind name l := by
  obtain ⟨f, hf, rfl⟩ := List.mem_map.1 hname
  obtain ⟨p, hp, hfunction⟩ := List.mem_filterMap.1 hf
  cases p with
  | regular l => cases hfunction
  | function g =>
    obtain rfl := Option.some.inj hfunction
    exact ⟨g.marker, List.mem_flatMap.2 ⟨_, hp, List.mem_cons_self⟩, _, (h _ hp).marker⟩

theorem Valid.congr {d : Layout} (h : d.Valid Calls) (agree : Agree Calls Calls' d.lines) :
    d.Valid Calls' where
  pieces p hp := (h.pieces p hp).congr (agree.mono fun _ hl => List.mem_flatMap.2 ⟨p, hp, hl⟩)
  names := h.names
  callees := h.callees
  unmarked e he l hl name hname := by
    obtain ⟨marker, hmarker, kind, hd⟩ := exists_directive_of_mem_names h.pieces hname
    exact mt (agree marker hmarker kind name hd _).2 (h.unmarked e he l hl name hname)

end Agree

end Layout

/-- No directive names something with a parenthesis. -/
def PlainNames (lines : List Line) : Prop :=
  ∀ l ∈ lines, ∀ kind name, IsDirective kind name l → '(' ∉ name

theorem plainNames_of_kinds {lines : List Line}
    (h : ∀ l ∈ lines, (match LineKind.of l with
      | .directive _ name => !name.contains '('
      | _ => true) = true) : PlainNames lines := by
  intro l hl kind name hd
  have hname := h l hl
  rw [LineKind.of_eq_directive_iff.2 hd] at hname
  simpa using hname

theorem PlainNames.agree {lines : List Line} (h : PlainNames lines) :
    Agree Scan.FindsCall StandsAlone lines :=
  fun l hl kind name hd _ => hasCall_iff_standsAlone ⟨hd.1.1, h l hl kind name hd⟩

namespace MarkedSource

/-- **Exactly the texts that follow the grammar are accepted.**  A call is what the search for calls
finds, and if no directive names something with a parenthesis, it is a name that stands alone. -/
theorem accepts_iff (text : List Char) :
    ((∃ source, parse text = .ok source) ↔
      ∃ d : Layout, d.lines = Text.lines text ∧ d.Valid Scan.FindsCall) ∧
    (PlainNames (Text.lines text) → ((∃ source, parse text = .ok source) ↔
      ∃ d : Layout, d.lines = Text.lines text ∧ d.Valid StandsAlone)) := by
  have found : (∃ source, parse text = .ok source) ↔
      ∃ d : Layout, d.lines = Text.lines text ∧ d.Valid Scan.FindsCall := by
    constructor
    · rintro ⟨source, h⟩
      obtain ⟨d, hlines, hvalid, -⟩ := parse_eq_ok_iff.1 h
      exact ⟨d, hlines, hvalid⟩
    · rintro ⟨d, hlines, hvalid⟩
      exact ⟨d.read, parse_eq_ok_iff.2 ⟨d, hlines, hvalid, rfl⟩⟩
  refine ⟨found, fun plain => found.trans ⟨?_, ?_⟩⟩
  · rintro ⟨d, hlines, hvalid⟩
    exact ⟨d, hlines, hvalid.congr (hlines ▸ plain.agree)⟩
  · rintro ⟨d, hlines, hvalid⟩
    exact ⟨d, hlines, hvalid.congr (hlines ▸ plain.agree.symm)⟩

/-- A regular line and a function that calls itself in a block. -/
def loopLayout : Layout := [
  .regular "// text".toList,
  .function
    { marker := "// rec:func t".toList
      name := "t".toList
      declaration := "fn t(x)".toList
      parts := [
        .block
          { opening := "// rec:if b".toList
            name := "b".toList
            entries := [.call "// rec:rec-call t".toList .recursive "t".toList "1+t(x)".toList]
            closing := "// rec:endif b".toList },
        .entry (.text "return x // t(x)".toList)]
      closing := "// rec:endfunc t".toList }]

theorem loopLayout_valid : loopLayout.Valid StandsAlone where
  pieces := by
    refine List.forall_mem_cons.2 ⟨?_, List.forall_mem_singleton.2 ?_⟩
    · exact LineKind.of_eq_ordinary_iff.1 (by decide +kernel)
    · refine ⟨LineKind.of_eq_directive_iff.1 (by decide +kernel), ?_, ?_,
        LineKind.of_eq_directive_iff.1 (by decide +kernel)⟩
      · exact ⟨[], "x)".toList, by decide +kernel⟩
      · refine List.forall_mem_cons.2 ⟨?_, List.forall_mem_singleton.2 ?_⟩
        · refine ⟨LineKind.of_eq_directive_iff.1 (by decide +kernel),
            List.forall_mem_singleton.2 ⟨?_, ?_, ?_, fun _ => rfl⟩,
            LineKind.of_eq_directive_iff.1 (by decide +kernel)⟩
          · exact LineKind.of_eq_directive_iff.1 (by decide +kernel)
          · exact LineKind.of_eq_ordinary_iff.1 (by decide +kernel)
          · exact ⟨"1+".toList, "x)".toList, by decide +kernel, by decide +kernel⟩
        · exact LineKind.of_eq_ordinary_iff.1 (by decide +kernel)
  names := by decide +kernel
  callees := by
    have hcallees : ∀ callee ∈ loopLayout.entries.filterMap Layout.Entry.callee?,
        callee ∈ loopLayout.names := by decide +kernel
    exact fun e he callee hc => hcallees callee (List.mem_filterMap.2 ⟨e, he, hc⟩)
  unmarked := by
    have hunmarked : ∀ l ∈ loopLayout.entries.filterMap Layout.Entry.text?,
        ∀ name ∈ loopLayout.names, '(' ∉ Line.before "//".toList l := by decide +kernel
    rintro e he l hl name hname ⟨before, after, h, -⟩
    have hnot := hunmarked l (List.mem_filterMap.2 ⟨e, he, hl⟩) name hname
    exact hnot (h ▸ List.mem_append_right before (List.mem_append_right name List.mem_cons_self))

/-- The text with this layout. -/
def loopText : List Char := Text.unlines loopLayout.lines

theorem lines_loopText : loopLayout.lines = Text.lines loopText := by decide +kernel

theorem plainNames_loopText : PlainNames (Text.lines loopText) :=
  plainNames_of_kinds (by decide +kernel)

theorem loopLayout_accepted :
    PlainNames (Text.lines loopText) ∧ ∃ source, parse loopText = .ok source :=
  ⟨plainNames_loopText,
    ((accepts_iff loopText).2 plainNames_loopText).2 ⟨loopLayout, lines_loopText, loopLayout_valid⟩⟩

/-- A function that calls itself, with a name that overlaps itself in the line of the call. -/
def overlapLayout : Layout := [
  .function
    { marker := "// rec:func a(a".toList
      name := "a(a".toList
      declaration := "fn a(a(".toList
      parts := [.entry (.call "// rec:call a(a".toList .forward "a(a".toList "xa(a(a(".toList)]
      closing := "// rec:endfunc a(a".toList }]

/-- The text follows the grammar, and no call is found in the line of the call. -/
theorem overlap_refused :
    parse (Text.unlines overlapLayout.lines) = .error (.missingCallSite 3 "a(a".toList) ∧
      ¬∀ text, (∃ source, parse text = .ok source) ↔
        ∃ d : Layout, d.lines = Text.lines text ∧ d.Valid StandsAlone := by
  have refused : parse (Text.unlines overlapLayout.lines) =
      .error (.missingCallSite 3 "a(a".toList) := by decide +kernel
  have hlines : overlapLayout.lines = Text.lines (Text.unlines overlapLayout.lines) := by
    decide +kernel
  have valid : overlapLayout.Valid StandsAlone := by
    refine ⟨List.forall_mem_singleton.2 ?_, by decide +kernel, ?_, ?_⟩
    · refine ⟨LineKind.of_eq_directive_iff.1 (by decide +kernel), ?_,
        List.forall_mem_singleton.2 ⟨?_, ?_, ?_, nofun⟩,
        LineKind.of_eq_directive_iff.1 (by decide +kernel)⟩
      · exact ⟨[], [], by decide +kernel⟩
      · exact LineKind.of_eq_directive_iff.1 (by decide +kernel)
      · exact LineKind.of_eq_ordinary_iff.1 (by decide +kernel)
      · exact hasCall_skips_overlap.1
    · intro e he callee hc
      obtain rfl := List.mem_singleton.1 he
      obtain rfl := Option.some.inj hc
      exact List.mem_singleton.2 rfl
    · intro e he l hl
      obtain rfl := List.mem_singleton.1 he
      cases hl
  refine ⟨refused, fun accepts => ?_⟩
  obtain ⟨source, h⟩ := (accepts _).2 ⟨overlapLayout, hlines, valid⟩
  rw [refused] at h
  cases h

end MarkedSource

end RayTracer
