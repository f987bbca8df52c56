import RayTracer.Proofs.Unroll.Calls
import RayTracer.Proofs.Unroll.Meaning
import RayTracer.Proofs.Unroll.Regions

/-!
# Calls of marked functions

Every call of a marked function in a body of the group is to be a marked one, so that a copy of the
body calls the copy on its own level or the next one (`MarkedSource.GroupCallsMarked`).  The reader
sees to this in two ways.  Of an unmarked line it asks that it calls no function of the group, and
this is all that is needed (`MarkedSource.not_callsInCode_of_text`).  Of a marked line it only asks
that it calls the function that it is marked for, and the line may call others as well.

* `MarkedSource.groupCallsMarked_iff` : **every call of a marked function is marked exactly if no
  marked line calls another marked function than the one that it is marked for**, and then no copy
  below level zero keeps a call of a function on level zero.
* `MarkedSource.nestedCall_not_marked` : an accepted source with a marked line that calls another
  marked function in an argument.
-/

namespace RayTracer

/-- The line calls `name` before any comment. -/
def CallsInCode (l name : Line) : Prop := hasCall (Line.before "//".toList l) name = true

instance (l name : Line) : Decidable (CallsInCode l name) :=
  inferInstanceAs (Decidable (_ = true))

namespace Scan

/-! ### Unmarked lines are remembered -/

/-- All unmarked lines of marked functions are remembered. -/
structure Remembers (s : Scan) : Prop where
  functions : ∀ f ∈ s.functions, ∀ l, .text l ∈ f.statements → ∃ p ∈ s.plain, p.text = l
  body : ∀ f, s.mode.openFunction? = some f → ∀ l, .text l ∈ f.statements →
    ∃ p ∈ s.plain, p.text = l

theorem Remembers.step {n : Nat} {text : Line} {s s' : Scan} (h : Reads n text s s')
    (hs : s.Remembers) : s'.Remembers := by
  obtain ⟨functions, body⟩ := hs
  cases h with
  | regular mode _ => exact ⟨functions, body⟩
  | functionMarker mode _ _ => exact ⟨functions, nofun⟩
  | declaration mode _ =>
    refine ⟨functions, ?_⟩
    intro f hf l hl
    obtain rfl := Option.some.inj hf
    exact absurd hl List.not_mem_nil
  | @plain f mode _ =>
    -- the new line is remembered with those before it
    have hold : ∀ l, (∃ p ∈ s.plain, p.text = l) →
        ∃ p ∈ s.plain ++ [⟨n, f.name, text⟩], p.text = l := by
      rintro l ⟨p, hp, hl⟩
      exact ⟨p, List.mem_append_left _ hp, hl⟩
    refine ⟨fun g hg l hl => hold l (functions g hg l hl), ?_⟩
    intro g hg l hl
    obtain rfl := Option.some.inj hg
    rw [OpenFunction.statements_push] at hl
    rcases List.mem_append.1 hl with hl | hl
    · exact hold l (body f (by rw [mode]; rfl) l hl)
    · obtain rfl := Statement.text.inj (List.mem_singleton.1 hl)
      exact ⟨_, List.mem_append_right _ List.mem_cons_self, rfl⟩
  | @endFunction f mode _ closed =>
    refine ⟨?_, nofun⟩
    intro g hg l hl
    rcases List.mem_append.1 hg with hg | hg
    · exact functions g hg l hl
    · rw [List.mem_singleton.1 hg, OpenFunction.statements_finish closed] at hl
      exact body f (by rw [mode]; rfl) l hl
  | @block f _ mode _ closed =>
    refine ⟨functions, ?_⟩
    intro g hg l hl
    obtain rfl := Option.some.inj hg
    rw [OpenFunction.statements_open _ closed] at hl
    exact body f (by rw [mode]; rfl) l hl
  | @endBlock f _ mode _ opened =>
    refine ⟨functions, ?_⟩
    intro g hg l hl
    obtain rfl := Option.some.inj hg
    rw [OpenFunction.statements_close opened] at hl
    exact body f (by rw [mode]; rfl) l hl
  | @callMarker f _ _ mode _ =>
    refine ⟨functions, ?_⟩
    intro g hg l hl
    obtain rfl := Option.some.inj hg
    exact body f (by rw [mode]; rfl) l hl
  | @callSite f _ _ _ mode _ _ _ =>
    refine ⟨functions, ?_⟩
    intro g hg l hl
    obtain rfl := Option.some.inj hg
    rw [OpenFunction.statements_push] at hl
    rcases List.mem_append.1 hl with hl | hl
    · exact body f (by rw [mode]; rfl) l hl
    · cases List.mem_singleton.1 hl

theorem not_callsInCode_of_unmarkedCall? {functions : List MarkedFunction}
    {plain : List PlainLine} (h : unmarkedCall? functions plain = none) {p : PlainLine}
    (hp : p ∈ plain) {g : MarkedFunction} (hg : g ∈ functions) : ¬CallsInCode p.text g.name := by
  have hnone := List.findSome?_eq_none_iff.1 h p hp
  rw [Option.map_eq_none_iff, calledFunction?, List.find?_eq_none] at hnone
  exact hnone g hg

end Scan

namespace MarkedSource

variable {source : MarkedSource} {text : List Char}

/-- **No unmarked line calls a function of the group.** -/
theorem not_callsInCode_of_text (accepted : parse text = .ok source) {f g : MarkedFunction}
    (hf : f ∈ source.functions) (hg : g ∈ source.functions) {l : Line}
    (hl : .text l ∈ f.statements) : ¬CallsInCode l g.name := by
  obtain ⟨s, hrun, hfinish⟩ := parse_eq_ok accepted
  obtain ⟨-, -, hunmarked, rfl⟩ := Scan.finish_eq_ok hfinish
  have remembers : s.Remembers :=
    Scan.run_invariant (fun _ _ _ _ => Scan.Remembers.step) hrun ⟨nofun, nofun⟩
  obtain ⟨p, hp, rfl⟩ := remembers.functions f hf l hl
  exact Scan.not_callsInCode_of_unmarkedCall? hunmarked hp hg

/-! ### Regions of an accepted source -/

theorem exists_region (accepted : parse text = .ok source) {f : MarkedFunction}
    (hf : f ∈ source.functions) : ∃ r : Region (Text.lines text), r.Holds f := by
  obtain ⟨s, hrun, hfinish⟩ := parse_eq_ok accepted
  obtain ⟨-, -, -, rfl⟩ := Scan.finish_eq_ok hfinish
  exact Scan.exists_region hrun hf

/-- A region holds the function that is named like it. -/
theorem holds_of_name_eq (accepted : parse text = .ok source) {f : MarkedFunction}
    (hf : f ∈ source.functions) (r : Region (Text.lines text)) (hname : r.name = f.name) :
    r.Holds f := by
  have nodup := (wellFormed_of_parse accepted).nodup
  obtain ⟨s, hrun, hfinish⟩ := parse_eq_ok accepted
  obtain ⟨-, -, -, rfl⟩ := Scan.finish_eq_ok hfinish
  obtain ⟨g, hg, hold⟩ := r.exists_function hrun
  have heq : g = f := eq_of_name_eq nodup hg hf (hold.1.trans hname)
  rwa [heq] at hold

/-! ### Marked calls -/

/-- Every line of a marked function that is no directive and calls a marked function is a marked
call of it. -/
def GroupCallsMarked (source : MarkedSource) (lines : List Line) : Prop :=
  ∀ f ∈ source.functions, ∀ r : Region lines, r.name = f.name →
    ∀ i l, r.body[i]? = some l → (∀ kind name, LineKind.of l ≠ .directive kind name) →
      ∀ g ∈ source.functions, CallsInCode l g.name →
        ∃ site ∈ f.calls, site.line = r.first + i ∧ site.text = l ∧ site.callee = g.name

/-- The line of a marked call calls no other function of the group. -/
def CallsOnlyCallee (source : MarkedSource) (site : CallSite) : Prop :=
  ∀ g ∈ source.functions, CallsInCode site.text g.name → g.name = site.callee

instance (source : MarkedSource) (site : CallSite) : Decidable (source.CallsOnlyCallee site) :=
  inferInstanceAs (Decidable (∀ g ∈ source.functions, _ → _))

/-- The line of a copy calls functions of the group only on levels other than zero: an ordinary line
calls none, and a call line only the one whose name is replaced. -/
def LeavesLevelZero (source : MarkedSource) : CopyLine → Prop
  | .text l => ∀ g ∈ source.functions, ¬CallsInCode l g.name
  | .call site target => source.CallsOnlyCallee site ∧
      ∃ level, 1 ≤ level ∧ target = specializedName site.callee level

theorem groupCallsMarked_of_callsOnlyCallee (accepted : parse text = .ok source)
    (only : ∀ f ∈ source.functions, ∀ site ∈ f.calls, source.CallsOnlyCallee site) :
    source.GroupCallsMarked (Text.lines text) := by
  intro f hf r hname i l hl code g hg hcall
  obtain ⟨-, -, lines⟩ := holds_of_name_eq accepted hf r hname
  rcases lines.exists_statement hl code with htext | ⟨kind, callee, hsite⟩
  · exact absurd hcall (not_callsInCode_of_text accepted hf hg htext)
  · have hmem : ⟨kind, callee, r.first + i, l⟩ ∈ f.calls := MarkedFunction.mem_calls.2 hsite
    exact ⟨_, hmem, rfl, rfl, (only f hf _ hmem g hg hcall).symm⟩

theorem callsOnlyCallee_of_groupCallsMarked (accepted : parse text = .ok source)
    (marked : source.GroupCallsMarked (Text.lines text)) {f : MarkedFunction}
    (hf : f ∈ source.functions) {site : CallSite} (hs : site ∈ f.calls) :
    source.CallsOnlyCallee site := by
  intro g hg hcall
  have hsite := MarkedFunction.mem_calls.1 hs
  obtain ⟨r, hname, -, lines⟩ := exists_region accepted hf
  obtain ⟨i, hi, hl, ordinary⟩ := lines.getElem?_of_call hsite
  have code : ∀ kind name, LineKind.of site.text ≠ .directive kind name := by
    intro kind name hdirective
    rw [ordinary] at hdirective
    cases hdirective
  obtain ⟨other, hother, hline, -, hcallee⟩ :=
    marked f hf r hname.symm i site.text hl code g hg hcall
  -- there is only one marked call on the line
  have heq : other = site :=
    lines.call_unique (MarkedFunction.mem_calls.1 hother) hsite (hline.trans hi.symm)
  rw [← heq]
  exact hcallee.symm

theorem leavesLevelZero_of_callsOnlyCallee (accepted : parse text = .ok source)
    (only : ∀ f ∈ source.functions, ∀ site ∈ f.calls, source.CallsOnlyCallee site)
    {f : MarkedFunction} (hf : f ∈ source.functions) {level : Nat} (hlevel : 1 ≤ level)
    (isLast : Bool) {line : CopyLine} (hline : line ∈ (f.copy level isLast).body) :
    source.LeavesLevelZero line := by
  obtain ⟨s, hs, rfl⟩ := List.mem_map.1 hline
  cases s with
  | text l =>
    intro g hg
    exact not_callsInCode_of_text accepted hf hg (MarkedFunction.mem_statements_of_mem_kept hs)
  | call site =>
    refine ⟨only f hf site (MarkedFunction.mem_calls_of_mem_kept hs), _, ?_, rfl⟩
    cases site.kind <;> simp only [CallKind.target] <;> omega

/-! ### The lines that are written -/

/-- Once the names are replaced, nothing calls a function on level zero. -/
theorem not_callsInCode_emit {depth : Nat} (accepted : parse text = .ok source)
    (only : ∀ f ∈ source.functions, ∀ site ∈ f.calls, source.CallsOnlyCallee site)
    (apart : source.NamesApart depth) (identifiers : ∀ f ∈ source.functions, IsIdentifier f.name)
    {f g : MarkedFunction} (hf : f ∈ source.functions) (hg : g ∈ source.functions) {level : Nat}
    (hl : level < depth) (hlevel : 1 ≤ level) {line : CopyLine}
    (hline : line ∈ (f.copy level (level + 1 == depth)).body) :
    ¬CallsInCode line.emit g.name := by
  obtain ⟨s, hs, rfl⟩ := List.mem_map.1 hline
  cases s with
  | text l =>
    have hl := MarkedFunction.mem_statements_of_mem_kept hs
    exact not_callsInCode_of_text accepted hf hg hl
  | call site =>
    intro hcall
    obtain ⟨k, hk, hname, htarget⟩ := exists_callee (wellFormed_of_parse accepted) hf hl hs
    have hcallee : IsIdentifier site.callee := hname ▸ identifiers k hk
    have hbelow : 1 ≤ site.kind.target level := by
      cases site.kind <;> simp only [CallKind.target] <;> omega
    simp only [Statement.copy, CopyLine.emit, CallsInCode] at hcall
    rw [before_comment_renameCall hcallee (isIdentifier_specializedName hcallee _)] at hcall
    rcases hasCall_of_hasCall_renameCall hcallee (isIdentifier_specializedName hcallee _)
      (identifiers g hg) hcall with heq | ⟨hne, hcall⟩
    · -- a name on a lower level is no marked name
      rw [specializedName_of_pos _ hbelow, ← hname] at heq
      exact apart g hg k hk _ htarget hbelow heq
    · exact hne (only f hf site (MarkedFunction.mem_calls_of_mem_kept hs) g hg hcall)

/-- **Every call of a marked function is marked exactly if no marked line calls another marked
function than the one that it is marked for.**  No copy below level zero keeps a call of a function
on level zero then: neither a line as it is read, nor, if the names are identifiers and none of them
is the name of a copy, a line as it is written. -/
theorem groupCallsMarked_iff (accepted : parse text = .ok source) :
    (source.GroupCallsMarked (Text.lines text) ↔
      ∀ f ∈ source.functions, ∀ site ∈ f.calls, source.CallsOnlyCallee site) ∧
    (source.GroupCallsMarked (Text.lines text) → ∀ depth, ∀ f ∈ source.functions,
      ∀ level < depth, 1 ≤ level → ∀ line ∈ (f.copy level (level + 1 == depth)).body,
        source.LeavesLevelZero line ∧
        (source.NamesApart depth → (∀ g ∈ source.functions, IsIdentifier g.name) →
          ∀ g ∈ source.functions, ¬CallsInCode line.emit g.name)) := by
  have forward : source.GroupCallsMarked (Text.lines text) →
      ∀ f ∈ source.functions, ∀ site ∈ f.calls, source.CallsOnlyCallee site := by
    intro marked f hf site hs
    exact callsOnlyCallee_of_groupCallsMarked accepted marked hf hs
  refine ⟨⟨forward, groupCallsMarked_of_callsOnlyCallee accepted⟩, ?_⟩
  intro marked depth f hf level hl hlevel line hline
  have only := forward marked
  refine ⟨leavesLevelZero_of_callsOnlyCallee accepted only hf hlevel _ hline, ?_⟩
  intro apart identifiers g hg
  exact not_callsInCode_emit accepted only apart identifiers hf hg hl hlevel hline

theorem mutualGroup_callsMarked :
    parse mutualText = .ok mutualGroup ∧ mutualGroup.GroupCallsMarked (Text.lines mutualText) ∧
      ∀ f ∈ mutualGroup.functions, ∀ line ∈ (f.copy 1 true).body,
        ∀ g ∈ mutualGroup.functions, ¬CallsInCode line.emit g.name := by
  have only : ∀ f ∈ mutualGroup.functions, ∀ site ∈ f.calls, mutualGroup.CallsOnlyCallee site := by
    decide +kernel
  have apart : mutualGroup.NamesApart 2 := by decide +kernel
  have identifiers : ∀ g ∈ mutualGroup.functions, IsIdentifier g.name := by decide +kernel
  obtain ⟨marked, leaves⟩ := groupCallsMarked_iff parse_mutualText
  refine ⟨parse_mutualText, marked.2 only, ?_⟩
  intro f hf line hline
  exact (leaves (marked.2 only) 2 f hf 1 (by decide) (by decide) line hline).2 apart identifiers

/-- A line that is marked for a call of one function and calls another one in its argument. -/
def nestedCallText : List Char :=
  ("// rec:func a\nfn a() \x7b\n// rec:call b\nb(a());\n\x7d\n// rec:endfunc a\n" ++
    "// rec:func b\nfn b() \x7b\n\x7d\n// rec:endfunc b\n").toList

/-- The functions of `nestedCallText`. -/
def nestedCall : MarkedSource where
  regular := []
  functions := [
    ⟨"a".toList, "fn a() \x7b".toList,
      [.statement (.call ⟨.forward, "b".toList, 4, "b(a());".toList⟩),
        .statement (.text "\x7d".toList)]⟩,
    ⟨"b".toList, "fn b() \x7b".toList, [.statement (.text "\x7d".toList)]⟩]

/-- The region of the first function of `nestedCallText`. -/
def nestedCallRegion : Region (Text.lines nestedCallText) where
  name := "a".toList
  before := []
  marker := "// rec:func a".toList
  declaration := "fn a() \x7b".toList
  body := ["// rec:call b".toList, "b(a());".toList, "\x7d".toList]
  close := "// rec:endfunc a".toList
  after := ["// rec:func b".toList, "fn b() \x7b".toList, "\x7d".toList, "// rec:endfunc b".toList]
  eq := by decide +kernel
  starts := by decide +kernel
  ends := by decide +kernel
  inside := by decide +kernel

/-- **A marked line may call another marked function**, and that call is kept as it is on every
level. -/
theorem nestedCall_not_marked :
    parse nestedCallText = .ok nestedCall ∧
      ¬nestedCall.GroupCallsMarked (Text.lines nestedCallText) ∧
      ∃ f ∈ nestedCall.functions, ∃ line ∈ (f.copy 1 true).body,
        line.emit = "b_d1(a());".toList ∧ CallsInCode line.emit "a".toList := by
  have accepted : parse nestedCallText = .ok nestedCall := by decide +kernel
  refine ⟨accepted, ?_, ?_⟩
  · intro marked
    have code : LineKind.of "b(a());".toList = .ordinary := by decide +kernel
    obtain ⟨site, hsite, -, -, hcallee⟩ := marked _ List.mem_cons_self nestedCallRegion rfl 1
      "b(a());".toList rfl (by rw [code]; exact nofun) _ List.mem_cons_self (by decide +kernel)
    have hcalls : ∀ site ∈ MarkedFunction.calls nestedCall.functions[0],
        site.callee = "b".toList := by decide +kernel
    rw [hcalls site hsite] at hcallee
    exact absurd hcallee (by decide +kernel)
  · refine ⟨_, List.mem_cons_self, _, List.mem_cons_self, ?_, ?_⟩
    · decide +kernel
    · decide +kernel

end MarkedSource

end RayTracer
