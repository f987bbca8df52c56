import Mathlib.Data.List.Nodup
import RayTracer.Proofs.Unroll.Naming
import RayTracer.Proofs.Unroll.Reading

/-!
# Unrolling preserves meaning

A marked source is a recursive program with a level counter (`MarkedSource.runAt`): depth blocks
run while a deeper level remains, forward calls keep the level and recursive calls increase it.
The unrolled program has no levels; its copies call each other by name (`runCopy`).  What lines do
is left open (`Interpretation`): an ordinary line transforms the state, and a call line does so
given the meaning of the function it calls.

* `MarkedSource.find?_copies` : a copy's name finds that copy.
* `MarkedSource.runCopy_eq_runAt` : the copy of `f` on level `i` does what `f` does at level `i`.

The second is an induction on the fuel: one call of a copy runs the lines that the copy keeps, and
each call in them goes to the copy of its callee on the level where the source runs it.
-/

namespace RayTracer

universe u

/-- What the lines of a program do to a state.  No result means that a call ran out of fuel. -/
structure Interpretation (S : Type u) where
  /-- An ordinary line. -/
  text : Line → S → Option S
  /-- A call line, given the meaning of the called function. -/
  call : CallSite → (S → Option S) → S → Option S

variable {S : Type u} (I : Interpretation S)

/-! ### The marked source as a recursive program -/

/-- Runs a line of a marked function, given the meaning of the calls. -/
def Statement.run (callee : CallSite → S → Option S) (s : S) : Statement → Option S
  | text line => I.text line s
  | call site => I.call site (callee site) s

/-- Runs a part of a body; blocks are left out unless there is a deeper level. -/
def BodyPart.run (callee : CallSite → S → Option S) (deeper : Bool) (s : S) :
    BodyPart → Option S
  | statement t => t.run I callee s
  | block b => if deeper then b.body.foldlM (Statement.run I callee) s else some s

/-- Runs a marked function at a level of a source with `depth` levels.  The fuel bounds the calls
that may be open at a time. -/
def MarkedSource.runAt (source : MarkedSource) (depth : Nat) :
    Nat → MarkedFunction → Nat → S → Option S
  | 0, _, _, _ => none
  | fuel + 1, f, level, s =>
    let callee := fun (site : CallSite) =>
      match source.function? site.callee, site.kind with
      | some g, .forward => source.runAt depth fuel g level
      | some g, .recursive => source.runAt depth fuel g (level + 1)
      | none, _ => fun _ => none
    f.body.foldlM (BodyPart.run I callee (level + 1 < depth)) s

/-! ### The unrolled program -/

/-- Runs a line of a copy, given the meaning of names. -/
def CopyLine.run (named : Line → S → Option S) (s : S) : CopyLine → Option S
  | text line => I.text line s
  | call site target => I.call site (named target) s

/-- Runs the copy of the given name. -/
def runCopy (copies : List Copy) : Nat → Line → S → Option S
  | 0, _, _ => none
  | fuel + 1, name, s =>
    match copies.find? (·.name == name) with
    | none => none
    | some c => c.body.foldlM (CopyLine.run I (runCopy copies fuel)) s

/-! ### The kept lines of a body -/

variable {I}

theorem foldlM_congr_of_mem {α : Type} {f g : S → α → Option S} {l : List α}
    (h : ∀ a ∈ l, ∀ s, f s a = g s a) (s : S) : l.foldlM f s = l.foldlM g s := by
  induction l generalizing s with
  | nil => rfl
  | cons a l ih =>
    rw [List.foldlM_cons, List.foldlM_cons, h a List.mem_cons_self]
    exact congrArg _ (funext (ih fun b hb => h b (List.mem_cons_of_mem a hb)))

theorem BodyPart.foldlM_kept {callee : CallSite → S → Option S} (part : BodyPart) (isLast : Bool)
    (s : S) :
    (part.kept isLast).foldlM (Statement.run I callee) s = part.run I callee (!isLast) s := by
  cases part with
  | statement t => simp [kept, run]
  | block b => cases isLast <;> simp [kept, run]

theorem MarkedFunction.foldlM_kept {callee : CallSite → S → Option S} (f : MarkedFunction)
    (isLast : Bool) (s : S) :
    (f.kept isLast).foldlM (Statement.run I callee) s =
      f.body.foldlM (BodyPart.run I callee (!isLast)) s := by
  unfold kept
  induction f.body generalizing s with
  | nil => rfl
  | cons part rest ih =>
    rw [List.flatMap_cons, List.foldlM_append, part.foldlM_kept, List.foldlM_cons]
    exact congrArg _ (funext ih)

/-- A recursive call stands in a block, so the last level does not keep it. -/
theorem MarkedFunction.isLast_eq_false {f : MarkedFunction} {isLast : Bool} {site : CallSite}
    (guarded : IsGuarded f.body) (h : .call site ∈ f.kept isLast) (hk : site.kind = .recursive) :
    isLast = false := by
  obtain ⟨part, hp, hs⟩ := List.mem_flatMap.1 h
  cases part with
  | statement t =>
    obtain rfl := List.mem_singleton.1 hs
    exact absurd (hk.symm.trans (guarded site hp)) (by decide)
  | block b =>
    cases isLast with
    | false => rfl
    | true => exact absurd hs List.not_mem_nil

/-- A copy keeps no line that the function does not have. -/
theorem MarkedFunction.mem_statements_of_mem_kept {f : MarkedFunction} {isLast : Bool}
    {s : Statement} (h : s ∈ f.kept isLast) : s ∈ f.statements := by
  obtain ⟨part, hp, hs⟩ := List.mem_flatMap.1 h
  refine List.mem_flatMap.2 ⟨part, hp, ?_⟩
  cases part with
  | statement t => exact hs
  | block b =>
    cases isLast with
    | false => exact hs
    | true => exact absurd hs List.not_mem_nil

theorem MarkedFunction.mem_calls {f : MarkedFunction} {site : CallSite} :
    site ∈ f.calls ↔ .call site ∈ f.statements := by
  constructor
  · intro h
    obtain ⟨s, hs, hcall⟩ := List.mem_filterMap.1 h
    cases s with
    | text l => cases hcall
    | call other => rwa [← Option.some.inj hcall]
  · intro h
    exact List.mem_filterMap.2 ⟨.call site, h, rfl⟩

theorem MarkedFunction.mem_calls_of_mem_kept {f : MarkedFunction} {isLast : Bool}
    {site : CallSite} (h : .call site ∈ f.kept isLast) : site ∈ f.calls :=
  mem_calls.2 (mem_statements_of_mem_kept h)

/-- A level above the last one keeps all lines. -/
theorem MarkedFunction.kept_false (f : MarkedFunction) : f.kept false = f.statements := by
  have hparts : BodyPart.kept false = BodyPart.statements := by
    funext part
    cases part <;> rfl
  rw [kept, statements, hparts]

namespace MarkedSource

variable {source : MarkedSource} {depth : Nat}

/-! ### Names and copies -/

theorem find?_eq_some_of_unique {α : Type} {p : α → Bool} {l : List α} {a : α} (ha : a ∈ l)
    (hp : p a = true) (h : ∀ b ∈ l, p b = true → b = a) : l.find? p = some a := by
  cases hf : l.find? p with
  | none => exact absurd hp (List.find?_eq_none.1 hf a ha)
  | some b => rw [h b (List.mem_of_find?_eq_some hf) (List.find?_some hf)]

theorem eq_of_name_eq (nodup : (source.functions.map MarkedFunction.name).Nodup)
    {f g : MarkedFunction} (hf : f ∈ source.functions) (hg : g ∈ source.functions)
    (h : f.name = g.name) : f = g :=
  List.inj_on_of_nodup_map nodup hf hg h

theorem function?_eq_some (nodup : (source.functions.map MarkedFunction.name).Nodup)
    {g : MarkedFunction} (hg : g ∈ source.functions) : source.function? g.name = some g :=
  find?_eq_some_of_unique hg (by simp) fun f hf hn =>
    eq_of_name_eq nodup hf hg (by simpa using hn)

theorem mem_copies {c : Copy} :
    c ∈ source.copies depth ↔
      ∃ level < depth, ∃ f ∈ source.functions, c = f.copy level (level + 1 == depth) := by
  simp [copies, copiesOn, eq_comm]

/-- **The name of a copy finds that copy.** -/
theorem find?_copies (wf : source.WellFormed) (apart : source.NamesApart depth)
    {f : MarkedFunction} (hf : f ∈ source.functions) {level : Nat} (hl : level < depth) :
    (source.copies depth).find? (·.name == specializedName f.name level) =
      some (f.copy level (level + 1 == depth)) := by
  refine find?_eq_some_of_unique (mem_copies.2 ⟨level, hl, f, hf, rfl⟩) (beq_self_eq_true _)
    fun c hc hn => ?_
  obtain ⟨j, hj, g, hg, rfl⟩ := mem_copies.1 hc
  obtain ⟨hname, rfl⟩ := apart.eq_of_specializedName hg hf hj hl (eq_of_beq hn)
  rw [eq_of_name_eq wf.nodup hg hf hname]

/-- The callee of a kept call is marked, and its level exists. -/
theorem exists_callee (wf : source.WellFormed) {f : MarkedFunction} (hf : f ∈ source.functions)
    {level : Nat} (hl : level < depth) {site : CallSite}
    (hs : .call site ∈ f.kept (level + 1 == depth)) :
    ∃ g ∈ source.functions, g.name = site.callee ∧ site.kind.target level < depth := by
  obtain ⟨g, hg, hn⟩ := wf.calleeMarked f hf site (MarkedFunction.mem_calls_of_mem_kept hs)
  refine ⟨g, hg, hn, ?_⟩
  cases hk : site.kind with
  | forward => exact hl
  | recursive =>
    have hlast := MarkedFunction.isLast_eq_false (wf.guarded f hf) hs hk
    simp only [beq_eq_false_iff_ne] at hlast
    simp only [CallKind.target]
    omega

/-! ### The simulation -/

theorem runCopy_eq_runAt (wf : source.WellFormed) (apart : source.NamesApart depth) (fuel : Nat)
    {f : MarkedFunction} (hf : f ∈ source.functions) {level : Nat} (hl : level < depth) :
    runCopy I (source.copies depth) fuel (specializedName f.name level) =
      source.runAt I depth fuel f level := by
  induction fuel generalizing f level with
  | zero => rfl
  | succ fuel ih =>
    funext s
    have hlast : decide (level + 1 < depth) = !(level + 1 == depth) := by
      rw [Bool.eq_iff_iff]; simp; omega
    simp only [runCopy, find?_copies wf apart hf hl, runAt, hlast]
    rw [← MarkedFunction.foldlM_kept, MarkedFunction.copy, List.foldlM_map]
    -- line by line: the copy's target and the source's callee mean the same
    refine foldlM_congr_of_mem (fun t ht s => ?_) s
    cases t with
    | text line => rfl
    | call site =>
      obtain ⟨g, hg, hn, htarget⟩ := exists_callee wf hf hl ht
      simp only [Statement.copy, CopyLine.run, Statement.run, ← hn, ih hg htarget,
        function?_eq_some wf.nodup hg]
      cases site.kind <;> rfl

theorem length_copies : (source.copies depth).length = depth * source.functions.length := by
  simp [copies, copiesOn]

/-- Every call of a copy goes to the copy of its callee on a level that exists. -/
theorem exists_target (wf : source.WellFormed) (apart : source.NamesApart depth) {c : Copy}
    (hc : c ∈ source.copies depth) {site : CallSite} {target : Line}
    (hs : .call site target ∈ c.body) :
    ∃ g ∈ source.functions, ∃ level < depth, g.name = site.callee ∧
      (source.copies depth).find? (·.name == target) =
        some (g.copy level (level + 1 == depth)) := by
  obtain ⟨level, hl, f, hf, rfl⟩ := mem_copies.1 hc
  obtain ⟨t, ht, hcopy⟩ := List.mem_map.1 hs
  cases t with
  | text line => cases hcopy
  | call site' =>
    obtain ⟨rfl, rfl⟩ := CopyLine.call.inj hcopy
    obtain ⟨g, hg, hn, htarget⟩ := exists_callee wf hf hl ht
    exact ⟨g, hg, _, htarget, hn, hn ▸ find?_copies wf apart hg htarget⟩

theorem unroll_eq_ok {d : UInt32} (h : d.toNat ≠ 0) :
    source.unroll d = .ok (Text.unlines
      (source.regular ++ (source.copies d.toNat).flatMap Copy.emit)) := by
  have hd : d ≠ 0 := fun h0 => h (by simp [h0])
  simp [unroll, hd, emit]

/-- **Unrolling preserves meaning.**  If no two copies of an accepted source share a name, then for
every reading of its lines and all fuel, the copy of a function on a level does what the function
does at that level of the recursive program.  The copies are the ones that are emitted, and every
call in them finds the copy of its callee. -/
theorem unroll_preserves_meaning {text : List Char} (accepted : parse text = .ok source)
    (positive : 1 ≤ depth) (apart : source.NamesApart depth) :
    (∀ (S : Type u) (I : Interpretation S) (fuel : Nat), ∀ f ∈ source.functions, ∀ level < depth,
      runCopy I (source.copies depth) fuel (specializedName f.name level) =
        source.runAt I depth fuel f level) ∧
    (∀ c ∈ source.copies depth, ∀ site target, .call site target ∈ c.body →
      ∃ g ∈ source.functions, ∃ level < depth, g.name = site.callee ∧
        (source.copies depth).find? (·.name == target) =
          some (g.copy level (level + 1 == depth))) ∧
    (source.copies depth).length = depth * source.functions.length ∧
    ∀ d : UInt32, d.toNat = depth → source.unroll d = .ok (Text.unlines
      (source.regular ++ (source.copies depth).flatMap Copy.emit)) := by
  have wf := wellFormed_of_parse accepted
  refine ⟨fun S I fuel f hf level hl => runCopy_eq_runAt wf apart fuel hf hl,
    fun c hc site target hs => exists_target wf apart hc hs, length_copies, ?_⟩
  rintro d rfl
  exact unroll_eq_ok (by omega)

/-- Two functions that call each other, one of them one level deeper. -/
def mutualText : List Char :=
  ("// rec:func t\nfn t(x)\n// rec:call s\ns(x)\n// rec:endfunc t\n" ++
    "// rec:func s\nfn s(x)\n// rec:if b\n// rec:rec-call t\nt(x)\n// rec:endif b\n" ++
    "return x\n// rec:endfunc s\n").toList

/-- The two functions of `mutualText`. -/
def mutualGroup : MarkedSource where
  regular := []
  functions := [
    ⟨"t".toList, "fn t(x)".toList, [.statement (.call ⟨.forward, "s".toList, 4, "s(x)".toList⟩)]⟩,
    ⟨"s".toList, "fn s(x)".toList,
      [.block ⟨"b".toList, [.call ⟨.recursive, "t".toList, 10, "t(x)".toList⟩]⟩,
        .statement (.text "return x".toList)]⟩]

theorem parse_mutualText : parse mutualText = .ok mutualGroup := by decide +kernel

/-- Every line adds its text to the state. -/
def traceOfLines : Interpretation (List Line) where
  text line s := some (s ++ [line])
  call site callee s := callee (s ++ [site.text])

theorem mutualGroup_preserves_meaning :
    parse mutualText = .ok mutualGroup ∧ 1 ≤ 2 ∧ mutualGroup.NamesApart 2 ∧
      ∀ f ∈ mutualGroup.functions, ∀ level < 2,
        runCopy traceOfLines (mutualGroup.copies 2) 4 (specializedName f.name level) [] =
          mutualGroup.runAt traceOfLines 2 4 f level [] := by
  have apart : mutualGroup.NamesApart 2 := by decide +kernel
  refine ⟨parse_mutualText, by decide, apart, fun f hf level hl => ?_⟩
  have preserved := unroll_preserves_meaning parse_mutualText (by decide) apart
  exact congrFun (preserved.1 _ traceOfLines 4 f hf level hl) []

end MarkedSource

end RayTracer
