import Mathlib.Logic.Relation
import RayTracer.Proofs.Unroll.Meaning

/-!
# Calls between copies

The copies of a marked source call each other: a forward call goes to a copy on the same level and a
recursive call to one on the next level (`MarkedSource.CallsCopy`).  A language without recursion
accepts the copies only if these calls make no cycle.

* `MarkedSource.level_le_of_transGen` : calls never lead to a lower level.
* `MarkedSource.acyclic_iff` : **the copies call each other in a cycle exactly if marked functions
  do so by the forward calls that level zero keeps.**  Recursive calls are on no cycle, because
  they lead to a lower level for good.
* `MarkedSource.selfCalling_has_cycle` : an accepted source whose copies are recursive, since
  nothing keeps a function from calling itself by a forward call.
-/

namespace RayTracer

open Relation

namespace MarkedSource

/-- The copy of the function `caller.1` on level `caller.2` keeps a call that goes to the copy of
`callee.1` on level `callee.2`. -/
def CallsCopy (source : MarkedSource) (depth : Nat) (caller callee : Line × Nat) : Prop :=
  ∃ f ∈ source.functions, f.name = caller.1 ∧ caller.2 < depth ∧
    ∃ site, .call site ∈ f.kept (caller.2 + 1 == depth) ∧
      callee = (site.callee, site.kind.target caller.2)

/-- A forward call of `callee` is among the lines that the marked function `caller` keeps, on the
last level or on one above it. -/
def CallsForward (source : MarkedSource) (isLast : Bool) (caller callee : Line) : Prop :=
  ∃ f ∈ source.functions, f.name = caller ∧
    ∃ site, .call site ∈ f.kept isLast ∧ site.kind = .forward ∧ site.callee = callee

variable {source : MarkedSource} {depth : Nat}

theorem level_le_of_callsCopy {v w : Line × Nat} (h : source.CallsCopy depth v w) : v.2 ≤ w.2 := by
  obtain ⟨f, -, -, -, site, -, rfl⟩ := h
  cases hk : site.kind <;> simp [CallKind.target]

theorem level_le_of_transGen {v w : Line × Nat} (h : TransGen (source.CallsCopy depth) v w) :
    v.2 ≤ w.2 := by
  induction h with
  | single h => exact level_le_of_callsCopy h
  | tail _ h ih => exact Nat.le_trans ih (level_le_of_callsCopy h)

/-- A call that stays on its level is a forward call, and level zero keeps it too. -/
theorem callsForward_of_callsCopy {v w : Line × Nat} (h : source.CallsCopy depth v w)
    (stays : w.2 ≤ v.2) : source.CallsForward (1 == depth) v.1 w.1 := by
  obtain ⟨f, hf, hname, hlevel, site, hsite, rfl⟩ := h
  refine ⟨f, hf, hname, site, ?_, ?_, rfl⟩
  · by_cases hdepth : depth = 1
    · have hzero : v.2 = 0 := by omega
      rwa [hzero] at hsite
    · have hone : (1 == depth) = false := by simp [Ne.symm hdepth]
      rw [hone]
      rw [MarkedFunction.kept_false]
      exact MarkedFunction.mem_statements_of_mem_kept hsite
  · cases hk : site.kind with
    | forward => rfl
    | recursive =>
      simp only [hk, CallKind.target] at stays
      omega

theorem transGen_callsForward {v w : Line × Nat} (h : TransGen (source.CallsCopy depth) v w)
    (stays : w.2 ≤ v.2) : TransGen (source.CallsForward (1 == depth)) v.1 w.1 := by
  induction h with
  | single h => exact .single (callsForward_of_callsCopy h stays)
  | @tail u w hvu huw ih =>
    have hv := level_le_of_transGen hvu
    have hu := level_le_of_callsCopy huw
    exact (ih (by omega)).tail (callsForward_of_callsCopy huw (by omega))

theorem callsCopy_of_callsForward (positive : 1 ≤ depth) {f g : Line}
    (h : source.CallsForward (1 == depth) f g) : source.CallsCopy depth (f, 0) (g, 0) := by
  obtain ⟨fn, hfn, hname, site, hsite, hkind, rfl⟩ := h
  refine ⟨fn, hfn, hname, positive, site, hsite, ?_⟩
  rw [hkind]
  rfl

/-- **The copies are free of recursion exactly if the forward calls on level zero are.** -/
theorem acyclic_iff (source : MarkedSource) {depth : Nat} (positive : 1 ≤ depth) :
    (∀ v, ¬TransGen (source.CallsCopy depth) v v) ↔
      ∀ name, ¬TransGen (source.CallsForward (1 == depth)) name name := by
  constructor
  · intro h name hcycle
    refine h (name, 0) ?_
    exact hcycle.lift (fun f => (f, 0)) fun _ _ => callsCopy_of_callsForward positive
  · intro h v hcycle
    exact h v.1 (transGen_callsForward hcycle (Nat.le_refl _))

theorem mutualGroup_callsForward {f g : Line} (h : mutualGroup.CallsForward false f g) :
    f = "t".toList ∧ g = "s".toList := by
  obtain ⟨fn, hfn, rfl, site, hsite, hkind, rfl⟩ := h
  simp only [mutualGroup, List.mem_cons, List.not_mem_nil, or_false] at hfn
  rcases hfn with rfl | rfl
  · simp [MarkedFunction.kept, BodyPart.kept] at hsite
    simp [hsite]
  · simp [MarkedFunction.kept, BodyPart.kept] at hsite
    simp [hsite] at hkind

/-- A function that calls another one which calls it back one level deeper. -/
theorem mutualGroup_acyclic :
    1 ≤ 2 ∧ ∀ v, ¬TransGen (mutualGroup.CallsCopy 2) v v := by
  refine ⟨by decide, (acyclic_iff mutualGroup (by decide)).2 ?_⟩
  intro name hcycle
  obtain ⟨next, h, -⟩ := TransGen.head'_iff.1 hcycle
  obtain ⟨previous, -, h'⟩ := TransGen.tail'_iff.1 hcycle
  have ht : name = "t".toList := (mutualGroup_callsForward h).1
  have hs : name = "s".toList := (mutualGroup_callsForward h').2
  rw [ht] at hs
  exact absurd hs (by decide)

/-- A function that calls itself, marked as a forward call. -/
def selfCallingText : List Char :=
  "// rec:func a\nfn a() \x7b\n// rec:call a\na();\n\x7d\n// rec:endfunc a\n".toList

/-- The function of `selfCallingText`. -/
def selfCalling : MarkedSource where
  regular := []
  functions := [⟨"a".toList, "fn a() \x7b".toList,
    [.statement (.call ⟨.forward, "a".toList, 4, "a();".toList⟩),
      .statement (.text "\x7d".toList)]⟩]

/-- **The reader does not keep a function from calling itself by a forward call**, and then even
the only copy is recursive. -/
theorem selfCalling_has_cycle :
    parse selfCallingText = .ok selfCalling ∧ 1 ≤ 1 ∧
      ∃ v, TransGen (selfCalling.CallsCopy 1) v v := by
  have accepted : parse selfCallingText = .ok selfCalling := by decide +kernel
  refine ⟨accepted, Nat.le_refl 1, ("a".toList, 0), .single ?_⟩
  refine ⟨_, List.mem_cons_self, rfl, Nat.zero_lt_one,
    ⟨.forward, "a".toList, 4, "a();".toList⟩, ?_, rfl⟩
  exact List.mem_cons_self

end MarkedSource

end RayTracer
