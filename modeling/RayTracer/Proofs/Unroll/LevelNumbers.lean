import RayTracer.Proofs.Number.Checked
import RayTracer.Unroll.Levels

/-!
# Levels are words

The levels of the copies are numbers here, and a program that counts them in words of 32 bits would
have to compute `level + 1` twice: to see whether a level is the last one, and for the callee of a
recursive call.  `MarkedSource.copies?` makes the copies in this way, with sums that must fit.

* `MarkedSource.copiesOn?_eq` : on a level below the depth both sums fit.
* `MarkedSource.copies?_eq` : **so for every depth the copies are made, and they are the usual
  ones.**
-/

namespace RayTracer

/-- The level of the callee, if it is a word. -/
def CallKind.target? (kind : CallKind) (level : UInt32) : Option UInt32 :=
  match kind with
  | forward => some level
  | recursive => level.add? 1

/-- The copy of a line on a level, if the level that it calls is a word. -/
def Statement.copy? (level : UInt32) : Statement → Option CopyLine
  | text line => some (.text line)
  | call site => do
    let target ← site.kind.target? level
    return .call site (specializedName site.callee target.toNat)

/-- The copy of a marked function on a level, if all levels that it calls are words. -/
def MarkedFunction.copy? (f : MarkedFunction) (level : UInt32) (isLast : Bool) : Option Copy := do
  let name := specializedName f.name level.toNat
  let body ← (f.kept isLast).mapM (Statement.copy? level)
  return ⟨name, renameCall f.declaration f.name name, body⟩

namespace MarkedSource

/-- The copies of all marked functions on a level, if the next level and all levels that they call
are words. -/
def copiesOn? (source : MarkedSource) (depth level : UInt32) : Option (List Copy) := do
  let next ← level.add? 1
  source.functions.mapM fun f => f.copy? level (next == depth)

/-- The copies of all marked functions, level by level, if all levels that come up are words. -/
def copies? (source : MarkedSource) (depth : UInt32) : Option (List Copy) := do
  let copies ← (List.range depth.toNat).mapM fun level => source.copiesOn? depth (.ofNat level)
  return copies.flatten

end MarkedSource

/-- Where each member has a result, so has the list. -/
theorem mapM_eq_some {α β : Type} {f : α → Option β} {g : α → β} {l : List α}
    (h : ∀ a ∈ l, f a = some (g a)) : l.mapM f = some (l.map g) := by
  induction l with
  | nil => rfl
  | cons a l ih =>
    obtain ⟨ha, hl⟩ := List.forall_mem_cons.1 h
    rw [List.mapM_cons, ha, ih hl]
    rfl

variable {level depth : UInt32}

theorem CallKind.target?_eq (kind : CallKind) (below : level < depth) :
    ∃ target, kind.target? level = some target ∧ target.toNat = kind.target level.toNat := by
  cases kind with
  | forward => exact ⟨level, rfl, rfl⟩
  | recursive => exact ⟨level + 1, UInt32.add?_one below, UInt32.toNat_add_one below⟩

theorem Statement.copy?_eq (below : level < depth) (s : Statement) :
    s.copy? level = some (s.copy level.toNat) := by
  cases s with
  | text line => rfl
  | call site =>
    obtain ⟨target, htarget, hnumber⟩ := site.kind.target?_eq below
    simp only [copy?, copy, htarget, hnumber, Option.bind_eq_bind, Option.bind_some,
      Option.pure_def]

theorem MarkedFunction.copy?_eq (below : level < depth) (f : MarkedFunction) (isLast : Bool) :
    f.copy? level isLast = some (f.copy level.toNat isLast) := by
  have hbody := mapM_eq_some (l := f.kept isLast) fun s _ => s.copy?_eq below
  rw [copy?, hbody]
  rfl

namespace MarkedSource

/-- On a level below the depth both sums fit. -/
theorem copiesOn?_eq (below : level < depth) (source : MarkedSource) :
    source.copiesOn? depth level = some (source.copiesOn depth.toNat level.toNat) := by
  have hlast : (level + 1 == depth) = (level.toNat + 1 == depth.toNat) := by
    rw [Bool.eq_iff_iff, beq_iff_eq, beq_iff_eq, ← UInt32.toNat_inj, UInt32.toNat_add_one below]
  rw [copiesOn?, UInt32.add?_one below]
  show source.functions.mapM _ = _
  rw [hlast]
  exact mapM_eq_some fun f _ => f.copy?_eq below _

/-- **Every level that comes up is a word.** -/
theorem copies?_eq (source : MarkedSource) (depth : UInt32) :
    source.copies? depth = some (source.copies depth.toNat) := by
  have hlevels : (List.range depth.toNat).mapM
      (fun level => source.copiesOn? depth (.ofNat level)) =
        some ((List.range depth.toNat).map (source.copiesOn depth.toNat)) := by
    refine mapM_eq_some fun level hlevel => ?_
    have hlt : level < depth.toNat := List.mem_range.1 hlevel
    have hnumber := UInt32.toNat_ofNat_of_lt_toNat hlt
    have below : UInt32.ofNat level < depth := by rwa [UInt32.lt_iff_toNat_lt, hnumber]
    rw [copiesOn?_eq below, hnumber]
  rw [copies?, hlevels, copies, List.flatMap_def]
  rfl

end MarkedSource

end RayTracer
