import RayTracer.Proofs.Number.Checked
import RayTracer.Proofs.Shading.Evaluators
import RayTracer.Proofs.Unroll.LevelNumbers

/-!
# Only the levels that are left count

Where a mirror chain starts and where the bound is does not matter, only how far they are apart, and
a bound that no chain reaches does not matter at all.

* `View.MirrorChain.shift` : a chain stays what it is if its level and the bound are shifted
  together.
* `View.MirrorChain.raise` : a chain that ends by itself (`View.EndsByItself`) stays what it is
  under every higher bound.
* `View.traceFrom?_eq`, `View.gatherFrom?_eq` : neither evaluator computes a level that is no word.
* `View.remaining_levels_count` : **so colors depend on the levels that are left, as far as these
  are reached.**

The first two are inductions on the chain.  Colors follow from chains, because both evaluators are
sums over them.
-/

namespace RayTracer

namespace View

variable {scene : Scene} {bound bound' depth depth' : UInt32} {r : Ray Float32}
  {links : List ChainLink} {stop : ChainEnd}

/-! ### Shifting level and bound -/

section Shift

variable {offset : UInt32}

theorem lt_offset_iff (hdepth : depth.toNat + offset.toNat < UInt32.size)
    (hbound : bound.toNat + offset.toNat < UInt32.size) :
    depth + offset < bound + offset ↔ depth < bound := by
  rw [UInt32.lt_iff_toNat_lt, UInt32.lt_iff_toNat_lt, UInt32.toNat_add_of_lt hdepth,
    UInt32.toNat_add_of_lt hbound]
  omega

theorem deeper_offset (depth offset : UInt32) : depth + offset + 1 = depth + 1 + offset := by
  rw [UInt32.add_assoc, UInt32.add_comm offset, ← UInt32.add_assoc]

/-- If the levels of a view can be shifted, so can the one after a level of it. -/
theorem deeper_fits (below : depth < bound) (hbound : bound.toNat + offset.toNat < UInt32.size) :
    (depth + 1).toNat + offset.toNat < UInt32.size := by
  rw [UInt32.toNat_add_one below]
  rw [UInt32.lt_iff_toNat_lt] at below
  omega

theorem bounces_offset_iff {material : Material} (below : depth < bound)
    (hbound : bound.toNat + offset.toNat < UInt32.size) :
    (View.mk scene (bound + offset)).Bounces material (depth + offset) ↔
      (View.mk scene bound).Bounces material depth := by
  rw [Bounces, Bounces, deeper_offset,
    lt_offset_iff (deeper_fits below hbound) hbound]

/-- **A chain stays what it is if its level and the bound are shifted together.** -/
theorem MirrorChain.shift (h : (View.mk scene bound).MirrorChain r depth links stop)
    (hdepth : depth.toNat + offset.toNat < UInt32.size)
    (hbound : bound.toNat + offset.toNat < UInt32.size) :
    (View.mk scene (bound + offset)).MirrorChain r (depth + offset) links stop := by
  induction h with
  | depth stays => exact .depth fun h => stays ((lt_offset_iff hdepth hbound).1 h)
  | miss below look => exact .miss ((lt_offset_iff hdepth hbound).2 below) look
  | missingMaterial below look table =>
    exact .missingMaterial ((lt_offset_iff hdepth hbound).2 below) look table
  | absorbed below look table stays =>
    exact .absorbed ((lt_offset_iff hdepth hbound).2 below) look table
      fun h => stays ((bounces_offset_iff below hbound).1 h)
  | bounce below look table bounces _ ih =>
    refine .bounce ((lt_offset_iff hdepth hbound).2 below) look table
      ((bounces_offset_iff below hbound).2 bounces) ?_
    rw [deeper_offset]
    exact ih (deeper_fits below hbound)

end Shift

/-! ### Raising the bound -/

/-- What ends the chain is what its last ray meets, and not the bound: nothing, a surface without a
material or one that mirrors nothing. -/
def EndsByItself (links : List ChainLink) : ChainEnd → Prop
  | .depth => False
  | .miss | .missingMaterial => True
  | .absorbed =>
    ∃ link, links.getLast? = some link ∧ ¬(0.0 : Float32) < link.material.reflectiveIndex

theorem MirrorChain.ne_nil_of_absorbed {view : View}
    (h : view.MirrorChain r depth links .absorbed) : links ≠ [] := by
  cases h <;> exact List.cons_ne_nil _ _

theorem MirrorChain.endsByItself_cons {view : View} (h : view.MirrorChain r depth links stop)
    (link : ChainLink) : EndsByItself (link :: links) stop ↔ EndsByItself links stop := by
  cases stop with
  | depth | miss | missingMaterial => rfl
  | absorbed => rw [EndsByItself, EndsByItself, List.getLast?_cons_of_ne_nil h.ne_nil_of_absorbed]

/-- **A chain that ends by itself stays what it is under every higher bound.** -/
theorem MirrorChain.raise (h : (View.mk scene bound).MirrorChain r depth links stop)
    (ends : EndsByItself links stop) (higher : bound ≤ bound') :
    (View.mk scene bound').MirrorChain r depth links stop := by
  have below' {depth : UInt32} (below : depth < bound) : depth < bound' :=
    UInt32.lt_of_lt_of_le below higher
  induction h with
  | depth => exact ends.elim
  | miss below look => exact .miss (below' below) look
  | missingMaterial below look table => exact .missingMaterial (below' below) look table
  | absorbed below look table =>
    obtain ⟨link, hlast, matt⟩ := ends
    obtain rfl := Option.some.inj hlast
    exact .absorbed (below' below) look table fun bounces => matt bounces.1
  | bounce below look table bounces rest ih =>
    exact .bounce (below' below) look table ⟨bounces.1, below' bounces.2⟩
      (ih ((rest.endsByItself_cons _).1 ends))

/-! ### Colors follow from chains -/

theorem traceFrom_congr (h : (View.mk scene bound).MirrorChain r depth links stop)
    (h' : (View.mk scene bound').MirrorChain r depth' links stop) :
    (View.mk scene bound).traceFrom r depth = (View.mk scene bound').traceFrom r depth' := by
  rw [traceFrom_eq_traceWith, traceFrom_eq_traceWith]
  exact Option.some.inj ((traceWith_eq_nested _ h).symm.trans (traceWith_eq_nested _ h'))

theorem gatherFrom_congr (h : (View.mk scene bound).MirrorChain r depth links stop)
    (h' : (View.mk scene bound').MirrorChain r depth' links stop) (color : Color)
    (weight : Float32) :
    (View.mk scene bound).gatherFrom color weight r depth =
      (View.mk scene bound').gatherFrom color weight r depth' := by
  rw [gatherFrom_eq_gatherWith, gatherFrom_eq_gatherWith, gatherWith_eq_gathered _ h,
    gatherWith_eq_gathered _ h']

/-! ### Levels are words -/

/-- `Bounces`, with no answer if the next level is asked for and is no word. -/
def bounces? (view : View) (material : Material) (depth : UInt32) : Option Bool :=
  if (0.0 : Float32) < material.reflectiveIndex then
    (depth.add? 1).map fun next => decide (next < view.maxDepth)
  else some false

/-- `traceFrom`, with no color if a level is no word. -/
def traceFrom? (view : View) (r : Ray Float32) (depth : UInt32) : Option Color :=
  if depth < view.maxDepth then
    match view.lookAlong r with
    | none => some background
    | some found =>
      match view.scene.materials.get? found.hit.material with
      | none => some missingMaterialColor
      | some material => do
        let color := localColor view.scene r found material
        if ← view.bounces? material depth then
          let mirrored ← view.traceFrom? (mirrorRay r found.hit) (depth + 1)
          return color + mirrored * material.reflectiveIndex
        else return color
  else some background
termination_by view.maxDepth.toNat - depth.toNat
decreasing_by exact levels_decrease (by assumption)

/-- `gatherFrom`, with no color if a level is no word. -/
def gatherFrom? (view : View) (color : Color) (weight : Float32) (r : Ray Float32)
    (depth : UInt32) : Option Color :=
  if depth < view.maxDepth then
    match view.lookAlong r with
    | none => some (color + background * weight)
    | some found =>
      match view.scene.materials.get? found.hit.material with
      | none => some (color + missingMaterialColor * weight)
      | some material => do
        let color := color + localColor view.scene r found material * weight
        if ← view.bounces? material depth then
          view.gatherFrom? color (weight * material.reflectiveIndex) (mirrorRay r found.hit)
            (depth + 1)
        else return color
  else some (color + background * weight)
termination_by view.maxDepth.toNat - depth.toNat
decreasing_by exact levels_decrease (by assumption)

/-- Below the bound the next level is a word. -/
theorem bounces?_eq {view : View} (below : depth < view.maxDepth) (material : Material) :
    view.bounces? material depth = some (decide (view.Bounces material depth)) := by
  rw [bounces?, UInt32.add?_one below]
  by_cases mirrors : (0.0 : Float32) < material.reflectiveIndex
  · rw [if_pos mirrors, Option.map_some]
    simp only [Bounces, mirrors, true_and]
  · rw [if_neg mirrors]
    simp only [Bounces, mirrors, false_and, decide_false]

/-- **The recursion computes no level that is no word.** -/
theorem traceFrom?_eq (view : View) (r : Ray Float32) (depth : UInt32) :
    view.traceFrom? r depth = some (view.traceFrom r depth) := by
  fun_induction traceFrom view r depth with
  | case1 r depth below look => rw [traceFrom?, if_pos below, look]
  | case2 r depth below found look table =>
    rw [traceFrom?, if_pos below, look]
    simp only [table]
  | case3 r depth below found look material table color bounces ih =>
    rw [traceFrom?, if_pos below, look]
    simp only [table, bounces?_eq below, bounces, ih]
    rfl
  | case4 r depth below found look material table color stays =>
    rw [traceFrom?, if_pos below, look]
    simp only [table, bounces?_eq below, stays]
    rfl
  | case5 r depth below => rw [traceFrom?, if_neg below]

/-- **Nor does the loop.** -/
theorem gatherFrom?_eq (view : View) (color : Color) (weight : Float32) (r : Ray Float32)
    (depth : UInt32) :
    view.gatherFrom? color weight r depth = some (view.gatherFrom color weight r depth) := by
  fun_induction gatherFrom view color weight r depth with
  | case1 color weight r depth below look => rw [gatherFrom?, if_pos below, look]
  | case2 color weight r depth below found look table =>
    rw [gatherFrom?, if_pos below, look]
    simp only [table]
  | case3 color weight r depth below found look material table next bounces ih =>
    rw [gatherFrom?, if_pos below, look]
    simp only [table, bounces?_eq below, bounces]
    exact ih
  | case4 color weight r depth below found look material table next stays =>
    rw [gatherFrom?, if_pos below, look]
    simp only [table, bounces?_eq below, stays]
    rfl
  | case5 color weight r depth below => rw [gatherFrom?, if_neg below]

/-! ### Only the levels that are left count -/

/-- **Only the levels that are left count.**  The color at a level depends on how far the bound is
above it; if the chain of a primary ray ends by itself, every higher bound gives the same color with
both evaluators; and no level that the evaluators or the copies of a marked source come to is beyond
the words of 32 bits. -/
theorem remaining_levels_count :
    (∀ (scene : Scene) (r : Ray Float32) (bound depth offset : UInt32),
      bound.toNat + offset.toNat < UInt32.size → depth.toNat + offset.toNat < UInt32.size →
        (View.mk scene bound).traceFrom r depth =
          (View.mk scene (bound + offset)).traceFrom r (depth + offset)) ∧
    (∀ (scene : Scene) (r : Ray Float32) (bound : UInt32) (links : List ChainLink)
      (stop : ChainEnd), (View.mk scene bound).MirrorChain r 0 links stop →
        EndsByItself links stop → ∀ bound' : UInt32, bound ≤ bound' →
          (View.mk scene bound').trace r = (View.mk scene bound).trace r ∧
            (View.mk scene bound').traceIterative r = (View.mk scene bound).traceIterative r) ∧
    (∀ (view : View) (r : Ray Float32),
      (∀ depth : UInt32, view.traceFrom? r depth = some (view.traceFrom r depth)) ∧
        view.gatherFrom? (.splat 0.0) 1.0 r 0 = some (view.traceIterative r)) ∧
    ∀ (source : MarkedSource) (depth : UInt32),
      source.copies? depth = some (source.copies depth.toNat) := by
  refine ⟨?_, ?_, ?_, MarkedSource.copies?_eq⟩
  · intro scene r bound depth offset hbound hdepth
    have chain := mirrorChain_chainFrom (View.mk scene bound) r depth
    exact traceFrom_congr chain (chain.shift hdepth hbound)
  · intro scene r bound links stop chain ends bound' higher
    have raised := chain.raise ends higher
    exact ⟨traceFrom_congr raised chain, gatherFrom_congr raised chain _ _⟩
  · intro view r
    exact ⟨traceFrom?_eq view r, gatherFrom?_eq view _ _ r 0⟩

/-- The chain between two spheres ends on the one that mirrors nothing, so any bound from five on
gives the same color, and a level three deeper does so under a bound that is three higher. -/
theorem remaining_levels_count_facingSpheres :
    ∃ links : List ChainLink, facingSpheres.MirrorChain rayToMirror 0 links .absorbed ∧
      EndsByItself links .absorbed ∧ (5 : UInt32) ≤ 100 ∧
      (View.mk facingSpheres.scene 100).trace rayToMirror = facingSpheres.trace rayToMirror ∧
      (View.mk facingSpheres.scene 100).traceIterative rayToMirror =
        facingSpheres.traceIterative rayToMirror ∧
      (5 : UInt32).toNat + (3 : UInt32).toNat < UInt32.size ∧
      (1 : UInt32).toNat + (3 : UInt32).toNat < UInt32.size ∧
      facingSpheres.traceFrom rayToMirror 1 =
        (View.mk facingSpheres.scene 8).traceFrom rayToMirror 4 := by
  have hstop : (facingSpheres.chainFrom rayToMirror 0).2 = .absorbed := by decide +kernel
  have hlast : (facingSpheres.chainFrom rayToMirror 0).1.getLast?.map
      (fun link => decide ((0.0 : Float32) < link.material.reflectiveIndex)) = some false := by
    decide +kernel
  have chain := mirrorChain_chainFrom facingSpheres rayToMirror 0
  rw [hstop] at chain
  obtain ⟨link, hlink, hmatt⟩ := Option.map_eq_some_iff.1 hlast
  have ends : EndsByItself (facingSpheres.chainFrom rayToMirror 0).1 .absorbed :=
    ⟨link, hlink, of_decide_eq_false hmatt⟩
  have higher : (5 : UInt32) ≤ 100 := by decide
  have hbound : (5 : UInt32).toNat + (3 : UInt32).toNat < UInt32.size := by decide
  have hdepth : (1 : UInt32).toNat + (3 : UInt32).toNat < UInt32.size := by decide
  have raised := remaining_levels_count.2.1 facingSpheres.scene rayToMirror 5 _ _ chain ends 100
    higher
  have shifted := remaining_levels_count.1 facingSpheres.scene rayToMirror 5 1 3 hbound hdepth
  exact ⟨_, chain, ends, higher, raised.1, raised.2, hbound, hdepth, shifted⟩

end View

end RayTracer
