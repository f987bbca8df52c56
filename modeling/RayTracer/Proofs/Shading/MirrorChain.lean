import Mathlib.Logic.ExistsUnique
import RayTracer.Shading

/-!
# Mirror chains

A primary ray meets a surface, the mirrored ray meets another one, and so on until a ray meets
nothing, a surface has no material or sends no mirrored ray, or the bound on the levels is reached.
`View.MirrorChain` says which hits belong to this chain and why it ends, without any color.

* `View.mirrorChain_iff` : there is exactly one chain, the one that `View.chainFrom` computes.
* `View.MirrorChain.length_le` : it has no more hits than there are levels left.
* `View.MirrorChain.eq_nil_of_depth` : the bound ends a chain only where there is no level at all,
  because a surface on the last level sends no mirrored ray.
-/

namespace RayTracer

namespace View

/-- From level `depth` on, a ray and its mirrored rays meet the hits `links`, and then end for the
reason `stop`. -/
inductive MirrorChain (view : View) : Ray Float32 → UInt32 → List ChainLink → ChainEnd → Prop
  | depth {r : Ray Float32} {depth : UInt32} (bound : ¬depth < view.maxDepth) :
      MirrorChain view r depth [] .depth
  | miss {r : Ray Float32} {depth : UInt32} (bound : depth < view.maxDepth)
      (look : view.lookAlong r = none) : MirrorChain view r depth [] .miss
  | missingMaterial {r : Ray Float32} {depth : UInt32} {found : Found}
      (bound : depth < view.maxDepth) (look : view.lookAlong r = some found)
      (table : view.scene.materials.get? found.hit.material = none) :
      MirrorChain view r depth [] .missingMaterial
  | absorbed {r : Ray Float32} {depth : UInt32} {found : Found} {material : Material}
      (bound : depth < view.maxDepth) (look : view.lookAlong r = some found)
      (table : view.scene.materials.get? found.hit.material = some material)
      (stays : ¬view.Bounces material depth) :
      MirrorChain view r depth [⟨r, found, material⟩] .absorbed
  | bounce {r : Ray Float32} {depth : UInt32} {found : Found} {material : Material}
      {links : List ChainLink} {stop : ChainEnd} (bound : depth < view.maxDepth)
      (look : view.lookAlong r = some found)
      (table : view.scene.materials.get? found.hit.material = some material)
      (bounces : view.Bounces material depth)
      (rest : MirrorChain view (mirrorRay r found.hit) (depth + 1) links stop) :
      MirrorChain view r depth (⟨r, found, material⟩ :: links) stop

variable {view : View} {r : Ray Float32} {depth : UInt32} {links : List ChainLink}
  {stop : ChainEnd}

/-! ### Existence and uniqueness -/

theorem mirrorChain_chainFrom (view : View) (r : Ray Float32) (depth : UInt32) :
    view.MirrorChain r depth (view.chainFrom r depth).1 (view.chainFrom r depth).2 := by
  fun_induction chainFrom view r depth with
  | case1 r depth bound look => exact .miss bound look
  | case2 r depth bound found look table => exact .missingMaterial bound look table
  | case3 r depth bound found look material table bounces links stop chain ih =>
    rw [chain] at ih
    exact .bounce bound look table bounces ih
  | case4 r depth bound found look material table stays => exact .absorbed bound look table stays
  | case5 r depth bound => exact .depth bound

theorem MirrorChain.eq_chainFrom (h : view.MirrorChain r depth links stop) :
    view.chainFrom r depth = (links, stop) := by
  induction h with
  | depth bound => rw [chainFrom, if_neg bound]
  | miss bound look => rw [chainFrom, if_pos bound, look]
  | missingMaterial bound look table => rw [chainFrom, if_pos bound, look]; simp only [table]
  | absorbed bound look table stays =>
    rw [chainFrom, if_pos bound, look]
    simp only [table, if_neg stays]
  | bounce bound look table bounces _ ih =>
    rw [chainFrom, if_pos bound, look]
    simp only [table, if_pos bounces, ih]

/-- **There is exactly one chain.** -/
theorem mirrorChain_iff :
    view.MirrorChain r depth links stop ↔ view.chainFrom r depth = (links, stop) := by
  constructor
  · exact MirrorChain.eq_chainFrom
  · intro h
    have hchain := mirrorChain_chainFrom view r depth
    rwa [h] at hchain

theorem existsUnique_mirrorChain (view : View) (r : Ray Float32) (depth : UInt32) :
    ∃! chain : List ChainLink × ChainEnd, view.MirrorChain r depth chain.1 chain.2 := by
  refine ⟨view.chainFrom r depth, mirrorChain_chainFrom view r depth, ?_⟩
  rintro ⟨links, stop⟩ h
  exact (MirrorChain.eq_chainFrom h).symm

/-! ### Length and end -/

/-- Every hit of a chain uses up a level. -/
theorem MirrorChain.length_le (h : view.MirrorChain r depth links stop) :
    links.length ≤ view.maxDepth.toNat - depth.toNat := by
  induction h with
  | depth | miss | missingMaterial => exact Nat.zero_le _
  | absorbed bound =>
    rw [UInt32.lt_iff_toNat_lt] at bound
    simp only [List.length_singleton]
    omega
  | bounce bound _ _ _ _ ih =>
    have hlevels := levels_decrease bound
    simp only [List.length_cons]
    omega

/-- A mirrored ray is only sent to a level that exists, so the bound ends a chain only before its
first hit. -/
theorem MirrorChain.eq_nil_of_depth (h : view.MirrorChain r depth links .depth) :
    links = [] ∧ ¬depth < view.maxDepth := by
  generalize hstop : ChainEnd.depth = stop at h
  induction h with
  | depth bound => exact ⟨rfl, bound⟩
  | miss | missingMaterial | absorbed => cases hstop
  | bounce _ _ _ bounces _ ih => exact absurd bounces.2 (ih hstop).2

end View

end RayTracer
