import Mathlib.Algebra.Module.Defs
import RayTracer.Proofs.Shading.MirrorChain

/-!
# The two evaluators agree

`View.trace` follows the mirror chain by recursion and `View.traceIterative` by a loop.  Both are
written once more over an arbitrary arithmetic of colors (`ColorArithmetic`), which leaves open
what a color and a weight is and how they are combined; what the evaluators look at along the way
stays the same.

* `View.traceWith_eq_nested` : the recursion is the nested sum `l₀ + (l₁ + (l₂ + …) r₁) r₀` over the
  chain, in every arithmetic.
* `View.gatherWith_eq_gathered` : the loop is the sum of `0`, `l₀`, `l₁ r₀`, `l₂ (r₀ r₁)` and so on
  over the same chain, from left to right, in every arithmetic.
* `ColorArithmetic.gathered_ofRing` : over a commutative ring both sums are equal.
* `View.evaluators_agree` : **both evaluators meet the same hits and end for the same reason, and
  they differ only in the order of their sums.**

The middle two are inductions on the chain; for the loop the color gathered so far and the weight
are arbitrary.
-/

namespace RayTracer

universe u v

open View (ChainLink ChainEnd)

/-- How colors `C` and weights `W` are combined, and which ones a chain has. -/
structure ColorArithmetic (C : Type u) (W : Type v) where
  zero : C
  add : C → C → C
  /-- A color times a weight. -/
  scale : C → W → C
  one : W
  mul : W → W → W
  /-- Local color of a hit. -/
  surface : ChainLink → C
  /-- Reflective index of the surface of a hit. -/
  index : ChainLink → W
  background : C
  missingMaterial : C

namespace ColorArithmetic

variable {C : Type u} {W : Type v} (A : ColorArithmetic C W)

/-- The arithmetic of the program: single precision and the light of a scene. -/
def single (scene : Scene) : ColorArithmetic Color Float32 where
  zero := .splat 0.0
  add color color' := color + color'
  scale color weight := color * weight
  one := 1.0
  mul weight weight' := weight * weight'
  surface link := View.localColor scene link.ray link.found link.material
  index link := link.material.reflectiveIndex
  background := RayTracer.background
  missingMaterial := missingMaterialColor

/-- Exact arithmetic: weights are elements of a commutative ring, and colors of a module over
it, such as triples of elements. -/
def ofRing {R : Type v} {M : Type u} [CommRing R] [AddCommGroup M] [Module R M]
    (surface : ChainLink → M) (index : ChainLink → R) (background missingMaterial : M) :
    ColorArithmetic M R where
  zero := 0
  add color color' := color + color'
  scale color weight := weight • color
  one := 1
  mul weight weight' := weight * weight'
  surface := surface
  index := index
  background := background
  missingMaterial := missingMaterial

/-- The color that the end of a chain adds, if any. -/
def endColor? : ChainEnd → Option C
  | .depth | .miss => some A.background
  | .missingMaterial => some A.missingMaterial
  | .absorbed => none

/-! ### The two sums over a chain -/

/-- The sum from the inside out: what follows a hit, if anything does, is weighted by its reflective
index. -/
def nested (stop : ChainEnd) : List ChainLink → Option C
  | [] => A.endColor? stop
  | link :: links =>
    match nested stop links with
    | none => some (A.surface link)
    | some color => some (A.add (A.surface link) (A.scale color (A.index link)))

/-- The colors on a chain: those of its hits, and then the one of its end. -/
def colors (links : List ChainLink) (stop : ChainEnd) : List C :=
  links.map A.surface ++ (A.endColor? stop).toList

/-- The running products of the reflective indices on a chain, each multiplied to the given
weight. -/
def weightsFrom (weight : W) (links : List ChainLink) : List W :=
  (links.map A.index).scanl A.mul weight

/-- The colors, each times its weight, added to the color gathered so far from left to right. -/
def gathered (color : C) (weight : W) (links : List ChainLink) (stop : ChainEnd) : C :=
  (List.zipWith A.scale (A.colors links stop) (A.weightsFrom weight links)).foldl A.add color

/-- The sum from left to right, from zero and with the weight one. -/
def weighted (links : List ChainLink) (stop : ChainEnd) : C := A.gathered A.zero A.one links stop

theorem gathered_cons (color : C) (weight : W) (link : ChainLink) (links : List ChainLink)
    (stop : ChainEnd) :
    A.gathered color weight (link :: links) stop =
      A.gathered (A.add color (A.scale (A.surface link) weight)) (A.mul weight (A.index link))
        links stop := by
  simp [gathered, colors, weightsFrom]

/-- **Over a commutative ring both sums are equal.** -/
theorem gathered_ofRing {R : Type v} {M : Type u} [CommRing R] [AddCommGroup M] [Module R M]
    (surface : ChainLink → M) (index : ChainLink → R) (background missing color : M) (weight : R)
    (links : List ChainLink) (stop : ChainEnd) :
    (ofRing surface index background missing).gathered color weight links stop =
      color + weight • ((ofRing surface index background missing).nested stop links).getD 0 := by
  induction links generalizing color weight with
  | nil =>
    simp only [gathered, colors, weightsFrom, nested]
    cases (ofRing surface index background missing).endColor? stop <;> simp [ofRing]
  | cons link links ih =>
    rw [gathered_cons, ih, nested]
    cases (ofRing surface index background missing).nested stop links with
    | none => simp [ofRing]
    | some after =>
      show color + weight • surface link + (weight * index link) • after =
        color + weight • (surface link + index link • after)
      rw [smul_add, mul_smul, add_assoc]

end ColorArithmetic

namespace View

variable {C : Type u} {W : Type v} (A : ColorArithmetic C W) (view : View)

/-! ### The evaluators over an arithmetic -/

/-- The color seen along a ray at level `depth`, by recursion. -/
def traceWith (r : Ray Float32) (depth : UInt32) : C :=
  if depth < view.maxDepth then
    match view.lookAlong r with
    | none => A.background
    | some found =>
      match view.scene.materials.get? found.hit.material with
      | none => A.missingMaterial
      | some material =>
        let color := A.surface ⟨r, found, material⟩
        if view.Bounces material depth then
          A.add color (A.scale (traceWith (mirrorRay r found.hit) (depth + 1))
            (A.index ⟨r, found, material⟩))
        else color
  else A.background
termination_by view.maxDepth.toNat - depth.toNat
decreasing_by exact levels_decrease (by assumption)

/-- The color seen along a ray at level `depth`, added with the given weight to the color gathered
so far. -/
def gatherWith (color : C) (weight : W) (r : Ray Float32) (depth : UInt32) : C :=
  if depth < view.maxDepth then
    match view.lookAlong r with
    | none => A.add color (A.scale A.background weight)
    | some found =>
      match view.scene.materials.get? found.hit.material with
      | none => A.add color (A.scale A.missingMaterial weight)
      | some material =>
        let color := A.add color (A.scale (A.surface ⟨r, found, material⟩) weight)
        if view.Bounces material depth then
          gatherWith color (A.mul weight (A.index ⟨r, found, material⟩))
            (mirrorRay r found.hit) (depth + 1)
        else color
  else A.add color (A.scale A.background weight)
termination_by view.maxDepth.toNat - depth.toNat
decreasing_by exact levels_decrease (by assumption)

theorem traceFrom_eq_traceWith (r : Ray Float32) (depth : UInt32) :
    view.traceFrom r depth = view.traceWith (.single view.scene) r depth := by
  fun_induction traceFrom view r depth with
  | case1 r depth bound look => rw [traceWith, if_pos bound, look]; rfl
  | case2 r depth bound found look table =>
    rw [traceWith, if_pos bound, look]
    simp only [table]
    rfl
  | case3 r depth bound found look material table color bounces ih =>
    rw [traceWith, if_pos bound, look]
    simp only [table, if_pos bounces, ih]
    rfl
  | case4 r depth bound found look material table color stays =>
    rw [traceWith, if_pos bound, look]
    simp only [table, if_neg stays]
    rfl
  | case5 r depth bound => rw [traceWith, if_neg bound]; rfl

theorem gatherFrom_eq_gatherWith (color : Color) (weight : Float32) (r : Ray Float32)
    (depth : UInt32) :
    view.gatherFrom color weight r depth =
      view.gatherWith (.single view.scene) color weight r depth := by
  fun_induction gatherFrom view color weight r depth with
  | case1 color weight r depth bound look => rw [gatherWith, if_pos bound, look]; rfl
  | case2 color weight r depth bound found look table =>
    rw [gatherWith, if_pos bound, look]
    simp only [table]
    rfl
  | case3 color weight r depth bound found look material table next bounces ih =>
    rw [gatherWith, if_pos bound, look]
    simp only [table, if_pos bounces, ih]
    rfl
  | case4 color weight r depth bound found look material table next stays =>
    rw [gatherWith, if_pos bound, look]
    simp only [table, if_neg stays]
    rfl
  | case5 color weight r depth bound => rw [gatherWith, if_neg bound]; rfl

/-! ### Both evaluators walk the mirror chain -/

variable {view} {r : Ray Float32} {depth : UInt32} {links : List ChainLink} {stop : ChainEnd}

/-- **The recursion is the nested sum over the chain.** -/
theorem traceWith_eq_nested (h : view.MirrorChain r depth links stop) :
    A.nested stop links = some (view.traceWith A r depth) := by
  induction h with
  | depth bound => rw [traceWith, if_neg bound]; rfl
  | miss bound look => rw [traceWith, if_pos bound, look]; rfl
  | missingMaterial bound look table =>
    rw [traceWith, if_pos bound, look]
    simp only [table]
    rfl
  | absorbed bound look table stays =>
    rw [traceWith, if_pos bound, look]
    simp only [table, if_neg stays]
    rfl
  | bounce bound look table bounces _ ih =>
    rw [traceWith, if_pos bound, look]
    simp only [table, if_pos bounces, ColorArithmetic.nested, ih]

/-- **The loop is the sum over the chain from left to right.** -/
theorem gatherWith_eq_gathered (h : view.MirrorChain r depth links stop) (color : C) (weight : W) :
    view.gatherWith A color weight r depth = A.gathered color weight links stop := by
  induction h generalizing color weight with
  | depth bound => rw [gatherWith, if_neg bound]; rfl
  | miss bound look => rw [gatherWith, if_pos bound, look]; rfl
  | missingMaterial bound look table =>
    rw [gatherWith, if_pos bound, look]
    simp only [table]
    rfl
  | absorbed bound look table stays =>
    rw [gatherWith, if_pos bound, look]
    simp only [table, if_neg stays]
    rfl
  | bounce bound look table bounces _ ih =>
    rw [gatherWith, if_pos bound, look]
    simp only [table, if_pos bounces, ColorArithmetic.gathered_cons, ih]

/-- **Both evaluators agree.**  There is one mirror chain; it has no more hits than there are
levels, and the bound ends it only if there is no level.  The recursion is the nested sum over this
chain and the loop the sum from left to right, in single precision as in every other arithmetic of
colors, and over a commutative ring the two are equal. -/
theorem evaluators_agree (view : View) (r : Ray Float32) :
    (∃! chain : List ChainLink × ChainEnd, view.MirrorChain r 0 chain.1 chain.2) ∧
    ∀ (links : List ChainLink) (stop : ChainEnd), view.MirrorChain r 0 links stop →
      links.length ≤ view.maxDepth.toNat ∧
      (stop = .depth → links = [] ∧ view.maxDepth = 0) ∧
      (ColorArithmetic.single view.scene).nested stop links = some (view.trace r) ∧
      (ColorArithmetic.single view.scene).weighted links stop = view.traceIterative r ∧
      (∀ (C : Type u) (W : Type v) (A : ColorArithmetic C W),
        A.nested stop links = some (view.traceWith A r 0) ∧
        A.weighted links stop = view.gatherWith A A.zero A.one r 0) ∧
      ∀ (M : Type u) (R : Type v) [CommRing R] [AddCommGroup M] [Module R M]
        (surface : ChainLink → M) (index : ChainLink → R) (background missing : M),
        view.traceWith (.ofRing surface index background missing) r 0 =
          view.gatherWith (.ofRing surface index background missing) 0 1 r 0 := by
  refine ⟨existsUnique_mirrorChain view r 0, ?_⟩
  intro links stop chain
  refine ⟨?_, ?_, ?_, ?_, ?_, ?_⟩
  · simpa using chain.length_le
  · rintro rfl
    obtain ⟨hnil, hbound⟩ := chain.eq_nil_of_depth
    refine ⟨hnil, ?_⟩
    rw [UInt32.lt_iff_toNat_lt] at hbound
    apply UInt32.toNat_inj.1
    simp at hbound ⊢
    exact hbound
  · rw [traceWith_eq_nested _ chain, trace, traceFrom_eq_traceWith]
  · rw [traceIterative, gatherFrom_eq_gatherWith, gatherWith_eq_gathered _ chain]
    rfl
  · intro C W A
    exact ⟨traceWith_eq_nested A chain, (gatherWith_eq_gathered A chain _ _).symm⟩
  · intro M R _ _ _ surface index background missing
    have hnested := traceWith_eq_nested (.ofRing surface index background missing) chain
    rw [gatherWith_eq_gathered _ chain, ColorArithmetic.gathered_ofRing, hnested]
    simp

/-- Two spheres that face each other along the `z` axis; only the first one mirrors. -/
def facingSpheres : View where
  scene :=
    { camera := ⟨⟨0.0, 0.0, 10.0⟩, .zero⟩
      primitives := [⟨.sphere ⟨⟨0.0, 0.0, -5.0⟩, 1.0⟩, ⟨0⟩⟩, ⟨.sphere ⟨⟨0.0, 0.0, 5.0⟩, 1.0⟩, ⟨1⟩⟩]
      materials := ⟨[("mirror", { reflectiveIndex := 0.5 }), ("matt", {})]⟩
      maxDepth := 5 }
  maxDepth := 5

/-- The ray from between the spheres to the first one. -/
def rayToMirror : Ray Float32 := ⟨⟨0.0, 0.0, 0.0⟩, ⟨0.0, 0.0, -1.0⟩⟩

theorem evaluators_agree_on_facingSpheres :
    ∃ links : List ChainLink, facingSpheres.MirrorChain rayToMirror 0 links .absorbed ∧
      links.map (·.found.index) = [0, 1] ∧
      (ColorArithmetic.single facingSpheres.scene).nested .absorbed links =
        some (facingSpheres.trace rayToMirror) ∧
      (ColorArithmetic.single facingSpheres.scene).weighted links .absorbed =
        facingSpheres.traceIterative rayToMirror := by
  have hindices : (facingSpheres.chainFrom rayToMirror 0).1.map (·.found.index) = [0, 1] := by
    decide +kernel
  have hstop : (facingSpheres.chainFrom rayToMirror 0).2 = .absorbed := by decide +kernel
  have chain := mirrorChain_chainFrom facingSpheres rayToMirror 0
  rw [hstop] at chain
  have agree := (evaluators_agree.{0, 0} facingSpheres rayToMirror).2 _ _ chain
  exact ⟨_, chain, hindices, agree.2.2.1, agree.2.2.2.1⟩

end View

end RayTracer
