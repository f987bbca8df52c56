import RayTracer.Description.Loading
import RayTracer.Proofs.Outcome
import RayTracer.Proofs.Scene.NearestHit
import RayTracer.Proofs.Shading.Evaluators

/-!
# What accepted scenes are like

A scene that was read from a text has passed the checks of `Description.toScene`, each of which
leaves its trace in the scene (`Scene.WellFormed`): there is a level to trace, no axis and no line
of sight is a point, sizes are positive, names of materials are distinct, and every primitive has
one of the materials.

* `ObjectDescription.toPrimitive_eq_ok`, `addMaterials_eq_ok` : what the checks of one part leave.
* `Scene.WellFormed.exists_material` : a hit has a material.
* `Scene.wellFormed_of_ofText` : **accepted scenes are well formed, and no ray that an evaluator
  follows in them meets a surface without a material.**

Each check has one lemma that says when it lets a value through; the rest takes the chains of
checks apart.
-/

namespace RayTracer

/-! ### Checks -/

variable {entity : Entity} {field : String}

theorem nonNegative_eq_ok {x y : Float32} (h : nonNegative entity field x = .ok y) :
    (0.0 : Float32) ≤ y := by
  unfold nonNegative at h
  split at h
  · rename_i hx
    rwa [← Except.ok.inj h]
  · cases h

theorem positive_eq_ok {x y : Float32} (h : positive entity field x = .ok y) :
    (0.0 : Float32) < y := by
  unfold positive at h
  split at h
  · rename_i hx
    rwa [← Except.ok.inj h]
  · cases h

theorem requiredVector_eq_ok {v w : Vec3 Float32} (h : requiredVector entity field v = .ok w) :
    ¬w.Same .zero := by
  unfold requiredVector at h
  split at h
  · cases h
  · rename_i hv
    rwa [← Except.ok.inj h]

theorem distinctPoints_eq_ok {v w : Vec3 Float32} {u : Unit}
    (h : distinctPoints entity field v w = .ok u) : ¬v.Same w := by
  unfold distinctPoints at h
  split at h
  · cases h
  · assumption

/-- The number of a material is below the size of its table, if the numbers do not wrap around. -/
theorem materialNamed_eq_ok {table : MaterialTable} {name : String} {id : MaterialId}
    (h : materialNamed entity table name = .ok id) (small : table.size ≤ UInt32.size) :
    id.number.toNat < table.size := by
  unfold materialNamed at h
  split at h
  · rename_i found hfound
    obtain rfl := Except.ok.inj h
    obtain ⟨i, hi, rfl⟩ := Option.map_eq_some_iff.1 hfound
    have hlt : i < table.size := (List.findIdx?_eq_some_iff_findIdx_eq.1 hi).1
    have hword : (UInt32.ofNat i).toNat = i := UInt32.toNat_ofNat_of_lt' (by omega)
    simp only [hword, hlt]
  · cases h

/-! ### Objects -/

/-- What the checks of an object leave of its shape: no point at the origin of the world, no empty
axis, positive sizes. -/
def Shape.WellFormed : Shape Float32 → Prop
  | .sphere s => ¬s.center.Same .zero ∧ (0.0 : Float32) < s.radius
  | .plane p => ¬p.point.Same .zero ∧ ∀ size, p.checker = some size → (0.0 : Float32) < size
  | .cone c =>
    ¬c.apex.Same .zero ∧ ¬c.base.Same .zero ∧ ¬c.apex.Same c.base ∧ (0.0 : Float32) < c.radius
  | .cylinder c =>
    ¬c.start.Same .zero ∧ ¬c.stop.Same .zero ∧ ¬c.start.Same c.stop ∧ (0.0 : Float32) < c.radius

/-- The checker size is only checked where there is a checkerboard. -/
theorem checker_eq_ok {checkerboard : Bool} {x : Float32} {checker : Option Float32}
    (h : (if checkerboard then (positive entity field x).map some else .ok none) = .ok checker)
    (size : Float32) (hsize : checker = some size) : (0.0 : Float32) < size := by
  split at h
  · cases hx : positive entity field x with
    | error e =>
      rw [hx] at h
      cases h
    | ok y =>
      rw [hx] at h
      obtain rfl := Except.ok.inj h
      obtain rfl := Option.some.inj hsize
      exact positive_eq_ok hx
  · obtain rfl := Except.ok.inj h
    cases hsize

/-- **One object.** -/
theorem ObjectDescription.toPrimitive_eq_ok {object : ObjectDescription} {table : MaterialTable}
    {p : Primitive Float32} (h : object.toPrimitive entity table = .ok p)
    (small : table.size ≤ UInt32.size) :
    p.shape.WellFormed ∧ p.material.number.toNat < table.size := by
  cases object with
  | sphere center radius material =>
    obtain ⟨c, hc, h⟩ := bind_eq_ok.1 h
    obtain ⟨x, hx, h⟩ := bind_eq_ok.1 h
    obtain ⟨id, hid, h⟩ := bind_eq_ok.1 h
    obtain rfl := Except.ok.inj h
    exact ⟨⟨requiredVector_eq_ok hc, positive_eq_ok hx⟩, materialNamed_eq_ok hid small⟩
  | plane point normal checkerboard size material =>
    -- what follows the check of the checker size is the same with and without a checkerboard
    obtain ⟨checker, hchecker, h⟩ : ∃ checker,
        (if checkerboard then (positive entity "checker_size" size).map some else .ok none) =
          .ok checker ∧ (do
            let point ← requiredVector entity "point" point
            let normal ← requiredVector entity "normal" normal
            let material ← materialNamed entity table material
            return ⟨.plane (.through point normal checker), material⟩) = Except.ok p := by
      cases checkerboard <;> exact bind_eq_ok.1 h
    obtain ⟨c, hc, h⟩ := bind_eq_ok.1 h
    obtain ⟨n, hn, h⟩ := bind_eq_ok.1 h
    obtain ⟨id, hid, h⟩ := bind_eq_ok.1 h
    obtain rfl := Except.ok.inj h
    exact ⟨⟨requiredVector_eq_ok hc, checker_eq_ok hchecker⟩, materialNamed_eq_ok hid small⟩
  | cone apex base radius material | cylinder center1 center2 radius material =>
    obtain ⟨v, hv, h⟩ := bind_eq_ok.1 h
    obtain ⟨w, hw, h⟩ := bind_eq_ok.1 h
    obtain ⟨u, hvw, h⟩ := bind_eq_ok.1 h
    obtain ⟨x, hx, h⟩ := bind_eq_ok.1 h
    obtain ⟨id, hid, h⟩ := bind_eq_ok.1 h
    obtain rfl := Except.ok.inj h
    exact ⟨⟨requiredVector_eq_ok hv, requiredVector_eq_ok hw, distinctPoints_eq_ok hvw,
      positive_eq_ok hx⟩, materialNamed_eq_ok hid small⟩

theorem primitiveOf_eq_ok {table : MaterialTable} {index : Nat} {j : Json}
    {p : Primitive Float32} (h : primitiveOf table index j = .ok p)
    (small : table.size ≤ UInt32.size) :
    p.shape.WellFormed ∧ p.material.number.toNat < table.size := by
  simp only [primitiveOf] at h
  split at h
  · cases h
  · split at h
    · cases h
    · split at h
      · cases h
      · exact ObjectDescription.toPrimitive_eq_ok h small

/-! ### Lists of parts -/

/-- What is built of the members of a list is built of one member each. -/
theorem forall_of_buildFrom_eq_ok {β γ : Type} {build : Nat → β → Except SceneError γ}
    {P : γ → Prop} (hbuild : ∀ i b c, build i b = .ok c → P c) {bs : List β} {cs : List γ}
    {index : Nat} (h : buildFrom build index bs = .ok cs) : ∀ c ∈ cs, P c := by
  induction bs generalizing index cs with
  | nil =>
    obtain rfl := Except.ok.inj h
    exact nofun
  | cons b bs ih =>
    obtain ⟨c, hc, h⟩ := bind_eq_ok.1 h
    obtain ⟨rest, hrest, h⟩ := bind_eq_ok.1 h
    obtain rfl := Except.ok.inj h
    intro c' hc'
    rcases List.mem_cons.1 hc' with rfl | hc'
    · exact hbuild index b c' hc
    · exact ih hrest c' hc'

/-- What the checks of the materials leave. -/
structure MaterialTable.WellFormed (table : MaterialTable) : Prop where
  names : (table.entries.map (·.1)).Nodup
  powers : ∀ m ∈ table.materials, (0.0 : Float32) ≤ m.specularPower

theorem MaterialTable.WellFormed.empty : MaterialTable.WellFormed {} := ⟨List.nodup_nil, nofun⟩

theorem MaterialTable.WellFormed.insert? {table table' : MaterialTable} {name : String}
    {material : Material} {id : MaterialId} (h : table.WellFormed)
    (hpower : (0.0 : Float32) ≤ material.specularPower)
    (hinsert : table.insert? name material = some (id, table')) : table'.WellFormed := by
  unfold MaterialTable.insert? at hinsert
  split at hinsert
  · cases hinsert
  · rename_i hfresh
    obtain ⟨-, rfl⟩ := Prod.mk.inj (Option.some.inj hinsert)
    refine ⟨?_, ?_⟩
    · -- the new name is none of the names before it
      rw [List.map_append, List.nodup_append]
      refine ⟨h.names, by simp, ?_⟩
      intro a ha b hb
      obtain rfl := List.mem_singleton.1 hb
      rintro rfl
      obtain ⟨entry, hentry, hname⟩ := List.mem_map.1 ha
      exact hfresh (List.any_eq_true.2 ⟨entry, hentry, by simp [hname]⟩)
    · intro m hm
      rw [MaterialTable.materials, List.map_append] at hm
      rcases List.mem_append.1 hm with hm | hm
      · exact h.powers m hm
      · rwa [List.mem_singleton.1 hm]

theorem addMaterial_eq_ok {table table' : MaterialTable} {index : Nat} {d : MaterialDescription}
    (h : addMaterial table index d = .ok table') (ht : table.WellFormed) : table'.WellFormed := by
  obtain ⟨material, hmaterial, h⟩ := bind_eq_ok.1 h
  obtain ⟨color, -, hmaterial⟩ := bind_eq_ok.1 hmaterial
  obtain ⟨power, hpower, hmaterial⟩ := bind_eq_ok.1 hmaterial
  obtain rfl := Except.ok.inj hmaterial
  split at h
  · rename_i hinsert
    obtain rfl := Except.ok.inj h
    exact ht.insert? (nonNegative_eq_ok hpower) hinsert
  · cases h

/-- **All materials.** -/
theorem addMaterials_eq_ok {table table' : MaterialTable} {index : Nat}
    {ds : List MaterialDescription} (h : addMaterials table index ds = .ok table')
    (ht : table.WellFormed) : table'.WellFormed := by
  induction ds generalizing table index with
  | nil =>
    obtain rfl := Except.ok.inj h
    exact ht
  | cons d ds ih =>
    obtain ⟨next, hnext, h⟩ := bind_eq_ok.1 h
    exact ih h (addMaterial_eq_ok hnext ht)

theorem LightDescription.toLight_eq_ok {index : Nat} {d : LightDescription} {l : Light}
    (h : d.toLight index = .ok l) : (0.0 : Float32) ≤ l.intensity := by
  obtain ⟨color, -, h⟩ := bind_eq_ok.1 h
  obtain ⟨intensity, hintensity, h⟩ := bind_eq_ok.1 h
  obtain rfl := Except.ok.inj h
  exact nonNegative_eq_ok hintensity

theorem ambientOf_eq_ok {d : Option AmbientDescription} {l : AmbientLight}
    (h : ambientOf d = .ok l) : (0.0 : Float32) ≤ l.intensity := by
  cases d with
  | none =>
    obtain rfl := Except.ok.inj h
    decide +kernel
  | some d =>
    obtain ⟨color, -, h⟩ := bind_eq_ok.1 h
    obtain ⟨intensity, hintensity, h⟩ := bind_eq_ok.1 h
    obtain rfl := Except.ok.inj h
    exact nonNegative_eq_ok hintensity

theorem CameraDescription.toCamera_eq_ok {d : CameraDescription} {c : Camera Float32}
    (h : d.toCamera = .ok c) : ¬c.origin.Same c.lookAt := by
  unfold CameraDescription.toCamera at h
  split at h
  · cases h
  · rename_i hdiffer
    rwa [← Except.ok.inj h]

theorem depthOf_eq_ok {depth : Option UInt32} {bound : UInt32} (h : depthOf depth = .ok bound) :
    1 ≤ bound := by
  cases depth with
  | none =>
    obtain rfl := Except.ok.inj h
    decide
  | some d =>
    simp only [depthOf] at h
    split at h
    · cases h
    · rename_i hne
      obtain rfl := Except.ok.inj h
      rw [UInt32.le_iff_toNat_le]
      have hpos : d.toNat ≠ 0 := fun hzero => hne (UInt32.toNat_inj.1 hzero)
      exact Nat.pos_of_ne_zero hpos

/-! ### The whole scene -/

/-- What the checks of a description leave in the scene. -/
structure Scene.WellFormed (scene : Scene) : Prop where
  maxDepth : 1 ≤ scene.maxDepth
  camera : ¬scene.camera.origin.Same scene.camera.lookAt
  materials : scene.materials.WellFormed
  lights : ∀ l ∈ scene.lights, (0.0 : Float32) ≤ l.intensity
  ambient : (0.0 : Float32) ≤ scene.ambient.intensity
  shapes : ∀ p ∈ scene.primitives, p.shape.WellFormed
  numbers : ∀ p ∈ scene.primitives, p.material.number.toNat < scene.materials.size

theorem Description.wellFormed_toScene {d : Description} {name : String} {scene : Scene}
    (h : d.toScene name = .ok scene) (small : scene.materials.size ≤ UInt32.size) :
    scene.WellFormed := by
  obtain ⟨camera, hcamera, h⟩ := bind_eq_ok.1 h
  obtain ⟨maxDepth, hdepth, h⟩ := bind_eq_ok.1 h
  obtain ⟨materials, hmaterials, h⟩ := bind_eq_ok.1 h
  obtain ⟨lights, hlights, h⟩ := bind_eq_ok.1 h
  obtain ⟨ambient, hambient, h⟩ := bind_eq_ok.1 h
  obtain ⟨primitives, hprimitives, h⟩ := bind_eq_ok.1 h
  obtain rfl := Except.ok.inj h
  have hobjects : ∀ p ∈ primitives,
      p.shape.WellFormed ∧ p.material.number.toNat < materials.size :=
    forall_of_buildFrom_eq_ok (fun _ _ _ hp => primitiveOf_eq_ok hp small) hprimitives
  exact {
    maxDepth := depthOf_eq_ok hdepth
    camera := CameraDescription.toCamera_eq_ok hcamera
    materials := addMaterials_eq_ok hmaterials .empty
    lights := forall_of_buildFrom_eq_ok (fun _ _ _ => LightDescription.toLight_eq_ok) hlights
    ambient := ambientOf_eq_ok hambient
    shapes := fun p hp => (hobjects p hp).1
    numbers := fun p hp => (hobjects p hp).2 }

/-- A scene that is accepted has a level, however many materials it has. -/
theorem Scene.one_le_maxDepth_of_ofText {name text : String} {scene : Scene}
    (h : Scene.ofText name text = .ok scene) : 1 ≤ scene.maxDepth := by
  unfold Scene.ofText at h
  split at h
  · cases h
  · obtain ⟨camera, -, h⟩ := bind_eq_ok.1 h
    obtain ⟨maxDepth, hdepth, h⟩ := bind_eq_ok.1 h
    obtain ⟨materials, -, h⟩ := bind_eq_ok.1 h
    obtain ⟨lights, -, h⟩ := bind_eq_ok.1 h
    obtain ⟨ambient, -, h⟩ := bind_eq_ok.1 h
    obtain ⟨primitives, -, h⟩ := bind_eq_ok.1 h
    obtain rfl := Except.ok.inj h
    exact depthOf_eq_ok hdepth

theorem Scene.maxDepth_ne_zero_of_ofText {name text : String} {scene : Scene}
    (h : Scene.ofText name text = .ok scene) : scene.maxDepth ≠ 0 := by
  have hdepth := Scene.one_le_maxDepth_of_ofText h
  intro hzero
  rw [hzero] at hdepth
  exact absurd hdepth (by decide)

namespace Scene

variable {scene : Scene}

/-- What a ray hits has one of the materials of the scene. -/
theorem WellFormed.exists_material (h : scene.WellFormed) {r : Ray Float32}
    {range : Interval Float32} {found : Found} (hfound : scene.intersect r range = some found) :
    ∃ material, scene.materials.get? found.hit.material = some material := by
  have hnearest := isNearest_of_intersect hfound
  have hmem : found.primitive ∈ scene.primitives := List.mem_of_getElem? hnearest.primitive
  obtain ⟨contact, -, hhit⟩ := Option.map_eq_some_iff.1 hnearest.hit
  have hmaterial : found.hit.material = found.primitive.material := by rw [← hhit]
  have hlt := h.numbers found.primitive hmem
  refine ⟨scene.materials.entries[found.primitive.material.number.toNat].2, ?_⟩
  rw [hmaterial, MaterialTable.get?, List.getElem?_eq_getElem hlt]
  rfl

/-- No mirror chain ends at a surface without a material. -/
theorem WellFormed.ne_missingMaterial (h : scene.WellFormed) {bound depth : UInt32}
    {r : Ray Float32} {links : List View.ChainLink} {stop : View.ChainEnd}
    (chain : (View.mk scene bound).MirrorChain r depth links stop) : stop ≠ .missingMaterial := by
  induction chain with
  | depth | miss | absorbed => exact View.ChainEnd.noConfusion
  | missingMaterial _ look table =>
    obtain ⟨material, hmaterial⟩ := h.exists_material look
    cases hmaterial.symm.trans table
  | bounce _ _ _ _ _ ih => exact ih

end Scene

namespace ColorArithmetic

universe u v

variable {C : Type u} {W : Type v} {A : ColorArithmetic C W} {stop : View.ChainEnd}

/-- Where no material is missing, its color does not count. -/
theorem endColor?_missingMaterial (h : stop ≠ .missingMaterial) (color : C) :
    { A with missingMaterial := color }.endColor? stop = A.endColor? stop := by
  cases stop with
  | missingMaterial => exact absurd rfl h
  | depth | miss | absorbed => rfl

theorem nested_missingMaterial (h : stop ≠ .missingMaterial) (color : C)
    (links : List View.ChainLink) :
    { A with missingMaterial := color }.nested stop links = A.nested stop links := by
  induction links with
  | nil => exact endColor?_missingMaterial h color
  | cons link links ih => simp only [nested, ih]

theorem weighted_missingMaterial (h : stop ≠ .missingMaterial) (color : C)
    (links : List View.ChainLink) :
    { A with missingMaterial := color }.weighted links stop = A.weighted links stop := by
  simp only [weighted, gathered, colors, weightsFrom, endColor?_missingMaterial h]

end ColorArithmetic

namespace Scene

variable {scene : Scene}

/-- **Accepted scenes are well formed.**  Whatever the bound on the levels, the mirror chain of a
ray in such a scene does not end at a surface without a material, so neither evaluator depends on
the color that such surfaces have. -/
theorem wellFormed_of_ofText {name text : String} (accepted : ofText name text = .ok scene)
    (small : scene.materials.size ≤ UInt32.size) :
    scene.WellFormed ∧ ∀ (bound : UInt32) (r : Ray Float32),
      (∀ links stop, (View.mk scene bound).MirrorChain r 0 links stop → stop ≠ .missingMaterial) ∧
      ∀ color : Color,
        (View.mk scene bound).trace r = (View.mk scene bound).traceWith
          { ColorArithmetic.single scene with missingMaterial := color } r 0 ∧
        (View.mk scene bound).traceIterative r = (View.mk scene bound).gatherWith
          { ColorArithmetic.single scene with missingMaterial := color } (.splat 0.0) 1.0 r 0 := by
  have wf : scene.WellFormed := by
    unfold ofText at accepted
    split at accepted
    · cases accepted
    · exact Description.wellFormed_toScene accepted small
  refine ⟨wf, ?_⟩
  intro bound r
  refine ⟨fun links stop chain => wf.ne_missingMaterial chain, ?_⟩
  intro color
  have chain := View.mirrorChain_chainFrom ⟨scene, bound⟩ r 0
  have hstop := wf.ne_missingMaterial chain
  constructor
  · apply Option.some.inj
    rw [← View.traceWith_eq_nested _ chain, ColorArithmetic.nested_missingMaterial hstop,
      View.traceWith_eq_nested _ chain, View.trace, View.traceFrom_eq_traceWith]
  · rw [View.gatherWith_eq_gathered _ chain, View.traceIterative, View.gatherFrom_eq_gatherWith,
      View.gatherWith_eq_gathered _ chain]
    exact (ColorArithmetic.weighted_missingMaterial hstop color _).symm

/-- A cone that stands on its base. -/
def coneText : String :=
  "\x7b\"camera\":[[0,1,5],[0,0,0]],\"materials\":[[\"m\",[1,1,1],0,1]],\"objects\":" ++
    "[\x7b\"type\":\"cone\",\"apex\":[0,1,0],\"base\":[0,-1,0],\"radius\":1," ++
    "\"material\":\"m\"\x7d]\x7d"

theorem wellFormed_coneText :
    ∃ scene, ofText "cone" coneText = .ok scene ∧ scene.materials.size ≤ UInt32.size ∧
      scene.primitives.length = 1 ∧ scene.WellFormed ∧
      ∀ (bound : UInt32) (r : Ray Float32) links stop,
        (View.mk scene bound).MirrorChain r 0 links stop → stop ≠ .missingMaterial := by
  have check : (ofText "cone" coneText).toOption.any
      (fun s => s.materials.size == 1 && s.primitives.length == 1) = true := by
    decide +kernel
  cases accepted : ofText "cone" coneText with
  | error e =>
    rw [accepted] at check
    cases check
  | ok scene =>
    rw [accepted] at check
    obtain ⟨hmaterials, hprimitives⟩ := Bool.and_eq_true_iff.1 check
    have small : scene.materials.size ≤ UInt32.size := by
      rw [eq_of_beq hmaterials]
      decide
    obtain ⟨wf, evaluators⟩ := wellFormed_of_ofText accepted small
    exact ⟨scene, rfl, small, eq_of_beq hprimitives, wf, fun bound r => (evaluators bound r).1⟩

end Scene

end RayTracer
