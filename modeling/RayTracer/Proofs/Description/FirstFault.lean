import Mathlib.Data.List.Forall2
import RayTracer.Proofs.Description.Accepted
import RayTracer.Proofs.Scene.MaterialTable

/-!
# Which fault of a description is reported

A description is a list of parts, each with checks of its own (`Description.parts`,
`ScenePart.checks`).  Loading makes the checks of one part after the other, so that the first check
that is not passed is the error, and nothing that stands after its part has a say.  Where all
checks are passed, every part is in the scene, in its place.

* `Checked` : a computation that makes checks in turn.
* `Description.toScene_checked` : **loading makes exactly the checks of the parts, in their order.**
* `Scene.ofText_firstFault` : the error is that of the first part at fault, and without a fault the
  scene keeps every part in its place.

`Checked` is a postcondition together with a list of checks, and `Checked.bind` puts two such
specifications one after the other.  Each builder of a part has one specification.
-/

namespace RayTracer

/-! ### Checks made in turn -/

/-- A check of a description, and the error if it is not passed. -/
structure Check where
  passed : Bool
  error : SceneError

/-- The error of the first check that is not passed. -/
def Check.firstError? (checks : List Check) : Option SceneError :=
  (checks.find? (!·.passed)).map (·.error)

theorem Check.firstError?_append (checks rest : List Check) :
    firstError? (checks ++ rest) = (firstError? checks).or (firstError? rest) := by
  rw [firstError?, List.find?_append, Option.map_or]
  rfl

theorem Check.firstError?_eq_none_iff {checks : List Check} :
    firstError? checks = none ↔ ∀ check ∈ checks, check.passed = true := by
  simp [firstError?]

/-- The computation makes the checks in turn.  The first one that is not passed is its error, and if
there is none, then it has a value with the property `P`. -/
def Checked {β : Type} (checks : List Check) (P : β → Prop) : Except SceneError β → Prop
  | .error e => Check.firstError? checks = some e
  | .ok b => Check.firstError? checks = none ∧ P b

namespace Checked

variable {β γ : Type} {checks rest : List Check} {P Q : β → Prop} {R : γ → Prop}
  {x : Except SceneError β} {f : β → Except SceneError γ} {e : SceneError} {b : β}

theorem ok (h : P b) : Checked [] P (.ok b) := ⟨rfl, h⟩

/-- A single check. -/
theorem ite {p : Prop} [Decidable p] :
    Checked [⟨p, e⟩] (· = b) (if p then .ok b else .error e) := by
  by_cases hp : p <;> simp [Checked, Check.firstError?, hp]

theorem ite_not {p : Prop} [Decidable p] :
    Checked [⟨¬p, e⟩] (· = b) (if p then .error e else .ok b) := by
  by_cases hp : p <;> simp [Checked, Check.firstError?, hp]

/-- A single check that is not passed. -/
theorem fail : Checked [⟨false, e⟩] P (.error e) := rfl

theorem mono (h : Checked checks P x) (hPQ : ∀ b, P b → Q b) : Checked checks Q x := by
  cases x with
  | error e => exact h
  | ok b => exact ⟨h.1, hPQ b h.2⟩

/-- A computation also has the property of being where its value comes from. -/
theorem eq_ok (h : Checked checks P x) : Checked checks (fun b => P b ∧ x = .ok b) x := by
  cases x with
  | error e => exact h
  | ok b => exact ⟨h.1, h.2, rfl⟩

/-- Two computations, the second of which starts from the value of the first. -/
theorem bind (hx : Checked checks P x) (hf : ∀ b, P b → Checked rest R (f b)) :
    Checked (checks ++ rest) R (x >>= f) := by
  cases x with
  | error e =>
    have hfirst : Check.firstError? checks = some e := hx
    change Check.firstError? (checks ++ rest) = some e
    rw [Check.firstError?_append, hfirst, Option.some_or]
  | ok b =>
    obtain ⟨hnone, hb⟩ := hx
    have hrest := hf b hb
    change Checked (checks ++ rest) R (f b)
    cases hfb : f b with
    | error e =>
      rw [hfb] at hrest
      have hfirst : Check.firstError? rest = some e := hrest
      change Check.firstError? (checks ++ rest) = some e
      rw [Check.firstError?_append, hnone, Option.none_or, hfirst]
    | ok c =>
      rw [hfb] at hrest
      refine ⟨?_, hrest.2⟩
      rw [Check.firstError?_append, hnone, Option.none_or, hrest.1]

theorem eq_error_iff (h : Checked checks P x) :
    x = .error e ↔ Check.firstError? checks = some e := by
  cases x with
  | error e' =>
    have hfirst : Check.firstError? checks = some e' := h
    rw [hfirst]
    exact ⟨fun heq => congrArg some (Except.error.inj heq),
      fun heq => congrArg Except.error (Option.some.inj heq)⟩
  | ok b =>
    rw [h.1]
    exact ⟨nofun, nofun⟩

theorem exists_ok (h : Checked checks P x) (hpassed : ∀ check ∈ checks, check.passed = true) :
    ∃ b, x = .ok b ∧ P b := by
  cases x with
  | error e =>
    have hfirst : Check.firstError? checks = some e := h
    rw [Check.firstError?_eq_none_iff.2 hpassed] at hfirst
    cases hfirst
  | ok b => exact ⟨b, rfl, h.2⟩

end Checked

/-! ### The checks of fields -/

namespace Check

variable (entity : Entity) (field : String)

/-- Not below zero. -/
def nonNegative (x : Float32) : Check :=
  ⟨(0.0 : Float32) ≤ x, .invalidField entity field (.negative x)⟩

/-- Above zero. -/
def positive (x : Float32) : Check :=
  ⟨(0.0 : Float32) < x, .invalidField entity field (.notPositive x)⟩

/-- Three components, or four. -/
def color (components : List Float32) : Check :=
  ⟨components.length = 3 ∨ components.length = 4,
    .invalidField entity field (.componentCount components.length)⟩

/-- Not the zero vector. -/
def present (v : Vec3 Float32) : Check := ⟨¬v.Same .zero, .missingField entity field⟩

/-- Two different points. -/
def distinct (v w : Vec3 Float32) : Check := ⟨¬v.Same w, .invalidField entity field .emptyAxis⟩

/-- One of the names of materials. -/
def known (declared : List String) (name : String) : Check :=
  ⟨name ∈ declared, .unknownMaterial entity name⟩

end Check

section Fields

variable {entity : Entity} {field : String}

theorem nonNegative_checked (x : Float32) :
    Checked [.nonNegative entity field x] (· = x) (nonNegative entity field x) := .ite

theorem positive_checked (x : Float32) :
    Checked [.positive entity field x] (· = x) (positive entity field x) := .ite

theorem requiredVector_checked (v : Vec3 Float32) :
    Checked [.present entity field v] (· = v) (requiredVector entity field v) := .ite_not

theorem distinctPoints_checked (v w : Vec3 Float32) :
    Checked [.distinct entity field v w] (· = ()) (distinctPoints entity field v w) := .ite_not

theorem colorOf_checked (components : List Float32) :
    Checked [.color entity field components] (fun c => components.take 3 = [c.x, c.y, c.z])
      (colorOf entity field components) := by
  unfold colorOf
  split
  · exact ⟨rfl, rfl⟩
  · exact ⟨rfl, rfl⟩
  · rename_i hthree hfour
    have hlength : ¬(components.length = 3 ∨ components.length = 4) := by
      rintro (h | h)
      · obtain ⟨r, g, b, rfl⟩ := List.length_eq_three.1 h
        exact hthree r g b rfl
      · match components, h with
        | [r, g, b, a], _ => exact hfour r g b a rfl
    simp [Checked, Check.firstError?, Check.color, hlength]

end Fields

/-! ### Materials by name -/

theorem materialNamed_checked {entity : Entity} {table : MaterialTable} (name : String) :
    Checked [.known entity table.names name] (fun id => table.id? name = some id)
      (materialNamed entity table name) := by
  unfold materialNamed
  split
  · rename_i id hid
    have hmem : name ∈ table.names := MaterialTable.id?_isSome_iff.1 (by simp [hid])
    simp [Checked, Check.firstError?, Check.known, hmem, hid]
  · rename_i hid
    have hmem : name ∉ table.names := fun h => by simpa [hid] using MaterialTable.id?_isSome_iff.2 h
    simp [Checked, Check.firstError?, Check.known, hmem]

/-! ### Objects -/

namespace ObjectDescription

/-- The shape that an object describes. -/
def shape : ObjectDescription → Shape Float32
  | sphere center radius _ => .sphere ⟨center, radius⟩
  | plane point normal checkerboard checkerSize _ =>
    .plane (.through point normal (if checkerboard then some checkerSize else none))
  | cone apex base radius _ => .cone ⟨apex, base, radius⟩
  | cylinder center1 center2 radius _ => .cylinder ⟨center1, center2, radius⟩

/-- The name of the material of an object. -/
def material : ObjectDescription → String
  | sphere _ _ m | plane _ _ _ _ m | cone _ _ _ m | cylinder _ _ _ m => m

/-- The checks of an object, among materials of the names declared. -/
def checks (entity : Entity) (declared : List String) : ObjectDescription → List Check
  | sphere center radius m =>
    [.present entity "center" center, .positive entity "radius" radius, .known entity declared m]
  | plane point normal checkerboard checkerSize m =>
    (if checkerboard then [.positive entity "checker_size" checkerSize] else []) ++
      [.present entity "point" point, .present entity "normal" normal, .known entity declared m]
  | cone apex base radius m =>
    [.present entity "apex" apex, .present entity "base" base, .distinct entity "base" apex base,
      .positive entity "radius" radius, .known entity declared m]
  | cylinder center1 center2 radius m =>
    [.present entity "center1" center1, .present entity "center2" center2,
      .distinct entity "center2" center1 center2, .positive entity "radius" radius,
      .known entity declared m]

variable {entity : Entity} {table : MaterialTable}

/-- A checkerboard is checked where there is one. -/
theorem checker_checked (checkerboard : Bool) (size : Float32) :
    Checked (if checkerboard then [.positive entity "checker_size" size] else [])
      (· = if checkerboard then some size else none)
      (if checkerboard then (positive entity "checker_size" size).map some else .ok none) := by
  cases checkerboard with
  | false => exact .ok rfl
  | true =>
    have hpositive : Checked [.positive entity "checker_size" size] (· = size)
        (positive entity "checker_size" size) := positive_checked size
    change Checked [.positive entity "checker_size" size] (· = some size)
      ((positive entity "checker_size" size).map some)
    cases h : positive entity "checker_size" size with
    | error e =>
      rw [h] at hpositive
      exact hpositive
    | ok y =>
      rw [h] at hpositive
      exact ⟨hpositive.1, congrArg some hpositive.2⟩

theorem toPrimitive_checked (object : ObjectDescription) :
    Checked (object.checks entity table.names)
      (fun p => p.shape = object.shape ∧ table.id? object.material = some p.material)
      (object.toPrimitive entity table) := by
  cases object with
  | sphere center radius m =>
    refine .bind (requiredVector_checked center) ?_
    rintro _ rfl
    refine .bind (positive_checked radius) ?_
    rintro _ rfl
    refine .bind (materialNamed_checked m) ?_
    intro id hid
    exact .ok ⟨rfl, hid⟩
  | plane point normal checkerboard size m =>
    have hafter : ∀ checker, checker = (if checkerboard then some size else none) →
        Checked [.present entity "point" point, .present entity "normal" normal,
            .known entity table.names m]
          (fun p : Primitive Float32 =>
            p.shape = (plane point normal checkerboard size m).shape ∧
              table.id? m = some p.material)
          (do
            let point ← requiredVector entity "point" point
            let normal ← requiredVector entity "normal" normal
            let material ← materialNamed entity table m
            return ⟨.plane (.through point normal checker), material⟩) := by
      rintro _ rfl
      refine .bind (requiredVector_checked point) ?_
      rintro _ rfl
      refine .bind (requiredVector_checked normal) ?_
      rintro _ rfl
      refine .bind (materialNamed_checked m) ?_
      intro id hid
      exact .ok ⟨rfl, hid⟩
    -- the code makes the same chain in both branches
    cases checkerboard <;> exact .bind (checker_checked _ size) hafter
  | cone v w radius m | cylinder v w radius m =>
    refine .bind (requiredVector_checked _) ?_
    rintro _ rfl
    refine .bind (requiredVector_checked _) ?_
    rintro _ rfl
    refine .bind (distinctPoints_checked _ _) ?_
    rintro _ -
    refine .bind (positive_checked _) ?_
    rintro _ rfl
    refine .bind (materialNamed_checked m) ?_
    intro id hid
    exact .ok ⟨rfl, hid⟩

/-- What is read of an object has the kind that was asked for, and names the material that the
object names. -/
theorem of_ofJson? {kind : ObjectKind} {type : String} {j : Json} {object : ObjectDescription}
    (hkind : ObjectKind.ofType? type = some kind) (h : ofJson? kind j = some object) :
    object.shape.kind = type ∧ (j.get? "material").bind Json.text? = some object.material := by
  unfold ObjectKind.ofType? at hkind
  split at hkind
  all_goals
    try obtain rfl := Option.some.inj hkind
    simp only [ofJson?, Option.bind_eq_bind, Option.bind_eq_some_iff, Option.pure_def,
      Option.some.injEq] at h
  · obtain ⟨_, -, _, -, m, hm, rfl⟩ := h
    exact ⟨rfl, Option.bind_eq_some_iff.2 hm⟩
  · obtain ⟨_, -, _, -, _, -, _, -, m, hm, rfl⟩ := h
    exact ⟨rfl, Option.bind_eq_some_iff.2 hm⟩
  · obtain ⟨_, -, _, -, _, -, m, hm, rfl⟩ := h
    exact ⟨rfl, Option.bind_eq_some_iff.2 hm⟩
  · obtain ⟨_, -, _, -, _, -, m, hm, rfl⟩ := h
    exact ⟨rfl, Option.bind_eq_some_iff.2 hm⟩
  · cases hkind

end ObjectDescription

/-! ### Parts of a description -/

/-- A part of a description, at its place in the list of parts of its kind. -/
inductive ScenePart where
  | camera (d : CameraDescription)
  | maxDepth (depth : Option UInt32)
  | material (index : Nat) (d : MaterialDescription)
  | light (index : Nat) (d : LightDescription)
  | ambientLight (d : Option AmbientDescription)
  | object (index : Nat) (j : Json)

namespace ScenePart

/-- How errors refer to a part. -/
def entity : ScenePart → Entity
  | camera _ => .camera
  | maxDepth _ => .scene
  | material index _ => .material index
  | light index _ => .light index
  | ambientLight _ => .ambientLight
  | object index j => .object index ((j.get? "type").bind Json.text?)

/-- The names of materials that a part declares. -/
def declares : ScenePart → List String
  | material _ d => [d.name]
  | camera _ | maxDepth _ | light _ _ | ambientLight _ | object _ _ => []

/-- The checks of a part that stands after parts that declare the given names.  The checks of an
object depend on what can be read of it. -/
def checks (declared : List String) : ScenePart → List Check
  | camera d => [⟨¬d.origin.Same d.lookAt, .invalidField .camera "lookAt" .equalsOrigin⟩]
  | maxDepth depth => [⟨depth ≠ some 0, .invalidField .scene "max_depth" .noLevels⟩]
  | material index d =>
    [.color (.material index) "color" d.color,
      .nonNegative (.material index) "specular_power" d.specularPower,
      ⟨d.name ∉ declared, .duplicateMaterial (.material index) d.name⟩]
  | light index d =>
    [.color (.light index) "color" d.color, .nonNegative (.light index) "intensity" d.intensity]
  | ambientLight none => []
  | ambientLight (some d) =>
    [.color .ambientLight "color" d.color, .nonNegative .ambientLight "intensity" d.intensity]
  | object index j =>
    match (j.get? "type").bind Json.text? with
    | none => [⟨false, .missingType (.object index none)⟩]
    | some type =>
      let entity := Entity.object index (some type)
      match ObjectKind.ofType? type with
      | none => [⟨false, .unknownType entity type⟩]
      | some kind =>
        match ObjectDescription.ofJson? kind j with
        | none => [⟨false, .invalidObject entity⟩]
        | some described => described.checks entity declared

/-- The names of materials that parts declare. -/
def names (parts : List ScenePart) : List String := parts.flatMap declares

/-- The checks of parts, each of which stands after parts that declare the given names. -/
def checksFrom (declared : List String) : List ScenePart → List Check
  | [] => []
  | part :: rest => part.checks declared ++ checksFrom (declared ++ part.declares) rest

theorem checksFrom_append (declared : List String) (parts rest : List ScenePart) :
    checksFrom declared (parts ++ rest) =
      checksFrom declared parts ++ checksFrom (declared ++ names parts) rest := by
  induction parts generalizing declared with
  | nil => simp [checksFrom, names]
  | cons part parts ih => simp [checksFrom, names, ih]

/-- The members of a list as parts, numbered from `index` on. -/
def numbered {β : Type} (part : Nat → β → ScenePart) (index : Nat) (bs : List β) : List ScenePart :=
  (bs.zipIdx index).map fun b => part b.2 b.1

theorem numbered_cons {β : Type} (part : Nat → β → ScenePart) (index : Nat) (b : β)
    (bs : List β) : numbered part index (b :: bs) = part index b :: numbered part (index + 1) bs :=
  rfl

theorem names_numbered_material (index : Nat) (ds : List MaterialDescription) :
    names (numbered material index ds) = ds.map (·.name) := by
  induction ds generalizing index with
  | nil => rfl
  | cons d ds ih => exact congrArg (d.name :: ·) (ih (index + 1))

theorem names_numbered_of_declares {β : Type} (part : Nat → β → ScenePart)
    (h : ∀ index b, (part index b).declares = []) (index : Nat) (bs : List β) :
    names (numbered part index bs) = [] := by
  induction bs generalizing index with
  | nil => rfl
  | cons b bs ih =>
    rw [numbered_cons, names, List.flatMap_cons, h index b]
    exact ih (index + 1)

end ScenePart

/-- The parts of a description in the order in which they are checked. -/
def Description.parts (d : Description) : List ScenePart :=
  .camera d.camera :: .maxDepth d.maxDepth ::
    (ScenePart.numbered .material 0 d.materials ++ (ScenePart.numbered .light 0 d.lights ++
      .ambientLight d.ambientLight :: ScenePart.numbered .object 0 d.objects))

/-! ### Parts in the scene -/

/-- The material is the one described, with the first three components of its color. -/
structure MaterialDescription.Describes (d : MaterialDescription) (material : Material) : Prop where
  color : d.color.take 3 = [material.color.x, material.color.y, material.color.z]
  ambient : material.ambient = d.ambient
  diffuse : material.diffuse = d.diffuse
  specular : material.specular = d.specular
  specularPower : material.specularPower = d.specularPower
  reflectiveIndex : material.reflectiveIndex = d.reflectiveIndex

/-- The light is the one described. -/
structure LightDescription.Describes (d : LightDescription) (light : Light) : Prop where
  position : light.position = d.origin
  color : d.color.take 3 = [light.color.x, light.color.y, light.color.z]
  intensity : light.intensity = d.intensity

/-- The ambient light is the one described, and black if none is. -/
def AmbientDescription.Describes (d : Option AmbientDescription) (light : AmbientLight) : Prop :=
  match d with
  | none => light = {}
  | some d => d.color.take 3 = [light.color.x, light.color.y, light.color.z] ∧
    light.intensity = d.intensity

/-- The primitive is the object described, among materials of the names declared. -/
structure ObjectDescribes (declared : List String) (j : Json) (p : Primitive Float32) : Prop where
  kind : (j.get? "type").bind Json.text? = some p.shape.kind
  shape : ∃ kind object, ObjectKind.ofType? p.shape.kind = some kind ∧
    ObjectDescription.ofJson? kind j = some object ∧ p.shape = object.shape
  material : ∃ name i, (j.get? "material").bind Json.text? = some name ∧
    p.material = ⟨.ofNat i⟩ ∧ ∀ k, declared[k]? = some name ↔ k = i

/-- The scene keeps every part of the description in its place.  Numbers of materials are words,
which wrap around. -/
structure Description.KeptIn (d : Description) (scene : Scene) : Prop where
  camera : scene.camera = ⟨d.camera.origin, d.camera.lookAt⟩
  maxDepth : scene.maxDepth = d.maxDepth.getD Scene.defaultMaxDepth
  materials : List.Forall₂ (fun m entry => entry.1 = m.name ∧ m.Describes entry.2) d.materials
    scene.materials.entries
  numbers : ∀ i m, d.materials[i]? = some m → scene.materials.id? m.name = some ⟨.ofNat i⟩
  lights : List.Forall₂ LightDescription.Describes d.lights scene.lights
  ambientLight : AmbientDescription.Describes d.ambientLight scene.ambient
  objects : List.Forall₂ (ObjectDescribes (d.materials.map (·.name))) d.objects scene.primitives

/-! ### The builders -/

theorem CameraDescription.toCamera_checked (d : CameraDescription) :
    Checked ((ScenePart.camera d).checks []) (· = ⟨d.origin, d.lookAt⟩) d.toCamera := .ite_not

theorem depthOf_checked (depth : Option UInt32) (declared : List String) :
    Checked ((ScenePart.maxDepth depth).checks declared) (· = depth.getD Scene.defaultMaxDepth)
      (depthOf depth) := by
  cases depth with
  | none => exact ⟨rfl, rfl⟩
  | some d =>
    by_cases hd : d = 0 <;> simp [depthOf, hd, Checked, ScenePart.checks, Check.firstError?]

theorem LightDescription.toLight_checked (index : Nat) (d : LightDescription)
    (declared : List String) :
    Checked ((ScenePart.light index d).checks declared) d.Describes (d.toLight index) := by
  refine .bind (colorOf_checked d.color) ?_
  intro color hcolor
  refine .bind (nonNegative_checked d.intensity) ?_
  rintro _ hintensity
  exact .ok ⟨rfl, hcolor, hintensity⟩

theorem ambientOf_checked (d : Option AmbientDescription) (declared : List String) :
    Checked ((ScenePart.ambientLight d).checks declared) (AmbientDescription.Describes d)
      (ambientOf d) := by
  cases d with
  | none => exact .ok rfl
  | some d =>
    refine .bind (colorOf_checked d.color) ?_
    intro color hcolor
    refine .bind (nonNegative_checked d.intensity) ?_
    rintro _ hintensity
    exact .ok ⟨hcolor, hintensity⟩

theorem MaterialDescription.toMaterial_checked (index : Nat) (d : MaterialDescription) :
    Checked [.color (.material index) "color" d.color,
        .nonNegative (.material index) "specular_power" d.specularPower]
      d.Describes (d.toMaterial index) := by
  refine .bind (colorOf_checked d.color) ?_
  intro color hcolor
  refine .bind (nonNegative_checked d.specularPower) ?_
  rintro _ hpower
  exact .ok ⟨hcolor, rfl, rfl, rfl, hpower, rfl⟩

/-- The table that one more material leads to. -/
theorem addMaterial_checked (table : MaterialTable) (index : Nat) (d : MaterialDescription) :
    Checked ((ScenePart.material index d).checks table.names)
      (fun table' => ∃ material, d.Describes material ∧
        table'.entries = table.entries ++ [(d.name, material)])
      (addMaterial table index d) := by
  have hchecks : (ScenePart.material index d).checks table.names =
      [.color (.material index) "color" d.color,
        .nonNegative (.material index) "specular_power" d.specularPower] ++
      [⟨d.name ∉ table.names, .duplicateMaterial (.material index) d.name⟩] := rfl
  rw [hchecks]
  refine .bind (d.toMaterial_checked index) ?_
  intro material hmaterial
  have hany : table.entries.any (·.1 == d.name) = true ↔ d.name ∈ table.names := by
    simp [MaterialTable.names]
  by_cases hmem : d.name ∈ table.names
  · simp [MaterialTable.insert?, hany.2 hmem, Checked, Check.firstError?, hmem]
  · have hfresh : ¬table.entries.any (·.1 == d.name) = true := fun h => hmem (hany.1 h)
    simp only [MaterialTable.insert?, if_neg hfresh]
    exact ⟨by simp [Check.firstError?, hmem], material, hmaterial, rfl⟩

/-- **All materials.** -/
theorem addMaterials_checked (table : MaterialTable) (index : Nat)
    (ds : List MaterialDescription) :
    Checked (ScenePart.checksFrom table.names (ScenePart.numbered .material index ds))
      (fun table' => ∃ entries, table'.entries = table.entries ++ entries ∧
        List.Forall₂ (fun d entry => entry.1 = d.name ∧ d.Describes entry.2) ds entries)
      (addMaterials table index ds) := by
  induction ds generalizing table index with
  | nil => exact .ok ⟨[], by simp, .nil⟩
  | cons d ds ih =>
    refine .bind (addMaterial_checked table index d) ?_
    rintro next ⟨material, hmaterial, hnext⟩
    have hnames : next.names = table.names ++ [d.name] := by
      rw [MaterialTable.names, hnext, List.map_append]
      rfl
    refine (hnames ▸ ih next (index + 1)).mono ?_
    rintro table' ⟨entries, hentries, hall⟩
    refine ⟨(d.name, material) :: entries, ?_, .cons ⟨rfl, hmaterial⟩ hall⟩
    rw [hentries, hnext, List.append_assoc]
    rfl

/-- **All members of a list that declare no materials.** -/
theorem buildFrom_checked {β γ : Type} (part : Nat → β → ScenePart)
    {build : Nat → β → Except SceneError γ} {declared : List String} {R : β → γ → Prop}
    (hdeclares : ∀ index b, (part index b).declares = [])
    (hbuild : ∀ index b, Checked ((part index b).checks declared) (R b) (build index b))
    (index : Nat) (bs : List β) :
    Checked (ScenePart.checksFrom declared (ScenePart.numbered part index bs)) (List.Forall₂ R bs)
      (buildFrom build index bs) := by
  induction bs generalizing index with
  | nil => exact .ok .nil
  | cons b bs ih =>
    rw [ScenePart.numbered_cons, ScenePart.checksFrom, hdeclares, List.append_nil,
      ← List.append_nil (ScenePart.checksFrom _ _)]
    refine .bind (hbuild index b) ?_
    intro c hc
    refine .bind (ih (index + 1)) ?_
    intro cs hcs
    exact .ok (.cons hc hcs)

/-- One object, among materials of different names. -/
theorem primitiveOf_checked {table : MaterialTable} (distinct : table.names.Nodup) (index : Nat)
    (j : Json) :
    Checked ((ScenePart.object index j).checks table.names) (ObjectDescribes table.names j)
      (primitiveOf table index j) := by
  simp only [ScenePart.checks, primitiveOf]
  cases htype : (j.get? "type").bind Json.text? with
  | none => exact .fail
  | some type =>
    simp only
    cases hkind : ObjectKind.ofType? type with
    | none => exact .fail
    | some kind =>
      simp only
      cases hobject : ObjectDescription.ofJson? kind j with
      | none => exact .fail
      | some object =>
        obtain ⟨hshape, hname⟩ := ObjectDescription.of_ofJson? hkind hobject
        refine object.toPrimitive_checked.mono ?_
        rintro p ⟨hp, hid⟩
        have hpkind : p.shape.kind = type := by rw [hp, hshape]
        refine ⟨by rw [htype, hpkind], ⟨kind, object, by rw [hpkind, hkind], hobject, hp⟩, ?_⟩
        have hmem : object.material ∈ table.names :=
          MaterialTable.id?_isSome_iff.1 (Option.isSome_of_eq_some hid)
        obtain ⟨i, hi⟩ := List.getElem?_of_mem hmem
        refine ⟨object.material, i, hname, ?_, ?_⟩
        · exact Option.some.inj (hid.symm.trans (MaterialTable.id?_eq_some distinct hi))
        · intro k
          refine ⟨fun hk => ?_, fun hk => hk ▸ hi⟩
          obtain ⟨hlt, -⟩ := List.getElem?_eq_some_iff.1 hk
          exact (List.getElem?_inj hlt distinct).1 (hk.trans hi.symm)

/-- **The whole description.** -/
theorem Description.toScene_checked (d : Description) (name : String) :
    Checked (ScenePart.checksFrom [] d.parts) (fun scene => scene.name = name ∧ d.KeptIn scene)
      (d.toScene name) := by
  have hparts : ScenePart.checksFrom [] d.parts =
      (ScenePart.camera d.camera).checks [] ++ ((ScenePart.maxDepth d.maxDepth).checks [] ++
        (ScenePart.checksFrom [] (ScenePart.numbered .material 0 d.materials) ++
          (ScenePart.checksFrom (d.materials.map (·.name)) (ScenePart.numbered .light 0 d.lights) ++
            ((ScenePart.ambientLight d.ambientLight).checks (d.materials.map (·.name)) ++
              (ScenePart.checksFrom (d.materials.map (·.name))
                (ScenePart.numbered .object 0 d.objects) ++ []))))) := by
    simp only [Description.parts, ScenePart.checksFrom, ScenePart.checksFrom_append,
      ScenePart.declares, ScenePart.names_numbered_material,
      ScenePart.names_numbered_of_declares ScenePart.light fun _ _ => rfl, List.nil_append,
      List.append_nil]
  rw [hparts]
  refine .bind d.camera.toCamera_checked ?_
  rintro camera hcamera
  refine .bind (depthOf_checked d.maxDepth []) ?_
  rintro maxDepth hmaxDepth
  refine .bind (addMaterials_checked {} 0 d.materials).eq_ok ?_
  rintro materials ⟨⟨entries, hentries, hmaterials⟩, hadded⟩
  obtain rfl : materials.entries = entries := hentries
  have hnames : materials.names = d.materials.map (·.name) := by
    have hsame : List.Forall₂ (· = ·) (d.materials.map (·.name)) (materials.entries.map (·.1)) := by
      rw [List.forall₂_map_left_iff, List.forall₂_map_right_iff]
      exact hmaterials.imp fun _ _ h => h.1.symm
    exact (List.forall₂_eq_eq_eq ▸ hsame).symm
  have distinct : materials.names.Nodup := (addMaterials_eq_ok hadded .empty).names
  rw [← hnames]
  refine .bind (buildFrom_checked ScenePart.light (fun _ _ => rfl)
    (fun index light => light.toLight_checked index _) 0 d.lights) ?_
  rintro lights hlights
  refine .bind (ambientOf_checked d.ambientLight _) ?_
  rintro ambient hambient
  refine .bind (buildFrom_checked ScenePart.object (fun _ _ => rfl)
    (primitiveOf_checked distinct) 0 d.objects) ?_
  rintro primitives hprimitives
  refine .ok ⟨rfl, hcamera, hmaxDepth, hmaterials, ?_, hlights, hambient, hnames ▸ hprimitives⟩
  intro i m hm
  refine MaterialTable.id?_eq_some distinct ?_
  rw [hnames, List.getElem?_map, hm]
  rfl

/-! ### The first fault -/

namespace ScenePart

/-- The error of a part whose predecessors pass all their checks. -/
structure FirstFault (before : List ScenePart) (part : ScenePart) (e : SceneError) : Prop where
  passed : ∀ check ∈ checksFrom [] before, check.passed = true
  fault : Check.firstError? (part.checks (names before)) = some e

/-- The first check that is not passed belongs to the first part that has such a check. -/
theorem firstError?_checksFrom {parts : List ScenePart} {declared : List String} {e : SceneError} :
    Check.firstError? (checksFrom declared parts) = some e ↔
      ∃ before part, before ++ [part] <+: parts ∧
        Check.firstError? (checksFrom declared before) = none ∧
        Check.firstError? (part.checks (declared ++ names before)) = some e := by
  constructor
  · intro h
    induction parts generalizing declared with
    | nil => cases h
    | cons part parts ih =>
      rw [checksFrom, Check.firstError?_append] at h
      cases hpart : Check.firstError? (part.checks declared) with
      | some e' =>
        rw [hpart, Option.some_or] at h
        refine ⟨[], part, List.cons_prefix_cons.2 ⟨rfl, List.nil_prefix⟩, rfl, ?_⟩
        rw [names, List.flatMap_nil, List.append_nil, hpart, h]
      | none =>
        rw [hpart, Option.none_or] at h
        obtain ⟨before, found, hprefix, hbefore, hfound⟩ := ih h
        refine ⟨part :: before, found, List.cons_prefix_cons.2 ⟨rfl, hprefix⟩, ?_, ?_⟩
        · rw [checksFrom, Check.firstError?_append, hpart, Option.none_or, hbefore]
        · rwa [names, List.flatMap_cons, ← List.append_assoc]
  · rintro ⟨before, part, ⟨rest, rfl⟩, hbefore, hpart⟩
    rw [List.append_assoc, checksFrom_append, Check.firstError?_append, hbefore, Option.none_or,
      List.singleton_append, checksFrom, Check.firstError?_append, hpart, Option.some_or]

theorem firstError?_eq_some_iff {parts : List ScenePart} {e : SceneError} :
    Check.firstError? (checksFrom [] parts) = some e ↔
      ∃ before part, before ++ [part] <+: parts ∧ FirstFault before part e := by
  rw [firstError?_checksFrom]
  constructor
  · rintro ⟨before, part, hprefix, hbefore, hpart⟩
    exact ⟨before, part, hprefix, Check.firstError?_eq_none_iff.1 hbefore, hpart⟩
  · rintro ⟨before, part, hprefix, hfault⟩
    exact ⟨before, part, hprefix, Check.firstError?_eq_none_iff.2 hfault.passed, hfault.fault⟩

end ScenePart

/-- The part of a description that an error refers to. -/
def SceneError.entity? : SceneError → Option Entity
  | unreadable | malformed => none
  | missingType entity | unknownType entity _ | invalidObject entity | duplicateMaterial entity _
  | unknownMaterial entity _ | missingField entity _ | invalidField entity _ _ => some entity

theorem ObjectDescription.entity?_of_mem_checks {object : ObjectDescription} {entity : Entity}
    {declared : List String} {check : Check} (h : check ∈ object.checks entity declared) :
    check.error.entity? = some entity := by
  cases object with
  | sphere | cone | cylinder =>
    simp only [checks, List.mem_cons, List.not_mem_nil, or_false] at h
    rcases h with rfl | rfl | rfl | rfl | rfl <;> rfl
  | plane point normal checkerboard size m =>
    rcases List.mem_append.1 h with h | h
    · cases checkerboard with
      | false => cases h
      | true => exact (List.mem_singleton.1 h) ▸ rfl
    · simp only [List.mem_cons, List.not_mem_nil, or_false] at h
      rcases h with rfl | rfl | rfl <;> rfl

/-- The errors of a part refer to the part. -/
theorem ScenePart.entity?_of_mem_checks {part : ScenePart} {declared : List String} {check : Check}
    (h : check ∈ part.checks declared) : check.error.entity? = some part.entity := by
  cases part with
  | camera | maxDepth | material | light =>
    simp only [checks, List.mem_cons, List.not_mem_nil, or_false] at h
    rcases h with rfl | rfl | rfl <;> rfl
  | ambientLight d =>
    cases d with
    | none => cases h
    | some d =>
      simp only [checks, List.mem_cons, List.not_mem_nil, or_false] at h
      rcases h with rfl | rfl <;> rfl
  | object index j =>
    simp only [checks] at h
    cases htype : (j.get? "type").bind Json.text? with
    | none =>
      simp only [htype, List.mem_singleton] at h
      simp only [h, entity, htype, SceneError.entity?]
    | some type =>
      simp only [entity, htype]
      cases hkind : ObjectKind.ofType? type with
      | none =>
        simp only [htype, hkind, List.mem_singleton] at h
        simp only [h, SceneError.entity?]
      | some kind =>
        cases hobject : ObjectDescription.ofJson? kind j with
        | none =>
          simp only [htype, hkind, hobject, List.mem_singleton] at h
          simp only [h, SceneError.entity?]
        | some object =>
          simp only [htype, hkind, hobject] at h
          exact ObjectDescription.entity?_of_mem_checks h

namespace Scene

theorem ofText_checked {text : String} {d : Description}
    (described : Description.ofText? text = some d) (name : String) :
    Checked (ScenePart.checksFrom [] d.parts) (fun scene => scene.name = name ∧ d.KeptIn scene)
      (ofText name text) := by
  rw [ofText, described]
  exact d.toScene_checked name

/-- **The first fault is reported, and without a fault every part is kept.**  A text that holds a
description is rejected exactly when a check of one of its parts is not passed.  The error is that
of the first part at fault, which it refers to, and it is the same for every text whose description
has the same parts up to that one.  Where all checks are passed, the scene has every part in its
place. -/
theorem ofText_firstFault {text : String} {d : Description}
    (described : Description.ofText? text = some d) (name : String) :
    ((∃ e, ofText name text = .error e) ↔
      ∃ check ∈ ScenePart.checksFrom [] d.parts, check.passed = false) ∧
    (∀ e, ofText name text = .error e ↔
      ∃ before part, before ++ [part] <+: d.parts ∧ ScenePart.FirstFault before part e) ∧
    (∀ before part e, before ++ [part] <+: d.parts → ScenePart.FirstFault before part e →
      e.entity? = some part.entity ∧
      ∀ name' text' d', Description.ofText? text' = some d' → before ++ [part] <+: d'.parts →
        ofText name' text' = .error e) ∧
    ((∀ check ∈ ScenePart.checksFrom [] d.parts, check.passed = true) →
      ∃ scene, ofText name text = .ok scene ∧ scene.name = name ∧ d.KeptIn scene) := by
  have checked := ofText_checked described name
  refine ⟨?_, ?_, ?_, checked.exists_ok⟩
  · have hsome : (∃ e, Check.firstError? (ScenePart.checksFrom [] d.parts) = some e) ↔
        ∃ check ∈ ScenePart.checksFrom [] d.parts, check.passed = false := by
      rw [← Option.isSome_iff_exists, ← Option.not_isNone, Bool.not_eq_true',
        ← Bool.not_eq_true, Option.isNone_iff_eq_none, Check.firstError?_eq_none_iff]
      simp
    rw [← hsome]
    exact exists_congr fun e => checked.eq_error_iff
  · intro e
    rw [checked.eq_error_iff, ScenePart.firstError?_eq_some_iff]
  · intro before part e hprefix hfault
    refine ⟨?_, ?_⟩
    · obtain ⟨check, hcheck, rfl⟩ := Option.map_eq_some_iff.1 hfault.fault
      exact ScenePart.entity?_of_mem_checks (List.mem_of_find?_eq_some hcheck)
    · intro name' text' d' described' hprefix'
      rw [(ofText_checked described' name').eq_error_iff, ScenePart.firstError?_eq_some_iff]
      exact ⟨before, part, hprefix', hfault⟩

/-- A description with two materials of one name, a light of negative intensity and an object
without a type. -/
def manyFaultsText : String :=
  "\x7b\"camera\":[[0,1,5],[0,0,0]],\"materials\":[[\"m\",[1,1,1]],[\"m\",[1,1,1]]]," ++
    "\"lights\":[[[0,9,0],[1,1,1],-1]],\"objects\":[\x7b\x7d]\x7d"

theorem ofText_manyFaultsText :
    ∃ d, Description.ofText? manyFaultsText = some d ∧
      ofText "" manyFaultsText = .error (.duplicateMaterial (.material 1) "m") ∧
      ∃ before part, before ++ [part] <+: d.parts ∧ part.entity = .material 1 ∧
        ∀ text' d', Description.ofText? text' = some d' → before ++ [part] <+: d'.parts →
          ofText "" text' = .error (.duplicateMaterial (.material 1) "m") := by
  have check : (match ofText "" manyFaultsText with
      | .error (.duplicateMaterial (.material 1) "m") => true
      | _ => false) = true := by
    decide +kernel
  have rejected : ofText "" manyFaultsText = .error (.duplicateMaterial (.material 1) "m") := by
    split at check
    · assumption
    · cases check
  cases described : Description.ofText? manyFaultsText with
  | none =>
    rw [ofText, described] at rejected
    cases rejected
  | some d =>
    obtain ⟨-, first, same, -⟩ := ofText_firstFault described ""
    obtain ⟨before, part, hprefix, hfault⟩ := (first _).1 rejected
    obtain ⟨hentity, hsame⟩ := same before part _ hprefix hfault
    exact ⟨d, rfl, rejected, before, part, hprefix, (Option.some.inj hentity).symm, hsame ""⟩

end Scene

end RayTracer
