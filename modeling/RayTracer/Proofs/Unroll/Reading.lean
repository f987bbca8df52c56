import RayTracer.Proofs.Outcome
import RayTracer.Unroll.Source

/-!
# What the reader of marked sources does

`Scan.Reads n text s s'` lists the ways in which the reader may take line `n` of a source, one
constructor for each, with everything that it checks on the way.  `Scan.step` succeeds in exactly
these ways (`Scan.step_eq_ok_iff`), so whatever holds initially and is kept by `Scan.Reads` holds
after every text that is read to its end (`Scan.run_invariant`, and `Scan.run_invariant_lines` for
what is said of the lines read so far as well).

From this the guarantees of an accepted source follow (`MarkedSource.wellFormed_of_parse`): marked
names are distinct, the callees of marked calls are marked, and outside depth blocks there are no
recursive calls.
-/

namespace RayTracer

namespace Scan

/-- The reader takes line `n` and goes from `s` to `s'`. -/
inductive Reads (n : Nat) (text : Line) : Scan → Scan → Prop
  /-- A line outside all marked functions. -/
  | regular {s : Scan} (mode : s.mode = .outside) (ordinary : LineKind.of text = .ordinary) :
      Reads n text s { s with regular := s.regular ++ [text] }
  /-- The directive before a declaration. -/
  | functionMarker {s : Scan} {name : Line} (mode : s.mode = .outside)
      (kind : LineKind.of text = .directive .function name)
      (fresh : ∀ f ∈ s.functions, f.name ≠ name) :
      Reads n text s { s with mode := .declaration name n }
  /-- The declaration of a marked function. -/
  | declaration {s : Scan} {name : Line} {marker : Nat} (mode : s.mode = .declaration name marker)
      (declares : Line.has ("fn ".toList ++ callPattern name) text = true) :
      Reads n text s { s with mode := .inside ⟨name, text, [], none⟩ }
  /-- An unmarked line of a marked function. -/
  | plain {s : Scan} {f : OpenFunction} (mode : s.mode = .inside f)
      (ordinary : LineKind.of text = .ordinary) :
      Reads n text s
        { s with plain := s.plain ++ [⟨n, f.name, text⟩], mode := .inside (f.push (.text text)) }
  /-- The end of a marked function. -/
  | endFunction {s : Scan} {f : OpenFunction} (mode : s.mode = .inside f)
      (kind : LineKind.of text = .directive .endFunction f.name) (closed : f.block = none) :
      Reads n text s
        { s with functions := s.functions ++ [⟨f.name, f.declaration, f.body⟩], mode := .outside }
  /-- The start of a depth block. -/
  | block {s : Scan} {f : OpenFunction} {name : Line} (mode : s.mode = .inside f)
      (kind : LineKind.of text = .directive .block name) (closed : f.block = none) :
      Reads n text s { s with mode := .inside { f with block := some ⟨name, []⟩ } }
  /-- The end of a depth block. -/
  | endBlock {s : Scan} {f : OpenFunction} {b : DepthBlock} (mode : s.mode = .inside f)
      (kind : LineKind.of text = .directive .endBlock b.name) (opened : f.block = some b) :
      Reads n text s
        { s with mode := .inside { f with body := f.body ++ [.block b], block := none } }
  /-- The directive before a call. -/
  | callMarker {s : Scan} {f : OpenFunction} {call : CallKind} {callee : Line}
      (mode : s.mode = .inside f) (kind : LineKind.of text = .directive call.directive callee) :
      Reads n text s { s with mode := .callSite f call callee n }
  /-- A marked call. -/
  | callSite {s : Scan} {f : OpenFunction} {call : CallKind} {callee : Line} {marker : Nat}
      (mode : s.mode = .callSite f call callee marker) (ordinary : LineKind.of text = .ordinary)
      (calls : hasCall text callee = true) (guarded : call = .recursive → f.block ≠ none) :
      Reads n text s { s with mode := .inside (f.push (.call ⟨call, callee, n, text⟩)) }

theorem directiveOutside_eq_ok {s s' : Scan} {n : Nat} {text : Line} {kind : DirectiveKind}
    {name : Line} (mode : s.mode = .outside) (hk : LineKind.of text = .directive kind name)
    (h : s.directiveOutside n kind name = .ok s') : Reads n text s s' := by
  cases kind with
  | function =>
    simp only [directiveOutside] at h
    split at h
    · cases h
    · rename_i hf
      obtain rfl := Except.ok.inj h
      exact .functionMarker mode hk (by simpa using hf)
  | _ => cases h

theorem directiveInside_eq_ok {s s' : Scan} {f : OpenFunction} {n : Nat} {text : Line}
    {kind : DirectiveKind} {name : Line} (mode : s.mode = .inside f)
    (hk : LineKind.of text = .directive kind name)
    (h : s.directiveInside f n kind name = .ok s') : Reads n text s s' := by
  cases kind with
  | function => cases h
  | endFunction =>
    simp only [directiveInside] at h
    split at h
    · cases h
    · rename_i hname
      obtain rfl := Classical.not_not.1 hname
      cases hb : f.block with
      | some b => simp [hb] at h
      | none =>
        simp only [hb, Except.ok.injEq] at h
        exact h ▸ .endFunction mode hk hb
  | block =>
    cases hb : f.block with
    | some b => simp [directiveInside, hb] at h
    | none =>
      simp only [directiveInside, hb, Except.ok.injEq] at h
      exact h ▸ .block mode hk hb
  | endBlock =>
    cases hb : f.block with
    | none => simp [directiveInside, hb] at h
    | some b =>
      simp only [directiveInside, hb] at h
      split at h
      · cases h
      · rename_i hname
        obtain rfl := Classical.not_not.1 hname
        exact Except.ok.inj h ▸ .endBlock mode hk hb
  | call =>
    obtain rfl := Except.ok.inj h
    exact .callMarker mode hk
  | recursiveCall =>
    obtain rfl := Except.ok.inj h
    exact .callMarker mode hk

theorem reads_of_step {s s' : Scan} {n : Nat} {text : Line} (h : s.step text n = .ok s') :
    Reads n text s s' := by
  unfold step at h
  split at h
  · rename_i name marker mode
    split at h
    · exact Except.ok.inj h ▸ .declaration mode ‹_›
    · cases h
  · rename_i f call callee marker mode
    split at h
    · rename_i hc
      split at h
      · cases h
      · rename_i hg
        exact Except.ok.inj h ▸ .callSite mode hc.1 hc.2 (by simpa using hg)
    · cases h
  · rename_i mode
    split at h
    · cases h
    · cases h
    · exact Except.ok.inj h ▸ .regular mode ‹_›
    · exact directiveOutside_eq_ok mode ‹_› h
  · rename_i f mode
    split at h
    · cases h
    · cases h
    · exact Except.ok.inj h ▸ .plain mode ‹_›
    · exact directiveInside_eq_ok mode ‹_› h

theorem step_of_reads {s s' : Scan} {n : Nat} {text : Line} (h : Reads n text s s') :
    s.step text n = .ok s' := by
  cases h with
  | regular mode ordinary => simp only [step, mode, ordinary]
  | functionMarker mode kind fresh =>
    simp only [step, mode, kind, directiveOutside]
    exact if_neg (by simpa using fresh)
  | declaration mode declares => simp only [step, mode, declares, if_true]
  | plain mode ordinary => simp only [step, mode, ordinary]
  | endFunction mode kind closed =>
    simp only [step, mode, kind, directiveInside, closed, ne_eq, not_true, if_false]
  | block mode kind closed => simp only [step, mode, kind, directiveInside, closed]
  | endBlock mode kind opened =>
    simp only [step, mode, kind, directiveInside, opened, ne_eq, not_true, if_false]
  | @callMarker _ call _ mode kind =>
    cases call <;> simp only [CallKind.directive] at kind <;>
      simp only [step, mode, kind, directiveInside]
  | callSite mode ordinary calls guarded =>
    simp only [step, mode, ordinary, calls, and_self, if_true]
    exact if_neg fun ⟨hk, hb⟩ => guarded hk hb

/-- **The reader takes a line in exactly the ways listed in `Reads`.** -/
theorem step_eq_ok_iff {s s' : Scan} {n : Nat} {text : Line} :
    s.step text n = .ok s' ↔ Reads n text s s' :=
  ⟨reads_of_step, step_of_reads⟩

theorem run_cons_eq_ok {s t : Scan} {n : Nat} {text : Line} {rest : List Line} :
    s.run n (text :: rest) = .ok t ↔ ∃ s', Reads n text s s' ∧ s'.run (n + 1) rest = .ok t := by
  simp only [run, bind_eq_ok, step_eq_ok_iff]

/-- What holds initially and is kept by every line holds of the whole reading. -/
theorem run_invariant {I : Scan → Prop}
    (hstep : ∀ n text s s', Reads n text s s' → I s → I s') {s t : Scan} {n : Nat}
    {lines : List Line} (h : s.run n lines = .ok t) (hs : I s) : I t := by
  induction lines generalizing s n with
  | nil => exact Except.ok.inj h ▸ hs
  | cons text rest ih =>
    obtain ⟨s', hr, ht⟩ := run_cons_eq_ok.1 h
    exact ih ht (hstep n text s s' hr hs)

theorem run_append_eq_ok {s t : Scan} {n : Nat} {before after : List Line} :
    s.run n (before ++ after) = .ok t ↔
      ∃ s', s.run n before = .ok s' ∧ s'.run (n + before.length) after = .ok t := by
  induction before generalizing s n with
  | nil => simp [run]
  | cons text rest ih =>
    simp only [List.cons_append, run_cons_eq_ok, ih, List.length_cons, Nat.add_right_comm n 1,
      ← Nat.add_assoc]
    constructor
    · rintro ⟨s₁, hread, s₂, hrest, hafter⟩
      exact ⟨s₂, ⟨s₁, hread, hrest⟩, hafter⟩
    · rintro ⟨s₂, ⟨s₁, hread, hrest⟩, hafter⟩
      exact ⟨s₁, hread, s₂, hrest, hafter⟩

/-- The same for what is said of the lines read so far and what has been read in them. -/
theorem run_invariant_lines {I : List Line → Scan → Prop}
    (hstep : ∀ read text s s', Reads (read.length + 1) text s s' → I read s → I (read ++ [text]) s')
    {s t : Scan} {read lines : List Line} (h : s.run (read.length + 1) lines = .ok t)
    (hs : I read s) : I (read ++ lines) t := by
  induction lines generalizing s read with
  | nil =>
    obtain rfl := Except.ok.inj h
    simpa using hs
  | cons text rest ih =>
    obtain ⟨s', hread, ht⟩ := run_cons_eq_ok.1 h
    have hnext : I ((read ++ [text]) ++ rest) t :=
      ih (by simpa using ht) (hstep read text s s' hread hs)
    rwa [List.append_assoc] at hnext

theorem finish_eq_ok {s : Scan} {source : MarkedSource} (h : s.finish = .ok source) :
    s.mode = .outside ∧ unknownCallee? s.functions = none ∧
      unmarkedCall? s.functions s.plain = none ∧ source = ⟨s.regular, s.functions⟩ := by
  unfold finish at h
  split at h
  · cases h
  · cases h
  · cases h
  · rename_i mode
    split at h
    · cases h
    · rename_i hk
      split at h
      · cases h
      · exact ⟨mode, hk, ‹_›, (Except.ok.inj h).symm⟩

end Scan

theorem MarkedSource.parse_eq_ok {text : List Char} {source : MarkedSource}
    (h : parse text = .ok source) :
    ∃ s, Scan.run {} 1 (Text.lines text) = .ok s ∧ s.finish = .ok source := by
  rw [parse] at h
  exact bind_eq_ok.1 h

/-! ### Guarantees of an accepted source -/

/-- The function whose end has not been read. -/
def Mode.openFunction? : Mode → Option OpenFunction
  | outside | declaration _ _ => none
  | inside f | callSite f _ _ _ => some f

/-- The name of the function that the next line belongs to. -/
def Mode.name? : Mode → Option Line
  | outside => none
  | declaration name _ => some name
  | inside f | callSite f _ _ _ => some f.name

/-- All marked calls outside blocks are forward calls. -/
def IsGuarded (body : List BodyPart) : Prop :=
  ∀ site, .statement (.call site) ∈ body → site.kind = .forward

theorem IsGuarded.append {body : List BodyPart} {part : BodyPart} (h : IsGuarded body)
    (hp : ∀ site, part = .statement (.call site) → site.kind = .forward) :
    IsGuarded (body ++ [part]) := by
  intro site hs
  rcases List.mem_append.1 hs with hs | hs
  · exact h site hs
  · exact hp site (List.mem_singleton.1 hs).symm

theorem OpenFunction.name_push (f : OpenFunction) (s : Statement) : (f.push s).name = f.name := by
  unfold push; split <;> rfl

theorem OpenFunction.isGuarded_push {f : OpenFunction} {s : Statement} (h : IsGuarded f.body)
    (hs : f.block = none → ∀ site, s = .call site → site.kind = .forward) :
    IsGuarded (f.push s).body := by
  unfold push
  split
  · exact h
  · rename_i hb
    exact h.append fun site he => hs hb site (BodyPart.statement.inj he)

/-- What the reader keeps to while it reads. -/
structure Scan.Sound (s : Scan) : Prop where
  nodup : (s.functions.map MarkedFunction.name).Nodup
  fresh : ∀ name, s.mode.name? = some name → name ∉ s.functions.map MarkedFunction.name
  guarded : ∀ f ∈ s.functions, IsGuarded f.body
  openGuarded : ∀ f, s.mode.openFunction? = some f → IsGuarded f.body

theorem Scan.Sound.step {n : Nat} {text : Line} {s s' : Scan} (h : Reads n text s s')
    (hs : s.Sound) : s'.Sound := by
  obtain ⟨nodup, fresh, guarded, openGuarded⟩ := hs
  cases h with
  | regular mode _ => exact ⟨nodup, fresh, guarded, openGuarded⟩
  | functionMarker mode _ hf =>
    refine ⟨nodup, fun name hn => ?_, guarded, fun f hf => (by cases hf)⟩
    obtain rfl := Option.some.inj hn
    simpa using hf
  | declaration mode _ =>
    refine ⟨nodup, fun name hn => fresh name (by rw [mode]; exact hn), guarded, fun f hf => ?_⟩
    obtain rfl := Option.some.inj hf
    exact fun site hs => absurd hs List.not_mem_nil
  | plain mode _ =>
    rw [mode] at fresh openGuarded
    refine ⟨nodup, fun name hn => fresh name ?_, guarded, fun f hf => ?_⟩
    · rwa [Mode.name?, OpenFunction.name_push] at hn
    · obtain rfl := Option.some.inj hf
      exact OpenFunction.isGuarded_push (openGuarded _ rfl) (fun _ _ hs => by cases hs)
  | @endFunction g mode _ _ =>
    rw [mode] at fresh openGuarded
    refine ⟨?_, fun name hn => (by cases hn), fun f hf => ?_, fun f hf => (by cases hf)⟩
    · -- the function that ends is named like none before it
      rw [List.map_append, List.nodup_append]
      refine ⟨nodup, by simp, fun a ha b hb => ?_⟩
      obtain rfl := List.mem_singleton.1 hb
      rintro rfl
      exact fresh g.name rfl ha
    · rcases List.mem_append.1 hf with hf | hf
      · exact guarded f hf
      · obtain rfl := List.mem_singleton.1 hf
        exact openGuarded g rfl
  | @block g _ mode _ _ =>
    rw [mode] at fresh openGuarded
    refine ⟨nodup, fresh, guarded, fun f hf => ?_⟩
    obtain rfl := Option.some.inj hf
    exact openGuarded g rfl
  | endBlock mode _ _ =>
    rw [mode] at fresh openGuarded
    refine ⟨nodup, fresh, guarded, fun f hf => ?_⟩
    obtain rfl := Option.some.inj hf
    exact (openGuarded _ rfl).append fun _ he => by cases he
  | callMarker mode _ =>
    rw [mode] at fresh openGuarded
    exact ⟨nodup, fresh, guarded, openGuarded⟩
  | @callSite g call _ _ mode _ _ guard =>
    rw [mode] at fresh openGuarded
    refine ⟨nodup, fun name hn => fresh name ?_, guarded, fun f hf => ?_⟩
    · rwa [Mode.name?, OpenFunction.name_push] at hn
    · obtain rfl := Option.some.inj hf
      -- outside a block only a forward call is read
      refine OpenFunction.isGuarded_push (openGuarded _ rfl) fun hb site hs => ?_
      obtain rfl := Statement.call.inj hs
      cases call with
      | forward => rfl
      | recursive => exact absurd hb (guard rfl)

/-- What can be relied on in a source that was accepted. -/
structure MarkedSource.WellFormed (source : MarkedSource) : Prop where
  nodup : (source.functions.map MarkedFunction.name).Nodup
  calleeMarked : ∀ f ∈ source.functions, ∀ site ∈ f.calls,
    ∃ g ∈ source.functions, g.name = site.callee
  guarded : ∀ f ∈ source.functions, IsGuarded f.body

theorem Scan.calleeMarked_of_unknownCallee? {functions : List MarkedFunction}
    (h : unknownCallee? functions = none) {f : MarkedFunction} (hf : f ∈ functions)
    {site : CallSite} (hs : site ∈ f.calls) : ∃ g ∈ functions, g.name = site.callee := by
  simp only [unknownCallee?, List.find?_eq_none, List.mem_flatMap] at h
  simpa using h site ⟨f, hf, hs⟩

/-- **Accepted sources are well formed.** -/
theorem MarkedSource.wellFormed_of_parse {text : List Char} {source : MarkedSource}
    (h : parse text = .ok source) : source.WellFormed := by
  obtain ⟨s, hrun, hfinish⟩ := parse_eq_ok h
  have sound : s.Sound :=
    Scan.run_invariant (fun _ _ _ _ => Scan.Sound.step) hrun
      ⟨List.nodup_nil, nofun, nofun, nofun⟩
  obtain ⟨-, known, -, rfl⟩ := Scan.finish_eq_ok hfinish
  exact ⟨sound.nodup, fun f hf site hs => Scan.calleeMarked_of_unknownCallee? known hf hs,
    sound.guarded⟩

end RayTracer
