import RayTracer.Proofs.Lists
import RayTracer.Proofs.Text.Line
import RayTracer.Proofs.Unroll.Directive
import RayTracer.Proofs.Unroll.Reading

/-!
# Where marked functions stand

A `Region` of a text is a marked function as it is written: the directive that starts it, the line
of its declaration, the lines of its body and the directive that ends it.  `Transcribes` says which
statements the lines of a body become.

* `LineKind.of_ne_directive_of_declares` : no declaration is a directive, so a directive that starts
  a function is one wherever it stands.
* `Region.exists_function` : **every region is read as a marked function**, line by line.
* `Scan.exists_region` : **every marked function has been read from a region.**

The first is a run of the reader over the lines of a region, the second an invariant of the reader
and the lines that it has read.
-/

namespace RayTracer

/-! ### A declaration is no directive -/

/-- No `f` stands before the body of a directive. -/
theorem IsMarked.exists_start {l body : Line} (h : IsMarked l body) :
    ∃ start, l = start ++ body ∧ 'f' ∉ start := by
  obtain ⟨a, b, ha, hb, rfl⟩ := h
  have hblank {m : Line} (hm : Line.AllBlank m) : 'f' ∉ m :=
    fun hf => absurd (hm 'f' hf) (by decide)
  exact ⟨a ++ ("//".toList ++ (b ++ "rec:".toList)), by simp, by simp [hblank ha, hblank hb]⟩

/-- A list that is cut in two is cut behind a part in which the element does not occur. -/
theorem eq_append_of_append_eq_append_cons {α : Type} {c : α} {start body before after : List α}
    (hc : c ∉ start) (h : start ++ body = before ++ c :: after) :
    ∃ between, body = between ++ c :: after := by
  rcases List.append_eq_append_iff.1 h with ⟨between, -, hbody⟩ | ⟨rest, hstart, hbody⟩
  · exact ⟨between, hbody⟩
  · cases rest with
    | nil => exact ⟨[], by simpa using hbody.symm⟩
    | cons d rest =>
      obtain ⟨rfl, -⟩ := List.cons.inj hbody
      exact absurd (by simp [hstart]) hc

/-- No word for a kind of directive ends like `fn`. -/
theorem DirectiveKind.getLast?_text (kind : DirectiveKind) :
    kind.text.toList.getLast? ≠ some 'n' := by
  cases kind <;> decide

/-- **A declaration is no directive**: the first word would end in `fn`, which is the end of no kind
of directive. -/
theorem LineKind.of_ne_directive_of_declares {name l : Line}
    (declares : Line.has ("fn ".toList ++ callPattern name) l = true) (kind : DirectiveKind)
    (other : Line) : LineKind.of l ≠ .directive kind other := by
  intro hkind
  obtain ⟨body, hmarked, hwords⟩ := (LineKind.of_eq_directive_iff.1 hkind).exists_body
  obtain ⟨start, hl, hstart⟩ := hmarked.exists_start
  obtain ⟨⟨before, after⟩, hcut⟩ := Option.isSome_iff_exists.1 declares
  have hdecl : start ++ body = before ++ 'f' :: ('n' :: ' ' :: (name ++ '(' :: after)) := by
    rw [← hl, Line.eq_of_cut? hcut]
    simp [callPattern]
  -- the directive starts with no `f`, so the whole of `fn` is in its words
  obtain ⟨between, rfl⟩ := eq_append_of_append_eq_append_cons hstart hdecl
  have hbody : between ++ 'f' :: ('n' :: ' ' :: (name ++ '(' :: after)) =
      between ++ ['f'] ++ ['n'] ++ ' ' :: (name ++ '(' :: after) := by simp
  rw [hbody] at hwords
  have hparenthesis : '(' ∈ name ++ '(' :: after := List.mem_append_right name List.mem_cons_self
  exact kind.getLast?_text
    (Line.getLast?_of_words_eq_pair (by decide) (by decide) (by decide) hparenthesis hwords)

/-! ### The lines of a body -/

/-- The lines of a body, the first one being line `first` of the text, stand for these statements.
Directives stand for none. -/
inductive Transcribes (first : Nat) : List Line → List Statement → Prop
  | nil : Transcribes first [] []
  | directive {lines : List Line} {statements : List Statement} {l name : Line}
      {kind : DirectiveKind} (before : Transcribes first lines statements)
      (directive : LineKind.of l = .directive kind name) (inside : kind ≠ .endFunction) :
      Transcribes first (lines ++ [l]) statements
  | text {lines : List Line} {statements : List Statement} {l : Line}
      (before : Transcribes first lines statements) (ordinary : LineKind.of l = .ordinary) :
      Transcribes first (lines ++ [l]) (statements ++ [.text l])
  | call {lines : List Line} {statements : List Statement} {l : Line} (kind : CallKind)
      {callee : Line} (before : Transcribes first lines statements)
      (ordinary : LineKind.of l = .ordinary) (calls : hasCall l callee = true) :
      Transcribes first (lines ++ [l])
        (statements ++ [.call ⟨kind, callee, first + lines.length, l⟩])

namespace Transcribes

variable {first : Nat} {lines : List Line} {statements : List Statement}

/-- No line of a body ends a function. -/
theorem ne_endFunction (h : Transcribes first lines statements) {l : Line} (hl : l ∈ lines)
    (name : Line) : LineKind.of l ≠ .directive .endFunction name := by
  induction h with
  | nil => cases hl
  | directive _ directive inside ih =>
    rcases List.mem_append.1 hl with hl | hl
    · exact ih hl
    · rw [List.mem_singleton.1 hl, directive]
      intro h
      exact inside (LineKind.directive.inj h).1
  | text _ ordinary ih | call _ _ ordinary _ ih =>
    rcases List.mem_append.1 hl with hl | hl
    · exact ih hl
    · rw [List.mem_singleton.1 hl, ordinary]
      exact LineKind.noConfusion

/-- Every line that is no directive stands for a statement. -/
theorem exists_statement (h : Transcribes first lines statements) {i : Nat} {l : Line}
    (hl : lines[i]? = some l) (code : ∀ kind name, LineKind.of l ≠ .directive kind name) :
    .text l ∈ statements ∨
      ∃ kind callee, .call ⟨kind, callee, first + i, l⟩ ∈ statements := by
  induction h with
  | nil => simp at hl
  | directive _ directive _ ih =>
    rcases getElem?_append_cases hl with ⟨-, rfl⟩ | hl
    · exact absurd directive (code _ _)
    · exact ih hl
  | text _ _ ih =>
    rcases getElem?_append_cases hl with ⟨-, rfl⟩ | hl
    · exact .inl (by simp)
    · rcases ih hl with htext | ⟨kind, callee, hcall⟩
      · exact .inl (List.mem_append_left _ htext)
      · exact .inr ⟨kind, callee, List.mem_append_left _ hcall⟩
  | call kind _ _ _ ih =>
    rcases getElem?_append_cases hl with ⟨rfl, rfl⟩ | hl
    · exact .inr ⟨kind, _, List.mem_append_right _ List.mem_cons_self⟩
    · rcases ih hl with htext | ⟨kind, callee, hcall⟩
      · exact .inl (List.mem_append_left _ htext)
      · exact .inr ⟨kind, callee, List.mem_append_left _ hcall⟩

/-- Every call stands on the line that it is numbered by. -/
theorem getElem?_of_call (h : Transcribes first lines statements) {site : CallSite}
    (hs : .call site ∈ statements) :
    ∃ i, site.line = first + i ∧ lines[i]? = some site.text ∧
      LineKind.of site.text = .ordinary := by
  induction h with
  | nil => cases hs
  | directive _ _ _ ih =>
    obtain ⟨i, hi, hline, hord⟩ := ih hs
    exact ⟨i, hi, getElem?_append_of_some hline, hord⟩
  | text _ _ ih =>
    rcases List.mem_append.1 hs with hs | hs
    · obtain ⟨i, hi, hline, hord⟩ := ih hs
      exact ⟨i, hi, getElem?_append_of_some hline, hord⟩
    · cases List.mem_singleton.1 hs
  | @call lines _ _ _ _ _ ordinary _ ih =>
    rcases List.mem_append.1 hs with hs | hs
    · obtain ⟨i, hi, hline, hord⟩ := ih hs
      exact ⟨i, hi, getElem?_append_of_some hline, hord⟩
    · obtain rfl := Statement.call.inj (List.mem_singleton.1 hs)
      exact ⟨lines.length, rfl, by simp, ordinary⟩

theorem line_lt (h : Transcribes first lines statements) {site : CallSite}
    (hs : .call site ∈ statements) : site.line < first + lines.length := by
  obtain ⟨i, hi, hline, -⟩ := h.getElem?_of_call hs
  have hlt : i < lines.length := (List.getElem?_eq_some_iff.1 hline).1
  omega

/-- No two calls stand on one line. -/
theorem call_unique (h : Transcribes first lines statements) {a b : CallSite}
    (ha : .call a ∈ statements) (hb : .call b ∈ statements) (hab : a.line = b.line) : a = b := by
  induction h with
  | nil => cases ha
  | directive _ _ _ ih => exact ih ha hb
  | text _ _ ih =>
    refine ih ?_ ?_
    · simpa using ha
    · simpa using hb
  | call kind before _ _ ih =>
    rcases List.mem_append.1 ha with ha | ha <;> rcases List.mem_append.1 hb with hb | hb
    · exact ih ha hb
    -- the last call stands below all others
    · have hlt := before.line_lt ha
      rw [hab, Statement.call.inj (List.mem_singleton.1 hb)] at hlt
      exact absurd hlt (Nat.lt_irrefl _)
    · have hlt := before.line_lt hb
      rw [← hab, Statement.call.inj (List.mem_singleton.1 ha)] at hlt
      exact absurd hlt (Nat.lt_irrefl _)
    · rw [Statement.call.inj (List.mem_singleton.1 ha),
        Statement.call.inj (List.mem_singleton.1 hb)]

end Transcribes

/-! ### One line of a body -/

namespace OpenFunction

/-- All lines of the body read so far, inside and outside blocks. -/
def statements (f : OpenFunction) : List Statement :=
  f.body.flatMap BodyPart.statements ++ f.block.elim [] DepthBlock.body

theorem statements_push (f : OpenFunction) (s : Statement) :
    (f.push s).statements = f.statements ++ [s] := by
  unfold push
  cases hb : f.block with
  | none => simp [statements, hb, BodyPart.statements]
  | some b => simp [statements, hb]

theorem declaration_push (f : OpenFunction) (s : Statement) :
    (f.push s).declaration = f.declaration := by
  unfold push
  split <;> rfl

/-- The end of a block changes nothing about the lines. -/
theorem statements_close {f : OpenFunction} {b : DepthBlock} (opened : f.block = some b) :
    { f with body := f.body ++ [BodyPart.block b], block := none }.statements =
      f.statements := by
  simp [statements, opened, BodyPart.statements]

/-- Nor does the start of one. -/
theorem statements_open {f : OpenFunction} (name : Line) (closed : f.block = none) :
    { f with block := some ⟨name, []⟩ }.statements = f.statements := by
  simp [statements, closed]

/-- Nor does the end of the function. -/
theorem statements_finish {f : OpenFunction} (closed : f.block = none) :
    MarkedFunction.statements ⟨f.name, f.declaration, f.body⟩ = f.statements := by
  simp [statements, MarkedFunction.statements, closed]

end OpenFunction

/-- **One line of a body.**  If it does not end the function, then the function stays open, and its
statements are those that its lines stand for. -/
theorem Scan.Reads.transcribes {n first : Nat} {text : Line} {s s' : Scan} {f : OpenFunction}
    {lines : List Line} (h : Reads n text s s') (opened : s.mode.openFunction? = some f)
    (inside : LineKind.of text ≠ .directive .endFunction f.name) (hn : n = first + lines.length)
    (before : Transcribes first lines f.statements) :
    ∃ f', s'.mode.openFunction? = some f' ∧ f'.name = f.name ∧ f'.declaration = f.declaration ∧
      Transcribes first (lines ++ [text]) f'.statements := by
  cases h with
  | regular mode _ | functionMarker mode _ _ | declaration mode _ =>
    rw [mode] at opened
    cases opened
  | plain mode ordinary =>
    rw [mode] at opened
    obtain rfl := Option.some.inj opened
    refine ⟨_, rfl, OpenFunction.name_push _ _, OpenFunction.declaration_push _ _, ?_⟩
    rw [OpenFunction.statements_push]
    exact before.text ordinary
  | endFunction mode kind _ =>
    rw [mode] at opened
    obtain rfl := Option.some.inj opened
    exact absurd kind inside
  | block mode kind closed =>
    rw [mode] at opened
    obtain rfl := Option.some.inj opened
    refine ⟨_, rfl, rfl, rfl, ?_⟩
    rw [OpenFunction.statements_open _ closed]
    exact before.directive kind (by decide)
  | endBlock mode kind block =>
    rw [mode] at opened
    obtain rfl := Option.some.inj opened
    refine ⟨_, rfl, rfl, rfl, ?_⟩
    rw [OpenFunction.statements_close block]
    exact before.directive kind (by decide)
  | @callMarker _ call _ mode kind =>
    rw [mode] at opened
    obtain rfl := Option.some.inj opened
    refine ⟨_, rfl, rfl, rfl, before.directive kind ?_⟩
    cases call <;> decide
  | @callSite _ call _ _ mode ordinary calls _ =>
    rw [mode] at opened
    obtain rfl := Option.some.inj opened
    refine ⟨_, rfl, OpenFunction.name_push _ _, OpenFunction.declaration_push _ _, ?_⟩
    rw [OpenFunction.statements_push, hn]
    exact before.call call ordinary calls

/-- **The lines of a body**, read one after the other. -/
theorem Scan.run_transcribes {first : Nat} {s t : Scan} {f : OpenFunction} {lines body : List Line}
    (h : s.run (first + lines.length) body = .ok t) (opened : s.mode.openFunction? = some f)
    (inside : ∀ l ∈ body, LineKind.of l ≠ .directive .endFunction f.name)
    (before : Transcribes first lines f.statements) :
    ∃ f', t.mode.openFunction? = some f' ∧ f'.name = f.name ∧ f'.declaration = f.declaration ∧
      Transcribes first (lines ++ body) f'.statements := by
  induction body generalizing s f lines with
  | nil =>
    obtain rfl := Except.ok.inj h
    exact ⟨f, opened, rfl, rfl, by simpa using before⟩
  | cons text rest ih =>
    obtain ⟨s', hread, ht⟩ := Scan.run_cons_eq_ok.1 h
    obtain ⟨f', opened', hname, hdecl, after⟩ :=
      hread.transcribes opened (inside text List.mem_cons_self) rfl before
    have hrest : ∀ l ∈ rest, LineKind.of l ≠ .directive .endFunction f'.name := by
      intro l hl
      rw [hname]
      exact inside l (List.mem_cons_of_mem text hl)
    -- the numbers go on from the lines that were read before
    rw [Nat.add_assoc, ← List.length_singleton, ← List.length_append] at ht
    obtain ⟨g, hg, hgname, hgdecl, hlines⟩ := ih ht opened' hrest after
    refine ⟨g, hg, hgname.trans hname, hgdecl.trans hdecl, ?_⟩
    rwa [List.append_assoc] at hlines

/-! ### Regions -/

/-- A marked function as it is written in a text. -/
structure Region (lines : List Line) where
  name : Line
  before : List Line
  /-- The directive that starts the function. -/
  marker : Line
  declaration : Line
  body : List Line
  /-- The directive that ends the function. -/
  close : Line
  after : List Line
  eq : lines = before ++ marker :: declaration :: (body ++ close :: after)
  starts : LineKind.of marker = .directive .function name
  ends : LineKind.of close = .directive .endFunction name
  /-- It is the first one that does. -/
  inside : ∀ l ∈ body, LineKind.of l ≠ .directive .endFunction name

namespace Region

/-- The number of the first line of the body. -/
def first {lines : List Line} (r : Region lines) : Nat := r.before.length + 3

/-- The region in a text that goes on. -/
def concat {lines : List Line} (r : Region lines) (l : Line) : Region (lines ++ [l]) :=
  { r with
    after := r.after ++ [l]
    eq := by simpa using congrArg (· ++ [l]) r.eq }

/-- The function is read from the region. -/
def Holds {lines : List Line} (r : Region lines) (f : MarkedFunction) : Prop :=
  f.name = r.name ∧ f.declaration = r.declaration ∧ Transcribes r.first r.body f.statements

end Region

theorem Scan.mem_functions_of_run {s t : Scan} {n : Nat} {lines : List Line} {f : MarkedFunction}
    (h : s.run n lines = .ok t) (hf : f ∈ s.functions) : f ∈ t.functions := by
  refine Scan.run_invariant (I := fun s => f ∈ s.functions) ?_ h hf
  intro n text s s' hread hf
  cases hread with
  | endFunction _ _ _ => exact List.mem_append_left _ hf
  | _ => exact hf

/-- The directive that starts a function starts one wherever it is read. -/
theorem Scan.Reads.mode_of_function {n : Nat} {text name : Line} {s s' : Scan}
    (h : Reads n text s s') (starts : LineKind.of text = .directive .function name) :
    s'.mode = .declaration name n := by
  cases h with
  | functionMarker mode kind _ =>
    rw [starts] at kind
    rw [(LineKind.directive.inj kind).2]
  | declaration mode declares =>
    exact absurd starts (LineKind.of_ne_directive_of_declares declares _ _)
  | regular _ ordinary | plain _ ordinary | callSite _ ordinary _ _ =>
    rw [starts] at ordinary
    cases ordinary
  | endFunction _ kind _ | block _ kind _ | endBlock _ kind _ =>
    rw [starts] at kind
    cases kind
  | @callMarker _ call _ _ kind =>
    rw [starts] at kind
    cases call <;> cases kind

theorem Scan.Reads.mode_of_declaration {n marker : Nat} {text name : Line} {s s' : Scan}
    (h : Reads n text s s') (mode : s.mode = .declaration name marker) :
    s'.mode = .inside ⟨name, text, [], none⟩ := by
  cases h with
  | declaration mode' _ =>
    rw [mode] at mode'
    rw [(Mode.declaration.inj mode').1]
  | regular mode' _ | functionMarker mode' _ _ | plain mode' _ | endFunction mode' _ _
  | block mode' _ _ | endBlock mode' _ _ | callMarker mode' _ | callSite mode' _ _ _ =>
    rw [mode] at mode'
    cases mode'

/-- The directive that ends a function ends the open one, outside all blocks. -/
theorem Scan.Reads.functions_of_endFunction {n : Nat} {text name : Line} {s s' : Scan}
    {f : OpenFunction} (h : Reads n text s s') (opened : s.mode.openFunction? = some f)
    (ends : LineKind.of text = .directive .endFunction name) :
    f.block = none ∧ s'.functions = s.functions ++ [⟨f.name, f.declaration, f.body⟩] := by
  cases h with
  | endFunction mode _ closed =>
    rw [mode] at opened
    obtain rfl := Option.some.inj opened
    exact ⟨closed, rfl⟩
  | regular mode _ | functionMarker mode _ _ | declaration mode _ =>
    rw [mode] at opened
    cases opened
  | plain _ ordinary | callSite _ ordinary _ _ =>
    rw [ends] at ordinary
    cases ordinary
  | block _ kind _ | endBlock _ kind _ =>
    rw [ends] at kind
    cases kind
  | @callMarker _ call _ _ kind =>
    rw [ends] at kind
    cases call <;> cases kind

/-- **Every region is read as a marked function.** -/
theorem Region.exists_function {lines : List Line} {t : Scan} (h : Scan.run {} 1 lines = .ok t)
    (r : Region lines) : ∃ f ∈ t.functions, r.Holds f := by
  -- the directive, the declaration, the body and the end are read one after the other
  rw [r.eq] at h
  obtain ⟨s₀, -, h⟩ := Scan.run_append_eq_ok.1 h
  obtain ⟨s₁, hmarker, h⟩ := Scan.run_cons_eq_ok.1 h
  obtain ⟨s₂, hdecl, h⟩ := Scan.run_cons_eq_ok.1 h
  obtain ⟨s₃, hbody, h⟩ := Scan.run_append_eq_ok.1 h
  obtain ⟨s₄, hclose, h⟩ := Scan.run_cons_eq_ok.1 h
  have hstart : s₂.mode = .inside ⟨r.name, r.declaration, [], none⟩ :=
    hdecl.mode_of_declaration (hmarker.mode_of_function r.starts)
  have hfirst : 1 + r.before.length + 1 + 1 = r.first + ([] : List Line).length := by
    simp only [Region.first, List.length_nil]
    omega
  rw [hfirst] at hbody
  obtain ⟨f, hf, hname, hdeclaration, hstatements⟩ :=
    Scan.run_transcribes hbody (by rw [hstart]; rfl) r.inside .nil
  obtain ⟨closed, hfunctions⟩ := hclose.functions_of_endFunction hf r.ends
  refine ⟨⟨f.name, f.declaration, f.body⟩, Scan.mem_functions_of_run h ?_, hname, hdeclaration, ?_⟩
  · rw [hfunctions]
    exact List.mem_append_right _ List.mem_cons_self
  · rw [OpenFunction.statements_finish closed]
    exact hstatements

/-- The open function is read from its directive, its declaration and the lines after it. -/
def OpenFunction.ReadFrom (f : OpenFunction) (read : List Line) : Prop :=
  ∃ before marker body, read = before ++ marker :: f.declaration :: body ∧
    LineKind.of marker = .directive .function f.name ∧
    Transcribes (before.length + 3) body f.statements

theorem OpenFunction.ReadFrom.step {read : List Line} {text : Line} {s s' : Scan}
    {f : OpenFunction} (h : f.ReadFrom read) (hread : Scan.Reads (read.length + 1) text s s')
    (opened : s.mode.openFunction? = some f)
    (inside : LineKind.of text ≠ .directive .endFunction f.name) :
    ∃ f', s'.mode.openFunction? = some f' ∧ f'.ReadFrom (read ++ [text]) := by
  obtain ⟨before, marker, body, hlines, hstarts, hbody⟩ := h
  have hn : read.length + 1 = before.length + 3 + body.length := by
    rw [hlines]
    simp only [List.length_append, List.length_cons]
    omega
  obtain ⟨f', opened', hname, hdecl, hbody'⟩ := hread.transcribes opened inside hn hbody
  refine ⟨f', opened', before, marker, body ++ [text], ?_, ?_, hbody'⟩
  · rw [hlines, hdecl]
    simp
  · rw [hname]
    exact hstarts

/-- The directive that ends the function completes its region. -/
theorem OpenFunction.ReadFrom.exists_region {read : List Line} {text : Line} {f : OpenFunction}
    (h : f.ReadFrom read) (ends : LineKind.of text = .directive .endFunction f.name)
    (closed : f.block = none) :
    ∃ r : Region (read ++ [text]), r.Holds ⟨f.name, f.declaration, f.body⟩ := by
  obtain ⟨before, marker, body, hlines, hstarts, hbody⟩ := h
  let r : Region (read ++ [text]) :=
    { name := f.name, before, marker, declaration := f.declaration, body, close := text, after := []
      eq := by rw [hlines]; simp
      starts := hstarts
      ends
      inside := fun l hl => hbody.ne_endFunction hl f.name }
  refine ⟨r, rfl, rfl, ?_⟩
  rw [OpenFunction.statements_finish closed]
  exact hbody

/-- What has been read comes from the regions of the lines read so far. -/
structure Scan.Located (read : List Line) (s : Scan) : Prop where
  functions : ∀ f ∈ s.functions, ∃ r : Region read, r.Holds f
  declaration : ∀ name marker, s.mode = .declaration name marker →
    ∃ before l, read = before ++ [l] ∧ LineKind.of l = .directive .function name
  body : ∀ f, s.mode.openFunction? = some f → f.ReadFrom read

theorem Scan.Located.step {read : List Line} {text : Line} {s s' : Scan}
    (h : Reads (read.length + 1) text s s') (hs : s.Located read) :
    s'.Located (read ++ [text]) := by
  have hold : ∀ f ∈ s.functions, ∃ r : Region (read ++ [text]), r.Holds f := by
    intro f hf
    obtain ⟨r, hr⟩ := hs.functions f hf
    exact ⟨r.concat text, hr⟩
  -- while the function stays open, the line belongs to its body
  have hopen : ∀ f g, s.mode.openFunction? = some f → s'.mode.openFunction? = some g →
      LineKind.of text ≠ .directive .endFunction f.name → g.ReadFrom (read ++ [text]) := by
    intro f g hf hg inside
    obtain ⟨f', hf', hfrom⟩ := (hs.body f hf).step h hf inside
    obtain rfl := Option.some.inj (hg.symm.trans hf')
    exact hfrom
  cases h with
  | regular mode _ =>
    refine ⟨hold, ?_, ?_⟩
    · intro name marker hm
      cases mode.symm.trans hm
    · intro f hf
      cases (congrArg Mode.openFunction? mode).symm.trans hf
  | functionMarker mode kind _ =>
    refine ⟨hold, ?_, ?_⟩
    · intro name marker hm
      obtain ⟨rfl, -⟩ := Mode.declaration.inj hm
      exact ⟨read, text, rfl, kind⟩
    · intro f hf
      cases hf
  | @declaration name marker mode _ =>
    refine ⟨hold, ?_, ?_⟩
    · intro name marker hm
      cases hm
    · intro f hf
      obtain rfl := Option.some.inj hf
      obtain ⟨before, l, hread, hl⟩ := hs.declaration name marker mode
      exact ⟨before, l, [], by simp [hread], hl, .nil⟩
  | @endFunction f mode kind closed =>
    have hf : s.mode.openFunction? = some f := by rw [mode]; rfl
    refine ⟨?_, ?_, ?_⟩
    · intro g hg
      rcases List.mem_append.1 hg with hg | hg
      · exact hold g hg
      · rw [List.mem_singleton.1 hg]
        exact (hs.body f hf).exists_region kind closed
    · intro name marker hm
      cases hm
    · intro g hg
      cases hg
  | plain mode ordinary | callSite mode ordinary _ _ =>
    refine ⟨hold, nofun, ?_⟩
    intro g hg
    refine hopen _ g (congrArg Mode.openFunction? mode) hg ?_
    rw [ordinary]
    exact LineKind.noConfusion
  | block mode kind _ | endBlock mode kind _ =>
    refine ⟨hold, nofun, ?_⟩
    intro g hg
    refine hopen _ g (congrArg Mode.openFunction? mode) hg ?_
    rw [kind]
    intro hend
    cases hend
  | @callMarker _ call _ mode kind =>
    refine ⟨hold, nofun, ?_⟩
    intro g hg
    refine hopen _ g (congrArg Mode.openFunction? mode) hg ?_
    rw [kind]
    intro hend
    cases call <;> cases hend

/-- **Every marked function has been read from a region.** -/
theorem Scan.exists_region {lines : List Line} {t : Scan} (h : Scan.run {} 1 lines = .ok t)
    {f : MarkedFunction} (hf : f ∈ t.functions) : ∃ r : Region lines, r.Holds f := by
  have located : t.Located ([] ++ lines) :=
    Scan.run_invariant_lines (fun _ _ _ _ => Scan.Located.step) h ⟨nofun, nofun, nofun⟩
  exact located.functions f hf

end RayTracer
