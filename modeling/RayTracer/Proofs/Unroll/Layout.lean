import RayTracer.Proofs.Unroll.Directive
import RayTracer.Proofs.Unroll.Reading

/-!
# The layout of a marked text

A `Layout` is a marked text as a tree: regular lines and marked functions, whose bodies consist of
ordinary lines, marked calls and depth blocks.  It keeps every line, those of the directives
included, so the text can be written again (`Layout.lines`).  `Layout.Valid` is the grammar of
marked texts, with what it means that a line calls a name left open.

* `Layout.run_lines` : **the reader takes the lines of a layout piece by piece**, and what it has
  then read is `Layout.read`.

Every part of a layout is taken in one go, whatever lines follow it, so the lemma for a part is put
together from those for the parts inside.
-/

namespace RayTracer

namespace Layout

/-- An ordinary line of a body, or a marked call with its directive. -/
inductive Entry where
  | text (l : Line)
  | call (marker : Line) (kind : CallKind) (callee l : Line)

/-- A depth block between its two directives. -/
structure Block where
  opening : Line
  name : Line
  entries : List Entry
  closing : Line

/-- A part of a body. -/
inductive Part where
  | entry (e : Entry)
  | block (b : Block)

/-- A marked function between its two directives. -/
structure Function where
  marker : Line
  name : Line
  declaration : Line
  parts : List Part
  closing : Line

/-- A part of a text. -/
inductive Piece where
  | regular (l : Line)
  | function (f : Function)

end Layout

/-- A marked text as a tree. -/
abbrev Layout := List Layout.Piece

namespace Layout

/-! ### The lines of a layout -/

def Entry.lines : Entry → List Line
  | text l => [l]
  | call marker _ _ l => [marker, l]

def Block.lines (b : Block) : List Line :=
  b.opening :: (b.entries.flatMap Entry.lines ++ [b.closing])

def Part.lines : Part → List Line
  | entry e => e.lines
  | block b => b.lines

def Function.lines (f : Function) : List Line :=
  f.marker :: f.declaration :: (f.parts.flatMap Part.lines ++ [f.closing])

def Piece.lines : Piece → List Line
  | regular l => [l]
  | function f => f.lines

/-- The lines of the text. -/
def lines (d : Layout) : List Line := d.flatMap Piece.lines

/-! ### The grammar -/

section Grammar

variable (Calls : Line → Line → Prop)

/-- A marked call has its directive before it, and a recursive one stands in a block. -/
def Entry.Valid (inBlock : Bool) : Entry → Prop
  | text l => IsOrdinary l
  | call marker kind callee l =>
    IsDirective kind.directive callee marker ∧ IsOrdinary l ∧ Calls l callee ∧
      (kind = .recursive → inBlock = true)

/-- Both directives of a block have the same name. -/
structure Block.Valid (b : Block) : Prop where
  opening : IsDirective .block b.name b.opening
  entries : ∀ e ∈ b.entries, e.Valid Calls true
  closing : IsDirective .endBlock b.name b.closing

def Part.Valid : Part → Prop
  | entry e => e.Valid Calls false
  | block b => b.Valid Calls

/-- The line after the first directive declares the function that both directives name. -/
structure Function.Valid (f : Function) : Prop where
  marker : IsDirective .function f.name f.marker
  declaration : "fn ".toList ++ callPattern f.name <:+: f.declaration
  parts : ∀ p ∈ f.parts, p.Valid Calls
  closing : IsDirective .endFunction f.name f.closing

def Piece.Valid : Piece → Prop
  | regular l => IsOrdinary l
  | function f => f.Valid Calls

/-- The callee, if the entry is a marked call. -/
def Entry.callee? : Entry → Option Line
  | text _ => none
  | call _ _ callee _ => some callee

/-- The line, if it is no marked call. -/
def Entry.text? : Entry → Option Line
  | text l => some l
  | call _ _ _ _ => none

def Part.entries : Part → List Entry
  | entry e => [e]
  | block b => b.entries

/-- The body, inside and outside blocks. -/
def Function.entries (f : Function) : List Entry := f.parts.flatMap Part.entries

/-- What stays of the body where no deeper level is left: nothing that is in a block. -/
def Part.kept (isLast : Bool) : Part → List Entry
  | entry e => [e]
  | block b => if isLast then [] else b.entries

def Function.kept (f : Function) (isLast : Bool) : List Entry := f.parts.flatMap (Part.kept isLast)

theorem Function.kept_false (f : Function) : f.kept false = f.entries := by
  refine congrArg f.parts.flatMap (funext fun p => ?_)
  cases p <;> rfl

def Piece.function? : Piece → Option Function
  | regular _ => none
  | function f => some f

/-- The marked functions. -/
def functions (d : Layout) : List Function := d.filterMap Piece.function?

/-- The names of the marked functions. -/
def names (d : Layout) : List Line := d.functions.map Function.name

/-- Everything that stands in the body of a marked function. -/
def entries (d : Layout) : List Entry := d.functions.flatMap Function.entries

/-- **The grammar of marked texts.**  Each part has the form that its directives ask for, no two
marked functions share a name, the callees of marked calls are marked, and a line of a body without
marker calls no marked function before its first comment. -/
structure Valid (d : Layout) : Prop where
  pieces : ∀ p ∈ d, p.Valid Calls
  names : d.names.Nodup
  callees : ∀ e ∈ d.entries, ∀ callee, e.callee? = some callee → callee ∈ d.names
  unmarked : ∀ e ∈ d.entries, ∀ l, e.text? = some l → ∀ name ∈ d.names,
    ¬Calls (Line.before "//".toList l) name

end Grammar

/-! ### What is read of a layout -/

/-- What is read of the members of a list whose lines are numbered from `n` on. -/
def readFrom {α β : Type} (lines : α → List Line) (read : Nat → α → List β) : Nat → List α → List β
  | _, [] => []
  | n, a :: as => read n a ++ readFrom lines read (n + (lines a).length) as

def Entry.read (n : Nat) : Entry → List Statement
  | text l => [.text l]
  | call _ kind callee l => [.call ⟨kind, callee, n + 1, l⟩]

def Block.read (n : Nat) (b : Block) : DepthBlock :=
  ⟨b.name, readFrom Entry.lines Entry.read (n + 1) b.entries⟩

def Part.read (n : Nat) : Part → List BodyPart
  | entry e => (e.read n).map .statement
  | block b => [.block (b.read n)]

def Function.read (n : Nat) (f : Function) : MarkedFunction :=
  ⟨f.name, f.declaration, readFrom Part.lines Part.read (n + 2) f.parts⟩

def Piece.read (n : Nat) : Piece → List MarkedFunction
  | regular _ => []
  | function f => [f.read n]

/-- The unmarked lines of a part of the function that is called `name`. -/
def Entry.plain (name : Line) (n : Nat) : Entry → List PlainLine
  | text l => [⟨n, name, l⟩]
  | call _ _ _ _ => []

def Part.plain (name : Line) (n : Nat) : Part → List PlainLine
  | entry e => e.plain name n
  | block b => readFrom Entry.lines (Entry.plain name) (n + 1) b.entries

def Piece.plain (n : Nat) : Piece → List PlainLine
  | regular _ => []
  | function f => readFrom Part.lines (Part.plain f.name) (n + 2) f.parts

def Piece.regular? : Piece → Option Line
  | regular l => some l
  | function _ => none

/-- The lines outside all marked functions. -/
def regular (d : Layout) : List Line := d.filterMap Piece.regular?

/-- What is read of a text that has this layout. -/
def read (d : Layout) : MarkedSource :=
  ⟨d.regular, readFrom Piece.lines Piece.read 1 d⟩

/-- The unmarked lines of a text that has this layout. -/
def plain (d : Layout) : List PlainLine := readFrom Piece.lines Piece.plain 1 d

end Layout

/-! ### Reading a layout -/

namespace OpenFunction

/-- The function with more lines, all inside its open block if it has one. -/
def pushAll (f : OpenFunction) (ss : List Statement) : OpenFunction := ss.foldl push f

variable {f : OpenFunction} {ss : List Statement}

theorem pushAll_append (f : OpenFunction) (ss ts : List Statement) :
    f.pushAll (ss ++ ts) = (f.pushAll ss).pushAll ts :=
  List.foldl_append

theorem pushAll_of_closed (closed : f.block = none) :
    f.pushAll ss = { f with body := f.body ++ ss.map .statement } := by
  induction ss generalizing f with
  | nil => simp [pushAll]
  | cons s ss ih =>
    have hpush : f.push s = { f with body := f.body ++ [.statement s] } := by simp [push, closed]
    have hrest := ih (f := { f with body := f.body ++ [.statement s] }) closed
    rw [pushAll] at hrest
    rw [pushAll, List.foldl_cons, hpush, hrest]
    simp

theorem pushAll_of_open {b : DepthBlock} (opened : f.block = some b) :
    f.pushAll ss = { f with block := some { b with body := b.body ++ ss } } := by
  induction ss generalizing f b with
  | nil => simp [pushAll, ← opened]
  | cons s ss ih =>
    have hpush : f.push s = { f with block := some { b with body := b.body ++ [s] } } := by
      simp [push, opened]
    have hrest := ih (f := { f with block := some { b with body := b.body ++ [s] } }) rfl
    rw [pushAll] at hrest
    rw [pushAll, List.foldl_cons, hpush, hrest]
    simp

end OpenFunction

namespace Scan

open Layout

variable {s : Scan} {f : OpenFunction} {n : Nat}

theorem run_cons_of_reads {s' : Scan} {text : Line} (h : Reads n text s s') (rest : List Line) :
    s.run n (text :: rest) = s'.run (n + 1) rest := by
  rw [run, step_of_reads h]
  rfl

/-- The reader of calls of names, as it is used in the grammar. -/
abbrev FindsCall (l name : Line) : Prop := hasCall l name = true

theorem run_entry {e : Entry} (mode : s.mode = .inside f)
    (valid : e.Valid FindsCall f.block.isSome) (rest : List Line) :
    s.run n (e.lines ++ rest) =
      { s with plain := s.plain ++ e.plain f.name n, mode := .inside (f.pushAll (e.read n)) }.run
        (n + e.lines.length) rest := by
  cases e with
  | text l => exact run_cons_of_reads (.plain mode (LineKind.of_eq_ordinary_iff.2 valid)) rest
  | call marker kind callee l =>
    obtain ⟨hmarker, hordinary, hcalls, hguarded⟩ := valid
    have guarded : kind = .recursive → f.block ≠ none := by
      intro hkind
      exact Option.isSome_iff_ne_none.1 (hguarded hkind)
    simp only [Entry.lines, List.cons_append, List.nil_append, Entry.plain, List.append_nil]
    rw [run_cons_of_reads (.callMarker mode (LineKind.of_eq_directive_iff.2 hmarker)),
      run_cons_of_reads (.callSite rfl (LineKind.of_eq_ordinary_iff.2 hordinary) hcalls guarded)]
    rfl

/-- **The lines of a block, or of a part of a body without blocks.** -/
theorem run_entries {es : List Entry} (mode : s.mode = .inside f)
    (valid : ∀ e ∈ es, e.Valid FindsCall f.block.isSome) (rest : List Line) :
    s.run n (es.flatMap Entry.lines ++ rest) =
      { s with
        plain := s.plain ++ readFrom Entry.lines (Entry.plain f.name) n es
        mode := .inside (f.pushAll (readFrom Entry.lines Entry.read n es)) }.run
        (n + (es.flatMap Entry.lines).length) rest := by
  induction es generalizing s f n with
  | nil => simp [readFrom, OpenFunction.pushAll, ← mode]
  | cons e es ih =>
    have hname : (f.pushAll (e.read n)).name = f.name := by
      cases e <;> exact OpenFunction.name_push _ _
    have hblock : (f.pushAll (e.read n)).block.isSome = f.block.isSome := by
      cases hb : f.block with
      | none => rw [OpenFunction.pushAll_of_closed hb, hb]
      | some b =>
        rw [OpenFunction.pushAll_of_open hb]
        rfl
    rw [List.flatMap_cons, List.append_assoc, run_entry mode (valid e List.mem_cons_self),
      ih rfl (by rw [hblock]; exact fun e he => valid e (List.mem_cons_of_mem _ he))]
    simp only [hname, readFrom, OpenFunction.pushAll_append, List.append_assoc,
      List.length_append, Nat.add_assoc]

/-- **A part of a body**, outside all blocks. -/
theorem run_part {p : Part} (mode : s.mode = .inside f) (closed : f.block = none)
    (valid : p.Valid FindsCall) (rest : List Line) :
    s.run n (p.lines ++ rest) =
      { s with
        plain := s.plain ++ p.plain f.name n
        mode := .inside { f with body := f.body ++ p.read n } }.run (n + p.lines.length) rest := by
  cases p with
  | entry e =>
    have hentry := run_entry (n := n) mode (by rw [closed]; exact valid) rest
    rw [OpenFunction.pushAll_of_closed closed] at hentry
    exact hentry
  | block b =>
    obtain ⟨hopening, hentries, hclosing⟩ := valid
    have hlines : (Part.block b).lines ++ rest =
        b.opening :: (b.entries.flatMap Entry.lines ++ b.closing :: rest) := by
      simp [Part.lines, Block.lines]
    rw [hlines, run_cons_of_reads (.block mode (LineKind.of_eq_directive_iff.2 hopening) closed),
      run_entries rfl hentries, OpenFunction.pushAll_of_open rfl,
      run_cons_of_reads (.endBlock rfl (LineKind.of_eq_directive_iff.2 hclosing) rfl)]
    have hlength : n + 1 + (b.entries.flatMap Entry.lines).length + 1 =
        n + (Part.block b).lines.length := by
      simp only [Part.lines, Block.lines, List.length_cons, List.length_append, List.length_nil]
      omega
    rw [hlength]
    simp only [Part.plain, Part.read, Block.read, closed, List.nil_append]

/-- **A body.** -/
theorem run_parts {ps : List Part} (mode : s.mode = .inside f) (closed : f.block = none)
    (valid : ∀ p ∈ ps, p.Valid FindsCall) (rest : List Line) :
    s.run n (ps.flatMap Part.lines ++ rest) =
      { s with
        plain := s.plain ++ readFrom Part.lines (Part.plain f.name) n ps
        mode := .inside { f with body := f.body ++ readFrom Part.lines Part.read n ps } }.run
        (n + (ps.flatMap Part.lines).length) rest := by
  induction ps generalizing s f n with
  | nil => simp [readFrom, ← mode]
  | cons p ps ih =>
    rw [List.flatMap_cons, List.append_assoc, run_part mode closed (valid p List.mem_cons_self),
      ih (f := { f with body := f.body ++ p.read n }) rfl closed
        fun q hq => valid q (List.mem_cons_of_mem p hq)]
    simp only [readFrom, List.append_assoc, List.length_append, Nat.add_assoc]

/-- **A marked function.** -/
theorem run_function {g : Layout.Function} (mode : s.mode = .outside) (valid : g.Valid FindsCall)
    (fresh : ∀ f ∈ s.functions, f.name ≠ g.name) (rest : List Line) :
    s.run n (g.lines ++ rest) =
      { s with
        functions := s.functions ++ [g.read n]
        plain := s.plain ++ (Piece.function g).plain n
        mode := .outside }.run (n + g.lines.length) rest := by
  obtain ⟨hmarker, hdeclaration, hparts, hclosing⟩ := valid
  have hlines : g.lines ++ rest =
      g.marker :: g.declaration :: (g.parts.flatMap Part.lines ++ g.closing :: rest) := by
    simp [Function.lines]
  rw [hlines,
    run_cons_of_reads (.functionMarker mode (LineKind.of_eq_directive_iff.2 hmarker) fresh),
    run_cons_of_reads (.declaration rfl (Line.has_iff.2 hdeclaration)), run_parts rfl rfl hparts,
    run_cons_of_reads (.endFunction rfl (LineKind.of_eq_directive_iff.2 hclosing) rfl)]
  have hlength : n + 1 + 1 + (g.parts.flatMap Part.lines).length + 1 = n + g.lines.length := by
    simp only [Function.lines, List.length_cons, List.length_append, List.length_nil]
    omega
  rw [hlength]
  rfl

/-- **A whole text.** -/
theorem run_pieces {d : Layout} (mode : s.mode = .outside) (valid : ∀ p ∈ d, p.Valid FindsCall)
    (nodup : d.names.Nodup) (fresh : ∀ f ∈ s.functions, f.name ∉ d.names) :
    s.run n d.lines = .ok
      { regular := s.regular ++ d.regular
        functions := s.functions ++ readFrom Piece.lines Piece.read n d
        plain := s.plain ++ readFrom Piece.lines Piece.plain n d
        mode := .outside } := by
  induction d generalizing s n with
  | nil => simp [Layout.lines, Layout.regular, readFrom, run, ← mode]
  | cons p d ih =>
    have hvalid : ∀ q ∈ d, q.Valid FindsCall := fun q hq => valid q (List.mem_cons_of_mem p hq)
    cases p with
    | regular l =>
      have hl : LineKind.of l = .ordinary :=
        LineKind.of_eq_ordinary_iff.2 (valid _ List.mem_cons_self)
      have hlines : Layout.lines (.regular l :: d) = l :: Layout.lines d := rfl
      rw [hlines, run_cons_of_reads (.regular mode hl),
        ih (s := { s with regular := s.regular ++ [l] }) mode hvalid nodup fresh]
      simp [Layout.regular, Piece.regular?, readFrom, Piece.read, Piece.plain, Piece.lines]
    | function g =>
      have hnames : Layout.names (.function g :: d) = g.name :: Layout.names d := rfl
      rw [hnames, List.nodup_cons] at nodup
      have hfresh : ∀ f ∈ s.functions, f.name ≠ g.name ∧ f.name ∉ Layout.names d := by
        simpa [hnames] using fresh
      have hlines : Layout.lines (.function g :: d) = g.lines ++ Layout.lines d := rfl
      rw [hlines, run_function mode (valid _ List.mem_cons_self) fun f hf => (hfresh f hf).1,
        ih rfl hvalid nodup.2]
      · have hregular : Layout.regular (.function g :: d) = Layout.regular d := rfl
        simp only [hregular, readFrom, Piece.read, Piece.lines, List.append_assoc,
          List.singleton_append]
      · intro f hf
        rcases List.mem_append.1 hf with hf | hf
        · exact (hfresh f hf).2
        · rw [List.mem_singleton.1 hf]
          exact nodup.1

end Scan

open Scan in
/-- **The reader takes the lines of a layout piece by piece.** -/
theorem Layout.run_lines {d : Layout} (valid : ∀ p ∈ d, p.Valid FindsCall)
    (nodup : d.names.Nodup) :
    Scan.run {} 1 d.lines = .ok
      { regular := d.read.regular, functions := d.read.functions, plain := d.plain } := by
  rw [run_pieces rfl valid nodup fun f hf => absurd hf List.not_mem_nil]
  rfl

end RayTracer
