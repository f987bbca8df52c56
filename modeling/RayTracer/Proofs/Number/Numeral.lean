import Mathlib.Data.List.TakeWhile
import RayTracer.Json.Numeral
import RayTracer.Proofs.Number.CorrectRounding

/-!
# Numerals

A `Numeral` is a number as it is written: a sign, digits, and perhaps a fraction and a power of ten.
It stands for a rational number, and the single it should be read as is the correctly rounded one
(`Numeral.RoundsTo`).

* `Numeral.ofText?_unsignedText` : a numeral is read as a decimal of its value.
* `NumberStyle.isNumeralOf_magnitude` : **the text of a magnitude word is a numeral for the shortest
  decimal of the word**, in positional notation and with a power of ten.
* `NumberStyle.exists_numeral` : so a finite value is written as a numeral that is rounded to it.
-/

namespace RayTracer

/-! ### Reading digits -/

/-- All characters are digits. -/
def AllDigits (l : List Char) : Prop := ∀ c ∈ l, c.isDigit = true

theorem allDigits_digitsOf (n : ℕ) : AllDigits (Decimal.digitsOf n) :=
  fun _ hc => Decimal.isDigit_of_mem_digitsOf hc

theorem allDigits_zeros (k : ℕ) : AllDigits (List.replicate k '0') := by
  intro c hc
  rw [List.eq_of_mem_replicate hc]
  decide

theorem AllDigits.append {l m : List Char} (hl : AllDigits l) (hm : AllDigits m) :
    AllDigits (l ++ m) :=
  List.forall_mem_append.2 ⟨hl, hm⟩

theorem AllDigits.takeWhile {l : List Char} (h : AllDigits l) : l.takeWhile Char.isDigit = l :=
  List.takeWhile_eq_self_iff.2 h

theorem AllDigits.dropWhile {l : List Char} (h : AllDigits l) : l.dropWhile Char.isDigit = [] :=
  List.dropWhile_eq_nil_iff.2 h

/-- Digits end at the first other character. -/
theorem AllDigits.takeWhile_append {l rest : List Char} {c : Char} (h : AllDigits l)
    (hc : c.isDigit = false) : (l ++ c :: rest).takeWhile Char.isDigit = l := by
  rw [List.takeWhile_append_of_pos h, List.takeWhile_cons_of_neg (by simp [hc]), List.append_nil]

theorem AllDigits.dropWhile_append {l rest : List Char} {c : Char} (h : AllDigits l)
    (hc : c.isDigit = false) : (l ++ c :: rest).dropWhile Char.isDigit = c :: rest := by
  rw [List.dropWhile_append_of_pos h, List.dropWhile_cons_of_neg (by simp [hc])]

namespace Decimal

variable {whole fraction power : List Char} {e : ℤ}

/-- A sign and digits. -/
theorem exponentOfText?_digits (hp : AllDigits power) (hne : power ≠ []) (negative : Bool) :
    exponentOfText? ((if negative then ['-'] else []) ++ power) =
      some (if negative then -(naturalOfDigits power : ℤ) else naturalOfDigits power) := by
  have hdigits : power.all Char.isDigit = true := List.all_eq_true.2 hp
  cases negative with
  | true =>
    simp only [exponentOfText?, List.singleton_append, List.isEmpty_iff, hne, hdigits, not_true,
      or_self, if_false, if_true]
  | false =>
    have hsign : ∀ sign rest, sign.isDigit = false → power ≠ sign :: rest := by
      intro sign rest hsign hcons
      have hdigit := hp sign (by simp [hcons])
      rw [hsign] at hdigit
      cases hdigit
    rw [if_neg (by decide), List.nil_append, exponentOfText?]
    · simp only [List.isEmpty_iff, hne, hdigits, not_true, or_self, if_false, Bool.false_eq_true]
    · exact fun rest => hsign '-' rest (by decide)
    · exact fun rest => hsign '+' rest (by decide)

/-- Digits alone. -/
theorem ofText?_whole (hw : AllDigits whole) (hne : whole ≠ []) :
    ofText? whole = some ⟨naturalOfDigits whole, 0⟩ := by
  simp [ofText?, hw.takeWhile, hw.dropWhile, hne]

/-- Digits with a point among them. -/
theorem ofText?_point (hw : AllDigits whole) (hne : whole ≠ []) (hf : AllDigits fraction) :
    ofText? (whole ++ '.' :: fraction) =
      some ⟨naturalOfDigits (whole ++ fraction), -(fraction.length : ℤ)⟩ := by
  simp [ofText?, hw.takeWhile_append, hw.dropWhile_append, hf.takeWhile, hf.dropWhile, hne]

/-- Digits with a point among them, and a power of ten. -/
theorem ofText?_point_power (hw : AllDigits whole) (hne : whole ≠ []) (hf : AllDigits fraction)
    (hp : exponentOfText? power = some e) :
    ofText? (whole ++ '.' :: (fraction ++ 'e' :: power)) =
      some ⟨naturalOfDigits (whole ++ fraction), e - fraction.length⟩ := by
  simp [ofText?, hw.takeWhile_append, hw.dropWhile_append, hf.takeWhile_append,
    hf.dropWhile_append, hne, hp]

/-- Digits and a power of ten. -/
theorem ofText?_power (hw : AllDigits whole) (hne : whole ≠ [])
    (hp : exponentOfText? power = some e) :
    ofText? (whole ++ 'e' :: power) = some ⟨naturalOfDigits whole, e⟩ := by
  simp [ofText?, hw.takeWhile_append, hw.dropWhile_append, hne, hp]

end Decimal

namespace Numeral

/-! ### The meaning of a numeral -/

/-- The numeral without its sign. -/
def unsignedText (n : Numeral) : List Char :=
  n.whole ++ (n.fraction.elim [] fun digits => '.' :: digits) ++
    n.exponent.elim [] fun power => 'e' :: (if power.1 then ['-'] else []) ++ power.2

/-- The numeral as it is written. -/
def text (n : Numeral) : List Char := (if n.negative then ['-'] else []) ++ n.unsignedText

/-- All parts that are there have digits and nothing else. -/
structure IsWellFormed (n : Numeral) : Prop where
  whole : AllDigits n.whole ∧ n.whole ≠ []
  fraction : ∀ digits ∈ n.fraction, AllDigits digits ∧ digits ≠ []
  exponent : ∀ power ∈ n.exponent, AllDigits power.2 ∧ power.2 ≠ []

/-- The power of ten. -/
def power (n : Numeral) : ℤ :=
  n.exponent.elim 0 fun power =>
    if power.1 then -(naturalOfDigits power.2 : ℤ) else naturalOfDigits power.2

/-- The digits after the point. -/
def places (n : Numeral) : List Char := n.fraction.getD []

/-- The number that is written, without its sign. -/
def absValue (n : Numeral) : ℚ :=
  (naturalOfDigits n.whole + naturalOfDigits n.places / 10 ^ n.places.length) * 10 ^ n.power

/-- The single is the number that is written, correctly rounded. -/
def RoundsTo (n : Numeral) (x : Float32) : Prop :=
  ∃ word, BinaryFormat.single.Rounds n.absValue word ∧ x = .ofWord n.negative word

variable {n : Numeral}

/-- What a numeral is read as: the digits after the point count as digits before it, and lower the
power of ten. -/
def decimal (n : Numeral) : Decimal :=
  ⟨naturalOfDigits (n.whole ++ n.places), n.power - n.places.length⟩

theorem value_decimal (n : Numeral) : n.decimal.value = n.absValue := by
  rw [decimal, Decimal.value, absValue, naturalOfDigits_append, zpow_sub₀ (by norm_num),
    zpow_natCast]
  push_cast
  rw [cast_power, Nat.cast_ofNat]
  field_simp

/-- **A numeral is read as a decimal of its value.** -/
theorem ofText?_unsignedText (h : n.IsWellFormed) :
    Decimal.ofText? n.unsignedText = some n.decimal := by
  obtain ⟨negative, whole, fraction, exponent⟩ := n
  obtain ⟨⟨hw, hwne⟩, hfraction, hexponent⟩ := h
  have hpower : ∀ p ∈ exponent,
      Decimal.exponentOfText? ((if p.1 then ['-'] else []) ++ p.2) =
        some (if p.1 then -(naturalOfDigits p.2 : ℤ) else naturalOfDigits p.2) := fun p hp =>
    Decimal.exponentOfText?_digits (hexponent p hp).1 (hexponent p hp).2 p.1
  -- with and without a fraction, and with and without a power of ten
  cases fraction with
  | none =>
    cases exponent with
    | none => simpa [unsignedText, decimal, places, power] using Decimal.ofText?_whole hw hwne
    | some p =>
      simpa [unsignedText, decimal, places, power] using
        Decimal.ofText?_power hw hwne (hpower p rfl)
  | some f =>
    obtain ⟨hf, -⟩ := hfraction f rfl
    cases exponent with
    | none => simpa [unsignedText, decimal, places, power] using Decimal.ofText?_point hw hwne hf
    | some p =>
      simpa [unsignedText, decimal, places, power] using
        Decimal.ofText?_point_power hw hwne hf (hpower p rfl)

/-- A numeral starts with a digit, apart from its sign. -/
theorem exists_digit_unsignedText (h : n.IsWellFormed) :
    ∃ c rest, n.unsignedText = c :: rest ∧ c.isDigit = true := by
  obtain ⟨c, rest, hwhole⟩ := List.exists_cons_of_ne_nil h.whole.2
  have hc : c.isDigit = true := h.whole.1 c (by simp [hwhole])
  rw [unsignedText, hwhole]
  exact ⟨c, _, rfl, hc⟩

theorem point_or_power_mem_text (h : n.isInteger = false) : '.' ∈ n.text ∨ 'e' ∈ n.text := by
  obtain ⟨negative, whole, fraction, exponent⟩ := n
  cases fraction with
  | some f => exact .inl (by simp [text, unsignedText])
  | none =>
    cases exponent with
    | some p => exact .inr (by simp [text, unsignedText])
    | none => cases h

end Numeral

/-! ### Writing a numeral -/

/-- The text is a numeral without a sign and with a point or a power of ten, and it stands for the
number. -/
def IsNumeralOf (text : List Char) (q : ℚ) : Prop :=
  ∃ n : Numeral, n.IsWellFormed ∧ n.isInteger = false ∧ n.unsignedText = text ∧ n.absValue = q

/-- Digits on both sides of a point. -/
theorem isNumeralOf_point {whole fraction : List Char} (hw : AllDigits whole) (hwne : whole ≠ [])
    (hf : AllDigits fraction) (hfne : fraction ≠ []) : IsNumeralOf (whole ++ '.' :: fraction)
      (Decimal.value ⟨naturalOfDigits (whole ++ fraction), -(fraction.length : ℤ)⟩) := by
  refine ⟨⟨false, whole, some fraction, none⟩, ⟨⟨hw, hwne⟩, ?_, nofun⟩, rfl, ?_, ?_⟩
  · rintro _ ⟨⟩
    exact ⟨hf, hfne⟩
  · exact List.append_nil _
  · rw [← Numeral.value_decimal]
    simp [Numeral.decimal, Numeral.places, Numeral.power]

namespace NumberStyle

variable {style : NumberStyle} {digits : List Char}

/-- Positional notation: zeros around the digits and a point among them only say where the point
is. -/
theorem isNumeralOf_positional (keeps : style.keepsFraction = true) (hd : AllDigits digits)
    (hne : digits ≠ []) (point : ℤ) : IsNumeralOf (style.positional digits point)
      (Decimal.value ⟨naturalOfDigits digits, point - digits.length⟩) := by
  have hzero : AllDigits ['0'] := allDigits_zeros 1
  have hone : naturalOfDigits ['0'] = 0 := rfl
  unfold positional
  split
  · have hzeros := (allDigits_zeros (-point).toNat).append hd
    have hnumeral := isNumeralOf_point hzero (by simp) hzeros (by simp [hne])
    have hdigits : naturalOfDigits (['0'] ++ (List.replicate (-point).toNat '0' ++ digits)) =
        naturalOfDigits digits := by
      rw [naturalOfDigits_append, naturalOfDigits_append, naturalOfDigits_zeros, hone]
      simp
    have hexponent : -((List.replicate (-point).toNat '0' ++ digits).length : ℤ) =
        point - digits.length := by
      rw [List.length_append, List.length_replicate]
      omega
    rwa [hdigits, hexponent] at hnumeral
  rename_i hpoint
  split
  · have hzeros := hd.append (allDigits_zeros (point.toNat - digits.length))
    have hnumeral := isNumeralOf_point hzeros (by simp [hne]) hzero (by simp)
    have hvalue : Decimal.value
        ⟨naturalOfDigits (digits ++ List.replicate (point.toNat - digits.length) '0' ++ ['0']),
          -((['0'] : List Char).length : ℤ)⟩ =
        Decimal.value ⟨naturalOfDigits digits, point - digits.length⟩ := by
      have hcount : point - digits.length = ((point.toNat - digits.length : ℕ) : ℤ) := by omega
      rw [hcount, Decimal.value, Decimal.value, naturalOfDigits_append, naturalOfDigits_append,
        naturalOfDigits_zeros, hone, zpow_natCast, List.length_replicate]
      simp only [List.length_singleton, add_zero, Nat.cast_mul, cast_power, Nat.cast_ofNat, pow_one,
        Nat.cast_one]
      rw [zpow_neg_one]
      ring
    rwa [hvalue] at hnumeral
  · have htake : digits.take point.toNat ≠ [] := by
      rw [ne_eq, List.take_eq_nil_iff, not_or]
      exact ⟨by omega, hne⟩
    have hdrop : digits.drop point.toNat ≠ [] := by
      rw [ne_eq, List.drop_eq_nil_iff]
      omega
    have hnumeral := isNumeralOf_point (fun c hc => hd c (List.mem_of_mem_take hc)) htake
      (fun c hc => hd c (List.mem_of_mem_drop hc)) hdrop
    have hexponent : -((digits.drop point.toNat).length : ℤ) = point - digits.length := by
      rw [List.length_drop]
      omega
    rwa [List.take_append_drop, hexponent] at hnumeral

/-- Notation with a power of ten, with a point unless there is one digit only. -/
theorem isNumeralOf_exponential (hd : AllDigits digits) (hne : digits ≠ []) (point : ℤ) :
    IsNumeralOf (exponential digits point)
      (Decimal.value ⟨naturalOfDigits digits, point - digits.length⟩) := by
  obtain ⟨c, rest, rfl⟩ := List.exists_cons_of_ne_nil hne
  obtain ⟨hc, hrest⟩ := List.forall_mem_cons.1 hd
  refine ⟨⟨false, [c], if rest.isEmpty then none else some rest,
    some (decide (point - 1 < 0), Decimal.digitsOf (point - 1).natAbs)⟩, ⟨?_, ?_, ?_⟩, ?_, ?_, ?_⟩
  · exact ⟨List.forall_mem_singleton.2 hc, List.cons_ne_nil c []⟩
  · cases rest with
    | nil => exact nofun
    | cons b rest =>
      rintro _ ⟨⟩
      exact ⟨hrest, List.cons_ne_nil b rest⟩
  · rintro _ ⟨⟩
    exact ⟨allDigits_digitsOf _, Decimal.digitsOf_ne_nil _⟩
  · simp [Numeral.isInteger]
  · cases rest <;> simp [Numeral.unsignedText, exponential]
  · have hpower : (if point - 1 < 0 then -((point - 1).natAbs : ℤ) else (point - 1).natAbs) =
        point - 1 := by
      split <;> omega
    have hplaces : (if rest.isEmpty then none else some rest).getD [] = rest := by
      cases rest <;> rfl
    have hexponent : point - 1 - (rest.length : ℤ) = point - (c :: rest).length := by
      rw [List.length_cons]
      omega
    rw [← Numeral.value_decimal, Numeral.decimal, Numeral.places, Numeral.power]
    simp only [Option.elim_some, decide_eq_true_eq, naturalOfDigits_digitsOf, hplaces, hpower,
      hexponent, List.singleton_append]

/-- **The text of a magnitude word is a numeral for the shortest decimal of the word.** -/
theorem isNumeralOf_magnitude (keeps : style.keepsFraction = true) (word : ℕ) :
    IsNumeralOf (style.magnitude word) (Decimal.shortest word).value := by
  have hd := allDigits_digitsOf (Decimal.shortest word).normalize.digits
  have hne := Decimal.digitsOf_ne_nil (Decimal.shortest word).normalize.digits
  have hvalue : Decimal.value
      ⟨naturalOfDigits (Decimal.digitsOf (Decimal.shortest word).normalize.digits),
      (Decimal.shortest word).normalize.exponent +
        (Decimal.digitsOf (Decimal.shortest word).normalize.digits).length -
        (Decimal.digitsOf (Decimal.shortest word).normalize.digits).length⟩ =
      (Decimal.shortest word).value := by
    rw [naturalOfDigits_digitsOf, add_sub_cancel_right]
    exact Decimal.value_normalize _
  rw [← hvalue]
  unfold magnitude
  simp only
  split
  · exact isNumeralOf_exponential hd hne _
  · exact isNumeralOf_positional keeps hd hne _

/-- **A finite value is written as a numeral that is rounded to it.** -/
theorem exists_numeral (keeps : style.keepsFraction = true) (negative : Bool) {word : ℕ}
    (h : word < BinaryFormat.single.infinity) :
    ∃ n : Numeral, n.IsWellFormed ∧ n.isInteger = false ∧ n.text = style.ofWord negative word ∧
      n.RoundsTo (.ofWord negative word) := by
  have hunsigned : ∃ q, IsNumeralOf (if word = 0 then style.zero else style.magnitude word) q ∧
      BinaryFormat.single.Rounds q word := by
    split
    · rename_i hzero
      have hdigits : AllDigits ['0'] := allDigits_zeros 1
      rw [zero, if_pos keeps, hzero]
      exact ⟨_, isNumeralOf_point hdigits (by simp) hdigits (by simp),
        Decimal.rounds_iff.2 (by decide +kernel)⟩
    · exact ⟨_, isNumeralOf_magnitude keeps word, Decimal.rounds_shortest h⟩
  obtain ⟨q, ⟨n, hn, hpoint, htext, rfl⟩, hrounds⟩ := hunsigned
  refine ⟨{ n with negative }, ⟨hn.whole, hn.fraction, hn.exponent⟩, hpoint, ?_, word, hrounds, rfl⟩
  rw [ofWord, if_neg h.not_gt, if_neg h.ne, ← htext]
  rfl

end NumberStyle

end RayTracer
