import Mathlib
import RayTracer.Proofs.Number.Numeral

/-!
# Singles read back from their text

A finite single is written as a numeral that is rounded to it (`NumberStyle.exists_numeral`).  The
reader rounds numerals correctly, so it gives the single back.

* `Numeral.ofText?_text_iff` : **the reader of singles rounds every numeral correctly.**
* `Float32.ofText?_text` : **every single reads back from its literal**, signed zeros, infinities
  and the value that is no number included.
* `Float32.isLiteralChar_of_mem_text` : letters, digits, points and minus signs are the only
  characters of a number.
* `Float32.allDecimal_text`, `Float32.text_of_not_isFinite` : a number is written as a decimal
  exactly if it is finite.
-/

namespace RayTracer

/-! ### Singles -/

/-- A digit is no letter, and stays as it is where letters become small. -/
theorem toLower_of_isDigit {c : Char} (h : c.isDigit = true) : c.toLower = c := by
  have hle : c.val ≤ 57 := by
    simp only [Char.isDigit, Bool.and_eq_true, decide_eq_true_eq] at h
    exact h.2
  have hupper : ¬(65 ≤ c.val ∧ c.val ≤ 90) := by
    rintro ⟨hge, -⟩
    exact absurd (UInt32.le_trans hge hle) (by decide)
  unfold Char.toLower
  exact dif_neg hupper

end RayTracer

namespace Float32

open RayTracer

/-- A single is made of its sign and its magnitude word. -/
theorem ofWord_toBits (x : Float32) :
    ofWord (BinaryFormat.single.signBit ≤ x.toBits.toNat)
      (x.toBits.toNat % BinaryFormat.single.signBit) = x := by
  have hlt : x.toBits.toNat < 4294967296 := x.toBits.toNat_lt
  have hsign : BinaryFormat.single.signBit = 2147483648 := rfl
  have hword : BinaryFormat.single.signed (BinaryFormat.single.signBit ≤ x.toBits.toNat)
      (x.toBits.toNat % BinaryFormat.single.signBit) = x.toBits.toNat := by
    simp only [BinaryFormat.signed, decide_eq_true_eq, hsign]
    split <;> omega
  rw [ofWord, hword, UInt32.ofNat_toNat, ofBits_toBits]

open Float.Model in
/-- The exponent stands behind the 23 digits of the significand. -/
theorem toNat_unpackExponent (x : Float32) :
    (@UnpackedFloat.unpackExponent Format.binary32 x.toBits.toBitVec).toNat =
      x.toBits.toNat / 2 ^ 23 % 256 := by
  rw [UnpackedFloat.unpackExponent_def, BitVec.extractLsb'_toNat]
  change x.toBits.toNat >>> 23 % 256 = _
  rw [Nat.shiftRight_eq_div_pow]

open Float.Model in
/-- There is one value that is no number. -/
theorem eq_undefined {x : Float32}
    (h : BinaryFormat.single.infinity < x.toBits.toNat % BinaryFormat.single.signBit) :
    x = undefined := by
  have hword : 0x7f800000 < x.toBits.toNat % 0x80000000 := h
  have hvalid : Format.binary32.Valid x.toBits.toBitVec := x.toModel.valid
  have hexponent : @UnpackedFloat.unpackExponent Format.binary32 x.toBits.toBitVec =
      -1#8 := by
    apply BitVec.eq_of_toNat_eq
    rw [toNat_unpackExponent]
    change _ = 255
    omega
  have hmantissa : @UnpackedFloat.unpackMantissa Format.binary32 x.toBits.toBitVec ≠
      0#23 := by
    rw [UnpackedFloat.unpackMantissa_def]
    intro hzero
    have hnat := congrArg BitVec.toNat hzero
    rw [BitVec.extractLsb'_toNat] at hnat
    change x.toBits.toNat >>> 0 % 8388608 = 0 at hnat
    rw [Nat.shiftRight_zero] at hnat
    omega
  rw [← toBits_inj, ← UInt32.toBitVec_inj, hvalid.eq_packedNaN hexponent hmantissa]
  decide +kernel

open Float.Model in
/-- The finite values are those below infinity in magnitude. -/
theorem isFinite_iff (x : Float32) : x.isFinite = true ↔
    x.toBits.toNat % BinaryFormat.single.signBit < BinaryFormat.single.infinity := by
  have hones : @UnpackedFloat.unpackExponent Format.binary32 x.toBits.toBitVec = -1#8 ↔
      x.toBits.toNat / 2 ^ 23 % 256 = 255 := by
    rw [← toNat_unpackExponent]
    exact ⟨congrArg BitVec.toNat, fun h => BitVec.eq_of_toNat_eq h⟩
  have hword : x.toBits.toNat % 0x80000000 < 0x7f800000 ↔
      ¬x.toBits.toNat / 2 ^ 23 % 256 = 255 := by
    omega
  change (UnpackedFloat.unpack Format.binary32 x.toBits.toBitVec).isFinite = true ↔
    x.toBits.toNat % 0x80000000 < 0x7f800000
  rw [hword, ← hones]
  unfold UnpackedFloat.unpack
  dsimp only
  split
  · rename_i h
    refine iff_of_false ?_ (not_not.2 h)
    split <;> exact nofun
  · rename_i h
    refine iff_of_true ?_ h
    split
    · split <;> rfl
    · rfl

theorem ofUnsignedText?_of_isDigit {negative : Bool} {c : Char} {rest : List Char}
    (h : c.isDigit = true) : ofUnsignedText? negative (c :: rest) =
      (Decimal.ofText? (c :: rest)).map fun d => .ofWord negative d.singleWord := by
  have hletter : ∀ d l, d.isDigit = false → String.ofList ((c :: rest).map Char.toLower) ≠
      String.ofList (d :: l) := by
    intro d l hd heq
    rw [List.map_cons, toLower_of_isDigit h] at heq
    have hcons := List.cons.inj (String.ofList_injective heq)
    rw [hcons.1, hd] at h
    cases h
  have hinf : String.ofList ((c :: rest).map Char.toLower) ≠ "inf" :=
    hletter 'i' ['n', 'f'] (by decide)
  have hinfinity : String.ofList ((c :: rest).map Char.toLower) ≠ "infinity" :=
    hletter 'i' ['n', 'f', 'i', 'n', 'i', 't', 'y'] (by decide)
  have hnan : String.ofList ((c :: rest).map Char.toLower) ≠ "nan" :=
    hletter 'n' ['a', 'n'] (by decide)
  simp only [ofUnsignedText?, hinf, hinfinity, hnan, or_self, if_false]

/-- The sign in front of a text that starts with none. -/
theorem ofText?_sign {negative : Bool} {c : Char} {rest : List Char} (hminus : c ≠ '-')
    (hplus : c ≠ '+') : ofText? ((if negative then ['-'] else []) ++ c :: rest) =
      ofUnsignedText? negative (c :: rest) := by
  cases negative with
  | true => rfl
  | false =>
    rw [if_neg (by decide), List.nil_append, ofText?]
    · exact fun _ h => hminus (List.cons.inj h).1
    · exact fun _ h => hplus (List.cons.inj h).1

theorem ofText?_sign_of_isDigit {negative : Bool} {c : Char} {rest : List Char}
    (h : c.isDigit = true) : ofText? ((if negative then ['-'] else []) ++ c :: rest) =
      (Decimal.ofText? (c :: rest)).map fun d => .ofWord negative d.singleWord := by
  rw [ofText?_sign, ofUnsignedText?_of_isDigit h]
  · rintro rfl
    exact absurd h (by decide)
  · rintro rfl
    exact absurd h (by decide)

end Float32

namespace RayTracer

/-- **The reader of singles rounds every numeral correctly.** -/
theorem Numeral.ofText?_text_iff {n : Numeral} (h : n.IsWellFormed) (x : Float32) :
    Float32.ofText? n.text = some x ↔ n.RoundsTo x := by
  have hread := Numeral.ofText?_unsignedText h
  obtain ⟨c, rest, htext, hc⟩ := Numeral.exists_digit_unsignedText h
  rw [htext] at hread
  rw [Numeral.text, htext, Float32.ofText?_sign_of_isDigit hc, hread, Option.map_some,
    Option.some.injEq, Decimal.singleWord_eq_word, Numeral.RoundsTo, ← n.value_decimal]
  simp only [Decimal.rounds_iff, exists_eq_left]
  exact eq_comm

end RayTracer

namespace Float32

open RayTracer

/-- The text of a sign and a magnitude word, infinity included, reads back. -/
theorem ofText?_ofWord {style : NumberStyle} (keeps : style.keepsFraction = true) (negative : Bool)
    {word : ℕ} (h : word ≤ BinaryFormat.single.infinity) :
    ofText? (style.ofWord negative word) = some (ofWord negative word) := by
  rcases h.lt_or_eq with below | rfl
  · obtain ⟨n, hn, -, htext, hrounds⟩ := style.exists_numeral keeps negative below
    rw [← htext, Numeral.ofText?_text_iff hn]
    exact hrounds
  · rw [NumberStyle.ofWord, if_neg (lt_irrefl _), if_pos rfl, ofText?_sign (by decide) (by decide)]
    rfl

/-- **Every single reads back from its literal.** -/
theorem ofText?_text (x : Float32) : ofText? (x.text .literal) = some x := by
  unfold text
  by_cases h : x.toBits.toNat % BinaryFormat.single.signBit ≤ BinaryFormat.single.infinity
  · exact (ofText?_ofWord rfl _ h).trans (congrArg some x.ofWord_toBits)
  · rw [NumberStyle.ofWord, if_pos (not_le.1 h), eq_undefined (not_le.1 h)]
    decide +kernel

end Float32

/-! ### Characters -/

namespace RayTracer

/-- The characters that occur in decimals. -/
def IsDecimalChar (c : Char) : Prop := c.isDigit = true ∨ c = '.' ∨ c = '-' ∨ c = 'e'

instance : DecidablePred IsDecimalChar :=
  fun c => inferInstanceAs (Decidable (c.isDigit = true ∨ c = '.' ∨ c = '-' ∨ c = 'e'))

/-- The characters that occur in numbers. -/
def IsLiteralChar (c : Char) : Prop := c.isAlphanum = true ∨ c = '.' ∨ c = '-'

instance : DecidablePred IsLiteralChar :=
  fun c => inferInstanceAs (Decidable (c.isAlphanum = true ∨ c = '.' ∨ c = '-'))

theorem IsDecimalChar.isLiteralChar {c : Char} (h : IsDecimalChar c) : IsLiteralChar c := by
  rcases h with h | rfl | rfl | rfl
  · exact .inl (by simp [Char.isAlphanum, h])
  all_goals decide

/-- Text in which only the characters of decimals occur. -/
def AllDecimal (l : List Char) : Prop := ∀ c ∈ l, IsDecimalChar c

instance (l : List Char) : Decidable (AllDecimal l) :=
  decidable_of_iff (l.all (fun c => decide (IsDecimalChar c)) = true) (by simp [AllDecimal])

/-- Text in which only the characters of numbers occur. -/
def AllLiteral (l : List Char) : Prop := ∀ c ∈ l, IsLiteralChar c

instance (l : List Char) : Decidable (AllLiteral l) :=
  decidable_of_iff (l.all (fun c => decide (IsLiteralChar c)) = true) (by simp [AllLiteral])

theorem AllDigits.allDecimal {l : List Char} (h : AllDigits l) : AllDecimal l :=
  fun c hc => .inl (h c hc)

theorem allDecimal_append {l m : List Char} : AllDecimal (l ++ m) ↔ AllDecimal l ∧ AllDecimal m :=
  List.forall_mem_append

theorem allDecimal_cons {c : Char} {l : List Char} :
    AllDecimal (c :: l) ↔ IsDecimalChar c ∧ AllDecimal l :=
  List.forall_mem_cons

namespace NumberStyle

variable {style : NumberStyle} {digits : List Char}

theorem allDecimal_positional (hd : AllDigits digits) (point : ℤ) :
    AllDecimal (style.positional digits point) := by
  unfold positional
  split
  · exact allDecimal_cons.2 ⟨by decide, allDecimal_cons.2 ⟨by decide,
      ((allDigits_zeros _).append hd).allDecimal⟩⟩
  split
  · refine allDecimal_append.2 ⟨(hd.append (allDigits_zeros _)).allDecimal, ?_⟩
    split <;> decide
  · refine allDecimal_append.2 ⟨fun c hc => hd.allDecimal c (List.mem_of_mem_take hc),
      allDecimal_cons.2 ⟨by decide, fun c hc => hd.allDecimal c (List.mem_of_mem_drop hc)⟩⟩

theorem allDecimal_exponential (hd : AllDigits digits) (point : ℤ) :
    AllDecimal (exponential digits point) := by
  have htake : AllDecimal (digits.take 1) := fun c hc => hd.allDecimal c (List.mem_of_mem_take hc)
  have hdrop : AllDecimal (digits.drop 1) := fun c hc => hd.allDecimal c (List.mem_of_mem_drop hc)
  have hfraction : AllDecimal (if (digits.drop 1).isEmpty then [] else '.' :: digits.drop 1) := by
    split
    · decide
    · exact allDecimal_cons.2 ⟨by decide, hdrop⟩
  have hsign : AllDecimal (if point - 1 < 0 then ['-'] else []) := by
    split <;> decide
  have hpower : AllDecimal (Decimal.digitsOf (point - 1).natAbs) :=
    (allDigits_digitsOf _).allDecimal
  exact allDecimal_append.2 ⟨allDecimal_append.2 ⟨allDecimal_append.2 ⟨htake, hfraction⟩,
    allDecimal_cons.2 ⟨by decide, hsign⟩⟩, hpower⟩

theorem allDecimal_magnitude (word : ℕ) : AllDecimal (style.magnitude word) := by
  unfold magnitude
  simp only
  split
  · exact allDecimal_exponential (allDigits_digitsOf _) _
  · exact allDecimal_positional (allDigits_digitsOf _) _

/-- Finite values are written as decimals. -/
theorem allDecimal_ofWord (negative : Bool) {word : ℕ} (h : word < BinaryFormat.single.infinity) :
    AllDecimal (style.ofWord negative word) := by
  rw [ofWord, if_neg h.not_gt, if_neg h.ne]
  refine allDecimal_append.2 ⟨by cases negative <;> decide, ?_⟩
  split
  · unfold zero
    split <;> decide
  · exact allDecimal_magnitude word

theorem ofWord_infinity (negative : Bool) :
    style.ofWord negative BinaryFormat.single.infinity =
      (if negative then ['-'] else []) ++ ['i', 'n', 'f'] := by
  rw [ofWord, if_neg (lt_irrefl _), if_pos rfl]

theorem ofWord_undefined (negative : Bool) {word : ℕ} (h : BinaryFormat.single.infinity < word) :
    style.ofWord negative word = ['N', 'a', 'N'] := by
  rw [ofWord, if_pos h]

theorem allLiteral_ofWord (negative : Bool) (word : ℕ) :
    AllLiteral (style.ofWord negative word) := by
  rcases lt_trichotomy word BinaryFormat.single.infinity with h | rfl | h
  · exact fun c hc => (allDecimal_ofWord negative h c hc).isLiteralChar
  · rw [ofWord_infinity]
    cases negative <;> decide
  · rw [ofWord_undefined negative h]
    decide

end NumberStyle

end RayTracer

namespace Float32

open RayTracer

/-- **Numbers are written with letters, digits, points and minus signs.** -/
theorem isLiteralChar_of_mem_text {x : Float32} {style : NumberStyle} {c : Char}
    (h : c ∈ x.text style) : IsLiteralChar c :=
  NumberStyle.allLiteral_ofWord _ _ c h

theorem allDecimal_text {x : Float32} (h : x.isFinite = true) (style : NumberStyle) :
    AllDecimal (x.text style) :=
  NumberStyle.allDecimal_ofWord _ (x.isFinite_iff.1 h)

/-- **Only values that are not finite are written as words.** -/
theorem text_of_not_isFinite {x : Float32} (h : ¬x.isFinite = true) (style : NumberStyle) :
    x.text style ∈ [['i', 'n', 'f'], ['-', 'i', 'n', 'f'], ['N', 'a', 'N']] := by
  rw [isFinite_iff, not_lt] at h
  unfold text
  dsimp only
  generalize decide (BinaryFormat.single.signBit ≤ x.toBits.toNat) = negative
  rcases h.eq_or_lt with heq | hlt
  · rw [← heq, NumberStyle.ofWord_infinity]
    cases negative <;> decide
  · rw [NumberStyle.ofWord_undefined negative hlt]
    decide

end Float32
