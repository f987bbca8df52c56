import RayTracer.Proofs.Number.Digits
import RayTracer.Proofs.Number.Nearest

/-!
# Decimals and the words they read back to

A `Decimal` stands for a number (`Decimal.value`), and the words that are read from it are judged
by that number.

* `Decimal.singleWord_eq_word` : judging numbers that are far out of range by their number of digits
  gives no other word than rounding them.
* `Decimal.word_shortest_eq` : **the shortest decimal of a word reads back to the word.**
* `Decimal.value_normalize` : zeros at the end of the digits belong to the exponent.
-/

namespace RayTracer

namespace Decimal

/-- The number that a decimal stands for. -/
def value (d : Decimal) : ℚ := d.digits * 10 ^ d.exponent

variable {f : BinaryFormat} {d : Decimal}

theorem cast_ratio (d : Decimal) :
    ((d.digits * power 10 d.exponent.toNat : ℕ) : ℚ) / (power 10 (-d.exponent).toNat : ℕ) =
      d.value := by
  have hten : (10 : ℚ) ^ d.exponent = power 10 d.exponent.toNat / power 10 (-d.exponent).toNat :=
    zpow_eq_power_div_power (by decide) d.exponent
  rw [value, hten, Nat.cast_mul, mul_div_assoc]

theorem word_eq_of_value {word : ℕ} (below : word < f.infinity) (h : d.value = f.value word) :
    d.word f = word :=
  BinaryFormat.nearest_exact (power_pos (by decide) _) below (by rw [cast_ratio, h])

/-! ### Numbers far out of range -/

/-- The position of the decimal point bounds the value. -/
theorem value_lt (d : Decimal) : d.value < 10 ^ (d.exponent + (digitsOf d.digits).length) := by
  have hdigits : (d.digits : ℚ) < 10 ^ ((digitsOf d.digits).length : ℤ) := by
    rw [zpow_natCast]
    exact_mod_cast lt_power_length d.digits
  rw [add_comm, zpow_add₀ (by norm_num), value]
  exact mul_lt_mul_of_pos_right hdigits (zpow_pos (by norm_num) _)

theorem le_value (h : 0 < d.digits) :
    10 ^ (d.exponent + (digitsOf d.digits).length - 1) ≤ d.value := by
  have hlength : 0 < (digitsOf d.digits).length := List.length_pos_iff.2 (digitsOf_ne_nil _)
  have hdigits : (10 : ℚ) ^ (((digitsOf d.digits).length - 1 : ℕ) : ℤ) ≤ d.digits := by
    rw [zpow_natCast]
    exact_mod_cast power_length_le h
  have hsplit : d.exponent + (digitsOf d.digits).length - 1 =
      ((digitsOf d.digits).length - 1 : ℕ) + d.exponent := by omega
  rw [hsplit, zpow_add₀ (by norm_num), value]
  exact mul_le_mul_of_nonneg_right hdigits (zpow_pos (by norm_num) _).le

theorem word_eq_zero (h : d.exponent + (digitsOf d.digits).length < -60) : d.word .single = 0 := by
  have htiny : 2 * d.value < 2 ^ BinaryFormat.single.leastExponent := by
    have hpow : (10 : ℚ) ^ (d.exponent + (digitsOf d.digits).length) ≤ 10 ^ (-60 : ℤ) :=
      zpow_le_zpow_right₀ (by norm_num) h.le
    have hleast : (2 : ℚ) * 10 ^ (-60 : ℤ) ≤ 2 ^ BinaryFormat.single.leastExponent := by
      norm_num [BinaryFormat.single]
    linarith [d.value_lt]
  rw [← cast_ratio] at htiny
  exact BinaryFormat.nearest_eq_zero (power_pos (by decide) _) htiny

theorem word_eq_infinity (hdigits : 0 < d.digits)
    (h : 60 < d.exponent + (digitsOf d.digits).length) :
    d.word .single = BinaryFormat.single.infinity := by
  have hhuge : (2 : ℚ) ^ (128 : ℤ) ≤ d.value := by
    have hpow : (10 : ℚ) ^ (60 : ℤ) ≤ 10 ^ (d.exponent + (digitsOf d.digits).length - 1) :=
      zpow_le_zpow_right₀ (by norm_num) (by omega)
    have hbound : (2 : ℚ) ^ (128 : ℤ) ≤ 10 ^ (60 : ℤ) := by norm_num
    linarith [le_value hdigits]
  rw [← cast_ratio] at hhuge
  exact BinaryFormat.nearest_single_eq_infinity (power_pos (by decide) _) hhuge

/-- **Judging by the number of digits gives the word that the decimal is rounded to.** -/
theorem singleWord_eq_word (d : Decimal) : d.singleWord = d.word .single := by
  unfold singleWord
  dsimp only
  split
  · rename_i hsmall
    rcases hsmall with hzero | hlow
    · rw [word, hzero, zero_mul, BinaryFormat.nearest, if_pos rfl]
    · exact (word_eq_zero hlow).symm
  rename_i hsmall
  split
  · rename_i hhigh
    exact (word_eq_infinity (Nat.pos_of_ne_zero fun h => hsmall (.inl h)) hhigh).symm
  · rfl

/-! ### The shortest decimal -/

theorem value_ofBinary (m : ℕ) (e : ℤ) : (ofBinary m e).value = m * 2 ^ e := by
  unfold ofBinary
  split
  · rename_i he
    rw [value, zpow_zero, mul_one, Nat.cast_mul, cast_power, ← zpow_natCast, Int.toNat_of_nonneg he,
      Nat.cast_ofNat]
  · rename_i he
    have hten : (10 : ℚ) ^ e = 5 ^ e * 2 ^ e := by
      rw [← mul_zpow]
      norm_num
    have hfive : (5 : ℚ) ^ ((-e).toNat : ℤ) * 5 ^ e = 1 := by
      rw [← zpow_add₀ (by norm_num), Int.toNat_of_nonneg (by omega), neg_add_cancel, zpow_zero]
    rw [value, hten, Nat.cast_mul, cast_power, ← zpow_natCast, Nat.cast_ofNat]
    calc (m : ℚ) * 5 ^ ((-e).toNat : ℤ) * (5 ^ e * 2 ^ e)
        = m * (5 ^ ((-e).toNat : ℤ) * 5 ^ e) * 2 ^ e := by ring
      _ = m * 2 ^ e := by rw [hfive, mul_one]

/-- **The shortest decimal of a word reads back to the word.** -/
theorem word_shortest_eq {word : ℕ} (below : word < BinaryFormat.single.infinity) :
    (shortest word).word .single = word := by
  rcases word_shortest word with hword | hexact
  · exact hword
  · refine word_eq_of_value below ?_
    rw [hexact, value_ofBinary]
    rfl

/-! ### Zeros at the end -/

/-- A list ends in as many zeros as are dropped from its end. -/
theorem eq_append_zeros (l : List Char) :
    l = (l.reverse.dropWhile (· == '0')).reverse ++
      List.replicate (l.length - (l.reverse.dropWhile (· == '0')).length) '0' := by
  have hsplit : l.reverse.takeWhile (· == '0') ++ l.reverse.dropWhile (· == '0') = l.reverse :=
    List.takeWhile_append_dropWhile
  have hzeros : l.reverse.takeWhile (· == '0') =
      List.replicate (l.reverse.takeWhile (· == '0')).length '0' := by
    refine List.eq_replicate_of_mem fun c hc => ?_
    simpa using List.all_eq_true.1 List.all_takeWhile c hc
  have hlength := congrArg List.length hsplit
  rw [List.length_append, List.length_reverse] at hlength
  have hcount : l.length - (l.reverse.dropWhile (· == '0')).length =
      (l.reverse.takeWhile (· == '0')).length := by omega
  calc l = (l.reverse.takeWhile (· == '0') ++ l.reverse.dropWhile (· == '0')).reverse := by
        rw [hsplit, List.reverse_reverse]
    _ = (l.reverse.dropWhile (· == '0')).reverse ++ (l.reverse.takeWhile (· == '0')).reverse :=
        List.reverse_append
    _ = _ := by rw [hzeros, List.reverse_replicate, hcount]

/-- **Zeros at the end of the digits belong to the exponent.** -/
theorem value_normalize (d : Decimal) : d.normalize.value = d.value := by
  have hzeros := eq_append_zeros (digitsOf d.digits)
  generalize hkept : (digitsOf d.digits).reverse.dropWhile (· == '0') = kept at hzeros
  generalize hdropped : (digitsOf d.digits).length - kept.length = dropped at hzeros
  have hdigits : d.digits = power 10 dropped * naturalOfDigits kept.reverse := by
    rw [← naturalOfDigits_digitsOf d.digits, hzeros, naturalOfDigits_append, naturalOfDigits_zeros,
      List.length_replicate, add_zero]
  have hquotient : d.digits / power 10 dropped = naturalOfDigits kept.reverse := by
    rw [hdigits, Nat.mul_div_cancel_left _ (power_pos (by decide) _)]
  have hnormalize : d.normalize = ⟨naturalOfDigits kept.reverse, d.exponent + dropped⟩ := by
    simp only [normalize, hkept, hdropped, hquotient]
  rw [hnormalize, value, value, hdigits, Nat.cast_mul, cast_power, zpow_add₀ (by norm_num),
    zpow_natCast, Nat.cast_ofNat]
  ring

end Decimal

end RayTracer
