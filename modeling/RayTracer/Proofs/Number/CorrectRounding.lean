import Mathlib.Tactic.LinearCombination
import RayTracer.Proofs.Number.Shortest

/-!
# Correct rounding

A number is rounded correctly if no other value of the format is nearer to it, and if it goes to
the even significand where another one is equally near (`BinaryFormat.Rounds`).  This says nothing
about how the word is found.

* `BinaryFormat.value_succ`, `BinaryFormat.strictMono_value` : consecutive words stand for
  consecutive values, also where the exponent changes.
* `BinaryFormat.Rounds.unique` : a number is rounded correctly in one way.
* `BinaryFormat.rounds_iff` : **`BinaryFormat.nearest` rounds correctly.**
* `Decimal.rounds_shortest` : the shortest decimal of a word is rounded to the word.

The exponent at which a quotient has a significand of full length puts it between two consecutive
words (`BinaryFormat.exists_between`), so only these two have to be compared.
-/

namespace RayTracer

namespace BinaryFormat

/-- No magnitude word stands for a value nearer to `q`, and the significand is even if another one
is equally near.  Infinity counts as the power of two above the greatest finite value. -/
structure Rounds (f : BinaryFormat) (q : ℚ) (word : ℕ) : Prop where
  le_infinity : word ≤ f.infinity
  le_distance : ∀ w ≤ f.infinity, |q - f.value word| ≤ |q - f.value w|
  even : ∀ w ≤ f.infinity, w ≠ word → |q - f.value word| = |q - f.value w| →
    f.significand word % 2 = 0

variable {f : BinaryFormat}

/-! ### Consecutive words -/

/-- The words from one power of two up to the next. -/
theorem value_block {r : ℕ} (h : r < f.stride) (k : ℕ) :
    f.value (r + f.stride * (k + 1)) = (r + f.stride : ℕ) * 2 ^ (f.leastExponent + k) := by
  have hle : f.stride ≤ r + f.stride * (k + 1) := by
    rw [Nat.mul_succ]
    omega
  have hdiv : (r + f.stride * (k + 1)) / f.stride = k + 1 := by
    rw [Nat.add_mul_div_left _ _ f.stride_pos, Nat.div_eq_of_lt h, Nat.zero_add]
  have hmod : (r + f.stride * (k + 1)) % f.stride = r := by
    rw [Nat.add_mul_mod_self_left, Nat.mod_eq_of_lt h]
  have hexponent : f.leastExponent + ((k + 1 : ℕ) : ℤ) - 1 = f.leastExponent + k := by
    push_cast
    ring
  rw [value, significand, exponent, if_neg hle.not_gt, if_neg hle.not_gt, hdiv, hmod, hexponent]

/-- The word of a significand, one step beyond the full length included. -/
theorem value_word {e : ℤ} {m : ℕ} (least : f.leastExponent ≤ e) (upper : m ≤ 2 * f.stride)
    (full : f.stride ≤ m ∨ e = f.leastExponent) :
    f.value ((e - f.leastExponent).toNat * f.stride + m) = m * 2 ^ e := by
  have hpos := f.stride_pos
  obtain ⟨k, rfl⟩ := Int.le.dest least
  have hk : (f.leastExponent + k - f.leastExponent).toNat = k := by omega
  rw [hk]
  rcases Nat.lt_or_ge m f.stride with hlt | hge
  · have hzero : k = 0 := by
      have := full.resolve_left hlt.not_ge
      omega
    rw [hzero, Nat.zero_mul, Nat.zero_add, value, significand, exponent, if_pos hlt, if_pos hlt,
      Nat.cast_zero, add_zero]
  rcases upper.lt_or_eq with hlt | rfl
  · have hword : k * f.stride + m = (m - f.stride) + f.stride * (k + 1) := by
      rw [Nat.mul_succ, Nat.mul_comm]
      omega
    have hm : m - f.stride + f.stride = m := Nat.sub_add_cancel hge
    rw [hword, value_block (by omega), hm]
  · -- the carry goes to the next power of two
    have hword : k * f.stride + 2 * f.stride = 0 + f.stride * (k + 1 + 1) := by ring
    rw [hword, value_block hpos, Nat.zero_add, Nat.cast_succ, ← add_assoc,
      zpow_add_one₀ (by norm_num)]
    push_cast
    ring

/-- **From each word to the next the value grows by one in the last place.** -/
theorem value_succ (f : BinaryFormat) (word : ℕ) :
    f.value (word + 1) = f.value word + 2 ^ f.exponent word := by
  have hword : f.leastExponent ≤ f.exponent word ∧ f.significand word < 2 * f.stride ∧
      (f.stride ≤ f.significand word ∨ f.exponent word = f.leastExponent) ∧
      word = (f.exponent word - f.leastExponent).toNat * f.stride + f.significand word := by
    rcases f.word_cases word with ⟨hexp, hlt, hword⟩ | ⟨hleast, hle, hlt, hword⟩
    · refine ⟨hexp.ge, by omega, .inr hexp, ?_⟩
      rwa [hexp, Int.sub_self, Int.toNat_zero, Nat.zero_mul, Nat.zero_add]
    · exact ⟨hleast, hlt, .inl hle, hword⟩
  obtain ⟨hleast, hlt, hfull, hword⟩ := hword
  have hnext := value_word hleast (Nat.succ_le_of_lt hlt)
    (hfull.imp_left fun h => h.trans (Nat.le_succ _))
  rw [Nat.add_succ, ← hword] at hnext
  rw [hnext, value, Nat.cast_succ, add_mul, one_mul]

theorem strictMono_value (f : BinaryFormat) : StrictMono f.value := by
  refine strictMono_nat_of_lt_succ fun word => ?_
  rw [f.value_succ]
  exact lt_add_of_pos_right _ (zpow_pos (by norm_num) _)

/-- Significands and words are even together, if there are stored bits. -/
theorem significand_mod_two (heven : 2 ∣ f.stride) (word : ℕ) :
    f.significand word % 2 = word % 2 := by
  obtain ⟨k, hk⟩ := heven
  rcases f.word_cases word with ⟨-, -, hword⟩ | ⟨-, -, -, hword⟩
  · rw [← hword]
  · generalize f.significand word = m at hword ⊢
    generalize (f.exponent word - f.leastExponent).toNat = e at hword
    rw [hword, hk, mul_left_comm, Nat.mul_add_mod]

/-! ### Between two words -/

section Between

variable {q : ℚ} {b : ℕ}

theorem lt_distance_of_lt (low : f.value b ≤ q) {w : ℕ} (h : w < b) :
    |q - f.value b| < |q - f.value w| := by
  have hlt := f.strictMono_value h
  rw [abs_of_nonneg (by linarith), abs_of_nonneg (by linarith)]
  linarith

theorem lt_distance_of_gt (high : q ≤ f.value b) {w : ℕ} (h : b < w) :
    |q - f.value b| < |q - f.value w| := by
  have hlt := f.strictMono_value h
  rw [abs_of_nonpos (by linarith), abs_of_nonpos (by linarith)]
  linarith

/-- Between two consecutive words, the nearer one of them is the nearest of all. -/
theorem rounds_of_between (below : b < f.infinity) (low : f.value b ≤ q)
    (high : q ≤ f.value (b + 1)) {word : ℕ}
    (near : (word = b ∧ q - f.value b ≤ f.value (b + 1) - q) ∨
      (word = b + 1 ∧ f.value (b + 1) - q ≤ q - f.value b))
    (even : q - f.value b = f.value (b + 1) - q → f.significand word % 2 = 0) :
    f.Rounds q word := by
  have hlow : |q - f.value b| = q - f.value b := abs_of_nonneg (sub_nonneg.2 low)
  have hhigh : |q - f.value (b + 1)| = f.value (b + 1) - q := by
    rw [abs_sub_comm, abs_of_nonneg (sub_nonneg.2 high)]
  have hnear : |q - f.value word| ≤ |q - f.value b| ∧
      |q - f.value word| ≤ |q - f.value (b + 1)| := by
    rcases near with ⟨rfl, h⟩ | ⟨rfl, h⟩
    · exact ⟨le_rfl, by rwa [hlow, hhigh]⟩
    · exact ⟨by rwa [hlow, hhigh], le_rfl⟩
  have hcases (w : ℕ) : w < b ∨ w = b ∨ w = b + 1 ∨ b + 1 < w := by omega
  refine ⟨by omega, fun w _ => ?_, fun w _ hne heq => ?_⟩
  · rcases hcases w with h | rfl | rfl | h
    · exact hnear.1.trans (lt_distance_of_lt low h).le
    · exact hnear.1
    · exact hnear.2
    · exact hnear.2.trans (lt_distance_of_gt high h).le
  · rcases hcases w with h | rfl | rfl | h
    · exact absurd heq (hnear.1.trans_lt (lt_distance_of_lt low h)).ne
    · obtain rfl : word = w + 1 := (near.resolve_left fun h => hne h.1.symm).1
      exact even (by rw [← hlow, ← hhigh, heq])
    · obtain rfl : word = b := (near.resolve_right fun h => hne h.1.symm).1
      exact even (by rw [← hlow, ← hhigh, heq])
    · exact absurd heq (hnear.2.trans_lt (lt_distance_of_gt high h)).ne

/-- From the value of infinity on, infinity is nearest. -/
theorem rounds_infinity (large : f.value f.infinity ≤ q) : f.Rounds q f.infinity where
  le_infinity := le_rfl
  le_distance w hw := by
    rcases hw.lt_or_eq with h | rfl
    · exact (lt_distance_of_lt large h).le
    · exact le_rfl
  even w hw hne heq := absurd heq (lt_distance_of_lt large (lt_of_le_of_ne hw hne)).ne

end Between

/-- **A number is rounded correctly in one way.** -/
theorem Rounds.unique (heven : 2 ∣ f.stride) {q : ℚ} {word word' : ℕ} (h : f.Rounds q word)
    (h' : f.Rounds q word') : word = word' := by
  by_contra hne
  wlog hlt : word < word' generalizing word word'
  · exact this h' h (Ne.symm hne) (by omega)
  have heq : |q - f.value word| = |q - f.value word'| :=
    le_antisymm (h.le_distance word' h'.le_infinity) (h'.le_distance word h.le_infinity)
  -- two even words are not consecutive, and what lies between them is nearer
  have heven₁ := h.even word' h'.le_infinity (Ne.symm hne) heq
  have heven₂ := h'.even word h.le_infinity hne heq.symm
  rw [significand_mod_two heven] at heven₁ heven₂
  have hbetween : word + 1 < word' := by omega
  have below : word + 1 ≤ f.infinity := hbetween.le.trans h'.le_infinity
  rcases le_total (f.value (word + 1)) q with hle | hle
  · exact (h.le_distance _ below).not_gt (lt_distance_of_lt hle (Nat.lt_succ_self word))
  · exact (h'.le_distance _ below).not_gt (lt_distance_of_gt hle hbetween)

/-! ### Rounding a fraction -/

section Fraction

variable {n d : ℕ}

/-- The integral part of a quotient in units of the last place. -/
theorem exists_floor (f : BinaryFormat) (hn : 0 < n) (hd : 0 < d) :
    ∃ m : ℕ, f.leastExponent ≤ f.targetExponent n d ∧ m < 2 * f.stride ∧
      (f.stride ≤ m ∨ f.targetExponent n d = f.leastExponent) ∧
      m * 2 ^ f.targetExponent n d ≤ (n / d : ℚ) ∧
      (n / d : ℚ) < (m + 1 : ℕ) * 2 ^ f.targetExponent n d := by
  obtain ⟨t, ht, hfull⟩ := f.exists_targetExponent hn hd
  rw [ht]
  generalize he : max f.leastExponent t = e
  have hfloor := div_lt_iff (n := n) hd e
  generalize n * power 2 (-e).toNat / (d * power 2 e.toNat) = m at hfloor
  have hpow : (2 : ℚ) ^ t ≤ 2 ^ e := zpow_le_zpow_right₀ (by norm_num) (by omega)
  refine ⟨m, by omega, (hfloor _).2 ?_, ?_, ?_, (hfloor _).1 (Nat.lt_succ_self m)⟩
  · push_cast
    exact hfull.lt.trans_le (mul_le_mul_of_nonneg_left hpow (by positivity))
  · rcases le_total t f.leastExponent with hle | hle
    · exact .inr (by omega)
    · obtain rfl : t = e := by omega
      exact .inl (not_lt.1 fun hlt => ((hfloor _).1 hlt).not_ge hfull.le)
  · exact not_lt.1 fun hlt => lt_irrefl m ((hfloor m).2 hlt)

/-- A quotient in units of the last place, as the two numbers that are divided for it. -/
theorem quotient_mul_divisor (hd : 0 < d) (e : ℤ) :
    (n / d : ℚ) * (d * power 2 e.toNat : ℕ) = (n * power 2 (-e).toNat : ℕ) * 2 ^ e := by
  have htwo : (2 : ℚ) ^ e = power 2 e.toNat / power 2 (-e).toNat :=
    zpow_eq_power_div_power (by decide) e
  have hpos : (0 : ℚ) < power 2 (-e).toNat := Nat.cast_pos.2 (power_pos (by decide) _)
  have hd' : (0 : ℚ) < d := Nat.cast_pos.2 hd
  rw [htwo]
  push_cast
  field_simp

/-- The nearer one of two neighbours on a grid is taken, and in the middle the even one. -/
theorem roundedQuotient_cases (hd : 0 < d) {m : ℕ} {e : ℤ} (low : m * 2 ^ e ≤ (n / d : ℚ))
    (high : (n / d : ℚ) < (m + 1 : ℕ) * 2 ^ e) :
    ((roundedQuotient n d e = m ∧
        (n / d - m * 2 ^ e : ℚ) ≤ (m + 1 : ℕ) * 2 ^ e - n / d) ∨
      (roundedQuotient n d e = m + 1 ∧
        ((m + 1 : ℕ) * 2 ^ e - n / d : ℚ) ≤ n / d - m * 2 ^ e)) ∧
    ((n / d - m * 2 ^ e : ℚ) = (m + 1 : ℕ) * 2 ^ e - n / d → roundedQuotient n d e % 2 = 0) := by
  have hfloor := div_lt_iff (n := n) hd e
  have hm : n * power 2 (-e).toNat / (d * power 2 e.toNat) = m :=
    le_antisymm (Nat.lt_succ_iff.1 ((hfloor (m + 1)).2 high))
      (not_lt.1 fun hlt => ((hfloor m).1 hlt).not_ge low)
  have hD : (0 : ℚ) < (d * power 2 e.toNat : ℕ) :=
    Nat.cast_pos.2 (Nat.mul_pos hd (power_pos (by decide) _))
  have hscale := quotient_mul_divisor (n := n) hd e
  have hdiv := Nat.div_add_mod (n * power 2 (-e).toNat) (d * power 2 e.toNat)
  simp only [roundedQuotient, hm] at hdiv ⊢
  generalize hr : n * power 2 (-e).toNat % (d * power 2 e.toNat) = r at hdiv ⊢
  rw [← hdiv] at hscale
  generalize d * power 2 e.toNat = D at *
  have hp : (0 : ℚ) < 2 ^ e := zpow_pos (by norm_num) e
  generalize (2 : ℚ) ^ e = p at *
  generalize (n / d : ℚ) = q at *
  push_cast at hscale ⊢
  -- both distances are integers in units of the last place over the divisor
  have hbelow : (q - m * p) * D = r * p := by linear_combination hscale
  have habove : ((m + 1) * p - q) * D = (D - r) * p := by linear_combination -hscale
  have hle : q - m * p ≤ (m + 1) * p - q ↔ 2 * r ≤ D := by
    rw [← mul_le_mul_iff_of_pos_right hD, hbelow, habove, mul_le_mul_iff_of_pos_right hp,
      le_sub_iff_add_le, ← two_mul]
    exact_mod_cast Iff.rfl
  have hge : (m + 1) * p - q ≤ q - m * p ↔ D ≤ 2 * r := by
    rw [← mul_le_mul_iff_of_pos_right hD, hbelow, habove, mul_le_mul_iff_of_pos_right hp,
      sub_le_iff_le_add, ← two_mul]
    exact_mod_cast Iff.rfl
  have heq : q - m * p = (m + 1) * p - q ↔ 2 * r = D := by
    rw [le_antisymm_iff, hle, hge, ← le_antisymm_iff]
  rw [hle, hge, heq]
  split <;> omega

/-- **`BinaryFormat.nearest` rounds to a correct word.** -/
theorem rounds_nearest (heven : 2 ∣ f.stride) (hd : 0 < d) (n : ℕ) :
    f.Rounds (n / d) (f.nearest n d) := by
  rcases Nat.eq_zero_or_pos n with rfl | hn
  · have hzero : f.value 0 = 0 := by simp [value, significand, f.stride_pos]
    rw [nearest, if_pos rfl, Nat.cast_zero, zero_div]
    refine ⟨Nat.zero_le _, fun w _ => ?_, fun w _ _ _ => significand_mod_two heven 0⟩
    rw [hzero, sub_zero, abs_zero]
    exact abs_nonneg _
  obtain ⟨m, hleast, hupper, hfull, hlow, hhigh⟩ := f.exists_floor hn hd
  rw [nearest, if_neg hn.ne']
  simp only
  generalize f.targetExponent n d = e at *
  obtain ⟨hnear, htie⟩ := roundedQuotient_cases hd hlow hhigh
  have hvalue := value_word hleast hupper.le hfull
  have hnext := value_word hleast hupper (hfull.imp_left Nat.le_succ_of_le)
  have hparity (k : ℕ) :
      f.significand ((e - f.leastExponent).toNat * f.stride + k) % 2 = k % 2 := by
    obtain ⟨s, hs⟩ := id heven
    rw [significand_mod_two heven, hs, mul_left_comm, Nat.mul_add_mod]
  rw [← hvalue] at hlow hnear htie
  rw [Nat.succ_eq_add_one] at hnext
  rw [← hnext] at hhigh hnear htie
  generalize (e - f.leastExponent).toNat * f.stride = base at *
  generalize roundedQuotient n d e = k at *
  rcases Nat.lt_or_ge (base + m) f.infinity with below | above
  · rw [min_eq_right (by omega)]
    refine rounds_of_between below hlow hhigh.le ?_ fun htied => ?_
    · exact hnear.imp (And.imp_left (congrArg (base + ·))) (And.imp_left (congrArg (base + ·)))
    · rw [hparity, htie htied]
  · rw [min_eq_left (by omega)]
    exact rounds_infinity ((f.strictMono_value.monotone above).trans hlow)

/-- **`BinaryFormat.nearest` rounds correctly.** -/
theorem rounds_iff (heven : 2 ∣ f.stride) (hd : 0 < d) {word : ℕ} :
    f.Rounds (n / d) word ↔ word = f.nearest n d := by
  constructor
  · intro h
    exact h.unique heven (rounds_nearest heven hd n)
  · rintro rfl
    exact rounds_nearest heven hd n

end Fraction

theorem two_dvd_stride_single : 2 ∣ single.stride := by decide +kernel

end BinaryFormat

namespace Decimal

/-- **The word of a decimal is the correctly rounded one.** -/
theorem rounds_iff {d : Decimal} {word : ℕ} :
    BinaryFormat.single.Rounds d.value word ↔ word = d.word .single := by
  rw [← cast_ratio,
    BinaryFormat.rounds_iff BinaryFormat.two_dvd_stride_single (power_pos (by decide) _)]
  rfl

/-- The shortest decimal of a word is rounded to the word. -/
theorem rounds_shortest {word : ℕ} (below : word < BinaryFormat.single.infinity) :
    BinaryFormat.single.Rounds (shortest word).value word :=
  rounds_iff.2 (word_shortest_eq below).symm

end Decimal

end RayTracer
