import RayTracer.Proofs.Number.CorrectRounding

/-!
# The shortest decimal

The search for the decimal of a magnitude word tests two neighbours of the exact value on finer and
finer grids.

* `Decimal.exists_nineDigits` : **on the grid of nine digits one of them reads back**, so the exact
  expansion is never needed.
* `Decimal.digits_shortest_le` : **no decimal that reads back has fewer digits than the one that is
  found.**

What reads back to a word lies on both sides of its value without a gap
(`BinaryFormat.Rounds.convex`), and every decimal with as many digits as the grid has lies on the
grid or beyond a power of ten that does.
-/

namespace RayTracer

namespace BinaryFormat

variable {f : BinaryFormat} {q : ℚ} {word : ℕ}

/-- What lies between a number and the value that it is rounded to is rounded to that value too. -/
theorem Rounds.convex (h : f.Rounds q word) {q' : ℚ}
    (between : (f.value word ≤ q' ∧ q' ≤ q) ∨ (q ≤ q' ∧ q' ≤ f.value word)) :
    f.Rounds q' word := by
  have hsplit : |q - f.value word| = |q - q'| + |q' - f.value word| := by
    rcases between with ⟨hlow, hhigh⟩ | ⟨hlow, hhigh⟩
    · rw [abs_of_nonneg, abs_of_nonneg, abs_of_nonneg] <;> linarith
    · rw [abs_of_nonpos, abs_of_nonpos, abs_of_nonpos] <;> linarith
  have hthrough (w : ℕ) : |q - f.value w| ≤ |q - q'| + |q' - f.value w| := abs_sub_le _ _ _
  refine ⟨h.le_infinity, fun w hw => ?_, fun w hw hne heq => h.even w hw hne ?_⟩
  · linarith [h.le_distance w hw, hthrough w]
  · exact le_antisymm (h.le_distance w hw) (by linarith [hthrough w])

/-- The value behind a word is small, measured in the last place of the word. -/
theorem value_succ_le (f : BinaryFormat) (w : ℕ) :
    f.value (w + 1) ≤ 2 * f.stride * 2 ^ f.exponent w := by
  have hlt : f.significand w < 2 * f.stride := by
    rcases f.word_cases w with ⟨-, hlt, -⟩ | ⟨-, -, hlt, -⟩ <;> omega
  have hcast : ((f.significand w + 1 : ℕ) : ℚ) ≤ (2 * f.stride : ℕ) := Nat.cast_le.2 hlt
  have hpow : (0 : ℚ) < 2 ^ f.exponent w := zpow_pos (by norm_num) _
  push_cast at hcast
  calc f.value (w + 1) = (f.significand w + 1) * 2 ^ f.exponent w := by
        rw [f.value_succ, value]
        ring
    _ ≤ 2 * f.stride * 2 ^ f.exponent w := mul_le_mul_of_nonneg_right hcast hpow.le

/-- Measured in its distance from any other value, a value is small. -/
theorem value_le_gap (f : BinaryFormat) {w : ℕ} (hne : w ≠ word) :
    f.value word ≤ 2 * f.stride * |f.value w - f.value word| := by
  have hstride : (0 : ℚ) ≤ 2 * f.stride := by positivity
  rcases lt_or_gt_of_ne hne with hlt | hgt
  · -- the word is the next one after some `u`, and `w` is not above `u`
    obtain ⟨u, rfl⟩ : ∃ u, word = u + 1 := ⟨word - 1, by omega⟩
    have hle := f.strictMono_value.monotone (Nat.lt_succ_iff.1 hlt)
    have hgap : (2 : ℚ) ^ f.exponent u ≤ |f.value w - f.value (u + 1)| := by
      rw [abs_sub_comm]
      exact le_trans (by linarith [f.value_succ u]) (le_abs_self _)
    exact (f.value_succ_le u).trans (mul_le_mul_of_nonneg_left hgap hstride)
  · have hle := f.strictMono_value.monotone (Nat.succ_le_of_lt hgt)
    have hnext := f.strictMono_value (Nat.lt_succ_self word)
    have hgap : (2 : ℚ) ^ f.exponent word ≤ |f.value w - f.value word| :=
      le_trans (by linarith [f.value_succ word]) (le_abs_self _)
    exact (hnext.le.trans (f.value_succ_le word)).trans (mul_le_mul_of_nonneg_left hgap hstride)

/-- What is near to a value, measured in the value, is rounded to it. -/
theorem rounds_of_near (below : word ≤ f.infinity)
    (near : 4 * f.stride * |q - f.value word| < f.value word) : f.Rounds q word := by
  have hstride : (0 : ℚ) < f.stride := Nat.cast_pos.2 f.stride_pos
  have hlt {w : ℕ} (hne : w ≠ word) : |q - f.value word| < |q - f.value w| := by
    have hgap := f.value_le_gap hne
    have hthrough : |f.value w - f.value word| ≤ |q - f.value w| + |q - f.value word| := by
      rw [abs_sub_comm q]
      exact abs_sub_le _ _ _
    have hdouble : 2 * f.stride * (2 * |q - f.value word|) <
        2 * f.stride * (|q - f.value w| + |q - f.value word|) :=
      calc 2 * f.stride * (2 * |q - f.value word|) = 4 * f.stride * |q - f.value word| := by ring
        _ < f.value word := near
        _ ≤ 2 * f.stride * |f.value w - f.value word| := hgap
        _ ≤ 2 * f.stride * (|q - f.value w| + |q - f.value word|) := by gcongr
    linarith [lt_of_mul_lt_mul_left hdouble (by positivity)]
  refine ⟨below, fun w _ => ?_, fun w _ hne heq => absurd heq (hlt hne).ne⟩
  rcases eq_or_ne w word with rfl | hne
  · exact le_rfl
  · exact (hlt hne).le

end BinaryFormat

namespace Decimal

/-! ### The candidates -/

section Quotient

variable {n d : ℕ}

/-- The position of the point of a quotient. -/
theorem magnitude_bounds (hd : 0 < d) (large : (10 : ℚ) ^ (-60 : ℤ) ≤ n / d) :
    (10 : ℚ) ^ (magnitude n d - 1) ≤ n / d ∧ (n / d : ℚ) < 10 ^ magnitude n d := by
  have hten : (10 : ℚ) ≠ 0 := by norm_num
  have hbound (bound : ℕ) : n * power 10 60 / d < bound ↔
      (n : ℚ) / d < bound * 10 ^ (-60 : ℤ) := by
    have hscaled := scaled_div_lt_iff (n := n) (show 10 ≠ 0 by decide) hd (-60) bound
    have hone : d * power 10 (-60 : ℤ).toNat = d := Nat.mul_one d
    rwa [hone] at hscaled
  rw [magnitude]
  generalize n * power 10 60 / d = m at hbound
  have hpos : 0 < m := by
    refine not_le.1 fun hle => ?_
    have hlt := (hbound 1).1 (by omega)
    rw [Nat.cast_one, one_mul] at hlt
    exact hlt.not_ge large
  have hlength : 0 < (digitsOf m).length := List.length_pos_iff.2 (digitsOf_ne_nil m)
  constructor
  · have hle := mt (hbound _).2 (power_length_le hpos).not_gt
    rw [not_lt, cast_power, Nat.cast_ofNat, ← zpow_natCast, ← zpow_add₀ hten] at hle
    have hexponent : (((digitsOf m).length - 1 : ℕ) : ℤ) + -60 = (digitsOf m).length - 60 - 1 := by
      omega
    rwa [hexponent] at hle
  · have hlt := (hbound _).1 (lt_power_length m)
    rw [cast_power, Nat.cast_ofNat, ← zpow_natCast, ← zpow_add₀ hten] at hlt
    exact hlt

/-- The two decimals next to a quotient on a grid. -/
theorem exists_neighbours (hd : 0 < d) (e : ℤ) :
    ∃ a : ℕ, (∀ c, c ∈ neighbours n d e ↔ c = ⟨a, e⟩ ∨ c = ⟨a + 1, e⟩) ∧
      Decimal.value ⟨a, e⟩ ≤ n / d ∧ (n / d : ℚ) < Decimal.value ⟨a + 1, e⟩ := by
  have hbound := scaled_div_lt_iff (n := n) (show 10 ≠ 0 by decide) hd e
  refine ⟨n * power 10 (-e).toNat / (d * power 10 e.toNat), fun c => ?_, ?_, ?_⟩
  · simp only [neighbours]
    split <;> simp [or_comm]
  · exact not_lt.1 fun hlt => lt_irrefl _ ((hbound _).2 hlt)
  · exact (hbound _).1 (Nat.lt_succ_self _)

end Quotient

/-- The exact expansion of the value of a word. -/
def expansion (word : ℕ) : Decimal :=
  ofBinary (BinaryFormat.single.significand word) (BinaryFormat.single.exponent word)

/-- The decimals of `k + 1` digits that are tested for a word. -/
def candidates (word k : ℕ) : List Decimal :=
  let n := (expansion word).digits * power 10 (expansion word).exponent.toNat
  let d := power 10 (-(expansion word).exponent).toNat
  neighbours n d (magnitude n d - (k + 1 : ℕ))

/-- The first candidate that reads back is taken. -/
theorem shortest_eq (word : ℕ) : shortest word =
    (((List.range 9).flatMap (candidates word)).find? fun c => c.word .single == word).getD
      (expansion word) := rfl

/-- If a candidate reads back, one with no more digits is taken. -/
theorem shortest_mem_candidates {word k : ℕ} (hk : k < 9)
    (h : ∃ c ∈ candidates word k, c.word .single = word) :
    ∃ j ≤ k, shortest word ∈ candidates word j := by
  obtain ⟨c, hc, hword⟩ := h
  obtain ⟨rest, hrest⟩ : ∃ rest, 9 = k + 1 + rest := ⟨8 - k, by omega⟩
  have hfound : (((List.range (k + 1)).flatMap (candidates word)).find?
      fun c => c.word .single == word).isSome = true :=
    List.find?_isSome.2 ⟨c, List.mem_flatMap.2 ⟨k, List.mem_range.2 (Nat.lt_succ_self k), hc⟩,
      beq_iff_eq.2 hword⟩
  obtain ⟨c, hfind⟩ := Option.isSome_iff_exists.1 hfound
  have hshortest : shortest word = c := by
    rw [shortest_eq, hrest, List.range_add, List.flatMap_append, List.find?_append, hfind]
    rfl
  obtain ⟨j, hj, hmem⟩ := List.mem_flatMap.1 (List.mem_of_find?_eq_some hfind)
  exact ⟨j, Nat.lt_succ_iff.1 (List.mem_range.1 hj), hshortest ▸ hmem⟩

/-- The candidates are the decimals next to the value of the word on grids of more and more
digits. -/
theorem exists_candidates {word : ℕ} (hpos : 0 < word) :
    ∃ point : ℤ, (10 : ℚ) ^ (point - 1) ≤ BinaryFormat.single.value word ∧
      BinaryFormat.single.value word < 10 ^ point ∧ ∀ k, ∃ a : ℕ,
        (∀ c, c ∈ candidates word k ↔
          c = ⟨a, point - (k + 1 : ℕ)⟩ ∨ c = ⟨a + 1, point - (k + 1 : ℕ)⟩) ∧
        Decimal.value ⟨a, point - (k + 1 : ℕ)⟩ ≤ BinaryFormat.single.value word ∧
        BinaryFormat.single.value word < Decimal.value ⟨a + 1, point - (k + 1 : ℕ)⟩ := by
  have hd : 0 < power 10 (-(expansion word).exponent).toNat := power_pos (by decide) _
  have hquotient := cast_ratio (expansion word)
  rw [expansion, value_ofBinary, ← expansion, ← BinaryFormat.value] at hquotient
  have hlarge : (10 : ℚ) ^ (-60 : ℤ) ≤ BinaryFormat.single.value word := by
    have hleast : BinaryFormat.single.value 1 = 2 ^ (-149 : ℤ) := by
      norm_num [BinaryFormat.value, BinaryFormat.significand, BinaryFormat.exponent,
        BinaryFormat.stride, BinaryFormat.single, power]
    have hle := BinaryFormat.single.strictMono_value.monotone (Nat.succ_le_of_lt hpos)
    rw [Nat.succ_eq_add_one, Nat.zero_add, hleast] at hle
    exact le_trans (by norm_num) hle
  rw [← hquotient] at hlarge ⊢
  obtain ⟨hlow, hhigh⟩ := magnitude_bounds hd hlarge
  exact ⟨_, hlow, hhigh, fun k => exists_neighbours hd _⟩

/-! ### Enough digits -/

section Word

variable {word : ℕ} {c d : Decimal} {k : ℕ}

/-- The power of ten in front of the point, on the grid of `k + 1` digits. -/
theorem leading_power (point : ℤ) (k : ℕ) :
    (10 : ℚ) ^ (point - 1) = (power 10 k : ℕ) * 10 ^ (point - (k + 1 : ℕ)) := by
  rw [cast_power, Nat.cast_ofNat, ← zpow_natCast, ← zpow_add₀ (by norm_num)]
  congr 1
  push_cast
  ring

theorem digits_le_of_mem_candidates (hpos : 0 < word) (hc : c ∈ candidates word k) :
    c.digits ≤ power 10 (k + 1) := by
  obtain ⟨point, -, hhigh, hgrid⟩ := exists_candidates hpos
  obtain ⟨a, hmem, hle, -⟩ := hgrid k
  have hstep : (0 : ℚ) < 10 ^ (point - (k + 1 : ℕ)) := zpow_pos (by norm_num) _
  have hpoint : (10 : ℚ) ^ point = (power 10 (k + 1) : ℕ) * 10 ^ (point - (k + 1 : ℕ)) := by
    rw [cast_power, Nat.cast_ofNat, ← zpow_natCast, ← zpow_add₀ (by norm_num), add_sub_cancel]
  have hlt : a < power 10 (k + 1) := by
    have hvalue := hle.trans_lt hhigh
    rw [hpoint] at hvalue
    exact_mod_cast lt_of_mul_lt_mul_right hvalue hstep.le
  rcases (hmem c).1 hc with rfl | rfl
  · exact hlt.le
  · exact hlt

/-- **On the grid of nine digits a candidate reads back.** -/
theorem exists_nineDigits (hpos : 0 < word) (below : word < BinaryFormat.single.infinity) :
    ∃ c ∈ candidates word 8, c.word .single = word := by
  obtain ⟨point, hlow, -, hgrid⟩ := exists_candidates hpos
  obtain ⟨a, hmem, hle, hlt⟩ := hgrid 8
  have hstep : (10 : ℚ) ^ (point - 1) = (power 10 8 : ℕ) * 10 ^ (point - (8 + 1 : ℕ)) :=
    leading_power point 8
  have hstride : (BinaryFormat.single.stride : ℚ) = 8388608 := by
    norm_num [BinaryFormat.stride, BinaryFormat.single, power]
  have hreads (c : Decimal)
      (near : 2 * |c.value - BinaryFormat.single.value word| ≤ 10 ^ (point - (8 + 1 : ℕ))) :
      c.word .single = word := by
    refine (rounds_iff.1 (BinaryFormat.rounds_of_near below.le ?_)).symm
    have hpower : (0 : ℚ) < 10 ^ (point - (8 + 1 : ℕ)) := zpow_pos (by norm_num) _
    have hten : ((power 10 8 : ℕ) : ℚ) = 100000000 := by norm_num [power]
    rw [hstep, hten] at hlow
    rw [hstride]
    linarith
  have hnext : Decimal.value ⟨a + 1, point - (8 + 1 : ℕ)⟩ =
      Decimal.value ⟨a, point - (8 + 1 : ℕ)⟩ + 10 ^ (point - (8 + 1 : ℕ)) := by
    rw [value, value]
    push_cast
    ring
  -- the nearer one of the two is no farther than half of their distance
  rcases le_total (2 * (BinaryFormat.single.value word - Decimal.value ⟨a, point - (8 + 1 : ℕ)⟩))
    (10 ^ (point - (8 + 1 : ℕ))) with h | h
  · refine ⟨_, (hmem _).2 (.inl rfl), hreads _ ?_⟩
    rw [abs_of_nonpos (by linarith)]
    linarith
  · refine ⟨_, (hmem _).2 (.inr rfl), hreads _ ?_⟩
    rw [abs_of_nonneg (by linarith)]
    linarith

/-- A decimal of `k + 1` digits lies on the grid of as many digits, or below the power of ten in
front of the point. -/
theorem on_grid_or_lt (hk : d.digits < power 10 (k + 1)) (point : ℤ) :
    (∃ m : ℕ, d.value = m * 10 ^ (point - (k + 1 : ℕ))) ∨ d.value < 10 ^ (point - 1) := by
  have hten : (10 : ℚ) ≠ 0 := by norm_num
  rcases le_or_gt (point - (k + 1 : ℕ)) d.exponent with hle | hlt
  · obtain ⟨j, hj⟩ := Int.le.dest hle
    refine .inl ⟨d.digits * power 10 j, ?_⟩
    rw [value, ← hj, zpow_add₀ hten, Nat.cast_mul, cast_power, zpow_natCast, Nat.cast_ofNat]
    ring
  · right
    have hdigits : (d.digits : ℚ) < 10 ^ ((k + 1 : ℕ) : ℤ) := by
      rw [zpow_natCast]
      exact_mod_cast hk
    calc d.value < 10 ^ ((k + 1 : ℕ) : ℤ) * 10 ^ d.exponent :=
          mul_lt_mul_of_pos_right hdigits (zpow_pos (by norm_num) _)
      _ = 10 ^ (((k + 1 : ℕ) : ℤ) + d.exponent) := (zpow_add₀ hten _ _).symm
      _ ≤ 10 ^ (point - 1) := zpow_le_zpow_right₀ (by norm_num) (by omega)

/-- If a decimal reads back, so does a candidate with as many digits. -/
theorem exists_candidate_of_digits (hpos : 0 < word) (h : d.word .single = word)
    (hk : d.digits < power 10 (k + 1)) : ∃ c ∈ candidates word k, c.word .single = word := by
  obtain ⟨point, hlow, -, hgrid⟩ := exists_candidates hpos
  obtain ⟨a, hmem, hle, hlt⟩ := hgrid k
  have hrounds : BinaryFormat.single.Rounds d.value word := rounds_iff.2 h.symm
  have hstep : (0 : ℚ) < 10 ^ (point - (k + 1 : ℕ)) := zpow_pos (by norm_num) _
  -- what lies on the grid and not above the value is not above the lower neighbour
  have hbelow {m : ℕ} (hm : (m : ℚ) * 10 ^ (point - (k + 1 : ℕ)) ≤
      BinaryFormat.single.value word) :
      (m : ℚ) * 10 ^ (point - (k + 1 : ℕ)) ≤ Decimal.value ⟨a, point - (k + 1 : ℕ)⟩ := by
    have hcast : (m : ℚ) < (a + 1 : ℕ) := lt_of_mul_lt_mul_right (hm.trans_lt hlt) hstep.le
    have hnat : m ≤ a := Nat.lt_succ_iff.1 (Nat.cast_lt.1 hcast)
    exact mul_le_mul_of_nonneg_right (Nat.cast_le.2 hnat) hstep.le
  rcases le_or_gt d.value (BinaryFormat.single.value word) with hunder | hover
  · refine ⟨_, (hmem _).2 (.inl rfl), (rounds_iff.1 (hrounds.convex (.inr ⟨?_, hle⟩))).symm⟩
    rcases on_grid_or_lt hk point with ⟨m, hm⟩ | hsmall
    · rw [hm] at hunder ⊢
      exact hbelow hunder
    · rw [leading_power point k] at hlow hsmall
      exact hsmall.le.trans (hbelow hlow)
  · refine ⟨_, (hmem _).2 (.inr rfl), (rounds_iff.1 (hrounds.convex (.inl ⟨hlt.le, ?_⟩))).symm⟩
    rcases on_grid_or_lt hk point with ⟨m, hm⟩ | hsmall
    · rw [hm] at hover ⊢
      have hcast : (a : ℚ) < m := lt_of_mul_lt_mul_right (hle.trans_lt hover) hstep.le
      have hnat : a + 1 ≤ m := Nat.cast_lt.1 hcast
      exact mul_le_mul_of_nonneg_right (Nat.cast_le.2 hnat) hstep.le
    · linarith

/-- **No decimal that reads back has fewer digits than the shortest one**, which has nine at most.
The bound `10 ^ k` is a single digit and zeros, so it counts as a number of `k` digits. -/
theorem digits_shortest_le (hpos : 0 < word) (below : word < BinaryFormat.single.infinity) :
    (shortest word).digits ≤ power 10 9 ∧
      ∀ d : Decimal, d.word .single = word → ∀ k, d.digits < power 10 k →
        (shortest word).digits ≤ power 10 k := by
  have hmono {i j : ℕ} (h : i ≤ j) : power 10 i ≤ power 10 j := Nat.pow_le_pow_right (by decide) h
  have hfound {k : ℕ} (hk : k < 9) (h : ∃ c ∈ candidates word k, c.word .single = word) :
      (shortest word).digits ≤ power 10 (k + 1) := by
    obtain ⟨j, hj, hmem⟩ := shortest_mem_candidates hk h
    exact (digits_le_of_mem_candidates hpos hmem).trans (hmono (by omega))
  have hnine : (shortest word).digits ≤ power 10 9 :=
    hfound (by decide) (exists_nineDigits hpos below)
  refine ⟨hnine, fun d h k hk => ?_⟩
  cases k with
  | zero =>
    -- without digits there is only zero
    have hzero : d.digits = 0 := Nat.lt_one_iff.1 hk
    rw [Decimal.word, hzero, zero_mul, BinaryFormat.nearest, if_pos rfl] at h
    omega
  | succ k =>
    rcases Nat.lt_or_ge k 9 with hlt | hge
    · exact hfound hlt (exists_candidate_of_digits hpos h hk)
    · exact hnine.trans (hmono (by omega))

end Word

-- The single next to one tenth is no tenth, but one digit is enough for it.
example : shortest 0x3dcccccd = ⟨1, -1⟩ := by decide +kernel

end Decimal

end RayTracer
