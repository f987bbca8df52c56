import RayTracer.Proofs.Number.Digits
import RayTracer.Proofs.Unroll.Calls
import RayTracer.Unroll.Levels

/-!
# Names of copies

The copy of a function on level `i ≥ 1` is named by a suffix `_d` and the digits of `i`.  Since
the digits hold no letter, the last `d` of such a name shows where the suffix starts, so the name
determines the function and the level (`eq_of_levelSuffix`).  Only a level-zero name can look like
the name of a deeper copy of another function.

* `specializedName_eq_iff` : when two copies have one name.  It takes a name that ends in a digit,
  so names that do not (`Unnumbered`) have copies of different names.
* `MarkedSource.NamesApart` : no marked name is another one with the suffix of a level below the
  given depth.
* `MarkedSource.NamesApart.eq_of_specializedName` : then a copy's name determines its function
  and its level.
-/

namespace RayTracer

/-- A list splits in only one way at the last occurrence of an element. -/
theorem append_cons_inj_of_notMem_right {α : Type} {c : α} {as bs xs ys : List α} (hx : c ∉ xs)
    (hy : c ∉ ys) (h : as ++ c :: xs = bs ++ c :: ys) : as = bs ∧ xs = ys := by
  rcases List.append_eq_append_iff.1 h with ⟨t, rfl, ht⟩ | ⟨t, rfl, ht⟩
  · cases t with
    | nil => simpa using ht
    | cons x t => exact absurd (by simp_all) hx
  · cases t with
    | nil => simpa [eq_comm] using ht
    | cons x t => exact absurd (by simp_all) hy

/-- What the name of a copy on a level other than zero ends in. -/
def levelSuffix (level : Nat) : Line := '_' :: 'd' :: Decimal.digitsOf level

theorem specializedName_zero (name : Line) : specializedName name 0 = name := rfl

theorem specializedName_of_pos (name : Line) {level : Nat} (h : 0 < level) :
    specializedName name level = name ++ levelSuffix level := by
  simp [specializedName, levelSuffix, Nat.ne_of_gt h]

theorem mem_specializedName {name : Line} {level : Nat} {c : Char}
    (h : c ∈ specializedName name level) : c ∈ name ∨ isIdentifierChar c = true := by
  unfold specializedName at h
  split at h
  · exact .inl h
  · rcases List.mem_append.1 h with h | h
    · exact .inl h
    · rcases List.mem_cons.1 h with rfl | h
      · exact .inr (by decide)
      · rcases List.mem_cons.1 h with rfl | h
        · exact .inr (by decide)
        · have hdigit := Decimal.isDigit_of_mem_digitsOf h
          exact .inr (by simp [isIdentifierChar, Char.isAlphanum, hdigit])

theorem isIdentifier_specializedName {name : Line} (h : IsIdentifier name) (level : Nat) :
    IsIdentifier (specializedName name level) := by
  refine ⟨?_, fun c hc => (mem_specializedName hc).elim (h.chars c) id⟩
  unfold specializedName
  split
  · exact h.ne_nil
  · simp

theorem eq_of_levelSuffix {a b : Line} {i j : Nat} (h : a ++ levelSuffix i = b ++ levelSuffix j) :
    a = b ∧ i = j := by
  have noLetter : ∀ n, 'd' ∉ Decimal.digitsOf n := Decimal.notMem_digitsOf (by decide)
  have h' : (a ++ ['_']) ++ 'd' :: Decimal.digitsOf i =
      (b ++ ['_']) ++ 'd' :: Decimal.digitsOf j := by
    simpa [levelSuffix] using h
  obtain ⟨hab, hij⟩ := append_cons_inj_of_notMem_right (noLetter i) (noLetter j) h'
  exact ⟨by simpa using hab, digitsOf_injective hij⟩

/-- Two copies have one name if they are the same copy, or if one of them is on level zero and its
name is that of the other function with a suffix. -/
theorem specializedName_eq_iff {a b : Line} {i j : Nat} :
    specializedName a i = specializedName b j ↔ (a = b ∧ i = j) ∨
      (i = 0 ∧ 1 ≤ j ∧ a = b ++ levelSuffix j) ∨ (j = 0 ∧ 1 ≤ i ∧ b = a ++ levelSuffix i) := by
  rcases Nat.eq_zero_or_pos i with rfl | hi <;> rcases Nat.eq_zero_or_pos j with rfl | hj
  · simp [specializedName_zero]
  · have hne : 0 ≠ j := Nat.ne_of_lt hj
    simp [specializedName_zero, specializedName_of_pos, hj, hne, Nat.succ_le_iff]
  · have hne : i ≠ 0 := Nat.ne_of_gt hi
    simp [specializedName_zero, specializedName_of_pos, hi, hne, Nat.succ_le_iff, eq_comm]
  · rw [specializedName_of_pos _ hi, specializedName_of_pos _ hj]
    constructor
    · intro h
      exact .inl (eq_of_levelSuffix h)
    · rintro (⟨rfl, rfl⟩ | ⟨rfl, -⟩ | ⟨rfl, -⟩)
      · rfl
      · cases hi
      · cases hj

/-- The name does not end like that of a copy on a level other than zero. -/
def Unnumbered (name : Line) : Prop := name.getLast?.any Char.isDigit = false

instance (name : Line) : Decidable (Unnumbered name) := inferInstanceAs (Decidable (_ = false))

theorem Unnumbered.ne_levelSuffix {a : Line} (ha : Unnumbered a) (b : Line) (level : Nat) :
    a ≠ b ++ levelSuffix level := by
  rintro rfl
  have hne := Decimal.digitsOf_ne_nil level
  have hlast : (b ++ levelSuffix level).getLast? = some ((Decimal.digitsOf level).getLast hne) := by
    rw [← List.getLast?_eq_some_getLast hne]
    simp [levelSuffix, List.getLast?_append, List.getLast?_cons, List.getLast?_eq_some_getLast hne]
  have hdigit := Decimal.isDigit_of_mem_digitsOf (List.getLast_mem hne)
  rw [Unnumbered, hlast, Option.any_some, hdigit] at ha
  cases ha

/-- The names of copies differ where no name ends in a digit. -/
theorem Unnumbered.eq_of_specializedName {a b : Line} (ha : Unnumbered a) (hb : Unnumbered b)
    {i j : Nat} (h : specializedName a i = specializedName b j) : a = b ∧ i = j := by
  rcases specializedName_eq_iff.1 h with h | ⟨-, -, h⟩ | ⟨-, -, h⟩
  · exact h
  · exact absurd h (ha.ne_levelSuffix b j)
  · exact absurd h (hb.ne_levelSuffix a i)

namespace MarkedSource

/-- No marked name is another marked name with the suffix of a level below the depth. -/
def NamesApart (source : MarkedSource) (depth : Nat) : Prop :=
  ∀ f ∈ source.functions, ∀ g ∈ source.functions, ∀ level < depth, 1 ≤ level →
    f.name ≠ g.name ++ '_' :: 'd' :: Decimal.digitsOf level

instance (source : MarkedSource) (depth : Nat) : Decidable (source.NamesApart depth) :=
  inferInstanceAs (Decidable (∀ f ∈ source.functions, ∀ g ∈ source.functions,
    ∀ level < depth, 1 ≤ level → _))

theorem NamesApart.eq_of_specializedName {source : MarkedSource} {depth : Nat}
    (apart : source.NamesApart depth) {f g : MarkedFunction} (hf : f ∈ source.functions)
    (hg : g ∈ source.functions) {i j : Nat} (hi : i < depth) (hj : j < depth)
    (h : specializedName f.name i = specializedName g.name j) : f.name = g.name ∧ i = j := by
  rcases specializedName_eq_iff.1 h with h | ⟨-, hlevel, h⟩ | ⟨-, hlevel, h⟩
  · exact h
  -- a name without suffix equals one with a suffix only if two marked names are not apart
  · exact absurd h (apart f hf g hg j hj hlevel)
  · exact absurd h (apart g hg f hf i hi hlevel)

end MarkedSource

end RayTracer
