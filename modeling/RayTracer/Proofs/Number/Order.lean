import Mathlib.Data.Prod.Lex
import Mathlib.Algebra.Order.Group.Int
import RayTracer.Number.Scalar

/-!
# The order of scalars

What the geometry relies on when it compares numbers (`Scalar.LawfulOrder`): on the values that
compare with themselves, the tests form a total preorder, and the strict test is the strict part
of it.  Values that compare with nothing are left out of every law, and values that are the same
without being equal, as two zeros of different sign are, need no special care.

* `Float32.rank` : the position of a machine number in a linear order, with none for a value that
  is no number.
* `Float32.le_iff_rank`, `Float32.lt_iff_rank` : the tests compare positions.

So the laws hold of single precision because they hold of a linear order.
-/

namespace RayTracer

/-- The tests of order are those of a total preorder on the values that compare with
themselves. -/
class Scalar.LawfulOrder (α : Type) [Scalar α] : Prop where
  le_trans : ∀ {a b c : α}, a ≤ b → b ≤ c → a ≤ c
  le_self_left : ∀ {a b : α}, a ≤ b → a ≤ a
  le_self_right : ∀ {a b : α}, a ≤ b → b ≤ b
  le_total : ∀ {a b : α}, a ≤ a → b ≤ b → a ≤ b ∨ b ≤ a
  lt_iff : ∀ {a b : α}, a < b ↔ a ≤ b ∧ ¬b ≤ a

end RayTracer

namespace Float32

open Float.Model

/-! ### Comparing an exponent and a significand -/

theorem isLE_then_compare (e₁ e₂ : ℤ) (m₁ m₂ : ℕ) :
    ((compare e₁ e₂).then (compare m₁ m₂)).isLE = true ↔ e₁ < e₂ ∨ e₁ = e₂ ∧ m₁ ≤ m₂ := by
  rcases lt_trichotomy e₁ e₂ with h | rfl | h
  · simp [compare_lt_iff_lt.2 h, h]
  · simp [Nat.isLE_compare]
  · simp [compare_gt_iff_gt.2 h, h.not_gt, h.ne']

theorem isGE_then_compare (e₁ e₂ : ℤ) (m₁ m₂ : ℕ) :
    ((compare e₁ e₂).then (compare m₁ m₂)).isGE = true ↔ e₂ < e₁ ∨ e₁ = e₂ ∧ m₂ ≤ m₁ := by
  rcases lt_trichotomy e₁ e₂ with h | rfl | h
  · simp [compare_lt_iff_lt.2 h, h.not_gt, h.ne]
  · simp [Nat.isGE_compare]
  · simp [compare_gt_iff_gt.2 h, h]

theorem then_compare_eq_lt (e₁ e₂ : ℤ) (m₁ m₂ : ℕ) :
    (compare e₁ e₂).then (compare m₁ m₂) = .lt ↔ e₁ < e₂ ∨ e₁ = e₂ ∧ m₁ < m₂ := by
  simp [Ordering.then_eq_lt, compare_lt_iff_lt]

theorem then_compare_eq_gt (e₁ e₂ : ℤ) (m₁ m₂ : ℕ) :
    (compare e₁ e₂).then (compare m₁ m₂) = .gt ↔ e₂ < e₁ ∨ e₁ = e₂ ∧ m₂ < m₁ := by
  simp [Ordering.then_eq_gt, compare_gt_iff_gt]

/-! ### Positions -/

/-- The position of a decoded value: the infinities are outermost, and among the finite values the
sign counts before the exponent and the exponent before the significand. -/
def position : UnpackedFloat → Option (ℤ ×ₗ ℤ ×ₗ ℤ)
  | .notANumber => none
  | .infinity .negative => some (toLex (-2, toLex (0, 0)))
  | .finite .negative m e _ => some (toLex (-1, toLex (-e, -(m : ℤ))))
  | .zero _ => some (toLex (0, toLex (0, 0)))
  | .finite .positive m e _ => some (toLex (1, toLex (e, (m : ℤ))))
  | .infinity .positive => some (toLex (2, toLex (0, 0)))

theorem unpacked_le_iff (a b : UnpackedFloat) :
    a.le b = true ↔ ∃ i, position a = some i ∧ ∃ j, position b = some j ∧ i ≤ j := by
  rcases a with (_ | _) | _ | _ | ⟨_ | _, m₁, e₁, h₁⟩ <;>
    rcases b with (_ | _) | _ | _ | ⟨_ | _, m₂, e₂, h₂⟩ <;>
    dsimp only [UnpackedFloat.le, UnpackedFloat.compare, position] <;>
    simp [Prod.Lex.le_iff, isLE_then_compare, isGE_then_compare] <;>
    decide

theorem unpacked_lt_iff (a b : UnpackedFloat) :
    a.lt b = true ↔ ∃ i, position a = some i ∧ ∃ j, position b = some j ∧ i < j := by
  rcases a with (_ | _) | _ | _ | ⟨_ | _, m₁, e₁, h₁⟩ <;>
    rcases b with (_ | _) | _ | _ | ⟨_ | _, m₂, e₂, h₂⟩ <;>
    dsimp only [UnpackedFloat.lt, UnpackedFloat.compare, position] <;>
    simp [Prod.Lex.lt_iff, then_compare_eq_lt, then_compare_eq_gt]
  -- what is left compares the signs of two infinities
  decide

/-- The position of a machine number. -/
def rank (x : Float32) : Option (ℤ ×ₗ ℤ ×ₗ ℤ) := position x.toModel.unpack

theorem le_iff_rank {a b : Float32} :
    a ≤ b ↔ ∃ i, rank a = some i ∧ ∃ j, rank b = some j ∧ i ≤ j := by
  have h : a ≤ b ↔ a.toModel.unpack.le b.toModel.unpack = true := by
    show decide (a.toModel ≤ b.toModel) = true ↔ _
    rw [decide_eq_true_eq]
    rfl
  rw [h, unpacked_le_iff]
  rfl

theorem lt_iff_rank {a b : Float32} :
    a < b ↔ ∃ i, rank a = some i ∧ ∃ j, rank b = some j ∧ i < j := by
  have h : a < b ↔ a.toModel.unpack.lt b.toModel.unpack = true := by
    show decide (a.toModel < b.toModel) = true ↔ _
    rw [decide_eq_true_eq]
    rfl
  rw [h, unpacked_lt_iff]
  rfl

/-- **Single precision obeys the laws of the order**, infinities and signed zeros included. -/
instance : RayTracer.Scalar.LawfulOrder Float32 where
  le_trans := by
    intro a b c hab hbc
    obtain ⟨i, hi, j, hj, hij⟩ := le_iff_rank.1 hab
    obtain ⟨j', hj', k, hk, hjk⟩ := le_iff_rank.1 hbc
    obtain rfl : j = j' := Option.some.inj (hj.symm.trans hj')
    exact le_iff_rank.2 ⟨i, hi, k, hk, hij.trans hjk⟩
  le_self_left := by
    intro a b h
    obtain ⟨i, hi, -⟩ := le_iff_rank.1 h
    exact le_iff_rank.2 ⟨i, hi, i, hi, le_rfl⟩
  le_self_right := by
    intro a b h
    obtain ⟨-, -, j, hj, -⟩ := le_iff_rank.1 h
    exact le_iff_rank.2 ⟨j, hj, j, hj, le_rfl⟩
  le_total := by
    intro a b ha hb
    obtain ⟨i, hi, -⟩ := le_iff_rank.1 ha
    obtain ⟨j, hj, -⟩ := le_iff_rank.1 hb
    rcases le_total i j with h | h
    · exact .inl (le_iff_rank.2 ⟨i, hi, j, hj, h⟩)
    · exact .inr (le_iff_rank.2 ⟨j, hj, i, hi, h⟩)
  lt_iff := by
    intro a b
    constructor
    · intro h
      obtain ⟨i, hi, j, hj, hij⟩ := lt_iff_rank.1 h
      refine ⟨le_iff_rank.2 ⟨i, hi, j, hj, hij.le⟩, ?_⟩
      intro hba
      obtain ⟨j', hj', i', hi', hji⟩ := le_iff_rank.1 hba
      obtain rfl : i = i' := Option.some.inj (hi.symm.trans hi')
      obtain rfl : j = j' := Option.some.inj (hj.symm.trans hj')
      exact absurd hji hij.not_ge
    · rintro ⟨hab, hba⟩
      obtain ⟨i, hi, j, hj, -⟩ := le_iff_rank.1 hab
      have hij : ¬j ≤ i := fun h => hba (le_iff_rank.2 ⟨j, hj, i, hi, h⟩)
      exact lt_iff_rank.2 ⟨i, hi, j, hj, not_le.1 hij⟩

end Float32
