/-!
# Positions in lists

What stands at a position of a list to which something was added, or in which something was
replaced, and how many of its elements have a property.
-/

namespace RayTracer

variable {α : Type} {l : List α} {i j : Nat} {a b : α}

theorem getElem?_set_cases (h : (l.set i a)[j]? = some b) :
    (j = i ∧ b = a) ∨ (j ≠ i ∧ l[j]? = some b) := by
  rw [List.getElem?_set] at h
  split at h
  · split at h
    · exact .inl ⟨by omega, (Option.some.inj h).symm⟩
    · cases h
  · exact .inr ⟨by omega, h⟩

theorem getElem?_set_of_ne (hne : j ≠ i) (h : l[j]? = some b) : (l.set i a)[j]? = some b :=
  (List.getElem?_set_ne hne.symm).trans h

theorem getElem?_append_of_some {l' : List α} (h : l[j]? = some b) : (l ++ l')[j]? = some b := by
  obtain ⟨hlt, -⟩ := List.getElem?_eq_some_iff.1 h
  exact (List.getElem?_append_left hlt).trans h

theorem getElem?_append_cases (h : (l ++ [a])[j]? = some b) :
    (j = l.length ∧ b = a) ∨ l[j]? = some b := by
  rw [List.getElem?_append] at h
  split at h
  · exact .inr h
  · have hj := List.getElem?_eq_some_iff.1 h
    obtain ⟨hj, hb⟩ := hj
    simp only [List.length_singleton] at hj
    exact .inl ⟨by omega, by simpa using hb.symm⟩

theorem getElem?_set_self_of_some (h : l[i]? = some b) : (l.set i a)[i]? = some a := by
  obtain ⟨hi, -⟩ := List.getElem?_eq_some_iff.1 h
  simp [hi]

variable {p : α → Bool}

/-- Replacing an element changes the count by what the two elements contribute. -/
theorem countP_set_add (h : l[i]? = some b) :
    (l.set i a).countP p + (p b).toNat = l.countP p + (p a).toNat := by
  obtain ⟨hi, rfl⟩ := List.getElem?_eq_some_iff.1 h
  rw [List.countP_set hi]
  cases hb : p l[i] with
  | false => cases p a <;> rfl
  | true =>
    have hpos : 0 < l.countP p := List.countP_pos_iff.2 ⟨_, List.getElem_mem hi, hb⟩
    cases p a <;> simp <;> omega

/-- If at most one element has the property, it stands at one position. -/
theorem eq_of_countP_le_one (hcount : l.countP p ≤ 1) (hi : l[i]? = some a) (hj : l[j]? = some b)
    (ha : p a = true) (hb : p b = true) : i = j := by
  induction l generalizing i j with
  | nil => cases hi
  | cons x l ih =>
    have none_after : ∀ {k : Nat} {c : α}, p x = true → l[k]? = some c → p c = true → False := by
      intro k c hx hk hc
      have hpos := List.countP_pos_iff.2 ⟨c, List.mem_of_getElem? hk, hc⟩
      rw [List.countP_cons_of_pos hx] at hcount
      omega
    cases i with
    | zero =>
      obtain rfl := Option.some.inj hi
      cases j with
      | zero => rfl
      | succ j => exact (none_after ha hj hb).elim
    | succ i =>
      cases j with
      | zero =>
        obtain rfl := Option.some.inj hj
        exact (none_after hb hi ha).elim
      | succ j =>
        have hle : l.countP p ≤ 1 := Nat.le_trans ((List.sublist_cons_self x l).countP_le) hcount
        exact congrArg (· + 1) (ih hle hi hj)

end RayTracer
