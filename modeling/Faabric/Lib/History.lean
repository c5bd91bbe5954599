import Mathlib.Data.List.Basic

/-! A history is a list that grows at its end. Its entries are named by their positions. -/

namespace History

variable {α : Type*} {l : List α} {a b : α} {k : Nat}

theorem getElem?_snoc : (l ++ [a])[k]? = some b ↔ l[k]? = some b ∨ k = l.length ∧ b = a := by
  rcases Nat.lt_trichotomy k l.length with hlt | rfl | hgt
  · simp [List.getElem?_append_left hlt, Nat.ne_of_lt hlt]
  · simp [eq_comm]
  · have hend : (l ++ [a])[k]? = none := by
      refine List.getElem?_eq_none ?_
      rw [List.length_append, List.length_singleton]
      exact hgt
    simp [hend, List.getElem?_eq_none (Nat.le_of_lt hgt), Nat.ne_of_gt hgt]

theorem mem_snoc_if {c : Bool} (h : b ∈ if c then l ++ [a] else l) : b ∈ l ∨ b = a := by
  cases c with
  | false => exact Or.inl h
  | true => simpa using h

end History
