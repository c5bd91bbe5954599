import Mathlib

/-! Following links from node to node. A rank that grows along the links and is bounded
leads to the goal in finitely many steps. -/

namespace Links

variable {α : Type*}

def follow (next : α → Option α) : Nat → α → α
  | 0, x => x
  | n + 1, x =>
    match next x with
    | some y => follow next n y
    | none => x

theorem follow_succ {next : α → Option α} {x y : α} (h : next x = some y) (n : Nat) :
    follow next (n + 1) x = follow next n y := by
  simp [follow, h]

theorem follow_reaches {next : α → Option α} {P : α → Prop} (rank : α → Nat) {bound : Nat} {goal : α}
    (hstep : ∀ x, P x → x ≠ goal → ∃ y, next x = some y ∧ P y ∧ (y = goal ∨ rank x < rank y))
    (hbound : ∀ x, P x → rank x ≤ bound) {x : α} (hx : P x) :
    ∃ n ≤ bound - rank x + 1, follow next n x = goal := by
  induction hd : bound - rank x using Nat.strong_induction_on generalizing x with
  | _ d ih =>
    by_cases hgoal : x = goal
    · exact ⟨0, Nat.zero_le _, hgoal⟩
    · obtain ⟨y, hy, hPy, hend | hlt⟩ := hstep x hx hgoal
      · exact ⟨1, by omega, by rw [follow_succ hy, follow, hend]⟩
      · have hy' := hbound y hPy
        obtain ⟨n, hn, he⟩ := ih (bound - rank y) (by omega) hPy rfl
        exact ⟨n + 1, by omega, by rw [follow_succ hy, he]⟩

end Links
