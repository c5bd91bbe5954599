import Mathlib

/-! The trail of an agent that moves from node to node. Its moves are numbered; a node
remembers the last move away from it, unless the agent is there, and a move the node it led
to. -/

variable {α : Type*}

/-- The agent is at `here`, or on its move `hop`. From a node that it has left, its last move
leads to where it is or to a node that it has left later. -/
structure Trail (here : Option α) (hop : Nat) (departed : α → Option Nat) (arrived : Nat → α) :
    Prop where
  home : ∀ x, here = some x → departed x = none
  hops : ∀ x m, departed x = some m → m ≤ hop
  onward : ∀ x m, departed x = some m → here = none ∧ m = hop ∨ here = some (arrived m) ∨
    ∃ m', departed (arrived m) = some m' ∧ m < m'

namespace Trail

variable {hop : Nat} {departed departed' : α → Option Nat} {arrived arrived' : Nat → α}

theorem start (x : α) (arrived : Nat → α) : Trail (some x) 0 (fun _ => none) arrived :=
  ⟨fun _ _ => rfl, nofun, nofun⟩

variable [DecidableEq α]

theorem depart {origin : α} (h : Trail (some origin) hop departed arrived)
    (hd : ∀ x, departed' x = if x = origin then some (hop + 1) else departed x) :
    Trail none (hop + 1) departed' arrived := by
  refine ⟨nofun, ?_, ?_⟩
  · intro x m hm
    rw [hd] at hm
    split_ifs at hm
    · exact (Option.some.inj hm).ge
    · exact (h.hops x m hm).trans (Nat.le_succ _)
  · intro x m hm
    rw [hd] at hm
    split_ifs at hm with hx
    · exact Or.inl ⟨rfl, (Option.some.inj hm).symm⟩
    · have hle := h.hops x m hm
      right
      right
      by_cases hy : arrived m = origin
      · exact ⟨hop + 1, by rw [hd, if_pos hy], by omega⟩
      · rcases h.onward x m hm with ⟨hnone, -⟩ | hhere | ⟨m', hm', hlt⟩
        · cases hnone
        · exact absurd (Option.some.inj hhere).symm hy
        · exact ⟨m', by rw [hd, if_neg hy, hm'], hlt⟩

theorem arrive {host : α} (h : Trail none hop departed arrived)
    (hd : ∀ x, departed' x = if x = host then none else departed x)
    (ha : ∀ m, arrived' m = if m = hop then host else arrived m) :
    Trail (some host) hop departed' arrived' := by
  refine ⟨?_, ?_, ?_⟩
  · intro x hx
    rw [hd, if_pos (Option.some.inj hx).symm]
  · intro x m hm
    rw [hd] at hm
    split_ifs at hm
    exact h.hops x m hm
  · intro x m hm
    rw [hd] at hm
    split_ifs at hm
    right
    by_cases hlast : m = hop
    · exact Or.inl (by rw [ha, if_pos hlast])
    · rw [ha, if_neg hlast]
      by_cases hy : arrived m = host
      · exact Or.inl (congrArg some hy.symm)
      · rcases h.onward x m hm with ⟨-, he⟩ | hhere | ⟨m', hm', hlt⟩
        · exact absurd he hlast
        · cases hhere
        · exact Or.inr ⟨m', by rw [hd, if_neg hy, hm'], hlt⟩

end Trail
