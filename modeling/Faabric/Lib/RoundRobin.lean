import Mathlib

/-! Turns that go around a list. However many have been taken, and wherever the first one was, any
two elements have had their turn equally often, or one of them once more. -/

namespace RoundRobin

variable {α : Type*}

def turns (l : List α) (start : Nat) : Nat → List α
  | 0 => []
  | k + 1 => turns l start k ++ l[(start + k) % l.length]?.toList

theorem count_turns [DecidableEq α] {l : List α} (hn : l.Nodup) (start k : Nat) {i : Nat}
    (hi : i < l.length) :
    (turns l start k).count l[i] = Nat.count (fun j => (start + j) % l.length = i) k := by
  induction k with
  | zero => rfl
  | succ k ih =>
    have hlt : (start + k) % l.length < l.length := Nat.mod_lt _ (by omega)
    rw [turns, List.count_append, ih, Nat.count_succ, List.getElem?_eq_getElem hlt]
    by_cases he : (start + k) % l.length = i
    · subst he
      simp
    · simp [hn.getElem_inj_iff, he]

theorem turns_balanced [DecidableEq α] {l : List α} (hn : l.Nodup) (start k : Nat) {a b : α} (ha : a ∈ l)
    (hb : b ∈ l) : (turns l start k).count a ≤ (turns l start k).count b + 1 := by
  obtain ⟨i, hi, rfl⟩ := List.mem_iff_getElem.mp ha
  obtain ⟨i', hi', rfl⟩ := List.mem_iff_getElem.mp hb
  have hpos : 0 < l.length := by omega
  -- The turns from `start` on are those from 0 on, less those before `start`.
  have hcount (i : Nat) (hi : i < l.length) : (turns l start k).count l[i] +
      (start / l.length + if i < start % l.length then 1 else 0) =
        (start + k) / l.length + if i < (start + k) % l.length then 1 else 0 := by
    have hmod (n : Nat) : Nat.count (fun j => j % l.length = i) n =
        n / l.length + if i < n % l.length then 1 else 0 := by
      have h := Nat.count_modEq_card n hpos i
      simpa only [Nat.ModEq, Nat.mod_eq_of_lt hi] using h
    rw [count_turns hn start k hi, ← hmod, ← hmod, Nat.count_add, add_comm]
  have h := hcount i hi
  have h' := hcount i' hi'
  split_ifs at h h' <;> omega

end RoundRobin
