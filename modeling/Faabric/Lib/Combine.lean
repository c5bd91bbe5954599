import Mathlib

/-! Values that are combined from the contributions of a finite set, each of them counted once. -/

namespace Combine

variable {ι M N : Type*} [DecidableEq ι]

/-- The value is made with `op` from the contributions of the set, in some order and with some bracketing. -/
inductive Combines (op : M → M → M) (x : ι → M) : Finset ι → M → Prop where
  | single (i : ι) : Combines op x {i} (x i)
  | union {s t : Finset ι} {a b : M} : Disjoint s t → Combines op x s a → Combines op x t b →
    Combines op x (s ∪ t) (op a b)

variable {op : M → M → M} {x : ι → M} {s : Finset ι} {a : M}

theorem Combines.foldl {parts : ι → Finset ι} {value : ι → M} {l : List ι} (hnd : l.Nodup)
    (hvalue : ∀ i ∈ l, Combines op x (parts i) (value i))
    (hapart : ∀ i ∈ l, ∀ j ∈ l, i ≠ j → Disjoint (parts i) (parts j)) (h : Combines op x s a)
    (hs : ∀ i ∈ l, Disjoint s (parts i)) :
    Combines op x (s ∪ l.toFinset.biUnion parts) (l.foldl (fun a i => op a (value i)) a) := by
  induction l generalizing s a with
  | nil => simpa using h
  | cons i l ih =>
    obtain ⟨hnot, hrest⟩ := List.nodup_cons.mp hnd
    have hstep := Combines.union (hs i List.mem_cons_self) h (hvalue i List.mem_cons_self)
    have hloop := ih hrest (fun j hj => hvalue j (List.mem_cons_of_mem i hj))
      (fun j hj k hk => hapart j (List.mem_cons_of_mem i hj) k (List.mem_cons_of_mem i hk)) hstep (by
      intro j hj
      have hne : i ≠ j := fun heq => hnot (heq ▸ hj)
      exact Finset.disjoint_union_left.mpr ⟨hs j (List.mem_cons_of_mem i hj),
        hapart i List.mem_cons_self j (List.mem_cons_of_mem i hj) hne⟩)
    have hset : s ∪ (i :: l).toFinset.biUnion parts = s ∪ parts i ∪ l.toFinset.biUnion parts := by
      rw [List.toFinset_cons, Finset.biUnion_insert, Finset.union_assoc]
    rw [hset]
    exact hloop

theorem Combines.map {op' : N → N → N} (f : M → N) (hf : ∀ a b, f (op a b) = op' (f a) (f b))
    (h : Combines op x s a) : Combines op' (fun i => f (x i)) s (f a) := by
  induction h with
  | single i => exact Combines.single i
  | union hdisjoint _ _ ihs iht =>
    rw [hf]
    exact Combines.union hdisjoint ihs iht

theorem Combines.sum [AddCommMonoid M] (h : Combines (· + ·) x s a) : a = ∑ i ∈ s, x i := by
  induction h with
  | single i => simp
  | union hdisjoint _ _ ihs iht => rw [Finset.sum_union hdisjoint, ← ihs, ← iht]

theorem Combines.greatest {R : Type*} [Preorder R] {key : M → R}
    (hop : ∀ a b, (op a b = a ∧ key b ≤ key a) ∨ (op a b = b ∧ key a ≤ key b)) (h : Combines op x s a) :
    (∃ i ∈ s, a = x i) ∧ ∀ i ∈ s, key (x i) ≤ key a := by
  induction h with
  | single i => simp
  | @union s t a b _ _ _ ihs iht =>
    obtain ⟨⟨i, hi, ha⟩, hgreatest⟩ := ihs
    obtain ⟨⟨j, hj, hb⟩, hgreatest'⟩ := iht
    rcases hop a b with ⟨heq, hle⟩ | ⟨heq, hle⟩ <;> rw [heq]
    · refine ⟨⟨i, Finset.mem_union_left t hi, ha⟩, fun k hk => ?_⟩
      exact (Finset.mem_union.mp hk).elim (hgreatest k) fun hk => (hgreatest' k hk).trans hle
    · refine ⟨⟨j, Finset.mem_union_right s hj, hb⟩, fun k hk => ?_⟩
      exact (Finset.mem_union.mp hk).elim (fun hk => (hgreatest k hk).trans hle) (hgreatest' k)

end Combine
