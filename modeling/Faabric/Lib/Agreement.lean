import Mathlib

/-! The positions at which two lists agree. There are at most as many of them as the two
lists have values in common, counted with multiplicity. -/

namespace Agreement

variable {α : Type*} [DecidableEq α]

def agreements (xs ys : List α) : Nat := (xs.zip ys).countP fun e => e.1 = e.2

def agreementsAt (a : α) (xs ys : List α) : Nat := (xs.zip ys).countP fun e => e.1 = a ∧ e.2 = a

@[simp] theorem agreements_nil (ys : List α) : agreements [] ys = 0 := rfl

@[simp] theorem agreementsAt_nil (a : α) (ys : List α) : agreementsAt a [] ys = 0 := rfl

theorem agreements_cons (x y : α) (xs ys : List α) :
    agreements (x :: xs) (y :: ys) = agreements xs ys + if x = y then 1 else 0 := by
  simp [agreements, List.countP_cons]

theorem agreementsAt_cons (a x y : α) (xs ys : List α) :
    agreementsAt a (x :: xs) (y :: ys) = agreementsAt a xs ys + if x = a ∧ y = a then 1 else 0 := by
  simp [agreementsAt, List.countP_cons]

theorem agreementsAt_le (a : α) (xs ys : List α) :
    agreementsAt a xs ys ≤ min (xs.count a) (ys.count a) := by
  induction xs generalizing ys with
  | nil => simp
  | cons x xs ih =>
    cases ys with
    | nil => simp [agreementsAt]
    | cons y ys =>
      have hrest := ih ys
      rw [agreementsAt_cons, List.count_cons, List.count_cons]
      by_cases hx : x = a <;> by_cases hy : y = a <;> simp [hx, hy] <;> omega

theorem agreements_eq_sum {xs : List α} {s : Finset α} (h : ∀ x ∈ xs, x ∈ s) (ys : List α) :
    agreements xs ys = ∑ a ∈ s, agreementsAt a xs ys := by
  induction xs generalizing ys with
  | nil => simp
  | cons x xs ih =>
    cases ys with
    | nil => simp [agreements, agreementsAt]
    | cons y ys =>
      have hx : x ∈ s := h x (by simp)
      have hrest := ih (fun z hz => h z (List.mem_cons_of_mem _ hz)) ys
      simp only [agreements_cons, agreementsAt_cons, Finset.sum_add_distrib, hrest]
      congr 1
      by_cases hxy : x = y
      · subst hxy
        simp [Finset.sum_ite_eq, hx]
      · have hnone : ∀ a ∈ s, (if x = a ∧ y = a then 1 else 0) = 0 := by
          intro a _
          rw [if_neg]
          rintro ⟨rfl, rfl⟩
          exact hxy rfl
        simp [hxy, Finset.sum_eq_zero hnone]

theorem agreements_le (xs ys : List α) :
    agreements xs ys ≤ ∑ a ∈ xs.toFinset, min (xs.count a) (ys.count a) := by
  rw [agreements_eq_sum (s := xs.toFinset) (by simp)]
  exact Finset.sum_le_sum fun a _ => agreementsAt_le a xs ys

end Agreement
