import Mathlib

/-! Messages in transit as a list, from which any one may be taken out next. -/

namespace Transit

variable {α : Type*} {l : List α} {i : Nat} {a b : α}

theorem eq_append_cons (hi : l[i]? = some a) : l = l.take i ++ a :: l.drop (i + 1) := by
  obtain ⟨hlt, rfl⟩ := List.getElem?_eq_some_iff.mp hi
  rw [List.cons_getElem_drop_succ, List.take_append_drop]

theorem perm_eraseIdx (hi : l[i]? = some a) : l.Perm (a :: l.eraseIdx i) := by
  obtain ⟨hlt, rfl⟩ := List.getElem?_eq_some_iff.mp hi
  exact (List.getElem_cons_eraseIdx_perm hlt).symm

theorem mem_eraseIdx_of_ne (hi : l[i]? = some a) (hb : b ∈ l) (hne : b ≠ a) : b ∈ l.eraseIdx i := by
  have hmem := (perm_eraseIdx hi).mem_iff.mp hb
  exact (List.mem_cons.mp hmem).resolve_left hne

theorem filter_eraseIdx_of_not {p : α → Bool} (hi : l[i]? = some a) (hp : p a = false) :
    (l.eraseIdx i).filter p = l.filter p := by
  conv_rhs => rw [eq_append_cons hi]
  rw [List.eraseIdx_eq_take_drop_succ, List.filter_append, List.filter_append,
    List.filter_cons_of_neg (by simp [hp])]

theorem filter_eraseIdx_of_single {p : α → Bool} (hi : l[i]? = some a) (hp : p a = true)
    (h : l.filter p = [b]) : b = a ∧ (l.eraseIdx i).filter p = [] := by
  have hperm := (perm_eraseIdx hi).filter p
  rw [h, List.filter_cons_of_pos hp, List.singleton_perm] at hperm
  obtain ⟨rfl, hnil⟩ := List.cons.inj hperm
  exact ⟨rfl, hnil.symm⟩

end Transit
