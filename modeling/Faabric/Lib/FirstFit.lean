import Faabric.Lib.Packing

/-! Filling bins in a given order: each bin takes as many of the remaining
items as it has room for, until no item is left. -/

namespace FirstFit

variable {α β : Type*}

def fill (room : β → Nat) : List β → List α → List (β × α) × List α
  | [], items => ([], items)
  | b :: bins, items =>
    let here := (items.take (room b)).map (Prod.mk b)
    let left := items.drop (room b)
    if left.isEmpty then (here, [])
    else ((here ++ (fill room bins left).1), (fill room bins left).2)

theorem fill_items (room : β → Nat) (bins : List β) (items : List α) :
    (fill room bins items).1.map Prod.snd ++ (fill room bins items).2 = items := by
  induction bins generalizing items with
  | nil => simp [fill]
  | cons b bins ih =>
    by_cases he : (items.drop (room b)).isEmpty = true
    · have hl : items.length ≤ room b := by simpa using he
      simp [fill, hl, List.take_of_length_le hl]
    · simp only [fill, he, if_false, List.map_append, List.map_map, List.append_assoc, ih,
        Bool.false_eq_true]
      simp [Function.comp_def]

theorem fill_length_of_fits {room : β → Nat} {bins : List β} {items : List α}
    (h : (fill room bins items).2 = []) : (fill room bins items).1.map Prod.snd = items := by
  simpa [h] using fill_items room bins items

theorem fill_bin_mem {room : β → Nat} {bins : List β} {items : List α} {e : β × α}
    (h : e ∈ (fill room bins items).1) : e.1 ∈ bins := by
  induction bins generalizing items with
  | nil => simp [fill] at h
  | cons b bins ih =>
    by_cases he : (items.drop (room b)).isEmpty = true
    · simp only [fill, he, if_true, List.mem_map] at h
      obtain ⟨x, _, rfl⟩ := h
      simp
    · simp only [fill, he, if_false, Bool.false_eq_true, List.mem_append, List.mem_map] at h
      rcases h with ⟨x, _, rfl⟩ | h
      · simp
      · exact List.mem_cons_of_mem _ (ih h)

theorem fill_count_le (room : β → Nat) (kind : β → Bool) (bins : List β) (items : List α) :
    (fill room bins items).1.countP (fun e => kind e.1) ≤ ((bins.filter kind).map room).sum := by
  induction bins generalizing items with
  | nil => simp [fill]
  | cons b bins ih =>
    have hhere : ((items.take (room b)).map (Prod.mk b)).countP (fun e => kind e.1) ≤
        if kind b then room b else 0 := by
      by_cases hk : kind b = true
      · refine List.countP_le_length.trans ?_
        simp [hk]
      · rw [if_neg hk, Nat.le_zero, List.countP_map, List.countP_eq_zero]
        simp [hk]
    by_cases he : (items.drop (room b)).isEmpty = true
    · simp only [fill, he, if_true]
      refine hhere.trans ?_
      by_cases hk : kind b = true <;> simp [hk]
    · have hh := ih (items.drop (room b))
      simp only [fill, he, if_false, Bool.false_eq_true, List.countP_append]
      by_cases hk : kind b = true
      · simp only [hk, if_true] at hhere
        simp only [List.filter_cons, hk, if_true, List.map_cons, List.sum_cons]
        omega
      · simp only [hk, if_false, Bool.false_eq_true] at hhere
        simp only [List.filter_cons, hk, if_false, Bool.false_eq_true]
        omega

theorem fill_fits_iff (room : β → Nat) (bins : List β) (items : List α) :
    (fill room bins items).2 = [] ↔ items.length ≤ (bins.map room).sum := by
  induction bins generalizing items with
  | nil => simp [fill, List.length_eq_zero_iff]
  | cons b bins ih =>
    by_cases he : (items.drop (room b)).isEmpty = true
    · have hl : items.length ≤ room b := by simpa using he
      simp only [fill, he, if_true, List.map_cons, List.sum_cons, true_iff]
      omega
    · have hl : ¬ items.length ≤ room b := by simpa using he
      have hh := ih (items.drop (room b))
      simp only [fill, he, if_false, Bool.false_eq_true, hh, List.length_drop, List.map_cons,
        List.sum_cons]
      omega

@[simp] theorem fill_no_items (room : β → Nat) (bins : List β) :
    fill room bins ([] : List α) = ([], []) := by
  cases bins <;> simp [fill]

theorem fill_cons_fst (room : β → Nat) (b : β) (bins : List β) (items : List α) :
    (fill room (b :: bins) items).1 =
      (items.take (room b)).map (Prod.mk b) ++ (fill room bins (items.drop (room b))).1 := by
  by_cases he : (items.drop (room b)).isEmpty = true
  · rw [fill]
    simp [List.isEmpty_iff.mp he]
  · simp [fill, he]

theorem fill_loads {κ : Type*} [DecidableEq κ] (room : β → Nat) (key : β → κ) {bins : List β}
    (hn : (bins.map key).Nodup) (items : List α) :
    Packing.loadsOn (bins.map key) ((fill room bins items).1.map fun e => key e.1) =
      Packing.greedy (bins.map room) items.length := by
  induction bins generalizing items with
  | nil => rfl
  | cons b bins ih =>
    obtain ⟨hb, hn⟩ := List.nodup_cons.mp hn
    have hrest := ih hn (items.drop (room b))
    have hhere : (items.take (room b)).map ((fun e : β × α => key e.1) ∘ Prod.mk b) =
        List.replicate (min items.length (room b)) (key b) := by
      simp [Function.comp_def, min_comm]
    have hnone : ((fill room bins (items.drop (room b))).1.map fun e => key e.1).count (key b) = 0 := by
      rw [List.count_eq_zero, List.mem_map]
      rintro ⟨e, he, heq⟩
      exact hb (heq ▸ List.mem_map_of_mem (fill_bin_mem he))
    rw [fill_cons_fst, List.map_append, List.map_map, hhere, List.map_cons, List.map_cons,
      Packing.greedy, Packing.loadsOn, List.map_cons, List.count_append, hnone, List.count_replicate_self,
      add_zero]
    congr 1
    rw [← List.length_drop, ← hrest, Packing.loadsOn]
    apply List.map_congr_left
    intro k hk
    have hne : key b ≠ k := fun h => hb (h ▸ hk)
    rw [List.count_append, List.count_replicate, if_neg (by simpa using hne), zero_add]

end FirstFit
