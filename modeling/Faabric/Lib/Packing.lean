import Mathlib

/-! Filling bins in decreasing order of capacity. No other way to put the same number of items
into the bins uses fewer bins, or leaves fewer pairs of items in different bins. -/

namespace Packing

/-! ### Loads of bins -/

def greedy : List Nat → Nat → List Nat
  | [], _ => []
  | c :: cs, n => min n c :: greedy cs (n - c)

def used (loads : List Nat) : Nat := loads.countP (0 < ·)

def squares (loads : List Nat) : Nat := (loads.map (· ^ 2)).sum

@[simp] theorem used_nil : used [] = 0 := rfl

theorem used_cons (x : Nat) (loads : List Nat) :
    used (x :: loads) = used loads + if 0 < x then 1 else 0 := by
  simp [used, List.countP_cons]

@[simp] theorem squares_nil : squares [] = 0 := rfl

@[simp] theorem squares_cons (x : Nat) (loads : List Nat) :
    squares (x :: loads) = x ^ 2 + squares loads := by
  simp [squares]

@[simp] theorem greedy_length (cs : List Nat) (n : Nat) : (greedy cs n).length = cs.length := by
  induction cs generalizing n with
  | nil => rfl
  | cons c cs ih => simp [greedy, ih]

theorem greedy_zero (cs : List Nat) : greedy cs 0 = List.replicate cs.length 0 := by
  induction cs with
  | nil => rfl
  | cons c cs ih => simp [greedy, ih, List.replicate_succ]

@[simp] theorem used_greedy_zero (cs : List Nat) : used (greedy cs 0) = 0 := by
  simp [greedy_zero, used, List.countP_replicate]

@[simp] theorem squares_greedy_zero (cs : List Nat) : squares (greedy cs 0) = 0 := by
  simp [greedy_zero, squares]

/-! ### Fewest bins -/

variable {cs : List Nat}

theorem used_greedy_le_of_take {n k : Nat} (h : n ≤ (cs.take k).sum) : used (greedy cs n) ≤ k := by
  induction cs generalizing n k with
  | nil => simp [greedy]
  | cons c cs ih =>
    cases k with
    | zero =>
      obtain rfl : n = 0 := by simpa using h
      simp
    | succ k =>
      rw [List.take_succ_cons, List.sum_cons] at h
      have hrest := ih (n := n - c) (k := k) (by omega)
      rw [greedy, used_cons]
      split_ifs <;> omega

theorem take_sum_le_cons {c : Nat} (h : ∀ x ∈ cs, x ≤ c) (k : Nat) :
    (cs.take k).sum ≤ ((c :: cs).take k).sum := by
  cases k with
  | zero => simp
  | succ k =>
    rw [List.take_succ_cons, List.sum_cons]
    by_cases hk : k < cs.length
    · have hx := h cs[k] (List.getElem_mem hk)
      rw [List.take_add_one, List.sum_append, List.getElem?_eq_getElem hk]
      simp only [Option.toList_some, List.sum_singleton]
      omega
    · rw [List.take_of_length_le (by omega), List.take_of_length_le (l := cs) (by omega)]
      omega

theorem sum_le_take_used {loads : List Nat} (hs : cs.Pairwise (· ≥ ·)) (hf : List.Forall₂ (· ≤ ·) loads cs) :
    loads.sum ≤ (cs.take (used loads)).sum := by
  induction hf with
  | nil => simp
  | @cons x c loads cs hx _ ih =>
    obtain ⟨htop, hs⟩ := List.pairwise_cons.mp hs
    have hrest := ih hs
    rw [List.sum_cons, used_cons]
    by_cases h0 : 0 < x
    · rw [if_pos h0, List.take_succ_cons, List.sum_cons]
      omega
    · have hle := take_sum_le_cons (fun y hy => htop y hy) (used loads)
      rw [if_neg h0, add_zero]
      omega

theorem used_greedy_le {loads : List Nat} (hs : cs.Pairwise (· ≥ ·)) (hf : List.Forall₂ (· ≤ ·) loads cs) :
    used (greedy cs loads.sum) ≤ used loads :=
  used_greedy_le_of_take (sum_le_take_used hs hf)

theorem used_greedy_mono (cs : List Nat) {m n : Nat} (h : m ≤ n) :
    used (greedy cs m) ≤ used (greedy cs n) := by
  induction cs generalizing m n with
  | nil => simp [greedy]
  | cons c cs ih =>
    have hrest := ih (m := m - c) (n := n - c) (by omega)
    rw [greedy, greedy, used_cons, used_cons]
    split_ifs <;> omega

theorem greedy_append (as bs : List Nat) (n : Nat) :
    greedy (as ++ bs) n = greedy as n ++ greedy bs (n - as.sum) := by
  induction as generalizing n with
  | nil => simp [greedy]
  | cons a as ih =>
    rw [List.cons_append, greedy, greedy, ih, List.sum_cons, Nat.sub_sub]
    rfl

/-! ### Most items together -/

theorem squares_le_sq_sum (loads : List Nat) : squares loads ≤ loads.sum ^ 2 := by
  induction loads with
  | nil => simp
  | cons x loads ih =>
    rw [squares_cons, List.sum_cons]
    nlinarith [Nat.zero_le (x * loads.sum)]

theorem greedy_sum_le (cs : List Nat) (n : Nat) : (greedy cs n).sum ≤ n := by
  induction cs generalizing n with
  | nil => simp [greedy]
  | cons c cs ih =>
    have hrest := ih (n - c)
    rw [greedy, List.sum_cons]
    omega

theorem squares_greedy_le_sq (cs : List Nat) (n : Nat) : squares (greedy cs n) ≤ n ^ 2 :=
  (squares_le_sq_sum _).trans (Nat.pow_le_pow_left (greedy_sum_le cs n) 2)

/-- Taking `k` items out of a full bin of size `top` and adding them to bins that are no
larger does not bring more items together. -/
theorem squares_greedy_add_le {top k : Nat} (hk : k ≤ top) (hc : ∀ c ∈ cs, c ≤ top) (m : Nat) :
    squares (greedy cs (m + k)) + (top - k) ^ 2 ≤ squares (greedy cs m) + top ^ 2 := by
  induction cs generalizing m with
  | nil =>
    have hle : (top - k) ^ 2 ≤ top ^ 2 := Nat.pow_le_pow_left (Nat.sub_le _ _) 2
    simpa [greedy] using hle
  | cons c cs ih =>
    obtain ⟨t, rfl⟩ := Nat.exists_eq_add_of_le hk
    have hcap := hc c (by simp)
    rw [Nat.add_sub_cancel_left] at *
    rw [greedy, greedy, squares_cons, squares_cons]
    by_cases hfull : c ≤ m
    · -- The bin is full with and without the items.
      have hrest := ih (fun x hx => hc x (by simp [hx])) (m - c)
      rw [min_eq_right hfull, min_eq_right (by omega), show m + k - c = m - c + k by omega]
      omega
    · by_cases hroom : m + k ≤ c
      · -- All of them go on top of the `m` items.
        rw [min_eq_left hroom, min_eq_left (by omega), Nat.sub_eq_zero_of_le hroom,
          Nat.sub_eq_zero_of_le (by omega)]
        nlinarith [Nat.mul_le_mul_left k (show m ≤ t by omega)]
      · -- Some go on top, and the others start new bins.
        obtain ⟨a, rfl⟩ := Nat.exists_eq_add_of_le (show m ≤ c by omega)
        obtain ⟨rest, rfl⟩ := Nat.exists_eq_add_of_le (show a ≤ k by omega)
        have hsq := squares_greedy_le_sq cs rest
        rw [min_eq_right (by omega), min_eq_left (by omega), show m + (a + rest) - (m + a) = rest by omega,
          show m - (m + a) = 0 by omega, squares_greedy_zero]
        nlinarith [Nat.mul_le_mul_left a (show m ≤ rest + t by omega), Nat.zero_le (rest * t)]

theorem squares_le_greedy {loads : List Nat} (hs : cs.Pairwise (· ≥ ·)) (hf : List.Forall₂ (· ≤ ·) loads cs) :
    squares loads ≤ squares (greedy cs loads.sum) := by
  induction hf with
  | nil => simp
  | @cons x c loads cs hx _ ih =>
    obtain ⟨htop, hs⟩ := List.pairwise_cons.mp hs
    have hrest := ih hs
    by_cases hone : x + loads.sum ≤ c
    · have hsq := squares_le_sq_sum (x :: loads)
      rw [List.sum_cons] at hsq ⊢
      rw [greedy, min_eq_left hone, squares_cons (x + loads.sum)]
      omega
    · have hmove := squares_greedy_add_le (Nat.sub_le c x) (fun y hy => htop y hy)
        (x + loads.sum - c)
      rw [show x + loads.sum - c + (c - x) = loads.sum by omega, Nat.sub_sub_self hx] at hmove
      rw [List.sum_cons, greedy, min_eq_right (by omega), squares_cons, squares_cons]
      omega

/-! ### Items in different bins -/

variable {α : Type*} [DecidableEq α]

def crossPairs : List α → Nat
  | [] => 0
  | a :: bins => bins.countP (· ≠ a) + crossPairs bins

def loadsOn (bins items : List α) : List Nat := bins.map fun b => items.count b

theorem loadsOn_cons (bins items : List α) (a : α) :
    loadsOn bins (a :: items) = bins.map fun b => items.count b + if a = b then 1 else 0 := by
  simp [loadsOn, List.count_cons]

variable {bins : List α}

theorem sum_add_ite (hn : bins.Nodup) (f : α → Nat) (a : α) (k : Nat) :
    (bins.map fun b => f b + if a = b then k else 0).sum =
      (bins.map f).sum + if a ∈ bins then k else 0 := by
  induction bins with
  | nil => simp
  | cons b bins ih =>
    obtain ⟨hb, hn⟩ := List.nodup_cons.mp hn
    simp only [List.map_cons, List.sum_cons, ih hn, List.mem_cons]
    by_cases he : a = b
    · subst he
      simp [hb]
      omega
    · simp [he]
      omega

variable {items : List α}

theorem loadsOn_sum (hn : bins.Nodup) (h : ∀ a ∈ items, a ∈ bins) :
    (loadsOn bins items).sum = items.length := by
  induction items with
  | nil => simp [loadsOn]
  | cons a items ih =>
    have ha : a ∈ bins := h a (by simp)
    rw [loadsOn_cons, sum_add_ite hn, if_pos ha, List.length_cons]
    exact congrArg (· + 1) (ih fun b hb => h b (by simp [hb]))

theorem used_loadsOn (hn : bins.Nodup) (h : ∀ a ∈ items, a ∈ bins) :
    used (loadsOn bins items) = items.toFinset.card := by
  have hset : items.toFinset = (bins.filter (· ∈ items)).toFinset := by
    ext a
    simp only [List.mem_toFinset, List.mem_filter, decide_eq_true_eq]
    exact ⟨fun ha => ⟨h a ha, ha⟩, fun ha => ha.2⟩
  rw [hset, List.toFinset_card_of_nodup (hn.filter _), ← List.countP_eq_length_filter, used, loadsOn,
    List.countP_map]
  congr 1
  funext b
  simp [List.count_pos_iff]

theorem countP_ne_add_count (a : α) (items : List α) :
    items.countP (· ≠ a) + items.count a = items.length := by
  induction items with
  | nil => rfl
  | cons x items ih =>
    rw [List.countP_cons, List.count_cons, List.length_cons]
    by_cases hx : x = a <;> simp [hx] at ih ⊢ <;> omega

theorem two_mul_crossPairs_add (hn : bins.Nodup) (h : ∀ a ∈ items, a ∈ bins) :
    2 * crossPairs items + squares (loadsOn bins items) = items.length ^ 2 := by
  induction items with
  | nil => simp [crossPairs, squares, loadsOn]
  | cons a items ih =>
    have ha : a ∈ bins := h a (by simp)
    have hrest := ih fun b hb => h b (by simp [hb])
    have hne := countP_ne_add_count a items
    have hsq : squares (loadsOn bins (a :: items)) =
        squares (loadsOn bins items) + (2 * items.count a + 1) := by
      have hterm : ∀ b ∈ bins, (items.count b + if a = b then 1 else 0) ^ 2 =
          items.count b ^ 2 + if a = b then 2 * items.count a + 1 else 0 := by
        intro b _
        split_ifs with he
        · subst he
          ring
        · simp
      rw [loadsOn_cons, squares, List.map_map, Function.comp_def, List.map_congr_left hterm,
        sum_add_ite hn, if_pos ha, squares, loadsOn, List.map_map]
      rfl
    rw [crossPairs, hsq, List.length_cons]
    nlinarith

/-- Bins filled in decreasing order of capacity: no other way to put as many items into them
uses fewer bins or has fewer pairs in different bins. -/
theorem greedy_optimal (hn : bins.Nodup) {room : α → Nat} (hs : (bins.map room).Pairwise (· ≥ ·))
    {items' : List α} (h : ∀ a ∈ items, a ∈ bins)
    (hg : loadsOn bins items = greedy (bins.map room) items.length) (hlen : items'.length = items.length)
    (h' : ∀ a ∈ items', a ∈ bins) (hroom : ∀ a ∈ bins, items'.count a ≤ room a) :
    items.toFinset.card ≤ items'.toFinset.card ∧ crossPairs items ≤ crossPairs items' := by
  have hf : List.Forall₂ (· ≤ ·) (loadsOn bins items') (bins.map room) := by
    rw [loadsOn, List.forall₂_map_left_iff, List.forall₂_map_right_iff, List.forall₂_same]
    exact hroom
  have hsum := loadsOn_sum hn h'
  have hused := used_greedy_le hs hf
  have hsq := squares_le_greedy hs hf
  rw [hsum, hlen, ← hg] at hused hsq
  rw [used_loadsOn hn h, used_loadsOn hn h'] at hused
  have htotal := two_mul_crossPairs_add hn h
  have htotal' := two_mul_crossPairs_add hn h'
  rw [hlen] at htotal'
  exact ⟨hused, by omega⟩

/-! ### Fewest bins of the last ones -/

theorem used_add_empty (bins items : List α) :
    used (loadsOn bins items) + bins.countP (fun b => items.count b = 0) = bins.length := by
  rw [used, loadsOn, List.countP_map, List.length_eq_countP_add_countP fun b => decide (items.count b = 0),
    add_comm]
  congr 2
  funext b
  simp [Nat.pos_iff_ne_zero]

/-- Bins filled in an order whose second part is decreasing in capacity: no other way to put as
many items into the bins leaves more bins of that part empty. -/
theorem greedy_leaves_most_empty {lasts : List α} (hn : (bins ++ lasts).Nodup) {room : α → Nat}
    (hs : (lasts.map room).Pairwise (· ≥ ·)) {items' : List α}
    (hg : loadsOn (bins ++ lasts) items = greedy ((bins ++ lasts).map room) items.length)
    (hlen : items'.length = items.length) (h' : ∀ a ∈ items', a ∈ bins ++ lasts)
    (hroom : ∀ a ∈ bins ++ lasts, items'.count a ≤ room a) :
    lasts.countP (fun b => items'.count b = 0) ≤ lasts.countP fun b => items.count b = 0 := by
  have hfirst : (loadsOn bins items').sum ≤ (bins.map room).sum := by
    refine List.sum_le_sum ?_
    intro b hb
    exact hroom b (List.mem_append_left _ hb)
  have hlast : List.Forall₂ (· ≤ ·) (loadsOn lasts items') (lasts.map room) := by
    rw [loadsOn, List.forall₂_map_left_iff, List.forall₂_map_right_iff, List.forall₂_same]
    exact fun b hb => hroom b (List.mem_append_right _ hb)
  have htotal : (loadsOn bins items').sum + (loadsOn lasts items').sum = items.length := by
    rw [← hlen, ← loadsOn_sum hn h']
    simp [loadsOn]
  -- What does not fit into the first part goes to the second in either way.
  have hgreedy : loadsOn lasts items = greedy (lasts.map room) (items.length - (bins.map room).sum) := by
    rw [List.map_append, greedy_append, loadsOn, List.map_append] at hg
    refine (List.append_inj hg ?_).2
    simp
  have hle : used (loadsOn lasts items) ≤ used (loadsOn lasts items') := by
    rw [hgreedy]
    exact (used_greedy_mono _ (by omega)).trans (used_greedy_le hs hlast)
  have hsplit := used_add_empty lasts items
  have hsplit' := used_add_empty lasts items'
  omega

end Packing
