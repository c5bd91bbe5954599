import Mathlib

/-! Sums over the entries of an ordered map. Updating one key changes the
sum by the contribution of that key alone. -/

namespace MapTotal

open Std ExtTreeMap

variable {K V : Type} [Ord K] [TransOrd K] [LawfulEqOrd K]

@[simp] theorem getElem?_insert_ite [DecidableEq K] (m : ExtTreeMap K V compare) (k a : K) (v : V) :
    (m.insert k v)[a]? = if k = a then some v else m[a]? := by
  simp only [getElem?_insert, LawfulEqOrd.compare_eq_iff_eq]

@[simp] theorem getElem?_erase_ite [DecidableEq K] (m : ExtTreeMap K V compare) (k a : K) :
    (m.erase k)[a]? = if k = a then none else m[a]? := by
  simp only [getElem?_erase, LawfulEqOrd.compare_eq_iff_eq]

theorem forall_insert [DecidableEq K] {m : ExtTreeMap K V compare} {P : K → V → Prop} {k : K} {v : V}
    (h : ∀ a x, m[a]? = some x → P a x) (hv : P k v) (a : K) (x : V) (hx : (m.insert k v)[a]? = some x) : P a x := by
  rw [getElem?_insert_ite] at hx
  split_ifs at hx with ha
  · obtain rfl := Option.some.inj hx
    exact ha ▸ hv
  · exact h a x hx

theorem forall_erase [DecidableEq K] {m : ExtTreeMap K V compare} {P : K → V → Prop} {k : K}
    (h : ∀ a x, m[a]? = some x → P a x) (a : K) (x : V) (hx : (m.erase k)[a]? = some x) : P a x := by
  rw [getElem?_erase_ite] at hx
  split_ifs at hx
  exact h a x hx

/-- The second map is the first with at most the entry of one key changed, to one that meets `P`. -/
inductive ChangedAt (k : K) (P : K → V → Prop) (m m' : ExtTreeMap K V compare) : Prop
  | same (h : m' = m)
  | inserted {v : V} (h : m' = m.insert k v) (hv : P k v)
  | erased (h : m' = m.erase k)

namespace ChangedAt

variable [DecidableEq K] {k : K} {P : K → V → Prop} {m m' : ExtTreeMap K V compare}

omit [LawfulEqOrd K] [DecidableEq K] in
theorem erasedIf {c : Prop} [Decidable c] (h : m' = if c then m.erase k else m) : ChangedAt k P m m' := by
  split_ifs at h
  · exact .erased h
  · exact .same h

theorem elsewhere (h : ChangedAt k P m m') {a : K} (hne : a ≠ k) : m'[a]? = m[a]? := by
  cases h with
  | same h => rw [h]
  | inserted h _ => rw [h, getElem?_insert_ite, if_neg hne.symm]
  | erased h => rw [h, getElem?_erase_ite, if_neg hne.symm]

theorem all (h : ChangedAt k P m m') (hall : ∀ a x, m[a]? = some x → P a x) :
    ∀ a x, m'[a]? = some x → P a x := by
  cases h with
  | same h => exact h ▸ hall
  | inserted h hv => exact h ▸ forall_insert hall hv
  | erased h => exact h ▸ forall_erase hall

end ChangedAt

theorem getElem?_filter_key (m : ExtTreeMap K V compare) (p : K → Bool) (a : K) :
    (m.filter fun k _ => p k)[a]? = if p a then m[a]? else none := by
  rw [getElem?_filter']
  cases hm : m[a]? with
  | none => simp
  | some v => simp [Option.filter_some]

theorem setToList_nodup (s : ExtTreeSet K compare) : s.toList.Nodup := by
  refine s.distinct_toList.imp ?_
  intro a b hab he
  exact hab (by simp [he])

theorem toList_nodup (m : ExtTreeMap K V compare) : m.toList.Nodup := by
  refine m.distinct_keys_toList.imp ?_
  intro a b hab he
  exact hab (by simp [he])

theorem toList_insert_perm_erase [DecidableEq K] (m : ExtTreeMap K V compare) (k : K) (v : V) :
    (m.insert k v).toList.Perm ((k, v) :: (m.erase k).toList) := by
  have hnot : (k, v) ∉ (m.erase k).toList := by
    rw [mem_toList_iff_getElem?_eq_some]
    simp
  rw [List.perm_ext_iff_of_nodup (toList_nodup _) (List.nodup_cons.mpr ⟨hnot, toList_nodup _⟩)]
  rintro ⟨a, w⟩
  rw [List.mem_cons, mem_toList_iff_getElem?_eq_some,
    mem_toList_iff_getElem?_eq_some]
  by_cases he : k = a
  · subst a
    simp [eq_comm]
  · simp [he, eq_comm]

variable {M : Type} [AddCommMonoid M]

def total (f : K → V → M) (m : ExtTreeMap K V compare) : M :=
  (m.toList.map fun e => f e.1 e.2).sum

omit [LawfulEqOrd K] in
@[simp] theorem total_empty (f : K → V → M) : total f (∅ : ExtTreeMap K V compare) = 0 := by
  rw [total, toList_eq_nil_iff.mpr rfl]
  rfl

theorem total_insert [DecidableEq K] (f : K → V → M) (m : ExtTreeMap K V compare) (k : K) (v : V) :
    total f (m.insert k v) = f k v + total f (m.erase k) := by
  have hp := ((toList_insert_perm_erase m k v).map fun e => f e.1 e.2).sum_eq
  simpa only [total, List.map_cons, List.sum_cons] using hp

variable {m : ExtTreeMap K V compare} {k : K}

theorem insert_of_getElem? [DecidableEq K] {v : V} (h : m[k]? = some v) : m.insert k v = m := by
  apply ext_getElem?
  intro a
  by_cases he : k = a
  · subst a
    simp [h]
  · simp [he]

theorem erase_of_getElem?_none [DecidableEq K] (h : m[k]? = none) : m.erase k = m := by
  apply ext_getElem?
  intro a
  by_cases he : k = a
  · subst a
    simp [h]
  · simp [he]

theorem total_of_getElem? [DecidableEq K] (f : K → V → M) {v : V} (h : m[k]? = some v) :
    total f m = f k v + total f (m.erase k) := by
  rw [← total_insert f m k v, insert_of_getElem? h]

theorem total_overwrite [DecidableEq K] (f : K → V → M) {v : V} (h : m[k]? = some v) (w : V) :
    total f (m.insert k w) + f k v = total f m + f k w := by
  rw [total_insert, total_of_getElem? f h]
  abel

theorem total_insert_new [DecidableEq K] (f : K → V → M) (h : m[k]? = none) (w : V) :
    total f (m.insert k w) = total f m + f k w := by
  rw [total_insert, erase_of_getElem?_none h, add_comm]

theorem total_erase [DecidableEq K] (f : K → V → M) {v : V} (h : m[k]? = some v) :
    total f (m.erase k) + f k v = total f m := by
  rw [total_of_getElem? f h, add_comm]

theorem total_congr {f g : K → V → M} (h : ∀ k v, m[k]? = some v → f k v = g k v) :
    total f m = total g m := by
  unfold total
  congr 1
  apply List.map_congr_left
  rintro ⟨k, v⟩ hm
  exact h k v (mem_toList_iff_getElem?_eq_some.mp hm)

theorem total_le_total [PartialOrder M] [IsOrderedAddMonoid M] {f g : K → V → M}
    (h : ∀ k v, m[k]? = some v → f k v ≤ g k v) : total f m ≤ total g m := by
  apply List.sum_le_sum
  rintro ⟨k, v⟩ hm
  exact h k v (mem_toList_iff_getElem?_eq_some.mp hm)

end MapTotal
