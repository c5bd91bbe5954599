import Mathlib

/-! Filling an ordered map from a list: an entry is added where its key is new. -/

namespace MapFill

open Std

variable {K V α : Type} [Ord K] [TransOrd K] [LawfulEqOrd K]

def fill (key : α → K) (value : α → V) (l : List α) (m : ExtTreeMap K V compare) :
    ExtTreeMap K V compare :=
  l.foldl (fun m a => m.insertIfNew (key a) (value a)) m

theorem getElem?_insertIfNew_ite [DecidableEq K] (m : ExtTreeMap K V compare) (k a : K) (v : V) :
    (m.insertIfNew k v)[a]? = if k = a ∧ m[a]? = none then some v else m[a]? := by
  rw [ExtTreeMap.getElem?_insertIfNew]
  simp only [LawfulEqOrd.compare_eq_iff_eq]
  by_cases he : k = a
  · subst he
    have hmem : k ∈ m ↔ m[k]?.isSome = true := ExtTreeMap.mem_iff_isSome_getElem?
    cases hm : m[k]? with
    | none =>
      have hnot : k ∉ m := by simp [hmem, hm]
      simp [hnot]
    | some w =>
      have hin : k ∈ m := by simp [hmem, hm]
      simp [hin]
  · simp [he]

theorem getElem?_fill [DecidableEq K] {key : α → K} {value : α → V} {l : List α}
    (hl : (l.map key).Nodup) (m : ExtTreeMap K V compare) (k : K) (v : V) :
    (fill key value l m)[k]? = some v ↔
      m[k]? = some v ∨ (m[k]? = none ∧ ∃ a ∈ l, key a = k ∧ value a = v) := by
  induction l generalizing m with
  | nil => simp [fill]
  | cons a l ih =>
    have hnodup := List.nodup_cons.mp (by simpa using hl : (key a :: l.map key).Nodup)
    have hrest := ih hnodup.2 (m.insertIfNew (key a) (value a))
    have hfill : fill key value (a :: l) m = fill key value l (m.insertIfNew (key a) (value a)) := rfl
    rw [hfill, hrest, getElem?_insertIfNew_ite]
    by_cases hk : key a = k
    · have hout : ∀ b ∈ l, key b ≠ k := by
        intro b hb he
        exact hnodup.1 (List.mem_map.mpr ⟨b, hb, he.trans hk.symm⟩)
      cases hm : m[k]? with
      | some w => simp
      | none =>
        simp only [hk, true_and, if_true, Option.some.injEq, reduceCtorEq, false_and, or_false,
          false_or, List.mem_cons, exists_eq_or_imp]
        constructor
        · intro hv
          exact Or.inl hv
        · rintro (hv | ⟨b, hb, hbk, -⟩)
          · exact hv
          · exact absurd hbk (hout b hb)
    · simp [hk]

theorem getElem?_fill_toList {W : Type} [DecidableEq K] (n : ExtTreeMap K W compare) (f : K → W → V) (k : K) :
    (fill (fun e : K × W => e.1) (fun e => f e.1 e.2) n.toList ∅)[k]? = n[k]?.map (f k) := by
  have hnodup : (n.toList.map fun e => e.1).Nodup := by
    have := n.distinct_keys_toList
    rw [List.Nodup, List.pairwise_map]
    refine this.imp ?_
    intro a b hab he
    exact hab (by simp [he])
  apply Option.ext
  intro v
  rw [getElem?_fill hnodup, Option.map_eq_some_iff]
  constructor
  · rintro (h | ⟨-, ⟨k', w⟩, hmem, rfl, rfl⟩)
    · simp at h
    · exact ⟨w, ExtTreeMap.mem_toList_iff_getElem?_eq_some.mp hmem, rfl⟩
  · rintro ⟨w, hw, rfl⟩
    exact Or.inr ⟨by simp, (k, w), ExtTreeMap.mem_toList_iff_getElem?_eq_some.mpr hw, rfl, rfl⟩

end MapFill
