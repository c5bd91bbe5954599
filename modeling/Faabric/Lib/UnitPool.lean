import Mathlib

/-! A pool of labelled units. Claiming takes the first free unit, releasing
frees the first unit with a given label. -/

namespace UnitPool

variable {α : Type}

structure Cell (α : Type) where
  label : α
  used : Bool
deriving DecidableEq, Repr

def labels (cells : List (Cell α)) : List α := cells.map Cell.label

def usedLabels (cells : List (Cell α)) : Multiset α := ((cells.filter Cell.used).map Cell.label : List α)

def claim : List (Cell α) → Option (α × List (Cell α))
  | [] => none
  | c :: cells =>
    if c.used then (claim cells).map fun r => (r.1, c :: r.2)
    else some (c.label, { c with used := true } :: cells)

def release [DecidableEq α] (a : α) : List (Cell α) → Option (List (Cell α))
  | [] => none
  | c :: cells =>
    if c.label = a then some ({ c with used := false } :: cells)
    else (release a cells).map (c :: ·)

@[simp] theorem usedLabels_nil : usedLabels ([] : List (Cell α)) = 0 := rfl

theorem usedLabels_cons (c : Cell α) (cells : List (Cell α)) :
    usedLabels (c :: cells) = (if c.used then {c.label} else 0) + usedLabels cells := by
  by_cases hu : c.used = true
  · simp [usedLabels, hu]
  · simp [usedLabels, hu]

variable {cells : List (Cell α)}

theorem mem_usedLabels {a : α} : a ∈ usedLabels cells ↔ ⟨a, true⟩ ∈ cells := by
  simp only [usedLabels, Multiset.mem_coe, List.mem_map, List.mem_filter]
  constructor
  · rintro ⟨⟨b, u⟩, ⟨hc, hu⟩, rfl⟩
    obtain rfl : u = true := hu
    exact hc
  · intro hc
    exact ⟨_, ⟨hc, rfl⟩, rfl⟩

theorem usedLabels_le (cells : List (Cell α)) : usedLabels cells ≤ (labels cells : Multiset α) :=
  Multiset.coe_le.mpr ((List.filter_sublist.map Cell.label).subperm)

theorem usedLabels_nodup (h : (labels cells).Nodup) : (usedLabels cells).Nodup :=
  Multiset.nodup_of_le (usedLabels_le cells) (Multiset.coe_nodup.mpr h)

theorem claim_spec {rest : List (Cell α)} {a : α} (h : claim cells = some (a, rest)) :
    labels rest = labels cells ∧ usedLabels rest = a ::ₘ usedLabels cells := by
  induction cells generalizing rest with
  | nil => simp [claim] at h
  | cons c cells ih =>
    by_cases hu : c.used = true
    · simp only [claim, hu, if_true, Option.map_eq_some_iff] at h
      obtain ⟨⟨b, r⟩, hr, he⟩ := h
      obtain ⟨rfl, rfl⟩ := Prod.mk.inj he
      obtain ⟨hl, hus⟩ := ih hr
      refine ⟨by simpa [labels] using hl, ?_⟩
      rw [usedLabels_cons, usedLabels_cons, hus, Multiset.add_cons]
    · simp only [claim, hu, if_false, Option.some.injEq, Prod.mk.injEq, Bool.false_eq_true] at h
      obtain ⟨rfl, rfl⟩ := h
      refine ⟨by simp [labels], ?_⟩
      simp [usedLabels_cons, hu]

theorem claim_isSome (h : (usedLabels cells).card < cells.length) :
    ∃ a rest, claim cells = some (a, rest) := by
  induction cells with
  | nil => simp at h
  | cons c cells ih =>
    by_cases hu : c.used = true
    · have hlt : (usedLabels cells).card < cells.length := by
        simp only [usedLabels_cons, hu, if_true, Multiset.card_add, Multiset.card_singleton,
          List.length_cons] at h
        omega
      obtain ⟨a, rest, hr⟩ := ih hlt
      exact ⟨a, c :: rest, by simp [claim, hu, hr]⟩
    · exact ⟨c.label, { c with used := true } :: cells, by simp [claim, hu]⟩

theorem release_spec [DecidableEq α] {a : α} (hnd : (labels cells).Nodup) (ha : a ∈ usedLabels cells) :
    ∃ rest, release a cells = some rest ∧ labels rest = labels cells ∧
      usedLabels cells = a ::ₘ usedLabels rest := by
  induction cells with
  | nil => simp at ha
  | cons c cells ih =>
    have hc := List.nodup_cons.mp hnd
    by_cases he : c.label = a
    · have hnot : a ∉ usedLabels cells := fun hm =>
        hc.1 (he ▸ Multiset.mem_coe.mp (Multiset.mem_of_le (usedLabels_le cells) hm))
      have hu : c.used = true := by
        by_contra hu
        simp [usedLabels_cons, hu, hnot] at ha
      refine ⟨{ c with used := false } :: cells, by simp [release, he], by simp [labels], ?_⟩
      simp [usedLabels_cons, hu, he]
    · have ham : a ∈ usedLabels cells := by
        rw [usedLabels_cons, Multiset.mem_add] at ha
        rcases ha with ha | ha
        · by_cases hu : c.used = true
          · simp [hu] at ha
            exact absurd ha.symm he
          · simp [hu] at ha
        · exact ha
      obtain ⟨rest, hr, hl, hus⟩ := ih hc.2 ham
      refine ⟨c :: rest, by simp [release, he, hr], by simpa [labels] using hl, ?_⟩
      rw [usedLabels_cons, usedLabels_cons, hus, Multiset.add_cons]

end UnitPool
