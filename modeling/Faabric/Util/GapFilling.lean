import Faabric.Util.Snapshot

/-! The regions that complete the merge regions of a snapshot. How often a place is covered is counted,
so that the order of the regions does not matter. -/

namespace Faabric

open SnapshotData

def SnapshotMergeRegion.spans (size i : Nat) (r : SnapshotMergeRegion) : Bool :=
  decide (r.offset ≤ i ∧ i < if r.length = 0 then size else r.offset + r.length)

def regionsEnd (last : Nat) (regions : List SnapshotMergeRegion) : Nat :=
  regions.foldl (fun stop r => max stop (r.offset + r.length)) last

/-- The regions that a user can add without overlap. -/
structure UserRegions (regions : List SnapshotMergeRegion) : Prop where
  region : ∀ r ∈ regions, 0 < r.length ∧ r.offset < 2 ^ 32
  apart : regions.Pairwise fun r r' =>
    r.offset + r.length ≤ r'.offset ∨ r'.offset + r'.length ≤ r.offset

section Regions

variable {regions regions' : List SnapshotMergeRegion} {r : SnapshotMergeRegion} {last size i : Nat}
  {fillType : SnapshotMergeOperation}

theorem spans_iff (h : 0 < r.length) : r.spans size i = true ↔ r.offset ≤ i ∧ i < r.offset + r.length := by
  simp [SnapshotMergeRegion.spans, show r.length ≠ 0 by omega]

theorem le_regionsEnd : last ≤ regionsEnd last regions := by
  induction regions generalizing last with
  | nil => exact le_rfl
  | cons r regions ih => exact (le_max_left _ _).trans ih

theorem regionsEnd_le {stop : Nat} (hlast : last ≤ stop) (h : ∀ r ∈ regions, r.offset + r.length ≤ stop) :
    regionsEnd last regions ≤ stop := by
  induction regions generalizing last with
  | nil => exact hlast
  | cons r regions ih =>
    exact ih (max_le hlast (h r List.mem_cons_self)) fun r' hr' => h r' (List.mem_cons_of_mem _ hr')

theorem regionsEnd_perm (h : regions.Perm regions') : regionsEnd last regions = regionsEnd last regions' :=
  h.foldl_eq' (fun _ _ _ _ (_ : Nat) => max_right_comm _ _ _) last

theorem sortRegions_perm (regions : List SnapshotMergeRegion) : (sortRegions regions).Perm regions :=
  List.mergeSort_perm _ _

theorem sortRegions_sorted (regions : List SnapshotMergeRegion) :
    (sortRegions regions).Pairwise fun r r' => r.offset ≤ r'.offset := by
  have h := @List.pairwise_mergeSort _ (fun r r' : SnapshotMergeRegion => decide (r.offset ≤ r'.offset))
    (by simp only [decide_eq_true_eq]; omega) (by simp only [Bool.or_eq_true, decide_eq_true_eq]; omega) regions
  exact h.imp of_decide_eq_true

theorem UserRegions.sorted (h : UserRegions regions) :
    (sortRegions regions).Pairwise fun r r' => r.offset + r.length ≤ r'.offset := by
  have hperm := sortRegions_perm regions
  have hapart := (hperm.symm.pairwise_iff fun hab => hab.symm).mp h.apart
  refine ((sortRegions_sorted regions).and hapart).imp_of_mem fun {r r'} _ hr' hboth => ?_
  have := (h.region r' (hperm.mem_iff.mp hr')).1
  omega

theorem pairwise_of_count {ok : Nat → Prop}
    (hcount : ∀ i, ok i → regions.countP (SnapshotMergeRegion.spans size i) ≤ 1) :
    regions.Pairwise fun r r' => ∀ i, ok i → r.spans size i = true → r'.spans size i ≠ true := by
  induction regions with
  | nil => exact .nil
  | cons r regions ih =>
    refine List.pairwise_cons.mpr ⟨fun r' hr' i hi hr hboth => ?_, ih fun i hi =>
      (List.Sublist.countP_le (List.sublist_cons_self r regions)).trans (hcount i hi)⟩
    have hpos : 0 < regions.countP (SnapshotMergeRegion.spans size i) := List.countP_pos_iff.mpr ⟨r', hr', hboth⟩
    have htwo := hcount i hi
    rw [List.countP_cons_of_pos hr] at htwo
    omega

theorem le_of_count {stop : Nat} (hr : r ∈ regions) (hlen : 0 < r.length)
    (hcount : ∀ size i, regions.countP (SnapshotMergeRegion.spans size i) = if i < stop then 1 else 0) :
    r.offset + r.length ≤ stop := by
  have hpos : 0 < regions.countP (SnapshotMergeRegion.spans 0 (r.offset + r.length - 1)) :=
    List.countP_pos_iff.mpr ⟨r, hr, (spans_iff hlen).mpr (by omega)⟩
  rw [hcount] at hpos
  split_ifs at hpos <;> omega

theorem fillGaps_count (hregions : ∀ r ∈ regions, last ≤ r.offset ∧ 0 < r.length ∧ r.offset < 2 ^ 32)
    (hsorted : regions.Pairwise fun r r' => r.offset + r.length ≤ r'.offset) :
    (∀ size i, ((fillGaps fillType (last % 2 ^ 32) regions).1 ++ regions).countP
        (SnapshotMergeRegion.spans size i) = if last ≤ i ∧ i < regionsEnd last regions then 1 else 0) ∧
      (fillGaps fillType (last % 2 ^ 32) regions).2 = regionsEnd last regions % 2 ^ 32 ∧
      ∀ g ∈ (fillGaps fillType (last % 2 ^ 32) regions).1, 0 < g.length ∧ g.offset < 2 ^ 32 ∧
        g.operation = fillType := by
  induction regions generalizing last with
  | nil =>
    refine ⟨fun size i => ?_, rfl, by simp [fillGaps]⟩
    rw [if_neg fun h => absurd h.2 (Nat.not_lt.mpr h.1)]
    rfl
  | cons r regions ih =>
    obtain ⟨hlo, hlen, hoffset⟩ := hregions r List.mem_cons_self
    obtain ⟨hafter, hsorted⟩ := List.pairwise_cons.mp hsorted
    obtain ⟨hcount, hend, hgaps⟩ := @ih (r.offset + r.length)
      (fun r' hr' => ⟨hafter r' hr', (hregions r' (List.mem_cons_of_mem _ hr')).2⟩) hsorted
    have hlast : last % 2 ^ 32 = last := Nat.mod_eq_of_lt (by omega)
    have hstop : regionsEnd last (r :: regions) = regionsEnd (r.offset + r.length) regions := by
      rw [regionsEnd, List.foldl_cons, max_eq_right (by omega)]
      rfl
    have hle : r.offset + r.length ≤ regionsEnd (r.offset + r.length) regions := le_regionsEnd
    have hcovered : ∀ size i, (r :: regions).countP (SnapshotMergeRegion.spans size i) +
        (fillGaps fillType ((r.offset + r.length) % 2 ^ 32) regions).1.countP (SnapshotMergeRegion.spans size i) =
          if r.offset ≤ i ∧ i < regionsEnd (r.offset + r.length) regions then 1 else 0 := by
      intro size i
      have hrest := hcount size i
      rw [List.countP_append] at hrest
      rw [List.countP_cons]
      simp only [spans_iff hlen]
      split_ifs at hrest ⊢ <;> omega
    by_cases hnogap : r.offset = last
    · have hfill : fillGaps fillType (last % 2 ^ 32) (r :: regions) =
          fillGaps fillType ((r.offset + r.length) % 2 ^ 32) regions := by
        rw [hlast, fillGaps]
        split_ifs with hzero
        · rw [hzero, Nat.zero_add]
        · rw [hnogap]
      rw [hfill, hstop]
      refine ⟨fun size i => ?_, hend, hgaps⟩
      rw [List.countP_append, Nat.add_comm, hcovered, hnogap]
    · have hgap : (r.offset + 2 ^ 32 - last) % 2 ^ 32 = r.offset - last := by omega
      have hfill : fillGaps fillType (last % 2 ^ 32) (r :: regions) =
          (⟨last, r.offset - last, .raw, fillType⟩ ::
            (fillGaps fillType ((r.offset + r.length) % 2 ^ 32) regions).1,
            (fillGaps fillType ((r.offset + r.length) % 2 ^ 32) regions).2) := by
        rw [hlast, fillGaps, if_neg (by omega), if_neg hnogap, hgap]
      rw [hfill, hstop]
      refine ⟨fun size i => ?_, hend, fun g hg => ?_⟩
      · have hrest := hcovered size i
        rw [List.cons_append, List.countP_cons, List.countP_append]
        simp only [spans_iff (show 0 < (SnapshotMergeRegion.mk last (r.offset - last) .raw fillType).length by
          simp only; omega)]
        split_ifs at hrest ⊢ <;> omega
      · rcases List.mem_cons.mp hg with rfl | hg
        · exact ⟨by simp only; omega, by simp only; omega, rfl⟩
        · exact hgaps g hg

theorem fillGaps_last (last : Nat) : (fillGaps fillType last (regions ++ [r])).2 = (r.offset + r.length) % 2 ^ 32 := by
  induction regions generalizing last with
  | nil =>
    rw [List.nil_append, fillGaps]
    split_ifs with hzero hnogap
    · rw [hzero, Nat.zero_add]
      rfl
    · rw [hnogap]
      rfl
    · rfl
  | cons r' regions ih =>
    rw [List.cons_append, fillGaps]
    split_ifs
    · exact ih _
    · exact ih _
    · exact ih _

end Regions

section Snapshots

variable {s : SnapshotData} {fillType : SnapshotMergeOperation}

theorem fillGapsWith_eq (s : SnapshotData) (fillType : SnapshotMergeOperation) :
    s.fillGapsWith fillType = { s with
      mergeRegions := s.mergeRegions ++ ((fillGaps fillType 0 (sortRegions s.mergeRegions)).1 ++
        if s.mergeRegions = [] ∨ (fillGaps fillType 0 (sortRegions s.mergeRegions)).2 < s.data.length then
          [⟨(fillGaps fillType 0 (sortRegions s.mergeRegions)).2, 0, .raw, fillType⟩] else []) } := by
  rw [fillGapsWith]
  by_cases hempty : s.mergeRegions = []
  · rw [if_pos (by simp [hempty])]
    simp [hempty, addMergeRegion, sortRegions, fillGaps]
  · rw [if_neg (by simpa using hempty)]
    simp only [hempty, false_or]
    split_ifs
    · simp [addMergeRegion]
    · simp

theorem UserRegions.filled (h : UserRegions s.mergeRegions) (fillType : SnapshotMergeOperation) :
    ∃ gaps, s.fillGapsWith fillType = { s with
        mergeRegions := s.mergeRegions ++ (gaps ++
          if s.mergeRegions = [] ∨ regionsEnd 0 s.mergeRegions % 2 ^ 32 < s.data.length then
            [⟨regionsEnd 0 s.mergeRegions % 2 ^ 32, 0, .raw, fillType⟩] else []) } ∧
      (∀ g ∈ gaps, 0 < g.length ∧ g.offset < 2 ^ 32 ∧ g.operation = fillType) ∧
      ∀ size i, (s.mergeRegions ++ gaps).countP (SnapshotMergeRegion.spans size i) =
        if i < regionsEnd 0 s.mergeRegions then 1 else 0 := by
  have hperm := sortRegions_perm s.mergeRegions
  obtain ⟨hcount, hend, hgaps⟩ := @fillGaps_count (sortRegions s.mergeRegions) 0 fillType
    (fun r hr => ⟨Nat.zero_le _, h.region r (hperm.mem_iff.mp hr)⟩) h.sorted
  rw [Nat.zero_mod, regionsEnd_perm hperm] at hend
  refine ⟨(fillGaps fillType 0 (sortRegions s.mergeRegions)).1, ?_, hgaps, fun size i => ?_⟩
  · rw [fillGapsWith_eq, hend]
  · have hboth := hcount size i
    rw [regionsEnd_perm hperm, List.countP_append, hperm.countP_eq] at hboth
    rw [List.countP_append, Nat.add_comm]
    simpa using hboth

/-- The user's regions are there, and every byte of the snapshot is in one region. -/
structure FilledExactly (s s' : SnapshotData) : Prop where
  kept : ∃ added, s'.mergeRegions = s.mergeRegions ++ added
  once : ∀ i < s.data.length, s'.mergeRegions.countP (SnapshotMergeRegion.spans s.data.length i) = 1

theorem iterate_fillGapsWith (s : SnapshotData) (n : Nat) :
    ∃ added, (fun s => fillGapsWith s fillType)^[n] s = { s with mergeRegions := s.mergeRegions ++ added } := by
  induction n generalizing s with
  | zero => exact ⟨[], by simp⟩
  | succ n ih =>
    obtain ⟨added, hrest⟩ := ih (s.fillGapsWith fillType)
    rw [Function.iterate_succ_apply, hrest, fillGapsWith_eq]
    exact ⟨_, by rw [List.append_assoc]⟩

theorem UserRegions.filled_once (h : UserRegions s.mergeRegions)
    (hrange : regionsEnd 0 s.mergeRegions < 2 ^ 32) {i : Nat} (hi : i < s.data.length) :
    (s.fillGapsWith fillType).mergeRegions.countP (SnapshotMergeRegion.spans s.data.length i) = 1 := by
  obtain ⟨gaps, hfill, -, hcount⟩ := h.filled fillType
  rw [Nat.mod_eq_of_lt hrange] at hfill
  rw [hfill, ← List.append_assoc, List.countP_append, hcount]
  by_cases hin : i < regionsEnd 0 s.mergeRegions
  · split_ifs <;> simp [SnapshotMergeRegion.spans, hin]
  · rw [if_neg hin, if_pos (Or.inr (by omega))]
    simp [SnapshotMergeRegion.spans, hi, Nat.le_of_not_lt hin]

theorem UserRegions.filled_again (h : UserRegions s.mergeRegions) (hne : s.mergeRegions ≠ [])
    (hlong : s.data.length ≤ regionsEnd 0 s.mergeRegions % 2 ^ 32) :
    (s.fillGapsWith fillType).fillGapsWith fillType = s.fillGapsWith fillType := by
  obtain ⟨gaps, hfill, hgaps, hcount⟩ := h.filled fillType
  rw [if_neg (by simpa [hne] using hlong), List.append_nil] at hfill
  have hregion : ∀ r ∈ s.mergeRegions ++ gaps, 0 < r.length ∧ r.offset < 2 ^ 32 := by
    intro r hr
    rcases List.mem_append.mp hr with hr | hr
    · exact h.region r hr
    · exact ⟨(hgaps r hr).1, (hgaps r hr).2.1⟩
  have hend : regionsEnd 0 (s.mergeRegions ++ gaps) = regionsEnd 0 s.mergeRegions := by
    rw [regionsEnd, List.foldl_append]
    exact (regionsEnd_le le_rfl fun r hr =>
      le_of_count (List.mem_append_right _ hr) (hgaps r hr).1 hcount).antisymm le_regionsEnd
  have huser : UserRegions (s.fillGapsWith fillType).mergeRegions := by
    rw [hfill]
    have hapart := @pairwise_of_count (s.mergeRegions ++ gaps) 0 (fun _ => True) fun i _ => by
      rw [hcount]
      split_ifs <;> omega
    refine ⟨hregion, hapart.imp_of_mem fun {r r'} hr hr' hboth => ?_⟩
    by_contra hover
    have hlen := (hregion r hr).1
    have hlen' := (hregion r' hr').1
    exact hboth (max r.offset r'.offset) trivial ((spans_iff hlen).mpr (by omega)) ((spans_iff hlen').mpr (by omega))
  obtain ⟨gaps', hfill', hgaps', hcount'⟩ := huser.filled fillType
  simp only [hfill, hend] at hfill' hcount'
  have hnone : gaps' = [] := by
    refine List.eq_nil_iff_forall_not_mem.mpr fun g hg => ?_
    have hboth := hcount' 0 g.offset
    rw [List.countP_append, hcount, Nat.add_eq_left, List.countP_eq_zero] at hboth
    exact hboth g hg ((spans_iff (hgaps' g hg).1).mpr ⟨le_rfl, by have := (hgaps' g hg).1; omega⟩)
  rw [hfill, hfill', hnone, if_neg (by simpa [hne] using hlong)]
  simp

theorem UserRegions.ends_twice (h : UserRegions s.mergeRegions)
    (hshort : regionsEnd 0 s.mergeRegions < s.data.length) (hrange : regionsEnd 0 s.mergeRegions < 2 ^ 32) :
    2 ≤ ((s.fillGapsWith fillType).fillGapsWith fillType).mergeRegions.countP
      (SnapshotMergeRegion.spans s.data.length (regionsEnd 0 s.mergeRegions)) := by
  obtain ⟨gaps, hfill, hgaps, hcount⟩ := h.filled fillType
  rw [Nat.mod_eq_of_lt hrange, if_pos (Or.inr hshort)] at hfill
  have hspans : SnapshotMergeRegion.spans s.data.length (regionsEnd 0 s.mergeRegions)
      ⟨regionsEnd 0 s.mergeRegions, 0, .raw, fillType⟩ = true := by
    simpa [SnapshotMergeRegion.spans] using hshort
  -- the region without a length comes last in the order of the offsets
  have hlast : (fillGaps fillType 0 (sortRegions (s.fillGapsWith fillType).mergeRegions)).2 =
      regionsEnd 0 s.mergeRegions := by
    have hperm := sortRegions_perm (s.fillGapsWith fillType).mergeRegions
    have hsorted := sortRegions_sorted (s.fillGapsWith fillType).mergeRegions
    have hmem : ⟨regionsEnd 0 s.mergeRegions, 0, .raw, fillType⟩ ∈
        sortRegions (s.fillGapsWith fillType).mergeRegions := by
      rw [hperm.mem_iff, hfill]
      simp
    rcases List.eq_nil_or_concat (sortRegions (s.fillGapsWith fillType).mergeRegions) with hnil | ⟨rs, r, hrs⟩
    · rw [hnil] at hmem
      cases hmem
    · rw [List.concat_eq_append] at hrs
      have hmem' := (hperm.mem_iff (a := r)).mp (by simp [hrs])
      rw [hrs] at hmem hsorted
      rw [hrs, fillGaps_last]
      have hle : regionsEnd 0 s.mergeRegions ≤ r.offset := by
        rcases List.mem_append.mp hmem with hin | hin
        · exact (List.pairwise_append.mp hsorted).2.2 _ hin r (by simp)
        · rw [← List.mem_singleton.mp hin]
      rw [hfill, ← List.append_assoc] at hmem'
      rcases List.mem_append.mp hmem' with hin | hin
      · have hlen : 0 < r.length := by
          rcases List.mem_append.mp hin with hin | hin
          · exact (h.region r hin).1
          · exact (hgaps r hin).1
        have := le_of_count hin hlen hcount
        omega
      · rw [List.mem_singleton.mp hin]
        exact Nat.mod_eq_of_lt hrange
  have hsize : (s.fillGapsWith fillType).data = s.data := by rw [hfill]
  have hagain := fillGapsWith_eq (s.fillGapsWith fillType) fillType
  rw [hlast, hsize, if_pos (Or.inr hshort)] at hagain
  have hpos : ∀ l : List SnapshotMergeRegion, 1 ≤
      (l ++ [SnapshotMergeRegion.mk (regionsEnd 0 s.mergeRegions) 0 .raw fillType]).countP
        (SnapshotMergeRegion.spans s.data.length (regionsEnd 0 s.mergeRegions)) := fun l =>
    List.countP_pos_iff.mpr ⟨_, by simp, hspans⟩
  rw [hagain, List.countP_append]
  have hfirst : 1 ≤ (s.fillGapsWith fillType).mergeRegions.countP
      (SnapshotMergeRegion.spans s.data.length (regionsEnd 0 s.mergeRegions)) := by
    rw [hfill, ← List.append_assoc]
    exact hpos _
  exact Nat.add_le_add hfirst (hpos _)

/-- However often the gaps are filled: every byte is in one region exactly if the user's regions end, as
a `uint32_t`, at or after the end of the snapshot, or end within the range of a `uint32_t` and the gaps
are filled once. -/
theorem gaps_filled_exactly_iff (h : UserRegions s.mergeRegions) (n : Nat) :
    FilledExactly s ((fun s => fillGapsWith s fillType)^[n + 1] s) ↔
      s.data.length ≤ regionsEnd 0 s.mergeRegions % 2 ^ 32 ∨
        (n = 0 ∧ regionsEnd 0 s.mergeRegions < 2 ^ 32) := by
  obtain ⟨gaps, hfill, hgaps, hcount⟩ := h.filled fillType
  constructor
  · intro hexact
    by_contra hcond
    push Not at hcond
    obtain ⟨hshort, hcalls⟩ := hcond
    -- a place that is in two regions stays so
    have hgrow : ∀ k t i, i < s.data.length → k ≤ n + 1 → t = (fun s => fillGapsWith s fillType)^[k] s →
        t.mergeRegions.countP (SnapshotMergeRegion.spans s.data.length i) ≤ 1 := by
      intro k t i hi hk ht
      obtain ⟨added, hadded⟩ := @iterate_fillGapsWith fillType t (n + 1 - k)
      rw [ht, ← Function.iterate_add_apply, Nat.sub_add_cancel hk] at hadded
      have honce := hexact.once i hi
      rw [hadded, List.countP_append, ← ht] at honce
      omega
    by_cases hrange : regionsEnd 0 s.mergeRegions < 2 ^ 32
    · rw [Nat.mod_eq_of_lt hrange] at hshort
      have htwice := @UserRegions.ends_twice s fillType h hshort hrange
      have := hgrow 2 _ (regionsEnd 0 s.mergeRegions) hshort
        (by have : n ≠ 0 := fun hn => absurd hrange (Nat.not_lt.mpr (hcalls hn)); omega) rfl
      exact absurd (htwice.trans this) (by decide)
    · have honce := hgrow 1 (s.fillGapsWith fillType) (regionsEnd 0 s.mergeRegions % 2 ^ 32) hshort (by omega) rfl
      have hless : regionsEnd 0 s.mergeRegions % 2 ^ 32 < regionsEnd 0 s.mergeRegions :=
        (Nat.mod_lt _ (by norm_num)).trans_le (Nat.le_of_not_lt hrange)
      have hspans : SnapshotMergeRegion.spans s.data.length (regionsEnd 0 s.mergeRegions % 2 ^ 32)
          ⟨regionsEnd 0 s.mergeRegions % 2 ^ 32, 0, .raw, fillType⟩ = true := by
        simpa [SnapshotMergeRegion.spans] using hshort
      rw [hfill, if_pos (Or.inr hshort), ← List.append_assoc, List.countP_append, hcount, if_pos hless,
        List.countP_singleton, if_pos hspans] at honce
      omega
  · intro hcond
    obtain ⟨added, hadded⟩ := @iterate_fillGapsWith fillType s (n + 1)
    refine ⟨⟨added, by rw [hadded]⟩, fun i hi => ?_⟩
    by_cases hlong : s.data.length ≤ regionsEnd 0 s.mergeRegions % 2 ^ 32
    · have hmod := Nat.mod_le (regionsEnd 0 s.mergeRegions) (2 ^ 32)
      have hne : s.mergeRegions ≠ [] := by
        intro hnil
        rw [hnil] at hlong
        exact absurd hi (Nat.not_lt.mpr (hlong.trans (by simp [regionsEnd])))
      have hsame : (fun s => fillGapsWith s fillType)^[n + 1] s = s.fillGapsWith fillType := by
        rw [Function.iterate_succ_apply]
        exact Function.iterate_fixed (h.filled_again hne hlong) n
      rw [hsame, hfill, if_neg (by simpa [hne] using hlong), List.append_nil, hcount, if_pos (by omega)]
    · obtain ⟨rfl, hrange⟩ := hcond.resolve_left hlong
      exact h.filled_once hrange hi

end Snapshots

theorem gaps_filled_exactly_iff_once :
    FilledExactly { data := [0, 0, 0, 0], maxSize := 4, mergeRegions := [⟨1, 2, .raw, .bytewise⟩] }
      (SnapshotData.fillGapsWith
        { data := [0, 0, 0, 0], maxSize := 4, mergeRegions := [⟨1, 2, .raw, .bytewise⟩] } .bytewise) :=
  (gaps_filled_exactly_iff ⟨by simp, List.pairwise_singleton _ _⟩ 0).mpr (Or.inr ⟨rfl, by decide⟩)

/-- The second call repeats the region that goes up to the end. -/
theorem gaps_filled_twice :
    let s : SnapshotData := { data := [0, 0], maxSize := 2 }
    ¬ FilledExactly s ((s.fillGapsWith .bytewise).fillGapsWith .bytewise) := by
  intro s hfilled
  exact absurd (hfilled.once 0 (by decide)) (by decide +kernel)

end Faabric
