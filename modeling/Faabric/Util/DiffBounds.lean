import Faabric.Util.SnapshotDiffs

/-! The memory that `diffWithDirtyRegions` reads and writes. The snapshot and the updated copy are always
accessed at the same places. -/

namespace Faabric

open SnapshotMergeRegion

namespace SnapshotMergeRegion

variable (r : SnapshotMergeRegion) (size : Nat) (dirtyRegions : List Bool)

def startByte (p : Nat) : Nat := Nat.max r.offset (p * hostPageSize % 2 ^ 32)

def endByte (p : Nat) : Nat := Nat.min (r.mrEnd size) ((p + 1) * hostPageSize % 2 ^ 32)

def valueSize : Option Nat :=
  match r.dataType with
  | .int | .float => some 4
  | .long | .double => some 8
  | _ => none

def accessed : List (Nat × Nat) :=
  match r.operation with
  | .ignore => []
  | .bytewise => (r.dirtyPages size dirtyRegions).map fun p =>
      (r.startByte p, Nat.max (r.startByte p) (r.endByte size p))
  | .xor => (r.dirtyPages size dirtyRegions).map fun p =>
      (r.startByte p, r.startByte p + (r.endByte size p + 2 ^ 32 - r.startByte p) % 2 ^ 32)
  | _ =>
    if r.dirtyPages size dirtyRegions = [] then []
    else r.valueSize.toList.map fun n => (r.offset, r.offset + n)

end SnapshotMergeRegion

/-- A call of `addDiffs` searches a range of the flags, accesses the first bytes of the copy only, and
adds diffs of bytes of the whole copy, which has `total` bytes. -/
structure RegionInside (r : SnapshotMergeRegion) (original copy : List UInt8) (dirtyRegions : List Bool)
    (total : Nat) : Prop where
  flags : r.operation ≠ .ignore → r.offset ≤ original.length →
    r.firstPage ≤ r.endPage original.length ∧ r.endPage original.length ≤ dirtyRegions.length
  bytes : r.offset ≤ original.length → ∀ range ∈ r.accessed original.length dirtyRegions, range.2 ≤ original.length
  diffs : ∀ spans copy', r.addDiffs original dirtyRegions ([], copy) = .ok (spans, copy') →
    ∀ span ∈ spans, span.offset + span.length ≤ total

def SnapshotMergeRegion.ValueChanged (r : SnapshotMergeRegion) (original copy : List UInt8) : Prop :=
  match r.dataType with
  | .int => ∃ value, calculateDiffValue (intNumber 4) (original.drop r.offset) (copy.drop r.offset) r.operation =
      .ok (some value)
  | .long => ∃ value, calculateDiffValue (intNumber 8) (original.drop r.offset) (copy.drop r.offset) r.operation =
      .ok (some value)
  | .float => ∃ value, calculateDiffValue floatNumber (original.drop r.offset) (copy.drop r.offset) r.operation =
      .ok (some value)
  | .double => ∃ value, calculateDiffValue doubleNumber (original.drop r.offset) (copy.drop r.offset) r.operation =
      .ok (some value)
  | _ => False

/-- What has to be asked of a region that starts in the snapshot: its end does not wrap round to a page
before it; with XOR its end does not wrap round on a page that is dirty, unless there is as much memory;
and a number on a dirty page lies in the snapshot, and if it has changed the region lies in the copy. -/
def RegionFits (r : SnapshotMergeRegion) (original copy : List UInt8) (dirtyRegions : List Bool) (total : Nat) : Prop :=
  r.operation ≠ .ignore → r.offset ≤ original.length → r.firstPage ≤ r.endPage original.length ∧
    match r.operation with
    | .ignore | .bytewise => True
    | .xor => ∀ p ∈ r.dirtyPages original.length dirtyRegions,
        r.startByte p ≤ r.endByte original.length p ∨ 2 ^ 32 + r.endByte original.length p ≤ original.length
    | _ => r.dirtyPages original.length dirtyRegions ≠ [] → ∀ n ∈ r.valueSize,
        r.offset + n ≤ original.length ∧ (r.ValueChanged original copy → r.offset + r.length ≤ total)

section Calls

variable {r : SnapshotMergeRegion} {original copy copy' : List UInt8} {dirtyRegions : List Bool} {total p : Nat}
  {spans : List DiffSpan}

theorem endByte_le (r : SnapshotMergeRegion) (size p : Nat) : r.endByte size p ≤ size :=
  (Nat.min_le_left _ _).trans (mrEnd_le_size r size)

theorem startByte_le {size : Nat} (hin : r.offset ≤ size) (hp : p ∈ r.dirtyPages size dirtyRegions) :
    r.startByte p ≤ size := by
  have hmem := List.mem_range'_1.mp (List.mem_of_mem_filter hp)
  have hend := mrEnd_le_size r size
  have hmod := Nat.mod_le (p * hostPageSize) (2 ^ 32)
  refine Nat.max_le.mpr ⟨hin, hmod.trans ?_⟩
  simp only [endPage, getRequiredHostPages, hostPageSize] at *
  omega

theorem startByte_lt (hoffset : r.offset < 2 ^ 32) : r.startByte p < 2 ^ 32 :=
  Nat.max_lt.mpr ⟨hoffset, Nat.mod_lt _ (by norm_num)⟩

theorem endByte_lt (r : SnapshotMergeRegion) (size p : Nat) : r.endByte size p < 2 ^ 32 :=
  (Nat.min_le_right _ _).trans_lt (Nat.mod_lt _ (by norm_num))

theorem diffArrayRegions_inside {start stop size : Nat} {diffs : List DiffSpan} (hstart : start < 2 ^ 32)
    (hsize : stop ≤ size) (h : diffArrayRegions spans start stop original copy = .ok diffs)
    (hspans : ∀ span ∈ spans, span.offset + span.length ≤ size) :
    ∀ span ∈ diffs, span.offset + span.length ≤ size := by
  by_cases hle : start ≤ stop
  · by_cases hend : stop ≤ 2 ^ 32 - arrayCompChunkSize + start % arrayCompChunkSize
    · obtain ⟨found, hok, hruns⟩ := diffArrayRegions_runs original copy spans hle hend
      obtain rfl := Except.ok.inj (hok.symm.trans h)
      intro span hspan
      rcases List.mem_append.mp hspan with hspan | hspan
      · exact hspans span hspan
      · have := hruns.inside span hspan
        omega
    · rw [diffArrayRegions, DiffScan.chunks_loop hstart (by omega)] at h
      cases h
  · rw [diffArrayRegions, show stop - start = 0 by omega, DiffScan.chunks, if_neg (by omega)] at h
    cases h
    exact hspans

theorem addPageDiffs_inside (hop : r.operation = .bytewise ∨ r.operation = .xor) (hoffset : r.offset < 2 ^ 32)
    (hxor : r.operation = .xor → r.startByte p + (r.endByte original.length p + 2 ^ 32 - r.startByte p) % 2 ^ 32 ≤ total)
    (htotal : original.length ≤ total) {state state' : List DiffSpan × List UInt8}
    (h : r.addPageDiffs (r.mrEnd original.length) original state p = .ok state')
    (hspans : ∀ span ∈ state.1, span.offset + span.length ≤ total) :
    ∀ span ∈ state'.1, span.offset + span.length ≤ total := by
  obtain ⟨diffs, copy⟩ := state
  rcases hop with hop | hop
  · rcases hdiff : diffArrayRegions diffs (r.startByte p) (r.endByte original.length p) original copy with e | found
    · simp only [startByte, endByte] at hdiff
      simp only [addPageDiffs, hop, hdiff, bind, Except.bind, if_true] at h
      cases h
    · have hinside := diffArrayRegions_inside (startByte_lt hoffset) ((endByte_le r _ p).trans htotal) hdiff hspans
      simp only [startByte, endByte] at hdiff
      simp only [addPageDiffs, hop, hdiff, bind, Except.bind, if_true, pure, Except.pure,
        Except.ok.injEq] at h
      rw [← h]
      exact hinside
  · simp only [addPageDiffs, hop, reduceCtorEq, if_false, pure, Except.pure,
      Except.ok.injEq] at h
    rw [← h]
    intro span hspan
    rcases List.mem_append.mp hspan with hspan | hspan
    · exact hspans span hspan
    · rw [List.mem_singleton.mp hspan]
      exact hxor hop

theorem foldlM_inside (hop : r.operation = .bytewise ∨ r.operation = .xor) (hoffset : r.offset < 2 ^ 32)
    (htotal : original.length ≤ total) {pages : List Nat}
    (hxor : r.operation = .xor → ∀ p ∈ pages,
      r.startByte p + (r.endByte original.length p + 2 ^ 32 - r.startByte p) % 2 ^ 32 ≤ total)
    {state state' : List DiffSpan × List UInt8}
    (h : pages.foldlM (r.addPageDiffs (r.mrEnd original.length) original) state = .ok state')
    (hspans : ∀ span ∈ state.1, span.offset + span.length ≤ total) :
    ∀ span ∈ state'.1, span.offset + span.length ≤ total := by
  induction pages generalizing state with
  | nil =>
    cases h
    exact hspans
  | cons p pages ih =>
    rw [List.foldlM_cons] at h
    rcases hpage : r.addPageDiffs (r.mrEnd original.length) original state p with e | next
    · rw [hpage] at h
      cases h
    · rw [hpage] at h
      exact ih (fun hx q hq => hxor hx q (List.mem_cons_of_mem _ hq)) h
        (addPageDiffs_inside hop hoffset (fun hx => hxor hx p List.mem_cons_self) htotal hpage hspans)

theorem xor_range_iff {start stop size : Nat} (hstart : start < 2 ^ 32) (hstop : stop < 2 ^ 32) (hsize : stop ≤ size) :
    start + (stop + 2 ^ 32 - start) % 2 ^ 32 ≤ size ↔ start ≤ stop ∨ 2 ^ 32 + stop ≤ size := by
  omega

theorem addValueDiff_inside {T : Type} {number : DiffNumber T} :
    (∀ spans copy', r.addValueDiff number original [] copy = .ok (spans, copy') →
        ∀ span ∈ spans, span.offset + span.length ≤ total) ↔
      ((∃ value, calculateDiffValue number (original.drop r.offset) (copy.drop r.offset) r.operation =
        .ok (some value)) → r.offset + r.length ≤ total) := by
  rw [addValueDiff]
  rcases calculateDiffValue number (original.drop r.offset) (copy.drop r.offset) r.operation with e | ⟨_ | value⟩
  · simp [bind, Except.bind]
  · simp [bind, Except.bind, pure, Except.pure]
  · simp [bind, Except.bind, pure, Except.pure]

theorem regionInside_iff (hoffset : r.offset < 2 ^ 32)
    (hflags : getRequiredHostPages original.length ≤ dirtyRegions.length) (htotal : original.length ≤ total) :
    RegionInside r original copy dirtyRegions total ↔ RegionFits r original copy dirtyRegions total := by
  have hsearched : r.endPage original.length ≤ dirtyRegions.length := (endPage_le r _).trans hflags
  by_cases hop : r.operation = .ignore
  · have hnone : r.addDiffs original dirtyRegions ([], copy) = .ok ([], copy) := by
      rw [addDiffs, if_pos hop]
      rfl
    exact ⟨fun _ hnot => absurd hop hnot, fun _ => ⟨fun hnot => absurd hop hnot,
      by simp [accessed, hop], by simp [hnone]⟩⟩
  by_cases hin : r.offset ≤ original.length
  · have heq := fun hpages => @addDiffs_eq r original dirtyRegions hop hin hpages hsearched ([], copy)
    have hxor : (∀ p ∈ r.dirtyPages original.length dirtyRegions, r.startByte p +
        (r.endByte original.length p + 2 ^ 32 - r.startByte p) % 2 ^ 32 ≤ original.length) ↔
        ∀ p ∈ r.dirtyPages original.length dirtyRegions,
          r.startByte p ≤ r.endByte original.length p ∨ 2 ^ 32 + r.endByte original.length p ≤ original.length :=
      forall₂_congr fun p _ => xor_range_iff (startByte_lt hoffset) (endByte_lt r _ p) (endByte_le r _ p)
    -- the fields of the structure, one for one
    have hfields : RegionInside r original copy dirtyRegions total ↔ r.firstPage ≤ r.endPage original.length ∧
        (∀ range ∈ r.accessed original.length dirtyRegions, range.2 ≤ original.length) ∧
        ∀ spans copy', r.addDiffs original dirtyRegions ([], copy) = .ok (spans, copy') →
          ∀ span ∈ spans, span.offset + span.length ≤ total :=
      ⟨fun h => ⟨(h.flags hop hin).1, h.bytes hin, h.diffs⟩,
        fun h => ⟨fun _ _ => ⟨h.1, hsearched⟩, fun _ => h.2.1, h.2.2⟩⟩
    rw [hfields, RegionFits]
    simp only [hop, hin, ne_eq, not_false_eq_true, forall_true_left]
    refine and_congr_right fun hpages => ?_
    rw [heq hpages]
    have hpaged : r.operation = .bytewise ∨ r.operation = .xor →
        (r.operation = .xor → ∀ p ∈ r.dirtyPages original.length dirtyRegions, r.startByte p +
          (r.endByte original.length p + 2 ^ 32 - r.startByte p) % 2 ^ 32 ≤ original.length) →
        ∀ spans copy', (r.dirtyPages original.length dirtyRegions).foldlM
            (r.addPageDiffs (r.mrEnd original.length) original) ([], copy) = .ok (spans, copy') →
          ∀ span ∈ spans, span.offset + span.length ≤ total := by
      intro hboth hrange spans copy' hfold
      exact foldlM_inside hboth hoffset htotal (fun hx p hp => (hrange hx p hp).trans htotal) hfold (by simp)
    by_cases hclean : r.dirtyPages original.length dirtyRegions = []
    · cases hcase : r.operation <;> simp [accessed, hcase, hclean]
    rw [if_neg hclean]
    cases hcase : r.operation with
    | ignore => exact absurd hcase hop
    | bytewise =>
      simp only [true_or, if_true, iff_true]
      refine ⟨fun range hrange => ?_, hpaged (Or.inl hcase) fun hx => by simp [hcase] at hx⟩
      simp only [accessed, hcase] at hrange
      obtain ⟨p, hp, rfl⟩ := List.mem_map.mp hrange
      exact Nat.max_le.mpr ⟨startByte_le hin hp, endByte_le r _ p⟩
    | xor =>
      simp only [hcase, or_true, if_true, accessed, List.forall_mem_map]
      rw [hxor]
      exact and_iff_left_of_imp fun hrange => hpaged (Or.inr hcase) fun _ => hxor.mpr hrange
    | sum | product | subtract | max | min =>
      simp only [hcase, reduceCtorEq, or_self, if_false, accessed, hclean, not_false_eq_true,
        forall_true_left, valueSize, SnapshotMergeRegion.ValueChanged]
      cases hd : r.dataType <;> simp [addValueDiff_inside, hcase]
  · have hnone : r.addDiffs original dirtyRegions ([], copy) = .ok ([], copy) := by
      rw [addDiffs, if_neg hop, if_pos (by omega)]
      rfl
    exact ⟨fun _ _ hle => absurd hle hin, fun _ => ⟨fun _ hle => absurd hle hin, fun hle => absurd hle hin,
      by simp [hnone]⟩⟩

end Calls

/-! ### All regions of a snapshot -/

/-- The regions that are looked at, each with the copy as it finds it. What is found in one region does
not depend on the diffs of the others. -/
def diffCallsFrom (original : List UInt8) (dirtyRegions : List Bool) :
    List SnapshotMergeRegion → List UInt8 → List (SnapshotMergeRegion × List UInt8)
  | [], _ => []
  | r :: regions, copy => (r, copy) ::
    match r.addDiffs original dirtyRegions ([], copy) with
    | .ok (_, copy) => diffCallsFrom original dirtyRegions regions copy
    | .error _ => []

def SnapshotData.diffCalls (s : SnapshotData) (updated : List UInt8) (dirtyRegions : List Bool) :
    List (SnapshotMergeRegion × List UInt8) :=
  if dirtyRegions.all (!·) then []
  else diffCallsFrom s.data dirtyRegions (sortRegions s.mergeRegions) (updated.take s.data.length)

variable {call : SnapshotMergeRegion × List UInt8}

theorem mem_diffCallsFrom {original copy : List UInt8} {dirtyRegions : List Bool}
    {regions : List SnapshotMergeRegion} (h : call ∈ diffCallsFrom original dirtyRegions regions copy) :
    call.1 ∈ regions := by
  induction regions generalizing copy with
  | nil => cases h
  | cons r regions ih =>
    rcases List.mem_cons.mp h with rfl | h
    · exact List.mem_cons_self
    · rcases hcall : r.addDiffs original dirtyRegions ([], copy) with e | ⟨spans, copy'⟩
      · rw [hcall] at h
        cases h
      · rw [hcall] at h
        exact List.mem_cons_of_mem _ (ih h)

theorem mem_diffCalls {s : SnapshotData} {updated : List UInt8} {dirtyRegions : List Bool}
    (h : call ∈ s.diffCalls updated dirtyRegions) : call.1 ∈ s.mergeRegions := by
  rw [SnapshotData.diffCalls] at h
  split_ifs at h
  · cases h
  · exact (List.mergeSort_perm _ _).mem_iff.mp (mem_diffCallsFrom h)

def DiffsInside (s : SnapshotData) (updated : List UInt8) (dirtyRegions : List Bool) : Prop :=
  (∃ message, s.diffWithDirtyRegions updated dirtyRegions = .error (.runtimeError message)) ∨
    ∀ call ∈ s.diffCalls updated dirtyRegions, RegionInside call.1 s.data call.2 dirtyRegions updated.length

def twoBytes : SnapshotData := { data := [0, 0], maxSize := 2, mergeRegions := [⟨0, 4, .int, .sum⟩] }

end Faabric
