import Faabric.Util.SnapshotMerge

/-! Regions of integers: the value that a copy leaves in a region is sent as a diff, and the diffs of
all copies are merged into the value of the snapshot. -/

namespace Faabric

open Bytes SnapshotMergeRegion

/-- The operations whose merge does not depend on the order of the writers. -/
def SnapshotMergeOperation.Accumulates (operation : SnapshotMergeOperation) : Prop :=
  operation = .sum ∨ operation = .subtract ∨ operation = .max ∨ operation = .min

section Values

variable {n width : Nat} {operation : SnapshotMergeOperation}

def diffValue (operation : SnapshotMergeOperation) (original updated : BitVec n) : BitVec n :=
  match operation with
  | .sum => updated - original
  | .subtract => original - updated
  | _ => updated

def mergeValue (operation : SnapshotMergeOperation) (original diff : BitVec n) : BitVec n :=
  match operation with
  | .sum => diff + original
  | .subtract => original - diff
  | .max => if original.slt diff then diff else original
  | _ => if diff.slt original then diff else original

def sentValue (operation : SnapshotMergeOperation) (original updated : BitVec n) : List (BitVec n) :=
  if original = updated then [] else [diffValue operation original updated]

def Accumulated (operation : SnapshotMergeOperation) (original : BitVec n) (updates : List (BitVec n))
    (final : BitVec n) : Prop :=
  match operation with
  | .sum | .subtract => final = original + (updates.map (· - original)).sum
  | .max => final ∈ original :: updates ∧ ∀ x ∈ original :: updates, x.toInt ≤ final.toInt
  | .min => final ∈ original :: updates ∧ ∀ x ∈ original :: updates, final.toInt ≤ x.toInt
  | _ => False

theorem mergeValue_right_comm (hop : operation.Accumulates) (z x y : BitVec n) :
    mergeValue operation (mergeValue operation z x) y = mergeValue operation (mergeValue operation z y) x := by
  rcases hop with rfl | rfl | rfl | rfl
  · simp only [mergeValue]
    ring
  · simp only [mergeValue]
    ring
  · simp only [mergeValue, BitVec.slt_iff_toInt_lt]
    apply BitVec.toInt_inj.mp
    split_ifs <;> omega
  · simp only [mergeValue, BitVec.slt_iff_toInt_lt]
    apply BitVec.toInt_inj.mp
    split_ifs <;> omega

theorem foldl_sentValue_add {original : BitVec n} (hop : operation = .sum ∨ operation = .subtract)
    (updates : List (BitVec n)) (z : BitVec n) :
    (updates.flatMap (sentValue operation original)).foldl (mergeValue operation) z =
      z + (updates.map (· - original)).sum := by
  have hone : ∀ u z, (sentValue operation original u).foldl (mergeValue operation) z = z + (u - original) := by
    intro u z
    unfold sentValue
    split_ifs with heq
    · simp [heq]
    · rcases hop with rfl | rfl <;> simp only [diffValue, List.foldl_cons, List.foldl_nil, mergeValue] <;> ring
  induction updates generalizing z with
  | nil => simp
  | cons u updates ih =>
    rw [List.flatMap_cons, List.foldl_append, hone, ih, List.map_cons, List.sum_cons, add_assoc]

theorem foldl_sentValue_largest {original : BitVec n} {key : BitVec n → Int}
    (hdiff : ∀ u, diffValue operation original u = u)
    (hmerge : ∀ z x, mergeValue operation z x = if key z < key x then x else z) (updates : List (BitVec n)) :
    (updates.flatMap (sentValue operation original)).foldl (mergeValue operation) original ∈
        original :: updates ∧
      ∀ x ∈ original :: updates,
        key x ≤ key ((updates.flatMap (sentValue operation original)).foldl (mergeValue operation) original) := by
  induction updates using List.reverseRecOn with
  | nil => simp
  | append_singleton updates u ih =>
    rw [List.flatMap_append, List.foldl_append, List.flatMap_singleton]
    set z := (updates.flatMap (sentValue operation original)).foldl (mergeValue operation) original
    have hkeep : (sentValue operation original u).foldl (mergeValue operation) z =
        if key z < key u then u else z := by
      unfold sentValue
      split_ifs with heq hlt
      · exact absurd (ih.2 u (by simp [heq])) (by omega)
      · rfl
      all_goals rw [hdiff, List.foldl_cons, List.foldl_nil, hmerge]
      · rw [if_pos ‹_›]
      · rw [if_neg ‹_›]
    have hmem : ∀ x, x ∈ original :: (updates ++ [u]) ↔ x ∈ original :: updates ∨ x = u := by
      simp [or_assoc]
    rw [hkeep]
    refine ⟨(hmem _).mpr ?_, fun x hx => ?_⟩
    · split_ifs
      · exact Or.inr rfl
      · exact Or.inl ih.1
    · rcases (hmem x).mp hx with hx | rfl
      · have := ih.2 x hx
        split_ifs <;> omega
      · split_ifs <;> omega

theorem accumulated_foldl (hop : operation.Accumulates) (original : BitVec n) (updates : List (BitVec n)) :
    Accumulated operation original updates
      ((updates.flatMap (sentValue operation original)).foldl (mergeValue operation) original) := by
  rcases hop with rfl | rfl | rfl | rfl
  · exact foldl_sentValue_add (Or.inl rfl) updates original
  · exact foldl_sentValue_add (Or.inr rfl) updates original
  · exact @foldl_sentValue_largest n .max original BitVec.toInt (fun _ => rfl)
      (fun z x => by simp only [mergeValue, BitVec.slt_iff_toInt_lt]) updates
  · have hleast := @foldl_sentValue_largest n .min original (fun x => -x.toInt) (fun _ => rfl)
      (fun z x => by simp only [mergeValue, BitVec.slt_iff_toInt_lt, neg_lt_neg_iff]) updates
    simpa only [Accumulated, neg_le_neg_iff] using hleast

theorem length_write (x : BitVec (8 * width)) : ((intNumber width).write x).length = width := by
  simp [intNumber]

theorem read_write (x : BitVec (8 * width)) (rest : List UInt8) :
    (intNumber width).read ((intNumber width).write x ++ rest) = x := by
  have hx : x.toNat < 256 ^ width := by
    have := x.isLt
    rwa [pow_mul] at this
  have htake : (le width x.toNat ++ rest).take width = le width x.toNat := by
    rw [List.take_append_of_le_length (by simp), List.take_of_length_le (by simp)]
  simp only [intNumber, htake, ofLe_le hx, BitVec.ofNat_toNat, BitVec.setWidth_eq]

theorem read_write_self (x : BitVec (8 * width)) : (intNumber width).read ((intNumber width).write x) = x := by
  simpa using read_write x []

theorem calculateDiffValue_int (original updated : List UInt8) (hop : operation.Accumulates) :
    calculateDiffValue (intNumber width) original updated operation =
      .ok (if (intNumber width).read original = (intNumber width).read updated then none
        else some ((intNumber width).write
          (diffValue operation ((intNumber width).read original) ((intNumber width).read updated)))) := by
  have heq : ∀ x y, (intNumber width).eq x y = true ↔ x = y := fun x y => beq_iff_eq
  simp only [calculateDiffValue, heq]
  split_ifs
  · rfl
  · rcases hop with rfl | rfl | rfl | rfl <;> rfl

theorem applyDiffValue_int (original diff : List UInt8) (hop : operation.Accumulates) :
    applyDiffValue (intNumber width) original diff operation =
      .ok ((intNumber width).write
        (mergeValue operation ((intNumber width).read original) ((intNumber width).read diff))) := by
  rcases hop with rfl | rfl | rfl | rfl <;> rfl

end Values

namespace SnapshotMergeRegion

variable (r : SnapshotMergeRegion)

def IsInt : Prop := (r.dataType = .int ∧ r.length = 4) ∨ (r.dataType = .long ∧ r.length = 8)

def Covered (i : Nat) : Prop := r.offset ≤ i ∧ i < r.offset + r.length

def valueIn (data : List UInt8) : BitVec (8 * r.length) := (intNumber r.length).read (data.drop r.offset)

def diffOf (original updated : List UInt8) : List SnapshotDiff :=
  if r.firstPage < r.endPage original.length ∧ r.valueIn original ≠ r.valueIn updated then
    [⟨r.dataType, r.operation, r.offset,
      (intNumber r.length).write (diffValue r.operation (r.valueIn original) (r.valueIn updated))⟩]
  else []

end SnapshotMergeRegion

structure Marked (size : Nat) (dirtyRegions : List Bool) (r : SnapshotMergeRegion) : Prop where
  covers : getRequiredHostPages size ≤ dirtyRegions.length
  dirty : ∀ p, r.offset / hostPageSize ≤ p → p ≤ (r.offset + r.length - 1) / hostPageSize →
    dirtyRegions[p]? = some true

section Regions

variable {r : SnapshotMergeRegion} {data original updated : List UInt8} {dirtyRegions : List Bool}
  {s : SnapshotData}

theorem slice_patch {bytes : List UInt8} {offset : Nat} (hin : offset + bytes.length ≤ data.length) :
    ((patch (fun _ byte => byte) data offset bytes).drop offset).take bytes.length = bytes := by
  apply List.ext_getElem?
  intro i
  by_cases hi : i < bytes.length
  · have hb : bytes[offset + i - offset]? = some bytes[i] := by
      rw [Nat.add_sub_cancel_left, List.getElem?_eq_getElem hi]
    rw [List.getElem?_take_of_lt hi, List.getElem?_drop, getElem?_patch_inside _ (by omega)
      (List.getElem?_eq_getElem (by omega)) hb, List.getElem?_eq_getElem hi]
  · rw [List.getElem?_take_eq_none (by omega), List.getElem?_eq_none (by omega)]

theorem valueIn_patch (x : BitVec (8 * r.length)) (hin : r.offset + r.length ≤ data.length) :
    r.valueIn (patch (fun _ byte => byte) data r.offset ((intNumber r.length).write x)) = x := by
  have hslice := @slice_patch data ((intNumber r.length).write x) r.offset (by rwa [length_write])
  rw [length_write] at hslice
  rw [valueIn, ← List.take_append_drop r.length (List.drop r.offset _), hslice]
  exact read_write x _

theorem patch_outside {x : BitVec (8 * r.length)} {i : Nat} (hi : ¬ r.Covered i) :
    (patch (fun _ byte => byte) data r.offset ((intNumber r.length).write x))[i]? = data[i]? := by
  unfold SnapshotMergeRegion.Covered at hi
  exact getElem?_patch_outside _ _ (by rw [length_write]; omega)

/-! Merging diffs into a snapshot. -/

theorem applyDiff_int (hint : r.IsInt) (hop : r.operation.Accumulates)
    (hin : r.offset + r.length ≤ s.data.length) (x : BitVec (8 * r.length)) :
    ∃ tracked, s.applyDiff ⟨r.dataType, r.operation, r.offset, (intNumber r.length).write x⟩ =
      .ok { s with
        data := patch (fun _ byte => byte) s.data r.offset
          ((intNumber r.length).write (mergeValue r.operation (r.valueIn s.data) x))
        trackedChanges := tracked } := by
  have happly : s.applyDiff ⟨r.dataType, r.operation, r.offset, (intNumber r.length).write x⟩ =
      s.applyValueDiff (intNumber r.length) ⟨r.dataType, r.operation, r.offset, (intNumber r.length).write x⟩ := by
    obtain ⟨offset, length, dataType, operation⟩ := r
    rcases hint with ⟨htype, hlen⟩ | ⟨htype, hlen⟩ <;> dsimp only at htype hlen <;> subst htype hlen <;>
      rcases hop with hop | hop | hop | hop <;> dsimp only at hop <;> subst hop <;> rfl
  have hwrite := @writeData_inside s ((intNumber r.length).write
    (mergeValue r.operation (r.valueIn s.data) x)) r.offset (by rwa [length_write])
  rw [happly, SnapshotData.applyValueDiff, if_neg (show ¬ s.data.length < r.offset by omega)]
  simp only [applyDiffValue_int _ _ hop, read_write_self, bind, Except.bind]
  exact ⟨_, hwrite⟩

theorem applyDiffs_int {diffs : List SnapshotDiff} (hint : r.IsInt) (hop : r.operation.Accumulates)
    (hin : r.offset + r.length ≤ s.data.length) (hdiffs : ∀ diff ∈ diffs, ∃ x,
      diff = ⟨r.dataType, r.operation, r.offset, (intNumber r.length).write x⟩) :
    ∃ s', s.applyDiffs diffs = .ok s' ∧ s'.data.length = s.data.length ∧
      r.valueIn s'.data = (diffs.map fun diff => (intNumber r.length).read diff.data).foldl
        (mergeValue r.operation) (r.valueIn s.data) ∧
      ∀ i, ¬ r.Covered i → s'.data[i]? = s.data[i]? := by
  induction diffs generalizing s with
  | nil => exact ⟨s, rfl, rfl, rfl, fun i _ => rfl⟩
  | cons diff diffs ih =>
    obtain ⟨x, rfl⟩ := hdiffs diff (by simp)
    obtain ⟨tracked, hone⟩ := applyDiff_int hint hop hin x
    obtain ⟨s', hrest, hsize, hvalue, hout⟩ := ih (s := { s with
        data := patch (fun _ byte => byte) s.data r.offset
          ((intNumber r.length).write (mergeValue r.operation (r.valueIn s.data) x))
        trackedChanges := tracked }) (by simpa using hin) fun d hd => hdiffs d (by simp [hd])
    refine ⟨s', ?_, by simpa using hsize, ?_, fun i hi => (hout i hi).trans (patch_outside hi)⟩
    · rw [SnapshotData.applyDiffs, List.foldlM_cons, hone]
      exact hrest
    · rw [hvalue, valueIn_patch _ hin, List.map_cons, List.foldl_cons, read_write_self]

/-! Diffing a copy. -/

theorem addDiffs_int (state : List DiffSpan × List UInt8) (hint : r.IsInt) (hop : r.operation.Accumulates)
    (hin : r.offset + r.length ≤ original.length) (hmarked : Marked original.length dirtyRegions r) :
    r.addDiffs original dirtyRegions state =
      if r.endPage original.length < r.firstPage then .error .undefinedBehaviour
      else if r.firstPage = r.endPage original.length then .ok state
      else r.addValueDiff (intNumber r.length) original state.1 state.2 := by
  have hnot : r.operation ≠ .ignore ∧ ¬ (r.operation = .bytewise ∨ r.operation = .xor) := by
    rcases hop with hop | hop | hop | hop <;> rw [hop] <;> decide
  have hpos : 0 < r.length := by rcases hint with ⟨-, hl⟩ | ⟨-, hl⟩ <;> omega
  by_cases hlt : r.endPage original.length < r.firstPage
  · rw [addDiffs, if_neg hnot.1, if_neg (by omega), if_pos hlt]
    exact if_pos (Or.inl hlt)
  · -- the flag of the first page is set, so that no page is dirty only if there is no page
    have hpages : r.dirtyPages original.length dirtyRegions = [] ↔ r.firstPage = r.endPage original.length := by
      rw [dirtyPages, List.filter_eq_nil_iff]
      constructor
      · intro hclean
        by_contra hne
        have hfirst : dirtyRegions[r.firstPage]? = some true :=
          hmarked.dirty _ le_rfl (Nat.div_le_div_right (by omega))
        exact hclean r.firstPage (List.mem_range'_1.mpr (by omega)) (decide_eq_true hfirst)
      · intro heq
        simp [heq]
    rw [if_neg hlt, addDiffs_eq hnot.1 (by omega) (Nat.le_of_not_lt hlt)
      ((endPage_le r _).trans hmarked.covers), if_neg hnot.2]
    refine if_congr hpages rfl ?_
    obtain ⟨offset, length, dataType, operation⟩ := r
    rcases hint with ⟨htype, hlen⟩ | ⟨htype, hlen⟩ <;> dsimp only at htype hlen <;> subst htype hlen <;> rfl

def SnapshotMergeRegion.diffs (r : SnapshotMergeRegion) (original updated : List UInt8)
    (dirtyRegions : List Bool) : Except SnapshotError (List SnapshotDiff) :=
  (r.addDiffs original dirtyRegions ([], updated)).map fun state => state.1.map (DiffSpan.read state.2)

theorem diffs_int (hint : r.IsInt) (hop : r.operation.Accumulates)
    (hin : r.offset + r.length ≤ original.length) (hmarked : Marked original.length dirtyRegions r)
    (hsize : updated.length = original.length) :
    r.diffs original updated dirtyRegions = if r.endPage original.length < r.firstPage then
      .error .undefinedBehaviour else .ok (r.diffOf original updated) := by
  have hvalue : ∀ data, (intNumber r.length).read (data.drop r.offset) = r.valueIn data := fun _ => rfl
  rw [diffs, addDiffs_int _ hint hop hin hmarked, diffOf]
  split_ifs with hlt heq hsent hsent
  · rfl
  · omega
  · rfl
  · have hslice := @slice_patch updated ((intNumber r.length).write (diffValue r.operation (r.valueIn original)
      (r.valueIn updated))) r.offset (by rw [length_write]; omega)
    rw [length_write] at hslice
    simp only [addValueDiff, calculateDiffValue_int _ _ hop, hvalue, if_neg hsent.2, bind,
      Except.bind, pure, Except.pure, Except.map, List.nil_append, List.map_singleton, DiffSpan.read, hslice]
  · have hsame : r.valueIn original = r.valueIn updated := by
      by_contra hne
      exact hsent ⟨by omega, hne⟩
    simp only [addValueDiff, calculateDiffValue_int _ _ hop, hvalue, hsame, if_true, bind,
      Except.bind, pure, Except.pure, Except.map, List.map_nil]

end Regions

/-! Any number of copies. -/

/-- An integer region inside the snapshot, and copies of the snapshot with the flags of the region's
pages set. -/
structure MarkedCopies (s : SnapshotData) (r : SnapshotMergeRegion) (copies : List (List UInt8 × List Bool)) :
    Prop where
  isInt : r.IsInt
  accumulates : r.operation.Accumulates
  inside : r.offset + r.length ≤ s.data.length
  size : ∀ copy ∈ copies, copy.1.length = s.data.length
  marked : ∀ copy ∈ copies, Marked s.data.length copy.2 r

/-- The diffs of the copies are computed, and written in any order they leave in the region what all
copies have made of it, and the other bytes alone. -/
def MergesEvery (s : SnapshotData) (r : SnapshotMergeRegion) (copies : List (List UInt8 × List Bool)) : Prop :=
  ∃ diffs, (∀ copy ∈ copies, r.diffs s.data copy.1 copy.2 = .ok (diffs copy)) ∧
    ∀ queue : List SnapshotDiff, queue.Perm (copies.flatMap diffs) →
      ∃ s', { s with queuedDiffs := queue }.writeQueuedDiffs = .ok s' ∧ s'.data.length = s.data.length ∧
        Accumulated r.operation (r.valueIn s.data) (copies.map fun copy => r.valueIn copy.1)
          (r.valueIn s'.data) ∧
        ∀ i, ¬ r.Covered i → s'.data[i]? = s.data[i]?

section Copies

variable {s : SnapshotData} {copies : List (List UInt8 × List Bool)} {r : SnapshotMergeRegion}

theorem MarkedCopies.write (h : MarkedCopies s r copies) {queue : List SnapshotDiff}
    (hperm : queue.Perm (copies.flatMap fun copy => r.diffOf s.data copy.1)) :
    ∃ s', { s with queuedDiffs := queue }.writeQueuedDiffs = .ok s' ∧ s'.data.length = s.data.length ∧
      r.valueIn s'.data = (if r.firstPage < r.endPage s.data.length then
        ((copies.map fun copy => r.valueIn copy.1).flatMap (sentValue r.operation (r.valueIn s.data))).foldl
          (mergeValue r.operation) (r.valueIn s.data) else r.valueIn s.data) ∧
      ∀ i, ¬ r.Covered i → s'.data[i]? = s.data[i]? := by
  have hqueue : ∀ diff ∈ queue, ∃ x,
      diff = ⟨r.dataType, r.operation, r.offset, (intNumber r.length).write x⟩ := by
    intro diff hdiff
    obtain ⟨copy, hcopy, hd⟩ := List.mem_flatMap.mp (hperm.mem_iff.mp hdiff)
    unfold diffOf at hd
    split_ifs at hd
    · exact ⟨_, List.mem_singleton.mp hd⟩
    · cases hd
  obtain ⟨s', happly, hlen, hvalue, hout⟩ := @applyDiffs_int r { s with queuedDiffs := queue } queue h.isInt
    h.accumulates h.inside hqueue
  refine ⟨{ s' with queuedDiffs := [] }, ?_, hlen, ?_, hout⟩
  · simp only [SnapshotData.writeQueuedDiffs, happly, bind, Except.bind, pure, Except.pure]
  · have hone : ∀ copy : List UInt8 × List Bool,
        (r.diffOf s.data copy.1).map (fun diff => (intNumber r.length).read diff.data) =
          if r.firstPage < r.endPage s.data.length then
            sentValue r.operation (r.valueIn s.data) (r.valueIn copy.1) else [] := by
      intro copy
      unfold diffOf sentValue
      by_cases hlt : r.firstPage < r.endPage s.data.length <;>
        by_cases hsame : r.valueIn s.data = r.valueIn copy.1 <;> simp [hlt, hsame, read_write_self]
    have hfold := (hperm.map fun diff => (intNumber r.length).read diff.data).foldl_eq'
      (fun x _ y _ z => mergeValue_right_comm h.accumulates z x y) (r.valueIn s.data)
    refine hvalue.trans (hfold.trans ?_)
    simp only [List.map_flatMap, hone, List.flatMap_map]
    split_ifs with hlt
    · rfl
    · rw [List.flatMap_eq_nil_iff.mpr fun _ _ => rfl]
      rfl

theorem MergesEvery.pages (h : MarkedCopies s r copies) (hmerge : MergesEvery s r copies) (hne : copies ≠ []) :
    r.firstPage < r.endPage s.data.length ∨ r.firstPage = r.endPage s.data.length ∧
      Accumulated r.operation (r.valueIn s.data) (copies.map fun copy => r.valueIn copy.1)
        (r.valueIn s.data) := by
  obtain ⟨diffs, hdiffs, hwrite⟩ := hmerge
  have hcopy : ∀ copy ∈ copies, ¬ r.endPage s.data.length < r.firstPage ∧
      diffs copy = r.diffOf s.data copy.1 := by
    intro copy hcopy
    have hone := hdiffs copy hcopy
    rw [diffs_int h.isInt h.accumulates h.inside (h.marked copy hcopy) (h.size copy hcopy)] at hone
    split_ifs at hone with hlt
    exact ⟨hlt, (Except.ok.inj hone).symm⟩
  obtain ⟨copy, hmem⟩ := List.exists_mem_of_ne_nil copies hne
  have hle := (hcopy copy hmem).1
  have hflat : copies.flatMap diffs = copies.flatMap fun copy => r.diffOf s.data copy.1 :=
    List.flatMap_congr fun copy hc => (hcopy copy hc).2
  obtain ⟨s', hs', -, hacc, -⟩ := hwrite _ (List.Perm.refl _)
  obtain ⟨s'', hs'', -, hvalue, -⟩ := h.write (List.Perm.of_eq hflat)
  obtain rfl := Except.ok.inj (hs'.symm.trans hs'')
  by_cases hlt : r.firstPage < r.endPage s.data.length
  · exact Or.inl hlt
  · rw [hvalue, if_neg hlt] at hacc
    exact Or.inr ⟨by omega, hacc⟩

/-- A typed region accumulates every writer, exactly when some page is searched for it, or there is
nothing to merge. -/
theorem typed_region_accumulates_iff (h : MarkedCopies s r copies) :
    MergesEvery s r copies ↔ copies = [] ∨ r.firstPage < r.endPage s.data.length ∨
      r.firstPage = r.endPage s.data.length ∧ Accumulated r.operation (r.valueIn s.data)
        (copies.map fun copy => r.valueIn copy.1) (r.valueIn s.data) := by
  constructor
  · intro hmerge
    by_cases hne : copies = []
    · exact Or.inl hne
    · exact Or.inr (hmerge.pages h hne)
  · intro hcond
    refine ⟨fun copy => r.diffOf s.data copy.1, fun copy hcopy => ?_, fun queue hperm => ?_⟩
    · rw [diffs_int h.isInt h.accumulates h.inside (h.marked copy hcopy) (h.size copy hcopy), if_neg]
      rcases hcond with rfl | hlt | ⟨heq, -⟩
      · cases hcopy
      · omega
      · omega
    · obtain ⟨s', hs', hlen, hvalue, hout⟩ := h.write hperm
      refine ⟨s', hs', hlen, ?_, hout⟩
      have hfold := accumulated_foldl h.accumulates (r.valueIn s.data) (copies.map fun copy => r.valueIn copy.1)
      rw [hvalue]
      split_ifs with hlt
      · exact hfold
      · rcases hcond with rfl | hlt' | ⟨-, hacc⟩
        · exact hfold
        · exact absurd hlt' hlt
        · exact hacc

end Copies

theorem typed_region_accumulates_iff_two :
    MergesEvery { data := List.replicate 8 0, maxSize := 8 } ⟨4, 4, .int, .sum⟩
      [([0, 0, 0, 0, 1, 0, 0, 0], [true]), ([0, 0, 0, 0, 2, 0, 0, 0], [true])] :=
  (typed_region_accumulates_iff ⟨Or.inl ⟨rfl, rfl⟩, Or.inl rfl, by simp, by simp,
    by simpa using ⟨by decide, by simp [hostPageSize]⟩⟩).mpr (Or.inr (Or.inl (by decide)))

theorem zeros_lose_sum {size pages : Nat} (hmod : size % 2 ^ 32 = 0) (hsize : 4 ≤ size)
    (hpages : size ≤ pages * 4096) :
    MarkedCopies { data := List.replicate size 0, maxSize := size } ⟨0, 4, .int, .sum⟩
        [([1, 0, 0, 0] ++ List.replicate (size - 4) 0, List.replicate pages true)] ∧
      ¬ MergesEvery { data := List.replicate size 0, maxSize := size } ⟨0, 4, .int, .sum⟩
        [([1, 0, 0, 0] ++ List.replicate (size - 4) 0, List.replicate pages true)] := by
  obtain ⟨size, rfl⟩ : ∃ n, size = n + 4 := ⟨size - 4, by omega⟩
  have hmarked : MarkedCopies { data := List.replicate (size + 4) 0, maxSize := size + 4 } ⟨0, 4, .int, .sum⟩
      [([1, 0, 0, 0] ++ List.replicate (size + 4 - 4) 0, List.replicate pages true)] := by
    refine ⟨Or.inl ⟨rfl, rfl⟩, Or.inl rfl, by simp, by simp, ?_⟩
    simp only [List.mem_singleton, forall_eq, List.length_replicate]
    refine ⟨?_, fun p _ hp => ?_⟩
    · simp only [getRequiredHostPages, hostPageSize, List.length_replicate]
      omega
    · rw [List.getElem?_replicate, if_pos]
      simp only [hostPageSize] at hp
      omega
  refine ⟨hmarked, fun hmerge => ?_⟩
  have hend : endPage ⟨0, 4, .int, .sum⟩ (size + 4) = 0 := by
    rw [endPage, mrEnd, hmod]
    rfl
  have hlost := hmerge.pages hmarked (by simp)
  rw [List.length_replicate, hend] at hlost
  rcases hlost with hlt | ⟨-, hacc⟩
  · omega
  · revert hacc
    simp [Accumulated, valueIn, intNumber, List.replicate, ofLe]

/-- The size of 4 GiB is zero as a `uint32_t`, so that no page is searched. -/
theorem full_memory_loses_sum :
    MarkedCopies { data := List.replicate (2 ^ 32) 0, maxSize := 2 ^ 32 } ⟨0, 4, .int, .sum⟩
        [([1, 0, 0, 0] ++ List.replicate (2 ^ 32 - 4) 0, List.replicate (2 ^ 20) true)] ∧
      ¬ MergesEvery { data := List.replicate (2 ^ 32) 0, maxSize := 2 ^ 32 } ⟨0, 4, .int, .sum⟩
        [([1, 0, 0, 0] ++ List.replicate (2 ^ 32 - 4) 0, List.replicate (2 ^ 20) true)] :=
  zeros_lose_sum (Nat.mod_self _) (by norm_num) (by norm_num)

/-! Products. -/

theorem tdiv_mul_between (a b : Int) : (0 ≤ a → 0 ≤ a.tdiv b * b ∧ a.tdiv b * b ≤ a) ∧
    (a ≤ 0 → a ≤ a.tdiv b * b ∧ a.tdiv b * b ≤ 0) := by
  have hsum := Int.tdiv_mul_add_tmod a b
  have habs : (a.tmod b).natAbs ≤ a.natAbs := by
    rw [Int.natAbs_tmod]
    exact Nat.mod_le _ _
  constructor
  · intro ha
    have := Int.tmod_nonneg b ha
    omega
  · intro ha
    have := Int.tmod_nonneg b (Int.neg_nonneg_of_nonpos ha)
    rw [Int.neg_tmod] at this
    omega

theorem mul_sdiv_eq_iff {n : Nat} (hn : 0 < n) {original updated : BitVec n}
    (h : ¬(original = -1 ∧ updated = BitVec.intMin n)) :
    original * updated.sdiv original = updated ↔ original.toInt ∣ updated.toInt := by
  have hdiv : (updated.sdiv original).toInt = updated.toInt.tdiv original.toInt :=
    BitVec.toInt_sdiv_of_ne_or_ne _ _ (by
      by_contra hboth
      push Not at hboth
      exact h hboth.symm)
  have hbound : (updated.toInt.tdiv original.toInt * original.toInt).bmod (2 ^ n) =
      updated.toInt.tdiv original.toInt * original.toInt := by
    obtain ⟨n, rfl⟩ : ∃ m, n = m + 1 := ⟨n - 1, by omega⟩
    have hlo := BitVec.le_toInt updated
    have hhi := @BitVec.toInt_lt _ updated
    have hbetween := tdiv_mul_between updated.toInt original.toInt
    have hhalf : ((2 ^ (n + 1) : Nat) : Int) / 2 = 2 ^ n := by push_cast; omega
    have hhalf' : (((2 ^ (n + 1) : Nat) : Int) + 1) / 2 = 2 ^ n := by push_cast; omega
    simp only [Nat.add_sub_cancel] at hlo hhi
    exact Int.bmod_eq_of_le (by omega) (by omega)
  rw [← BitVec.toInt_inj, BitVec.toInt_mul, hdiv, mul_comm, hbound]
  exact ⟨fun heq => ⟨_, heq.symm.trans (mul_comm _ _)⟩, Int.tdiv_mul_cancel⟩

def ProductExact (width : Nat) (original updated : List UInt8) : Prop :=
  ∃ changed, calculateDiffValue (intNumber width) original updated .product = .ok changed ∧
    match changed with
    | none => (intNumber width).read original = (intNumber width).read updated
    | some diff => applyDiffValue (intNumber width) original diff .product =
        .ok ((intNumber width).write ((intNumber width).read updated))

/-- Product merging is exact for the multiples of the original value, apart from the most negative
value over -1, whose division traps. -/
theorem product_exact_iff {width : Nat} (hwidth : width = 4 ∨ width = 8) (original updated : List UInt8) :
    ProductExact width original updated ↔
      ((intNumber width).read original).toInt ∣ ((intNumber width).read updated).toInt ∧
        ¬((intNumber width).read original = -1 ∧ (intNumber width).read updated = BitVec.intMin _) := by
  have hn : 0 < 8 * width := by omega
  have hneg : ¬ (-1 : BitVec (8 * width)) = BitVec.intMin _ := by
    rcases hwidth with rfl | rfl <;> decide
  have hwrite : ∀ x y : BitVec (8 * width), (intNumber width).write x = (intNumber width).write y ↔ x = y := by
    refine fun x y => ⟨fun h => ?_, congrArg _⟩
    rw [← read_write_self x, h, read_write_self]
  generalize hx : (intNumber width).read original = x
  generalize hy : (intNumber width).read updated = y
  unfold ProductExact
  simp only [calculateDiffValue, hx, hy, show (intNumber width).eq x y = true ↔ x = y from beq_iff_eq]
  by_cases hsame : x = y
  · subst hsame
    have hself : ¬(x = -1 ∧ x = BitVec.intMin _) := fun hboth => hneg (hboth.1.symm.trans hboth.2)
    simp only [if_true, Except.ok.injEq, exists_eq_left', true_iff]
    exact ⟨dvd_rfl, hself⟩
  · simp only [if_neg hsame]
    by_cases htrap : x = 0 ∨ (y = BitVec.intMin _ ∧ x = -1)
    · have hdiv : (intNumber width).div y x = none := if_pos htrap
      simp only [hdiv, reduceCtorEq, false_and, exists_false, false_iff]
      rintro ⟨hdvd, hnot⟩
      rcases htrap with rfl | hboth
      · rw [BitVec.ofNat_eq_ofNat, BitVec.toInt_zero, zero_dvd_iff] at hdvd
        exact hsame (BitVec.toInt_inj.mp (BitVec.toInt_zero.trans hdvd.symm))
      · exact hnot hboth.symm
    · have hdiv : (intNumber width).div y x = some (y.sdiv x) := if_neg htrap
      have hnot : ¬(x = -1 ∧ y = BitVec.intMin _) := fun hboth => htrap (Or.inr hboth.symm)
      simp only [hdiv, Except.ok.injEq, exists_eq_left', applyDiffValue, hx, read_write_self, hwrite, hnot, not_false_eq_true,
        and_true]
      exact mul_sdiv_eq_iff hn hnot

theorem product_exact_iff_double : ProductExact 4 [3, 0, 0, 0] [6, 0, 0, 0] :=
  (product_exact_iff (Or.inl rfl) [3, 0, 0, 0] [6, 0, 0, 0]).mpr (by decide)

/-- From 2 to 3, from 0 to 1, and from -1 to the most negative value. -/
theorem product_not_exact : ¬ ProductExact 4 [2, 0, 0, 0] [3, 0, 0, 0] ∧
    ¬ ProductExact 4 [0, 0, 0, 0] [1, 0, 0, 0] ∧
    calculateDiffValue (intNumber 4) [255, 255, 255, 255] [0, 0, 0, 128] .product =
      .error .undefinedBehaviour := by
  have hlost : calculateDiffValue (intNumber 4) [2, 0, 0, 0] [3, 0, 0, 0] .product = .ok (some [1, 0, 0, 0]) := by
    decide
  have htrap : calculateDiffValue (intNumber 4) [0, 0, 0, 0] [1, 0, 0, 0] .product =
      .error .undefinedBehaviour := by decide
  refine ⟨?_, ?_, by decide⟩
  · rintro ⟨changed, hchanged, hexact⟩
    obtain rfl := Except.ok.inj (hlost.symm.trans hchanged)
    revert hexact
    decide
  · rintro ⟨changed, hchanged, -⟩
    cases htrap.symm.trans hchanged

end Faabric
