import Faabric.Util.Snapshot

/-! The changes that a snapshot tracks: each write is kept as its offset and its end, and the bytes
in between are read when the changes are asked for. -/

namespace Faabric

open Bytes SnapshotData

def changeLength (change : Nat × Nat) : Nat := (change.2 + 2 ^ 32 - change.1) % 2 ^ 32

def SnapshotData.Tracks (snap : SnapshotData) (i : Nat) : Prop :=
  ∃ change ∈ snap.trackedChanges, change.1 ≤ i ∧ i < change.1 + changeLength change

instance (snap : SnapshotData) (i : Nat) : Decidable (snap.Tracks i) :=
  inferInstanceAs (Decidable (∃ _ ∈ _, _))

/-- The tracked changes of the snapshot make the copy the same: the copy is not longer and differs
only where a change is tracked, or by zeros, and if it is shorter a change reaches the end. -/
structure CatchesUp (copy snap : SnapshotData) : Prop where
  size : copy.data.length ≤ snap.data.length
  same : ∀ i < snap.data.length, ¬snap.Tracks i → snap.data[i]? = some (copy.data[i]?.getD 0)
  reach : snap.data.length = copy.data.length ∨
    ∃ change ∈ snap.trackedChanges, change.1 + changeLength change = snap.data.length
  inside : ∀ change ∈ snap.trackedChanges, change.1 + changeLength change ≤ snap.data.length

instance (copy snap : SnapshotData) : Decidable (CatchesUp copy snap) :=
  decidable_of_iff (_ ∧ _ ∧ _ ∧ _)
    ⟨fun h => ⟨h.1, h.2.1, h.2.2.1, h.2.2.2⟩, fun h => ⟨h.size, h.same, h.reach, h.inside⟩⟩

/-! ### Writes -/

/-- `length` bytes from `offset` on have been written, and new memory before them is zero. -/
structure SnapshotData.Wrote (offset length : Nat) (s s' : SnapshotData) : Prop where
  size : s'.data.length = max s.data.length (offset + length)
  outside : ∀ i < s'.data.length, i < offset ∨ offset + length ≤ i → s'.data[i]? = some (s.data[i]?.getD 0)
  tracked : s'.trackedChanges = s.trackedChanges ++ [(offset, (offset + length) % 2 ^ 32)]
  maxSize : s'.maxSize = s.maxSize
  room : offset + length ≤ max s.data.length s.maxSize

theorem changeLength_tracked {offset length : Nat} (hoffset : offset < 2 ^ 32) (hlength : length < 2 ^ 32) :
    changeLength (offset, (offset + length) % 2 ^ 32) = length := by
  simp only [changeLength]
  omega

section Writes

variable {s s' copy snap snap' : SnapshotData} {buffer : List UInt8} {offset length : Nat}

theorem writeData_ok (hroom : offset + buffer.length ≤ max s.data.length s.maxSize) :
    ∃ s', s.writeData buffer offset = .ok s' ∧ s.Wrote offset buffer.length s' ∧
      ∀ i, offset ≤ i → i < offset + buffer.length → s'.data[i]? = buffer[i - offset]? := by
  have hfits : ¬(s.data.length < offset + buffer.length ∧ s.maxSize < offset + buffer.length) := by omega
  have hmax : Nat.max s.data.length (offset + buffer.length) = max s.data.length (offset + buffer.length) := rfl
  have hok : s.writeData buffer offset = .ok ({ s with
      data := patch (fun _ byte => byte) (resize s.data (Nat.max s.data.length (offset + buffer.length)) 0)
        offset buffer }.trackChange offset (offset + buffer.length)) := by
    rw [writeData, if_neg hfits]
  refine ⟨_, hok, ⟨?_, ?_, rfl, rfl, hroom⟩, ?_⟩
  · simp only [trackChange, length_patch, length_resize, hmax]
  · intro i hi hout
    simp only [trackChange, length_patch, length_resize] at hi
    simp only [trackChange]
    rw [getElem?_patch_outside _ _ hout, getElem?_resize, if_pos hi]
  · intro i hlo hhi
    have hbyte := List.getElem?_eq_getElem (show i - offset < buffer.length by omega)
    have hi : i < Nat.max s.data.length (offset + buffer.length) := by rw [hmax]; omega
    have hold := getElem?_resize s.data (Nat.max s.data.length (offset + buffer.length)) 0 i
    rw [if_pos hi] at hold
    simp only [trackChange]
    rw [getElem?_patch_inside _ hlo hold hbyte, hbyte]

theorem writeData_wrote (h : s.writeData buffer offset = .ok s') : s.Wrote offset buffer.length s' := by
  by_cases hroom : offset + buffer.length ≤ max s.data.length s.maxSize
  · obtain ⟨s'', hwrite, hwrote, -⟩ := writeData_ok hroom
    rw [hwrite] at h
    cases h
    exact hwrote
  · rw [writeData, if_pos (by omega)] at h
    cases h

theorem xorData_wrote (h : s.xorData buffer offset = .ok s') : s.Wrote offset buffer.length s' := by
  by_cases hroom : s.data.length < offset + buffer.length
  · rw [xorData, if_pos hroom] at h
    cases h
  · rw [xorData, if_neg hroom] at h
    cases h
    refine ⟨?_, fun i hi hout => ?_, rfl, rfl, by omega⟩
    · simp only [trackChange, length_patch]
      omega
    · simp only [trackChange, length_patch] at hi
      simp only [trackChange]
      rw [getElem?_patch_outside _ _ hout, List.getElem?_eq_getElem hi]
      rfl

theorem applyValueDiff_wrote {T : Type} {number : DiffNumber T} {diff : SnapshotDiff}
    (hsize : ∀ x, (number.write x).length ≤ 8) (h : s.applyValueDiff number diff = .ok s') :
    ∃ length, length ≤ 8 ∧ s.Wrote diff.offset length s' := by
  rw [applyValueDiff] at h
  by_cases hout : s.data.length < diff.offset
  · rw [if_pos hout] at h
    cases h
  · rw [if_neg hout] at h
    cases hvalue : applyDiffValue number (s.data.drop diff.offset) diff.data diff.operation with
    | error e =>
      rw [hvalue] at h
      cases h
    | ok value =>
      rw [hvalue] at h
      have hlen : value.length ≤ 8 := by
        cases hop : diff.operation <;> simp only [applyDiffValue, hop] at hvalue <;> cases hvalue <;>
          apply hsize
      exact ⟨value.length, hlen, writeData_wrote h⟩

theorem applyDiff_wrote {diff : SnapshotDiff} (h : s.applyDiff diff = .ok s') :
    s' = s ∨ ∃ length, length ≤ max diff.data.length 8 ∧ s.Wrote diff.offset length s' := by
  have hvalue {T : Type} (number : DiffNumber T) (hsize : ∀ x, (number.write x).length ≤ 8)
      (h : s.applyValueDiff number diff = .ok s') :
      ∃ length, length ≤ max diff.data.length 8 ∧ s.Wrote diff.offset length s' := by
    obtain ⟨length, hlen, hwrote⟩ := applyValueDiff_wrote hsize h
    exact ⟨length, by omega, hwrote⟩
  cases hop : diff.operation with
  | ignore =>
    simp only [applyDiff, hop, Except.ok.injEq] at h
    exact .inl h.symm
  | bytewise =>
    simp only [applyDiff, hop] at h
    exact .inr ⟨_, le_max_left _ _, writeData_wrote h⟩
  | xor =>
    simp only [applyDiff, hop] at h
    exact .inr ⟨_, le_max_left _ _, xorData_wrote h⟩
  | sum | product | subtract | max | min =>
    apply Or.inr
    cases htype : diff.dataType with
    | int =>
      simp only [applyDiff, hop, htype] at h
      exact hvalue (intNumber 4) (by simp [intNumber]) h
    | long =>
      simp only [applyDiff, hop, htype] at h
      exact hvalue (intNumber 8) (by simp [intNumber]) h
    | float =>
      simp only [applyDiff, hop, htype] at h
      exact hvalue floatNumber (by simp [floatNumber]) h
    | double =>
      simp only [applyDiff, hop, htype] at h
      exact hvalue doubleNumber (by simp [doubleNumber]) h
    | raw | bool =>
      simp only [applyDiff, hop, htype] at h
      split at h <;> cases h

/-! ### Catching up -/

theorem CatchesUp.wrote (h : CatchesUp copy snap) (hwrote : snap.Wrote offset length snap')
    (hoffset : offset < 2 ^ 32) (hlength : length < 2 ^ 32) : CatchesUp copy snap' := by
  have hsize := hwrote.size
  have hlen := changeLength_tracked hoffset hlength
  have hmem (change : Nat × Nat) : change ∈ snap'.trackedChanges ↔
      change ∈ snap.trackedChanges ∨ change = (offset, (offset + length) % 2 ^ 32) := by
    rw [hwrote.tracked, List.mem_append, List.mem_singleton]
  refine ⟨?_, fun i hi hnot => ?_, ?_, fun change hchange => ?_⟩
  · have := h.size
    omega
  · have hout : i < offset ∨ offset + length ≤ i := by
      by_contra hin
      exact hnot ⟨_, (hmem _).mpr (.inr rfl), by simp only [hlen]; omega⟩
    have hold : ¬snap.Tracks i := fun ⟨change, hchange, hin⟩ => hnot ⟨change, (hmem _).mpr (.inl hchange), hin⟩
    rw [hwrote.outside i hi hout]
    by_cases his : i < snap.data.length
    · rw [h.same i his hold]
      rfl
    · have hshort := h.size
      rw [List.getElem?_eq_none (by omega), List.getElem?_eq_none (by omega)]
  · by_cases hend : snap.data.length ≤ offset + length
    · exact .inr ⟨_, (hmem _).mpr (.inr rfl), by simp only [hlen]; omega⟩
    · have hkept : snap'.data.length = snap.data.length := by omega
      rw [hkept]
      exact h.reach.imp_right fun ⟨change, hchange, hend⟩ => ⟨change, (hmem _).mpr (.inl hchange), hend⟩
  · rcases (hmem change).mp hchange with hold | rfl
    · have := h.inside change hold
      omega
    · simp only [hlen]
      omega

theorem CatchesUp.congr (h : CatchesUp copy snap) (hdata : snap'.data = snap.data)
    (htracked : snap'.trackedChanges = snap.trackedChanges) : CatchesUp copy snap' := by
  obtain ⟨hsize, hsame, hreach, hinside⟩ := h
  constructor
  · rwa [hdata]
  · simpa only [SnapshotData.Tracks, hdata, htracked] using hsame
  · rwa [hdata, htracked]
  · rwa [hdata, htracked]

theorem CatchesUp.cleared (hdata : copy.data = snap.data) :
    CatchesUp copy snap.clearTrackedChanges := by
  refine ⟨?_, fun i hi _ => ?_, ?_, ?_⟩
  · simp [clearTrackedChanges, hdata]
  · simp only [clearTrackedChanges] at hi ⊢
    rw [hdata, List.getElem?_eq_getElem hi]
    rfl
  · simp [clearTrackedChanges, hdata]
  · simp [clearTrackedChanges]

theorem CatchesUp.applied {change : Nat × Nat} {changes : List (Nat × Nat)} {copy' : SnapshotData}
    (h : CatchesUp copy { snap with trackedChanges := change :: changes })
    (hwrote : copy.Wrote change.1 (changeLength change) copy')
    (hinside : ∀ i, change.1 ≤ i → i < change.1 + changeLength change → copy'.data[i]? = snap.data[i]?) :
    CatchesUp copy' { snap with trackedChanges := changes } := by
  have hsize := hwrote.size
  have hshort := h.size
  have hend := h.inside change List.mem_cons_self
  simp only at hshort hend
  refine ⟨?_, fun i hi hnot => ?_, ?_, fun c hc => h.inside c (List.mem_cons_of_mem _ hc)⟩
  · simp only
    omega
  · simp only at hi ⊢
    by_cases hin : change.1 ≤ i ∧ i < change.1 + changeLength change
    · rw [hinside i hin.1 hin.2, List.getElem?_eq_getElem hi]
      rfl
    · have hrest : ¬SnapshotData.Tracks { snap with trackedChanges := change :: changes } i := by
        rintro ⟨c, hc, hci⟩
        rcases List.mem_cons.mp hc with rfl | hc
        · exact hin hci
        · exact hnot ⟨c, hc, hci⟩
      have hold := h.same i hi hrest
      simp only at hold
      rw [hold]
      by_cases hic : i < copy'.data.length
      · rw [hwrote.outside i hic (by omega)]
        rfl
      · rw [List.getElem?_eq_none (show copy.data.length ≤ i by omega),
          List.getElem?_eq_none (show copy'.data.length ≤ i by omega)]
  · simp only
    rcases h.reach with heq | ⟨c, hc, hcend⟩
    · simp only at heq
      exact .inl (by omega)
    · simp only at hcend
      rcases List.mem_cons.mp hc with rfl | hc
      · exact .inl (by omega)
      · exact .inr ⟨c, hc, hcend⟩

theorem CatchesUp.applyDiffs {changes : List (Nat × Nat)}
    (h : CatchesUp copy { snap with trackedChanges := changes })
    (hroom : snap.data.length ≤ max copy.data.length copy.maxSize) :
    ∃ copy', copy.applyDiffs (getTrackedChanges { snap with trackedChanges := changes }) =
      .ok copy' ∧ copy'.data = snap.data := by
  induction changes generalizing copy with
  | nil =>
    refine ⟨copy, rfl, ?_⟩
    have hsize : snap.data.length = copy.data.length := by
      rcases h.reach with heq | ⟨c, hc, -⟩
      · exact heq
      · cases hc
    apply List.ext_getElem?
    intro i
    by_cases hi : i < snap.data.length
    · have hsame := h.same i hi (by rintro ⟨c, hc, -⟩; cases hc)
      simp only at hsame
      rw [hsame, List.getElem?_eq_getElem (by omega)]
      rfl
    · rw [List.getElem?_eq_none (by omega), List.getElem?_eq_none (by omega)]
  | cons change changes ih =>
    have hend := h.inside change List.mem_cons_self
    simp only at hend
    have hlen : ((snap.data.drop change.1).take (changeLength change)).length = changeLength change := by
      rw [List.length_take, List.length_drop]
      omega
    obtain ⟨copy', hwrite, hwrote, hinside⟩ :=
      @writeData_ok copy ((snap.data.drop change.1).take (changeLength change)) change.1 (by omega)
    rw [hlen] at hwrote hinside
    have hsame (i : Nat) (hlo : change.1 ≤ i) (hhi : i < change.1 + changeLength change) :
        copy'.data[i]? = snap.data[i]? := by
      rw [hinside i hlo hhi, List.getElem?_take_of_lt (by omega), List.getElem?_drop,
        Nat.add_sub_cancel' hlo]
    have hsize := hwrote.size
    have hmax := hwrote.maxSize
    obtain ⟨copy'', happly, hdata⟩ := ih (h.applied hwrote hsame) (by omega)
    refine ⟨copy'', ?_, hdata⟩
    rw [applyDiffs] at happly ⊢
    rw [← happly]
    have hfirst : copy.applyDiff ⟨.raw, .bytewise, change.1,
        (snap.data.drop change.1).take (changeLength change)⟩ = .ok copy' := hwrite
    simp only [getTrackedChanges, List.map_cons, List.foldlM_cons]
    change copy.applyDiff ⟨.raw, .bytewise, change.1,
        (snap.data.drop change.1).take (changeLength change)⟩ >>= _ = _
    rw [hfirst]
    rfl

end Writes

/-! ### Replaying the changes -/

inductive SnapshotWrite where
  | copyInData (buffer : List UInt8) (offset : UInt32)
  | applyDiff (dataType : SnapshotDataType) (operation : SnapshotMergeOperation) (offset : UInt32)
      (data : List UInt8)

namespace SnapshotWrite

def apply (s : SnapshotData) : SnapshotWrite → Except SnapshotError SnapshotData
  | copyInData buffer offset => s.writeData buffer offset.toNat
  | applyDiff dataType operation offset data => s.applyDiff ⟨dataType, operation, offset.toNat, data⟩

def step (s : SnapshotData) (w : SnapshotWrite) : SnapshotData :=
  match w.apply s with
  | .ok s' => s'
  | .error _ => s

def Short : SnapshotWrite → Prop
  | copyInData buffer _ => buffer.length < 2 ^ 32
  | applyDiff _ _ _ data => data.length < 2 ^ 32

end SnapshotWrite

structure Replays (copy snap : SnapshotData) : Prop where
  catchesUp : CatchesUp copy snap
  maxSize : snap.maxSize = copy.maxSize
  room : snap.data.length ≤ max copy.data.length copy.maxSize

theorem Replays.step {copy snap : SnapshotData} {w : SnapshotWrite} (h : Replays copy snap) (hshort : w.Short) :
    Replays copy (w.step snap) := by
  have hwrote {offset length : Nat} {snap' : SnapshotData} (hoffset : offset < 2 ^ 32) (hlength : length < 2 ^ 32)
      (hw : snap.Wrote offset length snap') : Replays copy snap' := by
    have hroom := hw.room
    have hold := h.room
    refine ⟨h.catchesUp.wrote hw hoffset hlength, hw.maxSize.trans h.maxSize, ?_⟩
    rw [hw.size]
    rw [h.maxSize] at hroom
    omega
  unfold SnapshotWrite.step
  rcases hw : w.apply snap with e | snap'
  · exact h
  · cases w with
    | copyInData buffer offset => exact hwrote offset.toNat_lt hshort (writeData_wrote hw)
    | applyDiff dataType operation offset data =>
      rcases applyDiff_wrote hw with rfl | ⟨length, hlen, hw⟩
      · exact h
      · have hshort : data.length < 2 ^ 32 := hshort
        exact hwrote offset.toNat_lt (by simp only at hlen; omega) hw

theorem whole_write_untracked {size : Nat} (hmod : size % 2 ^ 32 = 0) (hsize : 0 < size) :
    let start : SnapshotData := { data := List.replicate size 0, maxSize := size }
    let snap := SnapshotWrite.step start (.copyInData (List.replicate size 1) 0)
    ∃ copy, start.applyDiffs snap.getTrackedChanges = .ok copy ∧ copy.data ≠ snap.data := by
  intro start snap
  obtain ⟨s', hwrite, hwrote, hinside⟩ := @writeData_ok start (List.replicate size 1) 0 (by simp [start])
  have hsnap : snap = s' := by
    simp only [snap, SnapshotWrite.step, SnapshotWrite.apply]
    rw [show (0 : UInt32).toNat = 0 from rfl, hwrite]
  have hfirst : s'.data[0]? = some 1 := by
    rw [hinside 0 le_rfl (by simpa using hsize), List.getElem?_replicate, if_pos hsize]
  have htracked : s'.trackedChanges = [(0, 0)] := by
    rw [hwrote.tracked, List.length_replicate, Nat.zero_add, hmod]
    rfl
  obtain ⟨copy, hcopy, hwrote', -⟩ := @writeData_ok start [] 0 (by simp)
  refine ⟨copy, ?_, fun heq => ?_⟩
  · rw [hsnap, getTrackedChanges, htracked]
    exact congrArg (· >>= pure) hcopy
  · have hold := hwrote'.outside 0 (by rw [hwrote'.size]; simpa [start] using hsize) (Or.inr (by simp))
    rw [heq, hsnap, hfirst] at hold
    simp [start, hsize] at hold

end Faabric
