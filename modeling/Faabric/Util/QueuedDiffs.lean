import Faabric.Lib.GuardedRun
import Faabric.Util.TrackedChanges

/-! The queue of diffs is cleared once all of them have been written. A write that throws keeps the
whole queue, and the next one starts again with the first diff. -/

namespace Faabric

def SnapshotData.appliedUntilError : SnapshotData → List SnapshotDiff → Nat
  | _, [] => 0
  | s, diff :: diffs =>
    match s.applyDiff diff with
    | .ok s => s.appliedUntilError diffs + 1
    | .error _ => 0

/-- A snapshot and its queue, of which the first `applied` diffs have been applied by writes that threw.
`once` is the snapshot to which every diff has been applied once. -/
structure QueuedSnapshot where
  snap : SnapshotData
  applied : Nat := 0
  once : SnapshotData

inductive QueueAction where
  | queueDiffs (diffs : List SnapshotDiff)
  | copyInData (buffer : List UInt8) (offset : UInt32)
  | writeQueuedDiffs

def QueueAction.step (s : QueuedSnapshot) : QueueAction → QueuedSnapshot
  | queueDiffs diffs => { s with snap := s.snap.queueDiffs diffs }
  | copyInData buffer offset =>
    { s with
      snap := SnapshotWrite.step s.snap (.copyInData buffer offset)
      once := SnapshotWrite.step s.once (.copyInData buffer offset) }
  | writeQueuedDiffs =>
    let once := s.once.applyUntilError (s.snap.queuedDiffs.drop s.applied)
    match s.snap.writeQueuedDiffs with
    | .ok snap => { snap, once }
    | .error _ =>
      { snap := s.snap.applyUntilError s.snap.queuedDiffs
        applied := Nat.max s.applied (s.snap.appliedUntilError s.snap.queuedDiffs)
        once }

/-- The diffs that a write has applied before it threw can be applied again without a change. -/
def RepeatsHarmlessly (s : QueuedSnapshot) : QueueAction → Prop
  | .writeQueuedDiffs =>
    (s.snap.applyDiffs (s.snap.queuedDiffs.take s.applied)).toOption.map SnapshotData.data = some s.snap.data
  | _ => True

instance (s : QueuedSnapshot) (action : QueueAction) : Decidable (RepeatsHarmlessly s action) := by
  cases action <;> unfold RepeatsHarmlessly <;> infer_instance

structure SameContents (s t : SnapshotData) : Prop where
  data : s.data = t.data
  maxSize : s.maxSize = t.maxSize

section Contents

variable {s t s' : SnapshotData} {diffs : List SnapshotDiff}

theorem writeData_contents (h : SameContents s t) (buffer : List UInt8) (offset : Nat) :
    (∃ e, s.writeData buffer offset = .error e ∧ t.writeData buffer offset = .error e) ∨
      ∃ s' t', s.writeData buffer offset = .ok s' ∧ t.writeData buffer offset = .ok t' ∧ SameContents s' t' := by
  simp only [SnapshotData.writeData, h.data, h.maxSize]
  split_ifs
  · exact Or.inl ⟨_, rfl, rfl⟩
  · exact Or.inr ⟨_, _, rfl, rfl, rfl, rfl⟩

theorem applyDiff_contents (h : SameContents s t) (diff : SnapshotDiff) :
    (∃ e, s.applyDiff diff = .error e ∧ t.applyDiff diff = .error e) ∨
      ∃ s' t', s.applyDiff diff = .ok s' ∧ t.applyDiff diff = .ok t' ∧ SameContents s' t' := by
  have hvalue {T : Type} (number : DiffNumber T) :
      (∃ e, s.applyValueDiff number diff = .error e ∧ t.applyValueDiff number diff = .error e) ∨
        ∃ s' t', s.applyValueDiff number diff = .ok s' ∧ t.applyValueDiff number diff = .ok t' ∧
          SameContents s' t' := by
    simp only [SnapshotData.applyValueDiff, h.data]
    split_ifs
    · exact Or.inl ⟨_, rfl, rfl⟩
    · rcases applyDiffValue number (t.data.drop diff.offset) diff.data diff.operation with e | value
      · exact Or.inl ⟨_, rfl, rfl⟩
      · exact writeData_contents h value diff.offset
  obtain ⟨dataType, operation, offset, data⟩ := diff
  cases operation with
  | ignore => exact Or.inr ⟨s, t, rfl, rfl, h⟩
  | bytewise => exact writeData_contents h data offset
  | xor =>
    simp only [SnapshotData.applyDiff, SnapshotData.xorData, h.data]
    split_ifs
    · exact Or.inl ⟨_, rfl, rfl⟩
    · exact Or.inr ⟨_, _, rfl, rfl, rfl, h.maxSize⟩
  | sum | product | subtract | max | min =>
    cases dataType with
    | int => exact hvalue (intNumber 4)
    | long => exact hvalue (intNumber 8)
    | float => exact hvalue floatNumber
    | double => exact hvalue doubleNumber
    | raw | bool =>
      simp only [SnapshotData.applyDiff, h.data]
      split_ifs <;> exact Or.inl ⟨_, rfl, rfl⟩

theorem applyUntilError_contents (h : SameContents s t) :
    SameContents (s.applyUntilError diffs) (t.applyUntilError diffs) := by
  induction diffs generalizing s t with
  | nil => exact h
  | cons diff diffs ih =>
    rcases applyDiff_contents h diff with ⟨e, hs, ht⟩ | ⟨s', t', hs, ht, h'⟩
    · simpa only [SnapshotData.applyUntilError, hs, ht] using h
    · simpa only [SnapshotData.applyUntilError, hs, ht] using ih h'

theorem applyDiffs_maxSize (h : s.applyDiffs diffs = .ok s') : s'.maxSize = s.maxSize := by
  induction diffs generalizing s with
  | nil =>
    cases h
    rfl
  | cons diff diffs ih =>
    rw [SnapshotData.applyDiffs, List.foldlM_cons] at h
    rcases hfirst : s.applyDiff diff with e | s''
    · rw [hfirst] at h
      cases h
    · rw [hfirst] at h
      refine (ih h).trans ?_
      rcases applyDiff_wrote hfirst with rfl | ⟨length, -, hwrote⟩
      · rfl
      · exact hwrote.maxSize

theorem applyUntilError_append (h : s.applyDiffs diffs = .ok s') (rest : List SnapshotDiff) :
    s.applyUntilError (diffs ++ rest) = s'.applyUntilError rest := by
  induction diffs generalizing s with
  | nil =>
    cases h
    rfl
  | cons diff diffs ih =>
    rw [SnapshotData.applyDiffs, List.foldlM_cons] at h
    rcases hfirst : s.applyDiff diff with e | s''
    · rw [hfirst] at h
      cases h
    · rw [hfirst] at h
      rw [List.cons_append, SnapshotData.applyUntilError, hfirst]
      exact ih h

theorem SnapshotWrite.copyInData_contents (h : SameContents s t) (buffer : List UInt8) (offset : UInt32) :
    SameContents (SnapshotWrite.step s (.copyInData buffer offset))
      (SnapshotWrite.step t (.copyInData buffer offset)) := by
  rcases writeData_contents h buffer offset.toNat with ⟨e, hs, ht⟩ | ⟨s', t', hs, ht, h'⟩
  · simpa only [SnapshotWrite.step, SnapshotWrite.apply, hs, ht] using h
  · simpa only [SnapshotWrite.step, SnapshotWrite.apply, hs, ht] using h'

end Contents

theorem QueuedSnapshot.write_contents {s : QueuedSnapshot} (h : SameContents s.snap s.once)
    (hok : RepeatsHarmlessly s .writeQueuedDiffs) :
    SameContents (QueueAction.step s .writeQueuedDiffs).snap (QueueAction.step s .writeQueuedDiffs).once := by
  -- the repeated diffs lead back to the contents that the rest of the queue is applied to
  have hrest : SameContents (s.snap.applyUntilError s.snap.queuedDiffs)
      (s.once.applyUntilError (s.snap.queuedDiffs.drop s.applied)) := by
    rcases hagain : s.snap.applyDiffs (s.snap.queuedDiffs.take s.applied) with e | again
    · simp [RepeatsHarmlessly, hagain, Except.toOption] at hok
    · have hdata : again.data = s.snap.data := by simpa [RepeatsHarmlessly, hagain, Except.toOption] using hok
      have hsplit := applyUntilError_append hagain (s.snap.queuedDiffs.drop s.applied)
      rw [List.take_append_drop] at hsplit
      rw [hsplit]
      exact applyUntilError_contents ⟨hdata.trans h.data, (applyDiffs_maxSize hagain).trans h.maxSize⟩
  rcases hwrite : s.snap.writeQueuedDiffs with e | snap
  · simpa only [QueueAction.step, hwrite] using hrest
  · simp only [QueueAction.step, hwrite]
    rcases happly : s.snap.applyDiffs s.snap.queuedDiffs with e | written
    · rw [SnapshotData.writeQueuedDiffs, happly] at hwrite
      cases hwrite
    · rw [SnapshotData.writeQueuedDiffs, happly] at hwrite
      cases hwrite
      have hall := applyUntilError_append happly []
      rw [List.append_nil] at hall
      rw [hall] at hrest
      exact ⟨hrest.data, hrest.maxSize⟩

def extendAndRetry (operation : SnapshotMergeOperation) : List QueueAction :=
  [.queueDiffs [⟨.int, operation, 0, [1, 0, 0, 0]⟩, ⟨.raw, .xor, 4, [7]⟩], .writeQueuedDiffs, .copyInData [0] 4,
    .writeQueuedDiffs]

end Faabric
