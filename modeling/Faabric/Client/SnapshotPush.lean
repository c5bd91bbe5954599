import Faabric.Lib.GuardedRun
import Faabric.Util.TrackedChanges

/-! The planner's copy of a snapshot that a worker has registered under a key. The first call with
the key pushes the snapshot, every later one only the changes tracked since the call before. -/

namespace Faabric

open Bytes SnapshotData

def recvPushSnapshot (contents : List UInt8) (maxSize : Nat) (mergeRegions : List SnapshotMergeRegion) :
    Except SnapshotError SnapshotData := do
  if contents.isEmpty then throw (.runtimeError "Received snapshot with zero size")
  let snap ← ofData contents maxSize
  return (mergeRegions.foldl addMergeRegion snap).clearTrackedChanges

def recvPushSnapshotUpdate (copy : SnapshotData) (diffs : List SnapshotDiff)
    (mergeRegions : List SnapshotMergeRegion) : Except SnapshotError SnapshotData := do
  let copy ← copy.applyDiffs diffs
  return mergeRegions.foldl addMergeRegion copy.clearMergeRegions

/-- The snapshot in the worker's registry under one key, whether `cache.pushedSnapshots` has the key,
and the snapshot in the planner's registry. -/
structure SnapshotSystem where
  worker : Option SnapshotData := none
  pushed : Bool := false
  planner : Option SnapshotData := none
deriving Repr, DecidableEq

inductive SnapshotAction where
  | registerSnapshot (snap : SnapshotData)
  | copyInData (buffer : List UInt8) (offset : UInt32)
  | applyDiff (dataType : SnapshotDataType) (operation : SnapshotMergeOperation) (offset : UInt32)
      (data : List UInt8)
  | addMergeRegion (region : SnapshotMergeRegion)
  | clearMergeRegions
  | fillGapsWithBytewiseRegions (diffingMode : String)
  | callFunctions

namespace SnapshotSystem

def onWorker (s : SnapshotSystem) (f : SnapshotData → Except SnapshotError SnapshotData) : SnapshotSystem :=
  match s.worker.map f with
  | some (.ok snap) => { s with worker := some snap }
  | _ => s

def callFunctions (s : SnapshotSystem) : SnapshotSystem :=
  match s.worker with
  | none => s
  | some snap =>
    if s.pushed then
      match s.planner with
      | none => s
      | some copy =>
        match recvPushSnapshotUpdate copy snap.getTrackedChanges snap.mergeRegions with
        | .ok copy => { s with planner := some copy, worker := some snap.clearTrackedChanges }
        | .error _ => { s with planner := some (copy.applyUntilError snap.getTrackedChanges) }
    else
      -- a snapshot of size zero is not pushed, and neither is one that cannot be set up
      match recvPushSnapshot snap.data snap.maxSize snap.mergeRegions with
      | .ok copy =>
        { worker := some snap.clearTrackedChanges, pushed := true, planner := some copy }
      | .error _ => s

end SnapshotSystem

def SnapshotAction.step (s : SnapshotSystem) : SnapshotAction → SnapshotSystem
  | .registerSnapshot snap => { s with worker := some snap }
  | .copyInData buffer offset => s.onWorker fun snap => snap.writeData buffer offset.toNat
  | .applyDiff dataType operation offset data =>
    s.onWorker fun snap => snap.applyDiff ⟨dataType, operation, offset.toNat, data⟩
  | .addMergeRegion region => s.onWorker fun snap => .ok (snap.addMergeRegion region)
  | .clearMergeRegions => s.onWorker fun snap => .ok snap.clearMergeRegions
  | .fillGapsWithBytewiseRegions diffingMode =>
    s.onWorker fun snap => snap.fillGapsWithBytewiseRegions diffingMode
  | .callFunctions => s.callFunctions

/-! ### Runs -/

/-- Once the planner has a copy: a snapshot registered in the place of the old one follows from it, a
write has fewer bytes than the offsets of a tracked change can tell apart, and the snapshot has not
outgrown the copy's maximum size when the changes are pushed. -/
def ChangesSuffice (s : SnapshotSystem) : SnapshotAction → Prop
  | .registerSnapshot snap => ∀ copy ∈ s.planner, CatchesUp copy snap
  | .copyInData buffer _ => s.pushed = true → buffer.length < 2 ^ 32
  | .applyDiff _ _ _ data => s.pushed = true → data.length < 2 ^ 32
  | .callFunctions => ∀ copy ∈ s.planner, ∀ snap ∈ s.worker,
    snap.data.length ≤ max copy.data.length copy.maxSize
  | _ => True

instance (s : SnapshotSystem) (action : SnapshotAction) : Decidable (ChangesSuffice s action) := by
  cases action <;> unfold ChangesSuffice <;> infer_instance

theorem foldl_addMergeRegion (snap : SnapshotData) (regions : List SnapshotMergeRegion) :
    regions.foldl addMergeRegion snap = { snap with mergeRegions := snap.mergeRegions ++ regions } := by
  induction regions generalizing snap with
  | nil => simp
  | cons region regions ih => simp [ih, addMergeRegion]

theorem recvPushSnapshot_ok {contents : List UInt8} (hne : contents ≠ []) (maxSize : Nat)
    (regions : List SnapshotMergeRegion) :
    ∃ copy, recvPushSnapshot contents maxSize regions = .ok copy ∧ copy.data = contents ∧
      copy.mergeRegions = regions := by
  have hnonempty : contents.isEmpty = false := by simpa using hne
  obtain ⟨snap, hwrite, hwrote, hinside⟩ := @writeData_ok
    { data := List.replicate contents.length 0, maxSize := if maxSize = 0 then contents.length else maxSize }
    contents 0 (by simp)
  have hregions : snap.mergeRegions = [] := by
    rw [writeData, if_neg (by simp)] at hwrite
    cases hwrite
    rfl
  have hdata : snap.data = contents := by
    have hsize := hwrote.size
    simp only [List.length_replicate, Nat.zero_add, max_self] at hsize
    apply List.ext_getElem?
    intro i
    by_cases hi : i < contents.length
    · exact hinside i (Nat.zero_le i) (by omega)
    · rw [List.getElem?_eq_none (by omega), List.getElem?_eq_none (by omega)]
  have hok : ofData contents maxSize = .ok snap := hwrite
  refine ⟨(regions.foldl addMergeRegion snap).clearTrackedChanges, ?_, ?_, ?_⟩
  · rw [recvPushSnapshot, hnonempty, hok]
    rfl
  · rwa [foldl_addMergeRegion]
  · rw [foldl_addMergeRegion]
    simp only [clearTrackedChanges, hregions, List.nil_append]

def SnapshotSystem.SendsSnapshot (s : SnapshotSystem) : Prop :=
  ∃ snap ∈ s.worker, s.pushed = true ∨ snap.data ≠ []

structure SnapshotSystem.InStep (s : SnapshotSystem) : Prop where
  unpushed : s.pushed = false → s.planner = none
  copied : s.pushed = true → ∃ copy snap, s.planner = some copy ∧ s.worker = some snap ∧ CatchesUp copy snap

namespace SnapshotSystem

variable {s : SnapshotSystem}

theorem callFunctions_sends (h : s.InStep) (hguard : ChangesSuffice s .callFunctions) (hsend : s.SendsSnapshot) :
    ∃ copy snap : SnapshotData, s.callFunctions = ⟨some snap.clearTrackedChanges, true, some copy⟩ ∧
      copy.data = snap.data ∧ copy.mergeRegions = snap.mergeRegions := by
  obtain ⟨snap, hworker, hnonempty⟩ := hsend
  have hworker : s.worker = some snap := hworker
  cases hpushed : s.pushed with
  | true =>
    obtain ⟨copy, snap', hplanner, hsnap, hcatch⟩ := h.copied hpushed
    cases hworker.symm.trans hsnap
    have hroom := hguard copy hplanner snap hworker
    obtain ⟨copy', happly, hdata⟩ := @CatchesUp.applyDiffs copy snap snap.trackedChanges hcatch hroom
    have hupdate : recvPushSnapshotUpdate copy snap.getTrackedChanges snap.mergeRegions =
        .ok { copy' with mergeRegions := snap.mergeRegions } := by
      have happly : copy.applyDiffs snap.getTrackedChanges = .ok copy' := happly
      rw [recvPushSnapshotUpdate, happly]
      simp only [foldl_addMergeRegion, clearMergeRegions]
      rfl
    refine ⟨{ copy' with mergeRegions := snap.mergeRegions }, snap, ?_, hdata, rfl⟩
    simp only [callFunctions, hworker, hpushed, hplanner, hupdate, if_true]
  | false =>
    have hne : snap.data ≠ [] := hnonempty.resolve_left (by simp [hpushed])
    obtain ⟨copy, hpush, hdata, hregions⟩ := recvPushSnapshot_ok hne snap.maxSize snap.mergeRegions
    refine ⟨copy, snap, ?_, hdata, hregions⟩
    simp [callFunctions, hworker, hpushed, hpush]

theorem callFunctions_idle (hsend : ¬s.SendsSnapshot) : s.callFunctions = s := by
  cases hworker : s.worker with
  | none => simp only [callFunctions, hworker]
  | some snap =>
    have hpushed : s.pushed = false := by
      by_contra hpushed
      exact hsend ⟨snap, hworker, .inl (by simpa using hpushed)⟩
    have hempty : snap.data = [] := by
      by_contra hne
      exact hsend ⟨snap, hworker, .inr hne⟩
    have hpush : recvPushSnapshot snap.data snap.maxSize snap.mergeRegions =
        .error (.runtimeError "Received snapshot with zero size") := by
      rw [hempty]
      rfl
    simp [callFunctions, hworker, hpushed, hpush]

theorem InStep.callFunctions (h : s.InStep) (hguard : ChangesSuffice s .callFunctions) :
    s.callFunctions.InStep := by
  by_cases hsend : s.SendsSnapshot
  · obtain ⟨copy, snap, hcall, hdata, -⟩ := callFunctions_sends h hguard hsend
    rw [hcall]
    exact ⟨nofun, fun _ => ⟨copy, _, rfl, rfl, CatchesUp.cleared hdata⟩⟩
  · rwa [callFunctions_idle hsend]

theorem InStep.onWorker (h : s.InStep) {f : SnapshotData → Except SnapshotError SnapshotData}
    (hf : s.pushed = true → ∀ copy snap snap', CatchesUp copy snap → f snap = .ok snap' → CatchesUp copy snap') :
    (s.onWorker f).InStep := by
  cases hworker : s.worker with
  | none => simpa only [SnapshotSystem.onWorker, hworker, Option.map_none] using h
  | some snap =>
    cases hsnap : f snap with
    | error e => simpa only [SnapshotSystem.onWorker, hworker, Option.map_some, hsnap] using h
    | ok snap' =>
      simp only [SnapshotSystem.onWorker, hworker, Option.map_some, hsnap]
      refine ⟨h.unpushed, fun hpushed => ?_⟩
      obtain ⟨copy, old, hplanner, hold, hcatch⟩ := h.copied hpushed
      cases hworker.symm.trans hold
      exact ⟨copy, snap', hplanner, rfl, hf hpushed copy snap snap' hcatch hsnap⟩

theorem InStep.step (h : s.InStep) {action : SnapshotAction} (hguard : ChangesSuffice s action) :
    (action.step s).InStep := by
  cases action with
  | registerSnapshot snap =>
    refine ⟨h.unpushed, fun hpushed => ?_⟩
    obtain ⟨copy, -, hplanner, -, -⟩ := h.copied hpushed
    exact ⟨copy, snap, hplanner, rfl, hguard copy hplanner⟩
  | copyInData buffer offset =>
    apply h.onWorker
    intro hpushed copy snap snap' hcatch hwrite
    exact hcatch.wrote (writeData_wrote hwrite) offset.toNat_lt (hguard hpushed)
  | applyDiff dataType operation offset data =>
    apply h.onWorker
    intro hpushed copy snap snap' hcatch hdiff
    have hdata := hguard hpushed
    rcases applyDiff_wrote hdiff with rfl | ⟨length, hlen, hwrote⟩
    · exact hcatch
    · exact hcatch.wrote hwrote offset.toNat_lt (by simp only at hlen; omega)
  | addMergeRegion region =>
    apply h.onWorker
    rintro - copy snap snap' hcatch ⟨⟩
    exact hcatch.congr rfl rfl
  | clearMergeRegions =>
    apply h.onWorker
    rintro - copy snap snap' hcatch ⟨⟩
    exact hcatch.congr rfl rfl
  | fillGapsWithBytewiseRegions diffingMode =>
    apply h.onWorker
    intro _ copy snap snap' hcatch hfill
    cases htype : fillTypeOf diffingMode with
    | error e =>
      rw [fillGapsWithBytewiseRegions, htype] at hfill
      cases hfill
    | ok fillType =>
      rw [fillGapsWithBytewiseRegions, htype] at hfill
      cases hfill
      apply hcatch.congr
      all_goals
        rw [fillGapsWith]
        split
        · rfl
        · dsimp only
          split <;> rfl
  | callFunctions => exact h.callFunctions hguard

end SnapshotSystem

/-- In a run in which the tracked changes suffice, the planner's copy has the contents, size and merge
regions of the worker's snapshot after every call that sends the snapshot. -/
theorem planner_copy_tracks_worker {actions : List SnapshotAction}
    (h : GuardedRun.Meets SnapshotAction.step ChangesSuffice {} (actions ++ [.callFunctions]))
    (hsend : (GuardedRun.run SnapshotAction.step {} actions).SendsSnapshot) :
    ∃ copy snap : SnapshotData,
      (GuardedRun.run SnapshotAction.step {} (actions ++ [.callFunctions])).planner = some copy ∧
      (GuardedRun.run SnapshotAction.step {} (actions ++ [.callFunctions])).worker = some snap ∧
      copy.data = snap.data ∧ copy.mergeRegions = snap.mergeRegions := by
  obtain ⟨hrun, hcall, -⟩ := h.append
  have hstart : SnapshotSystem.InStep {} := ⟨fun _ => rfl, nofun⟩
  have hstep := hrun.invariant (fun s action hs hok => hs.step hok) hstart
  obtain ⟨copy, snap, hafter, hdata, hregions⟩ := SnapshotSystem.callFunctions_sends hstep hcall hsend
  have hend : GuardedRun.run SnapshotAction.step {} (actions ++ [.callFunctions]) =
      ⟨some snap.clearTrackedChanges, true, some copy⟩ := by
    rw [GuardedRun.run_append]
    exact hafter
  rw [hend]
  exact ⟨copy, _, rfl, rfl, hdata, hregions⟩

def pushAndExtend : List SnapshotAction :=
  [.registerSnapshot { data := [1, 2, 3], maxSize := 8 }, .callFunctions, .copyInData [9, 9] 4,
    .applyDiff .raw .xor 0 [1], .addMergeRegion ⟨0, 4, .int, .sum⟩]

theorem planner_copy_tracks_worker_extended :
    ∃ copy snap : SnapshotData,
      (GuardedRun.run SnapshotAction.step {} (pushAndExtend ++ [.callFunctions])).planner = some copy ∧
      (GuardedRun.run SnapshotAction.step {} (pushAndExtend ++ [.callFunctions])).worker = some snap ∧
      copy.data = snap.data ∧ copy.mergeRegions = snap.mergeRegions :=
  planner_copy_tracks_worker (by decide +kernel) ⟨⟨[0, 2, 3, 0, 9, 9], 8, [], [(4, 6), (0, 1)],
    [⟨0, 4, .int, .sum⟩]⟩, by decide +kernel, .inl (by decide +kernel)⟩

/-- A shorter snapshot registered under the key is sent as an update, which leaves the end of the old
one in the planner's copy. -/
theorem replaced_snapshot_keeps_old_end :
    let s := GuardedRun.run SnapshotAction.step {}
      [.registerSnapshot { data := [1, 2, 3], maxSize := 3, trackedChanges := [(0, 3)] }, .callFunctions,
        .registerSnapshot { data := [9], maxSize := 1, trackedChanges := [(0, 1)] }, .callFunctions]
    s.worker.map data = some [9] ∧ s.planner.map data = some [9, 2, 3] := by
  decide +kernel

end Faabric
