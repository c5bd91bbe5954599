import Faabric.Lib.MapTotal
import Faabric.SchedulingDecision

/-! The groups of a host's point-to-point broker. A group is spread over five maps, four of which stand
under one lock. -/

namespace Faabric

open Std (ExtTreeMap)

structure PointToPointGroupInfo where
  appId : Int
  groupSize : Int
  isSingleHost : Bool
deriving Repr, DecidableEq

/-- `fullLock` says that `brokerMutex` is held exclusively. A flag of `groupFlags` is set once the
mappings of the group are there. -/
structure PointToPointBroker where
  groupIdIdxsMap : ExtTreeMap Int (List Int) compare := ∅
  mappings : ExtTreeMap String String compare := ∅
  mpiPortMappings : ExtTreeMap String Int compare := ∅
  groups : ExtTreeMap Int PointToPointGroupInfo compare := ∅
  groupFlags : ExtTreeMap Int Bool compare := ∅
  fullLock : Bool := false

def getPointToPointKey (groupId recvIdx : Int) : String := toString groupId ++ "-" ++ toString recvIdx

def getPointToPointLabel (groupId sendIdx recvIdx : Int) : String :=
  toString groupId ++ "-" ++ toString sendIdx ++ "-" ++ toString recvIdx

namespace PointToPointBroker

variable (s : PointToPointBroker) (groupId : Int)

def lockFull : Option PointToPointBroker := if s.fullLock then none else some { s with fullLock := true }

def lockShared : Option PointToPointBroker := if s.fullLock then none else some s

def getHostForReceiver (recvIdx : Int) : Option (Option String) := do
  let s ← s.lockShared
  return s.mappings[getPointToPointKey groupId recvIdx]?

def getMpiPortForReceiver (recvIdx : Int) : Option (Option Int) := do
  let s ← s.lockShared
  return s.mpiPortMappings[getPointToPointKey groupId recvIdx]?

def getIdxsRegisteredForGroup : Option (List Int) := do
  let s ← s.lockShared
  return s.groupIdIdxsMap[groupId]?.getD []

def setMapping (p : Placement) : PointToPointBroker :=
  { s with
    groupIdIdxsMap := s.groupIdIdxsMap.insert groupId ((s.groupIdIdxsMap[groupId]?.getD []).insert p.groupIdx)
    mappings := s.mappings.insert (getPointToPointKey groupId p.groupIdx) p.host
    mpiPortMappings := s.mpiPortMappings.insert (getPointToPointKey groupId p.groupIdx) p.mpiPort }

def setUpLocalMappingsFromSchedulingDecision (decision : SchedulingDecision) : Option PointToPointBroker := do
  let s ← s.lockFull
  let s := decision.placements.foldl (fun s p => s.setMapping decision.groupId p) s
  -- an existing group is kept
  return { s with
    groups := s.groups.insertIfNew decision.groupId ⟨decision.appId, decision.nFunctions, decision.isSingleHost⟩
    groupFlags := s.groupFlags.insert decision.groupId true
    fullLock := false }

def eraseGroup (idxs : List Int) : PointToPointBroker :=
  { s with
    mappings := (idxs.flatMap fun idxA => idxs.map fun idxB => getPointToPointLabel groupId idxA idxB).foldl
      (fun mappings label => mappings.erase label) s.mappings
    groupIdIdxsMap := s.groupIdIdxsMap.erase groupId
    groups := s.groups.erase groupId
    groupFlags := s.groupFlags.erase groupId }

def clearGroup : Option PointToPointBroker := do
  let s ← s.lockFull
  let idxs ← s.getIdxsRegisteredForGroup groupId
  return { s.eraseGroup groupId idxs with fullLock := false }

structure Forgot (s s' : PointToPointBroker) (groupId : Int) : Prop where
  host : ∀ recvIdx, s'.getHostForReceiver groupId recvIdx = some none
  port : ∀ recvIdx, s'.getMpiPortForReceiver groupId recvIdx = some none
  idxs : s'.getIdxsRegisteredForGroup groupId = some []
  group : s'.groups[groupId]? = none
  blocks : s'.groupFlags[groupId]? ≠ some true
  others : ∀ g, g ≠ groupId → s'.groups[g]? = s.groups[g]? ∧ s'.groupFlags[g]? = s.groupFlags[g]? ∧
    s'.getIdxsRegisteredForGroup g = s.getIdxsRegisteredForGroup g ∧ ∀ recvIdx,
      s'.getHostForReceiver g recvIdx = s.getHostForReceiver g recvIdx ∧
      s'.getMpiPortForReceiver g recvIdx = s.getMpiPortForReceiver g recvIdx

end PointToPointBroker

theorem toList_toString (i : Int) :
    ∃ n, (toString i).toList = Nat.toDigits 10 n ∨ (toString i).toList = '-' :: Nat.toDigits 10 n := by
  have hrepr : toString i = Int.repr i := rfl
  rw [hrepr, Int.repr_eq_if]
  split_ifs
  · exact ⟨i.toNat, Or.inl (by simp [Nat.repr_eq_ofList_toDigits])⟩
  · exact ⟨(-i).toNat, Or.inr (by simp [Nat.repr_eq_ofList_toDigits])⟩

theorem dash_not_mem_tail (i : Int) : '-' ∉ (toString i).toList.tail := by
  have hdigits : ∀ n, '-' ∉ Nat.toDigits 10 n := fun n hn =>
    absurd (Nat.isDigit_of_mem_toDigits (by norm_num) (by norm_num) hn) (by decide)
  obtain ⟨n, h | h⟩ := toList_toString i
  · rw [h]
    exact fun hmem => hdigits n (List.mem_of_mem_tail hmem)
  · rw [h]
    exact hdigits n

theorem label_ne_key (groupId a b i : Int) : getPointToPointLabel groupId a b ≠ getPointToPointKey groupId i := by
  intro h
  have hlist := congrArg String.toList h
  simp only [getPointToPointLabel, getPointToPointKey, String.toList_append, List.append_assoc,
    List.append_cancel_left_eq] at hlist
  obtain ⟨c, cs, hc⟩ : ∃ c cs, (toString a).toList = c :: cs := by
    obtain ⟨n, h | h⟩ := toList_toString a
    · obtain ⟨c, cs, hc⟩ := List.exists_cons_of_ne_nil (@Nat.toDigits_ne_nil n 10)
      exact ⟨c, cs, h.trans hc⟩
    · exact ⟨_, _, h⟩
  refine dash_not_mem_tail i ?_
  rw [← hlist, hc]
  simp

theorem getElem?_foldl_erase {labels : List String} {mappings : ExtTreeMap String String compare} {key : String}
    (h : key ∉ labels) : (labels.foldl (fun mappings label => mappings.erase label) mappings)[key]? = mappings[key]? := by
  induction labels generalizing mappings with
  | nil => rfl
  | cons label labels ih =>
    simp only [List.mem_cons, not_or] at h
    rw [List.foldl_cons, ih h.2, MapTotal.getElem?_erase_ite, if_neg (Ne.symm h.1)]

namespace PointToPointBroker

/-- `clearGroup` waits for the lock that it holds. What it would go on to erase are keys of no mapping,
and it leaves the ports alone. -/
theorem clearGroup_never_forgets (s : PointToPointBroker) (groupId : Int) :
    (¬ ∃ s', s.clearGroup groupId = some s' ∧ s.Forgot s' groupId) ∧
      ∀ idxs recvIdx, (s.eraseGroup groupId idxs).getHostForReceiver groupId recvIdx =
          s.getHostForReceiver groupId recvIdx ∧
        (s.eraseGroup groupId idxs).getMpiPortForReceiver groupId recvIdx =
          s.getMpiPortForReceiver groupId recvIdx := by
  constructor
  · rintro ⟨s', hclear, -⟩
    unfold clearGroup lockFull at hclear
    split_ifs at hclear
    · cases hclear
    · simp [getIdxsRegisteredForGroup, lockShared] at hclear
  · intro idxs recvIdx
    have hkey : getPointToPointKey groupId recvIdx ∉
        idxs.flatMap fun idxA => idxs.map fun idxB => getPointToPointLabel groupId idxA idxB := by
      intro hmem
      obtain ⟨idxA, -, hmem⟩ := List.mem_flatMap.mp hmem
      obtain ⟨idxB, -, heq⟩ := List.mem_map.mp hmem
      exact label_ne_key groupId idxA idxB recvIdx heq
    have hmapping := @getElem?_foldl_erase _ s.mappings _ hkey
    unfold getHostForReceiver getMpiPortForReceiver lockShared eraseGroup
    dsimp only
    split_ifs
    · exact ⟨rfl, rfl⟩
    · exact ⟨congrArg some hmapping, rfl⟩

theorem clearGroup_waits :
    let s := setUpLocalMappingsFromSchedulingDecision {}
      { appId := 7, groupId := 1, nFunctions := 1, placements := [{ host := "A", messageId := 3, mpiPort := 8020 }] }
    s.bind (fun s => s.getHostForReceiver 1 0) = some (some "A") ∧ s.isSome = true ∧
      s.bind (fun s => s.clearGroup 1) = none ∧
      s.bind (fun s => (s.eraseGroup 1 [0]).getHostForReceiver 1 0) = some (some "A") := by
  decide +kernel

end PointToPointBroker

end Faabric
