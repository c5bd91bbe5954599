import Faabric.SchedulingDecision
import Faabric.Lib.FirstFit

/-! What the batch schedulers share: the host map they work on, the kinds of
decision, the bin-packing loop and the migration minimiser. -/

namespace Faabric

open Std

abbrev InFlightPair := BatchExecuteRequest × SchedulingDecision

abbrev InFlightReqs := ExtTreeMap Int InFlightPair compare

structure HostState where
  ip : String
  slots : Int
  usedSlots : Int
deriving DecidableEq, Repr

abbrev HostMap := ExtTreeMap String HostState compare

def MUST_EVICT_IP : String := "E.VI.CT.ME"

inductive DecisionType where
  | new
  | distChange
  | scaleChange
deriving DecidableEq, Repr

def getDecisionType (inFlightReqs : InFlightReqs) (req : BatchExecuteRequest) : DecisionType :=
  if inFlightReqs.contains req.appId then
    if req.type = .migration then .distChange else .scaleChange
  else .new

def numSlotsAvailable (h : HostState) : Int := max 0 (h.slots - h.usedSlots)

def freeSlots (h : HostState) (numSlotsToFree : Int) : HostState :=
  { h with usedSlots := max 0 (h.usedSlots - numSlotsToFree) }

def getHostFreqCount (d : SchedulingDecision) : ExtTreeMap String Int compare :=
  d.hosts.foldl (fun m host => m.insert host (m[host]?.getD 0 + 1)) ∅

def numInHost (freq : ExtTreeMap String Int compare) (h : HostState) : Int := freq[h.ip]?.getD 0

def isFirstHostLarger (a b : HostState) : Bool :=
  if numSlotsAvailable a ≠ numSlotsAvailable b then numSlotsAvailable b < numSlotsAvailable a
  else if a.slots ≠ b.slots then b.slots < a.slots
  else b.ip < a.ip

def isFirstHostLargerWithFreq (freq : ExtTreeMap String Int compare) (a b : HostState) : Bool :=
  if numInHost freq a ≠ numInHost freq b then numInHost freq b < numInHost freq a
  else isFirstHostLarger a b

/-- `std::sort` with a strict comparison. The comparisons above are total on
hosts with distinct ips, so the order it leaves is determined. -/
def sortHosts (isFirst : HostState → HostState → Bool) (hosts : List HostState) : List HostState :=
  hosts.insertionSort fun a b => isFirst b a = false

def freeAppSlots (freq : ExtTreeMap String Int compare) (hostMap : HostMap) : HostMap :=
  hostMap.map fun _ h =>
    match freq[h.ip]? with
    | some n => freeSlots h n
    | none => h

def hostList (hostMap : HostMap) : List HostState := hostMap.toList.map Prod.snd

def assignSlots (sortedHosts : List HostState) (messages : List Message) :
    List (HostState × Message) × List Message :=
  FirstFit.fill (fun h => (numSlotsAvailable h).toNat) sortedHosts messages

def decisionFor (appId : Int) (assigned : List (HostState × Message)) : SchedulingDecision :=
  assigned.foldl (fun d e => d.addMessageOf e.1.ip e.2) { appId, groupId := 0 }

def nextHostWithSlots (freq : ExtTreeMap String Int compare) : Option String :=
  (freq.toList.find? fun e => 0 < e.2).map Prod.fst

def keepHosts : Nat → List Placement → SchedulingDecision → ExtTreeMap String Int compare →
    SchedulingDecision × ExtTreeMap String Int compare
  | _, [], d, freq => (d, freq)
  | i, old :: olds, d, freq =>
    match freq[old.host]? with
    | some n =>
      if 0 < n then keepHosts (i + 1) olds (d.addMessageInPosition i old) (freq.insert old.host (n - 1))
      else keepHosts (i + 1) olds d freq
    | none => keepHosts (i + 1) olds d freq

def moveHosts : Nat → List Placement → SchedulingDecision → ExtTreeMap String Int compare →
    Except PlannerError SchedulingDecision
  | _, [], d, _ => .ok d
  | i, old :: olds, d, freq =>
    if d.nFunctions ≤ i ∨ (d.placements[i]?.map Placement.host).getD "" = "" then
      match nextHostWithSlots freq with
      | none => .error (.runtimeError "No next host with slots found!")
      | some nextHost =>
        moveHosts (i + 1) olds
          (d.addMessageInPosition i { old with host := nextHost, mpiPort := -1 })
          (freq.insert nextHost (freq[nextHost]?.getD 0 - 1))
    else moveHosts (i + 1) olds d freq

def minimiseNumOfMigrations (newDecision oldDecision : SchedulingDecision) :
    Except PlannerError SchedulingDecision :=
  let kept := keepHosts 0 oldDecision.placements
    { appId := oldDecision.appId, groupId := oldDecision.groupId } (getHostFreqCount newDecision)
  moveHosts 0 oldDecision.placements kept.1 kept.2

end Faabric
