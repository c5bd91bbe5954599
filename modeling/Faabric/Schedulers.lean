import Faabric.RpcDependencyGraph

/-! The five batch schedulers: bin-pack, compact, spot, forced migration and
service locality. -/

namespace Faabric

open Std

def oldHostFreqCount (inFlightReqs : InFlightReqs) (req : BatchExecuteRequest) :
    ExtTreeMap String Int compare :=
  match inFlightReqs[req.appId]? with
  | none => ∅
  | some p => getHostFreqCount p.2

namespace BinPack

def getLocalityScore (d : SchedulingDecision) : Int × Int :=
  let freq := (getHostFreqCount d).toList
  if freq.length = 1 then (1, 0)
  else
    let total := (freq.map Prod.snd).sum
    (freq.length, (freq.map fun e => (total - e.2) * e.2).sum / 2)

def isFirstDecisionBetter (a b : SchedulingDecision) : Bool :=
  let scoreA := getLocalityScore a
  let scoreB := getLocalityScore b
  if scoreA.1 ≠ scoreB.1 then scoreA.1 < scoreB.1 else scoreA.2 < scoreB.2

def isFirstHostLargerWithFreqTaint (freq : ExtTreeMap String Int compare) (a b : HostState) : Bool :=
  if numSlotsAvailable a ≠ numSlotsAvailable b then numSlotsAvailable b < numSlotsAvailable a
  else isFirstHostLargerWithFreq freq a b

def getSortedHosts (hostMap : HostMap) (inFlightReqs : InFlightReqs) (req : BatchExecuteRequest) :
    DecisionType → List HostState
  | .new => sortHosts isFirstHostLarger (hostList hostMap)
  | .scaleChange =>
    sortHosts (isFirstHostLargerWithFreq (oldHostFreqCount inFlightReqs req)) (hostList hostMap)
  | .distChange =>
    sortHosts (isFirstHostLargerWithFreqTaint (oldHostFreqCount inFlightReqs req))
      (hostList (freeAppSlots (oldHostFreqCount inFlightReqs req) hostMap))

/-- With the single-host hint an OpenMP request only considers the first host:
`erase(begin() + 1, end())`, which is undefined when there is no host at all. -/
def considerHosts (req : BatchExecuteRequest) (sortedHosts : List HostState) :
    Except PlannerError (List HostState) :=
  if req.singleHostHint && req.isOmp then
    match sortedHosts with
    | [] => .error .undefinedBehaviour
    | h :: _ => .ok [h]
  else .ok sortedHosts

def makeSchedulingDecision (hostMap : HostMap) (inFlightReqs : InFlightReqs)
    (req : BatchExecuteRequest) : Except PlannerError SchedulingDecision :=
  let decisionType := getDecisionType inFlightReqs req
  match considerHosts req (getSortedHosts hostMap inFlightReqs req decisionType) with
  | .error e => .error e
  | .ok sortedHosts =>
    let assigned := assignSlots sortedHosts req.messages
    let decision := decisionFor req.appId assigned.1
    if assigned.2 ≠ [] then .ok NOT_ENOUGH_SLOTS_DECISION
    else if decisionType = .distChange then
      match inFlightReqs[req.appId]? with
      | none => .error .outOfRange
      | some (_, oldDecision) =>
        if isFirstDecisionBetter decision oldDecision then
          minimiseNumOfMigrations decision oldDecision
        else .ok DO_NOT_MIGRATE_DECISION
    else .ok decision

end BinPack

namespace Compact

def getNumFreeHosts (hostMap : HostMap) : Nat :=
  (hostList hostMap).countP fun h => h.usedSlots = 0

def addDecision (hostMap : HostMap) (d : SchedulingDecision) : HostMap :=
  d.hosts.foldl (fun m host => m.modify host fun h => { h with usedSlots := h.usedSlots + 1 }) hostMap

def isFirstDecisionBetter (hostMap : HostMap) (newDecision oldDecision : SchedulingDecision) : Bool :=
  getNumFreeHosts (addDecision hostMap oldDecision) < getNumFreeHosts (addDecision hostMap newDecision)

def filterHosts (hostMap : HostMap) (inFlightReqs : InFlightReqs) (req : BatchExecuteRequest) :
    HostMap :=
  inFlightReqs.toList.foldl
    (fun m e =>
      if e.2.1.subType = req.subType then m
      else e.2.2.hosts.foldl (fun m host => m.erase host) m)
    hostMap

def isFirstHostFuller (a b : HostState) : Bool :=
  if a.usedSlots ≠ b.usedSlots then b.usedSlots < a.usedSlots else isFirstHostLarger a b

def getSortedHosts (hostMap : HostMap) (inFlightReqs : InFlightReqs) (req : BatchExecuteRequest) :
    DecisionType → List HostState
  | .new => sortHosts isFirstHostLarger (hostList hostMap)
  | .scaleChange =>
    sortHosts (isFirstHostLargerWithFreq (oldHostFreqCount inFlightReqs req)) (hostList hostMap)
  | .distChange =>
    sortHosts isFirstHostFuller
      (hostList (freeAppSlots (oldHostFreqCount inFlightReqs req) hostMap))

def makeSchedulingDecision (hostMap : HostMap) (inFlightReqs : InFlightReqs)
    (req : BatchExecuteRequest) : Except PlannerError SchedulingDecision :=
  let hostMap := filterHosts hostMap inFlightReqs req
  let decisionType := getDecisionType inFlightReqs req
  let assigned := assignSlots (getSortedHosts hostMap inFlightReqs req decisionType) req.messages
  let decision := decisionFor req.appId assigned.1
  if assigned.2 ≠ [] then .ok NOT_ENOUGH_SLOTS_DECISION
  else if decisionType = .distChange then
    match inFlightReqs[req.appId]? with
    | none => .error .outOfRange
    | some (_, oldDecision) =>
      if isFirstDecisionBetter (freeAppSlots (oldHostFreqCount inFlightReqs req) hostMap)
          decision oldDecision then
        minimiseNumOfMigrations decision oldDecision
      else .ok DO_NOT_MIGRATE_DECISION
  else .ok decision

end Compact

namespace Spot

def filterHosts (hostMap : HostMap) : HostMap × List String :=
  (hostMap.filter fun _ h => h.ip ≠ MUST_EVICT_IP,
    (hostMap.toList.filter fun e => e.2.ip = MUST_EVICT_IP).map Prod.fst)

def getSortedHosts (hostMap : HostMap) (inFlightReqs : InFlightReqs) (req : BatchExecuteRequest) :
    DecisionType → List HostState
  | .new => sortHosts isFirstHostLarger (hostList hostMap)
  | .scaleChange =>
    sortHosts (isFirstHostLargerWithFreq (oldHostFreqCount inFlightReqs req)) (hostList hostMap)
  | .distChange =>
    sortHosts (isFirstHostLargerWithFreq (oldHostFreqCount inFlightReqs req))
      (hostList (freeAppSlots (oldHostFreqCount inFlightReqs req) hostMap))

def makeSchedulingDecision (hostMap : HostMap) (inFlightReqs : InFlightReqs)
    (req : BatchExecuteRequest) : Except PlannerError SchedulingDecision :=
  let filtered := filterHosts hostMap
  let decisionType := getDecisionType inFlightReqs req
  let assigned := assignSlots (getSortedHosts filtered.1 inFlightReqs req decisionType) req.messages
  let decision := decisionFor req.appId assigned.1
  if decisionType = .distChange then
    if assigned.2 ≠ [] then .ok MUST_FREEZE_DECISION
    else
      match inFlightReqs[req.appId]? with
      | none => .error .outOfRange
      | some (_, oldDecision) =>
        if oldDecision.hosts.any fun host => filtered.2.contains host then
          minimiseNumOfMigrations decision oldDecision
        else .ok DO_NOT_MIGRATE_DECISION
  else if assigned.2 ≠ [] then .ok NOT_ENOUGH_SLOTS_DECISION
  else .ok decision

end Spot

namespace ForcedMigration

def migrateEveryNChecks : Int := 10

def getSortedHosts (hostMap : HostMap) (inFlightReqs : InFlightReqs) (req : BatchExecuteRequest)
    (decisionType : DecisionType) : List HostState :=
  sortHosts isFirstHostLarger (hostList
    (if decisionType = .distChange then freeAppSlots (oldHostFreqCount inFlightReqs req) hostMap
     else hostMap))

def nextHostAfter (hostOrder : List String) (avail : ExtTreeMap String Int compare)
    (current : String) : Option String :=
  let startIdx := if current ∈ hostOrder then hostOrder.idxOf current else 0
  match (hostOrder.rotate (startIdx + 1)).find? fun c => c ≠ current ∧ 0 < avail[c]?.getD 0 with
  | some c => some c
  | none => if 0 < avail[current]?.getD 0 then some current else none

def rotateMessages (hostOrder : List String) :
    Nat → List Placement → SchedulingDecision → ExtTreeMap String Int compare →
    Except PlannerError SchedulingDecision
  | _, [], d, _ => .ok d
  | i, old :: olds, d, avail =>
    match nextHostAfter hostOrder avail old.host with
    | none => .error (.runtimeError "No host with free slots during rotation")
    | some newHost =>
      rotateMessages hostOrder (i + 1) olds
        (d.addMessageInPosition i { old with host := newHost, mpiPort := -1 })
        (avail.insert newHost (avail[newHost]?.getD 0 - 1))

def rotatePlacement (oldDecision : SchedulingDecision) (sortedHosts : List HostState) :
    Except PlannerError SchedulingDecision :=
  rotateMessages (sortedHosts.map HostState.ip) 0 oldDecision.placements
    { appId := oldDecision.appId, groupId := oldDecision.groupId }
    (sortedHosts.foldl (fun m h => m.insert h.ip (numSlotsAvailable h)) ∅)

def decisionsDiffer (a b : SchedulingDecision) : Bool := a.hosts ≠ b.hosts

/-- `checks` is the value of `distChangeCounter` before the call. -/
def makeSchedulingDecision (checks : Int) (hostMap : HostMap) (inFlightReqs : InFlightReqs)
    (req : BatchExecuteRequest) : Except PlannerError SchedulingDecision :=
  let decisionType := getDecisionType inFlightReqs req
  let sortedHosts := getSortedHosts hostMap inFlightReqs req decisionType
  if decisionType = .distChange then
    if (checks + 1).tmod migrateEveryNChecks ≠ 0 then .ok DO_NOT_MIGRATE_DECISION
    else
      match inFlightReqs[req.appId]? with
      | none => .error .outOfRange
      | some (_, oldDecision) =>
        match rotatePlacement oldDecision sortedHosts with
        | .error e => .error e
        | .ok rotated =>
          if decisionsDiffer rotated oldDecision then .ok rotated else .ok DO_NOT_MIGRATE_DECISION
  else
    let assigned := assignSlots sortedHosts req.messages
    if assigned.2 ≠ [] then .ok NOT_ENOUGH_SLOTS_DECISION
    else .ok (decisionFor req.appId assigned.1)

end ForcedMigration

namespace ServiceLocality

def isRpcServiceMigration (inFlightReqs : InFlightReqs) (req : BatchExecuteRequest) : Bool :=
  getDecisionType inFlightReqs req = .distChange &&
    match req.messages with
    | [m] => m.isRpc && m.isLongRunning
    | _ => false

def makeRpcMigrationDecision (graph : RpcDependencyGraph) (now : Int) (hostMap : HostMap)
    (req : BatchExecuteRequest) : SchedulingDecision :=
  match req.messages with
  | [m] =>
    let appId := if m.appId = 0 then req.appId else m.appId
    match (graph.recommendHost now { appId, msgId := m.id } hostMap).1 with
    | none => DO_NOT_MIGRATE_DECISION
    | some targetHost =>
      SchedulingDecision.addMessageOf { appId := req.appId, groupId := 0 } targetHost m
  | _ => DO_NOT_MIGRATE_DECISION

def makeSchedulingDecision (graph : RpcDependencyGraph) (now : Int) (hostMap : HostMap)
    (inFlightReqs : InFlightReqs) (req : BatchExecuteRequest) :
    Except PlannerError SchedulingDecision :=
  if isRpcServiceMigration inFlightReqs req then
    .ok (makeRpcMigrationDecision graph now hostMap req)
  else BinPack.makeSchedulingDecision hostMap inFlightReqs req

end ServiceLocality

inductive SchedulerMode where
  | binPack
  | compact
  | spot
  | service
  | force
deriving DecidableEq, Repr

namespace SchedulerMode

def ofString? (mode : String) : Option SchedulerMode :=
  if mode = "bin-pack" then some .binPack
  else if mode = "compact" then some .compact
  else if mode = "spot" then some .spot
  else if mode = "service" then some .service
  else if mode = "force" then some .force
  else none

def makeSchedulingDecision (mode : SchedulerMode) (checks : Int) (graph : RpcDependencyGraph)
    (now : Int) (hostMap : HostMap) (inFlightReqs : InFlightReqs) (req : BatchExecuteRequest) :
    Except PlannerError SchedulingDecision :=
  match mode with
  | .binPack => BinPack.makeSchedulingDecision hostMap inFlightReqs req
  | .compact => Compact.makeSchedulingDecision hostMap inFlightReqs req
  | .spot => Spot.makeSchedulingDecision hostMap inFlightReqs req
  | .service => ServiceLocality.makeSchedulingDecision graph now hostMap inFlightReqs req
  | .force => ForcedMigration.makeSchedulingDecision checks hostMap inFlightReqs req

end SchedulerMode

end Faabric
