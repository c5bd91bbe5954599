import Faabric.Planner.State

/-! `Planner::callBatch`, stage by stage: growing or replacing the request,
choosing a decision, handling its verdict, and claiming what it needs. -/

namespace Faabric

open Std

/-- What a call reads from outside the planner: the ids `generateGid` returns for
elastic messages and for the new group, the RPC dependency graph and the clock. -/
structure CallEnv where
  messageGids : Nat → Int := fun i => i + 1
  newGroupId : Int := 1
  graph : RpcDependencyGraph := {}
  now : Int := 0

def convertToBatchSchedHostMap (hostMapIn : PlannerHosts) (nextEvictedHostIps : Finset String) :
    HostMap :=
  hostMapIn.map fun ip h =>
    { ip := if ip ∈ nextEvictedHostIps then MUST_EVICT_IP else h.ip
      slots := h.slots
      usedSlots := h.usedSlots }

def requestedButNotOccupiedSlots (req : BatchExecuteRequest) : Except PlannerError Int :=
  match req.messages with
  | [] => .error .undefinedBehaviour
  | m :: ms => .ok (m.ompNumThreads - (m :: ms).length)

def discountInFlight (appId : Int) (mainHost : String) :
    List (Int × InFlightPair) → Int → Except PlannerError Int
  | [], availableSlots => .ok availableSlots
  | (thisAppId, req, dec) :: apps, availableSlots =>
    if appId = thisAppId then discountInFlight appId mainHost apps availableSlots
    else
      match dec.placements with
      | [] => .error .outOfRange
      | first :: _ =>
        if first.host = mainHost then
          match requestedButNotOccupiedSlots req with
          | .error e => .error e
          | .ok n => discountInFlight appId mainHost apps (if 0 < n then availableSlots - n else availableSlots)
        else discountInFlight appId mainHost apps availableSlots

def availableOpenMpSlots (appId : Int) (mainHost : String) (hostMap : PlannerHosts)
    (inFlightReqs : InFlightReqs) : Except PlannerError Int :=
  match hostMap[mainHost]? with
  | none => .error .outOfRange
  | some h => discountInFlight appId mainHost inFlightReqs.toList (h.slots - h.usedSlots)

/-- The message that elastic copies start from. Scaling up from zero messages
copies the first in-flight one and passes the function pointer in the group id. -/
def elasticTemplate (mainHost : String) (oldReq req : BatchExecuteRequest) : Option Message :=
  match req.messages.getLast? with
  | some last => some last
  | none => oldReq.messages.head?.map fun m => { m with mainHost := mainHost, funcPtr := req.groupId }

def elasticMessages (env : CallEnv) (req : BatchExecuteRequest) (template : Message) (count : Nat) :
    List Message :=
  let lastMsgIdx := (req.messages.getLast?.map Message.groupIdx).getD 0
  (List.range count).map fun itr =>
    { template with
      appIdx := lastMsgIdx + itr + 1
      groupIdx := lastMsgIdx + itr + 1
      id := env.messageGids itr }

def scaleUpElastically (env : CallEnv) (req : BatchExecuteRequest) (s : PlannerState) :
    Except PlannerError BatchExecuteRequest :=
  match s.inFlightReqs[req.appId]? with
  | none => .error .outOfRange
  | some (oldReq, oldDec) =>
    match oldDec.placements with
    | [] => .error .outOfRange
    | first :: _ =>
      match availableOpenMpSlots req.appId first.host s.hostMap s.inFlightReqs with
      | .error e => .error e
      | .ok numAvail =>
        let count := (numAvail - req.messages.length).toNat
        if count = 0 then .ok req
        else
          match elasticTemplate first.host oldReq req with
          | none => .error .undefinedBehaviour
          | some template =>
            .ok { req with messages := req.messages ++ elasticMessages env req template count }

/-- A fork with the elastic hint grows the request; a migration schedules the
in-flight messages in place of the ones it was sent. -/
def prepareRequest (env : CallEnv) (decisionType : DecisionType) (req : BatchExecuteRequest)
    (s : PlannerState) : Except PlannerError BatchExecuteRequest :=
  match decisionType with
  | .new => .ok req
  | .scaleChange =>
    if req.elasticScaleHint && !s.preloadedSchedulingDecisions.contains req.appId then
      scaleUpElastically env req s
    else .ok req
  | .distChange =>
    match s.inFlightReqs[req.appId]? with
    | none => .error .outOfRange
    | some (oldReq, _) => .ok { req with subType := oldReq.subType, messages := oldReq.messages }

def reserveOpenMpSlots (appId : Int) : List (Int × InFlightPair) → HostMap → Except PlannerError HostMap
  | [], hostMap => .ok hostMap
  | (thisAppId, req, dec) :: apps, hostMap =>
    if thisAppId = appId then reserveOpenMpSlots appId apps hostMap
    else
      match requestedButNotOccupiedSlots req with
      | .error e => .error e
      | .ok n =>
        if 0 < n then
          match dec.placements with
          | [] => .error .outOfRange
          | first :: _ =>
            match hostMap[first.host]? with
            | none => .error .outOfRange
            | some h =>
              reserveOpenMpSlots appId apps
                (hostMap.insert first.host { h with usedSlots := h.usedSlots + n })
        else reserveOpenMpSlots appId apps hostMap

/-- The request padded with mock messages up to the world size or the number of
threads. A negative size wraps around as `size_t` and the loop has no end. -/
def knownSizeRequest (req : BatchExecuteRequest) : Except PlannerError BatchExecuteRequest :=
  match req.messages with
  | [] => .error .undefinedBehaviour
  | m :: _ =>
    let reqSize := if req.isMpi then m.mpiWorldSize else m.ompNumThreads
    if reqSize < 0 then .error .undefinedBehaviour
    else
      let n := req.messages.length
      .ok { req with
        messages := req.messages ++ (List.range (reqSize.toNat - n)).map fun i =>
          { appId := req.appId, groupIdx := n + i } }

def preloadedPlacements (preloaded : List Placement) : List Message → Except PlannerError (List Placement)
  | [] => .ok []
  | msg :: msgs =>
    match preloaded.find? (fun p => p.groupIdx == msg.groupIdx) with
    | none => .error .outOfRange
    | some p => (preloadedPlacements preloaded msgs).map ({ p with messageId := msg.id } :: ·)

def getPreloadedSchedulingDecision (decision : SchedulingDecision) (ber : BatchExecuteRequest) :
    Except PlannerError SchedulingDecision :=
  (preloadedPlacements decision.placements ber.messages).map fun placements =>
    { appId := decision.appId, groupId := decision.groupId, nFunctions := placements.length, placements }

def makeDecision (env : CallEnv) (mode : SchedulerMode) (hostMap : HostMap)
    (req : BatchExecuteRequest) (s : PlannerState) : Except PlannerError SchedulingDecision × PlannerState :=
  (mode.makeSchedulingDecision s.distChangeCounter env.graph env.now hostMap s.inFlightReqs req,
    if mode = .force ∧ getDecisionType s.inFlightReqs req = .distChange then
      { s with distChangeCounter := s.distChangeCounter + 1 }
    else s)

/-- The decision, and whether it was made for the known final size of the app.
A preloaded decision is dropped once a scale change has consumed it. -/
def scheduleRequest (env : CallEnv) (mode : SchedulerMode) (decisionType : DecisionType)
    (req : BatchExecuteRequest) (s : PlannerState) :
    Except PlannerError (SchedulingDecision × Bool) × PlannerState :=
  let hostMapCopy := convertToBatchSchedHostMap s.hostMap s.nextEvictedHostIps
  match (if req.isOmp then reserveOpenMpSlots req.appId s.inFlightReqs.toList hostMapCopy
      else .ok hostMapCopy) with
  | .error e => (.error e, s)
  | .ok hostMapCopy =>
    match (if decisionType = .distChange then none else s.preloadedSchedulingDecisions[req.appId]?) with
    | some preloaded =>
      match getPreloadedSchedulingDecision preloaded req with
      | .error e => (.error e, s)
      | .ok decision =>
        (.ok (decision, false),
          if decisionType = .scaleChange then
            { s with
              preloadedSchedulingDecisions := s.preloadedSchedulingDecisions.erase req.appId }
          else s)
    | none =>
      if decisionType = .new ∧ (req.isMpi ∨ req.isOmp) then
        match knownSizeRequest req with
        | .error e => (.error e, s)
        | .ok knownSizeReq =>
          let r := makeDecision env mode hostMapCopy knownSizeReq s
          (r.1.map fun d => (d, true), r.2)
      else
        let r := makeDecision env mode hostMapCopy req s
        (r.1.map fun d => (d, false), r.2)

def amendMessages (evictedBer req : BatchExecuteRequest) : BatchExecuteRequest :=
  { req with
    messages := req.messages.map fun m =>
      match (evictedBer.messages.drop 1).find? (fun e => e.groupIdx == m.groupIdx) with
      | none => m
      | some e =>
        { m with
          id := e.id
          funcPtr := e.funcPtr
          inputData := e.inputData
          snapshotKey := e.snapshotKey } }

def unFreeze (decisionType : DecisionType) (req : BatchExecuteRequest) (s : PlannerState) :
    BatchExecuteRequest × PlannerState :=
  match s.evictedRequests[req.appId]? with
  | none => (req, s)
  | some evictedBer =>
    if decisionType = .new ∧ req.isMpi then ({ req with messages := req.messages.take 1 }, s)
    else if req.isMpi ∧ decisionType ≠ .distChange then
      (amendMessages evictedBer req,
        { s with evictedRequests := s.evictedRequests.erase req.appId })
    else (req, s)

/-! Sending mappings and requests. -/

def uniqueHosts (hosts : List String) : List String := (ExtTreeSet.ofList hosts compare).toList

def mappingsFromSchedulingDecision (d : SchedulingDecision) : PointToPointMappings :=
  { appId := d.appId
    groupId := d.groupId
    mappings := (d.placements.take d.nFunctions.toNat).map fun p =>
      { host := p.host, messageId := p.messageId, appIdx := p.appIdx,
        groupIdx := p.groupIdx, mpiPort := p.mpiPort } }

def sendMappings (d : SchedulingDecision) (hosts : List String) (s : PlannerState) : PlannerState :=
  { s with
    sent := s.sent ++ hosts.map fun host => .sendMappings host (mappingsFromSchedulingDecision d) }

def setAndSendMappings (d : SchedulingDecision) (s : PlannerState) :
    Except PlannerError Unit × PlannerState :=
  if (d.placements.length : Int) < d.nFunctions then (.error .outOfRange, s)
  else (.ok (), sendMappings d ((uniqueHosts d.hosts).filter (· ≠ s.endpointHost)) s)

def hostRequest (req : BatchExecuteRequest) (decision : SchedulingDecision) (host : String) :
    BatchExecuteRequest :=
  let messages := ((req.messages.zip decision.placements).filter fun e => e.2.host = host).map Prod.fst
  { appId := decision.appId
    groupId := decision.groupId
    user := (messages.head?.map Message.user).getD ""
    function := (messages.head?.map Message.function).getD ""
    snapshotKey := req.snapshotKey
    type := req.type
    subType := req.subType
    contextData := req.contextData
    singleHost := decision.isSingleHost
    singleHostHint := req.singleHostHint
    elasticScaleHint := req.elasticScaleHint
    messages }

def dispatchSchedulingDecision (req : BatchExecuteRequest) (decision : SchedulingDecision)
    (s : PlannerState) : Except PlannerError SchedulingDecision × PlannerState :=
  if decision.placements.length < req.messages.length then (.error .outOfRange, s)
  else
    (.ok decision,
      { s with
        sent := s.sent ++
          (uniqueHosts ((decision.placements.take req.messages.length).map Placement.host)).map
            fun host => .executeFunctions host (hostRequest req decision host) })

/-! Claiming what a decision needs. -/

def claimNew : List Placement → PlannerHosts → Except PlannerError (List Placement) × PlannerHosts
  | [], hosts => (.ok [], hosts)
  | p :: ps, hosts =>
    match hosts[p.host]? with
    | none => (.error .outOfRange, hosts)
    | some h =>
      match claimHostMpiPort (claimHostSlots h) with
      | .error _ =>
        let r := claimNew ps (hosts.insert p.host (claimHostSlots h))
        (r.1.map (p :: ·), r.2)
      | .ok (port, h') =>
        let r := claimNew ps (hosts.insert p.host h')
        (r.1.map ({ p with mpiPort := port } :: ·), r.2)

def removeMessages : List Int → SchedulingDecision → Except PlannerError SchedulingDecision
  | [], d => .ok d
  | id :: ids, d =>
    match d.removeMessage id with
    | .error e => .error e
    | .ok (_, d') => removeMessages ids d'

def commitNew (req : BatchExecuteRequest) (decision : SchedulingDecision) (knownSize : Bool)
    (s : PlannerState) : Except PlannerError SchedulingDecision × PlannerState :=
  match claimNew decision.placements s.hostMap with
  | (.error e, hostMap) => (.error e, { s with hostMap })
  | (.ok placements, hostMap) =>
    let decision := { decision with placements }
    let s := { s with hostMap }
    if knownSize then
      let knownSizeDecision := { decision with groupId := FIXED_SIZE_PRELOADED_DECISION_GROUPID }
      let s := { s with
        preloadedSchedulingDecisions :=
          s.preloadedSchedulingDecisions.insert req.appId knownSizeDecision }
      match removeMessages (knownSizeDecision.messageIds.drop 1) decision with
      | .error e => (.error e, s)
      | .ok decision => record decision s
    else record decision s
where
  record (decision : SchedulingDecision) (s : PlannerState) :
      Except PlannerError SchedulingDecision × PlannerState :=
    match setAndSendMappings decision
        { s with inFlightReqs := s.inFlightReqs.insert req.appId (req, decision) } with
    | (.error e, s) => (.error e, s)
    | (.ok _, s) => dispatchSchedulingDecision req decision s

def claimSlots (skipClaim : Bool) : List Placement → PlannerHosts → Except PlannerError Unit × PlannerHosts
  | [], hosts => (.ok (), hosts)
  | p :: ps, hosts =>
    match hosts[p.host]? with
    | none => (.error .outOfRange, hosts)
    | some h => claimSlots skipClaim ps (if skipClaim then hosts else hosts.insert p.host (claimHostSlots h))

def addScaledMessages (skipClaim : Bool) : List Message → List Placement → InFlightPair → PlannerHosts →
    Except PlannerError Unit × InFlightPair × PlannerHosts
  | [], _, old, hosts => (.ok (), old, hosts)
  | m :: _, [], (oldReq, oldDec), hosts =>
    (.error .outOfRange, ({ oldReq with messages := oldReq.messages ++ [m] }, oldDec), hosts)
  | m :: ms, p :: ps, (oldReq, oldDec), hosts =>
    let oldReq := { oldReq with messages := oldReq.messages ++ [m] }
    let added : Placement :=
      { host := p.host, messageId := m.id, appIdx := m.appIdx, groupIdx := m.groupIdx }
    if skipClaim then
      addScaledMessages skipClaim ms ps
        (oldReq, oldDec.push { added with mpiPort := p.mpiPort }) hosts
    else
      match hosts[p.host]? with
      | none => (.error .outOfRange, (oldReq, oldDec.push added), hosts)
      | some h =>
        match claimHostMpiPort h with
        | .error e => (.error e, (oldReq, oldDec.push added), hosts)
        | .ok (port, h') =>
          addScaledMessages skipClaim ms ps
            (oldReq, oldDec.push { added with mpiPort := port }) (hosts.insert p.host h')

def commitScaleChange (newGroupId : Int) (req : BatchExecuteRequest) (decision : SchedulingDecision)
    (skipClaim : Bool) (s : PlannerState) : Except PlannerError SchedulingDecision × PlannerState :=
  match claimSlots skipClaim decision.placements s.hostMap with
  | (.error e, hostMap) => (.error e, { s with hostMap })
  | (.ok _, hostMap) =>
    match s.inFlightReqs[req.appId]? with
    | none => (.error .outOfRange, { s with hostMap })
    | some (oldReq, oldDec) =>
      let old := (oldReq.updateBatchExecGroupId newGroupId, { oldDec with groupId := newGroupId })
      match addScaledMessages skipClaim req.messages decision.placements old hostMap with
      | (.error e, pair, hostMap) =>
        (.error e, { s with hostMap, inFlightReqs := s.inFlightReqs.insert req.appId pair })
      | (.ok _, pair, hostMap) =>
        match setAndSendMappings pair.2
            { s with hostMap, inFlightReqs := s.inFlightReqs.insert req.appId pair } with
        | (.error e, s) => (.error e, s)
        | (.ok _, s) => dispatchSchedulingDecision req decision s

def releaseMigrated : List Placement → List Placement → PlannerHosts → Except PlannerError Unit × PlannerHosts
  | [], _, hosts => (.ok (), hosts)
  | _ :: _, [], hosts => (.error .outOfRange, hosts)
  | old :: olds, new :: news, hosts =>
    if new.host ≠ old.host then
      match hosts[old.host]? with
      | none => (.error .outOfRange, hosts)
      | some h =>
        match releaseHostMpiPort (releaseHostSlots h) old.mpiPort with
        | .error e => (.error e, hosts.insert old.host (releaseHostSlots h))
        | .ok h' => releaseMigrated olds news (hosts.insert old.host h')
    else releaseMigrated olds news hosts

def claimMigrated : List Placement → List Placement → PlannerHosts →
    Except PlannerError (List Placement) × PlannerHosts
  | _, [], hosts => (.ok [], hosts)
  | [], _ :: _, hosts => (.error .outOfRange, hosts)
  | old :: olds, new :: news, hosts =>
    if new.host ≠ old.host then
      match hosts[new.host]? with
      | none => (.error .outOfRange, hosts)
      | some h =>
        match claimHostMpiPort (claimHostSlots h) with
        | .error _ =>
          let r := claimMigrated olds news (hosts.insert new.host (claimHostSlots h))
          (r.1.map (new :: ·), r.2)
        | .ok (port, h') =>
          let r := claimMigrated olds news (hosts.insert new.host h')
          (r.1.map ({ new with mpiPort := port } :: ·), r.2)
    else
      let r := claimMigrated olds news hosts
      (r.1.map ({ new with mpiPort := old.mpiPort } :: ·), r.2)

def commitDistChange (newGroupId : Int) (req : BatchExecuteRequest) (decision : SchedulingDecision)
    (s : PlannerState) : Except PlannerError SchedulingDecision × PlannerState :=
  match s.inFlightReqs[req.appId]? with
  | none => (.error .outOfRange, s)
  | some (oldReq, oldDec) =>
    match releaseMigrated oldDec.placements decision.placements s.hostMap with
    | (.error e, hostMap) => (.error e, { s with hostMap })
    | (.ok _, hostMap) =>
      match claimMigrated oldDec.placements decision.placements hostMap with
      | (.error e, hostMap) => (.error e, { s with hostMap })
      | (.ok placements, hostMap) =>
        let decision := { decision with placements }
        match setAndSendMappings decision
            { s with
              hostMap
              numMigrations := s.numMigrations + 1
              inFlightReqs := s.inFlightReqs.insert req.appId
                (oldReq.updateBatchExecGroupId newGroupId, decision) } with
        | (.error e, s) => (.error e, s)
        | (.ok _, s) =>
          (.ok decision, sendMappings decision (uniqueHosts (oldDec.hosts.diff decision.hosts)) s)

def commitDecision (env : CallEnv) (decisionType : DecisionType) (req : BatchExecuteRequest)
    (decision : SchedulingDecision) (knownSize : Bool) (s : PlannerState) :
    Except PlannerError SchedulingDecision × PlannerState :=
  let (req, s) := unFreeze decisionType req s
  let skipClaim := decision.groupId = FIXED_SIZE_PRELOADED_DECISION_GROUPID
  let decision := { decision with groupId := env.newGroupId }
  let req := req.updateBatchExecGroupId env.newGroupId
  match decisionType with
  | .new => commitNew req decision knownSize s
  | .scaleChange => commitScaleChange env.newGroupId req decision skipClaim s
  | .distChange => commitDistChange env.newGroupId req decision s

def handleDecision (env : CallEnv) (decisionType : DecisionType) (req : BatchExecuteRequest)
    (decision : SchedulingDecision) (knownSize : Bool) (s : PlannerState) :
    Except PlannerError SchedulingDecision × PlannerState :=
  if decision = NOT_ENOUGH_SLOTS_DECISION then (.ok decision, s)
  else if decision = DO_NOT_MIGRATE_DECISION then (.ok decision, s)
  else if decision = MUST_FREEZE_DECISION then
    match s.inFlightReqs[req.appId]? with
    | none =>
      (.error .outOfRange, { s with evictedRequests := s.evictedRequests.insert req.appId {} })
    | some (oldReq, _) =>
      (.ok decision, { s with evictedRequests := s.evictedRequests.insert req.appId oldReq })
  else if !decision.isSingleHost && req.singleHostHint then (.ok NOT_ENOUGH_SLOTS_DECISION, s)
  else commitDecision env decisionType req decision knownSize s

def callBatch (env : CallEnv) (req : BatchExecuteRequest) (s : PlannerState) :
    Except PlannerError SchedulingDecision × PlannerState :=
  match getBatchScheduler s with
  | (.error e, s) => (.error e, s)
  | (.ok mode, s) =>
    let decisionType := getDecisionType s.inFlightReqs req
    match prepareRequest env decisionType req s with
    | .error e => (.error e, s)
    | .ok req =>
      match scheduleRequest env mode decisionType req s with
      | (.error e, s) => (.error e, s)
      | (.ok (decision, knownSize), s) => handleDecision env decisionType req decision knownSize s

end Faabric
