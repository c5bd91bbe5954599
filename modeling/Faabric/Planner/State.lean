import Faabric.Schedulers
import Faabric.Lib.UnitPool

/-! The planner's state, its host accounting, and the operations on hosts and
policies. An operation returns what it returns or throws, and the state it leaves
behind: a C++ exception does not undo the updates made before it. -/

namespace Faabric

open Std

abbrev MpiPort := UnitPool.Cell Int

structure Host where
  ip : String
  slots : Int
  usedSlots : Int
  registerTs : Int := 0
  mpiPorts : List MpiPort := []
deriving DecidableEq, Repr

abbrev PlannerHosts := ExtTreeMap String Host compare

inductive Outgoing where
  | executeFunctions (host : String) (req : BatchExecuteRequest)
  | sendMappings (host : String) (mappings : PointToPointMappings)
  | setMessageResult (host : String) (msg : Message)
deriving DecidableEq, Repr

/-- `PlannerState`, with the globals the planner works on: the configured
scheduler mode, the scheduler singleton and its migration counter, the planner's
own address and keep-alive timeout, and everything it has sent so far. -/
structure PlannerState where
  policy : String := ""
  hostMap : PlannerHosts := ∅
  appResults : ExtTreeMap Int (ExtTreeMap Int Message compare) compare := ∅
  appResultWaiters : ExtTreeMap Int (List String) compare := ∅
  inFlightReqs : InFlightReqs := ∅
  preloadedSchedulingDecisions : ExtTreeMap Int SchedulingDecision compare := ∅
  numMigrations : Int := 0
  evictedRequests : ExtTreeMap Int BatchExecuteRequest compare := ∅
  nextEvictedHostIps : Finset String := ∅
  batchSchedulerMode : String := "bin-pack"
  batchScheduler : Option SchedulerMode := none
  distChangeCounter : Int := 0
  endpointHost : String := ""
  hostTimeout : Int := 5
  sent : List Outgoing := []

/-! Slots and ports of one host. -/

def claimHostSlots (h : Host) : Host := { h with usedSlots := h.usedSlots + 1 }

def releaseHostSlots (h : Host) : Host := { h with usedSlots := h.usedSlots - 1 }

def claimHostMpiPort (h : Host) : Except PlannerError (Int × Host) :=
  match UnitPool.claim h.mpiPorts with
  | none => .error (.runtimeError "Ran out of MPI ports!")
  | some (port, mpiPorts) => .ok (port, { h with mpiPorts })

def releaseHostMpiPort (h : Host) (mpiPort : Int) : Except PlannerError Host :=
  match UnitPool.release mpiPort h.mpiPorts with
  | none => .error (.runtimeError "Requested to free unavailable MPI port!")
  | some mpiPorts => .ok { h with mpiPorts }

/-! Host membership. -/

def isHostExpired (hostTimeout : Int) (h : Host) (epochTimeMs : Int) : Bool :=
  hostTimeout * 1000 < epochTimeMs - h.registerTs

def basePorts (count used : Int) : List MpiPort :=
  (List.range count.toNat).map fun i : Nat => { label := MPI_BASE_PORT + i, used := (i : Int) < used }

def registerHost (hostIn : Host) (overwrite : Bool) (now ts : Int) (s : PlannerState) :
    Bool × PlannerState :=
  if hostIn.slots < 0 then (false, s)
  else
    let fresh := { hostIn with mpiPorts := hostIn.mpiPorts ++ basePorts hostIn.slots 0 }
    let host :=
      match s.hostMap[hostIn.ip]? with
      | none => fresh
      | some h =>
        if isHostExpired s.hostTimeout h now then fresh
        else if overwrite then
          { h with
            slots := hostIn.slots
            usedSlots := hostIn.usedSlots
            mpiPorts := basePorts hostIn.slots hostIn.usedSlots }
        else h
    (true, { s with hostMap := s.hostMap.insert hostIn.ip { host with registerTs := ts } })

def removeHost (hostIn : Host) (s : PlannerState) : PlannerState :=
  { s with hostMap := s.hostMap.erase hostIn.ip }

def getAvailableHosts (now : Int) (s : PlannerState) : List Host × PlannerState :=
  let hostMap := s.hostMap.filter fun _ h => !isHostExpired s.hostTimeout h now
  (hostMap.toList.map Prod.snd, { s with hostMap })

def flushHosts (s : PlannerState) : PlannerState := { s with hostMap := ∅ }

/-! Policies. -/

def getBatchScheduler (s : PlannerState) : Except PlannerError SchedulerMode × PlannerState :=
  match s.batchScheduler with
  | some mode => (.ok mode, s)
  | none =>
    match SchedulerMode.ofString? s.batchSchedulerMode with
    | none => (.error (.runtimeError "Unrecognised batch scheduler mode"), s)
    | some mode => (.ok mode, { s with batchScheduler := some mode })

def resetBatchScheduler (newMode : String) (s : PlannerState) : Except PlannerError Unit × PlannerState :=
  let r := getBatchScheduler { s with batchScheduler := none, batchSchedulerMode := newMode }
  (r.1.map fun _ => (), r.2)

def setPolicy (newPolicy : String) (s : PlannerState) : Except PlannerError Unit × PlannerState :=
  resetBatchScheduler newPolicy { s with policy := newPolicy }

def flushSchedulingState (s : PlannerState) : PlannerState :=
  { s with
    policy := "bin-pack"
    inFlightReqs := ∅
    appResults := ∅
    appResultWaiters := ∅
    numMigrations := 0
    evictedRequests := ∅
    nextEvictedHostIps := ∅ }

def reset (s : PlannerState) : PlannerState := flushHosts (flushSchedulingState s)

def setNextEvictedVm (vmIps : Finset String) (s : PlannerState) : Except PlannerError Unit × PlannerState :=
  if s.policy ≠ "spot" then (.error (.runtimeError "Error setting the next evicted VM!"), s)
  else (.ok (), { s with nextEvictedHostIps := vmIps })

end Faabric
