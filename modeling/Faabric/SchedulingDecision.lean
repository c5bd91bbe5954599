import Faabric.Messages

/-! Scheduling decisions. The five parallel vectors of the source always grow
and shrink together, so a decision holds one list of placements. -/

namespace Faabric

/-- One position of `hosts`, `messageIds`, `appIdxs`, `groupIdxs` and `mpiPorts`. -/
structure Placement where
  host : String := ""
  messageId : Int := 0
  appIdx : Int := 0
  groupIdx : Int := 0
  mpiPort : Int := 0
deriving DecidableEq, Repr

/-- The unsigned app id is kept by its signed 32-bit value, as in the requests. -/
structure SchedulingDecision where
  appId : Int
  groupId : Int
  nFunctions : Int := 0
  placements : List Placement := []
deriving DecidableEq, Repr

structure PointToPointMapping where
  host : String := ""
  messageId : Int := 0
  appIdx : Int := 0
  groupIdx : Int := 0
  mpiPort : Int := 0
deriving DecidableEq, Repr

structure PointToPointMappings where
  appId : Int := 0
  groupId : Int := 0
  mappings : List PointToPointMapping := []
deriving DecidableEq, Repr

def DO_NOT_MIGRATE_DECISION : SchedulingDecision := { appId := -98, groupId := -98 }

def NOT_ENOUGH_SLOTS_DECISION : SchedulingDecision := { appId := -99, groupId := -99 }

def MUST_FREEZE_DECISION : SchedulingDecision := { appId := -97, groupId := -97 }

def FIXED_SIZE_PRELOADED_DECISION_GROUPID : Int := -99

namespace SchedulingDecision

def hosts (d : SchedulingDecision) : List String := d.placements.map Placement.host

def messageIds (d : SchedulingDecision) : List Int := d.placements.map Placement.messageId

def groupIdxs (d : SchedulingDecision) : List Int := d.placements.map Placement.groupIdx

def isSingleHost (d : SchedulingDecision) : Bool := d.hosts.dedup.length ≤ 1

def push (d : SchedulingDecision) (p : Placement) : SchedulingDecision :=
  { d with nFunctions := d.nFunctions + 1, placements := d.placements ++ [p] }

def addMessage (d : SchedulingDecision) (host : String) (messageId appIdx groupIdx : Int) :
    SchedulingDecision :=
  d.push { host, messageId, appIdx, groupIdx }

def addMessageOf (d : SchedulingDecision) (host : String) (msg : Message) : SchedulingDecision :=
  d.addMessage host msg.id msg.appIdx msg.groupIdx

/-- The vectors are padded with defaults up to `max(pos + 1, nFunctions)` first. -/
def addMessageInPosition (d : SchedulingDecision) (pos : Nat) (p : Placement) :
    SchedulingDecision :=
  let nFunctions := d.nFunctions + 1
  let desiredSize := max (pos + 1) nFunctions.toNat
  let padded := d.placements ++ List.replicate (desiredSize - d.placements.length) ({} : Placement)
  { d with nFunctions, placements := padded.set pos p }

/-- The vacated MPI port, and the decision without the first placement of the message. -/
def removeMessage (d : SchedulingDecision) (messageId : Int) :
    Except PlannerError (Int × SchedulingDecision) :=
  match d.placements.find? (fun p => p.messageId == messageId) with
  | none => .error (.runtimeError "Removing non-existant message!")
  | some p =>
    .ok (p.mpiPort,
      { d with
        nFunctions := d.nFunctions - 1
        placements := d.placements.eraseP fun p => p.messageId == messageId })

def fromPointToPointMappings (m : PointToPointMappings) : SchedulingDecision :=
  m.mappings.foldl
    (fun d e => d.push { host := e.host, messageId := e.messageId, appIdx := e.appIdx,
                         groupIdx := e.groupIdx, mpiPort := e.mpiPort })
    { appId := m.appId, groupId := m.groupId }

end SchedulingDecision

def ptpMappingsFromSchedulingDecision (d : SchedulingDecision) : PointToPointMappings :=
  { appId := d.appId
    groupId := d.groupId
    mappings := d.placements.map fun p =>
      { host := p.host, messageId := p.messageId, appIdx := p.appIdx, groupIdx := p.groupIdx } }

end Faabric
