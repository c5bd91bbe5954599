import Mathlib

/-! The protobuf records that travel through the planner. Every field has its
protobuf default; fields that no modelled function reads are left out. -/

namespace Faabric

inductive BatchExecuteType where
  | functions
  | threads
  | processes
  | migration
  | service
deriving DecidableEq, Repr

structure Message where
  id : Int := 0
  appId : Int := 0
  appIdx : Int := 0
  mainHost : String := ""
  user : String := ""
  function : String := ""
  inputData : String := ""
  funcPtr : Int := 0
  returnValue : Int := 0
  snapshotKey : String := ""
  executedHost : String := ""
  groupId : Int := 0
  groupIdx : Int := 0
  isMpi : Bool := false
  mpiWorldSize : Int := 0
  isOmp : Bool := false
  ompNumThreads : Int := 0
  isRpc : Bool := false
  isLongRunning : Bool := false
deriving DecidableEq, Repr

structure BatchExecuteRequest where
  appId : Int := 0
  groupId : Int := 0
  user : String := ""
  function : String := ""
  type : BatchExecuteType := .functions
  snapshotKey : String := ""
  messages : List Message := []
  subType : Int := 0
  contextData : String := ""
  singleHost : Bool := false
  singleHostHint : Bool := false
  elasticScaleHint : Bool := false
deriving DecidableEq, Repr

structure BatchExecuteRequestStatus where
  appId : Int
  finished : Bool
  messageResults : List Message
deriving DecidableEq, Repr

/-- What a call into the planner can throw. The assertions of the source are
compiled out of release builds, so they never throw here; an index past the end
of a protobuf array is undefined behaviour, not an exception. -/
inductive PlannerError where
  | outOfRange
  | runtimeError (what : String)
  | undefinedBehaviour
deriving DecidableEq, Repr

def MIGRATED_FUNCTION_RETURN_VALUE : Int := -99

def FROZEN_FUNCTION_RETURN_VALUE : Int := -98

def MPI_BASE_PORT : Int := 8020

namespace BatchExecuteRequest

def isMpi (req : BatchExecuteRequest) : Bool :=
  match req.messages with
  | [] => false
  | m :: _ => m.isMpi

def isOmp (req : BatchExecuteRequest) : Bool :=
  match req.messages with
  | [] => false
  | m :: _ => m.isOmp

def updateBatchExecGroupId (req : BatchExecuteRequest) (newGroupId : Int) : BatchExecuteRequest :=
  { req with
    groupId := newGroupId
    messages := req.messages.map fun m => { m with groupId := newGroupId } }

def messageIds (req : BatchExecuteRequest) : List Int := req.messages.map Message.id

@[simp] theorem updateBatchExecGroupId_messageIds (req : BatchExecuteRequest) (g : Int) :
    (req.updateBatchExecGroupId g).messageIds = req.messageIds := by
  simp [updateBatchExecGroupId, messageIds, Function.comp_def]

@[simp] theorem updateBatchExecGroupId_messages_length (req : BatchExecuteRequest) (g : Int) :
    (req.updateBatchExecGroupId g).messages.length = req.messages.length := by
  simp [updateBatchExecGroupId]

@[simp] theorem updateBatchExecGroupId_appId (req : BatchExecuteRequest) (g : Int) :
    (req.updateBatchExecGroupId g).appId = req.appId := rfl

end BatchExecuteRequest

end Faabric
