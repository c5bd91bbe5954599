import Mathlib

/-! The records that RPC contexts and servers exchange. As in the planner's records, a
field that no modelled function reads is left out, and 32-bit ids are numbers. -/

namespace Faabric

open Std

structure RpcAppMsgIds where
  appId : Int := 0
  msgId : Int := 0
deriving DecidableEq, Repr

namespace RpcAppMsgIds

instance : Ord RpcAppMsgIds :=
  ⟨compareLex (compareOn RpcAppMsgIds.appId) (compareOn RpcAppMsgIds.msgId)⟩

instance : TransOrd RpcAppMsgIds :=
  inferInstanceAs (TransCmp (compareLex (compareOn RpcAppMsgIds.appId) (compareOn RpcAppMsgIds.msgId)))

theorem compare_eq_iff (a b : RpcAppMsgIds) :
    compare a b = .eq ↔ a.appId = b.appId ∧ a.msgId = b.msgId := by
  have h : compare a b = .eq ↔ compare a.appId b.appId = .eq ∧ compare a.msgId b.msgId = .eq :=
    compareLex_eq_eq
  simp only [h, LawfulEqOrd.compare_eq_iff_eq]

instance : LawfulEqOrd RpcAppMsgIds where
  compare_self := (compare_eq_iff _ _).mpr ⟨rfl, rfl⟩
  eq_of_compare := by
    rintro ⟨appId, msgId⟩ ⟨appId', msgId'⟩ h
    obtain ⟨rfl, rfl⟩ := (compare_eq_iff _ _).mp h
    rfl

end RpcAppMsgIds

def RPC_ASYNC_PORT : Int := 8014

/-! `Rpc_StatusCode`, as far as the modelled code sets or compares it. -/

namespace RpcStatusCode

def OK : Int := 0

def INVALID_ARGUMENT : Int := 3

def DEADLINE_EXCEEDED : Int := 4

def INTERNAL : Int := 13

def UNAVAILABLE : Int := 14

end RpcStatusCode

structure RpcRequest where
  requestId : Nat := 0
  method : String := ""
  payload : String := ""
  replyHost : String := ""
  replyPort : Int := 0
  targetAppId : Int := 0
  targetMessageId : Int := 0
  targetGroupId : Int := 0
  targetGroupIdx : Int := 0
deriving DecidableEq, Repr

structure RpcResponse where
  statusCode : Int := 0
  payload : String := ""
  requestId : Nat := 0
  errorMessage : String := ""
deriving DecidableEq, Repr

structure RpcFetchRequest where
  requestId : Nat := 0
  replyHost : String := ""
  replyPort : Int := 0
deriving DecidableEq, Repr

structure RpcInvocationFetchRequest where
  targetAppId : Int := 0
  targetMessageId : Int := 0
  replyHost : String := ""
  replyPort : Int := 0
deriving DecidableEq, Repr

structure RpcChannelState where
  channelId : Int := 0
  targetUri : String := ""
deriving DecidableEq, Repr

structure RpcPendingRequest where
  requestId : Nat := 0
  channelId : Int := 0
  cachedStatusCode : Int := 0
  cachedResponse : String := ""
  timeoutRemaining : Int := 0
  method : String := ""
  payload : String := ""
  retryCount : Int := 0
deriving DecidableEq, Repr

structure RpcMigrationState where
  originHost : String := ""
  channels : List RpcChannelState := []
  pendingRequests : List RpcPendingRequest := []
deriving DecidableEq, Repr

structure ServiceEndpoint where
  serviceName : String := ""
  host : String := ""
  appId : Int := 0
  messageId : Int := 0
deriving DecidableEq, Repr

end Faabric
