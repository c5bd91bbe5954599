import Faabric.Rpc.Server
import Faabric.Lib.GuardedRun

/-! One service instance that moves from host to host. The migrations follow one another:
the owner begins a migration, the destination registers the instance, and then asks the
origin for its backlog. Messages arrive in any order. -/

namespace Faabric

open Std (ExtTreeMap)
open MapTotal

/-- `ServiceInstanceKey` of an instance: the server refuses zero ids. -/
structure ServiceInstanceKey extends RpcAppMsgIds where
  appId_ne : appId ≠ 0
  msgId_ne : msgId ≠ 0

/-- Where the instance is: it runs, or it has left its origin, or the destination has
registered it and has not asked for the backlog yet. -/
inductive ServicePhase where
  | serving (host : String)
  | moving (origin : String)
  | registered (origin host : String)
deriving DecidableEq

/-- An INVOKE on its way; `accepted` if an `enqueueInvocation` has returned normally for it. -/
structure InvokeInTransit where
  accepted : Bool
  target : ServiceForwardTarget
  req : RpcRequest
deriving DecidableEq

structure FetchInTransit where
  hop : Nat
  origin : String
  fetch : RpcInvocationFetchRequest
deriving DecidableEq

/-- The servers and what is on its way between them. Of the history, `departed` has the last
migration away from a host unless the instance is back there, `arrived` where a migration led,
and `recorded` the migration whose INVOKE_FETCH the host has handled last. -/
structure ServiceSystem where
  servers : ExtTreeMap String RpcServer compare := ∅
  phase : ServicePhase
  invokes : List InvokeInTransit := []
  fetches : List FetchInTransit := []
  accepted : List PendingInvocation := []
  dequeued : List PendingInvocation := []
  hop : Nat := 0
  departed : String → Option Nat := fun _ => none
  arrived : Nat → String := fun _ => ""
  recorded : String → Option Nat := fun _ => none

inductive ServiceAction where
  | invoke (host : String) (req : RpcRequest)
  | recvInvoke (i : Nat) (now : Int)
  | tryDequeueInvocation (host : String)
  | beginServiceQueueMigration (now ttl : Int)
  | registerServiceInstance (host : String)
  | fetchMigratedServiceQueue
  | recvInvocationFetch (i : Nat) (now : Int)

namespace ServiceSystem

def serverAt (s : ServiceSystem) (host : String) : RpcServer := s.servers[host]?.getD {}

def setServer (s : ServiceSystem) (host : String) (server : RpcServer) : ServiceSystem :=
  { s with servers := s.servers.insert host server }

@[simp] theorem serverAt_setServer (s : ServiceSystem) (host host' : String) (server : RpcServer) :
    (s.setServer host server).serverAt host' = if host = host' then server else s.serverAt host' := by
  simp only [setServer, serverAt, getElem?_insert_ite]
  split_ifs <;> rfl

def start (key : ServiceInstanceKey) (host : String) : ServiceSystem where
  servers := (∅ : ExtTreeMap String RpcServer compare).insert host
    (RpcServer.setQueue {} key.toRpcAppMsgIds [])
  phase := .serving host

def receiveInvoke (s : ServiceSystem) (i : Nat) (now : Int) (m : InvokeInTransit) : ServiceSystem :=
  let r := (s.serverAt m.target.host).recvInvoke now m.req
  let taken := { s.setServer m.target.host r.2 with invokes := s.invokes.eraseIdx i }
  let accepted := if m.accepted then s.accepted else s.accepted ++ [invocationOf m.req]
  match r.1 with
  | .sendErrorResponse _ _ _ => taken
  | .keep => { taken with accepted }
  | .forwardInvoke target req =>
    { taken with
      accepted
      invokes := s.invokes.eraseIdx i ++ [{ accepted := true, target, req }] }

def receiveFetch (s : ServiceSystem) (i : Nat) (now : Int) (f : FetchInTransit) : ServiceSystem :=
  let r := (s.serverAt f.origin).recvInvocationFetch now f.fetch
  { s.setServer f.origin r.2 with
    fetches := s.fetches.eraseIdx i
    invokes := s.invokes ++ r.1.map fun e => { accepted := true, target := e.1, req := e.2 }
    recorded := Function.update s.recorded f.origin (some f.hop) }

end ServiceSystem

def ServiceAction.step (key : ServiceInstanceKey) (s : ServiceSystem) : ServiceAction → ServiceSystem
  | .invoke host req =>
    { s with
      invokes := s.invokes ++
        [{ accepted := false
           target := { host, port := RPC_ASYNC_PORT }
           req := { req with targetAppId := key.appId, targetMessageId := key.msgId } }] }
  | .recvInvoke i now =>
    match s.invokes[i]? with
    | some m => s.receiveInvoke i now m
    | none => s
  | .tryDequeueInvocation host =>
    let r := (s.serverAt host).tryDequeueInvocation key.toRpcAppMsgIds
    { s.setServer host r.2 with dequeued := s.dequeued ++ r.1.toList }
  | .beginServiceQueueMigration now ttl =>
    match s.phase with
    | .serving origin =>
      match (s.serverAt origin).beginServiceQueueMigration now key.toRpcAppMsgIds ttl with
      | .ok server =>
        { s.setServer origin server with
          phase := .moving origin
          hop := s.hop + 1
          departed := Function.update s.departed origin (some (s.hop + 1))
          recorded := Function.update s.recorded origin none }
      | .error _ => s
    | _ => s
  | .registerServiceInstance host =>
    match s.phase, (s.serverAt host).registerServiceInstance key.toRpcAppMsgIds with
    | .moving origin, .ok server =>
      if host = "" then s
      else
        { s.setServer host server with
          phase := .registered origin host
          departed := Function.update s.departed host none
          arrived := Function.update s.arrived s.hop host }
    | _, _ => s
  | .fetchMigratedServiceQueue =>
    match s.phase with
    | .registered origin host =>
      if origin = "" ∨ origin = host then { s with phase := .serving host }
      else
        match RpcServer.fetchMigratedServiceQueue host origin key.toRpcAppMsgIds with
        | .ok fetch =>
          { s with
            phase := .serving host
            fetches := s.fetches ++ [{ hop := s.hop, origin, fetch }] }
        | .error _ => { s with phase := .serving host }
    | _ => s
  | .recvInvocationFetch i now =>
    match s.fetches[i]? with
    | some f => s.receiveFetch i now f
    | none => s

end Faabric
