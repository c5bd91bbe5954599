import Faabric.Rpc.Messages
import Faabric.Lib.MapTotal

/-! The service side of the RPC server: the queues of the instances that run on the host and
the backlogs of those that have left it. Every function is one section under `servicesMx`;
what it sends after the section is returned. -/

namespace Faabric

open Std (ExtTreeMap)
open MapTotal

def kRpcTimeoutMs : Int := 120000

def kServiceForwardingTtlMs : Int := 120000

structure PendingInvocation where
  requestId : Nat := 0
  method : String := ""
  payload : String := ""
  replyHost : String := ""
  replyPort : Int := RPC_ASYNC_PORT
  targetAppId : Int := 0
  targetMessageId : Int := 0
  targetGroupId : Int := 0
  targetGroupIdx : Int := 0
deriving DecidableEq, Repr

structure ServiceForwardTarget where
  host : String := ""
  port : Int := 0
deriving DecidableEq, Repr

structure ServiceMigrationEntry where
  pending : List PendingInvocation := []
  destination : Option ServiceForwardTarget := none
  expiry : Int := 0
deriving DecidableEq, Repr

structure RpcServer where
  serviceQueues : ExtTreeMap RpcAppMsgIds (List PendingInvocation) compare := ∅
  serviceMigrations : ExtTreeMap RpcAppMsgIds ServiceMigrationEntry compare := ∅
  shutdownRequested : ExtTreeMap RpcAppMsgIds Unit compare := ∅

/-- What becomes of an INVOKE: an error is sent to the caller, or the invocation is kept
here, or it is sent on. -/
inductive InvokeOutcome where
  | sendErrorResponse (host : String) (port : Int) (resp : RpcResponse)
  | keep
  | forwardInvoke (target : ServiceForwardTarget) (req : RpcRequest)
deriving DecidableEq, Repr

def pendingInvocationToRpcRequest (invocation : PendingInvocation) : RpcRequest where
  requestId := invocation.requestId
  method := invocation.method
  payload := invocation.payload
  replyHost := invocation.replyHost
  replyPort := invocation.replyPort
  targetAppId := invocation.targetAppId
  targetMessageId := invocation.targetMessageId
  targetGroupId := invocation.targetGroupId
  targetGroupIdx := invocation.targetGroupIdx

def invocationOf (req : RpcRequest) : PendingInvocation where
  requestId := req.requestId
  method := req.method
  payload := req.payload
  replyHost := req.replyHost
  replyPort := if 0 < req.replyPort then req.replyPort else RPC_ASYNC_PORT
  targetAppId := req.targetAppId
  targetMessageId := req.targetMessageId
  targetGroupId := req.targetGroupId
  targetGroupIdx := req.targetGroupIdx

theorem invocationOf_request {inv : PendingInvocation} (h : 0 < inv.replyPort) :
    invocationOf (pendingInvocationToRpcRequest inv) = inv := by
  simp [invocationOf, pendingInvocationToRpcRequest, h]

theorem invocationOf_replyPort (req : RpcRequest) : 0 < (invocationOf req).replyPort := by
  unfold invocationOf RPC_ASYNC_PORT
  dsimp only
  split_ifs <;> omega

namespace RpcServer

def setQueue (server : RpcServer) (key : RpcAppMsgIds) (queue : List PendingInvocation) : RpcServer :=
  { server with serviceQueues := server.serviceQueues.insert key queue }

def setMigration (server : RpcServer) (key : RpcAppMsgIds) (migration : ServiceMigrationEntry) :
    RpcServer :=
  { server with serviceMigrations := server.serviceMigrations.insert key migration }

def registerServiceInstance (server : RpcServer) (key : RpcAppMsgIds) : Except String RpcServer :=
  if key.appId = 0 ∨ key.msgId = 0 then
    .error "Cannot register service instance with zero app/message id"
  else
    .ok { server with
      serviceQueues := server.serviceQueues.insertIfNew key []
      serviceMigrations := server.serviceMigrations.erase key }

def unregisterServiceInstance (server : RpcServer) (key : RpcAppMsgIds) : RpcServer :=
  { server with
    serviceQueues := server.serviceQueues.erase key
    shutdownRequested := server.shutdownRequested.erase key }

def requestShutdown (server : RpcServer) (key : RpcAppMsgIds) : Except String RpcServer :=
  if key.appId = 0 ∨ key.msgId = 0 then .error "Cannot request shutdown for zero app/message id"
  else .ok { server with shutdownRequested := server.shutdownRequested.insert key () }

def isShutdownRequested (server : RpcServer) (key : RpcAppMsgIds) : Bool :=
  server.shutdownRequested.contains key

def enqueueMigrated (server : RpcServer) (now : Int) (key : RpcAppMsgIds)
    (migration : ServiceMigrationEntry) (invocation : PendingInvocation) :
    Except String InvokeOutcome × RpcServer :=
  if migration.expiry ≤ now ∧ migration.pending = [] ∧ migration.destination.isSome = true then
    (.error s!"Expired migration state for app={key.appId} msg={key.msgId}",
      { server with serviceMigrations := server.serviceMigrations.erase key })
  else
    let expiry := if migration.expiry ≤ now then now + kServiceForwardingTtlMs else migration.expiry
    match migration.destination with
    | none =>
      (.ok .keep,
        server.setMigration key { migration with pending := migration.pending ++ [invocation], expiry })
    | some destination =>
      (.ok (.forwardInvoke destination (pendingInvocationToRpcRequest invocation)),
        server.setMigration key { migration with expiry := now + kServiceForwardingTtlMs })

def enqueueInvocation (server : RpcServer) (now : Int) (key : RpcAppMsgIds)
    (invocation : PendingInvocation) : Except String InvokeOutcome × RpcServer :=
  if server.isShutdownRequested key then
    (.error s!"Service instance app={key.appId} msg={key.msgId} is shutting down", server)
  else
    match server.serviceQueues[key]?, server.serviceMigrations[key]? with
    | some queue, _ => (.ok .keep, server.setQueue key (queue ++ [invocation]))
    | none, some migration => server.enqueueMigrated now key migration invocation
    | none, none =>
      (.error s!"No local service instance for app={key.appId} msg={key.msgId}", server)

def dispatchRpcToLocalService (server : RpcServer) (now : Int) (req : RpcRequest) :
    Except String InvokeOutcome × RpcServer :=
  server.enqueueInvocation now { appId := req.targetAppId, msgId := req.targetMessageId }
    (invocationOf req)

def errorResponseTo (req : RpcRequest) (statusCode : Int) (errorMessage : String) : InvokeOutcome :=
  .sendErrorResponse req.replyHost req.replyPort { requestId := req.requestId, statusCode, errorMessage }

def recvInvoke (server : RpcServer) (now : Int) (req : RpcRequest) : InvokeOutcome × RpcServer :=
  if req.targetAppId = 0 ∨ req.targetMessageId = 0 then
    (errorResponseTo req RpcStatusCode.INVALID_ARGUMENT "RPC invoke missing target service instance",
      server)
  else
    match server.dispatchRpcToLocalService now req with
    | (.ok outcome, server) => (outcome, server)
    | (.error _, server) =>
      (errorResponseTo req RpcStatusCode.UNAVAILABLE "Target service instance not available", server)

def tryDequeueInvocation (server : RpcServer) (key : RpcAppMsgIds) :
    Option PendingInvocation × RpcServer :=
  match server.serviceQueues[key]? with
  | some (invocation :: queue) =>
    (some invocation, server.setQueue key queue)
  | _ => (none, server)

def recvInvocationFetch (server : RpcServer) (now : Int) (fetch : RpcInvocationFetchRequest) :
    List (ServiceForwardTarget × RpcRequest) × RpcServer :=
  let key : RpcAppMsgIds := { appId := fetch.targetAppId, msgId := fetch.targetMessageId }
  match server.serviceMigrations[key]? with
  | none => ([], server)
  | some migration =>
    let target : ServiceForwardTarget := { host := fetch.replyHost, port := fetch.replyPort }
    (migration.pending.map fun inv => (target, pendingInvocationToRpcRequest inv),
      server.setMigration key
        { pending := [], destination := some target, expiry := now + kRpcTimeoutMs })

def fetchMigratedServiceQueue (endpointHost originHost : String) (key : RpcAppMsgIds) :
    Except String RpcInvocationFetchRequest :=
  if originHost = "" then .error "Cannot fetch migrated service queue from empty origin host"
  else if key.appId = 0 ∨ key.msgId = 0 then
    .error "Cannot fetch migrated service queue for zero app/message id"
  else
    .ok { targetAppId := key.appId, targetMessageId := key.msgId
          replyHost := endpointHost, replyPort := RPC_ASYNC_PORT }

/-- An entry that is there already keeps its backlog, the queue goes behind it. -/
def beginServiceQueueMigration (server : RpcServer) (now : Int) (key : RpcAppMsgIds) (ttl : Int) :
    Except String RpcServer :=
  if key.appId = 0 ∨ key.msgId = 0 then
    .error "Cannot migrate service queue for zero app/message id"
  else if ttl ≤ 0 then .error "Cannot migrate service queue with non-positive TTL"
  else
    let migration := server.serviceMigrations[key]?.getD {}
    .ok (setMigration { server with serviceQueues := server.serviceQueues.erase key } key
      { pending := migration.pending ++ server.serviceQueues[key]?.getD []
        destination := none
        expiry := now + ttl })

def Unexpired (server : RpcServer) (now : Int) (key : RpcAppMsgIds) : Prop :=
  ∀ migration ∈ server.serviceMigrations[key]?, now < migration.expiry

instance (server : RpcServer) (now : Int) (key : RpcAppMsgIds) :
    Decidable (server.Unexpired now key) := by
  unfold Unexpired
  infer_instance

def Knows (server : RpcServer) (key : RpcAppMsgIds) : Prop :=
  server.serviceQueues[key]? ≠ none ∨ server.serviceMigrations[key]? ≠ none

instance (server : RpcServer) (key : RpcAppMsgIds) : Decidable (server.Knows key) :=
  inferInstanceAs (Decidable (_ ∨ _))

def stored (server : RpcServer) (key : RpcAppMsgIds) : List PendingInvocation :=
  server.serviceQueues[key]?.getD [] ++ (server.serviceMigrations[key]?.getD {}).pending

def destinationOf (server : RpcServer) (key : RpcAppMsgIds) : Option ServiceForwardTarget :=
  server.serviceMigrations[key]?.bind ServiceMigrationEntry.destination

variable {server : RpcServer}

theorem enqueueInvocation_cases {now : Int} {key : RpcAppMsgIds}
    (hopen : server.isShutdownRequested key = false) (hlive : server.Unexpired now key)
    (hknows : server.Knows key) (inv : PendingInvocation) :
    (∃ queue, server.serviceQueues[key]? = some queue ∧
      server.enqueueInvocation now key inv = (.ok .keep, server.setQueue key (queue ++ [inv]))) ∨
    ∃ migration, server.serviceQueues[key]? = none ∧ server.serviceMigrations[key]? = some migration ∧
      ((migration.destination = none ∧
        server.enqueueInvocation now key inv =
          (.ok .keep, server.setMigration key { migration with pending := migration.pending ++ [inv] })) ∨
      ∃ destination, migration.destination = some destination ∧
        server.enqueueInvocation now key inv =
          (.ok (.forwardInvoke destination (pendingInvocationToRpcRequest inv)),
            server.setMigration key { migration with expiry := now + kServiceForwardingTtlMs })) := by
  unfold enqueueInvocation
  cases hq : server.serviceQueues[key]? with
  | some queue => exact Or.inl ⟨queue, rfl, by simp [hopen]⟩
  | none =>
    cases hm : server.serviceMigrations[key]? with
    | none => simp [Knows, hq, hm] at hknows
    | some migration =>
      have hnow : ¬ migration.expiry ≤ now := not_le.mpr (hlive migration hm)
      refine Or.inr ⟨migration, rfl, rfl, ?_⟩
      cases hd : migration.destination with
      | none => exact Or.inl ⟨rfl, by simp [hopen, enqueueMigrated, hnow, hd]⟩
      | some destination => exact Or.inr ⟨destination, rfl, by simp [hopen, enqueueMigrated, hnow, hd]⟩

theorem enqueueInvocation_unknown {key : RpcAppMsgIds} (hknows : ¬ server.Knows key) (now : Int)
    (inv : PendingInvocation) : ∃ what, server.enqueueInvocation now key inv = (.error what, server) := by
  unfold Knows at hknows
  simp only [ne_eq, not_or, not_not] at hknows
  unfold enqueueInvocation
  split_ifs
  · exact ⟨_, rfl⟩
  · simp [hknows.1, hknows.2]

theorem recvInvoke_of_ok {server' : RpcServer} {now : Int} {req : RpcRequest} {outcome : InvokeOutcome}
    (happ : req.targetAppId ≠ 0) (hmsg : req.targetMessageId ≠ 0)
    (h : server.dispatchRpcToLocalService now req = (.ok outcome, server')) :
    server.recvInvoke now req = (outcome, server') := by
  simp [recvInvoke, happ, hmsg, h]

theorem recvInvoke_of_error {server' : RpcServer} {now : Int} {req : RpcRequest} {what : String}
    (happ : req.targetAppId ≠ 0) (hmsg : req.targetMessageId ≠ 0)
    (h : server.dispatchRpcToLocalService now req = (.error what, server')) :
    server.recvInvoke now req = (errorResponseTo req RpcStatusCode.UNAVAILABLE
      "Target service instance not available", server') := by
  simp [recvInvoke, happ, hmsg, h]

theorem knows_setQueue (server : RpcServer) (key : RpcAppMsgIds) (queue : List PendingInvocation) :
    (server.setQueue key queue).Knows key := by
  left
  simp only [setQueue, getElem?_insert_ite, if_true]
  exact Option.some_ne_none queue

theorem knows_setMigration (server : RpcServer) (key : RpcAppMsgIds)
    (migration : ServiceMigrationEntry) : (server.setMigration key migration).Knows key := by
  right
  simp only [setMigration, getElem?_insert_ite, if_true]
  exact Option.some_ne_none migration

theorem stored_setQueue (server : RpcServer) (key : RpcAppMsgIds) (queue : List PendingInvocation) :
    (server.setQueue key queue).stored key =
      queue ++ (server.serviceMigrations[key]?.getD {}).pending := by
  simp [stored, setQueue]

theorem stored_setMigration (server : RpcServer) (key : RpcAppMsgIds)
    (migration : ServiceMigrationEntry) :
    (server.setMigration key migration).stored key =
      server.serviceQueues[key]?.getD [] ++ migration.pending := by
  simp [stored, setMigration]

theorem destinationOf_setMigration (server : RpcServer) (key : RpcAppMsgIds)
    (migration : ServiceMigrationEntry) :
    (server.setMigration key migration).destinationOf key = migration.destination := by
  simp [destinationOf, setMigration]

end RpcServer

end Faabric
