import Faabric.Rpc.ContextRegistry

/-! The RPC context of a caller: its channels and its outstanding requests. Each function
is a section that holds the context's lock, or is put together from such sections in the
order of the source. The planner's answers and the outcome of sends are arguments; the
cache of transports, which only sends look into, is left out. -/

namespace Faabric

open Std (ExtTreeMap)
open MapTotal

def kNoCachedRespStatus : Int := -1

def kFaabricScheme : String := "faabric://"

def kDefaultForwardingTtl : Int := 30000

def kTimeoutTtlMultiplier : Int := 2

def wrapInt32 (x : Int) : Int := x.bmod 4294967296

def uint32Size : Nat := 4294967296

structure ChannelInfo where
  targetUri : String := ""
  isFaabric : Bool := true
  port : Int := 0
  targetHost : String := ""
  targetAppId : Int := 0
  targetMessageId : Int := 0
deriving DecidableEq, Repr

structure RpcOp where
  ready : Bool := false
  response : RpcResponse := {}
  deadline : Option Int := none
  channelId : Int := 0
  method : String := ""
  payload : String := ""
  retryCount : Int := 0
deriving DecidableEq, Repr

structure RpcContext where
  ownerAppId : Int
  ownerMsgId : Int
  nextRequestId : Nat
  nextChannelId : Int := 1
  channels : ExtTreeMap Int ChannelInfo compare := ∅
  requestToChannel : ExtTreeMap Nat Int compare := ∅
  ops : ExtTreeMap Nat RpcOp compare := ∅

/-- What the planner answers and whether the first and the second send of a request go out. -/
structure RpcEnv where
  resolve : String → Option ServiceEndpoint := fun _ => none
  sends : Bool := true
  resends : Bool := true

def isFaabricUri (uri : String) : Bool := kFaabricScheme.toList.isPrefixOf uri.toList

def serviceNameOf (targetUri : String) : String :=
  String.ofList (targetUri.toList.drop kFaabricScheme.length)

def parseChannelInfo (env : RpcEnv) (targetUri : String) : Except String ChannelInfo :=
  if !isFaabricUri targetUri then .error s!"External RPC URIs not implemented: {targetUri}"
  else if serviceNameOf targetUri = "" then .error "Empty service name in faabric URI"
  else
    match env.resolve (serviceNameOf targetUri) with
    | none =>
      let serviceName := serviceNameOf targetUri
      .error s!"Service '{serviceName}' not found"
    | some endpoint =>
      .ok { targetUri, isFaabric := true, port := RPC_ASYNC_PORT, targetHost := endpoint.host,
            targetAppId := endpoint.appId, targetMessageId := endpoint.messageId }

/-- The first request id of an owner: `std::hash` of a 64-bit integer is the integer, and
only the low 16 bits of the message id are left in the seed. -/
def firstRequestId (owner : RpcAppMsgIds) : Nat := (owner.msgId % 65536).toNat * 65536 + 1

namespace RpcContext

def new (owner : RpcAppMsgIds) : RpcContext :=
  { ownerAppId := owner.appId, ownerMsgId := owner.msgId, nextRequestId := firstRequestId owner }

def owner (ctx : RpcContext) : RpcAppMsgIds := { appId := ctx.ownerAppId, msgId := ctx.ownerMsgId }

def createChannel (env : RpcEnv) (targetUri : String) (ctx : RpcContext) :
    Except String (Int × RpcContext) :=
  match parseChannelInfo env targetUri with
  | .error e => .error e
  | .ok info =>
    .ok (ctx.nextChannelId,
      { ctx with
        nextChannelId := wrapInt32 (ctx.nextChannelId + 1)
        channels := ctx.channels.insertIfNew ctx.nextChannelId info })

def closeChannel (ctx : RpcContext) (channelId : Int) : RpcContext :=
  { ctx with channels := ctx.channels.erase channelId }

def clearLocal (ctx : RpcContext) : RpcContext :=
  { ctx with channels := ∅, requestToChannel := ∅, ops := ∅, nextChannelId := 1 }

def pendingIds (ctx : RpcContext) : List Nat :=
  (ctx.ops.toList.filter fun e => !e.2.ready).map Prod.fst

def maxRemaining (ctx : RpcContext) (now : Int) : Int :=
  ctx.ops.toList.foldl
    (fun longest e =>
      match e.2.ready, e.2.deadline with
      | false, some deadline => if 0 < deadline - now then max longest (deadline - now) else longest
      | _, _ => longest)
    0

def setupForwarding {Context : Type} (ctx : RpcContext) (now : Int)
    (reg : RpcContextRegistry Context) : RpcContextRegistry Context :=
  let ttl := max (ctx.maxRemaining now * kTimeoutTtlMultiplier) kDefaultForwardingTtl
  (ctx.pendingIds.foldl (fun reg requestId => reg.refreshRequestTtl now requestId ttl) reg).removeContext
    ctx.owner

def pendingRequestOf (ctx : RpcContext) (now : Int) (requestId : Nat) (channelId : Int) :
    RpcPendingRequest :=
  match ctx.ops[requestId]? with
  | none =>
    { requestId, channelId, cachedStatusCode := kNoCachedRespStatus, timeoutRemaining := -1 }
  | some op =>
    { requestId, channelId
      method := op.method
      payload := op.payload
      retryCount := op.retryCount
      cachedStatusCode := if op.ready then op.response.statusCode else kNoCachedRespStatus
      cachedResponse := if op.ready then op.response.payload else ""
      timeoutRemaining :=
        match op.deadline with
        | some deadline => max 1 (deadline - now)
        | none => -1 }

def serializeMigrationState (ctx : RpcContext) (now : Int) (endpointHost : String) :
    RpcMigrationState where
  originHost := endpointHost
  channels := ctx.channels.toList.map fun e => { channelId := e.1, targetUri := e.2.targetUri }
  pendingRequests := ctx.requestToChannel.toList.map fun e => ctx.pendingRequestOf now e.1 e.2

def restoreChannel (env : RpcEnv) (ctx : RpcContext) (state : RpcChannelState) :
    Except String RpcContext :=
  match parseChannelInfo env state.targetUri with
  | .error e => .error e
  | .ok info => .ok { ctx with channels := ctx.channels.insertIfNew state.channelId info }

def restoredOp (now : Int) (pending : RpcPendingRequest) : RpcOp where
  channelId := pending.channelId
  method := pending.method
  payload := pending.payload
  retryCount := pending.retryCount
  ready := pending.cachedStatusCode ≠ kNoCachedRespStatus
  response :=
    if pending.cachedStatusCode ≠ kNoCachedRespStatus then
      { requestId := pending.requestId, statusCode := pending.cachedStatusCode,
        payload := pending.cachedResponse }
    else {}
  deadline := if 0 ≤ pending.timeoutRemaining then some (now + pending.timeoutRemaining) else none

def restorePending (now : Int) (ctx : RpcContext) (pending : RpcPendingRequest) :
    Except String RpcContext :=
  match ctx.channels[pending.channelId]? with
  | none => .error s!"RPC migration state references unknown channel {pending.channelId}"
  | some _ =>
    .ok { ctx with
      requestToChannel := ctx.requestToChannel.insertIfNew pending.requestId pending.channelId
      ops := ctx.ops.insertIfNew pending.requestId (restoredOp now pending) }

def highestChannelId (channels : List RpcChannelState) : Int :=
  channels.foldl (fun highest state => max highest state.channelId) 0

def deserializeMigrationState (env : RpcEnv) (now : Int) (migrationCtx : RpcMigrationState)
    (ctx : RpcContext) : Except String RpcContext := do
  let ctx ← migrationCtx.channels.foldlM (restoreChannel env) ctx.clearLocal
  let ctx := { ctx with nextChannelId := wrapInt32 (highestChannelId migrationCtx.channels + 1) }
  migrationCtx.pendingRequests.foldlM (restorePending now) ctx

def setOp (ctx : RpcContext) (requestId : Nat) (op : RpcOp) : RpcContext :=
  { ctx with ops := ctx.ops.insert requestId op }

def newOp (now channelId : Int) (method payload : String) (timeoutMs : Int) : RpcOp :=
  { channelId, method, payload
    deadline := if 0 ≤ timeoutMs then some (now + timeoutMs) else none }

def allot (ctx : RpcContext) (op : RpcOp) : RpcContext :=
  { ctx with
    nextRequestId := (ctx.nextRequestId + 1) % uint32Size
    ops := ctx.ops.insertIfNew ctx.nextRequestId op
    requestToChannel := ctx.requestToChannel.insertIfNew ctx.nextRequestId op.channelId }

def beginUnary (ctx : RpcContext) (now channelId : Int) (method payload : String) (timeoutMs : Int) :
    Except String (Nat × ChannelInfo × RpcContext) :=
  match ctx.channels[channelId]? with
  | none => .error "Unknown RPC channel ID requested by Wasm guest"
  | some info =>
    if !info.isFaabric then .error "External RPC is not implemented"
    else .ok (ctx.nextRequestId, info, ctx.allot (newOp now channelId method payload timeoutMs))

def completeUnavailable (ctx : RpcContext) (requestId : Nat) (errorMessage : String) : RpcContext :=
  match ctx.ops[requestId]? with
  | none => ctx
  | some op =>
    ctx.setOp requestId
      { op with
        ready := true
        response := { op.response with
          requestId, statusCode := RpcStatusCode.UNAVAILABLE, errorMessage } }

def retargetChannel (ctx : RpcContext) (channelId : Int) (endpoint : ServiceEndpoint) : RpcContext :=
  match ctx.channels[channelId]? with
  | none => ctx
  | some info =>
    { ctx with
      channels := ctx.channels.insert channelId
        { info with
          targetHost := endpoint.host
          targetAppId := endpoint.appId
          targetMessageId := endpoint.messageId } }

def requestTo (endpointHost : String) (requestId : Nat) (method payload : String)
    (targetAppId targetMessageId : Int) : RpcRequest :=
  { requestId, method, payload, targetAppId, targetMessageId
    replyHost := endpointHost, replyPort := RPC_ASYNC_PORT }

def startUnary (env : RpcEnv) (endpointHost : String) (now channelId : Int) (method payload : String)
    (timeoutMs : Int) (ctx : RpcContext) :
    Except String (Nat × Option (String × RpcRequest) × RpcContext) :=
  match ctx.beginUnary now channelId method payload timeoutMs with
  | .error e => .error e
  | .ok (requestId, info, ctx) =>
    let buildReq := requestTo endpointHost requestId method payload
    if env.sends then
      .ok (requestId, some (info.targetHost, buildReq info.targetAppId info.targetMessageId), ctx)
    else
      match env.resolve (serviceNameOf info.targetUri) with
      | none =>
        .ok (requestId, none, ctx.completeUnavailable requestId "failed to send request after re-resolve")
      | some endpoint =>
        let ctx := ctx.retargetChannel channelId endpoint
        if env.resends then
          .ok (requestId, some (endpoint.host, buildReq endpoint.appId endpoint.messageId), ctx)
        else
          .ok (requestId, none,
            ctx.completeUnavailable requestId "failed to send request after re-resolve")

def hasPendingRequest (ctx : RpcContext) (requestId : Nat) : Bool :=
  match ctx.ops[requestId]? with
  | none => false
  | some op => !op.ready

def eraseRequest (ctx : RpcContext) (requestId : Nat) : RpcContext :=
  { ctx with
    ops := ctx.ops.erase requestId
    requestToChannel := ctx.requestToChannel.erase requestId }

def synthesizeDeadlineExceededIfNeeded (now : Int) (requestId : Nat) (op : RpcOp) : RpcOp :=
  match op.ready, op.deadline with
  | false, some deadline =>
    if now < deadline then op
    else
      { op with
        ready := true
        response := { op.response with
          requestId, statusCode := RpcStatusCode.DEADLINE_EXCEEDED
          errorMessage := "deadline exceeded" } }
  | _, _ => op

def testResponse (ctx : RpcContext) (now : Int) (requestId : Nat) : Bool × RpcContext :=
  match ctx.ops[requestId]? with
  | none => (false, ctx)
  | some op =>
    let op := synthesizeDeadlineExceededIfNeeded now requestId op
    (op.ready, ctx.setOp requestId op)

def getResponse (ctx : RpcContext) (now : Int) (requestId : Nat) : Option RpcResponse × RpcContext :=
  match ctx.ops[requestId]? with
  | none => (none, ctx)
  | some op =>
    let op := synthesizeDeadlineExceededIfNeeded now requestId op
    if op.ready then (some op.response, ctx.eraseRequest requestId)
    else (none, ctx.setOp requestId op)

def isRetryableStaleTargetUnavailable (resp : RpcResponse) : Bool :=
  resp.statusCode = RpcStatusCode.UNAVAILABLE &&
    resp.errorMessage = "Target service instance not available"

def receiveResponse (ctx : RpcContext) (resp : RpcResponse) : Option RpcOp × RpcContext :=
  match ctx.ops[resp.requestId]? with
  | none => (none, ctx)
  | some op =>
    if isRetryableStaleTargetUnavailable resp && op.retryCount = 0 && op.method ≠ "" then
      let op := { op with retryCount := op.retryCount + 1 }
      (some op, ctx.setOp resp.requestId op)
    else (none, ctx.setOp resp.requestId { op with ready := true, response := resp })

def retryUnaryAfterUnavailable (env : RpcEnv) (endpointHost : String) (requestId : Nat)
    (retryOp : RpcOp) (ctx : RpcContext) : Option (String × RpcRequest) × RpcContext :=
  match ctx.channels[retryOp.channelId]? with
  | none => (none, ctx.completeUnavailable requestId "retry failed: channel disappeared")
  | some info =>
    match env.resolve (serviceNameOf info.targetUri) with
    | none => (none, ctx.completeUnavailable requestId "retry failed: service re-resolution failed")
    | some endpoint =>
      let ctx := ctx.retargetChannel retryOp.channelId endpoint
      if env.sends then
        (some (endpoint.host, requestTo endpointHost requestId retryOp.method retryOp.payload
          endpoint.appId endpoint.messageId), ctx)
      else (none, ctx.completeUnavailable requestId "retry after re-resolution failed")

def onResponseReceived (env : RpcEnv) (endpointHost : String) (resp : RpcResponse)
    (ctx : RpcContext) : Option (String × RpcRequest) × RpcContext :=
  match ctx.receiveResponse resp with
  | (none, ctx) => (none, ctx)
  | (some retryOp, ctx) =>
    ctx.retryUnaryAfterUnavailable env endpointHost resp.requestId retryOp

structure Carries (host : String) (requestId : Nat) (method payload : String) (req : RpcRequest) :
    Prop where
  requestId : req.requestId = requestId
  method : req.method = method
  payload : req.payload = payload
  replyHost : req.replyHost = host

theorem startUnary_cases {env : RpcEnv} {host : String} {now channelId timeoutMs : Int}
    {method payload : String} {ctx : RpcContext} {r : Nat × Option (String × RpcRequest) × RpcContext}
    (h : ctx.startUnary env host now channelId method payload timeoutMs = .ok r) :
    r.1 = ctx.nextRequestId ∧ (∃ info, ctx.channels[channelId]? = some info) ∧
    ∃ sentCtx, (sentCtx = ctx.allot (newOp now channelId method payload timeoutMs) ∨
        ∃ endpoint, sentCtx =
          (ctx.allot (newOp now channelId method payload timeoutMs)).retargetChannel channelId endpoint) ∧
      ((r.2.2 = sentCtx ∧ ∃ target req, r.2.1 = some (target, req) ∧
          Carries host ctx.nextRequestId method payload req) ∨
        (r.2.1 = none ∧ r.2.2 = sentCtx.completeUnavailable ctx.nextRequestId
          "failed to send request after re-resolve")) := by
  unfold startUnary beginUnary at h
  cases hc : ctx.channels[channelId]? with
  | none => simp [hc] at h
  | some info =>
    by_cases hf : info.isFaabric = true
    · simp only [hc, hf, Bool.not_true, Bool.false_eq_true, if_false] at h
      by_cases hs : env.sends = true
      · simp only [hs, if_true, Except.ok.injEq] at h
        subst h
        exact ⟨rfl, ⟨info, rfl⟩, _, Or.inl rfl, Or.inl ⟨rfl, _, _, rfl, ⟨rfl, rfl, rfl, rfl⟩⟩⟩
      · simp only [hs] at h
        cases hr : env.resolve (serviceNameOf info.targetUri) with
        | none =>
          simp only [hr, Bool.false_eq_true, if_false, Except.ok.injEq] at h
          subst h
          exact ⟨rfl, ⟨info, rfl⟩, _, Or.inl rfl, Or.inr ⟨rfl, rfl⟩⟩
        | some endpoint =>
          by_cases hrs : env.resends = true
          · simp only [hr, hrs, if_true, Bool.false_eq_true, if_false, Except.ok.injEq] at h
            subst h
            exact ⟨rfl, ⟨info, rfl⟩, _, Or.inr ⟨endpoint, rfl⟩,
              Or.inl ⟨rfl, _, _, rfl, ⟨rfl, rfl, rfl, rfl⟩⟩⟩
          · simp only [hr, hrs, Bool.false_eq_true, if_false, Except.ok.injEq] at h
            subst h
            exact ⟨rfl, ⟨info, rfl⟩, _, Or.inr ⟨endpoint, rfl⟩, Or.inr ⟨rfl, rfl⟩⟩
    · simp [hc, hf] at h

theorem retry_cases (env : RpcEnv) (host : String) (requestId : Nat) (op : RpcOp) (ctx : RpcContext) :
    (∃ endpoint target req, ctx.retryUnaryAfterUnavailable env host requestId op =
        (some (target, req), ctx.retargetChannel op.channelId endpoint) ∧
      Carries host requestId op.method op.payload req) ∨
    ∃ what sentCtx, (sentCtx = ctx ∨ ∃ endpoint, sentCtx = ctx.retargetChannel op.channelId endpoint) ∧
      ctx.retryUnaryAfterUnavailable env host requestId op =
        (none, sentCtx.completeUnavailable requestId what) := by
  unfold retryUnaryAfterUnavailable
  cases hc : ctx.channels[op.channelId]? with
  | none => exact Or.inr ⟨_, ctx, Or.inl rfl, rfl⟩
  | some info =>
    cases hr : env.resolve (serviceNameOf info.targetUri) with
    | none =>
      exact Or.inr ⟨"retry failed: service re-resolution failed", ctx, Or.inl rfl, by simp [hr]⟩
    | some endpoint =>
      by_cases hs : env.sends = true
      · refine Or.inl ⟨endpoint, endpoint.host, requestTo host requestId op.method op.payload
          endpoint.appId endpoint.messageId, ?_, ⟨rfl, rfl, rfl, rfl⟩⟩
        simp [hr, hs]
      · exact Or.inr ⟨"retry after re-resolution failed", _, Or.inr ⟨endpoint, rfl⟩,
          by simp [hr, hs]⟩

@[simp] theorem setOp_ops (ctx : RpcContext) (q : Nat) (op : RpcOp) :
    (ctx.setOp q op).ops = ctx.ops.insert q op := rfl

@[simp] theorem setOp_channels (ctx : RpcContext) (q : Nat) (op : RpcOp) :
    (ctx.setOp q op).channels = ctx.channels := rfl

@[simp] theorem retargetChannel_ops (ctx : RpcContext) (c : Int) (endpoint : ServiceEndpoint) :
    (ctx.retargetChannel c endpoint).ops = ctx.ops := by
  unfold retargetChannel
  split <;> rfl

end RpcContext

end Faabric
