import Faabric.Rpc.Context

/-! `startUnary` and `retryUnaryAfterUnavailable` cut at the sections that hold the context's
lock and at the sends between them. -/

namespace Faabric

open Std (ExtTreeMap)
open MapTotal

variable {ctx : RpcContext}

inductive UnaryPhase where
  | send (requestId : Nat) (channelId : Int) (method payload : String) (info : ChannelInfo)
  | reresolveChannel (requestId : Nat) (channelId : Int) (method payload targetUri : String)
  | findChannel (requestId : Nat) (channelId : Int) (method payload : String)
      (endpoint : ServiceEndpoint)
  | resend (requestId : Nat) (method payload host : String) (endpoint : ServiceEndpoint)
  | sendFailed (requestId : Nat)
  | retry (requestId : Nat) (op : RpcOp)
  | retryReresolve (requestId : Nat) (op : RpcOp) (targetUri : String)
  | retryFindChannel (requestId : Nat) (op : RpcOp)
  | retrySend (requestId : Nat) (op : RpcOp) (info : ChannelInfo)
  | retryFailed (requestId : Nat) (errorMessage : String)
deriving DecidableEq

namespace UnaryPhase

def retryOf : UnaryPhase → Option Nat
  | .retry q _ | .retryReresolve q _ _ | .retryFindChannel q _ | .retrySend q _ _ => some q
  | .retryFailed q _ => some q
  | _ => none

def fails (ctx : RpcContext) : UnaryPhase → Option Nat
  | .sendFailed q | .retryFailed q _ => some q
  | .retry q op | .retryFindChannel q op =>
    if ctx.channels[op.channelId]? = none then some q else none
  | _ => none

/-- One section or one send: the request that goes out, where the thread stands then, and
the context. -/
def proceed (env : RpcEnv) (endpointHost : String) (ctx : RpcContext) :
    UnaryPhase → Option (String × RpcRequest) × Option UnaryPhase × RpcContext
  | .send q channelId method payload info =>
    if env.sends then
      (some (info.targetHost, RpcContext.requestTo endpointHost q method payload info.targetAppId
        info.targetMessageId), none, ctx)
    else (none, some (.reresolveChannel q channelId method payload info.targetUri), ctx)
  | .reresolveChannel q channelId method payload targetUri =>
    match env.resolve (serviceNameOf targetUri) with
    | none => (none, some (.sendFailed q), ctx)
    | some endpoint =>
      (none, some (.findChannel q channelId method payload endpoint),
        ctx.retargetChannel channelId endpoint)
  | .findChannel q channelId method payload endpoint =>
    match ctx.channels[channelId]? with
    | none => (none, some (.sendFailed q), ctx)
    | some info => (none, some (.resend q method payload info.targetHost endpoint), ctx)
  | .resend q method payload host endpoint =>
    if env.resends then
      (some (host, RpcContext.requestTo endpointHost q method payload endpoint.appId
        endpoint.messageId), none, ctx)
    else (none, some (.sendFailed q), ctx)
  | .sendFailed q =>
    (none, none, ctx.completeUnavailable q "failed to send request after re-resolve")
  | .retry q op =>
    match ctx.channels[op.channelId]? with
    | none => (none, none, ctx.completeUnavailable q "retry failed: channel disappeared")
    | some info => (none, some (.retryReresolve q op info.targetUri), ctx)
  | .retryReresolve q op targetUri =>
    match env.resolve (serviceNameOf targetUri) with
    | none => (none, some (.retryFailed q "retry failed: service re-resolution failed"), ctx)
    | some endpoint =>
      (none, some (.retryFindChannel q op), ctx.retargetChannel op.channelId endpoint)
  | .retryFindChannel q op =>
    match ctx.channels[op.channelId]? with
    | none =>
      (none, none,
        ctx.completeUnavailable q "retry failed: channel disappeared after re-resolution")
    | some info => (none, some (.retrySend q op info), ctx)
  | .retrySend q op info =>
    if env.sends then
      (some (info.targetHost, RpcContext.requestTo endpointHost q op.method op.payload
        info.targetAppId info.targetMessageId), none, ctx)
    else (none, some (.retryFailed q "retry after re-resolution failed"), ctx)
  | .retryFailed q errorMessage => (none, none, ctx.completeUnavailable q errorMessage)

theorem proceed_cases (env : RpcEnv) (host : String) (ctx : RpcContext) (phase : UnaryPhase) :
    ((phase.proceed env host ctx).2.2.ops = ctx.ops ∧
      ∀ next, (phase.proceed env host ctx).2.1 = some next → next.retryOf = phase.retryOf) ∨
    ∃ q errorMessage, phase.fails ctx = some q ∧
      phase.proceed env host ctx = (none, none, ctx.completeUnavailable q errorMessage) := by
  cases phase with
  | send q channelId method payload info =>
    left
    by_cases hs : env.sends = true <;> simp [proceed, hs, retryOf]
  | reresolveChannel q channelId method payload targetUri =>
    left
    cases hr : env.resolve (serviceNameOf targetUri) <;> simp [proceed, hr, retryOf]
  | findChannel q channelId method payload endpoint =>
    left
    cases hc : ctx.channels[channelId]? <;> simp [proceed, hc, retryOf]
  | resend q method payload host endpoint =>
    left
    by_cases hs : env.resends = true <;> simp [proceed, hs, retryOf]
  | sendFailed q => exact Or.inr ⟨q, _, rfl, rfl⟩
  | retry q op =>
    cases hc : ctx.channels[op.channelId]? with
    | none => exact Or.inr ⟨q, "retry failed: channel disappeared", by simp [fails, hc], by simp [proceed, hc]⟩
    | some info =>
      left
      simp [proceed, hc, retryOf]
  | retryReresolve q op targetUri =>
    left
    cases hr : env.resolve (serviceNameOf targetUri) <;> simp [proceed, hr, retryOf]
  | retryFindChannel q op =>
    cases hc : ctx.channels[op.channelId]? with
    | none =>
      exact Or.inr ⟨q, "retry failed: channel disappeared after re-resolution", by simp [fails, hc],
        by simp [proceed, hc]⟩
    | some info =>
      left
      simp [proceed, hc, retryOf]
  | retrySend q op info =>
    left
    by_cases hs : env.sends = true <;> simp [proceed, hs, retryOf]
  | retryFailed q errorMessage => exact Or.inr ⟨q, errorMessage, rfl, rfl⟩

theorem proceed_sent {env : RpcEnv} {host : String} {phase : UnaryPhase}
    {sent : String × RpcRequest} (h : (phase.proceed env host ctx).1 = some sent) :
    (phase.proceed env host ctx).2.1 = none := by
  cases phase <;> simp only [proceed] at h ⊢ <;> split at h <;> simp_all

def finish (env : RpcEnv) (endpointHost : String) :
    Nat → UnaryPhase → RpcContext → Option (String × RpcRequest) × RpcContext
  | 0, _, ctx => (none, ctx)
  | fuel + 1, phase, ctx =>
    match phase.proceed env endpointHost ctx with
    | (sent, none, ctx) => (sent, ctx)
    | (_, some next, ctx) => finish env endpointHost fuel next ctx

end UnaryPhase

namespace RpcContext

theorem retargetChannel_find {channelId : Int} {info : ChannelInfo}
    (h : ctx.channels[channelId]? = some info) (endpoint : ServiceEndpoint) :
    (ctx.retargetChannel channelId endpoint).channels[channelId]? = some
      { info with
        targetHost := endpoint.host
        targetAppId := endpoint.appId
        targetMessageId := endpoint.messageId } := by
  simp [retargetChannel, h]

theorem startUnary_sections {env : RpcEnv} {host : String} {now channelId timeoutMs : Int}
    {method payload : String} {ctx' : RpcContext} {q : Nat} {info : ChannelInfo}
    (h : ctx.beginUnary now channelId method payload timeoutMs = .ok (q, info, ctx')) :
    ctx.startUnary env host now channelId method payload timeoutMs =
      .ok (q, (UnaryPhase.send q channelId method payload info).finish env host 5 ctx') := by
  have hfound : ctx'.channels[channelId]? = some info := by
    unfold beginUnary at h
    cases hc : ctx.channels[channelId]? with
    | none => simp [hc] at h
    | some info' =>
      by_cases hf : info'.isFaabric = true
      · simp only [hc, hf, Bool.not_true, Bool.false_eq_true, if_false, Except.ok.injEq,
          Prod.mk.injEq] at h
        obtain ⟨-, rfl, rfl⟩ := h
        exact hc
      · simp [hc, hf] at h
  simp only [startUnary, h]
  by_cases hs : env.sends = true
  · simp [UnaryPhase.finish, UnaryPhase.proceed, hs]
  · cases hr : env.resolve (serviceNameOf info.targetUri) with
    | none => simp [UnaryPhase.finish, UnaryPhase.proceed, hs, hr]
    | some endpoint =>
      have hfind := retargetChannel_find hfound endpoint
      by_cases hrs : env.resends = true <;>
        simp [UnaryPhase.finish, UnaryPhase.proceed, hs, hr, hfind, hrs]

theorem retryUnary_sections (env : RpcEnv) (host : String) (q : Nat) (op : RpcOp)
    (ctx : RpcContext) :
    ctx.retryUnaryAfterUnavailable env host q op = (UnaryPhase.retry q op).finish env host 5 ctx := by
  unfold retryUnaryAfterUnavailable
  cases hc : ctx.channels[op.channelId]? with
  | none => simp [UnaryPhase.finish, UnaryPhase.proceed, hc]
  | some info =>
    cases hr : env.resolve (serviceNameOf info.targetUri) with
    | none => simp [UnaryPhase.finish, UnaryPhase.proceed, hc, hr]
    | some endpoint =>
      have hfind := retargetChannel_find hc endpoint
      by_cases hs : env.sends = true <;>
        simp [UnaryPhase.finish, UnaryPhase.proceed, hc, hr, hfind, hs]

end RpcContext

end Faabric
