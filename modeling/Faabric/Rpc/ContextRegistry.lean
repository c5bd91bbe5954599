import Faabric.Lib.MapTotal
import Faabric.Rpc.Messages

/-! The registry that a host keeps of its RPC contexts and of the requests whose
responses it expects. A context is a reference here: what the registry does never looks
into it. Every function is a section that holds the registry's lock; clock readings are
arguments in milliseconds. -/

namespace Faabric

open Std (ExtTreeMap)
open MapTotal

def kDefaultRpcRequestTtl : Int := 1200000

structure InFlightRequest where
  owner : RpcAppMsgIds
  expiresAt : Int
deriving DecidableEq, Repr

structure PendingFetch where
  host : String := ""
  port : Int := 0
deriving DecidableEq, Repr

structure RpcContextRegistry (Context : Type) where
  contextByKey : ExtTreeMap RpcAppMsgIds Context compare := ∅
  requests : ExtTreeMap Nat InFlightRequest compare := ∅
  cachedResponses : ExtTreeMap Nat RpcResponse compare := ∅
  pendingFetches : ExtTreeMap Nat PendingFetch compare := ∅

/-- What `routeResponse` decides. The context of a local delivery is named by its key. -/
inductive ResponseRoute (Context : Type) where
  | drop
  | deliver (owner : RpcAppMsgIds) (context : Context)
  | forward (fetch : PendingFetch)
  | cached

namespace RpcContextRegistry

variable {Context : Type}

def clearRequestLocked (reg : RpcContextRegistry Context) (requestId : Nat) :
    RpcContextRegistry Context :=
  { reg with
    requests := reg.requests.erase requestId
    cachedResponses := reg.cachedResponses.erase requestId
    pendingFetches := reg.pendingFetches.erase requestId }

def expireRequestIfNeeded (reg : RpcContextRegistry Context) (now : Int) (requestId : Nat) :
    Bool × RpcContextRegistry Context :=
  match reg.requests[requestId]? with
  | none => (true, reg)
  | some r => if now < r.expiresAt then (false, reg) else (true, reg.clearRequestLocked requestId)

def registerContext (reg : RpcContextRegistry Context) (owner : RpcAppMsgIds) (ctx : Context) :
    RpcContextRegistry Context :=
  { reg with contextByKey := reg.contextByKey.insert owner ctx }

def removeContext (reg : RpcContextRegistry Context) (owner : RpcAppMsgIds) :
    RpcContextRegistry Context :=
  { reg with contextByKey := reg.contextByKey.erase owner }

def ttlOrDefault (ttl : Int) : Int := if ttl ≤ 0 then kDefaultRpcRequestTtl else ttl

def registerInFlightRequest (reg : RpcContextRegistry Context) (now : Int) (requestId : Nat)
    (owner : RpcAppMsgIds) (ttl : Int) : RpcContextRegistry Context :=
  { reg with
    requests := reg.requests.insert requestId { owner, expiresAt := now + ttlOrDefault ttl } }

def refreshRequestTtl (reg : RpcContextRegistry Context) (now : Int) (requestId : Nat) (ttl : Int) :
    RpcContextRegistry Context :=
  match reg.requests[requestId]? with
  | none => reg
  | some r =>
    { reg with
      requests := reg.requests.insert requestId { r with expiresAt := now + ttlOrDefault ttl } }

def hasRequest (reg : RpcContextRegistry Context) (now : Int) (requestId : Nat) :
    Bool × RpcContextRegistry Context :=
  let (expired, reg) := reg.expireRequestIfNeeded now requestId
  (!expired, reg)

def cacheResponse (reg : RpcContextRegistry Context) (now : Int) (requestId : Nat)
    (resp : RpcResponse) : RpcContextRegistry Context :=
  let (expired, reg) := reg.expireRequestIfNeeded now requestId
  if expired then reg
  else { reg with cachedResponses := reg.cachedResponses.insert requestId resp }

def consumeCachedResponse (reg : RpcContextRegistry Context) (now : Int) (requestId : Nat) :
    Option RpcResponse × RpcContextRegistry Context :=
  let (expired, reg) := reg.expireRequestIfNeeded now requestId
  if expired then (none, reg)
  else
    match reg.cachedResponses[requestId]? with
    | none => (none, reg)
    | some resp => (some resp, { reg with cachedResponses := reg.cachedResponses.erase requestId })

def registerPendingFetch (reg : RpcContextRegistry Context) (now : Int) (requestId : Nat)
    (fetch : PendingFetch) : RpcContextRegistry Context :=
  let (expired, reg) := reg.expireRequestIfNeeded now requestId
  if expired then reg
  else { reg with pendingFetches := reg.pendingFetches.insert requestId fetch }

def routeResponse (reg : RpcContextRegistry Context) (now : Int) (requestId : Nat)
    (resp : RpcResponse) : ResponseRoute Context × RpcContextRegistry Context :=
  let (expired, reg) := reg.expireRequestIfNeeded now requestId
  match expired, reg.requests[requestId]? with
  | false, some r =>
    match reg.contextByKey[r.owner]? with
    | some ctx => (.deliver r.owner ctx, reg)
    | none =>
      match reg.pendingFetches[requestId]? with
      | some fetch =>
        (.forward fetch, { reg with pendingFetches := reg.pendingFetches.erase requestId })
      | none => (.cached, { reg with cachedResponses := reg.cachedResponses.insert requestId resp })
  | _, _ => (.drop, reg)

def restoreRequest (now : Int) (owner : RpcAppMsgIds)
    (acc : List RpcResponse × RpcContextRegistry Context) (pending : RpcPendingRequest) :
    List RpcResponse × RpcContextRegistry Context :=
  let ttl := if 0 < pending.timeoutRemaining then pending.timeoutRemaining else kDefaultRpcRequestTtl
  let reg :=
    { acc.2 with
      requests := acc.2.requests.insert pending.requestId { owner, expiresAt := now + ttl }
      pendingFetches := acc.2.pendingFetches.erase pending.requestId }
  match reg.cachedResponses[pending.requestId]? with
  | some resp =>
    (acc.1 ++ [resp], { reg with cachedResponses := reg.cachedResponses.erase pending.requestId })
  | none => (acc.1, reg)

def registerRestoredContext (reg : RpcContextRegistry Context) (now : Int) (owner : RpcAppMsgIds)
    (ctx : Context) (migrationCtx : RpcMigrationState) :
    List RpcResponse × RpcContextRegistry Context :=
  migrationCtx.pendingRequests.foldl (restoreRequest now owner) ([], reg.registerContext owner ctx)

def Unexpired (reg : RpcContextRegistry Context) (now : Int) (requestId : Nat) : Prop :=
  ∃ r ∈ reg.requests[requestId]?, now < r.expiresAt

instance (reg : RpcContextRegistry Context) (now : Int) (requestId : Nat) :
    Decidable (reg.Unexpired now requestId) := by
  unfold Unexpired
  infer_instance

def Keyed (reg : RpcContextRegistry Context) : Prop :=
  ∀ (requestId : Nat) resp, reg.cachedResponses[requestId]? = some resp → resp.requestId = requestId

variable {reg : RpcContextRegistry Context} {now : Int} {requestId : Nat}

theorem expireRequestIfNeeded_of_unexpired (h : reg.Unexpired now requestId) :
    reg.expireRequestIfNeeded now requestId = (false, reg) := by
  obtain ⟨r, hr, hnow⟩ := h
  rw [Option.mem_def] at hr
  simp [expireRequestIfNeeded, hr, hnow]

theorem hasRequest_of_unexpired (h : reg.Unexpired now requestId) :
    reg.hasRequest now requestId = (true, reg) := by
  simp [hasRequest, expireRequestIfNeeded_of_unexpired h]

theorem cacheResponse_of_unexpired (h : reg.Unexpired now requestId) (resp : RpcResponse) :
    reg.cacheResponse now requestId resp =
      { reg with cachedResponses := reg.cachedResponses.insert requestId resp } := by
  simp [cacheResponse, expireRequestIfNeeded_of_unexpired h]

theorem registerPendingFetch_of_unexpired (h : reg.Unexpired now requestId) (fetch : PendingFetch) :
    reg.registerPendingFetch now requestId fetch =
      { reg with pendingFetches := reg.pendingFetches.insert requestId fetch } := by
  simp [registerPendingFetch, expireRequestIfNeeded_of_unexpired h]

theorem consumeCachedResponse_miss (h : reg.Unexpired now requestId)
    (hc : reg.cachedResponses[requestId]? = none) :
    reg.consumeCachedResponse now requestId = (none, reg) := by
  simp [consumeCachedResponse, expireRequestIfNeeded_of_unexpired h, hc]

theorem consumeCachedResponse_hit {resp : RpcResponse} (h : reg.Unexpired now requestId)
    (hc : reg.cachedResponses[requestId]? = some resp) :
    reg.consumeCachedResponse now requestId =
      (some resp, { reg with cachedResponses := reg.cachedResponses.erase requestId }) := by
  simp [consumeCachedResponse, expireRequestIfNeeded_of_unexpired h, hc]

theorem routeResponse_cases (h : reg.Unexpired now requestId) (resp : RpcResponse) :
    (∃ r ctx, reg.requests[requestId]? = some r ∧ reg.contextByKey[r.owner]? = some ctx ∧
      reg.routeResponse now requestId resp = (.deliver r.owner ctx, reg)) ∨
    (∃ r fetch, reg.requests[requestId]? = some r ∧ reg.contextByKey[r.owner]? = none ∧
      reg.pendingFetches[requestId]? = some fetch ∧
      reg.routeResponse now requestId resp =
        (.forward fetch, { reg with pendingFetches := reg.pendingFetches.erase requestId })) ∨
    (∃ r, reg.requests[requestId]? = some r ∧ reg.contextByKey[r.owner]? = none ∧
      reg.pendingFetches[requestId]? = none ∧
      reg.routeResponse now requestId resp =
        (.cached, { reg with cachedResponses := reg.cachedResponses.insert requestId resp })) := by
  have he := expireRequestIfNeeded_of_unexpired h
  obtain ⟨r, hr, -⟩ := h
  rw [Option.mem_def] at hr
  cases hctx : reg.contextByKey[r.owner]? with
  | some ctx => exact Or.inl ⟨r, ctx, hr, hctx, by simp [routeResponse, he, hr, hctx]⟩
  | none =>
    cases hf : reg.pendingFetches[requestId]? with
    | some fetch => exact Or.inr (Or.inl ⟨r, fetch, hr, hctx, rfl, by simp [routeResponse, he, hr, hctx, hf]⟩)
    | none => exact Or.inr (Or.inr ⟨r, hr, hctx, rfl, by simp [routeResponse, he, hr, hctx, hf]⟩)

/-- What the loop of `registerRestoredContext` has done once it has seen the requests `ids`. -/
structure TakenOver (owner : RpcAppMsgIds) (ids : List Nat) (reg reg' : RpcContextRegistry Context)
    (taken : List RpcResponse) : Prop where
  contexts : reg'.contextByKey = reg.contextByKey
  requests : ∀ q : Nat, q ∉ ids → reg'.requests[q]? = reg.requests[q]?
  owned : ∀ q : Nat, q ∈ ids → ∃ r, reg'.requests[q]? = some r ∧ r.owner = owner
  fetches : ∀ q : Nat, reg'.pendingFetches[q]? = if q ∈ ids then none else reg.pendingFetches[q]?
  cached : ∀ q : Nat, reg'.cachedResponses[q]? = if q ∈ ids then none else reg.cachedResponses[q]?
  taken : reg.Keyed → ∀ q : Nat, taken.filter (fun resp => resp.requestId = q) =
    if q ∈ ids then reg.cachedResponses[q]?.toList else []

theorem restoreRequest_eq (now : Int) (owner : RpcAppMsgIds) (taken : List RpcResponse)
    (reg : RpcContextRegistry Context) (pending : RpcPendingRequest) :
    restoreRequest now owner (taken, reg) pending =
      (taken ++ reg.cachedResponses[pending.requestId]?.toList,
        { reg with
          requests := reg.requests.insert pending.requestId
            { owner, expiresAt := now + if 0 < pending.timeoutRemaining then pending.timeoutRemaining
                else kDefaultRpcRequestTtl }
          pendingFetches := reg.pendingFetches.erase pending.requestId
          cachedResponses := reg.cachedResponses.erase pending.requestId }) := by
  cases hc : reg.cachedResponses[pending.requestId]? with
  | none => simp [restoreRequest, hc, erase_of_getElem?_none hc]
  | some resp => simp [restoreRequest, hc]

theorem TakenOver.restoreRequest {owner : RpcAppMsgIds} {ids : List Nat} {reg' : RpcContextRegistry Context}
    {taken : List RpcResponse} (h : TakenOver owner ids reg reg' taken) (now : Int)
    (pending : RpcPendingRequest) :
    TakenOver owner (ids ++ [pending.requestId]) reg
      (RpcContextRegistry.restoreRequest now owner (taken, reg') pending).2
      (RpcContextRegistry.restoreRequest now owner (taken, reg') pending).1 := by
  rw [restoreRequest_eq]
  constructor
  · exact h.contexts
  · intro q hq
    simp only [List.mem_append, List.mem_singleton, not_or] at hq
    simp [h.requests q hq.1, Ne.symm hq.2]
  · intro q hq
    by_cases he : pending.requestId = q
    · simp [he]
    · have hmem : q ∈ ids := by simpa [Ne.symm he] using hq
      simpa [he] using h.owned q hmem
  · intro q
    by_cases he : pending.requestId = q
    · simp [he]
    · simp [he, Ne.symm he, h.fetches q]
  · intro q
    by_cases he : pending.requestId = q
    · simp [he]
    · simp [he, Ne.symm he, h.cached q]
  · intro hkeyed q
    have hown : ∀ resp, reg.cachedResponses[pending.requestId]? = some resp →
        resp.requestId = pending.requestId := hkeyed pending.requestId
    rw [List.filter_append, h.taken hkeyed q, h.cached pending.requestId]
    by_cases he : pending.requestId = q
    · subst he
      by_cases hmem : pending.requestId ∈ ids
      · simp [hmem]
      · cases hc : reg.cachedResponses[pending.requestId]? with
        | none => simp [hmem]
        | some resp => simp [hmem, hown resp hc]
    · have hrest : ((if pending.requestId ∈ ids then none
          else reg.cachedResponses[pending.requestId]?).toList.filter
            fun resp => decide (resp.requestId = q)) = [] := by
        split_ifs
        · rfl
        · cases hc : reg.cachedResponses[pending.requestId]? with
          | none => rfl
          | some resp => simp [hown resp hc, he]
      simp [hrest, Ne.symm he]

theorem foldl_restoreRequest {owner : RpcAppMsgIds} (now : Int) (pendings : List RpcPendingRequest)
    {ids : List Nat} {acc : List RpcResponse × RpcContextRegistry Context}
    (h : TakenOver owner ids reg acc.2 acc.1) :
    TakenOver owner (ids ++ pendings.map RpcPendingRequest.requestId) reg
      (pendings.foldl (restoreRequest now owner) acc).2
      (pendings.foldl (restoreRequest now owner) acc).1 := by
  induction pendings generalizing ids acc with
  | nil => simpa using h
  | cons pending pendings ih =>
    have hstep := h.restoreRequest now pending
    have hrest := ih hstep
    simpa using hrest

theorem registerRestoredContext_takenOver (reg : RpcContextRegistry Context) (now : Int)
    (owner : RpcAppMsgIds) (ctx : Context) (migrationCtx : RpcMigrationState) :
    TakenOver owner (migrationCtx.pendingRequests.map RpcPendingRequest.requestId)
      (reg.registerContext owner ctx) (reg.registerRestoredContext now owner ctx migrationCtx).2
      (reg.registerRestoredContext now owner ctx migrationCtx).1 := by
  have hnil : TakenOver owner [] (reg.registerContext owner ctx) (reg.registerContext owner ctx) [] := by
    constructor <;> simp
  have h := foldl_restoreRequest now migrationCtx.pendingRequests
    (show TakenOver owner [] _ ([], reg.registerContext owner ctx).2
      ([], reg.registerContext owner ctx).1 from hnil)
  rw [List.nil_append] at h
  exact h
end RpcContextRegistry

end Faabric
