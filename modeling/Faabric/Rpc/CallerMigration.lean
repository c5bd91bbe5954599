import Faabric.Rpc.RequestIds
import Faabric.Rpc.ContextRegistry

/-! A caller that moves from host to host while a request of its is outstanding. Each host
runs one handler, serialisation or restore at a time; FETCH and response messages arrive in
any order. -/

namespace Faabric

open Std (ExtTreeMap)
open MapTotal MapFill

namespace RpcContextRegistry

variable {Context : Type}

def recvFetch (reg : RpcContextRegistry Context) (now : Int) (fetch : RpcFetchRequest) :
    Option RpcResponse × RpcContextRegistry Context :=
  match reg.hasRequest now fetch.requestId with
  | (false, reg) => (none, reg)
  | (true, reg) =>
    match reg.consumeCachedResponse now fetch.requestId with
    | (some resp, reg) => (some resp, reg)
    | (none, reg) =>
      (none, reg.registerPendingFetch now fetch.requestId
        { host := fetch.replyHost, port := fetch.replyPort })

/-- What the registry holds for the request `q` is the same. -/
structure SameFor (q : Nat) (reg reg' : RpcContextRegistry Context) : Prop where
  request : reg'.requests[q]? = reg.requests[q]?
  cached : reg'.cachedResponses[q]? = reg.cachedResponses[q]?
  fetch : reg'.pendingFetches[q]? = reg.pendingFetches[q]?

theorem SameFor.refl (q : Nat) (reg : RpcContextRegistry Context) : SameFor q reg reg :=
  ⟨rfl, rfl, rfl⟩

variable {reg : RpcContextRegistry Context}

theorem SameFor.trans {q : Nat} {reg' reg'' : RpcContextRegistry Context} (h : SameFor q reg reg')
    (h' : SameFor q reg' reg'') : SameFor q reg reg'' :=
  ⟨h'.request.trans h.request, h'.cached.trans h.cached, h'.fetch.trans h.fetch⟩

theorem expireRequestIfNeeded_frame (reg : RpcContextRegistry Context) (now : Int) {q q' : Nat}
    (hne : q' ≠ q) :
    SameFor q reg (reg.expireRequestIfNeeded now q').2 ∧
      (reg.expireRequestIfNeeded now q').2.contextByKey = reg.contextByKey ∧
      (reg.Keyed → (reg.expireRequestIfNeeded now q').2.Keyed) := by
  unfold expireRequestIfNeeded
  split
  · exact ⟨SameFor.refl q reg, rfl, id⟩
  · split_ifs
    · exact ⟨SameFor.refl q reg, rfl, id⟩
    · refine ⟨⟨?_, ?_, ?_⟩, rfl, ?_⟩
      · simp [clearRequestLocked, hne]
      · simp [clearRequestLocked, hne]
      · simp [clearRequestLocked, hne]
      · intro hk p resp hp
        by_cases he : q' = p
        · simp [clearRequestLocked, he] at hp
        · exact hk p resp (by simpa [clearRequestLocked, he] using hp)

theorem routeResponse_other (reg : RpcContextRegistry Context) (now : Int) {q : Nat}
    {resp : RpcResponse} (hne : resp.requestId ≠ q) :
    SameFor q reg (reg.routeResponse now resp.requestId resp).2 ∧
      (reg.routeResponse now resp.requestId resp).2.contextByKey = reg.contextByKey ∧
      (reg.Keyed → (reg.routeResponse now resp.requestId resp).2.Keyed) ∧
      ∀ o ctx, (reg.routeResponse now resp.requestId resp).1 = .deliver o ctx →
        reg.contextByKey[o]? = some ctx := by
  obtain ⟨hsame, hctx, hkeyed⟩ := expireRequestIfNeeded_frame reg now hne
  unfold routeResponse
  rcases hexp : reg.expireRequestIfNeeded now resp.requestId with ⟨expired, reg'⟩
  rw [hexp] at hsame hctx hkeyed
  dsimp only at hsame hctx hkeyed ⊢
  split
  · rename_i r hr
    split
    · rename_i ctx hc
      refine ⟨hsame, hctx, hkeyed, ?_⟩
      intro o ctx' he
      obtain ⟨rfl, rfl⟩ := ResponseRoute.deliver.inj he
      exact hctx ▸ hc
    · split
      · refine ⟨hsame.trans ⟨rfl, rfl, by simp [hne]⟩, hctx, hkeyed, ?_⟩
        intro o ctx' he
        cases he
      · refine ⟨hsame.trans ⟨rfl, by simp [hne], rfl⟩, hctx, ?_, ?_⟩
        · intro hk p resp' hp
          by_cases he : resp.requestId = p
          · simp only [getElem?_insert_ite, he, if_true, Option.some.injEq] at hp
            exact hp ▸ he
          · exact hkeyed hk p resp' (by simpa [he] using hp)
        · intro o ctx' he
          cases he
  · refine ⟨hsame, hctx, hkeyed, ?_⟩
    intro o ctx' he
    cases he

variable {fetch : RpcFetchRequest}

theorem recvFetch_other (reg : RpcContextRegistry Context) (now : Int) {q : Nat} (hne : fetch.requestId ≠ q)
    (hkeyed : reg.Keyed) :
    SameFor q reg (reg.recvFetch now fetch).2 ∧
      (reg.recvFetch now fetch).2.contextByKey = reg.contextByKey ∧
      (reg.recvFetch now fetch).2.Keyed ∧
      ∀ resp, (reg.recvFetch now fetch).1 = some resp → resp.requestId ≠ q := by
  by_cases hlive : reg.Unexpired now fetch.requestId
  · unfold recvFetch
    rw [hasRequest_of_unexpired hlive]
    dsimp only
    cases hc : reg.cachedResponses[fetch.requestId]? with
    | some resp =>
      rw [consumeCachedResponse_hit hlive hc]
      refine ⟨⟨rfl, by simp [hne], rfl⟩, rfl, ?_, ?_⟩
      · intro p resp' hp
        by_cases he : fetch.requestId = p
        · simp [he] at hp
        · exact hkeyed p resp' (by simpa [he] using hp)
      · intro resp' he
        obtain rfl := Option.some.inj he
        rw [hkeyed _ _ hc]
        exact hne
    | none =>
      rw [consumeCachedResponse_miss hlive hc]
      dsimp only
      rw [registerPendingFetch_of_unexpired hlive]
      exact ⟨⟨rfl, rfl, by simp [hne]⟩, rfl, hkeyed, by simp⟩
  · have hfalse : (reg.recvFetch now fetch) = (none, (reg.expireRequestIfNeeded now fetch.requestId).2) := by
      have hexp : (reg.expireRequestIfNeeded now fetch.requestId).1 = true := by
        unfold expireRequestIfNeeded
        cases hr : reg.requests[fetch.requestId]? with
        | none => rfl
        | some r =>
          have hnow : ¬ now < r.expiresAt := fun hnow => hlive ⟨r, by simp [hr], hnow⟩
          simp [hnow]
      simp [recvFetch, hasRequest, hexp]
    obtain ⟨hsame, hctx, hk⟩ := expireRequestIfNeeded_frame reg now hne
    rw [hfalse]
    exact ⟨hsame, hctx, hk hkeyed, by simp⟩

theorem recvFetch_hit {now : Int} {resp : RpcResponse} (hlive : reg.Unexpired now fetch.requestId)
    (hc : reg.cachedResponses[fetch.requestId]? = some resp) :
    reg.recvFetch now fetch =
      (some resp, { reg with cachedResponses := reg.cachedResponses.erase fetch.requestId }) := by
  simp [recvFetch, hasRequest_of_unexpired hlive, consumeCachedResponse_hit hlive hc]

theorem recvFetch_miss {now : Int} (hlive : reg.Unexpired now fetch.requestId)
    (hc : reg.cachedResponses[fetch.requestId]? = none) :
    reg.recvFetch now fetch =
      (none,
        { reg with
          pendingFetches := reg.pendingFetches.insert fetch.requestId
            { host := fetch.replyHost, port := fetch.replyPort } }) := by
  simp [recvFetch, hasRequest_of_unexpired hlive, consumeCachedResponse_miss hlive hc,
    registerPendingFetch_of_unexpired hlive]

theorem recvFetch_unknown {now : Int} (hr : reg.requests[fetch.requestId]? = none) :
    reg.recvFetch now fetch = (none, reg) := by
  simp [recvFetch, hasRequest, expireRequestIfNeeded, hr]

end RpcContextRegistry

namespace RpcContext

variable {ctx : RpcContext} {q : Nat}

theorem completeUnavailable_other {q' : Nat} (hne : q ≠ q') (what : String) :
    (ctx.completeUnavailable q what).ops[q']? = ctx.ops[q']? := by
  unfold completeUnavailable
  split
  · rfl
  · simp [hne]

theorem completeUnavailable_own {op : RpcOp} (hop : ctx.ops[q]? = some op) (what : String) :
    ∃ op', (ctx.completeUnavailable q what).ops[q]? = some op' ∧ op'.ready = true ∧
      op'.response.statusCode = RpcStatusCode.UNAVAILABLE ∧ op'.response.requestId = q := by
  refine ⟨_, by simp [completeUnavailable, hop]; rfl, rfl, rfl, rfl⟩

variable {resp : RpcResponse}

theorem receiveResponse_other (ctx : RpcContext) (hne : resp.requestId ≠ q) :
    (ctx.receiveResponse resp).2.ops[q]? = ctx.ops[q]? := by
  unfold receiveResponse
  split
  · rfl
  · split_ifs <;> simp [hne]

theorem onResponseReceived_other (ctx : RpcContext) (env : RpcEnv) (host : String) (hne : resp.requestId ≠ q) :
    (ctx.onResponseReceived env host resp).2.ops[q]? = ctx.ops[q]? := by
  have hrecv := receiveResponse_other ctx hne
  unfold onResponseReceived
  split
  · rename_i he
    rw [he] at hrecv
    exact hrecv
  · rename_i retryOp ctx' he
    rw [he] at hrecv
    rcases retry_cases env host resp.requestId retryOp ctx' with
      ⟨endpoint, target, req, hr, -⟩ | ⟨what, sentCtx, hsent, hr⟩
    · rw [hr, retargetChannel_ops]
      exact hrecv
    · rw [hr, completeUnavailable_other hne]
      rcases hsent with rfl | ⟨endpoint, rfl⟩
      · exact hrecv
      · rw [retargetChannel_ops]
        exact hrecv

theorem onResponseReceived_own (env : RpcEnv) (host : String) {op : RpcOp}
    (hop : ctx.ops[resp.requestId]? = some op) :
    ∃ op', (ctx.onResponseReceived env host resp).2.ops[resp.requestId]? = some op' ∧
      ((∃ sent, (ctx.onResponseReceived env host resp).1 = some sent ∧ sent.2.replyHost = host ∧
          op'.ready = op.ready) ∨
        ((ctx.onResponseReceived env host resp).1 = none ∧ op'.ready = true ∧
          op'.response.requestId = resp.requestId ∧
          (op'.response = resp ∨ op'.response.statusCode = RpcStatusCode.UNAVAILABLE))) := by
  by_cases hretry : (isRetryableStaleTargetUnavailable resp && decide (op.retryCount = 0) &&
      decide (op.method ≠ "")) = true
  · have hrecv : ctx.receiveResponse resp = (some { op with retryCount := op.retryCount + 1 },
        ctx.setOp resp.requestId { op with retryCount := op.retryCount + 1 }) := by
      simp only [receiveResponse, hop, hretry, if_true]
    have hfound : (ctx.setOp resp.requestId
        { op with retryCount := op.retryCount + 1 }).ops[resp.requestId]? =
          some { op with retryCount := op.retryCount + 1 } := by simp
    simp only [onResponseReceived, hrecv]
    rcases retry_cases env host resp.requestId { op with retryCount := op.retryCount + 1 }
        (ctx.setOp resp.requestId { op with retryCount := op.retryCount + 1 }) with
      ⟨endpoint, target, req, hr, hcarries⟩ | ⟨what, sentCtx, hsent, hr⟩
    · rw [hr]
      exact ⟨{ op with retryCount := op.retryCount + 1 }, by rw [retargetChannel_ops]; exact hfound,
        Or.inl ⟨(target, req), rfl, hcarries.replyHost, rfl⟩⟩
    · have hfound' : sentCtx.ops[resp.requestId]? =
          some { op with retryCount := op.retryCount + 1 } := by
        rcases hsent with rfl | ⟨endpoint, rfl⟩
        · exact hfound
        · rw [retargetChannel_ops]
          exact hfound
      obtain ⟨op', hop', hready, hstatus, hid⟩ := completeUnavailable_own hfound' what
      rw [hr]
      exact ⟨op', hop', Or.inr ⟨rfl, hready, hid, Or.inr hstatus⟩⟩
  · have hrecv : ctx.receiveResponse resp =
        (none, ctx.setOp resp.requestId { op with ready := true, response := resp }) := by
      simp only [receiveResponse, hop, hretry, Bool.false_eq_true, if_false]
    simp only [onResponseReceived, hrecv]
    exact ⟨{ op with ready := true, response := resp }, by simp, Or.inr ⟨by simp, rfl, rfl, Or.inl rfl⟩⟩

theorem refreshRequestTtl_frame {Context : Type} (reg : RpcContextRegistry Context) (now : Int)
    (requestId : Nat) (ttl : Int) :
    (reg.refreshRequestTtl now requestId ttl).contextByKey = reg.contextByKey ∧
      (reg.refreshRequestTtl now requestId ttl).cachedResponses = reg.cachedResponses ∧
      (reg.refreshRequestTtl now requestId ttl).pendingFetches = reg.pendingFetches ∧
      ∀ q : Nat, (reg.refreshRequestTtl now requestId ttl).requests[q]?.map InFlightRequest.owner =
        reg.requests[q]?.map InFlightRequest.owner := by
  unfold RpcContextRegistry.refreshRequestTtl
  cases hr : reg.requests[requestId]? with
  | none => exact ⟨rfl, rfl, rfl, fun q => rfl⟩
  | some r =>
    refine ⟨rfl, rfl, rfl, ?_⟩
    intro q
    by_cases he : requestId = q
    · subst he
      simp [hr]
    · simp [he]

theorem setupForwarding_frame {Context : Type} (ctx : RpcContext) (now : Int)
    (reg : RpcContextRegistry Context) :
    (ctx.setupForwarding now reg).contextByKey = reg.contextByKey.erase ctx.owner ∧
      (ctx.setupForwarding now reg).cachedResponses = reg.cachedResponses ∧
      (ctx.setupForwarding now reg).pendingFetches = reg.pendingFetches ∧
      ∀ q : Nat, (ctx.setupForwarding now reg).requests[q]?.map InFlightRequest.owner =
        reg.requests[q]?.map InFlightRequest.owner := by
  have hloop : ∀ (ids : List Nat) (ttl : Int) (reg' : RpcContextRegistry Context),
      (ids.foldl (fun r q => r.refreshRequestTtl now q ttl) reg').contextByKey = reg'.contextByKey ∧
      (ids.foldl (fun r q => r.refreshRequestTtl now q ttl) reg').cachedResponses =
        reg'.cachedResponses ∧
      (ids.foldl (fun r q => r.refreshRequestTtl now q ttl) reg').pendingFetches =
        reg'.pendingFetches ∧
      ∀ q : Nat, (ids.foldl (fun r q => r.refreshRequestTtl now q ttl) reg').requests[q]?.map
        InFlightRequest.owner = reg'.requests[q]?.map InFlightRequest.owner := by
    intro ids ttl
    induction ids with
    | nil => exact fun reg' => ⟨rfl, rfl, rfl, fun q => rfl⟩
    | cons p ids ih =>
      intro reg'
      obtain ⟨h1, h2, h3, h4⟩ := ih (reg'.refreshRequestTtl now p ttl)
      obtain ⟨g1, g2, g3, g4⟩ := refreshRequestTtl_frame reg' now p ttl
      exact ⟨h1.trans g1, h2.trans g2, h3.trans g3, fun q => (h4 q).trans (g4 q)⟩
  obtain ⟨h1, h2, h3, h4⟩ := hloop ctx.pendingIds
    (max (ctx.maxRemaining now * kTimeoutTtlMultiplier) kDefaultForwardingTtl) reg
  exact ⟨congrArg (·.erase ctx.owner) h1, h2, h3, h4⟩

theorem pendingRequestOf_mem (now : Int) (host : String) (hm : ctx.Matched) {op : RpcOp}
    (hop : ctx.ops[q]? = some op) :
    ctx.pendingRequestOf now q op.channelId ∈
      (ctx.serializeMigrationState now host).pendingRequests := by
  refine List.mem_map.mpr ⟨(q, op.channelId), ?_, rfl⟩
  rw [ExtTreeMap.mem_toList_iff_getElem?_eq_some, hm q, hop]
  rfl

end RpcContext

/-- The caller's context while responses are handed to it: the hosts that answers to the
request are still to be sent to, and the responses that have completed it. -/
structure Delivery where
  unanswered : List String := []
  completions : List RpcResponse := []
  ctx : RpcContext

namespace Delivery

def receive (q : Nat) (env : RpcEnv) (host : String) (d : Delivery) (resp : RpcResponse) : Delivery :=
  let r := d.ctx.onResponseReceived env host resp
  if resp.requestId = q then
    { unanswered := d.unanswered ++ (r.1.map fun e => e.2.replyHost).toList
      completions := d.completions ++
        if r.1.isNone then (r.2.ops[q]?.map RpcOp.response).toList else []
      ctx := r.2 }
  else { d with ctx := r.2 }

structure SameCall (q : Nat) (d d' : Delivery) : Prop where
  unanswered : d'.unanswered = d.unanswered
  completions : d'.completions = d.completions
  op : d'.ctx.ops[q]? = d.ctx.ops[q]?
  owner : d'.ctx.owner = d.ctx.owner
  sound : d.ctx.Sound → d'.ctx.Sound

theorem SameCall.refl (q : Nat) (d : Delivery) : SameCall q d d := ⟨rfl, rfl, rfl, rfl, id⟩

theorem SameCall.trans {q : Nat} {d d' d'' : Delivery} (h : SameCall q d d') (h' : SameCall q d' d'') :
    SameCall q d d'' :=
  ⟨h'.unanswered.trans h.unanswered, h'.completions.trans h.completions, h'.op.trans h.op,
    h'.owner.trans h.owner, fun hs => h'.sound (h.sound hs)⟩

variable {q : Nat}

variable {resp : RpcResponse}

theorem receive_other (env : RpcEnv) (host : String) (d : Delivery) (hne : resp.requestId ≠ q) :
    SameCall q d (d.receive q env host resp) := by
  unfold receive
  rw [if_neg hne]
  exact ⟨rfl, rfl, RpcContext.onResponseReceived_other d.ctx env host hne,
    (RpcContext.sameRequests_onResponseReceived d.ctx env host resp).owner,
    fun hs => hs.onResponseReceived env host resp⟩

structure Progress (q : Nat) (host : String) (resp : RpcResponse) (d d' : Delivery) : Prop where
  owner : d'.ctx.owner = d.ctx.owner
  sound : d.ctx.Sound → d'.ctx.Sound
  outcome : ∀ op, d.ctx.ops[q]? = some op → ∃ op', d'.ctx.ops[q]? = some op' ∧
    ((d'.unanswered = d.unanswered ++ [host] ∧ d'.completions = d.completions ∧ op'.ready = op.ready) ∨
      (d'.unanswered = d.unanswered ∧ d'.completions = d.completions ++ [op'.response] ∧
        op'.ready = true ∧ op'.response.requestId = q ∧
        (op'.response = resp ∨ op'.response.statusCode = RpcStatusCode.UNAVAILABLE)))

theorem receive_own (env : RpcEnv) (host : String) (d : Delivery) (hid : resp.requestId = q) :
    Progress q host resp d (d.receive q env host resp) := by
  subst hid
  unfold receive
  rw [if_pos rfl]
  refine ⟨(RpcContext.sameRequests_onResponseReceived d.ctx env host resp).owner,
    fun hs => hs.onResponseReceived env host resp, ?_⟩
  intro op hop
  obtain ⟨op', hop', ⟨sent, hsent, hhost, hready⟩ | ⟨hnone, hready, hid, hresp⟩⟩ :=
    RpcContext.onResponseReceived_own env host hop
  · exact ⟨op', hop', Or.inl ⟨by simp [hsent, hhost], by simp [hsent], hready⟩⟩
  · exact ⟨op', hop', Or.inr ⟨by simp [hnone], by simp [hnone, hop'], hready, hid, hresp⟩⟩

theorem Progress.of_same {host : String} {d d₁ d₂ d' : Delivery} (h : Progress q host resp d₁ d₂)
    (hs : SameCall q d d₁) (hs' : SameCall q d₂ d') : Progress q host resp d d' := by
  refine ⟨hs'.owner.trans (h.owner.trans hs.owner), fun hd => hs'.sound (h.sound (hs.sound hd)), ?_⟩
  intro op hop
  obtain ⟨op', hop', hout⟩ := h.outcome op (hs.op.trans hop)
  refine ⟨op', hs'.op.trans hop', ?_⟩
  rw [hs'.unanswered, hs'.completions, ← hs.unanswered, ← hs.completions]
  exact hout

theorem receiveAll_other (env : RpcEnv) (host : String) (d : Delivery) {resps : List RpcResponse}
    (hne : ∀ resp ∈ resps, resp.requestId ≠ q) : SameCall q d (resps.foldl (receive q env host) d) := by
  induction resps generalizing d with
  | nil => exact SameCall.refl q d
  | cons resp resps ih =>
    have hhead := receive_other env host d (hne resp (by simp))
    exact hhead.trans (ih _ fun resp' hmem => hne resp' (by simp [hmem]))

theorem receiveAll_own (env : RpcEnv) (host : String) (d : Delivery) {resps : List RpcResponse}
    (h : resps.filter (fun r => r.requestId = q) = [resp]) :
    Progress q host resp d (resps.foldl (receive q env host) d) := by
  induction resps generalizing d with
  | nil => simp at h
  | cons r resps ih =>
    by_cases hid : r.requestId = q
    · simp only [List.filter_cons, hid, decide_true, if_true, List.cons.injEq] at h
      obtain ⟨rfl, hnil⟩ := h
      have hrest : ∀ r' ∈ resps, r'.requestId ≠ q := by
        intro r' hmem
        simpa using List.filter_eq_nil_iff.mp hnil r' hmem
      exact (receive_own env host d hid).of_same (SameCall.refl q d) (receiveAll_other env host _ hrest)
    · simp only [List.filter_cons, hid, decide_false, Bool.false_eq_true, if_false] at h
      exact (ih (d.receive q env host r) h).of_same (receive_other env host d hid)
        (SameCall.refl q _)

end Delivery

inductive CallerPhase where
  | running (host : String)
  | moving (state : RpcMigrationState)
deriving DecidableEq

def CallerPhase.here : CallerPhase → Option String
  | .running host => some host
  | .moving _ => none

structure CallerFetch where
  hop : Nat
  origin : String
  fetch : RpcFetchRequest
deriving DecidableEq

/-- The hosts of a caller and what is on its way between them. `unanswered` has the reply hosts
of the invocations of the request that the service has not answered. Of the history,
`answers` are the answers to the request, `completions` the responses that have completed it
and `dropped` those that a host has dropped; `departed` has the caller's last migration away
from a host it is not on, and `arrived` where a migration led. -/
structure CallerSystem where
  hosts : String → RpcContextRegistry RpcContext := fun _ => {}
  phase : CallerPhase
  unanswered : List String := []
  responses : List (String × RpcResponse) := []
  fetches : List CallerFetch := []
  answers : List RpcResponse := []
  completions : List RpcResponse := []
  dropped : List RpcResponse := []
  hop : Nat := 0
  departed : String → Option Nat := fun _ => none
  arrived : Nat → String := fun _ => ""

inductive CallerAction where
  | answer (i : Nat) (statusCode : Int) (payload errorMessage : String)
  | answerOther (host : String) (resp : RpcResponse)
  | recvResponse (i : Nat) (now : Int) (env : RpcEnv)
  | recvFetch (i : Nat) (now : Int)
  | serializeMigrationState (now : Int)
  | restore (host : String) (now : Int) (env : RpcEnv)

namespace CallerSystem

def start (owner : RpcAppMsgIds) (q : Nat) (home : String) (ctx : RpcContext) (now ttl : Int) :
    CallerSystem where
  hosts := Function.update (fun _ => {}) home
    ((RpcContextRegistry.registerContext {} owner ctx).registerInFlightRequest now q owner ttl)
  phase := .running home
  unanswered := [home]

def receiveResponse (q : Nat) (s : CallerSystem) (i : Nat) (now : Int) (env : RpcEnv) (host : String)
    (resp : RpcResponse) : CallerSystem :=
  match (s.hosts host).routeResponse now resp.requestId resp with
  | (.deliver owner ctx, reg) =>
    let d := Delivery.receive q env host
      { unanswered := s.unanswered, completions := s.completions, ctx } resp
    { s with
      hosts := Function.update s.hosts host (reg.registerContext owner d.ctx)
      responses := s.responses.eraseIdx i
      unanswered := d.unanswered
      completions := d.completions }
  | (.forward fetch, reg) =>
    { s with
      hosts := Function.update s.hosts host reg
      responses := s.responses.eraseIdx i ++ [(fetch.host, resp)] }
  | (.cached, reg) =>
    { s with
      hosts := Function.update s.hosts host reg
      responses := s.responses.eraseIdx i }
  | (.drop, reg) =>
    { s with
      hosts := Function.update s.hosts host reg
      responses := s.responses.eraseIdx i
      dropped := if resp.requestId = q then s.dropped ++ [resp] else s.dropped }

def receiveFetch (s : CallerSystem) (i : Nat) (now : Int) (f : CallerFetch) : CallerSystem :=
  let r := (s.hosts f.origin).recvFetch now f.fetch
  { s with
    hosts := Function.update s.hosts f.origin r.2
    fetches := s.fetches.eraseIdx i
    responses := s.responses ++ r.1.toList.map fun resp => (f.fetch.replyHost, resp) }

def fetchesOf (state : RpcMigrationState) (hop : Nat) (host : String) : List CallerFetch :=
  if state.originHost = "" ∨ state.originHost = host then []
  else
    (state.pendingRequests.filter fun pending => pending.cachedStatusCode = kNoCachedRespStatus).map
      fun pending =>
        { hop, origin := state.originHost
          fetch := { requestId := pending.requestId, replyHost := host, replyPort := RPC_ASYNC_PORT } }

def arriveAt (owner : RpcAppMsgIds) (q : Nat) (s : CallerSystem) (host : String) (now : Int)
    (env : RpcEnv) (state : RpcMigrationState) (ctx : RpcContext) : CallerSystem :=
  let r := (s.hosts host).registerRestoredContext now owner ctx state
  let d := r.1.foldl (Delivery.receive q env host)
    { unanswered := s.unanswered, completions := s.completions, ctx }
  { s with
    hosts := Function.update s.hosts host (r.2.registerContext owner d.ctx)
    phase := .running host
    unanswered := d.unanswered
    completions := d.completions
    fetches := s.fetches ++ fetchesOf state s.hop host
    departed := Function.update s.departed host none
    arrived := Function.update s.arrived s.hop host }

end CallerSystem

def CallerAction.step (owner : RpcAppMsgIds) (q : Nat) (s : CallerSystem) : CallerAction → CallerSystem
  | .answer i statusCode payload errorMessage =>
    match s.unanswered[i]? with
    | some host =>
      let resp : RpcResponse := { requestId := q, statusCode, payload, errorMessage }
      { s with
        unanswered := s.unanswered.eraseIdx i
        responses := s.responses ++ [(host, resp)]
        answers := s.answers ++ [resp] }
    | none => s
  | .answerOther host resp =>
    if resp.requestId = q then s else { s with responses := s.responses ++ [(host, resp)] }
  | .recvResponse i now env =>
    match s.responses[i]? with
    | some (host, resp) => s.receiveResponse q i now env host resp
    | none => s
  | .recvFetch i now =>
    match s.fetches[i]? with
    | some f => s.receiveFetch i now f
    | none => s
  | .serializeMigrationState now =>
    match s.phase with
    | .running host =>
      match (s.hosts host).contextByKey[owner]? with
      | some ctx =>
        { s with
          hosts := Function.update s.hosts host (ctx.setupForwarding now (s.hosts host))
          phase := .moving (ctx.serializeMigrationState now host)
          hop := s.hop + 1
          departed := Function.update s.departed host (some (s.hop + 1)) }
      | none => s
    | .moving _ => s
  | .restore host now env =>
    match s.phase with
    | .moving state =>
      match RpcContext.deserializeMigrationState env now state (RpcContext.new owner) with
      | .ok ctx => if host = "" then s else s.arriveAt owner q host now env state ctx
      | .error _ => s
    | .running _ => s

end Faabric
