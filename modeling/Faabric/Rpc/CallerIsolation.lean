import Faabric.Rpc.RequestIds

/-! The callers of one host share a registry that is keyed by request ids alone. Responses
reach the caller that asked as long as no two callers have the same id in use. -/

namespace Faabric

open Std (ExtTreeMap)
open RpcContextRegistry RpcContext MapTotal History

structure HostCall where
  owner : RpcAppMsgIds
  number : Nat
  requestId : Nat
deriving DecidableEq, Repr

/-- The registry of a host with its contexts, the calls they have made, the call that each
outstanding request belongs to, the calls whose answers are on their way, and for every
response delivered who had asked and who got it. -/
structure HostCalls where
  registry : RpcContextRegistry RpcContext := {}
  made : RpcAppMsgIds → Nat := fun _ => 0
  calls : List HostCall := []
  callOf : RpcAppMsgIds → Nat → Option Nat := fun _ _ => none
  awaited : List Nat := []
  delivered : List (RpcAppMsgIds × RpcAppMsgIds) := []

inductive HostCallAction where
  | registerContext (owner : RpcAppMsgIds)
  | createChannel (owner : RpcAppMsgIds) (env : RpcEnv) (targetUri : String)
  | closeChannel (owner : RpcAppMsgIds) (channelId : Int)
  | startUnary (owner : RpcAppMsgIds) (env : RpcEnv) (host : String) (now channelId : Int)
      (method payload : String) (timeoutMs : Int)
  | deliver (i : Nat) (now : Int) (env : RpcEnv) (host : String) (statusCode : Int)
      (payload errorMessage : String)
  | testResponse (owner : RpcAppMsgIds) (now : Int) (requestId : Nat)
  | getResponse (owner : RpcAppMsgIds) (now : Int) (requestId : Nat)

namespace HostCalls

def setContext (s : HostCalls) (owner : RpcAppMsgIds) (ctx : RpcContext) : HostCalls :=
  { s with registry := s.registry.registerContext owner ctx }

def issue (s : HostCalls) (owner : RpcAppMsgIds) (now : Int) (requestId : Nat) (sent : Bool)
    (ctx : RpcContext) : HostCalls :=
  { s with
    registry := (s.registry.registerContext owner ctx).registerInFlightRequest now requestId owner
      kDefaultRpcRequestTtl
    made := fun o => if o = owner then s.made owner + 1 else s.made o
    calls := s.calls ++ [{ owner, number := s.made owner, requestId }]
    callOf := fun o q =>
      if o = owner ∧ q = requestId ∧ s.callOf o q = none then some s.calls.length else s.callOf o q
    awaited := if sent then s.awaited ++ [s.calls.length] else s.awaited }

def consume (s : HostCalls) (owner : RpcAppMsgIds) (requestId : Nat) (ctx : RpcContext) : HostCalls :=
  { s with
    registry := (s.registry.registerContext owner ctx).clearRequestLocked requestId
    callOf := fun o q => if o = owner ∧ q = requestId then none else s.callOf o q }

def deliver (s : HostCalls) (i : Nat) (now : Int) (env : RpcEnv) (host : String) (call : HostCall)
    (resp : RpcResponse) : HostCalls :=
  match s.registry.routeResponse now resp.requestId resp with
  | (.deliver owner ctx, registry) =>
    let r := ctx.onResponseReceived env host resp
    { s with
      registry := registry.registerContext owner r.2
      awaited := s.awaited.eraseIdx i ++ if r.1.isSome then (s.callOf owner resp.requestId).toList else []
      delivered := s.delivered ++ [(call.owner, owner)] }
  | (_, registry) => { s with registry, awaited := s.awaited.eraseIdx i }

end HostCalls

/-- A call that throws changes nothing. -/
def HostCallAction.step (s : HostCalls) : HostCallAction → HostCalls
  | .registerContext owner =>
    match s.registry.contextByKey[owner]? with
    | none => s.setContext owner (new owner)
    | some _ => s
  | .createChannel owner env targetUri =>
    match s.registry.contextByKey[owner]? with
    | none => s
    | some ctx =>
      match ctx.createChannel env targetUri with
      | .ok r => s.setContext owner r.2
      | .error _ => s
  | .closeChannel owner channelId =>
    match s.registry.contextByKey[owner]? with
    | none => s
    | some ctx => s.setContext owner (ctx.closeChannel channelId)
  | .startUnary owner env host now channelId method payload timeoutMs =>
    match s.registry.contextByKey[owner]? with
    | none => s
    | some ctx =>
      match ctx.startUnary env host now channelId method payload timeoutMs with
      | .ok r => s.issue owner now r.1 r.2.1.isSome r.2.2
      | .error _ => s
  | .deliver i now env host statusCode payload errorMessage =>
    match s.awaited[i]?.bind fun k => s.calls[k]? with
    | none => s
    | some call =>
      s.deliver i now env host call { requestId := call.requestId, statusCode, payload, errorMessage }
  | .testResponse owner now requestId =>
    match s.registry.contextByKey[owner]? with
    | none => s
    | some ctx => s.setContext owner (ctx.testResponse now requestId).2
  | .getResponse owner now requestId =>
    match s.registry.contextByKey[owner]? with
    | none => s
    | some ctx =>
      match ctx.getResponse now requestId with
      | (none, ctx) => s.setContext owner ctx
      | (some _, ctx) => s.consume owner requestId ctx

namespace HostCalls

def Live (s : HostCalls) (k : Nat) (call : HostCall) : Prop :=
  k ∈ s.awaited ∨ s.callOf call.owner call.requestId = some k

instance (s : HostCalls) (k : Nat) (call : HostCall) : Decidable (s.Live k call) :=
  inferInstanceAs (Decidable (_ ∨ _))

def idPosition (owner : RpcAppMsgIds) (number : Nat) : Nat :=
  ((owner.msgId % 65536).toNat * 65536 + number) % uint32Size

/-- The owner's next call does not fall on the position of a live call of another owner. -/
def PositionFree (s : HostCalls) (owner : RpcAppMsgIds) : Prop :=
  ∀ k ∈ List.range s.calls.length, ∀ call ∈ s.calls[k]?, s.Live k call → call.owner ≠ owner →
    idPosition owner (s.made owner) ≠ idPosition call.owner call.number

instance (s : HostCalls) (owner : RpcAppMsgIds) : Decidable (s.PositionFree owner) := by
  unfold PositionFree
  infer_instance

def KeepsApart (s : HostCalls) : HostCallAction → Prop
  | .startUnary owner .. => s.PositionFree owner
  | _ => True

instance (s : HostCalls) (action : HostCallAction) : Decidable (s.KeepsApart action) := by
  cases action <;> unfold KeepsApart <;> infer_instance

def contextOf (s : HostCalls) (o : RpcAppMsgIds) : RpcContext :=
  s.registry.contextByKey[o]?.getD (new o)

structure Isolated (s : HostCalls) : Prop where
  owners : ∀ o, (s.contextOf o).owner = o
  tracks : ∀ o, (s.contextOf o).Tracks (s.made o) (s.callOf o)
  ids : ∀ (k : Nat) call, s.calls[k]? = some call →
    call.requestId = (firstRequestId call.owner + call.number) % uint32Size
  named : ∀ o q k, s.callOf o q = some k →
    ∃ call, s.calls[k]? = some call ∧ call.owner = o ∧ call.requestId = q
  sent : ∀ k ∈ s.awaited, ∃ call, s.calls[k]? = some call
  apart : ∀ (k k' : Nat) call call', s.calls[k]? = some call → s.calls[k']? = some call' →
    s.Live k call → s.Live k' call' → call.requestId = call'.requestId → call.owner = call'.owner
  routes : ∀ (q : Nat) r, s.registry.requests[q]? = some r → ∃ k, s.callOf r.owner q = some k
  receivers : ∀ e ∈ s.delivered, e.1 = e.2

variable {s : HostCalls} {o : RpcAppMsgIds} {ctx : RpcContext}

theorem contextOf_eq (h : s.registry.contextByKey[o]? = some ctx) : s.contextOf o = ctx := by
  rw [contextOf, h, Option.getD_some]

theorem contextOf_insert {t : HostCalls} {c : RpcContext}
    (h : t.registry.contextByKey = s.registry.contextByKey.insert o c) (o' : RpcAppMsgIds) :
    t.contextOf o' = if o' = o then c else s.contextOf o' := by
  rw [contextOf, h, getElem?_insert_ite]
  by_cases he : o' = o
  · simp [he]
  · simp [he, Ne.symm he, contextOf]

theorem Isolated.setContext (h : Isolated s) (hsame : RpcContext.SameRequests (s.contextOf o) ctx) :
    Isolated (s.setContext o ctx) := by
  have hctx := contextOf_insert (s := s) (t := s.setContext o ctx) rfl
  refine { h with owners := fun o' => ?_, tracks := fun o' => ?_ } <;> rw [hctx o'] <;> split_ifs with he
  · subst he
    exact hsame.owner.trans (h.owners o')
  · exact h.owners o'
  · subst he
    exact (h.tracks o').same hsame
  · exact h.tracks o'

theorem Isolated.next_ne (h : Isolated s) (hok : s.PositionFree o) {k : Nat} {call : HostCall}
    (hk : s.calls[k]? = some call) (hlive : s.Live k call) (hne : call.owner ≠ o) :
    call.requestId ≠ (s.contextOf o).nextRequestId := by
  have hlen : k < s.calls.length := (List.getElem?_eq_some_iff.mp hk).1
  have hfree := hok k (List.mem_range.mpr hlen) call hk hlive hne
  rw [h.ids k call hk, (h.tracks o).next, h.owners o]
  intro he
  have hmod : (call.owner.msgId % 65536).toNat * 65536 + call.number + 1 ≡
      (o.msgId % 65536).toNat * 65536 + s.made o + 1 [MOD uint32Size] := by
    unfold firstRequestId at he
    rw [Nat.add_right_comm, Nat.add_right_comm (_ * 65536) 1 (s.made o)] at he
    exact he
  exact hfree (Nat.ModEq.add_right_cancel' 1 hmod).symm

theorem callOf_issue (s : HostCalls) (o : RpcAppMsgIds) (now : Int) (id : Nat) (sent : Bool) (ctx : RpcContext)
    (o' : RpcAppMsgIds) (q : Nat) : (s.issue o now id sent ctx).callOf o' q =
      if o' = o ∧ q = id ∧ s.callOf o' q = none then some s.calls.length else s.callOf o' q := rfl

theorem Live.of_issue {k id : Nat} {call : HostCall} {now : Int} {sent : Bool} (hk : s.calls[k]? = some call)
    (h : (s.issue o now id sent ctx).Live k call) : s.Live k call := by
  have hlt : k < s.calls.length := (List.getElem?_eq_some_iff.mp hk).1
  rcases h with h | h
  · exact Or.inl ((mem_snoc_if h).resolve_right hlt.ne)
  · rw [callOf_issue] at h
    split_ifs at h
    · exact absurd (Option.some.inj h).symm hlt.ne
    · exact Or.inr h

theorem Isolated.issue (h : Isolated s) (hok : s.PositionFree o) (now : Int) (op : RpcOp) (sent : Bool)
    (hsame : RpcContext.SameRequests ((s.contextOf o).allot op) ctx) :
    Isolated (s.issue o now (s.contextOf o).nextRequestId sent ctx) := by
  set id := (s.contextOf o).nextRequestId with hid
  set s' := s.issue o now id sent ctx with hs'
  have hctx := contextOf_insert (s := s) (t := s') (o := o) (c := ctx) rfl
  have hold {k : Nat} {call : HostCall} (hk : s.calls[k]? = some call) : s'.calls[k]? = some call :=
    getElem?_snoc.mpr (Or.inl hk)
  have hnew : s'.calls[s.calls.length]? = some { owner := o, number := s.made o, requestId := id } :=
    getElem?_snoc.mpr (Or.inr ⟨rfl, rfl⟩)
  have hkept {o' : RpcAppMsgIds} {q k : Nat} (hk : s.callOf o' q = some k) : s'.callOf o' q = some k := by
    simp [hs', callOf_issue, hk]
  -- the new call has an id that no live call of another owner has
  have hfresh {k : Nat} {call : HostCall} (hk : s.calls[k]? = some call) (hlive : s'.Live k call)
      (he : call.requestId = id) : call.owner = o := by
    by_contra hne
    exact h.next_ne hok hk (hlive.of_issue hk) hne he
  refine ⟨fun o' => ?_, fun o' => ?_, ?_, ?_, ?_, ?_, ?_, h.receivers⟩
  · rw [hctx o']
    split_ifs with he
    · exact he ▸ hsame.owner.trans (h.owners o)
    · exact h.owners o'
  · rw [hctx o']
    split_ifs with he
    · subst he
      simpa [hs', HostCalls.issue] using (h.tracks o').allot hsame s.calls.length
    · simpa [hs', HostCalls.issue, he] using h.tracks o'
  · intro k call hk
    rcases getElem?_snoc.mp hk with hk | ⟨-, rfl⟩
    · exact h.ids k call hk
    · exact (h.tracks o).next.trans (by rw [h.owners o])
  · intro o' q k hk
    rw [hs', callOf_issue] at hk
    split_ifs at hk with hh
    · obtain rfl := Option.some.inj hk
      exact ⟨_, hnew, hh.1.symm, hh.2.1.symm⟩
    · exact (h.named o' q k hk).imp fun call hcall => ⟨hold hcall.1, hcall.2⟩
  · intro k hk
    rcases mem_snoc_if hk with hmem | rfl
    · exact (h.sent k hmem).imp fun _ => hold
    · exact ⟨_, hnew⟩
  · intro k k' call call' hk hk' hl hl' he
    rcases getElem?_snoc.mp hk with hk₁ | ⟨-, rfl⟩ <;> rcases getElem?_snoc.mp hk' with hk₂ | ⟨-, rfl⟩
    · exact h.apart k k' call call' hk₁ hk₂ (hl.of_issue hk₁) (hl'.of_issue hk₂) he
    · exact hfresh hk₁ hl he
    · exact (hfresh hk₂ hl' he.symm).symm
    · rfl
  · intro q r hr
    simp only [hs', HostCalls.issue, registerInFlightRequest,
      registerContext, getElem?_insert_ite] at hr
    split_ifs at hr with he
    · obtain rfl := Option.some.inj hr
      cases hc : s.callOf o q with
      | none => exact ⟨s.calls.length, by simp [hs', callOf_issue, hc, he]⟩
      | some k => exact ⟨k, hkept hc⟩
    · exact (h.routes q r hr).imp fun _ => hkept

theorem Isolated.consume (h : Isolated s) (q : Nat) :
    Isolated (s.consume o q ((s.contextOf o).eraseRequest q)) := by
  set s' := s.consume o q ((s.contextOf o).eraseRequest q) with hs'
  have hctx := contextOf_insert (s := s) (t := s') (o := o) (c := (s.contextOf o).eraseRequest q) rfl
  have hless {o' : RpcAppMsgIds} {q' k : Nat} (hk : s'.callOf o' q' = some k) : s.callOf o' q' = some k := by
    simp only [hs', HostCalls.consume] at hk
    split_ifs at hk
    exact hk
  refine { h with
    owners := fun o' => ?_
    tracks := fun o' => ?_
    named := fun o' q' k hk => h.named o' q' k (hless hk)
    apart := fun k k' call call' hk hk' hl hl' =>
      h.apart k k' call call' hk hk' (hl.imp id hless) (hl'.imp id hless)
    routes := fun q' r hr => ?_ }
  · rw [hctx o']
    split_ifs with he
    · exact he ▸ h.owners o
    · exact h.owners o'
  · rw [hctx o']
    split_ifs with he
    · subst he
      simpa [hs', HostCalls.consume] using (h.tracks o').erase q
    · simpa [hs', HostCalls.consume, he] using h.tracks o'
  · by_cases he : q = q'
    · simp [hs', HostCalls.consume, clearRequestLocked, he] at hr
    · obtain ⟨k, hk⟩ := h.routes q' r (by
        simpa [hs', HostCalls.consume, clearRequestLocked,
          registerContext, he] using hr)
      exact ⟨k, by simpa [hs', HostCalls.consume, Ne.symm he] using hk⟩

theorem routeResponse_frame {Context : Type} (reg : RpcContextRegistry Context) (now : Int) (q : Nat)
    (resp : RpcResponse) :
    (reg.routeResponse now q resp).2.contextByKey = reg.contextByKey ∧
      (∀ (q' : Nat) r, (reg.routeResponse now q resp).2.requests[q']? = some r →
        reg.requests[q']? = some r) ∧
      ∀ o ctx, (reg.routeResponse now q resp).1 = .deliver o ctx →
        reg.contextByKey[o]? = some ctx ∧ ∃ r, reg.requests[q]? = some r ∧ r.owner = o := by
  by_cases hlive : reg.Unexpired now q
  · rcases routeResponse_cases hlive resp with
      ⟨r, ctx, hr, hctx, he⟩ | ⟨r, fetch, -, -, -, he⟩ | ⟨r, -, -, -, he⟩
    · rw [he]
      refine ⟨rfl, fun q' r hr => hr, ?_⟩
      intro o c hd
      obtain ⟨rfl, rfl⟩ := ResponseRoute.deliver.inj hd
      exact ⟨hctx, r, hr, rfl⟩
    · rw [he]
      exact ⟨rfl, fun q' r hr => hr, by simp⟩
    · rw [he]
      exact ⟨rfl, fun q' r hr => hr, by simp⟩
  · cases hr : reg.requests[q]? with
    | none =>
      have he : reg.routeResponse now q resp = (.drop, reg) := by
        simp [routeResponse, expireRequestIfNeeded, hr]
      rw [he]
      exact ⟨rfl, fun q' r hr => hr, by simp⟩
    | some r =>
      have hexpired : ¬ now < r.expiresAt := fun hnow => hlive ⟨r, by simp [hr], hnow⟩
      have he : reg.routeResponse now q resp = (.drop, reg.clearRequestLocked q) := by
        simp [routeResponse, expireRequestIfNeeded, hr, hexpired]
      rw [he]
      refine ⟨rfl, ?_, by simp⟩
      intro q' r' hr'
      by_cases heq : q = q'
      · simp [clearRequestLocked, heq] at hr'
      · simpa [clearRequestLocked, heq] using hr'

theorem Isolated.of_fewer (h : Isolated s) {registry : RpcContextRegistry RpcContext} {awaited : List Nat}
    (hc : registry.contextByKey = s.registry.contextByKey)
    (hr : ∀ (q : Nat) r, registry.requests[q]? = some r → s.registry.requests[q]? = some r)
    (ha : ∀ k ∈ awaited, ∃ call, s.calls[k]? = some call ∧ s.Live k call) :
    Isolated { s with registry, awaited } := by
  have hlive (k : Nat) (call : HostCall) (hk : s.calls[k]? = some call)
      (hl : Live { s with registry, awaited } k call) : s.Live k call := by
    rcases hl with hl | hl
    · obtain ⟨call', hcall', hlive'⟩ := ha k hl
      obtain rfl := Option.some.inj (hk.symm.trans hcall')
      exact hlive'
    · exact Or.inr hl
  have hctx (o : RpcAppMsgIds) : contextOf { s with registry, awaited } o = s.contextOf o := by
    simp only [contextOf, hc]
  exact { h with
    owners := fun o => (hctx o).symm ▸ h.owners o
    tracks := fun o => (hctx o).symm ▸ h.tracks o
    sent := fun k hk => (ha k hk).imp fun _ => And.left
    apart := fun k k' call call' hk hk' hl hl' =>
      h.apart k k' call call' hk hk' (hlive k call hk hl) (hlive k' call' hk' hl')
    routes := fun q r hq => h.routes q r (hr q r hq) }

theorem Isolated.awaited_live (h : Isolated s) {i : Nat} :
    ∀ k ∈ s.awaited.eraseIdx i, ∃ call, s.calls[k]? = some call ∧ s.Live k call := by
  intro k hk
  have hmem := List.mem_of_mem_eraseIdx hk
  obtain ⟨call, hcall⟩ := h.sent k hmem
  exact ⟨call, hcall, Or.inl hmem⟩

theorem Isolated.receiver (h : Isolated s) {i k : Nat} {call : HostCall} (hi : s.awaited[i]? = some k)
    (hk : s.calls[k]? = some call) {r : InFlightRequest} (hr : s.registry.requests[call.requestId]? = some r) :
    call.owner = r.owner := by
  obtain ⟨k', hk'⟩ := h.routes _ r hr
  obtain ⟨call', hcall', howner, hid⟩ := h.named _ _ _ hk'
  have hlive' : s.Live k' call' := Or.inr (by rw [howner, hid]; exact hk')
  rw [← howner]
  exact h.apart k k' call call' hk hcall' (Or.inl (List.mem_of_getElem? hi)) hlive' hid.symm

theorem Isolated.deliver (h : Isolated s) {i k : Nat} {call : HostCall} (now : Int) (env : RpcEnv)
    (host : String) (resp : RpcResponse) (hi : s.awaited[i]? = some k) (hk : s.calls[k]? = some call)
    (hid : resp.requestId = call.requestId) : Isolated (s.deliver i now env host call resp) := by
  obtain ⟨hctxs, hreqs, hroute⟩ := routeResponse_frame s.registry now resp.requestId resp
  unfold HostCalls.deliver
  split
  · rename_i o ctx registry he
    rw [he] at hctxs hreqs hroute
    obtain ⟨hctx, r, hr, hrowner⟩ := hroute o ctx rfl
    have hsame := sameRequests_onResponseReceived ctx env host resp
    have howner : call.owner = o := hrowner ▸ h.receiver hi hk (hid ▸ hr)
    -- a retry is sent for a call that is outstanding anyway
    have hawaited : ∀ k' ∈ s.awaited.eraseIdx i ++
        (if (ctx.onResponseReceived env host resp).1.isSome then (s.callOf o resp.requestId).toList
          else []), ∃ call', s.calls[k']? = some call' ∧ s.Live k' call' := by
      intro k' hk'
      rcases List.mem_append.mp hk' with hk' | hk'
      · exact h.awaited_live k' hk'
      · split_ifs at hk'
        · have hcall := Option.mem_toList.mp hk'
          obtain ⟨call', hcall', ho, hq⟩ := h.named _ _ _ hcall
          exact ⟨call', hcall', Or.inr (by rw [ho, hq]; exact hcall)⟩
        · simp at hk'
    have hctx' : registry.contextByKey[o]?.getD (new o) = ctx := by
      rw [show registry.contextByKey = s.registry.contextByKey from hctxs, hctx, Option.getD_some]
    refine { (h.of_fewer hctxs hreqs hawaited).setContext (hctx'.symm ▸ hsame) with
      receivers := fun e he' => ?_ }
    rcases List.mem_append.mp he' with hold | hnew
    · exact h.receivers e hold
    · obtain rfl := List.mem_singleton.mp hnew
      exact howner
  · rename_i route registry hne he
    rw [he] at hctxs hreqs
    exact h.of_fewer hctxs hreqs h.awaited_live

theorem isolated_step (s : HostCalls) (action : HostCallAction) (h : Isolated s)
    (hok : s.KeepsApart action) : Isolated (action.step s) := by
  have hset {o : RpcAppMsgIds} {ctx ctx' : RpcContext} (hc : s.registry.contextByKey[o]? = some ctx)
      (hsame : RpcContext.SameRequests ctx ctx') : Isolated (s.setContext o ctx') :=
    h.setContext ((contextOf_eq hc).symm ▸ hsame)
  cases action with
  | registerContext o =>
    simp only [HostCallAction.step]
    cases hc : s.registry.contextByKey[o]? with
    | none =>
      apply h.setContext
      rw [contextOf, hc]
      exact RpcContext.SameRequests.refl _
    | some ctx => exact h
  | createChannel o env uri =>
    simp only [HostCallAction.step]
    cases hc : s.registry.contextByKey[o]? with
    | none => exact h
    | some ctx =>
      dsimp only
      cases hch : ctx.createChannel env uri with
      | error e => exact h
      | ok r => exact hset hc (sameRequests_createChannel hch)
  | closeChannel o channelId =>
    simp only [HostCallAction.step]
    cases hc : s.registry.contextByKey[o]? with
    | none => exact h
    | some ctx => exact hset hc ⟨rfl, rfl, fun _ => Iff.rfl⟩
  | startUnary o env host now channelId method payload timeoutMs =>
    simp only [HostCallAction.step]
    cases hc : s.registry.contextByKey[o]? with
    | none => exact h
    | some ctx =>
      dsimp only
      cases hs : ctx.startUnary env host now channelId method payload timeoutMs with
      | error e => exact h
      | ok r =>
        obtain ⟨hid, hsame⟩ := startUnary_requests hs
        rw [← contextOf_eq hc] at hid hsame
        simp only [hid]
        exact h.issue hok now _ _ hsame
  | deliver i now env host statusCode payload errorMessage =>
    simp only [HostCallAction.step]
    cases hb : s.awaited[i]?.bind fun k => s.calls[k]? with
    | none => exact h
    | some call =>
      obtain ⟨k, hi, hk⟩ := Option.bind_eq_some_iff.mp hb
      exact h.deliver now env host _ hi hk rfl
  | testResponse o now q =>
    simp only [HostCallAction.step]
    cases hc : s.registry.contextByKey[o]? with
    | none => exact h
    | some ctx => exact hset hc (sameRequests_testResponse ctx now q)
  | getResponse o now q =>
    simp only [HostCallAction.step]
    cases hc : s.registry.contextByKey[o]? with
    | none => exact h
    | some ctx =>
      have hresp := getResponse_requests ctx now q
      rcases hr : ctx.getResponse now q with ⟨_ | resp, ctx'⟩
      · rw [hr] at hresp
        simp only [hr]
        exact hset hc (hresp.resolve_right (by simp)).2
      · rw [hr] at hresp
        obtain rfl := (hresp.resolve_left (by simp)).2
        simp only [hr]
        exact contextOf_eq hc ▸ h.consume q

theorem isolated_empty : Isolated {} := by
  refine ⟨?_, fun o => ?_, ?_, ?_, ?_, ?_, ?_, ?_⟩
  case refine_2 => simpa [contextOf] using tracks_new o
  all_goals simp [contextOf, new, owner]

end HostCalls

open HostCalls

/-- On a host whose callers never call at the position of a live call of another caller,
outstanding requests of different callers have different ids, and every response is
delivered to the caller that asked. -/
theorem callers_isolated {actions : List HostCallAction} {s : HostCalls}
    (hok : GuardedRun.Meets HostCallAction.step KeepsApart {} actions)
    (hs : s = GuardedRun.run HostCallAction.step {} actions) :
    (∀ (o o' : RpcAppMsgIds) (ctx ctx' : RpcContext) (q : Nat),
      s.registry.contextByKey[o]? = some ctx → s.registry.contextByKey[o']? = some ctx' → o ≠ o' →
      ctx.ops[q]? = none ∨ ctx'.ops[q]? = none) ∧
    (∀ e ∈ s.delivered, e.1 = e.2) := by
  subst hs
  have h := hok.invariant isolated_step isolated_empty
  refine ⟨?_, h.receivers⟩
  intro o o' ctx ctx' q hctx hctx' hne
  rw [← contextOf_eq hctx, ← contextOf_eq hctx', ← (h.tracks o).keys q, ← (h.tracks o').keys q]
  by_contra hboth
  rw [not_or] at hboth
  obtain ⟨k, hk⟩ := Option.ne_none_iff_exists'.mp hboth.1
  obtain ⟨k', hk'⟩ := Option.ne_none_iff_exists'.mp hboth.2
  obtain ⟨call, hcall, rfl, rfl⟩ := h.named o q k hk
  obtain ⟨call', hcall', rfl, hid⟩ := h.named _ _ k' hk'
  exact hne (h.apart k k' call call' hcall hcall' (Or.inr hk) (Or.inr (hid.symm ▸ hk')) hid.symm)

def twoCallers (o o' : RpcAppMsgIds) : List HostCallAction :=
  [.registerContext o, .registerContext o', .createChannel o pingResolver "faabric://ping",
   .createChannel o' pingResolver "faabric://ping",
   .startUnary o pingResolver "A" 0 1 "/faabric.PingSvc/Ping" "one" (-1),
   .startUnary o' pingResolver "A" 0 1 "/faabric.PingSvc/Ping" "two" (-1),
   .deliver 1 5 pingResolver "A" 0 "pong two" "", .deliver 0 6 pingResolver "A" 0 "pong one" ""]

theorem callers_isolated_two :
    let s := GuardedRun.run HostCallAction.step {}
      (twoCallers { appId := 1, msgId := 1 } { appId := 1, msgId := 2 })
    s.delivered.length = 2 ∧ ∀ e ∈ s.delivered, e.1 = e.2 :=
  ⟨by decide +kernel, (@callers_isolated (twoCallers { appId := 1, msgId := 1 } { appId := 1, msgId := 2 }) _
    (by decide +kernel) rfl).2⟩

/-- Two applications whose messages have the same id: both calls get the id 65537, and the
second caller receives both answers. -/
theorem callers_share_request_id :
    (GuardedRun.run HostCallAction.step {}
      (twoCallers { appId := 1, msgId := 1 } { appId := 2, msgId := 1 })).calls =
        [{ owner := { appId := 1, msgId := 1 }, number := 0, requestId := 65537 },
         { owner := { appId := 2, msgId := 1 }, number := 0, requestId := 65537 }] ∧
    (GuardedRun.run HostCallAction.step {}
      (twoCallers { appId := 1, msgId := 1 } { appId := 2, msgId := 1 })).delivered =
        [({ appId := 2, msgId := 1 }, { appId := 2, msgId := 1 }),
         ({ appId := 1, msgId := 1 }, { appId := 2, msgId := 1 })] := by
  decide +kernel

end Faabric
