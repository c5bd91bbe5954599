import Faabric.Lib.History
import Faabric.Rpc.Transparency

/-! The ids of requests. A context counts them up from a seed of its owner, in 32 bits, and
a restored context starts again at the seed. -/

namespace Faabric

open Std (ExtTreeMap)
open MapTotal MapFill History

namespace RpcContext

/-- The same requests are outstanding, and the next one gets the same id. -/
structure SameRequests (old new : RpcContext) : Prop where
  owner : new.owner = old.owner
  next : new.nextRequestId = old.nextRequestId
  keys : ∀ q : Nat, new.ops[q]? = none ↔ old.ops[q]? = none

theorem SameRequests.refl (ctx : RpcContext) : SameRequests ctx ctx :=
  ⟨rfl, rfl, fun _ => Iff.rfl⟩

theorem SameRequests.trans {a b c : RpcContext} (h : SameRequests a b) (h' : SameRequests b c) :
    SameRequests a c :=
  ⟨h'.owner.trans h.owner, h'.next.trans h.next, fun q => (h'.keys q).trans (h.keys q)⟩

theorem sameRequests_setOp {ctx : RpcContext} {q : Nat} {op : RpcOp} (op' : RpcOp)
    (hop : ctx.ops[q]? = some op) : SameRequests ctx (ctx.setOp q op') := by
  refine ⟨rfl, rfl, ?_⟩
  intro q'
  by_cases he : q = q'
  · subst he
    simp [hop]
  · simp [he]

theorem sameRequests_completeUnavailable (ctx : RpcContext) (q : Nat) (what : String) :
    SameRequests ctx (ctx.completeUnavailable q what) := by
  unfold completeUnavailable
  cases hop : ctx.ops[q]? with
  | none => exact SameRequests.refl ctx
  | some op => exact sameRequests_setOp _ hop

theorem sameRequests_retargetChannel (ctx : RpcContext) (c : Int) (endpoint : ServiceEndpoint) :
    SameRequests ctx (ctx.retargetChannel c endpoint) := by
  unfold retargetChannel
  cases ctx.channels[c]? with
  | none => exact SameRequests.refl ctx
  | some info => exact ⟨rfl, rfl, fun _ => Iff.rfl⟩

theorem sameRequests_retry (ctx : RpcContext) (env : RpcEnv) (host : String) (q : Nat) (op : RpcOp) :
    SameRequests ctx (ctx.retryUnaryAfterUnavailable env host q op).2 := by
  rcases retry_cases env host q op ctx with ⟨endpoint, target, req, he, -⟩ | ⟨what, sentCtx, hctx, he⟩
  · rw [he]
    exact sameRequests_retargetChannel ctx _ endpoint
  · rw [he]
    rcases hctx with rfl | ⟨endpoint, rfl⟩
    · exact sameRequests_completeUnavailable _ q what
    · exact (sameRequests_retargetChannel ctx _ endpoint).trans
        (sameRequests_completeUnavailable _ q what)

theorem sameRequests_receiveResponse (ctx : RpcContext) (resp : RpcResponse) :
    SameRequests ctx (ctx.receiveResponse resp).2 := by
  unfold receiveResponse
  cases hop : ctx.ops[resp.requestId]? with
  | none => exact SameRequests.refl ctx
  | some op =>
    dsimp only
    split_ifs
    · exact sameRequests_setOp _ hop
    · exact sameRequests_setOp _ hop

theorem sameRequests_onResponseReceived (ctx : RpcContext) (env : RpcEnv) (host : String)
    (resp : RpcResponse) : SameRequests ctx (ctx.onResponseReceived env host resp).2 := by
  have hr := sameRequests_receiveResponse ctx resp
  unfold onResponseReceived
  split
  · rename_i he
    rw [he] at hr
    exact hr
  · rename_i op ctx' he
    rw [he] at hr
    exact hr.trans (sameRequests_retry ctx' env host resp.requestId op)

theorem sameRequests_testResponse (ctx : RpcContext) (now : Int) (q : Nat) :
    SameRequests ctx (ctx.testResponse now q).2 := by
  unfold testResponse
  cases hop : ctx.ops[q]? with
  | none => exact SameRequests.refl ctx
  | some op => exact sameRequests_setOp _ hop

theorem sameRequests_createChannel {ctx : RpcContext} {env : RpcEnv} {uri : String} {r : Int × RpcContext}
    (h : ctx.createChannel env uri = .ok r) : SameRequests ctx r.2 := by
  unfold createChannel at h
  split at h
  · cases h
  · obtain rfl := Except.ok.inj h
    exact ⟨rfl, rfl, fun _ => Iff.rfl⟩

theorem getResponse_requests (ctx : RpcContext) (now : Int) (q : Nat) :
    ((ctx.getResponse now q).1 = none ∧ SameRequests ctx (ctx.getResponse now q).2) ∨
      ((ctx.getResponse now q).1.isSome = true ∧ (ctx.getResponse now q).2 = ctx.eraseRequest q) := by
  unfold getResponse
  cases hop : ctx.ops[q]? with
  | none => exact Or.inl ⟨rfl, SameRequests.refl ctx⟩
  | some op =>
    dsimp only
    split_ifs
    · exact Or.inr ⟨rfl, rfl⟩
    · exact Or.inl ⟨rfl, sameRequests_setOp _ hop⟩

theorem startUnary_requests {ctx : RpcContext} {env : RpcEnv} {host : String}
    {now channelId timeoutMs : Int} {method payload : String}
    {r : Nat × Option (String × RpcRequest) × RpcContext}
    (h : ctx.startUnary env host now channelId method payload timeoutMs = .ok r) :
    r.1 = ctx.nextRequestId ∧
      SameRequests (ctx.allot (newOp now channelId method payload timeoutMs)) r.2.2 := by
  obtain ⟨hid, -, sentCtx, hctx, hr⟩ := startUnary_cases h
  have hsent : SameRequests (ctx.allot (newOp now channelId method payload timeoutMs)) sentCtx := by
    rcases hctx with rfl | ⟨endpoint, rfl⟩
    · exact SameRequests.refl _
    · exact sameRequests_retargetChannel _ _ endpoint
  refine ⟨hid, ?_⟩
  rcases hr with ⟨he, -⟩ | ⟨-, he⟩
  · exact he ▸ hsent
  · exact he ▸ hsent.trans (sameRequests_completeUnavailable _ _ _)

theorem allot_keys (ctx : RpcContext) (op : RpcOp) (q : Nat) :
    (ctx.allot op).ops[q]? = none ↔ ctx.ops[q]? = none ∧ ctx.nextRequestId ≠ q := by
  simp only [allot, getElem?_insertIfNew_ite]
  by_cases he : ctx.nextRequestId = q
  · cases hop : ctx.ops[q]? <;> simp [he]
  · simp [he]

/-- The context has made so many calls since it was built, and its requests belong to the calls of `callOf`. -/
structure Tracks (ctx : RpcContext) (made : Nat) (callOf : Nat → Option Nat) : Prop where
  next : ctx.nextRequestId = (firstRequestId ctx.owner + made) % uint32Size
  keys : ∀ q : Nat, callOf q = none ↔ ctx.ops[q]? = none

section Tracks

variable {ctx ctx' : RpcContext} {made : Nat} {callOf : Nat → Option Nat}

theorem tracks_next (o : RpcAppMsgIds) : firstRequestId o = (firstRequestId o + 0) % uint32Size := by
  unfold firstRequestId uint32Size
  omega

theorem tracks_new (o : RpcAppMsgIds) : Tracks (new o) 0 fun _ => none :=
  ⟨tracks_next o, by simp [new]⟩

theorem Tracks.same (h : Tracks ctx made callOf) (hsame : SameRequests ctx ctx') : Tracks ctx' made callOf :=
  ⟨by rw [hsame.next, hsame.owner]; exact h.next, fun q => (h.keys q).trans (hsame.keys q).symm⟩

theorem Tracks.allot (h : Tracks ctx made callOf) {op : RpcOp} (hsame : SameRequests (ctx.allot op) ctx') (k : Nat) :
    Tracks ctx' (made + 1) fun q => if q = ctx.nextRequestId ∧ callOf q = none then some k else callOf q := by
  constructor
  · have hsucc : ctx'.nextRequestId = (ctx.nextRequestId + 1) % uint32Size := hsame.next
    have howner : ctx'.owner = ctx.owner := hsame.owner
    rw [hsucc, howner, h.next]
    unfold uint32Size
    omega
  · intro q
    rw [hsame.keys, allot_keys, ← h.keys q]
    by_cases he : q = ctx.nextRequestId
    · cases hc : callOf q <;> simp [he.symm]
    · simp [he, Ne.symm he]

theorem Tracks.erase (h : Tracks ctx made callOf) (q : Nat) :
    Tracks (ctx.eraseRequest q) made fun q' => if q' = q then none else callOf q' := by
  refine ⟨h.next, fun q' => ?_⟩
  by_cases he : q' = q
  · simp [eraseRequest, he]
  · simpa [eraseRequest, he, Ne.symm he] using h.keys q'

end Tracks

end RpcContext

structure IssuedCall where
  requestId : Nat
  number : Nat
  incarnation : Nat
deriving DecidableEq, Repr

/-- A caller's context through its migrations, with the calls it has made, the call that
each outstanding request belongs to, and the calls whose answers are on their way. -/
structure CallHistory where
  ctx : RpcContext
  incarnation : Nat := 0
  made : Nat := 0
  calls : List IssuedCall := []
  callOf : Nat → Option Nat := fun _ => none
  awaited : List Nat := []

inductive HistoryAction where
  | createChannel (env : RpcEnv) (targetUri : String)
  | closeChannel (channelId : Int)
  | startUnary (env : RpcEnv) (host : String) (now channelId : Int) (method payload : String)
      (timeoutMs : Int)
  | respond (i : Nat) (env : RpcEnv) (host : String) (statusCode : Int) (payload errorMessage : String)
  | testResponse (now : Int) (requestId : Nat)
  | getResponse (now : Int) (requestId : Nat)
  | eraseRequest (requestId : Nat)
  | migrate (env : RpcEnv) (now now' : Int) (host : String)

namespace CallHistory

def issue (s : CallHistory) (requestId : Nat) (sent : Bool) (ctx : RpcContext) : CallHistory :=
  { s with
    ctx
    made := s.made + 1
    calls := s.calls ++ [{ requestId, number := s.made, incarnation := s.incarnation }]
    -- `emplace` leaves an operation that is there already, and with it its call
    callOf := fun q =>
      if q = requestId ∧ s.callOf q = none then some s.calls.length else s.callOf q
    awaited := if sent then s.awaited ++ [s.calls.length] else s.awaited }

def forget (s : CallHistory) (requestId : Nat) (ctx : RpcContext) : CallHistory :=
  { s with ctx, callOf := fun q => if q = requestId then none else s.callOf q }

def answer (s : CallHistory) (i requestId : Nat) (retried : Bool) (ctx : RpcContext) : CallHistory :=
  { s with
    ctx
    awaited := s.awaited.eraseIdx i ++ if retried then (s.callOf requestId).toList else [] }

end CallHistory

def HistoryAction.step (s : CallHistory) : HistoryAction → CallHistory
  | .createChannel env targetUri =>
    match s.ctx.createChannel env targetUri with
    | .ok r => { s with ctx := r.2 }
    | .error _ => s
  | .closeChannel channelId => { s with ctx := s.ctx.closeChannel channelId }
  | .startUnary env host now channelId method payload timeoutMs =>
    match s.ctx.startUnary env host now channelId method payload timeoutMs with
    | .ok r => s.issue r.1 r.2.1.isSome r.2.2
    | .error _ => s
  | .respond i env host statusCode payload errorMessage =>
    match s.awaited[i]?.bind fun k => s.calls[k]? with
    | none => s
    | some call =>
      let r := s.ctx.onResponseReceived env host
        { requestId := call.requestId, statusCode, payload, errorMessage }
      s.answer i call.requestId r.1.isSome r.2
  | .testResponse now requestId => { s with ctx := (s.ctx.testResponse now requestId).2 }
  | .getResponse now requestId =>
    match s.ctx.getResponse now requestId with
    | (none, ctx) => { s with ctx }
    | (some _, ctx) => s.forget requestId ctx
  | .eraseRequest requestId => s.forget requestId (s.ctx.eraseRequest requestId)
  | .migrate env now now' host =>
    match RpcContext.deserializeMigrationState env now' (s.ctx.serializeMigrationState now host)
        (RpcContext.new s.ctx.owner) with
    | .ok ctx => { s with ctx, incarnation := s.incarnation + 1, made := 0 }
    | .error _ => s

namespace CallHistory

/-- Before a call, the context has made fewer calls than a context of its owner makes up to
the number of any live call that has been carried over, and fewer than 2^32 since any live
call of its own. -/
def CallsAhead (s : CallHistory) : Prop :=
  ∀ k ∈ List.range s.calls.length, ∀ call ∈ s.calls[k]?,
    (k ∈ s.awaited ∨ s.callOf call.requestId = some k) →
      if call.incarnation = s.incarnation then s.made < call.number + uint32Size
      else s.made < call.number % uint32Size

instance (s : CallHistory) : Decidable s.CallsAhead := by
  unfold CallsAhead
  infer_instance

def KeepsIds (s : CallHistory) : HistoryAction → Prop
  | .startUnary .. => s.CallsAhead
  | _ => True

instance (s : CallHistory) (action : HistoryAction) : Decidable (s.KeepsIds action) := by
  cases action <;> unfold KeepsIds <;> infer_instance

structure Numbered (s : CallHistory) : Prop where
  sound : s.ctx.Sound
  tracks : s.ctx.Tracks s.made s.callOf
  ids : ∀ (k : Nat) call, s.calls[k]? = some call →
    call.requestId = (firstRequestId s.ctx.owner + call.number) % uint32Size
  earlier : ∀ (k : Nat) call, s.calls[k]? = some call → call.incarnation ≤ s.incarnation ∧
    (call.incarnation = s.incarnation → call.number < s.made)
  named : ∀ q k, s.callOf q = some k → ∃ call, s.calls[k]? = some call ∧ call.requestId = q
  own : ∀ k ∈ s.awaited, ∃ call, s.calls[k]? = some call ∧
    ∀ j, s.callOf call.requestId = some j → j = k

variable {s : CallHistory}

theorem Numbered.next_ne (h : Numbered s) (hok : s.CallsAhead) {k : Nat} {call : IssuedCall}
    (hk : s.calls[k]? = some call) (hlive : k ∈ s.awaited ∨ s.callOf call.requestId = some k) :
    call.requestId ≠ s.ctx.nextRequestId := by
  have hlen : k < s.calls.length := (List.getElem?_eq_some_iff.mp hk).1
  have hahead := hok k (List.mem_range.mpr hlen) call hk hlive
  have hearlier := h.earlier k call hk
  rw [h.ids k call hk, h.tracks.next]
  unfold uint32Size at *
  split_ifs at hahead with hinc
  · have := hearlier.2 hinc
    omega
  · omega

theorem Numbered.next_fresh (h : Numbered s) (hok : s.CallsAhead) :
    s.ctx.ops[s.ctx.nextRequestId]? = none := by
  rw [← h.tracks.keys]
  cases hc : s.callOf s.ctx.nextRequestId with
  | none => rfl
  | some k =>
    obtain ⟨call, hcall, hid⟩ := h.named _ k hc
    exact absurd hid (h.next_ne hok hcall (Or.inr (by rw [hid]; exact hc)))

theorem Numbered.sameRequests (h : Numbered s) {ctx : RpcContext} (hs : ctx.Sound)
    (hsame : RpcContext.SameRequests s.ctx ctx) : Numbered { s with ctx } := by
  refine { h with sound := hs, tracks := h.tracks.same hsame, ids := ?_ }
  rw [hsame.owner]
  exact h.ids

theorem Numbered.forget (h : Numbered s) (q : Nat) : Numbered (s.forget q (s.ctx.eraseRequest q)) := by
  have hless {q' k : Nat} (hk : (s.forget q (s.ctx.eraseRequest q)).callOf q' = some k) : s.callOf q' = some k := by
    simp only [CallHistory.forget] at hk
    split_ifs at hk
    exact hk
  refine { h with
    sound := h.sound.eraseRequest q
    tracks := h.tracks.erase q
    named := fun q' k hk => h.named q' k (hless hk)
    own := fun k hk => ?_ }
  obtain ⟨call, hcall, hown⟩ := h.own k hk
  exact ⟨call, hcall, fun j hj => hown j (hless hj)⟩

theorem Numbered.issue (h : Numbered s) (hok : s.CallsAhead) {ctx : RpcContext} (hs : ctx.Sound) (op : RpcOp)
    (sent : Bool) (hsame : RpcContext.SameRequests (s.ctx.allot op) ctx) :
    Numbered (s.issue s.ctx.nextRequestId sent ctx) := by
  have hfree : s.callOf s.ctx.nextRequestId = none := (h.tracks.keys _).mpr (h.next_fresh hok)
  have hcallOf (q : Nat) : (s.issue s.ctx.nextRequestId sent ctx).callOf q =
      if q = s.ctx.nextRequestId then some s.calls.length else s.callOf q := by
    by_cases he : q = s.ctx.nextRequestId
    · simp [CallHistory.issue, he, hfree]
    · simp [CallHistory.issue, he]
  have howner : ctx.owner = s.ctx.owner := hsame.owner
  refine ⟨hs, h.tracks.allot hsame _, ?_, ?_, ?_, ?_⟩
  · intro k call hk
    dsimp only [CallHistory.issue]
    rw [howner]
    rcases getElem?_snoc.mp hk with hk | ⟨-, rfl⟩
    · exact h.ids k call hk
    · exact h.tracks.next
  · intro k call hk
    dsimp only [CallHistory.issue]
    rcases getElem?_snoc.mp hk with hk | ⟨-, rfl⟩
    · have := h.earlier k call hk
      omega
    · simp
  · intro q k hk
    rw [hcallOf] at hk
    split_ifs at hk with he
    · obtain rfl := Option.some.inj hk
      exact ⟨_, getElem?_snoc.mpr (Or.inr ⟨rfl, rfl⟩), he.symm⟩
    · obtain ⟨call, hcall, hid⟩ := h.named q k hk
      exact ⟨call, getElem?_snoc.mpr (Or.inl hcall), hid⟩
  · intro k hk
    rcases mem_snoc_if hk with hk | rfl
    · obtain ⟨call, hcall, hown⟩ := h.own k hk
      refine ⟨call, getElem?_snoc.mpr (Or.inl hcall), fun j hj => ?_⟩
      rw [hcallOf, if_neg (h.next_ne hok hcall (Or.inl hk))] at hj
      exact hown j hj
    · refine ⟨_, getElem?_snoc.mpr (Or.inr ⟨rfl, rfl⟩), fun j hj => ?_⟩
      rw [hcallOf, if_pos rfl] at hj
      exact (Option.some.inj hj).symm

theorem Numbered.answer (h : Numbered s) {i k : Nat} {call : IssuedCall} {ctx : RpcContext} (hs : ctx.Sound)
    (hsame : RpcContext.SameRequests s.ctx ctx) (retried : Bool) (hi : s.awaited[i]? = some k)
    (hk : s.calls[k]? = some call) : Numbered (s.answer i call.requestId retried ctx) := by
  refine { h.sameRequests hs hsame with own := fun k' hk' => ?_ }
  rcases List.mem_append.mp hk' with hmem | hretry
  · exact h.own k' (List.mem_of_mem_eraseIdx hmem)
  · -- the operation that is retried is the call's own
    obtain ⟨call', hcall', hown⟩ := h.own k (List.mem_of_getElem? hi)
    obtain rfl := Option.some.inj (hk.symm.trans hcall')
    split_ifs at hretry
    · obtain rfl := hown k' (Option.mem_toList.mp hretry)
      exact ⟨call, hk, hown⟩
    · cases hretry

theorem numbered_step (s : CallHistory) (action : HistoryAction) (h : Numbered s)
    (hok : s.KeepsIds action) : Numbered (action.step s) := by
  cases action with
  | createChannel env uri =>
    simp only [HistoryAction.step]
    cases hc : s.ctx.createChannel env uri with
    | error e => exact h
    | ok r =>
      exact h.sameRequests (h.sound.createChannel hc) (RpcContext.sameRequests_createChannel hc)
  | closeChannel c => exact h.sameRequests (h.sound.closeChannel c) ⟨rfl, rfl, fun _ => Iff.rfl⟩
  | startUnary env host now channelId method payload timeoutMs =>
    simp only [HistoryAction.step]
    cases hs : s.ctx.startUnary env host now channelId method payload timeoutMs with
    | error e => exact h
    | ok r =>
      obtain ⟨hid, hsame⟩ := RpcContext.startUnary_requests hs
      simp only [hid]
      exact h.issue hok (h.sound.startUnary hs) _ _ hsame
  | respond i env host statusCode payload errorMessage =>
    simp only [HistoryAction.step]
    cases hb : s.awaited[i]?.bind fun k => s.calls[k]? with
    | none => exact h
    | some call =>
      obtain ⟨k, hi, hk⟩ := Option.bind_eq_some_iff.mp hb
      exact h.answer (h.sound.onResponseReceived env host _)
        (RpcContext.sameRequests_onResponseReceived s.ctx env host _) _ hi hk
  | testResponse now q =>
    exact h.sameRequests (h.sound.testResponse now q) (RpcContext.sameRequests_testResponse s.ctx now q)
  | getResponse now q =>
    have hsound := h.sound.getResponse now q
    simp only [HistoryAction.step]
    rcases RpcContext.getResponse_requests s.ctx now q with ⟨hnone, hsame⟩ | ⟨hsome, herase⟩
    · split
      · rename_i he
        rw [he] at hsame hsound
        exact h.sameRequests hsound hsame
      · rename_i he
        rw [he] at hnone
        cases hnone
    · split
      · rename_i he
        rw [he] at hsome
        cases hsome
      · rename_i he
        rw [he] at herase
        obtain rfl := herase
        exact h.forget q
  | eraseRequest q => exact h.forget q
  | migrate env now now' host =>
    simp only [HistoryAction.step]
    split
    · rename_i ctx hr
      have hfrom := RpcContext.restored_of_ok h.sound.matched hr
      refine { h with sound := hfrom.sound h.sound, tracks := ⟨?_, fun q => ?_⟩, ids := ?_, earlier := ?_ }
      · rw [hfrom.nextRequestId, hfrom.owner]
        exact RpcContext.tracks_next _
      · rw [hfrom.ops q, Option.map_eq_none_iff]
        exact h.tracks.keys q
      · rw [hfrom.owner]
        exact h.ids
      · intro k call hk
        have hearlier := h.earlier k call hk
        dsimp only
        omega
    · exact h

theorem numbered_new (owner : RpcAppMsgIds) : Numbered { ctx := RpcContext.new owner } := by
  refine ⟨RpcContext.sound_new owner, RpcContext.tracks_new owner, ?_, ?_, ?_, ?_⟩ <;> simp

end CallHistory

open CallHistory

/-- Through any calls, answers and migrations of a caller whose calls all keep behind the
live calls that it has carried over: a call gets an id that no outstanding request has, and
the operation that a response meets is that of the call it answers. -/
theorem request_ids_survive_migration {owner : RpcAppMsgIds} {pre post : List HistoryAction}
    {action : HistoryAction} {s : CallHistory}
    (hok : GuardedRun.Meets HistoryAction.step KeepsIds { ctx := RpcContext.new owner }
      (pre ++ action :: post))
    (hs : s = GuardedRun.run HistoryAction.step { ctx := RpcContext.new owner } pre) :
    (∀ env host now channelId method payload timeoutMs r,
      action = .startUnary env host now channelId method payload timeoutMs →
      s.ctx.startUnary env host now channelId method payload timeoutMs = .ok r →
      s.ctx.ops[r.1]? = none) ∧
    (∀ (k : Nat) call, k ∈ s.awaited → s.calls[k]? = some call →
      ∀ j, s.callOf call.requestId = some j → j = k) := by
  subst hs
  obtain ⟨hpre, hnext, -⟩ := hok.append
  have h := hpre.invariant numbered_step (numbered_new owner)
  constructor
  · intro env host now channelId method payload timeoutMs r ha hr
    subst ha
    rw [(RpcContext.startUnary_requests hr).1]
    exact h.next_fresh hnext
  · intro k call hk hcall
    obtain ⟨call', hcall', hown⟩ := h.own k hk
    obtain rfl := Option.some.inj (hcall.symm.trans hcall')
    exact hown

def callPing (payload : String) : HistoryAction :=
  .startUnary pingResolver "A" 0 1 "/faabric.PingSvc/Ping" payload (-1)

def secondCallCarried : List HistoryAction :=
  [.createChannel pingResolver "faabric://ping", callPing "one", callPing "two",
   .respond 0 pingResolver "A" 0 "pong" "", .getResponse 5 131073, .migrate pingResolver 10 20 "A"]

theorem request_ids_survive_migration_carried :
    (GuardedRun.run HistoryAction.step { ctx := RpcContext.new { appId := 1, msgId := 2 } }
      secondCallCarried).ctx.nextRequestId = 131073 ∧
    (GuardedRun.run HistoryAction.step { ctx := RpcContext.new { appId := 1, msgId := 2 } }
      secondCallCarried).ctx.ops[131073]? = none := by
  have h := @request_ids_survive_migration { appId := 1, msgId := 2 } secondCallCarried []
    (callPing "three") _ (by decide +kernel) rfl
  exact ⟨by decide +kernel, h.1 _ _ _ _ _ _ _ _ rfl rfl⟩

def callAfterMigration : CallHistory :=
  GuardedRun.run HistoryAction.step { ctx := RpcContext.new { appId := 1, msgId := 2 } }
    [.createChannel pingResolver "faabric://ping", callPing "one", .migrate pingResolver 10 20 "A",
     callPing "two"]

/-- Both calls have the id 131073, and the answer to the second meets the operation of the
first. -/
theorem restored_context_reuses_id :
    callAfterMigration.calls = [{ requestId := 131073, number := 0, incarnation := 0 },
      { requestId := 131073, number := 0, incarnation := 1 }] ∧
    callAfterMigration.awaited = [0, 1] ∧ callAfterMigration.callOf 131073 = some 0 ∧
    callAfterMigration.ctx.ops[131073]?.map RpcOp.payload = some "one" := by
  decide +kernel

end Faabric
