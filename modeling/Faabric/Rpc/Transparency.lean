import Faabric.Lib.GuardedRun
import Faabric.Rpc.Restore

/-! Which contexts a migration leaves as they are: those whose requests all have an open
channel, whose completed requests have a status other than the marker for "no response"
and no error message, and whose channel ids leave room for the next one. -/

namespace Faabric

open Std (ExtTreeMap)
open MapTotal MapFill RpcContext

variable {ctx : RpcContext} {q : Nat} {op : RpcOp} {env : RpcEnv} {host : String} {now now' : Int}

inductive ContextAction where
  | createChannel (env : RpcEnv) (targetUri : String)
  | closeChannel (channelId : Int)
  | startUnary (env : RpcEnv) (host : String) (now channelId : Int) (method payload : String)
      (timeoutMs : Int)
  | onResponseReceived (env : RpcEnv) (host : String) (resp : RpcResponse)
  | testResponse (now : Int) (requestId : Nat)
  | getResponse (now : Int) (requestId : Nat)
  | eraseRequest (requestId : Nat)

def ContextAction.step (ctx : RpcContext) : ContextAction → RpcContext
  | .createChannel env targetUri =>
    match ctx.createChannel env targetUri with
    | .ok r => r.2
    | .error _ => ctx
  | .closeChannel channelId => ctx.closeChannel channelId
  | .startUnary env host now channelId method payload timeoutMs =>
    match ctx.startUnary env host now channelId method payload timeoutMs with
    | .ok r => r.2.2
    | .error _ => ctx
  | .onResponseReceived env host resp => (ctx.onResponseReceived env host resp).2
  | .testResponse now requestId => (ctx.testResponse now requestId).2
  | .getResponse now requestId => (ctx.getResponse now requestId).2
  | .eraseRequest requestId => ctx.eraseRequest requestId

def minInt32 : Int := -2147483648

def maxInt32 : Int := 2147483647

theorem wrapInt32_range (x : Int) : minInt32 ≤ wrapInt32 x ∧ wrapInt32 x ≤ maxInt32 := by
  unfold wrapInt32 minInt32 maxInt32
  have hlow := Int.le_bmod (x := x) (m := 4294967296) (by decide)
  have hhigh := Int.bmod_lt (x := x) (m := 4294967296) (by decide)
  omega

namespace RpcContext

structure Sound (ctx : RpcContext) : Prop where
  matched : ctx.Matched
  next : minInt32 ≤ ctx.nextChannelId ∧ ctx.nextChannelId ≤ maxInt32
  ids : ∀ (c : Int) info, ctx.channels[c]? = some info → minInt32 ≤ c ∧ c ≤ maxInt32
  uris : ∀ (c : Int) info, ctx.channels[c]? = some info →
    isFaabricUri info.targetUri = true ∧ serviceNameOf info.targetUri ≠ ""

theorem sound_new (owner : RpcAppMsgIds) : Sound (new owner) := by
  refine ⟨?_, by simp [new, minInt32, maxInt32], ?_, ?_⟩
  · intro q
    simp [new]
  · intro c info h
    simp [new] at h
  · intro c info h
    simp [new] at h

theorem Sound.setOp (h : ctx.Sound) {op' : RpcOp} (hop : ctx.ops[q]? = some op)
    (hc : op'.channelId = op.channelId) :
    Sound (ctx.setOp q op') := by
  refine ⟨?_, h.next, h.ids, h.uris⟩
  intro q'
  have hq : ctx.requestToChannel[q']? = ctx.ops[q']?.map RpcOp.channelId := h.matched q'
  by_cases he : q = q'
  · subst he
    simp [RpcContext.setOp, hq, hop, hc]
  · simpa [RpcContext.setOp, he] using hq

theorem Sound.eraseRequest (h : ctx.Sound) (q : Nat) :
    Sound (ctx.eraseRequest q) := by
  refine ⟨?_, h.next, h.ids, h.uris⟩
  intro q'
  have hq := h.matched q'
  by_cases he : q = q'
  · simp [RpcContext.eraseRequest, he]
  · simpa [RpcContext.eraseRequest, he] using hq

theorem Sound.setChannel (h : ctx.Sound) {c : Int} {info : ChannelInfo}
    (hc : minInt32 ≤ c ∧ c ≤ maxInt32)
    (huri : isFaabricUri info.targetUri = true ∧ serviceNameOf info.targetUri ≠ "") :
    Sound { ctx with channels := ctx.channels.insert c info } := by
  refine ⟨h.matched, h.next, ?_, ?_⟩
  · intro c' info' hinfo
    by_cases he : c = c'
    · exact he ▸ hc
    · exact h.ids c' info' (by simpa [he] using hinfo)
  · intro c' info' hinfo
    by_cases he : c = c'
    · simp only [he, getElem?_insert_ite, if_true, Option.some.injEq] at hinfo
      exact hinfo ▸ huri
    · exact h.uris c' info' (by simpa [he] using hinfo)

theorem Sound.closeChannel (h : ctx.Sound) (c : Int) :
    Sound (ctx.closeChannel c) := by
  have hold : ∀ (c' : Int) info, (ctx.closeChannel c).channels[c']? = some info →
      ctx.channels[c']? = some info := by
    intro c' info hinfo
    by_cases he : c = c'
    · simp [RpcContext.closeChannel, he] at hinfo
    · simpa [RpcContext.closeChannel, he] using hinfo
  exact ⟨h.matched, h.next, fun c' info hi => h.ids c' info (hold c' info hi),
    fun c' info hi => h.uris c' info (hold c' info hi)⟩

theorem parseChannelInfo_ok {uri : String} {info : ChannelInfo}
    (h : parseChannelInfo env uri = .ok info) :
    info.targetUri = uri ∧ isFaabricUri uri = true ∧ serviceNameOf uri ≠ "" ∧
      ∃ endpoint, env.resolve (serviceNameOf uri) = some endpoint := by
  unfold parseChannelInfo at h
  split_ifs at h with hf hn
  cases hr : env.resolve (serviceNameOf uri) with
  | none => simp [hr] at h
  | some endpoint =>
    simp only [hr, Except.ok.injEq] at h
    subst h
    exact ⟨rfl, by simpa using hf, hn, endpoint, rfl⟩

theorem Sound.createChannel {ctx' : RpcContext} (h : ctx.Sound) {uri : String} {c : Int}
    (hc : ctx.createChannel env uri = .ok (c, ctx')) : ctx'.Sound := by
  unfold RpcContext.createChannel at hc
  cases hp : parseChannelInfo env uri with
  | error e => simp [hp] at hc
  | ok info =>
    obtain ⟨huri, hfaabric, hname, -⟩ := parseChannelInfo_ok hp
    simp only [hp, Except.ok.injEq, Prod.mk.injEq] at hc
    obtain ⟨-, rfl⟩ := hc
    have hcases : ∀ (c' : Int) i, (ctx.channels.insertIfNew ctx.nextChannelId info)[c']? = some i →
        (c' = ctx.nextChannelId ∧ i = info) ∨ ctx.channels[c']? = some i := by
      intro c' i hi
      rw [getElem?_insertIfNew_ite] at hi
      split_ifs at hi with hnew
      · exact Or.inl ⟨hnew.1.symm, (Option.some.inj hi).symm⟩
      · exact Or.inr hi
    refine ⟨h.matched, wrapInt32_range _, ?_, ?_⟩
    · intro c' i hi
      rcases hcases c' i hi with ⟨rfl, -⟩ | hold
      · exact h.next
      · exact h.ids c' i hold
    · intro c' i hi
      rcases hcases c' i hi with ⟨-, rfl⟩ | hold
      · exact ⟨by rw [huri]; exact hfaabric, by rw [huri]; exact hname⟩
      · exact h.uris c' i hold

theorem Sound.allot (h : ctx.Sound) (op : RpcOp) : Sound (ctx.allot op) := by
  refine ⟨?_, h.next, h.ids, h.uris⟩
  intro q
  have hq := h.matched q
  have hsame : ctx.requestToChannel[q]? = none ↔ ctx.ops[q]? = none := by
    rw [hq, Option.map_eq_none_iff]
  simp only [RpcContext.allot, getElem?_insertIfNew_ite, hsame]
  by_cases he : ctx.nextRequestId = q ∧ ctx.ops[q]? = none
  · rw [if_pos he, if_pos he]
    rfl
  · rw [if_neg he, if_neg he]
    exact hq

theorem Sound.completeUnavailable (h : ctx.Sound) (q : Nat) (what : String) :
    Sound (ctx.completeUnavailable q what) := by
  unfold RpcContext.completeUnavailable
  cases hop : ctx.ops[q]? with
  | none => exact h
  | some op => exact h.setOp hop rfl

theorem Sound.retargetChannel (h : ctx.Sound) (c : Int) (endpoint : ServiceEndpoint) :
    Sound (ctx.retargetChannel c endpoint) := by
  unfold RpcContext.retargetChannel
  cases hc : ctx.channels[c]? with
  | none => exact h
  | some info => exact h.setChannel (h.ids c info hc) (h.uris c info hc)

theorem Sound.startUnary (h : ctx.Sound) {channelId timeoutMs : Int} {method payload : String}
    {r : Nat × Option (String × RpcRequest) × RpcContext}
    (hs : ctx.startUnary env host now channelId method payload timeoutMs = .ok r)
    : r.2.2.Sound := by
  obtain ⟨-, -, sentCtx, hctx, hr⟩ := startUnary_cases hs
  have hsent : sentCtx.Sound := by
    rcases hctx with rfl | ⟨endpoint, rfl⟩
    · exact h.allot _
    · exact (h.allot _).retargetChannel _ endpoint
  rcases hr with ⟨he, -⟩ | ⟨-, he⟩
  · exact he ▸ hsent
  · exact he ▸ hsent.completeUnavailable _ _

theorem Sound.receiveResponse (h : ctx.Sound) (resp : RpcResponse) :
    Sound (ctx.receiveResponse resp).2 := by
  unfold RpcContext.receiveResponse
  cases hop : ctx.ops[resp.requestId]? with
  | none => exact h
  | some op =>
    dsimp only
    split_ifs
    · exact h.setOp hop rfl
    · exact h.setOp hop rfl

theorem Sound.retry (h : ctx.Sound) (env : RpcEnv) (host : String) (q : Nat) (op : RpcOp)
    : Sound (ctx.retryUnaryAfterUnavailable env host q op).2 := by
  rcases retry_cases env host q op ctx with ⟨endpoint, target, req, he, -⟩ | ⟨what, sentCtx, hctx, he⟩
  · rw [he]
    exact h.retargetChannel _ endpoint
  · rw [he]
    rcases hctx with rfl | ⟨endpoint, rfl⟩
    · exact h.completeUnavailable q what
    · exact (h.retargetChannel _ endpoint).completeUnavailable q what

theorem Sound.onResponseReceived (h : ctx.Sound) (env : RpcEnv) (host : String) (resp : RpcResponse)
    : Sound (ctx.onResponseReceived env host resp).2 := by
  have hr := h.receiveResponse resp
  unfold RpcContext.onResponseReceived
  split
  · rename_i he
    rw [he] at hr
    exact hr
  · rename_i op ctx' he
    rw [he] at hr
    exact hr.retry env host resp.requestId op

theorem synthesize_channelId (now : Int) (q : Nat) (op : RpcOp) :
    (synthesizeDeadlineExceededIfNeeded now q op).channelId = op.channelId := by
  unfold synthesizeDeadlineExceededIfNeeded
  split
  · split_ifs <;> rfl
  · rfl

theorem Sound.testResponse (h : ctx.Sound) (now : Int) (q : Nat) :
    Sound (ctx.testResponse now q).2 := by
  unfold RpcContext.testResponse
  cases hop : ctx.ops[q]? with
  | none => exact h
  | some op => exact h.setOp hop (synthesize_channelId now q op)

theorem Sound.getResponse (h : ctx.Sound) (now : Int) (q : Nat) :
    Sound (ctx.getResponse now q).2 := by
  unfold RpcContext.getResponse
  cases hop : ctx.ops[q]? with
  | none => exact h
  | some op =>
    dsimp only
    split_ifs
    · exact h.eraseRequest q
    · exact h.setOp hop (synthesize_channelId now q op)

theorem sound_step (ctx : RpcContext) (action : ContextAction) (h : ctx.Sound) :
    (action.step ctx).Sound := by
  cases action with
  | createChannel env uri =>
    simp only [ContextAction.step]
    split
    · exact h.createChannel ‹_›
    · exact h
  | closeChannel c => exact h.closeChannel c
  | startUnary env host now channelId method payload timeoutMs =>
    simp only [ContextAction.step]
    split
    · exact h.startUnary ‹_›
    · exact h
  | onResponseReceived env host resp => exact h.onResponseReceived env host resp
  | testResponse now q => exact h.testResponse now q
  | getResponse now q => exact h.getResponse now q
  | eraseRequest q => exact h.eraseRequest q

theorem RestoredFrom.sound {old base restored : RpcContext}
    (hfrom : RestoredFrom env now now' old base restored) (h : old.Sound) : restored.Sound := by
  have hparsed : ∀ (c : Int) info, restored.channels[c]? = some info →
      ∃ old', old.channels[c]? = some old' ∧ parseChannelInfo env old'.targetUri = .ok info := by
    intro c info hc
    rw [hfrom.channels c] at hc
    obtain ⟨old', hold, hp⟩ := Option.bind_eq_some_iff.mp hc
    refine ⟨old', hold, ?_⟩
    cases hparse : parseChannelInfo env old'.targetUri with
    | error e => simp [hparse, Except.toOption] at hp
    | ok info' =>
      simp only [hparse, Except.toOption, Option.some.injEq] at hp
      rw [hp]
  refine ⟨hfrom.matched, ?_, ?_, ?_⟩
  · rw [hfrom.nextChannelId]
    exact wrapInt32_range _
  · intro c info hc
    obtain ⟨old', hold, -⟩ := hparsed c info hc
    exact h.ids c old' hold
  · intro c info hc
    obtain ⟨old', -, hp⟩ := hparsed c info hc
    obtain ⟨huri, hfaabric, hname, -⟩ := parseChannelInfo_ok hp
    exact ⟨by rw [huri]; exact hfaabric, by rw [huri]; exact hname⟩

def outcome (resp : RpcResponse) : Int × String × String :=
  (resp.statusCode, resp.payload, resp.errorMessage)

structure SameView (old new : RpcContext) : Prop where
  channels : ∀ c : Int, new.channels[c]?.map ChannelInfo.targetUri =
    old.channels[c]?.map ChannelInfo.targetUri
  requests : ∀ q : Nat,
    new.ops[q]?.map (fun op => (op.channelId, op.method, op.payload, op.retryCount)) =
      old.ops[q]?.map fun op => (op.channelId, op.method, op.payload, op.retryCount)
  fresh : new.channels[new.nextChannelId]? = none
  completed : ∀ (q : Nat) op, old.ops[q]? = some op → op.ready = true →
    ∀ now, (new.getResponse now q).1.map outcome = (old.getResponse now q).1.map outcome

/-- Serialised at `now` and restored at `now'` into a fresh context of the same owner, the
context looks the same. -/
def Transparent (env : RpcEnv) (now now' : Int) (host : String) (ctx : RpcContext) : Prop :=
  ∃ restored, deserializeMigrationState env now' (ctx.serializeMigrationState now host)
      (new ctx.owner) = .ok restored ∧ SameView ctx restored

def Resolvable (env : RpcEnv) (ctx : RpcContext) : Prop :=
  ∀ e ∈ ctx.channels.toList, (env.resolve (serviceNameOf e.2.targetUri)).isSome = true

instance (env : RpcEnv) (ctx : RpcContext) : Decidable (ctx.Resolvable env) :=
  inferInstanceAs (Decidable (∀ e ∈ ctx.channels.toList, _))

/-- A completed request that the migration state can hold: its status is not the marker
for "no response", and it has no error message. -/
def Kept (op : RpcOp) : Prop :=
  op.ready = true → op.response.statusCode ≠ kNoCachedRespStatus ∧ op.response.errorMessage = ""

instance (op : RpcOp) : Decidable (Kept op) :=
  inferInstanceAs (Decidable (op.ready = true → _ ∧ _))

structure Portable (ctx : RpcContext) : Prop where
  opened : ∀ e ∈ ctx.ops.toList, ctx.channels[e.2.channelId]?.isSome = true
  kept : ∀ e ∈ ctx.ops.toList, Kept e.2
  room : ctx.channels[maxInt32]? = none ∨ ctx.channels[minInt32]? = none

theorem resolves_of_resolvable (h : ctx.Sound) (hres : ctx.Resolvable env) : ctx.Resolves env := by
  intro c info hc
  obtain ⟨hfaabric, hname⟩ := h.uris c info hc
  have hsome := hres (c, info) (ExtTreeMap.mem_toList_iff_getElem?_eq_some.mpr hc)
  obtain ⟨endpoint, he⟩ := Option.isSome_iff_exists.mp hsome
  simp only at he
  refine ⟨{ targetUri := info.targetUri, port := RPC_ASYNC_PORT, targetHost := endpoint.host,
            targetAppId := endpoint.appId, targetMessageId := endpoint.messageId }, ?_⟩
  simp only [parseChannelInfo, hfaabric, Bool.not_true, Bool.false_eq_true, if_false, hname, he]

theorem highestChannelId_spec (states : List RpcChannelState) :
    (∀ state ∈ states, state.channelId ≤ highestChannelId states) ∧ 0 ≤ highestChannelId states ∧
      (highestChannelId states = 0 ∨ ∃ state ∈ states, state.channelId = highestChannelId states) := by
  have hfold : ∀ (states : List RpcChannelState) (start : Int),
      (∀ state ∈ states, state.channelId ≤
        states.foldl (fun highest state => max highest state.channelId) start) ∧
      start ≤ states.foldl (fun highest state => max highest state.channelId) start ∧
      (states.foldl (fun highest state => max highest state.channelId) start = start ∨
        ∃ state ∈ states, state.channelId =
          states.foldl (fun highest state => max highest state.channelId) start) := by
    intro states
    induction states with
    | nil => simp
    | cons state states ih =>
      intro start
      obtain ⟨hle, hstart, heq⟩ := ih (max start state.channelId)
      simp only [List.foldl_cons]
      refine ⟨?_, by omega, ?_⟩
      · intro state' hmem
        rcases List.mem_cons.mp hmem with rfl | hmem
        · omega
        · exact hle state' hmem
      · rcases heq with heq | ⟨state', hmem, heq⟩
        · rw [heq]
          by_cases hmax : start ≤ state.channelId
          · exact Or.inr ⟨state, by simp, by omega⟩
          · exact Or.inl (by omega)
        · exact Or.inr ⟨state', by simp [hmem], heq⟩
  exact hfold states 0

theorem mem_serialized_channels {state : RpcChannelState} :
    state ∈ (ctx.serializeMigrationState now host).channels ↔
      ∃ info, ctx.channels[state.channelId]? = some info ∧ info.targetUri = state.targetUri := by
  simp only [serializeMigrationState, List.mem_map, Prod.exists,
    ExtTreeMap.mem_toList_iff_getElem?_eq_some]
  constructor
  · rintro ⟨c, info, hc, rfl⟩
    exact ⟨info, hc, rfl⟩
  · rintro ⟨info, hc, huri⟩
    exact ⟨state.channelId, info, hc, by rw [huri]⟩

theorem next_channel_fresh (h : ctx.Sound) :
    ctx.channels[wrapInt32 (highestChannelId (ctx.serializeMigrationState 0 "").channels + 1)]? = none ↔
      ctx.channels[maxInt32]? = none ∨ ctx.channels[minInt32]? = none := by
  obtain ⟨hle, hpos, heq⟩ := highestChannelId_spec (ctx.serializeMigrationState 0 "").channels
  have hbound : ∀ (c : Int) info, ctx.channels[c]? = some info →
      c ≤ highestChannelId (ctx.serializeMigrationState 0 "").channels := by
    intro c info hc
    exact hle { channelId := c, targetUri := info.targetUri }
      (mem_serialized_channels.mpr ⟨info, hc, rfl⟩)
  generalize highestChannelId (ctx.serializeMigrationState 0 "").channels = highest at *
  cases hmax : ctx.channels[maxInt32]? with
  | some info =>
    have hge := hbound _ _ hmax
    have hle' : highest ≤ maxInt32 := by
      rcases heq with heq | ⟨state, hmem, heq⟩
      · rw [heq]
        decide
      · obtain ⟨i, hi, -⟩ := mem_serialized_channels.mp hmem
        exact heq ▸ (h.ids _ i hi).2
    have hhigh : highest = maxInt32 := le_antisymm hle' hge
    have hwrap : wrapInt32 (maxInt32 + 1) = minInt32 := by decide
    simp [hhigh, hwrap]
  | none =>
    have hlt : highest < maxInt32 := by
      rcases heq with heq | ⟨state, hmem, heq⟩
      · rw [heq]
        decide
      · obtain ⟨i, hi, -⟩ := mem_serialized_channels.mp hmem
        have hrange := (h.ids _ i hi).2
        have hne : state.channelId ≠ maxInt32 := by
          intro he
          rw [he, hmax] at hi
          cases hi
        omega
    have hwrap : wrapInt32 (highest + 1) = highest + 1 := by
      unfold maxInt32 at hlt
      unfold wrapInt32
      rw [Int.bmod_eq_of_le (by omega) (by omega)]
    simp only [hwrap, true_or, iff_true]
    cases hc : ctx.channels[highest + 1]? with
    | none => rfl
    | some i =>
      have := hbound _ _ hc
      omega

theorem getResponse_ready (now : Int) (hop : ctx.ops[q]? = some op) (hr : op.ready = true)
    : (ctx.getResponse now q).1 = some op.response := by
  simp [getResponse, hop, synthesizeDeadlineExceededIfNeeded, hr]

theorem getResponse_unready (now : Int) (hop : ctx.ops[q]? = some op) (hr : op.ready = false)
    {resp : RpcResponse} (h : (ctx.getResponse now q).1 = some resp)
    : resp.statusCode = RpcStatusCode.DEADLINE_EXCEEDED := by
  cases hd : op.deadline with
  | none => simp [getResponse, hop, synthesizeDeadlineExceededIfNeeded, hr, hd] at h
  | some deadline =>
    by_cases hnow : now < deadline
    · simp [getResponse, hop, synthesizeDeadlineExceededIfNeeded, hr, hd, hnow] at h
    · simp only [getResponse, hop, synthesizeDeadlineExceededIfNeeded, hr, hd, hnow, if_false, if_true,
        Option.some.injEq] at h
      rw [← h]

theorem carried_outcome {old restored : RpcContext} (hop : old.ops[q]? = some op)
    (hr : op.ready = true) (hnew : restored.ops[q]? = some (carriedOp now now' q op)) (t : Int) :
    (restored.getResponse t q).1.map outcome = (old.getResponse t q).1.map outcome ↔ Kept op := by
  rw [getResponse_ready t hop hr]
  by_cases hs : op.response.statusCode = kNoCachedRespStatus
  · have hnot : ¬ Kept op := fun hk => (hk hr).1 hs
    have hunready : (carriedOp now now' q op).ready = false := by simp [carriedOp, hs]
    simp only [hnot, iff_false]
    intro he
    obtain ⟨resp, hresp, hout⟩ := Option.map_eq_some_iff.mp he
    have hstatus := getResponse_unready t hnew hunready hresp
    have hsame : resp.statusCode = op.response.statusCode := congrArg Prod.fst hout
    rw [hstatus, hs] at hsame
    exact absurd hsame (by decide)
  · have hready : (carriedOp now now' q op).ready = true := by simp [carriedOp, hr, hs]
    have hresponse : (carriedOp now now' q op).response =
        { requestId := q, statusCode := op.response.statusCode, payload := op.response.payload } := by
      simp [carriedOp, hr, hs]
    rw [getResponse_ready t hnew hready, hresponse]
    simp only [Option.map_some, outcome, Option.some.injEq, Prod.mk.injEq, true_and]
    constructor
    · intro he _
      exact ⟨hs, he.symm⟩
    · intro hk
      exact (hk hr).2.symm

theorem portable_of_transparent (h : ctx.Sound) (hres : ctx.Resolves env)
    (ht : ctx.Transparent env now now' host) :
    ctx.Portable := by
  obtain ⟨restored, hok, hview⟩ := ht
  have hopen := deserialize_open h.matched hres hok
  have hfrom := restored_of_ok h.matched hok
  constructor
  · intro e he
    obtain ⟨info, hinfo⟩ := hopen e.1 e.2 (ExtTreeMap.mem_toList_iff_getElem?_eq_some.mp he)
    simp [hinfo]
  · intro e he hr
    have hop : ctx.ops[e.1]? = some e.2 := ExtTreeMap.mem_toList_iff_getElem?_eq_some.mp he
    have hnew : restored.ops[e.1]? = some (carriedOp now now' e.1 e.2) := by rw [hfrom.ops, hop]; rfl
    exact (carried_outcome hop hr hnew 0).mp (hview.completed e.1 e.2 hop hr 0) hr
  · rw [← next_channel_fresh h]
    have hfresh := hview.channels restored.nextChannelId
    rw [hview.fresh, hfrom.nextChannelId] at hfresh
    exact Option.map_eq_none_iff.mp hfresh.symm

theorem transparent_of_portable (now now' : Int) (host : String) (h : ctx.Sound)
    (hres : ctx.Resolves env) (hp : ctx.Portable) :
    ctx.Transparent env now now' host := by
  have hopen : ctx.ChannelsOpen := by
    intro q op hop
    exact Option.isSome_iff_exists.mp
      (hp.opened (q, op) (ExtTreeMap.mem_toList_iff_getElem?_eq_some.mpr hop))
  obtain ⟨restored, hok, hfrom⟩ := deserialize_ok (new ctx.owner) now now' host h.matched hres hopen
  have huri : ∀ c : Int, restored.channels[c]?.map ChannelInfo.targetUri =
      ctx.channels[c]?.map ChannelInfo.targetUri := by
    intro c
    rw [hfrom.channels c]
    cases hc : ctx.channels[c]? with
    | none => rfl
    | some info =>
      obtain ⟨info', hparse⟩ := hres c info hc
      simp [hparse, Except.toOption, (parseChannelInfo_ok hparse).1]
  refine ⟨restored, hok, huri, ?_, ?_, ?_⟩
  · intro q
    rw [hfrom.ops q]
    cases ctx.ops[q]? <;> rfl
  · have hfresh := (next_channel_fresh h).mpr hp.room
    have hsame := huri restored.nextChannelId
    rw [hfrom.nextChannelId, hfresh] at hsame
    rw [hfrom.nextChannelId]
    exact Option.map_eq_none_iff.mp hsame
  · intro q op hop hr t
    have hnew : restored.ops[q]? = some (carriedOp now now' q op) := by rw [hfrom.ops, hop]; rfl
    exact (carried_outcome hop hr hnew t).mpr
      (hp.kept (q, op) (ExtTreeMap.mem_toList_iff_getElem?_eq_some.mpr hop))

end RpcContext

/-- A context that any calls have led to, with every service of an open channel still
resolvable, looks the same after a migration if and only if it is portable. -/
theorem migration_transparent_iff {owner : RpcAppMsgIds} {actions : List ContextAction} {env : RpcEnv}
    (now now' : Int) (host : String)
    (hres : (GuardedRun.run ContextAction.step (RpcContext.new owner) actions).Resolvable env) :
    (GuardedRun.run ContextAction.step (RpcContext.new owner) actions).Transparent env now now' host ↔
      (GuardedRun.run ContextAction.step (RpcContext.new owner) actions).Portable := by
  have hsound := GuardedRun.run_invariant sound_step actions (sound_new owner)
  have hparse := resolves_of_resolvable hsound hres
  exact ⟨portable_of_transparent hsound hparse, transparent_of_portable now now' host hsound hparse⟩

def pingResolver : RpcEnv where
  resolve name := if name = "ping" then some { serviceName := "ping", host := "B", appId := 3, messageId := 4 }
    else none

def pingCaller (rest : List ContextAction) : RpcContext :=
  GuardedRun.run ContextAction.step (RpcContext.new { appId := 1, msgId := 2 })
    (.createChannel pingResolver "faabric://ping" :: rest)

def answeredAndPending : List ContextAction :=
  [.startUnary pingResolver "A" 0 1 "/faabric.PingSvc/Ping" "one" (-1),
   .startUnary pingResolver "A" 0 1 "/faabric.PingSvc/Ping" "two" 500,
   .onResponseReceived pingResolver "A" { requestId := 131073, payload := "pong" }]

theorem migration_transparent_iff_ping :
    (pingCaller answeredAndPending).Transparent pingResolver 100 200 "A" :=
  (@migration_transparent_iff { appId := 1, msgId := 2 }
    (.createChannel pingResolver "faabric://ping" :: answeredAndPending) pingResolver 100 200 "A"
    (by decide +kernel)).mpr ⟨by decide +kernel, by decide +kernel, by decide +kernel⟩

/-- A call that has timed out loses its error message, and a call whose channel has been
closed makes the restore fail. -/
theorem migration_loses_error_message :
    ¬ (pingCaller [.startUnary pingResolver "A" 0 1 "/faabric.PingSvc/Ping" "" 10,
      .testResponse 20 131073]).Transparent pingResolver 100 200 "A" ∧
    ¬ (pingCaller [.startUnary pingResolver "A" 0 1 "/faabric.PingSvc/Ping" "" (-1),
      .closeChannel 1]).Transparent pingResolver 100 200 "A" := by
  have hsound : ∀ rest, (pingCaller rest).Sound := fun rest =>
    GuardedRun.run_invariant sound_step _ (sound_new _)
  constructor
  · intro h
    exact absurd (portable_of_transparent (hsound _)
      (resolves_of_resolvable (hsound _) (by decide +kernel)) h).kept (by decide +kernel)
  · intro h
    exact absurd (portable_of_transparent (hsound _)
      (resolves_of_resolvable (hsound _) (by decide +kernel)) h).opened (by decide +kernel)

end Faabric
