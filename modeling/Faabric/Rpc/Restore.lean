import Faabric.Lib.MapFill
import Faabric.Rpc.Context

/-! Serialising a context and restoring it: when the restore succeeds, and what it gives. -/

namespace Faabric

open Std (ExtTreeMap)
open MapTotal MapFill

namespace RpcContext

variable {base ctx new : RpcContext} {env : RpcEnv} {now now' : Int} {host : String}

def Matched (ctx : RpcContext) : Prop :=
  ∀ q : Nat, ctx.requestToChannel[q]? = ctx.ops[q]?.map RpcOp.channelId

def ChannelsOpen (ctx : RpcContext) : Prop :=
  ∀ (q : Nat) op, ctx.ops[q]? = some op → ∃ info, ctx.channels[op.channelId]? = some info

def Resolves (env : RpcEnv) (ctx : RpcContext) : Prop :=
  ∀ (c : Int) info, ctx.channels[c]? = some info → ∃ info', parseChannelInfo env info.targetUri = .ok info'

/-- What a request is after it has been serialised at `now` and restored at `now'`. -/
def carriedOp (now now' : Int) (requestId : Nat) (op : RpcOp) : RpcOp :=
  let kept := op.ready && decide (op.response.statusCode ≠ kNoCachedRespStatus)
  { ready := kept
    response :=
      if kept then
        { requestId, statusCode := op.response.statusCode, payload := op.response.payload }
      else {}
    deadline := op.deadline.map fun deadline => now' + max 1 (deadline - now)
    channelId := op.channelId
    method := op.method
    payload := op.payload
    retryCount := op.retryCount }

theorem restoredOp_pendingRequestOf {q : Nat} {op : RpcOp} (now now' : Int)
    (hop : ctx.ops[q]? = some op) :
    restoredOp now' (ctx.pendingRequestOf now q op.channelId) = carriedOp now now' q op := by
  have hdeadline : ∀ deadline : Int, 0 ≤ max 1 (deadline - now) := by
    intro deadline
    omega
  simp only [pendingRequestOf, hop, restoredOp, carriedOp]
  cases hr : op.ready <;> cases hd : op.deadline
  · simp
  · simp [hdeadline]
  · by_cases hs : op.response.statusCode = kNoCachedRespStatus <;> simp [hs]
  · by_cases hs : op.response.statusCode = kNoCachedRespStatus <;> simp [hs, hdeadline]

theorem restoreChannels_eq {states : List RpcChannelState} {info : RpcChannelState → ChannelInfo}
    (h : ∀ state ∈ states, parseChannelInfo env state.targetUri = .ok (info state)) :
    states.foldlM (restoreChannel env) ctx =
      .ok { ctx with channels := fill RpcChannelState.channelId info states ctx.channels } := by
  induction states generalizing ctx with
  | nil => rfl
  | cons state states ih =>
    have hhead := h state (by simp)
    have hstep : restoreChannel env ctx state =
        .ok { ctx with channels := ctx.channels.insertIfNew state.channelId (info state) } := by
      simp [restoreChannel, hhead]
    rw [List.foldlM_cons, hstep]
    exact ih fun state' hmem => h state' (by simp [hmem])

theorem restoreChannels_resolved {states : List RpcChannelState} {ctx' : RpcContext}
    (h : states.foldlM (restoreChannel env) ctx = .ok ctx') :
    ∀ state ∈ states, ∃ info, parseChannelInfo env state.targetUri = .ok info := by
  induction states generalizing ctx with
  | nil => simp
  | cons state states ih =>
    rw [List.foldlM_cons] at h
    cases hp : parseChannelInfo env state.targetUri with
    | error e =>
      simp only [restoreChannel, hp] at h
      cases h
    | ok info =>
      simp only [restoreChannel, hp] at h
      intro state' hmem
      rcases List.mem_cons.mp hmem with rfl | hmem
      · exact ⟨info, hp⟩
      · exact ih h state' hmem

theorem restorePendings_eq {pendings : List RpcPendingRequest}
    (h : ∀ pending ∈ pendings, ∃ info, ctx.channels[pending.channelId]? = some info) :
    pendings.foldlM (restorePending now) ctx =
      .ok { ctx with
        requestToChannel := fill RpcPendingRequest.requestId RpcPendingRequest.channelId pendings
          ctx.requestToChannel
        ops := fill RpcPendingRequest.requestId (restoredOp now) pendings ctx.ops } := by
  induction pendings generalizing ctx with
  | nil => rfl
  | cons pending pendings ih =>
    obtain ⟨info, hinfo⟩ := h pending (by simp)
    have hstep : restorePending now ctx pending =
        .ok { ctx with
          requestToChannel := ctx.requestToChannel.insertIfNew pending.requestId pending.channelId
          ops := ctx.ops.insertIfNew pending.requestId (restoredOp now pending) } := by
      simp [restorePending, hinfo]
    rw [List.foldlM_cons, hstep]
    exact ih fun pending' hmem => h pending' (by simp [hmem])

theorem restorePendings_open {pendings : List RpcPendingRequest} {ctx' : RpcContext}
    (h : pendings.foldlM (restorePending now) ctx = .ok ctx') :
    ∀ pending ∈ pendings, ∃ info, ctx.channels[pending.channelId]? = some info := by
  induction pendings generalizing ctx with
  | nil => simp
  | cons pending pendings ih =>
    rw [List.foldlM_cons] at h
    cases hc : ctx.channels[pending.channelId]? with
    | none =>
      simp only [restorePending, hc] at h
      cases h
    | some info =>
      simp only [restorePending, hc] at h
      intro pending' hmem
      rcases List.mem_cons.mp hmem with rfl | hmem
      · exact ⟨info, hc⟩
      · exact ih h pending' hmem

/-- The context that a restore gives, request by request and channel by channel. -/
structure RestoredFrom (env : RpcEnv) (now now' : Int) (old base new : RpcContext) : Prop where
  owner : new.owner = base.owner
  nextRequestId : new.nextRequestId = base.nextRequestId
  nextChannelId : new.nextChannelId =
    wrapInt32 (highestChannelId (old.serializeMigrationState 0 "").channels + 1)
  channels : ∀ c : Int, new.channels[c]? =
    old.channels[c]?.bind fun info => (parseChannelInfo env info.targetUri).toOption
  ops : ∀ q : Nat, new.ops[q]? = old.ops[q]?.map (carriedOp now now' q)
  matched : new.Matched

def reopened (old base : RpcContext) (channels : ExtTreeMap Int ChannelInfo compare) : RpcContext :=
  { base.clearLocal with
    channels
    nextChannelId := wrapInt32 (highestChannelId (old.serializeMigrationState 0 "").channels + 1) }

theorem deserialize_reopened (base : RpcContext) (now now' : Int) (host : String)
    (hres : ctx.Resolves env) :
    ∃ channels : ExtTreeMap Int ChannelInfo compare,
      deserializeMigrationState env now' (ctx.serializeMigrationState now host) base =
        (ctx.serializeMigrationState now host).pendingRequests.foldlM (restorePending now')
          (ctx.reopened base channels) ∧
      ∀ c : Int, channels[c]? =
        ctx.channels[c]?.bind fun info => (parseChannelInfo env info.targetUri).toOption := by
  let info : RpcChannelState → ChannelInfo := fun state =>
    (parseChannelInfo env state.targetUri).toOption.getD {}
  have hparse : ∀ state ∈ (ctx.serializeMigrationState now host).channels,
      parseChannelInfo env state.targetUri = .ok (info state) := by
    intro state hmem
    obtain ⟨e, he, rfl⟩ := List.mem_map.mp hmem
    obtain ⟨info', hinfo⟩ := hres e.1 e.2 (ExtTreeMap.mem_toList_iff_getElem?_eq_some.mp he)
    simp [info, hinfo, Except.toOption]
  refine ⟨fill RpcChannelState.channelId info (ctx.serializeMigrationState now host).channels
    base.clearLocal.channels, ?_, ?_⟩
  · rw [deserializeMigrationState, restoreChannels_eq hparse]
    rfl
  · intro c
    have hfill := getElem?_fill_toList ctx.channels
      (fun _ i => (parseChannelInfo env i.targetUri).toOption.getD {}) c
    simp only [fill, serializeMigrationState, List.foldl_map, clearLocal] at hfill ⊢
    rw [hfill]
    cases hc : ctx.channels[c]? with
    | none => rfl
    | some i =>
      obtain ⟨info', hinfo⟩ := hres c i hc
      simp [hinfo, Except.toOption]

theorem restored_requests (now now' : Int) (host : String) (hm : ctx.Matched) (q : Nat) :
    (fill RpcPendingRequest.requestId RpcPendingRequest.channelId
      (ctx.serializeMigrationState now host).pendingRequests ∅)[q]? =
        ctx.ops[q]?.map RpcOp.channelId ∧
    (fill RpcPendingRequest.requestId (restoredOp now')
      (ctx.serializeMigrationState now host).pendingRequests ∅)[q]? =
        ctx.ops[q]?.map (carriedOp now now' q) := by
  have hid : ∀ q c, (ctx.pendingRequestOf now q c).requestId = q ∧
      (ctx.pendingRequestOf now q c).channelId = c := by
    intro q c
    cases hop : ctx.ops[q]? <;> simp [pendingRequestOf, hop]
  have hchannel := getElem?_fill_toList ctx.requestToChannel (fun _ c => c) q
  have hop := getElem?_fill_toList ctx.requestToChannel
    (fun q c => restoredOp now' (ctx.pendingRequestOf now q c)) q
  simp only [fill, serializeMigrationState, List.foldl_map, hid] at hchannel hop ⊢
  rw [hchannel, hop, hm q]
  cases ho : ctx.ops[q]? with
  | none => simp
  | some op => simp [restoredOp_pendingRequestOf now now' ho]

theorem pending_channel (hm : ctx.Matched) {pending : RpcPendingRequest}
    (hp : pending ∈ (ctx.serializeMigrationState now host).pendingRequests) :
    ∃ op, ctx.ops[pending.requestId]? = some op ∧ pending.channelId = op.channelId := by
  obtain ⟨⟨q, c⟩, he, rfl⟩ := List.mem_map.mp hp
  have hc : ctx.requestToChannel[q]? = some c := ExtTreeMap.mem_toList_iff_getElem?_eq_some.mp he
  rw [hm q] at hc
  obtain ⟨op, hop, rfl⟩ := Option.map_eq_some_iff.mp hc
  exact ⟨op, by simp [pendingRequestOf, hop], by simp [pendingRequestOf, hop]⟩

theorem deserialize_ok (base : RpcContext) (now now' : Int) (host : String) (hm : ctx.Matched)
    (hres : ctx.Resolves env) (hopen : ctx.ChannelsOpen) :
    ∃ new, deserializeMigrationState env now' (ctx.serializeMigrationState now host) base = .ok new ∧
      RestoredFrom env now now' ctx base new := by
  obtain ⟨channels, hfold, hchannels⟩ := deserialize_reopened base now now' host hres
  have hfound : ∀ pending ∈ (ctx.serializeMigrationState now host).pendingRequests,
      ∃ info, (ctx.reopened base channels).channels[pending.channelId]? = some info := by
    intro pending hp
    obtain ⟨op, hop, he⟩ := pending_channel hm hp
    obtain ⟨info, hinfo⟩ := hopen _ op hop
    obtain ⟨info', hparse⟩ := hres _ info hinfo
    exact ⟨info', by simp [reopened, hchannels, he, hinfo, hparse, Except.toOption]⟩
  have hrequests := restored_requests now now' host hm
  rw [hfold, restorePendings_eq hfound]
  refine ⟨_, rfl, rfl, rfl, rfl, hchannels, fun q => (hrequests q).2, ?_⟩
  intro q
  have h := hrequests q
  simp only [reopened, clearLocal]
  rw [h.1, h.2]
  cases ctx.ops[q]? <;> rfl

theorem deserialize_open (hm : ctx.Matched) (hres : ctx.Resolves env)
    (h : deserializeMigrationState env now' (ctx.serializeMigrationState now host) base = .ok new) :
    ctx.ChannelsOpen := by
  obtain ⟨channels, hfold, hchannels⟩ := deserialize_reopened base now now' host hres
  rw [hfold] at h
  have hfound := restorePendings_open h
  intro q op hop
  have hmem : ctx.pendingRequestOf now q op.channelId ∈
      (ctx.serializeMigrationState now host).pendingRequests := by
    refine List.mem_map.mpr ⟨(q, op.channelId), ?_, rfl⟩
    rw [ExtTreeMap.mem_toList_iff_getElem?_eq_some, hm q, hop]
    rfl
  obtain ⟨info, hinfo⟩ := hfound _ hmem
  have hc : channels[op.channelId]? = some info := by
    simpa [reopened, pendingRequestOf, hop] using hinfo
  rw [hchannels] at hc
  obtain ⟨old, hold, -⟩ := Option.bind_eq_some_iff.mp hc
  exact ⟨old, hold⟩

theorem deserialize_resolves
    (h : deserializeMigrationState env now' (ctx.serializeMigrationState now host) base = .ok new) :
    ctx.Resolves env := by
  intro c info hc
  cases hfold : (ctx.serializeMigrationState now host).channels.foldlM (restoreChannel env)
      base.clearLocal with
  | error e =>
    rw [deserializeMigrationState, hfold] at h
    cases h
  | ok opened =>
    refine restoreChannels_resolved hfold { channelId := c, targetUri := info.targetUri } ?_
    exact List.mem_map.mpr ⟨(c, info), ExtTreeMap.mem_toList_iff_getElem?_eq_some.mpr hc, rfl⟩

theorem restored_of_ok (hm : ctx.Matched)
    (h : deserializeMigrationState env now' (ctx.serializeMigrationState now host) base = .ok new) :
    RestoredFrom env now now' ctx base new := by
  have hres := deserialize_resolves h
  obtain ⟨new', hok, hfrom⟩ :=
    deserialize_ok base now now' host hm hres (deserialize_open hm hres h)
  obtain rfl := Except.ok.inj (h.symm.trans hok)
  exact hfrom

end RpcContext

end Faabric
