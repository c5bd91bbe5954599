import Faabric.Planner.Books

/-! Starting an app: the host map that the scheduler gets, and what a new decision
does to the planner's books. -/

namespace Faabric

open Std (ExtTreeMap)
open Placement MapTotal

variable {req : BatchExecuteRequest} {d : SchedulingDecision} {s : PlannerState}
  {full : List Placement} {messages : List Message}

/-! The host map given to the scheduler. -/

def unoccupiedThreads (req : BatchExecuteRequest) : Int :=
  max 0 ((req.messages.head?.map Message.ompNumThreads).getD 0 - req.messages.length)

def mainHostOf (pair : InFlightPair) : Option String := pair.2.placements.head?.map host

def holdsBack (appId : Int) (ip : String) (thisAppId : Int) (pair : InFlightPair) : Int :=
  if thisAppId = appId then 0
  else if mainHostOf pair = some ip then unoccupiedThreads pair.1 else 0

theorem holdsBack_nonneg (appId : Int) (ip : String) (thisAppId : Int) (pair : InFlightPair) :
    0 ≤ holdsBack appId ip thisAppId pair := by
  unfold holdsBack unoccupiedThreads
  split_ifs <;> simp

def heldBack (s : PlannerState) (appId : Int) (ip : String) : Int :=
  total (holdsBack appId ip) s.inFlightReqs

theorem heldBack_nonneg (s : PlannerState) (appId : Int) (ip : String) : 0 ≤ heldBack s appId ip :=
  List.sum_nonneg (by
    simp only [List.mem_map]
    rintro _ ⟨e, -, rfl⟩
    exact holdsBack_nonneg appId ip e.1 e.2)

theorem requestedButNotOccupiedSlots_eq {n : Int} (h : requestedButNotOccupiedSlots req = .ok n)
    : unoccupiedThreads req = max 0 n := by
  unfold requestedButNotOccupiedSlots at h
  split at h
  · exact absurd h (by simp)
  · rename_i m ms hm
    obtain rfl := Except.ok.inj h
    simp [unoccupiedThreads, hm]

theorem reserveOpenMpSlots_getElem? {appId : Int} {apps : List (Int × InFlightPair)} {M M' : HostMap}
    (h : reserveOpenMpSlots appId apps M = .ok M') (k : String) :
    M'[k]? = M[k]?.map fun host =>
      { host with usedSlots := host.usedSlots + (apps.map fun e => holdsBack appId k e.1 e.2).sum } := by
  induction apps generalizing M with
  | nil =>
    obtain rfl := Except.ok.inj h
    simp
  | cons app apps ih =>
    obtain ⟨thisAppId, req, dec⟩ := app
    have hskip (hr : reserveOpenMpSlots appId apps M = .ok M')
        (hz : holdsBack appId k thisAppId (req, dec) = 0) :
        M'[k]? = M[k]?.map fun host => { host with
          usedSlots := host.usedSlots +
            (((thisAppId, req, dec) :: apps).map fun e => holdsBack appId k e.1 e.2).sum } := by
      rw [ih hr, List.map_cons, List.sum_cons, hz, zero_add]
    unfold reserveOpenMpSlots at h
    split_ifs at h with happ
    · exact hskip h (by simp [holdsBack, happ])
    · split at h
      · exact absurd h (by simp)
      · rename_i n hn
        have hun := requestedButNotOccupiedSlots_eq hn
        split_ifs at h with hpos
        · split at h
          · exact absurd h (by simp)
          · rename_i first rest hps
            split at h
            · exact absurd h (by simp)
            · rename_i host hhost
              have hmain : mainHostOf (req, dec) = some first.host := by simp [mainHostOf, hps]
              rw [ih h, getElem?_insert_ite, List.map_cons, List.sum_cons]
              by_cases he : first.host = k
              · subst he
                have hb : holdsBack appId first.host thisAppId (req, dec) = n := by
                  rw [holdsBack, if_neg happ, if_pos hmain, hun]
                  omega
                simp [hhost, hb, add_assoc]
              · have hb : holdsBack appId k thisAppId (req, dec) = 0 := by
                  rw [holdsBack, if_neg happ, if_neg]
                  simpa [hmain] using he
                rw [if_neg he, hb, zero_add]
        · refine hskip h ?_
          rw [holdsBack, if_neg happ, hun, max_eq_left (by omega)]
          simp

theorem Under.raised {mode : SchedulerMode} {M M' : HostMap} {slots used held : String → Int}
    (h : Under (mode.usableHosts M) slots used)
    (hr : ∀ k : String, M'[k]? = M[k]?.map fun host =>
      { host with usedSlots := host.usedSlots + held k }) :
    Under (mode.usableHosts M') slots fun ip => used ip + held ip := by
  have hlift {k : String} {h' : HostState} (hk : M'[k]? = some h') :
      ∃ h₁, M[k]? = some h₁ ∧ h'.ip = h₁.ip ∧ h'.slots = h₁.slots ∧
        h'.usedSlots = h₁.usedSlots + held k := by
    rw [hr, Option.map_eq_some_iff] at hk
    obtain ⟨h₁, hk₁, rfl⟩ := hk
    exact ⟨h₁, hk₁, rfl, rfl, rfl⟩
  unfold SchedulerMode.usableHosts at h ⊢
  intro k h' hk
  split_ifs at h hk with hmode
  · simp only [Spot.filterHosts, ExtTreeMap.getElem?_filter', Option.filter_eq_some_iff] at hk
    obtain ⟨hk, hne⟩ := hk
    obtain ⟨h₁, hk₁, hip, hsl, hu⟩ := hlift hk
    have hin : (Spot.filterHosts M).1[k]? = some h₁ := by
      simp only [Spot.filterHosts, ExtTreeMap.getElem?_filter', hk₁, Option.filter_some]
      rw [← hip, if_pos (by simpa using hne)]
    obtain ⟨h1, h2, h3⟩ := h k h₁ hin
    exact ⟨hip.trans h1, hsl.trans h2, by dsimp only; omega⟩
  · obtain ⟨h₁, hk₁, hip, hsl, hu⟩ := hlift hk
    obtain ⟨h1, h2, h3⟩ := h k h₁ hk₁
    exact ⟨hip.trans h1, hsl.trans h2, by dsimp only; omega⟩

def countedUsed (req : BatchExecuteRequest) (s : PlannerState) (ip : String) : Int :=
  usedOn s.hostMap ip + if req.isOmp then heldBack s req.appId ip else 0

theorem usedOn_le_countedUsed (req : BatchExecuteRequest) (s : PlannerState) (ip : String) :
    usedOn s.hostMap ip ≤ countedUsed req s ip := by
  have := heldBack_nonneg s req.appId ip
  unfold countedUsed
  split_ifs <;> omega

theorem Fits.mono {ps : List Placement} {slots used used' : String → Int} (h : Fits ps slots used')
    (hle : ∀ ip, used ip ≤ used' ip) : Fits ps slots used := by
  intro ip
  have := h ip
  have := hle ip
  omega

theorem under_convert {mode : SchedulerMode} {hosts : PlannerHosts} {evicted : Finset String}
    (hok : HostsOk hosts) (he : mode = .spot ∨ ∀ ip ∈ evicted, hosts[ip]? = none) :
    Under (mode.usableHosts (convertToBatchSchedHostMap hosts evicted)) (slotsOn hosts)
      (usedOn hosts) := by
  intro k h hk
  have hplain : ∀ host, hosts[k]? = some host → k ∉ evicted →
      h = { ip := host.ip, slots := host.slots, usedSlots := host.usedSlots } →
      h.ip = k ∧ h.slots = slotsOn hosts k ∧ usedOn hosts k ≤ h.usedSlots := by
    rintro host hh - rfl
    rw [slotsOn_of_getElem? hh, usedOn_of_getElem? hh]
    exact ⟨(hok k host hh).keyed, rfl, le_rfl⟩
  unfold SchedulerMode.usableHosts at hk
  split_ifs at hk with hmode
  · simp only [Spot.filterHosts, convertToBatchSchedHostMap, ExtTreeMap.getElem?_filter',
      ExtTreeMap.getElem?_map, Option.filter_eq_some_iff, Option.map_eq_some_iff] at hk
    obtain ⟨⟨host, hh, heq⟩, hne⟩ := hk
    subst heq
    have hnot : k ∉ evicted := by
      intro hm
      simp [hm] at hne
    refine hplain host hh hnot ?_
    simp [hnot]
  · simp only [convertToBatchSchedHostMap, ExtTreeMap.getElem?_map, Option.map_eq_some_iff] at hk
    obtain ⟨host, hh, rfl⟩ := hk
    have hnot : k ∉ evicted := by
      intro hm
      rcases he with he | he
      · exact hmode he
      · rw [he k hm] at hh
        exact absurd hh (by simp)
    refine hplain host hh hnot ?_
    simp [hnot]


/-! Starting an app. -/

def unFrozenRequest (decisionType : DecisionType) (evicted : Option BatchExecuteRequest)
    (req : BatchExecuteRequest) : BatchExecuteRequest :=
  match evicted with
  | none => req
  | some evictedBer =>
    if decisionType = .new ∧ req.isMpi then { req with messages := req.messages.take 1 }
    else if req.isMpi ∧ decisionType ≠ .distChange then amendMessages evictedBer req
    else req

theorem unFreeze_eq (decisionType : DecisionType) (req : BatchExecuteRequest) (s : PlannerState) :
    unFreeze decisionType req s =
      (unFrozenRequest decisionType s.evictedRequests[req.appId]? req,
        { s with
          evictedRequests :=
            if decisionType = .scaleChange ∧ req.isMpi then s.evictedRequests.erase req.appId
            else s.evictedRequests }) := by
  unfold unFreeze unFrozenRequest
  cases he : s.evictedRequests[req.appId]? with
  | none => simp [erase_of_getElem?_none he]
  | some evictedBer =>
    cases decisionType with
    | new => by_cases hm : req.isMpi = true <;> simp [hm]
    | scaleChange => by_cases hm : req.isMpi = true <;> simp [hm]
    | distChange => simp

@[simp] theorem unFrozenRequest_appId (t : DecisionType) (evicted : Option BatchExecuteRequest)
    (req : BatchExecuteRequest) : (unFrozenRequest t evicted req).appId = req.appId := by
  unfold unFrozenRequest
  split
  · rfl
  · split_ifs <;> rfl

def mappingsSent (endpointHost : String) (d : SchedulingDecision) : List Outgoing :=
  ((uniqueHosts d.hosts).filter (· ≠ endpointHost)).map fun host =>
    .sendMappings host (mappingsFromSchedulingDecision d)

def requestsSent (req : BatchExecuteRequest) (d : SchedulingDecision) : List Outgoing :=
  (uniqueHosts ((d.placements.take req.messages.length).map host)).map fun host =>
    .executeFunctions host (hostRequest req d host)

theorem setAndSendMappings_eq (h : d.nFunctions = d.placements.length) (s : PlannerState) :
    setAndSendMappings d s = (.ok (), { s with sent := s.sent ++ mappingsSent s.endpointHost d }) := by
  simp [setAndSendMappings, h, sendMappings, mappingsSent]

theorem dispatchSchedulingDecision_eq (h : req.messages.length ≤ d.placements.length)
    (s : PlannerState) :
    dispatchSchedulingDecision req d s = (.ok d, { s with sent := s.sent ++ requestsSent req d }) := by
  simp [dispatchSchedulingDecision, requestsSent, Nat.not_lt.mpr h]

theorem removeMessages_tail {p : Placement} {qs : List Placement} (hd : d.placements = p :: qs)
    (hp : p.messageId ∉ qs.map messageId) :
    removeMessages (qs.map messageId) d =
      .ok { d with nFunctions := d.nFunctions - qs.length, placements := [p] } := by
  induction qs generalizing d with
  | nil => simp [removeMessages, ← hd]
  | cons q qs ih =>
    have hne : p.messageId ≠ q.messageId := fun h => hp (by simp [h])
    have hr : d.removeMessage q.messageId =
        .ok (q.mpiPort, { d with nFunctions := d.nFunctions - 1, placements := p :: qs }) := by
      simp [SchedulingDecision.removeMessage, hd, hne]
    rw [List.map_cons, removeMessages, hr]
    dsimp only
    rw [ih rfl fun h => hp (by simp [h])]
    simp only [List.length_cons, Except.ok.injEq, SchedulingDecision.mk.injEq, true_and, and_true]
    push_cast
    omega

def startedDecision (appId groupId : Int) (full : List Placement) (knownSize : Bool) :
    SchedulingDecision :=
  let live := if knownSize then full.take 1 else full
  { appId, groupId, nFunctions := live.length, placements := live }

def claimedMessages (req : BatchExecuteRequest) : Except PlannerError (List Message) :=
  if req.isMpi || req.isOmp then (knownSizeRequest req).map BatchExecuteRequest.messages
  else .ok req.messages

def startedRequest (env : CallEnv) (req : BatchExecuteRequest) (s : PlannerState) :
    BatchExecuteRequest :=
  (unFrozenRequest .new s.evictedRequests[req.appId]? req).updateBatchExecGroupId env.newGroupId

/-- The app of the request is new, and its messages are placed on `full`. -/
structure Started (env : CallEnv) (req : BatchExecuteRequest) (s : PlannerState)
    (full : List Placement) (d : SchedulingDecision) (s' : PlannerState) : Prop where
  fresh : s.inFlightReqs[req.appId]? = none
  decision : d = startedDecision req.appId env.newGroupId full (req.isMpi || req.isOmp)
  claimed : ∃ messages, claimedMessages req = .ok messages ∧
    full.map key = messages.map Message.key
  fits : Fits full (slotsOn s.hostMap) (countedUsed req s)
  hosts : HostsMove s.hostMap s'.hostMap (fun ip => portsOn ip full) (fun _ => 0)
    fun ip => hostCount ip full
  pairOk : InFlightOk (startedRequest env req s, d)
  inFlight : s'.inFlightReqs = s.inFlightReqs.insert req.appId (startedRequest env req s, d)
  preloaded : s'.preloadedSchedulingDecisions =
    if req.isMpi || req.isOmp then
      s.preloadedSchedulingDecisions.insert req.appId
        (startedDecision req.appId FIXED_SIZE_PRELOADED_DECISION_GROUPID full false)
    else s.preloadedSchedulingDecisions
  evicted : s'.evictedRequests = s.evictedRequests
  sent : s'.sent = s.sent ++ mappingsSent s.endpointHost d ++ requestsSent (startedRequest env req s) d

theorem Started.groupId {env : CallEnv} {s' : PlannerState} (h : Started env req s full d s') :
    d.groupId = env.newGroupId := by
  rw [h.decision]
  rfl

/-- A new request that `callBatch` can start: an app of known size sends its first
message only, or is an MPI app that is being un-frozen. -/
def NewOk (s : PlannerState) (req : BatchExecuteRequest) : Prop :=
  (req.isMpi || req.isOmp) = true →
    (req.messages.length = 1 ∨ req.isMpi = true ∧ s.evictedRequests[req.appId]?.isSome) ∧
      ∀ m ∈ req.messages.head?, m.id ≠ 0 ∧ m.id ∉ (req.messages.drop 1).map Message.id

instance (s : PlannerState) (req : BatchExecuteRequest) : Decidable (NewOk s req) :=
  inferInstanceAs (Decidable (_ → _))

theorem known_size_head (hk : (req.isMpi || req.isOmp) = true)
    (hc : claimedMessages req = .ok messages) :
    ∃ m ms mocks, req.messages = m :: ms ∧ messages = m :: ms ++ mocks ∧ ∀ x ∈ mocks, x.id = 0 := by
  simp only [claimedMessages, hk, if_true] at hc
  cases hr : req.messages with
  | nil => simp [BatchExecuteRequest.isMpi, BatchExecuteRequest.isOmp, hr] at hk
  | cons m ms =>
    simp only [knownSizeRequest, hr] at hc
    by_cases hneg : (if req.isMpi then m.mpiWorldSize else m.ompNumThreads) < 0
    · rw [if_pos hneg] at hc
      exact absurd hc (by simp [Except.map])
    · rw [if_neg hneg] at hc
      obtain rfl := Except.ok.inj hc
      refine ⟨m, ms, _, rfl, rfl, ?_⟩
      intro x hx
      obtain ⟨i, _, rfl⟩ := List.mem_map.mp hx
      rfl

theorem unFrozen_known_size {m : Message} {ms : List Message} (hk : (req.isMpi || req.isOmp) = true)
    (hm : req.messages = m :: ms) (hn : NewOk s req) :
    (unFrozenRequest .new s.evictedRequests[req.appId]? req).messages = [m] := by
  unfold unFrozenRequest
  rcases (hn hk).1 with hlen | ⟨hmpi, hev⟩
  · have hms : ms = [] := by
      rw [hm] at hlen
      simpa using hlen
    subst hms
    split
    · exact hm
    · by_cases hmpi : req.isMpi = true
      · simp [hmpi, hm]
      · simp [hmpi, hm]
  · obtain ⟨e, he⟩ := Option.isSome_iff_exists.mp hev
    simp [he, hmpi, hm]

theorem unFrozen_plain (hk : (req.isMpi || req.isOmp) = false) :
    unFrozenRequest .new s.evictedRequests[req.appId]? req = req := by
  have hmpi : req.isMpi = false := (Bool.or_eq_false_iff.mp hk).1
  unfold unFrozenRequest
  split <;> simp [hmpi]

theorem started_pairOk (env : CallEnv) (hn : NewOk s req) (hc : claimedMessages req = .ok messages)
    (hkeys : full.map key = messages.map Message.key) :
    InFlightOk (startedRequest env req s,
      startedDecision req.appId env.newGroupId full (req.isMpi || req.isOmp)) := by
  refine ⟨?_, by simp [startedDecision]⟩
  cases hk : (req.isMpi || req.isOmp) with
  | false =>
    simp only [claimedMessages, hk, Bool.false_eq_true, if_false, Except.ok.injEq] at hc
    subst hc
    simp only [startedDecision, Bool.false_eq_true, if_false, hkeys, startedRequest,
      unFrozen_plain hk, BatchExecuteRequest.updateBatchExecGroupId, List.map_map]
    rfl
  | true =>
    obtain ⟨m, ms, mocks, hreq, rfl, _⟩ := known_size_head hk hc
    have hone := unFrozen_known_size hk hreq hn
    simp only [startedDecision, if_true, startedRequest,
      BatchExecuteRequest.updateBatchExecGroupId, hone, List.map_take, hkeys]
    rfl

theorem removeMessages_known_size (gid : Int) (hk : (req.isMpi || req.isOmp) = true)
    (hn : NewOk s req) (hc : claimedMessages req = .ok messages)
    (hkeys : full.map key = messages.map Message.key) :
    removeMessages ((full.map messageId).drop 1) (startedDecision req.appId gid full false) =
      .ok (startedDecision req.appId gid full true) := by
  obtain ⟨m, ms, mocks, hreq, rfl, hmock⟩ := known_size_head hk hc
  replace hn := hn hk
  simp only [hreq, List.head?_cons, List.drop_one, List.tail_cons] at hn
  obtain ⟨hid0, hidnot⟩ := hn.2 m rfl
  have hids : full.map messageId = (m :: ms ++ mocks).map Message.id := by
    simpa [Function.comp_def, key, Message.key] using congrArg (List.map Prod.fst) hkeys
  cases full with
  | nil => simp at hids
  | cons p qs =>
    simp only [List.cons_append, List.map_cons, List.cons.injEq] at hids
    have hp : p.messageId ∉ qs.map messageId := by
      rw [hids.1, hids.2, List.map_append, List.mem_append, not_or]
      refine ⟨hidnot, ?_⟩
      intro hmem
      obtain ⟨x, hx, he⟩ := List.mem_map.mp hmem
      exact hid0 (he.symm.trans (hmock x hx))
    rw [List.map_cons, List.drop_one, List.tail_cons, removeMessages_tail rfl hp]
    simp [startedDecision]

theorem commitNew_record_eq (h : InFlightOk (req, d)) (s : PlannerState) :
    commitNew.record req d s =
      (.ok d, { s with
        inFlightReqs := s.inFlightReqs.insert req.appId (req, d)
        sent := s.sent ++ mappingsSent s.endpointHost d ++ requestsSent req d }) := by
  unfold commitNew.record
  rw [setAndSendMappings_eq h.counted]
  dsimp only
  rw [dispatchSchedulingDecision_eq h.length_eq.ge]

theorem commitNew_started (env : CallEnv) {ps : List Placement} (ha : Accounted s)
    (hfresh : s.inFlightReqs[req.appId]? = none) (hn : NewOk s req)
    (hc : claimedMessages req = .ok messages)
    (hkeys : ps.map key = messages.map Message.key)
    (hf : Fits ps (slotsOn s.hostMap) (countedUsed req s)) :
    ∃ full d s', commitNew (startedRequest env req s)
        (startedDecision req.appId env.newGroupId ps false) (req.isMpi || req.isOmp) s = (.ok d, s') ∧
      Started env req s full d s' := by
  obtain ⟨full, hosts', hclaim, hsites, hm⟩ := claimNew_spec ha.hosts ha.ledger.covered
    (hf.mono (usedOn_le_countedUsed req s))
  have hfk : full.map key = messages.map Message.key := (keys_of_sites hsites).trans hkeys
  have hcount (ip : String) : hostCount ip full = hostCount ip ps :=
    hostCount_of_hosts (hosts_of_sites hsites) ip
  have hlen : ps.length = full.length := by simpa using (congrArg List.length hsites).symm
  have hpair := started_pairOk env hn hc hfk
  have happ : (startedRequest env req s).appId = req.appId := by simp [startedRequest]
  have hst (s' : PlannerState) (h1 : s'.hostMap = hosts')
      (h2 : s'.inFlightReqs = s.inFlightReqs.insert req.appId (startedRequest env req s,
        startedDecision req.appId env.newGroupId full (req.isMpi || req.isOmp)))
      (h3 : s'.preloadedSchedulingDecisions = if req.isMpi || req.isOmp then
        s.preloadedSchedulingDecisions.insert req.appId
          (startedDecision req.appId FIXED_SIZE_PRELOADED_DECISION_GROUPID full false)
        else s.preloadedSchedulingDecisions)
      (h4 : s'.evictedRequests = s.evictedRequests)
      (h5 : s'.sent = s.sent ++ mappingsSent s.endpointHost
        (startedDecision req.appId env.newGroupId full (req.isMpi || req.isOmp)) ++
        requestsSent (startedRequest env req s)
          (startedDecision req.appId env.newGroupId full (req.isMpi || req.isOmp))) :
      Started env req s full
        (startedDecision req.appId env.newGroupId full (req.isMpi || req.isOmp)) s' := by
    refine ⟨hfresh, rfl, ⟨_, hc, hfk⟩, fun ip => hcount ip ▸ hf ip, ?_, hpair, h2, h3, h4, h5⟩
    rw [h1]
    exact hm.congr (fun _ => rfl) (fun _ => rfl) fun ip => by rw [hcount]
  cases hk : (req.isMpi || req.isOmp) with
  | false =>
    rw [hk] at hpair hst
    have hrec := commitNew_record_eq hpair { s with hostMap := hosts' }
    refine ⟨full, _, _, Eq.trans ?_ hrec, hst _ rfl ?_ rfl rfl rfl⟩
    · simp [commitNew, startedDecision, hclaim, hlen]
    · rw [happ]
  | true =>
    rw [hk] at hpair hst
    have hrem := removeMessages_known_size env.newGroupId hk hn hc hfk
    have hrec := commitNew_record_eq hpair
      { s with
        hostMap := hosts'
        preloadedSchedulingDecisions := s.preloadedSchedulingDecisions.insert req.appId
          (startedDecision req.appId FIXED_SIZE_PRELOADED_DECISION_GROUPID full false) }
    refine ⟨full, _, _, Eq.trans ?_ hrec, hst _ rfl ?_ rfl rfl rfl⟩
    · simp only [startedDecision, Bool.false_eq_true, if_false] at hrem
      simp only [commitNew, startedDecision, Bool.false_eq_true, if_false, if_true, hclaim, happ, hlen,
        SchedulingDecision.messageIds, hrem]
    · rw [happ]

end Faabric
