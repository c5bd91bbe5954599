import Faabric.Planner.Starting

/-! Scale changes and migrations: what they do to the planner's books. -/

namespace Faabric

open Std (ExtTreeMap)
open Placement MapTotal

variable {old : InFlightPair} {ms : List Message} {hosts : List (String × Int)}

def grownRequest (env : CallEnv) (req : BatchExecuteRequest) (s : PlannerState) : BatchExecuteRequest :=
  (unFrozenRequest .scaleChange s.evictedRequests[req.appId]? req).updateBatchExecGroupId env.newGroupId

def grownPair (env : CallEnv) (old : InFlightPair) (messages : List Message) (added : List Placement) :
    InFlightPair :=
  extendPair (old.1.updateBatchExecGroupId env.newGroupId, { old.2 with groupId := env.newGroupId })
    messages added

/-- The messages of the request are `added` to its app, with new claims. -/
structure GrownByClaim (env : CallEnv) (req : BatchExecuteRequest) (s : PlannerState)
    (added : List Placement) (d : SchedulingDecision) (s' : PlannerState) : Prop where
  unloaded : s.preloadedSchedulingDecisions[req.appId]? = none
  decision : ∃ d₀, Places req d₀ ∧ d = { d₀ with groupId := env.newGroupId }
  sites : added.map host = d.placements.map host
  fits : Fits added (slotsOn s.hostMap) (countedUsed req s)
  hosts : HostsMove s.hostMap s'.hostMap (fun ip => portsOn ip added) (fun _ => 0)
    fun ip => hostCount ip added
  preloaded : s'.preloadedSchedulingDecisions = s.preloadedSchedulingDecisions

/-- The messages of the request are `added` to its app, on placements that a
preloaded decision had claimed. -/
structure GrownByPreload (env : CallEnv) (req : BatchExecuteRequest) (s : PlannerState)
    (added : List Placement) (d : SchedulingDecision) (s' : PlannerState) : Prop where
  loaded : ∃ preloaded picks, s.preloadedSchedulingDecisions[req.appId]? = some preloaded ∧
    preloadedPlacements preloaded.placements req.messages = .ok picks ∧
    d = { appId := preloaded.appId, groupId := env.newGroupId, nFunctions := picks.length,
          placements := picks }
  leases : added.map (fun p => (p.host, p.mpiPort)) = d.placements.map fun p => (p.host, p.mpiPort)
  hosts : s'.hostMap = s.hostMap
  preloaded : s'.preloadedSchedulingDecisions = s.preloadedSchedulingDecisions.erase req.appId

structure Grown (env : CallEnv) (req : BatchExecuteRequest) (s : PlannerState) (old : InFlightPair)
    (added : List Placement) (d : SchedulingDecision) (s' : PlannerState) : Prop where
  running : s.inFlightReqs[req.appId]? = some old
  keys : added.map key = (grownRequest env req s).messages.map Message.key
  claims : GrownByClaim env req s added d s' ∨ GrownByPreload env req s added d s'
  pairOk : InFlightOk (grownPair env old (grownRequest env req s).messages added)
  inFlight : s'.inFlightReqs = s.inFlightReqs.insert req.appId
    (grownPair env old (grownRequest env req s).messages added)
  evicted : s'.evictedRequests =
    if req.isMpi then s.evictedRequests.erase req.appId else s.evictedRequests
  sent : s'.sent = s.sent ++
    mappingsSent s.endpointHost (grownPair env old (grownRequest env req s).messages added).2 ++
    requestsSent (grownRequest env req s) d

theorem Grown.groupId {env : CallEnv} {req : BatchExecuteRequest} {s s' : PlannerState}
    {added : List Placement} {d : SchedulingDecision} (h : Grown env req s old added d s') :
    d.groupId = env.newGroupId := by
  rcases h.claims with hc | hc
  · obtain ⟨d₀, _, rfl⟩ := hc.decision
    rfl
  · obtain ⟨_, _, _, _, rfl⟩ := hc.loaded
    rfl

theorem placedOn_key (h : ms.length = hosts.length) :
    (placedOn ms hosts).map key = ms.map Message.key := by
  have hm : (ms.zip hosts).map Prod.fst = ms := List.map_fst_zip h.le
  conv_rhs => rw [← hm]
  simp [placedOn, key, Message.key, Function.comp_def]

theorem placedOn_lease (h : ms.length = hosts.length) :
    (placedOn ms hosts).map (fun p => (p.host, p.mpiPort)) = hosts := by
  have hm : (ms.zip hosts).map Prod.snd = hosts := List.map_snd_zip h.ge
  conv_rhs => rw [← hm]
  simp [placedOn, Function.comp_def]

theorem placedOn_host (h : ms.length = hosts.length) :
    (placedOn ms hosts).map host = hosts.map Prod.fst := by
  simpa [Function.comp_def] using congrArg (List.map Prod.fst) (placedOn_lease h)

@[simp] theorem grownRequest_appId (env : CallEnv) (req : BatchExecuteRequest) (s : PlannerState) :
    (grownRequest env req s).appId = req.appId := by
  simp [grownRequest]

theorem grownRequest_length (env : CallEnv) (req : BatchExecuteRequest) (s : PlannerState) :
    (grownRequest env req s).messages.length = req.messages.length := by
  unfold grownRequest unFrozenRequest
  split
  · simp
  · split_ifs <;> simp [amendMessages] at *

theorem grownPair_ok (env : CallEnv) {messages : List Message} {added : List Placement}
    (ho : InFlightOk old) (hk : added.map key = messages.map Message.key) :
    InFlightOk (grownPair env old messages added) := by
  refine ⟨?_, ?_⟩
  · have hold : old.2.placements.map key =
        (old.1.updateBatchExecGroupId env.newGroupId).messages.map Message.key := by
      rw [ho.keys]
      simp [BatchExecuteRequest.updateBatchExecGroupId, Message.key, Function.comp_def]
    simp [grownPair, extendPair, hk, hold]
  · simp [grownPair, extendPair, ho.counted]

theorem commitScaleChange_eq {env : CallEnv} {req : BatchExecuteRequest} {s : PlannerState}
    {old : InFlightPair} {d : SchedulingDecision} {skipClaim : Bool} {hosts₁ hosts₂ : PlannerHosts}
    {added : List Placement} (hrun : s.inFlightReqs[req.appId]? = some old)
    (hclaim : claimSlots skipClaim d.placements s.hostMap = (.ok (), hosts₁))
    (hadd : addScaledMessages skipClaim req.messages d.placements
      (old.1.updateBatchExecGroupId env.newGroupId, { old.2 with groupId := env.newGroupId }) hosts₁ =
      (.ok (), grownPair env old req.messages added, hosts₂))
    (hpair : InFlightOk (grownPair env old req.messages added))
    (hlen : req.messages.length ≤ d.placements.length) :
    commitScaleChange env.newGroupId req d skipClaim s =
      (.ok d, { s with
        hostMap := hosts₂
        inFlightReqs := s.inFlightReqs.insert req.appId (grownPair env old req.messages added)
        sent := s.sent ++ mappingsSent s.endpointHost (grownPair env old req.messages added).2 ++
          requestsSent req d }) := by
  obtain ⟨oldReq, oldDec⟩ := old
  unfold commitScaleChange
  rw [hclaim]
  dsimp only
  rw [hrun]
  dsimp only
  dsimp only at hadd
  rw [hadd]
  dsimp only
  rw [setAndSendMappings_eq hpair.counted]
  dsimp only
  rw [dispatchSchedulingDecision_eq hlen]

theorem commitDecision_claim {env : CallEnv} {req : BatchExecuteRequest} {s : PlannerState}
    {d₀ : SchedulingDecision} (knownSize : Bool) (ha : Accounted s)
    (hrun : s.inFlightReqs[req.appId]? = some old)
    (hun : s.preloadedSchedulingDecisions[req.appId]? = none) (hp : Places req d₀)
    (hf : Fits d₀.placements (slotsOn s.hostMap) (countedUsed req s)) :
    ∃ added d s', commitDecision env .scaleChange req d₀ knownSize s = (.ok d, s') ∧
      Grown env req s old added d s' := by
  have hlen : (grownRequest env req s).messages.length = d₀.placements.length := by
    rw [grownRequest_length]
    simpa using (congrArg List.length hp.keys).symm
  have hfree := hf.mono (usedOn_le_countedUsed req s)
  have hin := hfree.exists_host ha.ledger.used_nonneg
  obtain ⟨hosts₁, hclaim, hm₁⟩ := claimSlots_spec ha.hosts hin
  have hroom (ip : String) :
      ((markedOn hosts₁ ip).card : Int) + hostCount ip d₀.placements ≤ slotsOn hosts₁ ip := by
    have hmk := hm₁.marked ip
    have hcov := ha.ledger.covered ip
    have hbd := ha.ledger.bounded ip
    have hfit := hfree ip
    simp only [ledgerOf] at hcov hbd
    simp only [add_zero] at hmk
    rw [hm₁.slots, hmk]
    omega
  obtain ⟨ports, hosts₂, hpl, hadd, hm₂⟩ := @addScaledMessages_spec _ _
    (old.1.updateBatchExecGroupId env.newGroupId, { old.2 with groupId := env.newGroupId })
    _ hlen hm₁.ok hroom
  set added := placedOn (grownRequest env req s).messages ((d₀.placements.map host).zip ports)
    with hadded
  have hzip : (grownRequest env req s).messages.length =
      ((d₀.placements.map host).zip ports).length := by
    simp [hpl, hlen]
  have hkeys : added.map key = (grownRequest env req s).messages.map Message.key :=
    placedOn_key hzip
  have hsites : added.map host = d₀.placements.map host := by
    rw [hadded, placedOn_host hzip, List.map_fst_zip (by simp [hpl, hlen])]
  have hpair := grownPair_ok env (ha.apps _ _ hrun) hkeys
  have hcommit := @commitScaleChange_eq env (grownRequest env req s)
    { s with
      evictedRequests := if req.isMpi then s.evictedRequests.erase req.appId else s.evictedRequests }
    old { d₀ with groupId := env.newGroupId } false hosts₁ hosts₂ added
    (by simpa using hrun) hclaim hadd hpair hlen.le
  have hskip : ¬ d₀.groupId = FIXED_SIZE_PRELOADED_DECISION_GROUPID := by
    rw [hp.groupId]
    decide
  refine ⟨added, _, _, Eq.trans ?_ hcommit, hrun, hkeys, Or.inl ?_, hpair, ?_, rfl, rfl⟩
  · simp only [commitDecision, unFreeze_eq, hskip, true_and]
    rfl
  · refine ⟨hun, ⟨d₀, hp, rfl⟩, hsites, ?_, ?_, rfl⟩
    · intro ip
      rw [hostCount_of_hosts hsites]
      exact hf ip
    · refine (hm₁.trans hm₂).congr (by simp) (by simp) ?_
      intro ip
      rw [hostCount_of_hosts hsites, add_zero]
  · rw [grownRequest_appId]

theorem preloadedPlacements_picked {preloaded picks : List Placement}
    (h : preloadedPlacements preloaded ms = .ok picks) :
    ∃ qs : List Placement, (∀ q ∈ qs, q ∈ preloaded) ∧ qs.map Placement.groupIdx = ms.map Message.groupIdx ∧
      qs.map (fun p => (p.host, p.mpiPort)) = picks.map fun p => (p.host, p.mpiPort) := by
  induction ms generalizing picks with
  | nil =>
    obtain rfl := Except.ok.inj h
    exact ⟨[], by simp, rfl, rfl⟩
  | cons m ms ih =>
    unfold preloadedPlacements at h
    split at h
    · cases h
    · rename_i q hq
      cases hr : preloadedPlacements preloaded ms with
      | error e =>
        rw [hr] at h
        cases h
      | ok rest =>
        rw [hr] at h
        obtain rfl := Except.ok.inj h
        obtain ⟨qs, hmem, hgroup, hlease⟩ := ih hr
        have hqg : q.groupIdx = m.groupIdx := by simpa using List.find?_some hq
        refine ⟨q :: qs, ?_, by simp [hqg, hgroup], by simp [hlease]⟩
        intro x hx
        rcases List.mem_cons.mp hx with rfl | hx
        · exact List.mem_of_find?_eq_some hq
        · exact hmem x hx

theorem preloadedPlacements_length {preloaded picks : List Placement}
    (h : preloadedPlacements preloaded ms = .ok picks) : picks.length = ms.length := by
  obtain ⟨qs, _, hgroup, hlease⟩ := preloadedPlacements_picked h
  simpa using (congrArg List.length hlease).symm.trans (by simpa using congrArg List.length hgroup)

theorem commitDecision_preload {env : CallEnv} {req : BatchExecuteRequest} {s : PlannerState}
    {old : InFlightPair} {preloaded : SchedulingDecision} {picks : List Placement} (knownSize : Bool)
    (ha : Accounted s) (hrun : s.inFlightReqs[req.appId]? = some old)
    (hload : s.preloadedSchedulingDecisions[req.appId]? = some preloaded)
    (hpicks : preloadedPlacements preloaded.placements req.messages = .ok picks)
    (hin : ∀ p ∈ picks, ∃ h, s.hostMap[p.host]? = some h) :
    ∃ added d s', commitDecision env .scaleChange req
        { appId := preloaded.appId, groupId := preloaded.groupId, nFunctions := picks.length,
          placements := picks } knownSize
        { s with preloadedSchedulingDecisions := s.preloadedSchedulingDecisions.erase req.appId } =
          (.ok d, s') ∧ Grown env req s old added d s' := by
  have hlen : (grownRequest env req s).messages.length = picks.length := by
    rw [grownRequest_length, preloadedPlacements_length hpicks]
  have hadd := @addScaledMessages_skip (grownRequest env req s).messages picks
    (old.1.updateBatchExecGroupId env.newGroupId, { old.2 with groupId := env.newGroupId })
    s.hostMap hlen
  have hzip : (grownRequest env req s).messages.length =
      (picks.map fun p => (p.host, p.mpiPort)).length := by
    simp [hlen]
  set added := placedOn (grownRequest env req s).messages (picks.map fun p => (p.host, p.mpiPort))
    with hadded
  have hkeys : added.map key = (grownRequest env req s).messages.map Message.key :=
    placedOn_key hzip
  have hpair := grownPair_ok env (ha.apps _ _ hrun) hkeys
  have hcommit := @commitScaleChange_eq env (grownRequest env req s)
    { s with
      preloadedSchedulingDecisions := s.preloadedSchedulingDecisions.erase req.appId
      evictedRequests := if req.isMpi then s.evictedRequests.erase req.appId else s.evictedRequests }
    old { appId := preloaded.appId, groupId := env.newGroupId, nFunctions := picks.length,
          placements := picks } true s.hostMap s.hostMap added
    (by simpa using hrun) (claimSlots_skip hin) hadd hpair hlen.le
  have hskip := (ha.preloads _ _ hload).1
  refine ⟨added, _, _, Eq.trans ?_ hcommit, hrun, hkeys, Or.inr ?_, hpair, ?_, rfl, rfl⟩
  · simp only [commitDecision, unFreeze_eq, hskip, true_and]
    rfl
  · exact ⟨⟨preloaded, picks, hload, hpicks, rfl⟩, placedOn_lease hzip, rfl, rfl⟩
  · rw [grownRequest_appId]

structure Migrated (env : CallEnv) (req : BatchExecuteRequest) (s : PlannerState) (old : InFlightPair)
    (d : SchedulingDecision) (s' : PlannerState) : Prop where
  running : s.inFlightReqs[req.appId]? = some old
  keys : d.placements.map key = old.2.placements.map key
  counted : d.nFunctions = d.placements.length
  groupId : d.groupId = env.newGroupId
  ports : ∀ ip, portsOn ip d.placements =
    portsOn ip (keptAt old.2.placements d.placements) +
      portsOn ip (movedTo old.2.placements d.placements)
  hosts : HostsMove s.hostMap s'.hostMap
    (fun ip => portsOn ip (movedTo old.2.placements d.placements))
    (fun ip => portsOn ip (movedFrom old.2.placements d.placements))
    fun ip => hostCount ip (movedTo old.2.placements d.placements) -
      hostCount ip (movedFrom old.2.placements d.placements)
  bounded : ∀ ip, usedOn s'.hostMap ip ≤ slotsOn s'.hostMap ip
  inFlight : s'.inFlightReqs = s.inFlightReqs.insert req.appId
    (old.1.updateBatchExecGroupId env.newGroupId, d)
  preloaded : s'.preloadedSchedulingDecisions = s.preloadedSchedulingDecisions
  evicted : s'.evictedRequests = s.evictedRequests
  sent : s'.sent = s.sent ++ mappingsSent s.endpointHost d ++
    (uniqueHosts (old.2.hosts.diff d.hosts)).map fun host =>
      .sendMappings host (mappingsFromSchedulingDecision d)

theorem movedFrom_of_hosts {olds news news' : List Placement}
    (h : news'.map host = news.map host) :
    movedFrom olds news' = movedFrom olds news ∧ keptAt olds news' = keptAt olds news ∧
      (movedTo olds news').map host = (movedTo olds news).map host := by
  induction olds generalizing news news' with
  | nil => exact ⟨rfl, rfl, rfl⟩
  | cons old olds ih =>
    cases news with
    | nil =>
      cases news' with
      | nil => exact ⟨rfl, rfl, rfl⟩
      | cons new' news' => simp at h
    | cons new news =>
      cases news' with
      | nil => simp at h
      | cons new' news' =>
        simp only [List.map_cons, List.cons.injEq] at h
        obtain ⟨h1, h2, h3⟩ := ih h.2
        simp only [movedFrom_cons, keptAt_cons, movedTo_cons, h.1, h1, h2]
        refine ⟨trivial, trivial, ?_⟩
        split_ifs <;> simp [h3, h.1]

theorem commitDistChange_migrated {env : CallEnv} {req : BatchExecuteRequest} {s : PlannerState}
    {old : InFlightPair} {d₀ : SchedulingDecision} (ha : Accounted s)
    (hrun : s.inFlightReqs[req.appId]? = some old)
    (hmv : Moved old.2 d₀ (slotsOn s.hostMap) (usedOn s.hostMap)) (hg : d₀.groupId = env.newGroupId) :
    ∃ d s', commitDistChange env.newGroupId req d₀ s = (.ok d, s') ∧ Migrated env req s old d s' := by
  obtain ⟨⟨hkeys, hcount⟩, hf⟩ := hmv
  have hlen : old.2.placements.length = d₀.placements.length := by
    simpa using (congrArg List.length hkeys).symm
  have hleased (ip : String) : portsOn ip old.2.placements ≤ markedOn s.hostMap ip :=
    (portsOn_le_leases hrun ip).trans (ha.ledger.leased ip)
  have hsplit (ip : String) := portsOn_split hlen ip
  have hle (ip : String) : portsOn ip (movedFrom old.2.placements d₀.placements) ≤
      markedOn s.hostMap ip := by
    refine le_trans ?_ (hleased ip)
    rw [hsplit ip]
    exact Multiset.le_add_left _ _
  obtain ⟨hosts₁, hrel, hm₁⟩ := releaseMigrated_spec hlen ha.hosts hle
  have hcovered (ip : String) : ((markedOn hosts₁ ip).card : Int) ≤ usedOn hosts₁ ip := by
    have hmk := congrArg Multiset.card (hm₁.marked ip)
    have hcov := ha.ledger.covered ip
    simp only [ledgerOf] at hcov
    simp only [Multiset.card_add, card_portsOn, add_zero] at hmk
    rw [hm₁.used]
    omega
  have hroom (ip : String) :
      usedOn s.hostMap ip + hostCount ip (movedTo old.2.placements d₀.placements) -
        hostCount ip (movedFrom old.2.placements d₀.placements) ≤ slotsOn s.hostMap ip := by
    have hnews := hostCount_news_split hlen ip
    have holds := congrArg Multiset.card (hsplit ip)
    have hcard := Multiset.card_le_card (hleased ip)
    have hcov := ha.ledger.covered ip
    have hbd := ha.ledger.bounded ip
    have hfit := hf ip
    simp only [ledgerOf] at hcov hbd
    simp only [Multiset.card_add, card_portsOn] at holds hcard
    simp only [usedWithout] at hfit
    omega
  have hfit : Fits (movedTo old.2.placements d₀.placements) (slotsOn hosts₁) (usedOn hosts₁) := by
    intro ip
    have := hroom ip
    rw [hm₁.slots, hm₁.used]
    omega
  obtain ⟨news, hosts₂, hclaim, hsites, hports, hm₂⟩ := claimMigrated_spec hlen hm₁.ok hcovered hfit
  have hhosts := hosts_of_sites hsites
  obtain ⟨hfrom, hkept, hto⟩ := @movedFrom_of_hosts old.2.placements _ _ hhosts
  have hcount' : d₀.nFunctions = news.length := by
    rw [hcount]
    simpa using (congrArg List.length hsites).symm
  have hm : HostsMove s.hostMap hosts₂ (fun ip => portsOn ip (movedTo old.2.placements news))
      (fun ip => portsOn ip (movedFrom old.2.placements news))
      fun ip => hostCount ip (movedTo old.2.placements news) -
        hostCount ip (movedFrom old.2.placements news) := by
    refine (hm₁.trans hm₂).congr (by simp) ?_ ?_
    · intro ip
      rw [hfrom, add_zero]
    · intro ip
      rw [hfrom, hostCount_of_hosts hto]
      omega
  have hcommit : commitDistChange env.newGroupId req d₀ s = (.ok { d₀ with placements := news },
      { s with
        hostMap := hosts₂
        numMigrations := s.numMigrations + 1
        inFlightReqs := s.inFlightReqs.insert req.appId
          (old.1.updateBatchExecGroupId env.newGroupId, { d₀ with placements := news })
        sent := s.sent ++ mappingsSent s.endpointHost { d₀ with placements := news } ++
          (uniqueHosts (old.2.hosts.diff (SchedulingDecision.hosts { d₀ with placements := news }))).map
            fun host => .sendMappings host
              (mappingsFromSchedulingDecision { d₀ with placements := news }) }) := by
    obtain ⟨oldReq, oldDec⟩ := old
    unfold commitDistChange
    rw [hrun]
    dsimp only
    rw [hrel]
    dsimp only
    rw [hclaim]
    dsimp only
    rw [setAndSendMappings_eq hcount']
    rfl
  refine ⟨_, _, hcommit, hrun, (keys_of_sites hsites).trans hkeys, hcount', hg, ?_, hm, ?_,
    rfl, rfl, rfl, rfl⟩
  · intro ip
    dsimp only
    rw [hports, hkept]
  · intro ip
    have := hroom ip
    dsimp only
    rw [hm.used, hm.slots, hfrom, hostCount_of_hosts hto]
    omega

end Faabric
