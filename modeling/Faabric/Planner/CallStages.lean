import Faabric.Planner.Starting

/-! What each stage of `callBatch` can do, whether it succeeds, is refused or throws half-way. -/

namespace Faabric

open Std (ExtTreeMap)
open MapTotal

variable {env : CallEnv} {mode : SchedulerMode} {t : DecisionType} {req req' : BatchExecuteRequest}
  {d d' : SchedulingDecision} {k : Bool} {s s' : PlannerState} {h h' : Host} {port : Int} {x : String}

def schedulerOf (s : PlannerState) : Option SchedulerMode :=
  match s.batchScheduler with
  | some mode => some mode
  | none => SchedulerMode.ofString? s.batchSchedulerMode

theorem getBatchScheduler_eq (s : PlannerState) :
    getBatchScheduler s =
      match schedulerOf s with
      | none => (.error (.runtimeError "Unrecognised batch scheduler mode"), s)
      | some mode => (.ok mode, { s with batchScheduler := some mode }) := by
  unfold getBatchScheduler schedulerOf
  cases hb : s.batchScheduler with
  | some mode =>
    have he : { s with batchScheduler := some mode } = s := by rw [← hb]
    simp [he]
  | none =>
    cases hm : SchedulerMode.ofString? s.batchSchedulerMode with
    | none => simp
    | some mode => simp

theorem getDecisionType_new (h : s.inFlightReqs[req.appId]? = none) :
    getDecisionType s.inFlightReqs req = .new := by
  simp [getDecisionType, ExtTreeMap.contains_eq_isSome_getElem?, h]

theorem getDecisionType_running {old : InFlightPair} (h : s.inFlightReqs[req.appId]? = some old) :
    getDecisionType s.inFlightReqs req = if req.type = .migration then .distChange else .scaleChange := by
  simp [getDecisionType, ExtTreeMap.contains_eq_isSome_getElem?, h]

theorem getDecisionType_eq_new_iff :
    getDecisionType s.inFlightReqs req = .new ↔ s.inFlightReqs[req.appId]? = none := by
  refine ⟨fun ht => ?_, getDecisionType_new⟩
  cases hr : s.inFlightReqs[req.appId]? with
  | none => rfl
  | some old =>
    rw [getDecisionType_running hr] at ht
    split_ifs at ht

/-! Preparing the request. -/

theorem knownSizeRequest_eq (h : knownSizeRequest req = .ok req') :
    req' = { req with messages := req'.messages } ∧ req'.messages.head? = req.messages.head? ∧
      req.messages ≠ [] := by
  unfold knownSizeRequest at h
  split at h
  · cases h
  · rename_i m ms hm
    dsimp only at h
    split_ifs at h <;> obtain rfl := Except.ok.inj h <;> simp [hm]

theorem prepareRequest_cases (h : prepareRequest env t req s = .ok req') :
    (t ≠ .distChange ∧ req' = { req with messages := req'.messages } ∧
      (t = .new ∨ s.preloadedSchedulingDecisions[req.appId]?.isSome → req' = req)) ∨
    t = .distChange ∧ ∃ old, s.inFlightReqs[req.appId]? = some old ∧
      req' = { req with subType := old.1.subType, messages := old.1.messages } := by
  cases t with
  | new =>
    obtain rfl := Except.ok.inj h
    exact .inl ⟨by decide, rfl, fun _ => rfl⟩
  | scaleChange =>
    refine .inl ⟨by decide, ?_⟩
    simp only [prepareRequest, scaleUpElastically] at h
    split_ifs at h with hif
    · have hfree : s.preloadedSchedulingDecisions[req.appId]?.isSome = false := by
        have hnot := (Bool.and_eq_true_iff.mp hif).2
        rwa [Bool.not_eq_true', ExtTreeMap.contains_eq_isSome_getElem?] at hnot
      split at h
      · cases h
      · split at h
        · cases h
        · split at h
          · cases h
          · split_ifs at h
            · obtain rfl := Except.ok.inj h
              exact ⟨rfl, fun _ => rfl⟩
            · split at h
              · cases h
              · obtain rfl := Except.ok.inj h
                exact ⟨rfl, by simp [hfree]⟩
    · obtain rfl := Except.ok.inj h
      exact ⟨rfl, fun _ => rfl⟩
  | distChange =>
    simp only [prepareRequest] at h
    split at h
    · cases h
    · rename_i oldReq oldDec hrun
      obtain rfl := Except.ok.inj h
      exact .inr ⟨rfl, _, hrun, rfl⟩

theorem prepareRequest_appId (h : prepareRequest env t req s = .ok req') : req'.appId = req.appId := by
  rcases prepareRequest_cases h with ⟨-, he, -⟩ | ⟨-, old, -, he⟩ <;> rw [he]

theorem prepareRequest_subType (h : prepareRequest env t req s = .ok req') :
    req'.subType = req.subType ∨
      ∃ old, s.inFlightReqs[req.appId]? = some old ∧ req'.subType = old.1.subType := by
  rcases prepareRequest_cases h with ⟨-, he, -⟩ | ⟨-, old, hrun, he⟩
  · exact .inl (by rw [he])
  · exact .inr ⟨old, hrun, by rw [he]⟩

theorem prepareRequest_scale (h : prepareRequest env .scaleChange req s = .ok req') :
    req'.appId = req.appId ∧ req'.type = req.type ∧ req'.singleHostHint = req.singleHostHint ∧
      (s.preloadedSchedulingDecisions[req.appId]?.isSome → req' = req) := by
  rcases prepareRequest_cases h with ⟨-, he, hsame⟩ | ⟨ht, -⟩
  · exact ⟨by rw [he], by rw [he], by rw [he], fun hs => hsame (.inr hs)⟩
  · cases ht

/-! Choosing a decision. -/

def reservedHosts (req : BatchExecuteRequest) (s : PlannerState) : Except PlannerError HostMap :=
  if req.isOmp then reserveOpenMpSlots req.appId s.inFlightReqs.toList
    (convertToBatchSchedHostMap s.hostMap s.nextEvictedHostIps)
  else .ok (convertToBatchSchedHostMap s.hostMap s.nextEvictedHostIps)

inductive Scheduled (env : CallEnv) (mode : SchedulerMode) (t : DecisionType) (req : BatchExecuteRequest)
    (s : PlannerState) : Except PlannerError (SchedulingDecision × Bool) → PlannerState → Prop
  | failed {e : PlannerError} {count : Int}
      (counted : getDecisionType s.inFlightReqs req ≠ .distChange → count = s.distChangeCounter) :
      Scheduled env mode t req s (.error e) { s with distChangeCounter := count }
  | preloaded {pre : SchedulingDecision} {picks : List Placement} (type : t ≠ .distChange)
      (loaded : s.preloadedSchedulingDecisions[req.appId]? = some pre)
      (picked : preloadedPlacements pre.placements req.messages = .ok picks) :
      Scheduled env mode t req s
        (.ok ({ appId := pre.appId, groupId := pre.groupId, nFunctions := picks.length, placements := picks },
          false))
        (if t = .scaleChange then
          { s with preloadedSchedulingDecisions := s.preloadedSchedulingDecisions.erase req.appId }
        else s)
  | made {M : HostMap} {req' : BatchExecuteRequest} {d : SchedulingDecision} {k : Bool} {count : Int}
      (unloaded : t = .distChange ∨ s.preloadedSchedulingDecisions[req.appId]? = none)
      (reserved : reservedHosts req s = .ok M)
      (known : k = true ↔ t = .new ∧ (req.isMpi = true ∨ req.isOmp = true))
      (scheduled : if k then knownSizeRequest req = .ok req' else req' = req)
      (decided : mode.makeSchedulingDecision s.distChangeCounter env.graph env.now M s.inFlightReqs req' =
        .ok d)
      (counted : getDecisionType s.inFlightReqs req ≠ .distChange → count = s.distChangeCounter) :
      Scheduled env mode t req s (.ok (d, k)) { s with distChangeCounter := count }

theorem scheduledRequest_eq (h : if k then knownSizeRequest req = .ok req' else req' = req) :
    req' = { req with messages := req'.messages } := by
  split_ifs at h
  · exact (knownSizeRequest_eq h).1
  · rw [h]

theorem scheduleRequest_scheduled (env : CallEnv) (mode : SchedulerMode) (t : DecisionType)
    (req : BatchExecuteRequest) (s : PlannerState) :
    Scheduled env mode t req s (scheduleRequest env mode t req s).1 (scheduleRequest env mode t req s).2 := by
  have hmake (M : HostMap) (req' : BatchExecuteRequest) (k : Bool)
      (hM : reservedHosts req s = .ok M)
      (hun : t = .distChange ∨ s.preloadedSchedulingDecisions[req.appId]? = none)
      (hk : k = true ↔ t = .new ∧ (req.isMpi = true ∨ req.isOmp = true))
      (hreq : if k then knownSizeRequest req = .ok req' else req' = req) :
      Scheduled env mode t req s ((makeDecision env mode M req' s).1.map fun d => (d, k))
        (makeDecision env mode M req' s).2 := by
    have hsame : getDecisionType s.inFlightReqs req' = getDecisionType s.inFlightReqs req := by
      rw [scheduledRequest_eq hreq]
      rfl
    have hcount : ∃ count, (makeDecision env mode M req' s).2 = { s with distChangeCounter := count } ∧
        (getDecisionType s.inFlightReqs req ≠ .distChange → count = s.distChangeCounter) := by
      unfold makeDecision
      dsimp only
      split_ifs with hf
      · exact ⟨_, rfl, fun hne => absurd (hsame.symm.trans hf.2) hne⟩
      · exact ⟨_, rfl, fun _ => rfl⟩
    obtain ⟨count, hs, hcounted⟩ := hcount
    rw [hs]
    cases hd : (makeDecision env mode M req' s).1 with
    | error e => exact .failed hcounted
    | ok d => exact .made hun hM hk hreq hd hcounted
  unfold scheduleRequest
  dsimp only
  rw [← reservedHosts]
  cases hM : reservedHosts req s with
  | error e => exact .failed fun _ => rfl
  | ok M =>
    dsimp only
    cases hload : (if t = .distChange then none else s.preloadedSchedulingDecisions[req.appId]?) with
    | some pre =>
      have ht : t ≠ .distChange := by
        rintro rfl
        simp at hload
      rw [if_neg ht] at hload
      dsimp only [getPreloadedSchedulingDecision]
      cases hpicks : preloadedPlacements pre.placements req.messages with
      | error e => exact .failed fun _ => rfl
      | ok picks => exact .preloaded ht hload hpicks
    | none =>
      have hun : t = .distChange ∨ s.preloadedSchedulingDecisions[req.appId]? = none := by
        split_ifs at hload with ht
        · exact .inl ht
        · exact .inr hload
      dsimp only
      split_ifs with hnew
      · cases hreq : knownSizeRequest req with
        | error e => exact .failed fun _ => rfl
        | ok req' => exact hmake M req' true hM hun ⟨fun _ => hnew, fun _ => rfl⟩ hreq
      · exact hmake M req false hM hun ⟨nofun, fun h => absurd h hnew⟩ rfl

/-! Claiming what a decision needs. -/

/-- Every host has an address and is registered under it. -/
def Addressed (hosts : PlannerHosts) : Prop :=
  ∀ (ip : String) (h : Host), hosts[ip]? = some h → h.ip = ip ∧ ip ≠ ""

variable {hosts : PlannerHosts}

theorem Addressed.insert (ha : Addressed hosts) {ip : String} (hh : hosts[ip]? = some h) (he : h'.ip = h.ip) :
    Addressed (hosts.insert ip h') :=
  forall_insert ha (he ▸ ha ip h hh)

theorem claimHostMpiPort_ip (hc : claimHostMpiPort h = .ok (port, h')) :
    h'.ip = h.ip := by
  unfold claimHostMpiPort at hc
  split at hc
  · cases hc
  · obtain ⟨-, rfl⟩ := Prod.mk.inj (Except.ok.inj hc)
    rfl

theorem releaseHostMpiPort_ip (hr : releaseHostMpiPort h port = .ok h') :
    h'.ip = h.ip := by
  unfold releaseHostMpiPort at hr
  split at hr
  · cases hr
  · obtain rfl := Except.ok.inj hr
    rfl

theorem map_cons_eq_ok {p : Placement} {ps : List Placement} {r : Except PlannerError (List Placement)}
    (h : r.map (p :: ·) = .ok ps) : ∃ rest, r = .ok rest ∧ ps = p :: rest := by
  cases r with
  | error e => cases h
  | ok rest => exact ⟨rest, rfl, (Except.ok.inj h).symm⟩

theorem claimNew_addressed (ps : List Placement) {hosts : PlannerHosts} (ha : Addressed hosts) :
    Addressed (claimNew ps hosts).2 := by
  induction ps generalizing hosts with
  | nil => exact ha
  | cons p ps ih =>
    unfold claimNew
    split
    · exact ha
    · rename_i h hh
      split
      · exact ih (ha.insert hh rfl)
      · rename_i port h' hc
        exact ih (ha.insert hh ((claimHostMpiPort_ip hc).trans rfl))

theorem claimNew_hosts {ps ps' : List Placement} (h : (claimNew ps hosts).1 = .ok ps') :
    ps'.map Placement.host = ps.map Placement.host := by
  induction ps generalizing hosts ps' with
  | nil =>
    obtain rfl := Except.ok.inj h
    rfl
  | cons p ps ih =>
    unfold claimNew at h
    split at h
    · cases h
    · split at h
      · obtain ⟨rest, hr, rfl⟩ := map_cons_eq_ok h
        rw [List.map_cons, List.map_cons, ih hr]
      · obtain ⟨rest, hr, rfl⟩ := map_cons_eq_ok h
        rw [List.map_cons, List.map_cons, ih hr]

theorem claimSlots_addressed (skipClaim : Bool) (ps : List Placement) {hosts : PlannerHosts}
    (ha : Addressed hosts) : Addressed (claimSlots skipClaim ps hosts).2 := by
  induction ps generalizing hosts with
  | nil => exact ha
  | cons p ps ih =>
    unfold claimSlots
    split
    · exact ha
    · rename_i h hh
      split_ifs
      · exact ih ha
      · exact ih (ha.insert hh rfl)

theorem addScaledMessages_addressed (skipClaim : Bool) (ms : List Message) (ps : List Placement)
    (old : InFlightPair) {hosts : PlannerHosts} (ha : Addressed hosts) :
    Addressed (addScaledMessages skipClaim ms ps old hosts).2.2 := by
  induction ms generalizing ps old hosts with
  | nil => simpa [addScaledMessages] using ha
  | cons m ms ih =>
    obtain ⟨oldReq, oldDec⟩ := old
    cases ps with
    | nil => simpa [addScaledMessages] using ha
    | cons p ps =>
      unfold addScaledMessages
      dsimp only
      split_ifs
      · exact ih ps _ ha
      · split
        · exact ha
        · rename_i h hh
          split
          · exact ha
          · rename_i port h' hc
            exact ih ps _ (ha.insert hh (claimHostMpiPort_ip hc))

theorem addScaledMessages_hosts (skipClaim : Bool) (ms : List Message) (ps : List Placement)
    (old : InFlightPair) (hosts : PlannerHosts) :
    (addScaledMessages skipClaim ms ps old hosts).2.1.1.appId = old.1.appId ∧
      (addScaledMessages skipClaim ms ps old hosts).2.1.1.subType = old.1.subType ∧
      ∀ x ∈ (addScaledMessages skipClaim ms ps old hosts).2.1.2.hosts,
        x ∈ old.2.hosts ∨ x ∈ ps.map Placement.host := by
  induction ms generalizing ps old hosts with
  | nil => simpa [addScaledMessages] using fun x hx => .inl hx
  | cons m ms ih =>
    obtain ⟨oldReq, oldDec⟩ := old
    cases ps with
    | nil => simp [addScaledMessages]
    | cons p ps =>
      have hone : ∀ q : Placement, q.host = p.host → ∀ x ∈ (oldDec.push q).hosts,
          x ∈ oldDec.hosts ∨ x ∈ (p :: ps).map Placement.host := by
        intro q hq x hx
        have hx' : x ∈ oldDec.hosts ∨ x = q.host := by
          simpa [SchedulingDecision.hosts, SchedulingDecision.push, eq_comm] using hx
        exact hx'.imp id fun hx => by simp [hx, hq]
      have hrest (q : Placement) (hosts' : PlannerHosts) (hq : q.host = p.host) :=
        (ih ps ({ oldReq with messages := oldReq.messages ++ [m] }, oldDec.push q) hosts').imp id
          (And.imp id fun hin x hx => (hin x hx).elim (hone q hq x) fun hx =>
            .inr (List.mem_cons_of_mem _ hx))
      unfold addScaledMessages
      dsimp only
      split_ifs
      · exact hrest _ _ rfl
      · split
        · exact ⟨rfl, rfl, hone _ rfl⟩
        · split
          · exact ⟨rfl, rfl, hone _ rfl⟩
          · exact hrest _ _ rfl

theorem releaseMigrated_addressed (olds news : List Placement) {hosts : PlannerHosts} (ha : Addressed hosts) :
    Addressed (releaseMigrated olds news hosts).2 := by
  induction olds generalizing news hosts with
  | nil => simpa [releaseMigrated] using ha
  | cons old olds ih =>
    cases news with
    | nil => simpa [releaseMigrated] using ha
    | cons new news =>
      unfold releaseMigrated
      split_ifs
      · split
        · exact ha
        · rename_i h hh
          split
          · exact ha.insert hh rfl
          · rename_i h' hr
            exact ih news (ha.insert hh ((releaseHostMpiPort_ip hr).trans rfl))
      · exact ih news ha

theorem claimMigrated_addressed (olds news : List Placement) {hosts : PlannerHosts} (ha : Addressed hosts) :
    Addressed (claimMigrated olds news hosts).2 := by
  induction news generalizing olds hosts with
  | nil => simpa [claimMigrated] using ha
  | cons new news ih =>
    cases olds with
    | nil => simpa [claimMigrated] using ha
    | cons old olds =>
      unfold claimMigrated
      split_ifs
      · split
        · exact ha
        · rename_i h hh
          split
          · exact ih olds (ha.insert hh rfl)
          · rename_i port h' hc
            exact ih olds (ha.insert hh ((claimHostMpiPort_ip hc).trans rfl))
      · exact ih olds ha

theorem claimMigrated_hosts {olds news news' : List Placement}
    (h : (claimMigrated olds news hosts).1 = .ok news') :
    news'.map Placement.host = news.map Placement.host := by
  induction news generalizing olds hosts news' with
  | nil =>
    simp only [claimMigrated, Except.ok.injEq] at h
    rw [← h]
  | cons new news ih =>
    cases olds with
    | nil => simp [claimMigrated] at h
    | cons old olds =>
      unfold claimMigrated at h
      split_ifs at h
      · split at h
        · cases h
        · split at h
          · obtain ⟨rest, hr, rfl⟩ := map_cons_eq_ok h
            rw [List.map_cons, List.map_cons, ih hr]
          · obtain ⟨rest, hr, rfl⟩ := map_cons_eq_ok h
            rw [List.map_cons, List.map_cons, ih hr]
      · obtain ⟨rest, hr, rfl⟩ := map_cons_eq_ok h
        rw [List.map_cons, List.map_cons, ih hr]

theorem removeMessage_hosts {id : Int} (h : d.removeMessage id = .ok (port, d')) (hx : x ∈ d'.hosts)
    : x ∈ d.hosts := by
  unfold SchedulingDecision.removeMessage at h
  split at h
  · cases h
  · obtain ⟨-, rfl⟩ := Prod.mk.inj (Except.ok.inj h)
    obtain ⟨p, hp, rfl⟩ := List.mem_map.mp hx
    exact List.mem_map_of_mem (List.mem_of_mem_eraseP hp)

theorem removeMessages_hosts {ids : List Int} (h : removeMessages ids d = .ok d')
    (hx : x ∈ d'.hosts) : x ∈ d.hosts := by
  induction ids generalizing d with
  | nil =>
    obtain rfl := Except.ok.inj h
    exact hx
  | cons id ids ih =>
    unfold removeMessages at h
    split at h
    · cases h
    · rename_i port d₁ hr
      exact removeMessage_hosts hr (ih h)

def PlannerState.config (s : PlannerState) :=
  (s.policy, s.batchSchedulerMode, s.batchScheduler, s.nextEvictedHostIps, s.appResults,
    s.appResultWaiters, s.endpointHost, s.hostTimeout)

structure InFlightPair.From (pair : InFlightPair) (app subType : Int) (hosts : List String)
    (old : Option InFlightPair) : Prop where
  ids : (pair.1.appId = app ∧ pair.1.subType = subType) ∨
    ∃ pair₀, old = some pair₀ ∧ pair.1.appId = pair₀.1.appId ∧ pair.1.subType = pair₀.1.subType
  hosts : ∀ x ∈ pair.2.hosts, x ∈ hosts ∨ ∃ pair₀, old = some pair₀ ∧ x ∈ pair₀.2.hosts

structure Committed (app subType : Int) (hosts : List String) (k : Bool) (s : PlannerState)
    (r : Except PlannerError SchedulingDecision) (s' : PlannerState) : Prop where
  config : s'.config = s.config
  evicted : s'.evictedRequests = s.evictedRequests
  addressed : Addressed s.hostMap → Addressed s'.hostMap
  inFlight : s'.inFlightReqs = s.inFlightReqs ∨ ∃ pair, s'.inFlightReqs = s.inFlightReqs.insert app pair ∧
    InFlightPair.From pair app subType hosts s.inFlightReqs[app]?
  preloaded : s'.preloadedSchedulingDecisions = s.preloadedSchedulingDecisions ∨
    ∃ d', s'.preloadedSchedulingDecisions = s.preloadedSchedulingDecisions.insert app d' ∧
      d'.groupId = FIXED_SIZE_PRELOADED_DECISION_GROUPID ∧ d'.hosts = hosts
  placed : ∀ d', r = .ok d' →
    if k then (s'.preloadedSchedulingDecisions[app]?.map SchedulingDecision.hosts) = some hosts
    else d'.hosts = hosts

theorem setAndSendMappings_state (d : SchedulingDecision) (s : PlannerState) :
    ∃ sent, (setAndSendMappings d s).2 = { s with sent } := by
  unfold setAndSendMappings
  split_ifs
  · exact ⟨s.sent, rfl⟩
  · exact ⟨_, rfl⟩

theorem dispatchSchedulingDecision_state (req : BatchExecuteRequest) (d : SchedulingDecision)
    (s : PlannerState) : (∃ sent, (dispatchSchedulingDecision req d s).2 = { s with sent }) ∧
      ∀ d', (dispatchSchedulingDecision req d s).1 = .ok d' → d' = d := by
  unfold dispatchSchedulingDecision
  split_ifs
  · exact ⟨⟨s.sent, rfl⟩, nofun⟩
  · exact ⟨⟨_, rfl⟩, fun d' h => (Except.ok.inj h).symm⟩

theorem commitNew_record_state (req : BatchExecuteRequest) (d : SchedulingDecision) (s : PlannerState) :
    (∃ sent, (commitNew.record req d s).2 =
      { s with inFlightReqs := s.inFlightReqs.insert req.appId (req, d), sent }) ∧
      ∀ d', (commitNew.record req d s).1 = .ok d' → d' = d := by
  unfold commitNew.record
  obtain ⟨sent, hset⟩ := setAndSendMappings_state d
    { s with inFlightReqs := s.inFlightReqs.insert req.appId (req, d) }
  generalize setAndSendMappings d _ = q at hset
  obtain ⟨_ | _, s₁⟩ := q
  · exact ⟨⟨sent, hset⟩, nofun⟩
  · obtain ⟨⟨sent', hdis⟩, hres⟩ := dispatchSchedulingDecision_state req d s₁
    refine ⟨⟨sent', ?_⟩, hres⟩
    dsimp only at hset ⊢
    rw [hdis, hset]

theorem commitNew_committed (req : BatchExecuteRequest) (d : SchedulingDecision) (k : Bool) (s : PlannerState) :
    Committed req.appId req.subType d.hosts k s (commitNew req d k s).1 (commitNew req d k s).2 := by
  have haddr := @claimNew_addressed d.placements s.hostMap
  unfold commitNew
  rcases hc : claimNew d.placements s.hostMap with ⟨_ | ps, hosts⟩
  · rw [hc] at haddr
    exact ⟨rfl, rfl, haddr, .inl rfl, .inl rfl, nofun⟩
  · rw [hc] at haddr
    have hps : ps.map Placement.host = d.hosts := claimNew_hosts (congrArg Prod.fst hc)
    have hpair (d₁ : SchedulingDecision) (hd₁ : ∀ x ∈ d₁.hosts, x ∈ ps.map Placement.host) :
        InFlightPair.From (req, d₁) req.appId req.subType d.hosts s.inFlightReqs[req.appId]? :=
      ⟨.inl ⟨rfl, rfl⟩, fun x hx => .inl (hps ▸ hd₁ x hx)⟩
    cases k with
    | false =>
      dsimp only
      rw [if_neg (by decide)]
      obtain ⟨⟨sent, hs⟩, hres⟩ := commitNew_record_state req { d with placements := ps }
        { s with hostMap := hosts }
      rw [hs]
      refine ⟨rfl, rfl, haddr, .inr ⟨_, rfl, hpair _ fun x hx => hx⟩, .inl rfl, ?_⟩
      intro d' hd'
      rw [hres d' hd']
      exact hps
    | true =>
      dsimp only
      rw [if_pos rfl]
      split
      · exact ⟨rfl, rfl, haddr, .inl rfl, .inr ⟨_, rfl, rfl, hps⟩, nofun⟩
      · rename_i d₁ hr
        obtain ⟨⟨sent, hs⟩, -⟩ := commitNew_record_state req d₁
          { s with
            hostMap := hosts
            preloadedSchedulingDecisions := s.preloadedSchedulingDecisions.insert req.appId
              { d with placements := ps, groupId := FIXED_SIZE_PRELOADED_DECISION_GROUPID } }
        rw [hs]
        refine ⟨rfl, rfl, haddr, .inr ⟨_, rfl, hpair _ fun x hx => removeMessages_hosts hr hx⟩,
          .inr ⟨_, rfl, rfl, hps⟩, ?_⟩
        intro d' _
        simpa [SchedulingDecision.hosts] using hps

theorem commitScaleChange_committed (g : Int) (req : BatchExecuteRequest) (d : SchedulingDecision)
    (skipClaim : Bool) (s : PlannerState) {subType : Int} :
    Committed req.appId subType d.hosts false s (commitScaleChange g req d skipClaim s).1
      (commitScaleChange g req d skipClaim s).2 := by
  have haddr := @claimSlots_addressed skipClaim d.placements s.hostMap
  unfold commitScaleChange
  rcases hc : claimSlots skipClaim d.placements s.hostMap with ⟨_ | _, hosts⟩
  · rw [hc] at haddr
    exact ⟨rfl, rfl, haddr, .inl rfl, .inl rfl, nofun⟩
  · rw [hc] at haddr
    dsimp only
    cases hrun : s.inFlightReqs[req.appId]? with
    | none => exact ⟨rfl, rfl, haddr, .inl rfl, .inl rfl, nofun⟩
    | some old =>
      obtain ⟨oldReq, oldDec⟩ := old
      dsimp only
      have haddr' := @addScaledMessages_addressed skipClaim req.messages d.placements
        (oldReq.updateBatchExecGroupId g, { oldDec with groupId := g }) hosts
      obtain ⟨happ, hsub, hin⟩ := addScaledMessages_hosts skipClaim req.messages d.placements
        (oldReq.updateBatchExecGroupId g, { oldDec with groupId := g }) hosts
      have hpair : InFlightPair.From (addScaledMessages skipClaim req.messages d.placements
          (oldReq.updateBatchExecGroupId g, { oldDec with groupId := g }) hosts).2.1 req.appId subType d.hosts
          (some (oldReq, oldDec)) :=
        ⟨.inr ⟨_, rfl, happ, hsub⟩, fun x hx => (hin x hx).symm.imp id fun hx => ⟨_, rfl, hx⟩⟩
      rcases hadd : addScaledMessages skipClaim req.messages d.placements
        (oldReq.updateBatchExecGroupId g, { oldDec with groupId := g }) hosts with ⟨_ | _, pair, hosts'⟩
      · rw [hadd] at haddr' hpair
        rw [← hrun] at hpair
        exact ⟨rfl, rfl, fun ha => haddr' (haddr ha), .inr ⟨pair, rfl, hpair⟩, .inl rfl,
          nofun⟩
      · rw [hadd] at haddr' hpair
        rw [← hrun] at hpair
        dsimp only
        obtain ⟨sent, hset⟩ := setAndSendMappings_state pair.2
          { s with hostMap := hosts', inFlightReqs := s.inFlightReqs.insert req.appId pair }
        generalize setAndSendMappings pair.2 _ = q at hset
        obtain ⟨_ | _, s₁⟩ := q <;> dsimp only at hset ⊢
        · rw [hset]
          exact ⟨rfl, rfl, fun ha => haddr' (haddr ha), .inr ⟨pair, rfl, hpair⟩, .inl rfl,
            nofun⟩
        · obtain ⟨⟨sent', hdis⟩, hres⟩ := dispatchSchedulingDecision_state req d s₁
          rw [hdis, hset]
          refine ⟨rfl, rfl, fun ha => haddr' (haddr ha), .inr ⟨pair, rfl, hpair⟩, .inl rfl, ?_⟩
          intro d' hd'
          rw [← hset] at hd'
          rw [hres d' hd']
          rfl

theorem commitDistChange_committed (g : Int) (req : BatchExecuteRequest) (d : SchedulingDecision)
    (s : PlannerState) {subType : Int} :
    Committed req.appId subType d.hosts false s (commitDistChange g req d s).1 (commitDistChange g req d s).2 := by
  unfold commitDistChange
  cases hrun : s.inFlightReqs[req.appId]? with
  | none => exact ⟨rfl, rfl, id, .inl rfl, .inl rfl, nofun⟩
  | some old =>
    obtain ⟨oldReq, oldDec⟩ := old
    have hrel := @releaseMigrated_addressed oldDec.placements d.placements s.hostMap
    dsimp only
    rcases hr : releaseMigrated oldDec.placements d.placements s.hostMap with ⟨_ | _, hosts⟩
    · rw [hr] at hrel
      exact ⟨rfl, rfl, hrel, .inl rfl, .inl rfl, nofun⟩
    · rw [hr] at hrel
      have hcl := @claimMigrated_addressed oldDec.placements d.placements hosts
      dsimp only
      rcases hc : claimMigrated oldDec.placements d.placements hosts with ⟨_ | ps, hosts'⟩
      · rw [hc] at hcl
        exact ⟨rfl, rfl, fun ha => hcl (hrel ha), .inl rfl, .inl rfl, nofun⟩
      · rw [hc] at hcl
        have hps : ps.map Placement.host = d.hosts := claimMigrated_hosts (congrArg Prod.fst hc)
        have hpair : InFlightPair.From (oldReq.updateBatchExecGroupId g, { d with placements := ps }) req.appId
            subType d.hosts s.inFlightReqs[req.appId]? :=
          ⟨.inr ⟨_, hrun, rfl, rfl⟩, fun x hx => .inl (hps ▸ hx)⟩
        dsimp only
        obtain ⟨sent, hset⟩ := setAndSendMappings_state { d with placements := ps }
          { s with
            hostMap := hosts'
            numMigrations := s.numMigrations + 1
            inFlightReqs := s.inFlightReqs.insert req.appId
              (oldReq.updateBatchExecGroupId g, { d with placements := ps }) }
        generalize setAndSendMappings _ _ = q at hset
        obtain ⟨_ | _, s₁⟩ := q <;> dsimp only at hset ⊢ <;> rw [hset]
        · exact ⟨rfl, rfl, fun ha => hcl (hrel ha), .inr ⟨_, rfl, hpair⟩, .inl rfl,
            nofun⟩
        · refine ⟨rfl, rfl, fun ha => hcl (hrel ha), .inr ⟨_, rfl, hpair⟩, .inl rfl, ?_⟩
          intro d' hd'
          obtain rfl := Except.ok.inj hd'
          exact hps

@[simp] theorem unFrozenRequest_subType (t : DecisionType) (evicted : Option BatchExecuteRequest)
    (req : BatchExecuteRequest) : (unFrozenRequest t evicted req).subType = req.subType := by
  unfold unFrozenRequest
  split
  · rfl
  · split_ifs <;> rfl

def Unevicted (app : Int) (s : PlannerState) (evicted : ExtTreeMap Int BatchExecuteRequest compare) : Prop :=
  evicted = s.evictedRequests ∨ evicted = s.evictedRequests.erase app ∧ s.inFlightReqs[app]?.isSome

theorem commitDecision_committed (env : CallEnv) (d : SchedulingDecision) (hk : k = true → t = .new)
    (hrun : t ≠ .new → s.inFlightReqs[req.appId]?.isSome) :
    ∃ evicted, Unevicted req.appId s evicted ∧ Committed req.appId req.subType d.hosts k
      { s with evictedRequests := evicted } (commitDecision env t req d k s).1
      (commitDecision env t req d k s).2 := by
  simp only [commitDecision, unFreeze_eq]
  set req' := (unFrozenRequest t s.evictedRequests[req.appId]? req).updateBatchExecGroupId env.newGroupId
    with hreq
  have happ : req'.appId = req.appId := by
    rw [hreq, BatchExecuteRequest.updateBatchExecGroupId_appId, unFrozenRequest_appId]
  have hsub : req'.subType = req.subType := unFrozenRequest_subType ..
  generalize hevicted : (if t = .scaleChange ∧ req.isMpi = true then s.evictedRequests.erase req.appId
    else s.evictedRequests) = evicted
  have hun : Unevicted req.appId s evicted := by
    rw [← hevicted]
    split_ifs with hmpi
    · exact .inr ⟨rfl, hrun (by rw [hmpi.1]; decide)⟩
    · exact .inl rfl
  have hd : d.hosts = ({ d with groupId := env.newGroupId } : SchedulingDecision).hosts := rfl
  refine ⟨evicted, hun, ?_⟩
  rw [← happ, ← hsub, hd]
  cases t with
  | new => exact commitNew_committed _ _ _ _
  | scaleChange =>
    obtain rfl : k = false := by simpa using hk
    exact commitScaleChange_committed _ _ _ _ _
  | distChange =>
    obtain rfl : k = false := by simpa using hk
    exact commitDistChange_committed _ _ _ _

inductive Handled (req : BatchExecuteRequest) (d : SchedulingDecision) (k : Bool) (s : PlannerState) :
    Except PlannerError SchedulingDecision → PlannerState → Prop
  | refused (verdict : d = NOT_ENOUGH_SLOTS_DECISION ∨ d = DO_NOT_MIGRATE_DECISION) :
      Handled req d k s (.ok d) s
  | frozen {old : InFlightPair} (verdict : d = MUST_FREEZE_DECISION)
      (running : s.inFlightReqs[req.appId]? = some old) :
      Handled req d k s (.ok d) { s with evictedRequests := s.evictedRequests.insert req.appId old.1 }
  | lost {e : PlannerError} (verdict : d = MUST_FREEZE_DECISION)
      (gone : s.inFlightReqs[req.appId]? = none) :
      Handled req d k s (.error e) { s with evictedRequests := s.evictedRequests.insert req.appId {} }
  | spread (hint : (!d.isSingleHost && req.singleHostHint) = true) :
      Handled req d k s (.ok NOT_ENOUGH_SLOTS_DECISION) s
  | committed {evicted : ExtTreeMap Int BatchExecuteRequest compare} {r : Except PlannerError SchedulingDecision} {s' : PlannerState}
      (hint : ¬ (!d.isSingleHost && req.singleHostHint) = true) (unevicted : Unevicted req.appId s evicted)
      (commit : Committed req.appId req.subType d.hosts k { s with evictedRequests := evicted } r s') :
      Handled req d k s r s'

theorem handleDecision_handled (env : CallEnv) (d : SchedulingDecision) (hk : k = true → t = .new)
    (hrun : t ≠ .new → s.inFlightReqs[req.appId]?.isSome) :
    Handled req d k s (handleDecision env t req d k s).1 (handleDecision env t req d k s).2 := by
  unfold handleDecision
  split_ifs with h1 h2 h3 h4
  · exact .refused (.inl h1)
  · exact .refused (.inr h2)
  · cases hr : s.inFlightReqs[req.appId]? with
    | none => exact .lost h3 hr
    | some old => exact .frozen h3 hr
  · exact .spread h4
  · obtain ⟨evicted, hevicted, hcommit⟩ := commitDecision_committed env d hk hrun
    exact .committed h4 hevicted hcommit

theorem Handled.config {r : Except PlannerError SchedulingDecision} (h : Handled req d k s r s') :
    s'.config = s.config := by
  cases h with
  | committed _ _ commit => exact commit.config
  | _ => rfl

def committedHosts (req : BatchExecuteRequest) (d : SchedulingDecision) : List String :=
  if !d.isSingleHost && req.singleHostHint then [] else d.hosts

def placedHosts (env : CallEnv) (req : BatchExecuteRequest) (s : PlannerState) : List String :=
  match getBatchScheduler s with
  | (.error _, _) => []
  | (.ok mode, s) =>
    let decisionType := getDecisionType s.inFlightReqs req
    match prepareRequest env decisionType req s with
    | .error _ => []
    | .ok req =>
      match (scheduleRequest env mode decisionType req s).1 with
      | .error _ => []
      | .ok (decision, _) => committedHosts req decision

inductive Called (env : CallEnv) (req : BatchExecuteRequest) (s : PlannerState) :
    List String → Except PlannerError SchedulingDecision → PlannerState → Prop
  | unscheduled {e : PlannerError} (unknown : schedulerOf s = none) : Called env req s [] (.error e) s
  | unprepared {e : PlannerError} {mode : SchedulerMode} (scheduler : schedulerOf s = some mode) :
      Called env req s [] (.error e) { s with batchScheduler := some mode }
  | failed {e : PlannerError} {mode : SchedulerMode} {count : Int} (scheduler : schedulerOf s = some mode) :
      Called env req s [] (.error e) { s with batchScheduler := some mode, distChangeCounter := count }
  | handled {mode : SchedulerMode} {req' : BatchExecuteRequest} {d : SchedulingDecision} {k : Bool}
      {r : Except PlannerError SchedulingDecision} {s₁ s' : PlannerState}
      (scheduler : schedulerOf s = some mode)
      (prepared : prepareRequest env (getDecisionType s.inFlightReqs req) req
        { s with batchScheduler := some mode } = .ok req')
      (scheduled : Scheduled env mode (getDecisionType s.inFlightReqs req) req'
        { s with batchScheduler := some mode } (.ok (d, k)) s₁)
      (result : handleDecision env (getDecisionType s.inFlightReqs req) req' d k s₁ = (r, s'))
      (handled : Handled req' d k s₁ r s') :
      Called env req s (committedHosts req' d) r s'

theorem Scheduled.frame {r : Except PlannerError (SchedulingDecision × Bool)}
    (h : Scheduled env mode t req s r s') :
    s'.config = s.config ∧ s'.hostMap = s.hostMap ∧ s'.inFlightReqs = s.inFlightReqs ∧
      s'.evictedRequests = s.evictedRequests ∧
      (s'.preloadedSchedulingDecisions = s.preloadedSchedulingDecisions ∨
        s'.preloadedSchedulingDecisions = s.preloadedSchedulingDecisions.erase req.appId) := by
  cases h with
  | failed => exact ⟨rfl, rfl, rfl, rfl, .inl rfl⟩
  | preloaded =>
    split_ifs
    · exact ⟨rfl, rfl, rfl, rfl, .inr rfl⟩
    · exact ⟨rfl, rfl, rfl, rfl, .inl rfl⟩
  | made => exact ⟨rfl, rfl, rfl, rfl, .inl rfl⟩

theorem Scheduled.known (h : Scheduled env mode t req s (.ok (d, k)) s') (hk : k = true) :
    t = .new ∧ s'.preloadedSchedulingDecisions[req.appId]? = none := by
  cases h with
  | preloaded => cases hk
  | made unloaded _ known =>
    have hnew := (known.mp hk).1
    exact ⟨hnew, unloaded.resolve_left (by rw [hnew]; decide)⟩

theorem callBatch_called (env : CallEnv) (req : BatchExecuteRequest) (s : PlannerState) :
    Called env req s (placedHosts env req s) (callBatch env req s).1 (callBatch env req s).2 := by
  unfold callBatch placedHosts
  rw [getBatchScheduler_eq]
  cases hmode : schedulerOf s with
  | none => exact .unscheduled hmode
  | some mode =>
    dsimp only
    cases hprep : prepareRequest env (getDecisionType s.inFlightReqs req) req
      { s with batchScheduler := some mode } with
    | error e => exact .unprepared hmode
    | ok req' =>
      have hsched := scheduleRequest_scheduled env mode (getDecisionType s.inFlightReqs req) req'
        { s with batchScheduler := some mode }
      dsimp only
      generalize scheduleRequest env mode (getDecisionType s.inFlightReqs req) req' _ = q at hsched
      obtain ⟨_ | ⟨d, k⟩, s₁⟩ := q
      · cases hsched with
        | failed => exact .failed hmode
      · refine .handled hmode hprep hsched rfl (handleDecision_handled env d (fun hk => (hsched.known hk).1) ?_)
        intro ht
        have hrun := mt getDecisionType_eq_new_iff.mpr ht
        rw [hsched.frame.2.2.1, prepareRequest_appId hprep]
        exact Option.isSome_iff_ne_none.mpr hrun

end Faabric
