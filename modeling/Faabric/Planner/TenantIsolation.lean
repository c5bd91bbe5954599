import Faabric.Planner.Housing
import Faabric.Planner.SlotConservation

/-! Tenants under the compact policy. The scheduler keeps a request off the hosts that run
messages of another user, but not off those that another user's app has claimed in advance. -/

namespace Faabric

open Std (ExtTreeMap)
open MapTotal

variable {s : PlannerState} {tenant : Int → Int}

def FreeOfOthers (inFlightReqs : InFlightReqs) (subType : Int) (x : String) : Prop :=
  ∀ (app : Int) (pair : InFlightPair), inFlightReqs[app]? = some pair → pair.1.subType ≠ subType →
    x ∉ pair.2.hosts

def AddressedMap (M : HostMap) : Prop := ∀ (k : String) (h : HostState), M[k]? = some h → h.ip = k ∧ k ≠ ""

theorem addressed_convert {hosts : PlannerHosts} (ha : Addressed hosts) :
    AddressedMap (convertToBatchSchedHostMap hosts ∅) := by
  intro k h hk
  simp only [convertToBatchSchedHostMap, ExtTreeMap.getElem?_map, Option.map_eq_some_iff] at hk
  obtain ⟨host, hh, rfl⟩ := hk
  simpa using ha k host hh

theorem AddressedMap.reserve {M M' : HostMap} (ha : AddressedMap M) {appId : Int}
    {apps : List (Int × InFlightPair)} (h : reserveOpenMpSlots appId apps M = .ok M') : AddressedMap M' := by
  intro k host hk
  rw [reserveOpenMpSlots_getElem? h k] at hk
  obtain ⟨old, hold, rfl⟩ := Option.map_eq_some_iff.mp hk
  exact ha k old hold

theorem AddressedMap.freeAppSlots {M : HostMap} (ha : AddressedMap M)
    (freq : ExtTreeMap String Int compare) {k : String} {h : HostState}
    (hk : (freeAppSlots freq M)[k]? = some h) : h.ip = k ∧ ∃ old, M[k]? = some old := by
  simp only [Faabric.freeAppSlots, ExtTreeMap.getElem?_map, Option.map_eq_some_iff] at hk
  obtain ⟨old, hold, rfl⟩ := hk
  refine ⟨?_, old, hold⟩
  rw [← (ha k old hold).1]
  split <;> rfl

namespace Compact

variable {M : HostMap} {inFlightReqs : InFlightReqs} {req : BatchExecuteRequest} {d : SchedulingDecision}

theorem getSortedHosts_mem (ha : AddressedMap M) {t : DecisionType} {h : HostState}
    (hh : h ∈ getSortedHosts M inFlightReqs req t) : ∃ old, M[h.ip]? = some old := by
  have hlist : ∀ {M' : HostMap}, (∀ (k : String) (host : HostState), M'[k]? = some host →
      host.ip = k ∧ ∃ old, M[k]? = some old) → ∀ isFirst, h ∈ sortHosts isFirst (hostList M') → ∃ old, M[h.ip]? = some old := by
    intro M' hM' isFirst hmem
    have hin := (sortHosts_perm isFirst (hostList M')).mem_iff.mp hmem
    obtain ⟨⟨k, host⟩, hk, rfl⟩ := List.mem_map.mp hin
    obtain ⟨hip, hold⟩ := hM' k host (ExtTreeMap.mem_toList_iff_getElem?_eq_some.mp hk)
    exact hip ▸ hold
  have hself : ∀ (k : String) (host : HostState), M[k]? = some host → host.ip = k ∧ ∃ old, M[k]? = some old :=
    fun k host hk => ⟨(ha k host hk).1, host, hk⟩
  cases t with
  | new => exact hlist hself _ hh
  | scaleChange => exact hlist hself _ hh
  | distChange => exact hlist (fun k host hk => ha.freeAppSlots _ hk) _ hh

theorem decision_hosts (ha : AddressedMap M)
    (hold : ∀ pair, inFlightReqs[req.appId]? = some pair → ∀ x ∈ pair.2.hosts, x ≠ "")
    (h : makeSchedulingDecision M inFlightReqs req = .ok d) :
    ∀ x ∈ d.hosts, x ≠ "" ∧ FreeOfOthers inFlightReqs req.subType x := by
  have hF : AddressedMap (filterHosts M inFlightReqs req) :=
    fun k host hk => ha k host (filterHosts_spec hk).1
  have hassigned : ∀ x ∈ (decisionFor req.appId (assignSlots (getSortedHosts
      (filterHosts M inFlightReqs req) inFlightReqs req (getDecisionType inFlightReqs req))
      req.messages).1).hosts, x ≠ "" ∧ FreeOfOthers inFlightReqs req.subType x := by
    intro x hx
    rw [decisionFor_eq] at hx
    simp only [SchedulingDecision.hosts, List.map_map, List.mem_map, Function.comp_apply] at hx
    obtain ⟨e, he, rfl⟩ := hx
    obtain ⟨old, hk⟩ := getSortedHosts_mem hF (FirstFit.fill_bin_mem he)
    exact ⟨(hF _ old hk).2, (filterHosts_spec hk).2⟩
  unfold makeSchedulingDecision at h
  dsimp only at h
  split_ifs at h with hfit hdist
  · obtain rfl := Except.ok.inj h
    exact fun x hx => absurd hx List.not_mem_nil
  · split at h
    · cases h
    · rename_i oldReq old hrun
      split_ifs at h
      · have hne : ∀ p ∈ old.placements, p.host ≠ "" :=
          fun p hp => hold _ hrun p.host (List.mem_map_of_mem hp)
        obtain ⟨-, hle⟩ := minimiseNumOfMigrations_spec hne h
        intro x hx
        obtain ⟨p, hp, rfl⟩ := List.mem_map.mp hx
        have hpos := (hostCount_pos_of_mem hp).trans_le (hle p.host)
        obtain ⟨p', hp', hhost⟩ := List.countP_pos_iff.mp hpos
        exact hassigned p.host (List.mem_map.mpr ⟨p', hp', by simpa using hhost⟩)
      · obtain rfl := Except.ok.inj h
        exact fun x hx => absurd hx List.not_mem_nil
  · obtain rfl := Except.ok.inj h
    exact hassigned

end Compact

theorem Scheduled.hosts {env : CallEnv} {t : DecisionType} {req : BatchExecuteRequest}
    {d : SchedulingDecision} {k : Bool} {s' : PlannerState}
    (h : Scheduled env .compact t req s (.ok (d, k)) s') (ha : Addressed s.hostMap)
    (hev : s.nextEvictedHostIps = ∅)
    (hold : ∀ pair, s.inFlightReqs[req.appId]? = some pair → ∀ x ∈ pair.2.hosts, x ≠ "") :
    ∀ x ∈ d.hosts, (∃ pre, s.preloadedSchedulingDecisions[req.appId]? = some pre ∧ x ∈ pre.hosts) ∨
      (x ≠ "" ∧ FreeOfOthers s.inFlightReqs req.subType x) := by
  intro x hx
  cases h with
  | @preloaded pre picks _ loaded picked =>
    obtain ⟨p, hpick, rfl⟩ := List.mem_map.mp hx
    obtain ⟨qs, hqs, -, hlease⟩ := preloadedPlacements_picked picked
    obtain ⟨q, hq, hqp⟩ := List.mem_map.mp (hlease ▸ List.mem_map_of_mem hpick)
    exact Or.inl ⟨pre, loaded, List.mem_map.mpr ⟨q, hqs q hq, congrArg Prod.fst hqp⟩⟩
  | @made M req' _ _ _ _ reserved _ scheduled decided =>
    have hconv : AddressedMap (convertToBatchSchedHostMap s.hostMap s.nextEvictedHostIps) := by
      rw [hev]
      exact addressed_convert ha
    have hM : AddressedMap M := by
      unfold reservedHosts at reserved
      split_ifs at reserved
      · exact hconv.reserve reserved
      · exact Except.ok.inj reserved ▸ hconv
    have heq := scheduledRequest_eq scheduled
    have hsub : req'.subType = req.subType := by rw [heq]
    have happ : req'.appId = req.appId := by rw [heq]
    exact Or.inr (hsub ▸ Compact.decision_hosts hM (by rw [happ]; exact hold) decided x hx)

theorem callBatch_scheduler (env : CallEnv) (req : BatchExecuteRequest) {mode : SchedulerMode}
    (hs : schedulerOf s = some mode) :
    schedulerOf (callBatch env req s).2 = some mode ∧ (callBatch env req s).2.policy = s.policy ∧
      (callBatch env req s).2.nextEvictedHostIps = s.nextEvictedHostIps := by
  have hc := callBatch_config env req s
  rw [getBatchScheduler_eq, hs] at hc
  simp only [PlannerState.config, Prod.mk.injEq] at hc
  obtain ⟨h1, h2, h3, h4, _⟩ := hc
  exact ⟨by simp [schedulerOf, h3], h1, h4⟩

/-- The tenants' apps share no host, neither in flight nor claimed in advance. -/
structure TenantsApart (tenant : Int → Int) (s : PlannerState) : Prop where
  addressed : Addressed s.hostMap
  scheduler : schedulerOf s = some .compact
  policy : s.policy ≠ "spot"
  unevicted : s.nextEvictedHostIps = ∅
  subTypes : ∀ (app : Int) (pair : InFlightPair), s.inFlightReqs[app]? = some pair →
    pair.1.subType = tenant app
  named : ∀ app, ∀ x ∈ s.hostsOf app, x ≠ ""
  apart : ∀ app app', tenant app ≠ tenant app' → ∀ x ∈ s.hostsOf app, x ∉ s.hostsOf app'

theorem TenantsApart.rehoused {s' : PlannerState} (h : TenantsApart tenant s) {app : Int}
    {hosts : List String} (hr : Rehoused app (tenant app) hosts s s')
    (hhosts : ∀ x ∈ hosts, x ∈ s.hostsOf app ∨
      (x ≠ "" ∧ ∀ app', tenant app' ≠ tenant app → x ∉ s.hostsOf app'))
    (hs : schedulerOf s' = some .compact) (hp : s'.policy = s.policy)
    (he : s'.nextEvictedHostIps = s.nextEvictedHostIps) : TenantsApart tenant s' := by
  have hown : ∀ x ∈ s'.hostsOf app, x ≠ "" ∧ ∀ app', tenant app' ≠ tenant app → x ∉ s.hostsOf app' := by
    intro x hx
    have hkept : x ∈ s.hostsOf app → x ≠ "" ∧ ∀ app', tenant app' ≠ tenant app → x ∉ s.hostsOf app' :=
      fun hx => ⟨h.named app x hx, fun app' hne => h.apart app app' (Ne.symm hne) x hx⟩
    rcases hr.own x hx with hx | hx
    · exact hkept hx
    · exact (hhosts x hx).elim hkept id
  refine ⟨hr.addressed h.addressed, hs, hp ▸ h.policy, he.trans h.unevicted, ?_, ?_, ?_⟩
  · intro a pair hpair
    by_cases ha : a = app
    · subst ha
      rcases hr.subTypes pair hpair with hsub | ⟨old, hold, hsub⟩
      · exact hsub
      · exact hsub.trans (h.subTypes a old hold)
    · rw [(hr.others a ha).1] at hpair
      exact h.subTypes a pair hpair
  · intro a x hx
    by_cases ha : a = app
    · exact (hown x (ha ▸ hx)).1
    · rw [hr.hostsOf_eq ha] at hx
      exact h.named a x hx
  · intro a a' hne x hx hx'
    by_cases ha : a = app
    · subst ha
      have ha' : a' ≠ a := fun he => hne (congrArg tenant he.symm)
      rw [hr.hostsOf_eq ha'] at hx'
      exact (hown x hx).2 a' (Ne.symm hne) hx'
    · rw [hr.hostsOf_eq ha] at hx
      by_cases ha' : a' = app
      · subst ha'
        exact (hown x hx').2 a hne hx
      · rw [hr.hostsOf_eq ha'] at hx'
        exact h.apart a a' hne x hx hx'

theorem TenantsApart.placedHosts (h : TenantsApart tenant s) (env : CallEnv)
    {req : BatchExecuteRequest} (hsub : req.subType = tenant req.appId) :
    ∀ x ∈ placedHosts env req s, x ∈ s.hostsOf req.appId ∨
      (x ≠ "" ∧ FreeOfOthers s.inFlightReqs (tenant req.appId) x) := by
  intro x hx
  have hcalled := callBatch_called env req s
  generalize Faabric.placedHosts env req s = hosts at hx hcalled
  generalize (callBatch env req s).1 = r, (callBatch env req s).2 = s' at hcalled
  cases hcalled with
  | unscheduled => cases hx
  | unprepared => cases hx
  | failed => cases hx
  | @handled mode req' d k _ _ _ scheduler prepared scheduled =>
    obtain rfl := Option.some.inj (scheduler.symm.trans h.scheduler)
    have happ := prepareRequest_appId prepared
    have hsub' : req'.subType = tenant req.appId := by
      rcases prepareRequest_subType prepared with he | ⟨old, hold, he⟩
      · exact he.trans hsub
      · exact he.trans (h.subTypes req.appId old hold)
    have hd : x ∈ d.hosts := by
      unfold committedHosts at hx
      split_ifs at hx
      · cases hx
      · exact hx
    have hold : ∀ pair, s.inFlightReqs[req'.appId]? = some pair → ∀ y ∈ pair.2.hosts, y ≠ "" := by
      rw [happ]
      intro pair hpair y hy
      exact h.named req.appId y (mem_hostsOf.mpr (Or.inl ⟨pair, hpair, hy⟩))
    rcases scheduled.hosts h.addressed h.unevicted hold x hd with ⟨pre, hpre, hx⟩ | hfree
    · rw [happ] at hpre
      exact Or.inl (mem_hostsOf.mpr (Or.inr ⟨pre, hpre, hx⟩))
    · exact Or.inr (hsub' ▸ hfree)

/-- Every request of an app carries its subtype, and no message is placed on a host that an app
of another tenant has claimed in advance. -/
def AvoidsPreloads (tenant : Int → Int) (s : PlannerState) : BatchOp → Prop
  | .callBatch env req => req.subType = tenant req.appId ∧
      ∀ e ∈ s.preloadedSchedulingDecisions.toList, tenant e.1 ≠ tenant req.appId →
        ∀ x ∈ placedHosts env req s, x ∉ e.2.hosts
  | _ => True

instance (tenant : Int → Int) (s : PlannerState) : (op : BatchOp) → Decidable (AvoidsPreloads tenant s op)
  | .callBatch .. => inferInstanceAs (Decidable (_ ∧ _))
  | .setNextEvictedVm _ | .setMessageResult _ => instDecidableTrue

theorem TenantsApart.step (s : PlannerState) (op : BatchOp) (h : TenantsApart tenant s)
    (hok : AvoidsPreloads tenant s op) : TenantsApart tenant (op.step s) := by
  cases op with
  | callBatch env req =>
    obtain ⟨hsub, havoid⟩ := hok
    obtain ⟨hs, hp, he⟩ := callBatch_scheduler env req h.scheduler
    have hr := callBatch_rehoused env req s
    rw [hsub] at hr
    refine h.rehoused hr ?_ hs hp he
    intro x hx
    refine (h.placedHosts env hsub x hx).imp_right ?_
    rintro ⟨hname, hfree⟩
    refine ⟨hname, ?_⟩
    intro app' hne hmem
    rcases mem_hostsOf.mp hmem with ⟨pair, hpair, hin⟩ | ⟨d, hd, hin⟩
    · exact hfree app' pair hpair (by rw [h.subTypes app' pair hpair]; exact hne) hin
    · exact havoid (app', d) (ExtTreeMap.mem_toList_iff_getElem?_eq_some.mpr hd) hne x hx hin
  | setNextEvictedVm vmIps =>
    have hsame : (Faabric.setNextEvictedVm vmIps s).2 = s := by
      simp [Faabric.setNextEvictedVm, h.policy]
    simp only [BatchOp.step, hsame]
    exact h
  | setMessageResult msg =>
    have hg := setMessageResult_governance msg s
    simp only [PlannerState.governance, Prod.mk.injEq] at hg
    obtain ⟨hp, hm, hb, he⟩ := hg
    refine h.rehoused (setMessageResult_rehoused msg s) (fun x hx => absurd hx List.not_mem_nil) ?_ hp he
    rw [← h.scheduler]
    simp only [BatchOp.step, schedulerOf, hb, hm]

structure CompactStart (s : PlannerState) : Prop where
  addressed : Addressed s.hostMap
  scheduler : schedulerOf s = some .compact
  policy : s.policy ≠ "spot"
  unevicted : s.nextEvictedHostIps = ∅
  inFlightReqs : s.inFlightReqs = ∅
  preloaded : s.preloadedSchedulingDecisions = ∅

theorem CompactStart.apart (h : CompactStart s) (tenant : Int → Int) :
    TenantsApart tenant s := by
  have hnone : ∀ app, s.hostsOf app = [] := by
    intro app
    simp [PlannerState.hostsOf, h.inFlightReqs, h.preloaded]
  refine ⟨h.addressed, h.scheduler, h.policy, h.unevicted, ?_, ?_, ?_⟩
  · intro app pair hpair
    simp [h.inFlightReqs] at hpair
  · intro app x hx
    rw [hnone] at hx
    cases hx
  · intro app app' _ x hx
    rw [hnone] at hx
    cases hx

/-- In every run in which no message is placed on a host that another tenant's app has claimed
in advance, no host runs messages of two apps with different subtypes. -/
theorem tenants_isolated {tenant : Int → Int} {s : PlannerState} (hs : CompactStart s) {ops : List BatchOp}
    (h : GuardedRun.Meets BatchOp.step (AvoidsPreloads tenant) s ops) :
    ∀ (app app' : Int) (pair pair' : InFlightPair),
      (GuardedRun.run BatchOp.step s ops).inFlightReqs[app]? = some pair →
      (GuardedRun.run BatchOp.step s ops).inFlightReqs[app']? = some pair' →
      pair.1.subType ≠ pair'.1.subType → ∀ x ∈ pair.2.hosts, x ∉ pair'.2.hosts := by
  have hapart := h.invariant TenantsApart.step (hs.apart tenant)
  intro app app' pair pair' hpair hpair' hne x hx hx'
  rw [hapart.subTypes app pair hpair, hapart.subTypes app' pair' hpair'] at hne
  exact hapart.apart app app' hne x (mem_hostsOf.mpr (Or.inl ⟨pair, hpair, hx⟩))
    (mem_hostsOf.mpr (Or.inl ⟨pair', hpair', hx'⟩))

def tenantRequest (tenant appId : Int) (messages : List Message) : BatchExecuteRequest :=
  { requestFor appId messages with subType := tenant }

def compactPlanner : PlannerState := plannerWith "compact" [hostWith "a" 4, hostWith "b" 4]

theorem compactPlanner_start : CompactStart compactPlanner where
  addressed := fun ip h hh =>
    let hhost := (plannerWith_fresh "compact" (by decide)).hosts ip h hh
    ⟨hhost.1, hhost.2.1⟩
  scheduler := by decide
  policy := by decide
  unevicted := by decide
  inFlightReqs := (plannerWith_fresh "compact" (by decide)).inFlightReqs
  preloaded := (plannerWith_fresh "compact" (by decide)).preloaded

theorem tenants_isolated_two :
    let s := GuardedRun.run BatchOp.step compactPlanner
      [.callBatch {} (tenantRequest 1 1 [mpiRank 1 4 0]), .callBatch {} (tenantRequest 2 2 [plainMessage 2 21])]
    s.inFlightReqs.toList.map (fun e => e.2.1.subType) = [1, 2] ∧
      ∀ (app app' : Int) (pair pair' : InFlightPair), s.inFlightReqs[app]? = some pair →
        s.inFlightReqs[app']? = some pair' → pair.1.subType ≠ pair'.1.subType →
          ∀ x ∈ pair.2.hosts, x ∉ pair'.2.hosts :=
  ⟨by decide +kernel, @tenants_isolated id compactPlanner compactPlanner_start _ (by decide +kernel)⟩

/-- While the ranks of an MPI app are claimed on a host but not yet in flight there, an app of
another tenant is placed on that host, and then the ranks arrive. -/
theorem preloaded_ranks_join_other_tenant :
    CompactStart compactPlanner ∧
    (GuardedRun.run BatchOp.step compactPlanner
      [.callBatch {} (tenantRequest 1 1 [mpiRank 1 6 0]),
       .callBatch {} (tenantRequest 2 2 [plainMessage 2 21]),
       .callBatch {} (tenantRequest 1 1
        [mpiRank 1 6 1, mpiRank 1 6 2, mpiRank 1 6 3, mpiRank 1 6 4, mpiRank 1 6 5])]).inFlightReqs.toList.map
        (fun e => (e.1, e.2.1.subType, e.2.2.hosts)) =
      [(1, 1, ["b", "b", "b", "b", "a", "a"]), (2, 2, ["a"])] :=
  ⟨compactPlanner_start, by decide +kernel⟩

end Faabric
