import Faabric.Planner.Atomicity

/-! The messages that the planner has sent to workers for execution. -/

namespace Faabric

open Std (ExtTreeMap ExtTreeSet)

variable {d : SchedulingDecision} {old : InFlightPair} {added : List Placement}

theorem perm_flatMap_filter {α β : Type} [DecidableEq β] (key : α → β) {values : List β}
    (hnd : values.Nodup) (l : List α) (hmem : ∀ a ∈ l, key a ∈ values) :
    (values.flatMap fun v => l.filter fun a => key a = v).Perm l := by
  induction l with
  | nil => simp
  | cons a l ih =>
    have hrest := ih fun b hb => hmem b (List.mem_cons_of_mem a hb)
    obtain ⟨before, after, rfl⟩ := List.append_of_mem (hmem a List.mem_cons_self)
    have hsplit := List.nodup_append.mp hnd
    have hbefore : key a ∉ before := fun h => hsplit.2.2 _ h _ List.mem_cons_self rfl
    have hafter : key a ∉ after := (List.nodup_cons.mp hsplit.2.1).1
    have hother (vs : List β) (hvs : key a ∉ vs) :
        (vs.flatMap fun v => (a :: l).filter fun b => key b = v) =
          vs.flatMap fun v => l.filter fun b => key b = v := by
      apply List.flatMap_congr
      intro v hv
      have hne : key a ≠ v := fun h => hvs (h ▸ hv)
      simp [hne]
    simp only [List.flatMap_append, List.flatMap_cons, hother before hbefore, hother after hafter] at hrest ⊢
    simp only [List.filter_cons, decide_true, if_true, List.cons_append]
    exact List.perm_middle.trans (hrest.cons a)

theorem uniqueHosts_nodup (hosts : List String) : (uniqueHosts hosts).Nodup :=
  MapTotal.setToList_nodup _

theorem mem_uniqueHosts {hosts : List String} {host : String} : host ∈ uniqueHosts hosts ↔ host ∈ hosts := by
  simp [uniqueHosts]

def dispatched (appId : Int) (sent : List Outgoing) : List Message :=
  sent.flatMap fun
    | .executeFunctions _ req => if req.appId = appId then req.messages else []
    | _ => []

@[simp] theorem dispatched_append (appId : Int) (sent sent' : List Outgoing) :
    dispatched appId (sent ++ sent') = dispatched appId sent ++ dispatched appId sent' :=
  List.flatMap_append

@[simp] theorem dispatched_mappings (appId : Int) (hosts : List String) (m : PointToPointMappings) :
    dispatched appId (hosts.map fun host => .sendMappings host m) = [] := by
  simp [dispatched, List.flatMap_map]

@[simp] theorem dispatched_mappingsSent (appId : Int) (ip : String) (d : SchedulingDecision) :
    dispatched appId (mappingsSent ip d) = [] :=
  dispatched_mappings appId _ _

@[simp] theorem dispatched_notifications (appId : Int) (msg : Message) (s : PlannerState) :
    dispatched appId (notifications msg s) = [] := by
  unfold notifications
  split_ifs
  · rfl
  · simp [dispatched, List.flatMap_map]

theorem dispatched_requestsSent_other {appId : Int} {req : BatchExecuteRequest}
    (h : d.appId ≠ appId) : dispatched appId (requestsSent req d) = [] := by
  simp [dispatched, requestsSent, List.flatMap_map, hostRequest, h]

theorem dispatched_requestsSent {req : BatchExecuteRequest}
    (h : req.messages.length = d.placements.length) :
    (dispatched d.appId (requestsSent req d)).Perm req.messages := by
  have hzip : (req.messages.zip d.placements).map Prod.fst = req.messages := List.map_fst_zip h.le
  have hgroup := perm_flatMap_filter (fun e : Message × Placement => e.2.host)
    (uniqueHosts_nodup (d.placements.map Placement.host)) (req.messages.zip d.placements)
    (fun e he => mem_uniqueHosts.mpr (List.mem_map_of_mem (List.of_mem_zip he).2))
  have hmap := hgroup.map Prod.fst
  rw [hzip, List.map_flatMap] at hmap
  have htake : d.placements.take req.messages.length = d.placements := by
    rw [h, List.take_length]
  simpa [dispatched, requestsSent, List.flatMap_map, hostRequest, htake] using hmap

section Effects

variable {env : CallEnv} {req : BatchExecuteRequest} {s s' : PlannerState}

theorem Started.decision_appId {full : List Placement} (h : Started env req s full d s')
    : d.appId = req.appId := by
  rw [h.decision]
  rfl

theorem Started.dispatched {full : List Placement} (h : Started env req s full d s') :
    (Faabric.dispatched req.appId (s'.sent.drop s.sent.length)).Perm (startedRequest env req s).messages := by
  have hlen := h.pairOk.length_eq
  rw [h.sent, List.append_assoc, List.drop_left, dispatched_append, dispatched_mappingsSent, List.nil_append,
    ← h.decision_appId]
  exact dispatched_requestsSent hlen.symm

theorem Grown.decision_appId (h : Grown env req s old added d s')
    (hload : ∀ preloaded, s.preloadedSchedulingDecisions[req.appId]? = some preloaded →
      preloaded.appId = req.appId) : d.appId = req.appId := by
  rcases h.claims with hc | hc
  · obtain ⟨d₀, hplaces, rfl⟩ := hc.decision
    exact hplaces.appId
  · obtain ⟨preloaded, picks, hl, -, rfl⟩ := hc.loaded
    exact hload preloaded hl

theorem Grown.length_eq (h : Grown env req s old added d s') :
    (grownRequest env req s).messages.length = d.placements.length := by
  have hkeys := congrArg List.length h.keys
  rcases h.claims with hc | hc
  · have hsites := congrArg List.length hc.sites
    simp only [List.length_map] at hkeys hsites
    omega
  · have hleases := congrArg List.length hc.leases
    simp only [List.length_map] at hkeys hleases
    omega

theorem Grown.dispatched (h : Grown env req s old added d s')
    (hload : ∀ preloaded, s.preloadedSchedulingDecisions[req.appId]? = some preloaded →
      preloaded.appId = req.appId) :
    (Faabric.dispatched req.appId (s'.sent.drop s.sent.length)).Perm (grownRequest env req s).messages := by
  rw [h.sent, List.append_assoc, List.drop_left, dispatched_append, dispatched_mappingsSent, List.nil_append,
    ← h.decision_appId hload]
  exact dispatched_requestsSent h.length_eq

theorem CallEffect.sent_eq {r : Except PlannerError SchedulingDecision} (h : CallEffect env req s r s')
    (hload : ∀ preloaded, s.preloadedSchedulingDecisions[req.appId]? = some preloaded →
      preloaded.appId = req.appId) :
    ∃ new, s'.sent = s.sent ++ new ∧ ∀ app ≠ req.appId, Faabric.dispatched app new = [] := by
  cases h with
  | refused _ hsent _ => exact ⟨[], by simpa using hsent, fun _ _ => rfl⟩
  | dropped _ _ _ _ _ _ hsent => exact ⟨[], by simpa using hsent, fun _ _ => rfl⟩
  | frozen _ _ hsent => exact ⟨[], by simpa using hsent, fun _ _ => rfl⟩
  | started h =>
    refine ⟨_, h.sent.trans (List.append_assoc _ _ _), fun app happ => ?_⟩
    rw [dispatched_append, dispatched_mappingsSent, dispatched_requestsSent_other]
    · rfl
    · rw [h.decision_appId]
      exact happ.symm
  | @grown req' _ _ d _ _ hprep h =>
    obtain ⟨hreq, -⟩ := prepareRequest_scale hprep
    have hd := h.decision_appId (hreq ▸ hload)
    refine ⟨_, h.sent.trans (List.append_assoc _ _ _), fun app happ => ?_⟩
    rw [dispatched_append, dispatched_mappingsSent, dispatched_requestsSent_other]
    · rfl
    · rw [hd, hreq]
      exact happ.symm
  | migrated _ h =>
    refine ⟨_, h.sent.trans (List.append_assoc _ _ _), fun app _ => ?_⟩
    rw [dispatched_append, dispatched_mappingsSent, dispatched_mappings]
    rfl

/-! Calls for which there is room. -/

theorem callBatch_started {d₀ : SchedulingDecision} (ha : Accounted s) (he : EvictionsOk s)
    (hfresh : s.inFlightReqs[req.appId]? = none) (hn : NewOk s req)
    (hd : scheduledDecision env req s = some d₀) :
    ∃ full d, (callBatch env req s).1 = .ok d ∧ Started env req s full d (callBatch env req s).2 := by
  obtain ⟨mode, req', k, s₂, hmode, hprep, hsched, hv, hcall⟩ := scheduledDecision_stages hd
  set s₁ : PlannerState := { s with batchScheduler := some mode } with hs₁
  have ha₁ : Accounted s₁ := ha.of_books rfl rfl rfl
  rw [getDecisionType_new hfresh] at hprep hsched hcall
  obtain rfl := Except.ok.inj hprep
  obtain ⟨rfl, rfl, hd | ⟨messages, hc, hdec, hkeys, hf⟩⟩ := hsched.starts ha₁ (he.unless_spot hmode) hfresh
  · exact absurd (Or.inl hd) hv
  · obtain ⟨full, d, s₂, hcommit, hst⟩ := commitNew_started env ha₁ hfresh hn hc hkeys hf
    rw [hdec] at hcall
    simp only [commitDecision, unFreeze_eq] at hcall
    rw [hcall.trans hcommit]
    exact ⟨full, d, rfl, { hst with }⟩

theorem callBatch_grown_preload {old : InFlightPair} {preloaded : SchedulingDecision} {picks : List Placement}
    (ha : Accounted s) (hmode : (schedulerOf s).isSome) (hrun : s.inFlightReqs[req.appId]? = some old)
    (htype : req.type ≠ .migration) (homp : req.isOmp = false)
    (hload : s.preloadedSchedulingDecisions[req.appId]? = some preloaded)
    (hapart : PicksApart preloaded req)
    (hpicks : preloadedPlacements preloaded.placements req.messages = .ok picks)
    (htakes : TakesPreload req s) :
    ∃ added d, (callBatch env req s).1 = .ok d ∧ Grown env req s old added d (callBatch env req s).2 := by
  obtain ⟨mode, hmode⟩ := Option.isSome_iff_exists.mp hmode
  obtain ⟨hne, hone⟩ := htakes (by rw [hrun]; rfl) htype _ hload _ (congrArg Except.toOption hpicks)
  unfold callBatch
  rw [getBatchScheduler_eq, hmode]
  dsimp only
  set s₁ : PlannerState := { s with batchScheduler := some mode } with hs₁
  have ha₁ : Accounted s₁ := ha.of_books rfl rfl rfl
  have hrun₁ : s₁.inFlightReqs[req.appId]? = some old := hrun
  have hload₁ : s₁.preloadedSchedulingDecisions[req.appId]? = some preloaded := hload
  have hprep : prepareRequest env .scaleChange req s₁ = .ok req := by
    simp [prepareRequest, ExtTreeMap.contains_eq_isSome_getElem?, hload₁]
  have hsched : scheduleRequest env mode .scaleChange req s₁ =
      (.ok ({ appId := preloaded.appId, groupId := preloaded.groupId, nFunctions := picks.length,
              placements := picks }, false),
        { s₁ with preloadedSchedulingDecisions := s₁.preloadedSchedulingDecisions.erase req.appId }) := by
    simp [scheduleRequest, homp, hload₁, getPreloadedSchedulingDecision, hpicks, Except.map]
  rw [getDecisionType_running hrun₁, if_neg htype, hprep]
  dsimp only
  rw [hsched]
  dsimp only
  obtain ⟨added, d, s₂, hcommit, hg⟩ := @commitDecision_preload env req s₁ old preloaded picks false ha₁ hrun₁
    hload₁ hpicks (picks_hosted ha₁ hload hapart hpicks)
  have hverdict (v : SchedulingDecision) (hv : v.placements = []) :
      ({ appId := preloaded.appId, groupId := preloaded.groupId, nFunctions := picks.length,
         placements := picks } : SchedulingDecision) ≠ v := by
    rintro rfl
    exact hne hv
  unfold handleDecision
  rw [if_neg (hverdict _ rfl), if_neg (hverdict _ rfl), if_neg (hverdict _ rfl), if_neg, hcommit]
  · exact ⟨added, d, rfl, { hg with
      claims := hg.claims.imp (fun hc => { hc with }) fun hc => { hc with } }⟩
  · simp only [Bool.and_eq_true, Bool.not_eq_true', not_and, Bool.not_eq_true]
    intro hmany
    by_contra hhint
    have hlt := isSingleHost_eq_false hmany
    have hle := hone (by simpa using hhint)
    exact absurd hle (by simpa using hlt)

end Effects

end Faabric
