import Faabric.Planner.CallStages
import Faabric.Planner.Growing

/-! Everything one `callBatch` can do to the planner, in one place. -/

namespace Faabric

open Std (ExtTreeMap)
open MapTotal

variable {old : InFlightPair} {d : SchedulingDecision} {req' : BatchExecuteRequest}
  {picks : List Placement} {r : Except PlannerError SchedulingDecision} {s' : PlannerState}

/-! The part of the state that `callBatch` leaves alone. -/

variable {env : CallEnv} {req : BatchExecuteRequest} {s : PlannerState}

theorem Called.config {hosts : List String} (h : Called env req s hosts r s') :
    s'.config = (getBatchScheduler s).2.config := by
  rw [getBatchScheduler_eq]
  cases h with
  | unscheduled unknown => rw [unknown]
  | unprepared scheduler => rw [scheduler]
  | failed scheduler => rw [scheduler]; rfl
  | handled scheduler _ scheduled _ handled => rw [scheduler, handled.config, scheduled.frame.1]

theorem callBatch_config (env : CallEnv) (req : BatchExecuteRequest) (s : PlannerState) :
    (callBatch env req s).2.config = (getBatchScheduler s).2.config :=
  (callBatch_called env req s).config

theorem callBatch_results (env : CallEnv) (req : BatchExecuteRequest) (s : PlannerState) :
    (callBatch env req s).2.appResults = s.appResults ∧
      (callBatch env req s).2.appResultWaiters = s.appResultWaiters := by
  have hc := callBatch_config env req s
  rw [getBatchScheduler_eq] at hc
  simp only [PlannerState.config, Prod.mk.injEq] at hc
  obtain ⟨_, _, _, _, h, h', _⟩ := hc
  rw [h, h']
  cases schedulerOf s <;> exact ⟨rfl, rfl⟩

/-! The effects. -/

/-- The messages of the request pick different placements of the preloaded decision,
and not the first one, which is in flight already. -/
def PicksApart (preloaded : SchedulingDecision) (req : BatchExecuteRequest) : Prop :=
  (preloadedPlacements preloaded.placements req.messages).toOption.isSome →
    (req.messages.map Message.groupIdx).Nodup ∧
      ∀ p ∈ preloaded.placements.head?, p.groupIdx ∉ req.messages.map Message.groupIdx

/-- The requests that keep the books: their messages have placements of their own. -/
structure RequestOk (req : BatchExecuteRequest) (s : PlannerState) : Prop where
  starts : s.inFlightReqs[req.appId]? = none → NewOk s req
  grows : s.inFlightReqs[req.appId]?.isSome → req.type ≠ .migration →
    ∀ d ∈ s.preloadedSchedulingDecisions[req.appId]?, PicksApart d req

def EvictionsOk (s : PlannerState) : Prop :=
  schedulerOf s = some .spot ∨ ∀ ip ∈ s.nextEvictedHostIps, s.hostMap[ip]? = none

variable {mode : SchedulerMode}

theorem EvictionsOk.unless_spot (h : EvictionsOk s) (hmode : schedulerOf s = some mode) :
    mode = .spot ∨ ∀ ip ∈ s.nextEvictedHostIps, s.hostMap[ip]? = none := by
  rcases h with h | h
  · rw [hmode] at h
    exact Or.inl (Option.some.inj h)
  · exact Or.inr h

instance (preloaded : SchedulingDecision) (req : BatchExecuteRequest) :
    Decidable (PicksApart preloaded req) :=
  inferInstanceAs (Decidable (_ → _))

instance (req : BatchExecuteRequest) (s : PlannerState) : Decidable (RequestOk req s) :=
  decidable_of_iff (_ ∧ _) ⟨fun h => ⟨h.1, h.2⟩, fun h => ⟨h.1, h.2⟩⟩

instance (s : PlannerState) : Decidable (EvictionsOk s) := inferInstanceAs (Decidable (_ ∨ _))

structure CallOk (req : BatchExecuteRequest) (s : PlannerState) : Prop
    extends RequestOk req s where
  evictions : EvictionsOk s

inductive CallEffect (env : CallEnv) (req : BatchExecuteRequest) (s : PlannerState) :
    Except PlannerError SchedulingDecision → PlannerState → Prop
  | refused {r : Except PlannerError SchedulingDecision} {s' : PlannerState} (books : SameBooks s s')
      (sent : s'.sent = s.sent)
      (verdict : ∀ d, r = .ok d → d = NOT_ENOUGH_SLOTS_DECISION ∨ d = DO_NOT_MIGRATE_DECISION) :
      CallEffect env req s r s'
  | dropped {preloaded : SchedulingDecision} {picks : List Placement} {s' : PlannerState}
      (running : s.inFlightReqs[req.appId]?.isSome) (type : req.type ≠ .migration)
      (loaded : s.preloadedSchedulingDecisions[req.appId]? = some preloaded)
      (picked : preloadedPlacements preloaded.placements req.messages = .ok picks)
      (why : picks = [] ∨
        1 < (picks.map Placement.host).dedup.length ∧ req.singleHostHint = true)
      (books : SameBooks
        { s with preloadedSchedulingDecisions := s.preloadedSchedulingDecisions.erase req.appId } s')
      (sent : s'.sent = s.sent) :
      CallEffect env req s (.ok NOT_ENOUGH_SLOTS_DECISION) s'
  | frozen {old : InFlightPair} {s' : PlannerState} (running : s.inFlightReqs[req.appId]? = some old)
      (books : SameBooks { s with evictedRequests := s.evictedRequests.insert req.appId old.1 } s')
      (sent : s'.sent = s.sent) :
      CallEffect env req s (.ok MUST_FREEZE_DECISION) s'
  | started {full : List Placement} {d : SchedulingDecision} {s' : PlannerState}
      (effect : Started env req s full d s') : CallEffect env req s (.ok d) s'
  | grown {req' : BatchExecuteRequest} {old : InFlightPair} {added : List Placement}
      {d : SchedulingDecision} {s' : PlannerState} (type : req.type ≠ .migration)
      (prepared : prepareRequest env .scaleChange req s = .ok req')
      (effect : Grown env req' s old added d s') : CallEffect env req s (.ok d) s'
  | migrated {old : InFlightPair} {d : SchedulingDecision} {s' : PlannerState}
      (type : req.type = .migration) (effect : Migrated env req s old d s') :
      CallEffect env req s (.ok d) s'

theorem CallEffect.noSlots (h : (.ok NOT_ENOUGH_SLOTS_DECISION, s) = (r, s')) : CallEffect env req s r s' := by
  obtain ⟨rfl, rfl⟩ := Prod.mk.inj h
  exact .refused (SameBooks.refl _) rfl fun d hd => .inl (Except.ok.inj hd).symm

variable (ha : Accounted s) (he : mode = .spot ∨ ∀ ip ∈ s.nextEvictedHostIps, s.hostMap[ip]? = none)

theorem makeDecision_eq (hd : getDecisionType s.inFlightReqs req ≠ .distChange) (M : HostMap) :
    makeDecision env mode M req s =
      (mode.makeSchedulingDecision s.distChangeCounter env.graph env.now M s.inFlightReqs req, s) := by
  simp [makeDecision, hd]

include ha he in
theorem under_reserved {M : HostMap} (h : reservedHosts req s = .ok M) :
    Under (mode.usableHosts M) (slotsOn s.hostMap) (countedUsed req s) := by
  have hu := under_convert ha.hosts he
  unfold countedUsed
  unfold reservedHosts at h
  split_ifs at h with homp
  · simp only [homp, if_true]
    exact hu.raised (reserveOpenMpSlots_getElem? h)
  · obtain rfl := Except.ok.inj h
    simpa [homp] using hu

variable {k : Bool} {s₁ : PlannerState}

include ha he in
theorem Scheduled.starts (hfresh : s.inFlightReqs[req.appId]? = none) (h : Scheduled env mode .new req s (.ok (d, k)) s') :
    s' = s ∧ k = (req.isMpi || req.isOmp) ∧ (d = NOT_ENOUGH_SLOTS_DECISION ∨
      ∃ messages, claimedMessages req = .ok messages ∧
        d = startedDecision req.appId 0 d.placements false ∧
        d.placements.map Placement.key = messages.map Message.key ∧
        Fits d.placements (slotsOn s.hostMap) (countedUsed req s)) := by
  cases h with
  | preloaded _ loaded =>
    rw [ha.not_preloaded hfresh] at loaded
    cases loaded
  | @made M req' _ _ _ _ reserved known scheduled decided counted =>
    have hnew : getDecisionType s.inFlightReqs req ≠ .distChange := by
      rw [getDecisionType_new hfresh]
      decide
    have hk : k = (req.isMpi || req.isOmp) := by
      rw [Bool.eq_iff_iff, known]
      simp
    have heq := scheduledRequest_eq scheduled
    have hmsgs : claimedMessages req = .ok req'.messages := by
      unfold claimedMessages
      rw [← hk]
      cases k with
      | false => rw [show req' = req from scheduled]; rfl
      | true => rw [show knownSizeRequest req = .ok req' from scheduled]; rfl
    have htype : getDecisionType s.inFlightReqs req' ≠ .distChange := by rw [heq]; exact hnew
    refine ⟨by rw [counted hnew], hk, ?_⟩
    refine (SchedulerMode.places (under_reserved ha he reserved) htype decided).imp id ?_
    rintro ⟨⟨h1, h2, h3, h4, _⟩, hf⟩
    refine ⟨req'.messages, hmsgs, ?_, h3, hf⟩
    have happ : d.appId = req.appId := h1.trans (by rw [heq])
    cases d
    simp only at happ h2 h4
    simp [startedDecision, happ, h2, h4]

theorem verdict_of_ne (h0 : d.groupId = 0) :
    d ≠ NOT_ENOUGH_SLOTS_DECISION ∧ d ≠ DO_NOT_MIGRATE_DECISION ∧ d ≠ MUST_FREEZE_DECISION := by
  refine ⟨?_, ?_, ?_⟩ <;> rintro rfl <;> exact absurd h0 (by decide)

include ha he in
theorem new_effect (hfresh : s.inFlightReqs[req.appId]? = none) (hn : NewOk s req)
    (hsched : Scheduled env mode .new req s (.ok (d, k)) s₁)
    (h : handleDecision env .new req d k s₁ = (r, s')) : CallEffect env req s r s' := by
  obtain ⟨rfl, rfl, hcase⟩ := hsched.starts ha he hfresh
  unfold handleDecision at h
  rcases hcase with rfl | ⟨messages, hc, hdec, hkeys, hf⟩
  · exact .noSlots ((if_pos rfl).symm.trans h)
  · have hne := verdict_of_ne (d := d) (by rw [hdec]; rfl)
    rw [if_neg hne.1, if_neg hne.2.1, if_neg hne.2.2] at h
    split_ifs at h
    · exact .noSlots h
    · obtain ⟨full, d', s₂, hcommit, hst⟩ := commitNew_started env ha hfresh hn hc hkeys hf
      rw [hdec] at h
      simp only [commitDecision, unFreeze_eq] at h
      obtain ⟨rfl, rfl⟩ := Prod.mk.inj (hcommit.symm.trans h)
      exact .started hst

theorem isSingleHost_eq_false (h : d.isSingleHost = false) :
    1 < (d.placements.map Placement.host).dedup.length := by
  exact Nat.lt_of_not_le (of_decide_eq_false h)

theorem picks_subperm {preloaded : SchedulingDecision} {picks : List Placement}
    (h : preloadedPlacements preloaded.placements req.messages = .ok picks)
    (ha : PicksApart preloaded req) :
    ∃ qs : List Placement, qs.Subperm (preloaded.placements.drop 1) ∧
      qs.map Placement.groupIdx = req.messages.map Message.groupIdx ∧
      qs.map (fun p => (p.host, p.mpiPort)) = picks.map fun p => (p.host, p.mpiPort) := by
  obtain ⟨qs, hmem, hgroup, hlease⟩ := preloadedPlacements_picked h
  refine ⟨qs, ?_, hgroup, hlease⟩
  have hnd : qs.Nodup := List.Nodup.of_map _ (hgroup ▸ (ha (by rw [h]; rfl)).1)
  refine List.subperm_of_subset hnd ?_
  intro q hq
  have hhead := (ha (by rw [h]; rfl)).2
  have hqm := hmem q hq
  cases hps : preloaded.placements with
  | nil => simp [hps] at hqm
  | cons first rest =>
    rw [hps] at hqm hhead
    rcases List.mem_cons.mp hqm with rfl | hqm
    · exact absurd (hgroup ▸ List.mem_map_of_mem hq) (hhead q rfl)
    · simpa using hqm

theorem picks_hosted {preloaded : SchedulingDecision} (ha : Accounted s)
    (hload : s.preloadedSchedulingDecisions[req.appId]? = some preloaded) (hapart : PicksApart preloaded req)
    (hpicks : preloadedPlacements preloaded.placements req.messages = .ok picks) :
    ∀ p ∈ picks, ∃ h, s.hostMap[p.host]? = some h := by
  intro p hp
  obtain ⟨qs, hsub, -, hlease⟩ := picks_subperm hpicks hapart
  obtain ⟨q, hq, hqp⟩ := List.mem_map.mp (hlease ▸ List.mem_map_of_mem hp)
  obtain ⟨_, h, hh⟩ := ha.exists_host (preloadedPorts_le_leases hload) (hsub.subset hq)
  have hhost : q.host = p.host := congrArg Prod.fst hqp
  exact ⟨h, hhost ▸ hh⟩

theorem handleDecision_preload {preloaded : SchedulingDecision} (ha : Accounted s)
    (hrun : s.inFlightReqs[req.appId]? = some old) (htype : req.type ≠ .migration)
    (hprep : prepareRequest env .scaleChange req s = .ok req)
    (hload : s.preloadedSchedulingDecisions[req.appId]? = some preloaded)
    (hapart : PicksApart preloaded req)
    (hpicks : preloadedPlacements preloaded.placements req.messages = .ok picks)
    (h : handleDecision env .scaleChange req
      { appId := preloaded.appId, groupId := preloaded.groupId, nFunctions := picks.length,
        placements := picks } false
      { s with preloadedSchedulingDecisions := s.preloadedSchedulingDecisions.erase req.appId } =
        (r, s')) :
    CallEffect env req s r s' := by
  have hgroup := (ha.preloads _ _ hload).1
  unfold handleDecision at h
  split_ifs at h with h1 h2 h3 h4
  · have hnil : picks = [] := congrArg SchedulingDecision.placements h1
    rw [h1] at h
    obtain ⟨rfl, rfl⟩ := Prod.mk.inj h
    exact .dropped (by rw [hrun]; rfl) htype hload hpicks (Or.inl hnil) (SameBooks.refl _) rfl
  · have hg := congrArg SchedulingDecision.groupId h2
    dsimp only at hg
    rw [hgroup] at hg
    exact absurd hg (by decide)
  · have hg := congrArg SchedulingDecision.groupId h3
    dsimp only at hg
    rw [hgroup] at hg
    exact absurd hg (by decide)
  · obtain ⟨rfl, rfl⟩ := Prod.mk.inj h
    simp only [Bool.and_eq_true, Bool.not_eq_true'] at h4
    exact .dropped (by rw [hrun]; rfl) htype hload hpicks
      (Or.inr ⟨isSingleHost_eq_false h4.1, h4.2⟩) (SameBooks.refl _) rfl
  · obtain ⟨added, d, s₂, hcommit, hg⟩ := commitDecision_preload false ha hrun hload hpicks
      (picks_hosted ha hload hapart hpicks)
    rw [hcommit] at h
    obtain ⟨rfl, rfl⟩ := Prod.mk.inj h
    exact .grown htype hprep hg

theorem handleDecision_claim (ha : Accounted s) (hrun : s.inFlightReqs[req'.appId]? = some old)
    (htype : req.type ≠ .migration) (hprep : prepareRequest env .scaleChange req s = .ok req')
    (hload : s.preloadedSchedulingDecisions[req'.appId]? = none)
    (hcase : d = NOT_ENOUGH_SLOTS_DECISION ∨
      Places req' d ∧ Fits d.placements (slotsOn s.hostMap) (countedUsed req' s))
    (h : handleDecision env .scaleChange req' d false s = (r, s')) : CallEffect env req s r s' := by
  unfold handleDecision at h
  rcases hcase with rfl | ⟨hp, hf⟩
  · exact .noSlots ((if_pos rfl).symm.trans h)
  · have hne := verdict_of_ne hp.groupId
    rw [if_neg hne.1, if_neg hne.2.1, if_neg hne.2.2] at h
    split_ifs at h
    · exact .noSlots h
    · obtain ⟨added, d', s₂, hcommit, hg⟩ := commitDecision_claim false ha hrun hload hp hf
      rw [hcommit] at h
      obtain ⟨rfl, rfl⟩ := Prod.mk.inj h
      exact .grown htype hprep hg

include ha he in
theorem Scheduled.grows (hrun : s.inFlightReqs[req.appId]? = some old) (htype : req.type ≠ .migration)
    (hprep : prepareRequest env .scaleChange req s = .ok req')
    (h : Scheduled env mode .scaleChange req' s (.ok (d, k)) s₁) :
    k = false ∧ ((∃ preloaded picks, req' = req ∧ s.preloadedSchedulingDecisions[req.appId]? = some preloaded ∧
      preloadedPlacements preloaded.placements req.messages = .ok picks ∧
      d = { appId := preloaded.appId, groupId := preloaded.groupId, nFunctions := picks.length,
            placements := picks } ∧
      s₁ = { s with preloadedSchedulingDecisions := s.preloadedSchedulingDecisions.erase req.appId }) ∨
    s.preloadedSchedulingDecisions[req'.appId]? = none ∧ s₁ = s ∧
      (d = NOT_ENOUGH_SLOTS_DECISION ∨
        Places req' d ∧ Fits d.placements (slotsOn s.hostMap) (countedUsed req' s))) := by
  obtain ⟨happ, htype', _, hsame⟩ := prepareRequest_scale hprep
  cases h with
  | preloaded _ loaded picked =>
    rw [happ] at loaded
    obtain rfl := hsame (by rw [loaded]; rfl)
    exact ⟨rfl, Or.inl ⟨_, _, rfl, loaded, picked, rfl, if_pos rfl⟩⟩
  | made unloaded reserved known scheduled decided counted =>
    have hrun' : s.inFlightReqs[req'.appId]? = some old := by rw [happ, hrun]
    have hscale : getDecisionType s.inFlightReqs req' ≠ .distChange := by
      rw [getDecisionType_running hrun', htype', if_neg htype]
      decide
    obtain rfl : k = false := by
      cases k with
      | false => rfl
      | true => exact absurd (known.mp rfl).1 (by decide)
    obtain rfl := scheduled
    refine ⟨rfl, Or.inr ⟨unloaded.resolve_left (by decide), by rw [counted hscale], ?_⟩⟩
    exact SchedulerMode.places (under_reserved ha he reserved) hscale decided

include ha he in
theorem scale_effect (hrun : s.inFlightReqs[req.appId]? = some old) (htype : req.type ≠ .migration)
    (hprep : prepareRequest env .scaleChange req s = .ok req')
    (hpick : ∀ d, s.preloadedSchedulingDecisions[req.appId]? = some d → PicksApart d req)
    (hsched : Scheduled env mode .scaleChange req' s (.ok (d, k)) s₁)
    (h : handleDecision env .scaleChange req' d k s₁ = (r, s')) : CallEffect env req s r s' := by
  obtain ⟨rfl, ⟨preloaded, picks, rfl, hload, hpicks, rfl, rfl⟩ | ⟨hload, rfl, hcase⟩⟩ :=
    hsched.grows ha he hrun htype hprep
  · exact handleDecision_preload ha hrun htype hprep hload (hpick _ hload) hpicks h
  · have hrun' : s₁.inFlightReqs[req'.appId]? = some old := by rw [(prepareRequest_scale hprep).1, hrun]
    exact handleDecision_claim ha hrun' htype hprep hload hcase h

theorem handleDecision_move (ha : Accounted s) (happ : req'.appId = req.appId)
    (hrun : s.inFlightReqs[req.appId]? = some old) (htype : req.type = .migration)
    (hcase : IsVerdict d ∨ Moved old.2 d (slotsOn s.hostMap) (usedOn s.hostMap))
    (h : handleDecision env .distChange req' d k s = (r, s')) : CallEffect env req s r s' := by
  have hrun' : s.inFlightReqs[req'.appId]? = some old := by rw [happ, hrun]
  unfold handleDecision at h
  split_ifs at h with h1 h2 h3 h4
  · exact .noSlots (h1 ▸ h)
  · obtain ⟨rfl, rfl⟩ := Prod.mk.inj h
    exact .refused (SameBooks.refl s) rfl fun d' hd => Or.inr ((Except.ok.inj hd).symm.trans h2)
  · rw [hrun', h3] at h
    obtain ⟨rfl, rfl⟩ := Prod.mk.inj h
    rw [happ]
    exact .frozen hrun (SameBooks.refl _) rfl
  · exact .noSlots h
  · have hmv : Moved old.2 { d with groupId := env.newGroupId } (slotsOn s.hostMap) (usedOn s.hostMap) := by
      rcases hcase with hv | ⟨hre, hf⟩
      · rcases hv with hv | hv | hv
        · exact absurd hv h1
        · exact absurd hv h2
        · exact absurd hv h3
      · exact ⟨⟨hre.keys, hre.counted⟩, hf⟩
    obtain ⟨d', s₂, hcommit, hm⟩ := @commitDistChange_migrated env req s old _ ha hrun hmv rfl
    have hreq : (unFrozenRequest .distChange s.evictedRequests[req'.appId]? req') = req' := by
      unfold unFrozenRequest
      split <;> simp
    simp only [commitDecision, unFreeze_eq, hreq] at h
    have happ' : commitDistChange env.newGroupId (req'.updateBatchExecGroupId env.newGroupId)
        { d with groupId := env.newGroupId } s = commitDistChange env.newGroupId req
          { d with groupId := env.newGroupId } s := by
      unfold commitDistChange
      simp only [BatchExecuteRequest.updateBatchExecGroupId_appId, happ]
    obtain ⟨rfl, rfl⟩ := Prod.mk.inj ((happ'.trans hcommit).symm.trans h)
    exact .migrated htype hm

theorem CallEffect.of_sameBooks {env : CallEnv} {req : BatchExecuteRequest} {s s₁ s' : PlannerState}
    {r : Except PlannerError SchedulingDecision} (hb : SameBooks s₁ s) (hs : s.sent = s₁.sent)
    (ha : s.endpointHost = s₁.endpointHost) (h : CallEffect env req s₁ r s') :
    CallEffect env req s r s' := by
  obtain ⟨h1, h2, h3, h4⟩ := hb
  obtain ⟨⟩ := s
  obtain ⟨⟩ := s₁
  dsimp only at h1 h2 h3 h4 hs ha
  subst h1 h2 h3 h4 hs ha
  cases h with
  | refused hb hsent hr => exact .refused { hb with } hsent hr
  | dropped hrun htype hload hpick hwhy hb hsent => exact .dropped hrun htype hload hpick hwhy { hb with } hsent
  | frozen hrun hb hsent => exact .frozen hrun { hb with } hsent
  | started h => exact .started { h with }
  | grown htype hprep h =>
    exact .grown htype hprep { h with claims := h.claims.imp (fun hc => { hc with }) fun hc => { hc with } }
  | migrated htype h => exact .migrated htype { h with }

include ha he in
theorem Scheduled.moves (hrun : s.inFlightReqs[req.appId]? = some old) (htype : req.type = .migration)
    (hprep : prepareRequest env .distChange req s = .ok req')
    (h : Scheduled env mode .distChange req' s (.ok (d, k)) s₁) :
    (∃ count, s₁ = { s with distChangeCounter := count }) ∧ req'.appId = req.appId ∧
      (IsVerdict d ∨ Moved old.2 d (slotsOn s.hostMap) (usedOn s.hostMap)) := by
  obtain ⟨oldReq, oldDec⟩ := old
  simp only [prepareRequest, hrun, Except.ok.injEq] at hprep
  have happ : req'.appId = req.appId := by rw [← hprep]
  have htype' : req'.type = .migration := by rw [← hprep, htype]
  have hmsgs : req'.messages = oldReq.messages := by rw [← hprep]
  have hrun' : s.inFlightReqs[req'.appId]? = some (oldReq, oldDec) := by rw [happ, hrun]
  have hdist : getDecisionType s.inFlightReqs req' = .distChange := by
    rw [getDecisionType_running hrun', htype', if_pos rfl]
  cases h with
  | preloaded type => exact absurd rfl type
  | @made M req'' _ _ _ _ reserved known scheduled decided =>
    have hu : Under (mode.usableHosts M) (slotsOn s.hostMap) (usedOn s.hostMap) := by
      intro k host hk
      obtain ⟨h1, h2, h3⟩ := under_reserved ha he reserved k host hk
      exact ⟨h1, h2, (usedOn_le_countedUsed req' s k).trans h3⟩
    obtain rfl : k = false := by
      cases k with
      | false => rfl
      | true => exact absurd (known.mp rfl).1 (by decide)
    rw [show req'' = req' from scheduled] at decided
    have hkeys : oldDec.placements.map Placement.key = req'.messages.map Message.key := by
      rw [hmsgs]
      exact (ha.apps _ _ hrun).keys
    exact ⟨⟨_, rfl⟩, happ, SchedulerMode.moves hu ha.ledger.used_nonneg hdist hrun' hkeys
      (fun p hp => ha.host_ne_empty hrun hp) decided⟩

include ha he in
theorem move_effect (hrun : s.inFlightReqs[req.appId]? = some old) (htype : req.type = .migration)
    (hprep : prepareRequest env .distChange req s = .ok req')
    (hsched : Scheduled env mode .distChange req' s (.ok (d, k)) s₁)
    (h : handleDecision env .distChange req' d k s₁ = (r, s')) : CallEffect env req s r s' := by
  obtain ⟨⟨count, rfl⟩, happ, hcase⟩ := hsched.moves ha he hrun htype hprep
  refine @CallEffect.of_sameBooks env req s { s with distChangeCounter := count } _ _ ⟨rfl, rfl, rfl, rfl⟩
    rfl rfl ?_
  exact handleDecision_move (ha.of_books rfl rfl rfl) happ hrun htype hcase h

theorem Called.effect {hosts : List String} (ha : Accounted s) (hc : CallOk req s)
    (h : Called env req s hosts r s') : CallEffect env req s r s' := by
  cases h with
  | unscheduled => exact .refused (SameBooks.refl _) rfl (by simp)
  | unprepared => exact .refused ⟨rfl, rfl, rfl, rfl⟩ rfl (by simp)
  | failed => exact .refused ⟨rfl, rfl, rfl, rfl⟩ rfl (by simp)
  | @handled mode req' d k _ _ _ scheduler prepared scheduled result =>
    set s₁ : PlannerState := { s with batchScheduler := some mode } with hs₁
    have ha₁ : Accounted s₁ := ha.of_books rfl rfl rfl
    have he : mode = .spot ∨ ∀ ip ∈ s₁.nextEvictedHostIps, s₁.hostMap[ip]? = none :=
      hc.evictions.unless_spot scheduler
    refine @CallEffect.of_sameBooks env req s s₁ _ _ ⟨rfl, rfl, rfl, rfl⟩ rfl rfl ?_
    cases hrun : s.inFlightReqs[req.appId]? with
    | none =>
      rw [getDecisionType_new hrun] at prepared scheduled result
      obtain rfl := Except.ok.inj prepared
      exact new_effect ha₁ he hrun (hc.starts hrun) scheduled result
    | some old =>
      rw [getDecisionType_running hrun] at prepared scheduled result
      split_ifs at prepared scheduled result with htype
      · exact move_effect ha₁ he hrun htype prepared scheduled result
      · exact scale_effect ha₁ he hrun htype prepared (hc.grows (by rw [hrun]; rfl) htype) scheduled result

theorem callBatch_effect (env : CallEnv) (ha : Accounted s) (hc : CallOk req s) :
    CallEffect env req s (callBatch env req s).1 (callBatch env req s).2 :=
  (callBatch_called env req s).effect ha hc

end Faabric
