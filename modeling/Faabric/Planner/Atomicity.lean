import Faabric.Planner.HostChurn

/-! `callBatch` is all or nothing while the hosts that it sees are the planner's
own and a preloaded decision is not refused after it has been taken. -/

namespace Faabric

open Std (ExtTreeMap)
open GuardedRun MapTotal

variable {env : CallEnv} {req : BatchExecuteRequest} {s : PlannerState}

inductive AdminOp where
  | registerHost (host : Host) (overwrite : Bool) (now ts : Int)
  | setPolicy (newPolicy : String)
  | setNextEvictedVm (vmIps : Finset String)
  | callBatch (env : CallEnv) (req : BatchExecuteRequest)
  | setMessageResult (msg : Message)

def AdminOp.step (s : PlannerState) : AdminOp → PlannerState
  | .registerHost host overwrite now ts => (Faabric.registerHost host overwrite now ts s).2
  | .setPolicy newPolicy => (Faabric.setPolicy newPolicy s).2
  | .setNextEvictedVm vmIps => (Faabric.setNextEvictedVm vmIps s).2
  | .callBatch env req => (Faabric.callBatch env req s).2
  | .setMessageResult msg => (Faabric.setMessageResult msg s).2

def scheduledDecision (env : CallEnv) (req : BatchExecuteRequest) (s : PlannerState) :
    Option SchedulingDecision :=
  match getBatchScheduler s with
  | (.error _, _) => none
  | (.ok mode, s) =>
    let decisionType := getDecisionType s.inFlightReqs req
    match prepareRequest env decisionType req s with
    | .error _ => none
    | .ok req =>
      match scheduleRequest env mode decisionType req s with
      | (.error _, _) => none
      | (.ok (decision, _), _) =>
        if decision = NOT_ENOUGH_SLOTS_DECISION then none
        else if decision = DO_NOT_MIGRATE_DECISION then none
        else if decision = MUST_FREEZE_DECISION then none
        else if !decision.isSingleHost && req.singleHostHint then none
        else some decision

theorem scheduledDecision_stages {d : SchedulingDecision} (h : scheduledDecision env req s = some d) :
    ∃ mode req' k s₁, schedulerOf s = some mode ∧
      prepareRequest env (getDecisionType s.inFlightReqs req) req { s with batchScheduler := some mode } =
        .ok req' ∧
      Scheduled env mode (getDecisionType s.inFlightReqs req) req' { s with batchScheduler := some mode }
        (.ok (d, k)) s₁ ∧ ¬ IsVerdict d ∧
      callBatch env req s = commitDecision env (getDecisionType s.inFlightReqs req) req' d k s₁ := by
  rw [scheduledDecision, getBatchScheduler_eq] at h
  rw [callBatch, getBatchScheduler_eq]
  cases hmode : schedulerOf s with
  | none => simp [hmode] at h
  | some mode =>
    simp only [hmode] at h ⊢
    rcases hprep : prepareRequest env (getDecisionType s.inFlightReqs req) req
      { s with batchScheduler := some mode } with _ | req'
    · simp [hprep] at h
    · simp only [hprep] at h ⊢
      have hs := scheduleRequest_scheduled env mode (getDecisionType s.inFlightReqs req) req'
        { s with batchScheduler := some mode }
      rcases hsched : scheduleRequest env mode (getDecisionType s.inFlightReqs req) req'
        { s with batchScheduler := some mode } with ⟨_ | ⟨decision, k⟩, s₂⟩
      · simp [hsched] at h
      · simp only [hsched] at h hs ⊢
        split_ifs at h with h1 h2 h3 h4
        obtain rfl := Option.some.inj h
        refine ⟨mode, req', k, s₂, rfl, hprep, hs, not_or.mpr ⟨h1, not_or.mpr ⟨h2, h3⟩⟩, ?_⟩
        simp only [handleDecision, h1, h2, h3, h4, if_false, Bool.false_eq_true]

def TakesPreload (req : BatchExecuteRequest) (s : PlannerState) : Prop :=
  s.inFlightReqs[req.appId]?.isSome → req.type ≠ .migration →
    ∀ preloaded ∈ s.preloadedSchedulingDecisions[req.appId]?,
      ∀ picks ∈ (preloadedPlacements preloaded.placements req.messages).toOption,
        picks ≠ [] ∧ (req.singleHostHint = true → (picks.map Placement.host).dedup.length ≤ 1)

def GroupIdOk (env : CallEnv) : Prop :=
  env.newGroupId ≠ NOT_ENOUGH_SLOTS_DECISION.groupId ∧ env.newGroupId ≠ DO_NOT_MIGRATE_DECISION.groupId

def KeepsAtomic (s : PlannerState) : AdminOp → Prop
  | .registerHost host overwrite now _ => RegistrationOk s host overwrite now
  | .setPolicy _ => True
  | .setNextEvictedVm _ => True
  | .callBatch env req => CallOk req s ∧ TakesPreload req s ∧ GroupIdOk env
  | .setMessageResult msg => ResultOk msg s

instance (req : BatchExecuteRequest) (s : PlannerState) : Decidable (CallOk req s) :=
  decidable_of_iff (RequestOk req s ∧ EvictionsOk s) ⟨fun h => ⟨h.1, h.2⟩, fun h => ⟨h.1, h.2⟩⟩

instance (req : BatchExecuteRequest) (s : PlannerState) : Decidable (TakesPreload req s) :=
  inferInstanceAs (Decidable (_ → _))

instance (env : CallEnv) : Decidable (GroupIdOk env) := inferInstanceAs (Decidable (_ ∧ _))

instance (s : PlannerState) (op : AdminOp) : Decidable (KeepsAtomic s op) := by
  cases op <;> unfold KeepsAtomic <;> infer_instance

theorem scheduledDecision_hosts {d : SchedulingDecision} (ha : Accounted s) (hc : CallOk req s)
    (h : scheduledDecision env req s = some d) :
    ∀ p ∈ d.placements, ∃ host, s.hostMap[p.host]? = some host := by
  obtain ⟨mode, req', k, s₂, hmode, hprep, hsched, hv, -⟩ := scheduledDecision_stages h
  set s₁ : PlannerState := { s with batchScheduler := some mode } with hs₁
  have ha₁ : Accounted s₁ := ha.of_books rfl rfl rfl
  have he : mode = .spot ∨ ∀ ip ∈ s₁.nextEvictedHostIps, s₁.hostMap[ip]? = none :=
    hc.evictions.unless_spot hmode
  have hfits {used : String → Int} (h0 : ∀ ip, 0 ≤ used ip) (hf : Fits d.placements (slotsOn s₁.hostMap) used) :
      ∀ p ∈ d.placements, ∃ host, s.hostMap[p.host]? = some host := hf.exists_host h0
  have hcounted (req' : BatchExecuteRequest)
      (hf : Fits d.placements (slotsOn s₁.hostMap) (countedUsed req' s₁)) :
      ∀ p ∈ d.placements, ∃ host, s.hostMap[p.host]? = some host :=
    hfits ha₁.ledger.used_nonneg (hf.mono (usedOn_le_countedUsed _ _))
  cases hrun : s.inFlightReqs[req.appId]? with
  | none =>
    rw [getDecisionType_new hrun] at hprep hsched
    obtain rfl := Except.ok.inj hprep
    rcases (hsched.starts ha₁ he hrun).2.2 with hd | ⟨_, _, _, _, hf⟩
    · exact absurd (Or.inl hd) hv
    · exact hcounted _ hf
  | some old =>
    rw [getDecisionType_running hrun] at hprep hsched
    split_ifs at hprep hsched with htype
    · rcases (hsched.moves ha₁ he hrun htype hprep).2.2 with hd | ⟨_, hf⟩
      · exact absurd hd hv
      · exact hfits (fun ip => le_max_left _ _) hf
    · rcases (hsched.grows ha₁ he hrun htype hprep).2 with
        ⟨preloaded, picks, rfl, hload, hpicks, rfl, -⟩ | ⟨-, -, hd | ⟨_, hf⟩⟩
      · exact picks_hosted ha hload (hc.grows (by rw [hrun]; rfl) htype _ hload) hpicks
      · exact absurd (Or.inl hd) hv
      · exact hcounted _ hf

theorem CallEffect.unchanged {s' : PlannerState} {r : Except PlannerError SchedulingDecision}
    (h : CallEffect env req s r s') (ht : TakesPreload req s) (hg : GroupIdOk env)
    (hr : (∃ e, r = .error e) ∨ r = .ok NOT_ENOUGH_SLOTS_DECISION ∨ r = .ok DO_NOT_MIGRATE_DECISION) :
    SameBooks s s' := by
  have hplaced {d : SchedulingDecision} (hd : r = .ok d) (hgid : d.groupId = env.newGroupId) :
      SameBooks s s' := by
    subst hd
    rcases hr with ⟨e, he⟩ | he | he
    · exact absurd he (by simp)
    · exact absurd (hgid.symm.trans (congrArg SchedulingDecision.groupId (Except.ok.inj he))) hg.1
    · exact absurd (hgid.symm.trans (congrArg SchedulingDecision.groupId (Except.ok.inj he))) hg.2
  cases h with
  | refused hb _ _ => exact hb
  | dropped hrun htype hload hpicks hwhy _ _ =>
    obtain ⟨hne, hone⟩ := ht hrun htype _ hload _ (congrArg Except.toOption hpicks)
    rcases hwhy with hnil | ⟨hmany, hhint⟩
    · exact absurd hnil hne
    · exact absurd (hone hhint) (by omega)
  | frozen _ _ _ =>
    rcases hr with ⟨e, he⟩ | he | he
    · exact absurd he (by simp)
    · exact absurd (Except.ok.inj he) (by decide)
    · exact absurd (Except.ok.inj he) (by decide)
  | started h => exact hplaced rfl h.groupId
  | grown _ _ h => exact hplaced rfl h.groupId
  | migrated _ h => exact hplaced rfl h.groupId

theorem atomic_step {op : AdminOp} (ha : Accounted s) (hok : KeepsAtomic s op) :
    Accounted (op.step s) := by
  cases op with
  | registerHost host overwrite now ts => exact registerHost_accounted ha ts hok
  | setPolicy newPolicy =>
    have hb := setPolicy_books newPolicy s
    exact ha.of_books hb.hostMap hb.inFlightReqs hb.preloaded
  | setNextEvictedVm vmIps =>
    have hb := setNextEvictedVm_books vmIps s
    exact ha.of_books hb.hostMap hb.inFlightReqs hb.preloaded
  | callBatch env req => exact (callBatch_effect env ha hok.1).accounted ha hok.1
  | setMessageResult msg => exact (setMessageResult_effect ha hok).accounted ha

/-- In a guarded run, `callBatch` claims on registered hosts only, and changes nothing
when it throws or finds no placement. -/
theorem callBatch_all_or_nothing {s : PlannerState} {ops : List AdminOp} {env : CallEnv}
    {req : BatchExecuteRequest} (hs : FreshStart s)
    (hok : GuardedRun.Meets AdminOp.step KeepsAtomic s (ops ++ [.callBatch env req])) :
    (∀ d, scheduledDecision env req (run AdminOp.step s ops) = some d →
      (∃ decisionType req' knownSize s₁,
        callBatch env req (run AdminOp.step s ops) =
          commitDecision env decisionType req' d knownSize s₁) ∧
      ∀ p ∈ d.placements, ∃ h, (run AdminOp.step s ops).hostMap[p.host]? = some h) ∧
    ((∃ e, (callBatch env req (run AdminOp.step s ops)).1 = .error e) ∨
      (callBatch env req (run AdminOp.step s ops)).1 = .ok NOT_ENOUGH_SLOTS_DECISION ∨
      (callBatch env req (run AdminOp.step s ops)).1 = .ok DO_NOT_MIGRATE_DECISION →
        SameBooks (run AdminOp.step s ops)
          (callBatch env req (run AdminOp.step s ops)).2) := by
  obtain ⟨hpre, hlast⟩ := hok.append
  have ha := hpre.invariant (fun s op => atomic_step) hs.accounted
  obtain ⟨hc, ht, hg⟩ := hlast.1
  refine ⟨fun d hd => ⟨?_, scheduledDecision_hosts ha hc hd⟩, (callBatch_effect env ha hc).unchanged ht hg⟩
  obtain ⟨-, req', k, s₁, -, -, -, -, hcall⟩ := scheduledDecision_stages hd
  exact ⟨_, req', k, s₁, hcall⟩

theorem callBatch_all_or_nothing_full :
    SameBooks (run AdminOp.step (plannerWith "bin-pack" [hostWith "A" 1])
        [.callBatch {} (requestFor 1 [plainMessage 1 7])])
      (callBatch {} (requestFor 2 [plainMessage 2 8])
        (run AdminOp.step (plannerWith "bin-pack" [hostWith "A" 1])
          [.callBatch {} (requestFor 1 [plainMessage 1 7])])).2 :=
  (@callBatch_all_or_nothing (plannerWith "bin-pack" [hostWith "A" 1])
    [.callBatch {} (requestFor 1 [plainMessage 1 7])] {} (requestFor 2 [plainMessage 2 8])
    (plannerWith_fresh _ (by decide)) (by decide)).2 (Or.inr (Or.inl (by decide)))

def evictionOutlivesPolicy : List AdminOp :=
  [.setNextEvictedVm {"B"}, .setPolicy "bin-pack"]

/-- The renamed host is claimed after another one, and the claims on that one stay. A
preloaded decision that does not meet the single-host hint is refused and gone. -/
theorem failed_call_leaves_claims :
    ((callBatch {} (requestFor 1 [plainMessage 1 7, plainMessage 1 8, plainMessage 1 9])
        (run AdminOp.step (plannerWith "spot" [hostWith "A" 2, hostWith "B" 1])
          evictionOutlivesPolicy)).1 = .error .outOfRange ∧
      (run AdminOp.step (plannerWith "spot" [hostWith "A" 2, hostWith "B" 1])
        evictionOutlivesPolicy).hostMap["A"]?.map Host.usedSlots = some 0 ∧
      (callBatch {} (requestFor 1 [plainMessage 1 7, plainMessage 1 8, plainMessage 1 9])
        (run AdminOp.step (plannerWith "spot" [hostWith "A" 2, hostWith "B" 1])
          evictionOutlivesPolicy)).2.hostMap["A"]?.map Host.usedSlots = some 2) ∧
    (callBatch {} { requestFor 1 [mpiRank 1 3 1, mpiRank 1 3 2] with singleHostHint := true }
        (run AdminOp.step (plannerWith "bin-pack" [hostWith "A" 2, hostWith "B" 1])
          [.callBatch {} (requestFor 1 [mpiRank 1 3 0])])).1 = .ok NOT_ENOUGH_SLOTS_DECISION ∧
      (run AdminOp.step (plannerWith "bin-pack" [hostWith "A" 2, hostWith "B" 1])
        [.callBatch {} (requestFor 1 [mpiRank 1 3 0])]).preloadedSchedulingDecisions.contains 1 = true ∧
      (callBatch {} { requestFor 1 [mpiRank 1 3 1, mpiRank 1 3 2] with singleHostHint := true }
        (run AdminOp.step (plannerWith "bin-pack" [hostWith "A" 2, hostWith "B" 1])
          [.callBatch {} (requestFor 1 [mpiRank 1 3 0])])).2.preloadedSchedulingDecisions.contains 1 =
            false := by
  refine ⟨⟨by decide, by decide, by decide⟩, by decide, by decide, by decide⟩

end Faabric
