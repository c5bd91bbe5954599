import Faabric.Planner.FreshStart

/-! The policy that the planner reports against the scheduler that it uses. The
policy is written in three places, and flushing writes only one of them. -/

namespace Faabric

variable {s : PlannerState}

inductive PolicyOp where
  | setPolicy (newPolicy : String)
  | flushSchedulingState
  | reset
  | callBatch (env : CallEnv) (req : BatchExecuteRequest)

def PolicyOp.step (s : PlannerState) : PolicyOp → PlannerState
  | .setPolicy newPolicy => (Faabric.setPolicy newPolicy s).2
  | .flushSchedulingState => Faabric.flushSchedulingState s
  | .reset => Faabric.reset s
  | .callBatch env req => (Faabric.callBatch env req s).2

def PolicyOp.writesPolicy : PolicyOp → Bool
  | .callBatch _ _ => false
  | _ => true

/-- The reported policy is that of the scheduler that the next `callBatch` uses. -/
def PolicyAgrees (s : PlannerState) : Prop :=
  ∃ mode, SchedulerMode.ofString? s.policy = some mode ∧ (getBatchScheduler s).1 = .ok mode

/-- A policy must name a scheduler, and flushing is left to planners that bin-pack. -/
def KeepsPolicy (s : PlannerState) : PolicyOp → Prop
  | .setPolicy newPolicy => (SchedulerMode.ofString? newPolicy).isSome
  | .flushSchedulingState => schedulerOf s = some .binPack
  | .reset => schedulerOf s = some .binPack
  | .callBatch _ _ => True

instance (s : PlannerState) (op : PolicyOp) : Decidable (KeepsPolicy s op) := by
  cases op <;> unfold KeepsPolicy <;> infer_instance

theorem policyAgrees_iff (s : PlannerState) :
    PolicyAgrees s ↔ ∃ mode, SchedulerMode.ofString? s.policy = some mode ∧ schedulerOf s = some mode := by
  unfold PolicyAgrees
  rw [getBatchScheduler_eq]
  cases schedulerOf s with
  | none => simp
  | some mode => simp

theorem ofString?_eq_spot (policy : String) :
    SchedulerMode.ofString? policy = some .spot ↔ policy = "spot" := by
  constructor
  · intro h
    by_contra hne
    simp only [SchedulerMode.ofString?, hne, if_false] at h
    split_ifs at h <;> simp at h
  · rintro rfl
    rfl

theorem PolicyAgrees.gate (h : PolicyAgrees s) (vmIps : Finset String) :
    (setNextEvictedVm vmIps s).1 = .ok () ↔ (getBatchScheduler s).1 = .ok .spot := by
  obtain ⟨mode, hp, hs⟩ := h
  have hspot : s.policy = "spot" ↔ mode = .spot := by
    rw [← ofString?_eq_spot, hp, Option.some.injEq]
  rw [hs, Except.ok.injEq, ← hspot]
  unfold setNextEvictedVm
  by_cases hpol : s.policy = "spot"
  · simp [hpol]
  · simp [hpol]

theorem PolicyAgrees.callBatch (h : PolicyAgrees s) (env : CallEnv) (req : BatchExecuteRequest)
    : PolicyAgrees (callBatch env req s).2 := by
  obtain ⟨mode, hp, hs⟩ := (policyAgrees_iff s).mp h
  have hc := callBatch_config env req s
  rw [getBatchScheduler_eq, hs] at hc
  simp only [PlannerState.config, Prod.mk.injEq] at hc
  obtain ⟨h1, _, h3, _⟩ := hc
  refine (policyAgrees_iff _).mpr ⟨mode, by rw [h1]; exact hp, ?_⟩
  simp [schedulerOf, h3]

theorem writesPolicy_agrees {op : PolicyOp} (hw : op.writesPolicy = true) (hok : KeepsPolicy s op)
    : PolicyAgrees (op.step s) := by
  rw [policyAgrees_iff]
  cases op with
  | setPolicy newPolicy =>
    obtain ⟨mode, hm⟩ := Option.isSome_iff_exists.mp hok
    obtain ⟨h1, h2⟩ := setPolicy_governance newPolicy s
    exact ⟨mode, by rw [PolicyOp.step, h1, hm], by rw [PolicyOp.step, h2, hm]⟩
  | flushSchedulingState => exact ⟨.binPack, rfl, hok⟩
  | reset => exact ⟨.binPack, rfl, hok⟩
  | callBatch env req => simp [PolicyOp.writesPolicy] at hw

theorem policy_run_agrees {ops : List PolicyOp}
    (hok : GuardedRun.Meets PolicyOp.step KeepsPolicy s ops)
    (h : PolicyAgrees s ∨ ops.any PolicyOp.writesPolicy = true) :
    PolicyAgrees (GuardedRun.run PolicyOp.step s ops) := by
  induction ops generalizing s with
  | nil =>
    rcases h with h | h
    · exact h
    · simp at h
  | cons op ops ih =>
    refine ih hok.2 ?_
    by_cases hw : op.writesPolicy = true
    · exact Or.inl (writesPolicy_agrees hw hok.1)
    · rcases h with h | h
      · cases op with
        | callBatch env req => exact Or.inl (h.callBatch env req)
        | setPolicy newPolicy => exact absurd rfl hw
        | flushSchedulingState => exact absurd rfl hw
        | reset => exact absurd rfl hw
      · right
        simpa [hw] using h

theorem setPolicy_error {newPolicy : String} {e : PlannerError}
    (h : (setPolicy newPolicy s).1 = .error e) :
    (setPolicy newPolicy s).2 =
      { s with policy := newPolicy, batchSchedulerMode := newPolicy, batchScheduler := none } := by
  simp only [setPolicy, resetBatchScheduler, getBatchScheduler] at h ⊢
  cases hm : SchedulerMode.ofString? newPolicy with
  | none => rfl
  | some mode => simp [hm, Except.map] at h

/-- From the first write of the policy on, the reported policy is that of the scheduler
in use and gates evictions by it. A `setPolicy` that throws leaves the policy as it was
only where the same call had failed before. -/
theorem reported_policy_agrees (s : PlannerState) :
    (∀ ops : List PolicyOp,
      GuardedRun.Meets PolicyOp.step KeepsPolicy s ops → ops.any PolicyOp.writesPolicy = true →
        PolicyAgrees (GuardedRun.run PolicyOp.step s ops) ∧
          ∀ vmIps, (setNextEvictedVm vmIps (GuardedRun.run PolicyOp.step s ops)).1 = .ok () ↔
            (getBatchScheduler (GuardedRun.run PolicyOp.step s ops)).1 = .ok .spot) ∧
    ∀ (newPolicy : String) (e : PlannerError),
      (setPolicy newPolicy s).1 = .error e →
        ((setPolicy newPolicy s).2.policy = s.policy ∧
            (setPolicy newPolicy s).2.batchSchedulerMode = s.batchSchedulerMode ∧
            (setPolicy newPolicy s).2.batchScheduler = s.batchScheduler ↔
          s.policy = newPolicy ∧ s.batchSchedulerMode = newPolicy ∧ s.batchScheduler = none) := by
  refine ⟨?_, ?_⟩
  · intro ops hok hw
    have h := policy_run_agrees hok (Or.inr hw)
    exact ⟨h, h.gate⟩
  · intro newPolicy e h
    rw [setPolicy_error h]
    constructor
    · rintro ⟨hp, hm, hb⟩
      exact ⟨hp.symm, hm.symm, hb.symm⟩
    · rintro ⟨hp, hm, hb⟩
      exact ⟨hp.symm, hm.symm, hb.symm⟩

theorem reported_policy_agrees_spot :
    PolicyAgrees (GuardedRun.run PolicyOp.step {}
      [.setPolicy "spot", .callBatch {} (requestFor 1 [mpiRank 1 2 0])]) ∧
    ¬ ((setPolicy "nearest" {}).2.policy = "" ∧
      (setPolicy "nearest" {}).2.batchSchedulerMode = "bin-pack" ∧
      (setPolicy "nearest" {}).2.batchScheduler = none) := by
  refine ⟨((reported_policy_agrees {}).1 [.setPolicy "spot",
    .callBatch {} (requestFor 1 [mpiRank 1 2 0])] (by decide) rfl).1, ?_⟩
  intro h
  exact absurd (((reported_policy_agrees {}).2 "nearest" _ rfl).mp h).1 (by decide)

/-- Flushing under the spot policy reports bin-packing over a spot scheduler, a planner
that was never configured reports no policy, and a `setPolicy` that throws is not undone. -/
theorem flush_keeps_scheduler :
    ((PolicyOp.flushSchedulingState.step (setPolicy "spot" {}).2).policy = "bin-pack" ∧
      (getBatchScheduler (PolicyOp.flushSchedulingState.step (setPolicy "spot" {}).2)).1 = .ok .spot) ∧
    (({} : PlannerState).policy = "" ∧ (getBatchScheduler {}).1 = .ok .binPack) ∧
    (setPolicy "nearest" (setPolicy "spot" {}).2).1 =
        .error (.runtimeError "Unrecognised batch scheduler mode") ∧
      (setPolicy "nearest" (setPolicy "spot" {}).2).2.policy = "nearest" ∧
      (setPolicy "nearest" (setPolicy "spot" {}).2).2.batchScheduler = none :=
  ⟨⟨rfl, rfl⟩, ⟨rfl, rfl⟩, rfl, rfl, rfl⟩

end Faabric
