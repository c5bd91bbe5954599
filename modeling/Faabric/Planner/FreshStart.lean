import Faabric.Planner.LedgerSteps
import Faabric.Lib.GuardedRun

/-! Planners that start with free hosts and one policy. -/

namespace Faabric

open Std (ExtTreeMap)
open MapTotal

variable {s : PlannerState}

def plannerWith (policy : String) (hosts : List Host) : PlannerState :=
  hosts.foldl (fun s h => (registerHost h false 0 0 s).2) (setPolicy policy {}).2

def hostWith (ip : String) (slots : Int) : Host := { ip, slots, usedSlots := 0 }

def mpiRank (appId worldSize rank : Int) : Message :=
  { id := 10 * appId + rank, appId, appIdx := rank, groupIdx := rank, user := "mpi", function := "main",
    isMpi := true, mpiWorldSize := worldSize }

def ompThread (appId numThreads thread : Int) : Message :=
  { id := 10 * appId + thread, appId, appIdx := thread, groupIdx := thread, user := "omp", function := "main",
    isOmp := true, ompNumThreads := numThreads }

def plainMessage (appId id : Int) : Message := { id, appId, user := "user", function := "main" }

def requestFor (appId : Int) (messages : List Message) : BatchExecuteRequest :=
  { appId, messages, user := "user", function := "main" }

structure Governed (s : PlannerState) : Prop where
  scheduler : s.policy = "spot" → schedulerOf s = some .spot
  gate : s.policy = "spot" ∨ s.nextEvictedHostIps = ∅

structure FreshStart (s : PlannerState) : Prop where
  hosts : ∀ (ip : String) (h : Host), s.hostMap[ip]? = some h →
    h.ip = ip ∧ ip ≠ "" ∧ 0 ≤ h.slots ∧ h.usedSlots = 0 ∧ h.mpiPorts = basePorts h.slots 0
  inFlightReqs : s.inFlightReqs = ∅
  preloaded : s.preloadedSchedulingDecisions = ∅
  governed : Governed s

theorem Governed.evictionsOk (h : Governed s) : EvictionsOk s := by
  rcases h.gate with hp | he
  · exact Or.inl (h.scheduler hp)
  · right
    simp [he]

def PlannerState.governance (s : PlannerState) :=
  (s.policy, s.batchSchedulerMode, s.batchScheduler, s.nextEvictedHostIps)

theorem Governed.of_governance {s' : PlannerState} (hg : Governed s)
    (h : s'.governance = s.governance) : Governed s' := by
  simp only [PlannerState.governance, Prod.mk.injEq] at h
  obtain ⟨hp, hm, hb, he⟩ := h
  refine ⟨?_, by rw [hp, he]; exact hg.gate⟩
  have hs : schedulerOf s' = schedulerOf s := by
    unfold schedulerOf
    rw [hb, hm]
  rw [hs, hp]
  exact hg.scheduler

theorem Governed.callBatch (hg : Governed s) (env : CallEnv) (req : BatchExecuteRequest)
    : Governed (callBatch env req s).2 := by
  have hc := callBatch_config env req s
  rw [getBatchScheduler_eq] at hc
  cases hs : schedulerOf s with
  | none =>
    rw [hs] at hc
    simp only [PlannerState.config, Prod.mk.injEq] at hc
    obtain ⟨h1, h2, h3, h4, _⟩ := hc
    refine hg.of_governance ?_
    simp only [PlannerState.governance, h1, h2, h3, h4]
  | some mode =>
    rw [hs] at hc
    simp only [PlannerState.config, Prod.mk.injEq] at hc
    obtain ⟨h1, h2, h3, h4, _⟩ := hc
    refine ⟨?_, by rw [h1, h4]; exact hg.gate⟩
    intro hp
    rw [h1] at hp
    rw [← hg.scheduler hp, hs]
    simp [schedulerOf, h3]

theorem recordFrozen_governance (msg : Message) (s : PlannerState) :
    (recordFrozen msg s).2.governance = s.governance := by
  unfold recordFrozen
  split_ifs
  · split <;> rfl
  · rfl

theorem releaseAndRecord_governance (msg : Message) (s : PlannerState) :
    (releaseAndRecord msg s).2.governance = s.governance := by
  unfold releaseAndRecord
  dsimp only
  split_ifs
  · split <;> rfl
  · split <;> rfl
  · rfl
  · rfl

theorem removeInFlight_governance (msg : Message) (s : PlannerState) :
    (removeInFlight msg s).2.governance = s.governance := by
  unfold removeInFlight
  split
  · rfl
  · split_ifs
    · rfl
    · dsimp only
      split
      · rfl
      · split
        · rfl
        · split
          · rfl
          · split_ifs <;> rfl

theorem setMessageResult_governance (msg : Message) (s : PlannerState) :
    (setMessageResult msg s).2.governance = s.governance := by
  unfold setMessageResult
  split_ifs
  · rfl
  · have h₁ := recordFrozen_governance msg s
    split
    · rename_i he
      rwa [he] at h₁
    · rename_i s₁ he
      rw [he] at h₁
      have h₂ := releaseAndRecord_governance msg s₁
      split
      · rename_i he'
        rw [he'] at h₂
        exact h₂.trans h₁
      · rename_i s₂ he'
        rw [he'] at h₂
        have h₃ := removeInFlight_governance msg s₂
        split
        · rename_i he''
          rw [he''] at h₃
          exact h₃.trans (h₂.trans h₁)
        · rename_i s₃ he''
          rw [he''] at h₃
          rw [notifyWaiters_eq]
          exact h₃.trans (h₂.trans h₁)

theorem Governed.setNextEvictedVm (hg : Governed s) (vmIps : Finset String) :
    Governed (setNextEvictedVm vmIps s).2 := by
  unfold Faabric.setNextEvictedVm
  split_ifs with hp
  · exact hg
  · exact ⟨hg.scheduler, Or.inl (not_not.mp hp)⟩

/-! A fresh start is in order. -/

theorem basePorts_labels (count : Int) :
    UnitPool.labels (basePorts count 0) =
      (List.range count.toNat).map fun i : Nat => MPI_BASE_PORT + i := by
  simp [UnitPool.labels, basePorts, Function.comp_def]

theorem basePorts_unused (count : Int) : UnitPool.usedLabels (basePorts count 0) = 0 := by
  unfold UnitPool.usedLabels
  rw [List.filter_eq_nil_iff.mpr]
  · rfl
  · intro c hc
    obtain ⟨i, _, rfl⟩ := List.mem_map.mp hc
    simp

theorem FreshStart.hostsOk (h : FreshStart s) : HostsOk s.hostMap := by
  intro ip host hh
  obtain ⟨h1, h2, h3, _, h5⟩ := h.hosts ip host hh
  exact ⟨h1, h2, h3, by rw [h5, basePorts_labels]⟩

theorem FreshStart.ledger_eq (h : FreshStart s) (ip : String) :
    leasesOn s ip = 0 ∧ markedOn s.hostMap ip = 0 ∧ usedOn s.hostMap ip = 0 ∧
      0 ≤ slotsOn s.hostMap ip := by
  refine ⟨?_, ?_⟩
  · simp [leasesOn, inFlightPorts, preclaimedPorts, h.inFlightReqs, h.preloaded]
  · cases hh : s.hostMap[ip]? with
    | none => simp [markedOn, usedOn, slotsOn, hh]
    | some host =>
      obtain ⟨_, _, h3, h4, h5⟩ := h.hosts ip host hh
      simp [markedOn, usedOn, slotsOn, hh, h3, h4, h5, basePorts_unused]

theorem FreshStart.accounted (h : FreshStart s) : Accounted s where
  hosts := h.hostsOk
  ledger := by
    constructor <;> intro ip <;> obtain ⟨h1, h2, h3, h4⟩ := h.ledger_eq ip
    · simp [ledgerOf, h1, h2]
    · simp [ledgerOf, h2]
    · simp [ledgerOf, h2, h3]
    · simp [ledgerOf, h3, h4]
  apps app pair hp := by
    rw [h.inFlightReqs] at hp
    exact absurd hp (by simp)
  preloads app d hd := by
    rw [h.preloaded] at hd
    exact absurd hd (by simp)

theorem FreshStart.exact (h : FreshStart s) : (ledgerOf s).Exact := by
  constructor <;> intro ip <;> obtain ⟨h1, h2, h3, _⟩ := h.ledger_eq ip
  · simp [ledgerOf, h1, h2]
  · simp [ledgerOf, h2, h3]

theorem setPolicy_governance (policy : String) (s : PlannerState) :
    (setPolicy policy s).2.policy = policy ∧
      schedulerOf (setPolicy policy s).2 = SchedulerMode.ofString? policy := by
  simp only [setPolicy, resetBatchScheduler, getBatchScheduler_eq, schedulerOf]
  cases hm : SchedulerMode.ofString? policy with
  | none => simp [hm]
  | some mode => simp

theorem setPolicy_books (policy : String) (s : PlannerState) : SameBooks s (setPolicy policy s).2 := by
  simp only [setPolicy, resetBatchScheduler, getBatchScheduler]
  split <;> exact ⟨rfl, rfl, rfl, rfl⟩

theorem setNextEvictedVm_books (vmIps : Finset String) (s : PlannerState) :
    SameBooks s (setNextEvictedVm vmIps s).2 := by
  unfold setNextEvictedVm
  split_ifs
  · exact SameBooks.refl s
  · exact ⟨rfl, rfl, rfl, rfl⟩

theorem FreshStart.registerHost (h : FreshStart s) {host : Host} (hip : host.ip ≠ "")
    (hu : host.usedSlots = 0) (hp : host.mpiPorts = []) (now ts : Int) :
    FreshStart (registerHost host false now ts s).2 := by
  by_cases hneg : host.slots < 0
  · simp only [Faabric.registerHost, hneg, if_true]
    exact h
  · simp only [Faabric.registerHost, hneg, if_false, Bool.false_eq_true]
    refine ⟨?_, h.inFlightReqs, h.preloaded, h.governed.of_governance rfl⟩
    intro ip host' hh
    rw [getElem?_insert_ite] at hh
    split_ifs at hh with he
    · subst he
      obtain rfl := Option.some.inj hh
      have hfresh : host.ip = host.ip ∧ host.ip ≠ "" ∧ 0 ≤ host.slots ∧ host.usedSlots = 0 ∧
          host.mpiPorts ++ basePorts host.slots 0 = basePorts host.slots 0 := by
        refine ⟨rfl, hip, by omega, hu, by simp [hp]⟩
      cases hr : s.hostMap[host.ip]? with
      | none => exact hfresh
      | some old =>
        dsimp only
        split_ifs
        · exact hfresh
        · exact h.hosts host.ip old hr
    · exact h.hosts ip host' hh

theorem plannerWith_fresh (policy : String) {hosts : List Host}
    (h : ∀ host ∈ hosts, host.ip ≠ "" ∧ host.usedSlots = 0 ∧ host.mpiPorts = []) :
    FreshStart (plannerWith policy hosts) := by
  have hstart : FreshStart (setPolicy policy {}).2 := by
    obtain ⟨h1, h2⟩ := setPolicy_governance policy {}
    have hrest : (setPolicy policy {}).2.hostMap = ∅ ∧ (setPolicy policy {}).2.inFlightReqs = ∅ ∧
        (setPolicy policy {}).2.preloadedSchedulingDecisions = ∅ ∧
        (setPolicy policy {}).2.nextEvictedHostIps = ∅ := by
      simp only [setPolicy, resetBatchScheduler, getBatchScheduler]
      split <;> simp
    obtain ⟨h3, h4, h5, h6⟩ := hrest
    refine ⟨?_, h4, h5, ?_, Or.inr h6⟩
    · intro ip host hh
      rw [h3] at hh
      exact absurd hh (by simp)
    · intro hspot
      rw [h1] at hspot
      rw [h2, hspot]
      rfl
  unfold plannerWith
  generalize (setPolicy policy {}).2 = s at hstart
  induction hosts generalizing s with
  | nil => exact hstart
  | cons host hosts ih =>
    obtain ⟨h1, h2, h3⟩ := h host (by simp)
    exact ih (fun x hx => h x (by simp [hx])) _ (hstart.registerHost h1 h2 h3 0 0)

end Faabric
