import Faabric.Lib.Ledger
import Faabric.Planner.Accounting

/-! The planner's books: the ports leased to live messages, and what must hold of
the in-flight requests for `callBatch` and `setMessageResult` to keep them. -/

namespace Faabric

open Std (ExtTreeMap)
open MapTotal

variable {s : PlannerState} {pair : InFlightPair} {app : Int} {p : Placement}

def inFlightPorts (inFlightReqs : InFlightReqs) (ip : String) : Multiset Int :=
  total (fun _ pair => portsOn ip pair.2.placements) inFlightReqs

def preclaimedPorts (preloaded : ExtTreeMap Int SchedulingDecision compare) (ip : String) : Multiset Int :=
  total (fun _ d => portsOn ip (d.placements.drop 1)) preloaded

def leasesOn (s : PlannerState) (ip : String) : Multiset Int :=
  inFlightPorts s.inFlightReqs ip + preclaimedPorts s.preloadedSchedulingDecisions ip

def ledgerOf (s : PlannerState) : Ledger String Int where
  leases := leasesOn s
  marked := markedOn s.hostMap
  used := usedOn s.hostMap
  slots := slotsOn s.hostMap

structure InFlightOk (pair : InFlightPair) : Prop where
  keys : pair.2.placements.map Placement.key = pair.1.messages.map Message.key
  counted : pair.2.nFunctions = pair.2.placements.length

structure Accounted (s : PlannerState) : Prop where
  hosts : HostsOk s.hostMap
  ledger : (ledgerOf s).Sound
  apps : ∀ (app : Int) (pair : InFlightPair), s.inFlightReqs[app]? = some pair → InFlightOk pair
  preloads : ∀ (app : Int) (d : SchedulingDecision), s.preloadedSchedulingDecisions[app]? = some d →
    d.groupId = FIXED_SIZE_PRELOADED_DECISION_GROUPID ∧ s.inFlightReqs[app]?.isSome

structure SameBooks (s s' : PlannerState) : Prop where
  hostMap : s'.hostMap = s.hostMap
  inFlightReqs : s'.inFlightReqs = s.inFlightReqs
  preloaded : s'.preloadedSchedulingDecisions = s.preloadedSchedulingDecisions
  evicted : s'.evictedRequests = s.evictedRequests

theorem SameBooks.refl (s : PlannerState) : SameBooks s s := ⟨rfl, rfl, rfl, rfl⟩

theorem Accounted.of_books {s' : PlannerState} (ha : Accounted s) (hh : s'.hostMap = s.hostMap)
    (hi : s'.inFlightReqs = s.inFlightReqs)
    (hp : s'.preloadedSchedulingDecisions = s.preloadedSchedulingDecisions) : Accounted s' := by
  have hl : ledgerOf s' = ledgerOf s := by
    unfold ledgerOf leasesOn
    rw [hh, hi, hp]
  refine ⟨hh ▸ ha.hosts, hl ▸ ha.ledger, hi ▸ ha.apps, ?_⟩
  rw [hi, hp]
  exact ha.preloads

theorem InFlightOk.ids_eq (h : InFlightOk pair) :
    pair.2.messageIds = pair.1.messageIds := by
  simpa [SchedulingDecision.messageIds, BatchExecuteRequest.messageIds, Function.comp_def,
    Placement.key, Message.key] using congrArg (List.map Prod.fst) h.keys

theorem InFlightOk.length_eq (h : InFlightOk pair) :
    pair.2.placements.length = pair.1.messages.length := by
  simpa using congrArg List.length h.keys

theorem portsOn_le_leases (h : s.inFlightReqs[app]? = some pair) (ip : String) :
    portsOn ip pair.2.placements ≤ leasesOn s ip := by
  unfold leasesOn inFlightPorts
  rw [total_of_getElem? _ h, add_assoc]
  exact Multiset.le_add_right _ _

theorem preloadedPorts_le_leases {d : SchedulingDecision}
    (h : s.preloadedSchedulingDecisions[app]? = some d) (ip : String) :
    portsOn ip (d.placements.drop 1) ≤ leasesOn s ip := by
  unfold leasesOn preclaimedPorts
  rw [total_of_getElem? _ h, add_comm, add_assoc]
  exact Multiset.le_add_right _ _

theorem inFlightPorts_overwrite {m : InFlightReqs} {old : InFlightPair} (h : m[app]? = some old)
    (pair : InFlightPair) (ip : String) :
    inFlightPorts (m.insert app pair) ip + portsOn ip old.2.placements =
      inFlightPorts m ip + portsOn ip pair.2.placements :=
  total_overwrite (fun _ (p : InFlightPair) => portsOn ip p.2.placements) h pair

theorem mem_portsOn {ps : List Placement} (h : p ∈ ps) : p.mpiPort ∈ portsOn p.host ps :=
  Multiset.mem_coe.mpr (List.mem_map_of_mem (List.mem_filter.mpr ⟨h, by simp⟩))

theorem Accounted.exists_host (ha : Accounted s) {ps : List Placement}
    (hle : ∀ ip, portsOn ip ps ≤ leasesOn s ip) (hp : p ∈ ps) :
    p.mpiPort ∈ markedOn s.hostMap p.host ∧ ∃ h, s.hostMap[p.host]? = some h := by
  have hm := Multiset.mem_of_le ((hle p.host).trans (ha.ledger.leased p.host)) (mem_portsOn hp)
  exact ⟨hm, exists_host_of_marked hm⟩

theorem Accounted.host_ne_empty (ha : Accounted s) (h : s.inFlightReqs[app]? = some pair)
    (hp : p ∈ pair.2.placements) :
    p.host ≠ "" := by
  obtain ⟨_, host, hh⟩ := ha.exists_host (portsOn_le_leases h) hp
  exact (ha.hosts _ _ hh).named

theorem Accounted.not_preloaded (ha : Accounted s) (h : s.inFlightReqs[app]? = none)
    : s.preloadedSchedulingDecisions[app]? = none := by
  cases hp : s.preloadedSchedulingDecisions[app]? with
  | none => rfl
  | some d =>
    have := (ha.preloads app d hp).2
    simp [h] at this

end Faabric
