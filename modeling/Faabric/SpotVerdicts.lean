import Faabric.AppPlacements

/-! What the spot scheduler answers to a migration check: an app on a host that is about to be
evicted moves to the other hosts if these can hold it and freezes if not, and any other app
stays where it is. -/

namespace Faabric

open Std (ExtTreeMap)
open MapTotal

namespace Spot

def OnMarkedHost (hostMap : HostMap) (old : SchedulingDecision) : Prop :=
  ∃ host ∈ old.hosts, ∃ h, hostMap[host]? = some h ∧ h.ip = MUST_EVICT_IP

def CanHold (hostMap : HostMap) (old : SchedulingDecision) : Prop :=
  ∃ hosts, IsPlacement (filterHosts hostMap).1 old.placements old.placements.length hosts

structure Verdicts (hostMap : HostMap) (old : SchedulingDecision)
    (result : Except PlannerError SchedulingDecision) : Prop where
  freeze : result = .ok MUST_FREEZE_DECISION ↔ OnMarkedHost hostMap old ∧ ¬ CanHold hostMap old
  stay : result = .ok DO_NOT_MIGRATE_DECISION ↔ ¬ OnMarkedHost hostMap old
  move : OnMarkedHost hostMap old → CanHold hostMap old → ∃ d, result = .ok d ∧
    d.placements.map Placement.key = old.placements.map Placement.key ∧
    IsPlacement (filterHosts hostMap).1 old.placements old.placements.length d.hosts ∧
    ∀ host ∈ d.hosts, ∃ h, hostMap[host]? = some h ∧ h.ip ≠ MUST_EVICT_IP

theorem filterHosts_getElem? (M : HostMap) (ip : String) :
    (filterHosts M).1[ip]? = M[ip]?.filter fun h => h.ip ≠ MUST_EVICT_IP := by
  rw [filterHosts, ExtTreeMap.getElem?_filter']

theorem any_marked_iff (M : HostMap) (old : SchedulingDecision) :
    (old.hosts.any fun host => (filterHosts M).2.contains host) = true ↔ OnMarkedHost M old := by
  have hmarked (host : String) :
      (filterHosts M).2.contains host = true ↔ ∃ h, M[host]? = some h ∧ h.ip = MUST_EVICT_IP := by
    simp [filterHosts, ExtTreeMap.mem_toList_iff_getElem?_eq_some]
  simp only [List.any_eq_true, hmarked, OnMarkedHost]

theorem unmarked_of_mem {M : HostMap} {own : List Placement} {count : Nat} {names : List String}
    (h : IsPlacement (filterHosts M).1 own count names) {ip : String} (hm : ip ∈ names) :
    ∃ host, M[ip]? = some host ∧ host.ip ≠ MUST_EVICT_IP := by
  obtain ⟨host, hk⟩ := h.mem hm
  rw [filterHosts_getElem?, Option.filter_eq_some_iff] at hk
  exact ⟨host, hk.1, of_decide_eq_true hk.2⟩

end Spot

section DistChange

variable {M : HostMap} {inFlightReqs : InFlightReqs} {req oldReq : BatchExecuteRequest}
  {old : SchedulingDecision}

/-- An app with a message on a marked host is told to move or to freeze as it should. One
without is told to freeze when its own hosts have more slots in use than they have. -/
theorem Spot.verdicts_iff (hM : KeyedByIp (Spot.filterHosts M).1)
    (hdist : getDecisionType inFlightReqs req = .distChange)
    (hold : inFlightReqs[req.appId]? = some (oldReq, old)) (hacc : OwnCounted M old.placements)
    (hlen : req.messages.length = old.placements.length) (hne : ∀ p ∈ old.placements, p.host ≠ "") :
    Spot.Verdicts M old (Spot.makeSchedulingDecision M inFlightReqs req) ↔
      Spot.OnMarkedHost M old ∨ Spot.CanHold M old := by
  have hacc' : OwnCounted (Spot.filterHosts M).1 old.placements := hacc.filter _
  set hosts := Spot.getSortedHosts (Spot.filterHosts M).1 inFlightReqs req .distChange with hhosts
  have hperm : hosts.Perm
      (hostList (freeAppSlots (oldHostFreqCount inFlightReqs req) (Spot.filterHosts M).1)) :=
    sortHosts_perm _ _
  have hroom := roomFor_freed hM hold hacc'
  have hfits : (assignSlots hosts req.messages).2 = [] ↔ Spot.CanHold M old := by
    rw [assignSlots_fits_iff_placement (hM.freed hold hacc') hroom hperm, hlen]
    rfl
  have hresult : Spot.makeSchedulingDecision M inFlightReqs req =
      if (assignSlots hosts req.messages).2 ≠ [] then .ok MUST_FREEZE_DECISION
      else if old.hosts.any fun host => (Spot.filterHosts M).2.contains host then
        minimiseNumOfMigrations (decisionFor req.appId (assignSlots hosts req.messages).1) old
      else .ok DO_NOT_MIGRATE_DECISION := by
    simp only [Spot.makeSchedulingDecision, hdist, hold, if_true, hhosts]
  have hmarked := Spot.any_marked_iff M old
  by_cases hcan : Spot.CanHold M old
  · refine iff_of_true ?_ (Or.inr hcan)
    have hleft := hfits.mpr hcan
    rw [hresult, if_neg (not_not.mpr hleft)]
    by_cases hon : Spot.OnMarkedHost M old
    · have hcand := assignSlots_isPlacement hroom hperm req.appId hleft
      rw [hlen] at hcand
      obtain ⟨d, hd, hkeys, -, hp⟩ := hcand.minimised hne
      have hpos : d.placements ≠ [] := by
        intro hnil
        obtain ⟨host, hm, -⟩ := hon
        have hzero : old.placements = [] := by simpa [hnil] using hkeys.symm
        simp [SchedulingDecision.hosts, hzero] at hm
      rw [if_pos (hmarked.mpr hon), hd]
      refine ⟨iff_of_false ?_ (fun h => h.2 hcan), iff_of_false ?_ (not_not.mpr hon), ?_⟩
      · intro he
        exact hpos (by rw [Except.ok.inj he]; rfl)
      · intro he
        exact hpos (by rw [Except.ok.inj he]; rfl)
      · intro _ _
        exact ⟨d, rfl, hkeys, hp, fun host hm => Spot.unmarked_of_mem hp hm⟩
    · rw [if_neg (mt hmarked.mp hon)]
      exact ⟨iff_of_false (by decide) (fun h => hon h.1), iff_of_true rfl hon, fun h => absurd h hon⟩
  · rw [hresult, if_pos (mt hfits.mp hcan)]
    constructor
    · intro hv
      exact Or.inl (hv.freeze.mp rfl).1
    · rintro (hon | hcan')
      · exact ⟨iff_of_true rfl ⟨hon, hcan⟩, iff_of_false (by decide) (not_not.mpr hon),
          fun _ h => absurd h hcan⟩
      · exact absurd hcan' hcan

end DistChange

theorem Spot.verdicts_marked_host :
    Spot.Verdicts (((∅ : HostMap).insert "b" ⟨"b", 2, 0⟩).insert "a" ⟨MUST_EVICT_IP, 2, 1⟩) (appOn ["a"])
      (Spot.makeSchedulingDecision (((∅ : HostMap).insert "b" ⟨"b", 2, 0⟩).insert "a" ⟨MUST_EVICT_IP, 2, 1⟩)
        (appInFlight ["a"]) (migrationCheck ["a"])) := by
  have hM : KeyedByIp (Spot.filterHosts
      (((∅ : HostMap).insert "b" ⟨"b", 2, 0⟩).insert "a" ⟨MUST_EVICT_IP, 2, 1⟩)).1 := by
    intro ip h hk
    rw [Spot.filterHosts_getElem?, Option.filter_eq_some_iff, getElem?_insert_ite] at hk
    split_ifs at hk with ha
    · rw [← Option.some.inj hk.1] at hk
      exact absurd hk.2 (by decide)
    · exact keyedByIp_insert keyedByIp_empty ⟨"b", 2, 0⟩ ip h hk.1
  exact (Spot.verdicts_iff hM (by decide +kernel) ExtTreeMap.getElem?_insert_self
    (((ownCounted_empty _).insert (by decide)).insert (by decide)) rfl (by decide)).mpr
    (Or.inl ⟨"a", by decide, ⟨MUST_EVICT_IP, 2, 1⟩, by simp, rfl⟩)

/-- On a host with more slots in use than it has, an app is told to freeze though no host is
marked. -/
theorem Spot.freezes_without_marked_host :
    Spot.makeSchedulingDecision overfullHost (appInFlight ["a"]) (migrationCheck ["a"]) =
      .ok MUST_FREEZE_DECISION ∧
    OwnCounted overfullHost (appOn ["a"]).placements ∧ ¬ Spot.OnMarkedHost overfullHost (appOn ["a"]) := by
  refine ⟨by decide +kernel, overfullHost_counted, ?_⟩
  rintro ⟨host, -, h, hk, hip⟩
  rw [overfullHost, getElem?_insert_ite] at hk
  split_ifs at hk with ha
  · rw [← Option.some.inj hk] at hip
    exact absurd hip (by decide)
  · simp at hk

end Faabric
