import Faabric.RpcDependencyGraph

/-! The graph only looks at hosts of neighbours. No other host can be better, since there every
edge to a neighbour crosses hosts, so the recommended host is the best of all. -/

namespace Faabric.RpcDependencyGraph

variable {g : RpcDependencyGraph} {node : ServiceNode}

def OutsideCooldown (g : RpcDependencyGraph) (now : Int) (node : ServiceNode) : Prop :=
  ∀ t, g.lastRecommendedAt.lookup node = some t → COOLDOWN ≤ now - t

theorem mem_candidateHostsFor {host : String} :
    host ∈ g.candidateHostsFor node ↔ ∃ e ∈ g.edges, isAcceptedEdge e = true ∧
      (e.caller = node ∧ g.placementOf e.callee = some host ∨
        e.callee = node ∧ g.placementOf e.caller = some host) := by
  simp only [candidateHostsFor, List.mem_dedup, List.mem_flatMap, List.mem_filter, List.mem_append]
  refine exists_congr fun e => ?_
  by_cases hc : e.caller = node
  · by_cases hd : e.callee = node
    · simp [hc, hd, and_assoc]
    · simp [hc, hd, and_assoc]
  · by_cases hd : e.callee = node
    · simp [hc, hd, and_assoc]
    · simp [hc, hd]

theorem edgeCostIf_le (host : String) {other : String} (hother : other ∉ g.candidateHostsFor node)
    {e : RpcEdge} (he : e ∈ g.edges) : g.edgeCostIf node host e ≤ g.edgeCostIf node other e := by
  rw [mem_candidateHostsFor] at hother
  push Not at hother
  unfold edgeCostIf
  by_cases hacc : isAcceptedEdge e = true
  · obtain ⟨hcallee, hcaller⟩ := hother e he hacc
    by_cases hc : e.caller = node
    · by_cases hd : e.callee = node
      · simp [hc, hd]
      · cases hp : g.placementOf e.callee with
        | none => simp [hacc, hc, hd]
        | some b =>
          have hne : other ≠ b := fun heq => hcallee hc (heq ▸ hp)
          simp only [hacc, hc, hd, hne, decide_true, decide_false, Bool.or_false, Bool.and_self,
            if_true, if_false, ne_eq, not_false_eq_true]
          split_ifs <;> omega
    · by_cases hd : e.callee = node
      · cases hp : g.placementOf e.caller with
        | none => simp [hacc, hc, hd]
        | some a =>
          have hne : a ≠ other := fun heq => hcaller hd (heq ▸ hp)
          simp only [hacc, hc, hd, hne, decide_true, decide_false, Bool.false_or, Bool.and_self,
            if_true, if_false, ne_eq, not_false_eq_true]
          split_ifs <;> omega
      · simp [hc, hd]
  · simp [hacc]

theorem incidentEdgeCostIf_le (host : String) {other : String}
    (hother : other ∉ g.candidateHostsFor node) :
    g.incidentEdgeCostIf node host ≤ g.incidentEdgeCostIf node other := by
  refine List.sum_le_sum ?_
  intro e he
  exact edgeCostIf_le host hother he

/-- A host is recommended exactly when some host with a free slot costs less than the current one,
and then it is one with the least cost of all hosts with a free slot. A node that is not placed
anywhere is not moved. -/
theorem recommendHost_optimal (g : RpcDependencyGraph) (now : Int) (node : ServiceNode)
    (hostMap : HostMap) (hcool : g.OutsideCooldown now node) :
    (g.placementOf node = none → (g.recommendHost now node hostMap).1 = none) ∧
    ∀ currentHost, g.placementOf node = some currentHost →
      ((g.recommendHost now node hostMap).1.isSome ↔ ∃ host, hostHasCapacity hostMap host = true ∧
        host ≠ currentHost ∧ (g.pruneStaleEdges now).incidentEdgeCostIf node host <
          (g.pruneStaleEdges now).incidentEdgeCostIf node currentHost) ∧
      ∀ best, (g.recommendHost now node hostMap).1 = some best →
        hostHasCapacity hostMap best = true ∧ ∀ host, hostHasCapacity hostMap host = true →
          (g.pruneStaleEdges now).incidentEdgeCostIf node best ≤
            (g.pruneStaleEdges now).incidentEdgeCostIf node host := by
  have hnow : g.recommendHost now node hostMap = g.recommendNow now node hostMap := by
    unfold recommendHost
    cases ht : g.lastRecommendedAt.lookup node with
    | none => rfl
    | some t => exact if_neg (not_lt.mpr (hcool t ht))
  rw [hnow]
  constructor
  · intro hnone
    have hp : (g.pruneStaleEdges now).placementOf node = none := hnone
    simp [recommendNow, hp]
  intro currentHost hcurrent
  have hp : (g.pruneStaleEdges now).placementOf node = some currentHost := hcurrent
  set g' := g.pruneStaleEdges now with hg'
  obtain ⟨hend, hmin⟩ := bestCandidate_spec g' node hostMap currentHost (g'.candidateHostsFor node)
    (none, g'.incidentEdgeCostIf node currentHost)
  have hresult : (g.recommendNow now node hostMap).1 = (g'.bestCandidate node hostMap currentHost
      (g'.candidateHostsFor node) (none, g'.incidentEdgeCostIf node currentHost)).1 := by
    simp only [recommendNow, ← hg', hp]
    rcases hend with hb | ⟨best, hb, -, -, hlt⟩
    · simp [hb]
    · have hbenefit : ¬ g'.incidentEdgeCostIf node currentHost - g'.incidentEdgeCostIf node best <
          MIN_BENEFIT := by
        unfold MIN_BENEFIT
        dsimp only at hlt
        omega
      simp [hb, hbenefit]
  rw [hresult]
  rcases hend with hb | ⟨best, hb, hcap, hne, hlt⟩
  · rw [hb] at hmin ⊢
    refine ⟨iff_of_false (by simp) ?_, by simp⟩
    rintro ⟨host, hcap, hne, hlt⟩
    refine absurd hlt (not_lt.mpr ?_)
    by_cases hm : host ∈ g'.candidateHostsFor node
    · exact hmin host hm hne hcap
    · exact incidentEdgeCostIf_le currentHost hm
  · rw [hb] at hmin ⊢
    refine ⟨iff_of_true rfl ⟨best, hcap, hne, hlt⟩, ?_⟩
    intro best' he
    obtain rfl := Option.some.inj he
    refine ⟨hcap, ?_⟩
    intro host hhost
    by_cases hm : host ∈ g'.candidateHostsFor node
    · by_cases he : host = currentHost
      · subst he
        exact hlt.le
      · exact hmin host hm he hhost
    · exact incidentEdgeCostIf_le best hm

theorem recommendHost_optimal_to_caller :
    (recommendHost { placement := [(⟨1, 1⟩, "a"), (⟨2, 2⟩, "b")], edges := [⟨⟨1, 1⟩, ⟨2, 2⟩, 5, 0⟩] } 10
      ⟨2, 2⟩ ((∅ : HostMap).insert "a" ⟨"a", 2, 1⟩)).1.isSome = true := by
  refine ((recommendHost_optimal _ 10 ⟨2, 2⟩ _ ?_).2 "b" rfl).1.mpr
    ⟨"a", by decide +kernel, by decide, by decide +kernel⟩
  intro t ht
  simp at ht

end Faabric.RpcDependencyGraph
