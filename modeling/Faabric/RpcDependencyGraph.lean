import Faabric.BatchScheduler

/-! The planner's graph of RPC dependencies, as far as a migration of a service
asks it for a host. Hash containers are lists in some iteration order, clock
readings are arguments in milliseconds, and costs are exact. -/

namespace Faabric

structure ServiceNode where
  appId : Int
  msgId : Int
deriving DecidableEq, Repr

structure RpcEdge where
  caller : ServiceNode
  callee : ServiceNode
  observations : Nat
  lastSeen : Int
deriving DecidableEq, Repr

structure RpcDependencyGraph where
  placement : List (ServiceNode × String) := []
  edges : List RpcEdge := []
  lastRecommendedAt : List (ServiceNode × Int) := []
deriving DecidableEq, Repr

namespace RpcDependencyGraph

def MIN_OBSERVATIONS : Nat := 2

def MIN_BENEFIT : Nat := 1

def EDGE_TTL : Int := 3000

def COOLDOWN : Int := 2000

def isAcceptedEdge (e : RpcEdge) : Bool := MIN_OBSERVATIONS ≤ e.observations

def hostHasCapacity (hostMap : HostMap) (host : String) : Bool :=
  match hostMap[host]? with
  | none => false
  | some h => 0 < max 0 (h.slots - h.usedSlots)

def placementOf (g : RpcDependencyGraph) (node : ServiceNode) : Option String :=
  g.placement.lookup node

def pruneStaleEdges (g : RpcDependencyGraph) (now : Int) : RpcDependencyGraph :=
  { g with edges := g.edges.filter fun e => now - e.lastSeen ≤ EDGE_TTL }

def candidateHostsFor (g : RpcDependencyGraph) (node : ServiceNode) : List String :=
  ((g.edges.filter isAcceptedEdge).flatMap fun e =>
    (if e.caller = node then (g.placementOf e.callee).toList else []) ++
      (if e.callee = node then (g.placementOf e.caller).toList else [])).dedup

def edgeCostIf (g : RpcDependencyGraph) (node : ServiceNode) (candidateHost : String) (e : RpcEdge) :
    Nat :=
  if isAcceptedEdge e && (e.caller = node || e.callee = node) then
    let callerHost := if e.caller = node then some candidateHost else g.placementOf e.caller
    let calleeHost := if e.callee = node then some candidateHost else g.placementOf e.callee
    match callerHost, calleeHost with
    | some a, some b => if a ≠ b then e.observations else 0
    | _, _ => 0
  else 0

def incidentEdgeCostIf (g : RpcDependencyGraph) (node : ServiceNode) (candidateHost : String) : Nat :=
  (g.edges.map (g.edgeCostIf node candidateHost)).sum

def bestCandidate (g : RpcDependencyGraph) (node : ServiceNode) (hostMap : HostMap)
    (currentHost : String) : List String → Option String × Nat → Option String × Nat
  | [], best => best
  | c :: cs, best =>
    if c ≠ currentHost && hostHasCapacity hostMap c && g.incidentEdgeCostIf node c < best.2 then
      bestCandidate g node hostMap currentHost cs (some c, g.incidentEdgeCostIf node c)
    else bestCandidate g node hostMap currentHost cs best

def recommendNow (g : RpcDependencyGraph) (now : Int) (node : ServiceNode) (hostMap : HostMap) :
    Option String × RpcDependencyGraph :=
  let g := g.pruneStaleEdges now
  match g.placementOf node with
  | none => (none, g)
  | some currentHost =>
    let currentCost := g.incidentEdgeCostIf node currentHost
    match g.bestCandidate node hostMap currentHost (g.candidateHostsFor node) (none, currentCost) with
    | (none, _) => (none, g)
    | (some bestHost, bestCost) =>
      if currentCost - bestCost < MIN_BENEFIT then (none, g)
      else (some bestHost,
        { g with lastRecommendedAt := (node, now) :: g.lastRecommendedAt.filter (·.1 ≠ node) })

def recommendHost (g : RpcDependencyGraph) (now : Int) (node : ServiceNode) (hostMap : HostMap) :
    Option String × RpcDependencyGraph :=
  match g.lastRecommendedAt.lookup node with
  | some t => if now - t < COOLDOWN then (none, g) else g.recommendNow now node hostMap
  | none => g.recommendNow now node hostMap

theorem bestCandidate_spec (g : RpcDependencyGraph) (node : ServiceNode) (hostMap : HostMap)
    (currentHost : String) (cs : List String) (best : Option String × Nat) :
    (g.bestCandidate node hostMap currentHost cs best = best ∨
      ∃ h, g.bestCandidate node hostMap currentHost cs best = (some h, g.incidentEdgeCostIf node h) ∧
        hostHasCapacity hostMap h = true ∧ h ≠ currentHost ∧ g.incidentEdgeCostIf node h < best.2) ∧
    ∀ c ∈ cs, c ≠ currentHost → hostHasCapacity hostMap c = true →
      (g.bestCandidate node hostMap currentHost cs best).2 ≤ g.incidentEdgeCostIf node c := by
  induction cs generalizing best with
  | nil => exact ⟨Or.inl rfl, by simp⟩
  | cons c cs ih =>
    rw [bestCandidate]
    split
    · rename_i hc
      simp only [Bool.and_eq_true, decide_eq_true_eq] at hc
      obtain ⟨⟨hne, hcap⟩, hlt⟩ := hc
      obtain ⟨hend, hmin⟩ := ih (some c, g.incidentEdgeCostIf node c)
      have hle : (g.bestCandidate node hostMap currentHost cs
          (some c, g.incidentEdgeCostIf node c)).2 ≤ g.incidentEdgeCostIf node c := by
        rcases hend with he | ⟨h, he, -, -, hless⟩
        · rw [he]
        · rw [he]
          exact hless.le
      refine ⟨Or.inr ?_, ?_⟩
      · rcases hend with he | ⟨h, he, hcap', hne', hless⟩
        · exact ⟨c, he, hcap, hne, hlt⟩
        · exact ⟨h, he, hcap', hne', hless.trans hlt⟩
      · intro c' hm hne' hcap'
        rcases List.mem_cons.mp hm with rfl | hm
        · exact hle
        · exact hmin c' hm hne' hcap'
    · rename_i hc
      obtain ⟨hend, hmin⟩ := ih best
      refine ⟨hend, ?_⟩
      intro c' hm hne' hcap'
      rcases List.mem_cons.mp hm with rfl | hm
      · have hge : best.2 ≤ g.incidentEdgeCostIf node c' := by simpa [hne', hcap'] using hc
        rcases hend with he | ⟨h, he, -, -, hless⟩
        · rw [he]
          exact hge
        · rw [he]
          exact hless.le.trans hge
      · exact hmin c' hm hne' hcap'

theorem recommendNow_spec {g : RpcDependencyGraph} {now : Int} {node : ServiceNode}
    {hostMap : HostMap} {h : String} (he : (g.recommendNow now node hostMap).1 = some h) :
    hostHasCapacity hostMap h = true ∧ g.placementOf node ≠ some h := by
  unfold recommendNow at he
  dsimp only at he
  split at he
  · simp at he
  · rename_i currentHost hcurrent
    obtain ⟨hend, -⟩ := bestCandidate_spec (g.pruneStaleEdges now) node hostMap currentHost
      ((g.pruneStaleEdges now).candidateHostsFor node)
      (none, (g.pruneStaleEdges now).incidentEdgeCostIf node currentHost)
    rcases hend with hb | ⟨best, hb, hcap, hne, -⟩
    · simp [hb] at he
    · simp only [hb] at he
      split at he
      · simp at he
      · obtain rfl := Option.some.inj he
        refine ⟨hcap, ?_⟩
        intro hh
        exact hne (Option.some.inj (hh.symm.trans hcurrent))

theorem recommendHost_spec {g : RpcDependencyGraph} {now : Int} {node : ServiceNode}
    {hostMap : HostMap} {h : String} (he : (g.recommendHost now node hostMap).1 = some h) :
    hostHasCapacity hostMap h = true ∧ g.placementOf node ≠ some h := by
  unfold recommendHost at he
  split at he
  · split at he
    · simp at he
    · exact recommendNow_spec he
  · exact recommendNow_spec he

theorem recommendNow_placement (g : RpcDependencyGraph) (now : Int) (node : ServiceNode) (hostMap : HostMap) :
    (g.recommendNow now node hostMap).2.placement = g.placement := by
  unfold recommendNow
  dsimp only
  split
  · rfl
  · split
    · rfl
    · split <;> rfl

theorem recommendHost_placement (g : RpcDependencyGraph) (now : Int) (node : ServiceNode) (hostMap : HostMap) :
    (g.recommendHost now node hostMap).2.placement = g.placement := by
  unfold recommendHost
  split
  · split
    · rfl
    · exact recommendNow_placement g now node hostMap
  · exact recommendNow_placement g now node hostMap

end RpcDependencyGraph

structure RpcDependencyEdge where
  callerAppId : Int := 0
  callerMsgId : Int := 0
  calleeAppId : Int := 0
  calleeMsgId : Int := 0
  callerHost : String := ""
  calleeHost : String := ""
  observations : Nat := 0
deriving DecidableEq, Repr

namespace RpcDependencyEdge

def caller (e : RpcDependencyEdge) : ServiceNode := { appId := e.callerAppId, msgId := e.callerMsgId }

def callee (e : RpcDependencyEdge) : ServiceNode := { appId := e.calleeAppId, msgId := e.calleeMsgId }

def skipped (e : RpcDependencyEdge) : Bool :=
  e.callerAppId = 0 || e.callerMsgId = 0 || e.calleeAppId = 0 || e.calleeMsgId = 0

end RpcDependencyEdge

namespace RpcDependencyGraph

def place (g : RpcDependencyGraph) (node : ServiceNode) (host : String) : RpcDependencyGraph :=
  { g with placement := (node, host) :: g.placement.filter (·.1 ≠ node) }

def observe (g : RpcDependencyGraph) (now : Int) (caller callee : ServiceNode) (observations : Nat) :
    RpcDependencyGraph :=
  if g.edges.any fun e => e.caller = caller && e.callee = callee then
    { g with
      edges := g.edges.map fun e =>
        if e.caller = caller && e.callee = callee then
          { e with observations := e.observations + observations, lastSeen := now }
        else e }
  else { g with edges := g.edges ++ [{ caller, callee, observations, lastSeen := now }] }

def mergeEdge (now : Int) (g : RpcDependencyGraph) (e : RpcDependencyEdge) : RpcDependencyGraph :=
  if e.skipped then g
  else
    let g := if e.callerHost = "" then g else g.place e.caller e.callerHost
    let g := if e.calleeHost = "" then g else g.place e.callee e.calleeHost
    g.observe now e.caller e.callee e.observations

def mergeTelemetry (g : RpcDependencyGraph) (now : Int) (batch : List RpcDependencyEdge) :
    RpcDependencyGraph :=
  batch.foldl (mergeEdge now) g

def setPlacement (g : RpcDependencyGraph) (node : ServiceNode) (host : String) : RpcDependencyGraph :=
  if node.appId = 0 || node.msgId = 0 || host = "" then g else g.place node host

def removePlacement (g : RpcDependencyGraph) (node : ServiceNode) : RpcDependencyGraph :=
  { g with
    placement := g.placement.filter (·.1 ≠ node)
    lastRecommendedAt := g.lastRecommendedAt.filter (·.1 ≠ node) }

theorem lookup_filter_ne (l : List (ServiceNode × String)) (node x : ServiceNode) :
    (l.filter (·.1 ≠ node)).lookup x = if x = node then none else l.lookup x := by
  induction l with
  | nil => simp
  | cons e l ih =>
    obtain ⟨key, host⟩ := e
    by_cases hk : key = node
    · subst hk
      by_cases hx : x = key
      · simpa [hx] using ih
      · have hne : (x == key) = false := by simpa using hx
        simpa [hx, List.lookup_cons, hne] using ih
    · rw [List.filter_cons_of_pos (by simpa using hk), List.lookup_cons, List.lookup_cons, ih]
      by_cases hx : x = key
      · subst hx
        simp [hk]
      · have hne : (x == key) = false := by simpa using hx
        simp [hne]

@[simp] theorem placementOf_place (g : RpcDependencyGraph) (node x : ServiceNode) (host : String) :
    (g.place node host).placementOf x = if x = node then some host else g.placementOf x := by
  simp only [placementOf, place, List.lookup_cons, lookup_filter_ne]
  by_cases hx : x = node
  · simp [hx]
  · have hne : (x == node) = false := by simpa using hx
    simp [hne, hx]

@[simp] theorem placementOf_removePlacement (g : RpcDependencyGraph) (node x : ServiceNode) :
    (g.removePlacement node).placementOf x = if x = node then none else g.placementOf x :=
  lookup_filter_ne g.placement node x

@[simp] theorem placementOf_observe (g : RpcDependencyGraph) (now : Int) (caller callee x : ServiceNode)
    (n : Nat) : (g.observe now caller callee n).placementOf x = g.placementOf x := by
  unfold observe
  split_ifs <;> rfl

end RpcDependencyGraph

def RpcDependencyEdge.reported (e : RpcDependencyEdge) (node : ServiceNode) : Option String :=
  if e.skipped then none
  else if node = e.callee ∧ e.calleeHost ≠ "" then some e.calleeHost
  else if node = e.caller ∧ e.callerHost ≠ "" then some e.callerHost
  else none

namespace RpcDependencyGraph

theorem placementOf_mergeEdge (g : RpcDependencyGraph) (now : Int) (e : RpcDependencyEdge)
    (node : ServiceNode) :
    (mergeEdge now g e).placementOf node = (e.reported node).or (g.placementOf node) := by
  have hplace : ∀ (g : RpcDependencyGraph) (key : ServiceNode) (host : String),
      (if host = "" then g else g.place key host).placementOf node =
        if node = key ∧ host ≠ "" then some host else g.placementOf node := by
    intro g key host
    by_cases hh : host = ""
    · simp [hh]
    · simp [hh]
  unfold mergeEdge RpcDependencyEdge.reported
  by_cases hs : e.skipped = true
  · simp [hs]
  · simp only [hs, Bool.false_eq_true, if_false, placementOf_observe, hplace]
    split_ifs <;> rfl

end RpcDependencyGraph

end Faabric
