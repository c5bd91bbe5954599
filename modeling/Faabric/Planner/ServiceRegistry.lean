import Faabric.Lib.GuardedRun
import Faabric.Lib.MapTotal
import Faabric.Rpc.Messages
import Faabric.Schedulers

/-! The planner's registry of ready services and the placements of its dependency graph. The
graph has the instances where the registry has them as long as telemetry reports no other
host for them. -/

namespace Faabric

open Std (ExtTreeMap)
open MapTotal

variable {host serviceName : String}

/-- The last call of `notifyServiceReady` or `notifyServiceStopped` for an instance. -/
inductive ServiceNotice where
  | ready (host : String)
  | stopped
deriving DecidableEq, Repr

/-- `latest` is history: the planner does not keep it. -/
structure ServiceRegistry where
  readyServices : ExtTreeMap String (List ServiceEndpoint) compare := ∅
  graph : RpcDependencyGraph := {}
  latest : ServiceNode → Option ServiceNotice := fun _ => none

def ServiceEndpoint.node (e : ServiceEndpoint) : ServiceNode := { appId := e.appId, msgId := e.messageId }

namespace ServiceRegistry

def setHost (serviceName host : String) (node : ServiceNode) :
    List ServiceEndpoint → List ServiceEndpoint
  | [] => [{ serviceName, host, appId := node.appId, messageId := node.msgId }]
  | e :: endpoints =>
    if e.node = node then { e with host } :: endpoints else e :: setHost serviceName host node endpoints

def notifyServiceReady (s : ServiceRegistry) (serviceName host : String) (appId messageId : Int) :
    ServiceRegistry :=
  let node : ServiceNode := { appId, msgId := messageId }
  { readyServices := s.readyServices.insert serviceName
      (setHost serviceName host node (s.readyServices[serviceName]?.getD []))
    graph := s.graph.setPlacement node host
    latest := Function.update s.latest node (some (.ready host)) }

def notifyServiceStopped (s : ServiceRegistry) (serviceName : String) (appId messageId : Int) :
    ServiceRegistry :=
  let node : ServiceNode := { appId, msgId := messageId }
  let latest := Function.update s.latest node (some .stopped)
  match s.readyServices[serviceName]? with
  | none => { s with latest }
  | some endpoints =>
    let endpoints := endpoints.filter fun e => e.node ≠ node
    { readyServices :=
        if endpoints = [] then s.readyServices.erase serviceName
        else s.readyServices.insert serviceName endpoints
      graph := s.graph.removePlacement node
      latest }

end ServiceRegistry

inductive RegistryAction where
  | notifyServiceReady (serviceName host : String) (appId messageId : Int)
  | notifyServiceStopped (serviceName : String) (appId messageId : Int)
  | mergeTelemetry (now : Int) (batch : List RpcDependencyEdge)
  | recommendHost (now : Int) (node : ServiceNode) (hostMap : HostMap)

def RegistryAction.step (s : ServiceRegistry) : RegistryAction → ServiceRegistry
  | .notifyServiceReady serviceName host appId messageId =>
    s.notifyServiceReady serviceName host appId messageId
  | .notifyServiceStopped serviceName appId messageId => s.notifyServiceStopped serviceName appId messageId
  | .mergeTelemetry now batch => { s with graph := s.graph.mergeTelemetry now batch }
  | .recommendHost now node hostMap => { s with graph := (s.graph.recommendHost now node hostMap).2 }

/-- Instances have ids and hosts have names; an instance is stopped under the name it is
registered with, and if the registry does not have the service the graph does not have the
instance; telemetry has no host for an instance that is stopped, and for one that is ready the
host it was last ready on. -/
def ReportsCurrentHosts (s : ServiceRegistry) : RegistryAction → Prop
  | .notifyServiceReady _ host appId messageId => appId ≠ 0 ∧ messageId ≠ 0 ∧ host ≠ ""
  | .notifyServiceStopped serviceName appId messageId =>
      (∀ entry ∈ s.readyServices.toList, entry.1 ≠ serviceName →
        ∀ e ∈ entry.2, e.node ≠ { appId, msgId := messageId }) ∧
      (s.readyServices[serviceName]? = none → s.graph.placementOf { appId, msgId := messageId } = none)
  | .mergeTelemetry _ batch => ∀ edge ∈ batch, ∀ node ∈ [edge.caller, edge.callee],
      ∀ host ∈ edge.reported node, s.latest node = none ∨ s.latest node = some (.ready host)
  | .recommendHost _ _ _ => True

instance (s : ServiceRegistry) (action : RegistryAction) : Decidable (ReportsCurrentHosts s action) := by
  cases action <;> unfold ReportsCurrentHosts <;> infer_instance

namespace ServiceRegistry

def placeOf : ServiceNotice → Option String
  | .ready host => some host
  | .stopped => none

structure Tracked (s : ServiceRegistry) : Prop where
  placed : ∀ node notice, s.latest node = some notice → s.graph.placementOf node = placeOf notice
  registered : ∀ (serviceName : String) (endpoints : List ServiceEndpoint), s.readyServices[serviceName]? = some endpoints →
    ∀ e ∈ endpoints, ∃ host, s.latest e.node = some (.ready host)

theorem node_of_mem_setHost {node : ServiceNode} {endpoints : List ServiceEndpoint}
    {e : ServiceEndpoint} (he : e ∈ setHost serviceName host node endpoints) :
    e.node = node ∨ e ∈ endpoints := by
  induction endpoints with
  | nil =>
    rw [List.mem_singleton.mp he]
    exact Or.inl rfl
  | cons e' endpoints ih =>
    unfold setHost at he
    split_ifs at he with hnode
    · rcases List.mem_cons.mp he with rfl | he
      · exact Or.inl hnode
      · exact Or.inr (List.mem_cons_of_mem _ he)
    · rcases List.mem_cons.mp he with rfl | he
      · exact Or.inr (List.mem_cons_self ..)
      · exact (ih he).imp_right (List.mem_cons_of_mem _)

theorem Tracked.notifyServiceReady {s : ServiceRegistry} (h : Tracked s) {appId messageId : Int}
    (happ : appId ≠ 0) (hmsg : messageId ≠ 0) (hhost : host ≠ "") :
    Tracked (s.notifyServiceReady serviceName host appId messageId) := by
  have hgraph : ∀ x, (s.notifyServiceReady serviceName host appId messageId).graph.placementOf x =
      if x = { appId, msgId := messageId } then some host else s.graph.placementOf x := by
    intro x
    simp [ServiceRegistry.notifyServiceReady, RpcDependencyGraph.setPlacement, happ, hmsg, hhost]
  have hlatest : ∀ x, (s.notifyServiceReady serviceName host appId messageId).latest x =
      if x = { appId, msgId := messageId } then some (.ready host) else s.latest x :=
    fun x => Function.update_apply ..
  constructor
  · intro x notice hx
    rw [hlatest] at hx
    rw [hgraph]
    split_ifs at hx ⊢
    · rw [← Option.some.inj hx]
      rfl
    · exact h.placed x notice hx
  · intro name endpoints hname e he
    rw [hlatest]
    split_ifs with hnode
    · exact ⟨host, rfl⟩
    · simp only [ServiceRegistry.notifyServiceReady, getElem?_insert_ite] at hname
      split_ifs at hname with hs
      · obtain rfl := Option.some.inj hname
        have hold := (node_of_mem_setHost he).resolve_left hnode
        cases hr : s.readyServices[serviceName]? with
        | none =>
          rw [hr] at hold
          cases hold
        | some old =>
          rw [hr] at hold
          exact h.registered serviceName old hr e hold
      · exact h.registered name endpoints hname e he

theorem Tracked.notifyServiceStopped {s : ServiceRegistry} (h : Tracked s) {appId messageId : Int}
    (honly : ∀ (name : String) (endpoints : List ServiceEndpoint), s.readyServices[name]? = some endpoints → name ≠ serviceName →
      ∀ e ∈ endpoints, e.node ≠ { appId, msgId := messageId })
    (hnone : s.readyServices[serviceName]? = none →
      s.graph.placementOf { appId, msgId := messageId } = none) :
    Tracked (s.notifyServiceStopped serviceName appId messageId) := by
  have hlatest : ∀ x, (s.notifyServiceStopped serviceName appId messageId).latest x =
      if x = { appId, msgId := messageId } then some .stopped else s.latest x := by
    intro x
    unfold ServiceRegistry.notifyServiceStopped
    cases s.readyServices[serviceName]? <;> exact Function.update_apply ..
  have hgraph : ∀ x, (s.notifyServiceStopped serviceName appId messageId).graph.placementOf x =
      if x = { appId, msgId := messageId } then none else s.graph.placementOf x := by
    intro x
    unfold ServiceRegistry.notifyServiceStopped
    cases hr : s.readyServices[serviceName]? with
    | none =>
      by_cases hx : x = { appId, msgId := messageId }
      · rw [if_pos hx, hx]
        exact hnone hr
      · rw [if_neg hx]
    | some endpoints => exact RpcDependencyGraph.placementOf_removePlacement ..
  have hkept : ∀ (name : String) (endpoints : List ServiceEndpoint),
      (s.notifyServiceStopped serviceName appId messageId).readyServices[name]? = some endpoints →
       ∀ e ∈ endpoints, e.node ≠ { appId, msgId := messageId } ∧
        ∃ old, s.readyServices[name]? = some old ∧ e ∈ old := by
    intro name endpoints hname e he
    by_cases hs : serviceName = name
    · subst hs
      unfold ServiceRegistry.notifyServiceStopped at hname
      cases hr : s.readyServices[serviceName]? with
      | none =>
        simp only [hr] at hname
        cases hname
      | some old =>
        simp only [hr] at hname
        split_ifs at hname
        · simp at hname
        · simp only [getElem?_insert_ite, if_true, Option.some.injEq] at hname
          subst hname
          obtain ⟨hold, hne⟩ := List.mem_filter.mp he
          exact ⟨by simpa using hne, old, rfl, hold⟩
    · have hsame : s.readyServices[name]? = some endpoints := by
        unfold ServiceRegistry.notifyServiceStopped at hname
        cases hr : s.readyServices[serviceName]? with
        | none => simpa only [hr] using hname
        | some old =>
          simp only [hr] at hname
          split_ifs at hname
          · simpa [hs] using hname
          · simpa [hs] using hname
      exact ⟨honly name endpoints hsame (Ne.symm hs) e he, endpoints, hsame, he⟩
  constructor
  · intro x notice hx
    rw [hlatest] at hx
    rw [hgraph]
    split_ifs at hx ⊢
    · rw [← Option.some.inj hx]
      rfl
    · exact h.placed x notice hx
  · intro name endpoints hname e he
    obtain ⟨hne, old, hold, hmem⟩ := hkept name endpoints hname e he
    rw [hlatest, if_neg hne]
    exact h.registered name old hold e hmem

theorem placed_mergeTelemetry {latest : ServiceNode → Option ServiceNotice} (now : Int)
    {batch : List RpcDependencyEdge} {g : RpcDependencyGraph}
    (hplaced : ∀ node notice, latest node = some notice → g.placementOf node = placeOf notice)
    (hbatch : ∀ edge ∈ batch, ∀ node host, edge.reported node = some host →
      latest node = none ∨ latest node = some (.ready host)) :
    ∀ node notice, latest node = some notice →
      (g.mergeTelemetry now batch).placementOf node = placeOf notice := by
  induction batch generalizing g with
  | nil => exact hplaced
  | cons edge batch ih =>
    refine ih (g := RpcDependencyGraph.mergeEdge now g edge) ?_
      fun e he => hbatch e (List.mem_cons_of_mem _ he)
    intro node notice hn
    rw [RpcDependencyGraph.placementOf_mergeEdge]
    cases hr : edge.reported node with
    | none => exact hplaced node notice hn
    | some host =>
      rcases hbatch edge (List.mem_cons_self ..) node host hr with hnone | hready
      · rw [hnone] at hn
        cases hn
      · obtain rfl := Option.some.inj (hready.symm.trans hn)
        rfl

end ServiceRegistry

theorem RpcDependencyEdge.reported_mem {e : RpcDependencyEdge} {node : ServiceNode}
    (h : e.reported node = some host) : node ∈ [e.caller, e.callee] := by
  unfold reported at h
  split_ifs at h with hs hcallee hcaller
  · simp [hcallee.1]
  · simp [hcaller.1]

namespace ServiceRegistry

theorem tracked_step (s : ServiceRegistry) (action : RegistryAction) (h : Tracked s)
    (hok : ReportsCurrentHosts s action) : Tracked (action.step s) := by
  cases action with
  | notifyServiceReady serviceName host appId messageId =>
    exact h.notifyServiceReady hok.1 hok.2.1 hok.2.2
  | notifyServiceStopped serviceName appId messageId =>
    refine h.notifyServiceStopped ?_ hok.2
    intro name endpoints hname hne
    exact hok.1 (name, endpoints) (ExtTreeMap.mem_toList_iff_getElem?_eq_some.mpr hname) hne
  | mergeTelemetry now batch =>
    refine ⟨placed_mergeTelemetry now h.placed ?_, h.registered⟩
    intro edge hedge node host hr
    exact hok edge hedge node (RpcDependencyEdge.reported_mem hr) host hr
  | recommendHost now node hostMap =>
    refine ⟨?_, h.registered⟩
    intro x notice hx
    rw [← h.placed x notice hx]
    exact congrArg (List.lookup x) (RpcDependencyGraph.recommendHost_placement ..)

theorem tracked_empty : Tracked {} := by
  constructor
  · intro node notice h
    cases h
  · intro name endpoints h
    simp at h

end ServiceRegistry

def ServiceLocality.nodeOf (req : BatchExecuteRequest) (m : Message) : ServiceNode :=
  { appId := if m.appId = 0 then req.appId else m.appId, msgId := m.id }

theorem ServiceLocality.makeRpcMigrationDecision_ne {graph : RpcDependencyGraph} {now : Int}
    {hostMap : HostMap} {req : BatchExecuteRequest} {m : Message} (hreq : req.messages = [m])
    (hhost : host ∈ (makeRpcMigrationDecision graph now hostMap req).hosts) :
    graph.placementOf (nodeOf req m) ≠ some host := by
  unfold makeRpcMigrationDecision at hhost
  rw [hreq] at hhost
  dsimp only at hhost
  split at hhost
  · cases hhost
  · rename_i target ht
    obtain rfl : host = target := by
      simpa [SchedulingDecision.hosts, SchedulingDecision.addMessageOf, SchedulingDecision.addMessage,
        SchedulingDecision.push] using hhost
    exact (RpcDependencyGraph.recommendHost_spec ht).2

/-- In every run in which telemetry reports current hosts, the graph has each registered
instance on the host of its latest `notifyServiceReady` and no stopped instance, and a migration
decision for an instance names a host other than the one it runs on. -/
theorem placements_follow_registry {actions : List RegistryAction}
    (h : GuardedRun.Meets RegistryAction.step ReportsCurrentHosts {} actions) :
    let s := GuardedRun.run RegistryAction.step {} actions
    (∀ (serviceName : String) (endpoints : List ServiceEndpoint),
      s.readyServices[serviceName]? = some endpoints → ∀ e ∈ endpoints,
      ∃ host, s.latest e.node = some (.ready host) ∧ s.graph.placementOf e.node = some host) ∧
    (∀ node, s.latest node = some .stopped → s.graph.placementOf node = none) ∧
    ∀ now hostMap req m host, req.messages = [m] →
      s.latest (ServiceLocality.nodeOf req m) = some (.ready host) →
      host ∉ (ServiceLocality.makeRpcMigrationDecision s.graph now hostMap req).hosts := by
  have ht := h.invariant ServiceRegistry.tracked_step ServiceRegistry.tracked_empty
  refine ⟨?_, fun node hnode => ht.placed node _ hnode, ?_⟩
  · intro serviceName endpoints hname e he
    obtain ⟨host, hlatest⟩ := ht.registered serviceName endpoints hname e he
    exact ⟨host, hlatest, ht.placed _ _ hlatest⟩
  · intro now hostMap req m host hreq hlatest hmem
    exact ServiceLocality.makeRpcMigrationDecision_ne hreq hmem (ht.placed _ _ hlatest)

def pingCalls : RpcDependencyEdge where
  callerAppId := 1
  callerMsgId := 2
  calleeAppId := 3
  calleeMsgId := 4
  callerHost := "B"
  calleeHost := "A"
  observations := 5

def pingMoves : List RegistryAction :=
  [.notifyServiceReady "ping" "A" 3 4, .mergeTelemetry 0 [pingCalls], .notifyServiceReady "ping" "B" 3 4]

theorem placements_follow_registry_moved :
    (GuardedRun.run RegistryAction.step {} pingMoves).graph.placementOf { appId := 3, msgId := 4 } =
      some "B" := by
  have h := (@placements_follow_registry pingMoves (by decide +kernel)).1 "ping"
    [{ serviceName := "ping", host := "B", appId := 3, messageId := 4 }] (by decide +kernel) _
    (List.mem_singleton.mpr rfl)
  obtain ⟨host, hlatest, hplaced⟩ := h
  have hhost : (GuardedRun.run RegistryAction.step {} pingMoves).latest { appId := 3, msgId := 4 } =
      some (.ready "B") := by decide +kernel
  obtain rfl : host = "B" := ServiceNotice.ready.inj (Option.some.inj (hlatest.symm.trans hhost))
  exact hplaced

def twoFreeHosts : HostMap :=
  (({} : HostMap).insert "A" { ip := "A", slots := 4, usedSlots := 1 }).insert "B"
    { ip := "B", slots := 4, usedSlots := 1 }

/-- Telemetry of calls made before the instance moved to `B` arrives after it: the graph has
it on `A`, and a migration of the instance names `B`. After the instance has stopped,
telemetry puts it back into the graph. -/
theorem late_telemetry_misplaces :
    (let s := GuardedRun.run RegistryAction.step {}
      [.notifyServiceReady "ping" "A" 3 4, .notifyServiceReady "ping" "B" 3 4,
       .mergeTelemetry 0 [pingCalls]]
     s.readyServices["ping"]? =
        some [{ serviceName := "ping", host := "B", appId := 3, messageId := 4 }] ∧
      s.latest { appId := 3, msgId := 4 } = some (.ready "B") ∧
      s.graph.placementOf { appId := 3, msgId := 4 } = some "A" ∧
      (ServiceLocality.makeRpcMigrationDecision s.graph 0 twoFreeHosts
        { appId := 3, messages := [{ id := 4, appId := 3 }] }).hosts = ["B"]) ∧
    (let s := GuardedRun.run RegistryAction.step {}
      [.notifyServiceReady "ping" "A" 3 4, .notifyServiceStopped "ping" 3 4,
       .mergeTelemetry 0 [pingCalls]]
     s.latest { appId := 3, msgId := 4 } = some .stopped ∧
      s.graph.placementOf { appId := 3, msgId := 4 } = some "A") := by
  decide +kernel

end Faabric
