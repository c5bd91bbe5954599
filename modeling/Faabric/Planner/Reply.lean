import Faabric.Planner.Atomicity

/-! The reply that the planner server sends for a batch against what the planner
has recorded and sent to the workers. The encoder leaves the port out. -/

namespace Faabric

open Std (ExtTreeMap)
open SchedulingDecision MapTotal

def recvCallBatch (env : CallEnv) (req : BatchExecuteRequest) (s : PlannerState) :
    Except PlannerError PointToPointMappings × PlannerState :=
  ((callBatch env req s).1.map ptpMappingsFromSchedulingDecision, (callBatch env req s).2)

def Placement.mapping (p : Placement) : PointToPointMapping :=
  { host := p.host, messageId := p.messageId, appIdx := p.appIdx, groupIdx := p.groupIdx,
    mpiPort := p.mpiPort }

def PointToPointMapping.placement (e : PointToPointMapping) : Placement :=
  { host := e.host, messageId := e.messageId, appIdx := e.appIdx, groupIdx := e.groupIdx,
    mpiPort := e.mpiPort }

theorem foldl_push_placement (es : List PointToPointMapping) (d : SchedulingDecision) :
    es.foldl (fun d e => d.push e.placement) d =
      { d with
        nFunctions := d.nFunctions + es.length
        placements := d.placements ++ es.map PointToPointMapping.placement } := by
  induction es generalizing d with
  | nil => simp
  | cons e es ih =>
    rw [List.foldl_cons, ih]
    simp only [push, List.length_cons, List.map_cons, List.append_assoc,
      List.singleton_append, mk.injEq, true_and, and_true]
    push_cast
    omega

theorem decode_reply (d : SchedulingDecision) :
    fromPointToPointMappings (ptpMappingsFromSchedulingDecision d) =
      { appId := d.appId, groupId := d.groupId, nFunctions := d.placements.length,
        placements := d.placements.map fun p => { p with mpiPort := 0 } } := by
  refine (foldl_push_placement _ _).trans ?_
  simp [ptpMappingsFromSchedulingDecision, PointToPointMapping.placement, Function.comp_def]

/-- The decoded decision says of the messages that were dispatched last what `recorded`
and the mappings among `sent` say of them. -/
structure Mirrors (decoded recorded : SchedulingDecision) (sent : List Outgoing) : Prop where
  groupId : decoded.groupId = recorded.groupId
  placements : decoded.placements <:+ recorded.placements
  sentGroupId : ∀ host m, .sendMappings host m ∈ sent → m.groupId = decoded.groupId
  sentMappings : ∀ host m, .sendMappings host m ∈ sent →
    decoded.placements.map Placement.mapping <:+ m.mappings

def DispatchesNothing (env : CallEnv) (req : BatchExecuteRequest) (s : PlannerState) : Prop :=
  if s.inFlightReqs[req.appId]?.isSome then
    ∀ req' ∈ (prepareRequest env .scaleChange req s).toOption, req'.messages = []
  else req.messages = []

theorem Accounted.base_le_mpiPort {s : PlannerState} (ha : Accounted s) {app : Int} {pair : InFlightPair}
    (h : s.inFlightReqs[app]? = some pair) {p : Placement} (hp : p ∈ pair.2.placements) :
    MPI_BASE_PORT ≤ p.mpiPort := by
  obtain ⟨hm, host, hh⟩ := ha.exists_host (portsOn_le_leases h) hp
  rw [markedOn_of_getElem? hh] at hm
  have hl := Multiset.mem_of_le (UnitPool.usedLabels_le _) hm
  rw [(ha.hosts _ _ hh).ports, Multiset.mem_coe, List.mem_map] at hl
  obtain ⟨i, _, hi⟩ := hl
  omega

theorem startedRequest_nil (env : CallEnv) (req : BatchExecuteRequest) (s : PlannerState) :
    (startedRequest env req s).messages = [] ↔ req.messages = [] := by
  unfold startedRequest unFrozenRequest
  split
  · simp [BatchExecuteRequest.updateBatchExecGroupId]
  · split_ifs <;> simp [BatchExecuteRequest.updateBatchExecGroupId, amendMessages]

instance (d : SchedulingDecision) : Decidable (IsVerdict d) := inferInstanceAs (Decidable (_ ∨ _ ∨ _))

structure Recorded (env : CallEnv) (req : BatchExecuteRequest) (s : PlannerState)
    (d recorded : SchedulingDecision) (sent : List Outgoing) : Prop where
  groupId : d.groupId = recorded.groupId
  nothing : d.placements = [] ↔ DispatchesNothing env req s
  mappings : ∀ host m, .sendMappings host m ∈ sent → m = mappingsFromSchedulingDecision recorded

theorem sendMappings_mem {ip : String} {d recorded : SchedulingDecision} {req : BatchExecuteRequest}
    {before : List Outgoing} {host : String} {m : PointToPointMappings}
    (h : .sendMappings host m ∈
      (before ++ mappingsSent ip recorded ++ requestsSent req d).drop before.length) :
    m = mappingsFromSchedulingDecision recorded := by
  rw [List.append_assoc, List.drop_left, List.mem_append] at h
  rcases h with h | h
  · obtain ⟨_, _, he⟩ := List.mem_map.mp h
    exact (Outgoing.sendMappings.inj he).2.symm
  · obtain ⟨_, _, he⟩ := List.mem_map.mp h
    exact absurd he (by simp)

theorem CallEffect.recorded {env : CallEnv} {req : BatchExecuteRequest} {s s' : PlannerState}
    {d : SchedulingDecision} (h : CallEffect env req s (.ok d) s') (hreal : ¬ IsVerdict d)
    (htype : getDecisionType s.inFlightReqs req ≠ .distChange) :
    ∃ pair, s'.inFlightReqs[req.appId]? = some pair ∧
      Recorded env req s d pair.2 (s'.sent.drop s.sent.length) := by
  have hlength {ps : List Placement} {ms : List Message} (hl : ps.length = ms.length) :
      ps = [] ↔ ms = [] := by
    rw [← List.length_eq_zero_iff, hl, List.length_eq_zero_iff]
  generalize hr : (Except.ok d : Except PlannerError SchedulingDecision) = r at h
  cases h with
  | refused _ _ hv => exact absurd ((hv d hr.symm).imp id Or.inl) hreal
  | dropped _ _ _ _ _ _ _ => exact absurd (Or.inl (Except.ok.inj hr)) hreal
  | frozen _ _ _ => exact absurd (Or.inr (Or.inr (Except.ok.inj hr))) hreal
  | started h =>
    obtain rfl := Except.ok.inj hr
    refine ⟨(startedRequest env req s, d), by rw [h.inFlight]; simp, rfl, ?_, ?_⟩
    · rw [hlength h.pairOk.length_eq, startedRequest_nil]
      simp [DispatchesNothing, h.fresh]
    · intro host m hm
      rw [h.sent] at hm
      exact sendMappings_mem hm
  | @grown req' old added _ _ _ hprep hg =>
    obtain rfl := Except.ok.inj hr
    obtain ⟨happ, _⟩ := prepareRequest_scale hprep
    have hrun : s.inFlightReqs[req.appId]? = some old := happ ▸ hg.running
    have hadded : d.placements.length = added.length := by
      rcases hg.claims with hcl | hpre
      · simpa using (congrArg List.length hcl.sites).symm
      · simpa using (congrArg List.length hpre.leases).symm
    have hgid : d.groupId = env.newGroupId := by
      rcases hg.claims with hcl | hpre
      · obtain ⟨d₀, _, rfl⟩ := hcl.decision
        rfl
      · obtain ⟨_, _, _, _, rfl⟩ := hpre.loaded
        rfl
    refine ⟨grownPair env old (grownRequest env req' s).messages added,
      by rw [hg.inFlight, happ]; simp, hgid, ?_, ?_⟩
    · have hkeys : added.length = (grownRequest env req' s).messages.length := by
        simpa using congrArg List.length hg.keys
      rw [hlength (hadded.trans (hkeys.trans (grownRequest_length env req' s)))]
      simp [DispatchesNothing, hrun, hprep, Except.toOption]
    · intro host m hm
      rw [hg.sent] at hm
      exact sendMappings_mem hm
  | migrated hmig h =>
    rw [getDecisionType_running h.running, if_pos hmig] at htype
    exact absurd rfl htype

/-- Only a reply about no message says what the planner has recorded: the port of every
other one is lost, in the reply to a batch and in a decision that is asked for later. -/
theorem reply_mirrors_iff {s : PlannerState} {ops : List BatchOp} {env : CallEnv}
    {req : BatchExecuteRequest} {d : SchedulingDecision} (hs : FreshStart s)
    (hok : GuardedRun.Meets BatchOp.step KeepsBooks s (ops ++ [.callBatch env req]))
    (hd : (callBatch env req (GuardedRun.run BatchOp.step s ops)).1 = .ok d) (hreal : ¬ IsVerdict d)
    (htype : getDecisionType (GuardedRun.run BatchOp.step s ops).inFlightReqs req ≠ .distChange) :
    ∃ reply recorded,
      (recvCallBatch env req (GuardedRun.run BatchOp.step s ops)).1 = .ok reply ∧
      (recvCallBatch env req (GuardedRun.run BatchOp.step s ops)).2.inFlightReqs[req.appId]? =
        some recorded ∧
      (Mirrors (fromPointToPointMappings reply) recorded.2
          ((recvCallBatch env req (GuardedRun.run BatchOp.step s ops)).2.sent.drop
            (GuardedRun.run BatchOp.step s ops).sent.length) ↔
        DispatchesNothing env req (GuardedRun.run BatchOp.step s ops)) ∧
      ((fromPointToPointMappings
          (ptpMappingsFromSchedulingDecision recorded.2)).placements = recorded.2.placements ↔
        recorded.2.placements = []) := by
  obtain ⟨hpre, hlast⟩ := hok.append
  obtain ⟨ha, hg⟩ := hpre.invariant (fun s op => keepsBooks_step) ⟨hs.accounted, hs.governed⟩
  generalize GuardedRun.run BatchOp.step s ops = t at *
  have hc : CallOk req t := ⟨hlast.1, hg.evictionsOk⟩
  have heff := callBatch_effect env ha hc
  have ha' := heff.accounted ha hc
  rw [hd] at heff
  obtain ⟨pair, hin, hrec⟩ := heff.recorded hreal htype
  have hport (ps : List Placement)
      (hsub : ∀ p ∈ ps, { p with mpiPort := 0 } ∈ pair.2.placements) : ps = [] := by
    refine List.eq_nil_iff_forall_not_mem.mpr ?_
    intro p hp
    have hbase : MPI_BASE_PORT ≤ 0 := ha'.base_le_mpiPort hin (hsub p hp)
    exact absurd hbase (by decide)
  refine ⟨ptpMappingsFromSchedulingDecision d, pair, by rw [recvCallBatch, hd]; rfl, hin, ?_, ?_⟩
  · rw [decode_reply, ← hrec.nothing]
    constructor
    · intro hm
      exact hport _ fun p hp => hm.placements.subset (List.mem_map_of_mem hp)
    · intro hnil
      refine ⟨hrec.groupId, by simp [hnil], ?_, by simp [hnil]⟩
      intro host m hm
      rw [hrec.mappings host m hm]
      exact hrec.groupId.symm
  · rw [decode_reply]
    constructor
    · intro he
      refine hport _ fun p hp => ?_
      rw [← he]
      exact List.mem_map_of_mem hp
    · intro hnil
      simp [hnil]

instance (env : CallEnv) (req : BatchExecuteRequest) (s : PlannerState) :
    Decidable (DispatchesNothing env req s) :=
  inferInstanceAs (Decidable (ite _ _ _))

theorem reply_mirrors_iff_plain :
    ∃ reply recorded,
      (recvCallBatch {} (requestFor 1 [plainMessage 1 7])
        (plannerWith "bin-pack" [hostWith "A" 1])).1 = .ok reply ∧
      (recvCallBatch {} (requestFor 1 [plainMessage 1 7])
        (plannerWith "bin-pack" [hostWith "A" 1])).2.inFlightReqs[(1 : Int)]? = some recorded ∧
      ¬ Mirrors (fromPointToPointMappings reply) recorded.2
        ((recvCallBatch {} (requestFor 1 [plainMessage 1 7])
          (plannerWith "bin-pack" [hostWith "A" 1])).2.sent.drop
            (plannerWith "bin-pack" [hostWith "A" 1]).sent.length) := by
  obtain ⟨reply, recorded, h1, h2, h3, _⟩ :=
    @reply_mirrors_iff (plannerWith "bin-pack" [hostWith "A" 1]) [] {} (requestFor 1 [plainMessage 1 7])
      { appId := 1, groupId := 1, nFunctions := 1,
        placements := [{ host := "A", messageId := 7, mpiPort := 8020 }] }
      (plannerWith_fresh _ (by decide)) (by decide) (by decide)
      (by decide) (by decide)
  exact ⟨reply, recorded, h1, h2, fun hm => absurd (h3.mp hm) (by decide)⟩

/-- The second rank of a world: the planner records app index 1 and port 8021, the caller
decodes app index 0 and port 0. -/
theorem reply_loses_port :
    ((recvCallBatch { newGroupId := 2 } (requestFor 1 [mpiRank 1 2 1])
        (callBatch {} (requestFor 1 [mpiRank 1 2 0])
          (plannerWith "bin-pack" [hostWith "A" 2])).2).1.map fun reply =>
        (fromPointToPointMappings reply).placements) =
      .ok [{ host := "A", messageId := 11, appIdx := 0, groupIdx := 1, mpiPort := 0 }] ∧
    (recvCallBatch { newGroupId := 2 } (requestFor 1 [mpiRank 1 2 1])
        (callBatch {} (requestFor 1 [mpiRank 1 2 0])
          (plannerWith "bin-pack" [hostWith "A" 2])).2).2.inFlightReqs[(1 : Int)]?.map
        (fun pair => pair.2.placements.drop 1) =
      some [{ host := "A", messageId := 11, appIdx := 1, groupIdx := 1, mpiPort := 8021 }] := by
  refine ⟨by decide, by decide⟩

end Faabric
