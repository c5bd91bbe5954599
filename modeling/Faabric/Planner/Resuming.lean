import Faabric.Planner.Freezing

/-! Freezing and restarting over whole runs: results, polls, migrations and changes of the hosts in any order. -/

namespace Faabric

open Std (ExtTreeMap)
open Function BatchExecuteRequest MapTotal

variable {ber : BatchExecuteRequest} {new : List Outgoing}

structure FreezePoint where
  sentBefore : Nat
  ids : List Int
deriving DecidableEq, Repr

/-- The planner, with the last freeze of each app and the results that its messages in flight have reported
since then. -/
structure FreezeSystem where
  planner : PlannerState
  freeze : Int → Option FreezePoint := fun _ => none
  reports : Int → List Message := fun _ => []

inductive FreezeAction where
  | registerHost (host : Host) (overwrite : Bool) (now ts : Int)
  | removeHost (host : Host)
  | getAvailableHosts (now : Int)
  | setNextEvictedVm (vmIps : Finset String)
  | callBatch (env : CallEnv) (req : BatchExecuteRequest)
  | setMessageResult (msg : Message)
  | getBatchResults (env : CallEnv) (appId : Int)

namespace FreezeSystem

def restarted (s : FreezeSystem) (app : Int) : List Message :=
  match s.freeze app with
  | none => []
  | some f => dispatched app (s.planner.sent.drop f.sentBefore)

def view (s : FreezeSystem) (app : Int) : AppView where
  evicted := s.planner.evictedRequests[app]?
  flight := s.planner.inFlightReqs[app]?.map fun pair => pair.1.messageIds
  preloaded := s.planner.preloadedSchedulingDecisions[app]?.map SchedulingDecision.groupIdxs
  finished := hasResult s.planner app
  reports := s.reports app
  restarted := s.restarted app

def call (s : FreezeSystem) (env : CallEnv) (req : BatchExecuteRequest) : FreezeSystem :=
  let r := Faabric.callBatch env req s.planner
  if r.1 = .ok MUST_FREEZE_DECISION then
    { planner := r.2
      freeze := update s.freeze req.appId
        (some ⟨r.2.sent.length, inFlightIds s.planner req.appId⟩)
      reports := update s.reports req.appId [] }
  else { s with planner := r.2 }

def Reports (s : FreezeSystem) (msg : Message) : Prop :=
  msg.id ∈ inFlightIds s.planner msg.appId ∧ ¬ Ignored msg s.planner

instance (s : FreezeSystem) (msg : Message) : Decidable (s.Reports msg) := inferInstanceAs (Decidable (_ ∧ _))

def result (s : FreezeSystem) (msg : Message) : FreezeSystem :=
  { s with
    planner := (setMessageResult msg s.planner).2
    reports := if s.Reports msg then
        update s.reports msg.appId (s.reports msg.appId ++ [msg])
      else s.reports }

end FreezeSystem

def FreezeAction.step (s : FreezeSystem) : FreezeAction → FreezeSystem
  | .registerHost host overwrite now ts =>
    { s with planner := (Faabric.registerHost host overwrite now ts s.planner).2 }
  | .removeHost host => { s with planner := Faabric.removeHost host s.planner }
  | .getAvailableHosts now => { s with planner := (Faabric.getAvailableHosts now s.planner).2 }
  | .setNextEvictedVm vmIps => { s with planner := (Faabric.setNextEvictedVm vmIps s.planner).2 }
  | .callBatch env req => s.call env req
  | .setMessageResult msg => s.result msg
  | .getBatchResults env appId => { s with planner := (Faabric.getBatchResults env appId s.planner).2 }

/-! The runs in which a freeze loses nothing. -/

def RestOfWorld (ber req : BatchExecuteRequest) : Prop :=
  req.type ≠ .migration ∧ req.isMpi = true ∧ req.isOmp = false ∧
    req.messages.map Message.groupIdx = (ber.messages.drop 1).map Message.groupIdx

variable {req : BatchExecuteRequest}

theorem RestOfWorld.more (h : RestOfWorld ber req) : 1 < ber.messages.length := by
  obtain ⟨-, hmpi, -, hgroups⟩ := h
  have hlen := congrArg List.length hgroups
  cases hreq : req.messages with
  | nil => simp [isMpi, hreq] at hmpi
  | cons m ms =>
    simp only [hreq, List.map_cons, List.length_cons, List.length_map, List.length_drop] at hlen
    omega

namespace FreezeSystem

/-- The app can be restarted from the copy that is made of it, and the copy replaces none that has frozen
messages. -/
def CanFreeze (s : FreezeSystem) (app : Int) : Prop :=
  ∀ pair ∈ s.planner.inFlightReqs[app]?,
    Restartable pair.1 ∧ isFrozenBer pair.1 = false ∧ Unreported s.planner app pair.1.messageIds ∧
      (s.planner.evictedRequests[app]?.isSome → ∀ r ∈ s.reports app, isFrozenResult r = false)

/-- Once an app has been frozen, it is called while it is in flight: to migrate, by the first rank of a world that
restarts, or for new messages when its restart is over. -/
def CallsInTurn (s : FreezeSystem) (env : CallEnv) (req : BatchExecuteRequest) : Prop :=
  (s.freeze req.appId).isSome → s.planner.inFlightReqs[req.appId]?.isSome ∧ (req.type ≠ .migration →
    match s.planner.evictedRequests[req.appId]? with
    | none => DispatchesUnreported env req s.planner
    | some ber => s.restarted req.appId ≠ [] ∧ ber.isMpi = true ∧ RestOfWorld ber req ∧
        TakesPreload req s.planner)

end FreezeSystem

def ResumesOnce (s : FreezeSystem) : FreezeAction → Prop
  | .registerHost host overwrite now _ => RegistrationOk s.planner host overwrite now
  | .removeHost host => Idle s.planner host.ip
  | .getAvailableHosts now => ∀ e ∈ s.planner.hostMap.toList,
      isHostExpired s.planner.hostTimeout e.2 now = true → Idle s.planner e.1
  | .setNextEvictedVm _ => True
  | .callBatch env req => RequestOk req s.planner ∧ env.newGroupId ≠ MUST_FREEZE_DECISION.groupId ∧
      s.CallsInTurn env req ∧
      ((callBatch env req s.planner).1 = .ok MUST_FREEZE_DECISION → s.CanFreeze req.appId)
  | .setMessageResult msg => ResultOk msg s.planner ∧ (s.Reports msg → (s.view msg.appId).Reportable msg)
  | .getBatchResults _ _ => True

instance (ber : BatchExecuteRequest) : Decidable (Restartable ber) :=
  decidable_of_iff (_ ∧ _ ∧ _ ∧ _) ⟨fun h => ⟨h.1, h.2.1, h.2.2.1, h.2.2.2⟩, fun h => ⟨h.1, h.2, h.3, h.4⟩⟩

instance (ber req : BatchExecuteRequest) : Decidable (RestOfWorld ber req) :=
  inferInstanceAs (Decidable (_ ∧ _))

instance (s : FreezeSystem) (app : Int) : Decidable (s.CanFreeze app) :=
  inferInstanceAs (Decidable (∀ pair ∈ s.planner.inFlightReqs[app]?, _))

instance (s : FreezeSystem) (env : CallEnv) (req : BatchExecuteRequest) : Decidable (s.CallsInTurn env req) := by
  unfold FreezeSystem.CallsInTurn
  cases s.planner.evictedRequests[req.appId]? <;> infer_instance

instance (s : FreezeSystem) (action : FreezeAction) : Decidable (ResumesOnce s action) := by
  cases action <;> unfold ResumesOnce <;> infer_instance

/-! What a call or a result does to the apps. -/

structure Keyed (s : PlannerState) : Prop where
  inFlight : ∀ (app : Int) (pair : InFlightPair), s.inFlightReqs[app]? = some pair → pair.1.appId = app
  evicted : ∀ (app : Int) (ber : BatchExecuteRequest), s.evictedRequests[app]? = some ber → ber.appId = app
  preloaded : ∀ (app : Int) (d : SchedulingDecision),
    s.preloadedSchedulingDecisions[app]? = some d → d.appId = app

structure SameEntries (s s' : PlannerState) (app : Int) : Prop where
  inFlight : s'.inFlightReqs[app]? = s.inFlightReqs[app]?
  evicted : s'.evictedRequests[app]? = s.evictedRequests[app]?
  preloaded : s'.preloadedSchedulingDecisions[app]? = s.preloadedSchedulingDecisions[app]?

/-- Only the entries of one app have changed, and they are still under its id. -/
structure Rewritten (s s' : PlannerState) (app : Int) : Prop where
  inFlight : ChangedAt app (fun app pair => pair.1.appId = app) s.inFlightReqs s'.inFlightReqs
  evicted : ChangedAt app (fun app ber => ber.appId = app) s.evictedRequests s'.evictedRequests
  preloaded : ChangedAt app (fun app d => d.appId = app) s.preloadedSchedulingDecisions
    s'.preloadedSchedulingDecisions

namespace Rewritten

variable {s s' : PlannerState} {app app' : Int}

theorem elsewhere (h : Rewritten s s' app) (hne : app' ≠ app) : SameEntries s s' app' :=
  ⟨h.inFlight.elsewhere hne, h.evicted.elsewhere hne, h.preloaded.elsewhere hne⟩

theorem keyed (h : Rewritten s s' app) (hk : Keyed s) : Keyed s' :=
  ⟨h.inFlight.all hk.inFlight, h.evicted.all hk.evicted, h.preloaded.all hk.preloaded⟩

end Rewritten

section Calls

variable {env : CallEnv} {req : BatchExecuteRequest} {s s' : PlannerState} {app : Int}
  {r : Except PlannerError SchedulingDecision}

theorem SameBooks.entries (h : SameBooks s s') (app : Int) : SameEntries s s' app :=
  ⟨by rw [h.inFlightReqs], by rw [h.evicted], by rw [h.preloaded]⟩

theorem CallEffect.rewritten (h : CallEffect env req s r s') (hk : Keyed s) : Rewritten s s' req.appId := by
  cases h with
  | refused hb _ _ => exact ⟨.same hb.inFlightReqs, .same hb.evicted, .same hb.preloaded⟩
  | dropped _ _ _ _ _ hb _ => exact ⟨.same hb.inFlightReqs, .same hb.evicted, .erased hb.preloaded⟩
  | frozen hrun hb _ =>
    exact ⟨.same hb.inFlightReqs, .inserted hb.evicted (hk.inFlight _ _ hrun), .same hb.preloaded⟩
  | started h =>
    refine ⟨.inserted h.inFlight (by simp [startedRequest]), .same h.evicted, ?_⟩
    have hpreloaded := h.preloaded
    split_ifs at hpreloaded
    · exact .inserted hpreloaded rfl
    · exact .same hpreloaded
  | grown _ hprep h =>
    rw [← (prepareRequest_scale hprep).1]
    refine ⟨.inserted h.inFlight (hk.inFlight _ _ h.running :), .erasedIf h.evicted, ?_⟩
    rcases h.claims with hc | hc
    · exact .same hc.preloaded
    · exact .erased hc.preloaded
  | migrated _ h =>
    exact ⟨.inserted h.inFlight (hk.inFlight _ _ h.running :), .same h.evicted, .same h.preloaded⟩

theorem CallEffect.froze (h : CallEffect env req s (.ok MUST_FREEZE_DECISION) s')
    (hg : env.newGroupId ≠ MUST_FREEZE_DECISION.groupId) :
    ∃ old, s.inFlightReqs[req.appId]? = some old ∧ s'.sent = s.sent ∧
      SameBooks { s with evictedRequests := s.evictedRequests.insert req.appId old.1 } s' := by
  generalize hr : (Except.ok MUST_FREEZE_DECISION : Except PlannerError SchedulingDecision) = r at h
  have hplaced {d : SchedulingDecision} (hd : r = .ok d) (hgid : d.groupId = env.newGroupId) : False := by
    subst hd
    rw [← Except.ok.inj hr] at hgid
    exact hg hgid.symm
  cases h with
  | refused _ _ hv =>
    rcases hv _ hr.symm with hv | hv <;> exact absurd hv (by decide)
  | dropped _ _ _ _ _ _ _ => exact absurd (Except.ok.inj hr) (by decide)
  | frozen hrun hb hsent => exact ⟨_, hrun, hsent, hb⟩
  | started h => exact (hplaced rfl h.groupId).elim
  | grown _ _ h => exact (hplaced rfl h.groupId).elim
  | migrated _ h => exact (hplaced rfl h.groupId).elim

theorem CallEffect.evicted_isSome (h : CallEffect env req s r s') (hr : r ≠ .ok MUST_FREEZE_DECISION)
    (hsome : s'.evictedRequests[req.appId]?.isSome) : s.evictedRequests[req.appId]?.isSome := by
  cases h with
  | refused hb _ _ => rwa [hb.evicted] at hsome
  | dropped _ _ _ _ _ hb _ => rwa [hb.evicted] at hsome
  | frozen _ _ _ => exact absurd rfl hr
  | started h => rwa [h.evicted] at hsome
  | grown _ _ h =>
    rw [h.evicted] at hsome
    split_ifs at hsome
    · rw [getElem?_erase_ite] at hsome
      split_ifs at hsome
      · cases hsome
      · exact hsome
    · exact hsome
  | migrated _ h => rwa [h.evicted] at hsome

theorem CallEffect.dispatched_inFlight (h : CallEffect env req s r s') (hk : Keyed s) {m : Message}
    (hm : m ∈ dispatched req.appId (s'.sent.drop s.sent.length)) : m.id ∈ inFlightIds s' req.appId := by
  have hnothing (hsent : s'.sent = s.sent) : m.id ∈ inFlightIds s' req.appId := by
    rw [hsent, List.drop_length] at hm
    cases hm
  cases h with
  | refused _ hsent _ => exact hnothing hsent
  | dropped _ _ _ _ _ _ hsent => exact hnothing hsent
  | frozen _ _ hsent => exact hnothing hsent
  | started h =>
    have hmem := h.dispatched.subset hm
    simp only [inFlightIds, h.inFlight, getElem?_insert_ite, if_true, Option.map_some, Option.getD_some]
    exact List.mem_map_of_mem hmem
  | grown _ hprep h =>
    have hreq := (prepareRequest_scale hprep).1
    rw [← hreq] at hm ⊢
    have hmem := (h.dispatched fun d hd => hk.preloaded _ d hd).subset hm
    simp only [inFlightIds, h.inFlight, getElem?_insert_ite, if_true, Option.map_some, Option.getD_some,
      grownPair_messageIds]
    exact List.mem_append_right _ (List.mem_map_of_mem hmem)
  | migrated _ h =>
    rw [h.sent, List.append_assoc, List.drop_left, dispatched_append, dispatched_mappingsSent,
      dispatched_mappings] at hm
    cases hm

end Calls

section Results

variable {msg : Message} {s s' : PlannerState} {pair : InFlightPair} {p : Placement} {app : Int}

theorem Removed.rewritten (h : Removed msg s pair p s') (hk : Keyed s) : Rewritten s s' msg.appId := by
  have hinFlight := h.inFlight
  have hevicted := h.evicted
  refine ⟨?_, ?_, .erasedIf h.preloaded⟩
  · split_ifs at hinFlight
    · exact .erased hinFlight
    · exact .inserted hinFlight (hk.inFlight _ _ h.running :)
  · unfold recordedEvictions at hevicted
    split_ifs at hevicted
    · split at hevicted
      · exact .same hevicted
      · rename_i ber hev
        exact .inserted hevicted (hk.evicted _ _ hev :)
    · exact .same hevicted

theorem Removed.evicted_isSome (h : Removed msg s pair p s') (hsome : s'.evictedRequests[app]?.isSome) :
    s.evictedRequests[app]?.isSome := by
  rw [h.evicted, recordedEvictions] at hsome
  split_ifs at hsome
  · split at hsome
    · exact hsome
    · rename_i ber hev
      rw [getElem?_insert_ite] at hsome
      split_ifs at hsome with happ
      · rw [← happ, hev]
        rfl
      · exact hsome
  · exact hsome

end Results

theorem mem_inFlightIds {s : PlannerState} (ha : Accounted s) (app id : Int) :
    id ∈ inFlightIds s app ↔ (placementOf s app id).isSome := by
  unfold inFlightIds placementOf
  cases hrun : s.inFlightReqs[app]? with
  | none => simp
  | some pair =>
    have hids := (ha.apps app pair hrun).ids_eq
    simp only [Option.map_some, Option.getD_some, ← hids, SchedulingDecision.messageIds, List.mem_map,
      List.find?_isSome, beq_iff_eq]

theorem hasResult_congr {s s' : PlannerState} (h : s'.appResults = s.appResults) (app : Int) :
    hasResult s' app = hasResult s app := by
  funext id
  rw [hasResult, hasResult, h]

theorem hasResult_of_recorded {msg : Message} {s s' : PlannerState} (h : s'.appResults = recordedResults msg s)
    (app id : Int) :
    hasResult s' app id =
      if app = msg.appId ∧ id = msg.id ∧ isFrozenResult msg = false then true else hasResult s app id := by
  by_cases hsame : app = msg.appId ∧ id = msg.id
  · obtain ⟨rfl, rfl⟩ := hsame
    simp only [hasResult, h, recordedResults, true_and]
    cases isFrozenResult msg with
    | false => simp
    | true => cases hres : s.appResults[msg.appId]? <;> simp
  · rw [if_neg fun hall => hsame ⟨hall.1, hall.2.1⟩]
    exact hasResult_recorded h fun happ hid => hsame ⟨happ, hid⟩

theorem find?_groupIdx {ms : List Message} (hnd : (ms.map Message.groupIdx).Nodup) {m : Message} (hm : m ∈ ms) :
    (ms.find? fun e => e.groupIdx == m.groupIdx) = some m := by
  induction ms with
  | nil => cases hm
  | cons e ms ih =>
    obtain ⟨hnot, hrest⟩ := List.nodup_cons.mp hnd
    rcases List.mem_cons.mp hm with rfl | hm
    · simp
    · have hne : e.groupIdx ≠ m.groupIdx := fun heq => hnot (heq ▸ List.mem_map_of_mem hm)
      rw [List.find?_cons_of_neg (by simpa using hne)]
      exact ih hrest hm

theorem amendMessages_origin (hrest : RestOfWorld ber req)
    (hranks : (ber.messages.map Message.groupIdx).Nodup) :
    (amendMessages ber req).messages.map Message.origin = (ber.messages.drop 1).map Message.origin := by
  have hnd : ((ber.messages.drop 1).map Message.groupIdx).Nodup := by
    rw [List.map_drop]
    exact hranks.sublist (List.drop_sublist 1 _)
  have hgroups := hrest.2.2.2
  have hmessages := congrArg BatchExecuteRequest.messages (amendMessages.eq_1 ber req)
  dsimp only at hmessages
  generalize ber.messages.drop 1 = rest at hnd hgroups hmessages ⊢
  -- the origin that a group index stands for
  let origin (groupIdx : Int) := (rest.find? fun e => e.groupIdx == groupIdx).map Message.origin
  have hframe : (amendMessages ber req).messages.map (some ∘ Message.origin) =
      req.messages.map (origin ∘ Message.groupIdx) := by
    rw [hmessages, List.map_map]
    apply List.map_congr_left
    intro m hm
    have hmem : m.groupIdx ∈ rest.map Message.groupIdx := hgroups ▸ List.mem_map_of_mem hm
    obtain ⟨e, he, heq⟩ := List.mem_map.mp hmem
    have hfind := find?_groupIdx hnd he
    rw [heq] at hfind
    simp only [comp_apply, origin, hfind]
    rfl
  have hsome : (amendMessages ber req).messages.map (some ∘ Message.origin) =
      rest.map (some ∘ Message.origin) := by
    rw [hframe, ← List.map_map, hgroups, List.map_map]
    apply List.map_congr_left
    intro e he
    simp [origin, find?_groupIdx hnd he]
  rw [← List.map_map, ← List.map_map] at hsome
  exact List.map_injective_iff.mpr (Option.some_injective _) hsome

theorem grownRequest_origin {planner : PlannerState} (env : CallEnv)
    (hev : planner.evictedRequests[req.appId]? = some ber) (hrest : RestOfWorld ber req)
    (hranks : (ber.messages.map Message.groupIdx).Nodup) :
    (grownRequest env req planner).messages.map Message.origin = (ber.messages.drop 1).map Message.origin := by
  rw [← amendMessages_origin hrest hranks]
  simp only [grownRequest, unFrozenRequest, hev, hrest.2.1, updateBatchExecGroupId]
  simp [comp_def, Message.origin, Message.saved]

namespace FreezeSystem

structure Sound (s : FreezeSystem) : Prop where
  accounted : Accounted s.planner
  governed : Governed s.planner
  keyed : Keyed s.planner
  frozen : ∀ app, s.planner.evictedRequests[app]?.isSome → (s.freeze app).isSome
  sent : ∀ app f, s.freeze app = some f → f.sentBefore ≤ s.planner.sent.length
  apps : ∀ app f, s.freeze app = some f → (s.view app).Ok f.ids

section Steps

variable {s : FreezeSystem} {planner : PlannerState} {app : Int} {f : FreezePoint}

theorem restarted_planner (h : s.Sound) (hf : s.freeze app = some f)
    (hsent : planner.sent = s.planner.sent ++ new) :
    restarted { s with planner } app = s.restarted app ++ dispatched app new := by
  simp only [restarted, hf, hsent]
  rw [List.drop_append_of_le_length (h.sent app f hf), dispatched_append]

theorem view_planner (h : s.Sound) (hf : s.freeze app = some f)
    (hsent : planner.sent = s.planner.sent ++ new)
    (hres : hasResult planner app = hasResult s.planner app) :
    view { s with planner } app =
      { s.view app with
        evicted := planner.evictedRequests[app]?
        flight := planner.inFlightReqs[app]?.map fun pair => pair.1.messageIds
        preloaded := planner.preloadedSchedulingDecisions[app]?.map SchedulingDecision.groupIdxs
        restarted := (s.view app).restarted ++ dispatched app new } := by
  have hrestarted := restarted_planner h hf hsent
  simp only [view, hres, hrestarted]

theorem view_same (h : s.Sound) (hf : s.freeze app = some f)
    (hsame : SameEntries s.planner planner app) (hsent : planner.sent = s.planner.sent ++ new)
    (hnew : dispatched app new = []) (hres : hasResult planner app = hasResult s.planner app) :
    view { s with planner } app = s.view app := by
  rw [view_planner h hf hsent hres, hsame.inFlight, hsame.evicted, hsame.preloaded, hnew, List.append_nil]
  rfl

theorem Sound.of_books (h : s.Sound) (ha : Accounted planner) (hg : Governed planner)
    (hb : ∀ app, SameEntries s.planner planner app) (hsent : planner.sent = s.planner.sent)
    (hres : ∀ app, hasResult planner app = hasResult s.planner app) : Sound { s with planner } := by
  refine ⟨ha, hg, ⟨?_, ?_, ?_⟩, ?_, ?_, ?_⟩
  · intro app pair hp
    exact h.keyed.inFlight app pair ((hb app).inFlight ▸ hp)
  · intro app ber hp
    exact h.keyed.evicted app ber ((hb app).evicted ▸ hp)
  · intro app d hp
    exact h.keyed.preloaded app d ((hb app).preloaded ▸ hp)
  · intro app hsome
    exact h.frozen app ((hb app).evicted ▸ hsome)
  · intro app f hf
    rw [hsent]
    exact h.sent app f hf
  · intro app f hf
    rw [view_same h hf (hb app) (hsent.trans (List.append_nil _).symm) rfl (hres _)]
    exact h.apps app f hf

variable {env : CallEnv} {req : BatchExecuteRequest} {r : Except PlannerError SchedulingDecision}

theorem Sound.of_effect (h : s.Sound) (heff : CallEffect env req s.planner r planner) (ha : Accounted planner)
    (hg : Governed planner) (hres : ∀ app, hasResult planner app = hasResult s.planner app)
    (hcopy : planner.evictedRequests[req.appId]?.isSome → (s.freeze req.appId).isSome)
    (hown : ∀ f, s.freeze req.appId = some f → (view { s with planner } req.appId).Ok f.ids) :
    Sound { s with planner } := by
  obtain ⟨new, hsent, hother⟩ := heff.sent_eq (fun d hd => h.keyed.preloaded _ d hd)
  have heff' := heff.rewritten h.keyed
  refine ⟨ha, hg, heff'.keyed h.keyed, ?_, ?_, ?_⟩
  · intro app hsome
    by_cases happ : app = req.appId
    · subst happ
      exact hcopy hsome
    · exact h.frozen app ((heff'.elsewhere happ).evicted ▸ hsome)
  · intro app f hf
    have hle := h.sent app f hf
    simp only [hsent, List.length_append]
    omega
  · intro app f hf
    by_cases happ : app = req.appId
    · subst happ
      exact hown f hf
    · rw [view_same h hf (heff'.elsewhere happ) hsent (hother app happ) (hres _)]
      exact h.apps app f hf

theorem Sound.called (h : s.Sound) (heff : CallEffect env req s.planner r planner)
    (hr : r ≠ .ok MUST_FREEZE_DECISION) (hres : ∀ app, hasResult planner app = hasResult s.planner app)
    (hturn : s.CallsInTurn env req) (hf : s.freeze req.appId = some f) :
    (view { s with planner } req.appId).Ok f.ids := by
  have hok := h.apps _ f hf
  obtain ⟨hflying, hmay⟩ := hturn (by rw [hf]; rfl)
  cases heff with
  | refused hb hsent _ =>
    rw [view_same h hf (hb.entries _) (hsent.trans (List.append_nil _).symm) rfl (hres _)]
    exact hok
  | dropped hrun htype hload hpicks hwhy hb hsent =>
    have hcase := hmay htype
    cases hev : s.planner.evictedRequests[req.appId]? with
    | none =>
      rw [view_planner h hf (hsent.trans (List.append_nil _).symm) (hres _), hb.inFlightReqs, hb.evicted, hb.preloaded]
      simpa [view, dispatched] using hok.preload hev none
    | some ber =>
      rw [hev] at hcase
      obtain ⟨hne, hone⟩ := hcase.2.2.2 hrun htype _ hload _ (congrArg Except.toOption hpicks)
      rcases hwhy with hnil | ⟨hmany, hhint⟩
      · exact absurd hnil hne
      · exact absurd (hone hhint) (by omega)
  | frozen _ _ _ => exact absurd rfl hr
  | started hst =>
    rw [hst.fresh] at hflying
    cases hflying
  | @grown req' old added d _ htype hprep hgrown =>
    have hcase := hmay htype
    have hreq := (prepareRequest_scale hprep).1
    have hrun := hgrown.running
    have hsent := hgrown.sent.trans (List.append_assoc _ _ _)
    have hnew := hgrown.dispatched fun d hd => h.keyed.preloaded _ d hd
    rw [hsent, List.drop_left] at hnew
    have hflight : (s.view req.appId).flightIds = old.1.messageIds := by
      rw [← hreq]
      simp [view, AppView.flightIds, hrun]
    rw [view_planner h hf hsent (hres _), hgrown.inFlight, hgrown.evicted, ← hreq]
    rw [← hreq] at hflight hok hf
    simp only [getElem?_insert_ite, if_true, Option.map_some, grownPair_messageIds, ← hflight]
    cases hev : s.planner.evictedRequests[req.appId]? with
    | none =>
      rw [hev] at hcase
      rw [← hreq] at hev
      obtain ⟨hnd, hun⟩ := hcase.2 old (hreq ▸ hrun) htype req' (congrArg Except.toOption hprep)
      rw [← hflight] at hnd hun
      have hgone : (if req'.isMpi = true then s.planner.evictedRequests.erase req'.appId
          else s.planner.evictedRequests)[req'.appId]? = (s.view req'.appId).evicted := by
        split_ifs <;> simp [view, hev]
      rw [hgone]
      refine hok.grow hev ?_ hnd ?_ hnew
      · simp [view, hrun]
      · intro m hm
        have hlast := hun m.id (List.mem_append_right _ (List.mem_map_of_mem hm))
        rw [hreq]
        exact hlast
    | some ber =>
      rw [hev] at hcase
      obtain ⟨hstarted, hmpi, hrest, -⟩ := hcase
      have hresuming := (h.apps _ f (hreq ▸ hf)).resuming hev hstarted hmpi hrest.more
      -- the preloaded decision keeps the request from being grown
      have hsame : req' = req := by
        apply (prepareRequest_scale hprep).2.2.2
        have hpre := hresuming.preloaded
        simp only [view, Option.map_eq_some_iff] at hpre
        obtain ⟨d, hd, -⟩ := hpre
        rw [hd]
        rfl
      subst hsame
      rw [if_pos hrest.2.1]
      simp only [getElem?_erase_ite, if_true]
      exact hresuming.complete hok.nodup (grownRequest_origin env hev hrest hresuming.ranks) hnew
  | migrated htype hm =>
    have hsent := hm.sent.trans (List.append_assoc _ _ _)
    have hsame : view { s with planner } req.appId = s.view req.appId := by
      rw [view_planner h hf hsent (hres _), hm.inFlight, hm.evicted, hm.preloaded, dispatched_append,
        dispatched_mappingsSent, dispatched_mappings]
      simp [view, hm.running]
    rw [hsame]
    exact hok

theorem view_congr {s s' : FreezeSystem} (hplanner : s'.planner = s.planner) (hfreeze : s'.freeze app = s.freeze app)
    (hreports : s'.reports app = s.reports app) : s'.view app = s.view app := by
  simp only [view, restarted, hplanner, hfreeze, hreports]

theorem Sound.freezes {old : InFlightPair} (h : s.Sound) (ha : Accounted planner) (hg : Governed planner)
    (hk : Keyed planner) (hrun : s.planner.inFlightReqs[app]? = some old)
    (hb : SameBooks { s.planner with evictedRequests := s.planner.evictedRequests.insert app old.1 } planner)
    (hsent : planner.sent = s.planner.sent) (hres : ∀ app, hasResult planner app = hasResult s.planner app)
    (hcan : s.CanFreeze app) :
    Sound
      { planner
        freeze := update s.freeze app (some ⟨planner.sent.length, inFlightIds s.planner app⟩)
        reports := update s.reports app [] } := by
  obtain ⟨hrestart, hber, ⟨hnd, hun⟩, -⟩ := hcan old hrun
  have hentries (app' : Int) (hne : app' ≠ app) : SameEntries s.planner planner app' :=
    ⟨by rw [hb.inFlightReqs], by rw [hb.evicted, getElem?_insert_ite, if_neg hne.symm], by rw [hb.preloaded]⟩
  refine ⟨ha, hg, hk, ?_, ?_, ?_⟩
  · intro app' hsome
    by_cases happ : app' = app
    · subst happ
      simp
    · rw [(hentries app' happ).evicted] at hsome
      simpa [happ] using h.frozen app' hsome
  · intro app' f hf
    by_cases happ : app' = app
    · subst happ
      simp only [update_self, Option.some.injEq] at hf
      rw [← hf]
    · simp only [update_of_ne happ] at hf
      rw [hsent]
      exact h.sent app' f hf
  · intro app' f hf
    by_cases happ : app' = app
    · subst happ
      simp only [update_self, Option.some.injEq] at hf
      have hids : f.ids = old.1.messageIds := by
        rw [← hf]
        simp [inFlightIds, hrun]
      have hfreeze := @AppView.Ok.freeze (s.view app') old.1 (by simp [view, hrun]) hnd hun hber hrestart
      rw [hids]
      convert hfreeze using 1
      simp [view, restarted, dispatched, hb.inFlightReqs, hb.evicted, hb.preloaded, hres, hrun]
    · have hsame := @view_congr app' { s with planner }
        { planner
          freeze := update s.freeze app (some ⟨planner.sent.length, inFlightIds s.planner app⟩)
          reports := update s.reports app [] } rfl (by simp [happ]) (by simp [happ])
      simp only [update_of_ne happ] at hf
      rw [hsame, view_same h hf (hentries app' happ) (hsent.trans (List.append_nil _).symm) rfl (hres _)]
      exact h.apps app' f hf

theorem Sound.call (h : s.Sound) (hok : ResumesOnce s (.callBatch env req)) : (s.call env req).Sound := by
  obtain ⟨hreq, hgid, hturn, hcan⟩ := hok
  have hc : CallOk req s.planner := ⟨hreq, h.governed.evictionsOk⟩
  have heff := callBatch_effect env h.accounted hc
  have ha := heff.accounted h.accounted hc
  have hg := h.governed.callBatch env req
  have hres := hasResult_congr (callBatch_results env req s.planner).1
  unfold FreezeSystem.call
  dsimp only
  split_ifs with hfreeze
  · rw [hfreeze] at heff
    obtain ⟨old, hrun, hsent, hb⟩ := heff.froze hgid
    exact h.freezes ha hg ((heff.rewritten h.keyed).keyed h.keyed) hrun hb hsent hres (hcan hfreeze)
  · exact h.of_effect heff ha hg hres (fun hsome => h.frozen _ (heff.evicted_isSome hfreeze hsome))
      fun f hf => h.called heff hfreeze hres hturn hf

theorem Sound.requestOk (h : s.Sound) (hev : s.planner.evictedRequests[ber.appId]? = some ber)
    (hnone : s.planner.inFlightReqs[ber.appId]? = none) : RequestOk ber s.planner := by
  obtain ⟨f, hf⟩ := Option.isSome_iff_exists.mp (h.frozen ber.appId (by rw [hev]; rfl))
  have hok := h.apps _ f hf
  have hfreezing := hok.freezing hev (by simp [view, hnone])
  have hnd : ber.messageIds.Nodup := hfreezing.copied ▸ hok.nodup
  refine ⟨fun _ hknown => ⟨?_, ?_⟩, ?_⟩
  · cases hmpi : ber.isMpi with
    | true => exact Or.inr ⟨rfl, by rw [hev]; rfl⟩
    | false =>
      have homp : ber.isOmp = true := by simpa [hmpi] using hknown
      refine Or.inl ((hfreezing.restartable.thread homp).resolve_left ?_)
      simp [hmpi]
  · intro m hm
    refine ⟨hfreezing.restartable.first hknown m hm, ?_⟩
    cases hms : ber.messages with
    | nil => simp [hms] at hm
    | cons m' ms =>
      have hfirst : m' = m := by simpa [hms] using hm
      rw [messageIds, hms, List.map_cons, List.nodup_cons] at hnd
      simpa [hfirst] using hnd.1
  · intro hsome
    rw [hnone] at hsome
    cases hsome

theorem startedRequest_frozen (env : CallEnv)
    (hev : planner.evictedRequests[ber.appId]? = some ber) :
    (startedRequest env ber planner).messages.map Message.origin = (firstStep ber).map Message.origin := by
  have hmessages : (unFrozenRequest .new (some ber) ber).messages = firstStep ber := by
    unfold unFrozenRequest firstStep
    cases hmpi : ber.isMpi <;> simp
  rw [startedRequest, hev, updateBatchExecGroupId, ← hmessages]
  simp [comp_def, Message.origin, Message.saved]

theorem Started.world {full : List Placement} {d : SchedulingDecision} {s s' : PlannerState}
    (hst : Started env ber s full d s') (hmpi : ber.isMpi = true) (hres : Restartable ber) :
    full.map Placement.groupIdx = ber.messages.map Message.groupIdx := by
  obtain ⟨messages, hclaimed, hkeys⟩ := hst.claimed
  have hsame : messages = ber.messages := by
    cases hms : ber.messages with
    | nil => simp [isMpi, hms] at hmpi
    | cons m ms =>
      have hworld := hres.world hmpi m (by simp [hms])
      have hsize : ¬ m.mpiWorldSize < 0 := by omega
      have hmock : m.mpiWorldSize.toNat - (ms.length + 1) = 0 := by
        rw [hms, List.length_cons] at hworld
        omega
      simpa [claimedMessages, hmpi, knownSizeRequest, hms, hsize, Except.map, hmock] using hclaimed.symm
  rw [hsame] at hkeys
  simpa [comp_def, Placement.key, Message.key] using congrArg (List.map fun k => k.2.2) hkeys

theorem Sound.poll (h : s.Sound) (env : CallEnv) (app : Int) :
    Sound { s with planner := (getBatchResults env app s.planner).2 } := by
  rcases getBatchResults_planner env app s.planner with hsame | ⟨ber, hev, hber, hnone, hcall⟩
  · rw [hsame]
    exact h
  obtain rfl := h.keyed.evicted app ber hev
  have hc : CallOk ber s.planner := ⟨h.requestOk hev hnone, h.governed.evictionsOk⟩
  have heff := callBatch_effect env h.accounted hc
  have hres := hasResult_congr (callBatch_results env ber s.planner).1
  have hfrozen := h.frozen ber.appId (by rw [hev]; rfl)
  rw [hcall]
  refine h.of_effect heff (heff.accounted h.accounted hc) (h.governed.callBatch env ber) hres (fun _ => hfrozen) ?_
  intro f hf
  have hok := h.apps _ f hf
  have hidle : (s.view ber.appId).flight = none := by simp [view, hnone]
  have hrestartable := (hok.freezing hev hidle).restartable
  generalize (callBatch env ber s.planner).2 = planner at heff hres
  generalize (callBatch env ber s.planner).1 = r at heff
  cases heff with
  | refused hb hsent _ =>
    rw [view_same h hf (hb.entries _) (hsent.trans (List.append_nil _).symm) rfl (hres _)]
    exact hok
  | dropped hrun _ _ _ _ _ _ =>
    rw [hnone] at hrun
    cases hrun
  | frozen hrun _ _ =>
    rw [hnone] at hrun
    cases hrun
  | started hst =>
    have hsent := hst.sent.trans (List.append_assoc _ _ _)
    have hnew := hst.dispatched
    rw [hsent, List.drop_left] at hnew
    have horigin := startedRequest_frozen env hev
    have hids : (startedRequest env ber s.planner).messageIds = (firstStep ber).map Message.id := by
      have hmap := congrArg (List.map Prod.fst) horigin
      simpa [Message.origin, comp_def, messageIds] using hmap
    rw [view_planner h hf hsent (hres _), hst.inFlight, hst.evicted]
    simp only [getElem?_insert_ite, if_true, Option.map_some, hids]
    refine hok.restart hev hber hidle ((hnew.map Message.origin).trans (List.Perm.of_eq horigin)) ?_
    intro hmpi
    rw [hst.preloaded]
    simp [hmpi, startedDecision, SchedulingDecision.groupIdxs, Started.world hst hmpi hrestartable]
  | grown _ hprep hgrown =>
    have hrun := hgrown.running
    rw [(prepareRequest_scale hprep).1, hnone] at hrun
    cases hrun
  | migrated _ hm =>
    have hrun := hm.running
    rw [hnone] at hrun
    cases hrun

theorem view_report {msg : Message} {pair : InFlightPair} {p : Placement} (h : s.Sound)
    (hf : s.freeze msg.appId = some f) (hrem : Removed msg s.planner pair p planner) :
    view { s with
      planner
      reports := update s.reports msg.appId (s.reports msg.appId ++ [msg]) } msg.appId =
        (s.view msg.appId).report msg := by
  have hflight : (s.view msg.appId).flightIds = pair.1.messageIds := by
    simp [view, AppView.flightIds, hrem.running]
  have hempty : (removedPair msg.id pair).1.messages.isEmpty = true ↔ pair.1.messageIds.erase msg.id = [] := by
    rw [← removedPair_messageIds]
    simp [messageIds, List.isEmpty_iff]
  have hrestarted : restarted { s with planner } msg.appId = s.restarted msg.appId := by
    rw [restarted_planner h hf hrem.sent, dispatched_notifications, List.append_nil]
  rw [AppView.report, hflight]
  simp only [view, AppView.mk.injEq]
  refine ⟨?_, ?_, ?_, ?_, by simp, hrestarted⟩
  · rw [hrem.evicted, recordedEvictions]
    split_ifs with hfro
    · cases hev : s.planner.evictedRequests[msg.appId]? with
      | none => simp [hev]
      | some ber => simp [withFrozen]
    · rfl
  · rw [hrem.inFlight]
    by_cases hrest : pair.1.messageIds.erase msg.id = []
    · simp [hempty.mpr hrest, hrest]
    · rw [if_neg (fun hnil => hrest (hempty.mp hnil)), if_neg hrest]
      simp [removedPair_messageIds]
  · rw [hrem.preloaded]
    by_cases hrest : pair.1.messageIds.erase msg.id = []
    · simp [hempty.mpr hrest, hrest]
    · rw [if_neg (fun hnil => hrest (hempty.mp hnil)), if_neg hrest]
  · funext id
    rw [hasResult_of_recorded hrem.appResults]
    cases hfro : isFrozenResult msg with
    | true => simp
    | false =>
      by_cases hid : id = msg.id
      · simp [hid]
      · simp [hid]

theorem Sound.result {msg : Message} (h : s.Sound) (hok : ResumesOnce s (.setMessageResult msg)) :
    (s.result msg).Sound := by
  obtain ⟨hresult, hreportable⟩ := hok
  have heff := setMessageResult_effect h.accounted hresult
  have ha := heff.accounted h.accounted
  have hg : Governed (setMessageResult msg s.planner).2 :=
    h.governed.of_governance (setMessageResult_governance msg s.planner)
  unfold FreezeSystem.result
  generalize (setMessageResult msg s.planner).1 = r at heff
  generalize (setMessageResult msg s.planner).2 = planner at heff ha hg
  cases heff with
  | ignored hsame hwhy =>
    rw [if_neg fun hrep => hrep.2 hwhy, hsame]
    exact h
  | repeated habsent hkept hb happ hsent =>
    obtain ⟨hknown, hfinal⟩ := Bool.or_eq_false_iff.mp hkept
    have hres (app : Int) : hasResult planner app = hasResult s.planner app := by
      funext id
      rw [hasResult_of_recorded happ]
      split_ifs with hsame
      · rw [hsame.1, hsame.2.1]
        simpa using hknown.symm
      · rfl
    have hnot : ¬ s.Reports msg := by
      intro hrep
      have hplaced := (mem_inFlightIds h.accounted _ _).mp hrep.1
      rw [habsent] at hplaced
      cases hplaced
    rw [if_neg hnot]
    refine ⟨ha, hg, ?_, ?_, ?_, ?_⟩
    · exact ⟨hb.inFlightReqs ▸ h.keyed.inFlight, hb.evicted ▸ h.keyed.evicted, hb.preloaded ▸ h.keyed.preloaded⟩
    · rw [hb.evicted]
      exact h.frozen
    · intro app f hf
      have hle := h.sent app f hf
      simp only [hsent, List.length_append]
      omega
    · intro app f hf
      rw [view_same h hf (hb.entries app) hsent (dispatched_notifications _ _ _) (hres _)]
      exact h.apps app f hf
  | removed hrem =>
    have hin : msg.id ∈ inFlightIds s.planner msg.appId := by
      rw [mem_inFlightIds h.accounted, placementOf, hrem.running]
      simp [hrem.placed]
    have hrep : s.Reports msg := ⟨hin, hrem.heeded⟩
    have hrewritten := hrem.rewritten h.keyed
    rw [if_pos hrep]
    refine ⟨ha, hg, hrewritten.keyed h.keyed, fun app hsome => h.frozen app (hrem.evicted_isSome hsome), ?_, ?_⟩
    · intro app f hf
      have hle := h.sent app f hf
      simp only [hrem.sent, List.length_append]
      omega
    · intro app f hf
      by_cases happ : app = msg.appId
      · subst happ
        rw [view_report h hf hrem]
        refine (h.apps _ f hf).report hin (hreportable hrep) ?_
        intro hnone
        by_contra hfro
        exact hrem.heeded (Or.inr ⟨by simpa using hfro, hnone⟩)
      · have hres : hasResult planner app = hasResult s.planner app := by
          funext id
          rw [hasResult_of_recorded hrem.appResults, if_neg fun hall => happ hall.1]
        have hview := @view_congr app { s with planner }
          { s with
            planner
            reports := update s.reports msg.appId (s.reports msg.appId ++ [msg]) } rfl rfl (by simp [happ])
        rw [hview, view_same h hf (hrewritten.elsewhere happ) hrem.sent (dispatched_notifications _ _ _) hres]
        exact h.apps app f hf

theorem Sound.step (h : s.Sound) {action : FreezeAction} (hok : ResumesOnce s action) : (action.step s).Sound := by
  cases action with
  | registerHost host overwrite now ts =>
    have hsame : SameBooks { s.planner with hostMap := (registerHost host overwrite now ts s.planner).2.hostMap }
          (registerHost host overwrite now ts s.planner).2 ∧
        (registerHost host overwrite now ts s.planner).2.governance = s.planner.governance ∧
        (registerHost host overwrite now ts s.planner).2.sent = s.planner.sent ∧
        (registerHost host overwrite now ts s.planner).2.appResults = s.planner.appResults := by
      unfold registerHost
      split_ifs <;> exact ⟨⟨rfl, rfl, rfl, rfl⟩, rfl, rfl, rfl⟩
    obtain ⟨hb, hgov, hsent, happ⟩ := hsame
    refine h.of_books (registerHost_accounted h.accounted ts hok) (h.governed.of_governance hgov) (fun app => ?_)
      hsent (hasResult_congr happ)
    exact ⟨by rw [hb.inFlightReqs], by rw [hb.evicted], by rw [hb.preloaded]⟩
  | removeHost host =>
    obtain ⟨ha, hg⟩ := @churn_step s.planner (.removeHost host) ⟨h.accounted, h.governed⟩ hok
    exact h.of_books ha hg (fun app => ⟨rfl, rfl, rfl⟩) rfl fun _ => rfl
  | getAvailableHosts now =>
    obtain ⟨ha, hg⟩ := @churn_step s.planner (.getAvailableHosts now) ⟨h.accounted, h.governed⟩ hok
    exact h.of_books ha hg (fun app => ⟨rfl, rfl, rfl⟩) rfl fun _ => rfl
  | setNextEvictedVm vmIps =>
    obtain ⟨ha, hg⟩ := @keepsBooks_step s.planner (.setNextEvictedVm vmIps) ⟨h.accounted, h.governed⟩ trivial
    have hsame : (setNextEvictedVm vmIps s.planner).2.sent = s.planner.sent ∧
        (setNextEvictedVm vmIps s.planner).2.appResults = s.planner.appResults := by
      unfold setNextEvictedVm
      split_ifs <;> exact ⟨rfl, rfl⟩
    exact h.of_books ha hg (fun app => (setNextEvictedVm_books vmIps s.planner).entries app) hsame.1
      (hasResult_congr hsame.2)
  | callBatch env req => exact h.call hok
  | setMessageResult msg => exact h.result hok
  | getBatchResults env appId => exact h.poll env appId

theorem sound_start (hs : FreshStart planner) (hev : planner.evictedRequests = ∅) : Sound { planner } where
  accounted := hs.accounted
  governed := hs.governed
  keyed := ⟨by simp [hs.inFlightReqs], by simp [hev], by simp [hs.preloaded]⟩
  frozen app h := by simp [hev] at h
  sent app f h := by simp at h
  apps app f h := by simp at h

end Steps

end FreezeSystem

end Faabric
