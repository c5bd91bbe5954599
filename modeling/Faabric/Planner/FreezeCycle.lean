import Faabric.Planner.Resuming

/-! Every message that reported frozen runs again once, as it reported, and no message runs again after its
result. -/

namespace Faabric

open Std (ExtTreeMap)

variable {m : Message}

theorem preloadedPlacements_ok {ps : List Placement} {ms : List Message}
    (h : ∀ m ∈ ms, m.groupIdx ∈ ps.map Placement.groupIdx) : ∃ picks, preloadedPlacements ps ms = .ok picks := by
  induction ms with
  | nil => exact ⟨[], rfl⟩
  | cons m ms ih =>
    obtain ⟨picks, hpicks⟩ := ih fun m' hm' => h m' (List.mem_cons_of_mem m hm')
    have hfound : (ps.find? fun p => p.groupIdx == m.groupIdx).isSome := by
      simpa using h m List.mem_cons_self
    obtain ⟨p, hp⟩ := Option.isSome_iff_exists.mp hfound
    refine ⟨{ p with messageId := m.id } :: picks, ?_⟩
    rw [preloadedPlacements, hp, hpicks]
    rfl

namespace AppView

variable {v : AppView} {ids : List Int}

theorem Ok.flight_none (h : v.Ok ids) (hnil : v.flightIds = []) : v.flight = none := by
  cases hfl : v.flight with
  | none => rfl
  | some fl =>
    have hempty : fl = [] := by simpa [flightIds, hfl] using hnil
    exact absurd (hempty ▸ hfl) h.manned

theorem Ok.flying (h : v.Ok ids) {id : Int} (hid : id ∈ v.flightIds) :
    id ∈ ids ∨ id ∈ v.restarted.map Message.id := by
  rcases h.phase with ⟨ber, hf⟩ | ⟨ber, hr⟩ | hr
  · exact Or.inl (hf.pending.subset (List.mem_append_left _ hid))
  · have hfl : v.flightIds = ids.take 1 := by simp [flightIds, hr.flight]
    rw [hfl] at hid
    exact Or.inl (List.mem_of_mem_take hid)
  · exact Or.inr (hr.flying id hid)

theorem Ok.over (h : v.Ok ids) (hids : ∀ id ∈ ids, v.finished id = true)
    (hnew : ∀ m ∈ v.restarted, v.finished m.id = true) :
    v.flight = none ∧ ∀ ber ∈ v.evicted, isFrozenBer ber = false := by
  have hnone : v.flight = none := by
    apply h.flight_none
    rw [List.eq_nil_iff_forall_not_mem]
    intro id hid
    have hun := h.flight_unfinished id hid
    rcases h.flying hid with hmem | hmem
    · rw [hids id hmem] at hun
      cases hun
    · obtain ⟨m, hm, rfl⟩ := List.mem_map.mp hmem
      rw [hnew m hm] at hun
      cases hun
  refine ⟨hnone, fun ber hev => ?_⟩
  have hf := h.freezing hev hnone
  by_contra hber
  obtain ⟨id, hid⟩ := List.exists_mem_of_ne_nil ids h.nonempty
  have hun := hf.unfinished (hf.all_frozen (by simpa using hber)) id hid
  rw [hids id hid] at hun
  cases hun

theorem Ok.restarted_le_one (h : v.Ok ids) {id : Int} (hid : id ∈ ids) :
    (v.restarted.map Message.id).count id ≤ 1 := by
  rcases h.phase with ⟨ber, hf⟩ | ⟨ber, hr⟩ | hr
  · simp [hf.waiting]
  · rw [hr.first]
    exact List.nodup_iff_count_le_one.mp (h.nodup.sublist (List.take_sublist 1 ids)) id
  · exact (hr.once id hid).le

theorem Ok.frozen_mem (h : v.Ok ids) {r : Message} (hr : r ∈ v.reports) (hfro : isFrozenResult r = true) :
    r.id ∈ ids := by
  rcases h.phase with ⟨ber, hf⟩ | ⟨ber, hs⟩ | hs
  · exact hf.pending.subset (List.mem_append_right _ (List.mem_map_of_mem hr))
  · exact hs.reported.subset (List.mem_map_of_mem hr)
  · exact hs.reported.subset (List.mem_map_of_mem (List.mem_filter.mpr ⟨hr, hfro⟩))

theorem Ok.saved (h : v.Ok ids) {r : Message} (hr : r ∈ v.reports) (hfro : isFrozenResult r = true)
    (hm : m ∈ v.restarted) (hid : m.id = r.id) : m.saved = r.saved := by
  rcases h.phase with ⟨ber, hf⟩ | ⟨ber, hs⟩ | hs
  · rw [hf.waiting] at hm
    cases hm
  · exact hs.saved r hr m (List.mem_append_right _ hm) hid
  · exact hs.saved r hr hfro m hm hid

theorem Ok.frozen (h : v.Ok ids) (hall : ∀ id ∈ ids, ∃ r ∈ v.reports, isFrozenResult r = true ∧ r.id = id)
    (hwait : v.restarted = []) : v.flight = none ∧ ∃ ber, v.Freezing ids ber ∧ isFrozenBer ber = true := by
  have hfreezing : ∃ ber, v.Freezing ids ber := by
    rcases h.phase with hf | ⟨ber, hs⟩ | hs
    · exact hf
    · exact absurd hwait hs.restarted_ne_nil
    · exact absurd hwait (hs.restarted_ne_nil h.nonempty)
  obtain ⟨ber, hf⟩ := hfreezing
  have hnd := hf.pending.nodup_iff.mpr h.nodup
  have hnone : v.flight = none := by
    apply h.flight_none
    rw [List.eq_nil_iff_forall_not_mem]
    intro id hid
    obtain ⟨r, hr, -, hrid⟩ := hall id (hf.pending.subset (List.mem_append_left _ hid))
    exact (List.nodup_append.mp hnd).2.2 _ hid _ (List.mem_map_of_mem hr) hrid.symm
  obtain ⟨id, hid⟩ := List.exists_mem_of_ne_nil ids h.nonempty
  obtain ⟨r, hr, hfro, -⟩ := hall id hid
  have hfrozen : ∀ r' ∈ v.reports, isFrozenResult r' = true := by
    intro r' hr'
    rw [hf.alike r' hr' r hr, hfro]
  exact ⟨hnone, ber, hf, isFrozenBer_of_frozen hf hnone hfrozen⟩

end AppView

namespace FreezeSystem

/-- What is asked of the last freeze of an app. -/
structure LosesNothing (s : FreezeSystem) (app : Int) (f : FreezePoint) : Prop where
  once : ∀ r ∈ s.reports app, isFrozenResult r = true → ((s.restarted app).map Message.id).count r.id ≤ 1
  asReported : ∀ r ∈ s.reports app, isFrozenResult r = true → ∀ m ∈ s.restarted app, m.id = r.id →
    m.funcPtr = r.funcPtr ∧ m.inputData = r.inputData ∧ m.snapshotKey = r.snapshotKey
  all : s.planner.evictedRequests[app]? = none →
    ∀ id ∈ f.ids, ((s.restarted app).map Message.id).count id = 1
  restarts : (∀ id ∈ f.ids, ∃ r ∈ s.reports app, isFrozenResult r = true ∧ r.id = id) → s.restarted app = [] →
    ∃ ber, s.planner.evictedRequests[app]? = some ber ∧ ∀ env d,
      scheduledDecision env ber s.planner = some d →
        (((FreezeAction.getBatchResults env app).step s).restarted app |>.map Message.id).Perm
          (if ber.isMpi then f.ids.take 1 else f.ids)
  completes : ∀ env req, req.appId = app → s.planner.evictedRequests[app]?.isSome → req.type ≠ .migration →
    ResumesOnce s (.callBatch env req) → (schedulerOf s.planner).isSome →
      (((FreezeAction.callBatch env req).step s).restarted app |>.map Message.id).Perm f.ids ∧
        ((FreezeAction.callBatch env req).step s).planner.evictedRequests[app]? = none
  unfinished : ∀ action, ResumesOnce s action →
    ∀ m ∈ dispatched app ((action.step s).planner.sent.drop s.planner.sent.length),
      hasResult s.planner app m.id = false
  finished : (∀ id ∈ f.ids, hasResult s.planner app id = true) →
    (∀ m ∈ s.restarted app, hasResult s.planner app m.id = true) →
    ∃ status : BatchExecuteRequestStatus, status.finished = true ∧
      (∀ id, hasResult s.planner app id = true →
        ∃ m ∈ status.messageResults, lookUpResult s.planner app id = some m) ∧
      ∀ env, getBatchResults env app s.planner = (.ok (some status), s.planner)

variable {s : FreezeSystem} {app : Int} {f : FreezePoint}

theorem Sound.restarts (h : s.Sound) (hf : s.freeze app = some f)
    (hall : ∀ id ∈ f.ids, ∃ r ∈ s.reports app, isFrozenResult r = true ∧ r.id = id)
    (hwait : s.restarted app = []) :
    ∃ ber, s.planner.evictedRequests[app]? = some ber ∧ ∀ env d,
      scheduledDecision env ber s.planner = some d →
        (((FreezeAction.getBatchResults env app).step s).restarted app |>.map Message.id).Perm
          (if ber.isMpi then f.ids.take 1 else f.ids) := by
  obtain ⟨hnone, ber, hfreezing, hber⟩ := (h.apps app f hf).frozen hall hwait
  have hev : s.planner.evictedRequests[app]? = some ber := hfreezing.evicted
  have hidle : s.planner.inFlightReqs[app]? = none := by simpa [view] using hnone
  refine ⟨ber, hev, fun env d hd => ?_⟩
  obtain rfl := h.keyed.evicted app ber hev
  obtain ⟨full, d', -, hst⟩ := callBatch_started h.accounted h.governed.evictionsOk hidle
    ((h.requestOk hev hidle).starts hidle) hd
  have hnew := hst.dispatched
  have hsent := hst.sent.trans (List.append_assoc _ _ _)
  rw [hsent, List.drop_left] at hnew
  have hids := AppView.map_id_of_origin ((hnew.map Message.origin).trans (List.Perm.of_eq (startedRequest_frozen env hev)))
  have hfirst : (firstStep ber).map Message.id = if ber.isMpi then f.ids.take 1 else f.ids := by
    rw [← hfreezing.copied, firstStep]
    split_ifs
    · rw [BatchExecuteRequest.messageIds, List.map_take]
    · rfl
  rw [hfirst] at hids
  rw [FreezeAction.step, getBatchResults_frozen env hev hber hidle, restarted_planner h hf hsent, hwait]
  exact hids

theorem Sound.completes (h : s.Sound) (hf : s.freeze app = some f) {env : CallEnv} {req : BatchExecuteRequest}
    (happ : req.appId = app) (hcopy : s.planner.evictedRequests[app]?.isSome) (htype : req.type ≠ .migration)
    (hok : ResumesOnce s (.callBatch env req)) (hmode : (schedulerOf s.planner).isSome) :
    (((FreezeAction.callBatch env req).step s).restarted app |>.map Message.id).Perm f.ids ∧
      ((FreezeAction.callBatch env req).step s).planner.evictedRequests[app]? = none := by
  subst happ
  obtain ⟨hreq, hgid, hturn, -⟩ := hok
  obtain ⟨hflying, hmay⟩ := hturn (by rw [hf]; rfl)
  obtain ⟨old, hrun⟩ := Option.isSome_iff_exists.mp hflying
  obtain ⟨ber, hev⟩ := Option.isSome_iff_exists.mp hcopy
  have hcase := hmay htype
  rw [hev] at hcase
  obtain ⟨hstarted, hmpi, hrest, htakes⟩ := hcase
  have hresuming := (h.apps _ f hf).resuming hev hstarted hmpi hrest.more
  have hpre := hresuming.preloaded
  simp only [view, Option.map_eq_some_iff] at hpre
  obtain ⟨preloaded, hload, hgroups⟩ := hpre
  obtain ⟨picks, hpicks⟩ := @preloadedPlacements_ok preloaded.placements req.messages (by
    intro m hm
    have hmem : m.groupIdx ∈ (ber.messages.drop 1).map Message.groupIdx := hrest.2.2.2 ▸ List.mem_map_of_mem hm
    rw [SchedulingDecision.groupIdxs] at hgroups
    rw [hgroups]
    rw [List.map_drop] at hmem
    exact List.mem_of_mem_drop hmem)
  obtain ⟨added, d, hd, hgrown⟩ := @callBatch_grown_preload env req s.planner old preloaded picks h.accounted hmode
    hrun htype hrest.2.2.1 hload (hreq.grows hflying htype preloaded hload) hpicks htakes
  have hnot : (callBatch env req s.planner).1 ≠ .ok MUST_FREEZE_DECISION := by
    rw [hd]
    intro heq
    apply hgid
    rw [← Except.ok.inj heq]
    exact hgrown.groupId.symm
  have hsent := hgrown.sent.trans (List.append_assoc _ _ _)
  have hnew := hgrown.dispatched fun d hd => h.keyed.preloaded _ d hd
  rw [hsent, List.drop_left] at hnew
  have hstep : (FreezeAction.callBatch env req).step s = { s with planner := (callBatch env req s.planner).2 } := by
    simp only [FreezeAction.step, FreezeSystem.call, if_neg hnot]
  rw [hstep, restarted_planner h hf hsent]
  refine ⟨hresuming.restarted_perm (grownRequest_origin env hev hrest hresuming.ranks) hnew, ?_⟩
  rw [hgrown.evicted, if_pos hrest.2.1]
  simp

theorem Sound.dispatched_unfinished {planner : PlannerState} {env : CallEnv}
    {req : BatchExecuteRequest} {r : Except PlannerError SchedulingDecision} (h : s.Sound)
    (hf : s.freeze app = some f) (heff : CallEffect env req s.planner r planner)
    (hres : hasResult planner app = hasResult s.planner app) (hnext : Sound { s with planner })
    (hm : m ∈ dispatched app (planner.sent.drop s.planner.sent.length))
    : hasResult s.planner app m.id = false := by
  by_cases happ : app = req.appId
  · subst happ
    have hfly := heff.dispatched_inFlight h.keyed hm
    rw [← hres]
    exact (hnext.apps _ f hf).flight_unfinished m.id hfly
  · obtain ⟨new, hsent, hother⟩ := heff.sent_eq (fun d hd => h.keyed.preloaded _ d hd)
    rw [hsent, List.drop_left, hother app happ] at hm
    cases hm

theorem Sound.unfinished (h : s.Sound) (hf : s.freeze app = some f) {action : FreezeAction}
    (hok : ResumesOnce s action)
    (hm : m ∈ dispatched app ((action.step s).planner.sent.drop s.planner.sent.length)) :
    hasResult s.planner app m.id = false := by
  have hquiet {new : List Outgoing} (hsent : (action.step s).planner.sent = s.planner.sent ++ new)
      (hnew : dispatched app new = []) : hasResult s.planner app m.id = false := by
    rw [hsent, List.drop_left, hnew] at hm
    cases hm
  have hnext := h.step hok
  cases action with
  | registerHost host overwrite now ts =>
    apply @hquiet [] _ rfl
    simp only [FreezeAction.step, registerHost, List.append_nil]
    split_ifs <;> rfl
  | removeHost host => exact hquiet (List.append_nil _).symm rfl
  | getAvailableHosts now => exact hquiet (List.append_nil _).symm rfl
  | setNextEvictedVm vmIps =>
    apply @hquiet [] _ rfl
    simp only [FreezeAction.step, setNextEvictedVm, List.append_nil]
    split_ifs <;> rfl
  | callBatch env req =>
    have heff := callBatch_effect env h.accounted ⟨hok.1, h.governed.evictionsOk⟩
    have hres := hasResult_congr (callBatch_results env req s.planner).1 app
    simp only [FreezeAction.step, FreezeSystem.call] at hquiet hnext hm
    split_ifs at hquiet hnext hm with hfreeze
    · rw [hfreeze] at heff
      obtain ⟨old, -, hsent, -⟩ := heff.froze hok.2.1
      exact hquiet (hsent.trans (List.append_nil _).symm) rfl
    · exact h.dispatched_unfinished hf heff hres hnext hm
  | setMessageResult msg =>
    have heff := setMessageResult_effect h.accounted hok.1
    simp only [FreezeAction.step, FreezeSystem.result] at hquiet
    generalize (setMessageResult msg s.planner).1 = r at heff
    generalize (setMessageResult msg s.planner).2 = planner at heff hquiet
    cases heff with
    | ignored hsame _ => exact hquiet (by rw [hsame, List.append_nil]) rfl
    | repeated _ _ _ _ hsent => exact hquiet hsent (dispatched_notifications _ _ _)
    | removed hrem => exact hquiet hrem.sent (dispatched_notifications _ _ _)
  | getBatchResults env appId =>
    simp only [FreezeAction.step] at hquiet hnext hm
    rcases getBatchResults_planner env appId s.planner with hsame | ⟨ber, hev, -, hnone, hcall⟩
    · exact hquiet (by rw [hsame, List.append_nil]) rfl
    · obtain rfl := h.keyed.evicted appId ber hev
      have heff := callBatch_effect env h.accounted ⟨h.requestOk hev hnone, h.governed.evictionsOk⟩
      rw [hcall] at hm hnext
      exact h.dispatched_unfinished hf heff (hasResult_congr (callBatch_results env ber s.planner).1 app) hnext hm

theorem Sound.finished (h : s.Sound) (hf : s.freeze app = some f)
    (hids : ∀ id ∈ f.ids, hasResult s.planner app id = true)
    (hnew : ∀ m ∈ s.restarted app, hasResult s.planner app m.id = true) :
    ∃ status : BatchExecuteRequestStatus, status.finished = true ∧
      (∀ id, hasResult s.planner app id = true →
        ∃ m ∈ status.messageResults, lookUpResult s.planner app id = some m) ∧
      ∀ env, getBatchResults env app s.planner = (.ok (some status), s.planner) := by
  have hok := h.apps app f hf
  obtain ⟨hnone, hcopy⟩ := hok.over hids hnew
  have hidle : s.planner.inFlightReqs[app]? = none := by simpa [view] using hnone
  obtain ⟨id, hid⟩ := List.exists_mem_of_ne_nil f.ids hok.nonempty
  have hsome : s.planner.appResults[app]?.isSome := by
    have hres := hids id hid
    unfold hasResult at hres
    cases happ : s.planner.appResults[app]? with
    | none => simp [happ] at hres
    | some results => rfl
  obtain ⟨results, happ⟩ := Option.isSome_iff_exists.mp hsome
  have hpoll : pollBatch app s.planner =
      .status { appId := app, finished := true, messageResults := results.toList.map Prod.snd } := by
    have hstatus : pollStatus app s.planner =
        .status { appId := app, finished := true, messageResults := results.toList.map Prod.snd } := by
      simp [pollStatus, happ, ExtTreeMap.contains_eq_isSome_getElem?, hidle]
    unfold pollBatch
    cases hev : s.planner.evictedRequests[app]? with
    | none => exact hstatus
    | some ber => simpa [hcopy ber hev] using hstatus
  refine ⟨_, rfl, fun id hres => ?_, fun env => by rw [getBatchResults, hpoll]⟩
  simp only [hasResult, happ, ExtTreeMap.contains_eq_isSome_getElem?] at hres
  obtain ⟨m, hm⟩ := Option.isSome_iff_exists.mp hres
  refine ⟨m, List.mem_map.mpr ⟨(id, m), ?_, rfl⟩, by simpa [lookUpResult, happ] using hm⟩
  rw [ExtTreeMap.mem_toList_iff_getElem?_eq_some]
  exact hm

theorem Sound.losesNothing (h : s.Sound) (hf : s.freeze app = some f) : s.LosesNothing app f := by
  have hok := h.apps app f hf
  refine ⟨?_, ?_, ?_, h.restarts hf, fun env req => h.completes hf, fun action ha m => h.unfinished hf ha,
    h.finished hf⟩
  · intro r hr hfro
    exact hok.restarted_le_one (hok.frozen_mem hr hfro)
  · intro r hr hfro m hm hid
    simpa [Message.saved] using hok.saved hr hfro hm hid
  · intro hnone
    exact (hok.resumed hnone).once

end FreezeSystem

/-- In every run whose freezes are restarted once, from the copies made for them, no freeze loses a message or
runs one twice. -/
theorem freezing_loses_nothing {planner : PlannerState} {actions : List FreezeAction} (hs : FreshStart planner)
    (hev : planner.evictedRequests = ∅)
    (hok : GuardedRun.Meets FreezeAction.step ResumesOnce { planner } actions) :
    ∀ app f, (GuardedRun.run FreezeAction.step { planner } actions).freeze app = some f →
      (GuardedRun.run FreezeAction.step { planner } actions).LosesNothing app f := by
  have h := hok.invariant (fun s action hi ho => FreezeSystem.Sound.step hi ho) (FreezeSystem.sound_start hs hev)
  exact fun app f hf => h.losesNothing hf

def reportsFrom (messages : List Message) (returnValue : Int) : List FreezeAction :=
  messages.map fun m => .setMessageResult { m with returnValue, executedHost := "A" }

def freezeOnSpot (appId : Int) : List FreezeAction :=
  [.setNextEvictedVm {"A"}, .callBatch {} { appId, type := .migration }]

def worldFreezesOnce : List FreezeAction :=
  [.callBatch {} (requestFor 1 [mpiRank 1 2 0]),
   .callBatch { newGroupId := 2 } (requestFor 1 [mpiRank 1 2 1])] ++
  freezeOnSpot 1 ++ reportsFrom [mpiRank 1 2 0, mpiRank 1 2 1] FROZEN_FUNCTION_RETURN_VALUE ++
  [.setNextEvictedVm ∅, .getBatchResults { newGroupId := 3 } 1,
   .callBatch { newGroupId := 4 } (requestFor 1 [mpiRank 1 2 1])] ++
  reportsFrom [mpiRank 1 2 0, mpiRank 1 2 1] 0

theorem freezing_loses_nothing_world :
    (GuardedRun.run FreezeAction.step { planner := plannerWith "spot" [hostWith "A" 2] } worldFreezesOnce).freeze 1 =
        some ⟨4, [10, 11]⟩ ∧
      (GuardedRun.run FreezeAction.step { planner := plannerWith "spot" [hostWith "A" 2] }
        worldFreezesOnce).LosesNothing 1 ⟨4, [10, 11]⟩ :=
  have hf : (GuardedRun.run FreezeAction.step { planner := plannerWith "spot" [hostWith "A" 2] }
      worldFreezesOnce).freeze 1 = some ⟨4, [10, 11]⟩ := by decide +kernel
  ⟨hf, freezing_loses_nothing (plannerWith_fresh _ (by decide)) (by decide) (by decide +kernel) 1 _ hf⟩

def freezesHalf : List FreezeAction :=
  [.callBatch {} (requestFor 1 [plainMessage 1 7, plainMessage 1 8])] ++ freezeOnSpot 1 ++
    reportsFrom [plainMessage 1 7] 0 ++ reportsFrom [plainMessage 1 8] FROZEN_FUNCTION_RETURN_VALUE ++
    [.setNextEvictedVm ∅]

/-- A plain function runs again after it has finished, since the copy of its request stays. And a function that
freezes beside one that finishes is never restarted: every poll reports the app finished. -/
theorem frozen_function_runs_twice :
    ((GuardedRun.run FreezeAction.step { planner := plannerWith "spot" [hostWith "A" 1] }
      ([.callBatch {} (requestFor 1 [plainMessage 1 7])] ++ freezeOnSpot 1 ++
        reportsFrom [plainMessage 1 7] FROZEN_FUNCTION_RETURN_VALUE ++
        [.setNextEvictedVm ∅, .getBatchResults { newGroupId := 2 } 1] ++ reportsFrom [plainMessage 1 7] 0 ++
        [.getBatchResults { newGroupId := 3 } 1])).restarted 1).map Message.id = [7, 7] ∧
    ∀ env, getBatchResults env 1
        (GuardedRun.run FreezeAction.step { planner := plannerWith "spot" [hostWith "A" 2] } freezesHalf).planner =
      (.ok (some { appId := 1, finished := true, messageResults := [{ plainMessage 1 7 with executedHost := "A" }] }),
        (GuardedRun.run FreezeAction.step { planner := plannerWith "spot" [hostWith "A" 2] } freezesHalf).planner) := by
  refine ⟨by decide +kernel, fun env => ?_⟩
  have hpoll : pollBatch 1
      (GuardedRun.run FreezeAction.step { planner := plannerWith "spot" [hostWith "A" 2] } freezesHalf).planner =
      .status { appId := 1, finished := true,
                messageResults := [{ plainMessage 1 7 with executedHost := "A" }] } := by decide +kernel
  rw [getBatchResults, hpoll]

end Faabric
