import Faabric.Planner.OpenMpThreads
import Faabric.Planner.SlotConservation

/-! The slots in use and the idle threads of the OpenMP apps fit on their hosts, over whole runs
of `callBatch` and `setMessageResult`. -/

namespace Faabric

open Std (ExtTreeMap)
open MapTotal

/-! The reservations after one app has changed. -/

section Reserved

variable {s s' : PlannerState} {app : Int}

theorem reservedByOthers_eq_erase (s : PlannerState) (app : Int) (ip : String) :
    reservedByOthers s app ip = total (idleOn s ip) (s.inFlightReqs.erase app) := by
  have hrest : total (fun a pair => if a = app then 0 else idleOn s ip a pair) (s.inFlightReqs.erase app) =
      total (idleOn s ip) (s.inFlightReqs.erase app) := by
    apply total_congr
    intro a pair hp
    rw [getElem?_erase_ite] at hp
    split_ifs at hp with he
    rw [if_neg (Ne.symm he)]
  unfold reservedByOthers
  cases hrun : s.inFlightReqs[app]? with
  | none =>
    rw [erase_of_getElem?_none hrun] at hrest ⊢
    exact hrest
  | some old =>
    rw [total_of_getElem? _ hrun, if_pos rfl, zero_add]
    exact hrest

theorem reservedOn_running {pair : InFlightPair} (h : s.inFlightReqs[app]? = some pair) (ip : String) :
    reservedOn s ip = idleOn s ip app pair + reservedByOthers s app ip := by
  rw [reservedByOthers_eq_erase]
  exact total_of_getElem? _ h

theorem reservedOn_stopped (h : s.inFlightReqs[app]? = none) (ip : String) :
    reservedOn s ip = reservedByOthers s app ip := by
  rw [reservedByOthers_eq_erase, erase_of_getElem?_none h]
  rfl

theorem Rehoused.reservedByOthers_eq {subType : Int} {hosts : List String} (hr : Rehoused app subType hosts s s')
    (ip : String) : reservedByOthers s' app ip = reservedByOthers s app ip := by
  have herase : s'.inFlightReqs.erase app = s.inFlightReqs.erase app := by
    apply ExtTreeMap.ext_getElem?
    intro a
    rw [getElem?_erase_ite, getElem?_erase_ite]
    split_ifs with he
    · rfl
    · exact (hr.others a (Ne.symm he)).1
  rw [reservedByOthers_eq_erase, reservedByOthers_eq_erase, herase]
  apply total_congr
  intro a pair hp
  rw [getElem?_erase_ite] at hp
  split_ifs at hp with he
  unfold idleOn idleThreads preclaimedThreads
  rw [(hr.others a (Ne.symm he)).2]

theorem reservedOn_congr (hi : s'.inFlightReqs = s.inFlightReqs)
    (h : ∀ a, preclaimedThreads s' a = preclaimedThreads s a) (ip : String) :
    reservedOn s' ip = reservedOn s ip := by
  unfold reservedOn
  rw [hi]
  apply total_congr
  intro a pair _
  unfold idleOn idleThreads
  rw [h]

end Reserved

theorem hostCount_eq_count (ip : String) (ps : List Placement) :
    hostCount ip ps = (ps.map Placement.host).count ip := by
  rw [hostCount, List.count, List.countP_map]
  apply List.countP_congr
  simp

/-! The threads that messages ask for. -/

def AskFor (threads : Int) (messages : List Message) : Prop := ∀ m ∈ messages, m.ompNumThreads = threads

section AskFor

variable {threads : Int} {req : BatchExecuteRequest}

theorem AskFor.updateGroup (h : AskFor threads req.messages) (g : Int) :
    AskFor threads (req.updateBatchExecGroupId g).messages := by
  intro m hm
  obtain ⟨m', hm', rfl⟩ := List.mem_map.mp hm
  exact h m' hm'

theorem AskFor.unFrozen (h : AskFor threads req.messages) (t : DecisionType)
    (evicted : Option BatchExecuteRequest) : AskFor threads (unFrozenRequest t evicted req).messages := by
  unfold unFrozenRequest
  split
  · exact h
  · split_ifs
    · intro m hm
      exact h m (List.mem_of_mem_take hm)
    · intro m hm
      obtain ⟨m', hm', rfl⟩ := List.mem_map.mp hm
      split
      · exact h m' hm'
      · exact h m' hm'
    · exact h

theorem AskFor.requested (h : AskFor threads req.messages) (hne : req.messages ≠ []) :
    requestedThreads req = threads := by
  obtain ⟨m, ms, hm⟩ := List.exists_cons_of_ne_nil hne
  simp only [requestedThreads, hm, List.head?_cons, Option.map_some, Option.getD_some]
  exact h m (by simp [hm])

variable {s : PlannerState}

theorem AskFor.prepared {env : CallEnv} {req' : BatchExecuteRequest} {old : InFlightPair}
    (hrun : s.inFlightReqs[req.appId]? = some old) (h : AskFor threads req.messages)
    (hold : AskFor threads old.1.messages) (hprep : prepareRequest env .scaleChange req s = .ok req') :
    AskFor threads req'.messages := by
  simp only [prepareRequest] at hprep
  split_ifs at hprep
  · unfold scaleUpElastically at hprep
    rw [hrun] at hprep
    dsimp only at hprep
    split at hprep
    · cases hprep
    · split at hprep
      · cases hprep
      · split_ifs at hprep
        · obtain rfl := Except.ok.inj hprep
          exact h
        · split at hprep
          · cases hprep
          · rename_i template htemplate
            obtain rfl := Except.ok.inj hprep
            have hcopy : template.ompNumThreads = threads := by
              unfold elasticTemplate at htemplate
              split at htemplate
              · rename_i last hlast
                obtain rfl := Option.some.inj htemplate
                exact h last (List.mem_of_getLast? hlast)
              · obtain ⟨m, hm, rfl⟩ := Option.map_eq_some_iff.mp htemplate
                exact hold m (List.mem_of_head? hm)
            intro m hm
            rcases List.mem_append.mp hm with hm | hm
            · exact h m hm
            · obtain ⟨i, _, rfl⟩ := List.mem_map.mp hm
              exact hcopy
  · obtain rfl := Except.ok.inj hprep
    exact h

end AskFor

variable {req : BatchExecuteRequest} {s : PlannerState}

/-! The calls that leave the idle threads their room. -/

def threadsOf (req : BatchExecuteRequest) (s : PlannerState) : Int :=
  match s.inFlightReqs[req.appId]? with
  | none => requestedThreads req
  | some old => requestedThreads old.1

def vacatedOn (req : BatchExecuteRequest) (s : PlannerState) (ip : String) : Nat :=
  if req.type = .migration then
    ((s.inFlightReqs[req.appId]?.map fun old => old.2.hosts.count ip).getD 0)
  else 0

structure RespectsThreads (env : CallEnv) (req : BatchExecuteRequest) (s : PlannerState) : Prop where
  starts : s.inFlightReqs[req.appId]? = none → req.messages ≠ [] ∧
    (1 < requestedThreads req → req.isOmp = true ∧ req.isMpi = false)
  agrees : s.inFlightReqs[req.appId]? = none ∨ req.type ≠ .migration →
    ∀ m ∈ req.messages, m.ompNumThreads = threadsOf req s
  gathers : 1 < threadsOf req s → ∀ x ∈ placedHosts env req s,
    ∀ y ∈ placedHosts env req s ++ s.hostsOf req.appId, x = y
  room : ∀ req' ∈ (prepareRequest env (getDecisionType s.inFlightReqs req) req s).toOption,
    req'.isOmp = false ∨ req.type = .migration → ∀ ip ∈ placedHosts env req s,
      usedOn s.hostMap ip + (placedHosts env req s).count ip - vacatedOn req s ip + reservedOn s ip ≤
        slotsOn s.hostMap ip

instance (env : CallEnv) (req : BatchExecuteRequest) (s : PlannerState) : Decidable (RespectsThreads env req s) :=
  decidable_of_iff (_ ∧ _ ∧ _ ∧ _)
    ⟨fun h => ⟨h.1, h.2.1, h.2.2.1, h.2.2.2⟩, fun h => ⟨h.starts, h.agrees, h.gathers, h.room⟩⟩

def KeepsThreads (s : PlannerState) : BatchOp → Prop
  | .callBatch env req => RequestOk req s ∧ UsesUpPreload req s ∧ DispatchesUnreported env req s ∧
      RespectsThreads env req s
  | .setNextEvictedVm _ => True
  | .setMessageResult msg => ResultOk msg s

instance (s : PlannerState) : (op : BatchOp) → Decidable (KeepsThreads s op)
  | .callBatch .. => inferInstanceAs (Decidable (_ ∧ _))
  | .setNextEvictedVm _ => instDecidableTrue
  | .setMessageResult msg => inferInstanceAs (Decidable (ResultOk msg s))

/-- What holds of every app in flight: it has messages, they ask for the same threads, and an
app with more than one thread is on one host. -/
structure AppThreads (s : PlannerState) (app : Int) (pair : InFlightPair) : Prop where
  messages : pair.1.messages ≠ []
  agreed : AskFor (requestedThreads pair.1) pair.1.messages
  gathered : 1 < requestedThreads pair.1 → ∀ x ∈ s.hostsOf app, ∀ y ∈ s.hostsOf app, x = y

structure ThreadsReserved (s : PlannerState) : Prop where
  accounted : Accounted s
  governed : Governed s
  unreported : ∀ (app : Int) (pair : InFlightPair), s.inFlightReqs[app]? = some pair →
    Unreported s app pair.1.messageIds
  apps : ∀ (app : Int) (pair : InFlightPair), s.inFlightReqs[app]? = some pair → AppThreads s app pair
  fits : ∀ ip, usedOn s.hostMap ip + reservedOn s ip ≤ slotsOn s.hostMap ip

theorem ThreadsReserved.occupied (h : ThreadsReserved s) : Occupied s :=
  ⟨h.accounted.apps, fun app pair hp => (h.apps app pair hp).messages⟩

theorem unFrozenRequest_ne_nil (h : req.messages ≠ []) (t : DecisionType)
    (evicted : Option BatchExecuteRequest) : (unFrozenRequest t evicted req).messages ≠ [] := by
  unfold unFrozenRequest
  split
  · exact h
  · split_ifs
    · simpa using h
    · simpa [amendMessages] using h
    · exact h

theorem claimedMessages_threads {messages : List Message} (homp : req.isOmp = true) (hmpi : req.isMpi = false)
    (h : claimedMessages req = .ok messages) : requestedThreads req ≤ messages.length := by
  simp only [claimedMessages, homp, Bool.or_true, if_true, knownSizeRequest] at h
  split at h
  · cases h
  · rename_i m ms hm
    simp only [hmpi, Bool.false_eq_true, if_false] at h
    split_ifs at h
    · cases h
    · obtain rfl := Except.ok.inj h
      simp only [requestedThreads, hm, List.head?_cons, Option.map_some, Option.getD_some, List.length_append,
        List.length_map, List.length_range]
      omega

section Calls

variable {env : CallEnv} {req : BatchExecuteRequest} {s s' : PlannerState}

variable {old : InFlightPair}

theorem threadsOf_running (h : s.inFlightReqs[req.appId]? = some old) :
    threadsOf req s = requestedThreads old.1 := by
  simp [threadsOf, h]

theorem threadsOf_fresh (h : s.inFlightReqs[req.appId]? = none) : threadsOf req s = requestedThreads req := by
  simp [threadsOf, h]

theorem RespectsThreads.gathered (h : ThreadsReserved s) (hok : RespectsThreads env req s)
    (hr : Rehoused req.appId req.subType (placedHosts env req s) s s') (hmany : 1 < threadsOf req s) :
    ∀ x ∈ s'.hostsOf req.appId, ∀ y ∈ s'.hostsOf req.appId, x = y := by
  have hold : ∀ x ∈ s.hostsOf req.appId, ∀ y ∈ s.hostsOf req.appId, x = y := by
    cases hrun : s.inFlightReqs[req.appId]? with
    | none =>
      intro x hx
      simp [PlannerState.hostsOf, hrun, h.accounted.not_preloaded hrun] at hx
    | some old =>
      rw [threadsOf_running hrun] at hmany
      exact (h.apps _ _ hrun).gathered hmany
  intro x hx y hy
  rcases hr.own x hx with hx | hx
  · rcases hr.own y hy with hy | hy
    · exact hold x hx y hy
    · exact (hok.gathers hmany y hy x (List.mem_append_right _ hx)).symm
  · refine hok.gathers hmany x hx y (List.mem_append.mpr ?_)
    exact (hr.own y hy).symm

theorem RespectsThreads.appThreads (h : ThreadsReserved s) (hok : RespectsThreads env req s)
    (hr : Rehoused req.appId req.subType (placedHosts env req s) s s') {pair : InFlightPair}
    (hne : pair.1.messages ≠ []) (hask : AskFor (threadsOf req s) pair.1.messages) :
    AppThreads s' req.appId pair := by
  have hreq := hask.requested hne
  exact ⟨hne, hreq ▸ hask, fun hmany => hok.gathered h hr (hreq ▸ hmany)⟩

/-- A host that is given placements has room for them beside the idle threads. -/
theorem RespectsThreads.room_on {req' : BatchExecuteRequest} {placements : List Placement} {ip : String}
    (hok : RespectsThreads env req s)
    (hprep : prepareRequest env (getDecisionType s.inFlightReqs req) req s = .ok req')
    (hkind : req'.isOmp = false ∨ req.type = .migration)
    (hplaced : placements.map Placement.host = placedHosts env req s) (hsome : hostCount ip placements ≠ 0) :
    usedOn s.hostMap ip + hostCount ip placements - vacatedOn req s ip + reservedOn s ip ≤
      slotsOn s.hostMap ip := by
  rw [hostCount_eq_count, hplaced] at hsome ⊢
  exact hok.room req' (by rw [hprep]; rfl) hkind ip (List.count_pos_iff.mp (Nat.pos_of_ne_zero hsome))

theorem ThreadsReserved.apps_of {app subType : Int} {hosts : List String} (h : ThreadsReserved s)
    (hr : Rehoused app subType hosts s s')
    (hown : ∀ pair, s'.inFlightReqs[app]? = some pair → AppThreads s' app pair) :
    ∀ (a : Int) (pair : InFlightPair), s'.inFlightReqs[a]? = some pair → AppThreads s' a pair := by
  intro a pair hp
  by_cases ha : a = app
  · subst ha
    exact hown pair hp
  · rw [(hr.others a ha).1] at hp
    obtain ⟨h1, h2, h3⟩ := h.apps a pair hp
    exact ⟨h1, h2, by rw [hr.hostsOf_eq ha]; exact h3⟩

variable {full : List Placement} {d : SchedulingDecision}

theorem Started.asks (hok : RespectsThreads env req s) (h : Started env req s full d s') :
    (startedRequest env req s).messages ≠ [] ∧ AskFor (threadsOf req s) (startedRequest env req s).messages := by
  have hask : AskFor (threadsOf req s) req.messages := hok.agrees (Or.inl h.fresh)
  refine ⟨?_, (hask.unFrozen .new _).updateGroup _⟩
  have hne := unFrozenRequest_ne_nil (hok.starts h.fresh).1 .new s.evictedRequests[req.appId]?
  simpa [startedRequest, BatchExecuteRequest.updateBatchExecGroupId] using hne

theorem Started.idle (hok : RespectsThreads env req s) (h : Started env req s full d s') :
    idleThreads s' req.appId (startedRequest env req s, d) = 0 := by
  obtain ⟨hne, hask⟩ := h.asks hok
  have hreq : requestedThreads (startedRequest env req s) = requestedThreads req :=
    (hask.requested hne).trans (threadsOf_fresh h.fresh)
  have hlen := h.pairOk.length_eq
  have hpos := List.length_pos_iff.mpr hne
  dsimp only at hlen
  unfold idleThreads
  rw [hreq]
  dsimp only
  by_cases hmany : 1 < requestedThreads req
  · obtain ⟨homp, hmpi⟩ := (hok.starts h.fresh).2 hmany
    obtain ⟨messages, hc, hkeys⟩ := h.claimed
    have hall := claimedMessages_threads homp hmpi hc
    have hfull : full.length = messages.length := by simpa using congrArg List.length hkeys
    have hpre : preclaimedThreads s' req.appId = full.length - 1 := by
      unfold preclaimedThreads
      rw [h.preloaded]
      simp [homp, startedDecision]
    rw [hpre]
    omega
  · omega

theorem Started.respects (hr : ThreadsReserved s) (hok : RespectsThreads env req s)
    (h : Started env req s full d s') (hhoused : Rehoused req.appId req.subType (placedHosts env req s) s s')
    (hplaced : full.map Placement.host = placedHosts env req s) (ip : String) :
    usedOn s'.hostMap ip + reservedOn s' ip ≤ slotsOn s'.hostMap ip := by
  have hidle : idleOn s' ip req.appId (startedRequest env req s, d) = 0 := by
    unfold idleOn
    rw [h.idle hok, ite_self]
  rw [h.hosts.used, h.hosts.slots, reservedOn_running (by rw [h.inFlight]; exact ExtTreeMap.getElem?_insert_self),
    hidle, hhoused.reservedByOthers_eq, zero_add]
  have hle := reservedByOthers_le_reservedOn s req.appId ip
  have hfits := hr.fits ip
  by_cases hzero : hostCount ip full = 0
  · omega
  · by_cases homp : req.isOmp = true
    · have hf := h.fits ip
      have hheld := reservedByOthers_le_heldBack s req.appId ip
      unfold countedUsed at hf
      rw [if_pos homp] at hf
      omega
    · have hroom := hok.room_on (by rw [getDecisionType_new h.fresh]; rfl) (Or.inl (by simpa using homp)) hplaced hzero
      have hvac : vacatedOn req s ip = 0 := by simp [vacatedOn, h.fresh]
      omega

/-! Growing. -/

theorem grownPair_threads {old : InFlightPair} (ha : Occupied s) {app : Int}
    (hrun : s.inFlightReqs[app]? = some old) (messages : List Message) (added : List Placement) :
    requestedThreads (grownPair env old messages added).1 = requestedThreads old.1 ∧
      mainHostOf (grownPair env old messages added) = mainHostOf old ∧
      (grownPair env old messages added).1.messages.length = old.1.messages.length + messages.length := by
  obtain ⟨m, ms, p, ps, hm, hps⟩ := ha.first hrun
  refine ⟨?_, ?_, ?_⟩
  · simp [requestedThreads, grownPair, extendPair, BatchExecuteRequest.updateBatchExecGroupId, hm]
  · simp [mainHostOf, grownPair, extendPair, hps]
  · simp [grownPair, extendPair, BatchExecuteRequest.updateBatchExecGroupId]

variable {added : List Placement}

theorem Grown.asks {req' : BatchExecuteRequest} (hr : ThreadsReserved s) (hok : RespectsThreads env req s)
    (htype : req.type ≠ .migration) (hprep : prepareRequest env .scaleChange req s = .ok req')
    (h : Grown env req' s old added d s') :
    AskFor (threadsOf req s) (grownPair env old (grownRequest env req' s).messages added).1.messages := by
  have hrun : s.inFlightReqs[req.appId]? = some old := (prepareRequest_scale hprep).1 ▸ h.running
  have hold : AskFor (threadsOf req s) old.1.messages := threadsOf_running hrun ▸ (hr.apps _ _ hrun).agreed
  have hask : AskFor (threadsOf req s) req.messages := hok.agrees (Or.inr htype)
  have hnew := ((hask.prepared hrun hold hprep).unFrozen .scaleChange
    s.evictedRequests[req'.appId]?).updateGroup env.newGroupId
  intro m hm
  rcases List.mem_append.mp hm with hm | hm
  · exact hold.updateGroup env.newGroupId m hm
  · exact hnew m hm

theorem GrownByPreload.respects (hr : ThreadsReserved s) (htype : req.type ≠ .migration)
    (hall : UsesUpPreload req s) (hg : Grown env req s old added d s') (h : GrownByPreload env req s added d s')
    (hhoused : Rehoused req.appId req.subType (placedHosts env req s) s s') (ip : String) :
    usedOn s'.hostMap ip + reservedOn s' ip ≤ slotsOn s'.hostMap ip := by
  obtain ⟨preloaded, picks, hload, hpicks, hd⟩ := h.loaded
  have hperm := (hall htype _ hload (by rw [hpicks]; rfl)).1
  have hlen : (preloaded.placements.drop 1).length = req.messages.length := by
    simpa using hperm.length_eq.symm
  obtain ⟨h1, h2, h3⟩ := @grownPair_threads env s old hr.occupied _ hg.running
    (grownRequest env req s).messages added
  have hidle : idleOn s' ip req.appId (grownPair env old (grownRequest env req s).messages added) =
      idleOn s ip req.appId old := by
    have hbefore : preclaimedThreads s req.appId = req.messages.length := by
      unfold preclaimedThreads
      rw [hload, Option.map_some, Option.getD_some, hlen]
    have hafter : preclaimedThreads s' req.appId = 0 := by
      unfold preclaimedThreads
      rw [h.preloaded]
      simp
    unfold idleOn idleThreads
    rw [h1, h2, h3, hbefore, hafter, grownRequest_length]
    push_cast
    congr 2
    omega
  rw [reservedOn_running (by rw [hg.inFlight]; exact ExtTreeMap.getElem?_insert_self), hidle,
    hhoused.reservedByOthers_eq, ← reservedOn_running hg.running, h.hosts]
  exact hr.fits ip

/-- Threads that are forked beyond those claimed in advance come out of the app's own idle
threads, or find room beside those of the others. -/
theorem GrownByClaim.respects {req' : BatchExecuteRequest} (hr : ThreadsReserved s)
    (hok : RespectsThreads env req s) (htype : req.type ≠ .migration)
    (hprep : prepareRequest env .scaleChange req s = .ok req') (hg : Grown env req' s old added d s')
    (h : GrownByClaim env req' s added d s')
    (hhoused : Rehoused req'.appId req.subType (placedHosts env req s) s s')
    (hplaced : d.hosts = placedHosts env req s) (ip : String) :
    usedOn s'.hostMap ip + reservedOn s' ip ≤ slotsOn s'.hostMap ip := by
  obtain ⟨h1, h2, h3⟩ := @grownPair_threads env s old hr.occupied _ hg.running
    (grownRequest env req' s).messages added
  have hlen : (grownRequest env req' s).messages.length = added.length := by
    simpa using (congrArg List.length hg.keys).symm
  rw [h.hosts.used, h.hosts.slots, reservedOn_running (by rw [hg.inFlight]; exact ExtTreeMap.getElem?_insert_self),
    hhoused.reservedByOthers_eq]
  have hbefore : preclaimedThreads s req'.appId = 0 := by
    unfold preclaimedThreads
    rw [h.unloaded]
    rfl
  have hafter : preclaimedThreads s' req'.appId = 0 := by
    unfold preclaimedThreads
    rw [h.preloaded, h.unloaded]
    rfl
  have hcount : hostCount ip added ≤ added.length := List.countP_le_length
  have hfits := hr.fits ip
  rw [reservedOn_running hg.running] at hfits
  -- the app's idle threads shrink by the threads it forks
  have hidle : idleOn s' ip req'.appId (grownPair env old (grownRequest env req' s).messages added) = 0 ∨
      idleOn s' ip req'.appId (grownPair env old (grownRequest env req' s).messages added) +
        added.length ≤ idleOn s ip req'.appId old := by
    unfold idleOn idleThreads
    rw [h1, h2, h3, hlen, hbefore, hafter]
    split_ifs
    · omega
    · exact Or.inl rfl
  have hnonneg := idleOn_nonneg s ip req'.appId old
  rcases hidle with hidle | hidle
  · rw [hidle, zero_add]
    by_cases hzero : hostCount ip added = 0
    · omega
    · by_cases homp : req'.isOmp = true
      · have hf := h.fits ip
        have hheld := reservedByOthers_le_heldBack s req'.appId ip
        unfold countedUsed at hf
        rw [if_pos homp] at hf
        omega
      · have hrun : s.inFlightReqs[req.appId]? = some old := (prepareRequest_scale hprep).1 ▸ hg.running
        have hroom := hok.room_on (by rw [getDecisionType_running hrun, if_neg htype, hprep])
          (Or.inl (by simpa using homp)) (h.sites.trans hplaced) hzero
        have hvac : vacatedOn req s ip = 0 := by simp [vacatedOn, htype]
        rw [reservedOn_running hg.running] at hroom
        omega
  · omega

/-! Moving. -/

theorem Migrated.used_eq (h : Migrated env req s old d s') (ip : String) :
    usedOn s'.hostMap ip = usedOn s.hostMap ip + hostCount ip d.placements -
      hostCount ip old.2.placements := by
  have hlen : old.2.placements.length = d.placements.length := by
    simpa using (congrArg List.length h.keys).symm
  have hnews := hostCount_news_split hlen ip
  have holds := congrArg Multiset.card (portsOn_split hlen ip)
  simp only [Multiset.card_add, card_portsOn] at holds
  rw [h.hosts.used]
  omega

/-- A migration leaves an app with more than one thread where it is, and others find room beside
the idle threads. -/
theorem Migrated.respects (hr : ThreadsReserved s) (hok : RespectsThreads env req s)
    (htype : req.type = .migration) (h : Migrated env req s old d s')
    (hhoused : Rehoused req.appId req.subType (placedHosts env req s) s s')
    (hplaced : d.hosts = placedHosts env req s) (ip : String) :
    usedOn s'.hostMap ip + reservedOn s' ip ≤ slotsOn s'.hostMap ip := by
  obtain ⟨m, ms, p, ps, hm, hps⟩ := hr.occupied.first h.running
  have hidle : idleThreads s' req.appId (old.1.updateBatchExecGroupId env.newGroupId, d) =
      idleThreads s req.appId old := by
    unfold idleThreads preclaimedThreads
    rw [h.preloaded]
    simp [requestedThreads, BatchExecuteRequest.updateBatchExecGroupId, hm]
  have hfits := hr.fits ip
  rw [reservedOn_running (by rw [h.inFlight]; exact ExtTreeMap.getElem?_insert_self),
    hhoused.reservedByOthers_eq, h.used_eq, h.hosts.slots]
  by_cases hmany : 1 < requestedThreads old.1
  · have hthreads : 1 < threadsOf req s := by rwa [threadsOf_running h.running]
    have hfirst : p.host ∈ s.hostsOf req.appId :=
      mem_hostsOf.mpr (Or.inl ⟨old, h.running, by simp [SchedulingDecision.hosts, hps]⟩)
    have hsame : d.placements.map Placement.host = old.2.placements.map Placement.host := by
      have hnew : d.placements.map Placement.host = List.replicate d.placements.length p.host := by
        rw [List.eq_replicate_iff]
        refine ⟨by simp, ?_⟩
        intro x hx
        exact hok.gathers hthreads x (hplaced ▸ hx) p.host (List.mem_append_right _ hfirst)
      have hold : old.2.placements.map Placement.host =
          List.replicate old.2.placements.length p.host := by
        rw [List.eq_replicate_iff]
        refine ⟨by simp, ?_⟩
        intro x hx
        exact (hr.apps _ _ h.running).gathered hmany x
          (mem_hostsOf.mpr (Or.inl ⟨old, h.running, hx⟩)) p.host hfirst
      have hlen : d.placements.length = old.2.placements.length := by
        simpa using congrArg List.length h.keys
      rw [hnew, hold, hlen]
    have hmain : mainHostOf (old.1.updateBatchExecGroupId env.newGroupId, d) = mainHostOf old := by
      simp only [mainHostOf, ← List.head?_map, hsame]
    have hon : idleOn s' ip req.appId (old.1.updateBatchExecGroupId env.newGroupId, d) =
        idleOn s ip req.appId old := by
      unfold idleOn
      rw [hmain, hidle]
    rw [hon, hostCount_of_hosts hsame, ← reservedOn_running h.running]
    omega
  · have hzero : idleThreads s req.appId old = 0 := by
      have hpos : 0 < old.1.messages.length := by simp [hm]
      unfold idleThreads
      omega
    have hon : idleOn s' ip req.appId (old.1.updateBatchExecGroupId env.newGroupId, d) = 0 := by
      unfold idleOn
      rw [hidle, hzero, ite_self]
    have hle := reservedByOthers_le_reservedOn s req.appId ip
    rw [hon, zero_add]
    by_cases hnone : hostCount ip d.placements = 0
    · omega
    · have hroom := hok.room_on
        (by rw [getDecisionType_running h.running, if_pos htype, prepareRequest, h.running]) (Or.inr htype)
        hplaced hnone
      have hvac : vacatedOn req s ip = hostCount ip old.2.placements := by
        simp [vacatedOn, htype, h.running, hostCount_eq_count, SchedulingDecision.hosts]
      omega

theorem ThreadsReserved.fits_of (hr : ThreadsReserved s) (hh : s'.hostMap = s.hostMap)
    (hi : s'.inFlightReqs = s.inFlightReqs) (hp : ∀ a, preclaimedThreads s' a = preclaimedThreads s a)
    (ip : String) : usedOn s'.hostMap ip + reservedOn s' ip ≤ slotsOn s'.hostMap ip := by
  rw [reservedOn_congr hi hp, hh]
  exact hr.fits ip

theorem preclaimedThreads_congr (h : s'.preloadedSchedulingDecisions = s.preloadedSchedulingDecisions)
    (a : Int) : preclaimedThreads s' a = preclaimedThreads s a := by
  unfold preclaimedThreads
  rw [h]

theorem CallEffect.threads {r : Except PlannerError SchedulingDecision} (hr : ThreadsReserved s)
    (hreq : RequestOk req s) (hall : UsesUpPreload req s) (hok : RespectsThreads env req s)
    (hhoused : Rehoused req.appId req.subType (placedHosts env req s) s s')
    (hplaced : ∀ d, r = .ok d →
      resultHosts req (s.inFlightReqs[req.appId]?.isNone && (req.isMpi || req.isOmp)) d s' =
        placedHosts env req s)
    (h : CallEffect env req s r s') :
    (∀ (a : Int) (pair : InFlightPair), s'.inFlightReqs[a]? = some pair → AppThreads s' a pair) ∧
      ∀ ip, usedOn s'.hostMap ip + reservedOn s' ip ≤ slotsOn s'.hostMap ip := by
  have hkept : s'.inFlightReqs = s.inFlightReqs →
      ∀ (a : Int) (pair : InFlightPair), s'.inFlightReqs[a]? = some pair → AppThreads s' a pair := by
    intro hi
    refine hr.apps_of hhoused ?_
    intro pair hp
    rw [hi] at hp
    obtain ⟨h1, h2, -⟩ := hr.apps _ _ hp
    exact hok.appThreads hr hhoused h1 (threadsOf_running hp ▸ h2)
  have hrunning : ∀ {old : InFlightPair} {d : SchedulingDecision}, s.inFlightReqs[req.appId]? = some old →
      r = .ok d → d.hosts = placedHosts env req s := by
    intro old d hrun hd
    have hres := hplaced d hd
    simpa [resultHosts, hrun] using hres
  cases h with
  | refused hb _ _ =>
    exact ⟨hkept hb.inFlightReqs,
      hr.fits_of hb.hostMap hb.inFlightReqs (preclaimedThreads_congr hb.preloaded)⟩
  | frozen _ hb _ =>
    exact ⟨hkept hb.inFlightReqs,
      hr.fits_of hb.hostMap hb.inFlightReqs (preclaimedThreads_congr hb.preloaded)⟩
  | @dropped preloaded picks _ hrun htype hload hpicks hwhy hb _ =>
    refine ⟨hkept hb.inFlightReqs, hr.fits_of hb.hostMap hb.inFlightReqs ?_⟩
    intro a
    have hnil := hall.dropped htype hload hpicks (hreq.grows hrun htype _ hload) hwhy
    unfold preclaimedThreads
    rw [hb.preloaded, getElem?_erase_ite]
    split_ifs with he
    · rw [← he, hload, Option.map_some, hnil]
      rfl
    · rfl
  | @started full d _ h =>
    have hfull : full.map Placement.host = placedHosts env req s := by
      rw [← hplaced d rfl, resultHosts, h.fresh]
      simp only [Option.isNone_none, Bool.true_and]
      split_ifs with hk
      · rw [h.preloaded, if_pos hk]
        simp [startedDecision, SchedulingDecision.hosts]
      · rw [h.decision]
        simp [startedDecision, SchedulingDecision.hosts, hk]
    refine ⟨hr.apps_of hhoused ?_, h.respects hr hok hhoused hfull⟩
    intro pair hp
    rw [h.inFlight, getElem?_insert_ite, if_pos rfl] at hp
    obtain rfl := Option.some.inj hp
    exact hok.appThreads hr hhoused (h.asks hok).1 (h.asks hok).2
  | @grown req' old added d _ htype hprep hg =>
    obtain ⟨happ, _, _, hsame⟩ := prepareRequest_scale hprep
    have hrun : s.inFlightReqs[req.appId]? = some old := happ ▸ hg.running
    constructor
    · refine hr.apps_of hhoused ?_
      intro pair hp
      rw [hg.inFlight, happ, getElem?_insert_ite, if_pos rfl] at hp
      obtain rfl := Option.some.inj hp
      have hlen := (@grownPair_threads env s old hr.occupied _ hrun (grownRequest env req' s).messages added).2.2
      have hpos := List.length_pos_iff.mpr (hr.apps _ _ hrun).messages
      exact hok.appThreads hr hhoused (List.length_pos_iff.mp (by omega)) (hg.asks hr hok htype hprep)
    · rcases hg.claims with hc | hp
      · exact hc.respects hr hok htype hprep hg (happ ▸ hhoused) (hrunning hrun rfl)
      · obtain ⟨_, _, hload, _⟩ := hp.loaded
        obtain rfl := hsame (by rw [← happ, hload]; rfl)
        exact hp.respects hr htype hall hg hhoused
  | @migrated old d _ htype h =>
    refine ⟨hr.apps_of hhoused ?_, h.respects hr hok htype hhoused (hrunning h.running rfl)⟩
    intro pair hp
    rw [h.inFlight, getElem?_insert_ite, if_pos rfl] at hp
    obtain rfl := Option.some.inj hp
    obtain ⟨h1, h2, -⟩ := hr.apps _ _ h.running
    have hask : AskFor (threadsOf req s) old.1.messages := threadsOf_running h.running ▸ h2
    exact hok.appThreads hr hhoused (by simpa [BatchExecuteRequest.updateBatchExecGroupId] using h1)
      (hask.updateGroup env.newGroupId)

end Calls

/-! Results. -/

theorem AskFor.removed {threads id : Int} {pair : InFlightPair} (h : AskFor threads pair.1.messages) :
    AskFor threads (removedPair id pair).1.messages := by
  intro m hm
  exact h m (List.mem_of_mem_eraseP hm)

variable {s' : PlannerState}

theorem Removed.respects {msg : Message} {pair : InFlightPair} {p : Placement} (hr : ThreadsReserved s)
    (h : Removed msg s pair p s') (hhoused : Rehoused msg.appId 0 [] s s') (ip : String) :
    usedOn s'.hostMap ip + reservedOn s' ip ≤ slotsOn s'.hostMap ip := by
  have hused : usedOn s'.hostMap ip = usedOn s.hostMap ip + if p.host = ip then -1 else 0 := by
    rw [h.hosts.used, h.releases hr.accounted hr.unreported]
    rfl
  have hfits := hr.fits ip
  have hle := reservedByOthers_le_reservedOn s msg.appId ip
  rw [hused, h.hosts.slots]
  have hin := h.inFlight
  split_ifs at hin with hemp
  · rw [reservedOn_stopped (by rw [hin]; exact ExtTreeMap.getElem?_erase_self), hhoused.reservedByOthers_eq]
    split_ifs <;> omega
  · obtain ⟨hms, hask, hgather⟩ := hr.apps _ _ h.running
    have hne : (removedPair msg.id pair).1.messages ≠ [] := by simpa using hemp
    have hreq : requestedThreads (removedPair msg.id pair).1 = requestedThreads pair.1 :=
      hask.removed.requested hne
    have hok := removedPair_ok (hr.accounted.apps _ _ h.running) h.placed
    have hlen : (removedPair msg.id pair).1.messages.length + 1 = pair.1.messages.length := by
      rw [← hok.length_eq, ← (hr.accounted.apps _ _ h.running).length_eq,
        (perm_eraseP_of_find? h.placed).length_eq]
      rfl
    have hsame : preclaimedThreads s' msg.appId = preclaimedThreads s msg.appId := by
      refine preclaimedThreads_congr ?_ _
      rw [h.preloaded, if_neg hemp]
    rw [reservedOn_running (by rw [hin]; exact ExtTreeMap.getElem?_insert_self), hhoused.reservedByOthers_eq]
    rw [reservedOn_running h.running] at hfits
    have hnonneg := idleOn_nonneg s ip msg.appId pair
    by_cases hmany : 1 < requestedThreads pair.1
    · -- all placements of the app are on the host of the one that leaves
      have hhost : ∀ q ∈ pair.2.placements, q.host = p.host := by
        intro q hq
        have hmem : ∀ q ∈ pair.2.placements, q.host ∈ s.hostsOf msg.appId := fun q hq =>
          mem_hostsOf.mpr (Or.inl ⟨pair, h.running, List.mem_map_of_mem hq⟩)
        exact hgather hmany _ (hmem q hq) _ (hmem p (List.mem_of_find?_eq_some h.placed))
      obtain ⟨m, ms, q, qs, hm, hq⟩ := hr.occupied.first h.running
      have hmain : mainHostOf pair = some p.host := by
        simp [mainHostOf, hq, hhost q (by simp [hq])]
      have hmain' : mainHostOf (removedPair msg.id pair) = some p.host := by
        have hne' : (removedPair msg.id pair).2.placements ≠ [] := by
          have hpos := List.length_pos_iff.mpr hne
          rw [← hok.length_eq] at hpos
          exact List.length_pos_iff.mp hpos
        obtain ⟨q', qs', hq'⟩ := List.exists_cons_of_ne_nil hne'
        have hmem : q' ∈ (removedPair msg.id pair).2.placements := by simp [hq']
        simp [mainHostOf, hq', hhost q' (List.mem_of_mem_eraseP hmem)]
      unfold idleOn idleThreads at hfits ⊢
      rw [hmain] at hfits
      rw [hmain', hreq, hsame]
      simp only [Option.some.injEq] at hfits ⊢
      split_ifs at hfits ⊢ <;> omega
    · have hzero : idleOn s' ip msg.appId (removedPair msg.id pair) = 0 := by
        have hpos := List.length_pos_iff.mpr hne
        unfold idleOn idleThreads
        rw [hreq]
        split_ifs
        · omega
        · rfl
      rw [hzero, zero_add]
      split_ifs <;> omega

theorem ThreadsReserved.apps_of_books (hr : ThreadsReserved s) (hb : SameBooks s s') :
    ∀ (app : Int) (pair : InFlightPair), s'.inFlightReqs[app]? = some pair → AppThreads s' app pair := by
  intro app pair hp
  rw [hb.inFlightReqs] at hp
  obtain ⟨h1, h2, h3⟩ := hr.apps app pair hp
  refine ⟨h1, h2, ?_⟩
  unfold PlannerState.hostsOf at h3 ⊢
  rwa [hb.inFlightReqs, hb.preloaded]

theorem Removed.threads {msg : Message} {pair pair' : InFlightPair} {p : Placement} (hr : ThreadsReserved s)
    (h : Removed msg s pair p s') (hsub : ∀ x ∈ s'.hostsOf msg.appId, x ∈ s.hostsOf msg.appId)
    (hp : s'.inFlightReqs[msg.appId]? = some pair') : AppThreads s' msg.appId pair' := by
  rw [h.inFlight] at hp
  split_ifs at hp with hemp
  · simp at hp
  · rw [getElem?_insert_ite, if_pos rfl] at hp
    obtain rfl := Option.some.inj hp
    obtain ⟨hms, hask, hgather⟩ := hr.apps _ _ h.running
    have hne : (removedPair msg.id pair).1.messages ≠ [] := by simpa using hemp
    have hreq : requestedThreads (removedPair msg.id pair).1 = requestedThreads pair.1 :=
      hask.removed.requested hne
    refine ⟨hne, by rw [hreq]; exact hask.removed, ?_⟩
    intro hmany x hx y hy
    exact hgather (hreq ▸ hmany) x (hsub x hx) y (hsub y hy)

theorem ThreadsReserved.step {op : BatchOp} (hr : ThreadsReserved s) (hok : KeepsThreads s op) :
    ThreadsReserved (op.step s) := by
  have hbooks : KeepsBooks s op := by
    cases op with
    | callBatch env req => exact hok.1
    | setNextEvictedVm vmIps => trivial
    | setMessageResult msg => exact hok
  obtain ⟨ha, hg⟩ := keepsBooks_step ⟨hr.accounted, hr.governed⟩ hbooks
  cases op with
  | callBatch env req =>
    obtain ⟨hreq, hall, hdisp, hthreads⟩ := hok
    have heff := callBatch_effect env hr.accounted ⟨hreq, hr.governed.evictionsOk⟩
    have hplaced : ∀ d, (callBatch env req s).1 = .ok d →
        resultHosts req (s.inFlightReqs[req.appId]?.isNone && (req.isMpi || req.isOmp)) d
          (callBatch env req s).2 = placedHosts env req s := by
      intro d hd
      exact callBatch_result hr.accounted.not_preloaded (Prod.ext hd rfl)
    obtain ⟨happs, hfits⟩ := heff.threads hr hreq hall hthreads (callBatch_rehoused env req s) hplaced
    refine ⟨ha, hg, ?_, happs, hfits⟩
    intro app pair hp
    exact (heff.unreported hr.unreported hdisp app pair hp).of_results (callBatch_results env req s).1
  | setNextEvictedVm vmIps =>
    have hb := setNextEvictedVm_books vmIps s
    have hres : (setNextEvictedVm vmIps s).2.appResults = s.appResults := by
      unfold setNextEvictedVm
      split_ifs <;> rfl
    refine ⟨ha, hg, ?_, hr.apps_of_books hb,
      hr.fits_of hb.hostMap hb.inFlightReqs (preclaimedThreads_congr hb.preloaded)⟩
    intro app pair hp
    exact (hr.unreported app pair (hb.inFlightReqs ▸ hp)).of_results hres
  | setMessageResult msg =>
    have heff := setMessageResult_effect hr.accounted hok
    have hhoused := @setMessageResult_rehoused msg s 0
    simp only [BatchOp.step] at ha hg ⊢
    generalize (setMessageResult msg s).1 = r, (setMessageResult msg s).2 = s' at heff ha hg hhoused
    have hun := heff.unreported hr.unreported
    cases heff with
    | ignored hs _ => exact hs ▸ hr
    | repeated _ _ hb _ _ =>
      exact ⟨ha, hg, hun, hr.apps_of_books hb,
        hr.fits_of hb.hostMap hb.inFlightReqs (preclaimedThreads_congr hb.preloaded)⟩
    | removed hrem =>
      refine ⟨ha, hg, hun, hr.apps_of hhoused fun pair' hp => hrem.threads hr ?_ hp, hrem.respects hr hhoused⟩
      intro x hx
      exact (hhoused.own x hx).resolve_right (by simp)

theorem FreshStart.threadsReserved (h : FreshStart s) : ThreadsReserved s := by
  have hnone : ∀ (app : Int) (pair : InFlightPair), s.inFlightReqs[app]? ≠ some pair := by
    intro app pair hp
    rw [h.inFlightReqs] at hp
    simp at hp
  refine ⟨h.accounted, h.governed, fun app pair hp => absurd hp (hnone app pair),
    fun app pair hp => absurd hp (hnone app pair), ?_⟩
  intro ip
  have hzero : reservedOn s ip = 0 := by
    unfold reservedOn
    rw [h.inFlightReqs, total_empty]
  rw [hzero, add_zero]
  exact h.accounted.ledger.bounded ip

/-- In every run in which the calls leave the idle threads of OpenMP apps their room, the slots
held back for the other apps are exactly their idle threads if and only if none of those apps has
threads to come that it has claimed in advance. Then no host is short of the slots held back on
it, and a new OpenMP request is placed if the room that is left suffices. -/
theorem openmp_threads_counted_once {s t : PlannerState} {ops : List BatchOp} (hs : FreshStart s)
    (hok : GuardedRun.Meets BatchOp.step KeepsThreads s ops) (ht : GuardedRun.run BatchOp.step s ops = t)
    (appId : Int) :
    ((∀ (app : Int) (pair : InFlightPair), app ≠ appId → t.inFlightReqs[app]? = some pair →
      ∀ ip, holdsBack appId ip app pair = idleOn t ip app pair) ↔ OthersForked t appId) ∧
    (OthersForked t appId →
      reserveOpenMpSlots appId t.inFlightReqs.toList
          (convertToBatchSchedHostMap t.hostMap t.nextEvictedHostIps) =
        .ok (honourThreads t appId (convertToBatchSchedHostMap t.hostMap t.nextEvictedHostIps)) ∧
      (∀ (mainHost : String) (host : Host), t.hostMap[mainHost]? = some host →
        availableOpenMpSlots appId mainHost t.hostMap t.inFlightReqs =
          .ok (host.slots - host.usedSlots - reservedByOthers t appId mainHost) ∧
        0 ≤ host.slots - host.usedSlots - reservedByOthers t appId mainHost) ∧
      ∀ (env : CallEnv) (req known : BatchExecuteRequest) (mode : SchedulerMode), req.appId = appId →
        schedulerOf t = some mode → t.inFlightReqs[appId]? = none → req.isOmp = true →
        knownSizeRequest req = .ok known →
        HasRoom (mode.openHosts (honourThreads t appId
          (convertToBatchSchedHostMap t.hostMap t.nextEvictedHostIps)) t.inFlightReqs req)
          req.singleHostHint known.messages.length →
        (callBatch env req t).1 ≠ .ok NOT_ENOUGH_SLOTS_DECISION) := by
  have hr : ThreadsReserved t :=
    ht ▸ hok.invariant (fun _ _ => ThreadsReserved.step) hs.threadsReserved
  have ho := hr.occupied
  refine ⟨holdsBack_eq_idleOn_iff ho appId, fun hf => ⟨?_, ?_, ?_⟩⟩
  · refine reserveOpenMpSlots_eq hr.accounted ho hf ?_
    intro ip hip
    simpa [convertToBatchSchedHostMap, ExtTreeMap.getElem?_map] using hip
  · intro mainHost host hh
    have hfits := hr.fits mainHost
    have hle := reservedByOthers_le_reservedOn t appId mainHost
    rw [usedOn_of_getElem? hh, slotsOn_of_getElem? hh] at hfits
    rw [availableOpenMpSlots_eq ho appId hh, heldBack_eq_reserved ho hf]
    exact ⟨rfl, by omega⟩
  · rintro env req known mode rfl hmode hfresh homp hknown hroom
    exact callBatch_admits env hr.accounted ho hf hmode hfresh homp hknown hroom

def forkAndJoin : List BatchOp :=
  [.callBatch {} (requestFor 1 [ompThread 1 4 0]),
   .callBatch { newGroupId := 2 } (requestFor 1 [ompThread 1 4 1, ompThread 1 4 2, ompThread 1 4 3]),
   .setMessageResult { ompThread 1 4 1 with executedHost := "A" },
   .setMessageResult { ompThread 1 4 2 with executedHost := "A" },
   .setMessageResult { ompThread 1 4 3 with executedHost := "A" }]

def afterCalls (slots : Int) (ops : List BatchOp) : PlannerState :=
  GuardedRun.run BatchOp.step (plannerWith "bin-pack" [hostWith "A" slots]) ops

theorem openmp_threads_counted_once_joined :
    (0 ≤ (8 : Int) - 1 - reservedByOthers (afterCalls 8 forkAndJoin) 2 "A") ∧
    (callBatch {} (requestFor 2 [ompThread 2 4 0]) (afterCalls 8 forkAndJoin)).1 ≠
      .ok NOT_ENOUGH_SLOTS_DECISION := by
  have h := (@openmp_threads_counted_once _ (afterCalls 8 forkAndJoin) forkAndJoin
    (@plannerWith_fresh "bin-pack" [hostWith "A" 8] (by decide)) (by decide +kernel) rfl 2).2
    (by decide +kernel)
  obtain ⟨-, havailable, hplaced⟩ := h
  have hhost : ∃ host, (afterCalls 8 forkAndJoin).hostMap["A"]? = some host ∧ host.slots = 8 ∧
      host.usedSlots = 1 := by
    refine ⟨_, Option.eq_some_of_isSome (by decide +kernel), by decide +kernel, by decide +kernel⟩
  obtain ⟨host, hh, hslots, hused⟩ := hhost
  refine ⟨?_, ?_⟩
  · have h0 := (havailable "A" host hh).2
    rwa [hslots, hused] at h0
  · exact hplaced {} (requestFor 2 [ompThread 2 4 0]) _ .binPack rfl (by decide +kernel)
      (by decide +kernel) rfl rfl (by decide +kernel)

/-- Threads that are claimed in advance are counted twice: a request is rejected although half
of the slots are free, and another app is told that it may use less than no slots. A plain
request takes the slots of idle threads. -/
theorem preclaimed_threads_counted_twice :
    FreshStart (plannerWith "bin-pack" [hostWith "A" 8]) ∧ FreshStart (plannerWith "bin-pack" [hostWith "A" 5]) ∧
    (callBatch {} (requestFor 2 [ompThread 2 4 0])
      (afterCalls 8 [.callBatch {} (requestFor 1 [ompThread 1 4 0])])).1 = .ok NOT_ENOUGH_SLOTS_DECISION ∧
    HasRoom (SchedulerMode.binPack.openHosts (honourThreads
      (afterCalls 8 [.callBatch {} (requestFor 1 [ompThread 1 4 0])]) 2 (convertToBatchSchedHostMap
        (afterCalls 8 [.callBatch {} (requestFor 1 [ompThread 1 4 0])]).hostMap ∅))
      (afterCalls 8 [.callBatch {} (requestFor 1 [ompThread 1 4 0])]).inFlightReqs
      (requestFor 2 [ompThread 2 4 0])) false 4 ∧
    availableOpenMpSlots 2 "A"
      (afterCalls 5 [.callBatch {} (requestFor 2 [ompThread 2 1 0]),
        .callBatch {} (requestFor 1 [ompThread 1 4 0])]).hostMap
      (afterCalls 5 [.callBatch {} (requestFor 2 [ompThread 2 1 0]),
        .callBatch {} (requestFor 1 [ompThread 1 4 0])]).inFlightReqs = .ok (-3) ∧
    availableOpenMpSlots 2 "A"
      (afterCalls 5 (forkAndJoin ++ [.callBatch {} (requestFor 2 [ompThread 2 1 0]),
        .callBatch {} (requestFor 3 [plainMessage 3 31, plainMessage 3 32, plainMessage 3 33])])).hostMap
      (afterCalls 5 (forkAndJoin ++ [.callBatch {} (requestFor 2 [ompThread 2 1 0]),
        .callBatch {} (requestFor 3 [plainMessage 3 31, plainMessage 3 32, plainMessage 3 33])])).inFlightReqs =
      .ok (-3) :=
  ⟨plannerWith_fresh _ (by decide), plannerWith_fresh _ (by decide), by decide +kernel, by decide +kernel,
    by decide +kernel, by decide +kernel⟩

end Faabric
