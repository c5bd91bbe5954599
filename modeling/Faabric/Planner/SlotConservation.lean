import Faabric.Planner.FreshStart

/-! Slots and ports over whole runs of `callBatch`, `setNextEvictedVm` and
`setMessageResult`. Slots leak only through preloaded decisions that are not used
up and messages that are dispatched again after their result. -/

namespace Faabric

open Std (ExtTreeMap)
open GuardedRun MapTotal

variable {s s' : PlannerState} {msg : Message} {pair : InFlightPair} {p : Placement}

inductive BatchOp where
  | callBatch (env : CallEnv) (req : BatchExecuteRequest)
  | setNextEvictedVm (vmIps : Finset String)
  | setMessageResult (msg : Message)

def BatchOp.step (s : PlannerState) : BatchOp → PlannerState
  | .callBatch env req => (Faabric.callBatch env req s).2
  | .setNextEvictedVm vmIps => (Faabric.setNextEvictedVm vmIps s).2
  | .setMessageResult msg => (Faabric.setMessageResult msg s).2

def inFlightPlacements (s : PlannerState) : List Placement :=
  s.inFlightReqs.toList.flatMap fun e => e.2.2.placements

def preclaimedPlacements (s : PlannerState) : List Placement :=
  s.preloadedSchedulingDecisions.toList.flatMap fun e => e.2.placements.drop 1

def livePlacements (s : PlannerState) : List Placement := inFlightPlacements s ++ preclaimedPlacements s

theorem portsOn_flatMap {α : Type} (ip : String) (f : α → List Placement) (l : List α) :
    portsOn ip (l.flatMap f) = (l.map fun a => portsOn ip (f a)).sum := by
  induction l with
  | nil => rfl
  | cons a l ih => rw [List.flatMap_cons, portsOn_append, ih, List.map_cons, List.sum_cons]

theorem leasesOn_eq (s : PlannerState) (ip : String) : leasesOn s ip = portsOn ip (livePlacements s) := by
  rw [livePlacements, portsOn_append, inFlightPlacements, preclaimedPlacements, portsOn_flatMap,
    portsOn_flatMap]
  rfl

theorem sites_nodup {ps : List Placement} (h : ∀ ip, (portsOn ip ps).Nodup) :
    (ps.map fun p => (p.host, p.mpiPort)).Nodup := by
  induction ps with
  | nil => exact List.nodup_nil
  | cons p ps ih =>
    have hrest : ∀ ip, (portsOn ip ps).Nodup := by
      intro ip
      refine Multiset.nodup_of_le ?_ (h ip)
      rw [portsOn_cons]
      exact Multiset.le_add_left _ _
    rw [List.map_cons, List.nodup_cons]
    refine ⟨?_, ih hrest⟩
    intro hm
    obtain ⟨q, hq, he⟩ := List.mem_map.mp hm
    obtain ⟨hhost, hport⟩ := Prod.mk.inj he
    have hp := h p.host
    rw [portsOn_cons, if_pos rfl, Multiset.singleton_add, Multiset.nodup_cons] at hp
    refine hp.1 ?_
    rw [← hhost, ← hport]
    exact mem_portsOn hq

/-! Ports are exclusive. -/

/-- Requests that can be started or grown, and results from the host of their message. -/
def KeepsBooks (s : PlannerState) : BatchOp → Prop
  | .callBatch _ req => RequestOk req s
  | .setNextEvictedVm _ => True
  | .setMessageResult msg => ResultOk msg s

instance (s : PlannerState) (op : BatchOp) : Decidable (KeepsBooks s op) := by
  cases op <;> unfold KeepsBooks <;> infer_instance

theorem keepsBooks_step {s : PlannerState} {op : BatchOp} (h : Accounted s ∧ Governed s)
    (hok : KeepsBooks s op) : Accounted (op.step s) ∧ Governed (op.step s) := by
  obtain ⟨ha, hg⟩ := h
  cases op with
  | callBatch env req =>
    have hc : CallOk req s := ⟨hok, hg.evictionsOk⟩
    exact ⟨(callBatch_effect env ha hc).accounted ha hc, hg.callBatch env req⟩
  | setNextEvictedVm vmIps =>
    have hb := setNextEvictedVm_books vmIps s
    exact ⟨ha.of_books hb.hostMap hb.inFlightReqs hb.preloaded, hg.setNextEvictedVm vmIps⟩
  | setMessageResult msg =>
    exact ⟨(setMessageResult_effect ha hok).accounted ha,
      hg.of_governance (setMessageResult_governance msg s)⟩

/-- Every message in flight has a placement, no two live messages hold the same port of
a host, and every port that a live message holds is marked by its host. -/
theorem live_ports_exclusive {s : PlannerState} {ops : List BatchOp} (hs : FreshStart s)
    (hok : GuardedRun.Meets BatchOp.step KeepsBooks s ops) :
    (∀ (app : Int) (pair : InFlightPair),
      (run BatchOp.step s ops).inFlightReqs[app]? = some pair →
        pair.2.placements.map Placement.key = pair.1.messages.map Message.key) ∧
      ((livePlacements (run BatchOp.step s ops)).map fun p => (p.host, p.mpiPort)).Nodup ∧
      ∀ p ∈ livePlacements (run BatchOp.step s ops),
        ∃ h, (run BatchOp.step s ops).hostMap[p.host]? = some h ∧
          (⟨p.mpiPort, true⟩ : MpiPort) ∈ h.mpiPorts := by
  obtain ⟨ha, _⟩ := hok.invariant (fun s op => keepsBooks_step) ⟨hs.accounted, hs.governed⟩
  refine ⟨fun app pair hp => (ha.apps app pair hp).keys, sites_nodup fun ip => ?_, ?_⟩
  · rw [← leasesOn_eq]
    exact ha.ledger.leases_nodup ip
  · intro p hp
    obtain ⟨hm, h, hh⟩ := ha.exists_host (fun ip => (leasesOn_eq _ ip).ge) hp
    rw [markedOn_of_getElem? hh, UnitPool.mem_usedLabels] at hm
    exact ⟨h, hh, hm⟩

theorem live_ports_exclusive_fork :
    ((livePlacements (run BatchOp.step (plannerWith "bin-pack" [hostWith "A" 2])
      [.callBatch {} (requestFor 1 [ompThread 1 2 0]),
       .callBatch { newGroupId := 2 } (requestFor 1 [ompThread 1 2 1])])).map
        fun p => (p.host, p.mpiPort)).Nodup :=
  (@live_ports_exclusive (plannerWith "bin-pack" [hostWith "A" 2])
    [.callBatch {} (requestFor 1 [ompThread 1 2 0]),
     .callBatch { newGroupId := 2 } (requestFor 1 [ompThread 1 2 1])]
    (plannerWith_fresh _ (by decide)) (by decide)).2.1

/-- A fork that repeats the group index of the main thread shares its port. -/
theorem repeated_group_idx_shares_port :
    FreshStart (plannerWith "bin-pack" [hostWith "A" 2]) ∧
    (livePlacements (run BatchOp.step (plannerWith "bin-pack" [hostWith "A" 2])
      [.callBatch {} (requestFor 1 [ompThread 1 2 0]),
       .callBatch { newGroupId := 2 } (requestFor 1 [{ ompThread 1 2 0 with id := 11 }])])).map
        (fun p => (p.messageId, p.host, p.mpiPort)) = [(10, "A", 8020), (11, "A", 8020)] :=
  ⟨plannerWith_fresh _ (by decide), by decide⟩

/-! Slots are conserved. -/

def Unreported (s : PlannerState) (appId : Int) (ids : List Int) : Prop :=
  ids.Nodup ∧ ∀ id ∈ ids, hasResult s appId id = false

instance (s : PlannerState) (appId : Int) (ids : List Int) : Decidable (Unreported s appId ids) :=
  inferInstanceAs (Decidable (_ ∧ _))

def DispatchesUnreported (env : CallEnv) (req : BatchExecuteRequest) (s : PlannerState) : Prop :=
  (s.inFlightReqs[req.appId]? = none →
    Unreported s req.appId (startedRequest env req s).messageIds) ∧
  ∀ old ∈ s.inFlightReqs[req.appId]?, req.type ≠ .migration →
    ∀ req' ∈ (prepareRequest env .scaleChange req s).toOption,
      Unreported s req.appId (old.1.messageIds ++ (grownRequest env req' s).messageIds)

def LeavesNoPreload (msg : Message) (s : PlannerState) : Prop :=
  ¬ Ignored msg s → (placementOf s msg.appId msg.id).isSome →
    ∀ pair ∈ s.inFlightReqs[msg.appId]?, ∀ preloaded ∈ s.preloadedSchedulingDecisions[msg.appId]?,
      1 < pair.1.messages.length ∨ preloaded.placements.drop 1 = []

def KeepsSlots (s : PlannerState) : BatchOp → Prop
  | .callBatch env req => RequestOk req s ∧ UsesUpPreload req s ∧ DispatchesUnreported env req s
  | .setNextEvictedVm _ => True
  | .setMessageResult msg => ResultOk msg s ∧ LeavesNoPreload msg s

instance (env : CallEnv) (req : BatchExecuteRequest) (s : PlannerState) :
    Decidable (DispatchesUnreported env req s) :=
  inferInstanceAs (Decidable (_ ∧ _))

instance (msg : Message) (s : PlannerState) : Decidable (LeavesNoPreload msg s) :=
  inferInstanceAs (Decidable (_ → _))

instance (s : PlannerState) (op : BatchOp) : Decidable (KeepsSlots s op) := by
  cases op <;> unfold KeepsSlots <;> infer_instance

theorem KeepsSlots.keepsBooks {op : BatchOp} (h : KeepsSlots s op) :
    KeepsBooks s op := by
  cases op with
  | callBatch env req => exact h.1
  | setNextEvictedVm vmIps => trivial
  | setMessageResult msg => exact h.1

structure Conserved (s : PlannerState) : Prop where
  accounted : Accounted s
  governed : Governed s
  exact : (ledgerOf s).Exact
  unreported : ∀ (app : Int) (pair : InFlightPair), s.inFlightReqs[app]? = some pair →
    Unreported s app pair.1.messageIds

theorem FreshStart.conserved (h : FreshStart s) : Conserved s := by
  refine ⟨h.accounted, h.governed, h.exact, ?_⟩
  intro app pair hp
  rw [h.inFlightReqs] at hp
  exact absurd hp (by simp)

theorem Unreported.of_results {app : Int} {ids : List Int} (h : Unreported s app ids)
    (hr : s'.appResults = s.appResults) : Unreported s' app ids := by
  unfold Unreported hasResult at h ⊢
  rwa [hr]

theorem grownPair_messageIds (env : CallEnv) (old : InFlightPair) (ms : List Message)
    (added : List Placement) :
    (grownPair env old ms added).1.messageIds = old.1.messageIds ++ ms.map Message.id := by
  simp [grownPair, extendPair, BatchExecuteRequest.messageIds,
    BatchExecuteRequest.updateBatchExecGroupId, Function.comp_def]

theorem CallEffect.unreported {env : CallEnv} {req : BatchExecuteRequest}
    {r : Except PlannerError SchedulingDecision} (h : CallEffect env req s r s')
    (hu : ∀ (app : Int) (pair : InFlightPair), s.inFlightReqs[app]? = some pair →
      Unreported s app pair.1.messageIds) (hd : DispatchesUnreported env req s) (app : Int)
    (pair : InFlightPair) (hp : s'.inFlightReqs[app]? = some pair)
    : Unreported s app pair.1.messageIds := by
  have hinsert {app' : Int} {new : InFlightPair}
      (hi : s'.inFlightReqs = s.inFlightReqs.insert app' new)
      (hn : Unreported s app' new.1.messageIds) : Unreported s app pair.1.messageIds := by
    rw [hi] at hp
    exact forall_insert hu hn app pair hp
  cases h with
  | refused hb _ _ => exact hu app pair (hb.inFlightReqs ▸ hp)
  | dropped _ _ _ _ _ hb _ => exact hu app pair (hb.inFlightReqs ▸ hp)
  | frozen _ hb _ => exact hu app pair (hb.inFlightReqs ▸ hp)
  | started h => exact hinsert h.inFlight (hd.1 h.fresh)
  | @grown req' old added d _ htype hprep hg =>
    obtain ⟨happ, _⟩ := prepareRequest_scale hprep
    have hrun : s.inFlightReqs[req.appId]? = some old := happ ▸ hg.running
    have hnew := hd.2 old hrun htype req' (congrArg Except.toOption hprep)
    refine hinsert hg.inFlight ?_
    rw [grownPair_messageIds, happ]
    exact hnew
  | migrated _ h =>
    refine hinsert h.inFlight ?_
    rw [BatchExecuteRequest.updateBatchExecGroupId_messageIds]
    exact hu _ _ h.running

theorem hasResult_recorded (hr : s'.appResults = recordedResults msg s) {app id : Int}
    (hne : app = msg.appId → id ≠ msg.id) :
    hasResult s' app id = hasResult s app id := by
  unfold hasResult
  rw [hr]
  unfold recordedResults
  dsimp only
  by_cases he : msg.appId = app
  · subst he
    have hid : msg.id ≠ id := (hne rfl).symm
    cases hres : s.appResults[msg.appId]? with
    | none => split_ifs <;> simp [hid]
    | some results => split_ifs <;> simp [ExtTreeMap.contains_insert, hid]
  · split_ifs <;> simp [he]

theorem removedPair_messageIds (id : Int) (pair : InFlightPair) :
    (removedPair id pair).1.messageIds = pair.1.messageIds.erase id := by
  rw [List.erase_eq_eraseP', BatchExecuteRequest.messageIds, BatchExecuteRequest.messageIds,
    List.eraseP_map]
  rfl

theorem Removed.unreported (h : Removed msg s pair p s')
    (hu : ∀ (app : Int) (pair : InFlightPair), s.inFlightReqs[app]? = some pair →
      Unreported s app pair.1.messageIds) (app : Int) (pair' : InFlightPair)
    (hp : s'.inFlightReqs[app]? = some pair') : Unreported s' app pair'.1.messageIds := by
  have hother (hne : msg.appId ≠ app) (hp : s.inFlightReqs[app]? = some pair') :
      Unreported s' app pair'.1.messageIds := by
    refine ⟨(hu app pair' hp).1, ?_⟩
    intro id hid
    rw [hasResult_recorded h.appResults fun he => absurd he.symm hne]
    exact (hu app pair' hp).2 id hid
  rw [h.inFlight] at hp
  split_ifs at hp
  · rw [getElem?_erase_ite] at hp
    split_ifs at hp with he
    exact hother he hp
  · rw [getElem?_insert_ite] at hp
    split_ifs at hp with he
    · obtain rfl := Option.some.inj hp
      obtain ⟨hnd, hno⟩ := hu _ _ h.running
      rw [removedPair_messageIds, ← he]
      refine ⟨hnd.erase _, ?_⟩
      intro id hid
      obtain ⟨hne, hid⟩ := hnd.mem_erase_iff.mp hid
      rw [hasResult_recorded h.appResults fun _ => hne]
      exact hno id hid
    · exact hother he hp

theorem ResultEffect.unreported {r : Except PlannerError Unit} (h : ResultEffect msg s r s')
    (hu : ∀ (app : Int) (pair : InFlightPair), s.inFlightReqs[app]? = some pair →
      Unreported s app pair.1.messageIds) (app : Int) (pair : InFlightPair)
    (hp : s'.inFlightReqs[app]? = some pair) : Unreported s' app pair.1.messageIds := by
  cases h with
  | ignored hs _ =>
    subst hs
    exact hu app pair hp
  | repeated habs hkept hb hr _ =>
    rw [hb.inFlightReqs] at hp
    obtain ⟨hnd, hno⟩ := hu app pair hp
    refine ⟨hnd, ?_⟩
    intro id hid
    rw [hasResult_recorded hr]
    · exact hno id hid
    · rintro rfl rfl
      have hk := (Bool.or_eq_false_iff.mp hkept).1
      rw [hno _ hid] at hk
      exact absurd hk (by decide)
  | removed hrem => exact hrem.unreported hu app pair hp

theorem Removed.releases (ha : Accounted s)
    (hu : ∀ (app : Int) (pair : InFlightPair), s.inFlightReqs[app]? = some pair →
      Unreported s app pair.1.messageIds) (h : Removed msg s pair p s')
    : releasesSlot s msg = true := by
  have hin : msg.id ∈ pair.1.messageIds := by
    have hm := List.mem_of_find?_eq_some h.placed
    have hid : p.messageId = msg.id := by simpa using List.find?_some h.placed
    rw [← (ha.apps _ _ h.running).ids_eq, ← hid]
    exact List.mem_map_of_mem hm
  simp [releasesSlot, (hu _ _ h.running).2 _ hin]

theorem Removed.exact (hc : Conserved s) (h : Removed msg s pair p s')
    (hl : LeavesNoPreload msg s) :
    (ledgerOf s').Exact := by
  have hplaced : placementOf s msg.appId msg.id = some p := by
    simp only [placementOf, h.running, h.placed]
  have hrel := h.releases hc.accounted hc.unreported
  obtain ⟨dropped, hm, hz⟩ := h.moves hc.accounted
  have hd := hz fun preloaded hload => hl h.heeded (by rw [hplaced]; rfl) pair h.running preloaded hload
  simp only [hrel, hd, if_true, ite_self] at hm
  exact hm.exact hc.exact

theorem conserved_step {op : BatchOp} (h : Conserved s) (hok : KeepsSlots s op) :
    Conserved (op.step s) := by
  obtain ⟨ha, hg⟩ := keepsBooks_step ⟨h.accounted, h.governed⟩ hok.keepsBooks
  cases op with
  | callBatch env req =>
    obtain ⟨hreq, hall, hdisp⟩ := hok
    have hc : CallOk req s := ⟨hreq, h.governed.evictionsOk⟩
    have heff := callBatch_effect env h.accounted hc
    obtain ⟨acquired, released, dropped, hm, hz⟩ := heff.moves h.accounted hc
    refine ⟨ha, hg, ?_, ?_⟩
    · rw [hz hall] at hm
      exact hm.exact h.exact
    · intro app pair hp
      exact (heff.unreported h.unreported hdisp app pair hp).of_results (callBatch_results env req s).1
  | setNextEvictedVm vmIps =>
    have hb := setNextEvictedVm_books vmIps s
    have hr : (setNextEvictedVm vmIps s).2.appResults = s.appResults := by
      unfold setNextEvictedVm
      split_ifs <;> rfl
    refine ⟨ha, hg, ledgerOf_congr hb ▸ h.exact, ?_⟩
    intro app pair hp
    exact (h.unreported app pair (hb.inFlightReqs ▸ hp)).of_results hr
  | setMessageResult msg =>
    obtain ⟨hres, hleave⟩ := hok
    have heff := setMessageResult_effect h.accounted hres
    simp only [BatchOp.step] at ha hg ⊢
    generalize (setMessageResult msg s).1 = r, (setMessageResult msg s).2 = s' at heff ha hg
    refine ⟨ha, hg, ?_, heff.unreported h.unreported⟩
    cases heff with
    | ignored hs _ => exact hs ▸ h.exact
    | repeated _ _ hb _ _ => exact ledgerOf_congr hb ▸ h.exact
    | removed hrem => exact hrem.exact h hleave

/-- Every slot in use belongs to a live message, and a planner with nothing in flight
has all of its slots and ports free. -/
theorem used_slots_conserved {s : PlannerState} {ops : List BatchOp} (hs : FreshStart s)
    (hok : GuardedRun.Meets BatchOp.step KeepsSlots s ops) :
    (∀ (ip : String) (h : Host), (run BatchOp.step s ops).hostMap[ip]? = some h →
      h.usedSlots = hostCount ip (inFlightPlacements (run BatchOp.step s ops)) +
        hostCount ip (preclaimedPlacements (run BatchOp.step s ops)) ∧
      0 ≤ h.usedSlots ∧ h.usedSlots ≤ h.slots) ∧
    ((run BatchOp.step s ops).inFlightReqs = ∅ →
      ∀ (ip : String) (h : Host), (run BatchOp.step s ops).hostMap[ip]? = some h →
        h.usedSlots = 0 ∧ ∀ port ∈ h.mpiPorts, port.used = false) := by
  have hc := hok.invariant (fun s op => conserved_step) hs.conserved
  generalize run BatchOp.step s ops = t at hc
  have hcount (ip : String) (h : Host) (hh : t.hostMap[ip]? = some h) :
      h.usedSlots = hostCount ip (inFlightPlacements t) + hostCount ip (preclaimedPlacements t) := by
    have hl := hc.exact.leased ip
    have hu := hc.exact.counted ip
    simp only [ledgerOf, usedOn_of_getElem? hh] at hl hu
    rw [← hu, ← hl, leasesOn_eq, livePlacements, card_portsOn, hostCount_append]
    push_cast
    rfl
  refine ⟨?_, ?_⟩
  · intro ip h hh
    have hn := hc.accounted.ledger.used_nonneg ip
    have hb := hc.accounted.ledger.bounded ip
    simp only [ledgerOf, usedOn_of_getElem? hh, slotsOn_of_getElem? hh] at hn hb
    exact ⟨hcount ip h hh, hn, hb⟩
  · intro hnone ip h hh
    have hpre : t.preloadedSchedulingDecisions = ∅ := by
      apply ExtTreeMap.ext_getElem?
      intro app
      rw [hc.accounted.not_preloaded (by simp [hnone])]
      simp
    have hempty : livePlacements t = [] := by
      simp [livePlacements, inFlightPlacements, preclaimedPlacements, hnone, hpre]
    have hm : UnitPool.usedLabels h.mpiPorts = 0 := by
      have hl := hc.exact.leased ip
      simp only [ledgerOf, leasesOn_eq, hempty, portsOn_nil, markedOn_of_getElem? hh] at hl
      exact hl.symm
    refine ⟨?_, ?_⟩
    · have hu := hc.exact.counted ip
      simp only [ledgerOf, usedOn_of_getElem? hh, markedOn_of_getElem? hh, hm, Multiset.card_zero] at hu
      exact hu.symm
    · rintro ⟨port, used⟩ hport
      cases used with
      | false => rfl
      | true =>
        have hmem := UnitPool.mem_usedLabels.mpr hport
        rw [hm] at hmem
        exact absurd hmem (Multiset.notMem_zero port)

def worldOfTwo : List BatchOp :=
  [.callBatch {} (requestFor 1 [mpiRank 1 2 0]),
   .callBatch { newGroupId := 2 } (requestFor 1 [mpiRank 1 2 1]),
   .setMessageResult { mpiRank 1 2 1 with executedHost := "A" },
   .setMessageResult { mpiRank 1 2 0 with executedHost := "A" }]

theorem used_slots_conserved_world :
    ∃ h, (run BatchOp.step (plannerWith "bin-pack" [hostWith "A" 2])
      worldOfTwo).hostMap["A"]? = some h ∧ h.usedSlots = 0 := by
  obtain ⟨hcount, _⟩ := @used_slots_conserved (plannerWith "bin-pack" [hostWith "A" 2]) worldOfTwo
    (plannerWith_fresh _ (by decide)) (by decide)
  have hin : (run BatchOp.step (plannerWith "bin-pack" [hostWith "A" 2])
      worldOfTwo).hostMap["A"]?.isSome := by
    decide
  obtain ⟨h, hh⟩ := Option.isSome_iff_exists.mp hin
  exact ⟨h, hh, (hcount "A" h hh).1.trans (by decide)⟩

theorem first_rank_leaks_slots :
    FreshStart (plannerWith "bin-pack" [hostWith "A" 2]) ∧
    livePlacements (run BatchOp.step (plannerWith "bin-pack" [hostWith "A" 2])
      [.callBatch {} (requestFor 1 [mpiRank 1 2 0]),
       .setMessageResult { mpiRank 1 2 0 with executedHost := "A" }]) = [] ∧
    (run BatchOp.step (plannerWith "bin-pack" [hostWith "A" 2])
      [.callBatch {} (requestFor 1 [mpiRank 1 2 0]),
       .setMessageResult { mpiRank 1 2 0 with executedHost := "A" }]).hostMap["A"]?.map
        Host.usedSlots = some 1 :=
  ⟨plannerWith_fresh _ (by decide), by decide, by decide⟩

end Faabric
