import Faabric.Planner.ResultEffect

/-! Calls and results as steps of the ledger: what they acquire, release and drop. -/

namespace Faabric

open Std (ExtTreeMap)
open MapTotal

variable {d : SchedulingDecision} {old : InFlightPair} {added : List Placement}

section Calls

variable {env : CallEnv} {req : BatchExecuteRequest} {s s' : PlannerState}

theorem portsOn_of_leases {ps qs : List Placement}
    (h : ps.map (fun p => (p.host, p.mpiPort)) = qs.map fun p => (p.host, p.mpiPort)) (ip : String) :
    portsOn ip ps = portsOn ip qs := by
  have hc (l : List Placement) : portsOn ip l =
      (((l.map fun p => (p.host, p.mpiPort)).filter fun e => e.1 = ip).map Prod.snd : List Int) := by
    simp [portsOn, List.filter_map, Function.comp_def]
  rw [hc, hc, h]

theorem ledgerOf_congr (hb : SameBooks s s') : ledgerOf s' = ledgerOf s := by
  unfold ledgerOf leasesOn
  rw [hb.hostMap, hb.inFlightReqs, hb.preloaded]

theorem HostsMove.ledger {acquired released dropped : String → Multiset Int} {delta : String → Int}
    (hm : HostsMove s.hostMap s'.hostMap acquired released delta)
    (hl : ∀ ip, leasesOn s' ip + released ip + dropped ip = leasesOn s ip + acquired ip)
    {unreturned : String → Nat}
    (hd : ∀ ip, delta ip + (released ip).card = (acquired ip).card + unreturned ip) :
    Ledger.Moves (ledgerOf s) (ledgerOf s') acquired released dropped unreturned where
  leases := hl
  marked := hm.marked
  used ip := by
    have h1 := hm.used ip
    have h2 := hd ip
    simp only [ledgerOf]
    omega
  slots := hm.slots

theorem Started.moves {full : List Placement} (ha : Accounted s) (h : Started env req s full d s') :
    Ledger.Moves (ledgerOf s) (ledgerOf s') (fun ip => portsOn ip full) (fun _ => 0) (fun _ => 0)
      fun _ => 0 := by
  refine h.hosts.ledger ?_ (by simp)
  intro ip
  have hnone := ha.not_preloaded h.fresh
  have hin : inFlightPorts s'.inFlightReqs ip = inFlightPorts s.inFlightReqs ip +
      portsOn ip d.placements := by
    rw [h.inFlight]
    exact total_insert_new _ h.fresh _
  have hpre : preclaimedPorts s'.preloadedSchedulingDecisions ip =
      preclaimedPorts s.preloadedSchedulingDecisions ip +
        if req.isMpi || req.isOmp then portsOn ip (full.drop 1) else 0 := by
    rw [h.preloaded]
    split_ifs
    · exact total_insert_new _ hnone _
    · rw [add_zero]
  simp only [leasesOn, add_zero, hin, hpre, h.decision, startedDecision]
  split_ifs
  · rw [show portsOn ip full = portsOn ip (full.take 1) + portsOn ip (full.drop 1) by
      rw [← portsOn_append, List.take_append_drop]]
    abel
  · abel

theorem Grown.inFlightPorts_eq (h : Grown env req s old added d s') (ip : String) :
    inFlightPorts s'.inFlightReqs ip = inFlightPorts s.inFlightReqs ip + portsOn ip added := by
  have ht := inFlightPorts_overwrite h.running
    (grownPair env old (grownRequest env req s).messages added) ip
  rw [← h.inFlight, show portsOn ip (grownPair env old (grownRequest env req s).messages added).2.placements =
    portsOn ip added + portsOn ip old.2.placements by
      simp [grownPair, extendPair, add_comm], ← add_assoc] at ht
  exact add_right_cancel ht

theorem GrownByClaim.moves (hg : Grown env req s old added d s')
    (h : GrownByClaim env req s added d s') :
    Ledger.Moves (ledgerOf s) (ledgerOf s') (fun ip => portsOn ip added) (fun _ => 0) (fun _ => 0)
      fun _ => 0 := by
  refine h.hosts.ledger ?_ (by simp)
  intro ip
  simp only [leasesOn, add_zero, hg.inFlightPorts_eq ip, h.preloaded]
  abel

theorem GrownByPreload.moves (ha : Accounted s) (hg : Grown env req s old added d s')
    (h : GrownByPreload env req s added d s')
    (hapart : ∀ d, s.preloadedSchedulingDecisions[req.appId]? = some d → PicksApart d req) :
    ∃ dropped, Ledger.Moves (ledgerOf s) (ledgerOf s') (fun _ => 0) (fun _ => 0) dropped
        (fun _ => 0) ∧
      ∀ preloaded, s.preloadedSchedulingDecisions[req.appId]? = some preloaded →
        (req.messages.map Message.groupIdx).Perm
          ((preloaded.placements.drop 1).map Placement.groupIdx) → dropped = fun _ => 0 := by
  obtain ⟨preloaded, picks, hload, hpicks, hd⟩ := h.loaded
  obtain ⟨qs, hsub, hgroup, hlease⟩ := picks_subperm hpicks (hapart _ hload)
  have hadded (ip : String) : portsOn ip added = portsOn ip qs := by
    rw [portsOn_of_leases h.leases, hd, portsOn_of_leases hlease]
  refine ⟨fun ip => portsOn ip (preloaded.placements.drop 1) - portsOn ip added, ?_, ?_⟩
  · have hm : HostsMove s.hostMap s'.hostMap (fun _ => 0) (fun _ => 0) fun _ => 0 := by
      rw [h.hosts]
      exact HostsMove.refl ha.hosts
    refine hm.ledger ?_ (by simp)
    intro ip
    have hle : portsOn ip added ≤ portsOn ip (preloaded.placements.drop 1) := by
      rw [hadded]
      exact portsOn_subperm hsub ip
    have hp : preclaimedPorts s'.preloadedSchedulingDecisions ip +
        portsOn ip (preloaded.placements.drop 1) =
          preclaimedPorts s.preloadedSchedulingDecisions ip := by
      rw [h.preloaded]
      exact total_erase _ hload
    simp only [leasesOn, add_zero, hg.inFlightPorts_eq ip, ← hp]
    conv_rhs => rw [← add_tsub_cancel_of_le hle]
    generalize portsOn ip (preloaded.placements.drop 1) - portsOn ip added = rest
    abel
  · intro preloaded' hload' hperm
    obtain rfl := Option.some.inj (hload.symm.trans hload')
    have hlen : (preloaded.placements.drop 1).length ≤ qs.length := by
      have h1 := hperm.length_eq
      have h2 := congrArg List.length hgroup
      simp only [List.length_map] at h1 h2
      omega
    funext ip
    rw [hadded, portsOn_perm (hsub.perm_of_length_le hlen), tsub_self]

theorem Migrated.moves (h : Migrated env req s old d s') :
    Ledger.Moves (ledgerOf s) (ledgerOf s')
      (fun ip => portsOn ip (movedTo old.2.placements d.placements))
      (fun ip => portsOn ip (movedFrom old.2.placements d.placements)) (fun _ => 0) fun _ => 0 := by
  refine h.hosts.ledger ?_ (by simp)
  intro ip
  have hlen : old.2.placements.length = d.placements.length := by
    simpa using (congrArg List.length h.keys).symm
  have ht := inFlightPorts_overwrite h.running (old.1.updateBatchExecGroupId env.newGroupId, d) ip
  rw [← h.inFlight, portsOn_split hlen ip, h.ports ip, add_left_comm, add_left_comm (inFlightPorts _ _)] at ht
  have ht' := add_left_cancel ht
  simp only [leasesOn, add_zero, h.preloaded]
  rw [add_right_comm, ht']
  abel

end Calls

/-- A scale change that meets a preloaded decision asks for all of its placements that
are not in flight yet, and can be given them. -/
def UsesUpPreload (req : BatchExecuteRequest) (s : PlannerState) : Prop :=
  req.type ≠ .migration → ∀ preloaded ∈ s.preloadedSchedulingDecisions[req.appId]?,
    (preloadedPlacements preloaded.placements req.messages).toOption.isSome →
      (req.messages.map Message.groupIdx).Perm ((preloaded.placements.drop 1).map Placement.groupIdx) ∧
        (req.singleHostHint = true →
          ((preloaded.placements.drop 1).map Placement.host).dedup.length ≤ 1)

instance (req : BatchExecuteRequest) (s : PlannerState) : Decidable (UsesUpPreload req s) :=
  inferInstanceAs (Decidable (_ → _))

/-- A preloaded decision that is dropped although the request asks for all of it has nothing
claimed in advance. -/
theorem UsesUpPreload.dropped {req : BatchExecuteRequest} {s : PlannerState} {preloaded : SchedulingDecision}
    {picks : List Placement} (hall : UsesUpPreload req s) (htype : req.type ≠ .migration)
    (hload : s.preloadedSchedulingDecisions[req.appId]? = some preloaded)
    (hpicks : preloadedPlacements preloaded.placements req.messages = .ok picks)
    (hapart : PicksApart preloaded req)
    (hwhy : picks = [] ∨ 1 < (picks.map Placement.host).dedup.length ∧ req.singleHostHint = true) :
    preloaded.placements.drop 1 = [] := by
  obtain ⟨hperm, hsingle⟩ := hall htype _ hload (by rw [hpicks]; rfl)
  obtain ⟨qs, hsub, hgroup, hlease⟩ := picks_subperm hpicks hapart
  have hlen : (preloaded.placements.drop 1).length ≤ qs.length := by
    have h1 := hperm.length_eq
    have h2 := congrArg List.length hgroup
    simp only [List.length_map] at h1 h2
    omega
  have hqs := hsub.perm_of_length_le hlen
  rcases hwhy with rfl | ⟨hmany, hhint⟩
  · have hnil : qs = [] := by simpa using hlease
    exact List.nil_perm.mp (hnil ▸ hqs)
  · have hhosts : qs.map Placement.host = picks.map Placement.host := by
      simpa [Function.comp_def] using congrArg (List.map Prod.fst) hlease
    have hle := hsingle hhint
    rw [← (hqs.map Placement.host).dedup.length_eq, hhosts] at hle
    omega

variable {s s' : PlannerState} {r : Except PlannerError SchedulingDecision}

/-- A call in terms of the ledger. Only a preloaded decision that is not used up, or
that is dropped, leaves ports behind. -/
theorem CallEffect.moves {env : CallEnv} {req : BatchExecuteRequest} (ha : Accounted s) (hc : CallOk req s)
    (h : CallEffect env req s r s') :
    ∃ acquired released dropped,
      Ledger.Moves (ledgerOf s) (ledgerOf s') acquired released dropped (fun _ => 0) ∧
      (UsesUpPreload req s → dropped = fun _ => 0) := by
  cases h with
  | refused hb _ _ =>
    rw [ledgerOf_congr hb]
    exact ⟨_, _, _, Ledger.Moves.refl _, fun _ => rfl⟩
  | frozen _ hb _ =>
    rw [ledgerOf_congr hb]
    exact ⟨_, _, _, Ledger.Moves.refl _, fun _ => rfl⟩
  | started h => exact ⟨_, _, _, h.moves ha, fun _ => rfl⟩
  | migrated _ h => exact ⟨_, _, _, h.moves, fun _ => rfl⟩
  | grown htype hprep hg =>
    obtain ⟨happ, _, _, hsame⟩ := prepareRequest_scale hprep
    rcases hg.claims with hcl | hpre
    · exact ⟨_, _, _, hcl.moves hg, fun _ => rfl⟩
    · obtain ⟨_, _, hload, hpicks, _⟩ := hpre.loaded
      obtain rfl := hsame (by rw [← happ, hload]; rfl)
      obtain ⟨dropped, hm, hz⟩ := hpre.moves ha hg (hc.grows (by rw [← happ, hg.running]; rfl) htype)
      exact ⟨_, _, dropped, hm, fun hall => hz _ hload (hall htype _ hload (by rw [hpicks]; rfl)).1⟩
  | @dropped preloaded picks _ hrun htype hload hpicks hwhy hb _ =>
    refine ⟨fun _ => 0, fun _ => 0, fun ip => portsOn ip (preloaded.placements.drop 1), ?_, ?_⟩
    · have hm : HostsMove s.hostMap s'.hostMap (fun _ => 0) (fun _ => 0) fun _ => 0 := by
        rw [hb.hostMap]
        exact HostsMove.refl ha.hosts
      refine hm.ledger ?_ (by simp)
      intro ip
      simp only [leasesOn, hb.inFlightReqs, hb.preloaded, add_zero, add_assoc]
      congr 1
      exact total_erase _ hload
    · intro hall
      funext ip
      rw [hall.dropped htype hload hpicks (hc.grows hrun htype _ hload) hwhy, portsOn_nil]

theorem Removed.moves {msg : Message} {pair : InFlightPair} {p : Placement} (ha : Accounted s)
    (h : Removed msg s pair p s') :
    ∃ dropped, Ledger.Moves (ledgerOf s) (ledgerOf s') (fun _ => 0)
        (fun ip => if p.host = ip then {p.mpiPort} else 0) dropped
        (fun ip => if p.host = ip then (if releasesSlot s msg then 0 else 1) else 0) ∧
      ((∀ preloaded, s.preloadedSchedulingDecisions[msg.appId]? = some preloaded →
        1 < pair.1.messages.length ∨ preloaded.placements.drop 1 = []) →
          dropped = fun _ => 0) := by
  have hdelta (ip : String) :
      (if p.host = ip then (if releasesSlot s msg then (-1 : Int) else 0) else 0) +
        (if p.host = ip then ({p.mpiPort} : Multiset Int) else 0).card =
      ((0 : Multiset Int).card : Int) +
        (if p.host = ip then (if releasesSlot s msg then (0 : Nat) else 1) else 0 : Nat) := by
    split_ifs <;> simp
  have hpair := removedPair_ok (ha.apps _ _ h.running) h.placed
  have hports (ip : String) : portsOn ip pair.2.placements =
      (if p.host = ip then {p.mpiPort} else 0) + portsOn ip (removedPair msg.id pair).2.placements := by
    rw [portsOn_perm (perm_eraseP_of_find? h.placed), portsOn_cons]
    rfl
  have hin (ip : String) : inFlightPorts s'.inFlightReqs ip + (if p.host = ip then {p.mpiPort} else 0) =
      inFlightPorts s.inFlightReqs ip := by
    rw [h.inFlight]
    by_cases hemp : (removedPair msg.id pair).1.messages.isEmpty = true
    · rw [if_pos hemp]
      have ht : inFlightPorts (s.inFlightReqs.erase msg.appId) ip + portsOn ip pair.2.placements =
          inFlightPorts s.inFlightReqs ip :=
        total_erase (fun _ (p : InFlightPair) => portsOn ip p.2.placements) h.running
      have hnil : (removedPair msg.id pair).2.placements = [] := by
        have hlen := hpair.length_eq
        rw [List.isEmpty_iff.mp hemp] at hlen
        exact List.length_eq_zero_iff.mp hlen
      rwa [hports, hnil, portsOn_nil, add_zero] at ht
    · rw [if_neg hemp]
      have ht := inFlightPorts_overwrite h.running (removedPair msg.id pair) ip
      rw [hports, ← add_assoc] at ht
      exact add_right_cancel ht
  set dropped : String → Multiset Int := fun ip =>
    if (removedPair msg.id pair).1.messages.isEmpty then
      (s.preloadedSchedulingDecisions[msg.appId]?.map fun d => portsOn ip (d.placements.drop 1)).getD 0
    else 0 with hdropped
  have hpre (ip : String) : preclaimedPorts s'.preloadedSchedulingDecisions ip + dropped ip =
      preclaimedPorts s.preloadedSchedulingDecisions ip := by
    simp only [h.preloaded, hdropped]
    split_ifs
    · cases hload : s.preloadedSchedulingDecisions[msg.appId]? with
      | none => simp [erase_of_getElem?_none hload]
      | some d => exact total_erase _ hload
    · rw [add_zero]
  refine ⟨dropped, h.hosts.ledger ?_ hdelta, ?_⟩
  · intro ip
    simp only [leasesOn, add_zero, ← hin ip, ← hpre ip]
    abel
  · intro hall
    funext ip
    simp only [hdropped]
    split_ifs with hemp
    · cases hload : s.preloadedSchedulingDecisions[msg.appId]? with
      | none => rfl
      | some d =>
        rcases hall d hload with hmany | hnil
        · have hlen := (ha.apps _ _ h.running).length_eq
          have hone := (perm_eraseP_of_find? h.placed).length_eq
          have hz := hpair.length_eq
          rw [List.isEmpty_iff.mp hemp] at hz
          simp only [removedPair, List.length_cons, List.length_nil] at hone hz
          omega
        · show portsOn ip (d.placements.drop 1) = 0
          rw [hnil, portsOn_nil]
    · rfl

/-! The books stay in order. -/

theorem CallEffect.accounted {env : CallEnv} {req : BatchExecuteRequest} (ha : Accounted s)
    (hc : CallOk req s) (h : CallEffect env req s r s') : Accounted s' := by
  obtain ⟨acquired, released, dropped, hm, _⟩ := h.moves ha hc
  have hkeep {app : Int} {pair : InFlightPair} (hi : s'.inFlightReqs = s.inFlightReqs.insert app pair)
      (app' : Int) (d : SchedulingDecision) (hd : s.preloadedSchedulingDecisions[app']? = some d) :
      d.groupId = FIXED_SIZE_PRELOADED_DECISION_GROUPID ∧ s'.inFlightReqs[app']?.isSome := by
    refine ⟨(ha.preloads app' d hd).1, ?_⟩
    rw [hi, getElem?_insert_ite]
    split_ifs
    · rfl
    · exact (ha.preloads app' d hd).2
  cases h with
  | refused hb _ _ => exact ha.of_books hb.hostMap hb.inFlightReqs hb.preloaded
  | frozen _ hb _ => exact ha.of_books hb.hostMap hb.inFlightReqs hb.preloaded
  | dropped _ _ _ _ _ hb _ =>
    refine ⟨hb.hostMap ▸ ha.hosts, ?_, hb.inFlightReqs ▸ ha.apps, ?_⟩
    · refine hm.sound ha.ledger ?_ ?_
      · simp only [ledgerOf, hb.hostMap]
        exact ha.hosts.markedOn_nodup
      · simp only [ledgerOf, hb.hostMap]
        exact ha.ledger.bounded
    · rw [hb.preloaded, hb.inFlightReqs]
      exact forall_erase ha.preloads
  | @started full d _ h =>
    refine ⟨h.hosts.ok, hm.sound ha.ledger h.hosts.ok.markedOn_nodup ?_, ?_, ?_⟩
    · intro ip
      have hu := h.hosts.used ip
      have hs := h.hosts.slots ip
      have hf := h.fits.mono (usedOn_le_countedUsed _ _) ip
      have hb := ha.ledger.bounded ip
      simp only [ledgerOf] at hb ⊢
      omega
    · rw [h.inFlight]
      exact forall_insert ha.apps h.pairOk
    · intro app d' hd
      rw [h.preloaded] at hd
      split_ifs at hd
      · rw [getElem?_insert_ite] at hd
        split_ifs at hd with he
        · subst he
          obtain rfl := Option.some.inj hd
          rw [h.inFlight]
          exact ⟨rfl, by simp⟩
        · exact hkeep h.inFlight app d' hd
      · exact hkeep h.inFlight app d' hd
  | @grown req' old added d _ htype hprep hg =>
    have happs : ∀ (app : Int) (pair : InFlightPair),
        s'.inFlightReqs[app]? = some pair → InFlightOk pair := by
      rw [hg.inFlight]
      exact forall_insert ha.apps hg.pairOk
    rcases hg.claims with hcl | hpre
    · refine ⟨hcl.hosts.ok, hm.sound ha.ledger hcl.hosts.ok.markedOn_nodup ?_, happs, ?_⟩
      · intro ip
        have hu := hcl.hosts.used ip
        have hs := hcl.hosts.slots ip
        have hf := hcl.fits.mono (usedOn_le_countedUsed _ _) ip
        have hb := ha.ledger.bounded ip
        simp only [ledgerOf] at hb ⊢
        omega
      · rw [hcl.preloaded]
        exact hkeep hg.inFlight
    · refine ⟨hpre.hosts ▸ ha.hosts, hm.sound ha.ledger ?_ ?_, happs, ?_⟩
      · simp only [ledgerOf, hpre.hosts]
        exact ha.hosts.markedOn_nodup
      · simp only [ledgerOf, hpre.hosts]
        exact ha.ledger.bounded
      · rw [hpre.preloaded]
        exact forall_erase (hkeep hg.inFlight)
  | @migrated old d _ _ h =>
    refine ⟨h.hosts.ok, hm.sound ha.ledger h.hosts.ok.markedOn_nodup h.bounded, ?_, ?_⟩
    · rw [h.inFlight]
      refine forall_insert ha.apps ⟨?_, h.counted⟩
      have ho := ha.apps _ _ h.running
      rw [h.keys, ho.keys]
      simp [BatchExecuteRequest.updateBatchExecGroupId, Message.key, Function.comp_def]
    · rw [h.preloaded]
      exact hkeep h.inFlight

theorem ResultEffect.accounted {msg : Message} {r : Except PlannerError Unit} (ha : Accounted s)
    (h : ResultEffect msg s r s') : Accounted s' := by
  cases h with
  | ignored hs _ => exact hs ▸ ha
  | repeated _ _ hb _ _ => exact ha.of_books hb.hostMap hb.inFlightReqs hb.preloaded
  | @removed pair p _ h =>
    obtain ⟨dropped, hm, _⟩ := h.moves ha
    refine ⟨h.hosts.ok, hm.sound ha.ledger h.hosts.ok.markedOn_nodup ?_, ?_, ?_⟩
    · intro ip
      have hu := h.hosts.used ip
      have hs := h.hosts.slots ip
      have hb := ha.ledger.bounded ip
      simp only [ledgerOf] at hb ⊢
      split_ifs at hu <;> omega
    · rw [h.inFlight]
      split_ifs
      · exact forall_erase ha.apps
      · exact forall_insert ha.apps (removedPair_ok (ha.apps _ _ h.running) h.placed)
    · intro app d hd
      rw [h.preloaded] at hd
      rw [h.inFlight]
      split_ifs at hd ⊢
      · rw [getElem?_erase_ite] at hd ⊢
        split_ifs at hd ⊢
        exact ha.preloads app d hd
      · rw [getElem?_insert_ite]
        obtain ⟨h1, h2⟩ := ha.preloads app d hd
        refine ⟨h1, ?_⟩
        split_ifs
        · rfl
        · exact h2

end Faabric
