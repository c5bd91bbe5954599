import Faabric.Planner.SlotConservation

/-! Hosts that come and go while requests are in flight. A host without live
messages can be removed or registered again; any other takes the record of its
slots and ports away from the messages that hold them. -/

namespace Faabric

open Std (ExtTreeMap)
open GuardedRun MapTotal

variable {s : PlannerState}

inductive ChurnOp where
  | registerHost (host : Host) (now ts : Int)
  | removeHost (host : Host)
  | getAvailableHosts (now : Int)
  | callBatch (env : CallEnv) (req : BatchExecuteRequest)
  | setMessageResult (msg : Message)

def ChurnOp.step (s : PlannerState) : ChurnOp → PlannerState
  | .registerHost host now ts => (Faabric.registerHost host false now ts s).2
  | .removeHost host => Faabric.removeHost host s
  | .getAvailableHosts now => (Faabric.getAvailableHosts now s).2
  | .callBatch env req => (Faabric.callBatch env req s).2
  | .setMessageResult msg => (Faabric.setMessageResult msg s).2

def Idle (s : PlannerState) (ip : String) : Prop := hostCount ip (livePlacements s) = 0

def Host.Registrable (h : Host) : Prop :=
  h.ip ≠ "" ∧ h.mpiPorts = [] ∧ 0 ≤ h.usedSlots ∧ h.usedSlots ≤ h.slots

def RegistrationOk (s : PlannerState) (host : Host) (overwrite : Bool) (now : Int) : Prop :=
  0 ≤ host.slots →
    (∀ h ∈ s.hostMap[host.ip]?, isHostExpired s.hostTimeout h now = true ∨ overwrite = true →
      Idle s host.ip) ∧
    ((∀ h ∈ s.hostMap[host.ip]?, isHostExpired s.hostTimeout h now = true) → host.Registrable) ∧
    (overwrite = true → 0 ≤ host.usedSlots ∧ host.usedSlots ≤ host.slots)

def KeepsHosts (s : PlannerState) : ChurnOp → Prop
  | .registerHost host now _ => RegistrationOk s host false now
  | .removeHost host => Idle s host.ip
  | .getAvailableHosts now =>
    ∀ e ∈ s.hostMap.toList, isHostExpired s.hostTimeout e.2 now = true → Idle s e.1
  | .callBatch _ req => RequestOk req s
  | .setMessageResult msg => ResultOk msg s

instance (s : PlannerState) (ip : String) : Decidable (Idle s ip) := inferInstanceAs (Decidable (_ = _))

instance (h : Host) : Decidable h.Registrable := inferInstanceAs (Decidable (_ ∧ _))

instance (s : PlannerState) (host : Host) (overwrite : Bool) (now : Int) :
    Decidable (RegistrationOk s host overwrite now) :=
  inferInstanceAs (Decidable (_ → _))

instance (s : PlannerState) (op : ChurnOp) : Decidable (KeepsHosts s op) := by
  cases op <;> unfold KeepsHosts <;> infer_instance

theorem Idle.leases {ip : String} (h : Idle s ip) : leasesOn s ip = 0 := by
  rw [leasesOn_eq, ← Multiset.card_eq_zero, card_portsOn]
  exact h

def Host.account (h : Host) : Int × Int × List MpiPort := (h.usedSlots, h.slots, h.mpiPorts)

theorem Accounted.replaceHosts (ha : Accounted s) {hosts : PlannerHosts} (hok : HostsOk hosts)
    (hkeep : ∀ ip, hosts[ip]?.map Host.account = s.hostMap[ip]?.map Host.account ∨
      (leasesOn s ip = 0 ∧ ∀ h, hosts[ip]? = some h →
        ((UnitPool.usedLabels h.mpiPorts).card : Int) ≤ h.usedSlots ∧ h.usedSlots ≤ h.slots)) :
    Accounted { s with hostMap := hosts } := by
  refine ⟨hok, ?_, ha.apps, ha.preloads⟩
  refine ha.ledger.replace rfl ?_
  intro ip
  simp only [ledgerOf]
  rcases hkeep ip with hsame | ⟨hz, hnew⟩
  · left
    have hf {α : Type} (f : Int × Int × List MpiPort → α) :
        hosts[ip]?.map (f ∘ Host.account) = s.hostMap[ip]?.map (f ∘ Host.account) := by
      rw [← Option.map_map, ← Option.map_map, hsame]
    exact ⟨congrArg (·.getD 0) (hf fun a => UnitPool.usedLabels a.2.2),
      congrArg (·.getD 0) (hf Prod.fst), congrArg (·.getD 0) (hf fun a => a.2.1)⟩
  · right
    refine ⟨hz, hok.markedOn_nodup ip, ?_⟩
    cases hh : hosts[ip]? with
    | none => simp [markedOn, usedOn, slotsOn, hh]
    | some h =>
      rw [markedOn_of_getElem? hh, usedOn_of_getElem? hh, slotsOn_of_getElem? hh]
      exact hnew h hh

theorem Accounted.insertHost (ha : Accounted s) {ip : String} {h : Host} (hw : h.WellFormed ip)
    (hfree : leasesOn s ip = 0)
    (hused : ((UnitPool.usedLabels h.mpiPorts).card : Int) ≤ h.usedSlots)
    (hle : h.usedSlots ≤ h.slots) :
    Accounted { s with hostMap := s.hostMap.insert ip h } := by
  refine ha.replaceHosts (forall_insert ha.hosts hw) ?_
  · intro ip'
    rw [getElem?_insert_ite]
    split_ifs with he
    · right
      refine ⟨he ▸ hfree, ?_⟩
      intro h' hh
      exact Option.some.inj hh ▸ ⟨hused, hle⟩
    · exact Or.inl rfl

theorem card_usedLabels_basePorts {count used : Int} (h : 0 ≤ used) :
    ((UnitPool.usedLabels (basePorts count used)).card : Int) ≤ used := by
  have hcount : (UnitPool.usedLabels (basePorts count used)).card =
      (List.range count.toNat).countP fun i => decide (i < used.toNat) := by
    simp only [UnitPool.usedLabels, basePorts, Multiset.coe_card, List.length_map,
      ← List.countP_eq_length_filter, List.countP_map]
    refine List.countP_congr ?_
    intro i _
    simp only [Function.comp_apply, decide_eq_true_eq]
    omega
  have hle : ((List.range count.toNat).countP fun i => decide (i < used.toNat)) ≤ used.toNat := by
    rw [List.countP_eq_length_filter]
    have hsub : (List.range count.toNat).filter (fun i => decide (i < used.toNat)) ⊆
        List.range used.toNat := by
      intro i hi
      simpa using (List.mem_filter.mp hi).2
    simpa using (List.subperm_of_subset (List.nodup_range.filter _) hsub).length_le
  omega

theorem registerHost_accounted (ha : Accounted s) {host : Host} {overwrite : Bool} {now : Int}
    (ts : Int) (hok : RegistrationOk s host overwrite now) :
    Accounted (registerHost host overwrite now ts s).2 := by
  by_cases hneg : host.slots < 0
  · simpa only [registerHost, hneg, if_true] using ha
  obtain ⟨hidle, hreg, hover⟩ := hok (by omega)
  simp only [registerHost, hneg, if_false]
  have hnew (hfree : leasesOn s host.ip = 0) (hr : host.Registrable) :
      Accounted { s with
        hostMap := s.hostMap.insert host.ip
          { host with mpiPorts := host.mpiPorts ++ basePorts host.slots 0, registerTs := ts } } := by
    obtain ⟨hip, hports, h0, h1⟩ := hr
    refine ha.insertHost ⟨rfl, hip, by simpa using hneg, ?_⟩ hfree ?_ h1
    · simp [hports, basePorts_labels]
    · simpa [hports, basePorts_unused] using h0
  cases hh : s.hostMap[host.ip]? with
  | none =>
    refine hnew ?_ (hreg (by simp [hh]))
    have hle := ha.ledger.leased host.ip
    simp only [ledgerOf, markedOn, hh, Option.map_none, Option.getD_none] at hle
    exact Multiset.le_zero.mp hle
  | some h =>
    have hw := ha.hosts _ _ hh
    by_cases hexp : isHostExpired s.hostTimeout h now = true
    · simp only [hexp, if_true]
      refine hnew (hidle h hh (Or.inl hexp)).leases (hreg ?_)
      intro h' hh'
      rw [hh] at hh'
      exact Option.some.inj hh' ▸ hexp
    · simp only [hexp, if_false, Bool.false_eq_true]
      by_cases hov : overwrite = true
      · simp only [hov, if_true]
        obtain ⟨h0, h1⟩ := hover hov
        refine ha.insertHost ⟨hw.keyed, hw.named, by simpa using hneg, ?_⟩
          (hidle h hh (Or.inr hov)).leases (card_usedLabels_basePorts h0) h1
        simp [UnitPool.labels, basePorts, Function.comp_def]
      · simp only [hov, if_false, Bool.false_eq_true]
        refine ha.replaceHosts (forall_insert ha.hosts ⟨hw.keyed, hw.named, hw.nonneg, hw.ports⟩) ?_
        · intro ip
          rw [getElem?_insert_ite]
          split_ifs with he
          · left
            rw [← he, hh]
            rfl
          · exact Or.inl rfl

theorem Accounted.dropHosts (ha : Accounted s) {hosts : PlannerHosts}
    (h : ∀ ip, hosts[ip]? = s.hostMap[ip]? ∨ hosts[ip]? = none ∧ leasesOn s ip = 0) :
    Accounted { s with hostMap := hosts } := by
  refine ha.replaceHosts ?_ ?_
  · intro ip host hh
    rcases h ip with hs | ⟨hn, _⟩
    · exact ha.hosts ip host (hs ▸ hh)
    · simp [hn] at hh
  · intro ip
    rcases h ip with hs | ⟨hn, hz⟩
    · exact Or.inl (by rw [hs])
    · exact Or.inr ⟨hz, fun host hh => by simp [hn] at hh⟩

theorem churn_step {s : PlannerState} {op : ChurnOp} (h : Accounted s ∧ Governed s)
    (hok : KeepsHosts s op) : Accounted (op.step s) ∧ Governed (op.step s) := by
  obtain ⟨ha, hg⟩ := h
  cases op with
  | registerHost host now ts =>
    refine ⟨registerHost_accounted ha ts hok, hg.of_governance ?_⟩
    simp only [ChurnOp.step, registerHost]
    split_ifs <;> rfl
  | removeHost host =>
    refine ⟨ha.dropHosts ?_, hg.of_governance rfl⟩
    intro ip
    rw [getElem?_erase_ite]
    split_ifs with he
    · exact Or.inr ⟨rfl, he ▸ hok.leases⟩
    · exact Or.inl rfl
  | getAvailableHosts now =>
    refine ⟨ha.dropHosts ?_, hg.of_governance rfl⟩
    intro ip
    rw [ExtTreeMap.getElem?_filter']
    cases hh : s.hostMap[ip]? with
    | none => exact Or.inl rfl
    | some host =>
      by_cases hexp : isHostExpired s.hostTimeout host now = true
      · right
        refine ⟨by simp [hexp], ?_⟩
        exact (hok (ip, host) (ExtTreeMap.mem_toList_iff_getElem?_eq_some.mpr hh) hexp).leases
      · left
        simp [hexp]
  | callBatch env req => exact @keepsBooks_step s (.callBatch env req) ⟨ha, hg⟩ hok
  | setMessageResult msg => exact @keepsBooks_step s (.setMessageResult msg) ⟨ha, hg⟩ hok

def inFlightIds (s : PlannerState) (appId : Int) : List Int :=
  (s.inFlightReqs[appId]?.map fun pair => pair.1.messageIds).getD []

structure Taken (msg : Message) (s : PlannerState) (r : Except PlannerError Unit) (s' : PlannerState) :
    Prop where
  returned : r = .ok ()
  removed : inFlightIds s' msg.appId = (inFlightIds s msg.appId).erase msg.id
  recorded : isFrozenResult msg = false → lookUpResult s' msg.appId msg.id = some msg
  frozen : isFrozenResult msg = true → s'.evictedRequests = recordedEvictions msg s

theorem Removed.taken {msg : Message} {s' : PlannerState} {pair : InFlightPair} {p : Placement}
    (h : Removed msg s pair p s') : Taken msg s (.ok ()) s' := by
  refine ⟨rfl, ?_, ?_, fun _ => h.evicted⟩
  · simp only [inFlightIds, h.running, Option.map_some, Option.getD_some, ← removedPair_messageIds]
    rw [h.inFlight]
    split_ifs with hemp
    · simp [BatchExecuteRequest.messageIds, List.isEmpty_iff.mp hemp]
    · simp
  · intro hf
    simp [lookUpResult, h.appResults, recordedResults, hf]

theorem setMessageResult_taken {msg : Message} {p : Placement} (ha : Accounted s)
    (hp : placementOf s msg.appId msg.id = some p) (hhost : p.host = msg.executedHost)
    (hheed : ¬ Ignored msg s) :
    Taken msg s (setMessageResult msg s).1 (setMessageResult msg s).2 := by
  have hok : ResultOk msg s := by
    refine Or.inr ⟨?_, ?_⟩
    · intro q hq
      rw [hp] at hq
      exact Option.some.inj hq ▸ hhost
    · intro hn
      rw [hp] at hn
      exact absurd hn (by simp)
  have heff := setMessageResult_effect ha hok
  generalize (setMessageResult msg s).1 = r, (setMessageResult msg s).2 = s' at heff
  cases heff with
  | ignored _ hig => exact absurd hig hheed
  | repeated habs _ _ _ _ =>
    rw [hp] at habs
    exact absurd habs (by simp)
  | removed h => exact h.taken

/-- While only idle hosts come and go, slots in use stay within the slots of their host,
and every result of a message in flight is taken. -/
theorem churn_keeps_accounting {s : PlannerState} {ops : List ChurnOp} (hs : FreshStart s)
    (hok : GuardedRun.Meets ChurnOp.step KeepsHosts s ops) :
    (∀ (ip : String) (h : Host), (run ChurnOp.step s ops).hostMap[ip]? = some h →
      0 ≤ h.usedSlots ∧ h.usedSlots ≤ h.slots) ∧
    ∀ (msg : Message) (p : Placement),
      placementOf (run ChurnOp.step s ops) msg.appId msg.id = some p →
      p.host = msg.executedHost → ¬ Ignored msg (run ChurnOp.step s ops) →
        Taken msg (run ChurnOp.step s ops)
          (setMessageResult msg (run ChurnOp.step s ops)).1
          (setMessageResult msg (run ChurnOp.step s ops)).2 := by
  obtain ⟨ha, _⟩ := hok.invariant (fun s op => churn_step) ⟨hs.accounted, hs.governed⟩
  refine ⟨?_, fun msg p hp hhost hheed => setMessageResult_taken ha hp hhost hheed⟩
  intro ip h hh
  have hn := ha.ledger.used_nonneg ip
  have hb := ha.ledger.bounded ip
  simp only [ledgerOf, usedOn_of_getElem? hh, slotsOn_of_getElem? hh] at hn hb
  exact ⟨hn, hb⟩

def idleExpiry : List ChurnOp :=
  [.registerHost (hostWith "A" 1) 0 0,
   .callBatch {} (requestFor 1 [plainMessage 1 7]),
   .registerHost (hostWith "A" 1) 4000 4000,
   .setMessageResult { plainMessage 1 7 with executedHost := "A" },
   .getAvailableHosts 10000,
   .registerHost (hostWith "A" 1) 11000 11000,
   .callBatch {} (requestFor 2 [plainMessage 2 8])]

theorem churn_keeps_accounting_idle :
    Taken { plainMessage 2 8 with executedHost := "A" }
      (run ChurnOp.step (plannerWith "bin-pack" []) idleExpiry)
      (setMessageResult { plainMessage 2 8 with executedHost := "A" }
        (run ChurnOp.step (plannerWith "bin-pack" []) idleExpiry)).1
      (setMessageResult { plainMessage 2 8 with executedHost := "A" }
        (run ChurnOp.step (plannerWith "bin-pack" []) idleExpiry)).2 :=
  (@churn_keeps_accounting (plannerWith "bin-pack" []) idleExpiry
    (plannerWith_fresh _ (by decide)) (by decide +kernel)).2
    { plainMessage 2 8 with executedHost := "A" } { host := "A", messageId := 8, mpiPort := 8020 }
    (by decide +kernel) (by decide) (by decide +kernel)

/-- A host that registers again after its timeout loses the slot of its live message, and
the result of a message whose host was removed is not taken. -/
theorem expiry_under_live_message :
    ((run ChurnOp.step (plannerWith "bin-pack" [])
      [.registerHost (hostWith "A" 1) 0 0,
       .callBatch {} (requestFor 1 [plainMessage 1 7]),
       .registerHost (hostWith "A" 1) 6000 6000,
       .setMessageResult { plainMessage 1 7 with executedHost := "A" }]).hostMap["A"]?.map
        Host.usedSlots = some (-1)) ∧
    (setMessageResult { plainMessage 1 7 with executedHost := "A" }
      (run ChurnOp.step (plannerWith "bin-pack" [])
        [.registerHost (hostWith "A" 1) 0 0,
         .callBatch {} (requestFor 1 [plainMessage 1 7]),
         .removeHost (hostWith "A" 1)])).1 = .error .outOfRange ∧
    inFlightIds (setMessageResult { plainMessage 1 7 with executedHost := "A" }
      (run ChurnOp.step (plannerWith "bin-pack" [])
        [.registerHost (hostWith "A" 1) 0 0,
         .callBatch {} (requestFor 1 [plainMessage 1 7]),
         .removeHost (hostWith "A" 1)])).2 1 = [7] := by
  refine ⟨by decide, by decide, by decide⟩

end Faabric
