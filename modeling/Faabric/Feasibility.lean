import Faabric.Migration

/-! What a scheduler returns: a verdict, or a placement that fits in the slots of
the hosts it was given. -/

namespace Faabric

open Std (ExtTreeMap)
open SchedulingDecision MapTotal

variable {hosts : List HostState}

def roomOn (hosts : List HostState) (ip : String) : Nat :=
  ((hosts.filter fun h => h.ip = ip).map fun h => (numSlotsAvailable h).toNat).sum

def Under (hostMap : HostMap) (slots used : String → Int) : Prop :=
  ∀ k h, hostMap[k]? = some h → h.ip = k ∧ h.slots = slots k ∧ used k ≤ h.usedSlots

def Fits (ps : List Placement) (slots used : String → Int) : Prop :=
  ∀ ip, hostCount ip ps ≤ (slots ip - used ip).toNat

structure Places (req : BatchExecuteRequest) (d : SchedulingDecision) : Prop where
  appId : d.appId = req.appId
  groupId : d.groupId = 0
  keys : d.placements.map Placement.key = req.messages.map Message.key
  counted : d.nFunctions = d.placements.length
  ports : ∀ p ∈ d.placements, p.mpiPort = 0

/-! Rooms. -/

theorem roomOn_subperm {hosts' : List HostState} (h : hosts.Subperm hosts') (ip : String) :
    roomOn hosts ip ≤ roomOn hosts' ip := by
  obtain ⟨l, hp, hs⟩ := h
  rw [roomOn, ← ((hp.filter _).map _).sum_eq]
  exact ((hs.filter _).map _).sum_le_sum (by simp)

theorem roomOn_of_mem {h : HostState} (hm : h ∈ hosts) :
    (numSlotsAvailable h).toNat ≤ roomOn hosts h.ip :=
  List.single_le_sum (by simp) _
    (List.mem_map_of_mem (List.mem_filter.mpr ⟨hm, by simp⟩))

theorem sortHosts_perm (isFirst : HostState → HostState → Bool) (hosts : List HostState) :
    (sortHosts isFirst hosts).Perm hosts :=
  List.perm_insertionSort _ _

variable {M : HostMap} {slots used : String → Int}

theorem Under.mono {M' : HostMap} (h : Under M slots used)
    (hs : ∀ (k : String) (host : HostState), M'[k]? = some host → M[k]? = some host) : Under M' slots used :=
  fun k host hk => h k host (hs k host hk)

theorem Under.room_le (h : Under M slots used) (ip : String) :
    roomOn (hostList M) ip ≤ (slots ip - used ip).toNat := by
  have hall : ∀ e ∈ M.toList.filter (fun e => e.2.ip = ip), e.1 = ip ∧
      (numSlotsAvailable e.2).toNat ≤ (slots ip - used ip).toNat := by
    rintro ⟨k, host⟩ hm
    obtain ⟨hm, he⟩ := List.mem_filter.mp hm
    obtain ⟨hip, hsl, hu⟩ := h k host (ExtTreeMap.mem_toList_iff_getElem?_eq_some.mp hm)
    have hk : k = ip := by
      rw [← hip]
      exact of_decide_eq_true he
    subst hk
    refine ⟨rfl, ?_⟩
    simp only [numSlotsAvailable, hsl]
    omega
  have hkeys : (M.toList.filter fun e => e.2.ip = ip).Pairwise fun a b => a.1 ≠ b.1 := by
    refine (M.distinct_keys_toList.imp ?_).filter _
    intro a b hab he
    exact hab (by simp [he])
  have hroom : roomOn (hostList M) ip =
      ((M.toList.filter fun e => e.2.ip = ip).map fun e => (numSlotsAvailable e.2).toNat).sum := by
    simp [roomOn, hostList, List.filter_map, Function.comp_def]
  rw [hroom]
  cases hf : M.toList.filter fun e => e.2.ip = ip with
  | nil => simp
  | cons e es =>
    rw [hf] at hall hkeys
    have hes : es = [] := by
      refine List.eq_nil_iff_forall_not_mem.mpr ?_
      intro e' he'
      refine (List.pairwise_cons.mp hkeys).1 e' he' ?_
      rw [(hall e (by simp)).1, (hall e' (by simp [he'])).1]
    subst hes
    simpa using (hall e (by simp)).2

theorem Under.freeAppSlots (h : Under M slots used) (h0 : ∀ k, 0 ≤ used k)
    (freq : ExtTreeMap String Int compare) :
    Under (freeAppSlots freq M) slots fun k => max 0 (used k - slotsLeft freq k) := by
  intro k host hk
  simp only [Faabric.freeAppSlots, ExtTreeMap.getElem?_map, Option.map_eq_some_iff] at hk
  obtain ⟨host', hk', rfl⟩ := hk
  obtain ⟨hip, hsl, hu⟩ := h k host' hk'
  have hnon := h0 k
  cases hf : freq[host'.ip]? with
  | none =>
    refine ⟨hip, hsl, ?_⟩
    rw [hip] at hf
    simp only [slotsLeft, hf, Option.getD_none]
    omega
  | some n =>
    refine ⟨hip, hsl, ?_⟩
    rw [hip] at hf
    simp only [slotsLeft, hf, Option.getD_some, freeSlots]
    omega

/-! The bin-packing loop. -/

theorem decisionFor_eq (appId : Int) (assigned : List (HostState × Message)) :
    decisionFor appId assigned =
      { appId
        groupId := 0
        nFunctions := assigned.length
        placements := assigned.map fun e =>
          { host := e.1.ip, messageId := e.2.id, appIdx := e.2.appIdx, groupIdx := e.2.groupIdx } } := by
  suffices h : ∀ d : SchedulingDecision,
      assigned.foldl (fun d e => d.addMessageOf e.1.ip e.2) d =
        { d with
          nFunctions := d.nFunctions + assigned.length
          placements := d.placements ++ assigned.map fun e =>
            { host := e.1.ip, messageId := e.2.id, appIdx := e.2.appIdx, groupIdx := e.2.groupIdx } } by
    simp [decisionFor, h]
  induction assigned with
  | nil => simp
  | cons e es ih =>
    intro d
    rw [List.foldl_cons, ih]
    simp [addMessageOf, addMessage, push]
    omega

theorem assignSlots_places {req : BatchExecuteRequest}
    (h : (assignSlots hosts req.messages).2 = []) :
    Places req (decisionFor req.appId (assignSlots hosts req.messages).1) := by
  have hm : (assignSlots hosts req.messages).1.map Prod.snd = req.messages :=
    FirstFit.fill_length_of_fits h
  rw [decisionFor_eq]
  refine ⟨rfl, rfl, ?_, by simp, ?_⟩
  · conv_rhs => rw [← hm]
    simp [Placement.key, Message.key, Function.comp_def]
  · intro p hp
    obtain ⟨e, _, rfl⟩ := List.mem_map.mp hp
    rfl

theorem assignSlots_count_le (hosts : List HostState) (appId : Int) (messages : List Message)
    (ip : String) :
    hostCount ip (decisionFor appId (assignSlots hosts messages).1).placements ≤ roomOn hosts ip := by
  have hc := FirstFit.fill_count_le (fun h => (numSlotsAvailable h).toNat) (fun h => h.ip = ip)
    hosts messages
  rw [decisionFor_eq]
  simpa [hostCount, List.countP_map, Function.comp_def, roomOn, assignSlots] using hc

theorem Under.fits_assigned (h : Under M slots used) (hp : hosts.Subperm (hostList M)) (appId : Int)
    (messages : List Message) :
    Fits (decisionFor appId (assignSlots hosts messages).1).placements slots used := by
  intro ip
  exact ((assignSlots_count_le hosts appId messages ip).trans (roomOn_subperm hp ip)).trans
    (h.room_le ip)

def usedWithout (old : SchedulingDecision) (used : String → Int) (ip : String) : Int :=
  max 0 (used ip - hostCount ip old.placements)

theorem Under.freed (h : Under M slots used) (h0 : ∀ k, 0 ≤ used k) {inFlightReqs : InFlightReqs}
    {req oldReq : BatchExecuteRequest} {old : SchedulingDecision}
    (hold : inFlightReqs[req.appId]? = some (oldReq, old)) :
    Under (Faabric.freeAppSlots (oldHostFreqCount inFlightReqs req) M) slots
      (usedWithout old used) := by
  have hf : oldHostFreqCount inFlightReqs req = getHostFreqCount old := by
    simp [oldHostFreqCount, hold]
  have hu := h.freeAppSlots h0 (getHostFreqCount old)
  simp only [getHostFreqCount_slotsLeft] at hu
  rw [hf]
  exact hu

def IsVerdict (d : SchedulingDecision) : Prop :=
  d = NOT_ENOUGH_SLOTS_DECISION ∨ d = DO_NOT_MIGRATE_DECISION ∨ d = MUST_FREEZE_DECISION

def Moved (old d : SchedulingDecision) (slots used : String → Int) : Prop :=
  Rehosts old d ∧ Fits d.placements slots (usedWithout old used)

theorem minimiseNumOfMigrations_moved {new old d : SchedulingDecision}
    (hf : Fits new.placements slots (usedWithout old used)) (hne : ∀ p ∈ old.placements, p.host ≠ "")
    (h : minimiseNumOfMigrations new old = .ok d) : Moved old d slots used := by
  obtain ⟨hr, hle⟩ := minimiseNumOfMigrations_spec hne h
  exact ⟨hr, fun ip => (hle ip).trans (hf ip)⟩

/-! The schedulers, one by one. -/

section Schedulers

variable {M : HostMap} {slots used : String → Int} {inFlightReqs : InFlightReqs}
  {req oldReq : BatchExecuteRequest} {old d : SchedulingDecision}

theorem considerHosts_subperm {hosts' : List HostState}
    (h : BinPack.considerHosts req hosts = .ok hosts') : hosts'.Subperm hosts := by
  unfold BinPack.considerHosts at h
  split at h
  · cases hosts with
    | nil => exact absurd h (by simp)
    | cons host hosts =>
      obtain rfl := Except.ok.inj h
      exact List.Sublist.subperm (by simp)
  · obtain rfl := Except.ok.inj h
    exact List.Subperm.refl _

theorem BinPack.places (hM : Under M slots used)
    (hd : getDecisionType inFlightReqs req ≠ .distChange)
    (h : BinPack.makeSchedulingDecision M inFlightReqs req = .ok d) :
    d = NOT_ENOUGH_SLOTS_DECISION ∨ Places req d ∧ Fits d.placements slots used := by
  unfold BinPack.makeSchedulingDecision at h
  dsimp only at h
  split at h
  · exact absurd h (by simp)
  · rename_i hosts hc
    have hsub : hosts.Subperm (hostList M) := by
      refine (considerHosts_subperm hc).trans ?_
      cases ht : getDecisionType inFlightReqs req with
      | new => exact (sortHosts_perm _ _).subperm
      | scaleChange => exact (sortHosts_perm _ _).subperm
      | distChange => exact absurd ht hd
    split at h
    · exact .inl (Except.ok.inj h).symm
    · rename_i hfit
      obtain rfl := Except.ok.inj h
      exact .inr ⟨assignSlots_places (not_not.mp hfit), hM.fits_assigned hsub _ _⟩

theorem BinPack.moves (hM : Under M slots used) (h0 : ∀ k, 0 ≤ used k)
    (hd : getDecisionType inFlightReqs req = .distChange)
    (hold : inFlightReqs[req.appId]? = some (oldReq, old))
    (hne : ∀ p ∈ old.placements, p.host ≠ "")
    (h : BinPack.makeSchedulingDecision M inFlightReqs req = .ok d) :
    IsVerdict d ∨ Moved old d slots used := by
  unfold BinPack.makeSchedulingDecision at h
  dsimp only at h
  rw [hd, hold] at h
  split at h
  · exact absurd h (by simp)
  · rename_i hosts hc
    have hsub := (considerHosts_subperm hc).trans (sortHosts_perm _ _).subperm
    split at h
    · exact .inl (.inl (Except.ok.inj h).symm)
    · simp only [if_true] at h
      split at h
      · exact .inr (minimiseNumOfMigrations_moved ((hM.freed h0 hold).fits_assigned hsub _ _) hne h)
      · exact .inl (.inr (.inl (Except.ok.inj h).symm))

def usedByAnotherTenant (inFlightReqs : InFlightReqs) (req : BatchExecuteRequest) (host : String) :
    Bool :=
  inFlightReqs.toList.any fun e => e.2.1.subType ≠ req.subType ∧ host ∈ e.2.2.hosts

theorem Compact.filterHosts_eq (M : HostMap) (inFlightReqs : InFlightReqs) (req : BatchExecuteRequest) :
    Compact.filterHosts M inFlightReqs req =
      M.filter fun k _ => !usedByAnotherTenant inFlightReqs req k := by
  have herase : ∀ (hosts : List String) (m : HostMap),
      hosts.foldl (fun m host => m.erase host) m = m.filter fun k _ => !decide (k ∈ hosts) := by
    intro hosts
    induction hosts with
    | nil =>
      intro m
      apply ExtTreeMap.ext_getElem?
      intro k
      rw [getElem?_filter_key]
      simp
    | cons x hosts ih =>
      intro m
      rw [List.foldl_cons, ih]
      apply ExtTreeMap.ext_getElem?
      intro k
      rw [getElem?_filter_key, getElem?_filter_key, getElem?_erase_ite]
      by_cases hx : x = k
      · simp [hx]
      · simp [hx, Ne.symm hx]
  have happs : ∀ (apps : List (Int × InFlightPair)) (m : HostMap),
      apps.foldl (fun m e => if e.2.1.subType = req.subType then m
        else e.2.2.hosts.foldl (fun m host => m.erase host) m) m =
      m.filter fun k _ => !apps.any fun e => e.2.1.subType ≠ req.subType ∧ k ∈ e.2.2.hosts := by
    intro apps
    induction apps with
    | nil =>
      intro m
      apply ExtTreeMap.ext_getElem?
      intro k
      rw [getElem?_filter_key]
      simp
    | cons app apps ih =>
      intro m
      rw [List.foldl_cons, ih]
      apply ExtTreeMap.ext_getElem?
      intro k
      rw [getElem?_filter_key, getElem?_filter_key, List.any_cons]
      by_cases hsub : app.2.1.subType = req.subType
      · rw [if_pos hsub, decide_eq_false (fun h => h.1 hsub), Bool.false_or]
      · rw [if_neg hsub, herase, getElem?_filter_key]
        by_cases hk : k ∈ app.2.2.hosts
        · simp [hk, hsub]
        · rw [decide_eq_false (fun h : _ ∧ _ => hk h.2), Bool.false_or]
          simp [hk]
  exact happs _ _

theorem Compact.filterHosts_spec {k : String} {host : HostState}
    (h : (Compact.filterHosts M inFlightReqs req)[k]? = some host) :
    M[k]? = some host ∧ ∀ (app : Int) (pair : InFlightPair), inFlightReqs[app]? = some pair →
      pair.1.subType ≠ req.subType → k ∉ pair.2.hosts := by
  rw [Compact.filterHosts_eq, getElem?_filter_key] at h
  split_ifs at h with hused
  refine ⟨h, ?_⟩
  intro app pair hp hsub hk
  have hother : usedByAnotherTenant inFlightReqs req k = true := by
    rw [usedByAnotherTenant, List.any_eq_true]
    exact ⟨(app, pair), ExtTreeMap.mem_toList_iff_getElem?_eq_some.mpr hp, by simp [hsub, hk]⟩
  simp [hother] at hused

theorem Compact.places (hM : Under M slots used)
    (hd : getDecisionType inFlightReqs req ≠ .distChange)
    (h : Compact.makeSchedulingDecision M inFlightReqs req = .ok d) :
    d = NOT_ENOUGH_SLOTS_DECISION ∨ Places req d ∧ Fits d.placements slots used := by
  have hM' : Under (Compact.filterHosts M inFlightReqs req) slots used :=
    hM.mono fun _ _ hk => (Compact.filterHosts_spec hk).1
  unfold Compact.makeSchedulingDecision at h
  dsimp only at h
  split at h
  · exact .inl (Except.ok.inj h).symm
  · rename_i hfit
    obtain rfl := Except.ok.inj h
    refine .inr ⟨assignSlots_places (not_not.mp hfit), hM'.fits_assigned ?_ _ _⟩
    cases ht : getDecisionType inFlightReqs req with
    | new => exact (sortHosts_perm _ _).subperm
    | scaleChange => exact (sortHosts_perm _ _).subperm
    | distChange => exact absurd ht hd

theorem Compact.moves (hM : Under M slots used) (h0 : ∀ k, 0 ≤ used k)
    (hd : getDecisionType inFlightReqs req = .distChange)
    (hold : inFlightReqs[req.appId]? = some (oldReq, old))
    (hne : ∀ p ∈ old.placements, p.host ≠ "")
    (h : Compact.makeSchedulingDecision M inFlightReqs req = .ok d) :
    IsVerdict d ∨ Moved old d slots used := by
  have hM' : Under (Compact.filterHosts M inFlightReqs req) slots used :=
    hM.mono fun _ _ hk => (Compact.filterHosts_spec hk).1
  unfold Compact.makeSchedulingDecision at h
  dsimp only at h
  rw [hd, hold] at h
  split at h
  · exact .inl (.inl (Except.ok.inj h).symm)
  · simp only [if_true] at h
    split at h
    · exact .inr (minimiseNumOfMigrations_moved
        ((hM'.freed h0 hold).fits_assigned (sortHosts_perm _ _).subperm _ _) hne h)
    · exact .inl (.inr (.inl (Except.ok.inj h).symm))

theorem Spot.places (hM : Under (Spot.filterHosts M).1 slots used)
    (hd : getDecisionType inFlightReqs req ≠ .distChange)
    (h : Spot.makeSchedulingDecision M inFlightReqs req = .ok d) :
    d = NOT_ENOUGH_SLOTS_DECISION ∨ Places req d ∧ Fits d.placements slots used := by
  unfold Spot.makeSchedulingDecision at h
  dsimp only at h
  rw [if_neg hd] at h
  split at h
  · exact .inl (Except.ok.inj h).symm
  · rename_i hfit
    obtain rfl := Except.ok.inj h
    refine .inr ⟨assignSlots_places (not_not.mp hfit), hM.fits_assigned ?_ _ _⟩
    cases ht : getDecisionType inFlightReqs req with
    | new => exact (sortHosts_perm _ _).subperm
    | scaleChange => exact (sortHosts_perm _ _).subperm
    | distChange => exact absurd ht hd

theorem Spot.moves (hM : Under (Spot.filterHosts M).1 slots used) (h0 : ∀ k, 0 ≤ used k)
    (hd : getDecisionType inFlightReqs req = .distChange)
    (hold : inFlightReqs[req.appId]? = some (oldReq, old))
    (hne : ∀ p ∈ old.placements, p.host ≠ "")
    (h : Spot.makeSchedulingDecision M inFlightReqs req = .ok d) :
    IsVerdict d ∨ Moved old d slots used := by
  unfold Spot.makeSchedulingDecision at h
  dsimp only at h
  rw [hd, hold] at h
  simp only [if_true] at h
  split at h
  · exact .inl (.inr (.inr (Except.ok.inj h).symm))
  · split at h
    · exact .inr (minimiseNumOfMigrations_moved
        ((hM.freed h0 hold).fits_assigned (sortHosts_perm _ _).subperm _ _) hne h)
    · exact .inl (.inr (.inl (Except.ok.inj h).symm))

theorem ForcedMigration.places (hM : Under M slots used) {checks : Int}
    (hd : getDecisionType inFlightReqs req ≠ .distChange)
    (h : ForcedMigration.makeSchedulingDecision checks M inFlightReqs req = .ok d) :
    d = NOT_ENOUGH_SLOTS_DECISION ∨ Places req d ∧ Fits d.placements slots used := by
  unfold ForcedMigration.makeSchedulingDecision ForcedMigration.getSortedHosts at h
  dsimp only at h
  simp only [if_neg hd] at h
  split at h
  · exact .inl (Except.ok.inj h).symm
  · rename_i hfit
    obtain rfl := Except.ok.inj h
    exact .inr ⟨assignSlots_places (not_not.mp hfit),
      hM.fits_assigned (sortHosts_perm _ _).subperm _ _⟩

theorem ForcedMigration.moves (hM : Under M slots used) (h0 : ∀ k, 0 ≤ used k) {checks : Int}
    (hd : getDecisionType inFlightReqs req = .distChange)
    (hold : inFlightReqs[req.appId]? = some (oldReq, old))
    (h : ForcedMigration.makeSchedulingDecision checks M inFlightReqs req = .ok d) :
    IsVerdict d ∨ Moved old d slots used := by
  unfold ForcedMigration.makeSchedulingDecision ForcedMigration.getSortedHosts at h
  dsimp only at h
  simp only [hd, hold, if_true] at h
  split at h
  · exact .inl (.inr (.inl (Except.ok.inj h).symm))
  · split at h
    · exact absurd h (by simp)
    · rename_i rotated hrot
      split at h
      · obtain rfl := Except.ok.inj h
        obtain ⟨hr, hle⟩ := rotatePlacement_spec hrot
        refine .inr ⟨hr, ?_⟩
        intro ip
        by_cases hz : hostCount ip rotated.placements = 0
        · omega
        · obtain ⟨host, hm, rfl, hc⟩ := hle ip hz
          have hin := (sortHosts_perm _ _).mem_iff.mp hm
          have hroom := (roomOn_of_mem hin).trans ((hM.freed h0 hold).room_le host.ip)
          omega
      · exact .inl (.inr (.inl (Except.ok.inj h).symm))

theorem ServiceLocality.rpc_moves (hM : Under M slots used) (h0 : ∀ k, 0 ≤ used k)
    {graph : RpcDependencyGraph} {now : Int}
    (hkeys : old.placements.map Placement.key = req.messages.map Message.key)
    (h : ServiceLocality.makeRpcMigrationDecision graph now M req = d) :
    IsVerdict d ∨ Moved old d slots used := by
  unfold ServiceLocality.makeRpcMigrationDecision at h
  split at h
  · rename_i m hm
    dsimp only at h
    split at h
    · exact .inl (.inr (.inl h.symm))
    · rename_i target ht
      subst h
      have hcap := (RpcDependencyGraph.recommendHost_spec ht).1
      right
      refine ⟨⟨?_, by simp [addMessageOf, addMessage,
        push]⟩, ?_⟩
      · rw [hkeys, hm]
        rfl
      · intro ip
        unfold RpcDependencyGraph.hostHasCapacity at hcap
        split at hcap
        · exact absurd hcap (by simp)
        · rename_i host hhost
          obtain ⟨_, hsl, hu⟩ := hM target host hhost
          have hp := of_decide_eq_true hcap
          have hnon := h0 target
          by_cases he : target = ip
          · subst he
            simp only [addMessageOf, addMessage,
              push, List.nil_append, hostCount_cons, if_true, hostCount_nil,
              usedWithout]
            omega
          · simp [addMessageOf, addMessage,
              push, hostCount_cons, he]
  · exact .inl (.inr (.inl h.symm))

end Schedulers

namespace SchedulerMode

def usableHosts (mode : SchedulerMode) (hostMap : HostMap) : HostMap :=
  if mode = .spot then (Spot.filterHosts hostMap).1 else hostMap

variable {M : HostMap} {slots used : String → Int} {inFlightReqs : InFlightReqs}
  {req oldReq : BatchExecuteRequest} {old d : SchedulingDecision}
  {checks now : Int} {graph : RpcDependencyGraph}

theorem places {mode : SchedulerMode} (hM : Under (mode.usableHosts M) slots used)
    (hd : getDecisionType inFlightReqs req ≠ .distChange)
    (h : mode.makeSchedulingDecision checks graph now M inFlightReqs req = .ok d) :
    d = NOT_ENOUGH_SLOTS_DECISION ∨ Places req d ∧ Fits d.placements slots used := by
  cases mode with
  | binPack => exact BinPack.places hM hd h
  | compact => exact Compact.places hM hd h
  | spot => exact Spot.places hM hd h
  | force => exact ForcedMigration.places hM hd h
  | service =>
    have hr : ServiceLocality.isRpcServiceMigration inFlightReqs req = false := by
      simp [ServiceLocality.isRpcServiceMigration, hd]
    simp only [makeSchedulingDecision, ServiceLocality.makeSchedulingDecision, hr] at h
    exact BinPack.places hM hd h

theorem moves {mode : SchedulerMode} (hM : Under (mode.usableHosts M) slots used)
    (h0 : ∀ k, 0 ≤ used k) (hd : getDecisionType inFlightReqs req = .distChange)
    (hold : inFlightReqs[req.appId]? = some (oldReq, old))
    (hkeys : old.placements.map Placement.key = req.messages.map Message.key)
    (hne : ∀ p ∈ old.placements, p.host ≠ "")
    (h : mode.makeSchedulingDecision checks graph now M inFlightReqs req = .ok d) :
    IsVerdict d ∨ Moved old d slots used := by
  cases mode with
  | binPack => exact BinPack.moves hM h0 hd hold hne h
  | compact => exact Compact.moves hM h0 hd hold hne h
  | spot => exact Spot.moves hM h0 hd hold hne h
  | force => exact ForcedMigration.moves hM h0 hd hold h
  | service =>
    simp only [makeSchedulingDecision, ServiceLocality.makeSchedulingDecision] at h
    split at h
    · exact ServiceLocality.rpc_moves hM h0 hkeys (Except.ok.inj h)
    · exact BinPack.moves hM h0 hd hold hne h

end SchedulerMode

end Faabric
