import Faabric.Feasibility

/-! Placing a new app or more messages of a running one. A scheduler places all messages on
the hosts it may use whenever these have a slot for each, and says that there are not enough
slots otherwise. -/

namespace Faabric

open Std (ExtTreeMap)
open SchedulerMode BinPack MapTotal

variable {hosts : List HostState}

def KeyedByIp (hostMap : HostMap) : Prop :=
  ∀ (k : String) (h : HostState), hostMap[k]? = some h → h.ip = k

def availableSlots (hosts : List HostState) : Int := (hosts.map numSlotsAvailable).sum

def SchedulerMode.mayUse (mode : SchedulerMode) (hostMap : HostMap) (inFlightReqs : InFlightReqs)
    (req : BatchExecuteRequest) : List HostState :=
  match mode with
  | .binPack | .service =>
    if req.singleHostHint && req.isOmp then
      (getSortedHosts hostMap inFlightReqs req (getDecisionType inFlightReqs req)).take 1
    else hostList hostMap
  | .compact => hostList (hostMap.filter fun k _ => !usedByAnotherTenant inFlightReqs req k)
  | .spot => hostList (hostMap.filter fun _ h => h.ip ≠ MUST_EVICT_IP)
  | .force => hostList hostMap

/-- All messages are placed on the hosts, in order and within their available slots, unless
there are fewer slots than messages. -/
structure PlacesSoundly (hosts : List HostState) (req : BatchExecuteRequest)
    (result : Except PlannerError SchedulingDecision) : Prop where
  notEnough : result = .ok NOT_ENOUGH_SLOTS_DECISION ↔ availableSlots hosts < req.messages.length
  placed : req.messages.length ≤ availableSlots hosts →
    ∃ d, result = .ok d ∧ Places req d ∧ (∀ p ∈ d.placements, ∃ h ∈ hosts, h.ip = p.host) ∧
      ∀ h ∈ hosts, hostCount h.ip d.placements ≤ numSlotsAvailable h

/-! The hosts. -/

theorem availableSlots_eq (hosts : List HostState) :
    availableSlots hosts = ((hosts.map fun h => (numSlotsAvailable h).toNat).sum : Nat) := by
  induction hosts with
  | nil => rfl
  | cons h hosts ih =>
    have hnon : 0 ≤ numSlotsAvailable h := Int.le_max_left _ _
    simp only [availableSlots, List.map_cons, List.sum_cons] at ih ⊢
    rw [ih, Nat.cast_add, Int.toNat_of_nonneg hnon]

theorem availableSlots_perm {hosts' : List HostState} (h : hosts.Perm hosts') :
    availableSlots hosts = availableSlots hosts' :=
  (h.map _).sum_eq

theorem KeyedByIp.nodup {M : HostMap} (h : KeyedByIp M) : ((hostList M).map HostState.ip).Nodup := by
  have hkeys : (M.toList.map Prod.fst).Nodup := by
    refine (List.pairwise_map.mpr (M.distinct_keys_toList.imp ?_))
    intro a b hab he
    exact hab (by simp [he])
  have hmap : (hostList M).map HostState.ip = M.toList.map Prod.fst := by
    rw [hostList, List.map_map]
    apply List.map_congr_left
    rintro ⟨k, host⟩ hm
    exact h k host (ExtTreeMap.mem_toList_iff_getElem?_eq_some.mp hm)
  rw [hmap]
  exact hkeys

theorem KeyedByIp.filter {M : HostMap} (h : KeyedByIp M) (p : String → HostState → Bool) :
    KeyedByIp (M.filter p) := by
  intro k host hk
  rw [ExtTreeMap.getElem?_filter', Option.filter_eq_some_iff] at hk
  exact h k host hk.1

theorem roomOn_of_nodup (hn : (hosts.map HostState.ip).Nodup) {h : HostState} (hm : h ∈ hosts)
    : roomOn hosts h.ip = (numSlotsAvailable h).toNat := by
  induction hosts with
  | nil => simp at hm
  | cons host hosts ih =>
    rw [List.map_cons, List.nodup_cons] at hn
    rcases List.mem_cons.mp hm with rfl | hm
    · have hrest : hosts.filter (fun h' => h'.ip = h.ip) = [] := by
        rw [List.filter_eq_nil_iff]
        intro h' hh' he
        exact hn.1 (List.mem_map.mpr ⟨h', hh', of_decide_eq_true he⟩)
      simp [roomOn, hrest]
    · have hne : host.ip ≠ h.ip := fun he => hn.1 (he ▸ List.mem_map_of_mem hm)
      have hroom := ih hn.2 hm
      simpa [roomOn, hne] using hroom

/-! Filling them. -/

def fillHosts (sortedHosts : List HostState) (req : BatchExecuteRequest) : SchedulingDecision :=
  if (assignSlots sortedHosts req.messages).2 ≠ [] then NOT_ENOUGH_SLOTS_DECISION
  else decisionFor req.appId (assignSlots sortedHosts req.messages).1

theorem assignSlots_fits_iff (hosts : List HostState) (messages : List Message) :
    (assignSlots hosts messages).2 = [] ↔ messages.length ≤ availableSlots hosts := by
  rw [availableSlots_eq, Nat.cast_le]
  exact FirstFit.fill_fits_iff _ hosts messages

theorem decisionFor_ne_notEnough (appId : Int) (assigned : List (HostState × Message)) :
    decisionFor appId assigned ≠ NOT_ENOUGH_SLOTS_DECISION := by
  rw [decisionFor_eq]
  intro h
  have hgroup : (0 : Int) = -99 := congrArg SchedulingDecision.groupId h
  omega

theorem fillHosts_places {sortedHosts : List HostState} (hperm : sortedHosts.Perm hosts)
    (hn : (hosts.map HostState.ip).Nodup) (req : BatchExecuteRequest) :
    PlacesSoundly hosts req (.ok (fillHosts sortedHosts req)) := by
  have hfits : (assignSlots sortedHosts req.messages).2 = [] ↔
      req.messages.length ≤ availableSlots hosts := by
    rw [assignSlots_fits_iff, availableSlots_perm hperm]
  constructor
  · rw [Except.ok.injEq, ← not_le, ← hfits, fillHosts]
    by_cases hleft : (assignSlots sortedHosts req.messages).2 = []
    · simp [hleft, decisionFor_ne_notEnough]
    · simp [hleft]
  · intro hroom
    have hleft := hfits.mpr hroom
    refine ⟨decisionFor req.appId (assignSlots sortedHosts req.messages).1, ?_,
      assignSlots_places hleft, ?_, ?_⟩
    · rw [fillHosts, if_neg (not_not.mpr hleft)]
    · intro p hp
      rw [decisionFor_eq] at hp
      obtain ⟨e, he, rfl⟩ := List.mem_map.mp hp
      exact ⟨e.1, hperm.mem_iff.mp (FirstFit.fill_bin_mem he), rfl⟩
    · intro h hm
      have hle := assignSlots_count_le sortedHosts req.appId req.messages h.ip
      have hnon : 0 ≤ numSlotsAvailable h := Int.le_max_left _ _
      have hroomOn := roomOn_subperm hperm.subperm h.ip
      rw [roomOn_of_nodup hn hm] at hroomOn
      omega

/-! The schedulers. -/

section Schedulers

variable {M : HostMap} {inFlightReqs : InFlightReqs} {req : BatchExecuteRequest}

theorem getSortedHosts_perm (hd : getDecisionType inFlightReqs req ≠ .distChange) :
    (getSortedHosts M inFlightReqs req (getDecisionType inFlightReqs req)).Perm (hostList M) := by
  cases ht : getDecisionType inFlightReqs req with
  | new => exact sortHosts_perm _ _
  | scaleChange => exact sortHosts_perm _ _
  | distChange => exact absurd ht hd

theorem BinPack.makeSchedulingDecision_eq (hd : getDecisionType inFlightReqs req ≠ .distChange)
    (hc : considerHosts req
      (getSortedHosts M inFlightReqs req (getDecisionType inFlightReqs req)) = .ok hosts) :
    makeSchedulingDecision M inFlightReqs req = .ok (fillHosts hosts req) := by
  simp only [makeSchedulingDecision, hc, hd, if_false, fillHosts]
  split_ifs <;> rfl

theorem BinPack.places_soundly_unless (hM : KeyedByIp M)
    (hd : getDecisionType inFlightReqs req ≠ .distChange) :
    PlacesSoundly (mayUse .binPack M inFlightReqs req) req
        (makeSchedulingDecision M inFlightReqs req) ↔
      ¬ (hostList M = [] ∧ req.singleHostHint = true ∧ req.isOmp = true) := by
  have hsort := getSortedHosts_perm (M := M) hd
  have hn := hM.nodup
  have hn' := (hsort.map HostState.ip).nodup_iff.mpr hn
  by_cases hsingle : (req.singleHostHint && req.isOmp) = true
  · simp only [mayUse, hsingle, if_true]
    have hboth := Bool.and_eq_true_iff.mp hsingle
    cases hs : getSortedHosts M inFlightReqs req (getDecisionType inFlightReqs req) with
    | nil =>
      -- `erase(begin() + 1, end())` on no hosts; an OpenMP request has a message to place.
      rw [hs] at hsort
      have hempty : hostList M = [] := hsort.symm.eq_nil
      have hfail : makeSchedulingDecision M inFlightReqs req = .error .undefinedBehaviour := by
        simp only [makeSchedulingDecision, hs, considerHosts, hsingle, if_true]
      have hmsgs : 0 < req.messages.length := by
        rw [List.length_pos_iff]
        intro hnil
        simp [BatchExecuteRequest.isOmp, hnil] at hboth
      simp only [hempty, hboth, and_self, not_true_eq_false, iff_false]
      intro h
      have hnone := h.notEnough.mpr (by simpa [availableSlots] using hmsgs)
      rw [hfail] at hnone
      exact absurd hnone (by simp)
    | cons first hosts =>
      rw [hs] at hsort hn'
      have hne : hostList M ≠ [] := by
        intro hnil
        rw [hnil] at hsort
        simpa using hsort.length_eq
      have hc : considerHosts req (getSortedHosts M inFlightReqs req
          (getDecisionType inFlightReqs req)) = .ok [first] := by
        simp only [hs, considerHosts, hsingle, if_true]
      rw [makeSchedulingDecision_eq hd hc]
      simp only [hne, false_and, not_false_eq_true, iff_true]
      exact fillHosts_places (List.Perm.refl [first]) (by simp) req
  · simp only [mayUse, hsingle, if_false, Bool.false_eq_true]
    have hc : considerHosts req (getSortedHosts M inFlightReqs req
        (getDecisionType inFlightReqs req)) =
        .ok (getSortedHosts M inFlightReqs req (getDecisionType inFlightReqs req)) := by
      rw [considerHosts.eq_def, if_neg hsingle]
    rw [makeSchedulingDecision_eq hd hc]
    have hother : ¬ (hostList M = [] ∧ req.singleHostHint = true ∧ req.isOmp = true) :=
      fun h => hsingle (Bool.and_eq_true_iff.mpr h.2)
    simp only [hother, not_false_eq_true, iff_true]
    exact fillHosts_places hsort hn req

theorem Compact.places_soundly (hM : KeyedByIp M)
    (hd : getDecisionType inFlightReqs req ≠ .distChange) :
    PlacesSoundly (mayUse .compact M inFlightReqs req) req
      (Compact.makeSchedulingDecision M inFlightReqs req) := by
  have heq : Compact.makeSchedulingDecision M inFlightReqs req =
      .ok (fillHosts (Compact.getSortedHosts (Compact.filterHosts M inFlightReqs req) inFlightReqs req
        (getDecisionType inFlightReqs req)) req) := by
    simp only [Compact.makeSchedulingDecision, hd, if_false, fillHosts]
    split_ifs <;> rfl
  rw [heq, Compact.filterHosts_eq]
  refine fillHosts_places ?_ (hM.filter _).nodup req
  cases ht : getDecisionType inFlightReqs req with
  | new => exact sortHosts_perm _ _
  | scaleChange => exact sortHosts_perm _ _
  | distChange => exact absurd ht hd

theorem Spot.places_soundly (hM : KeyedByIp (Spot.filterHosts M).1)
    (hd : getDecisionType inFlightReqs req ≠ .distChange) :
    PlacesSoundly (mayUse .spot M inFlightReqs req) req
      (Spot.makeSchedulingDecision M inFlightReqs req) := by
  have heq : Spot.makeSchedulingDecision M inFlightReqs req =
      .ok (fillHosts (Spot.getSortedHosts (Spot.filterHosts M).1 inFlightReqs req
        (getDecisionType inFlightReqs req)) req) := by
    simp only [Spot.makeSchedulingDecision, hd, if_false, fillHosts]
    split_ifs <;> rfl
  rw [heq]
  refine fillHosts_places ?_ hM.nodup req
  cases ht : getDecisionType inFlightReqs req with
  | new => exact sortHosts_perm _ _
  | scaleChange => exact sortHosts_perm _ _
  | distChange => exact absurd ht hd

theorem ForcedMigration.places_soundly (hM : KeyedByIp M) (checks : Int)
    (hd : getDecisionType inFlightReqs req ≠ .distChange) :
    PlacesSoundly (mayUse .force M inFlightReqs req) req
      (ForcedMigration.makeSchedulingDecision checks M inFlightReqs req) := by
  have heq : ForcedMigration.makeSchedulingDecision checks M inFlightReqs req =
      .ok (fillHosts (sortHosts isFirstHostLarger (hostList M)) req) := by
    simp only [ForcedMigration.makeSchedulingDecision, ForcedMigration.getSortedHosts, hd, if_false,
      fillHosts]
    split_ifs <;> rfl
  rw [heq]
  exact fillHosts_places (sortHosts_perm _ _) hM.nodup req

end Schedulers

/-- A new app, or more messages of a running one, are placed soundly and completely by every
scheduler, except that bin-packing an OpenMP request on a single host needs a host. -/
theorem SchedulerMode.places_soundly_iff (mode : SchedulerMode) (checks : Int)
    (graph : RpcDependencyGraph) (now : Int) {M : HostMap} (hM : KeyedByIp (mode.usableHosts M))
    {inFlightReqs : InFlightReqs} {req : BatchExecuteRequest}
    (hd : getDecisionType inFlightReqs req ≠ .distChange) :
    PlacesSoundly (mode.mayUse M inFlightReqs req) req
        (mode.makeSchedulingDecision checks graph now M inFlightReqs req) ↔
      ¬ ((mode = .binPack ∨ mode = .service) ∧
        hostList M = [] ∧ req.singleHostHint = true ∧ req.isOmp = true) := by
  cases mode with
  | binPack =>
    have hb := @places_soundly_unless M inFlightReqs req hM hd
    simpa [makeSchedulingDecision] using hb
  | service =>
    have hr : ServiceLocality.isRpcServiceMigration inFlightReqs req = false := by
      simp [ServiceLocality.isRpcServiceMigration, hd]
    have hb := @places_soundly_unless M inFlightReqs req hM hd
    simpa [makeSchedulingDecision, ServiceLocality.makeSchedulingDecision, hr,
      mayUse] using hb
  | compact => exact iff_of_true (Compact.places_soundly hM hd) (by simp)
  | spot => exact iff_of_true (Spot.places_soundly hM hd) (by simp)
  | force => exact iff_of_true (ForcedMigration.places_soundly hM checks hd) (by simp)

theorem SchedulerMode.places_two_threads :
    PlacesSoundly
      (mayUse .binPack ((∅ : HostMap).insert "a" ⟨"a", 2, 0⟩) ∅
        { appId := 1, singleHostHint := true, messages := [{ id := 1, isOmp := true }, { id := 2, isOmp := true }] })
      { appId := 1, singleHostHint := true, messages := [{ id := 1, isOmp := true }, { id := 2, isOmp := true }] }
      (makeSchedulingDecision .binPack 0 {} 0 ((∅ : HostMap).insert "a" ⟨"a", 2, 0⟩) ∅
        { appId := 1, singleHostHint := true,
          messages := [{ id := 1, isOmp := true }, { id := 2, isOmp := true }] }) := by
  refine (places_soundly_iff .binPack 0 {} 0 ?_ (by decide)).mpr (by decide +kernel)
  intro k h hk
  simp only [usableHosts, reduceCtorEq, if_false, getElem?_insert_ite] at hk
  split_ifs at hk with he
  · rw [← Option.some.inj hk, ← he]
  · simp at hk

/-- With no host at all the request fails, though there are simply not enough slots. -/
theorem SchedulerMode.single_host_without_hosts :
    makeSchedulingDecision .binPack 0 {} 0 ∅ ∅
        { appId := 1, singleHostHint := true, messages := [{ id := 1, isOmp := true }] } =
      .error .undefinedBehaviour ∧
    ¬ PlacesSoundly
      (mayUse .binPack ∅ ∅
        { appId := 1, singleHostHint := true, messages := [{ id := 1, isOmp := true }] })
      { appId := 1, singleHostHint := true, messages := [{ id := 1, isOmp := true }] }
      (makeSchedulingDecision .binPack 0 {} 0 ∅ ∅
        { appId := 1, singleHostHint := true, messages := [{ id := 1, isOmp := true }] }) := by
  have hfail : makeSchedulingDecision .binPack 0 {} 0 ∅ ∅
      { appId := 1, singleHostHint := true, messages := [{ id := 1, isOmp := true }] } =
        .error .undefinedBehaviour := by
    decide +kernel
  refine ⟨hfail, ?_⟩
  intro h
  have hnone := h.notEnough.mpr (by decide +kernel)
  rw [hfail] at hnone
  exact absurd hnone (by simp)

end Faabric
