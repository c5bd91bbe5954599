import Faabric.Planner.Housing
import Faabric.HostOrder

/-! The threads that OpenMP apps have requested and that are not in flight: what `callBatch`
holds back for them, and when a new OpenMP request gets the room that is left. -/

namespace Faabric

open Std (ExtTreeMap)
open MapTotal

variable {s : PlannerState} {appId : Int} {req : BatchExecuteRequest}

def requestedThreads (req : BatchExecuteRequest) : Int :=
  (req.messages.head?.map Message.ompNumThreads).getD 0

def preclaimedThreads (s : PlannerState) (app : Int) : Nat :=
  (s.preloadedSchedulingDecisions[app]?.map fun d => (d.placements.drop 1).length).getD 0

def idleThreads (s : PlannerState) (app : Int) (pair : InFlightPair) : Int :=
  max 0 (requestedThreads pair.1 - pair.1.messages.length - preclaimedThreads s app)

def idleOn (s : PlannerState) (ip : String) (app : Int) (pair : InFlightPair) : Int :=
  if mainHostOf pair = some ip then idleThreads s app pair else 0

def reservedOn (s : PlannerState) (ip : String) : Int := total (idleOn s ip) s.inFlightReqs

def reservedByOthers (s : PlannerState) (appId : Int) (ip : String) : Int :=
  total (fun app pair => if app = appId then 0 else idleOn s ip app pair) s.inFlightReqs

theorem idleThreads_nonneg (s : PlannerState) (app : Int) (pair : InFlightPair) :
    0 ≤ idleThreads s app pair :=
  le_max_left _ _

theorem idleOn_nonneg (s : PlannerState) (ip : String) (app : Int) (pair : InFlightPair) :
    0 ≤ idleOn s ip app pair := by
  unfold idleOn
  split_ifs
  · exact idleThreads_nonneg s app pair
  · exact le_rfl

theorem idleThreads_le_unoccupied (s : PlannerState) (app : Int) (pair : InFlightPair) :
    idleThreads s app pair ≤ unoccupiedThreads pair.1 := by
  unfold idleThreads unoccupiedThreads requestedThreads
  omega

theorem reservedByOthers_le_heldBack (s : PlannerState) (appId : Int) (ip : String) :
    reservedByOthers s appId ip ≤ heldBack s appId ip := by
  apply total_le_total
  intro app pair _
  unfold holdsBack idleOn
  split_ifs
  · exact le_rfl
  · exact idleThreads_le_unoccupied s app pair
  · exact le_rfl

theorem reservedByOthers_le_reservedOn (s : PlannerState) (appId : Int) (ip : String) :
    reservedByOthers s appId ip ≤ reservedOn s ip := by
  apply total_le_total
  intro app pair _
  split_ifs
  · exact idleOn_nonneg s ip app pair
  · exact le_rfl

/-! What is held back. -/

/-- No other app with threads to come has claimed them in advance. -/
def OthersForked (s : PlannerState) (appId : Int) : Prop :=
  ∀ e ∈ s.inFlightReqs.toList, e.1 ≠ appId → 0 < unoccupiedThreads e.2.1 → preclaimedThreads s e.1 = 0

instance (s : PlannerState) (appId : Int) : Decidable (OthersForked s appId) :=
  inferInstanceAs (Decidable (∀ e ∈ _, _))

structure Occupied (s : PlannerState) : Prop where
  apps : ∀ (app : Int) (pair : InFlightPair), s.inFlightReqs[app]? = some pair → InFlightOk pair
  messages : ∀ (app : Int) (pair : InFlightPair), s.inFlightReqs[app]? = some pair → pair.1.messages ≠ []

theorem Occupied.first (h : Occupied s) {app : Int} {pair : InFlightPair}
    (hp : s.inFlightReqs[app]? = some pair) :
    ∃ m ms p ps, pair.1.messages = m :: ms ∧ pair.2.placements = p :: ps := by
  obtain ⟨m, ms, hm⟩ := List.exists_cons_of_ne_nil (h.messages app pair hp)
  have hlen := (h.apps app pair hp).length_eq
  have hne : pair.2.placements ≠ [] := by
    intro hnil
    rw [hnil, hm] at hlen
    simp at hlen
  obtain ⟨p, ps, hps⟩ := List.exists_cons_of_ne_nil hne
  exact ⟨m, ms, p, ps, hm, hps⟩

/-- What is held back for the other apps is what they have idle, unless one of them has claimed
its threads in advance: those are counted twice. -/
theorem holdsBack_eq_idleOn_iff (h : Occupied s) (appId : Int) :
    (∀ (app : Int) (pair : InFlightPair), app ≠ appId → s.inFlightReqs[app]? = some pair →
      ∀ ip, holdsBack appId ip app pair = idleOn s ip app pair) ↔ OthersForked s appId := by
  constructor
  · rintro hexact ⟨app, pair⟩ he hne hun
    have hp := ExtTreeMap.mem_toList_iff_getElem?_eq_some.mp he
    obtain ⟨m, ms, p, ps, hm, hps⟩ := h.first hp
    have hmain : mainHostOf pair = some p.host := by simp [mainHostOf, hps]
    have heq := hexact app pair hne hp p.host
    rw [holdsBack, if_neg hne, if_pos hmain, idleOn, if_pos hmain] at heq
    unfold idleThreads requestedThreads at heq
    unfold unoccupiedThreads at heq hun
    dsimp only at hun ⊢
    omega
  · intro hforked app pair hne hp ip
    unfold holdsBack idleOn
    rw [if_neg hne]
    split_ifs
    · have hz := hforked (app, pair) (ExtTreeMap.mem_toList_iff_getElem?_eq_some.mpr hp) hne
      unfold idleThreads requestedThreads
      unfold unoccupiedThreads at hz ⊢
      dsimp only at hz
      omega
    · rfl

theorem heldBack_eq_reserved (h : Occupied s) (hf : OthersForked s appId) (ip : String)
    : heldBack s appId ip = reservedByOthers s appId ip := by
  apply total_congr
  intro app pair hp
  by_cases he : app = appId
  · simp [holdsBack, he]
  · rw [if_neg he]
    exact (holdsBack_eq_idleOn_iff h appId).mpr hf app pair he hp ip

/-! Scaling up elastically. -/

theorem discountInFlight_eq {mainHost : String} {apps : List (Int × InFlightPair)}
    (h : ∀ e ∈ apps, e.2.1.messages ≠ [] ∧ e.2.2.placements ≠ []) (n : Int) :
    discountInFlight appId mainHost apps n =
      .ok (n - (apps.map fun e => holdsBack appId mainHost e.1 e.2).sum) := by
  induction apps generalizing n with
  | nil => simp [discountInFlight]
  | cons e apps ih =>
    obtain ⟨thisAppId, req, dec⟩ := e
    obtain ⟨hms, hps⟩ := h _ List.mem_cons_self
    obtain ⟨m, ms, hm⟩ := List.exists_cons_of_ne_nil hms
    obtain ⟨p, ps, hp⟩ := List.exists_cons_of_ne_nil hps
    dsimp only at hm hp
    have ih' := ih fun e he => h e (List.mem_cons_of_mem _ he)
    have hmain : mainHostOf (req, dec) = some p.host := by simp [mainHostOf, hp]
    rw [List.map_cons, List.sum_cons]
    unfold discountInFlight
    by_cases happ : appId = thisAppId
    · rw [if_pos happ, ih', holdsBack, if_pos happ.symm, zero_add]
    · rw [if_neg happ, hp]
      dsimp only
      by_cases hhost : p.host = mainHost
      · have hreq : requestedButNotOccupiedSlots req = .ok (m.ompNumThreads - req.messages.length) := by
          simp [requestedButNotOccupiedSlots, hm]
        have hheld : holdsBack appId mainHost thisAppId (req, dec) =
            max 0 (m.ompNumThreads - req.messages.length) := by
          rw [holdsBack, if_neg (Ne.symm happ), if_pos (by rw [hmain, hhost]), unoccupiedThreads]
          simp [hm]
        rw [if_pos hhost, hreq]
        dsimp only
        rw [ih', hheld]
        congr 1
        split_ifs <;> omega
      · have hheld : holdsBack appId mainHost thisAppId (req, dec) = 0 := by
          rw [holdsBack, if_neg (Ne.symm happ), if_neg]
          simpa [hmain] using hhost
        rw [if_neg hhost, ih', hheld, zero_add]

theorem availableOpenMpSlots_eq (h : Occupied s) (appId : Int) {mainHost : String} {host : Host}
    (hh : s.hostMap[mainHost]? = some host) :
    availableOpenMpSlots appId mainHost s.hostMap s.inFlightReqs =
      .ok (host.slots - host.usedSlots - heldBack s appId mainHost) := by
  unfold availableOpenMpSlots
  rw [hh]
  refine discountInFlight_eq ?_ _
  rintro ⟨app, pair⟩ he
  have hp := ExtTreeMap.mem_toList_iff_getElem?_eq_some.mp he
  obtain ⟨m, ms, p, ps, hm, hps⟩ := h.first hp
  exact ⟨by simp [hm], by simp [hps]⟩

/-! The host map of an OpenMP request. -/

def honourThreads (s : PlannerState) (appId : Int) (hostMap : HostMap) : HostMap :=
  hostMap.map fun ip h => { h with usedSlots := h.usedSlots + reservedByOthers s appId ip }

theorem reserveOpenMpSlots_ok {appId : Int} {apps : List (Int × InFlightPair)} {M : HostMap}
    (h : ∀ e ∈ apps, e.2.1.messages ≠ [] ∧ ∃ p ps, e.2.2.placements = p :: ps ∧ M[p.host]?.isSome) :
    ∃ M', reserveOpenMpSlots appId apps M = .ok M' := by
  induction apps generalizing M with
  | nil => exact ⟨M, rfl⟩
  | cons e apps ih =>
    obtain ⟨thisAppId, req, dec⟩ := e
    obtain ⟨hms, p, ps, hp, hin⟩ := h _ List.mem_cons_self
    obtain ⟨m, ms, hm⟩ := List.exists_cons_of_ne_nil hms
    dsimp only at hm hp
    have hrest : ∀ e ∈ apps, e.2.1.messages ≠ [] ∧ ∃ p ps, e.2.2.placements = p :: ps ∧ M[p.host]?.isSome :=
      fun e he => h e (List.mem_cons_of_mem _ he)
    unfold reserveOpenMpSlots
    split_ifs
    · exact ih hrest
    · have hreq : requestedButNotOccupiedSlots req = .ok (m.ompNumThreads - req.messages.length) := by
        simp [requestedButNotOccupiedSlots, hm]
      rw [hreq]
      dsimp only
      split_ifs
      · obtain ⟨host, hhost⟩ := Option.isSome_iff_exists.mp hin
        rw [hp]
        dsimp only
        rw [hhost]
        refine ih fun e he => ?_
        obtain ⟨hms', p', ps', hp', hin'⟩ := hrest e he
        refine ⟨hms', p', ps', hp', ?_⟩
        rw [getElem?_insert_ite]
        split_ifs
        · rfl
        · exact hin'
      · exact ih hrest

theorem reserveOpenMpSlots_eq (ha : Accounted s) (ho : Occupied s) (hf : OthersForked s appId)
    {M : HostMap} (hkeys : ∀ ip : String, s.hostMap[ip]?.isSome → M[ip]?.isSome) :
    reserveOpenMpSlots appId s.inFlightReqs.toList M = .ok (honourThreads s appId M) := by
  have hok : ∀ e ∈ s.inFlightReqs.toList,
      e.2.1.messages ≠ [] ∧ ∃ p ps, e.2.2.placements = p :: ps ∧ M[p.host]?.isSome := by
    rintro ⟨app, pair⟩ he
    have hp := ExtTreeMap.mem_toList_iff_getElem?_eq_some.mp he
    obtain ⟨m, ms, p, ps, hm, hps⟩ := ho.first hp
    obtain ⟨_, host, hh⟩ := ha.exists_host (portsOn_le_leases hp) (p := p) (by simp [hps])
    exact ⟨by simp [hm], p, ps, hps, hkeys p.host (by simp [hh])⟩
  obtain ⟨M', hM'⟩ := @reserveOpenMpSlots_ok appId _ _ hok
  rw [hM']
  congr 1
  apply ExtTreeMap.ext_getElem?
  intro k
  rw [reserveOpenMpSlots_getElem? hM' k]
  simp only [honourThreads, ExtTreeMap.getElem?_map]
  rw [← heldBack_eq_reserved ho hf k]
  rfl

/-! Admitting a new request. -/

def SchedulerMode.openHosts (mode : SchedulerMode) (hostMap : HostMap) (inFlightReqs : InFlightReqs)
    (req : BatchExecuteRequest) : List HostState :=
  match mode with
  | .compact => hostList (Compact.filterHosts hostMap inFlightReqs req)
  | .spot => hostList (Spot.filterHosts hostMap).1
  | _ => hostList hostMap

def HasRoom (hosts : List HostState) (singleHost : Bool) (count : Nat) : Prop :=
  if singleHost then ∃ h ∈ hosts, (count : Int) ≤ numSlotsAvailable h
  else (count : Int) ≤ (hosts.map numSlotsAvailable).sum

instance (hosts : List HostState) (singleHost : Bool) (count : Nat) :
    Decidable (HasRoom hosts singleHost count) := by
  unfold HasRoom
  infer_instance

theorem assignSlots_first {first : HostState} {messages : List Message}
    (h : (messages.length : Int) ≤ numSlotsAvailable first) (rest : List HostState) :
    assignSlots (first :: rest) messages = (messages.map (Prod.mk first), []) := by
  have hle : messages.length ≤ (numSlotsAvailable first).toNat := by omega
  simp [assignSlots, FirstFit.fill, hle, List.take_of_length_le hle]

theorem decisionFor_isSingleHost (appId : Int) (host : HostState) (messages : List Message) :
    (decisionFor appId (messages.map (Prod.mk host))).isSingleHost = true := by
  have hhosts : (decisionFor appId (messages.map (Prod.mk host))).hosts =
      List.replicate messages.length host.ip := by
    rw [decisionFor_eq]
    simp [SchedulingDecision.hosts, Function.comp_def]
  unfold SchedulingDecision.isSingleHost
  rw [hhosts, decide_eq_true_iff]
  cases messages with
  | nil => simp
  | cons m ms => rw [List.length_cons, List.replicate_dedup (by omega), List.length_singleton]

def Admits (sortedHosts : List HostState) (req : BatchExecuteRequest) : Prop :=
  (assignSlots sortedHosts req.messages).2 = [] ∧
    (req.singleHostHint = true →
      (decisionFor req.appId (assignSlots sortedHosts req.messages).1).isSingleHost = true)

theorem admits_first {first : HostState} (h : (req.messages.length : Int) ≤ numSlotsAvailable first)
    (rest : List HostState) :
    Admits (first :: rest) req := by
  unfold Admits
  rw [assignSlots_first h]
  exact ⟨rfl, fun _ => decisionFor_isSingleHost _ _ _⟩

theorem HasRoom.admits {hosts : List HostState} {req : BatchExecuteRequest}
    (h : HasRoom hosts req.singleHostHint req.messages.length) :
    Admits (sortHosts isFirstHostLarger hosts) req ∧
      ∃ considered, BinPack.considerHosts req (sortHosts isFirstHostLarger hosts) = .ok considered ∧
        Admits considered req := by
  unfold HasRoom at h
  split_ifs at h with hsingle
  · obtain ⟨x, hx, hroom⟩ := h
    cases hsort : sortHosts isFirstHostLarger hosts with
    | nil =>
      have hin := (sortHosts_perm isFirstHostLarger hosts).mem_iff.mpr hx
      simp [hsort] at hin
    | cons first rest =>
      have hfirst := hroom.trans (sortHosts_first_largest hsort hx)
      refine ⟨admits_first hfirst rest, ?_⟩
      unfold BinPack.considerHosts
      split_ifs
      · exact ⟨[first], rfl, admits_first hfirst []⟩
      · exact ⟨first :: rest, rfl, admits_first hfirst rest⟩
  · have hfit : Admits (sortHosts isFirstHostLarger hosts) req := by
      refine ⟨(FirstFit.fill_fits_iff _ _ _).mpr ?_, fun hhint => absurd hhint hsingle⟩
      have hsum := ((sortHosts_perm isFirstHostLarger hosts).map
        fun h => (numSlotsAvailable h).toNat).sum_eq
      rw [hsum]
      have hcast : (((hosts.map fun h => (numSlotsAvailable h).toNat).sum : Nat) : Int) =
          (hosts.map numSlotsAvailable).sum := by
        rw [Nat.cast_list_sum, List.map_map]
        congr 1
        apply List.map_congr_left
        intro x _
        exact Int.toNat_of_nonneg (le_max_left _ _)
      omega
    refine ⟨hfit, _, ?_, hfit⟩
    simp [BinPack.considerHosts, hsingle]

theorem SchedulerMode.admits {mode : SchedulerMode} {checks now : Int} {graph : RpcDependencyGraph}
    {M : HostMap} {inFlightReqs : InFlightReqs} {req : BatchExecuteRequest}
    (hnew : getDecisionType inFlightReqs req = .new)
    (h : HasRoom (mode.openHosts M inFlightReqs req) req.singleHostHint req.messages.length) :
    ∃ d, mode.makeSchedulingDecision checks graph now M inFlightReqs req = .ok d ∧ Places req d ∧
      (req.singleHostHint = true → d.isSingleHost = true) := by
  obtain ⟨⟨hfit, hsingle⟩, considered, hcons, hfit', hsingle'⟩ := h.admits
  have hne : DecisionType.new ≠ .distChange := by decide
  have hbin : mode.openHosts M inFlightReqs req = hostList M →
      BinPack.makeSchedulingDecision M inFlightReqs req =
        .ok (decisionFor req.appId (assignSlots considered req.messages).1) := by
    intro hopen
    rw [hopen] at hcons
    simp only [BinPack.makeSchedulingDecision, hnew, BinPack.getSortedHosts, hcons, hfit', ne_eq,
      not_true_eq_false, if_false, hne]
  cases mode with
  | binPack => exact ⟨_, hbin rfl, assignSlots_places hfit', hsingle'⟩
  | service =>
    have hr : ServiceLocality.isRpcServiceMigration inFlightReqs req = false := by
      simp [ServiceLocality.isRpcServiceMigration, hnew]
    refine ⟨_, ?_, assignSlots_places hfit', hsingle'⟩
    simp only [makeSchedulingDecision, ServiceLocality.makeSchedulingDecision, hr]
    exact hbin rfl
  | compact =>
    refine ⟨_, ?_, assignSlots_places hfit, hsingle⟩
    simp only [openHosts] at hfit
    simp only [makeSchedulingDecision, Compact.makeSchedulingDecision, hnew, Compact.getSortedHosts, hfit,
      ne_eq, not_true_eq_false, if_false, hne, openHosts]
  | spot =>
    refine ⟨_, ?_, assignSlots_places hfit, hsingle⟩
    simp only [openHosts] at hfit
    simp only [makeSchedulingDecision, Spot.makeSchedulingDecision, hnew, Spot.getSortedHosts, hfit,
      ne_eq, not_true_eq_false, if_false, hne, openHosts]
  | force =>
    refine ⟨_, ?_, assignSlots_places hfit, hsingle⟩
    simp only [openHosts] at hfit
    simp only [makeSchedulingDecision, ForcedMigration.makeSchedulingDecision, hnew,
      ForcedMigration.getSortedHosts, hfit, ne_eq, not_true_eq_false, if_false, hne, openHosts]

theorem removeMessages_length {ids : List Int} {d d' : SchedulingDecision}
    (h : removeMessages ids d = .ok d') : d'.placements.length + ids.length = d.placements.length := by
  induction ids generalizing d with
  | nil =>
    obtain rfl := Except.ok.inj h
    rfl
  | cons id ids ih =>
    unfold removeMessages at h
    split at h
    · cases h
    · rename_i port d₁ hr
      have hrest := ih h
      unfold SchedulingDecision.removeMessage at hr
      split at hr
      · cases hr
      · rename_i p hp
        obtain ⟨-, rfl⟩ := Prod.mk.inj (Except.ok.inj hr)
        have hone := (perm_eraseP_of_find? hp).length_eq
        simp only [List.length_cons] at hone hrest ⊢
        omega

theorem commitNew_nonempty {d d' : SchedulingDecision} {k : Bool} (hd : d.placements ≠ [])
    (h : (commitNew req d k s).1 = .ok d') :
    d'.placements ≠ [] := by
  unfold commitNew at h
  split at h
  · cases h
  · rename_i ps hosts hc
    have hps : ps.length = d.placements.length := by
      simpa using congrArg List.length (claimNew_hosts (congrArg Prod.fst hc))
    have hpos := List.length_pos_iff.mpr hd
    dsimp only at h
    split_ifs at h
    · split at h
      · cases h
      · rename_i d₁ hr
        rw [(commitNew_record_state _ _ _).2 _ h]
        have hlen := removeMessages_length hr
        simp only [SchedulingDecision.messageIds, List.length_drop, List.length_map] at hlen
        exact List.length_pos_iff.mp (by omega)
    · rw [(commitNew_record_state _ _ _).2 _ h]
      exact List.length_pos_iff.mp (by dsimp only; omega)

/-- A new OpenMP request is not rejected while the hosts that the scheduler offers have room for
it beside the idle threads of the other apps. -/
theorem callBatch_admits (env : CallEnv) {known : BatchExecuteRequest} {mode : SchedulerMode}
    (ha : Accounted s) (ho : Occupied s) (hf : OthersForked s req.appId)
    (hmode : schedulerOf s = some mode) (hfresh : s.inFlightReqs[req.appId]? = none)
    (homp : req.isOmp = true) (hknown : knownSizeRequest req = .ok known)
    (hroom : HasRoom (mode.openHosts (honourThreads s req.appId
      (convertToBatchSchedHostMap s.hostMap s.nextEvictedHostIps)) s.inFlightReqs req)
      req.singleHostHint known.messages.length) :
    (callBatch env req s).1 ≠ .ok NOT_ENOUGH_SLOTS_DECISION := by
  obtain ⟨hk1, hk2, hk3⟩ := knownSizeRequest_eq hknown
  set M := convertToBatchSchedHostMap s.hostMap s.nextEvictedHostIps with hM
  have hkeys : ∀ ip : String, s.hostMap[ip]?.isSome → M[ip]?.isSome := by
    intro ip hip
    simpa [hM, convertToBatchSchedHostMap, ExtTreeMap.getElem?_map] using hip
  have hreserve := reserveOpenMpSlots_eq ha ho hf hkeys
  have happ : known.appId = req.appId := by rw [hk1]
  have hnew : getDecisionType s.inFlightReqs known = .new := getDecisionType_new (happ ▸ hfresh)
  have hopen : mode.openHosts (honourThreads s req.appId M) s.inFlightReqs known =
      mode.openHosts (honourThreads s req.appId M) s.inFlightReqs req := by
    rw [hk1]
    cases mode <;> rfl
  obtain ⟨d, hd, hplaces, hsingle⟩ := @SchedulerMode.admits mode s.distChangeCounter env.now env.graph
    (honourThreads s req.appId M) s.inFlightReqs known hnew (by rw [hopen, hk1]; exact hroom)
  have hhint : known.singleHostHint = req.singleHostHint := by rw [hk1]
  have hlen : d.placements.length = known.messages.length := by
    simpa using congrArg List.length hplaces.keys
  have hdne : d.placements ≠ [] := by
    intro hnil
    rw [hnil] at hlen
    have hz : known.messages = [] := List.length_eq_zero_iff.mp hlen.symm
    rw [hz] at hk2
    cases hm : req.messages with
    | nil => exact hk3 hm
    | cons m ms => simp [hm] at hk2
  have hsched : ∀ batchScheduler, scheduleRequest env mode .new req { s with batchScheduler } =
      (.ok (d, true), { s with batchScheduler }) := by
    intro batchScheduler
    have hmake : ∀ M', makeDecision env mode M' known { s with batchScheduler } =
        (mode.makeSchedulingDecision s.distChangeCounter env.graph env.now M' s.inFlightReqs known,
          { s with batchScheduler }) :=
      fun M' => makeDecision_eq (by rw [hnew]; decide) M'
    simp only [scheduleRequest, homp, if_true, ← hM, hreserve, ha.not_preloaded hfresh, hknown, hmake, hd,
      Except.map, reduceCtorEq, if_false, or_true, and_self]
  obtain ⟨hv1, hv2, hv3⟩ := verdict_of_ne hplaces.groupId
  have hspread : (!d.isSingleHost && req.singleHostHint) = false := by
    rw [← hhint]
    cases hh : known.singleHostHint with
    | false => simp
    | true => simp [hsingle hh]
  unfold callBatch
  rw [getBatchScheduler_eq, hmode]
  simp only [getDecisionType_new hfresh, prepareRequest, hsched, handleDecision, hv1, hv2, hv3, hspread,
    if_false, Bool.false_eq_true]
  intro hres
  simp only [commitDecision, unFreeze_eq] at hres
  exact commitNew_nonempty (by exact hdne) hres rfl

end Faabric
