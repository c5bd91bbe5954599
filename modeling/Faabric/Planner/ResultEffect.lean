import Faabric.Planner.CallEffect

/-! Everything one `setMessageResult` can do to the planner. -/

namespace Faabric

open Std (ExtTreeMap)
open MapTotal

variable {id : Int} {msg : Message} {s : PlannerState}

theorem perm_eraseP_of_find? {α : Type} {q : α → Bool} {l : List α} {a : α} (h : l.find? q = some a) :
    l.Perm (a :: l.eraseP q) := by
  induction l with
  | nil => simp at h
  | cons b l ih =>
    by_cases hb : q b = true
    · rw [List.find?_cons_of_pos hb] at h
      obtain rfl := Option.some.inj h
      rw [List.eraseP_cons_of_pos hb]
    · rw [List.find?_cons_of_neg hb] at h
      rw [List.eraseP_cons_of_neg hb]
      exact ((ih h).cons b).trans (List.Perm.swap a b _)

def placementOf (s : PlannerState) (appId msgId : Int) : Option Placement :=
  match s.inFlightReqs[appId]? with
  | none => none
  | some pair => pair.2.placements.find? fun p => p.messageId == msgId

def removedPair (msgId : Int) (pair : InFlightPair) : InFlightPair :=
  ({ pair.1 with messages := pair.1.messages.eraseP fun m => m.id == msgId },
    { pair.2 with
      nFunctions := pair.2.nFunctions - 1
      placements := pair.2.placements.eraseP fun p => p.messageId == msgId })

def releasesSlot (s : PlannerState) (msg : Message) : Bool :=
  !hasResult s msg.appId msg.id || isFrozenResult msg

def Ignored (msg : Message) (s : PlannerState) : Prop :=
  isMigratedResult msg = true ∨ (isFrozenResult msg = true ∧ s.evictedRequests[msg.appId]? = none)

/-- Results that keep the books: one that is ignored, one from the host that the
message in flight is placed on, or one that is recorded already. -/
def ResultOk (msg : Message) (s : PlannerState) : Prop :=
  Ignored msg s ∨ (∀ p ∈ placementOf s msg.appId msg.id, p.host = msg.executedHost) ∧
    (placementOf s msg.appId msg.id = none → releasesSlot s msg = false)

instance (msg : Message) (s : PlannerState) : Decidable (Ignored msg s) :=
  inferInstanceAs (Decidable (_ ∨ _))

instance (msg : Message) (s : PlannerState) : Decidable (ResultOk msg s) :=
  inferInstanceAs (Decidable (_ ∨ _))

theorem eraseP_key {ps : List Placement} {ms : List Message}
    (h : ps.map Placement.key = ms.map Message.key) :
    (ps.eraseP fun p => p.messageId == id).map Placement.key =
      (ms.eraseP fun m => m.id == id).map Message.key := by
  induction ps generalizing ms with
  | nil =>
    cases ms with
    | nil => rfl
    | cons m ms => simp at h
  | cons p ps ih =>
    cases ms with
    | nil => simp at h
    | cons m ms =>
      simp only [List.map_cons, List.cons.injEq] at h
      have hid : p.messageId = m.id := congrArg Prod.fst h.1
      by_cases he : m.id = id
      · simp [hid, he, h.2]
      · simp [hid, he, h.1, ih h.2]

theorem any_id_iff {pair : InFlightPair} (h : InFlightOk pair) (id : Int) :
    (pair.1.messages.any fun m => m.id == id) =
      (pair.2.placements.find? fun p => p.messageId == id).isSome := by
  have hm : (pair.1.messages.any fun m => m.id == id) = true ↔ id ∈ pair.1.messageIds := by
    simp [BatchExecuteRequest.messageIds]
  have hp : (pair.2.placements.find? fun p => p.messageId == id).isSome = true ↔
      id ∈ pair.2.messageIds := by
    simp [SchedulingDecision.messageIds]
  rw [Bool.eq_iff_iff, hm, hp, h.ids_eq]

theorem removedPair_ok {pair : InFlightPair} (h : InFlightOk pair) {p : Placement}
    (hp : (pair.2.placements.find? fun p => p.messageId == id) = some p) :
    InFlightOk (removedPair id pair) := by
  refine ⟨eraseP_key h.keys, ?_⟩
  have hl := (perm_eraseP_of_find? hp).length_eq
  have hc := h.counted
  simp only [List.length_cons] at hl
  simp only [removedPair]
  omega

def recordedResults (msg : Message) (s : PlannerState) :
    ExtTreeMap Int (ExtTreeMap Int Message compare) compare :=
  let results := s.appResults[msg.appId]?.getD ∅
  if isFrozenResult msg then s.appResults.insert msg.appId results
  else s.appResults.insert msg.appId (results.insert msg.id msg)

def recordedEvictions (msg : Message) (s : PlannerState) : ExtTreeMap Int BatchExecuteRequest compare :=
  if isFrozenResult msg then
    match s.evictedRequests[msg.appId]? with
    | none => s.evictedRequests
    | some ber =>
      s.evictedRequests.insert msg.appId { ber with messages := setFrozenMessage msg ber.messages }
  else s.evictedRequests

def notifications (msg : Message) (s : PlannerState) : List Outgoing :=
  if isFrozenResult msg then []
  else (s.appResultWaiters[msg.id]?.getD []).map fun host => .setMessageResult host msg

structure Removed (msg : Message) (s : PlannerState) (pair : InFlightPair) (p : Placement)
    (s' : PlannerState) : Prop where
  heeded : ¬ Ignored msg s
  running : s.inFlightReqs[msg.appId]? = some pair
  placed : (pair.2.placements.find? fun p => p.messageId == msg.id) = some p
  host : p.host = msg.executedHost
  hosts : HostsMove s.hostMap s'.hostMap (fun _ => 0)
    (fun ip => if p.host = ip then {p.mpiPort} else 0)
    fun ip => if p.host = ip then (if releasesSlot s msg then -1 else 0) else 0
  inFlight : s'.inFlightReqs =
    if (removedPair msg.id pair).1.messages.isEmpty then s.inFlightReqs.erase msg.appId
    else s.inFlightReqs.insert msg.appId (removedPair msg.id pair)
  preloaded : s'.preloadedSchedulingDecisions =
    if (removedPair msg.id pair).1.messages.isEmpty then s.preloadedSchedulingDecisions.erase msg.appId
    else s.preloadedSchedulingDecisions
  evicted : s'.evictedRequests = recordedEvictions msg s
  appResults : s'.appResults = recordedResults msg s
  sent : s'.sent = s.sent ++ notifications msg s

inductive ResultEffect (msg : Message) (s : PlannerState) : Except PlannerError Unit → PlannerState → Prop
  | ignored {r : Except PlannerError Unit} {s' : PlannerState} (same : s' = s)
      (why : Ignored msg s) :
      ResultEffect msg s r s'
  | repeated {s' : PlannerState} (absent : placementOf s msg.appId msg.id = none)
      (kept : releasesSlot s msg = false) (books : SameBooks s s')
      (appResults : s'.appResults = recordedResults msg s)
      (sent : s'.sent = s.sent ++ notifications msg s) : ResultEffect msg s (.ok ()) s'
  | removed {pair : InFlightPair} {p : Placement} {s' : PlannerState}
      (effect : Removed msg s pair p s') : ResultEffect msg s (.ok ()) s'

theorem recordFrozen_eq (h : ¬ (isFrozenResult msg = true ∧ s.evictedRequests[msg.appId]? = none)) :
    recordFrozen msg s = (.ok (), { s with evictedRequests := recordedEvictions msg s }) := by
  unfold recordFrozen recordedEvictions
  split_ifs with hf
  · cases he : s.evictedRequests[msg.appId]? with
    | none => exact absurd ⟨hf, he⟩ h
    | some ber => rfl
  · rfl

def releasedHosts (msg : Message) (s : PlannerState) (h : Host) : PlannerHosts :=
  if releasesSlot s msg then s.hostMap.insert msg.executedHost (releaseHostSlots h) else s.hostMap

theorem contains_results (s : PlannerState) (appId msgId : Int) :
    (s.appResults[appId]?.getD ∅).contains msgId = hasResult s appId msgId := by
  unfold hasResult
  cases s.appResults[appId]? with
  | none => simp
  | some results => rfl

theorem insert_insert_results (m : ExtTreeMap Int (ExtTreeMap Int Message compare) compare) (k : Int)
    (v w : ExtTreeMap Int Message compare) : (m.insert k v).insert k w = m.insert k w := by
  apply ExtTreeMap.ext_getElem?
  intro a
  simp only [getElem?_insert_ite]
  split_ifs <;> rfl

theorem releaseAndRecord_eq {msg : Message} {s : PlannerState} (h : Host)
    (hh : releasesSlot s msg = true → s.hostMap[msg.executedHost]? = some h) :
    releaseAndRecord msg s = (.ok (), { s with
      hostMap := releasedHosts msg s h
      appResults := recordedResults msg s }) := by
  unfold releaseAndRecord
  dsimp only
  rw [contains_results]
  simp only [releasedHosts, recordedResults, releasesSlot] at hh ⊢
  by_cases hf : isFrozenResult msg = true
  · simp [hf, hh (by simp [hf])]
  · by_cases hr : hasResult s msg.appId msg.id = true
    · simp [hf, hr, insert_insert_results]
    · simp [hf, hr, insert_insert_results, hh (by simp [hr])]

theorem removeMessage_eq {d : SchedulingDecision} {p : Placement}
    (h : (d.placements.find? fun p => p.messageId == id) = some p) :
    d.removeMessage id = .ok (p.mpiPort,
      { d with
        nFunctions := d.nFunctions - 1
        placements := d.placements.eraseP fun p => p.messageId == id }) := by
  simp [SchedulingDecision.removeMessage, h]

theorem removeInFlight_eq {msg : Message} {s : PlannerState} {pair : InFlightPair} {p : Placement}
    {h : Host} {mpiPorts : List MpiPort} (hrun : s.inFlightReqs[msg.appId]? = some pair)
    (hok : InFlightOk pair)
    (hp : (pair.2.placements.find? fun p => p.messageId == msg.id) = some p)
    (hh : s.hostMap[msg.executedHost]? = some h)
    (hrel : UnitPool.release p.mpiPort h.mpiPorts = some mpiPorts) :
    removeInFlight msg s = (.ok (), { s with
      hostMap := s.hostMap.insert msg.executedHost { h with mpiPorts }
      inFlightReqs :=
        if (removedPair msg.id pair).1.messages.isEmpty then s.inFlightReqs.erase msg.appId
        else s.inFlightReqs.insert msg.appId (removedPair msg.id pair)
      preloadedSchedulingDecisions :=
        if (removedPair msg.id pair).1.messages.isEmpty then
          s.preloadedSchedulingDecisions.erase msg.appId
        else s.preloadedSchedulingDecisions }) := by
  obtain ⟨req, decision⟩ := pair
  have hany : (req.messages.any fun m => m.id == msg.id) = true := by
    have := any_id_iff hok msg.id
    rw [hp] at this
    exact this
  have herase (v : InFlightPair) :
      (s.inFlightReqs.insert msg.appId v).erase msg.appId = s.inFlightReqs.erase msg.appId := by
    apply ExtTreeMap.ext_getElem?
    intro a
    simp only [getElem?_erase_ite, getElem?_insert_ite]
    split_ifs <;> rfl
  unfold removeInFlight
  rw [hrun]
  simp only [hany, Bool.not_true, Bool.false_eq_true, if_false, removeMessage_eq hp, hh,
    releaseHostMpiPort, hrel, removedPair]
  by_cases hemp : (req.messages.eraseP fun m => m.id == msg.id).isEmpty = true
  · simp only [hemp, if_true, herase]
  · simp only [hemp, if_false, Bool.false_eq_true]

theorem removeInFlight_absent {msg : Message} {s : PlannerState}
    (hok : ∀ pair, s.inFlightReqs[msg.appId]? = some pair → InFlightOk pair)
    (hp : placementOf s msg.appId msg.id = none) : removeInFlight msg s = (.ok (), s) := by
  unfold placementOf at hp
  unfold removeInFlight
  cases hrun : s.inFlightReqs[msg.appId]? with
  | none => rfl
  | some pair =>
    obtain ⟨req, decision⟩ := pair
    rw [hrun] at hp
    have hany := any_id_iff (hok _ hrun) msg.id
    dsimp only at hp hany
    rw [hp] at hany
    simp [hany]

theorem notifyWaiters_eq (msg : Message) (s : PlannerState) :
    notifyWaiters msg s = { s with sent := s.sent ++ notifications msg s } := by
  unfold notifyWaiters notifications
  split_ifs
  · simp
  · rfl

theorem released_hosts_move {h : Host} {port : Int} (hok : HostsOk s.hostMap)
    (hh : s.hostMap[msg.executedHost]? = some h) (hport : port ∈ UnitPool.usedLabels h.mpiPorts) :
    ∃ h₁ mpiPorts, (releasedHosts msg s h)[msg.executedHost]? = some h₁ ∧
      UnitPool.release port h₁.mpiPorts = some mpiPorts ∧
      HostsMove s.hostMap ((releasedHosts msg s h).insert msg.executedHost { h₁ with mpiPorts })
        (fun _ => 0) (fun ip => if msg.executedHost = ip then {port} else 0)
        fun ip => if msg.executedHost = ip then (if releasesSlot s msg then -1 else 0) else 0 := by
  have hfirst : ∃ h₁, (releasedHosts msg s h)[msg.executedHost]? = some h₁ ∧
      h₁.mpiPorts = h.mpiPorts ∧ HostsMove s.hostMap (releasedHosts msg s h) (fun _ => 0) (fun _ => 0)
        fun ip => if msg.executedHost = ip then (if releasesSlot s msg then -1 else 0) else 0 := by
    unfold releasedHosts
    split_ifs with hr
    · refine ⟨releaseHostSlots h, by simp, rfl, ?_⟩
      have hm : HostsMove s.hostMap (s.hostMap.insert msg.executedHost (releaseHostSlots h))
          (fun i => if msg.executedHost = i then 0 else 0)
          (fun i => if msg.executedHost = i then 0 else 0)
          fun i => if msg.executedHost = i then -1 else 0 :=
        HostsMove.update hok hh rfl rfl rfl rfl rfl
      exact hm.congr (by simp) (by simp) fun _ => rfl
    · exact ⟨h, hh, rfl, (HostsMove.refl hok).congr (fun _ => rfl) (fun _ => rfl) (by simp)⟩
  obtain ⟨h₁, hh₁, hports, hm₁⟩ := hfirst
  rw [← hports] at hport
  obtain ⟨mpiPorts, hrel, hl, hus⟩ :=
    UnitPool.release_spec (hm₁.ok _ _ hh₁).labels_nodup hport
  have hm₂ : HostsMove (releasedHosts msg s h)
      ((releasedHosts msg s h).insert msg.executedHost { h₁ with mpiPorts })
      (fun i => if msg.executedHost = i then 0 else 0)
      (fun i => if msg.executedHost = i then {port} else 0)
      fun i => if msg.executedHost = i then 0 else 0 := by
    refine HostsMove.update hm₁.ok hh₁ rfl rfl hl ?_ (by simp)
    rw [hus, add_zero, ← Multiset.singleton_add, add_comm]
  exact ⟨h₁, mpiPorts, hh₁, hrel, (hm₁.trans hm₂).congr (by simp) (by simp) (by simp)⟩

theorem setMessageResult_effect (ha : Accounted s) (hr : ResultOk msg s) :
    ResultEffect msg s (setMessageResult msg s).1 (setMessageResult msg s).2 := by
  by_cases hmig : isMigratedResult msg = true
  · simp only [setMessageResult, hmig, if_true]
    exact .ignored rfl (Or.inl hmig)
  by_cases horph : isFrozenResult msg = true ∧ s.evictedRequests[msg.appId]? = none
  · simp only [setMessageResult, hmig, recordFrozen, horph.1, horph.2, if_true]
    exact .ignored rfl (Or.inr horph)
  have hheed : ¬ Ignored msg s := not_or.mpr ⟨hmig, horph⟩
  have hplace := hr.resolve_left hheed
  cases hp : placementOf s msg.appId msg.id with
  | none =>
    replace hplace := hplace.2 hp
    have hfrozen : isFrozenResult msg = false := (Bool.or_eq_false_iff.mp hplace).2
    have hev : recordedEvictions msg s = s.evictedRequests := by simp [recordedEvictions, hfrozen]
    have hhosts (h : Host) : releasedHosts msg s h = s.hostMap := by simp [releasedHosts, hplace]
    have hrec := @releaseAndRecord_eq msg s { ip := "", slots := 0, usedSlots := 0 }
      (by simp [hplace])
    have habs := @removeInFlight_absent msg { s with appResults := recordedResults msg s }
      (ha.apps msg.appId) hp
    have heq : setMessageResult msg s = (.ok (), { s with
        appResults := recordedResults msg s, sent := s.sent ++ notifications msg s }) := by
      rw [hhosts] at hrec
      have hfro := recordFrozen_eq horph
      rw [hev] at hfro
      simp only [setMessageResult, hmig, hfro, hrec, habs, notifyWaiters_eq, Bool.false_eq_true,
        if_false]
      rfl
    rw [heq]
    exact .repeated hp hplace ⟨rfl, rfl, rfl, rfl⟩ rfl rfl
  | some p =>
    have hhost : p.host = msg.executedHost := hplace.1 p hp
    unfold placementOf at hp
    cases hrun : s.inFlightReqs[msg.appId]? with
    | none => simp [hrun] at hp
    | some pair =>
      rw [hrun] at hp
      dsimp only at hp
      have hmem := List.mem_of_find?_eq_some hp
      obtain ⟨hport, h, hh⟩ := ha.exists_host (portsOn_le_leases hrun) hmem
      rw [markedOn_of_getElem? hh] at hport
      rw [hhost] at hh
      obtain ⟨h₁, mpiPorts, hh₁, hrel, hmove⟩ := released_hosts_move ha.hosts hh hport
      have hrec : releaseAndRecord msg { s with evictedRequests := recordedEvictions msg s } =
          (.ok (), { s with
            evictedRequests := recordedEvictions msg s
            hostMap := releasedHosts msg s h
            appResults := recordedResults msg s }) :=
        releaseAndRecord_eq h fun _ => hh
      have hrem := @removeInFlight_eq msg
        { s with
          evictedRequests := recordedEvictions msg s
          hostMap := releasedHosts msg s h
          appResults := recordedResults msg s } pair p h₁ mpiPorts hrun (ha.apps _ _ hrun) hp hh₁ hrel
      have heq : setMessageResult msg s = (.ok (), { s with
          hostMap := (releasedHosts msg s h).insert msg.executedHost { h₁ with mpiPorts }
          inFlightReqs :=
            if (removedPair msg.id pair).1.messages.isEmpty then s.inFlightReqs.erase msg.appId
            else s.inFlightReqs.insert msg.appId (removedPair msg.id pair)
          preloadedSchedulingDecisions :=
            if (removedPair msg.id pair).1.messages.isEmpty then
              s.preloadedSchedulingDecisions.erase msg.appId
            else s.preloadedSchedulingDecisions
          evictedRequests := recordedEvictions msg s
          appResults := recordedResults msg s
          sent := s.sent ++ notifications msg s }) := by
        unfold setMessageResult
        rw [if_neg hmig, recordFrozen_eq horph]
        dsimp only
        rw [hrec]
        dsimp only
        rw [hrem]
        dsimp only
        rw [notifyWaiters_eq]
        rfl
      rw [heq]
      refine .removed ⟨hheed, hrun, hp, hhost, ?_, rfl, rfl, rfl, rfl, rfl⟩
      rw [hhost]
      exact hmove

end Faabric
