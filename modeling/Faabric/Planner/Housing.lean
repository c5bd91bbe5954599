import Faabric.Planner.CallTrace
import Faabric.Planner.ResultTrace

/-! Where a call may put the messages of its app, whether it succeeds, is refused or throws
half-way: on hosts the app had before, in flight or preloaded, and on those of the decision
that the call found. -/

namespace Faabric

open Std (ExtTreeMap)
open MapTotal

variable {h h' : Host} {port : Int} {d d' : SchedulingDecision} {x : String}
  {req : BatchExecuteRequest} {env : CallEnv} {t : DecisionType} {k : Bool}

/-! The hosts of an app. -/

def PlannerState.hostsOf (s : PlannerState) (app : Int) : List String :=
  ((s.inFlightReqs[app]?.map fun pair => pair.2.hosts).getD []) ++
    (s.preloadedSchedulingDecisions[app]?.map SchedulingDecision.hosts).getD []

variable {s : PlannerState}

theorem mem_hostsOf {app : Int} :
    x ∈ s.hostsOf app ↔ (∃ pair, s.inFlightReqs[app]? = some pair ∧ x ∈ pair.2.hosts) ∨
      ∃ d, s.preloadedSchedulingDecisions[app]? = some d ∧ x ∈ d.hosts := by
  unfold PlannerState.hostsOf
  rw [List.mem_append]
  refine or_congr ?_ ?_
  · cases s.inFlightReqs[app]? <;> simp
  · cases s.preloadedSchedulingDecisions[app]? <;> simp

structure Rehoused (app subType : Int) (hosts : List String) (s s' : PlannerState) : Prop where
  own : ∀ x ∈ s'.hostsOf app, x ∈ s.hostsOf app ∨ x ∈ hosts
  others : ∀ a, a ≠ app → s'.inFlightReqs[a]? = s.inFlightReqs[a]? ∧
    s'.preloadedSchedulingDecisions[a]? = s.preloadedSchedulingDecisions[a]?
  subTypes : ∀ pair', s'.inFlightReqs[app]? = some pair' → pair'.1.subType = subType ∨
    ∃ pair, s.inFlightReqs[app]? = some pair ∧ pair'.1.subType = pair.1.subType
  addressed : Addressed s.hostMap → Addressed s'.hostMap

namespace Rehoused

variable {app subType : Int} {hosts : List String} {s s₁ s' : PlannerState}

theorem of_maps (hi : s'.inFlightReqs = s.inFlightReqs)
    (hp : s'.preloadedSchedulingDecisions = s.preloadedSchedulingDecisions)
    (ha : Addressed s.hostMap → Addressed s'.hostMap) : Rehoused app subType hosts s s' := by
  refine ⟨?_, fun a _ => by rw [hi, hp]; exact ⟨rfl, rfl⟩, ?_, ha⟩
  · intro x hx
    unfold PlannerState.hostsOf at hx ⊢
    rw [hi, hp] at hx
    exact Or.inl hx
  · intro pair hpair
    rw [hi] at hpair
    exact Or.inr ⟨pair, hpair, rfl⟩

theorem trans (h : Rehoused app subType hosts s s₁) (h' : Rehoused app subType hosts s₁ s') :
    Rehoused app subType hosts s s' := by
  refine ⟨?_, ?_, ?_, fun ha => h'.addressed (h.addressed ha)⟩
  · intro x hx
    exact (h'.own x hx).elim (h.own x) Or.inr
  · intro a hne
    obtain ⟨h1, h2⟩ := h.others a hne
    obtain ⟨h3, h4⟩ := h'.others a hne
    exact ⟨h3.trans h1, h4.trans h2⟩
  · intro pair' hpair'
    rcases h'.subTypes pair' hpair' with he | ⟨pair₁, hpair₁, he⟩
    · exact Or.inl he
    · rcases h.subTypes pair₁ hpair₁ with he' | ⟨pair, hpair, he'⟩
      · exact Or.inl (he.trans he')
      · exact Or.inr ⟨pair, hpair, he.trans he'⟩

theorem subType_of {subType' : Int} (h : Rehoused app subType' hosts s s')
    (hsub : subType' = subType ∨ ∃ old, s.inFlightReqs[app]? = some old ∧ subType' = old.1.subType) :
    Rehoused app subType hosts s s' := by
  refine ⟨h.own, h.others, ?_, h.addressed⟩
  intro pair' hpair'
  rcases h.subTypes pair' hpair' with he | hold
  · rcases hsub with hs | ⟨old, hold, hs⟩
    · exact Or.inl (he.trans hs)
    · exact Or.inr ⟨old, hold, he.trans hs⟩
  · exact Or.inr hold

theorem replace (hinFlight : s'.inFlightReqs = s.inFlightReqs ∨
      ∃ pair, s'.inFlightReqs = s.inFlightReqs.insert app pair ∧
        InFlightPair.From pair app subType hosts s.inFlightReqs[app]?)
    (hpreloaded : s'.preloadedSchedulingDecisions = s.preloadedSchedulingDecisions ∨
      ∃ d, s'.preloadedSchedulingDecisions = s.preloadedSchedulingDecisions.insert app d ∧ d.hosts = hosts)
    (ha : Addressed s.hostMap → Addressed s'.hostMap) : Rehoused app subType hosts s s' := by
  refine ⟨?_, ?_, ?_, ha⟩
  · intro x hx
    rcases mem_hostsOf.mp hx with ⟨pair', hpair', hx⟩ | ⟨d, hd, hx⟩
    · rcases hinFlight with hi | ⟨pair, hi, hfrom⟩
      · rw [hi] at hpair'
        exact Or.inl (mem_hostsOf.mpr (Or.inl ⟨pair', hpair', hx⟩))
      · rw [hi, getElem?_insert_ite, if_pos rfl] at hpair'
        obtain rfl := Option.some.inj hpair'
        refine (hfrom.hosts x hx).symm.imp ?_ id
        rintro ⟨old, hold, hx⟩
        exact mem_hostsOf.mpr (Or.inl ⟨old, hold, hx⟩)
    · rcases hpreloaded with hp | ⟨d', hp, hd'⟩
      · rw [hp] at hd
        exact Or.inl (mem_hostsOf.mpr (Or.inr ⟨d, hd, hx⟩))
      · rw [hp, getElem?_insert_ite, if_pos rfl] at hd
        exact Or.inr (hd' ▸ Option.some.inj hd ▸ hx)
  · intro a hne
    constructor
    · rcases hinFlight with hi | ⟨pair, hi, -⟩
      · rw [hi]
      · rw [hi, getElem?_insert_ite, if_neg (Ne.symm hne)]
    · rcases hpreloaded with hp | ⟨d', hp, -⟩
      · rw [hp]
      · rw [hp, getElem?_insert_ite, if_neg (Ne.symm hne)]
  · intro pair' hpair'
    rcases hinFlight with hi | ⟨pair, hi, hfrom⟩
    · rw [hi] at hpair'
      exact Or.inr ⟨pair', hpair', rfl⟩
    · rw [hi, getElem?_insert_ite, if_pos rfl] at hpair'
      obtain rfl := Option.some.inj hpair'
      exact hfrom.ids.imp And.right fun ⟨old, hold, _, hsub⟩ => ⟨old, hold, hsub⟩

theorem drop (hi : s'.inFlightReqs = s.inFlightReqs ∨ s'.inFlightReqs = s.inFlightReqs.erase app)
    (hp : s'.preloadedSchedulingDecisions = s.preloadedSchedulingDecisions ∨
      s'.preloadedSchedulingDecisions = s.preloadedSchedulingDecisions.erase app)
    (ha : Addressed s.hostMap → Addressed s'.hostMap) : Rehoused app subType hosts s s' := by
  have hsub : ∀ (a : Int) pair, s'.inFlightReqs[a]? = some pair → s.inFlightReqs[a]? = some pair := by
    rcases hi with hi | hi <;> rw [hi]
    · exact fun _ _ => id
    · exact forall_erase fun _ _ => id
  have hsub' : ∀ (a : Int) d, s'.preloadedSchedulingDecisions[a]? = some d →
      s.preloadedSchedulingDecisions[a]? = some d := by
    rcases hp with hp | hp <;> rw [hp]
    · exact fun _ _ => id
    · exact forall_erase fun _ _ => id
  refine ⟨?_, ?_, fun pair hpair => Or.inr ⟨pair, hsub app pair hpair, rfl⟩, ha⟩
  · intro x hx
    refine Or.inl (mem_hostsOf.mpr ?_)
    rcases mem_hostsOf.mp hx with ⟨pair, hpair, hx⟩ | ⟨d, hd, hx⟩
    · exact Or.inl ⟨pair, hsub app pair hpair, hx⟩
    · exact Or.inr ⟨d, hsub' app d hd, hx⟩
  · intro a hne
    constructor
    · rcases hi with hi | hi
      · rw [hi]
      · rw [hi, getElem?_erase_ite, if_neg (Ne.symm hne)]
    · rcases hp with hp | hp
      · rw [hp]
      · rw [hp, getElem?_erase_ite, if_neg (Ne.symm hne)]

theorem hostsOf_eq (h : Rehoused app subType hosts s s') {a : Int} (hne : a ≠ app) :
    s'.hostsOf a = s.hostsOf a := by
  obtain ⟨hi, hp⟩ := h.others a hne
  unfold PlannerState.hostsOf
  rw [hi, hp]

end Rehoused

variable {s' : PlannerState} {r : Except PlannerError SchedulingDecision}

theorem Handled.rehoused (h : Handled req d k s r s') :
    Rehoused req.appId req.subType (committedHosts req d) s s' := by
  cases h with
  | refused => exact .of_maps rfl rfl id
  | frozen => exact .of_maps rfl rfl id
  | lost => exact .of_maps rfl rfl id
  | spread => exact .of_maps rfl rfl id
  | @committed evicted _ _ hint _ commit =>
    rw [committedHosts, if_neg hint]
    have hkeep : Rehoused req.appId req.subType d.hosts s { s with evictedRequests := evicted } :=
      .of_maps rfl rfl id
    refine hkeep.trans (.replace commit.inFlight ?_ commit.addressed)
    exact commit.preloaded.imp id fun ⟨d', hd', _, hhosts⟩ => ⟨d', hd', hhosts⟩

theorem Called.rehoused {hosts : List String} (h : Called env req s hosts r s') :
    Rehoused req.appId req.subType hosts s s' := by
  cases h with
  | unscheduled => exact .of_maps rfl rfl id
  | unprepared => exact .of_maps rfl rfl id
  | failed => exact .of_maps rfl rfl id
  | handled _ prepared scheduled _ handled =>
    obtain ⟨-, hh, hi, -, hpre⟩ := scheduled.frame
    have hrest := handled.rehoused
    rw [prepareRequest_appId prepared] at hrest hpre
    exact Rehoused.trans (.drop (Or.inl hi) hpre fun ha => hh ▸ ha)
      (hrest.subType_of (hi ▸ prepareRequest_subType prepared))

theorem callBatch_rehoused (env : CallEnv) (req : BatchExecuteRequest) (s : PlannerState) :
    Rehoused req.appId req.subType (placedHosts env req s) s (callBatch env req s).2 :=
  (callBatch_called env req s).rehoused

/-! The decision that is committed. -/

/-- The hosts on which a call has placed messages: those of the decision that is preloaded for a
new app of known size, else those of the decision it returns. -/
def resultHosts (req : BatchExecuteRequest) (knownSize : Bool) (d : SchedulingDecision) (s : PlannerState) :
    List String :=
  if knownSize then (s.preloadedSchedulingDecisions[req.appId]?.map SchedulingDecision.hosts).getD []
  else d.hosts

theorem Handled.result (h : Handled req d k s (.ok d') s')
    (hfresh : k = true → s.preloadedSchedulingDecisions[req.appId]? = none) :
    resultHosts req k d' s' = committedHosts req d := by
  have hnone : ∀ {v : SchedulingDecision} {s' : PlannerState}, v.hosts = [] →
      s'.preloadedSchedulingDecisions = s.preloadedSchedulingDecisions → resultHosts req k v s' = [] := by
    intro v s' hv hs'
    unfold resultHosts
    split_ifs with hkk
    · rw [hs', hfresh hkk]
      rfl
    · exact hv
  have hverdict : ∀ {s' : PlannerState}, d.hosts = [] →
      s'.preloadedSchedulingDecisions = s.preloadedSchedulingDecisions →
      resultHosts req k d s' = committedHosts req d := by
    intro s' hd hs'
    rw [hnone hd hs', committedHosts, hd, ite_self]
  cases h with
  | refused verdict => exact hverdict (by rcases verdict with rfl | rfl <;> rfl) rfl
  | frozen verdict => exact hverdict (by rw [verdict]; rfl) rfl
  | spread hint =>
    rw [committedHosts, if_pos hint]
    exact hnone rfl rfl
  | committed hint _ commit =>
    have hplaced := commit.placed d' rfl
    rw [committedHosts, if_neg hint, resultHosts]
    cases k with
    | false => exact hplaced
    | true =>
      rw [if_pos rfl] at hplaced ⊢
      rw [hplaced]
      rfl

theorem Called.result {hosts : List String} (h : Called env req s hosts (.ok d) s')
    (hpre : s.inFlightReqs[req.appId]? = none → s.preloadedSchedulingDecisions[req.appId]? = none) :
    resultHosts req (s.inFlightReqs[req.appId]?.isNone && (req.isMpi || req.isOmp)) d s' = hosts := by
  cases h with
  | @handled mode req' d₀ k _ s₁ _ _ prepared scheduled _ handled =>
    rw [← handled.result fun hk => (scheduled.known hk).2]
    have hkk : (s.inFlightReqs[req.appId]?.isNone && (req.isMpi || req.isOmp)) = k := by
      cases hrun : s.inFlightReqs[req.appId]? with
      | none =>
        have ht : getDecisionType s.inFlightReqs req = .new := getDecisionType_new hrun
        rw [ht] at prepared scheduled
        obtain rfl := Except.ok.inj prepared
        cases scheduled with
        | preloaded _ loaded => exact absurd ((hpre hrun).symm.trans loaded) (by simp)
        | made _ _ known =>
          rw [Bool.eq_iff_iff, known]
          simp
      | some old =>
        cases k with
        | false => rfl
        | true =>
          have hnew := getDecisionType_eq_new_iff.mp (scheduled.known rfl).1
          exact absurd (hrun.symm.trans hnew) (by simp)
    rw [hkk, resultHosts, resultHosts, prepareRequest_appId prepared]

theorem callBatch_result
    (hpre : s.inFlightReqs[req.appId]? = none → s.preloadedSchedulingDecisions[req.appId]? = none)
    (h : callBatch env req s = (.ok d, s')) :
    resultHosts req (s.inFlightReqs[req.appId]?.isNone && (req.isMpi || req.isOmp)) d s' =
      placedHosts env req s := by
  have hcalled := callBatch_called env req s
  rw [h] at hcalled
  exact hcalled.result hpre

theorem recordFrozen_hostMap (msg : Message) (s : PlannerState) :
    (recordFrozen msg s).2.hostMap = s.hostMap := by
  unfold recordFrozen
  split_ifs
  · split <;> rfl
  · rfl

theorem releaseAndRecord_addressed (msg : Message) (ha : Addressed s.hostMap) :
    Addressed (releaseAndRecord msg s).2.hostMap := by
  unfold releaseAndRecord
  dsimp only
  split_ifs
  · split
    · exact ha
    · rename_i h hh
      exact ha.insert hh rfl
  · split
    · exact ha
    · rename_i h hh
      exact ha.insert hh rfl
  · exact ha
  · exact ha

theorem removeInFlight_rehoused (msg : Message) (s : PlannerState) {subType : Int} :
    Rehoused msg.appId subType [] s (removeInFlight msg s).2 := by
  unfold removeInFlight
  split
  · exact .of_maps rfl rfl id
  · rename_i req d hrun
    split_ifs
    · exact .of_maps rfl rfl id
    · dsimp only
      have hinsert : ∀ (ms : List Message) (d' : SchedulingDecision), (∀ x ∈ d'.hosts, x ∈ d.hosts) →
          Rehoused msg.appId subType [] s
            { s with
              inFlightReqs := s.inFlightReqs.insert msg.appId ({ req with messages := ms }, d') } := by
        intro ms d' hd'
        refine .replace (Or.inr ⟨_, rfl, Or.inr ⟨(req, d), hrun, rfl, rfl⟩, ?_⟩) (Or.inl rfl) id
        exact fun x hx => Or.inr ⟨(req, d), hrun, hd' x hx⟩
      split
      · exact hinsert _ d fun x hx => hx
      · rename_i port d' hr
        have hd' : ∀ x ∈ d'.hosts, x ∈ d.hosts := fun x hx => removeMessage_hosts hr hx
        split
        · exact hinsert _ d' hd'
        · rename_i h hh
          split
          · exact hinsert _ d' hd'
          · rename_i h' hrel
            have hrelease : ∀ hosts', hosts' = s.hostMap.insert msg.executedHost h' →
                Addressed s.hostMap → Addressed hosts' := by
              rintro hosts' rfl ha
              exact ha.insert hh (releaseHostMpiPort_ip hrel)
            split_ifs
            · exact (hinsert _ d' hd').trans
                (.drop (Or.inr rfl) (Or.inr rfl) (hrelease _ rfl))
            · exact (hinsert _ d' hd').trans (.of_maps rfl rfl (hrelease _ rfl))

theorem setMessageResult_rehoused (msg : Message) (s : PlannerState) {subType : Int} :
    Rehoused msg.appId subType [] s (setMessageResult msg s).2 := by
  unfold setMessageResult
  split_ifs
  · exact .of_maps rfl rfl id
  have hfro : Rehoused msg.appId subType [] s (recordFrozen msg s).2 :=
    .of_maps (recordFrozen_maps msg s).1 (recordFrozen_maps msg s).2.1
      fun ha => (recordFrozen_hostMap msg s).symm ▸ ha
  generalize recordFrozen msg s = r at hfro
  obtain ⟨_ | _, s₁⟩ := r
  · exact hfro
  have hrec : Rehoused msg.appId subType [] s₁ (releaseAndRecord msg s₁).2 :=
    .of_maps (releaseAndRecord_maps msg s₁).1 (releaseAndRecord_maps msg s₁).2.1
      (releaseAndRecord_addressed msg)
  dsimp only
  generalize releaseAndRecord msg s₁ = r at hrec
  obtain ⟨_ | _, s₂⟩ := r
  · exact hfro.trans hrec
  have hrem := @removeInFlight_rehoused msg s₂ subType
  dsimp only
  generalize removeInFlight msg s₂ = r at hrem
  obtain ⟨_ | _, s₃⟩ := r
  · exact (hfro.trans hrec).trans hrem
  · refine ((hfro.trans hrec).trans hrem).trans ?_
    dsimp only
    rw [notifyWaiters_eq]
    exact .of_maps rfl rfl id

end Faabric
