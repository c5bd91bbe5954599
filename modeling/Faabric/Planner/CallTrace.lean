import Faabric.Planner.CallEffect

/-! What any call, whether it keeps the books, is refused or throws half-way, does to
the requests in flight, the evicted requests and the preloaded decisions. -/

namespace Faabric

open Std (ExtTreeMap)
open MapTotal

variable {s s' : PlannerState} {d : SchedulingDecision} {req : BatchExecuteRequest} {env : CallEnv}
  {t : DecisionType}

def PreloadsFixed (s : PlannerState) : Prop :=
  ∀ (app : Int) (d : SchedulingDecision), s.preloadedSchedulingDecisions[app]? = some d →
    d.groupId = FIXED_SIZE_PRELOADED_DECISION_GROUPID

theorem PreloadsFixed.insert (h : PreloadsFixed s) {app : Int}
    (hd : d.groupId = FIXED_SIZE_PRELOADED_DECISION_GROUPID)
    (he : s'.preloadedSchedulingDecisions = s.preloadedSchedulingDecisions.insert app d) :
    PreloadsFixed s' := by
  unfold PreloadsFixed
  rw [he]
  exact forall_insert h hd

theorem PreloadsFixed.erase (h : PreloadsFixed s) {app : Int}
    (he : s'.preloadedSchedulingDecisions = s.preloadedSchedulingDecisions.erase app) :
    PreloadsFixed s' := by
  unfold PreloadsFixed
  rw [he]
  exact forall_erase h

theorem PreloadsFixed.congr (h : PreloadsFixed s)
    (he : s'.preloadedSchedulingDecisions = s.preloadedSchedulingDecisions) : PreloadsFixed s' := by
  unfold PreloadsFixed
  rw [he]
  exact h

/-- The app's request in flight is as before, or is replaced by one with the app's id or
the id of the old one. -/
def MayReplace (app : Int) (inFlight inFlight' : InFlightReqs) : Prop :=
  inFlight' = inFlight ∨ ∃ pair, inFlight' = inFlight.insert app pair ∧
    (pair.1.appId = app ∨ ∃ old, inFlight[app]? = some old ∧ pair.1.appId = old.1.appId)

/-- The maps after a call. The evicted request of the app is as before, erased by a scale
change, or the request in flight that the call decided to freeze. -/
structure CallFrame (req : BatchExecuteRequest) (s : PlannerState)
    (r : Except PlannerError SchedulingDecision) (s' : PlannerState) : Prop where
  inFlight : MayReplace req.appId s.inFlightReqs s'.inFlightReqs
  evicted : s'.evictedRequests = s.evictedRequests ∨
    (s'.evictedRequests = s.evictedRequests.erase req.appId ∧ s.inFlightReqs[req.appId]?.isSome) ∨
    (r = .ok MUST_FREEZE_DECISION ∧ ∃ old, s.inFlightReqs[req.appId]? = some old ∧
      s'.evictedRequests = s.evictedRequests.insert req.appId old.1)
  preloads : PreloadsFixed s'

variable {r : Except PlannerError SchedulingDecision}

theorem CallFrame.unchanged (hi : s'.inFlightReqs = s.inFlightReqs)
    (he : s'.evictedRequests = s.evictedRequests) (hp : PreloadsFixed s') : CallFrame req s r s' :=
  ⟨Or.inl hi, Or.inl he, hp⟩

variable {hosts : List String}

theorem Committed.preloadsFixed {app subType : Int} {k : Bool} (h : Committed app subType hosts k s r s')
    (hp : PreloadsFixed s) : PreloadsFixed s' := by
  rcases h.preloaded with he | ⟨d, he, hd, -⟩
  · exact hp.congr he
  · exact hp.insert hd he

theorem Committed.mayReplace {app subType : Int} {k : Bool} (h : Committed app subType hosts k s r s') :
    MayReplace app s.inFlightReqs s'.inFlightReqs := by
  refine h.inFlight.imp id ?_
  rintro ⟨pair, he, hpair⟩
  refine ⟨pair, he, hpair.ids.imp And.left ?_⟩
  rintro ⟨old, hold, happ, -⟩
  exact ⟨old, hold, happ⟩

theorem Handled.frame {k : Bool} (hp : PreloadsFixed s)
    (hd : s.inFlightReqs[req.appId]? = none → d ≠ MUST_FREEZE_DECISION) (h : Handled req d k s r s') :
    CallFrame req s r s' := by
  cases h with
  | refused => exact .unchanged rfl rfl hp
  | frozen verdict running =>
    exact ⟨Or.inl rfl, Or.inr (Or.inr ⟨by rw [verdict], _, running, rfl⟩), hp⟩
  | lost verdict gone => exact absurd verdict (hd gone)
  | spread => exact .unchanged rfl rfl hp
  | committed _ unevicted commit =>
    refine ⟨commit.mayReplace, ?_, commit.preloadsFixed hp⟩
    rw [commit.evicted]
    exact unevicted.imp id Or.inl

/-! Choosing the decision. -/

theorem assignSlots_cases {hosts : List HostState}
    (h : (if (assignSlots hosts req.messages).2 ≠ [] then .ok NOT_ENOUGH_SLOTS_DECISION
      else .ok (decisionFor req.appId (assignSlots hosts req.messages).1) :
        Except PlannerError SchedulingDecision) = .ok d) :
    d = NOT_ENOUGH_SLOTS_DECISION ∨ Places req d := by
  split_ifs at h with hfit
  · exact Or.inl (Except.ok.inj h).symm
  · obtain rfl := Except.ok.inj h
    exact Or.inr (assignSlots_places (not_not.mp hfit))

theorem SchedulerMode.places_or_refuses {mode : SchedulerMode} {checks now : Int}
    {graph : RpcDependencyGraph} {M : HostMap} {inFlightReqs : InFlightReqs}
    (hd : getDecisionType inFlightReqs req ≠ .distChange)
    (h : mode.makeSchedulingDecision checks graph now M inFlightReqs req = .ok d) :
    d = NOT_ENOUGH_SLOTS_DECISION ∨ Places req d := by
  have hbin (hb : BinPack.makeSchedulingDecision M inFlightReqs req = .ok d) :
      d = NOT_ENOUGH_SLOTS_DECISION ∨ Places req d := by
    unfold BinPack.makeSchedulingDecision at hb
    dsimp only at hb
    split at hb
    · exact absurd hb (by simp)
    · simp only [if_neg hd] at hb
      exact assignSlots_cases hb
  cases mode with
  | binPack => exact hbin h
  | compact =>
    simp only [makeSchedulingDecision, Compact.makeSchedulingDecision, if_neg hd] at h
    exact assignSlots_cases h
  | spot =>
    simp only [makeSchedulingDecision, Spot.makeSchedulingDecision, if_neg hd] at h
    exact assignSlots_cases h
  | force =>
    simp only [makeSchedulingDecision, ForcedMigration.makeSchedulingDecision, if_neg hd] at h
    exact assignSlots_cases h
  | service =>
    have hr : ServiceLocality.isRpcServiceMigration inFlightReqs req = false := by
      simp [ServiceLocality.isRpcServiceMigration, hd]
    simp only [makeSchedulingDecision, ServiceLocality.makeSchedulingDecision, hr] at h
    exact hbin h

theorem Scheduled.freezable {mode : SchedulerMode} {k : Bool}
    (h : Scheduled env mode t req s (.ok (d, k)) s') (hp : PreloadsFixed s)
    (hnew : s.inFlightReqs[req.appId]? = none) : d ≠ MUST_FREEZE_DECISION := by
  cases h with
  | preloaded _ loaded =>
    intro hm
    have hg := congrArg SchedulingDecision.groupId hm
    dsimp only at hg
    rw [hp _ _ loaded] at hg
    exact absurd hg (by decide)
  | made _ _ _ scheduled decided =>
    have htype := getDecisionType_new hnew
    rw [scheduledRequest_eq scheduled] at decided
    rcases SchedulerMode.places_or_refuses (by erw [htype]; decide) decided with rfl | hplaces
    · decide
    · exact (verdict_of_ne hplaces.groupId).2.2

theorem Called.frame (hp : PreloadsFixed s) (h : Called env req s hosts r s') : CallFrame req s r s' := by
  cases h with
  | unscheduled => exact .unchanged rfl rfl hp
  | unprepared => exact .unchanged rfl rfl hp
  | failed => exact .unchanged rfl rfl hp
  | handled _ prepared scheduled _ handled =>
    obtain ⟨-, -, hi, he, hpre⟩ := scheduled.frame
    have happ := prepareRequest_appId prepared
    have hfix := hpre.elim (PreloadsFixed.congr hp) (PreloadsFixed.erase hp)
    have hf := handled.frame hfix fun hn => scheduled.freezable hp (by rwa [hi] at hn)
    obtain ⟨f1, f2, f3⟩ := hf
    rw [happ, hi] at f1
    rw [happ, hi, he] at f2
    exact ⟨f1, f2, f3⟩

theorem callBatch_frame (env : CallEnv) (req : BatchExecuteRequest) (hp : PreloadsFixed s) :
    CallFrame req s (callBatch env req s).1 (callBatch env req s).2 :=
  (callBatch_called env req s).frame hp

end Faabric
