import Faabric.Planner.CallTrace
import Faabric.Planner.ResultEffect

/-! What any result, whether it keeps the books or not, does to the recorded results,
the waiters, and the requests in flight and evicted. -/

namespace Faabric

open Std (ExtTreeMap)
open MapTotal

variable {s s' : PlannerState}

theorem lookUpResult_eq (s : PlannerState) (appId msgId : Int) :
    lookUpResult s appId msgId = (s.appResults[appId]?.getD ∅)[msgId]? := by
  unfold lookUpResult
  cases s.appResults[appId]? <;> simp

theorem lookUpResult_insert {app : Int} {results : ExtTreeMap Int Message compare}
    (h : s'.appResults = s.appResults.insert app results) (appId msgId : Int) :
    lookUpResult s' appId msgId = if app = appId then results[msgId]? else lookUpResult s appId msgId := by
  simp only [lookUpResult_eq, h, getElem?_insert_ite]
  split_ifs <;> rfl

theorem recordFrozen_results (msg : Message) (s : PlannerState) :
    (recordFrozen msg s).2.appResults = s.appResults ∧
      (recordFrozen msg s).2.appResultWaiters = s.appResultWaiters ∧
      (recordFrozen msg s).2.sent = s.sent := by
  unfold recordFrozen
  split_ifs
  · split <;> exact ⟨rfl, rfl, rfl⟩
  · exact ⟨rfl, rfl, rfl⟩

theorem releaseAndRecord_waiters (msg : Message) (s : PlannerState) :
    (releaseAndRecord msg s).2.appResultWaiters = s.appResultWaiters ∧
      (releaseAndRecord msg s).2.sent = s.sent := by
  unfold releaseAndRecord
  dsimp only
  split_ifs <;> first | exact ⟨rfl, rfl⟩ | (split <;> exact ⟨rfl, rfl⟩)

theorem releaseAndRecord_appResults (msg : Message) (s : PlannerState) :
    (releaseAndRecord msg s).2.appResults =
      match (releaseAndRecord msg s).1 with
      | .error _ => s.appResults.insert msg.appId (s.appResults[msg.appId]?.getD ∅)
      | .ok _ => recordedResults msg s := by
  unfold releaseAndRecord recordedResults
  cases hf : isFrozenResult msg <;> cases hc : (s.appResults[msg.appId]?.getD ∅).contains msg.id <;>
    cases hh : s.hostMap[msg.executedHost]? <;> simp [hc, hh, insert_insert_results]

theorem removeInFlight_results (msg : Message) (s : PlannerState) :
    (removeInFlight msg s).2.appResults = s.appResults ∧
      (removeInFlight msg s).2.appResultWaiters = s.appResultWaiters ∧
      (removeInFlight msg s).2.sent = s.sent := by
  unfold removeInFlight
  repeat' (first | exact ⟨rfl, rfl, rfl⟩ | split | dsimp only)

/-- The results and the waiters after a result: without a notification nothing new is
recorded, unless an error follows; with one for every waiter the result is recorded. -/
structure ResultTrace (msg : Message) (s : PlannerState) (r : Except PlannerError Unit)
    (s' : PlannerState) : Prop where
  waiters : s'.appResultWaiters = s.appResultWaiters
  others : ∀ appId msgId, ¬ (msg.appId = appId ∧ msg.id = msgId) →
    lookUpResult s' appId msgId = lookUpResult s appId msgId
  outcome : (s'.sent = s.sent ∧
      (lookUpResult s' msg.appId msg.id = lookUpResult s msg.appId msg.id ∨
        r ≠ .ok () ∧ lookUpResult s' msg.appId msg.id = some msg)) ∨
    (r = .ok () ∧ lookUpResult s' msg.appId msg.id = some msg ∧
      s'.sent = s.sent ++
        (s.appResultWaiters[msg.id]?.getD []).map fun host => .setMessageResult host msg)

theorem ResultTrace.silent {msg : Message} {r : Except PlannerError Unit}
    (hres : ∀ appId msgId, lookUpResult s' appId msgId = lookUpResult s appId msgId)
    (hw : s'.appResultWaiters = s.appResultWaiters) (hsent : s'.sent = s.sent) :
    ResultTrace msg s r s' :=
  ⟨hw, fun appId msgId _ => hres appId msgId, Or.inl ⟨hsent, Or.inl (hres _ _)⟩⟩

theorem lookUpResult_congr (h : s'.appResults = s.appResults) (appId msgId : Int) :
    lookUpResult s' appId msgId = lookUpResult s appId msgId := by
  simp only [lookUpResult, h]

theorem lookUpResult_touched {app : Int}
    (h : s'.appResults = s.appResults.insert app (s.appResults[app]?.getD ∅)) (appId msgId : Int) :
    lookUpResult s' appId msgId = lookUpResult s appId msgId := by
  rw [lookUpResult_insert h]
  split_ifs with ha
  · rw [ha, lookUpResult_eq]
  · rfl

theorem lookUpResult_recorded {msg : Message} (hf : isFrozenResult msg = false)
    (h : s'.appResults = recordedResults msg s) (appId msgId : Int) :
    lookUpResult s' appId msgId =
      if msg.appId = appId ∧ msg.id = msgId then some msg else lookUpResult s appId msgId := by
  simp only [recordedResults, hf, Bool.false_eq_true, if_false] at h
  rw [lookUpResult_insert h, getElem?_insert_ite]
  by_cases ha : msg.appId = appId
  · simp only [ha, true_and, if_true]
    rw [lookUpResult_eq]
  · simp [ha]

theorem setMessageResult_trace (msg : Message) (s : PlannerState) :
    ResultTrace msg s (setMessageResult msg s).1 (setMessageResult msg s).2 := by
  unfold setMessageResult
  split_ifs with hmig
  · exact .silent (fun _ _ => rfl) rfl rfl
  have hfro := recordFrozen_results msg s
  generalize recordFrozen msg s = q at hfro
  obtain ⟨_ | _, s₁⟩ := q
  · exact .silent (lookUpResult_congr hfro.1) hfro.2.1 hfro.2.2
  have hw := releaseAndRecord_waiters msg s₁
  have hrec := releaseAndRecord_appResults msg s₁
  dsimp only
  generalize releaseAndRecord msg s₁ = q at hw hrec
  have hlook := lookUpResult_congr hfro.1
  obtain ⟨_ | _, s₂⟩ := q
  · refine .silent ?_ (hw.1.trans hfro.2.1) (hw.2.trans hfro.2.2)
    intro appId msgId
    exact (lookUpResult_touched hrec appId msgId).trans (hlook appId msgId)
  have hrem := removeInFlight_results msg s₂
  dsimp only at hrec ⊢
  generalize removeInFlight msg s₂ = q at hrem
  obtain ⟨r, s₃⟩ := q
  have hwait : s₃.appResultWaiters = s.appResultWaiters := hrem.2.1.trans (hw.1.trans hfro.2.1)
  have hsent : s₃.sent = s.sent := hrem.2.2.trans (hw.2.trans hfro.2.2)
  have hres : s₃.appResults = recordedResults msg s₁ := hrem.1.trans hrec
  cases hf : isFrozenResult msg with
  | true =>
    simp only [recordedResults, hf, if_true] at hres
    have hall (appId msgId : Int) : lookUpResult s₃ appId msgId = lookUpResult s appId msgId :=
      (lookUpResult_touched hres appId msgId).trans (hlook appId msgId)
    cases r with
    | error e => exact .silent hall hwait hsent
    | ok _ =>
      simp only [notifyWaiters, hf, if_true]
      exact .silent hall hwait hsent
  | false =>
    have hat := lookUpResult_recorded hf hres
    have hnew : lookUpResult s₃ msg.appId msg.id = some msg := by
      rw [hat]
      simp
    have hothers (appId msgId : Int) (hne : ¬ (msg.appId = appId ∧ msg.id = msgId)) :
        lookUpResult s₃ appId msgId = lookUpResult s appId msgId := by
      rw [hat, if_neg hne, hlook]
    cases r with
    | error e => exact ⟨hwait, hothers, Or.inl ⟨hsent, Or.inr ⟨by simp, hnew⟩⟩⟩
    | ok _ =>
      simp only [notifyWaiters, hf, Bool.false_eq_true, if_false]
      refine ⟨hwait, hothers, Or.inr ⟨rfl, hnew, ?_⟩⟩
      dsimp only
      rw [hsent, hwait]

/-- The maps after a result. The app leaves flight or loses a message, and its evicted
request, if there is one, may take the fields of a frozen message. -/
structure ResultFrame (msg : Message) (s s' : PlannerState) : Prop where
  inFlight : s'.inFlightReqs = s.inFlightReqs ∨ s'.inFlightReqs = s.inFlightReqs.erase msg.appId ∨
    ∃ old pair, s.inFlightReqs[msg.appId]? = some old ∧
      s'.inFlightReqs = s.inFlightReqs.insert msg.appId pair ∧ pair.1.appId = old.1.appId
  evicted : s'.evictedRequests = s.evictedRequests ∨
    ∃ ber ms, s.evictedRequests[msg.appId]? = some ber ∧
      s'.evictedRequests = s.evictedRequests.insert msg.appId { ber with messages := ms }
  preloads : s'.preloadedSchedulingDecisions = s.preloadedSchedulingDecisions ∨
    s'.preloadedSchedulingDecisions = s.preloadedSchedulingDecisions.erase msg.appId

theorem recordFrozen_maps (msg : Message) (s : PlannerState) :
    (recordFrozen msg s).2.inFlightReqs = s.inFlightReqs ∧
      (recordFrozen msg s).2.preloadedSchedulingDecisions = s.preloadedSchedulingDecisions ∧
      ((recordFrozen msg s).2.evictedRequests = s.evictedRequests ∨
        ∃ ber ms, s.evictedRequests[msg.appId]? = some ber ∧
          (recordFrozen msg s).2.evictedRequests =
            s.evictedRequests.insert msg.appId { ber with messages := ms }) := by
  unfold recordFrozen
  split_ifs
  · cases he : s.evictedRequests[msg.appId]? with
    | none => exact ⟨rfl, rfl, Or.inl rfl⟩
    | some ber => exact ⟨rfl, rfl, Or.inr ⟨ber, _, rfl, rfl⟩⟩
  · exact ⟨rfl, rfl, Or.inl rfl⟩

theorem releaseAndRecord_maps (msg : Message) (s : PlannerState) :
    (releaseAndRecord msg s).2.inFlightReqs = s.inFlightReqs ∧
      (releaseAndRecord msg s).2.preloadedSchedulingDecisions = s.preloadedSchedulingDecisions ∧
      (releaseAndRecord msg s).2.evictedRequests = s.evictedRequests := by
  unfold releaseAndRecord
  dsimp only
  split_ifs <;> first | exact ⟨rfl, rfl, rfl⟩ | (split <;> exact ⟨rfl, rfl, rfl⟩)

theorem removeInFlight_maps (msg : Message) (s : PlannerState) :
    ((removeInFlight msg s).2.inFlightReqs = s.inFlightReqs ∨
        (removeInFlight msg s).2.inFlightReqs = s.inFlightReqs.erase msg.appId ∨
        ∃ old pair, s.inFlightReqs[msg.appId]? = some old ∧
          (removeInFlight msg s).2.inFlightReqs = s.inFlightReqs.insert msg.appId pair ∧
          pair.1.appId = old.1.appId) ∧
      ((removeInFlight msg s).2.preloadedSchedulingDecisions = s.preloadedSchedulingDecisions ∨
        (removeInFlight msg s).2.preloadedSchedulingDecisions =
          s.preloadedSchedulingDecisions.erase msg.appId) ∧
      (removeInFlight msg s).2.evictedRequests = s.evictedRequests := by
  unfold removeInFlight
  split
  · exact ⟨Or.inl rfl, Or.inl rfl, rfl⟩
  · rename_i req decision hrun
    split_ifs
    · exact ⟨Or.inl rfl, Or.inl rfl, rfl⟩
    · dsimp only
      split
      · exact ⟨Or.inr (Or.inr ⟨_, _, hrun, rfl, rfl⟩), Or.inl rfl, rfl⟩
      · split
        · exact ⟨Or.inr (Or.inr ⟨_, _, hrun, rfl, rfl⟩), Or.inl rfl, rfl⟩
        · split
          · exact ⟨Or.inr (Or.inr ⟨_, _, hrun, rfl, rfl⟩), Or.inl rfl, rfl⟩
          · split_ifs
            · refine ⟨Or.inr (Or.inl ?_), Or.inr rfl, rfl⟩
              apply ExtTreeMap.ext_getElem?
              intro a
              simp only [getElem?_erase_ite, getElem?_insert_ite]
              split_ifs <;> rfl
            · exact ⟨Or.inr (Or.inr ⟨_, _, hrun, rfl, rfl⟩), Or.inl rfl, rfl⟩

theorem setMessageResult_frame (msg : Message) (s : PlannerState) :
    ResultFrame msg s (setMessageResult msg s).2 := by
  unfold setMessageResult
  split_ifs
  · exact ⟨Or.inl rfl, Or.inl rfl, Or.inl rfl⟩
  have hfro := recordFrozen_maps msg s
  generalize recordFrozen msg s = q at hfro
  obtain ⟨_ | _, s₁⟩ := q
  · exact ⟨Or.inl hfro.1, hfro.2.2, Or.inl hfro.2.1⟩
  have hrec := releaseAndRecord_maps msg s₁
  dsimp only at hfro ⊢
  generalize releaseAndRecord msg s₁ = q at hrec
  obtain ⟨_ | _, s₂⟩ := q <;> dsimp only at hrec ⊢
  all_goals
    rw [hfro.1, hfro.2.1] at hrec
    have hev := hfro.2.2
    rw [← hrec.2.2] at hev
  · exact ⟨Or.inl hrec.1, hev, Or.inl hrec.2.1⟩
  have hrem := removeInFlight_maps msg s₂
  rw [hrec.1, hrec.2.1] at hrem
  generalize removeInFlight msg s₂ = q at hrem
  obtain ⟨_ | _, s₃⟩ := q <;> dsimp only at hrem ⊢
  all_goals rw [← hrem.2.2] at hev
  · exact ⟨hrem.1, hev, hrem.2.1⟩
  · rw [notifyWaiters_eq]
    exact ⟨hrem.1, hev, hrem.2.1⟩

end Faabric
