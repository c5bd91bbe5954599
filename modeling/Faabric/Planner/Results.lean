import Faabric.Planner.CallBatch

/-! `Planner::setMessageResult`, `getMessageResult` and `getBatchResults`, cut at
the sections that hold the planner's lock. -/

namespace Faabric

open Std

def setFrozenMessage (msg : Message) : List Message → List Message
  | [] => []
  | m :: ms =>
    if m.id = msg.id then
      { m with
        funcPtr := msg.funcPtr
        inputData := msg.inputData
        snapshotKey := msg.snapshotKey
        returnValue := msg.returnValue } :: ms
    else m :: setFrozenMessage msg ms

def isFrozenResult (msg : Message) : Bool := msg.returnValue = FROZEN_FUNCTION_RETURN_VALUE

def isMigratedResult (msg : Message) : Bool := msg.returnValue = MIGRATED_FUNCTION_RETURN_VALUE

def hasResult (s : PlannerState) (appId msgId : Int) : Bool :=
  match s.appResults[appId]? with
  | none => false
  | some results => results.contains msgId

def recordFrozen (msg : Message) (s : PlannerState) : Except PlannerError Unit × PlannerState :=
  if isFrozenResult msg then
    match s.evictedRequests[msg.appId]? with
    | none => (.error (.runtimeError "Orphaned frozen message!"), s)
    | some ber =>
      (.ok (), { s with
        evictedRequests := s.evictedRequests.insert msg.appId
          { ber with messages := setFrozenMessage msg ber.messages } })
  else (.ok (), s)

/-- Release the slot once, and record the result. Looking up `appResults[appId]`
creates the entry of the app. -/
def releaseAndRecord (msg : Message) (s : PlannerState) : Except PlannerError Unit × PlannerState :=
  let results := s.appResults[msg.appId]?.getD ∅
  let s := { s with appResults := s.appResults.insert msg.appId results }
  let record (s : PlannerState) : PlannerState :=
    if isFrozenResult msg then s
    else { s with appResults := s.appResults.insert msg.appId (results.insert msg.id msg) }
  if !results.contains msg.id || isFrozenResult msg then
    match s.hostMap[msg.executedHost]? with
    | none => (.error .outOfRange, s)
    | some h => (.ok (), record { s with hostMap := s.hostMap.insert msg.executedHost (releaseHostSlots h) })
  else (.ok (), record s)

/-- Remove the message from the in-flight request and decision, and free its port
on the host that reported it. The last message takes the app out of flight. -/
def removeInFlight (msg : Message) (s : PlannerState) : Except PlannerError Unit × PlannerState :=
  match s.inFlightReqs[msg.appId]? with
  | none => (.ok (), s)
  | some (req, decision) =>
    if !(req.messages.any fun m => m.id == msg.id) then (.ok (), s)
    else
      let req := { req with messages := req.messages.eraseP fun m => m.id == msg.id }
      match decision.removeMessage msg.id with
      | .error e => (.error e, { s with inFlightReqs := s.inFlightReqs.insert msg.appId (req, decision) })
      | .ok (freedMpiPort, decision) =>
        let s := { s with inFlightReqs := s.inFlightReqs.insert msg.appId (req, decision) }
        match s.hostMap[msg.executedHost]? with
        | none => (.error .outOfRange, s)
        | some h =>
          match releaseHostMpiPort h freedMpiPort with
          | .error e => (.error e, s)
          | .ok h' =>
            let s := { s with hostMap := s.hostMap.insert msg.executedHost h' }
            if req.messages.isEmpty then
              (.ok (), { s with
                inFlightReqs := s.inFlightReqs.erase msg.appId
                preloadedSchedulingDecisions := s.preloadedSchedulingDecisions.erase msg.appId })
            else (.ok (), s)

def notifyWaiters (msg : Message) (s : PlannerState) : PlannerState :=
  if isFrozenResult msg then s
  else
    { s with
      sent := s.sent ++ (s.appResultWaiters[msg.id]?.getD []).map fun host => .setMessageResult host msg }

def setMessageResult (msg : Message) (s : PlannerState) : Except PlannerError Unit × PlannerState :=
  if isMigratedResult msg then (.ok (), s)
  else
    match recordFrozen msg s with
    | (.error e, s) => (.error e, s)
    | (.ok _, s) =>
      match releaseAndRecord msg s with
      | (.error e, s) => (.error e, s)
      | (.ok _, s) =>
        match removeInFlight msg s with
        | (.error e, s) => (.error e, s)
        | (.ok _, s) => (.ok (), notifyWaiters msg s)

def lookUpResult (s : PlannerState) (appId msgId : Int) : Option Message :=
  match s.appResults[appId]? with
  | none => none
  | some results => results[msgId]?

/-- The second section of `getMessageResult`: look again under the full lock, then
register the calling host, if it gave its address. -/
def registerInterest (msg : Message) (s : PlannerState) : Option Message × PlannerState :=
  if msg.mainHost = "" then (none, s)
  else
    match lookUpResult s msg.appId msg.id with
    | some result => (some result, s)
    | none =>
      (none, { s with
        appResultWaiters :=
          s.appResultWaiters.insert msg.id (s.appResultWaiters[msg.id]?.getD [] ++ [msg.mainHost]) })

def getMessageResult (msg : Message) (s : PlannerState) : Option Message × PlannerState :=
  match lookUpResult s msg.appId msg.id with
  | some result => (some result, s)
  | none => registerInterest msg s

/-- What a poll finds under the shared lock. -/
inductive BatchPoll where
  | noStatus
  | status (berStatus : BatchExecuteRequestStatus)
  | frozen (frozenBer : BatchExecuteRequest)
deriving DecidableEq, Repr

def pollStatus (appId : Int) (s : PlannerState) : BatchPoll :=
  match s.appResults[appId]? with
  | none => .noStatus
  | some results =>
    .status { appId, finished := !s.inFlightReqs.contains appId, messageResults := results.toList.map Prod.snd }

def isFrozenBer (ber : BatchExecuteRequest) : Bool :=
  ber.messages.all fun m => m.returnValue = FROZEN_FUNCTION_RETURN_VALUE

def pollBatch (appId : Int) (s : PlannerState) : BatchPoll :=
  match s.evictedRequests[appId]? with
  | none => pollStatus appId s
  | some ber =>
    if isFrozenBer ber then
      match s.inFlightReqs[appId]? with
      | none => .frozen ber
      | some (req, _) => if ber.messages.length = req.messages.length then .noStatus else .frozen ber
    else pollStatus appId s

def getBatchResults (env : CallEnv) (appId : Int) (s : PlannerState) :
    Except PlannerError (Option BatchExecuteRequestStatus) × PlannerState :=
  match pollBatch appId s with
  | .noStatus => (.ok none, s)
  | .status berStatus => (.ok (some berStatus), s)
  | .frozen frozenBer =>
    let berStatus : BatchExecuteRequestStatus := { appId, finished := false, messageResults := [] }
    if s.inFlightReqs.contains appId then (.ok (some berStatus), s)
    else
      match callBatch env frozenBer s with
      | (.error e, s) => (.error e, s)
      | (.ok _, s) => (.ok (some berStatus), s)

theorem pollBatch_frozen {appId : Int} {s : PlannerState} {ber : BatchExecuteRequest}
    (h : pollBatch appId s = .frozen ber) :
    s.evictedRequests[appId]? = some ber ∧ isFrozenBer ber = true := by
  unfold pollBatch pollStatus at h
  split at h
  · split at h <;> exact absurd h (by simp)
  · rename_i ber' he
    split_ifs at h with hfro
    · have hsame : ber' = ber := by
        split at h
        · exact BatchPoll.frozen.inj h
        · split_ifs at h
          exact BatchPoll.frozen.inj h
      exact ⟨hsame ▸ he, hsame ▸ hfro⟩
    · split at h <;> exact absurd h (by simp)

theorem getBatchResults_planner (env : CallEnv) (appId : Int) (s : PlannerState) :
    (getBatchResults env appId s).2 = s ∨ ∃ ber, s.evictedRequests[appId]? = some ber ∧
      isFrozenBer ber = true ∧ s.inFlightReqs[appId]? = none ∧
      (getBatchResults env appId s).2 = (callBatch env ber s).2 := by
  unfold getBatchResults
  split
  · exact Or.inl rfl
  · exact Or.inl rfl
  · rename_i ber hpoll
    obtain ⟨hev, hber⟩ := pollBatch_frozen hpoll
    dsimp only
    split_ifs with hin
    · exact Or.inl rfl
    · refine Or.inr ⟨ber, hev, hber, ?_, ?_⟩
      · rw [ExtTreeMap.contains_eq_isSome_getElem?] at hin
        simpa using hin
      · cases callBatch env ber s with
        | mk r s' => cases r <;> rfl

theorem getBatchResults_frozen {appId : Int} {s : PlannerState} {ber : BatchExecuteRequest} (env : CallEnv)
    (hev : s.evictedRequests[appId]? = some ber) (hber : isFrozenBer ber = true)
    (hnone : s.inFlightReqs[appId]? = none) :
    (getBatchResults env appId s).2 = (callBatch env ber s).2 := by
  have hpoll : pollBatch appId s = .frozen ber := by simp [pollBatch, hev, hber, hnone]
  have hout : s.inFlightReqs.contains appId = false := by
    simp [ExtTreeMap.contains_eq_isSome_getElem?, hnone]
  rw [getBatchResults, hpoll]
  simp only [hout, Bool.false_eq_true, if_false]
  cases callBatch env ber s with
  | mk r s' => cases r <;> rfl

end Faabric
