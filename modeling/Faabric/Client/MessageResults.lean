import Faabric.Planner.Results

/-! Waiting for a message result: `PlannerClient::doGetMessageResult` on any number of
threads and hosts, cut at the sections that hold a lock, with the planner behind it and
its notifications on the way. -/

namespace Faabric

structure ResultPromise where
  value : Option Message := none
  retrieved : Bool := false
deriving DecidableEq, Repr

inductive CallPhase where
  | asking
  | absent
  | registered
  | waiting (promise : Nat)
  | timedOut
  | received (msg : Message)
  | returned (msg : Option Message)
  | threw
deriving DecidableEq, Repr

structure ResultCall where
  host : String
  appId : Int
  msgId : Int
  timeoutMs : Int
  phase : CallPhase := .asking
deriving DecidableEq, Repr

/-- The planner, the calls, the promise map of every host with the promises it points
to, the notifications sent so far and those not delivered yet, and whether a promise was
set a second time. The map owns its promises: one that it no longer points to is gone. -/
structure ResultSystem where
  planner : PlannerState
  calls : Nat → Option ResultCall := fun _ => none
  plannerResults : String → Int → Option Nat := fun _ _ => none
  promises : Nat → ResultPromise := fun _ => {}
  nextPromise : Nat := 0
  notified : List (String × Message) := []
  pending : List (String × Message) := []
  setTwice : Bool := false

namespace ResultSystem

def setCall (s : ResultSystem) (c : Nat) (call : ResultCall) : ResultSystem :=
  { s with calls := fun c' => if c' = c then some call else s.calls c' }

def setEntry (s : ResultSystem) (host : String) (msgId : Int) (entry : Option Nat) : ResultSystem :=
  { s with
    plannerResults := fun host' msgId' =>
      if host' = host ∧ msgId' = msgId then entry else s.plannerResults host' msgId' }

def setPromise (s : ResultSystem) (i : Nat) (promise : ResultPromise) : ResultSystem :=
  { s with promises := fun i' => if i' = i then promise else s.promises i' }

def promiseFor (s : ResultSystem) (host : String) (msgId : Int) : Nat × ResultSystem :=
  match s.plannerResults host msgId with
  | some i => (i, s)
  | none =>
    (s.nextPromise,
      { (s.setEntry host msgId (some s.nextPromise)).setPromise s.nextPromise {} with
        nextPromise := s.nextPromise + 1 })

def setMessageResultLocally (s : ResultSystem) (host : String) (msg : Message) : ResultSystem :=
  let (i, s) := s.promiseFor host msg.id
  match (s.promises i).value with
  | some _ => { s with setTwice := true }
  | none => s.setPromise i { s.promises i with value := some msg }

def decodeResult (result : Option Message) : Option Message :=
  result.filter fun msg => !(msg.id = 0 && msg.appId = 0)

def unanswered (call : ResultCall) : CallPhase :=
  if 0 < call.timeoutMs then .registered else .returned none

def lookUp (s : ResultSystem) (c : Nat) (call : ResultCall) : ResultSystem :=
  match lookUpResult s.planner call.appId call.msgId with
  | some result =>
    match decodeResult (some result) with
    | some msg => s.setCall c { call with phase := .returned (some msg) }
    | none => s.setCall c { call with phase := unanswered call }
  | none => s.setCall c { call with phase := .absent }

def register (s : ResultSystem) (c : Nat) (call : ResultCall) : ResultSystem :=
  let r := registerInterest { id := call.msgId, appId := call.appId, mainHost := call.host } s.planner
  match decodeResult r.1 with
  | some msg => { s with planner := r.2 }.setCall c { call with phase := .returned (some msg) }
  | none => { s with planner := r.2 }.setCall c { call with phase := unanswered call }

def prepare (s : ResultSystem) (c : Nat) (call : ResultCall) : ResultSystem :=
  let (i, s) := s.promiseFor call.host call.msgId
  if (s.promises i).retrieved then s.setCall c { call with phase := .threw }
  else
    (s.setPromise i { s.promises i with retrieved := true }).setCall c
      { call with phase := .waiting i }

def awake (s : ResultSystem) (c : Nat) (call : ResultCall) (i : Nat) : ResultSystem :=
  match (s.promises i).value with
  | some msg => s.setCall c { call with phase := .received msg }
  | none =>
    if s.plannerResults call.host call.msgId = some i then s
    else s.setCall c { call with phase := .threw }

def timeOut (s : ResultSystem) (c : Nat) (call : ResultCall) (i : Nat) : ResultSystem :=
  match (s.promises i).value with
  | some _ => s
  | none =>
    if s.plannerResults call.host call.msgId = some i then
      s.setCall c { call with phase := .timedOut }
    else s

def finish (s : ResultSystem) (c : Nat) (call : ResultCall) (msg : Option Message) : ResultSystem :=
  (s.setEntry call.host call.msgId none).setCall c { call with phase := .returned msg }

end ResultSystem

inductive ResultAction where
  | getMessageResult (c : Nat) (host : String) (appId msgId timeoutMs : Int)
  | lookUp (c : Nat)
  | register (c : Nat)
  | prepare (c : Nat)
  | awake (c : Nat)
  | timeOut (c : Nat)
  | finish (c : Nat)
  | setMessageResult (msg : Message)
  | deliver (k : Nat)
  | callBatch (env : CallEnv) (req : BatchExecuteRequest)

def notificationsIn (sent : List Outgoing) : List (String × Message) :=
  sent.filterMap fun o =>
    match o with
    | .setMessageResult host msg => some (host, msg)
    | _ => none

def ResultAction.step (s : ResultSystem) : ResultAction → ResultSystem
  | .getMessageResult c host appId msgId timeoutMs =>
    match s.calls c with
    | none => s.setCall c { host, appId, msgId, timeoutMs }
    | some _ => s
  | .lookUp c =>
    match s.calls c with
    | some call => if call.phase = .asking then s.lookUp c call else s
    | none => s
  | .register c =>
    match s.calls c with
    | some call => if call.phase = .absent then s.register c call else s
    | none => s
  | .prepare c =>
    match s.calls c with
    | some call => if call.phase = .registered then s.prepare c call else s
    | none => s
  | .awake c =>
    match s.calls c with
    | some call =>
      match call.phase with
      | .waiting i => s.awake c call i
      | _ => s
    | none => s
  | .timeOut c =>
    match s.calls c with
    | some call =>
      match call.phase with
      | .waiting i => s.timeOut c call i
      | _ => s
    | none => s
  | .finish c =>
    match s.calls c with
    | some call =>
      match call.phase with
      | .timedOut => s.finish c call none
      | .received msg => s.finish c call (some msg)
      | _ => s
    | none => s
  | .setMessageResult msg =>
    let planner := (Faabric.setMessageResult msg s.planner).2
    let told := notificationsIn (planner.sent.drop s.planner.sent.length)
    { s with planner, notified := s.notified ++ told, pending := s.pending ++ told }
  | .deliver k =>
    match s.pending[k]? with
    | some (host, msg) => { s with pending := s.pending.eraseIdx k }.setMessageResultLocally host msg
    | none => s
  | .callBatch env req => { s with planner := (Faabric.callBatch env req s.planner).2 }

end Faabric
