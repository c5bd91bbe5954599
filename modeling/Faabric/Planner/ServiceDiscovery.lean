import Faabric.Lib.GuardedRun
import Faabric.Lib.MapTotal
import Faabric.Lib.RoundRobin
import Faabric.Rpc.Messages

/-! Service discovery. The calls that choose among the same endpoints take turns as long as
nothing else has moved their counter in between. -/

namespace Faabric

open Std (ExtTreeMap)
open MapTotal RoundRobin

structure DiscoveryState where
  readyServices : ExtTreeMap String (List ServiceEndpoint) compare
  serviceRrCounter : ExtTreeMap String Nat compare := ∅

def DiscoveryState.countUp (s : DiscoveryState) (key : String) : Nat × DiscoveryState :=
  let count := s.serviceRrCounter[key]?.getD 0
  (count, { s with serviceRrCounter := s.serviceRrCounter.insert key ((count + 1) % 2 ^ 64) })

def localEndpoints (endpoints : List ServiceEndpoint) (callerHost : String) : List ServiceEndpoint :=
  if callerHost = "" then [] else endpoints.filter fun e => e.host = callerHost

def discoverService (s : DiscoveryState) (serviceName callerHost : String) :
    Option ServiceEndpoint × DiscoveryState :=
  match s.readyServices[serviceName]? with
  | none => (none, s)
  | some endpoints =>
    if endpoints = [] then (none, s)
    else
      let here := localEndpoints endpoints callerHost
      if here ≠ [] then
        let (idx, s) := s.countUp (serviceName ++ "@local")
        (here[idx % here.length]?, s)
      else
        let (idx, s) := s.countUp serviceName
        (endpoints[idx % endpoints.length]?, s)

/-! ### Calls that choose among the same endpoints -/

/-- The calls for a service from one host with endpoints of its own, or from all other hosts. -/
structure CallKind where
  serviceName : String
  host : Option String
deriving DecidableEq, Repr

def endpointsOf (ready : ExtTreeMap String (List ServiceEndpoint) compare) (serviceName : String) :
    List ServiceEndpoint :=
  ready[serviceName]?.getD []

def CallKind.choices (ready : ExtTreeMap String (List ServiceEndpoint) compare) (kind : CallKind) :
    List ServiceEndpoint :=
  match kind.host with
  | none => endpointsOf ready kind.serviceName
  | some host => localEndpoints (endpointsOf ready kind.serviceName) host

def CallKind.counter (kind : CallKind) : String :=
  match kind.host with
  | none => kind.serviceName
  | some _ => kind.serviceName ++ "@local"

def callKind (ready : ExtTreeMap String (List ServiceEndpoint) compare) (serviceName callerHost : String) :
    CallKind :=
  { serviceName, host :=
    if localEndpoints (endpointsOf ready serviceName) callerHost = [] then none else some callerHost }

/-- What has been returned to the calls of each kind, and the counter after the last of them, are
history. -/
structure DiscoverySystem extends DiscoveryState where
  returned : CallKind → List ServiceEndpoint := fun _ => []
  resumeAt : CallKind → Option Nat := fun _ => none

namespace DiscoverySystem

def count (s : DiscoverySystem) (kind : CallKind) : Nat := s.serviceRrCounter[kind.counter]?.getD 0

def step (s : DiscoverySystem) (call : String × String) : DiscoverySystem :=
  let kind := callKind s.readyServices call.1 call.2
  let r := discoverService s.toDiscoveryState call.1 call.2
  { toDiscoveryState := r.2
    returned := Function.update s.returned kind (s.returned kind ++ r.1.toList)
    resumeAt := Function.update s.resumeAt kind (some (s.count kind + 1)) }

/-- Since the last call of its kind other calls, or the end of the range of `size_t`, have moved the
counter by a multiple of the number of endpoints at most. -/
def InTurn (s : DiscoverySystem) (call : String × String) : Prop :=
  let kind := callKind s.readyServices call.1 call.2
  ∀ resume ∈ s.resumeAt kind,
    s.count kind % (kind.choices s.readyServices).length = resume % (kind.choices s.readyServices).length

instance (s : DiscoverySystem) (call : String × String) : Decidable (s.InTurn call) :=
  inferInstanceAs (Decidable (∀ resume ∈ s.resumeAt _, _))

theorem discoverService_eq (s : DiscoverySystem) (serviceName callerHost : String) :
    (discoverService s.toDiscoveryState serviceName callerHost).2.readyServices = s.readyServices ∧
    (discoverService s.toDiscoveryState serviceName callerHost).1 =
      ((callKind s.readyServices serviceName callerHost).choices s.readyServices)[
        s.count (callKind s.readyServices serviceName callerHost) %
          ((callKind s.readyServices serviceName callerHost).choices s.readyServices).length]? := by
  unfold discoverService callKind CallKind.choices count CallKind.counter
  cases hr : s.readyServices[serviceName]? with
  | none => simp [endpointsOf, hr, localEndpoints]
  | some endpoints =>
    have he : endpointsOf s.readyServices serviceName = endpoints := by simp [endpointsOf, hr]
    by_cases hempty : endpoints = []
    · simp [he, hempty, localEndpoints]
    · by_cases hlocal : localEndpoints endpoints callerHost = []
      · simp [he, hempty, hlocal, DiscoveryState.countUp]
      · simp [he, hempty, hlocal, DiscoveryState.countUp]

structure TakesTurns (ready : ExtTreeMap String (List ServiceEndpoint) compare) (s : DiscoverySystem) :
    Prop where
  fixed : s.readyServices = ready
  taken : ∀ kind, (s.resumeAt kind = none ∧ s.returned kind = []) ∨
    ∃ start k, s.returned kind = turns (kind.choices ready) start k ∧
      ∃ resume, s.resumeAt kind = some resume ∧
        resume % (kind.choices ready).length = (start + k) % (kind.choices ready).length

variable {ready : ExtTreeMap String (List ServiceEndpoint) compare}

theorem TakesTurns.exists_turns {s : DiscoverySystem} (h : TakesTurns ready s) (kind : CallKind) :
    ∃ start k, s.returned kind = turns (kind.choices ready) start k := by
  rcases h.taken kind with ⟨-, hnil⟩ | ⟨start, k, hret, -⟩
  · exact ⟨0, 0, hnil⟩
  · exact ⟨start, k, hret⟩

theorem TakesTurns.step {s : DiscoverySystem} (h : TakesTurns ready s) (call : String × String)
    (hturn : s.InTurn call) : TakesTurns ready (s.step call) := by
  obtain ⟨hready, hresult⟩ := discoverService_eq s call.1 call.2
  unfold InTurn at hturn
  dsimp only at hturn
  rw [h.fixed] at hready hresult hturn
  set kind := callKind ready call.1 call.2 with hkind
  have hkind' : callKind s.readyServices call.1 call.2 = kind := by rw [h.fixed]
  refine ⟨hready, fun other => ?_⟩
  by_cases ho : other = kind
  · right
    simp only [DiscoverySystem.step, hkind', ho, Function.update_self, hresult]
    rcases h.taken kind with ⟨-, hnil⟩ | ⟨start, k, hret, resume, hr, hmod⟩
    · -- The first call of its kind begins where the counter is.
      refine ⟨s.count kind, 1, ?_, _, rfl, rfl⟩
      rw [hnil]
      rfl
    · have hnext := hturn resume hr
      refine ⟨start, k + 1, ?_, _, rfl, ?_⟩
      · rw [hret, turns, hnext, hmod]
      · rw [Nat.add_mod, hnext, hmod, ← Nat.add_mod, Nat.add_assoc]
  · simp only [DiscoverySystem.step, hkind', Function.update_of_ne ho]
    exact h.taken other

end DiscoverySystem

/-- Whatever the counters were at first, the calls from one host get the endpoints of the service on
that host equally often up to one, and so do all calls from hosts without one all endpoints. -/
theorem discovery_balances {start : DiscoverySystem} {calls : List (String × String)}
    (hnodup : ∀ serviceName, (endpointsOf start.readyServices serviceName).Nodup)
    (hnew : ∀ kind, start.returned kind = [] ∧ start.resumeAt kind = none)
    (hturns : GuardedRun.Meets DiscoverySystem.step DiscoverySystem.InTurn start calls)
    (serviceName : String) :
    (∀ host, ∀ e ∈ localEndpoints (endpointsOf start.readyServices serviceName) host,
      ∀ e' ∈ localEndpoints (endpointsOf start.readyServices serviceName) host,
        ((GuardedRun.run DiscoverySystem.step start calls).returned ⟨serviceName, some host⟩).count e ≤
          ((GuardedRun.run DiscoverySystem.step start calls).returned ⟨serviceName, some host⟩).count e' + 1) ∧
    ∀ e ∈ endpointsOf start.readyServices serviceName, ∀ e' ∈ endpointsOf start.readyServices serviceName,
      ((GuardedRun.run DiscoverySystem.step start calls).returned ⟨serviceName, none⟩).count e ≤
        ((GuardedRun.run DiscoverySystem.step start calls).returned ⟨serviceName, none⟩).count e' + 1 := by
  have hstep : ∀ (s : DiscoverySystem) (call : String × String),
      DiscoverySystem.TakesTurns start.readyServices s → s.InTurn call →
        DiscoverySystem.TakesTurns start.readyServices (s.step call) :=
    fun s call h hturn => h.step call hturn
  have hstart : DiscoverySystem.TakesTurns start.readyServices start :=
    ⟨rfl, fun kind => Or.inl (hnew kind).symm⟩
  have h := GuardedRun.Meets.invariant hstep hturns hstart
  constructor
  · intro host e he e' he'
    obtain ⟨first, k, hret⟩ := h.exists_turns ⟨serviceName, some host⟩
    rw [hret]
    refine turns_balanced ?_ first k he he'
    unfold CallKind.choices localEndpoints
    dsimp only
    split_ifs
    · exact List.nodup_nil
    · exact (hnodup serviceName).filter _
  · intro e he e' he'
    obtain ⟨first, k, hret⟩ := h.exists_turns ⟨serviceName, none⟩
    rw [hret]
    exact turns_balanced (hnodup serviceName) first k he he'

def twoOnEachHost : DiscoverySystem :=
  { readyServices := (∅ : ExtTreeMap String (List ServiceEndpoint) compare).insert "svc"
      [⟨"svc", "a", 1, 1⟩, ⟨"svc", "a", 1, 2⟩, ⟨"svc", "b", 1, 3⟩, ⟨"svc", "b", 1, 4⟩] }

theorem discovery_balances_one_host :
    ((GuardedRun.run DiscoverySystem.step twoOnEachHost
      [("svc", "a"), ("svc", "c"), ("svc", "a"), ("svc", "c"), ("svc", "a")]).returned ⟨"svc", some "a"⟩).count
        ⟨"svc", "a", 1, 1⟩ ≤
    ((GuardedRun.run DiscoverySystem.step twoOnEachHost
      [("svc", "a"), ("svc", "c"), ("svc", "a"), ("svc", "c"), ("svc", "a")]).returned ⟨"svc", some "a"⟩).count
        ⟨"svc", "a", 1, 2⟩ + 1 := by
  refine (discovery_balances ?_ (fun _ => ⟨rfl, rfl⟩) (by decide +kernel) "svc").1 "a" _
    (by decide +kernel) _ (by decide +kernel)
  intro serviceName
  simp only [endpointsOf, twoOnEachHost, getElem?_insert_ite]
  split_ifs
  · decide
  · simp

/-- Calls from the two hosts in turn move one counter: one host always gets its first endpoint. -/
theorem hosts_share_local_counter :
    (GuardedRun.run DiscoverySystem.step twoOnEachHost
      [("svc", "a"), ("svc", "b"), ("svc", "a")]).returned ⟨"svc", some "a"⟩ =
        [⟨"svc", "a", 1, 1⟩, ⟨"svc", "a", 1, 1⟩] ∧
    ⟨"svc", "a", 1, 2⟩ ∈ localEndpoints (endpointsOf twoOnEachHost.readyServices "svc") "a" := by
  constructor
  · decide +kernel
  · decide +kernel

end Faabric
