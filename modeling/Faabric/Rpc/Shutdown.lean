import Faabric.Rpc.ServiceMigration

/-! The shutdown flag of one service instance that starts, moves from host to host and stops.
Every host has a flag of its own, and a migration does not take it along. -/

namespace Faabric

open Std (ExtTreeMap)
open RpcServer MapTotal

/-- The servers and the host that owns the instance. Of the history, `requested` says whether a
shutdown was requested on the owner since the instance started, and `askedOn` on which hosts one
was requested since they last unregistered it. -/
structure ShutdownSystem where
  servers : String → RpcServer := fun _ => {}
  owner : Option String := none
  requested : Bool := false
  askedOn : String → Bool := fun _ => false

inductive ShutdownAction where
  | registerServiceInstance (host : String)
  | requestShutdown (host : String)
  | beginServiceQueueMigration (now ttl : Int)
  | unregisterServiceInstance (host : String)
  | enqueueInvocation (host : String) (now : Int) (invocation : PendingInvocation)
  | tryDequeueInvocation (host : String)
  | recvInvocationFetch (host : String) (now : Int) (fetch : RpcInvocationFetchRequest)

namespace ShutdownSystem

def setServer (s : ShutdownSystem) (host : String) (server : RpcServer) : ShutdownSystem :=
  { s with servers := Function.update s.servers host server }

def register (key : ServiceInstanceKey) (s : ShutdownSystem) (host : String) : ShutdownSystem :=
  match s.owner, (s.servers host).registerServiceInstance key.toRpcAppMsgIds with
  | none, .ok server => { s.setServer host server with owner := some host }
  | _, _ => s

def shutdown (key : ServiceInstanceKey) (s : ShutdownSystem) (host : String) : ShutdownSystem :=
  match (s.servers host).requestShutdown key.toRpcAppMsgIds with
  | .ok server =>
    { s.setServer host server with
      requested := s.requested || s.owner = some host
      askedOn := Function.update s.askedOn host true }
  | .error _ => s

def leave (key : ServiceInstanceKey) (s : ShutdownSystem) (now ttl : Int) : ShutdownSystem :=
  match s.owner with
  | none => s
  | some host =>
    match (s.servers host).beginServiceQueueMigration now key.toRpcAppMsgIds ttl with
    | .ok server => { s.setServer host server with owner := none }
    | .error _ => s

def unregister (key : ServiceInstanceKey) (s : ShutdownSystem) (host : String) : ShutdownSystem :=
  let stops := s.owner = none ∨ s.owner = some host
  { s.setServer host ((s.servers host).unregisterServiceInstance key.toRpcAppMsgIds) with
    owner := if stops then none else s.owner
    requested := if stops then false else s.requested
    askedOn := Function.update s.askedOn host false }

end ShutdownSystem

def ShutdownAction.step (key : ServiceInstanceKey) (s : ShutdownSystem) : ShutdownAction → ShutdownSystem
  | .registerServiceInstance host => s.register key host
  | .requestShutdown host => s.shutdown key host
  | .beginServiceQueueMigration now ttl => s.leave key now ttl
  | .unregisterServiceInstance host => s.unregister key host
  | .enqueueInvocation host now invocation =>
    s.setServer host ((s.servers host).enqueueInvocation now key.toRpcAppMsgIds invocation).2
  | .tryDequeueInvocation host =>
    s.setServer host ((s.servers host).tryDequeueInvocation key.toRpcAppMsgIds).2
  | .recvInvocationFetch host now fetch =>
    s.setServer host ((s.servers host).recvInvocationFetch now fetch).2

/-- The instance starts or arrives on a host where a shutdown was requested exactly if one was
requested since the instance started. -/
def FlagTravels (s : ShutdownSystem) : ShutdownAction → Prop
  | .registerServiceInstance host => s.owner = none → s.askedOn host = s.requested
  | _ => True

instance (s : ShutdownSystem) (action : ShutdownAction) : Decidable (FlagTravels s action) := by
  cases action <;> unfold FlagTravels <;> infer_instance

/-- Every host has the flag exactly if it was asked, and the owner exactly if the instance was. -/
structure FlagFollows (key : ServiceInstanceKey) (s : ShutdownSystem) : Prop where
  asked : ∀ host, (s.servers host).isShutdownRequested key.toRpcAppMsgIds = s.askedOn host
  owner : ∀ host, s.owner = some host → s.askedOn host = s.requested

section Flags

variable {server server' : RpcServer} {key : RpcAppMsgIds}

theorem registerServiceInstance_flag (h : server.registerServiceInstance key = .ok server') :
    server'.isShutdownRequested key = server.isShutdownRequested key := by
  unfold registerServiceInstance at h
  split_ifs at h
  obtain rfl := Except.ok.inj h
  rfl

theorem requestShutdown_flag (h : server.requestShutdown key = .ok server') :
    server'.isShutdownRequested key = true := by
  unfold requestShutdown at h
  split_ifs at h
  obtain rfl := Except.ok.inj h
  simp [isShutdownRequested]

theorem unregisterServiceInstance_flag (server : RpcServer) (key : RpcAppMsgIds) :
    (server.unregisterServiceInstance key).isShutdownRequested key = false := by
  simp [isShutdownRequested, unregisterServiceInstance]

theorem beginServiceQueueMigration_flag {now ttl : Int}
    (h : server.beginServiceQueueMigration now key ttl = .ok server') :
    server'.isShutdownRequested key = server.isShutdownRequested key := by
  unfold beginServiceQueueMigration at h
  split_ifs at h
  obtain rfl := Except.ok.inj h
  rfl

theorem enqueueInvocation_flag (server : RpcServer) (now : Int) (key : RpcAppMsgIds)
    (invocation : PendingInvocation) :
    (server.enqueueInvocation now key invocation).2.isShutdownRequested key =
      server.isShutdownRequested key := by
  unfold enqueueInvocation
  split_ifs
  · rfl
  · split
    · rfl
    · rename_i migration _ _
      unfold enqueueMigrated
      split
      · rfl
      · cases migration.destination <;> rfl
    · rfl

theorem tryDequeueInvocation_flag (server : RpcServer) (key : RpcAppMsgIds) :
    (server.tryDequeueInvocation key).2.isShutdownRequested key = server.isShutdownRequested key := by
  unfold tryDequeueInvocation
  split <;> rfl

theorem recvInvocationFetch_flag (server : RpcServer) (now : Int) (fetch : RpcInvocationFetchRequest)
    (key : RpcAppMsgIds) :
    (server.recvInvocationFetch now fetch).2.isShutdownRequested key = server.isShutdownRequested key := by
  unfold recvInvocationFetch
  dsimp only
  split <;> rfl

theorem enqueueInvocation_shutting_down {now : Int} {invocation : PendingInvocation}
    (h : (server.enqueueInvocation now key invocation).1 =
      .error s!"Service instance app={key.appId} msg={key.msgId} is shutting down") :
    server.isShutdownRequested key = true := by
  have hstr : ∀ x : String, toString x = x := fun _ => rfl
  have hfirst : ∀ {what : String}, .error what = (Except.error
      s!"Service instance app={key.appId} msg={key.msgId} is shutting down" : Except String InvokeOutcome) →
      what.toList.head? = some 'S' := by
    intro what hw
    rw [Except.error.inj hw]
    simp [String.toList_append, hstr]
  unfold enqueueInvocation at h
  split_ifs at h with hflag
  · exact hflag
  · exfalso
    split at h
    · cases h
    · rename_i migration _ _
      unfold enqueueMigrated at h
      split at h
      · have hs := hfirst h
        simp [String.toList_append, hstr] at hs
      · cases hd : migration.destination <;> simp [hd] at h
    · have hs := hfirst h
      simp [String.toList_append, hstr] at hs

end Flags

section Steps

variable {key : ServiceInstanceKey} {s : ShutdownSystem}

theorem FlagFollows.setServer (h : FlagFollows key s) {host : String} {server : RpcServer}
    (hserver : server.isShutdownRequested key.toRpcAppMsgIds =
      (s.servers host).isShutdownRequested key.toRpcAppMsgIds) : FlagFollows key (s.setServer host server) := by
  refine ⟨?_, h.owner⟩
  intro x
  by_cases hx : x = host
  · subst hx
    have hasked := h.asked x
    simpa [ShutdownSystem.setServer, hserver] using hasked
  · have hasked := h.asked x
    simpa [ShutdownSystem.setServer, Function.update_of_ne hx] using hasked

theorem FlagFollows.register (h : FlagFollows key s) {host : String}
    (hok : FlagTravels s (.registerServiceInstance host)) : FlagFollows key (s.register key host) := by
  unfold ShutdownSystem.register
  split
  · rename_i server hnone hserver
    have hset := h.setServer (registerServiceInstance_flag hserver)
    refine ⟨hset.asked, ?_⟩
    intro x hx
    obtain rfl := Option.some.inj hx
    exact hok hnone
  · exact h

theorem FlagFollows.shutdown (h : FlagFollows key s) (host : String) :
    FlagFollows key (s.shutdown key host) := by
  unfold ShutdownSystem.shutdown
  split
  · rename_i server hserver
    have hflag := requestShutdown_flag hserver
    constructor
    · intro x
      by_cases hx : x = host
      · subst hx
        simpa [ShutdownSystem.setServer] using hflag
      · have hasked := h.asked x
        simpa [ShutdownSystem.setServer, Function.update_of_ne hx] using hasked
    · intro x hx
      have hx' : s.owner = some x := hx
      by_cases he : x = host
      · subst he
        simp [hx']
      · have howner := h.owner x hx'
        have hne : ¬ s.owner = some host := by simpa [hx'] using he
        simpa [Function.update_of_ne he, hne] using howner
  · exact h

theorem FlagFollows.leave (h : FlagFollows key s) (now ttl : Int) :
    FlagFollows key (s.leave key now ttl) := by
  unfold ShutdownSystem.leave
  split
  · exact h
  · split
    · rename_i server hserver
      have hset := h.setServer (beginServiceQueueMigration_flag hserver)
      exact ⟨hset.asked, nofun⟩
    · exact h

theorem FlagFollows.unregister (h : FlagFollows key s) (host : String) :
    FlagFollows key (s.unregister key host) := by
  have hflag := unregisterServiceInstance_flag (s.servers host) key.toRpcAppMsgIds
  constructor
  · intro x
    by_cases hx : x = host
    · subst hx
      simpa [ShutdownSystem.unregister, ShutdownSystem.setServer] using hflag
    · have hasked := h.asked x
      simpa [ShutdownSystem.unregister, ShutdownSystem.setServer, Function.update_of_ne hx] using hasked
  · intro x hx
    simp only [ShutdownSystem.unregister] at hx ⊢
    split_ifs at hx ⊢ with hstops
    have hne : x ≠ host := fun he => hstops (Or.inr (he ▸ hx))
    have howner := h.owner x hx
    simpa [Function.update_of_ne hne] using howner

theorem FlagFollows.step (s : ShutdownSystem) (action : ShutdownAction) (h : FlagFollows key s)
    (hok : FlagTravels s action) : FlagFollows key (action.step key s) := by
  cases action with
  | registerServiceInstance host => exact h.register hok
  | requestShutdown host => exact h.shutdown host
  | beginServiceQueueMigration now ttl => exact h.leave now ttl
  | unregisterServiceInstance host => exact h.unregister host
  | enqueueInvocation host now invocation => exact h.setServer (enqueueInvocation_flag _ now _ invocation)
  | tryDequeueInvocation host => exact h.setServer (tryDequeueInvocation_flag _ _)
  | recvInvocationFetch host now fetch => exact h.setServer (recvInvocationFetch_flag _ now fetch _)

end Steps

/-- In every run in which the instance arrives only on hosts that were asked exactly if it was,
its owner has the flag exactly if a shutdown was requested since it started, and rejects
invocations as shutting down only then. -/
theorem shutdown_sticks_to_instance {key : ServiceInstanceKey} {actions : List ShutdownAction}
    (hok : GuardedRun.Meets (ShutdownAction.step key) FlagTravels {} actions) {host : String}
    (howner : (GuardedRun.run (ShutdownAction.step key) {} actions).owner = some host) :
    (((GuardedRun.run (ShutdownAction.step key) {} actions).servers host).isShutdownRequested
        key.toRpcAppMsgIds = true ↔
      (GuardedRun.run (ShutdownAction.step key) {} actions).requested = true) ∧
    ∀ (now : Int) (invocation : PendingInvocation),
      (((GuardedRun.run (ShutdownAction.step key) {} actions).servers host).enqueueInvocation now
          key.toRpcAppMsgIds invocation).1 =
        .error s!"Service instance app={key.appId} msg={key.msgId} is shutting down" →
      (GuardedRun.run (ShutdownAction.step key) {} actions).requested = true := by
  have hstart : FlagFollows key {} := ⟨fun _ => by simp [isShutdownRequested], nofun⟩
  have h := hok.invariant FlagFollows.step hstart
  have hflag := (h.asked host).trans (h.owner host howner)
  refine ⟨by rw [hflag], ?_⟩
  intro now invocation hrejected
  rw [← hflag]
  exact enqueueInvocation_shutting_down hrejected

def shutdownKey : ServiceInstanceKey where
  appId := 13
  msgId := 14
  appId_ne := by decide
  msgId_ne := by decide

theorem shutdown_sticks_to_instance_back :
    (((GuardedRun.run (ShutdownAction.step shutdownKey) {}
      [.registerServiceInstance "A", .beginServiceQueueMigration 0 1, .registerServiceInstance "B",
       .beginServiceQueueMigration 0 1, .registerServiceInstance "A", .requestShutdown "A",
       .beginServiceQueueMigration 0 1, .registerServiceInstance "A"]).servers "A").isShutdownRequested
        shutdownKey.toRpcAppMsgIds = true) :=
  (@shutdown_sticks_to_instance shutdownKey _ (by decide +kernel) "A" (by decide +kernel)).1.mpr
    (by decide +kernel)

/-- A shutdown that was requested on one host is forgotten on the next. -/
theorem migration_forgets_shutdown :
    (GuardedRun.run (ShutdownAction.step shutdownKey) {}
      [.registerServiceInstance "A", .requestShutdown "A", .beginServiceQueueMigration 0 1,
       .registerServiceInstance "B"]).owner = some "B" ∧
    (GuardedRun.run (ShutdownAction.step shutdownKey) {}
      [.registerServiceInstance "A", .requestShutdown "A", .beginServiceQueueMigration 0 1,
       .registerServiceInstance "B"]).requested = true ∧
    ((GuardedRun.run (ShutdownAction.step shutdownKey) {}
      [.registerServiceInstance "A", .requestShutdown "A", .beginServiceQueueMigration 0 1,
       .registerServiceInstance "B"]).servers "B").isShutdownRequested shutdownKey.toRpcAppMsgIds = false := by
  decide +kernel

end Faabric
