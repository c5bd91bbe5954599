import Faabric.Lib.Transit
import Faabric.Rpc.InvocationConservation
import Faabric.Lib.Links
import Faabric.Lib.Trail

/-! Where the forwarding destinations of a moving service instance lead. A host knows the
destination of its last migration once it has handled the INVOKE_FETCH of that migration,
unless an older one comes after it. -/

namespace Faabric

open Std (ExtTreeMap)
open Function ServiceAction MapTotal MapFill

namespace RpcServer

variable {server : RpcServer} {now : Int} {k : RpcAppMsgIds} {host origin : String}

def forwardsTo (server : RpcServer) (key : RpcAppMsgIds) : Option String :=
  match server.serviceQueues[key]? with
  | some _ => none
  | none => (server.destinationOf key).map ServiceForwardTarget.host

/-- Whether the instance has a queue here, and the host that its entry, if there is one, leads to. -/
def route (server : RpcServer) (key : RpcAppMsgIds) : Bool × Option (Option String) :=
  (server.serviceQueues[key]?.isSome,
    server.serviceMigrations[key]?.map fun migration => migration.destination.map ServiceForwardTarget.host)

theorem route_setQueue {queue : List PendingInvocation} (h : server.serviceQueues[k]? = some queue)
    (queue' : List PendingInvocation) (key : RpcAppMsgIds) : (server.setQueue k queue').route key = server.route key := by
  by_cases hk : k = key
  · subst hk
    simp [route, setQueue, h]
  · simp [route, setQueue, hk]

theorem route_setMigration {migration migration' : ServiceMigrationEntry}
    (h : server.serviceMigrations[k]? = some migration) (hd : migration'.destination = migration.destination)
    (key : RpcAppMsgIds) : (server.setMigration k migration').route key = server.route key := by
  by_cases hk : k = key
  · subst hk
    simp [route, setMigration, h, hd]
  · simp [route, setMigration, hk]

/-- An invocation that comes too late for the entry makes the host forget it. -/
def Forgets (server : RpcServer) (now : Int) (key : RpcAppMsgIds) : Prop :=
  ∃ migration ∈ server.serviceMigrations[key]?, migration.expiry ≤ now ∧ migration.pending = [] ∧
    migration.destination.isSome = true

instance (server : RpcServer) (now : Int) (key : RpcAppMsgIds) : Decidable (server.Forgets now key) := by
  unfold Forgets
  infer_instance

theorem enqueueInvocation_route (h : ¬ server.Forgets now k) (inv : PendingInvocation) (key : RpcAppMsgIds) :
    (server.enqueueInvocation now k inv).2.route key = server.route key := by
  unfold enqueueInvocation
  split_ifs
  · rfl
  · split
    · rename_i queue hq
      exact route_setQueue hq _ key
    · rename_i migration hq hm
      unfold enqueueMigrated
      rw [if_neg (fun hlate => h ⟨migration, hm, hlate⟩)]
      dsimp only
      split <;> exact route_setMigration hm (by rfl) key
    · rfl

theorem recvInvoke_route {req : RpcRequest}
    (h : ¬ server.Forgets now { appId := req.targetAppId, msgId := req.targetMessageId })
    (key : RpcAppMsgIds) : (server.recvInvoke now req).2.route key = server.route key := by
  have henq := enqueueInvocation_route h (invocationOf req) key
  unfold recvInvoke dispatchRpcToLocalService
  split_ifs
  · rfl
  · split <;> simpa only [*] using henq

end RpcServer

def ServicePhase.owner : ServicePhase → Option String
  | .serving host | .registered _ host => some host
  | .moving _ => none

def ServicePhase.unasked : ServicePhase → Option String
  | .serving _ => none
  | .moving origin | .registered origin _ => some origin

/-- The way of an instance from host to host, and what the hosts know of it. -/
structure Journey where
  phase : ServicePhase
  hop : Nat
  departed : String → Option Nat
  arrived : Nat → String
  recorded : String → Option Nat
  fetches : List FetchInTransit
  route : String → Bool × Option (Option String)

namespace Journey

variable {key : ServiceInstanceKey} {v : Journey} {host origin : String}

structure Routed (key : ServiceInstanceKey) (v : Journey) : Prop where
  trail : Trail v.phase.owner v.hop v.departed v.arrived
  queues : ∀ x, (v.route x).1 = true ↔ v.phase.owner = some x
  entries : ∀ x, (v.route x).2 = none ↔ v.departed x = none
  named : ∀ x, v.phase.owner = some x ∨ v.phase.unasked = some x → x ≠ ""
  landed : ∀ x y, v.phase = .registered x y → v.arrived v.hop = y
  asking : ∀ x m, v.departed x = some m → v.recorded x = some m ∨
    (∃ f ∈ v.fetches, f.hop = m ∧ f.origin = x) ∨ m = v.hop ∧ v.phase.unasked = some x
  recorded : ∀ x m, v.departed x = some m → v.recorded x = some m → (v.route x).2 = some (some (v.arrived m))
  fetched : ∀ f ∈ v.fetches, f.fetch.targetAppId = key.appId ∧ f.fetch.targetMessageId = key.msgId ∧
    f.fetch.replyHost = v.arrived f.hop
  early : ∀ x, v.phase = .moving x → (∀ f ∈ v.fetches, f.hop < v.hop) ∧
    ∀ y m, v.recorded y = some m → m < v.hop
  late : (∀ f ∈ v.fetches, f.hop ≤ v.hop) ∧ ∀ y m, v.recorded y = some m → m ≤ v.hop

theorem Routed.depart (h : v.Routed key) (hphase : v.phase = .serving origin) :
    Routed key { v with
      phase := .moving origin
      hop := v.hop + 1
      departed := update v.departed origin (some (v.hop + 1))
      recorded := update v.recorded origin none
      route := update v.route origin (false, some none) } := by
  have howner : v.phase.owner = some origin := by rw [hphase]; rfl
  have hlate (y : String) (m : Nat) (hm : update v.recorded origin none y = some m) : m < v.hop + 1 := by
    rw [update_apply] at hm
    split_ifs at hm
    exact Nat.lt_succ_of_le (h.late.2 y m hm)
  have hfetch (f : FetchInTransit) (hf : f ∈ v.fetches) : f.hop < v.hop + 1 := Nat.lt_succ_of_le (h.late.1 f hf)
  refine { h with
    trail := (howner ▸ h.trail).depart fun _ => update_apply ..
    queues := fun x => ?_
    entries := fun x => ?_
    named := ?_
    landed := nofun
    asking := fun x m hm => ?_
    recorded := fun x m hm hrec => ?_
    early := fun _ _ => ⟨hfetch, hlate⟩
    late := ⟨fun f hf => (hfetch f hf).le, fun y m hm => (hlate y m hm).le⟩ }
  · have hq := h.queues x
    rw [howner, Option.some.injEq] at hq
    by_cases hx : x = origin
    · simp [hx, ServicePhase.owner]
    · simpa [hx, ServicePhase.owner, Ne.symm hx] using hq
  · by_cases hx : x = origin
    · simp [hx]
    · simpa [hx] using h.entries x
  · rintro x (hx | hx) <;> cases hx
    exact h.named origin (Or.inl howner)
  · dsimp only at hm ⊢
    rw [update_apply] at hm ⊢
    split_ifs at hm ⊢ with hx
    · exact Or.inr (Or.inr ⟨(Option.some.inj hm).symm, congrArg some hx.symm⟩)
    · exact (h.asking x m hm).imp_right (Or.imp_right fun hun => by simp [hphase, ServicePhase.unasked] at hun)
  · dsimp only at hm hrec ⊢
    rw [update_apply] at hm hrec ⊢
    split_ifs at hm hrec ⊢
    exact h.recorded x m hm hrec

theorem Routed.arrive (h : v.Routed key) (hphase : v.phase = .moving origin) (hname : host ≠ "") :
    Routed key { v with
      phase := .registered origin host
      departed := update v.departed host none
      arrived := update v.arrived v.hop host
      route := update v.route host (true, none) } := by
  have howner : v.phase.owner = none := by rw [hphase]; rfl
  obtain ⟨hfetch, hrec⟩ := h.early origin hphase
  refine { h with
    trail := (howner ▸ h.trail).arrive (fun _ => update_apply ..) fun _ => update_apply ..
    queues := fun x => ?_
    entries := fun x => ?_
    named := ?_
    landed := ?_
    asking := fun x m hm => ?_
    recorded := fun x m hm hr => ?_
    fetched := fun f hf => ?_
    early := nofun }
  · have hq := h.queues x
    rw [howner] at hq
    by_cases hx : x = host
    · simp [hx, ServicePhase.owner]
    · simpa [hx, ServicePhase.owner, Ne.symm hx] using hq
  · by_cases hx : x = host
    · simp [hx]
    · simpa [hx] using h.entries x
  · rintro x (hx | hx) <;> cases hx
    · exact hname
    · exact h.named origin (Or.inr (by rw [hphase]; rfl))
  · rintro x y ⟨⟩
    simp
  · dsimp only at hm
    rw [update_apply] at hm
    split_ifs at hm
    have hask := h.asking x m hm
    rwa [hphase] at hask
  · dsimp only at hm ⊢
    rw [update_apply] at hm
    split_ifs at hm with hx
    rw [update_of_ne hx, update_of_ne (hrec x m hr).ne]
    exact h.recorded x m hm hr
  · dsimp only
    rw [update_of_ne (hfetch f hf).ne]
    exact h.fetched f hf

theorem Routed.ask (h : v.Routed key) (hphase : v.phase = .registered origin host) {asked : List FetchInTransit}
    (hnew : ∀ f ∈ asked, f.hop = v.hop ∧ f.fetch.targetAppId = key.appId ∧
      f.fetch.targetMessageId = key.msgId ∧ f.fetch.replyHost = host)
    (hasked : origin = host ∨ ∃ f ∈ asked, f.origin = origin) :
    Routed key { v with phase := .serving host, fetches := v.fetches ++ asked } := by
  have howner : v.phase.owner = some host := by rw [hphase]; rfl
  have hsame : v.phase.owner = (ServicePhase.serving host).owner := howner
  refine { h with
    trail := hsame ▸ h.trail
    queues := hsame ▸ h.queues
    named := fun x hx => h.named x (Or.inl (hsame.trans (hx.resolve_right nofun)))
    landed := nofun
    asking := fun x m hm => ?_
    fetched := fun f hf => ?_
    early := nofun
    late := ⟨fun f hf => ?_, h.late.2⟩ }
  · rcases h.asking x m hm with hr | ⟨f, hf, hfm⟩ | ⟨he, hun⟩
    · exact Or.inl hr
    · exact Or.inr (Or.inl ⟨f, List.mem_append_left _ hf, hfm⟩)
    · rw [hphase] at hun
      obtain rfl := Option.some.inj hun
      rcases hasked with rfl | ⟨f, hf, hfx⟩
      · exact absurd ((h.trail.home _ howner).symm.trans hm) nofun
      · exact Or.inr (Or.inl ⟨f, List.mem_append_right _ hf, (hnew f hf).1.trans he.symm, hfx⟩)
  · rcases List.mem_append.mp hf with hf | hf
    · exact h.fetched f hf
    · obtain ⟨hfm, happ, hmsg, hreply⟩ := hnew f hf
      exact ⟨happ, hmsg, hreply.trans (hfm ▸ (h.landed _ _ hphase).symm)⟩
  · rcases List.mem_append.mp hf with hf | hf
    · exact h.late.1 f hf
    · exact (hnew f hf).1.le

theorem Routed.learn (h : v.Routed key) {i : Nat} {f : FetchInTransit} (hf : v.fetches[i]? = some f)
    (hok : ∀ m, v.departed f.origin = some m → v.recorded f.origin = some m → f.hop = m) :
    Routed key { v with
      fetches := v.fetches.eraseIdx i
      recorded := update v.recorded f.origin (some f.hop)
      route := update v.route f.origin
        ((v.route f.origin).1, (v.route f.origin).2.map fun _ => some f.fetch.replyHost) } := by
  have hmem : f ∈ v.fetches := List.mem_of_getElem? hf
  have hless {f' : FetchInTransit} (hf' : f' ∈ v.fetches.eraseIdx i) : f' ∈ v.fetches := List.mem_of_mem_eraseIdx hf'
  have hrec {bound : Nat → Prop} (hold : ∀ y m, v.recorded y = some m → bound m) (hnew : bound f.hop) (y : String)
      (m : Nat) (hm : update v.recorded f.origin (some f.hop) y = some m) : bound m := by
    rw [update_apply] at hm
    split_ifs at hm
    · exact Option.some.inj hm ▸ hnew
    · exact hold y m hm
  refine { h with
    queues := fun x => ?_
    entries := fun x => ?_
    asking := fun x m hm => ?_
    recorded := fun x m hm hr => ?_
    fetched := fun f' hf' => h.fetched f' (hless hf')
    early := fun x hx => ⟨fun f' hf' => (h.early x hx).1 f' (hless hf'),
      hrec (h.early x hx).2 ((h.early x hx).1 f hmem)⟩
    late := ⟨fun f' hf' => h.late.1 f' (hless hf'), hrec h.late.2 (h.late.1 f hmem)⟩ }
  · rw [← h.queues x]
    by_cases hx : x = f.origin <;> simp [hx]
  · rw [← h.entries x]
    by_cases hx : x = f.origin <;> simp [hx]
  · by_cases hnow : x = f.origin ∧ f.hop = m
    · simp [hnow]
    rcases h.asking x m hm with hr | ⟨f', hf', hfm, hfx⟩ | hun
    · have hx : x ≠ f.origin := by
        rintro rfl
        exact hnow ⟨rfl, hok m hm hr⟩
      exact Or.inl ((update_of_ne hx ..).trans hr)
    · refine Or.inr (Or.inl ⟨f', Transit.mem_eraseIdx_of_ne hf hf' ?_, hfm, hfx⟩)
      rintro rfl
      exact hnow ⟨hfx.symm, hfm⟩
    · exact Or.inr (Or.inr hun)
  · by_cases hx : x = f.origin
    · subst hx
      simp only [update_self, Option.some.injEq] at hr ⊢
      subst hr
      have hentry : (v.route f.origin).2 ≠ none := fun hnone => by simp [(h.entries _).mp hnone] at hm
      obtain ⟨dest, hdest⟩ := Option.ne_none_iff_exists'.mp hentry
      rw [hdest, Option.map_some, (h.fetched f hmem).2.2]
    · simp only [update_of_ne hx] at hr ⊢
      exact h.recorded x m hm hr

end Journey

namespace ServiceSystem

variable {key : ServiceInstanceKey} {s : ServiceSystem} {host origin : String}

def journey (key : ServiceInstanceKey) (s : ServiceSystem) : Journey where
  phase := s.phase
  hop := s.hop
  departed := s.departed
  arrived := s.arrived
  recorded := s.recorded
  fetches := s.fetches
  route x := (s.serverAt x).route key.toRpcAppMsgIds

theorem route_setServer (s : ServiceSystem) (host : String) (server : RpcServer) (k : RpcAppMsgIds) :
    (fun x => ((s.setServer host server).serverAt x).route k) =
      update (fun x => (s.serverAt x).route k) host (server.route k) := by
  funext x
  by_cases hx : host = x
  · subst hx
    simp
  · simp [hx, Ne.symm hx]

theorem route_setServer_same {server : RpcServer} {k : RpcAppMsgIds}
    (h : server.route k = (s.serverAt host).route k) :
    (fun x => ((s.setServer host server).serverAt x).route k) = fun x => (s.serverAt x).route k := by
  rw [route_setServer, h]
  exact update_eq_self _ _

/-- No invocation makes a host forget where the instance went, and no host that knows its last
destination handles the INVOKE_FETCH of an earlier migration. -/
def KeepsRoutes (s : ServiceSystem) : ServiceAction → Prop
  | .recvInvoke i now => ∀ m ∈ s.invokes[i]?, ¬ (s.serverAt m.target.host).Forgets now
      { appId := m.req.targetAppId, msgId := m.req.targetMessageId }
  | .recvInvocationFetch i _ => ∀ f ∈ s.fetches[i]?, ∀ m ∈ s.departed f.origin,
      s.recorded f.origin = some m → f.hop = m
  | _ => True

instance (s : ServiceSystem) : (action : ServiceAction) → Decidable (s.KeepsRoutes action)
  | .recvInvoke .. | .recvInvocationFetch .. => inferInstanceAs (Decidable (∀ _ ∈ _, _))
  | .invoke .. | .tryDequeueInvocation _ | .beginServiceQueueMigration .. | .registerServiceInstance _
  | .fetchMigratedServiceQueue => instDecidableTrue

theorem routed_step (s : ServiceSystem) (action : ServiceAction) (h : (s.journey key).Routed key)
    (hok : s.KeepsRoutes action) : ((action.step key s).journey key).Routed key := by
  cases action with
  | invoke host req => exact h
  | recvInvoke i now =>
    simp only [step]
    split
    · rename_i m hm
      have hroute := route_setServer_same (RpcServer.recvInvoke_route (hok m hm) key.toRpcAppMsgIds)
      unfold ServiceSystem.receiveInvoke
      dsimp only
      split <;> exact Eq.mpr (congrArg _ (congrArg (Journey.mk _ _ _ _ _ _) hroute)) h
    · exact h
  | tryDequeueInvocation host =>
    have hroute : ((s.serverAt host).tryDequeueInvocation key.toRpcAppMsgIds).2.route key.toRpcAppMsgIds =
        (s.serverAt host).route key.toRpcAppMsgIds := by
      unfold RpcServer.tryDequeueInvocation
      split
      · rename_i inv queue hq
        exact RpcServer.route_setQueue hq _ _
      · rfl
    exact Eq.mpr (congrArg _ (congrArg (Journey.mk _ _ _ _ _ _) (route_setServer_same hroute))) h
  | beginServiceQueueMigration now ttl =>
    simp only [step]
    split
    · rename_i origin hphase
      split
      · rename_i server hb
        unfold RpcServer.beginServiceQueueMigration at hb
        split_ifs at hb
        obtain rfl := Except.ok.inj hb
        convert h.depart hphase using 1
        refine congrArg (Journey.mk _ _ _ _ _ _) ((route_setServer ..).trans (congrArg _ ?_))
        simp [RpcServer.route, RpcServer.setMigration]
      · exact h
    · exact h
  | registerServiceInstance host =>
    simp only [step]
    split
    · rename_i origin server hphase hr
      unfold RpcServer.registerServiceInstance at hr
      split_ifs at hr
      obtain rfl := Except.ok.inj hr
      split_ifs with hname
      · exact h
      · convert h.arrive hphase hname using 1
        refine congrArg (Journey.mk _ _ _ _ _ _) ((route_setServer ..).trans (congrArg _ ?_))
        simp [RpcServer.route]
    · exact h
  | fetchMigratedServiceQueue =>
    simp only [step]
    split
    · rename_i origin host hphase
      have hname : origin ≠ "" := h.named origin (Or.inr (congrArg ServicePhase.unasked hphase))
      split_ifs with hself
      · have hstay := h.ask hphase (fun f hf => absurd hf List.not_mem_nil) (Or.inl (hself.resolve_left hname))
        rwa [List.append_nil] at hstay
      · have hfetch : RpcServer.fetchMigratedServiceQueue host origin key.toRpcAppMsgIds =
            .ok { targetAppId := key.appId, targetMessageId := key.msgId, replyHost := host,
                  replyPort := RPC_ASYNC_PORT } := by
          simp [RpcServer.fetchMigratedServiceQueue, hname, key.appId_ne, key.msgId_ne]
        rw [hfetch]
        exact h.ask hphase (by simp [journey]) (Or.inr ⟨_, List.mem_singleton_self _, rfl⟩)
    · exact h
  | recvInvocationFetch i now =>
    simp only [step]
    split
    · rename_i f hf
      obtain ⟨happ, hmsg, -⟩ := h.fetched f (List.mem_of_getElem? hf)
      convert h.learn hf (hok f hf) using 1
      refine congrArg (Journey.mk _ _ _ _ _ _) ((route_setServer ..).trans (congrArg _ ?_))
      rw [RpcServer.recvInvocationFetch, happ, hmsg]
      cases hm : (s.serverAt f.origin).serviceMigrations[key.toRpcAppMsgIds]? with
      | none => simp [RpcServer.route, journey, hm]
      | some migration => simp [RpcServer.route, RpcServer.setMigration, journey, hm]
    · exact h

theorem routed_start (key : ServiceInstanceKey) (hname : host ≠ "") : ((start key host).journey key).Routed key := by
  have hroute : ((start key host).journey key).route = update (fun _ => (false, none)) host (true, none) := by
    refine (route_setServer { phase := .serving host } host (RpcServer.setQueue {} key.toRpcAppMsgIds []) _).trans ?_
    simp [serverAt, RpcServer.route, RpcServer.setQueue]
  refine ⟨Trail.start host _, fun x => ?_, fun x => ?_, ?_, ?_, ?_, ?_, ?_, ?_, ?_⟩
  · rw [hroute]
    by_cases hx : x = host
    · simp [hx, journey, start, ServicePhase.owner]
    · simp [hx, Ne.symm hx, journey, start, ServicePhase.owner]
  · rw [hroute]
    by_cases hx : x = host <;> simp [hx, journey, start]
  · rintro x (hx | hx) <;> cases hx
    exact hname
  all_goals simp [journey, start]

def forwardsTo (key : ServiceInstanceKey) (s : ServiceSystem) (host : String) : Option String :=
  (s.serverAt host).forwardsTo key.toRpcAppMsgIds

theorem routed_reaches (h : (s.journey key).Routed key) {owner : String} (hphase : s.phase = .serving owner)
    (hfetches : s.fetches = []) {x : String} (hx : s.Knows key x) :
    ∃ n ≤ s.hop + 1, Links.follow (s.forwardsTo key) n x = owner := by
  have howner : s.phase.owner = some owner := by rw [hphase]; rfl
  have hqueue (y : String) : (s.serverAt y).serviceQueues[key.toRpcAppMsgIds]? ≠ none ↔ s.phase.owner = some y :=
    Option.isSome_iff_ne_none.symm.trans (h.queues y)
  have hentry (y : String) : (s.serverAt y).serviceMigrations[key.toRpcAppMsgIds]? ≠ none ↔ s.departed y ≠ none :=
    not_congr (Option.map_eq_none_iff.symm.trans (h.entries y))
  have hreach : ∃ n ≤ s.hop - (s.departed x).getD 0 + 1, Links.follow (s.forwardsTo key) n x = owner := by
    refine Links.follow_reaches (P := s.Knows key) (fun x => (s.departed x).getD 0) ?_ ?_ hx
    · intro y hy hne
      have hq : (s.serverAt y).serviceQueues[key.toRpcAppMsgIds]? = none := by
        by_contra hq
        exact hne (Option.some.inj (((hqueue y).mp hq).symm.trans howner))
      obtain ⟨m, hm⟩ := Option.ne_none_iff_exists'.mp ((hentry y).mp (hy.resolve_left fun hn => hn hq))
      -- every INVOKE_FETCH has been handled
      have hrec : s.recorded y = some m := by
        rcases h.asking y m hm with hrec | ⟨f, hf, -⟩ | ⟨-, hun⟩
        · exact hrec
        · simp [journey, hfetches] at hf
        · simp [journey, hphase, ServicePhase.unasked] at hun
      have hnext : s.forwardsTo key y = some (s.arrived m) := by
        obtain ⟨migration, hmigration, hdest⟩ := Option.map_eq_some_iff.mp (h.recorded y m hm hrec)
        rw [ServiceSystem.forwardsTo, RpcServer.forwardsTo, hq, RpcServer.destinationOf, hmigration]
        exact hdest
      rcases h.trail.onward y m hm with ⟨hnone, -⟩ | hown | ⟨m', hm', hlt⟩
      · exact absurd (howner.symm.trans hnone) (Option.some_ne_none _)
      · exact ⟨s.arrived m, hnext, Or.inl ((hqueue _).mpr hown),
          Or.inl (Option.some.inj (hown.symm.trans howner))⟩
      · refine ⟨s.arrived m, hnext, Or.inr ((hentry _).mpr ?_), Or.inr ?_⟩
        · exact fun hnone => Option.some_ne_none _ (hm'.symm.trans hnone)
        · have hdeparted : s.departed y = some m ∧ s.departed (s.arrived m) = some m' := ⟨hm, hm'⟩
          simpa [hdeparted] using hlt
    · intro y hy
      cases hm : s.departed y with
      | none => exact Nat.zero_le _
      | some m => exact h.trail.hops y m hm
  obtain ⟨n, hn, he⟩ := hreach
  exact ⟨n, by omega, he⟩

end ServiceSystem

open ServiceSystem

/-- However a service instance moves, and however late its INVOKE_FETCH messages are: while no
entry is forgotten and no host that knows its last destination handles an INVOKE_FETCH of an
earlier migration, once none is on its way the destinations lead from every host that knows the
instance to the one that runs it, in at most as many steps as there were migrations, and one. -/
theorem forwarding_reaches_owner {key : ServiceInstanceKey} {host owner : String}
    {actions : List ServiceAction} {s : ServiceSystem} (hname : host ≠ "")
    (hok : GuardedRun.Meets (step key) KeepsRoutes (start key host) actions)
    (hs : s = GuardedRun.run (step key) (start key host) actions)
    (hphase : s.phase = .serving owner) (hfetches : s.fetches = []) :
    (s.serverAt owner).serviceQueues[key.toRpcAppMsgIds]? ≠ none ∧
    ∀ x, s.Knows key x → ∃ n ≤ s.hop + 1, Links.follow (s.forwardsTo key) n x = owner := by
  subst hs
  have h := hok.invariant routed_step (routed_start key hname)
  refine ⟨?_, fun x hx => routed_reaches h hphase hfetches hx⟩
  exact Option.isSome_iff_ne_none.mp ((h.queues owner).mpr (congrArg ServicePhase.owner hphase))

def moveTo (host : String) : List ServiceAction :=
  [.beginServiceQueueMigration 0 1000, .registerServiceInstance host, .fetchMigratedServiceQueue]

def backAndOn : List ServiceAction :=
  moveTo "B" ++ moveTo "A" ++ moveTo "C" ++
    [.recvInvocationFetch 0 1, .recvInvocationFetch 0 2, .recvInvocationFetch 0 3]

theorem forwarding_reaches_owner_back :
    ∃ n ≤ 4, Links.follow ((GuardedRun.run (step pingKey) (start pingKey "A")
      backAndOn).forwardsTo pingKey) n "B" = "C" :=
  (@forwarding_reaches_owner pingKey "A" "C" backAndOn _ (by decide) (by decide +kernel) rfl
    (by decide +kernel) (by decide +kernel)).2 "B" (Or.inr (by decide +kernel))

def firstFetchLast : ServiceSystem :=
  GuardedRun.run (step pingKey) (start pingKey "A")
    (moveTo "B" ++ moveTo "A" ++ moveTo "C" ++
      [.recvInvocationFetch 2 1, .recvInvocationFetch 1 2, .recvInvocationFetch 0 3])

/-- The instance runs on `C`, and `A` and `B` forward to each other. -/
theorem late_fetch_makes_loop :
    firstFetchLast.phase = .serving "C" ∧ firstFetchLast.fetches = [] ∧
    firstFetchLast.forwardsTo pingKey "A" = some "B" ∧
    firstFetchLast.forwardsTo pingKey "B" = some "A" := by
  decide +kernel

end Faabric
