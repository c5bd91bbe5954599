import Faabric.Lib.Transit
import Faabric.Rpc.ServiceMigration
import Faabric.Lib.MapFill

/-! Where the invocations of a moving service instance are. Nothing that a server has taken
on is lost or doubled as long as no host registers the instance while it holds a backlog
for it. -/

namespace Faabric

open Std (ExtTreeMap)
open ServiceAction MapTotal MapFill

variable {i : Nat} {s : ServiceSystem} {x : String} {server : RpcServer}

structure Shaped (key : ServiceInstanceKey) (inv : PendingInvocation) : Prop where
  app : inv.targetAppId = key.appId
  msg : inv.targetMessageId = key.msgId
  port : 0 < inv.replyPort

theorem request_injective : Function.Injective pendingInvocationToRpcRequest := by
  rintro ⟨⟩ ⟨⟩ h
  simpa [pendingInvocationToRpcRequest] using h

namespace ServiceSystem

def Knows (key : ServiceInstanceKey) (s : ServiceSystem) (host : String) : Prop :=
  (s.serverAt host).Knows key.toRpcAppMsgIds

def stored (key : ServiceInstanceKey) (s : ServiceSystem) (v : PendingInvocation) : Nat :=
  total (fun _ server => (server.stored key.toRpcAppMsgIds).count v) s.servers

def inTransit (invokes : List InvokeInTransit) (v : PendingInvocation) : Nat :=
  ((invokes.filter InvokeInTransit.accepted).map InvokeInTransit.req).count
    (pendingInvocationToRpcRequest v)

structure Conserved (key : ServiceInstanceKey) (s : ServiceSystem) : Prop where
  opened : ∀ x, (s.serverAt x).isShutdownRequested key.toRpcAppMsgIds = false
  shaped : ∀ x, ∀ v ∈ (s.serverAt x).stored key.toRpcAppMsgIds, Shaped key v
  destinations : ∀ x d, (s.serverAt x).destinationOf key.toRpcAppMsgIds = some d → s.Knows key d.host
  located : ∀ origin host, s.phase = .registered origin host → s.Knows key host
  fetching : ∀ f ∈ s.fetches, f.fetch.targetAppId = key.appId ∧ f.fetch.targetMessageId = key.msgId ∧
    s.Knows key f.fetch.replyHost
  invoking : ∀ m ∈ s.invokes, m.req.targetAppId = key.appId ∧ m.req.targetMessageId = key.msgId ∧
    (m.accepted = true → s.Knows key m.target.host ∧
      ∃ v, Shaped key v ∧ m.req = pendingInvocationToRpcRequest v)
  kept : ∀ v, s.accepted.count v = s.stored key v + inTransit s.invokes v + s.dequeued.count v

variable {key : ServiceInstanceKey}

theorem stored_setServer (key : ServiceInstanceKey) (s : ServiceSystem) (x : String) (server : RpcServer) (v : PendingInvocation) :
    (s.setServer x server).stored key v + ((s.serverAt x).stored key.toRpcAppMsgIds).count v =
      s.stored key v + (server.stored key.toRpcAppMsgIds).count v := by
  simp only [stored, setServer, serverAt]
  cases hx : s.servers[x]? with
  | none =>
    have hempty : (RpcServer.stored {} key.toRpcAppMsgIds).count v = 0 := by simp [RpcServer.stored]
    rw [Option.getD_none, hempty, Nat.add_zero]
    exact total_insert_new _ hx server
  | some old => exact total_overwrite _ hx server

theorem inTransit_append (l l' : List InvokeInTransit) (v : PendingInvocation) :
    inTransit (l ++ l') v = inTransit l v + inTransit l' v := by
  simp [inTransit]

theorem inTransit_eraseIdx {l : List InvokeInTransit} {m : InvokeInTransit} (h : l[i]? = some m)
    (v : PendingInvocation) :
    inTransit l v = inTransit [m] v + inTransit (l.eraseIdx i) v := by
  rw [← inTransit_append]
  exact (((Transit.perm_eraseIdx h).filter _).map _).count_eq _

theorem inTransit_forwarded (target : ServiceForwardTarget) (inv v : PendingInvocation) :
    inTransit [{ accepted := true, target, req := pendingInvocationToRpcRequest inv }] v =
      [inv].count v := by
  simp only [inTransit, List.filter_cons, if_true, List.filter_nil, List.map_cons, List.map_nil]
  exact List.count_map_of_injective [inv] _ request_injective v

theorem Knows.setServer {y : String} (hserver : s.Knows key x → server.Knows key.toRpcAppMsgIds)
    (h : s.Knows key y) :
    (s.setServer x server).Knows key y := by
  unfold Knows at h ⊢
  rw [serverAt_setServer]
  split_ifs with he
  · subst he
    exact hserver h
  · exact h

theorem Conserved.change {s' : ServiceSystem} (h : Conserved key s)
    (hs : s'.servers = (s.setServer x server).servers)
    (hopen : server.isShutdownRequested key.toRpcAppMsgIds =
      (s.serverAt x).isShutdownRequested key.toRpcAppMsgIds)
    (hknows : s.Knows key x → server.Knows key.toRpcAppMsgIds)
    (hshaped : ∀ v ∈ server.stored key.toRpcAppMsgIds, Shaped key v)
    (hdest : ∀ d, server.destinationOf key.toRpcAppMsgIds = some d → s.Knows key d.host)
    (hphase : ∀ origin host, s'.phase = .registered origin host →
      s.Knows key host ∨ host = x ∧ server.Knows key.toRpcAppMsgIds)
    (hfetch : ∀ f ∈ s'.fetches, f ∈ s.fetches)
    (hinvoke : ∀ m ∈ s'.invokes, m ∈ s.invokes ∨ s.Knows key m.target.host ∧
      ∃ v, Shaped key v ∧ m.req = pendingInvocationToRpcRequest v)
    (hkept : ∀ v, s'.accepted.count v + ((s.serverAt x).stored key.toRpcAppMsgIds).count v +
        inTransit s.invokes v + s.dequeued.count v =
      s.accepted.count v + (server.stored key.toRpcAppMsgIds).count v +
        inTransit s'.invokes v + s'.dequeued.count v) : Conserved key s' := by
  have hat : ∀ y, s'.serverAt y = if x = y then server else s.serverAt y := by
    intro y
    rw [← serverAt_setServer, serverAt, serverAt, hs]
  have hmono : ∀ y, s.Knows key y → s'.Knows key y := by
    intro y hy
    have hset := Knows.setServer hknows hy
    unfold Knows at hset ⊢
    rwa [hat, ← serverAt_setServer]
  refine ⟨?_, ?_, ?_, ?_, ?_, ?_, ?_⟩
  · intro y
    rw [hat]
    split_ifs with he
    · rw [hopen]
      exact h.opened x
    · exact h.opened y
  · intro y v hv
    rw [hat] at hv
    split_ifs at hv with he
    · exact hshaped v hv
    · exact h.shaped y v hv
  · intro y d hd
    rw [hat] at hd
    apply hmono
    split_ifs at hd with he
    · exact hdest d hd
    · exact h.destinations y d hd
  · intro origin host hp
    rcases hphase origin host hp with hold | ⟨rfl, hnew⟩
    · exact hmono host hold
    · unfold Knows
      rwa [hat, if_pos rfl]
  · intro f hf
    obtain ⟨happ, hmsg, hreply⟩ := h.fetching f (hfetch f hf)
    exact ⟨happ, hmsg, hmono _ hreply⟩
  · intro m hm
    rcases hinvoke m hm with hold | ⟨htarget, v, hv, hreq⟩
    · obtain ⟨happ, hmsg, hacc⟩ := h.invoking m hold
      refine ⟨happ, hmsg, ?_⟩
      intro ha
      obtain ⟨htarget, hv⟩ := hacc ha
      exact ⟨hmono _ htarget, hv⟩
    · rw [hreq]
      exact ⟨hv.app, hv.msg, fun _ => ⟨hmono _ htarget, v, hv, rfl⟩⟩
  · intro v
    have hset := stored_setServer key s x server v
    have hsame : s'.stored key v = (s.setServer x server).stored key v := by
      unfold stored
      rw [hs]
    have hold := h.kept v
    have hbal := hkept v
    omega

theorem recvInvoke_cases {now : Int} {req : RpcRequest} (happ : req.targetAppId = key.appId)
    (hmsg : req.targetMessageId = key.msgId)
    (hopen : server.isShutdownRequested key.toRpcAppMsgIds = false)
    (hlive : server.Unexpired now key.toRpcAppMsgIds) :
    (¬ server.Knows key.toRpcAppMsgIds ∧ ∃ host port resp,
      server.recvInvoke now req = (.sendErrorResponse host port resp, server)) ∨
    ∃ server', server'.Knows key.toRpcAppMsgIds ∧
      server'.isShutdownRequested key.toRpcAppMsgIds =
        server.isShutdownRequested key.toRpcAppMsgIds ∧
      server'.destinationOf key.toRpcAppMsgIds = server.destinationOf key.toRpcAppMsgIds ∧
      ((server.recvInvoke now req = (.keep, server') ∧
          (server'.stored key.toRpcAppMsgIds).Perm
            (invocationOf req :: server.stored key.toRpcAppMsgIds)) ∨
        ∃ target, server.destinationOf key.toRpcAppMsgIds = some target ∧
          server.recvInvoke now req =
            (.forwardInvoke target (pendingInvocationToRpcRequest (invocationOf req)), server') ∧
          server'.stored key.toRpcAppMsgIds = server.stored key.toRpcAppMsgIds) := by
  have hkey : ({ appId := req.targetAppId, msgId := req.targetMessageId } : RpcAppMsgIds) =
      key.toRpcAppMsgIds := by rw [happ, hmsg]
  have happ0 : req.targetAppId ≠ 0 := happ ▸ key.appId_ne
  have hmsg0 : req.targetMessageId ≠ 0 := hmsg ▸ key.msgId_ne
  have hdispatch : server.dispatchRpcToLocalService now req =
      server.enqueueInvocation now key.toRpcAppMsgIds (invocationOf req) := by
    rw [RpcServer.dispatchRpcToLocalService, hkey]
  by_cases hknows : server.Knows key.toRpcAppMsgIds
  · right
    rcases RpcServer.enqueueInvocation_cases hopen hlive hknows (invocationOf req) with
      ⟨queue, hq, he⟩ | ⟨migration, hq, hm, ⟨hd, he⟩ | ⟨target, hd, he⟩⟩
    · have hrecv := RpcServer.recvInvoke_of_ok happ0 hmsg0 (hdispatch.trans he)
      refine ⟨_, server.knows_setQueue _ _, rfl, rfl, Or.inl ⟨hrecv, ?_⟩⟩
      rw [RpcServer.stored_setQueue, RpcServer.stored, hq, Option.getD_some, List.append_assoc]
      exact List.perm_middle
    · have hrecv := RpcServer.recvInvoke_of_ok happ0 hmsg0 (hdispatch.trans he)
      refine ⟨_, server.knows_setMigration _ _, rfl, ?_, Or.inl ⟨hrecv, ?_⟩⟩
      · rw [RpcServer.destinationOf_setMigration, RpcServer.destinationOf, hm, Option.bind_some]
      · rw [RpcServer.stored_setMigration, RpcServer.stored, hm, ← List.append_assoc]
        exact List.perm_append_singleton _ _
    · have hrecv := RpcServer.recvInvoke_of_ok happ0 hmsg0 (hdispatch.trans he)
      refine ⟨_, server.knows_setMigration _ _, rfl, ?_, Or.inr ⟨target, ?_, hrecv, ?_⟩⟩
      · rw [RpcServer.destinationOf_setMigration, RpcServer.destinationOf, hm, Option.bind_some]
      · rw [RpcServer.destinationOf, hm, Option.bind_some, hd]
      · rw [RpcServer.stored_setMigration, RpcServer.stored, hm, Option.getD_some]
  · left
    obtain ⟨what, he⟩ := RpcServer.enqueueInvocation_unknown hknows now (invocationOf req)
    exact ⟨hknows, _, _, _, RpcServer.recvInvoke_of_error happ0 hmsg0 (hdispatch.trans he)⟩

theorem Conserved.receiveInvoke (h : Conserved key s) {now : Int} {m : InvokeInTransit}
    (hm : s.invokes[i]? = some m)
    (hlive : (s.serverAt m.target.host).Unexpired now key.toRpcAppMsgIds) :
    Conserved key (s.receiveInvoke i now m) := by
  obtain ⟨happ, hmsg, hacc⟩ := h.invoking m (List.mem_of_getElem? hm)
  have herase := fun v => inTransit_eraseIdx hm v
  have hshape : Shaped key (invocationOf m.req) := ⟨happ, hmsg, invocationOf_replyPort m.req⟩
  have hother : ∀ m' ∈ s.invokes.eraseIdx i, m' ∈ s.invokes := fun m' hm' => List.mem_of_mem_eraseIdx hm'
  -- a new invocation is accepted, an old one is no longer on its way
  have htaken : ∀ v, (if m.accepted then s.accepted else s.accepted ++ [invocationOf m.req]).count v +
      inTransit [m] v = s.accepted.count v + [invocationOf m.req].count v := by
    intro v
    by_cases ha : m.accepted = true
    · obtain ⟨-, inv, hinv, hreq⟩ := hacc ha
      have hm' : m = { accepted := true, target := m.target, req := pendingInvocationToRpcRequest inv } := by
        rw [← ha, ← hreq]
      rw [if_pos ha, hreq, invocationOf_request hinv.port, hm', inTransit_forwarded]
    · rw [if_neg ha, List.count_append]
      simp [inTransit, ha]
  rcases recvInvoke_cases happ hmsg (h.opened _) hlive with
    ⟨hunknown, host, port, resp, he⟩ | ⟨server, hknows, hopen, hdest, ⟨he, hperm⟩ | ⟨target, htarget, he, hsame⟩⟩
  · have ha : m.accepted = false := by
      cases hb : m.accepted with
      | false => rfl
      | true => exact absurd (hacc hb).1 hunknown
    simp only [ServiceSystem.receiveInvoke, he]
    refine h.change rfl rfl id (h.shaped _) (h.destinations _) (fun o y hp => Or.inl (h.located o y hp))
      (fun f hf => hf) (fun m' hm' => Or.inl (hother m' hm')) ?_
    intro v
    have hzero : inTransit [m] v = 0 := by simp [inTransit, ha]
    have hv := herase v
    simp only [ServiceSystem.setServer]
    omega
  · simp only [ServiceSystem.receiveInvoke, he]
    refine h.change rfl hopen (fun _ => hknows) ?_ (fun d hd => h.destinations _ d (hdest ▸ hd))
      (fun o y hp => Or.inl (h.located o y hp)) (fun f hf => hf)
      (fun m' hm' => Or.inl (hother m' hm')) ?_
    · intro v hv
      rcases List.mem_cons.mp (hperm.mem_iff.mp hv) with rfl | hold
      · exact hshape
      · exact h.shaped _ v hold
    · intro v
      have hv := herase v
      have hc := hperm.count_eq v
      have ht := htaken v
      rw [← List.singleton_append, List.count_append] at hc
      simp only [ServiceSystem.setServer]
      omega
  · simp only [ServiceSystem.receiveInvoke, he]
    refine h.change rfl hopen (fun _ => hknows) (by rw [hsame]; exact h.shaped _)
      (fun d hd => h.destinations _ d (hdest ▸ hd)) (fun o y hp => Or.inl (h.located o y hp))
      (fun f hf => hf) ?_ ?_
    · intro m' hm'
      rcases List.mem_append.mp hm' with hold | hnew
      · exact Or.inl (hother m' hold)
      · rw [List.mem_singleton.mp hnew]
        exact Or.inr ⟨h.destinations _ target htarget, _, hshape, rfl⟩
    · intro v
      have hv := herase v
      have ht := htaken v
      have hf := inTransit_forwarded target (invocationOf m.req) v
      simp only [ServiceSystem.setServer, inTransit_append, hsame]
      omega

theorem Conserved.dequeue (h : Conserved key s) (x : String) :
    Conserved key (step key s (.tryDequeueInvocation x)) := by
  simp only [step]
  unfold RpcServer.tryDequeueInvocation
  split
  · rename_i inv queue hq
    have hstored : (s.serverAt x).stored key.toRpcAppMsgIds = inv :: (queue ++
        ((s.serverAt x).serviceMigrations[key.toRpcAppMsgIds]?.getD {}).pending) := by
      rw [RpcServer.stored, hq, Option.getD_some, List.cons_append]
    refine h.change rfl rfl (fun _ => RpcServer.knows_setQueue _ _ _) ?_ (h.destinations x)
      (fun o y hp => Or.inl (h.located o y hp)) (fun f hf => hf) (fun m hm => Or.inl hm) ?_
    · intro v hv
      rw [RpcServer.stored_setQueue] at hv
      exact h.shaped x v (by rw [hstored]; exact List.mem_cons_of_mem _ hv)
    · intro v
      rw [RpcServer.stored_setQueue, hstored, ← List.singleton_append, List.count_append]
      simp only [ServiceSystem.setServer, Option.toList_some, List.count_append]
      omega
  · refine h.change rfl rfl id (h.shaped x) (h.destinations x)
      (fun o y hp => Or.inl (h.located o y hp)) (fun f hf => hf) (fun m hm => Or.inl hm) ?_
    intro v
    simp [ServiceSystem.setServer]

theorem Conserved.beginMigration (h : Conserved key s) (now ttl : Int) :
    Conserved key (step key s (.beginServiceQueueMigration now ttl)) := by
  simp only [step]
  split
  · rename_i origin hphase
    split
    · rename_i server hb
      unfold RpcServer.beginServiceQueueMigration at hb
      split_ifs at hb
      obtain rfl := Except.ok.inj hb
      have hstored : ((s.serverAt origin).stored key.toRpcAppMsgIds).Perm
          (((s.serverAt origin).serviceMigrations[key.toRpcAppMsgIds]?.getD {}).pending ++
            (s.serverAt origin).serviceQueues[key.toRpcAppMsgIds]?.getD []) := List.perm_append_comm
      refine h.change rfl rfl (fun _ => RpcServer.knows_setMigration _ _ _) ?_ ?_ ?_
        (fun f hf => hf) (fun m hm => Or.inl hm) ?_
      · intro v hv
        rw [RpcServer.stored_setMigration] at hv
        refine h.shaped origin v (hstored.mem_iff.mpr ?_)
        simpa using hv
      · intro d hd
        rw [RpcServer.destinationOf_setMigration] at hd
        cases hd
      · intro o y hp
        cases hp
      · intro v
        rw [RpcServer.stored_setMigration, hstored.count_eq v]
        simp [ServiceSystem.setServer]
    · exact h
  · exact h

theorem Conserved.register (h : Conserved key s)
    (hempty : ((s.serverAt x).serviceMigrations[key.toRpcAppMsgIds]?.getD {}).pending = []) :
    Conserved key (step key s (.registerServiceInstance x)) := by
  simp only [step]
  split
  · rename_i origin server hphase hr
    unfold RpcServer.registerServiceInstance at hr
    split_ifs at hr
    obtain rfl := Except.ok.inj hr
    split_ifs
    · exact h
    · have hqueue : ((s.serverAt x).serviceQueues.insertIfNew key.toRpcAppMsgIds [])[key.toRpcAppMsgIds]? =
          some ((s.serverAt x).serviceQueues[key.toRpcAppMsgIds]?.getD []) := by
        rw [getElem?_insertIfNew_ite]
        cases (s.serverAt x).serviceQueues[key.toRpcAppMsgIds]? <;> simp
      have hstored : RpcServer.stored
          { s.serverAt x with
            serviceQueues := (s.serverAt x).serviceQueues.insertIfNew key.toRpcAppMsgIds []
            serviceMigrations := (s.serverAt x).serviceMigrations.erase key.toRpcAppMsgIds }
          key.toRpcAppMsgIds = (s.serverAt x).stored key.toRpcAppMsgIds := by
        simp only [RpcServer.stored, hqueue, getElem?_erase_ite, if_true, Option.getD_some,
          Option.getD_none, hempty]
      have hknows : RpcServer.Knows
          { s.serverAt x with
            serviceQueues := (s.serverAt x).serviceQueues.insertIfNew key.toRpcAppMsgIds []
            serviceMigrations := (s.serverAt x).serviceMigrations.erase key.toRpcAppMsgIds }
          key.toRpcAppMsgIds := Or.inl (by rw [hqueue]; exact Option.some_ne_none _)
      refine h.change rfl rfl (fun _ => hknows) (by rw [hstored]; exact h.shaped x) ?_ ?_
        (fun f hf => hf) (fun m hm => Or.inl hm) ?_
      · intro d hd
        simp [RpcServer.destinationOf] at hd
      · intro o y hp
        obtain ⟨-, rfl⟩ := ServicePhase.registered.inj hp
        exact Or.inr ⟨rfl, hknows⟩
      · intro v
        rw [hstored]
        simp [ServiceSystem.setServer]
  · exact h

theorem Conserved.sendFetch (h : Conserved key s) :
    Conserved key (step key s .fetchMigratedServiceQueue) := by
  simp only [step]
  have hserving : ∀ (host : String) (fetches : List FetchInTransit),
      (∀ f ∈ fetches, f.fetch.targetAppId = key.appId ∧ f.fetch.targetMessageId = key.msgId ∧
        s.Knows key f.fetch.replyHost) → Conserved key { s with phase := .serving host, fetches } :=
    fun host fetches hf =>
      ⟨h.opened, h.shaped, h.destinations, nofun, hf, h.invoking, h.kept⟩
  split
  · rename_i origin host hphase
    split_ifs
    · exact hserving host _ h.fetching
    · split
      · rename_i fetch hf
        unfold RpcServer.fetchMigratedServiceQueue at hf
        split_ifs at hf
        obtain rfl := Except.ok.inj hf
        apply hserving
        intro f hmem
        rcases List.mem_append.mp hmem with hold | hnew
        · exact h.fetching f hold
        · rw [List.mem_singleton.mp hnew]
          exact ⟨rfl, rfl, h.located origin host hphase⟩
      · exact hserving host _ h.fetching
  · exact h

theorem inTransit_backlog (target : ServiceForwardTarget) (pending : List PendingInvocation)
    (v : PendingInvocation) :
    inTransit ((pending.map fun inv => (target, pendingInvocationToRpcRequest inv)).map fun e =>
      { accepted := true, target := e.1, req := e.2 }) v = pending.count v := by
  induction pending with
  | nil => rfl
  | cons inv rest ih =>
    have hcons : ∀ (m : InvokeInTransit) l, inTransit (m :: l) v = inTransit [m] v + inTransit l v :=
      fun m l => inTransit_append [m] l v
    rw [List.map_cons, List.map_cons, hcons, ih, inTransit_forwarded, ← List.count_append,
      List.singleton_append]

theorem Conserved.receiveFetch (h : Conserved key s) {f : FetchInTransit} (hf : f ∈ s.fetches)
    (now : Int) : Conserved key (s.receiveFetch i now f) := by
  obtain ⟨happ, hmsg, hreply⟩ := h.fetching f hf
  have hkey : ({ appId := f.fetch.targetAppId, msgId := f.fetch.targetMessageId } : RpcAppMsgIds) =
      key.toRpcAppMsgIds := by rw [happ, hmsg]
  have hfetches : ∀ f' ∈ s.fetches.eraseIdx i, f' ∈ s.fetches :=
    fun f' hf' => List.mem_of_mem_eraseIdx hf'
  unfold ServiceSystem.receiveFetch RpcServer.recvInvocationFetch
  simp only [hkey]
  split
  · refine h.change rfl rfl id (h.shaped _) (h.destinations _)
      (fun o y hp => Or.inl (h.located o y hp)) hfetches
      (fun m hm => Or.inl (by simpa using hm)) ?_
    intro v
    simp [ServiceSystem.setServer]
  · rename_i migration hm
    have hstored : (s.serverAt f.origin).stored key.toRpcAppMsgIds =
        (s.serverAt f.origin).serviceQueues[key.toRpcAppMsgIds]?.getD [] ++ migration.pending := by
      rw [RpcServer.stored, hm, Option.getD_some]
    refine h.change rfl rfl (fun _ => RpcServer.knows_setMigration _ _ _) ?_ ?_
      (fun o y hp => Or.inl (h.located o y hp)) hfetches ?_ ?_
    · intro v hv
      rw [RpcServer.stored_setMigration, List.append_nil] at hv
      exact h.shaped f.origin v (by rw [hstored]; exact List.mem_append_left _ hv)
    · intro d hd
      rw [RpcServer.destinationOf_setMigration] at hd
      obtain rfl := Option.some.inj hd
      exact hreply
    · intro m hmem
      rcases List.mem_append.mp hmem with hold | hnew
      · exact Or.inl hold
      · right
        obtain ⟨e, he, rfl⟩ := List.mem_map.mp hnew
        obtain ⟨inv, hinv, rfl⟩ := List.mem_map.mp he
        exact ⟨hreply, inv, h.shaped f.origin inv (by rw [hstored]; exact List.mem_append_right _ hinv), rfl⟩
    · intro v
      rw [RpcServer.stored_setMigration, hstored, List.append_nil, List.count_append]
      simp only [ServiceSystem.setServer, inTransit_append, inTransit_backlog]
      omega

/-- No entry has expired where an invocation arrives, and a host that registers the instance
holds no backlog for it. -/
def RegistersEmpty (key : ServiceInstanceKey) (s : ServiceSystem) : ServiceAction → Prop
  | .recvInvoke i now =>
    ∀ m ∈ s.invokes[i]?, (s.serverAt m.target.host).Unexpired now key.toRpcAppMsgIds
  | .registerServiceInstance host =>
    ((s.serverAt host).serviceMigrations[key.toRpcAppMsgIds]?.getD {}).pending = []
  | _ => True

instance (key : ServiceInstanceKey) (s : ServiceSystem) (action : ServiceAction) :
    Decidable (RegistersEmpty key s action) := by
  cases action <;> unfold RegistersEmpty <;> infer_instance

theorem conserved_step (s : ServiceSystem) (action : ServiceAction) (h : Conserved key s)
    (hok : RegistersEmpty key s action) : Conserved key (action.step key s) := by
  cases action with
  | invoke host req =>
    refine ⟨h.opened, h.shaped, h.destinations, h.located, h.fetching, ?_, ?_⟩
    · intro m hm
      rcases List.mem_append.mp hm with hold | hnew
      · exact h.invoking m hold
      · rw [List.mem_singleton.mp hnew]
        exact ⟨rfl, rfl, by simp⟩
    · intro v
      have hold := h.kept v
      simp only [step, inTransit_append]
      simpa [inTransit, ServiceSystem.stored] using hold
  | recvInvoke i now =>
    simp only [step]
    split
    · rename_i m hm
      exact h.receiveInvoke hm (hok m hm)
    · exact h
  | tryDequeueInvocation host => exact h.dequeue host
  | beginServiceQueueMigration now ttl => exact h.beginMigration now ttl
  | registerServiceInstance host => exact h.register hok
  | fetchMigratedServiceQueue => exact h.sendFetch
  | recvInvocationFetch i now =>
    simp only [step]
    split
    · rename_i f hf
      exact h.receiveFetch (List.mem_of_getElem? hf) now
    · exact h

theorem conserved_start (key : ServiceInstanceKey) (host : String) : Conserved key (start key host) := by
  have hat : ∀ x, (start key host).serverAt x =
      if host = x then RpcServer.setQueue {} key.toRpcAppMsgIds [] else {} := by
    intro x
    simp only [start, serverAt, getElem?_insert_ite]
    split_ifs <;> simp
  have hstored : ∀ x, ((start key host).serverAt x).stored key.toRpcAppMsgIds = [] := by
    intro x
    rw [hat]
    split_ifs
    · simp [RpcServer.stored_setQueue]
    · simp [RpcServer.stored]
  refine ⟨?_, ?_, ?_, by simp [start], by simp [start], by simp [start], ?_⟩
  · intro x
    rw [hat]
    split_ifs <;> simp [RpcServer.isShutdownRequested, RpcServer.setQueue]
  · intro x v hv
    simp [hstored] at hv
  · intro x d hd
    rw [hat] at hd
    split_ifs at hd <;> simp [RpcServer.destinationOf, RpcServer.setQueue] at hd
  · intro v
    have hzero : (start key host).stored key v = 0 := by
      simp [ServiceSystem.stored, start, total_insert, RpcServer.stored_setQueue]
    rw [hzero]
    rfl

end ServiceSystem

open ServiceSystem

/-- However a service instance moves, and in whatever order the messages arrive: while no
entry expires and no host registers the instance on top of a backlog, every invocation that a
server has taken on is in one queue or backlog, is on its way with its fields unchanged, or has
been dequeued, once. -/
theorem invocations_conserved {key : ServiceInstanceKey} {host : String}
    {actions : List ServiceAction} {s : ServiceSystem}
    (hok : GuardedRun.Meets (step key) (RegistersEmpty key) (start key host) actions)
    (hs : s = GuardedRun.run (step key) (start key host) actions)
    (v : PendingInvocation) :
    s.accepted.count v = s.stored key v + inTransit s.invokes v + s.dequeued.count v := by
  subst hs
  exact (hok.invariant conserved_step (conserved_start key host)).kept v

def pingKey : ServiceInstanceKey := { appId := 3, msgId := 4, appId_ne := by decide, msgId_ne := by decide }

def pingRequest : RpcRequest :=
  { requestId := 7, method := "/faabric.PingSvc/Ping", payload := "one", replyHost := "C"
    replyPort := RPC_ASYNC_PORT }

def pingInvocation : PendingInvocation :=
  { requestId := 7, method := "/faabric.PingSvc/Ping", payload := "one", replyHost := "C"
    targetAppId := 3, targetMessageId := 4 }

def moveWithQueue : List ServiceAction :=
  [.invoke "A" pingRequest, .recvInvoke 0 1, .beginServiceQueueMigration 2 1000,
   .registerServiceInstance "B", .fetchMigratedServiceQueue]

theorem invocations_conserved_fetched :
    (GuardedRun.run (step pingKey) (start pingKey "A")
      (moveWithQueue ++ [.recvInvocationFetch 0 3, .recvInvoke 0 4])).accepted.count pingInvocation = 1 ∧
    (GuardedRun.run (step pingKey) (start pingKey "A")
      (moveWithQueue ++ [.recvInvocationFetch 0 3, .recvInvoke 0 4])).stored pingKey pingInvocation = 1 := by
  have h := @invocations_conserved pingKey "A"
    (moveWithQueue ++ [.recvInvocationFetch 0 3, .recvInvoke 0 4]) _ (by decide +kernel) rfl
    pingInvocation
  refine ⟨?_, by decide +kernel⟩
  rw [h]
  decide +kernel

def backBeforeFetch : ServiceSystem :=
  GuardedRun.run (step pingKey) (start pingKey "A")
    (moveWithQueue ++ [.beginServiceQueueMigration 3 1000, .registerServiceInstance "A",
      .fetchMigratedServiceQueue, .recvInvocationFetch 0 4, .recvInvocationFetch 0 5])

/-- The invocation has been taken on and is nowhere. -/
theorem return_drops_backlog :
    backBeforeFetch.accepted = [pingInvocation] ∧ backBeforeFetch.stored pingKey pingInvocation = 0 ∧
    backBeforeFetch.invokes = [] ∧ backBeforeFetch.dequeued = [] := by
  decide +kernel

end Faabric
