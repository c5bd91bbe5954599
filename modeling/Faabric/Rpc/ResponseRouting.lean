import Faabric.Lib.GuardedRun
import Faabric.Rpc.ContextRegistry

/-! Responses on one host: `recvFetch`, `deliverResponse` and `registerRestoredContext`
on any number of server threads, cut at the sections that hold the registry's lock. -/

namespace Faabric

open Std (ExtTreeMap)
open MapTotal

inductive HandlerPhase where
  | hasRequest (fetch : RpcFetchRequest)
  | consumeCachedResponse (fetch : RpcFetchRequest)
  | registerPendingFetch (fetch : RpcFetchRequest)
  | routeResponse (resp : RpcResponse)
  | asyncSendResponse (fetch : PendingFetch) (resp : RpcResponse)
  | cacheResponse (resp : RpcResponse)
  | onResponseReceived (owner : RpcAppMsgIds) (resps : List RpcResponse)
deriving DecidableEq, Repr

namespace HandlerPhase

def responses : HandlerPhase → List RpcResponse
  | .routeResponse resp | .asyncSendResponse _ resp | .cacheResponse resp => [resp]
  | .onResponseReceived _ resps => resps
  | _ => []

end HandlerPhase

def RpcFetchRequest.target (fetch : RpcFetchRequest) : PendingFetch :=
  { host := fetch.replyHost, port := fetch.replyPort }

/-- The registry and the running handlers of a host, with what has come in and where the
responses have gone. -/
structure RoutingSystem (Context : Type) where
  registry : RpcContextRegistry Context
  handlers : ExtTreeMap Nat HandlerPhase compare := ∅
  asked : List (Nat × PendingFetch) := []
  received : List RpcResponse := []
  passed : List (RpcAppMsgIds × RpcResponse) := []
  forwarded : List (PendingFetch × RpcResponse) := []

inductive RoutingAction (Context : Type) where
  | recvFetch (t : Nat) (fetch : RpcFetchRequest)
  | recvResponse (t : Nat) (resp : RpcResponse)
  | restore (t : Nat) (now : Int) (owner : RpcAppMsgIds) (ctx : Context) (state : RpcMigrationState)
  | proceed (t : Nat) (now : Int) (sent : Bool)
  | registerInFlightRequest (now : Int) (requestId : Nat) (owner : RpcAppMsgIds) (ttl : Int)
  | registerContext (owner : RpcAppMsgIds) (ctx : Context)
  | removeContext (owner : RpcAppMsgIds)

namespace RoutingSystem

variable {Context : Type}

def goOn (s : RoutingSystem Context) (t : Nat) (h : HandlerPhase) : RoutingSystem Context :=
  { s with handlers := s.handlers.insert t h }

def finish (s : RoutingSystem Context) (t : Nat) : RoutingSystem Context :=
  { s with handlers := s.handlers.erase t }

def proceed (s : RoutingSystem Context) (t : Nat) (now : Int) (sent : Bool) :
    HandlerPhase → RoutingSystem Context
  | .hasRequest fetch =>
    let (known, registry) := s.registry.hasRequest now fetch.requestId
    if known then { s with registry }.goOn t (.consumeCachedResponse fetch)
    else { s with registry }.finish t
  | .consumeCachedResponse fetch =>
    match s.registry.consumeCachedResponse now fetch.requestId with
    | (some resp, registry) => { s with registry }.goOn t (.asyncSendResponse fetch.target resp)
    | (none, registry) => { s with registry }.goOn t (.registerPendingFetch fetch)
  | .registerPendingFetch fetch =>
    { s with registry := s.registry.registerPendingFetch now fetch.requestId fetch.target }.finish t
  | .routeResponse resp =>
    match s.registry.routeResponse now resp.requestId resp with
    | (.drop, registry) | (.cached, registry) => { s with registry }.finish t
    | (.deliver owner _, registry) =>
      { s with registry, passed := s.passed ++ [(owner, resp)] }.finish t
    | (.forward fetch, registry) => { s with registry }.goOn t (.asyncSendResponse fetch resp)
  | .asyncSendResponse fetch resp =>
    if sent then { s with forwarded := s.forwarded ++ [(fetch, resp)] }.finish t
    else s.goOn t (.cacheResponse resp)
  | .cacheResponse resp =>
    { s with registry := s.registry.cacheResponse now resp.requestId resp }.finish t
  | .onResponseReceived _ [] => s.finish t
  | .onResponseReceived owner (resp :: resps) =>
    { s with passed := s.passed ++ [(owner, resp)] }.goOn t (.onResponseReceived owner resps)

end RoutingSystem

def RoutingAction.step {Context : Type} (s : RoutingSystem Context) :
    RoutingAction Context → RoutingSystem Context
  | .recvFetch t fetch =>
    match s.handlers[t]? with
    | none => { s with asked := s.asked ++ [(fetch.requestId, fetch.target)] }.goOn t (.hasRequest fetch)
    | some _ => s
  | .recvResponse t resp =>
    match s.handlers[t]? with
    | none => { s with received := s.received ++ [resp] }.goOn t (.routeResponse resp)
    | some _ => s
  | .restore t now owner ctx state =>
    match s.handlers[t]? with
    | none =>
      let (resps, registry) := s.registry.registerRestoredContext now owner ctx state
      { s with registry }.goOn t (.onResponseReceived owner resps)
    | some _ => s
  | .proceed t now sent =>
    match s.handlers[t]? with
    | none => s
    | some h => s.proceed t now sent h
  | .registerInFlightRequest now requestId owner ttl =>
    { s with registry := s.registry.registerInFlightRequest now requestId owner ttl }
  | .registerContext owner ctx => { s with registry := s.registry.registerContext owner ctx }
  | .removeContext owner => { s with registry := s.registry.removeContext owner }

namespace RpcContextRegistry

variable {Context : Type}

def held (reg : RpcContextRegistry Context) (resp : RpcResponse) : Nat :=
  reg.cachedResponses[resp.requestId]?.toList.count resp

variable {reg : RpcContextRegistry Context}

theorem held_insert {resp : RpcResponse} (hc : reg.cachedResponses[resp.requestId]? = none) (x : RpcResponse) :
    held { reg with cachedResponses := reg.cachedResponses.insert resp.requestId resp } x =
      reg.held x + [resp].count x := by
  by_cases he : resp.requestId = x.requestId
  · rw [he] at hc
    simp [held, he, hc]
  · have hne : resp ≠ x := fun h => he (by rw [h])
    simp [held, he, hne]

theorem held_erase {requestId : Nat} {resp : RpcResponse} (hk : reg.Keyed)
    (hc : reg.cachedResponses[requestId]? = some resp) (x : RpcResponse) :
    held { reg with cachedResponses := reg.cachedResponses.erase requestId } x + [resp].count x =
      reg.held x := by
  have hid := hk requestId resp hc
  by_cases he : requestId = x.requestId
  · subst he
    simp [held, hc]
  · have hne : resp ≠ x := fun h => he (by rw [← hid, h])
    simp [held, he, hne]

theorem TakenOver.held_eq {owner : RpcAppMsgIds} {ids : List Nat} {reg' : RpcContextRegistry Context}
    {taken : List RpcResponse} (h : TakenOver owner ids reg reg' taken) (hk : reg.Keyed) (x : RpcResponse) :
    reg'.held x + taken.count x = reg.held x := by
  have hcount : (taken.filter fun resp => resp.requestId = x.requestId).count x = taken.count x :=
    List.count_filter (by simp)
  rw [← hcount, h.taken hk x.requestId, held, held, h.cached x.requestId]
  by_cases hx : x.requestId ∈ ids
  · simp [hx]
  · simp [hx]

end RpcContextRegistry

namespace RoutingSystem

variable {Context : Type}

def inHand (s : RoutingSystem Context) (resp : RpcResponse) : Nat :=
  total (fun _ h => h.responses.count resp) s.handlers

/-- How often the response has been passed to a context, forwarded to a fetcher or left in
the cache. -/
def settled (s : RoutingSystem Context) (resp : RpcResponse) : Nat :=
  (s.passed.map Prod.snd).count resp + (s.forwarded.map Prod.snd).count resp + s.registry.held resp

def Asked (asked : List (Nat × PendingFetch)) : HandlerPhase → Prop
  | .hasRequest fetch | .consumeCachedResponse fetch | .registerPendingFetch fetch =>
    (fetch.requestId, fetch.target) ∈ asked
  | .asyncSendResponse fetch resp => (resp.requestId, fetch) ∈ asked
  | _ => True

/-- A request has a cached response or a pending fetch, and the fetch has been asked for. -/
structure Apart (asked : List (Nat × PendingFetch)) (cached : ExtTreeMap Nat RpcResponse compare)
    (fetches : ExtTreeMap Nat PendingFetch compare) : Prop where
  keyed : ∀ (q : Nat) resp, cached[q]? = some resp → resp.requestId = q
  apart : ∀ q : Nat, cached[q]? = none ∨ fetches[q]? = none
  fetchers : ∀ (q : Nat) fetch, fetches[q]? = some fetch → (q, fetch) ∈ asked

section Maps

variable {asked : List (Nat × PendingFetch)} {cached : ExtTreeMap Nat RpcResponse compare}
  {fetches : ExtTreeMap Nat PendingFetch compare}

theorem Apart.cache {resp : RpcResponse} (h : Apart asked cached fetches) (hf : fetches[resp.requestId]? = none) :
    Apart asked (cached.insert resp.requestId resp) fetches := by
  refine { h with keyed := forall_insert h.keyed rfl, apart := fun q => ?_ }
  by_cases he : resp.requestId = q
  · exact Or.inr (he ▸ hf)
  · simpa [he] using h.apart q

theorem Apart.uncache (h : Apart asked cached fetches) (q : Nat) : Apart asked (cached.erase q) fetches := by
  refine { h with keyed := forall_erase h.keyed, apart := fun q' => ?_ }
  by_cases he : q = q'
  · simp [he]
  · simpa [he] using h.apart q'

theorem Apart.fetch {q : Nat} {fetch : PendingFetch} (h : Apart asked cached fetches) (hc : cached[q]? = none)
    (hask : (q, fetch) ∈ asked) : Apart asked cached (fetches.insert q fetch) := by
  refine { h with fetchers := forall_insert h.fetchers hask, apart := fun q' => ?_ }
  by_cases he : q = q'
  · exact Or.inl (he ▸ hc)
  · simpa [he] using h.apart q'

theorem Apart.unfetch (h : Apart asked cached fetches) (q : Nat) : Apart asked cached (fetches.erase q) := by
  refine { h with fetchers := forall_erase h.fetchers, apart := fun q' => ?_ }
  by_cases he : q = q'
  · simp [he]
  · simpa [he] using h.apart q'

end Maps

structure Unstranded (s : RoutingSystem Context) : Prop where
  maps : Apart s.asked s.registry.cachedResponses s.registry.pendingFetches
  running : ∀ (t : Nat) h, s.handlers[t]? = some h → Asked s.asked h
  forwarded : ∀ e ∈ s.forwarded, (e.2.requestId, e.1) ∈ s.asked
  kept : ∀ resp, s.received.count resp = s.settled resp + s.inHand resp

def handlersAfter (s : RoutingSystem Context) (t : Nat) : Option HandlerPhase →
    ExtTreeMap Nat HandlerPhase compare
  | some h => s.handlers.insert t h
  | none => s.handlers.erase t

def responsesOf (next : Option HandlerPhase) : List RpcResponse :=
  (next.map HandlerPhase.responses).getD []

variable {s : RoutingSystem Context} {t : Nat} {h : HandlerPhase} {registry : RpcContextRegistry Context}
  {passed : List (RpcAppMsgIds × RpcResponse)} {forwarded : List (PendingFetch × RpcResponse)}

theorem total_handlersAfter (next : Option HandlerPhase) (ht : s.handlers[t]? = some h) (resp : RpcResponse) :
    total (fun _ h => h.responses.count resp) (s.handlersAfter t next) + h.responses.count resp =
      s.inHand resp + (responsesOf next).count resp := by
  cases next with
  | some h' => exact total_overwrite (fun _ h => h.responses.count resp) ht h'
  | none =>
    have := total_erase (fun _ h => h.responses.count resp) ht
    simpa [handlersAfter, responsesOf, inHand] using this

theorem Unstranded.advance (inv : Unstranded s) (next : Option HandlerPhase) (ht : s.handlers[t]? = some h)
    (hnext : ∀ h' ∈ next, Asked s.asked h')
    (hmaps : Apart s.asked registry.cachedResponses registry.pendingFetches)
    (hforwarded : ∀ e ∈ forwarded, (e.2.requestId, e.1) ∈ s.asked)
    (hkept : ∀ resp, settled { s with registry, passed, forwarded } resp + (responsesOf next).count resp =
      s.settled resp + h.responses.count resp) :
    Unstranded { s with registry, passed, forwarded, handlers := s.handlersAfter t next } := by
  refine ⟨hmaps, ?_, hforwarded, fun resp => ?_⟩
  · cases next with
    | none => exact forall_erase inv.running
    | some h' => exact forall_insert inv.running (hnext h' rfl)
  · have hhand := total_handlersAfter next ht resp
    have hold := inv.kept resp
    have hnew := hkept resp
    change s.received.count resp = settled { s with registry, passed, forwarded } resp +
      total (fun _ h => h.responses.count resp) (s.handlersAfter t next)
    omega

/-- A section that changes neither map and settles nothing. -/
theorem Unstranded.goOn (inv : Unstranded s) {h' : HandlerPhase} (ht : s.handlers[t]? = some h)
    (hasked : Asked s.asked h') (hh : h'.responses = h.responses) : Unstranded (s.goOn t h') :=
  inv.advance (some h') ht (by rintro _ ⟨⟩; exact hasked) inv.maps inv.forwarded fun resp => by
    simp only [responsesOf, Option.map_some, Option.getD_some, hh]

/-- The request that the section is about has not expired, and the section neither leaves a
response and a fetch of one request side by side nor puts one response over another. -/
def SectionOk (s : RoutingSystem Context) (now : Int) : HandlerPhase → Prop
  | .hasRequest fetch | .consumeCachedResponse fetch => s.registry.Unexpired now fetch.requestId
  | .registerPendingFetch fetch =>
    s.registry.Unexpired now fetch.requestId ∧ s.registry.cachedResponses[fetch.requestId]? = none
  | .routeResponse resp =>
    s.registry.Unexpired now resp.requestId ∧
      match (s.registry.routeResponse now resp.requestId resp).1 with
      | .cached => s.registry.cachedResponses[resp.requestId]? = none
      | _ => True
  | .cacheResponse resp =>
    s.registry.Unexpired now resp.requestId ∧
      s.registry.cachedResponses[resp.requestId]? = none ∧
      s.registry.pendingFetches[resp.requestId]? = none
  | _ => True

instance (s : RoutingSystem Context) (now : Int) (h : HandlerPhase) : Decidable (s.SectionOk now h) := by
  cases h with
  | routeResponse resp =>
    unfold SectionOk
    have : Decidable (match (s.registry.routeResponse now resp.requestId resp).1 with
      | .cached => s.registry.cachedResponses[resp.requestId]? = none
      | _ => True) := by
      split <;> infer_instance
    infer_instance
  | _ => unfold SectionOk; infer_instance

def SectionsApart (s : RoutingSystem Context) : RoutingAction Context → Prop
  | .proceed t now _ => ∀ h ∈ s.handlers[t]?, s.SectionOk now h
  | _ => True

instance (s : RoutingSystem Context) (action : RoutingAction Context) :
    Decidable (s.SectionsApart action) := by
  cases action <;> unfold SectionsApart <;> infer_instance

theorem count_snoc_snd {α : Type} (l : List (α × RpcResponse)) (a : α) (resp x : RpcResponse) :
    ((l ++ [(a, resp)]).map Prod.snd).count x = (l.map Prod.snd).count x + [resp].count x := by
  simp

theorem Unstranded.consumeCached (inv : Unstranded s) {now : Int} {fetch : RpcFetchRequest} (sent : Bool)
    (ht : s.handlers[t]? = some (.consumeCachedResponse fetch))
    (hlive : s.registry.Unexpired now fetch.requestId) :
    Unstranded (s.proceed t now sent (.consumeCachedResponse fetch)) := by
  have hask : (fetch.requestId, fetch.target) ∈ s.asked := inv.running t _ ht
  cases hc : s.registry.cachedResponses[fetch.requestId]? with
  | none =>
    simp only [RoutingSystem.proceed, RpcContextRegistry.consumeCachedResponse_miss hlive hc]
    exact inv.goOn ht hask rfl
  | some resp =>
    have hid := inv.maps.keyed _ _ hc
    simp only [RoutingSystem.proceed, RpcContextRegistry.consumeCachedResponse_hit hlive hc]
    refine inv.advance (some (.asyncSendResponse fetch.target resp)) ht ?_ (inv.maps.uncache _) inv.forwarded ?_
    · rintro _ ⟨⟩
      simpa [Asked, hid] using hask
    · intro x
      have hheld := RpcContextRegistry.held_erase inv.maps.keyed hc x
      simp only [settled, responsesOf, HandlerPhase.responses, Option.map_some, Option.getD_some,
        List.count_nil] at hheld ⊢
      omega

variable {resp : RpcResponse}

theorem Unstranded.cache (inv : Unstranded s) (ht : s.handlers[t]? = some h) (hh : h.responses = [resp])
    (hc : s.registry.cachedResponses[resp.requestId]? = none)
    (hf : s.registry.pendingFetches[resp.requestId]? = none) :
    Unstranded (finish { s with
      registry := { s.registry with
        cachedResponses := s.registry.cachedResponses.insert resp.requestId resp } } t) := by
  refine inv.advance none ht nofun (inv.maps.cache hf) inv.forwarded fun x => ?_
  have hheld := RpcContextRegistry.held_insert hc x
  rw [hh]
  simp only [settled, responsesOf, Option.map_none, Option.getD_none, List.count_nil] at hheld ⊢
  omega

theorem Unstranded.pass (inv : Unstranded s) (next : Option HandlerPhase) (ht : s.handlers[t]? = some h)
    (owner : RpcAppMsgIds) (hnext : ∀ h' ∈ next, Asked s.asked h') (hh : h.responses = resp :: responsesOf next) :
    Unstranded { s with
      passed := s.passed ++ [(owner, resp)], handlers := s.handlersAfter t next } := by
  refine inv.advance next ht hnext inv.maps inv.forwarded fun x => ?_
  have hcons : (resp :: responsesOf next).count x = (responsesOf next).count x + [resp].count x := by
    simp [List.count_cons]
  rw [hh, hcons]
  simp only [settled, count_snoc_snd]
  omega

theorem Unstranded.route (inv : Unstranded s) {now : Int} (sent : Bool)
    (ht : s.handlers[t]? = some (.routeResponse resp)) (hok : s.SectionOk now (.routeResponse resp)) :
    Unstranded (s.proceed t now sent (.routeResponse resp)) := by
  obtain ⟨hlive, hroute⟩ := hok
  rcases RpcContextRegistry.routeResponse_cases hlive resp with
    ⟨r, ctx, -, -, he⟩ | ⟨r, fetch, -, -, hf, he⟩ | ⟨r, -, -, hf, he⟩
  · simp only [RoutingSystem.proceed, he]
    exact inv.pass none ht r.owner nofun rfl
  · simp only [RoutingSystem.proceed, he]
    refine inv.advance (some (.asyncSendResponse fetch resp)) ht ?_ (inv.maps.unfetch _) inv.forwarded fun x => rfl
    rintro _ ⟨⟩
    exact inv.maps.fetchers _ _ hf
  · rw [he] at hroute
    simp only [RoutingSystem.proceed, he]
    exact inv.cache ht rfl hroute hf

theorem Unstranded.proceed (inv : Unstranded s) (now : Int) (sent : Bool) (ht : s.handlers[t]? = some h)
    (hok : s.SectionOk now h) : Unstranded (s.proceed t now sent h) := by
  have hask := inv.running t h ht
  cases h with
  | hasRequest fetch =>
    simp only [RoutingSystem.proceed, RpcContextRegistry.hasRequest_of_unexpired hok, if_true]
    exact inv.goOn ht hask rfl
  | consumeCachedResponse fetch => exact inv.consumeCached sent ht hok
  | registerPendingFetch fetch =>
    simp only [RoutingSystem.proceed, RpcContextRegistry.registerPendingFetch_of_unexpired hok.1]
    exact inv.advance none ht nofun (inv.maps.fetch hok.2 hask) inv.forwarded fun x => rfl
  | routeResponse resp => exact inv.route sent ht hok
  | asyncSendResponse fetch resp =>
    cases sent with
    | false => exact inv.goOn ht trivial rfl
    | true =>
      simp only [RoutingSystem.proceed, if_true]
      refine inv.advance none ht nofun inv.maps (fun e he => ?_) fun x => ?_
      · rcases List.mem_append.mp he with hold | hnew
        · exact inv.forwarded e hold
        · obtain rfl := List.mem_singleton.mp hnew
          exact hask
      · simp only [settled, count_snoc_snd, responsesOf, Option.map_none, Option.getD_none,
          List.count_nil, HandlerPhase.responses]
        omega
  | cacheResponse resp =>
    obtain ⟨hlive, hc, hf⟩ := hok
    simp only [RoutingSystem.proceed, RpcContextRegistry.cacheResponse_of_unexpired hlive]
    exact inv.cache ht rfl hc hf
  | onResponseReceived owner resps =>
    cases resps with
    | nil => exact inv.advance none ht nofun inv.maps inv.forwarded fun x => rfl
    | cons resp resps => exact inv.pass (some (.onResponseReceived owner resps)) ht owner (by simp [Asked]) rfl

theorem Unstranded.begin {asked : List (Nat × PendingFetch)} {received : List RpcResponse} (inv : Unstranded s)
    (ht : s.handlers[t]? = none) (hasked : s.asked ⊆ asked) (hh : Asked asked h)
    (hmaps : Apart asked registry.cachedResponses registry.pendingFetches)
    (hkept : ∀ resp, received.count resp + s.settled resp =
      s.received.count resp + settled { s with registry } resp + h.responses.count resp) :
    Unstranded (RoutingSystem.goOn { s with registry, asked, received } t h) := by
  refine ⟨hmaps, forall_insert (fun t' h' hh' => ?_) hh, fun e he => hasked (inv.forwarded e he), fun resp => ?_⟩
  · have hold := inv.running t' h' hh'
    cases h' <;> first | trivial | exact hasked hold
  · have hhand := total_insert_new (fun _ h => h.responses.count resp) ht h
    have hold := inv.kept resp
    have hnew := hkept resp
    change received.count resp = settled { s with registry } resp +
      total (fun _ h => h.responses.count resp) (s.handlers.insert t h)
    rw [inHand] at hold
    omega

end RoutingSystem

open RoutingSystem

variable {Context : Type}

theorem unstranded_step (s : RoutingSystem Context) (action : RoutingAction Context)
    (inv : Unstranded s) (hok : s.SectionsApart action) : Unstranded (action.step s) := by
  cases action with
  | recvFetch t fetch =>
    simp only [RoutingAction.step]
    cases ht : s.handlers[t]? with
    | some h => exact inv
    | none =>
      have hmore : s.asked ⊆ s.asked ++ [(fetch.requestId, fetch.target)] := List.subset_append_left _ _
      refine inv.begin ht hmore (by simp [Asked]) { inv.maps with fetchers := fun q f hf => ?_ } fun x => rfl
      exact hmore (inv.maps.fetchers q f hf)
  | recvResponse t resp =>
    simp only [RoutingAction.step]
    cases ht : s.handlers[t]? with
    | some h => exact inv
    | none =>
      refine inv.begin ht (List.Subset.refl _) trivial inv.maps fun x => ?_
      simp only [HandlerPhase.responses, List.count_append]
      change _ = _ + s.settled x + _
      omega
  | restore t now owner ctx state =>
    simp only [RoutingAction.step]
    cases ht : s.handlers[t]? with
    | some h => exact inv
    | none =>
      have h := RpcContextRegistry.registerRestoredContext_takenOver s.registry now owner ctx state
      refine inv.begin ht (List.Subset.refl _) trivial ⟨fun q resp hr => ?_, fun q => ?_, fun q fetch hf => ?_⟩ fun x => ?_
      · have hr' := h.cached q ▸ hr
        split_ifs at hr'
        exact inv.maps.keyed q resp hr'
      · simp only [h.cached q, h.fetches q]
        split_ifs
        · exact Or.inl rfl
        · exact inv.maps.apart q
      · have hf' := h.fetches q ▸ hf
        split_ifs at hf'
        exact inv.maps.fetchers q fetch hf'
      · have hheld := h.held_eq inv.maps.keyed x
        have hsame : (s.registry.registerContext owner ctx).held x = s.registry.held x := rfl
        simp only [settled, HandlerPhase.responses]
        omega
  | proceed t now sent =>
    simp only [RoutingAction.step]
    cases ht : s.handlers[t]? with
    | none => exact inv
    | some h => exact inv.proceed now sent ht (hok h ht)
  | registerInFlightRequest | registerContext | removeContext => exact { inv with }

theorem unstranded_idle {registry : RpcContextRegistry Context}
    (hc : registry.cachedResponses = ∅) (hf : registry.pendingFetches = ∅) :
    Unstranded { registry } := by
  refine ⟨⟨?_, ?_, ?_⟩, by simp, by simp, ?_⟩
  · simp [hc]
  · simp [hf]
  · simp [hf]
  · simp [settled, RpcContextRegistry.held, hc, inHand]

/-- On a host without cached responses and fetches, any number of handlers may interleave:
if every section is as `SectionOk` asks, no request ever has both a cached response and a
pending fetch, a response goes only to a fetcher that has asked for it, and once no handler
runs every response received has been passed on, forwarded or cached, exactly once. -/
theorem responses_not_stranded {registry : RpcContextRegistry Context}
    {actions : List (RoutingAction Context)}
    (hc : registry.cachedResponses = ∅) (hf : registry.pendingFetches = ∅)
    (hok : GuardedRun.Meets RoutingAction.step SectionsApart { registry } actions)
    (s : RoutingSystem Context) (hs : s = GuardedRun.run RoutingAction.step { registry } actions) :
    (∀ q : Nat, s.registry.cachedResponses[q]? = none ∨ s.registry.pendingFetches[q]? = none) ∧
    (∀ e ∈ s.forwarded, (e.2.requestId, e.1) ∈ s.asked) ∧
    (s.handlers = ∅ → ∀ resp, s.received.count resp =
      (s.passed.map Prod.snd).count resp + (s.forwarded.map Prod.snd).count resp +
        s.registry.held resp) := by
  subst hs
  have inv := hok.invariant unstranded_step (unstranded_idle hc hf)
  refine ⟨inv.maps.apart, inv.forwarded, ?_⟩
  intro hidle resp
  have hkept := inv.kept resp
  rw [inHand, hidle, total_empty, Nat.add_zero] at hkept
  exact hkept

def leftHost : RpcContextRegistry Unit :=
  RpcContextRegistry.registerInFlightRequest {} 0 7 { appId := 1, msgId := 2 } 1000

def answerTo7 : RpcResponse := { requestId := 7, payload := "pong" }

def fetch7 : RpcFetchRequest := { requestId := 7, replyHost := "B", replyPort := RPC_ASYNC_PORT }

def fetchThenResponse : List (RoutingAction Unit) :=
  [.recvFetch 0 fetch7, .recvResponse 1 answerTo7, .proceed 0 1 true, .proceed 0 2 true,
   .proceed 0 3 true, .proceed 1 4 true, .proceed 1 5 true]

theorem responses_not_stranded_fetched :
    (GuardedRun.run RoutingAction.step { registry := leftHost } fetchThenResponse).forwarded =
      [(fetch7.target, answerTo7)] ∧
    (GuardedRun.run RoutingAction.step { registry := leftHost } fetchThenResponse).received.count
      answerTo7 = 1 := by
  have h := @responses_not_stranded Unit leftHost fetchThenResponse (by decide) (by decide) (by decide)
    _ rfl
  refine ⟨by decide, ?_⟩
  rw [h.2.2 (by decide) answerTo7]
  decide

def responseBetweenSections : RoutingSystem Unit :=
  GuardedRun.run RoutingAction.step { registry := leftHost }
    [.recvFetch 0 fetch7, .proceed 0 1 true, .proceed 0 2 true, .recvResponse 1 answerTo7,
     .proceed 1 3 true, .proceed 0 4 true]

def secondResponse : RoutingSystem Unit :=
  GuardedRun.run RoutingAction.step { registry := leftHost }
    [.recvResponse 0 answerTo7, .proceed 0 1 true,
     .recvResponse 0 { answerTo7 with statusCode := RpcStatusCode.INTERNAL }, .proceed 0 2 true]

/-- No handler runs, and request 7 has a cached response and a pending fetch. Of two
responses to one request the first is nowhere. -/
theorem fetch_misses_cached_response :
    (responseBetweenSections.handlers = ∅ ∧
      responseBetweenSections.registry.cachedResponses[7]? = some answerTo7 ∧
      responseBetweenSections.registry.pendingFetches[7]? = some fetch7.target) ∧
    (secondResponse.handlers = ∅ ∧ secondResponse.received.count answerTo7 = 1 ∧
      secondResponse.passed = [] ∧ secondResponse.forwarded = [] ∧
      secondResponse.registry.held answerTo7 = 0) := by
  decide

end Faabric
