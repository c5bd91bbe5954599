import Faabric.Lib.Trail
import Faabric.Lib.Transit
import Faabric.Rpc.CallerMigration

/-! The response to a request follows its caller. There is one answer at a time, and from
where it is the hosts that the caller has left later know, or will learn, where to send it. -/

namespace Faabric

open Std (ExtTreeMap)
open Function RpcContextRegistry RpcContext CallerAction CallerPhase MapTotal MapFill

/-- Where the answer to the request is: still to be given, to the host it is to be sent to; on
its way; in the cache of a host; in the caller's context. -/
inductive Token where
  | invoked (host : String)
  | transit (host : String) (resp : RpcResponse)
  | cached (host : String) (resp : RpcResponse)
  | done (resp : RpcResponse)

namespace Token

def host : Token → Option String
  | .invoked host | .transit host _ | .cached host _ => some host
  | .done _ => none

def invocations : Token → List String
  | .invoked host => [host]
  | _ => []

def inTransit : Token → List (String × RpcResponse)
  | .transit host resp => [(host, resp)]
  | _ => []

def cachedAt : Token → String → Option RpcResponse
  | .cached host resp, x => if x = host then some resp else none
  | _, _ => none

def completions : Token → List RpcResponse
  | .done resp => [resp]
  | _ => []

def isDone (tok : Token) : Bool := tok.host.isNone

def responses : Token → List RpcResponse
  | .transit _ resp | .cached _ resp => [resp]
  | _ => []

def takenAt (x : String) : Token → Token
  | .cached host resp => if host = x then .transit host resp else .cached host resp
  | tok => tok

theorem cachedAt_eq_some {tok : Token} {x : String} {resp : RpcResponse} :
    tok.cachedAt x = some resp ↔ tok = .cached x resp := by
  cases tok with
  | cached host r =>
    simp only [cachedAt, Option.ite_none_right_eq_some, Option.some.injEq, Token.cached.injEq]
    exact ⟨fun h => ⟨h.1.symm, h.2⟩, fun h => ⟨h.1.symm, h.2⟩⟩
  | _ => simp [cachedAt]

theorem takenAt_cases (x : String) (tok : Token) :
    (∃ resp, tok = .cached x resp ∧ tok.takenAt x = .transit x resp) ∨
      (tok.takenAt x = tok ∧ tok.cachedAt x = none) := by
  cases tok with
  | cached host resp =>
    by_cases hx : host = x
    · exact Or.inl ⟨resp, by rw [hx], by simp [takenAt, hx]⟩
    · exact Or.inr ⟨by simp [takenAt, hx], if_neg (Ne.symm hx)⟩
  | _ => exact Or.inr ⟨rfl, rfl⟩

end Token

/-- What the hosts and the network hold of one request, with the trail of its caller. -/
structure Pursuit where
  here : Option String
  hop : Nat
  departed : String → Option Nat
  arrived : Nat → String
  unanswered : List String
  inTransit : List (String × RpcResponse)
  cached : String → Option RpcResponse
  pending : String → Option PendingFetch
  fetches : Set CallerFetch
  answers : List RpcResponse
  completions : List RpcResponse
  dropped : List RpcResponse

namespace Pursuit

def Visited (p : Pursuit) (x : String) : Prop := p.here = some x ∨ p.departed x ≠ none

def Led (p : Pursuit) (k : Nat) (host : String) : Prop := host = p.arrived k ∧ (p.here = none → k ≠ p.hop)

/-- The host `x`, which the caller has left with the migration `k`, has been told where that
migration led, or a FETCH is on its way to it, or is still to be sent. -/
def Asked (p : Pursuit) (x : String) (k : Nat) : Prop :=
  (p.here = none ∧ k = p.hop) ∨ (∃ f ∈ p.fetches, f.hop = k ∧ f.origin = x) ∨
    ∃ fetch, p.pending x = some fetch ∧ fetch.host = p.arrived k

structure Follows (p : Pursuit) (tok : Token) : Prop where
  trail : Trail p.here p.hop p.departed p.arrived
  unanswered : p.unanswered = tok.invocations
  inTransit : p.inTransit = tok.inTransit
  cached : p.cached = tok.cachedAt
  completions : p.completions = tok.completions
  genuine : ∀ resp ∈ tok.responses, resp ∈ p.answers
  outcome : ∀ resp ∈ tok.completions, resp ∈ p.answers ∨ resp.statusCode = RpcStatusCode.UNAVAILABLE
  -- a host where a FETCH waits has been left, and the FETCH comes from where the caller went
  waiting : tok.isDone = false → ∀ x fetch, p.pending x = some fetch →
    ∃ k, p.departed x = some k ∧ p.Led k fetch.host
  apart : ∀ x resp, tok = .cached x resp → p.pending x = none ∧ p.departed x ≠ none
  asking : ∀ f ∈ p.fetches, p.Led f.hop f.fetch.replyHost ∧ f.hop ≤ p.hop
  reach : ∀ g, tok.host = some g → p.Visited g ∧ ∀ kg, p.departed g = some kg →
    ∀ x k, p.departed x = some k → kg ≤ k → p.Asked x k
  dropped : p.dropped = []

theorem of_update_none {α : Type} {f : String → Option α} {a x : String} {b : α}
    (h : update f a none x = some b) : x ≠ a ∧ f x = some b := by
  rw [update_apply] at h
  split_ifs at h with hx
  exact ⟨hx, h⟩

namespace Follows

variable {p : Pursuit} {tok : Token} {host : String} {resp : RpcResponse} {fetches : Set CallerFetch}

theorem answer (h : p.Follows (.invoked host)) :
    Follows { p with unanswered := [], inTransit := [(host, resp)], answers := p.answers ++ [resp] }
      (.transit host resp) :=
  { h with
    unanswered := rfl
    inTransit := rfl
    genuine := by simp [Token.responses]
    outcome := nofun
    apart := nofun }

theorem retry (h : p.Follows (.transit host resp)) :
    Follows { p with unanswered := [host], inTransit := [] } (.invoked host) :=
  { h with
    unanswered := rfl
    inTransit := rfl
    genuine := nofun
    apart := nofun }

theorem complete (h : p.Follows (.transit host resp)) {r : RpcResponse}
    (hr : r = resp ∨ r.statusCode = RpcStatusCode.UNAVAILABLE) :
    Follows { p with inTransit := [], completions := [r] } (.done r) :=
  { h with
    inTransit := rfl
    completions := rfl
    genuine := nofun
    outcome := by
      intro r' hr'
      obtain rfl := List.mem_singleton.mp hr'
      exact hr.imp_left fun he => h.genuine r' (List.mem_singleton.mpr he)
    waiting := nofun
    apart := nofun
    reach := nofun }

theorem onward (h : p.Follows tok) {g : String} {kg : Nat} (hg : tok.host = some g)
    (hkg : p.departed g = some kg) (hled : p.Led kg host) :
    p.Visited host ∧ ∀ k', p.departed host = some k' →
      ∀ x k, p.departed x = some k → k' ≤ k → x ≠ g ∧ p.Asked x k := by
  obtain ⟨rfl, hmoved⟩ := hled
  rcases h.trail.onward g kg hkg with ⟨hnone, he⟩ | hhere | ⟨m, hm, hlt⟩
  · exact absurd he (hmoved hnone)
  · refine ⟨Or.inl hhere, ?_⟩
    intro k' hk'
    rw [h.trail.home _ hhere] at hk'
    cases hk'
  · refine ⟨Or.inr (by rw [hm]; exact Option.some_ne_none m), ?_⟩
    intro k' hk' x k hk hle
    obtain rfl : m = k' := Option.some.inj (hm.symm.trans hk')
    refine ⟨?_, (h.reach g hg).2 kg hkg x k hk (by omega)⟩
    rintro rfl
    have : kg = k := Option.some.inj (hkg.symm.trans hk)
    omega

theorem forward (h : p.Follows (.transit host resp)) {fetch : PendingFetch}
    (hfetch : p.pending host = some fetch) :
    Follows { p with
        inTransit := [(fetch.host, resp)]
        pending := update p.pending host none } (.transit fetch.host resp) := by
  obtain ⟨kg, hkg, hled⟩ := h.waiting rfl host fetch hfetch
  obtain ⟨hvisited, honward⟩ := h.onward rfl hkg hled
  refine { h with inTransit := rfl, waiting := ?_, apart := nofun, reach := ?_ }
  · intro hdone x fetch' hx
    exact h.waiting hdone x fetch' (of_update_none hx).2
  · intro g hg
    obtain rfl : fetch.host = g := Option.some.inj hg
    refine ⟨hvisited, fun k' hk' x k hk hle => ?_⟩
    obtain ⟨hne, hasked⟩ := honward k' hk' x k hk hle
    exact hasked.imp_right (Or.imp_right fun ⟨fetch', hx, hto⟩ =>
      ⟨fetch', (update_of_ne hne ..).trans hx, hto⟩)

theorem cache (h : p.Follows (.transit host resp)) (haway : p.here ≠ some host)
    (hnone : p.pending host = none) :
    Follows { p with inTransit := [], cached := update p.cached host (some resp) }
      (.cached host resp) := by
  refine { h with inTransit := rfl, cached := ?_, apart := ?_ }
  · funext x
    simp [h.cached, update_apply, Token.cachedAt]
  · intro x r he
    obtain ⟨rfl, rfl⟩ := Token.cached.inj he
    exact ⟨hnone, (h.reach _ rfl).1.resolve_left haway⟩

theorem settled (h : p.Follows (.done resp)) (hsub : fetches ⊆ p.fetches)
    (pending : String → Option PendingFetch) : Follows { p with pending, fetches } (.done resp) :=
  { h with
    waiting := nofun
    apart := nofun
    asking := fun f hf => h.asking f (hsub hf)
    reach := nofun }

section Fetch

variable {f : CallerFetch} (hf : f ∈ p.fetches) (hcurrent : p.departed f.origin = some f.hop)
  (hsub : fetches ⊆ p.fetches) (hrest : ∀ f' ∈ p.fetches, f' ≠ f → f' ∈ fetches)

include hf hcurrent hsub hrest

theorem fetch (h : p.Follows (.cached f.origin resp)) :
    Follows { p with
        inTransit := [(f.fetch.replyHost, resp)]
        cached := update p.cached f.origin none
        fetches } (.transit f.fetch.replyHost resp) := by
  obtain ⟨hvisited, honward⟩ := h.onward rfl hcurrent (h.asking f hf).1
  refine { h with
    inTransit := rfl
    cached := ?_
    apart := nofun
    asking := fun f' hf' => h.asking f' (hsub hf')
    reach := ?_ }
  · funext x
    by_cases hx : x = f.origin
    · simp [hx, Token.cachedAt]
    · simp [h.cached, hx, Token.cachedAt]
  · intro g hg
    obtain rfl : f.fetch.replyHost = g := Option.some.inj hg
    refine ⟨hvisited, fun k' hk' x k hk hle => ?_⟩
    obtain ⟨hne, hasked⟩ := honward k' hk' x k hk hle
    refine hasked.imp_right (Or.imp_left fun ⟨f', hf', hk', hx'⟩ => ⟨f', hrest f' hf' ?_, hk', hx'⟩)
    rintro rfl
    exact hne hx'.symm

theorem await (h : p.Follows tok) (hmiss : p.cached f.origin = none) :
    Follows { p with
        pending := update p.pending f.origin
          (some { host := f.fetch.replyHost, port := f.fetch.replyPort })
        fetches } tok := by
  have hled := (h.asking f hf).1
  refine { h with waiting := ?_, apart := ?_, asking := fun f' hf' => h.asking f' (hsub hf'), reach := ?_ }
  · intro hdone x fetch' hx
    by_cases he : x = f.origin
    · obtain rfl : PendingFetch.mk f.fetch.replyHost f.fetch.replyPort = fetch' := by simpa [he] using hx
      exact ⟨f.hop, he ▸ hcurrent, hled⟩
    · exact h.waiting hdone x fetch' ((update_of_ne he ..).symm.trans hx)
  · rintro x resp rfl
    have hne : x ≠ f.origin := by
      rintro rfl
      rw [h.cached, Token.cachedAt_eq_some.mpr rfl] at hmiss
      cases hmiss
    exact ⟨(update_of_ne hne ..).trans (h.apart x resp rfl).1, (h.apart x resp rfl).2⟩
  · intro g hg
    obtain ⟨hvisited, hreach⟩ := h.reach g hg
    refine ⟨hvisited, fun kg hkg x k hk hle => ?_⟩
    by_cases hx : x = f.origin
    · subst hx
      obtain rfl : f.hop = k := Option.some.inj (hcurrent.symm.trans hk)
      exact Or.inr (Or.inr ⟨_, update_self .., hled.1⟩)
    · refine (hreach kg hkg x k hk hle).imp_right (Or.imp ?_ ?_)
      · rintro ⟨f', hf', hk', hx'⟩
        refine ⟨f', hrest f' hf' ?_, hk', hx'⟩
        rintro rfl
        exact hx hx'.symm
      · rintro ⟨fetch', hfetch', hto⟩
        exact ⟨fetch', (update_of_ne hx ..).trans hfetch', hto⟩

end Fetch

theorem depart (h : p.Follows tok) (hhere : p.here = some host) :
    Follows { p with
        here := none
        hop := p.hop + 1
        departed := update p.departed host (some (p.hop + 1)) } tok := by
  have hhome := h.trail.home host hhere
  have hold : ∀ x k, p.departed x = some k →
      k ≤ p.hop ∧ update p.departed host (some (p.hop + 1)) x = some k := by
    intro x k hk
    have hne : x ≠ host := by
      rintro rfl
      rw [hhome] at hk
      cases hk
    exact ⟨h.trail.hops x k hk, (update_of_ne hne ..).trans hk⟩
  refine { h with trail := ?_, waiting := ?_, apart := ?_, asking := ?_, reach := ?_ }
  · exact (hhere ▸ h.trail).depart fun x => update_apply ..
  · intro hdone x fetch hx
    obtain ⟨k, hk, hto, -⟩ := h.waiting hdone x fetch hx
    obtain ⟨hle, hk'⟩ := hold x k hk
    exact ⟨k, hk', hto, fun _ => by simp only; omega⟩
  · intro x resp ht
    obtain ⟨hnone, hleft⟩ := h.apart x resp ht
    obtain ⟨k, hk⟩ := Option.ne_none_iff_exists'.mp hleft
    exact ⟨hnone, by simp only [(hold x k hk).2]; exact Option.some_ne_none k⟩
  · intro f hf
    obtain ⟨⟨hto, -⟩, hle⟩ := h.asking f hf
    exact ⟨⟨hto, fun _ => by simp only; omega⟩, hle.trans (Nat.le_succ _)⟩
  · intro g hg
    obtain ⟨hv, hreach⟩ := h.reach g hg
    refine ⟨Or.inr ?_, fun kg hkg x k hk hle => ?_⟩
    · rcases hv with hv | hv
      · obtain rfl := Option.some.inj (hhere.symm.trans hv)
        simp
      · obtain ⟨k, hk⟩ := Option.ne_none_iff_exists'.mp hv
        simp only [(hold g k hk).2]
        exact Option.some_ne_none k
    · by_cases hx : x = host
      · exact Or.inl ⟨rfl, by simpa [hx] using hk.symm⟩
      · replace hk : p.departed x = some k := (update_of_ne hx ..).symm.trans hk
        have hgne : g ≠ host := by
          rintro rfl
          obtain rfl : p.hop + 1 = kg := by simpa using hkg
          have := h.trail.hops x k hk
          omega
        replace hkg : p.departed g = some kg := (update_of_ne hgne ..).symm.trans hkg
        refine (hreach kg hkg x k hk hle).imp_left fun ⟨hnone, _⟩ => ?_
        rw [hhere] at hnone
        cases hnone

theorem arrive (h : p.Follows tok) (haway : p.here = none)
    (hfetches : ∀ f ∈ fetches, f.hop = p.hop ∧ f.fetch.replyHost = host)
    -- the host the caller comes from is asked by the FETCH of this migration
    (hasked : tok.isDone = false → ∀ x, x ≠ host → p.departed x = some p.hop →
      ∃ f ∈ fetches, f.hop = p.hop ∧ f.origin = x) :
    Follows { p with
        here := some host
        departed := update p.departed host none
        arrived := update p.arrived p.hop host
        inTransit := (tok.takenAt host).inTransit
        cached := update p.cached host none
        pending := update p.pending host none
        fetches := p.fetches ∪ fetches } (tok.takenAt host) := by
  have harrived : ∀ k x, p.Led k x → update p.arrived p.hop host k = x := fun k x hled =>
    (update_of_ne (hled.2 haway) ..).trans hled.1.symm
  have htok : (tok.takenAt host).invocations = tok.invocations ∧
      (tok.takenAt host).completions = tok.completions ∧
      (tok.takenAt host).responses = tok.responses ∧ (tok.takenAt host).host = tok.host ∧
      (tok.takenAt host).cachedAt = update tok.cachedAt host none := by
    rcases tok.takenAt_cases host with ⟨resp, rfl, he⟩ | ⟨he, hnone⟩
    · rw [he]
      refine ⟨rfl, rfl, rfl, rfl, ?_⟩
      funext x
      by_cases hx : x = host
      · simp [hx, Token.cachedAt]
      · simp [hx, Token.cachedAt]
    · rw [he]
      exact ⟨rfl, rfl, rfl, rfl, (hnone ▸ update_eq_self host tok.cachedAt).symm⟩
  obtain ⟨hinvocations, hcompletions, hresponses, hwhere, hcachedAt⟩ := htok
  have hisDone : (tok.takenAt host).isDone = tok.isDone := congrArg Option.isNone hwhere
  refine ⟨?_, h.unanswered.trans hinvocations.symm, rfl, ?_, h.completions.trans hcompletions.symm,
    by rw [hresponses]; exact h.genuine, by rw [hcompletions]; exact h.outcome, ?_, ?_, ?_, ?_, h.dropped⟩
  · exact (haway ▸ h.trail).arrive (fun x => update_apply ..) fun m => update_apply ..
  · rw [hcachedAt, ← h.cached]
  · rw [hisDone]
    intro hdone x fetch hx
    obtain ⟨hne, hx⟩ := of_update_none hx
    obtain ⟨k, hk, hled⟩ := h.waiting hdone x fetch hx
    exact ⟨k, (update_of_ne hne ..).trans hk, (harrived k _ hled).symm, nofun⟩
  · intro x resp ht
    have hin := congrFun hcachedAt x
    have hne : x ≠ host := by
      rintro rfl
      simp [ht, Token.cachedAt] at hin
    rw [ht, update_of_ne hne] at hin
    obtain ⟨hnone, hdeparted⟩ := h.apart x resp (Token.cachedAt_eq_some.mp (hin.symm.trans (if_pos rfl)))
    exact ⟨(update_of_ne hne ..).trans hnone, by simp only [update_of_ne hne]; exact hdeparted⟩
  · rintro f (hf | hf)
    · obtain ⟨hled, hle⟩ := h.asking f hf
      exact ⟨⟨(harrived _ _ hled).symm, nofun⟩, hle⟩
    · obtain ⟨he, hto⟩ := hfetches f hf
      exact ⟨⟨by simp only [he, hto, update_self], nofun⟩, he.le⟩
  · rw [hwhere]
    intro g hg
    obtain ⟨hv, hreach⟩ := h.reach g hg
    refine ⟨?_, fun kg hkg x k hk hle => ?_⟩
    · by_cases hgh : g = host
      · exact Or.inl (congrArg some hgh.symm)
      · refine Or.inr ?_
        simp only [update_of_ne hgh]
        exact hv.resolve_left (by simp [haway])
    obtain ⟨-, hkg⟩ := of_update_none hkg
    obtain ⟨hne, hk⟩ := of_update_none hk
    by_cases hlast : k = p.hop
    · obtain ⟨f, hf, hf1, hf2⟩ := hasked (by simp [Token.isDone, hg]) x hne (hlast ▸ hk)
      exact Or.inr (Or.inl ⟨f, Or.inr hf, hf1.trans hlast.symm, hf2⟩)
    · rcases hreach kg hkg x k hk hle with ⟨-, he⟩ | ⟨f, hf, hrest⟩ | ⟨fetch, hfetch, hto⟩
      · exact absurd he hlast
      · exact Or.inr (Or.inl ⟨f, Or.inl hf, hrest⟩)
      · exact Or.inr (Or.inr ⟨fetch, (update_of_ne hne ..).trans hfetch,
          hto.trans (update_of_ne hlast ..).symm⟩)

end Follows

end Pursuit

namespace CallerSystem

def pursuit (q : Nat) (s : CallerSystem) : Pursuit where
  here := s.phase.here
  hop := s.hop
  departed := s.departed
  arrived := s.arrived
  unanswered := s.unanswered
  inTransit := s.responses.filter fun e => e.2.requestId = q
  cached := fun x => (s.hosts x).cachedResponses[q]?
  pending := fun x => (s.hosts x).pendingFetches[q]?
  fetches := { f | f ∈ s.fetches ∧ f.fetch.requestId = q }
  answers := s.answers
  completions := s.completions
  dropped := s.dropped

structure Holds (owner : RpcAppMsgIds) (q : Nat) (phase : CallerPhase) (departed : String → Option Nat)
    (ctx : RpcContext) (x : String) (reg : RpcContextRegistry RpcContext) : Prop where
  context : reg.contextByKey[owner]? = if phase.here = some x then some ctx else none
  keyed : reg.Keyed
  known : phase.here = some x ∨ departed x ≠ none →
    reg.requests[q]?.map InFlightRequest.owner = some owner

structure Located (owner : RpcAppMsgIds) (q : Nat) (phase : CallerPhase) (hop : Nat)
    (departed : String → Option Nat) (hosts : String → RpcContextRegistry RpcContext) (ctx : RpcContext)
    (op : RpcOp) : Prop where
  named : ∀ x, phase.here = some x → x ≠ ""
  hosts : ∀ x, Holds owner q phase departed ctx x (hosts x)
  packed : ∀ state, phase = .moving state → ∃ now origin, state = ctx.serializeMigrationState now origin ∧
    origin ≠ "" ∧ RpcContext.Kept op ∧ ∀ x, departed x = some hop → x = origin
  sound : ctx.Sound
  own : ctx.owner = owner
  holds : ctx.ops[q]? = some op

structure Pursued (owner : RpcAppMsgIds) (q : Nat) (s : CallerSystem) (ctx : RpcContext) (op : RpcOp)
    (tok : Token) : Prop extends Located owner q s.phase s.hop s.departed s.hosts ctx op where
  follows : (s.pursuit q).Follows tok
  ready : op.ready = tok.isDone
  response : ∀ resp, tok = .done resp → op.response = resp ∧ resp.requestId = q

variable {owner : RpcAppMsgIds} {q : Nat} {s : CallerSystem} {ctx ctx' : RpcContext} {op op' : RpcOp}
  {tok : Token} {host : String} {resp : RpcResponse} {reg : RpcContextRegistry RpcContext}

section Hosts

variable {phase : CallerPhase} {hop : Nat} {departed : String → Option Nat}
  {hosts : String → RpcContextRegistry RpcContext}

theorem Located.here_of_context (h : Located owner q phase hop departed hosts ctx op)
    (hc : (hosts host).contextByKey[owner]? = some ctx') : phase.here = some host ∧ ctx' = ctx := by
  rw [(h.hosts host).context] at hc
  split_ifs at hc with hhere
  exact ⟨hhere, (Option.some.inj hc).symm⟩

theorem Located.handle (h : Located owner q phase hop departed hosts ctx op)
    (hcontext : reg.contextByKey[owner]? = (hosts host).contextByKey[owner]?) (hkeyed : reg.Keyed)
    (hrequest : reg.requests[q]? = (hosts host).requests[q]?) :
    Located owner q phase hop departed (update hosts host reg) ctx op :=
  { h with
    hosts := (forall_update_iff hosts _).mpr
      ⟨⟨hcontext.trans (h.hosts host).context, hkeyed, fun hx => hrequest ▸ (h.hosts host).known hx⟩,
        fun x _ => h.hosts x⟩ }

theorem Located.register (h : Located owner q phase hop departed hosts ctx op)
    (hhere : phase.here = some host) (hsame : RpcContextRegistry.SameFor q (hosts host) reg)
    (hkeyed : reg.Keyed) (hsound : ctx'.Sound) (hown : ctx'.owner = owner) (hop' : ctx'.ops[q]? = some op') :
    Located owner q phase hop departed (update hosts host (reg.registerContext owner ctx')) ctx' op' := by
  refine { h with hosts := ?_, packed := ?_, sound := hsound, own := hown, holds := hop' }
  · refine (forall_update_iff hosts _).mpr ⟨⟨?_, hkeyed, fun hx => ?_⟩, fun x hx => ?_⟩
    · simp [registerContext, hhere]
    · exact hsame.request ▸ (h.hosts host).known hx
    · have haway : ¬phase.here = some x := by
        rw [hhere]
        exact fun he => hx (Option.some.inj he).symm
      refine { h.hosts x with context := ?_ }
      rw [(h.hosts x).context, if_neg haway, if_neg haway]
  · rintro state rfl
    cases hhere

end Hosts

theorem cached_update : (fun x => (update s.hosts host reg x).cachedResponses[q]?) =
    update (fun x => (s.hosts x).cachedResponses[q]?) host reg.cachedResponses[q]? :=
  funext fun x => apply_update (fun _ r => r.cachedResponses[q]?) s.hosts host reg x

theorem pending_update : (fun x => (update s.hosts host reg x).pendingFetches[q]?) =
    update (fun x => (s.hosts x).pendingFetches[q]?) host reg.pendingFetches[q]? :=
  funext fun x => apply_update (fun _ r => r.pendingFetches[q]?) s.hosts host reg x

variable {responses : List (String × RpcResponse)}

theorem pursuit_same (hsame : RpcContextRegistry.SameFor q (s.hosts host) reg) {fetches : List CallerFetch}
    (hresponses : responses.filter (fun e => e.2.requestId = q) =
      s.responses.filter (fun e => e.2.requestId = q))
    (hfetches : ∀ f : CallerFetch, f.fetch.requestId = q → (f ∈ fetches ↔ f ∈ s.fetches)) :
    pursuit q { s with hosts := update s.hosts host reg, responses, fetches } = s.pursuit q := by
  have hset : { f | f ∈ fetches ∧ f.fetch.requestId = q } = { f | f ∈ s.fetches ∧ f.fetch.requestId = q } :=
    Set.ext fun f => and_congr_left (hfetches f)
  simp only [pursuit, cached_update, pending_update, hsame.cached, hsame.fetch, hresponses, hset,
    update_eq_self]

variable {i : Nat}

theorem Pursued.recvResponse_other (h : Pursued owner q s ctx op tok)
    (hi : s.responses[i]? = some (host, resp)) (hne : resp.requestId ≠ q) (now : Int) (env : RpcEnv) :
    ∃ ctx', Pursued owner q (s.receiveResponse q i now env host resp) ctx' op tok := by
  obtain ⟨hsame, hctx, hkeyed, hdeliver⟩ := (s.hosts host).routeResponse_other now hne
  have hk := hkeyed (h.hosts host).keyed
  have hrest : (s.responses.eraseIdx i).filter (fun e => e.2.requestId = q) =
      s.responses.filter (fun e => e.2.requestId = q) :=
    Transit.filter_eraseIdx_of_not hi (by simpa using hne)
  unfold receiveResponse
  rcases hroute : (s.hosts host).routeResponse now resp.requestId resp with ⟨route, reg⟩
  rw [hroute] at hsame hctx hk hdeliver
  dsimp only at hsame hctx hk hdeliver
  have hlocated := h.toLocated.handle (congrArg (·[owner]?) hctx) hk hsame.request
  cases route with
  | deliver o c =>
    have hcall := Delivery.receive_other env host
      { unanswered := s.unanswered, completions := s.completions, ctx := c } hne
    dsimp only
    generalize Delivery.receive q env host
      { unanswered := s.unanswered, completions := s.completions, ctx := c } resp = d at hcall
    rw [hcall.unanswered, hcall.completions]
    have hsame' : RpcContextRegistry.SameFor q (s.hosts host) (reg.registerContext o d.ctx) :=
      hsame.trans ⟨rfl, rfl, rfl⟩
    have hfollows := pursuit_same hsame' hrest (fun f _ => Iff.rfl) ▸ h.follows
    by_cases ho : o = owner
    · subst ho
      obtain ⟨hhere, rfl⟩ := h.here_of_context (hdeliver o c rfl)
      exact ⟨d.ctx, h.register hhere hsame hk (hcall.sound h.sound) (hcall.owner.trans h.own)
        (hcall.op.trans h.holds), hfollows, h.ready, h.response⟩
    · refine ⟨ctx, h.toLocated.handle ?_ hk hsame'.request, hfollows, h.ready, h.response⟩
      simp [registerContext, ho, hctx]
  | forward fetch =>
    have hrest' : (s.responses.eraseIdx i ++ [(fetch.host, resp)]).filter (fun e => e.2.requestId = q) =
        s.responses.filter (fun e => e.2.requestId = q) := by simp [hrest, hne]
    exact ⟨ctx, hlocated, pursuit_same hsame hrest' (fun f _ => Iff.rfl) ▸ h.follows, h.ready, h.response⟩
  | cached => exact ⟨ctx, hlocated, pursuit_same hsame hrest (fun f _ => Iff.rfl) ▸ h.follows, h.ready, h.response⟩
  | drop =>
    simp only [if_neg hne]
    exact ⟨ctx, hlocated, pursuit_same hsame hrest (fun f _ => Iff.rfl) ▸ h.follows, h.ready, h.response⟩

theorem Pursued.deliver (h : Pursued owner q s ctx op (.transit host resp)) (hhere : s.phase.here = some host)
    {d : Delivery}
    (hp : Delivery.Progress q host resp { unanswered := s.unanswered, completions := s.completions, ctx } d)
    (hsame : RpcContextRegistry.SameFor q (s.hosts host) reg) (hkeyed : reg.Keyed)
    (hrest : responses.filter (fun e => e.2.requestId = q) = []) :
    ∃ ctx' op' tok', Pursued owner q
      { s with
        hosts := update s.hosts host (reg.registerContext owner d.ctx)
        responses
        unanswered := d.unanswered
        completions := d.completions } ctx' op' tok' := by
  obtain ⟨op', hop', hout⟩ := hp.outcome op h.holds
  have hlocated := h.register hhere hsame hkeyed (hp.sound h.sound) (hp.owner.trans h.own) hop'
  have hunanswered : s.unanswered = [] := h.follows.unanswered
  have hcompletions : s.completions = [] := h.follows.completions
  rcases hout with ⟨hu, hc, hready⟩ | ⟨hu, hc, hready, hid, hresp⟩
  · refine ⟨d.ctx, op', .invoked host, hlocated, ?_, hready.trans h.ready, nofun⟩
    convert h.follows.retry using 1
    simp [pursuit, cached_update, pending_update, registerContext, hsame.cached,
      hsame.fetch, hrest, hu, hc, hunanswered]
  · refine ⟨d.ctx, op', .done op'.response, hlocated, ?_, hready, fun r hr => ?_⟩
    · convert h.follows.complete hresp using 1
      simp [pursuit, cached_update, pending_update, registerContext, hsame.cached,
        hsame.fetch, hrest, hu, hc, hcompletions]
    · obtain rfl := Token.done.inj hr
      exact ⟨rfl, hid⟩

theorem Pursued.transit_of (h : Pursued owner q s ctx op tok) (hi : s.responses[i]? = some (host, resp))
    (hid : resp.requestId = q) :
    tok = .transit host resp ∧ (s.responses.eraseIdx i).filter (fun e => e.2.requestId = q) = [] := by
  have hmem : (host, resp) ∈ s.responses.filter (fun e => e.2.requestId = q) :=
    List.mem_filter.mpr ⟨List.mem_of_getElem? hi, by simpa using hid⟩
  have hfilter : s.responses.filter (fun e => e.2.requestId = q) = tok.inTransit := h.follows.inTransit
  cases tok with
  | transit g r =>
    obtain ⟨he, hnil⟩ := Transit.filter_eraseIdx_of_single hi (by simpa using hid) hfilter
    obtain ⟨rfl, rfl⟩ := Prod.mk.inj he
    exact ⟨rfl, hnil⟩
  | _ =>
    rw [hfilter] at hmem
    cases hmem

theorem Pursued.recvResponse_own (h : Pursued owner q s ctx op tok) (hi : s.responses[i]? = some (host, resp))
    (hid : resp.requestId = q) {now : Int} (hlive : ∀ r ∈ (s.hosts host).requests[q]?, now < r.expiresAt)
    (env : RpcEnv) :
    ∃ ctx' op' tok', Pursued owner q (s.receiveResponse q i now env host resp) ctx' op' tok' := by
  obtain ⟨rfl, hrest⟩ := h.transit_of hi hid
  subst hid
  obtain ⟨r, hr, hro⟩ := Option.map_eq_some_iff.mp ((h.hosts host).known (h.follows.reach host rfl).1)
  have hunexpired : (s.hosts host).Unexpired now resp.requestId := ⟨r, hr, hlive r hr⟩
  unfold receiveResponse
  rcases routeResponse_cases hunexpired resp with
    ⟨r', c, hr', hc, hroute⟩ | ⟨r', fetch, hr', hnone, hfetch, hroute⟩ | ⟨r', hr', hnone, hnofetch, hroute⟩ <;>
    obtain rfl : r = r' := Option.some.inj (hr.symm.trans hr')
  · rw [hro] at hc hroute
    obtain ⟨hhere, rfl⟩ := h.here_of_context hc
    rw [hroute]
    exact h.deliver hhere (Delivery.receive_own env host _ rfl) (.refl _ _) (h.hosts host).keyed hrest
  · rw [hroute]
    refine ⟨ctx, op, .transit fetch.host resp, h.toLocated.handle rfl (h.hosts host).keyed rfl, ?_, h.ready, nofun⟩
    convert h.follows.forward hfetch using 1
    simp [pursuit, cached_update, pending_update, hrest]
  · rw [hroute]
    have haway : s.phase.here ≠ some host := by
      intro hhere
      rw [hro, (h.hosts host).context, if_pos hhere] at hnone
      cases hnone
    have hkeyed : RpcContextRegistry.Keyed { s.hosts host with
        cachedResponses := (s.hosts host).cachedResponses.insert resp.requestId resp } := by
      intro p r' hp
      by_cases he : resp.requestId = p
      · simp only [he, getElem?_insert_ite, if_true, Option.some.injEq] at hp
        rw [← hp, he]
      · exact (h.hosts host).keyed p r' (by simpa [he] using hp)
    refine ⟨ctx, op, .cached host resp, h.toLocated.handle rfl hkeyed rfl, ?_, h.ready, nofun⟩
    convert h.follows.cache haway hnofetch using 1
    simp [pursuit, cached_update, pending_update, hrest]

theorem Pursued.recvFetch_other (h : Pursued owner q s ctx op tok) {f : CallerFetch}
    (hi : s.fetches[i]? = some f) (hne : f.fetch.requestId ≠ q) (now : Int) :
    Pursued owner q (s.receiveFetch i now f) ctx op tok := by
  obtain ⟨hsame, hctx, hkeyed, hsent⟩ := (s.hosts f.origin).recvFetch_other now hne (h.hosts f.origin).keyed
  refine ⟨h.toLocated.handle (congrArg (·[owner]?) hctx) hkeyed hsame.request, ?_, h.ready, h.response⟩
  convert h.follows using 1
  refine pursuit_same hsame (by simpa using hsent) fun f' hq' => ⟨List.mem_of_mem_eraseIdx, fun hf' => ?_⟩
  refine Transit.mem_eraseIdx_of_ne hi hf' ?_
  rintro rfl
  exact hne hq'

/-- A host handles a FETCH for the request. Unless the request is completed, the caller has
not been back since it sent the FETCH. -/
theorem Pursued.recvFetch_own (h : Pursued owner q s ctx op tok) {f : CallerFetch}
    (hi : s.fetches[i]? = some f) (hq : f.fetch.requestId = q) {now : Int}
    (hlive : ∀ r ∈ (s.hosts f.origin).requests[q]?, now < r.expiresAt)
    (hcurrent : s.completions ≠ [] ∨ s.departed f.origin = some f.hop) :
    ∃ tok', Pursued owner q (s.receiveFetch i now f) ctx op tok' := by
  subst hq
  let fetches : Set CallerFetch :=
    { f' | f' ∈ s.fetches.eraseIdx i ∧ f'.fetch.requestId = f.fetch.requestId }
  have hf : f ∈ (s.pursuit f.fetch.requestId).fetches := ⟨List.mem_of_getElem? hi, rfl⟩
  have hsub : fetches ⊆ (s.pursuit f.fetch.requestId).fetches := fun f' hf' =>
    ⟨List.mem_of_mem_eraseIdx hf'.1, hf'.2⟩
  have hrest : ∀ f' ∈ (s.pursuit f.fetch.requestId).fetches, f' ≠ f → f' ∈ fetches := fun f' hf' hne =>
    ⟨Transit.mem_eraseIdx_of_ne hi hf'.1 hne, hf'.2⟩
  have hleft : tok.isDone = false → s.departed f.origin = some f.hop := by
    refine fun hdone => hcurrent.resolve_left (not_not.mpr (h.follows.completions.trans ?_))
    cases tok with
    | done resp => cases hdone
    | _ => rfl
  cases hr : (s.hosts f.origin).requests[f.fetch.requestId]? with
  | none =>
    have hrecv : (s.hosts f.origin).recvFetch now f.fetch = (none, s.hosts f.origin) :=
      recvFetch_unknown hr
    cases tok with
    | done resp =>
      refine ⟨.done resp, by simpa [receiveFetch, hrecv] using h.toLocated, ?_, h.ready, h.response⟩
      convert h.follows.settled hsub (s.pursuit f.fetch.requestId).pending using 1
      simp [pursuit, receiveFetch, hrecv, fetches]
    | _ =>
      have hknown := (h.hosts f.origin).known (Or.inr (by rw [hleft rfl]; exact Option.some_ne_none _))
      rw [hr] at hknown
      cases hknown
  | some r =>
    have hunexpired : (s.hosts f.origin).Unexpired now f.fetch.requestId := ⟨r, hr, hlive r hr⟩
    cases hc : (s.hosts f.origin).cachedResponses[f.fetch.requestId]? with
    | some resp =>
      have hrecv := recvFetch_hit hunexpired hc
      have hat : (s.pursuit f.fetch.requestId).cached f.origin = some resp := hc
      obtain rfl : tok = .cached f.origin resp := by rwa [h.follows.cached, Token.cachedAt_eq_some] at hat
      have hkeyed : RpcContextRegistry.Keyed { s.hosts f.origin with
          cachedResponses := (s.hosts f.origin).cachedResponses.erase f.fetch.requestId } := by
        intro p r' hp
        by_cases he : f.fetch.requestId = p
        · simp [he] at hp
        · exact (h.hosts f.origin).keyed p r' (by simpa [he] using hp)
      refine ⟨.transit f.fetch.replyHost resp, ?_, ?_, h.ready, nofun⟩
      · simp only [receiveFetch, hrecv]
        exact h.toLocated.handle rfl hkeyed rfl
      · convert h.follows.fetch hf (hleft rfl) hsub hrest using 1
        have hnil : s.responses.filter (fun e => e.2.requestId = f.fetch.requestId) = [] := h.follows.inTransit
        simp [pursuit, receiveFetch, hrecv, cached_update, pending_update, fetches, hnil,
          (h.hosts f.origin).keyed _ _ hc]
    | none =>
      have hrecv := recvFetch_miss hunexpired hc
      refine ⟨tok, ?_, ?_, h.ready, h.response⟩
      · simp only [receiveFetch, hrecv]
        exact h.toLocated.handle rfl (h.hosts f.origin).keyed rfl
      · cases hdone : tok.isDone with
        | true =>
          obtain ⟨resp, rfl⟩ : ∃ resp, tok = .done resp := by
            cases tok with
            | done resp => exact ⟨resp, rfl⟩
            | _ => cases hdone
          convert h.follows.settled hsub _ using 1
          simp [pursuit, receiveFetch, hrecv, cached_update, pending_update, fetches]
          rfl
        | false =>
          convert h.follows.await hf (hleft hdone) hsub hrest hc using 1
          simp [pursuit, receiveFetch, hrecv, cached_update, pending_update, fetches]

theorem Pursued.serialize (h : Pursued owner q s ctx op tok) (hphase : s.phase = .running host)
    (hkept : RpcContext.Kept op) (now : Int) :
    Pursued owner q
      { s with
        hosts := update s.hosts host (ctx.setupForwarding now (s.hosts host))
        phase := .moving (ctx.serializeMigrationState now host)
        hop := s.hop + 1
        departed := update s.departed host (some (s.hop + 1)) } ctx op tok := by
  obtain ⟨hctx, hcached, hpending, hrequests⟩ := ctx.setupForwarding_frame now (s.hosts host)
  have hhere : s.phase.here = some host := by rw [hphase]; rfl
  refine ⟨⟨nofun, fun x => ?_, fun state hstate => ?_, h.sound, h.own, h.holds⟩, ?_, h.ready, h.response⟩
  · by_cases hx : x = host
    · subst hx
      simp only [update_self]
      refine ⟨by simp [hctx, h.own, here], fun p resp hp => ?_, fun _ => ?_⟩
      · rw [hcached] at hp
        exact (h.hosts x).keyed p resp hp
      · rw [hrequests]
        exact (h.hosts x).known (Or.inl hhere)
    · have haway : ¬s.phase.here = some x := by
        rw [hhere]
        exact fun he => hx (Option.some.inj he).symm
      simp only [update_of_ne hx]
      refine ⟨(h.hosts x).context.trans (if_neg haway), (h.hosts x).keyed, fun hleft => ?_⟩
      exact (h.hosts x).known (Or.inr (by simpa [hx, here] using hleft))
  · obtain rfl := moving.inj hstate
    refine ⟨now, host, rfl, h.named host hhere, hkept, fun x hx => ?_⟩
    by_contra hne
    have hle : s.hop + 1 ≤ s.hop := h.follows.trail.hops x _ ((update_of_ne hne ..).symm.trans hx)
    omega
  · convert h.follows.depart hhere using 1
    simp [pursuit, cached_update, pending_update, hcached, hpending, here]

variable {state : RpcMigrationState}

theorem of_mem_fetchesOf {hop : Nat} {f : CallerFetch} (hf : f ∈ fetchesOf state hop host) :
    f.hop = hop ∧ f.fetch.replyHost = host := by
  unfold fetchesOf at hf
  split_ifs at hf
  · cases hf
  · obtain ⟨pending, -, rfl⟩ := List.mem_map.mp hf
    exact ⟨rfl, rfl⟩

theorem fetch_mem_fetchesOf (hm : ctx.Matched) (hop : ctx.ops[q]? = some op) (hr : op.ready = false)
    (now : Int) {origin : String} (hnamed : origin ≠ "") (hne : origin ≠ host) (n : Nat) :
    ∃ f ∈ fetchesOf (ctx.serializeMigrationState now origin) n host,
      f.hop = n ∧ f.origin = origin ∧ f.fetch.requestId = q := by
  have hpending := pendingRequestOf_mem now origin hm hop
  have hstatus : (ctx.pendingRequestOf now q op.channelId).cachedStatusCode = kNoCachedRespStatus := by
    simp [pendingRequestOf, hop, hr]
  have hid : (ctx.pendingRequestOf now q op.channelId).requestId = q := by
    simp [pendingRequestOf, hop]
  have horigin : (ctx.serializeMigrationState now origin).originHost = origin := rfl
  unfold fetchesOf
  rw [if_neg (by rw [horigin]; simp [hnamed, hne])]
  exact ⟨_, List.mem_map_of_mem (List.mem_filter.mpr ⟨hpending, by simp [hstatus]⟩), rfl, rfl, hid⟩

theorem carriedOp_ready (hk : RpcContext.Kept op) (now now' : Int) (q : Nat) :
    (carriedOp now now' q op).ready = op.ready := by
  cases hr : op.ready with
  | false => simp [carriedOp, hr]
  | true => simp [carriedOp, hr, (hk hr).1]

theorem carriedOp_response (hk : RpcContext.Kept op) (hr : op.ready = true)
    (hid : op.response.requestId = q) (now now' : Int) :
    (carriedOp now now' q op).response = op.response := by
  obtain ⟨hstatus, hmessage⟩ := hk hr
  simp only [carriedOp, hr, Bool.true_and, hstatus, ne_eq, not_false_eq_true, decide_true, if_true]
  rw [← hid, ← hmessage]

def arriving (s : CallerSystem) (host : String) (state : RpcMigrationState) (tok : Token)
    (reg : RpcContextRegistry RpcContext) : CallerSystem :=
  { s with
    hosts := update s.hosts host reg
    phase := .running host
    responses := s.responses ++ (tok.cachedAt host).toList.map fun resp => (host, resp)
    fetches := s.fetches ++ fetchesOf state s.hop host
    departed := update s.departed host none
    arrived := update s.arrived s.hop host }

theorem Pursued.arriving_inTransit (h : Pursued owner q s ctx op tok) (host : String) :
    (s.responses ++ (tok.cachedAt host).toList.map fun resp => (host, resp)).filter
      (fun e => e.2.requestId = q) = (tok.takenAt host).inTransit := by
  have hold : s.responses.filter (fun e => e.2.requestId = q) = tok.inTransit := h.follows.inTransit
  have hcached : (s.hosts host).cachedResponses[q]? = tok.cachedAt host := congrFun h.follows.cached host
  rcases tok.takenAt_cases host with ⟨resp, rfl, he⟩ | ⟨he, hnone⟩
  · have hid := (h.hosts host).keyed q resp (hcached.trans (Token.cachedAt_eq_some.mpr rfl))
    simp [he, hold, Token.cachedAt, Token.inTransit, hid]
  · simp [he, hnone, hold]

theorem Pursued.arriving (h : Pursued owner q s ctx op tok) (hphase : s.phase = .moving state) {env : RpcEnv}
    {now : Int} (hok : deserializeMigrationState env now state (new owner) = .ok ctx')
    (hhost : host ≠ "") {ids : List Nat} {taken : List RpcResponse}
    (htaken : RpcContextRegistry.TakenOver owner ids ((s.hosts host).registerContext owner ctx') reg taken)
    (hq : q ∈ ids) (hkeyed : reg.Keyed) :
    ∃ op', Pursued owner q (s.arriving host state tok reg) ctx' op' (tok.takenAt host) := by
  obtain ⟨past, origin, rfl, hnamed, hkept, honly⟩ := h.packed state hphase
  have haway : s.phase.here = none := by rw [hphase]; rfl
  have hfrom := restored_of_ok h.sound.matched hok
  have hready := carriedOp_ready hkept past now q
  obtain ⟨r, hr, hro⟩ := htaken.owned q hq
  have htok : (tok.takenAt host).isDone = tok.isDone ∧
      ∀ resp, tok.takenAt host = .done resp → tok = .done resp := by
    rcases tok.takenAt_cases host with ⟨resp, rfl, he⟩ | ⟨he, -⟩
    · rw [he]
      exact ⟨rfl, nofun⟩
    · rw [he]
      exact ⟨rfl, fun _ => id⟩
  refine ⟨carriedOp past now q op,
    ⟨?_, ?_, nofun, hfrom.sound h.sound, hfrom.owner, by rw [hfrom.ops, h.holds]; rfl⟩, ?_,
    by rw [hready, h.ready, htok.1], ?_⟩
  · intro x hx
    exact Option.some.inj hx ▸ hhost
  · refine (forall_update_iff s.hosts _).mpr ⟨⟨?_, hkeyed, fun _ => ?_⟩, fun x hx => ?_⟩
    · rw [htaken.contexts]
      simp [registerContext, CallerSystem.arriving, here]
    · rw [hr]
      exact congrArg some hro
    · have hne : ¬(running host).here = some x := fun he => hx (Option.some.inj he).symm
      refine ⟨?_, (h.hosts x).keyed, fun hleft => ?_⟩
      · exact (h.hosts x).context.trans ((if_neg (by simp [haway])).trans (if_neg hne).symm)
      · exact (h.hosts x).known (Or.inr (by simpa [CallerSystem.arriving, hne, hx] using hleft))
  · have hfetches : ∀ f ∈ { f | f ∈ fetchesOf (ctx.serializeMigrationState past origin) s.hop host ∧
        f.fetch.requestId = q }, f.hop = s.hop ∧ f.fetch.replyHost = host := fun f hf => of_mem_fetchesOf hf.1
    convert h.follows.arrive haway hfetches ?_ using 1
    · have hset : { f | f ∈ s.fetches ++ fetchesOf (ctx.serializeMigrationState past origin) s.hop host ∧
          f.fetch.requestId = q } = (s.pursuit q).fetches ∪
            { f | f ∈ fetchesOf (ctx.serializeMigrationState past origin) s.hop host ∧ f.fetch.requestId = q } := by
        ext f
        simp [pursuit, or_and_right]
      simp only [pursuit, CallerSystem.arriving, cached_update, pending_update, h.arriving_inTransit,
        htaken.cached, htaken.fetches, if_pos hq, here, hset]
    · intro hdone x hne hx
      obtain rfl := honly x hx
      obtain ⟨f, hf, hf1, hf2, hf3⟩ := fetch_mem_fetchesOf h.sound.matched h.holds
        (h.ready.trans hdone) past hnamed hne s.hop
      exact ⟨f, ⟨hf, hf3⟩, hf1, hf2⟩
  · intro resp hdone
    obtain rfl := htok.2 resp hdone
    obtain ⟨rfl, hid⟩ := h.response resp rfl
    exact ⟨carriedOp_response hkept h.ready hid past now, hid⟩

theorem Pursued.restore (h : Pursued owner q s ctx op tok) (hphase : s.phase = .moving state) {env : RpcEnv}
    {now : Int} (hok : deserializeMigrationState env now state (new owner) = .ok ctx')
    (hhost : host ≠ "") :
    ∃ ctx'' op' tok', Pursued owner q (s.arriveAt owner q host now env state ctx') ctx'' op' tok' := by
  have hq : q ∈ state.pendingRequests.map RpcPendingRequest.requestId := by
    obtain ⟨past, origin, rfl, -⟩ := h.packed state hphase
    refine List.mem_map.mpr ⟨_, pendingRequestOf_mem past origin h.sound.matched h.holds, ?_⟩
    simp [pendingRequestOf, h.holds]
  have htaken := registerRestoredContext_takenOver (s.hosts host) now owner ctx' state
  unfold arriveAt
  rcases hreg : (s.hosts host).registerRestoredContext now owner ctx' state with ⟨taken, reg⟩
  rw [hreg] at htaken
  dsimp only at htaken ⊢
  have hfilter : taken.filter (fun resp => resp.requestId = q) = (tok.cachedAt host).toList := by
    rw [htaken.taken (h.hosts host).keyed q, if_pos hq, ← h.follows.cached]
    rfl
  have hkeyed : reg.Keyed := by
    intro p resp hp
    rw [htaken.cached] at hp
    split_ifs at hp
    exact (h.hosts host).keyed p resp hp
  -- first the caller comes, with the response on its way to it, then the response is delivered
  obtain ⟨op', harrived⟩ := h.arriving hphase hok hhost htaken hq hkeyed
  have hat : (s.arriving host state tok reg).hosts host = reg := update_self ..
  have hsame : RpcContextRegistry.SameFor q ((s.arriving host state tok reg).hosts host) reg :=
    hat.symm ▸ .refl q reg
  have hupdate : ∀ c : RpcContext, update s.hosts host (reg.registerContext owner c) =
      update (s.arriving host state tok reg).hosts host (reg.registerContext owner c) := fun c =>
    (update_idem ..).symm
  rw [hupdate]
  rcases tok.takenAt_cases host with ⟨resp, rfl, he⟩ | ⟨he, hnone⟩
  · rw [he] at harrived
    have hp := Delivery.receiveAll_own env host
      { unanswered := s.unanswered, completions := s.completions, ctx := ctx' }
      (hfilter.trans (congrArg Option.toList (Token.cachedAt_eq_some.mpr rfl)))
    exact harrived.deliver rfl hp hsame hkeyed h.follows.inTransit
  · rw [he] at harrived
    rw [hnone, Option.toList_none, List.filter_eq_nil_iff] at hfilter
    have hcall := Delivery.receiveAll_other env host
      { unanswered := s.unanswered, completions := s.completions, ctx := ctx' }
      (fun resp hmem => by simpa using hfilter resp hmem)
    generalize taken.foldl (Delivery.receive q env host)
      { unanswered := s.unanswered, completions := s.completions, ctx := ctx' } = d at hcall
    rw [hcall.unanswered, hcall.completions]
    have hresponses : s.responses.filter (fun e => e.2.requestId = q) =
        (s.arriving host state tok reg).responses.filter (fun e => e.2.requestId = q) := by
      simp [CallerSystem.arriving, hnone]
    have hfollows := harrived.follows
    have hsame' : RpcContextRegistry.SameFor q _ (reg.registerContext owner d.ctx) := hsame.trans ⟨rfl, rfl, rfl⟩
    rw [← pursuit_same hsame' hresponses fun f _ => Iff.rfl] at hfollows
    exact ⟨d.ctx, op', tok, harrived.register rfl hsame hkeyed (hcall.sound harrived.sound)
      (hcall.owner.trans harrived.own) (hcall.op.trans harrived.holds), hfollows, harrived.ready,
      harrived.response⟩

end CallerSystem

/-- No request expires; a FETCH is handled before the caller has been back on the host, unless
the request is completed; the caller does not migrate with a completed request that its
migration state cannot hold. -/
def KeepsFetches (owner : RpcAppMsgIds) (q : Nat) (s : CallerSystem) : CallerAction → Prop
  | .recvResponse i now _ => ∀ e ∈ s.responses[i]?, e.2.requestId = q →
      ∀ r ∈ (s.hosts e.1).requests[q]?, now < r.expiresAt
  | .recvFetch i now => ∀ f ∈ s.fetches[i]?, f.fetch.requestId = q →
      (∀ r ∈ (s.hosts f.origin).requests[q]?, now < r.expiresAt) ∧
        (s.completions ≠ [] ∨ s.departed f.origin = some f.hop)
  | .serializeMigrationState _ =>
      ∀ host ∈ s.phase.here, ∀ ctx ∈ (s.hosts host).contextByKey[owner]?, ∀ op ∈ ctx.ops[q]?,
        RpcContext.Kept op
  | _ => True

instance (owner : RpcAppMsgIds) (q : Nat) (s : CallerSystem) (action : CallerAction) :
    Decidable (KeepsFetches owner q s action) := by
  cases action <;> unfold KeepsFetches <;> infer_instance

namespace CallerSystem

variable {owner : RpcAppMsgIds} {q : Nat} {s : CallerSystem} {ctx : RpcContext} {op : RpcOp} {tok : Token}

theorem pursued_step (s : CallerSystem) (action : CallerAction)
    (h : ∃ ctx op tok, Pursued owner q s ctx op tok) (hok : KeepsFetches owner q s action) :
    ∃ ctx op tok, Pursued owner q (action.step owner q s) ctx op tok := by
  obtain ⟨ctx, op, tok, hf⟩ := h
  cases action with
  | answer i statusCode payload errorMessage =>
    simp only [step]
    cases hi : s.unanswered[i]? with
    | none => exact ⟨ctx, op, tok, hf⟩
    | some host =>
      have hunanswered : s.unanswered = tok.invocations := hf.follows.unanswered
      rw [hunanswered] at hi
      obtain ⟨rfl, rfl⟩ : tok = .invoked host ∧ i = 0 := by
        cases tok with
        | invoked g =>
          cases i with
          | zero => exact ⟨congrArg Token.invoked (Option.some.inj hi), rfl⟩
          | succ i => simp [Token.invocations] at hi
        | _ => simp [Token.invocations] at hi
      have hnil : s.responses.filter (fun e => e.2.requestId = q) = [] := hf.follows.inTransit
      refine ⟨ctx, op, .transit host { requestId := q, statusCode, payload, errorMessage }, hf.toLocated, ?_,
        hf.ready, nofun⟩
      convert hf.follows.answer using 1
      simp [pursuit, hunanswered, Token.invocations, hnil]
  | answerOther host resp =>
    simp only [step]
    split_ifs with hid
    · exact ⟨ctx, op, tok, hf⟩
    · refine ⟨ctx, op, tok, hf.toLocated, ?_, hf.ready, hf.response⟩
      convert hf.follows using 1
      simp [pursuit, hid]
  | recvResponse i now env =>
    simp only [step]
    cases hi : s.responses[i]? with
    | none => exact ⟨ctx, op, tok, hf⟩
    | some e =>
      obtain ⟨host, resp⟩ := e
      by_cases hid : resp.requestId = q
      · exact hf.recvResponse_own hi hid (hok _ hi hid) env
      · obtain ⟨ctx', hf'⟩ := hf.recvResponse_other hi hid now env
        exact ⟨ctx', op, tok, hf'⟩
  | recvFetch i now =>
    simp only [step]
    cases hi : s.fetches[i]? with
    | none => exact ⟨ctx, op, tok, hf⟩
    | some f =>
      by_cases hid : f.fetch.requestId = q
      · obtain ⟨hlive, hcurrent⟩ := hok f hi hid
        obtain ⟨tok', hf'⟩ := hf.recvFetch_own hi hid hlive hcurrent
        exact ⟨ctx, op, tok', hf'⟩
      · exact ⟨ctx, op, tok, hf.recvFetch_other hi hid now⟩
  | serializeMigrationState now =>
    simp only [step]
    cases hphase : s.phase with
    | moving state => exact ⟨ctx, op, tok, hf⟩
    | running host =>
      have hhere : s.phase.here = some host := by rw [hphase]; rfl
      have hctx : (s.hosts host).contextByKey[owner]? = some ctx := by
        rw [(hf.hosts host).context, if_pos hhere]
      simp only [hctx]
      exact ⟨ctx, op, tok, hf.serialize hphase (hok host hhere ctx hctx op hf.holds) now⟩
  | restore host now env =>
    simp only [step]
    cases hphase : s.phase with
    | running x => exact ⟨ctx, op, tok, hf⟩
    | moving state =>
      dsimp only
      cases hd : deserializeMigrationState env now state (new owner) with
      | error e => exact ⟨ctx, op, tok, hf⟩
      | ok ctx' =>
        dsimp only
        split_ifs with hhost
        · exact ⟨ctx, op, tok, hf⟩
        · exact hf.restore hphase hd hhost

theorem pursued_start {home : String} (now ttl : Int) (hsound : ctx.Sound) (hown : ctx.owner = owner)
    (hop : ctx.ops[q]? = some op) (hready : op.ready = false) (hhome : home ≠ "") :
    Pursued owner q (start owner q home ctx now ttl) ctx op (.invoked home) := by
  refine ⟨⟨fun x hx => Option.some.inj hx ▸ hhome, ?_, nofun, hsound, hown, hop⟩, ?_, hready, nofun⟩
  · refine (forall_update_iff _ _).mpr ⟨⟨?_, ?_, fun _ => ?_⟩, fun x hx => ⟨?_, ?_, fun hleft => ?_⟩⟩
    · simp [registerInFlightRequest, registerContext, start,
        here]
    · intro p resp hp
      simp [registerInFlightRequest, registerContext] at hp
    · simp [registerInFlightRequest]
    · simp [start, here, Ne.symm hx]
    · intro p resp hp
      simp at hp
    · simp [start, here, Ne.symm hx] at hleft
  · have hempty : pursuit q (start owner q home ctx now ttl) =
        { here := some home, hop := 0, departed := fun _ => none, arrived := fun _ => "", unanswered := [home],
          inTransit := [], cached := fun _ => none, pending := fun _ => none, fetches := ∅, answers := [],
          completions := [], dropped := [] } := by
      simp [pursuit, start, here, apply_update
        (fun _ (r : RpcContextRegistry RpcContext) => r.cachedResponses[q]?), apply_update
        (fun _ (r : RpcContextRegistry RpcContext) => r.pendingFetches[q]?),
        registerInFlightRequest, registerContext]
    rw [hempty]
    refine ⟨Trail.start home _, rfl, rfl, rfl, rfl, nofun, nofun, nofun, nofun, nofun, fun g hg => ?_, rfl⟩
    exact ⟨Or.inl hg, nofun⟩

def Settled (s : CallerSystem) : Prop := s.unanswered = [] ∧ s.responses = [] ∧ s.fetches = []

instance (s : CallerSystem) : Decidable s.Settled :=
  inferInstanceAs (Decidable (_ ∧ _ ∧ _))

def opAt (owner : RpcAppMsgIds) (q : Nat) (s : CallerSystem) (host : String) : Option RpcOp :=
  (s.hosts host).contextByKey[owner]?.bind fun ctx => ctx.ops[q]?

theorem Pursued.done_of_settled (h : Pursued owner q s ctx op tok) {host : String}
    (hhere : s.phase = .running host) (hs : s.Settled) : tok.isDone = true := by
  obtain ⟨hu, hr, hfetches⟩ := hs
  have hunanswered : s.unanswered = tok.invocations := h.follows.unanswered
  have hresponses : s.responses.filter (fun e => e.2.requestId = q) = tok.inTransit := h.follows.inTransit
  rw [hu] at hunanswered
  rw [hr] at hresponses
  cases tok with
  | done resp => rfl
  | invoked g => cases hunanswered
  | transit g resp => cases hresponses
  | cached g resp =>
    -- the host has been asked: the FETCH would have taken the response, or waits for it
    obtain ⟨hnone, hleft⟩ := h.follows.apart g resp rfl
    obtain ⟨k, hk⟩ := Option.ne_none_iff_exists'.mp hleft
    rcases (h.follows.reach g rfl).2 k hk g k hk le_rfl with ⟨hmoving, -⟩ | ⟨f, hf, -⟩ | ⟨fetch, hfetch, -⟩
    · simp [pursuit, hhere, here] at hmoving
    · simp [pursuit, hfetches] at hf
    · rw [hnone] at hfetch
      cases hfetch

theorem Pursued.opAt_here (h : Pursued owner q s ctx op tok) {host : String}
    (hhere : s.phase = .running host) : s.opAt owner q host = some op := by
  have hctx : (s.hosts host).contextByKey[owner]? = some ctx := by
    rw [(h.hosts host).context, hhere]
    exact if_pos rfl
  simp [opAt, hctx, h.holds]

theorem Pursued.completions_eq (h : Pursued owner q s ctx op tok) :
    s.completions = if op.ready then [op.response] else [] := by
  have hcompletions : s.completions = tok.completions := h.follows.completions
  rw [hcompletions, h.ready]
  cases tok with
  | done resp => rw [(h.response resp rfl).1]; rfl
  | _ => rfl

end CallerSystem

def pingCall : CallerSystem :=
  CallerSystem.start { appId := 1, msgId := 2 } 131073 "A"
    (pingCaller [.startUnary pingResolver "A" 0 1 "/faabric.PingSvc/Ping" "one" (-1)]) 0 0

def answeredAfterMove : List CallerAction :=
  [.serializeMigrationState 0, .restore "B" 0 pingResolver, .recvFetch 0 0, .answer 0 0 "pong" "",
   .recvResponse 0 0 pingResolver, .recvResponse 0 0 pingResolver]

/-- The caller goes from `A` to `B`, back to `A` and to `C`. The FETCH of the third migration
reaches `A` before that of the first, which takes its place: the answer goes from `A` to `B`
and back to `A`, and stays there. -/
def lateFetch : List CallerAction :=
  [.serializeMigrationState 0, .restore "B" 0 pingResolver, .serializeMigrationState 0,
   .restore "A" 0 pingResolver, .serializeMigrationState 0, .restore "C" 0 pingResolver,
   .recvFetch 2 0, .recvFetch 0 0, .recvFetch 0 0, .answer 0 0 "pong" "", .recvResponse 0 0 pingResolver,
   .recvResponse 0 0 pingResolver, .recvResponse 0 0 pingResolver]

def failedThenMoved : List CallerAction :=
  [.answer 0 (-1) "" "", .recvResponse 0 0 pingResolver, .serializeMigrationState 0,
   .restore "B" 0 pingResolver, .recvFetch 0 0]

end Faabric
