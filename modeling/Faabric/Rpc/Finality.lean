import Faabric.Rpc.Sections
import Faabric.Rpc.RequestIds

/-! What a completed call may still see. The calls of one context run on any number of
threads, interleaved at the sections that hold the context's lock. -/

namespace Faabric

open Std (ExtTreeMap)
open RpcContext MapTotal MapFill

/-- A context with its threads. `uses q` counts the requests that have had the id `q`, so that
a request is named by its id and this number; `tested` has the response that the first
successful `testResponse` found, and `retries` the requests that have been sent again. -/
structure OpenCalls where
  ctx : RpcContext
  threads : ExtTreeMap Nat (Nat × UnaryPhase) compare := ∅
  uses : Nat → Nat := fun _ => 0
  tested : Nat → Nat → Option RpcResponse := fun _ _ => none
  retries : List (Nat × Nat) := []

inductive OpenCallAction where
  | createChannel (env : RpcEnv) (targetUri : String)
  | closeChannel (channelId : Int)
  | startUnary (t : Nat) (now channelId : Int) (method payload : String) (timeoutMs : Int)
  | onResponseReceived (t : Nat) (resp : RpcResponse)
  | proceed (t : Nat) (env : RpcEnv) (endpointHost : String)
  | testResponse (now : Int) (requestId : Nat)
  | getResponse (now : Int) (requestId : Nat)

namespace OpenCalls

def begin (s : OpenCalls) (t q : Nat) (phase : UnaryPhase) (ctx : RpcContext) : OpenCalls :=
  let use := if s.ctx.ops[q]? = none then s.uses q + 1 else s.uses q
  { s with
    ctx
    uses := fun q' => if q' = q then use else s.uses q'
    threads := s.threads.insert t (use, phase) }

def proceed (s : OpenCalls) (t : Nat) (env : RpcEnv) (host : String) (use : Nat)
    (phase : UnaryPhase) : OpenCalls :=
  let r := phase.proceed env host s.ctx
  { s with
    ctx := r.2.2
    threads :=
      match r.2.1 with
      | some next => s.threads.insert t (use, next)
      | none => s.threads.erase t
    retries := s.retries ++ if r.1.isSome then (phase.retryOf.map fun q => (q, use)).toList else [] }

def test (s : OpenCalls) (now : Int) (q : Nat) : OpenCalls :=
  let r := s.ctx.testResponse now q
  { s with
    ctx := r.2
    tested := fun q' use =>
      if r.1 ∧ q' = q ∧ use = s.uses q ∧ s.tested q' use = none then r.2.ops[q]?.map RpcOp.response
      else s.tested q' use }

end OpenCalls

def OpenCallAction.step (s : OpenCalls) : OpenCallAction → OpenCalls
  | .createChannel env targetUri =>
    match s.ctx.createChannel env targetUri with
    | .ok r => { s with ctx := r.2 }
    | .error _ => s
  | .closeChannel channelId => { s with ctx := s.ctx.closeChannel channelId }
  | .startUnary t now channelId method payload timeoutMs =>
    match s.threads[t]?, s.ctx.beginUnary now channelId method payload timeoutMs with
    | none, .ok (q, info, ctx) => s.begin t q (.send q channelId method payload info) ctx
    | _, _ => s
  | .onResponseReceived t resp =>
    match s.threads[t]?, s.ctx.receiveResponse resp with
    | none, (none, ctx) => { s with ctx }
    | none, (some op, ctx) =>
      { s with
        ctx
        threads := s.threads.insert t (s.uses resp.requestId, .retry resp.requestId op) }
    | some _, _ => s
  | .proceed t env host =>
    match s.threads[t]? with
    | some e => s.proceed t env host e.1 e.2
    | none => s
  | .testResponse now q => s.test now q
  | .getResponse now q => { s with ctx := (s.ctx.getResponse now q).2 }

namespace OpenCalls

def Unseen (s : OpenCalls) (q : Nat) : Prop := s.ctx.ops[q]? = none ∨ s.tested q (s.uses q) = none

instance (s : OpenCalls) (q : Nat) : Decidable (s.Unseen q) :=
  inferInstanceAs (Decidable (_ ∨ _))

/-- Responses and failures meet requests that no `testResponse` has seen completed, or bring
the response it saw; `testResponse` completes no request that is being retried. -/
def KeepsOutcome (s : OpenCalls) : OpenCallAction → Prop
  | .onResponseReceived _ resp => s.Unseen resp.requestId ∨
      s.tested resp.requestId (s.uses resp.requestId) = some resp ∧ (s.ctx.receiveResponse resp).1 = none
  | .proceed t _ _ => ∀ e ∈ s.threads[t]?, ∀ q ∈ e.2.fails s.ctx, s.Unseen q
  | .testResponse now q => (s.ctx.testResponse now q).1 = true →
      ∀ e ∈ s.threads.toList, e.2.1 = s.uses q → e.2.2.retryOf ≠ some q
  | _ => True

instance (s : OpenCalls) (action : OpenCallAction) : Decidable (s.KeepsOutcome action) := by
  cases action <;> unfold KeepsOutcome <;> infer_instance

structure Final (s : OpenCalls) : Prop where
  tested_le : ∀ q use, s.tested q use ≠ none → use ≤ s.uses q
  outcome : ∀ q resp, s.tested q (s.uses q) = some resp → ∀ op, s.ctx.ops[q]? = some op →
    op.ready = true ∧ op.response = resp
  retrying : ∀ (t : Nat) use phase q, s.threads[t]? = some (use, phase) → phase.retryOf = some q →
    use ≤ s.uses q ∧ s.tested q use = none ∧ (q, use) ∉ s.retries ∧
    ∀ (t' : Nat) phase', s.threads[t']? = some (use, phase') → phase'.retryOf = some q → t' = t
  unretried : ∀ (q : Nat) op, s.ctx.ops[q]? = some op → op.retryCount = 0 →
    (q, s.uses q) ∉ s.retries ∧
    ∀ (t : Nat) phase, s.threads[t]? = some (s.uses q, phase) → phase.retryOf ≠ some q
  sent_le : ∀ e ∈ s.retries, e.2 ≤ s.uses e.1
  once : s.retries.Nodup

def Advances (s : OpenCalls) (ctx : RpcContext) : Prop :=
  ∀ (q : Nat) op', ctx.ops[q]? = some op' → ∃ op, s.ctx.ops[q]? = some op ∧
    (op'.retryCount = 0 → op.retryCount = 0) ∧
    (s.tested q (s.uses q) ≠ none → op.ready = true → op'.ready = true ∧ op'.response = op.response)

variable {ctx : RpcContext}

theorem advances_refl (s : OpenCalls) (h : ctx.ops = s.ctx.ops) : s.Advances ctx := by
  intro q op hop
  exact ⟨op, h ▸ hop, id, fun _ hr => ⟨hr, rfl⟩⟩

variable {s : OpenCalls}

theorem Final.advance (h : Final s) (ha : s.Advances ctx) : Final { s with ctx } := by
  refine ⟨h.tested_le, ?_, h.retrying, ?_, h.sent_le, h.once⟩
  · intro q resp ht op' hop'
    obtain ⟨op, hop, -, hsame⟩ := ha q op' hop'
    obtain ⟨hready, hresp⟩ := h.outcome q resp ht op hop
    obtain ⟨hready', hresp'⟩ := hsame (by rw [ht]; simp) hready
    exact ⟨hready', hresp'.trans hresp⟩
  · intro q op' hop' hzero
    obtain ⟨op, hop, hcount, -⟩ := ha q op' hop'
    exact h.unretried q op hop (hcount hzero)

variable {q : Nat}

theorem advances_setOp {op op' : RpcOp} (hop : s.ctx.ops[q]? = some op)
    (hcount : op'.retryCount = 0 → op.retryCount = 0)
    (hsame : s.tested q (s.uses q) ≠ none → op.ready = true → op'.ready = true ∧ op'.response = op.response) :
    s.Advances (s.ctx.setOp q op') := by
  intro q' op'' hop''
  by_cases he : q = q'
  · subst he
    obtain rfl : op' = op'' := by simpa using hop''
    exact ⟨op, hop, hcount, hsame⟩
  · exact ⟨op'', by simpa [he] using hop'', id, fun _ hr => ⟨hr, rfl⟩⟩

theorem advances_completeUnavailable (hq : s.Unseen q) (what : String) :
    s.Advances (s.ctx.completeUnavailable q what) := by
  unfold completeUnavailable
  cases hop : s.ctx.ops[q]? with
  | none => exact advances_refl s rfl
  | some op =>
    refine advances_setOp hop (by exact id) ?_
    intro ht
    rcases hq with hnone | hunseen
    · simp [hop] at hnone
    · exact absurd hunseen ht

theorem synthesize_ready {op : RpcOp} (h : op.ready = true) (now : Int) (q : Nat) :
    synthesizeDeadlineExceededIfNeeded now q op = op := by
  simp [synthesizeDeadlineExceededIfNeeded, h]

theorem synthesize_retryCount (now : Int) (q : Nat) (op : RpcOp) :
    (synthesizeDeadlineExceededIfNeeded now q op).retryCount = op.retryCount := by
  unfold synthesizeDeadlineExceededIfNeeded
  split
  · split_ifs <;> rfl
  · rfl

theorem advances_synthesize {op : RpcOp} (hop : s.ctx.ops[q]? = some op) (now : Int) :
    s.Advances (s.ctx.setOp q (synthesizeDeadlineExceededIfNeeded now q op)) := by
  apply advances_setOp hop
  · rw [synthesize_retryCount]
    exact id
  · intro _ hr
    rw [synthesize_ready hr]
    exact ⟨hr, rfl⟩

theorem advances_getResponse (s : OpenCalls) (now : Int) (q : Nat) :
    s.Advances (s.ctx.getResponse now q).2 := by
  unfold getResponse
  cases hop : s.ctx.ops[q]? with
  | none => exact advances_refl s rfl
  | some op =>
    dsimp only
    split_ifs
    · intro q' op' hop'
      by_cases he : q = q'
      · simp [eraseRequest, he] at hop'
      · exact ⟨op', by simpa [eraseRequest, he] using hop', id, fun _ hr => ⟨hr, rfl⟩⟩
    · exact advances_synthesize hop now

theorem Final.begin (h : Final s) {now channelId timeoutMs : Int} {method payload : String}
    {info : ChannelInfo} {t : Nat}
    (hb : s.ctx.beginUnary now channelId method payload timeoutMs = .ok (q, info, ctx)) :
    Final (s.begin t q (.send q channelId method payload info) ctx) := by
  have hops : ctx.ops = s.ctx.ops.insertIfNew q
      (newOp now channelId method payload timeoutMs) := by
    unfold beginUnary at hb
    split at hb
    · cases hb
    · split_ifs at hb
      obtain ⟨rfl, rfl, rfl⟩ := hb
      rfl
  have hthreads : ∀ (t' : Nat) use phase q',
      (s.begin t q (.send q channelId method payload info) ctx).threads[t']? = some (use, phase) →
      phase.retryOf = some q' → s.threads[t']? = some (use, phase) := by
    intro t' use phase q' hp hq'
    by_cases he : t = t'
    · simp only [OpenCalls.begin, getElem?_insert_ite, he, if_true, Option.some.injEq,
        Prod.mk.injEq] at hp
      rw [← hp.2] at hq'
      cases hq'
    · simpa [OpenCalls.begin, he] using hp
  have hle : ∀ q', s.uses q' ≤ (s.begin t q (.send q channelId method payload info) ctx).uses q' := by
    intro q'
    simp only [OpenCalls.begin]
    split_ifs with hq' hnone
    · subst hq'
      omega
    · subst hq'
      omega
    · omega
  -- the request that an id names is the one it named before, or a new one
  have huse : ∀ q' op, ctx.ops[q']? = some op →
      ((s.begin t q (.send q channelId method payload info) ctx).uses q' = s.uses q' ∧
        s.ctx.ops[q']? = some op) ∨
      (s.begin t q (.send q channelId method payload info) ctx).uses q' = s.uses q' + 1 := by
    intro q' op hop
    rw [hops, getElem?_insertIfNew_ite] at hop
    by_cases hq' : q' = q
    · subst hq'
      by_cases hnone : s.ctx.ops[q']? = none
      · right
        simp [OpenCalls.begin, hnone]
      · left
        simp only [hnone, and_false, if_false] at hop
        exact ⟨by simp [OpenCalls.begin, hnone], hop⟩
    · left
      simp only [Ne.symm hq', false_and, if_false] at hop
      exact ⟨by simp [OpenCalls.begin, hq'], hop⟩
  refine ⟨fun q' use hu => (h.tested_le q' use hu).trans (hle q'), ?_, ?_, ?_, ?_, h.once⟩
  · intro q' resp hresp op hop
    rcases huse q' op hop with ⟨he, hold⟩ | he
    · exact h.outcome q' resp (he ▸ hresp) op hold
    · rw [he] at hresp
      have hold : s.uses q' + 1 ≤ s.uses q' :=
        h.tested_le q' _ (Option.ne_none_iff_exists'.mpr ⟨resp, hresp⟩)
      omega
  · intro t' use phase q' hp hq'
    obtain ⟨hu, hunseen, hsent, honly⟩ := h.retrying t' use phase q' (hthreads t' use phase q' hp hq') hq'
    refine ⟨hu.trans (hle q'), hunseen, hsent, ?_⟩
    intro t'' phase'' hp'' hq''
    exact honly t'' phase'' (hthreads t'' use phase'' q' hp'' hq'') hq''
  · intro q' op hop hzero
    rcases huse q' op hop with ⟨he, hold⟩ | he
    · rw [he]
      obtain ⟨hsent, hfree⟩ := h.unretried q' op hold hzero
      exact ⟨hsent, fun t' phase hp hq' => hfree t' phase (hthreads t' _ phase q' hp hq') hq'⟩
    · rw [he]
      constructor
      · intro hmem
        have hold : s.uses q' + 1 ≤ s.uses q' := h.sent_le _ hmem
        omega
      · intro t' phase hp hq'
        have hold := (h.retrying t' _ phase q' (hthreads t' _ phase q' hp hq') hq').1
        omega
  · intro e he
    exact (h.sent_le e he).trans (hle e.1)

variable {resp : RpcResponse}

theorem advances_receive (h : Final s) (hok : s.KeepsOutcome (.onResponseReceived 0 resp)) :
    s.Advances (s.ctx.receiveResponse resp).2 := by
  unfold receiveResponse
  cases hop : s.ctx.ops[resp.requestId]? with
  | none => exact advances_refl s rfl
  | some op =>
    dsimp only
    split_ifs with hretry
    · simp only [Bool.and_eq_true, decide_eq_true_eq] at hretry
      exact advances_setOp hop (fun _ => hretry.1.2) (fun _ hr => ⟨hr, rfl⟩)
    · refine advances_setOp hop (by exact id) ?_
      intro ht hr
      rcases hok with (hnone | hunseen) | ⟨hsame, -⟩
      · simp [hop] at hnone
      · exact absurd hunseen ht
      · exact ⟨rfl, (h.outcome _ _ hsame op hop).2.symm⟩

theorem receive_retry {retryOp : RpcOp} (h : (ctx.receiveResponse resp).1 = some retryOp) :
    ∃ op, ctx.ops[resp.requestId]? = some op ∧ op.retryCount = 0 ∧
      (ctx.receiveResponse resp).2.ops[resp.requestId]? = some retryOp ∧ retryOp.retryCount = 1 := by
  unfold receiveResponse at h ⊢
  cases hop : ctx.ops[resp.requestId]? with
  | none => simp [hop] at h
  | some op =>
    simp only [hop] at h ⊢
    split_ifs at h ⊢ with hretry
    obtain rfl := Option.some.inj h
    simp only [Bool.and_eq_true, decide_eq_true_eq] at hretry
    exact ⟨op, rfl, hretry.1.2, by simp, by simp [hretry.1.2]⟩

theorem Final.startRetry (h : Final s) {t : Nat} {retryOp : RpcOp} (ht : s.threads[t]? = none)
    (hretry : (s.ctx.receiveResponse resp).1 = some retryOp)
    (hok : s.KeepsOutcome (.onResponseReceived t resp)) :
    Final { s with
      ctx := (s.ctx.receiveResponse resp).2
      threads := s.threads.insert t (s.uses resp.requestId, .retry resp.requestId retryOp) } := by
  have hadv := h.advance (advances_receive h hok)
  obtain ⟨op, hop, hzero, hop', hone⟩ := receive_retry hretry
  obtain ⟨hsent, hfree⟩ := h.unretried _ op hop hzero
  have hunseen : s.tested resp.requestId (s.uses resp.requestId) = none := by
    rcases hok with (hnone | hunseen) | ⟨-, hnone⟩
    · simp [hop] at hnone
    · exact hunseen
    · simp [hnone] at hretry
  -- the thread of a retry is the new one or an old one
  have hthreads : ∀ (t' : Nat) use phase q,
      (s.threads.insert t (s.uses resp.requestId, UnaryPhase.retry resp.requestId retryOp))[t']? =
        some (use, phase) → phase.retryOf = some q →
      (t' = t ∧ use = s.uses q ∧ q = resp.requestId) ∨ s.threads[t']? = some (use, phase) := by
    intro t' use phase q hp hq
    by_cases he : t = t'
    · simp only [getElem?_insert_ite, he, if_true, Option.some.injEq, Prod.mk.injEq] at hp
      obtain ⟨rfl, rfl⟩ := hp
      obtain rfl := Option.some.inj hq
      exact Or.inl ⟨he.symm, rfl, rfl⟩
    · exact Or.inr (by simpa [he] using hp)
  refine ⟨hadv.tested_le, hadv.outcome, ?_, ?_, hadv.sent_le, hadv.once⟩
  · intro t' use phase q hp hq
    rcases hthreads t' use phase q hp hq with ⟨rfl, rfl, rfl⟩ | hold
    · refine ⟨le_rfl, hunseen, hsent, ?_⟩
      intro t'' phase'' hp'' hq''
      rcases hthreads t'' _ phase'' _ hp'' hq'' with ⟨rfl, -⟩ | hold
      · rfl
      · exact absurd hq'' (hfree t'' phase'' hold)
    · obtain ⟨hle, hns, hnr, honly⟩ := h.retrying t' use phase q hold hq
      refine ⟨hle, hns, hnr, ?_⟩
      intro t'' phase'' hp'' hq''
      rcases hthreads t'' _ phase'' _ hp'' hq'' with ⟨rfl, rfl, rfl⟩ | hold''
      · exact absurd hq (hfree t' phase hold)
      · exact honly t'' phase'' hold'' hq''
  · intro q op'' hop'' hzero''
    obtain ⟨hnr, hnone⟩ := hadv.unretried q op'' hop'' hzero''
    refine ⟨hnr, ?_⟩
    intro t' phase hp hq
    rcases hthreads t' _ phase q hp hq with ⟨-, -, rfl⟩ | hold
    · obtain rfl := Option.some.inj (hop'.symm.trans hop'')
      omega
    · exact hnone t' phase hold hq

theorem Final.proceed (h : Final s) {t use : Nat} {phase : UnaryPhase} (env : RpcEnv) (host : String)
    (ht : s.threads[t]? = some (use, phase)) (hok : ∀ q ∈ phase.fails s.ctx, s.Unseen q) :
    Final (s.proceed t env host use phase) := by
  have hadv : s.Advances (phase.proceed env host s.ctx).2.2 := by
    rcases phase.proceed_cases env host s.ctx with ⟨hops, -⟩ | ⟨q, what, hfails, he⟩
    · exact advances_refl s hops
    · rw [he]
      exact advances_completeUnavailable (hok q hfails) what
  have hnext : ∀ next, (phase.proceed env host s.ctx).2.1 = some next →
      next.retryOf = phase.retryOf := by
    rcases phase.proceed_cases env host s.ctx with ⟨-, hnext⟩ | ⟨q, what, -, he⟩
    · exact hnext
    · simp [he]
  have hback : ∀ (t' use' : Nat) phase', (s.proceed t env host use phase).threads[t']? =
      some (use', phase') → ∃ old, s.threads[t']? = some (use', old) ∧ old.retryOf = phase'.retryOf := by
    intro t' use' phase' hp
    simp only [OpenCalls.proceed] at hp
    split at hp
    · rename_i next hn
      by_cases he : t = t'
      · simp only [getElem?_insert_ite, he, if_true, Option.some.injEq, Prod.mk.injEq] at hp
        obtain ⟨rfl, rfl⟩ := hp
        exact ⟨phase, he ▸ ht, (hnext next hn).symm⟩
      · exact ⟨phase', by simpa [he] using hp, rfl⟩
    · by_cases he : t = t'
      · simp [he] at hp
      · exact ⟨phase', by simpa [he] using hp, rfl⟩
  -- a request enters the list of retries when its thread sends it, and the thread is done
  have hsent : ∀ e ∈ (s.proceed t env host use phase).retries, e ∈ s.retries ∨
      (e.2 = use ∧ phase.retryOf = some e.1 ∧
        (s.proceed t env host use phase).threads[t]? = none) := by
    intro e he
    rcases List.mem_append.mp he with hold | hnew
    · exact Or.inl hold
    · right
      split_ifs at hnew with hout
      · obtain ⟨sent, hsome⟩ := Option.isSome_iff_exists.mp hout
        obtain ⟨q, hq, rfl⟩ := Option.map_eq_some_iff.mp (Option.mem_toList.mp hnew)
        refine ⟨rfl, hq, ?_⟩
        simp [OpenCalls.proceed, UnaryPhase.proceed_sent hsome]
      · simp at hnew
  have h' := h.advance hadv
  refine ⟨h'.tested_le, h'.outcome, ?_, ?_, ?_, ?_⟩
  · intro t' use' phase' q hp hq
    obtain ⟨old, hold, hsame⟩ := hback t' use' phase' hp
    obtain ⟨hle, hns, hnr, honly⟩ := h.retrying t' use' old q hold (hsame.trans hq)
    refine ⟨hle, hns, ?_, ?_⟩
    · intro hmem
      rcases hsent _ hmem with hin | ⟨rfl, hretry, hdone⟩
      · exact hnr hin
      · obtain rfl := honly t phase ht hretry
        rw [hdone] at hp
        cases hp
    · intro t'' phase'' hp'' hq''
      obtain ⟨old'', hold'', hsame''⟩ := hback t'' use' phase'' hp''
      exact honly t'' old'' hold'' (hsame''.trans hq'')
  · intro q op hop hzero
    obtain ⟨hnr, hnone⟩ := h'.unretried q op hop hzero
    constructor
    · intro hmem
      rcases hsent _ hmem with hin | ⟨hu, hretry, -⟩
      · exact hnr hin
      · have huse : s.uses q = use := hu
        exact hnone t phase (huse ▸ ht) hretry
    · intro t' phase' hp hq
      obtain ⟨old, hold, hsame⟩ := hback t' _ phase' hp
      exact hnone t' old hold (hsame.trans hq)
  · intro e he
    rcases hsent e he with hin | ⟨rfl, hretry, -⟩
    · exact h.sent_le e hin
    · exact (h.retrying t _ phase e.1 ht hretry).1
  · simp only [OpenCalls.proceed]
    split_ifs
    · cases hq : phase.retryOf with
      | none => simpa using h.once
      | some q =>
        have hnr := (h.retrying t use phase q ht hq).2.2.1
        simp only [Option.map_some, Option.toList_some]
        exact List.nodup_append.mpr ⟨h.once, List.nodup_singleton _, by
          intro a ha b hb
          rw [List.mem_singleton.mp hb]
          rintro rfl
          exact hnr ha⟩
    · simpa using h.once

theorem testResponse_found {now : Int} (h : (ctx.testResponse now q).1 = true) :
    ∃ op, (ctx.testResponse now q).2.ops[q]? = some op ∧ op.ready = true := by
  unfold testResponse at h ⊢
  cases hop : ctx.ops[q]? with
  | none => simp [hop] at h
  | some op =>
    simp only [hop] at h ⊢
    exact ⟨_, by simp, h⟩

theorem Final.test (h : Final s) {now : Int} (hok : s.KeepsOutcome (.testResponse now q)) :
    Final (s.test now q) := by
  have hadv : s.Advances (s.ctx.testResponse now q).2 := by
    unfold testResponse
    cases hop : s.ctx.ops[q]? with
    | none => exact advances_refl s rfl
    | some op => exact advances_synthesize hop now
  have h' := h.advance hadv
  have htested : ∀ q' use, (s.test now q).tested q' use = s.tested q' use ∨
      ((s.ctx.testResponse now q).1 = true ∧ q' = q ∧ use = s.uses q ∧
        (s.test now q).tested q' use = (s.ctx.testResponse now q).2.ops[q]?.map RpcOp.response) := by
    intro q' use
    simp only [OpenCalls.test]
    split_ifs with hc
    · exact Or.inr ⟨hc.1, hc.2.1, hc.2.2.1, rfl⟩
    · exact Or.inl rfl
  refine ⟨?_, ?_, ?_, h'.unretried, h'.sent_le, h'.once⟩
  · intro q' use hu
    rcases htested q' use with he | ⟨-, rfl, rfl, -⟩
    · exact h.tested_le q' use (he ▸ hu)
    · exact le_rfl
  · intro q' resp hresp op hop
    rcases htested q' (s.uses q') with he | ⟨htrue, rfl, -, he⟩
    · exact h'.outcome q' resp (he ▸ hresp) op hop
    · obtain ⟨op', hop', hready⟩ := testResponse_found htrue
      obtain rfl := Option.some.inj (hop'.symm.trans hop)
      refine ⟨hready, ?_⟩
      have hsome : (s.ctx.testResponse now q').2.ops[q']?.map RpcOp.response = some resp :=
        he ▸ hresp
      rw [hop'] at hsome
      exact Option.some.inj hsome
  · intro t use phase q' hp hq
    obtain ⟨hle, hns, hnr, honly⟩ := h.retrying t use phase q' hp hq
    refine ⟨hle, ?_, hnr, honly⟩
    rcases htested q' use with he | ⟨htrue, rfl, rfl, -⟩
    · exact he.trans hns
    · exact absurd hq (hok htrue _ (ExtTreeMap.mem_toList_iff_getElem?_eq_some.mpr hp) rfl)

theorem final_step (s : OpenCalls) (action : OpenCallAction) (h : Final s)
    (hok : s.KeepsOutcome action) : Final (action.step s) := by
  cases action with
  | createChannel env targetUri =>
    simp only [OpenCallAction.step]
    cases hch : s.ctx.createChannel env targetUri with
    | error e => exact h
    | ok r =>
      apply h.advance
      apply advances_refl
      unfold createChannel at hch
      split at hch
      · cases hch
      · obtain rfl := Except.ok.inj hch
        rfl
  | closeChannel channelId => exact h.advance (advances_refl s rfl)
  | startUnary t now channelId method payload timeoutMs =>
    simp only [OpenCallAction.step]
    split
    · rename_i ht hb
      exact h.begin hb
    · exact h
  | onResponseReceived t resp =>
    have hadv := advances_receive h hok
    simp only [OpenCallAction.step]
    split
    · rename_i ht he
      rw [he] at hadv
      exact h.advance hadv
    · rename_i op ctx ht he
      have hstart := h.startRetry ht (congrArg Prod.fst he) hok
      rw [he] at hstart
      exact hstart
    · exact h
  | proceed t env host =>
    simp only [OpenCallAction.step]
    split
    · rename_i e he
      exact h.proceed env host he (hok e he)
    · exact h
  | testResponse now q => exact h.test hok
  | getResponse now q => exact h.advance (advances_getResponse s now q)

theorem final_new (owner : RpcAppMsgIds) : Final { ctx := new owner } := by
  refine ⟨by simp, by simp, by simp, ?_, by simp, by simp⟩
  intro q op hop
  simp [new] at hop

theorem retry_sent {action : OpenCallAction} {use : Nat}
    (h : (action.step s).retries = s.retries ++ [(q, use)]) :
    ∃ (t : Nat) (phase : UnaryPhase), s.threads[t]? = some (use, phase) ∧ phase.retryOf = some q := by
  have hsame : (action.step s).retries ≠ s.retries := by simp [h]
  cases action with
  | proceed t env host =>
    simp only [OpenCallAction.step] at h hsame
    cases ht : s.threads[t]? with
    | none => simp [ht] at hsame
    | some e =>
      simp only [ht, OpenCalls.proceed, List.append_cancel_left_eq] at h
      split_ifs at h
      cases hq : e.2.retryOf with
      | none => simp [hq] at h
      | some q' =>
        simp only [hq, Option.map_some, Option.toList_some, List.cons.injEq, Prod.mk.injEq] at h
        obtain ⟨⟨rfl, rfl⟩, -⟩ := h
        exact ⟨t, e.2, ht, hq⟩
  | createChannel env targetUri =>
    simp only [OpenCallAction.step] at hsame
    split at hsame <;> exact absurd rfl hsame
  | startUnary t now channelId method payload timeoutMs =>
    simp only [OpenCallAction.step] at hsame
    split at hsame <;> exact absurd rfl hsame
  | onResponseReceived t resp =>
    simp only [OpenCallAction.step] at hsame
    split at hsame <;> exact absurd rfl hsame
  | _ => exact absurd rfl hsame

end OpenCalls

open OpenCalls

def callWithin10 : List OpenCallAction :=
  [.createChannel pingResolver "faabric://ping",
   .startUnary 0 0 1 "/faabric.PingSvc/Ping" "one" 10, .proceed 0 pingResolver "A"]

def staleTarget : RpcResponse :=
  { requestId := 131073, statusCode := RpcStatusCode.UNAVAILABLE
    errorMessage := "Target service instance not available" }

def retriedInTime : List OpenCallAction :=
  callWithin10 ++ [.onResponseReceived 1 staleTarget, .proceed 1 pingResolver "A",
    .proceed 1 pingResolver "A", .proceed 1 pingResolver "A", .proceed 1 pingResolver "A",
    .onResponseReceived 1 { requestId := 131073, payload := "pong" }, .testResponse 20 131073]

def afterDeadline (rest : List OpenCallAction) : OpenCalls :=
  GuardedRun.run OpenCallAction.step { ctx := new { appId := 1, msgId := 2 } }
    (callWithin10 ++ .testResponse 20 131073 :: rest)

end Faabric
