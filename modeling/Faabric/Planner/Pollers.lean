import Faabric.Lib.History
import Faabric.Planner.FreshStart
import Faabric.Planner.ResultTrace

/-! Concurrent `getBatchResults`: each poll checks under the shared lock whether the app
is frozen, then without a lock whether it is in flight, and then calls `callBatch`. -/

namespace Faabric

open MapTotal

inductive PollPhase where
  | asking
  | checked (frozenBer : BatchExecuteRequest)
  | committed (newBer : BatchExecuteRequest)
  | returned (berStatus : Option BatchExecuteRequestStatus)
  | threw (e : PlannerError)
deriving DecidableEq, Repr

namespace PollPhase

def checked? : PollPhase → Option BatchExecuteRequest
  | .checked ber => some ber
  | _ => none

def committed? : PollPhase → Option BatchExecuteRequest
  | .committed ber => some ber
  | _ => none

end PollPhase

structure Poll where
  appId : Int
  phase : PollPhase := .asking
deriving DecidableEq, Repr

/-- The planner and its polls, with the number of un-freezes dispatched for each app
since its last freeze, and whether one was not taken for a new request. -/
structure PollSystem where
  planner : PlannerState
  polls : List Poll := []
  thaws : Int → Nat := fun _ => 0
  misread : Bool := false

inductive PollAction where
  | getBatchResults (appId : Int)
  | check (p : Nat)
  | commit (p : Nat)
  | unFreeze (p : Nat) (env : CallEnv)
  | setMessageResult (msg : Message)
  | callBatch (env : CallEnv) (req : BatchExecuteRequest)
  | setNextEvictedVm (vmIps : Finset String)

namespace PollSystem

def setPhase (s : PollSystem) (p : Nat) (poll : Poll) (phase : PollPhase) : PollSystem :=
  { s with polls := s.polls.set p { poll with phase } }

def setThaws (s : PollSystem) (appId : Int) (n : Nat) : PollSystem :=
  { s with thaws := fun app => if app = appId then n else s.thaws app }

def keepAlive (appId : Int) : Option BatchExecuteRequestStatus :=
  some { appId, finished := false, messageResults := [] }

def call (s : PollSystem) (env : CallEnv) (req : BatchExecuteRequest) : PollSystem :=
  let r := Faabric.callBatch env req s.planner
  if r.1 = .ok MUST_FREEZE_DECISION then { s with planner := r.2 }.setThaws req.appId 0
  else { s with planner := r.2 }

def check (s : PollSystem) (p : Nat) (poll : Poll) : PollSystem :=
  match pollBatch poll.appId s.planner with
  | .noStatus => s.setPhase p poll (.returned none)
  | .status berStatus => s.setPhase p poll (.returned (some berStatus))
  | .frozen ber => s.setPhase p poll (.checked ber)

def commit (s : PollSystem) (p : Nat) (poll : Poll) (ber : BatchExecuteRequest) : PollSystem :=
  if s.planner.inFlightReqs.contains poll.appId then
    s.setPhase p poll (.returned (keepAlive poll.appId))
  else s.setPhase p poll (.committed ber)

def thaw (s : PollSystem) (env : CallEnv) (ber : BatchExecuteRequest) : Bool :=
  s.planner.inFlightReqs[ber.appId]?.isNone &&
    (Faabric.callBatch env ber s.planner).2.inFlightReqs[ber.appId]?.isSome

def unFreeze (s : PollSystem) (p : Nat) (poll : Poll) (env : CallEnv) (ber : BatchExecuteRequest) :
    PollSystem :=
  let phase : PollPhase :=
    match (Faabric.callBatch env ber s.planner).1 with
    | .error e => .threw e
    | .ok _ => .returned (keepAlive poll.appId)
  let s' := (s.setPhase p poll phase).call env ber
  let s' := if s.thaw env ber then s'.setThaws ber.appId (s.thaws ber.appId + 1) else s'
  { s' with misread := s.misread || getDecisionType s.planner.inFlightReqs ber ≠ .new }

def commits (s : PollSystem) (appId : Int) (p : Nat) : Bool :=
  match s.polls[p]? with
  | none => false
  | some poll => poll.appId = appId && poll.phase.committed?.isSome

end PollSystem

def PollAction.step (s : PollSystem) : PollAction → PollSystem
  | .getBatchResults appId => { s with polls := s.polls ++ [{ appId }] }
  | .check p =>
    match s.polls[p]? with
    | some poll => if poll.phase = .asking then s.check p poll else s
    | none => s
  | .commit p =>
    match s.polls[p]? with
    | some poll =>
      match poll.phase.checked? with
      | some ber => s.commit p poll ber
      | none => s
    | none => s
  | .unFreeze p env =>
    match s.polls[p]? with
    | some poll =>
      match poll.phase.committed? with
      | some ber => s.unFreeze p poll env ber
      | none => s
    | none => s
  | .setMessageResult msg => { s with planner := (Faabric.setMessageResult msg s.planner).2 }
  | .callBatch env req => s.call env req
  | .setNextEvictedVm vmIps => { s with planner := (Faabric.setNextEvictedVm vmIps s.planner).2 }

def SoleCommit (s : PollSystem) (appId : Int) (p : Nat) : Prop :=
  ∀ q ∈ List.range s.polls.length, q ≠ p → s.commits appId q = false

/-- The steps that un-freeze once: a poll commits to an app whose freeze is not over, no
call puts an app in flight that another poll has committed to, and a result does not take
an app out of flight that is restarted but still evicted. -/
def ThawsApart (s : PollSystem) : PollAction → Prop
  | .commit p => ∀ poll ∈ s.polls[p]?, poll.phase.checked?.isSome →
      s.planner.inFlightReqs[poll.appId]? = none →
      s.thaws poll.appId = 0 ∨ s.planner.evictedRequests[poll.appId]?.isSome
  | .unFreeze p env => ∀ poll ∈ s.polls[p]?, ∀ ber ∈ poll.phase.committed?,
      (callBatch env ber s.planner).2.inFlightReqs[poll.appId]? = none ∨ SoleCommit s poll.appId p
  | .callBatch env req => s.planner.inFlightReqs[req.appId]?.isSome ∨
      (callBatch env req s.planner).2.inFlightReqs[req.appId]? = none ∨
      SoleCommit s req.appId s.polls.length
  | .setMessageResult msg => s.thaws msg.appId = 0 ∨ s.planner.evictedRequests[msg.appId]? = none ∨
      (setMessageResult msg s.planner).2.inFlightReqs[msg.appId]?.isSome
  | _ => True

instance (s : PollSystem) (appId : Int) (p : Nat) : Decidable (SoleCommit s appId p) :=
  inferInstanceAs (Decidable (∀ q ∈ List.range s.polls.length, _))

instance (s : PollSystem) (action : PollAction) : Decidable (ThawsApart s action) := by
  unfold ThawsApart
  cases action <;> infer_instance

/-- The requests in flight and the evicted ones are under their apps. -/
structure AppsKeyed (planner : PlannerState) : Prop where
  inFlight : ∀ (app : Int) (pair : InFlightPair), planner.inFlightReqs[app]? = some pair → pair.1.appId = app
  evicted : ∀ (app : Int) (ber : BatchExecuteRequest), planner.evictedRequests[app]? = some ber → ber.appId = app
  preloads : PreloadsFixed planner

structure Thawing (s : PollSystem) : Prop where
  once : ∀ app, s.thaws app ≤ 1
  read : s.misread = false
  settled : ∀ app, s.thaws app ≠ 0 →
    s.planner.evictedRequests[app]? = none ∨ s.planner.inFlightReqs[app]?.isSome
  waiting : ∀ app p, s.commits app p = true →
    s.thaws app = 0 ∧ s.planner.inFlightReqs[app]? = none
  held : ∀ (p : Nat) (poll : Poll) (ber : BatchExecuteRequest), s.polls[p]? = some poll →
    poll.phase.checked? = some ber ∨ poll.phase.committed? = some ber → ber.appId = poll.appId
  keyed : AppsKeyed s.planner

namespace PollSystem

variable {s : PollSystem} {p : Nat}

theorem commits_eq {app : Int} (h : s.commits app p = true) :
    ∃ poll ber, s.polls[p]? = some poll ∧ poll.appId = app ∧ poll.phase.committed? = some ber := by
  unfold commits at h
  split at h
  · exact absurd h (by simp)
  · rename_i poll hp
    simp only [Bool.and_eq_true, decide_eq_true_eq] at h
    obtain ⟨ber, hber⟩ := Option.isSome_iff_exists.mp h.2
    exact ⟨poll, ber, hp, h.1, hber⟩

theorem commits_of {poll : Poll} {ber : BatchExecuteRequest} (hp : s.polls[p]? = some poll)
    (hber : poll.phase.committed? = some ber) : s.commits poll.appId p = true := by
  simp [commits, hp, hber]

theorem commits_lt {app : Int} (h : s.commits app p = true) : p < s.polls.length := by
  obtain ⟨poll, _, hp, _⟩ := commits_eq h
  exact (List.getElem?_eq_some_iff.mp hp).1

theorem polls_setPhase {q : Nat} {poll poll' : Poll} {phase : PollPhase} (hp : s.polls[p]? = some poll)
    (hq : (s.setPhase p poll phase).polls[q]? = some poll') :
    (q = p ∧ poll' = { poll with phase }) ∨ (q ≠ p ∧ s.polls[q]? = some poll') := by
  simp only [setPhase] at hq
  by_cases he : p = q
  · subst he
    rw [List.getElem?_set_self (List.getElem?_eq_some_iff.mp hp).1] at hq
    exact Or.inl ⟨rfl, (Option.some.inj hq).symm⟩
  · rw [List.getElem?_set_ne he] at hq
    exact Or.inr ⟨Ne.symm he, hq⟩

theorem commits_setPhase {q : Nat} {poll : Poll} {phase : PollPhase} {app : Int}
    (hp : s.polls[p]? = some poll) (h : (s.setPhase p poll phase).commits app q = true) :
    (q = p ∧ poll.appId = app ∧ phase.committed?.isSome) ∨ (q ≠ p ∧ s.commits app q = true) := by
  obtain ⟨poll', ber, hq, happ, hber⟩ := commits_eq h
  rcases polls_setPhase hp hq with ⟨rfl, rfl⟩ | ⟨hne, hq⟩
  · exact Or.inl ⟨rfl, happ, by rw [hber]; rfl⟩
  · exact Or.inr ⟨hne, happ ▸ commits_of hq hber⟩

end PollSystem

open PollSystem

variable {s : PollSystem}

theorem Thawing.setPhase (h : Thawing s) {p : Nat} {poll : Poll} {phase : PollPhase}
    (hp : s.polls[p]? = some poll)
    (hcommit : phase.committed?.isSome → s.thaws poll.appId = 0 ∧ s.planner.inFlightReqs[poll.appId]? = none)
    (hheld : ∀ ber, phase.checked? = some ber ∨ phase.committed? = some ber → ber.appId = poll.appId) :
    Thawing (s.setPhase p poll phase) := by
  refine { h with waiting := fun app q hq => ?_, held := fun q poll' ber hq hber => ?_ }
  · rcases commits_setPhase hp hq with ⟨-, rfl, hsome⟩ | ⟨-, hold⟩
    · exact hcommit hsome
    · exact h.waiting app q hold
  · rcases polls_setPhase hp hq with ⟨-, rfl⟩ | ⟨-, hq⟩
    · exact hheld ber hber
    · exact h.held q poll' ber hq hber

theorem Thawing.leave (h : Thawing s) {p : Nat} {poll : Poll} {phase : PollPhase} (hp : s.polls[p]? = some poll)
    (hchecked : phase.checked? = none) (hcommitted : phase.committed? = none) :
    Thawing (s.setPhase p poll phase) :=
  h.setPhase hp (by simp [hcommitted]) (by simp [hchecked, hcommitted])

theorem Thawing.setThaws (h : Thawing s) {app : Int} {n : Nat} (hn : n ≤ 1)
    (hrun : n ≠ 0 → s.planner.inFlightReqs[app]?.isSome) : Thawing (s.setThaws app n) := by
  refine { h with once := fun app' => ?_, settled := fun app' ht => ?_, waiting := fun app' p hc => ?_ }
  · simp only [PollSystem.setThaws]
    split_ifs
    · exact hn
    · exact h.once app'
  · simp only [PollSystem.setThaws] at ht ⊢
    split_ifs at ht with ha
    · exact ha ▸ Or.inr (hrun ht)
    · exact h.settled app' ht
  · obtain ⟨hzero, hnone⟩ := h.waiting app' p hc
    refine ⟨?_, hnone⟩
    simp only [PollSystem.setThaws]
    split_ifs with ha
    · by_contra hne
      have hsome := hrun hne
      rw [← ha, hnone] at hsome
      cases hsome
    · exact hzero

theorem Thawing.of_planner (h : Thawing s) {planner : PlannerState} (hkeyed : AppsKeyed planner)
    (hsettled : ∀ app, s.thaws app ≠ 0 →
      s.planner.evictedRequests[app]? = none ∨ s.planner.inFlightReqs[app]?.isSome →
      planner.evictedRequests[app]? = none ∨ planner.inFlightReqs[app]?.isSome)
    (hwait : ∀ app p, s.commits app p = true → s.planner.inFlightReqs[app]? = none →
      planner.inFlightReqs[app]? = none) : Thawing { s with planner } :=
  { h with
    settled := fun app ht => hsettled app ht (h.settled app ht)
    waiting := fun app p hc => (h.waiting app p hc).imp_right (hwait app p hc)
    keyed := hkeyed }

section Frames

variable {s s' : PlannerState} {app : Int}

theorem MayReplace.other {app' : Int} {m m' : InFlightReqs} (h : MayReplace app m m') (hne : app ≠ app') :
    m'[app']? = m[app']? := by
  rcases h with rfl | ⟨pair, rfl, -⟩
  · rfl
  · rw [getElem?_insert_ite, if_neg hne]

theorem MayReplace.isSome {app' : Int} {m m' : InFlightReqs} (h : MayReplace app m m') (hs : m[app']?.isSome) :
    m'[app']?.isSome := by
  rcases h with rfl | ⟨pair, rfl, -⟩
  · exact hs
  · rw [getElem?_insert_ite]
    split_ifs
    · rfl
    · exact hs

theorem CallFrame.keyed {req : BatchExecuteRequest} {r : Except PlannerError SchedulingDecision}
    (h : CallFrame req s r s') (hk : AppsKeyed s) : AppsKeyed s' := by
  refine ⟨?_, ?_, h.preloads⟩
  · rcases h.inFlight with hi | ⟨new, hi, hnew⟩ <;> rw [hi]
    · exact hk.inFlight
    · refine forall_insert hk.inFlight ?_
      rcases hnew with hnew | ⟨old, hold, hnew⟩
      · exact hnew
      · exact hnew.trans (hk.inFlight _ old hold)
  · rcases h.evicted with he | ⟨he, -⟩ | ⟨-, old, hold, he⟩ <;> rw [he]
    · exact hk.evicted
    · exact forall_erase hk.evicted
    · exact forall_insert hk.evicted (hk.inFlight _ old hold)

theorem CallFrame.evicted_none {req : BatchExecuteRequest} {r : Except PlannerError SchedulingDecision}
    (h : CallFrame req s r s') (hfreeze : r = .ok MUST_FREEZE_DECISION → req.appId ≠ app)
    (hn : s.evictedRequests[app]? = none) : s'.evictedRequests[app]? = none := by
  rcases h.evicted with he | ⟨he, -⟩ | ⟨hr, old, -, he⟩ <;> rw [he]
  · exact hn
  · rw [getElem?_erase_ite, hn, ite_self]
  · rw [getElem?_insert_ite, if_neg (hfreeze hr)]
    exact hn

theorem ResultFrame.keyed {msg : Message} (h : ResultFrame msg s s') (hk : AppsKeyed s) : AppsKeyed s' := by
  refine ⟨?_, ?_, ?_⟩
  · rcases h.inFlight with hi | hi | ⟨old, new, hold, hi, hnew⟩ <;> rw [hi]
    · exact hk.inFlight
    · exact forall_erase hk.inFlight
    · exact forall_insert hk.inFlight (hnew.trans (hk.inFlight _ old hold))
  · rcases h.evicted with he | ⟨old, ms, hold, he⟩ <;> rw [he]
    · exact hk.evicted
    · have happ := hk.evicted _ old hold
      exact forall_insert hk.evicted happ
  · rcases h.preloads with hl | hl
    · exact hk.preloads.congr hl
    · exact hk.preloads.erase hl

theorem ResultFrame.evicted_none {msg : Message} (h : ResultFrame msg s s') (hn : s.evictedRequests[app]? = none) :
    s'.evictedRequests[app]? = none := by
  rcases h.evicted with he | ⟨ber, ms, hber, he⟩ <;> rw [he]
  · exact hn
  · rw [getElem?_insert_ite, if_neg]
    · exact hn
    · rintro rfl
      simp [hn] at hber

theorem ResultFrame.inFlight_none {msg : Message} (h : ResultFrame msg s s') (hn : s.inFlightReqs[app]? = none) :
    s'.inFlightReqs[app]? = none := by
  rcases h.inFlight with hi | hi | ⟨old, pair, hold, hi, -⟩ <;> rw [hi]
  · exact hn
  · rw [getElem?_erase_ite, hn, ite_self]
  · rw [getElem?_insert_ite, if_neg]
    · exact hn
    · rintro rfl
      simp [hn] at hold

theorem ResultFrame.other {msg : Message} (h : ResultFrame msg s s') (hne : msg.appId ≠ app) :
    s'.inFlightReqs[app]? = s.inFlightReqs[app]? := by
  rcases h.inFlight with hi | hi | ⟨old, pair, -, hi, -⟩ <;> rw [hi]
  · rw [getElem?_erase_ite, if_neg hne]
  · rw [getElem?_insert_ite, if_neg hne]

end Frames

theorem Thawing.call (h : Thawing s) (env : CallEnv) (req : BatchExecuteRequest)
    (hapart : s.planner.inFlightReqs[req.appId]?.isSome ∨
      (callBatch env req s.planner).2.inFlightReqs[req.appId]? = none ∨
      ∀ q, s.commits req.appId q = false) : Thawing (s.call env req) := by
  have hf := callBatch_frame env req h.keyed.preloads
  unfold PollSystem.call
  generalize callBatch env req s.planner = q at hf hapart
  obtain ⟨r, planner⟩ := q
  dsimp only at hf hapart ⊢
  have hwait (app : Int) (p : Nat) (hc : s.commits app p = true) (hnone : s.planner.inFlightReqs[app]? = none) :
      planner.inFlightReqs[app]? = none := by
    by_cases ha : req.appId = app
    · subst ha
      rcases hapart with hsome | hafter | hsole
      · simp [hnone] at hsome
      · exact hafter
      · simp [hsole p] at hc
    · rw [hf.inFlight.other ha]
      exact hnone
  split_ifs with hfreeze
  · have hzero : Thawing (s.setThaws req.appId 0) := h.setThaws (Nat.zero_le 1) fun hne => absurd rfl hne
    refine hzero.of_planner (hf.keyed h.keyed) (fun app ht => Or.imp (hf.evicted_none fun _ ha => ?_) hf.inFlight.isSome)
      hwait
    simp [PollSystem.setThaws, ha] at ht
  · exact h.of_planner (hf.keyed h.keyed) (fun app _ => Or.imp (hf.evicted_none fun hr => absurd hr hfreeze)
      hf.inFlight.isSome) hwait

theorem Thawing.unFreeze (h : Thawing s) {p : Nat} {poll : Poll} {ber : BatchExecuteRequest} (env : CallEnv)
    (hp : s.polls[p]? = some poll) (hber : poll.phase.committed? = some ber)
    (hapart : (callBatch env ber s.planner).2.inFlightReqs[poll.appId]? = none ∨ SoleCommit s poll.appId p) :
    Thawing (s.unFreeze p poll env ber) := by
  have happ := h.held p poll ber hp (Or.inr hber)
  obtain ⟨hzero, hnone⟩ := h.waiting _ p (commits_of hp hber)
  rw [← happ] at hzero hnone hapart
  unfold PollSystem.unFreeze
  dsimp only
  generalize hphase : (match (callBatch env ber s.planner).1 with
    | .error e => PollPhase.threw e
    | .ok _ => .returned (keepAlive poll.appId)) = phase
  have hleft : phase.checked? = none ∧ phase.committed? = none := by
    rw [← hphase]
    split <;> exact ⟨rfl, rfl⟩
  have h₂ : Thawing ((s.setPhase p poll phase).call env ber) := by
    refine (h.leave hp hleft.1 hleft.2).call env ber (Or.inr (hapart.imp id ?_))
    intro hsole q
    by_contra hc
    rw [Bool.not_eq_false] at hc
    rcases commits_setPhase hp hc with ⟨-, -, hsome⟩ | ⟨hne, hold⟩
    · simp [hleft.2] at hsome
    · rw [hsole q (List.mem_range.mpr (commits_lt hold)) hne] at hold
      exact absurd hold (by simp)
  have hread : (s.misread || decide (getDecisionType s.planner.inFlightReqs ber ≠ .new)) = false := by
    rw [h.read, getDecisionType_new hnone]
    rfl
  rw [hread]
  have hplanner : ((s.setPhase p poll phase).call env ber).planner =
      (callBatch env ber s.planner).2 := by
    unfold PollSystem.call
    dsimp only
    split_ifs <;> rfl
  generalize (s.setPhase p poll phase).call env ber = s₂ at h₂ hplanner
  split_ifs with hthaw
  · simp only [thaw, Bool.and_eq_true] at hthaw
    rw [← hplanner] at hthaw
    exact { h₂.setThaws (by omega) fun _ => hthaw.2 with read := rfl }
  · exact { h₂ with read := rfl }

theorem Thawing.result (h : Thawing s) (msg : Message)
    (hok : s.thaws msg.appId = 0 ∨ s.planner.evictedRequests[msg.appId]? = none ∨
      (setMessageResult msg s.planner).2.inFlightReqs[msg.appId]?.isSome) :
    Thawing (PollAction.step s (.setMessageResult msg)) := by
  have hf := setMessageResult_frame msg s.planner
  refine h.of_planner (hf.keyed h.keyed) (fun app ht hold => ?_) fun _ _ _ => hf.inFlight_none
  by_cases ha : msg.appId = app
  · subst ha
    rcases hok with hz | hn | hs
    · exact absurd hz ht
    · exact Or.inl (hf.evicted_none hn)
    · exact Or.inr hs
  · rw [hf.other ha]
    exact hold.imp_left hf.evicted_none

theorem thawing_step (s : PollSystem) (action : PollAction) (h : Thawing s)
    (hok : ThawsApart s action) : Thawing (action.step s) := by
  cases action with
  | getBatchResults appId =>
    have hpolls {p : Nat} {poll : Poll} (hp : (s.polls ++ [({ appId := appId } : Poll)])[p]? = some poll) :
        s.polls[p]? = some poll ∨ poll.phase = .asking := by
      exact (History.getElem?_snoc.mp hp).imp_right fun hnew => by rw [hnew.2]
    refine { h with waiting := fun app p hc => ?_, held := fun p poll ber hp hber => ?_ }
    · obtain ⟨poll, ber, hp, rfl, hber⟩ := commits_eq hc
      rcases hpolls hp with hp | hask
      · exact h.waiting _ p (commits_of hp hber)
      · simp [hask, PollPhase.committed?] at hber
    · rcases hpolls hp with hp | hask
      · exact h.held p poll ber hp hber
      · simp [hask, PollPhase.committed?, PollPhase.checked?] at hber
  | check p =>
    simp only [PollAction.step]
    cases hp : s.polls[p]? with
    | none => exact h
    | some poll =>
      dsimp only
      split_ifs
      · unfold PollSystem.check
        split
        · exact h.leave hp rfl rfl
        · exact h.leave hp rfl rfl
        · rename_i ber hber
          refine h.setPhase hp nofun fun ber' hb => ?_
          obtain rfl : ber = ber' := by simpa [PollPhase.checked?, PollPhase.committed?] using hb
          exact h.keyed.evicted _ _ (pollBatch_frozen hber).1
      · exact h
  | commit p =>
    simp only [PollAction.step]
    cases hp : s.polls[p]? with
    | none => exact h
    | some poll =>
      dsimp only
      cases hber : poll.phase.checked? with
      | none => exact h
      | some ber =>
        unfold PollSystem.commit
        split_ifs with hin
        · exact h.leave hp rfl rfl
        · have hnone : s.planner.inFlightReqs[poll.appId]? = none := by
            rw [Std.ExtTreeMap.contains_eq_isSome_getElem?] at hin
            simpa using hin
          refine h.setPhase hp (fun _ => ⟨?_, hnone⟩) fun ber' hb => ?_
          · rcases hok poll hp (by rw [hber]; rfl) hnone with hz | hev
            · exact hz
            · by_contra hz
              rcases h.settled _ hz with hn | hs
              · simp [hn] at hev
              · simp [hnone] at hs
          · obtain rfl : ber = ber' := by simpa [PollPhase.checked?, PollPhase.committed?] using hb
            exact h.held p poll _ hp (Or.inl hber)
  | unFreeze p env =>
    simp only [PollAction.step]
    cases hp : s.polls[p]? with
    | none => exact h
    | some poll =>
      dsimp only
      cases hber : poll.phase.committed? with
      | none => exact h
      | some ber => exact h.unFreeze env hp hber (hok poll hp ber hber)
  | setMessageResult msg => exact h.result msg hok
  | callBatch env req =>
    refine h.call env req (hok.imp id (Or.imp id ?_))
    intro hsole q
    by_contra hc
    rw [Bool.not_eq_false] at hc
    have hlt := commits_lt hc
    rw [hsole q (List.mem_range.mpr hlt) hlt.ne] at hc
    exact absurd hc (by simp)
  | setNextEvictedVm vmIps =>
    obtain ⟨-, hi, hp, he⟩ := setNextEvictedVm_books vmIps s.planner
    refine h.of_planner ⟨?_, ?_, h.keyed.preloads.congr hp⟩ ?_ ?_ <;> simp only [hi, he]
    · exact h.keyed.inFlight
    · exact h.keyed.evicted
    · exact fun _ _ => id
    · exact fun _ _ _ => id

theorem thawing_fresh {planner : PlannerState} (hi : planner.inFlightReqs = ∅)
    (he : planner.evictedRequests = ∅) (hp : planner.preloadedSchedulingDecisions = ∅) :
    Thawing { planner } where
  once _ := Nat.zero_le 1
  read := rfl
  settled _ h := absurd rfl h
  waiting _ p h := by simp [commits] at h
  held p poll ber h := by simp at h
  keyed := ⟨by simp [hi], by simp [he], by simp [PreloadsFixed, hp]⟩

/-- In every run whose steps keep the un-freezes apart, an app is un-frozen at most once
per freeze, and no un-freeze is taken for a change of an app in flight. -/
theorem pollers_un_freeze_once {planner : PlannerState} {actions : List PollAction}
    (hi : planner.inFlightReqs = ∅) (he : planner.evictedRequests = ∅)
    (hp : planner.preloadedSchedulingDecisions = ∅)
    (hok : GuardedRun.Meets PollAction.step ThawsApart { planner } actions) :
    (∀ app, (GuardedRun.run PollAction.step { planner } actions).thaws app ≤ 1) ∧
      (GuardedRun.run PollAction.step { planner } actions).misread = false := by
  have h := hok.invariant thawing_step (thawing_fresh hi he hp)
  exact ⟨h.once, h.read⟩

def frozenOnSpot (appId : Int) (messages : List Message) : List PollAction :=
  [.setNextEvictedVm {"A"},
   .callBatch {} { appId, type := .migration }] ++
  messages.map (fun m =>
    .setMessageResult { m with returnValue := FROZEN_FUNCTION_RETURN_VALUE, executedHost := "A" }) ++
  [.setNextEvictedVm ∅]

def frozenWorld : List PollAction :=
  [.callBatch {} (requestFor 1 [mpiRank 1 2 0]),
   .callBatch { newGroupId := 2 } (requestFor 1 [mpiRank 1 2 1])] ++
  frozenOnSpot 1 [mpiRank 1 2 0, mpiRank 1 2 1]

def pollersTakeTurns : List PollAction :=
  frozenWorld ++
  [.getBatchResults 1, .getBatchResults 1, .check 0, .check 1, .commit 0,
   .unFreeze 0 { newGroupId := 3 }, .commit 1,
   .callBatch { newGroupId := 4 } (requestFor 1 [mpiRank 1 2 1]),
   .getBatchResults 1, .check 2]

theorem pollers_un_freeze_once_turns :
    (GuardedRun.run PollAction.step { planner := plannerWith "spot" [hostWith "A" 2] }
      pollersTakeTurns).thaws 1 ≤ 1 ∧
    (GuardedRun.run PollAction.step { planner := plannerWith "spot" [hostWith "A" 2] }
      pollersTakeTurns).misread = false :=
  have h := @pollers_un_freeze_once (plannerWith "spot" [hostWith "A" 2]) pollersTakeTurns
    (by decide) (by decide) (by decide) (by decide +kernel)
  ⟨h.1 1, h.2⟩

/-- Both polls find the app frozen and not in flight, and the second one grows the app
that the first one restarted; and a plain function is restarted again after it finished. -/
theorem pollers_race :
    (GuardedRun.run PollAction.step { planner := plannerWith "spot" [hostWith "A" 2] }
      (frozenWorld ++
        [.getBatchResults 1, .getBatchResults 1, .check 0, .check 1, .commit 0, .commit 1,
         .unFreeze 0 { newGroupId := 3 }, .unFreeze 1 { newGroupId := 4 }])).misread = true ∧
    (GuardedRun.run PollAction.step { planner := plannerWith "spot" [hostWith "A" 1] }
      ([.callBatch {} (requestFor 1 [plainMessage 1 7])] ++ frozenOnSpot 1 [plainMessage 1 7] ++
        [.getBatchResults 1, .check 0, .commit 0, .unFreeze 0 { newGroupId := 2 },
         .setMessageResult { plainMessage 1 7 with executedHost := "A" },
         .getBatchResults 1, .check 1, .commit 1, .unFreeze 1 { newGroupId := 3 }])).thaws 1 = 2 := by
  refine ⟨by decide +kernel, by decide +kernel⟩

end Faabric
