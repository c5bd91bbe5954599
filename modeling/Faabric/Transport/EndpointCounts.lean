import Faabric.Lib.GuardedRun

/-! The endpoint pair of a point-to-point label. Threads look the pair up in a map of the host, count
themselves as its users, and the last one to reset its cache removes it: three steps that other threads
may come between. -/

namespace Faabric

open GuardedRun

/-- What a thread does next: `missed` has not found the label, `found` is going to count itself,
`dropping` is going to decrement the count and `erasing` to remove the label. -/
inductive EndpointPhase where
  | idle
  | missed
  | found (pair : Nat)
  | dropping (pair : Nat)
  | erasing
deriving Repr, DecidableEq

/-- `cached` says that `threadEndpoints` has the label, and `pair` is the pair that the thread has got
last. -/
structure EndpointThread where
  phase : EndpointPhase := .idle
  cached : Bool := false
  pair : Option Nat := none
deriving Repr, DecidableEq

/-- Pairs have numbers, in the order of their creation. -/
structure LabelEndpoints (T : Type) where
  endpoint : Option Nat := none
  refcount : Nat → Int := fun _ => 0
  created : Nat := 0
  threads : T → EndpointThread := fun _ => {}

inductive EndpointAction (T : Type) where
  | get (t : T)
  | tryEmplace (t : T)
  | count (t : T)
  | reset (t : T)
  | fetchSub (t : T)
  | erase (t : T)

variable {T : Type} [DecidableEq T]

def LabelEndpoints.setThread (s : LabelEndpoints T) (t : T) (thread : EndpointThread) : LabelEndpoints T :=
  { s with threads := Function.update s.threads t thread }

def LabelEndpoints.addCount (s : LabelEndpoints T) (pair : Nat) (n : Int) : LabelEndpoints T :=
  { s with refcount := Function.update s.refcount pair (s.refcount pair + n) }

def EndpointAction.step (s : LabelEndpoints T) : EndpointAction T → LabelEndpoints T
  | get t =>
    match (s.threads t).phase, s.endpoint with
    | .idle, some pair => s.setThread t { s.threads t with phase := .found pair }
    | .idle, none => s.setThread t { s.threads t with phase := .missed }
    | _, _ => s
  | tryEmplace t =>
    match (s.threads t).phase, s.endpoint with
    | .missed, some pair => s.setThread t { s.threads t with phase := .found pair }
    | .missed, none =>
      { s with
        endpoint := some s.created
        created := s.created + 1
        refcount := Function.update s.refcount s.created 0 }.setThread t
          { s.threads t with phase := .found s.created }
    | _, _ => s
  | count t =>
    match (s.threads t).phase, (s.threads t).cached with
    | .found pair, true => s.setThread t { s.threads t with phase := .idle, pair := some pair }
    | .found pair, false => (s.addCount pair 1).setThread t { phase := .idle, cached := true, pair := some pair }
    | _, _ => s
  | reset t =>
    match (s.threads t).phase, (s.threads t).cached, s.endpoint with
    | .idle, true, some pair => s.setThread t { s.threads t with phase := .dropping pair }
    | .idle, true, none => s.setThread t {}
    | _, _, _ => s
  | fetchSub t =>
    match (s.threads t).phase with
    | .dropping pair =>
      if s.refcount pair ≤ 1 then (s.addCount pair (-1)).setThread t { s.threads t with phase := .erasing }
      else (s.addCount pair (-1)).setThread t {}
    | _ => s
  | erase t =>
    match (s.threads t).phase with
    | .erasing => { s with endpoint := none }.setThread t {}
    | _ => s

/-- No thread looks for the label while another one is about to remove it, and the last count is not
given back while another thread has found the pair and is going to count itself. -/
def CountsApart (s : LabelEndpoints T) : EndpointAction T → Prop
  | .get t => (s.threads t).phase = .idle → ∀ u, (s.threads u).phase ≠ .erasing
  | .tryEmplace t => (s.threads t).phase = .missed → ∀ u, (s.threads u).phase ≠ .erasing
  | .fetchSub t => ∀ pair ∈ s.endpoint, (s.threads t).phase = .dropping pair → s.refcount pair ≤ 1 →
      ∀ u, (s.threads u).phase ≠ .found pair
  | _ => True

instance [Fintype T] (s : LabelEndpoints T) (action : EndpointAction T) : Decidable (CountsApart s action) := by
  cases action <;> unfold CountsApart <;> infer_instance

/-- What a thread knows of the pair in the map. -/
structure EndpointThread.Ok (endpoint : Option Nat) (thread : EndpointThread) : Prop where
  cached : thread.cached = true → ∃ pair, endpoint = some pair ∧ thread.pair = some pair
  found : ∀ pair, thread.phase = .found pair → endpoint = some pair
  dropping : ∀ pair, thread.phase = .dropping pair → endpoint = some pair ∧ thread.cached = true
  erasing : thread.phase = .erasing → thread.cached = true

def EndpointThread.Counted (thread : EndpointThread) : Prop := thread.cached = true ∧ thread.phase ≠ .erasing

/-- The pair in the map counts the threads with the label in their caches, but for the one that is about
to remove it, which is then the only one. -/
structure Shared (s : LabelEndpoints T) : Prop where
  threads : ∀ t, (s.threads t).Ok s.endpoint
  counted : ∃ users : List T, users.Nodup ∧ (∀ t, t ∈ users ↔ (s.threads t).Counted) ∧
    ∀ pair, s.endpoint = some pair → s.refcount pair = users.length
  alone : ∀ t u, (s.threads t).phase = .erasing → u ≠ t →
    (s.threads u).cached = false ∧ ∀ pair, (s.threads u).phase ≠ .found pair
  used : s.endpoint ≠ none → ∃ t, (s.threads t).cached = true ∨ ∃ pair, (s.threads t).phase = .found pair

namespace Shared

variable {s : LabelEndpoints T} {t : T} {pair : Nat} {thread : EndpointThread}

theorem threads_setThread (s : LabelEndpoints T) (t u : T) (thread : EndpointThread) :
    (s.setThread t thread).threads u = if u = t then thread else s.threads u := by
  simp [LabelEndpoints.setThread, Function.update_apply]

theorem ok_setThread (h : Shared s) (hok : thread.Ok s.endpoint) (u : T) :
    ((s.setThread t thread).threads u).Ok s.endpoint := by
  rw [threads_setThread]
  split_ifs
  · exact hok
  · exact h.threads u

theorem move (h : Shared s) (hok : thread.Ok s.endpoint) (hcached : thread.cached = (s.threads t).cached)
    (hold : (s.threads t).phase ≠ .erasing) (hnew : thread.phase ≠ .erasing)
    (hleft : ∀ pair, (s.threads t).phase = .found pair → thread.cached = true)
    (hfound : ∀ pair, thread.phase = .found pair → ∀ u, (s.threads u).phase ≠ .erasing) :
    Shared (s.setThread t thread) := by
  obtain ⟨users, hnodup, husers, hcount⟩ := h.counted
  refine ⟨h.ok_setThread hok, ⟨users, hnodup, fun u => ?_, hcount⟩, fun v u hv hne => ?_, fun hsome => ?_⟩
  · rw [threads_setThread, husers]
    split_ifs with hu
    · rw [hu, EndpointThread.Counted, EndpointThread.Counted, hcached]
      simp [hold, hnew]
    · rfl
  · rw [threads_setThread] at hv ⊢
    split_ifs at hv with hvt
    · exact absurd hv hnew
    · have halone := h.alone v
      split_ifs with hu
      · rw [hcached]
        exact ⟨(halone t hv (Ne.symm hvt)).1, fun pair hpair => hfound pair hpair v hv⟩
      · exact halone u hv hne
  · obtain ⟨u, hu⟩ := h.used hsome
    by_cases hut : u = t
    · subst hut
      refine ⟨u, Or.inl ?_⟩
      rw [threads_setThread, if_pos rfl]
      rcases hu with hu | ⟨pair, hu⟩
      · rw [hcached, hu]
      · exact hleft pair hu
    · exact ⟨u, by rwa [threads_setThread, if_neg hut]⟩

theorem create (h : Shared s) (hnone : s.endpoint = none)
    {refcount : Nat → Int} {created : Nat} (hzero : refcount pair = 0) :
    Shared (LabelEndpoints.setThread { s with endpoint := some pair, created, refcount } t
      { s.threads t with phase := .found pair }) := by
  -- no thread knows of a pair
  have hfree : ∀ u, (s.threads u).cached = false ∧ (∀ p, (s.threads u).phase ≠ .found p) ∧
      (∀ p, (s.threads u).phase ≠ .dropping p) ∧ (s.threads u).phase ≠ .erasing := by
    intro u
    obtain ⟨hcached, hfound, hdropping, herasing⟩ := h.threads u
    rw [hnone] at hcached hfound hdropping
    have hnot : (s.threads u).cached = false := by
      by_contra hc
      obtain ⟨p, hp, -⟩ := hcached (by simpa using hc)
      cases hp
    exact ⟨hnot, fun p hp => (nomatch hfound p hp), fun p hp => (nomatch (hdropping p hp).1),
      fun he => by simp [herasing he] at hnot⟩
  refine ⟨fun u => ?_, ⟨[], List.nodup_nil, fun u => ?_, fun p hp => ?_⟩, fun v u hv _ => ?_, fun _ => ⟨t, ?_⟩⟩
  · rw [threads_setThread]
    split_ifs with hu
    · exact ⟨fun hc => by simp [(hfree t).1] at hc, fun p hp => congrArg some (EndpointPhase.found.inj hp),
        nofun, nofun⟩
    · exact ⟨fun hc => by simp [(hfree u).1] at hc, fun p hp => absurd hp ((hfree u).2.1 p),
        fun p hp => absurd hp ((hfree u).2.2.1 p), fun hp => absurd hp (hfree u).2.2.2⟩
  · rw [threads_setThread, EndpointThread.Counted]
    split_ifs
    · simp [(hfree t).1]
    · simp [(hfree u).1]
  · obtain rfl := Option.some.inj hp
    exact hzero
  · rw [threads_setThread] at hv
    split_ifs at hv
    exact absurd hv (hfree v).2.2.2
  · exact Or.inr ⟨pair, by rw [threads_setThread, if_pos rfl]⟩

theorem countNew (h : Shared s) (hphase : (s.threads t).phase = .found pair) (hcached : (s.threads t).cached = false) :
    Shared ((s.addCount pair 1).setThread t { cached := true, pair := some pair }) := by
  obtain ⟨users, hnodup, husers, hcount⟩ := h.counted
  have hpair : s.endpoint = some pair := (h.threads t).found pair hphase
  have hnot : t ∉ users := fun hmem => by
    have := ((husers t).mp hmem).1
    simp [hcached] at this
  refine ⟨h.ok_setThread ⟨fun _ => ⟨pair, hpair, rfl⟩, nofun, nofun, nofun⟩,
    ⟨t :: users, List.nodup_cons.mpr ⟨hnot, hnodup⟩, fun u => ?_, fun p hp => ?_⟩,
    fun v u hv hne => ?_, fun _ => ⟨t, Or.inl ?_⟩⟩
  · rw [threads_setThread, List.mem_cons, husers]
    split_ifs with hu
    · simp [EndpointThread.Counted, hu]
    · simp [hu, LabelEndpoints.addCount]
  · obtain rfl := Option.some.inj (hpair.symm.trans hp)
    simp [LabelEndpoints.addCount, LabelEndpoints.setThread, hcount pair hpair]
  · rw [threads_setThread] at hv
    split_ifs at hv with hvt
    exact absurd hphase ((h.alone v t hv (Ne.symm hvt)).2 pair)
  · rw [threads_setThread, if_pos rfl]

omit [DecidableEq T] in
theorem not_erasing (h : Shared s) (hcached : (s.threads t).cached = true) {u : T} (hne : u ≠ t) :
    (s.threads u).phase ≠ .erasing := fun he => by
  simp [(h.alone u t he (Ne.symm hne)).1] at hcached

theorem uncount (h : Shared s) (hphase : (s.threads t).phase = .dropping pair) (hnot : ¬ thread.Counted) :
    ∃ users : List T, users.Nodup ∧ (∀ u, u ∈ users ↔ (s.threads u).Counted ∧ u ≠ t) ∧
      (∀ u, u ∈ users ↔ (((s.addCount pair (-1)).setThread t thread).threads u).Counted) ∧
      s.refcount pair = users.length + 1 ∧
      ∀ p, s.endpoint = some p → ((s.addCount pair (-1)).setThread t thread).refcount p = users.length := by
  obtain ⟨users, hnodup, husers, hcount⟩ := h.counted
  obtain ⟨hpair, hcached⟩ := (h.threads t).dropping pair hphase
  have hmem : t ∈ users := (husers t).mpr ⟨hcached, by simp [hphase]⟩
  have hlen := List.length_erase_of_mem hmem
  have hpos := List.length_pos_of_mem hmem
  have hrest : ∀ u, u ∈ users.erase t ↔ (s.threads u).Counted ∧ u ≠ t := fun u => by
    rw [hnodup.mem_erase_iff, husers, and_comm]
  have hold := hcount pair hpair
  refine ⟨users.erase t, hnodup.erase t, hrest, fun u => ?_, by omega, fun p hp => ?_⟩
  · rw [hrest, threads_setThread]
    split_ifs with hu
    · simp [hu, hnot]
    · simp [hu, LabelEndpoints.addCount]
  · obtain rfl := Option.some.inj (hpair.symm.trans hp)
    simp only [LabelEndpoints.addCount, LabelEndpoints.setThread, Function.update_self]
    omega

theorem drop (h : Shared s) (hphase : (s.threads t).phase = .dropping pair) (hlast : ¬ s.refcount pair ≤ 1) :
    Shared ((s.addCount pair (-1)).setThread t {}) := by
  obtain ⟨-, hcached⟩ := (h.threads t).dropping pair hphase
  obtain ⟨users, hnodup, hold, husers, hcount, hnew⟩ := h.uncount hphase
    (show ¬ EndpointThread.Counted {} from fun hc => nomatch hc.1)
  refine ⟨h.ok_setThread ⟨nofun, nofun, nofun, nofun⟩, ⟨users, hnodup, husers, hnew⟩, fun v u hv hne => ?_, fun _ => ?_⟩
  · rw [threads_setThread] at hv
    split_ifs at hv with hvt
    exact absurd hv (h.not_erasing hcached hvt)
  · obtain ⟨u, hu⟩ := List.exists_mem_of_length_pos (show 0 < users.length by omega)
    have hu' := (hold u).mp hu
    exact ⟨u, Or.inl (by rw [threads_setThread, if_neg hu'.2]; exact hu'.1.1)⟩

theorem dropLast (h : Shared s) (hphase : (s.threads t).phase = .dropping pair) (hlast : s.refcount pair ≤ 1)
    (hok : ∀ u, (s.threads u).phase ≠ .found pair) :
    Shared ((s.addCount pair (-1)).setThread t { s.threads t with phase := .erasing }) := by
  obtain ⟨hpair, hcached⟩ := (h.threads t).dropping pair hphase
  obtain ⟨users, hnodup, hold, husers, hcount, hnew⟩ := @uncount _ _ s t pair
    { s.threads t with phase := .erasing } h hphase fun hc => hc.2 rfl
  have hnone : users = [] := List.length_eq_zero_iff.mp (by omega)
  refine ⟨h.ok_setThread ⟨(h.threads t).cached, nofun, nofun, fun _ => hcached⟩, ⟨users, hnodup, husers, hnew⟩,
    fun v u hv hne => ?_, fun _ => ⟨t, Or.inl ?_⟩⟩
  · rw [threads_setThread] at hv
    split_ifs at hv with hvt
    · rw [threads_setThread, if_neg (hvt ▸ hne)]
      have hne : u ≠ t := hvt ▸ hne
      refine ⟨?_, fun p hp => ?_⟩
      · by_contra hc
        have hmem := (hold u).mpr ⟨⟨Bool.not_eq_false _ ▸ hc, h.not_erasing hcached hne⟩, hne⟩
        rw [hnone] at hmem
        cases hmem
      · obtain rfl := Option.some.inj (hpair.symm.trans ((h.threads u).found p hp))
        exact hok u hp
    · exact absurd hv (h.not_erasing hcached hvt)
  · rw [threads_setThread, if_pos rfl]
    exact hcached

theorem erase (h : Shared s) (hphase : (s.threads t).phase = .erasing) :
    Shared (LabelEndpoints.setThread { s with endpoint := none } t {}) := by
  have hothers := fun u hne => h.alone t u hphase hne
  have hcached : ∀ u, ((LabelEndpoints.setThread { s with endpoint := none } t {}).threads u).cached = false := by
    intro u
    rw [threads_setThread]
    split_ifs with hu
    · rfl
    · exact (hothers u hu).1
  have hquiet : ∀ u, u ≠ t → (∀ p, (s.threads u).phase ≠ .dropping p) ∧ (s.threads u).phase ≠ .erasing := by
    refine fun u hne => ⟨fun p hp => ?_, h.not_erasing ((h.threads t).erasing hphase) hne⟩
    have hc := ((h.threads u).dropping p hp).2
    simp [(hothers u hne).1] at hc
  refine ⟨fun u => ?_, ⟨[], List.nodup_nil, fun u => ?_, nofun⟩, fun v u hv hne => ?_,
    fun hsome => absurd rfl hsome⟩
  · refine ⟨fun hc => by simp [hcached u] at hc, ?_, ?_, ?_⟩ <;> rw [threads_setThread] <;> split_ifs with hu
    · exact nofun
    · exact fun p hp => absurd hp ((hothers u hu).2 p)
    · exact nofun
    · exact fun p hp => absurd hp ((hquiet u hu).1 p)
    · exact nofun
    · exact fun hp => absurd hp (hquiet u hu).2
  · simp [EndpointThread.Counted, hcached u]
  · rw [threads_setThread] at hv
    split_ifs at hv with hvt
    exact absurd hv (hquiet v hvt).2

theorem find (h : Shared s) (hpair : s.endpoint = some pair)
    (hphase : (s.threads t).phase = .idle ∨ (s.threads t).phase = .missed)
    (hok : ∀ u, (s.threads u).phase ≠ .erasing) :
    Shared (s.setThread t { s.threads t with phase := .found pair }) :=
  h.move ⟨(h.threads t).cached, fun p hp => hpair.trans (congrArg some (EndpointPhase.found.inj hp)),
    nofun, nofun⟩ rfl (hok t) nofun
    (fun p hp => by rcases hphase with hphase | hphase <;> simp [hphase] at hp) fun _ _ => hok

theorem step (h : Shared s) {action : EndpointAction T} (hok : CountsApart s action) : Shared (action.step s) := by
  cases action with
  | get t =>
    rcases hphase : (s.threads t).phase with _ | _ | _ | _ | _ <;> rcases hpair : s.endpoint with _ | pair <;>
      simp only [EndpointAction.step, hphase, hpair] <;> try exact h
    · exact h.move ⟨(h.threads t).cached, nofun, nofun, nofun⟩ rfl (by simp [hphase]) nofun
        (fun p hp => by simp [hphase] at hp) nofun
    · exact h.find hpair (Or.inl hphase) (hok hphase)
  | tryEmplace t =>
    rcases hphase : (s.threads t).phase with _ | _ | _ | _ | _ <;> rcases hpair : s.endpoint with _ | pair <;>
      simp only [EndpointAction.step, hphase, hpair] <;> try exact h
    · exact h.create hpair (Function.update_self _ _ _)
    · exact h.find hpair (Or.inr hphase) (hok hphase)
  | count t =>
    rcases hphase : (s.threads t).phase with _ | _ | pair | _ | _ <;> rcases hcached : (s.threads t).cached <;>
      simp only [EndpointAction.step, hphase, hcached] <;> try exact h
    · exact h.countNew hphase hcached
    · have hpair := (h.threads t).found pair hphase
      exact h.move ⟨fun _ => ⟨pair, hpair, rfl⟩, nofun, nofun, nofun⟩ hcached.symm (by simp [hphase]) nofun
        (fun _ _ => rfl) nofun
  | reset t =>
    rcases hphase : (s.threads t).phase with _ | _ | _ | _ | _ <;> rcases hcached : (s.threads t).cached <;>
      rcases hpair : s.endpoint with _ | pair <;> simp only [EndpointAction.step, hphase, hcached, hpair] <;>
      try exact h
    · obtain ⟨p, hp, -⟩ := (h.threads t).cached hcached
      cases hpair.symm.trans hp
    · exact h.move ⟨fun _ => (h.threads t).cached hcached, nofun,
        fun p hp => ⟨hpair.trans (congrArg some (EndpointPhase.dropping.inj hp)), rfl⟩, nofun⟩
        hcached.symm (by simp [hphase]) nofun (fun _ _ => rfl) nofun
  | fetchSub t =>
    rcases hphase : (s.threads t).phase with _ | _ | _ | pair | _ <;> simp only [EndpointAction.step, hphase] <;>
      try exact h
    split_ifs with hlast
    · exact h.dropLast hphase hlast (hok pair ((h.threads t).dropping pair hphase).1 hphase hlast)
    · exact h.drop hphase hlast
  | erase t =>
    rcases hphase : (s.threads t).phase with _ | _ | _ | _ | _ <;> simp only [EndpointAction.step, hphase] <;>
      try exact h
    exact h.erase hphase

end Shared

/-- In every run in which lookups, counts and removals keep apart, all threads that have the label in
their caches have got the pair that is in the map, and there is none when all threads have reset. -/
theorem endpoint_pair_shared {actions : List (EndpointAction T)}
    (h : GuardedRun.Meets EndpointAction.step CountsApart ({} : LabelEndpoints T) actions) :
    (∀ t, ((run EndpointAction.step ({} : LabelEndpoints T) actions).threads t).cached = true →
      ∃ pair, (run EndpointAction.step ({} : LabelEndpoints T) actions).endpoint = some pair ∧
        ((run EndpointAction.step ({} : LabelEndpoints T) actions).threads t).pair = some pair) ∧
      ((∀ t, (run EndpointAction.step ({} : LabelEndpoints T) actions).threads t = {}) →
        (run EndpointAction.step ({} : LabelEndpoints T) actions).endpoint = none) := by
  have hstart : Shared ({} : LabelEndpoints T) :=
    ⟨fun _ => ⟨nofun, nofun, nofun, nofun⟩,
      ⟨[], List.nodup_nil, fun _ => by simp [EndpointThread.Counted], nofun⟩, nofun, fun hsome => absurd rfl hsome⟩
  have hend := h.invariant (fun _ _ hs hok => hs.step hok) hstart
  refine ⟨fun t => (hend.threads t).cached, fun hreset => ?_⟩
  by_contra hsome
  obtain ⟨t, ht⟩ := hend.used hsome
  simp [hreset t] at ht

def useAndReset : List (EndpointAction Bool) :=
  [.get false, .get true, .tryEmplace false, .count false, .tryEmplace true, .count true, .get false, .count false,
    .reset false, .fetchSub false, .reset true, .fetchSub true, .erase true]

theorem endpoint_pair_shared_two :
    (∀ t, ((run EndpointAction.step {} useAndReset).threads t).cached = true →
      ∃ pair, (run EndpointAction.step {} useAndReset).endpoint = some pair ∧
        ((run EndpointAction.step {} useAndReset).threads t).pair = some pair) ∧
      ((∀ t, (run EndpointAction.step {} useAndReset).threads t = {}) →
        (run EndpointAction.step {} useAndReset).endpoint = none) :=
  endpoint_pair_shared (by decide +kernel)

/-- Thread 1 has found the pair and not yet counted itself when thread 0 removes it. Thread 2 then gets
another pair. -/
theorem counted_pair_removed :
    let s := run EndpointAction.step ({} : LabelEndpoints (Fin 3))
      [.get 0, .tryEmplace 0, .count 0, .get 1, .reset 0, .fetchSub 0, .erase 0, .count 1, .get 2, .tryEmplace 2,
        .count 2]
    (s.threads 1).cached = true ∧ (s.threads 2).cached = true ∧ (s.threads 1).pair = some 0 ∧
      (s.threads 2).pair = some 1 ∧ s.endpoint = some 1 := by
  decide +kernel

end Faabric
