import Mathlib

/-! Deterministic processes that exchange messages over unbounded FIFO channels, one for each ordered pair of them.
Steps of different processes commute, so all interleavings end in the same state if one of them ends. -/

namespace Network

open Function

universe u

inductive Process (ρ μ ε α : Type u) : Type u where
  | done (result : α)
  | send (dest : ρ) (message : μ) (next : Process ρ μ ε α)
  | recv (source : ρ) (next : μ → Process ρ μ ε α)
  | note (event : ε) (next : Process ρ μ ε α)

structure Net (ρ μ ε α : Type u) where
  procs : ρ → Process ρ μ ε α
  chan : ρ × ρ → List μ
  log : ρ → List ε

variable {ρ μ ε α β : Type u}

variable {s : Net ρ μ ε α}

@[ext] theorem Net.ext' {t : Net ρ μ ε α} (hp : s.procs = t.procs) (hc : s.chan = t.chan) (hl : s.log = t.log) :
    s = t := by
  cases s
  cases t
  simp_all

namespace Process

def bind (p : Process ρ μ ε α) (k : α → Process ρ μ ε β) : Process ρ μ ε β :=
  match p with
  | .done a => k a
  | .send dest m next => .send dest m (next.bind k)
  | .recv source next => .recv source fun m => (next m).bind k
  | .note e next => .note e (next.bind k)

@[simp] theorem done_bind (a : α) (k : α → Process ρ μ ε β) : (done a : Process ρ μ ε α).bind k = k a := rfl

@[simp] theorem send_bind (dest : ρ) (m : μ) (p : Process ρ μ ε α) (k : α → Process ρ μ ε β) :
    (send dest m p).bind k = send dest m (p.bind k) := rfl

@[simp] theorem recv_bind (source : ρ) (p : μ → Process ρ μ ε α) (k : α → Process ρ μ ε β) :
    (recv source p).bind k = recv source fun m => (p m).bind k := rfl

@[simp] theorem note_bind (e : ε) (p : Process ρ μ ε α) (k : α → Process ρ μ ε β) :
    (note e p).bind k = note e (p.bind k) := rfl

theorem bind_assoc {γ : Type u} (p : Process ρ μ ε α) (k : α → Process ρ μ ε β) (l : β → Process ρ μ ε γ) :
    (p.bind k).bind l = p.bind fun a => (k a).bind l := by
  induction p with
  | done a => rfl
  | send dest m next ih => simp [ih]
  | recv source next ih => simp [ih]
  | note e next ih => simp [ih]

def sendAll (dests : List ρ) (message : ρ → μ) (next : Process ρ μ ε α) : Process ρ μ ε α :=
  dests.foldr (fun dest => .send dest (message dest)) next

def forEach {ι : Type*} (body : ι → α → Process ρ μ ε α) : List ι → α → Process ρ μ ε α
  | [], a => .done a
  | i :: is, a => (body i a).bind (forEach body is)

end Process

variable [DecidableEq ρ]

def Net.step (s : Net ρ μ ε α) (r : ρ) : Option (Net ρ μ ε α) :=
  match s.procs r with
  | .done _ => none
  | .send dest m next =>
    some { s with
      procs := update s.procs r next
      chan := update s.chan (r, dest) (s.chan (r, dest) ++ [m]) }
  | .recv source next =>
    match s.chan (source, r) with
    | [] => none
    | m :: rest =>
      some { s with
        procs := update s.procs r (next m)
        chan := update s.chan (source, r) rest }
  | .note e next =>
    some { s with
      procs := update s.procs r next
      log := update s.log r (s.log r ++ [e]) }

inductive Run : Nat → Net ρ μ ε α → Net ρ μ ε α → Prop where
  | refl (s : Net ρ μ ε α) : Run 0 s s
  | cons {n : Nat} {s t u : Net ρ μ ε α} {r : ρ} (h : s.step r = some t) (hrun : Run n t u) : Run (n + 1) s u

section Steps

variable {s t u : Net ρ μ ε α} {r r' : ρ}

theorem step_cases (h : s.step r = some t) :
    (∃ dest m next, s.procs r = .send dest m next ∧
      t = ⟨update s.procs r next, update s.chan (r, dest) (s.chan (r, dest) ++ [m]), s.log⟩) ∨
    (∃ source m rest next, s.procs r = .recv source next ∧ s.chan (source, r) = m :: rest ∧
      t = ⟨update s.procs r (next m), update s.chan (source, r) rest, s.log⟩) ∨
    ∃ e next, s.procs r = .note e next ∧
      t = ⟨update s.procs r next, s.chan, update s.log r (s.log r ++ [e])⟩ := by
  rw [Net.step] at h
  split at h
  · cases h
  · rename_i dest m next hp
    exact Or.inl ⟨dest, m, next, hp, (Option.some.inj h).symm⟩
  · rename_i source next hp
    split at h
    · cases h
    · rename_i m rest hc
      exact Or.inr (Or.inl ⟨source, m, rest, next, hp, hc, (Option.some.inj h).symm⟩)
  · rename_i e next hp
    exact Or.inr (Or.inr ⟨e, next, hp, (Option.some.inj h).symm⟩)

theorem step_send {dest : ρ} {m : μ} {next : Process ρ μ ε α} (hp : s.procs r = .send dest m next) :
    s.step r = some ⟨update s.procs r next,
      update s.chan (r, dest) (s.chan (r, dest) ++ [m]), s.log⟩ := by
  rw [Net.step, hp]

theorem step_recv {source : ρ} {m : μ} {rest : List μ} {next : μ → Process ρ μ ε α}
    (hp : s.procs r = .recv source next) (hc : s.chan (source, r) = m :: rest) :
    s.step r = some ⟨update s.procs r (next m), update s.chan (source, r) rest, s.log⟩ := by
  rw [Net.step, hp]
  simp only [hc]

theorem step_note {e : ε} {next : Process ρ μ ε α} (hp : s.procs r = .note e next) :
    s.step r = some ⟨update s.procs r next, s.chan, update s.log r (s.log r ++ [e])⟩ := by
  rw [Net.step, hp]

theorem step_procs (h : s.step r = some t) (hne : r' ≠ r) : t.procs r' = s.procs r' := by
  rcases step_cases h with ⟨_, _, _, _, rfl⟩ | ⟨_, _, _, _, _, _, rfl⟩ | ⟨_, _, _, rfl⟩ <;> simp [hne]

theorem send_recv_comm (hne : r ≠ r') {d i : ρ} {m m' : μ} {rest : List μ} {p : Process ρ μ ε α}
    {p' : μ → Process ρ μ ε α} (hp : s.procs r = .send d m p) (hp' : s.procs r' = .recv i p')
    (hc : s.chan (i, r') = m' :: rest) (h : s.step r = some t) (h' : s.step r' = some u) :
    ∃ v, t.step r' = some v ∧ u.step r = some v := by
  have hr' : t.procs r' = .recv i p' := (step_procs h hne.symm).trans hp'
  have hr : u.procs r = .send d m p := (step_procs h' hne).trans hp
  rw [step_send hp, Option.some.injEq] at h
  rw [step_recv hp' hc, Option.some.injEq] at h'
  by_cases hpair : (i, r') = (r, d)
  · have hc' : t.chan (i, r') = m' :: (rest ++ [m]) := by
      rw [hpair] at hc ⊢
      simp [← h, hc]
    refine ⟨_, step_recv hr' hc', ?_⟩
    rw [step_send hr, ← h, ← h']
    simp [hpair, update_comm hne]
  · have hc' : t.chan (i, r') = m' :: rest := by simp [← h, hpair, hc]
    refine ⟨_, step_recv hr' hc', ?_⟩
    rw [step_send hr, ← h, ← h']
    simp [Ne.symm hpair, update_comm hne, update_comm hpair]

theorem note_comm (hne : r ≠ r') {e : ε} {p : Process ρ μ ε α} (hp : s.procs r = .note e p)
    (h : s.step r = some t) (h' : s.step r' = some u) : ∃ v, t.step r' = some v ∧ u.step r = some v := by
  have hr' := step_procs h hne.symm
  have hr : u.procs r = .note e p := (step_procs h' hne).trans hp
  rw [step_note hp, Option.some.injEq] at h
  rcases step_cases h' with ⟨d', m', p', hp', hu⟩ | ⟨i', m', rest', p', hp', hc', hu⟩ | ⟨e', p', hp', hu⟩
  · refine ⟨_, step_send (hr'.trans hp'), ?_⟩
    rw [step_note hr, ← h, hu]
    simp [update_comm hne]
  · have hchan : t.chan (i', r') = m' :: rest' := by rw [← h, hc']
    refine ⟨_, step_recv (hr'.trans hp') hchan, ?_⟩
    rw [step_note hr, ← h, hu]
    simp [update_comm hne]
  · refine ⟨_, step_note (hr'.trans hp'), ?_⟩
    rw [step_note hr, ← h, hu]
    simp [hne, hne.symm, update_comm hne]

theorem step_comm (hne : r ≠ r') (h : s.step r = some t) (h' : s.step r' = some u) :
    ∃ v, t.step r' = some v ∧ u.step r = some v := by
  rcases step_cases h with ⟨d, m, p, hp, ht⟩ | ⟨i, m, rest, p, hp, hc, ht⟩ | ⟨e, p, hp, ht⟩
  · rcases step_cases h' with ⟨d', m', p', hp', hu⟩ | ⟨i', m', rest', p', hp', hc', hu⟩ | ⟨e', p', hp', hu⟩
    · have hpair : (r, d) ≠ (r', d') := fun heq => hne (Prod.ext_iff.mp heq).1
      refine ⟨_, step_send ((step_procs h hne.symm).trans hp'), ?_⟩
      rw [step_send ((step_procs h' hne).trans hp), ht, hu]
      simp [hpair, hpair.symm, update_comm hne, update_comm hpair]
    · exact send_recv_comm hne hp hp' hc' h h'
    · obtain ⟨v, hv, hv'⟩ := note_comm hne.symm hp' h' h
      exact ⟨v, hv', hv⟩
  · rcases step_cases h' with ⟨d', m', p', hp', hu⟩ | ⟨i', m', rest', p', hp', hc', hu⟩ | ⟨e', p', hp', hu⟩
    · obtain ⟨v, hv, hv'⟩ := send_recv_comm hne.symm hp' hp hc h' h
      exact ⟨v, hv', hv⟩
    · have hpair : (i, r) ≠ (i', r') := fun heq => hne (Prod.ext_iff.mp heq).2
      have hchan' : t.chan (i', r') = m' :: rest' := by simp [ht, hpair.symm, hc']
      have hchan : u.chan (i, r) = m :: rest := by simp [hu, hpair, hc]
      refine ⟨_, step_recv ((step_procs h hne.symm).trans hp') hchan', ?_⟩
      rw [step_recv ((step_procs h' hne).trans hp) hchan, ht, hu]
      simp [update_comm hne, update_comm hpair]
    · obtain ⟨v, hv, hv'⟩ := note_comm hne.symm hp' h' h
      exact ⟨v, hv', hv⟩
  · exact note_comm hne hp h h'

theorem step_log (h : s.step r = some t) (q : ρ) : s.log q <+: t.log q := by
  rcases step_cases h with ⟨_, _, _, _, rfl⟩ | ⟨_, _, _, _, _, _, rfl⟩ | ⟨e, _, _, rfl⟩
  · exact List.prefix_rfl
  · exact List.prefix_rfl
  · by_cases hq : q = r
    · subst hq
      simp
    · simp [hq]

end Steps

/-! Runs. -/

def Net.Stuck (s : Net ρ μ ε α) : Prop := ∀ r, s.step r = none

section Runs

variable {s t u : Net ρ μ ε α} {m n : Nat}

theorem Run.single {r : ρ} (h : s.step r = some t) (heq : t = u) : Run 1 s u := heq ▸ Run.cons h (Run.refl t)

theorem Run.append (h : Run m s t) (h' : Run n t u) : Run (m + n) s u := by
  induction h with
  | refl s => simpa using h'
  | @cons k s t _ r hstep _ ih =>
    rw [Nat.add_right_comm]
    exact Run.cons hstep (ih h')

theorem Run.log_prefix (h : Run n s t) (r : ρ) : s.log r <+: t.log r := by
  induction h with
  | refl s => exact List.prefix_rfl
  | cons hstep _ ih => exact (step_log hstep r).trans ih

theorem Run.after_step {r : ρ} (h : Run n s t) (hstuck : t.Stuck) (hstep : s.step r = some u) :
    ∃ k, n = k + 1 ∧ Run k u t := by
  induction h generalizing u with
  | refl s =>
    rw [hstuck r] at hstep
    cases hstep
  | @cons k s s' t r' hfirst hrest ih =>
    by_cases hr : r = r'
    · subst hr
      rw [hfirst, Option.some.injEq] at hstep
      exact ⟨k, rfl, hstep ▸ hrest⟩
    · obtain ⟨v, hu, hs'⟩ := step_comm hr hstep hfirst
      obtain ⟨j, rfl, hj⟩ := ih hstuck hs'
      exact ⟨j + 1, rfl, Run.cons hu hj⟩

/-- Every run goes on to the state in which one run has ended, and is no longer than it. -/
theorem Run.confluent (h : Run n s t) (hstuck : t.Stuck) (hu : Run m s u) : ∃ k, n = m + k ∧ Run k u t := by
  induction hu generalizing n with
  | refl s => exact ⟨n, by omega, h⟩
  | cons hstep _ ih =>
    obtain ⟨k, rfl, hk⟩ := h.after_step hstuck hstep
    obtain ⟨j, rfl, hj⟩ := ih hk
    exact ⟨j, by omega, hj⟩

theorem Run.join_step {r : ρ} (h : Run n s t) (hstep : s.step r = some u) :
    ∃ v k l, Run k t v ∧ Run l u v ∧ k ≤ 1 := by
  induction h generalizing u with
  | refl s => exact ⟨u, 1, 0, Run.cons hstep (Run.refl u), Run.refl u, le_rfl⟩
  | @cons k s s' t r' hfirst hrest ih =>
    by_cases hr : r = r'
    · subst hr
      rw [hfirst, Option.some.injEq] at hstep
      exact ⟨t, 0, k, Run.refl t, hstep ▸ hrest, Nat.zero_le 1⟩
    · obtain ⟨v, hu, hs'⟩ := step_comm hr hstep hfirst
      obtain ⟨w, i, j, hw, hv, hi⟩ := ih hs'
      exact ⟨w, i, j + 1, hw, Run.cons hu hv, hi⟩

theorem Run.join (h : Run n s t) (hu : Run m s u) : ∃ v k l, Run k t v ∧ Run l u v := by
  induction hu generalizing n t with
  | refl s => exact ⟨t, 0, n, Run.refl t, h⟩
  | @cons i s s' u r hstep hrest ih =>
    obtain ⟨v, k, l, htv, hs'v, -⟩ := h.join_step hstep
    obtain ⟨w, k', l', hvw, huw⟩ := ih hs'v
    exact ⟨w, k + k', l', htv.append hvw, huw⟩

end Runs

/-! What a process does when it is given one message from each of its sources. -/

namespace Process

/-- With the given messages, the process receives from the inputs, sends the outputs and ends with a result. -/
inductive Trace (given : ρ → μ) : Process ρ μ ε α → List ρ → List (ρ × μ) → α → Prop
  | done (a : α) : Trace given (.done a) [] [] a
  | send {p : Process ρ μ ε α} {ins : List ρ} {outs : List (ρ × μ)} {a : α} (h : Trace given p ins outs a) (dest : ρ)
      (m : μ) : Trace given (.send dest m p) ins ((dest, m) :: outs) a
  | recv {source : ρ} {next : μ → Process ρ μ ε α} {ins : List ρ} {outs : List (ρ × μ)} {a : α}
      (h : Trace given (next (given source)) ins outs a) : Trace given (.recv source next) (source :: ins) outs a

namespace Trace

omit [DecidableEq ρ]

variable {given : ρ → μ} {p : Process ρ μ ε α} {k : α → Process ρ μ ε β} {ins ins' : List ρ} {outs outs' : List (ρ × μ)}
  {a : α} {b : β}

theorem bind (h : p.Trace given ins outs a) (h' : (k a).Trace given ins' outs' b) :
    (p.bind k).Trace given (ins ++ ins') (outs ++ outs') b := by
  induction h with
  | done a => exact h'
  | send _ dest m ih => exact (ih h').send dest m
  | recv _ ih => exact (ih h').recv

theorem map (h : p.Trace given ins outs a) (f : α → β) : (p.bind fun a => .done (f a)).Trace given ins outs (f a) := by
  let k (a : α) : Process ρ μ ε β := .done (f a)
  have hbind : (p.bind k).Trace given (ins ++ []) (outs ++ []) (f a) := h.bind (done (f a))
  simpa using hbind

theorem sendAll (h : p.Trace given ins outs a) (dests : List ρ) (message : ρ → μ) :
    (Process.sendAll dests message p).Trace given ins (dests.map (fun d => (d, message d)) ++ outs) a := by
  induction dests with
  | nil => exact h
  | cons d dests ih => exact ih.send d (message d)

theorem forEach {ι : Type*} {body : ι → α → Process ρ μ ε α} {sources : ι → List ρ} {sent : ι → List (ρ × μ)}
    {f : α → ι → α} {l : List ι} (h : ∀ i ∈ l, ∀ a, (body i a).Trace given (sources i) (sent i) (f a i)) (a : α) :
    (Process.forEach body l a).Trace given (l.flatMap sources) (l.flatMap sent) (l.foldl f a) := by
  induction l generalizing a with
  | nil => exact done a
  | cons i l ih =>
    have hrest := ih fun j hj => h j (List.mem_cons_of_mem i hj)
    exact (h i List.mem_cons_self a).bind (hrest (f a i))

end Trace

end Process

def sentTo (dest : ρ) (outputs : List (ρ × μ)) : List μ :=
  outputs.filterMap fun o => if o.1 = dest then some o.2 else none

theorem sentTo_cons (dest : ρ) (o : ρ × μ) (outputs : List (ρ × μ)) :
    sentTo dest (o :: outputs) = (if o.1 = dest then [o.2] else []) ++ sentTo dest outputs := by
  unfold sentTo
  split_ifs with h <;> simp [h]

theorem sentTo_map {f : ρ → μ} {dests : List ρ} (hnd : dests.Nodup) (dest : ρ) :
    sentTo dest (dests.map fun j => (j, f j)) = if dest ∈ dests then [f dest] else [] := by
  induction dests with
  | nil => rfl
  | cons j dests ih =>
    obtain ⟨hnot, hrest⟩ := List.nodup_cons.mp hnd
    rw [List.map_cons, sentTo_cons, ih hrest]
    by_cases hj : j = dest
    · subst hj
      simp [hnot]
    · simp [hj, Ne.symm hj]

def Net.finish (s : Net ρ μ ε α) (r : ρ) (ins : List ρ) (outs : List (ρ × μ)) (a : α) : Net ρ μ ε α where
  procs := update s.procs r (.done a)
  chan pair :=
    (if pair.2 = r ∧ pair.1 ∈ ins then (s.chan pair).tail else s.chan pair) ++
      if pair.1 = r then sentTo pair.2 outs else []
  log := s.log

theorem run_alone {r : ρ} {given : ρ → μ} {p : Process ρ μ ε α} {ins : List ρ} {outs : List (ρ × μ)} {a : α}
    (h : p.Trace given ins outs a) (hp : s.procs r = p) (hself : r ∉ ins) (hnd : ins.Nodup)
    (hin : ∀ i ∈ ins, (s.chan (i, r)).head? = some (given i)) : ∃ n, Run n s (s.finish r ins outs a) := by
  induction h generalizing s with
  | done a =>
    refine ⟨0, ?_⟩
    have hsame : s.finish r [] [] a = s := by
      ext1
      · simp [Net.finish, ← hp]
      · funext pair
        simp [Net.finish, sentTo]
      · rfl
    rw [hsame]
    exact Run.refl s
  | @send next ins outs a _ dest m ih =>
    obtain ⟨n, hrun⟩ := @ih ⟨update s.procs r next,
        update s.chan (r, dest) (s.chan (r, dest) ++ [m]), s.log⟩ (by simp) hself hnd (by
      intro i hi
      have hne : (i, r) ≠ (r, dest) := by
        intro heq
        obtain rfl : i = r := (Prod.ext_iff.mp heq).1
        exact hself hi
      simpa [hne] using hin i hi)
    refine ⟨n + 1, Run.cons (step_send hp) ?_⟩
    convert hrun using 1
    ext1
    · simp [Net.finish]
    · funext pair
      obtain ⟨i, j⟩ := pair
      simp only [Net.finish, sentTo_cons]
      by_cases hi : i = r
      · subst hi
        by_cases hj : dest = j
        · subst hj
          simp [hself]
        · have hne : (i, j) ≠ (i, dest) := fun heq => hj (Prod.ext_iff.mp heq).2.symm
          simp [hself, hj, hne]
      · have hne : (i, j) ≠ (r, dest) := fun heq => hi (Prod.ext_iff.mp heq).1
        rw [update_of_ne hne]
        simp only [hi, if_false, List.append_nil]
    · rfl
  | @recv source next ins outs a _ ih =>
    have hhead := hin source List.mem_cons_self
    obtain ⟨rest, hc⟩ : ∃ rest, s.chan (source, r) = given source :: rest := by
      cases hs : s.chan (source, r) with
      | nil => simp [hs] at hhead
      | cons m rest =>
        rw [hs, List.head?_cons, Option.some.injEq] at hhead
        exact ⟨rest, by rw [hhead]⟩
    obtain ⟨hnot, hrest⟩ := List.nodup_cons.mp hnd
    obtain ⟨n, hrun⟩ := @ih ⟨update s.procs r (next (given source)),
        update s.chan (source, r) rest, s.log⟩ (by simp) (fun h => hself (List.mem_cons_of_mem _ h)) hrest (by
      intro i hi
      have hne : (i, r) ≠ (source, r) := by
        intro heq
        obtain rfl : i = source := (Prod.ext_iff.mp heq).1
        exact hnot hi
      simpa [hne] using hin i (List.mem_cons_of_mem _ hi))
    refine ⟨n + 1, Run.cons (step_recv hp hc) ?_⟩
    convert hrun using 1
    ext1
    · simp [Net.finish]
    · funext pair
      obtain ⟨i, j⟩ := pair
      simp only [Net.finish, List.mem_cons]
      by_cases hpair : (i, j) = (source, r)
      · obtain ⟨rfl, rfl⟩ := Prod.ext_iff.mp hpair
        simp [hnot, hc]
      · rw [update_of_ne hpair]
        by_cases hj : j = r
        · subst hj
          have hi : i ≠ source := fun heq => hpair (Prod.ext heq rfl)
          simp [hi]
        · simp [hj]
    · rfl

section Flow

variable {p : ρ → Process ρ μ ε α} {message : ρ × ρ → μ} {pre : ρ × ρ → Prop} [DecidablePred pre]
  {ins dests : ρ → List ρ} {result : ρ → α} {level : ρ → Nat}

/-- The messages of a phase, at most one for each pair, agree with what the processes do with them: a process gets its
inputs from processes of a lower level, or from before the phase. -/
structure Flow (p : ρ → Process ρ μ ε α) (message : ρ × ρ → μ) (pre : ρ × ρ → Prop) (ins dests : ρ → List ρ)
    (result : ρ → α) (level : ρ → Nat) : Prop where
  traces : ∀ r, (p r).Trace (fun i => message (i, r)) (ins r) ((dests r).map fun j => (j, message (r, j))) (result r)
  nodup : ∀ r, (ins r).Nodup
  other : ∀ r, r ∉ ins r
  dests_nodup : ∀ r, (dests r).Nodup
  available : ∀ i j, i ∈ ins j → pre (i, j) ∨ j ∈ dests i
  fresh : ∀ i j, j ∈ dests i → ¬ pre (i, j)
  order : ∀ i j, j ∈ dests i → i ∈ ins j → level i < level j

def midway (p : ρ → Process ρ μ ε α) (message : ρ × ρ → μ) (pre : ρ × ρ → Prop) [DecidablePred pre]
    (ins dests : ρ → List ρ) (result : ρ → α) (log : ρ → List ε) (ended : Finset ρ) : Net ρ μ ε α where
  procs r := if r ∈ ended then .done (result r) else p r
  chan pair :=
    if (pre pair ∨ pair.1 ∈ ended ∧ pair.2 ∈ dests pair.1) ∧ ¬(pair.2 ∈ ended ∧ pair.1 ∈ ins pair.2) then
      [message pair]
    else []
  log := log

theorem Flow.finish (h : Flow p message pre ins dests result level) {log : ρ → List ε} {ended : Finset ρ} {r : ρ}
    (hr : r ∉ ended) (hlow : ∀ j ∈ ended, level j ≤ level r) :
    (midway p message pre ins dests result log ended).finish r (ins r) ((dests r).map fun j => (j, message (r, j)))
      (result r) = midway p message pre ins dests result log (insert r ended) := by
  ext1
  · funext q
    by_cases hq : q = r
    · subst hq
      simp [Net.finish, midway]
    · simp [Net.finish, midway, hq]
  · funext pair
    obtain ⟨i, j⟩ := pair
    simp only [Net.finish, midway, sentTo_map (h.dests_nodup r), Finset.mem_insert]
    by_cases hi : i = r
    · subst hi
      by_cases hdest : j ∈ dests i
      · have hpre := h.fresh i j hdest
        have hlater : ¬((j = i ∨ j ∈ ended) ∧ i ∈ ins j) := by
          rintro ⟨rfl | hended, hin⟩
          · exact h.other j hin
          · have hlevel := h.order i j hdest hin
            have hle := hlow j hended
            omega
        simp [hpre, hr, hdest, hlater]
      · by_cases hj : j = i
        · subst hj
          simp [h.other j, hr, hdest]
        · simp [hr, hdest, hj]
    · by_cases hj : j = r
      · subst hj
        by_cases hin : i ∈ ins j
        · simp only [hin, hi, hr]
          split_ifs <;> simp_all
        · simp [hin, hi]
      · simp [hi, hj]
  · rfl

theorem Flow.run_from [Fintype ρ] (h : Flow p message pre ins dests result level) (log : ρ → List ε)
    (ended : Finset ρ) (hlow : ∀ i ∈ ended, ∀ j ∉ ended, level i ≤ level j) :
    ∃ n, Run n (midway p message pre ins dests result log ended)
      (midway p message pre ins dests result log Finset.univ) := by
  induction hrest : endedᶜ.card generalizing ended with
  | zero =>
    have hall : ended = Finset.univ := by simpa using hrest
    exact ⟨0, hall ▸ Run.refl _⟩
  | succ k ih =>
    have hne : endedᶜ.Nonempty := by
      rw [← Finset.card_pos]
      omega
    -- a process of the lowest level among those that have not run
    obtain ⟨r, hmem, hmin⟩ := Finset.exists_min_image endedᶜ level hne
    have hr : r ∉ ended := by simpa using hmem
    have hinputs : ∀ i ∈ ins r,
        ((midway p message pre ins dests result log ended).chan (i, r)).head? = some (message (i, r)) := by
      intro i hi
      have havailable : pre (i, r) ∨ i ∈ ended ∧ r ∈ dests i := by
        rcases h.available i r hi with hpre | hdest
        · exact Or.inl hpre
        · refine Or.inr ⟨?_, hdest⟩
          by_contra hi'
          have hle := hmin i (by simpa using hi')
          have hlt := h.order i r hdest hi
          omega
      simp [midway, havailable, hr]
    obtain ⟨n, hrun⟩ := run_alone (h.traces r) (by simp [midway, hr]) (h.other r) (h.nodup r) hinputs
    rw [h.finish hr fun j hj => hlow j hj r hr] at hrun
    obtain ⟨n', hrun'⟩ := ih (insert r ended) (by
      intro i hi j hj
      rw [Finset.mem_insert, not_or] at hj
      rcases Finset.mem_insert.mp hi with rfl | hi
      · exact hmin j (by simpa using hj.2)
      · exact hlow i hi j hj.2) (by
      rw [Finset.compl_insert, Finset.card_erase_of_mem hmem]
      omega)
    exact ⟨n + n', hrun.append hrun'⟩

theorem Flow.run [Fintype ρ] (h : Flow p message pre ins dests result level) (log : ρ → List ε) :
    ∃ n, Run n ⟨p, fun pair => if pre pair then [message pair] else [], log⟩
      ⟨fun r => .done (result r), fun pair => if (pre pair ∨ pair.2 ∈ dests pair.1) ∧ pair.1 ∉ ins pair.2 then
        [message pair] else [], log⟩ := by
  have hrun := h.run_from log ∅ (by simp)
  simpa [midway] using hrun

end Flow

/-! Phases one after the other. -/

section Sequencing

variable {p : ρ → Process ρ μ ε α} {k : ρ → α → Process ρ μ ε β} {notes notes' : ρ → List ε}

theorem step_bind {s t : Net ρ μ ε α} {r : ρ} (h : s.step r = some t) (k : ρ → α → Process ρ μ ε β) :
    Net.step ⟨fun q => (s.procs q).bind (k q), s.chan, s.log⟩ r =
      some ⟨fun q => (t.procs q).bind (k q), t.chan, t.log⟩ := by
  have hprocs (next : Process ρ μ ε α) : (fun q => (update s.procs r next q).bind (k q)) =
      update (fun q => (s.procs q).bind (k q)) r (next.bind (k r)) := by
    funext q
    by_cases hq : q = r
    · subst hq
      simp
    · simp [hq]
  rcases step_cases h with ⟨d, m, next, hp, rfl⟩ | ⟨i, m, rest, next, hp, hc, rfl⟩ | ⟨e, next, hp, rfl⟩
  · have hp' : (s.procs r).bind (k r) = .send d m (next.bind (k r)) := by rw [hp, Process.send_bind]
    rw [step_send hp', hprocs]
  · have hp' : (s.procs r).bind (k r) = .recv i fun m => (next m).bind (k r) := by rw [hp, Process.recv_bind]
    rw [@step_recv _ _ _ _ _ ⟨fun q => (s.procs q).bind (k q), s.chan, s.log⟩ r i m rest _ hp' hc, hprocs]
  · have hp' : (s.procs r).bind (k r) = .note e (next.bind (k r)) := by rw [hp, Process.note_bind]
    rw [step_note hp', hprocs]

theorem Run.bind {n : Nat} {s t : Net ρ μ ε α} (h : Run n s t) (k : ρ → α → Process ρ μ ε β) :
    Run n ⟨fun q => (s.procs q).bind (k q), s.chan, s.log⟩ ⟨fun q => (t.procs q).bind (k q), t.chan, t.log⟩ := by
  induction h with
  | refl s => exact Run.refl _
  | cons hstep _ ih => exact Run.cons (step_bind hstep k) ih

/-- The processes can all run to their ends, and leave the channels as they were, without messages. -/
def Completes (p : ρ → Process ρ μ ε α) (notes : ρ → List ε) (result : ρ → α) : Prop :=
  ∀ log, ∃ n, Run n ⟨p, fun _ => [], log⟩ ⟨fun r => .done (result r), fun _ => [], fun r => log r ++ notes r⟩

variable {result : ρ → α}

theorem Completes.bind {result' : ρ → β} (h : Completes p notes result)
    (h' : Completes (fun r => k r (result r)) notes' result') :
    Completes (fun r => (p r).bind (k r)) (fun r => notes r ++ notes' r) result' := by
  intro log
  obtain ⟨n, hrun⟩ := h log
  obtain ⟨n', hrun'⟩ := h' fun r => log r ++ notes r
  refine ⟨n + n', (hrun.bind k).append ?_⟩
  simpa using hrun'

theorem Flow.completes [Fintype ρ] {message : ρ × ρ → μ} {ins dests : ρ → List ρ} {level : ρ → Nat}
    (h : Flow p message (fun _ => False) ins dests result level) (hall : ∀ i j, j ∈ dests i → i ∈ ins j) :
    Completes p (fun _ => []) result := by
  intro log
  obtain ⟨n, hrun⟩ := h.run log
  have hempty (pair : ρ × ρ) : ¬((False ∨ pair.2 ∈ dests pair.1) ∧ pair.1 ∉ ins pair.2) := by
    rintro ⟨hfalse | hdest, hnot⟩
    · exact hfalse
    · exact hnot (hall pair.1 pair.2 hdest)
  simp only [if_neg (hempty _)] at hrun
  exact ⟨n, by simpa using hrun⟩

theorem Completes.map (h : Completes p notes result) (f : ρ → α → β) :
    Completes (fun r => (p r).bind fun a => .done (f r a)) notes fun r => f r (result r) := by
  intro log
  obtain ⟨n, hrun⟩ := h log
  exact ⟨n, hrun.bind fun r a => .done (f r a)⟩

/-- Every run of processes that can complete is a part of the run that completes them. -/
theorem Completes.every_run (h : Completes p notes result) (log : ρ → List ε) :
    ∃ steps, ∀ m u, Run m ⟨p, fun _ => [], log⟩ u → m ≤ steps ∧ (∀ r, u.log r <+: log r ++ notes r) ∧
      (u = ⟨fun r => .done (result r), fun _ => [], fun r => log r ++ notes r⟩ ∨ ∃ r t, u.step r = some t) := by
  obtain ⟨steps, hrun⟩ := h log
  refine ⟨steps, fun m u hu => ?_⟩
  obtain ⟨k, hk, hrest⟩ := hrun.confluent (by simp [Net.Stuck, Net.step]) hu
  refine ⟨by omega, hrest.log_prefix, ?_⟩
  cases hrest with
  | refl => exact Or.inl rfl
  | cons hstep _ => exact Or.inr ⟨_, _, hstep⟩

theorem Completes.note [Fintype ρ] (h : Completes p notes result) (e : ρ → ε) :
    Completes (fun r => .note (e r) (p r)) (fun r => e r :: notes r) result := by
  intro log
  have hnoted (noted : Finset ρ) : ∃ n, Run n ⟨fun r => .note (e r) (p r), fun _ => [], log⟩
      ⟨fun r => if r ∈ noted then p r else .note (e r) (p r), fun _ => [],
        fun r => if r ∈ noted then log r ++ [e r] else log r⟩ := by
    induction noted using Finset.induction_on with
    | empty => exact ⟨0, by simpa using Run.refl _⟩
    | insert r noted hr ih =>
      obtain ⟨n, hrun⟩ := ih
      refine ⟨n + 1, hrun.append (Run.single (step_note (if_neg hr)) ?_)⟩
      ext1
      · funext q
        by_cases hq : q = r <;> simp [hq]
      · rfl
      · funext q
        by_cases hq : q = r <;> simp [hq, hr]
  obtain ⟨n, hrun⟩ := hnoted Finset.univ
  obtain ⟨n', hrun'⟩ := h fun r => log r ++ [e r]
  exact ⟨n + n', (by simpa using hrun : Run n _ _).append (by simpa using hrun')⟩

theorem completes_done (result : ρ → α) :
    Completes (fun r => .done (result r) : ρ → Process ρ μ ε α) (fun _ => []) result := by
  intro log
  exact ⟨0, by simpa using Run.refl _⟩

end Sequencing

/-! Patterns of messages: down a tree, up a tree, and from all to all. -/

structure Tree (root : ρ) where
  parent : ρ → ρ
  children : ρ → List ρ
  depth : ρ → Nat
  mem_children : ∀ i j, j ∈ children i ↔ j ≠ root ∧ i = parent j
  nodup : ∀ r, (children r).Nodup
  depth_parent : ∀ r, r ≠ root → depth (parent r) < depth r

def Tree.star (root : ρ) (others : List ρ) (hnodup : others.Nodup) (hmem : ∀ r, r ∈ others ↔ r ≠ root) : Tree root where
  parent _ := root
  children r := if r = root then others else []
  depth r := if r = root then 0 else 1
  mem_children i j := by
    split_ifs with h <;> simp [h, hmem]
  nodup r := by
    split_ifs
    · exact hnodup
    · exact List.nodup_nil
  depth_parent r h := by simp [h]

section Patterns

variable {root : ρ} (tree : Tree root) {p : ρ → Process ρ μ ε α}

omit [DecidableEq ρ] in
theorem Tree.not_mem_self (r : ρ) : r ∉ tree.children r := by
  rw [tree.mem_children]
  rintro ⟨hne, hparent⟩
  have hlt := tree.depth_parent r hne
  rw [← hparent] at hlt
  omega

theorem Tree.completes_down [Fintype ρ] (message : ρ × ρ → μ) {result : ρ → α}
    (h : ∀ r, (p r).Trace (fun i => message (i, r)) (if r = root then [] else [tree.parent r])
      ((tree.children r).map fun j => (j, message (r, j))) (result r)) :
    Completes p (fun _ => []) result := by
  let ins (r : ρ) : List ρ := if r = root then [] else [tree.parent r]
  have hmem (i j : ρ) : i ∈ ins j ↔ j ∈ tree.children i := by
    rw [tree.mem_children]
    by_cases hj : j = root <;> simp [ins, hj]
  have hflow : Flow p message (fun _ => False) ins tree.children result tree.depth := by
    refine ⟨h, fun r => ?_, fun r => ?_, tree.nodup, fun i j hi => Or.inr ((hmem i j).mp hi), by simp, ?_⟩
    · simp only [ins]
      split_ifs <;> simp
    · rw [hmem]
      exact tree.not_mem_self r
    · intro i j hj _
      obtain ⟨hne, rfl⟩ := (tree.mem_children i j).mp hj
      exact tree.depth_parent j hne
  exact hflow.completes fun i j => (hmem i j).mpr

theorem Tree.completes_up [Fintype ρ] (message : ρ × ρ → μ) {result : ρ → α}
    (h : ∀ r, (p r).Trace (fun i => message (i, r)) (tree.children r)
      (if r = root then [] else [(tree.parent r, message (r, tree.parent r))]) (result r)) :
    Completes p (fun _ => []) result := by
  let dests (r : ρ) : List ρ := if r = root then [] else [tree.parent r]
  have hmem (i j : ρ) : j ∈ dests i ↔ i ∈ tree.children j := by
    rw [tree.mem_children]
    by_cases hi : i = root <;> simp [dests, hi]
  have hflow : Flow p message (fun _ => False) tree.children dests result
      fun r => Finset.univ.sup tree.depth - tree.depth r := by
    refine ⟨fun r => ?_, tree.nodup, tree.not_mem_self, fun r => ?_, fun i j hi => Or.inr ((hmem i j).mpr hi),
      by simp, ?_⟩
    · convert h r using 1
      simp only [dests]
      split_ifs <;> simp
    · simp only [dests]
      split_ifs <;> simp
    · intro i j _ hi
      obtain ⟨hne, rfl⟩ := (tree.mem_children j i).mp hi
      have hlt := tree.depth_parent i hne
      have hle : tree.depth i ≤ Finset.univ.sup tree.depth := Finset.le_sup (Finset.mem_univ i)
      omega
  exact hflow.completes fun i j => (hmem i j).mp

theorem completes_exchange [Fintype ρ] (message : ρ × ρ → μ) {k : ρ → α → Process ρ μ ε β} {others : ρ → List ρ}
    {mid : ρ → α} {result : ρ → β} (hnodup : ∀ r, (others r).Nodup) (hmem : ∀ i j, j ∈ others i ↔ j ≠ i)
    (h : ∀ r, (p r).Trace (fun i => message (i, r)) [] ((others r).map fun j => (j, message (r, j))) (mid r))
    (h' : ∀ r, (k r (mid r)).Trace (fun i => message (i, r)) (others r) [] (result r)) :
    Completes (fun r => (p r).bind (k r)) (fun _ => []) result := by
  have hsend : Flow p message (fun _ => False) (fun _ => []) others mid fun _ => 0 :=
    ⟨h, by simp, by simp, hnodup, by simp, by simp, by simp⟩
  have hrecv : Flow (fun r => k r (mid r)) message (fun pair => pair.2 ≠ pair.1) others (fun _ => []) result
      fun _ => 0 :=
    ⟨h', hnodup, by simp [hmem], by simp, fun i j hi => Or.inl (Ne.symm ((hmem j i).mp hi)), by simp, by simp⟩
  intro log
  obtain ⟨n, hrun⟩ := hsend.run log
  obtain ⟨n', hrun'⟩ := hrecv.run log
  have hfull (pair : ρ × ρ) : (False ∨ pair.2 ∈ others pair.1) ∧ pair.1 ∉ ([] : List ρ) ↔ pair.2 ≠ pair.1 := by
    simp [hmem]
  have hempty (pair : ρ × ρ) : ¬((pair.2 ≠ pair.1 ∨ pair.2 ∈ ([] : List ρ)) ∧ pair.1 ∉ others pair.2) := by
    simp [hmem, eq_comm]
  simp only [hfull] at hrun
  simp only [if_neg (hempty _)] at hrun'
  have hboth := (hrun.bind k).append hrun'
  exact ⟨n + n', by simpa using hboth⟩

end Patterns

/-! A process that is stopped. -/

section Stopping

variable {s t u : Net ρ μ ε α} {q r : ρ}

def Net.replace (s : Net ρ μ ε α) (q : ρ) (p : Process ρ μ ε α) : Net ρ μ ε α :=
  { s with procs := update s.procs q p }

@[simp] theorem replace_self (s : Net ρ μ ε α) (q : ρ) (p : Process ρ μ ε α) : (s.replace q p).procs q = p := by
  simp [Net.replace]

theorem replace_procs (s : Net ρ μ ε α) {q r : ρ} (hne : r ≠ q) (p : Process ρ μ ε α) :
    (s.replace q p).procs r = s.procs r := by
  simp [Net.replace, hne]

@[simp] theorem replace_chan (s : Net ρ μ ε α) (q : ρ) (p : Process ρ μ ε α) : (s.replace q p).chan = s.chan := rfl

@[simp] theorem replace_log (s : Net ρ μ ε α) (q : ρ) (p : Process ρ μ ε α) : (s.replace q p).log = s.log := rfl

theorem step_replace (hne : r ≠ q) (h : s.step r = some t) (p : Process ρ μ ε α) :
    (s.replace q p).step r = some (t.replace q p) := by
  have hr := replace_procs s hne p
  rcases step_cases h with ⟨d, m, next, hp, rfl⟩ | ⟨i, m, rest, next, hp, hc, rfl⟩ | ⟨e, next, hp, rfl⟩
  · rw [step_send (hr.trans hp)]
    simp [Net.replace, update_comm hne]
  · have hc' : (s.replace q p).chan (i, r) = m :: rest := hc
    rw [step_recv (hr.trans hp) hc']
    simp [Net.replace, update_comm hne]
  · rw [step_note (hr.trans hp)]
    simp [Net.replace, update_comm hne]

/-- While `q` has not noted `e`, the others cannot tell whether it is going to do so. -/
theorem Run.stop {n : Nat} {x : Process ρ μ ε β} {e : ε} {f g : β → Process ρ μ ε α} (h : Run n s u)
    (hq : s.procs q = x.bind f) (hfg : ∀ b, f b = g b ∨ ∃ next, f b = .note e next) (hnot : e ∉ u.log q) :
    ∃ u', Run n (s.replace q (x.bind g)) u' ∧ u'.log = u.log := by
  induction h generalizing x with
  | refl s => exact ⟨_, Run.refl _, rfl⟩
  | @cons n s t u r hstep hrest ih =>
    by_cases hr : r = q
    · subst hr
      have hself (p : Process ρ μ ε α) := replace_self s r p
      cases x with
      | done b =>
        rcases hfg b with heq | ⟨next, hnext⟩
        · have hsame : s.replace r (g b) = s := by
            rw [← heq, ← Process.done_bind b f, ← hq]
            simp [Net.replace]
          exact ⟨u, by simpa [hsame] using Run.cons hstep hrest, rfl⟩
        · rw [step_note (hq.trans hnext), Option.some.injEq] at hstep
          have hin : e ∈ t.log r := by simp [← hstep]
          exact absurd ((hrest.log_prefix r).subset hin) hnot
      | send d m x =>
        rw [step_send hq, Option.some.injEq] at hstep
        obtain ⟨u', hrun, hlog⟩ := @ih x (by simp [← hstep]) hnot
        refine ⟨u', Run.cons (step_send (hself _)) ?_, hlog⟩
        simpa [Net.replace, ← hstep] using hrun
      | recv i x =>
        rcases step_cases hstep with ⟨_, _, _, hp, _⟩ | ⟨i', m, rest, next, hp, hc, ht⟩ | ⟨_, _, hp, _⟩
        · rw [hq] at hp
          cases hp
        · rw [hq] at hp
          cases hp
          have hc' (p : Process ρ μ ε α) : (s.replace r p).chan (i, r) = m :: rest := hc
          obtain ⟨u', hrun, hlog⟩ := @ih (x m) (by simp [ht]) hnot
          refine ⟨u', Run.cons (step_recv (hself _) (hc' _)) ?_, hlog⟩
          simpa [Net.replace, ht] using hrun
        · rw [hq] at hp
          cases hp
      | note e' x =>
        rw [step_note hq, Option.some.injEq] at hstep
        obtain ⟨u', hrun, hlog⟩ := @ih x (by simp [← hstep]) hnot
        refine ⟨u', Run.cons (step_note (hself _)) ?_, hlog⟩
        simpa [Net.replace, ← hstep] using hrun
    · obtain ⟨u', hrun, hlog⟩ := @ih x ((step_procs hstep (Ne.symm hr)).trans hq) hnot
      exact ⟨u', Run.cons (step_replace hr hstep _) hrun, hlog⟩

end Stopping

/-! Processes that wait on channels over which nothing is sent. -/

section Waiting

variable {silent : ρ × ρ → Prop} {bad : ε → Prop}

/-- Until it receives over a silent channel, process `r` sends over none and notes no bad event. -/
def Process.Held (silent : ρ × ρ → Prop) (bad : ε → Prop) (r : ρ) : Process ρ μ ε α → Prop
  | .done _ => True
  | .send dest _ next => ¬silent (r, dest) ∧ next.Held silent bad r
  | .recv source next => silent (source, r) ∨ ∀ m, (next m).Held silent bad r
  | .note e next => ¬bad e ∧ next.Held silent bad r

structure Net.Held (silent : ρ × ρ → Prop) (bad : ε → Prop) (s : Net ρ μ ε α) : Prop where
  procs : ∀ r, (s.procs r).Held silent bad r
  chan : ∀ pair, silent pair → s.chan pair = []
  log : ∀ r, ∀ e ∈ s.log r, ¬bad e

variable {s t : Net ρ μ ε α} {r : ρ}

theorem Net.Held.step (h : s.Held silent bad) (hstep : s.step r = some t) : t.Held silent bad := by
  have hr := h.procs r
  have hprocs (next : Process ρ μ ε α) (hnext : next.Held silent bad r) (q : ρ) :
      (update s.procs r next q).Held silent bad q := by
    by_cases hq : q = r
    · subst hq
      simpa using hnext
    · simpa [hq] using h.procs q
  rcases step_cases hstep with ⟨d, m, next, hp, rfl⟩ | ⟨i, m, rest, next, hp, hc, rfl⟩ | ⟨e, next, hp, rfl⟩
  · rw [hp] at hr
    refine ⟨hprocs next hr.2, fun pair hpair => ?_, h.log⟩
    have hne : pair ≠ (r, d) := fun heq => hr.1 (heq ▸ hpair)
    simpa [hne] using h.chan pair hpair
  · rw [hp] at hr
    have hheard : ¬silent (i, r) := by
      intro hsilent
      rw [h.chan _ hsilent] at hc
      cases hc
    refine ⟨hprocs _ (hr.resolve_left hheard m), fun pair hpair => ?_, h.log⟩
    have hne : pair ≠ (i, r) := fun heq => hheard (heq ▸ hpair)
    simpa [hne] using h.chan pair hpair
  · rw [hp] at hr
    refine ⟨hprocs next hr.2, h.chan, fun q e' he' => ?_⟩
    dsimp only at he'
    by_cases hq : q = r
    · subst hq
      rw [update_self, List.mem_append, List.mem_singleton] at he'
      rcases he' with he' | rfl
      · exact h.log q e' he'
      · exact hr.1
    · rw [update_of_ne hq] at he'
      exact h.log q e' he'

theorem Net.Held.run {n : Nat} (h : s.Held silent bad) (hrun : Run n s t) : t.Held silent bad := by
  induction hrun with
  | refl => exact h
  | cons hstep _ ih => exact ih (h.step hstep)

end Waiting

def Net.follow (s : Net ρ μ ε α) (order : List ρ) : Option (Net ρ μ ε α) := order.foldlM Net.step s

theorem Net.follow_run {t : Net ρ μ ε α} {order : List ρ} (h : s.follow order = some t) :
    Run order.length s t := by
  induction order generalizing s with
  | nil =>
    obtain rfl : s = t := by simpa [Net.follow] using h
    exact Run.refl s
  | cons r order ih =>
    rw [Net.follow, List.foldlM_cons, Option.bind_eq_bind, Option.bind_eq_some_iff] at h
    obtain ⟨u, hstep, hrest⟩ := h
    exact Run.cons hstep (ih hrest)

end Network
