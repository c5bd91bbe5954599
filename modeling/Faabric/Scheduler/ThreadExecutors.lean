import Faabric.Scheduler.Executors

/-! The executors of every function key of a host under the one scheduler lock. A threaded request
runs on the only executor of its key, and the lock is given up while an executor is created. -/

namespace Faabric

open ExecutorAction

variable {K : Type*}

/-- A request with messages of several keys is a request for each key, one after the other. -/
structure HostExecutors (K : Type*) where
  executors : K → ExecutorSystem
  mx : Option K := none

def HostExecutors.start (K : Type*) (boundTimeout threadPoolSize : Nat) : HostExecutors K :=
  { executors := fun _ => { boundTimeout, threadPoolSize } }

/-- The pool threads and the clock do not wait for the lock. -/
def HostExecutors.step [DecidableEq K] (s : HostExecutors K) : K × ExecutorAction → HostExecutors K
  | (_, .wait millis) =>
    { s with executors := fun key => (wait millis).step (s.executors key) }
  | (key, .threadStep i k) =>
    { s with executors := Function.update s.executors key ((threadStep i k).step (s.executors key)) }
  | (key, action) =>
    if s.mx = none ∨ s.mx = some key then
      let system := action.step (s.executors key)
      { executors := Function.update s.executors key system
        mx := if system.pc = .unlocked then none else some key }
    else s

theorem Executor.enqueueTask_reaped {e e' : Executor} {isThreads : Bool}
    (h : e.enqueueTask isThreads = some e') : e'.reaped = e.reaped := by
  rw [Executor.enqueueTask] at h
  split at h
  · cases h
    rfl
  · cases h

theorem Executor.threadStep_reaped (e : Executor) (k : Nat) : (e.threadStep k).reaped = e.reaped := by
  rw [Executor.threadStep]
  split <;> rfl

namespace ExecutorSystem

def executeBatchError (s : ExecutorSystem) (isThreads : Bool) (nMessages : Nat) : Option String :=
  if nMessages ≠ 0 ∧ isThreads = true ∧ 1 < s.thisExecutors.length then
    some "Expected only one executor for threaded function"
  else none

def NeedsExecutor (s : ExecutorSystem) : Prop :=
  match s.pc with
  | .claiming _ next => s.executors.length ≤ next
  | _ => False

instance (s : ExecutorSystem) : Decidable s.NeedsExecutor := by
  unfold NeedsExecutor
  split <;> infer_instance

variable {s s' : ExecutorSystem}

theorem thisExecutors_update {i : Nat} {f : Executor → Executor}
    (hf : ∀ e, s.executors[i]? = some e → e.reaped = true → (f e).reaped = true) :
    (s.update i f).thisExecutors.Sublist s.thisExecutors := by
  rw [thisExecutors, thisExecutors, ExecutorSystem.update, List.length_modify]
  refine List.monotone_filter_right _ fun j hj => ?_
  simp only [List.getElem?_modify] at hj
  cases he : s.executors[j]? with
  | none => simp [he] at hj
  | some e =>
    by_cases hij : i = j
    · subst hij
      cases hreaped : e.reaped with
      | false => simp [hreaped]
      | true => simp [he, hf e he hreaped] at hj
    · simpa [he, hij] using hj

theorem length_thisExecutors_append {e : Executor} (hs' : s'.executors = s.executors ++ [e]) :
    s'.thisExecutors.length ≤ s.thisExecutors.length + 1 := by
  have hold : (List.range s.executors.length).filter (fun i => s'.executors[i]?.any (!·.reaped)) =
      s.thisExecutors := by
    refine List.filter_congr fun i hi => ?_
    rw [hs', List.getElem?_append_left (List.mem_range.mp hi)]
  rw [thisExecutors, hs', List.length_append, List.length_singleton, List.range_succ, List.filter_append,
    ← hs', hold, List.length_append]
  exact Nat.add_le_add_left (List.length_filter_le _ _) _

/-- What a step does to the executors of the key: none comes in, one is to be created, or one that was
being created comes in. -/
theorem step_cases (s : ExecutorSystem) (action : ExecutorAction) :
    (action.step s).thisExecutors.Sublist s.thisExecutors ∧ (action.step s).creating = s.creating ∨
    (action = .claimExecutor ∧ s.NeedsExecutor ∧ (action.step s).executors = s.executors ∧
      ∃ batch, (action.step s).creating = s.creating ++ [batch]) ∨
    ∃ e, (action.step s).executors = s.executors ++ [e] ∧
      (action.step s).creating.length + 1 = s.creating.length := by
  cases action with
  | executeBatch isThreads nMessages =>
    refine .inl ?_
    simp only [step, executeBatch]
    split
    · exact ⟨.refl _, rfl⟩
    split
    · split <;> exact ⟨.refl _, rfl⟩
    · exact ⟨.refl _, rfl⟩
  | claimExecutor =>
    cases hpc : s.pc with
    | unlocked | executing | enqueueing =>
      exact .inl (by simp only [step, claimExecutor, hpc]; exact ⟨.refl _, trivial⟩)
    | claiming batch next =>
      cases hnext : s.executors[next]? with
      | none =>
        refine .inr (.inl ⟨rfl, ?_, ?_⟩)
        · simpa only [NeedsExecutor, hpc] using List.getElem?_eq_none_iff.mp hnext
        · simp only [step, claimExecutor, hpc, hnext]
          exact ⟨trivial, batch, rfl⟩
      | some e =>
        refine .inl ?_
        simp only [step, claimExecutor, hpc, hnext]
        split
        · exact ⟨.refl _, rfl⟩
        · exact ⟨thisExecutors_update fun _ _ => id, rfl⟩
  | createExecutor j isLongRunning =>
    simp only [step, createExecutor]
    split
    · rename_i batch hpc hbatch
      have hj : j < s.creating.length := (List.getElem?_eq_some_iff.mp hbatch).1
      refine .inr (.inr ⟨_, rfl, ?_⟩)
      rw [List.length_eraseIdx_of_lt hj]
      omega
    · exact .inl ⟨.refl _, rfl⟩
  | executeTasks restored =>
    refine .inl ?_
    simp only [step, executeTasks]
    split
    · split
      · refine ⟨thisExecutors_update fun e _ => ?_, rfl⟩
        rw [Executor.addTasks]
        split <;> exact id
      · exact ⟨thisExecutors_update fun _ _ => id, rfl⟩
    · exact ⟨.refl _, rfl⟩
  | enqueueTask =>
    refine .inl ?_
    simp only [step, enqueueTask]
    split
    · split
      · rename_i e henq
        obtain ⟨old, hold, henq⟩ := Option.bind_eq_some_iff.mp henq
        refine ⟨thisExecutors_update fun e' he' hreaped => ?_, rfl⟩
        cases hold.symm.trans he'
        exact (Executor.enqueueTask_reaped henq).trans hreaped
      · exact ⟨.refl _, rfl⟩
    · exact ⟨.refl _, rfl⟩
    · exact ⟨.refl _, rfl⟩
  | threadStep i k =>
    exact .inl ⟨thisExecutors_update fun e _ hreaped => (e.threadStep_reaped k).trans hreaped, rfl⟩
  | reapExecutor i =>
    refine .inl ?_
    simp only [step, reapExecutor]
    split
    · refine ⟨thisExecutors_update fun e _ he => ?_, rfl⟩
      split
      · rfl
      · exact he
    · exact ⟨.refl _, rfl⟩
  | wait millis => exact .inl ⟨.refl _, rfl⟩

def AtMostOne (s : ExecutorSystem) : Prop := s.thisExecutors.length + s.creating.length ≤ 1

theorem AtMostOne.step (h : s.AtMostOne) {action : ExecutorAction}
    (halone : action = .claimExecutor → s.NeedsExecutor → s.thisExecutors = [] ∧ s.creating = []) :
    (action.step s).AtMostOne := by
  rw [AtMostOne] at h ⊢
  obtain ⟨hsub, hcreating⟩ | ⟨haction, hneeds, hexecutors, batch, hcreating⟩ | ⟨e, hexecutors, hcreating⟩ :=
    s.step_cases action
  · have hle := hsub.length_le
    rw [hcreating]
    omega
  · obtain ⟨hnone, hfree⟩ := halone haction hneeds
    have hsame : (action.step s).thisExecutors = s.thisExecutors := by rw [thisExecutors, hexecutors, thisExecutors]
    simp [hsame, hcreating, hnone, hfree]
  · have hle := length_thisExecutors_append hexecutors
    omega

theorem AtMostOne.executeBatchError (h : s.AtMostOne) (isThreads : Bool) (nMessages : Nat) :
    s.executeBatchError isThreads nMessages = none := by
  rw [AtMostOne] at h
  exact if_neg fun hfails => by omega

end ExecutorSystem

namespace HostExecutors

variable [DecidableEq K]

theorem step_executors (s : HostExecutors K) (key : K) (action : K × ExecutorAction) :
    (s.step action).executors key = s.executors key ∨
    (action.1 = key ∨ ∃ millis, action.2 = .wait millis) ∧
      (s.step action).executors key = action.2.step (s.executors key) := by
  obtain ⟨key', action⟩ := action
  have hupdate (system : ExecutorSystem) (hsystem : system = action.step (s.executors key')) :
      Function.update s.executors key' system key = s.executors key ∨
        (key' = key ∨ ∃ millis, action = .wait millis) ∧
          Function.update s.executors key' system key = action.step (s.executors key) := by
    by_cases hkey : key' = key
    · subst hkey
      exact .inr ⟨.inl rfl, by rw [Function.update_self, hsystem]⟩
    · exact .inl (Function.update_of_ne (Ne.symm hkey) _ _)
  cases action with
  | wait millis => exact .inr ⟨.inr ⟨millis, rfl⟩, rfl⟩
  | threadStep i k => exact hupdate _ rfl
  | executeBatch | claimExecutor | createExecutor | executeTasks | enqueueTask | reapExecutor =>
    simp only [HostExecutors.step]
    split
    · exact hupdate _ rfl
    · exact .inl rfl

end HostExecutors

/-- An executor is created for the key only while it has none and none is being created. -/
def CreatesAlone [DecidableEq K] (key : K) (s : HostExecutors K) (action : K × ExecutorAction) : Prop :=
  action = (key, .claimExecutor) → (s.executors key).NeedsExecutor →
    (s.executors key).thisExecutors = [] ∧ (s.executors key).creating = []

instance [DecidableEq K] (key : K) (s : HostExecutors K) (action : K × ExecutorAction) :
    Decidable (CreatesAlone key s action) :=
  inferInstanceAs (Decidable (_ → _ → _ ∧ _))

/-- In a run in which no executor is created for a key beside another one, the key has at most one
executor, and no threaded request for it fails for having several. -/
theorem threaded_function_one_executor [DecidableEq K] {boundTimeout threadPoolSize : Nat} {key : K}
    {actions : List (K × ExecutorAction)}
    (h : GuardedRun.Meets HostExecutors.step (CreatesAlone key) (.start K boundTimeout threadPoolSize) actions) :
    let s := (GuardedRun.run HostExecutors.step (.start K boundTimeout threadPoolSize) actions).executors key
    s.thisExecutors.length ≤ 1 ∧ ∀ nMessages, s.executeBatchError true nMessages = none := by
  have hstep : ∀ (s : HostExecutors K) (action : K × ExecutorAction), (s.executors key).AtMostOne →
      CreatesAlone key s action → ((s.step action).executors key).AtMostOne := by
    intro s action hone halone
    obtain hsame | ⟨hmoved, hsame⟩ := s.step_executors key action
    · rwa [hsame]
    rw [hsame]
    refine hone.step fun hclaim => ?_
    obtain hkey | ⟨millis, hwait⟩ := hmoved
    · exact halone (Prod.ext hkey hclaim)
    · exact absurd (hclaim.symm.trans hwait) nofun
  have hrun := h.invariant hstep (by simp [HostExecutors.start, ExecutorSystem.AtMostOne, ExecutorSystem.thisExecutors])
  exact ⟨Nat.le_trans (Nat.le_add_right _ _) hrun, hrun.executeBatchError true⟩

theorem threaded_function_one_executor_twice :
    let s := (GuardedRun.run HostExecutors.step (.start Bool 30000 4)
      [(true, .executeBatch true 1), (true, .claimExecutor), (false, .executeBatch false 2),
        (false, .claimExecutor), (true, .createExecutor 0 false), (true, .executeTasks true),
        (true, .enqueueTask), (true, .enqueueTask), (false, .createExecutor 0 false),
        (false, .executeTasks true), (false, .enqueueTask), (false, .enqueueTask), (false, .claimExecutor),
        (false, .claimExecutor)]).executors true
    s.thisExecutors.length ≤ 1 ∧ ∀ nMessages, s.executeBatchError true nMessages = none :=
  threaded_function_one_executor (by decide +kernel)

/-- The second of two threaded requests finds no executor while that of the first is being created, and
the third one fails. -/
theorem two_executors_for_threads :
    ((GuardedRun.run HostExecutors.step (.start Unit 30000 4)
      [((), .executeBatch true 1), ((), .claimExecutor), ((), .executeBatch true 1), ((), .claimExecutor),
        ((), .createExecutor 0 false), ((), .executeTasks true), ((), .enqueueTask), ((), .enqueueTask),
        ((), .createExecutor 0 false), ((), .executeTasks true), ((), .enqueueTask), ((), .enqueueTask)]
      ).executors ()).executeBatchError true 1 = some "Expected only one executor for threaded function" := by
  decide +kernel

end Faabric
