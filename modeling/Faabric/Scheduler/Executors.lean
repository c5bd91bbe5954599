import Faabric.Lib.GuardedRun
import Faabric.Lib.History

/-! The executors of one function of one app on a host: the scheduler that claims them and gives them
tasks, the pool threads that run the tasks, and the reaper. What `mx` protects is done while the
scheduler is not `unlocked`; pool threads take their steps in between. -/

namespace Faabric

/-- A thread of an executor's pool, with what it still has to do for its task. -/
inductive PoolThread where
  | available
  | queued (isThreads : Bool)
  | running (isThreads : Bool)
  | counted
  | finished (isLastThreadInExecutor : Bool)
  | released
deriving Repr, DecidableEq

structure Executor where
  batchCounter : Int := 0
  threadBatchCounter : Int := 0
  claimed : Bool := false
  lastExec : Nat := 0
  isLongRunning : Bool := false
  reaped : Bool := false
  pool : List PoolThread
deriving Repr, DecidableEq

namespace Executor

def tryClaim (e : Executor) : Executor := { e with claimed := true }

def releaseClaim (e : Executor) : Executor := { e with claimed := false }

def isExecuting (e : Executor) : Bool := 0 < e.batchCounter

def addTasks (e : Executor) (isThreads : Bool) (nTasks now : Nat) : Executor :=
  if isThreads then { e with lastExec := now, threadBatchCounter := e.threadBatchCounter + nTasks }
  else { e with lastExec := now, batchCounter := e.batchCounter + nTasks }

def enqueueTask (e : Executor) (isThreads : Bool) : Option Executor :=
  if .available ∈ e.pool then
    some { e with pool := e.pool.set (e.pool.idxOf .available) (.queued isThreads) }
  else none

def threadStep (e : Executor) (k : Nat) : Executor :=
  match e.pool[k]? with
  | some (.queued isThreads) => { e with pool := e.pool.set k (.running isThreads) }
  | some (.running true) =>
    { e with threadBatchCounter := e.threadBatchCounter - 1, pool := e.pool.set k .counted }
  | some (.running false) =>
    { e with batchCounter := e.batchCounter - 1, pool := e.pool.set k (.finished (e.batchCounter = 1)) }
  | some .counted => { e with pool := e.pool.set k (.finished (e.batchCounter = 0)) }
  | some (.finished true) => { e.releaseClaim with pool := e.pool.set k .released }
  | some (.finished false) => { e with pool := e.pool.set k .available }
  | some .released => { e with pool := e.pool.set k .available }
  | _ => e

def Busy (e : Executor) : Prop := ∃ isThreads, .queued isThreads ∈ e.pool ∨ .running isThreads ∈ e.pool

instance (e : Executor) : Decidable e.Busy := inferInstanceAs (Decidable (∃ _, _))

end Executor

/-- A request under way: the tasks for the next executor, and how many messages come after them. -/
structure ExecutorBatch where
  isThreads : Bool
  nTasks : Nat
  rest : Nat
deriving Repr, DecidableEq

inductive SchedulerPc where
  | unlocked
  | claiming (batch : ExecutorBatch) (next : Nat)
  | executing (batch : ExecutorBatch) (exec : Nat)
  | enqueueing (batch : ExecutorBatch) (exec left : Nat)
deriving Repr, DecidableEq

def ExecutorBatch.next (batch : ExecutorBatch) : SchedulerPc :=
  match batch.rest with
  | 0 => .unlocked
  | rest + 1 => .claiming { batch with rest } 0

structure ExecutorSystem where
  boundTimeout : Nat
  threadPoolSize : Nat
  executors : List Executor := []
  pc : SchedulerPc := .unlocked
  /-- Requests whose new executor is being created, for which the lock is given up. -/
  creating : List ExecutorBatch := []
  now : Nat := 0
deriving Repr, DecidableEq

inductive ExecutorAction where
  | executeBatch (isThreads : Bool) (nMessages : Nat)
  | claimExecutor
  | createExecutor (j : Nat) (isLongRunning : Bool)
  | executeTasks (restored : Bool)
  | enqueueTask
  | threadStep (i k : Nat)
  | reapExecutor (i : Nat)
  | wait (millis : Nat)
deriving Repr, DecidableEq

namespace ExecutorSystem

def update (s : ExecutorSystem) (i : Nat) (f : Executor → Executor) : ExecutorSystem :=
  { s with executors := s.executors.modify i f }

def thisExecutors (s : ExecutorSystem) : List Nat :=
  (List.range s.executors.length).filter fun i => s.executors[i]?.any (!·.reaped)

def executeBatch (s : ExecutorSystem) (isThreads : Bool) (nMessages : Nat) : ExecutorSystem :=
  if nMessages = 0 ∨ s.pc ≠ .unlocked then s
  else if isThreads then
    match s.thisExecutors with
    | [] => { s with pc := .claiming ⟨true, nMessages, 0⟩ 0 }
    | [i] => { s with pc := .executing ⟨true, nMessages, 0⟩ i }
    -- "Expected only one executor for threaded function"
    | _ => s
  else { s with pc := .claiming ⟨false, 1, nMessages - 1⟩ 0 }

def claimExecutor (s : ExecutorSystem) : ExecutorSystem :=
  match s.pc with
  | .claiming batch next =>
    match s.executors[next]? with
    | none => { s with pc := .unlocked, creating := s.creating ++ [batch] }
    | some e =>
      if e.reaped ∨ e.claimed then { s with pc := .claiming batch (next + 1) }
      else { s.update next Executor.tryClaim with pc := .executing batch next }
  | _ => s

def createExecutor (s : ExecutorSystem) (j : Nat) (isLongRunning : Bool) : ExecutorSystem :=
  match s.pc, s.creating[j]? with
  | .unlocked, some batch =>
    let e : Executor :=
      { lastExec := s.now, isLongRunning, pool := List.replicate s.threadPoolSize .available }
    { s with
      executors := s.executors ++ [e.tryClaim]
      pc := .executing batch s.executors.length
      creating := s.creating.eraseIdx j }
  | _, _ => s

/-- Without its snapshot `executeTasks` throws before it has counted the tasks. -/
def executeTasks (s : ExecutorSystem) (restored : Bool) : ExecutorSystem :=
  match s.pc with
  | .executing batch i =>
    if restored then
      { s.update i fun e => e.addTasks batch.isThreads batch.nTasks s.now with
        pc := .enqueueing batch i batch.nTasks }
    else { s.update i fun e => { e with lastExec := s.now } with pc := batch.next }
  | _ => s

/-- With no thread available `executeTasks` throws, and the tasks stay counted. -/
def enqueueTask (s : ExecutorSystem) : ExecutorSystem :=
  match s.pc with
  | .enqueueing batch i (left + 1) =>
    match s.executors[i]?.bind fun e => e.enqueueTask batch.isThreads with
    | some e => { s.update i fun _ => e with pc := .enqueueing batch i left }
    | none => { s with pc := batch.next }
  | .enqueueing batch _ 0 => { s with pc := batch.next }
  | _ => s

def isStale (s : ExecutorSystem) (e : Executor) : Bool :=
  !e.isLongRunning && s.boundTimeout ≤ s.now - e.lastExec && !e.isExecuting

def reapExecutor (s : ExecutorSystem) (i : Nat) : ExecutorSystem :=
  if s.pc = .unlocked then s.update i fun e => if s.isStale e then { e with reaped := true } else e
  else s

end ExecutorSystem

def ExecutorAction.step (s : ExecutorSystem) : ExecutorAction → ExecutorSystem
  | .executeBatch isThreads nMessages => s.executeBatch isThreads nMessages
  | .claimExecutor => s.claimExecutor
  | .createExecutor j isLongRunning => s.createExecutor j isLongRunning
  | .executeTasks restored => s.executeTasks restored
  | .enqueueTask => s.enqueueTask
  | .threadStep i k => s.update i fun e => e.threadStep k
  | .reapExecutor i => s.reapExecutor i
  | .wait millis => { s with now := s.now + millis }

/-! ### One owner for all tasks -/

def SchedulerPc.Holds (i : Nat) : SchedulerPc → Prop
  | .executing _ exec => exec = i
  | .enqueueing _ exec _ => exec = i
  | _ => False

instance (i : Nat) : (pc : SchedulerPc) → Decidable (pc.Holds i)
  | .unlocked | .claiming _ _ => instDecidableFalse
  | .executing _ exec | .enqueueing _ exec _ => inferInstanceAs (Decidable (exec = i))

namespace Executor

def NoThreads (e : Executor) : Prop := .queued true ∉ e.pool ∧ .running true ∉ e.pool

def SeesLast (e : Executor) (k : Nat) : Prop :=
  e.pool[k]? = some (.running false) ∧ e.batchCounter = 1 ∨ e.pool[k]? = some .counted ∧ e.batchCounter = 0

instance (e : Executor) : Decidable e.NoThreads := inferInstanceAs (Decidable (_ ∧ _))

instance (e : Executor) (k : Nat) : Decidable (e.SeesLast k) := inferInstanceAs (Decidable (_ ∨ _))

end Executor

namespace ExecutorSystem

def onlyExecutor (s : ExecutorSystem) : Option Executor :=
  match s.thisExecutors with
  | [i] => s.executors[i]?
  | _ => none

def nextToClaim (s : ExecutorSystem) : Option Executor :=
  match s.pc with
  | .claiming _ next => s.executors[next]?
  | _ => none

end ExecutorSystem

/-- An executor is chosen only while none of its threads is about to release it, and for threads only
while it is claimed; a thread that takes itself for the last one leaves no task of a threads request,
also not one the scheduler is about to queue; and no such task is there when the executor is reaped. -/
def ThreadsAccounted (s : ExecutorSystem) : ExecutorAction → Prop
  | .executeBatch isThreads _ => isThreads = true → ∀ e ∈ s.onlyExecutor,
    e.claimed = true ∧ .finished true ∉ e.pool
  | .claimExecutor => ∀ e ∈ s.nextToClaim, e.claimed = false → .finished true ∉ e.pool
  | .threadStep i k => ∀ e ∈ s.executors[i]?, e.SeesLast k → e.NoThreads ∧ ¬s.pc.Holds i
  | .reapExecutor i => ∀ e ∈ s.executors[i]?, s.isStale e = true → e.NoThreads
  | _ => True

instance (s : ExecutorSystem) (action : ExecutorAction) : Decidable (ThreadsAccounted s action) := by
  cases action <;> unfold ThreadsAccounted <;> infer_instance

def SchedulerPc.functionsLeft (i : Nat) : SchedulerPc → Nat
  | .enqueueing batch exec left => if exec = i ∧ batch.isThreads = false then left else 0
  | _ => 0

def PoolThread.isFunctionTask : PoolThread → Bool
  | .queued false | .running false => true
  | _ => false

namespace Executor

def functionTasks (e : Executor) : Nat := e.pool.countP PoolThread.isFunctionTask

/-- While the executor has a task or is about to get one, it is claimed, in the scheduler's hands, and
no thread is about to release it. -/
structure Owned (e : Executor) (pc : SchedulerPc) (i : Nat) : Prop where
  counts : (e.functionTasks : Int) + pc.functionsLeft i ≤ e.batchCounter
  kept : e.Busy ∨ pc.Holds i → e.claimed = true ∧ e.reaped = false ∧ .finished true ∉ e.pool

section Steps

variable {e e' : Executor} {pc : SchedulerPc} {i k : Nat} {t t' : PoolThread}

theorem countP_set (h : e.pool[k]? = some t) (hpool : e'.pool = e.pool.set k t') (p : PoolThread → Bool) :
    e'.pool.countP p + (p t).toNat = e.pool.countP p + (p t').toNat := by
  obtain ⟨hk, rfl⟩ := List.getElem?_eq_some_iff.mp h
  have hpos : p e.pool[k] = true → 0 < e.pool.countP p := fun ht =>
    List.countP_pos_iff.mpr ⟨_, List.getElem_mem hk, ht⟩
  rw [hpool, List.countP_set hk]
  generalize e.pool.countP p = n at hpos ⊢
  cases hold : p e.pool[k] <;> cases p t' <;> simp [hold] at hpos ⊢ <;> omega

theorem functionTasks_set (h : e.pool[k]? = some t) (hpool : e'.pool = e.pool.set k t') :
    e'.functionTasks + t.isFunctionTask.toNat = e.functionTasks + t'.isFunctionTask.toNat :=
  countP_set h hpool _

theorem not_busy_iff : ¬e.Busy ↔ e.NoThreads ∧ e.functionTasks = 0 := by
  have hzero : e.functionTasks = 0 ↔ .queued false ∉ e.pool ∧ .running false ∉ e.pool := by
    rw [functionTasks, List.countP_eq_zero]
    refine ⟨fun h => ⟨fun hq => h _ hq rfl, fun hr => h _ hr rfl⟩, fun h t hmem htask => ?_⟩
    cases t with
    | queued isThreads =>
      cases isThreads with
      | true => cases htask
      | false => exact h.1 hmem
    | running isThreads =>
      cases isThreads with
      | true => cases htask
      | false => exact h.2 hmem
    | available | counted | finished | released => cases htask
  rw [hzero, Busy, NoThreads]
  simp only [Bool.exists_bool, not_or]
  exact and_comm

theorem Busy.of_set (hpool : e'.pool = e.pool.set k t)
    (ht : ∀ isThreads, t ≠ .queued isThreads ∧ t ≠ .running isThreads) (h : e'.Busy) : e.Busy := by
  obtain ⟨isThreads, h⟩ := h
  rw [hpool] at h
  have hold : ∀ t', t' ∈ e.pool.set k t → t' ≠ t → t' ∈ e.pool := fun t' hmem hne =>
    (List.mem_or_eq_of_mem_set hmem).resolve_right hne
  exact ⟨isThreads, h.imp (fun hq => hold _ hq (ht isThreads).1.symm) fun hr => hold _ hr (ht isThreads).2.symm⟩

theorem Owned.set (h : e.Owned pc i) (hpool : e'.pool = e.pool.set k t) (hne : t ≠ .finished true)
    (hclaimed : e'.claimed = e.claimed) (hreaped : e'.reaped = e.reaped) (hbusy : e'.Busy → e.Busy)
    (hcounts : (e'.functionTasks : Int) + pc.functionsLeft i ≤ e'.batchCounter) : e'.Owned pc i := by
  refine ⟨hcounts, fun hneeded => ?_⟩
  obtain ⟨hclaim, hreap, hlast⟩ := h.kept (hneeded.imp_left hbusy)
  refine ⟨hclaimed.trans hclaim, hreaped.trans hreap, fun hmem => ?_⟩
  rw [hpool] at hmem
  rcases List.mem_or_eq_of_mem_set hmem with hold | heq
  · exact hlast hold
  · exact hne heq.symm

theorem NoThreads.set (h : e.NoThreads) (hpool : e'.pool = e.pool.set k t)
    (ht : t ≠ .queued true ∧ t ≠ .running true) : e'.NoThreads := by
  have hold : ∀ t', t' ∈ e'.pool → t' ∈ e.pool ∨ t' = t := fun t' hmem =>
    List.mem_or_eq_of_mem_set (hpool ▸ hmem)
  exact ⟨fun hq => (hold _ hq).elim h.1 ht.1.symm, fun hr => (hold _ hr).elim h.2 ht.2.symm⟩

theorem Owned.last (hno : e.NoThreads) (hheld : ¬pc.Holds i) (hpool : e'.pool = e.pool.set k (.finished true))
    (hfunctions : e'.functionTasks = 0)
    (hcounts : (e'.functionTasks : Int) + pc.functionsLeft i ≤ e'.batchCounter) : e'.Owned pc i := by
  have hidle : ¬e'.Busy := not_busy_iff.mpr ⟨hno.set hpool ⟨nofun, nofun⟩, hfunctions⟩
  exact ⟨hcounts, fun hneeded => absurd hneeded (not_or.mpr ⟨hidle, hheld⟩)⟩

theorem Owned.move (h : e.Owned pc i) (hk : e.pool[k]? = some t) (hpool : e'.pool = e.pool.set k t')
    (hkind : t'.isFunctionTask = t.isFunctionTask) (hne : t' ≠ .finished true)
    (hclaimed : e'.claimed = e.claimed) (hreaped : e'.reaped = e.reaped)
    (hcounter : e'.batchCounter = e.batchCounter) (hbusy : e'.Busy → e.Busy) : e'.Owned pc i := by
  have hsame := functionTasks_set hk hpool
  have hcounts := h.counts
  rw [hkind] at hsame
  exact h.set hpool hne hclaimed hreaped hbusy (by omega)

theorem Owned.threadStep (h : e.Owned pc i) (hlast : e.SeesLast k → e.NoThreads ∧ ¬pc.Holds i) :
    (e.threadStep k).Owned pc i := by
  have hcounts := h.counts
  cases hk : e.pool[k]? with
  | none => simpa only [Executor.threadStep, hk] using h
  | some t =>
    have hmem : t ∈ e.pool := List.mem_of_getElem? hk
    cases t with
    | available => simpa only [Executor.threadStep, hk] using h
    | queued isThreads =>
      rw [Executor.threadStep, hk]
      exact h.move hk rfl (by cases isThreads <;> rfl) (by simp) rfl rfl rfl fun _ => ⟨isThreads, .inl hmem⟩
    | running isThreads =>
      cases isThreads with
      | true =>
        rw [Executor.threadStep, hk]
        exact h.move hk rfl rfl (by simp) rfl rfl rfl fun _ => ⟨true, .inr hmem⟩
      | false =>
        rw [Executor.threadStep, hk]
        have hless := @functionTasks_set e { e with
          batchCounter := e.batchCounter - 1, pool := e.pool.set k (.finished (e.batchCounter = 1)) } k _ _ hk rfl
        simp only [PoolThread.isFunctionTask, Bool.toNat_true, Bool.toNat_false] at hless
        by_cases hone : e.batchCounter = 1
        · obtain ⟨hno, hheld⟩ := hlast (.inl ⟨hk, hone⟩)
          apply Owned.last (k := k) hno hheld
          · simp only [hone, decide_true]
          · simp only
            omega
          · simp only
            omega
        · refine h.set rfl (by simp [hone]) rfl rfl (fun _ => ⟨false, .inr hmem⟩) ?_
          simp only
          omega
    | counted =>
      rw [Executor.threadStep, hk]
      by_cases hzero : e.batchCounter = 0
      · obtain ⟨hno, hheld⟩ := hlast (.inr ⟨hk, hzero⟩)
        have hsame := @functionTasks_set e
          { e with pool := e.pool.set k (.finished (e.batchCounter = 0)) } k _ _ hk rfl
        simp only [PoolThread.isFunctionTask] at hsame
        apply Owned.last (k := k) hno hheld
        · simp only [hzero, decide_true]
        · simp only
          omega
        · simp only
          omega
      · exact h.move hk rfl rfl (by simp [hzero]) rfl rfl rfl (Busy.of_set rfl (by simp))
    | finished isLast =>
      cases isLast with
      | true =>
        -- no task needs the claim that this thread gives up
        have hidle : ¬(e.Busy ∨ pc.Holds i) := fun hneeded => (h.kept hneeded).2.2 hmem
        rw [Executor.threadStep, hk]
        have hsame := @functionTasks_set e { e.releaseClaim with pool := e.pool.set k .released } k _ _ hk rfl
        simp only [PoolThread.isFunctionTask] at hsame
        refine ⟨?_, fun hneeded => absurd (hneeded.imp_left (Busy.of_set rfl (by simp))) hidle⟩
        simp only [releaseClaim] at hsame ⊢
        omega
      | false =>
        rw [Executor.threadStep, hk]
        exact h.move hk rfl rfl (by simp) rfl rfl rfl (Busy.of_set rfl (by simp))
    | released =>
      rw [Executor.threadStep, hk]
      exact h.move hk rfl rfl (by simp) rfl rfl rfl (Busy.of_set rfl (by simp))

theorem Owned.at_pc {pc' : SchedulerPc} (h : e.Owned pc i) (hleft : pc'.functionsLeft i = 0)
    (hholds : pc'.Holds i → pc.Holds i) : e.Owned pc' i := by
  have hcounts := h.counts
  refine ⟨by omega, fun hneeded => h.kept (hneeded.imp_right hholds)⟩

theorem Owned.addTasks {batch : ExecutorBatch} (h : e.Owned (.executing batch i) i) (now : Nat) :
    (e.addTasks batch.isThreads batch.nTasks now).Owned (.enqueueing batch i batch.nTasks) i := by
  have hcounts := h.counts
  obtain ⟨hclaim, hreap, hlast⟩ := h.kept (.inr rfl)
  simp only [SchedulerPc.functionsLeft] at hcounts
  cases hkind : batch.isThreads with
  | true =>
    refine ⟨?_, fun _ => ⟨hclaim, hreap, hlast⟩⟩
    simpa [SchedulerPc.functionsLeft, hkind, Executor.addTasks, functionTasks] using hcounts
  | false =>
    refine ⟨?_, fun _ => ⟨hclaim, hreap, hlast⟩⟩
    simp only [SchedulerPc.functionsLeft, hkind, Executor.addTasks, functionTasks] at hcounts ⊢
    simp
    omega

theorem Owned.enqueueTask {batch : ExecutorBatch} {left : Nat}
    (h : e.Owned (.enqueueing batch i (left + 1)) i) (henq : e.enqueueTask batch.isThreads = some e') :
    e'.Owned (.enqueueing batch i left) i := by
  have hcounts := h.counts
  obtain ⟨hclaim, hreap, hlast⟩ := h.kept (.inr rfl)
  by_cases havail : .available ∈ e.pool
  · rw [Executor.enqueueTask, if_pos havail] at henq
    cases henq
    have hk : e.pool[e.pool.idxOf .available]? = some .available := List.getElem?_idxOf havail
    have htasks := @functionTasks_set e { e with
      pool := e.pool.set (e.pool.idxOf .available) (.queued batch.isThreads) } _ _ _ hk rfl
    refine ⟨?_, fun _ => ⟨hclaim, hreap, fun hmem => ?_⟩⟩
    · cases hkind : batch.isThreads <;>
        simp [SchedulerPc.functionsLeft, PoolThread.isFunctionTask, hkind] at hcounts htasks ⊢ <;> omega
    · rcases List.mem_or_eq_of_mem_set hmem with hold | heq
      · exact hlast hold
      · cases heq
  · rw [Executor.enqueueTask, if_neg havail] at henq
    cases henq

end Steps

end Executor

theorem ExecutorBatch.next_idle (batch : ExecutorBatch) (i : Nat) :
    batch.next.functionsLeft i = 0 ∧ ¬batch.next.Holds i := by
  rw [ExecutorBatch.next]
  split <;> exact ⟨rfl, id⟩

namespace ExecutorSystem

def AllOwned (s : ExecutorSystem) : Prop :=
  ∀ (i : Nat) (e : Executor), s.executors[i]? = some e → e.Owned s.pc i

variable {s : ExecutorSystem}

theorem AllOwned.at_pc (h : s.AllOwned) {pc : SchedulerPc} {creating : List ExecutorBatch}
    (hidle : ∀ i, pc.functionsLeft i = 0 ∧ ¬pc.Holds i) : AllOwned { s with pc, creating } :=
  fun i e he => (h i e he).at_pc (hidle i).1 fun hheld => absurd hheld (hidle i).2

theorem AllOwned.update (h : s.AllOwned) {i : Nat} {f : Executor → Executor} {pc : SchedulerPc}
    (hothers : ∀ (j : Nat) (e : Executor), j ≠ i → e.Owned s.pc j → e.Owned pc j)
    (hthis : ∀ e, s.executors[i]? = some e → (f e).Owned pc i) : AllOwned { s.update i f with pc } := by
  intro j e he
  simp only [ExecutorSystem.update, List.getElem?_modify] at he
  cases hold : s.executors[j]? with
  | none => simp [hold] at he
  | some old =>
    by_cases hij : i = j
    · subst hij
      simp [hold] at he
      exact he ▸ hthis old hold
    · simp [hold, hij] at he
      exact he ▸ hothers j old (Ne.symm hij) (h j old hold)

theorem mem_thisExecutors {i : Nat} (h : i ∈ s.thisExecutors) {e : Executor} (he : s.executors[i]? = some e) :
    e.reaped = false := by
  have hlive := (List.mem_filter.mp h).2
  simpa [he] using hlive

theorem AllOwned.executeBatch (h : s.AllOwned) {isThreads : Bool} {nMessages : Nat}
    (hguard : ThreadsAccounted s (.executeBatch isThreads nMessages)) :
    (s.executeBatch isThreads nMessages).AllOwned := by
  rw [ExecutorSystem.executeBatch]
  split
  · exact h
  split
  · rename_i hthreads
    split
    · exact h.at_pc fun _ => ⟨rfl, id⟩
    · rename_i i honly
      intro j e he
      by_cases hij : i = j
      · subst hij
        have honly' : s.onlyExecutor = some e := by
          simp only [onlyExecutor, honly]
          exact he
        obtain ⟨hclaim, hlast⟩ := hguard hthreads e honly'
        have hreap : e.reaped = false := mem_thisExecutors (show i ∈ s.thisExecutors by simp [honly]) he
        have hcounts := (h i e he).counts
        exact ⟨by simp only [SchedulerPc.functionsLeft]; omega, fun _ => ⟨hclaim, hreap, hlast⟩⟩
      · exact (h j e he).at_pc rfl fun hheld => absurd hheld hij
    · exact h
  · exact h.at_pc fun _ => ⟨rfl, id⟩

theorem AllOwned.claimExecutor (h : s.AllOwned) (hguard : ThreadsAccounted s .claimExecutor) :
    s.claimExecutor.AllOwned := by
  cases hpc : s.pc with
  | unlocked | executing | enqueueing => simpa only [ExecutorSystem.claimExecutor, hpc] using h
  | claiming batch next =>
    cases hnext : s.executors[next]? with
    | none =>
      simp only [ExecutorSystem.claimExecutor, hpc, hnext]
      exact h.at_pc fun _ => ⟨rfl, id⟩
    | some e =>
      by_cases htaken : e.reaped = true ∨ e.claimed = true
      · simp only [ExecutorSystem.claimExecutor, hpc, hnext, if_pos htaken]
        exact h.at_pc fun _ => ⟨rfl, id⟩
      · simp only [ExecutorSystem.claimExecutor, hpc, hnext, if_neg htaken]
        simp only [not_or, Bool.not_eq_true] at htaken
        have hlast := hguard e (by simpa only [nextToClaim, hpc, Option.mem_def] using hnext) htaken.2
        apply h.update
        · intro j e hj hown
          exact hown.at_pc rfl fun hheld => absurd hheld.symm hj
        · intro e' he'
          cases hnext.symm.trans he'
          have hcounts := (h next e hnext).counts
          refine ⟨?_, fun _ => ⟨rfl, htaken.1, hlast⟩⟩
          simp only [SchedulerPc.functionsLeft, Executor.tryClaim, Executor.functionTasks] at hcounts ⊢
          omega

theorem AllOwned.createExecutor (h : s.AllOwned) (j : Nat) (isLongRunning : Bool) :
    (s.createExecutor j isLongRunning).AllOwned := by
  rw [ExecutorSystem.createExecutor]
  split
  · rename_i batch hpc hbatch
    intro i e he
    rcases History.getElem?_snoc.mp he with he | ⟨rfl, rfl⟩
    · have hi := (List.getElem?_eq_some_iff.mp he).1
      exact (h i e he).at_pc rfl fun hheld => absurd hheld.symm (Nat.ne_of_lt hi)
    · refine ⟨?_, fun _ => ⟨rfl, rfl, by simp [Executor.tryClaim, List.mem_replicate]⟩⟩
      simp [Executor.functionTasks, Executor.tryClaim, SchedulerPc.functionsLeft, List.countP_replicate,
        PoolThread.isFunctionTask]
  · exact h

theorem AllOwned.executeTasks (h : s.AllOwned) (restored : Bool) : (s.executeTasks restored).AllOwned := by
  cases hpc : s.pc with
  | unlocked | claiming | enqueueing => simpa only [ExecutorSystem.executeTasks, hpc] using h
  | executing batch i =>
    cases restored with
    | true =>
      simp only [ExecutorSystem.executeTasks, hpc, if_true]
      apply h.update
      · intro j e hj hown
        exact hown.at_pc (by simp [SchedulerPc.functionsLeft, Ne.symm hj]) fun hheld => absurd hheld.symm hj
      · intro e he
        have hown := h i e he
        rw [hpc] at hown
        exact hown.addTasks s.now
    | false =>
      simp only [ExecutorSystem.executeTasks, hpc, Bool.false_eq_true, if_false]
      have hidle := batch.next_idle
      apply h.update
      · intro j e _ hown
        exact hown.at_pc (hidle j).1 fun hheld => absurd hheld (hidle j).2
      · intro e he
        obtain ⟨hcounts, hkept⟩ := (h i e he).at_pc (hidle i).1 fun hheld => absurd hheld (hidle i).2
        exact ⟨hcounts, hkept⟩

theorem AllOwned.enqueueTask (h : s.AllOwned) : s.enqueueTask.AllOwned := by
  cases hpc : s.pc with
  | unlocked | claiming | executing => simpa only [ExecutorSystem.enqueueTask, hpc] using h
  | enqueueing batch i left =>
    cases left with
    | zero =>
      simp only [ExecutorSystem.enqueueTask, hpc]
      exact h.at_pc batch.next_idle
    | succ left =>
      cases henq : s.executors[i]?.bind fun e => e.enqueueTask batch.isThreads with
      | none =>
        simp only [ExecutorSystem.enqueueTask, hpc, henq]
        exact h.at_pc batch.next_idle
      | some e =>
        obtain ⟨old, hold, henq'⟩ := Option.bind_eq_some_iff.mp henq
        simp only [ExecutorSystem.enqueueTask, hpc, henq]
        apply h.update
        · intro j e hj hown
          exact hown.at_pc (by simp [SchedulerPc.functionsLeft, Ne.symm hj]) fun hheld => absurd hheld.symm hj
        · intro e' he'
          have hown := h i old hold
          rw [hpc] at hown
          exact hown.enqueueTask henq'

theorem AllOwned.reapExecutor (h : s.AllOwned) {i : Nat} (hguard : ThreadsAccounted s (.reapExecutor i)) :
    (s.reapExecutor i).AllOwned := by
  rw [ExecutorSystem.reapExecutor]
  split
  · rename_i hpc
    apply h.update
    · exact fun _ _ _ hown => hown
    · intro e he
      split
      · rename_i hstale
        have hidle : ¬e.Busy := by
          have hcounts := (h i e he).counts
          have hexec : e.isExecuting = false := by
            simp only [isStale, Bool.and_eq_true, Bool.not_eq_true'] at hstale
            exact hstale.2
          have hzero : e.batchCounter ≤ 0 := by simpa [Executor.isExecuting] using hexec
          exact Executor.not_busy_iff.mpr ⟨hguard e he hstale, by omega⟩
        refine ⟨(h i e he).counts, fun hneeded => absurd hneeded ?_⟩
        rw [hpc]
        exact not_or.mpr ⟨hidle, id⟩
      · exact h i e he
  · exact h

theorem AllOwned.step (h : s.AllOwned) {action : ExecutorAction} (hguard : ThreadsAccounted s action) :
    (action.step s).AllOwned := by
  cases action with
  | executeBatch isThreads nMessages => exact h.executeBatch hguard
  | claimExecutor => exact h.claimExecutor hguard
  | createExecutor j isLongRunning => exact h.createExecutor j isLongRunning
  | executeTasks restored => exact h.executeTasks restored
  | enqueueTask => exact h.enqueueTask
  | threadStep i k =>
    apply h.update (fun _ _ _ hown => hown)
    intro e he
    exact (h i e he).threadStep (hguard e he)
  | reapExecutor i => exact h.reapExecutor hguard
  | wait millis => exact h

end ExecutorSystem

/-- In a run in which the threads are accounted for, an executor with a queued or running task is
claimed and has not been reaped. -/
theorem busy_executor_left_alone {boundTimeout threadPoolSize : Nat} {actions : List ExecutorAction}
    (h : GuardedRun.Meets ExecutorAction.step ThreadsAccounted { boundTimeout, threadPoolSize } actions) :
    ∀ e ∈ (GuardedRun.run ExecutorAction.step { boundTimeout, threadPoolSize } actions).executors,
      e.Busy → e.claimed = true ∧ e.reaped = false := by
  have hstart : ExecutorSystem.AllOwned { boundTimeout, threadPoolSize } := by
    intro i e he
    simp at he
  have hrun := h.invariant (fun s action hs hok => hs.step hok) hstart
  intro e hmem hbusy
  obtain ⟨i, he⟩ := List.getElem?_of_mem hmem
  obtain ⟨hclaim, hreap, -⟩ := (hrun i e he).kept (.inl hbusy)
  exact ⟨hclaim, hreap⟩

def functionWithThreads : List ExecutorAction :=
  [.executeBatch false 1, .claimExecutor, .createExecutor 0 false, .executeTasks true, .enqueueTask,
    .enqueueTask, .threadStep 0 0, .executeBatch true 2, .executeTasks true, .enqueueTask, .enqueueTask,
    .enqueueTask, .threadStep 0 1, .threadStep 0 2, .threadStep 0 1, .threadStep 0 1, .wait 40000,
    .reapExecutor 0]

theorem busy_executor_left_alone_function :
    let s := GuardedRun.run ExecutorAction.step { boundTimeout := 30000, threadPoolSize := 4 } functionWithThreads
    (∃ e ∈ s.executors, e.Busy) ∧ ∀ e ∈ s.executors, e.Busy → e.claimed = true ∧ e.reaped = false :=
  ⟨by decide +kernel, busy_executor_left_alone (by decide +kernel)⟩

/-- On a host without the main function the first of two threads releases the claim when it finishes,
and the reaper takes the executor while the other one is running. -/
theorem running_thread_reaped :
    ∃ e ∈ (GuardedRun.run ExecutorAction.step { boundTimeout := 30000, threadPoolSize := 4 }
      [.executeBatch true 2, .claimExecutor, .createExecutor 0 false, .executeTasks true, .enqueueTask,
        .enqueueTask, .enqueueTask, .threadStep 0 0, .threadStep 0 1, .threadStep 0 0, .threadStep 0 0,
        .threadStep 0 0, .wait 40000, .reapExecutor 0]).executors,
      e.Busy ∧ e.claimed = false ∧ e.reaped = true := by
  decide +kernel

end Faabric
