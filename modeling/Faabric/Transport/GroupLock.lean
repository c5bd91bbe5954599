import Faabric.Lib.GuardedRun

/-! The distributed lock of a point-to-point group, kept by the host of the group's main index. Members
there call it directly, the others by messages. -/

namespace Faabric

open Function

inductive LockCall where
  | idle
  | requested (recursive : Bool)
  | refused (recursive : Bool)
  | queued (recursive : Bool)
  | granted (recursive given : Bool)
deriving Repr, DecidableEq

/-- The group on the main host, and the members. A member whose call is `idle` is not in `lock`;
`locked` and `unlocked` count the calls of each kind that it has completed. -/
structure GroupLock where
  onMain : Nat → Bool
  recursiveLockOwners : List Nat := []
  lockOwnerIdx : Option Nat := none
  lockWaiters : List Nat := []
  call : Nat → LockCall := fun _ => .idle
  locked : Nat → Bool → Nat := fun _ _ => 0
  unlocked : Nat → Bool → Nat := fun _ _ => 0
  unlocks : List (Nat × Bool) := []

def countUp (calls : Nat → Bool → Nat) (groupIdx : Nat) (recursive : Bool) : Nat → Bool → Nat :=
  update calls groupIdx
    (update (calls groupIdx) recursive (calls groupIdx recursive + 1))

theorem countUp_apply (calls : Nat → Bool → Nat) (groupIdx i : Nat) (recursive k : Bool) :
    countUp calls groupIdx recursive i k = calls i k + if k = recursive ∧ i = groupIdx then 1 else 0 := by
  rw [countUp]
  by_cases hi : i = groupIdx
  · subst hi
    by_cases hk : k = recursive
    · subst hk
      simp
    · simp [hk]
  · simp [hi]

inductive LockAction where
  | lock (groupIdx : Nat) (recursive : Bool)
  | tryLock (groupIdx : Nat)
  | joinQueue (groupIdx : Nat)
  | recvMessage (groupIdx : Nat)
  | unlock (groupIdx : Nat) (recursive : Bool)
  | recvGroupUnlock (groupIdx : Nat) (recursive : Bool)
deriving Repr, DecidableEq

namespace GroupLock

def setCall (s : GroupLock) (groupIdx : Nat) (call : LockCall) : GroupLock :=
  { s with call := update s.call groupIdx call }

theorem setCall_self (s : GroupLock) (groupIdx : Nat) (call : LockCall) :
    (s.setCall groupIdx call).call groupIdx = call := by
  simp [setCall]

theorem setCall_other (s : GroupLock) {groupIdx i : Nat} (call : LockCall) (h : i ≠ groupIdx) :
    (s.setCall groupIdx call).call i = s.call i := by
  simp [setCall, h]

def acquire (s : GroupLock) (groupIdx : Nat) (recursive : Bool) : Option GroupLock :=
  if recursive ∧ (s.recursiveLockOwners = [] ∨ s.recursiveLockOwners.head? = some groupIdx) then
    some { s with recursiveLockOwners := groupIdx :: s.recursiveLockOwners }
  else if ¬recursive ∧ s.lockOwnerIdx = none then some { s with lockOwnerIdx := some groupIdx }
  else none

def tryLock (s : GroupLock) (groupIdx : Nat) : GroupLock :=
  match s.call groupIdx with
  | .requested recursive =>
    match s.acquire groupIdx recursive with
    | some s => s.setCall groupIdx (.granted recursive recursive)
    | none => s.setCall groupIdx (.refused recursive)
  | _ => s

def joinQueue (s : GroupLock) (groupIdx : Nat) : GroupLock :=
  match s.call groupIdx with
  | .refused recursive =>
    { s with lockWaiters := s.lockWaiters ++ [groupIdx] }.setCall groupIdx (.queued recursive)
  | _ => s

def notifyLocked (s : GroupLock) (groupIdx : Nat) (given : Bool) : GroupLock :=
  match s.call groupIdx with
  | .queued recursive => s.setCall groupIdx (.granted recursive given)
  | _ => s

def recvMessage (s : GroupLock) (groupIdx : Nat) : GroupLock :=
  match s.call groupIdx with
  | .granted recursive _ =>
    { s with locked := countUp s.locked groupIdx recursive }.setCall groupIdx .idle
  | _ => s

/-- The critical section of `unlock`, which does not look at who unlocks. -/
def release (s : GroupLock) (recursive : Bool) : GroupLock :=
  if recursive then
    match s.recursiveLockOwners.tail, s.lockWaiters with
    | owner :: owners, _ => { s with recursiveLockOwners := owner :: owners }
    | [], waiter :: waiters =>
      { s with recursiveLockOwners := [waiter], lockWaiters := waiters }.notifyLocked waiter true
    | [], [] => { s with recursiveLockOwners := [] }
  else
    match s.lockWaiters with
    | waiter :: waiters =>
      { s with lockOwnerIdx := some waiter, lockWaiters := waiters }.notifyLocked waiter false
    | [] => { s with lockOwnerIdx := none }

def MayUnlock (s : GroupLock) (groupIdx : Nat) (recursive : Bool) : Prop :=
  s.call groupIdx = .idle ∧ s.unlocked groupIdx recursive < s.locked groupIdx recursive

instance (s : GroupLock) (groupIdx : Nat) (recursive : Bool) : Decidable (s.MayUnlock groupIdx recursive) :=
  inferInstanceAs (Decidable (_ ∧ _))

def unlock (s : GroupLock) (groupIdx : Nat) (recursive : Bool) : GroupLock :=
  if s.MayUnlock groupIdx recursive then
    let s := { s with unlocked := countUp s.unlocked groupIdx recursive }
    if s.onMain groupIdx then s.release recursive
    else { s with unlocks := s.unlocks ++ [(groupIdx, recursive)] }
  else s

def recvGroupUnlock (s : GroupLock) (groupIdx : Nat) (recursive : Bool) : GroupLock :=
  if (groupIdx, recursive) ∈ s.unlocks then
    { s with unlocks := s.unlocks.erase (groupIdx, recursive) }.release recursive
  else s

end GroupLock

def LockAction.step (s : GroupLock) : LockAction → GroupLock
  | .lock groupIdx recursive =>
    if s.call groupIdx = .idle then s.setCall groupIdx (.requested recursive) else s
  | .tryLock groupIdx => s.tryLock groupIdx
  | .joinQueue groupIdx => s.joinQueue groupIdx
  | .recvMessage groupIdx => s.recvMessage groupIdx
  | .unlock groupIdx recursive => s.unlock groupIdx recursive
  | .recvGroupUnlock groupIdx recursive => s.recvGroupUnlock groupIdx recursive

namespace GroupLock

def nextOwner (s : GroupLock) (recursive : Bool) : Option Nat :=
  if recursive ∧ s.recursiveLockOwners.tail ≠ [] then none else s.lockWaiters.head?

/-- The lock of a kind is the member's: it holds it, or is about to be told so. -/
def Holds (s : GroupLock) (recursive : Bool) (groupIdx : Nat) : Prop :=
  s.unlocked groupIdx recursive < s.locked groupIdx recursive ∨ ∃ k, s.call groupIdx = .granted k recursive

/-- A member gets the kind of lock it asked for, at most one member has a lock of each kind, and the
recursive lock is not another's before the member that had it has unlocked as often as it locked. -/
structure Excludes (s : GroupLock) : Prop where
  kind : ∀ groupIdx recursive given, s.call groupIdx = .granted recursive given → given = recursive
  one : ∀ recursive groupIdx groupIdx', s.Holds recursive groupIdx → s.Holds recursive groupIdx' →
    groupIdx = groupIdx'
  passed : ∀ groupIdx groupIdx', groupIdx ≠ groupIdx' → s.Holds true groupIdx →
    s.unlocked groupIdx' true = s.locked groupIdx' true

end GroupLock

/-- When a release passes a lock on, the waiter asked for a lock of that kind. -/
def PassesOnKind (s : GroupLock) : LockAction → Prop
  | .unlock groupIdx recursive => s.onMain groupIdx = true → s.MayUnlock groupIdx recursive →
    ∀ waiter ∈ s.nextOwner recursive, s.call waiter = .queued recursive
  | .recvGroupUnlock groupIdx recursive => (groupIdx, recursive) ∈ s.unlocks →
    ∀ waiter ∈ s.nextOwner recursive, s.call waiter = .queued recursive
  | _ => True

instance (s : GroupLock) (action : LockAction) : Decidable (PassesOnKind s action) := by
  cases action <;> unfold PassesOnKind <;> infer_instance

/-! ### Where the locks are -/

def LockCall.grants (recursive : Bool) : LockCall → Nat
  | .granted _ given => if given = recursive then 1 else 0
  | _ => 0

def LockCall.AsAsked (call : LockCall) : Prop :=
  ∀ recursive given, call = .granted recursive given → given = recursive

namespace GroupLock

def owned (s : GroupLock) (recursive : Bool) (groupIdx : Nat) : Nat :=
  if recursive then s.recursiveLockOwners.count groupIdx
  else if s.lockOwnerIdx = some groupIdx then 1 else 0

/-- The waiters are the members whose calls are queued, and a member is granted what it asked for. -/
structure Queue (call : Nat → LockCall) (waiters : List Nat) : Prop where
  nodup : waiters.Nodup
  waits : ∀ groupIdx, groupIdx ∈ waiters ↔ ∃ recursive, call groupIdx = .queued recursive
  kind : ∀ groupIdx, (call groupIdx).AsAsked

/-- Every ownership is a lock that the member holds, is being told about, or is giving back;
`returned` are those given back but not yet taken off. -/
structure Balanced (s : GroupLock) (returned : Nat → Bool → Nat) : Prop where
  balance : ∀ groupIdx recursive,
    s.locked groupIdx recursive + (s.call groupIdx).grants recursive + s.unlocks.count (groupIdx, recursive) +
      returned groupIdx recursive = s.unlocked groupIdx recursive + s.owned recursive groupIdx
  held : ∀ groupIdx recursive, s.unlocked groupIdx recursive ≤ s.locked groupIdx recursive
  same : ∀ i ∈ s.recursiveLockOwners, ∀ j ∈ s.recursiveLockOwners, i = j
  queue : Queue s.call s.lockWaiters

def returning (groupIdx : Nat) (recursive : Bool) (i : Nat) (k : Bool) : Nat :=
  if k = recursive ∧ i = groupIdx then 1 else 0

section Queues

variable {call : Nat → LockCall} {waiters : List Nat} {groupIdx : Nat} {c : LockCall}

theorem Queue.not_mem (h : Queue call waiters) (hcall : ∀ recursive, call groupIdx ≠ .queued recursive) :
    groupIdx ∉ waiters := fun hmem => by
  obtain ⟨recursive, hqueued⟩ := (h.waits groupIdx).mp hmem
  exact hcall recursive hqueued

theorem Queue.set (h : Queue call waiters) (hold : ∀ recursive, call groupIdx ≠ .queued recursive)
    (hnew : ∀ recursive, c ≠ .queued recursive) (hkind : c.AsAsked) :
    Queue (update call groupIdx c) waiters := by
  refine ⟨h.nodup, (forall_update_iff call fun i c => i ∈ waiters ↔ ∃ recursive, c = .queued recursive).mpr
    ⟨?_, fun i _ => h.waits i⟩, (forall_update_iff call fun _ => LockCall.AsAsked).mpr
      ⟨hkind, fun i _ => h.kind i⟩⟩
  exact iff_of_false (h.not_mem hold) fun ⟨recursive, hc⟩ => hnew recursive hc

theorem Queue.join (h : Queue call waiters) (hold : ∀ recursive, call groupIdx ≠ .queued recursive)
    (recursive : Bool) : Queue (update call groupIdx (.queued recursive)) (waiters ++ [groupIdx]) := by
  refine ⟨List.nodup_append.mpr ⟨h.nodup, List.nodup_singleton _, ?_⟩, fun i => ?_,
    (forall_update_iff call fun _ => LockCall.AsAsked).mpr ⟨nofun, fun i _ => h.kind i⟩⟩
  · simpa using fun a ha (heq : a = groupIdx) => h.not_mem hold (heq ▸ ha)
  · by_cases hi : i = groupIdx
    · simp [hi]
    · simpa [hi] using h.waits i

theorem granted_asAsked (recursive : Bool) : (LockCall.granted recursive recursive).AsAsked := by
  rintro k given ⟨⟩
  rfl

theorem Queue.pop (h : Queue call (groupIdx :: waiters)) (recursive : Bool) :
    Queue (update call groupIdx (.granted recursive recursive)) waiters := by
  obtain ⟨hout, hrest⟩ := List.nodup_cons.mp h.nodup
  refine ⟨hrest, fun i => ?_, (forall_update_iff call fun _ => LockCall.AsAsked).mpr
    ⟨granted_asAsked recursive, fun i _ => h.kind i⟩⟩
  by_cases hi : i = groupIdx
  · subst hi
    simpa using hout
  · simpa [hi] using h.waits i

theorem grants_set (hc : ∀ k, c.grants k = (call groupIdx).grants k) (i : Nat) (k : Bool) :
    (update call groupIdx c i).grants k = (call i).grants k := by
  by_cases hi : i = groupIdx
  · subst hi
    rw [update_self, hc]
  · rw [update_of_ne hi]

theorem grants_grant (hc : ∀ k, (call groupIdx).grants k = 0) (recursive : Bool) (i : Nat) (k : Bool) :
    (update call groupIdx (.granted recursive recursive) i).grants k =
      (call i).grants k + returning groupIdx recursive i k := by
  by_cases hi : i = groupIdx
  · subst hi
    rw [update_self, hc]
    simp [LockCall.grants, returning, @eq_comm _ k]
  · simp [hi, returning]

end Queues

section Steps

variable {s : GroupLock} {returned : Nat → Bool → Nat} {groupIdx : Nat} {recursive : Bool}

theorem owned_unique (hsame : ∀ i ∈ s.recursiveLockOwners, ∀ j ∈ s.recursiveLockOwners, i = j) {i j : Nat}
    (hi : 0 < s.owned recursive i) (hj : 0 < s.owned recursive j) : i = j := by
  cases recursive with
  | true =>
    simp only [owned, if_true, List.count_pos_iff] at hi hj
    exact hsame i hi j hj
  | false =>
    simp only [owned, Bool.false_eq_true, if_false] at hi hj
    split at hi
    · split at hj
      · simp_all
      · omega
    · omega

theorem Balanced.excludes (h : s.Balanced fun _ _ => 0) : s.Excludes := by
  have howned (recursive : Bool) (i : Nat) (hi : s.Holds recursive i) : 0 < s.owned recursive i := by
    have hbalance := h.balance i recursive
    have hheld := h.held i recursive
    rcases hi with hlt | ⟨k, hcall⟩
    · omega
    · have hgrant : (s.call i).grants recursive = 1 := by simp [hcall, LockCall.grants]
      omega
  have hone (recursive : Bool) (i j : Nat) (hi : s.Holds recursive i) (hj : s.Holds recursive j) : i = j :=
    owned_unique h.same (howned recursive i hi) (howned recursive j hj)
  refine ⟨h.queue.kind, hone, fun i j hne hi => ?_⟩
  have hheld := h.held j true
  by_contra hlt
  exact hne (hone true i j hi (.inl (by omega)))

theorem Balanced.setCall (h : s.Balanced returned) {call : LockCall}
    (hgrants : ∀ recursive, call.grants recursive = (s.call groupIdx).grants recursive)
    (hold : ∀ recursive, s.call groupIdx ≠ .queued recursive) (hnew : ∀ recursive, call ≠ .queued recursive)
    (hgranted : ∀ recursive given, call ≠ .granted recursive given) :
    (s.setCall groupIdx call).Balanced returned := by
  refine { h with
    balance := fun i k => ?_
    queue := h.queue.set hold hnew fun k given heq => absurd heq (hgranted k given) }
  rw [GroupLock.setCall, grants_set hgrants]
  exact h.balance i k

/-- The first section gives the lock to the caller, who is its owner once more. -/
theorem acquire_some {s' : GroupLock} (h : s.acquire groupIdx recursive = some s') :
    ∃ owners owner, s' = { s with recursiveLockOwners := owners, lockOwnerIdx := owner } ∧
      (∀ k i, s'.owned k i = s.owned k i + returning groupIdx recursive i k) ∧
      ((∀ i ∈ s.recursiveLockOwners, ∀ j ∈ s.recursiveLockOwners, i = j) → ∀ i ∈ owners, ∀ j ∈ owners, i = j) := by
  rw [acquire] at h
  split at h
  · rename_i hfree
    cases h
    obtain ⟨hrec, hfree⟩ := hfree
    subst hrec
    refine ⟨groupIdx :: s.recursiveLockOwners, s.lockOwnerIdx, rfl, fun k i => ?_, fun hsame => ?_⟩
    · cases k <;> simp [owned, returning, List.count_cons, @eq_comm _ i]
    · have hown : ∀ i ∈ s.recursiveLockOwners, i = groupIdx := by
        intro i hi
        rcases hfree with hnil | hhead
        · simp [hnil] at hi
        · exact hsame i hi groupIdx (List.mem_of_head? hhead)
      have hall : ∀ i ∈ groupIdx :: s.recursiveLockOwners, i = groupIdx :=
        List.forall_mem_cons.mpr ⟨rfl, hown⟩
      intro i hi j hj
      rw [hall i hi, hall j hj]
  · split at h
    · rename_i hfree
      cases h
      obtain ⟨hrec, hfree⟩ := hfree
      simp only [Bool.not_eq_true] at hrec
      subst hrec
      refine ⟨s.recursiveLockOwners, some groupIdx, rfl, fun k i => ?_, id⟩
      cases k <;> simp [owned, returning, hfree, @eq_comm _ i]
    · cases h

theorem Balanced.tryLock (h : s.Balanced returned) : (s.tryLock groupIdx).Balanced returned := by
  cases hcall : s.call groupIdx with
  | idle | refused | queued | granted => simpa only [GroupLock.tryLock, hcall] using h
  | requested recursive =>
    cases hacq : s.acquire groupIdx recursive with
    | none =>
      simp only [GroupLock.tryLock, hcall, hacq]
      apply h.setCall <;> simp [hcall, LockCall.grants]
    | some s' =>
      simp only [GroupLock.tryLock, hcall, hacq]
      obtain ⟨owners, owner, rfl, howned, hsame⟩ := acquire_some hacq
      refine ⟨fun i k => ?_, h.held, hsame h.same, h.queue.set (by simp [hcall]) nofun
        (granted_asAsked recursive)⟩
      have hbalance := h.balance i k
      have hgrants := @grants_grant s.call groupIdx (by simp [hcall, LockCall.grants]) recursive i k
      have hmore := howned k i
      simp only [GroupLock.setCall, hgrants]
      change _ = s.unlocked i k + owned { s with recursiveLockOwners := owners, lockOwnerIdx := owner } k i
      omega

theorem Balanced.joinQueue (h : s.Balanced returned) : (s.joinQueue groupIdx).Balanced returned := by
  cases hcall : s.call groupIdx with
  | idle | requested | queued | granted => simpa only [GroupLock.joinQueue, hcall] using h
  | refused recursive =>
    simp only [GroupLock.joinQueue, hcall]
    refine { h with balance := fun i k => ?_, queue := h.queue.join (by simp [hcall]) recursive }
    rw [GroupLock.setCall, grants_set (by simp [hcall, LockCall.grants])]
    exact h.balance i k

theorem Balanced.recvMessage (h : s.Balanced returned) : (s.recvMessage groupIdx).Balanced returned := by
  cases hcall : s.call groupIdx with
  | idle | requested | refused | queued => simpa only [GroupLock.recvMessage, hcall] using h
  | granted recursive given =>
    obtain rfl := h.queue.kind groupIdx recursive given hcall
    simp only [GroupLock.recvMessage, hcall]
    have hcount (i : Nat) (k : Bool) : countUp s.locked groupIdx given i k =
        s.locked i k + returning groupIdx given i k := countUp_apply s.locked groupIdx i given k
    refine { h with
      balance := fun i k => ?_
      held := fun i k => (h.held i k).trans ((Nat.le_add_right _ _).trans_eq (hcount i k).symm)
      queue := h.queue.set (by simp [hcall]) nofun nofun }
    -- the grant becomes a lock held
    have hgrants : (s.call i).grants k = (update s.call groupIdx .idle i).grants k +
        returning groupIdx given i k := by
      by_cases hi : i = groupIdx
      · subst hi
        simp [hcall, LockCall.grants, returning, @eq_comm _ k]
      · simp [hi, returning]
    have hbalance := h.balance i k
    change countUp s.locked groupIdx given i k + (update s.call groupIdx .idle i).grants k +
      s.unlocks.count (i, k) + returned i k = s.unlocked i k + s.owned k i
    rw [hcount]
    omega

theorem Balanced.taken_off {owners : List Nat} {owner : Option Nat}
    (h : s.Balanced (returning groupIdx recursive))
    (hsame : ∀ i ∈ owners, ∀ j ∈ owners, i = j)
    (howned : ∀ k i, owned { s with recursiveLockOwners := owners, lockOwnerIdx := owner } k i +
      returning groupIdx recursive i k = s.owned k i) :
    Balanced { s with recursiveLockOwners := owners, lockOwnerIdx := owner } fun _ _ => 0 := by
  refine { h with balance := fun i k => ?_, same := hsame }
  have hbalance := h.balance i k
  have hless := howned k i
  simp only
  omega

theorem Balanced.passed_on {owners waiters : List Nat} {owner : Option Nat} {waiter : Nat}
    (h : s.Balanced (returning groupIdx recursive)) (hwaiters : s.lockWaiters = waiter :: waiters)
    (hcall : s.call waiter = .queued recursive) (hsame : ∀ i ∈ owners, ∀ j ∈ owners, i = j)
    (howned : ∀ k i, owned { s with recursiveLockOwners := owners, lockOwnerIdx := owner } k i +
      returning groupIdx recursive i k = s.owned k i + returning waiter recursive i k) :
    Balanced (notifyLocked { s with
      recursiveLockOwners := owners, lockOwnerIdx := owner, lockWaiters := waiters } waiter recursive)
      fun _ _ => 0 := by
  simp only [notifyLocked, hcall]
  refine ⟨fun i k => ?_, h.held, hsame, (hwaiters ▸ h.queue).pop recursive⟩
  have hgrants := @grants_grant s.call waiter (by simp [hcall, LockCall.grants]) recursive i k
  have hbalance := h.balance i k
  have hmove := howned k i
  simp only [GroupLock.setCall, hgrants]
  change _ = s.unlocked i k + owned { s with recursiveLockOwners := owners, lockOwnerIdx := owner } k i
  omega

theorem Balanced.release (h : s.Balanced (returning groupIdx recursive))
    (hnext : ∀ waiter ∈ s.nextOwner recursive, s.call waiter = .queued recursive) :
    (s.release recursive).Balanced fun _ _ => 0 := by
  have howner : 0 < s.owned recursive groupIdx := by
    have hbalance := h.balance groupIdx recursive
    have hheld := h.held groupIdx recursive
    have hone : returning groupIdx recursive groupIdx recursive = 1 := by simp [returning]
    omega
  cases recursive with
  | true =>
    -- all owners on the stack are the member
    simp only [owned, if_true, List.count_pos_iff] at howner
    obtain ⟨owner, rest, howners⟩ := List.exists_cons_of_ne_nil (List.ne_nil_of_mem howner)
    have hfirst : owner = groupIdx := h.same owner (by simp [howners]) groupIdx howner
    subst hfirst
    have hsame : ∀ i ∈ rest, ∀ j ∈ rest, i = j := fun i hi j hj =>
      h.same i (by simp [howners, hi]) j (by simp [howners, hj])
    cases hrest : rest with
    | cons next rest' =>
      have hkept : s.release true = { s with recursiveLockOwners := rest } := by
        simp [GroupLock.release, howners, hrest]
      rw [hkept]
      apply h.taken_off hsame
      intro k i
      cases k <;> simp [owned, returning, howners, List.count_cons, @eq_comm _ i]
    | nil =>
      cases hwaiters : s.lockWaiters with
      | nil =>
        have hfreed : s.release true = { s with recursiveLockOwners := [] } := by
          simp [GroupLock.release, howners, hrest, hwaiters]
        rw [hfreed]
        apply h.taken_off (by simp)
        intro k i
        cases k <;> simp [owned, returning, howners, hrest, List.count_cons, @eq_comm _ i]
      | cons waiter waiters =>
        have hpassed : s.release true = notifyLocked
            { s with recursiveLockOwners := [waiter], lockWaiters := waiters } waiter true := by
          simp [GroupLock.release, howners, hrest, hwaiters]
        rw [hpassed]
        apply h.passed_on hwaiters (hnext waiter (by simp [nextOwner, howners, hrest, hwaiters])) (by simp)
        intro k i
        cases k
        · simp [owned, returning]
        · simp [owned, returning, howners, hrest, List.count_cons, @eq_comm _ i]
          omega
  | false =>
    have howns : s.lockOwnerIdx = some groupIdx := by
      by_contra hne
      simp [owned, hne] at howner
    cases hwaiters : s.lockWaiters with
    | nil =>
      have hfreed : s.release false = { s with lockOwnerIdx := none } := by
        simp [GroupLock.release, hwaiters]
      rw [hfreed]
      apply h.taken_off h.same
      intro k i
      cases k <;> simp [owned, returning, howns, @eq_comm _ i]
    | cons waiter waiters =>
      have hpassed : s.release false = notifyLocked
          { s with lockOwnerIdx := some waiter, lockWaiters := waiters } waiter false := by
        simp [GroupLock.release, hwaiters]
      rw [hpassed]
      apply h.passed_on hwaiters (hnext waiter (by simp [nextOwner, hwaiters])) h.same
      intro k i
      cases k
      · simp [owned, returning, howns, @eq_comm _ i]
        omega
      · simp [owned, returning]

theorem Balanced.countUp_unlocked (h : s.Balanced fun _ _ => 0) (hmay : s.MayUnlock groupIdx recursive) :
    Balanced { s with unlocked := countUp s.unlocked groupIdx recursive } (returning groupIdx recursive) := by
  have hcount (i : Nat) (k : Bool) : countUp s.unlocked groupIdx recursive i k =
      s.unlocked i k + returning groupIdx recursive i k := countUp_apply s.unlocked groupIdx i recursive k
  refine { h with balance := fun i k => ?_, held := fun i k => ?_ }
  · have hbalance := h.balance i k
    have := hcount i k
    change s.locked i k + (s.call i).grants k + s.unlocks.count (i, k) + returning groupIdx recursive i k =
      countUp s.unlocked groupIdx recursive i k + s.owned k i
    omega
  · have hheld := h.held i k
    have := hcount i k
    simp only
    by_cases hik : k = recursive ∧ i = groupIdx
    · obtain ⟨rfl, rfl⟩ := hik
      have hlt := hmay.2
      simp only [returning, and_self, if_true] at this
      omega
    · simp only [returning, if_neg hik] at this
      omega

theorem Balanced.unlock (h : s.Balanced fun _ _ => 0)
    (hguard : PassesOnKind s (.unlock groupIdx recursive)) :
    (s.unlock groupIdx recursive).Balanced fun _ _ => 0 := by
  rw [GroupLock.unlock]
  split
  · rename_i hmay
    have hcounted := h.countUp_unlocked hmay
    dsimp only
    split
    · rename_i hmain
      exact hcounted.release (hguard hmain hmay)
    · refine { hcounted with balance := fun i k => ?_ }
      have hbalance := hcounted.balance i k
      have hadd : (s.unlocks ++ [(groupIdx, recursive)]).count (i, k) =
          s.unlocks.count (i, k) + returning groupIdx recursive i k := by
        rw [List.count_append, List.count_singleton]
        simp only [returning, beq_iff_eq, Prod.mk.injEq, @eq_comm _ groupIdx, @eq_comm _ recursive, and_comm]
      change s.locked i k + (s.call i).grants k + (s.unlocks ++ [(groupIdx, recursive)]).count (i, k) + 0 =
        countUp s.unlocked groupIdx recursive i k + s.owned k i
      change s.locked i k + (s.call i).grants k + s.unlocks.count (i, k) + returning groupIdx recursive i k =
        countUp s.unlocked groupIdx recursive i k + s.owned k i at hbalance
      omega
  · exact h

theorem Balanced.recvGroupUnlock (h : s.Balanced fun _ _ => 0)
    (hguard : PassesOnKind s (.recvGroupUnlock groupIdx recursive)) :
    (s.recvGroupUnlock groupIdx recursive).Balanced fun _ _ => 0 := by
  rw [GroupLock.recvGroupUnlock]
  split
  · rename_i hmem
    have htaken : Balanced { s with unlocks := s.unlocks.erase (groupIdx, recursive) }
        (returning groupIdx recursive) := by
      refine { h with balance := fun i k => ?_ }
      have hbalance := h.balance i k
      have hcount : (s.unlocks.erase (groupIdx, recursive)).count (i, k) = s.unlocks.count (i, k) -
          if ((groupIdx, recursive) == (i, k)) = true then 1 else 0 := List.count_erase
      have hpos : (i, k) = (groupIdx, recursive) → 0 < s.unlocks.count (i, k) := by
        intro heq
        rw [heq]
        exact List.count_pos_iff.mpr hmem
      change s.locked i k + (s.call i).grants k + (s.unlocks.erase (groupIdx, recursive)).count (i, k) +
        returning groupIdx recursive i k = s.unlocked i k + s.owned k i
      by_cases hik : (i, k) = (groupIdx, recursive)
      · have := hpos hik
        obtain ⟨rfl, rfl⟩ := Prod.mk.inj hik
        simp [returning] at hcount ⊢
        omega
      · have hne : ¬(k = recursive ∧ i = groupIdx) := fun ⟨hk, hi⟩ => hik (by rw [hk, hi])
        simp only [returning, if_neg hne]
        simp [Ne.symm hik] at hcount
        omega
    exact htaken.release (hguard hmem)
  · exact h

theorem Balanced.step (h : s.Balanced fun _ _ => 0) {action : LockAction} (hguard : PassesOnKind s action) :
    (action.step s).Balanced fun _ _ => 0 := by
  cases action with
  | lock groupIdx recursive =>
    simp only [LockAction.step]
    split
    · rename_i hidle
      apply h.setCall <;> simp [hidle, LockCall.grants]
    · exact h
  | tryLock groupIdx => exact h.tryLock
  | joinQueue groupIdx => exact h.joinQueue
  | recvMessage groupIdx => exact h.recvMessage
  | unlock groupIdx recursive => exact h.unlock hguard
  | recvGroupUnlock groupIdx recursive => exact h.recvGroupUnlock hguard

theorem balanced_start (onMain : Nat → Bool) : Balanced { onMain } fun _ _ => 0 := by
  refine ⟨?_, ?_, ?_, ?_, ?_, fun _ => nofun⟩ <;> simp [owned, LockCall.grants]

end Steps

end GroupLock

end Faabric
