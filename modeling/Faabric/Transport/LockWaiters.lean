import Faabric.Transport.GroupLock

/-! Waiters of a group lock that is used with one kind of request only: somebody who will release the
lock must be there for each of them. -/

namespace Faabric

variable {action : LockAction}

def LockAction.OfKind (kind : Bool) : LockAction → Prop
  | .lock _ recursive | .unlock _ recursive | .recvGroupUnlock _ recursive => recursive = kind
  | _ => True

instance (kind : Bool) : (action : LockAction) → Decidable (action.OfKind kind)
  | .lock _ recursive | .unlock _ recursive | .recvGroupUnlock _ recursive =>
    inferInstanceAs (Decidable (recursive = kind))
  | .tryLock _ | .joinQueue _ | .recvMessage _ => instDecidableTrue

def LockCall.kind : LockCall → Option Bool
  | .idle => none
  | .requested recursive | .refused recursive | .queued recursive | .granted recursive _ => some recursive

namespace GroupLock

def owner (s : GroupLock) (recursive : Bool) : Option Nat :=
  if recursive then s.recursiveLockOwners.head? else s.lockOwnerIdx

def HeldByOther (s : GroupLock) (recursive : Bool) (groupIdx : Nat) : Prop :=
  ∃ other ∈ s.owner recursive, other ≠ groupIdx

instance (s : GroupLock) (recursive : Bool) (groupIdx : Nat) : Decidable (s.HeldByOther recursive groupIdx) :=
  inferInstanceAs (Decidable (∃ _ ∈ _, _))

end GroupLock

/-- When a refused call joins the queue, another member still holds the lock. -/
def StillHeld (s : GroupLock) : LockAction → Prop
  | .joinQueue groupIdx => ∀ recursive, s.call groupIdx = .refused recursive → s.HeldByOther recursive groupIdx
  | _ => True

instance (s : GroupLock) : (action : LockAction) → Decidable (StillHeld s action)
  | .joinQueue _ => inferInstanceAs (Decidable (∀ _, _ → _))
  | .lock .. | .tryLock _ | .recvMessage _ | .unlock .. | .recvGroupUnlock .. => instDecidableTrue

namespace GroupLock

def CallsOfKind (s : GroupLock) (kind : Bool) : Prop :=
  ∀ groupIdx, ∀ recursive ∈ (s.call groupIdx).kind, recursive = kind

/-- All calls are of one kind, and every waiter waits for another member. -/
structure Attended (s : GroupLock) (kind : Bool) : Prop where
  balanced : s.Balanced fun _ _ => 0
  kinds : s.CallsOfKind kind
  held : ∀ groupIdx ∈ s.lockWaiters, s.HeldByOther kind groupIdx

variable {s : GroupLock} {kind recursive : Bool} {groupIdx : Nat}

theorem Attended.queued (h : s.Attended kind) (hmem : groupIdx ∈ s.lockWaiters) :
    s.call groupIdx = .queued kind := by
  obtain ⟨recursive, hcall⟩ := (h.balanced.queue.waits groupIdx).mp hmem
  have hkind := h.kinds groupIdx recursive (by simp [hcall, LockCall.kind])
  rw [hcall, hkind]

theorem Attended.passesOnKind (h : s.Attended kind) (hkind : action.OfKind kind) :
    PassesOnKind s action := by
  have hwaiter (waiter : Nat) (hnext : waiter ∈ s.nextOwner kind) : s.call waiter = .queued kind := by
    apply h.queued
    rw [nextOwner] at hnext
    split at hnext
    · cases hnext
    · exact List.mem_of_head? hnext
  cases action with
  | lock | tryLock | joinQueue | recvMessage => trivial
  | unlock groupIdx recursive =>
    cases hkind
    exact fun _ _ => hwaiter
  | recvGroupUnlock groupIdx recursive =>
    cases hkind
    exact fun _ => hwaiter

theorem CallsOfKind.setCall (h : s.CallsOfKind kind) {call : LockCall}
    (hcall : ∀ recursive ∈ call.kind, recursive = kind) : (s.setCall groupIdx call).CallsOfKind kind := by
  intro i
  by_cases hi : i = groupIdx
  · subst hi
    rwa [setCall_self]
  · rw [setCall_other s call hi]
    exact h i

theorem CallsOfKind.setCall_same (h : s.CallsOfKind kind) {call : LockCall}
    (hcall : call.kind = (s.call groupIdx).kind) : (s.setCall groupIdx call).CallsOfKind kind :=
  h.setCall (hcall ▸ h groupIdx)

theorem CallsOfKind.notifyLocked (h : s.CallsOfKind kind) (given : Bool) :
    (s.notifyLocked groupIdx given).CallsOfKind kind := by
  rw [GroupLock.notifyLocked]
  split
  · rename_i asked hcall
    exact h.setCall_same (by rw [hcall]; rfl)
  · exact h

theorem notifyLocked_frame (s : GroupLock) (groupIdx : Nat) (given : Bool) :
    s.notifyLocked groupIdx given = { s with call := (s.notifyLocked groupIdx given).call } := by
  rw [notifyLocked]
  split <;> rfl

theorem CallsOfKind.release (h : s.CallsOfKind kind) : (s.release recursive).CallsOfKind kind := by
  have hcalls {owners waiters : List Nat} {owner : Option Nat} : CallsOfKind { s with
    recursiveLockOwners := owners, lockOwnerIdx := owner, lockWaiters := waiters } kind := h
  rw [GroupLock.release]
  split
  · split
    · exact h
    · exact hcalls.notifyLocked true
    · exact h
  · split
    · exact hcalls.notifyLocked false
    · exact h

theorem release_held (hsame : ∀ i ∈ s.recursiveLockOwners, ∀ j ∈ s.recursiveLockOwners, i = j)
    (hnodup : s.lockWaiters.Nodup) (hheld : ∀ groupIdx ∈ s.lockWaiters, s.HeldByOther kind groupIdx) :
    ∀ groupIdx ∈ (s.release kind).lockWaiters, (s.release kind).HeldByOther kind groupIdx := by
  have hpassed {waiter : Nat} {waiters : List Nat} (hwaiters : s.lockWaiters = waiter :: waiters) :
      ∀ i ∈ waiters, waiter ≠ i := by
    rw [hwaiters] at hnodup
    rintro i hi rfl
    exact (List.nodup_cons.mp hnodup).1 hi
  cases kind with
  | true =>
    simp only [release, if_true]
    split
    · rename_i next rest hrest
      intro i hi
      obtain ⟨other, howner, hne⟩ := hheld i hi
      simp only [owner, if_true, Option.mem_def] at howner
      have hnext : next = other := hsame next (List.mem_of_mem_tail (by simp [hrest])) other
        (List.mem_of_head? howner)
      exact ⟨next, rfl, hnext ▸ hne⟩
    · rename_i waiter waiters _ hwaiters
      rw [notifyLocked_frame]
      exact fun i hi => ⟨waiter, rfl, hpassed hwaiters i hi⟩
    · rename_i hwaiters
      intro i hi
      simp [hwaiters] at hi
  | false =>
    simp only [release, Bool.false_eq_true, if_false]
    split
    · rename_i waiter waiters hwaiters
      rw [notifyLocked_frame]
      exact fun i hi => ⟨waiter, rfl, hpassed hwaiters i hi⟩
    · rename_i hwaiters
      intro i hi
      simp [hwaiters] at hi

theorem acquire_held {s' : GroupLock} (hheld : ∀ i ∈ s.lockWaiters, s.HeldByOther kind i)
    (h : s.acquire groupIdx kind = some s') : ∀ i ∈ s'.lockWaiters, s'.HeldByOther kind i := by
  rw [acquire] at h
  split at h
  · rename_i hfree
    cases h
    obtain ⟨hkind, hfree⟩ := hfree
    subst hkind
    intro i hi
    obtain ⟨other, howner, hne⟩ := hheld i hi
    simp only [owner, if_true, Option.mem_def] at howner
    rcases hfree with hnil | hhead
    · simp [hnil] at howner
    · have heq : other = groupIdx := Option.some.inj (howner.symm.trans hhead)
      exact ⟨groupIdx, rfl, heq ▸ hne⟩
  · split at h
    · rename_i hfree
      cases h
      obtain ⟨hkind, hfree⟩ := hfree
      simp only [Bool.not_eq_true] at hkind
      subst hkind
      intro i hi
      obtain ⟨other, howner, -⟩ := hheld i hi
      simp [owner, hfree] at howner
    · cases h

theorem acquire_frame {s' : GroupLock} (h : s.acquire groupIdx recursive = some s') : s'.call = s.call := by
  obtain ⟨_, _, rfl, -, -⟩ := acquire_some h
  rfl

theorem CallsOfKind.step (h : s.CallsOfKind kind) (hkind : action.OfKind kind) :
    (action.step s).CallsOfKind kind := by
  cases action with
  | lock groupIdx recursive =>
    simp only [LockAction.step]
    split
    · cases hkind
      exact h.setCall (by simp [LockCall.kind])
    · exact h
  | tryLock groupIdx =>
    simp only [LockAction.step, GroupLock.tryLock]
    split
    · rename_i recursive hcall
      split
      · rename_i s' hacq
        have hcalls : s'.call = s.call := acquire_frame hacq
        have h' : s'.CallsOfKind kind := by rwa [CallsOfKind, hcalls]
        exact h'.setCall_same (by rw [hcalls, hcall]; rfl)
      · exact h.setCall_same (by rw [hcall]; rfl)
    · exact h
  | joinQueue groupIdx =>
    simp only [LockAction.step, GroupLock.joinQueue]
    split
    · rename_i recursive hcall
      have h' : CallsOfKind { s with lockWaiters := s.lockWaiters ++ [groupIdx] } kind := h
      exact h'.setCall_same (by rw [hcall]; rfl)
    · exact h
  | recvMessage groupIdx =>
    simp only [LockAction.step, GroupLock.recvMessage]
    split
    · rename_i recursive given hcall
      have h' : CallsOfKind { s with locked := countUp s.locked groupIdx recursive } kind := h
      exact h'.setCall (by simp [LockCall.kind])
    · exact h
  | unlock groupIdx recursive =>
    simp only [LockAction.step, GroupLock.unlock]
    split
    · have h' : CallsOfKind { s with unlocked := countUp s.unlocked groupIdx recursive } kind := h
      split
      · exact h'.release
      · exact h
    · exact h
  | recvGroupUnlock groupIdx recursive =>
    simp only [LockAction.step, GroupLock.recvGroupUnlock]
    split
    · have h' : CallsOfKind { s with unlocks := s.unlocks.erase (groupIdx, recursive) } kind := h
      exact h'.release
    · exact h

theorem Attended.step (h : s.Attended kind) (hkind : action.OfKind kind)
    (hguard : StillHeld s action) : (action.step s).Attended kind := by
  refine ⟨h.balanced.step (h.passesOnKind hkind), h.kinds.step hkind, ?_⟩
  cases action with
  | lock groupIdx recursive =>
    simp only [LockAction.step]
    split <;> exact h.held
  | tryLock groupIdx =>
    simp only [LockAction.step, GroupLock.tryLock]
    split
    · rename_i recursive hcall
      split
      · rename_i s' hacq
        have hasked : recursive = kind := h.kinds groupIdx recursive (by simp [hcall, LockCall.kind])
        subst hasked
        have hheld := acquire_held h.held hacq
        exact hheld
      · exact h.held
    · exact h.held
  | joinQueue groupIdx =>
    simp only [LockAction.step, GroupLock.joinQueue]
    split
    · rename_i recursive hcall
      have hasked : recursive = kind := h.kinds groupIdx recursive (by simp [hcall, LockCall.kind])
      subst hasked
      intro i hi
      rcases List.mem_append.mp hi with hold | hnew
      · exact h.held i hold
      · rw [List.mem_singleton.mp hnew]
        exact hguard recursive hcall
    · exact h.held
  | recvMessage groupIdx =>
    simp only [LockAction.step, GroupLock.recvMessage]
    split <;> exact h.held
  | unlock groupIdx recursive =>
    have hasked : recursive = kind := hkind
    subst hasked
    simp only [LockAction.step, GroupLock.unlock]
    split
    · split
      · exact @release_held { s with unlocked := countUp s.unlocked groupIdx recursive } recursive
          h.balanced.same h.balanced.queue.nodup h.held
      · exact h.held
    · exact h.held
  | recvGroupUnlock groupIdx recursive =>
    have hasked : recursive = kind := hkind
    subst hasked
    simp only [LockAction.step, GroupLock.recvGroupUnlock]
    split
    · exact @release_held { s with unlocks := s.unlocks.erase (groupIdx, recursive) } recursive
        h.balanced.same h.balanced.queue.nodup h.held
    · exact h.held

end GroupLock

end Faabric
