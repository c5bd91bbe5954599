import Faabric.SchedulingDecision
import Faabric.Lib.GuardedRun

/-! An id is the hash of the process's random key plus an atomic counter. Threads generate ids in any order, and the
ids are stored in signed fields. -/

namespace Faabric

open Function GuardedRun

def INT32_MAX : Nat := 2 ^ 31 - 1

/-- Where a thread is in `generateGid`: outside, about to lock because the hash was zero, about to read the hash,
and about to add the counter to the hash it read, possibly again because the sum was zero. -/
inductive GidCall where
  | idle
  | locking
  | keyed
  | adding (intHash : Nat) (again : Bool)
  deriving DecidableEq

def GidCall.read : GidCall → Option Nat
  | .adding intHash _ => some intHash
  | _ => none

structure GidProcess where
  counter : Nat
  gidKeyHash : Nat
  calls : Nat → GidCall
  returned : List Nat

/-- A thread locks with the hash of the key that it draws if there is none yet. -/
inductive GidAction where
  | call (thread : Nat)
  | lock (thread keyHash : Nat)
  | load (thread : Nat)
  | fetchAdd (thread : Nat)

namespace GidProcess

def start : GidProcess := ⟨0, 0, fun _ => .idle, []⟩

def intHash (s : GidProcess) : Nat := s.gidKeyHash % INT32_MAX

def setCall (s : GidProcess) (t : Nat) (call : GidCall) : GidProcess := { s with calls := update s.calls t call }

def step (s : GidProcess) : GidAction → GidProcess
  | .call t => if s.calls t = .idle then s.setCall t (if s.gidKeyHash = 0 then .locking else .keyed) else s
  | .lock t keyHash =>
    if s.calls t = .locking then
      { s.setCall t .keyed with gidKeyHash := if s.gidKeyHash = 0 then keyHash % 2 ^ 64 else s.gidKeyHash }
    else s
  | .load t => if s.calls t = .keyed then s.setCall t (.adding s.intHash false) else s
  | .fetchAdd t =>
    match s.calls t with
    | .adding intHash again =>
      let result := (intHash + s.counter) % 2 ^ 32
      if again ∨ result ≠ 0 then
        { s.setCall t .idle with counter := s.counter + 1, returned := s.returned ++ [result] }
      else { s.setCall t (.adding intHash true) with counter := s.counter + 1 }
    | _ => s

/-- The sum is not yet out of the signed range, and a thread that read a zero before the hash of a key was stored has
not counted up to that hash. -/
def AddsClear (s : GidProcess) : GidAction → Prop
  | .fetchAdd t => ∀ i ∈ (s.calls t).read, i + s.counter < 2 ^ 31 ∧ (i = s.intHash ∨ s.counter < s.intHash)
  | _ => True

instance (s : GidProcess) (a : GidAction) : Decidable (s.AddsClear a) := by
  cases a <;> unfold AddsClear <;> infer_instance

/-- The value of an id in a signed 32-bit field. -/
def signed (id : Nat) : Int := if id < 2 ^ 31 then id else id - 2 ^ 32

structure Usable (s : GidProcess) : Prop where
  distinct : s.returned.Nodup
  nonzero : ∀ id ∈ s.returned, id ≠ 0
  positive : ∀ id ∈ s.returned, 0 < signed id
  apart : ∀ id ∈ s.returned, signed id ∉ [NOT_ENOUGH_SLOTS_DECISION.groupId, DO_NOT_MIGRATE_DECISION.groupId,
    MUST_FREEZE_DECISION.groupId, FIXED_SIZE_PRELOADED_DECISION_GROUPID]

def Counted (intHash counter id : Nat) : Prop :=
  0 < id ∧ id < 2 ^ 31 ∧ (id < counter ∨ intHash ≤ id ∧ id < intHash + counter)

def Follows (intHash counter : Nat) : GidCall → Prop
  | .adding i again => (i = 0 ∨ i = intHash) ∧ (again → 0 < counter)
  | _ => True

/-- A thread counts from zero if it read the hash before it was stored, and otherwise from the hash. -/
structure Ok (s : GidProcess) : Prop where
  distinct : s.returned.Nodup
  range : ∀ id ∈ s.returned, Counted s.intHash s.counter id
  calls : ∀ t, Follows s.intHash s.counter (s.calls t)

variable {s : GidProcess} {t : Nat} {c : GidCall}

theorem Ok.setCall (h : s.Ok) (hcall : Follows s.intHash s.counter c) : (s.setCall t c).Ok := by
  refine { h with calls := ?_ }
  exact (forall_update_iff s.calls fun _ => Follows s.intHash s.counter).mpr ⟨hcall, fun t' _ => h.calls t'⟩

theorem Ok.increment (h : s.Ok) : Ok { s with counter := s.counter + 1 } := by
  refine { h with range := fun id hid => ?_, calls := fun t => ?_ }
  · obtain ⟨hpos, hlt, hcounted⟩ := h.range id hid
    exact ⟨hpos, hlt, hcounted.imp Nat.lt_succ_of_lt (And.imp_right Nat.lt_succ_of_lt)⟩
  · have hcall := h.calls t
    revert hcall
    cases s.calls t with
    | adding i again => exact fun hcall => ⟨hcall.1, fun _ => Nat.succ_pos _⟩
    | _ => exact id

theorem Ok.lock (h : s.Ok) (hzero : s.gidKeyHash = 0) (keyHash : Nat) : Ok { s with gidKeyHash := keyHash } := by
  have hint : s.intHash = 0 := by rw [intHash, hzero, Nat.zero_mod]
  refine { h with range := fun id hid => ?_, calls := fun t => ?_ }
  · obtain ⟨hpos, hlt, hcounted⟩ := h.range id hid
    have hlow : id < s.counter := by omega
    exact ⟨hpos, hlt, Or.inl hlow⟩
  · have hcall := h.calls t
    revert hcall
    cases s.calls t with
    | adding i again => exact fun hcall => ⟨Or.inl (hcall.1.elim id (·.trans hint)), hcall.2⟩
    | _ => exact id

theorem Ok.giveBack (h : s.Ok) {id : Nat} (hnew : id ∉ s.returned) (hcounted : Counted s.intHash s.counter id) :
    Ok { s with returned := s.returned ++ [id] } := by
  refine { h with distinct := List.nodup_append.mpr ⟨h.distinct, List.nodup_singleton _, ?_⟩, range := ?_ }
  · rintro id' hid' _ hid rfl
    exact hnew (List.mem_singleton.mp hid ▸ hid')
  · intro id' hid'
    rcases List.mem_append.mp hid' with hid' | hid'
    · exact h.range id' hid'
    · exact List.mem_singleton.mp hid' ▸ hcounted

theorem Ok.fetchAdd (h : s.Ok) (hclear : s.AddsClear (.fetchAdd t)) : (s.step (.fetchAdd t)).Ok := by
  have hcall := h.calls t
  rcases hc : s.calls t with _ | _ | _ | ⟨i, again⟩ <;> simp only [GidProcess.step, hc]
  case adding =>
    rw [hc] at hcall
    obtain ⟨hlt, hcurrent⟩ := hclear i (by rw [hc]; rfl)
    have hread := hcall.1
    rw [Nat.mod_eq_of_lt (by omega)]
    split_ifs with hresult
    · have hpos : 0 < i + s.counter := by
        rcases hresult with hagain | hresult
        · exact Nat.add_pos_right _ (hcall.2 hagain)
        · omega
      refine (h.increment.setCall (t := t) (c := .idle) trivial).giveBack (fun hid => ?_) ⟨hpos, hlt, ?_⟩
      · -- the sum is beyond what was counted from zero and what was counted from the hash
        have hcounted := (h.range _ hid).2.2
        omega
      · show i + s.counter < s.counter + 1 ∨ s.intHash ≤ i + s.counter ∧ i + s.counter < s.intHash + (s.counter + 1)
        omega
    · exact h.increment.setCall ⟨hread, fun _ => Nat.succ_pos _⟩
  all_goals exact h

theorem Ok.step (h : s.Ok) {a : GidAction} (hclear : s.AddsClear a) : (s.step a).Ok := by
  cases a with
  | call t =>
    simp only [GidProcess.step]
    split_ifs
    · exact h.setCall trivial
    · exact h.setCall trivial
    · exact h
  | lock t keyHash =>
    simp only [GidProcess.step]
    split_ifs with hcall hzero
    · exact (h.setCall (t := t) (c := .keyed) trivial).lock hzero _
    · exact h.setCall trivial
    · exact h
  | load t =>
    simp only [GidProcess.step]
    split_ifs
    · exact h.setCall ⟨Or.inr rfl, nofun⟩
    · exact h
  | fetchAdd t => exact h.fetchAdd hclear

theorem Ok.usable (h : s.Ok) : s.Usable := by
  have hsigned : ∀ id ∈ s.returned, 0 < signed id := by
    intro id hid
    obtain ⟨hpos, hlt, -⟩ := h.range id hid
    rw [signed, if_pos hlt]
    exact_mod_cast hpos
  refine ⟨h.distinct, fun id hid => (h.range id hid).1.ne', hsigned, fun id hid hmem => ?_⟩
  have hnegative : ∀ x ∈ [(-99 : Int), -98, -97, -99], x < 0 := by decide
  exact (hsigned id hid).not_gt (hnegative _ hmem)

end GidProcess

open GidProcess

theorem generated_gids_usable {ops : List GidAction} (h : Meets step AddsClear start ops) :
    (run step start ops).Usable :=
  (h.invariant (fun _ _ hs hclear => Ok.step hs hclear) ⟨List.nodup_nil, nofun, fun _ => trivial⟩).usable

def GidAction.ofCall (t keyHash : Nat) : List GidAction := [.call t, .lock t keyHash, .load t, .fetchAdd t]

theorem generated_gids_usable_from_zero :
    Meets step AddsClear start (GidAction.ofCall 0 0 ++ GidAction.ofCall 1 7) ∧
      (run step start (GidAction.ofCall 0 0 ++ GidAction.ofCall 1 7)).Usable :=
  ⟨by decide +kernel, generated_gids_usable (by decide +kernel)⟩

/-- With a hash next to `INT32_MAX` the third id is negative in a signed field. And two keys are drawn, and two ids
are equal, if the first key hashes to zero. -/
theorem generated_gids_fail :
    ¬ (run step start ((List.replicate 3 (GidAction.ofCall 0 (2 ^ 31 - 2))).flatten)).Usable ∧
      ¬ (run step start [.call 0, .lock 0 0, .load 0, .call 1, .lock 1 1, .load 1, .fetchAdd 1, .fetchAdd 0]).Usable :=
  ⟨fun h => absurd (h.positive (2 ^ 31) (by decide +kernel)) (by decide +kernel),
    fun h => absurd h.distinct (by decide +kernel)⟩

end Faabric
