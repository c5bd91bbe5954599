import Faabric.Lib.GuardedRun

/-! Control messages and ordered data of one group. Both go through the same endpoint of a pair of members; only
ordered receives look at the buffer of early messages. -/

namespace Faabric

open Function

/-- `sequenceNum` is `none` for `NO_SEQUENCE_NUM`, and `pair` has the sender and the receiver. -/
structure GroupMessage where
  pair : Nat × Nat
  data : List UInt8
  sequenceNum : Option Nat
deriving Repr, DecidableEq

inductive PtpCall where
  | sendMessage (recvIdx : Nat) (data : List UInt8) (mustOrderMsg : Bool)
  | recvMessage (sendIdx : Nat) (mustOrderMsg : Bool)
deriving Repr, DecidableEq

inductive GroupCall where
  | sendMessage (recvIdx : Nat) (data : List UInt8)
  | recvMessage (sendIdx : Nat)
  | barrier
  | notify
  | awaitLock
deriving Repr, DecidableEq

def otherIdxs (groupSize : Nat) : List Nat := List.range' 1 (groupSize - 1)

def GroupCall.calls (groupSize groupIdx : Nat) : GroupCall → List PtpCall
  | .sendMessage recvIdx data => [.sendMessage recvIdx data true]
  | .recvMessage sendIdx => [.recvMessage sendIdx true]
  | .barrier =>
    if groupIdx = 0 then
      (otherIdxs groupSize).map (.recvMessage · false) ++ (otherIdxs groupSize).map (.sendMessage · [0] false)
    else [.sendMessage 0 [0] false, .recvMessage 0 false]
  | .notify =>
    if groupIdx = 0 then (otherIdxs groupSize).map (.recvMessage · false)
    else [.sendMessage 0 [0] false]
  | .awaitLock => [.recvMessage 0 false]

/-- A member with the calls it still has to make. While it waits in `recvMessage`, `receiving` has the sender and
the sequence number expected, if the receive is an ordered one. -/
structure GroupMember where
  calls : List PtpCall := []
  receiving : Option (Nat × Option Nat) := none
  sentMsgCount : Nat → Nat := fun _ => 0
  recvMsgCount : Nat → Nat := fun _ => 0
  outOfOrderMsgs : Nat → List GroupMessage := fun _ => []

/-- Messages go through a server of the receiver's host, whose threads may pass them on in any order, to the
endpoint of their pair. `sent` has the messages of a pair in the order of the sends, `taken` those that the receiver
has taken off the endpoint, `satisfied` those that a wait for a control message returned with, and `received` the
number of receives that have returned. -/
structure GroupTraffic where
  groupSize : Nat
  members : Nat → GroupMember := fun _ => {}
  transit : List GroupMessage := []
  endpoints : Nat × Nat → List GroupMessage := fun _ => []
  sent : Nat × Nat → List GroupMessage := fun _ => []
  taken : Nat × Nat → List GroupMessage := fun _ => []
  satisfied : Nat × Nat → List GroupMessage := fun _ => []
  received : Nat × Nat → Nat := fun _ => 0

inductive TrafficAction where
  | call (groupIdx : Nat) (op : GroupCall)
  | proceed (groupIdx : Nat) (isLocal : Bool)
  | notifyLocked (groupIdx : Nat) (isLocal : Bool)
  | doAsyncRecv (n : Nat)
  | doRecvMessage (groupIdx : Nat)
deriving Repr, DecidableEq

namespace GroupTraffic

def setMember (s : GroupTraffic) (groupIdx : Nat) (m : GroupMember) : GroupTraffic :=
  { s with members := update s.members groupIdx m }

/-- A local receiver's endpoint gets the message at once. -/
def send (s : GroupTraffic) (msg : GroupMessage) (isLocal : Bool) : GroupTraffic :=
  { s with
    sent := update s.sent msg.pair (s.sent msg.pair ++ [msg])
    transit := if isLocal then s.transit else s.transit ++ [msg]
    endpoints := if isLocal then update s.endpoints msg.pair (s.endpoints msg.pair ++ [msg])
      else s.endpoints }

/-- The member starts its next call. An ordered receive looks at the buffer first. -/
def proceed (s : GroupTraffic) (groupIdx : Nat) (isLocal : Bool) : GroupTraffic :=
  let m := s.members groupIdx
  match m.receiving, m.calls with
  | none, .sendMessage recvIdx data mustOrderMsg :: calls =>
    if mustOrderMsg then
      (s.send ⟨(groupIdx, recvIdx), data, some (m.sentMsgCount recvIdx)⟩ isLocal).setMember groupIdx
        { m with
          calls
          sentMsgCount := update m.sentMsgCount recvIdx (m.sentMsgCount recvIdx + 1) }
    else (s.send ⟨(groupIdx, recvIdx), data, none⟩ isLocal).setMember groupIdx { m with calls }
  | none, .recvMessage sendIdx mustOrderMsg :: calls =>
    if mustOrderMsg then
      let expected := m.recvMsgCount sendIdx
      match (m.outOfOrderMsgs sendIdx).find? (·.sequenceNum = some expected) with
      | some _ =>
        { s with
          received := update s.received (sendIdx, groupIdx)
            (s.received (sendIdx, groupIdx) + 1) }.setMember groupIdx
          { m with
            calls
            recvMsgCount := update m.recvMsgCount sendIdx (expected + 1)
            outOfOrderMsgs := update m.outOfOrderMsgs sendIdx
              ((m.outOfOrderMsgs sendIdx).eraseP (·.sequenceNum = some expected)) }
      | none => s.setMember groupIdx { m with calls, receiving := some (sendIdx, some expected) }
    else s.setMember groupIdx { m with calls, receiving := some (sendIdx, none) }
  | _, _ => s

def doAsyncRecv (s : GroupTraffic) (n : Nat) : GroupTraffic :=
  match s.transit[n]? with
  | some msg =>
    { s with
      transit := s.transit.eraseIdx n
      endpoints := update s.endpoints msg.pair (s.endpoints msg.pair ++ [msg]) }
  | none => s

/-- The member takes a message off the endpoint it waits on. A wait for a control message returns with any message;
an ordered receive puts the ones that it does not expect into the buffer. -/
def doRecvMessage (s : GroupTraffic) (groupIdx : Nat) : GroupTraffic :=
  let m := s.members groupIdx
  match m.receiving with
  | none => s
  | some (sendIdx, asked) =>
    let pair := (sendIdx, groupIdx)
    match s.endpoints pair with
    | [] => s
    | msg :: rest =>
      let s := { s with
        endpoints := update s.endpoints pair rest
        taken := update s.taken pair (s.taken pair ++ [msg]) }
      match asked with
      | none =>
        { s with
          satisfied := update s.satisfied pair (s.satisfied pair ++ [msg])
          received := update s.received pair (s.received pair + 1) }.setMember groupIdx
          { m with receiving := none }
      | some expected =>
        if msg.sequenceNum = some expected then
          { s with received := update s.received pair (s.received pair + 1) }.setMember groupIdx
            { m with
              receiving := none
              recvMsgCount := update m.recvMsgCount sendIdx (expected + 1) }
        else
          s.setMember groupIdx
            { m with
              outOfOrderMsgs := update m.outOfOrderMsgs sendIdx (m.outOfOrderMsgs sendIdx ++ [msg]) }

end GroupTraffic

def TrafficAction.step (s : GroupTraffic) : TrafficAction → GroupTraffic
  | .call groupIdx op =>
    let m := s.members groupIdx
    if m.calls = [] ∧ m.receiving = none then
      s.setMember groupIdx { m with calls := op.calls s.groupSize groupIdx }
    else s
  | .proceed groupIdx isLocal => s.proceed groupIdx isLocal
  -- the thread that gives the lock to the member sends the message
  | .notifyLocked groupIdx isLocal => s.send ⟨(0, groupIdx), [0], none⟩ isLocal
  | .doAsyncRecv n => s.doAsyncRecv n
  | .doRecvMessage groupIdx => s.doRecvMessage groupIdx

/-! One pair of members. -/

/-- The messages of one pair, given by their sequence numbers. -/
structure PairView where
  sent : List (Option Nat)
  pending : List (Option Nat)
  taken : List (Option Nat)
  satisfied : List (Option Nat)
  early : List (Option Nat)
  sentMsgCount : Nat
  recvMsgCount : Nat
  received : Nat
  receiving : Option (Option Nat)

namespace PairView

/-- A message that a receive of the other kind takes has overtaken no message of the kind that is asked for. Control
messages are all the same: the one that is taken counts as the first that has not been taken. -/
def InTurn (v : PairView) : Option Nat → Option Nat → Prop
  | none, some k => ∀ i < v.sent.length, v.sent[i]? = some (some k) →
      (v.sent.take i).count none ≤ v.taken.count none
  | some _, none => ∀ i < v.sent.length, v.sent[i]? = some none →
      (v.sent.take i).count none = v.taken.count none →
      ∀ seq ∈ v.sent.take i, seq.isSome → seq ∈ v.taken
  | _, _ => True

instance (v : PairView) : (asked seq : Option Nat) → Decidable (v.InTurn asked seq)
  | none, some k => inferInstanceAs (Decidable (∀ i < v.sent.length, v.sent[i]? = some (some k) →
      (v.sent.take i).count none ≤ v.taken.count none))
  | some _, none =>
    have (i : Nat) : Decidable (∀ seq ∈ v.sent.take i, seq.isSome → seq ∈ v.taken) := inferInstance
    inferInstanceAs (Decidable (∀ i < v.sent.length, v.sent[i]? = some none →
      (v.sent.take i).count none = v.taken.count none →
      ∀ seq ∈ v.sent.take i, seq.isSome → seq ∈ v.taken))
  | none, none => isTrue trivial
  | some _, some _ => isTrue trivial

end PairView

namespace GroupTraffic

def waitsFor (m : GroupMember) (sendIdx : Nat) : Option (Option Nat) :=
  match m.receiving with
  | some (i, asked) => if i = sendIdx then some asked else none
  | none => none

def view (s : GroupTraffic) (pair : Nat × Nat) : PairView where
  sent := (s.sent pair).map GroupMessage.sequenceNum
  pending := (s.transit.filter (·.pair = pair) ++ s.endpoints pair).map GroupMessage.sequenceNum
  taken := (s.taken pair).map GroupMessage.sequenceNum
  satisfied := (s.satisfied pair).map GroupMessage.sequenceNum
  early := ((s.members pair.2).outOfOrderMsgs pair.1).map GroupMessage.sequenceNum
  sentMsgCount := (s.members pair.1).sentMsgCount pair.2
  recvMsgCount := (s.members pair.2).recvMsgCount pair.1
  received := s.received pair
  receiving := waitsFor (s.members pair.2) pair.1

end GroupTraffic

/-- Whether the messages of a pair are ordered data, one after the other. -/
abbrev Plan := Nat × Nat → Nat → Bool

def FollowsPlan (plan : Plan) (s : GroupTraffic) (groupIdx : Nat) : PtpCall → Prop
  | .sendMessage recvIdx _ mustOrderMsg =>
    plan (groupIdx, recvIdx) (s.sent (groupIdx, recvIdx)).length = mustOrderMsg ∧
      (s.sent (groupIdx, recvIdx)).length + 1 < 2 ^ 31
  | .recvMessage sendIdx mustOrderMsg => plan (sendIdx, groupIdx) (s.received (sendIdx, groupIdx)) = mustOrderMsg

instance (plan : Plan) (s : GroupTraffic) (groupIdx : Nat) (call : PtpCall) :
    Decidable (FollowsPlan plan s groupIdx call) := by
  cases call <;> unfold FollowsPlan <;> infer_instance

/-- Both members of a pair follow the plan for it. -/
def Matching (plan : Plan) (s : GroupTraffic) : TrafficAction → Prop
  | .proceed groupIdx _ => (s.members groupIdx).receiving = none →
      ∀ call ∈ (s.members groupIdx).calls.head?, FollowsPlan plan s groupIdx call
  | .notifyLocked groupIdx _ => plan (0, groupIdx) (s.sent (0, groupIdx)).length = false
  | _ => True

def TakenInTurn (s : GroupTraffic) : TrafficAction → Prop
  | .doRecvMessage groupIdx => ∀ wait ∈ (s.members groupIdx).receiving,
      ∀ msg ∈ (s.endpoints (wait.1, groupIdx)).head?,
        (s.view (wait.1, groupIdx)).InTurn wait.2 msg.sequenceNum
  | _ => True

instance (plan : Plan) (s : GroupTraffic) (action : TrafficAction) : Decidable (Matching plan s action) := by
  cases action <;> unfold Matching <;> infer_instance

instance (s : GroupTraffic) (action : TrafficAction) : Decidable (TakenInTurn s action) := by
  cases action <;> unfold TakenInTurn <;> infer_instance

namespace PairView

def seqOf (plan : Nat → Bool) (i : Nat) : Option Nat :=
  if plan i then some (Nat.count (plan · = true) i) else none

section Numbers

variable {plan : Nat → Bool} {i j k n : Nat}

theorem seqOf_eq_none : seqOf plan i = none ↔ plan i = false := by
  rw [seqOf]
  split_ifs with h
  · simp [h]
  · simpa using h

theorem seqOf_eq_some : seqOf plan i = some k ↔ plan i = true ∧ Nat.count (plan · = true) i = k := by
  rw [seqOf]
  split_ifs with h
  · simp [h]
  · simp [h]

theorem count_data_lt (hi : plan i = true) (hij : i < j) :
    Nat.count (plan · = true) i < Nat.count (plan · = true) j :=
  Nat.count_strict_mono hi hij

theorem seqOf_inj (hi : seqOf plan i = some k) (hj : seqOf plan j = some k) : i = j := by
  obtain ⟨hpi, hi⟩ := seqOf_eq_some.mp hi
  obtain ⟨hpj, hj⟩ := seqOf_eq_some.mp hj
  exact Nat.count_injective hpi hpj (hi.trans hj.symm)

theorem count_none (plan : Nat → Bool) (n : Nat) :
    ((List.range n).map (seqOf plan)).count none = Nat.count (plan · = false) n := by
  induction n with
  | zero => simp
  | succ n ih =>
    rw [List.range_succ, List.map_append, List.count_append, ih, Nat.count_succ]
    cases h : plan n <;> simp [seqOf, h]

theorem exists_control (h : k < Nat.count (plan · = false) n) :
    ∃ i < n, plan i = false ∧ Nat.count (plan · = false) i = k := by
  induction n with
  | zero => simp at h
  | succ n ih =>
    rw [Nat.count_succ] at h
    by_cases hk : k < Nat.count (plan · = false) n
    · obtain ⟨i, hi, hrest⟩ := ih hk
      exact ⟨i, by omega, hrest⟩
    · split_ifs at h with hn
      · exact ⟨n, by omega, hn, by omega⟩
      · omega

theorem data_nodup (plan : Nat → Bool) (n : Nat) :
    (((List.range n).map (seqOf plan)).filter Option.isSome).Nodup := by
  rw [List.filter_map]
  apply List.Nodup.map_on _ (List.nodup_range.filter _)
  intro i hi j hj hij
  obtain ⟨k, hk⟩ := Option.isSome_iff_exists.mp (List.mem_filter.mp hi).2
  exact seqOf_inj hk (hij ▸ hk)

end Numbers

/-- The messages of a pair that follows the plan, with no message taken by a receive of the other kind. -/
structure Ok (plan : Nat → Bool) (v : PairView) : Prop where
  numbered : v.sent = (List.range v.sent.length).map (seqOf plan)
  sends : v.sentMsgCount = Nat.count (plan · = true) v.sent.length
  receives : v.recvMsgCount = Nat.count (plan · = true) v.received
  conserved : (v.taken ++ v.pending).Perm v.sent
  inKind : v.taken.filter Option.isNone = v.satisfied
  waits : v.satisfied.length = Nat.count (plan · = false) v.received
  ordered : ∀ seq ∈ v.early, seq.isSome
  early : v.early.Nodup
  data : ∀ k, some k ∈ v.taken ↔ k < v.recvMsgCount ∨ some k ∈ v.early
  asked : ∀ asked ∈ v.receiving, asked = seqOf plan v.received ∧ asked ∉ v.early

variable {plan : Nat → Bool} {v : PairView}

theorem Ok.none_count (h : v.Ok plan) : v.taken.count none = Nat.count (plan · = false) v.received := by
  rw [← h.waits, ← h.inKind, List.count_eq_length_filter, List.filter_congr]
  intro seq _
  cases seq <;> rfl

theorem Ok.not_taken (h : v.Ok plan) {k : Nat} (hk : some k ∈ v.pending) : some k ∉ v.taken := by
  intro htaken
  have hperm := h.conserved.filter Option.isSome
  rw [h.numbered, List.filter_append] at hperm
  have hnd := hperm.nodup_iff.mpr (data_nodup plan _)
  exact (List.nodup_append.mp hnd).2.2 _ (List.mem_filter.mpr ⟨htaken, rfl⟩) _
    (List.mem_filter.mpr ⟨hk, rfl⟩) rfl

theorem Ok.getElem?_sent (h : v.Ok plan) {i : Nat} (hi : i < v.sent.length) :
    v.sent[i]? = some (seqOf plan i) := by
  rw [h.numbered]
  simp [hi]

theorem Ok.take_sent (h : v.Ok plan) {i : Nat} (hi : i ≤ v.sent.length) :
    v.sent.take i = (List.range i).map (seqOf plan) := by
  rw [h.numbered, ← List.map_take, List.take_range, Nat.min_eq_left hi]

variable {seq : Option Nat}

theorem Ok.exists_sent (h : v.Ok plan) (hseq : seq ∈ v.pending) :
    ∃ i < v.sent.length, seqOf plan i = seq := by
  have hmem : seq ∈ v.sent := h.conserved.subset (List.mem_append_right _ hseq)
  rw [h.numbered] at hmem
  simpa using hmem

theorem Ok.control_asked (h : v.Ok plan) (hasked : v.receiving = some none) (hseq : seq ∈ v.pending)
    (hturn : v.InTurn none seq) : seq = none := by
  cases seq with
  | none => rfl
  | some k =>
    obtain ⟨i, hi, hk⟩ := h.exists_sent hseq
    obtain ⟨hplan, hcount⟩ := seqOf_eq_some.mp hk
    have hcontrol : plan v.received = false := seqOf_eq_none.mp (h.asked none hasked).1.symm
    -- the data message was sent after the control message that is waited for
    have hnew : v.recvMsgCount ≤ k := by
      by_contra hlt
      exact h.not_taken hseq ((h.data k).mpr (Or.inl (by omega)))
    have hafter : v.received < i := by
      rcases Nat.lt_trichotomy i v.received with hlt | heq | hgt
      · have hmore := count_data_lt hplan hlt
        rw [h.receives] at hnew
        omega
      · rw [heq, hcontrol] at hplan
        cases hplan
      · exact hgt
    have hbefore := hturn i hi (by rw [h.getElem?_sent hi, hk])
    rw [h.take_sent hi.le, count_none, h.none_count] at hbefore
    have hmore : Nat.count (plan · = false) v.received < Nat.count (plan · = false) i :=
      Nat.count_strict_mono hcontrol hafter
    omega

theorem Ok.data_asked {expected : Nat} (h : v.Ok plan) (hasked : v.receiving = some (some expected))
    (hseq : seq ∈ v.pending) (hturn : v.InTurn (some expected) seq) : seq ≠ none := by
  rintro rfl
  obtain ⟨hexp, hnot⟩ := h.asked _ hasked
  obtain ⟨hdata, hcount⟩ := seqOf_eq_some.mp hexp.symm
  have htotal : Nat.count (plan · = false) v.received < Nat.count (plan · = false) v.sent.length := by
    have hall := h.conserved.count_eq none
    rw [h.numbered, count_none, List.count_append, h.none_count] at hall
    have hpos := List.count_pos_iff.mpr hseq
    omega
  -- the first control message that has not been taken was sent after the data message that is expected
  obtain ⟨i, hi, hcontrol, hnumber⟩ := exists_control htotal
  have hafter : v.received < i := by
    rcases Nat.lt_trichotomy i v.received with hlt | heq | hgt
    · have hmore : Nat.count (plan · = false) i < Nat.count (plan · = false) v.received :=
        Nat.count_strict_mono hcontrol hlt
      omega
    · rw [heq, hdata] at hcontrol
      cases hcontrol
    · exact hgt
  have hin : seqOf plan v.received ∈ v.sent.take i := by
    rw [h.take_sent hi.le]
    exact List.mem_map_of_mem (List.mem_range.mpr hafter)
  have htaken := hturn i hi (by rw [h.getElem?_sent hi, seqOf_eq_none.mpr hcontrol])
    (by rw [h.take_sent hi.le, count_none, hnumber, h.none_count]) _ hin (by rw [← hexp]; rfl)
  rw [← hexp, h.data] at htaken
  rcases htaken with hold | hearly
  · rw [h.receives] at hold
    omega
  · exact hnot hearly

/-! What the broker's calls do to a pair. -/

variable {pending : List (Option Nat)}

theorem Ok.send {sentMsgCount : Nat} (h : v.Ok plan) (hseq : seq = seqOf plan v.sent.length)
    (hcount : sentMsgCount = Nat.count (plan · = true) (v.sent.length + 1))
    (hpending : pending.Perm (seq :: v.pending)) :
    Ok plan { v with sent := v.sent ++ [seq], pending, sentMsgCount } := by
  refine { h with numbered := ?_, sends := by simpa using hcount, conserved := ?_ }
  · simp only [List.length_append, List.length_singleton, List.range_succ, List.map_append, List.map_cons, List.map_nil]
    rw [← h.numbered, hseq]
  · calc (v.taken ++ pending).Perm (v.taken ++ seq :: v.pending) := hpending.append_left _
      _ |>.Perm (seq :: (v.taken ++ v.pending)) := List.perm_middle
      _ |>.Perm (seq :: v.sent) := h.conserved.cons _
      _ |>.Perm (v.sent ++ [seq]) := (List.perm_append_singleton _ _).symm

theorem Ok.reorder (h : v.Ok plan) (hpending : pending.Perm v.pending) : Ok plan { v with pending } :=
  { h with conserved := (hpending.append_left _).trans h.conserved }

theorem Ok.wait (h : v.Ok plan) {asked : Option Nat} (hplan : asked = seqOf plan v.received)
    (hearly : asked ∉ v.early) : Ok plan { v with receiving := some asked } := by
  refine { h with asked := ?_ }
  rintro _ ⟨⟩
  exact ⟨hplan, hearly⟩

theorem Ok.control_not_early (h : v.Ok plan) : none ∉ v.early := by
  intro hmem
  cases h.ordered none hmem

theorem Ok.returnEarly (h : v.Ok plan) (hplan : plan v.received = true) (hmem : some v.recvMsgCount ∈ v.early) :
    Ok plan { v with
      early := v.early.erase (some v.recvMsgCount)
      recvMsgCount := v.recvMsgCount + 1
      received := v.received + 1
      receiving := none } := by
  refine { h with
    receives := by simp [Nat.count_succ, hplan, h.receives]
    waits := by simp [Nat.count_succ, hplan, h.waits]
    ordered := fun seq hseq => h.ordered seq (List.mem_of_mem_erase hseq)
    early := h.early.erase _
    data := ?_
    asked := nofun }
  intro k
  rw [h.data, h.early.mem_erase_iff]
  by_cases hk : k = v.recvMsgCount
  · simp [hk, hmem]
  · have hlt : k < v.recvMsgCount ↔ k < v.recvMsgCount + 1 := by omega
    simp [hk, hlt]

theorem Ok.takeControl (h : v.Ok plan) (hasked : v.receiving = some none)
    (hpending : v.pending.Perm (none :: pending)) :
    Ok plan { v with
      pending
      taken := v.taken ++ [none]
      satisfied := v.satisfied ++ [none]
      received := v.received + 1
      receiving := none } := by
  have hplan : plan v.received = false := seqOf_eq_none.mp (h.asked none hasked).1.symm
  exact { h with
    receives := by simp [Nat.count_succ, hplan, h.receives]
    conserved := by simpa using (hpending.symm.append_left _).trans h.conserved
    inKind := by simp [h.inKind]
    waits := by simp [Nat.count_succ, hplan, h.waits]
    data := fun k => by simpa using h.data k
    asked := nofun }

theorem Ok.takeData (h : v.Ok plan) {expected k : Nat} (hasked : v.receiving = some (some expected))
    (hpending : v.pending.Perm (some k :: pending)) :
    Ok plan (if k = expected then
        { v with
          pending
          taken := v.taken ++ [some k]
          recvMsgCount := expected + 1
          received := v.received + 1
          receiving := none }
      else { v with pending, taken := v.taken ++ [some k], early := v.early ++ [some k] }) := by
  obtain ⟨hexp, hnot⟩ := h.asked _ hasked
  obtain ⟨hplan, hcount⟩ := seqOf_eq_some.mp hexp.symm
  have hexpected : expected = v.recvMsgCount := by rw [← hcount, h.receives]
  have hnew := h.not_taken (hpending.mem_iff.mpr List.mem_cons_self)
  have hconserved : (v.taken ++ [some k] ++ pending).Perm v.sent := by
    simpa using (hpending.symm.append_left _).trans h.conserved
  have hkind : (v.taken ++ [some k]).filter Option.isNone = v.satisfied := by simp [h.inKind]
  split_ifs with hk
  · subst hk
    refine { h with
      receives := by simp [Nat.count_succ, hplan, hcount]
      conserved := hconserved
      inKind := hkind
      waits := by simp [Nat.count_succ, hplan, h.waits]
      data := fun j => ?_
      asked := nofun }
    have hlt : j < k + 1 ↔ j < v.recvMsgCount ∨ j = k := by omega
    simp only [List.mem_append, List.mem_singleton, Option.some.injEq, h.data, hlt, or_right_comm]
  · rw [h.data, not_or] at hnew
    refine { h with
      conserved := hconserved
      inKind := hkind
      ordered := fun seq hseq => ?_
      early := h.early.append (List.nodup_singleton _) (by simpa using hnew.2)
      data := fun j => by simp only [List.mem_append, List.mem_singleton, h.data, or_assoc]
      asked := fun asked hasked' => ?_ }
    · rcases List.mem_append.mp hseq with hold | hlast
      · exact h.ordered seq hold
      · rw [List.mem_singleton.mp hlast]
        rfl
    · obtain rfl : some expected = asked := Option.some.inj (hasked.symm.trans hasked')
      simpa [hnot, Ne.symm hk] using hexp

end PairView

namespace GroupTraffic

variable {s : GroupTraffic} {groupIdx : Nat} {m m' : GroupMember} {pair : Nat × Nat}

/-- What the view of a pair shows of its receiver. -/
def inbox (m : GroupMember) (sendIdx : Nat) : List GroupMessage × Nat × Option (Option Nat) :=
  (m.outOfOrderMsgs sendIdx, m.recvMsgCount sendIdx, waitsFor m sendIdx)

theorem view_setMember (hrecv : pair.2 = groupIdx → inbox m pair.1 = inbox (s.members groupIdx) pair.1)
    (hsend : pair.1 = groupIdx → m.sentMsgCount pair.2 = (s.members groupIdx).sentMsgCount pair.2) :
    (s.setMember groupIdx m).view pair = s.view pair := by
  simp only [inbox, Prod.mk.injEq] at hrecv
  simp only [view, setMember, update_apply]
  by_cases h : pair.2 = groupIdx <;> by_cases h' : pair.1 = groupIdx <;> simp_all

theorem view_setMember_receiver (sendIdx : Nat) (hsend : m.sentMsgCount = (s.members groupIdx).sentMsgCount) :
    (s.setMember groupIdx m).view (sendIdx, groupIdx) =
      { s.view (sendIdx, groupIdx) with
        early := (m.outOfOrderMsgs sendIdx).map GroupMessage.sequenceNum
        recvMsgCount := m.recvMsgCount sendIdx
        receiving := waitsFor m sendIdx } := by
  by_cases h : sendIdx = groupIdx <;> simp [view, setMember, h, hsend]

theorem view_setMember_sender (recvIdx : Nat) (hrecv : inbox m = inbox (s.members groupIdx)) :
    (s.setMember groupIdx m).view (groupIdx, recvIdx) =
      { s.view (groupIdx, recvIdx) with sentMsgCount := m.sentMsgCount recvIdx } := by
  by_cases h : recvIdx = groupIdx
  · have hself := congrFun hrecv groupIdx
    simp only [inbox, Prod.mk.injEq] at hself
    simp [view, setMember, h, hself]
  · simp [view, setMember, h]

theorem view_send (s : GroupTraffic) (msg : GroupMessage) (isLocal : Bool) : ∃ pending,
    pending.Perm (msg.sequenceNum :: (s.view msg.pair).pending) ∧
    (s.send msg isLocal).view msg.pair =
      { s.view msg.pair with sent := (s.view msg.pair).sent ++ [msg.sequenceNum], pending } := by
  refine ⟨((s.send msg isLocal).view msg.pair).pending, ?_, by simp [view, send]⟩
  cases isLocal with
  | true =>
    simp only [view, send, if_true, update_self, List.map_append, ← List.append_assoc, List.map_cons,
      List.map_nil]
    exact List.perm_append_singleton _ _
  | false =>
    simp only [view, send, Bool.false_eq_true, if_false, List.filter_append, List.map_append,
      List.filter_cons, decide_true, if_true, List.filter_nil, List.map_cons, List.map_nil, List.append_assoc]
    exact List.perm_middle

theorem view_send_other {msg : GroupMessage} (isLocal : Bool) (hne : pair ≠ msg.pair) :
    (s.send msg isLocal).view pair = s.view pair := by
  have hne' : msg.pair ≠ pair := hne.symm
  cases isLocal <;> simp [view, send, hne, hne']

def Apart (plan : Plan) (s : GroupTraffic) : Prop := ∀ pair, (s.view pair).Ok (plan pair)

variable {plan : Plan} {calls : List PtpCall}

theorem Apart.send (h : s.Apart plan) {recvIdx : Nat} {seq : Option Nat} (data : List UInt8) (isLocal : Bool)
    (hseq : seq = PairView.seqOf (plan (groupIdx, recvIdx)) (s.sent (groupIdx, recvIdx)).length)
    (hrecv : inbox m = inbox (s.members groupIdx))
    (hcount : m.sentMsgCount recvIdx =
      Nat.count (plan (groupIdx, recvIdx) · = true) ((s.sent (groupIdx, recvIdx)).length + 1))
    (hother : ∀ j ≠ recvIdx, m.sentMsgCount j = (s.members groupIdx).sentMsgCount j) :
    ((s.send ⟨(groupIdx, recvIdx), data, seq⟩ isLocal).setMember groupIdx m).Apart plan := by
  intro pair
  by_cases hpair : pair = (groupIdx, recvIdx)
  · subst hpair
    obtain ⟨pending, hpending, hview⟩ := view_send s ⟨(groupIdx, recvIdx), data, seq⟩ isLocal
    have hlen : (s.view (groupIdx, recvIdx)).sent.length = (s.sent (groupIdx, recvIdx)).length := by simp [view]
    rw [view_setMember_sender (s := s.send _ isLocal) recvIdx hrecv, hview]
    exact (h (groupIdx, recvIdx)).send (hseq.trans (by rw [hlen])) (hcount.trans (by rw [hlen])) hpending
  · rw [view_setMember (fun _ => by rw [hrecv]; rfl), view_send_other isLocal hpair]
    · exact h pair
    · rintro rfl
      exact hother _ fun heq => hpair (Prod.ext rfl heq)

/-- The member waits for, or has got, a message of the pair; the state `s` already shows it for the other pairs. -/
theorem Apart.setMember (sendIdx : Nat) (h : ∀ pair ≠ (sendIdx, groupIdx), (s.view pair).Ok (plan pair))
    (hm : s.members groupIdx = m) (hsend : m'.sentMsgCount = m.sentMsgCount)
    (hrecv : ∀ i ≠ sendIdx, inbox m' i = inbox m i)
    (hok : PairView.Ok (plan (sendIdx, groupIdx)) { s.view (sendIdx, groupIdx) with
      early := (m'.outOfOrderMsgs sendIdx).map GroupMessage.sequenceNum
      recvMsgCount := m'.recvMsgCount sendIdx
      receiving := waitsFor m' sendIdx }) : (s.setMember groupIdx m').Apart plan := by
  subst hm
  intro pair
  by_cases hpair : pair = (sendIdx, groupIdx)
  · subst hpair
    rwa [view_setMember_receiver sendIdx hsend]
  · rw [view_setMember (fun hg => hrecv _ fun hs => hpair (Prod.ext hs hg)) fun _ => by rw [hsend]]
    exact h pair hpair

theorem Apart.wait (h : s.Apart plan) (hidle : (s.members groupIdx).receiving = none) {sendIdx : Nat}
    {asked : Option Nat}
    (hplan : asked = PairView.seqOf (plan (sendIdx, groupIdx)) (s.received (sendIdx, groupIdx)))
    (hearly : asked ∉ (s.view (sendIdx, groupIdx)).early) :
    (s.setMember groupIdx { s.members groupIdx with calls, receiving := some (sendIdx, asked) }).Apart plan := by
  refine Apart.setMember sendIdx (fun pair _ => h pair) rfl rfl ?_ ?_
  · intro i hi
    simp [inbox, waitsFor, hidle, hi.symm]
  · simpa [view, waitsFor] using (h (sendIdx, groupIdx)).wait hplan hearly

theorem map_eraseP_sequenceNum (msgs : List GroupMessage) (expected : Nat) :
    (msgs.eraseP (·.sequenceNum = some expected)).map GroupMessage.sequenceNum =
      (msgs.map GroupMessage.sequenceNum).erase (some expected) := by
  induction msgs with
  | nil => rfl
  | cons msg msgs ih =>
    by_cases h : msg.sequenceNum = some expected
    · simp [h]
    · simp [h, ih]

theorem Apart.control_sent (h : s.Apart plan) (hplan : plan pair (s.sent pair).length = false) :
    (s.members pair.1).sentMsgCount pair.2 = Nat.count (plan pair · = true) ((s.sent pair).length + 1) := by
  simpa [view, Nat.count_succ, hplan] using (h pair).sends

theorem Apart.proceed (h : s.Apart plan) {isLocal : Bool} (hok : Matching plan s (.proceed groupIdx isLocal)) :
    (s.proceed groupIdx isLocal).Apart plan := by
  rw [GroupTraffic.proceed]
  dsimp only
  split
  · rename_i recvIdx data mustOrderMsg calls hidle hcalls
    obtain ⟨hplan, -⟩ : FollowsPlan plan s groupIdx (.sendMessage recvIdx data mustOrderMsg) :=
      hok hidle _ (by rw [hcalls]; rfl)
    split_ifs with horder
    · have hdata := hplan.trans horder
      have hcount : (s.members groupIdx).sentMsgCount recvIdx =
          Nat.count (plan (groupIdx, recvIdx) · = true) (s.sent (groupIdx, recvIdx)).length := by
        simpa [view] using (h (groupIdx, recvIdx)).sends
      refine h.send _ _ (PairView.seqOf_eq_some.mpr ⟨hdata, hcount.symm⟩).symm rfl ?_ ?_
      · simp [Nat.count_succ, hdata, hcount]
      · intro j hj
        simp [hj]
    · have hcontrol := hplan.trans (by simpa using horder)
      exact h.send _ _ (PairView.seqOf_eq_none.mpr hcontrol).symm rfl (h.control_sent hcontrol) fun _ _ => rfl
  · rename_i sendIdx mustOrderMsg calls hidle hcalls
    have hplan : FollowsPlan plan s groupIdx (.recvMessage sendIdx mustOrderMsg) :=
      hok hidle _ (by rw [hcalls]; rfl)
    have hok := h (sendIdx, groupIdx)
    split_ifs with horder
    · have hdata := hplan.trans horder
      split
      · rename_i msg hfound
        have hmem : some (s.view (sendIdx, groupIdx)).recvMsgCount ∈ (s.view (sendIdx, groupIdx)).early := by
          have hseq : msg.sequenceNum = some ((s.members groupIdx).recvMsgCount sendIdx) := by
            simpa using List.find?_some hfound
          exact List.mem_map.mpr ⟨msg, List.mem_of_find?_eq_some hfound, hseq⟩
        refine Apart.setMember sendIdx (fun pair hpair => by simpa [view, hpair] using h pair) rfl rfl ?_ ?_
        · intro i hi
          simp [inbox, waitsFor, hi]
        · simpa [view, map_eraseP_sequenceNum, waitsFor, hidle] using hok.returnEarly hdata hmem
      · rename_i hnone
        apply h.wait hidle (PairView.seqOf_eq_some.mpr ⟨hdata, hok.receives.symm⟩).symm
        intro hmem
        obtain ⟨msg, hmsg, hseq⟩ := List.mem_map.mp hmem
        have hnot := List.find?_eq_none.mp hnone msg hmsg
        simp [hseq, view] at hnot
    · exact h.wait hidle (PairView.seqOf_eq_none.mpr (hplan.trans (by simpa using horder))).symm hok.control_not_early
  · exact h

theorem Apart.doAsyncRecv (h : s.Apart plan) (n : Nat) : (s.doAsyncRecv n).Apart plan := by
  rw [GroupTraffic.doAsyncRecv]
  split
  · rename_i msg hmsg
    obtain ⟨hn, hget⟩ := List.getElem?_eq_some_iff.mp hmsg
    have hperm : (msg :: s.transit.eraseIdx n).Perm s.transit := by
      rw [← hget]
      exact List.getElem_cons_eraseIdx_perm hn
    intro pair
    have hpending : ((s.transit.eraseIdx n).filter (·.pair = pair) ++
        update s.endpoints msg.pair (s.endpoints msg.pair ++ [msg]) pair).Perm
          (s.transit.filter (·.pair = pair) ++ s.endpoints pair) := by
      have hfilter := hperm.filter (·.pair = pair)
      by_cases hpair : pair = msg.pair
      · subst hpair
        simp only [List.filter_cons, decide_true, if_true] at hfilter
        rw [update_self, ← List.append_assoc]
        exact (List.perm_append_singleton _ _).trans (hfilter.append_right _)
      · have hne : ¬msg.pair = pair := fun heq => hpair heq.symm
        simp only [List.filter_cons, hne, decide_false, Bool.false_eq_true, if_false] at hfilter
        rw [update_of_ne hpair]
        exact hfilter.append_right _
    exact (h pair).reorder (hpending.map GroupMessage.sequenceNum)
  · exact h

theorem Apart.doRecvMessage (h : s.Apart plan) (hok : TakenInTurn s (.doRecvMessage groupIdx)) :
    (s.doRecvMessage groupIdx).Apart plan := by
  rw [GroupTraffic.doRecvMessage]
  dsimp only
  split
  · exact h
  rename_i sendIdx asked hreceiving
  split
  · exact h
  rename_i msg rest hendpoint
  have hturn := hok (sendIdx, asked) hreceiving msg (by rw [hendpoint]; rfl)
  have hv := h (sendIdx, groupIdx)
  have hasked : (s.view (sendIdx, groupIdx)).receiving = some asked := by simp [view, waitsFor, hreceiving]
  set pending := (s.transit.filter (·.pair = (sendIdx, groupIdx)) ++ rest).map GroupMessage.sequenceNum with hrest
  have hpending : (s.view (sendIdx, groupIdx)).pending.Perm (msg.sequenceNum :: pending) := by
    simp only [view, hendpoint, hrest]
    exact List.perm_middle.map GroupMessage.sequenceNum
  have hmem : msg.sequenceNum ∈ (s.view (sendIdx, groupIdx)).pending := hpending.mem_iff.mpr List.mem_cons_self
  cases asked with
  | none =>
    have hcontrol := hv.control_asked hasked hmem hturn
    rw [hcontrol] at hpending
    refine Apart.setMember sendIdx (fun pair hpair => by simpa [view, hpair] using h pair) rfl rfl ?_ ?_
    · intro i hi
      simp [inbox, waitsFor, hreceiving, hi.symm]
    · simpa [view, waitsFor, hcontrol, hrest] using hv.takeControl hasked hpending
  | some expected =>
    obtain ⟨k, hk⟩ := Option.ne_none_iff_exists'.mp (hv.data_asked hasked hmem hturn)
    rw [hk] at hpending
    have htake := hv.takeData hasked hpending
    dsimp only
    by_cases hexp : k = expected
    · subst hexp
      rw [if_pos rfl] at htake
      rw [if_pos hk]
      refine Apart.setMember sendIdx (fun pair hpair => by simpa [view, hpair] using h pair) rfl rfl ?_ ?_
      · intro i hi
        simp [inbox, waitsFor, hreceiving, hi, hi.symm]
      · simpa [view, waitsFor, hk, hrest] using htake
    · rw [if_neg hexp] at htake
      rw [if_neg (by simpa [hk] using hexp)]
      refine Apart.setMember sendIdx (fun pair hpair => by simpa [view, hpair] using h pair) rfl rfl ?_ ?_
      · intro i hi
        simp [inbox, waitsFor, hi]
      · simpa [view, waitsFor, hk, hrest, hreceiving] using htake

theorem Apart.step (h : s.Apart plan) {action : TrafficAction} (hplan : Matching plan s action)
    (hturn : TakenInTurn s action) : (action.step s).Apart plan := by
  cases action with
  | call groupIdx op =>
    rw [TrafficAction.step]
    split_ifs
    · intro pair
      rw [view_setMember]
      · exact h pair
      · exact fun _ => rfl
      · exact fun _ => rfl
    · exact h
  | proceed groupIdx isLocal => exact h.proceed hplan
  | notifyLocked groupIdx isLocal =>
    have hsend := h.send [0] isLocal (PairView.seqOf_eq_none.mpr hplan).symm rfl (h.control_sent hplan) fun _ _ => rfl
    simpa [GroupTraffic.setMember, GroupTraffic.send, TrafficAction.step] using hsend
  | doAsyncRecv n => exact h.doAsyncRecv n
  | doRecvMessage groupIdx => exact h.doRecvMessage hturn

theorem apart_start (plan : Plan) (groupSize : Nat) : Apart plan { groupSize } := by
  intro pair
  constructor <;> simp [view, waitsFor]

end GroupTraffic

/-- In every run in which the two members of each pair follow one plan, and no receive takes a message of the other
kind that has overtaken one of its own kind: the messages that waits for control messages returned with are the
control messages taken, and the message that an ordered receive waits for has not been taken. -/
theorem control_and_data_apart {plan : Plan} {groupSize : Nat} {actions : List TrafficAction}
    (h : GuardedRun.Meets TrafficAction.step (fun s action => Matching plan s action ∧ TakenInTurn s action)
      { groupSize } actions) :
    let s := GuardedRun.run TrafficAction.step { groupSize } actions
    (∀ pair, ∀ msg ∈ s.satisfied pair, msg.sequenceNum = none) ∧
      ∀ sendIdx groupIdx asked, (s.members groupIdx).receiving = some (sendIdx, asked) →
        match asked with
        | some expected => ∀ msg ∈ s.taken (sendIdx, groupIdx), msg.sequenceNum ≠ some expected
        | none => (s.taken (sendIdx, groupIdx)).countP (·.sequenceNum = none) =
            (s.satisfied (sendIdx, groupIdx)).length := by
  intro s
  have hstep (s : GroupTraffic) (action : TrafficAction) (hs : s.Apart plan)
      (hok : Matching plan s action ∧ TakenInTurn s action) : (action.step s).Apart plan := hs.step hok.1 hok.2
  have hrun : s.Apart plan := h.invariant hstep (GroupTraffic.apart_start plan groupSize)
  refine ⟨fun pair msg hmsg => ?_, fun sendIdx groupIdx asked hreceiving => ?_⟩
  · have hseq : msg.sequenceNum ∈ (s.view pair).satisfied := List.mem_map_of_mem hmsg
    rw [← (hrun pair).inKind] at hseq
    simpa using (List.mem_filter.mp hseq).2
  · have hv := hrun (sendIdx, groupIdx)
    have hasked : (s.view (sendIdx, groupIdx)).receiving = some asked := by
      simp [GroupTraffic.view, GroupTraffic.waitsFor, hreceiving]
    obtain ⟨hexp, hearly⟩ := hv.asked _ hasked
    cases asked with
    | some expected =>
      intro msg hmsg hseq
      have hmem : some expected ∈ (s.view (sendIdx, groupIdx)).taken := hseq ▸ List.mem_map_of_mem hmsg
      rw [hv.data, hv.receives] at hmem
      obtain ⟨-, hcount⟩ := PairView.seqOf_eq_some.mp hexp.symm
      rcases hmem with hold | hold
      · omega
      · exact hearly hold
    | none =>
      have hlen := congrArg List.length hv.inKind
      simp only [GroupTraffic.view, List.length_map, List.filter_map, comp_def] at hlen
      rw [List.countP_eq_length_filter, ← hlen]
      congr 1
      apply List.filter_congr
      intro msg _
      cases msg.sequenceNum <;> rfl

def barrierThenData : Plan := fun pair i => pair == (0, 1) && 0 < i

def mainRunsAhead : List TrafficAction :=
  [.call 1 .barrier, .proceed 1 false, .call 0 .barrier, .proceed 0 false, .doAsyncRecv 0, .doRecvMessage 0,
    .proceed 0 false, .call 0 (.sendMessage 1 [5]), .proceed 0 false, .call 0 (.sendMessage 1 [6]),
    .proceed 0 false, .proceed 1 false]

/-- The data messages overtake each other, but not the message of the barrier. -/
theorem control_and_data_apart_reordered :
    let s := GuardedRun.run TrafficAction.step { groupSize := 2 }
      (mainRunsAhead ++ [.doAsyncRecv 0, .doRecvMessage 1, .call 1 (.recvMessage 0), .proceed 1 false,
        .doAsyncRecv 1, .doRecvMessage 1])
    (∀ pair, ∀ msg ∈ s.satisfied pair, msg.sequenceNum = none) ∧
      ∀ sendIdx groupIdx asked, (s.members groupIdx).receiving = some (sendIdx, asked) →
        match asked with
        | some expected => ∀ msg ∈ s.taken (sendIdx, groupIdx), msg.sequenceNum ≠ some expected
        | none => (s.taken (sendIdx, groupIdx)).countP (·.sequenceNum = none) =
            (s.satisfied (sendIdx, groupIdx)).length :=
  @control_and_data_apart barrierThenData 2 _ (by decide +kernel)

/-- The first data message overtakes the message of the barrier: the barrier returns with it, and the receive of the
data then waits for it. -/
theorem barrier_takes_data :
    let actions := mainRunsAhead ++ [.doAsyncRecv 1, .doRecvMessage 1, .call 1 (.recvMessage 0), .proceed 1 false]
    let s := GuardedRun.run TrafficAction.step { groupSize := 2 } actions
    GuardedRun.Meets TrafficAction.step (Matching barrierThenData) { groupSize := 2 } actions ∧
      s.satisfied (0, 1) = [⟨(0, 1), [5], some 0⟩] ∧
      (s.members 1).receiving = some (0, some 0) ∧ s.taken (0, 1) = [⟨(0, 1), [5], some 0⟩] := by
  decide +kernel

end Faabric
