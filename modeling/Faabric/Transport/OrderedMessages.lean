import Faabric.Lib.Bytes
import Faabric.Lib.GuardedRun

/-! Ordered point-to-point messages: a sequence number for each message, counters and a buffer of early
messages in each thread, for the group that the thread is in. -/

namespace Faabric

open Bytes Function

structure PtpLabel where
  groupId : Nat
  sendIdx : Nat
  recvIdx : Nat
deriving Repr, DecidableEq

structure PtpMessage where
  label : PtpLabel
  data : List UInt8
  sequenceNum : Nat
deriving Repr, DecidableEq

structure PtpMembership where
  index : Nat → Nat → Option Nat
  groupSize : Nat → Nat
  unique : ∀ groupId idx t t', index t groupId = some idx → index t' groupId = some idx → t = t'

/-- The thread-local variables of the broker. While the thread is in the loop of `recvMessage`, `receiving`
has the group, the sender and the sequence number expected. -/
structure ThreadSequence where
  currentGroupId : Option Nat := none
  sentMsgCount : List Nat := []
  recvMsgCount : List Nat := []
  outOfOrderMsgs : List (List PtpMessage) := []
  receiving : Option (Nat × Nat × Nat) := none
deriving Repr, DecidableEq

namespace ThreadSequence

def initSequenceCounters (l : ThreadSequence) (groupId groupSize : Nat) : ThreadSequence :=
  { l with
    currentGroupId := some groupId
    sentMsgCount := List.replicate groupSize 0
    recvMsgCount := List.replicate groupSize 0
    outOfOrderMsgs := resize l.outOfOrderMsgs groupSize [] }

def changeGroup (l : ThreadSequence) (groupId groupSize : Nat) : ThreadSequence :=
  if l.currentGroupId = some groupId then l else l.initSequenceCounters groupId groupSize

end ThreadSequence

/-- A message that is on its way has reached the receiver's endpoint or goes through the server of its
host. `sent` and `returned` are the ordered messages of each label, in the order of the calls. -/
structure OrderedSystem where
  members : PtpMembership
  threads : Nat → ThreadSequence := fun _ => {}
  transit : List (PtpMessage × Bool) := []
  sent : PtpLabel → List PtpMessage := fun _ => []
  returned : PtpLabel → List PtpMessage := fun _ => []

inductive OrderedAction where
  | sendMessage (t groupId recvIdx : Nat) (data : List UInt8) (isLocal : Bool)
  | doAsyncRecv (n : Nat)
  | recvMessage (t groupId sendIdx : Nat)
  | doRecvMessage (t n : Nat)
  | timeout (t : Nat)
deriving Repr, DecidableEq

namespace OrderedSystem

def setThread (s : OrderedSystem) (t : Nat) (l : ThreadSequence) : OrderedSystem :=
  { s with threads := update s.threads t l }

def inGroup (s : OrderedSystem) (t groupId : Nat) : ThreadSequence :=
  (s.threads t).changeGroup groupId (s.members.groupSize groupId)

def returnMessage (s : OrderedSystem) (t : Nat) (l : ThreadSequence) (msg : PtpMessage) (label : PtpLabel)
    (expected : Nat) : OrderedSystem :=
  { s with returned := update s.returned label (s.returned label ++ [msg]) }.setThread t
    { l with recvMsgCount := l.recvMsgCount.set label.sendIdx (expected + 1), receiving := none }

def sendMessage (s : OrderedSystem) (t groupId recvIdx : Nat) (data : List UInt8) (isLocal : Bool) :
    OrderedSystem :=
  match s.members.index t groupId, (s.threads t).receiving with
  | some sendIdx, none =>
    let l := s.inGroup t groupId
    match l.sentMsgCount[recvIdx]? with
    | some sequenceNum =>
      let label : PtpLabel := ⟨groupId, sendIdx, recvIdx⟩
      let msg : PtpMessage := ⟨label, data, sequenceNum⟩
      { s with
        transit := s.transit ++ [(msg, isLocal)]
        sent := update s.sent label (s.sent label ++ [msg]) }.setThread t
        { l with sentMsgCount := l.sentMsgCount.set recvIdx (sequenceNum + 1) }
    -- the vector has no such position
    | none => s.setThread t l
  | _, _ => s

def doAsyncRecv (s : OrderedSystem) (n : Nat) : OrderedSystem :=
  { s with transit := s.transit.modify n fun p => (p.1, true) }

def recvMessage (s : OrderedSystem) (t groupId sendIdx : Nat) : OrderedSystem :=
  match s.members.index t groupId, (s.threads t).receiving with
  | some recvIdx, none =>
    let l := s.inGroup t groupId
    match l.recvMsgCount[sendIdx]?, l.outOfOrderMsgs[sendIdx]? with
    | some expected, some early =>
      match early.find? (·.sequenceNum = expected) with
      | some msg =>
        s.returnMessage t
          { l with
            outOfOrderMsgs := l.outOfOrderMsgs.set sendIdx (early.eraseP (·.sequenceNum = expected)) }
          msg ⟨groupId, sendIdx, recvIdx⟩ expected
      | none => s.setThread t { l with receiving := some (groupId, sendIdx, expected) }
    | _, _ => s.setThread t l
  | _, _ => s

def doRecvMessage (s : OrderedSystem) (t n : Nat) : OrderedSystem :=
  let l := s.threads t
  match l.receiving, s.transit[n]? with
  | some (groupId, sendIdx, expected), some (msg, true) =>
    match s.members.index t groupId with
    | some recvIdx =>
      if msg.label = ⟨groupId, sendIdx, recvIdx⟩ then
        let s := { s with transit := s.transit.eraseIdx n }
        if msg.sequenceNum = expected then s.returnMessage t l msg ⟨groupId, sendIdx, recvIdx⟩ expected
        else s.setThread t { l with outOfOrderMsgs := l.outOfOrderMsgs.modify sendIdx (· ++ [msg]) }
      else s
    | none => s
  | _, _ => s

end OrderedSystem

def OrderedAction.step (s : OrderedSystem) : OrderedAction → OrderedSystem
  | .sendMessage t groupId recvIdx data isLocal => s.sendMessage t groupId recvIdx data isLocal
  | .doAsyncRecv n => s.doAsyncRecv n
  | .recvMessage t groupId sendIdx => s.recvMessage t groupId sendIdx
  | .doRecvMessage t n => s.doRecvMessage t n
  -- the receive fails, and `recvMessage` throws
  | .timeout t => s.setThread t { s.threads t with receiving := none }

namespace OrderedSystem

/-- If the thread changes to the group, it has no early message left from its last group, and it has neither
sent nor received ordered messages in the group before. -/
def StartsClean (s : OrderedSystem) (t groupId : Nat) : Prop :=
  (s.threads t).currentGroupId ≠ some groupId →
    (∀ early ∈ (s.threads t).outOfOrderMsgs, early = []) ∧
    ∀ idx ∈ s.members.index t groupId, ∀ other < s.members.groupSize groupId,
      s.sent ⟨groupId, idx, other⟩ = [] ∧ s.returned ⟨groupId, other, idx⟩ = []

instance (s : OrderedSystem) (t groupId : Nat) : Decidable (s.StartsClean t groupId) :=
  inferInstanceAs (Decidable (_ → _ ∧ _))

end OrderedSystem

/-- The counters of a thread start where they were left, and do not overflow. -/
def CountersKept (s : OrderedSystem) : OrderedAction → Prop
  | .sendMessage t groupId recvIdx _ _ => s.StartsClean t groupId ∧
    ∀ sendIdx ∈ s.members.index t groupId, (s.sent ⟨groupId, sendIdx, recvIdx⟩).length + 1 < 2 ^ 31
  | .recvMessage t groupId sendIdx => s.StartsClean t groupId ∧
    ∀ recvIdx ∈ s.members.index t groupId, (s.returned ⟨groupId, sendIdx, recvIdx⟩).length + 1 < 2 ^ 31
  | _ => True

instance (s : OrderedSystem) (action : OrderedAction) : Decidable (CountersKept s action) := by
  cases action <;> unfold CountersKept <;> infer_instance

namespace OrderedSystem

section Sequences

variable {members : PtpMembership} {sent returned : PtpLabel → List PtpMessage} {t groupId idx : Nat}
  {l : ThreadSequence} {label : PtpLabel} {msg : PtpMessage}

def Numbered (sent : PtpLabel → List PtpMessage) (msg : PtpMessage) : Prop :=
  (sent msg.label)[msg.sequenceNum]? = some msg

structure Counts (sent returned : PtpLabel → List PtpMessage) (l : ThreadSequence) (groupId idx : Nat) : Prop where
  sends : ∀ other n : Nat, l.sentMsgCount[other]? = some n → n = (sent ⟨groupId, idx, other⟩).length
  receives : ∀ other n : Nat, l.recvMsgCount[other]? = some n → n = (returned ⟨groupId, other, idx⟩).length
  early : ∀ (other : Nat) (msgs : List PtpMessage), l.outOfOrderMsgs[other]? = some msgs → ∀ msg ∈ msgs,
    msg.label = ⟨groupId, other, idx⟩ ∧ Numbered sent msg

/-- A thread in the loop of `recvMessage` expects the next message of its group, and the counters of its group
are right. -/
structure Sequenced (members : PtpMembership) (sent returned : PtpLabel → List PtpMessage) (t : Nat)
    (l : ThreadSequence) : Prop where
  expects : ∀ groupId sendIdx expected, l.receiving = some (groupId, sendIdx, expected) →
    l.currentGroupId = some groupId ∧ l.recvMsgCount[sendIdx]? = some expected
  counts : ∀ groupId idx, l.currentGroupId = some groupId → members.index t groupId = some idx →
    Counts sent returned l groupId idx

theorem Sequenced.of_counts (hindex : members.index t groupId = some idx)
    (hcurrent : l.currentGroupId = some groupId) (hcounts : Counts sent returned l groupId idx)
    (hexpects : ∀ groupId sendIdx expected, l.receiving = some (groupId, sendIdx, expected) →
      l.currentGroupId = some groupId ∧ l.recvMsgCount[sendIdx]? = some expected) :
    Sequenced members sent returned t l := by
  refine ⟨hexpects, fun groupId' idx' hcurrent' hindex' => ?_⟩
  cases hcurrent.symm.trans hcurrent'
  cases hindex.symm.trans hindex'
  exact hcounts

theorem Sequenced.idle (hindex : members.index t groupId = some idx) (hcurrent : l.currentGroupId = some groupId)
    (hidle : l.receiving = none) (hcounts : Counts sent returned l groupId idx) : Sequenced members sent returned t l :=
  .of_counts hindex hcurrent hcounts fun _ _ _ hreceiving => absurd (hidle.symm.trans hreceiving) nofun

theorem sent_grows (sent : PtpLabel → List PtpMessage) (label : PtpLabel) (msg : PtpMessage) (label' : PtpLabel) :
    sent label' <+: update sent label (sent label ++ [msg]) label' := by
  by_cases heq : label' = label
  · subst heq
    simp
  · simp [heq]

theorem Numbered.send {new : PtpMessage} (h : Numbered sent msg) :
    Numbered (update sent label (sent label ++ [new])) msg := by
  obtain ⟨rest, hrest⟩ := sent_grows sent label new msg.label
  obtain ⟨hlt, -⟩ := List.getElem?_eq_some_iff.mp h
  rw [Numbered, ← hrest, List.getElem?_append_left hlt]
  exact h

/-- No other thread has the labels that a thread sends and receives with. -/
theorem Sequenced.send {t' : Nat} (h : Sequenced members sent returned t' l)
    (hindex : members.index t label.groupId = some label.sendIdx) (ht : t' ≠ t) :
    Sequenced members (update sent label (sent label ++ [msg])) returned t' l := by
  refine { h with counts := fun groupId idx hcurrent hindex' => ?_ }
  obtain ⟨hsends, hreceives, hearly⟩ := h.counts groupId idx hcurrent hindex'
  refine ⟨fun other n hn => ?_, hreceives, fun other msgs hmsgs m hm => ?_⟩
  · rw [update_of_ne]
    · exact hsends other n hn
    · rintro rfl
      exact ht (members.unique _ _ _ _ hindex' hindex)
  · exact (hearly other msgs hmsgs m hm).imp_right Numbered.send

theorem Sequenced.return {t' : Nat} (h : Sequenced members sent returned t' l)
    (hindex : members.index t label.groupId = some label.recvIdx) (ht : t' ≠ t) :
    Sequenced members sent (update returned label (returned label ++ [msg])) t' l := by
  refine { h with counts := fun groupId idx hcurrent hindex' => ?_ }
  have hcounts := h.counts groupId idx hcurrent hindex'
  refine { hcounts with receives := fun other n hn => ?_ }
  rw [update_of_ne]
  · exact hcounts.receives other n hn
  · rintro rfl
    exact ht (members.unique _ _ _ _ hindex' hindex)

theorem Counts.send {n : Nat} {data : List UInt8} {recvIdx : Nat} (h : Counts sent returned l groupId idx)
    (hn : l.sentMsgCount[recvIdx]? = some n) (hlabel : label = ⟨groupId, idx, recvIdx⟩) :
    Counts (update sent label (sent label ++ [⟨label, data, n⟩])) returned
      { l with sentMsgCount := l.sentMsgCount.set recvIdx (n + 1) } groupId idx := by
  refine ⟨fun other m hm => ?_, h.receives, fun other msgs hmsgs m hm =>
    (h.early other msgs hmsgs m hm).imp_right Numbered.send⟩
  obtain ⟨hlt, -⟩ := List.getElem?_eq_some_iff.mp hn
  simp only [List.getElem?_set, hlt, if_true] at hm
  split_ifs at hm with hother
  · subst hother hlabel
    rw [← Option.some.inj hm, update_self, List.length_append, ← h.sends recvIdx n hn]
    rfl
  · rw [update_of_ne (by simp [hlabel, Ne.symm hother])]
    exact h.sends other m hm

theorem Counts.return {expected : Nat} (h : Counts sent returned l groupId idx)
    (hexpected : l.recvMsgCount[label.sendIdx]? = some expected) (hgroup : label.groupId = groupId)
    (hidx : label.recvIdx = idx) :
    Counts sent (update returned label (returned label ++ [msg]))
      { l with recvMsgCount := l.recvMsgCount.set label.sendIdx (expected + 1), receiving := none } groupId idx := by
  refine { h with receives := fun other m hm => ?_ }
  obtain ⟨hlt, -⟩ := List.getElem?_eq_some_iff.mp hexpected
  simp only [List.getElem?_set, hlt, if_true] at hm
  split_ifs at hm with hother
  · subst hother hgroup hidx
    rw [← Option.some.inj hm, update_self, List.length_append, ← h.receives _ expected hexpected]
    rfl
  · rw [update_of_ne fun heq => hother (congrArg PtpLabel.sendIdx heq).symm]
    exact h.receives other m hm

end Sequences

structure InOrder (s : OrderedSystem) : Prop where
  labels : ∀ label, ∀ msg ∈ s.sent label, msg.label = label
  numbered : ∀ p ∈ s.transit, Numbered s.sent p.1
  received : ∀ label, s.returned label <+: s.sent label
  threads : ∀ t, Sequenced s.members s.sent s.returned t (s.threads t)

section Steps

variable {s : OrderedSystem} {t groupId idx : Nat} {l : ThreadSequence}

theorem InOrder.inGroup (h : s.InOrder) (hindex : s.members.index t groupId = some idx)
    (hclean : s.StartsClean t groupId) : Counts s.sent s.returned (s.inGroup t groupId) groupId idx := by
  rw [OrderedSystem.inGroup, ThreadSequence.changeGroup]
  split
  · exact (h.threads t).counts groupId idx ‹_› hindex
  · rename_i hother
    obtain ⟨hempty, hfresh⟩ := hclean hother
    have hzero (other n : Nat) (hn : (List.replicate (s.members.groupSize groupId) 0)[other]? = some n) :
        n = 0 ∧ other < s.members.groupSize groupId := by
      obtain ⟨hlt, hval⟩ := List.getElem?_eq_some_iff.mp hn
      exact ⟨by simpa using hval.symm, by simpa using hlt⟩
    refine ⟨fun other n hn => ?_, fun other n hn => ?_, fun other msgs hmsgs msg hmem => ?_⟩
    · obtain ⟨rfl, hlt⟩ := hzero other n hn
      rw [(hfresh idx hindex other hlt).1]
      rfl
    · obtain ⟨rfl, hlt⟩ := hzero other n hn
      rw [(hfresh idx hindex other hlt).2]
      rfl
    · simp only [ThreadSequence.initSequenceCounters, getElem?_resize] at hmsgs
      split at hmsgs
      · have hnone : (s.threads t).outOfOrderMsgs[other]?.getD [] = [] := by
          cases hold : (s.threads t).outOfOrderMsgs[other]? with
          | none => rfl
          | some early => exact hempty early (List.mem_of_getElem? hold)
        rw [hnone, Option.some.injEq] at hmsgs
        subst hmsgs
        cases hmem
      · cases hmsgs

theorem inGroup_currentGroupId (s : OrderedSystem) (t groupId : Nat) :
    (s.inGroup t groupId).currentGroupId = some groupId := by
  rw [OrderedSystem.inGroup, ThreadSequence.changeGroup]
  split
  · exact ‹_›
  · rfl

theorem inGroup_receiving (s : OrderedSystem) (t groupId : Nat) :
    (s.inGroup t groupId).receiving = (s.threads t).receiving := by
  rw [OrderedSystem.inGroup, ThreadSequence.changeGroup]
  split <;> rfl

theorem InOrder.setThread (h : s.InOrder) (hl : Sequenced s.members s.sent s.returned t l) :
    (s.setThread t l).InOrder :=
  { h with
    threads := (forall_update_iff s.threads (Sequenced s.members s.sent s.returned)).mpr
      ⟨hl, fun t' _ => h.threads t'⟩ }

theorem InOrder.sendMessage (h : s.InOrder) {recvIdx : Nat} (hclean : s.StartsClean t groupId)
    (data : List UInt8) (isLocal : Bool) : (s.sendMessage t groupId recvIdx data isLocal).InOrder := by
  rw [OrderedSystem.sendMessage]
  split
  · rename_i sendIdx hindex hidle
    have hcounts := h.inGroup hindex hclean
    have hcurrent := inGroup_currentGroupId s t groupId
    have hidle := (inGroup_receiving s t groupId).trans hidle
    dsimp only
    split
    · rename_i n hn
      refine ⟨fun label m hm => ?_, fun p hp => ?_, fun label => (h.received label).trans (sent_grows ..), ?_⟩
      · by_cases heq : label = ⟨groupId, sendIdx, recvIdx⟩
        · subst heq
          simp only [OrderedSystem.setThread, update_self, List.mem_append, List.mem_singleton] at hm
          rcases hm with hold | rfl
          · exact h.labels _ m hold
          · rfl
        · simp only [OrderedSystem.setThread, update_of_ne heq] at hm
          exact h.labels label m hm
      · rcases List.mem_append.mp hp with hold | hnew
        · exact (h.numbered p hold).send
        · rw [List.mem_singleton.mp hnew]
          simp [Numbered, OrderedSystem.setThread, hcounts.sends recvIdx n hn]
      · exact (forall_update_iff _ (Sequenced _ _ _)).mpr
          ⟨.idle hindex hcurrent hidle (hcounts.send hn rfl), fun t' ht => (h.threads t').send hindex ht⟩
    · exact h.setThread (.idle hindex hcurrent hidle hcounts)
  · exact h

theorem InOrder.doAsyncRecv (h : s.InOrder) (n : Nat) : (s.doAsyncRecv n).InOrder := by
  refine { h with numbered := fun p hp => ?_ }
  obtain ⟨i, hi⟩ := List.getElem?_of_mem hp
  simp only [OrderedSystem.doAsyncRecv, List.getElem?_modify] at hi
  cases hold : s.transit[i]? with
  | none => simp [hold] at hi
  | some q =>
    have hq : p.1 = q.1 := by
      simp only [hold, Option.map_eq_map, Option.map_some, Option.some.injEq] at hi
      rw [← hi]
      split <;> rfl
    rw [hq]
    exact h.numbered q (List.mem_of_getElem? hold)

theorem snoc_prefix {α : Type*} {l l' : List α} {a : α} (h : l <+: l') (ha : l'[l.length]? = some a) :
    l ++ [a] <+: l' := by
  obtain ⟨rest, rfl⟩ := h
  cases rest with
  | nil => simp at ha
  | cons b rest =>
    have hab : b = a := by simpa using ha
    exact ⟨rest, by simp [hab]⟩

theorem InOrder.returnMessage {expected : Nat} {msg : PtpMessage} (h : s.InOrder)
    (hindex : s.members.index t msg.label.groupId = some msg.label.recvIdx)
    (hcurrent : l.currentGroupId = some msg.label.groupId)
    (hcounts : Counts s.sent s.returned l msg.label.groupId msg.label.recvIdx)
    (hexpected : l.recvMsgCount[msg.label.sendIdx]? = some expected)
    (hseq : msg.sequenceNum = expected) (hnumber : Numbered s.sent msg) :
    (s.returnMessage t l msg msg.label expected).InOrder := by
  refine { h with
    received := fun label => ?_
    threads := (forall_update_iff _ (Sequenced _ _ _)).mpr
      ⟨.idle hindex hcurrent rfl (hcounts.return hexpected rfl rfl), fun t' ht => (h.threads t').return hindex ht⟩ }
  simp only [OrderedSystem.returnMessage, OrderedSystem.setThread]
  by_cases heq : label = msg.label
  · subst heq
    rw [update_self]
    have hposition := hcounts.receives _ expected hexpected
    exact snoc_prefix (h.received msg.label) (hposition ▸ hseq ▸ hnumber)
  · rw [update_of_ne heq]
    exact h.received label

theorem InOrder.recvMessage (h : s.InOrder) {sendIdx : Nat} (hclean : s.StartsClean t groupId) :
    (s.recvMessage t groupId sendIdx).InOrder := by
  rw [OrderedSystem.recvMessage]
  split
  · rename_i recvIdx hindex hidle
    have hcounts := h.inGroup hindex hclean
    have hcurrent := inGroup_currentGroupId s t groupId
    have hidle := (inGroup_receiving s t groupId).trans hidle
    dsimp only
    split
    · rename_i expected early hexpected hearly
      split
      · rename_i msg hfound
        have hmem := List.mem_of_find?_eq_some hfound
        have hseq : msg.sequenceNum = expected := by simpa using List.find?_some hfound
        obtain ⟨hlabel, hnumber⟩ := hcounts.early sendIdx early hearly msg hmem
        rw [← hlabel]
        refine h.returnMessage (hlabel ▸ hindex) (hlabel ▸ hcurrent) ?_ (by rw [hlabel]; exact hexpected) hseq hnumber
        rw [hlabel]
        refine { hcounts with early := fun other msgs hmsgs m hm => ?_ }
        obtain ⟨hlt, -⟩ := List.getElem?_eq_some_iff.mp hearly
        simp only [List.getElem?_set, hlt, if_true] at hmsgs
        split_ifs at hmsgs with hother
        · subst hother
          rw [← Option.some.inj hmsgs] at hm
          exact hcounts.early sendIdx early hearly m (List.mem_of_mem_eraseP hm)
        · exact hcounts.early other msgs hmsgs m hm
      · refine h.setThread (.of_counts hindex hcurrent { hcounts with } fun groupId' other e he => ?_)
        simp only [Option.some.injEq, Prod.mk.injEq] at he
        obtain ⟨rfl, rfl, rfl⟩ := he
        exact ⟨hcurrent, hexpected⟩
    · exact h.setThread (.idle hindex hcurrent hidle hcounts)
  · exact h

theorem InOrder.doRecvMessage (h : s.InOrder) (n : Nat) : (s.doRecvMessage t n).InOrder := by
  rw [OrderedSystem.doRecvMessage]
  dsimp only
  split
  · rename_i groupId sendIdx expected msg hreceiving htransit
    split
    · rename_i recvIdx hindex
      split
      · rename_i hlabel
        have hnumber : Numbered s.sent msg := h.numbered _ (List.mem_of_getElem? htransit)
        have hfewer : InOrder { s with transit := s.transit.eraseIdx n } :=
          { h with numbered := fun p hp => h.numbered p (List.mem_of_mem_eraseIdx hp) }
        obtain ⟨hcurrent, hexpected⟩ := (h.threads t).expects groupId sendIdx expected hreceiving
        have hcounts := (h.threads t).counts groupId recvIdx hcurrent hindex
        split
        · rename_i hseq
          rw [← hlabel]
          exact hfewer.returnMessage (by rw [hlabel]; exact hindex) (by rw [hlabel]; exact hcurrent)
            (by rw [hlabel]; exact hcounts) (by rw [hlabel]; exact hexpected) hseq hnumber
        · refine hfewer.setThread (.of_counts hindex hcurrent ?_ (h.threads t).expects)
          refine { hcounts with early := fun other msgs hmsgs m hm => ?_ }
          simp only [List.getElem?_modify] at hmsgs
          cases hold : (s.threads t).outOfOrderMsgs[other]? with
          | none => simp [hold] at hmsgs
          | some early =>
            have hearly := hcounts.early other early hold
            by_cases hother : sendIdx = other
            · subst hother
              simp [hold] at hmsgs
              rw [← hmsgs, List.mem_append, List.mem_singleton] at hm
              rcases hm with hm | rfl
              · exact hearly m hm
              · exact ⟨hlabel, hnumber⟩
            · simp [hold, hother] at hmsgs
              exact hearly m (hmsgs ▸ hm)
      · exact h
    · exact h
  · exact h

theorem InOrder.step (h : s.InOrder) {action : OrderedAction} (hguard : CountersKept s action) :
    (action.step s).InOrder := by
  cases action with
  | sendMessage t groupId recvIdx data isLocal => exact h.sendMessage hguard.1 data isLocal
  | doAsyncRecv n => exact h.doAsyncRecv n
  | recvMessage t groupId sendIdx => exact h.recvMessage hguard.1
  | doRecvMessage t n => exact h.doRecvMessage n
  | timeout t => exact h.setThread ⟨nofun, fun groupId idx hg hi => { (h.threads t).counts groupId idx hg hi with }⟩

end Steps

end OrderedSystem

def twoThreads : PtpMembership where
  index t _ := if t < 2 then some t else none
  groupSize _ := 2
  unique := by
    intro _ idx t t' h h'
    split at h <;> split at h' <;> simp_all

end Faabric
