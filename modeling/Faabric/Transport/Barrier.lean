import Faabric.Lib.GuardedRun
import Faabric.SchedulingDecision

/-! The barrier of a point-to-point group. Its messages carry no round number; here each has one that
only the proofs look at. -/

namespace Faabric

open Function

inductive BarrierCall where
  | outside
  | arriving
  | waiting (phase : Nat)
  | receiving (next : Nat)
  | replying (next : Nat)
  | sending
  | awaiting
deriving Repr, DecidableEq

/-- The members' calls, how many each has entered and returned from, and the messages on their way from
one index to another, each with the call of the sender that it belongs to. `consumed` are the messages
received, each with the call of the receiver. -/
structure BarrierGroup where
  groupSize : Nat
  isSingleHost : Bool
  call : Nat → BarrierCall := fun _ => .outside
  entered : Nat → Nat := fun _ => 0
  returned : Nat → Nat := fun _ => 0
  channel : Nat → Nat → List Nat := fun _ _ => []
  arrived : Nat := 0
  localPhase : Nat := 0
  consumed : List (Nat × Nat) := []

inductive BarrierAction where
  | barrier (groupIdx : Nat)
  | proceed (groupIdx : Nat)
  | recvMessage (groupIdx j : Nat)
deriving Repr, DecidableEq

namespace BarrierGroup

def setCall (s : BarrierGroup) (groupIdx : Nat) (call : BarrierCall) : BarrierGroup :=
  { s with call := update s.call groupIdx call }

def setChannel (s : BarrierGroup) (sendIdx recvIdx : Nat) (rounds : List Nat) : BarrierGroup :=
  { s with channel := update s.channel sendIdx (update (s.channel sendIdx) recvIdx rounds) }

def sendMessage (s : BarrierGroup) (sendIdx recvIdx : Nat) : BarrierGroup :=
  s.setChannel sendIdx recvIdx (s.channel sendIdx recvIdx ++ [s.entered sendIdx])

def takeMessage (s : BarrierGroup) (sendIdx recvIdx j : Nat) : Option BarrierGroup :=
  match (s.channel sendIdx recvIdx)[j]? with
  | some round =>
    some ({ s with consumed := s.consumed ++ [(round, s.entered recvIdx)] }.setChannel sendIdx recvIdx
      ((s.channel sendIdx recvIdx).eraseIdx j))
  | none => none

def enter (s : BarrierGroup) (groupIdx : Nat) (call : BarrierCall) : BarrierGroup :=
  { s with
    call := update s.call groupIdx call
    entered := update s.entered groupIdx (s.entered groupIdx + 1) }

def leave (s : BarrierGroup) (groupIdx : Nat) : BarrierGroup :=
  { s with
    call := update s.call groupIdx .outside
    returned := update s.returned groupIdx (s.returned groupIdx + 1) }

def barrier (s : BarrierGroup) (groupIdx : Nat) : BarrierGroup :=
  if groupIdx < s.groupSize ∧ s.call groupIdx = .outside then
    s.enter groupIdx
      (if s.isSingleHost then .arriving else if groupIdx = 0 then .receiving 1 else .sending)
  else s

def proceed (s : BarrierGroup) (groupIdx : Nat) : BarrierGroup :=
  match s.call groupIdx with
  | .arriving =>
    -- the last one to arrive starts the next phase
    let s := s.setCall groupIdx (.waiting s.localPhase)
    if s.arrived + 1 = s.groupSize then { s with arrived := 0, localPhase := s.localPhase + 1 }
    else { s with arrived := s.arrived + 1 }
  | .waiting phase => if phase ≠ s.localPhase then s.leave groupIdx else s
  | .receiving next => if next < s.groupSize then s else s.setCall groupIdx (.replying 1)
  | .replying next =>
    if next < s.groupSize then (s.sendMessage groupIdx next).setCall groupIdx (.replying (next + 1))
    else s.leave groupIdx
  | .sending => (s.sendMessage groupIdx 0).setCall groupIdx .awaiting
  | _ => s

def recvMessage (s : BarrierGroup) (groupIdx j : Nat) : BarrierGroup :=
  match s.call groupIdx with
  | .receiving next =>
    if next < s.groupSize then
      match s.takeMessage next groupIdx j with
      | some s => s.setCall groupIdx (.receiving (next + 1))
      | none => s
    else s
  | .awaiting =>
    match s.takeMessage 0 groupIdx j with
    | some s => s.leave groupIdx
    | none => s
  | _ => s

def ofDecision (decision : SchedulingDecision) : BarrierGroup where
  groupSize := decision.nFunctions.toNat
  isSingleHost := decision.isSingleHost

/-- Nobody has returned more often than any member has entered, and every message was received in the
round it was sent in. -/
structure Synchronises (s : BarrierGroup) : Prop where
  returned_le : ∀ i < s.groupSize, ∀ j < s.groupSize, s.returned i ≤ s.entered j
  rounds : ∀ p ∈ s.consumed, p.1 = p.2

end BarrierGroup

def BarrierAction.step (s : BarrierGroup) : BarrierAction → BarrierGroup
  | .barrier groupIdx => s.barrier groupIdx
  | .proceed groupIdx => s.proceed groupIdx
  | .recvMessage groupIdx j => s.recvMessage groupIdx j

namespace BarrierGroup

theorem setChannel_apply (s : BarrierGroup) (sendIdx recvIdx i j : Nat) (rounds : List Nat) :
    (s.setChannel sendIdx recvIdx rounds).channel i j =
      if i = sendIdx ∧ j = recvIdx then rounds else s.channel i j := by
  by_cases hi : i = sendIdx
  · subst hi
    simp [setChannel, update_apply]
  · simp [setChannel, hi]

/-- A member is in a barrier call that it has entered and not returned from, or in none. -/
def Attends (groupSize groupIdx : Nat) (call : BarrierCall) (entered returned : Nat) : Prop :=
  (call ≠ .outside → groupIdx < groupSize) ∧ entered = returned + if call = .outside then 0 else 1

theorem attends_update {size k e r : Nat} {c : BarrierCall} {call : Nat → BarrierCall} {entered returned : Nat → Nat}
    (h : ∀ i, Attends size i (call i) (entered i) (returned i)) (hk : Attends size k c e r) (i : Nat) :
    Attends size i (update call k c i) (update entered k e i) (update returned k r i) := by
  by_cases hi : i = k
  · subst hi
    simpa using hk
  · simpa [hi] using h i

/-! ### The barrier over messages -/

def received (s : BarrierGroup) (i : Nat) : Nat := receivedIn (s.call 0) (s.returned 0) i
where receivedIn (call : BarrierCall) (returned i : Nat) : Nat :=
  match call with
  | .receiving next => if i < next then returned + 1 else returned
  | .replying _ => returned + 1
  | _ => returned

def replied (s : BarrierGroup) (i : Nat) : Nat := repliedIn (s.call 0) (s.returned 0) i
where repliedIn (call : BarrierCall) (returned i : Nat) : Nat :=
  match call with
  | .replying next => if i < next then returned + 1 else returned
  | _ => returned

def sent (s : BarrierGroup) (i : Nat) : Nat := sentIn (s.call i) (s.returned i)
where sentIn (call : BarrierCall) (returned : Nat) : Nat :=
  match call with
  | .awaiting => returned + 1
  | _ => returned

def MessageCall (groupIdx : Nat) : BarrierCall → Prop
  | .outside => True
  | .receiving next | .replying next => groupIdx = 0 ∧ 0 < next
  | .sending | .awaiting => groupIdx ≠ 0
  | _ => False

/-- At most one message is on its way: the last one that was sent, unless it has been taken. -/
structure Link (taken sent : Nat) (channel : List Nat) : Prop where
  le : taken ≤ sent
  rounds : channel = if taken < sent then [sent] else []

theorem Link.send {n : Nat} {l : List Nat} (h : Link n n l) : Link n (n + 1) (l ++ [n + 1]) :=
  ⟨Nat.le_succ n, by simp [h.rounds]⟩

theorem Link.take {taken sent j round : Nat} {l : List Nat} (h : Link taken sent l) (hj : l[j]? = some round) :
    taken < sent ∧ round = sent ∧ Link sent sent (l.eraseIdx j) := by
  obtain ⟨hle, rfl⟩ := h
  split_ifs at hj ⊢ with hlt
  · obtain ⟨hj0, hround⟩ := List.getElem?_eq_some_iff.mp hj
    obtain rfl : j = 0 := by simpa using hj0
    exact ⟨hlt, hround.symm, le_rfl, by simp⟩
  · simp at hj

/-- A message on its way between the main index and a member is of the round that the receiver is in. -/
structure InRounds (s : BarrierGroup) : Prop where
  calls : ∀ i, MessageCall i (s.call i)
  attends : ∀ i, Attends s.groupSize i (s.call i) (s.entered i) (s.returned i)
  up : ∀ i, 0 < i → i < s.groupSize → Link (s.received i) (s.sent i) (s.channel i 0)
  down : ∀ i, 0 < i → i < s.groupSize → Link (s.returned i) (s.replied i) (s.channel 0 i)
  consumed : ∀ p ∈ s.consumed, p.1 = p.2

variable {s : BarrierGroup}

theorem replied_le_received (s : BarrierGroup) (i j : Nat) : s.replied i ≤ s.received j := by
  simp only [replied, replied.repliedIn, received, received.receivedIn]
  cases s.call 0 <;> simp only <;> (try split) <;> omega

theorem sent_le (s : BarrierGroup) (i : Nat) : s.sent i ≤ s.returned i + 1 := by
  simp only [sent, sent.sentIn]
  split <;> omega

theorem le_received (s : BarrierGroup) (i : Nat) : s.returned 0 ≤ s.received i := by
  simp only [received, received.receivedIn]
  cases s.call 0 <;> simp only <;> (try split) <;> omega

theorem InRounds.synchronises (h : s.InRounds) : s.Synchronises := by
  have hentered (j : Nat) (hj : j < s.groupSize) : s.returned 0 ≤ s.entered j ∧
      ∀ i, s.replied i ≤ s.entered j := by
    have henter := (h.attends j).2
    by_cases hj0 : j = 0
    · subst hj0
      refine ⟨by omega, fun i => ?_⟩
      simp only [replied, replied.repliedIn]
      cases hcall : s.call 0 <;> simp [hcall] at henter ⊢ <;> (try split) <;> omega
    · have hup := (h.up j (by omega) hj).le
      have hsent : s.sent j ≤ s.entered j := by
        simp only [sent, sent.sentIn]
        cases hcall : s.call j <;> simp [hcall] at henter ⊢ <;> omega
      have hreceived := le_received s j
      exact ⟨by omega, fun i => by have := replied_le_received s i j; omega⟩
  refine ⟨fun i hi j hj => ?_, h.consumed⟩
  by_cases hi0 : i = 0
  · subst hi0
    exact (hentered j hj).1
  · have hdown := (h.down i (by omega) hi).le
    have := (hentered j hj).2 i
    omega

variable {s' : BarrierGroup} {i e r : Nat} {c : BarrierCall} {l : Nat → Nat → List Nat} {t : List (Nat × Nat)}

theorem InRounds.set_member (h : s.InRounds) (hi : i ≠ 0) (hcall : MessageCall i c)
    (hattends : Attends s.groupSize i c e r)
    (hchannel : ∀ j k, j ≠ i → k ≠ i → l j k = s.channel j k)
    (hup : i < s.groupSize → Link (s.received i) (sent.sentIn c r) (l i 0))
    (hdown : i < s.groupSize → Link r (s.replied i) (l 0 i)) (hconsumed : ∀ p ∈ t, p.1 = p.2) :
    InRounds { s with
      call := update s.call i c
      entered := update s.entered i e
      returned := update s.returned i r
      channel := l
      consumed := t } := by
  refine ⟨(forall_update_iff s.call MessageCall).mpr ⟨hcall, fun j _ => h.calls j⟩,
    attends_update h.attends hattends, fun j hpos hj => ?_, fun j hpos hj => ?_, hconsumed⟩
  · simp only [received, sent, update_of_ne hi.symm]
    by_cases hji : j = i
    · subst hji
      simp only [update_self]
      exact hup hj
    · simp only [hchannel j 0 hji hi.symm, update_of_ne hji]
      exact h.up j hpos hj
  · simp only [replied, update_of_ne hi.symm]
    by_cases hji : j = i
    · subst hji
      simp only [update_self]
      exact hdown hj
    · simp only [hchannel 0 j hi.symm hji, update_of_ne hji]
      exact h.down j hpos hj

theorem InRounds.set_main (h : s.InRounds) (hcall : MessageCall 0 c) (hattends : Attends s.groupSize 0 c e r)
    (hup : ∀ i, 0 < i → i < s.groupSize → Link (received.receivedIn c r i) (s.sent i) (l i 0))
    (hdown : ∀ i, 0 < i → i < s.groupSize → Link (s.returned i) (replied.repliedIn c r i) (l 0 i))
    (hconsumed : ∀ p ∈ t, p.1 = p.2) :
    InRounds { s with
      call := update s.call 0 c
      entered := update s.entered 0 e
      returned := update s.returned 0 r
      channel := l
      consumed := t } := by
  refine ⟨(forall_update_iff s.call MessageCall).mpr ⟨hcall, fun j _ => h.calls j⟩,
    attends_update h.attends hattends, fun j hpos hj => ?_, fun j hpos hj => ?_, hconsumed⟩
  · simpa only [received, sent, update_self, update_of_ne hpos.ne'] using hup j hpos hj
  · simpa only [replied, update_self, update_of_ne hpos.ne'] using hdown j hpos hj

theorem InRounds.barrier (h : s.InRounds) (hmulti : s.isSingleHost = false) (groupIdx : Nat) :
    (s.barrier groupIdx).InRounds := by
  rw [BarrierGroup.barrier, hmulti]
  split
  · rename_i hcan
    obtain ⟨hsize, hout⟩ := hcan
    have henter := (h.attends groupIdx).2
    by_cases hmain : groupIdx = 0
    · subst hmain
      have hset := h.set_main (c := .receiving 1) (e := s.entered 0 + 1) (r := s.returned 0) ⟨rfl, Nat.one_pos⟩
        ⟨fun _ => hsize, by simpa [hout] using henter⟩
        (fun i hpos hi => by simpa [received, received.receivedIn, hout, hpos.ne'] using h.up i hpos hi)
        (fun i hpos hi => by simpa [replied, replied.repliedIn, hout] using h.down i hpos hi) h.consumed
      simpa [enter] using hset
    · have hset := h.set_member hmain (c := .sending) (e := s.entered groupIdx + 1) (r := s.returned groupIdx) hmain
        ⟨fun _ => hsize, by simpa [hout] using henter⟩ (fun _ _ _ _ => rfl)
        (fun hi => by simpa [sent, sent.sentIn, hout] using h.up groupIdx (by omega) hi)
        (h.down groupIdx (by omega)) h.consumed
      simpa [enter, hmain] using hset
  · exact h

theorem takeMessage_some {sendIdx recvIdx j : Nat} (h : s.takeMessage sendIdx recvIdx j = some s') :
    ∃ round, (s.channel sendIdx recvIdx)[j]? = some round ∧
      s' = { s with consumed := s.consumed ++ [(round, s.entered recvIdx)] }.setChannel sendIdx recvIdx
        ((s.channel sendIdx recvIdx).eraseIdx j) := by
  rw [takeMessage] at h
  split at h
  · rename_i round hround
    exact ⟨round, hround, (Option.some.inj h).symm⟩
  · cases h

theorem consumed_snoc (h : ∀ p ∈ s.consumed, p.1 = p.2) {round entered : Nat} (hround : round = entered) :
    ∀ p ∈ s.consumed ++ [(round, entered)], p.1 = p.2 := by
  intro p hp
  rcases List.mem_append.mp hp with hold | hnew
  · exact h p hold
  · rw [List.mem_singleton.mp hnew]
    exact hround

theorem InRounds.receive (h : s.InRounds) {k j : Nat} (hcall : s.call 0 = .receiving k) (hpos : 0 < k)
    (hk : k < s.groupSize) (htake : s.takeMessage k 0 j = some s') :
    (s'.setCall 0 (.receiving (k + 1))).InRounds := by
  obtain ⟨round, hround, rfl⟩ := takeMessage_some htake
  obtain ⟨hlt, hsent, hlink⟩ := (h.up k hpos hk).take hround
  have henter : s.entered 0 = s.returned 0 + 1 := by simpa [hcall] using (h.attends 0).2
  have hreplied (i : Nat) : s.replied i = s.returned 0 := by simp [replied, replied.repliedIn, hcall]
  -- the message is of the round the main index is in
  have hnow : s.sent k = s.returned 0 + 1 := by
    have hdown := (h.down k hpos hk).le
    have := sent_le s k
    have := le_received s k
    rw [hreplied] at hdown
    omega
  have hset := h.set_main (c := .receiving (k + 1)) (e := s.entered 0) (r := s.returned 0) ⟨rfl, Nat.succ_pos k⟩
    ⟨fun _ => (h.attends 0).1 (by simp [hcall]), by simpa using henter⟩
    (l := (s.setChannel k 0 ((s.channel k 0).eraseIdx j)).channel)
    (t := s.consumed ++ [(round, s.entered 0)]) ?_ ?_ (consumed_snoc h.consumed (by omega))
  · simp only [update_eq_self] at hset
    exact hset
  · intro i hi hsize
    have hup := h.up i hi hsize
    rw [setChannel_apply]
    by_cases hik : i = k
    · subst hik
      simpa [received.receivedIn, hnow] using hlink
    · have hne : i < k + 1 ↔ i < k := by omega
      simpa [received, received.receivedIn, hcall, hik, hne] using hup
  · intro i hi hsize
    rw [setChannel_apply, if_neg (by omega)]
    exact hreplied i ▸ h.down i hi hsize

theorem InRounds.startReplying (h : s.InRounds) {k : Nat} (hcall : s.call 0 = .receiving k)
    (hk : ¬k < s.groupSize) : (s.setCall 0 (.replying 1)).InRounds := by
  have hset := h.set_main (c := .replying 1) (e := s.entered 0) (r := s.returned 0) ⟨rfl, Nat.one_pos⟩
    ⟨fun _ => (h.attends 0).1 (by simp [hcall]), by simpa [hcall] using (h.attends 0).2⟩
    (l := s.channel) ?_ ?_ h.consumed
  · simp only [update_eq_self] at hset
    exact hset
  · intro i hi hsize
    have hlt : i < k := by omega
    simpa [received, received.receivedIn, hcall, hlt] using h.up i hi hsize
  · intro i hi hsize
    simpa [replied, replied.repliedIn, hcall, hi.ne'] using h.down i hi hsize

theorem InRounds.leave_main (h : s.InRounds) {k : Nat} (hcall : s.call 0 = .replying k)
    (hk : ¬k < s.groupSize) : (s.leave 0).InRounds := by
  have hset := h.set_main (c := .outside) (e := s.entered 0) (r := s.returned 0 + 1) trivial
    ⟨fun hne => absurd rfl hne, by simpa [hcall] using (h.attends 0).2⟩ (l := s.channel) ?_ ?_ h.consumed
  · simp only [update_eq_self] at hset
    exact hset
  · intro i hi hsize
    simpa [received, received.receivedIn, hcall] using h.up i hi hsize
  · intro i hi hsize
    have hlt : i < k := by omega
    simpa [replied, replied.repliedIn, hcall, hlt] using h.down i hi hsize

theorem InRounds.send (h : s.InRounds) (hi : i ≠ 0) (hcall : s.call i = .sending) :
    ((s.sendMessage i 0).setCall i .awaiting).InRounds := by
  have henter : s.entered i = s.returned i + 1 := by simpa [hcall] using (h.attends i).2
  have hset := h.set_member hi (c := .awaiting) (e := s.entered i) (r := s.returned i) hi
    ⟨fun _ => (h.attends i).1 (by simp [hcall]), by simpa using henter⟩
    (l := (s.sendMessage i 0).channel) ?_ ?_ ?_ h.consumed
  · simp only [update_eq_self] at hset
    exact hset
  · intro j k hj _
    simp [sendMessage, setChannel_apply, hj]
  · intro hsize
    have hup := h.up i (by omega) hsize
    have hsent : s.sent i = s.returned i := by simp [sent, sent.sentIn, hcall]
    -- the main index has had the message before, whose reply is here
    have hreceived : s.received i = s.returned i := by
      have := (h.down i (by omega) hsize).le
      have := replied_le_received s i i
      have := hup.le
      omega
    rw [hreceived, hsent] at hup
    simpa [hreceived, sent.sentIn, sendMessage, setChannel_apply, henter] using hup.send
  · intro hsize
    simpa [sendMessage, setChannel_apply, hi] using h.down i (by omega) hsize

theorem InRounds.receiveReply (h : s.InRounds) {j : Nat} (hi : i ≠ 0) (hsize : i < s.groupSize)
    (hcall : s.call i = .awaiting) (htake : s.takeMessage 0 i j = some s') : (s'.leave i).InRounds := by
  obtain ⟨round, hround, rfl⟩ := takeMessage_some htake
  obtain ⟨hlt, hreply, hlink⟩ := (h.down i (by omega) hsize).take hround
  have henter : s.entered i = s.returned i + 1 := by simpa [hcall] using (h.attends i).2
  have hnow : s.replied i = s.returned i + 1 := by
    have := (h.up i (by omega) hsize).le
    have := sent_le s i
    have := replied_le_received s i i
    omega
  have hset := h.set_member hi (c := .outside) (e := s.entered i) (r := s.returned i + 1) trivial
    ⟨fun hne => absurd rfl hne, by simpa using henter⟩
    (l := (s.setChannel 0 i ((s.channel 0 i).eraseIdx j)).channel)
    (t := s.consumed ++ [(round, s.entered i)]) ?_ ?_ ?_ (consumed_snoc h.consumed (by omega))
  · simp only [update_eq_self] at hset
    exact hset
  · intro k l _ hl
    simp [setChannel_apply, hl]
  · intro _
    simpa [sent, sent.sentIn, hcall, setChannel_apply, hi] using h.up i (by omega) hsize
  · intro _
    simpa [setChannel_apply, hnow] using hlink

theorem InRounds.reply (h : s.InRounds) {k : Nat} (hcall : s.call 0 = .replying k) (hpos : 0 < k)
    (hk : k < s.groupSize) : ((s.sendMessage 0 k).setCall 0 (.replying (k + 1))).InRounds := by
  have henter : s.entered 0 = s.returned 0 + 1 := by simpa [hcall] using (h.attends 0).2
  have hset := h.set_main (c := .replying (k + 1)) (e := s.entered 0) (r := s.returned 0) ⟨rfl, Nat.succ_pos k⟩
    ⟨fun _ => (h.attends 0).1 (by simp [hcall]), by simpa using henter⟩
    (l := (s.sendMessage 0 k).channel) ?_ ?_ h.consumed
  · simp only [update_eq_self] at hset
    exact hset
  · intro i hi hsize
    rw [sendMessage, setChannel_apply, if_neg (by omega)]
    simpa [received, received.receivedIn, hcall] using h.up i hi hsize
  · intro i hi hsize
    have hdown := h.down i hi hsize
    rw [sendMessage, setChannel_apply]
    by_cases hik : i = k
    · subst hik
      have hrep : s.replied i = s.returned 0 := by simp [replied, replied.repliedIn, hcall]
      -- the member has the last reply, since its message of this round is here
      have hlast : s.returned i = s.returned 0 := by
        have hup := (h.up i hi hsize).le
        have hsent := sent_le s i
        have hrec : s.received i = s.returned 0 + 1 := by simp [received, received.receivedIn, hcall]
        have := hdown.le
        omega
      rw [hrep, hlast] at hdown
      simpa [replied.repliedIn, hlast, henter] using hdown.send
    · have hne : i < k + 1 ↔ i < k := by omega
      simpa [replied, replied.repliedIn, hcall, hik, hne] using hdown

theorem InRounds.step (h : s.InRounds) (hmulti : s.isSingleHost = false) (action : BarrierAction) :
    (action.step s).InRounds := by
  cases action with
  | barrier groupIdx => exact h.barrier hmulti groupIdx
  | proceed groupIdx =>
    have hallowed := h.calls groupIdx
    simp only [BarrierAction.step, BarrierGroup.proceed]
    cases hcall : s.call groupIdx with
    | outside | awaiting => exact h
    | arriving | waiting => simp [hcall, MessageCall] at hallowed
    | receiving next =>
      simp only [hcall, MessageCall] at hallowed
      obtain ⟨rfl, hpos⟩ := hallowed
      simp only
      split
      · exact h
      · exact h.startReplying hcall ‹_›
    | replying next =>
      simp only [hcall, MessageCall] at hallowed
      obtain ⟨rfl, hpos⟩ := hallowed
      simp only
      split
      · exact h.reply hcall hpos ‹_›
      · exact h.leave_main hcall ‹_›
    | sending =>
      simp only [hcall, MessageCall] at hallowed
      exact h.send hallowed hcall
  | recvMessage groupIdx j =>
    have hallowed := h.calls groupIdx
    simp only [BarrierAction.step, BarrierGroup.recvMessage]
    cases hcall : s.call groupIdx with
    | outside | arriving | waiting | replying | sending => exact h
    | receiving next =>
      simp only [hcall, MessageCall] at hallowed
      obtain ⟨rfl, hpos⟩ := hallowed
      simp only
      split
      · split
        · exact h.receive hcall hpos ‹_› ‹_›
        · exact h
      · exact h
    | awaiting =>
      simp only [hcall, MessageCall] at hallowed
      simp only
      split
      · exact h.receiveReply hallowed ((h.attends groupIdx).1 (by simp [hcall])) hcall ‹_›
      · exact h

/-! ### The barrier on a single host -/

def LocalCall (phase returned : Nat) : BarrierCall → Prop
  | .outside | .arriving => returned = phase
  | .waiting p => p = returned ∧ (p = phase ∨ p + 1 = phase)
  | _ => False

def arrivals (s : BarrierGroup) : Finset Nat :=
  (Finset.range s.groupSize).filter fun i => s.call i = .waiting s.localPhase

theorem mem_arrivals : i ∈ s.arrivals ↔ i < s.groupSize ∧ s.call i = .waiting s.localPhase := by
  simp [arrivals]

structure InPhase (s : BarrierGroup) : Prop where
  calls : ∀ i < s.groupSize, LocalCall s.localPhase (s.returned i) (s.call i)
  attends : ∀ i, Attends s.groupSize i (s.call i) (s.entered i) (s.returned i)
  arrived : s.arrived = s.arrivals.card
  consumed : s.consumed = []

theorem InPhase.synchronises (h : s.InPhase) : s.Synchronises := by
  refine ⟨fun i hi j hj => ?_, by simp [h.consumed]⟩
  have hupper : s.returned i ≤ s.localPhase := by
    have hcall := h.calls i hi
    cases hc : s.call i <;> simp only [hc, LocalCall] at hcall <;> omega
  have hlower : s.localPhase ≤ s.entered j := by
    have hcall := h.calls j hj
    have henter := (h.attends j).2
    cases hc : s.call j <;> simp [hc, LocalCall] at hcall henter <;> omega
  omega

theorem InPhase.set (h : s.InPhase) (hcall : LocalCall s.localPhase r c) (hattends : Attends s.groupSize i c e r)
    (hold : s.call i ≠ .waiting s.localPhase) (hnew : c ≠ .waiting s.localPhase) :
    InPhase { s with
      call := update s.call i c
      entered := update s.entered i e
      returned := update s.returned i r } := by
  refine { h with calls := fun j hj => ?_, attends := attends_update h.attends hattends, arrived := ?_ }
  · by_cases hji : j = i
    · subst hji
      simpa using hcall
    · simpa [hji] using h.calls j hj
  · refine h.arrived.trans (congrArg Finset.card (Finset.filter_congr fun j _ => ?_))
    by_cases hji : j = i
    · subst hji
      simp [hold, hnew]
    · simp [hji]

theorem InPhase.enter (h : s.InPhase) (hi : i < s.groupSize) (hout : s.call i = .outside) :
    (s.enter i .arriving).InPhase := by
  have hcall := h.calls i hi
  have hset := h.set (i := i) (c := .arriving) (e := s.entered i + 1) (r := s.returned i) (by simpa [hout, LocalCall] using hcall)
    ⟨fun _ => hi, by simpa [hout] using (h.attends i).2⟩ (by simp [hout]) (by simp)
  simp only [update_eq_self] at hset
  exact hset

theorem arrivals_insert (hi : i < s.groupSize) :
    (s.setCall i (.waiting s.localPhase)).arrivals = insert i s.arrivals := by
  ext j
  rw [mem_arrivals, Finset.mem_insert, mem_arrivals]
  by_cases hj : j = i
  · subst hj
    simp [setCall, hi]
  · simp [setCall, hj]

theorem InPhase.arrive (h : s.InPhase) (hcall : s.call i = .arriving) : (s.proceed i).InPhase := by
  have hi : i < s.groupSize := (h.attends i).1 (by simp [hcall])
  have hreturned : s.returned i = s.localPhase := by simpa [hcall, LocalCall] using h.calls i hi
  have hcount : (s.setCall i (.waiting s.localPhase)).arrivals.card = s.arrived + 1 := by
    rw [arrivals_insert hi, Finset.card_insert_of_notMem (by simp [mem_arrivals, hcall]), h.arrived]
  have hcalls (j : Nat) (hj : j < s.groupSize) : LocalCall s.localPhase (s.returned j)
      ((s.setCall i (.waiting s.localPhase)).call j) := by
    by_cases hji : j = i
    · subst hji
      simp [setCall, LocalCall, hreturned]
    · simpa [setCall, hji] using h.calls j hj
  have hattends (j : Nat) : Attends s.groupSize j ((s.setCall i (.waiting s.localPhase)).call j) (s.entered j)
      (s.returned j) := by
    have hset := attends_update h.attends (k := i) (c := .waiting s.localPhase)
      ⟨fun _ => hi, by simpa [hcall] using (h.attends i).2⟩ j
    simp only [update_eq_self] at hset
    exact hset
  simp only [BarrierGroup.proceed, hcall]
  split
  · rename_i hlast
    -- everybody waits for the end of the phase, which is now
    have hall (j : Nat) (hj : j < s.groupSize) :
        (s.setCall i (.waiting s.localPhase)).call j = .waiting s.localPhase := by
      have hle : (Finset.range s.groupSize).card ≤ (s.setCall i (.waiting s.localPhase)).arrivals.card := by
        rw [hcount, Finset.card_range]
        exact le_of_eq hlast.symm
      have hfull := Finset.eq_of_subset_of_card_le (Finset.filter_subset _ _) hle
      have hmem := Finset.mem_range.mpr hj
      rw [← hfull] at hmem
      exact (mem_arrivals.mp hmem).2
    refine ⟨fun j hj => ?_, hattends, ?_, h.consumed⟩
    · have hold := hcalls j hj
      rw [hall j hj] at hold
      change LocalCall (s.localPhase + 1) (s.returned j) ((s.setCall i (.waiting s.localPhase)).call j)
      rw [hall j hj]
      exact ⟨hold.1, .inr rfl⟩
    · refine (Finset.card_eq_zero.mpr (Finset.filter_eq_empty_iff.mpr fun j hj hwait => ?_)).symm
      have hnow := (hall j (Finset.mem_range.mp hj)).symm.trans hwait
      simp [setCall] at hnow
  · exact ⟨hcalls, hattends, hcount.symm, h.consumed⟩

theorem InPhase.leave (h : s.InPhase) {phase : Nat} (hcall : s.call i = .waiting phase)
    (hover : phase ≠ s.localPhase) : (s.leave i).InPhase := by
  have hi : i < s.groupSize := (h.attends i).1 (by simp [hcall])
  have hwait := h.calls i hi
  simp only [hcall, LocalCall] at hwait
  have hset := h.set (i := i) (c := .outside) (e := s.entered i) (r := s.returned i + 1)
    (by simp only [LocalCall]; omega) ⟨fun hne => absurd rfl hne, by simpa [hcall] using (h.attends i).2⟩
    (by simpa [hcall] using hover) (by simp)
  simp only [update_eq_self] at hset
  exact hset

theorem InPhase.step (h : s.InPhase) (hsingle : s.isSingleHost = true) (action : BarrierAction) :
    (action.step s).InPhase := by
  have hcalls (i : Nat) : s.call i = .outside ∨ s.call i = .arriving ∨ ∃ phase, s.call i = .waiting phase := by
    by_cases hout : s.call i = .outside
    · exact .inl hout
    · have hcall := h.calls i ((h.attends i).1 hout)
      cases hc : s.call i <;> simp_all [LocalCall]
  cases action with
  | barrier groupIdx =>
    simp only [BarrierAction.step, BarrierGroup.barrier, hsingle, if_true]
    split
    · rename_i hcan
      exact h.enter hcan.1 hcan.2
    · exact h
  | proceed groupIdx =>
    rcases hcalls groupIdx with hcall | hcall | ⟨phase, hcall⟩
    · simpa only [BarrierAction.step, BarrierGroup.proceed, hcall] using h
    · exact h.arrive hcall
    · simp only [BarrierAction.step, BarrierGroup.proceed, hcall]
      split
      · exact h.leave hcall ‹_›
      · exact h
  | recvMessage groupIdx j =>
    rcases hcalls groupIdx with hcall | hcall | ⟨phase, hcall⟩ <;>
      simpa only [BarrierAction.step, BarrierGroup.recvMessage, hcall] using h

theorem isSingleHost_step (s : BarrierGroup) (action : BarrierAction) :
    (action.step s).isSingleHost = s.isSingleHost := by
  cases action with
  | barrier groupIdx =>
    simp only [BarrierAction.step, BarrierGroup.barrier]
    split <;> rfl
  | proceed groupIdx =>
    simp only [BarrierAction.step, BarrierGroup.proceed]
    split <;> (try split) <;> rfl
  | recvMessage groupIdx j =>
    simp only [BarrierAction.step, BarrierGroup.recvMessage]
    split
    · split
      · split
        · rename_i htake
          obtain ⟨round, -, rfl⟩ := takeMessage_some htake
          rfl
        · rfl
      · rfl
    · split
      · rename_i htake
        obtain ⟨round, -, rfl⟩ := takeMessage_some htake
        rfl
      · rfl
    · rfl

end BarrierGroup

example :
    let s := GuardedRun.run BarrierAction.step
      (BarrierGroup.ofDecision ((({ appId := 1, groupId := 2 } : SchedulingDecision).addMessage "a" 1 0 0
        |>.addMessage "b" 2 1 1).addMessage "b" 3 2 2))
      [.barrier 0, .barrier 2, .proceed 2, .barrier 1, .proceed 1, .recvMessage 0 0, .recvMessage 0 0,
        .proceed 0, .proceed 0, .proceed 0, .proceed 0, .recvMessage 2 0, .recvMessage 1 0]
    [s.returned 0, s.returned 1, s.returned 2] = [1, 1, 1] ∧ s.consumed.length = 4 := by
  decide +kernel

end Faabric
