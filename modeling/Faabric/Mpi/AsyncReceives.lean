import Mathlib
import Faabric.Lib.GuardedRun
import Faabric.Mpi.World

/-! Asynchronous receives of one rank. A call that has to wait for a message is taken when it returns: nobody else
takes messages off the rank's queues, so they are the same then as they would have been one by one. -/

namespace Faabric

structure PendingRecv where
  requestId : Nat
  acked : Bool
  number : Nat
  deriving DecidableEq

namespace PendingRecv

def ack (entry : PendingRecv) : PendingRecv := { entry with acked := true }

def read (entry : PendingRecv) (queue : List MpiMessage) : Option (List (Nat × MpiMessage) × List MpiMessage) :=
  if entry.acked then some ([], queue)
  else
    match queue with
    | [] => none
    | msg :: queue => some ([(entry.number, msg)], queue)

end PendingRecv

structure RecvBatch where
  unacked : List PendingRecv
  filled : List (Nat × MpiMessage)
  queue : List MpiMessage
  last : Option MpiMessage
  deriving DecidableEq

def recvBatchReturnLast (requestId : Nat) : List PendingRecv → List MpiMessage → Option RecvBatch
  | [], [] => none
  | [], msg :: queue => some ⟨[], [], queue, some msg⟩
  | entry :: rest, queue =>
    match entry.read queue with
    | none => none
    | some (filled, queue) =>
      if requestId = entry.requestId then some ⟨rest, filled, queue, none⟩
      else
        (recvBatchReturnLast requestId rest queue).map fun b =>
          ⟨entry.ack :: b.unacked, filled ++ b.filled, b.queue, b.last⟩

def openRecvs (entries : List PendingRecv) : List PendingRecv := entries.filter (!·.acked)

@[simp] theorem openRecvs_append (l l' : List PendingRecv) : openRecvs (l ++ l') = openRecvs l ++ openRecvs l' :=
  List.filter_append ..

@[simp] theorem openRecvs_ack (l : List PendingRecv) : openRecvs (l.map PendingRecv.ack) = [] := by
  simp [openRecvs, PendingRecv.ack]

theorem recvBatch_walk {requestId : Nat} {before : List PendingRecv} (hid : ∀ e ∈ before, requestId ≠ e.requestId)
    (rest : List PendingRecv) (queue : List MpiMessage) :
    recvBatchReturnLast requestId (before ++ rest) queue =
      if (openRecvs before).length ≤ queue.length then
        (recvBatchReturnLast requestId rest (queue.drop (openRecvs before).length)).map fun b =>
          ⟨before.map PendingRecv.ack ++ b.unacked, ((openRecvs before).map PendingRecv.number).zip queue ++ b.filled,
            b.queue, b.last⟩
      else none := by
  induction before generalizing queue with
  | nil =>
    simp only [openRecvs, List.filter_nil, List.nil_append, List.length_nil, Nat.zero_le, if_true, List.drop_zero,
      List.map_nil, List.zip_nil_left]
    exact (Option.map_id' ..).symm
  | cons e before ih =>
    have hrest := ih fun e' he' => hid e' (List.mem_cons_of_mem e he')
    have he := hid e List.mem_cons_self
    rw [List.cons_append, recvBatchReturnLast]
    cases hacked : e.acked with
    | true =>
      have hopen : openRecvs (e :: before) = openRecvs before := by simp [openRecvs, hacked]
      simp only [PendingRecv.read, hacked, if_true, he, if_false, hrest, hopen]
      split_ifs <;> simp [Option.map_map, Function.comp_def]
    | false =>
      have hopen : openRecvs (e :: before) = e :: openRecvs before := by simp [openRecvs, hacked]
      cases queue with
      | nil => simp [PendingRecv.read, hacked, hopen]
      | cons msg queue =>
        simp only [PendingRecv.read, hacked, Bool.false_eq_true, if_false, he, hrest, hopen, List.length_cons,
          Nat.add_le_add_iff_right, List.drop_succ_cons]
        split_ifs <;> simp [Option.map_map, Function.comp_def]

theorem recvBatch_recv {requestId : Nat} {unacked : List PendingRecv} (hid : ∀ e ∈ unacked, requestId ≠ e.requestId)
    (queue : List MpiMessage) :
    recvBatchReturnLast requestId unacked queue =
      queue[(openRecvs unacked).length]?.map fun msg =>
        ⟨unacked.map PendingRecv.ack, ((openRecvs unacked).map PendingRecv.number).zip queue,
          queue.drop ((openRecvs unacked).length + 1), some msg⟩ := by
  have hwalk := recvBatch_walk hid [] queue
  rw [List.append_nil] at hwalk
  rw [hwalk]
  have hnext : queue[(openRecvs unacked).length]? = (queue.drop (openRecvs unacked).length).head? := by
    rw [List.head?_drop]
  have htail : queue.drop ((openRecvs unacked).length + 1) = (queue.drop (openRecvs unacked).length).tail := by
    rw [List.tail_drop]
  rw [hnext, htail]
  cases hdrop : queue.drop (openRecvs unacked).length with
  | nil => simp [recvBatchReturnLast]
  | cons msg rest =>
    have hle : (openRecvs unacked).length ≤ queue.length := by
      by_contra hlt
      rw [List.drop_of_length_le (by omega)] at hdrop
      cases hdrop
    simp [recvBatchReturnLast, hle]

theorem recvBatch_await {entry : PendingRecv} {before after : List PendingRecv}
    (hid : ∀ e ∈ before, entry.requestId ≠ e.requestId) (queue : List MpiMessage) :
    recvBatchReturnLast entry.requestId (before ++ entry :: after) queue =
      if (openRecvs (before ++ [entry])).length ≤ queue.length then
        some ⟨before.map PendingRecv.ack ++ after, ((openRecvs (before ++ [entry])).map PendingRecv.number).zip queue,
          queue.drop (openRecvs (before ++ [entry])).length, none⟩
      else none := by
  rw [recvBatch_walk hid, recvBatchReturnLast]
  cases hacked : entry.acked with
  | true =>
    have hopen : openRecvs [entry] = [] := by simp [openRecvs, hacked]
    simp [PendingRecv.read, hacked, hopen]
  | false =>
    have hopen : openRecvs [entry] = [entry] := by simp [openRecvs, hacked]
    simp only [PendingRecv.read, hacked, openRecvs_append, hopen, Bool.false_eq_true, if_false, List.length_append,
      List.length_singleton]
    cases hdrop : queue.drop (openRecvs before).length with
    | nil =>
      have hle : queue.length ≤ (openRecvs before).length := List.drop_eq_nil_iff.mp hdrop
      rw [if_neg (by omega : ¬(openRecvs before).length + 1 ≤ queue.length)]
      simp
    | cons msg rest =>
      have hlt : (openRecvs before).length < queue.length := by
        by_contra hge
        rw [List.drop_of_length_le (by omega)] at hdrop
        cases hdrop
      have hqueue : queue = queue.take (openRecvs before).length ++ msg :: rest := by
        rw [← hdrop, List.take_append_drop]
      have hrest : queue.drop ((openRecvs before).length + 1) = rest := by
        rw [← List.tail_drop, hdrop, List.tail_cons]
      have hzip : ((openRecvs before ++ [entry]).map PendingRecv.number).zip queue =
          ((openRecvs before).map PendingRecv.number).zip queue ++ [(entry.number, msg)] := by
        have hlen : ((openRecvs before).map PendingRecv.number).length =
            (queue.take (openRecvs before).length).length := by
          rw [List.length_map, List.length_take_of_le hlt.le]
        have hshort := @List.zip_append _ _ _ [] _ (msg :: rest) hlen
        have hlong := @List.zip_append _ _ _ [entry.number] _ (msg :: rest) hlen
        rw [List.append_nil, ← hqueue, List.zip_nil_left, List.append_nil] at hshort
        rw [← hqueue, ← hshort] at hlong
        simpa using hlong
      rw [if_pos hlt.le, if_pos (by omega : (openRecvs before).length + 1 ≤ queue.length), hrest, hzip]
      simp

/-! One pair of ranks. -/

/-- The receiver's side of a pair, with what has been sent on it, the number of receives posted on it, the requests
for the asynchronous ones, what has been put into the buffer of each receive, and which of them have returned or have
been awaited. -/
structure RecvPair where
  unacked : List PendingRecv
  queue : List MpiMessage
  sent : List MpiMessage
  posted : Nat
  requests : List (Nat × Nat)
  buffer : Nat → Option MpiMessage
  returned : List Nat

namespace RecvPair

def new : RecvPair := ⟨[], [], [], 0, [], fun _ => none, []⟩

def arrive (p : RecvPair) (msg : MpiMessage) : RecvPair :=
  { p with queue := p.queue ++ [msg], sent := p.sent ++ [msg] }

def irecv (p : RecvPair) (requestId : Nat) : RecvPair :=
  { p with
    unacked := p.unacked ++ [⟨requestId, false, p.posted⟩]
    posted := p.posted + 1
    requests := p.requests ++ [(p.posted, requestId)] }

def fill (buffer : Nat → Option MpiMessage) (filled : List (Nat × MpiMessage)) : Nat → Option MpiMessage :=
  filled.foldl (fun buffer entry => Function.update buffer entry.1 (some entry.2)) buffer

def apply (p : RecvPair) (b : RecvBatch) : RecvPair :=
  { p with unacked := b.unacked, queue := b.queue, buffer := fill p.buffer b.filled }

def recv (p : RecvPair) : RecvPair :=
  match recvBatchReturnLast 0 p.unacked p.queue with
  | none => p
  | some b =>
    { p.apply b with
      posted := p.posted + 1
      buffer := Function.update (p.apply b).buffer p.posted b.last
      returned := p.returned ++ [p.posted] }

def await (p : RecvPair) (requestId number : Nat) : RecvPair :=
  match recvBatchReturnLast requestId p.unacked p.queue with
  | none => p
  | some b => { p.apply b with returned := p.returned ++ [number] }

/-- The first messages sent, as many as have been taken off the queue, are in the buffers of the receives with their
numbers, and the entries that wait for a message are the last receives posted. -/
structure Ok (p : RecvPair) (taken : Nat) : Prop where
  queue : p.queue = p.sent.drop taken
  short : taken ≤ p.sent.length
  bound : taken ≤ p.posted
  waiting : (openRecvs p.unacked).map PendingRecv.number = List.range' taken (p.posted - taken)
  order : p.unacked.Pairwise fun e e' => e'.acked → e.acked
  acked : ∀ e ∈ p.unacked, e.acked → e.number < taken
  buffer : ∀ k < taken, p.buffer k = p.sent[k]?
  returned : ∀ k ∈ p.returned, k < taken
  ids : (p.unacked.map PendingRecv.requestId).Nodup
  requests : ∀ request ∈ p.requests, request.1 ∈ p.returned ∨
    ∃ e ∈ p.unacked, e.number = request.1 ∧ e.requestId = request.2

theorem new_ok : new.Ok 0 := by
  constructor <;> simp [new, openRecvs]

theorem fill_range {taken n : Nat} {queue : List MpiMessage} (h : n ≤ queue.length)
    (buffer : Nat → Option MpiMessage) (k : Nat) :
    fill buffer ((List.range' taken n).zip queue) k =
      if taken ≤ k ∧ k < taken + n then queue[k - taken]? else buffer k := by
  induction n generalizing taken queue buffer with
  | zero =>
    rw [if_neg (by omega)]
    simp [fill]
  | succ n ih =>
    cases queue with
    | nil => simp at h
    | cons msg queue =>
      have hrest := @ih (taken + 1) queue (by simpa using h) (Function.update buffer taken (some msg))
      rw [List.range'_succ, List.zip_cons_cons]
      refine Eq.trans hrest ?_
      by_cases hk : k = taken
      · subst hk
        simp
      · by_cases hin : taken + 1 ≤ k ∧ k < taken + 1 + n
        · have hsub : k - taken = (k - (taken + 1)) + 1 := by omega
          rw [if_pos hin, if_pos (by omega), hsub, List.getElem?_cons_succ]
        · rw [if_neg hin, if_neg (by omega), Function.update_of_ne hk]

variable {p : RecvPair} {taken : Nat}

theorem Ok.arrive (h : p.Ok taken) (msg : MpiMessage) : (p.arrive msg).Ok taken := by
  refine { h with queue := ?_, short := h.short.trans (by simp [RecvPair.arrive]), buffer := fun k hk => ?_ }
  · simp only [RecvPair.arrive]
    rw [List.drop_append_of_le_length h.short, ← h.queue]
  · simp only [RecvPair.arrive]
    rw [List.getElem?_append_left (hk.trans_le h.short)]
    exact h.buffer k hk

theorem Ok.irecv (h : p.Ok taken) {requestId : Nat} (hfresh : requestId ∉ p.unacked.map PendingRecv.requestId) :
    (p.irecv requestId).Ok taken := by
  have hbound := h.bound
  refine { h with
    bound := Nat.le_succ_of_le hbound, waiting := ?_, order := ?_, acked := fun e he hacked => ?_, ids := ?_,
    requests := fun request hrequest => ?_ }
  · show (openRecvs (p.unacked ++ [_])).map _ = List.range' taken (p.posted + 1 - taken)
    have hone : p.posted + 1 - taken = (p.posted - taken) + 1 := by omega
    rw [openRecvs_append, List.map_append, h.waiting, hone, ← List.range'_append_1]
    simp [openRecvs]
    omega
  · refine List.pairwise_append.mpr ⟨h.order, List.pairwise_singleton .., ?_⟩
    intro e _ e' he' hacked
    obtain rfl := List.mem_singleton.mp he'
    cases hacked
  · rcases List.mem_append.mp he with he | he
    · exact h.acked e he hacked
    · obtain rfl := List.mem_singleton.mp he
      cases hacked
  · show ((p.unacked ++ [_]).map _).Nodup
    rw [List.map_append, List.nodup_append]
    refine ⟨h.ids, List.nodup_singleton _, ?_⟩
    intro a ha b hb heq
    obtain rfl : b = requestId := by simpa using hb
    exact hfresh (heq ▸ ha)
  · rcases List.mem_append.mp hrequest with hrequest | hrequest
    · refine (h.requests request hrequest).imp_right ?_
      rintro ⟨e, he, hsame⟩
      exact ⟨e, List.mem_append_left _ he, hsame⟩
    · obtain rfl := List.mem_singleton.mp hrequest
      exact Or.inr ⟨_, List.mem_append_right _ (List.mem_singleton_self _), rfl, rfl⟩

theorem Ok.queue_length (h : p.Ok taken) : p.queue.length = p.sent.length - taken := by
  rw [h.queue, List.length_drop]

theorem Ok.fill (h : p.Ok taken) {n : Nat} (hn : n ≤ p.queue.length) {k : Nat} (hk : k < taken + n) :
    fill p.buffer ((List.range' taken n).zip p.queue) k = p.sent[k]? := by
  rw [fill_range hn]
  split_ifs with hin
  · have hsub : taken + (k - taken) = k := by omega
    rw [h.queue, List.getElem?_drop, hsub]
  · exact h.buffer k (by omega)

variable {e : PendingRecv}

theorem Ok.number_lt (h : p.Ok taken) {part : List PendingRecv} {n : Nat} (hpart : part ⊆ p.unacked)
    (hopen : (openRecvs part).map PendingRecv.number = List.range' taken n) (he : e ∈ part) :
    e.number < taken + n := by
  cases hacked : e.acked with
  | true =>
    have hlt := h.acked e (hpart he) hacked
    omega
  | false =>
    have hmem : e.number ∈ (openRecvs part).map PendingRecv.number :=
      List.mem_map_of_mem (List.mem_filter.mpr ⟨he, by simp [hacked]⟩)
    rw [hopen, List.mem_range'_1] at hmem
    exact hmem.2

theorem ack_requestId (l : List PendingRecv) :
    (l.map PendingRecv.ack).map PendingRecv.requestId = l.map PendingRecv.requestId := by
  simp [PendingRecv.ack]

theorem Ok.recv_eq (h : p.Ok taken) (hzero : 0 ∉ p.unacked.map PendingRecv.requestId) :
    p.recv = match p.sent[p.posted]? with
      | none => p
      | some msg =>
        ⟨p.unacked.map PendingRecv.ack, p.queue.drop (p.posted - taken + 1), p.sent, p.posted + 1, p.requests,
          Function.update (RecvPair.fill p.buffer ((List.range' taken (p.posted - taken)).zip p.queue)) p.posted
            (some msg), p.returned ++ [p.posted]⟩ := by
  have hid : ∀ e ∈ p.unacked, 0 ≠ e.requestId := fun e he heq => hzero (heq ▸ List.mem_map_of_mem he)
  have hopen : (openRecvs p.unacked).length = p.posted - taken := by simpa using congrArg List.length h.waiting
  have hsame : p.queue[p.posted - taken]? = p.sent[p.posted]? := by
    rw [h.queue, List.getElem?_drop, Nat.add_sub_cancel' h.bound]
  rw [RecvPair.recv, recvBatch_recv hid, hopen, h.waiting, hsame]
  cases p.sent[p.posted]? <;> rfl

theorem Ok.recv (h : p.Ok taken) (hzero : 0 ∉ p.unacked.map PendingRecv.requestId) :
    ∃ taken', p.recv.Ok taken' := by
  have hbound := h.bound
  rw [h.recv_eq hzero]
  cases hmsg : p.sent[p.posted]? with
  | none => exact ⟨taken, h⟩
  | some msg =>
    have hlt : p.posted < p.sent.length := (List.getElem?_eq_some_iff.mp hmsg).1
    have hlength := h.queue_length
    have hnumber (e : PendingRecv) (he : e ∈ p.unacked) : e.number < p.posted := by
      have hlt := h.number_lt (List.Subset.refl _) h.waiting he
      omega
    refine ⟨p.posted + 1, ?_, hlt, le_rfl, ?_, ?_, ?_, fun k hk => ?_, fun k hk => ?_, ?_, fun request hrequest => ?_⟩
    · show p.queue.drop _ = p.sent.drop _
      rw [h.queue, List.drop_drop, ← Nat.add_assoc, Nat.add_sub_cancel' hbound]
    · rw [openRecvs_ack, Nat.sub_self]
      rfl
    · exact List.pairwise_map.mpr (List.pairwise_of_forall fun _ _ _ => rfl)
    · intro e he _
      obtain ⟨e, hmem, rfl⟩ := List.mem_map.mp he
      exact Nat.lt_succ_of_lt (hnumber e hmem)
    · dsimp only
      by_cases heq : k = p.posted
      · rw [heq, Function.update_self, hmsg]
      · rw [Function.update_of_ne heq]
        exact h.fill (by omega) (by omega)
    · rcases List.mem_append.mp hk with hk | hk
      · have hret := h.returned k hk
        omega
      · rw [List.mem_singleton.mp hk]
        omega
    · rw [ack_requestId]
      exact h.ids
    · rcases h.requests request hrequest with hret | ⟨e, he, hsame⟩
      · exact Or.inl (List.mem_append_left _ hret)
      · exact Or.inr ⟨e.ack, List.mem_map_of_mem he, hsame⟩

theorem Ok.split (h : p.Ok taken) {before after : List PendingRecv} (hunacked : p.unacked = before ++ e :: after) :
    (openRecvs (before ++ [e])).length ≤ p.posted - taken ∧
      (openRecvs (before ++ [e])).map PendingRecv.number =
        List.range' taken (openRecvs (before ++ [e])).length ∧
      (openRecvs after).map PendingRecv.number =
        List.range' (taken + (openRecvs (before ++ [e])).length)
          (p.posted - taken - (openRecvs (before ++ [e])).length) := by
  have hsplit : openRecvs p.unacked = openRecvs (before ++ [e]) ++ openRecvs after := by
    rw [hunacked, ← openRecvs_append]
    simp
  have hwaiting := h.waiting
  rw [hsplit, List.map_append, eq_comm, List.range'_eq_append_iff] at hwaiting
  obtain ⟨n, hn, hfirst, hrest⟩ := hwaiting
  have hlen : (openRecvs (before ++ [e])).length = n := by
    have hlength := congrArg List.length hfirst
    simpa using hlength
  rw [hlen]
  exact ⟨hn, hfirst, by simpa using hrest⟩

theorem Ok.await_eq (h : p.Ok taken) {before after : List PendingRecv} (hunacked : p.unacked = before ++ e :: after) :
    let n := (openRecvs (before ++ [e])).length
    p.await e.requestId e.number = if n ≤ p.queue.length then
      ⟨before.map PendingRecv.ack ++ after, p.queue.drop n, p.sent, p.posted, p.requests,
        RecvPair.fill p.buffer ((List.range' taken n).zip p.queue), p.returned ++ [e.number]⟩ else p := by
  dsimp only
  have hids := h.ids
  rw [hunacked, List.map_append, List.map_cons, List.nodup_append] at hids
  have hid : ∀ e' ∈ before, e.requestId ≠ e'.requestId := by
    intro e' he' heq
    exact hids.2.2 _ (List.mem_map_of_mem he') _ List.mem_cons_self heq.symm
  rw [RecvPair.await, hunacked, recvBatch_await hid, (h.split hunacked).2.1]
  split_ifs <;> rfl

theorem Ok.await (h : p.Ok taken) (he : e ∈ p.unacked) : ∃ taken', (p.await e.requestId e.number).Ok taken' := by
  obtain ⟨before, after, hunacked⟩ := List.append_of_mem he
  obtain ⟨hle, hfirst, hrest⟩ := h.split hunacked
  have heq := h.await_eq hunacked
  have hbound := h.bound
  have hlength := h.queue_length
  generalize (openRecvs (before ++ [e])).length = n at heq hle hfirst hrest
  dsimp only at heq
  rw [heq]
  split_ifs with hlen
  swap
  · exact ⟨taken, h⟩
  have horder := h.order
  have hids := h.ids
  rw [hunacked] at horder hids
  have hsub : before ++ [e] ⊆ p.unacked := by
    rw [hunacked]
    intro e' he'
    simp only [List.mem_append, List.mem_cons] at he' ⊢
    tauto
  have hnumber (e' : PendingRecv) (he' : e' ∈ before ++ [e]) : e'.number < taken + n := h.number_lt hsub hfirst he'
  refine ⟨taken + n, ?_, ?_, ?_, ?_, ?_, fun e' he' hacked => ?_, fun k hk => h.fill hlen hk, fun k hk => ?_, ?_,
    fun request hrequest => ?_⟩
  · show p.queue.drop n = p.sent.drop (taken + n)
    rw [h.queue, List.drop_drop]
  · have hshort := h.short
    show taken + n ≤ p.sent.length
    omega
  · show taken + n ≤ p.posted
    omega
  · rw [openRecvs_append, openRecvs_ack, List.nil_append, hrest, Nat.sub_add_eq]
  · refine List.pairwise_append.mpr ⟨List.pairwise_map.mpr (List.pairwise_of_forall fun _ _ _ => rfl), ?_, ?_⟩
    · exact (List.pairwise_cons.mp (List.pairwise_append.mp horder).2.1).2
    · intro e' he' _ _ _
      obtain ⟨_, _, rfl⟩ := List.mem_map.mp he'
      rfl
  · rcases List.mem_append.mp he' with he' | he'
    · obtain ⟨e'', hmem, rfl⟩ := List.mem_map.mp he'
      exact hnumber e'' (List.mem_append_left _ hmem)
    · have hlt := h.acked e' (by rw [hunacked]; simp [he']) hacked
      omega
  · rcases List.mem_append.mp hk with hk | hk
    · have hret := h.returned k hk
      omega
    · rw [List.mem_singleton.mp hk]
      exact hnumber e (List.mem_append_right _ (List.mem_singleton_self e))
  · rw [List.map_append, ack_requestId, ← List.map_append]
    refine hids.sublist (List.Sublist.map _ ?_)
    exact List.Sublist.append_left (List.sublist_cons_self e after) before
  · rcases h.requests request hrequest with hret | ⟨e', he', hsame⟩
    · exact Or.inl (List.mem_append_left _ hret)
    · rw [hunacked] at he'
      rcases List.mem_append.mp he' with he' | he'
      · exact Or.inr ⟨e'.ack, List.mem_append_left _ (List.mem_map_of_mem he'), hsame⟩
      · rcases List.mem_cons.mp he' with rfl | he'
        · exact Or.inl (List.mem_append_right _ (by simp [hsame.1]))
        · exact Or.inr ⟨e', List.mem_append_right _ he', hsame⟩

structure InOrder (p : RecvPair) : Prop where
  returned : ∀ k ∈ p.returned, ∃ msg, p.sent[k]? = some msg ∧ p.buffer k = some msg
  awaitable : ∀ request ∈ p.requests, request.1 ∉ p.returned → request.1 < p.sent.length →
    request.1 ∈ (p.await request.2 request.1).returned
  receivable : 0 ∉ p.unacked.map PendingRecv.requestId → p.posted < p.sent.length → p.posted ∈ p.recv.returned

theorem Ok.inOrder (h : p.Ok taken) : p.InOrder := by
  have hlength := h.queue_length
  have hshort := h.short
  refine ⟨fun k hk => ?_, fun request hrequest hnot hsent => ?_, fun hzero hsent => ?_⟩
  · have hlt := h.returned k hk
    have hget : p.sent[k]? = some p.sent[k] := List.getElem?_eq_getElem (by omega)
    exact ⟨_, hget, (h.buffer k hlt).trans hget⟩
  · obtain ⟨e, he, hnumber, hid⟩ := (h.requests request hrequest).resolve_left hnot
    obtain ⟨before, after, hunacked⟩ := List.append_of_mem he
    obtain ⟨-, hfirst, -⟩ := h.split hunacked
    have heq := h.await_eq hunacked
    dsimp only at heq
    -- the last of the entries that wait is the one awaited, if it waits at all
    have hlen : (openRecvs (before ++ [e])).length ≤ p.queue.length := by
      cases hacked : e.acked with
      | true =>
        have horder := h.order
        rw [hunacked] at horder
        have hbefore (e' : PendingRecv) (he' : e' ∈ before) : e'.acked :=
          (List.pairwise_append.mp horder).2.2 e' he' e List.mem_cons_self hacked
        have hnone : openRecvs (before ++ [e]) = [] := by
          rw [openRecvs, List.filter_eq_nil_iff]
          intro e' he'
          rcases List.mem_append.mp he' with he' | he'
          · simp [hbefore e' he']
          · rw [List.mem_singleton.mp he', hacked]
            simp
        simp [hnone]
      | false =>
        have hlast : openRecvs (before ++ [e]) = openRecvs before ++ [e] := by simp [openRecvs, hacked]
        rw [hlast, List.length_append, List.length_singleton, List.map_append, List.map_singleton,
          List.range'_1_concat] at hfirst
        have hnext : e.number = taken + (openRecvs before).length := by
          have htail := List.append_inj_right' hfirst rfl
          simpa using htail
        rw [hlast, List.length_append, List.length_singleton]
        omega
    rw [← hnumber, ← hid, heq, if_pos hlen]
    exact List.mem_append_right _ (List.mem_singleton_self _)
  · have hget : p.sent[p.posted]? = some p.sent[p.posted] := List.getElem?_eq_getElem hsent
    rw [h.recv_eq hzero, hget]
    exact List.mem_append_right _ (List.mem_singleton_self _)

end RecvPair

/-! A rank, with its pairs and the generator of request ids. -/

def getAsyncRequestId (sendRank recvRank : Nat) (isSend : Bool) (gid : Nat) : Nat :=
  (if isSend then 0xFF else 0x00) * 2 ^ 24 + gid % 256 * 2 ^ 16 + sendRank % 256 * 2 ^ 8 + recvRank % 256

def getRanksFromRequestId (requestId : Nat) : (Nat × Nat) × Bool :=
  ((requestId / 2 ^ 8 % 256, requestId % 256), requestId / 2 ^ 24 % 256 = 0xFF)

theorem getRanks_getAsyncRequestId {sendRank recvRank : Nat} (hs : sendRank < 256) (hr : recvRank < 256)
    (isSend : Bool) (gid : Nat) :
    getRanksFromRequestId (getAsyncRequestId sendRank recvRank isSend gid) = ((sendRank, recvRank), isSend) := by
  have hgid : gid % 256 < 256 := Nat.mod_lt _ (by decide)
  unfold getRanksFromRequestId getAsyncRequestId
  generalize gid % 256 = unique at hgid
  cases isSend with
  | false =>
    simp only [Bool.false_eq_true, if_false, Prod.mk.injEq, decide_eq_false_iff_not]
    omega
  | true =>
    simp only [if_true, Prod.mk.injEq, decide_eq_true_eq]
    omega

structure AsyncRank where
  rank : Nat
  intHash : Nat
  counter : Nat
  pairs : Nat × Nat → RecvPair

namespace AsyncRank

def generateGid (s : AsyncRank) : Nat × AsyncRank :=
  let result := (s.intHash + s.counter) % 2 ^ 32
  if result ≠ 0 then (result, { s with counter := s.counter + 1 })
  else ((s.intHash + (s.counter + 1)) % 2 ^ 32, { s with counter := s.counter + 2 })

def nextRequestId (s : AsyncRank) (sender : Nat) : Nat :=
  getAsyncRequestId sender s.rank false s.generateGid.1

def updatePair (s : AsyncRank) (pair : Nat × Nat) (p : RecvPair) : AsyncRank :=
  { s with pairs := Function.update s.pairs pair p }

def awaitAsyncRequest (s : AsyncRank) (requestId number : Nat) : AsyncRank :=
  let (pair, isSend) := getRanksFromRequestId requestId
  if isSend then s else s.updatePair pair ((s.pairs pair).await requestId number)

end AsyncRank

/-- What the rank calls, with the ids that other threads of its host generate and the messages sent to it. A receive
is awaited by its number on the pair, a send by the id that it got. -/
inductive AsyncCall where
  | arrive (sender : Nat) (msg : MpiMessage)
  | generateGid
  | isend (dest : Nat)
  | irecv (sender : Nat)
  | recv (sender : Nat)
  | await (sender number : Nat)
  | awaitSend (dest gid : Nat)
  deriving DecidableEq

namespace AsyncRank

def requestOf (s : AsyncRank) (sender number : Nat) : Option (Nat × Nat) :=
  (s.pairs (sender, s.rank)).requests.find? (·.1 = number)

def step (s : AsyncRank) : AsyncCall → AsyncRank
  | .arrive sender msg => s.updatePair (sender, s.rank) ((s.pairs (sender, s.rank)).arrive msg)
  | .generateGid => s.generateGid.2
  | .isend _ => s.generateGid.2
  | .irecv sender =>
    s.generateGid.2.updatePair (sender, s.rank) ((s.pairs (sender, s.rank)).irecv (s.nextRequestId sender))
  | .recv sender => s.updatePair (sender, s.rank) (s.pairs (sender, s.rank)).recv
  | .await sender number =>
    match s.requestOf sender number with
    | none => s
    | some request => s.awaitAsyncRequest request.2 number
  | .awaitSend dest gid => s.awaitAsyncRequest (getAsyncRequestId s.rank dest true gid) 0

def Program (s : AsyncRank) : AsyncCall → Prop
  | .arrive sender _ => sender < 256
  | .irecv sender => sender < 256
  | .recv sender => sender < 256
  | .await sender number =>
    (s.requestOf sender number).isSome ∧ number ∉ (s.pairs (sender, s.rank)).returned
  | .awaitSend dest _ => dest < 256
  | _ => True

instance (s : AsyncRank) : DecidablePred s.Program := fun call => by
  cases call <;> (dsimp only [Program]; infer_instance)

def outstanding (s : AsyncRank) (sender : Nat) : List Nat :=
  (s.pairs (sender, s.rank)).unacked.map PendingRecv.requestId

/-- A new request has another id than those of its pair that have not been awaited, and no request with the id 0,
which stands for none, is outstanding when a blocking receive is made. -/
def Distinct (s : AsyncRank) : AsyncCall → Prop
  | .irecv sender => s.nextRequestId sender ∉ s.outstanding sender
  | .recv sender => 0 ∉ s.outstanding sender
  | _ => True

instance (s : AsyncRank) : DecidablePred s.Distinct := fun call => by
  cases call <;> (dsimp only [Distinct]; infer_instance)

structure Ok (s : AsyncRank) : Prop where
  rank : s.rank < 256
  pairs : ∀ pair, ∃ taken, (s.pairs pair).Ok taken
  requests : ∀ pair, ∀ request ∈ (s.pairs pair).requests, getRanksFromRequestId request.2 = (pair, false)

variable {s : AsyncRank}

theorem Ok.updatePair (h : s.Ok) {pair : Nat × Nat} {p : RecvPair} (hp : ∃ taken, p.Ok taken)
    (hrequests : ∀ request ∈ p.requests, getRanksFromRequestId request.2 = (pair, false)) :
    (s.updatePair pair p).Ok := by
  refine ⟨h.rank, fun pair' => ?_, fun pair' => ?_⟩
  · by_cases heq : pair' = pair
    · subst heq
      simpa [AsyncRank.updatePair] using hp
    · simpa [AsyncRank.updatePair, heq] using h.pairs pair'
  · by_cases heq : pair' = pair
    · subst heq
      simpa [AsyncRank.updatePair] using hrequests
    · simpa [AsyncRank.updatePair, heq] using h.requests pair'

theorem generateGid_pairs (s : AsyncRank) : s.generateGid.2.pairs = s.pairs ∧ s.generateGid.2.rank = s.rank := by
  unfold generateGid
  dsimp only
  split_ifs <;> exact ⟨rfl, rfl⟩

theorem Ok.generateGid (h : s.Ok) : s.generateGid.2.Ok := by
  obtain ⟨hpairs, hrank⟩ := s.generateGid_pairs
  exact ⟨hrank ▸ h.rank, hpairs ▸ h.pairs, hpairs ▸ h.requests⟩

theorem recv_requests (p : RecvPair) : p.recv.requests = p.requests := by
  unfold RecvPair.recv
  split <;> rfl

theorem await_requests (p : RecvPair) (requestId number : Nat) :
    (p.await requestId number).requests = p.requests := by
  unfold RecvPair.await
  split <;> rfl

theorem Ok.step (h : s.Ok) {call : AsyncCall} (hprogram : s.Program call) (hdistinct : s.Distinct call) :
    (s.step call).Ok := by
  cases call with
  | arrive sender msg => exact h.updatePair ((h.pairs _).imp fun _ hp => hp.arrive msg) (h.requests _)
  | generateGid => exact h.generateGid
  | isend dest => exact h.generateGid
  | irecv sender =>
    refine h.generateGid.updatePair ((h.pairs _).imp fun _ hp => hp.irecv hdistinct) fun request hrequest => ?_
    rcases List.mem_append.mp hrequest with hrequest | hrequest
    · exact h.requests _ request hrequest
    · rw [List.mem_singleton.mp hrequest]
      exact getRanks_getAsyncRequestId hprogram h.rank false _
  | recv sender =>
    obtain ⟨taken, hp⟩ := h.pairs (sender, s.rank)
    refine h.updatePair (hp.recv hdistinct) ?_
    rw [recv_requests]
    exact h.requests _
  | await sender number =>
    obtain ⟨hsome, hnot⟩ := hprogram
    obtain ⟨request, hfind⟩ := Option.isSome_iff_exists.mp hsome
    have hmem : request ∈ (s.pairs (sender, s.rank)).requests := List.mem_of_find?_eq_some hfind
    have hnumber : request.1 = number := by simpa using List.find?_some hfind
    subst hnumber
    obtain ⟨taken, hp⟩ := h.pairs (sender, s.rank)
    obtain ⟨e, he, hsame, hid⟩ := (hp.requests request hmem).resolve_left hnot
    have hstep : s.step (.await sender request.1) =
        s.updatePair (sender, s.rank) ((s.pairs (sender, s.rank)).await e.requestId e.number) := by
      rw [AsyncRank.step, hfind]
      dsimp only
      rw [awaitAsyncRequest, h.requests _ request hmem, hid, hsame]
      rfl
    rw [hstep]
    refine h.updatePair (hp.await he) ?_
    rw [await_requests]
    exact h.requests _
  | awaitSend dest gid =>
    have hstep : s.step (.awaitSend dest gid) = s := by
      rw [AsyncRank.step, awaitAsyncRequest, getRanks_getAsyncRequestId h.rank hprogram]
      rfl
    rw [hstep]
    exact h

def start (rank intHash counter : Nat) : AsyncRank := ⟨rank, intHash, counter, fun _ => RecvPair.new⟩

theorem start_ok {rank : Nat} (hrank : rank < 256) (intHash counter : Nat) : (start rank intHash counter).Ok :=
  ⟨hrank, fun _ => ⟨0, RecvPair.new_ok⟩, fun _ _ h => by simp [start, RecvPair.new] at h⟩

end AsyncRank

def smallMessage (byte : UInt8) : MpiMessage := ⟨0, 1, 1, 1, .normal, some [byte]⟩

def mixedReceives : List AsyncCall :=
  [.irecv 0, .isend 2, .irecv 0, .arrive 0 (smallMessage 5), .arrive 0 (smallMessage 6), .await 0 1, .irecv 0,
    .arrive 0 (smallMessage 7), .arrive 0 (smallMessage 8), .recv 0, .await 0 0, .await 0 2]

def collidingReceives : List AsyncCall :=
  .irecv 0 :: List.replicate 255 (.isend 2) ++ [.irecv 0, .arrive 0 (smallMessage 5), .await 0 1]

end Faabric
