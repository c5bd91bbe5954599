import Mathlib
import Faabric.Mpi.DataMovement

/-! Programs of collective calls, under every interleaving of the ranks. -/

namespace Faabric

open Network

def MpiExtent.length (e : MpiExtent) : Nat := (e.count * e.dataType.size).toNat

def MpiBuffers.Sized (buffers : MpiBuffers) (size bytes : Nat) : Prop :=
  match buffers with
  | .inPlace buffer => buffer.length = size * bytes
  | .separate sendBuffer _ => sendBuffer.length = bytes

instance (buffers : MpiBuffers) (size bytes : Nat) : Decidable (buffers.Sized size bytes) := by
  cases buffers <;> exact inferInstanceAs (Decidable (_ = _))

theorem MpiBuffers.Sized.own {buffers : MpiBuffers} {size bytes : Nat} (h : buffers.Sized size bytes) (r : Fin size) :
    bytes ≤ (buffers.own r bytes).length := by
  cases buffers with
  | inPlace buffer => exact MpiWorld.slice_long h r
  | separate sendBuffer recvBuffer =>
    have hlen : sendBuffer.length = bytes := h
    simp [MpiBuffers.own, MpiBuffers.isInPlace, MpiBuffers.sendBuffer, hlen]

instance {size : Nat} (w : MpiWorld size) (root : Fin size) (args : Fin size → MpiArgs) (bytes : Nat) :
    Decidable (w.GatherCovered root args bytes) :=
  decidable_of_iff (_ ∧ _ ∧ _ ∧ _)
    ⟨fun h => ⟨h.1, h.2.1, h.2.2.1, h.2.2.2⟩, fun h => ⟨h.fits, h.toRoot, h.toLeader, h.fromLeader⟩⟩

section Calls

variable {size : Nat} [NeZero size] (w : MpiWorld size)

def MpiCall.blockBytes : MpiCall size → Nat
  | .broadcast root args => (args root).recv.length
  | .scatter root args => (args root).send.length
  | .gather root args => (args root).recv.length
  | .allGather args => (args 0).recv.length
  | .allToAll args => (args 0).recv.length
  | .barrier => 0

/-- The ranks' calls match: what is sent has the size of what is received, and the buffers have room for it. -/
def MpiCall.Matching (call : MpiCall size) : Prop :=
  match call with
  | .broadcast _ args =>
    ∀ r, (args r).recv.Holds call.blockBytes ∧ (args r).buffers.recvBuffer.length = call.blockBytes
  | .scatter root args =>
    (args root).send.Holds call.blockBytes ∧ (args root).buffers.sendBuffer.length = size * call.blockBytes ∧
      ¬(args root).buffers.isInPlace ∧
      ∀ r, (args r).recv.Holds call.blockBytes ∧ (args r).buffers.recvBuffer.length = call.blockBytes
  | .gather root args =>
    (args root).recv.Holds call.blockBytes ∧ (args root).buffers.recvBuffer.length = size * call.blockBytes ∧
      ∀ r, (args r).send.Holds call.blockBytes ∧ (args r).buffers.Sized size call.blockBytes
  | .allGather args =>
    ∀ r, (args r).send.Holds call.blockBytes ∧ (args r).recv.Holds call.blockBytes ∧
      (args r).buffers.Sized size call.blockBytes ∧ (args r).buffers.recvBuffer.length = size * call.blockBytes
  | .allToAll args =>
    ∀ r, (args r).send.Holds call.blockBytes ∧ (args r).recv.Holds call.blockBytes ∧ ¬(args r).buffers.isInPlace ∧
      (args r).buffers.sendBuffer.length = size * call.blockBytes ∧
      (args r).buffers.recvBuffer.length = size * call.blockBytes
  | .barrier => True

/-- The sizes can be computed as `int`, no rank's check throws, and no receiver makes the message shorter with a
datatype of its own. -/
def MpiCall.Covered (call : MpiCall size) : Prop :=
  match call with
  | .broadcast root args =>
    call.blockBytes < 2 ^ 31 ∧ ∀ r, r ≠ root → (args (w.parent root r)).recv.Covers (args r).recv
  | .scatter root args =>
    call.blockBytes < 2 ^ 31 ∧ (∀ r, ¬sendRecvMismatch (args r).send (args r).recv) ∧
      ∀ r, r ≠ root → (args root).send.Covers (args r).recv
  | .gather root args =>
    call.blockBytes < 2 ^ 31 ∧ (∀ r, ¬sendRecvMismatch (args r).send (args r).recv) ∧
      w.GatherCovered root args call.blockBytes
  | .allGather args =>
    call.blockBytes * size < 2 ^ 31 ∧ (∀ r, ¬sendRecvMismatch (args r).send (args r).recv) ∧
      w.GatherCovered 0 args call.blockBytes ∧
      ∀ r, r ≠ 0 → ((args (w.parent 0 r)).recv.times size).Covers ((args r).recv.times size)
  | .allToAll args =>
    call.blockBytes < 2 ^ 31 ∧ (∀ r, ¬sendRecvMismatch (args r).send (args r).recv) ∧
      ∀ i j, i ≠ j → (args i).send.Covers (args j).recv
  | .barrier => True

instance : DecidablePred (MpiCall.Matching : MpiCall size → Prop) := fun call => by
  cases call <;> (dsimp only [MpiCall.Matching]; infer_instance)

instance : DecidablePred (MpiCall.Covered w) := fun call => by
  cases call <;> (dsimp only [MpiCall.Covered]; infer_instance)

def MpiCall.expected (call : MpiCall size) (r : Fin size) : List UInt8 :=
  match call with
  | .broadcast root args => (args root).buffers.recvBuffer
  | .scatter root args => Blocks.slice (args root).buffers.sendBuffer call.blockBytes r
  | .gather root args =>
    if r = root then MpiWorld.gathered args call.blockBytes else (args r).buffers.recvBuffer
  | .allGather args => MpiWorld.gathered args call.blockBytes
  | .allToAll args => Blocks.join fun i => Blocks.slice (args i).buffers.sendBuffer call.blockBytes r
  | .barrier => []

variable {w}

theorem MpiCall.completes {call : MpiCall size} (hmatching : call.Matching) (hcovered : call.Covered w) :
    Completes (fun r => call.process w r) (fun _ => []) fun r => .ok (call.expected r) := by
  cases call with
  | broadcast root args =>
    have hdata := w.broadcast_completes root .broadcast (fun r => ⟨(hmatching r).1, hcovered.1⟩)
      (fun r => (hmatching r).2) hcovered.2
    exact hdata.map fun _ => Except.ok
  | scatter root args =>
    obtain ⟨hsend, hlen, -, hrecv⟩ := hmatching
    exact MpiWorld.scatter_completes ⟨hsend, hcovered.1⟩ (fun r => ⟨(hrecv r).1, hcovered.1⟩) hcovered.2.1 hlen
      (fun r => (hrecv r).2) hcovered.2.2
  | gather root args =>
    obtain ⟨hrecv, hwhole, hsend⟩ := hmatching
    obtain ⟨hfits, hthrow, hcover⟩ := hcovered
    have hok : w.GatherOk root args (args root).recv.length :=
      ⟨hcover, fun r => ⟨(hsend r).1, hfits⟩, ⟨hrecv, hfits⟩, hthrow, fun r => (hsend r).2.own r, hwhole⟩
    have hdata := hok.completes.map fun _ (result : Except String MpiBuffers) => result.map MpiBuffers.recvBuffer
    have hresult (r : Fin size) : Except.map MpiBuffers.recvBuffer
        (.ok (MpiWorld.gatherResult root args (args root).recv.length r) : Except String MpiBuffers) =
        .ok ((MpiCall.gather root args).expected r) := by
      rw [Except.map, MpiWorld.gatherResult, MpiCall.expected]
      split_ifs
      · rw [MpiBuffers.recvBuffer_setRecv, MpiCall.blockBytes]
      · rfl
    simp only [hresult] at hdata
    exact hdata
  | allGather args =>
    obtain ⟨hfits, hthrow, hcover, hshare⟩ := hcovered
    have hpos : 0 < size := Nat.pos_of_ne_zero (NeZero.ne size)
    have hblock : (args 0).recv.length < 2 ^ 31 := (Nat.le_mul_of_pos_right _ hpos).trans_lt hfits
    have hok : w.GatherOk 0 args (args 0).recv.length :=
      ⟨hcover, fun r => ⟨(hmatching r).1, hblock⟩, ⟨(hmatching 0).2.1, hblock⟩, hthrow,
        fun r => (hmatching r).2.2.1.own r, (hmatching 0).2.2.2⟩
    have hall := MpiWorld.allGather_completes hok (fun r => ⟨(hmatching r).2.1, hblock⟩)
      (fun r => (hmatching r).2.2.2) hfits hshare
    have hdata := hall.map fun _ (result : Except String MpiBuffers) => result.map MpiBuffers.recvBuffer
    simp only [Except.map, MpiBuffers.recvBuffer_setRecv] at hdata
    exact hdata
  | allToAll args =>
    exact MpiWorld.allToAll_completes (fun r => ⟨(hmatching r).1, hcovered.1⟩)
      (fun r => ⟨(hmatching r).2.1, hcovered.1⟩) hcovered.2.1 (fun r => (hmatching r).2.2.2.1)
      (fun r => (hmatching r).2.2.2.2) hcovered.2.2
  | barrier => exact (MpiWorld.barrier_completes w).map fun _ => Except.ok

def expectedLog (r : Fin size) : Nat → List (MpiCall size) → List MpiEvent
  | _, [] => []
  | k, call :: calls => .enter k :: .leave k (.ok (call.expected r)) :: expectedLog r (k + 1) calls

theorem program_completes {calls : List (MpiCall size)} (hmatching : ∀ call ∈ calls, call.Matching)
    (hcovered : ∀ call ∈ calls, call.Covered w) (k : Nat) :
    Completes (fun r => w.program r k calls) (fun r => expectedLog r k calls) fun _ => .ok () := by
  induction calls generalizing k with
  | nil => exact completes_done fun _ => (.ok () : Except String Unit)
  | cons call calls ih =>
    have hrest := ih (fun c hc => hmatching c (List.mem_cons_of_mem call hc))
      (fun c hc => hcovered c (List.mem_cons_of_mem call hc)) (k + 1)
    have hcall := MpiCall.completes (hmatching call List.mem_cons_self) (hcovered call List.mem_cons_self)
    have hleave := hrest.note fun r => .leave k (.ok (call.expected r))
    refine Completes.note (p := fun r => (call.process w r).bind _) ?_ fun _ => .enter k
    exact hcall.bind hleave

end Calls

/-! Barriers. -/

section Barriers

variable {size : Nat} [NeZero size] {w : MpiWorld size}

theorem program_append (r : Fin size) (k : Nat) (calls rest : List (MpiCall size)) :
    w.program r k (calls ++ rest) = (w.program r k calls).bind fun
      | .error message => .done (.error message)
      | .ok () => w.program r (k + calls.length) rest := by
  induction calls generalizing k with
  | nil => rfl
  | cons call calls ih =>
    simp only [List.cons_append, MpiWorld.program, Process.note_bind, Process.bind_assoc, ih]
    congr 2
    funext result
    cases result with
    | error message => rfl
    | ok buffer => simp [Nat.add_assoc, Nat.add_comm 1]

theorem expectedLog_calls {r : Fin size} {k : Nat} {calls : List (MpiCall size)} {j : Nat}
    {result : Except String (List UInt8)} (h : .leave j result ∈ expectedLog r k calls) : j < k + calls.length := by
  induction calls generalizing k with
  | nil => simp [expectedLog] at h
  | cons call calls ih =>
    simp only [expectedLog, List.mem_cons, reduceCtorEq, MpiEvent.leave.injEq, false_or] at h
    rw [List.length_cons]
    rcases h with ⟨rfl, -⟩ | h
    · omega
    · have hj := ih h
      omega

def Silent (q : Fin size) (pair : Fin size × Fin size) : Prop := pair.2 ≠ 0 ∨ pair.1 = q

theorem held_joinLoop {q : Fin size} {bad : MpiEvent → Prop} {α : Type} {l : List (Fin size)} (hq : q ∈ l)
    (next : Unit → RankProcess size α) :
    ((Process.forEach (fun r _ => .recv r fun _ => .done ()) l () : RankProcess size Unit).bind next).Held (Silent q)
      bad 0 := by
  induction l with
  | nil => cases hq
  | cons r l ih =>
    by_cases hr : r = q
    · exact Or.inl (Or.inr hr)
    · have hmem : q ∈ l := (List.mem_cons.mp hq).resolve_left (Ne.symm hr)
      exact Or.inr fun _ => ih hmem

theorem held_barrier {r q : Fin size} (hne : r ≠ q) {bad : MpiEvent → Prop} {α : Type}
    (next : List UInt8 → RankProcess size α) : ((w.barrier r).bind next).Held (Silent q) bad r := by
  rw [MpiWorld.barrier, MpiWorld.barrierJoin, Process.bind_assoc]
  by_cases hr : r = 0
  · subst hr
    rw [if_pos rfl]
    exact held_joinLoop (by simpa using Ne.symm hne) _
  · rw [if_neg hr]
    have hsend : ¬Silent q (r, 0) := by
      rintro (hzero | hself)
      · exact hzero rfl
      · exact hne hself
    refine ⟨hsend, ?_⟩
    rw [Process.done_bind, MpiWorld.broadcast, if_neg hr]
    split_ifs <;> exact Or.inl (Or.inl hr)

theorem barrier_waits {calls rest : List (MpiCall size)} (hmatching : ∀ call ∈ calls, call.Matching)
    (hcovered : ∀ call ∈ calls, call.Covered w) {n : Nat} {u : Net (Fin size) MpiMessage MpiEvent (Except String Unit)}
    (hrun : Run n (w.start (calls ++ .barrier :: rest)) u) {q : Fin size} (hq : .enter calls.length ∉ u.log q)
    (r : Fin size) (result : Except String (List UInt8)) : .leave calls.length result ∉ u.log r := by
  let go (r : Fin size) : Except String Unit → RankProcess size (Except String Unit)
    | .error message => .done (.error message)
    | .ok () => w.program r calls.length (.barrier :: rest)
  let stop (result : Except String Unit) : RankProcess size (Except String Unit) := .done result
  let k (r : Fin size) := if r = q then stop else go r
  have hprogram (r : Fin size) : w.program r 0 (calls ++ .barrier :: rest) = (w.program r 0 calls).bind (go r) := by
    simpa using program_append r 0 calls (.barrier :: rest)
  -- the others cannot tell whether `q` stops before the barrier
  have hgo (result : Except String Unit) :
      go q result = stop result ∨ ∃ next, go q result = .note (.enter calls.length) next := by
    cases result with
    | error message => exact Or.inl rfl
    | ok _ => exact Or.inr ⟨_, rfl⟩
  obtain ⟨u', hrun', hlog⟩ := hrun.stop (hprogram q) hgo hq
  have hstart : (w.start (calls ++ .barrier :: rest)).replace q ((w.program q 0 calls).bind stop) =
      ⟨fun r => (w.program r 0 calls).bind (k r), fun _ => [], fun _ => []⟩ := by
    ext1
    · funext r
      by_cases hr : r = q
      · subst hr
        simp [k]
      · rw [replace_procs _ hr]
        simp only [k, if_neg hr]
        exact hprogram r
    · rfl
    · rfl
  -- all calls before the barrier are over
  obtain ⟨m, hbefore⟩ := program_completes hmatching hcovered 0 fun _ => []
  have hmid := hbefore.bind k
  rw [hstart] at hrun'
  obtain ⟨v, i, j, hv, hv'⟩ := hrun'.join hmid
  have hheld : Net.Held (Silent q) (fun e => e = .leave calls.length result) (⟨fun r => (Process.done (.ok ())).bind (k r),
      fun _ => [], fun r => [] ++ expectedLog r 0 calls⟩ : Net (Fin size) MpiMessage MpiEvent (Except String Unit)) := by
    refine ⟨fun r => ?_, fun _ _ => rfl, fun r e he heq => ?_⟩
    · by_cases hr : r = q
      · simp only [k, hr, if_true]
        exact trivial
      · simp only [k, hr, if_false]
        refine ⟨by simp, ?_⟩
        show Process.Held _ _ _ (((w.barrier r).bind _).bind _)
        rw [Process.bind_assoc]
        exact held_barrier hr _
    · subst heq
      have hlt := expectedLog_calls he
      omega
  intro hleave
  have hin : .leave calls.length result ∈ v.log r := (hv.log_prefix r).subset (by rwa [hlog])
  exact (hheld.run hv').log r _ hin rfl

end Barriers

/-- Every run of the ranks' programs ends, it ends only when all calls have returned what they should, and no rank
leaves a barrier before all have entered it. -/
def CollectivesCorrect {size : Nat} [NeZero size] (w : MpiWorld size) (calls : List (MpiCall size)) : Prop :=
  ∃ steps, ∀ n u, Run n (w.start calls) u →
    n ≤ steps ∧ (∀ r, u.log r <+: expectedLog r 0 calls) ∧
      (u = ⟨fun _ => .done (.ok ()), fun _ => [], fun r => expectedLog r 0 calls⟩ ∨ ∃ r t, u.step r = some t) ∧
      ∀ k, calls[k]? = some .barrier → ∀ r q result, .leave k result ∈ u.log r → .enter k ∈ u.log q

theorem collectives_correct {size : Nat} [NeZero size] (w : MpiWorld size) (calls : List (MpiCall size))
    (hmatching : ∀ call ∈ calls, call.Matching) (hcovered : ∀ call ∈ calls, call.Covered w) :
    CollectivesCorrect w calls := by
  obtain ⟨steps, hevery⟩ := (program_completes hmatching hcovered 0).every_run fun _ => []
  refine ⟨steps, fun n u hrun => ?_⟩
  obtain ⟨hn, hlogs, hends⟩ := hevery n u hrun
  refine ⟨hn, hlogs, hends, fun k hk r q result hleave => ?_⟩
  by_contra hnot
  obtain ⟨hlt, hget⟩ := List.getElem?_eq_some_iff.mp hk
  have hsplit : calls = calls.take k ++ .barrier :: calls.drop (k + 1) := by
    rw [← hget, ← List.drop_eq_getElem_cons hlt, List.take_append_drop]
  have hlength : (calls.take k).length = k := List.length_take_of_le hlt.le
  have hbefore (call : MpiCall size) (hcall : call ∈ calls.take k) : call ∈ calls := List.mem_of_mem_take hcall
  rw [hsplit] at hrun
  rw [← hlength] at hnot hleave
  exact barrier_waits (fun call hcall => hmatching call (hbefore call hcall))
    (fun call hcall => hcovered call (hbefore call hcall)) hrun hnot r result hleave

def twoHosts : MpiWorld 3 := ⟨fun r => if r = 0 then "first" else "second"⟩

def allCalls : List (MpiCall 3) :=
  let row (r : Fin 3) : List UInt8 := [10 * r.val.toUInt8, 10 * r.val.toUInt8 + 1, 10 * r.val.toUInt8 + 2]
  let byte : MpiExtent := ⟨mpiByte, 1⟩
  [.broadcast 2 fun r => ⟨.inPlace [r.val.toUInt8], byte, byte⟩,
    .scatter 1 fun r => ⟨.separate (row r) [0], byte, byte⟩,
    .gather 1 fun r => ⟨.separate [r.val.toUInt8, 0, 0, 0] (List.replicate 12 0), ⟨mpiByte, 4⟩, ⟨mpiInt, 1⟩⟩,
    .barrier,
    .allGather fun r => ⟨.inPlace (row r), byte, byte⟩,
    .allToAll fun r => ⟨.separate (row r) [0, 0, 0], byte, byte⟩]

theorem collectives_correct_two_hosts : CollectivesCorrect twoHosts allCalls :=
  collectives_correct twoHosts allCalls (by decide +kernel) (by decide +kernel)

def oneHost : MpiWorld 2 := ⟨fun _ => "host"⟩

/-- Eight bytes for each rank, which are sent as one `long long` and received as two of type `int`. -/
def mixedScatter : MpiCall 2 :=
  .scatter 0 fun _ => ⟨.separate [1, 2, 3, 4, 5, 6, 7, 8, 9, 10, 11, 12, 13, 14, 15, 16] (List.replicate 8 0),
    ⟨mpiLongLong, 1⟩, ⟨mpiInt, 2⟩⟩

/-- The receiver copies the message's count of its own datatype: half of the data. -/
theorem scatter_loses_half : mixedScatter.Matching ∧ mixedScatter.expected 1 = [9, 10, 11, 12, 13, 14, 15, 16] ∧
    (∃ n u, Run n (oneHost.start [mixedScatter]) u ∧
      u.log 1 = [.enter 0, .leave 0 (.ok [9, 10, 11, 12, 0, 0, 0, 0])]) ∧
    ¬CollectivesCorrect oneHost [mixedScatter] := by
  have hfollow : ((oneHost.start [mixedScatter]).follow [0, 0, 1, 1, 1]).map (·.log 1) =
      some [.enter 0, .leave 0 (.ok [9, 10, 11, 12, 0, 0, 0, 0])] := by decide +kernel
  obtain ⟨u, hu, hlog⟩ := Option.map_eq_some_iff.mp hfollow
  have hrun := Net.follow_run hu
  refine ⟨by decide +kernel, by decide +kernel, ⟨_, u, hrun, hlog⟩, ?_⟩
  rintro ⟨steps, hcorrect⟩
  have hlogs := (hcorrect _ u hrun).2.1 1
  rw [hlog] at hlogs
  revert hlogs
  decide +kernel

end Faabric
