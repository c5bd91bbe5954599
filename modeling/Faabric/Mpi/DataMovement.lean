import Mathlib
import Faabric.Mpi.Collectives

/-! Each collective, entered by all ranks over empty channels, can complete, with the data that it defines. -/

namespace Faabric

open Network Blocks

namespace MpiWorld

variable {size : Nat} (w : MpiWorld size)

theorem flatMap_others {β : Type} (l : List (Fin size)) (self : Fin size) (f : Fin size → β) :
    l.flatMap (fun r => if r = self then [] else [f r]) = (l.filter (· ≠ self)).map f := by
  induction l with
  | nil => rfl
  | cons r l ih =>
    rw [List.flatMap_cons, ih]
    by_cases hr : r = self
    · simp [hr]
    · simp [hr]

theorem foldl_once {β : Type} {l : List (Fin size)} {self : Fin size} (hnd : l.Nodup) (hself : self ∈ l) (g : β → β)
    (b : β) : l.foldl (fun b r => if r = self then g b else b) b = g b := by
  obtain ⟨before, after, rfl⟩ := List.append_of_mem hself
  have hskip (l : List (Fin size)) (hl : self ∉ l) (b : β) :
      l.foldl (fun b r => if r = self then g b else b) b = b := by
    induction l with
    | nil => rfl
    | cons r l ih =>
      rw [List.mem_cons, not_or] at hl
      rw [List.foldl_cons, if_neg (Ne.symm hl.1), ih hl.2]
  rw [List.nodup_append, List.nodup_cons] at hnd
  have hbefore : self ∉ before := fun h => hnd.2.2 self h self List.mem_cons_self rfl
  rw [List.foldl_append, List.foldl_cons, if_pos rfl, hskip before hbefore, hskip after hnd.2.1.1]

section Fill

variable {ι : Type} {n bytes : Nat} {body : ι → List UInt8 → RankProcess size (List UInt8)}
  {given : Fin size → MpiMessage} {sources : ι → List (Fin size)} {sent : ι → List (Fin size × MpiMessage)}
  {fills : ι → Fin n → Prop} [∀ i, DecidablePred (fills i)] {data : Fin n → List UInt8}
  (hdata : ∀ k, (data k).length = bytes) {l : List ι}
  (hbody : ∀ i ∈ l, ∀ block : Fin n → List UInt8, (∀ k, (block k).length = bytes) →
    (body i (join block)).Trace given (sources i) (sent i) (join fun k => if fills i k then data k else block k))
  {block : Fin n → List UInt8} (h : ∀ k, (block k).length = bytes)

include hdata hbody h

theorem trace_fill : (Process.forEach body l (join block)).Trace given (l.flatMap sources) (l.flatMap sent)
    (join fun k => if ∃ i ∈ l, fills i k then data k else block k) := by
  induction l generalizing block with
  | nil =>
    have hnone (k : Fin n) : ¬∃ i ∈ ([] : List ι), fills i k := by simp
    simp only [hnone, if_false]
    exact .done _
  | cons i l ih =>
    have hfirst := hbody i List.mem_cons_self block h
    have hrest := @ih (fun j hj => hbody j (List.mem_cons_of_mem i hj))
      (fun k => if fills i k then data k else block k) fun k => by split_ifs <;> simp [hdata, h]
    have hsame : (fun k => if ∃ j ∈ i :: l, fills j k then data k else block k) = fun k =>
        if ∃ j ∈ l, fills j k then data k else if fills i k then data k else block k := by
      funext k
      by_cases hi : fills i k <;> simp [hi]
    rw [hsame]
    exact hfirst.bind hrest

theorem trace_fill_all (hall : ∀ k, (∃ i ∈ l, fills i k) ∨ block k = data k) :
    (Process.forEach body l (join block)).Trace given (l.flatMap sources) (l.flatMap sent) (join data) := by
  have hloop := trace_fill hdata hbody h
  have hfinal : (fun k => if ∃ i ∈ l, fills i k then data k else block k) = data := by
    funext k
    rcases hall k with hk | hk
    · rw [if_pos hk]
    · rw [hk, ite_self]
  rwa [hfinal] at hloop

end Fill

/-! Broadcast. -/

section Broadcast

variable {e : Fin size → MpiExtent} {buffer : Fin size → List UInt8} {bytes : Nat}

theorem children_root (root : Fin size) : w.children root root = w.rootPeers root := if_pos rfl

theorem children_leader {root r : Fin size} (hroot : r ≠ root) (hleader : r = w.localLeader r)
    (hhost : w.hostForRank root ≠ w.hostForRank r) : w.children root r = w.localPeers r := by
  rw [children, if_neg hroot, if_pos ⟨hleader, hhost⟩]

theorem children_leaf {root r : Fin size} (hroot : r ≠ root)
    (h : w.hostForRank root = w.hostForRank r ∨ r ≠ w.localLeader r) : w.children root r = [] := by
  rw [children, if_neg hroot, if_neg]
  rintro ⟨hleader, hhost⟩
  exact h.elim hhost fun hne => hne hleader

theorem broadcast_completes (root : Fin size) (t : MpiMessageType) (he : ∀ r, (e r).Is bytes) (hlen : ∀ r, (buffer r).length = bytes)
    (hcovers : ∀ r, r ≠ root → (e (w.parent root r)).Covers (e r)) :
    Completes (fun r => w.broadcast root r (buffer r) (e r) t) (fun _ => []) fun _ => buffer root := by
  let message (pair : Fin size × Fin size) : MpiMessage := mpiMessage pair.1 pair.2 (buffer root) (e pair.1) t
  have hrecv (r : Fin size) (hr : r ≠ root) :
      doRecv (message (w.parent root r, r)) (buffer r) (e r) = buffer root := by
    rw [doRecv_mpiMessage (he _) (he r) (hcovers r hr) (hlen root).ge,
      List.take_of_length_le (hlen root).le, List.drop_of_length_le (hlen r).le, List.append_nil]
  have hrelay (r : Fin size) (dests : List (Fin size)) : (Process.sendAll dests
      (fun j => mpiMessage r j (buffer root) (e r) t) (.done (buffer root)) : RankProcess size _).Trace
        (fun i => message (i, r)) [] (dests.map fun j => (j, message (r, j))) (buffer root) := by
    simpa using (Process.Trace.done (buffer root)).sendAll dests fun j => mpiMessage r j (buffer root) (e r) t
  refine (w.tree root).completes_down message fun r => ?_
  show Process.Trace _ _ (if r = root then [] else [w.parent root r]) ((w.children root r).map _) _
  by_cases hroot : r = root
  · subst hroot
    rw [broadcast, if_pos rfl, if_pos rfl, children_root]
    exact hrelay r (w.rootPeers r)
  · have hdata := hrecv r hroot
    rw [broadcast, if_neg hroot, if_neg hroot]
    by_cases hleader : r = w.localLeader r
    · have hparent : w.parent root r = root := if_pos (Or.inr hleader)
      rw [hparent] at hdata
      rw [if_pos hleader, hparent]
      apply Process.Trace.recv
      rw [hdata]
      by_cases hhost : w.hostForRank root = w.hostForRank r
      · rw [if_neg (not_not.mpr hhost), w.children_leaf hroot (Or.inl hhost)]
        exact .done _
      · rw [if_pos hhost, w.children_leader hroot hleader hhost]
        exact hrelay r (w.localPeers r)
    · have hparent : (if w.hostForRank root = w.hostForRank r then root else w.localLeader r) = w.parent root r := by
        simp [parent, hleader]
      rw [if_neg hleader, hparent, w.children_leaf hroot (Or.inr hleader)]
      apply Process.Trace.recv
      rw [hdata]
      exact .done _

variable {α : Type} {p : Fin size → RankProcess size α} {result : Fin size → α}

/-- Every rank sends its parent what it has, or what it has collected from its host. -/
theorem completes_collect (root : Fin size) (message : Fin size × Fin size → MpiMessage)
    (hroot : (p root).Trace (fun i => message (i, root)) (w.rootPeers root) [] (result root))
    (hleader : ∀ r, r ≠ root → r = w.localLeader r → w.hostForRank root ≠ w.hostForRank r →
      (p r).Trace (fun i => message (i, r)) (w.localPeers r) [(root, message (r, root))] (result r))
    (hleaf : ∀ r, r ≠ root → w.hostForRank root = w.hostForRank r ∨ r ≠ w.localLeader r →
      (p r).Trace (fun i => message (i, r)) [] [(w.parent root r, message (r, w.parent root r))] (result r)) :
    Completes p (fun _ => []) result := by
  refine (w.tree root).completes_up message fun r => ?_
  show Process.Trace _ _ (w.children root r)
    (if r = root then [] else [(w.parent root r, message (r, w.parent root r))]) _
  by_cases hr : r = root
  · subst hr
    rwa [children_root, if_pos rfl]
  rw [if_neg hr]
  by_cases hlocal : w.hostForRank root = w.hostForRank r ∨ r ≠ w.localLeader r
  · rw [w.children_leaf hr hlocal]
    exact hleaf r hr hlocal
  · rw [not_or, not_not] at hlocal
    have hparent : w.parent root r = root := if_pos (Or.inr hlocal.2)
    rw [w.children_leader hr hlocal.2 hlocal.1, hparent]
    exact hleader r hr hlocal.2 hlocal.1

def share [NeZero size] (w : MpiWorld size) (t : MpiMessageType) (e : MpiExtent) (r : Fin size) :
    Except String MpiBuffers → RankProcess size (Except String MpiBuffers)
  | .error message => .done (.error message)
  | .ok buffers => (w.broadcast 0 r buffers.recvBuffer e t).bind fun buffer => .done (.ok (buffers.setRecv buffer))

/-- The first rank has the result of a collective, and shares it. -/
theorem completes_share [NeZero size] {p : Fin size → RankProcess size (Except String MpiBuffers)}
    {before : Fin size → MpiBuffers} {data : List UInt8} (t : MpiMessageType)
    (h : Completes p (fun _ => []) fun r => .ok (if r = 0 then (before r).setRecv data else before r))
    (he : ∀ r, (e r).Is bytes) (hdata : data.length = bytes) (hlen : ∀ r, (before r).recvBuffer.length = bytes)
    (hcovers : ∀ r, r ≠ 0 → (e (w.parent 0 r)).Covers (e r)) :
    Completes (fun r => (p r).bind (w.share t (e r) r)) (fun _ => []) fun r => .ok ((before r).setRecv data) := by
  let mid (r : Fin size) := if r = 0 then (before r).setRecv data else before r
  have hmid (r : Fin size) : (mid r).recvBuffer.length = bytes := by
    simp only [mid]
    split_ifs
    · simpa using hdata
    · exact hlen r
  have hset (r : Fin size) (buffer : List UInt8) : (mid r).setRecv buffer = (before r).setRecv buffer := by
    simp only [mid]
    split_ifs <;> simp
  have hroot : (mid 0).recvBuffer = data := by simp [mid]
  have hshared := (w.broadcast_completes 0 t he hmid hcovers).map fun r buffer =>
    (.ok ((mid r).setRecv buffer) : Except String MpiBuffers)
  simp only [hroot, hset _ data] at hshared
  exact h.bind hshared

end Broadcast

/-! Scatter. -/

section Scatter

variable {root : Fin size} {args : Fin size → MpiArgs} {bytes : Nat}

theorem slice_long {buffer : List UInt8} (h : buffer.length = size * bytes) (r : Fin size) :
    bytes ≤ (buffer.drop (r * bytes)).length := by
  have hle := (length_slice h r).ge
  rw [slice, List.length_take] at hle
  omega

theorem scatter_completes (hsend : (args root).send.Is bytes) (hrecv : ∀ r, (args r).recv.Is bytes)
    (hmatch : ∀ r, ¬sendRecvMismatch (args r).send (args r).recv)
    (hlen : (args root).buffers.sendBuffer.length = size * bytes)
    (hlen' : ∀ r, (args r).buffers.recvBuffer.length = bytes)
    (hcovers : ∀ r, r ≠ root → (args root).send.Covers (args r).recv) :
    Completes (fun r => scatter root r (args r).buffers.sendBuffer (args r).send (args r).buffers.recvBuffer
      (args r).recv) (fun _ => []) fun r => .ok (slice (args root).buffers.sendBuffer bytes r) := by
  let data := (args root).buffers.sendBuffer
  let message (pair : Fin size × Fin size) : MpiMessage :=
    mpiMessage pair.1 pair.2 (data.drop (pair.2 * bytes)) (args root).send .scatter
  refine (star root).completes_down message fun r => ?_
  show Process.Trace _ _ (if r = root then [] else [root])
    ((if r = root then (List.finRange size).filter (· ≠ root) else []).map _) _
  by_cases hroot : r = root
  · subst hroot
    rw [scatter, if_neg (hmatch r), if_pos rfl, if_pos rfl, if_pos rfl]
    have hbody (j : Fin size) (buffer : List UInt8) : (scatterStep r data (args r).send j buffer).Trace
        (fun i => message (i, r)) [] (if j = r then [] else [(j, message (r, j))])
        (if j = r then memcpy buffer (data.drop (r * bytes)) bytes else buffer) := by
      rw [scatterStep, hsend.bytes_eq]
      by_cases hj : j = r
      · subst hj
        simpa using Process.Trace.done _
      · simpa [hj] using (Process.Trace.done buffer).send j (message (r, j))
    have hloop := Process.Trace.forEach (fun j (_ : j ∈ List.finRange size) => hbody j) (args r).buffers.recvBuffer
    have hcopy : memcpy (args r).buffers.recvBuffer (data.drop (r * bytes)) bytes = slice data bytes r := by
      rw [memcpy, List.drop_of_length_le (hlen' r).le, List.append_nil, slice]
    rw [flatMap_others, foldl_once (List.nodup_finRange size) (List.mem_finRange r), hcopy,
      List.flatMap_eq_nil_iff.mpr fun _ _ => rfl] at hloop
    exact hloop.map Except.ok
  · have hdata : doRecv (message (root, r)) (args r).buffers.recvBuffer (args r).recv = slice data bytes r := by
      rw [doRecv_mpiMessage hsend (hrecv r) (hcovers r hroot) (slice_long hlen r),
        List.drop_of_length_le (hlen' r).le, List.append_nil, slice]
    rw [scatter, if_neg (hmatch r), if_neg hroot, if_neg hroot, if_neg hroot]
    apply Process.Trace.recv
    rw [hdata]
    exact .done _

end Scatter

/-! Gather. -/

end MpiWorld

def MpiBuffers.contribution (buffers : MpiBuffers) (rank bytes : Nat) : List UInt8 :=
  (buffers.own rank bytes).take bytes

namespace MpiWorld

variable {size : Nat}

/-- The receiver of every message of a gather gets all of it. -/
structure GatherCovered (w : MpiWorld size) (root : Fin size) (args : Fin size → MpiArgs) (bytes : Nat) : Prop where
  fits : ∀ r, w.hostForRank r ≠ w.hostForRank root → bytes * (w.ranksOn (w.hostForRank r)).length < 2 ^ 31
  toRoot : ∀ r, r ≠ root → w.hostForRank r = w.hostForRank root → (args r).send.Covers (args root).recv
  toLeader : ∀ r, w.hostForRank r ≠ w.hostForRank root → (args r).send.Covers (args (w.localLeader r)).send
  fromLeader : ∀ r, w.hostForRank r ≠ w.hostForRank root → r = w.localLeader r →
    ((args r).send.times (w.ranksOn (w.hostForRank r)).length).Covers
      ((args root).recv.times (w.ranksOn (w.hostForRank r)).length)

structure GatherOk (w : MpiWorld size) (root : Fin size) (args : Fin size → MpiArgs) (bytes : Nat) : Prop extends
    w.GatherCovered root args bytes where
  send : ∀ r, (args r).send.Is bytes
  recv : (args root).recv.Is bytes
  noThrow : ∀ r, ¬sendRecvMismatch (args r).send (args r).recv
  own : ∀ r, bytes ≤ ((args r).buffers.own r bytes).length
  whole : (args root).buffers.recvBuffer.length = size * bytes

section Gather

variable {root : Fin size} {args : Fin size → MpiArgs} {bytes : Nat} {w : MpiWorld size}

def chunks (args : Fin size → MpiArgs) (bytes : Nat) (ranks : List (Fin size)) : List UInt8 :=
  join fun k : Fin ranks.length => (args (ranks.get k)).buffers.contribution (ranks.get k) bytes

def gatherMessage (w : MpiWorld size) (root : Fin size) (args : Fin size → MpiArgs) (bytes : Nat)
    (pair : Fin size × Fin size) : MpiMessage :=
  if pair.1 = w.localLeader pair.1 ∧ w.hostForRank root ≠ w.hostForRank pair.1 then
    mpiMessage pair.1 pair.2 (chunks args bytes (w.ranksOn (w.hostForRank pair.1)))
      ((args pair.1).send.times (w.ranksOn (w.hostForRank pair.1)).length) .gather
  else mpiMessage pair.1 pair.2 ((args pair.1).buffers.own pair.1 bytes) (args pair.1).send .gather

theorem GatherOk.contribution_length (h : w.GatherOk root args bytes) (r : Fin size) :
    ((args r).buffers.contribution r bytes).length = bytes :=
  List.length_take_of_le (h.own r)

theorem GatherOk.chunks_length (h : w.GatherOk root args bytes) (ranks : List (Fin size)) :
    (chunks args bytes ranks).length = ranks.length * bytes :=
  length_join fun _ => h.contribution_length _

theorem gatherMessage_leaf {r j : Fin size} (h : r ≠ w.localLeader r ∨ w.hostForRank root = w.hostForRank r) :
    w.gatherMessage root args bytes (r, j) =
      mpiMessage r j ((args r).buffers.own r bytes) (args r).send .gather := by
  rw [gatherMessage, if_neg]
  rintro ⟨hleader, hhost⟩
  exact h.elim (fun hne => hne hleader) hhost

theorem GatherOk.trace_gatherLocal (h : w.GatherOk root args bytes) {r : Fin size} (hleader : r = w.localLeader r)
    (hhost : w.hostForRank r ≠ w.hostForRank root) :
    (w.gatherLocal r ((args r).buffers.own r bytes) (args r).send).Trace
      (fun i => w.gatherMessage root args bytes (i, r)) (w.localPeers r) []
      (chunks args bytes (w.ranksOn (w.hostForRank r))) := by
  let ranks := w.ranksOn (w.hostForRank r)
  let data (k : Fin ranks.length) := (args (ranks.get k)).buffers.contribution (ranks.get k) bytes
  have hdata (k : Fin ranks.length) : (data k).length = bytes := h.contribution_length _
  have hbody (k : Fin ranks.length) (block : Fin ranks.length → List UInt8) (hblock : ∀ k, (block k).length = bytes) :
      (gatherLocalStep r ((args r).buffers.own r bytes) (args r).send ranks k (join block)).Trace
        (fun i => w.gatherMessage root args bytes (i, r)) (if ranks.get k = r then [] else [ranks.get k]) []
        (join fun k' => if k' = k then data k' else block k') := by
    rw [gatherLocalStep, (h.send r).bytes_eq]
    rw [← writeAt_block hblock k (hdata k)]
    by_cases hself : ranks.get k = r
    · have hown : ((args r).buffers.own r bytes).take bytes = data k := by simp only [data, hself]; rfl
      rw [if_pos hself, if_pos hself, hown]
      exact .done _
    · have hat : w.hostForRank (ranks.get k) = w.hostForRank r := w.mem_ranksOn.mp (List.get_mem ranks k)
      have hleaf : ranks.get k ≠ w.localLeader (ranks.get k) := by
        rw [w.localLeader_congr hat, ← hleader]
        exact hself
      have hcovers := h.toLeader (ranks.get k) (hat ▸ hhost)
      rw [w.localLeader_congr hat, ← hleader] at hcovers
      rw [if_neg hself, if_neg hself]
      apply Process.Trace.recv
      rw [gatherMessage_leaf (Or.inl hleaf), recvAt_mpiMessage (h.send _) (h.send r) hcovers (h.own _)]
      exact .done _
  have hlen : (List.replicate (ranks.length * bytes) (0 : UInt8)).length = ranks.length * bytes :=
    List.length_replicate
  have hloop := trace_fill_all hdata (fun k (_ : k ∈ List.finRange ranks.length) => hbody k)
    (fun k => length_slice hlen k) fun k => Or.inl ⟨k, List.mem_finRange k, rfl⟩
  have hsources : (List.finRange ranks.length).flatMap (fun k => if ranks.get k = r then [] else [ranks.get k]) =
      w.localPeers r := by
    rw [localPeers, ← List.map_id (List.filter _ _), ← flatMap_others]
    conv_rhs => rw [← List.map_get_finRange (w.ranksOn (w.hostForRank r)), List.flatMap_map]
    rfl
  rw [join_slice hlen, hsources, List.flatMap_eq_nil_iff.mpr fun _ _ => rfl] at hloop
  rw [gatherLocal, (h.send r).bytes_eq]
  exact hloop

def gathered (args : Fin size → MpiArgs) (bytes : Nat) : List UInt8 :=
  join fun r => (args r).buffers.contribution r bytes

section Root

variable {block : Fin size → List UInt8}

theorem GatherOk.trace_gatherRank (h : w.GatherOk root args bytes) {r : Fin size}
    (hr : w.hostForRank r = w.hostForRank root) (hblock : ∀ k, (block k).length = bytes) :
    (gatherRank root (args root).buffers (args root).send (args root).recv r (join block)).Trace
      (fun i => w.gatherMessage root args bytes (i, root)) (if r = root then [] else [r]) []
      (join fun k => if k = r ∧ ¬(r = root ∧ (args root).buffers.isInPlace)
        then (args k).buffers.contribution k bytes else block k) := by
  let data (k : Fin size) := (args k).buffers.contribution k bytes
  have hwrite : writeAt (join block) (r * bytes) (data r) = _ :=
    writeAt_block hblock r (h.contribution_length r)
  rw [gatherRank, (h.send root).bytes_eq, h.recv.bytes_eq]
  by_cases hroot : r = root
  · subst hroot
    rw [if_pos rfl, if_pos rfl]
    by_cases hplace : (args r).buffers.isInPlace
    · simpa [hplace] using (.done _ : Process.Trace _ (.done (join fun k => block k)) _ _ _)
    · have hown : (args r).buffers.sendBuffer.take bytes = data r := by
        simp [data, MpiBuffers.contribution, MpiBuffers.own, hplace]
      rw [if_neg hplace, hown, hwrite]
      simpa [hplace] using Process.Trace.done _
  · rw [if_neg hroot, if_neg hroot]
    apply Process.Trace.recv
    rw [gatherMessage_leaf (Or.inr hr.symm),
      recvAt_mpiMessage (h.send r) h.recv (h.toRoot r hroot hr) (h.own r)]
    rw [← MpiBuffers.contribution]
    simp only [hroot, false_and, not_false_eq_true, and_true]
    rw [← hwrite]
    exact .done _

theorem GatherOk.doRecv_leader (h : w.GatherOk root args bytes) {r : Fin size} (hleader : r = w.localLeader r)
    (hhost : w.hostForRank r ≠ w.hostForRank root) :
    let count := (w.ranksOn (w.hostForRank r)).length
    doRecv (w.gatherMessage root args bytes (r, root)) (List.replicate (count * bytes) 0)
      ((args root).recv.times count) = chunks args bytes (w.ranksOn (w.hostForRank r)) := by
  dsimp only
  have hfits := h.fits r hhost
  have hlen := h.chunks_length (w.ranksOn (w.hostForRank r))
  rw [gatherMessage, if_pos ⟨hleader, Ne.symm hhost⟩,
    doRecv_mpiMessage ((h.send r).times hfits) (h.recv.times hfits) (h.fromLeader r hhost hleader)
      (by rw [hlen, Nat.mul_comm]),
    List.take_of_length_le (by rw [hlen, Nat.mul_comm]),
    List.drop_of_length_le (by rw [List.length_replicate, Nat.mul_comm]), List.append_nil]

theorem GatherOk.copy_chunks (h : w.GatherOk root args bytes) (ranks : List (Fin size))
    (hblock : ∀ k, (block k).length = bytes) :
    (List.finRange ranks.length).foldl (fun buffer k => writeAt buffer (ranks.get k * bytes)
        (slice (chunks args bytes ranks) bytes k)) (join block) =
      join fun i => if i ∈ ranks then (args i).buffers.contribution i bytes else block i := by
  let data (i : Fin size) := (args i).buffers.contribution i bytes
  have hslice (k : Fin ranks.length) : slice (chunks args bytes ranks) bytes k = data (ranks.get k) :=
    slice_join (fun k => h.contribution_length (ranks.get k)) k
  simp only [hslice]
  have hfill := @foldl_fill _ size bytes (Fin ranks.length)
    (fun buffer k => writeAt buffer (ranks.get k * bytes) (data (ranks.get k))) (fun k i => i = ranks.get k) _
    data h.contribution_length (List.finRange ranks.length)
    (fun k _ block hblock => writeAt_block hblock (ranks.get k) (h.contribution_length _)) block hblock
  have hmem (i : Fin size) : (∃ k ∈ List.finRange ranks.length, i = ranks.get k) ↔ i ∈ ranks := by
    rw [List.mem_iff_get]
    simp only [List.mem_finRange, true_and, eq_comm]
  simpa only [hmem] using hfill

theorem GatherOk.trace_gatherHost (h : w.GatherOk root args bytes) (host : String)
    (hblock : ∀ k, (block k).length = bytes) :
    (w.gatherHost root (args root).buffers (args root).send (args root).recv (host, w.ranksOn host)
        (join block)).Trace (fun i => w.gatherMessage root args bytes (i, root))
      (if host = w.hostForRank root then (w.ranksOn host).filter (· ≠ root) else (w.ranksOn host).head?.toList) []
      (join fun k => if w.hostForRank k = host ∧ ¬(k = root ∧ (args root).buffers.isInPlace)
        then (args k).buffers.contribution k bytes else block k) := by
  by_cases hhost : host = w.hostForRank root
  · have hloop := trace_fill h.contribution_length (fun r (hr : r ∈ w.ranksOn host) block hblock =>
      h.trace_gatherRank ((w.mem_ranksOn.mp hr).trans hhost) hblock) hblock
    have hsame (k : Fin size) : (∃ r ∈ w.ranksOn host, k = r ∧ ¬(r = root ∧ (args root).buffers.isInPlace)) ↔
        w.hostForRank k = host ∧ ¬(k = root ∧ (args root).buffers.isInPlace) := by
      simp [mem_ranksOn]
    rw [flatMap_others _ _ fun r => r, List.map_id', List.flatMap_eq_nil_iff.mpr fun _ _ => rfl] at hloop
    simp only [hsame] at hloop
    rw [gatherHost.eq_def, if_pos hhost]
    simp only [hhost, if_true] at hloop ⊢
    exact hloop
  · rw [gatherHost.eq_def, if_neg hhost]
    simp only [hhost, if_false]
    cases hranks : w.ranksOn host with
    | nil =>
      have hnone (k : Fin size) : w.hostForRank k ≠ host := by
        rw [Ne, ← w.mem_ranksOn, hranks]
        simp
      simpa [hnone] using (.done _ : Process.Trace _ (.done (join fun k => block k)) _ _ _)
    | cons leader rest =>
      obtain ⟨rfl, hleader⟩ := w.ranksOn_head hranks
      have hdata := h.doRecv_leader hleader.symm hhost
      have hcopy := h.copy_chunks (leader :: rest) hblock
      have hmem (k : Fin size) : k ∈ leader :: rest ↔
          w.hostForRank k = w.hostForRank leader ∧ ¬(k = root ∧ (args root).buffers.isInPlace) := by
        rw [← hranks, w.mem_ranksOn, iff_self_and]
        rintro hk ⟨rfl, -⟩
        exact hhost hk.symm
      simp only [hmem] at hcopy
      rw [hranks] at hdata
      dsimp only at hdata
      apply Process.Trace.recv
      rw [h.recv.bytes_eq, hdata, hcopy]
      exact .done _

end Root

theorem GatherOk.trace_root (h : w.GatherOk root args bytes) :
    (Process.forEach (w.gatherHost root (args root).buffers (args root).send (args root).recv) w.ranksForHost
        (args root).buffers.recvBuffer).Trace (fun i => w.gatherMessage root args bytes (i, root))
      (w.rootPeers root) [] (gathered args bytes) := by
  let fills (entry : String × List (Fin size)) (k : Fin size) : Prop :=
    w.hostForRank k = entry.1 ∧ ¬(k = root ∧ (args root).buffers.isInPlace)
  have hhost (entry : String × List (Fin size)) (hentry : entry ∈ w.ranksForHost) (block : Fin size → List UInt8)
      (hblock : ∀ k, (block k).length = bytes) :
      (w.gatherHost root (args root).buffers (args root).send (args root).recv entry (join block)).Trace
        (fun i => w.gatherMessage root args bytes (i, root))
        (if entry.1 = w.hostForRank root then entry.2.filter (· ≠ root) else entry.2.head?.toList) []
        (join fun k => if fills entry k then (args k).buffers.contribution k bytes else block k) := by
    obtain ⟨host, -, rfl⟩ := List.mem_map.mp hentry
    exact h.trace_gatherHost host hblock
  have hall (k : Fin size) : (∃ entry ∈ w.ranksForHost, fills entry k) ∨
      slice (args root).buffers.recvBuffer bytes k = (args k).buffers.contribution k bytes := by
    by_cases hplace : k = root ∧ (args root).buffers.isInPlace
    · -- the root's own block stands where it belongs
      obtain ⟨rfl, hplace⟩ := hplace
      right
      cases hbuffers : (args k).buffers with
      | inPlace buffer => rfl
      | separate sendBuffer recvBuffer => simp [hbuffers, MpiBuffers.isInPlace] at hplace
    · exact Or.inl ⟨_, List.mem_map_of_mem (w.mem_hosts k), rfl, hplace⟩
  have hloop := trace_fill_all h.contribution_length hhost (fun k => length_slice h.whole k) hall
  rw [join_slice h.whole, List.flatMap_eq_nil_iff.mpr fun _ _ => rfl] at hloop
  exact hloop

def gatherResult (root : Fin size) (args : Fin size → MpiArgs) (bytes : Nat) (r : Fin size) : MpiBuffers :=
  if r = root then (args r).buffers.setRecv (gathered args bytes) else (args r).buffers

theorem GatherOk.completes (h : w.GatherOk root args bytes) :
    Completes (fun r => w.gather r root (args r).buffers (args r).send (args r).recv) (fun _ => [])
      fun r => .ok (gatherResult root args bytes r) := by
  refine w.completes_collect root (w.gatherMessage root args bytes) ?_ (fun r hr hleader hhost => ?_) fun r hr hleaf => ?_
  · rw [gather, if_neg (h.noThrow root), if_pos rfl, gatherResult, if_pos rfl]
    exact h.trace_root.map fun buffer => Except.ok ((args root).buffers.setRecv buffer)
  · let relay (rankData : List UInt8) : RankProcess size (Except String MpiBuffers) :=
      .send root (mpiMessage r root rankData ((args r).send.times (w.ranksOn (w.hostForRank r)).length) .gather)
        (.done (.ok (args r).buffers))
    have hrelay : (relay (chunks args bytes (w.ranksOn (w.hostForRank r)))).Trace
        (fun i => w.gatherMessage root args bytes (i, r)) []
        [(root, w.gatherMessage root args bytes (r, root))] (.ok (args r).buffers) := by
      rw [gatherMessage, if_pos ⟨hleader, hhost⟩]
      exact (Process.Trace.done _).send root _
    have hboth := (h.trace_gatherLocal hleader (Ne.symm hhost)).bind hrelay
    rw [List.append_nil, List.nil_append] at hboth
    rw [gather, if_neg (h.noThrow r), if_neg hr, if_pos ⟨hleader, hhost⟩, (h.send r).bytes_eq, gatherResult,
      if_neg hr]
    exact hboth
  · have hsends : w.gather r root (args r).buffers (args r).send (args r).recv = .send (w.parent root r)
        (mpiMessage r (w.parent root r) ((args r).buffers.own r bytes) (args r).send .gather)
        (.done (.ok (args r).buffers)) := by
      rw [gather, if_neg (h.noThrow r), if_neg hr, (h.send r).bytes_eq, parent]
      by_cases hhost : w.hostForRank root = w.hostForRank r
      · simp only [hhost, not_true_eq_false, and_false, if_false, true_or, if_true, and_true, ite_self]
      · have hleader := hleaf.resolve_left hhost
        simp only [hhost, hleader, false_and, if_false, not_false_eq_true, and_self, if_true, or_self]
    rw [hsends, gatherMessage_leaf hleaf.symm, gatherResult, if_neg hr]
    exact (Process.Trace.done _).send _ _

end Gather

/-! All-gather, all-to-all and barrier. -/

section AllGather

variable [NeZero size] {w : MpiWorld size} {args : Fin size → MpiArgs} {bytes : Nat}

theorem allGather_completes (h : w.GatherOk 0 args bytes) (hrecv : ∀ r, (args r).recv.Is bytes)
    (hwhole : ∀ r, (args r).buffers.recvBuffer.length = size * bytes) (hfits : bytes * size < 2 ^ 31)
    (hcovers : ∀ r, r ≠ 0 → ((args (w.parent 0 r)).recv.times size).Covers ((args r).recv.times size)) :
    Completes (fun r => w.allGather r (args r).buffers (args r).send (args r).recv) (fun _ => [])
      fun r => .ok ((args r).buffers.setRecv (gathered args bytes)) := by
  have hlength : (gathered args bytes).length = bytes * size := by
    rw [Nat.mul_comm]
    exact length_join h.contribution_length
  have hshared := w.completes_share .allGather h.completes (fun r => (hrecv r).times hfits) hlength
    (fun r => Nat.mul_comm size bytes ▸ hwhole r) hcovers
  have hall (r : Fin size) : w.allGather r (args r).buffers (args r).send (args r).recv =
      (w.gather r 0 (args r).buffers (args r).send (args r).recv).bind
        (w.share .allGather ((args r).recv.times size) r) := if_neg (h.noThrow r)
  simpa only [hall] using hshared

end AllGather

section AllToAll

variable {args : Fin size → MpiArgs} {bytes : Nat}

theorem allToAll_completes (hsend : ∀ r, (args r).send.Is bytes) (hrecv : ∀ r, (args r).recv.Is bytes)
    (hmatch : ∀ r, ¬sendRecvMismatch (args r).send (args r).recv)
    (hlen : ∀ r, (args r).buffers.sendBuffer.length = size * bytes)
    (hlen' : ∀ r, (args r).buffers.recvBuffer.length = size * bytes)
    (hcovers : ∀ i j, i ≠ j → (args i).send.Covers (args j).recv) :
    Completes (fun r => allToAll r (args r).buffers.sendBuffer (args r).send (args r).buffers.recvBuffer (args r).recv)
      (fun _ => []) fun r => .ok (join fun i => slice (args i).buffers.sendBuffer bytes r) := by
  let message (pair : Fin size × Fin size) : MpiMessage :=
    mpiMessage pair.1 pair.2 ((args pair.1).buffers.sendBuffer.drop (pair.2 * bytes)) (args pair.1).send .allToAll
  let data (r i : Fin size) := slice (args i).buffers.sendBuffer bytes r
  have hdata (r i : Fin size) : (data r i).length = bytes := length_slice (hlen i) r
  let own (r i : Fin size) := if i = r then data r i else slice (args r).buffers.recvBuffer bytes i
  have hown (r i : Fin size) : (own r i).length = bytes := by
    simp only [own]
    split_ifs
    · exact hdata r i
    · exact length_slice (hlen' r) i
  -- every rank sends, and copies its own block
  have hfirst (r : Fin size) : (Process.forEach (allToAllSend r (args r).buffers.sendBuffer (args r).send)
      (List.finRange size) (args r).buffers.recvBuffer).Trace (fun i => message (i, r)) []
      (((List.finRange size).filter (· ≠ r)).map fun j => (j, message (r, j))) (join (own r)) := by
    have hbody (j : Fin size) (block : Fin size → List UInt8) (hblock : ∀ k, (block k).length = bytes) :
        (allToAllSend r (args r).buffers.sendBuffer (args r).send j (join block)).Trace
          (fun i => message (i, r)) [] (if j = r then [] else [(j, message (r, j))])
          (join fun k => if k = r ∧ j = r then data r k else block k) := by
      rw [allToAllSend, (hsend r).bytes_eq]
      by_cases hj : j = r
      · subst hj
        rw [if_pos rfl, if_pos rfl]
        have hwrite : writeAt (join block) (j * bytes) (data j j) = _ :=
          writeAt_block hblock j (hdata j j)
        simp only [and_true]
        rw [← hwrite]
        exact .done _
      · rw [if_neg hj, if_neg hj]
        simp only [hj, and_false, if_false]
        exact (Process.Trace.done _).send j (message (r, j))
    have hloop := trace_fill (hdata r) (fun j (_ : j ∈ List.finRange size) => hbody j)
      fun k => length_slice (hlen' r) k
    rw [join_slice (hlen' r), flatMap_others, List.flatMap_eq_nil_iff.mpr fun _ _ => rfl] at hloop
    convert hloop using 2
    funext k
    simp [own]
  have hsecond (r : Fin size) : (Process.forEach (allToAllRecv r (args r).send (args r).recv) (List.finRange size)
      (join (own r))).Trace (fun i => message (i, r)) ((List.finRange size).filter (· ≠ r)) []
      (join (data r)) := by
    have hbody (j : Fin size) (block : Fin size → List UInt8) (hblock : ∀ k, (block k).length = bytes) :
        (allToAllRecv r (args r).send (args r).recv j (join block)).Trace (fun i => message (i, r))
          (if j = r then [] else [j]) [] (join fun k => if k = j ∧ j ≠ r then data r k else block k) := by
      rw [allToAllRecv, (hsend r).bytes_eq]
      by_cases hj : j = r
      · simpa [hj] using (.done _ : Process.Trace _ (.done (join fun k => block k)) _ _ _)
      · rw [if_neg hj, if_neg hj]
        have hwrite : writeAt (join block) (j * bytes) (data r j) = _ :=
          writeAt_block hblock j (hdata r j)
        apply Process.Trace.recv
        rw [recvAt_mpiMessage (hsend j) (hrecv r) (hcovers j r hj) (slice_long (hlen j) r)]
        simp only [hj, ne_eq, not_false_eq_true, and_true]
        rw [← hwrite]
        exact .done _
    have hloop := trace_fill_all (hdata r) (fun j (_ : j ∈ List.finRange size) => hbody j) (hown r) fun k => by
      by_cases hk : k = r
      · exact Or.inr (if_pos hk)
      · exact Or.inl ⟨k, List.mem_finRange k, rfl, hk⟩
    rw [flatMap_others _ _ fun r => r, List.map_id', List.flatMap_eq_nil_iff.mpr fun _ _ => rfl] at hloop
    exact hloop
  let receive (r : Fin size) (buffer : List UInt8) : RankProcess size (Except String (List UInt8)) :=
    (Process.forEach (allToAllRecv r (args r).send (args r).recv) (List.finRange size) buffer).bind
      fun buffer => .done (.ok buffer)
  have hreceive (r : Fin size) : (receive r (join (own r))).Trace (fun i => message (i, r))
      ((List.finRange size).filter (· ≠ r)) [] (.ok (join (data r))) := (hsecond r).map Except.ok
  have hexchange := completes_exchange message (fun r => (List.nodup_finRange size).filter (· ≠ r))
    (fun i j => by simp) hfirst hreceive
  simpa only [allToAll, hmatch, if_false] using hexchange

end AllToAll

section Barrier

variable [NeZero size]

theorem noData_is : noData.Is 0 := ⟨by decide, by decide⟩

theorem barrierJoin_completes : Completes (barrierJoin : Fin size → RankProcess size Unit) (fun _ => []) fun _ => () := by
  let message (pair : Fin size × Fin size) : MpiMessage := mpiMessage pair.1 pair.2 [] noData .barrierJoin
  refine (star 0).completes_up message fun r => ?_
  show Process.Trace _ _ (if r = 0 then (List.finRange size).filter (· ≠ 0) else [])
    (if r = 0 then [] else [((0 : Fin size), message (r, 0))]) ()
  rw [barrierJoin]
  by_cases hr : r = 0
  · rw [if_pos hr, if_pos hr, if_pos hr]
    have hbody (j : Fin size) (a : Unit) : (.recv j fun _ => .done () : RankProcess size Unit).Trace
        (fun i => message (i, r)) [j] [] () := .recv (.done ())
    have hloop := Process.Trace.forEach (f := fun _ _ => ())
      (fun j (_ : j ∈ (List.finRange size).filter (· ≠ 0)) => hbody j) ()
    rw [List.flatMap_singleton', List.flatMap_eq_nil_iff.mpr fun _ _ => rfl] at hloop
    exact hloop
  · rw [if_neg hr, if_neg hr, if_neg hr]
    exact (Process.Trace.done ()).send 0 (message (r, 0))

theorem barrier_completes (w : MpiWorld size) : Completes w.barrier (fun _ => []) fun _ => [] := by
  have hcovers (r : Fin size) (_ : r ≠ 0) : noData.Covers noData := by decide
  have hdone := w.broadcast_completes 0 .barrierDone (fun _ => noData_is) (fun _ => List.length_nil) hcovers
  let share (r : Fin size) (_ : Unit) : RankProcess size (List UInt8) := w.broadcast 0 r [] noData .barrierDone
  have hboth : Completes (fun r => (barrierJoin r).bind (share r)) (fun _ => [] ++ []) fun _ => [] :=
    barrierJoin_completes.bind hdone
  exact hboth

end Barrier


end MpiWorld

end Faabric
