import Mathlib
import Faabric.Lib.Blocks
import Faabric.Lib.MapTotal
import Faabric.Lib.Network

/-! MPI worlds: which rank runs on which host, the messages between ranks, and what `send` and `recv` do with
buffers. The ranks' receive calls take their messages from the transport directly: no asynchronous receive is
outstanding. Release builds, without the assertions on message types and counts. -/

namespace Faabric

open Std Network

structure MpiType where
  id : Nat
  size : Nat
  size_pos : 0 < size
  deriving DecidableEq

def mpiInt : MpiType := ⟨4, 4, by decide⟩

def mpiUint64 : MpiType := ⟨10, 8, by decide⟩

def mpiLongLong : MpiType := ⟨12, 8, by decide⟩

def mpiByte : MpiType := ⟨19, 1, by decide⟩

inductive MpiMessageType where
  | normal | barrierJoin | barrierDone | scatter | gather | allGather | reduce | scan | allReduce | allToAll
  | allToAllPacked | sendRecv | broadcast | unackedMpiMessage | handshake
  deriving DecidableEq, Inhabited

def toInt (x : Int) : Int := x.bmod (2 ^ 32)

def intBytes (count : Int) (size : Nat) : Nat := (toInt (count * size) % 2 ^ 64).toNat

def maxArraySize : Nat := 2 ^ 63 - 1

structure MpiExtent where
  dataType : MpiType
  count : Int
  deriving DecidableEq

def MpiExtent.bytes (e : MpiExtent) : Nat := intBytes e.count e.dataType.size

def MpiExtent.times (e : MpiExtent) (ranks : Nat) : MpiExtent := { e with count := toInt (e.count * ranks) }

structure MpiMessage where
  sendRank : Nat
  recvRank : Nat
  typeSize : Nat
  count : Int
  messageType : MpiMessageType
  buffer : Option (List UInt8)
  deriving DecidableEq, Inhabited

def mpiMessage (sendRank recvRank : Nat) (buffer : List UInt8) (e : MpiExtent) (messageType : MpiMessageType) :
    MpiMessage where
  sendRank := sendRank
  recvRank := recvRank
  typeSize := e.dataType.size
  count := e.count
  messageType := messageType
  buffer := if 0 < e.count then some (buffer.take e.bytes) else none

def memcpy (dest source : List UInt8) (bytes : Nat) : List UInt8 := source.take bytes ++ dest.drop bytes

/-- The receiver computes the size of the message with its own datatype. -/
def doRecv (msg : MpiMessage) (buffer : List UInt8) (e : MpiExtent) : List UInt8 :=
  match msg.buffer with
  | none => buffer
  | some data =>
    if 0 < msg.count then memcpy buffer data (min (intBytes msg.count e.dataType.size) e.bytes) else buffer

def recvAt (msg : MpiMessage) (buffer : List UInt8) (offset : Nat) (e : MpiExtent) : List UInt8 :=
  buffer.take offset ++ doRecv msg (buffer.drop offset) e

theorem intBytes_eq {count : Int} {size bytes : Nat} (h : count * size = bytes) (hlt : bytes < 2 ^ 31) :
    intBytes count size = bytes := by
  have hint : toInt (count * size) = bytes := by
    rw [toInt, h]
    exact Int.bmod_eq_of_le (by omega) (by omega)
  rw [intBytes, hint]
  omega

def MpiExtent.Holds (e : MpiExtent) (bytes : Nat) : Prop := e.count * e.dataType.size = bytes

instance MpiExtent.decidableHolds (e : MpiExtent) (bytes : Nat) : Decidable (e.Holds bytes) :=
  inferInstanceAs (Decidable (e.count * e.dataType.size = (bytes : Int)))

structure MpiExtent.Is (e : MpiExtent) (bytes : Nat) : Prop where
  product : e.Holds bytes
  fits : bytes < 2 ^ 31

/-- The message's count and the receiver's datatype give all the bytes that the receiver expects. -/
def MpiExtent.Covers (sent posted : MpiExtent) : Prop := posted.bytes ≤ intBytes sent.count posted.dataType.size

instance (sent posted : MpiExtent) : Decidable (sent.Covers posted) :=
  inferInstanceAs (Decidable (posted.bytes ≤ intBytes sent.count posted.dataType.size))

section Extents

variable {e e' : MpiExtent} {bytes : Nat}

theorem MpiExtent.Is.bytes_eq (h : e.Is bytes) : e.bytes = bytes := intBytes_eq h.product h.fits

theorem MpiExtent.Is.count_le (h : e.Is bytes) : 0 ≤ e.count ∧ e.count ≤ bytes := by
  have hsize : (1 : Int) ≤ e.dataType.size := by exact_mod_cast e.dataType.size_pos
  have hproduct : e.count * e.dataType.size = bytes := h.product
  constructor
  · by_contra hneg
    have hlt : e.count * e.dataType.size < 0 := mul_neg_of_neg_of_pos (by omega) (by omega)
    omega
  · by_cases hpos : 0 ≤ e.count
    · nlinarith
    · omega

theorem MpiExtent.Is.count_eq_zero (h : e.Is 0) : e.count = 0 := by
  have hle := h.count_le
  omega

theorem MpiExtent.Is.count_pos (h : e.Is bytes) (hpos : 0 < bytes) : 0 < e.count := by
  have hle := h.count_le
  have hne : e.count ≠ 0 := by
    intro hzero
    have hproduct : e.count * e.dataType.size = bytes := h.product
    rw [hzero, zero_mul] at hproduct
    omega
  omega

theorem MpiExtent.Is.times {ranks : Nat} (h : e.Is bytes) (hfits : bytes * ranks < 2 ^ 31) :
    (e.times ranks).Is (bytes * ranks) := by
  have hle := h.count_le
  have hproduct : e.count * ranks * e.dataType.size = (bytes * ranks : Nat) := by
    have hholds : e.count * e.dataType.size = bytes := h.product
    rw [mul_right_comm, hholds]
    norm_cast
  have hbound : e.count * ranks ≤ (bytes * ranks : Nat) := by
    push_cast
    exact Int.mul_le_mul_of_nonneg_right hle.2 (by omega)
  have hnonneg : 0 ≤ e.count * ranks := Int.mul_nonneg hle.1 (by omega)
  have hint : toInt (e.count * ranks) = e.count * ranks := Int.bmod_eq_of_le (by omega) (by omega)
  exact ⟨by simpa [MpiExtent.Holds, MpiExtent.times, hint] using hproduct, hfits⟩

theorem doRecv_mpiMessage {i j : Nat} {data buffer : List UInt8} {t : MpiMessageType} (hsent : e.Is bytes)
    (hposted : e'.Is bytes) (hcovers : e.Covers e') (hdata : bytes ≤ data.length) :
    doRecv (mpiMessage i j data e t) buffer e' = data.take bytes ++ buffer.drop bytes := by
  rcases Nat.eq_zero_or_pos bytes with hzero | hpos
  · subst hzero
    simp [doRecv, mpiMessage, hsent.count_eq_zero]
  · have hcount := hsent.count_pos hpos
    rw [MpiExtent.Covers, hposted.bytes_eq] at hcovers
    simp [doRecv, mpiMessage, hcount, memcpy, hsent.bytes_eq, hposted.bytes_eq, hcovers]

theorem recvAt_mpiMessage {i j offset : Nat} {data buffer : List UInt8} {t : MpiMessageType} (hsent : e.Is bytes)
    (hposted : e'.Is bytes) (hcovers : e.Covers e') (hdata : bytes ≤ data.length) :
    recvAt (mpiMessage i j data e t) buffer offset e' = Blocks.writeAt buffer offset (data.take bytes) := by
  have hlen : (data.take bytes).length = bytes := List.length_take_of_le hdata
  rw [recvAt, doRecv_mpiMessage hsent hposted hcovers hdata, Blocks.writeAt, hlen, List.drop_drop, List.append_assoc]

end Extents

/-! The placement of the ranks. -/

structure MpiWorld (size : Nat) where
  hostForRank : Fin size → String

namespace MpiWorld

variable {size : Nat} (w : MpiWorld size)

def hosts : List String := (ExtTreeSet.ofList ((List.finRange size).map w.hostForRank) compare).toList

def ranksOn (host : String) : List (Fin size) := (List.finRange size).filter (w.hostForRank · = host)

def ranksForHost : List (String × List (Fin size)) := w.hosts.map fun host => (host, w.ranksOn host)

def localLeader (rank : Fin size) : Fin size := (w.ranksOn (w.hostForRank rank)).headD rank

theorem mem_ranksOn {host : String} {rank : Fin size} : rank ∈ w.ranksOn host ↔ w.hostForRank rank = host := by
  simp [ranksOn]

theorem ranksOn_nodup (host : String) : (w.ranksOn host).Nodup := (List.nodup_finRange size).filter _

theorem mem_hosts (rank : Fin size) : w.hostForRank rank ∈ w.hosts := by simp [hosts]

theorem hosts_nodup : w.hosts.Nodup := MapTotal.setToList_nodup _

theorem ranksOn_head {host : String} {leader : Fin size} {rest : List (Fin size)}
    (h : w.ranksOn host = leader :: rest) : w.hostForRank leader = host ∧ w.localLeader leader = leader := by
  have hhost : w.hostForRank leader = host := w.mem_ranksOn.mp (by simp [h])
  exact ⟨hhost, by simp [localLeader, hhost, h]⟩

theorem ranksOn_cons (rank : Fin size) :
    ∃ rest, w.ranksOn (w.hostForRank rank) = w.localLeader rank :: rest := by
  have hmem := w.mem_ranksOn.mpr (rfl : w.hostForRank rank = w.hostForRank rank)
  cases h : w.ranksOn (w.hostForRank rank) with
  | nil => simp [h] at hmem
  | cons leader rest => exact ⟨rest, by simp [localLeader, h]⟩

@[simp] theorem hostForRank_localLeader (rank : Fin size) :
    w.hostForRank (w.localLeader rank) = w.hostForRank rank := by
  obtain ⟨rest, h⟩ := w.ranksOn_cons rank
  exact (w.ranksOn_head h).1

@[simp] theorem localLeader_localLeader (rank : Fin size) :
    w.localLeader (w.localLeader rank) = w.localLeader rank := by
  obtain ⟨rest, h⟩ := w.ranksOn_cons rank
  exact (w.ranksOn_head h).2

theorem localLeader_congr {i j : Fin size} (h : w.hostForRank i = w.hostForRank j) :
    w.localLeader i = w.localLeader j := by
  obtain ⟨rest, hj⟩ := w.ranksOn_cons j
  rw [localLeader, h, hj, List.headD_cons]

/-! The collectives send data along a tree of depth two: the root talks to the ranks of its own host and to the
leaders of the others, the leaders talk to the ranks of their hosts. -/

def localPeers (rank : Fin size) : List (Fin size) := (w.ranksOn (w.hostForRank rank)).filter (· ≠ rank)

def rootPeers (root : Fin size) : List (Fin size) :=
  w.ranksForHost.flatMap fun (host, ranks) =>
    if host = w.hostForRank root then ranks.filter (· ≠ root) else ranks.head?.toList

def children (root rank : Fin size) : List (Fin size) :=
  if rank = root then w.rootPeers root
  else if rank = w.localLeader rank ∧ w.hostForRank root ≠ w.hostForRank rank then w.localPeers rank
  else []

def parent (root rank : Fin size) : Fin size :=
  if w.hostForRank root = w.hostForRank rank ∨ rank = w.localLeader rank then root else w.localLeader rank

def depth (root rank : Fin size) : Nat := if rank = root then 0 else if rank = w.localLeader rank then 1 else 2

theorem mem_localPeers {i j : Fin size} : j ∈ w.localPeers i ↔ w.hostForRank j = w.hostForRank i ∧ j ≠ i := by
  simp [localPeers, mem_ranksOn]

theorem localPeers_nodup (rank : Fin size) : (w.localPeers rank).Nodup := (w.ranksOn_nodup _).filter _

theorem mem_rootPeers {root j : Fin size} :
    j ∈ w.rootPeers root ↔ j ≠ root ∧ (w.hostForRank root = w.hostForRank j ∨ j = w.localLeader j) := by
  simp only [rootPeers, ranksForHost, List.flatMap_map, List.mem_flatMap]
  constructor
  · rintro ⟨host, -, hmem⟩
    split_ifs at hmem with hhost
    · simp only [List.mem_filter, mem_ranksOn, decide_eq_true_eq] at hmem
      exact ⟨hmem.2, Or.inl (hhost.symm.trans hmem.1.symm)⟩
    · cases hranks : w.ranksOn host with
      | nil => simp [hranks] at hmem
      | cons leader rest =>
        obtain ⟨hat, hleader⟩ := w.ranksOn_head hranks
        obtain rfl : j = leader := by simpa [hranks] using hmem
        refine ⟨?_, Or.inr hleader.symm⟩
        rintro rfl
        exact hhost hat.symm
  · rintro ⟨hne, hlocal⟩
    refine ⟨w.hostForRank j, w.mem_hosts j, ?_⟩
    by_cases hhost : w.hostForRank j = w.hostForRank root
    · rw [if_pos hhost]
      simp [mem_ranksOn, hne]
    · rw [if_neg hhost]
      obtain ⟨rest, hranks⟩ := w.ranksOn_cons j
      have hleader : j = w.localLeader j := hlocal.resolve_left (Ne.symm hhost)
      simpa [hranks] using hleader

theorem mem_children {root i j : Fin size} : j ∈ w.children root i ↔ j ≠ root ∧ i = w.parent root j := by
  unfold children parent
  by_cases hi : i = root
  · subst hi
    rw [if_pos rfl, mem_rootPeers]
    refine and_congr_right fun hne => ?_
    split_ifs with hlocal
    · simp [hlocal]
    · -- the root is not the leader of a rank on another host
      simp only [hlocal, false_iff]
      rintro rfl
      simp at hlocal
  · rw [if_neg hi]
    constructor
    · intro hmem
      split_ifs at hmem with hleader
      · obtain ⟨hhost, hne⟩ := w.mem_localPeers.mp hmem
        have hsame := w.localLeader_congr hhost
        have hj : ¬(w.hostForRank root = w.hostForRank j ∨ j = w.localLeader j) := by
          rintro (hroot | hself)
          · exact hleader.2 (hroot.trans hhost)
          · exact hne (hself.trans (hsame.trans hleader.1.symm))
        rw [if_neg hj, hsame]
        refine ⟨?_, hleader.1⟩
        rintro rfl
        exact hleader.2 hhost
      · simp at hmem
    · rintro ⟨hne, hparent⟩
      split_ifs at hparent with hlocal
      · exact absurd hparent hi
      · rw [not_or] at hlocal
        have hhost : w.hostForRank i = w.hostForRank j := by rw [hparent, hostForRank_localLeader]
        have hleader : i = w.localLeader i := by rw [hparent, localLeader_localLeader]
        rw [if_pos ⟨hleader, fun h => hlocal.1 (h.trans hhost)⟩, mem_localPeers]
        exact ⟨hhost.symm, fun h => hlocal.2 (h.trans hparent)⟩

theorem rootPeers_nodup (root : Fin size) : (w.rootPeers root).Nodup := by
  simp only [rootPeers, ranksForHost, List.flatMap_map]
  -- the ranks of different hosts are different
  have hat (host : String) (j : Fin size) (hj : j ∈ (if host = w.hostForRank root then
      (w.ranksOn host).filter (· ≠ root) else (w.ranksOn host).head?.toList)) : w.hostForRank j = host := by
    apply w.mem_ranksOn.mp
    split_ifs at hj
    · exact (List.mem_filter.mp hj).1
    · exact List.mem_of_mem_head? (by simpa using hj)
  refine List.nodup_flatMap.mpr ⟨fun host _ => ?_, ?_⟩
  · split_ifs
    · exact (w.ranksOn_nodup host).filter _
    · cases (w.ranksOn host).head? <;> simp
  · refine w.hosts_nodup.imp ?_
    intro a b hab j hja hjb
    exact hab ((hat a j hja).symm.trans (hat b j hjb))

theorem children_nodup (root rank : Fin size) : (w.children root rank).Nodup := by
  unfold children
  split_ifs
  · exact w.rootPeers_nodup root
  · exact w.localPeers_nodup rank
  · exact List.nodup_nil

theorem depth_parent {root rank : Fin size} (h : rank ≠ root) : w.depth root (w.parent root rank) < w.depth root rank := by
  unfold parent depth
  by_cases hlocal : w.hostForRank root = w.hostForRank rank ∨ rank = w.localLeader rank
  · rw [if_pos hlocal, if_pos rfl, if_neg h]
    split_ifs <;> omega
  · rw [if_neg hlocal, if_neg h, if_neg fun hself => hlocal (Or.inr hself)]
    simp only [localLeader_localLeader, if_true]
    split_ifs <;> omega

def tree (root : Fin size) : Tree root where
  parent := w.parent root
  children := w.children root
  depth := w.depth root
  mem_children _ _ := w.mem_children
  nodup := w.children_nodup root
  depth_parent _ := w.depth_parent

def star (root : Fin size) : Tree root :=
  Tree.star root ((List.finRange size).filter (· ≠ root)) ((List.nodup_finRange size).filter _) (by simp)

end MpiWorld

end Faabric
