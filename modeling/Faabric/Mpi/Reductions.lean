import Mathlib
import Faabric.Lib.Bytes
import Faabric.Lib.Combine
import Faabric.Mpi.DataMovement

/-! Reductions: the ranks of a host are combined by its leader, and the leaders' results by the root. -/

namespace Faabric

open Network

inductive MpiOp where
  | max | min | sum | prod | land | lor | band | bor | maxloc | minloc | null
  deriving DecidableEq

inductive MpiNumber where
  | int | uint64 | double | longLong
  deriving DecidableEq

namespace MpiNumber

def size : MpiNumber → Nat
  | int => 4
  | _ => 8

abbrev Word (number : MpiNumber) : Type := BitVec (8 * number.size)

def dataType : MpiNumber → MpiType
  | int => mpiInt
  | uint64 => mpiUint64
  | double => ⟨15, 8, mpiUint64.size_pos⟩
  | longLong => mpiLongLong

def ofType (t : MpiType) : Option MpiNumber :=
  if t.id = 4 then some int
  else if t.id = 10 then some uint64
  else if t.id = 15 then some double
  else if t.id = 12 then some longLong
  else none

def less (number : MpiNumber) (a b : number.Word) : Bool :=
  match number with
  | int => BitVec.slt a b
  | uint64 => BitVec.ult a b
  | double => Float.ofBits (UInt64.ofBitVec a) < Float.ofBits (UInt64.ofBitVec b)
  | longLong => BitVec.slt a b

def add (number : MpiNumber) (a b : number.Word) : number.Word :=
  match number with
  | double => (Float.ofBits (UInt64.ofBitVec a) + Float.ofBits (UInt64.ofBitVec b)).toBits.toBitVec
  | int => a + b
  | uint64 => a + b
  | longLong => a + b

def max (number : MpiNumber) (a b : number.Word) : number.Word := if number.less a b then b else a

def min (number : MpiNumber) (a b : number.Word) : number.Word := if number.less b a then b else a

def word (number : MpiNumber) (buffer : List UInt8) (slot : Nat) : number.Word :=
  BitVec.ofNat _ (Bytes.ofLe (Blocks.slice buffer number.size slot))

def bytes (number : MpiNumber) (x : number.Word) : List UInt8 := Bytes.le number.size x.toNat

def combineSlots (number : MpiNumber) (f : number.Word → number.Word → number.Word) (count : Nat)
    (inBuffer outBuffer : List UInt8) : List UInt8 :=
  (List.finRange count).foldl (fun out (slot : Fin count) =>
    Blocks.writeAt out (slot * number.size) (number.bytes (f (number.word out slot) (number.word inBuffer slot))))
    outBuffer

end MpiNumber

def unsupportedType (operation : String) : String := "Unsupported type for " ++ operation ++ " reduction"

def opReduce (op : MpiOp) (e : MpiExtent) (inBuffer outBuffer : List UInt8) : Except String (List UInt8) :=
  match op with
  | .max =>
    match MpiNumber.ofType e.dataType with
    | some number => .ok (number.combineSlots number.max e.count.toNat inBuffer outBuffer)
    | none => .error (unsupportedType "max")
  | .min =>
    match MpiNumber.ofType e.dataType with
    | some number => .ok (number.combineSlots number.min e.count.toNat inBuffer outBuffer)
    | none => .error (unsupportedType "min")
  | .sum =>
    match MpiNumber.ofType e.dataType with
    | some number => .ok (number.combineSlots number.add e.count.toNat inBuffer outBuffer)
    | none => .error (unsupportedType "sum")
  | _ => .error "Not yet implemented reduce operation"

namespace MpiWorld

variable {size : Nat} (w : MpiWorld size)

def reduceStep (e : MpiExtent) (op : MpiOp) (r : Fin size) :
    Except String (List UInt8) → RankProcess size (Except String (List UInt8))
  | .error message => .done (.error message)
  | .ok buffer =>
    .recv r fun msg => .done (opReduce op e (doRecv msg (List.replicate e.bytes 0) e) buffer)

def reduce (sendRank recvRank : Fin size) (buffers : MpiBuffers) (e : MpiExtent) (op : MpiOp) :
    RankProcess size (Except String MpiBuffers) :=
  let isLocal := w.hostForRank recvRank = w.hostForRank sendRank
  if maxArraySize < e.bytes then .done (.error "std::bad_array_new_length")
  else if sendRank = recvRank then
    let own := if buffers.isInPlace then buffers.recvBuffer else memcpy buffers.recvBuffer buffers.sendBuffer e.bytes
    (Process.forEach (reduceStep e op) (w.rootPeers recvRank) (.ok own)).bind
      fun result => .done (result.map buffers.setRecv)
  else if sendRank = w.localLeader sendRank then
    if ¬isLocal then
      -- in a copy, since the send buffer must not change
      (Process.forEach (reduceStep e op) (w.localPeers sendRank) (.ok (buffers.sendBuffer.take e.bytes))).bind fun
        | .error message => .done (.error message)
        | .ok copy => .send recvRank (mpiMessage sendRank recvRank copy e .reduce) (.done (.ok buffers))
    else .send recvRank (mpiMessage sendRank recvRank buffers.sendBuffer e .reduce) (.done (.ok buffers))
  else
    let realRecvRank := if isLocal then recvRank else w.localLeader sendRank
    .send realRecvRank (mpiMessage sendRank realRecvRank buffers.sendBuffer e .reduce) (.done (.ok buffers))

def allReduce [NeZero size] (rank : Fin size) (buffers : MpiBuffers) (e : MpiExtent) (op : MpiOp) :
    RankProcess size (Except String MpiBuffers) :=
  (w.reduce rank 0 buffers e op).bind fun
    | .error message => .done (.error message)
    | .ok buffers =>
      (w.broadcast 0 rank buffers.recvBuffer e .allReduce).bind fun buffer => .done (.ok (buffers.setRecv buffer))

end MpiWorld

/-! Buffers of numbers. -/

namespace MpiNumber

variable (number : MpiNumber) {count : Nat}

def encode (x : Fin count → number.Word) : List UInt8 := Blocks.join fun slot => number.bytes (x slot)

def apply : MpiOp → number.Word → number.Word → number.Word
  | .max => number.max
  | .min => number.min
  | _ => number.add

@[simp] theorem length_bytes (x : number.Word) : (number.bytes x).length = number.size := Bytes.length_le _ _

theorem length_encode (x : Fin count → number.Word) : (number.encode x).length = count * number.size :=
  Blocks.length_join fun _ => number.length_bytes _

theorem ofLe_bytes (x : number.Word) : BitVec.ofNat _ (Bytes.ofLe (number.bytes x)) = x := by
  have hlt : x.toNat < 256 ^ number.size := by
    have h := x.isLt
    rwa [Nat.pow_mul] at h
  rw [bytes, Bytes.ofLe_le hlt]
  simp

@[simp] theorem word_encode (x : Fin count → number.Word) (slot : Fin count) :
    number.word (number.encode x) slot = x slot := by
  rw [word, encode, Blocks.slice_join fun _ => number.length_bytes _, ofLe_bytes]

theorem encode_word {buffer : List UInt8} (h : buffer.length = count * number.size) :
    number.encode (fun slot : Fin count => number.word buffer slot) = buffer := by
  have hbytes (slot : Fin count) : number.bytes (number.word buffer slot) = Blocks.slice buffer number.size slot := by
    have hlen := Blocks.length_slice h slot
    have hlt := Bytes.ofLe_lt (Blocks.slice buffer number.size slot)
    rw [hlen] at hlt
    have hpow : (256 : Nat) ^ number.size = 2 ^ (8 * number.size) := by rw [Nat.pow_mul]
    rw [bytes, word, BitVec.toNat_ofNat, Nat.mod_eq_of_lt (hpow ▸ hlt)]
    have hle := Bytes.le_ofLe (Blocks.slice buffer number.size slot)
    rwa [hlen] at hle
  simp only [encode, hbytes]
  exact Blocks.join_slice h

theorem combineSlots_encode (f : number.Word → number.Word → number.Word) (x y : Fin count → number.Word) :
    number.combineSlots f count (number.encode x) (number.encode y) = number.encode fun slot => f (y slot) (x slot) := by
  let change (slot : Fin count) (old : List UInt8) : List UInt8 :=
    number.bytes (f (BitVec.ofNat _ (Bytes.ofLe old)) (number.word (number.encode x) slot))
  have hloop := Blocks.foldl_change (g := change) (fun slot old _ => number.length_bytes _) (List.nodup_finRange count)
    fun slot => number.length_bytes (y slot)
  have hall : (fun slot => if slot ∈ List.finRange count then change slot (number.bytes (y slot))
      else number.bytes (y slot)) = fun slot => number.bytes (f (y slot) (x slot)) := by
    funext slot
    simp [change, ofLe_bytes]
  rw [hall] at hloop
  exact hloop

@[simp] theorem ofType_dataType : ofType number.dataType = some number := by
  cases number <;> rfl

@[simp] theorem dataType_size : number.dataType.size = number.size := by
  cases number <;> rfl

end MpiNumber

def MpiOp.Implemented (op : MpiOp) : Prop := op = .sum ∨ op = .max ∨ op = .min

theorem opReduce_encode {op : MpiOp} (hop : op.Implemented) (number : MpiNumber) {count : Nat}
    (x y : Fin count → number.Word) :
    opReduce op ⟨number.dataType, count⟩ (number.encode x) (number.encode y) =
      .ok (number.encode fun slot => number.apply op (y slot) (x slot)) := by
  rcases hop with rfl | rfl | rfl <;>
    simp [opReduce, MpiNumber.combineSlots_encode, MpiNumber.apply]

/-! The result of a reduction. -/

namespace MpiWorld

section Values

variable {size : Nat} (w : MpiWorld size) {M : Type} (op : M → M → M) (x : Fin size → M)

def IsRemoteLeader (root r : Fin size) : Prop := r = w.localLeader r ∧ w.hostForRank root ≠ w.hostForRank r

instance (root r : Fin size) : Decidable (w.IsRemoteLeader root r) := inferInstanceAs (Decidable (_ ∧ _))

def reduced (root r : Fin size) : M :=
  if w.IsRemoteLeader root r then (w.localPeers r).foldl (fun a i => op a (x i)) (x r) else x r

def represented (root r : Fin size) : Finset (Fin size) :=
  Finset.univ.filter fun i => i = r ∨ w.IsRemoteLeader root r ∧ w.hostForRank i = w.hostForRank r

theorem mem_represented {root r i : Fin size} :
    i ∈ w.represented root r ↔ i = r ∨ w.IsRemoteLeader root r ∧ w.hostForRank i = w.hostForRank r := by
  simp [represented]

theorem reduced_combines (root r : Fin size) :
    Combine.Combines op x (w.represented root r) (w.reduced op x root r) := by
  unfold reduced
  split_ifs with hleader
  · have hloop := (Combine.Combines.single r : Combine.Combines op x {r} (x r)).foldl (w.localPeers_nodup r)
      (fun i _ => Combine.Combines.single i) (fun i _ j _ hne => by simpa using hne)
      (fun i hi => by simpa using Ne.symm (w.mem_localPeers.mp hi).2)
    have hset : w.represented root r = {r} ∪ (w.localPeers r).toFinset.biUnion fun i => {i} := by
      ext i
      simp only [mem_represented, hleader, true_and, Finset.mem_union, Finset.mem_singleton, Finset.mem_biUnion,
        List.mem_toFinset, mem_localPeers]
      by_cases hi : i = r
      · simp [hi]
      · simp [hi]
    rw [hset]
    exact hloop
  · have hself : w.represented root r = {r} := by
      ext i
      simp [mem_represented, hleader]
    rw [hself]
    exact Combine.Combines.single r

theorem represented_disjoint {root i j : Fin size} (hi : i ∈ w.rootPeers root) (hj : j ∈ w.rootPeers root)
    (hne : i ≠ j) : Disjoint (w.represented root i) (w.represented root j) := by
  rw [Finset.disjoint_left]
  intro r hri hrj
  rw [mem_represented] at hri hrj
  rw [mem_rootPeers] at hi hj
  -- the only peer of the root on another host is that host's leader
  have hlead {k : Fin size} (hk : w.hostForRank root = w.hostForRank k ∨ k = w.localLeader k)
      {l : Fin size} (hl : w.IsRemoteLeader root l) (hsame : w.hostForRank k = w.hostForRank l) : k = l := by
    have hleader : k = w.localLeader k := hk.resolve_left fun h => hl.2 (h.trans hsame)
    rw [hleader, w.localLeader_congr hsame, ← hl.1]
  rcases hri with rfl | ⟨hli, hhi⟩
  · rcases hrj with rfl | ⟨hlj, hhj⟩
    · exact hne rfl
    · exact hne (hlead hi.2 hlj hhj)
  · rcases hrj with rfl | ⟨hlj, hhj⟩
    · exact hne (hlead hj.2 hli hhi).symm
    · exact hne (hlead hi.2 hlj (hhi.symm.trans hhj))

theorem represented_covers (root r : Fin size) :
    r ∈ {root} ∪ (w.rootPeers root).toFinset.biUnion (w.represented root) := by
  rw [Finset.mem_union, Finset.mem_singleton, Finset.mem_biUnion]
  by_cases hroot : r = root
  · exact Or.inl hroot
  · right
    by_cases hhost : w.hostForRank root = w.hostForRank r
    · refine ⟨r, ?_, w.mem_represented.mpr (Or.inl rfl)⟩
      rw [List.mem_toFinset, mem_rootPeers]
      exact ⟨hroot, Or.inl hhost⟩
    · refine ⟨w.localLeader r, ?_, w.mem_represented.mpr (Or.inr ⟨⟨by simp, by simpa using hhost⟩, by simp⟩)⟩
      rw [List.mem_toFinset, mem_rootPeers]
      refine ⟨fun heq => hhost ?_, Or.inr (by simp)⟩
      rw [← heq, hostForRank_localLeader]

def reducedAtRoot (root : Fin size) : M :=
  (w.rootPeers root).foldl (fun a i => op a (w.reduced op x root i)) (x root)

theorem reducedAtRoot_combines (root : Fin size) :
    Combine.Combines op x Finset.univ (w.reducedAtRoot op x root) := by
  have hloop := (Combine.Combines.single root : Combine.Combines op x {root} (x root)).foldl
    (w.rootPeers_nodup root) (fun i _ => w.reduced_combines op x root i)
    (fun i hi j hj hne => w.represented_disjoint hi hj hne) (fun i hi => by
      rw [Finset.disjoint_singleton_left, mem_represented]
      rintro (rfl | ⟨hleader, hhost⟩)
      · exact (w.mem_rootPeers.mp hi).1 rfl
      · exact hleader.2 hhost)
  have hall : {root} ∪ (w.rootPeers root).toFinset.biUnion (w.represented root) = Finset.univ := by
    rw [Finset.eq_univ_iff_forall]
    exact w.represented_covers root
  rw [hall] at hloop
  exact hloop

end Values

section Reduce

variable {size : Nat} {w : MpiWorld size} {root : Fin size} {number : MpiNumber} {count : Nat} {op : MpiOp}
  {buffers : Fin size → MpiBuffers}

def applyAll (number : MpiNumber) (op : MpiOp) (x y : Fin count → number.Word) (slot : Fin count) : number.Word :=
  number.apply op (x slot) (y slot)

def words (number : MpiNumber) (count : Nat) (buffers : Fin size → MpiBuffers) (r : Fin size) :
    Fin count → number.Word :=
  fun slot => number.word (buffers r).sendBuffer slot

def numbers (number : MpiNumber) (count : Nat) : MpiExtent := ⟨number.dataType, count⟩

theorem numbers_is (hfits : count * number.size < 2 ^ 31) : (numbers number count).Is (count * number.size) :=
  ⟨by simp [MpiExtent.Holds, numbers], hfits⟩

theorem covers_self (e : MpiExtent) : e.Covers e := le_refl _

theorem doRecv_numbers (hfits : count * number.size < 2 ^ 31) (x : Fin count → number.Word) (i j : Nat)
    (t : MpiMessageType) {buffer : List UInt8} (hbuffer : buffer.length = count * number.size) :
    doRecv (mpiMessage i j (number.encode x) (numbers number count) t) buffer (numbers number count) =
      number.encode x := by
  have hlen := number.length_encode x
  rw [doRecv_mpiMessage (numbers_is hfits) (numbers_is hfits) (covers_self _) hlen.ge,
    List.take_of_length_le hlen.le, List.drop_of_length_le hbuffer.le, List.append_nil]

theorem trace_reduceStep (hop : op.Implemented) (hfits : count * number.size < 2 ^ 31)
    {given : Fin size → MpiMessage} {value : Fin size → Fin count → number.Word} {r : Fin size} {l : List (Fin size)}
    (hgiven : ∀ i ∈ l, given i = mpiMessage i r (number.encode (value i)) (numbers number count) .reduce)
    (a : Fin count → number.Word) :
    (Process.forEach (reduceStep (numbers number count) op) l (.ok (number.encode a))).Trace given l []
      (.ok (number.encode (l.foldl (fun a i => applyAll number op a (value i)) a))) := by
  induction l generalizing a with
  | nil => exact .done _
  | cons i l ih =>
    have hbytes := (numbers_is hfits).bytes_eq
    have hdata : doRecv (given i) (List.replicate (numbers number count).bytes 0) (numbers number count) =
        number.encode (value i) := by
      rw [hgiven i List.mem_cons_self]
      exact doRecv_numbers hfits _ _ _ _ (by rw [List.length_replicate, hbytes])
    have hstep : opReduce op (numbers number count) (number.encode (value i)) (number.encode a) =
        .ok (number.encode (applyAll number op a (value i))) := opReduce_encode hop number _ _
    apply Process.Trace.recv
    dsimp only
    rw [hdata, hstep, Process.done_bind]
    exact ih (fun j hj => hgiven j (List.mem_cons_of_mem i hj)) _

def reduceMessage (w : MpiWorld size) (root : Fin size) (number : MpiNumber) (count : Nat) (op : MpiOp)
    (buffers : Fin size → MpiBuffers) (pair : Fin size × Fin size) : MpiMessage :=
  mpiMessage pair.1 pair.2
    (number.encode (w.reduced (applyAll number op) (words number count buffers) root pair.1))
    (numbers number count) .reduce

def reduceResult (w : MpiWorld size) (root : Fin size) (number : MpiNumber) (count : Nat) (op : MpiOp)
    (buffers : Fin size → MpiBuffers) (r : Fin size) : MpiBuffers :=
  if r = root then
    (buffers r).setRecv (number.encode (w.reducedAtRoot (applyAll number op) (words number count buffers) root))
  else buffers r

theorem reduce_completes (hop : op.Implemented) (hfits : count * number.size < 2 ^ 31)
    (hsend : ∀ r, (buffers r).sendBuffer.length = count * number.size)
    (hrecv : (buffers root).recvBuffer.length = count * number.size) :
    Completes (fun r => w.reduce r root (buffers r) (numbers number count) op) (fun _ => [])
      fun r => .ok (reduceResult w root number count op buffers r) := by
  let x := words number count buffers
  have hbytes := (numbers_is hfits).bytes_eq
  have hencode (r : Fin size) : number.encode (x r) = (buffers r).sendBuffer := number.encode_word (hsend r)
  have hsmall : ¬maxArraySize < (numbers number count).bytes := by
    rw [hbytes, maxArraySize]
    omega
  refine w.completes_collect root (w.reduceMessage root number count op buffers) ?_ (fun r hr hleader hhost => ?_)
    fun r hr hleaf => ?_
  · have hown : (if (buffers root).isInPlace then (buffers root).recvBuffer
        else memcpy (buffers root).recvBuffer (buffers root).sendBuffer (numbers number count).bytes) =
        number.encode (x root) := by
      rw [hencode, hbytes]
      cases hb : buffers root with
      | inPlace buffer => rfl
      | separate sendBuffer recvBuffer =>
        have hs := hsend root
        rw [hb] at hs hrecv
        rw [if_neg (by simp [MpiBuffers.isInPlace]), memcpy, List.take_of_length_le hs.le,
          List.drop_of_length_le hrecv.le, List.append_nil]
    rw [reduce, if_neg hsmall, if_pos rfl, reduceResult, if_pos rfl, hown]
    exact (trace_reduceStep hop hfits (fun i _ => rfl) (x root)).map fun result => result.map (buffers root).setRecv
  · -- the ranks of the leader's host send what they have
    have hpeers (i : Fin size) (hi : i ∈ w.localPeers r) : w.reduceMessage root number count op buffers (i, r) =
        mpiMessage i r (number.encode (x i)) (numbers number count) .reduce := by
      obtain ⟨hat, hne⟩ := w.mem_localPeers.mp hi
      have hnot : ¬w.IsRemoteLeader root i := by
        rintro ⟨hself, -⟩
        rw [w.localLeader_congr hat, ← hleader] at hself
        exact hne hself
      rw [reduceMessage, reduced, if_neg hnot]
    let relay : Except String (List UInt8) → RankProcess size (Except String MpiBuffers)
      | .error message => .done (.error message)
      | .ok copy => .send root (mpiMessage r root copy (numbers number count) .reduce) (.done (.ok (buffers r)))
    have hrelay : (relay (.ok (number.encode ((w.localPeers r).foldl (fun a i => applyAll number op a (x i))
        (x r))))).Trace (fun i => w.reduceMessage root number count op buffers (i, r)) []
        [(root, w.reduceMessage root number count op buffers (r, root))] (.ok (buffers r)) := by
      rw [reduceMessage, reduced, if_pos ⟨hleader, hhost⟩]
      exact (Process.Trace.done _).send root _
    have hboth := (trace_reduceStep hop hfits hpeers (x r)).bind hrelay
    rw [List.append_nil, List.nil_append] at hboth
    rw [reduce, if_neg hsmall, if_neg hr, if_pos hleader, if_pos hhost, ← hencode r, hbytes,
      List.take_of_length_le (number.length_encode _).le, reduceResult, if_neg hr]
    exact hboth
  · have hsends : w.reduce r root (buffers r) (numbers number count) op = .send (w.parent root r)
        (mpiMessage r (w.parent root r) (buffers r).sendBuffer (numbers number count) .reduce)
        (.done (.ok (buffers r))) := by
      rw [reduce, if_neg hsmall, if_neg hr, parent]
      by_cases hhost : w.hostForRank root = w.hostForRank r
      · simp only [hhost, not_true_eq_false, if_false, true_or, if_true, ite_self]
      · have hleader := hleaf.resolve_left hhost
        simp only [hhost, hleader, if_false, or_self]
    have hnot : ¬w.IsRemoteLeader root r := fun h => hleaf.elim h.2 fun hne => hne h.1
    rw [hsends, reduceMessage, reduced, if_neg hnot, hencode r, reduceResult, if_neg hr]
    exact (Process.Trace.done _).send _ _

theorem allReduce_completes [NeZero size] (hop : op.Implemented) (hfits : count * number.size < 2 ^ 31)
    (hsend : ∀ r, (buffers r).sendBuffer.length = count * number.size)
    (hrecv : ∀ r, (buffers r).recvBuffer.length = count * number.size) :
    Completes (fun r => w.allReduce r (buffers r) (numbers number count) op) (fun _ => []) fun r =>
      .ok ((buffers r).setRecv
        (number.encode (w.reducedAtRoot (applyAll number op) (words number count buffers) 0))) := by
  exact w.completes_share .allReduce (reduce_completes hop hfits hsend (hrecv 0)) (fun _ => numbers_is hfits)
    (number.length_encode _) hrecv fun _ _ => covers_self _

end Reduce

end MpiWorld

/-! What the operations define. -/

inductive MpiInteger where
  | int | uint64 | longLong
  deriving DecidableEq

namespace MpiInteger

def number : MpiInteger → MpiNumber
  | int => .int
  | uint64 => .uint64
  | longLong => .longLong

def value (t : MpiInteger) (x : t.number.Word) : Int :=
  match t with
  | int => BitVec.toInt x
  | uint64 => BitVec.toNat x
  | longLong => BitVec.toInt x

def IsCombination (t : MpiInteger) (op : MpiOp) {ι : Type} [Fintype ι] (x : ι → t.number.Word) (y : t.number.Word) :
    Prop :=
  match op with
  | .sum => y = ∑ i, x i
  | .max => (∃ i, y = x i) ∧ ∀ i, t.value (x i) ≤ t.value y
  | .min => (∃ i, y = x i) ∧ ∀ i, t.value y ≤ t.value (x i)
  | _ => False

variable (t : MpiInteger)

theorem less_iff (a b : t.number.Word) : t.number.less a b ↔ t.value a < t.value b := by
  cases t with
  | int => exact decide_eq_true_iff
  | uint64 =>
    rw [value, value, Nat.cast_lt]
    exact decide_eq_true_iff
  | longLong => exact decide_eq_true_iff

theorem add_eq : t.number.add = fun a b => a + b := by
  cases t <;> rfl

theorem max_cases (a b : t.number.Word) :
    (t.number.max a b = a ∧ t.value b ≤ t.value a) ∨ (t.number.max a b = b ∧ t.value a ≤ t.value b) := by
  rw [MpiNumber.max]
  split_ifs with hless <;> rw [less_iff] at hless
  · exact Or.inr ⟨rfl, hless.le⟩
  · exact Or.inl ⟨rfl, not_lt.mp hless⟩

theorem min_cases (a b : t.number.Word) :
    (t.number.min a b = a ∧ t.value a ≤ t.value b) ∨ (t.number.min a b = b ∧ t.value b ≤ t.value a) := by
  rw [MpiNumber.min]
  split_ifs with hless <;> rw [less_iff] at hless
  · exact Or.inr ⟨rfl, hless.le⟩
  · exact Or.inl ⟨rfl, not_lt.mp hless⟩

theorem isCombination {t : MpiInteger} {op : MpiOp} (hop : op.Implemented) {ι : Type} [Fintype ι] [DecidableEq ι]
    {x : ι → t.number.Word} {y : t.number.Word} (h : Combine.Combines (t.number.apply op) x Finset.univ y) :
    t.IsCombination op x y := by
  rcases hop with rfl | rfl | rfl
  · have hsum : Combine.Combines (fun a b => a + b) x Finset.univ y := t.add_eq ▸ h
    exact hsum.sum
  · have hmax : Combine.Combines t.number.max x Finset.univ y := h
    simpa [IsCombination] using hmax.greatest t.max_cases
  · have hmin : Combine.Combines t.number.min x Finset.univ y := h
    -- the least is the greatest in the dual order
    have hdual (a b : t.number.Word) :
        (t.number.min a b = a ∧ OrderDual.toDual (t.value b) ≤ OrderDual.toDual (t.value a)) ∨
          (t.number.min a b = b ∧ OrderDual.toDual (t.value a) ≤ OrderDual.toDual (t.value b)) := t.min_cases a b
    simpa [IsCombination] using hmin.greatest hdual

end MpiInteger

inductive MpiReduction (size : Nat) where
  | reduce (root : Fin size)
  | allReduce

namespace MpiReduction

variable {size : Nat} [NeZero size]

def process (w : MpiWorld size) (r : Fin size) (buffers : MpiBuffers) (e : MpiExtent) (op : MpiOp) :
    MpiReduction size → RankProcess size (Except String MpiBuffers)
  | reduce root => w.reduce r root buffers e op
  | allReduce => w.allReduce r buffers e op

def Receives (r : Fin size) : MpiReduction size → Prop
  | reduce root => r = root
  | allReduce => True

instance (r : Fin size) : DecidablePred (Receives r) := fun
  | reduce root => inferInstanceAs (Decidable (r = root))
  | allReduce => inferInstanceAs (Decidable True)

end MpiReduction

structure Reduced {size : Nat} [NeZero size] (call : MpiReduction size) (t : MpiInteger) (count : Nat) (op : MpiOp)
    (before after : Fin size → MpiBuffers) : Prop where
  separate : ∀ r sendBuffer recvBuffer, before r = .separate sendBuffer recvBuffer →
    ∃ recvBuffer', after r = .separate sendBuffer recvBuffer'
  length : ∀ r, call.Receives r → (after r).recvBuffer.length = count * t.number.size
  combined : ∀ r, call.Receives r → ∀ slot : Fin count, t.IsCombination op
    (fun i => t.number.word (before i).sendBuffer slot) (t.number.word (after r).recvBuffer slot)

section Reductions

variable {size : Nat} [NeZero size] {w : MpiWorld size} {call : MpiReduction size} {t : MpiInteger} {count : Nat}
  {op : MpiOp} {before after : Fin size → MpiBuffers}

theorem Reduced.of_root (hop : op.Implemented) (root : Fin size)
    (hafter : ∀ r, after r = before r ∨ after r = (before r).setRecv (t.number.encode
      (w.reducedAtRoot (MpiWorld.applyAll t.number op) (MpiWorld.words t.number count before) root)))
    (hreceives : ∀ r, call.Receives r → after r = (before r).setRecv (t.number.encode
      (w.reducedAtRoot (MpiWorld.applyAll t.number op) (MpiWorld.words t.number count before) root))) :
    Reduced call t count op before after := by
  constructor
  · intro r sendBuffer recvBuffer hr
    rcases hafter r with h | h
    · exact ⟨recvBuffer, h.trans hr⟩
    · exact ⟨_, by rw [h, hr]; rfl⟩
  · intro r hr
    rw [hreceives r hr, MpiBuffers.recvBuffer_setRecv]
    exact t.number.length_encode _
  · intro r hr slot
    rw [hreceives r hr, MpiBuffers.recvBuffer_setRecv, MpiNumber.word_encode]
    have hall := w.reducedAtRoot_combines (MpiWorld.applyAll t.number op) (MpiWorld.words t.number count before) root
    exact MpiInteger.isCombination hop (hall.map (fun x => x slot) fun _ _ => rfl)

theorem MpiReduction.completes (hop : op.Implemented) (hfits : count * t.number.size < 2 ^ 31)
    (hsend : ∀ r, (before r).sendBuffer.length = count * t.number.size)
    (hrecv : ∀ r, call.Receives r → (before r).recvBuffer.length = count * t.number.size) :
    ∃ after, Reduced call t count op before after ∧
      Completes (fun r => call.process w r (before r) (MpiWorld.numbers t.number count) op) (fun _ => [])
        fun r => .ok (after r) := by
  cases call with
  | reduce root =>
    have hroot : MpiReduction.Receives root (.reduce root) := rfl
    have hcompletes := @MpiWorld.reduce_completes size w root t.number count op before hop hfits hsend
      (hrecv root hroot)
    refine ⟨MpiWorld.reduceResult w root t.number count op before, ?_, hcompletes⟩
    refine Reduced.of_root hop root (fun r => ?_) fun r hr => if_pos hr
    by_cases hr : r = root
    · exact Or.inr (if_pos hr)
    · exact Or.inl (if_neg hr)
  | allReduce =>
    refine ⟨_, ?_, MpiWorld.allReduce_completes hop hfits hsend fun r => hrecv r trivial⟩
    exact Reduced.of_root hop 0 (fun r => Or.inr rfl) fun r _ => rfl

end Reductions

/-- Under every interleaving the ranks end, with the combination of all inputs where it is due. -/
theorem reductions_correct {size : Nat} [NeZero size] (w : MpiWorld size) (call : MpiReduction size) (t : MpiInteger)
    (count : Nat) (op : MpiOp) (hop : op.Implemented) (buffers : Fin size → MpiBuffers)
    (hsend : ∀ r, (buffers r).sendBuffer.length = count * t.number.size)
    (hrecv : ∀ r, call.Receives r → (buffers r).recvBuffer.length = count * t.number.size)
    (hfits : count * t.number.size < 2 ^ 31) :
    ∃ after, Reduced call t count op buffers after ∧ ∃ steps, ∀ n u,
      Run n ⟨fun r => call.process w r (buffers r) ⟨t.number.dataType, count⟩ op, fun _ => [], fun _ => []⟩ u →
        n ≤ steps ∧ (u = ⟨fun r => .done (.ok (after r)), fun _ => [], fun _ => []⟩ ∨ ∃ r s, u.step r = some s) := by
  obtain ⟨after, hreduced, hcompletes⟩ := MpiReduction.completes (w := w) hop hfits hsend hrecv
  obtain ⟨steps, hevery⟩ := hcompletes.every_run fun _ => []
  refine ⟨after, hreduced, steps, fun n u hrun => ?_⟩
  obtain ⟨hn, -, hends⟩ := hevery n u hrun
  exact ⟨hn, hends⟩

def threeBuffers (r : Fin 3) : MpiBuffers :=
  if r.val = 1 then .inPlace [5, 0, 0, 0, 255, 255, 255, 255]
  else .separate [r.val.toUInt8, 0, 0, 0, 7, 0, 0, 0] (List.replicate 8 0)

def leaderFirst : MpiWorld 3 := ⟨fun r => if r.val = 1 then "first" else "second"⟩

theorem reductions_correct_three_ranks : ∃ after, Reduced .allReduce .int 2 .max threeBuffers after ∧
    ∃ steps, ∀ n u, Run n ⟨fun r => MpiReduction.allReduce.process leaderFirst r (threeBuffers r) ⟨mpiInt, 2⟩ .max,
      fun _ => [], fun _ => []⟩ u →
        n ≤ steps ∧ (u = ⟨fun r => .done (.ok (after r)), fun _ => [], fun _ => []⟩ ∨ ∃ r s, u.step r = some s) :=
  reductions_correct leaderFirst .allReduce .int 2 .max (Or.inr (Or.inl rfl)) threeBuffers (by decide)
    (by decide) (by decide)

/-- The size of two gibibytes is not an `int`, and as a negative `int` it is too much for an array. -/
theorem reduce_overflows : ∃ buffers : Fin 1 → MpiBuffers,
    (∀ r, (buffers r).sendBuffer.length = 2 ^ 29 * MpiInteger.int.number.size ∧
      (buffers r).recvBuffer.length = 2 ^ 29 * MpiInteger.int.number.size) ∧
    ∀ (w : MpiWorld 1) (r : Fin 1), (MpiReduction.reduce 0).process w r (buffers r) ⟨mpiInt, 2 ^ 29⟩ .sum =
      .done (.error "std::bad_array_new_length") := by
  refine ⟨fun _ => .inPlace (List.replicate (2 ^ 29 * MpiInteger.int.number.size) 0), fun r => ?_, fun w r => ?_⟩
  · exact ⟨List.length_replicate, List.length_replicate⟩
  · have hlarge : maxArraySize < MpiExtent.bytes ⟨mpiInt, 2 ^ 29⟩ := by decide
    rw [MpiReduction.process, MpiWorld.reduce, if_pos hlarge]

end Faabric
