import Mathlib
import Faabric.Lib.Bytes
import Faabric.Mpi.World

/-! The ways of a message to the receiver's buffer: through an in-memory queue or a socket, to a blocking or an
asynchronous receive. -/

namespace Faabric

structure MpiHeader where
  id : BitVec 32
  worldId : BitVec 32
  sendRank : BitVec 32
  recvRank : BitVec 32
  typeSize : BitVec 32
  count : BitVec 32
  requestId : BitVec 32
  messageType : BitVec 32
  buffer : BitVec 64
  deriving DecidableEq

namespace MpiHeader

def words (h : MpiHeader) : Fin 8 → BitVec 32 :=
  ![h.id, h.worldId, h.sendRank, h.recvRank, h.typeSize, h.count, h.requestId, h.messageType]

def encode (h : MpiHeader) : List UInt8 :=
  Blocks.join (fun i => Bytes.le 4 (h.words i).toNat) ++ Bytes.le 8 h.buffer.toNat

def word (bytes : List UInt8) (i : Nat) : BitVec 32 := BitVec.ofNat 32 (Bytes.ofLe (Blocks.slice bytes 4 i))

def decode (bytes : List UInt8) : MpiHeader where
  id := word bytes 0
  worldId := word bytes 1
  sendRank := word bytes 2
  recvRank := word bytes 3
  typeSize := word bytes 4
  count := word bytes 5
  requestId := word bytes 6
  messageType := word bytes 7
  buffer := BitVec.ofNat 64 (Bytes.ofLe (Blocks.slice bytes 8 4))

theorem length_words (h : MpiHeader) : (Blocks.join fun i => Bytes.le 4 (h.words i).toNat).length = 32 :=
  Blocks.length_join fun _ => Bytes.length_le _ _

@[simp] theorem length_encode (h : MpiHeader) : h.encode.length = 40 := by
  rw [encode, List.length_append, length_words, Bytes.length_le]

theorem word_encode (h : MpiHeader) (i : Fin 8) : word h.encode i = h.words i := by
  have hlen : (i + 1) * 4 ≤ (Blocks.join fun i => Bytes.le 4 (h.words i).toNat).length := by
    rw [length_words]
    omega
  have hlt : (h.words i).toNat < 256 ^ 4 := (h.words i).isLt
  rw [word, encode, Blocks.slice_append hlen, Blocks.slice_join fun _ => Bytes.length_le _ _, Bytes.ofLe_le hlt]
  simp

theorem decode_encode (h : MpiHeader) : decode h.encode = h := by
  have hbuffer : BitVec.ofNat 64 (Bytes.ofLe (Blocks.slice h.encode 8 4)) = h.buffer := by
    have hlt : h.buffer.toNat < 256 ^ 8 := h.buffer.isLt
    have hdrop : h.encode.drop (4 * 8) = Bytes.le 8 h.buffer.toNat := List.drop_left' h.length_words
    rw [Blocks.slice, hdrop, List.take_of_length_le (by rw [Bytes.length_le]), Bytes.ofLe_le hlt]
    simp
  have hword := h.word_encode
  cases h
  rw [decode, hbuffer]
  exact congr (congr (congr (congr (congr (congr (congr (congr (congrArg MpiHeader.mk (hword 0)) (hword 1)) (hword 2))
    (hword 3)) (hword 4)) (hword 5)) (hword 6)) (hword 7)) rfl

end MpiHeader

def intProduct (a b : BitVec 32) : Nat := (toInt (a.toInt * b.toInt) % 2 ^ 64).toNat

def MpiHeader.payloadSize (h : MpiHeader) : Nat := intProduct h.typeSize h.count

def readBytes (memory : Nat → UInt8) (count : Nat) : List UInt8 := (List.range count).map memory

@[simp] theorem length_readBytes (memory : Nat → UInt8) (count : Nat) : (readBytes memory count).length = count := by
  simp [readBytes]

structure MpiSend where
  header : MpiHeader
  data : Option (Nat → UInt8)
  address : BitVec 64
  address_ne : address ≠ 0

/-- A message as the receiver has it. A pointer from the other host points to nothing. -/
structure ReceivedMpi where
  header : MpiHeader
  buffer : Option (List UInt8)
  deriving DecidableEq

namespace MpiSend

def mustSendData (m : MpiSend) : Option (Nat → UInt8) := if 0 < m.header.count.toInt then m.data else none

def viaQueue (m : MpiSend) : Option ReceivedMpi :=
  match m.mustSendData with
  | none => some ⟨{ m.header with buffer := 0 }, none⟩
  | some memory =>
    if maxArraySize < m.header.payloadSize then none
    else some ⟨{ m.header with buffer := 0 }, some (readBytes memory m.header.payloadSize)⟩

def frame (m : MpiSend) : List UInt8 :=
  match m.mustSendData with
  | none => MpiHeader.encode { m.header with buffer := 0 }
  | some memory =>
    MpiHeader.encode { m.header with buffer := m.address } ++ readBytes memory m.header.payloadSize

end MpiSend

def recvRemoteMpiMessage (channel : List UInt8) : Option (ReceivedMpi × List UInt8) :=
  let header := MpiHeader.decode (channel.take 40)
  let rest := channel.drop 40
  let bare := { header with buffer := 0 }
  if channel.length < 40 then none
  else if 0 < header.payloadSize then
    if maxArraySize < header.payloadSize ∨ rest.length < header.payloadSize then none
    else some (⟨bare, some (rest.take header.payloadSize)⟩, rest.drop header.payloadSize)
  else some (⟨bare, if header.buffer = 0 then none else some []⟩, rest)

structure PostedRecv where
  typeSize : BitVec 32
  count : BitVec 32
  deriving DecidableEq

def copyFrom (buffer : List UInt8) (beyond : Nat → UInt8) (count : Nat) : List UInt8 :=
  buffer.take count ++ readBytes beyond (count - buffer.length)

def blockingWrite (beyond : Nat → UInt8) (msg : ReceivedMpi) (posted : PostedRecv) : List UInt8 :=
  match msg.buffer with
  | none => []
  | some buffer =>
    if 0 < msg.header.count.toInt then
      copyFrom buffer beyond
        (min (intProduct msg.header.count posted.typeSize) (intProduct posted.count posted.typeSize))
    else []

def asyncWrite (beyond : Nat → UInt8) (msg : ReceivedMpi) : List UInt8 :=
  match msg.buffer with
  | none => []
  | some buffer => copyFrom buffer beyond msg.header.payloadSize

/-- The message is the same and the connection stands at the next one, and both kinds of receives write the same
bytes, not more than were posted. -/
def PathsAgree (m : MpiSend) (posted : PostedRecv) (rest : List UInt8) : Prop :=
  ∃ msg, m.viaQueue = some msg ∧ recvRemoteMpiMessage (m.frame ++ rest) = some (msg, rest) ∧
    ∀ beyond beyond', blockingWrite beyond msg posted = asyncWrite beyond' msg ∧
      (asyncWrite beyond' msg).length ≤ (posted.count.toInt * posted.typeSize.toInt).toNat

/-- A message without data has no payload. One with data has the size that the receiver computes for it with the
posted datatype and count. -/
def MpiSend.Fits (m : MpiSend) (posted : PostedRecv) : Prop :=
  match m.mustSendData with
  | none => m.header.payloadSize = 0
  | some _ =>
    m.header.payloadSize ≤ maxArraySize ∧
      min (intProduct m.header.count posted.typeSize) (intProduct posted.count posted.typeSize) =
        m.header.payloadSize ∧
      m.header.payloadSize ≤ (posted.count.toInt * posted.typeSize.toInt).toNat

def channelOf (calls : List (MpiSend × PostedRecv)) : List UInt8 := calls.flatMap (·.1.frame)

theorem recvRemote_header (h : MpiHeader) (rest : List UInt8) : recvRemoteMpiMessage (h.encode ++ rest) =
    if 0 < h.payloadSize then
      if maxArraySize < h.payloadSize ∨ rest.length < h.payloadSize then none
      else some (⟨{ h with buffer := 0 }, some (rest.take h.payloadSize)⟩, rest.drop h.payloadSize)
    else some (⟨{ h with buffer := 0 }, if h.buffer = 0 then none else some []⟩, rest) := by
  have hlen : ¬(h.encode ++ rest).length < 40 := by
    rw [List.length_append, h.length_encode]
    omega
  have htake : (h.encode ++ rest).take 40 = h.encode := List.take_left' h.length_encode
  have hdrop : (h.encode ++ rest).drop 40 = rest := List.drop_left' h.length_encode
  rw [recvRemoteMpiMessage, htake, hdrop, h.decode_encode]
  exact if_neg hlen

theorem recvRemote_none {m : MpiSend} (h : m.mustSendData = none) (rest : List UInt8) :
    recvRemoteMpiMessage (m.frame ++ rest) = some (⟨{ m.header with buffer := 0 }, none⟩, rest) ↔
      m.header.payloadSize = 0 := by
  have hsize : MpiHeader.payloadSize { m.header with buffer := 0 } = m.header.payloadSize := rfl
  rw [MpiSend.frame, h]
  dsimp only
  rw [recvRemote_header, hsize]
  constructor
  · intro hrecv
    by_contra hne
    rw [if_pos (Nat.pos_of_ne_zero hne)] at hrecv
    split_ifs at hrecv
    simp at hrecv
  · intro hzero
    rw [hzero]
    simp

theorem recvRemote_data {m : MpiSend} {memory : Nat → UInt8} (h : m.mustSendData = some memory)
    (hsize : m.header.payloadSize ≤ maxArraySize) (rest : List UInt8) :
    recvRemoteMpiMessage (m.frame ++ rest) =
      some (⟨{ m.header with buffer := 0 }, some (readBytes memory m.header.payloadSize)⟩, rest) := by
  have hsame : MpiHeader.payloadSize { m.header with buffer := m.address } = m.header.payloadSize := rfl
  rw [MpiSend.frame, h]
  dsimp only
  rw [List.append_assoc, recvRemote_header, hsame]
  split_ifs with hpos hfail haddress
  · rw [List.length_append, length_readBytes] at hfail
    omega
  · rw [List.take_left' (length_readBytes ..), List.drop_left' (length_readBytes ..)]
  · exact absurd haddress m.address_ne
  · have hzero : m.header.payloadSize = 0 := by omega
    rw [hzero]
    rfl

@[simp] theorem length_copyFrom (buffer : List UInt8) (beyond : Nat → UInt8) (count : Nat) :
    (copyFrom buffer beyond count).length = count := by
  rw [copyFrom, List.length_append, length_readBytes, List.length_take]
  omega

theorem pathsAgree_iff (m : MpiSend) (posted : PostedRecv) (rest : List UInt8) :
    PathsAgree m posted rest ↔ m.Fits posted := by
  cases hdata : m.mustSendData with
  | none =>
    have hqueue : m.viaQueue = some ⟨{ m.header with buffer := 0 }, none⟩ := by rw [MpiSend.viaQueue, hdata]
    rw [PathsAgree, hqueue, MpiSend.Fits, hdata]
    dsimp only
    rw [← recvRemote_none hdata rest]
    constructor
    · rintro ⟨msg, hmsg, hrecv, -⟩
      rw [Option.some.injEq] at hmsg
      rw [hmsg, hrecv]
    · intro hrecv
      exact ⟨_, rfl, hrecv, fun _ _ => ⟨rfl, Nat.zero_le _⟩⟩
  | some memory =>
    have hcount : 0 < m.header.count.toInt := by
      by_contra hnot
      rw [MpiSend.mustSendData, if_neg hnot] at hdata
      cases hdata
    rw [PathsAgree, MpiSend.viaQueue, MpiSend.Fits, hdata]
    dsimp only
    constructor
    · rintro ⟨msg, hmsg, -, hwrites⟩
      split_ifs at hmsg with hlarge
      rw [Option.some.injEq] at hmsg
      subst hmsg
      obtain ⟨hsame, hbound⟩ := hwrites (fun _ => 0) fun _ => 0
      have hlength := congrArg List.length hsame
      rw [blockingWrite, asyncWrite] at hlength
      simp only [if_pos hcount, length_copyFrom] at hlength
      rw [asyncWrite] at hbound
      simp only [length_copyFrom] at hbound
      exact ⟨not_lt.mp hlarge, hlength, hbound⟩
    · rintro ⟨hlarge, hsame, hbound⟩
      refine ⟨_, if_neg (not_lt.mpr hlarge), recvRemote_data hdata hlarge rest, fun beyond beyond' => ?_⟩
      have hall (beyond : Nat → UInt8) : copyFrom (readBytes memory m.header.payloadSize) beyond
          m.header.payloadSize = readBytes memory m.header.payloadSize := by
        rw [copyFrom, List.take_of_length_le (length_readBytes ..).le, length_readBytes, Nat.sub_self]
        simp [readBytes]
      have hasync : asyncWrite beyond' ⟨{ m.header with buffer := 0 },
          some (readBytes memory m.header.payloadSize)⟩ = readBytes memory m.header.payloadSize := hall beyond'
      have hblocking : blockingWrite beyond ⟨{ m.header with buffer := 0 },
          some (readBytes memory m.header.payloadSize)⟩ posted = readBytes memory m.header.payloadSize := by
        rw [blockingWrite]
        simp only [if_pos hcount, hsame]
        exact hall beyond
      rw [hasync, hblocking, length_readBytes]
      exact ⟨rfl, hbound⟩

def intHeader (count : Nat) : MpiHeader := ⟨1, 7, 0, 1, 4, BitVec.ofNat 32 count, 0, 0, 0⟩

end Faabric
