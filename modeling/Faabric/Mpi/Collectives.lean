import Mathlib
import Faabric.Mpi.World

/-! The data-movement collectives as programs of the ranks, and programs that make one call after the other. -/

namespace Faabric

open Network

inductive MpiEvent where
  | enter (call : Nat)
  | leave (call : Nat) (result : Except String (List UInt8))
  deriving DecidableEq

abbrev RankProcess (size : Nat) (α : Type) := Process (Fin size) MpiMessage MpiEvent α

inductive MpiBuffers where
  | inPlace (buffer : List UInt8)
  | separate (sendBuffer recvBuffer : List UInt8)
  deriving DecidableEq

namespace MpiBuffers

def isInPlace : MpiBuffers → Bool
  | inPlace _ => true
  | separate _ _ => false

def sendBuffer : MpiBuffers → List UInt8
  | inPlace buffer => buffer
  | separate sendBuffer _ => sendBuffer

def recvBuffer : MpiBuffers → List UInt8
  | inPlace buffer => buffer
  | separate _ recvBuffer => recvBuffer

def own (buffers : MpiBuffers) (rank bytes : Nat) : List UInt8 :=
  buffers.sendBuffer.drop (if buffers.isInPlace then rank * bytes else 0)

def setRecv : MpiBuffers → List UInt8 → MpiBuffers
  | inPlace _, buffer => inPlace buffer
  | separate sendBuffer _, buffer => separate sendBuffer buffer

@[simp] theorem recvBuffer_setRecv (buffers : MpiBuffers) (buffer : List UInt8) :
    (buffers.setRecv buffer).recvBuffer = buffer := by
  cases buffers <;> rfl

@[simp] theorem setRecv_setRecv (buffers : MpiBuffers) (buffer buffer' : List UInt8) :
    (buffers.setRecv buffer).setRecv buffer' = buffers.setRecv buffer' := by
  cases buffers <;> rfl

end MpiBuffers

def sendRecvMismatch (send recv : MpiExtent) : Prop := send.dataType.id ≠ recv.dataType.id ∧ send.count = recv.count

instance (send recv : MpiExtent) : Decidable (sendRecvMismatch send recv) :=
  inferInstanceAs (Decidable (_ ∧ _))

def mismatchError : String := "Mismatching send/ recv"

namespace MpiWorld

variable {size : Nat} (w : MpiWorld size)

def broadcast (sendRank recvRank : Fin size) (buffer : List UInt8) (e : MpiExtent) (t : MpiMessageType) :
    RankProcess size (List UInt8) :=
  if recvRank = sendRank then
    Process.sendAll (w.rootPeers recvRank) (fun r => mpiMessage recvRank r buffer e t) (.done buffer)
  else if recvRank = w.localLeader recvRank then
    .recv sendRank fun msg =>
      -- a leader passes on what comes from another host
      if w.hostForRank sendRank ≠ w.hostForRank recvRank then
        Process.sendAll (w.localPeers recvRank) (fun r => mpiMessage recvRank r (doRecv msg buffer e) e t)
          (.done (doRecv msg buffer e))
      else .done (doRecv msg buffer e)
  else
    .recv (if w.hostForRank sendRank = w.hostForRank recvRank then sendRank else w.localLeader recvRank)
      fun msg => .done (doRecv msg buffer e)

def scatterStep (sendRank : Fin size) (sendBuffer : List UInt8) (send : MpiExtent) (r : Fin size)
    (recvBuffer : List UInt8) : RankProcess size (List UInt8) :=
  if r = sendRank then .done (memcpy recvBuffer (sendBuffer.drop (r * send.bytes)) send.bytes)
  else .send r (mpiMessage sendRank r (sendBuffer.drop (r * send.bytes)) send .scatter) (.done recvBuffer)

def scatter (sendRank recvRank : Fin size) (sendBuffer : List UInt8) (send : MpiExtent) (recvBuffer : List UInt8)
    (recv : MpiExtent) : RankProcess size (Except String (List UInt8)) :=
  if sendRecvMismatch send recv then .done (.error mismatchError)
  else if recvRank = sendRank then
    (Process.forEach (scatterStep sendRank sendBuffer send) (List.finRange size) recvBuffer).bind
      fun buffer => .done (.ok buffer)
  else .recv sendRank fun msg => .done (.ok (doRecv msg recvBuffer recv))

def gatherRank (recvRank : Fin size) (buffers : MpiBuffers) (send recv : MpiExtent) (r : Fin size)
    (buffer : List UInt8) : RankProcess size (List UInt8) :=
  if r = recvRank then
    .done (if buffers.isInPlace then buffer
      else Blocks.writeAt buffer (recvRank * recv.bytes) (buffers.sendBuffer.take send.bytes))
  else .recv r fun msg => .done (recvAt msg buffer (r * recv.bytes) recv)

def gatherHost (recvRank : Fin size) (buffers : MpiBuffers) (send recv : MpiExtent) :
    String × List (Fin size) → List UInt8 → RankProcess size (List UInt8)
  | (host, ranks), buffer =>
    if host = w.hostForRank recvRank then Process.forEach (gatherRank recvRank buffers send recv) ranks buffer
    else
      match ranks with
      | [] => .done buffer
      | leader :: rest =>
        .recv leader fun msg =>
          let ranks := leader :: rest
          let rankData := doRecv msg (List.replicate (ranks.length * recv.bytes) 0) (recv.times ranks.length)
          .done ((List.finRange ranks.length).foldl (fun buffer k =>
            Blocks.writeAt buffer (ranks.get k * recv.bytes) (Blocks.slice rankData recv.bytes k)) buffer)

def gatherLocalStep (sendRank : Fin size) (own : List UInt8) (send : MpiExtent) (ranks : List (Fin size))
    (k : Fin ranks.length) (rankData : List UInt8) : RankProcess size (List UInt8) :=
  if ranks.get k = sendRank then .done (Blocks.writeAt rankData (k * send.bytes) (own.take send.bytes))
  else .recv (ranks.get k) fun msg => .done (recvAt msg rankData (k * send.bytes) send)

def gatherLocal (sendRank : Fin size) (own : List UInt8) (send : MpiExtent) : RankProcess size (List UInt8) :=
  let ranks := w.ranksOn (w.hostForRank sendRank)
  Process.forEach (gatherLocalStep sendRank own send ranks) (List.finRange ranks.length)
    (List.replicate (ranks.length * send.bytes) 0)

/-- The last scenario of the source, a thrown exception, is never reached: the ones before it are all there are. -/
def gather (sendRank recvRank : Fin size) (buffers : MpiBuffers) (send recv : MpiExtent) :
    RankProcess size (Except String MpiBuffers) :=
  let isLocalLeader := sendRank = w.localLeader sendRank
  let isLocalGather := w.hostForRank recvRank = w.hostForRank sendRank
  let own := buffers.own sendRank send.bytes
  if sendRecvMismatch send recv then .done (.error mismatchError)
  else if sendRank = recvRank then
    (Process.forEach (w.gatherHost recvRank buffers send recv) w.ranksForHost buffers.recvBuffer).bind
      fun buffer => .done (.ok (buffers.setRecv buffer))
  else if isLocalLeader ∧ ¬isLocalGather then
    (w.gatherLocal sendRank own send).bind fun rankData =>
      .send recvRank (mpiMessage sendRank recvRank rankData
        (send.times (w.ranksOn (w.hostForRank sendRank)).length) .gather) (.done (.ok buffers))
  else if isLocalLeader ∧ isLocalGather then
    .send recvRank (mpiMessage sendRank recvRank own send .gather) (.done (.ok buffers))
  else if ¬isLocalLeader ∧ ¬isLocalGather then
    .send (w.localLeader sendRank) (mpiMessage sendRank (w.localLeader sendRank) own send .gather)
      (.done (.ok buffers))
  else .send recvRank (mpiMessage sendRank recvRank own send .gather) (.done (.ok buffers))

def allToAllSend (rank : Fin size) (sendBuffer : List UInt8) (send : MpiExtent) (recvRank : Fin size)
    (recvBuffer : List UInt8) : RankProcess size (List UInt8) :=
  if recvRank = rank then
    .done (Blocks.writeAt recvBuffer (recvRank * send.bytes) (Blocks.slice sendBuffer send.bytes recvRank))
  else
    .send recvRank (mpiMessage rank recvRank (sendBuffer.drop (recvRank * send.bytes)) send .allToAll)
      (.done recvBuffer)

def allToAllRecv (rank : Fin size) (send recv : MpiExtent) (sendRank : Fin size) (recvBuffer : List UInt8) :
    RankProcess size (List UInt8) :=
  if sendRank = rank then .done recvBuffer
  else .recv sendRank fun msg => .done (recvAt msg recvBuffer (sendRank * send.bytes) recv)

def allToAll (rank : Fin size) (sendBuffer : List UInt8) (send : MpiExtent) (recvBuffer : List UInt8)
    (recv : MpiExtent) : RankProcess size (Except String (List UInt8)) :=
  if sendRecvMismatch send recv then .done (.error mismatchError)
  else
    (Process.forEach (allToAllSend rank sendBuffer send) (List.finRange size) recvBuffer).bind fun buffer =>
      (Process.forEach (allToAllRecv rank send recv) (List.finRange size) buffer).bind
        fun buffer => .done (.ok buffer)

variable [NeZero size]

def allGather (rank : Fin size) (buffers : MpiBuffers) (send recv : MpiExtent) :
    RankProcess size (Except String MpiBuffers) :=
  if sendRecvMismatch send recv then .done (.error mismatchError)
  else
    (w.gather rank 0 buffers send recv).bind fun
      | .error message => .done (.error message)
      | .ok buffers =>
        (w.broadcast 0 rank buffers.recvBuffer (recv.times size) .allGather).bind fun buffer =>
          .done (.ok (buffers.setRecv buffer))

def noData : MpiExtent := ⟨mpiInt, 0⟩

def barrierJoin (rank : Fin size) : RankProcess size Unit :=
  if rank = 0 then
    Process.forEach (fun r _ => .recv r fun _ => .done ()) ((List.finRange size).filter (· ≠ 0)) ()
  else .send 0 (mpiMessage rank (0 : Fin size) [] noData .barrierJoin) (.done ())

def barrier (rank : Fin size) : RankProcess size (List UInt8) :=
  (barrierJoin rank).bind fun _ => w.broadcast 0 rank [] noData .barrierDone

end MpiWorld

structure MpiArgs where
  buffers : MpiBuffers
  send : MpiExtent
  recv : MpiExtent

inductive MpiCall (size : Nat) where
  | broadcast (root : Fin size) (args : Fin size → MpiArgs)
  | scatter (root : Fin size) (args : Fin size → MpiArgs)
  | gather (root : Fin size) (args : Fin size → MpiArgs)
  | allGather (args : Fin size → MpiArgs)
  | allToAll (args : Fin size → MpiArgs)
  | barrier

section Programs

variable {size : Nat} [NeZero size] (w : MpiWorld size)

def MpiCall.process (rank : Fin size) : MpiCall size → RankProcess size (Except String (List UInt8))
  | .broadcast root args =>
    (w.broadcast root rank (args rank).buffers.recvBuffer (args rank).recv .broadcast).bind
      fun buffer => .done (.ok buffer)
  | .scatter root args =>
    MpiWorld.scatter root rank (args rank).buffers.sendBuffer (args rank).send (args rank).buffers.recvBuffer
      (args rank).recv
  | .gather root args =>
    (w.gather rank root (args rank).buffers (args rank).send (args rank).recv).bind
      fun result => .done (result.map MpiBuffers.recvBuffer)
  | .allGather args =>
    (w.allGather rank (args rank).buffers (args rank).send (args rank).recv).bind
      fun result => .done (result.map MpiBuffers.recvBuffer)
  | .allToAll args =>
    MpiWorld.allToAll rank (args rank).buffers.sendBuffer (args rank).send (args rank).buffers.recvBuffer
      (args rank).recv
  | .barrier => (w.barrier rank).bind fun buffer => .done (.ok buffer)

/-- The calls one after the other, from call `k` on. An exception ends the rank's program. -/
def MpiWorld.program (rank : Fin size) : Nat → List (MpiCall size) → RankProcess size (Except String Unit)
  | _, [] => .done (.ok ())
  | k, call :: calls =>
    .note (.enter k) ((call.process w rank).bind fun
      | .error message => .note (.leave k (.error message)) (.done (.error message))
      | .ok buffer => .note (.leave k (.ok buffer)) (program rank (k + 1) calls))

def MpiWorld.start (calls : List (MpiCall size)) : Net (Fin size) MpiMessage MpiEvent (Except String Unit) :=
  ⟨fun rank => w.program rank 0 calls, fun _ => [], fun _ => []⟩

end Programs

end Faabric
