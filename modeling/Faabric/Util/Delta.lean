import Faabric.Lib.Bytes

/-! Binary deltas between two buffers: how a delta is written, and how its commands are read and
applied. Sizes of buffers in memory are natural numbers; the one sum that can leave 64 bits, the
end of a compressed block of an untrusted delta, wraps as `size_t` does. -/

namespace Faabric

open Bytes

structure DeltaSettings where
  usePages : Bool := false
  pageSize : Nat := 4096
  xorWithOld : Bool := false
  useZstd : Bool := false
  zstdLevel : Int := 1
deriving Repr, DecidableEq

def deltaProtocolVersion : UInt8 := 1
def deltacmdTotalSize : UInt8 := 0x00
def deltacmdZstdCompressedCommands : UInt8 := 0x01
def deltacmdDeltaOverwrite : UInt8 := 0x02
def deltacmdDeltaXor : UInt8 := 0x03
def deltacmdEnd : UInt8 := 0xFE

/-- How a call ends if it does not return: the exceptions; an access outside the memory it was
given, which C++ leaves undefined; blocks nested deeper than the depth considered; and a loop that
takes more steps than considered. -/
inductive DeltaError where
  | runtimeError (what : String)
  | rangeError (what : String)
  | lengthError
  | undefinedBehaviour
  | tooDeep
  | outOfFuel
deriving Repr, DecidableEq

/-- The compressor: `decompress source capacity` is what it writes into a buffer of that capacity,
or the name of an error. -/
structure Zstd where
  compress : List UInt8 → Int → Except String (List UInt8)
  decompress : List UInt8 → Nat → Except String (List UInt8)

def readSpan (data : List UInt8) (start length : Nat) : Except DeltaError (List UInt8) :=
  if start + length ≤ data.length then .ok ((data.drop start).take length)
  else .error .undefinedBehaviour

/-! ### Writing a delta -/

section Serialize

variable (cfg : DeltaSettings) (oldData newData : List UInt8)

def encodeRegion (cmd : UInt8) (start length : Nat) (data : List UInt8) : List UInt8 :=
  cmd :: (le 4 start ++ (le 4 length ++ data))

def encodeChangedRegion (startByte newLength : Nat) : Except DeltaError (List UInt8) := do
  if newLength = 0 then return []
  let new ← readSpan newData startByte newLength
  if cfg.xorWithOld then
    let old ← readSpan oldData startByte newLength
    return encodeRegion deltacmdDeltaXor startByte newLength (List.zipWith (· ^^^ ·) old new)
  else return encodeRegion deltacmdDeltaOverwrite startByte newLength new

def encodeNewRegion (newStart newLength : Nat) : Except DeltaError (List UInt8) := do
  if newLength = 0 then return []
  let new ← readSpan newData newStart newLength
  return encodeRegion deltacmdDeltaOverwrite newStart newLength new

/-- `std::any_of` stops at the first byte that is not zero, and reads on past the buffer if there
is none before its end. -/
def anyNonZero (pageStart pageEnd : Nat) : Except DeltaError Bool :=
  if ((newData.take pageEnd).drop pageStart).any (· ≠ 0) then .ok true
  else if pageEnd ≤ newData.length then .ok false
  else .error .undefinedBehaviour

def encodePage (pageStart : Nat) : Except DeltaError (List UInt8) := do
  let pageEnd := pageStart + cfg.pageSize
  let startInBoth := pageStart < oldData.length
  let endInBoth := pageEnd ≤ newData.length ∧ pageEnd ≤ oldData.length
  if startInBoth ∧ endInBoth then
    let new ← readSpan newData pageStart cfg.pageSize
    -- the first bytes of the old data, not those of the page
    let old ← readSpan oldData 0 cfg.pageSize
    if new ≠ old then encodeChangedRegion cfg oldData newData pageStart cfg.pageSize
    else return []
  else if ¬startInBoth then
    if ← anyNonZero newData pageStart pageEnd then
      encodeNewRegion newData pageStart (min pageEnd newData.length - pageStart)
    else return []
  else encodeNewRegion newData pageStart (min pageEnd newData.length - pageStart)

def encodePages : Nat → Nat → Except DeltaError (List UInt8)
  | 0, pageStart => if pageStart < newData.length then .error .outOfFuel else .ok []
  | fuel + 1, pageStart =>
    if pageStart < newData.length then do
      let page ← encodePage cfg oldData newData pageStart
      let rest ← encodePages fuel (pageStart + cfg.pageSize)
      return page ++ rest
    else .ok []

def encodeWhole : Except DeltaError (List UInt8) := do
  if oldData.length ≤ newData.length then
    let changed ← encodeChangedRegion cfg oldData newData 0 oldData.length
    let new ← encodeNewRegion newData oldData.length (newData.length - oldData.length)
    return changed ++ new
  else
    -- discard longer old data
    encodeChangedRegion cfg oldData newData 0 newData.length

def serializeCommands : Except DeltaError (List UInt8) := do
  let body ← if cfg.usePages then encodePages cfg oldData newData newData.length 0
    else encodeWhole cfg oldData newData
  return deltaProtocolVersion :: deltacmdTotalSize ::
    (le 4 newData.length ++ (body ++ [deltacmdEnd]))

def serializeDelta (zstd : Zstd) : Except DeltaError (List UInt8) := do
  let outb ← serializeCommands cfg oldData newData
  if ¬cfg.useZstd then return outb
  else
    match zstd.compress outb cfg.zstdLevel with
    | .error error => .error (.runtimeError ("ZSTD compression error: " ++ error))
    | .ok compressed =>
      return deltaProtocolVersion :: deltacmdZstdCompressedCommands ::
        (le 8 compressed.length ++ (le 8 outb.length ++ (compressed ++ [deltacmdEnd])))

end Serialize

/-! ### Reading its commands -/

/-- A command as it stands in a delta; that of a compressed block has the index of its bytes. -/
inductive DeltaCommand where
  | totalSize (totalSize : Nat)
  | zstdCompressedCommands (readIdx compressedSize decompressedSize : Nat)
  | deltaOverwrite (offset : Nat) (data : List UInt8)
  | deltaXor (offset : Nat) (data : List UInt8)
  | deltaEnd
  | unknown
deriving Repr, DecidableEq

def readBytesOf (container : List UInt8) (width offset : Nat) : Except DeltaError (Nat × Nat) :=
  if container.length ≤ offset ∨ container.length < offset + width then
    .error (.rangeError "Trying to read bytes out of container range")
  else do
    let bytes ← readSpan container offset width
    return (ofLe bytes, offset + width)

def readRegion (delta : List UInt8) (outOfRange : String) (readIdx : Nat) :
    Except DeltaError (Nat × List UInt8 × Nat) := do
  let (offset, readIdx) ← readBytesOf delta 4 readIdx
  let (length, readIdx) ← readBytesOf delta 4 readIdx
  if delta.length < readIdx + length then .error (.rangeError outOfRange)
  else
    let data ← readSpan delta readIdx length
    return (offset, data, readIdx + length)

def readCommand (delta : List UInt8) (cmd : UInt8) (readIdx : Nat) :
    Except DeltaError (DeltaCommand × Nat) := do
  if cmd = deltacmdTotalSize then
    let (totalSize, readIdx) ← readBytesOf delta 4 readIdx
    return (.totalSize totalSize, readIdx)
  else if cmd = deltacmdZstdCompressedCommands then
    let (compressedSize, readIdx) ← readBytesOf delta 8 readIdx
    let (decompressedSize, readIdx) ← readBytesOf delta 8 readIdx
    -- the sum of the two is one of `size_t`
    if delta.length < (readIdx + compressedSize) % 2 ^ 64 then
      .error (.rangeError "Delta compressed commands block goes out of range:")
    else
      return (.zstdCompressedCommands readIdx compressedSize decompressedSize,
        (readIdx + compressedSize) % 2 ^ 64)
  else if cmd = deltacmdDeltaOverwrite then
    let (offset, data, readIdx) ← readRegion delta "Delta overwrite block goes out of range" readIdx
    return (.deltaOverwrite offset data, readIdx)
  else if cmd = deltacmdDeltaXor then
    let (offset, data, readIdx) ← readRegion delta "Delta XOR block goes out of range" readIdx
    return (.deltaXor offset data, readIdx)
  else if cmd = deltacmdEnd then return (.deltaEnd, delta.length)
  else return (.unknown, readIdx)

/-! ### Applying them -/

/-- What the callbacks `setDataSize` and `getDataPointer` give access to. A write is `none` if it
leaves the memory behind the pointer. -/
structure DeltaSink (σ : Type) where
  setDataSize : σ → Nat → σ
  write : σ → (UInt8 → UInt8 → UInt8) → Nat → List UInt8 → Option σ

section Apply

variable {σ : Type} (sink : DeltaSink σ) (zstd : Zstd)

def DeltaSink.writeAt (target : σ) (f : UInt8 → UInt8 → UInt8) (offset : Nat) (data : List UInt8) :
    Except (DeltaError × σ) σ :=
  match sink.write target f offset data with
  | some target => .ok target
  | none => .error (.undefinedBehaviour, target)

def applyCommand (nested : List UInt8 → σ → Except (DeltaError × σ) σ) (delta : List UInt8)
    (target : σ) : DeltaCommand → Except (DeltaError × σ) σ
  | .totalSize totalSize => .ok (sink.setDataSize target totalSize)
  | .zstdCompressedCommands readIdx compressedSize decompressedSize =>
    -- the longest vector there can be has 2^63 - 1 bytes
    if 2 ^ 63 ≤ decompressedSize then .error (.lengthError, target)
    else
      match readSpan delta readIdx compressedSize with
      | .error error => .error (error, target)
      | .ok source =>
        match zstd.decompress source decompressedSize with
        | .error error => .error (.runtimeError ("ZSTD compression error: " ++ error), target)
        | .ok decompressedCmds =>
          if decompressedCmds.length ≠ decompressedSize then
            .error (.runtimeError "Mismatched decompression sizes in the NDP delta", target)
          else nested decompressedCmds target
  | .deltaOverwrite offset data => sink.writeAt target (fun _ new => new) offset data
  | .deltaXor offset data => sink.writeAt target (fun byte new => new ^^^ byte) offset data
  | .deltaEnd => .ok target
  | .unknown => .ok target

def applyCommands (nested : List UInt8 → σ → Except (DeltaError × σ) σ) (delta : List UInt8) :
    Nat → Nat → σ → Except (DeltaError × σ) σ
  | fuel, readIdx, target =>
    match delta[readIdx]? with
    | none => .ok target
    | some cmd =>
      match fuel with
      | 0 => .error (.outOfFuel, target)
      | fuel + 1 =>
        match readCommand delta cmd (readIdx + 1) with
        | .error error => .error (error, target)
        | .ok (command, readIdx) => do
          let target ← applyCommand sink zstd nested delta target command
          applyCommands nested delta fuel readIdx target

section Steps

variable {sink zstd} {nested : List UInt8 → σ → Except (DeltaError × σ) σ} {delta : List UInt8}
  {fuel readIdx next : Nat} {cmd : UInt8} {error : DeltaError} {command : DeltaCommand} {target : σ}

theorem applyCommands_end (h : delta[readIdx]? = none) :
    applyCommands sink zstd nested delta fuel readIdx target = .ok target := by
  cases fuel <;> rw [applyCommands, h]

theorem applyCommands_error (hcmd : delta[readIdx]? = some cmd)
    (hread : readCommand delta cmd (readIdx + 1) = .error error) :
    applyCommands sink zstd nested delta (fuel + 1) readIdx target = .error (error, target) := by
  rw [applyCommands, hcmd]
  simp only [hread]

theorem applyCommands_command (hcmd : delta[readIdx]? = some cmd)
    (hread : readCommand delta cmd (readIdx + 1) = .ok (command, next)) :
    applyCommands sink zstd nested delta (fuel + 1) readIdx target =
      (applyCommand sink zstd nested delta target command).bind
        (applyCommands sink zstd nested delta fuel next) := by
  rw [applyCommands, hcmd]
  simp only [hread]
  rfl

end Steps

def applyDelta : Nat → List UInt8 → σ → Except (DeltaError × σ) σ
  | 0, _, target => .error (.tooDeep, target)
  | depth + 1, delta, target =>
    if delta.length < 2 then .error (.runtimeError "Delta too short to be valid", target)
    else if delta[0]? ≠ some deltaProtocolVersion then
      .error (.runtimeError "Unsupported delta version", target)
    else applyCommands sink zstd (applyDelta depth) delta delta.length 1 target

end Apply

end Faabric
