import Faabric.Lib.Bytes

/-! Snapshots: their contents, the regions that say how changes are merged, and the diffs between a
snapshot and an updated copy. Offsets are those of `uint32_t` and wrap where the code computes them
so; sizes are those of buffers in memory. -/

namespace Faabric

open Bytes

inductive SnapshotDataType where
  | raw
  | bool
  | int
  | long
  | float
  | double
deriving Repr, DecidableEq

inductive SnapshotMergeOperation where
  | bytewise
  | sum
  | product
  | subtract
  | max
  | min
  | ignore
  | xor
deriving Repr, DecidableEq

structure SnapshotDiff where
  dataType : SnapshotDataType := .raw
  operation : SnapshotMergeOperation := .bytewise
  offset : Nat := 0
  data : List UInt8
deriving Repr, DecidableEq

structure SnapshotMergeRegion where
  offset : Nat := 0
  length : Nat := 0
  dataType : SnapshotDataType := .raw
  operation : SnapshotMergeOperation := .bytewise
deriving Repr, DecidableEq

/-- An exception, an access outside the memory, or a loop that does not end. -/
inductive SnapshotError where
  | runtimeError (what : String)
  | undefinedBehaviour
  | outOfFuel
deriving Repr, DecidableEq

/-! ### Numbers in a snapshot -/

/-- A type that diffs can be computed in, as its bytes stand in memory. A division that traps has no
result. -/
structure DiffNumber (T : Type) where
  size : Nat
  read : List UInt8 → T
  write : T → List UInt8
  add : T → T → T
  sub : T → T → T
  mul : T → T → T
  div : T → T → Option T
  lt : T → T → Bool
  eq : T → T → Bool

def intNumber (width : Nat) : DiffNumber (BitVec (8 * width)) where
  size := width
  read bytes := BitVec.ofNat _ (ofLe (bytes.take width))
  write x := le width x.toNat
  add := (· + ·)
  sub := (· - ·)
  mul := (· * ·)
  div x y := if y = 0 ∨ (x = BitVec.intMin _ ∧ y = -1) then none else some (x.sdiv y)
  lt := BitVec.slt
  eq := (· == ·)

def floatNumber : DiffNumber Float32 where
  size := 4
  read bytes := Float32.ofBits (UInt32.ofNat (ofLe (bytes.take 4)))
  write x := le 4 x.toBits.toNat
  add := (· + ·)
  sub := (· - ·)
  mul := (· * ·)
  div x y := some (x / y)
  lt x y := decide (x < y)
  eq := (· == ·)

def doubleNumber : DiffNumber Float where
  size := 8
  read bytes := Float.ofBits (UInt64.ofNat (ofLe (bytes.take 8)))
  write x := le 8 x.toBits.toNat
  add := (· + ·)
  sub := (· - ·)
  mul := (· * ·)
  div x y := some (x / y)
  lt x y := decide (x < y)
  eq := (· == ·)

section Numbers

variable {T : Type} (number : DiffNumber T)

def calculateDiffValue (original updated : List UInt8) (operation : SnapshotMergeOperation) :
    Except SnapshotError (Option (List UInt8)) :=
  let updatedValue := number.read updated
  let originalValue := number.read original
  if number.eq originalValue updatedValue then .ok none
  else
    match operation with
    | .sum => .ok (some (number.write (number.sub updatedValue originalValue)))
    | .subtract => .ok (some (number.write (number.sub originalValue updatedValue)))
    | .product =>
      match number.div updatedValue originalValue with
      | some value => .ok (some (number.write value))
      | none => .error .undefinedBehaviour
    | .max => .ok (some (number.write updatedValue))
    | .min => .ok (some (number.write updatedValue))
    | _ => .error (.runtimeError "Can't calculate diff")

def applyDiffValue (original diff : List UInt8) (operation : SnapshotMergeOperation) :
    Except SnapshotError (List UInt8) :=
  let diffValue := number.read diff
  let originalValue := number.read original
  match operation with
  | .sum => .ok (number.write (number.add diffValue originalValue))
  | .subtract => .ok (number.write (number.sub originalValue diffValue))
  | .product => .ok (number.write (number.mul originalValue diffValue))
  | .max => .ok (number.write (if number.lt originalValue diffValue then diffValue else originalValue))
  | .min => .ok (number.write (if number.lt diffValue originalValue then diffValue else originalValue))
  | _ => .error (.runtimeError "Can't apply merge operation")

end Numbers

/-! ### Diffs of a copy -/

def hostPageSize : Nat := 4096

def arrayCompChunkSize : Nat := 128

/-- A diff before it is read: its data are the bytes of the updated copy at its offset, as they are
when the diff is read. -/
structure DiffSpan where
  dataType : SnapshotDataType
  operation : SnapshotMergeOperation
  offset : Nat
  length : Nat
deriving Repr, DecidableEq

def DiffSpan.read (updated : List UInt8) (span : DiffSpan) : SnapshotDiff where
  dataType := span.dataType
  operation := span.operation
  offset := span.offset
  data := (updated.drop span.offset).take span.length

structure DiffScan where
  diffStart : Nat := 0
  diffInProgress : Bool := false
  diffs : List DiffSpan
deriving Repr, DecidableEq

def DiffScan.close (s : DiffScan) (stop : Nat) : DiffScan :=
  if s.diffInProgress then
    { s with
      diffInProgress := false
      diffs := s.diffs ++ [⟨.raw, .bytewise, s.diffStart, stop - s.diffStart⟩] }
  else s

def DiffScan.byte (a b : List UInt8) (s : DiffScan) (c : Nat) : DiffScan :=
  if a[c]? = b[c]? then s.close c
  else if s.diffInProgress then s
  else { s with diffInProgress := true, diffStart := c }

def DiffScan.chunk (a b : List UInt8) (s : DiffScan) (i thisStep : Nat) : DiffScan :=
  if (a.drop i).take thisStep = (b.drop i).take thisStep then s.close i
  else (List.range' i thisStep).foldl (DiffScan.byte a b) s

def DiffScan.chunks (a b : List UInt8) (endOffset : Nat) : Nat → Nat → DiffScan → Except SnapshotError DiffScan
  | 0, i, s => if i < endOffset then .error .outOfFuel else .ok s
  | fuel + 1, i, s =>
    if i < endOffset then
      DiffScan.chunks a b endOffset fuel ((i + arrayCompChunkSize) % 2 ^ 32)
        (s.chunk a b i (Nat.min (endOffset - i) arrayCompChunkSize))
    else .ok s

def diffArrayRegions (diffs : List DiffSpan) (startOffset endOffset : Nat) (a b : List UInt8) :
    Except SnapshotError (List DiffSpan) := do
  let s ← DiffScan.chunks a b endOffset (endOffset - startOffset) startOffset { diffs }
  return (s.close endOffset).diffs

def getRequiredHostPages (nBytes : Nat) : Nat := (nBytes + hostPageSize - 1) / hostPageSize

def getRequiredHostPagesRoundDown (nBytes : Nat) : Nat := nBytes / hostPageSize

namespace SnapshotMergeRegion

def addPageDiffs (region : SnapshotMergeRegion) (mrEnd : Nat) (originalData : List UInt8)
    (state : List DiffSpan × List UInt8) (p : Nat) : Except SnapshotError (List DiffSpan × List UInt8) := do
  let (diffs, updatedData) := state
  let startByte := Nat.max region.offset (p * hostPageSize % 2 ^ 32)
  let endByte := Nat.min mrEnd ((p + 1) * hostPageSize % 2 ^ 32)
  if region.operation = .bytewise then
    let diffs ← diffArrayRegions diffs startByte endByte originalData updatedData
    return (diffs, updatedData)
  else
    let rangeSize := (endByte + 2 ^ 32 - startByte) % 2 ^ 32
    let xored := patch (fun byte original => original ^^^ byte) updatedData startByte
      ((originalData.drop startByte).take rangeSize)
    return (diffs ++ [⟨region.dataType, region.operation, startByte, rangeSize⟩], xored)

def addValueDiff {T : Type} (number : DiffNumber T) (region : SnapshotMergeRegion)
    (originalData : List UInt8) (diffs : List DiffSpan) (updatedData : List UInt8) :
    Except SnapshotError (List DiffSpan × List UInt8) := do
  let changed ← calculateDiffValue number (originalData.drop region.offset)
    (updatedData.drop region.offset) region.operation
  match changed with
  | none => return (diffs, updatedData)
  | some value =>
    return (diffs ++ [⟨region.dataType, region.operation, region.offset, region.length⟩],
      patch (fun _ byte => byte) updatedData region.offset value)

def mrEnd (region : SnapshotMergeRegion) (size : Nat) : Nat :=
  Nat.min (if 0 < region.length then (region.offset + region.length) % 2 ^ 32 else size % 2 ^ 32)
    (size % 2 ^ 32)

def firstPage (region : SnapshotMergeRegion) : Nat := getRequiredHostPagesRoundDown region.offset

def endPage (region : SnapshotMergeRegion) (size : Nat) : Nat := getRequiredHostPages (region.mrEnd size)

def addDiffs (region : SnapshotMergeRegion) (originalData : List UInt8) (dirtyRegions : List Bool)
    (state : List DiffSpan × List UInt8) : Except SnapshotError (List DiffSpan × List UInt8) := do
  if region.operation = .ignore then return state
  if originalData.length < region.offset then return state
  let mrEnd := region.mrEnd originalData.length
  let startPage := getRequiredHostPagesRoundDown region.offset
  let endPage := getRequiredHostPages mrEnd
  -- the flags are searched from the first page to the last
  if endPage < startPage ∨ dirtyRegions.length < endPage then throw .undefinedBehaviour
  if ((dirtyRegions.take endPage).drop startPage).all (!·) then return state
  if region.operation = .bytewise ∨ region.operation = .xor then
    ((List.range' startPage (endPage - startPage)).filter fun p => dirtyRegions[p]? = some true).foldlM
      (region.addPageDiffs mrEnd originalData) state
  else
    match region.dataType with
    | .int => region.addValueDiff (intNumber 4) originalData state.1 state.2
    | .long => region.addValueDiff (intNumber 8) originalData state.1 state.2
    | .float => region.addValueDiff floatNumber originalData state.1 state.2
    | .double => region.addValueDiff doubleNumber originalData state.1 state.2
    | _ => throw (.runtimeError "Unsupported merge op combination")

end SnapshotMergeRegion

/-! ### Snapshots -/

/-- A snapshot of `data.length` bytes. A tracked change is the offset of a write and its end. -/
structure SnapshotData where
  data : List UInt8
  maxSize : Nat
  queuedDiffs : List SnapshotDiff := []
  trackedChanges : List (Nat × Nat) := []
  mergeRegions : List SnapshotMergeRegion := []
deriving Repr, DecidableEq

namespace SnapshotData

def trackChange (s : SnapshotData) (offset regionEnd : Nat) : SnapshotData :=
  { s with trackedChanges := s.trackedChanges ++ [(offset, regionEnd % 2 ^ 32)] }

def writeData (s : SnapshotData) (buffer : List UInt8) (offset : Nat) : Except SnapshotError SnapshotData :=
  let regionEnd := offset + buffer.length
  if s.data.length < regionEnd ∧ s.maxSize < regionEnd then
    .error (.runtimeError "Copying snapshot data over max")
  else
    let extended := resize s.data (Nat.max s.data.length regionEnd) 0
    .ok ({ s with data := patch (fun _ byte => byte) extended offset buffer }.trackChange offset regionEnd)

def xorData (s : SnapshotData) (buffer : List UInt8) (offset : Nat) : Except SnapshotError SnapshotData :=
  let regionEnd := offset + buffer.length
  if s.data.length < regionEnd then .error (.runtimeError "XORing data exceeding size")
  else
    .ok ({ s with data := patch (fun byte other => other ^^^ byte) s.data offset buffer }.trackChange
      offset regionEnd)

def applyValueDiff {T : Type} (number : DiffNumber T) (s : SnapshotData) (diff : SnapshotDiff) :
    Except SnapshotError SnapshotData := do
  if s.data.length < diff.offset then throw (.runtimeError "Out of bounds snapshot access")
  let finalValue ← applyDiffValue number (s.data.drop diff.offset) diff.data diff.operation
  s.writeData finalValue diff.offset

def applyDiff (s : SnapshotData) (diff : SnapshotDiff) : Except SnapshotError SnapshotData :=
  match diff.operation with
  | .ignore => .ok s
  | .bytewise => s.writeData diff.data diff.offset
  | .xor => s.xorData diff.data diff.offset
  | _ =>
    match diff.dataType with
    | .int => s.applyValueDiff (intNumber 4) diff
    | .long => s.applyValueDiff (intNumber 8) diff
    | .float => s.applyValueDiff floatNumber diff
    | .double => s.applyValueDiff doubleNumber diff
    | _ =>
      if s.data.length < diff.offset then .error (.runtimeError "Out of bounds snapshot access")
      else .error (.runtimeError "Unsupported merge data type")

def applyDiffs (s : SnapshotData) (diffs : List SnapshotDiff) : Except SnapshotError SnapshotData :=
  diffs.foldlM applyDiff s

def applyUntilError : SnapshotData → List SnapshotDiff → SnapshotData
  | s, [] => s
  | s, diff :: diffs =>
    match s.applyDiff diff with
    | .ok s => s.applyUntilError diffs
    | .error _ => s

def queueDiffs (s : SnapshotData) (diffs : List SnapshotDiff) : SnapshotData :=
  { s with queuedDiffs := s.queuedDiffs ++ diffs }

def writeQueuedDiffs (s : SnapshotData) : Except SnapshotError SnapshotData := do
  let s' ← s.applyDiffs s.queuedDiffs
  return { s' with queuedDiffs := [] }

def addMergeRegion (s : SnapshotData) (region : SnapshotMergeRegion) : SnapshotData :=
  { s with mergeRegions := s.mergeRegions ++ [region] }

def clearMergeRegions (s : SnapshotData) : SnapshotData := { s with mergeRegions := [] }

def clearTrackedChanges (s : SnapshotData) : SnapshotData := { s with trackedChanges := [] }

def getTrackedChanges (s : SnapshotData) : List SnapshotDiff :=
  s.trackedChanges.map fun (regionBegin, regionEnd) =>
    { offset := regionBegin,
      data := (s.data.drop regionBegin).take ((regionEnd + 2 ^ 32 - regionBegin) % 2 ^ 32) }

def ofData (dataIn : List UInt8) (maxSizeIn : Nat) : Except SnapshotError SnapshotData :=
  let maxSize := if maxSizeIn = 0 then dataIn.length else maxSizeIn
  writeData { data := List.replicate dataIn.length 0, maxSize } dataIn 0

def sortRegions (regions : List SnapshotMergeRegion) : List SnapshotMergeRegion :=
  regions.mergeSort fun r r' => r.offset ≤ r'.offset

def fillGaps (fillType : SnapshotMergeOperation) :
    Nat → List SnapshotMergeRegion → List SnapshotMergeRegion × Nat
  | lastRegionEnd, [] => ([], lastRegionEnd)
  | lastRegionEnd, r :: regions =>
    if r.offset = 0 then fillGaps fillType (r.length % 2 ^ 32) regions
    else if r.offset = lastRegionEnd then
      fillGaps fillType ((lastRegionEnd + r.length) % 2 ^ 32) regions
    else
      let regionLen := (r.offset + 2 ^ 32 - lastRegionEnd) % 2 ^ 32
      let (gaps, last) := fillGaps fillType ((r.offset + r.length) % 2 ^ 32) regions
      (⟨lastRegionEnd, regionLen, .raw, fillType⟩ :: gaps, last)

def fillTypeOf (diffingMode : String) : Except SnapshotError SnapshotMergeOperation :=
  if diffingMode = "bytewise" then .ok .bytewise
  else if diffingMode = "xor" then .ok .xor
  else .error (.runtimeError "Unsupported diffing mode")

def fillGapsWith (s : SnapshotData) (fillType : SnapshotMergeOperation) : SnapshotData :=
  if s.mergeRegions.isEmpty then s.addMergeRegion ⟨0, 0, .raw, fillType⟩
  else
    let (gaps, lastRegionEnd) := fillGaps fillType 0 (sortRegions s.mergeRegions)
    let filled := { s with mergeRegions := s.mergeRegions ++ gaps }
    if lastRegionEnd < s.data.length then filled.addMergeRegion ⟨lastRegionEnd, 0, .raw, fillType⟩
    else filled

def fillGapsWithBytewiseRegions (s : SnapshotData) (diffingMode : String) :
    Except SnapshotError SnapshotData := do
  let fillType ← fillTypeOf diffingMode
  return s.fillGapsWith fillType

/-- The diffs of an updated copy, and the snapshot, whose regions are left sorted. The diffs read
the copy after every region has been looked at. -/
def diffWithDirtyRegions (s : SnapshotData) (updated : List UInt8) (dirtyRegions : List Bool) :
    Except SnapshotError (List SnapshotDiff × SnapshotData) := do
  let size := s.data.length
  let extension : List DiffSpan :=
    if size < updated.length then [⟨.raw, .bytewise, size % 2 ^ 32, updated.length - size⟩] else []
  if dirtyRegions.all (!·) then return (extension.map (DiffSpan.read updated), s)
  if s.mergeRegions.isEmpty then return (extension.map (DiffSpan.read updated), s)
  let sorted := { s with mergeRegions := sortRegions s.mergeRegions }
  -- `updated.subspan(0, size)`
  if updated.length < size then throw .undefinedBehaviour
  let (diffs, updatedOverlap) ← sorted.mergeRegions.foldlM
    (fun state region => region.addDiffs s.data dirtyRegions state) (extension, updated.take size)
  return (diffs.map (DiffSpan.read (updatedOverlap ++ updated.drop size)), sorted)

end SnapshotData

end Faabric
