import Faabric.Util.DeltaSafety

/-! A delta that `serializeDelta` writes, applied to the old data. The bytes spell a list of
writes, and the writes are followed byte by byte. -/

namespace Faabric

open Bytes

structure DeltaWrite where
  xorWithOld : Bool
  offset : Nat
  data : List UInt8

namespace DeltaWrite

def encode (w : DeltaWrite) : List UInt8 :=
  encodeRegion (if w.xorWithOld then deltacmdDeltaXor else deltacmdDeltaOverwrite) w.offset w.data.length
    w.data

def apply (data : List UInt8) (w : DeltaWrite) : List UInt8 :=
  patch (if w.xorWithOld then fun byte new => new ^^^ byte else fun _ new => new) data w.offset w.data

def Within (size : Nat) (w : DeltaWrite) : Prop :=
  w.offset + w.data.length ≤ size ∧ size < 2 ^ 32

end DeltaWrite

def applyWrites (data : List UInt8) (writes : List DeltaWrite) : List UInt8 :=
  writes.foldl DeltaWrite.apply data

@[simp] theorem DeltaWrite.length_apply (data : List UInt8) (w : DeltaWrite) :
    (w.apply data).length = data.length := by
  simp [DeltaWrite.apply]

@[simp] theorem length_applyWrites (data : List UInt8) (writes : List DeltaWrite) :
    (applyWrites data writes).length = data.length := by
  induction writes generalizing data with
  | nil => rfl
  | cons w writes ih => exact (ih (w.apply data)).trans (w.length_apply data)

theorem applyWrites_append (data : List UInt8) (writes writes' : List DeltaWrite) :
    applyWrites data (writes ++ writes') = applyWrites (applyWrites data writes) writes' := by
  simp [applyWrites, List.foldl_append]

section Reading

theorem readSpan_prefix (pre bytes rest : List UInt8) :
    readSpan (pre ++ (bytes ++ rest)) pre.length bytes.length = .ok bytes := by
  rw [readSpan_of_le (by simp)]
  simp

theorem readBytesOf_prefix (pre rest : List UInt8) {width value : Nat} (hwidth : 0 < width)
    (hvalue : value < 256 ^ width) :
    readBytesOf (pre ++ (le width value ++ rest)) width pre.length = .ok (value, pre.length + width) := by
  have hspan := readSpan_prefix pre (le width value) rest
  rw [length_le] at hspan
  have hin : ¬((pre ++ (le width value ++ rest)).length ≤ pre.length ∨
      (pre ++ (le width value ++ rest)).length < pre.length + width) := by
    simp only [List.length_append, length_le]
    omega
  rw [readBytesOf, if_neg hin, hspan]
  simp only [bind, Except.bind, pure, Except.pure, ofLe_le hvalue]

theorem readRegion_prefix (pre rest data : List UInt8) (outOfRange : String) {offset : Nat}
    (hoffset : offset < 2 ^ 32) (hdata : data.length < 2 ^ 32) :
    readRegion (pre ++ (le 4 offset ++ (le 4 data.length ++ (data ++ rest)))) outOfRange pre.length =
      .ok (offset, data, pre.length + 8 + data.length) := by
  have hfirst := readBytesOf_prefix pre (le 4 data.length ++ (data ++ rest)) (by decide)
    (show offset < 256 ^ 4 by omega)
  have hsecond := readBytesOf_prefix (pre ++ le 4 offset) (data ++ rest) (by decide)
    (show data.length < 256 ^ 4 by omega)
  have hthird := readSpan_prefix (pre ++ le 4 offset ++ le 4 data.length) data rest
  simp only [List.append_assoc, List.length_append, length_le] at hsecond hthird
  have hin : ¬(pre ++ (le 4 offset ++ (le 4 data.length ++ (data ++ rest)))).length <
      pre.length + 4 + 4 + data.length := by
    simp only [List.length_append, length_le]
    omega
  simp only [readRegion, hfirst, hsecond, bind, Except.bind, if_neg hin]
  rw [Nat.add_assoc pre.length 4 4] at *
  simp only [hthird]
  rfl

theorem readCommand_prefix (pre rest : List UInt8) {w : DeltaWrite} (hoffset : w.offset < 2 ^ 32)
    (hdata : w.data.length < 2 ^ 32) :
    ∃ cmd, (pre ++ (w.encode ++ rest))[pre.length]? = some cmd ∧
      readCommand (pre ++ (w.encode ++ rest)) cmd (pre.length + 1) =
        .ok (if w.xorWithOld then .deltaXor w.offset w.data else .deltaOverwrite w.offset w.data,
          (pre ++ w.encode).length) := by
  rcases w with ⟨xorWithOld, offset, data⟩
  have hlen : ∀ cmd, (pre ++ encodeRegion cmd offset data.length data).length =
      pre.length + 1 + 8 + data.length := by
    intro cmd
    simp only [encodeRegion, List.length_append, List.length_cons, length_le]
    omega
  have hregion : ∀ cmd outOfRange, readRegion
      (pre ++ (encodeRegion cmd offset data.length data ++ rest)) outOfRange (pre.length + 1) =
        .ok (offset, data, pre.length + 1 + 8 + data.length) := by
    intro cmd outOfRange
    have hread := readRegion_prefix (pre ++ [cmd]) rest data outOfRange hoffset hdata
    simpa [encodeRegion] using hread
  cases xorWithOld with
  | true =>
    refine ⟨deltacmdDeltaXor, by simp [DeltaWrite.encode, encodeRegion], ?_⟩
    simp only [DeltaWrite.encode, if_true, hlen]
    simp only [readCommand, deltacmdDeltaXor, deltacmdTotalSize, deltacmdZstdCompressedCommands,
      deltacmdDeltaOverwrite]
    simp [hregion, bind, Except.bind, pure, Except.pure]
  | false =>
    refine ⟨deltacmdDeltaOverwrite, by simp [DeltaWrite.encode, encodeRegion], ?_⟩
    simp only [DeltaWrite.encode, Bool.false_eq_true, if_false, hlen]
    simp only [readCommand, deltacmdTotalSize, deltacmdZstdCompressedCommands, deltacmdDeltaOverwrite]
    simp [hregion, bind, Except.bind, pure, Except.pure]

end Reading

section Applying

variable {zstd : Zstd} {nested : List UInt8 → DeltaTarget → Except (DeltaError × DeltaTarget) DeltaTarget}
  {size : Nat}

theorem applyCommand_write {delta data : List UInt8} {stray : Bool} {w : DeltaWrite}
    (hw : w.Within size) (hdata : data.length = size) :
    applyCommand memorySink zstd nested delta ⟨data, some size, stray⟩
      (if w.xorWithOld then .deltaXor w.offset w.data else .deltaOverwrite w.offset w.data) =
        .ok ⟨w.apply data, some size, stray⟩ := by
  have hin : w.offset + w.data.length ≤ data.length := hdata ▸ hw.1
  cases hx : w.xorWithOld with
  | true => simp [applyCommand, DeltaSink.writeAt, memorySink, hin, hw.1, DeltaWrite.apply, hx]
  | false => simp [applyCommand, DeltaSink.writeAt, memorySink, hin, hw.1, DeltaWrite.apply, hx]

theorem applyCommands_last (pre : List UInt8) (fuel : Nat) (target : DeltaTarget) :
    applyCommands memorySink zstd nested (pre ++ [deltacmdEnd]) (fuel + 1) pre.length target =
      .ok target := by
  have hread : readCommand (pre ++ [deltacmdEnd]) deltacmdEnd (pre.length + 1) =
      .ok (.deltaEnd, (pre ++ [deltacmdEnd]).length) := rfl
  rw [applyCommands_command (by simp) hread]
  exact applyCommands_end (by simp)

theorem applyCommands_writes {writes : List DeltaWrite} (hw : ∀ w ∈ writes, w.Within size)
    (pre : List UInt8) {data : List UInt8} (hdata : data.length = size) (stray : Bool) {fuel : Nat}
    (hfuel : writes.length < fuel) :
    applyCommands memorySink zstd nested (pre ++ (writes.flatMap DeltaWrite.encode ++ [deltacmdEnd]))
      fuel pre.length ⟨data, some size, stray⟩ = .ok ⟨applyWrites data writes, some size, stray⟩ := by
  induction writes generalizing pre data fuel with
  | nil =>
    obtain ⟨fuel, rfl⟩ : ∃ n, fuel = n + 1 := ⟨fuel - 1, by simp at hfuel; omega⟩
    exact applyCommands_last pre fuel _
  | cons w writes ih =>
    obtain ⟨fuel, rfl⟩ : ∃ n, fuel = n + 1 := ⟨fuel - 1, by omega⟩
    have hwithin := hw w (by simp)
    have hsmall : w.offset < 2 ^ 32 ∧ w.data.length < 2 ^ 32 := by
      have := hwithin.1
      have := hwithin.2
      omega
    simp only [List.flatMap_cons, List.append_assoc]
    obtain ⟨cmd, hcmd, hread⟩ := readCommand_prefix pre
      (writes.flatMap DeltaWrite.encode ++ [deltacmdEnd]) hsmall.1 hsmall.2
    rw [applyCommands_command hcmd hread, applyCommand_write hwithin hdata]
    have hrest := ih (fun v hv => hw v (by simp [hv])) (pre ++ w.encode)
      ((w.length_apply data).trans hdata) (by simpa using hfuel)
    rw [List.append_assoc] at hrest
    exact hrest

theorem length_le_flatMap_encode (writes : List DeltaWrite) :
    writes.length ≤ (writes.flatMap DeltaWrite.encode).length := by
  induction writes with
  | nil => simp
  | cons w writes ih =>
    simp only [List.flatMap_cons, List.length_append, List.length_cons, DeltaWrite.encode, encodeRegion]
    omega

def deltaCommands (size : Nat) (writes : List DeltaWrite) : List UInt8 :=
  deltaProtocolVersion :: deltacmdTotalSize ::
    (le 4 size ++ (writes.flatMap DeltaWrite.encode ++ [deltacmdEnd]))

theorem applyDelta_deltaCommands (zstd : Zstd) (depth : Nat) {writes : List DeltaWrite}
    (hw : ∀ w ∈ writes, w.Within size) (hsize : size < 2 ^ 32) (oldData : List UInt8) :
    applyDelta memorySink zstd (depth + 1) (deltaCommands size writes) { data := oldData } =
      .ok ⟨applyWrites (resize oldData size 0) writes, some size, false⟩ := by
  have hlong := length_le_flatMap_encode writes
  have hlen : (deltaCommands size writes).length = (writes.flatMap DeltaWrite.encode).length + 7 := by
    simp only [deltaCommands, List.length_cons, List.length_append, length_le, List.length_nil]
    omega
  obtain ⟨fuel, hfuel⟩ : ∃ n, (deltaCommands size writes).length = n + 1 := ⟨_, hlen⟩
  have hcmd : (deltaCommands size writes)[1]? = some deltacmdTotalSize := rfl
  have hword := readBytesOf_prefix [deltaProtocolVersion, deltacmdTotalSize]
    (writes.flatMap DeltaWrite.encode ++ [deltacmdEnd]) (by decide) (show size < 256 ^ 4 by omega)
  have hread : readCommand (deltaCommands size writes) deltacmdTotalSize 2 = .ok (.totalSize size, 6) := by
    simp only [readCommand, if_true]
    have hword' : readBytesOf (deltaCommands size writes) 4 2 = .ok (size, 6) := hword
    rw [hword']
    rfl
  have hrun := @applyCommands_writes zstd (applyDelta memorySink zstd depth) size writes hw
    (deltaProtocolVersion :: deltacmdTotalSize :: le 4 size) (resize oldData size 0)
    (length_resize oldData size 0) false fuel (by omega)
  rw [applyDelta, if_neg (by omega), if_neg (by simp [deltaCommands]), hfuel,
    applyCommands_command hcmd hread]
  simp only [List.length_cons, length_le] at hrun
  exact hrun

def compressedDelta (decompressedSize : Nat) (compressed : List UInt8) : List UInt8 :=
  deltaProtocolVersion :: deltacmdZstdCompressedCommands ::
    (le 8 compressed.length ++ (le 8 decompressedSize ++ (compressed ++ [deltacmdEnd])))

theorem compressedDelta_eq (decompressedSize : Nat) (compressed : List UInt8) :
    compressedDelta decompressedSize compressed = deltaProtocolVersion :: deltacmdZstdCompressedCommands ::
      (le 8 compressed.length ++ (le 8 decompressedSize ++ compressed)) ++ [deltacmdEnd] := by
  simp [compressedDelta]

theorem readCommand_compressedDelta {decompressedSize : Nat} {compressed : List UInt8}
    (hsize : decompressedSize < 2 ^ 64) (hcompressed : compressed.length + 19 < 2 ^ 64) :
    readCommand (compressedDelta decompressedSize compressed) deltacmdZstdCompressedCommands 2 =
      .ok (.zstdCompressedCommands 18 compressed.length decompressedSize, 18 + compressed.length) := by
  have hfirst : readBytesOf (compressedDelta decompressedSize compressed) 8 2 =
      .ok (compressed.length, 10) :=
    readBytesOf_prefix [deltaProtocolVersion, deltacmdZstdCompressedCommands] _ (by decide)
      (show compressed.length < 256 ^ 8 by omega)
  have hsecond : readBytesOf (compressedDelta decompressedSize compressed) 8 10 =
      .ok (decompressedSize, 18) :=
    readBytesOf_prefix (deltaProtocolVersion :: deltacmdZstdCompressedCommands :: le 8 compressed.length)
      (compressed ++ [deltacmdEnd]) (by decide) (show decompressedSize < 256 ^ 8 by omega)
  have hmod : (18 + compressed.length) % 2 ^ 64 = 18 + compressed.length :=
    Nat.mod_eq_of_lt (by omega)
  have hin : ¬(compressedDelta decompressedSize compressed).length < 18 + compressed.length := by
    simp only [compressedDelta, List.length_cons, List.length_append, length_le]
    omega
  simp only [readCommand, deltacmdZstdCompressedCommands, deltacmdTotalSize, hfirst, hsecond, hmod,
    bind, Except.bind, if_neg hin]
  rfl

theorem applyDelta_compressedDelta {zstd : Zstd} {depth : Nat} {outb compressed : List UInt8}
    {target target' : DeltaTarget} (houtb : outb.length < 2 ^ 63)
    (hcompressed : compressed.length + 19 < 2 ^ 64)
    (hzstd : zstd.decompress compressed outb.length = .ok outb)
    (hrun : applyDelta memorySink zstd depth outb target = .ok target') :
    applyDelta memorySink zstd (depth + 1) (compressedDelta outb.length compressed) target =
      .ok target' := by
  have hlen : (compressedDelta outb.length compressed).length = compressed.length + 17 + 1 + 1 := by
    simp only [compressedDelta, List.length_cons, List.length_append, length_le, List.length_nil]
    omega
  have hspan := readSpan_prefix
    (deltaProtocolVersion :: deltacmdZstdCompressedCommands ::
      (le 8 compressed.length ++ le 8 outb.length)) compressed [deltacmdEnd]
  have hblock : applyCommand memorySink zstd (applyDelta memorySink zstd depth)
      (compressedDelta outb.length compressed) target
      (.zstdCompressedCommands 18 compressed.length outb.length) = .ok target' := by
    simp only [List.length_cons, List.length_append, length_le, List.cons_append, List.append_assoc]
      at hspan
    simp only [applyCommand, if_neg (Nat.not_le.mpr houtb), compressedDelta, hspan, hzstd, ne_eq,
      not_true_eq_false, if_false, hrun]
  have hlast := @applyCommands_last zstd (applyDelta memorySink zstd depth)
    (deltaProtocolVersion :: deltacmdZstdCompressedCommands ::
      (le 8 compressed.length ++ (le 8 outb.length ++ compressed))) (compressed.length + 17) target'
  rw [← compressedDelta_eq] at hlast
  rw [applyDelta, if_neg (by omega), if_neg (by simp [compressedDelta]), hlen,
    applyCommands_command rfl (readCommand_compressedDelta (by omega) hcompressed), hblock]
  simp only [List.length_cons, List.length_append, length_le] at hlast
  rwa [show 8 + (8 + compressed.length) + 1 + 1 = 18 + compressed.length by omega] at hlast

end Applying

section Writing

variable {cfg : DeltaSettings} {oldData newData bytes : List UInt8} {start stop : Nat}
  {want : Nat → Option UInt8}

theorem getElem?_span {length i : Nat} (bytes : List UInt8) (hlo : start ≤ i) (hhi : i < start + length) :
    ((bytes.drop start).take length)[i - start]? = bytes[i]? := by
  have hlt : i - start < length := by omega
  rw [List.getElem?_take_of_lt hlt, List.getElem?_drop, Nat.add_sub_cancel' hlo]

/-- The bytes spell writes that put what is wanted at the places `[start, stop)` of a buffer that
has the resized old data there. -/
def Spells (oldData newData bytes : List UInt8) (start stop : Nat) (want : Nat → Option UInt8) : Prop :=
  ∃ writes : List DeltaWrite, bytes = writes.flatMap DeltaWrite.encode ∧
    (∀ w ∈ writes, w.Within newData.length) ∧ bytes.length ≤ 10 * (stop - start) ∧
    ∀ data : List UInt8, data.length = newData.length →
      (∀ i, start ≤ i → i < stop → data[i]? = (resize oldData newData.length 0)[i]?) →
      ∀ i, (applyWrites data writes)[i]? = if start ≤ i ∧ i < stop then want i else data[i]?

theorem Spells.nil (h : ∀ i, start ≤ i → i < stop → (resize oldData newData.length 0)[i]? = want i) :
    Spells oldData newData [] start stop want := by
  refine ⟨[], rfl, by simp, by simp, fun data _ hbase i => ?_⟩
  split_ifs with hi
  · exact (hbase i hi.1 hi.2).trans (h i hi.1 hi.2)
  · rfl

theorem Spells.congr {want' : Nat → Option UInt8} (h : Spells oldData newData bytes start stop want)
    (heq : ∀ i, start ≤ i → i < stop → want i = want' i) : Spells oldData newData bytes start stop want' := by
  obtain ⟨writes, hbytes, hw, hlen, heffect⟩ := h
  refine ⟨writes, hbytes, hw, hlen, fun data hdata hbase i => ?_⟩
  rw [heffect data hdata hbase]
  split_ifs with hi
  · exact heq i hi.1 hi.2
  · rfl

theorem Spells.append {bytes' : List UInt8} {mid : Nat} (hlo : start ≤ mid) (hhi : mid ≤ stop)
    (h : Spells oldData newData bytes start mid want) (h' : Spells oldData newData bytes' mid stop want) :
    Spells oldData newData (bytes ++ bytes') start stop want := by
  obtain ⟨writes, rfl, hw, hlen, heffect⟩ := h
  obtain ⟨writes', rfl, hw', hlen', heffect'⟩ := h'
  refine ⟨writes ++ writes', by simp, List.forall_mem_append.mpr ⟨hw, hw'⟩,
    by simp only [List.length_append]; omega, fun data hdata hbase i => ?_⟩
  have hfirst := heffect data hdata fun j hj hj' => hbase j hj (by omega)
  rw [applyWrites_append, heffect' _ (by simpa using hdata), hfirst]
  · split_ifs <;> first | rfl | omega
  · intro j hj hj'
    rw [hfirst, if_neg (by omega)]
    exact hbase j (by omega) hj'

theorem Spells.write {length : Nat} {w : DeltaWrite} (hlength : 0 < length)
    (hnew : start + length ≤ newData.length) (hsize : newData.length < 2 ^ 32) (hoffset : w.offset = start)
    (hdata : w.data.length = length) (hbytes : ∀ data : List UInt8, data.length = newData.length →
      (∀ i, start ≤ i → i < start + length → data[i]? = (resize oldData newData.length 0)[i]?) →
      ∀ i, start ≤ i → i < start + length → (w.apply data)[i]? = newData[i]?) :
    Spells oldData newData w.encode start (start + length) (newData[·]?) := by
  refine ⟨[w], by simp, List.forall_mem_singleton.mpr ⟨by omega, hsize⟩, ?_, fun data hlen hbase i => ?_⟩
  · simp only [DeltaWrite.encode, encodeRegion, List.length_cons, List.length_append, length_le]
    omega
  · split_ifs with hi
    · exact hbytes data hlen hbase i hi.1 hi.2
    · exact getElem?_patch_outside _ data (by omega)

theorem encodeNewRegion_spec {newLength : Nat} (hnew : start + newLength ≤ newData.length)
    (hsize : newData.length < 2 ^ 32) :
    ∃ bytes, encodeNewRegion newData start newLength = .ok bytes ∧
      Spells oldData newData bytes start (start + newLength) (newData[·]?) := by
  by_cases hzero : newLength = 0
  · exact ⟨[], by simp [encodeNewRegion, hzero, pure, Except.pure], .nil fun i _ _ => by omega⟩
  have hspan : ((newData.drop start).take newLength).length = newLength := by
    simp only [List.length_take, List.length_drop]
    omega
  refine ⟨(DeltaWrite.mk false start ((newData.drop start).take newLength)).encode, ?_,
    Spells.write (by omega) hnew hsize rfl hspan ?_⟩
  · simp only [encodeNewRegion, if_neg hzero, readSpan_of_le hnew, DeltaWrite.encode, hspan]
    rfl
  · intro data hlen hbase i hlo hhi
    have hbyte := List.getElem?_eq_getElem (show i < data.length by omega)
    have hnew' := List.getElem?_eq_getElem (show i < newData.length by omega)
    rw [hnew']
    exact getElem?_patch_inside _ hlo hbyte ((getElem?_span newData hlo hhi).trans hnew')

theorem encodeChangedRegion_spec {newLength : Nat} (hold : start + newLength ≤ oldData.length)
    (hnew : start + newLength ≤ newData.length) (hsize : newData.length < 2 ^ 32) :
    ∃ bytes, encodeChangedRegion cfg oldData newData start newLength = .ok bytes ∧
      Spells oldData newData bytes start (start + newLength) (newData[·]?) := by
  by_cases hzero : newLength = 0
  · exact ⟨[], by simp [encodeChangedRegion, hzero, pure, Except.pure], .nil fun i _ _ => by omega⟩
  cases hxor : cfg.xorWithOld with
  | false =>
    obtain ⟨bytes, hok, hspells⟩ := @encodeNewRegion_spec oldData newData start newLength hnew hsize
    refine ⟨bytes, ?_, hspells⟩
    rw [← hok]
    simp [encodeChangedRegion, encodeNewRegion, hxor]
  | true =>
    have hspan : (List.zipWith (· ^^^ ·) ((oldData.drop start).take newLength)
        ((newData.drop start).take newLength)).length = newLength := by
      simp only [List.length_zipWith, List.length_take, List.length_drop]
      omega
    refine ⟨(DeltaWrite.mk true start (List.zipWith (· ^^^ ·)
      ((oldData.drop start).take newLength) ((newData.drop start).take newLength))).encode, ?_,
      Spells.write (by omega) hnew hsize rfl hspan ?_⟩
    · simp only [encodeChangedRegion, if_neg hzero, readSpan_of_le hnew, readSpan_of_le hold, hxor,
        DeltaWrite.encode, hspan]
      rfl
    · intro data hlen hbase i hlo hhi
      have hnew' := List.getElem?_eq_getElem (show i < newData.length by omega)
      have hold' := List.getElem?_eq_getElem (show i < oldData.length by omega)
      have hbyte : data[i]? = some oldData[i] := by
        rw [hbase i hlo hhi, getElem?_resize, if_pos (by omega), hold', Option.getD_some]
      have hxored : (List.zipWith (· ^^^ ·) ((oldData.drop start).take newLength)
          ((newData.drop start).take newLength))[i - start]? = some (oldData[i] ^^^ newData[i]) := by
        simp only [List.getElem?_zipWith, getElem?_span _ hlo hhi, hold', hnew']
      rw [hnew']
      refine (getElem?_patch_inside _ hlo hbyte hxored).trans ?_
      simp [UInt8.xor_comm oldData[i]]

def PageSkipped (pageSize : Nat) (oldData newData : List UInt8) (pageStart : Nat) : Prop :=
  (pageStart + pageSize ≤ newData.length ∧ pageStart + pageSize ≤ oldData.length ∧
    (newData.drop pageStart).take pageSize = oldData.take pageSize) ∨
  (oldData.length ≤ pageStart ∧ ∀ byte ∈ (newData.take (pageStart + pageSize)).drop pageStart, byte = 0)

instance (pageSize : Nat) (oldData newData : List UInt8) (pageStart : Nat) :
    Decidable (PageSkipped pageSize oldData newData pageStart) :=
  inferInstanceAs (Decidable (_ ∨ _))

/-- The new page is all zero and cut by the end of the new data, where `std::any_of` reads on. -/
def ReadsPastEnd (pageSize : Nat) (oldData newData : List UInt8) (pageStart : Nat) : Prop :=
  oldData.length ≤ pageStart ∧ newData.length < pageStart + pageSize ∧
    ∀ byte ∈ newData.drop pageStart, byte = 0

variable {pageStart : Nat}

theorem encodePage_both (hpage : 0 < cfg.pageSize) (hnew : pageStart + cfg.pageSize ≤ newData.length)
    (hold : pageStart + cfg.pageSize ≤ oldData.length) :
    encodePage cfg oldData newData pageStart =
      if (newData.drop pageStart).take cfg.pageSize = oldData.take cfg.pageSize then .ok []
      else encodeChangedRegion cfg oldData newData pageStart cfg.pageSize := by
  have hin : pageStart < oldData.length := by omega
  have hfirst := readSpan_of_le (show 0 + cfg.pageSize ≤ oldData.length by omega)
  simp only [encodePage, hin, hnew, hold, and_self, if_true, readSpan_of_le hnew, hfirst, List.drop_zero,
    bind, Except.bind, ne_eq, ite_not]
  rfl

theorem encodePage_new (hnew : oldData.length ≤ pageStart) :
    encodePage cfg oldData newData pageStart =
      if ∀ byte ∈ (newData.take (pageStart + cfg.pageSize)).drop pageStart, byte = 0 then
        if pageStart + cfg.pageSize ≤ newData.length then .ok [] else .error .undefinedBehaviour
      else encodeNewRegion newData pageStart (min (pageStart + cfg.pageSize) newData.length - pageStart) := by
  have hout : ¬pageStart < oldData.length := by omega
  have hany : ((newData.take (pageStart + cfg.pageSize)).drop pageStart).any (· ≠ 0) = true ↔
      ¬∀ byte ∈ (newData.take (pageStart + cfg.pageSize)).drop pageStart, byte = 0 := by
    simp [List.any_eq_true]
  simp only [encodePage, hout, false_and, if_false, not_false_eq_true, if_true, anyNonZero, hany, ite_not]
  split_ifs <;> rfl

theorem encodePage_readsPastEnd (h : ReadsPastEnd cfg.pageSize oldData newData pageStart) :
    encodePage cfg oldData newData pageStart = .error .undefinedBehaviour := by
  obtain ⟨hold, hcut, hzero⟩ := h
  have htake : newData.take (pageStart + cfg.pageSize) = newData := List.take_of_length_le hcut.le
  rw [encodePage_new hold, htake, if_pos hzero, if_neg (by omega)]

theorem encodePage_spec (hpage : 0 < cfg.pageSize) (hstart : pageStart < newData.length)
    (hsize : newData.length < 2 ^ 32) (hread : ¬ReadsPastEnd cfg.pageSize oldData newData pageStart) :
    ∃ bytes, encodePage cfg oldData newData pageStart = .ok bytes ∧
      Spells oldData newData bytes pageStart (min (pageStart + cfg.pageSize) newData.length)
        fun i => if PageSkipped cfg.pageSize oldData newData pageStart then
          (resize oldData newData.length 0)[i]? else newData[i]? := by
  by_cases hskip : PageSkipped cfg.pageSize oldData newData pageStart
  · refine ⟨[], ?_, .nil fun i _ _ => (if_pos hskip).symm⟩
    rcases hskip with ⟨hnew, hold, hsame⟩ | ⟨hold, hzero⟩
    · rw [encodePage_both hpage hnew hold, if_pos hsame]
    · rw [encodePage_new hold, if_pos hzero, if_pos]
      by_contra hcut
      rw [List.take_of_length_le (by omega)] at hzero
      exact hread ⟨hold, by omega, hzero⟩
  simp only [if_neg hskip]
  have hregion := @encodeNewRegion_spec oldData newData pageStart
    (min (pageStart + cfg.pageSize) newData.length - pageStart) (by omega) hsize
  rw [show pageStart + (min (pageStart + cfg.pageSize) newData.length - pageStart) =
    min (pageStart + cfg.pageSize) newData.length by omega] at hregion
  by_cases hnew : oldData.length ≤ pageStart
  · rwa [encodePage_new hnew, if_neg fun hzero => hskip (.inr ⟨hnew, hzero⟩)]
  by_cases hboth : pageStart + cfg.pageSize ≤ newData.length ∧ pageStart + cfg.pageSize ≤ oldData.length
  · rw [encodePage_both hpage hboth.1 hboth.2, Nat.min_eq_left hboth.1,
      if_neg fun hsame => hskip (.inl ⟨hboth.1, hboth.2, hsame⟩)]
    exact encodeChangedRegion_spec hboth.2 hboth.1 hsize
  · have hin : pageStart < oldData.length := by omega
    simpa only [encodePage, hin, hboth, and_false, if_false, not_true_eq_false] using hregion

/-- The bytes after the writes: those of the skipped pages are left as they were. -/
def pagedByte (pageSize : Nat) (oldData newData : List UInt8) (i : Nat) : Option UInt8 :=
  if PageSkipped pageSize oldData newData (i / pageSize * pageSize) then
    (resize oldData newData.length 0)[i]? else newData[i]?

theorem encodePages_spec (hpage : 0 < cfg.pageSize) (hsize : newData.length < 2 ^ 32) {fuel page : Nat}
    (hfuel : newData.length ≤ page * cfg.pageSize + fuel)
    (hread : ∀ later, page ≤ later → later * cfg.pageSize < newData.length →
      ¬ReadsPastEnd cfg.pageSize oldData newData (later * cfg.pageSize)) :
    ∃ bytes, encodePages cfg oldData newData fuel (page * cfg.pageSize) = .ok bytes ∧
      Spells oldData newData bytes (min (page * cfg.pageSize) newData.length) newData.length
        (pagedByte cfg.pageSize oldData newData) := by
  induction fuel generalizing page with
  | zero =>
    have hend : ¬page * cfg.pageSize < newData.length := by omega
    exact ⟨[], by simp [encodePages, hend], .nil fun i _ _ => by omega⟩
  | succ fuel ih =>
    by_cases hstart : page * cfg.pageSize < newData.length
    · obtain ⟨bytes, hok, hspells⟩ := encodePage_spec hpage hstart hsize (hread page le_rfl hstart)
      have hnext : (page + 1) * cfg.pageSize = page * cfg.pageSize + cfg.pageSize := by ring
      obtain ⟨rest, hrest, hspells'⟩ := @ih (page + 1) (by omega)
        fun later hlater => hread later (by omega)
      rw [hnext] at hrest hspells'
      refine ⟨bytes ++ rest, ?_, ?_⟩
      · simp only [encodePages, if_pos hstart, hok, hrest, bind, Except.bind]
        rfl
      · rw [Nat.min_eq_left hstart.le]
        refine (hspells.congr fun i hlo hhi => ?_).append (by omega) (by omega) hspells'
        rw [pagedByte, Nat.div_eq_of_lt_le hlo (by omega)]
    · exact ⟨[], by simp [encodePages, hstart], .nil fun i _ _ => by omega⟩

theorem encodePages_readsPastEnd {fuel page later : Nat} (hlater : page ≤ later)
    (hstart : later * cfg.pageSize < newData.length)
    (h : ReadsPastEnd cfg.pageSize oldData newData (later * cfg.pageSize)) (bytes : List UInt8) :
    encodePages cfg oldData newData fuel (page * cfg.pageSize) ≠ .ok bytes := by
  have hle : page * cfg.pageSize ≤ later * cfg.pageSize := Nat.mul_le_mul_right _ hlater
  induction fuel generalizing page bytes with
  | zero => simp [encodePages, show page * cfg.pageSize < newData.length by omega]
  | succ fuel ih =>
    simp only [encodePages, show page * cfg.pageSize < newData.length by omega, if_true]
    rcases hlater.eq_or_lt with rfl | hlt
    · rw [encodePage_readsPastEnd h]
      simp [bind, Except.bind]
    · have hrest := fun tail => @ih (page + 1) hlt tail (Nat.mul_le_mul_right _ hlt)
      rw [show (page + 1) * cfg.pageSize = page * cfg.pageSize + cfg.pageSize by ring] at hrest
      rcases encodePage cfg oldData newData (page * cfg.pageSize) with error | head
      · simp [bind, Except.bind]
      · rcases hall : encodePages cfg oldData newData fuel (page * cfg.pageSize + cfg.pageSize) with
          error | tail
        · simp [bind, Except.bind]
        · exact absurd hall (hrest tail)

theorem encodeWhole_spec (hsize : newData.length < 2 ^ 32) :
    ∃ bytes, encodeWhole cfg oldData newData = .ok bytes ∧
      Spells oldData newData bytes 0 newData.length (newData[·]?) := by
  by_cases hlong : oldData.length ≤ newData.length
  · obtain ⟨changed, hchanged, hspells⟩ := @encodeChangedRegion_spec cfg oldData newData 0 oldData.length
      (by omega) (by omega) hsize
    obtain ⟨new, hnew, hspells'⟩ := @encodeNewRegion_spec oldData newData oldData.length
      (newData.length - oldData.length) (by omega) hsize
    rw [Nat.zero_add] at hspells
    rw [Nat.add_sub_cancel' hlong] at hspells'
    refine ⟨changed ++ new, ?_, hspells.append (by omega) hlong hspells'⟩
    simp only [encodeWhole, if_pos hlong, hchanged, hnew, bind, Except.bind]
    rfl
  · obtain ⟨changed, hchanged, hspells⟩ := @encodeChangedRegion_spec cfg oldData newData 0 newData.length
      (by omega) (by omega) hsize
    rw [Nat.zero_add] at hspells
    refine ⟨changed, ?_, hspells⟩
    simp only [encodeWhole, if_neg hlong, hchanged]

end Writing

/-- What is compressed can be decompressed, and as long as it is not too long for a vector its
compressed form is not. -/
def Zstd.Lossless (zstd : Zstd) : Prop :=
  ∀ (data : List UInt8) (level : Int), data.length < 2 ^ 62 → ∃ compressed,
    zstd.compress data level = .ok compressed ∧ zstd.decompress compressed data.length = .ok data ∧
      compressed.length + 19 < 2 ^ 63

/-- A page of both buffers that equals the first page of the old data has not changed. -/
def FirstPageTells (pageSize : Nat) (oldData newData : List UInt8) : Prop :=
  ∀ page, page * pageSize + pageSize ≤ newData.length → page * pageSize + pageSize ≤ oldData.length →
    (newData.drop (page * pageSize)).take pageSize = oldData.take pageSize →
    (newData.drop (page * pageSize)).take pageSize = (oldData.drop (page * pageSize)).take pageSize

/-- A page that starts beyond the old data and is cut by the end of the new data has a byte that is
not zero. -/
def CutPageNonZero (pageSize : Nat) (oldData newData : List UInt8) : Prop :=
  ∀ page, page * pageSize < newData.length → ¬ReadsPastEnd pageSize oldData newData (page * pageSize)

section RoundTrip

variable {cfg : DeltaSettings} {oldData newData bytes : List UInt8} {zstd : Zstd}

theorem applyDelta_serializeDelta (hzstd : zstd.Lossless) {depth : Nat} (hdepth : 2 ≤ depth)
    (hsize : newData.length < 2 ^ 32) {want : Nat → Option UInt8}
    (hbody : (if cfg.usePages then encodePages cfg oldData newData newData.length 0
      else encodeWhole cfg oldData newData) = .ok bytes)
    (hspells : Spells oldData newData bytes 0 newData.length want) :
    ∃ delta target, serializeDelta cfg oldData newData zstd = .ok delta ∧
      applyDelta memorySink zstd depth delta { data := oldData } = .ok target ∧
      (target.data = newData ↔ ∀ i < newData.length, want i = newData[i]?) := by
  obtain ⟨depth, rfl⟩ : ∃ n, depth = n + 1 + 1 := ⟨depth - 2, by omega⟩
  obtain ⟨writes, rfl, hw, hlen, heffect⟩ := hspells
  have hok : serializeCommands cfg oldData newData = .ok (deltaCommands newData.length writes) := by
    simp only [serializeCommands, bind, Except.bind]
    split_ifs at hbody ⊢ with hpages <;> rw [hbody] <;> rfl
  have hrun := fun depth => applyDelta_deltaCommands zstd depth hw hsize oldData
  have hdata : applyWrites (resize oldData newData.length 0) writes = newData ↔
      ∀ i < newData.length, want i = newData[i]? := by
    rw [List.ext_getElem?_iff]
    refine forall_congr' fun i => ?_
    rw [heffect _ (length_resize _ _ _) fun _ _ _ => rfl]
    by_cases hi : i < newData.length <;> simp [hi]
  cases hcfg : cfg.useZstd with
  | false =>
    refine ⟨deltaCommands newData.length writes, _, ?_, hrun (depth + 1), hdata⟩
    simp only [serializeDelta, hok, hcfg, bind, Except.bind]
    rfl
  | true =>
    have hshort : (deltaCommands newData.length writes).length < 2 ^ 62 := by
      simp only [deltaCommands, List.length_cons, List.length_append, length_le, List.length_nil]
      omega
    obtain ⟨compressed, hcompress, hdecompress, hfits⟩ := hzstd _ cfg.zstdLevel hshort
    refine ⟨compressedDelta (deltaCommands newData.length writes).length compressed, _, ?_,
      applyDelta_compressedDelta (by omega) (by omega) hdecompress (hrun depth), hdata⟩
    simp only [serializeDelta, hok, hcfg, bind, Except.bind, not_true_eq_false, if_false, hcompress]
    rfl

/-- The pages that are not written have to be right already, and the new ones, which are zero, are. -/
theorem pagedByte_eq_iff {pageSize : Nat} (hpage : 0 < pageSize) (oldData newData : List UInt8) :
    (∀ i < newData.length, pagedByte pageSize oldData newData i = newData[i]?) ↔
      FirstPageTells pageSize oldData newData := by
  constructor
  · intro h page hnew hold hsame
    apply List.ext_getElem?
    intro j
    by_cases hj : j < pageSize
    · have hdiv : (page * pageSize + j) / pageSize = page :=
        Nat.div_eq_of_lt_le (by omega) (by rw [Nat.succ_mul]; omega)
      have hbyte := h (page * pageSize + j) (by omega)
      have hold' := List.getElem?_eq_getElem (show page * pageSize + j < oldData.length by omega)
      rw [pagedByte, hdiv, if_pos (.inl ⟨hnew, hold, hsame⟩), getElem?_resize, if_pos (by omega), hold',
        Option.getD_some] at hbyte
      simp only [List.getElem?_take_of_lt hj, List.getElem?_drop]
      rw [← hbyte, hold']
    · rw [List.getElem?_eq_none (by simp; omega), List.getElem?_eq_none (by simp; omega)]
  · intro h i hi
    have hlo : i / pageSize * pageSize ≤ i := Nat.div_mul_le_self i pageSize
    have hhi : i < i / pageSize * pageSize + pageSize := by
      have := Nat.lt_div_mul_add hpage (a := i)
      omega
    rw [pagedByte]
    split_ifs with hskipped
    · rw [getElem?_resize, if_pos hi]
      rcases hskipped with ⟨hnew, hold, hsame⟩ | ⟨hold, hzero⟩
      · have heq := congrArg (·[i - i / pageSize * pageSize]?) (h _ hnew hold hsame)
        simp only [getElem?_span _ hlo hhi] at heq
        rw [heq, List.getElem?_eq_getElem (show i < oldData.length by omega), Option.getD_some]
      · have hmem : newData[i] ∈
            (newData.take (i / pageSize * pageSize + pageSize)).drop (i / pageSize * pageSize) := by
          apply List.mem_of_getElem? (i := i - i / pageSize * pageSize)
          rw [List.getElem?_drop, Nat.add_sub_cancel' hlo, List.getElem?_take_of_lt hhi,
            List.getElem?_eq_getElem hi]
        rw [List.getElem?_eq_none (show oldData.length ≤ i by omega), List.getElem?_eq_getElem hi,
          hzero _ hmem, Option.getD_none]
    · rfl

theorem applyDelta_pages (hzstd : zstd.Lossless) {depth : Nat} (hdepth : 2 ≤ depth)
    (hsize : newData.length < 2 ^ 32) (hcfg : cfg.usePages = true) (hpage : 0 < cfg.pageSize)
    (hread : CutPageNonZero cfg.pageSize oldData newData) :
    ∃ delta target, serializeDelta cfg oldData newData zstd = .ok delta ∧
      applyDelta memorySink zstd depth delta { data := oldData } = .ok target ∧
      (target.data = newData ↔ FirstPageTells cfg.pageSize oldData newData) := by
  obtain ⟨bytes, hok, hspells⟩ := @encodePages_spec cfg oldData newData hpage hsize newData.length 0
    (by omega) fun later _ => hread later
  rw [Nat.zero_mul] at hok hspells
  rw [Nat.zero_min] at hspells
  simp only [← pagedByte_eq_iff hpage]
  exact applyDelta_serializeDelta hzstd hdepth hsize (by rwa [hcfg]) hspells

theorem cutPageNonZero_of_serializeDelta {delta : List UInt8} (hcfg : cfg.usePages = true)
    (h : serializeDelta cfg oldData newData zstd = .ok delta) :
    CutPageNonZero cfg.pageSize oldData newData := by
  intro page hstart hpast
  have hpages := @encodePages_readsPastEnd cfg oldData newData newData.length 0 page (Nat.zero_le _)
    hstart hpast
  rw [Nat.zero_mul] at hpages
  rcases hbody : encodePages cfg oldData newData newData.length 0 with error | body
  · simp [serializeDelta, serializeCommands, hcfg, hbody, bind, Except.bind] at h
  · exact hpages body hbody

end RoundTrip

/-- A delta is written from the two buffers alone and turns the old data into the new exactly if,
where it is written by pages, the first page of the old data tells the changed pages and no page
that is cut by the end of the new data and starts beyond the old is all zero. -/
theorem delta_round_trips_iff {zstd : Zstd} (hzstd : zstd.Lossless) {cfg : DeltaSettings}
    (hpage : cfg.usePages = true → 1 ≤ cfg.pageSize) (oldData : List UInt8) {newData : List UInt8}
    (hsize : newData.length < 2 ^ 32) {depth : Nat} (hdepth : 2 ≤ depth) :
    (∃ delta target, serializeDelta cfg oldData newData zstd = .ok delta ∧
      applyDelta memorySink zstd depth delta { data := oldData } = .ok target ∧
      target.data = newData) ↔
    (cfg.usePages = true → FirstPageTells cfg.pageSize oldData newData ∧
      CutPageNonZero cfg.pageSize oldData newData) := by
  cases hcfg : cfg.usePages with
  | false =>
    obtain ⟨bytes, hok, hspells⟩ := @encodeWhole_spec cfg oldData newData hsize
    obtain ⟨delta, target, hdelta, hrun, hdata⟩ :=
      applyDelta_serializeDelta hzstd hdepth hsize (by rwa [hcfg]) hspells
    exact ⟨nofun, fun _ => ⟨delta, target, hdelta, hrun, hdata.mpr fun _ _ => rfl⟩⟩
  | true =>
    have hpages := @applyDelta_pages cfg oldData newData zstd hzstd depth hdepth hsize hcfg (hpage hcfg)
    constructor
    · rintro ⟨delta, target, hdelta, hrun, hdata⟩ -
      have hread := cutPageNonZero_of_serializeDelta hcfg hdelta
      obtain ⟨delta', target', hdelta', hrun', hiff⟩ := hpages hread
      obtain rfl : delta = delta' := Except.ok.inj (hdelta.symm.trans hdelta')
      obtain rfl : target = target' := Except.ok.inj (hrun.symm.trans hrun')
      exact ⟨hiff.mp hdata, hread⟩
    · intro h
      obtain ⟨delta, target, hdelta, hrun, hiff⟩ := hpages (h rfl).2
      exact ⟨delta, target, hdelta, hrun, hiff.mpr (h rfl).1⟩

theorem storedZstd_lossless : storedZstd.Lossless :=
  fun data _ hdata => ⟨data, rfl, rfl, by omega⟩

theorem delta_round_trips_iff_pages :
    ∃ delta target, serializeDelta ⟨true, 2, true, true, 1⟩ [1, 2, 3, 4, 5] [1, 2, 9, 4, 0, 0, 7] storedZstd =
        .ok delta ∧
      applyDelta memorySink storedZstd 2 delta { data := [1, 2, 3, 4, 5] } = .ok target ∧
      target.data = [1, 2, 9, 4, 0, 0, 7] := by
  refine (delta_round_trips_iff storedZstd_lossless (by decide) [1, 2, 3, 4, 5] (by decide) le_rfl).mpr
    fun _ => ⟨?_, ?_⟩
  · intro page hnew hold hsame
    have hpage : page ≤ 1 := by simp at hold; omega
    interval_cases page <;> revert hsame <;> decide
  · intro page hstart
    have hpage : page ≤ 3 := by simp at hstart; omega
    rintro ⟨hbeyond, hcut, hzero⟩
    interval_cases page <;> revert hzero hcut hbeyond <;> decide

/-- A page that has become equal to the first page of the old data is left as it was, and the zeros
of a page that is cut by the end of the new data make the writer read past it. -/
theorem page_like_first_page_lost :
    (∃ delta, serializeDelta ⟨true, 1, false, false, 1⟩ [1, 2] [1, 1] storedZstd = .ok delta ∧
      applyDelta memorySink storedZstd 2 delta { data := [1, 2] } = .ok ⟨[1, 2], some 2, false⟩) ∧
    serializeDelta ⟨true, 4, false, false, 1⟩ [] [0] storedZstd = .error .undefinedBehaviour :=
  ⟨⟨[1, 0, 2, 0, 0, 0, 254], rfl, rfl⟩, rfl⟩

end Faabric
