import Faabric.Util.Delta

/-! What a delta from an untrusted sender can make `applyDelta` do. The commands are followed twice,
once on a buffer and once only noting the sizes and writes they ask for. -/

namespace Faabric

open Bytes

def ByteVector : Type := { bytes : List UInt8 // bytes.length < 2 ^ 63 }

def finish {σ : Type} : Except (DeltaError × σ) σ → Option DeltaError × σ
  | .ok target => (none, target)
  | .error (error, target) => (some error, target)

/-- A buffer in memory, the size declared for it last, and whether a command has written past that
size or before there was one. -/
structure DeltaTarget where
  data : List UInt8
  declared : Option Nat := none
  stray : Bool := false
deriving Repr, DecidableEq

def memorySink : DeltaSink DeltaTarget where
  setDataSize target size :=
    { target with data := resize target.data size 0, declared := some size }
  write target f offset data :=
    if offset + data.length ≤ target.data.length then
      some { target with
        data := patch f target.data offset data
        stray := target.stray || !target.declared.any (offset + data.length ≤ ·) }
    else none

inductive DeltaAccess where
  | setDataSize (size : Nat)
  | write (offset length : Nat)
deriving Repr, DecidableEq

def accessLog : DeltaSink (List DeltaAccess) where
  setDataSize log size := log ++ [.setDataSize size]
  write log _ offset data := some (log ++ [.write offset data.length])

def declaredAfter (declared : Option Nat) : DeltaAccess → Option Nat
  | .setDataSize size => some size
  | .write _ _ => declared

def DeltaAccess.Fits (declared : Option Nat) : DeltaAccess → Prop
  | .setDataSize _ => True
  | .write offset length => declared.any (offset + length ≤ ·) = true

def AccessesFit : Option Nat → List DeltaAccess → Prop
  | _, [] => True
  | declared, access :: log => access.Fits declared ∧ AccessesFit (declaredAfter declared access) log

instance (declared : Option Nat) (access : DeltaAccess) : Decidable (access.Fits declared) := by
  cases access <;> unfold DeltaAccess.Fits <;> infer_instance

instance decidableAccessesFit :
    (declared : Option Nat) → (log : List DeltaAccess) → Decidable (AccessesFit declared log)
  | _, [] => isTrue trivial
  | declared, access :: log =>
    have := decidableAccessesFit (declaredAfter declared access) log
    inferInstanceAs (Decidable (_ ∧ _))

/-- The write commands that are reached lie in the declared size, and the compressed blocks that are
reached lie in the vector. -/
def StaysInside (zstd : Zstd) (depth : Nat) (delta : List UInt8) : Prop :=
  (finish (applyDelta accessLog zstd depth delta [])).1 ≠ some .undefinedBehaviour ∧
    AccessesFit none (finish (applyDelta accessLog zstd depth delta [])).2

instance (zstd : Zstd) (depth : Nat) (delta : List UInt8) : Decidable (StaysInside zstd depth delta) :=
  inferInstanceAs (Decidable (_ ∧ _))

def AppliedSafely (result : Except (DeltaError × DeltaTarget) DeltaTarget) : Prop :=
  (finish result).1 ≠ some .undefinedBehaviour ∧ (finish result).2.stray = false

instance (result : Except (DeltaError × DeltaTarget) DeltaTarget) : Decidable (AppliedSafely result) :=
  inferInstanceAs (Decidable (_ ∧ _))

section Reading

variable {container delta : List UInt8} {cmd : UInt8} {command : DeltaCommand}

theorem readSpan_of_le {start length : Nat} (h : start + length ≤ container.length) :
    readSpan container start length = .ok ((container.drop start).take length) := by
  simp [readSpan, h]

theorem readSpan_of_lt {start length : Nat} (h : container.length < start + length) :
    readSpan container start length = .error .undefinedBehaviour := by
  simp [readSpan, h]

theorem readBytesOf_cases (container : List UInt8) (width offset : Nat) :
    (offset + width ≤ container.length ∧ ∃ value < 256 ^ width,
      readBytesOf container width offset = .ok (value, offset + width)) ∨
    ∃ what, readBytesOf container width offset = .error (.rangeError what) := by
  by_cases hout : container.length ≤ offset ∨ container.length < offset + width
  · exact .inr ⟨_, by rw [readBytesOf, if_pos hout]⟩
  · have hin : offset + width ≤ container.length := by omega
    have hlen : ((container.drop offset).take width).length = width := by
      simp only [List.length_take, List.length_drop]
      omega
    refine .inl ⟨hin, ofLe ((container.drop offset).take width), ?_, ?_⟩
    · have hlt := ofLe_lt ((container.drop offset).take width)
      rwa [hlen] at hlt
    · rw [readBytesOf, if_neg hout, readSpan_of_le hin]
      rfl

theorem readRegion_cases (delta : List UInt8) (outOfRange : String) (readIdx : Nat) :
    (∃ offset data next, readIdx ≤ next ∧
      readRegion delta outOfRange readIdx = .ok (offset, data, next)) ∨
    ∃ what, readRegion delta outOfRange readIdx = .error (.rangeError what) := by
  rcases readBytesOf_cases delta 4 readIdx with ⟨-, offset, -, hoffset⟩ | ⟨what, herr⟩
  · rcases readBytesOf_cases delta 4 (readIdx + 4) with ⟨-, length, -, hlength⟩ | ⟨what, herr⟩
    · by_cases hout : delta.length < readIdx + 4 + 4 + length
      · exact .inr ⟨outOfRange, by simp [readRegion, hoffset, hlength, hout, bind, Except.bind]⟩
      · have hin : readIdx + 4 + 4 + length ≤ delta.length := by omega
        refine .inl ⟨offset, (delta.drop (readIdx + 4 + 4)).take length, readIdx + 4 + 4 + length,
          by omega, ?_⟩
        simp [readRegion, hoffset, hlength, hout, readSpan_of_le hin, bind, Except.bind, pure,
          Except.pure]
    · exact .inr ⟨what, by simp [readRegion, hoffset, herr, bind, Except.bind]⟩
  · exact .inr ⟨what, by simp [readRegion, herr, bind, Except.bind]⟩

def DeltaCommand.Leaves (delta : List UInt8) : DeltaCommand → Prop
  | .zstdCompressedCommands readIdx compressedSize _ => delta.length < readIdx + compressedSize
  | _ => False

theorem readCommand_cases (hdelta : delta.length < 2 ^ 63) (cmd : UInt8) {readIdx : Nat}
    (hidx : readIdx ≤ delta.length) :
    (∃ command next, readCommand delta cmd readIdx = .ok (command, next) ∧
      (readIdx ≤ next ∨ command.Leaves delta)) ∨
    ∃ what, readCommand delta cmd readIdx = .error (.rangeError what) := by
  unfold readCommand
  split_ifs with htotal hzstd hover hxor hend
  · rcases readBytesOf_cases delta 4 readIdx with ⟨-, size, -, hsize⟩ | ⟨what, herr⟩
    · exact .inl ⟨.totalSize size, readIdx + 4, by rw [hsize]; rfl, .inl (by omega)⟩
    · exact .inr ⟨what, by rw [herr]; rfl⟩
  · rcases readBytesOf_cases delta 8 readIdx with ⟨-, size, -, hsize⟩ | ⟨what, herr⟩
    · rcases readBytesOf_cases delta 8 (readIdx + 8) with ⟨-, size', -, hsize'⟩ | ⟨what, herr⟩
      · by_cases hout : delta.length < (readIdx + 8 + 8 + size) % 2 ^ 64
        · exact .inr ⟨_, by simp only [hsize, hsize', bind, Except.bind, if_pos hout]; rfl⟩
        · refine .inl ⟨.zstdCompressedCommands (readIdx + 8 + 8) size size',
            (readIdx + 8 + 8 + size) % 2 ^ 64, ?_, ?_⟩
          · simp only [hsize, hsize', bind, Except.bind, if_neg hout]
            rfl
          · by_cases hin : readIdx + 8 + 8 + size ≤ delta.length
            · left
              rw [Nat.mod_eq_of_lt (by omega)]
              omega
            · exact .inr (by simpa [DeltaCommand.Leaves] using hin)
      · exact .inr ⟨what, by simp only [hsize, herr, bind, Except.bind]⟩
    · exact .inr ⟨what, by rw [herr]; rfl⟩
  · rcases readRegion_cases delta "Delta overwrite block goes out of range" readIdx with
      ⟨offset, data, next, hnext, hok⟩ | ⟨what, herr⟩
    · exact .inl ⟨.deltaOverwrite offset data, next, by rw [hok]; rfl, .inl hnext⟩
    · exact .inr ⟨what, by rw [herr]; rfl⟩
  · rcases readRegion_cases delta "Delta XOR block goes out of range" readIdx with
      ⟨offset, data, next, hnext, hok⟩ | ⟨what, herr⟩
    · exact .inl ⟨.deltaXor offset data, next, by rw [hok]; rfl, .inl hnext⟩
    · exact .inr ⟨what, by rw [herr]; rfl⟩
  · exact .inl ⟨.deltaEnd, delta.length, rfl, .inl hidx⟩
  · exact .inl ⟨.unknown, readIdx, rfl, .inl le_rfl⟩

end Reading

theorem applyCommand_compressed (zstd : Zstd) (delta : List UInt8)
    (readIdx compressedSize decompressedSize : Nat) :
    (∃ error, error ≠ .outOfFuel ∧ ∀ {σ : Type} (sink : DeltaSink σ) nested target,
      applyCommand sink zstd nested delta target
        (.zstdCompressedCommands readIdx compressedSize decompressedSize) = .error (error, target)) ∨
    (readIdx + compressedSize ≤ delta.length ∧
      ∃ cmds : List UInt8, cmds.length < 2 ^ 63 ∧ ∀ {σ : Type} (sink : DeltaSink σ) nested target,
        applyCommand sink zstd nested delta target
          (.zstdCompressedCommands readIdx compressedSize decompressedSize) = nested cmds target) := by
  by_cases hlong : 2 ^ 63 ≤ decompressedSize
  · exact .inl ⟨.lengthError, by decide, fun _ _ _ => by simp only [applyCommand, if_pos hlong]⟩
  by_cases hin : readIdx + compressedSize ≤ delta.length
  · rcases hout : zstd.decompress ((delta.drop readIdx).take compressedSize) decompressedSize with
      error | cmds
    · refine .inl ⟨.runtimeError ("ZSTD compression error: " ++ error), by simp, fun _ _ _ => ?_⟩
      simp only [applyCommand, if_neg hlong, readSpan_of_le hin, hout]
    · by_cases hsize : cmds.length ≠ decompressedSize
      · refine .inl ⟨.runtimeError "Mismatched decompression sizes in the NDP delta", by simp,
          fun _ _ _ => ?_⟩
        simp only [applyCommand, if_neg hlong, readSpan_of_le hin, hout, if_pos hsize]
      · refine .inr ⟨hin, cmds, by omega, fun _ _ _ => ?_⟩
        simp only [applyCommand, if_neg hlong, readSpan_of_le hin, hout, if_neg hsize]
  · have hlt : delta.length < readIdx + compressedSize := by omega
    refine .inl ⟨.undefinedBehaviour, by decide, fun _ _ _ => ?_⟩
    simp only [applyCommand, if_neg hlong, readSpan_of_lt hlt]

section Termination

variable {σ : Type} {sink : DeltaSink σ} {zstd : Zstd} {delta : List UInt8} {target target' : σ}
  {nested : List UInt8 → σ → Except (DeltaError × σ) σ} {command : DeltaCommand}

theorem not_leaves_of_applyCommand
    (h : applyCommand sink zstd nested delta target command = .ok target') : ¬command.Leaves delta := by
  cases command with
  | zstdCompressedCommands readIdx compressedSize decompressedSize =>
    rcases applyCommand_compressed zstd delta readIdx compressedSize decompressedSize with
      ⟨error, -, herr⟩ | ⟨hin, -⟩
    · rw [herr] at h
      exact nomatch h
    · exact Nat.not_lt.mpr hin
  | _ => exact id

theorem applyCommand_ends
    (hnested : ∀ cmds, cmds.length < 2 ^ 63 → ∀ t, (finish (nested cmds t)).1 ≠ some .outOfFuel) :
    (finish (applyCommand sink zstd nested delta target command)).1 ≠ some .outOfFuel := by
  cases command with
  | zstdCompressedCommands readIdx compressedSize decompressedSize =>
    rcases applyCommand_compressed zstd delta readIdx compressedSize decompressedSize with
      ⟨error, hne, herr⟩ | ⟨-, cmds, hcmds, hrun⟩
    · simpa [herr, finish] using hne
    · rw [hrun]
      exact hnested cmds hcmds target
  | deltaOverwrite offset data =>
    simp only [applyCommand, DeltaSink.writeAt]
    split <;> simp [finish]
  | deltaXor offset data =>
    simp only [applyCommand, DeltaSink.writeAt]
    split <;> simp [finish]
  | _ => simp [applyCommand, finish]

theorem applyCommands_ends (hdelta : delta.length < 2 ^ 63)
    (hnested : ∀ cmds, cmds.length < 2 ^ 63 → ∀ t, (finish (nested cmds t)).1 ≠ some .outOfFuel)
    {fuel readIdx : Nat} (hfuel : delta.length ≤ readIdx + fuel) (target : σ) :
    (finish (applyCommands sink zstd nested delta fuel readIdx target)).1 ≠ some .outOfFuel := by
  induction fuel generalizing readIdx target with
  | zero =>
    have hend : delta[readIdx]? = none := List.getElem?_eq_none (by omega)
    simp [applyCommands_end hend, finish]
  | succ fuel ih =>
    rcases hcmd : delta[readIdx]? with _ | cmd
    · simp [applyCommands_end hcmd, finish]
    have hlt : readIdx < delta.length := (List.getElem?_eq_some_iff.mp hcmd).1
    rcases readCommand_cases hdelta cmd hlt with ⟨command, next, hread, hnext⟩ | ⟨what, herr⟩
    · rw [applyCommands_command hcmd hread]
      rcases hrun : applyCommand sink zstd nested delta target command with ⟨error, left⟩ | target'
      · have hends := @applyCommand_ends σ sink zstd delta target nested command hnested
        rw [hrun] at hends
        exact hends
      · have hforward := hnext.resolve_right (not_leaves_of_applyCommand hrun)
        exact ih (by omega) target'
    · simp [applyCommands_error hcmd herr, finish]

theorem applyDelta_ends (zstd : Zstd) (depth : Nat) {delta : List UInt8} (hdelta : delta.length < 2 ^ 63)
    (target : σ) : (finish (applyDelta sink zstd depth delta target)).1 ≠ some .outOfFuel := by
  induction depth generalizing delta target with
  | zero => simp [applyDelta, finish]
  | succ depth ih =>
    rw [applyDelta]
    split_ifs
    · simp [finish]
    · simp [finish]
    · exact applyCommands_ends hdelta (fun cmds hcmds t => ih hcmds t) (by omega) target

end Termination

section Invariants

variable {σ : Type} {sink : DeltaSink σ} {P : σ → Prop} {zstd : Zstd} {delta : List UInt8}
  {nested : List UInt8 → σ → Except (DeltaError × σ) σ} {target : σ}

theorem applyCommand_invariant (hsize : ∀ t size, P t → P (sink.setDataSize t size))
    (hwrite : ∀ t f offset data t', sink.write t f offset data = some t' → P t → P t')
    (hnested : ∀ cmds t, P t → P (finish (nested cmds t)).2) (h : P target) (command : DeltaCommand) :
    P (finish (applyCommand sink zstd nested delta target command)).2 := by
  have hwriteAt : ∀ f offset data, P (finish (sink.writeAt target f offset data)).2 := by
    intro f offset data
    rcases hw : sink.write target f offset data with _ | target'
    · simpa [DeltaSink.writeAt, hw, finish] using h
    · simpa [DeltaSink.writeAt, hw, finish] using hwrite _ _ _ _ _ hw h
  cases command with
  | totalSize size => exact hsize target size h
  | zstdCompressedCommands readIdx compressedSize decompressedSize =>
    rcases applyCommand_compressed zstd delta readIdx compressedSize decompressedSize with
      ⟨error, -, herr⟩ | ⟨-, cmds, -, hrun⟩
    · rw [herr]
      exact h
    · rw [hrun]
      exact hnested cmds target h
  | deltaOverwrite offset data => exact hwriteAt _ offset data
  | deltaXor offset data => exact hwriteAt _ offset data
  | deltaEnd => exact h
  | unknown => exact h

theorem applyCommands_invariant (hsize : ∀ t size, P t → P (sink.setDataSize t size))
    (hwrite : ∀ t f offset data t', sink.write t f offset data = some t' → P t → P t')
    (hnested : ∀ cmds t, P t → P (finish (nested cmds t)).2) (h : P target) (fuel readIdx : Nat) :
    P (finish (applyCommands sink zstd nested delta fuel readIdx target)).2 := by
  induction fuel generalizing readIdx target with
  | zero =>
    rw [applyCommands]
    split <;> exact h
  | succ fuel ih =>
    rcases hcmd : delta[readIdx]? with _ | cmd
    · rw [applyCommands_end hcmd]
      exact h
    rcases hread : readCommand delta cmd (readIdx + 1) with error | ⟨command, next⟩
    · rw [applyCommands_error hcmd hread]
      exact h
    have hstep := @applyCommand_invariant σ sink P zstd delta nested target hsize hwrite hnested h command
    rw [applyCommands_command hcmd hread]
    rcases hrun : applyCommand sink zstd nested delta target command with ⟨error, left⟩ | target'
    · rwa [hrun] at hstep
    · rw [hrun] at hstep
      exact ih hstep next

theorem applyDelta_invariant (hsize : ∀ t size, P t → P (sink.setDataSize t size))
    (hwrite : ∀ t f offset data t', sink.write t f offset data = some t' → P t → P t')
    (depth : Nat) (delta : List UInt8) (h : P target) :
    P (finish (applyDelta sink zstd depth delta target)).2 := by
  induction depth generalizing delta target with
  | zero => exact h
  | succ depth ih =>
    rw [applyDelta]
    split_ifs
    · exact h
    · exact h
    · exact applyCommands_invariant hsize hwrite (fun cmds t ht => ih cmds ht) h _ _

end Invariants

section Logging

theorem accessesFit_append (declared : Option Nat) (log log' : List DeltaAccess) :
    AccessesFit declared (log ++ log') ↔
      AccessesFit declared log ∧ AccessesFit (log.foldl declaredAfter declared) log' := by
  induction log generalizing declared with
  | nil => simp [AccessesFit]
  | cons access log ih => simp only [List.cons_append, AccessesFit, List.foldl_cons, ih, and_assoc]

structure LoggedAs (target : DeltaTarget) (log : List DeltaAccess) : Prop where
  declared : target.declared = log.foldl declaredAfter none
  size : ∀ size, target.declared = some size → target.data.length = size
  stray : target.stray = false ↔ AccessesFit none log

/-- Both calls end in the same way, or the one on the buffer has left its memory with a write that
does not fit. -/
def EndAlike (result : Except (DeltaError × DeltaTarget) DeltaTarget)
    (logged : Except (DeltaError × List DeltaAccess) (List DeltaAccess)) : Prop :=
  ((finish result).1 = (finish logged).1 ∧ LoggedAs (finish result).2 (finish logged).2) ∨
  ((finish result).1 = some .undefinedBehaviour ∧ ¬AccessesFit none (finish logged).2)

variable {target : DeltaTarget} {log : List DeltaAccess} {zstd : Zstd} {delta : List UInt8}

theorem LoggedAs.setDataSize (h : LoggedAs target log) (size : Nat) :
    LoggedAs (memorySink.setDataSize target size) (accessLog.setDataSize log size) where
  declared := by simp [memorySink, accessLog, declaredAfter]
  size := by simp [memorySink]
  stray := by
    have hfit : AccessesFit none (accessLog.setDataSize log size) ↔ AccessesFit none log := by
      simp [accessLog, accessesFit_append, AccessesFit, DeltaAccess.Fits]
    rw [hfit]
    exact h.stray

theorem accessLog_write_fits (log : List DeltaAccess) (offset length : Nat) :
    AccessesFit none (log ++ [.write offset length]) ↔
      AccessesFit none log ∧ (log.foldl declaredAfter none).any (offset + length ≤ ·) = true := by
  simp only [accessesFit_append, AccessesFit, DeltaAccess.Fits, and_true]

theorem LoggedAs.writeAt (h : LoggedAs target log) (f : UInt8 → UInt8 → UInt8) (offset : Nat)
    (data : List UInt8) :
    EndAlike (memorySink.writeAt target f offset data) (accessLog.writeAt log f offset data) := by
  by_cases hin : offset + data.length ≤ target.data.length
  · left
    simp only [DeltaSink.writeAt, memorySink, hin, if_true, accessLog, finish, true_and]
    refine ⟨?_, ?_, ?_⟩
    · simpa [declaredAfter] using h.declared
    · simpa using h.size
    · rw [accessLog_write_fits, ← h.stray, ← h.declared]
      simp
  · right
    simp only [DeltaSink.writeAt, memorySink, hin, if_false, accessLog, finish, true_and]
    rw [accessLog_write_fits, ← h.declared]
    rintro ⟨-, hany⟩
    rcases hdeclared : target.declared with _ | size
    · simp [hdeclared] at hany
    · have hlen := h.size size hdeclared
      have hle : offset + data.length ≤ size := by simpa [hdeclared] using hany
      omega

theorem accessLog_write_unfit {log' : List DeltaAccess} {f : UInt8 → UInt8 → UInt8} {offset : Nat}
    {data : List UInt8} (hw : accessLog.write log f offset data = some log')
    (h : ¬AccessesFit none log) : ¬AccessesFit none log' := by
  obtain rfl := Option.some.inj hw
  rw [accessLog_write_fits]
  exact fun hfit => h hfit.1

theorem accessLog_size_unfit (log : List DeltaAccess) (size : Nat) (h : ¬AccessesFit none log) :
    ¬AccessesFit none (accessLog.setDataSize log size) := by
  simpa [accessLog, accessesFit_append, AccessesFit, DeltaAccess.Fits] using h

theorem EndAlike.bind {result : Except (DeltaError × DeltaTarget) DeltaTarget}
    {logged : Except (DeltaError × List DeltaAccess) (List DeltaAccess)}
    {next : DeltaTarget → Except (DeltaError × DeltaTarget) DeltaTarget}
    {nextLog : List DeltaAccess → Except (DeltaError × List DeltaAccess) (List DeltaAccess)}
    (h : EndAlike result logged) (hnext : ∀ t l, LoggedAs t l → EndAlike (next t) (nextLog l))
    (hunfit : ∀ l, ¬AccessesFit none l → ¬AccessesFit none (finish (nextLog l)).2) :
    EndAlike (result.bind next) (logged.bind nextLog) := by
  rcases h with ⟨hend, hlogged⟩ | ⟨hend, hlog⟩
  · rcases result with ⟨error, t⟩ | t <;> rcases logged with ⟨error', l⟩ | l
    · exact .inl ⟨hend, hlogged⟩
    · exact nomatch hend
    · exact nomatch hend
    · exact hnext t l hlogged
  · rcases result with ⟨error, t⟩ | t
    · right
      refine ⟨hend, ?_⟩
      rcases logged with ⟨error', l⟩ | l
      · exact hlog
      · exact hunfit l hlog
    · exact nomatch hend

variable {nested : List UInt8 → DeltaTarget → Except (DeltaError × DeltaTarget) DeltaTarget}
  {nestedLog : List UInt8 → List DeltaAccess → Except (DeltaError × List DeltaAccess) (List DeltaAccess)}

theorem LoggedAs.applyCommand (hnested : ∀ cmds t l, LoggedAs t l → EndAlike (nested cmds t) (nestedLog cmds l))
    (h : LoggedAs target log) (command : DeltaCommand) :
    EndAlike (applyCommand memorySink zstd nested delta target command)
      (applyCommand accessLog zstd nestedLog delta log command) := by
  cases command with
  | totalSize size => exact .inl ⟨rfl, h.setDataSize size⟩
  | zstdCompressedCommands readIdx compressedSize decompressedSize =>
    rcases applyCommand_compressed zstd delta readIdx compressedSize decompressedSize with
      ⟨error, -, herr⟩ | ⟨-, cmds, -, hrun⟩
    · rw [herr, herr]
      exact .inl ⟨rfl, h⟩
    · rw [hrun, hrun]
      exact hnested cmds target log h
  | deltaOverwrite offset data => exact h.writeAt _ offset data
  | deltaXor offset data => exact h.writeAt _ offset data
  | deltaEnd => exact .inl ⟨rfl, h⟩
  | unknown => exact .inl ⟨rfl, h⟩

theorem LoggedAs.applyCommands
    (hnested : ∀ cmds t l, LoggedAs t l → EndAlike (nested cmds t) (nestedLog cmds l))
    (hunfit : ∀ cmds l, ¬AccessesFit none l → ¬AccessesFit none (finish (nestedLog cmds l)).2)
    (h : LoggedAs target log) (fuel readIdx : Nat) :
    EndAlike (applyCommands memorySink zstd nested delta fuel readIdx target)
      (applyCommands accessLog zstd nestedLog delta fuel readIdx log) := by
  induction fuel generalizing readIdx target log with
  | zero =>
    rw [Faabric.applyCommands, Faabric.applyCommands]
    split <;> exact .inl ⟨rfl, h⟩
  | succ fuel ih =>
    rcases hcmd : delta[readIdx]? with _ | cmd
    · rw [applyCommands_end hcmd, applyCommands_end hcmd]
      exact .inl ⟨rfl, h⟩
    rcases hread : readCommand delta cmd (readIdx + 1) with error | ⟨command, next⟩
    · rw [applyCommands_error hcmd hread, applyCommands_error hcmd hread]
      exact .inl ⟨rfl, h⟩
    rw [applyCommands_command hcmd hread, applyCommands_command hcmd hread]
    refine (h.applyCommand hnested command).bind (fun t l htl => ih htl next) fun l hl => ?_
    exact applyCommands_invariant accessLog_size_unfit (fun _ _ _ _ _ => accessLog_write_unfit)
      hunfit hl fuel next

theorem LoggedAs.applyDelta (h : LoggedAs target log) (depth : Nat) (delta : List UInt8) :
    EndAlike (applyDelta memorySink zstd depth delta target) (applyDelta accessLog zstd depth delta log) := by
  induction depth generalizing delta target log with
  | zero => exact .inl ⟨rfl, h⟩
  | succ depth ih =>
    rw [Faabric.applyDelta, Faabric.applyDelta]
    split_ifs
    · exact .inl ⟨rfl, h⟩
    · exact .inl ⟨rfl, h⟩
    · apply h.applyCommands (fun cmds t l htl => ih htl cmds)
      intro cmds l hl
      exact applyDelta_invariant accessLog_size_unfit (fun _ _ _ _ _ => accessLog_write_unfit) depth cmds hl

end Logging

def storedZstd : Zstd where
  compress data _ := .ok data
  decompress source _ := .ok source

end Faabric
