import Faabric.Util.Snapshot

/-! `diffArrayRegions` compares two arrays chunk by chunk. What it finds are the runs that a scan byte by
byte finds, as long as the index of the chunks does not wrap round. -/

namespace Faabric

/-- The spans are the longest runs of differing bytes between two offsets, in order: there is a byte
between two of them. -/
structure DiffRuns (a b : List UInt8) (start stop : Nat) (spans : List DiffSpan) : Prop where
  raw : ∀ span ∈ spans, span.dataType = .raw ∧ span.operation = .bytewise
  inside : ∀ span ∈ spans, 0 < span.length ∧ start ≤ span.offset ∧ span.offset + span.length ≤ stop
  apart : spans.Pairwise fun span span' => span.offset + span.length < span'.offset
  differ : ∀ i, start ≤ i → i < stop →
    (a[i]? ≠ b[i]? ↔ ∃ span ∈ spans, span.offset ≤ i ∧ i < span.offset + span.length)

section Scan

variable {a b : List UInt8} {diffs found : List DiffSpan} {start stop c i : Nat} {s : DiffScan}

theorem DiffRuns.skip (h : DiffRuns a b start c found) (hsame : a[c]? = b[c]?) :
    DiffRuns a b start (c + 1) found where
  raw := h.raw
  inside span hspan := by
    have := h.inside span hspan
    omega
  apart := h.apart
  differ i hlo hhi := by
    by_cases hi : i = c
    · subst hi
      refine ⟨fun hne => absurd hsame hne, fun ⟨span, hspan, hin⟩ => ?_⟩
      have := h.inside span hspan
      omega
    · exact h.differ i hlo (by omega)

theorem DiffRuns.snoc (h : DiffRuns a b start c found) (hle : start ≤ c) (hstop : c < stop)
    (hends : ∀ span ∈ found, span.offset + span.length < c)
    (hdiffer : ∀ i, c ≤ i → i < stop → a[i]? ≠ b[i]?) :
    DiffRuns a b start stop (found ++ [⟨.raw, .bytewise, c, stop - c⟩]) := by
  have hmem : ∀ span, span ∈ found ++ [⟨.raw, .bytewise, c, stop - c⟩] ↔
      span ∈ found ∨ span = ⟨.raw, .bytewise, c, stop - c⟩ := by simp
  refine ⟨fun span hspan => ?_, fun span hspan => ?_, ?_, fun i hlo hhi => ?_⟩
  · rcases (hmem span).mp hspan with hspan | rfl
    · exact h.raw span hspan
    · exact ⟨rfl, rfl⟩
  · rcases (hmem span).mp hspan with hspan | rfl
    · have := h.inside span hspan
      omega
    · simp only
      omega
  · exact List.pairwise_append.mpr ⟨h.apart, by simp, by simpa using hends⟩
  · by_cases hi : i < c
    · rw [h.differ i hlo hi]
      refine ⟨fun ⟨span, hspan, hin⟩ => ⟨span, (hmem span).mpr (.inl hspan), hin⟩, fun ⟨span, hspan, hin⟩ => ?_⟩
      rcases (hmem span).mp hspan with hspan | rfl
      · exact ⟨span, hspan, hin⟩
      · simp only at hin
        omega
    · exact ⟨fun _ => ⟨_, (hmem _).mpr (.inr rfl), by simp only; omega⟩, fun _ => hdiffer i (by omega) hhi⟩

/-- The bytes from `start` to `c` have been scanned. The runs before the one in progress have been
found. -/
structure Scanned (a b : List UInt8) (diffs : List DiffSpan) (start c : Nat) (s : DiffScan) : Prop where
  le : start ≤ c
  found : ∃ found, s.diffs = diffs ++ found ∧
    DiffRuns a b start (if s.diffInProgress then s.diffStart else c) found ∧
    ∀ span ∈ found, span.offset + span.length < if s.diffInProgress then s.diffStart else c
  run : s.diffInProgress = true → start ≤ s.diffStart ∧ s.diffStart < c ∧
    ∀ i, s.diffStart ≤ i → i < c → a[i]? ≠ b[i]?

theorem Scanned.init (a b : List UInt8) (diffs : List DiffSpan) (start : Nat) :
    Scanned a b diffs start start { diffs } where
  le := le_rfl
  found := ⟨[], by simp, ⟨by simp, by simp, .nil, fun i hlo hhi => absurd hhi (by simpa using hlo)⟩, by simp⟩
  run := by simp

theorem Scanned.close (h : Scanned a b diffs start c s) :
    (s.close c).diffInProgress = false ∧
      ∃ found, (s.close c).diffs = diffs ++ found ∧ DiffRuns a b start c found := by
  obtain ⟨found, hdiffs, hruns, hends⟩ := h.found
  cases hrun : s.diffInProgress with
  | false =>
    simp only [hrun, Bool.false_eq_true, if_false] at hruns
    exact ⟨by simp [DiffScan.close, hrun], found, by simpa [DiffScan.close, hrun] using hdiffs, hruns⟩
  | true =>
    simp only [hrun, if_true] at hruns hends
    obtain ⟨hlo, hhi, hdiffer⟩ := h.run hrun
    exact ⟨by simp [DiffScan.close, hrun], _, by simp [DiffScan.close, hrun, hdiffs],
      hruns.snoc hlo hhi hends hdiffer⟩

theorem Scanned.byte (h : Scanned a b diffs start c s) : Scanned a b diffs start (c + 1) (s.byte a b c) := by
  have hle := h.le
  by_cases hsame : a[c]? = b[c]?
  · obtain ⟨hidle, found, hdiffs, hruns⟩ := h.close
    rw [DiffScan.byte, if_pos hsame]
    refine ⟨by omega, ⟨found, hdiffs, ?_, fun span hspan => ?_⟩, by simp [hidle]⟩
    · simpa [hidle] using hruns.skip hsame
    · have := hruns.inside span hspan
      simp only [hidle, Bool.false_eq_true, if_false]
      omega
  · rw [DiffScan.byte, if_neg hsame]
    obtain ⟨found, hdiffs, hruns, hends⟩ := h.found
    split_ifs with hrun
    · simp only [hrun, if_true] at hruns hends
      obtain ⟨hlo, hhi, hdiffer⟩ := h.run hrun
      refine ⟨by omega, ⟨found, hdiffs, by simpa [hrun] using hruns, by simpa [hrun] using hends⟩,
        fun _ => ⟨hlo, by omega, fun i hi hi' => ?_⟩⟩
      rcases Nat.lt_succ_iff_lt_or_eq.mp hi' with hlt | rfl
      · exact hdiffer i hi hlt
      · exact hsame
    · simp only [hrun] at hruns hends
      refine ⟨by omega, ⟨found, hdiffs, hruns, hends⟩, fun _ => ⟨hle, by simp, fun i hlo hhi => ?_⟩⟩
      obtain rfl : i = c := by
        simp only at hlo
        omega
      exact hsame

theorem Scanned.bytes (h : Scanned a b diffs start c s) (n : Nat) :
    Scanned a b diffs start (c + n) ((List.range' c n).foldl (DiffScan.byte a b) s) := by
  induction n generalizing c s with
  | zero => exact h
  | succ n ih =>
    rw [List.range'_succ, List.foldl_cons, show c + (n + 1) = c + 1 + n by omega]
    exact ih h.byte

theorem DiffScan.close_idle (s : DiffScan) (stop : Nat) : (s.close stop).diffInProgress = false := by
  cases hrun : s.diffInProgress with
  | false => simp [DiffScan.close, hrun]
  | true => simp [DiffScan.close, hrun]

theorem foldl_byte_same (hidle : s.diffInProgress = false) (n : Nat)
    (hsame : ∀ i, c ≤ i → i < c + n → a[i]? = b[i]?) :
    (List.range' c n).foldl (DiffScan.byte a b) s = s := by
  induction n generalizing c with
  | zero => rfl
  | succ n ih =>
    have hfirst : s.byte a b c = s := by
      rw [DiffScan.byte, if_pos (hsame c le_rfl (by omega)), DiffScan.close, hidle]
      simp
    rw [List.range'_succ, List.foldl_cons, hfirst]
    exact ih fun i hlo hhi => hsame i (by omega) (by omega)

theorem DiffScan.chunk_eq (s : DiffScan) (i : Nat) {n : Nat} (hn : 0 < n) :
    s.chunk a b i n = (List.range' i n).foldl (DiffScan.byte a b) s := by
  rw [DiffScan.chunk]
  split_ifs with hchunk
  · obtain ⟨n, rfl⟩ : ∃ m, n = m + 1 := ⟨n - 1, by omega⟩
    have hsame : ∀ j, i ≤ j → j < i + (n + 1) → a[j]? = b[j]? := by
      intro j hlo hhi
      have hbyte := congrArg (·[j - i]?) hchunk
      simpa only [List.getElem?_take_of_lt (show j - i < n + 1 by omega), List.getElem?_drop,
        Nat.add_sub_cancel' hlo] using hbyte
    have hfirst : s.byte a b i = s.close i := by rw [DiffScan.byte, if_pos (hsame i le_rfl (by omega))]
    rw [List.range'_succ, List.foldl_cons, hfirst]
    exact (foldl_byte_same (DiffScan.close_idle s i) n fun j hlo hhi => hsame j (by omega) (by omega)).symm
  · rfl

theorem DiffScan.chunks_eq {endOffset fuel : Nat}
    (hend : endOffset ≤ 2 ^ 32 - arrayCompChunkSize + i % arrayCompChunkSize)
    (hfuel : endOffset ≤ i + fuel) (s : DiffScan) :
    DiffScan.chunks a b endOffset fuel i s =
      .ok ((List.range' i (endOffset - i)).foldl (DiffScan.byte a b) s) := by
  induction fuel generalizing i s with
  | zero =>
    have hdone : endOffset - i = 0 := by omega
    simp [DiffScan.chunks, show ¬i < endOffset by omega, hdone]
  | succ fuel ih =>
    have hchunk : arrayCompChunkSize = 128 := rfl
    by_cases hlt : i < endOffset
    · have hmod : (i + arrayCompChunkSize) % 2 ^ 32 = i + arrayCompChunkSize := by
        rw [hchunk] at hend ⊢
        omega
      have hnext : (i + arrayCompChunkSize) % arrayCompChunkSize = i % arrayCompChunkSize := Nat.add_mod_right _ _
      have hmin : Nat.min (endOffset - i) arrayCompChunkSize = min (endOffset - i) arrayCompChunkSize := rfl
      have hsplit : List.range' i (endOffset - i) =
          List.range' i (min (endOffset - i) arrayCompChunkSize) ++
            List.range' (i + arrayCompChunkSize) (endOffset - (i + arrayCompChunkSize)) := by
        by_cases hlast : endOffset - i ≤ arrayCompChunkSize
        · rw [Nat.min_eq_left hlast, show endOffset - (i + arrayCompChunkSize) = 0 by omega]
          simp
        · rw [Nat.min_eq_right (by omega), List.range'_append_1,
            show arrayCompChunkSize + (endOffset - (i + arrayCompChunkSize)) = endOffset - i by omega]
      rw [DiffScan.chunks, if_pos hlt, hmod, ih (by rwa [hnext]) (by omega), hmin, s.chunk_eq i (by omega), hsplit,
        List.foldl_append]
    · have hdone : endOffset - i = 0 := by omega
      simp [DiffScan.chunks, hlt, hdone]

/-- Past the last chunk of the 32-bit range the index starts again from below, and meets the same
chunks. -/
theorem DiffScan.chunks_loop {endOffset : Nat} (hi : i < 2 ^ 32)
    (hend : 2 ^ 32 - arrayCompChunkSize + i % arrayCompChunkSize < endOffset) (fuel : Nat) (s : DiffScan) :
    DiffScan.chunks a b endOffset fuel i s = .error .outOfFuel := by
  have hlt : i < endOffset := by
    unfold arrayCompChunkSize at hend
    omega
  induction fuel generalizing i s with
  | zero => rw [DiffScan.chunks, if_pos hlt]
  | succ fuel ih =>
    rw [DiffScan.chunks, if_pos hlt]
    unfold arrayCompChunkSize at *
    exact ih (Nat.mod_lt _ (by norm_num)) (by omega) _ (by omega)

theorem diffArrayRegions_runs (a b : List UInt8) (diffs : List DiffSpan) {startOffset endOffset : Nat}
    (hle : startOffset ≤ endOffset)
    (hend : endOffset ≤ 2 ^ 32 - arrayCompChunkSize + startOffset % arrayCompChunkSize) :
    ∃ found, diffArrayRegions diffs startOffset endOffset a b = .ok (diffs ++ found) ∧
      DiffRuns a b startOffset endOffset found := by
  have hscan := (Scanned.init a b diffs startOffset).bytes (endOffset - startOffset)
  rw [Nat.add_sub_cancel' hle] at hscan
  obtain ⟨-, found, hdiffs, hruns⟩ := hscan.close
  refine ⟨found, ?_, hruns⟩
  simp only [diffArrayRegions, DiffScan.chunks_eq hend (show endOffset ≤ startOffset + (endOffset - startOffset) by omega),
    bind, Except.bind, pure, Except.pure, hdiffs]

end Scan

/-- The differing runs are appended, unless the bounds reach into the last chunk of the 32-bit range. -/
theorem diffArrayRegions_iff {a b : List UInt8} {startOffset endOffset : Nat} (hle : startOffset ≤ endOffset)
    (hend : endOffset < 2 ^ 32) (diffs : List DiffSpan) :
    (∃ found, diffArrayRegions diffs startOffset endOffset a b = .ok (diffs ++ found) ∧
        DiffRuns a b startOffset endOffset found) ↔
      endOffset ≤ 2 ^ 32 - arrayCompChunkSize + startOffset % arrayCompChunkSize := by
  refine ⟨fun ⟨found, hok, _⟩ => ?_, diffArrayRegions_runs a b diffs hle⟩
  by_contra hlast
  rw [diffArrayRegions, DiffScan.chunks_loop (by omega) (by omega)] at hok
  cases hok

theorem diffArrayRegions_iff_short : ∃ found, diffArrayRegions [] 1 5 [0, 0, 0, 0, 0] [1, 1, 1, 0, 1] = .ok found ∧
    DiffRuns [0, 0, 0, 0, 0] [1, 1, 1, 0, 1] 1 5 found :=
  (diffArrayRegions_iff (by decide) (by decide) []).mpr (by decide)

theorem diffArrayRegions_loops (a b : List UInt8) :
    diffArrayRegions [] 0 (2 ^ 32 - 1) a b = .error .outOfFuel ∧
      ∀ fuel, DiffScan.chunks a b (2 ^ 32 - 1) fuel 0 { diffs := [] } = .error .outOfFuel := by
  have hloop : ∀ fuel, DiffScan.chunks a b (2 ^ 32 - 1) fuel 0 { diffs := [] } = .error .outOfFuel :=
    fun fuel => DiffScan.chunks_loop (by norm_num) (by decide) fuel _
  refine ⟨?_, hloop⟩
  rw [diffArrayRegions, hloop]
  rfl

/-- In arrays of almost 4 GiB the loop never ends, even if they are equal. -/
theorem equal_arrays_loop :
    diffArrayRegions [] 0 (2 ^ 32 - 1) (List.replicate (2 ^ 32 - 1) 0) (List.replicate (2 ^ 32 - 1) 0) =
        .error .outOfFuel ∧
      ∀ fuel, DiffScan.chunks (List.replicate (2 ^ 32 - 1) 0) (List.replicate (2 ^ 32 - 1) 0) (2 ^ 32 - 1) fuel 0
        { diffs := [] } = .error .outOfFuel :=
  diffArrayRegions_loops _ _

end Faabric
