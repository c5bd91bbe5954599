import Faabric.Util.ArrayDiffs

/-! What the diffs of an updated copy do to each byte. -/

namespace Faabric

open Bytes

variable {i : Nat}

def DiffSpan.effect (byte : UInt8) (i : Nat) (x : UInt8) (span : DiffSpan) : UInt8 :=
  if span.offset ≤ i ∧ i < span.offset + span.length then
    if span.operation = .xor then byte ^^^ x else byte
  else x

def effects (spans : List DiffSpan) (byte : UInt8) (i : Nat) (x : UInt8) : UInt8 :=
  spans.foldl (DiffSpan.effect byte i) x

theorem effects_append (spans spans' : List DiffSpan) (byte : UInt8) (i : Nat) (x : UInt8) :
    effects (spans ++ spans') byte i x = effects spans' byte i (effects spans byte i x) :=
  List.foldl_append

theorem effects_outside {spans : List DiffSpan}
    (h : ∀ span ∈ spans, ¬(span.offset ≤ i ∧ i < span.offset + span.length)) (byte x : UInt8) :
    effects spans byte i x = x := by
  induction spans with
  | nil => rfl
  | cons span spans ih =>
    have hfirst : span.effect byte i x = x := if_neg (h span (by simp))
    rw [effects, List.foldl_cons, hfirst]
    exact ih fun other hother => h other (by simp [hother])

theorem effects_bytewise {spans : List DiffSpan} (h : ∀ span ∈ spans, span.operation = .bytewise) (byte x : UInt8) :
    effects spans byte i x =
      if ∃ span ∈ spans, span.offset ≤ i ∧ i < span.offset + span.length then byte else x := by
  induction spans generalizing x with
  | nil => simp [effects]
  | cons span spans ih =>
    have hfirst : span.effect byte i x =
        if span.offset ≤ i ∧ i < span.offset + span.length then byte else x := by
      simp [DiffSpan.effect, h span (by simp)]
    rw [effects, List.foldl_cons, hfirst]
    refine (ih (fun other hother => h other (by simp [hother])) _).trans ?_
    simp only [List.exists_mem_cons_iff]
    by_cases hin : span.offset ≤ i ∧ i < span.offset + span.length <;> simp [hin]

theorem diffArrayRegions_spec (a b : List UInt8) (diffs : List DiffSpan) {startOffset endOffset : Nat}
    (hle : startOffset ≤ endOffset) (hend : endOffset + arrayCompChunkSize ≤ 2 ^ 32) :
    ∃ found, diffArrayRegions diffs startOffset endOffset a b = .ok (diffs ++ found) ∧
      (∀ span ∈ found, span.operation = .bytewise ∧ startOffset ≤ span.offset ∧
        span.offset + span.length ≤ endOffset) ∧
      ∀ i byte x, effects found byte i x =
        if startOffset ≤ i ∧ i < endOffset ∧ a[i]? ≠ b[i]? then byte else x := by
  have hchunk : arrayCompChunkSize = 128 := rfl
  obtain ⟨found, hok, hruns⟩ := diffArrayRegions_runs a b diffs hle (by omega)
  refine ⟨found, hok, fun span hspan => ⟨(hruns.raw span hspan).2, (hruns.inside span hspan).2⟩, fun i byte x => ?_⟩
  rw [effects_bytewise fun span hspan => (hruns.raw span hspan).2]
  congr 1
  rw [eq_iff_iff]
  constructor
  · rintro ⟨span, hspan, hin⟩
    have hinside := hruns.inside span hspan
    exact ⟨by omega, by omega, (hruns.differ i (by omega) (by omega)).mpr ⟨span, hspan, hin⟩⟩
  · rintro ⟨hlo, hhi, hdiffer⟩
    exact (hruns.differ i hlo hhi).mp hdiffer

/-! Which pages a region is looked at on. -/

def SnapshotMergeRegion.dirtyPages (r : SnapshotMergeRegion) (size : Nat) (dirtyRegions : List Bool) : List Nat :=
  (List.range' r.firstPage (r.endPage size - r.firstPage)).filter fun p => dirtyRegions[p]? = some true

section Pages

variable {r : SnapshotMergeRegion} {original : List UInt8} {dirtyRegions : List Bool}

theorem all_clean_iff {first stop : Nat} :
    ((dirtyRegions.take stop).drop first).all (!·) = true ↔
      (List.range' first (stop - first)).filter (fun p => dirtyRegions[p]? = some true) = [] := by
  rw [List.all_eq_true, List.filter_eq_nil_iff]
  constructor
  · intro h p hp hdirty
    rw [List.mem_range'_1] at hp
    refine absurd (h true (List.mem_of_getElem? (i := p - first) ?_)) (by decide)
    rw [List.getElem?_drop, Nat.add_sub_cancel' hp.1, List.getElem?_take_of_lt (by omega)]
    exact of_decide_eq_true hdirty
  · intro h flag hflag
    obtain ⟨k, hk⟩ := List.mem_iff_getElem?.mp hflag
    rw [List.getElem?_drop] at hk
    have hlt : first + k < stop := by
      by_contra hout
      rw [List.getElem?_take_eq_none (by omega)] at hk
      cases hk
    rw [List.getElem?_take_of_lt hlt] at hk
    cases flag with
    | false => rfl
    | true => exact absurd (decide_eq_true hk) (h (first + k) (List.mem_range'_1.mpr (by omega)))

theorem addDiffs_eq (hop : r.operation ≠ .ignore) (hin : r.offset ≤ original.length)
    (hpages : r.firstPage ≤ r.endPage original.length) (hflags : r.endPage original.length ≤ dirtyRegions.length)
    (state : List DiffSpan × List UInt8) :
    r.addDiffs original dirtyRegions state =
      if r.dirtyPages original.length dirtyRegions = [] then .ok state
      else if r.operation = .bytewise ∨ r.operation = .xor then
        (r.dirtyPages original.length dirtyRegions).foldlM (r.addPageDiffs (r.mrEnd original.length) original) state
      else
        match r.dataType with
        | .int => r.addValueDiff (intNumber 4) original state.1 state.2
        | .long => r.addValueDiff (intNumber 8) original state.1 state.2
        | .float => r.addValueDiff floatNumber original state.1 state.2
        | .double => r.addValueDiff doubleNumber original state.1 state.2
        | _ => .error (.runtimeError "Unsupported merge op combination") := by
  rw [SnapshotMergeRegion.addDiffs, if_neg hop, if_neg (by omega)]
  refine (if_neg (not_or.mpr ⟨Nat.not_lt.mpr hpages, Nat.not_lt.mpr hflags⟩)).trans ?_
  exact if_congr all_clean_iff rfl rfl

theorem mrEnd_le_size (r : SnapshotMergeRegion) (size : Nat) : r.mrEnd size ≤ size :=
  (Nat.min_le_right _ _).trans (Nat.mod_le _ _)

theorem endPage_le (r : SnapshotMergeRegion) (size : Nat) : r.endPage size ≤ getRequiredHostPages size := by
  have := mrEnd_le_size r size
  simp only [SnapshotMergeRegion.endPage, getRequiredHostPages, hostPageSize]
  omega

theorem addDiffs_paged (hop : r.operation = .bytewise ∨ r.operation = .xor) (hin : r.offset ≤ original.length)
    (hpages : r.firstPage ≤ r.endPage original.length) (hflags : r.endPage original.length ≤ dirtyRegions.length)
    (state : List DiffSpan × List UInt8) :
    r.addDiffs original dirtyRegions state =
      (r.dirtyPages original.length dirtyRegions).foldlM (r.addPageDiffs (r.mrEnd original.length) original) state := by
  have hignore : r.operation ≠ .ignore := by
    rcases hop with hop | hop <;> rw [hop] <;> decide
  rw [addDiffs_eq hignore hin hpages hflags, if_pos hop]
  split_ifs with hclean
  · rw [hclean]
    rfl
  · rfl

end Pages

/-- A change of the copy at `i` is merged by `f`: it puts the changed byte in the place of the
original one, and does nothing where the copy has not changed. -/
def MergesAt (original updated : List UInt8) (i : Nat) (f : UInt8 → UInt8) : Prop :=
  (original[i]? = updated[i]? → ∀ x, f x = x) ∧
    ∀ x y, original[i]? = some x → updated[i]? = some y → f x = y

/-- The places `done` of a copy have been looked at: the diffs merge the changes there, and the copy
is as it was elsewhere. -/
structure Diffed (original updated : List UInt8) (done : Nat → Prop) (spans : List DiffSpan)
    (left : List UInt8) : Prop where
  length : left.length = updated.length
  within : ∀ span ∈ spans, (span.operation = .bytewise ∨ span.operation = .xor) ∧
    span.offset + span.length ≤ original.length
  pending : ∀ i, ¬done i → left[i]? = updated[i]? ∧ ∀ byte x, effects spans byte i x = x
  merged : ∀ i byte, done i → left[i]? = some byte → MergesAt original updated i (effects spans byte i)

section Regions

variable {original updated left : List UInt8} {done : Nat → Prop} {spans extension : List DiffSpan}
  {start stop : Nat}

theorem Diffed.init (original updated : List UInt8) : Diffed original updated (fun _ => False) [] updated where
  length := rfl
  within := by simp
  pending := fun _ _ => ⟨rfl, fun _ _ => rfl⟩
  merged := fun _ _ h => h.elim

theorem Diffed.unchanged (h : Diffed original updated done spans left) {more : Nat → Prop}
    (hsame : ∀ i, more i → ¬done i → original[i]? = updated[i]?) :
    Diffed original updated (fun i => done i ∨ more i) spans left where
  length := h.length
  within := h.within
  pending := fun i hi => h.pending i fun hd => hi (.inl hd)
  merged := by
    intro i byte hi hbyte
    by_cases hd : done i
    · exact h.merged i byte hd hbyte
    · have heq := hsame i (hi.resolve_left hd) hd
      have hid := (h.pending i hd).2 byte
      refine ⟨fun _ => hid, fun x y hx hy => ?_⟩
      rw [hid x]
      exact Option.some.inj (hx.symm.trans (heq.trans hy))

theorem Diffed.congr (h : Diffed original updated done spans left) {done' : Nat → Prop}
    (hiff : ∀ i, done i ↔ done' i) : Diffed original updated done' spans left := by
  rwa [show done' = done from funext fun i => propext (hiff i).symm]

/-- A span of places that have not been looked at: its diffs leave the other places alone, and merge the changes
there. -/
theorem Diffed.extend (h : Diffed original updated done spans left) {found : List DiffSpan} {left' : List UInt8}
    (hfresh : ∀ i, start ≤ i → i < stop → ¬done i) (hlength : left'.length = left.length)
    (hwithin : ∀ span ∈ found, (span.operation = .bytewise ∨ span.operation = .xor) ∧
      span.offset + span.length ≤ original.length)
    (houtside : ∀ i, ¬(start ≤ i ∧ i < stop) → left'[i]? = left[i]? ∧ ∀ byte x, effects found byte i x = x)
    (hinside : ∀ i byte, start ≤ i → i < stop → left[i]? = updated[i]? → left'[i]? = some byte →
      MergesAt original updated i (effects found byte i)) :
    Diffed original updated (fun i => done i ∨ (start ≤ i ∧ i < stop)) (spans ++ found) left' := by
  refine ⟨hlength.trans h.length, fun span hspan => ?_, fun i hi => ?_, fun i byte hi hbyte => ?_⟩
  · exact (List.mem_append.mp hspan).elim (h.within span) (hwithin span)
  · obtain ⟨hleft, hid⟩ := h.pending i fun hd => hi (.inl hd)
    obtain ⟨hleft', hid'⟩ := houtside i fun hin => hi (.inr hin)
    refine ⟨hleft'.trans hleft, fun byte x => ?_⟩
    rw [effects_append, hid, hid']
  · have heffects : effects (spans ++ found) byte i = effects found byte i ∘ effects spans byte i :=
      funext (effects_append spans found byte i)
    rw [heffects]
    by_cases hin : start ≤ i ∧ i < stop
    · obtain ⟨hleft, hid⟩ := h.pending i (hfresh i hin.1 hin.2)
      rw [show effects spans byte i = id from funext (hid byte)]
      exact hinside i byte hin.1 hin.2 hleft hbyte
    · obtain ⟨hleft', hid'⟩ := houtside i hin
      rw [show effects found byte i = id from funext (hid' byte)]
      exact h.merged i byte (hi.resolve_right hin) (hleft'.symm.trans hbyte)

theorem Diffed.bytewise (h : Diffed original updated done spans left) {found : List DiffSpan}
    (hstop : stop ≤ original.length) (hfresh : ∀ i, start ≤ i → i < stop → ¬done i)
    (hspans : ∀ span ∈ found, span.operation = .bytewise ∧ start ≤ span.offset ∧
      span.offset + span.length ≤ stop)
    (heffects : ∀ i byte x, effects found byte i x =
      if start ≤ i ∧ i < stop ∧ original[i]? ≠ left[i]? then byte else x) :
    Diffed original updated (fun i => done i ∨ (start ≤ i ∧ i < stop)) (spans ++ found) left := by
  refine h.extend hfresh rfl (fun span hspan => ?_) (fun i hout => ⟨rfl, fun byte x => ?_⟩) ?_
  · obtain ⟨hop, -, hhi⟩ := hspans span hspan
    exact ⟨.inl hop, by omega⟩
  · rw [heffects, if_neg fun hin => hout ⟨hin.1, hin.2.1⟩]
  · intro i byte hlo hhi hleft hbyte
    refine ⟨fun heq x => ?_, fun x y hx hy => ?_⟩
    · rw [heffects, if_neg fun hin => hin.2.2 (heq.trans hleft.symm)]
    · obtain rfl : byte = y := Option.some.inj (hbyte.symm.trans (hleft.trans hy))
      rw [heffects]
      split_ifs with hne
      · rfl
      · have hsame : original[i]? = left[i]? := by
          by_contra hne'
          exact hne ⟨hlo, hhi, hne'⟩
        exact Option.some.inj (hx.symm.trans (hsame.trans hbyte))

theorem Diffed.xor (h : Diffed original updated done spans left) (dataType : SnapshotDataType)
    (hsize : updated.length = original.length) (hle : start ≤ stop) (hstop : stop ≤ original.length)
    (hfresh : ∀ i, start ≤ i → i < stop → ¬done i) :
    Diffed original updated (fun i => done i ∨ (start ≤ i ∧ i < stop))
      (spans ++ [⟨dataType, .xor, start, stop - start⟩])
      (patch (fun byte original => original ^^^ byte) left start
        ((original.drop start).take (stop - start))) := by
  have hlen : ((original.drop start).take (stop - start)).length = stop - start := by
    simp only [List.length_take, List.length_drop]
    omega
  have heffect (i : Nat) (byte x : UInt8) : effects [⟨dataType, .xor, start, stop - start⟩] byte i x =
      if start ≤ i ∧ i < stop then byte ^^^ x else x := by
    simp only [effects, List.foldl_cons, List.foldl_nil, DiffSpan.effect, Nat.add_sub_cancel' hle, if_true]
  refine h.extend hfresh (by simp) (fun span hspan => ?_) (fun i hout => ⟨?_, fun byte x => ?_⟩) ?_
  · obtain rfl := List.mem_singleton.mp hspan
    exact ⟨.inr rfl, by simp only; omega⟩
  · apply getElem?_patch_outside
    omega
  · rw [heffect, if_neg hout]
  · intro i byte hlo hhi hleft hbyte
    have horiginal := List.getElem?_eq_getElem (show i < original.length by omega)
    have hupdated := List.getElem?_eq_getElem (show i < updated.length by omega)
    have hspan : ((original.drop start).take (stop - start))[i - start]? = some original[i] := by
      rw [List.getElem?_take_of_lt (by omega), List.getElem?_drop, Nat.add_sub_cancel' hlo, horiginal]
    rw [getElem?_patch_inside _ hlo (hleft.trans hupdated) hspan] at hbyte
    obtain rfl := Option.some.inj hbyte
    refine ⟨fun heq x => ?_, fun x y hx hy => ?_⟩
    · have hsame : original[i] = updated[i] := Option.some.inj (horiginal.symm.trans (heq.trans hupdated))
      rw [heffect, if_pos ⟨hlo, hhi⟩, hsame]
      simp
    · obtain rfl := Option.some.inj (horiginal.symm.trans hx)
      obtain rfl := Option.some.inj (hupdated.symm.trans hy)
      rw [heffect, if_pos ⟨hlo, hhi⟩, UInt8.xor_comm original[i] updated[i], UInt8.xor_assoc]
      simp

def SnapshotMergeRegion.OnPage (region : SnapshotMergeRegion) (mrEnd p i : Nat) : Prop :=
  max region.offset (p * hostPageSize) ≤ i ∧ i < min mrEnd ((p + 1) * hostPageSize)

def SnapshotMergeRegion.Has (size : Nat) (region : SnapshotMergeRegion) (i : Nat) : Prop :=
  region.offset ≤ i ∧ i < region.mrEnd size

variable {region : SnapshotMergeRegion} {mrEnd : Nat}

theorem Diffed.page (h : Diffed original updated done spans left)
    (hop : region.operation = .bytewise ∨ region.operation = .xor)
    (hsize : updated.length = original.length) (hsmall : original.length + hostPageSize < 2 ^ 32)
    (hend : mrEnd ≤ original.length) (hoffset : region.offset ≤ mrEnd) {p : Nat}
    (hp : p * hostPageSize < mrEnd) (hstart : region.offset ≤ (p + 1) * hostPageSize)
    (hfresh : ∀ i, region.OnPage mrEnd p i → ¬done i) :
    ∃ spans' left', region.addPageDiffs mrEnd original (extension ++ spans, left) p =
        .ok (extension ++ spans', left') ∧
      Diffed original updated (fun i => done i ∨ region.OnPage mrEnd p i) spans' left' := by
  have hpage : hostPageSize = 4096 := rfl
  have hchunk : arrayCompChunkSize = 128 := rfl
  have hnext : (p + 1) * hostPageSize = p * hostPageSize + hostPageSize := by ring
  have hmod : p * hostPageSize % 2 ^ 32 = p * hostPageSize := Nat.mod_eq_of_lt (by omega)
  have hmod' : (p + 1) * hostPageSize % 2 ^ 32 = (p + 1) * hostPageSize := Nat.mod_eq_of_lt (by omega)
  have hle : max region.offset (p * hostPageSize) ≤ min mrEnd ((p + 1) * hostPageSize) := by omega
  have hmax : ∀ x y, Nat.max x y = max x y := fun _ _ => rfl
  have hmin : ∀ x y, Nat.min x y = min x y := fun _ _ => rfl
  rcases hop with hop | hop
  · obtain ⟨found, hok, hspans, heffects⟩ := diffArrayRegions_spec original left (extension ++ spans) hle
      (show min mrEnd ((p + 1) * hostPageSize) + arrayCompChunkSize ≤ 2 ^ 32 by omega)
    refine ⟨spans ++ found, left, ?_, ?_⟩
    · simp only [SnapshotMergeRegion.addPageDiffs, hmod, hmod', hmax, hmin, hop, if_true, hok, bind,
        Except.bind, pure, Except.pure, List.append_assoc]
    · exact h.bytewise (by omega) (fun i hlo hhi => hfresh i ⟨hlo, hhi⟩) hspans heffects
  · have hrange : (min mrEnd ((p + 1) * hostPageSize) + 2 ^ 32 - max region.offset (p * hostPageSize)) %
        2 ^ 32 = min mrEnd ((p + 1) * hostPageSize) - max region.offset (p * hostPageSize) := by
      rw [show min mrEnd ((p + 1) * hostPageSize) + 2 ^ 32 - max region.offset (p * hostPageSize) =
        min mrEnd ((p + 1) * hostPageSize) - max region.offset (p * hostPageSize) + 2 ^ 32 by omega,
        Nat.add_mod_right]
      exact Nat.mod_eq_of_lt (by omega)
    refine ⟨_, _, ?_, h.xor region.dataType hsize hle (by omega) fun i hlo hhi => hfresh i ⟨hlo, hhi⟩⟩
    simp only [SnapshotMergeRegion.addPageDiffs, hmod, hmod', hmax, hmin, hop, hrange, pure, Except.pure,
      reduceCtorEq, if_false, List.append_assoc]

theorem SnapshotMergeRegion.OnPage.page_eq {p : Nat} (h : region.OnPage mrEnd p i) :
    i / hostPageSize = p := by
  obtain ⟨hlo, hhi⟩ := h
  exact Nat.div_eq_of_lt_le (by omega) (by omega)

theorem Diffed.pages (h : Diffed original updated done spans left)
    (hop : region.operation = .bytewise ∨ region.operation = .xor)
    (hsize : updated.length = original.length) (hsmall : original.length + hostPageSize < 2 ^ 32)
    (hend : mrEnd ≤ original.length) (hoffset : region.offset ≤ mrEnd) {pages : List Nat}
    (hnodup : pages.Nodup)
    (hpages : ∀ p ∈ pages, p * hostPageSize < mrEnd ∧ region.offset ≤ (p + 1) * hostPageSize)
    (hfresh : ∀ p ∈ pages, ∀ i, region.OnPage mrEnd p i → ¬done i) :
    ∃ spans' left', pages.foldlM (region.addPageDiffs mrEnd original) (extension ++ spans, left) =
        .ok (extension ++ spans', left') ∧
      Diffed original updated (fun i => done i ∨ ∃ p ∈ pages, region.OnPage mrEnd p i) spans' left' := by
  induction pages generalizing done spans left with
  | nil => exact ⟨spans, left, rfl, h.congr fun i => by simp⟩
  | cons p pages ih =>
    obtain ⟨hnotin, hnodup⟩ := List.nodup_cons.mp hnodup
    obtain ⟨hp, hstart⟩ := hpages p (by simp)
    obtain ⟨spans', left', hok, hdiffed⟩ := @Diffed.page original updated left done spans extension region
      mrEnd h hop hsize hsmall hend hoffset p hp hstart (hfresh p (by simp))
    have hrest : ∀ q ∈ pages, ∀ i, region.OnPage mrEnd q i → ¬(done i ∨ region.OnPage mrEnd p i) := by
      rintro q hq i hi (hd | hon)
      · exact hfresh q (by simp [hq]) i hi hd
      · obtain rfl : q = p := hi.page_eq.symm.trans hon.page_eq
        exact hnotin hq
    obtain ⟨spans'', left'', hok', hdiffed'⟩ := ih hdiffed hnodup
      (fun q hq => hpages q (by simp [hq])) hrest
    refine ⟨spans'', left'', ?_, hdiffed'.congr fun i => by simp [or_assoc]⟩
    rw [List.foldlM_cons, hok]
    exact hok'

def MarksChanges (original updated : List UInt8) (dirtyRegions : List Bool) : Prop :=
  ∀ i, i < original.length → original[i]? ≠ updated[i]? → dirtyRegions[i / hostPageSize]? = some true

theorem le_mrEnd {size : Nat} (hsmall : size < 2 ^ 32) (hregion : region.offset + region.length < 2 ^ 32)
    (hoffset : region.offset ≤ size) : region.offset ≤ region.mrEnd size := by
  have hmin : ∀ x y, Nat.min x y = min x y := fun _ _ => rfl
  rw [SnapshotMergeRegion.mrEnd, hmin, Nat.mod_eq_of_lt hsmall, Nat.mod_eq_of_lt hregion]
  split_ifs <;> omega

theorem mem_pages {offset : Nat} (hlo : offset ≤ i) (hhi : i < stop) :
    getRequiredHostPagesRoundDown offset ≤ i / hostPageSize ∧
      i / hostPageSize < getRequiredHostPages stop := by
  simp only [getRequiredHostPagesRoundDown, getRequiredHostPages, hostPageSize]
  omega

theorem page_bounds {offset p : Nat} (hlo : getRequiredHostPagesRoundDown offset ≤ p)
    (hhi : p < getRequiredHostPages stop) : p * hostPageSize < stop ∧ offset ≤ (p + 1) * hostPageSize := by
  simp only [getRequiredHostPagesRoundDown, getRequiredHostPages, hostPageSize] at *
  omega

theorem Diffed.addDiffs (h : Diffed original updated done spans left)
    (hop : region.operation = .bytewise ∨ region.operation = .xor)
    (hregion : region.offset + region.length < 2 ^ 32)
    (hsize : updated.length = original.length) (hsmall : original.length + hostPageSize < 2 ^ 32)
    {dirtyRegions : List Bool} (hflags : getRequiredHostPages original.length ≤ dirtyRegions.length)
    (hmarks : MarksChanges original updated dirtyRegions)
    (hfresh : ∀ i, region.Has original.length i → ¬done i) :
    ∃ spans' left', region.addDiffs original dirtyRegions (extension ++ spans, left) =
        .ok (extension ++ spans', left') ∧
      Diffed original updated (fun i => done i ∨ region.Has original.length i) spans' left' := by
  have hsmall' : original.length < 2 ^ 32 := by omega
  have hend := mrEnd_le_size region original.length
  by_cases hpast : original.length < region.offset
  · have hignore : region.operation ≠ .ignore := by
      rcases hop with hop | hop <;> rw [hop] <;> decide
    refine ⟨spans, left, ?_, h.unchanged fun i hi _ => ?_⟩
    · simp only [SnapshotMergeRegion.addDiffs, if_neg hignore, if_pos hpast]
      rfl
    · have := hi.1
      have := hi.2
      omega
  · have hoffset := le_mrEnd hsmall' hregion (by omega)
    have hpages : region.firstPage ≤ region.endPage original.length := by
      simp only [SnapshotMergeRegion.firstPage, SnapshotMergeRegion.endPage, getRequiredHostPagesRoundDown,
        getRequiredHostPages, hostPageSize]
      omega
    -- a place whose page is not among the dirty pages has not changed
    have hsame : ∀ i, region.Has original.length i → dirtyRegions[i / hostPageSize]? ≠ some true →
        original[i]? = updated[i]? := by
      intro i hi hclean
      by_contra hne
      exact hclean (hmarks i (by have := hi.2; omega) hne)
    have hmem : ∀ p, p ∈ region.dirtyPages original.length dirtyRegions ↔
        (getRequiredHostPagesRoundDown region.offset ≤ p ∧
          p < getRequiredHostPages (region.mrEnd original.length)) ∧ dirtyRegions[p]? = some true := by
      intro p
      rw [SnapshotMergeRegion.dirtyPages, List.mem_filter, List.mem_range'_1, decide_eq_true_eq]
      simp only [SnapshotMergeRegion.firstPage, SnapshotMergeRegion.endPage]
      constructor <;> rintro ⟨hp, hdirty⟩ <;> exact ⟨by omega, hdirty⟩
    obtain ⟨spans', left', hok, hdiffed⟩ := @Diffed.pages original updated left done spans extension region
      (region.mrEnd original.length) h hop hsize hsmall hend hoffset _
      (List.Nodup.filter _ List.nodup_range') (fun p hp => page_bounds ((hmem p).mp hp).1.1 ((hmem p).mp hp).1.2)
      (fun p _ i hi => hfresh i ⟨by have := hi.1; omega, by have := hi.2; omega⟩)
    refine ⟨spans', left', ?_, ?_⟩
    · rw [addDiffs_paged hop (by omega) hpages ((endPage_le region _).trans hflags)]
      exact hok
    · have hrest : ∀ i, region.Has original.length i →
          ¬(done i ∨ ∃ p ∈ region.dirtyPages original.length dirtyRegions,
            region.OnPage (region.mrEnd original.length) p i) →
          original[i]? = updated[i]? := by
        intro i hi hnot
        refine hsame i hi fun hdirty => hnot (.inr ⟨i / hostPageSize, ?_, ?_, ?_⟩)
        · exact (hmem _).mpr ⟨mem_pages hi.1 hi.2, hdirty⟩
        · exact max_le hi.1 (Nat.div_mul_le_self i hostPageSize)
        · have hnext := Nat.lt_div_mul_add (show 0 < hostPageSize by decide) (a := i)
          have hsucc : (i / hostPageSize + 1) * hostPageSize =
              i / hostPageSize * hostPageSize + hostPageSize := by ring
          exact lt_min hi.2 (by omega)
      refine (hdiffed.unchanged hrest).congr fun i => ?_
      constructor
      · rintro ((hd | ⟨p, -, hlo, hhi⟩) | hi)
        · exact .inl hd
        · exact .inr ⟨(le_max_left _ _).trans hlo, hhi.trans_le (Nat.min_le_left _ _)⟩
        · exact .inr hi
      · rintro (hd | hi)
        · exact .inl (.inl hd)
        · exact .inr hi

end Regions

end Faabric
