import Faabric.Util.GapFilling
import Faabric.Util.SnapshotDiffs

/-! Merging the changes of several copies into a snapshot. The merge regions, completed to cover the
snapshot, give diffs that put every changed byte in its place, in any order of the copies. -/

namespace Faabric

open Bytes SnapshotData

def SnapshotMergeRegion.Apart (size : Nat) (r r' : SnapshotMergeRegion) : Prop :=
  ∀ i, r.Has size i → ¬r'.Has size i

def SnapshotMergeRegion.Plain (r : SnapshotMergeRegion) : Prop :=
  (r.operation = .bytewise ∨ r.operation = .xor) ∧ r.offset + r.length < 2 ^ 32

theorem SnapshotMergeRegion.Apart.symm {size : Nat} {r r' : SnapshotMergeRegion}
    (h : SnapshotMergeRegion.Apart size r r') : SnapshotMergeRegion.Apart size r' r :=
  fun i hi hi' => h i hi' hi

section Gaps

open SnapshotData SnapshotMergeRegion

/-- Regions that cover a snapshot of `size` bytes, each place once. -/
structure Covers (size : Nat) (regions : List SnapshotMergeRegion) : Prop where
  plain : ∀ r ∈ regions, r.Plain
  apart : regions.Pairwise (SnapshotMergeRegion.Apart size)
  cover : ∀ i, i < size → ∃ r ∈ regions, r.Has size i

theorem Covers.perm {size : Nat} {regions regions' : List SnapshotMergeRegion} (h : Covers size regions)
    (hperm : regions.Perm regions') : Covers size regions' where
  plain := fun r hr => h.plain r (hperm.mem_iff.mpr hr)
  apart := (hperm.pairwise_iff fun hab => hab.symm).mp h.apart
  cover := fun i hi => by
    obtain ⟨r, hr, hin⟩ := h.cover i hi
    exact ⟨r, hperm.mem_iff.mp hr, hin⟩

theorem has_iff {size i : Nat} {r : SnapshotMergeRegion} (hsize : size < 2 ^ 32) (hr : r.offset + r.length < 2 ^ 32) :
    r.Has size i ↔ i < size ∧ r.spans size i = true := by
  have hmin : ∀ x y, Nat.min x y = min x y := fun _ _ => rfl
  rw [Has, mrEnd, hmin, Nat.mod_eq_of_lt hsize, Nat.mod_eq_of_lt hr, lt_min_iff]
  simp only [SnapshotMergeRegion.spans, decide_eq_true_eq]
  split_ifs <;> omega

variable {s : SnapshotData} {fillType : SnapshotMergeOperation}

theorem fillGapsWith_spec (hop : fillType = .bytewise ∨ fillType = .xor)
    (hsize : s.data.length < 2 ^ 32) (hplain : ∀ r ∈ s.mergeRegions, r.Plain ∧ 0 < r.length)
    (hapart : s.mergeRegions.Pairwise fun r r' =>
      r.offset + r.length ≤ r'.offset ∨ r'.offset + r'.length ≤ r.offset) :
    ∃ regions, s.fillGapsWith fillType = { s with mergeRegions := regions } ∧
      Covers s.data.length regions := by
  have huser : UserRegions s.mergeRegions :=
    ⟨fun r hr => ⟨(hplain r hr).2, by have := (hplain r hr).1.2; omega⟩, hapart⟩
  have hrange : regionsEnd 0 s.mergeRegions < 2 ^ 32 := Nat.lt_of_le_pred (by norm_num)
    (regionsEnd_le (Nat.zero_le _) fun r hr => Nat.le_pred_of_lt (hplain r hr).1.2)
  obtain ⟨gaps, hfill, hgaps, hcount⟩ := huser.filled fillType
  have honce : ∀ i, i < s.data.length → (s.fillGapsWith fillType).mergeRegions.countP
      (SnapshotMergeRegion.spans s.data.length i) = 1 := fun i hi => huser.filled_once hrange hi
  have hall : ∀ r ∈ (s.fillGapsWith fillType).mergeRegions, r.Plain := by
    intro r hr
    rw [hfill] at hr
    rcases List.mem_append.mp hr with hr | hr
    · exact (hplain r hr).1
    · rcases List.mem_append.mp hr with hr | hr
      · have := le_of_count (List.mem_append_right _ hr) (hgaps r hr).1 hcount
        exact ⟨(hgaps r hr).2.2 ▸ hop, by omega⟩
      · split_ifs at hr
        · rw [List.mem_singleton.mp hr]
          exact ⟨hop, Nat.mod_lt _ (by norm_num)⟩
        · cases hr
  refine ⟨(s.fillGapsWith fillType).mergeRegions, by rw [hfill], hall, ?_, fun i hi => ?_⟩
  · have happart := @pairwise_of_count (s.fillGapsWith fillType).mergeRegions s.data.length
      (fun i => i < s.data.length) fun i hi => (honce i hi).le
    refine happart.imp_of_mem fun {r r'} hr hr' hboth i hi hi' => ?_
    obtain ⟨hlt, hspans⟩ := (has_iff hsize (hall r hr).2).mp hi
    exact hboth i hlt hspans ((has_iff hsize (hall r' hr').2).mp hi').2
  · obtain ⟨r, hr, hspans⟩ := List.countP_pos_iff.mp (by rw [honce i hi]; exact Nat.one_pos)
    exact ⟨r, hr, (has_iff hsize (hall r hr).2).mpr ⟨hi, hspans⟩⟩

end Gaps

section Diffs

variable {original updated left : List UInt8} {done : Nat → Prop} {spans extension : List DiffSpan}
  {dirtyRegions : List Bool}

theorem Diffed.regions (h : Diffed original updated done spans left) {regions : List SnapshotMergeRegion}
    (hplain : ∀ r ∈ regions, r.Plain)
    (hapart : regions.Pairwise (SnapshotMergeRegion.Apart original.length))
    (hsize : updated.length = original.length) (hsmall : original.length + hostPageSize < 2 ^ 32)
    (hflags : getRequiredHostPages original.length ≤ dirtyRegions.length)
    (hmarks : MarksChanges original updated dirtyRegions)
    (hfresh : ∀ r ∈ regions, ∀ i, r.Has original.length i → ¬done i) :
    ∃ spans' left', regions.foldlM (fun state region => region.addDiffs original dirtyRegions state)
        (extension ++ spans, left) = .ok (extension ++ spans', left') ∧
      Diffed original updated (fun i => done i ∨ ∃ r ∈ regions, r.Has original.length i) spans' left' := by
  induction regions generalizing done spans left with
  | nil => exact ⟨spans, left, rfl, h.congr fun i => by simp⟩
  | cons r regions ih =>
    obtain ⟨hr, hapart⟩ := List.pairwise_cons.mp hapart
    obtain ⟨spans', left', hok, hdiffed⟩ := @Diffed.addDiffs original updated left done spans extension r h
      (hplain r (by simp)).1 (hplain r (by simp)).2 hsize hsmall dirtyRegions hflags hmarks
      (hfresh r (by simp))
    have hrest : ∀ q ∈ regions, ∀ i, q.Has original.length i →
        ¬(done i ∨ r.Has original.length i) := by
      rintro q hq i hi (hd | hin)
      · exact hfresh q (by simp [hq]) i hi hd
      · exact hr q hq i hin hi
    obtain ⟨spans'', left'', hok', hdiffed'⟩ := ih hdiffed (fun q hq => hplain q (by simp [hq])) hapart hrest
    refine ⟨spans'', left'', ?_, hdiffed'.congr fun i => by simp [or_assoc]⟩
    rw [List.foldlM_cons, hok]
    exact hok'

def extensionSpans (size : Nat) (updated : List UInt8) : List DiffSpan :=
  if size < updated.length then [⟨.raw, .bytewise, size % 2 ^ 32, updated.length - size⟩] else []

theorem diffWithDirtyRegions_spec {s : SnapshotData} (hcovers : Covers s.data.length s.mergeRegions)
    (hsmall : s.data.length + hostPageSize < 2 ^ 32) (hlong : s.data.length ≤ updated.length)
    (hflags : getRequiredHostPages s.data.length ≤ dirtyRegions.length)
    (hmarks : MarksChanges s.data updated dirtyRegions) :
    ∃ spans left regions, s.diffWithDirtyRegions updated dirtyRegions =
        .ok ((extensionSpans s.data.length updated ++ spans).map
          (DiffSpan.read (left ++ updated.drop s.data.length)), { s with mergeRegions := regions }) ∧
      Covers s.data.length regions ∧
      Diffed s.data (updated.take s.data.length) (fun i => i < s.data.length) spans left := by
  have htake : ∀ i, i < s.data.length → (updated.take s.data.length)[i]? = updated[i]? :=
    fun i hi => List.getElem?_take_of_lt hi
  have hinit := Diffed.init s.data (updated.take s.data.length)
  by_cases hstop : dirtyRegions.all (!·) = true ∨ s.mergeRegions.isEmpty = true
  · have hresult : s.diffWithDirtyRegions updated dirtyRegions =
        .ok ((extensionSpans s.data.length updated).map (DiffSpan.read updated), s) := by
      by_cases hclean : dirtyRegions.all (!·) = true
      · simp only [diffWithDirtyRegions, if_pos hclean]
        rfl
      · simp only [diffWithDirtyRegions, if_neg hclean, if_pos (hstop.resolve_left hclean)]
        rfl
    -- without a dirty page or a region to look at, nothing has changed
    have hsame : ∀ i, i < s.data.length → s.data[i]? = updated[i]? := by
      intro i hi
      rcases hstop with hclean | hempty
      · by_contra hne
        have hmem := List.mem_of_getElem? (hmarks i hi hne)
        exact absurd (List.all_eq_true.mp hclean true hmem) (by decide)
      · obtain ⟨r, hr, -⟩ := hcovers.cover i hi
        rw [List.isEmpty_iff.mp hempty] at hr
        cases hr
    have hdone : Diffed s.data (updated.take s.data.length) (fun i => False ∨ i < s.data.length) []
        (updated.take s.data.length) :=
      hinit.unchanged fun i hi _ => (hsame i hi).trans (htake i hi).symm
    exact ⟨[], updated.take s.data.length, s.mergeRegions, by simp [hresult], hcovers,
      hdone.congr fun i => by simp⟩
  · obtain ⟨hclean, hempty⟩ := not_or.mp hstop
    have hsorted := hcovers.perm (sortRegions_perm s.mergeRegions).symm
    obtain ⟨spans, left, hok, hdiffed⟩ := @Diffed.regions s.data (updated.take s.data.length) _ _ []
      (extensionSpans s.data.length updated) dirtyRegions hinit _ hsorted.plain hsorted.apart
      (by simpa using hlong) hsmall hflags
      (fun i hi hne => hmarks i hi (by rwa [htake i hi] at hne)) (fun _ _ _ _ h => h)
    refine ⟨spans, left, sortRegions s.mergeRegions, ?_, hsorted, ?_⟩
    · rw [List.append_nil, extensionSpans] at hok
      simp only [diffWithDirtyRegions, if_neg hclean, if_neg hempty,
        if_neg (Nat.not_lt.mpr hlong), hok, bind, Except.bind]
      rfl
    · refine hdiffed.congr fun i => ⟨?_, fun hi => .inr (hsorted.cover i hi)⟩
      rintro (hfalse | ⟨r, hr, hi⟩)
      · exact hfalse.elim
      · have := mrEnd_le_size r s.data.length
        have := hi.2
        omega

end Diffs

section Applying

variable {t : SnapshotData} {copy : List UInt8}

structure SnapshotData.SameUse (t t' : SnapshotData) : Prop where
  maxSize : t'.maxSize = t.maxSize
  queuedDiffs : t'.queuedDiffs = t.queuedDiffs

theorem SnapshotData.SameUse.trans {t t' t'' : SnapshotData} (h : t.SameUse t') (h' : t'.SameUse t'') :
    t.SameUse t'' :=
  ⟨h'.maxSize.trans h.maxSize, h'.queuedDiffs.trans h.queuedDiffs⟩

theorem resize_self (l : List UInt8) (a : UInt8) : resize l l.length a = l := by
  simp [resize]

theorem writeData_inside {buffer : List UInt8} {offset : Nat} (hin : offset + buffer.length ≤ t.data.length) :
    t.writeData buffer offset =
      .ok ({ t with data := patch (fun _ byte => byte) t.data offset buffer }.trackChange offset
        (offset + buffer.length)) := by
  have hmax : Nat.max t.data.length (offset + buffer.length) = t.data.length := Nat.max_eq_left hin
  have hfits : ¬(t.data.length < offset + buffer.length ∧ t.maxSize < offset + buffer.length) := by omega
  simp only [writeData, if_neg hfits, hmax, resize_self]

theorem xorData_inside {buffer : List UInt8} {offset : Nat} (hin : offset + buffer.length ≤ t.data.length) :
    t.xorData buffer offset =
      .ok ({ t with data := patch (fun byte other => other ^^^ byte) t.data offset buffer }.trackChange
        offset (offset + buffer.length)) := by
  simp only [xorData, if_neg (Nat.not_lt.mpr hin)]

theorem applyDiff_read {span : DiffSpan} (hop : span.operation = .bytewise ∨ span.operation = .xor)
    (hin : span.offset + span.length ≤ t.data.length) (hcopy : span.offset + span.length ≤ copy.length) :
    ∃ t', t.applyDiff (span.read copy) = .ok t' ∧ t.SameUse t' ∧ t'.data.length = t.data.length ∧
      ∀ i byte, ((span.offset ≤ i ∧ i < span.offset + span.length) → copy[i]? = some byte) →
        t'.data[i]? = t.data[i]?.map (span.effect byte i) := by
  have hlen : (span.read copy).data.length = span.length := by
    simp only [DiffSpan.read, List.length_take, List.length_drop]
    omega
  -- both operations patch the data with a function of the two bytes
  have heffect : ∀ (f : UInt8 → UInt8 → UInt8),
      (∀ x byte, f x byte = if span.operation = .xor then byte ^^^ x else byte) →
      ∀ i byte, ((span.offset ≤ i ∧ i < span.offset + span.length) → copy[i]? = some byte) →
        (patch f t.data span.offset (span.read copy).data)[i]? = t.data[i]?.map (span.effect byte i) := by
    intro f hf i byte hbyte
    by_cases hi : span.offset ≤ i ∧ i < span.offset + span.length
    · have hx := List.getElem?_eq_getElem (show i < t.data.length by omega)
      have hb : (span.read copy).data[i - span.offset]? = some byte := by
        rw [DiffSpan.read, List.getElem?_take_of_lt (by omega), List.getElem?_drop,
          Nat.add_sub_cancel' hi.1, hbyte hi]
      rw [getElem?_patch_inside f hi.1 hx hb, hx, hf, Option.map_some, DiffSpan.effect, if_pos hi]
    · have hid : span.effect byte i = id := funext fun x => if_neg hi
      rw [getElem?_patch_outside f t.data (by rw [hlen]; omega), hid, Option.map_id_fun, id]
  rcases hop with hop | hop
  · have hok : t.applyDiff (span.read copy) = t.writeData (span.read copy).data span.offset := by
      rw [applyDiff, show (span.read copy).operation = .bytewise from hop]
      rfl
    exact ⟨_, hok.trans (writeData_inside (by omega)), ⟨rfl, rfl⟩, length_patch _ _ _ _,
      heffect _ fun x byte => by simp [hop]⟩
  · have hok : t.applyDiff (span.read copy) = t.xorData (span.read copy).data span.offset := by
      rw [applyDiff, show (span.read copy).operation = .xor from hop]
      rfl
    exact ⟨_, hok.trans (xorData_inside (by omega)), ⟨rfl, rfl⟩, length_patch _ _ _ _,
      heffect _ fun x byte => by simp [hop]⟩

theorem applyDiffs_read {size : Nat} {spans : List DiffSpan}
    (hspans : ∀ span ∈ spans, (span.operation = .bytewise ∨ span.operation = .xor) ∧
      span.offset + span.length ≤ size)
    (hsize : size ≤ t.data.length) (hcopy : size ≤ copy.length) :
    ∃ t', t.applyDiffs (spans.map (DiffSpan.read copy)) = .ok t' ∧ t.SameUse t' ∧
      t'.data.length = t.data.length ∧
      ∀ i byte, (i < size → copy[i]? = some byte) → t'.data[i]? = t.data[i]?.map (effects spans byte i) := by
  induction spans generalizing t with
  | nil =>
    refine ⟨t, rfl, ⟨rfl, rfl⟩, rfl, fun i byte _ => ?_⟩
    have hid : effects [] byte i = id := rfl
    rw [hid, Option.map_id_fun, id]
  | cons span spans ih =>
    obtain ⟨hop, hin⟩ := hspans span (by simp)
    obtain ⟨t₁, hok, huse, hlen, hbytes⟩ := @applyDiff_read t copy span hop (by omega) (by omega)
    obtain ⟨t₂, hok', huse', hlen', hbytes'⟩ :=
      @ih t₁ (fun other hother => hspans other (by simp [hother])) (by omega)
    refine ⟨t₂, ?_, huse.trans huse', hlen'.trans hlen, fun i byte hbyte => ?_⟩
    · rw [applyDiffs, List.map_cons, List.foldlM_cons, hok]
      exact hok'
    · rw [hbytes' i byte hbyte, hbytes i byte fun hi => hbyte (by omega), Option.map_map]
      rfl

theorem writeData_end {buffer : List UInt8} (hmax : t.data.length + buffer.length ≤ t.maxSize) :
    ∃ t', t.writeData buffer t.data.length = .ok t' ∧ t.SameUse t' ∧ t'.data = t.data ++ buffer := by
  have hfits : ¬(t.data.length < t.data.length + buffer.length ∧
      t.maxSize < t.data.length + buffer.length) := by omega
  have hmax' : Nat.max t.data.length (t.data.length + buffer.length) = t.data.length + buffer.length :=
    Nat.max_eq_right (by omega)
  have hdata : patch (fun _ byte => byte) (resize t.data (t.data.length + buffer.length) 0) t.data.length
      buffer = t.data ++ buffer := by
    apply List.ext_getElem?
    intro i
    rw [getElem?_patch, getElem?_resize]
    by_cases hlo : i < t.data.length
    · have hle : ¬t.data.length ≤ i := by omega
      have hlt : i < t.data.length + buffer.length := by omega
      rw [List.getElem?_append_left hlo]
      simp [hle, hlt, List.getElem?_eq_getElem hlo]
    · rw [List.getElem?_append_right (by omega)]
      by_cases hhi : i < t.data.length + buffer.length
      · have hb := List.getElem?_eq_getElem (show i - t.data.length < buffer.length by omega)
        simp [hhi, show t.data.length ≤ i by omega, hb]
      · have hb : buffer[i - t.data.length]? = none := List.getElem?_eq_none (by omega)
        simp [hhi, hb]
  refine ⟨{ t with data := t.data ++ buffer }.trackChange t.data.length (t.data.length + buffer.length), ?_,
    ⟨rfl, rfl⟩, rfl⟩
  simp only [writeData, if_neg hfits, hmax', hdata]

/-- Applying the diffs merges the changes of the copy and puts its extension in place, in a snapshot
that has not been extended otherwise. -/
def MergesCopy (original updated : List UInt8) (diffs : List SnapshotDiff) : Prop :=
  ∀ t : SnapshotData, original.length ≤ t.data.length →
    (original.length < updated.length → t.data.length = original.length ∧ updated.length ≤ t.maxSize) →
    ∃ t', t.applyDiffs diffs = .ok t' ∧ t.SameUse t' ∧
      (∀ i, i < original.length → ∃ f, MergesAt original updated i f ∧ t'.data[i]? = t.data[i]?.map f) ∧
      ∀ i, original.length ≤ i →
        t'.data[i]? = if original.length < updated.length then updated[i]? else t.data[i]?

variable {original updated : List UInt8}

theorem MergesAt.of_take {size i : Nat} {f : UInt8 → UInt8} (hi : i < size)
    (h : MergesAt original (updated.take size) i f) : MergesAt original updated i f := by
  rwa [MergesAt, List.getElem?_take_of_lt hi] at h

theorem applyDiffs_extension {left : List UInt8} (hsmall : original.length < 2 ^ 32)
    (hleft : left.length = original.length) (hsize : original.length ≤ t.data.length)
    (hextend : original.length < updated.length →
      t.data.length = original.length ∧ updated.length ≤ t.maxSize) :
    ∃ t', t.applyDiffs ((extensionSpans original.length updated).map
        (DiffSpan.read (left ++ updated.drop original.length))) = .ok t' ∧ t.SameUse t' ∧
      original.length ≤ t'.data.length ∧ (∀ i, i < original.length → t'.data[i]? = t.data[i]?) ∧
      ∀ i, original.length ≤ i →
        t'.data[i]? = if original.length < updated.length then updated[i]? else t.data[i]? := by
  by_cases hlonger : original.length < updated.length
  · obtain ⟨hsame, hmax⟩ := hextend hlonger
    have hread : DiffSpan.read (left ++ updated.drop original.length)
        ⟨.raw, .bytewise, original.length % 2 ^ 32, updated.length - original.length⟩ =
          ⟨.raw, .bytewise, t.data.length, updated.drop original.length⟩ := by
      rw [DiffSpan.read, Nat.mod_eq_of_lt hsmall, List.drop_left' hleft, hsame,
        List.take_of_length_le (by simp)]
    have hroom : t.data.length + (updated.drop original.length).length ≤ t.maxSize := by
      rw [List.length_drop]
      omega
    obtain ⟨t', hwrite, huse, hdata⟩ := writeData_end hroom
    refine ⟨t', ?_, huse, ?_, fun i hi => ?_, fun i hi => ?_⟩
    · rw [extensionSpans, if_pos hlonger, List.map_singleton, hread, applyDiffs,
        List.foldlM_cons, applyDiff, hwrite]
      rfl
    · rw [hdata, List.length_append]
      omega
    · rw [hdata, List.getElem?_append_left (by omega)]
    · rw [if_pos hlonger, hdata, List.getElem?_append_right (by omega), List.getElem?_drop, hsame,
        Nat.add_sub_cancel' hi]
  · refine ⟨t, ?_, ⟨rfl, rfl⟩, hsize, fun _ _ => rfl, fun i _ => by rw [if_neg hlonger]⟩
    rw [extensionSpans, if_neg hlonger]
    rfl

theorem Diffed.mergesCopy {left : List UInt8} {spans : List DiffSpan}
    (h : Diffed original (updated.take original.length) (fun i => i < original.length) spans left)
    (hsmall : original.length < 2 ^ 32) (hlong : original.length ≤ updated.length) :
    MergesCopy original updated ((extensionSpans original.length updated ++ spans).map
      (DiffSpan.read (left ++ updated.drop original.length))) := by
  intro t hsize hextend
  have hleft : left.length = original.length := by
    rw [h.length, List.length_take]
    omega
  have hcopy : original.length ≤ (left ++ updated.drop original.length).length := by
    rw [List.length_append]
    omega
  obtain ⟨t₁, hok₁, huse₁, hsize₁, hbelow, habove⟩ := applyDiffs_extension hsmall hleft hsize hextend
  obtain ⟨t₂, hok₂, huse₂, -, hbytes⟩ := @applyDiffs_read t₁ (left ++ updated.drop original.length)
    original.length spans h.within hsize₁ hcopy
  refine ⟨t₂, ?_, huse₁.trans huse₂, fun i hi => ?_, fun i hi => ?_⟩
  · rw [List.map_append, applyDiffs, List.foldlM_append]
    rw [applyDiffs] at hok₁ hok₂
    rw [hok₁]
    exact hok₂
  · have hbyte := List.getElem?_eq_getElem (show i < left.length by omega)
    refine ⟨effects spans left[i] i, (h.merged i left[i] hi hbyte).of_take hi, ?_⟩
    rw [hbytes i left[i] fun _ => by rw [List.getElem?_append_left (by omega), hbyte], hbelow i hi]
  · have hnone : effects spans 0 i = id := by
      funext x
      refine effects_outside (fun span hspan hin => ?_) 0 x
      have := (h.within span hspan).2
      omega
    rw [hbytes i 0 fun hlt => absurd hlt (by omega), hnone, Option.map_id_fun, id, habove i hi]

end Applying

/-- A copy of the snapshot that was updated, the flags of its pages, and whether its diffs are queued
or applied at once. -/
structure UpdatedCopy where
  updated : List UInt8
  dirtyRegions : List Bool
  queued : Bool

def SnapshotData.diffCopies :
    SnapshotData → List UpdatedCopy → Except SnapshotError (List (Bool × List SnapshotDiff) × SnapshotData)
  | s, [] => .ok ([], s)
  | s, copy :: copies => do
    let (diffs, s) ← s.diffWithDirtyRegions copy.updated copy.dirtyRegions
    let (rest, s) ← s.diffCopies copies
    return ((copy.queued, diffs) :: rest, s)

def SnapshotData.mergeDiffs (s : SnapshotData) (diffs : Bool × List SnapshotDiff) :
    Except SnapshotError SnapshotData :=
  if diffs.1 then .ok (s.queueDiffs diffs.2) else s.applyDiffs diffs.2

def SnapshotData.mergeAll (s : SnapshotData) (diffs : List (Bool × List SnapshotDiff)) :
    Except SnapshotError SnapshotData := do
  let s ← diffs.foldlM mergeDiffs s
  s.writeQueuedDiffs

def mergedAt (original : List UInt8) (copies : List UpdatedCopy) (i : Nat) : Option UInt8 :=
  match copies.find? fun copy => copy.updated[i]? ≠ original[i]? with
  | some copy => copy.updated[i]?
  | none => original[i]?

def UpdatedCopy.Disjoint (original : List UInt8) (c c' : UpdatedCopy) : Prop :=
  ∀ i : Nat, c.updated[i]? = original[i]? ∨ c'.updated[i]? = original[i]?

instance (original : List UInt8) : Std.Symm (UpdatedCopy.Disjoint original) :=
  ⟨fun _ _ h i => (h i).symm⟩

section Copies

variable {original : List UInt8} {copies merged queued : List UpdatedCopy} {t : SnapshotData}

theorem mergedAt_of_unchanged {i : Nat} (h : ∀ c ∈ copies, c.updated[i]? = original[i]?) :
    mergedAt original copies i = original[i]? := by
  have hnone : copies.find? (fun copy => copy.updated[i]? ≠ original[i]?) = none := by
    rw [List.find?_eq_none]
    intro c hc
    simp [h c hc]
  rw [mergedAt, hnone]

theorem mergedAt_of_changed (hdisjoint : copies.Pairwise (UpdatedCopy.Disjoint original)) {i : Nat}
    {c : UpdatedCopy} (hc : c ∈ copies) (hchanged : c.updated[i]? ≠ original[i]?) :
    mergedAt original copies i = c.updated[i]? := by
  rcases hfind : copies.find? (fun copy => copy.updated[i]? ≠ original[i]?) with _ | other
  · have := List.find?_eq_none.mp hfind c hc
    simp [hchanged] at this
  · have hother : other.updated[i]? ≠ original[i]? := by simpa using List.find?_some hfind
    rw [mergedAt, hfind]
    -- two copies that change the same byte are the same copy
    by_cases heq : other = c
    · rw [heq]
    · have hpair := hdisjoint.forall (List.mem_of_find?_eq_some hfind) hc heq
      exact absurd (hpair i) (by simp [hother, hchanged])

theorem mergedAt_perm (hdisjoint : copies.Pairwise (UpdatedCopy.Disjoint original))
    (hperm : merged.Perm copies) (i : Nat) : mergedAt original merged i = mergedAt original copies i := by
  by_cases hchanged : ∃ c ∈ copies, c.updated[i]? ≠ original[i]?
  · obtain ⟨c, hc, hne⟩ := hchanged
    rw [mergedAt_of_changed hdisjoint hc hne, mergedAt_of_changed
      ((hperm.symm.pairwise_iff fun h => symm h).mp hdisjoint) (hperm.mem_iff.mpr hc) hne]
  · have hsame : ∀ c ∈ copies, c.updated[i]? = original[i]? := by
      intro c hc
      by_contra hne
      exact hchanged ⟨c, hc, hne⟩
    rw [mergedAt_of_unchanged hsame, mergedAt_of_unchanged fun c hc => hsame c (hperm.mem_iff.mp hc)]

theorem mergedAt_append_unchanged {i : Nat} {c : UpdatedCopy} (hc : c.updated[i]? = original[i]?) :
    mergedAt original (merged ++ [c]) i = mergedAt original merged i := by
  have hlast : [c].find? (fun copy => copy.updated[i]? ≠ original[i]?) = none := by simp [hc]
  rw [mergedAt, List.find?_append, hlast, Option.or_none, mergedAt]

theorem mergedAt_isSome (hlong : ∀ c ∈ copies, original.length ≤ c.updated.length) {i : Nat}
    (hi : i < original.length) : (mergedAt original copies i).isSome = true := by
  rw [mergedAt]
  split
  · rename_i c hfind
    have := hlong c (List.mem_of_find?_eq_some hfind)
    rw [List.getElem?_eq_getElem (by omega)]
    rfl
  · simpa using hi

/-- The copies can be merged one after the other into a snapshot of at most `maxSize` bytes. -/
structure Mergeable (original : List UInt8) (maxSize : Nat) (copies : List UpdatedCopy) : Prop where
  disjoint : copies.Pairwise (UpdatedCopy.Disjoint original)
  long : ∀ c ∈ copies, original.length ≤ c.updated.length
  fits : ∀ c ∈ copies, original.length < c.updated.length → c.updated.length ≤ maxSize

def HasMerged (original : List UInt8) (merged : List UpdatedCopy) (t : SnapshotData) : Prop :=
  ∀ i, t.data[i]? = mergedAt original merged i

theorem HasMerged.applyDiffs (h : HasMerged original merged t) {c : UpdatedCopy}
    (hcopies : Mergeable original t.maxSize (merged ++ [c])) {diffs : List SnapshotDiff}
    (hdiffs : MergesCopy original c.updated diffs) :
    ∃ t', t.applyDiffs diffs = .ok t' ∧ t.SameUse t' ∧ HasMerged original (merged ++ [c]) t' := by
  have hdisjoint := hcopies.disjoint
  have hlong := hcopies.long c (by simp)
  have hmax := hcopies.fits c (by simp)
  have hsize : original.length ≤ t.data.length := by
    by_contra hshort
    have hsome := mergedAt_isSome (fun c' hc' => hcopies.long c' (List.mem_append_left _ hc')) (show t.data.length < original.length by omega)
    rw [← h t.data.length] at hsome
    simp at hsome
  -- where the new copy has changed a byte the merged ones have not
  have hothers : ∀ i : Nat, c.updated[i]? ≠ original[i]? → t.data[i]? = original[i]? := by
    intro i hchanged
    rw [h i]
    refine mergedAt_of_unchanged fun c' hc' => ?_
    have hpair := (List.pairwise_append.mp hdisjoint).2.2 c' hc' c (by simp)
    exact (hpair i).resolve_right hchanged
  have hchange : ∀ i : Nat, c.updated[i]? ≠ original[i]? →
      mergedAt original (merged ++ [c]) i = c.updated[i]? :=
    fun i => mergedAt_of_changed hdisjoint (by simp)
  have hbeyond : ∀ i, original.length ≤ i → original[i]? = none := fun i => List.getElem?_eq_none
  have hextend : original.length < c.updated.length → t.data.length = original.length := by
    intro hlonger
    have hne : c.updated[original.length]? ≠ original[original.length]? := by
      rw [hbeyond _ le_rfl]
      simpa using hlonger
    have hnone := (hothers _ hne).trans (hbeyond _ le_rfl)
    have := List.getElem?_eq_none_iff.mp hnone
    omega
  obtain ⟨t', hok, huse, hbelow, habove⟩ := hdiffs t hsize fun hlonger => ⟨hextend hlonger, hmax hlonger⟩
  refine ⟨t', hok, huse, fun i => ?_⟩
  by_cases hi : i < original.length
  · obtain ⟨f, ⟨hsame, hput⟩, hdata⟩ := hbelow i hi
    by_cases hchanged : c.updated[i]? = original[i]?
    · have hid : f = id := funext (hsame hchanged.symm)
      rw [hdata, hid, Option.map_id_fun, id, h i, mergedAt_append_unchanged hchanged]
    · have hx := List.getElem?_eq_getElem hi
      have hy := List.getElem?_eq_getElem (show i < c.updated.length by omega)
      rw [hdata, hothers i hchanged, hchange i hchanged, hx, hy, Option.map_some, hput _ _ hx hy]
  · rw [habove i (by omega)]
    by_cases hchanged : c.updated[i]? = original[i]?
    · rw [mergedAt_append_unchanged hchanged, ← h i]
      split_ifs with hlonger
      · have hend := hextend hlonger
        rw [hchanged, hbeyond i (by omega), List.getElem?_eq_none (by omega)]
      · rfl
    · have hlonger : original.length < c.updated.length := by
        by_contra hno
        exact hchanged (by rw [hbeyond i (by omega), List.getElem?_eq_none (by omega)])
      rw [if_pos hlonger, hchange i hchanged]

theorem Mergeable.perm {maxSize : Nat} (h : Mergeable original maxSize copies) (hperm : merged.Perm copies) :
    Mergeable original maxSize merged where
  disjoint := (hperm.symm.pairwise_iff fun h => symm h).mp h.disjoint
  long := fun c hc => h.long c (hperm.mem_iff.mp hc)
  fits := fun c hc => h.fits c (hperm.mem_iff.mp hc)

theorem Mergeable.sublist {maxSize : Nat} (h : Mergeable original maxSize copies)
    (hsub : merged.Sublist copies) : Mergeable original maxSize merged where
  disjoint := h.disjoint.sublist hsub
  long := fun c hc => h.long c (hsub.subset hc)
  fits := fun c hc => h.fits c (hsub.subset hc)

def HasQueued (original : List UInt8) (queued : List UpdatedCopy) (diffs : List SnapshotDiff) : Prop :=
  ∃ parts, diffs = parts.flatten ∧
    List.Forall₂ (fun copy part => MergesCopy original copy.updated part) queued parts

theorem HasQueued.snoc {diffs part : List SnapshotDiff} {c : UpdatedCopy}
    (h : HasQueued original queued diffs) (hc : MergesCopy original c.updated part) :
    HasQueued original (queued ++ [c]) (diffs ++ part) := by
  obtain ⟨parts, rfl, hparts⟩ := h
  exact ⟨parts ++ [part], by simp, List.rel_append hparts (.cons hc .nil)⟩

theorem HasQueued.applyDiffs {diffs : List SnapshotDiff} (hqueue : HasQueued original queued diffs)
    (h : HasMerged original merged t) (hcopies : Mergeable original t.maxSize (merged ++ queued)) :
    ∃ t', t.applyDiffs diffs = .ok t' ∧ t.SameUse t' ∧ HasMerged original (merged ++ queued) t' := by
  obtain ⟨parts, rfl, hparts⟩ := hqueue
  induction hparts generalizing merged t with
  | nil => exact ⟨t, rfl, ⟨rfl, rfl⟩, by rwa [List.append_nil]⟩
  | @cons c part queued parts hc _ ih =>
    have hsplit : merged ++ c :: queued = (merged ++ [c]) ++ queued := by simp
    rw [hsplit] at hcopies
    have hfirst := hcopies.sublist (List.sublist_append_left (merged ++ [c]) queued)
    obtain ⟨t₁, hok₁, huse₁, hmerged₁⟩ := h.applyDiffs hfirst hc
    obtain ⟨t₂, hok₂, huse₂, hmerged₂⟩ := ih hmerged₁ (by rwa [huse₁.maxSize])
    refine ⟨t₂, ?_, huse₁.trans huse₂, by rwa [hsplit]⟩
    rw [applyDiffs] at hok₁ hok₂ ⊢
    rw [List.flatten_cons, List.foldlM_append, hok₁]
    exact hok₂

theorem foldlM_mergeDiffs {rest : List UpdatedCopy} {diffs : List (Bool × List SnapshotDiff)}
    (hdiffs : List.Forall₂ (fun d copy => MergesCopy original copy.updated d.2) diffs rest)
    (h : HasMerged original merged t) (hqueue : HasQueued original queued t.queuedDiffs)
    (hcopies : Mergeable original t.maxSize (merged ++ queued ++ rest)) :
    ∃ t' merged' queued', diffs.foldlM mergeDiffs t = .ok t' ∧ t'.maxSize = t.maxSize ∧
      HasMerged original merged' t' ∧ HasQueued original queued' t'.queuedDiffs ∧
      (merged' ++ queued').Perm (merged ++ queued ++ rest) := by
  induction hdiffs generalizing merged queued t with
  | nil => exact ⟨t, merged, queued, rfl, rfl, h, hqueue, by simp⟩
  | @cons d c diffs rest hc _ ih =>
    by_cases hq : d.1 = true
    · have hperm : (merged ++ (queued ++ [c]) ++ rest).Perm (merged ++ queued ++ c :: rest) := by simp
      obtain ⟨t', merged', queued', hok, hmax, hm, hqd, hp⟩ := @ih merged (queued ++ [c]) (t.queueDiffs d.2) h
        (hqueue.snoc hc) (hcopies.perm hperm)
      refine ⟨t', merged', queued', ?_, hmax, hm, hqd, hp.trans hperm⟩
      rw [List.foldlM_cons, mergeDiffs, if_pos hq]
      exact hok
    · have hperm : (merged ++ [c] ++ queued ++ rest).Perm (merged ++ queued ++ c :: rest) := by
        have hmid := (@List.perm_middle _ c queued rest).symm
        simpa using hmid.append_left merged
      have hfirst := (hcopies.perm hperm).sublist
        (((List.sublist_append_left (merged ++ [c]) queued).trans (List.sublist_append_left _ rest)))
      obtain ⟨t₁, hok₁, huse₁, hmerged₁⟩ := h.applyDiffs hfirst hc
      obtain ⟨t', merged', queued', hok, hmax, hm, hqd, hp⟩ := @ih (merged ++ [c]) queued t₁ hmerged₁
        (by rwa [huse₁.queuedDiffs]) (by rw [huse₁.maxSize]; exact hcopies.perm hperm)
      refine ⟨t', merged', queued', ?_, hmax.trans huse₁.maxSize, hm, hqd, hp.trans hperm⟩
      rw [List.foldlM_cons, mergeDiffs, if_neg hq, hok₁]
      exact hok

theorem mergeAll_spec {diffs order : List (Bool × List SnapshotDiff)}
    (hdiffs : List.Forall₂ (fun d copy => MergesCopy original copy.updated d.2) diffs copies)
    (horder : order.Perm diffs) (hdata : t.data = original) (hqueue : t.queuedDiffs = [])
    (hcopies : Mergeable original t.maxSize copies) :
    ∃ t', t.mergeAll order = .ok t' ∧ HasMerged original copies t' := by
  obtain ⟨copies', hdiffs', hperm⟩ := List.perm_comp_forall₂ horder hdiffs
  have hstart : HasMerged original [] t := fun i => by rw [hdata]; rfl
  obtain ⟨t₁, merged, queued, hok₁, hmax₁, hm₁, hq₁, hp₁⟩ := @foldlM_mergeDiffs original [] [] t copies' order
    hdiffs' hstart ⟨[], by simp [hqueue], .nil⟩ (hcopies.perm hperm)
  have hall : (merged ++ queued).Perm copies := hp₁.trans hperm
  obtain ⟨t₂, hok₂, -, hm₂⟩ := hq₁.applyDiffs hm₁ (by rw [hmax₁]; exact hcopies.perm hall)
  refine ⟨{ t₂ with queuedDiffs := [] }, ?_, fun i => (hm₂ i).trans (mergedAt_perm hcopies.disjoint hall i)⟩
  simp only [mergeAll, hok₁, writeQueuedDiffs, hok₂, bind, Except.bind]
  rfl

end Copies

def UpdatedCopy.Flagged (original : List UInt8) (c : UpdatedCopy) : Prop :=
  getRequiredHostPages original.length ≤ c.dirtyRegions.length ∧
    MarksChanges original c.updated c.dirtyRegions

theorem diffCopies_spec {s : SnapshotData} (hcovers : Covers s.data.length s.mergeRegions)
    (hsmall : s.data.length + hostPageSize < 2 ^ 32) {copies : List UpdatedCopy}
    (hlong : ∀ c ∈ copies, s.data.length ≤ c.updated.length)
    (hflags : ∀ c ∈ copies, c.Flagged s.data) :
    ∃ diffs regions, s.diffCopies copies = .ok (diffs, { s with mergeRegions := regions }) ∧
      List.Forall₂ (fun d copy => MergesCopy s.data copy.updated d.2) diffs copies := by
  induction copies generalizing s with
  | nil => exact ⟨[], s.mergeRegions, rfl, .nil⟩
  | cons c copies ih =>
    obtain ⟨hpages, hmarks⟩ := hflags c (by simp)
    obtain ⟨spans, left, regions, hok, hcovers', hdiffed⟩ :=
      diffWithDirtyRegions_spec hcovers hsmall (hlong c (by simp)) hpages hmarks
    obtain ⟨diffs, regions', hok', hdiffs⟩ := @ih { s with mergeRegions := regions } hcovers' hsmall
      (fun c' hc' => hlong c' (by simp [hc'])) (fun c' hc' => hflags c' (by simp [hc']))
    have hmerges := hdiffed.mergesCopy (by omega) (hlong c (by simp))
    refine ⟨(c.queued, (extensionSpans s.data.length c.updated ++ spans).map
      (DiffSpan.read (left ++ c.updated.drop s.data.length))) :: diffs, regions', ?_, .cons hmerges hdiffs⟩
    simp only [diffCopies, hok, hok', bind, Except.bind]
    rfl

/-- With merge regions completed in either mode, the diffs of copies that change different bytes give,
applied or queued and written in any order, the snapshot with every change and the extension. -/
theorem snapshot_merge_loses_no_change {s : SnapshotData} {diffingMode : String} {copies : List UpdatedCopy}
    (hsize : s.data.length < 2 ^ 32 - 4096) (hqueue : s.queuedDiffs = [])
    (hmode : diffingMode = "bytewise" ∨ diffingMode = "xor")
    (hregions : ∀ r ∈ s.mergeRegions, r.Plain ∧ 0 < r.length)
    (hapart : s.mergeRegions.Pairwise fun r r' =>
      r.offset + r.length ≤ r'.offset ∨ r'.offset + r'.length ≤ r.offset)
    (hcopies : Mergeable s.data s.maxSize copies) (hflags : ∀ c ∈ copies, c.Flagged s.data) :
    ∃ filled diffs s', s.fillGapsWithBytewiseRegions diffingMode = .ok filled ∧
      filled.diffCopies copies = .ok (diffs, s') ∧
      ∀ order : List (Bool × List SnapshotDiff), order.Perm diffs → ∃ merged, s'.mergeAll order = .ok merged ∧
        ∀ i : Nat, merged.data[i]? = mergedAt s.data copies i := by
  have hpage : hostPageSize = 4096 := rfl
  obtain ⟨fillType, hfill, hop⟩ : ∃ fillType, fillTypeOf diffingMode = .ok fillType ∧
      (fillType = .bytewise ∨ fillType = .xor) := by
    rcases hmode with rfl | rfl
    · exact ⟨.bytewise, rfl, .inl rfl⟩
    · exact ⟨.xor, rfl, .inr rfl⟩
  obtain ⟨regions, hfilled, hcovers⟩ := fillGapsWith_spec hop (show s.data.length < 2 ^ 32 by omega)
    hregions hapart
  obtain ⟨diffs, regions', hdiff, hdiffs⟩ := @diffCopies_spec { s with mergeRegions := regions } hcovers
    (show s.data.length + hostPageSize < 2 ^ 32 by omega) copies hcopies.long hflags
  refine ⟨{ s with mergeRegions := regions }, diffs, { s with mergeRegions := regions' }, ?_, hdiff, ?_⟩
  · rw [fillGapsWithBytewiseRegions, hfill, ← hfilled]
    rfl
  · intro order horder
    exact mergeAll_spec hdiffs horder rfl hqueue hcopies

def smallSnapshot : SnapshotData where
  data := [1, 2, 3, 4, 5, 6]
  maxSize := 10
  mergeRegions := [{ offset := 1, length := 2, operation := .xor }]

def smallCopies : List UpdatedCopy :=
  [⟨[9, 2, 3, 4, 5, 6], [true], true⟩, ⟨[1, 2, 7, 4, 5, 6, 8], [true], false⟩]

theorem snapshot_merge_loses_no_change_two :
    ∃ filled diffs s', smallSnapshot.fillGapsWithBytewiseRegions "bytewise" = .ok filled ∧
      filled.diffCopies smallCopies = .ok (diffs, s') ∧
      ∀ order : List (Bool × List SnapshotDiff), order.Perm diffs → ∃ merged, s'.mergeAll order = .ok merged ∧
        ∀ i : Nat, merged.data[i]? = mergedAt [1, 2, 3, 4, 5, 6] smallCopies i := by
  have hdisjoint : ∀ i : Nat, ([9, 2, 3, 4, 5, 6] : List UInt8)[i]? = [1, 2, 3, 4, 5, 6][i]? ∨
      ([1, 2, 7, 4, 5, 6, 8] : List UInt8)[i]? = [1, 2, 3, 4, 5, 6][i]? := by
    intro i
    by_cases hi : i < 7
    · interval_cases i <;> simp
    · exact .inr (by rw [List.getElem?_eq_none (by simp; omega), List.getElem?_eq_none (by simp; omega)])
  refine snapshot_merge_loses_no_change (by decide) rfl (.inl rfl) ?_ (by simp [smallSnapshot]) ⟨?_, ?_, ?_⟩ ?_
  · simp [smallSnapshot, SnapshotMergeRegion.Plain]
  · refine .cons (fun c hc => ?_) (.cons (by simp) .nil)
    obtain rfl := List.mem_singleton.mp hc
    exact hdisjoint
  · simp [smallCopies, smallSnapshot]
  · simp [smallCopies, smallSnapshot]
  · intro c hc
    have hpage : ∀ i < 6, i / hostPageSize = 0 := fun i hi => Nat.div_eq_of_lt (by simp [hostPageSize]; omega)
    refine ⟨?_, fun i hi _ => ?_⟩
    · fin_cases hc <;> decide
    · rw [hpage i hi]
      fin_cases hc <;> rfl

end Faabric
