import Mathlib

/-! Buffers that consist of `n` blocks of one size, and writing to them. -/

namespace Blocks

variable {α : Type*} {n : Nat} {size : Nat}

def writeAt (buffer : List α) (offset : Nat) (data : List α) : List α :=
  buffer.take offset ++ data ++ buffer.drop (offset + data.length)

def join (block : Fin n → List α) : List α := (List.finRange n).flatMap block

def slice (buffer : List α) (size k : Nat) : List α := (buffer.drop (k * size)).take size

theorem length_flatMap {ι : Type*} {l : List ι} {f : ι → List α} (h : ∀ i ∈ l, (f i).length = size) :
    (l.flatMap f).length = l.length * size := by
  induction l with
  | nil => simp
  | cons i l ih =>
    have hrest := ih fun j hj => h j (List.mem_cons_of_mem i hj)
    have hi := h i List.mem_cons_self
    simp only [List.flatMap_cons, List.length_append, List.length_cons, hrest, hi]
    ring

variable {block : Fin n → List α}

theorem length_join (h : ∀ i, (block i).length = size) : (join block).length = n * size := by
  rw [join, length_flatMap fun i _ => h i, List.length_finRange]

theorem finRange_split (k : Fin n) :
    List.finRange n = (List.finRange n).take k ++ k :: (List.finRange n).drop (k + 1) := by
  have hk : (k : Nat) < (List.finRange n).length := by simp
  have hget : (List.finRange n)[(k : Nat)] = k := by simp
  conv_lhs => rw [← List.take_append_drop k (List.finRange n), List.drop_eq_getElem_cons hk, hget]

theorem join_split (h : ∀ i, (block i).length = size) (k : Fin n) :
    ∃ before after, before.length = k * size ∧ join block = before ++ block k ++ after ∧
      ∀ data, join (Function.update block k data) = before ++ data ++ after := by
  have hnd : (List.finRange n).Nodup := List.nodup_finRange n
  have hsplit := finRange_split k
  rw [hsplit, List.nodup_append] at hnd
  obtain ⟨-, hcons, hapart⟩ := hnd
  have hbefore : k ∉ (List.finRange n).take k := fun hmem => hapart k hmem k List.mem_cons_self rfl
  have hafter : k ∉ (List.finRange n).drop (k + 1) := (List.nodup_cons.mp hcons).1
  have hsame (data : List α) (l : List (Fin n)) (hl : k ∉ l) :
      l.flatMap (Function.update block k data) = l.flatMap block := by
    apply List.flatMap_congr
    intro i hi
    have hne : i ≠ k := fun heq => hl (heq ▸ hi)
    rw [Function.update_of_ne hne]
  refine ⟨((List.finRange n).take k).flatMap block, ((List.finRange n).drop (k + 1)).flatMap block, ?_, ?_, ?_⟩
  · rw [length_flatMap fun i _ => h i, List.length_take, List.length_finRange, Nat.min_eq_left k.isLt.le]
  · rw [join, hsplit, List.flatMap_append, List.flatMap_cons, List.append_assoc, ← hsplit]
  · intro data
    rw [join, hsplit, List.flatMap_append, List.flatMap_cons, Function.update_self, hsame data _ hbefore,
      hsame data _ hafter, List.append_assoc, ← hsplit]

theorem slice_join (h : ∀ i, (block i).length = size) (k : Fin n) : slice (join block) size k = block k := by
  obtain ⟨before, after, hlen, hjoin, -⟩ := join_split h k
  rw [slice, hjoin, List.append_assoc, List.drop_left' hlen, List.take_left' (h k)]

theorem slice_append {buffer rest : List α} {k : Nat} (h : (k + 1) * size ≤ buffer.length) :
    slice (buffer ++ rest) size k = slice buffer size k := by
  rw [Nat.succ_mul] at h
  rw [slice, slice, List.drop_append_of_le_length (by omega), List.take_append_of_le_length]
  rw [List.length_drop]
  omega

theorem writeAt_join (h : ∀ i, (block i).length = size) (k : Fin n) {data : List α}
    (hdata : data.length = size) :
    writeAt (join block) (k * size) data = join (Function.update block k data) := by
  obtain ⟨before, after, hlen, hjoin, hupdate⟩ := join_split h k
  have hrest : (before ++ block k).length = k * size + data.length := by simp [hlen, h k, hdata]
  rw [writeAt, hupdate, hjoin, List.drop_left' hrest, List.append_assoc before, List.take_left' hlen]

theorem writeAt_block {data : Fin n → List α} (h : ∀ i, (block i).length = size) (k : Fin n)
    (hdata : (data k).length = size) :
    writeAt (join block) (k * size) (data k) = join fun i => if i = k then data i else block i := by
  rw [writeAt_join h k hdata]
  congr 1
  funext i
  by_cases hi : i = k
  · subst hi
    simp
  · simp [hi]

theorem length_slice {buffer : List α} (h : buffer.length = n * size) (k : Fin n) :
    (slice buffer size k).length = size := by
  have hk : (k + 1) * size ≤ n * size := Nat.mul_le_mul_right size k.isLt
  rw [Nat.succ_mul] at hk
  rw [slice, List.length_take, List.length_drop, h]
  omega

theorem join_slice {buffer : List α} (h : buffer.length = n * size) :
    join (fun k : Fin n => slice buffer size k) = buffer := by
  induction n generalizing buffer with
  | zero =>
    have hnil : buffer = [] := List.length_eq_zero_iff.mp (by omega)
    simp [join, hnil]
  | succ n ih =>
    have hlen : (buffer.drop size).length = n * size := by
      rw [List.length_drop, h, Nat.succ_mul]
      omega
    have hrest := ih hlen
    have hshift (k : Fin n) : slice buffer size (k.succ : Fin (n + 1)) = slice (buffer.drop size) size k := by
      simp [slice, Nat.succ_mul, Nat.add_comm]
    rw [join, List.finRange_succ, List.flatMap_cons, List.flatMap_map]
    have hfirst : slice buffer size ((0 : Fin (n + 1)) : Nat) = buffer.take size := by simp [slice]
    rw [hfirst]
    calc buffer.take size ++ (List.finRange n).flatMap (fun k => slice buffer size (k.succ : Fin (n + 1)))
        = buffer.take size ++ join (fun k : Fin n => slice (buffer.drop size) size k) := by
          rw [join]
          congr 1
          exact List.flatMap_congr fun k _ => hshift k
      _ = buffer := by rw [hrest, List.take_append_drop]

theorem foldl_fill {ι : Type*} {f : List α → ι → List α} {fills : ι → Fin n → Prop} [∀ i, DecidablePred (fills i)]
    {data : Fin n → List α} (hdata : ∀ k, (data k).length = size) {l : List ι}
    (hf : ∀ i ∈ l, ∀ block : Fin n → List α, (∀ k, (block k).length = size) →
      f (join block) i = join fun k => if fills i k then data k else block k)
    {block : Fin n → List α} (h : ∀ k, (block k).length = size) :
    l.foldl f (join block) = join fun k => if ∃ i ∈ l, fills i k then data k else block k := by
  induction l generalizing block with
  | nil => simp
  | cons i l ih =>
    rw [List.foldl_cons, hf i List.mem_cons_self block h,
      ih (fun j hj => hf j (List.mem_cons_of_mem i hj)) fun k => by split_ifs <;> simp [hdata, h]]
    congr 1
    funext k
    by_cases hi : fills i k
    · simp [hi]
    · simp [hi]

theorem foldl_change {g : Fin n → List α → List α} (hg : ∀ k b, b.length = size → (g k b).length = size)
    {l : List (Fin n)} (hnd : l.Nodup) (h : ∀ k, (block k).length = size) :
    l.foldl (fun buffer (k : Fin n) => writeAt buffer (k * size) (g k (slice buffer size k))) (join block) =
      join fun k => if k ∈ l then g k (block k) else block k := by
  induction l generalizing block with
  | nil => simp
  | cons i l ih =>
    obtain ⟨hnot, hrest⟩ := List.nodup_cons.mp hnd
    have hlen (k : Fin n) : (Function.update block i (g i (block i)) k).length = size := by
      by_cases hk : k = i
      · subst hk
        simpa using hg k (block k) (h k)
      · simpa [hk] using h k
    rw [List.foldl_cons, slice_join h, writeAt_join h i (hg i (block i) (h i)), ih hrest hlen]
    congr 1
    funext k
    by_cases hk : k = i
    · subst hk
      simp [hnot]
    · simp [hk]

end Blocks
