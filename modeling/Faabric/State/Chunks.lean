import Faabric.Util.Snapshot

/-! The chunks in which a host pushes its copy of a state value to the main host and pulls it from there. -/

namespace Faabric

/-- The data of a chunk is what the memory it is taken from has there. -/
structure StateChunk where
  offset : Nat
  length : Nat
deriving DecidableEq

def StateChunk.Spans (chunk : StateChunk) (x : Nat) : Prop :=
  chunk.offset ≤ x ∧ x < chunk.offset + chunk.length

instance (chunk : StateChunk) (x : Nat) : Decidable (chunk.Spans x) := inferInstanceAs (Decidable (_ ∧ _))

def STATE_STREAMING_CHUNK_SIZE : Nat := 64 * 1024

def sharedMemSize (valueSize : UInt64) : Nat := getRequiredHostPages valueSize.toNat * hostPageSize

abbrev SharedMemory (valueSize : UInt64) := Fin (sharedMemSize valueSize) → UInt8

variable {valueSize : UInt64}

/-- The number of chunks and their starts are 32-bit numbers. -/
def getAllChunks (valueSize : UInt64) : List StateChunk :=
  let size := STATE_STREAMING_CHUNK_SIZE
  let nChunks := (valueSize.toNat + size - 1) % 2 ^ 64 / size % 2 ^ 32
  (List.range nChunks).map fun i =>
    let previousChunkEnd := i * size % 2 ^ 32
    { offset := previousChunkEnd
      length := min size ((valueSize.toNat + 2 ^ 64 - previousChunkEnd) % 2 ^ 64) }

/-- Chunks sent one by one. One that ends behind `limit` throws. -/
def copyChunks (limit : Nat) (target : SharedMemory valueSize) :
    List (SharedMemory valueSize × StateChunk) → Option (SharedMemory valueSize)
  | [] => some target
  | (source, chunk) :: rest =>
    if limit < (chunk.offset + chunk.length) % 2 ^ 64 then none
    else copyChunks limit (fun x => if chunk.Spans x then source x else target x) rest

/-- The main host checks a push against its memory, and a pull against the size. -/
def pushChunks (host main : SharedMemory valueSize) (chunks : List StateChunk) :
    Option (SharedMemory valueSize) :=
  copyChunks (sharedMemSize valueSize) main (chunks.map (host, ·))

def pullChunks (main host : SharedMemory valueSize) (chunks : List StateChunk) :
    Option (SharedMemory valueSize) :=
  copyChunks valueSize.toNat host (chunks.map (main, ·))

theorem le_sharedMemSize (valueSize : UInt64) : valueSize.toNat ≤ sharedMemSize valueSize := by
  simp only [sharedMemSize, getRequiredHostPages, hostPageSize]
  omega

def StateChunk.Apart (a b : StateChunk) : Prop := ∀ x, ¬(a.Spans x ∧ b.Spans x)

instance : Std.Symm StateChunk.Apart := ⟨fun _ _ h x hx => h x hx.symm⟩

/-- Chunks of the value are all accepted. One that shares no byte with a different one is there as its
last sender has it. -/
theorem copyChunks_spec {limit : Nat} (hlimit : valueSize.toNat ≤ limit)
    {copies : List (SharedMemory valueSize × StateChunk)}
    (hcopies : ∀ copy ∈ copies, copy.2.offset + copy.2.length ≤ valueSize.toNat) (target : SharedMemory valueSize) :
    ∃ after, copyChunks limit target copies = some after ∧
      ∀ chunk, (∀ copy ∈ copies, copy.2 = chunk ∨ copy.2.Apart chunk) →
        (∃ copy ∈ copies, copy.2 = chunk ∧ ∀ x : Fin _, chunk.Spans x → after x = copy.1 x) ∨
        (∀ copy ∈ copies, copy.2 ≠ chunk) ∧ ∀ x : Fin _, chunk.Spans x → after x = target x := by
  induction copies generalizing target with
  | nil => exact ⟨target, rfl, fun _ _ => .inr ⟨nofun, fun _ _ => rfl⟩⟩
  | cons copy copies ih =>
    obtain ⟨hend, hrest⟩ := List.forall_mem_cons.mp hcopies
    obtain ⟨after, hafter, hchunks⟩ := ih hrest fun x => if copy.2.Spans x then copy.1 x else target x
    have hsize := valueSize.toNat_lt
    refine ⟨after, ?_, fun chunk hapart => ?_⟩
    · rw [copyChunks, if_neg (by omega), hafter]
    · obtain ⟨hfirst, hapart⟩ := List.forall_mem_cons.mp hapart
      rcases hchunks chunk hapart with ⟨last, hlast, hsent⟩ | ⟨hnone, hsame⟩
      · exact .inl ⟨last, .tail _ hlast, hsent⟩
      · by_cases heq : copy.2 = chunk
        · exact .inl ⟨copy, .head _, heq, fun x hx => (hsame x hx).trans (if_pos (heq ▸ hx))⟩
        · refine .inr ⟨List.forall_mem_cons.mpr ⟨heq, hnone⟩, fun x hx => (hsame x hx).trans (if_neg fun hc => ?_)⟩
          exact hfirst.resolve_left heq x ⟨hc, hx⟩

theorem getAllChunks_end_le {chunk : StateChunk} (h : chunk ∈ getAllChunks valueSize) :
    chunk.offset + chunk.length ≤ 2 ^ 32 := by
  obtain ⟨i, _, rfl⟩ := List.mem_map.mp h
  simp only [STATE_STREAMING_CHUNK_SIZE]
  omega

/-- The chunks are in order, none is empty, and together they have each byte of the value. -/
structure Partitions (chunks : List StateChunk) (size : Nat) : Prop where
  nonempty : ∀ chunk ∈ chunks, 0 < chunk.length
  disjoint : chunks.Pairwise fun chunk next => chunk.offset + chunk.length ≤ next.offset
  covers : ∀ x, (∃ chunk ∈ chunks, chunk.Spans x) ↔ x < size

theorem getAllChunks_partitions (h : valueSize.toNat ≤ 2 ^ 32) :
    Partitions (getAllChunks valueSize) valueSize.toNat := by
  have hplain : getAllChunks valueSize = (List.range ((valueSize.toNat + 65535) / 65536)).map fun i =>
      ⟨i * 65536, min 65536 (valueSize.toNat - i * 65536)⟩ := by
    simp only [getAllChunks, STATE_STREAMING_CHUNK_SIZE]
    rw [show (valueSize.toNat + 64 * 1024 - 1) % 2 ^ 64 / (64 * 1024) % 2 ^ 32 =
      (valueSize.toNat + 65535) / 65536 by omega]
    refine List.map_congr_left fun i hi => ?_
    rw [List.mem_range] at hi
    simp only [StateChunk.mk.injEq]
    omega
  rw [hplain]
  refine ⟨List.forall_mem_map.mpr fun i hi => ?_, ?_, fun x => ?_⟩
  · rw [List.mem_range] at hi
    dsimp only
    omega
  · refine List.pairwise_map.mpr (List.pairwise_lt_range.imp fun hlt => ?_)
    dsimp only
    omega
  · simp only [List.mem_map, exists_exists_and_eq_and, List.mem_range, StateChunk.Spans]
    exact ⟨fun ⟨i, hi, hx⟩ => by omega, fun hx => ⟨x / 65536, by omega, by omega⟩⟩

theorem Partitions.inside {chunks : List StateChunk} {size : Nat} (h : Partitions chunks size) :
    ∀ chunk ∈ chunks, chunk.offset + chunk.length ≤ size ∧ ∀ other ∈ chunks, other = chunk ∨ other.Apart chunk := by
  intro chunk hchunk
  have hpos := h.nonempty chunk hchunk
  have hlast := (h.covers (chunk.offset + chunk.length - 1)).mp ⟨chunk, hchunk, by omega, by omega⟩
  refine ⟨by omega, fun other hother => ?_⟩
  have hapart : chunks.Pairwise StateChunk.Apart := h.disjoint.imp fun hle x hx => by
    simp only [StateChunk.Spans] at hx
    omega
  exact or_iff_not_imp_left.mpr (hapart.forall hother hchunk)

/-- The chunks of a value partition it, and a push and a pull on another host reproduce it, if and only
if its size is at most 2³². -/
theorem getAllChunks_exact_iff (valueSize : UInt64) :
    (Partitions (getAllChunks valueSize) valueSize.toNat ∧ ∀ host main other : SharedMemory valueSize,
      ∃ main' other', pushChunks host main (getAllChunks valueSize) = some main' ∧
        pullChunks main' other (getAllChunks valueSize) = some other' ∧
        ∀ x, x.val < valueSize.toNat → other' x = host x) ↔ valueSize.toNat ≤ 2 ^ 32 := by
  constructor
  · rintro ⟨hall, -⟩
    by_contra hlarge
    obtain ⟨chunk, hchunk, hcovers⟩ := (hall.covers (2 ^ 32)).mpr (Nat.lt_of_not_le hlarge)
    exact absurd hcovers.2 (Nat.not_lt.mpr (getAllChunks_end_le hchunk))
  · intro hsmall
    have hall := getAllChunks_partitions hsmall
    have hcopy {limit : Nat} (hlimit : valueSize.toNat ≤ limit) (source target : SharedMemory valueSize) :
        ∃ after, copyChunks limit target ((getAllChunks valueSize).map (source, ·)) = some after ∧
          ∀ x, x.val < valueSize.toNat → after x = source x := by
      obtain ⟨after, hafter, hchunks⟩ := copyChunks_spec hlimit (List.forall_mem_map.mpr fun chunk hchunk =>
        (hall.inside chunk hchunk).1 : ∀ copy ∈ (getAllChunks valueSize).map (source, ·), _) target
      refine ⟨after, hafter, fun x hx => ?_⟩
      obtain ⟨chunk, hchunk, hcovers⟩ := (hall.covers x).mpr hx
      rcases hchunks chunk (List.forall_mem_map.mpr (hall.inside chunk hchunk).2) with ⟨copy, hcopy, -, hsent⟩ | hnone
      · obtain ⟨_, _, rfl⟩ := List.mem_map.mp hcopy
        exact hsent x hcovers
      · exact absurd rfl (hnone.1 _ (List.mem_map_of_mem hchunk))
    refine ⟨hall, fun host main other => ?_⟩
    obtain ⟨main', hpush, hmain⟩ := hcopy (le_sharedMemSize valueSize) host main
    obtain ⟨other', hpull, hother⟩ := hcopy le_rfl main' other
    exact ⟨main', other', hpush, hpull, fun x hx => (hother x hx).trans (hmain x hx)⟩

/-- The chunk starts wrap: no chunk has the last byte of a value of 2³² + 1 bytes. -/
theorem getAllChunks_misses_byte : ¬∃ chunk ∈ getAllChunks 4294967297, chunk.Spans 4294967296 := by
  rintro ⟨chunk, hchunk, hcovers⟩
  exact absurd hcovers.2 (Nat.not_lt.mpr (getAllChunks_end_le hchunk))

/-- Whole values pushed by several hosts, their chunks in any order: each chunk of the main host's value
is then the whole chunk of one of the hosts. -/
theorem full_pushes_tear_between_chunks (hsmall : valueSize.toNat ≤ 2 ^ 32) {hosts : List (SharedMemory valueSize)}
    (hsome : hosts ≠ []) {pushes : List (SharedMemory valueSize × StateChunk)}
    (hpushes : pushes.Perm (hosts ×ˢ getAllChunks valueSize)) (main : SharedMemory valueSize) :
    ∃ main', copyChunks (sharedMemSize valueSize) main pushes = some main' ∧
      ∀ chunk ∈ getAllChunks valueSize, ∃ host ∈ hosts, ∀ x : Fin _, chunk.Spans x → main' x = host x := by
  have hall := getAllChunks_partitions hsmall
  have hmem (copy : SharedMemory valueSize × StateChunk) :
      copy ∈ pushes ↔ copy.1 ∈ hosts ∧ copy.2 ∈ getAllChunks valueSize := by
    rw [hpushes.mem_iff, List.mem_product]
  obtain ⟨main', hok, hchunks⟩ := copyChunks_spec (le_sharedMemSize valueSize)
    (fun copy hcopy => (hall.inside copy.2 ((hmem copy).mp hcopy).2).1) main
  refine ⟨main', hok, fun chunk hchunk => ?_⟩
  rcases hchunks chunk fun copy hcopy => (hall.inside chunk hchunk).2 copy.2 ((hmem copy).mp hcopy).2 with
    ⟨copy, hcopy, -, hsent⟩ | ⟨hnone, -⟩
  · exact ⟨copy.1, ((hmem copy).mp hcopy).1, hsent⟩
  · obtain ⟨host, hhost⟩ := List.exists_mem_of_ne_nil hosts hsome
    exact absurd rfl (hnone (host, chunk) ((hmem _).mpr ⟨hhost, hchunk⟩))

theorem full_pushes_tear_between_chunks_two :
    let hosts : List (SharedMemory 70000) := [fun _ => 1, fun _ => 2]
    ∃ main', copyChunks (sharedMemSize 70000) (fun _ => 0) (hosts ×ˢ getAllChunks 70000).reverse = some main' ∧
      ∀ chunk ∈ getAllChunks 70000, ∃ host ∈ hosts, ∀ x : Fin _, chunk.Spans x → main' x = host x :=
  full_pushes_tear_between_chunks (by decide) (by simp) (List.reverse_perm _) _

end Faabric
