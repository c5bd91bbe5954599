import Mathlib

/-! Buffers as lists: little-endian words, resizing, and patches that combine
the elements from an offset on with new data. -/

namespace Bytes

def le : Nat → Nat → List UInt8
  | 0, _ => []
  | width + 1, x => UInt8.ofNat x :: le width (x / 256)

def ofLe : List UInt8 → Nat
  | [] => 0
  | b :: bs => b.toNat + 256 * ofLe bs

@[simp] theorem length_le (width x : Nat) : (le width x).length = width := by
  induction width generalizing x with
  | zero => rfl
  | succ width ih => simp [le, ih]

theorem ofLe_le {width x : Nat} (h : x < 256 ^ width) : ofLe (le width x) = x := by
  induction width generalizing x with
  | zero =>
    have hx : x = 0 := by simpa using h
    simp [le, ofLe, hx]
  | succ width ih =>
    have hdiv : x / 256 < 256 ^ width := by
      apply Nat.div_lt_of_lt_mul
      rwa [pow_succ'] at h
    have hlow : (UInt8.ofNat x).toNat = x % 256 := by simp
    rw [le, ofLe, ih hdiv, hlow]
    omega

theorem le_ofLe (bs : List UInt8) : le bs.length (ofLe bs) = bs := by
  induction bs with
  | nil => rfl
  | cons b bs ih =>
    have hb : b.toNat < 256 := b.toNat_lt
    have hdiv : (b.toNat + 256 * ofLe bs) / 256 = ofLe bs := by omega
    have hlow : UInt8.ofNat (b.toNat + 256 * ofLe bs) = b := by
      apply UInt8.toNat.inj
      rw [UInt8.toNat_ofNat']
      omega
    rw [ofLe, List.length_cons, le, hdiv, ih, hlow]

theorem ofLe_lt (bs : List UInt8) : ofLe bs < 256 ^ bs.length := by
  induction bs with
  | nil => simp [ofLe]
  | cons b bs ih =>
    have hb : b.toNat < 256 := b.toNat_lt
    rw [ofLe, List.length_cons, pow_succ']
    omega

section Buffers

variable {α β : Type*}

def resize (l : List α) (n : Nat) (a : α) : List α :=
  l.take n ++ List.replicate (n - l.length) a

@[simp] theorem length_resize (l : List α) (n : Nat) (a : α) : (resize l n a).length = n := by
  simp only [resize, List.length_append, List.length_take, List.length_replicate]
  omega

theorem getElem?_resize (l : List α) (n : Nat) (a : α) (i : Nat) :
    (resize l n a)[i]? = if i < n then some (l[i]?.getD a) else none := by
  by_cases hn : i < n
  · by_cases hl : i < l.length
    · have htake : i < (l.take n).length := by simp [hn, hl]
      simp [resize, List.getElem?_append_left htake, hn, hl]
    · have htake : (l.take n).length ≤ i := by simp; omega
      have hrep : i - (l.take n).length < n - l.length := by simp only [List.length_take]; omega
      simp only [resize, List.getElem?_append_right htake, List.getElem?_replicate, hrep, hn, if_true]
      simp [List.getElem?_eq_none (Nat.le_of_not_lt hl)]
  · simp [hn]

def patch (f : α → β → α) (l : List α) (offset : Nat) (data : List β) : List α :=
  l.mapIdx fun i a => if offset ≤ i then (data[i - offset]?.map (f a)).getD a else a

@[simp] theorem length_patch (f : α → β → α) (l : List α) (offset : Nat) (data : List β) :
    (patch f l offset data).length = l.length := by
  simp [patch]

theorem getElem?_patch (f : α → β → α) (l : List α) (offset : Nat) (data : List β) (i : Nat) :
    (patch f l offset data)[i]? =
      l[i]?.map fun a => if offset ≤ i then (data[i - offset]?.map (f a)).getD a else a := by
  simp [patch]

theorem getElem?_patch_inside (f : α → β → α) {l : List α} {offset : Nat} {data : List β} {i : Nat}
    {a : α} {b : β} (hi : offset ≤ i) (ha : l[i]? = some a) (hb : data[i - offset]? = some b) :
    (patch f l offset data)[i]? = some (f a b) := by
  simp [getElem?_patch, hi, ha, hb]

theorem getElem?_patch_outside (f : α → β → α) (l : List α) {offset : Nat} {data : List β} {i : Nat}
    (h : i < offset ∨ offset + data.length ≤ i) : (patch f l offset data)[i]? = l[i]? := by
  rw [getElem?_patch]
  by_cases ho : offset ≤ i
  · have hd : data.length ≤ i - offset := by omega
    simp [List.getElem?_eq_none hd]
  · simp [ho]

end Buffers

end Bytes
