import Mathlib

/-! A ledger of units leased on places. A place marks the units it has handed out
and counts the slots in use. Leases are acquired, released, or dropped without
being given back. -/

variable {η υ : Type}

structure Ledger (η υ : Type) where
  leases : η → Multiset υ
  marked : η → Multiset υ
  used : η → Int
  slots : η → Int

namespace Ledger

/-- Every lease is marked, no unit is marked twice, and the slots in use cover the
marked units and stay within the capacity. -/
structure Sound (L : Ledger η υ) : Prop where
  leased : ∀ h, L.leases h ≤ L.marked h
  nodup : ∀ h, (L.marked h).Nodup
  covered : ∀ h, ((L.marked h).card : Int) ≤ L.used h
  bounded : ∀ h, L.used h ≤ L.slots h

/-- Nothing is marked or counted beyond the leases. -/
structure Exact (L : Ledger η υ) : Prop where
  leased : ∀ h, L.leases h = L.marked h
  counted : ∀ h, ((L.marked h).card : Int) = L.used h

/-- A change of the ledger: what is acquired, what is released, which leases are
dropped while their units stay marked, and which slots are not given back. -/
structure Moves (L L' : Ledger η υ) (acquired released dropped : η → Multiset υ)
    (unreturned : η → Nat) : Prop where
  leases : ∀ h, L'.leases h + released h + dropped h = L.leases h + acquired h
  marked : ∀ h, L'.marked h + released h = L.marked h + acquired h
  used : ∀ h, L'.used h + (released h).card = L.used h + (acquired h).card + unreturned h
  slots : ∀ h, L'.slots h = L.slots h

variable {L : Ledger η υ}

theorem Sound.leases_nodup (hs : L.Sound) (h : η) : (L.leases h).Nodup :=
  Multiset.nodup_of_le (hs.leased h) (hs.nodup h)

theorem Sound.used_nonneg (hs : L.Sound) (h : η) : 0 ≤ L.used h :=
  le_trans (by positivity) (hs.covered h)

theorem Moves.refl (L : Ledger η υ) : Moves L L (fun _ => 0) (fun _ => 0) (fun _ => 0) (fun _ => 0) where
  leases _ := by simp
  marked _ := by simp
  used _ := by simp
  slots _ := rfl

variable {L' : Ledger η υ}

theorem Moves.sound {acquired released dropped : η → Multiset υ} {unreturned : η → Nat}
    (hm : Moves L L' acquired released dropped unreturned) (hs : L.Sound) (hnd : ∀ h, (L'.marked h).Nodup)
    (hb : ∀ h, L'.used h ≤ L'.slots h) : L'.Sound where
  leased h := by
    have hle : L'.leases h + released h + dropped h ≤ L'.marked h + released h := by
      rw [hm.leases, hm.marked]
      exact add_le_add_left (hs.leased h) _
    have hdrop : L'.leases h + released h ≤ L'.leases h + released h + dropped h :=
      Multiset.le_add_right _ _
    exact le_of_add_le_add_right (hdrop.trans hle)
  nodup := hnd
  covered h := by
    have hc := congrArg Multiset.card (hm.marked h)
    simp only [Multiset.card_add] at hc
    have hu := hm.used h
    have := hs.covered h
    omega
  bounded := hb

theorem Moves.exact {acquired released : η → Multiset υ}
    (hm : Moves L L' acquired released (fun _ => 0) (fun _ => 0)) (he : L.Exact) : L'.Exact where
  leased h := by
    have hl := hm.leases h
    have hk := hm.marked h
    rw [he.leased h, ← hk, add_zero] at hl
    exact add_right_cancel hl
  counted h := by
    have hc := congrArg Multiset.card (hm.marked h)
    simp only [Multiset.card_add] at hc
    have hu := hm.used h
    have := he.counted h
    simp only [Nat.cast_zero, add_zero] at hu
    omega

theorem Sound.replace (hs : L.Sound) (hl : L'.leases = L.leases)
    (hkeep : ∀ h, (L'.marked h = L.marked h ∧ L'.used h = L.used h ∧ L'.slots h = L.slots h) ∨
      (L.leases h = 0 ∧ (L'.marked h).Nodup ∧ ((L'.marked h).card : Int) ≤ L'.used h ∧
      L'.used h ≤ L'.slots h)) : L'.Sound := by
  constructor
  · intro h
    rcases hkeep h with ⟨hm, _, _⟩ | ⟨hz, _⟩
    · rw [hl, hm]
      exact hs.leased h
    · rw [hl, hz]
      exact Multiset.zero_le _
  · intro h
    rcases hkeep h with ⟨hm, _, _⟩ | ⟨_, hn, _⟩
    · rw [hm]
      exact hs.nodup h
    · exact hn
  · intro h
    rcases hkeep h with ⟨hm, hu, _⟩ | ⟨_, _, hc, _⟩
    · rw [hm, hu]
      exact hs.covered h
    · exact hc
  · intro h
    rcases hkeep h with ⟨_, hu, hsl⟩ | ⟨_, _, _, hb⟩
    · rw [hu, hsl]
      exact hs.bounded h
    · exact hb

end Ledger
