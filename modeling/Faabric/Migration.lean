import Faabric.Schedulers
import Faabric.Lib.MapTotal
import Faabric.Lib.Agreement

/-! Moving the messages of an app. The migration minimiser and the forced rotation
give every position of the old decision a host, and use no host more often than
they were allowed to. -/

namespace Faabric

open Std (ExtTreeMap)
open ForcedMigration MapTotal

variable {d d' old : SchedulingDecision} {avail freq : ExtTreeMap String Int compare}
  {host : String} {olds : List Placement} {slots : List (Option Placement)}
  {hostOrder : List String}

def Placement.key (p : Placement) : Int × Int × Int := (p.messageId, p.appIdx, p.groupIdx)

def Message.key (m : Message) : Int × Int × Int := (m.id, m.appIdx, m.groupIdx)

def hostCount (host : String) (ps : List Placement) : Nat := ps.countP fun p => p.host = host

@[simp] theorem hostCount_nil (host : String) : hostCount host [] = 0 := rfl

theorem hostCount_cons (host : String) (p : Placement) (ps : List Placement) :
    hostCount host (p :: ps) = (if p.host = host then 1 else 0) + hostCount host ps := by
  by_cases he : p.host = host
  · simp [hostCount, he, add_comm]
  · simp [hostCount, he]

theorem hostCount_pos_of_mem {p : Placement} {ps : List Placement} (h : p ∈ ps) :
    0 < hostCount p.host ps :=
  List.countP_pos_iff.mpr ⟨p, h, by simp⟩

def slotsLeft (freq : ExtTreeMap String Int compare) (host : String) : Int := freq[host]?.getD 0

theorem slotsLeft_insert (freq : ExtTreeMap String Int compare) (host : String) (n : Int) (host' : String) :
    slotsLeft (freq.insert host n) host' = if host = host' then n else slotsLeft freq host' := by
  unfold slotsLeft
  rw [getElem?_insert_ite]
  by_cases he : host = host'
  · simp [he]
  · simp [he]

theorem slotsLeft_spend (freq : ExtTreeMap String Int compare) (host host' : String) :
    slotsLeft (freq.insert host (freq[host]?.getD 0 - 1)) host' =
      slotsLeft freq host' - if host = host' then 1 else 0 := by
  rw [slotsLeft_insert]
  by_cases he : host = host'
  · subst he
    simp [slotsLeft]
  · simp [he]

theorem slotsLeft_spend_nonneg (hn : ∀ h, 0 ≤ slotsLeft freq h) (hpos : 0 < slotsLeft freq host) (host' : String) :
    0 ≤ slotsLeft (freq.insert host (freq[host]?.getD 0 - 1)) host' := by
  rw [slotsLeft_spend]
  split_ifs with he
  · subst he
    omega
  · simpa using hn host'

theorem foldl_freq_slotsLeft (hosts : List String) (freq : ExtTreeMap String Int compare) (host : String) :
    slotsLeft (hosts.foldl (fun m h => m.insert h (m[h]?.getD 0 + 1)) freq) host =
      slotsLeft freq host + hosts.count host := by
  induction hosts generalizing freq with
  | nil => simp
  | cons h hosts ih =>
    rw [List.foldl_cons, ih, slotsLeft_insert, List.count_cons]
    by_cases he : h = host
    · subst he
      simp [slotsLeft, add_assoc, add_comm]
    · simp [he]

theorem count_hosts (d : SchedulingDecision) (host : String) :
    d.hosts.count host = hostCount host d.placements := by
  simp [SchedulingDecision.hosts, hostCount, List.count, List.countP_map, Function.comp_def,
    beq_eq_decide]

theorem getHostFreqCount_slotsLeft (d : SchedulingDecision) (host : String) :
    slotsLeft (getHostFreqCount d) host = hostCount host d.placements := by
  rw [getHostFreqCount, foldl_freq_slotsLeft, count_hosts]
  simp [slotsLeft]

theorem foldl_freq_getElem? (hosts : List String) (freq : ExtTreeMap String Int compare) (host : String) :
    (hosts.foldl (fun m h => m.insert h (m[h]?.getD 0 + 1)) freq)[host]? =
      if hosts.count host = 0 then freq[host]? else some (slotsLeft freq host + hosts.count host) := by
  induction hosts generalizing freq with
  | nil => simp
  | cons h hosts ih =>
    rw [List.foldl_cons, ih, slotsLeft_insert, getElem?_insert_ite, List.count_cons]
    by_cases he : h = host
    · subst he
      by_cases hc : hosts.count h = 0
      · simp [hc, slotsLeft]
      · simp [hc, slotsLeft]
        omega
    · simp [he]

theorem getHostFreqCount_getElem? (d : SchedulingDecision) (host : String) :
    (getHostFreqCount d)[host]? =
      if d.hosts.count host = 0 then none else some (d.hosts.count host : Int) := by
  rw [getHostFreqCount, foldl_freq_getElem?]
  simp [slotsLeft]

/-- The decision holds the positions in `slots`, with holes where there is none yet. -/
structure Fills (d : SchedulingDecision) (slots : List (Option Placement)) : Prop where
  padded : ∃ k, d.placements ++ List.replicate k ({} : Placement) = slots.map (·.getD {})
  counted : d.nFunctions = slots.countP Option.isSome
  sized : d.nFunctions ≤ d.placements.length

theorem Fills.empty (appId groupId : Int) (n : Nat) :
    Fills { appId, groupId } (List.replicate n none) where
  padded := ⟨n, by simp⟩
  counted := by simp [List.countP_replicate]
  sized := by simp

theorem Fills.add {pre post : List (Option Placement)} (h : Fills d (pre ++ none :: post))
    (p : Placement) :
    Fills (d.addMessageInPosition pre.length p) (pre ++ some p :: post) := by
  obtain ⟨k, hk⟩ := h.padded
  have hc := h.counted
  have hs := h.sized
  have hlen := congrArg List.length hk
  have hle := List.countP_le_length (p := Option.isSome) (l := pre)
  have hle' := List.countP_le_length (p := Option.isSome) (l := post)
  simp only [List.length_append, List.length_replicate, List.length_map, List.length_cons] at hlen
  simp only [List.countP_append, List.countP_cons, Option.isSome_none, Bool.false_eq_true, if_false,
    add_zero] at hc
  set size := max (pre.length + 1) (d.nFunctions + 1).toNat with hsize
  have hfit : size - d.placements.length ≤ k := by omega
  have hat : pre.length < (d.placements ++
      List.replicate (size - d.placements.length) ({} : Placement)).length := by
    simp only [List.length_append, List.length_replicate]
    omega
  constructor
  · refine ⟨k - (size - d.placements.length), ?_⟩
    have hsplit : List.replicate (size - d.placements.length) ({} : Placement) ++
        List.replicate (k - (size - d.placements.length)) ({} : Placement) =
          List.replicate k ({} : Placement) := by
      rw [List.replicate_append_replicate, Nat.add_sub_cancel' hfit]
    simp only [SchedulingDecision.addMessageInPosition, ← hsize]
    rw [← List.set_append_left _ _ hat, List.append_assoc, hsplit, hk]
    simp
  · simp only [SchedulingDecision.addMessageInPosition, hc, List.countP_append, List.countP_cons,
      Option.isSome_some, if_true]
    push_cast
    omega
  · simp only [SchedulingDecision.addMessageInPosition, List.length_set, List.length_append,
      List.length_replicate, ← hsize]
    omega

theorem Fills.placements_eq {ps : List Placement} (h : Fills d (ps.map some))
    : d.placements = ps ∧ d.nFunctions = ps.length := by
  obtain ⟨k, hk⟩ := h.padded
  have hc := h.counted
  have hs := h.sized
  have hlen := congrArg List.length hk
  simp only [List.length_append, List.length_replicate, List.length_map] at hlen
  have hall : (ps.map some).countP Option.isSome = ps.length := by
    simp [List.countP_map, Function.comp_def]
  rw [hall] at hc
  have hz : k = 0 := by omega
  subst hz
  exact ⟨by simpa [Function.comp_def] using hk, hc⟩

/-- The new decision has the messages of the old one, position by position. -/
structure Rehosts (old new : SchedulingDecision) : Prop where
  keys : new.placements.map Placement.key = old.placements.map Placement.key
  counted : new.nFunctions = new.placements.length

def slotCount (host : String) (slots : List (Option Placement)) : Nat :=
  hostCount host (slots.filterMap id)

theorem slotCount_cons_none (host : String) (slots : List (Option Placement)) :
    slotCount host (none :: slots) = slotCount host slots := rfl

theorem slotCount_cons_some (host : String) (p : Placement) (slots : List (Option Placement)) :
    slotCount host (some p :: slots) = (if p.host = host then 1 else 0) + slotCount host slots := by
  simp [slotCount, hostCount_cons]

def KeepsHost (left : ExtTreeMap String Int compare) (old : Placement) (slot : Option Placement) :
    Prop :=
  slot = some old ∨ slot = none ∧ slotsLeft left old.host = 0

def totalLeft (freq : ExtTreeMap String Int compare) : Int := total (fun _ n => n) freq

theorem totalLeft_spend {n : Int} (h : freq[host]? = some n)
    : totalLeft (freq.insert host (n - 1)) = totalLeft freq - 1 := by
  have hover := total_overwrite (fun _ n => n) h (n - 1)
  unfold totalLeft
  omega

/-- The first pass leaves the slots of a host to the positions that are on it, as long as it has any. -/
structure Kept (olds : List Placement) (freq left : ExtTreeMap String Int compare)
    (slots : List (Option Placement)) : Prop where
  keeps : List.Forall₂ (KeepsHost left) olds slots
  spent : ∀ h, slotCount h slots + slotsLeft left h = slotsLeft freq h
  nonneg : ∀ h, 0 ≤ slotsLeft left h
  total : totalLeft left + slots.countP Option.isSome = totalLeft freq

variable {left : ExtTreeMap String Int compare} {old₀ : Placement}

theorem Kept.drop (h : Kept olds freq left slots) (h0 : slotsLeft freq old₀.host ≤ 0) :
    Kept (old₀ :: olds) freq left (none :: slots) := by
  have hused : slotsLeft left old₀.host = 0 := by
    have hspent := h.spent old₀.host
    have hle := h.nonneg old₀.host
    omega
  exact ⟨.cons (Or.inr ⟨rfl, hused⟩) h.keeps, h.spent, h.nonneg, by simpa using h.total⟩

theorem Kept.keep {n : Int} (hr : freq[old₀.host]? = some n)
    (h : Kept olds (freq.insert old₀.host (n - 1)) left slots) :
    Kept (old₀ :: olds) freq left (some old₀ :: slots) := by
  refine ⟨.cons (Or.inl rfl) h.keeps, fun host => ?_, h.nonneg, ?_⟩
  · have hspent := h.spent host
    have hspend := slotsLeft_spend freq old₀.host host
    rw [hr, Option.getD_some] at hspend
    rw [slotCount_cons_some]
    push_cast
    omega
  · have htotal := h.total
    rw [totalLeft_spend hr] at htotal
    simp only [List.countP_cons, Option.isSome_some, if_true]
    push_cast
    omega

theorem keepHosts_spec (pre : List (Option Placement)) (hn : ∀ h, 0 ≤ slotsLeft freq h)
    (hf : Fills d (pre ++ List.replicate olds.length none)) :
    ∃ slots, Fills (keepHosts pre.length olds d freq).1 (pre ++ slots) ∧
      Kept olds freq (keepHosts pre.length olds d freq).2 slots := by
  induction olds generalizing pre d freq with
  | nil => exact ⟨[], by simpa [keepHosts] using hf, .nil, by simp [keepHosts, slotCount], hn, by simp [keepHosts]⟩
  | cons old olds ih =>
    rw [List.length_cons, List.replicate_succ] at hf
    have hlen (slot : Option Placement) : (pre ++ [slot]).length = pre.length + 1 := by simp
    have hskip : Fills d ((pre ++ [none]) ++ List.replicate olds.length none) := by
      simpa only [List.append_assoc, List.singleton_append] using hf
    obtain ⟨slots, hs, hkept⟩ := ih _ hn hskip
    rw [hlen] at hs hkept
    rcases hr : freq[old.host]? with _ | n
    · simp only [keepHosts, hr]
      exact ⟨none :: slots, by simpa using hs, hkept.drop (by simp [slotsLeft, hr])⟩
    · have hleft : slotsLeft freq old.host = n := by simp [slotsLeft, hr]
      by_cases h0 : 0 < n
      · have hkeep := hf.add old
        rw [show pre ++ some old :: List.replicate olds.length none =
          (pre ++ [some old]) ++ List.replicate olds.length none by simp] at hkeep
        have hn' := slotsLeft_spend_nonneg hn (hleft.symm ▸ h0)
        rw [hr, Option.getD_some] at hn'
        obtain ⟨slots, hs, hkept⟩ := ih _ hn' hkeep
        rw [hlen] at hs hkept
        simp only [keepHosts, hr, h0, if_true]
        exact ⟨some old :: slots, by simpa using hs, hkept.keep hr⟩
      · simp only [keepHosts, hr, h0, if_false]
        exact ⟨none :: slots, by simpa using hs, hkept.drop (by omega)⟩

theorem nextHostWithSlots_pos (h : nextHostWithSlots freq = some host)
    : 0 < slotsLeft freq host := by
  simp only [nextHostWithSlots, Option.map_eq_some_iff] at h
  obtain ⟨⟨k, n⟩, hf, rfl⟩ := h
  have hp := List.find?_some hf
  have hm := ExtTreeMap.mem_toList_iff_getElem?_eq_some.mp (List.mem_of_find?_eq_some hf)
  simpa [slotsLeft, hm] using hp

theorem Fills.getElem?_host {pre post : List (Option Placement)} {slot : Option Placement}
    (h : Fills d (pre ++ slot :: post)) :
    (d.placements[pre.length]?.map Placement.host).getD "" = (slot.getD {}).host := by
  obtain ⟨k, hk⟩ := h.padded
  have hat : (d.placements ++ List.replicate k ({} : Placement))[pre.length]? =
      some (slot.getD {}) := by
    rw [hk]
    simp
  by_cases hl : pre.length < d.placements.length
  · rw [List.getElem?_append_left hl] at hat
    simp [hat]
  · rw [List.getElem?_append_right (by omega)] at hat
    have hm := List.mem_of_getElem? hat
    rw [List.eq_of_mem_replicate hm, List.getElem?_eq_none (by omega)]
    rfl

theorem exists_slotsLeft_pos {freq : ExtTreeMap String Int compare} (h : 0 < totalLeft freq) :
    ∃ host, 0 < slotsLeft freq host := by
  by_contra hnone
  have hle : ∀ (k : String) (n : Int), freq[k]? = some n → n ≤ 0 := by
    intro k n hk
    have hpos := not_exists.mp hnone k
    simpa [slotsLeft, hk] using hpos
  have hsum := total_le_total (f := fun _ n => n) (g := fun _ _ => (0 : Int)) hle
  have hzero : totalLeft freq ≤ 0 := by simpa [totalLeft, total] using hsum
  omega

theorem getElem?_of_slotsLeft_pos (h : 0 < slotsLeft freq host)
    : freq[host]? = some (slotsLeft freq host) := by
  cases hr : freq[host]? with
  | none => simp [slotsLeft, hr] at h
  | some n => simp [slotsLeft, hr]

theorem nextHostWithSlots_isSome {freq : ExtTreeMap String Int compare} (h : 0 < totalLeft freq) :
    ∃ host, nextHostWithSlots freq = some host := by
  obtain ⟨host, hpos⟩ := exists_slotsLeft_pos h
  by_contra hnone
  have hall : freq.toList.find? (fun e => 0 < e.2) = none := by
    simpa [nextHostWithSlots, Option.eq_none_iff_forall_ne_some] using hnone
  have hmem := ExtTreeMap.mem_toList_iff_getElem?_eq_some.mpr (getElem?_of_slotsLeft_pos hpos)
  exact absurd hpos (by simpa using List.find?_eq_none.mp hall _ hmem)

theorem moveHosts_hole {pre : List Placement} (hf : Fills d (pre.map some ++ none :: slots))
    (old : Placement) (olds : List Placement) (freq : ExtTreeMap String Int compare) :
    moveHosts pre.length (old :: olds) d freq =
      match nextHostWithSlots freq with
      | none => .error (.runtimeError "No next host with slots found!")
      | some nextHost =>
        moveHosts (pre.length + 1) olds
          (d.addMessageInPosition pre.length { old with host := nextHost, mpiPort := -1 })
          (freq.insert nextHost (freq[nextHost]?.getD 0 - 1)) := by
  have hhost := hf.getElem?_host
  rw [List.length_map] at hhost
  cases hnext : nextHostWithSlots freq <;>
    simp only [moveHosts, hhost, Option.getD_none, or_true, if_true, hnext]

theorem moveHosts_kept {pre : List Placement} {old : Placement}
    (hf : Fills d (pre.map some ++ some old :: slots)) (hne : old.host ≠ "") (olds : List Placement)
    (freq : ExtTreeMap String Int compare) :
    moveHosts pre.length (old :: olds) d freq = moveHosts (pre.length + 1) olds d freq := by
  have hhost := hf.getElem?_host
  have hcount := hf.counted
  rw [List.length_map] at hhost
  simp only [List.countP_append, List.countP_cons, Option.isSome_some, if_true,
    List.countP_map, Function.comp_def, List.countP_true] at hcount
  have hstay : ¬ (d.nFunctions ≤ pre.length ∨
      (d.placements[pre.length]?.map Placement.host).getD "" = "") := by
    rw [hhost]
    simp only [Option.getD_some, hne, or_false, not_le]
    push_cast at hcount
    omega
  simp only [moveHosts, hstay, if_false]

def Rehosted (old new : Placement) : Prop := new = old ∨ new.key = old.key ∧ new.host ≠ old.host

theorem rehosted_keys {news : List Placement} (h : List.Forall₂ Rehosted olds news) :
    news.map Placement.key = olds.map Placement.key := by
  induction h with
  | nil => rfl
  | cons hp _ ih =>
    rcases hp with rfl | ⟨hkey, -⟩
    · simp [ih]
    · simp [ih, hkey]

theorem moveHosts_spec (pre : List Placement) (hn : ∀ h, 0 ≤ slotsLeft freq h)
    (hne : ∀ p ∈ olds, p.host ≠ "") (ha : List.Forall₂ (KeepsHost freq) olds slots)
    (hf : Fills d (pre.map some ++ slots)) (h : moveHosts pre.length olds d freq = .ok d') :
    ∃ news, Fills d' ((pre ++ news).map some) ∧ List.Forall₂ Rehosted olds news ∧
      (∀ h, (hostCount h news : Int) ≤ slotCount h slots + slotsLeft freq h) ∧
      ∀ h, Agreement.agreementsAt h (olds.map Placement.host) (news.map Placement.host) =
        slotCount h slots := by
  induction olds generalizing pre slots d freq with
  | nil =>
    cases ha
    simp only [moveHosts, Except.ok.injEq] at h
    subst h
    refine ⟨[], by simpa using hf, .nil, ?_, fun _ => rfl⟩
    intro h
    have := hn h
    simp only [hostCount_nil, Nat.cast_zero]
    positivity
  | cons old olds ih =>
    cases ha with
    | cons hslot ha =>
      rename_i slot slots
      have hlen (p : Placement) : (pre ++ [p]).length = pre.length + 1 := by simp
      have hne' : ∀ p ∈ olds, p.host ≠ "" := fun p hp => hne p (List.mem_cons_of_mem _ hp)
      rcases hslot with rfl | ⟨rfl, hused⟩
      · rw [moveHosts_kept hf (hne old (by simp)), ← hlen old] at h
        have hadd : Fills d ((pre ++ [old]).map some ++ slots) := by simpa using hf
        obtain ⟨news, hs, hk, hc, hat⟩ := ih _ hn hne' ha hadd h
        refine ⟨old :: news, by simpa using hs, .cons (Or.inl rfl) hk, ?_, ?_⟩
        · intro h
          have hh := hc h
          rw [slotCount_cons_some, hostCount_cons]
          push_cast
          split_ifs <;> omega
        · intro h
          rw [List.map_cons, List.map_cons, Agreement.agreementsAt_cons, hat, slotCount_cons_some, add_comm]
          simp only [and_self]
      · rw [moveHosts_hole hf] at h
        split at h
        · exact absurd h (by simp)
        · rename_i nextHost hnext
          have hpos := nextHostWithSlots_pos hnext
          have hmoved : nextHost ≠ old.host := by
            rintro rfl
            omega
          set new : Placement := { old with host := nextHost, mpiPort := -1 } with hnew
          have hadd := hf.add new
          rw [List.length_map, show pre.map some ++ some new :: slots =
            (pre ++ [new]).map some ++ slots by simp] at hadd
          have ha' : List.Forall₂ (KeepsHost (freq.insert nextHost (freq[nextHost]?.getD 0 - 1)))
              olds slots := by
            refine ha.imp ?_
            rintro p slot (hp | ⟨hp, h0⟩)
            · exact Or.inl hp
            · refine Or.inr ⟨hp, ?_⟩
              rw [slotsLeft_spend, if_neg, h0, sub_zero]
              rintro rfl
              omega
          rw [← hlen new] at h
          obtain ⟨news, hs, hk, hc, hat⟩ := ih _ (slotsLeft_spend_nonneg hn hpos) hne' ha' hadd h
          refine ⟨new :: news, by simpa using hs, .cons (Or.inr ⟨rfl, hmoved⟩) hk, ?_, ?_⟩
          · intro h
            have hh := hc h
            rw [slotsLeft_spend] at hh
            rw [slotCount_cons_none, hostCount_cons, hnew]
            push_cast
            omega
          · intro h
            have hno : ¬ (old.host = h ∧ nextHost = h) := fun e => hmoved (e.2.trans e.1.symm)
            rw [List.map_cons, List.map_cons, Agreement.agreementsAt_cons, hat, if_neg hno,
              slotCount_cons_none, add_zero]

/-- The second pass does not run out of hosts while the histogram has a slot for every
position without one. -/
theorem moveHosts_ok (pre : List Placement) (hne : ∀ p ∈ olds, p.host ≠ "")
    (ha : List.Forall₂ (fun old slot => slot = some old ∨ slot = none) olds slots)
    (hf : Fills d (pre.map some ++ slots))
    (htotal : (slots.countP Option.isNone : Int) ≤ totalLeft freq) :
    ∃ d', moveHosts pre.length olds d freq = .ok d' := by
  induction olds generalizing pre slots d freq with
  | nil => exact ⟨d, rfl⟩
  | cons old olds ih =>
    cases ha with
    | cons hslot ha =>
      rename_i slot slots
      have hlen (p : Placement) : (pre ++ [p]).length = pre.length + 1 := by simp
      have hne' : ∀ p ∈ olds, p.host ≠ "" := fun p hp => hne p (List.mem_cons_of_mem _ hp)
      rcases hslot with rfl | rfl
      · have hadd : Fills d ((pre ++ [old]).map some ++ slots) := by simpa using hf
        rw [moveHosts_kept hf (hne old (by simp)), ← hlen old]
        exact ih _ hne' ha hadd (by simpa using htotal)
      · simp only [List.countP_cons, Option.isNone_none, if_true] at htotal
        push_cast at htotal
        obtain ⟨nextHost, hnext⟩ := @nextHostWithSlots_isSome freq (by omega)
        have hpos := nextHostWithSlots_pos hnext
        have hadd := hf.add { old with host := nextHost, mpiPort := -1 }
        rw [List.length_map, List.append_cons, ← List.map_singleton, ← List.map_append] at hadd
        rw [moveHosts_hole hf, hnext]
        dsimp only
        cases hr : freq[nextHost]? with
        | none => simp [slotsLeft, hr] at hpos
        | some n =>
          rw [Option.getD_some, ← hlen]
          refine ih _ hne' ha hadd ?_
          rw [totalLeft_spend hr]
          omega

/-- The minimiser only rearranges: the old messages on hosts that the new decision
uses at least as often. -/
theorem minimiseNumOfMigrations_spec {new : SchedulingDecision}
    (hne : ∀ p ∈ old.placements, p.host ≠ "") (h : minimiseNumOfMigrations new old = .ok d) :
    Rehosts old d ∧ ∀ host, hostCount host d.placements ≤ hostCount host new.placements := by
  have hn (host : String) : 0 ≤ slotsLeft (getHostFreqCount new) host := by
    rw [getHostFreqCount_slotsLeft]
    positivity
  obtain ⟨slots, hf, ha, hc, hp, -⟩ := keepHosts_spec [] hn
    (Fills.empty old.appId old.groupId old.placements.length)
  obtain ⟨news, hs, hk, hle, -⟩ := moveHosts_spec [] hp hne ha hf h
  obtain ⟨hps, hcount⟩ := hs.placements_eq
  rw [List.nil_append] at hps hcount
  refine ⟨⟨?_, by rw [hcount, hps]⟩, ?_⟩
  · rw [hps]
    exact rehosted_keys hk
  intro host
  have hh := hle host
  have he := hc host
  rw [getHostFreqCount_slotsLeft] at he
  rw [hps]
  simp only [List.length_nil] at he hh
  omega

theorem addMessageInPosition_ne_nil (d : SchedulingDecision) (pos : Nat) (p : Placement) :
    (d.addMessageInPosition pos p).placements ≠ [] := by
  rw [← List.length_pos_iff]
  simp only [SchedulingDecision.addMessageInPosition, List.length_set, List.length_append,
    List.length_replicate]
  omega

theorem moveHosts_ne_nil {i : Nat} (hd : d.placements ≠ []) (h : moveHosts i olds d freq = .ok d')
    : d'.placements ≠ [] := by
  induction olds generalizing i d freq with
  | nil =>
    obtain rfl := Except.ok.inj h
    exact hd
  | cons old olds ih =>
    rw [moveHosts] at h
    split_ifs at h
    · split at h
      · exact absurd h (by simp)
      · exact ih (addMessageInPosition_ne_nil _ _ _) h
    · exact ih hd h

theorem minimiseNumOfMigrations_ne_nil {new : SchedulingDecision} (hne : old.placements ≠ [])
    (h : minimiseNumOfMigrations new old = .ok d) : d.placements ≠ [] := by
  obtain ⟨p, ps, hps⟩ := List.exists_cons_of_ne_nil hne
  simp only [minimiseNumOfMigrations, hps] at h
  rw [moveHosts] at h
  split_ifs at h with hc
  · split at h
    · exact absurd h (by simp)
    · exact moveHosts_ne_nil (addMessageInPosition_ne_nil _ _ _) h
  · refine moveHosts_ne_nil ?_ h
    intro hnil
    exact hc (Or.inr (by simp [hnil]))

theorem nextHostAfter_pos {current : String}
    (h : nextHostAfter hostOrder avail current = some host) :
    0 < slotsLeft avail host := by
  unfold nextHostAfter at h
  dsimp only at h
  split at h
  · rename_i c hc
    obtain rfl := Option.some.inj h
    have hp := List.find?_some hc
    simp only [decide_eq_true_eq] at hp
    exact hp.2
  · split at h
    · rename_i hpos
      obtain rfl := Option.some.inj h
      exact hpos
    · exact absurd h (by simp)

theorem nextHostAfter_current {current : String}
    (h : nextHostAfter hostOrder avail current = some current)
    (hm : host ∈ hostOrder) (hne : host ≠ current) : slotsLeft avail host ≤ 0 := by
  unfold nextHostAfter at h
  dsimp only at h
  split at h
  · rename_i c hc
    obtain rfl := Option.some.inj h
    have hp := List.find?_some hc
    simp at hp
  · rename_i hnone
    have hall := List.find?_eq_none.mp hnone host (List.mem_rotate.mpr hm)
    simpa [hne, slotsLeft] using hall

theorem nextHostAfter_isSome (hm : host ∈ hostOrder) (hpos : 0 < slotsLeft avail host)
    (current : String) :
    ∃ newHost, nextHostAfter hostOrder avail current = some newHost := by
  unfold nextHostAfter
  dsimp only
  split
  · exact ⟨_, rfl⟩
  · rename_i hnone
    have hall := List.find?_eq_none.mp hnone host (List.mem_rotate.mpr hm)
    by_cases he : host = current
    · subst he
      exact ⟨host, if_pos hpos⟩
    · exact absurd hpos (by simpa [he, slotsLeft] using hall)

def SlotsWithin (hostOrder : List String) (avail : ExtTreeMap String Int compare) : Prop :=
  (∀ host, 0 ≤ slotsLeft avail host) ∧ ∀ host ∉ hostOrder, slotsLeft avail host = 0

theorem SlotsWithin.spend (h : SlotsWithin hostOrder avail) (hpos : 0 < slotsLeft avail host) :
    SlotsWithin hostOrder (avail.insert host (avail[host]?.getD 0 - 1)) := by
  refine ⟨slotsLeft_spend_nonneg h.1 hpos, fun host' hm => ?_⟩
  rw [slotsLeft_spend, if_neg, sub_zero]
  · exact h.2 host' hm
  · rintro rfl
    have hzero := h.2 host hm
    omega

structure Rotated (avail : ExtTreeMap String Int compare) (olds news : List Placement) : Prop where
  keys : news.map Placement.key = olds.map Placement.key
  fits : ∀ host, (hostCount host news : Int) ≤ slotsLeft avail host
  stays : ∀ (i : Nat) (old new : Placement), olds[i]? = some old → news[i]? = some new →
    new.host = old.host → ∀ host ≠ old.host, slotsLeft avail host = hostCount host (news.take i)

theorem Rotated.cons {hostOrder : List String} {avail : ExtTreeMap String Int compare}
    {old : Placement} {olds news : List Placement} {newHost : String} (hw : SlotsWithin hostOrder avail)
    (hnext : nextHostAfter hostOrder avail old.host = some newHost)
    (h : Rotated (avail.insert newHost (avail[newHost]?.getD 0 - 1)) olds news) :
    Rotated avail (old :: olds) ({ old with host := newHost, mpiPort := -1 } :: news) := by
  have hpos := nextHostAfter_pos hnext
  constructor
  · simp [h.keys, Placement.key]
  · intro host
    have hfits := h.fits host
    rw [slotsLeft_spend] at hfits
    rw [hostCount_cons]
    push_cast
    omega
  · rintro (_ | i) old' new' hold' hnew' hsame host hne
    · simp only [List.getElem?_cons_zero, Option.some.injEq] at hold' hnew'
      subst hold' hnew'
      dsimp only at hsame
      subst hsame
      simp only [List.take_zero, hostCount_nil, Nat.cast_zero]
      by_cases hm : host ∈ hostOrder
      · exact le_antisymm (nextHostAfter_current hnext hm hne) (hw.1 host)
      · exact hw.2 host hm
    · simp only [List.getElem?_cons_succ] at hold' hnew'
      have hstays := h.stays i old' new' hold' hnew' hsame host hne
      rw [slotsLeft_spend] at hstays
      rw [List.take_succ_cons, hostCount_cons]
      push_cast
      omega

theorem rotateMessages_spec (pre : List Placement) (hw : SlotsWithin hostOrder avail)
    (hf : Fills d (pre.map some ++ List.replicate olds.length none))
    (h : rotateMessages hostOrder pre.length olds d avail = .ok d') :
    ∃ news, Fills d' ((pre ++ news).map some) ∧ Rotated avail olds news := by
  induction olds generalizing pre d avail with
  | nil =>
    simp only [rotateMessages, Except.ok.injEq] at h
    subst h
    exact ⟨[], by simpa using hf, rfl, by simpa using hw.1, by simp⟩
  | cons old olds ih =>
    unfold rotateMessages at h
    split at h
    · exact absurd h (by simp)
    · rename_i newHost hnext
      set new : Placement := { old with host := newHost, mpiPort := -1 } with hnew
      rw [List.length_cons, List.replicate_succ] at hf
      have hadd := hf.add new
      rw [List.length_map, show pre.map some ++ some new :: List.replicate olds.length none =
        (pre ++ [new]).map some ++ List.replicate olds.length none by simp] at hadd
      rw [show pre.length + 1 = (pre ++ [new]).length by simp] at h
      obtain ⟨news, hs, hrot⟩ := ih _ (hw.spend (nextHostAfter_pos hnext)) hadd h
      exact ⟨new :: news, by simpa using hs, hrot.cons hw hnext⟩

theorem rotateMessages_ok (i : Nat) (d : SchedulingDecision) (hw : SlotsWithin hostOrder avail)
    (htotal : olds.length ≤ totalLeft avail) :
    ∃ d', rotateMessages hostOrder i olds d avail = .ok d' := by
  induction olds generalizing i d avail with
  | nil => exact ⟨d, rfl⟩
  | cons old olds ih =>
    rw [List.length_cons] at htotal
    obtain ⟨host, hpos⟩ := @exists_slotsLeft_pos avail (by omega)
    have hm : host ∈ hostOrder := by
      by_contra hm
      have hzero := hw.2 host hm
      omega
    obtain ⟨newHost, hnext⟩ := nextHostAfter_isSome hm hpos old.host
    have hpos' := nextHostAfter_pos hnext
    have hr := getElem?_of_slotsLeft_pos hpos'
    rw [rotateMessages, hnext]
    refine ih _ _ (hw.spend hpos') ?_
    rw [hr, Option.getD_some, totalLeft_spend hr]
    omega

theorem foldl_avail_slotsLeft (hosts : List HostState) (avail : ExtTreeMap String Int compare)
    (ip : String) :
    slotsLeft (hosts.foldl (fun m h => m.insert h.ip (numSlotsAvailable h)) avail) ip = slotsLeft avail ip ∨
      ∃ h ∈ hosts, h.ip = ip ∧
        slotsLeft (hosts.foldl (fun m h => m.insert h.ip (numSlotsAvailable h)) avail) ip =
          numSlotsAvailable h := by
  induction hosts generalizing avail with
  | nil => exact Or.inl rfl
  | cons h hosts ih =>
    rw [List.foldl_cons]
    rcases ih (avail.insert h.ip (numSlotsAvailable h)) with he | ⟨h', hm, hip, he⟩
    · by_cases hh : h.ip = ip
      · refine Or.inr ⟨h, by simp, hh, ?_⟩
        rw [he, slotsLeft_insert, if_pos hh]
      · left
        rw [he, slotsLeft_insert, if_neg hh]
    · exact Or.inr ⟨h', List.mem_cons_of_mem _ hm, hip, he⟩

theorem rotatePlacement_spec {sortedHosts : List HostState}
    (h : rotatePlacement old sortedHosts = .ok d) :
    Rehosts old d ∧ ∀ ip, hostCount ip d.placements ≠ 0 → ∃ h ∈ sortedHosts, h.ip = ip ∧
      (hostCount ip d.placements : Int) ≤ numSlotsAvailable h := by
  set avail : ExtTreeMap String Int compare :=
    sortedHosts.foldl (fun m h => m.insert h.ip (numSlotsAvailable h)) ∅ with hav
  have hsome (ip : String) : slotsLeft avail ip = 0 ∨
      ∃ h ∈ sortedHosts, h.ip = ip ∧ slotsLeft avail ip = numSlotsAvailable h := by
    simpa [slotsLeft] using foldl_avail_slotsLeft sortedHosts ∅ ip
  have hw : SlotsWithin (sortedHosts.map HostState.ip) avail := by
    constructor
    · intro ip
      rcases hsome ip with he | ⟨h, _, _, he⟩
      · rw [he]
      · rw [he]
        exact Int.le_max_left _ _
    · intro ip hm
      rcases hsome ip with he | ⟨h, hh, rfl, _⟩
      · exact he
      · exact absurd (List.mem_map_of_mem hh) hm
  obtain ⟨news, hs, hrot⟩ := rotateMessages_spec [] hw
    (Fills.empty old.appId old.groupId old.placements.length) h
  obtain ⟨hps, hcount⟩ := hs.placements_eq
  rw [List.nil_append] at hps hcount
  refine ⟨⟨by rw [hps, hrot.keys], by rw [hcount, hps]⟩, ?_⟩
  intro ip hne
  have hh := hrot.fits ip
  rw [hps] at hne ⊢
  rcases hsome ip with he | ⟨h, hm, hip, he⟩
  · omega
  · exact ⟨h, hm, hip, by omega⟩

end Faabric
