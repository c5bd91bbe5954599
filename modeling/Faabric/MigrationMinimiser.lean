import Faabric.Migration

/-! The migration minimiser keeps as many messages where they are as the histogram of the
new decision allows, and gives that histogram back. -/

namespace Faabric

open Std (ExtTreeMap)
open MapTotal Agreement

variable {olds : List Placement}

theorem foldl_freq_totalLeft (hosts : List String) (freq : ExtTreeMap String Int compare) :
    totalLeft (hosts.foldl (fun m h => m.insert h (m[h]?.getD 0 + 1)) freq) =
      totalLeft freq + hosts.length := by
  induction hosts generalizing freq with
  | nil => simp
  | cons h hosts ih =>
    have hone : totalLeft (freq.insert h (freq[h]?.getD 0 + 1)) = totalLeft freq + 1 := by
      cases hr : freq[h]? with
      | none =>
        have hnew := total_insert_new (fun _ n => n) hr (0 + 1 : Int)
        simpa [totalLeft] using hnew
      | some n =>
        have hover := total_overwrite (fun _ n => n) hr (n + 1)
        simp only [totalLeft, Option.getD_some]
        omega
    rw [List.foldl_cons, ih, hone, List.length_cons]
    push_cast
    omega

theorem getHostFreqCount_totalLeft (d : SchedulingDecision) :
    totalLeft (getHostFreqCount d) = d.hosts.length := by
  rw [getHostFreqCount, foldl_freq_totalLeft]
  simp [totalLeft]

theorem slotCount_le_hostCount {left : ExtTreeMap String Int compare}
    {slots : List (Option Placement)} (h : List.Forall₂ (KeepsHost left) olds slots)
    (host : String) :
    slotCount host slots ≤ hostCount host olds ∧
      (slotsLeft left host ≠ 0 → slotCount host slots = hostCount host olds) := by
  induction h with
  | nil => simp [slotCount]
  | @cons old slot olds slots hslot _ ih =>
    rw [hostCount_cons]
    rcases hslot with rfl | ⟨rfl, hused⟩
    · rw [slotCount_cons_some]
      omega
    · rw [slotCount_cons_none]
      refine ⟨by omega, ?_⟩
      intro hleft
      have hne : old.host ≠ host := by
        rintro rfl
        exact hleft hused
      rw [if_neg hne, zero_add]
      exact ih.2 hleft

theorem slotCount_eq_min {left : ExtTreeMap String Int compare} {slots : List (Option Placement)}
    (h : List.Forall₂ (KeepsHost left) olds slots) (hn : ∀ host, 0 ≤ slotsLeft left host)
    {host : String} {n : Nat} (hc : slotCount host slots + slotsLeft left host = n) :
    slotCount host slots = min (hostCount host olds) n := by
  obtain ⟨hle, hfull⟩ := slotCount_le_hostCount h host
  have hpos := hn host
  by_cases hleft : slotsLeft left host = 0
  · omega
  · have := hfull hleft
    omega

theorem rehosted_port {news : List Placement} (h : List.Forall₂ Rehosted olds news)
    {e : Placement × Placement} (he : e ∈ olds.zip news) (hhost : e.2.host = e.1.host) :
    e.2.mpiPort = e.1.mpiPort := by
  induction h with
  | nil => simp at he
  | cons hp _ ih =>
    rw [List.zip_cons_cons, List.mem_cons] at he
    rcases he with rfl | he
    · rcases hp with heq | ⟨-, hne⟩
      · rw [heq]
      · exact absurd hhost hne
    · exact ih he

/-- The minimiser returns the old messages on the hosts of the new decision, and keeps as many
where they were as the two have in common. -/
theorem minimiseNumOfMigrations_ok {new old : SchedulingDecision}
    (hlen : new.placements.length = old.placements.length)
    (hne : ∀ p ∈ old.placements, p.host ≠ "") :
    ∃ d, minimiseNumOfMigrations new old = .ok d ∧ d.nFunctions = d.placements.length ∧
      d.hosts.Perm new.hosts ∧ List.Forall₂ Rehosted old.placements d.placements ∧
      agreements old.hosts d.hosts =
        ∑ host ∈ old.hosts.toFinset, min (old.hosts.count host) (new.hosts.count host) := by
  have hn (host : String) : 0 ≤ slotsLeft (getHostFreqCount new) host := by
    rw [getHostFreqCount_slotsLeft]
    positivity
  obtain ⟨slots, hf, ha, hc, hp, ht⟩ := keepHosts_spec [] hn
    (Fills.empty old.appId old.groupId old.placements.length)
  rw [getHostFreqCount_totalLeft] at ht
  rw [List.length_nil] at hf ha hc hp ht
  set kept := keepHosts 0 old.placements { appId := old.appId, groupId := old.groupId }
    (getHostFreqCount new) with hkept
  have hholes : (slots.countP Option.isNone : Int) ≤ totalLeft kept.2 := by
    have hsplit := List.length_eq_countP_add_countP Option.isSome (l := slots)
    have hnone : slots.countP Option.isNone = slots.countP fun slot => ¬ slot.isSome = true := by
      congr 1
      funext slot
      cases slot <;> rfl
    have hall := ha.length_eq
    simp only [SchedulingDecision.hosts, List.length_map] at ht
    omega
  have hslots : List.Forall₂ (fun old slot => slot = some old ∨ slot = none) old.placements slots :=
    ha.imp fun _ _ hslot => hslot.imp_right And.left
  obtain ⟨d, hd⟩ := moveHosts_ok [] hne hslots hf hholes
  have hmin : minimiseNumOfMigrations new old = .ok d := hd
  obtain ⟨news, hs, hk, -, hat⟩ := moveHosts_spec [] hp hne ha hf hd
  obtain ⟨hps, hcount⟩ := hs.placements_eq
  rw [List.nil_append] at hps hcount
  subst hps
  have hperm : d.hosts.Perm new.hosts := by
    have hsub : d.hosts.Subperm new.hosts := by
      rw [List.subperm_ext_iff]
      intro host _
      rw [count_hosts, count_hosts]
      exact (minimiseNumOfMigrations_spec hne hmin).2 host
    refine hsub.perm_of_length_le ?_
    simp only [SchedulingDecision.hosts, List.length_map, hlen]
    exact hk.length_eq.le
  refine ⟨d, hmin, hcount, hperm, hk, ?_⟩
  rw [agreements_eq_sum (s := old.hosts.toFinset) (by simp)]
  refine Finset.sum_congr rfl ?_
  intro host _
  have hh := hc host
  rw [getHostFreqCount_slotsLeft] at hh
  rw [count_hosts, count_hosts]
  exact (hat host).trans (slotCount_eq_min ha hp hh)

/-- A message that stays keeps its port, and no other way to use the hosts of the new decision
lets more messages stay. -/
theorem minimiseNumOfMigrations_optimal {new old : SchedulingDecision}
    (hlen : new.placements.length = old.placements.length)
    (hne : ∀ p ∈ old.placements, p.host ≠ "") :
    ∃ d, minimiseNumOfMigrations new old = .ok d ∧ d.nFunctions = d.placements.length ∧
      d.hosts.Perm new.hosts ∧ d.placements.map Placement.key = old.placements.map Placement.key ∧
      (∀ e ∈ old.placements.zip d.placements, e.2.host = e.1.host → e.2.mpiPort = e.1.mpiPort) ∧
      agreements old.hosts d.hosts =
        ∑ host ∈ old.hosts.toFinset, min (old.hosts.count host) (new.hosts.count host) ∧
      ∀ hosts : List String, hosts.Perm new.hosts →
        agreements old.hosts hosts ≤ agreements old.hosts d.hosts := by
  obtain ⟨d, hmin, hcount, hperm, hk, hkeeps⟩ := minimiseNumOfMigrations_ok hlen hne
  refine ⟨d, hmin, hcount, hperm, rehosted_keys hk, fun e he => rehosted_port hk he, hkeeps, ?_⟩
  intro hosts hh
  have hbound := agreements_le old.hosts hosts
  simp only [hh.count_eq] at hbound
  rw [hkeeps]
  exact hbound

theorem minimiseNumOfMigrations_keeps_two :
    ∃ d, minimiseNumOfMigrations
        { appId := 1, groupId := 0, nFunctions := 3, placements := [{ host := "b", messageId := 1 },
          { host := "b", messageId := 2 }, { host := "a", messageId := 3 }] }
        { appId := 1, groupId := 7, nFunctions := 3, placements := [{ host := "a", messageId := 1, mpiPort := 8020 },
          { host := "b", messageId := 2, mpiPort := 8020 }, { host := "a", messageId := 3, mpiPort := 8021 }] } =
        .ok d ∧ agreements ["a", "b", "a"] d.hosts = 2 := by
  obtain ⟨d, hd, -, -, -, -, hkeeps, -⟩ := @minimiseNumOfMigrations_optimal
    { appId := 1, groupId := 0, nFunctions := 3, placements := [{ host := "b", messageId := 1 },
      { host := "b", messageId := 2 }, { host := "a", messageId := 3 }] }
    { appId := 1, groupId := 7, nFunctions := 3, placements := [{ host := "a", messageId := 1, mpiPort := 8020 },
      { host := "b", messageId := 2, mpiPort := 8020 }, { host := "a", messageId := 3, mpiPort := 8021 }] }
    rfl (by decide)
  exact ⟨d, hd, hkeeps.trans (by decide)⟩

end Faabric
