import Faabric.AppPlacements

/-! The forced migration. Whenever the hosts can hold the app at all, the rotation finds a host
for each of its messages, another one than before if any has a slot left. -/

namespace Faabric

open Std (ExtTreeMap)
open ForcedMigration MapTotal

theorem foldl_avail {hosts : List HostState} (hn : (hosts.map HostState.ip).Nodup)
    {avail : ExtTreeMap String Int compare} (hnew : ∀ h ∈ hosts, avail[h.ip]? = none) :
    (∀ ip, slotsLeft (hosts.foldl (fun m h => m.insert h.ip (numSlotsAvailable h)) avail) ip =
        slotsLeft avail ip + roomOn hosts ip) ∧
      totalLeft (hosts.foldl (fun m h => m.insert h.ip (numSlotsAvailable h)) avail) =
        totalLeft avail + availableSlots hosts := by
  induction hosts generalizing avail with
  | nil => simp [roomOn, availableSlots]
  | cons h hosts ih =>
    rw [List.map_cons, List.nodup_cons] at hn
    have hnone := hnew h (by simp)
    have hnew' : ∀ h' ∈ hosts, (avail.insert h.ip (numSlotsAvailable h))[h'.ip]? = none := by
      intro h' hm
      have hne : h.ip ≠ h'.ip := fun he => hn.1 (he ▸ List.mem_map_of_mem hm)
      rw [getElem?_insert_ite, if_neg hne]
      exact hnew h' (List.mem_cons_of_mem _ hm)
    obtain ⟨hleft, htotal⟩ := ih hn.2 hnew'
    have hnon : 0 ≤ numSlotsAvailable h := Int.le_max_left _ _
    rw [List.foldl_cons]
    constructor
    · intro ip
      rw [hleft, slotsLeft_insert]
      by_cases he : h.ip = ip
      · subst he
        have hzero : slotsLeft avail h.ip = 0 := by simp [slotsLeft, hnone]
        simp [hzero, roomOn, hnon]
      · simp [roomOn, he]
    · rw [htotal, totalLeft, total_insert_new (fun _ n => n) hnone, totalLeft]
      simp only [availableSlots, List.map_cons, List.sum_cons]
      ring

theorem rotatePlacement_rotated {M M' : HostMap} {old : SchedulingDecision} (hM' : KeyedByIp M')
    (hroom : ∀ ip, roomOn (hostList M') ip = roomFor M old.placements ip) {hosts : List HostState}
    (hperm : hosts.Perm (hostList M')) :
    ∃ avail, (∀ ip, slotsLeft avail ip = roomFor M old.placements ip) ∧
      ((∃ names, IsPlacement M old.placements old.placements.length names) →
        ∃ d, rotatePlacement old hosts = .ok d) ∧
      ∀ d, rotatePlacement old hosts = .ok d →
        Rotated avail old.placements d.placements := by
  have hn : (hosts.map HostState.ip).Nodup := (hperm.map HostState.ip).nodup_iff.mpr hM'.nodup
  obtain ⟨hleft, htotal⟩ := @foldl_avail hosts hn ∅ (by simp)
  set avail : ExtTreeMap String Int compare :=
    hosts.foldl (fun m h => m.insert h.ip (numSlotsAvailable h)) ∅ with hav
  have hslots (ip : String) : slotsLeft avail ip = roomFor M old.placements ip := by
    rw [hleft, roomOn_perm hperm, hroom]
    simp [slotsLeft]
  have hw : SlotsWithin (hosts.map HostState.ip) avail := by
    refine ⟨fun ip => by rw [hslots]; positivity, ?_⟩
    intro ip hm
    have hnone : hosts.filter (fun h => h.ip = ip) = [] := by
      rw [List.filter_eq_nil_iff]
      intro h hh he
      exact hm (List.mem_map.mpr ⟨h, hh, of_decide_eq_true he⟩)
    rw [hleft]
    simp [slotsLeft, roomOn, hnone]
  refine ⟨avail, hslots, ?_, ?_⟩
  · rintro ⟨names, hp⟩
    refine rotateMessages_ok 0 _ hw ?_
    have hle := hp.length_le hM' hroom
    rw [← availableSlots_perm hperm] at hle
    rw [htotal]
    simpa [totalLeft] using hle
  · intro d hd
    obtain ⟨news, hs, hrot⟩ := rotateMessages_spec [] hw
      (Fills.empty old.appId old.groupId old.placements.length) hd
    obtain ⟨hps, -⟩ := hs.placements_eq
    rw [List.nil_append] at hps
    rwa [hps]

structure RotatesFeasibly (hostMap : HostMap) (old rotated : SchedulingDecision)
    (result : Except PlannerError SchedulingDecision) : Prop where
  keys : rotated.placements.map Placement.key = old.placements.map Placement.key
  fits : ∀ ip, hostCount ip rotated.placements ≤ roomFor hostMap old.placements ip
  /-- A message only stays where it is when the messages before it have filled every other host. -/
  stays : ∀ (i : Nat) (p q : Placement), old.placements[i]? = some p → rotated.placements[i]? = some q →
    q.host = p.host → ∀ ip ≠ p.host,
      hostCount ip (rotated.placements.take i) = roomFor hostMap old.placements ip
  answer : result = .ok DO_NOT_MIGRATE_DECISION ∧ rotated.hosts = old.hosts ∨
    result = .ok rotated ∧ ∃ (i : Nat) (p q : Placement), old.placements[i]? = some p ∧
      rotated.placements[i]? = some q ∧ q.host ≠ p.host

theorem exists_moved {olds news : List Placement} (hlen : news.length = olds.length)
    (h : news.map Placement.host ≠ olds.map Placement.host) :
    ∃ (i : Nat) (p q : Placement), olds[i]? = some p ∧ news[i]? = some q ∧ q.host ≠ p.host := by
  by_contra hnone
  push Not at hnone
  refine h (List.ext_getElem? ?_)
  intro i
  rw [List.getElem?_map, List.getElem?_map]
  cases hp : olds[i]? with
  | none =>
    rw [List.getElem?_eq_none_iff] at hp
    rw [List.getElem?_eq_none (hlen ▸ hp)]
  | some p =>
    have hi : i < news.length := hlen ▸ (List.getElem?_eq_some_iff.mp hp).1
    rw [List.getElem?_eq_getElem hi, Option.map_some, Option.map_some,
      hnone i p _ hp (List.getElem?_eq_getElem hi)]

/-- When a migration is due, the rotation is feasible exactly when the hosts can hold the app. -/
theorem ForcedMigration.rotates_feasibly_iff {M : HostMap} {inFlightReqs : InFlightReqs}
    {req oldReq : BatchExecuteRequest} {old : SchedulingDecision} {checks : Int} (hM : KeyedByIp M)
    (hdist : getDecisionType inFlightReqs req = .distChange)
    (hdue : (checks + 1).tmod migrateEveryNChecks = 0)
    (hold : inFlightReqs[req.appId]? = some (oldReq, old)) (hacc : OwnCounted M old.placements) :
    (∃ rotated, rotatePlacement old
          (getSortedHosts M inFlightReqs req .distChange) = .ok rotated ∧
        RotatesFeasibly M old rotated
          (makeSchedulingDecision checks M inFlightReqs req)) ↔
      ∃ hosts, IsPlacement M old.placements old.placements.length hosts := by
  set sortedHosts := getSortedHosts M inFlightReqs req .distChange with hsorted
  have hperm : sortedHosts.Perm (hostList (freeAppSlots (oldHostFreqCount inFlightReqs req) M)) := by
    rw [hsorted, getSortedHosts, if_pos rfl]
    exact sortHosts_perm _ _
  obtain ⟨avail, hslots, hok, hrot⟩ := rotatePlacement_rotated (hM.freed hold hacc)
    (roomFor_freed hM hold hacc) hperm
  constructor
  · rintro ⟨rotated, -, h⟩
    refine ⟨rotated.hosts, ?_, ?_⟩
    · simpa [SchedulingDecision.hosts] using congrArg List.length h.keys
    · intro ip
      rw [count_hosts]
      exact h.fits ip
  · intro hex
    obtain ⟨rotated, hd⟩ := hok hex
    have h := hrot rotated hd
    have hlen : rotated.placements.length = old.placements.length := by
      simpa using congrArg List.length h.keys
    refine ⟨rotated, hd, h.keys, ?_, ?_, ?_⟩
    · intro ip
      have hfits := h.fits ip
      rw [hslots] at hfits
      exact_mod_cast hfits
    · intro i p q hp hq hsame ip hne
      have hstays := h.stays i p q hp hq hsame ip hne
      rw [hslots] at hstays
      exact_mod_cast hstays.symm
    · have hresult : makeSchedulingDecision checks M inFlightReqs req =
          if decisionsDiffer rotated old then .ok rotated
          else .ok DO_NOT_MIGRATE_DECISION := by
        simp only [makeSchedulingDecision, hdist, if_true, hdue, ne_eq,
          not_true_eq_false, if_false, hold, ← hsorted, hd]
      rw [hresult]
      by_cases hdiffer : decisionsDiffer rotated old = true
      · rw [if_pos hdiffer]
        exact Or.inr ⟨rfl, exists_moved hlen (of_decide_eq_true hdiffer)⟩
      · rw [if_neg hdiffer]
        exact Or.inl ⟨rfl, by simpa [decisionsDiffer] using hdiffer⟩

theorem ForcedMigration.rotates_to_other_host :
    ∃ rotated, rotatePlacement (appOn ["a"])
        (getSortedHosts (((∅ : HostMap).insert "a" ⟨"a", 1, 1⟩).insert "b" ⟨"b", 1, 0⟩)
          (appInFlight ["a"]) (migrationCheck ["a"]) .distChange) = .ok rotated ∧
      RotatesFeasibly (((∅ : HostMap).insert "a" ⟨"a", 1, 1⟩).insert "b" ⟨"b", 1, 0⟩) (appOn ["a"]) rotated
        (makeSchedulingDecision 9
          (((∅ : HostMap).insert "a" ⟨"a", 1, 1⟩).insert "b" ⟨"b", 1, 0⟩)
          (appInFlight ["a"]) (migrationCheck ["a"])) := by
  refine (@rotates_feasibly_iff
    (((∅ : HostMap).insert "a" ⟨"a", 1, 1⟩).insert "b" ⟨"b", 1, 0⟩) (appInFlight ["a"])
    (migrationCheck ["a"]) { appId := 1 } (appOn ["a"]) 9
    (keyedByIp_insert (keyedByIp_insert keyedByIp_empty ⟨"a", 1, 1⟩) ⟨"b", 1, 0⟩) (by decide +kernel)
    (by decide) ExtTreeMap.getElem?_insert_self
    (((ownCounted_empty _).insert (by decide)).insert (by decide))).mpr ⟨["b"], rfl, ?_⟩
  intro ip
  by_cases he : "b" = ip
  · subst he
    decide +kernel
  · simp [he]

/-- On a host with more slots in use than it has, the rotation of an app fails. -/
theorem ForcedMigration.rotation_without_slots :
    OwnCounted overfullHost (appOn ["a"]).placements ∧
    makeSchedulingDecision 9 overfullHost (appInFlight ["a"]) (migrationCheck ["a"]) =
      .error (.runtimeError "No host with free slots during rotation") :=
  ⟨overfullHost_counted, by decide +kernel⟩

end Faabric
