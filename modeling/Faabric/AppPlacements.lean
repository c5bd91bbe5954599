import Faabric.PlacementSoundness
import Faabric.MigrationMinimiser

/-! The placements of an app on the slots that it would have after giving back its own, and
what filling the hosts in any order has to do with them. -/

namespace Faabric

open Std (ExtTreeMap)
open MapTotal Packing

variable {names : List String} {ip : String} {count : Nat}

/-- The slots a host has for an app, once the app has given back those of its own messages. -/
def roomFor (hostMap : HostMap) (own : List Placement) (ip : String) : Nat :=
  match hostMap[ip]? with
  | some h => (h.slots - (h.usedSlots - hostCount ip own)).toNat
  | none => 0

def OwnCounted (hostMap : HostMap) (own : List Placement) : Prop :=
  ∀ (ip : String) (h : HostState), hostMap[ip]? = some h → hostCount ip own ≤ h.usedSlots

structure IsPlacement (hostMap : HostMap) (own : List Placement) (count : Nat) (hosts : List String) :
    Prop where
  length : hosts.length = count
  fits : ∀ ip, hosts.count ip ≤ roomFor hostMap own ip

variable {M : HostMap}

theorem KeyedByIp.roomOn (hM : KeyedByIp M) (ip : String) :
    roomOn (hostList M) ip = match M[ip]? with
      | some h => (numSlotsAvailable h).toNat
      | none => 0 := by
  cases hk : M[ip]? with
  | some h =>
    have hm : h ∈ hostList M :=
      List.mem_map.mpr ⟨(ip, h), ExtTreeMap.mem_toList_iff_getElem?_eq_some.mpr hk, rfl⟩
    have hroom := roomOn_of_nodup hM.nodup hm
    rwa [hM ip h hk] at hroom
  | none =>
    have hnone : (hostList M).filter (fun h => h.ip = ip) = [] := by
      rw [List.filter_eq_nil_iff]
      intro h hm he
      obtain ⟨⟨k, h'⟩, hin, rfl⟩ := List.mem_map.mp hm
      have hget := ExtTreeMap.mem_toList_iff_getElem?_eq_some.mp hin
      rw [← hM k h' hget, of_decide_eq_true he, hk] at hget
      exact absurd hget (by simp)
    simp [Faabric.roomOn, hnone]

theorem decisionFor_hosts (appId : Int) (assigned : List (HostState × Message)) :
    (decisionFor appId assigned).hosts = assigned.map fun e => e.1.ip := by
  rw [decisionFor_eq]
  simp [SchedulingDecision.hosts, Function.comp_def]

variable {hosts : List HostState}

theorem roomOn_map (hn : (hosts.map HostState.ip).Nodup) :
    (hosts.map HostState.ip).map (roomOn hosts) = hosts.map fun h => (numSlotsAvailable h).toNat := by
  rw [List.map_map]
  apply List.map_congr_left
  intro h hm
  exact roomOn_of_nodup hn hm

theorem mem_of_count_le_roomOn (hroom : ∀ ip, names.count ip ≤ roomOn hosts ip) (hm : ip ∈ names) :
    ip ∈ hosts.map HostState.ip := by
  by_contra hout
  have hpos := (List.count_pos_iff.mpr hm).trans_le (hroom ip)
  have hnone : hosts.filter (fun h => h.ip = ip) = [] := by
    rw [List.filter_eq_nil_iff]
    intro h hh he
    exact hout (List.mem_map.mpr ⟨h, hh, of_decide_eq_true he⟩)
  simp [roomOn, hnone] at hpos

theorem assignSlots_hosts {messages : List Message} (hfits : (assignSlots hosts messages).2 = [])
    (appId : Int) :
    (decisionFor appId (assignSlots hosts messages).1).hosts.length = messages.length ∧
      ∀ ip, (decisionFor appId (assignSlots hosts messages).1).hosts.count ip ≤ roomOn hosts ip := by
  constructor
  · rw [decisionFor_hosts, List.length_map, ← List.length_map Prod.snd]
    exact congrArg List.length (FirstFit.fill_length_of_fits hfits)
  · intro ip
    rw [count_hosts]
    exact assignSlots_count_le hosts appId messages ip

theorem roomOn_perm {hosts' : List HostState} (h : hosts.Perm hosts') (ip : String) :
    roomOn hosts ip = roomOn hosts' ip :=
  le_antisymm (roomOn_subperm h.subperm ip) (roomOn_subperm h.symm.subperm ip)

theorem length_le_availableSlots (hn : (hosts.map HostState.ip).Nodup)
    (hroom : ∀ ip, names.count ip ≤ roomOn hosts ip) : names.length ≤ availableSlots hosts := by
  have hsum := loadsOn_sum hn fun ip hm => mem_of_count_le_roomOn hroom hm
  have hle : (loadsOn (hosts.map HostState.ip) names).sum ≤
      ((hosts.map HostState.ip).map (roomOn hosts)).sum := by
    refine List.sum_le_sum ?_
    intro ip _
    exact hroom ip
  rw [hsum, roomOn_map hn] at hle
  rw [availableSlots_eq]
  exact_mod_cast hle

section Fits

variable {M M' : HostMap} {own : List Placement} {hosts : List HostState}

theorem assignSlots_isPlacement (hroom : ∀ ip, roomOn (hostList M') ip = roomFor M own ip)
    (hperm : hosts.Perm (hostList M')) (appId : Int) {messages : List Message}
    (hfits : (assignSlots hosts messages).2 = []) :
    IsPlacement M own messages.length (decisionFor appId (assignSlots hosts messages).1).hosts := by
  obtain ⟨hlen, hle⟩ := assignSlots_hosts hfits appId
  refine ⟨hlen, ?_⟩
  intro ip
  rw [← hroom, ← roomOn_perm hperm]
  exact hle ip

theorem IsPlacement.length_le (hM' : KeyedByIp M')
    (hroom : ∀ ip, roomOn (hostList M') ip = roomFor M own ip) (h : IsPlacement M own count names) :
    count ≤ availableSlots (hostList M') := by
  rw [← h.length]
  refine length_le_availableSlots hM'.nodup ?_
  intro ip
  rw [hroom]
  exact h.fits ip

theorem assignSlots_fits_iff_placement (hM' : KeyedByIp M')
    (hroom : ∀ ip, roomOn (hostList M') ip = roomFor M own ip) (hperm : hosts.Perm (hostList M'))
    (messages : List Message) :
    (assignSlots hosts messages).2 = [] ↔ ∃ names, IsPlacement M own messages.length names := by
  constructor
  · intro hfits
    exact ⟨_, assignSlots_isPlacement hroom hperm 0 hfits⟩
  · rintro ⟨names, hp⟩
    rw [assignSlots_fits_iff, availableSlots_perm hperm]
    exact hp.length_le hM' hroom

theorem IsPlacement.perm {names' : List String} (h : IsPlacement M own count names)
    (hp : names'.Perm names) : IsPlacement M own count names' where
  length := hp.length_eq.trans h.length
  fits ip := (hp.count_eq ip).le.trans (h.fits ip)

theorem IsPlacement.mem (h : IsPlacement M own count names) (hm : ip ∈ names)
    : ∃ host, M[ip]? = some host := by
  have hpos := (List.count_pos_iff.mpr hm).trans_le (h.fits ip)
  cases hk : M[ip]? with
  | some host => exact ⟨host, rfl⟩
  | none => simp [roomFor, hk] at hpos

theorem IsPlacement.minimised {new old : SchedulingDecision}
    (h : IsPlacement M own old.placements.length new.hosts) (hne : ∀ p ∈ old.placements, p.host ≠ "") :
    ∃ d, minimiseNumOfMigrations new old = .ok d ∧
      d.placements.map Placement.key = old.placements.map Placement.key ∧
      d.hosts.Perm new.hosts ∧ IsPlacement M own old.placements.length d.hosts := by
  have hlen : new.placements.length = old.placements.length := by
    simpa [SchedulingDecision.hosts] using h.length
  obtain ⟨d, hd, -, hperm, hrehosted, -⟩ := minimiseNumOfMigrations_ok hlen hne
  exact ⟨d, hd, rehosted_keys hrehosted, hperm, h.perm hperm⟩

end Fits

/-! ### Giving back the slots of the app -/

theorem numSlotsAvailable_toNat (h : HostState) :
    (numSlotsAvailable h).toNat = (h.slots - h.usedSlots).toNat := by
  unfold numSlotsAvailable
  omega

theorem roomFor_new (hM : KeyedByIp M) (ip : String) : roomOn (hostList M) ip = roomFor M [] ip := by
  rw [hM.roomOn, roomFor]
  cases M[ip]? with
  | none => rfl
  | some h =>
    dsimp only
    rw [numSlotsAvailable_toNat, hostCount_nil, Nat.cast_zero, sub_zero]

section DistChange

variable {M : HostMap} {inFlightReqs : InFlightReqs} {req oldReq : BatchExecuteRequest}
  {old : SchedulingDecision}

theorem freeAppSlots_getElem? (hM : KeyedByIp M) (hold : inFlightReqs[req.appId]? = some (oldReq, old))
    (hacc : OwnCounted M old.placements) (ip : String) :
    (freeAppSlots (oldHostFreqCount inFlightReqs req) M)[ip]? =
      M[ip]?.map fun h => { h with usedSlots := h.usedSlots - hostCount ip old.placements } := by
  have hfreq : oldHostFreqCount inFlightReqs req = getHostFreqCount old := by
    simp [oldHostFreqCount, hold]
  rw [hfreq, freeAppSlots, ExtTreeMap.getElem?_map]
  cases hk : M[ip]? with
  | none => rfl
  | some h =>
    have hle := hacc ip h hk
    obtain rfl := hM ip h hk
    simp only [Option.map_some, getHostFreqCount_getElem?, count_hosts]
    by_cases hc : hostCount h.ip old.placements = 0
    · simp [hc]
    · simp only [hc, if_false, freeSlots]
      rw [max_eq_right (by omega)]

theorem KeyedByIp.freed (hM : KeyedByIp M) (hold : inFlightReqs[req.appId]? = some (oldReq, old))
    (hacc : OwnCounted M old.placements) :
    KeyedByIp (freeAppSlots (oldHostFreqCount inFlightReqs req) M) := by
  intro ip h hk
  rw [freeAppSlots_getElem? hM hold hacc, Option.map_eq_some_iff] at hk
  obtain ⟨h', hk', rfl⟩ := hk
  exact hM ip h' hk'

theorem roomFor_freed (hM : KeyedByIp M) (hold : inFlightReqs[req.appId]? = some (oldReq, old))
    (hacc : OwnCounted M old.placements) (ip : String) :
    roomOn (hostList (freeAppSlots (oldHostFreqCount inFlightReqs req) M)) ip =
      roomFor M old.placements ip := by
  rw [(hM.freed hold hacc).roomOn, freeAppSlots_getElem? hM hold hacc, roomFor]
  cases M[ip]? with
  | none => rfl
  | some h =>
    exact numSlotsAvailable_toNat _

end DistChange

/-! ### An app to try the schedulers on -/

def appOn (hosts : List String) : SchedulingDecision :=
  { appId := 1, groupId := 7, nFunctions := hosts.length,
    placements := hosts.mapIdx fun i host => { host, messageId := i + 1 } }

def appInFlight (hosts : List String) : InFlightReqs := (∅ : InFlightReqs).insert 1 ({ appId := 1 }, appOn hosts)

def migrationCheck (hosts : List String) : BatchExecuteRequest :=
  { appId := 1, type := .migration, messages := hosts.mapIdx fun i _ => { id := i + 1 } }

/-- More slots are in use than there are, as the idle threads of other apps are counted. -/
def overfullHost : HostMap := (∅ : HostMap).insert "a" ⟨"a", 2, 5⟩

theorem keyedByIp_insert (hM : KeyedByIp M) (h : HostState) : KeyedByIp (M.insert h.ip h) :=
  forall_insert hM rfl

theorem keyedByIp_empty : KeyedByIp ∅ := by
  intro k h hk
  simp at hk

theorem OwnCounted.insert {own : List Placement} (hM : OwnCounted M own) {h : HostState}
    (hle : hostCount ip own ≤ h.usedSlots) : OwnCounted (M.insert ip h) own :=
  forall_insert hM hle

theorem ownCounted_empty (own : List Placement) : OwnCounted ∅ own := by
  intro ip h hk
  simp at hk

theorem overfullHost_counted : OwnCounted overfullHost (appOn ["a"]).placements :=
  (ownCounted_empty _).insert (by decide)

theorem OwnCounted.filter {own : List Placement} (hM : OwnCounted M own) (p : String → HostState → Bool) :
    OwnCounted (M.filter p) own := by
  intro ip h hk
  rw [ExtTreeMap.getElem?_filter', Option.filter_eq_some_iff] at hk
  exact hM ip h hk.1

end Faabric
