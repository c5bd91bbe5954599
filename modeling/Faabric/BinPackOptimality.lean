import Faabric.HostOrder
import Faabric.AppPlacements

/-! Bin-packing is optimal: of all placements that fit in the available slots, it finds one on
the fewest hosts, and of these one with the fewest pairs of messages on different hosts. -/

namespace Faabric

open Std (ExtTreeMap)
open BinPack MapTotal Packing

/-- The number of hosts, and the number of pairs of messages on different hosts. -/
def locality (hosts : List String) : Nat ×ₗ Nat := toLex (hosts.toFinset.card, crossPairs hosts)

structure IsBestPlacement (hostMap : HostMap) (own : List Placement) (count : Nat)
    (hosts : List String) : Prop extends IsPlacement hostMap own count hosts where
  best : ∀ hosts', IsPlacement hostMap own count hosts' → locality hosts ≤ locality hosts'

/-! ### The locality score -/

theorem getHostFreqCount_toList (d : SchedulingDecision) :
    ∃ bins : List String, bins.Nodup ∧ (∀ host, host ∈ bins ↔ host ∈ d.hosts) ∧
      (getHostFreqCount d).toList = bins.map fun b => (b, (d.hosts.count b : Int)) := by
  have hentry : ∀ e, e ∈ (getHostFreqCount d).toList ↔ e.1 ∈ d.hosts ∧ e.2 = d.hosts.count e.1 := by
    rintro ⟨host, n⟩
    rw [ExtTreeMap.mem_toList_iff_getElem?_eq_some, getHostFreqCount_getElem?]
    by_cases hc : d.hosts.count host = 0
    · simp [hc, List.count_eq_zero.mp hc]
    · simp [hc, List.count_pos_iff.mp (Nat.pos_of_ne_zero hc), eq_comm]
  refine ⟨(getHostFreqCount d).toList.map Prod.fst, ?_, ?_, ?_⟩
  · refine List.pairwise_map.mpr ((getHostFreqCount d).distinct_keys_toList.imp ?_)
    intro a b hab he
    exact hab (by simp [he])
  · intro host
    rw [List.mem_map]
    constructor
    · rintro ⟨e, he, rfl⟩
      exact ((hentry e).mp he).1
    · intro hm
      exact ⟨(host, d.hosts.count host), (hentry _).mpr ⟨hm, rfl⟩, rfl⟩
  · rw [List.map_map]
    refine (List.map_id _).symm.trans (List.map_congr_left ?_)
    intro e he
    exact Prod.ext rfl ((hentry e).mp he).2

theorem sum_mul_rest (total : Int) (loads : List Nat) :
    (loads.map fun x : Nat => (total - x) * x).sum = total * loads.sum - squares loads := by
  induction loads with
  | nil => simp
  | cons x loads ih =>
    simp only [List.map_cons, List.sum_cons, squares_cons, ih]
    push_cast
    ring

theorem getLocalityScore_eq (d : SchedulingDecision) :
    getLocalityScore d = ((d.hosts.toFinset.card : Int), (crossPairs d.hosts : Int)) := by
  obtain ⟨bins, hn, hmem, hlist⟩ := getHostFreqCount_toList d
  have hall : ∀ host ∈ d.hosts, host ∈ bins := fun host => (hmem host).mpr
  have hcard : d.hosts.toFinset.card = bins.length := by
    rw [← List.toFinset_card_of_nodup hn]
    congr 1
    ext host
    simp [hmem]
  have htotal : ((loadsOn bins d.hosts).sum : Int) = d.hosts.length := by
    rw [loadsOn_sum hn hall]
  have hpairs := two_mul_crossPairs_add hn hall
  have hscore : getLocalityScore d = if bins.length = 1 then (1, 0)
      else ((bins.length : Int), ((loadsOn bins d.hosts).map fun x : Nat =>
        ((loadsOn bins d.hosts).sum - x : Int) * x).sum / 2) := by
    simp [getLocalityScore, hlist, loadsOn, Function.comp_def]
  rw [hscore, sum_mul_rest, htotal, hcard]
  split_ifs with hone
  · -- On one host the messages are all together.
    obtain ⟨b, rfl⟩ := List.length_eq_one_iff.mp hone
    have hsum := loadsOn_sum hn hall
    simp only [loadsOn, List.map_cons, List.map_nil, List.sum_singleton] at hsum
    simp only [loadsOn, List.map_cons, List.map_nil, squares_cons, squares_nil, hsum] at hpairs
    have hzero : crossPairs d.hosts = 0 := by omega
    simp [hzero]
  · congr 1
    zify at hpairs
    rw [show (d.hosts.length : Int) * d.hosts.length - squares (loadsOn bins d.hosts) =
      2 * crossPairs d.hosts by linarith]
    omega

theorem isFirstDecisionBetter_iff (a b : SchedulingDecision) :
    isFirstDecisionBetter a b = true ↔ locality a.hosts < locality b.hosts := by
  rw [isFirstDecisionBetter, getLocalityScore_eq, getLocalityScore_eq, locality, locality,
    Prod.Lex.toLex_lt_toLex]
  dsimp only
  by_cases hne : a.hosts.toFinset.card = b.hosts.toFinset.card
  · simp [hne]
  · simp [hne]

/-! ### The order of the hosts -/

theorem assignSlots_locality_le {hosts : List HostState} (hn : (hosts.map HostState.ip).Nodup)
    (hs : hosts.Pairwise fun a b => numSlotsAvailable b ≤ numSlotsAvailable a) (appId : Int)
    {messages : List Message} (hfits : (assignSlots hosts messages).2 = []) {names : List String}
    (hlen : names.length = messages.length) (hroom : ∀ ip, names.count ip ≤ roomOn hosts ip) :
    locality (decisionFor appId (assignSlots hosts messages).1).hosts ≤ locality names := by
  set d := decisionFor appId (assignSlots hosts messages).1 with hd
  obtain ⟨hcount, hroom'⟩ := assignSlots_hosts hfits appId
  have hsorted : ((hosts.map HostState.ip).map (roomOn hosts)).Pairwise (· ≥ ·) := by
    rw [roomOn_map hn, List.pairwise_map]
    exact hs.imp fun hle => Int.toNat_le_toNat hle
  have hgreedy : loadsOn (hosts.map HostState.ip) d.hosts =
      greedy ((hosts.map HostState.ip).map (roomOn hosts)) d.hosts.length := by
    rw [hcount, roomOn_map hn, hd, decisionFor_hosts]
    exact FirstFit.fill_loads _ HostState.ip hn messages
  obtain ⟨hcard, hcross⟩ := greedy_optimal hn hsorted (fun ip hm => mem_of_count_le_roomOn hroom' hm)
    hgreedy (hlen.trans hcount.symm) (fun ip hm => mem_of_count_le_roomOn hroom hm) fun ip _ => hroom ip
  exact Prod.Lex.toLex_mono ⟨hcard, hcross⟩

theorem sorted_best {M M' : HostMap} {own : List Placement} (hM' : KeyedByIp M')
    (hroom : ∀ ip, roomOn (hostList M') ip = roomFor M own ip) {hosts : List HostState}
    (hperm : hosts.Perm (hostList M'))
    (hs : hosts.Pairwise fun a b => numSlotsAvailable b ≤ numSlotsAvailable a)
    (appId : Int) {messages : List Message} (hfits : (assignSlots hosts messages).2 = []) :
    IsBestPlacement M own messages.length (decisionFor appId (assignSlots hosts messages).1).hosts := by
  refine ⟨assignSlots_isPlacement hroom hperm appId hfits, ?_⟩
  intro names hp
  have hn : (hosts.map HostState.ip).Nodup := (hperm.map HostState.ip).nodup_iff.mpr hM'.nodup
  refine assignSlots_locality_le hn hs appId hfits hp.length ?_
  intro ip
  rw [roomOn_perm hperm, hroom]
  exact hp.fits ip

def BinPack.candidate (hostMap : HostMap) (inFlightReqs : InFlightReqs) (req : BatchExecuteRequest) :
    SchedulingDecision :=
  decisionFor req.appId
    (assignSlots (getSortedHosts hostMap inFlightReqs req .distChange) req.messages).1

/-- A new app is placed in the best way, and the candidate for a migration is the best there
is. The answer is not to migrate exactly when no placement is better than the current one,
provided that there is any placement. -/
theorem BinPack.optimal {M : HostMap} (hM : KeyedByIp M) (inFlightReqs : InFlightReqs)
    (req : BatchExecuteRequest) (hsingle : (req.singleHostHint && req.isOmp) = false) :
    (getDecisionType inFlightReqs req = .new →
      (∃ hosts, IsPlacement M [] req.messages.length hosts) →
        ∃ d, makeSchedulingDecision M inFlightReqs req = .ok d ∧
          IsBestPlacement M [] req.messages.length d.hosts) ∧
    ∀ oldReq old, getDecisionType inFlightReqs req = .distChange →
      inFlightReqs[req.appId]? = some (oldReq, old) → OwnCounted M old.placements →
      ((∃ hosts, IsPlacement M old.placements req.messages.length hosts) →
        IsBestPlacement M old.placements req.messages.length
          (candidate M inFlightReqs req).hosts) ∧
      ((makeSchedulingDecision M inFlightReqs req = .ok DO_NOT_MIGRATE_DECISION ↔
          ¬ ∃ hosts, IsPlacement M old.placements req.messages.length hosts ∧
            locality hosts < locality old.hosts) ↔
        ∃ hosts, IsPlacement M old.placements req.messages.length hosts) := by
  have hconsider (hosts : List HostState) : considerHosts req hosts = .ok hosts := by
    rw [considerHosts.eq_def, hsingle]
    rfl
  constructor
  · intro hnew hex
    have hs : (getSortedHosts M inFlightReqs req .new).Pairwise
        fun a b => numSlotsAvailable b ≤ numSlotsAvailable a :=
      (sortHosts_pairwise isFirstHostLarger_eq_false_iff _).imp fun h => Prod.Lex.monotone_fst _ _ h
    have hleft : (assignSlots (getSortedHosts M inFlightReqs req .new) req.messages).2 = [] :=
      (assignSlots_fits_iff_placement hM (roomFor_new hM) (sortHosts_perm _ _) req.messages).mpr hex
    refine ⟨_, ?_, sorted_best hM (roomFor_new hM) (sortHosts_perm _ _) hs req.appId hleft⟩
    rw [makeSchedulingDecision_eq (by simp [hnew]) (hconsider _), hnew, fillHosts,
      if_neg (not_not.mpr hleft)]
    rfl
  · intro oldReq old hdist hold hacc
    have hs : (getSortedHosts M inFlightReqs req .distChange).Pairwise
        fun a b => numSlotsAvailable b ≤ numSlotsAvailable a :=
      (sortHosts_pairwise (isFirstHostLargerWithFreqTaint_eq_false_iff _) _).imp
        fun h => Prod.Lex.monotone_fst _ _ h
    have hfits : (assignSlots (getSortedHosts M inFlightReqs req .distChange) req.messages).2 = [] ↔
        ∃ hosts, IsPlacement M old.placements req.messages.length hosts :=
      assignSlots_fits_iff_placement (hM.freed hold hacc) (roomFor_freed hM hold hacc)
        (sortHosts_perm _ _) req.messages
    have hbest (hleft : (assignSlots (getSortedHosts M inFlightReqs req .distChange)
        req.messages).2 = []) :
        IsBestPlacement M old.placements req.messages.length
          (candidate M inFlightReqs req).hosts :=
      sorted_best (hM.freed hold hacc) (roomFor_freed hM hold hacc) (sortHosts_perm _ _) hs req.appId hleft
    refine ⟨fun hex => hbest (hfits.mpr hex), ?_⟩
    have hresult : makeSchedulingDecision M inFlightReqs req =
        if (assignSlots (getSortedHosts M inFlightReqs req .distChange) req.messages).2 ≠ [] then
          .ok NOT_ENOUGH_SLOTS_DECISION
        else if isFirstDecisionBetter (candidate M inFlightReqs req) old then
          minimiseNumOfMigrations (candidate M inFlightReqs req) old
        else .ok DO_NOT_MIGRATE_DECISION := by
      simp only [makeSchedulingDecision, hdist, hconsider, hold, if_true, candidate]
      rfl
    by_cases hleft : (assignSlots (getSortedHosts M inFlightReqs req .distChange) req.messages).2 = []
    · have hcand := hbest hleft
      refine iff_of_true ?_ (hfits.mp hleft)
      rw [hresult, if_neg (not_not.mpr hleft)]
      by_cases hbetter : isFirstDecisionBetter (candidate M inFlightReqs req) old = true
      · have hlt := (isFirstDecisionBetter_iff _ _).mp hbetter
        rw [if_pos hbetter]
        refine iff_of_false ?_ (not_not.mpr ⟨_, hcand.toIsPlacement, hlt⟩)
        intro hok
        have hne : old.placements ≠ [] := by
          intro hnil
          refine absurd hlt (not_lt.mpr ?_)
          have hzero : locality old.hosts = toLex (0, 0) := by
            simp [locality, SchedulingDecision.hosts, hnil, crossPairs]
          rw [hzero, locality]
          exact Prod.Lex.toLex_mono ⟨Nat.zero_le _, Nat.zero_le _⟩
        exact minimiseNumOfMigrations_ne_nil hne hok rfl
      · rw [if_neg hbetter]
        refine iff_of_true rfl ?_
        rintro ⟨hosts, hp, hlt⟩
        exact hbetter ((isFirstDecisionBetter_iff _ _).mpr ((hcand.best hosts hp).trans_lt hlt))
    · -- Nothing fits: the answer is that there are not enough slots.
      have hnone := mt hfits.mpr hleft
      refine iff_of_false ?_ hnone
      rw [hresult, if_pos hleft]
      intro hiff
      have hsame := hiff.mpr fun h => hnone (h.imp fun _ hp => hp.1)
      exact absurd hsame (by decide)

theorem BinPack.optimal_two_hosts :
    (∃ d, makeSchedulingDecision ((∅ : HostMap).insert "a" ⟨"a", 2, 0⟩) ∅
        { appId := 1, messages := [{ id := 1 }, { id := 2 }] } = .ok d ∧
      IsBestPlacement ((∅ : HostMap).insert "a" ⟨"a", 2, 0⟩) [] 2 d.hosts) ∧
    makeSchedulingDecision (((∅ : HostMap).insert "a" ⟨"a", 2, 1⟩).insert "b" ⟨"b", 1, 1⟩)
      (appInFlight ["a", "b"]) (migrationCheck ["a", "b"]) ≠ .ok DO_NOT_MIGRATE_DECISION := by
  constructor
  · refine (optimal (keyedByIp_insert keyedByIp_empty ⟨"a", 2, 0⟩) ∅
      { appId := 1, messages := [{ id := 1 }, { id := 2 }] } rfl).1 (by decide) ⟨["a", "a"], rfl, ?_⟩
    intro ip
    by_cases he : "a" = ip
    · subst he
      decide +kernel
    · simp [he]
  · have hfits : IsPlacement (((∅ : HostMap).insert "a" ⟨"a", 2, 1⟩).insert "b" ⟨"b", 1, 1⟩)
        (appOn ["a", "b"]).placements 2 ["a", "a"] := by
      refine ⟨rfl, ?_⟩
      intro ip
      by_cases he : "a" = ip
      · subst he
        decide +kernel
      · simp [he]
    have hiff := ((optimal
      (keyedByIp_insert (keyedByIp_insert keyedByIp_empty ⟨"a", 2, 1⟩) ⟨"b", 1, 1⟩)
      (appInFlight ["a", "b"]) (migrationCheck ["a", "b"]) rfl).2 { appId := 1 } (appOn ["a", "b"])
      (by decide +kernel) ExtTreeMap.getElem?_insert_self
      (((ownCounted_empty _).insert (by decide)).insert (by decide))).2.mpr ⟨_, hfits⟩
    intro hsame
    exact hiff.mp hsame ⟨_, hfits, by decide +kernel⟩

theorem BinPack.no_slots_for_running_app :
    makeSchedulingDecision overfullHost (appInFlight ["a"]) (migrationCheck ["a"]) =
      .ok NOT_ENOUGH_SLOTS_DECISION ∧
    OwnCounted overfullHost (appOn ["a"]).placements ∧
    ¬ ∃ hosts, IsPlacement overfullHost (appOn ["a"]).placements 1 hosts ∧
      locality hosts < locality ["a"] := by
  refine ⟨by decide +kernel, overfullHost_counted, ?_⟩
  rintro ⟨hosts, hp, -⟩
  obtain ⟨ip, rfl⟩ := List.length_eq_one_iff.mp hp.length
  have hle := hp.fits ip
  by_cases he : "a" = ip
  · subst he
    exact absurd hle (by decide +kernel)
  · simp [roomFor, overfullHost, he] at hle

end Faabric
