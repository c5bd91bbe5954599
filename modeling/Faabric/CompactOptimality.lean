import Faabric.AppPlacements
import Faabric.HostOrder

/-! The compact scheduler migrates an app to leave as many hosts empty as possible, and only
if these are more than before. -/

namespace Faabric

open Std (ExtTreeMap)
open Faabric.Compact MapTotal Packing

def emptyHosts (hostMap : HostMap) (own : List Placement) (hosts : List String) : Nat :=
  hostMap.toList.countP fun e : String × HostState => e.2.usedSlots - hostCount e.1 own + hosts.count e.1 = 0

def Compact.eligibleHosts (hostMap : HostMap) (inFlightReqs : InFlightReqs) (req : BatchExecuteRequest) :
    HostMap :=
  hostMap.filter fun k _ => !usedByAnotherTenant inFlightReqs req k

structure Compact.IsBestMigration (hostMap eligible : HostMap) (old d : SchedulingDecision) : Prop where
  keys : d.placements.map Placement.key = old.placements.map Placement.key
  placed : IsPlacement eligible old.placements old.placements.length d.hosts
  more : getNumFreeHosts hostMap < emptyHosts hostMap old.placements d.hosts
  most : ∀ hosts, IsPlacement eligible old.placements old.placements.length hosts →
    emptyHosts hostMap old.placements hosts ≤ emptyHosts hostMap old.placements d.hosts

def OthersCounted (hostMap : HostMap) (inFlightReqs : InFlightReqs) (req : BatchExecuteRequest)
    (own : List Placement) : Prop :=
  ∀ (ip : String) (h : HostState), hostMap[ip]? = some h → usedByAnotherTenant inFlightReqs req ip = true →
    hostCount ip own < h.usedSlots

/-! ### Counting empty hosts -/

theorem addDecision_getElem? (M : HostMap) (d : SchedulingDecision) (ip : String) :
    (addDecision M d)[ip]? =
      M[ip]?.map fun h => { h with usedSlots := h.usedSlots + d.hosts.count ip } := by
  unfold addDecision
  generalize d.hosts = hosts
  induction hosts generalizing M with
  | nil => simp
  | cons host hosts ih =>
    rw [List.foldl_cons, ih, ExtTreeMap.getElem?_modify, List.count_cons]
    by_cases he : host = ip
    · subst he
      cases M[host]? with
      | none => simp
      | some h =>
        simp
        omega
    · cases M[ip]? with
      | none => simp [he]
      | some h => simp [he]

theorem getNumFreeHosts_addDecision (M : HostMap) (d : SchedulingDecision) :
    getNumFreeHosts (addDecision M d) =
      M.toList.countP fun e : String × HostState => e.2.usedSlots + d.hosts.count e.1 = 0 := by
  have hmap : addDecision M d =
      M.map fun ip h => { h with usedSlots := h.usedSlots + d.hosts.count ip } := by
    apply ExtTreeMap.ext_getElem?
    intro ip
    rw [addDecision_getElem?, ExtTreeMap.getElem?_map]
  rw [hmap, getNumFreeHosts, hostList, ExtTreeMap.toList_map, List.map_map, List.countP_map]
  rfl

theorem emptyHosts_old (M : HostMap) (old : SchedulingDecision) :
    emptyHosts M old.placements old.hosts = getNumFreeHosts M := by
  rw [emptyHosts, getNumFreeHosts, hostList, List.countP_map]
  congr 1
  funext e
  simp [count_hosts]

theorem emptyHosts_perm (M : HostMap) (own : List Placement) {names names' : List String}
    (h : names.Perm names') : emptyHosts M own names = emptyHosts M own names' := by
  simp only [emptyHosts, h.count_eq]

section DistChange

variable {M : HostMap} {inFlightReqs : InFlightReqs} {req oldReq : BatchExecuteRequest}
  {old : SchedulingDecision}

theorem emptyHosts_eq (hM : KeyedByIp M) (hold : inFlightReqs[req.appId]? = some (oldReq, old))
    (hacc : OwnCounted M old.placements) (hothers : OthersCounted M inFlightReqs req old.placements)
    (names : List String) :
    emptyHosts M old.placements names =
      (freeAppSlots (oldHostFreqCount inFlightReqs req)
        (eligibleHosts M inFlightReqs req)).toList.countP
          fun e : String × HostState => e.2.usedSlots + names.count e.1 = 0 := by
  have hM' : KeyedByIp (eligibleHosts M inFlightReqs req) := hM.filter _
  have hacc' : OwnCounted (eligibleHosts M inFlightReqs req) old.placements := hacc.filter _
  have hmap : freeAppSlots (oldHostFreqCount inFlightReqs req) (eligibleHosts M inFlightReqs req) =
      (eligibleHosts M inFlightReqs req).map
        fun ip h => { h with usedSlots := h.usedSlots - hostCount ip old.placements } := by
    apply ExtTreeMap.ext_getElem?
    intro ip
    rw [freeAppSlots_getElem? hM' hold hacc', ExtTreeMap.getElem?_map]
  rw [hmap, ExtTreeMap.toList_map, List.countP_map, eligibleHosts, ExtTreeMap.toList_filter,
    List.countP_filter, emptyHosts]
  refine List.countP_congr ?_
  rintro ⟨ip, h⟩ hm
  have hk := ExtTreeMap.mem_toList_iff_getElem?_eq_some.mp hm
  simp only [decide_eq_true_eq, Function.comp_def, Bool.and_eq_true, Bool.not_eq_true']
  refine ⟨fun he => ⟨he, ?_⟩, And.left⟩
  by_contra hused
  have hlt := hothers ip h hk (by simpa using hused)
  omega

end DistChange

/-! ### Filling the fullest hosts first -/

theorem filter_append_filter_not {α : Type*} {p : α → Bool} {l : List α}
    (h : l.Pairwise fun a b => p b = true → p a = true) : l.filter p ++ l.filter (fun a => !p a) = l := by
  induction l with
  | nil => rfl
  | cons a l ih =>
    obtain ⟨ha, h⟩ := List.pairwise_cons.mp h
    by_cases hp : p a = true
    · simp [hp, ih h]
    · have hnone : l.filter p = [] := by
        rw [List.filter_eq_nil_iff]
        intro b hb hpb
        exact hp (ha b hb hpb)
      have hrest := ih h
      rw [hnone, List.nil_append] at hrest
      simp [hp, hnone, hrest]

/-- Hosts in the order of the compact scheduler: those in use first, then the others with the
most room first. -/
theorem assignSlots_leaves_most_empty {hosts : List HostState} (hn : (hosts.map HostState.ip).Nodup)
    (hused : ∀ h ∈ hosts, 0 ≤ h.usedSlots)
    (hs : hosts.Pairwise fun a b =>
      toLex (b.usedSlots, hostRank b) ≤ toLex (a.usedSlots, hostRank a)) (appId : Int)
    {messages : List Message} (hfits : (assignSlots hosts messages).2 = []) {names : List String}
    (hlen : names.length = messages.length) (hroom : ∀ ip, names.count ip ≤ roomOn hosts ip) :
    hosts.countP (fun h : HostState => h.usedSlots + names.count h.ip = 0) ≤
      hosts.countP fun h : HostState => h.usedSlots +
        (decisionFor appId (assignSlots hosts messages).1).hosts.count h.ip = 0 := by
  set d := decisionFor appId (assignSlots hosts messages).1 with hd
  obtain ⟨hcount, -⟩ := assignSlots_hosts hfits appId
  have hgreedy : loadsOn (hosts.map HostState.ip) d.hosts =
      greedy ((hosts.map HostState.ip).map (roomOn hosts)) d.hosts.length := by
    rw [hcount, roomOn_map hn, hd, decisionFor_hosts]
    exact FirstFit.fill_loads _ HostState.ip hn messages
  set inUse : HostState → Bool := fun h => 0 < h.usedSlots with hin
  have hsplit : hosts.filter inUse ++ hosts.filter (fun h => !inUse h) = hosts := by
    refine filter_append_filter_not (hs.imp ?_)
    intro a b hab hb
    have hle : b.usedSlots ≤ a.usedSlots := Prod.Lex.monotone_fst _ _ hab
    simp only [hin, decide_eq_true_eq] at hb ⊢
    omega
  -- A host is left empty when it is idle and gets no message.
  have hempty (items : List String) : hosts.countP (fun h : HostState => h.usedSlots + items.count h.ip = 0) =
      ((hosts.filter fun h => !inUse h).map HostState.ip).countP fun ip => items.count ip = 0 := by
    rw [List.countP_map, List.countP_filter]
    refine List.countP_congr ?_
    intro h hm
    have hnon := hused h hm
    simp only [hin, Function.comp_def, decide_eq_true_eq, Bool.and_eq_true, Bool.not_eq_true',
      decide_eq_false_iff_not]
    omega
  have hsorted : (((hosts.filter fun h => !inUse h).map HostState.ip).map (roomOn hosts)).Pairwise
      (· ≥ ·) := by
    have hidle := hs.sublist (List.filter_sublist (p := fun h => !inUse h))
    rw [List.map_map, List.pairwise_map]
    refine hidle.imp_of_mem ?_
    intro a b ha hb hab
    obtain ⟨ha, ha'⟩ := List.mem_filter.mp ha
    obtain ⟨hb, hb'⟩ := List.mem_filter.mp hb
    have hnon := hused a ha
    have hnon' := hused b hb
    simp only [hin, Bool.not_eq_true', decide_eq_false_iff_not] at ha' hb'
    have heq : b.usedSlots = a.usedSlots := by omega
    rw [Prod.Lex.toLex_le_toLex] at hab
    have hrank : hostRank b ≤ hostRank a := by
      rcases hab with hlt | ⟨-, hle⟩
      · exact absurd hlt (by simp [heq])
      · exact hle
    have havail : numSlotsAvailable b ≤ numSlotsAvailable a := Prod.Lex.monotone_fst _ _ hrank
    simp only [Function.comp_apply]
    rw [roomOn_of_nodup hn ha, roomOn_of_nodup hn hb]
    exact Int.toNat_le_toNat havail
  rw [← hsplit, List.map_append] at hgreedy hn
  rw [hempty, hempty]
  rw [hsplit] at hgreedy
  refine greedy_leaves_most_empty hn hsorted hgreedy (hlen.trans hcount.symm) ?_ fun ip _ => hroom ip
  intro ip hm
  rw [← List.map_append, hsplit]
  exact mem_of_count_le_roomOn hroom hm

theorem countP_hostList {M : HostMap} (hM : KeyedByIp M) (names : List String) :
    M.toList.countP (fun e : String × HostState => e.2.usedSlots + names.count e.1 = 0) =
      (hostList M).countP fun h : HostState => h.usedSlots + names.count h.ip = 0 := by
  rw [hostList, List.countP_map]
  refine List.countP_congr ?_
  rintro ⟨ip, h⟩ hm
  have hip := hM ip h (ExtTreeMap.mem_toList_iff_getElem?_eq_some.mp hm)
  simp [hip]

/-- The app migrates when it can leave more hosts empty than now, and then leaves as many
empty as any placement on the hosts of no other tenant. -/
theorem Compact.migration_optimal {M : HostMap} {inFlightReqs : InFlightReqs} {req oldReq : BatchExecuteRequest}
    {old : SchedulingDecision} (hM : KeyedByIp M)
    (hdist : getDecisionType inFlightReqs req = .distChange)
    (hold : inFlightReqs[req.appId]? = some (oldReq, old)) (hacc : OwnCounted M old.placements)
    (hothers : OthersCounted M inFlightReqs req old.placements)
    (hlen : req.messages.length = old.placements.length) (hne : ∀ p ∈ old.placements, p.host ≠ "") :
    ∃ d, makeSchedulingDecision M inFlightReqs req = .ok d ∧
      (d = DO_NOT_MIGRATE_DECISION ∨ d = NOT_ENOUGH_SLOTS_DECISION ∨
        Compact.IsBestMigration M (eligibleHosts M inFlightReqs req) old d) ∧
      (d = DO_NOT_MIGRATE_DECISION ↔
        (∃ hosts, IsPlacement (eligibleHosts M inFlightReqs req) old.placements
          old.placements.length hosts) ∧
        ∀ hosts, IsPlacement (eligibleHosts M inFlightReqs req) old.placements
          old.placements.length hosts →
            emptyHosts M old.placements hosts ≤ getNumFreeHosts M) := by
  set E := eligibleHosts M inFlightReqs req with hE
  have hM' : KeyedByIp E := hM.filter _
  have hacc' : OwnCounted E old.placements := hacc.filter _
  set F := freeAppSlots (oldHostFreqCount inFlightReqs req) E with hF
  have hFaddr : KeyedByIp F := hM'.freed hold hacc'
  have hroom := roomFor_freed hM' hold hacc'
  have hempty (names : List String) : emptyHosts M old.placements names =
      (hostList F).countP fun h : HostState => h.usedSlots + names.count h.ip = 0 := by
    rw [emptyHosts_eq hM hold hacc hothers, countP_hostList hFaddr]
  set sorted := getSortedHosts E inFlightReqs req .distChange with hsorted
  have hperm : sorted.Perm (hostList F) := sortHosts_perm _ _
  set cand := decisionFor req.appId (assignSlots sorted req.messages).1 with hcand
  have hbetter : isFirstDecisionBetter F cand old = true ↔
      getNumFreeHosts M < emptyHosts M old.placements cand.hosts := by
    rw [isFirstDecisionBetter, getNumFreeHosts_addDecision, getNumFreeHosts_addDecision,
      countP_hostList hFaddr, countP_hostList hFaddr, ← hempty, ← hempty, emptyHosts_old, decide_eq_true_eq]
  have hresult : makeSchedulingDecision M inFlightReqs req =
      if (assignSlots sorted req.messages).2 ≠ [] then .ok NOT_ENOUGH_SLOTS_DECISION
      else if isFirstDecisionBetter F cand old then minimiseNumOfMigrations cand old
      else .ok DO_NOT_MIGRATE_DECISION := by
    simp only [makeSchedulingDecision, hdist, hold, if_true, filterHosts_eq]
    rfl
  have hfits : (assignSlots sorted req.messages).2 = [] ↔
      ∃ hosts, IsPlacement E old.placements old.placements.length hosts := by
    rw [assignSlots_fits_iff_placement hFaddr hroom hperm, hlen]
  by_cases hleft : (assignSlots sorted req.messages).2 = []
  · rw [hresult, if_neg (not_not.mpr hleft)]
    have hplaced := assignSlots_isPlacement hroom hperm req.appId hleft
    rw [hlen] at hplaced
    have hmost : ∀ hosts, IsPlacement E old.placements old.placements.length hosts →
        emptyHosts M old.placements hosts ≤ emptyHosts M old.placements cand.hosts := by
      intro hosts hp
      rw [hempty, hempty, ← hperm.countP_eq, ← hperm.countP_eq]
      have hn : (sorted.map HostState.ip).Nodup := (hperm.map HostState.ip).nodup_iff.mpr hFaddr.nodup
      refine assignSlots_leaves_most_empty hn ?_ (sortHosts_pairwise isFirstHostFuller_eq_false_iff _)
        req.appId hleft (hp.length.trans hlen.symm) ?_
      · intro h hm
        obtain ⟨⟨ip, h'⟩, hin, rfl⟩ := List.mem_map.mp (hperm.mem_iff.mp hm)
        have hk := ExtTreeMap.mem_toList_iff_getElem?_eq_some.mp hin
        rw [hF, freeAppSlots_getElem? hM' hold hacc', Option.map_eq_some_iff] at hk
        obtain ⟨h'', hk'', rfl⟩ := hk
        have hle := hacc' ip h'' hk''
        dsimp only
        omega
      · intro ip
        rw [roomOn_perm hperm, hroom]
        exact hp.fits ip
    by_cases hb : isFirstDecisionBetter F cand old = true
    · have hmore := hbetter.mp hb
      obtain ⟨d, hd, hkeys, hsame, hp⟩ := hplaced.minimised hne
      have hequal := emptyHosts_perm M old.placements hsame
      rw [if_pos hb]
      refine ⟨d, hd, Or.inr (Or.inr ⟨hkeys, hp, by rw [hequal]; exact hmore, ?_⟩), iff_of_false ?_ ?_⟩
      · intro hosts hq
        rw [hequal]
        exact hmost hosts hq
      · -- A migration of no messages would leave the hosts as they are.
        rintro rfl
        have hnil : old.placements = [] := by simpa [DO_NOT_MIGRATE_DECISION] using hkeys.symm
        have hnow := emptyHosts_old M old
        have hnone : cand.hosts = old.hosts := by
          have hz := hplaced.length
          rw [hnil, List.length_nil, List.length_eq_zero_iff] at hz
          rw [hz]
          simp [SchedulingDecision.hosts, hnil]
        rw [hnone, hnow] at hmore
        exact lt_irrefl _ hmore
      · intro h
        exact absurd (h.2 _ hplaced) (not_le.mpr hmore)
    · rw [if_neg hb]
      refine ⟨_, rfl, Or.inl rfl, iff_of_true rfl ⟨hfits.mp hleft, ?_⟩⟩
      intro hosts hp
      exact (hmost hosts hp).trans (not_lt.mp (mt hbetter.mpr hb))
  · rw [hresult, if_pos hleft]
    refine ⟨_, rfl, Or.inr (Or.inl rfl), iff_of_false (by decide) ?_⟩
    intro h
    exact hleft (hfits.mpr h.1)

theorem Compact.migrates_two_hosts :
    makeSchedulingDecision (((∅ : HostMap).insert "a" ⟨"a", 2, 1⟩).insert "b" ⟨"b", 2, 1⟩)
      (appInFlight ["a", "b"]) (migrationCheck ["a", "b"]) ≠ .ok DO_NOT_MIGRATE_DECISION := by
  intro hstay
  have hothers : OthersCounted (((∅ : HostMap).insert "a" ⟨"a", 2, 1⟩).insert "b" ⟨"b", 2, 1⟩)
      (appInFlight ["a", "b"]) (migrationCheck ["a", "b"]) (appOn ["a", "b"]).placements := by
    intro ip h _ hused
    rw [usedByAnotherTenant, List.any_eq_true] at hused
    obtain ⟨⟨app, pair⟩, hm, hsub⟩ := hused
    rw [ExtTreeMap.mem_toList_iff_getElem?_eq_some, appInFlight, getElem?_insert_ite] at hm
    split_ifs at hm
    · rw [← Option.some.inj hm] at hsub
      simp [migrationCheck] at hsub
    · simp at hm
  obtain ⟨d, hd, -, hiff⟩ := @migration_optimal
    (((∅ : HostMap).insert "a" ⟨"a", 2, 1⟩).insert "b" ⟨"b", 2, 1⟩) (appInFlight ["a", "b"])
    (migrationCheck ["a", "b"]) { appId := 1 } (appOn ["a", "b"])
    (keyedByIp_insert (keyedByIp_insert keyedByIp_empty ⟨"a", 2, 1⟩) ⟨"b", 2, 1⟩) (by decide +kernel)
    ExtTreeMap.getElem?_insert_self (((ownCounted_empty _).insert (by decide)).insert (by decide))
    hothers rfl (by decide)
  rw [hd] at hstay
  refine absurd ((hiff.mp (Except.ok.inj hstay)).2 ["a", "a"] ⟨rfl, ?_⟩) (by decide +kernel)
  intro ip
  by_cases he : "a" = ip
  · subst he
    decide +kernel
  · simp [he]

def uncountedTenant : HostMap × InFlightReqs :=
  (((∅ : HostMap).insert "t" ⟨"t", 1, 1⟩).insert "e" ⟨"e", 2, 1⟩,
    (appInFlight ["t"]).insert 2 ({ appId := 2, subType := 2 },
      { appId := 2, groupId := 8, nFunctions := 1, placements := [{ host := "t", messageId := 2 }] }))

/-- There the app would leave its host empty by moving, and yet it is told to stay. -/
theorem Compact.stays_with_uncounted_tenant :
    OwnCounted uncountedTenant.1 (appOn ["t"]).placements ∧
    makeSchedulingDecision uncountedTenant.1 uncountedTenant.2 (migrationCheck ["t"]) =
      .ok DO_NOT_MIGRATE_DECISION ∧
    IsPlacement (eligibleHosts uncountedTenant.1 uncountedTenant.2 (migrationCheck ["t"]))
      (appOn ["t"]).placements 1 ["e"] ∧
    getNumFreeHosts uncountedTenant.1 <
      emptyHosts uncountedTenant.1 (appOn ["t"]).placements ["e"] := by
  refine ⟨((ownCounted_empty _).insert (by decide)).insert (by decide), by decide +kernel, ⟨rfl, ?_⟩,
    by decide +kernel⟩
  intro ip
  by_cases he : "e" = ip
  · subst he
    decide +kernel
  · simp [he]

end Faabric
