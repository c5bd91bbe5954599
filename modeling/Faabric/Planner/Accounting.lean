import Faabric.Feasibility
import Faabric.Planner.Results

/-! Slots and ports of the planner's hosts: what the claiming and releasing loops
of `callBatch` add and take away. -/

namespace Faabric

open Std (ExtTreeMap)
open UnitPool MapTotal

variable {ip : String} {h : Host} {news olds ps qs : List Placement} {hosts : PlannerHosts}

def portsOn (ip : String) (ps : List Placement) : Multiset Int :=
  ((ps.filter fun p => p.host = ip).map Placement.mpiPort : List Int)

def Placement.site (p : Placement) : String × Int × Int × Int := (p.host, p.key)

def usedOn (hosts : PlannerHosts) (ip : String) : Int := (hosts[ip]?.map Host.usedSlots).getD 0

def slotsOn (hosts : PlannerHosts) (ip : String) : Int := (hosts[ip]?.map Host.slots).getD 0

def markedOn (hosts : PlannerHosts) (ip : String) : Multiset Int :=
  (hosts[ip]?.map fun h => usedLabels h.mpiPorts).getD 0

structure Host.WellFormed (ip : String) (h : Host) : Prop where
  keyed : h.ip = ip
  named : ip ≠ ""
  nonneg : 0 ≤ h.slots
  ports : labels h.mpiPorts = (List.range h.slots.toNat).map fun i : Nat => MPI_BASE_PORT + i

def HostsOk (hosts : PlannerHosts) : Prop := ∀ (ip : String) (h : Host), hosts[ip]? = some h → h.WellFormed ip

theorem Host.WellFormed.labels_nodup (hw : h.WellFormed ip) :
    (labels h.mpiPorts).Nodup := by
  rw [hw.ports]
  refine List.Nodup.map ?_ List.nodup_range
  intro a b hab
  simpa using hab

theorem Host.WellFormed.length_mpiPorts (hw : h.WellFormed ip) :
    (h.mpiPorts.length : Int) = h.slots := by
  have hl := congrArg List.length hw.ports
  simp only [labels, List.length_map, List.length_range] at hl
  rw [hl]
  exact Int.toNat_of_nonneg hw.nonneg

/-! Ports of placements. -/

@[simp] theorem portsOn_nil (ip : String) : portsOn ip [] = 0 := rfl

theorem portsOn_cons (ip : String) (p : Placement) (ps : List Placement) :
    portsOn ip (p :: ps) = (if p.host = ip then {p.mpiPort} else 0) + portsOn ip ps := by
  by_cases he : p.host = ip
  · simp [portsOn, he]
  · simp [portsOn, he]

@[simp] theorem portsOn_append (ip : String) (ps qs : List Placement) :
    portsOn ip (ps ++ qs) = portsOn ip ps + portsOn ip qs := by
  simp [portsOn]

@[simp] theorem hostCount_append (ip : String) (ps qs : List Placement) :
    hostCount ip (ps ++ qs) = hostCount ip ps + hostCount ip qs := by
  simp [hostCount]

@[simp] theorem card_portsOn (ip : String) (ps : List Placement) :
    (portsOn ip ps).card = hostCount ip ps := by
  simp [portsOn, hostCount, List.countP_eq_length_filter]

theorem portsOn_perm (h : ps.Perm qs) (ip : String) :
    portsOn ip ps = portsOn ip qs :=
  Multiset.coe_eq_coe.mpr ((h.filter _).map _)

theorem portsOn_subperm (h : ps.Subperm qs) (ip : String) :
    portsOn ip ps ≤ portsOn ip qs := by
  obtain ⟨l, hp, hs⟩ := h
  rw [← portsOn_perm hp]
  exact Multiset.coe_le.mpr ((hs.filter _).map _).subperm

theorem hostCount_of_hosts (h : ps.map Placement.host = qs.map Placement.host) (ip : String)
    : hostCount ip ps = hostCount ip qs := by
  have hc (l : List Placement) : hostCount ip l = (l.map Placement.host).countP (· = ip) := by
    simp [hostCount, List.countP_map, Function.comp_def]
  rw [hc, hc, h]

theorem hosts_of_sites (h : ps.map Placement.site = qs.map Placement.site) :
    ps.map Placement.host = qs.map Placement.host := by
  simpa [Function.comp_def, Placement.site] using congrArg (List.map Prod.fst) h

theorem keys_of_sites (h : ps.map Placement.site = qs.map Placement.site) :
    ps.map Placement.key = qs.map Placement.key := by
  simpa [Function.comp_def, Placement.site] using congrArg (List.map Prod.snd) h

/-! Updating one host. -/

theorem usedOn_insert (hosts : PlannerHosts) (ip : String) (h : Host) (ip' : String) :
    usedOn (hosts.insert ip h) ip' = if ip = ip' then h.usedSlots else usedOn hosts ip' := by
  unfold usedOn
  rw [getElem?_insert_ite]
  split_ifs <;> rfl

theorem slotsOn_insert (hosts : PlannerHosts) (ip : String) (h : Host) (ip' : String) :
    slotsOn (hosts.insert ip h) ip' = if ip = ip' then h.slots else slotsOn hosts ip' := by
  unfold slotsOn
  rw [getElem?_insert_ite]
  split_ifs <;> rfl

theorem markedOn_insert (hosts : PlannerHosts) (ip : String) (h : Host) (ip' : String) :
    markedOn (hosts.insert ip h) ip' =
      if ip = ip' then usedLabels h.mpiPorts else markedOn hosts ip' := by
  unfold markedOn
  rw [getElem?_insert_ite]
  split_ifs <;> rfl

theorem usedOn_of_getElem? (hh : hosts[ip]? = some h) :
    usedOn hosts ip = h.usedSlots := by
  simp [usedOn, hh]

theorem slotsOn_of_getElem? (hh : hosts[ip]? = some h) :
    slotsOn hosts ip = h.slots := by
  simp [slotsOn, hh]

theorem markedOn_of_getElem? (hh : hosts[ip]? = some h) :
    markedOn hosts ip = usedLabels h.mpiPorts := by
  simp [markedOn, hh]

theorem HostsOk.markedOn_nodup (hok : HostsOk hosts) (ip : String) :
    (markedOn hosts ip).Nodup := by
  unfold markedOn
  cases hh : hosts[ip]? with
  | none => simp
  | some h => exact usedLabels_nodup (hok ip h hh).labels_nodup

/-- The hosts of `hosts'` are those of `hosts`, with the ports of `acquired` marked,
those of `released` freed, and `delta` more slots in use. -/
structure HostsMove (hosts hosts' : PlannerHosts) (acquired released : String → Multiset Int)
    (delta : String → Int) : Prop where
  ok : HostsOk hosts'
  marked : ∀ ip, markedOn hosts' ip + released ip = markedOn hosts ip + acquired ip
  used : ∀ ip, usedOn hosts' ip = usedOn hosts ip + delta ip
  slots : ∀ ip, slotsOn hosts' ip = slotsOn hosts ip
  keys : ∀ ip : String, hosts'[ip]?.isSome = hosts[ip]?.isSome

theorem HostsMove.refl (hok : HostsOk hosts) :
    HostsMove hosts hosts (fun _ => 0) (fun _ => 0) fun _ => 0 where
  ok := hok
  marked _ := rfl
  used _ := by simp
  slots _ := rfl
  keys _ := rfl

theorem HostsMove.trans {H₁ H₂ H₃ : PlannerHosts} {a a' r r' : String → Multiset Int}
    {d d' : String → Int} (h : HostsMove H₁ H₂ a r d) (h' : HostsMove H₂ H₃ a' r' d') :
    HostsMove H₁ H₃ (fun ip => a ip + a' ip) (fun ip => r ip + r' ip) fun ip => d ip + d' ip where
  ok := h'.ok
  marked ip := by
    calc markedOn H₃ ip + (r ip + r' ip) = markedOn H₃ ip + r' ip + r ip := by abel
      _ = markedOn H₂ ip + r ip + a' ip := by rw [h'.marked ip]; abel
      _ = markedOn H₁ ip + (a ip + a' ip) := by rw [h.marked ip]; abel
  used ip := by rw [h'.used, h.used, add_assoc]
  slots ip := by rw [h'.slots, h.slots]
  keys ip := by rw [h'.keys, h.keys]

theorem HostsMove.congr {H H' : PlannerHosts} {a a' r r' : String → Multiset Int}
    {d d' : String → Int} (h : HostsMove H H' a r d) (ha : ∀ ip, a ip = a' ip)
    (hr : ∀ ip, r ip = r' ip) (hd : ∀ ip, d ip = d' ip) : HostsMove H H' a' r' d' := by
  obtain rfl := funext ha
  obtain rfl := funext hr
  obtain rfl := funext hd
  exact h

theorem HostsMove.update {h' : Host} {acquired released : Multiset Int} {delta : Int}
    (hok : HostsOk hosts) (hh : hosts[ip]? = some h) (hip : h'.ip = h.ip)
    (hslots : h'.slots = h.slots) (hl : labels h'.mpiPorts = labels h.mpiPorts)
    (hm : usedLabels h'.mpiPorts + released = usedLabels h.mpiPorts + acquired)
    (hu : h'.usedSlots = h.usedSlots + delta) :
    HostsMove hosts (hosts.insert ip h') (fun i => if ip = i then acquired else 0)
      (fun i => if ip = i then released else 0) fun i => if ip = i then delta else 0 where
  ok := by
    have hw := hok ip h hh
    exact forall_insert hok
      ⟨hip.trans hw.keyed, hw.named, hslots ▸ hw.nonneg, by rw [hl, hslots, hw.ports]⟩
  marked i := by
    rw [markedOn_insert]
    split_ifs with he
    · subst he
      rw [markedOn_of_getElem? hh, hm]
    · rfl
  used i := by
    rw [usedOn_insert]
    split_ifs with he
    · subst he
      rw [usedOn_of_getElem? hh, hu]
    · simp
  slots i := by
    rw [slotsOn_insert]
    split_ifs with he
    · subst he
      rw [slotsOn_of_getElem? hh, hslots]
    · rfl
  keys i := by
    rw [getElem?_insert_ite]
    split_ifs with he
    · subst he
      rw [hh]
      rfl
    · rfl

theorem claimHostMpiPort_spec (hok : HostsOk hosts) (hh : hosts[ip]? = some h)
    (hlt : ((markedOn hosts ip).card : Int) < slotsOn hosts ip) :
    ∃ port mpiPorts, claim h.mpiPorts = some (port, mpiPorts) ∧
      labels mpiPorts = labels h.mpiPorts ∧
      usedLabels mpiPorts = port ::ₘ usedLabels h.mpiPorts := by
  rw [markedOn_of_getElem? hh, slotsOn_of_getElem? hh, ← (hok ip h hh).length_mpiPorts] at hlt
  obtain ⟨port, mpiPorts, hc⟩ := claim_isSome (by exact_mod_cast hlt)
  exact ⟨port, mpiPorts, hc, claim_spec hc⟩

theorem exists_host_of_slots (h : 0 < slotsOn hosts ip) :
    ∃ host, hosts[ip]? = some host := by
  cases hh : hosts[ip]? with
  | none => simp [slotsOn, hh] at h
  | some host => exact ⟨host, rfl⟩

theorem Fits.exists_host {used : String → Int} (hf : Fits ps (slotsOn hosts) used)
    (h0 : ∀ ip, 0 ≤ used ip) :
    ∀ p ∈ ps, ∃ h, hosts[p.host]? = some h := by
  intro p hp
  have hpos := hostCount_pos_of_mem hp
  have hroom := hf p.host
  have hused := h0 p.host
  refine exists_host_of_slots ?_
  omega

theorem exists_host_of_marked {port : Int} (h : port ∈ markedOn hosts ip)
    : ∃ host, hosts[ip]? = some host := by
  cases hh : hosts[ip]? with
  | none => simp [markedOn, hh] at h
  | some host => exact ⟨host, rfl⟩

/-! The loops. -/

theorem claim_on_host {p : Placement} (hok : HostsOk hosts)
    (hc : ∀ ip, ((markedOn hosts ip).card : Int) ≤ usedOn hosts ip)
    (hf : Fits (p :: ps) (slotsOn hosts) (usedOn hosts)) :
    ∃ h port h', hosts[p.host]? = some h ∧ claimHostMpiPort (claimHostSlots h) = .ok (port, h') ∧
      HostsMove hosts (hosts.insert p.host h') (fun i => if p.host = i then {port} else 0)
        (fun _ => 0) (fun i => if p.host = i then 1 else 0) ∧
      (∀ ip, ((markedOn (hosts.insert p.host h') ip).card : Int) ≤
        usedOn (hosts.insert p.host h') ip) ∧
      Fits ps (slotsOn (hosts.insert p.host h')) (usedOn (hosts.insert p.host h')) := by
  have hroom := hf p.host
  rw [hostCount_cons, if_pos rfl] at hroom
  have hcard := hc p.host
  obtain ⟨h, hh⟩ := exists_host_of_slots (show 0 < slotsOn hosts p.host by omega)
  obtain ⟨port, mpiPorts, hclaim, hl, hus⟩ := claimHostMpiPort_spec hok hh (by omega)
  set h' : Host := { claimHostSlots h with mpiPorts } with hh'
  have hm : HostsMove hosts (hosts.insert p.host h') (fun i => if p.host = i then {port} else 0)
      (fun _ => 0) fun i => if p.host = i then 1 else 0 := by
    have hu : HostsMove hosts (hosts.insert p.host h') (fun i => if p.host = i then {port} else 0)
        (fun i => if p.host = i then 0 else 0) fun i => if p.host = i then 1 else 0 := by
      refine HostsMove.update hok hh rfl rfl hl ?_ rfl
      rw [hh', hus, add_zero, ← Multiset.singleton_add, add_comm]
    exact hu.congr (fun _ => rfl) (by simp) fun _ => rfl
  refine ⟨h, port, h', hh, ?_, hm, ?_, ?_⟩
  · simp only [claimHostMpiPort, claimHostSlots, hclaim]
    rfl
  · intro ip
    have hmk := congrArg Multiset.card (hm.marked ip)
    have := hc ip
    rw [hm.used]
    by_cases he : p.host = ip <;> simp [he] at hmk ⊢ <;> omega
  · intro ip
    have := hf ip
    rw [hostCount_cons] at this
    rw [hm.slots, hm.used]
    split_ifs at this ⊢ <;> omega

theorem claimNew_spec (hok : HostsOk hosts)
    (hc : ∀ ip, ((markedOn hosts ip).card : Int) ≤ usedOn hosts ip)
    (hf : Fits ps (slotsOn hosts) (usedOn hosts)) :
    ∃ ps' hosts', claimNew ps hosts = (.ok ps', hosts') ∧
      ps'.map Placement.site = ps.map Placement.site ∧
      HostsMove hosts hosts' (fun ip => portsOn ip ps') (fun _ => 0) fun ip => hostCount ip ps := by
  induction ps generalizing hosts with
  | nil => exact ⟨[], hosts, rfl, rfl, HostsMove.refl hok⟩
  | cons p ps ih =>
    obtain ⟨h, port, h', hh, hclaim, hm, hc', hf'⟩ := claim_on_host hok hc hf
    obtain ⟨ps', hosts', hr, hs, hm'⟩ := ih hm.ok hc' hf'
    refine ⟨{ p with mpiPort := port } :: ps', hosts', ?_, ?_, (hm.trans hm').congr ?_ ?_ ?_⟩
    · simp only [claimNew, hh, hclaim, hr]
      rfl
    · simp [hs, Placement.site, Placement.key]
    · intro ip
      rw [portsOn_cons]
    · intro ip
      simp
    · intro ip
      rw [hostCount_cons]
      push_cast
      rfl

theorem claimSlots_spec (hok : HostsOk hosts) (hin : ∀ p ∈ ps, ∃ h, hosts[p.host]? = some h) :
    ∃ hosts', claimSlots false ps hosts = (.ok (), hosts') ∧
      HostsMove hosts hosts' (fun _ => 0) (fun _ => 0) fun ip => hostCount ip ps := by
  induction ps generalizing hosts with
  | nil => exact ⟨hosts, rfl, HostsMove.refl hok⟩
  | cons p ps ih =>
    obtain ⟨h, hh⟩ := hin p (by simp)
    have hm : HostsMove hosts (hosts.insert p.host (claimHostSlots h))
        (fun i => if p.host = i then 0 else 0) (fun i => if p.host = i then 0 else 0)
        fun i => if p.host = i then 1 else 0 :=
      HostsMove.update hok hh rfl rfl rfl rfl rfl
    have hin' : ∀ q ∈ ps, ∃ h', (hosts.insert p.host (claimHostSlots h))[q.host]? = some h' := by
      intro q hq
      obtain ⟨h', hh'⟩ := hin q (by simp [hq])
      have hk := hm.keys q.host
      rw [hh'] at hk
      exact Option.isSome_iff_exists.mp hk
    obtain ⟨hosts', hr, hm'⟩ := ih hm.ok hin'
    refine ⟨hosts', ?_, (hm.trans hm').congr ?_ ?_ ?_⟩
    · simp only [claimSlots, hh]
      exact hr
    · simp
    · simp
    · intro ip
      rw [hostCount_cons]
      push_cast
      rfl

theorem claimSlots_skip (hin : ∀ p ∈ ps, ∃ h, hosts[p.host]? = some h) :
    claimSlots true ps hosts = (.ok (), hosts) := by
  induction ps with
  | nil => rfl
  | cons p ps ih =>
    obtain ⟨h, hh⟩ := hin p (by simp)
    simp only [claimSlots, hh, if_true]
    exact ih fun q hq => hin q (by simp [hq])

def extendPair (old : InFlightPair) (ms : List Message) (ps : List Placement) : InFlightPair :=
  ({ old.1 with messages := old.1.messages ++ ms },
    { old.2 with
      nFunctions := old.2.nFunctions + ps.length
      placements := old.2.placements ++ ps })

theorem extendPair_cons (old : InFlightPair) (m : Message) (ms : List Message) (p : Placement)
    (ps : List Placement) :
    extendPair ({ old.1 with messages := old.1.messages ++ [m] }, old.2.push p) ms ps =
      extendPair old (m :: ms) (p :: ps) := by
  simp only [extendPair, SchedulingDecision.push, List.append_assoc, List.singleton_append,
    List.length_cons, Prod.mk.injEq, true_and]
  congr 1
  push_cast
  omega

def placedOn (ms : List Message) (hosts : List (String × Int)) : List Placement :=
  (ms.zip hosts).map fun e =>
    { host := e.2.1, messageId := e.1.id, appIdx := e.1.appIdx, groupIdx := e.1.groupIdx,
      mpiPort := e.2.2 }

theorem addScaledMessages_skip {ms : List Message} {ps : List Placement} {old : InFlightPair}
    {hosts : PlannerHosts} (hlen : ms.length = ps.length) :
    addScaledMessages true ms ps old hosts =
      (.ok (), extendPair old ms (placedOn ms (ps.map fun p => (p.host, p.mpiPort))), hosts) := by
  induction ms generalizing ps old with
  | nil => simp [addScaledMessages, extendPair, placedOn]
  | cons m ms ih =>
    cases ps with
    | nil => simp at hlen
    | cons p ps =>
      obtain ⟨oldReq, oldDec⟩ := old
      simp only [addScaledMessages, if_true]
      rw [ih (by simpa using hlen)]
      exact congrArg (fun x => (Except.ok (), x, hosts)) (extendPair_cons (oldReq, oldDec) m ms _ _)

theorem addScaledMessages_spec {ms : List Message} {ps : List Placement} {old : InFlightPair}
    {hosts : PlannerHosts} (hlen : ms.length = ps.length) (hok : HostsOk hosts)
    (hf : ∀ ip, ((markedOn hosts ip).card : Int) + hostCount ip ps ≤ slotsOn hosts ip) :
    ∃ ports hosts', ports.length = ms.length ∧
      addScaledMessages false ms ps old hosts =
        (.ok (), extendPair old ms (placedOn ms ((ps.map Placement.host).zip ports)), hosts') ∧
      HostsMove hosts hosts' (fun ip => portsOn ip (placedOn ms ((ps.map Placement.host).zip ports)))
        (fun _ => 0) fun _ => 0 := by
  induction ms generalizing ps old hosts with
  | nil =>
    refine ⟨[], hosts, rfl, ?_, HostsMove.refl hok⟩
    simp [addScaledMessages, extendPair, placedOn]
  | cons m ms ih =>
    cases ps with
    | nil => simp at hlen
    | cons p ps =>
      have hroom := hf p.host
      rw [hostCount_cons, if_pos rfl] at hroom
      push_cast at hroom
      obtain ⟨h, hh⟩ := exists_host_of_slots (show 0 < slotsOn hosts p.host by omega)
      obtain ⟨port, mpiPorts, hclaim, hl, hus⟩ := claimHostMpiPort_spec hok hh (by omega)
      have hm : HostsMove hosts (hosts.insert p.host { h with mpiPorts })
          (fun i => if p.host = i then {port} else 0) (fun i => if p.host = i then 0 else 0)
          fun i => if p.host = i then 0 else 0 := by
        refine HostsMove.update hok hh rfl rfl hl ?_ (by simp)
        rw [hus, add_zero, ← Multiset.singleton_add, add_comm]
      have hf' (ip : String) :
          ((markedOn (hosts.insert p.host { h with mpiPorts }) ip).card : Int) + hostCount ip ps ≤
            slotsOn (hosts.insert p.host { h with mpiPorts }) ip := by
        have hmk := congrArg Multiset.card (hm.marked ip)
        have := hf ip
        rw [hostCount_cons] at this
        rw [hm.slots]
        push_cast at this
        by_cases he : p.host = ip <;> simp [he] at hmk this ⊢ <;> omega
      obtain ⟨oldReq, oldDec⟩ := old
      obtain ⟨ports, hosts', hpl, hr, hm'⟩ := @ih ps
        ({ oldReq with messages := oldReq.messages ++ [m] },
          oldDec.push { host := p.host, messageId := m.id, appIdx := m.appIdx, groupIdx := m.groupIdx,
                        mpiPort := port })
        _ (by simpa using hlen) hm.ok hf'
      refine ⟨port :: ports, hosts', by simp [hpl], ?_, (hm.trans hm').congr ?_ ?_ ?_⟩
      · simp only [addScaledMessages, hh, claimHostMpiPort, hclaim, Bool.false_eq_true, if_false]
        rw [hr]
        exact congrArg (fun x => (Except.ok (), x, hosts')) (extendPair_cons (oldReq, oldDec) m ms _ _)
      · intro ip
        simp only [placedOn, List.map_cons, List.zip_cons_cons, portsOn_cons]
      · simp
      · simp

def movedFrom (olds news : List Placement) : List Placement :=
  ((olds.zip news).filter fun e => e.2.host ≠ e.1.host).map Prod.fst

def movedTo (olds news : List Placement) : List Placement :=
  ((olds.zip news).filter fun e => e.2.host ≠ e.1.host).map Prod.snd

def keptAt (olds news : List Placement) : List Placement :=
  ((olds.zip news).filter fun e => e.2.host = e.1.host).map Prod.fst

theorem movedFrom_cons (old new : Placement) (olds news : List Placement) :
    movedFrom (old :: olds) (new :: news) =
      if new.host = old.host then movedFrom olds news else old :: movedFrom olds news := by
  by_cases he : new.host = old.host
  · simp [movedFrom, he]
  · simp [movedFrom, he]

theorem movedTo_cons (old new : Placement) (olds news : List Placement) :
    movedTo (old :: olds) (new :: news) =
      if new.host = old.host then movedTo olds news else new :: movedTo olds news := by
  by_cases he : new.host = old.host
  · simp [movedTo, he]
  · simp [movedTo, he]

theorem keptAt_cons (old new : Placement) (olds news : List Placement) :
    keptAt (old :: olds) (new :: news) =
      if new.host = old.host then old :: keptAt olds news else keptAt olds news := by
  by_cases he : new.host = old.host
  · simp [keptAt, he]
  · simp [keptAt, he]

theorem portsOn_split (hlen : olds.length = news.length) (ip : String) :
    portsOn ip olds = portsOn ip (keptAt olds news) + portsOn ip (movedFrom olds news) := by
  induction olds generalizing news with
  | nil => simp [keptAt, movedFrom]
  | cons old olds ih =>
    cases news with
    | nil => simp at hlen
    | cons new news =>
      rw [keptAt_cons, movedFrom_cons, portsOn_cons, ih (by simpa using hlen)]
      by_cases he : new.host = old.host
      · simp only [he, if_true, portsOn_cons]
        abel
      · simp only [he, if_false, portsOn_cons]
        abel

theorem hostCount_news_split (hlen : olds.length = news.length) (ip : String) :
    hostCount ip news = hostCount ip (keptAt olds news) + hostCount ip (movedTo olds news) := by
  induction olds generalizing news with
  | nil =>
    cases news with
    | nil => rfl
    | cons new news => simp at hlen
  | cons old olds ih =>
    cases news with
    | nil => simp at hlen
    | cons new news =>
      rw [keptAt_cons, movedTo_cons, hostCount_cons, ih (by simpa using hlen)]
      by_cases he : new.host = old.host
      · simp only [he, if_true, hostCount_cons]
        omega
      · simp only [he, if_false, hostCount_cons]
        omega

theorem releaseMigrated_spec (hlen : olds.length = news.length) (hok : HostsOk hosts)
    (hle : ∀ ip, portsOn ip (movedFrom olds news) ≤ markedOn hosts ip) :
    ∃ hosts', releaseMigrated olds news hosts = (.ok (), hosts') ∧
      HostsMove hosts hosts' (fun _ => 0) (fun ip => portsOn ip (movedFrom olds news))
        fun ip => -hostCount ip (movedFrom olds news) := by
  induction olds generalizing news hosts with
  | nil =>
    refine ⟨hosts, rfl, (HostsMove.refl hok).congr (fun _ => rfl) ?_ ?_⟩
    · intro ip
      simp [movedFrom]
    · intro ip
      simp [movedFrom]
  | cons old olds ih =>
    cases news with
    | nil => simp at hlen
    | cons new news =>
      have hlen' : olds.length = news.length := by simpa using hlen
      by_cases he : new.host = old.host
      · simp only [movedFrom_cons, he, if_true] at hle ⊢
        simp only [releaseMigrated, he, ne_eq, not_true_eq_false, if_false]
        exact ih hlen' hok hle
      · simp only [movedFrom_cons, he, if_false, portsOn_cons] at hle ⊢
        have hmem : old.mpiPort ∈ markedOn hosts old.host := by
          refine Multiset.mem_of_le (hle old.host) ?_
          simp
        obtain ⟨h, hh⟩ := exists_host_of_marked hmem
        rw [markedOn_of_getElem? hh] at hmem
        obtain ⟨mpiPorts, hrel, hl, hus⟩ :=
          release_spec (hok old.host h hh).labels_nodup hmem
        set h' : Host := { releaseHostSlots h with mpiPorts } with hh'
        have hm : HostsMove hosts (hosts.insert old.host h') (fun i => if old.host = i then 0 else 0)
            (fun i => if old.host = i then {old.mpiPort} else 0)
            fun i => if old.host = i then -1 else 0 := by
          refine HostsMove.update hok hh rfl rfl hl ?_ rfl
          rw [hh', hus, add_zero, ← Multiset.singleton_add, add_comm]
        have hle' (ip : String) : portsOn ip (movedFrom olds news) ≤
            markedOn (hosts.insert old.host h') ip := by
          have hmk := hm.marked ip
          have hip := hle ip
          simp only [ite_self, add_zero] at hmk
          rw [← hmk, add_comm] at hip
          exact le_of_add_le_add_right hip
        obtain ⟨hosts', hr, hm'⟩ := ih hlen' hm.ok hle'
        refine ⟨hosts', ?_, (hm.trans hm').congr ?_ ?_ ?_⟩
        · simp only [releaseMigrated, ne_eq, he, not_false_eq_true, if_true, hh, releaseHostMpiPort,
            releaseHostSlots, hrel]
          exact hr
        · simp
        · intro ip
          rfl
        · intro ip
          rw [hostCount_cons]
          split_ifs <;> push_cast <;> omega

theorem claimMigrated_spec (hlen : olds.length = news.length) (hok : HostsOk hosts)
    (hc : ∀ ip, ((markedOn hosts ip).card : Int) ≤ usedOn hosts ip)
    (hf : Fits (movedTo olds news) (slotsOn hosts) (usedOn hosts)) :
    ∃ news' hosts', claimMigrated olds news hosts = (.ok news', hosts') ∧
      news'.map Placement.site = news.map Placement.site ∧
      (∀ ip, portsOn ip news' = portsOn ip (keptAt olds news) + portsOn ip (movedTo olds news')) ∧
      HostsMove hosts hosts' (fun ip => portsOn ip (movedTo olds news')) (fun _ => 0)
        fun ip => hostCount ip (movedTo olds news) := by
  induction olds generalizing news hosts with
  | nil =>
    cases news with
    | nil => exact ⟨[], hosts, rfl, rfl, fun _ => rfl, HostsMove.refl hok⟩
    | cons new news => simp at hlen
  | cons old olds ih =>
    cases news with
    | nil => simp at hlen
    | cons new news =>
      have hlen' : olds.length = news.length := by simpa using hlen
      by_cases he : new.host = old.host
      · simp only [movedTo_cons, he, if_true] at hf ⊢
        obtain ⟨news', hosts', hr, hs, hp, hm⟩ := ih hlen' hok hc hf
        refine ⟨{ new with mpiPort := old.mpiPort } :: news', hosts', ?_, ?_, ?_, ?_⟩
        · simp only [claimMigrated, he, ne_eq, not_true_eq_false, if_false, hr]
          rfl
        · simp [hs, Placement.site, Placement.key]
        · intro ip
          rw [movedTo_cons, keptAt_cons, portsOn_cons, hp]
          simp only [he, if_true, portsOn_cons, add_assoc]
        · refine hm.congr ?_ (fun _ => rfl) fun _ => rfl
          intro ip
          simp [movedTo_cons, he]
      · simp only [movedTo_cons, he, if_false] at hf ⊢
        obtain ⟨h, port, h', hh, hclaim, hm, hc', hf'⟩ := claim_on_host hok hc hf
        obtain ⟨news', hosts', hr, hs, hp, hm'⟩ := ih hlen' hm.ok hc' hf'
        refine ⟨{ new with mpiPort := port } :: news', hosts', ?_, ?_, ?_, (hm.trans hm').congr ?_ ?_ ?_⟩
        · simp only [claimMigrated, ne_eq, he, not_false_eq_true, if_true, hh, hclaim, hr]
          rfl
        · simp [hs, Placement.site, Placement.key]
        · intro ip
          rw [movedTo_cons, keptAt_cons, portsOn_cons, hp]
          simp only [he, if_false, portsOn_cons]
          abel
        · intro ip
          rw [movedTo_cons]
          simp only [he, if_false, portsOn_cons]
        · simp
        · intro ip
          rw [hostCount_cons]
          push_cast
          rfl

end Faabric
