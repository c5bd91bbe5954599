import Faabric.Lib.Transit
import Faabric.Client.MessageResults
import Faabric.Planner.FreshStart
import Faabric.Planner.ResultTrace

/-! Results reach every waiting call, and every registered host once, in the runs in
which a host registers once for a message and a message is notified once. -/

namespace Faabric

open MapTotal ResultAction GuardedRun

variable {s : ResultSystem} {c i : Nat} {call : ResultCall} {host : String} {msg : Message}
  {planner : PlannerState}

def CallPhase.holds : CallPhase → Bool
  | .registered | .waiting _ | .timedOut | .received _ => true
  | _ => false

def CallPhase.awaits : CallPhase → Bool
  | .registered | .waiting _ => true
  | _ => false

def CallPhase.took : CallPhase → Bool
  | .waiting _ | .timedOut | .received _ => true
  | _ => false

theorem CallPhase.holds_of_awaits {p : CallPhase} (h : p.awaits = true) : p.holds = true := by
  cases p <;> simp_all [awaits, holds]

theorem CallPhase.holds_of_took {p : CallPhase} (h : p.took = true) : p.holds = true := by
  cases p <;> simp_all [took, holds]

namespace ResultSystem

def waiters (s : ResultSystem) (msgId : Int) : List String :=
  s.planner.appResultWaiters[msgId]?.getD []

def countFor (told : List (String × Message)) (host : String) (msgId : Int) : Nat :=
  told.countP fun e => e.1 = host ∧ e.2.id = msgId

def valueAt (s : ResultSystem) (host : String) (msgId : Int) : Option Message :=
  (s.plannerResults host msgId).bind fun i => (s.promises i).value

def takenAt (s : ResultSystem) (host : String) (msgId : Int) : Bool :=
  (s.plannerResults host msgId).any fun i => (s.promises i).retrieved

def Arrives (s : ResultSystem) (call : ResultCall) : Prop :=
  ∀ result, lookUpResult s.planner call.appId call.msgId = some result →
    (call.host, result) ∈ s.pending ∨
      ∃ i, s.plannerResults call.host call.msgId = some i ∧ (s.promises i).value = some result

structure CallOk (s : ResultSystem) (call : ResultCall) : Prop where
  arrives : call.phase.awaits = true → ∀ result, lookUpResult s.planner call.appId call.msgId = some result →
    (call.host, result) ∈ s.pending ∨ s.valueAt call.host call.msgId = some result
  calm : call.phase ≠ .threw
  named : ¬ (call.appId = 0 ∧ call.msgId = 0)
  enrolled : call.phase.holds = true → call.host ∈ s.waiters call.msgId
  waits : ∀ i, call.phase = .waiting i → s.plannerResults call.host call.msgId = some i

structure Delivers (s : ResultSystem) : Prop where
  calls : ∀ c call, s.calls c = some call → s.CallOk call
  told : ∀ host msgId, countFor s.notified host msgId ≤ (s.waiters msgId).count host
  once : s.setTwice = false
  recorded : ∀ appId msgId result, lookUpResult s.planner appId msgId = some result →
    result.appId = appId ∧ result.id = msgId
  distinct : ∀ msgId, (s.waiters msgId).Nodup
  alone : ∀ c c' call call', s.calls c = some call → s.calls c' = some call' →
    call.phase.holds = true → call'.phase.holds = true →
    call.host = call'.host → call.msgId = call'.msgId → c = c'
  entries : ∀ host msgId i, s.plannerResults host msgId = some i → i < s.nextPromise
  owned : ∀ host msgId host' msgId' i, s.plannerResults host msgId = some i →
    s.plannerResults host' msgId' = some i → host = host' ∧ msgId = msgId'
  taken : ∀ host msgId, s.takenAt host msgId = true →
    ∃ c call, s.calls c = some call ∧ call.phase.took = true ∧ call.host = host ∧ call.msgId = msgId
  inTransit : ∀ host msgId,
    countFor s.pending host msgId + (s.valueAt host msgId).toList.length ≤ countFor s.notified host msgId

theorem Delivers.transit_le_one (h : Delivers s) (host : String) (msgId : Int) :
    countFor s.pending host msgId + (s.valueAt host msgId).toList.length ≤ 1 :=
  (h.inTransit host msgId).trans ((h.told host msgId).trans
    (List.nodup_iff_count_le_one.mp (h.distinct msgId) host))

theorem Delivers.setCall (h : Delivers s) (hok : s.CallOk call)
    (halone : call.phase.holds = true → ∀ c' call', c' ≠ c → s.calls c' = some call' →
      call'.phase.holds = true → call.host = call'.host → call.msgId ≠ call'.msgId)
    (htook : ∀ old, s.calls c = some old → old.phase.took = true →
      (call.phase.took = true ∧ call.host = old.host ∧ call.msgId = old.msgId) ∨
        s.takenAt old.host old.msgId = false) :
    Delivers (s.setCall c call) := by
  have hcases {c' : Nat} {call' : ResultCall} (hc : (s.setCall c call).calls c' = some call') :
      (c' = c ∧ call' = call) ∨ (c' ≠ c ∧ s.calls c' = some call') := by
    by_cases he : c' = c
    · simp only [ResultSystem.setCall, he, if_true, Option.some.injEq] at hc
      exact Or.inl ⟨he, hc.symm⟩
    · simp only [ResultSystem.setCall, he, if_false] at hc
      exact Or.inr ⟨he, hc⟩
  refine { h with calls := ?_, alone := ?_, taken := ?_ }
  · intro c' call' hc
    rcases hcases hc with ⟨-, rfl⟩ | ⟨-, hc⟩
    · exact { hok with }
    · exact { h.calls c' call' hc with }
  · intro c₁ c₂ call₁ call₂ h₁ h₂ hh₁ hh₂ hhost hmsg
    rcases hcases h₁ with ⟨he₁, rfl⟩ | ⟨hn₁, g₁⟩ <;> rcases hcases h₂ with ⟨he₂, rfl⟩ | ⟨hn₂, g₂⟩
    · exact he₁.trans he₂.symm
    · exact absurd hmsg (halone hh₁ c₂ call₂ hn₂ g₂ hh₂ hhost)
    · exact absurd hmsg.symm (halone hh₂ c₁ call₁ hn₁ g₁ hh₁ hhost.symm)
    · exact h.alone c₁ c₂ call₁ call₂ g₁ g₂ hh₁ hh₂ hhost hmsg
  · intro host msgId hr
    obtain ⟨c', call', hc, ht, rfl, rfl⟩ := h.taken host msgId hr
    by_cases hcc : c' = c
    · subst hcc
      rcases htook call' hc ht with hnew | hnone
      · exact ⟨c', call, by simp [ResultSystem.setCall], hnew⟩
      · exact absurd (hr.symm.trans hnone) (by simp)
    · exact ⟨c', call', by simpa [ResultSystem.setCall, hcc] using hc, ht, rfl, rfl⟩

theorem Delivers.advance (h : Delivers s) (hc : s.calls c = some call) {phase : CallPhase}
    (hcalm : phase ≠ .threw) (hholds : phase.holds = true → call.phase.holds = true)
    (hawaits : phase.awaits = true → call.phase.awaits = true)
    (htook : call.phase.took = true → phase.took = true ∨ s.takenAt call.host call.msgId = false)
    (hwaits : ∀ i, phase = .waiting i → s.plannerResults call.host call.msgId = some i) :
    Delivers (s.setCall c { call with phase }) := by
  have hold := h.calls c call hc
  refine h.setCall ⟨fun ha => hold.arrives (hawaits ha), hcalm, hold.named, fun hh => hold.enrolled (hholds hh),
    hwaits⟩ ?_ ?_
  · intro hh c' call' hne hc' hh' hhost hmsg
    exact hne (h.alone c' c call' call hc' hc hh' (hholds hh) hhost.symm hmsg.symm)
  · intro old hold ht
    obtain rfl := Option.some.inj (hc.symm.trans hold)
    exact (htook ht).imp_left fun hp => ⟨hp, rfl, rfl⟩

theorem Delivers.leave (h : Delivers s) (hc : s.calls c = some call) {phase : CallPhase}
    (hphase : phase = .absent ∨ ∃ msg, phase = .returned msg)
    (htook : call.phase.took = true → s.takenAt call.host call.msgId = false) :
    Delivers (s.setCall c { call with phase }) := by
  rcases hphase with rfl | ⟨msg, rfl⟩ <;> exact h.advance hc (by simp) nofun nofun (fun ht => Or.inr (htook ht)) nofun

theorem Delivers.eraseEntry (h : Delivers s) {msgId : Int}
    (hnone : ∀ c call, s.calls c = some call → call.phase.awaits = true →
      call.host = host → call.msgId ≠ msgId) :
    Delivers (s.setEntry host msgId none) := by
  have hentry (host' : String) (msgId' : Int) : (s.setEntry host msgId none).plannerResults host' msgId' =
      if host' = host ∧ msgId' = msgId then none else s.plannerResults host' msgId' := rfl
  refine { h with calls := ?_, entries := ?_, owned := ?_, taken := ?_, inTransit := ?_ }
  · intro c call hc
    have hkeep (ha : call.phase.awaits = true) := (hentry call.host call.msgId).trans
      (if_neg fun hh => hnone c call hc ha hh.1 hh.2)
    refine { h.calls c call hc with arrives := fun ha => ?_, waits := fun i hp => ?_ }
    · rw [valueAt, hkeep ha]
      exact (h.calls c call hc).arrives ha
    · rw [hkeep (by rw [hp]; rfl)]
      exact (h.calls c call hc).waits i hp
  · intro host' msgId' i he
    rw [hentry] at he
    split_ifs at he
    exact h.entries host' msgId' i he
  · intro host₁ msgId₁ host₂ msgId₂ i h₁ h₂
    rw [hentry] at h₁ h₂
    split_ifs at h₁ h₂
    exact h.owned host₁ msgId₁ host₂ msgId₂ i h₁ h₂
  · intro host' msgId' hr
    rw [takenAt, hentry] at hr
    split_ifs at hr
    · cases hr
    · exact h.taken host' msgId' hr
  · intro host' msgId'
    have hle := h.inTransit host' msgId'
    rw [valueAt, hentry]
    split_ifs
    · exact (Nat.le_add_right _ _).trans hle
    · exact hle

theorem promiseFor_entry (s : ResultSystem) (host : String) (msgId : Int) :
    (s.promiseFor host msgId).2.plannerResults host msgId = some (s.promiseFor host msgId).1 := by
  unfold promiseFor
  split
  · assumption
  · simp [setEntry, setPromise]

theorem promiseFor_frame (s : ResultSystem) (host : String) (msgId : Int) :
    (s.promiseFor host msgId).2 =
      { s with
        plannerResults := (s.promiseFor host msgId).2.plannerResults
        promises := (s.promiseFor host msgId).2.promises
        nextPromise := (s.promiseFor host msgId).2.nextPromise } := by
  unfold promiseFor
  split <;> rfl

theorem Delivers.promiseFor (h : Delivers s) (host : String) (msgId : Int) :
    Delivers (s.promiseFor host msgId).2 := by
  unfold ResultSystem.promiseFor
  split
  · exact h
  rename_i hnone
  set s' : ResultSystem := { (s.setEntry host msgId (some s.nextPromise)).setPromise s.nextPromise {} with
    nextPromise := s.nextPromise + 1 } with hs'
  have hentry (host' : String) (msgId' : Int) : s'.plannerResults host' msgId' =
      if host' = host ∧ msgId' = msgId then some s.nextPromise else s.plannerResults host' msgId' := rfl
  have hold {host' : String} {msgId' : Int} {i : Nat} (he : s.plannerResults host' msgId' = some i) :
      s'.plannerResults host' msgId' = some i ∧ s'.promises i = s.promises i := by
    refine ⟨?_, if_neg (h.entries host' msgId' i he).ne⟩
    rw [hentry, if_neg]
    · exact he
    · rintro ⟨rfl, rfl⟩
      exact absurd (he.symm.trans hnone) (by simp)
  -- a new promise has no value and no future has been taken of it, as if it were not there
  have hsame (host' : String) (msgId' : Int) :
      s'.valueAt host' msgId' = s.valueAt host' msgId' ∧ s'.takenAt host' msgId' = s.takenAt host' msgId' := by
    cases he : s.plannerResults host' msgId' with
    | some i => simp [valueAt, takenAt, he, hold he]
    | none =>
      have hnew : s'.promises s.nextPromise = {} := if_pos rfl
      rw [valueAt, takenAt, hentry]
      split_ifs
      · simp [valueAt, takenAt, he, hnew]
      · simp [valueAt, takenAt, he]
  refine { h with calls := ?_, entries := ?_, owned := ?_, taken := ?_, inTransit := ?_ }
  · intro c call hc
    refine { h.calls c call hc with arrives := fun ha => ?_, waits := fun i hp => ?_ }
    · rw [(hsame _ _).1]
      exact (h.calls c call hc).arrives ha
    · exact (hold ((h.calls c call hc).waits i hp)).1
  · intro host' msgId' i he
    rw [hentry] at he
    split_ifs at he
    · cases he
      exact Nat.lt_succ_self _
    · exact Nat.lt_succ_of_lt (h.entries host' msgId' i he)
  · intro host₁ msgId₁ host₂ msgId₂ i h₁ h₂
    rw [hentry] at h₁ h₂
    split_ifs at h₁ h₂ with e₁ e₂ e₂
    · exact ⟨e₁.1.trans e₂.1.symm, e₁.2.trans e₂.2.symm⟩
    · exact absurd (Option.some.inj h₁).symm (h.entries _ _ _ h₂).ne
    · exact absurd (Option.some.inj h₂).symm (h.entries _ _ _ h₁).ne
    · exact h.owned host₁ msgId₁ host₂ msgId₂ i h₁ h₂
  · intro host' msgId' hr
    exact h.taken host' msgId' ((hsame _ _).2.symm.trans hr)
  · intro host' msgId'
    rw [(hsame _ _).1]
    exact h.inTransit host' msgId'

theorem Delivers.at_setPromise (h : Delivers s) {msgId : Int} (he : s.plannerResults host msgId = some i)
    (promise : ResultPromise) (host' : String) (msgId' : Int) :
    (s.setPromise i promise).valueAt host' msgId' =
        (if host' = host ∧ msgId' = msgId then promise.value else s.valueAt host' msgId') ∧
      (s.setPromise i promise).takenAt host' msgId' =
        if host' = host ∧ msgId' = msgId then promise.retrieved else s.takenAt host' msgId' := by
  split_ifs with hh
  · simp [valueAt, takenAt, setPromise, hh, he]
  · cases hj : s.plannerResults host' msgId' with
    | none => simp [valueAt, takenAt, setPromise, hj]
    | some j =>
      have hne : j ≠ i := by
        rintro rfl
        obtain ⟨rfl, rfl⟩ := h.owned _ _ _ _ j hj he
        exact hh ⟨rfl, rfl⟩
      simp [valueAt, takenAt, setPromise, hj, hne]

theorem Delivers.retrieve (h : Delivers s) (hc : s.calls c = some call) (hp : call.phase = .waiting i) :
    Delivers (s.setPromise i { s.promises i with retrieved := true }) := by
  have he := (h.calls c call hc).waits i hp
  have hat := h.at_setPromise he { s.promises i with retrieved := true }
  have hvalue (host : String) (msgId : Int) :
      (s.setPromise i { s.promises i with retrieved := true }).valueAt host msgId = s.valueAt host msgId := by
    rw [(hat host msgId).1]
    split_ifs with hh
    · simp [valueAt, hh, he]
    · rfl
  refine { h with calls := ?_, taken := ?_, inTransit := ?_ }
  · intro c' call' hc'
    refine { h.calls c' call' hc' with arrives := ?_ }
    rw [hvalue]
    exact (h.calls c' call' hc').arrives
  · intro host msgId hr
    rw [(hat host msgId).2] at hr
    split_ifs at hr with hh
    · exact ⟨c, call, hc, by rw [hp]; rfl, hh.1.symm, hh.2.symm⟩
    · exact h.taken host msgId hr
  · intro host msgId
    rw [hvalue]
    exact h.inTransit host msgId

theorem countFor_cons (e : String × Message) (l : List (String × Message)) (host : String)
    (msgId : Int) :
    countFor (e :: l) host msgId =
      countFor l host msgId + if e.1 = host ∧ e.2.id = msgId then 1 else 0 := by
  simp [countFor, List.countP_cons]

theorem countFor_append (l l' : List (String × Message)) (host : String) (msgId : Int) :
    countFor (l ++ l') host msgId = countFor l host msgId + countFor l' host msgId := by
  simp [countFor, List.countP_append]

theorem Delivers.fulfil (h : Delivers s) {rest : List (String × Message)}
    (hp : s.pending.Perm ((host, msg) :: rest)) (he : s.plannerResults host msg.id = some i) :
    (s.promises i).value = none ∧
      Delivers { s.setPromise i { s.promises i with value := some msg } with pending := rest } := by
  have hcount (host' : String) (msgId' : Int) : countFor s.pending host' msgId' =
      countFor rest host' msgId' + if host = host' ∧ msg.id = msgId' then 1 else 0 := by
    rw [← countFor_cons (host, msg)]
    exact hp.countP_eq _
  have hat : s.valueAt host msg.id = (s.promises i).value := by simp [valueAt, he]
  have hunset : s.valueAt host msg.id = none := by
    have hone := h.transit_le_one host msg.id
    rw [hcount, if_pos ⟨rfl, rfl⟩] at hone
    rw [← Option.toList_eq_nil_iff, ← List.length_eq_zero_iff]
    omega
  have hset := h.at_setPromise he { s.promises i with value := some msg }
  refine ⟨hat ▸ hunset, { h with calls := ?_, taken := ?_, inTransit := ?_ }⟩
  · intro c call hc
    refine { h.calls c call hc with arrives := fun ha result hr => ?_ }
    have hid := (h.recorded _ _ _ hr).2
    rcases (h.calls c call hc).arrives ha result hr with hpend | hv
    · rcases List.mem_cons.mp (hp.mem_iff.mp hpend) with heq | hrest
      · obtain ⟨hhost, rfl⟩ := Prod.mk.inj heq
        exact Or.inr ((hset _ _).1.trans (if_pos ⟨hhost, hid.symm⟩))
      · exact Or.inl hrest
    · refine Or.inr ((hset _ _).1.trans ?_)
      rw [if_neg]
      · exact hv
      · rintro ⟨hhost, hmsg⟩
        rw [hhost, hmsg, hunset] at hv
        cases hv
  · intro host' msgId' hr
    apply h.taken host' msgId'
    have htaken := (hset host' msgId').2.symm.trans hr
    split_ifs at htaken with hh
    · simpa [takenAt, hh, he] using htaken
    · exact htaken
  · intro host' msgId'
    have hle := h.inTransit host' msgId'
    have hvalue := (hset host' msgId').1
    show countFor rest host' msgId' + ((s.setPromise i _).valueAt host' msgId').toList.length ≤ _
    rw [hcount] at hle
    rw [hvalue]
    by_cases hh : host' = host ∧ msgId' = msg.id
    · obtain ⟨rfl, rfl⟩ := hh
      simp only [and_self, if_true, hunset] at hle ⊢
      simpa [setPromise] using hle
    · rw [if_neg hh]
      exact (Nat.add_le_add_right (Nat.le_add_right _ _) _).trans hle

theorem Delivers.replacePlanner (h : Delivers s)
    (hres : ∀ appId msgId, lookUpResult planner appId msgId = lookUpResult s.planner appId msgId)
    (hsub : ∀ msgId : Int, (s.waiters msgId).Sublist (planner.appResultWaiters[msgId]?.getD []))
    (hnodup : ∀ msgId : Int, (planner.appResultWaiters[msgId]?.getD []).Nodup) :
    Delivers { s with planner } := by
  refine { h with calls := ?_, told := ?_, recorded := ?_, distinct := hnodup }
  · intro c call hc
    refine { h.calls c call hc with arrives := fun ha result hr => ?_, enrolled := fun hh => ?_ }
    · exact (h.calls c call hc).arrives ha result ((hres _ _).symm.trans hr)
    · exact (hsub call.msgId).subset ((h.calls c call hc).enrolled hh)
  · intro host msgId
    exact (h.told host msgId).trans ((hsub msgId).count_le host)
  · intro appId msgId result hr
    exact h.recorded appId msgId result ((hres _ _).symm.trans hr)

theorem Delivers.sameWaiters (h : Delivers s) (hw : planner.appResultWaiters = s.planner.appResultWaiters)
    (hres : ∀ appId msgId, lookUpResult planner appId msgId = lookUpResult s.planner appId msgId) :
    Delivers { s with planner } := by
  apply h.replacePlanner hres
  · intro msgId
    rw [hw]
    exact List.Sublist.refl _
  · intro msgId
    rw [hw]
    exact h.distinct msgId

theorem notificationsIn_map (hosts : List String) (msg : Message) :
    notificationsIn (hosts.map fun host => .setMessageResult host msg) =
      hosts.map fun host => (host, msg) := by
  simp [notificationsIn, List.filterMap_map]

theorem countFor_map (hosts : List String) (msg : Message) (host : String) (msgId : Int) :
    countFor (hosts.map fun h => (h, msg)) host msgId =
      if msg.id = msgId then hosts.count host else 0 := by
  simp only [countFor, List.countP_map, Function.comp_def]
  split_ifs with hid
  · simp only [hid, and_true, List.count]
    exact List.countP_congr fun x _ => by simp
  · simp [hid]

theorem Delivers.notify (h : Delivers s)
    (hw : planner.appResultWaiters = s.planner.appResultWaiters)
    (hothers : ∀ appId msgId, ¬ (msg.appId = appId ∧ msg.id = msgId) →
      lookUpResult planner appId msgId = lookUpResult s.planner appId msgId)
    (hnew : lookUpResult planner msg.appId msg.id = some msg)
    (hfirst : s.waiters msg.id = [] ∨ ∀ e ∈ s.notified, e.2.id ≠ msg.id) :
    Delivers { s with
      planner
      notified := s.notified ++ (s.waiters msg.id).map fun host => (host, msg)
      pending := s.pending ++ (s.waiters msg.id).map fun host => (host, msg) } := by
  have hwait (msgId : Int) : planner.appResultWaiters[msgId]?.getD [] = s.waiters msgId := by rw [hw, waiters]
  refine { h with calls := ?_, told := ?_, recorded := ?_, distinct := ?_, inTransit := ?_ }
  · intro c call hc
    have hold := h.calls c call hc
    refine { hold with
      arrives := fun ha result hr => ?_
      enrolled := fun hh => (congrArg (call.host ∈ ·) (hwait call.msgId)).mpr (hold.enrolled hh) }
    have hmem := hold.enrolled (CallPhase.holds_of_awaits ha)
    by_cases hat : msg.appId = call.appId ∧ msg.id = call.msgId
    · rw [← hat.1, ← hat.2, hnew] at hr
      obtain rfl := Option.some.inj hr
      rw [← hat.2] at hmem
      exact Or.inl (List.mem_append_right _ (List.mem_map_of_mem hmem))
    · rw [hothers _ _ hat] at hr
      exact (hold.arrives ha result hr).imp_left (List.mem_append_left _)
  · intro host msgId
    have htold := h.told host msgId
    show _ ≤ (planner.appResultWaiters[msgId]?.getD []).count host
    rw [countFor_append, countFor_map, hwait]
    split_ifs with hid
    · subst hid
      rcases hfirst with hempty | hnone
      · simpa [hempty] using htold
      · have hzero : countFor s.notified host msg.id = 0 := by
          simp only [countFor, List.countP_eq_zero, decide_eq_true_eq, not_and]
          exact fun e he _ => hnone e he
        rw [hzero, Nat.zero_add]
    · exact htold
  · intro appId msgId result hr
    by_cases hat : msg.appId = appId ∧ msg.id = msgId
    · rw [← hat.1, ← hat.2, hnew] at hr
      obtain rfl := Option.some.inj hr
      exact hat
    · exact h.recorded appId msgId result ((hothers _ _ hat).symm.trans hr)
  · intro msgId
    exact (congrArg List.Nodup (hwait msgId)).mpr (h.distinct msgId)
  · intro host msgId
    have hle := h.inTransit host msgId
    rw [countFor_append, countFor_append]
    simp only [valueAt] at hle ⊢
    omega

theorem Delivers.decode (h : Delivers s) {result : Message} (hc : s.calls c = some call)
    (hr : lookUpResult s.planner call.appId call.msgId = some result) :
    decodeResult (some result) = some result := by
  obtain ⟨happ, hid⟩ := h.recorded _ _ _ hr
  have hnamed := (h.calls c call hc).named
  rw [← happ, ← hid] at hnamed
  simp only [decodeResult, Option.filter_some, ite_eq_left_iff]
  grind

theorem Delivers.lookUp (h : Delivers s) (hc : s.calls c = some call) (hp : call.phase = .asking) :
    Delivers (s.lookUp c call) := by
  have hasking : call.phase.took = true → s.takenAt call.host call.msgId = false := by simp [hp, CallPhase.took]
  unfold ResultSystem.lookUp
  split
  · rename_i result hr
    rw [h.decode hc hr]
    exact h.leave hc (Or.inr ⟨_, rfl⟩) hasking
  · exact h.leave hc (Or.inl rfl) hasking

theorem Delivers.enrol (h : Delivers s) {msgId : Int} (hnot : host ∉ s.waiters msgId) :
    Delivers { s with planner := { s.planner with
      appResultWaiters := s.planner.appResultWaiters.insert msgId (s.waiters msgId ++ [host]) } } := by
  apply h.replacePlanner
  · exact fun _ _ => rfl
  all_goals
    intro msgId'
    dsimp only
    rw [getElem?_insert_ite]
    split_ifs with he
  · subst he
    exact List.sublist_append_left _ _
  · exact List.Sublist.refl _
  · subst he
    exact List.Nodup.append (h.distinct msgId) (by simp) (by simpa using hnot)
  · exact h.distinct msgId'

theorem Delivers.register (h : Delivers s) (hc : s.calls c = some call) (hp : call.phase = .absent)
    (hhost : 0 < call.timeoutMs → call.host ≠ "")
    (hfirst : lookUpResult s.planner call.appId call.msgId = none → call.host ∉ s.waiters call.msgId) :
    Delivers (s.register c call) := by
  have hreturn (msg : Option Message) : Delivers (s.setCall c { call with phase := .returned msg }) :=
    h.leave hc (Or.inr ⟨msg, rfl⟩) (by simp [hp, CallPhase.took])
  unfold ResultSystem.register registerInterest
  dsimp only
  by_cases hempty : call.host = ""
  · have hpoll : ¬ 0 < call.timeoutMs := fun hpos => hhost hpos hempty
    simp only [hempty, if_true, decodeResult, Option.filter_none, unanswered, hpoll, if_false]
    rw [← hempty]
    exact hreturn none
  simp only [hempty, if_false]
  cases hr : lookUpResult s.planner call.appId call.msgId with
  | some result =>
    simp only [h.decode hc hr]
    exact hreturn (some result)
  | none =>
    have hnot := hfirst hr
    have hphase : unanswered call = .registered ∨ unanswered call = .returned none := by
      unfold unanswered
      split_ifs <;> simp
    simp only [decodeResult, Option.filter_none]
    refine (h.enrol hnot).setCall ⟨?_, ?_, (h.calls c call hc).named, ?_, ?_⟩ ?_ ?_
    · intro _ result hres
      exact absurd (hr.symm.trans hres) (by simp)
    · rcases hphase with hphase | hphase <;> simp [hphase]
    · intro _
      simp [waiters]
    · intro i hw
      rcases hphase with hphase | hphase <;> simp [hphase] at hw
    · intro _ c' call' _ hc' hh' hsame hmsg
      have hmem := (h.calls c' call' hc').enrolled hh'
      rw [← hsame, ← hmsg] at hmem
      exact hnot hmem
    · intro old hold ht
      obtain rfl := Option.some.inj (hc.symm.trans hold)
      simp [hp, CallPhase.took] at ht

theorem Delivers.prepare (h : Delivers s) (hc : s.calls c = some call)
    (hp : call.phase = .registered) : Delivers (s.prepare c call) := by
  have h' := h.promiseFor call.host call.msgId
  have he := promiseFor_entry s call.host call.msgId
  have hc' : (s.promiseFor call.host call.msgId).2.calls c = some call := by
    rw [promiseFor_frame]
    exact hc
  unfold ResultSystem.prepare
  generalize s.promiseFor call.host call.msgId = q at h' he hc'
  obtain ⟨i, s'⟩ := q
  dsimp only at h' he hc' ⊢
  split_ifs with hr
  · obtain ⟨c₁, call₁, hc₁, ht₁, hhost, hmsg⟩ := h'.taken call.host call.msgId (by simp [takenAt, he, hr])
    obtain rfl := h'.alone c₁ c call₁ call hc₁ hc' (CallPhase.holds_of_took ht₁) (by rw [hp]; rfl)
      hhost hmsg
    obtain rfl := Option.some.inj (hc'.symm.trans hc₁)
    simp [hp, CallPhase.took] at ht₁
  · have hwait : Delivers (s'.setCall c { call with phase := .waiting i }) := by
      refine h'.advance hc' (by simp) (by simp [hp, CallPhase.holds]) (by simp [hp, CallPhase.awaits])
        (by simp [CallPhase.took]) ?_
      rintro j ⟨⟩
      exact he
    exact hwait.retrieve (if_pos rfl) rfl

theorem Delivers.awake (h : Delivers s) (hc : s.calls c = some call) (hp : call.phase = .waiting i) :
    Delivers (s.awake c call i) := by
  unfold ResultSystem.awake
  split
  · exact h.advance hc (by simp) (by simp [hp, CallPhase.holds]) nofun (by simp [CallPhase.took]) nofun
  · rw [if_pos ((h.calls c call hc).waits i hp)]
    exact h

theorem Delivers.timeOut (h : Delivers s) (hc : s.calls c = some call)
    (hp : call.phase = .waiting i) : Delivers (s.timeOut c call i) := by
  unfold ResultSystem.timeOut
  split
  · exact h
  · split_ifs
    · exact h.advance hc (by simp) (by simp [hp, CallPhase.holds]) nofun (by simp [CallPhase.took]) nofun
    · exact h

theorem Delivers.finish (h : Delivers s) (hc : s.calls c = some call) (hh : call.phase.holds = true)
    (hn : call.phase.awaits = false) (msg : Option Message) : Delivers (s.finish c call msg) := by
  have he : Delivers (s.setEntry call.host call.msgId none) := by
    apply h.eraseEntry
    intro c' call' hc' ha hhost hmsg
    obtain rfl := h.alone c' c call' call hc' hc (CallPhase.holds_of_awaits ha) hh hhost hmsg
    obtain rfl := Option.some.inj (hc.symm.trans hc')
    simp [hn] at ha
  exact he.leave hc (Or.inr ⟨msg, rfl⟩) fun _ => by simp [takenAt, setEntry]

theorem Delivers.deliver (h : Delivers s) {k : Nat} (hk : s.pending[k]? = some (host, msg)) :
    Delivers ({ s with pending := s.pending.eraseIdx k }.setMessageResultLocally host msg) := by
  have h' := h.promiseFor host msg.id
  have he := promiseFor_entry s host msg.id
  have hpend : (s.promiseFor host msg.id).2.pending = s.pending := by
    rw [promiseFor_frame]
  have hcomm : { s with pending := s.pending.eraseIdx k }.promiseFor host msg.id =
      ((s.promiseFor host msg.id).1,
        { (s.promiseFor host msg.id).2 with pending := s.pending.eraseIdx k }) := by
    unfold ResultSystem.promiseFor
    cases s.plannerResults host msg.id <;> rfl
  unfold setMessageResultLocally
  rw [hcomm]
  generalize s.promiseFor host msg.id = q at h' he hpend
  obtain ⟨i, s'⟩ := q
  dsimp only at h' he hpend ⊢
  have hperm := Transit.perm_eraseIdx hk
  rw [← hpend] at hperm
  obtain ⟨hunset, hdel⟩ := h'.fulfil hperm he
  rw [hunset, ← hpend]
  exact hdel

theorem Delivers.record (h : Delivers s) (msg : Message) (hok : s.waiters msg.id = [] ∨
      lookUpResult (setMessageResult msg s.planner).2 msg.appId msg.id =
          lookUpResult s.planner msg.appId msg.id ∧
        (setMessageResult msg s.planner).2.sent = s.planner.sent ∨
      (setMessageResult msg s.planner).1.toOption.isSome ∧ ∀ e ∈ s.notified, e.2.id ≠ msg.id) :
    Delivers (step s (.setMessageResult msg)) := by
  have ht := setMessageResult_trace msg s.planner
  simp only [step]
  generalize setMessageResult msg s.planner = q at ht hok
  obtain ⟨r, planner⟩ := q
  dsimp only at ht hok ⊢
  have hsame (hat : lookUpResult planner msg.appId msg.id = lookUpResult s.planner msg.appId msg.id)
      (hsent : planner.sent = s.planner.sent) : Delivers { s with
        planner
        notified := s.notified ++ notificationsIn (planner.sent.drop s.planner.sent.length)
        pending := s.pending ++ notificationsIn (planner.sent.drop s.planner.sent.length) } := by
    rw [hsent, List.drop_length]
    simp only [notificationsIn, List.filterMap_nil, List.append_nil]
    apply h.sameWaiters ht.waiters
    intro appId msgId
    by_cases he : msg.appId = appId ∧ msg.id = msgId
    · rw [← he.1, ← he.2, hat]
    · exact ht.others appId msgId he
  rcases ht.outcome with ⟨hsent, hat | ⟨herr, hat⟩⟩ | ⟨hr, hat, hsent⟩
  · exact hsame hat hsent
  · rcases hok with hempty | ⟨hat', hsent'⟩ | ⟨hr, -⟩
    · have := h.notify ht.waiters ht.others hat (Or.inl hempty)
      rw [hempty] at this
      rw [hsent, List.drop_length]
      exact this
    · exact hsame hat' hsent'
    · cases r with
      | error e => simp [Except.toOption] at hr
      | ok _ => exact absurd rfl herr
  · have hdrop : notificationsIn (planner.sent.drop s.planner.sent.length) =
        (s.waiters msg.id).map fun host => (host, msg) := by
      rw [hsent, List.drop_left, notificationsIn_map]
      rfl
    rcases hok with hempty | ⟨hat', hsent'⟩ | ⟨-, hfirst⟩
    · rw [hdrop]
      exact h.notify ht.waiters ht.others hat (Or.inl hempty)
    · exact hsame hat' hsent'
    · rw [hdrop]
      exact h.notify ht.waiters ht.others hat (Or.inr hfirst)

end ResultSystem

open ResultSystem

/-- The steps that deliver: a call asks for a message with an id, gives its host's
address, and is the only one that its host registers for the message; a result is
recorded without an error after it and notified for the first time, or changes nothing,
or has no waiters. -/
def KeepsDelivery (s : ResultSystem) : ResultAction → Prop
  | .getMessageResult _ _ appId msgId _ => ¬ (appId = 0 ∧ msgId = 0)
  | .register c => ∀ call ∈ s.calls c, call.phase = .absent →
      (0 < call.timeoutMs → call.host ≠ "") ∧
        (lookUpResult s.planner call.appId call.msgId = none → call.host ∉ s.waiters call.msgId)
  | .setMessageResult msg => s.waiters msg.id = [] ∨
      lookUpResult (setMessageResult msg s.planner).2 msg.appId msg.id =
          lookUpResult s.planner msg.appId msg.id ∧
        (setMessageResult msg s.planner).2.sent = s.planner.sent ∨
      (setMessageResult msg s.planner).1.toOption.isSome ∧ ∀ e ∈ s.notified, e.2.id ≠ msg.id
  | _ => True

instance (s : ResultSystem) (action : ResultAction) : Decidable (KeepsDelivery s action) := by
  unfold KeepsDelivery
  cases action <;> infer_instance

theorem delivers_step (s : ResultSystem) (action : ResultAction) (h : Delivers s)
    (hok : KeepsDelivery s action) : Delivers (action.step s) := by
  cases action with
  | getMessageResult c host appId msgId timeoutMs =>
    simp only [step]
    cases hc : s.calls c with
    | some call => exact h
    | none =>
      exact h.setCall ⟨nofun, nofun, hok, nofun, nofun⟩ nofun (by simp [hc])
  | lookUp c =>
    simp only [step]
    split
    · split_ifs with hp
      · exact h.lookUp ‹_› hp
      · exact h
    · exact h
  | register c =>
    simp only [step]
    split
    · split_ifs with hp
      · obtain ⟨hhost, hfirst⟩ := hok _ ‹_› hp
        exact h.register ‹_› hp hhost hfirst
      · exact h
    · exact h
  | prepare c =>
    simp only [step]
    split
    · split_ifs with hp
      · exact h.prepare ‹_› hp
      · exact h
    · exact h
  | awake c =>
    simp only [step]
    split
    · split
      · exact h.awake ‹_› ‹_›
      · exact h
    · exact h
  | timeOut c =>
    simp only [step]
    split
    · split
      · exact h.timeOut ‹_› ‹_›
      · exact h
    · exact h
  | finish c =>
    simp only [step]
    split
    · split
      · rename_i hp
        exact h.finish ‹_› (by rw [hp]; rfl) (by rw [hp]; rfl) none
      · rename_i msg hp
        exact h.finish ‹_› (by rw [hp]; rfl) (by rw [hp]; rfl) (some msg)
      · exact h
    · exact h
  | setMessageResult msg => exact h.record msg hok
  | deliver k =>
    simp only [step]
    cases hk : s.pending[k]? with
    | none => exact h
    | some e => exact h.deliver hk
  | callBatch env req =>
    exact h.sameWaiters (callBatch_results env req s.planner).2
      (lookUpResult_congr (callBatch_results env req s.planner).1)

theorem delivers_fresh (hres : planner.appResults = ∅) (hw : planner.appResultWaiters = ∅)
    : Delivers { planner } := by
  constructor <;> simp [countFor, lookUpResult, hres, waiters, hw, takenAt, valueAt]

/-- In every run whose steps keep the delivery, a result that is recorded while a call
awaits it is on its way to the call or in the promise that the call waits on, no host is
told more often than it registered, and no promise is set twice. -/
theorem results_reach_waiters {planner : PlannerState} {actions : List ResultAction}
    (hres : planner.appResults = ∅) (hw : planner.appResultWaiters = ∅)
    (hok : GuardedRun.Meets step KeepsDelivery { planner } actions) :
    (∀ c call, (run step { planner } actions).calls c = some call →
      call.phase.awaits = true →
      (run step { planner } actions).Arrives call ∧
        ∀ i, call.phase = .waiting i →
          (run step { planner } actions).plannerResults call.host call.msgId =
            some i) ∧
    (∀ host msgId,
      countFor (run step { planner } actions).notified host msgId ≤
        ((run step { planner } actions).waiters msgId).count host) ∧
    (run step { planner } actions).setTwice = false := by
  have h := hok.invariant delivers_step (delivers_fresh hres hw)
  refine ⟨?_, h.told, h.once⟩
  intro c call hc ha
  refine ⟨fun result hr => ?_, (h.calls c call hc).waits⟩
  simpa only [valueAt, Option.bind_eq_some_iff] using (h.calls c call hc).arrives ha result hr

def resultBeforePromise : List ResultAction :=
  [.callBatch {} (requestFor 1 [plainMessage 1 7]),
   .getMessageResult 0 "B" 1 7 500, .lookUp 0, .register 0,
   .setMessageResult { plainMessage 1 7 with executedHost := "A" },
   .deliver 0, .prepare 0]

theorem results_reach_waiters_early :
    (run step { planner := plannerWith "bin-pack" [hostWith "A" 1] }
      resultBeforePromise).Arrives
        { host := "B", appId := 1, msgId := 7, timeoutMs := 500, phase := .waiting 0 } :=
  ((@results_reach_waiters (plannerWith "bin-pack" [hostWith "A" 1]) resultBeforePromise
    (by decide) (by decide) (by decide)).1 0
      { host := "B", appId := 1, msgId := 7, timeoutMs := 500, phase := .waiting 0 }
      (by decide) (by decide)).1

def secondCallOnHost : List ResultAction :=
  [.callBatch {} (requestFor 1 [plainMessage 1 7]),
   .getMessageResult 0 "B" 1 7 500, .lookUp 0, .register 0, .prepare 0, .timeOut 0,
   .getMessageResult 1 "B" 1 7 500, .lookUp 1, .register 1,
   .setMessageResult { plainMessage 1 7 with executedHost := "A" },
   .deliver 0, .deliver 0, .finish 0, .prepare 1]

/-- The second call waits for a promise that nothing is going to set, after a promise was
set twice; and a result that is set twice is notified twice. -/
theorem second_call_misses_result :
    ((run step { planner := plannerWith "bin-pack" [hostWith "A" 1] }
      secondCallOnHost).calls 1 =
        some { host := "B", appId := 1, msgId := 7, timeoutMs := 500, phase := .waiting 1 } ∧
    ¬ (run step { planner := plannerWith "bin-pack" [hostWith "A" 1] }
      secondCallOnHost).Arrives
        { host := "B", appId := 1, msgId := 7, timeoutMs := 500, phase := .waiting 1 } ∧
    (run step { planner := plannerWith "bin-pack" [hostWith "A" 1] }
      secondCallOnHost).setTwice = true) ∧
    ((run step { planner := plannerWith "bin-pack" [hostWith "A" 1] }
      (resultBeforePromise ++ [.setMessageResult { plainMessage 1 7 with executedHost := "A" }])).waiters
        7).count "B" <
      countFor (run step { planner := plannerWith "bin-pack" [hostWith "A" 1] }
        (resultBeforePromise ++
          [.setMessageResult { plainMessage 1 7 with executedHost := "A" }])).notified "B" 7 := by
  refine ⟨⟨by decide, ?_, by decide⟩, by decide⟩
  intro h
  rcases h { plainMessage 1 7 with executedHost := "A" } (by decide) with hp | ⟨i, hi, hv⟩
  · exact absurd hp (by decide)
  · have he : (run step
        { planner := plannerWith "bin-pack" [hostWith "A" 1] } secondCallOnHost).plannerResults "B" 7 =
          some 1 := by decide
    obtain rfl := Option.some.inj (he.symm.trans hi)
    exact absurd hv (by decide)

end Faabric
