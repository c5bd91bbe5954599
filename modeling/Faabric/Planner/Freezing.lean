import Faabric.Planner.Dispatch

/-! Freezing one app, as the planner's maps show it: a must-freeze decision sets a copy of its request aside,
its messages report, and the app restarts from the copy, an MPI world in two steps. -/

namespace Faabric

open BatchExecuteRequest

variable {msg : Message} {added ms new : List Message} {preloaded : Option (List Int)}

def Message.saved (m : Message) : Int × String × String := (m.funcPtr, m.inputData, m.snapshotKey)

def Message.origin (m : Message) : Int × Int × String × String := (m.id, m.saved)

/-- A request that can be restarted from a copy of it: an MPI app has its whole world in flight, and an OpenMP
app its main thread only. -/
structure Restartable (ber : BatchExecuteRequest) : Prop where
  first : (ber.isMpi || ber.isOmp) = true → ∀ m ∈ ber.messages.head?, m.id ≠ 0
  world : ber.isMpi = true → ∀ m ∈ ber.messages.head?, (ber.messages.length : Int) = m.mpiWorldSize
  ranks : ber.isMpi = true → (ber.messages.map Message.groupIdx).Nodup
  thread : ber.isOmp = true → ber.isMpi = true ∨ ber.messages.length = 1

def firstStep (ber : BatchExecuteRequest) : List Message :=
  if ber.isMpi then ber.messages.take 1 else ber.messages

theorem setFrozenMessage_map {β : Type} (g : Message → β) (hg : ∀ m : Message, g { m with
      funcPtr := msg.funcPtr
      inputData := msg.inputData
      snapshotKey := msg.snapshotKey
      returnValue := msg.returnValue } = g m) (ms : List Message) :
    (setFrozenMessage msg ms).map g = ms.map g := by
  induction ms with
  | nil => rfl
  | cons m ms ih =>
    rw [setFrozenMessage]
    split_ifs
    · simp [hg]
    · simp [ih]

theorem mem_setFrozenMessage {m : Message} (hnd : (ms.map Message.id).Nodup)
    (h : m ∈ setFrozenMessage msg ms) :
    m ∈ ms ∧ m.id ≠ msg.id ∨
      m.id = msg.id ∧ m.saved = msg.saved ∧ m.returnValue = msg.returnValue := by
  induction ms with
  | nil => cases h
  | cons m' ms ih =>
    obtain ⟨hnot, hrest⟩ := List.nodup_cons.mp hnd
    rw [setFrozenMessage] at h
    split_ifs at h with hid
    · rcases List.mem_cons.mp h with rfl | h
      · exact Or.inr ⟨hid, rfl, rfl⟩
      · refine Or.inl ⟨List.mem_cons_of_mem m' h, fun heq => hnot ?_⟩
        rw [hid, ← heq]
        exact List.mem_map_of_mem h
    · rcases List.mem_cons.mp h with rfl | h
      · exact Or.inl ⟨List.mem_cons_self, hid⟩
      · rcases ih hrest h with ⟨hm, hne⟩ | hsame
        · exact Or.inl ⟨List.mem_cons_of_mem m' hm, hne⟩
        · exact Or.inr hsame

def withFrozen (msg : Message) (ber : BatchExecuteRequest) : BatchExecuteRequest :=
  { ber with messages := setFrozenMessage msg ber.messages }

theorem withFrozen_messageIds (msg : Message) (ber : BatchExecuteRequest) :
    (withFrozen msg ber).messageIds = ber.messageIds :=
  setFrozenMessage_map Message.id (fun _ => rfl) ber.messages

theorem withFrozen_restartable {ber : BatchExecuteRequest} (h : Restartable ber) (msg : Message) :
    Restartable (withFrozen msg ber) := by
  have hmap {β : Type} (g : Message → β) (hg : ∀ m : Message, g { m with
      funcPtr := msg.funcPtr
      inputData := msg.inputData
      snapshotKey := msg.snapshotKey
      returnValue := msg.returnValue } = g m) :
      (withFrozen msg ber).messages.map g = ber.messages.map g := setFrozenMessage_map g hg ber.messages
  have hlen : (withFrozen msg ber).messages.length = ber.messages.length := by
    simpa using congrArg List.length (hmap Message.id fun _ => rfl)
  have hhead := congrArg List.head?
    (hmap (fun m => (m.id, m.isMpi, m.isOmp, m.mpiWorldSize)) fun _ => rfl)
  have hranks := hmap Message.groupIdx fun _ => rfl
  obtain ⟨hfirst, hworld, hdistinct, hthread⟩ := h
  cases hm : ber.messages with
  | nil =>
    have hm' : (withFrozen msg ber).messages = [] := by simp [withFrozen, hm, setFrozenMessage]
    constructor <;> simp [hm', isMpi, isOmp]
  | cons m ms =>
    cases hm' : (withFrozen msg ber).messages with
    | nil => simp [hm, hm'] at hlen
    | cons m' ms' =>
      simp only [hm, hm', List.map_cons, List.head?_cons, Option.some.injEq, Prod.mk.injEq] at hhead
      obtain ⟨hid, hmpi, homp, hsize⟩ := hhead
      have hisMpi : (withFrozen msg ber).isMpi = ber.isMpi := by
        simp [isMpi, hm, hm', hmpi]
      have hisOmp : (withFrozen msg ber).isOmp = ber.isOmp := by
        simp [isOmp, hm, hm', homp]
      constructor
      · rw [hisMpi, hisOmp, hm']
        simpa [hm, hid] using hfirst
      · rw [hisMpi, hlen, hm']
        simpa [hm, hsize] using hworld
      · rw [hisMpi, hranks]
        exact hdistinct
      · rw [hisMpi, hisOmp, hlen]
        exact hthread

/-- What the planner's maps say about one app, with the results reported and the messages dispatched since
its last freeze. -/
structure AppView where
  evicted : Option BatchExecuteRequest
  flight : Option (List Int)
  preloaded : Option (List Int)
  finished : Int → Bool
  reports : List Message
  restarted : List Message

namespace AppView

def flightIds (v : AppView) : List Int := v.flight.getD []

structure Freezing (v : AppView) (ids : List Int) (ber : BatchExecuteRequest) : Prop where
  evicted : v.evicted = some ber
  waiting : v.restarted = []
  copied : ber.messageIds = ids
  pending : (v.flightIds ++ v.reports.map Message.id).Perm ids
  alike : ∀ r ∈ v.reports, ∀ r' ∈ v.reports, isFrozenResult r = isFrozenResult r'
  saved : ∀ r ∈ v.reports, isFrozenResult r = true → ∀ m ∈ ber.messages, m.id = r.id →
    m.saved = r.saved ∧ m.returnValue = FROZEN_FUNCTION_RETURN_VALUE
  running : (∀ r ∈ v.reports, isFrozenResult r = false) → isFrozenBer ber = false
  restartable : Restartable ber
  unfinished : (∀ r ∈ v.reports, isFrozenResult r = true) → ∀ id ∈ ids, v.finished id = false

/-- The first rank of a frozen MPI world runs again, and is going to ask for the other ranks. -/
structure Resuming (v : AppView) (ids : List Int) (ber : BatchExecuteRequest) : Prop where
  evicted : v.evicted = some ber
  mpi : ber.isMpi = true
  copied : ber.messageIds = ids
  more : 1 < ids.length
  first : v.restarted.map Message.id = ids.take 1
  flight : v.flight = some (ids.take 1)
  preloaded : v.preloaded = some (ber.messages.map Message.groupIdx)
  ranks : (ber.messages.map Message.groupIdx).Nodup
  reported : (v.reports.map Message.id).Perm ids
  frozen : ∀ r ∈ v.reports, isFrozenResult r = true
  saved : ∀ r ∈ v.reports, ∀ m ∈ ber.messages ++ v.restarted, m.id = r.id → m.saved = r.saved
  unfinished : ∀ id ∈ ids, v.finished id = false

/-- All frozen messages have been dispatched again. A copy of the request that is still set aside does no harm
while the app is in flight. -/
structure Resumed (v : AppView) (ids : List Int) : Prop where
  harmless : ∀ ber ∈ v.evicted, v.flight.isSome ∧ (ber.isMpi = true → ber.messages.length ≤ 1)
  once : ∀ id ∈ ids, (v.restarted.map Message.id).count id = 1
  reported : ((v.reports.filter isFrozenResult).map Message.id).Perm ids
  saved : ∀ r ∈ v.reports, isFrozenResult r = true → ∀ m ∈ v.restarted, m.id = r.id → m.saved = r.saved
  settled : ∀ id ∈ ids, id ∈ v.flightIds ∨ v.finished id = true
  flying : ∀ id ∈ v.flightIds, id ∈ v.restarted.map Message.id

structure Ok (v : AppView) (ids : List Int) : Prop where
  nodup : ids.Nodup
  nonempty : ids ≠ []
  flight_nodup : v.flightIds.Nodup
  flight_unfinished : ∀ id ∈ v.flightIds, v.finished id = false
  manned : v.flight ≠ some []
  phase : (∃ ber, v.Freezing ids ber) ∨ (∃ ber, v.Resuming ids ber) ∨ v.Resumed ids

variable {v : AppView} {ids : List Int} {ber : BatchExecuteRequest}

theorem isFrozenBer_of_frozen (h : v.Freezing ids ber) (hnone : v.flight = none)
    (hall : ∀ r ∈ v.reports, isFrozenResult r = true) : isFrozenBer ber = true := by
  have hids : (v.reports.map Message.id).Perm ids := by
    simpa [flightIds, hnone] using h.pending
  rw [isFrozenBer, List.all_eq_true]
  intro m hm
  have hid : m.id ∈ v.reports.map Message.id := by
    rw [hids.mem_iff, ← h.copied]
    exact List.mem_map_of_mem hm
  obtain ⟨r, hr, hrid⟩ := List.mem_map.mp hid
  simpa using (h.saved r hr (hall r hr) m hm hrid.symm).2

theorem Freezing.all_frozen (h : v.Freezing ids ber) (hber : isFrozenBer ber = true) :
    ∀ r ∈ v.reports, isFrozenResult r = true := by
  have hsome : ∃ r ∈ v.reports, isFrozenResult r = true := by
    by_contra hno
    have hfalse := h.running fun r hr => by
      by_contra hfro
      exact hno ⟨r, hr, by simpa using hfro⟩
    rw [hber] at hfalse
    cases hfalse
  obtain ⟨r, hr, hfro⟩ := hsome
  intro r' hr'
  rw [h.alike r' hr' r hr, hfro]

theorem Ok.freeze (hflight : v.flight = some ber.messageIds) (hnd : ber.messageIds.Nodup)
    (hun : ∀ id ∈ ber.messageIds, v.finished id = false) (hber : isFrozenBer ber = false)
    (hres : Restartable ber) :
    Ok { v with evicted := some ber, reports := [], restarted := [] } ber.messageIds := by
  have hne : ber.messageIds ≠ [] := by
    intro hnil
    have hmsgs : ber.messages = [] := by simpa [messageIds] using hnil
    simp [isFrozenBer, hmsgs] at hber
  have hids : flightIds { v with evicted := some ber, reports := [], restarted := [] } = ber.messageIds := by
    simp [flightIds, hflight]
  refine ⟨hnd, hne, hids ▸ hnd, hids ▸ hun, ?_, Or.inl ⟨ber, ?_⟩⟩
  · rw [hflight]
    simpa using hne
  · refine ⟨rfl, rfl, rfl, by simp [hids], by simp, by simp, fun _ => hber, hres, fun _ => hun⟩

def report (v : AppView) (msg : Message) : AppView :=
  let rest := v.flightIds.erase msg.id
  { v with
    evicted := if isFrozenResult msg then v.evicted.map (withFrozen msg) else v.evicted
    flight := if rest = [] then none else some rest
    preloaded := if rest = [] then none else v.preloaded
    finished := if isFrozenResult msg then v.finished else Function.update v.finished msg.id true
    reports := v.reports ++ [msg] }

/-- While the app freezes, its reports are all of one kind. Once it has been restarted, a report does not take
it out of flight before the copy of its request is gone. -/
def Reportable (v : AppView) (msg : Message) : Prop :=
  v.evicted.isSome →
    if v.restarted = [] then ∀ r ∈ v.reports, isFrozenResult r = isFrozenResult msg
    else isFrozenResult msg = false ∧ v.flightIds ≠ [msg.id]

instance (v : AppView) (msg : Message) : Decidable (v.Reportable msg) := inferInstanceAs (Decidable (_ → _))

theorem report_flightIds (v : AppView) (msg : Message) :
    (v.report msg).flightIds = v.flightIds.erase msg.id := by
  rw [flightIds, report]
  by_cases hrest : v.flightIds.erase msg.id = []
  · rw [if_pos hrest, hrest]
    rfl
  · rw [if_neg hrest]
    rfl

theorem Freezing.report (h : v.Freezing ids ber) (hnd : ids.Nodup) (hmsg : msg.id ∈ v.flightIds)
    (hkind : ∀ r ∈ v.reports, isFrozenResult r = isFrozenResult msg) :
    ∃ ber', (v.report msg).Freezing ids ber' := by
  have hpending : ((v.report msg).flightIds ++ (v.report msg).reports.map Message.id).Perm ids := by
    rw [report_flightIds]
    simp only [AppView.report, List.map_append, List.map_cons, List.map_nil]
    have hback : (msg.id :: v.flightIds.erase msg.id).Perm v.flightIds := (List.perm_cons_erase hmsg).symm
    calc (v.flightIds.erase msg.id ++ (v.reports.map Message.id ++ [msg.id])).Perm
          (msg.id :: (v.flightIds.erase msg.id ++ v.reports.map Message.id)) := by
            rw [← List.append_assoc]
            exact List.perm_append_singleton _ _
      _ |>.Perm (v.flightIds ++ v.reports.map Message.id) := hback.append_right _
      _ |>.Perm ids := h.pending
  have hother : ∀ r ∈ v.reports, r.id ≠ msg.id := by
    intro r hr hid
    have happ := h.pending.nodup_iff.mpr hnd
    exact (List.nodup_append.mp happ).2.2 _ hmsg _ (List.mem_map_of_mem hr) hid.symm
  have hreports (r : Message) (hr : r ∈ (v.report msg).reports) : r ∈ v.reports ∨ r = msg := by
    simpa [AppView.report] using hr
  have halike : ∀ r ∈ (v.report msg).reports, isFrozenResult r = isFrozenResult msg := by
    intro r hr
    rcases hreports r hr with hr | rfl
    · exact hkind r hr
    · rfl
  have halike' : ∀ r ∈ (v.report msg).reports, ∀ r' ∈ (v.report msg).reports,
      isFrozenResult r = isFrozenResult r' := fun r hr r' hr' => (halike r hr).trans (halike r' hr').symm
  have hmem : msg ∈ (v.report msg).reports := by simp [AppView.report]
  cases hfro : isFrozenResult msg with
  | true =>
    have hret : msg.returnValue = FROZEN_FUNCTION_RETURN_VALUE := by simpa [isFrozenResult] using hfro
    refine ⟨withFrozen msg ber, ?_, h.waiting, (withFrozen_messageIds msg ber).trans h.copied, hpending, halike',
      ?_, ?_, withFrozen_restartable h.restartable msg, ?_⟩
    · simp [AppView.report, hfro, h.evicted]
    · intro r hr hrfro m hm hid
      have hbernd : (ber.messages.map Message.id).Nodup := by
        rw [← h.copied] at hnd
        exact hnd
      rcases mem_setFrozenMessage hbernd hm with ⟨hold, hne⟩ | ⟨hmid, hsaved, hvalue⟩
      · rcases hreports r hr with hr | rfl
        · exact h.saved r hr hrfro m hold hid
        · exact absurd hid hne
      · rcases hreports r hr with hr | rfl
        · exact absurd (hid.symm.trans hmid) (hother r hr)
        · exact ⟨hsaved, hvalue.trans hret⟩
    · intro hno
      rw [hno msg hmem] at hfro
      cases hfro
    · intro hall id hid
      have hold := h.unfinished (fun r hr => by rw [hkind r hr, hfro]) id hid
      simpa [AppView.report, hfro] using hold
  | false =>
    refine ⟨ber, ?_, h.waiting, h.copied, hpending, halike', ?_, ?_, h.restartable, ?_⟩
    · simp [AppView.report, hfro, h.evicted]
    · intro r hr hrfro
      rw [halike r hr, hfro] at hrfro
      cases hrfro
    · intro _
      exact h.running fun r hr => by rw [hkind r hr, hfro]
    · intro hall
      rw [hall msg hmem] at hfro
      cases hfro

theorem Resumed.report (h : v.Resumed ids) (hmsg : msg.id ∈ v.flightIds)
    (hfinal : isFrozenResult msg = false) (hstays : v.evicted.isSome → v.flightIds ≠ [msg.id])
    : (v.report msg).Resumed ids := by
  have hreports (r : Message) (hr : r ∈ (v.report msg).reports) (hrfro : isFrozenResult r = true) :
      r ∈ v.reports := by
    have hcases : r ∈ v.reports ∨ r = msg := by simpa [AppView.report] using hr
    rcases hcases with hr | rfl
    · exact hr
    · rw [hfinal] at hrfro
      cases hrfro
  refine ⟨?_, h.once, ?_, fun r hr hrfro => h.saved r (hreports r hr hrfro) hrfro, ?_, ?_⟩
  · intro ber hber
    have hsame : (v.report msg).evicted = v.evicted := by simp [AppView.report, hfinal]
    rw [hsame] at hber
    refine ⟨?_, (h.harmless ber hber).2⟩
    have hrest : v.flightIds.erase msg.id ≠ [] := by
      intro hnil
      have hperm := List.perm_cons_erase hmsg
      rw [hnil] at hperm
      exact hstays (by rw [hber]; rfl) (List.perm_singleton.mp hperm)
    simp [AppView.report, hrest]
  · simpa [AppView.report, hfinal] using h.reported
  · intro id hid
    rw [report_flightIds]
    by_cases heq : id = msg.id
    · right
      simp [AppView.report, hfinal, heq]
    · rcases h.settled id hid with hfly | hfin
      · exact Or.inl ((List.mem_erase_of_ne heq).mpr hfly)
      · right
        simpa [AppView.report, hfinal, heq] using hfin
  · intro id hid
    rw [report_flightIds] at hid
    exact h.flying id (List.mem_of_mem_erase hid)

theorem Resumed.restarted_ne_nil (h : v.Resumed ids) (hne : ids ≠ []) : v.restarted ≠ [] := by
  intro hnil
  obtain ⟨id, hid⟩ := List.exists_mem_of_ne_nil ids hne
  have hcount := h.once id hid
  simp [hnil] at hcount

theorem Resuming.restarted_ne_nil (h : v.Resuming ids ber) : v.restarted ≠ [] := by
  intro hnil
  have hlen := congrArg List.length h.first
  have hmore := h.more
  simp only [hnil, List.map_nil, List.length_nil, List.length_take] at hlen
  omega

theorem Ok.report (h : v.Ok ids) (hmsg : msg.id ∈ v.flightIds) (hok : v.Reportable msg)
    (horphan : v.evicted = none → isFrozenResult msg = false) : (v.report msg).Ok ids := by
  refine ⟨h.nodup, h.nonempty, ?_, ?_, ?_, ?_⟩
  · rw [report_flightIds]
    exact h.flight_nodup.erase _
  · intro id hid
    rw [report_flightIds] at hid
    obtain ⟨hne, hfly⟩ := h.flight_nodup.mem_erase_iff.mp hid
    have hold := h.flight_unfinished id hfly
    simp only [AppView.report]
    split_ifs
    · exact hold
    · simpa [hne] using hold
  · simp only [AppView.report]
    split_ifs with hrest
    · simp
    · simpa using hrest
  · rcases h.phase with ⟨ber, hf⟩ | ⟨ber, hr⟩ | hr
    · have hkind := hok (by rw [hf.evicted]; rfl)
      rw [if_pos hf.waiting] at hkind
      exact Or.inl (hf.report h.nodup hmsg hkind)
    · have hlast := hok (by rw [hr.evicted]; rfl)
      rw [if_neg hr.restarted_ne_nil] at hlast
      have hone : v.flightIds = ids.take 1 := by simp [flightIds, hr.flight]
      have hsingle : v.flightIds = [msg.id] := by
        rw [hone] at hmsg ⊢
        cases ids with
        | nil => simp at hmsg
        | cons id rest =>
          have hid : msg.id = id := by simpa using hmsg
          simp [hid]
      exact absurd hsingle hlast.2
    · refine Or.inr (Or.inr (hr.report hmsg ?_ ?_))
      · cases hev : v.evicted with
        | none => exact horphan hev
        | some ber =>
          have hlast := hok (by rw [hev]; rfl)
          rw [if_neg (hr.restarted_ne_nil h.nonempty)] at hlast
          exact hlast.1
      · intro hev
        have hlast := hok hev
        rw [if_neg (hr.restarted_ne_nil h.nonempty)] at hlast
        exact hlast.2

theorem Ok.resumed (h : v.Ok ids) (hev : v.evicted = none) : v.Resumed ids := by
  rcases h.phase with ⟨ber, hf⟩ | ⟨ber, hr⟩ | hr
  · rw [hf.evicted] at hev
    cases hev
  · rw [hr.evicted] at hev
    cases hev
  · exact hr

theorem Ok.freezing (h : v.Ok ids) (hev : v.evicted = some ber) (hnone : v.flight = none) :
    v.Freezing ids ber := by
  rcases h.phase with ⟨ber', hf⟩ | ⟨ber', hr⟩ | hr
  · rw [hf.evicted] at hev
    exact Option.some.inj hev ▸ hf
  · rw [hr.flight] at hnone
    cases hnone
  · have hin := (hr.harmless ber hev).1
    rw [hnone] at hin
    cases hin

theorem Ok.resuming (h : v.Ok ids) (hev : v.evicted = some ber) (hstarted : v.restarted ≠ [])
    (hmpi : ber.isMpi = true) (hmore : 1 < ber.messages.length) : v.Resuming ids ber := by
  rcases h.phase with ⟨ber', hf⟩ | ⟨ber', hr⟩ | hr
  · exact absurd hf.waiting hstarted
  · rw [hr.evicted] at hev
    exact Option.some.inj hev ▸ hr
  · have hle := (hr.harmless ber hev).2 hmpi
    omega

theorem firstStep_sublist (ber : BatchExecuteRequest) : (firstStep ber).Sublist ber.messages := by
  unfold firstStep
  split_ifs
  · exact List.take_sublist 1 _
  · exact List.Sublist.refl _

theorem map_id_of_origin {ms' : List Message}
    (h : (ms.map Message.origin).Perm (ms'.map Message.origin)) :
    (ms.map Message.id).Perm (ms'.map Message.id) := by
  simpa [Message.origin, Function.comp_def] using h.map Prod.fst

theorem saved_of_origin {ms' : List Message}
    (h : (ms.map Message.origin).Perm (ms'.map Message.origin)) {r : Message}
    (hsaved : ∀ m ∈ ms', m.id = r.id → m.saved = r.saved) :
    ∀ m ∈ ms, m.id = r.id → m.saved = r.saved := by
  intro m hm hid
  obtain ⟨m', hm', horigin⟩ := List.mem_map.mp (h.subset (List.mem_map_of_mem hm))
  obtain ⟨hid', hsaved'⟩ := Prod.mk.inj horigin
  rw [← hsaved']
  exact hsaved m' hm' (hid'.trans hid)

theorem Ok.restart (h : v.Ok ids) (hev : v.evicted = some ber) (hber : isFrozenBer ber = true)
    (hnone : v.flight = none)
    (hnew : (new.map Message.origin).Perm ((firstStep ber).map Message.origin))
    (hload : ber.isMpi = true → preloaded = some (ber.messages.map Message.groupIdx)) :
    Ok { v with
      flight := some ((firstStep ber).map Message.id)
      preloaded := preloaded
      restarted := v.restarted ++ new } ids := by
  have hfreezing := h.freezing hev hnone
  have hfrozen := hfreezing.all_frozen hber
  have hun := hfreezing.unfinished hfrozen
  have hreported : (v.reports.map Message.id).Perm ids := by
    simpa [flightIds, hnone] using hfreezing.pending
  have hsub : ((firstStep ber).map Message.id).Sublist ids := by
    rw [← hfreezing.copied]
    exact (firstStep_sublist ber).map Message.id
  have hnewids := map_id_of_origin hnew
  have hsaved : ∀ r ∈ v.reports, ∀ m ∈ ber.messages, m.id = r.id → m.saved = r.saved :=
    fun r hr m hm hid => (hfreezing.saved r hr (hfrozen r hr) m hm hid).1
  have hsavednew : ∀ r ∈ v.reports, ∀ m ∈ new, m.id = r.id → m.saved = r.saved := fun r hr =>
    saved_of_origin hnew fun m hm => hsaved r hr m ((firstStep_sublist ber).subset hm)
  have hlen : ids.length = ber.messages.length := by
    rw [← hfreezing.copied, messageIds, List.length_map]
  refine ⟨h.nodup, h.nonempty, hsub.nodup h.nodup, fun id hid => hun id (hsub.subset hid), ?_, ?_⟩
  · have hpos := List.length_pos_iff.mpr h.nonempty
    simp only [ne_eq, Option.some.injEq, List.map_eq_nil_iff, firstStep]
    split_ifs
    · intro hnil
      have htake := congrArg List.length hnil
      simp only [List.length_take, List.length_nil] at htake
      omega
    · intro hnil
      rw [hnil, List.length_nil] at hlen
      omega
  · by_cases hmany : ber.isMpi = true ∧ 1 < ids.length
    -- an MPI world of more than one rank: only the first one is dispatched
    · obtain ⟨hmpi, hmore⟩ := hmany
      have hfirst : (firstStep ber).map Message.id = ids.take 1 := by
        rw [firstStep, if_pos hmpi, List.map_take, ← hfreezing.copied]
        rfl
      refine Or.inr (Or.inl ⟨ber, hev, hmpi, hfreezing.copied, hmore, ?_, by rw [hfirst], hload hmpi,
        hfreezing.restartable.ranks hmpi, hreported, hfrozen, ?_, hun⟩)
      · rw [hfirst] at hnewids
        rw [hfreezing.waiting, List.nil_append]
        cases hids : ids with
        | nil => exact absurd hids h.nonempty
        | cons id rest =>
          rw [hids] at hnewids
          simpa using hnewids
      · intro r hr m hm
        rw [hfreezing.waiting, List.nil_append, List.mem_append] at hm
        rcases hm with hm | hm
        · exact hsaved r hr m hm
        · exact hsavednew r hr m hm
    -- all of its messages are dispatched at once
    · have hall : firstStep ber = ber.messages := by
        unfold firstStep
        split_ifs with hmpi
        · apply List.take_of_length_le
          rw [← hlen]
          have hle : ¬ 1 < ids.length := fun hlt => hmany ⟨hmpi, hlt⟩
          omega
        · rfl
      have hids : (new.map Message.id).Perm ids := by
        rw [hall] at hnewids
        exact hnewids.trans (List.Perm.of_eq hfreezing.copied)
      refine Or.inr (Or.inr ⟨?_, ?_, ?_, ?_, ?_, ?_⟩)
      · intro ber' hber'
        have hsame : ber = ber' := Option.some.inj (hev.symm.trans hber')
        refine ⟨rfl, fun hmpi => ?_⟩
        rw [← hsame, ← hlen] at *
        by_contra hlt
        exact hmany ⟨hsame ▸ hmpi, by omega⟩
      · intro id hid
        rw [hfreezing.waiting, List.nil_append, hids.count_eq]
        exact List.count_eq_one_of_mem h.nodup hid
      · have hkeep : v.reports.filter isFrozenResult = v.reports := List.filter_eq_self.mpr hfrozen
        rw [hkeep]
        exact hreported
      · intro r hr _ m hm
        rw [hfreezing.waiting, List.nil_append] at hm
        exact hsavednew r hr m hm
      · intro id hid
        left
        simp only [flightIds, Option.getD_some, hall]
        rw [← hfreezing.copied] at hid
        exact hid
      · intro id hid
        rw [hfreezing.waiting, List.nil_append, hnewids.mem_iff]
        simpa [flightIds] using hid

theorem Resuming.added_ids (h : v.Resuming ids ber)
    (hadded : added.map Message.origin = (ber.messages.drop 1).map Message.origin) :
    added.map Message.id = ids.drop 1 := by
  have hmap := congrArg (List.map Prod.fst) hadded
  rw [← h.copied, messageIds, ← List.map_drop]
  simpa [Message.origin, Function.comp_def] using hmap

theorem Resuming.restarted_perm (h : v.Resuming ids ber)
    (hadded : added.map Message.origin = (ber.messages.drop 1).map Message.origin)
    (hnew : new.Perm added) :
    ((v.restarted ++ new).map Message.id).Perm ids := by
  rw [List.map_append, h.first]
  calc (ids.take 1 ++ new.map Message.id).Perm (ids.take 1 ++ added.map Message.id) :=
        (hnew.map Message.id).append_left _
    _ |>.Perm ids := List.Perm.of_eq (by rw [h.added_ids hadded, List.take_append_drop])

theorem Resuming.complete (h : v.Resuming ids ber) (hids : ids.Nodup)
    (hadded : added.map Message.origin = (ber.messages.drop 1).map Message.origin)
    (hnew : new.Perm added) :
    Ok { v with
      evicted := none
      flight := some (v.flightIds ++ added.map Message.id)
      preloaded := preloaded
      restarted := v.restarted ++ new } ids := by
  have hall : v.flightIds ++ added.map Message.id = ids := by
    have hflight : v.flightIds = ids.take 1 := by simp [flightIds, h.flight]
    rw [hflight, h.added_ids hadded, List.take_append_drop]
  have hrestarted := h.restarted_perm hadded hnew
  have hnonempty : ids ≠ [] := by
    intro hnil
    have hmore := h.more
    simp [hnil] at hmore
  refine ⟨hids, hnonempty, ?_, ?_, ?_, Or.inr (Or.inr ⟨nofun, ?_, ?_, ?_, ?_, ?_⟩)⟩
  · simpa [flightIds, ← hall] using hids
  · intro id hid
    apply h.unfinished id
    rw [← hall]
    simpa [flightIds] using hid
  · rw [hall]
    simpa using hnonempty
  · intro id hid
    rw [hrestarted.count_eq]
    exact List.count_eq_one_of_mem hids hid
  · rw [List.filter_eq_self.mpr h.frozen]
    exact h.reported
  · intro r hr _ m hm hid
    rcases List.mem_append.mp hm with hm | hm
    · exact h.saved r hr m (List.mem_append_right _ hm) hid
    · apply saved_of_origin (List.Perm.of_eq hadded) _ m (hnew.subset hm) hid
      intro m' hm' hid'
      exact h.saved r hr m' (List.mem_append_left _ (List.mem_of_mem_drop hm')) hid'
  · intro id hid
    left
    simp only [flightIds, Option.getD_some]
    change id ∈ v.flightIds ++ added.map Message.id
    rw [hall]
    exact hid
  · intro id hid
    rw [hrestarted.mem_iff, ← hall]
    simpa [flightIds] using hid

theorem Ok.grow (h : v.Ok ids) (hev : v.evicted = none) (hflight : v.flight.isSome)
    (hnd : (v.flightIds ++ added.map Message.id).Nodup) (hun : ∀ m ∈ added, v.finished m.id = false)
    (hnew : new.Perm added) :
    Ok { v with
      flight := some (v.flightIds ++ added.map Message.id)
      preloaded := preloaded
      restarted := v.restarted ++ new } ids := by
  have hr := h.resumed hev
  have hfresh : ∀ m ∈ added, m.id ∉ ids := by
    intro m hm hid
    rcases hr.settled m.id hid with hfly | hfin
    · exact (List.nodup_append.mp hnd).2.2 _ hfly _ (List.mem_map_of_mem hm) rfl
    · rw [hun m hm] at hfin
      cases hfin
  refine ⟨h.nodup, h.nonempty, hnd, ?_, ?_, Or.inr (Or.inr ⟨?_, ?_, hr.reported, ?_, ?_, ?_⟩)⟩
  · intro id hid
    rcases List.mem_append.mp (show id ∈ v.flightIds ++ added.map Message.id from hid) with hid | hid
    · exact h.flight_unfinished id hid
    · obtain ⟨m, hm, rfl⟩ := List.mem_map.mp hid
      exact hun m hm
  · intro hnil
    have hold : v.flightIds = [] := (List.append_eq_nil_iff.mp (Option.some.inj hnil)).1
    obtain ⟨fl, hfl⟩ := Option.isSome_iff_exists.mp hflight
    apply h.manned
    rw [hfl]
    simpa [flightIds, hfl] using hold
  · intro ber hber
    rw [hev] at hber
    cases hber
  · intro id hid
    have hzero : (new.map Message.id).count id = 0 := by
      rw [List.count_eq_zero]
      intro hmem
      obtain ⟨m, hm, rfl⟩ := List.mem_map.mp hmem
      exact hfresh m (hnew.subset hm) hid
    rw [List.map_append, List.count_append, hzero, hr.once id hid]
  · intro r hrep hrfro m hm hid
    rcases List.mem_append.mp hm with hm | hm
    · exact hr.saved r hrep hrfro m hm hid
    · have hrid : r.id ∈ ids := by
        rw [← hr.reported.mem_iff]
        exact List.mem_map_of_mem (List.mem_filter.mpr ⟨hrep, hrfro⟩)
      exact absurd (hid ▸ hrid) (hfresh m (hnew.subset hm))
  · intro id hid
    exact (hr.settled id hid).imp (List.mem_append_left _) fun h => h
  · intro id hid
    rw [List.map_append, List.mem_append]
    rcases List.mem_append.mp (show id ∈ v.flightIds ++ added.map Message.id from hid) with hid | hid
    · exact Or.inl (hr.flying id hid)
    · exact Or.inr ((hnew.map Message.id).mem_iff.mpr hid)

theorem Ok.preload (h : v.Ok ids) (hev : v.evicted = none) (preloaded : Option (List Int)) :
    Ok { v with preloaded := preloaded } ids := by
  have hr := h.resumed hev
  exact ⟨h.nodup, h.nonempty, h.flight_nodup, h.flight_unfinished, h.manned,
    Or.inr (Or.inr ⟨hr.harmless, hr.once, hr.reported, hr.saved, hr.settled, hr.flying⟩)⟩

end AppView

end Faabric
