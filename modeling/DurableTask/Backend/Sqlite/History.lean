import DurableTask.Backend.Sqlite.Invariant

/-!
# Instances and their history

Every turn is committed at the position where the loaded history ends, so the history of an instance is
numbered without gaps, loads as it is, and the `Instances` row says what it says.
-/

namespace DurableTask.Sqlite

open Table WorkflowRuntimeState

/-- With at most one event of a kind, the last is the first. -/
theorem findSome?_append_of_length_le_one {α β : Type} {f : α → Option β} {l l' : List α}
    (h : ((l ++ l').filterMap f).length ≤ 1) :
    (l ++ l').findSome? f = (l'.findSome? f).or (l.findSome? f) := by
  rw [List.findSome?_append]
  cases hl : l.findSome? f with
  | none => rw [Option.none_or, Option.or_none]
  | some b =>
    cases hl' : l'.findSome? f with
    | none => rfl
    | some b' =>
      rw [← List.head?_filterMap] at hl hl'
      rw [List.filterMap_append, List.length_append] at h
      have hpos := List.length_pos_of_mem (List.mem_of_mem_head? hl)
      have hpos' := List.length_pos_of_mem (List.mem_of_mem_head? hl')
      omega

theorem findSome?_map_snd {α β γ : Type} (f : α → Option β) (g : α → γ) (l : List α) :
    (l.findSome? fun a => (f a).map (g a, ·)).map Prod.snd = l.findSome? f := by
  induction l with
  | nil => rfl
  | cons a l ih =>
    rw [List.findSome?_cons, List.findSome?_cons]
    cases f a with
    | none => exact ih
    | some b => rfl

/-- What a commit sets in the row of its instance. -/
theorem InstanceRow.commit_columns (now : Time) (state : WorkflowRuntimeState) (r : InstanceRow) :
    (r.commit now state).executionID =
        ((state.newEvents.findSome? HistoryEvent.getExecutionStarted).map
          (·.workflowInstance.executionIdValue)).getD r.executionID ∧
      (r.commit now state).output =
        ((state.newEvents.findSome? HistoryEvent.getExecutionCompleted).map
          (·.result.getD "")).or r.output ∧
      (r.commit now state).failureDetails =
        ((state.newEvents.findSome? HistoryEvent.getExecutionCompleted).map
          ExecutionCompletedEvent.failureDetails).getD r.failureDetails ∧
      (r.commit now state).runtimeStatus = state.runtimeStatus := by
  unfold InstanceRow.commit
  dsimp only
  rw [← findSome?_map_snd HistoryEvent.getExecutionStarted HistoryEvent.timestamp state.newEvents]
  generalize state.newEvents.findSome? (fun e => e.getExecutionStarted.map (e.timestamp, ·)) = start
  generalize state.newEvents.findSome? HistoryEvent.getExecutionCompleted = completed
  cases start <;> cases completed <;> exact ⟨rfl, rfl, rfl, rfl⟩

namespace Db

variable {db db' : Db} {id : InstanceID}

/-! ### The rows of a turn -/

theorem map_sequenceNumber_historyRows (id : InstanceID) (n : Nat) (events : List HistoryEvent) :
    (historyRows id n events).map HistoryRow.sequenceNumber = List.range' n events.length := by
  induction events generalizing n with
  | nil => rfl
  | cons e es ih =>
    unfold historyRows
    rw [List.map_cons, ih]
    rfl

theorem map_event_historyRows (id : InstanceID) (n : Nat) (events : List HistoryEvent) :
    (historyRows id n events).map HistoryRow.event = events := by
  induction events generalizing n with
  | nil => rfl
  | cons e es ih =>
    unfold historyRows
    rw [List.map_cons, ih]

theorem historyTable_historyRows (id : InstanceID) (n : Nat) (events : List HistoryEvent) :
    (historyRows id n events).filter (·.instanceID = id) = historyRows id n events := by
  induction events generalizing n with
  | nil => rfl
  | cons e es ih =>
    unfold historyRows
    rw [List.filter_cons_of_pos (by simp), ih]

/-- The history a turn is appended to. -/
def kept (db : Db) (wi : WorkflowWorkItem) : List HistoryRow :=
  if wi.state.continuedAsNew then [] else db.historyTable wi.instanceID

theorem historyTable_resetGeneration (db : Db) (wi : WorkflowWorkItem) (id : InstanceID) :
    (db.resetGeneration wi).historyTable id =
      if id = wi.instanceID then db.kept wi else db.historyTable id := by
  unfold resetGeneration kept historyTable
  by_cases hid : id = wi.instanceID
  · subst hid
    split
    · rw [if_pos rfl]
      exact filter_delete_eq_nil fun r _ h => h
    · rw [if_pos rfl]
  · rw [if_neg hid]
    split
    · exact filter_delete fun r _ h => decide_eq_false (of_decide_eq_true h ▸ hid)
    · rfl

/-- The history after a turn. -/
theorem historyTable_turn {now : Time} {wi : WorkflowWorkItem} {n : Nat} {events : List HistoryEvent}
    (h : ((db.commitInstance now wi).resetGeneration wi).insertHistory wi.instanceID n events =
      .ok db') :
    db'.historyTable wi.instanceID = db.kept wi ++ historyRows wi.instanceID n events ∧
      ∀ id ≠ wi.instanceID, db'.historyTable id = db.historyTable id := by
  obtain ⟨-, rfl⟩ := insertHistory_eq h
  have hreset := historyTable_resetGeneration (db.commitInstance now wi) wi
  unfold historyTable at hreset ⊢
  refine ⟨?_, fun id hid => ?_⟩
  · rw [List.filter_append, hreset, if_pos rfl, historyTable_historyRows]
    rfl
  · rw [List.filter_append, hreset, if_neg hid, historyTable_historyRows_ne hid, List.append_nil]
    rfl

/-- Rows that are numbered from where the history ends violate no key. -/
theorem insertHistory_ok (db : Db) {n : Nat} (events : List HistoryEvent)
    (h : (db.historyTable id).map HistoryRow.sequenceNumber = List.range n) :
    ∃ db', db.insertHistory id n events = .ok db' := by
  unfold insertHistory
  dsimp only
  rw [if_neg]
  · exact ⟨_, rfl⟩
  · intro hconflict
    obtain ⟨r, hr, hx⟩ := List.any_eq_true.mp hconflict
    obtain ⟨x, hx, hkey⟩ := List.any_eq_true.mp hx
    obtain ⟨hid, hseq⟩ := of_decide_eq_true hkey
    have hr₁ : r.instanceID = id := by
      have hr' := (historyTable_historyRows id n events).symm ▸ hr
      exact of_decide_eq_true (List.mem_filter.mp hr').2
    have hr₂ : n ≤ r.sequenceNumber := by
      have hmem := List.mem_map_of_mem (f := HistoryRow.sequenceNumber) hr
      rw [map_sequenceNumber_historyRows, List.mem_range'_1] at hmem
      exact hmem.1
    have hx₂ : x.sequenceNumber < n := by
      have hmem : x ∈ db.historyTable id :=
        List.mem_filter.mpr ⟨hx, decide_eq_true (hid.trans hr₁)⟩
      have hmem := List.mem_map_of_mem (f := HistoryRow.sequenceNumber) hmem
      rw [h, List.mem_range] at hmem
      exact hmem
    omega

/-! ### What an instance and its history have in common -/

/-- The columns of an instance that its history determines. -/
structure Agrees (r : InstanceRow) (events : List HistoryEvent) : Prop where
  runtimeStatus : (∀ e ∈ events, e.getExecutionStalled = none) →
    r.runtimeStatus = (new r.instanceID none events).runtimeStatus
  executionID : ∀ es, (new r.instanceID none events).startEvent = some es →
    r.executionID = es.workflowInstance.executionIdValue
  output : r.output = (new r.instanceID none events).completedEvent.map (·.result.getD "")
  failureDetails : r.failureDetails =
    (new r.instanceID none events).completedEvent.bind ExecutionCompletedEvent.failureDetails

/-- The history of an instance is numbered without gaps, and all of it is loaded. -/
structure Recorded (rows : List HistoryRow) : Prop where
  contiguous : rows.map HistoryRow.sequenceNumber = List.range rows.length
  loadable : Loadable (rows.map HistoryRow.event)

/-- The tables `Instances` and `History` fit together. -/
structure Documented (db : Db) : Prop where
  recorded : ∀ id, Recorded (db.historyTable id)
  owned : ∀ id, db.instance? id = none → db.historyTable id = []
  agrees : ∀ id r, db.instance? id = some r → Agrees r ((db.historyTable id).map HistoryRow.event)

/-- Rows that are numbered without gaps are read in the order they were written in. -/
theorem historyOf_of_contiguous {n : Nat}
    (h : (db.historyTable id).map HistoryRow.sequenceNumber = List.range n) :
    db.historyOf id = (db.historyTable id).map HistoryRow.event := by
  have hsorted : (db.historyTable id).Pairwise (·.sequenceNumber ≤ ·.sequenceNumber) := by
    have hrange : (List.range n).Pairwise (· ≤ ·) := List.pairwise_le_range
    rw [← h, List.pairwise_map] at hrange
    exact hrange
  unfold Db.historyOf
  exact congrArg (List.map HistoryRow.event) hsorted.insertionSort_eq

theorem Recorded.historyOf (h : Recorded (db.historyTable id)) :
    db.historyOf id = (db.historyTable id).map HistoryRow.event :=
  historyOf_of_contiguous h.contiguous

/-- Loading keeps all events of a recorded history. -/
theorem Recorded.oldEvents (h : Recorded (db.historyTable id)) :
    (db.getWorkflowRuntimeState id).oldEvents = (db.historyTable id).map HistoryRow.event := by
  unfold getWorkflowRuntimeState
  rw [(new_events id none _).1, h.historyOf, h.loadable.keep_eq]

/-- What is loaded depends on the history only. -/
theorem getWorkflowRuntimeState_congr (h : db'.historyTable id = db.historyTable id) :
    db'.getWorkflowRuntimeState id = db.getWorkflowRuntimeState id := by
  unfold getWorkflowRuntimeState historyOf
  unfold historyTable at h
  rw [h]

theorem recorded_nil : Recorded [] := ⟨rfl, ⟨Nat.zero_le 1, Nat.zero_le 1, .nil⟩⟩

/-! ### One turn -/

/-- A processed work item that is still leased was made from the history there is. -/
def Processed (db : Db) (wi : WorkflowWorkItem) : Prop :=
  Turned (db.getWorkflowRuntimeState wi.instanceID) wi.state

section Turn

variable {wi : WorkflowWorkItem}

/-- What is kept and what is added are the events of the state. -/
theorem Processed.kept_events (h : Processed db wi) (hrec : Recorded (db.historyTable wi.instanceID)) :
    (db.kept wi).map HistoryRow.event = wi.state.oldEvents := by
  unfold kept
  cases hcan : wi.state.continuedAsNew with
  | true => exact (h.reset hcan).symm
  | false => exact hrec.oldEvents.symm.trans (h.kept hcan).symm

theorem Processed.kept_numbers (h : Processed db wi)
    (hrec : Recorded (db.historyTable wi.instanceID)) :
    (db.kept wi).map HistoryRow.sequenceNumber = List.range wi.state.oldEvents.length := by
  rw [← h.kept_events hrec, List.length_map]
  unfold kept
  split
  · rfl
  · exact hrec.contiguous

/-- The history after a turn. -/
theorem Processed.recorded (h : Processed db wi) (hrec : Recorded (db.historyTable wi.instanceID)) :
    Recorded (db.kept wi ++ historyRows wi.instanceID wi.state.oldEvents.length
      wi.state.newEvents) ∧
      (db.kept wi ++ historyRows wi.instanceID wi.state.oldEvents.length wi.state.newEvents).map
        HistoryRow.event = wi.state.allEvents := by
  have hevents : (db.kept wi ++ historyRows wi.instanceID wi.state.oldEvents.length
      wi.state.newEvents).map HistoryRow.event = wi.state.allEvents := by
    rw [List.map_append, h.kept_events hrec, map_event_historyRows]
    rfl
  have hlength := congrArg List.length hevents
  rw [List.length_map] at hlength
  refine ⟨⟨?_, ?_⟩, hevents⟩
  · have hrange := List.range'_append_1 (s := 0) (m := wi.state.oldEvents.length)
      (n := wi.state.newEvents.length)
    rw [Nat.zero_add] at hrange
    rw [List.map_append, h.kept_numbers hrec, map_sequenceNumber_historyRows, hlength,
      WorkflowRuntimeState.allEvents, List.length_append, List.range_eq_range', List.range_eq_range',
      hrange]
  · rw [hevents]
    exact h.coherent.loadable

/-- The loaded state, in terms of the table. -/
theorem Recorded.getWorkflowRuntimeState (h : Recorded (db.historyTable id)) :
    db.getWorkflowRuntimeState id = new id none ((db.historyTable id).map HistoryRow.event) := by
  unfold Db.getWorkflowRuntimeState
  rw [h.historyOf]

/-- After a turn its state is loaded. -/
theorem Processed.load (h : Processed db wi) (hrec : Recorded (db.historyTable wi.instanceID))
    {now : Time} (hturn : ((db.commitInstance now wi).resetGeneration wi).insertHistory wi.instanceID
      wi.state.oldEvents.length wi.state.newEvents = .ok db') :
    (db'.getWorkflowRuntimeState wi.instanceID).startEvent = wi.state.startEvent ∧
      (db'.getWorkflowRuntimeState wi.instanceID).completedEvent = wi.state.completedEvent := by
  obtain ⟨hown, -⟩ := historyTable_turn hturn
  obtain ⟨hrec', hevents⟩ := h.recorded hrec
  rw [← hown] at hrec' hevents
  rw [hrec'.getWorkflowRuntimeState, hevents]
  obtain ⟨-, hstart, hcompleted, -⟩ := h.coherent.new_eq wi.instanceID none
  exact ⟨hstart, hcompleted⟩

/-- Without a stalled event in its history an instance is not stalled. -/
theorem Processed.stalled_eq_none (h : Processed db wi)
    (hrec : Recorded (db.historyTable wi.instanceID))
    (hnot : ∀ e ∈ wi.state.allEvents, e.getExecutionStalled = none) :
    wi.state.stalled = none := by
  rcases h.stalled with hstalled | ⟨hstalled, -, hcan⟩
  · exact hstalled
  · rw [hstalled, hrec.getWorkflowRuntimeState]
    refine new_stalled _ _ fun e he => hnot e ?_
    have hkept := h.kept_events hrec
    unfold kept at hkept
    rw [hcan] at hkept
    exact List.mem_append_left _ (hkept ▸ he)

/-- What the row says about a kind of event: the one of this turn, or the one there was. -/
theorem Processed.findSome? {α : Type} (h : Processed db wi)
    (hrec : Recorded (db.historyTable wi.instanceID)) {f : HistoryEvent → Option α}
    (hf : (wi.state.allEvents.filterMap f).length ≤ 1) :
    wi.state.allEvents.findSome? f = (wi.state.newEvents.findSome? f).or
      (((db.kept wi).map HistoryRow.event).findSome? f) := by
  rw [h.kept_events hrec]
  exact findSome?_append_of_length_le_one hf

theorem Processed.agrees (h : Processed db wi) (hrec : Recorded (db.historyTable wi.instanceID))
    {r : InstanceRow} (hid : r.instanceID = wi.instanceID)
    (hr : Agrees r ((db.historyTable wi.instanceID).map HistoryRow.event)) (now : Time) :
    Agrees (r.commit now wi.state) wi.state.allEvents := by
  have hc := h.coherent
  obtain ⟨-, hstart, hcompleted, hsuspended⟩ := hc.new_eq r.instanceID none
  obtain ⟨hexec, hout, hfail, hstatus⟩ := InstanceRow.commit_columns now wi.state r
  have hframe := (InstanceRow.commit_frame now wi.state r).1
  -- A workflow that continues as new had not completed.
  have hkept : (new wi.instanceID none
      ((db.historyTable wi.instanceID).map HistoryRow.event)).completedEvent =
      ((db.kept wi).map HistoryRow.event).findSome? HistoryEvent.getExecutionCompleted := by
    unfold kept
    cases hcan : wi.state.continuedAsNew with
    | true => exact hrec.getWorkflowRuntimeState ▸ h.incomplete hcan
    | false => exact (new_frame _ _ _).2.2.2.2
  refine ⟨fun hnot => ?_, fun es hes => ?_, ?_, ?_⟩
  · rw [hstatus, hframe]
    exact (runtimeStatus_congr hstart hcompleted hsuspended
      ((new_stalled _ _ hnot).trans (h.stalled_eq_none hrec hnot).symm)).symm
  · rw [hframe, hstart, hc.startEvent, h.findSome? hrec hc.loadable.started] at hes
    rw [hexec]
    cases hnew : wi.state.newEvents.findSome? HistoryEvent.getExecutionStarted with
    | some es' =>
      rw [hnew] at hes
      cases hes
      rfl
    | none =>
      rw [hnew, Option.none_or] at hes
      refine hr.executionID es ?_
      unfold kept at hes
      split at hes
      · cases hes
      · rw [(new_frame _ _ _).2.2.2.1]
        exact hes
  all_goals
    rw [hframe, hcompleted, hc.completedEvent, h.findSome? hrec hc.loadable.completed]
  · rw [hout]
    cases hnew : wi.state.newEvents.findSome? HistoryEvent.getExecutionCompleted with
    | some ec => rfl
    | none =>
      rw [Option.map_none, Option.none_or, Option.none_or, hr.output, hid, hkept]
  · rw [hfail]
    cases hnew : wi.state.newEvents.findSome? HistoryEvent.getExecutionCompleted with
    | some ec => rfl
    | none =>
      rw [Option.map_none, Option.getD_none, Option.none_or, hr.failureDetails, hid, hkept]

end Turn

/-! ### Every statement -/

theorem Agrees.of_columns {r r' : InstanceRow} {events : List HistoryEvent} (h : Agrees r events)
    (hid : r'.instanceID = r.instanceID) (hstatus : r'.runtimeStatus = r.runtimeStatus)
    (hexec : r'.executionID = r.executionID) (hout : r'.output = r.output)
    (hfail : r'.failureDetails = r.failureDetails) : Agrees r' events := by
  refine ⟨fun hnot => ?_, fun es hes => ?_, ?_, ?_⟩
  · rw [hstatus, hid]
    exact h.runtimeStatus hnot
  · rw [hexec]
    exact h.executionID es (hid ▸ hes)
  · rw [hout, hid]
    exact h.output
  · rw [hfail, hid]
    exact h.failureDetails

theorem Documented.create {e : HistoryEvent} (h : db.Documented)
    (hcreate : db.createWorkflowInstanceInternal e = .ok db') : db'.Documented := by
  obtain ⟨r, hnone, -, -, -, -, hstatus, hout, hfail, -, rfl⟩ :=
    createWorkflowInstanceInternal_eq hcreate
  have hinst := instance?_append db r
  refine ⟨h.recorded, fun id hid => h.owned id ?_, fun id r' hr' => ?_⟩
  · rw [hinst, Option.or_eq_none_iff] at hid
    exact hid.1
  · rw [hinst] at hr'
    cases hold : db.instance? id with
    | some r₀ =>
      rw [hold] at hr'
      cases hr'
      exact h.agrees id _ hold
    | none =>
      rw [hold, Option.none_or] at hr'
      split at hr'
      · cases hr'
        have hempty : db.historyTable id = [] := h.owned id hold
        -- A new instance is pending and has no history.
        have hhist : ({ db with instances := db.instances ++ [r] } : Db).historyTable id = [] := hempty
        rw [hhist]
        exact ⟨fun _ => hstatus, nofun, hout, hfail⟩
      · cases hr'

theorem Documented.delete (h : db.Documented) (id' : InstanceID) :
    (db.deleteInstance id').Documented := by
  have hinst := instance?_deleteInstance db id'
  have hhist (id : InstanceID) : (db.deleteInstance id').historyTable id =
      if id = id' then [] else db.historyTable id := by
    by_cases hid : id = id'
    · rw [if_pos hid, hid]
      exact filter_delete_eq_nil fun r _ h => h
    · rw [if_neg hid]
      exact historyTable_deleteInstance db hid
  refine ⟨fun id => ?_, fun id hnone => ?_, fun id r hr => ?_⟩
  · rw [hhist]
    split
    · exact recorded_nil
    · exact h.recorded id
  · rw [hhist]
    split
    · rfl
    · next hid =>
      rw [hinst, if_neg hid] at hnone
      exact h.owned id hnone
  · rw [hinst] at hr
    split at hr
    · cases hr
    · next hid =>
      rw [hhist, if_neg hid]
      exact h.agrees id r hr

theorem Documented.turn {now : Time} {wi : WorkflowWorkItem} (h : db.Documented)
    (leased : db.leasedBy wi.instanceID wi.lockedBy) (held : Processed db wi)
    (hturn : ((db.commitInstance now wi).resetGeneration wi).insertHistory wi.instanceID
      wi.state.oldEvents.length wi.state.newEvents = .ok db') : db'.Documented := by
  have hrec := h.recorded wi.instanceID
  obtain ⟨hown, hother⟩ := historyTable_turn hturn
  obtain ⟨hrec', hevents⟩ := held.recorded hrec
  have hinst := instance?_turn hturn
  obtain ⟨r₀, hr₀, hlock⟩ := leased
  have hleased : r₀.isLeased wi = true := by
    simp [InstanceRow.isLeased, instanceID_of_instance? hr₀, hlock]
  refine ⟨fun id => ?_, fun id hnone => ?_, fun id r hr => ?_⟩
  · by_cases hid : id = wi.instanceID
    · rw [hid, hown]
      exact hrec'
    · rw [hother id hid]
      exact h.recorded id
  · rw [hinst, Option.map_eq_none_iff] at hnone
    have hid : id ≠ wi.instanceID := by
      rintro rfl
      rw [hr₀] at hnone
      cases hnone
    rw [hother id hid]
    exact h.owned id hnone
  · rw [hinst] at hr
    obtain ⟨r', hr', rfl⟩ := Option.map_eq_some_iff.mp hr
    by_cases hid : id = wi.instanceID
    · subst hid
      rw [hr₀] at hr'
      cases hr'
      rw [hown, hevents, if_pos hleased]
      exact held.agrees hrec (instanceID_of_instance? hr₀) (h.agrees _ _ hr₀) now
    · have hnot : ¬r'.isLeased wi = true := by
        intro hl
        have hl : r'.instanceID = wi.instanceID := of_decide_eq_true (Bool.and_eq_true_iff.mp hl).1
        exact hid ((instanceID_of_instance? hr').symm.trans hl)
      rw [hother id hid, if_neg hnot]
      exact h.agrees id r' hr'

theorem Documented.ledger (h : db.Documented) (hstep : Ledger Processed db db') : db'.Documented := by
  cases hstep with
  | queues instances history =>
    have hinst (id : InstanceID) : db'.instance? id = db.instance? id := by
      unfold instance?
      rw [instances]
    have hhist (id : InstanceID) : db'.historyTable id = db.historyTable id := by
      unfold historyTable
      rw [history]
    exact ⟨fun id => hhist id ▸ h.recorded id, fun id hid => hhist id ▸ h.owned id (hinst id ▸ hid),
      fun id r hr => hhist id ▸ h.agrees id r (hinst id ▸ hr)⟩
  | lock p lockedBy lockExpiration instances history =>
    have hinst (id : InstanceID) : db'.instance? id = (db.instance? id).map fun r =>
        if p r then r.setLock lockedBy lockExpiration else r := by
      unfold instance?
      rw [instances]
      exact find?_update fun _ => rfl
    have hhist (id : InstanceID) : db'.historyTable id = db.historyTable id := by
      unfold historyTable
      rw [history]
    refine ⟨fun id => hhist id ▸ h.recorded id, fun id hid => ?_, fun id r hr => ?_⟩
    · rw [hinst, Option.map_eq_none_iff] at hid
      exact hhist id ▸ h.owned id hid
    · rw [hinst] at hr
      obtain ⟨r', hr', rfl⟩ := Option.map_eq_some_iff.mp hr
      rw [hhist]
      split
      · exact (h.agrees id r' hr').of_columns rfl rfl rfl rfl rfl
      · exact h.agrees id r' hr'
  | create hcreate => exact h.create hcreate
  | delete id => exact h.delete id
  | turn leased held hturn => exact h.turn leased held hturn

theorem Documented.ledgers (h : db.Documented) (hsteps : Ledgers Processed db db') :
    db'.Documented := by
  induction hsteps with
  | refl => exact h
  | tail _ hstep ih => exact ih.ledger hstep

/-! ### The errors of a commit -/

theorem enqueueChildResult_error {wi : WorkflowWorkItem} {origin : Origin}
    {msg : WorkflowRuntimeStateMessage} {err : StoreError}
    (h : db.enqueueChildResult wi origin msg = .error err) :
    ∃ reason, err = .childExecutionProvenanceRequired reason := by
  have hgeneration {err : StoreError}
      (h : childResultExecutionID wi.state msg.targetInstanceId = .error err) :
      ∃ reason, err = .childExecutionProvenanceRequired reason := by
    unfold childResultExecutionID at h
    dsimp only at h
    split at h <;> cases h
    exact ⟨_, rfl⟩
  unfold enqueueChildResult at h
  rcases Except.bind_eq_error.mp h with h | ⟨generation, -, h⟩
  · exact hgeneration h
  · split at h
    · cases h
    · rcases Except.bind_eq_error.mp h with h | ⟨_, -, h⟩
      · unfold validateChildDestination at h
        split at h
        · cases h
        · split at h <;> cases h
          exact ⟨_, rfl⟩
      · split at h <;> cases h

theorem createWorkflowInstanceInternal_error {e : HistoryEvent} {err : StoreError}
    (h : db.createWorkflowInstanceInternal e = .error err) :
    err = .notExecutionStarted ∨ err = .duplicateInstance := by
  unfold createWorkflowInstanceInternal at h
  split at h
  · cases h
    exact .inl rfl
  · split at h <;> cases h
    exact .inr rfl

theorem startInstance_error {msg : WorkflowRuntimeStateMessage} {err : StoreError}
    (h : db.startInstance msg = .error err) :
    err = .notExecutionStarted ∨ err = .duplicateInstance ∨ err = .childInstanceCollision := by
  unfold startInstance at h
  split at h
  · cases h
  · split at h
    · cases h
    · split at h
      · split at h <;> cases h
        exact .inr (.inr rfl)
      · split at h
        · cases h
        · next hcreate =>
          split at h <;> cases h
          exact (createWorkflowInstanceInternal_error hcreate).imp_right .inl
    · next hcreate =>
      cases h
      exact (createWorkflowInstanceInternal_error hcreate).imp_right .inl

/-- Only the rows of its own turn can make a commit fail on the key of `History`. -/
theorem insertHistory_of_conflict {now : Time} {wi : WorkflowWorkItem}
    (h : db.completeWorkflowWorkItem now wi = .error .historyKeyConflict) :
    db.instances.any (InstanceRow.isLeased wi) = true ∧
      ((db.commitInstance now wi).resetGeneration wi).insertHistory wi.instanceID
        wi.state.oldEvents.length wi.state.newEvents = .error .historyKeyConflict := by
  unfold completeWorkflowWorkItem at h
  dsimp only at h
  split at h
  · cases h
  · next hleased =>
    refine ⟨by simpa using hleased, ?_⟩
    rcases Except.bind_eq_error.mp h with h | ⟨_, -, h⟩
    · exact h
    rcases Except.bind_eq_error.mp h with h | ⟨_, -, h⟩
    · obtain ⟨_, _, -, h⟩ := Except.foldlM_error h
      obtain ⟨reason, h⟩ := enqueueChildResult_error h
      cases h
    rcases Except.bind_eq_error.mp h with h | ⟨_, -, h⟩
    · obtain ⟨_, _, -, h⟩ := Except.foldlM_error h
      rcases startInstance_error h with h | h | h <;> cases h
    · unfold acknowledge at h
      split at h <;> cases h

end Db

/-! ### Every run -/

namespace System

variable (opts : SqliteOptions) (ops : List Op)

/-- The tables fit together, whatever the calls and whatever the executors answer. -/
theorem documented_maintained :
    Maintained opts (fun _ _ => True) Db.Documented (fun _ _ => True) Db.Processed where
  init := ⟨fun _ => Db.recorded_nil, fun _ _ => rfl, fun _ _ h => by cases h⟩
  transaction _ _ h htx := h.ledgers htx.ledgers
  acquire _ _ _ := trivial
  process := by
    intro s w env wi wi' _ _ _ _ hproc
    have hid := (processWorkItem_lease hproc).1
    have hturned := Turned.processWorkItem (coherent_new _ _ _)
      (congrArg (·.2.2.2.2.1) (foldl_addOrDrop_frame false _ _).1) (new_events _ _ _).2 hproc
    unfold Db.Processed
    rw [hid]
    exact hturned
  acquired _ _ _ := trivial
  processed := by
    intro db db' wi hkeeps hl h
    unfold Db.Processed at h ⊢
    rw [Db.getWorkflowRuntimeState_congr (hkeeps wi.instanceID hl).2.1]
    exact h

/-- The `History` rows of an instance are numbered from 0 without gaps, loading them keeps all events
in order, and no commit of a processed work item violates the key of `History`. -/
theorem history_contiguous (id : InstanceID) :
    ((run opts ops).db.historyTable id).map HistoryRow.sequenceNumber =
        List.range ((run opts ops).db.historyTable id).length ∧
      ((run opts ops).db.getWorkflowRuntimeState id).oldEvents =
        ((run opts ops).db.historyTable id).map HistoryRow.event ∧
      ∀ wi ∈ (run opts ops).processed, ∀ now,
        (run opts ops).db.completeWorkflowWorkItem now wi ≠ .error .historyKeyConflict := by
  have h := (documented_maintained opts).run ops fun _ _ _ _ => trivial
  refine ⟨(h.store.recorded id).contiguous, (h.store.recorded id).oldEvents,
    fun wi hwi now hconflict => ?_⟩
  obtain ⟨hleased, hinsert⟩ := Db.insertHistory_of_conflict hconflict
  have hturned := h.processed wi hwi (h.keyed.leasedBy hleased)
  have hnumbers := hturned.kept_numbers (h.store.recorded wi.instanceID)
  have hreset := Db.historyTable_resetGeneration ((run opts ops).db.commitInstance now wi) wi
    wi.instanceID
  rw [if_pos rfl] at hreset
  obtain ⟨db', hok⟩ := Db.insertHistory_ok
    (((run opts ops).db.commitInstance now wi).resetGeneration wi) wi.state.newEvents
    ((congrArg _ hreset).trans hnumbers)
  rw [hok] at hinsert
  cases hinsert

/-- The row of an instance agrees with what its history loads to: its execution id, output and failure
details always, and its status unless the history has an `ExecutionStalled` event. -/
theorem metadata_agrees (id : InstanceID) (r : InstanceRow)
    (hr : (run opts ops).db.instance? id = some r) :
    ((∀ e ∈ (run opts ops).db.historyOf id, e.getExecutionStalled = none) →
        r.runtimeStatus = ((run opts ops).db.getWorkflowRuntimeState id).runtimeStatus) ∧
      (∀ es, ((run opts ops).db.getWorkflowRuntimeState id).startEvent = some es →
        r.executionID = es.workflowInstance.executionIdValue) ∧
      r.output = ((run opts ops).db.getWorkflowRuntimeState id).completedEvent.map
        (·.result.getD "") ∧
      r.failureDetails = ((run opts ops).db.getWorkflowRuntimeState id).completedEvent.bind
        ExecutionCompletedEvent.failureDetails := by
  have h := ((documented_maintained opts).run ops fun _ _ _ _ => trivial).store
  have hid := Db.instanceID_of_instance? hr
  have hagrees := h.agrees id r hr
  rw [← (h.recorded id).historyOf] at hagrees
  subst hid
  exact ⟨hagrees.runtimeStatus, hagrees.executionID, hagrees.output, hagrees.failureDetails⟩

end System

namespace StalledExample

def opts : SqliteOptions := { workflowLockTimeout := 100, activityLockTimeout := 100 }

def start : HistoryEvent :=
  { eventType := .executionStarted { name := "wf", workflowInstance := ⟨"a", some "e1"⟩ } }

/-- Continue as new once, and carry over the given events. -/
def processor (carryoverEvents : List HistoryEvent) : WorkflowProcessor :=
  { executor := fun k _ _ _ _ => .ok
      { actions := if k = 0 then
          [{ id := 0
             actionType := .completeWorkflow
               { workflowStatus := .continuedAsNew, carryoverEvents := carryoverEvents } }]
        else [] }
    applier := ⟨"app", ""⟩ }

def ops (carryoverEvents : List HistoryEvent) : List Op :=
  [.createWorkflowInstance start, .getWorkflowWorkItem 1 "t1",
   .processWorkItem "t1" (processor carryoverEvents) OutboxExample.processEnv,
   .completeWorkflowWorkItem "t1" 2]

/-- A stalled event that an executor carries over is never queued, but it is loaded. -/
theorem carried_over_stalled :
    let db := (System.run opts
      (ops [{ eventType := .executionStalled { reason := .versionNotAvailable } }])).db
    (∀ e ∈ db.enqueued, e.event = start) ∧ db.historyOf "a" ≠ [] ∧
      (db.instance? "a").map InstanceRow.runtimeStatus = some .running ∧
      (db.getWorkflowRuntimeState "a").runtimeStatus = .stalled := by
  decide

/-- Without one the row and the history agree. -/
theorem continued_as_new_agrees :
    ∃ r, (System.run opts (ops [])).db.instance? "a" = some r ∧
      r.runtimeStatus = ((System.run opts (ops [])).db.getWorkflowRuntimeState "a").runtimeStatus := by
  refine ⟨_, rfl, (System.metadata_agrees opts (ops []) "a" _ rfl).1 ?_⟩
  decide

end StalledExample

end DurableTask.Sqlite
