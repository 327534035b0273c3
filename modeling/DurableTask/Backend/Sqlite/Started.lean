import DurableTask.Backend.Answer
import DurableTask.Backend.Sqlite.Rows
import DurableTask.Backend.Sqlite.Stall

/-!
# Starting an instance

An instance is created together with a row of the queue that starts it. If the first batch of every
instance brings that row, every history has a start event, no start is lost, and an instance that has
completed has the status of its completion.
-/

namespace DurableTask

/-- A completion event has a status that meets a condition. -/
def HistoryEvent.EndsIn (Q : OrchestrationStatus → Prop) (e : HistoryEvent) : Prop :=
  ∀ ec, e.getExecutionCompleted = some ec → Q ec.workflowStatus

/-- An executor that ends workflows with a status that meets a condition, or continues them as new. -/
def WorkflowExecutor.EndsIn (Q : OrchestrationStatus → Prop) (x : WorkflowExecutor) : Prop :=
  ∀ k id oldEvents newEvents incomingHistory response,
    x k id oldEvents newEvents incomingHistory = .ok response →
    ∀ action ∈ response.actions, ∀ c, action.getCompleteWorkflow = some c →
      (c.workflowStatus = .continuedAsNew ∨ Q c.workflowStatus) ∧
      ∀ e ∈ c.carryoverEvents, e.EndsIn Q

/-- A workflow that has started. If it has ended, its status meets the condition; the messages that
start other workflows are addressed to them. -/
structure Begun (Q : OrchestrationStatus → Prop) (s : WorkflowRuntimeState) : Prop where
  started : s.startEvent.isSome = true
  ended : ∀ ec, s.completedEvent = some ec → Q ec.workflowStatus
  addressed : ∀ m ∈ s.pendingMessages, ∀ id, m.starts = some id → m.targetInstanceId = id

variable {Q : OrchestrationStatus → Prop} {s s' : WorkflowRuntimeState}

theorem Begun.congr (h : Begun Q s) (hstart : s'.startEvent = s.startEvent)
    (hcompleted : s'.completedEvent = s.completedEvent)
    (hmsgs : ∀ m ∈ s'.pendingMessages, ∀ id, m.starts = some id → m.targetInstanceId = id) :
    Begun Q s' :=
  ⟨hstart ▸ h.started, hcompleted ▸ h.ended, hmsgs⟩

namespace Applier

variable {a : Applier} {env : ApplyEnv} {receivedHistory : Option PropagatedHistory}
  {customStatus : Option String} {resolved : DedupSet} {i : Nat}

/-- A message that starts a workflow is addressed to it. -/
theorem effect_starts {action : WorkflowAction} {f : Effect}
    (h : a.effect env receivedHistory i resolved s action = .ok f) {m : WorkflowRuntimeStateMessage}
    (hm : f.message = some m) {id : InstanceID} (hid : m.starts = some id) :
    m.targetInstanceId = id := by
  rcases action with ⟨actionID, body, router⟩
  cases body with
  | completeWorkflow c =>
    cases h
    unfold completeWorkflow at hm
    split at hm
    · cases hm
    · obtain ⟨p, -, rfl⟩ := Option.map_eq_some_iff.mp hm
      by_cases hc : c.workflowStatus = .completed <;>
        simp [WorkflowRuntimeStateMessage.starts, HistoryEvent.getExecutionStarted, childResult, hc] at hid
  | createChildWorkflow c =>
    simp only [effect, createChildWorkflow] at h
    split at h
    · cases h
      cases hm
    · split at h <;> cases h
      cases hm
      cases hid
      rfl
  | createDetachedWorkflow c =>
    simp only [effect, createDetachedWorkflow] at h
    split at h <;> cases h
    cases hm
    cases hid
    rfl
  | scheduleTask t =>
    cases h
    unfold scheduleTask at hm
    dsimp only at hm
    split at hm <;> cases hm
  | createTimer => cases h; cases hm
  | sendEvent | terminateWorkflow | workflowVersionNotAvailable =>
    cases h
    cases hm
    cases hid
  | unset => cases h

theorem begun_effect {action : WorkflowAction} {f : Effect} (hs : Begun Q s)
    (hcan : s.completedEvent = none → continueAsNewAction action = none)
    (hc : ∀ c, action.getCompleteWorkflow = some c →
      c.workflowStatus = .continuedAsNew ∨ Q c.workflowStatus)
    (h : a.effect env receivedHistory i resolved s action = .ok f) : Begun Q (f.apply s) := by
  obtain ⟨-, -, hstart, hcompleted, -⟩ := (effect_round h).apply
  refine ⟨hstart ▸ hs.started, fun ec hec => ?_, fun m hm id hid => ?_⟩
  · rw [hcompleted] at hec
    cases effect_ends h with
    | idle event message idle =>
      rw [event, Option.or_none] at hec
      exact hs.ended ec hec
    | completes c completion incomplete event message =>
      rw [incomplete, event] at hec
      cases hec
      refine (hc c completion).resolve_left fun hstatus => ?_
      have hnot := hcan incomplete
      unfold continueAsNewAction at hnot
      unfold WorkflowAction.getCompleteWorkflow at completion
      split at completion <;> cases completion
      next heq => simp [heq, hstatus] at hnot
  · rw [f.pendingMessages_apply, List.mem_append, Option.mem_toList] at hm
    rcases hm with hm | hm
    · exact hs.addressed m hm id hid
    · exact effect_starts h hm hid

theorem foldl_addEvent_endsIn {es : List HistoryEvent}
    (hs : ∀ ec, s.completedEvent = some ec → Q ec.workflowStatus) (hes : ∀ e ∈ es, e.EndsIn Q) :
    ∀ ec, (es.foldl WorkflowRuntimeState.addEvent s).completedEvent = some ec →
      Q ec.workflowStatus := by
  refine List.foldlRecOn (motive := fun s : WorkflowRuntimeState =>
    ∀ ec, s.completedEvent = some ec → Q ec.workflowStatus) es _ hs fun s hs e he ec hec => ?_
  rw [WorkflowRuntimeState.addEvent_completedEvent, Option.or_eq_some_iff] at hec
  rcases hec with hec | ⟨-, hec⟩
  · exact hs ec hec
  · exact hes e he ec hec

theorem begun_continueAsNewState {router : TaskRouter} {c : CompleteWorkflowAction}
    {startEvent : ExecutionStartedEvent} (hc : ∀ e ∈ c.carryoverEvents, e.EndsIn Q) :
    Begun Q (continueAsNewState env i router customStatus c s startEvent) := by
  have hmsgs : (continueAsNewState env i router customStatus c s startEvent).pendingMessages = [] :=
    congrArg (·.2.2.2.1) (continueAsNewState_frame i router c startEvent).1
  refine ⟨?_, foldl_addEvent_endsIn (by rintro ec ⟨⟩) hc, fun m hm => ?_⟩
  · exact Option.isSome_iff_exists.mpr ⟨_, foldl_addEvent_started rfl⟩
  · rw [hmsgs] at hm
    cases hm

theorem begun_actions {actions : List WorkflowAction} {result : ActionsResult} (hs : Begun Q s)
    (hactions : ∀ action ∈ actions, ∀ c, action.getCompleteWorkflow = some c →
      (c.workflowStatus = .continuedAsNew ∨ Q c.workflowStatus) ∧
      ∀ e ∈ c.carryoverEvents, e.EndsIn Q)
    (h : a.actions env receivedHistory s customStatus actions = .ok (result, s')) : Begun Q s' := by
  have hs : Begun Q { s with customStatus := customStatus, stalled := none } :=
    hs.congr rfl rfl hs.addressed
  refine applyActions_invariant (fun hs hmem hcan hf => ?_) (fun _ hmem hc _ _ => ?_) hs h
  · exact begun_effect hs hcan (fun c hc => (hactions _ hmem c hc).1) hf
  · exact begun_continueAsNewState
      (hactions _ hmem _ (getCompleteWorkflow_of_continueAsNewAction hc)).2

end Applier

theorem begun_runGeneration {w : WorkflowProcessor} {env : ProcessEnv} {instanceID : InstanceID}
    {terminateEvent : Option ExecutionTerminatedEvent} {k : Nat}
    {incomingHistory : Option PropagatedHistory} {g : Generation} {result : ActionsResult}
    (hw : w.Executors (WorkflowExecutor.EndsIn Q)) (hs : Begun Q s)
    (h : w.runGeneration env instanceID terminateEvent k s incomingHistory = .ok (g, result, s')) :
    Begun Q s' := by
  obtain ⟨response, actions, hresponse, hactions, happly⟩ := runGeneration_actions h
  have hs : Begun Q (s.recordVersion response.version) := by
    rw [recordVersion_frame s response.version]
    exact hs.congr rfl rfl hs.addressed
  refine Applier.begun_actions hs (fun action haction => ?_) happly
  exact hw.selectExecutor s k instanceID _ _ _ response hresponse action (hactions action haction)

/-- A processed work item has started its instance, if the instance had started or had no history and
its first batch starts it. -/
theorem begun_processWorkItem {w : WorkflowProcessor} {env : ProcessEnv} {wi wi' : WorkflowWorkItem}
    (hw : w.Executors (WorkflowExecutor.EndsIn Q)) (hterminated : Q .terminated)
    (hstart : wi.state.startEvent.isSome = true ∨ wi.state.isValid = true ∧
      wi.state.isCompleted = false ∧ ∃ e ∈ wi.newEvents, e.getExecutionStarted.isSome = true)
    (hended : ∀ ec, wi.state.completedEvent = some ec → Q ec.workflowStatus)
    (hbatch : ∀ e ∈ wi.newEvents, e.EndsIn Q) (hmsgs : wi.state.pendingMessages = [])
    (h : w.processWorkItem env wi = .ok wi') : Begun Q wi'.state := by
  have hcascade {s : WorkflowRuntimeState} {msgs : List WorkflowRuntimeStateMessage} (hs : Begun Q s)
      (hmsgs : ∀ m ∈ msgs, ∃ et, m.historyEvent.eventType = .executionTerminated et) :
      Begun Q { s with pendingMessages := s.pendingMessages ++ msgs } := by
    refine hs.congr rfl rfl fun m hm id hid => ?_
    rcases List.mem_append.mp hm with hm | hm
    · exact hs.addressed m hm id hid
    · obtain ⟨et, het⟩ := hmsgs m hm
      simp [WorkflowRuntimeStateMessage.starts, HistoryEvent.getExecutionStarted, het] at hid
  have hturn := processWorkItem_invariant (J := Begun Q) (fun hs h => begun_runGeneration hw hs h) ?forced
    hcascade ?start h
  case forced =>
    intro s et s' hs _ hforced
    have hs : Begun Q { s with pendingTasks := [], pendingTimers := [], pendingMessages := [] } :=
      hs.congr rfl rfl fun m hm => absurd hm List.not_mem_nil
    refine Applier.begun_actions hs (fun action haction c hc => ?_) hforced
    rw [List.mem_singleton.mp haction] at hc
    cases hc
    exact ⟨.inr hterminated, fun e he => absurd he List.not_mem_nil⟩
  case start =>
    intro hincomplete
    obtain ⟨hout, hs, hc⟩ := (wi.state.addEvent
      { timestamp := env.turnStartedAt, eventType := .workflowStarted none }).addEvents_frame
      wi.newEvents
    have hout := hout.trans (wi.state.addEvent_outbox
      { timestamp := env.turnStartedAt, eventType := .workflowStarted none })
    rw [WorkflowRuntimeState.addEvent_startEvent] at hs
    rw [WorkflowRuntimeState.addEvent_completedEvent, hincomplete] at hc
    generalize (wi.state.addEvent
      { timestamp := env.turnStartedAt, eventType := .workflowStarted none }).addEvents wi.newEvents =
      s₁ at hout hs hc ⊢
    have hmsgs₁ : s₁.pendingMessages = wi.state.pendingMessages := congrArg (·.2.2.2.1) hout
    refine ⟨?_, fun ec hec => ?_, fun m hm => ?_⟩
    · rw [hs]
      rcases hstart with hstart | ⟨-, -, e, he, hes⟩
      · rw [Option.isSome_or, Option.isSome_or, hstart]
        rfl
      · rw [Option.isSome_or, List.findSome?_isSome_iff.mpr ⟨e, he, hes⟩, Bool.or_true]
    · rw [hc] at hec
      obtain ⟨e, he, hec⟩ := List.exists_of_findSome?_eq_some hec
      exact hbatch e he ec hec
    · rw [hmsgs₁, hmsgs] at hm
      cases hm
  rcases hturn with ⟨unfit, msgs, heq, hmsgs'⟩ | ⟨-, hturn⟩
  · have hstarted : wi.state.startEvent.isSome = true := by
      rcases hstart with hstart | ⟨hvalid, hincomplete, -⟩
      · exact hstart
      · rw [hvalid, hincomplete] at unfit
        exact absurd unfit (by decide)
    rw [heq]
    refine hcascade ⟨hstarted, hended, fun m hm => ?_⟩ hmsgs'
    rw [hmsgs] at hm
    cases hm
  · exact hturn

namespace Sqlite

open Table

namespace Db

variable {db db' : Db} {id : InstanceID} {now : Time} {wi : WorkflowWorkItem}

/-- What is known of a processed work item: its instance has started. -/
structure Starting (Q : OrchestrationStatus → Prop) (db : Db) (wi : WorkflowWorkItem) : Prop where
  processed : Processed db wi
  begun : Begun Q wi.state

/-! ### Instances and history -/

/-- Every history has a start event. An instance that has completed has the status of its completion,
which meets the condition. -/
structure Begins (Q : OrchestrationStatus → Prop) (db : Db) : Prop where
  started : ∀ id, db.historyTable id ≠ [] → (db.getWorkflowRuntimeState id).startEvent.isSome = true
  ended : ∀ id ec, (db.getWorkflowRuntimeState id).completedEvent = some ec → Q ec.workflowStatus
  status : ∀ id r ec, db.instance? id = some r →
    (db.getWorkflowRuntimeState id).completedEvent = some ec → r.runtimeStatus = ec.workflowStatus

theorem getWorkflowRuntimeState_of_nil (h : db.historyTable id = []) :
    db.getWorkflowRuntimeState id = .new id none [] := by
  have heq : db.historyTable id = ({} : Db).historyTable id := h
  rw [getWorkflowRuntimeState_congr heq]
  rfl

/-- Statements that keep or delete histories, and keep the status of an instance with a history. -/
theorem Begins.of_rows (h : db.Begins Q)
    (hhist : ∀ id, db'.historyTable id = db.historyTable id ∨ db'.historyTable id = [])
    (hrow : ∀ id r', db'.instance? id = some r' → db'.historyTable id ≠ [] →
      ∃ r, db.instance? id = some r ∧ r'.runtimeStatus = r.runtimeStatus) : db'.Begins Q := by
  -- A history that has completed is not empty.
  have hcompleted (id : InstanceID) (ec : ExecutionCompletedEvent)
      (hec : (db'.getWorkflowRuntimeState id).completedEvent = some ec) :
      db'.historyTable id ≠ [] ∧ (db.getWorkflowRuntimeState id).completedEvent = some ec := by
    rcases hhist id with heq | hnil
    · refine ⟨fun hnil => ?_, getWorkflowRuntimeState_congr heq ▸ hec⟩
      rw [getWorkflowRuntimeState_of_nil hnil] at hec
      cases hec
    · rw [getWorkflowRuntimeState_of_nil hnil] at hec
      cases hec
  refine ⟨fun id hne => ?_, fun id ec hec => ?_, fun id r' ec hr' hec => ?_⟩
  · have heq := (hhist id).resolve_right hne
    rw [getWorkflowRuntimeState_congr heq]
    exact h.started id (heq ▸ hne)
  · exact h.ended id ec (hcompleted id ec hec).2
  · obtain ⟨hne, hec⟩ := hcompleted id ec hec
    obtain ⟨r, hr, hstatus⟩ := hrow id r' hr' hne
    rw [hstatus]
    exact h.status id r ec hr hec

theorem Begins.turn (h : db.Begins Q) (hdoc : db.Documented)
    (leased : db.leasedBy wi.instanceID wi.lockedBy) (held : Starting Q db wi)
    (hturn : ((db.commitInstance now wi).resetGeneration wi).insertHistory wi.instanceID
      wi.state.oldEvents.length wi.state.newEvents = .ok db') : db'.Begins Q := by
  obtain ⟨hstart, hcompleted⟩ := held.processed.load (hdoc.recorded _) hturn
  obtain ⟨-, hother⟩ := historyTable_turn hturn
  have hinst := instance?_turn hturn
  obtain ⟨r₀, hr₀, hlock⟩ := leased
  have hleased : r₀.isLeased wi = true := by
    simp [InstanceRow.isLeased, instanceID_of_instance? hr₀, hlock]
  refine ⟨fun id hne => ?_, fun id ec hec => ?_, fun id r ec hr hec => ?_⟩
  · by_cases hid : id = wi.instanceID
    · rw [hid, hstart]
      exact held.begun.started
    · rw [getWorkflowRuntimeState_congr (hother id hid)]
      exact h.started id (hother id hid ▸ hne)
  · by_cases hid : id = wi.instanceID
    · rw [hid, hcompleted] at hec
      exact held.begun.ended ec hec
    · rw [getWorkflowRuntimeState_congr (hother id hid)] at hec
      exact h.ended id ec hec
  · rw [hinst] at hr
    obtain ⟨r', hr', rfl⟩ := Option.map_eq_some_iff.mp hr
    by_cases hid : id = wi.instanceID
    · subst hid
      rw [hr₀] at hr'
      cases hr'
      rw [hcompleted] at hec
      obtain ⟨es, hes⟩ := Option.isSome_iff_exists.mp held.begun.started
      rw [if_pos hleased, (InstanceRow.commit_columns now wi.state r₀).2.2.2,
        WorkflowRuntimeState.runtimeStatus, hes, hec]
    · have hnot : ¬r'.isLeased wi = true := by
        intro hl
        have hl : r'.instanceID = wi.instanceID := of_decide_eq_true (Bool.and_eq_true_iff.mp hl).1
        exact hid ((instanceID_of_instance? hr').symm.trans hl)
      rw [if_neg hnot]
      rw [getWorkflowRuntimeState_congr (hother id hid)] at hec
      exact h.status id r' ec hr' hec

theorem Begins.ledger (h : db.Begins Q) (hdoc : db.Documented)
    (hstep : Ledger (Starting Q) db db') : db'.Begins Q := by
  cases hstep with
  | queues instances history =>
    refine h.of_rows (fun id => .inl ?_) fun id r hr _ => ⟨r, ?_, rfl⟩
    · unfold historyTable
      rw [history]
    · unfold instance? at hr ⊢
      rwa [instances] at hr
  | lock p lockedBy lockExpiration instances history =>
    refine h.of_rows (fun id => .inl ?_) fun id r' hr' _ => ?_
    · unfold historyTable
      rw [history]
    · have hinst : db'.instance? id = (db.instance? id).map fun r =>
          if p r then r.setLock lockedBy lockExpiration else r := by
        unfold instance?
        rw [instances]
        exact find?_update fun _ => rfl
      rw [hinst] at hr'
      obtain ⟨r, hr, rfl⟩ := Option.map_eq_some_iff.mp hr'
      refine ⟨r, hr, ?_⟩
      split <;> rfl
  | create hcreate =>
    obtain ⟨r, -, -, -, -, -, -, -, -, -, rfl⟩ := createWorkflowInstanceInternal_eq hcreate
    refine h.of_rows (fun id => .inl rfl) fun id r' hr' hne => ?_
    rcases instance?_append_cases hr' with hr' | ⟨hold, -⟩
    · exact ⟨r', hr', rfl⟩
    · exact absurd (hdoc.owned id hold) hne
  | delete id' =>
    refine h.of_rows (fun id => ?_) fun id r' hr' _ => ?_
    · by_cases hid : id = id'
      · rw [hid]
        exact .inr (filter_delete_eq_nil fun r _ h => h)
      · exact .inl (historyTable_deleteInstance db hid)
    · rw [instance?_deleteInstance] at hr'
      split at hr'
      · cases hr'
      · exact ⟨r', hr', rfl⟩
  | turn leased held hturn => exact h.turn hdoc leased held hturn

theorem Begins.ledgers (h : db.Begins Q) (hdoc : db.Documented)
    (hsteps : Ledgers (Starting Q) db db') : db'.Begins Q := by
  have hboth : db'.Documented ∧ db'.Begins Q := by
    induction hsteps with
    | refl => exact ⟨hdoc, h⟩
    | tail _ hstep ih =>
      exact ⟨ih.1.ledger (hstep.mono fun _ _ held => held.processed), ih.2.ledger ih.1 hstep⟩
  exact hboth.2

/-! ### The start of an instance in the queue -/

/-- The row that was queued when an instance was created is still there. -/
def StartQueued (db : Db) (r : InstanceRow) : Prop :=
  ∃ e ∈ db.newEvents, e.instanceID = r.instanceID ∧ r.born ≤ e.uid ∧
    e.event.getExecutionStarted = some r.creation

/-- The start of every instance without a history is queued. -/
def StartsQueued (db : Db) : Prop :=
  ∀ id r, db.instance? id = some r → db.historyTable id = [] → db.StartQueued r

/-- The start is queued as long as its row is, locked or not. -/
theorem StartQueued.of_bare {r r' : InstanceRow} (h : db.StartQueued r)
    (hid : r'.instanceID = r.instanceID) (hborn : r'.born = r.born) (hcreation : r'.creation = r.creation)
    (hrows : ∀ e ∈ db.newEvents, e.instanceID = r.instanceID → e.event.getExecutionStarted.isSome = true →
      ∃ e' ∈ db'.newEvents, e'.bare = e.bare) : db'.StartQueued r' := by
  obtain ⟨e, he, heid, huid, hes⟩ := h
  obtain ⟨e', he', hbare⟩ := hrows e he heid (by rw [hes]; rfl)
  obtain ⟨hid', hevent, huid', -⟩ := EventRow.eq_of_bare hbare
  refine ⟨e', he', ?_, ?_, ?_⟩
  · rw [hid', heid, hid]
  · rw [hborn, huid']
    exact huid
  · rw [hevent, hes, hcreation]

/-- Statements that create no instance, keep the histories and keep the rows that start an instance. -/
theorem StartsQueued.of_bare (h : db.StartsQueued) (hborn : NoneBorn db db')
    (hhist : ∀ id, db'.historyTable id = db.historyTable id)
    (hrows : ∀ e ∈ db.newEvents, e.event.getExecutionStarted.isSome = true →
      ∃ e' ∈ db'.newEvents, e'.bare = e.bare) : db'.StartsQueued := by
  intro id r' hr' hnil
  obtain ⟨r, hr, hb, hc⟩ := hborn id r' hr'
  have hid := (instanceID_of_instance? hr').trans (instanceID_of_instance? hr).symm
  exact (h id r hr (hhist id ▸ hnil)).of_bare hid hb hc fun e he _ hes => hrows e he hes

/-- Rows that are added to the queue. -/
theorem StartsQueued.append (h : db.StartsQueued) (hinstances : db'.instances = db.instances)
    (hhistory : db'.history = db.history) {rows : List EventRow}
    (hevents : db'.newEvents = db.newEvents ++ rows) : db'.StartsQueued := by
  refine h.of_bare (.of_eq hinstances) (fun id => ?_) fun e he _ => ⟨e, ?_, rfl⟩
  · unfold historyTable
    rw [hhistory]
  · rw [hevents]
    exact List.mem_append_left rows he

/-- A row that starts an instance is no child result, so an acquisition leaves it in the queue. -/
theorem mem_lockBatch (hs : db.Sequenced) (row : InstanceRow) (t : String) {e : EventRow}
    (he : e ∈ db.newEvents) (hes : e.event.getExecutionStarted.isSome = true) :
    ∃ e' ∈ db.lockBatch row now t, e'.bare = e.bare := by
  have hmap : (updateFirst (EventRow.isDue row.instanceID now) (EventRow.lock t) maxBatch
      db.newEvents).map EventRow.bare = db.newEvents.map EventRow.bare :=
    map_updateFirst (f := EventRow.lock t) (fun _ => rfl) maxBatch
  obtain ⟨e', he', hbare⟩ := List.mem_map.mp (hmap ▸ List.mem_map_of_mem (f := EventRow.bare) he)
  refine ⟨e', List.mem_filter.mpr ⟨he', ?_⟩, hbare⟩
  have hnumber : e'.sequenceNumber ∉ ((db.batch row.instanceID now t).filter
      (EventRow.isStale row.executionID)).map EventRow.sequenceNumber := by
    intro hmem
    obtain ⟨x, hx, hseq⟩ := List.mem_map.mp hmem
    obtain ⟨hx, hstale⟩ := List.mem_filter.mp hx
    obtain ⟨x₀, hx₀, -, rfl⟩ := mem_batch hx
    have hseq' : e'.sequenceNumber = e.sequenceNumber := by
      injection hbare
    have hseq : x₀.sequenceNumber = e.sequenceNumber := Eq.trans hseq hseq'
    have hchild : x₀.event.isChildResult = true := (Bool.and_eq_true_iff.mp hstale).1
    rw [List.inj_on_of_nodup_map hs hx₀ he hseq] at hchild
    unfold HistoryEvent.isChildResult at hchild
    unfold HistoryEvent.getExecutionStarted at hes
    generalize e.event.eventType = eventType at hchild hes
    cases eventType with
    | executionStarted => cases hchild
    | _ => cases hes
  simp only [Bool.not_eq_true', Bool.and_eq_false_iff]
  exact .inl (.inr (decide_eq_false hnumber))

/-! ### A commit -/

theorem StartQueued.adds {contents : List (HistoryEvent × Option Time)} {r : InstanceRow}
    (hadds : Adds id db db' contents) (hid : r.instanceID = id) (h : db.StartQueued r) :
    db'.StartQueued r := by
  obtain ⟨added, hqueue, -⟩ := hadds.events
  refine h.of_bare rfl rfl rfl fun e he heid _ => ⟨e, ?_, rfl⟩
  have hmem : e ∈ db.queueOf id := List.mem_filter.mpr ⟨he, decide_eq_true (heid.trans hid)⟩
  exact List.mem_of_mem_filter (hqueue ▸ List.mem_append_left added hmem)

theorem created_row {e : HistoryEvent} {es : ExecutionStartedEvent} {r : InstanceRow}
    (h : db.createWorkflowInstanceInternal e = .ok db') (hes : e.getExecutionStarted = some es)
    (hr : db'.instance? es.workflowInstance.instanceId = some r) :
    r.creation = es ∧ r.born = db.enqueued.length := by
  obtain ⟨r₀, hnone, -, hcreation, hid, -, -, -, -, hborn, rfl⟩ := createWorkflowInstanceInternal_eq h
  rw [hes] at hcreation
  cases hcreation
  rcases instance?_append_cases hr with hr | ⟨-, rfl⟩
  · rw [← hid, hnone] at hr
    cases hr
  · exact ⟨rfl, hborn⟩

/-- A message leaves the rows of an instance alone, or makes the row of the instance it starts. -/
theorem startInstance_row {msg : WorkflowRuntimeStateMessage} (h : db.startInstance msg = .ok db')
    (id : InstanceID) :
    Adds id db db' [] ∨ ∃ es, msg.historyEvent.getExecutionStarted = some es ∧
      es.workflowInstance.instanceId = id ∧
      ∀ r, db'.instance? id = some r → r.creation = es ∧ r.born = db.enqueued.length := by
  cases starts_of_ok h with
  | nothing => exact .inl (.refl id db)
  | creates hcreate =>
    obtain ⟨r₀, -, -, hes, -⟩ := createWorkflowInstanceInternal_eq hcreate
    by_cases hid : r₀.creation.workflowInstance.instanceId = id
    · subst hid
      exact .inr ⟨_, hes, rfl, fun r hr => created_row hcreate hes hr⟩
    · refine .inl (adds_create hcreate fun es' hes' => ?_)
      rw [hes] at hes'
      cases hes'
      exact hid
  | @replaces es _ _ start _ _ hcreate =>
    by_cases hid : es.workflowInstance.instanceId = id
    · subst hid
      refine .inr ⟨es, start, rfl, fun r hr => ?_⟩
      have hcreated := created_row hcreate start hr
      exact hcreated
    · refine .inl ((adds_deleteInstance db hid).trans (adds_create hcreate fun es' hes' => ?_))
      rw [start] at hes'
      cases hes'
      exact hid

theorem started_row {msgs : List WorkflowRuntimeStateMessage}
    (h : msgs.foldlM startInstance db = .ok db') (id : InstanceID) :
    db'.enqueued = db.enqueued ∧ (Adds id db db' [] ∨ ∃ msg ∈ msgs, ∃ es,
      msg.historyEvent.getExecutionStarted = some es ∧ es.workflowInstance.instanceId = id ∧
      ∀ r, db'.instance? id = some r → r.creation = es ∧ r.born = db.enqueued.length) := by
  refine Except.foldlM_invariant (I := fun x : Db => x.enqueued = db.enqueued ∧ (Adds id db x [] ∨
    ∃ msg ∈ msgs, ∃ es, msg.historyEvent.getExecutionStarted = some es ∧
      es.workflowInstance.instanceId = id ∧
      ∀ r, x.instance? id = some r → r.creation = es ∧ r.born = db.enqueued.length)) h
    ⟨rfl, .inl (.refl id db)⟩ ?_
  rintro x msg y hmsg ⟨hlog, hx⟩ hstep
  refine ⟨(startInstance_enqueued hstep).1.trans hlog, ?_⟩
  rcases startInstance_row hstep id with hadds | ⟨es, hes, hid, hrow⟩
  · refine hx.imp (fun hx => hx.trans hadds) ?_
    rintro ⟨msg', hmsg', es, hes, hid, hrow⟩
    exact ⟨msg', hmsg', es, hes, hid, fun r hr => hrow r (hadds.instance? ▸ hr)⟩
  · exact .inr ⟨msg, hmsg, es, hes, hid, fun r hr => hlog ▸ hrow r hr⟩

/-- Every message of a work item is queued. -/
theorem mem_enqueueOutbox (db : Db) (origin : Origin) {msg : WorkflowRuntimeStateMessage}
    (hmsg : msg ∈ messages wi) :
    ∃ e ∈ (db.enqueueOutbox wi origin).newEvents, e.instanceID = msg.targetInstanceId ∧
      db.enqueued.length ≤ e.uid ∧ e.event = msg.historyEvent := by
  have hlog (x : Db) (iid : InstanceID) (e : HistoryEvent) (visibleTime : Option Time)
      (hx : db.enqueued.length ≤ x.enqueued.length) : db.enqueued.length ≤
        (x.insertNewEvent iid e visibleTime none (some origin)).enqueued.length := by
    unfold insertNewEvent
    rw [List.length_append]
    exact Nat.le_add_right_of_le hx
  obtain ⟨before, after, hsplit⟩ := List.append_of_mem hmsg
  unfold enqueueOutbox
  rw [hsplit, List.foldl_append, List.foldl_cons]
  have hbefore : db.enqueued.length ≤ (before.foldl (fun db msg => db.enqueueMessage origin msg)
      (wi.state.pendingTimers.foldl (fun db e => db.enqueueTimer wi.instanceID origin e)
        db)).enqueued.length := by
    refine List.foldlRecOn (motive := fun x : Db => db.enqueued.length ≤ x.enqueued.length) _ _ ?_
      fun x hx _ _ => hlog x _ _ _ hx
    exact List.foldlRecOn (motive := fun x : Db => db.enqueued.length ≤ x.enqueued.length) _ _ le_rfl
      fun x hx _ _ => hlog x _ _ _ hx
  generalize before.foldl _ _ = x at hbefore ⊢
  let row : EventRow :=
    { sequenceNumber := nextKey (x.newEvents.map EventRow.sequenceNumber)
      instanceID := msg.targetInstanceId, executionID := none
      visibleTime :=
        msg.historyEvent.getExecutionStarted.bind ExecutionStartedEvent.scheduledStartTimestamp
      event := msg.historyEvent, uid := x.enqueued.length, origin := some origin }
  refine ⟨row, ?_, rfl, hbefore, rfl⟩
  refine List.foldlRecOn (motive := fun y : Db => row ∈ y.newEvents) _ _ ?_
    fun y hy _ _ => List.mem_append_left _ hy
  exact List.mem_append_right _ List.mem_cons_self

/-- A commit keeps the starts of the other instances, and queues those of the instances it creates. Its
own instance has a history. -/
theorem StartsQueued.complete (h : db.StartsQueued) (hdoc : db.Documented)
    (leased : db.leasedBy wi.instanceID wi.lockedBy) (held : Starting Q db wi)
    (hcomplete : db.completeWorkflowWorkItem now wi = .ok db') : db'.StartsQueued := by
  obtain ⟨db₁, db₂, db₃, hc⟩ := completes_of_ok hcomplete
  intro id r hr hnil
  have hrid := instanceID_of_instance? hr
  by_cases hid : id = wi.instanceID
  · subst hid
    obtain ⟨r₀, hr₀, -⟩ := leased
    have hhist := (complete_own hc (by rw [hr₀]; rfl)).2
    have hevents := (held.processed.recorded (hdoc.recorded wi.instanceID)).2
    rw [← (historyTable_turn hc.inserted).1, ← hhist, hnil] at hevents
    have hstart := held.processed.coherent.startEvent
    rw [← hevents] at hstart
    have hstarted := held.begun.started
    rw [hstart] at hstarted
    cases hstarted
  · have hturn : Adds id db (db₁.insertTasks wi (db.committing wi)) [] :=
      (((adds_commitInstance db now hid).trans (adds_resetGeneration _ hid)).trans
        (adds_insertHistory hc.inserted hid)).trans (adds_insertTasks db₁ _ hid)
    have hsent := hturn.trans (adds_childResults hc.results id).2
    have hout := (adds_enqueueOutbox db₃ wi (db.committing wi) id).trans
      (adds_acknowledge hc.acknowledged hid)
    obtain ⟨hlog, hstarted⟩ := started_row hc.started id
    rcases hstarted with hstarted | ⟨msg, hmsg, es, hes, hesid, hrow⟩
    · have hall := (hsent.trans hstarted).trans hout
      have hhist : db'.historyTable id = db.historyTable id := congrArg (·.2.1) hall.rows
      exact (h id r (hall.instance? ▸ hr) (hhist ▸ hnil)).adds hall hrid
    · obtain ⟨hcreation, hborn⟩ := hrow r (hout.instance? ▸ hr)
      obtain ⟨e, he, heid, huid, hevent⟩ := mem_enqueueOutbox db₃ (db.committing wi) hmsg
      have htarget : msg.targetInstanceId = id := by
        refine held.begun.addressed msg (List.mem_of_mem_filter hmsg) id ?_
        unfold WorkflowRuntimeStateMessage.starts
        rw [hes, ← hesid]
        rfl
      obtain ⟨-, rfl⟩ := acknowledge_eq hc.acknowledged
      refine ⟨e, List.mem_filter.mpr ⟨he, ?_⟩, ?_, ?_, ?_⟩
      · unfold EventRow.isInbound
        rw [decide_eq_false (heid.trans htarget ▸ hid), Bool.false_and]
        rfl
      · rw [heid, htarget, hrid]
      · rw [hborn, ← hlog]
        exact huid
      · rw [hevent, hes, hcreation]

theorem StartsQueued.transaction {opts : SqliteOptions} {op : Op} (h : db.StartsQueued)
    (hdoc : db.Documented) (hs : db.Sequenced) (htx : Transaction opts (Starting Q) db op db') :
    db'.StartsQueued := by
  cases htx with
  | idle => exact h
  | createWorkflowInstance htx =>
    unfold Db.createWorkflowInstance at htx
    split at htx
    · cases htx
    · next es hes =>
      obtain ⟨created, hcreate, htx⟩ := Except.bind_eq_ok.mp htx
      cases htx
      intro id r hr hnil
      by_cases hid : es.workflowInstance.instanceId = id
      · subst hid
        obtain ⟨hcreation, hborn⟩ := created_row hcreate hes hr
        obtain ⟨r₀, -, -, -, -, -, -, -, -, -, rfl⟩ := createWorkflowInstanceInternal_eq hcreate
        refine ⟨_, List.mem_append_right _ List.mem_cons_self, (instanceID_of_instance? hr).symm,
          hborn.le, ?_⟩
        rw [hcreation]
        exact hes
      · have hadds : Adds id db created [] := adds_create hcreate fun es' hes' => by
          rw [hes] at hes'
          cases hes'
          exact hid
        have hhist : created.historyTable id = db.historyTable id := congrArg (·.2.1) hadds.rows
        obtain ⟨e, he, hrow⟩ := (h id r (hadds.instance? ▸ hr) (hhist ▸ hnil)).adds hadds
          (instanceID_of_instance? hr)
        exact ⟨e, List.mem_append_left _ he, hrow⟩
  | addNewWorkflowEvent htx =>
    obtain ⟨-, rfl⟩ := addNewWorkflowEvent_eq htx
    exact h.append rfl rfl rfl
  | addNewWorkflowEventWithExternalDelivery htx =>
    obtain ⟨-, ⟨-, rfl⟩ | ⟨-, rfl⟩⟩ := addNewWorkflowEventWithExternalDelivery_eq htx
    · exact h
    · exact h.append rfl rfl rfl
  | @purgeWorkflowState id' _ htx =>
    obtain ⟨rfl, -⟩ := cleanup_eq htx
    intro id r hr hnil
    rw [instance?_deleteInstance] at hr
    split at hr
    · cases hr
    · next hid =>
      rw [historyTable_deleteInstance db hid] at hnil
      exact (h id r hr hnil).adds (adds_deleteInstance db (Ne.symm hid)) (instanceID_of_instance? hr)
  | getWorkflowWorkItem htx =>
    have hborn := noneBorn_getWorkflowWorkItem htx
    cases acquires_of_getWorkflowWorkItem htx with
    | idle => exact h
    | @stale row =>
      exact h.of_bare hborn (fun _ => rfl) fun e he hes => mem_lockBatch hs row _ he hes
    | @lease row =>
      exact h.of_bare hborn (fun _ => rfl) fun e he hes => mem_lockBatch hs row _ he hes
  | completeWorkflowWorkItem leased held htx => exact h.complete hdoc leased held htx
  | @abandonWorkflowWorkItem now wi _ htx =>
    have hborn := noneBorn_abandon htx
    obtain ⟨-, -, visibleTime, rfl⟩ := abandon_eq htx
    refine h.of_bare hborn (fun _ => rfl) fun e he _ => ?_
    have hmap : (update (EventRow.isInbound wi) (EventRow.unlock visibleTime) db.newEvents).map
        EventRow.bare = db.newEvents.map EventRow.bare := map_update fun _ => rfl
    exact List.mem_map.mp (hmap ▸ List.mem_map_of_mem he)
  | getActivityWorkItem now t =>
    obtain ⟨newTasks, heq, -⟩ := getActivityWorkItem_eq db opts now t
    rw [heq]
    exact h
  | completeActivityWorkItem htx =>
    obtain ⟨task, -, rfl⟩ := completeActivityWorkItem_eq htx
    exact h.append rfl rfl rfl
  | abandonActivityWorkItem htx =>
    obtain ⟨newTasks, rfl, -⟩ := abandonActivityWorkItem_eq htx
    exact h

end Db

/-! ### Every run -/

namespace System

variable (opts : SqliteOptions) (Q : OrchestrationStatus → Prop)

/-- The batch of an instance without a history starts it. -/
def StartsFirst (s : System) : Op → Prop
  | .getWorkflowWorkItem now t => ∀ db' wi, s.db.getWorkflowWorkItem opts now t = .ok (db', some wi) →
    s.db.historyOf wi.instanceID = [] → ∃ e ∈ wi.newEvents, e.getExecutionStarted.isSome = true
  | _ => True

/-- No batch and no executor ends a workflow with another status. -/
def EndsIn (s : System) : Op → Prop
  | .getWorkflowWorkItem now t => ∀ db' wi, s.db.getWorkflowWorkItem opts now t = .ok (db', some wi) →
    ∀ e ∈ wi.newEvents, e.EndsIn Q
  | .processWorkItem _ w _ => w.Executors (WorkflowExecutor.EndsIn Q)
  | _ => True

/-- What is known of a work item that was acquired. -/
def FirstBatch (db : Db) (wi : WorkflowWorkItem) : Prop :=
  (db.historyTable wi.instanceID = [] → ∃ e ∈ wi.newEvents, e.getExecutionStarted.isSome = true) ∧
    ∀ e ∈ wi.newEvents, e.EndsIn Q

theorem started_maintained (hterminated : Q .terminated) :
    Maintained opts (fun s op => StartsFirst opts s op ∧ EndsIn opts Q s op)
      (fun db => db.Documented ∧ db.Sequenced ∧ db.Begins Q ∧ db.StartsQueued) (FirstBatch Q)
      (Db.Starting Q) where
  init := by
    refine ⟨(documented_maintained opts).init, List.nodup_nil, ⟨?_, ?_, ?_⟩, ?_⟩
    · exact fun _ h => absurd rfl h
    · exact fun _ _ h => by cases h
    · exact fun _ _ _ h => by cases h
    · exact fun _ _ h => by cases h
  transaction := by
    rintro s op - - ⟨hdoc, hs, hbegins, hqueued⟩ htx
    have hledgers := htx.ledgers.mono fun _ _ held => held.processed
    exact ⟨hdoc.ledgers hledgers, htx.queuings.sequenced hs, hbegins.ledgers hdoc htx.ledgers,
      hqueued.transaction hdoc hs htx⟩
  acquire := by
    rintro s now t db' wi ⟨hstart, hends⟩ ⟨hdoc, -⟩ hget
    refine ⟨fun hnil => hstart db' wi hget ?_, hends db' wi hget⟩
    have hhist : db'.historyTable wi.instanceID = s.db.historyTable wi.instanceID := by
      cases Db.acquires_of_getWorkflowWorkItem hget
      rfl
    rw [(hdoc.recorded wi.instanceID).historyOf, ← hhist, hnil]
    rfl
  process := by
    rintro s w env wi wi' ⟨-, hw⟩ ⟨hdoc, -, hbegins, -⟩ hleased ⟨hstart, hbatch⟩ hproc
    have hprocessed := (documented_maintained opts).process (s := s) (A := fun _ _ => True) trivial hdoc
      hleased trivial hproc
    refine ⟨hprocessed, begun_processWorkItem hw hterminated ?_ ?_ ?_ ?_ hproc⟩
    · by_cases hnil : s.db.historyTable wi.instanceID = []
      · right
        dsimp only
        rw [Db.getWorkflowRuntimeState_of_nil hnil]
        exact ⟨rfl, rfl, hstart hnil⟩
      · exact .inl (hbegins.started _ hnil)
    · exact hbegins.ended _
    · exact hbatch
    · exact (WorkflowRuntimeState.new_frame _ _ _).2.2.1
  acquired := by
    rintro db db' wi hkeeps hl ⟨hstart, hbatch⟩
    exact ⟨fun hnil => hstart ((hkeeps wi.instanceID hl).2.1 ▸ hnil), hbatch⟩
  processed := by
    intro db db' wi hkeeps hl h
    exact ⟨(documented_maintained opts).processed hkeeps hl h.processed, h.begun⟩

/-- If the first batch of every instance brings its start, every history loads to a valid state, and the
start of an instance is queued until its history has one. -/
theorem start_never_lost (ops : List Op) (hops : Along opts (StartsFirst opts) ops) :
    let db := (run opts ops).db
    (∀ id, db.historyOf id ≠ [] → (db.getWorkflowRuntimeState id).isValid = true) ∧
      ∀ id r, db.instance? id = some r →
        db.StartQueued r ∨ ∃ e ∈ db.historyOf id, e.getExecutionStarted.isSome = true := by
  have hany : WorkflowExecutor.EndsIn (fun _ => True) = fun _ => True := by
    funext x
    exact eq_true fun _ _ _ _ _ _ _ _ _ _ _ => ⟨.inr trivial, fun _ _ _ _ => trivial⟩
  have h := (started_maintained opts (fun _ => True) trivial).run ops fun pre op post hsplit => by
    refine ⟨hops pre op post hsplit, ?_⟩
    cases op with
    | getWorkflowWorkItem => exact fun _ _ _ _ _ _ _ => trivial
    | processWorkItem =>
      unfold EndsIn
      rw [hany]
      exact ⟨trivial, fun _ _ => trivial⟩
    | _ => trivial
  obtain ⟨hdoc, -, hbegins, hqueued⟩ := h.store
  dsimp only
  generalize (run opts ops).db = db at hdoc hbegins hqueued
  have hhist (id : InstanceID) := (hdoc.recorded id).historyOf
  refine ⟨fun id hne => ?_, fun id r hr => ?_⟩
  · unfold WorkflowRuntimeState.isValid
    rw [hbegins.started id fun hnil => hne ?_, Bool.or_true]
    rw [hhist, hnil]
    rfl
  · by_cases hnil : db.historyTable id = []
    · exact .inl (hqueued id r hr hnil)
    · right
      have hstarted := hbegins.started id hnil
      rw [Db.getWorkflowRuntimeState, (WorkflowRuntimeState.new_frame _ _ _).2.2.2.1,
        List.findSome?_isSome_iff] at hstarted
      exact hstarted

/-- If moreover workflows end as completed, failed or terminated, an instance with a completion in its
history has a start there and a terminal status, and can be purged. -/
theorem completion_visible (ops : List Op)
    (hops : Along opts (fun s op => StartsFirst opts s op ∧
      EndsIn opts (fun status => Db.isPurgeable status = true) s op) ops) (id : InstanceID) :
    let db := (run opts ops).db
    (∃ e ∈ db.historyOf id, e.getExecutionCompleted.isSome = true) →
      (∃ e ∈ db.historyOf id, e.getExecutionStarted.isSome = true) ∧
      (∃ r, db.instance? id = some r ∧ Db.isPurgeable r.runtimeStatus = true) ∧
      db.purgeWorkflowState id = .ok (db.deleteInstance id) := by
  have h := (started_maintained opts (fun status => Db.isPurgeable status = true) rfl).run ops hops
  obtain ⟨hdoc, -, hbegins, -⟩ := h.store
  dsimp only
  generalize (run opts ops).db = db at hdoc hbegins
  intro hcompleted
  have hne : db.historyTable id ≠ [] := by
    intro hnil
    obtain ⟨e, he, -⟩ := hcompleted
    rw [(hdoc.recorded id).historyOf, hnil] at he
    cases he
  obtain ⟨-, -, -, hstart, hcomplete⟩ := WorkflowRuntimeState.new_frame id none (db.historyOf id)
  obtain ⟨r, hr⟩ := Option.ne_none_iff_exists'.mp fun hnone => hne (hdoc.owned id hnone)
  obtain ⟨ec, hec⟩ := Option.isSome_iff_exists.mp (List.findSome?_isSome_iff.mpr hcompleted)
  have hec := hcomplete.trans hec
  have hpurgeable : Db.isPurgeable r.runtimeStatus = true := by
    rw [hbegins.status id r ec hr hec]
    exact hbegins.ended id ec hec
  refine ⟨?_, ⟨r, hr, hpurgeable⟩, ?_⟩
  · have hstarted := hbegins.started id hne
    rw [Db.getWorkflowRuntimeState, hstart, List.findSome?_isSome_iff] at hstarted
    exact hstarted
  · unfold Db.purgeWorkflowState Db.cleanupWorkflowStateInternal
    rw [hr]
    exact if_neg fun hnot => hnot.2 hpurgeable

end System

namespace StartedExample

open StallExample (opts turn worker)
open TerminationExample (processor)
open OutboxExample (processEnv)

/-- The start of an instance that is visible from time 100. -/
def scheduled : HistoryEvent :=
  { eventType := .executionStarted
      { name := "wf", workflowInstance := ⟨"a", some "e1"⟩, scheduledStartTimestamp := some 100 } }

def raised : HistoryEvent := { eventType := .eventRaised { name := "go" } }

/-- The instance gets an event before its scheduled start, and a turn of the SDK on that event. -/
def overtaken : List Op :=
  [.createWorkflowInstance scheduled, .addNewWorkflowEvent "a" raised] ++ turn "t1" "v1" 1

/-- The turn commits a history without a start, which is no valid state. The start, when it is visible,
is dropped with its work item. -/
theorem scheduled_start_lost :
    let db := (System.run opts overtaken).db
    (db.historyOf "a").length = 2 ∧ (db.getWorkflowRuntimeState "a").isValid = false ∧
      db.newEvents.map (fun e => e.event) = [scheduled] ∧
    let db := (System.run opts (overtaken ++ turn "t2" "v1" 200)).db
    db.newEvents = [] ∧ (db.instance? "a").isSome = true ∧
      ∀ e ∈ db.historyOf "a", e.getExecutionStarted = none := by
  decide +kernel

/-- The instance is terminated before its scheduled start. -/
def terminated : List Op :=
  [.createWorkflowInstance scheduled,
   .addNewWorkflowEvent "a" { eventType := .executionTerminated {} }] ++ turn "t1" "v1" 1

/-- The history has a completion and no start; the instance is pending and cannot be purged. -/
theorem terminated_before_start_pending :
    let db := (System.run opts terminated).db
    (∃ e ∈ db.historyOf "a", e.getExecutionCompleted.isSome = true) ∧
      (∀ e ∈ db.historyOf "a", e.getExecutionStarted = none) ∧
      (db.instance? "a").map InstanceRow.runtimeStatus = some .pending ∧
      db.purgeWorkflowState "a" = .error .notCompleted := by
  decide +kernel

def completing : WorkflowResponse :=
  { actions := [{ id := 0, actionType := .completeWorkflow { workflowStatus := .completed } }] }

/-- The start is visible at once. -/
def begun (response : WorkflowResponse) : List Op :=
  [.createWorkflowInstance StallExample.start, .getWorkflowWorkItem 1 "t1",
   .processWorkItem "t1" (processor response) processEnv, .completeWorkflowWorkItem "t1" 2]

theorem startsFirst_get {s : System} {now : Time} {t : String}
    (h : ∀ wi ∈ (s.db.getWorkflowWorkItem opts now t).toOption.bind Prod.snd,
      ∃ e ∈ wi.newEvents, e.getExecutionStarted.isSome = true) :
    System.StartsFirst opts s (.getWorkflowWorkItem now t) :=
  fun _ wi hget _ => System.forall_acquired h wi hget

theorem begun_valid :
    ((System.run opts (begun {})).db.getWorkflowRuntimeState "a").isValid = true := by
  refine (System.start_never_lost opts (begun {}) ?_).1 "a" (by decide +kernel)
  refine .concat [_, _, _] (.concat [_, _] (.concat [_] (.concat [] .nil ?_) ?_) ?_) ?_
  · trivial
  · exact startsFirst_get (by decide +kernel)
  · trivial
  · trivial

theorem completing_endsIn : (processor completing).Executors
    (WorkflowExecutor.EndsIn fun status => Db.isPurgeable status = true) := by
  refine ⟨?_, fun x hx => by cases hx⟩
  intro k id oldEvents newEvents incomingHistory response hresponse action haction c hc
  cases hresponse
  rw [List.mem_singleton.mp haction] at hc
  cases hc
  exact ⟨.inr rfl, fun e he => absurd he List.not_mem_nil⟩

theorem completed_purgeable :
    ∃ r, (System.run opts (begun completing)).db.instance? "a" = some r ∧
      Db.isPurgeable r.runtimeStatus = true := by
  refine (System.completion_visible opts (begun completing) ?_ "a" (by decide +kernel)).2.1
  refine .concat [_, _, _] (.concat [_, _] (.concat [_] (.concat [] .nil ?_) ?_) ?_) ?_
  · exact ⟨trivial, trivial⟩
  · refine ⟨startsFirst_get (by decide +kernel), fun _ wi hget => ?_⟩
    have hbatch := System.forall_acquired
      (P := fun wi => ∀ e ∈ wi.newEvents, e.getExecutionCompleted = none) (by decide +kernel) wi hget
    intro e he ec hec
    rw [hbatch e he] at hec
    cases hec
  · exact ⟨trivial, completing_endsIn⟩
  · exact ⟨trivial, trivial⟩

end StartedExample

end Sqlite

end DurableTask
