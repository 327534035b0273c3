import DurableTask.Backend.Outbox
import DurableTask.RuntimeState.Completion

/-!
# Termination in `ProcessWorkItem`

A work item with an `ExecutionTerminated` event ends with a completed state, whatever the executor
answers: the actions before the first continue-as-new are applied, and if none of them completes the
workflow it is completed as terminated. A recursive termination goes on to every child in history.
-/

namespace DurableTask

open Applier

/-- The first completion before every continue-as-new. -/
def firstCompletion (actions : List WorkflowAction) : Option CompleteWorkflowAction :=
  (beforeContinueAsNew actions).findSome? WorkflowAction.getCompleteWorkflow

/-! ### The children in a history -/

/-- Whether an event is the creation of the child `id`. -/
def HistoryEvent.creates (e : HistoryEvent) (id : InstanceID) : Bool :=
  e.getChildWorkflowInstanceCreated.any (·.instanceId = id)

/-- A list with each child of the events once, with the router of its first creation. -/
structure Children (events : List HistoryEvent) (children : List (InstanceID × Option TaskRouter)) :
    Prop where
  nodup : (children.map Prod.fst).Nodup
  mem : ∀ id, id ∈ children.map Prod.fst ↔ ∃ e ∈ events, e.creates id = true
  router : ∀ c ∈ children, (events.find? (·.creates c.1)).map HistoryEvent.router = some c.2

theorem getChildWorkflowInstances_spec (events : List HistoryEvent) :
    Children events (getChildWorkflowInstances events) := by
  induction events using List.reverseRecOn with
  | nil => exact ⟨List.nodup_nil, fun id => by simp [getChildWorkflowInstances], nofun⟩
  | append_singleton events e ih =>
    unfold getChildWorkflowInstances at ih ⊢
    rw [List.foldl_append, List.foldl_cons, List.foldl_nil]
    generalize events.foldl _ [] = children at ih ⊢
    have hold (c : InstanceID × Option TaskRouter) (hc : c ∈ children) :
        ((events ++ [e]).find? (·.creates c.1)).map HistoryEvent.router = some c.2 := by
      obtain ⟨e', he', hr⟩ := Option.map_eq_some_iff.mp (ih.router c hc)
      rw [List.find?_append, he']
      exact congrArg some hr
    split
    · next hnone =>
      refine ⟨ih.nodup, fun id => ?_, hold⟩
      rw [ih.mem]
      simp [HistoryEvent.creates, hnone]
    · next created hcreated =>
      have hcreates (id : InstanceID) : e.creates id = true ↔ created.instanceId = id := by
        simp [HistoryEvent.creates, hcreated]
      split
      · next hany =>
        refine ⟨ih.nodup, fun id => ?_, hold⟩
        rw [ih.mem]
        simp only [List.mem_append, List.mem_singleton]
        constructor
        · rintro ⟨e', he', hid⟩
          exact ⟨e', .inl he', hid⟩
        · rintro ⟨e', he' | rfl, hid⟩
          · exact ⟨e', he', hid⟩
          · obtain ⟨c, hc, hcid⟩ := List.any_eq_true.mp hany
            rw [← ih.mem, ← (hcreates id).mp hid, ← of_decide_eq_true hcid]
            exact List.mem_map_of_mem hc
      · next hany =>
        have hnew : created.instanceId ∉ children.map Prod.fst := by
          intro hmem
          obtain ⟨c, hc, hcid⟩ := List.mem_map.mp hmem
          exact hany (List.any_eq_true.mpr ⟨c, hc, decide_eq_true hcid⟩)
        refine ⟨?_, fun id => ?_, fun c hc => ?_⟩
        · rw [List.map_append]
          refine List.nodup_append.mpr ⟨ih.nodup, List.nodup_cons.mpr ⟨List.not_mem_nil, .nil⟩, ?_⟩
          rintro id hid b hb rfl
          rw [List.mem_singleton.mp hb] at hid
          exact hnew hid
        · rw [List.map_append, List.mem_append, ih.mem]
          simp only [List.map_cons, List.map_nil, List.mem_append, List.mem_singleton, or_and_right,
            exists_or, exists_eq_left, hcreates]
          rw [eq_comm (a := id)]
        · rcases List.mem_append.mp hc with hc | hc
          · exact hold c hc
          · rw [List.mem_singleton.mp hc, List.find?_append,
              List.find?_eq_none.mpr fun e' he' hid => hnew ((ih.mem _).mpr ⟨e', he', hid⟩)]
            simp [hcreates]

/-! ### A terminated work item -/

/-- The messages of a recursive termination: one for each child in the history. -/
structure Cascade (et : ExecutionTerminatedEvent) (events : List HistoryEvent)
    (msgs : List WorkflowRuntimeStateMessage) : Prop where
  children : Children events
    (msgs.map fun m => (m.targetInstanceId, m.historyEvent.router))
  eventType : ∀ m ∈ msgs, m.historyEvent.eventType = .executionTerminated ⟨et.input, et.recurse⟩

/-- How a work item with the terminate event `et` ends, when `s` is the state with its events added
and `response` the executor's answer. -/
structure Enforced (et : ExecutionTerminatedEvent) (s : WorkflowRuntimeState)
    (response : WorkflowResponse) (s' : WorkflowRuntimeState) : Prop where
  startEvent : s'.startEvent = s.startEvent
  continuedAsNew : s'.continuedAsNew = false
  oldEvents : s'.oldEvents = s.oldEvents
  newEvents : (s.recordVersion response.version).newEvents <+: s'.newEvents
  completedEvent : s'.completedEvent =
    some (((firstCompletion response.actions).map CompleteWorkflowAction.completedEvent).getD
      { workflowStatus := .terminated, result := et.input })
  runtimeStatus : s'.runtimeStatus =
    ((firstCompletion response.actions).map CompleteWorkflowAction.workflowStatus).getD .terminated
  childResults : s'.childResults.length =
    (s.startEvent.bind ExecutionStartedEvent.parentInstance).toList.length
  cascade : et.recurse = true → ∃ sent msgs, s'.pendingMessages = sent ++ msgs ∧
    Cascade et (s'.oldEvents ++ s'.newEvents) msgs

theorem recordVersion_frame (s : WorkflowRuntimeState) (v : Option WorkflowVersion) :
    s.recordVersion v = { s with newEvents := (s.recordVersion v).newEvents } := by
  unfold WorkflowRuntimeState.recordVersion
  split
  · rfl
  · split <;> rfl

/-- A round that does not continue as new is the last. -/
theorem continueAsNewLoop_last {w : WorkflowProcessor} {env : ProcessEnv} {instanceID : InstanceID}
    {terminateEvent : Option ExecutionTerminatedEvent} {s s' : WorkflowRuntimeState}
    {incomingHistory : Option PropagatedHistory} {g : Generation} {result : ActionsResult}
    (remaining : Nat) (continued : List Generation)
    (hgen : w.runGeneration env instanceID terminateEvent (maxContinueAsNewCount - remaining) s
      incomingHistory = .ok (g, result, s'))
    (hcan : result.continuedAsNew = false) :
    w.continueAsNewLoop env instanceID terminateEvent remaining s incomingHistory continued =
      .ok { state := s', incomingHistory := incomingHistory, continued := continued, last := g
            outgoingHistory := result.outgoingHistory } := by
  unfold WorkflowProcessor.continueAsNewLoop
  refine Except.bind_eq_ok.mpr ⟨_, hgen, ?_⟩
  dsimp only
  rw [if_neg (by rw [hcan]; exact Bool.false_ne_true)]
  rfl

section Enforce

variable {w : WorkflowProcessor} {env : ProcessEnv} {et : ExecutionTerminatedEvent}
  {s s₁ s₂ : WorkflowRuntimeState} {response : WorkflowResponse}

/-- `Enforced` before the termination goes on to the children. -/
structure Ended (et : ExecutionTerminatedEvent) (s : WorkflowRuntimeState)
    (response : WorkflowResponse) (s' : WorkflowRuntimeState) : Prop where
  startEvent : s'.startEvent = s.startEvent
  continuedAsNew : s'.continuedAsNew = s.continuedAsNew
  oldEvents : s'.oldEvents = s.oldEvents
  newEvents : (s.recordVersion response.version).newEvents <+: s'.newEvents
  completedEvent : s'.completedEvent =
    some (((firstCompletion response.actions).map CompleteWorkflowAction.completedEvent).getD
      { workflowStatus := .terminated, result := et.input })
  childResults : s'.childResults.length =
    (s.startEvent.bind ExecutionStartedEvent.parentInstance).toList.length

theorem Applier.Reported.length {c : CompleteWorkflowAction}
    {msgs : List WorkflowRuntimeStateMessage} (h : Reported s c msgs) :
    msgs.length = (s.startEvent.bind ExecutionStartedEvent.parentInstance).toList.length := by
  cases h with
  | none root => rw [root]; rfl
  | parent child reports => rw [child]; rfl

theorem forcedTermination_applied (w : WorkflowProcessor) (env : ProcessEnv)
    (et : ExecutionTerminatedEvent) (hs : s.completedEvent = none) :
    ∃ s', w.applier.actions env.forced none s s.customStatus
      [WorkflowProcessor.forcedTermination et] = .ok ({}, s') := by
  unfold Applier.actions Applier.applyActions
  dsimp only
  rw [hs]
  exact ⟨_, rfl⟩

/-- The executor's actions, or else the forced termination, end the workflow. -/
theorem ended_of_enforced (et : ExecutionTerminatedEvent) {result : ActionsResult}
    {incomingHistory : Option PropagatedHistory} (hc : s.completedEvent = none)
    (hmsgs : s.pendingMessages = [])
    (hcan : result.continuedAsNew = false)
    (happly : w.applier.actions (env.generation 0) incomingHistory (s.recordVersion response.version)
      response.customStatus (beforeContinueAsNew response.actions) = .ok (result, s₁)) :
    ∃ s₂, w.enforceTermination env (some et) s₁ = .ok s₂ ∧ Ended et s response s₂ := by
  obtain ⟨added, ha⟩ := Applier.actions_applied happly hcan
  have hf := Applier.applyActions_framed happly hcan
  have hv := recordVersion_frame s response.version
  have hmsgs₁ : (s.recordVersion response.version).childResults = [] := by
    rw [hv]
    exact congrArg (List.filter _) hmsgs
  have hstart₁ : s₁.startEvent = s.startEvent := ha.startEvent.trans (by rw [hv])
  have hcan₁ : s₁.continuedAsNew = s.continuedAsNew := hf.continuedAsNew.trans (by rw [hv])
  have hold₁ : s₁.oldEvents = s.oldEvents := ha.oldEvents.trans (by rw [hv])
  have hnew₁ : (s.recordVersion response.version).newEvents <+: s₁.newEvents := ⟨added, ha.newEvents.symm⟩
  unfold WorkflowProcessor.enforceTermination WorkflowRuntimeState.isCompleted
  cases Applier.actions_completed happly hcan with
  | already completed =>
    rw [hv, hc] at completed
    cases completed
  | now c _ actions completedEvent msgs reported childResults =>
    refine ⟨s₁, by rw [completedEvent]; rfl, hstart₁, hcan₁, hold₁, hnew₁, ?_, ?_⟩
    · rw [completedEvent, firstCompletion, actions]
      rfl
    · rw [childResults, hmsgs₁, List.nil_append, reported.length, hv]
  | running _ actions completedEvent childResults =>
    -- The executor did not complete the workflow.
    obtain ⟨s₂, hforced⟩ := forcedTermination_applied w env et
      (s := { s₁ with pendingTasks := [], pendingTimers := [], pendingMessages := [] }) completedEvent
    obtain ⟨added₂, ha₂⟩ := Applier.actions_applied hforced rfl
    have hf₂ := Applier.applyActions_framed hforced rfl
    cases Applier.actions_completed hforced rfl with
    | already completed =>
      rw [completedEvent] at completed
      cases completed
    | running _ actions => cases actions
    | now c _ hactions hcompleted msgs reported childResults =>
      cases hactions
      refine ⟨s₂, ?_, ha₂.startEvent.trans hstart₁, hf₂.continuedAsNew.trans hcan₁,
        ha₂.oldEvents.trans hold₁, hnew₁.trans ⟨added₂, ha₂.newEvents.symm⟩, ?_, ?_⟩
      · have hnot : ¬s₁.completedEvent.isSome = true := by
          rw [completedEvent]
          exact nofun
        dsimp only
        rw [if_neg hnot]
        exact congrArg (fun r => (r.mapError ProcessError.forcing).map Prod.snd) hforced
      · rw [hcompleted, firstCompletion, actions]
        rfl
      · rw [childResults, List.length_append, reported.length]
        show 0 + (s₁.startEvent.bind _).toList.length = _
        rw [Nat.zero_add, hstart₁]

/-- The termination goes on to the children. -/
theorem Ended.cascade (now : Time) (hs : s.continuedAsNew = false) (hstart : s.startEvent.isSome = true)
    (h : Ended et s response s₂) :
    Enforced et s response (cascadeTermination now (some et) s₂) := by
  have hcompleted : s₂.isCompleted = true := by
    unfold WorkflowRuntimeState.isCompleted
    rw [h.completedEvent]
    rfl
  obtain ⟨es, hes⟩ := Option.isSome_iff_exists.mp hstart
  have hstatus (s' : WorkflowRuntimeState) (hs' : s'.startEvent = s₂.startEvent)
      (hc' : s'.completedEvent = s₂.completedEvent) : s'.runtimeStatus =
        ((firstCompletion response.actions).map CompleteWorkflowAction.workflowStatus).getD
          .terminated := by
    unfold WorkflowRuntimeState.runtimeStatus
    rw [hs', hc', h.startEvent, hes, h.completedEvent]
    cases firstCompletion response.actions <;> rfl
  unfold cascadeTermination
  dsimp only
  rw [if_pos hcompleted]
  unfold appendCascadeTerminateMessages
  cases hrec : et.recurse with
  | false =>
    rw [if_neg (by exact nofun)]
    exact ⟨h.startEvent, h.continuedAsNew.trans hs, h.oldEvents, h.newEvents, h.completedEvent,
      hstatus s₂ rfl rfl, h.childResults, by rw [hrec]; exact nofun⟩
  | true =>
    rw [if_pos rfl]
    refine ⟨h.startEvent, h.continuedAsNew.trans hs, h.oldEvents, h.newEvents, h.completedEvent,
      hstatus _ rfl rfl, ?_, fun _ => ⟨s₂.pendingMessages, _, rfl, ?_, ?_⟩⟩
    · rw [WorkflowRuntimeState.childResults, List.filter_append, List.length_append]
      refine (Nat.add_eq_left.mpr (List.length_eq_zero_iff.mpr ?_)).trans h.childResults
      refine List.filter_eq_nil_iff.mpr fun m hm => ?_
      obtain ⟨c, -, rfl⟩ := List.mem_map.mp hm
      exact nofun
    · rw [List.map_map]
      exact (List.map_id' _).symm ▸ getChildWorkflowInstances_spec _
    · intro m hm
      obtain ⟨c, -, rfl⟩ := List.mem_map.mp hm
      rfl

end Enforce

/-- The state with the events of a work item added, on a freshly loaded state. -/
theorem applyWorkItem_fresh (env : ProcessEnv) {wi : WorkflowWorkItem} {customStatus : Option String}
    {history : List HistoryEvent} (loaded : wi.state = .new wi.instanceID customStatus history)
    (valid : wi.state.isValid = true) (incomplete : wi.state.isCompleted = false)
    (batch : ∀ e ∈ wi.newEvents, e.getExecutionCompleted = none) :
    ∃ s, WorkflowProcessor.applyWorkItem env wi = some s ∧ s.completedEvent = none ∧
      s.pendingMessages = [] ∧ s.continuedAsNew = false := by
  let started : HistoryEvent := { timestamp := env.turnStartedAt, eventType := .workflowStarted none }
  refine ⟨(wi.state.addEvent started).addEvents wi.newEvents, ?_, ?_⟩
  · unfold WorkflowProcessor.applyWorkItem
    rw [if_neg (by rw [valid, incomplete]; simp)]
  · obtain ⟨hout, -, hcomp⟩ := (wi.state.addEvent started).addEvents_frame wi.newEvents
    have hnew := (WorkflowRuntimeState.foldl_addOrDrop_frame false history
      ({ instanceId := wi.instanceID, customStatus := customStatus }, some [])).1
    have hout : _ = wi.state.outbox := hout.trans (wi.state.addEvent_outbox started)
    rw [loaded] at hout
    have hout := hout.trans hnew
    have hnone : wi.state.completedEvent = none := Option.not_isSome_iff_eq_none.mp (by
      rw [show wi.state.completedEvent.isSome = false from incomplete]
      exact nofun)
    rw [loaded] at hnone
    rw [loaded] at hcomp
    rw [WorkflowRuntimeState.addEvent_completedEvent, hnone, List.findSome?_eq_none_iff.mpr batch]
      at hcomp
    rw [loaded]
    exact ⟨hcomp, congrArg (·.2.2.2.1) hout, congrArg (·.2.2.2.2.1) hout⟩

/-- A work item with a terminate event, on a freshly loaded state that is valid and not completed, ends
with the termination enforced against every response whose actions before the first continue-as-new
the applier accepts. -/
theorem termination_enforced (w : WorkflowProcessor) (env : ProcessEnv) (wi : WorkflowWorkItem)
    (customStatus : Option String) (history : List HistoryEvent) (et : ExecutionTerminatedEvent)
    (loaded : wi.state = .new wi.instanceID customStatus history)
    (valid : wi.state.isValid = true) (incomplete : wi.state.isCompleted = false)
    (terminated : wi.newEvents.findSome? HistoryEvent.getExecutionTerminated = some et)
    (batch : ∀ e ∈ wi.newEvents, e.getExecutionCompleted = none) :
    ∃ s, WorkflowProcessor.applyWorkItem env wi = some s ∧
      (s.startEvent.isSome = true → ∀ response,
        w.selectExecutor s 0 wi.instanceID s.oldEvents s.newEvents wi.incomingHistory = .ok response →
        (∃ r, w.applier.actions (env.generation 0) wi.incomingHistory
          (s.recordVersion response.version) response.customStatus
          (beforeContinueAsNew response.actions) = .ok r) →
        ∃ wi', w.processWorkItem env wi = .ok wi' ∧ Enforced et s response wi'.state) := by
  obtain ⟨s, happlied, hcomp, hmsgs, hcan⟩ := applyWorkItem_fresh env loaded valid incomplete batch
  refine ⟨s, happlied, ?_⟩
  rintro hstart response hexec ⟨⟨result, s₁⟩, happly⟩
  have hresult : result.continuedAsNew = false := by
    rcases actions_spec happly with ⟨happ, -⟩ | ⟨-, hfalse, -⟩
    · rw [appliesContinueAsNew_beforeContinueAsNew] at happ
      cases happ
    · exact hfalse
  obtain ⟨s₂, henforce, hended⟩ := ended_of_enforced et hcomp hmsgs hresult happly
  have hgen : w.runGeneration env wi.instanceID (some et) 0 s wi.incomingHistory =
      .ok (⟨env.generation 0, s.recordVersion response.version, beforeContinueAsNew response.actions⟩,
        result, s₁) := by
    refine Except.bind_eq_ok.mpr ⟨response, Except.mapError_eq_ok.mpr hexec, ?_⟩
    exact Except.bind_eq_ok.mpr ⟨(result, s₁), Except.mapError_eq_ok.mpr happly, rfl⟩
  have hloop := continueAsNewLoop_last maxContinueAsNewCount [] hgen hresult
  refine ⟨{ wi with
    state := cascadeTermination env.cascade (some et) s₂
    outgoingHistory := result.outgoingHistory }, ?_, hended.cascade env.cascade hcan hstart⟩
  unfold WorkflowProcessor.processWorkItem
  dsimp only
  rw [terminated, happlied]
  exact Except.bind_eq_ok.mpr ⟨_, hloop, Except.bind_eq_ok.mpr ⟨s₂, henforce, rfl⟩⟩

namespace TerminationExample

/-- A child workflow that has started. -/
def history : List HistoryEvent :=
  [{ eventType := .workflowStarted none },
   { eventType := .executionStarted
      { name := "wf", workflowInstance := ⟨"child", some "e1"⟩
        parentInstance := some { taskScheduledId := 3, workflowInstance := ⟨"parent", some "p1"⟩ } } }]

def et : ExecutionTerminatedEvent := { input := some "stop", recurse := true }

def workItem (batch : List HistoryEvent) : WorkflowWorkItem :=
  { instanceID := "child", newEvents := batch, state := .new "child" none history }

/-- An executor with a fixed answer. -/
def processor (response : WorkflowResponse) : WorkflowProcessor :=
  { executor := fun _ _ _ _ _ => .ok response, applier := ⟨"app", ""⟩ }

def failing : WorkflowResponse :=
  { actions := [{ id := 0, actionType := .completeWorkflow { workflowStatus := .failed } }] }

/-- With an `ExecutionCompleted` event in the batch the executor's completion is not recorded, and the
parent is not told. -/
theorem completed_batch_wins :
    ((processor failing).processWorkItem OutboxExample.processEnv
        (workItem [{ eventType := .executionTerminated et },
          { eventType := .executionCompleted { workflowStatus := .completed } }])).map
      (fun wi => (wi.state.runtimeStatus, wi.state.childResults)) = .ok (.completed, []) ∧
    (firstCompletion failing.actions).map CompleteWorkflowAction.workflowStatus = some .failed := by
  decide

/-- Start a child, then continue as new. -/
def restarting : WorkflowResponse :=
  { actions :=
      [{ id := 0, actionType := .createChildWorkflow { name := "wf", instanceId := "grandchild" } },
       { id := 1, actionType := .completeWorkflow { workflowStatus := .continuedAsNew } }] }

theorem restart_terminated :
    ∃ s wi', WorkflowProcessor.applyWorkItem OutboxExample.processEnv
        (workItem [{ eventType := .executionTerminated et }]) = some s ∧
      (processor restarting).processWorkItem OutboxExample.processEnv
        (workItem [{ eventType := .executionTerminated et }]) = .ok wi' ∧
      Enforced et s restarting wi'.state := by
  obtain ⟨s, hs, h⟩ := termination_enforced (processor restarting) OutboxExample.processEnv
    (workItem [{ eventType := .executionTerminated et }]) none history et rfl (by decide) (by decide)
    rfl (by decide)
  cases hs
  obtain ⟨wi', hwi', he⟩ := h rfl restarting rfl ⟨_, rfl⟩
  exact ⟨_, wi', rfl, hwi', he⟩

end TerminationExample

end DurableTask
