import DurableTask.Backend.Provenance

/-!
# How a turn answers the parent

A workflow with a parent reports its end once: the message is sent by the round that completes it, and
by no other. Continue-as-new keeps the parent.
-/

namespace DurableTask

/-- An executor that does not carry over a completion. -/
def WorkflowExecutor.CarriesNoCompletion (x : WorkflowExecutor) : Prop :=
  ∀ k id oldEvents newEvents incomingHistory response,
    x k id oldEvents newEvents incomingHistory = .ok response →
    ∀ action ∈ response.actions, ∀ c, action.getCompleteWorkflow = some c →
      ∀ e ∈ c.carryoverEvents, e.getExecutionCompleted = none

/-- A workflow with the given parent has not completed, or its completion is reported. -/
structure Answers (p : Option ParentInstanceInfo) (s : WorkflowRuntimeState) : Prop where
  parent : ∃ es, s.startEvent = some es ∧ es.parentInstance = p
  timers : ∀ e ∈ s.pendingTimers, e.isChildResult = false
  answer : s.completedEvent = none ∧ s.childResults = [] ∨
    ∃ c : CompleteWorkflowAction, s.completedEvent = some c.completedEvent ∧
      Applier.Reported s c s.childResults

variable {p : Option ParentInstanceInfo} {s s' : WorkflowRuntimeState}

/-- Only what the answer depends on counts. -/
theorem Answers.congr (h : Answers p s) (hstart : s'.startEvent = s.startEvent)
    (htimers : s'.pendingTimers = s.pendingTimers) (hcompleted : s'.completedEvent = s.completedEvent)
    (hresults : s'.childResults = s.childResults) : Answers p s' := by
  refine ⟨hstart ▸ h.parent, htimers ▸ h.timers, ?_⟩
  rw [hcompleted, hresults]
  refine h.answer.imp_right ?_
  rintro ⟨c, hc, hreported⟩
  exact ⟨c, hc, hreported.of_startEvent hstart⟩

namespace Applier

variable {a : Applier} {env : ApplyEnv} {receivedHistory : Option PropagatedHistory}
  {customStatus : Option String} {resolved : DedupSet} {i : Nat}

theorem effect_timer {action : WorkflowAction} {f : Effect}
    (h : a.effect env receivedHistory i resolved s action = .ok f) {e : HistoryEvent}
    (he : f.timer = some e) : e.isChildResult = false := by
  rcases action with ⟨id, body, router⟩
  cases body with
  | completeWorkflow c =>
    cases h
    unfold completeWorkflow at he
    split at he <;> cases he
  | createChildWorkflow c =>
    simp only [effect, createChildWorkflow] at h
    split at h
    · cases h
      cases he
    · split at h <;> cases h
      cases he
  | createDetachedWorkflow c =>
    simp only [effect, createDetachedWorkflow] at h
    split at h <;> cases h
    cases he
  | scheduleTask t =>
    cases h
    unfold scheduleTask at he
    dsimp only at he
    split at he <;> cases he
  | createTimer t =>
    cases h
    unfold createTimer at he
    dsimp only at he
    split at he <;> cases he
    rfl
  | sendEvent | terminateWorkflow | workflowVersionNotAvailable =>
    cases h
    cases he
  | unset => cases h

theorem Effect.pendingTimers_apply (f : Effect) (s : WorkflowRuntimeState) :
    (f.apply s).pendingTimers = s.pendingTimers ++ f.timer.toList := by
  unfold Effect.apply
  cases f.event with
  | none => rfl
  | some e => exact congrArg (· ++ f.timer.toList) (congrArg (·.2.2.1) (s.addEvent_outbox e))

theorem answers_effect {action : WorkflowAction} {f : Effect} (hs : Answers p s)
    (h : a.effect env receivedHistory i resolved s action = .ok f) : Answers p (f.apply s) := by
  obtain ⟨-, -, hstart, hcompleted, -⟩ := (effect_round h).apply
  have hresults := f.childResults_apply s
  refine ⟨hstart ▸ hs.parent, ?_, ?_⟩
  · intro e he
    rw [f.pendingTimers_apply, List.mem_append, Option.mem_toList] at he
    rcases he with he | he
    · exact hs.timers e he
    · exact effect_timer h he
  · cases effect_ends h with
    | idle event message idle =>
      rw [hcompleted, event, Option.or_none, hresults, message, List.append_nil]
      refine hs.answer.imp_right ?_
      rintro ⟨c, hc, hreported⟩
      exact ⟨c, hc, hreported.of_startEvent hstart⟩
    | completes c completion incomplete event message =>
      have hnone : s.childResults = [] := by
        rcases hs.answer with ⟨-, hnone⟩ | ⟨c', hc', -⟩
        · exact hnone
        · rw [incomplete] at hc'
          cases hc'
      refine .inr ⟨c, ?_, ?_⟩
      · rw [hcompleted, incomplete, event]
        rfl
      · rw [hresults, hnone, message.filter]
        exact message.of_startEvent hstart

theorem foldl_addEvent_started {es : List HistoryEvent} {start : ExecutionStartedEvent}
    (hs : s.startEvent = some start) :
    (es.foldl WorkflowRuntimeState.addEvent s).startEvent = some start := by
  refine List.foldlRecOn (motive := fun s : WorkflowRuntimeState => s.startEvent = some start) es _ hs
    fun s hs e _ => ?_
  rw [WorkflowRuntimeState.addEvent_startEvent, hs]
  rfl

theorem foldl_addEvent_incomplete {es : List HistoryEvent} (hs : s.completedEvent = none)
    (hes : ∀ e ∈ es, e.getExecutionCompleted = none) :
    (es.foldl WorkflowRuntimeState.addEvent s).completedEvent = none := by
  refine List.foldlRecOn (motive := fun s : WorkflowRuntimeState => s.completedEvent = none) es _ hs
    fun s hs e he => ?_
  rw [WorkflowRuntimeState.addEvent_completedEvent, hs, hes e he]
  rfl

/-- A new generation has the same parent, and nothing to answer yet. -/
theorem answers_continueAsNewState {router : TaskRouter} {c : CompleteWorkflowAction}
    {startEvent : ExecutionStartedEvent} (hparent : startEvent.parentInstance = p)
    (hc : ∀ e ∈ c.carryoverEvents, e.getExecutionCompleted = none) :
    Answers p (continueAsNewState env i router customStatus c s startEvent) := by
  have hout : (continueAsNewState env i router customStatus c s startEvent).outbox =
      (s.instanceId, [], [], [], true, customStatus) :=
    (continueAsNewState_frame i router c startEvent).1
  refine ⟨⟨_, foldl_addEvent_started rfl, hparent⟩, ?_, .inl ⟨?_, ?_⟩⟩
  · rw [show (continueAsNewState env i router customStatus c s startEvent).pendingTimers = [] from
      congrArg (·.2.2.1) hout]
    exact fun e he => absurd he List.not_mem_nil
  · exact foldl_addEvent_incomplete rfl hc
  · unfold WorkflowRuntimeState.childResults
    rw [show (continueAsNewState env i router customStatus c s startEvent).pendingMessages = [] from
      congrArg (·.2.2.2.1) hout]
    rfl

theorem answers_actions {actions : List WorkflowAction} {result : ActionsResult} (hs : Answers p s)
    (hcarry : ∀ action ∈ actions, ∀ c, action.getCompleteWorkflow = some c →
      ∀ e ∈ c.carryoverEvents, e.getExecutionCompleted = none)
    (h : a.actions env receivedHistory s customStatus actions = .ok (result, s')) : Answers p s' := by
  have hs : Answers p { s with customStatus := customStatus, stalled := none } :=
    hs.congr rfl rfl rfl rfl
  refine applyActions_invariant (fun hs _ _ hf => answers_effect hs hf)
    (fun hs hmem hc _ hstart => ?_) hs h
  obtain ⟨es, hes, hp⟩ := hs.parent
  rw [hstart] at hes
  cases hes
  exact answers_continueAsNewState hp
    (hcarry _ hmem _ (getCompleteWorkflow_of_continueAsNewAction hc))

end Applier

theorem answers_runGeneration {w : WorkflowProcessor} {env : ProcessEnv} {instanceID : InstanceID}
    {terminateEvent : Option ExecutionTerminatedEvent} {k : Nat}
    {incomingHistory : Option PropagatedHistory} {g : Generation} {result : ActionsResult}
    (hw : w.Executors WorkflowExecutor.CarriesNoCompletion) (hs : Answers p s)
    (h : w.runGeneration env instanceID terminateEvent k s incomingHistory = .ok (g, result, s')) :
    Answers p s' := by
  obtain ⟨response, actions, hresponse, hactions, happly⟩ := runGeneration_actions h
  have hs : Answers p (s.recordVersion response.version) := by
    rw [recordVersion_frame s response.version]
    exact hs.congr rfl rfl rfl rfl
  refine Applier.answers_actions hs (fun action haction c hc => ?_) happly
  exact hw.selectExecutor s k instanceID _ _ _ response hresponse action (hactions action haction) c hc

theorem childResults_append {msgs : List WorkflowRuntimeStateMessage}
    (hmsgs : ∀ m ∈ msgs, ∃ et, m.historyEvent.eventType = .executionTerminated et) :
    ({ s with pendingMessages := s.pendingMessages ++ msgs } : WorkflowRuntimeState).childResults =
      s.childResults := by
  have hnone : msgs.filter WorkflowRuntimeStateMessage.isChildResult = [] := by
    refine List.filter_eq_nil_iff.mpr fun m hm => ?_
    obtain ⟨et, het⟩ := hmsgs m hm
    unfold WorkflowRuntimeStateMessage.isChildResult HistoryEvent.isChildResult
    rw [het]
    exact nofun
  unfold WorkflowRuntimeState.childResults
  rw [List.filter_append, hnone, List.append_nil]

/-- A processed work item: it was dropped, or the workflow has not completed, or it has completed in
this turn and the parent is told. -/
theorem answers_processWorkItem {w : WorkflowProcessor} {env : ProcessEnv}
    {wi wi' : WorkflowWorkItem} (hw : w.Executors WorkflowExecutor.CarriesNoCompletion)
    (hparent : ∃ es, wi.state.startEvent.or
      (wi.newEvents.findSome? HistoryEvent.getExecutionStarted) = some es ∧ es.parentInstance = p)
    (hbatch : ∀ e ∈ wi.newEvents, e.getExecutionCompleted = none)
    (htimers : wi.state.pendingTimers = []) (hmsgs : wi.state.pendingMessages = [])
    (h : w.processWorkItem env wi = .ok wi') :
    (∃ msgs, wi'.state = { wi.state with pendingMessages := wi.state.pendingMessages ++ msgs } ∧
      wi'.state.childResults = []) ∨ wi.state.completedEvent = none ∧ Answers p wi'.state := by
  have hturn := processWorkItem_invariant (J := Answers p)
    (fun hs h => answers_runGeneration hw hs h) ?forced
    (fun hs hmsgs => hs.congr rfl rfl rfl (childResults_append hmsgs)) ?start h
  case forced =>
    intro s et s' hs hincomplete hforced
    have hs : Answers p { s with pendingTasks := [], pendingTimers := [], pendingMessages := [] } :=
      ⟨hs.parent, fun e he => absurd he List.not_mem_nil, .inl ⟨hincomplete, rfl⟩⟩
    refine Applier.answers_actions hs (fun action haction c hc => ?_) hforced
    rw [List.mem_singleton.mp haction] at hc
    cases hc
    exact fun e he => absurd he List.not_mem_nil
  case start =>
    intro hincomplete
    have hstarted := wi.state.addEvent_outbox
      { timestamp := env.turnStartedAt, eventType := .workflowStarted none }
    obtain ⟨hout, hstart, hcompleted⟩ := (wi.state.addEvent
      { timestamp := env.turnStartedAt, eventType := .workflowStarted none }).addEvents_frame
      wi.newEvents
    have hout := hout.trans hstarted
    rw [WorkflowRuntimeState.addEvent_startEvent] at hstart
    rw [WorkflowRuntimeState.addEvent_completedEvent, hincomplete] at hcompleted
    generalize (wi.state.addEvent
      { timestamp := env.turnStartedAt, eventType := .workflowStarted none }).addEvents wi.newEvents =
      s₁ at hout hstart hcompleted ⊢
    have htimers₁ : s₁.pendingTimers = wi.state.pendingTimers := congrArg (·.2.2.1) hout
    have hmsgs₁ : s₁.pendingMessages = wi.state.pendingMessages := congrArg (·.2.2.2.1) hout
    refine ⟨?_, ?_, .inl ⟨?_, ?_⟩⟩
    · obtain ⟨es, hes, hp⟩ := hparent
      refine ⟨es, hstart.trans ?_, hp⟩
      have hnone : (HistoryEvent.getExecutionStarted
        { timestamp := env.turnStartedAt, eventType := .workflowStarted none }) = none := rfl
      rw [hnone, Option.or_none, hes]
    · rw [htimers₁, htimers]
      exact fun e he => absurd he List.not_mem_nil
    · exact hcompleted.trans (List.findSome?_eq_none_iff.mpr hbatch)
    · unfold WorkflowRuntimeState.childResults
      rw [hmsgs₁, hmsgs]
      rfl
  rcases hturn with ⟨-, msgs, heq, hterminated⟩ | hturn
  · refine .inl ⟨msgs, heq, ?_⟩
    rw [heq, childResults_append hterminated]
    unfold WorkflowRuntimeState.childResults
    rw [hmsgs]
    rfl
  · exact .inr hturn

end DurableTask
