import DurableTask.RuntimeState.Scheduling

/-!
# How `Applier.Actions` completes a workflow

The first completion of a list of actions is the one that is recorded, and the one reported to the
parent; no other action reports anything to a parent.
-/

namespace DurableTask

/-- `GetCompleteWorkflow`. -/
def WorkflowAction.getCompleteWorkflow (a : WorkflowAction) : Option CompleteWorkflowAction :=
  match a.actionType with
  | .completeWorkflow c => some c
  | _ => none

/-- What a completion is recorded as. -/
def CompleteWorkflowAction.completedEvent (c : CompleteWorkflowAction) : ExecutionCompletedEvent :=
  { workflowStatus := c.workflowStatus, result := c.result, failureDetails := c.failureDetails }

/-- `IsChildResult`: the events that report the end of a child to its parent. -/
def HistoryEvent.isChildResult (e : HistoryEvent) : Bool :=
  match e.eventType with
  | .childWorkflowInstanceCompleted _ | .childWorkflowInstanceFailed _ => true
  | _ => false

def WorkflowRuntimeStateMessage.isChildResult (m : WorkflowRuntimeStateMessage) : Bool :=
  m.historyEvent.isChildResult

def WorkflowRuntimeState.childResults (s : WorkflowRuntimeState) :
    List WorkflowRuntimeStateMessage :=
  s.pendingMessages.filter WorkflowRuntimeStateMessage.isChildResult

namespace Applier

theorem getCompleteWorkflow_of_continueAsNewAction {action : WorkflowAction}
    {c : CompleteWorkflowAction} (h : continueAsNewAction action = some c) :
    action.getCompleteWorkflow = some c := by
  unfold continueAsNewAction at h
  unfold WorkflowAction.getCompleteWorkflow
  cases hbody : action.actionType with
  | completeWorkflow c' =>
    simp only [hbody] at h
    split at h <;> cases h
    rfl
  | _ => simp only [hbody, reduceCtorEq] at h

/-- A message that reports a completion to a parent. -/
structure Reports (c : CompleteWorkflowAction) (parent : ParentInstanceInfo)
    (m : WorkflowRuntimeStateMessage) : Prop where
  target : m.targetInstanceId = parent.workflowInstance.instanceId
  eventType : m.historyEvent.eventType = childResult parent.taskScheduledId c

theorem isChildResult_childResult {m : WorkflowRuntimeStateMessage} {id : ActionID}
    {c : CompleteWorkflowAction} (h : m.historyEvent.eventType = childResult id c) :
    m.isChildResult = true := by
  unfold WorkflowRuntimeStateMessage.isChildResult HistoryEvent.isChildResult
  rw [h, childResult]
  by_cases hc : c.workflowStatus = .completed
  · rw [if_pos hc]
  · rw [if_neg hc]

/-- The messages that report a completion of a workflow: one if it has a parent. -/
inductive Reported (s : WorkflowRuntimeState) (c : CompleteWorkflowAction) :
    List WorkflowRuntimeStateMessage → Prop
  | none (root : s.startEvent.bind ExecutionStartedEvent.parentInstance = none) : Reported s c []
  | parent {p : ParentInstanceInfo} {m : WorkflowRuntimeStateMessage}
    (child : s.startEvent.bind ExecutionStartedEvent.parentInstance = some p) (reports : Reports c p m) :
    Reported s c [m]

section Round

variable {a : Applier} {env : ApplyEnv} {receivedHistory : Option PropagatedHistory} {i : Nat}
  {resolved : DedupSet} {action : WorkflowAction} {s s' : WorkflowRuntimeState} {f : Effect}

theorem reported_completionMessage (env : ApplyEnv) (i : Nat) (router : TaskRouter)
    (s : WorkflowRuntimeState) (c : CompleteWorkflowAction) :
    Reported s c (completionMessage env i router s c).toList := by
  unfold completionMessage
  cases hp : s.startEvent.bind ExecutionStartedEvent.parentInstance with
  | none => exact .none hp
  | some p => exact .parent hp ⟨rfl, rfl⟩

theorem Reported.filter {c : CompleteWorkflowAction} {msgs : List WorkflowRuntimeStateMessage}
    (h : Reported s c msgs) : msgs.filter WorkflowRuntimeStateMessage.isChildResult = msgs := by
  cases h with
  | none => rfl
  | parent child reports =>
    rw [List.filter_cons_of_pos (isChildResult_childResult reports.eventType)]
    rfl

theorem Reported.of_startEvent {c : CompleteWorkflowAction}
    {msgs : List WorkflowRuntimeStateMessage} (h : Reported s c msgs)
    (hs : s'.startEvent = s.startEvent) : Reported s' c msgs := by
  cases h with
  | none root => exact .none (hs ▸ root)
  | parent child reports => exact .parent (hs ▸ child) reports

/-- What a round does towards the end of the workflow: nothing, or its first completion. -/
inductive Ends (action : WorkflowAction) (s : WorkflowRuntimeState) (f : Effect) : Prop
  | idle (event : f.event.bind HistoryEvent.getExecutionCompleted = none)
    (message : f.message.toList.filter WorkflowRuntimeStateMessage.isChildResult = [])
    (idle : s.completedEvent.isSome = true ∨ action.getCompleteWorkflow = none)
  | completes (c : CompleteWorkflowAction) (completion : action.getCompleteWorkflow = some c)
    (incomplete : s.completedEvent = none)
    (event : f.event.bind HistoryEvent.getExecutionCompleted = some c.completedEvent)
    (message : Reported s c f.message.toList)

theorem effect_ends (h : a.effect env receivedHistory i resolved s action = .ok f) :
    Ends action s f := by
  rcases action with ⟨id, body, router⟩
  cases body with
  | completeWorkflow c =>
    cases h
    unfold completeWorkflow
    split
    · next hs => exact .idle rfl rfl (.inl hs)
    · next hs =>
      exact .completes c rfl (Option.not_isSome_iff_eq_none.mp hs) rfl
        (reported_completionMessage ..)
  | createChildWorkflow c =>
    simp only [effect, createChildWorkflow] at h
    split at h
    · cases h
      exact .idle rfl rfl (.inr rfl)
    · split at h <;> cases h
      exact .idle rfl rfl (.inr rfl)
  | createDetachedWorkflow c =>
    simp only [effect, createDetachedWorkflow] at h
    split at h <;> cases h
    exact .idle rfl rfl (.inr rfl)
  | scheduleTask t =>
    cases h
    unfold scheduleTask
    dsimp only
    split <;> exact .idle rfl rfl (.inr rfl)
  | createTimer | sendEvent | terminateWorkflow | workflowVersionNotAvailable =>
    cases h
    exact .idle rfl rfl (.inr rfl)
  | unset => cases h

/-- The events of a round neither suspend, resume nor stall the workflow, and come from no queue. -/
theorem effect_event_status (h : a.effect env receivedHistory i resolved s action = .ok f)
    {e : HistoryEvent} (he : f.event = some e) :
    (∀ isSuspended, WorkflowRuntimeState.suspendedAfter isSuspended e = isSuspended) ∧
      e.getExecutionStalled = none ∧ e.row = none := by
  rcases action with ⟨id, body, router⟩
  cases body with
  | completeWorkflow c =>
    cases h
    unfold completeWorkflow at he
    split at he <;> cases he
    exact ⟨fun _ => rfl, rfl, rfl⟩
  | createChildWorkflow c =>
    simp only [effect, createChildWorkflow] at h
    split at h
    · cases h
      cases he
      exact ⟨fun _ => rfl, rfl, rfl⟩
    · split at h <;> cases h
      cases he
      exact ⟨fun _ => rfl, rfl, rfl⟩
  | createDetachedWorkflow c =>
    simp only [effect, createDetachedWorkflow] at h
    split at h <;> cases h
    cases he
    exact ⟨fun _ => rfl, rfl, rfl⟩
  | scheduleTask t =>
    cases h
    unfold scheduleTask at he
    dsimp only at he
    split at he <;> (cases he; exact ⟨fun _ => rfl, rfl, rfl⟩)
  | createTimer | sendEvent =>
    cases h
    cases he
    exact ⟨fun _ => rfl, rfl, rfl⟩
  | terminateWorkflow | workflowVersionNotAvailable => cases h; cases he
  | unset => cases h

/-- What no round touches. -/
structure Framed (s s' : WorkflowRuntimeState) : Prop where
  instanceId : s'.instanceId = s.instanceId
  continuedAsNew : s'.continuedAsNew = s.continuedAsNew
  customStatus : s'.customStatus = s.customStatus
  isSuspended : s'.isSuspended = s.isSuspended
  stalled : s.stalled = none → s'.stalled = none

theorem Framed.trans {s'' : WorkflowRuntimeState} (h : Framed s s') (h' : Framed s' s'') :
    Framed s s'' :=
  ⟨h'.instanceId.trans h.instanceId, h'.continuedAsNew.trans h.continuedAsNew,
    h'.customStatus.trans h.customStatus, h'.isSuspended.trans h.isSuspended,
    fun hs => h'.stalled (h.stalled hs)⟩

theorem addOrDrop_stalled {e : HistoryEvent} (hstall : e.getExecutionStalled = none)
    (isNew : Bool) {p : WorkflowRuntimeState × Option DedupSet} (hs : p.1.stalled = none) :
    (WorkflowRuntimeState.addOrDrop isNew p e).1.stalled = none := by
  rcases WorkflowRuntimeState.addOrDrop_cases isNew p e with ⟨-, h⟩ | ⟨q, -, h⟩
  · rw [h]
    exact hs
  · rw [h]
    unfold WorkflowRuntimeState.appendEvent
    split
    · next st hst =>
      unfold HistoryEvent.getExecutionStalled at hstall
      rw [hst] at hstall
      cases hstall
    · split <;> rfl

theorem addEvent_framed {e : HistoryEvent}
    (hsusp : ∀ isSuspended, WorkflowRuntimeState.suspendedAfter isSuspended e = isSuspended)
    (hstall : e.getExecutionStalled = none) : Framed s (s.addEvent e) := by
  have hout := s.addEvent_outbox e
  refine ⟨congrArg (·.1) hout, congrArg (·.2.2.2.2.1) hout, congrArg (·.2.2.2.2.2) hout,
    (WorkflowRuntimeState.addOrDrop_isSuspended true (s, none) e).trans (hsusp _), ?_⟩
  exact addOrDrop_stalled (p := (s, none)) hstall true

theorem effect_framed (h : a.effect env receivedHistory i resolved s action = .ok f) :
    Framed s (f.apply s) := by
  unfold Effect.apply
  cases he : f.event with
  | none => exact ⟨rfl, rfl, rfl, rfl, id⟩
  | some e =>
    obtain ⟨hsusp, hstall, -⟩ := effect_event_status h he
    exact (addEvent_framed hsusp hstall).trans ⟨rfl, rfl, rfl, rfl, id⟩

theorem Effect.childResults_apply (f : Effect) (s : WorkflowRuntimeState) :
    (f.apply s).childResults =
      s.childResults ++ f.message.toList.filter WorkflowRuntimeStateMessage.isChildResult := by
  unfold WorkflowRuntimeState.childResults
  rw [f.pendingMessages_apply, List.filter_append]

end Round

/-- What a call of `Actions` that does not continue as new does towards the end of the workflow. -/
inductive Completed (actions : List WorkflowAction) (s s' : WorkflowRuntimeState) : Prop
  | already (completed : s.completedEvent.isSome = true)
    (completedEvent : s'.completedEvent = s.completedEvent)
    (childResults : s'.childResults = s.childResults)
  | running (incomplete : s.completedEvent = none)
    (actions : actions.findSome? WorkflowAction.getCompleteWorkflow = none)
    (completedEvent : s'.completedEvent = none) (childResults : s'.childResults = s.childResults)
  | now (c : CompleteWorkflowAction) (incomplete : s.completedEvent = none)
    (actions : actions.findSome? WorkflowAction.getCompleteWorkflow = some c)
    (completedEvent : s'.completedEvent = some c.completedEvent)
    (msgs : List WorkflowRuntimeStateMessage) (reported : Reported s c msgs)
    (childResults : s'.childResults = s.childResults ++ msgs)

theorem Completed.cons {action : WorkflowAction} {actions : List WorkflowAction} {f : Effect}
    {s s' : WorkflowRuntimeState} (hr : Round action s f) (he : Ends action s f)
    (h : Completed actions (f.apply s) s') : Completed (action :: actions) s s' := by
  obtain ⟨-, -, hstart, hcomp, -⟩ := hr.apply
  have hres := f.childResults_apply s
  cases he with
  | idle event message idle =>
    rw [event, Option.or_none] at hcomp
    rw [message, List.append_nil] at hres
    cases h with
    | already completed completedEvent childResults =>
      exact .already (hcomp ▸ completed) (completedEvent.trans hcomp) (childResults.trans hres)
    | running incomplete actions completedEvent childResults =>
      have hc := hcomp.symm.trans incomplete
      refine .running hc ?_ completedEvent (childResults.trans hres)
      rw [List.findSome?_cons, idle.resolve_left (by rw [hc]; exact nofun)]
      exact actions
    | now c incomplete actions completedEvent msgs reported childResults =>
      have hc := hcomp.symm.trans incomplete
      refine .now c hc ?_ completedEvent msgs (reported.of_startEvent hstart.symm)
        (childResults.trans (by rw [hres]))
      rw [List.findSome?_cons, idle.resolve_left (by rw [hc]; exact nofun)]
      exact actions
  | completes c completion incomplete event message =>
    rw [incomplete, event] at hcomp
    rw [message.filter] at hres
    have hfind : (action :: actions).findSome? WorkflowAction.getCompleteWorkflow = some c := by
      rw [List.findSome?_cons, completion]
    cases h with
    | already completed completedEvent childResults =>
      exact .now c incomplete hfind (completedEvent.trans hcomp) _ message
        (childResults.trans hres)
    | running incomplete' => rw [hcomp] at incomplete'; cases incomplete'
    | now c' incomplete' => rw [hcomp] at incomplete'; cases incomplete'

theorem applyActions_completed {a : Applier} {env : ApplyEnv}
    {receivedHistory : Option PropagatedHistory} {customStatus : Option String} {resolved : DedupSet}
    {i : Nat} {actions : List WorkflowAction} {result result' : ActionsResult}
    {s s' : WorkflowRuntimeState}
    (h : a.applyActions env receivedHistory customStatus resolved i actions result s =
      .ok (result', s'))
    (hcan : result'.continuedAsNew = false) : Completed actions s s' := by
  induction actions generalizing i result s with
  | nil =>
    cases h
    cases hs : s'.completedEvent with
    | none => exact .running hs rfl hs rfl
    | some c => exact .already (by rw [hs]; rfl) rfl rfl
  | cons action actions ih =>
    unfold applyActions at h
    split at h
    · split at h <;> cases h
      cases hcan
    · obtain ⟨f, hf, h⟩ := Except.bind_eq_ok.mp h
      exact (ih h).cons (effect_round hf) (effect_ends hf)

theorem actions_completed {a : Applier} {env : ApplyEnv} {receivedHistory : Option PropagatedHistory}
    {customStatus : Option String} {actions : List WorkflowAction} {result : ActionsResult}
    {s s' : WorkflowRuntimeState}
    (h : a.actions env receivedHistory s customStatus actions = .ok (result, s'))
    (hcan : result.continuedAsNew = false) : Completed actions s s' := by
  cases applyActions_completed h hcan with
  | already completed completedEvent childResults =>
    exact .already completed completedEvent childResults
  | running incomplete actions completedEvent childResults =>
    exact .running incomplete actions completedEvent childResults
  | now c incomplete actions completedEvent msgs reported childResults =>
    exact .now c incomplete actions completedEvent msgs (reported.of_startEvent rfl) childResults

theorem applyActions_framed {a : Applier} {env : ApplyEnv}
    {receivedHistory : Option PropagatedHistory} {customStatus : Option String} {resolved : DedupSet}
    {i : Nat} {actions : List WorkflowAction} {result result' : ActionsResult}
    {s s' : WorkflowRuntimeState}
    (h : a.applyActions env receivedHistory customStatus resolved i actions result s =
      .ok (result', s'))
    (hcan : result'.continuedAsNew = false) : Framed s s' := by
  induction actions generalizing i result s with
  | nil =>
    cases h
    exact ⟨rfl, rfl, rfl, rfl, id⟩
  | cons action actions ih =>
    unfold applyActions at h
    split at h
    · split at h <;> cases h
      cases hcan
    · obtain ⟨f, hf, h⟩ := Except.bind_eq_ok.mp h
      exact (effect_framed hf).trans (ih h)

/-- What every round keeps, and what a fresh generation has, holds at the end of the loop. -/
theorem applyActions_invariant {a : Applier} {env : ApplyEnv}
    {receivedHistory : Option PropagatedHistory} {customStatus : Option String} {resolved : DedupSet}
    {i : Nat} {actions : List WorkflowAction} {result result' : ActionsResult}
    {s s' : WorkflowRuntimeState} {J : WorkflowRuntimeState → Prop}
    (hround : ∀ {i s action f}, J s → action ∈ actions →
      (s.completedEvent = none → continueAsNewAction action = none) →
      a.effect env receivedHistory i resolved s action = .ok f → J (f.apply s))
    (hfresh : ∀ {i s action c startEvent}, J s → action ∈ actions →
      continueAsNewAction action = some c → s.completedEvent = none → s.startEvent = some startEvent →
      J (continueAsNewState env i (a.stampRouter action.router) customStatus c s startEvent))
    (hs : J s)
    (h : a.applyActions env receivedHistory customStatus resolved i actions result s =
      .ok (result', s')) : J s' := by
  induction actions generalizing i result s with
  | nil =>
    cases h
    exact hs
  | cons action actions ih =>
    unfold applyActions at h
    split at h
    · next c hcompleted hc =>
      split at h <;> cases h
      next hstart => exact hfresh hs List.mem_cons_self hc hcompleted hstart
    · next hcan =>
      obtain ⟨f, hf, h⟩ := Except.bind_eq_ok.mp h
      refine ih (fun hs hmem => hround hs (List.mem_cons_of_mem _ hmem))
        (fun hs hmem => hfresh hs (List.mem_cons_of_mem _ hmem))
        (hround hs List.mem_cons_self (fun hnone => ?_) hf) h
      exact Option.eq_none_iff_forall_ne_some.mpr fun c hc => hcan c hnone hc

end Applier

end DurableTask
