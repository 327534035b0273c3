import DurableTask.Lib.Except
import DurableTask.RuntimeState.Basic

/-!
# `runtimestate.Applier`

How the actions an executor returned update the runtime state: the scheduling events they append to
the history, the timers, tasks and messages they put in the outbox, and the fresh state a
continue-as-new completion switches to. Clock readings and fresh UUIDs are inputs, indexed by the
position of the action that asks for them, and the SHA-256 child instance ids are a parameter.
-/

namespace DurableTask

/-- What `Actions` reads from outside: the clock, `uuid.New`, and
`helpers.GenerateChildWorkflowInstanceIDForExecution`. -/
structure ApplyEnv where
  now : Nat → Time
  uuid : Nat → String
  childInstanceID : InstanceID → String → ActionID → InstanceID

structure Applier where
  appID : String
  appNamespace : String
deriving DecidableEq, Repr

structure ActionsResult where
  continuedAsNew : Bool := false
  outgoingHistory : List (ActionID × PropagatedHistory) := []
  newIncomingHistory : Option PropagatedHistory := none
deriving DecidableEq, Repr

/-- Why `Actions` fails. `nilStartEvent` is the nil dereference of `s.StartEvent` in a state that
never saw its start event. -/
inductive ApplyError
  | detachedRequiresInstanceID
  | unknownActionType
  | nilStartEvent
deriving DecidableEq, Repr

def ApplyError.message : ApplyError → String
  | detachedRequiresInstanceID => "CreateDetachedWorkflowAction requires an instance ID"
  | unknownActionType => "unknown action type"
  | nilStartEvent => "invalid memory address or nil pointer dereference"

/-! ### Propagated history -/

/-- `canForwardScope`. -/
def canForwardScope (receivedHistory : Option PropagatedHistory) : HistoryPropagationScope :=
  match receivedHistory with
  | some ph => ph.scope
  | none => .none

/-- `AssembleProtoPropagatedHistory`. -/
def assembleProtoPropagatedHistory (state : WorkflowRuntimeState) (scope : HistoryPropagationScope)
    (receivedHistory : Option PropagatedHistory) (appID : String) : Option PropagatedHistory :=
  if scope = .none then none
  else
    let received := if scope = .lineage then
        (receivedHistory.map PropagatedHistory.chunks).getD []
      else []
    let ownEvents := state.oldEvents ++ state.newEvents
    let own := if ownEvents.isEmpty then [] else
      [{ appId := appID, instanceId := state.instanceId,
         workflowName := ((ownEvents.findSome? HistoryEvent.getExecutionStarted).map
           ExecutionStartedEvent.name).getD ""
         rawEvents := ownEvents : PropagatedHistoryChunk }]
    some { scope := scope, chunks := received ++ own }

namespace Applier

variable (a : Applier) (env : ApplyEnv) (receivedHistory : Option PropagatedHistory)

/-- The router every action carries once the loop has stamped it. -/
def stampRouter (r : Option TaskRouter) : TaskRouter :=
  match r with
  | none => { sourceAppID := a.appID }
  | some r => { r with sourceAppID := a.appID }

/-- The state a continue-as-new completion switches to: a new generation with the old name and
parent, the new input and the carried-over events. -/
def continueAsNewState (i : Nat) (router : TaskRouter) (customStatus : Option String)
    (completedAction : CompleteWorkflowAction) (s : WorkflowRuntimeState)
    (startEvent : ExecutionStartedEvent) : WorkflowRuntimeState :=
  let newState : WorkflowRuntimeState :=
    { WorkflowRuntimeState.new s.instanceId customStatus [] with continuedAsNew := true }
  let newState := newState.addEvent
    { timestamp := env.now i, eventType := .workflowStarted none, router := some router }
  let newState := newState.addEvent
    { timestamp := env.now i
      eventType := .executionStarted
        { name := startEvent.name
          parentInstance := startEvent.parentInstance
          input := completedAction.result
          workflowInstance := ⟨s.instanceId, some (env.uuid i)⟩ }
      router := some router }
  completedAction.carryoverEvents.foldl WorkflowRuntimeState.addEvent newState

/-- The router of the message that tells a parent how its child ended. -/
def completionRouter (router : TaskRouter) (parentInstance : ParentInstanceInfo) : TaskRouter :=
  match parentInstance.appID with
  | some appID =>
    { sourceAppID := router.sourceAppID, targetAppID := some appID
      targetAppNamespace := parentInstance.appNamespace }
  | none => router

/-- How a child's end is reported to its parent. -/
def childResult (taskScheduledId : ActionID) (c : CompleteWorkflowAction) : EventType :=
  if c.workflowStatus = .completed then
    .childWorkflowInstanceCompleted { taskScheduledId := taskScheduledId, result := c.result }
  else
    .childWorkflowInstanceFailed
      { taskScheduledId := taskScheduledId
        failureDetails := some (c.failureDetails.getD
          ⟨"ChildWorkflowFailed", "child workflow ended with status ORCHESTRATION_STATUS_" ++
            c.workflowStatus.toRuntimeStatusString⟩) }

/-- What one round of the loop adds: an event to the history, entries to the outbox, and the history
propagated to an activity. -/
structure Effect where
  event : Option HistoryEvent := none
  task : Option HistoryEvent := none
  timer : Option HistoryEvent := none
  message : Option WorkflowRuntimeStateMessage := none
  outgoing : Option PropagatedHistory := none

def Effect.apply (f : Effect) (s : WorkflowRuntimeState) : WorkflowRuntimeState :=
  let s := (f.event.map s.addEvent).getD s
  { s with
    pendingTasks := s.pendingTasks ++ f.task.toList
    pendingTimers := s.pendingTimers ++ f.timer.toList
    pendingMessages := s.pendingMessages ++ f.message.toList }

section Rounds

variable (i : Nat) (id : ActionID) (router : TaskRouter) (resolved : DedupSet)
  (s : WorkflowRuntimeState)

/-- The event an action appends to its own history. -/
def recorded (eventType : EventType) : HistoryEvent :=
  { eventId := id, timestamp := env.now i, eventType := eventType, router := some router }

/-- The message that tells the parent of a completed workflow, if it has one. -/
def completionMessage (c : CompleteWorkflowAction) : Option WorkflowRuntimeStateMessage :=
  (s.startEvent.bind ExecutionStartedEvent.parentInstance).map fun parentInstance =>
    { historyEvent :=
        { timestamp := env.now i
          eventType := childResult parentInstance.taskScheduledId c
          router := some (completionRouter router parentInstance) }
      targetInstanceId := parentInstance.workflowInstance.instanceId }

/-- A completion other than continue-as-new. A completion already applied wins. -/
def completeWorkflow (c : CompleteWorkflowAction) : Effect :=
  if s.completedEvent.isSome then {}
  else
    { event := recorded env i id router (.executionCompleted
        { workflowStatus := c.workflowStatus, result := c.result, failureDetails := c.failureDetails })
      message := completionMessage env i router s c }

def createTimer (t : CreateTimerAction) : Effect :=
  { event := recorded env i id router (.timerCreated
      { fireAt := t.fireAt, name := t.name, origin := t.origin })
    timer :=
      if (Kind.timer, id) ∈ resolved then none
      else some { timestamp := env.now i
                  eventType := .timerFired { timerId := id, fireAt := t.fireAt } } }

def scheduleTask (t : ScheduleTaskAction) : Effect :=
  let scheduledEvent := recorded env i id router (.taskScheduled
    { name := t.name, taskExecutionId := t.taskExecutionId, input := t.input
      historyPropagationScope := t.historyPropagationScope })
  if (Kind.task, id) ∈ resolved then { event := scheduledEvent }
  else
    { event := scheduledEvent
      task := scheduledEvent
      outgoing := assembleProtoPropagatedHistory (s.addEvent scheduledEvent)
        (t.historyPropagationScope.getD .none) receivedHistory a.appID }

/-- `parentInstanceInfo`. -/
def parentInstanceInfo (startEvent : ExecutionStartedEvent) : ParentInstanceInfo :=
  { taskScheduledId := id
    name := some startEvent.name
    workflowInstance := ⟨s.instanceId, startEvent.workflowInstance.executionId⟩
    appID := some router.sourceAppID
    appNamespace := if a.appNamespace = "" then none else some a.appNamespace }

/-- The instance id of a created child: the given one, or one made from the parent's execution. -/
def childInstanceId (c : CreateChildWorkflowAction) : InstanceID :=
  if c.instanceId = "" then
    env.childInstanceID s.instanceId
      ((s.startEvent.map (·.workflowInstance.executionIdValue)).getD "") id
  else c.instanceId

def createChildWorkflow (c : CreateChildWorkflowAction) : Except ApplyError Effect :=
  let instanceId := childInstanceId env id s c
  let createdEvent := recorded env i id router (.childWorkflowInstanceCreated
    { name := c.name, input := c.input, instanceId := instanceId
      historyPropagationScope := c.historyPropagationScope
      retryParentInstanceInfo := c.retryParentInstanceInfo })
  if (Kind.child, id) ∈ resolved then .ok { event := createdEvent }
  else
    match s.startEvent with
    | none => .error .nilStartEvent
    | some startEvent =>
      .ok
        { event := createdEvent
          message := some
            { historyEvent :=
                { timestamp := env.now i
                  eventType := .executionStarted
                    { name := c.name
                      parentInstance := some (a.parentInstanceInfo id router s startEvent)
                      input := c.input
                      workflowInstance := ⟨instanceId, some (env.uuid i)⟩ }
                  router := some router }
              targetInstanceId := instanceId
              propagatedHistory := assembleProtoPropagatedHistory (s.addEvent createdEvent)
                (c.historyPropagationScope.getD .none) receivedHistory a.appID } }

/-- The router of a detached workflow's start event: the target only, without a reference back. -/
def spawnedRouter : Option TaskRouter :=
  if router.targetAppID.getD "" = "" then none
  else
    some
      { targetAppID := router.targetAppID
        targetAppNamespace :=
          if router.targetAppNamespace.getD "" = "" then none else router.targetAppNamespace }

/-- The message that starts a detached workflow. -/
def detachedMessage (c : CreateDetachedWorkflowAction) : WorkflowRuntimeStateMessage :=
  { historyEvent :=
      { timestamp := env.now i
        eventType := .executionStarted
          { name := c.name, input := c.input
            scheduledStartTimestamp := c.scheduledStartTimestamp
            workflowInstance := ⟨c.instanceId,
              if c.executionId.getD "" = "" then some (env.uuid i) else c.executionId⟩ }
        router := spawnedRouter router }
    targetInstanceId := c.instanceId }

def createDetachedWorkflow (c : CreateDetachedWorkflowAction) : Except ApplyError Effect :=
  if c.instanceId = "" then .error .detachedRequiresInstanceID
  else
    .ok { event := recorded env i id router (.detachedWorkflowInstanceCreated c.instanceId)
          message := detachedMessage env i router c }

/-- The event a send-event action appends to its own history and sends to its target. -/
def eventSent (e : SendEventAction) : HistoryEvent :=
  recorded env i id router (.eventSent { instanceId := e.instanceId, name := e.name, input := e.data })

def eventSentMessage (e : SendEventAction) : WorkflowRuntimeStateMessage :=
  { historyEvent := eventSent env i id router e, targetInstanceId := e.instanceId }

/-- The message that terminates another workflow. -/
def terminateMessage (t : TerminateWorkflowAction) : WorkflowRuntimeStateMessage :=
  { historyEvent :=
      { timestamp := env.now i
        eventType := .executionTerminated { input := t.reason, recurse := t.recurse }
        router := some router }
    targetInstanceId := t.instanceId }

/-- The message of a stalled workflow; it is addressed to no instance. -/
def versionNotAvailableMessage : WorkflowRuntimeStateMessage :=
  let versionName := ((s.oldEvents.findSome? HistoryEvent.getWorkflowStarted).bind
    fun v => v.bind WorkflowVersion.name).getD ""
  { historyEvent :=
      { timestamp := env.now i
        eventType := .executionStalled
          { reason := .versionNotAvailable
            description := some ("Version not available: " ++ versionName) }
        router := some router } }

/-- One round of the loop of `Actions`, for the action at position `i`. A continue-as-new completion
comes here only in a workflow that is already completed. -/
def effect (action : WorkflowAction) : Except ApplyError Effect :=
  let router := a.stampRouter action.router
  match action.actionType with
  | .completeWorkflow c => .ok (completeWorkflow env i action.id router s c)
  | .createTimer t => .ok (createTimer env i action.id router resolved t)
  | .scheduleTask t => .ok (a.scheduleTask env receivedHistory i action.id router resolved s t)
  | .createChildWorkflow c =>
    a.createChildWorkflow env receivedHistory i action.id router resolved s c
  | .createDetachedWorkflow c => createDetachedWorkflow env i action.id router c
  | .sendEvent e =>
    .ok { event := eventSent env i action.id router e
          message := eventSentMessage env i action.id router e }
  | .terminateWorkflow t => .ok { message := terminateMessage env i router t }
  | .workflowVersionNotAvailable => .ok { message := versionNotAvailableMessage env i router s }
  | .unset => .error .unknownActionType

end Rounds

/-- The completion of a continue-as-new action. -/
def continueAsNewAction (action : WorkflowAction) : Option CompleteWorkflowAction :=
  match action.actionType with
  | .completeWorkflow c => if c.workflowStatus = .continuedAsNew then some c else none
  | _ => none

/-- The result with the history propagated to the activity `id`. -/
def ActionsResult.addOutgoing (result : ActionsResult) (id : ActionID)
    (outgoing : Option PropagatedHistory) : ActionsResult :=
  match outgoing with
  | none => result
  | some ph =>
    { result with outgoingHistory := result.outgoingHistory.filter (·.1 ≠ id) ++ [(id, ph)] }

/-- The result of a continue-as-new, with the chunk the next generation receives. -/
def continueAsNewResult (s : WorkflowRuntimeState) (result : ActionsResult) : ActionsResult :=
  let scope := canForwardScope receivedHistory
  { result with
    continuedAsNew := true
    newIncomingHistory :=
      if scope = .none then result.newIncomingHistory
      else assembleProtoPropagatedHistory s scope receivedHistory a.appID }

/-- The loop of `Actions`. A continue-as-new completion applied while no completion is recorded
replaces the state and ends the loop. -/
def applyActions (customStatus : Option String) (resolved : DedupSet) :
    Nat → List WorkflowAction → ActionsResult → WorkflowRuntimeState →
      Except ApplyError (ActionsResult × WorkflowRuntimeState)
  | _, [], result, s => .ok (result, s)
  | i, action :: actions, result, s =>
    match s.completedEvent, continueAsNewAction action with
    | none, some c =>
      match s.startEvent with
      | none => .error .nilStartEvent
      | some startEvent =>
        .ok (a.continueAsNewResult receivedHistory s result,
          continueAsNewState env i (a.stampRouter action.router) customStatus c s startEvent)
    | _, _ => do
      let f ← a.effect env receivedHistory i resolved s action
      applyActions customStatus resolved (i + 1) actions
        (ActionsResult.addOutgoing result action.id f.outgoing) (f.apply s)

/-- `Applier.Actions`. -/
def actions (s : WorkflowRuntimeState) (customStatus : Option String)
    (actions : List WorkflowAction) : Except ApplyError (ActionsResult × WorkflowRuntimeState) :=
  let s := { s with customStatus := customStatus, stalled := none }
  a.applyActions env receivedHistory customStatus (DedupSet.newForState s) 0 actions {} s

end Applier

end DurableTask
