import DurableTask.Task.Calls

/-!
# The event handlers of a `WorkflowContext`

The `on…` methods of `orchestrator.go` and `detached.go` that do not run workflow code, the completion
actions, and the actions a turn returns.
-/

namespace DurableTask.Task

namespace Ctx

/-! ### Scheduling events -/

/-- Whether the pending action at an id is of the given kind. -/
def pendingIs (c : Ctx) (id : ActionID) (p : WorkflowActionType → Bool) : Bool :=
  match Assoc.get? c.pend.pendingActions id with
  | some a => p a.action.actionType
  | none => false

def isScheduleTask : WorkflowActionType → Bool
  | .scheduleTask _ => true
  | _ => false

def isCreateChildWorkflow : WorkflowActionType → Bool
  | .createChildWorkflow _ => true
  | _ => false

def isCreateTimer : WorkflowActionType → Bool
  | .createTimer _ => true
  | _ => false

/-- Drop at most `n` optional timers at an id, unless what is pending there is as recorded. -/
def dropUnless (c : Ctx) (asRecorded : Bool) (id : ActionID) (n : Nat) : Ctx :=
  if asRecorded then c else dropOptionalTimers id n c

/-- Match a recorded schedule with the pending action of its id, dropping at most `n` optional timers
at that id that the recording release did not have. -/
def alignSchedule (c : Ctx) (id : ActionID) (p : WorkflowActionType → Bool) (n : Nat) : Option Ctx :=
  let c := c.dropUnless (c.pendingIs id p) id n
  if c.pendingIs id p then some c else none

def removeAction (c : Ctx) (id : ActionID) : Ctx := { c with pend := c.pend.removeAction id }

def onTaskScheduled (c : Ctx) (taskID : ActionID) (ts : TaskScheduledEvent) :
    Except ProcessError Ctx :=
  match c.alignSchedule taskID isScheduleTask c.pend.pendingActions.length with
  | some c => .ok (c.removeAction taskID)
  | none => .error (.previousCallActivity ts.name taskID)

/-- `task.childInstanceID = instanceID` for the child workflow task pending at an id. -/
def setChildInstanceID (c : Ctx) (taskID : ActionID) (instanceID : InstanceID) : Ctx :=
  match Assoc.get? c.pend.pendingTasks taskID with
  | some t =>
    if t.kind = .child then
      let childInstanceID := Assoc.insert c.ident.childInstanceID t.task instanceID
      { c with ident := { c.ident with childInstanceID := childInstanceID } }
    else c
  | none => c

def onChildWorkflowScheduled (c : Ctx) (taskID : ActionID) (ts : ChildWorkflowInstanceCreatedEvent) :
    Except ProcessError Ctx :=
  match c.alignSchedule taskID isCreateChildWorkflow c.pend.pendingActions.length with
  | some c => .ok ((c.setChildInstanceID taskID ts.instanceId).removeAction taskID)
  | none => .error (.previousCallChildWorkflow ts.name taskID)

/-- A recorded timer that is optional itself is matched without dropping anything. -/
def onTimerCreated (c : Ctx) (timerID : ActionID) (tc : TimerCreatedEvent) :
    Except ProcessError Ctx :=
  let c := c.dropUnless (isOptionalExternalEventTimerCreatedEvent tc) timerID
    c.pend.pendingActions.length
  if c.pendingIs timerID isCreateTimer then
    .ok { c with pend := c.pend.removeTimer timerID }.consumeReadyBufferedResolutions
  else .error (.previousCreateTimer timerID)

/-- The instance id of the detached spawn pending at an id. -/
def pendingDetached (c : Ctx) (id : ActionID) : Option InstanceID :=
  match Assoc.get? c.pend.pendingActions id with
  | some a =>
    match a.action.actionType with
    | .createDetachedWorkflow d => some d.instanceId
    | _ => none
  | none => none

/-- Only one optional timer is dropped here, unlike in the handlers above. -/
def onDetachedWorkflowCreated (c : Ctx) (taskID : ActionID) (instanceId : InstanceID) :
    Except ProcessError Ctx :=
  let c := c.dropUnless (c.pendingDetached taskID).isSome taskID 1
  match c.pendingDetached taskID with
  | none => .error (.previousScheduleNewWorkflow instanceId taskID)
  | some scheduled =>
    if scheduled = instanceId then .ok (c.removeAction taskID)
    else .error (.previousScheduleNewWorkflowAs instanceId taskID scheduled)

/-! ### External events and termination -/

def onExternalEventRaised (env : SdkEnv) (c : Core) (e : HistoryEvent) (er : EventRaisedEvent) :
    Core :=
  let key := env.toUpper er.name
  match Assoc.get? c.pendingExternalEventTasks key with
  | some list =>
    match c.waitLists.getD list [] with
    | task :: rest =>
      let c := if rest.isEmpty then
          { c with pendingExternalEventTasks := Assoc.erase c.pendingExternalEventTasks key }
        else { c with waitLists := c.waitLists.set list rest }
      c.complete task (er.input.getD "")
    | [] => c
  | none =>
    let events := (Assoc.get? c.bufferedExternalEvents key).getD []
    { c with bufferedExternalEvents :=
        Assoc.insert c.bufferedExternalEvents key (events ++ [e]) }

/-- `setCompleteInternal`. -/
def setCompleteInternal (c : Ctx) (rawResult : Option String) (status : OrchestrationStatus)
    (failureDetails : Option TaskFailureDetails) : Ctx :=
  { c with pend := (c.pend.addAction
      (.completeWorkflow
        { workflowStatus := status, result := rawResult, failureDetails := failureDetails }) none
      none).1 }

/-- `setFailed`. -/
def setFailed (c : Ctx) (appError : TaskFailureDetails) : Ctx :=
  c.setCompleteInternal none .failed (some appError)

/-- The first pending completion. The source ranges over a map; there is at most one unless a workflow
function ran twice. -/
def pendingCompletion (c : Ctx) : Option (ActionID × OrchestrationStatus) :=
  c.pend.pendingActions.findSome? fun e => (e.2.action.completionStatus).map fun st => (e.1, st)

def onExecutionTerminated (c : Ctx) (et : ExecutionTerminatedEvent) : Ctx :=
  let c := { c with core := { c.core with isTerminated := true } }
  match c.pendingCompletion with
  | some (id, .continuedAsNew) =>
    (c.removeAction id).setCompleteInternal et.input .terminated none
  | some _ => c
  | none => c.setCompleteInternal et.input .terminated none

/-! ### Completion -/

/-- A completion whose payload does not marshal fails the workflow instead. -/
def setFailedToComplete (c : Ctx) (err : String) : Ctx :=
  c.setFailed ⟨"*fmt.wrapError", "failed to complete the workflow: " ++ err⟩

/-- `setComplete`, with the handling of its error in `onExecutionStarted`. -/
def setComplete (c : Ctx) : Output → Ctx
  | .nil => c.setCompleteInternal none .completed none
  | .value raw => c.setCompleteInternal (some raw) .completed none
  | .invalid err => c.setFailedToComplete ("failed to marshal output to JSON: " ++ err)

/-- `setContinuedAsNew`, with the handling of its error in `onExecutionStarted`. -/
def setContinuedAsNew (c : Ctx) : Ctx :=
  match c.core.continuedAsNewInput with
  | .nil => c.setCompleteInternal none .continuedAsNew none
  | .value raw => c.setCompleteInternal (some raw) .continuedAsNew none
  | .invalid err =>
    c.setFailedToComplete ("failed to marshal continue-as-new payload to JSON: " ++ err)

/-- What `onExecutionStarted` does when the workflow function returns. -/
def onReturn (c : Ctx) : Except TaskFailureDetails Output → Ctx
  | .error appError => c.setFailed appError
  | .ok output => if c.core.continuedAsNew then c.setContinuedAsNew else c.setComplete output

/-- What `start` does with an error of `processNextEvent`. -/
def onStartError (c : Ctx) (err : ProcessError) : Ctx :=
  if err = .unsupportedVersion then
    { c with pend := (c.pend.addAction .workflowVersionNotAvailable none none).1 }
  else c.setFailed ⟨"*errors.errorString", err.message⟩

/-! ### The actions of a turn -/

/-- The events an action carries over to the next generation. -/
def withCarryover (c : Core) (a : WorkflowAction) : WorkflowAction :=
  match a.actionType with
  | .completeWorkflow co =>
    if c.continuedAsNew && c.saveBufferedExternalEvents then
      { a with actionType := .completeWorkflow { co with
          carryoverEvents := co.carryoverEvents ++ c.bufferedExternalEvents.flatMap Prod.snd } }
    else a
  | _ => a

/-- Whether an action is withheld: new work whose numbering is provisional. -/
def isWithheld (p : Pending) (a : WorkflowAction) : Bool :=
  match a.actionType with
  | .completeWorkflow _ | .workflowVersionNotAvailable => false
  | _ => p.actionIDProvisional a.id

/-- `actions`. -/
def actions (c : Ctx) : List WorkflowAction :=
  if c.core.isSuspended && !c.core.isTerminated then []
  else
    ((c.pend.pendingActions.map (·.2.action)).filter (!isWithheld c.pend ·)).map
      (withCarryover c.core) |>.insertionSort (·.id ≤ ·.id)

end Ctx

end DurableTask.Task
