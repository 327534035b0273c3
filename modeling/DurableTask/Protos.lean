import Mathlib

/-!
# The messages of `api/protos`

The history events, workflow actions and runtime-state messages the engine, the SDK and the stores
exchange, with the fields some modelled function reads or writes. Protobuf getters on an absent
message return the zero value, so an optional `StringValue` is an `Option String` and `GetValue` is
`getD ""`. Marshalling is taken as lossless, so a stored payload is the event itself. Trace contexts,
tags and the unused `version` strings are left out.
-/

namespace DurableTask

abbrev InstanceID := String

/-- Action ids and event ids (`int32` sequence numbers). -/
abbrev ActionID := Int

/-- Instants, in nanoseconds. -/
abbrev Time := Int

/-- `time.Duration`, in nanoseconds. -/
abbrev Duration := Int

inductive OrchestrationStatus
  | running | completed | continuedAsNew | failed | canceled | terminated | pending | suspended
  | stalled
deriving DecidableEq, Repr

/-- `helpers.ToRuntimeStatusString`. -/
def OrchestrationStatus.toRuntimeStatusString : OrchestrationStatus → String
  | running => "RUNNING"
  | completed => "COMPLETED"
  | continuedAsNew => "CONTINUED_AS_NEW"
  | failed => "FAILED"
  | canceled => "CANCELED"
  | terminated => "TERMINATED"
  | pending => "PENDING"
  | suspended => "SUSPENDED"
  | stalled => "STALLED"

inductive HistoryPropagationScope
  | none | ownHistory | lineage
deriving DecidableEq, Repr

inductive StalledReason
  | patchMismatch | versionNotAvailable | payloadSizeExceeded
deriving DecidableEq, Repr

structure TaskRouter where
  sourceAppID : String := ""
  targetAppID : Option String := none
  targetAppNamespace : Option String := none
deriving DecidableEq, Repr

structure TaskFailureDetails where
  errorType : String
  errorMessage : String
deriving DecidableEq, Repr

structure WorkflowInstance where
  instanceId : InstanceID
  executionId : Option String := none
deriving DecidableEq, Repr

/-- `GetExecutionId().GetValue()`. -/
def WorkflowInstance.executionIdValue (w : WorkflowInstance) : String := w.executionId.getD ""

structure ParentInstanceInfo where
  taskScheduledId : ActionID
  name : Option String := none
  workflowInstance : WorkflowInstance
  appID : Option String := none
  appNamespace : Option String := none
deriving DecidableEq, Repr

structure WorkflowVersion where
  patches : List String := []
  name : Option String := none
deriving DecidableEq, Repr

structure ExecutionStartedEvent where
  name : String
  input : Option String := none
  workflowInstance : WorkflowInstance
  parentInstance : Option ParentInstanceInfo := none
  scheduledStartTimestamp : Option Time := none
deriving DecidableEq, Repr

structure ExecutionCompletedEvent where
  workflowStatus : OrchestrationStatus
  result : Option String := none
  failureDetails : Option TaskFailureDetails := none
deriving DecidableEq, Repr

structure ExecutionTerminatedEvent where
  input : Option String := none
  recurse : Bool := false
deriving DecidableEq, Repr

structure ExecutionStalledEvent where
  reason : StalledReason
  description : Option String := none
deriving DecidableEq, Repr

structure TaskScheduledEvent where
  name : String
  taskExecutionId : String := ""
  input : Option String := none
  historyPropagationScope : Option HistoryPropagationScope := none
deriving DecidableEq, Repr

structure TaskCompletedEvent where
  taskScheduledId : ActionID
  taskExecutionId : String := ""
  result : Option String := none
deriving DecidableEq, Repr

structure TaskFailedEvent where
  taskScheduledId : ActionID
  taskExecutionId : String := ""
  failureDetails : Option TaskFailureDetails := none
deriving DecidableEq, Repr

structure ChildWorkflowInstanceCreatedEvent where
  name : String
  input : Option String := none
  instanceId : InstanceID
  historyPropagationScope : Option HistoryPropagationScope := none
  retryParentInstanceInfo : Option InstanceID := none
deriving DecidableEq, Repr

structure ChildWorkflowInstanceCompletedEvent where
  taskScheduledId : ActionID
  result : Option String := none
deriving DecidableEq, Repr

structure ChildWorkflowInstanceFailedEvent where
  taskScheduledId : ActionID
  failureDetails : Option TaskFailureDetails := none
deriving DecidableEq, Repr

/-- The `Origin` oneof of a timer. -/
inductive TimerOrigin
  | createTimer
  | externalEvent (name : String)
  | activityRetry (taskExecutionId : String)
  | childWorkflowRetry (instanceId : InstanceID)
deriving DecidableEq, Repr

structure TimerCreatedEvent where
  fireAt : Time
  name : Option String := none
  origin : Option TimerOrigin := none
deriving DecidableEq, Repr

structure TimerFiredEvent where
  timerId : ActionID
  fireAt : Time
deriving DecidableEq, Repr

structure EventRaisedEvent where
  name : String
  input : Option String := none
deriving DecidableEq, Repr

structure EventSentEvent where
  instanceId : InstanceID
  name : String
  input : Option String := none
deriving DecidableEq, Repr

/-- The `EventType` oneof of a history event. -/
inductive EventType
  | executionStarted (es : ExecutionStartedEvent)
  | executionCompleted (ec : ExecutionCompletedEvent)
  | executionTerminated (et : ExecutionTerminatedEvent)
  | executionSuspended (input : Option String)
  | executionResumed (input : Option String)
  | executionStalled (es : ExecutionStalledEvent)
  | taskScheduled (ts : TaskScheduledEvent)
  | taskCompleted (tc : TaskCompletedEvent)
  | taskFailed (tf : TaskFailedEvent)
  | childWorkflowInstanceCreated (ts : ChildWorkflowInstanceCreatedEvent)
  | childWorkflowInstanceCompleted (sc : ChildWorkflowInstanceCompletedEvent)
  | childWorkflowInstanceFailed (sf : ChildWorkflowInstanceFailedEvent)
  | detachedWorkflowInstanceCreated (instanceId : InstanceID)
  | timerCreated (tc : TimerCreatedEvent)
  | timerFired (tf : TimerFiredEvent)
  | workflowStarted (version : Option WorkflowVersion)
  | workflowCompleted
  | eventSent (es : EventSentEvent)
  | eventRaised (er : EventRaisedEvent)
  | continueAsNew (input : Option String)
deriving DecidableEq, Repr

/-- A history event. `row` is for specifications only: the `NewEvents` row the event was dequeued
from, standing for the identity of the event; no modelled function reads it. -/
structure HistoryEvent where
  eventId : ActionID := -1
  timestamp : Time := 0
  eventType : EventType
  router : Option TaskRouter := none
  row : Option Nat := none
deriving DecidableEq, Repr

namespace HistoryEvent

def getExecutionStarted (e : HistoryEvent) : Option ExecutionStartedEvent :=
  match e.eventType with
  | .executionStarted es => some es
  | _ => none

def getExecutionCompleted (e : HistoryEvent) : Option ExecutionCompletedEvent :=
  match e.eventType with
  | .executionCompleted ec => some ec
  | _ => none

def getExecutionTerminated (e : HistoryEvent) : Option ExecutionTerminatedEvent :=
  match e.eventType with
  | .executionTerminated et => some et
  | _ => none

def getExecutionStalled (e : HistoryEvent) : Option ExecutionStalledEvent :=
  match e.eventType with
  | .executionStalled st => some st
  | _ => none

def getChildWorkflowInstanceCreated (e : HistoryEvent) : Option ChildWorkflowInstanceCreatedEvent :=
  match e.eventType with
  | .childWorkflowInstanceCreated ts => some ts
  | _ => none

/-- `GetWorkflowStarted`; the inner option is the event's `Version`. -/
def getWorkflowStarted (e : HistoryEvent) : Option (Option WorkflowVersion) :=
  match e.eventType with
  | .workflowStarted v => some v
  | _ => none

end HistoryEvent

structure PropagatedHistoryChunk where
  appId : String
  instanceId : InstanceID
  workflowName : String
  rawEvents : List HistoryEvent
deriving DecidableEq, Repr

structure PropagatedHistory where
  scope : HistoryPropagationScope
  chunks : List PropagatedHistoryChunk
deriving DecidableEq, Repr

structure ScheduleTaskAction where
  name : String
  taskExecutionId : String := ""
  input : Option String := none
  historyPropagationScope : Option HistoryPropagationScope := none
deriving DecidableEq, Repr

structure CreateTimerAction where
  fireAt : Time
  name : Option String := none
  origin : Option TimerOrigin := none
deriving DecidableEq, Repr

structure CreateChildWorkflowAction where
  name : String
  input : Option String := none
  instanceId : InstanceID := ""
  historyPropagationScope : Option HistoryPropagationScope := none
  retryParentInstanceInfo : Option InstanceID := none
deriving DecidableEq, Repr

structure CreateDetachedWorkflowAction where
  instanceId : InstanceID
  name : String
  input : Option String := none
  scheduledStartTimestamp : Option Time := none
  executionId : Option String := none
deriving DecidableEq, Repr

structure SendEventAction where
  instanceId : InstanceID
  name : String
  data : Option String := none
deriving DecidableEq, Repr

structure CompleteWorkflowAction where
  workflowStatus : OrchestrationStatus
  result : Option String := none
  failureDetails : Option TaskFailureDetails := none
  carryoverEvents : List HistoryEvent := []
deriving DecidableEq, Repr

structure TerminateWorkflowAction where
  instanceId : InstanceID
  reason : Option String := none
  recurse : Bool := false
deriving DecidableEq, Repr

/-- The `WorkflowActionType` oneof; `unset` is an action without one. -/
inductive WorkflowActionType
  | scheduleTask (a : ScheduleTaskAction)
  | createTimer (a : CreateTimerAction)
  | createChildWorkflow (a : CreateChildWorkflowAction)
  | createDetachedWorkflow (a : CreateDetachedWorkflowAction)
  | sendEvent (a : SendEventAction)
  | completeWorkflow (a : CompleteWorkflowAction)
  | terminateWorkflow (a : TerminateWorkflowAction)
  | workflowVersionNotAvailable
  | unset
deriving DecidableEq, Repr

structure WorkflowAction where
  id : ActionID
  actionType : WorkflowActionType
  router : Option TaskRouter := none
deriving DecidableEq, Repr

/-- The status of the completion an action asks for. -/
def WorkflowAction.completionStatus (a : WorkflowAction) : Option OrchestrationStatus :=
  match a.actionType with
  | .completeWorkflow c => some c.workflowStatus
  | _ => none

structure WorkflowRuntimeStateMessage where
  historyEvent : HistoryEvent
  targetInstanceId : InstanceID := ""
  propagatedHistory : Option PropagatedHistory := none
deriving DecidableEq, Repr

structure RuntimeStateStalled where
  reason : StalledReason
  description : Option String
deriving DecidableEq, Repr

structure WorkflowRuntimeState where
  instanceId : InstanceID
  newEvents : List HistoryEvent := []
  oldEvents : List HistoryEvent := []
  pendingTasks : List HistoryEvent := []
  pendingTimers : List HistoryEvent := []
  pendingMessages : List WorkflowRuntimeStateMessage := []
  startEvent : Option ExecutionStartedEvent := none
  completedEvent : Option ExecutionCompletedEvent := none
  createdTime : Option Time := none
  lastUpdatedTime : Option Time := none
  completedTime : Option Time := none
  continuedAsNew : Bool := false
  isSuspended : Bool := false
  customStatus : Option String := none
  stalled : Option RuntimeStateStalled := none
deriving DecidableEq, Repr

/-- What an executor answers for one turn. -/
structure WorkflowResponse where
  actions : List WorkflowAction := []
  customStatus : Option String := none
  version : Option WorkflowVersion := none
deriving DecidableEq, Repr

end DurableTask
