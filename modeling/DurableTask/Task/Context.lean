import DurableTask.Lib.Assoc
import DurableTask.RuntimeState.Basic

/-!
# The state of a `WorkflowContext`

The fields of `WorkflowContext` in four groups: the position in the history (`Hist`), the numbering
of scheduled work (`Pending`), the state that steers the workflow (`Core`), and generated names that
only end up in the content of actions (`Ident`). Objects the Go code shares through pointers live in
lists of `Core` and are referred to by position.
-/

namespace DurableTask.Task

/-! ### Errors -/

/-- The errors `processEvent` returns. -/
inductive ProcessError
  | previousCallActivity (name : String) (id : ActionID)
  | previousCallChildWorkflow (name : String) (id : ActionID)
  | previousCreateTimer (id : ActionID)
  | previousScheduleNewWorkflow (instanceId : InstanceID) (id : ActionID)
  | previousScheduleNewWorkflowAs (instanceId : InstanceID) (id : ActionID) (scheduled : InstanceID)
  | unknownEvent
  | noLatestVersion (name : String)
  | unsupportedVersion
  | notRegistered (name : String)
deriving DecidableEq, Repr

def ProcessError.message : ProcessError → String
  | previousCallActivity name id =>
    "a previous execution called CallActivity for '" ++ name ++ "' and sequence number " ++
      toString id ++ " at this point in the workflow logic, but the current execution doesn't have" ++
      " this action with this sequence number"
  | previousCallChildWorkflow name id =>
    "a previous execution called CallChildWorkflow for '" ++ name ++ "' and sequence number " ++
      toString id ++ " at this point in the workflow logic, but the current execution doesn't have" ++
      " this action with this sequence number"
  | previousCreateTimer id =>
    "a previous execution called CreateTimer with sequence number " ++ toString id ++
      ", but the current execution doesn't have this action with this sequence number"
  | previousScheduleNewWorkflow instanceId id =>
    "a previous execution called ScheduleNewWorkflow for instance ID '" ++ instanceId ++
      "' and sequence number " ++ toString id ++ " at this point in the workflow logic, but the" ++
      " current execution doesn't have this action with this sequence number"
  | previousScheduleNewWorkflowAs instanceId id scheduled =>
    "a previous execution called ScheduleNewWorkflow for instance ID '" ++ instanceId ++
      "' and sequence number " ++ toString id ++ " at this point in the workflow logic, but the" ++
      " current execution scheduled instance ID '" ++ scheduled ++ "'"
  | unknownEvent => "don't know how to handle event"
  | noLatestVersion name =>
    "versioned workflow '" ++ name ++ "' does not have a latest version registered"
  | unsupportedVersion => "orchestrator version is not registered"
  | notRegistered name => "workflow named '" ++ name ++ "' is not registered"

/-- The nondeterminism errors, those whose text starts with "a previous execution called". -/
def ProcessError.isPreviousExecution : ProcessError → Bool
  | previousCallActivity .. | previousCallChildWorkflow .. | previousCreateTimer ..
  | previousScheduleNewWorkflow .. | previousScheduleNewWorkflowAs .. => true
  | _ => false

/-- The errors `Await` returns. -/
inductive AwaitError
  | taskFailed (errorMessage : String)
  | canceled
  | decode (err : String)
  | history (err : ProcessError)
  | timer (timerErr err : AwaitError)
deriving DecidableEq, Repr

def AwaitError.message : AwaitError → String
  | taskFailed errorMessage => "task failed with an error: " ++ errorMessage
  | canceled => "the task was canceled"
  | decode err => "failed to decode task result: " ++ err
  | history err => err.message
  | timer timerErr err => timerErr.message ++ " " ++ err.message

/-- What `Await(v)` returns; the value is the decoded one, if there was something to decode. -/
abbrev AwaitResult := Except AwaitError (Option String)

/-- A value user code hands over for marshalling: nothing, a value that marshals to the given text,
or one that does not marshal. -/
inductive Output
  | nil
  | value (raw : String)
  | invalid (err : String)
deriving DecidableEq, Repr

/-! ### Tasks -/

/-- What the timer of an external-event wait does when it fires: cancel the wait and deregister it
from the list it was registered in. -/
structure WaitTimeout where
  task : Nat
  key : String
  list : Nat
deriving DecidableEq, Repr

/-- `completableTask`. Its `kind` is kept with the reference in `pendingTasks`, its `childInstanceID`
and `childAction` in `Ident`. -/
structure CompletableTask where
  isCompleted : Bool := false
  isCanceled : Bool := false
  rawResult : String := ""
  failureDetails : Option TaskFailureDetails := none
  completedCallback : Option WaitTimeout := none
  taskExecutionId : String := ""
deriving DecidableEq, Repr, Inhabited

/-- `RetryPolicy`. `handle` names the function given by the caller, if any. -/
structure RetryPolicy where
  maxAttempts : Int
  initialRetryInterval : Duration
  backoffCoefficient : Rat := 0
  maxRetryInterval : Duration := 0
  retryTimeout : Duration := 0
  handle : Option Nat := none
deriving DecidableEq, Repr

structure CallActivityOptions where
  rawInput : Option String := none
  retryPolicy : Option RetryPolicy := none
  targetAppID : Option String := none
  targetAppNamespace : Option String := none
  propagationScope : Option HistoryPropagationScope := none
deriving DecidableEq, Repr

structure CallChildWorkflowOptions where
  instanceID : InstanceID := ""
  rawInput : Option String := none
  targetAppID : Option String := none
  targetAppNamespace : Option String := none
  retryPolicy : Option RetryPolicy := none
  propagationScope : Option HistoryPropagationScope := none
deriving DecidableEq, Repr

/-- What a retry chain schedules: the `schedule` closure. -/
inductive Attempt
  | activity (activityName : String) (options : CallActivityOptions)
  | childWorkflow (workflowName : String) (options : CallChildWorkflowOptions)
deriving DecidableEq, Repr

/-- The values the closures of a retry chain share. `firstTask` is the task of a child workflow
chain's first attempt; `firstInstanceID` is kept in `Ident`. -/
structure RetryChain where
  name : String
  initialAttempt : Time
  attempt : Attempt
  policy : RetryPolicy
  firstTask : Option Nat := none
deriving DecidableEq, Repr

/-- `retryTask`. Its `dispatchExecutionID` is kept in `Ident`. -/
structure RetryTask where
  chain : Nat
  current : Nat
  recordedExecutionID : String := ""
  retryCount : Nat := 0
  finished : Bool := false
  terminalError : Option AwaitError := none
deriving DecidableEq, Repr

/-- `taskWrapper` of the legacy retry chain. -/
structure TaskWrapper where
  chain : Nat
  delegate : Nat
  retryCount : Nat
deriving DecidableEq, Repr

/-- A `Task` as user code holds it. -/
inductive TaskRef
  | completable (task : Nat)
  | retry (retry : Nat)
  | wrapper (wrapper : Nat)
deriving DecidableEq, Repr

/-! ### The context -/

/-- A pending action. `task` is for specifications only: the task object of the call that scheduled
it. -/
structure PendingAction where
  action : WorkflowAction
  task : Option Nat := none
deriving DecidableEq, Repr

structure PendingTask where
  kind : Kind
  task : Nat
deriving DecidableEq, Repr

/-- The numbering of scheduled work. `allocated` is for specifications only: the ids handed out. -/
structure Pending where
  sequenceNumber : ActionID := 0
  pendingActions : List (ActionID × PendingAction) := []
  pendingTasks : List (ActionID × PendingTask) := []
  optionalTimerIDs : List ActionID := []
  bufferedResolutions : List ((Kind × ActionID) × HistoryEvent) := []
  resolvedResolutions : List (Kind × ActionID) := []
  allocated : List ActionID := []
deriving DecidableEq, Repr

/-- The state that steers the workflow function. -/
structure Core where
  id : InstanceID
  name : String := ""
  /-- The zero `time.Time` is 62135596800 s before the epoch. -/
  currentTimeUtc : Time := -62135596800000000000
  rawInput : String := ""
  isSuspended : Bool := false
  isTerminated : Bool := false
  continuedAsNew : Bool := false
  continuedAsNewInput : Output := .nil
  customStatus : String := ""
  bufferedExternalEvents : List (String × List HistoryEvent) := []
  pendingExternalEventTasks : List (String × Nat) := []
  saveBufferedExternalEvents : Bool := false
  appliedPatches : List (String × Bool) := []
  encounteredPatches : List String := []
  defaultDetachedWorkflowCounter : Nat := 0
  tasks : List CompletableTask := []
  waitLists : List (List Nat) := []
  chains : List RetryChain := []
  retryTasks : List RetryTask := []
  wrappers : List TaskWrapper := []
deriving DecidableEq, Repr

/-- Generated and recorded names: how many UUIDs were drawn, the dispatch ids of retry tasks, the
first instance ids of child retry chains, and the instance and action ids of child workflow tasks. -/
structure Ident where
  uuids : Nat := 0
  dispatchExecutionID : List (Nat × String) := []
  firstInstanceID : List (Nat × InstanceID) := []
  childInstanceID : List (Nat × InstanceID) := []
  childAction : List (Nat × ActionID) := []
deriving DecidableEq, Repr

structure Ctx where
  core : Core
  pend : Pending := {}
  ident : Ident := {}
deriving DecidableEq, Repr

/-- The position in the history. An event is paired with its position, which stands for the pointer
to it. -/
structure Hist where
  oldEvents : List HistoryEvent
  newEvents : List HistoryEvent
  historyIndex : Nat := 0
  isReplaying : Bool := false
  suspendedEvents : List (Nat × HistoryEvent) := []
  historyPatches : List String := []
  versionName : Option String := none
deriving DecidableEq, Repr

namespace Hist

def events (h : Hist) : List HistoryEvent := h.oldEvents ++ h.newEvents

/-- `getNextHistoryEvent`. -/
def getNextHistoryEvent (h : Hist) : Option ((Nat × HistoryEvent) × Hist) :=
  (h.events[h.historyIndex]?).map fun e =>
    ((h.historyIndex, e),
      { h with historyIndex := h.historyIndex + 1
               isReplaying := decide (h.historyIndex < h.oldEvents.length) })

/-- The execution id `CallChildWorkflow` finds: that of the first start event of the new events, else
of the old ones. -/
def executionID (h : Hist) : String :=
  match (h.newEvents.findSome? HistoryEvent.getExecutionStarted).or
    (h.oldEvents.findSome? HistoryEvent.getExecutionStarted) with
  | some es => es.workflowInstance.executionIdValue
  | none => ""

/-- The recorded instance id of the child scheduled by action `id`, if any. -/
def createdInstanceID (h : Hist) (id : ActionID) : Option InstanceID :=
  (h.events.filterMap fun e =>
    match e.getChildWorkflowInstanceCreated with
    | some created =>
      if e.eventId = id ∧ created.instanceId ≠ "" then some created.instanceId else none
    | none => none).getLast?

end Hist

/-- What the SDK takes from outside: `strings.ToUpper`, unmarshalling into a destination type, the
retry predicates, the two `float64` computations of the back-off, the SHA-256 child instance ids, and
`uuid.NewString`. With `legacyWaits` it is the earlier release, in which an indefinite
`WaitForSingleEvent` creates no timer. -/
structure SdkEnv where
  toUpper : String → String
  unmarshal : Nat → String → Except String String
  handle : Nat → AwaitError → Bool
  nextDelayMs : Int → Rat → Nat → Rat
  float64 : Int → Rat
  childInstanceID : InstanceID → String → ActionID → InstanceID
  uuid : Nat → String
  legacyWaits : Bool := false

end DurableTask.Task
