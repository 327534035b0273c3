import DurableTask.RuntimeState.Applier

/-!
# `backend/orchestration.go`

`ProcessWorkItem`: a work item's events are added to the loaded state, the executor is called, its
actions are applied, and the turn is repeated on the fresh state as long as the workflow continues
as new. The executor may be external code, so it is a parameter and may answer differently at each
generation. Tracing and logging are left out.
-/

namespace DurableTask

structure WorkflowWorkItem where
  instanceID : InstanceID
  newEvents : List HistoryEvent
  lockedBy : String := ""
  retryCount : Int := 0
  state : WorkflowRuntimeState
  incomingHistory : Option PropagatedHistory := none
  outgoingHistory : List (ActionID × PropagatedHistory) := []
deriving DecidableEq, Repr

/-- `ExecuteWorkflow` of a `WorkflowExecutor`, at the given generation of a turn. -/
abbrev WorkflowExecutor :=
  Nat → InstanceID → List HistoryEvent → List HistoryEvent → Option PropagatedHistory →
    Except String WorkflowResponse

structure WorkflowProcessor where
  executor : WorkflowExecutor
  inProcessExecutor : Option WorkflowExecutor := none
  inProcessNamePrefix : String := ""
  applier : Applier

/-- The clock and UUID readings of one `ProcessWorkItem`: at the start of the turn, in each
generation, for a forced termination and for its cascade. -/
structure ProcessEnv where
  turnStartedAt : Time
  generation : Nat → ApplyEnv
  forced : ApplyEnv
  cascade : Time

inductive ProcessError
  | executing (err : String)
  | applying (err : ApplyError)
  | forcing (err : ApplyError)
  | exceededContinueAsNewLimit
deriving DecidableEq, Repr

def maxContinueAsNewCount : Nat := 20

def ProcessError.message : ProcessError → String
  | executing err => "error executing workflow: " ++ err
  | applying err => "failed to apply the execution result actions: " ++ err.message
  | forcing err => "failed to apply forced termination: " ++ err.message
  | exceededContinueAsNewLimit =>
    "exceeded tight-loop continue-as-new limit of " ++ toString maxContinueAsNewCount ++ " iterations"

/-- One round of the continue-as-new loop: the state the actions were applied to, and the actions.
Recorded for specifications only. -/
structure Generation where
  env : ApplyEnv
  before : WorkflowRuntimeState
  actions : List WorkflowAction

structure LoopResult where
  state : WorkflowRuntimeState
  incomingHistory : Option PropagatedHistory
  outgoingHistory : List (ActionID × PropagatedHistory)
  /-- The rounds that continued as new, and the one that did not. -/
  continued : List Generation
  last : Generation

/-- `os.Version = version` on the first `WorkflowStarted` event. -/
def recordVersion (version : WorkflowVersion) : List HistoryEvent → List HistoryEvent
  | [] => []
  | e :: es =>
    match e.eventType with
    | .workflowStarted _ => { e with eventType := .workflowStarted (some version) } :: es
    | _ => e :: recordVersion version es

def WorkflowRuntimeState.recordVersion (s : WorkflowRuntimeState) (v : Option WorkflowVersion) :
    WorkflowRuntimeState :=
  match v with
  | none => s
  | some version =>
    if version.patches.isEmpty && version.name.isNone then s
    else { s with newEvents := DurableTask.recordVersion version s.newEvents }

/-- The actions before the first continue-as-new completion. -/
def beforeContinueAsNew (actions : List WorkflowAction) : List WorkflowAction :=
  actions.takeWhile fun action => (Applier.continueAsNewAction action).isNone

namespace WorkflowProcessor

variable (w : WorkflowProcessor) (env : ProcessEnv)

/-- The executor that runs a state: the in-process one for names with its prefix. -/
def selectExecutor (s : WorkflowRuntimeState) : WorkflowExecutor :=
  match w.inProcessExecutor with
  | some inProcess =>
    if w.inProcessNamePrefix ≠ "" ∧
        w.inProcessNamePrefix.isPrefixOf ((s.startEvent.map ExecutionStartedEvent.name).getD "") then
      inProcess
    else w.executor
  | none => w.executor

/-- One round of the loop of `ProcessWorkItem`. -/
def runGeneration (instanceID : InstanceID) (terminateEvent : Option ExecutionTerminatedEvent)
    (k : Nat) (s : WorkflowRuntimeState) (incomingHistory : Option PropagatedHistory) :
    Except ProcessError (Generation × ActionsResult × WorkflowRuntimeState) := do
  let results ← (w.selectExecutor s k instanceID s.oldEvents s.newEvents incomingHistory).mapError
    .executing
  let s := s.recordVersion results.version
  -- Stop before continue-as-new resets history: recursive termination needs the children.
  let actions := if terminateEvent.isSome then beforeContinueAsNew results.actions
    else results.actions
  let (result, s') ← (w.applier.actions (env.generation k) incomingHistory s results.customStatus
    actions).mapError .applying
  return (⟨env.generation k, s, actions⟩, result, s')

/-- The loop of `ProcessWorkItem`, with `remaining` more continue-as-new rounds allowed. -/
def continueAsNewLoop (instanceID : InstanceID) (terminateEvent : Option ExecutionTerminatedEvent) :
    Nat → WorkflowRuntimeState → Option PropagatedHistory → List Generation →
      Except ProcessError LoopResult
  | remaining, s, incomingHistory, continued => do
    let (g, result, s) ← w.runGeneration env instanceID terminateEvent
      (maxContinueAsNewCount - remaining) s incomingHistory
    if result.continuedAsNew then
      match remaining with
      | 0 => .error .exceededContinueAsNewLimit
      | remaining + 1 =>
        continueAsNewLoop instanceID terminateEvent remaining s
          (result.newIncomingHistory.or incomingHistory) (continued ++ [g])
    else
      return { state := s, incomingHistory := incomingHistory,
               outgoingHistory := result.outgoingHistory, continued := continued, last := g }

/-- `applyWorkItem`: the state with the turn's events added, or `none` if the work item is dropped.
After the `WorkflowStarted` event was added `NewEvents` is never empty, so the last check of the
source never fails. -/
def applyWorkItem (wi : WorkflowWorkItem) : Option WorkflowRuntimeState :=
  if ¬wi.state.isValid ∨ wi.state.isCompleted then none
  else
    some ((wi.state.addEvent
      { timestamp := env.turnStartedAt, eventType := .workflowStarted none }).addEvents wi.newEvents)

/-- The action that completes a terminated workflow the executor did not complete. -/
def forcedTermination (terminateEvent : ExecutionTerminatedEvent) : WorkflowAction :=
  { id := -1
    actionType := .completeWorkflow
      { workflowStatus := .terminated, result := terminateEvent.input } }

/-- The enforcement of a terminate event after the loop. -/
def enforceTermination (terminateEvent : Option ExecutionTerminatedEvent)
    (s : WorkflowRuntimeState) : Except ProcessError WorkflowRuntimeState :=
  match terminateEvent with
  | none => .ok s
  | some et =>
    if s.isCompleted then .ok s
    else
      ((w.applier.actions env.forced none
        { s with pendingTasks := [], pendingTimers := [], pendingMessages := [] } s.customStatus
        [forcedTermination et]).mapError .forcing).map Prod.snd

end WorkflowProcessor

/-- `getChildWorkflowInstances`: each child with the router of its first creation. The source ranges
over a map, in any order; the order of creation is taken here. -/
def getChildWorkflowInstances (events : List HistoryEvent) :
    List (InstanceID × Option TaskRouter) :=
  events.foldl (fun children e =>
    match e.getChildWorkflowInstanceCreated with
    | none => children
    | some created =>
      if children.any (·.1 = created.instanceId) then children
      else children ++ [(created.instanceId, e.router)]) []

/-- `appendCascadeTerminateMessages`. -/
def appendCascadeTerminateMessages (now : Time) (state : WorkflowRuntimeState)
    (et : ExecutionTerminatedEvent) : WorkflowRuntimeState :=
  if et.recurse then
    { state with pendingMessages := state.pendingMessages ++
      (getChildWorkflowInstances (state.oldEvents ++ state.newEvents)).map fun child =>
        { historyEvent :=
            { timestamp := now
              eventType := .executionTerminated { input := et.input, recurse := et.recurse }
              router := child.2 }
          targetInstanceId := child.1 } }
  else state

/-- The last step of `ProcessWorkItem`. -/
def cascadeTermination (now : Time) (terminateEvent : Option ExecutionTerminatedEvent)
    (s : WorkflowRuntimeState) : WorkflowRuntimeState :=
  match terminateEvent with
  | some et => if s.isCompleted then appendCascadeTerminateMessages now s et else s
  | none => s

/-- `ProcessWorkItem` on a work item whose state is loaded. -/
def WorkflowProcessor.processWorkItem (w : WorkflowProcessor) (env : ProcessEnv)
    (wi : WorkflowWorkItem) : Except ProcessError WorkflowWorkItem := do
  let terminateEvent := wi.newEvents.findSome? HistoryEvent.getExecutionTerminated
  match WorkflowProcessor.applyWorkItem env wi with
  | none => return { wi with state := cascadeTermination env.cascade terminateEvent wi.state }
  | some s =>
    let r ← w.continueAsNewLoop env wi.instanceID terminateEvent maxContinueAsNewCount s
      wi.incomingHistory []
    let s ← w.enforceTermination env terminateEvent r.state
    return { wi with
      state := cascadeTermination env.cascade terminateEvent s
      incomingHistory := r.incomingHistory
      outgoingHistory := r.outgoingHistory }

end DurableTask
