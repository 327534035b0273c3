import DurableTask.RuntimeState.Scheduling
import DurableTask.Task.Batch

/-!
# The turns of an execution

A turn loads the committed history, adds a batch of events, replays the workflow on both, applies the
actions it returned and appends the resulting events to the history. Every replay draws its own UUIDs.
-/

namespace DurableTask.Task

variable {σ : Type}

/-- The SDK with the UUIDs one replay draws. -/
def Sdk.withUuid (sdk : Sdk σ) (uuid : Nat → String) : Sdk σ :=
  { sdk with env := { sdk.env with uuid := uuid } }

/-- An execution between two turns. `dispatched` are the resolutions its dispatched work can bring;
`replays` is for specifications only: the replays of its turns. -/
structure Execution (σ : Type) where
  id : InstanceID
  customStatus : Option String := none
  history : List HistoryEvent := []
  dispatched : List (Kind × ActionID) := []
  replays : List (Machine σ) := []

namespace Execution

/-- The work item of a batch, with the state loaded. -/
def workItem (x : Execution σ) (batch : List HistoryEvent) : WorkflowWorkItem :=
  { instanceID := x.id, newEvents := batch
    state := WorkflowRuntimeState.new x.id x.customStatus x.history }

/-- Whether an event may come while the execution runs: what clients send, and the resolutions of
dispatched work. -/
def allows (x : Execution σ) (e : HistoryEvent) : Bool :=
  match e.eventType with
  | .eventRaised _ | .executionSuspended _ | .executionResumed _ | .executionTerminated _ => true
  | _ => e.resolution.any (· ∈ x.dispatched)

/-- Whether a batch may come. The first one begins with the start of the execution. -/
def accepts (x : Execution σ) (batch : List HistoryEvent) : Bool :=
  (match x.history, batch with
    | [], e :: rest => isStart e && rest.all x.allows
    | [], [] => false
    | _ :: _, _ => batch.all x.allows) &&
  neverSuspendsTwice (x.history.foldl WorkflowRuntimeState.suspendedAfter false) batch

/-- The start of a replay of a loaded state. -/
def replay (x : Execution σ) (s : WorkflowRuntimeState) : Machine σ :=
  Machine.init x.id s.oldEvents s.newEvents

/-- A turn that does not continue as new. -/
inductive Turn (sdk : Sdk σ) (a : Applier) (x : Execution σ) : Execution σ → Prop
  | commit (batch : List HistoryEvent) (env : ProcessEnv) (uuid : Nat → String)
    (receivedHistory : Option PropagatedHistory) (s s' : WorkflowRuntimeState) (m : Machine σ)
    (result : ActionsResult) (accepted : x.accepts batch = true)
    (loaded : WorkflowProcessor.applyWorkItem env (x.workItem batch) = some s)
    (replayed : Transition.Reaches (Machine.step (sdk.withUuid uuid)) (x.replay s) m)
    (halted : Machine.step (sdk.withUuid uuid) m = none)
    (applied : a.actions (env.generation 0) receivedHistory (s.recordVersion m.response.version)
      m.response.customStatus m.response.actions = .ok (result, s'))
    (continues : result.continuedAsNew = false) :
    Turn sdk a x
      { x with
        customStatus := s'.customStatus
        history := s'.oldEvents ++ s'.newEvents
        dispatched := x.dispatched ++ s'.dispatched
        replays := x.replays ++ [m] }

/-- The executions that come about by turns of the SDK. -/
inductive Reachable (sdk : Sdk σ) (a : Applier) : Execution σ → Prop
  | new (id : InstanceID) (customStatus : Option String) :
    Reachable sdk a { id := id, customStatus := customStatus }
  | turn {x x' : Execution σ} (h : Reachable sdk a x) (t : Turn sdk a x x') : Reachable sdk a x'

end Execution

end DurableTask.Task
