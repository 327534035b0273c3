import DurableTask.Task.Context

/-!
# Tasks and pending work

Completing tasks, registering scheduled work under the next sequence number, delivering resolution
events, and dropping the optional timers of indefinite external-event waits that a history written by
an earlier release does not have.
-/

namespace DurableTask.Task

/-! ### `completableTask` -/

namespace Core

def task (c : Core) (t : Nat) : CompletableTask := c.tasks.getD t {}

def modifyTask (c : Core) (t : Nat) (f : CompletableTask → CompletableTask) : Core :=
  { c with tasks := c.tasks.modify t f }

/-- `newTask`. -/
def newTask (c : Core) : Core × Nat := ({ c with tasks := c.tasks ++ [{}] }, c.tasks.length)

/-- The callback of an external-event timer. If the event won the race there is nothing to do. The
canceled wait task has no callback of its own. -/
def onWaitTimeout (c : Core) (w : WaitTimeout) : Core :=
  if (c.task w.task).isCompleted then c
  else
    let c := c.modifyTask w.task fun t => { t with isCanceled := true, isCompleted := true }
    if (c.waitLists.getD w.list []).length > 1 then
      { c with waitLists := c.waitLists.modify w.list (·.erase w.task) }
    else { c with pendingExternalEventTasks := Assoc.erase c.pendingExternalEventTasks w.key }

/-- `completeInternal`. -/
def completeInternal (c : Core) (t : Nat) : Core :=
  let c := c.modifyTask t fun t => { t with isCompleted := true }
  match (c.task t).completedCallback with
  | some w => c.onWaitTimeout w
  | none => c

def complete (c : Core) (t : Nat) (rawResult : String) : Core :=
  (c.modifyTask t fun t => { t with rawResult := rawResult }).completeInternal t

def fail (c : Core) (t : Nat) (fd : Option TaskFailureDetails) : Core :=
  (c.modifyTask t fun t => { t with
    failureDetails := some (fd.getD ⟨"TaskFailed", "task failed without failure details"⟩) })
    |>.completeInternal t

def cancel (c : Core) (t : Nat) : Core :=
  (c.modifyTask t fun t => { t with isCanceled := true }).completeInternal t

/-- `onCompleted`. -/
def onCompleted (c : Core) (t : Nat) (callback : WaitTimeout) : Core :=
  if (c.task t).isCompleted then c.onWaitTimeout callback
  else c.modifyTask t fun t => { t with completedCallback := some callback }

/-- A task that has failed already, for calls with invalid options. -/
def failedTask (c : Core) (fd : TaskFailureDetails) : Core × Nat :=
  let (c, t) := c.newTask
  (c.fail t (some fd), t)

/-- What a resolution event does to the task it resolves. -/
def resolve (c : Core) (t : Nat) (e : HistoryEvent) : Core :=
  match e.eventType with
  | .taskCompleted tc => c.complete t (tc.result.getD "")
  | .taskFailed tf =>
    (c.modifyTask t fun t => { t with taskExecutionId := tf.taskExecutionId }).fail t tf.failureDetails
  | .childWorkflowInstanceCompleted sc => c.complete t (sc.result.getD "")
  | .childWorkflowInstanceFailed sf => c.fail t sf.failureDetails
  | _ => c.complete t ""

end Core

/-! ### Optional timers -/

/-- `externalEventIndefiniteFireAt`: 9999-12-31 23:59:59.999999999 UTC. -/
def externalEventIndefiniteFireAt : Time := 253402300799999999999

/-- The shared test of `isOptionalExternalEventTimerAction` and
`isOptionalExternalEventTimerCreatedEvent`. -/
def isOptionalTimer (fireAt : Time) (origin : Option TimerOrigin) : Bool :=
  match origin with
  | some (.externalEvent _) => decide (fireAt = externalEventIndefiniteFireAt)
  | _ => false

def isOptionalExternalEventTimerAction (a : WorkflowAction) : Bool :=
  match a.actionType with
  | .createTimer t => isOptionalTimer t.fireAt t.origin
  | _ => false

def isOptionalExternalEventTimerCreatedEvent (tc : TimerCreatedEvent) : Bool :=
  isOptionalTimer tc.fireAt tc.origin

/-! ### `Pending` -/

namespace Pending

/-- `getNextSequenceNumber`, and `pendingActions[id] = action`. -/
def addAction (p : Pending) (actionType : WorkflowActionType) (router : Option TaskRouter)
    (task : Option Nat) : Pending × ActionID :=
  let id := p.sequenceNumber
  ({ p with
      sequenceNumber := p.sequenceNumber + 1
      pendingActions := Assoc.insert p.pendingActions id ⟨⟨id, actionType, router⟩, task⟩
      allocated := p.allocated ++ [id] }, id)

/-- `pendingTasks[id] = task`. -/
def addTask (p : Pending) (id : ActionID) (kind : Kind) (task : Nat) : Pending :=
  { p with pendingTasks := Assoc.insert p.pendingTasks id ⟨kind, task⟩ }

/-- `optionalTimerIDs[id] = struct{}{}` for an optional timer action. -/
def noteOptional (p : Pending) (id : ActionID) (a : WorkflowAction) : Pending :=
  if isOptionalExternalEventTimerAction a then
    { p with optionalTimerIDs := p.optionalTimerIDs.filter (· ≠ id) ++ [id] }
  else p

def resolutionIDProvisional (p : Pending) (id : ActionID) : Bool :=
  p.optionalTimerIDs.any (· ≤ id)

def actionIDProvisional (p : Pending) (id : ActionID) : Bool :=
  p.optionalTimerIDs.any fun timerID =>
    timerID ≤ id && p.bufferedResolutions.any fun e => decide (timerID ≤ e.1.2)

/-- The pending task a resolution event of this kind and id completes now. -/
def deliverable (p : Pending) (k : Kind × ActionID) : Option Nat :=
  match Assoc.get? p.pendingTasks k.2 with
  | some t => if t.kind = k.1 ∧ ¬p.resolutionIDProvisional k.2 then some t.task else none
  | none => none

/-- `bufferResolution`. -/
def bufferResolution (p : Pending) (k : Kind × ActionID) (e : HistoryEvent) : Pending :=
  if k ∈ p.resolvedResolutions ∨ (Assoc.get? p.bufferedResolutions k).isSome then p
  else { p with bufferedResolutions := Assoc.insert p.bufferedResolutions k e }

/-- The task execution id a resolution event recorded, for `restoreActivityScheduleIdentity`. -/
def recordedExecutionID (e : HistoryEvent) : Option String :=
  match e.eventType with
  | .taskCompleted tc => some tc.taskExecutionId
  | .taskFailed tf => some tf.taskExecutionId
  | _ => none

/-- `restoreActivityScheduleIdentity`. -/
def restoreActivityScheduleIdentity (p : Pending) (id : ActionID) (executionID : String) : Pending :=
  { p with pendingActions := Assoc.modify p.pendingActions id fun a =>
      match a.action.actionType with
      | .scheduleTask st =>
        { a with action := { a.action with
          actionType := .scheduleTask { st with taskExecutionId := executionID } } }
      | _ => a }

/-- The part of the resolution handlers that updates the pending work. -/
def resolve (p : Pending) (k : Kind × ActionID) (e : HistoryEvent) : Pending :=
  let p := { p with
    pendingTasks := Assoc.erase p.pendingTasks k.2
    resolvedResolutions := p.resolvedResolutions ++ [k] }
  match recordedExecutionID e with
  | some executionID => p.restoreActivityScheduleIdentity k.2 executionID
  | none => p

/-- `delete(pendingActions, id)`. -/
def removeAction (p : Pending) (id : ActionID) : Pending :=
  { p with pendingActions := Assoc.erase p.pendingActions id }

/-- The two deletions of `onTimerCreated`. -/
def removeTimer (p : Pending) (id : ActionID) : Pending :=
  let p := p.removeAction id
  { p with optionalTimerIDs := p.optionalTimerIDs.filter (· ≠ id) }

/-- A pending action after the optional timer at `atID` was dropped. -/
def shiftAction (atID : ActionID) (e : ActionID × PendingAction) : ActionID × PendingAction :=
  if atID < e.1 then (e.1 - 1, { e.2 with action := { e.2.action with id := e.1 - 1 } }) else e

/-- The id an entry has after the optional timer at `atID` was dropped. -/
def shiftID (atID id : ActionID) : ActionID := if atID < id then id - 1 else id

/-- The part of `dropOptionalExternalEventTimerAt` that removes the optional timer and shifts every
later pending id down by one. -/
def dropAt (p : Pending) (atID : ActionID) : Pending :=
  { p with
    sequenceNumber := p.sequenceNumber - 1
    pendingActions := (Assoc.erase p.pendingActions atID).map (shiftAction atID)
    pendingTasks := (Assoc.erase p.pendingTasks atID).map fun e => (shiftID atID e.1, e.2)
    optionalTimerIDs := (p.optionalTimerIDs.filter (· ≠ atID)).map fun id =>
      if (Assoc.get? p.pendingActions id).isSome then shiftID atID id else id }

/-- The optional timer action at an id, if that is what is pending there. -/
def optionalAt (p : Pending) (id : ActionID) : Bool :=
  match Assoc.get? p.pendingActions id with
  | some a => isOptionalExternalEventTimerAction a.action
  | none => false

end Pending

/-! ### Delivering resolutions -/

namespace Ctx

/-- The resolution handlers: `onTaskCompleted`, `onTaskFailed`, `onChildWorkflowCompleted`,
`onChildWorkflowFailed` and `onTimerFired`. -/
def onResolution (c : Ctx) (k : Kind × ActionID) (e : HistoryEvent) : Ctx :=
  match c.pend.deliverable k with
  | none => { c with pend := c.pend.bufferResolution k e }
  | some t => { c with pend := c.pend.resolve k e, core := c.core.resolve t e }

/-- `consumeBufferedResolution`. -/
def consumeBufferedResolution (c : Ctx) (k : Kind × ActionID) : Ctx :=
  match Assoc.get? c.pend.bufferedResolutions k with
  | none => c
  | some e =>
    if c.pend.resolutionIDProvisional k.2 then c
    else
      { c with pend := { c.pend with
          bufferedResolutions := Assoc.erase c.pend.bufferedResolutions k } }.onResolution k e

/-- The loop over pending tasks shared by `consumeReadyBufferedResolutions` and
`dropOptionalExternalEventTimerAt`. -/
def consumeFor (c : Ctx) (ids : List ActionID) : Ctx :=
  ids.foldl (fun c id =>
    match Assoc.get? c.pend.pendingTasks id with
    | some t => c.consumeBufferedResolution (t.kind, id)
    | none => c) c

/-- Ids in ascending order. -/
def sortIDs (ids : List ActionID) : List ActionID := ids.insertionSort (· ≤ ·)

/-- `consumeReadyBufferedResolutions`. -/
def consumeReadyBufferedResolutions (c : Ctx) : Ctx :=
  if c.pend.bufferedResolutions.isEmpty then c
  else c.consumeFor (sortIDs (c.pend.pendingTasks.map Prod.fst))

/-- `dropOptionalExternalEventTimerAt` on a pending optional timer. A child workflow task points at
its action, so the action id it sees moves too. -/
def dropOptionalTimer (c : Ctx) (atID : ActionID) : Ctx :=
  let later := sortIDs ((c.pend.pendingTasks.map Prod.fst).filter (atID < ·))
  let shifted := (c.pend.pendingActions.filter (atID < ·.1)).filterMap (·.2.task)
  let childAction := c.ident.childAction.map fun e => if e.1 ∈ shifted then (e.1, e.2 - 1) else e
  let c := { c with pend := c.pend.dropAt atID, ident := { c.ident with childAction := childAction } }
  c.consumeFor (later.map (· - 1))

/-- `for ctx.dropOptionalExternalEventTimerAt(id) {}`, at most `n` times. Each round removes a pending
action, so the number of pending actions is enough. -/
def dropOptionalTimers (id : ActionID) : Nat → Ctx → Ctx
  | 0, c => c
  | n + 1, c => if c.pend.optionalAt id then dropOptionalTimers id n (c.dropOptionalTimer id) else c

end Ctx

end DurableTask.Task
