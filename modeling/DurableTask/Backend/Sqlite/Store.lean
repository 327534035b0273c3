import DurableTask.Backend.ProcessWorkItem
import DurableTask.Lib.Table
import DurableTask.RuntimeState.Completion

/-!
# `backend/sqlite/sqlite.go`

The tables of the store and its transactions. A transaction that fails is rolled back, so it is a
function that returns the new tables or an error. Tables are lists of rows in key order; the store has
one connection, so transactions are serial. The clock and fresh lease tokens are arguments.

Some columns are there for specifications only: which incarnation of an instance a row belongs to,
which row of the queue an event came from, and a log of all rows that were ever enqueued. No
transaction reads them.
-/

namespace DurableTask.Sqlite

/-! ### The schema -/

/-- A row of `Instances`. `born` and `creation` are for specifications: how many rows had been
enqueued when the instance was created, and the start event it was created with. -/
structure InstanceRow where
  instanceID : InstanceID
  executionID : String
  name : String
  runtimeStatus : OrchestrationStatus
  createdTime : Time
  completedTime : Option Time := none
  lockedBy : Option String := none
  lockExpiration : Option Time := none
  input : String
  output : Option String := none
  customStatus : Option String := none
  failureDetails : Option TaskFailureDetails := none
  born : Nat
  creation : ExecutionStartedEvent
deriving DecidableEq, Repr

structure HistoryRow where
  instanceID : InstanceID
  sequenceNumber : Nat
  event : HistoryEvent
deriving DecidableEq, Repr

/-- The execution that scheduled a piece of work or sent a message: an incarnation of an instance, and
its execution id. For specifications. -/
structure Origin where
  instanceID : InstanceID
  born : Nat
  executionID : String
deriving DecidableEq, Repr

/-- A row of `NewEvents`. `uid` is its number among all rows ever enqueued and `origin` the execution
that enqueued it, if it was none of the clients; both are for specifications. -/
structure EventRow where
  sequenceNumber : Nat
  instanceID : InstanceID
  executionID : Option String := none
  visibleTime : Option Time := none
  dequeueCount : Int := 0
  lockedBy : Option String := none
  event : HistoryEvent
  uid : Nat
  origin : Option Origin := none
deriving DecidableEq, Repr

structure DeliveryRow where
  instanceID : InstanceID
  eventName : String
  deliveryID : String
deriving DecidableEq, Repr

/-- A row of `NewTasks`. `origin` is for specifications. -/
structure TaskRow where
  sequenceNumber : Nat
  instanceID : InstanceID
  dequeueCount : Int := 0
  lockedBy : Option String := none
  lockExpiration : Option Time := none
  event : HistoryEvent
  origin : Origin
deriving DecidableEq, Repr

/-- The tables. `enqueued` is for specifications: every row that was inserted into `NewEvents`, as it
was inserted. -/
structure Db where
  instances : List InstanceRow := []
  history : List HistoryRow := []
  newEvents : List EventRow := []
  externalEventDeliveries : List DeliveryRow := []
  newTasks : List TaskRow := []
  enqueued : List EventRow := []
deriving DecidableEq, Repr

inductive StoreError
  | workItemLockLost
  | duplicateInstance
  | instanceNotFound
  | notCompleted
  | notExecutionStarted
  | childExecutionProvenanceRequired (reason : String)
  | childInstanceCollision
  | historyKeyConflict
deriving DecidableEq, Repr

structure SqliteOptions where
  workflowLockTimeout : Duration
  activityLockTimeout : Duration
deriving DecidableEq, Repr

structure ActivityWorkItem where
  sequenceNumber : Nat
  instanceID : InstanceID
  newEvent : HistoryEvent
  lockedBy : String
deriving DecidableEq, Repr

end DurableTask.Sqlite

namespace DurableTask

def second : Duration := 1000000000

/-- `GetAbandonDelay`. -/
def WorkflowWorkItem.getAbandonDelay (wi : WorkflowWorkItem) : Duration :=
  if wi.retryCount = 0 then 0
  else if wi.retryCount > 100 then 5 * 60 * second
  else wi.retryCount * second

end DurableTask

namespace DurableTask.Sqlite

/-- `ChildResultExecutionID`. -/
def childResultExecutionID (state : WorkflowRuntimeState) (target : InstanceID) :
    Except StoreError String :=
  let parent := (state.startEvent.bind ExecutionStartedEvent.parentInstance).map
    ParentInstanceInfo.workflowInstance
  let executionID := (parent.map WorkflowInstance.executionIdValue).getD ""
  if (parent.map WorkflowInstance.instanceId).getD "" ≠ target ∨ executionID = "" then
    .error (.childExecutionProvenanceRequired
      ("missing captured parent identity for " ++ target))
  else .ok executionID

/-! ### Rows -/

/-- Whether a row of the queue goes into a batch. -/
def EventRow.isDue (id : InstanceID) (now : Time) (e : EventRow) : Bool :=
  e.instanceID = id && e.visibleTime.all (· ≤ now)

def EventRow.lock (leaseToken : String) (e : EventRow) : EventRow :=
  { e with dequeueCount := e.dequeueCount + 1, lockedBy := some leaseToken }

/-- A child result without the execution it was captured for. -/
def EventRow.isUnprovenanced (e : EventRow) : Bool :=
  e.event.isChildResult && e.executionID.getD "" = ""

/-- A child result for an earlier execution. -/
def EventRow.isStale (executionID : String) (e : EventRow) : Bool :=
  e.event.isChildResult && e.executionID.getD "" ≠ executionID

/-- The event a dequeued row delivers. -/
def EventRow.delivered (e : EventRow) : HistoryEvent := { e.event with row := some e.uid }

/-- An abandoned row is visible again after a delay. -/
def EventRow.unlock (visibleTime : Option Time) (e : EventRow) : EventRow :=
  { e with lockedBy := none, visibleTime := visibleTime }

/-- The rows of the queue that a work item holds. -/
def EventRow.isInbound (wi : WorkflowWorkItem) (e : EventRow) : Bool :=
  e.instanceID = wi.instanceID && e.lockedBy = some wi.lockedBy

def InstanceRow.setLock (lockedBy : Option String) (lockExpiration : Option Time) (i : InstanceRow) :
    InstanceRow :=
  { i with lockedBy := lockedBy, lockExpiration := lockExpiration }

/-- Whether a work item still holds the lease of an instance. -/
def InstanceRow.isLeased (wi : WorkflowWorkItem) (i : InstanceRow) : Bool :=
  i.instanceID = wi.instanceID && i.lockedBy = some wi.lockedBy

/-- The task an activity work item holds. -/
def TaskRow.isHeld (wi : ActivityWorkItem) (t : TaskRow) : Bool :=
  t.sequenceNumber = wi.sequenceNumber && t.lockedBy = some wi.lockedBy

/-- The columns a start event sets. -/
def InstanceRow.start (createdTime : Time) (es : ExecutionStartedEvent) (i : InstanceRow) :
    InstanceRow :=
  { i with
    createdTime := createdTime
    input := es.input.getD ""
    executionID := es.workflowInstance.executionIdValue }

/-- The columns a completion sets. -/
def InstanceRow.complete (now : Time) (ec : ExecutionCompletedEvent) (i : InstanceRow) :
    InstanceRow :=
  { i with
    completedTime := some now
    output := some (ec.result.getD "")
    failureDetails := ec.failureDetails }

/-- `UPDATE Instances` of `CompleteWorkflowWorkItem`: the first start and the first completion among
the new events count. -/
def InstanceRow.commit (now : Time) (state : WorkflowRuntimeState) (i : InstanceRow) : InstanceRow :=
  let i := match state.newEvents.findSome? fun e => e.getExecutionStarted.map (e.timestamp, ·) with
    | some (createdTime, es) => i.start createdTime es
    | none => i
  let i := match state.newEvents.findSome? HistoryEvent.getExecutionCompleted with
    | some ec => i.complete now ec
    | none => i
  { i with
    customStatus := state.customStatus.or i.customStatus
    runtimeStatus := state.runtimeStatus
    lockExpiration := none }

namespace Db

variable (db : Db)

/-! ### Statements -/

/-- `SELECT … FROM Instances WHERE InstanceID = ?`. -/
def instance? (id : InstanceID) : Option InstanceRow :=
  db.instances.find? (·.instanceID = id)

/-- `SELECT EventPayload FROM History WHERE InstanceID = ? ORDER BY SequenceNumber`. -/
def historyOf (id : InstanceID) : List HistoryEvent :=
  ((db.history.filter (·.instanceID = id)).insertionSort
    (·.sequenceNumber ≤ ·.sequenceNumber)).map HistoryRow.event

/-- The key of the next row: one more than the largest. -/
def nextKey (keys : List Nat) : Nat := keys.foldl max 0 + 1

/-- `INSERT INTO NewEvents (InstanceID, EventPayload, VisibleTime, ExecutionID)`. -/
def insertNewEvent (instanceID : InstanceID) (event : HistoryEvent) (visibleTime : Option Time)
    (executionID : Option String) (origin : Option Origin) : Db :=
  let row : EventRow :=
    { sequenceNumber := nextKey (db.newEvents.map EventRow.sequenceNumber)
      instanceID := instanceID, executionID := executionID, visibleTime := visibleTime
      event := event, uid := db.enqueued.length, origin := origin }
  { db with newEvents := db.newEvents ++ [row], enqueued := db.enqueued ++ [row] }

/-- `INSERT INTO NewTasks (InstanceID, EventPayload)`. -/
def insertNewTask (instanceID : InstanceID) (origin : Origin) (event : HistoryEvent) : Db :=
  { db with
    newTasks := db.newTasks ++
      [{ sequenceNumber := nextKey (db.newTasks.map TaskRow.sequenceNumber)
         instanceID := instanceID, event := event, origin := origin }] }

/-- The rows of `INSERT INTO History`, numbered from `nextSequenceNumber`. -/
def historyRows (id : InstanceID) : Nat → List HistoryEvent → List HistoryRow
  | _, [] => []
  | nextSequenceNumber, e :: es =>
    ⟨id, nextSequenceNumber, e⟩ :: historyRows id (nextSequenceNumber + 1) es

/-- `INSERT INTO History`, with the primary key `(InstanceID, SequenceNumber)`. -/
def insertHistory (id : InstanceID) (nextSequenceNumber : Nat) (events : List HistoryEvent) :
    Except StoreError Db :=
  let rows := historyRows id nextSequenceNumber events
  if rows.any fun r => db.history.any fun h =>
      h.instanceID = r.instanceID ∧ h.sequenceNumber = r.sequenceNumber then
    .error .historyKeyConflict
  else .ok { db with history := db.history ++ rows }

/-! ### Creating and cleaning up an instance -/

/-- `createWorkflowInstanceInternal`, with `insertOrIgnoreInstanceTableInternal`. -/
def createWorkflowInstanceInternal (e : HistoryEvent) : Except StoreError Db :=
  match e.getExecutionStarted with
  | none => .error .notExecutionStarted
  | some startEvent =>
    if (db.instance? startEvent.workflowInstance.instanceId).isSome then .error .duplicateInstance
    else
      .ok { db with
        instances := db.instances ++
          [{ instanceID := startEvent.workflowInstance.instanceId
             executionID := startEvent.workflowInstance.executionIdValue
             name := startEvent.name
             runtimeStatus := .pending
             createdTime := e.timestamp
             input := startEvent.input.getD ""
             born := db.enqueued.length
             creation := startEvent }] }

/-- The statuses of an instance that may be purged. -/
def isPurgeable (status : OrchestrationStatus) : Bool :=
  status = .completed || status = .failed || status = .terminated

/-- The deletions of `cleanupWorkflowStateInternal`. -/
def deleteInstance (id : InstanceID) : Db :=
  { db with
    instances := Table.delete (·.instanceID = id) db.instances
    history := Table.delete (·.instanceID = id) db.history
    newEvents := Table.delete (·.instanceID = id) db.newEvents
    externalEventDeliveries := Table.delete (·.instanceID = id) db.externalEventDeliveries
    newTasks := Table.delete (·.instanceID = id) db.newTasks }

/-- `cleanupWorkflowStateInternal`. -/
def cleanupWorkflowStateInternal (id : InstanceID) (requireCompleted : Bool) :
    Except StoreError Db :=
  match db.instance? id with
  | none => .error .instanceNotFound
  | some row =>
    if requireCompleted ∧ ¬isPurgeable row.runtimeStatus then .error .notCompleted
    else .ok (db.deleteInstance id)

/-! ### The client's transactions -/

/-- `CreateWorkflowInstance`. -/
def createWorkflowInstance (e : HistoryEvent) : Except StoreError Db :=
  match e.getExecutionStarted with
  | none => .error .notExecutionStarted
  | some startEvent => do
    let db ← db.createWorkflowInstanceInternal e
    return db.insertNewEvent startEvent.workflowInstance.instanceId e
      startEvent.scheduledStartTimestamp none none

/-- `AddNewWorkflowEvent`. -/
def addNewWorkflowEvent (iid : InstanceID) (e : HistoryEvent) : Except StoreError Db :=
  if e.isChildResult then .error (.childExecutionProvenanceRequired "")
  else .ok (db.insertNewEvent iid e none none none)

/-- `AddNewWorkflowEventWithExternalDelivery`. -/
def addNewWorkflowEventWithExternalDelivery (iid : InstanceID) (eventName deliveryID : String)
    (e : HistoryEvent) : Except StoreError Db :=
  let receipt : DeliveryRow := ⟨iid, eventName, deliveryID⟩
  if e.isChildResult then .error (.childExecutionProvenanceRequired "")
  else if receipt ∈ db.externalEventDeliveries then .ok db
  else
    .ok (insertNewEvent
      { db with externalEventDeliveries := db.externalEventDeliveries ++ [receipt] }
      iid e none none none)

/-- `PurgeWorkflowState` of a local instance. -/
def purgeWorkflowState (id : InstanceID) : Except StoreError Db :=
  db.cleanupWorkflowStateInternal id true

/-! ### Work items of workflows -/

/-- `validateChildDestination`. -/
def validateChildDestination (instanceID : InstanceID) (executionID : String) :
    Except StoreError Unit :=
  match (db.historyOf instanceID).findSome? HistoryEvent.getExecutionStarted with
  | none => .ok ()
  | some start =>
    if start.workflowInstance.executionIdValue ≠ executionID then
      .error (.childExecutionProvenanceRequired "parent instance and committed history disagree")
    else .ok ()

/-- The first instance whose lease is free or expired and that has a visible event. -/
def nextInstance? (now : Time) : Option InstanceRow :=
  db.instances.find? fun i =>
    i.lockExpiration.all (· < now) &&
      db.newEvents.any fun e => e.instanceID = i.instanceID && e.visibleTime.all (· < now)

/-- The most events a work item carries. -/
def maxBatch : Nat := 1000

/-- The rows of the next batch of an instance, locked. -/
def batch (id : InstanceID) (now : Time) (leaseToken : String) : List EventRow :=
  ((db.newEvents.filter (EventRow.isDue id now)).take maxBatch).map (EventRow.lock leaseToken)

/-- The queue with that batch locked, and without its stale child results. -/
def lockBatch (row : InstanceRow) (now : Time) (leaseToken : String) : List EventRow :=
  let stale := ((db.batch row.instanceID now leaseToken).filter
    (EventRow.isStale row.executionID)).map EventRow.sequenceNumber
  Table.delete (fun e => e.instanceID = row.instanceID && e.sequenceNumber ∈ stale &&
      e.lockedBy = some leaseToken)
    (Table.updateFirst (EventRow.isDue row.instanceID now) (EventRow.lock leaseToken) maxBatch
      db.newEvents)

/-- `UPDATE Instances SET LockedBy, LockExpiration WHERE InstanceID`. -/
def setLease (id : InstanceID) (lockedBy : Option String) (lockExpiration : Option Time) :
    List InstanceRow :=
  Table.update (·.instanceID = id) (InstanceRow.setLock lockedBy lockExpiration) db.instances

/-- The checks of the child results in a batch. -/
def checkChildResults (row : InstanceRow) (batch : List EventRow) : Except StoreError Unit :=
  if batch.any EventRow.isUnprovenanced then .error (.childExecutionProvenanceRequired "")
  else if batch.any (·.event.isChildResult) then
    db.validateChildDestination row.instanceID row.executionID
  else .ok ()

/-- `getWorkflowWorkItem`. Without a work item the result is `errNoWorkItems`; the deletion of stale
child results is committed all the same. `State` is not loaded yet. -/
def getWorkflowWorkItem (opts : SqliteOptions) (now : Time) (leaseToken : String) :
    Except StoreError (Db × Option WorkflowWorkItem) :=
  match db.nextInstance? now with
  | none => .ok (db, none)
  | some row => do
    let batch := db.batch row.instanceID now leaseToken
    db.checkChildResults row batch
    let dequeued := batch.filter (!EventRow.isStale row.executionID ·)
    let newEvents := db.lockBatch row now leaseToken
    if dequeued.isEmpty then
      return ({ db with
        newEvents := newEvents, instances := db.setLease row.instanceID none none }, none)
    else
      return ({ db with
        newEvents := newEvents
        instances := db.setLease row.instanceID (some leaseToken)
          (some (now + opts.workflowLockTimeout)) },
        some
          { instanceID := row.instanceID
            newEvents := dequeued.map EventRow.delivered
            lockedBy := leaseToken
            retryCount := (batch.map EventRow.dequeueCount).foldl max 0 - 1
            state := .new row.instanceID none [] })

/-- `GetWorkflowRuntimeState`. -/
def getWorkflowRuntimeState (id : InstanceID) : WorkflowRuntimeState :=
  .new id none (db.historyOf id)

/-- `AbandonWorkflowWorkItem`. -/
def abandonWorkflowWorkItem (now : Time) (wi : WorkflowWorkItem) : Except StoreError Db :=
  let visibleTime := if wi.getAbandonDelay > 0 then some (now + wi.getAbandonDelay) else none
  if !db.newEvents.any (EventRow.isInbound wi) then .error .workItemLockLost
  else if !db.instances.any (InstanceRow.isLeased wi) then .error .workItemLockLost
  else
    .ok { db with
      newEvents := Table.update (EventRow.isInbound wi) (EventRow.unlock visibleTime) db.newEvents
      instances := Table.update (InstanceRow.isLeased wi) (InstanceRow.setLock none none)
        db.instances }

/-! ### `CompleteWorkflowWorkItem` -/

/-- `discardPreviousExecutionWork`. -/
def discardPreviousExecutionWork (wi : WorkflowWorkItem) : Db :=
  { db with
    newTasks := Table.delete (·.instanceID = wi.instanceID) db.newTasks
    newEvents := Table.delete (fun e => e.instanceID = wi.instanceID &&
      e.lockedBy ≠ some wi.lockedBy && e.event.resolution.isSome) db.newEvents }

/-- A child result is enqueued if its target still runs the execution it was captured for. -/
def enqueueChildResult (wi : WorkflowWorkItem) (origin : Origin)
    (msg : WorkflowRuntimeStateMessage) : Except StoreError Db := do
  let generation ← childResultExecutionID wi.state msg.targetInstanceId
  match db.instance? msg.targetInstanceId with
  | none => return db
  | some target =>
    db.validateChildDestination msg.targetInstanceId target.executionID
    if target.executionID = generation then
      return db.insertNewEvent msg.targetInstanceId msg.historyEvent none (some target.executionID)
        (some origin)
    else return db

/-- The instance a message starts. One that exists is replaced if it has ended; otherwise a child is a
collision, and a detached workflow is not created (its start event is enqueued all the same). -/
def startInstance (msg : WorkflowRuntimeStateMessage) : Except StoreError Db :=
  match msg.historyEvent.getExecutionStarted with
  | none => .ok db
  | some es =>
    match db.createWorkflowInstanceInternal msg.historyEvent with
    | .ok db => .ok db
    | .error .duplicateInstance =>
      match db.cleanupWorkflowStateInternal es.workflowInstance.instanceId true with
      | .error _ => if es.parentInstance.isSome then .error .childInstanceCollision else .ok db
      | .ok cleaned =>
        match cleaned.createWorkflowInstanceInternal msg.historyEvent with
        | .ok db => .ok db
        | .error err => if es.parentInstance.isSome then .error err else .ok cleaned
    | .error err => .error err

/-- A timer becomes visible when it fires. -/
def enqueueTimer (instanceID : InstanceID) (origin : Origin) (timer : HistoryEvent) : Db :=
  let fireAt := match timer.eventType with
    | .timerFired tf => tf.fireAt
    | _ => 0
  db.insertNewEvent instanceID timer (some fireAt) none (some origin)

/-- A message; a start event becomes visible at its scheduled time. -/
def enqueueMessage (origin : Origin) (msg : WorkflowRuntimeStateMessage) : Db :=
  db.insertNewEvent msg.targetInstanceId msg.historyEvent
    (msg.historyEvent.getExecutionStarted.bind ExecutionStartedEvent.scheduledStartTimestamp) none
    (some origin)

/-- The execution a work item commits. -/
def committing (wi : WorkflowWorkItem) : Origin :=
  { instanceID := wi.instanceID
    born := ((db.instance? wi.instanceID).map InstanceRow.born).getD 0
    executionID := (wi.state.startEvent.map (·.workflowInstance.executionIdValue)).getD "" }

/-- The statements of `CompleteWorkflowWorkItem` on `Instances`, on what a continue-as-new discards, and
on `NewTasks`. -/
def commitInstance (now : Time) (wi : WorkflowWorkItem) : Db :=
  { db with
    instances := Table.update (InstanceRow.isLeased wi) (InstanceRow.commit now wi.state)
      db.instances }

def resetGeneration (wi : WorkflowWorkItem) : Db :=
  if wi.state.continuedAsNew then
    { db.discardPreviousExecutionWork wi with
      history := Table.delete (·.instanceID = wi.instanceID) db.history }
  else db

def insertTasks (wi : WorkflowWorkItem) (origin : Origin) : Db :=
  wi.state.pendingTasks.foldl (fun db e => db.insertNewTask wi.instanceID origin e) db

/-- The messages of a work item, without and with only the child results. -/
def messages (wi : WorkflowWorkItem) : List WorkflowRuntimeStateMessage :=
  wi.state.pendingMessages.filter (!·.isChildResult)

def childResults (wi : WorkflowWorkItem) : List WorkflowRuntimeStateMessage :=
  wi.state.pendingMessages.filter (·.isChildResult)

def enqueueOutbox (wi : WorkflowWorkItem) (origin : Origin) : Db :=
  (messages wi).foldl (fun db msg => db.enqueueMessage origin msg)
    (wi.state.pendingTimers.foldl (fun db e => db.enqueueTimer wi.instanceID origin e) db)

/-- The last statement: the inbound events are deleted, if they are still there. -/
def acknowledge (wi : WorkflowWorkItem) : Except StoreError Db :=
  if !db.newEvents.any (EventRow.isInbound wi) then .error .workItemLockLost
  else .ok { db with newEvents := Table.delete (EventRow.isInbound wi) db.newEvents }

/-- `CompleteWorkflowWorkItem`. The instances of all started workflows are created before timers and
messages are enqueued. -/
def completeWorkflowWorkItem (now : Time) (wi : WorkflowWorkItem) : Except StoreError Db :=
  let origin := db.committing wi
  if !db.instances.any (InstanceRow.isLeased wi) then .error .workItemLockLost
  else do
    let db := db.commitInstance now wi
    let db := db.resetGeneration wi
    let db ← db.insertHistory wi.instanceID wi.state.oldEvents.length wi.state.newEvents
    let db := db.insertTasks wi origin
    let db ← (childResults wi).foldlM (fun db msg => db.enqueueChildResult wi origin msg) db
    let db ← (messages wi).foldlM startInstance db
    let db := db.enqueueOutbox wi origin
    db.acknowledge wi

/-! ### Work items of activities -/

/-- `getActivityWorkItem`. -/
def getActivityWorkItem (opts : SqliteOptions) (now : Time) (leaseToken : String) :
    Db × Option ActivityWorkItem :=
  match db.newTasks.find? (·.lockExpiration.all (· < now)) with
  | none => (db, none)
  | some task =>
    ({ db with
      newTasks := Table.update (·.sequenceNumber = task.sequenceNumber)
        (fun t => { t with
          lockedBy := some leaseToken
          lockExpiration := some (now + opts.activityLockTimeout)
          dequeueCount := t.dequeueCount + 1 }) db.newTasks },
      some
        { sequenceNumber := task.sequenceNumber
          instanceID := task.instanceID
          newEvent := task.event
          lockedBy := leaseToken })

/-- `CompleteActivityWorkItem`. -/
def completeActivityWorkItem (wi : ActivityWorkItem) (result : HistoryEvent) :
    Except StoreError Db :=
  match db.newTasks.find? (TaskRow.isHeld wi) with
  | none => .error .workItemLockLost
  | some task =>
    .ok { db.insertNewEvent wi.instanceID result none none (some task.origin) with
      newTasks := Table.delete (TaskRow.isHeld wi) db.newTasks }

/-- `AbandonActivityWorkItem`. -/
def abandonActivityWorkItem (wi : ActivityWorkItem) : Except StoreError Db :=
  if !db.newTasks.any (TaskRow.isHeld wi) then .error .workItemLockLost
  else
    .ok { db with
      newTasks := Table.update (TaskRow.isHeld wi)
        (fun t => { t with lockedBy := none, lockExpiration := none }) db.newTasks }

end Db

end DurableTask.Sqlite
