import DurableTask.Backend.Sqlite.Store

/-!
# Workers and clients on the SQLite store

The runs of the whole system: any number of clients and workers call the backend in any order. A worker
holds the work items it acquired; it processes one with any executor and completes or abandons it at
any later time, or never. A call that fails changes nothing. A lease expires when the clock of an
acquisition says so, and clocks are arbitrary.
-/

namespace DurableTask.Sqlite

/-- One call of the backend, or one `ProcessWorkItem`. Work items are named by their lease token. -/
inductive Op
  | createWorkflowInstance (e : HistoryEvent)
  | addNewWorkflowEvent (iid : InstanceID) (e : HistoryEvent)
  | addNewWorkflowEventWithExternalDelivery (iid : InstanceID) (eventName deliveryID : String)
    (e : HistoryEvent)
  | purgeWorkflowState (id : InstanceID)
  | getWorkflowWorkItem (now : Time) (leaseToken : String)
  | processWorkItem (leaseToken : String) (w : WorkflowProcessor) (env : ProcessEnv)
  | completeWorkflowWorkItem (leaseToken : String) (now : Time)
  | abandonWorkflowWorkItem (leaseToken : String) (now : Time)
  | getActivityWorkItem (now : Time) (leaseToken : String)
  | completeActivityWorkItem (leaseToken : String) (result : HistoryEvent)
  | abandonActivityWorkItem (leaseToken : String)

/-- The store, the work items that workers hold, not yet processed and processed, and the lease tokens
generated so far. -/
structure System where
  db : Db := {}
  acquired : List WorkflowWorkItem := []
  processed : List WorkflowWorkItem := []
  activities : List ActivityWorkItem := []
  tokens : List String := []

namespace System

variable (opts : SqliteOptions) (s : System)

/-- The system after a transaction. -/
def commit (r : Except StoreError Db) : System :=
  match r with
  | .ok db => { s with db := db }
  | .error _ => s

/-- The work item with a lease token, processed or not. -/
def workItem? (leaseToken : String) : Option WorkflowWorkItem :=
  (s.acquired ++ s.processed).find? (·.lockedBy = leaseToken)

/-- A worker lets go of a work item. -/
def release (leaseToken : String) : System :=
  { s with
    acquired := s.acquired.filter (·.lockedBy ≠ leaseToken)
    processed := s.processed.filter (·.lockedBy ≠ leaseToken) }

/-- `getWorkflowWorkItem` with a fresh lease token. -/
def getWorkflowWorkItem (now : Time) (leaseToken : String) : System :=
  if leaseToken ∈ s.tokens then s
  else
    match s.db.getWorkflowWorkItem opts now leaseToken with
    | .error _ => s
    | .ok (db, wi) =>
      { s with db := db, acquired := s.acquired ++ wi.toList, tokens := leaseToken :: s.tokens }

/-- `ProcessWorkItem`, which loads the state first. -/
def processWorkItem (leaseToken : String) (w : WorkflowProcessor) (env : ProcessEnv) : System :=
  match s.acquired.find? (·.lockedBy = leaseToken) with
  | none => s
  | some wi =>
    match w.processWorkItem env { wi with state := s.db.getWorkflowRuntimeState wi.instanceID } with
    | .error _ => s
    | .ok wi =>
      { s with
        acquired := s.acquired.filter (·.lockedBy ≠ leaseToken)
        processed := s.processed ++ [wi] }

def completeWorkflowWorkItem (leaseToken : String) (now : Time) : System :=
  match s.processed.find? (·.lockedBy = leaseToken) with
  | none => s
  | some wi =>
    match s.db.completeWorkflowWorkItem now wi with
    | .error _ => s
    | .ok db => { s with db := db }.release leaseToken

def abandonWorkflowWorkItem (leaseToken : String) (now : Time) : System :=
  match s.workItem? leaseToken with
  | none => s
  | some wi =>
    match s.db.abandonWorkflowWorkItem now wi with
    | .error _ => s
    | .ok db => { s with db := db }.release leaseToken

def getActivityWorkItem (now : Time) (leaseToken : String) : System :=
  if leaseToken ∈ s.tokens then s
  else
    match s.db.getActivityWorkItem opts now leaseToken with
    | (db, wi) =>
      { s with db := db, activities := s.activities ++ wi.toList, tokens := leaseToken :: s.tokens }

/-- The end of an activity work item, by a transaction. -/
def endActivity (leaseToken : String) (end_ : Db → ActivityWorkItem → Except StoreError Db) :
    System :=
  match s.activities.find? (·.lockedBy = leaseToken) with
  | none => s
  | some wi =>
    match end_ s.db wi with
    | .error _ => s
    | .ok db => { s with db := db, activities := s.activities.filter (·.lockedBy ≠ leaseToken) }

/-- One call. -/
def exec : Op → System
  | .createWorkflowInstance e => s.commit (s.db.createWorkflowInstance e)
  | .addNewWorkflowEvent iid e => s.commit (s.db.addNewWorkflowEvent iid e)
  | .addNewWorkflowEventWithExternalDelivery iid eventName deliveryID e =>
    s.commit (s.db.addNewWorkflowEventWithExternalDelivery iid eventName deliveryID e)
  | .purgeWorkflowState id => s.commit (s.db.purgeWorkflowState id)
  | .getWorkflowWorkItem now leaseToken => s.getWorkflowWorkItem opts now leaseToken
  | .processWorkItem leaseToken w env => s.processWorkItem leaseToken w env
  | .completeWorkflowWorkItem leaseToken now => s.completeWorkflowWorkItem leaseToken now
  | .abandonWorkflowWorkItem leaseToken now => s.abandonWorkflowWorkItem leaseToken now
  | .getActivityWorkItem now leaseToken => s.getActivityWorkItem opts now leaseToken
  | .completeActivityWorkItem leaseToken result =>
    s.endActivity leaseToken (·.completeActivityWorkItem · result)
  | .abandonActivityWorkItem leaseToken =>
    s.endActivity leaseToken (·.abandonActivityWorkItem ·)

/-- A run from the empty store. -/
def run (ops : List Op) : System := ops.foldl (exec opts) {}

end System

end DurableTask.Sqlite
