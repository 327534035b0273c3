import DurableTask.Lib.Assoc
import DurableTask.Lib.Run
import DurableTask.Protos

/-!
# Transport attempts

The attempts of the gRPC executor to have a workflow turn or an activity run by a worker
(`backend/executor_transport.go`, `backend/executor.go`), and the completion waiters of the backend
(`backend/local/task.go`), as steps of one system.

A step is what happens at one point of one goroutine: an access to an atomic, a registry or a mutex, or
a critical section in which nothing else can be observed. Any goroutine may be at any of its points, so
the steps of a run are in any order. Whoever has loaded an attempt from the registry keeps it, so a step
of `claim` or `complete` may concern any attempt that was ever registered.
-/

namespace DurableTask.Transport

/-- The keys of `pendingWorkflows` and of `pendingActivities`, in the executor as in the backend. -/
inductive Key
  | workflow (iid : InstanceID)
  /-- `GetActivityExecutionKey`. -/
  | activity (executionKey : String)
deriving DecidableEq, Repr

/-- How far `complete` is. -/
inductive Progress
  | locked
  | delivering
  | delivered
deriving DecidableEq, Repr

/-- Who holds `mu`. -/
inductive Mutex
  | free
  | claim (streamID : String)
  | complete (token : String) (progress : Progress)
deriving DecidableEq, Repr

/-- How far `ExecuteWorkflow` or `ExecuteActivity` is. -/
inductive Phase
  | registered
  /-- The completion is registered: the item is dispatched and `wait` is called. -/
  | waiting (waiter : Nat)
  /-- `wait` has been told or cancelled. -/
  | leaving (waiter : Nat)
  /-- `finish` is next. -/
  | returning
  /-- In `finish`, before the lock. -/
  | stopped
  /-- `finish` has returned. -/
  | finished
  /-- The reservation is given up. -/
  | retired
deriving DecidableEq, Repr

/-- `transportAttempt`, with the state of its goroutine and of its context. -/
structure TransportAttempt where
  key : Key
  token : String
  streamID : Option String := none
  terminal : Bool := false
  cancelled : Bool := false
  mu : Mutex := .free
  phase : Phase := .registered
deriving DecidableEq, Repr

inductive CompleteError
  /-- "attempt is no longer pending or has not been dispatched" -/
  | notFound
  /-- "invalid completion token" -/
  | failedPrecondition
deriving DecidableEq, Repr

/-- A step of one attempt alone. -/
inductive LocalStep
  /-- `stop`, of a stream or of `Shutdown`, up to `cancel`. -/
  | stop
  | stopForStream (id : String)
  /-- The context ends, by `cancel` or with its parent. -/
  | cancel
  /-- `stop` in `finish`. -/
  | finishStop
  /-- `Lock` and `Unlock` in `finish`. -/
  | finishLock
  /-- `claim`, up to its check. -/
  | claimLock (streamID token : String)
  /-- `claim`, from the store on. -/
  | claimStore
  /-- `complete` takes the lock. -/
  | completeLock (token : String)
  /-- `complete`, after the backend has taken the response. -/
  | completeRecord
deriving DecidableEq, Repr

namespace TransportAttempt

/-- `stop`; its call of `cancel` is a step of its own. -/
def stop (p : TransportAttempt) : TransportAttempt := { p with terminal := true }

/-- `stopForStream`. -/
def stopForStream (id : String) (p : TransportAttempt) : TransportAttempt :=
  if p.streamID = some id then p.stop else p

/-- The check of `complete`. -/
def checkComplete (strict : Bool) (token : String) (p : TransportAttempt) : Except CompleteError Unit :=
  if p.terminal = true ∨ p.streamID = none then .error .notFound
  else if (token = "" ∧ strict = true) ∨ (token ≠ "" ∧ token ≠ p.token) then .error .failedPrecondition
  else .ok ()

/-- What a step does to the attempt; nothing if its goroutine is not there. -/
def step (p : TransportAttempt) : LocalStep → TransportAttempt
  | .stop => p.stop
  | .stopForStream id => p.stopForStream id
  | .cancel => { p with cancelled := true }
  | .finishStop => if p.phase = .returning then { p.stop with phase := .stopped } else p
  | .finishLock => if p.phase = .stopped ∧ p.mu = .free then { p with phase := .finished } else p
  | .claimLock streamID token =>
    if p.mu = .free ∧ p.terminal = false ∧ p.token = token then { p with mu := .claim streamID } else p
  | .claimStore =>
    match p.mu with
    | .claim streamID => { p with streamID := some streamID, mu := .free }
    | _ => p
  | .completeLock token => if p.mu = .free then { p with mu := .complete token .locked } else p
  | .completeRecord =>
    match p.mu with
    | .complete _ .delivered => { p with terminal := true, mu := .free }
    | _ => p

end TransportAttempt

/-- A completion waiter of the backend. -/
structure Waiter where
  attempt : Nat
  completed : Bool := false
deriving DecidableEq, Repr

/-- A response that passed the check of `complete`: for which attempt, and what the check saw. -/
structure HandOff where
  attempt : Nat
  token : String
  streamID : Option String
  terminal : Bool
deriving DecidableEq, Repr

/-- A response that the backend took: for which attempt, and the waiter it reached. -/
structure Delivery where
  attempt : Nat
  token : String
  waiter : Nat
deriving DecidableEq, Repr

/-- The executor and the backend. Attempts and waiters are numbered in the order they were registered;
`handOffs` and `deliveries` only record what happened. -/
structure System where
  attempts : List TransportAttempt := []
  registry : List (Key × Nat) := []
  waiters : List Waiter := []
  pending : List (Key × Nat) := []
  shuttingDown : Bool := false
  handOffs : List HandOff := []
  deliveries : List Delivery := []
deriving DecidableEq, Repr

inductive Op
  /-- `ExecuteWorkflow` or `ExecuteActivity`, up to `registerAttempt`. -/
  | registerAttempt (key : Key) (token : String)
  /-- `RegisterWorkflowTaskCompletion` or `RegisterActivityCompletion`. -/
  | registerCompletion (attempt : Nat)
  /-- The `select` of `wait`. -/
  | wait (attempt : Nat)
  /-- The deferred `CompareAndDelete` of `wait`. -/
  | removeWaiter (attempt : Nat)
  /-- The deferred `CompareAndDelete` of `ExecuteWorkflow` or `ExecuteActivity`. -/
  | retire (attempt : Nat)
  | localStep (attempt : Nat) (step : LocalStep)
  /-- The check of `complete`. -/
  | completeCheck (attempt : Nat)
  /-- `deliver` of `complete`: the call fails, or the backend looks for the waiter. -/
  | deliver (attempt : Nat) (fails : Bool)
  /-- `CancelWorkflowTask` or `CancelActivityTask`. -/
  | cancelTask (key : Key)
  | shutdown
deriving DecidableEq, Repr

namespace System

variable (s : System)

def modify (attempt : Nat) (f : TransportAttempt → TransportAttempt) : System :=
  { s with attempts := s.attempts.modify attempt f }

/-- `registerAttempt`. -/
def registerAttempt (key : Key) (token : String) : System :=
  if s.shuttingDown = true ∨ (Assoc.get? s.registry key).isSome = true then s
  else
    { s with
      attempts := s.attempts ++ [{ key := key, token := token }]
      registry := Assoc.insert s.registry key s.attempts.length }

/-- `LoadOrStore` of a new waiter, if the key has none. -/
def registerCompletion (attempt : Nat) (p : TransportAttempt) : System :=
  match Assoc.get? s.pending p.key with
  | some _ => s.modify attempt fun p => { p with phase := .returning }
  | none =>
    { s.modify attempt (fun p => { p with phase := .waiting s.waiters.length }) with
      waiters := s.waiters ++ [{ attempt := attempt }]
      pending := Assoc.insert s.pending p.key s.waiters.length }

/-- `LoadAndDelete` of the waiter of a key, which is told. -/
def completeWaiter (key : Key) (waiter : Nat) : System :=
  { s with
    pending := Assoc.erase s.pending key
    waiters := s.waiters.modify waiter fun x => { x with completed := true } }

/-- `CompareAndDelete`. -/
def compareAndDelete (m : List (Key × Nat)) (key : Key) (n : Nat) : List (Key × Nat) :=
  if Assoc.get? m key = some n then Assoc.erase m key else m

/-- The check of `complete`: the lock is given back, or the response is handed to the backend. -/
def completeCheck (strict : Bool) (attempt : Nat) (p : TransportAttempt) (token : String) : System :=
  match p.checkComplete strict token with
  | .error _ => s.modify attempt fun p => { p with mu := .free }
  | .ok () =>
    { s.modify attempt (fun p => { p with mu := .complete token .delivering }) with
      handOffs := s.handOffs ++ [⟨attempt, token, p.streamID, p.terminal⟩] }

/-- The backend's part of `complete`: if it fails or finds no waiter, the lock is given back. -/
def deliver (attempt : Nat) (p : TransportAttempt) (token : String) (fails : Bool) : System :=
  match if fails then none else Assoc.get? s.pending p.key with
  | none => s.modify attempt fun p => { p with mu := .free }
  | some waiter =>
    { (s.completeWaiter p.key waiter).modify attempt
        (fun p => { p with mu := .complete token .delivered }) with
      deliveries := s.deliveries ++ [⟨attempt, token, waiter⟩] }

/-- One step; nothing happens if no goroutine is there. -/
def exec (strict : Bool) : Op → System
  | .registerAttempt key token => s.registerAttempt key token
  | .registerCompletion a =>
    match s.attempts[a]? with
    | none => s
    | some p => if p.phase = .registered then s.registerCompletion a p else s
  | .wait a =>
    match s.attempts[a]? with
    | none => s
    | some p =>
      match p.phase with
      | .waiting w =>
        if p.cancelled = true ∨ (s.waiters[w]?.any Waiter.completed) = true then
          s.modify a fun p => { p with phase := .leaving w }
        else s
      | _ => s
  | .removeWaiter a =>
    match s.attempts[a]? with
    | none => s
    | some p =>
      match p.phase with
      | .leaving w =>
        { s.modify a (fun p => { p with phase := .returning }) with
          pending := compareAndDelete s.pending p.key w }
      | _ => s
  | .retire a =>
    match s.attempts[a]? with
    | none => s
    | some p =>
      if p.phase = .finished then
        { s.modify a (fun p => { p with phase := .retired }) with
          registry := compareAndDelete s.registry p.key a }
      else s
  | .localStep a step => s.modify a (·.step step)
  | .completeCheck a =>
    match s.attempts[a]? with
    | none => s
    | some p =>
      match p.mu with
      | .complete token .locked => s.completeCheck strict a p token
      | _ => s
  | .deliver a fails =>
    match s.attempts[a]? with
    | none => s
    | some p =>
      match p.mu with
      | .complete token .delivering => s.deliver a p token fails
      | _ => s
  | .cancelTask key =>
    match Assoc.get? s.pending key with
    | none => s
    | some waiter => s.completeWaiter key waiter
  | .shutdown => { s with shuttingDown := true }

/-- The state after a run, of an executor with or without `WithRequireCompletionTokens`. -/
def run (strict : Bool) (ops : List Op) : System := Run.run (exec · strict) {} ops

end System

end DurableTask.Transport
