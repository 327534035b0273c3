import DurableTask.Task.Handlers
import DurableTask.Backend.ProcessWorkItem

/-!
# Replaying a workflow

A workflow function is a coalgebra: from its local state it returns or makes a call and continues
with the response. Replaying it is a deterministic machine with an explicit stack of the Go frames
that are active: the loop of `start`, the loops of `Await`, and the loop of `onExecutionResumed`
over the events buffered during suspension. The panic of `Await` without further history is the
machine having no step.
-/

namespace DurableTask.Task

/-! ### Workflow functions -/

/-- The calls of workflow code. A destination of `await` and `getInput` names the type the value is
unmarshalled into. -/
inductive Call
  | callActivity (activityName : String) (opts : List CallActivityOption)
  | callChildWorkflow (workflowName : String) (opts : List ChildWorkflowOption)
  | createTimer (delay : Duration) (name : Option String)
  | waitForSingleEvent (eventName : String) (timeout : Duration)
  | scheduleNewWorkflow (workflowName : String) (opts : List DetachedWorkflowOption)
  | isPatched (patchName : String)
  | await (task : TaskRef) (dst : Option Nat)
  | taskExecutionId (task : TaskRef)
  | setCustomStatus (cs : String)
  | continueAsNew (newInput : Output) (keepUnprocessedEvents : Bool)
  | getInput (dst : Nat)
  | currentTimeUtc
  | id
  | name

/-- Their responses. -/
inductive Resp
  | task (task : TaskRef)
  | awaited (result : AwaitResult)
  | instanceID (result : Except String InstanceID)
  | bool (b : Bool)
  | string (s : String)
  | input (result : Except String (Option String))
  | time (t : Time)
  | unit

/-- What a workflow function does next. -/
inductive Step (σ : Type)
  | ret (result : Except TaskFailureDetails Output)
  | call (c : Call) (k : Resp → σ)

/-- `TaskRegistry`: the registered workflow functions by name, and by name and version. -/
structure TaskRegistry (σ : Type) where
  workflows : List (String × σ)
  versionedWorkflows : List (String × List (String × σ)) := []
  latestVersionedWorkflows : List (String × String) := []

/-- `ResolveWorkflow`. -/
def TaskRegistry.resolveWorkflow {σ : Type} (r : TaskRegistry σ) (name : String)
    (pinnedVersion : Option String) : Except ProcessError (σ × Option String) :=
  match Assoc.get? r.workflows name with
  | some w => .ok (w, none)
  | none =>
    match Assoc.get? r.versionedWorkflows name with
    | some versions =>
      match pinnedVersion.or (Assoc.get? r.latestVersionedWorkflows name) with
      | none => .error (.noLatestVersion name)
      | some versionToUse =>
        match Assoc.get? versions versionToUse with
        | some w => .ok (w, some versionToUse)
        | none => .error .unsupportedVersion
    | none =>
      if pinnedVersion.isSome then .error .unsupportedVersion
      else
        match Assoc.get? r.workflows "*" with
        | some w => .ok (w, none)
        | none => .error (.notRegistered name)

/-- The SDK with the workflow code it runs. -/
structure Sdk (σ : Type) where
  env : SdkEnv
  registry : TaskRegistry σ
  next : σ → Step σ

/-! ### The machine -/

/-- The active Go frames, other than running workflow code: the loop of `start`, workflow code waiting
for an `Await`, the loop of `completableTask.Await`, the points of `retryTask.Await` and
`taskWrapper.Await` that wait for an attempt or a back-off timer, and the loop of
`onExecutionResumed`. -/
inductive Frame (σ : Type)
  | start
  | code (k : Resp → σ)
  | await (task : Nat) (dst : Option Nat)
  | retryAttempt (retry : Nat) (dst : Option Nat)
  | retryTimer (retry : Nat) (dst : Option Nat) (err : AwaitError)
  | wrapperDelegate (wrapper : Nat) (dst : Option Nat)
  | wrapperTimer (wrapper : Nat) (dst : Option Nat) (err : AwaitError) (taskExecutionId : String)
  | drain (events : List (Nat × HistoryEvent))

/-- What happens next: workflow code runs, an `Await` has returned to the top frame, the loop of the
top frame goes on, an error was returned to it, or `start` has ended. -/
inductive Control (σ : Type)
  | run (s : σ)
  | returned (r : AwaitResult)
  | loop
  | raised (err : ProcessError)
  | done

/-- What workflow code observes. -/
inductive Obs
  | call (c : Call)
  | resp (r : Resp)

/-- A replay in progress. The last four fields are for specifications only: what the workflow code
observed, the errors raised by event handlers, and the positions of the events that were handled and
of those that were buffered. -/
structure Machine (σ : Type) where
  hist : Hist
  ctx : Ctx
  control : Control σ := .loop
  stack : List (Frame σ) := [.start]
  trace : List Obs := []
  errors : List ProcessError := []
  handled : List Nat := []
  buffered : List Nat := []

namespace Machine

variable {σ : Type} (sdk : Sdk σ)

/-- `NewWorkflowContext`, and `start` before its loop. -/
def init (id : InstanceID) (oldEvents newEvents : List HistoryEvent) : Machine σ :=
  { hist := { oldEvents := oldEvents, newEvents := newEvents }, ctx := { core := { id := id } } }

/-- An error returned by an event handler. -/
def raise (m : Machine σ) (err : ProcessError) : Machine σ :=
  { m with control := .raised err, errors := m.errors ++ [err] }

/-- The end of a handler that cannot run workflow code. -/
def handle (m : Machine σ) : Except ProcessError Ctx → Machine σ
  | .ok c => { m with ctx := c, control := .loop }
  | .error err => m.raise err

/-- `onExecutionStarted`, up to the call of the workflow function. -/
def onExecutionStarted (m : Machine σ) (es : ExecutionStartedEvent) : Machine σ :=
  match sdk.registry.resolveWorkflow es.name m.hist.versionName with
  | .error err => m.raise err
  | .ok (workflow, version) =>
    { m with
      hist := { m.hist with versionName := version.or m.hist.versionName }
      ctx := { m.ctx with core := { m.ctx.core with
        name := es.name, rawInput := es.input.getD m.ctx.core.rawInput } }
      control := .run workflow }

/-- The handling of a `WorkflowStarted` event. -/
def onWorkflowStarted (m : Machine σ) (timestamp : Time) (version : Option WorkflowVersion) :
    Machine σ :=
  let v := version.getD {}
  { m with
    hist := { m.hist with
      historyPatches := m.hist.historyPatches ++ v.patches
      versionName := v.name.or m.hist.versionName }
    ctx := { m.ctx with core := { m.ctx.core with currentTimeUtc := timestamp } }
    control := .loop }

/-- The dispatch of `processEvent` on an event that is neither dropped nor buffered. -/
def dispatch (m : Machine σ) (e : HistoryEvent) : Machine σ :=
  match e.eventType with
  | .workflowStarted version => m.onWorkflowStarted e.timestamp version
  | .executionStarted es => m.onExecutionStarted sdk es
  | .taskScheduled ts => m.handle (m.ctx.onTaskScheduled e.eventId ts)
  | .childWorkflowInstanceCreated ts => m.handle (m.ctx.onChildWorkflowScheduled e.eventId ts)
  | .detachedWorkflowInstanceCreated instanceId =>
    m.handle (m.ctx.onDetachedWorkflowCreated e.eventId instanceId)
  | .timerCreated tc => m.handle (m.ctx.onTimerCreated e.eventId tc)
  | .taskCompleted tc => m.handle (.ok (m.ctx.onResolution (.task, tc.taskScheduledId) e))
  | .taskFailed tf => m.handle (.ok (m.ctx.onResolution (.task, tf.taskScheduledId) e))
  | .childWorkflowInstanceCompleted sc =>
    m.handle (.ok (m.ctx.onResolution (.child, sc.taskScheduledId) e))
  | .childWorkflowInstanceFailed sf =>
    m.handle (.ok (m.ctx.onResolution (.child, sf.taskScheduledId) e))
  | .timerFired tf => m.handle (.ok (m.ctx.onResolution (.timer, tf.timerId) e))
  | .eventRaised er =>
    m.handle (.ok { m.ctx with core := Ctx.onExternalEventRaised sdk.env m.ctx.core e er })
  | .executionSuspended _ =>
    m.handle (.ok { m.ctx with core := { m.ctx.core with isSuspended := true } })
  | .executionResumed _ =>
    { m with
      ctx := { m.ctx with core := { m.ctx.core with isSuspended := false } }
      stack := .drain m.hist.suspendedEvents :: m.stack
      control := .loop }
  | .executionTerminated et => m.handle (.ok (m.ctx.onExecutionTerminated et))
  | .executionStalled _ | .workflowCompleted => { m with control := .loop }
  | .executionCompleted _ | .eventSent _ | .continueAsNew _ => m.raise .unknownEvent

/-- The events a suspended workflow still handles. -/
def handledWhileSuspended (e : HistoryEvent) : Bool :=
  match e.eventType with
  | .executionResumed _ | .executionTerminated _ => true
  | _ => false

/-- `processEvent`. -/
def processEvent (m : Machine σ) (e : Nat × HistoryEvent) : Machine σ :=
  if m.ctx.core.isTerminated then { m with control := .loop }
  else if m.ctx.core.isSuspended && !handledWhileSuspended e.2 then
    { m with
      hist := { m.hist with suspendedEvents := m.hist.suspendedEvents ++ [e] }
      buffered := m.buffered ++ [e.1]
      control := .loop }
  else dispatch sdk { m with handled := m.handled ++ [e.1] } e.2

/-- `processNextEvent`; no step without further history. -/
def processNextEvent (m : Machine σ) : Option (Machine σ) :=
  m.hist.getNextHistoryEvent.map fun (e, h) => processEvent sdk { m with hist := h } e

/-- What `completableTask.Await(v)` returns on a completed task. -/
def awaitResult (t : CompletableTask) (dst : Option Nat) : AwaitResult :=
  match t.failureDetails with
  | some fd => .error (.taskFailed fd.errorMessage)
  | none =>
    if t.isCanceled then .error .canceled
    else
      match dst with
      | none => .ok none
      | some d =>
        if t.rawResult = "" then .ok none
        else
          match sdk.env.unmarshal d t.rawResult with
          | .ok v => .ok (some v)
          | .error err => .error (.decode err)

/-! ### Awaiting -/

def retry (m : Machine σ) (r : Nat) : RetryTask := m.ctx.core.retryTasks.getD r { chain := 0, current := 0 }

def modifyRetry (m : Machine σ) (r : Nat) (f : RetryTask → RetryTask) : Machine σ :=
  { m with ctx := { m.ctx with core := { m.ctx.core with
      retryTasks := m.ctx.core.retryTasks.modify r f } } }

def wrapper (m : Machine σ) (w : Nat) : TaskWrapper := m.ctx.core.wrappers.getD w ⟨0, 0, 0⟩

/-- Call `completableTask.Await(dst)`. -/
def awaitTask (m : Machine σ) (task : Nat) (dst : Option Nat) : Machine σ :=
  { m with stack := .await task dst :: m.stack, control := .loop }

/-- Call it from a frame that waits for its result. -/
def awaitUnder (m : Machine σ) (f : Frame σ) (task : Nat) (dst : Option Nat) : Machine σ :=
  { m with stack := f :: m.stack }.awaitTask task dst

/-- The head of the loop of `retryTask.Await(dst)`. -/
def awaitRetry (m : Machine σ) (r : Nat) (dst : Option Nat) : Machine σ :=
  let t := m.retry r
  if t.finished then
    match t.terminalError with
    | some err => { m with control := .returned (.error err) }
    | none => m.awaitTask t.current dst
  else m.awaitUnder (.retryAttempt r dst) t.current none

/-- `retryTask.Await(dst)` giving up with an error. -/
def finishRetry (m : Machine σ) (r : Nat) (err : AwaitError) : Machine σ :=
  { m.modifyRetry r fun t => { t with finished := true, terminalError := some err } with
    control := .returned (.error err) }

/-- The execution ids of a retry task after an observed failure of its attempt. -/
def observeFailure (m : Machine σ) (r : Nat) (current : CompletableTask) : Machine σ :=
  if current.isCanceled ∧ current.taskExecutionId = "" then m
  else
    let m := m.modifyRetry r fun t => { t with recordedExecutionID := current.taskExecutionId }
    let dispatch := Assoc.insert m.ctx.ident.dispatchExecutionID r current.taskExecutionId
    { m with ctx := { m.ctx with ident := { m.ctx.ident with dispatchExecutionID := dispatch } } }

/-- Create the back-off timer of a retry chain. -/
def createRetryTimer (m : Machine σ) (chain : Nat) (delay : Duration) (executionID : String) :
    Machine σ × Nat :=
  let (c, timer, id) := m.ctx.createTimerInternal (some (m.ctx.chain chain).name) delay
  ({ m with ctx := c.setTimerOrigin m.hist chain id executionID }, timer)

/-- `retryTask.Await(dst)` after the failure `err` of its attempt. -/
def onRetryFailure (m : Machine σ) (r : Nat) (dst : Option Nat) (err : AwaitError) : Machine σ :=
  let t := m.retry r
  let current := m.ctx.core.task t.current
  -- A history-processing error is not an attempt failure.
  if ¬current.isCompleted then m.finishRetry r err
  else
    let m := m.observeFailure r current
    let chain := m.ctx.chain t.chain
    if chain.policy.maxAttempts ≤ t.retryCount + 1 then m.finishRetry r err
    else
      let delay := Ctx.computeNextDelay sdk.env m.ctx.core.currentTimeUtc chain.policy t.retryCount
        chain.initialAttempt err
      if delay = 0 then m.finishRetry r err
      else
        let dispatch := (Assoc.get? m.ctx.ident.dispatchExecutionID r).getD ""
        let (m, timer) := m.createRetryTimer t.chain delay dispatch
        m.awaitUnder (.retryTimer r dst err) timer none

/-- `retryTask.Await(dst)` after its back-off timer has fired. -/
def onRetryTimer (m : Machine σ) (r : Nat) (dst : Option Nat) : Machine σ :=
  let dispatch := (Assoc.get? m.ctx.ident.dispatchExecutionID r).getD ""
  let (c, task) := m.ctx.scheduleAttempt (m.retry r).chain dispatch true
  let m := { m with ctx := c }
  (m.modifyRetry r fun t => { t with retryCount := t.retryCount + 1, current := task }).awaitRetry r dst

/-- `taskWrapper.Await(dst)`. -/
def awaitWrapper (m : Machine σ) (w : Nat) (dst : Option Nat) : Machine σ :=
  m.awaitUnder (.wrapperDelegate w dst) (m.wrapper w).delegate dst

/-- The `onAwaitResult` closure of the legacy retry chain, on an error. -/
def onWrapperFailure (m : Machine σ) (w : Nat) (dst : Option Nat) (err : AwaitError) : Machine σ :=
  let t := m.wrapper w
  let chain := m.ctx.chain t.chain
  if chain.policy.maxAttempts ≤ t.retryCount + 1 then { m with control := .returned (.error err) }
  else
    let delay := Ctx.computeNextDelay sdk.env m.ctx.core.currentTimeUtc chain.policy t.retryCount
      chain.initialAttempt err
    if delay = 0 then { m with control := .returned (.error err) }
    else
      let executionID := (m.ctx.core.task t.delegate).taskExecutionId
      let (m, timer) := m.createRetryTimer t.chain delay executionID
      m.awaitUnder (.wrapperTimer w dst err executionID) timer none

/-- The rest of the `onAwaitResult` closure, after its timer has fired. -/
def onWrapperTimer (m : Machine σ) (w : Nat) (dst : Option Nat) (taskExecutionId : String) :
    Machine σ :=
  let t := m.wrapper w
  let (c, next) := m.ctx.scheduleTaskWithRetriesLegacy t.chain (t.retryCount + 1) taskExecutionId
  { m with ctx := c }.awaitWrapper next dst

/-! ### Calls -/

/-- `TaskExecutionId`. -/
def taskExecutionId (m : Machine σ) : TaskRef → String
  | .completable t => (m.ctx.core.task t).taskExecutionId
  | .retry r =>
    let id := (m.ctx.core.task (m.retry r).current).taskExecutionId
    if id ≠ "" then id else (m.retry r).recordedExecutionID
  | .wrapper w => (m.ctx.core.task (m.wrapper w).delegate).taskExecutionId

/-- The end of a call that returns at once. -/
def respond (m : Machine σ) (k : Resp → σ) (c : Ctx) (r : Resp) : Machine σ :=
  { m with ctx := c, control := .run (k r), trace := m.trace ++ [.resp r] }

/-- Workflow code makes a call. -/
def doCall (m : Machine σ) (call : Call) (k : Resp → σ) : Machine σ :=
  let m := { m with trace := m.trace ++ [Obs.call call] }
  let c := m.ctx
  match call with
  | .callActivity name opts =>
    let (c, t) := c.callActivity sdk.env m.hist name opts
    m.respond k c (.task t)
  | .callChildWorkflow name opts =>
    let (c, t) := c.callChildWorkflow sdk.env m.hist name opts
    m.respond k c (.task t)
  | .createTimer delay name =>
    let (c, t) := c.createTimer name delay
    m.respond k c (.task t)
  | .waitForSingleEvent eventName timeout =>
    let (c, t) := c.waitForSingleEvent sdk.env eventName timeout
    m.respond k c (.task t)
  | .scheduleNewWorkflow name opts =>
    let (c, r) := c.scheduleNewWorkflow name opts
    m.respond k c (.instanceID r)
  | .isPatched patchName =>
    let (c, b) := c.isPatched m.hist patchName
    m.respond k c (.bool b)
  | .await task dst =>
    let m := { m with stack := .code k :: m.stack }
    match task with
    | .completable t => m.awaitTask t dst
    | .retry r => m.awaitRetry r dst
    | .wrapper w => m.awaitWrapper w dst
  | .taskExecutionId task => m.respond k c (.string (m.taskExecutionId task))
  | .setCustomStatus cs => m.respond k { c with core := { c.core with customStatus := cs } } .unit
  | .continueAsNew newInput keep =>
    m.respond k
      { c with core := { c.core with
          continuedAsNew := true, continuedAsNewInput := newInput
          saveBufferedExternalEvents := c.core.saveBufferedExternalEvents || keep } } .unit
  | .getInput dst =>
    m.respond k c (.input (if c.core.rawInput = "" then .ok none
      else (sdk.env.unmarshal dst c.core.rawInput).map some))
  | .currentTimeUtc => m.respond k c (.time c.core.currentTimeUtc)
  | .id => m.respond k c (.string c.core.id)
  | .name => m.respond k c (.string c.core.name)

/-! ### Steps -/

/-- The loop of the top frame goes on. -/
def stepLoop (m : Machine σ) : Option (Machine σ) :=
  match m.stack with
  | .start :: _ => processNextEvent sdk m
  | .await task dst :: rest =>
    let t := m.ctx.core.task task
    if t.isCompleted then some { m with stack := rest, control := .returned (awaitResult sdk t dst) }
    else processNextEvent sdk m
  | .drain (e :: es) :: rest => some (processEvent sdk { m with stack := .drain es :: rest } e)
  | .drain [] :: rest =>
    some { m with hist := { m.hist with suspendedEvents := [] }, stack := rest }
  | _ => none

/-- An `Await` has returned to the top frame. -/
def stepReturned (m : Machine σ) (r : AwaitResult) : Option (Machine σ) :=
  match m.stack with
  | .code k :: rest =>
    some { m with stack := rest, control := .run (k (.awaited r)), trace := m.trace ++ [.resp (.awaited r)] }
  | .retryAttempt i dst :: rest =>
    let m := { m with stack := rest }
    match r with
    | .ok _ => some ((m.modifyRetry i fun t => { t with finished := true }).awaitTask (m.retry i).current dst)
    | .error err => some (onRetryFailure sdk m i dst err)
  | .retryTimer i dst err :: rest =>
    let m := { m with stack := rest }
    match r with
    | .ok _ => some (m.onRetryTimer i dst)
    | .error timerErr => some (m.finishRetry i (.timer timerErr err))
  | .wrapperDelegate w dst :: rest =>
    let m := { m with stack := rest }
    match r with
    | .ok _ => some m
    | .error err => some (onWrapperFailure sdk m w dst err)
  | .wrapperTimer w dst err executionID :: rest =>
    let m := { m with stack := rest }
    match r with
    | .ok _ => some (m.onWrapperTimer w dst executionID)
    | .error timerErr => some { m with control := .returned (.error (.timer timerErr err)) }
  | _ => none

/-- An error has been returned to the top frame. -/
def stepRaised (m : Machine σ) (err : ProcessError) : Option (Machine σ) :=
  match m.stack with
  | .drain _ :: rest => some { m with stack := rest }
  | .await _ _ :: rest => some { m with stack := rest, control := .returned (.error (.history err)) }
  | .start :: _ => some { m with ctx := m.ctx.onStartError err, control := .done }
  | _ => none

/-- One step of a replay. -/
def step (m : Machine σ) : Option (Machine σ) :=
  match m.control with
  | .run s =>
    match sdk.next s with
    | .ret result => some { m with ctx := m.ctx.onReturn result, control := .loop }
    | .call c k => some (doCall sdk m c k)
  | .returned r => stepReturned sdk m r
  | .loop => stepLoop sdk m
  | .raised err => stepRaised m err
  | .done => none

/-- Up to `n` steps. -/
def run (m : Machine σ) : Nat → Machine σ
  | 0 => m
  | n + 1 =>
    match step sdk m with
    | some m' => m'.run n
    | none => m

/-- The response of `ExecuteWorkflow` once the replay has halted. -/
def response (m : Machine σ) : WorkflowResponse :=
  { actions := m.ctx.actions
    customStatus := some m.ctx.core.customStatus
    version :=
      if m.ctx.core.encounteredPatches.isEmpty && m.hist.versionName.isNone then none
      else some { patches := m.ctx.core.encounteredPatches, name := m.hist.versionName } }

end Machine

end DurableTask.Task
