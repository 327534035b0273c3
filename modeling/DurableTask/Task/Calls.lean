import DurableTask.Task.Pending

/-!
# The calls of workflow code

`CallActivity`, `CallChildWorkflow`, `CreateTimer`, `WaitForSingleEvent`, `ScheduleNewWorkflow`,
`IsPatched`, `ContinueAsNew` and the accessors. `Await` is in `Machine`: it may process events.
-/

namespace DurableTask.Task

def maxInt64 : Int := 9223372036854775807

/-- `RetryPolicy.Validate`: the policy with its defaults filled in. -/
def RetryPolicy.validate (policy : RetryPolicy) : Except TaskFailureDetails RetryPolicy :=
  if policy.initialRetryInterval ≤ 0 then
    .error ⟨"*errors.errorString", "InitialRetryInterval must be greater than 0"⟩
  else
    .ok { policy with
      maxAttempts := if policy.maxAttempts ≤ 0 then 1 else policy.maxAttempts
      backoffCoefficient := if policy.backoffCoefficient ≤ 0 then 1 else policy.backoffCoefficient
      maxRetryInterval := if policy.maxRetryInterval ≤ 0 then maxInt64 else policy.maxRetryInterval
      retryTimeout := if policy.retryTimeout ≤ 0 then maxInt64 else policy.retryTimeout }

/-! ### Options -/

/-- The options of `CallActivity`. The input of `input` is the result of marshalling it. -/
inductive CallActivityOption
  | input (data : Except TaskFailureDetails String)
  | rawInput (input : Option String)
  | retryPolicy (policy : Option RetryPolicy)
  | appID (targetAppID : String)
  | appNamespace (targetAppNamespace : String)
  | historyPropagation (scope : HistoryPropagationScope)

def CallActivityOption.apply (o : CallActivityOptions) :
    CallActivityOption → Except TaskFailureDetails CallActivityOptions
  | .input data => data.map fun data => { o with rawInput := some data }
  | .rawInput raw => .ok { o with rawInput := raw }
  | .retryPolicy none => .ok o
  | .retryPolicy (some policy) => policy.validate.map fun p => { o with retryPolicy := some p }
  | .appID a => .ok { o with targetAppID := some a }
  | .appNamespace ns => .ok { o with targetAppNamespace := some ns }
  | .historyPropagation scope => .ok { o with propagationScope := some scope }

/-- The options of `CallChildWorkflow`. -/
inductive ChildWorkflowOption
  | input (data : Except String String)
  | rawInput (input : Option String)
  | instanceID (instanceID : InstanceID)
  | retryPolicy (policy : Option RetryPolicy)
  | appID (targetAppID : String)
  | appNamespace (targetAppNamespace : String)
  | historyPropagation (scope : HistoryPropagationScope)

def ChildWorkflowOption.apply (o : CallChildWorkflowOptions) :
    ChildWorkflowOption → Except TaskFailureDetails CallChildWorkflowOptions
  | .input (.error err) => .error ⟨"*fmt.wrapError", "failed to marshal input to JSON: " ++ err⟩
  | .input (.ok data) => .ok { o with rawInput := some data }
  | .rawInput raw => .ok { o with rawInput := raw }
  | .instanceID i => .ok { o with instanceID := i }
  | .retryPolicy none => .ok o
  | .retryPolicy (some policy) => policy.validate.map fun p => { o with retryPolicy := some p }
  | .appID a => .ok { o with targetAppID := some a }
  | .appNamespace ns => .ok { o with targetAppNamespace := some ns }
  | .historyPropagation scope => .ok { o with propagationScope := some scope }

structure ScheduleNewWorkflowOptions where
  instanceID : Option InstanceID := none
  rawInput : Option String := none
  scheduledStartTimestamp : Option Time := none
  targetAppID : Option String := none
  targetAppNamespace : Option String := none
deriving DecidableEq, Repr

/-- The options of `ScheduleNewWorkflow`. -/
inductive DetachedWorkflowOption
  | instanceID (instanceID : InstanceID)
  | input (data : Except String String)
  | rawInput (input : Option String)
  | startTime (startTime : Time)
  | appID (targetAppID : String)
  | appNamespace (targetAppNamespace : String)

def DetachedWorkflowOption.apply (o : ScheduleNewWorkflowOptions) :
    DetachedWorkflowOption → Except String ScheduleNewWorkflowOptions
  | .instanceID i => .ok { o with instanceID := some i }
  | .input (.error err) => .error ("failed to marshal input to JSON: " ++ err)
  | .input (.ok data) => .ok { o with rawInput := some data }
  | .rawInput raw => .ok { o with rawInput := raw }
  | .startTime t => .ok { o with scheduledStartTimestamp := some t }
  | .appID a => .ok { o with targetAppID := some a }
  | .appNamespace ns => .ok { o with targetAppNamespace := some ns }

/-- `taskRouterFromTarget`. -/
def taskRouterFromTarget (targetAppID targetAppNamespace : Option String) : Option TaskRouter :=
  targetAppID.map fun a => { targetAppID := some a, targetAppNamespace := targetAppNamespace }

/-- `validateAppNamespaceRequiresAppID`: the failure of a call with a namespace and no app ID. -/
def validateAppNamespaceRequiresAppID (targetAppID targetAppNamespace : Option String)
    (errorType nsOptName appIDOptName : String) : Option TaskFailureDetails :=
  if targetAppNamespace.isNone ∨ targetAppID.isSome then none
  else some ⟨errorType, nsOptName ++ " requires " ++ appIDOptName ++ " to also be set"⟩

namespace Ctx

variable (env : SdkEnv) (h : Hist)

/-- `uuid.NewString`. -/
def newUUID (c : Ctx) : Ctx × String :=
  ({ c with ident := { c.ident with uuids := c.ident.uuids + 1 } }, env.uuid c.ident.uuids)

/-- Register scheduled work: an action under the next id, a new task for it, and an early resolution
if one is buffered. -/
def register (c : Ctx) (actionType : WorkflowActionType) (router : Option TaskRouter) (kind : Kind) :
    Ctx × Nat × ActionID :=
  let (core, task) := c.core.newTask
  let (pend, id) := c.pend.addAction actionType router (some task)
  let pend := pend.noteOptional id ⟨id, actionType, router⟩
  ({ c with core := core, pend := pend.addTask id kind task }.consumeBufferedResolution (kind, id),
    task, id)

/-- `internalScheduleActivity`. -/
def internalScheduleActivity (c : Ctx) (activityName taskExecutionId : String)
    (options : CallActivityOptions) : Ctx × Nat :=
  let (c, task, _) := c.register
    (.scheduleTask
      { name := activityName, taskExecutionId := taskExecutionId, input := options.rawInput
        historyPropagationScope := options.propagationScope })
    (taskRouterFromTarget options.targetAppID options.targetAppNamespace) .task
  (c, task)

/-- `internalCallChildWorkflow`. The task points at its action. -/
def internalCallChildWorkflow (c : Ctx) (workflowName : String) (options : CallChildWorkflowOptions)
    (retryParentInstanceID : Option InstanceID) : Ctx × Nat :=
  let (c, task, id) := c.register
    (.createChildWorkflow
      { name := workflowName, input := options.rawInput, instanceId := options.instanceID
        historyPropagationScope := options.propagationScope
        retryParentInstanceInfo := retryParentInstanceID })
    (taskRouterFromTarget options.targetAppID options.targetAppNamespace) .child
  ({ c with ident := { c.ident with childAction := Assoc.insert c.ident.childAction task id } }, task)

/-- `createTimerInternal`; also the id of the timer's action. -/
def createTimerInternal (c : Ctx) (name : Option String) (delay : Duration) :
    Ctx × Nat × ActionID :=
  c.register
    (.createTimer
      { fireAt := c.core.currentTimeUtc + delay, name := name, origin := some .createTimer }) none
    .timer

/-- `createExternalEventTimerInternal`. -/
def createExternalEventTimerInternal (c : Ctx) (eventName : String) (fireAt : Time) : Ctx × Nat :=
  let (c, task, _) := c.register
    (.createTimer
      { fireAt := fireAt, name := some eventName, origin := some (.externalEvent eventName) }) none
    .timer
  (c, task)

/-! ### Patches -/

/-- The decision about a patch that was not asked for yet. Before the end of the history a patch that
is not recorded was not there in the previous run. -/
def decision (patchName : String) : Bool :=
  h.historyPatches.contains patchName || decide (h.events.length ≤ h.historyIndex)

/-- `isPatched` and `IsPatched`. -/
def isPatched (c : Ctx) (patchName : String) : Ctx × Bool :=
  let (applied, patched) := match Assoc.get? c.core.appliedPatches patchName with
    | some patched => (c.core.appliedPatches, patched)
    | none => (Assoc.insert c.core.appliedPatches patchName (decision h patchName),
        decision h patchName)
  ({ c with core := { c.core with
      appliedPatches := applied
      encounteredPatches :=
        if patched then c.core.encounteredPatches ++ [patchName] else c.core.encounteredPatches } },
    patched)

/-! ### Retry chains -/

def retryChainPatch : String := "durabletask-go/retry-chain-v1"

def chain (c : Ctx) (i : Nat) : RetryChain :=
  c.core.chains.getD i ⟨"", 0, .activity "" {}, { maxAttempts := 1, initialRetryInterval := 1 }, none⟩

/-- The `schedule` closure of a retry chain. -/
def scheduleAttempt (c : Ctx) (i : Nat) (taskExecutionId : String) (isRetry : Bool) : Ctx × Nat :=
  match (c.chain i).attempt with
  | .activity activityName options => c.internalScheduleActivity activityName taskExecutionId options
  | .childWorkflow workflowName options =>
    if isRetry then
      c.internalCallChildWorkflow workflowName options
        (some ((Assoc.get? c.ident.firstInstanceID i).getD ""))
    else
      let (c, task) := c.internalCallChildWorkflow workflowName options none
      ({ c with core := { c.core with
          chains := c.core.chains.modify i fun ch => { ch with firstTask := some task } } }, task)

/-- The first instance id of a child retry chain as its `setTimerOrigin` closure updates it: the
recorded id of the first attempt, if there is one. -/
def firstInstanceID (c : Ctx) (i : Nat) : InstanceID :=
  let current := (Assoc.get? c.ident.firstInstanceID i).getD ""
  match (c.chain i).firstTask with
  | none => current
  | some task =>
    let current := match Assoc.get? c.ident.childInstanceID task with
      | some instanceID => if instanceID = "" then current else instanceID
      | none => current
    match Assoc.get? c.ident.childAction task with
    | some id => (h.createdInstanceID id).getD current
    | none => current

/-- The `setTimerOrigin` closure of a retry chain, on the timer action `id`. -/
def setTimerOrigin (c : Ctx) (i : Nat) (id : ActionID) (executionID : String) : Ctx :=
  let (origin, ident) : TimerOrigin × Ident := match (c.chain i).attempt with
    | .activity .. => (.activityRetry executionID, c.ident)
    | .childWorkflow .. =>
      (.childWorkflowRetry (c.firstInstanceID h i),
        { c.ident with
          firstInstanceID := Assoc.insert c.ident.firstInstanceID i (c.firstInstanceID h i) })
  { c with
    ident := ident
    pend := { c.pend with pendingActions := Assoc.modify c.pend.pendingActions id fun a =>
      match a.action.actionType with
      | .createTimer t =>
        { a with action := { a.action with actionType := .createTimer { t with origin := origin } } }
      | _ => a } }

/-- `internalScheduleTaskWithRetriesLegacy`. -/
def scheduleTaskWithRetriesLegacy (c : Ctx) (i : Nat) (retryCount : Nat) (taskExecutionId : String) :
    Ctx × Nat :=
  let (c, delegate) := c.scheduleAttempt i taskExecutionId (decide (0 < retryCount))
  ({ c with core := { c.core with wrappers := c.core.wrappers ++ [⟨i, delegate, retryCount⟩] } },
    c.core.wrappers.length)

/-- The decision for the patched retry chain, asked for once per replay. -/
def retryChainPatched (c : Ctx) : Ctx × Bool :=
  match Assoc.get? c.core.appliedPatches retryChainPatch with
  | some patched => (c, patched)
  | none => c.isPatched h retryChainPatch

/-- The `retryTask` of a chain, with its first attempt. -/
def newRetryTask (c : Ctx) (i : Nat) (taskExecutionId : String) : Ctx × Nat :=
  let (c, current) := c.scheduleAttempt i taskExecutionId false
  let rid := c.core.retryTasks.length
  let dispatch := Assoc.insert c.ident.dispatchExecutionID rid taskExecutionId
  ({ c with
      core := { c.core with retryTasks := c.core.retryTasks ++ [{ chain := i, current := current }] }
      ident := { c.ident with dispatchExecutionID := dispatch } }, rid)

/-- `internalScheduleTaskWithRetries`. -/
def scheduleTaskWithRetries (c : Ctx) (i : Nat) (taskExecutionId : String) : Ctx × TaskRef :=
  let (c, patched) := c.retryChainPatched h
  if patched then
    let (c, retry) := c.newRetryTask i taskExecutionId
    (c, .retry retry)
  else
    let (c, wrapper) := c.scheduleTaskWithRetriesLegacy i 0 taskExecutionId
    (c, .wrapper wrapper)

/-- The shared values of a new retry chain. -/
def addChain (c : Ctx) (name : String) (attempt : Attempt) (policy : RetryPolicy)
    (firstInstanceID : Option InstanceID) : Ctx × Nat :=
  let i := c.core.chains.length
  let chain : RetryChain :=
    { name := name ++ "-retry", initialAttempt := c.core.currentTimeUtc, attempt := attempt
      policy := policy }
  let ident := match firstInstanceID with
    | some f => { c.ident with firstInstanceID := Assoc.insert c.ident.firstInstanceID i f }
    | none => c.ident
  ({ c with core := { c.core with chains := c.core.chains ++ [chain] }, ident := ident }, i)

/-- Start a retry chain. -/
def startChain (c : Ctx) (name : String) (attempt : Attempt) (policy : RetryPolicy)
    (firstInstanceID : Option InstanceID) : Ctx × TaskRef :=
  let (c, i) := c.addChain name attempt policy firstInstanceID
  let (c, taskExecutionId) := c.newUUID env
  c.scheduleTaskWithRetries h i taskExecutionId

/-! ### The calls -/

def failedTask (c : Ctx) (fd : TaskFailureDetails) : Ctx × TaskRef :=
  let (core, task) := c.core.failedTask fd
  ({ c with core := core }, .completable task)

def callActivity (c : Ctx) (activityName : String) (opts : List CallActivityOption) :
    Ctx × TaskRef :=
  match opts.foldlM CallActivityOption.apply {} with
  | .error fd => c.failedTask fd
  | .ok options =>
    match validateAppNamespaceRequiresAppID options.targetAppID options.targetAppNamespace
      "InvalidActivityOptions" "WithActivityAppNamespace" "WithActivityAppID" with
    | some fd => c.failedTask fd
    | none =>
      match options.retryPolicy with
      | some policy => c.startChain env h activityName (.activity activityName options) policy none
      | none =>
        let (c, taskExecutionId) := c.newUUID env
        let (c, task) := c.internalScheduleActivity activityName taskExecutionId options
        (c, .completable task)

def callChildWorkflow (c : Ctx) (workflowName : String) (opts : List ChildWorkflowOption) :
    Ctx × TaskRef :=
  match opts.foldlM ChildWorkflowOption.apply {} with
  | .error fd => c.failedTask fd
  | .ok options =>
    match validateAppNamespaceRequiresAppID options.targetAppID options.targetAppNamespace
      "InvalidChildWorkflowOptions" "WithChildWorkflowAppNamespace" "WithChildWorkflowAppID" with
    | some fd => c.failedTask fd
    | none =>
      match options.retryPolicy with
      | some policy =>
        let firstInstanceID := if options.instanceID = "" then
            env.childInstanceID c.core.id h.executionID c.pend.sequenceNumber
          else options.instanceID
        c.startChain env h workflowName (.childWorkflow workflowName options) policy
          (some firstInstanceID)
      | none =>
        let (c, task) := c.internalCallChildWorkflow workflowName options none
        (c, .completable task)

def createTimer (c : Ctx) (name : Option String) (delay : Duration) : Ctx × TaskRef :=
  let (c, task, _) := c.createTimerInternal name delay
  (c, .completable task)

/-- The wait registered in the list of its event name: `PushBack` on the list, which is made if there
is none. -/
def addWaiter (c : Ctx) (key : String) (task : Nat) : Ctx × Nat :=
  match Assoc.get? c.core.pendingExternalEventTasks key with
  | some list =>
    ({ c with core := { c.core with waitLists := c.core.waitLists.modify list (· ++ [task]) } }, list)
  | none =>
    let list := c.core.waitLists.length
    ({ c with core := { c.core with
        waitLists := c.core.waitLists ++ [[task]]
        pendingExternalEventTasks := Assoc.insert c.core.pendingExternalEventTasks key list } }, list)

/-- When the timer of an external-event wait fires. -/
def waitFireAt (c : Ctx) (timeout : Duration) : Time :=
  if timeout > 0 then c.core.currentTimeUtc + timeout else externalEventIndefiniteFireAt

/-- The timer of an external-event wait. The earlier release had none for an indefinite wait; a task
object that nothing ever completes is set aside there too, so that both have the same objects. -/
def addWaitTimer (c : Ctx) (eventName : String) (timeout : Duration) (callback : WaitTimeout) : Ctx :=
  if timeout < 0 ∧ env.legacyWaits then
    { c with core := c.core.newTask.1.onCompleted c.core.newTask.2 callback }
  else
    let (c, timer) := c.createExternalEventTimerInternal eventName (c.waitFireAt timeout)
    { c with core := c.core.onCompleted timer callback }

/-- Complete a wait with the oldest buffered event of its name. -/
def takeBufferedEvent (c : Core) (key : String) (e : HistoryEvent) (rest : List HistoryEvent)
    (task : Nat) : Core :=
  let buffered := if rest.isEmpty then Assoc.erase c.bufferedExternalEvents key
    else Assoc.insert c.bufferedExternalEvents key rest
  let rawValue := match e.eventType with
    | .eventRaised er => er.input.getD ""
    | _ => ""
  { c with bufferedExternalEvents := buffered }.complete task rawValue

def waitForSingleEvent (c : Ctx) (eventName : String) (timeout : Duration) : Ctx × TaskRef :=
  let (core, task) := c.core.newTask
  let c := { c with core := core }
  let key := env.toUpper eventName
  match Assoc.get? c.core.bufferedExternalEvents key with
  | some (e :: rest) =>
    ({ c with core := takeBufferedEvent c.core key e rest task }, .completable task)
  | _ =>
    if timeout = 0 then ({ c with core := c.core.cancel task }, .completable task)
    else
      let (c, list) := c.addWaiter key task
      (c.addWaitTimer env eventName timeout ⟨task, key, list⟩, .completable task)

def scheduleNewWorkflow (c : Ctx) (workflowName : String) (opts : List DetachedWorkflowOption) :
    Ctx × Except String InstanceID :=
  match opts.foldlM DetachedWorkflowOption.apply {} with
  | .error err => (c, .error err)
  | .ok options =>
    if options.targetAppNamespace.isSome ∧ options.targetAppID.isNone then
      (c, .error
        "WithDetachedWorkflowAppNamespace requires WithDetachedWorkflowAppID to also be set")
    else if options.instanceID = some "" then
      (c, .error ("WithDetachedWorkflowInstanceID was passed an empty string; omit the option to" ++
        " opt into the default ID"))
    else
      let counter := c.core.defaultDetachedWorkflowCounter
      let instanceID := options.instanceID.getD (c.core.id ++ "-" ++ toString counter)
      let (pend, _) := c.pend.addAction
        (.createDetachedWorkflow
          { instanceId := instanceID, name := workflowName, input := options.rawInput
            scheduledStartTimestamp := options.scheduledStartTimestamp })
        (taskRouterFromTarget options.targetAppID options.targetAppNamespace) none
      ({ c with
          pend := pend
          core := { c.core with defaultDetachedWorkflowCounter :=
            if options.instanceID.isNone then counter + 1 else counter } }, .ok instanceID)

/-- `computeNextDelay`. -/
def computeNextDelay (currentTimeUtc : Time) (policy : RetryPolicy) (attempt : Nat)
    (firstAttempt : Time) (err : AwaitError) : Duration :=
  let handled := match policy.handle with
    | some f => env.handle f err
    | none => true
  let isExpired := decide (policy.retryTimeout ≠ maxInt64 ∧
    firstAttempt + policy.retryTimeout < currentTimeUtc)
  if handled && !isExpired then
    let nextDelayMs := env.nextDelayMs (policy.initialRetryInterval / 1000000)
      policy.backoffCoefficient attempt
    if nextDelayMs < env.float64 (policy.maxRetryInterval / 1000000) then nextDelayMs.floor * 1000000
    else policy.maxRetryInterval
  else 0

end Ctx

end DurableTask.Task
