import DurableTask.Backend.Produced
import DurableTask.Backend.Sqlite.System
import DurableTask.Task.Machine

/-!
# The address of a message, and of a stall

A message of the outbox is enqueued for its `TargetInstanceId`. The only messages of an SDK that lack
one are those of a workflow whose pinned version is not registered any more: the `ExecutionStalled`
event is addressed to no instance, so that the stall is never observed. Were it delivered,
`Actions` would clear the stall before the turn is committed.
-/

namespace DurableTask

def WorkflowAction.isVersionNotAvailable (action : WorkflowAction) : Bool :=
  match action.actionType with
  | .workflowVersionNotAvailable => true
  | _ => false

namespace Applier

/-- The actions that send nothing without an address. -/
def addressedAction (start : Option ExecutionStartedEvent) (completed : Bool)
    (action : WorkflowAction) : Bool :=
  match action.actionType with
  | .completeWorkflow _ => completed ||
      (start.bind ExecutionStartedEvent.parentInstance).all (·.workflowInstance.instanceId ≠ "")
  | .sendEvent e => e.instanceId ≠ ""
  | .terminateWorkflow t => t.instanceId ≠ ""
  | .workflowVersionNotAvailable => false
  | _ => true

/-- The action lists that send nothing without an address; a continue-as-new sends nothing at all. -/
def addressedActions (s : WorkflowRuntimeState) (actions : List WorkflowAction) : Bool :=
  (appliedContinueAsNew s.isCompleted actions).isSome ||
    everyRound (addressedAction s.startEvent) s.isCompleted actions

variable {a : Applier} {env : ApplyEnv} {receivedHistory : Option PropagatedHistory}
  {customStatus : Option String} {resolved : DedupSet} {s s' : WorkflowRuntimeState} {i : Nat}
  {action : WorkflowAction} {actions : List WorkflowAction} {result : ActionsResult} {f : Effect}

theorem completionMessage_addressed {router : TaskRouter} {c : CompleteWorkflowAction} :
    (∀ m ∈ completionMessage env i router s c, m.targetInstanceId ≠ "") ↔
      (s.startEvent.bind ExecutionStartedEvent.parentInstance).all
        (·.workflowInstance.instanceId ≠ "") = true := by
  unfold completionMessage
  cases s.startEvent.bind ExecutionStartedEvent.parentInstance <;> simp

theorem effect_addressed (hids : ∀ parent executionID id, env.childInstanceID parent executionID id ≠ "")
    (h : a.effect env receivedHistory i resolved s action = .ok f) :
    (∀ m ∈ f.message, m.targetInstanceId ≠ "") ↔
      addressedAction s.startEvent s.completedEvent.isSome action = true := by
  rcases action with ⟨id, body, router⟩
  cases body with
  | completeWorkflow c =>
    cases h
    unfold completeWorkflow addressedAction
    split
    · next hs => simp [hs]
    · next hs =>
      rw [completionMessage_addressed, Bool.or_eq_true, or_iff_right hs]
  | createTimer t =>
    cases h
    simp [createTimer, addressedAction]
  | scheduleTask t =>
    cases h
    unfold scheduleTask
    dsimp only
    split <;> simp [addressedAction]
  | createChildWorkflow c =>
    simp only [effect, createChildWorkflow] at h
    split at h
    · cases h
      simp [addressedAction]
    · split at h <;> cases h
      have hid : childInstanceId env id s c ≠ "" := by
        unfold childInstanceId
        split
        · exact hids _ _ _
        · assumption
      simpa [addressedAction] using hid
  | createDetachedWorkflow c =>
    simp only [effect, createDetachedWorkflow] at h
    split at h <;> cases h
    simpa [addressedAction, detachedMessage]
  | sendEvent e =>
    cases h
    simp [eventSentMessage, addressedAction]
  | terminateWorkflow t =>
    cases h
    simp [terminateMessage, addressedAction]
  | workflowVersionNotAvailable =>
    cases h
    simp [versionNotAvailableMessage, addressedAction]
  | unset => cases h

theorem everyRound_of_mem {ok : Bool → WorkflowAction → Bool} {completed : Bool}
    (h : everyRound ok completed actions = true) (hmem : action ∈ actions) :
    ∃ completed, ok completed action = true := by
  induction actions generalizing completed with
  | nil => exact absurd hmem List.not_mem_nil
  | cons b actions ih =>
    rw [everyRound, Bool.and_eq_true] at h
    rcases List.mem_cons.mp hmem with rfl | hmem
    · exact ⟨_, h.1⟩
    · exact ih h.2 hmem

/-- Every message that a call of `Actions` adds to the outbox has a target, and a version that is not
available stalls the workflow: an `ExecutionStalled` event goes to its own queue or history, and a
turn that has processed one leaves it stalled. -/
structure Delivered (actions : List WorkflowAction) (result : ActionsResult)
    (s s' : WorkflowRuntimeState) : Prop where
  addressed : ∀ m ∈ result.sent s s', m.targetInstanceId ≠ ""
  queued : result.continuedAsNew = false → actions.any WorkflowAction.isVersionNotAvailable = true →
    (∃ m ∈ result.sent s s', m.targetInstanceId = s.instanceId ∧
      m.historyEvent.getExecutionStalled.isSome = true) ∨
    ∃ e ∈ result.appended s s', e.getExecutionStalled.isSome = true
  stalled : result.continuedAsNew = false → actions.any WorkflowAction.isVersionNotAvailable = true →
    s.stalled.isSome = true → s'.runtimeStatus = .stalled

/-- Messages have an address and stalls are observed exactly if the version is available, sent events
and terminations name an instance, and a parent has an instance id. -/
theorem actions_delivered_iff
    (hids : ∀ parent executionID id, env.childInstanceID parent executionID id ≠ "")
    (h : a.actions env receivedHistory s customStatus actions = .ok (result, s')) :
    Delivered actions result s s' ↔ addressedActions s actions = true := by
  unfold addressedActions
  cases hcan : appliedContinueAsNew s.isCompleted actions with
  | some c =>
    obtain ⟨hcontinued, hsent, -⟩ := actions_continued hcan h
    refine iff_of_true ⟨by simp [hsent], fun hfalse => ?_, fun hfalse => ?_⟩ rfl <;>
      · rw [hcontinued] at hfalse
        cases hfalse
  | none =>
    obtain ⟨hcontinued, hall⟩ := actions_rounds (E := fun _ => True)
      (M := fun m => m.targetInstanceId ≠ "") (Q := addressedAction s.startEvent)
      (fun hs hf => by simpa [hs] using effect_addressed hids hf) hcan h
    rw [Option.isSome_none, Bool.false_or]
    refine ⟨fun hd => hall.mp ⟨fun _ _ => trivial, hd.addressed⟩, fun hok => ?_⟩
    have hnone : actions.any WorkflowAction.isVersionNotAvailable = true → False := by
      intro hany
      obtain ⟨action, hmem, hv⟩ := List.any_eq_true.mp hany
      obtain ⟨completed, haddr⟩ := everyRound_of_mem hok hmem
      unfold WorkflowAction.isVersionNotAvailable at hv
      unfold addressedAction at haddr
      split at hv
      · next heq => simp [heq] at haddr
      · cases hv
    exact ⟨(hall.mpr hok).2, fun _ hany => (hnone hany).elim, fun _ hany => (hnone hany).elim⟩

end Applier

namespace Sqlite

namespace StallExample

open DurableTask.Task

/-- Call an activity and wait for its result. -/
inductive Flow
  | begin
  | waiting (activity : TaskRef)
  | finished

def next : Flow → Step Flow
  | .begin => .call (.callActivity "act" []) fun
    | .task t => .waiting t
    | _ => .finished
  | .waiting t => .call (.await t none) fun _ => .finished
  | .finished => .ret (.ok .nil)

/-- A worker that registers the workflow at one version only. -/
def sdk (version : String) : Sdk Flow :=
  { env :=
      { toUpper := id, unmarshal := fun _ s => .ok s, handle := fun _ _ => true
        nextDelayMs := fun ms _ _ => ms, float64 := fun n => n
        childInstanceID := fun parent _ _ => parent, uuid := fun _ => "" }
    registry :=
      { workflows := []
        versionedWorkflows := [("wf", [(version, .begin)])]
        latestVersionedWorkflows := [("wf", version)] }
    next := next }

def worker (version : String) : WorkflowProcessor :=
  { executor := fun _ id oldEvents newEvents _ =>
      .ok ((Machine.init id oldEvents newEvents).run (sdk version) 20).response
    applier := { appID := "app", appNamespace := "" } }

def applyEnv : ApplyEnv :=
  { now := fun _ => 0, uuid := fun _ => "u", childInstanceID := fun i _ _ => i ++ ":g:0" }

def processEnv : ProcessEnv := ⟨0, fun _ => applyEnv, applyEnv, 0⟩

def start : HistoryEvent :=
  { eventType := .executionStarted { name := "wf", workflowInstance := ⟨"a", some "e1"⟩ } }

/-- A turn on a worker with the given version. -/
def turn (token version : String) (now : Time) : List Op :=
  [.getWorkflowWorkItem now token, .processWorkItem token (worker version) processEnv,
   .completeWorkflowWorkItem token (now + 1)]

/-- The first turn runs version 1. Version 2 replaces it, and an event makes the workflow run again. -/
def replaced : List Op :=
  .createWorkflowInstance start :: turn "t1" "v1" 1 ++
    (.addNewWorkflowEvent "a" { eventType := .eventRaised { name := "noise" } } :: turn "t2" "v2" 3)

/-- The stall, were it delivered, and the turn that processes it. -/
def delivered : List Op :=
  replaced ++ (.addNewWorkflowEvent "a"
    { eventType := .executionStalled { reason := .versionNotAvailable } } :: turn "t3" "v2" 5)

def opts : SqliteOptions := ⟨10, 10⟩

def isStalled (e : HistoryEvent) : Bool := e.getExecutionStalled.isSome

/-- The turn of an execution pinned to a version that is not registered any more is committed, but its
`ExecutionStalled` event is neither in the queue nor in the history of the instance: it is a row of
the queue that belongs to no instance. The instance is running; and it still is when the event is
delivered by hand and processed while the version is still missing. -/
theorem stall_unreachable :
    let db := (System.run opts replaced).db
    (db.historyOf "a").length = 5 ∧ (db.historyOf "a").any isStalled = false ∧
      ((db.newEvents.filter (·.instanceID = "a")).any fun e => isStalled e.event) = false ∧
      (db.newEvents.map fun e => (e.instanceID, isStalled e.event)) = [("", true)] ∧
      (db.instance? "a").map InstanceRow.runtimeStatus = some .running ∧
    let db := (System.run opts delivered).db
    (db.historyOf "a").any isStalled = true ∧
      (db.instance? "a").map InstanceRow.runtimeStatus = some .running := by
  decide +kernel

/-- A child that creates a child of its own and ends. -/
def child : WorkflowRuntimeState :=
  .new "c" none
    [{ eventType := .executionStarted
        { name := "wf", workflowInstance := ⟨"c", some "e2"⟩
          parentInstance := some { taskScheduledId := 0, workflowInstance := ⟨"a", some "e1"⟩ } } }]

def ended : List WorkflowAction :=
  [{ id := 0, actionType := .createChildWorkflow { name := "wf" } },
   { id := 1, actionType := .completeWorkflow { workflowStatus := .completed } }]

theorem ended_delivered :
    ∃ result s, (worker "v1").applier.actions applyEnv none child none ended = .ok (result, s) ∧
      (result.sent child s).map (·.targetInstanceId) = ["c:g:0", "a"] ∧
      Applier.Delivered ended result child s := by
  have hdelivered {result s}
      (h : (worker "v1").applier.actions applyEnv none child none ended = .ok (result, s)) :
      Applier.Delivered ended result child s := by
    refine (Applier.actions_delivered_iff (fun parent _ _ hid => ?_) h).mpr (by decide)
    have := congrArg String.length hid
    simp [applyEnv] at this
  exact ⟨_, _, rfl, by decide, hdelivered rfl⟩

end StallExample

end Sqlite

end DurableTask
