import DurableTask.Backend.ProcessWorkItem

/-!
# The outbox across continue-as-new

Detached workflows, sent events and terminations of other workflows leave a workflow through
`PendingMessages`. `Applier.Actions` appends one message for each of these actions
(`effect_decoupled`), but a continue-as-new completion replaces the whole state, outbox included
(`applyActions_spec`), and so does every further generation of the loop of `ProcessWorkItem`.
-/

namespace DurableTask

open Applier

/-- The message of an action whose effect does not come back to the workflow. -/
def Applier.decoupledMessage (a : Applier) (env : ApplyEnv) (i : Nat) (action : WorkflowAction) :
    Option WorkflowRuntimeStateMessage :=
  let router := a.stampRouter action.router
  match action.actionType with
  | .createDetachedWorkflow c => some (detachedMessage env i router c)
  | .sendEvent e => some (eventSentMessage env i action.id router e)
  | .terminateWorkflow t => some (terminateMessage env i router t)
  | _ => none

def WorkflowAction.isDecoupled (action : WorkflowAction) : Bool :=
  match action.actionType with
  | .createDetachedWorkflow _ | .sendEvent _ | .terminateWorkflow _ => true
  | _ => false

/-- The messages of the decoupled actions of a list that starts at position `i`. -/
def Applier.decoupledMessages (a : Applier) (env : ApplyEnv) :
    Nat → List WorkflowAction → List WorkflowRuntimeStateMessage
  | _, [] => []
  | i, action :: actions =>
    (a.decoupledMessage env i action).toList ++ a.decoupledMessages env (i + 1) actions

/-- The messages `decoupledMessage` builds, told by their event. -/
def WorkflowRuntimeStateMessage.isDecoupled (m : WorkflowRuntimeStateMessage) : Bool :=
  match m.historyEvent.eventType with
  | .executionStarted es => es.parentInstance.isNone
  | .eventSent _ => true
  | .executionTerminated _ => true
  | _ => false

def WorkflowRuntimeState.decoupled (s : WorkflowRuntimeState) : List WorkflowRuntimeStateMessage :=
  s.pendingMessages.filter WorkflowRuntimeStateMessage.isDecoupled

/-- Whether a continue-as-new completion of the list is applied: none is once the workflow is
completed. -/
def appliesContinueAsNew (completed : Bool) : List WorkflowAction → Bool
  | [] => false
  | action :: actions =>
    (!completed && (continueAsNewAction action).isSome) ||
      appliesContinueAsNew (completed || action.completionStatus.isSome) actions

/-! ### One action -/

section Action

variable {a : Applier} {env : ApplyEnv} {receivedHistory : Option PropagatedHistory} {i : Nat}
  {resolved : DedupSet} {action : WorkflowAction} {s : WorkflowRuntimeState} {f : Effect}

theorem childResult_not_decoupled {m : WorkflowRuntimeStateMessage} {id : ActionID}
    {c : CompleteWorkflowAction} (h : m.historyEvent.eventType = childResult id c) :
    m.isDecoupled = false := by
  by_cases hc : c.workflowStatus = .completed <;>
    simp [WorkflowRuntimeStateMessage.isDecoupled, h, childResult, hc]

/-- An action sends its decoupled message, if it has one, and no other decoupled message. -/
theorem effect_decoupled (h : a.effect env receivedHistory i resolved s action = .ok f) :
    f.message.toList.filter WorkflowRuntimeStateMessage.isDecoupled =
      (a.decoupledMessage env i action).toList := by
  rcases action with ⟨id, body, router⟩
  cases body <;> simp only [effect, decoupledMessage, Except.ok.injEq, reduceCtorEq] at h ⊢
  case completeWorkflow c =>
    subst h
    unfold completeWorkflow
    split
    · rfl
    · cases hp : s.startEvent.bind ExecutionStartedEvent.parentInstance with
      | none => simp [completionMessage, hp]
      | some p =>
        simp only [completionMessage, hp, Option.map_some, Option.toList_some]
        exact List.filter_eq_nil_iff.mpr (by simpa using childResult_not_decoupled rfl)
  case createTimer t => subst h; rfl
  case scheduleTask t =>
    subst h
    simp only [scheduleTask]
    split <;> rfl
  case createChildWorkflow c =>
    simp only [createChildWorkflow] at h
    split at h
    · cases h; rfl
    · split at h <;> cases h
      simp [WorkflowRuntimeStateMessage.isDecoupled]
  case createDetachedWorkflow c =>
    unfold createDetachedWorkflow at h
    split at h <;> cases h
    simp [WorkflowRuntimeStateMessage.isDecoupled, detachedMessage]
  case sendEvent e =>
    subst h
    simp [WorkflowRuntimeStateMessage.isDecoupled, eventSentMessage, eventSent, recorded]
  case terminateWorkflow t =>
    subst h
    simp [WorkflowRuntimeStateMessage.isDecoupled, terminateMessage]
  case workflowVersionNotAvailable =>
    subst h
    simp [WorkflowRuntimeStateMessage.isDecoupled, versionNotAvailableMessage]

/-- Only a completion records a completion. -/
theorem effect_event_completed (h : a.effect env receivedHistory i resolved s action = .ok f) :
    s.completedEvent.isSome = true ∨
      (f.event.bind HistoryEvent.getExecutionCompleted).isSome = action.completionStatus.isSome := by
  rcases action with ⟨id, body, router⟩
  cases body <;> simp only [effect, WorkflowAction.completionStatus, Except.ok.injEq, reduceCtorEq]
    at h ⊢
  case completeWorkflow c =>
    subst h
    unfold completeWorkflow
    split
    · exact Or.inl ‹_›
    · exact Or.inr rfl
  case createTimer t => subst h; exact Or.inr rfl
  case scheduleTask t =>
    subst h
    simp only [scheduleTask]
    split <;> exact Or.inr rfl
  case createChildWorkflow c =>
    simp only [createChildWorkflow] at h
    split at h
    · cases h; exact Or.inr rfl
    · split at h <;> cases h
      exact Or.inr rfl
  case createDetachedWorkflow c =>
    unfold createDetachedWorkflow at h
    split at h <;> cases h
    exact Or.inr rfl
  case sendEvent | terminateWorkflow | workflowVersionNotAvailable => subst h; exact Or.inr rfl

@[simp] theorem apply_decoupled (f : Effect) (s : WorkflowRuntimeState) :
    (f.apply s).decoupled =
      s.decoupled ++ f.message.toList.filter WorkflowRuntimeStateMessage.isDecoupled := by
  cases h : f.event <;> simp [Effect.apply, WorkflowRuntimeState.decoupled, h]

theorem apply_completedEvent (f : Effect) (s : WorkflowRuntimeState) :
    (f.apply s).completedEvent = s.completedEvent.or (f.event.bind HistoryEvent.getExecutionCompleted) := by
  cases h : f.event <;> simp [Effect.apply, h]

/-- A workflow is completed after a round if it was before or if the action is a completion. -/
theorem isSome_completedEvent_apply (h : a.effect env receivedHistory i resolved s action = .ok f) :
    (f.apply s).completedEvent.isSome =
      (s.completedEvent.isSome || action.completionStatus.isSome) := by
  rw [apply_completedEvent, Option.isSome_or]
  rcases effect_event_completed h with hs | he
  · simp [hs]
  · rw [he]

end Action

/-! ### The loop of `Actions` -/

section Actions

variable {a : Applier} {env : ApplyEnv} {receivedHistory : Option PropagatedHistory}
  {customStatus : Option String} {resolved : DedupSet}

theorem foldl_addEvent_pendingMessages (events : List HistoryEvent) (s : WorkflowRuntimeState) :
    (events.foldl WorkflowRuntimeState.addEvent s).pendingMessages = s.pendingMessages := by
  induction events generalizing s with
  | nil => rfl
  | cons e events ih => rw [List.foldl_cons, ih, WorkflowRuntimeState.addEvent_pendingMessages]

theorem continueAsNewState_pendingMessages (i : Nat) (router : TaskRouter)
    (c : CompleteWorkflowAction) (s : WorkflowRuntimeState) (startEvent : ExecutionStartedEvent) :
    (continueAsNewState env i router customStatus c s startEvent).pendingMessages = [] := by
  simp [continueAsNewState, foldl_addEvent_pendingMessages, WorkflowRuntimeState.new]

@[simp] theorem addOutgoing_continuedAsNew (result : ActionsResult) (id : ActionID)
    (outgoing : Option PropagatedHistory) :
    (ActionsResult.addOutgoing result id outgoing).continuedAsNew = result.continuedAsNew := by
  cases outgoing <;> rfl

/-- Either a continue-as-new completion is applied, and the outbox is empty, or every decoupled
message is appended to it. -/
theorem applyActions_spec {i : Nat} {actions : List WorkflowAction} {result result' : ActionsResult}
    {s s' : WorkflowRuntimeState}
    (h : a.applyActions env receivedHistory customStatus resolved i actions result s =
      .ok (result', s')) :
    if appliesContinueAsNew s.completedEvent.isSome actions then
      result'.continuedAsNew = true ∧ s'.pendingMessages = []
    else
      result'.continuedAsNew = result.continuedAsNew ∧
        s'.decoupled = s.decoupled ++ a.decoupledMessages env i actions := by
  induction actions generalizing i result s with
  | nil =>
    cases h
    simp [appliesContinueAsNew, decoupledMessages]
  | cons action actions ih =>
    unfold applyActions at h
    split at h
    · next c hs hc =>
      split at h
      · cases h
      · cases h
        simp [appliesContinueAsNew, hs, hc, continueAsNewResult, continueAsNewState_pendingMessages]
    · next hnot =>
      obtain ⟨f, hf, h⟩ := Except.bind_eq_ok.mp h
      have hrest := ih h
      have hcan : (!s.completedEvent.isSome && (continueAsNewAction action).isSome) = false := by
        cases hs : s.completedEvent with
        | some _ => rfl
        | none =>
          cases hc : continueAsNewAction action with
          | none => rfl
          | some c => exact absurd hc (hnot c hs)
      simp only [appliesContinueAsNew, hcan, Bool.false_or, decoupledMessages]
      rw [isSome_completedEvent_apply hf] at hrest
      simpa [effect_decoupled hf] using hrest

/-- `applyActions_spec` for a whole call of `Actions`. -/
theorem actions_spec {actions : List WorkflowAction} {result : ActionsResult}
    {s s' : WorkflowRuntimeState}
    (h : a.actions env receivedHistory s customStatus actions = .ok (result, s')) :
    (appliesContinueAsNew s.completedEvent.isSome actions = true ∧
      result.continuedAsNew = true ∧ s'.pendingMessages = []) ∨
    (¬appliesContinueAsNew s.completedEvent.isSome actions = true ∧
      result.continuedAsNew = false ∧
        s'.decoupled = s.decoupled ++ a.decoupledMessages env 0 actions) :=
  ite_prop_iff_or.mp (applyActions_spec h)

theorem appliesContinueAsNew_true (actions : List WorkflowAction) :
    appliesContinueAsNew true actions = false := by
  induction actions with
  | nil => rfl
  | cons action actions ih => simp [appliesContinueAsNew, ih]

theorem appliesContinueAsNew_beforeContinueAsNew (completed : Bool) (actions : List WorkflowAction) :
    appliesContinueAsNew completed (beforeContinueAsNew actions) = false := by
  induction actions generalizing completed with
  | nil => rfl
  | cons action actions ih =>
    unfold beforeContinueAsNew at ih ⊢
    rw [List.takeWhile_cons]
    split
    · next h => simp [appliesContinueAsNew, ih, Option.isNone_iff_eq_none.mp h]
    · rfl

/-- The continue-as-new completion of a list is applied unless the workflow is completed when the
loop comes to it. -/
theorem appliesContinueAsNew_iff (completed : Bool) {actions : List WorkflowAction}
    (h : ∃ action ∈ actions, (continueAsNewAction action).isSome) :
    appliesContinueAsNew completed actions = true ↔
      completed = false ∧
        ∀ action ∈ beforeContinueAsNew actions, action.completionStatus = none := by
  induction actions generalizing completed with
  | nil => simp at h
  | cons action actions ih =>
    cases hc : continueAsNewAction action with
    | some c =>
      cases completed <;>
        simp [appliesContinueAsNew, appliesContinueAsNew_true, beforeContinueAsNew, hc]
    | none =>
      have hrest : ∃ action ∈ actions, (continueAsNewAction action).isSome := by
        simpa [hc] using h
      simp only [appliesContinueAsNew, hc, Option.isSome_none, Bool.and_false, Bool.false_or]
      rw [ih _ hrest]
      cases completed <;> simp [beforeContinueAsNew, hc]

theorem decoupledMessages_append (i : Nat) (xs ys : List WorkflowAction) :
    a.decoupledMessages env i (xs ++ ys) =
      a.decoupledMessages env i xs ++ a.decoupledMessages env (i + xs.length) ys := by
  induction xs generalizing i with
  | nil => rfl
  | cons x xs ih =>
    simp [decoupledMessages, ih, Nat.add_assoc, Nat.add_comm 1 xs.length]

theorem decoupledMessages_eq_nil_iff (i : Nat) (actions : List WorkflowAction) :
    a.decoupledMessages env i actions = [] ↔ ∀ action ∈ actions, action.isDecoupled = false := by
  induction actions generalizing i with
  | nil => simp [decoupledMessages]
  | cons action actions ih =>
    simp only [decoupledMessages, List.append_eq_nil_iff, ih, List.mem_cons, forall_eq_or_imp]
    refine and_congr_left fun _ => ?_
    rcases action with ⟨id, body, router⟩
    cases body <;> simp [decoupledMessage, WorkflowAction.isDecoupled]

/-- The decoupled messages before the first continue-as-new completion are those of a part of the
list. -/
theorem decoupledMessages_beforeContinueAsNew_sublist (actions : List WorkflowAction) :
    (a.decoupledMessages env 0 (beforeContinueAsNew actions)).Sublist
      (a.decoupledMessages env 0 actions) := by
  have happ : beforeContinueAsNew actions ++
      actions.dropWhile (fun action => (continueAsNewAction action).isNone) = actions :=
    List.takeWhile_append_dropWhile
  rw [← happ, decoupledMessages_append]
  rw [happ]
  exact List.sublist_append_left ..

/-- When the outbox of `Actions` keeps what the actions before a continue-as-new completion sent. -/
theorem actions_outbox_iff {actions : List WorkflowAction} {result : ActionsResult}
    {s s' : WorkflowRuntimeState}
    (h : a.actions env receivedHistory s customStatus actions = .ok (result, s'))
    (hcan : ∃ action ∈ actions, (continueAsNewAction action).isSome) :
    (a.decoupledMessages env 0 (beforeContinueAsNew actions)).Sublist s'.pendingMessages ↔
      s.completedEvent.isSome = true ∨
      (∃ action ∈ beforeContinueAsNew actions, action.completionStatus.isSome) ∨
      ∀ action ∈ beforeContinueAsNew actions, action.isDecoupled = false := by
  have hiff := appliesContinueAsNew_iff s.completedEvent.isSome hcan
  rcases actions_spec h with ⟨happ, -, hout⟩ | ⟨happ, -, hout⟩
  · obtain ⟨hs, hno⟩ := hiff.mp happ
    rw [hout, List.sublist_nil, decoupledMessages_eq_nil_iff]
    constructor
    · exact fun hd => Or.inr (Or.inr hd)
    · rintro (hs' | ⟨action, hmem, hc⟩ | hd)
      · rw [hs] at hs'; cases hs'
      · rw [hno action hmem] at hc; cases hc
      · exact hd
  · have hkept : (a.decoupledMessages env 0 actions).Sublist s'.decoupled := by
      rw [hout]
      exact List.sublist_append_right ..
    refine iff_of_true ?_ ?_
    · exact ((decoupledMessages_beforeContinueAsNew_sublist actions).trans hkept).trans
        List.filter_sublist
    · by_contra hnot
      simp only [not_or, not_exists, not_and, Bool.not_eq_true, Option.isSome_eq_false_iff,
        Option.isNone_iff_eq_none] at hnot
      exact happ (hiff.mpr ⟨by simp [hnot.1], hnot.2.1⟩)

end Actions

/-! ### The continue-as-new loop of `ProcessWorkItem` -/

section Loop

variable {w : WorkflowProcessor} {env : ProcessEnv} {instanceID : InstanceID}
  {terminateEvent : Option ExecutionTerminatedEvent}

/-- What the decoupled actions of a generation send. -/
def Generation.messages (a : Applier) (g : Generation) : List WorkflowRuntimeStateMessage :=
  a.decoupledMessages g.env 0 g.actions

/-- What the decoupled actions of a generation send before its continue-as-new completion. -/
def Generation.messagesBefore (a : Applier) (g : Generation) : List WorkflowRuntimeStateMessage :=
  a.decoupledMessages g.env 0 (beforeContinueAsNew g.actions)

/-- A round that continues as new empties the outbox; one that does not appends to it. With a
terminate event in the batch no round continues as new. -/
theorem runGeneration_spec {k : Nat} {s s' : WorkflowRuntimeState}
    {incomingHistory : Option PropagatedHistory} {g : Generation} {result : ActionsResult}
    (h : w.runGeneration env instanceID terminateEvent k s incomingHistory = .ok (g, result, s')) :
    (result.continuedAsNew = true ∧ terminateEvent = none ∧ s'.pendingMessages = []) ∨
    (result.continuedAsNew = false ∧ s'.decoupled = s.decoupled ++ g.messages w.applier) := by
  unfold WorkflowProcessor.runGeneration at h
  obtain ⟨results, hexec, h⟩ := Except.bind_eq_ok.mp h
  obtain ⟨⟨r, s₁⟩, happly, h⟩ := Except.bind_eq_ok.mp h
  cases h
  have hbefore : (s.recordVersion results.version).decoupled = s.decoupled := by
    unfold WorkflowRuntimeState.recordVersion
    split
    · rfl
    · split <;> rfl
  rcases actions_spec (Except.mapError_eq_ok.mp happly) with ⟨happ, hcan, hout⟩ | ⟨-, hcan, hout⟩
  · refine Or.inl ⟨hcan, ?_, hout⟩
    by_contra hte
    obtain ⟨et, rfl⟩ := Option.ne_none_iff_exists'.mp hte
    simp [appliesContinueAsNew_beforeContinueAsNew] at happ
  · rw [hbefore] at hout
    exact Or.inr ⟨hcan, hout⟩

/-- Over the whole loop: if some round continued as new, only the last round's messages are left. -/
theorem continueAsNewLoop_spec {remaining : Nat} {s : WorkflowRuntimeState}
    {incomingHistory : Option PropagatedHistory} {continued : List Generation} {r : LoopResult}
    (h : w.continueAsNewLoop env instanceID terminateEvent remaining s incomingHistory continued =
      .ok r) :
    (r.continued = continued ∧ r.state.decoupled = s.decoupled ++ r.last.messages w.applier) ∨
    (terminateEvent = none ∧ r.state.decoupled = r.last.messages w.applier) := by
  induction remaining generalizing s incomingHistory continued with
  | zero =>
    unfold WorkflowProcessor.continueAsNewLoop at h
    obtain ⟨⟨g, result, s'⟩, hgen, h⟩ := Except.bind_eq_ok.mp h
    rcases runGeneration_spec hgen with ⟨hcan, -, -⟩ | ⟨hcan, hs⟩
    · simp [hcan] at h
    · simp only [hcan] at h
      cases h
      exact Or.inl ⟨rfl, hs⟩
  | succ remaining ih =>
    unfold WorkflowProcessor.continueAsNewLoop at h
    obtain ⟨⟨g, result, s'⟩, hgen, h⟩ := Except.bind_eq_ok.mp h
    rcases runGeneration_spec hgen with ⟨hcan, hte, hs⟩ | ⟨hcan, hs⟩
    · simp only [hcan] at h
      refine Or.inr ⟨hte, ?_⟩
      rcases ih h with ⟨-, hr⟩ | ⟨-, hr⟩
      · simpa [WorkflowRuntimeState.decoupled, hs] using hr
      · exact hr
    · simp only [hcan] at h
      cases h
      exact Or.inl ⟨rfl, hs⟩

theorem decoupledMessages_filter (a : Applier) (e : ApplyEnv) (i : Nat)
    (actions : List WorkflowAction) :
    (a.decoupledMessages e i actions).filter WorkflowRuntimeStateMessage.isDecoupled =
      a.decoupledMessages e i actions := by
  induction actions generalizing i with
  | nil => rfl
  | cons action actions ih =>
    rw [decoupledMessages, List.filter_append, ih]
    rcases action with ⟨id, body, router⟩
    cases body <;> rfl

/-- If some round continued as new, the outbox holds the messages of all rounds only if the earlier
ones sent none. -/
theorem loop_outbox_iff {r : LoopResult}
    (h : r.state.decoupled = r.last.messages w.applier) :
    (r.continued.flatMap (Generation.messagesBefore w.applier) ++ r.last.messages w.applier).Sublist
        r.state.pendingMessages ↔
      ∀ g ∈ r.continued, ∀ action ∈ beforeContinueAsNew g.actions, action.isDecoupled = false := by
  have hnil : r.continued.flatMap (Generation.messagesBefore w.applier) = [] ↔
      ∀ g ∈ r.continued, ∀ action ∈ beforeContinueAsNew g.actions, action.isDecoupled = false := by
    rw [List.flatMap_eq_nil_iff]
    exact forall₂_congr fun g _ => decoupledMessages_eq_nil_iff 0 _
  rw [← hnil]
  constructor
  · -- Counting the decoupled messages leaves no room for those of the earlier rounds.
    intro hsub
    have hlen := (hsub.filter WorkflowRuntimeStateMessage.isDecoupled).length_le
    have hall : (r.continued.flatMap (Generation.messagesBefore w.applier)).filter
        WorkflowRuntimeStateMessage.isDecoupled =
          r.continued.flatMap (Generation.messagesBefore w.applier) := by
      rw [List.filter_flatMap]
      congr 1
      funext g
      exact decoupledMessages_filter ..
    rw [List.filter_append, hall, Generation.messages, decoupledMessages_filter] at hlen
    change _ ≤ r.state.decoupled.length at hlen
    rw [h, Generation.messages, List.length_append] at hlen
    exact List.length_eq_zero_iff.mp (by omega)
  · intro hnone
    rw [hnone, List.nil_append, ← h]
    exact List.filter_sublist

/-- `ProcessWorkItem` ends with the outbox of its loop if some round continued as new. -/
theorem processWorkItem_loop {wi wi' : WorkflowWorkItem} {s : WorkflowRuntimeState}
    (hs : WorkflowProcessor.applyWorkItem env wi = some s)
    (h : w.processWorkItem env wi = .ok wi') :
    ∃ r, w.continueAsNewLoop env wi.instanceID
        (wi.newEvents.findSome? HistoryEvent.getExecutionTerminated) maxContinueAsNewCount s
        wi.incomingHistory [] = .ok r ∧
      (r.continued ≠ [] →
        wi'.state = r.state ∧ r.state.decoupled = r.last.messages w.applier) := by
  simp only [WorkflowProcessor.processWorkItem, hs] at h
  obtain ⟨r, hr, h⟩ := Except.bind_eq_ok.mp h
  refine ⟨r, hr, fun hne => ?_⟩
  rcases continueAsNewLoop_spec hr with ⟨hnil, -⟩ | ⟨hte, hout⟩
  · exact absurd hnil hne
  · simp only [hte, WorkflowProcessor.enforceTermination, cascadeTermination] at h
    cases h
    exact ⟨rfl, hout⟩

end Loop

/-- `Actions` keeps the decoupled messages sent before a continue-as-new completion exactly if the
completion is not applied or there are none, and `ProcessWorkItem` keeps those of all generations of
a work item exactly if no generation that continued as new sent any. -/
theorem outbox_kept_iff (a : Applier) (w : WorkflowProcessor) :
    (∀ (env : ApplyEnv) (receivedHistory : Option PropagatedHistory)
        (s s' : WorkflowRuntimeState) (customStatus : Option String) (actions : List WorkflowAction)
        (result : ActionsResult),
      a.actions env receivedHistory s customStatus actions = .ok (result, s') →
      (∃ action ∈ actions, (continueAsNewAction action).isSome) →
      ((a.decoupledMessages env 0 (beforeContinueAsNew actions)).Sublist s'.pendingMessages ↔
        s.completedEvent.isSome = true ∨
        (∃ action ∈ beforeContinueAsNew actions, action.completionStatus.isSome) ∨
        ∀ action ∈ beforeContinueAsNew actions, action.isDecoupled = false)) ∧
    (∀ (env : ProcessEnv) (wi wi' : WorkflowWorkItem) (s : WorkflowRuntimeState),
      WorkflowProcessor.applyWorkItem env wi = some s →
      w.processWorkItem env wi = .ok wi' →
      ∃ r, w.continueAsNewLoop env wi.instanceID
          (wi.newEvents.findSome? HistoryEvent.getExecutionTerminated) maxContinueAsNewCount s
          wi.incomingHistory [] = .ok r ∧
        (r.continued ≠ [] →
          ((r.continued.flatMap (Generation.messagesBefore w.applier) ++
              r.last.messages w.applier).Sublist wi'.state.pendingMessages ↔
            ∀ g ∈ r.continued, ∀ action ∈ beforeContinueAsNew g.actions,
              action.isDecoupled = false))) := by
  refine ⟨fun env receivedHistory s s' customStatus actions result h hcan =>
    actions_outbox_iff h hcan, fun env wi wi' s hs h => ?_⟩
  obtain ⟨r, hr, hout⟩ := processWorkItem_loop hs h
  refine ⟨r, hr, fun hne => ?_⟩
  rw [(hout hne).1]
  exact loop_outbox_iff (hout hne).2

namespace OutboxExample

/-- A workflow that has started. -/
def started : WorkflowRuntimeState :=
  .new "parent" none
    [{ eventType := .workflowStarted none },
     { eventType := .executionStarted
        { name := "wf", workflowInstance := ⟨"parent", some "e1"⟩ } }]

def env : ApplyEnv := { now := fun _ => 0, uuid := fun _ => "e2", childInstanceID := fun i _ _ => i }

def spawn : WorkflowAction :=
  { id := 0, actionType := .createDetachedWorkflow { instanceId := "child", name := "wf" } }

def continueAsNew : WorkflowAction :=
  { id := 1, actionType := .completeWorkflow { workflowStatus := .continuedAsNew } }

/-- Spawning a detached workflow and then continuing as new is accepted and sends nothing, although
the detached workflow's start message was due. -/
theorem detached_start_lost :
    ((⟨"app", ""⟩ : Applier).actions env none started none [spawn, continueAsNew]).map
        (fun r => (r.1.continuedAsNew, r.2.pendingMessages)) = .ok (true, []) ∧
      (⟨"app", ""⟩ : Applier).decoupledMessages env 0 (beforeContinueAsNew [spawn, continueAsNew]) ≠
        [] := by
  decide

def sleep : WorkflowAction := { id := 0, actionType := .createTimer { fireAt := 5 } }

/-- An executor that continues as new once and then spawns a detached workflow. -/
def processor : WorkflowProcessor :=
  { executor := fun k _ _ _ _ => .ok { actions := if k = 0 then [sleep, continueAsNew] else [spawn] }
    applier := ⟨"app", ""⟩ }

def processEnv : ProcessEnv := ⟨0, fun _ => env, env, 0⟩

def workItem : WorkflowWorkItem :=
  { instanceID := "parent", newEvents := [{ eventType := .eventRaised { name := "go" } }]
    state := started }

theorem timer_then_continue_as_new_kept :
    (∃ result s',
      (⟨"app", ""⟩ : Applier).actions env none started none [sleep, continueAsNew] =
        .ok (result, s') ∧
      ((⟨"app", ""⟩ : Applier).decoupledMessages env 0
        (beforeContinueAsNew [sleep, continueAsNew])).Sublist s'.pendingMessages) ∧
    ∃ s wi' r, WorkflowProcessor.applyWorkItem processEnv workItem = some s ∧
      processor.processWorkItem processEnv workItem = .ok wi' ∧
      processor.continueAsNewLoop processEnv "parent" none maxContinueAsNewCount s none [] = .ok r ∧
      r.continued.length = 1 ∧
      (r.continued.flatMap (Generation.messagesBefore processor.applier) ++
        r.last.messages processor.applier).Sublist wi'.state.pendingMessages := by
  refine ⟨?_, ?_⟩
  · have h : (⟨"app", ""⟩ : Applier).actions env none started none [sleep, continueAsNew] =
        .ok (_, _) := rfl
    exact ⟨_, _, h, ((outbox_kept_iff _ processor).1 _ _ _ _ _ _ _ h ⟨continueAsNew, by decide⟩).mpr
      (Or.inr (Or.inr (by decide)))⟩
  · obtain ⟨r, hr, hiff⟩ := (outbox_kept_iff processor.applier processor).2 processEnv workItem _ _ rfl rfl
    have hr' := hr
    cases hr'
    exact ⟨_, _, _, rfl, rfl, hr, rfl, (hiff (by simp)).mpr (by decide)⟩

end OutboxExample

end DurableTask
