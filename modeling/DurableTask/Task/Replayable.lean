import DurableTask.Backend.Produced
import DurableTask.Task.Machine

/-!
# Replaying what the applier produces

`processEvent` refuses three kinds of events as unknown. `Applier.Actions` produces two of them itself:
a completion records `ExecutionCompleted`, and a send-event action records `EventSent` and sends the
same event to its target. A continue-as-new completion may carry over anything.
`actions_closed_iff` says which action lists produce no unknown event.
-/

namespace DurableTask

/-- The events `processEvent` has a handler for. -/
def HistoryEvent.isKnown (e : HistoryEvent) : Bool :=
  match e.eventType with
  | .executionCompleted _ | .eventSent _ | .continueAsNew _ => false
  | _ => true

namespace Task

open Applier

/-- Processing the event in any replay is not an `unknown event` error. -/
def Replayable (e : HistoryEvent) : Prop :=
  ∀ (σ : Type) (sdk : Sdk σ) (m : Machine σ) (position : Nat),
    (Machine.processEvent sdk m (position, e)).control ≠ .raised .unknownEvent

/-- Processing the event in a replay that is neither terminated nor suspended raises the external event
`er`: it completes the oldest pending wait for its name, or is buffered for the next one. -/
def Raises (e : HistoryEvent) (er : EventRaisedEvent) : Prop :=
  ∀ (σ : Type) (sdk : Sdk σ) (m : Machine σ) (position : Nat), m.ctx.core.isTerminated = false →
    m.ctx.core.isSuspended = false → (Machine.processEvent sdk m (position, e)).ctx.core =
      Ctx.onExternalEventRaised sdk.env m.ctx.core e er

theorem resolveWorkflow_known {σ : Type} {r : TaskRegistry σ} {name : String}
    {version : Option String} {err : ProcessError}
    (h : r.resolveWorkflow name version = .error err) : err ≠ .unknownEvent := by
  rintro rfl
  unfold TaskRegistry.resolveWorkflow at h
  repeat' split at h
  all_goals cases h

theorem handle_known {σ : Type} (m : Machine σ) {r : Except ProcessError Ctx}
    (h : r ≠ .error .unknownEvent) : (m.handle r).control ≠ .raised .unknownEvent := by
  cases r with
  | ok c => exact nofun
  | error err =>
    rintro ⟨⟩
    exact h rfl

theorem dispatch_known {σ : Type} (sdk : Sdk σ) (m : Machine σ) {e : HistoryEvent}
    (h : e.isKnown = true) : (Machine.dispatch sdk m e).control ≠ .raised .unknownEvent := by
  rcases e with ⟨id, time, body, router, row⟩
  cases body with
  | executionStarted es =>
    simp only [Machine.dispatch, Machine.onExecutionStarted]
    split
    · next err herr =>
      rintro ⟨⟩
      exact resolveWorkflow_known herr rfl
    · exact nofun
  | taskScheduled ts =>
    refine handle_known m ?_
    unfold Ctx.onTaskScheduled
    split <;> exact nofun
  | childWorkflowInstanceCreated ts =>
    refine handle_known m ?_
    unfold Ctx.onChildWorkflowScheduled
    split <;> exact nofun
  | detachedWorkflowInstanceCreated instanceId =>
    refine handle_known m ?_
    simp only [Ctx.onDetachedWorkflowCreated]
    split
    · exact nofun
    · split <;> exact nofun
  | timerCreated tc =>
    refine handle_known m ?_
    simp only [Ctx.onTimerCreated]
    split <;> exact nofun
  | executionCompleted _ | eventSent _ | continueAsNew _ => cases h
  | _ => exact nofun

/-- An SDK without workflows, in which `Replayable` can be tried. -/
def idleSdk : Sdk Unit :=
  { env :=
      { toUpper := id, unmarshal := fun _ s => .ok s, handle := fun _ _ => true
        nextDelayMs := fun ms _ _ => ms, float64 := fun n => n
        childInstanceID := fun parent _ _ => parent, uuid := fun _ => "" }
    registry := { workflows := [] }, next := fun _ => .ret (.ok .nil) }

theorem replayable_iff {e : HistoryEvent} : Replayable e ↔ e.isKnown = true := by
  constructor
  · intro h
    have h := h Unit idleSdk (Machine.init "" [] []) 0
    rcases e with ⟨id, time, body, router, row⟩
    cases body with
    | executionCompleted _ | eventSent _ | continueAsNew _ => exact absurd rfl h
    | _ => rfl
  · intro h σ sdk m position
    unfold Machine.processEvent
    split
    · exact nofun
    · split
      · exact nofun
      · exact dispatch_known sdk _ h

/-! ### The rounds of `Actions` -/

/-- The actions whose round adds no unknown event. -/
def replayableAction (completed : Bool) (action : WorkflowAction) : Bool :=
  match action.actionType with
  | .sendEvent _ => false
  | .completeWorkflow _ => completed
  | _ => true

/-- The actions whose round sends no unknown event. -/
def replayableMessage (action : WorkflowAction) : Bool :=
  match action.actionType with
  | .sendEvent _ => false
  | _ => true

section Round

variable {a : Applier} {env : ApplyEnv} {receivedHistory : Option PropagatedHistory}
  {resolved : DedupSet} {s : WorkflowRuntimeState} {i : Nat} {action : WorkflowAction} {f : Effect}

theorem completionMessage_known {router : TaskRouter} {c : CompleteWorkflowAction}
    {m : WorkflowRuntimeStateMessage} (h : m ∈ completionMessage env i router s c) :
    m.historyEvent.isKnown = true := by
  obtain ⟨p, -, rfl⟩ := Option.map_eq_some_iff.mp h
  by_cases hc : c.workflowStatus = .completed <;> simp [HistoryEvent.isKnown, childResult, hc]

theorem effect_known (h : a.effect env receivedHistory i resolved s action = .ok f) :
    (((∀ e ∈ f.event, e.isKnown = true) ∧ ∀ m ∈ f.message, m.historyEvent.isKnown = true) ↔
      replayableAction s.completedEvent.isSome action = true) ∧
    ((∀ m ∈ f.message, m.historyEvent.isKnown = true) ↔ replayableMessage action = true) := by
  rcases action with ⟨id, body, router⟩
  cases body with
  | completeWorkflow c =>
    cases h
    simp only [completeWorkflow, replayableAction, replayableMessage, iff_true]
    split
    · next hs => simp [hs]
    · next hs =>
      refine ⟨⟨fun h => ?_, fun h => absurd h hs⟩, fun m hm => completionMessage_known hm⟩
      exact absurd (h.1 _ rfl) nofun
  | createTimer t =>
    cases h
    simp [createTimer, recorded, HistoryEvent.isKnown, replayableAction, replayableMessage]
  | scheduleTask t =>
    cases h
    unfold scheduleTask
    dsimp only
    split <;> simp [recorded, HistoryEvent.isKnown, replayableAction, replayableMessage]
  | createChildWorkflow c =>
    simp only [effect, createChildWorkflow] at h
    split at h
    · cases h
      simp [recorded, HistoryEvent.isKnown, replayableAction, replayableMessage]
    · split at h <;> cases h
      simp [recorded, HistoryEvent.isKnown, replayableAction, replayableMessage]
  | createDetachedWorkflow c =>
    simp only [effect, createDetachedWorkflow] at h
    split at h <;> cases h
    simp [recorded, detachedMessage, HistoryEvent.isKnown, replayableAction, replayableMessage]
  | sendEvent e =>
    cases h
    simp [eventSent, eventSentMessage, recorded, HistoryEvent.isKnown, replayableAction,
      replayableMessage]
  | terminateWorkflow t =>
    cases h
    simp [terminateMessage, HistoryEvent.isKnown, replayableAction, replayableMessage]
  | workflowVersionNotAvailable =>
    cases h
    simp [versionNotAvailableMessage, HistoryEvent.isKnown, replayableAction, replayableMessage]
  | unset => cases h

end Round

/-! ### Carried-over events -/

theorem newEvents_addEvent (s : WorkflowRuntimeState) (e : HistoryEvent) :
    (s.addEvent e).newEvents = s.newEvents ∨ (s.addEvent e).newEvents = s.newEvents ++ [e] := by
  unfold WorkflowRuntimeState.addEvent
  rcases WorkflowRuntimeState.addOrDrop_cases true (s, none) e with ⟨-, hdrop⟩ | ⟨q, hq, hadd⟩
  · exact .inl (by rw [hdrop])
  · exact .inr (by rw [hadd, WorkflowRuntimeState.noteEvent_eq hq]; rfl)

theorem subset_newEvents_foldl (es : List HistoryEvent) (s : WorkflowRuntimeState) :
    s.newEvents ⊆ (es.foldl WorkflowRuntimeState.addEvent s).newEvents := by
  induction es generalizing s with
  | nil => exact List.Subset.refl _
  | cons e es ih =>
    refine List.Subset.trans ?_ (ih (s.addEvent e))
    rcases newEvents_addEvent s e with h | h <;> rw [h]
    · exact List.Subset.refl _
    · exact List.subset_append_left _ _

theorem isSome_completedEvent_foldl (es : List HistoryEvent) (s : WorkflowRuntimeState) :
    (es.foldl WorkflowRuntimeState.addEvent s).completedEvent.isSome =
      (s.completedEvent.isSome || es.any fun e => e.getExecutionCompleted.isSome) := by
  induction es generalizing s with
  | nil => simp
  | cons e es ih =>
    rw [List.foldl_cons, ih, s.addEvent_completedEvent, Option.isSome_or, List.any_cons,
      Bool.or_assoc]

/-- Only the first completion could be rejected, and an event that is rejected is known. -/
theorem known_foldl_addEvent (es : List HistoryEvent) {s : WorkflowRuntimeState}
    (hs : s.completedEvent = none) (hknown : ∀ e ∈ s.newEvents, e.isKnown = true) :
    (∀ e ∈ (es.foldl WorkflowRuntimeState.addEvent s).newEvents, e.isKnown = true) ↔
      es.all HistoryEvent.isKnown = true := by
  induction es generalizing s with
  | nil => simpa using hknown
  | cons e es ih =>
    rw [List.foldl_cons, List.all_cons, Bool.and_eq_true]
    cases he : e.isKnown with
    | true =>
      have hcompleted : (s.addEvent e).completedEvent = none := by
        rw [s.addEvent_completedEvent, hs]
        rcases e with ⟨id, time, body, router, row⟩
        cases body <;> first | rfl | cases he
      rw [ih hcompleted fun x hx => ?_]
      · simp
      · rcases newEvents_addEvent s e with h | h <;> rw [h] at hx
        · exact hknown x hx
        · rcases List.mem_append.mp hx with hx | hx
          · exact hknown x hx
          · exact List.mem_singleton.mp hx ▸ he
    | false =>
      have hadded : (s.addEvent e).newEvents = s.newEvents ++ [e] := by
        refine (s.addEvent_events ?_ ?_ (.inl hs)).1 <;>
          (rcases e with ⟨id, time, body, router, row⟩; cases body <;> first | rfl | cases he)
      refine iff_of_false (fun h => ?_) (by simp)
      have := h e (subset_newEvents_foldl es _ (by simp [hadded]))
      rw [he] at this
      cases this

/-- The events of a fresh generation are known if the carried-over ones are. -/
theorem continueAsNewState_known (env : ApplyEnv) (i : Nat) (router : TaskRouter)
    (customStatus : Option String) (c : CompleteWorkflowAction) (s : WorkflowRuntimeState)
    (startEvent : ExecutionStartedEvent) :
    ((∀ e ∈ (continueAsNewState env i router customStatus c s startEvent).newEvents,
      e.isKnown = true) ↔ c.carryoverEvents.all HistoryEvent.isKnown = true) ∧
    (continueAsNewState env i router customStatus c s startEvent).isCompleted =
      c.carryoverEvents.any fun e => e.getExecutionCompleted.isSome := by
  constructor
  · refine known_foldl_addEvent _ rfl fun e he => ?_
    rcases List.mem_cons.mp he with rfl | he
    · rfl
    · rw [List.mem_singleton.mp he]
      rfl
  · exact (isSome_completedEvent_foldl _ _).trans (Bool.false_or _)

/-! ### What `Actions` produces -/

/-- What a workflow adds to its history and sends can be replayed, and a sent event is raised by its
target. `executed` tells whether the history is replayed again. -/
structure Closed (executed : Bool) (appended : List HistoryEvent)
    (sent : List WorkflowRuntimeStateMessage) : Prop where
  history : executed = true → ∀ e ∈ appended, Replayable e
  messages : ∀ m ∈ sent, Replayable m.historyEvent
  events : ∀ m ∈ sent, ∀ es : EventSentEvent, m.historyEvent.eventType = .eventSent es →
    Raises m.historyEvent { name := es.name, input := es.input }

/-- A sent event is unknown, so nothing is left to ask about it. -/
theorem closed_iff {executed : Bool} {appended : List HistoryEvent}
    {sent : List WorkflowRuntimeStateMessage} :
    Closed executed appended sent ↔ (executed = true → ∀ e ∈ appended, e.isKnown = true) ∧
      ∀ m ∈ sent, m.historyEvent.isKnown = true := by
  simp only [← replayable_iff]
  refine ⟨fun h => ⟨h.history, h.messages⟩, fun h => ⟨h.1, h.2, fun m hm es hes => ?_⟩⟩
  have := replayable_iff.mp (h.2 m hm)
  simp [HistoryEvent.isKnown, hes] at this

/-- The action lists that add no unknown event. -/
def replayableActions (completed : Bool) (actions : List WorkflowAction) : Bool :=
  match appliedContinueAsNew completed actions with
  | some c => c.carryoverEvents.all HistoryEvent.isKnown
  | none => everyRound replayableAction completed actions

/-- The action lists that add no unknown event to a history that is replayed again: a completed
workflow's is not. -/
def executableActions (completed : Bool) (actions : List WorkflowAction) : Bool :=
  match appliedContinueAsNew completed actions with
  | some c => c.carryoverEvents.all HistoryEvent.isKnown ||
      c.carryoverEvents.any fun e => e.getExecutionCompleted.isSome
  | none => actions.all replayableMessage

/-- A workflow that is not completed took no completion. -/
theorem replayable_of_incomplete {completed : Bool} {actions : List WorkflowAction}
    (h : ∀ action ∈ actions, action.completionStatus = none)
    (hsend : actions.all replayableMessage = true) :
    everyRound replayableAction completed actions = true := by
  induction actions generalizing completed with
  | nil => rfl
  | cons action actions ih =>
    rw [List.all_cons, Bool.and_eq_true] at hsend
    rw [everyRound, Bool.and_eq_true]
    refine ⟨?_, ih (fun b hb => h b (List.mem_cons_of_mem _ hb)) hsend.2⟩
    have hnone := h action List.mem_cons_self
    have hmsg := hsend.1
    unfold replayableMessage at hmsg
    unfold WorkflowAction.completionStatus at hnone
    unfold replayableAction
    split
    · next heq => simp [heq] at hmsg
    · next heq => simp [heq] at hnone
    · rfl

section Call

variable {a : Applier} {env : ApplyEnv} {receivedHistory : Option PropagatedHistory}
  {customStatus : Option String} {actions : List WorkflowAction} {result : ActionsResult}
  {s s' : WorkflowRuntimeState}

/-- What an accepted action list produces can be replayed exactly if nothing is sent with
`SendEvent`, no completion is recorded and, with a continue-as-new completion, only known events are
carried over; where the history of a completed workflow does not count, exactly if nothing is sent
with `SendEvent` and what is carried over is known. -/
theorem actions_closed_iff
    (h : a.actions env receivedHistory s customStatus actions = .ok (result, s')) :
    (Closed true (result.appended s s') (result.sent s s') ↔
      replayableActions s.isCompleted actions = true) ∧
    (Closed (!s'.isCompleted) (result.appended s s') (result.sent s s') ↔
      executableActions s.isCompleted actions = true) := by
  unfold replayableActions executableActions
  rw [closed_iff, closed_iff]
  cases hcan : appliedContinueAsNew s.isCompleted actions with
  | some c =>
    obtain ⟨-, hsent, happended, i, router, s₁, startEvent, rfl⟩ := actions_continued hcan h
    obtain ⟨hknown, hcompleted⟩ :=
      continueAsNewState_known env i router customStatus c s₁ startEvent
    rw [hsent, happended, hcompleted, hknown]
    simp [Bool.or_eq_true, Classical.or_iff_not_imp_right]
  | none =>
    obtain ⟨hcontinued, hall⟩ := actions_rounds (fun _ hf => (effect_known hf).1) hcan h
    obtain ⟨-, hsent⟩ := actions_rounds (E := fun _ => True) (M := fun m => m.historyEvent.isKnown = true)
      (Q := fun _ => replayableMessage) (fun _ hf => by simpa using (effect_known hf).2) hcan h
    rw [everyRound_const] at hsent
    refine ⟨⟨fun hc => hall.mp ⟨hc.1 rfl, hc.2⟩, fun hc => ?_⟩,
      fun hc => hsent.mp ⟨fun _ _ => trivial, hc.2⟩, fun hc => ⟨fun hexecuted => ?_, ?_⟩⟩
    · exact ⟨fun _ => (hall.mpr hc).1, (hall.mpr hc).2⟩
    · obtain ⟨added, happlied⟩ := actions_applied h hcontinued
      refine (hall.mpr (replayable_of_incomplete (fun action hmem => ?_) hc)).1
      by_contra hsome
      have := happlied.completed ⟨action, hmem, Option.isSome_iff_ne_none.mpr hsome⟩
      simp [WorkflowRuntimeState.isCompleted, this] at hexecuted
    · exact (hsent.mpr hc).2

end Call

namespace ReplayableExample

/-- Wait for an approval and return; an error of the wait is a failure of the workflow. -/
inductive Flow
  | begin
  | waiting (approval : TaskRef)
  | approved
  | failed

def next : Flow → Step Flow
  | .begin => .call (.waitForSingleEvent "approval" (-1)) fun
    | .task t => .waiting t
    | _ => .failed
  | .waiting t => .call (.await t none) fun
    | .awaited (.ok _) => .approved
    | _ => .failed
  | .approved => .ret (.ok .nil)
  | .failed => .ret (.error ⟨"error", "not approved"⟩)

def sdk : Sdk Flow :=
  { env := idleSdk.env, registry := { workflows := [("wf", .begin)] }, next := next }

def applier : Applier := { appID := "app", appNamespace := "" }

def env : ApplyEnv :=
  { now := fun _ => 0, uuid := fun _ => "e2", childInstanceID := fun i _ _ => i ++ ":g:0" }

/-- The history of a workflow that has just started. -/
def history (id : InstanceID) : List HistoryEvent :=
  [{ eventType := .workflowStarted none },
   { eventType := .executionStarted { name := "wf", workflowInstance := ⟨id, some "e1"⟩ } }]

def sender : WorkflowRuntimeState := WorkflowRuntimeState.new "sender" none (history "sender")

def approve : WorkflowAction :=
  { id := 0, actionType := .sendEvent { instanceId := "target", name := "approval", data := "yes" } }

/-- The same approval as a client raises it. -/
def raised : HistoryEvent := { eventType := .eventRaised { name := "approval", input := "yes" } }

/-- The events a sender's actions deliver to the target. -/
def delivered (actions : List WorkflowAction) : List HistoryEvent :=
  match applier.actions env none sender none actions with
  | .ok (_, s) => (s.pendingMessages.filter (·.targetInstanceId = "target")).map (·.historyEvent)
  | .error _ => []

def target (events : List HistoryEvent) : Machine Flow :=
  (Machine.init "target" (history "target") events).run sdk 20

/-- A sent approval is delivered to the workflow that waits for it. Replaying it is an unknown event
there, which fails the workflow and neither completes its wait nor is buffered; the same approval
raised by a client is taken. The sender cannot be replayed either. -/
theorem approval_unknown :
    (delivered [approve]).length = 1 ∧
      (target (delivered [approve])).errors = [.unknownEvent] ∧
      (target (delivered [approve])).ctx.core.tasks.any (·.isCompleted) = false ∧
      (target (delivered [approve])).ctx.core.bufferedExternalEvents = [] ∧
      (target (delivered [approve])).ctx.actions.filterMap (·.completionStatus) = [.failed] ∧
      (target [raised]).errors = [] ∧
      (target [raised]).ctx.actions.filterMap (·.completionStatus) = [.completed] ∧
      ∃ result s, applier.actions env none sender none [approve] = .ok (result, s) ∧
        ¬Closed true (result.appended sender s) (result.sent sender s) ∧
        ¬Closed (!s.isCompleted) (result.appended sender s) (result.sent sender s) := by
  refine ⟨by decide, by decide, by decide, by decide, by decide, by decide, by decide, _, _, rfl,
    ?_, ?_⟩
  · rw [closed_iff]
    decide
  · rw [closed_iff]
    decide

def work : List WorkflowAction :=
  [{ id := 0, actionType := .scheduleTask { name := "act", taskExecutionId := "t" } },
   { id := 1, actionType := .createTimer { fireAt := 5 } },
   { id := 2, actionType := .createChildWorkflow { name := "child", instanceId := "" } },
   { id := 3, actionType := .terminateWorkflow { instanceId := "target" } }]

theorem work_closed :
    ∃ result s, applier.actions env none sender none work = .ok (result, s) ∧
      (result.appended sender s).length = 3 ∧ (result.sent sender s).length = 2 ∧
      Closed true (result.appended sender s) (result.sent sender s) := by
  have hclosed {result s} (h : applier.actions env none sender none work = .ok (result, s)) :
      Closed true (result.appended sender s) (result.sent sender s) :=
    (actions_closed_iff h).1.mpr (by decide)
  exact ⟨_, _, rfl, by decide, by decide, hclosed rfl⟩

end ReplayableExample

end Task

end DurableTask
