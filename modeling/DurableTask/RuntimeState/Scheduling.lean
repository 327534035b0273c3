import DurableTask.RuntimeState.Applier
import DurableTask.RuntimeState.Load

/-!
# What `Applier.Actions` records

The scheduling event of each action, the work that is dispatched, and that a completion among the
actions ends the execution.
-/

namespace DurableTask

/-- The action id a scheduling event records. -/
def HistoryEvent.schedulingID (e : HistoryEvent) : Option ActionID :=
  match e.eventType with
  | .taskScheduled _ | .timerCreated _ | .childWorkflowInstanceCreated _
  | .detachedWorkflowInstanceCreated _ => some e.eventId
  | _ => none

/-- The kind of resolution an action waits for. -/
def WorkflowActionType.kind : WorkflowActionType → Option Kind
  | .scheduleTask _ => some .task
  | .createTimer _ => some .timer
  | .createChildWorkflow _ => some .child
  | _ => none

/-- Whether an event is the scheduling event of such an action. -/
def WorkflowActionType.recordedBy (a : WorkflowActionType) (e : EventType) : Bool :=
  match a, e with
  | .scheduleTask _, .taskScheduled _ => true
  | .createTimer t, .timerCreated tc => decide (tc.fireAt = t.fireAt) && decide (tc.origin = t.origin)
  | .createChildWorkflow _, .childWorkflowInstanceCreated _ => true
  | .createDetachedWorkflow c, .detachedWorkflowInstanceCreated instanceId =>
    decide (instanceId = c.instanceId)
  | _, _ => false

/-- Actions that have a scheduling event. -/
def WorkflowActionType.isScheduling : WorkflowActionType → Bool
  | .scheduleTask _ | .createTimer _ | .createChildWorkflow _ | .createDetachedWorkflow _ => true
  | _ => false

/-- The resolution that answers the start of a child workflow. -/
def WorkflowRuntimeStateMessage.childStart (msg : WorkflowRuntimeStateMessage) :
    Option (Kind × ActionID) :=
  (msg.historyEvent.getExecutionStarted.bind ExecutionStartedEvent.parentInstance).map
    fun parentInstance => (.child, parentInstance.taskScheduledId)

/-- The resolutions of the work in the outbox. -/
def WorkflowRuntimeState.dispatched (s : WorkflowRuntimeState) : List (Kind × ActionID) :=
  s.pendingTasks.map (fun e => (.task, e.eventId)) ++
    s.pendingTimers.filterMap HistoryEvent.resolution ++
    s.pendingMessages.filterMap WorkflowRuntimeStateMessage.childStart

theorem WorkflowRuntimeState.dispatched_of_outbox {s s' : WorkflowRuntimeState}
    (h : s'.outbox = s.outbox) : s'.dispatched = s.dispatched := by
  simp only [outbox, Prod.mk.injEq] at h
  unfold dispatched
  rw [h.2.1, h.2.2.1, h.2.2.2.1]

namespace Applier

def Effect.dispatched (f : Effect) : List (Kind × ActionID) :=
  f.task.toList.map (fun e => (.task, e.eventId)) ++
    f.timer.toList.filterMap HistoryEvent.resolution ++
    f.message.toList.filterMap WorkflowRuntimeStateMessage.childStart

section Round

variable {a : Applier} {env : ApplyEnv} {receivedHistory : Option PropagatedHistory} {i : Nat}
  {resolved : DedupSet} {action : WorkflowAction} {s : WorkflowRuntimeState} {f : Effect}

/-- What one round of the loop records and dispatches. -/
structure Round (action : WorkflowAction) (s : WorkflowRuntimeState) (f : Effect) : Prop where
  event : ∀ e, f.event = some e → e.getExecutionStarted = none ∧ e.resolution = none ∧
    (s.completedEvent = none ∨ e.getExecutionCompleted = none) ∧
    (e.schedulingID = none ∨
      action.actionType.isScheduling = true ∧ e.schedulingID = some action.id)
  scheduled : action.actionType.isScheduling = true → ∃ e, f.event = some e ∧
    e.eventId = action.id ∧ action.actionType.recordedBy e.eventType = true
  completed : action.completionStatus.isSome = true → s.completedEvent.isSome = true ∨
    ∃ e, f.event = some e ∧ e.getExecutionCompleted.isSome = true
  incomplete : action.completionStatus = none → ∀ e, f.event = some e → e.getExecutionCompleted = none
  dispatched : ∀ k ∈ f.dispatched, k.2 = action.id ∧ action.actionType.kind = some k.1

/-- What a scheduling event is not. -/
theorem recordedBy_spec {b : WorkflowActionType} {e : HistoryEvent}
    (h : b.recordedBy e.eventType = true) :
    e.getExecutionStarted = none ∧ e.resolution = none ∧ e.getExecutionCompleted = none ∧
      e.schedulingID = some e.eventId ∧ (⟨0, b, none⟩ : WorkflowAction).completionStatus = none ∧
      b.isScheduling = true := by
  rcases e with ⟨id, ts, body, router, row⟩
  cases b <;> cases body <;> first | exact ⟨rfl, rfl, rfl, rfl, rfl, rfl⟩ | cases h

/-- The round of an action that is scheduled. -/
theorem Round.of_recorded {e : HistoryEvent} (hev : f.event = some e) (hid : e.eventId = action.id)
    (hrec : action.actionType.recordedBy e.eventType = true)
    (hdis : ∀ k ∈ f.dispatched, k.2 = action.id ∧ action.actionType.kind = some k.1) :
    Round action s f := by
  obtain ⟨hs, hr, hc, hsched, hcomp, his⟩ := recordedBy_spec hrec
  have hcomp : action.completionStatus = none := hcomp
  refine ⟨fun e' he' => ?_, fun _ => ⟨e, hev, hid, hrec⟩, fun h => ?_, fun _ e' he' => ?_, hdis⟩
  · rw [hev] at he'
    cases he'
    exact ⟨hs, hr, .inr hc, .inr ⟨his, hid ▸ hsched⟩⟩
  · rw [hcomp] at h
    cases h
  · rw [hev] at he'
    cases he'
    exact hc

/-- The round of an action that is neither scheduled nor a completion. -/
theorem Round.of_other (hsched : action.actionType.isScheduling = false)
    (hcomp : action.completionStatus = none)
    (hev : ∀ e, f.event = some e → e.getExecutionStarted = none ∧ e.resolution = none ∧
      e.getExecutionCompleted = none ∧ e.schedulingID = none)
    (hdis : f.dispatched = []) : Round action s f := by
  refine ⟨fun e he => ?_, fun h => ?_, fun h => ?_, fun _ e he => (hev e he).2.2.1, fun k hk => ?_⟩
  · obtain ⟨hs, hr, hc, hid⟩ := hev e he
    exact ⟨hs, hr, .inr hc, .inl hid⟩
  · rw [hsched] at h
    cases h
  · rw [hcomp] at h
    cases h
  · rw [hdis] at hk
    exact absurd hk List.not_mem_nil

theorem completionMessage_childStart (router : TaskRouter) (c : CompleteWorkflowAction) :
    (completionMessage env i router s c).toList.filterMap WorkflowRuntimeStateMessage.childStart =
      [] := by
  unfold completionMessage
  cases s.startEvent.bind ExecutionStartedEvent.parentInstance with
  | none => rfl
  | some p =>
    rw [Option.map_some, Option.toList_some, List.filterMap_cons_none]
    · rfl
    · unfold childResult
      by_cases hc : c.workflowStatus = .completed
      · rw [if_pos hc]
        rfl
      · rw [if_neg hc]
        rfl

theorem completeWorkflow_round {id : ActionID} {router : Option TaskRouter}
    {c : CompleteWorkflowAction} :
    Round ⟨id, .completeWorkflow c, router⟩ s
      (completeWorkflow env i id (a.stampRouter router) s c) := by
  unfold completeWorkflow
  split
  · next hs =>
    refine ⟨fun e he => ?_, fun h => ?_, fun _ => .inl hs, fun h => ?_, fun k hk => ?_⟩
    · cases he
    · cases h
    · cases h
    · exact absurd hk List.not_mem_nil
  · next hs =>
    refine ⟨fun e he => ?_, fun h => ?_, fun _ => .inr ⟨_, rfl, rfl⟩, fun h => ?_, fun k hk => ?_⟩
    · cases he
      exact ⟨rfl, rfl, .inl (Option.not_isSome_iff_eq_none.mp hs), .inl rfl⟩
    · cases h
    · cases h
    · unfold Effect.dispatched at hk
      dsimp only at hk
      rw [completionMessage_childStart] at hk
      exact absurd hk List.not_mem_nil

theorem effect_round (h : a.effect env receivedHistory i resolved s action = .ok f) :
    Round action s f := by
  rcases action with ⟨id, body, router⟩
  cases body with
  | completeWorkflow c =>
    cases h
    exact completeWorkflow_round
  | createTimer t =>
    cases h
    refine .of_recorded rfl rfl (by simp [recorded, WorkflowActionType.recordedBy]) fun k hk => ?_
    unfold createTimer Effect.dispatched at hk
    dsimp only at hk
    split at hk
    · exact absurd hk List.not_mem_nil
    · rw [List.mem_singleton.mp hk]
      exact ⟨rfl, rfl⟩
  | scheduleTask t =>
    cases h
    unfold scheduleTask
    dsimp only
    split
    · exact .of_recorded rfl rfl rfl fun k hk => absurd hk List.not_mem_nil
    · refine .of_recorded rfl rfl rfl fun k hk => ?_
      rw [List.mem_singleton.mp hk]
      exact ⟨rfl, rfl⟩
  | createChildWorkflow c =>
    simp only [effect, createChildWorkflow] at h
    split at h
    · cases h
      exact .of_recorded rfl rfl rfl fun k hk => absurd hk List.not_mem_nil
    · split at h <;> cases h
      refine .of_recorded rfl rfl rfl fun k hk => ?_
      rw [List.mem_singleton.mp hk]
      exact ⟨rfl, rfl⟩
  | createDetachedWorkflow c =>
    simp only [effect, createDetachedWorkflow] at h
    split at h <;> cases h
    exact .of_recorded rfl rfl (by simp [recorded, WorkflowActionType.recordedBy])
      fun k hk => absurd hk List.not_mem_nil
  | sendEvent e =>
    cases h
    refine .of_other rfl rfl (fun e he => ?_) rfl
    cases he
    exact ⟨rfl, rfl, rfl, rfl⟩
  | terminateWorkflow t =>
    cases h
    exact .of_other rfl rfl (fun e he => by cases he) rfl
  | workflowVersionNotAvailable =>
    cases h
    exact .of_other rfl rfl (fun e he => by cases he) rfl
  | unset => cases h

theorem Effect.pendingMessages_apply (f : Effect) (s : WorkflowRuntimeState) :
    (f.apply s).pendingMessages = s.pendingMessages ++ f.message.toList := by
  unfold Effect.apply
  cases f.event with
  | none => rfl
  | some e => exact congrArg (· ++ f.message.toList) (s.addEvent_pendingMessages e)

/-- The state after a round. -/
theorem Round.apply (hr : Round action s f) :
    (f.apply s).newEvents = s.newEvents ++ f.event.toList ∧ (f.apply s).oldEvents = s.oldEvents ∧
      (f.apply s).startEvent = s.startEvent ∧
      (f.apply s).completedEvent =
        s.completedEvent.or (f.event.bind HistoryEvent.getExecutionCompleted) ∧
      ∀ k ∈ (f.apply s).dispatched, k ∈ s.dispatched ∨ k ∈ f.dispatched := by
  have hdis (s : WorkflowRuntimeState) (k : Kind × ActionID)
      (hk : k ∈ ({ s with
        pendingTasks := s.pendingTasks ++ f.task.toList
        pendingTimers := s.pendingTimers ++ f.timer.toList
        pendingMessages := s.pendingMessages ++ f.message.toList } :
          WorkflowRuntimeState).dispatched) : k ∈ s.dispatched ∨ k ∈ f.dispatched := by
    simp only [WorkflowRuntimeState.dispatched, Effect.dispatched, List.map_append,
      List.filterMap_append, List.mem_append] at hk ⊢
    grind
  unfold Effect.apply
  cases he : f.event with
  | none => exact ⟨(List.append_nil _).symm, rfl, rfl, Option.or_none.symm, hdis s⟩
  | some e =>
    obtain ⟨hs, hres, hc, -⟩ := hr.event e he
    obtain ⟨hnew, hold⟩ := s.addEvent_events hs hres hc
    refine ⟨hnew, hold, ?_, s.addEvent_completedEvent e, fun k hk => ?_⟩
    · rw [Option.map_some, Option.getD_some, s.addEvent_startEvent, hs, Option.or_none]
    · rw [← WorkflowRuntimeState.dispatched_of_outbox (s.addEvent_outbox e)]
      exact hdis (s.addEvent e) k hk

end Round

/-! ### The loop -/

/-- What a call of `Actions` that does not continue as new adds to the history. -/
structure Applied (actions : List WorkflowAction) (s s' : WorkflowRuntimeState)
    (added : List HistoryEvent) : Prop where
  oldEvents : s'.oldEvents = s.oldEvents
  newEvents : s'.newEvents = s.newEvents ++ added
  startEvent : s'.startEvent = s.startEvent
  scheduling : (added.filterMap HistoryEvent.schedulingID).Sublist
    ((actions.filter fun action => action.actionType.isScheduling).map WorkflowAction.id)
  plain : ∀ e ∈ added, e.getExecutionStarted = none ∧ e.resolution = none
  scheduled : (∀ action ∈ actions, action.actionType.isScheduling = true) →
    List.Forall₂ (fun action e => e.eventId = action.id ∧
      action.actionType.recordedBy e.eventType = true) actions added
  completed : (∃ action ∈ actions, action.completionStatus.isSome = true) →
    s'.completedEvent.isSome = true
  once : (added.filterMap HistoryEvent.getExecutionCompleted).length +
    s.completedEvent.isSome.toNat ≤ 1
  completedEvent : s'.completedEvent =
    s.completedEvent.or (added.findSome? HistoryEvent.getExecutionCompleted)
  dispatched : ∀ k ∈ s'.dispatched, k ∈ s.dispatched ∨
    ∃ action ∈ actions, action.id = k.2 ∧ action.actionType.kind = some k.1

/-- A round, and the rest of the loop. -/
theorem Applied.cons {action : WorkflowAction} {actions : List WorkflowAction} {f : Effect}
    {s s' : WorkflowRuntimeState} {added : List HistoryEvent} (hr : Round action s f)
    (h : Applied actions (f.apply s) s' added) :
    Applied (action :: actions) s s' (f.event.toList ++ added) := by
  obtain ⟨hnew, hold, hstart, hcomp, hdis⟩ := hr.apply
  have hone := h.once
  have hcompleted := h.completedEvent
  rw [hcomp] at hone hcompleted
  refine ⟨h.oldEvents.trans hold, ?_, h.startEvent.trans hstart, ?_, fun e he => ?_, fun hall => ?_,
    ?_, ?_, ?_, fun k hk => ?_⟩
  · rw [h.newEvents, hnew, List.append_assoc]
  · have hskip : (added.filterMap HistoryEvent.schedulingID).Sublist
        (((action :: actions).filter fun action => action.actionType.isScheduling).map
          WorkflowAction.id) :=
      h.scheduling.trans (((List.sublist_cons_self action actions).filter _).map _)
    rw [List.filterMap_append]
    cases he : f.event with
    | none => exact hskip
    | some e =>
      rcases (hr.event e he).2.2.2 with hid | ⟨his, hid⟩
      · rw [Option.toList_some, List.filterMap_cons_none hid]
        exact hskip
      · rw [Option.toList_some, List.filterMap_cons_some hid, List.filter_cons, if_pos his]
        exact h.scheduling.cons_cons _
  · rcases List.mem_append.mp he with he | he
    · have := hr.event e (Option.mem_toList.mp he)
      exact ⟨this.1, this.2.1⟩
    · exact h.plain e he
  · obtain ⟨e, he, hid, hrec⟩ := hr.scheduled (hall action List.mem_cons_self)
    rw [he]
    exact .cons ⟨hid, hrec⟩ (h.scheduled fun b hb => hall b (List.mem_cons_of_mem _ hb))
  · rintro ⟨b, hb, hsome⟩
    rcases List.mem_cons.mp hb with rfl | hb
    · rw [hcompleted, Option.isSome_or, Option.isSome_or]
      rcases hr.completed hsome with hs | ⟨e, he, hs⟩
      · simp [hs]
      · simp [he, hs]
    · exact h.completed ⟨b, hb, hsome⟩
  · cases he : f.event with
    | none =>
      rw [he] at hone
      simpa using hone
    | some e =>
      rw [he] at hone
      have hnot := (hr.event e he).2.2.1
      cases hec : e.getExecutionCompleted with
      | none =>
        rw [Option.toList_some, List.singleton_append, List.filterMap_cons_none hec]
        simpa [hec] using hone
      | some ec =>
        have hs : s.completedEvent = none := hnot.resolve_right (by rw [hec]; exact nofun)
        rw [Option.toList_some, List.singleton_append, List.filterMap_cons_some hec, hs]
        simp [hec, hs] at hone ⊢
        exact hone
  · rw [hcompleted, List.findSome?_append, ← Option.or_assoc]
    cases f.event with
    | none => rfl
    | some e =>
      simp only [Option.bind_some, Option.toList_some, List.findSome?_cons, List.findSome?_nil]
      cases e.getExecutionCompleted <;> rfl
  · rcases h.dispatched k hk with hk | ⟨b, hb, hid⟩
    · rcases hdis k hk with hk | hk
      · exact .inl hk
      · exact .inr ⟨action, List.mem_cons_self, (hr.dispatched k hk).1.symm, (hr.dispatched k hk).2⟩
    · exact .inr ⟨b, List.mem_cons_of_mem _ hb, hid⟩

theorem applyActions_applied {a : Applier} {env : ApplyEnv}
    {receivedHistory : Option PropagatedHistory} {customStatus : Option String} {resolved : DedupSet}
    {i : Nat} {actions : List WorkflowAction} {result result' : ActionsResult}
    {s s' : WorkflowRuntimeState}
    (h : a.applyActions env receivedHistory customStatus resolved i actions result s =
      .ok (result', s'))
    (hcan : result'.continuedAsNew = false) : ∃ added, Applied actions s s' added := by
  induction actions generalizing i result s with
  | nil =>
    cases h
    refine ⟨[], rfl, (List.append_nil _).symm, rfl, .slnil, fun e he => absurd he List.not_mem_nil,
      fun _ => .nil, ?_, ?_, Option.or_none.symm, fun k hk => .inl hk⟩
    · rintro ⟨b, hb, -⟩
      exact absurd hb List.not_mem_nil
    · cases s'.completedEvent <;> simp
  | cons action actions ih =>
    unfold applyActions at h
    split at h
    · split at h
      · cases h
      · cases h
        cases hcan
    · obtain ⟨f, hf, h⟩ := Except.bind_eq_ok.mp h
      obtain ⟨added, hrest⟩ := ih h
      exact ⟨_, hrest.cons (effect_round hf)⟩

/-- Every scheduling action is recorded under its id. -/
theorem mem_schedulingID_of_applyActions {a : Applier} {env : ApplyEnv}
    {receivedHistory : Option PropagatedHistory} {customStatus : Option String} {resolved : DedupSet}
    {i : Nat} {actions : List WorkflowAction} {result result' : ActionsResult}
    {s s' : WorkflowRuntimeState}
    (h : a.applyActions env receivedHistory customStatus resolved i actions result s =
      .ok (result', s'))
    (hcan : result'.continuedAsNew = false) :
    ∀ action ∈ actions, action.actionType.isScheduling = true →
      action.id ∈ s'.newEvents.filterMap HistoryEvent.schedulingID := by
  induction actions generalizing i result s with
  | nil => exact fun _ ha => absurd ha List.not_mem_nil
  | cons action actions ih =>
    unfold applyActions at h
    split at h
    · split at h
      · cases h
      · cases h
        cases hcan
    · obtain ⟨f, hf, h⟩ := Except.bind_eq_ok.mp h
      rintro b hb hsched
      rcases List.mem_cons.mp hb with rfl | hb
      · obtain ⟨e, he, hid, hrec⟩ := (effect_round hf).scheduled hsched
        obtain ⟨added, hrest⟩ := applyActions_applied h hcan
        rw [hrest.newEvents, (effect_round hf).apply.1, he]
        refine List.mem_filterMap.mpr ⟨e, by simp, ?_⟩
        rw [(recordedBy_spec hrec).2.2.2.1, hid]
      · exact ih h b hb hsched

/-- A whole call of `Actions`. -/
theorem actions_applied {a : Applier} {env : ApplyEnv} {receivedHistory : Option PropagatedHistory}
    {customStatus : Option String} {actions : List WorkflowAction} {result : ActionsResult}
    {s s' : WorkflowRuntimeState}
    (h : a.actions env receivedHistory s customStatus actions = .ok (result, s'))
    (hcan : result.continuedAsNew = false) : ∃ added, Applied actions s s' added := by
  obtain ⟨added, h⟩ := applyActions_applied h hcan
  exact ⟨added, h.oldEvents, h.newEvents, h.startEvent, h.scheduling, h.plain, h.scheduled,
    h.completed, h.once, h.completedEvent, h.dispatched⟩

end Applier

end DurableTask
