import DurableTask.Backend.Outbox
import DurableTask.RuntimeState.Coherent

/-!
# What a call of `Actions` adds

The events a call of `Actions` adds to the history and the messages it adds to the outbox. Without a
continue-as-new completion they are those of its rounds, in order, so a property of all of them is a
property of every action (`actions_rounds`); a continue-as-new completion throws away what came
before it and starts a history of its own (`actions_continued`).
-/

namespace DurableTask

/-- The events a call of `Actions` adds to the history. -/
def ActionsResult.appended (result : ActionsResult) (s s' : WorkflowRuntimeState) :
    List HistoryEvent :=
  if result.continuedAsNew then s'.newEvents else s'.newEvents.drop s.newEvents.length

/-- The messages a call of `Actions` adds to the outbox. -/
def ActionsResult.sent (result : ActionsResult) (s s' : WorkflowRuntimeState) :
    List WorkflowRuntimeStateMessage :=
  if result.continuedAsNew then s'.pendingMessages
  else s'.pendingMessages.drop s.pendingMessages.length

namespace Applier

/-- The continue-as-new completion that ends the loop, if one is applied. -/
def appliedContinueAsNew (completed : Bool) : List WorkflowAction → Option CompleteWorkflowAction
  | [] => none
  | action :: actions =>
    match completed, continueAsNewAction action with
    | false, some c => some c
    | _, _ => appliedContinueAsNew (completed || action.completionStatus.isSome) actions

/-- A check of every round of the loop, told whether the workflow was completed before it. -/
def everyRound (ok : Bool → WorkflowAction → Bool) (completed : Bool) : List WorkflowAction → Bool
  | [] => true
  | action :: actions =>
    ok completed action && everyRound ok (completed || action.completionStatus.isSome) actions

/-- An action that does not continue as new leaves that to the rest. -/
theorem appliedContinueAsNew_cons {completed : Bool} {action : WorkflowAction}
    (h : completed = false → continueAsNewAction action = none) (actions : List WorkflowAction) :
    appliedContinueAsNew completed (action :: actions) =
      appliedContinueAsNew (completed || action.completionStatus.isSome) actions := by
  cases completed with
  | true => rfl
  | false => simp only [appliedContinueAsNew, h rfl]

/-- A check that does not ask whether the workflow is completed. -/
theorem everyRound_const (ok : WorkflowAction → Bool) (completed : Bool)
    (actions : List WorkflowAction) :
    everyRound (fun _ => ok) completed actions = actions.all ok := by
  induction actions generalizing completed with
  | nil => rfl
  | cons action actions ih => rw [everyRound, ih, List.all_cons]

variable {a : Applier} {env : ApplyEnv} {receivedHistory : Option PropagatedHistory}
  {customStatus : Option String} {resolved : DedupSet}

theorem notContinued {action : WorkflowAction} {s : WorkflowRuntimeState}
    (h : ∀ c, s.completedEvent = none → continueAsNewAction action = some c → False)
    (hs : s.completedEvent.isSome = false) : continueAsNewAction action = none :=
  Option.eq_none_iff_forall_ne_some.mpr fun c => h c (by simpa using hs)

/-- What the rounds of the loop add satisfies `E` and `M` if what each of them adds does. -/
theorem applyActions_rounds {E : HistoryEvent → Prop} {M : WorkflowRuntimeStateMessage → Prop}
    {Q : Bool → WorkflowAction → Bool} {start : Option ExecutionStartedEvent} {i : Nat}
    {actions : List WorkflowAction} {result result' : ActionsResult} {s s' : WorkflowRuntimeState}
    (hround : ∀ {i s action f}, s.startEvent = start →
      a.effect env receivedHistory i resolved s action = .ok f →
        (((∀ e ∈ f.event, E e) ∧ ∀ m ∈ f.message, M m) ↔ Q s.completedEvent.isSome action = true))
    (hstart : s.startEvent = start)
    (hcan : appliedContinueAsNew s.completedEvent.isSome actions = none)
    (h : a.applyActions env receivedHistory customStatus resolved i actions result s =
      .ok (result', s')) :
    result'.continuedAsNew = result.continuedAsNew ∧ ∃ added sent,
      s'.newEvents = s.newEvents ++ added ∧ s'.pendingMessages = s.pendingMessages ++ sent ∧
        (((∀ e ∈ added, E e) ∧ ∀ m ∈ sent, M m) ↔
          everyRound Q s.completedEvent.isSome actions = true) := by
  induction actions generalizing i result s with
  | nil =>
    cases h
    exact ⟨rfl, [], [], (List.append_nil _).symm, (List.append_nil _).symm, by simp [everyRound]⟩
  | cons action actions ih =>
    unfold applyActions at h
    split at h
    · next c hs hc =>
      simp only [appliedContinueAsNew, hs, hc, Option.isSome_none] at hcan
      cases hcan
    · next hnot =>
      obtain ⟨f, hf, h⟩ := Except.bind_eq_ok.mp h
      obtain ⟨hnew, -, hstart', -⟩ := (effect_round hf).apply
      have hsent : (f.apply s).pendingMessages = s.pendingMessages ++ f.message.toList := by
        cases he : f.event <;> simp [Effect.apply, he]
      have hcompleted := isSome_completedEvent_apply hf
      rw [appliedContinueAsNew_cons (notContinued hnot), ← hcompleted] at hcan
      obtain ⟨hresult, added, sent, hadded, hsent', hiff⟩ := ih (hstart'.trans hstart) hcan h
      refine ⟨hresult.trans (addOutgoing_continuedAsNew ..), f.event.toList ++ added,
        f.message.toList ++ sent, ?_, ?_, ?_⟩
      · rw [hadded, hnew, List.append_assoc]
      · rw [hsent', hsent, List.append_assoc]
      · rw [everyRound, Bool.and_eq_true, ← hcompleted, ← hiff, ← hround hstart hf]
        simp only [List.forall_mem_append, Option.mem_toList]
        exact and_and_and_comm

/-- A loop with a continue-as-new completion ends with the generation this completion starts. -/
theorem applyActions_continued {i : Nat} {actions : List WorkflowAction}
    {result result' : ActionsResult} {s s' : WorkflowRuntimeState} {c : CompleteWorkflowAction}
    (hcan : appliedContinueAsNew s.completedEvent.isSome actions = some c)
    (h : a.applyActions env receivedHistory customStatus resolved i actions result s =
      .ok (result', s')) :
    result'.continuedAsNew = true ∧ ∃ i router s₁ startEvent,
      s' = continueAsNewState env i router customStatus c s₁ startEvent := by
  induction actions generalizing i result s with
  | nil => cases hcan
  | cons action actions ih =>
    unfold applyActions at h
    split at h
    · next c' hs hc =>
      simp only [appliedContinueAsNew, hs, hc, Option.isSome_none] at hcan
      cases hcan
      split at h <;> cases h
      exact ⟨rfl, _, _, _, _, rfl⟩
    · next hnot =>
      obtain ⟨f, hf, h⟩ := Except.bind_eq_ok.mp h
      rw [appliedContinueAsNew_cons (notContinued hnot), ← isSome_completedEvent_apply hf] at hcan
      exact ih hcan h

section Call

variable {actions : List WorkflowAction} {result : ActionsResult} {s s' : WorkflowRuntimeState}

/-- `applyActions_rounds` for a whole call of `Actions`. -/
theorem actions_rounds {E : HistoryEvent → Prop} {M : WorkflowRuntimeStateMessage → Prop}
    {Q : Bool → WorkflowAction → Bool}
    (hround : ∀ {i resolved action f} {s₁ : WorkflowRuntimeState}, s₁.startEvent = s.startEvent →
      a.effect env receivedHistory i resolved s₁ action = .ok f →
        (((∀ e ∈ f.event, E e) ∧ ∀ m ∈ f.message, M m) ↔ Q s₁.completedEvent.isSome action = true))
    (hcan : appliedContinueAsNew s.completedEvent.isSome actions = none)
    (h : a.actions env receivedHistory s customStatus actions = .ok (result, s')) :
    result.continuedAsNew = false ∧
      (((∀ e ∈ result.appended s s', E e) ∧ ∀ m ∈ result.sent s s', M m) ↔
        everyRound Q s.completedEvent.isSome actions = true) := by
  obtain ⟨hresult, added, sent, hadded, hsent, hiff⟩ := applyActions_rounds
    (s := { s with customStatus := customStatus, stalled := none }) hround rfl hcan h
  have hresult : result.continuedAsNew = false := hresult
  rw [ActionsResult.appended, ActionsResult.sent, if_neg (by simp [hresult]),
    if_neg (by simp [hresult]), hadded, hsent, List.drop_left, List.drop_left]
  exact ⟨hresult, hiff⟩

/-- `applyActions_continued` for a whole call of `Actions`: nothing is sent. -/
theorem actions_continued {c : CompleteWorkflowAction}
    (hcan : appliedContinueAsNew s.completedEvent.isSome actions = some c)
    (h : a.actions env receivedHistory s customStatus actions = .ok (result, s')) :
    result.continuedAsNew = true ∧ result.sent s s' = [] ∧ result.appended s s' = s'.newEvents ∧
      ∃ i router s₁ startEvent,
        s' = continueAsNewState env i router customStatus c s₁ startEvent := by
  obtain ⟨hresult, i, router, s₁, startEvent, rfl⟩ := applyActions_continued
    (s := { s with customStatus := customStatus, stalled := none }) hcan h
  exact ⟨hresult, by simp [ActionsResult.sent, hresult, continueAsNewState_pendingMessages],
    by simp [ActionsResult.appended, hresult], i, router, s₁, startEvent, rfl⟩

end Call

end Applier

end DurableTask
