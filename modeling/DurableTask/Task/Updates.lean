import DurableTask.Task.Acts

/-!
# What happens to pending work

Every step of a replay changes the pending work by a few updates (`Pending.Updates`), for any program
and any history. An invariant of the pending work is proved by induction over them.
-/

namespace DurableTask

/-- The events an action carries over. -/
def WorkflowActionType.carryover : WorkflowActionType → List HistoryEvent
  | .completeWorkflow co => co.carryoverEvents
  | _ => []

namespace Task

namespace Pending

/-- New work with its task. -/
def registered (p : Pending) (actionType : WorkflowActionType) (router : Option TaskRouter)
    (kind : Kind) (task : Nat) : Pending :=
  ((p.addAction actionType router (some task)).1.noteOptional p.sequenceNumber
    ⟨p.sequenceNumber, actionType, router⟩).addTask p.sequenceNumber kind task

/-- What stays of an action when its details are filled in. -/
structure Alike (a b : PendingAction) : Prop where
  id : b.action.id = a.action.id
  kind : b.action.actionType.kind = a.action.actionType.kind
  carryover : b.action.actionType.carryover = a.action.actionType.carryover
  task : b.task = a.task
  optional : isOptionalExternalEventTimerAction a.action = false →
    isOptionalExternalEventTimerAction b.action = false

theorem Alike.refl (a : PendingAction) : Alike a a := ⟨rfl, rfl, rfl, rfl, fun h => h⟩

inductive Updates : Pending → Pending → Prop
  | refl (p : Pending) : Updates p p
  | trans {p p' p'' : Pending} (h : Updates p p') (h' : Updates p' p'') : Updates p p''
  /-- Work without a task: a detached workflow or a completion. -/
  | addAction (p : Pending) {actionType : WorkflowActionType} (router : Option TaskRouter)
    (hkind : actionType.kind = none) (hbare : actionType.carryover = []) :
    Updates p (p.addAction actionType router none).1
  | registered (p : Pending) {actionType : WorkflowActionType} (router : Option TaskRouter) {kind : Kind}
    (task : Nat) (hkind : actionType.kind = some kind) :
    Updates p (p.registered actionType router kind task)
  | buffer (p : Pending) (buffered : List ((Kind × ActionID) × HistoryEvent)) :
    Updates p { p with bufferedResolutions := buffered }
  | resolve (p : Pending) (k : Kind × ActionID) (e : HistoryEvent) (hdel : (p.deliverable k).isSome = true) :
    Updates p (p.resolve k e)
  | modify (p : Pending) {id : ActionID} {f : PendingAction → PendingAction}
    (hopt : p.optionalAt id = false) (hf : ∀ a, Alike a (f a)) :
    Updates p { p with pendingActions := Assoc.modify p.pendingActions id f }
  | removeAction (p : Pending) {x : ActionID × PendingAction} (hx : x ∈ p.pendingActions)
    (hopt : isOptionalExternalEventTimerAction x.2.action = false) : Updates p (p.removeAction x.1)
  | removeTimer (p : Pending) (id : ActionID) : Updates p (p.removeTimer id)
  | dropAt (p : Pending) {id : ActionID} (hopt : p.optionalAt id = true) : Updates p (p.dropAt id)

theorem Updates.bufferResolution (p : Pending) (k : Kind × ActionID) (e : HistoryEvent) :
    Updates p (p.bufferResolution k e) := by
  unfold Pending.bufferResolution
  split
  · exact .refl p
  · exact .buffer p _

/-- Filling in a recorded execution id. -/
theorem alike_restored (executionID : String) (a : PendingAction) :
    Alike a (match a.action.actionType with
      | .scheduleTask st =>
        { a with action := { a.action with
          actionType := .scheduleTask { st with taskExecutionId := executionID } } }
      | _ => a) := by
  split
  · next st hst =>
    refine ⟨rfl, ?_, ?_, rfl, fun _ => rfl⟩
    · rw [hst]
      rfl
    · rw [hst]
      rfl
  · exact .refl a

end Pending

/-! ### Contexts -/

namespace Ctx

open Pending (Updates)

variable {c c' : Ctx}

end Ctx

/-! ### Steps -/

namespace Machine

open Pending (Updates)

variable {σ : Type} {sdk : Sdk σ} {m m' : Machine σ}

end Machine

end Task

end DurableTask
