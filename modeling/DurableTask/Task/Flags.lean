import DurableTask.Task.Machine

/-!
# Flags and patches

Tasks and waits are all that the handlers of events other than those about suspension and termination
change (`Core.frame`). So they leave the two flags and the decisions about patches alone.
-/

namespace DurableTask.Task

/-- What of the context neither tasks nor waits change: the flags only event handlers set, and the
decisions about patches. -/
structure Flags where
  isSuspended : Bool
  isTerminated : Bool
  appliedPatches : List (String × Bool)
  encounteredPatches : List String

namespace Core

def flags (c : Core) : Flags :=
  ⟨c.isSuspended, c.isTerminated, c.appliedPatches, c.encounteredPatches⟩

/-- The state without its tasks, waits and external events. -/
def frame (c : Core) : Core :=
  { c with
    tasks := [], waitLists := [], pendingExternalEventTasks := [], bufferedExternalEvents := [] }

theorem flags_of_frame {c c' : Core} (h : c'.frame = c.frame) : c'.flags = c.flags :=
  show c'.frame.flags = c.frame.flags from congrArg flags h

variable (c : Core) (t : Nat)

@[simp] theorem frame_onWaitTimeout (w : WaitTimeout) : (c.onWaitTimeout w).frame = c.frame := by
  unfold onWaitTimeout
  split
  · rfl
  · dsimp only
    split <;> rfl

@[simp] theorem frame_completeInternal : (c.completeInternal t).frame = c.frame := by
  unfold completeInternal
  dsimp only
  split
  · exact frame_onWaitTimeout ..
  · rfl

@[simp] theorem frame_complete (raw : String) : (c.complete t raw).frame = c.frame :=
  frame_completeInternal ..

@[simp] theorem frame_fail (fd : Option TaskFailureDetails) : (c.fail t fd).frame = c.frame :=
  frame_completeInternal ..

@[simp] theorem frame_cancel : (c.cancel t).frame = c.frame := frame_completeInternal ..

@[simp] theorem frame_onCompleted (w : WaitTimeout) : (c.onCompleted t w).frame = c.frame := by
  unfold onCompleted
  split
  · exact frame_onWaitTimeout ..
  · rfl

@[simp] theorem frame_failedTask (fd : TaskFailureDetails) : (c.failedTask fd).1.frame = c.frame :=
  frame_fail ..

@[simp] theorem frame_resolve (e : HistoryEvent) : (c.resolve t e).frame = c.frame := by
  unfold resolve
  split
  case h_2 => exact frame_fail ..
  all_goals simp

theorem flags_resolve (e : HistoryEvent) : (c.resolve t e).flags = c.flags :=
  flags_of_frame (frame_resolve ..)

/-- The flags set by suspension and termination events. -/
def suspension (c : Core) : Bool × Bool := (c.isSuspended, c.isTerminated)

theorem suspension_of_flags {c c' : Core} (h : c'.flags = c.flags) : c'.suspension = c.suspension :=
  congrArg (fun f : Flags => (f.isSuspended, f.isTerminated)) h

end Core

/-! ### Event handlers -/

namespace Ctx

variable (c : Ctx)

@[simp] theorem frame_onResolution (k : Kind × ActionID) (e : HistoryEvent) :
    (c.onResolution k e).core.frame = c.core.frame := by
  unfold onResolution
  split
  · rfl
  · exact Core.frame_resolve ..

@[simp] theorem frame_consumeBufferedResolution (k : Kind × ActionID) :
    (c.consumeBufferedResolution k).core.frame = c.core.frame := by
  unfold consumeBufferedResolution
  split
  · rfl
  · split
    · rfl
    · exact frame_onResolution ..

@[simp] theorem frame_consumeFor (ids : List ActionID) :
    (c.consumeFor ids).core.frame = c.core.frame := by
  unfold consumeFor
  induction ids generalizing c with
  | nil => rfl
  | cons id ids ih =>
    rw [List.foldl_cons, ih]
    split
    · exact frame_consumeBufferedResolution ..
    · rfl

@[simp] theorem frame_consumeReadyBufferedResolutions :
    c.consumeReadyBufferedResolutions.core.frame = c.core.frame := by
  unfold consumeReadyBufferedResolutions
  split
  · rfl
  · exact frame_consumeFor ..

@[simp] theorem frame_dropOptionalTimers (id : ActionID) (n : Nat) :
    (dropOptionalTimers id n c).core.frame = c.core.frame := by
  induction n generalizing c with
  | zero => rfl
  | succ n ih =>
    unfold dropOptionalTimers
    split
    · rw [ih]
      exact frame_consumeFor ..
    · rfl

@[simp] theorem frame_register (actionType : WorkflowActionType) (router : Option TaskRouter)
    (kind : Kind) : (c.register actionType router kind).1.core.frame = c.core.frame :=
  frame_consumeBufferedResolution ..

theorem flags_register (actionType : WorkflowActionType) (router : Option TaskRouter) (kind : Kind) :
    (c.register actionType router kind).1.core.flags = c.core.flags :=
  Core.flags_of_frame (frame_register ..)

theorem frame_dropUnless (b : Bool) (id : ActionID) (n : Nat) :
    (c.dropUnless b id n).core.frame = c.core.frame := by
  unfold dropUnless
  split
  · rfl
  · exact frame_dropOptionalTimers ..

theorem frame_alignSchedule {c c' : Ctx} {id : ActionID} {p : WorkflowActionType → Bool} {n : Nat}
    (h : c.alignSchedule id p n = some c') : c'.core.frame = c.core.frame := by
  obtain ⟨-, hc⟩ := Option.ite_none_right_eq_some.mp h
  cases hc
  exact frame_dropUnless ..

theorem frame_setChildInstanceID (id : ActionID) (instanceID : InstanceID) :
    (c.setChildInstanceID id instanceID).core.frame = c.core.frame := by
  unfold setChildInstanceID
  split
  · split <;> rfl
  · rfl

theorem frame_onTaskScheduled {c c' : Ctx} {id : ActionID} {ts : TaskScheduledEvent}
    (h : c.onTaskScheduled id ts = .ok c') : c'.core.frame = c.core.frame := by
  unfold onTaskScheduled at h
  split at h
  · next d hd =>
    cases h
    exact (frame_alignSchedule hd : d.core.frame = c.core.frame)
  · cases h

theorem frame_onChildWorkflowScheduled {c c' : Ctx} {id : ActionID}
    {ts : ChildWorkflowInstanceCreatedEvent} (h : c.onChildWorkflowScheduled id ts = .ok c') :
    c'.core.frame = c.core.frame := by
  unfold onChildWorkflowScheduled at h
  split at h
  · next d hd =>
    cases h
    exact (frame_setChildInstanceID d ..).trans (frame_alignSchedule hd)
  · cases h

theorem frame_onTimerCreated {c c' : Ctx} {id : ActionID} {tc : TimerCreatedEvent}
    (h : c.onTimerCreated id tc = .ok c') : c'.core.frame = c.core.frame := by
  unfold onTimerCreated at h
  dsimp only at h
  have hdrop := c.frame_dropUnless (isOptionalExternalEventTimerCreatedEvent tc) id
    c.pend.pendingActions.length
  split at h
  · cases h
    exact (frame_consumeReadyBufferedResolutions _).trans hdrop
  · cases h

theorem frame_onDetachedWorkflowCreated {c c' : Ctx} {id : ActionID} {instanceId : InstanceID}
    (h : c.onDetachedWorkflowCreated id instanceId = .ok c') : c'.core.frame = c.core.frame := by
  unfold onDetachedWorkflowCreated at h
  dsimp only at h
  have hdrop := c.frame_dropUnless (c.pendingDetached id).isSome id 1
  split at h
  · cases h
  · split at h
    · cases h
      exact hdrop
    · cases h

end Ctx

theorem frame_onExternalEventRaised (env : SdkEnv) (c : Core) (e : HistoryEvent)
    (er : EventRaisedEvent) : (Ctx.onExternalEventRaised env c e er).frame = c.frame := by
  unfold Ctx.onExternalEventRaised
  dsimp only
  split
  · split
    · rw [Core.frame_complete]
      split <;> rfl
    · rfl
  · rfl

end DurableTask.Task
