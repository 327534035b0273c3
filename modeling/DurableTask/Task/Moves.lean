import DurableTask.Task.Acts

/-!
# What happens to tasks and waits

`Core.Moves` is about the tasks of a context, the waits for external events and the events that no
wait has taken. The ways to deliver a resolution, to schedule work and to wait for an event are made
of few moves.
-/

namespace DurableTask.Task

/-! ### Tasks -/

/-- A task after its resolution event. -/
def CompletableTask.resolvedBy (e : HistoryEvent) (t : CompletableTask) : CompletableTask :=
  let failed (fd : Option TaskFailureDetails) : Option TaskFailureDetails :=
    some (fd.getD ⟨"TaskFailed", "task failed without failure details"⟩)
  match e.eventType with
  | .taskCompleted tc => { t with rawResult := tc.result.getD "", isCompleted := true }
  | .taskFailed tf =>
    { t with
      taskExecutionId := tf.taskExecutionId, failureDetails := failed tf.failureDetails
      isCompleted := true }
  | .childWorkflowInstanceCompleted sc => { t with rawResult := sc.result.getD "", isCompleted := true }
  | .childWorkflowInstanceFailed sf =>
    { t with failureDetails := failed sf.failureDetails, isCompleted := true }
  | _ => { t with rawResult := "", isCompleted := true }

theorem CompletableTask.completedCallback_resolvedBy (e : HistoryEvent) (t : CompletableTask) :
    (t.resolvedBy e).completedCallback = t.completedCallback := by
  unfold resolvedBy
  dsimp only
  split <;> rfl

theorem CompletableTask.isCompleted_resolvedBy (e : HistoryEvent) (t : CompletableTask) :
    (t.resolvedBy e).isCompleted = true := by
  unfold resolvedBy
  dsimp only
  split <;> rfl

namespace Core

variable (c : Core) (t : Nat)

/-- The fields that moves are about. -/
def mail : List CompletableTask × List (List Nat) × List (String × Nat) × List (String × List HistoryEvent) :=
  (c.tasks, c.waitLists, c.pendingExternalEventTasks, c.bufferedExternalEvents)

theorem task_of_length_le (h : c.tasks.length ≤ t) : c.task t = {} := by
  unfold task
  rw [List.getD_eq_getElem?_getD, List.getElem?_eq_none h]
  rfl

theorem task_modifyTask_self (f : CompletableTask → CompletableTask) (h : t < c.tasks.length) :
    (c.modifyTask t f).task t = f (c.task t) := by
  unfold task modifyTask
  simp only [List.getD_eq_getElem?_getD, List.getElem?_modify, if_true, List.getElem?_eq_getElem h]
  rfl

theorem task_modifyTask_of_ne (f : CompletableTask → CompletableTask) {t' : Nat} (h : t ≠ t') :
    (c.modifyTask t f).task t' = c.task t' := by
  unfold task modifyTask
  simp only [List.getD_eq_getElem?_getD, List.getElem?_modify, if_neg h]
  cases c.tasks[t']? <;> rfl

theorem length_modifyTask (f : CompletableTask → CompletableTask) :
    (c.modifyTask t f).tasks.length = c.tasks.length := List.length_modify ..

theorem callback_modifyTask (f : CompletableTask → CompletableTask)
    (hf : ∀ x, (f x).completedCallback = x.completedCallback) (t' : Nat) :
    ((c.modifyTask t f).task t').completedCallback = (c.task t').completedCallback := by
  by_cases ht : t = t'
  · subst ht
    rcases Nat.lt_or_ge t c.tasks.length with h | h
    · rw [task_modifyTask_self c t f h, hf]
    · have hlen : (c.modifyTask t f).tasks.length ≤ t := by
        rw [modifyTask, List.length_modify]
        exact h
      rw [task_of_length_le _ _ hlen, task_of_length_le _ _ h]
  · rw [task_modifyTask_of_ne c t f ht]

theorem modifyTask_modifyTask (f g : CompletableTask → CompletableTask) :
    (c.modifyTask t f).modifyTask t g = c.modifyTask t (g ∘ f) := by
  unfold modifyTask
  rw [List.modify_modify_eq]

theorem task_newTask {t' : Nat} (h : t' < c.tasks.length) : c.newTask.1.task t' = c.task t' := by
  unfold task newTask
  simp only [List.getD_eq_getElem?_getD, List.getElem?_append_left h]

theorem task_newTask_self : c.newTask.1.task c.tasks.length = {} := by
  unfold task newTask
  simp [List.getD_eq_getElem?_getD]

theorem length_newTask : c.newTask.1.tasks.length = c.tasks.length + 1 := List.length_append

theorem completeInternal_of_none (h : (c.task t).completedCallback = none) :
    c.completeInternal t = c.modifyTask t fun x => { x with isCompleted := true } := by
  have hcb : ((c.modifyTask t fun x => { x with isCompleted := true }).task t).completedCallback =
      none := (callback_modifyTask _ _ _ (by intro x; rfl) _).trans h
  unfold completeInternal
  dsimp only
  rw [hcb]

theorem completeInternal_of_some {w : WaitTimeout} (h : (c.task t).completedCallback = some w) :
    c.completeInternal t =
      (c.modifyTask t fun x => { x with isCompleted := true }).onWaitTimeout w := by
  have hcb : ((c.modifyTask t fun x => { x with isCompleted := true }).task t).completedCallback =
      some w := (callback_modifyTask _ _ _ (by intro x; rfl) _).trans h
  unfold completeInternal
  dsimp only
  rw [hcb]

/-- A task without a callback is completed on its own. -/
theorem complete_of_none (h : (c.task t).completedCallback = none) (raw : String) :
    c.complete t raw = c.modifyTask t fun x => { x with rawResult := raw, isCompleted := true } := by
  unfold complete
  rw [completeInternal_of_none _ _ ((callback_modifyTask _ _ _ (by intro x; rfl) _).trans h),
    modifyTask_modifyTask]
  rfl

theorem cancel_of_none (h : (c.task t).completedCallback = none) :
    c.cancel t = c.modifyTask t fun x => { x with isCanceled := true, isCompleted := true } := by
  unfold cancel
  rw [completeInternal_of_none _ _ ((callback_modifyTask _ _ _ (by intro x; rfl) _).trans h),
    modifyTask_modifyTask]
  rfl

theorem fail_of_none (h : (c.task t).completedCallback = none) (fd : Option TaskFailureDetails) :
    c.fail t fd = c.modifyTask t fun x => { x with
      failureDetails := some (fd.getD ⟨"TaskFailed", "task failed without failure details"⟩)
      isCompleted := true } := by
  unfold fail
  rw [completeInternal_of_none _ _ ((callback_modifyTask _ _ _ (by intro x; rfl) _).trans h),
    modifyTask_modifyTask]
  rfl

/-- A resolution completes its task; then the callback of the task runs. -/
theorem resolve_eq (e : HistoryEvent) :
    c.resolve t e = match (c.task t).completedCallback with
      | some w => (c.modifyTask t (·.resolvedBy e)).onWaitTimeout w
      | none => c.modifyTask t (·.resolvedBy e) := by
  have hcomplete (g : CompletableTask → CompletableTask)
      (hg : ∀ x, (g x).completedCallback = x.completedCallback)
      (heq : ∀ x, x.resolvedBy e = { g x with isCompleted := true }) :
      (c.modifyTask t g).completeInternal t = match (c.task t).completedCallback with
        | some w => (c.modifyTask t (·.resolvedBy e)).onWaitTimeout w
        | none => c.modifyTask t (·.resolvedBy e) := by
    have hcb := callback_modifyTask c t g hg t
    have htwice : c.modifyTask t (·.resolvedBy e) =
        (c.modifyTask t g).modifyTask t fun x => { x with isCompleted := true } := by
      rw [modifyTask_modifyTask]
      exact congrArg (c.modifyTask t) (funext heq)
    rw [htwice]
    cases h : (c.task t).completedCallback with
    | none => rw [completeInternal_of_none _ _ (hcb.trans h)]
    | some w => rw [completeInternal_of_some _ _ (hcb.trans h)]
  rcases e with ⟨eventId, timestamp, body, router, row⟩
  cases body with
  | taskFailed tf =>
    show ((c.modifyTask t _).modifyTask t _).completeInternal t = _
    rw [modifyTask_modifyTask]
    exact hcomplete _ (fun x => rfl) fun x => rfl
  | _ => exact hcomplete _ (fun x => rfl) fun x => rfl

theorem isCompleted_resolve_newTask (e : HistoryEvent) :
    ((c.newTask.1.resolve c.tasks.length e).task c.tasks.length).isCompleted = true := by
  have hlt : c.tasks.length < c.newTask.1.tasks.length := by
    rw [length_newTask]
    exact Nat.lt_succ_self _
  rw [resolve_eq, task_newTask_self]
  show ((c.newTask.1.modifyTask c.tasks.length _).task c.tasks.length).isCompleted = true
  rw [task_modifyTask_self _ _ _ hlt]
  exact CompletableTask.isCompleted_resolvedBy ..

/-! ### The number of tasks -/

theorem length_onWaitTimeout (w : WaitTimeout) :
    (c.onWaitTimeout w).tasks.length = c.tasks.length := by
  unfold onWaitTimeout
  split
  · rfl
  · dsimp only
    split <;> exact List.length_modify ..

theorem length_completeInternal : (c.completeInternal t).tasks.length = c.tasks.length := by
  unfold completeInternal
  dsimp only
  split
  · rw [length_onWaitTimeout]
    exact List.length_modify ..
  · exact List.length_modify ..

theorem length_complete (raw : String) : (c.complete t raw).tasks.length = c.tasks.length :=
  (length_completeInternal ..).trans (List.length_modify ..)

theorem length_fail (fd : Option TaskFailureDetails) :
    (c.fail t fd).tasks.length = c.tasks.length :=
  (length_completeInternal ..).trans (List.length_modify ..)

theorem length_cancel : (c.cancel t).tasks.length = c.tasks.length :=
  (length_completeInternal ..).trans (List.length_modify ..)

theorem length_onCompleted (w : WaitTimeout) :
    (c.onCompleted t w).tasks.length = c.tasks.length := by
  unfold onCompleted
  split
  · exact length_onWaitTimeout ..
  · exact List.length_modify ..

theorem length_resolve (e : HistoryEvent) : (c.resolve t e).tasks.length = c.tasks.length := by
  rw [resolve_eq]
  split
  · exact (length_onWaitTimeout ..).trans (List.length_modify ..)
  · exact List.length_modify ..

theorem length_onExternalEventRaised (env : SdkEnv) (e : HistoryEvent) (er : EventRaisedEvent) :
    (Ctx.onExternalEventRaised env c e er).tasks.length = c.tasks.length := by
  unfold Ctx.onExternalEventRaised
  dsimp only
  split
  · split
    · rw [length_complete]
      split <;> rfl
    · rfl
  · rfl

end Core

/-! ### Moves -/

/-- Whether an act is about neither tasks nor waits. -/
def Act.isIdle : Act → Bool
  | .generated _ | .arrived _ => true
  | _ => false

/-- The moves with their acts. The timer of a wait is the task right after the wait; it has none at
all, one that is not resolved yet, or one whose early resolution is found when it is created. -/
inductive Core.Moves (env : SdkEnv) : Core → List Act → Core → Prop
  | append {c c' c'' : Core} {acts acts' : List Act} (h : Moves env c acts c')
    (h' : Moves env c' acts' c'') : Moves env c (acts ++ acts') c''
  | same {c c' : Core} {acts : List Act} (hmail : c'.mail = c.mail)
    (hidle : ∀ a ∈ acts, a.isIdle = true) : Moves env c acts c'
  | failedTask (c : Core) (fd : TaskFailureDetails) : Moves env c [] (c.failedTask fd).1
  | scheduled (c : Core) (kind : Kind) : Moves env c [.scheduled c.tasks.length kind] c.newTask.1
  | delivered (c : Core) (k : Kind × ActionID) (t : Nat) (e : HistoryEvent) (u : Bool) :
    Moves env c (.delivered k t e u :: c.firing t) (c.resolve t e)
  | raised (c : Core) (e : HistoryEvent) (er : EventRaisedEvent) (he : e.eventType = .eventRaised er) :
    Moves env c [.raised (env.toUpper er.name) e] (Ctx.onExternalEventRaised env c e er)
  | took (c : Core) (key : String) (timeout : Duration) {e : HistoryEvent} {rest : List HistoryEvent}
    (hbuf : Assoc.get? c.bufferedExternalEvents key = some (e :: rest)) :
    Moves env c [.waited c.tasks.length key timeout]
      (Ctx.takeBufferedEvent c.newTask.1 key e rest c.tasks.length)
  | canceled (c : Core) (key : String)
    (hbuf : ∀ e rest, Assoc.get? c.bufferedExternalEvents key ≠ some (e :: rest)) :
    Moves env c [.waited c.tasks.length key 0] (c.newTask.1.cancel c.tasks.length)
  | waiting (c : Ctx) (eventName : String) {timeout : Duration} (htimeout : timeout ≠ 0)
    (hbuf : ∀ e rest,
      Assoc.get? c.core.bufferedExternalEvents (env.toUpper eventName) ≠ some (e :: rest)) :
    Moves env c.core [.waited c.core.tasks.length (env.toUpper eventName) timeout]
      (c.waiting env eventName).core
  | noWaitTimer (c : Core) {w : WaitTimeout} (hw : c.tasks.length = w.task + 1)
    (hlist : Assoc.get? c.pendingExternalEventTasks w.key = some w.list)
    (hmem : w.list < c.waitLists.length → w.task ∈ c.waitLists.getD w.list []) :
    Moves env c [] (c.newTask.1.onCompleted c.tasks.length w)
  | waitTimer (c : Core) {w : WaitTimeout} (hw : c.tasks.length = w.task + 1)
    (hlist : Assoc.get? c.pendingExternalEventTasks w.key = some w.list)
    (hmem : w.list < c.waitLists.length → w.task ∈ c.waitLists.getD w.list []) :
    Moves env c [.scheduled c.tasks.length .timer] (c.newTask.1.onCompleted c.tasks.length w)
  | waitTimerFired (c : Core) {w : WaitTimeout} (hw : c.tasks.length = w.task + 1)
    (hlist : Assoc.get? c.pendingExternalEventTasks w.key = some w.list)
    (hmem : w.list < c.waitLists.length → w.task ∈ c.waitLists.getD w.list []) (k : Kind × ActionID) (e : HistoryEvent) (u : Bool) :
    Moves env c [.scheduled c.tasks.length .timer, .delivered k c.tasks.length e u, .fired w.task]
      ((c.newTask.1.resolve c.tasks.length e).onWaitTimeout w)

namespace Ctx

variable {env : SdkEnv} {h : Hist}

theorem Moves.nil (c : Core) : Core.Moves env c [] c := .same rfl (fun _ ha => absurd ha List.not_mem_nil)

theorem moves_onResolution (c : Ctx) (k : Kind × ActionID) (e : HistoryEvent) :
    Core.Moves env c.core (c.resolutionActs k e) (c.onResolution k e).core := by
  unfold onResolution resolutionActs
  cases c.pend.deliverable k with
  | none => exact Moves.nil c.core
  | some t => exact .delivered c.core k t e _

/-- Looking for a buffered resolution does nothing, or delivers it. -/
theorem consume_cases (c : Ctx) (k : Kind × ActionID) :
    (c.consumeBufferedResolution k).core = c.core ∧ c.consumeActs k = [] ∨
    ∃ t e, c.pend.deliverable k = some t ∧ (c.consumeBufferedResolution k).core = c.core.resolve t e ∧
      c.consumeActs k = .delivered k t e (c.pend.unconfirmed k.2) :: c.core.firing t := by
  -- What can be delivered does not depend on the buffer.
  have hsame (buffered : List ((Kind × ActionID) × HistoryEvent)) :
      ({ c.pend with bufferedResolutions := buffered } : Pending).deliverable k =
        c.pend.deliverable k := rfl
  unfold consumeBufferedResolution consumeActs
  cases Assoc.get? c.pend.bufferedResolutions k with
  | none => exact .inl ⟨rfl, rfl⟩
  | some e =>
    dsimp only
    split
    · exact .inl ⟨rfl, rfl⟩
    · unfold onResolution resolutionActs
      simp only [hsame]
      cases c.pend.deliverable k with
      | none => exact .inl ⟨rfl, rfl⟩
      | some t => exact .inr ⟨t, e, rfl, rfl, rfl⟩

theorem moves_consume (c : Ctx) (k : Kind × ActionID) :
    Core.Moves env c.core (c.consumeActs k) (c.consumeBufferedResolution k).core := by
  rcases consume_cases c k with ⟨hcore, hacts⟩ | ⟨t, e, -, hcore, hacts⟩
  · rw [hcore, hacts]
    exact Moves.nil c.core
  · rw [hcore, hacts]
    exact .delivered c.core k t e _

theorem moves_consumeFor (c : Ctx) (ids : List ActionID) :
    Core.Moves env c.core (consumeForActs ids c) (c.consumeFor ids).core := by
  induction ids generalizing c with
  | nil => exact Moves.nil c.core
  | cons id ids ih =>
    unfold consumeFor consumeForActs
    rw [List.foldl_cons]
    cases Assoc.get? c.pend.pendingTasks id with
    | none => exact ih c
    | some t => exact (moves_consume c _).append (ih _)

/-- What scheduling work can do: its task is new, or resolved at once. -/
theorem register_cases (c : Ctx) (actionType : WorkflowActionType) (router : Option TaskRouter)
    (kind : Kind) :
    (c.register actionType router kind).1.core = c.core.newTask.1 ∧
      c.registerActs actionType router kind = [.scheduled c.core.tasks.length kind] ∨
    ∃ k e u, (c.register actionType router kind).1.core =
        c.core.newTask.1.resolve c.core.tasks.length e ∧
      c.registerActs actionType router kind =
        [.scheduled c.core.tasks.length kind, .delivered k c.core.tasks.length e u] := by
  rw [register_eq, registerActs]
  rcases consume_cases (c.registered actionType router kind) (kind, c.pend.sequenceNumber) with
    ⟨hcore, hacts⟩ | ⟨t, e, hdel, hcore, hacts⟩
  · exact .inl ⟨hcore, by rw [hacts]⟩
  · have ht : c.core.tasks.length = t := by
      have hget : Assoc.get? (c.registered actionType router kind).pend.pendingTasks
          c.pend.sequenceNumber = some ⟨kind, c.core.tasks.length⟩ := Assoc.get?_insert_self ..
      unfold Pending.deliverable at hdel
      rw [hget] at hdel
      exact (Option.ite_none_right_eq_some.mp hdel).2 |> Option.some.inj
    subst ht
    refine .inr ⟨(kind, c.pend.sequenceNumber), e,
      (c.registered actionType router kind).pend.unconfirmed c.pend.sequenceNumber, hcore, ?_⟩
    have hfiring : (c.registered actionType router kind).core.firing c.core.tasks.length = [] := by
      have hnew : (c.registered actionType router kind).core.task c.core.tasks.length = {} :=
        Core.task_newTask_self c.core
      unfold Core.firing
      rw [hnew]
      rfl
    rw [hacts, hfiring]

theorem moves_register (c : Ctx) (actionType : WorkflowActionType) (router : Option TaskRouter)
    (kind : Kind) :
    Core.Moves env c.core (c.registerActs actionType router kind)
      (c.register actionType router kind).1.core := by
  rw [register_eq, registerActs]
  exact (Core.Moves.scheduled c.core kind).append
    (moves_consume (c.registered actionType router kind) (kind, c.pend.sequenceNumber))

/-- A wait that stays pending is in the list of its name. -/
theorem waiting_list (c : Ctx) (eventName : String) {list : Nat}
    (hlist : ({ c with core := c.core.newTask.1 }.addWaiter (env.toUpper eventName)
      c.core.tasks.length).2 = list) :
    Assoc.get? (c.waiting env eventName).core.pendingExternalEventTasks (env.toUpper eventName) =
        some list ∧
      (list < (c.waiting env eventName).core.waitLists.length →
        c.core.tasks.length ∈ (c.waiting env eventName).core.waitLists.getD list []) := by
  subst hlist
  unfold waiting addWaiter
  split
  · next list hget =>
    refine ⟨hget, fun hlt => ?_⟩
    have hlt : list < c.core.waitLists.length := by simpa [Core.newTask] using hlt
    simp [List.getD_eq_getElem?_getD, Core.newTask, List.getElem?_eq_getElem hlt]
  · refine ⟨Assoc.get?_insert_self .., fun _ => ?_⟩
    simp [List.getD_eq_getElem?_getD]

theorem moves_waitForSingleEvent (c : Ctx) (eventName : String) (timeout : Duration) :
    Core.Moves env c.core (c.waitActs env eventName timeout)
      (c.waitForSingleEvent env eventName timeout).1.core := by
  rcases waitForSingleEvent_cases env c eventName timeout with
    ⟨e, rest, hbuf, hacts, hd⟩ | ⟨hbuf, ⟨rfl, hacts, hd⟩ | ⟨htimeout, hacts, hd⟩⟩
  · rw [hacts, hd]
    exact .took c.core _ timeout hbuf
  · rw [hacts, hd]
    exact .canceled c.core _ hbuf
  · rw [hacts, hd]
    generalize hlist : ({ c with core := c.core.newTask.1 }.addWaiter (env.toUpper eventName)
      c.core.tasks.length).2 = list
    obtain ⟨hget, hmem⟩ := waiting_list c eventName hlist
    have hlen := length_waiting env c eventName
    rw [← List.singleton_append]
    refine (Core.Moves.waiting c eventName htimeout hbuf).append ?_
    rcases addWaitTimer_cases env c eventName timeout
        ⟨c.core.tasks.length, env.toUpper eventName, list⟩ with
      ⟨-, hacts, hd⟩ | ⟨c', hc', hacts, hd⟩
    · rw [hacts, hd]
      exact .noWaitTimer _ hlen hget hmem
    · rw [hacts, hd]
      rcases register_cases (c.waiting env eventName)
          ((c.waiting env eventName).waitTimer eventName timeout) none .timer with
        ⟨hcore, hacts⟩ | ⟨k, e, u, hcore, hacts⟩
      · -- The timer is not resolved yet.
        rw [← hc'] at hcore
        have hnot : (c'.core.task (c.waiting env eventName).core.tasks.length).isCompleted = false := by
          rw [hcore, Core.task_newTask_self]
        rw [hacts, hnot]
        show Core.Moves env _ _ (c'.core.onCompleted _ _)
        rw [hcore]
        exact .waitTimer _ hlen hget hmem
      · rw [← hc'] at hcore
        have hdone : (c'.core.task (c.waiting env eventName).core.tasks.length).isCompleted = true := by
          rw [hcore]
          exact Core.isCompleted_resolve_newTask ..
        rw [hacts, hdone]
        show Core.Moves env _ _ (c'.core.onCompleted _ _)
        unfold Core.onCompleted
        rw [if_pos hdone, hcore]
        exact .waitTimerFired (w := ⟨c.core.tasks.length, env.toUpper eventName, list⟩) _ hlen hget hmem
          k e u

/-- Every update of a context is made of moves. -/
theorem Acts.moves {c c' : Ctx} {acts : List Act} (hacts : Ctx.Acts env h c acts c') :
    Core.Moves env c.core acts c'.core := by
  induction hacts with
  | nil c => exact Moves.nil c.core
  | append _ _ ih ih' => exact ih.append ih'
  | core c core hcore =>
    have hmail : core.work.mail = c.core.work.mail := congrArg Core.mail hcore
    exact .same hmail (by simp)
  | failedTask c fd => exact .failedTask c.core fd
  | register c actionType router kind => exact moves_register c actionType router kind
  | waitForSingleEvent c eventName timeout => exact moves_waitForSingleEvent c eventName timeout
  | scheduleNewWorkflow c workflowName opts =>
    refine .same ?_ fun a ha => ?_
    · unfold Ctx.scheduleNewWorkflow
      split
      · rfl
      · split
        · rfl
        · split <;> rfl
    · unfold spawnActs at ha
      split at ha
      · split at ha
        · rw [List.mem_singleton.mp ha]
          rfl
        · cases ha
      · cases ha
  | onResolution c k e he =>
    have harrived : Core.Moves env c.core [.arrived e] c.core := .same rfl (by simp [Act.isIdle])
    exact harrived.append (moves_onResolution c k e)
  | onExternalEventRaised c e er he => exact .raised c.core e er he
  | confirmTimer c id =>
    unfold consumeReadyBufferedResolutions consumeReadyActs
    split
    · exact Moves.nil c.core
    · exact moves_consumeFor (c.confirmed id) _
  | dropOptionalTimer c atID hopt =>
    rw [dropOptionalTimer_eq]
    exact moves_consumeFor (c.dropped atID) _
  | _ => exact Moves.nil _

end Ctx

end DurableTask.Task
