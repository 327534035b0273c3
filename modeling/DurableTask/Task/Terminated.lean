import DurableTask.Task.Outcome

/-!
# Terminated replays

Once `ExecutionTerminated` has been processed no event is handled any more, so workflow code that waits
keeps waiting and the actions of the turn are settled. What precedes the termination depends on the
events before it, and on two things that child retry chains look up in the whole history.
-/

namespace DurableTask.Task

variable {σ : Type}

/-! ### The rest of the history -/

/-- What calls read of a history beyond its position. -/
structure Hist.Reads (h h' : Hist) : Prop where
  decision : Ctx.decision h' = Ctx.decision h
  executionID : h'.executionID = h.executionID
  createdInstanceID : h'.createdInstanceID = h.createdInstanceID

namespace Ctx

variable {h h' : Hist} (hr : Hist.Reads h h') (env : SdkEnv) (c : Ctx)
include hr

theorem isPatched_of_reads (patchName : String) : c.isPatched h' patchName = c.isPatched h patchName := by
  unfold isPatched
  rw [hr.decision]

theorem retryChainPatched_of_reads : c.retryChainPatched h' = c.retryChainPatched h := by
  unfold retryChainPatched
  rw [isPatched_of_reads hr]

theorem startChain_of_reads (name : String) (attempt : Attempt) (policy : RetryPolicy)
    (firstInstanceID : Option InstanceID) :
    c.startChain env h' name attempt policy firstInstanceID =
      c.startChain env h name attempt policy firstInstanceID := by
  unfold startChain scheduleTaskWithRetries
  simp only [retryChainPatched_of_reads hr]

theorem callActivity_of_reads (activityName : String) (opts : List CallActivityOption) :
    c.callActivity env h' activityName opts = c.callActivity env h activityName opts := by
  unfold callActivity
  simp only [startChain_of_reads hr]

theorem callChildWorkflow_of_reads (workflowName : String) (opts : List ChildWorkflowOption) :
    c.callChildWorkflow env h' workflowName opts = c.callChildWorkflow env h workflowName opts := by
  unfold callChildWorkflow
  simp only [startChain_of_reads hr, hr.executionID]

theorem setTimerOrigin_of_reads (i : Nat) (id : ActionID) (executionID : String) :
    c.setTimerOrigin h' i id executionID = c.setTimerOrigin h i id executionID := by
  unfold setTimerOrigin firstInstanceID
  rw [hr.createdInstanceID]

end Ctx

/-- The same position in another history. -/
def Hist.rebase (oldEvents newEvents : List HistoryEvent) (h : Hist) : Hist :=
  { h with
    oldEvents := oldEvents, newEvents := newEvents
    isReplaying := decide (0 < h.historyIndex ∧ h.historyIndex ≤ oldEvents.length) }

namespace Machine

variable {sdk : Sdk σ} {m m' : Machine σ} {old new : List HistoryEvent}

def rebase (oldEvents newEvents : List HistoryEvent) (m : Machine σ) : Machine σ :=
  { m with hist := m.hist.rebase oldEvents newEvents }

section Rebase

variable (old new)

@[simp] theorem ctx_rebase (m : Machine σ) : (m.rebase old new).ctx = m.ctx := rfl

@[simp] theorem retry_rebase (m : Machine σ) (r : Nat) : (m.rebase old new).retry r = m.retry r := rfl

@[simp] theorem wrapper_rebase (m : Machine σ) (w : Nat) : (m.rebase old new).wrapper w = m.wrapper w :=
  rfl

@[simp] theorem finishRetry_rebase (m : Machine σ) (r : Nat) (err : AwaitError) :
    (m.rebase old new).finishRetry r err = (m.finishRetry r err).rebase old new := rfl

@[simp] theorem awaitUnder_rebase (m : Machine σ) (f : Frame σ) (task : Nat) (dst : Option Nat) :
    (m.rebase old new).awaitUnder f task dst = (m.awaitUnder f task dst).rebase old new := rfl

@[simp] theorem observeFailure_rebase (m : Machine σ) (r : Nat) (current : CompletableTask) :
    (m.rebase old new).observeFailure r current = (m.observeFailure r current).rebase old new := by
  unfold observeFailure
  split <;> rfl

theorem hist_observeFailure (m : Machine σ) (r : Nat) (current : CompletableTask) :
    (m.observeFailure r current).hist = m.hist := by
  unfold observeFailure
  split <;> rfl

@[simp] theorem awaitRetry_rebase (m : Machine σ) (r : Nat) (dst : Option Nat) :
    (m.rebase old new).awaitRetry r dst = (m.awaitRetry r dst).rebase old new := by
  unfold awaitRetry
  dsimp only
  rw [retry_rebase]
  split
  · split <;> rfl
  · rfl

@[simp] theorem onRetryTimer_rebase (m : Machine σ) (r : Nat) (dst : Option Nat) :
    (m.rebase old new).onRetryTimer r dst = (m.onRetryTimer r dst).rebase old new := by
  let attempt := m.ctx.scheduleAttempt (m.retry r).chain
    ((Assoc.get? m.ctx.ident.dispatchExecutionID r).getD "") true
  exact awaitRetry_rebase old new ({ m with ctx := attempt.1 }.modifyRetry r fun t =>
    { t with retryCount := t.retryCount + 1, current := attempt.2 }) r dst

end Rebase

theorem createRetryTimer_rebase (hr : m.hist.Reads (m.hist.rebase old new)) (chain : Nat)
    (delay : Duration) (executionID : String) :
    (m.rebase old new).createRetryTimer chain delay executionID =
      ((m.createRetryTimer chain delay executionID).1.rebase old new,
        (m.createRetryTimer chain delay executionID).2) := by
  unfold createRetryTimer
  have horigin (c : Ctx) := Ctx.setTimerOrigin_of_reads hr c chain
  simp only [rebase, horigin]

theorem onRetryFailure_rebase (hr : m.hist.Reads (m.hist.rebase old new)) (r : Nat) (dst : Option Nat)
    (err : AwaitError) :
    onRetryFailure sdk (m.rebase old new) r dst err = (onRetryFailure sdk m r dst err).rebase old new := by
  have hr' : (m.observeFailure r (m.ctx.core.task (m.retry r).current)).hist.Reads
      ((m.observeFailure r (m.ctx.core.task (m.retry r).current)).hist.rebase old new) := by
    rw [hist_observeFailure]
    exact hr
  unfold onRetryFailure
  simp only [ctx_rebase, retry_rebase, observeFailure_rebase, finishRetry_rebase,
    createRetryTimer_rebase hr', awaitUnder_rebase, apply_ite (rebase old new)]

theorem onWrapperFailure_rebase (hr : m.hist.Reads (m.hist.rebase old new)) (w : Nat) (dst : Option Nat)
    (err : AwaitError) :
    onWrapperFailure sdk (m.rebase old new) w dst err =
      (onWrapperFailure sdk m w dst err).rebase old new := by
  unfold onWrapperFailure
  simp only [ctx_rebase, wrapper_rebase, createRetryTimer_rebase hr, awaitUnder_rebase,
    apply_ite (rebase old new)]
  rfl

theorem doCall_rebase (hr : m.hist.Reads (m.hist.rebase old new)) (call : Call) (k : Resp → σ) :
    doCall sdk (m.rebase old new) call k = (doCall sdk m call k).rebase old new := by
  cases call with
  | callActivity name opts =>
    unfold doCall
    simp only [rebase, Ctx.callActivity_of_reads hr]
    rfl
  | callChildWorkflow name opts =>
    unfold doCall
    simp only [rebase, Ctx.callChildWorkflow_of_reads hr]
    rfl
  | isPatched patchName =>
    unfold doCall
    simp only [rebase, Ctx.isPatched_of_reads hr]
    rfl
  | await task dst =>
    cases task with
    | retry r =>
      exact awaitRetry_rebase old new
        { m with trace := m.trace ++ [.call (.await (.retry r) dst)], stack := .code k :: m.stack } r dst
    | _ => rfl
  | _ => rfl

theorem stepReturned_rebase (hr : m.hist.Reads (m.hist.rebase old new)) (r : AwaitResult) :
    stepReturned sdk (m.rebase old new) r = (stepReturned sdk m r).map (rebase old new) := by
  rcases m with ⟨hist, ctx, control, stack, trace, errors, handled, buffered⟩
  cases stack with
  | nil => rfl
  | cons f rest =>
    cases f with
    | retryAttempt i dst =>
      cases r with
      | ok v => rfl
      | error err =>
        exact congrArg some (onRetryFailure_rebase
          (m := ⟨hist, ctx, control, rest, trace, errors, handled, buffered⟩) hr i dst err)
    | retryTimer i dst err =>
      cases r with
      | ok v =>
        exact congrArg some (onRetryTimer_rebase old new
          ⟨hist, ctx, control, rest, trace, errors, handled, buffered⟩ i dst)
      | error timerErr => rfl
    | wrapperDelegate w dst =>
      cases r with
      | ok v => rfl
      | error err =>
        exact congrArg some (onWrapperFailure_rebase
          (m := ⟨hist, ctx, control, rest, trace, errors, handled, buffered⟩) hr w dst err)
    | wrapperTimer w dst err executionID => cases r <;> rfl
    | _ => rfl

theorem dispatch_rebase (m : Machine σ) (e : HistoryEvent) :
    dispatch sdk (m.rebase old new) e = (dispatch sdk m e).rebase old new := by
  have hhandle (r : Except ProcessError Ctx) : (m.rebase old new).handle r = (m.handle r).rebase old new := by
    cases r <;> rfl
  rcases e with ⟨eventId, timestamp, body, router, row⟩
  cases body with
  | executionStarted es =>
    show (m.rebase old new).onExecutionStarted sdk es = (m.onExecutionStarted sdk es).rebase old new
    unfold onExecutionStarted
    have hversion : (m.rebase old new).hist.versionName = m.hist.versionName := rfl
    rw [hversion]
    cases sdk.registry.resolveWorkflow es.name m.hist.versionName <;> rfl
  | taskScheduled ts => exact hhandle _
  | childWorkflowInstanceCreated ts => exact hhandle _
  | detachedWorkflowInstanceCreated instanceId => exact hhandle _
  | timerCreated tc => exact hhandle _
  | _ => rfl

theorem processEvent_rebase (m : Machine σ) (e : Nat × HistoryEvent) :
    processEvent sdk (m.rebase old new) e = (processEvent sdk m e).rebase old new := by
  unfold processEvent
  rw [ctx_rebase]
  split
  · rfl
  · split
    · rfl
    · exact dispatch_rebase { m with handled := m.handled ++ [e.1] } e.2

theorem processNextEvent_rebase
    (hnext : (old ++ new)[m.hist.historyIndex]? = m.hist.events[m.hist.historyIndex]?) :
    processNextEvent sdk (m.rebase old new) = (processNextEvent sdk m).map (rebase old new) := by
  unfold processNextEvent Hist.getNextHistoryEvent
  show (((old ++ new)[m.hist.historyIndex]?.map _).map _ : Option (Machine σ)) = _
  rw [hnext]
  cases m.hist.events[m.hist.historyIndex]? with
  | none => rfl
  | some e =>
    have htaken : (m.rebase old new).hist.taken = m.hist.taken.rebase old new := by
      have hlt : (m.hist.historyIndex < old.length) =
          (0 < m.hist.historyIndex + 1 ∧ m.hist.historyIndex + 1 ≤ old.length) := by
        rw [eq_iff_iff]
        omega
      unfold rebase Hist.rebase Hist.taken
      simp only [hlt]
    show some (processEvent sdk { m.rebase old new with hist := (m.rebase old new).hist.taken }
      (m.hist.historyIndex, e)) = _
    rw [htaken]
    exact congrArg some (processEvent_rebase { m with hist := m.hist.taken } (m.hist.historyIndex, e))

/-- A step in another history, if it reads the same in it. -/
theorem step_rebase (hr : m.hist.Reads (m.hist.rebase old new))
    (hnext : (old ++ new)[m.hist.historyIndex]? = m.hist.events[m.hist.historyIndex]?) :
    step sdk (m.rebase old new) = (step sdk m).map (rebase old new) := by
  have hcontrol : (m.rebase old new).control = m.control := rfl
  have hstack : (m.rebase old new).stack = m.stack := rfl
  unfold step
  rw [hcontrol]
  cases m.control with
  | run s =>
    dsimp only
    cases sdk.next s with
    | ret result => rfl
    | call c k => exact congrArg some (doCall_rebase hr c k)
  | returned r => exact stepReturned_rebase hr r
  | loop =>
    dsimp only
    unfold stepLoop
    rw [hstack]
    split
    · exact processNextEvent_rebase hnext
    · rw [ctx_rebase]
      dsimp only
      split
      · rfl
      · exact processNextEvent_rebase hnext
    · next e es rest hs => exact congrArg some (processEvent_rebase { m with stack := .drain es :: rest } e)
    · rfl
    · rfl
  | raised err =>
    dsimp only
    unfold stepRaised
    rw [hstack]
    split <;> rfl
  | done => rfl

/-! ### Until the termination -/

/-- What handling an event other than a termination leaves alone. -/
structure Unterminated (m m' : Machine σ) : Prop where
  historyIndex : m'.hist.historyIndex = m.hist.historyIndex
  isTerminated : m'.ctx.core.isTerminated = m.ctx.core.isTerminated
  suspendedEvents : m'.hist.suspendedEvents = m.hist.suspendedEvents
  drains : m'.drains = m.drains ∨ m'.drains = m.hist.suspendedEvents :: m.drains

theorem unterminated_dispatch (sdk : Sdk σ) (m : Machine σ) {e : HistoryEvent}
    (he : isTerminate e = false) : Unterminated m (dispatch sdk m e) := by
  by_cases hs : isSuspend e = true
  · rcases e with ⟨eventId, timestamp, body, router, row⟩
    cases body with
    | executionSuspended => exact ⟨rfl, rfl, rfl, .inl rfl⟩
    | _ => cases hs
  · by_cases hr : isResume e = true
    · rcases e with ⟨eventId, timestamp, body, router, row⟩
      cases body with
      | executionResumed => exact ⟨rfl, rfl, rfl, .inr rfl⟩
      | _ => cases hr
    · have hplain := plain_dispatch sdk m (Bool.not_eq_true _ ▸ hs) (Bool.not_eq_true _ ▸ hr) he
      refine ⟨hplain.historyIndex, ?_, hplain.suspendedEvents, .inl ?_⟩
      · exact congrArg Flags.isTerminated hplain.flags
      · unfold drains
        rw [hplain.stack]

theorem historyIndex_processEvent (sdk : Sdk σ) (m : Machine σ) (e : Nat × HistoryEvent) :
    (processEvent sdk m e).hist.historyIndex = m.hist.historyIndex := by
  unfold processEvent
  split
  · rfl
  · split
    · rfl
    · by_cases he : isTerminate e.2 = true
      · rcases e with ⟨i, eventId, timestamp, body, router, row⟩
        cases body with
        | executionTerminated => rfl
        | _ => cases he
      · exact (unterminated_dispatch sdk _ (Bool.not_eq_true _ ▸ he)).historyIndex

/-- A step stays at its position, or takes the next event. -/
theorem historyIndex_step (h : step sdk m = some m') :
    m'.hist.historyIndex = m.hist.historyIndex ∨
      m.Waits ∧ m'.hist.historyIndex = m.hist.historyIndex + 1 := by
  cases step_cases h with
  | code hcode h => exact .inl (by rw [(step_code hcode h).hist])
  | next hwaits => exact .inr ⟨hwaits, historyIndex_processEvent ..⟩
  | drain => exact .inl (historyIndex_processEvent ..)
  | _ => exact .inl rfl

/-- No termination was processed or is kept for later, unless there is one among the events taken. -/
structure Unstopped (m : Machine σ) : Prop where
  suspended : ∀ e ∈ m.hist.suspendedEvents, isTerminate e.2 = false
  drains : ∀ es ∈ m.drains, ∀ e ∈ es, isTerminate e.2 = false
  terminated : m.ctx.core.isTerminated = true →
    ∃ e ∈ m.hist.events.take m.hist.historyIndex, isTerminate e = true

theorem isTerminate_of_buffered {e : HistoryEvent} (h : handledWhileSuspended e = false) :
    isTerminate e = false := by
  unfold handledWhileSuspended at h
  unfold isTerminate
  split at h <;> simp_all

namespace Unstopped

theorem of_eq (h : m.Unstopped) (hhist : m'.hist = m.hist) (hterm : m'.ctx.core.isTerminated =
    m.ctx.core.isTerminated) (hdrains : ∀ es ∈ m'.drains, es ∈ m.drains) : m'.Unstopped := by
  refine ⟨hhist ▸ h.suspended, fun es hes => h.drains es (hdrains es hes), fun ht => ?_⟩
  rw [hhist]
  exact h.terminated (hterm ▸ ht)

theorem processEvent (sdk : Sdk σ) {e : Nat × HistoryEvent} (h : m.Unstopped)
    (he : isTerminate e.2 = true → e.2 ∈ m.hist.events.take m.hist.historyIndex) :
    (Machine.processEvent sdk m e).Unstopped := by
  have hindex := historyIndex_processEvent sdk m e
  have hevents : (Machine.processEvent sdk m e).hist.events = m.hist.events :=
    events_of_parts (parts_processEvent e)
  unfold Machine.processEvent at hindex hevents ⊢
  split
  · exact h.of_eq rfl rfl fun _ hes => hes
  · split
    · next hbuf =>
      have hnot : isTerminate e.2 = false := by
        have hkept := (Bool.and_eq_true_iff.mp hbuf).2
        exact isTerminate_of_buffered (by simpa using hkept)
      refine ⟨fun x hx => ?_, h.drains, h.terminated⟩
      rcases List.mem_append.mp hx with hx | hx
      · exact h.suspended x hx
      · exact List.mem_singleton.mp hx ▸ hnot
    · next hterm hbuf =>
      rw [if_neg hterm, if_neg hbuf] at hindex hevents
      by_cases hstop : isTerminate e.2 = true
      · rcases e with ⟨i, eventId, timestamp, body, router, row⟩
        cases body with
        | executionTerminated et =>
          exact ⟨h.suspended, h.drains, fun _ => ⟨_, he hstop, hstop⟩⟩
        | _ => cases hstop
      · have hdisp := unterminated_dispatch sdk { m with handled := m.handled ++ [e.1] }
          (Bool.not_eq_true _ ▸ hstop)
        refine ⟨?_, ?_, fun ht => ?_⟩
        · rw [hdisp.suspendedEvents]
          exact h.suspended
        · rcases hdisp.drains with hd | hd
          · rw [hd]
            exact h.drains
          · rw [hd]
            rintro es (_ | ⟨_, hes⟩)
            · exact h.suspended
            · exact h.drains es hes
        · rw [hindex, hevents]
          exact h.terminated (hdisp.isTerminated ▸ ht)

theorem step (h : m.Unstopped) (hs : Machine.step sdk m = some m') : m'.Unstopped := by
  have hrest {f : Frame σ} {rest : List (Frame σ)} (hstack : m.stack = f :: rest) :
      ∀ es ∈ rest.filterMap Frame.drained, es ∈ m.drains := by
    intro es hes
    unfold Machine.drains
    rw [hstack]
    obtain ⟨g, hg, hd⟩ := List.mem_filterMap.mp hes
    exact List.mem_filterMap.mpr ⟨g, List.mem_cons_of_mem _ hg, hd⟩
  cases step_cases hs with
  | code hcode hs =>
    have hcode := step_code hcode hs
    refine h.of_eq hcode.hist (congrArg Prod.snd hcode.ctx.suspension) fun es hes => ?_
    rwa [hcode.drains] at hes
  | @next e hwaits he =>
    have htake : m.hist.events.take (m.hist.historyIndex + 1) =
        m.hist.events.take m.hist.historyIndex ++ [e] := by
      rw [List.take_add_one, he]
      rfl
    refine processEvent sdk (m := { m with hist := m.hist.taken }) ⟨h.suspended, h.drains, fun ht => ?_⟩
      fun _ => ?_
    · obtain ⟨x, hx, hxt⟩ := h.terminated ht
      exact ⟨x, htake ▸ List.mem_append_left _ hx, hxt⟩
    · show e ∈ m.hist.events.take (m.hist.historyIndex + 1)
      rw [htake]
      exact List.mem_append_right _ (List.mem_singleton_self e)
  | @drain e es rest hc hstack =>
    have hmem : (e :: es) ∈ m.drains := by
      unfold Machine.drains
      rw [hstack]
      exact List.mem_cons_self
    have hnot := h.drains _ hmem e List.mem_cons_self
    refine processEvent sdk (m := { m with stack := .drain es :: rest })
      ⟨h.suspended, ?_, h.terminated⟩ fun ht => ?_
    · rintro xs (_ | ⟨_, hxs⟩) x hx
      · exact h.drains _ hmem x (List.mem_cons_of_mem _ hx)
      · exact h.drains xs (hrest hstack xs hxs) x hx
    · rw [hnot] at ht
      cases ht
  | drained hc hstack =>
    exact ⟨fun _ hx => absurd hx List.not_mem_nil, fun es hes => h.drains es (hrest hstack es hes),
      h.terminated⟩
  | awaited hc hstack => exact h.of_eq rfl rfl (hrest hstack)
  | abandoned hc hstack => exact h.of_eq rfl rfl (hrest hstack)
  | failed hc hstack => exact h.of_eq rfl rfl (hrest hstack)
  | @ended err rest hc hstack =>
    refine h.of_eq rfl ?_ fun _ hes => hes
    unfold Ctx.onStartError
    dsimp only
    split <;> rfl

end Unstopped

theorem unstopped_of_reaches {id : InstanceID} {oldEvents newEvents : List HistoryEvent}
    (h : Transition.Reaches (step sdk) (init id oldEvents newEvents) m) : m.Unstopped :=
  h.invariant ⟨fun _ hx => absurd hx List.not_mem_nil, fun _ hx => absurd hx List.not_mem_nil, nofun⟩
    fun _ _ hx hs => hx.step hs

/-! ### After the termination -/

theorem waits_of_tasks (h : m.Waits) (hcontrol : m'.control = .loop) (hstack : m'.stack = m.stack)
    (htasks : m'.ctx.core.tasks = m.ctx.core.tasks) : m'.Waits := by
  refine ⟨hcontrol, ?_⟩
  rw [hstack]
  refine h.2.imp_right fun ⟨task, dst, htop, hrunning⟩ => ⟨task, dst, htop, ?_⟩
  unfold Core.task at hrunning ⊢
  rw [htasks]
  exact hrunning

/-- The step that processes the termination. -/
theorem step_terminate {e : HistoryEvent} {et : ExecutionTerminatedEvent} (hwaits : m.Waits)
    (he : m.hist.events[m.hist.historyIndex]? = some e) (het : e.eventType = .executionTerminated et)
    (ht : m.ctx.core.isTerminated = false) :
    step sdk m = some { m with
      hist := m.hist.taken, ctx := m.ctx.onExecutionTerminated et
      handled := m.handled ++ [m.hist.historyIndex], control := .loop } := by
  rw [step_dispatch sdk hwaits he ht (.inr (by simp [handledWhileSuspended, het]))]
  unfold dispatch
  rw [het]
  rfl

/-- A terminated replay drops what is left of its history. -/
structure Stopped (m m' : Machine σ) : Prop where
  waits : m'.Waits
  ctx : m'.ctx = m.ctx
  trace : m'.trace = m.trace

theorem stopped_of_reaches (hwaits : m.Waits) (ht : m.ctx.core.isTerminated = true)
    (h : Transition.Reaches (step sdk) m m') : Stopped m m' := by
  refine h.invariant (I := Stopped m) ⟨hwaits, rfl, rfl⟩ fun x y hx hs => ?_
  rw [step_of_waits hx.waits] at hs
  obtain ⟨⟨e, hist⟩, -, rfl⟩ := Option.map_eq_some_iff.mp hs
  have hdrop : processEvent sdk { x with hist := hist } e = { x with hist := hist, control := .loop } := by
    unfold processEvent
    exact if_pos (hx.ctx ▸ ht)
  show Stopped m (processEvent sdk { x with hist := hist } e)
  rw [hdrop]
  exact ⟨waits_of_tasks hx.waits rfl rfl rfl, hx.ctx, hx.trace⟩

end Machine

/-! ### The completions of a terminated replay -/

/-- The completions that are pending. -/
def Pending.completions (p : Pending) : List WorkflowAction :=
  (p.pendingActions.map (·.2.action)).filter (·.completionStatus.isSome)

namespace Ctx

variable {c : Ctx} {et : ExecutionTerminatedEvent}

/-- The completion a termination adds. -/
def termination (c : Ctx) (et : ExecutionTerminatedEvent) : WorkflowAction :=
  ⟨c.pend.sequenceNumber, .completeWorkflow { workflowStatus := .terminated, result := et.input }, none⟩

/-- How a workflow ends that is terminated: as it has completed before, if it did not continue as
new. -/
def outcome (c : Ctx) (et : ExecutionTerminatedEvent) : WorkflowAction :=
  match c.pend.completions with
  | a :: _ => if a.completionStatus = some .continuedAsNew then c.termination et else a
  | [] => c.termination et

theorem outcome_ne_continuedAsNew (c : Ctx) (et : ExecutionTerminatedEvent) :
    (c.outcome et).completionStatus ≠ some .continuedAsNew := by
  unfold outcome
  split
  · split
    · nofun
    · next hne => exact hne
  · nofun

theorem completions_of_none (h : c.pendingCompletion = none) : c.pend.completions = [] := by
  have hnone := List.findSome?_eq_none_iff.mp h
  refine List.filter_eq_nil_iff.mpr fun a ha => ?_
  obtain ⟨x, hx, rfl⟩ := List.mem_map.mp ha
  have hx := hnone x hx
  simpa using hx

theorem completions_of_some {id : ActionID} {status : OrchestrationStatus}
    (h : c.pendingCompletion = some (id, status)) (hone : c.pend.completions.length ≤ 1) :
    ∃ l₁ a l₂, c.pend.pendingActions = l₁ ++ (id, a) :: l₂ ∧ a.action.completionStatus = some status ∧
      ∀ x ∈ l₁ ++ l₂, x.2.action.completionStatus = none := by
  obtain ⟨l₁, x, l₂, hsplit, hx, hl₁⟩ := List.findSome?_eq_some_iff.mp h
  obtain ⟨status', hstatus, heq⟩ := Option.map_eq_some_iff.mp hx
  obtain ⟨rfl, rfl⟩ := Prod.mk.inj heq
  refine ⟨l₁, x.2, l₂, hsplit, hstatus, fun y hy => ?_⟩
  rcases List.mem_append.mp hy with hy | hy
  · simpa using hl₁ y hy
  · unfold Pending.completions at hone
    simp only [hsplit, List.map_append, List.map_cons, List.filter_append, List.filter_cons, hstatus,
      Option.isSome_some, if_true, List.length_append, List.length_cons] at hone
    have hnil : ((l₂.map (·.2.action)).filter (·.completionStatus.isSome)) = [] :=
      List.length_eq_zero_iff.mp (by omega)
    have hy := List.filter_eq_nil_iff.mp hnil _ (List.mem_map_of_mem hy)
    simpa using hy

theorem completions_append (l₁ l₂ : List (ActionID × PendingAction)) :
    ((l₁ ++ l₂).map (·.2.action)).filter (·.completionStatus.isSome) =
      (l₁.map (·.2.action)).filter (·.completionStatus.isSome) ++
        (l₂.map (·.2.action)).filter (·.completionStatus.isSome) := by
  rw [List.map_append, List.filter_append]

theorem completions_eq_nil {l : List (ActionID × PendingAction)}
    (h : ∀ x ∈ l, x.2.action.completionStatus = none) :
    (l.map (·.2.action)).filter (·.completionStatus.isSome) = [] := by
  refine List.filter_eq_nil_iff.mpr fun a ha => ?_
  obtain ⟨x, hx, rfl⟩ := List.mem_map.mp ha
  simp [h x hx]

/-- The termination is the only completion, if there was none. -/
theorem completions_setTerminated (h : ∀ x ∈ c.pend.pendingActions, x.2.action.completionStatus = none) :
    (c.setCompleteInternal et.input .terminated none).pend.completions = [c.termination et] := by
  show ((Assoc.insert c.pend.pendingActions c.pend.sequenceNumber ⟨c.termination et, none⟩).map
    (·.2.action)).filter (·.completionStatus.isSome) = _
  unfold Assoc.insert
  rw [completions_append, completions_eq_nil fun x hx => h x (Assoc.mem_erase.mp hx).1]
  rfl

/-- A terminated workflow has one completion, if it had at most one. -/
theorem completions_onExecutionTerminated (et : ExecutionTerminatedEvent)
    (hone : c.pend.completions.length ≤ 1) :
    (c.onExecutionTerminated et).pend.completions = [c.outcome et] := by
  have hpend : ({ c with core := { c.core with isTerminated := true } } : Ctx).pendingCompletion =
      c.pendingCompletion := rfl
  unfold onExecutionTerminated
  dsimp only
  rw [hpend]
  cases hc : c.pendingCompletion with
  | none =>
    have hnil := completions_of_none hc
    have hall : ∀ x ∈ c.pend.pendingActions, x.2.action.completionStatus = none := by
      intro x hx
      have hx := List.filter_eq_nil_iff.mp hnil _ (List.mem_map_of_mem hx)
      simpa using hx
    unfold outcome
    rw [hnil]
    exact completions_setTerminated (c := { c with core := { c.core with isTerminated := true } }) hall
  | some y =>
    obtain ⟨id, status⟩ := y
    obtain ⟨l₁, a, l₂, hsplit, hstatus, hrest⟩ := completions_of_some hc hone
    have honly : c.pend.completions = [a.action] := by
      unfold Pending.completions
      rw [hsplit, completions_append, completions_eq_nil fun x hx => hrest x (List.mem_append_left _ hx),
        List.map_cons, List.filter_cons_of_pos (by simp [hstatus]),
        completions_eq_nil fun x hx => hrest x (List.mem_append_right _ hx)]
      rfl
    unfold outcome
    rw [honly]
    cases status with
    | continuedAsNew =>
      dsimp only
      rw [if_pos hstatus]
      refine completions_setTerminated
        (c := removeAction { c with core := { c.core with isTerminated := true } } id) fun x hx => ?_
      obtain ⟨hx, hne⟩ := Assoc.mem_erase.mp hx
      have hx : x ∈ l₁ ++ (id, a) :: l₂ := hsplit ▸ hx
      rcases List.mem_append.mp hx with hx | hx
      · exact hrest x (List.mem_append_left _ hx)
      · rcases List.mem_cons.mp hx with rfl | hx
        · exact absurd rfl hne
        · exact hrest x (List.mem_append_right _ hx)
    | _ =>
      dsimp only
      rw [if_neg (by simp [hstatus])]
      exact honly

/-- The completions among the actions of a terminated workflow. -/
theorem completions_actions (h : c.core.isTerminated = true) {a : WorkflowAction}
    (hone : c.pend.completions = [a]) :
    c.actions.filter (·.completionStatus.isSome) = [withCarryover c.core a] := by
  have hperm := (perm_actions fun _ => h).filter (·.completionStatus.isSome)
  have hcarry : (fun a : WorkflowAction => a.completionStatus.isSome) ∘ withCarryover c.core =
      fun a => a.completionStatus.isSome :=
    funext fun a => by rw [Function.comp, (withCarryover_frame c.core a).2.2.1]
  have hkept : ((c.pend.pendingActions.map (·.2.action)).filter (!isWithheld c.pend ·)).filter
      (·.completionStatus.isSome) = c.pend.completions := by
    rw [List.filter_filter]
    refine List.filter_congr fun a _ => ?_
    rcases a with ⟨id, actionType, router⟩
    cases actionType <;> rfl
  rw [List.filter_map, hcarry, hkept, hone] at hperm
  exact List.perm_singleton.mp hperm

end Ctx

/-! ### The termination of a replay -/

namespace Machine

variable {sdk : Sdk σ} {m m' : Machine σ} {id : InstanceID} {old new old' new' p q q' : List HistoryEvent}
  {t : HistoryEvent}

/-- A replay that has not come to `t` yet, in a history with another rest after it. -/
theorem reads_rebase (hevents : old ++ new = p ++ t :: q) (hevents' : old' ++ new' = p ++ t :: q')
    (hexec : ({ oldEvents := old', newEvents := new' } : Hist).executionID =
      ({ oldEvents := old, newEvents := new } : Hist).executionID)
    (hcreated : ({ oldEvents := old', newEvents := new' } : Hist).createdInstanceID =
      ({ oldEvents := old, newEvents := new } : Hist).createdInstanceID)
    (hparts : m.parts = (old, new)) (hindex : m.hist.historyIndex ≤ p.length) :
    m.hist.Reads (m.hist.rebase old' new') ∧
      (old' ++ new')[m.hist.historyIndex]? = m.hist.events[m.hist.historyIndex]? := by
  have hold : m.hist.oldEvents = old := congrArg Prod.fst hparts
  have hnew : m.hist.newEvents = new := congrArg Prod.snd hparts
  have hev : m.hist.events = p ++ t :: q := by
    unfold Hist.events
    rw [hold, hnew, hevents]
  refine ⟨⟨funext fun patchName => ?_, ?_, ?_⟩, ?_⟩
  · have hlong : ¬(p ++ t :: q).length ≤ m.hist.historyIndex := by
      rw [List.length_append, List.length_cons]
      omega
    have hlong' : ¬(p ++ t :: q').length ≤ m.hist.historyIndex := by
      rw [List.length_append, List.length_cons]
      omega
    unfold Ctx.decision
    rw [hev]
    show (m.hist.historyPatches.contains patchName ||
      decide ((old' ++ new').length ≤ m.hist.historyIndex)) = _
    rw [hevents', decide_eq_false hlong, decide_eq_false hlong']
  · exact hexec.trans (by unfold Hist.executionID; rw [hold, hnew])
  · refine hcreated.trans (funext fun id => ?_)
    unfold Hist.createdInstanceID Hist.events
    rw [hold, hnew]
  · rw [hevents', hev]
    rcases Nat.lt_or_eq_of_le hindex with hlt | heq
    · rw [List.getElem?_append_left hlt, List.getElem?_append_left hlt]
    · rw [heq]
      simp

theorem historyIndex_mono (h : Transition.Reaches (step sdk) m m') :
    m.hist.historyIndex ≤ m'.hist.historyIndex :=
  h.invariant (I := fun x => m.hist.historyIndex ≤ x.hist.historyIndex) (Nat.le_refl _)
    fun _ _ hx hs => by
      rcases historyIndex_step hs with heq | ⟨-, heq⟩ <;> rw [heq] <;> omega

/-- The replays of two histories are the same until the event after their common part. -/
theorem reaches_rebase (hevents : old ++ new = p ++ t :: q) (hevents' : old' ++ new' = p ++ t :: q')
    (hexec : ({ oldEvents := old', newEvents := new' } : Hist).executionID =
      ({ oldEvents := old, newEvents := new } : Hist).executionID)
    (hcreated : ({ oldEvents := old', newEvents := new' } : Hist).createdInstanceID =
      ({ oldEvents := old, newEvents := new } : Hist).createdInstanceID)
    (h : Transition.Reaches (step sdk) (init id old new) m) (hindex : m.hist.historyIndex ≤ p.length) :
    Transition.Reaches (step sdk) (init id old' new') (m.rebase old' new') := by
  have hstep : ∀ (a b x : Machine σ), x = a.rebase old' new' ∧ a.parts = (old, new) →
      step sdk a = some b → Transition.Reaches (step sdk) b m →
      ∃ y, step sdk x = some y ∧ y = b.rebase old' new' ∧ b.parts = (old, new) := by
    rintro a b x ⟨rfl, hparts⟩ hs hend
    have hle : a.hist.historyIndex ≤ p.length := (historyIndex_mono (hend.head hs)).trans hindex
    obtain ⟨hreads, hnext⟩ := reads_rebase hevents hevents' hexec hcreated hparts hle
    refine ⟨b.rebase old' new', ?_, rfl, (parts_step hs).trans hparts⟩
    rw [step_rebase hreads hnext, hs]
    rfl
  obtain ⟨x, hx, rfl, -⟩ := h.simulate (x := (init id old new).rebase old' new') ⟨rfl, rfl⟩ hstep
  have hinit : (init id old new : Machine σ).rebase old' new' = init id old' new' := by
    simp [init, rebase, Hist.rebase]
  rwa [hinit] at hx

/-- The state in which a replay without errors processes `t`. -/
theorem reaches_terminate {et : ExecutionTerminatedEvent} (hevents : old ++ new = p ++ t :: q)
    (ht : t.eventType = .executionTerminated et) (hp : ∀ e ∈ p, isTerminate e = false)
    (hreach : Transition.Reaches (step sdk) (init id old new) m') (hhalt : step sdk m' = none)
    (herr : m'.errors = []) :
    ∃ m m₁, Transition.Reaches (step sdk) (init id old new) m ∧ m.Waits ∧
      m.hist.historyIndex = p.length ∧ step sdk m = some m₁ ∧ Transition.Reaches (step sdk) m₁ m' ∧
      m₁ = { m with
        hist := m.hist.taken, ctx := m.ctx.onExecutionTerminated et
        handled := m.handled ++ [m.hist.historyIndex], control := .loop } := by
  have hconsumed := (blocked_of_halted (wellFormed_of_reaches hreach) herr hhalt).consumed
  rw [events_of_reaches hreach] at hconsumed
  have hpassed : p.length < m'.hist.historyIndex := by
    have hlen : (old ++ new).length = p.length + (q.length + 1) := by
      rw [hevents, List.length_append, List.length_cons]
    have hconsumed : (old ++ new).length ≤ m'.hist.historyIndex := hconsumed
    omega
  obtain ⟨m, m₁, hm, hs, hm', hindex, hindex₁⟩ := hreach.crossing
    (μ := fun m => m.hist.historyIndex) (fun x y hs => by
      rcases historyIndex_step hs with heq | ⟨-, heq⟩ <;> omega) (Nat.zero_le _) hpassed
  have hwaits : m.Waits := by
    rcases historyIndex_step hs with heq | ⟨hwaits, -⟩
    · omega
    · exact hwaits
  have hev : m.hist.events = p ++ t :: q := (events_of_reaches hm).trans hevents
  have hnext : m.hist.events[m.hist.historyIndex]? = some t := by
    rw [hev, hindex]
    simp
  have hrunning : m.ctx.core.isTerminated = false := by
    by_contra hterm
    obtain ⟨e, he, hstop⟩ := (unstopped_of_reaches hm).terminated (by simpa using hterm)
    rw [hev, hindex, List.take_left'] at he
    · rw [hp e he] at hstop
      cases hstop
    · rfl
  have hstep : step sdk m = some _ := step_terminate hwaits hnext ht hrunning
  exact ⟨m, m₁, hm, hwaits, hindex, hs, hm', Option.some.inj (hs.symm.trans hstep)⟩

end Machine

/-- A terminated replay stops the workflow. After `ExecutionTerminated` was processed the workflow code
neither makes a call nor observes a result. If the workflow has completed at most once before, its only
completion is that one, or the termination if there is none or it continued as new. The actions do not
depend on the events after the termination, as long as child retry chains find the same execution and
the same recorded children in the two histories. -/
theorem terminated_replay_stops (sdk : Sdk σ) {id : InstanceID} {old new p q : List HistoryEvent}
    {t : HistoryEvent} {et : ExecutionTerminatedEvent} (hevents : old ++ new = p ++ t :: q)
    (ht : t.eventType = .executionTerminated et) (hp : ∀ e ∈ p, isTerminate e = false)
    {m' : Machine σ} (hreach : Transition.Reaches (Machine.step sdk) (.init id old new) m')
    (hhalt : Machine.step sdk m' = none) (herr : m'.errors = []) :
    ∃ m, Transition.Reaches (Machine.step sdk) (.init id old new) m ∧
      m.Waits ∧ m.hist.historyIndex = p.length ∧ Transition.Reaches (Machine.step sdk) m m' ∧
      m'.trace = m.trace ∧
      (m.ctx.pend.completions.length ≤ 1 →
        (∀ a ∈ m'.ctx.actions, a.completionStatus ≠ some .continuedAsNew) ∧
        m'.ctx.actions.filter (·.completionStatus.isSome) =
          [Ctx.withCarryover m.ctx.core (m.ctx.outcome et)]) ∧
      ∀ {old' new' q' : List HistoryEvent} {m'' : Machine σ}, old' ++ new' = p ++ t :: q' →
        ({ oldEvents := old', newEvents := new' } : Hist).executionID =
          ({ oldEvents := old, newEvents := new } : Hist).executionID →
        ({ oldEvents := old', newEvents := new' } : Hist).createdInstanceID =
          ({ oldEvents := old, newEvents := new } : Hist).createdInstanceID →
        Transition.Reaches (Machine.step sdk) (.init id old' new') m'' →
        Machine.step sdk m'' = none → m''.ctx.actions = m'.ctx.actions := by
  obtain ⟨m, m₁, hm, hwaits, hindex, hs, hm', rfl⟩ :=
    Machine.reaches_terminate hevents ht hp hreach hhalt herr
  have hterm : (m.ctx.onExecutionTerminated et).core = { m.ctx.core with isTerminated := true } :=
    Machine.InTurn.core_terminated m.ctx et
  have hflag : (m.ctx.onExecutionTerminated et).core.isTerminated = true := by rw [hterm]
  -- Whatever the machine has taken, it waits as before and drops what is left.
  have hstops {x y : Machine σ} (hxy : Transition.Reaches (Machine.step sdk) x y)
      (hx : x.stack = m.stack) (hc : x.control = .loop)
      (hctx : x.ctx = m.ctx.onExecutionTerminated et) : Machine.Stopped x y :=
    Machine.stopped_of_reaches (Machine.waits_of_tasks hwaits hc hx (by rw [hctx, hterm]))
      (hctx ▸ hflag) hxy
  have hstop := hstops hm' rfl rfl rfl
  refine ⟨m, hm, hwaits, hindex, hm'.head hs, hstop.trace, fun hone => ?_, ?_⟩
  · have hcompletions := Ctx.completions_actions hflag
      (Ctx.completions_onExecutionTerminated et hone)
    have hcarry : Ctx.withCarryover (m.ctx.onExecutionTerminated et).core =
        Ctx.withCarryover m.ctx.core := by rw [hterm]; rfl
    rw [hcarry] at hcompletions
    rw [hstop.ctx]
    refine ⟨fun a ha hcan => ?_, hcompletions⟩
    have hmem : a ∈ (m.ctx.onExecutionTerminated et).actions.filter (·.completionStatus.isSome) :=
      List.mem_filter.mpr ⟨ha, by rw [hcan]; rfl⟩
    rw [hcompletions, List.mem_singleton] at hmem
    rw [hmem, (Ctx.withCarryover_frame m.ctx.core _).2.2.1] at hcan
    exact Ctx.outcome_ne_continuedAsNew m.ctx et hcan
  · intro old' new' q' m'' hevents' hexec hcreated hreach'' hhalt''
    have hbase := Machine.reaches_rebase hevents hevents' hexec hcreated hm (Nat.le_of_eq hindex)
    obtain ⟨hreads, hnext⟩ := Machine.reads_rebase hevents hevents' hexec hcreated
      (Machine.parts_of_reaches hm) (Nat.le_of_eq hindex)
    have hs' : Machine.step sdk (m.rebase old' new') = _ := Machine.step_rebase hreads hnext
    rw [hs] at hs'
    have hend := hreach''.of_halted hhalt'' (hbase.tail hs')
    have hstop' := hstops hend rfl rfl rfl
    rw [hstop'.ctx, hstop.ctx]
    rfl

namespace TerminatedExample

/-- One workflow continues as new, another one calls a child workflow with retries. -/
inductive Flow
  | renew
  | spawn
  | waiting (task : TaskRef)
  | finished

def next : Flow → Step Flow
  | .renew => .call (.continueAsNew .nil false) fun _ => .finished
  | .spawn =>
    .call (.callChildWorkflow "B" [.retryPolicy (some
      { maxAttempts := 3, initialRetryInterval := 2000000 })]) fun
    | .task t => .waiting t
    | _ => .finished
  | .waiting t => .call (.await t none) fun _ => .finished
  | .finished => .ret (.ok .nil)

def env : SdkEnv :=
  { toUpper := id, unmarshal := fun _ s => .ok s, handle := fun _ _ => true
    nextDelayMs := fun ms _ _ => ms, float64 := fun n => n
    childInstanceID := fun _ _ _ => "generated", uuid := fun _ => "" }

def sdk : Sdk Flow :=
  { env := env, registry := { workflows := [("renew", .renew), ("spawn", .spawn)] }, next := next }

def start (name : String) : HistoryEvent :=
  { eventType := .executionStarted { name := name, workflowInstance := ⟨"i", some "e1"⟩ } }

def terminate : HistoryEvent := { eventType := .executionTerminated { input := some "stop", recurse := false } }

def childFailed : HistoryEvent :=
  { eventType := .childWorkflowInstanceFailed { taskScheduledId := 0, failureDetails := none } }

def childCreated : HistoryEvent :=
  { eventId := 0
    eventType := .childWorkflowInstanceCreated { instanceId := "recorded", name := "B" } }

def replay (events : List HistoryEvent) : Machine Flow := (Machine.init "i" [] events).run sdk 40

/-- A workflow function that was started twice has continued as new twice, and the termination takes back
one of the two. A child recorded after the termination names the origin of the back-off timer of a
child that failed before it. -/
theorem second_renewal_kept_and_later_child_named :
    ((Machine.step sdk (replay [start "renew", start "renew", terminate])).isNone ∧
      (replay [start "renew", start "renew", terminate]).errors = [] ∧
      ∃ a ∈ (replay [start "renew", start "renew", terminate]).ctx.actions,
        a.completionStatus = some .continuedAsNew) ∧
    (Machine.step sdk (replay [start "spawn", childFailed, terminate])).isNone ∧
      (replay [start "spawn", childFailed, terminate]).errors = [] ∧
      (Machine.step sdk (replay [start "spawn", childFailed, terminate, childCreated])).isNone ∧
      (replay [start "spawn", childFailed, terminate, childCreated]).errors = [] ∧
      (replay [start "spawn", childFailed, terminate, childCreated]).ctx.actions ≠
        (replay [start "spawn", childFailed, terminate]).ctx.actions := by
  decide +kernel

/-- The child may be recorded before the termination; its result after it changes nothing. -/
theorem later_result_dropped :
    (replay [start "spawn", childFailed, childCreated, terminate, childFailed, start "renew"]).ctx.actions =
      (replay [start "spawn", childFailed, childCreated, terminate]).ctx.actions := by
  have hevents : ([] : List HistoryEvent) ++ [start "spawn", childFailed, childCreated, terminate] =
      [start "spawn", childFailed, childCreated] ++ terminate :: [] := rfl
  have hevents' : ([] : List HistoryEvent) ++
        [start "spawn", childFailed, childCreated, terminate, childFailed, start "renew"] =
      [start "spawn", childFailed, childCreated] ++ terminate :: [childFailed, start "renew"] := rfl
  obtain ⟨m, -, -, -, -, -, -, hsame⟩ := terminated_replay_stops sdk hevents rfl (by decide)
    (Machine.reaches_run sdk (Machine.init "i" [] _) 40) (Option.isNone_iff_eq_none.mp (by decide +kernel))
    (by decide +kernel)
  exact hsame hevents' rfl rfl (Machine.reaches_run sdk (Machine.init "i" [] _) 40)
    (Option.isNone_iff_eq_none.mp (by decide +kernel))

end TerminatedExample

end DurableTask.Task
