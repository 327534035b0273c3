import DurableTask.Task.Aligned
import DurableTask.Task.WellFormed

/-!
# Two replays in step: workflow code

Two machines in the same state of the workflow, with the same frames, take the same steps of workflow
code: the calls, the loops of `retryTask.Await` and `taskWrapper.Await`, and the return of an `Await`.
Events that are still to be drained may differ in the version recorded in a `WorkflowStarted` event.
-/

namespace DurableTask.Task

/-- The version `ProcessWorkItem` records after a turn, in the `WorkflowStarted` event at a position
of the history. -/
structure Recording where
  position : Nat
  version : Option WorkflowVersion

/-- An event of the turn as a later replay sees it. -/
def Recording.amend (v : Recording) (e : Nat × HistoryEvent) : Nat × HistoryEvent :=
  if e.1 = v.position then (e.1, { e.2 with eventType := .workflowStarted v.version }) else e

def Frame.amend {σ : Type} (v : Recording) : Frame σ → Frame σ
  | .drain events => .drain (events.map v.amend)
  | f => f

theorem Frame.amend_of_isDrain {σ : Type} (v : Recording) {f : Frame σ} (hf : f.isDrain = false) :
    f.amend v = f := by
  cases f <;> first | rfl | cases hf

namespace Machine

variable {σ : Type} {v : Recording} {same : Bool} {b : ActionID}
  {T : List (ActionID × PendingTask)} {sdk sdk' : Sdk σ} {m m' : Machine σ}

/-- The same state of the workflow and the same frames. -/
structure CodeSim (v : Recording) (same : Bool) (b : ActionID)
    (T : List (ActionID × PendingTask)) (m m' : Machine σ) : Prop where
  ctx : Ctx.Aligned same b T m.ctx m'.ctx
  control : m'.control = m.control
  stack : m'.stack = m.stack.map (Frame.amend v)
  trace : m'.trace = m.trace

/-- The same workflow code on the same or on two releases of the SDK. -/
structure Sdks (same : Bool) (sdk sdk' : Sdk σ) : Prop where
  env : Engines same sdk.env sdk'.env
  registry : sdk'.registry = sdk.registry
  next : sdk'.next = sdk.next

theorem Sdks.refl (sdk : Sdk σ) : Sdks true sdk sdk :=
  ⟨⟨rfl, rfl, rfl, rfl, rfl, rfl⟩, rfl, rfl⟩

namespace CodeSim

theorem respond (h : CodeSim v same b T m m') {c c' : Ctx} (hc : Ctx.Aligned same b T c c') (k : Resp → σ)
    {r r' : Resp} (hr : r' = r) : CodeSim v same b T (m.respond k c r) (m'.respond k c' r') :=
  ⟨hc, by rw [hr]; rfl, h.stack, by subst hr; exact congrArg (· ++ [.resp r']) h.trace⟩

theorem awaitTask (h : CodeSim v same b T m m') (task : Nat) (dst : Option Nat) :
    CodeSim v same b T (m.awaitTask task dst) (m'.awaitTask task dst) :=
  ⟨h.ctx, rfl, congrArg (Frame.await task dst :: ·) h.stack, h.trace⟩

theorem push (h : CodeSim v same b T m m') {f : Frame σ} (hf : f.isDrain = false) :
    CodeSim v same b T { m with stack := f :: m.stack } { m' with stack := f :: m'.stack } := by
  refine ⟨h.ctx, h.control, ?_, h.trace⟩
  rw [List.map_cons, Frame.amend_of_isDrain v hf, ← h.stack]

theorem awaitUnder (h : CodeSim v same b T m m') {f : Frame σ} (hf : f.isDrain = false) (task : Nat)
    (dst : Option Nat) : CodeSim v same b T (m.awaitUnder f task dst) (m'.awaitUnder f task dst) :=
  (h.push hf).awaitTask task dst

theorem setCtx (h : CodeSim v same b T m m') {c c' : Ctx} (hc : Ctx.Aligned same b T c c') :
    CodeSim v same b T { m with ctx := c } { m' with ctx := c' } :=
  ⟨hc, h.control, h.stack, h.trace⟩

theorem setControl (h : CodeSim v same b T m m') (control : Control σ) :
    CodeSim v same b T { m with control := control } { m' with control := control } :=
  ⟨h.ctx, rfl, h.stack, h.trace⟩

theorem retry (h : CodeSim v same b T m m') (r : Nat) : m'.retry r = m.retry r := by
  unfold Machine.retry
  rw [h.ctx.core]

theorem wrapper (h : CodeSim v same b T m m') (w : Nat) : m'.wrapper w = m.wrapper w := by
  unfold Machine.wrapper
  rw [h.ctx.core]

theorem task (h : CodeSim v same b T m m') (t : Nat) : m'.ctx.core.task t = m.ctx.core.task t := by
  rw [h.ctx.core]

theorem modifyRetry (h : CodeSim v same b T m m') (r : Nat) (f : RetryTask → RetryTask) :
    CodeSim v same b T (m.modifyRetry r f) (m'.modifyRetry r f) :=
  h.setCtx (h.ctx.setCore (by rw [h.ctx.core]))

theorem awaitRetry (h : CodeSim v same b T m m') (r : Nat) (dst : Option Nat) :
    CodeSim v same b T (m.awaitRetry r dst) (m'.awaitRetry r dst) := by
  unfold Machine.awaitRetry
  dsimp only
  rw [h.retry]
  split
  · split
    · exact h.setControl _
    · exact h.awaitTask _ _
  · exact h.awaitUnder rfl _ _

theorem finishRetry (h : CodeSim v same b T m m') (r : Nat) (err : AwaitError) :
    CodeSim v same b T (m.finishRetry r err) (m'.finishRetry r err) :=
  (h.modifyRetry r _).setControl _

theorem observeFailure (h : CodeSim v same b T m m') (r : Nat) (current : CompletableTask) :
    CodeSim v same b T (m.observeFailure r current) (m'.observeFailure r current) := by
  unfold Machine.observeFailure
  split
  · exact h
  · exact (h.modifyRetry r _).setCtx ((h.modifyRetry r _).ctx.ident _ _)

theorem createRetryTimer (h : CodeSim v same b T m m') (chain : Nat) (delay : Duration)
    (executionID executionID' : String) :
    CodeSim v same b T (m.createRetryTimer chain delay executionID).1
        (m'.createRetryTimer chain delay executionID').1 ∧
      (m'.createRetryTimer chain delay executionID').2 =
        (m.createRetryTimer chain delay executionID).2 := by
  have hname : (m'.ctx.chain chain).name = (m.ctx.chain chain).name := by rw [h.ctx.chain]
  unfold Machine.createRetryTimer
  rw [hname]
  exact ⟨h.setCtx (h.ctx.createRetryTimer _ delay chain executionID executionID'),
    (h.ctx.createTimerInternal (some (m.ctx.chain chain).name) delay).2⟩

theorem computeNextDelay (henv : Engines same sdk.env sdk'.env) (now : Time) (policy : RetryPolicy)
    (attempt : Nat) (firstAttempt : Time) (err : AwaitError) :
    Ctx.computeNextDelay sdk'.env now policy attempt firstAttempt err =
      Ctx.computeNextDelay sdk.env now policy attempt firstAttempt err := by
  unfold Ctx.computeNextDelay
  rw [henv.handle, henv.nextDelayMs, henv.float64]

theorem onRetryFailure (h : CodeSim v same b T m m') (henv : Engines same sdk.env sdk'.env) (r : Nat)
    (dst : Option Nat) (err : AwaitError) :
    CodeSim v same b T (Machine.onRetryFailure sdk m r dst err)
      (Machine.onRetryFailure sdk' m' r dst err) := by
  unfold Machine.onRetryFailure
  dsimp only
  rw [h.retry, h.task]
  split
  · exact h.finishRetry r err
  · have hobs := h.observeFailure r (m.ctx.core.task (m.retry r).current)
    rw [hobs.ctx.chain]
    split
    · exact hobs.finishRetry r err
    · rw [computeNextDelay henv, hobs.ctx.core]
      split
      · exact hobs.finishRetry r err
      · obtain ⟨htimer, htask⟩ := hobs.createRetryTimer (m.retry r).chain _
          ((Assoc.get? (m.observeFailure r
            (m.ctx.core.task (m.retry r).current)).ctx.ident.dispatchExecutionID r).getD "") _
        rw [htask]
        exact htimer.awaitUnder rfl _ _

theorem onRetryTimer (h : CodeSim v same b T m m') (r : Nat) (dst : Option Nat) :
    CodeSim v same b T (m.onRetryTimer r dst) (m'.onRetryTimer r dst) := by
  unfold Machine.onRetryTimer
  dsimp only
  rw [h.retry]
  obtain ⟨hsched, htask⟩ := h.ctx.scheduleAttempt (m.retry r).chain
    ((Assoc.get? m.ctx.ident.dispatchExecutionID r).getD "")
    ((Assoc.get? m'.ctx.ident.dispatchExecutionID r).getD "") true
  rw [htask]
  exact ((h.setCtx hsched).modifyRetry r _).awaitRetry r dst

theorem awaitWrapper (h : CodeSim v same b T m m') (w : Nat) (dst : Option Nat) :
    CodeSim v same b T (m.awaitWrapper w dst) (m'.awaitWrapper w dst) := by
  unfold Machine.awaitWrapper
  rw [h.wrapper]
  exact h.awaitUnder rfl _ _

theorem onWrapperFailure (h : CodeSim v same b T m m') (henv : Engines same sdk.env sdk'.env) (w : Nat)
    (dst : Option Nat) (err : AwaitError) :
    CodeSim v same b T (Machine.onWrapperFailure sdk m w dst err)
      (Machine.onWrapperFailure sdk' m' w dst err) := by
  unfold Machine.onWrapperFailure
  dsimp only
  rw [h.wrapper, h.ctx.chain, computeNextDelay henv, h.ctx.core]
  split
  · exact h.setControl _
  · split
    · exact h.setControl _
    · obtain ⟨htimer, htask⟩ := h.createRetryTimer (m.wrapper w).chain _
        (m.ctx.core.task (m.wrapper w).delegate).taskExecutionId
        (m.ctx.core.task (m.wrapper w).delegate).taskExecutionId
      rw [htask]
      exact htimer.awaitUnder rfl _ _

theorem onWrapperTimer (h : CodeSim v same b T m m') (w : Nat) (dst : Option Nat) (executionID : String) :
    CodeSim v same b T (m.onWrapperTimer w dst executionID) (m'.onWrapperTimer w dst executionID) := by
  unfold Machine.onWrapperTimer
  dsimp only
  rw [h.wrapper]
  obtain ⟨hsched, htask⟩ := h.ctx.scheduleTaskWithRetriesLegacy (m.wrapper w).chain
    ((m.wrapper w).retryCount + 1) executionID executionID
  rw [htask]
  exact (h.setCtx hsched).awaitWrapper _ dst

theorem taskExecutionId (h : CodeSim v same b T m m') (t : TaskRef) :
    m'.taskExecutionId t = m.taskExecutionId t := by
  cases t with
  | completable t => exact congrArg CompletableTask.taskExecutionId (h.task t)
  | retry r =>
    unfold Machine.taskExecutionId
    dsimp only
    rw [h.retry, h.task]
  | wrapper w =>
    unfold Machine.taskExecutionId
    dsimp only
    rw [h.wrapper, h.task]

/-- A call, if the histories agree on the patches it asks for. -/
theorem doCall (h : CodeSim v same b T m m') (hsdk : Sdks same sdk sdk') (call : Call) (k : Resp → σ)
    (hp : Ctx.Aligned.Agree m.hist m'.hist m.ctx (Machine.doCall sdk m call k).ctx)
    (hfinite : same = false → ∀ eventName timeout, call = .waitForSingleEvent eventName timeout →
      Ctx.Aligned.Finite m.ctx timeout) :
    CodeSim v same b T (Machine.doCall sdk m call k) (Machine.doCall sdk' m' call k) := by
  have htrace : CodeSim v same b T { m with trace := m.trace ++ [.call call] }
      { m' with trace := m'.trace ++ [.call call] } :=
    ⟨h.ctx, h.control, h.stack, congrArg (· ++ [.call call]) h.trace⟩
  have hctx := h.ctx
  cases call with
  | callActivity name opts =>
    obtain ⟨hcall, htask⟩ := hctx.callActivity sdk'.env name opts hp
    exact htrace.respond hcall k (congrArg Resp.task htask)
  | callChildWorkflow name opts =>
    obtain ⟨hcall, htask⟩ := hctx.callChildWorkflow sdk'.env name opts hp
    exact htrace.respond hcall k (congrArg Resp.task htask)
  | createTimer delay name =>
    obtain ⟨hcall, htask⟩ := hctx.createTimer name delay
    exact htrace.respond hcall k (congrArg Resp.task htask)
  | waitForSingleEvent eventName timeout =>
    obtain ⟨hcall, htask⟩ := hctx.waitForSingleEvent hsdk.env eventName
      fun hs => hfinite hs eventName timeout rfl
    exact htrace.respond hcall k (congrArg Resp.task htask)
  | scheduleNewWorkflow name opts =>
    obtain ⟨hcall, hid⟩ := hctx.scheduleNewWorkflow name opts
    exact htrace.respond hcall k (congrArg Resp.instanceID hid)
  | isPatched patchName =>
    obtain ⟨hcall, hans⟩ := hctx.isPatched hp
    exact htrace.respond hcall k (congrArg Resp.bool hans)
  | await task dst =>
    have hpush := htrace.push (f := .code k) rfl
    cases task with
    | completable t => exact hpush.awaitTask t dst
    | retry r => exact hpush.awaitRetry r dst
    | wrapper w => exact hpush.awaitWrapper w dst
  | taskExecutionId task =>
    exact htrace.respond hctx k (congrArg Resp.string (htrace.taskExecutionId task))
  | setCustomStatus cs => exact htrace.respond (hctx.setCore (by rw [hctx.core])) k rfl
  | continueAsNew newInput keep => exact htrace.respond (hctx.setCore (by rw [hctx.core])) k rfl
  | getInput dst =>
    refine htrace.respond hctx k (congrArg Resp.input ?_)
    dsimp only
    rw [hctx.core, hsdk.env.unmarshal]
  | currentTimeUtc =>
    exact htrace.respond hctx k (congrArg (fun core => Resp.time core.currentTimeUtc) hctx.core)
  | id => exact htrace.respond hctx k (congrArg (fun core => Resp.string core.id) hctx.core)
  | name => exact htrace.respond hctx k (congrArg (fun core => Resp.string core.name) hctx.core)

theorem stepReturned {m₂ : Machine σ} (h : CodeSim v same b T m m') (hsdk : Sdks same sdk sdk')
    {r : AwaitResult} (hs : Machine.stepReturned sdk m r = some m₂) :
    ∃ m₂', Machine.stepReturned sdk' m' r = some m₂' ∧ CodeSim v same b T m₂ m₂' := by
  rcases m with ⟨hist, ctx, control, stack, trace, errors, handled, buffered⟩
  rcases m' with ⟨hist', ctx', control', stack', trace', errors', handled', buffered'⟩
  obtain ⟨hctx, hcontrol, hstack, htrace⟩ := h
  dsimp only at hctx hcontrol hstack htrace
  unfold Machine.stepReturned at hs ⊢
  dsimp only at hs ⊢
  subst hstack
  cases stack with
  | nil => cases hs
  | cons f rest =>
    have hpop : CodeSim v same b T ⟨hist, ctx, control, rest, trace, errors, handled, buffered⟩
        ⟨hist', ctx', control', rest.map (Frame.amend v), trace', errors', handled', buffered'⟩ :=
      ⟨hctx, hcontrol, rfl, htrace⟩
    cases f with
    | code k =>
      cases hs
      exact ⟨_, rfl, hctx, rfl, rfl, congrArg (· ++ [.resp (.awaited r)]) htrace⟩
    | retryAttempt i dst =>
      cases r with
      | ok _ =>
        cases hs
        refine ⟨_, rfl, ?_⟩
        rw [hpop.retry]
        exact (hpop.modifyRetry i _).awaitTask _ dst
      | error err =>
        cases hs
        exact ⟨_, rfl, hpop.onRetryFailure hsdk.env i dst err⟩
    | retryTimer i dst err =>
      cases r with
      | ok _ =>
        cases hs
        exact ⟨_, rfl, hpop.onRetryTimer i dst⟩
      | error timerErr =>
        cases hs
        exact ⟨_, rfl, hpop.finishRetry i _⟩
    | wrapperDelegate w dst =>
      cases r with
      | ok _ =>
        cases hs
        exact ⟨_, rfl, hpop⟩
      | error err =>
        cases hs
        exact ⟨_, rfl, hpop.onWrapperFailure hsdk.env w dst err⟩
    | wrapperTimer w dst err executionID =>
      cases r with
      | ok _ =>
        cases hs
        exact ⟨_, rfl, hpop.onWrapperTimer w dst executionID⟩
      | error timerErr =>
        cases hs
        exact ⟨_, rfl, hpop.setControl _⟩
    | start => cases hs
    | await task dst => cases hs
    | drain es => cases hs

end CodeSim

/-- A step of workflow code or of an `Await` that returns is taken by both. -/
theorem codeSim_step {m₂ : Machine σ} (h : CodeSim v same b T m m') (hsdk : Sdks same sdk sdk')
    (hcode : m.inCode = true) (hs : step sdk m = some m₂)
    (hp : Ctx.Aligned.Agree m.hist m'.hist m.ctx m₂.ctx)
    (hfinite : same = false → ∀ s eventName timeout k, m.control = .run s →
      sdk.next s = .call (.waitForSingleEvent eventName timeout) k →
      Ctx.Aligned.Finite m.ctx timeout) :
    ∃ m₂', step sdk' m' = some m₂' ∧ CodeSim v same b T m₂ m₂' := by
  unfold inCode at hcode
  unfold step at hs ⊢
  rw [h.control]
  cases hc : m.control with
  | run s =>
    rw [hc] at hs
    dsimp only at hs ⊢
    rw [hsdk.next]
    split at hs
    · next result hnext =>
      cases hs
      exact ⟨_, rfl, h.ctx.onReturn result, rfl, h.stack, h.trace⟩
    · next call k hnext =>
      cases hs
      refine ⟨_, rfl, h.doCall hsdk call k hp ?_⟩
      rintro hsame eventName timeout rfl
      exact hfinite hsame s eventName timeout k hc hnext
  | returned r =>
    rw [hc] at hs
    exact h.stepReturned hsdk hs
  | loop => rw [hc] at hcode; cases hcode
  | raised err => rw [hc] at hcode; cases hcode
  | done => rw [hc] at hcode; cases hcode

end Machine

end DurableTask.Task
