import DurableTask.Lib.Transition
import DurableTask.RuntimeState.Scheduling
import DurableTask.Task.Flags

/-!
# What workflow code can do

Every call of workflow code changes the context by a sequence of a few primitive updates
(`Ctx.Evolves`), and leaves the position in the history, the suspension flags and the active drain
loops alone (`step_code`). Invariants of replays are proved from that, not from the calls.
-/

namespace DurableTask.Task

/-! ### The primitive updates -/

namespace Ctx

/-- What the calls of workflow code are made of, at a position `h` of the history. -/
inductive Evolves (h : Hist) : Ctx → Ctx → Prop
  | refl (c : Ctx) : Evolves h c c
  | trans {c c' c'' : Ctx} : Evolves h c c' → Evolves h c' c'' → Evolves h c c''
  /-- Tasks, waits and other state of the workflow. -/
  | core (c : Ctx) (core : Core) (hcore : core.flags = c.core.flags) :
    Evolves h c { c with core := core }
  /-- Deciding about a patch. -/
  | patch (c : Ctx) (patchName : String) : Evolves h c (c.isPatched h patchName).1
  /-- Generated names. -/
  | ident (c : Ctx) (ident : Ident) : Evolves h c { c with ident := ident }
  /-- Scheduling work that has a task. -/
  | register (c : Ctx) (actionType : WorkflowActionType) (router : Option TaskRouter) (kind : Kind) :
    Evolves h c (c.register actionType router kind).1
  /-- Scheduling a detached workflow, or completing. -/
  | addAction (c : Ctx) (actionType : WorkflowActionType) (router : Option TaskRouter) :
    Evolves h c { c with pend := (c.pend.addAction actionType router none).1 }
  /-- Creating the back-off timer of a retry chain. -/
  | retryTimer (c : Ctx) (name : Option String) (delay : Duration) (i : Nat) (executionID : String) :
    Evolves h c ((c.createTimerInternal name delay).1.setTimerOrigin h i
      (c.createTimerInternal name delay).2.2 executionID)

end Ctx

/-- The state of the workflow without its retry chains, its status and what it continues as new
with. -/
def Core.base (c : Core) : Core :=
  { c with
    continuedAsNew := false, continuedAsNewInput := .nil, customStatus := ""
    saveBufferedExternalEvents := false, chains := [], retryTasks := [], wrappers := [] }

namespace Ctx

/-- A relation that holds across every update the calls are made of, detached workflows apart. It then
holds across the calls. -/
structure CallClosed (env : SdkEnv) (h : Hist) (R : Ctx → Ctx → Prop) : Prop where
  refl : ∀ c, R c c
  trans : ∀ {c c' c''}, R c c' → R c' c'' → R c c''
  core : ∀ c core, core.base = c.core.base → R c { c with core := core }
  patch : ∀ c patchName, R c (c.isPatched h patchName).1
  ident : ∀ c ident, R c { c with ident := ident }
  failedTask : ∀ c fd, R c (c.failedTask fd).1
  register : ∀ c actionType router kind, actionType.kind = some kind →
    R c (c.register actionType router kind).1
  retryTimer : ∀ c name delay i executionID,
    R c ((c.createTimerInternal name delay).1.setTimerOrigin h i
      (c.createTimerInternal name delay).2.2 executionID)
  waitForSingleEvent : ∀ c eventName timeout, R c (c.waitForSingleEvent env eventName timeout).1

/-- A relation that holds across the completion of the workflow too. -/
structure Closed (env : SdkEnv) (h : Hist) (R : Ctx → Ctx → Prop) : Prop extends
    CallClosed env h R where
  setCompleteInternal : ∀ c rawResult status failureDetails,
    R c (c.setCompleteInternal rawResult status failureDetails)

namespace CallClosed

variable {env : SdkEnv} {h : Hist} {R : Ctx → Ctx → Prop} (hR : CallClosed env h R)
include hR

theorem coreIdent (c : Ctx) (core : Core) (ident : Ident) (hcore : core.base = c.core.base) :
    R c { c with core := core, ident := ident } :=
  hR.trans (hR.core c core hcore) (hR.ident _ ident)

theorem newUUID (c : Ctx) : R c (c.newUUID env).1 := hR.ident c _

theorem internalScheduleActivity (c : Ctx) (activityName taskExecutionId : String)
    (options : CallActivityOptions) :
    R c (c.internalScheduleActivity activityName taskExecutionId options).1 :=
  hR.register c _ _ _ rfl

theorem internalCallChildWorkflow (c : Ctx) (workflowName : String)
    (options : CallChildWorkflowOptions) (retryParentInstanceID : Option InstanceID) :
    R c (c.internalCallChildWorkflow workflowName options retryParentInstanceID).1 :=
  hR.trans (hR.register c _ _ _ rfl) (hR.ident _ _)

theorem scheduleAttempt (c : Ctx) (i : Nat) (taskExecutionId : String) (isRetry : Bool) :
    R c (c.scheduleAttempt i taskExecutionId isRetry).1 := by
  unfold Ctx.scheduleAttempt
  split
  · exact hR.internalScheduleActivity ..
  · split
    · exact hR.internalCallChildWorkflow ..
    · exact hR.trans (hR.internalCallChildWorkflow ..) (hR.core _ _ rfl)

theorem scheduleTaskWithRetriesLegacy (c : Ctx) (i retryCount : Nat) (taskExecutionId : String) :
    R c (c.scheduleTaskWithRetriesLegacy i retryCount taskExecutionId).1 :=
  hR.trans (hR.scheduleAttempt ..) (hR.core _ _ rfl)

theorem retryChainPatched (c : Ctx) : R c (c.retryChainPatched h).1 := by
  unfold Ctx.retryChainPatched
  split
  · exact hR.refl c
  · exact hR.patch c retryChainPatch

theorem newRetryTask (c : Ctx) (i : Nat) (taskExecutionId : String) :
    R c (c.newRetryTask i taskExecutionId).1 :=
  hR.trans (hR.scheduleAttempt ..) (hR.coreIdent _ _ _ rfl)

theorem scheduleTaskWithRetries (c : Ctx) (i : Nat) (taskExecutionId : String) :
    R c (c.scheduleTaskWithRetries h i taskExecutionId).1 := by
  unfold Ctx.scheduleTaskWithRetries
  dsimp only
  split
  · exact hR.trans (hR.retryChainPatched c) (hR.newRetryTask ..)
  · exact hR.trans (hR.retryChainPatched c) (hR.scheduleTaskWithRetriesLegacy ..)

theorem startChain (c : Ctx) (name : String) (attempt : Attempt) (policy : RetryPolicy)
    (firstInstanceID : Option InstanceID) :
    R c (c.startChain env h name attempt policy firstInstanceID).1 := by
  have hadd : R c (c.addChain name attempt policy firstInstanceID).1 := hR.coreIdent c _ _ rfl
  have huuid := hR.trans hadd (hR.newUUID _)
  exact hR.trans huuid (hR.scheduleTaskWithRetries _ _ _)

theorem callActivity (c : Ctx) (activityName : String) (opts : List CallActivityOption) :
    R c (c.callActivity env h activityName opts).1 := by
  unfold Ctx.callActivity
  split
  · exact hR.failedTask ..
  · split
    · exact hR.failedTask ..
    · split
      · exact hR.startChain ..
      · exact hR.trans (hR.newUUID c) (hR.internalScheduleActivity ..)

theorem callChildWorkflow (c : Ctx) (workflowName : String) (opts : List ChildWorkflowOption) :
    R c (c.callChildWorkflow env h workflowName opts).1 := by
  unfold Ctx.callChildWorkflow
  split
  · exact hR.failedTask ..
  · split
    · exact hR.failedTask ..
    · split
      · exact hR.startChain ..
      · exact hR.internalCallChildWorkflow ..

theorem createTimer (c : Ctx) (name : Option String) (delay : Duration) :
    R c (c.createTimer name delay).1 := hR.register c _ _ _ rfl

end CallClosed

/-- The workflow function returns: one completion. -/
theorem onReturn_eq (c : Ctx) (result : Except TaskFailureDetails Output) :
    ∃ rawResult status failureDetails,
      c.onReturn result = c.setCompleteInternal rawResult status failureDetails := by
  unfold onReturn
  split
  · exact ⟨_, _, _, rfl⟩
  · split
    · unfold setContinuedAsNew
      split <;> exact ⟨_, _, _, rfl⟩
    · unfold setComplete
      split <;> exact ⟨_, _, _, rfl⟩

theorem Closed.onReturn {env : SdkEnv} {h : Hist} {R : Ctx → Ctx → Prop} (hR : Closed env h R) (c : Ctx)
    (result : Except TaskFailureDetails Output) : R c (c.onReturn result) := by
  obtain ⟨rawResult, status, failureDetails, heq⟩ := c.onReturn_eq result
  rw [heq]
  exact hR.setCompleteInternal c rawResult status failureDetails

namespace Evolves

variable {env : SdkEnv} {h : Hist}

theorem addWaiter (c : Ctx) (key : String) (task : Nat) : Evolves h c (c.addWaiter key task).1 := by
  unfold Ctx.addWaiter
  split <;> exact .core c _ rfl

theorem addWaitTimer (c : Ctx) (eventName : String) (timeout : Duration) (callback : WaitTimeout) :
    Evolves h c (c.addWaitTimer env eventName timeout callback) := by
  unfold Ctx.addWaitTimer
  split
  · exact .core c _ (Core.flags_of_frame (Core.frame_onCompleted ..))
  · exact (Evolves.register c _ _ _).trans (.core _ _ (Core.flags_of_frame (Core.frame_onCompleted ..)))

theorem waitForSingleEvent (c : Ctx) (eventName : String) (timeout : Duration) :
    Evolves h c (c.waitForSingleEvent env eventName timeout).1 := by
  have hnew : Evolves h c { c with core := c.core.newTask.1 } := .core c _ rfl
  unfold Ctx.waitForSingleEvent
  dsimp only
  split
  · exact hnew.trans (.core _ _ (Core.flags_of_frame (Core.frame_complete ..)))
  · split
    · exact hnew.trans (.core _ _ (Core.flags_of_frame (Core.frame_cancel ..)))
    · exact (hnew.trans (addWaiter ..)).trans (addWaitTimer ..)

theorem scheduleNewWorkflow (c : Ctx) (workflowName : String) (opts : List DetachedWorkflowOption) :
    Evolves h c (c.scheduleNewWorkflow workflowName opts).1 := by
  unfold Ctx.scheduleNewWorkflow
  split
  · exact .refl c
  · split
    · exact .refl c
    · split
      · exact .refl c
      · exact (Evolves.addAction c _ _).trans (.core _ _ rfl)

theorem closed (env : SdkEnv) (h : Hist) : Closed env h (Evolves h) where
  refl := .refl
  trans := .trans
  core c core hcore :=
    .core c core (show core.base.flags = c.core.base.flags from congrArg Core.flags hcore)
  patch := .patch
  ident := .ident
  failedTask c _ := .core c _ (Core.flags_of_frame (Core.frame_failedTask ..))
  register c actionType router kind _ := .register c actionType router kind
  retryTimer := .retryTimer
  waitForSingleEvent := waitForSingleEvent
  setCompleteInternal c _ _ _ := .addAction c _ _

end Evolves

end Ctx

/-! ### Steps of workflow code -/

/-- The position after the next event was taken. -/
def Hist.taken (h : Hist) : Hist :=
  { h with historyIndex := h.historyIndex + 1
           isReplaying := decide (h.historyIndex < h.oldEvents.length) }

def Frame.isDrain {σ : Type} : Frame σ → Bool
  | .drain _ => true
  | _ => false

def Frame.drained {σ : Type} : Frame σ → Option (List (Nat × HistoryEvent))
  | .drain events => some events
  | _ => none

/-- Whether workflow code is told the instance id of a detached workflow. -/
def Obs.isSpawn : Obs → Bool
  | .resp (.instanceID _) => true
  | _ => false

namespace Machine

variable {σ : Type} {sdk : Sdk σ} {m m' : Machine σ}

/-- The active loops over events buffered during suspension, innermost first. -/
def drains (m : Machine σ) : List (List (Nat × HistoryEvent)) := m.stack.filterMap Frame.drained

/-- What a step does that neither takes nor handles an event. -/
structure CodeStep (m m' : Machine σ) : Prop where
  hist : m'.hist = m.hist
  ctx : Ctx.Evolves m.hist m.ctx m'.ctx
  drains : m'.drains = m.drains
  errors : m'.errors = m.errors
  handled : m'.handled = m.handled
  buffered : m'.buffered = m.buffered

/-- A step that changes the context as `R` says and spawns no detached workflow. -/
structure StepBy (R : Ctx → Ctx → Prop) (m m' : Machine σ) : Prop where
  hist : m'.hist = m.hist
  ctx : R m.ctx m'.ctx
  drains : m'.drains = m.drains
  errors : m'.errors = m.errors
  handled : m'.handled = m.handled
  buffered : m'.buffered = m.buffered
  trace : ∃ obs, m'.trace = m.trace ++ obs ∧ ∀ o ∈ obs, o.isSpawn = false

namespace StepBy

variable {h : Hist} {R : Ctx → Ctx → Prop} (hR : Ctx.CallClosed sdk.env h R)

theorem of_trace {m' : Machine σ} (hhist : m'.hist = m.hist) (hctx : R m.ctx m'.ctx)
    (hdrains : m'.drains = m.drains) (herrors : m'.errors = m.errors)
    (hhandled : m'.handled = m.handled) (hbuffered : m'.buffered = m.buffered)
    (htrace : m'.trace = m.trace) : StepBy R m m' :=
  ⟨hhist, hctx, hdrains, herrors, hhandled, hbuffered, [], by rw [htrace, List.append_nil],
    fun _ ho => absurd ho List.not_mem_nil⟩

include hR

theorem trans {m'' : Machine σ} (h₁ : StepBy R m m') (h₂ : StepBy R m' m'') : StepBy R m m'' := by
  obtain ⟨obs, htrace, hobs⟩ := h₁.trace
  obtain ⟨obs', htrace', hobs'⟩ := h₂.trace
  refine ⟨h₂.hist.trans h₁.hist, hR.trans h₁.ctx h₂.ctx, h₂.drains.trans h₁.drains,
    h₂.errors.trans h₁.errors, h₂.handled.trans h₁.handled, h₂.buffered.trans h₁.buffered,
    obs ++ obs', by rw [htrace', htrace, List.append_assoc], fun o ho => ?_⟩
  rcases List.mem_append.mp ho with ho | ho
  · exact hobs o ho
  · exact hobs' o ho

theorem awaitTask (m : Machine σ) (task : Nat) (dst : Option Nat) : StepBy R m (m.awaitTask task dst) :=
  .of_trace rfl (hR.refl _) rfl rfl rfl rfl rfl

theorem push (m : Machine σ) {f : Frame σ} (hf : f.isDrain = false) :
    StepBy R m { m with stack := f :: m.stack } := by
  refine .of_trace rfl (hR.refl _) ?_ rfl rfl rfl rfl
  cases f <;> first | rfl | cases hf

theorem awaitUnder (m : Machine σ) {f : Frame σ} (hf : f.isDrain = false) (task : Nat)
    (dst : Option Nat) : StepBy R m (m.awaitUnder f task dst) :=
  trans hR (push hR m hf) (awaitTask hR ..)

theorem awaitRetry (m : Machine σ) (r : Nat) (dst : Option Nat) : StepBy R m (m.awaitRetry r dst) := by
  unfold Machine.awaitRetry
  dsimp only
  split
  · split
    · exact .of_trace rfl (hR.refl _) rfl rfl rfl rfl rfl
    · exact awaitTask hR ..
  · exact awaitUnder hR m (by rfl) _ _

theorem awaitWrapper (m : Machine σ) (w : Nat) (dst : Option Nat) :
    StepBy R m (m.awaitWrapper w dst) := awaitUnder hR m (by rfl) _ _

theorem modifyRetry (m : Machine σ) (r : Nat) (f : RetryTask → RetryTask) :
    StepBy R m (m.modifyRetry r f) :=
  .of_trace rfl (hR.core _ _ rfl) rfl rfl rfl rfl rfl

theorem finishRetry (m : Machine σ) (r : Nat) (err : AwaitError) :
    StepBy R m (m.finishRetry r err) :=
  .of_trace rfl (hR.core _ _ rfl) rfl rfl rfl rfl rfl

theorem observeFailure (m : Machine σ) (r : Nat) (current : CompletableTask) :
    StepBy R m (m.observeFailure r current) := by
  unfold Machine.observeFailure
  split
  · exact .of_trace rfl (hR.refl _) rfl rfl rfl rfl rfl
  · exact .of_trace rfl (hR.coreIdent _ _ _ rfl) rfl rfl rfl rfl rfl

theorem createRetryTimer (m : Machine σ) (hm : m.hist = h) (chain : Nat) (delay : Duration)
    (executionID : String) : StepBy R m (m.createRetryTimer chain delay executionID).1 := by
  subst hm
  exact .of_trace rfl (hR.retryTimer ..) rfl rfl rfl rfl rfl

theorem onRetryFailure (m : Machine σ) (hm : m.hist = h) (r : Nat) (dst : Option Nat)
    (err : AwaitError) : StepBy R m (Machine.onRetryFailure sdk m r dst err) := by
  unfold Machine.onRetryFailure
  dsimp only
  split
  · exact finishRetry hR ..
  · have hobs := observeFailure hR m r (m.ctx.core.task (m.retry r).current)
    split
    · exact trans hR hobs (finishRetry hR ..)
    · split
      · exact trans hR hobs (finishRetry hR ..)
      · refine trans hR ?_ (awaitUnder hR _ (by rfl) _ _)
        exact trans hR hobs (createRetryTimer hR _ (hobs.hist.trans hm) ..)

theorem onRetryTimer (m : Machine σ) (r : Nat) (dst : Option Nat) :
    StepBy R m (m.onRetryTimer r dst) := by
  unfold Machine.onRetryTimer
  refine trans hR ?_ (awaitRetry hR ..)
  refine trans hR ?_ (modifyRetry hR ..)
  exact .of_trace rfl (hR.scheduleAttempt ..) rfl rfl rfl rfl rfl

theorem onWrapperFailure (m : Machine σ) (hm : m.hist = h) (w : Nat) (dst : Option Nat)
    (err : AwaitError) : StepBy R m (Machine.onWrapperFailure sdk m w dst err) := by
  unfold Machine.onWrapperFailure
  dsimp only
  split
  · exact .of_trace rfl (hR.refl _) rfl rfl rfl rfl rfl
  · split
    · exact .of_trace rfl (hR.refl _) rfl rfl rfl rfl rfl
    · refine trans hR ?_ (awaitUnder hR _ (by rfl) _ _)
      exact createRetryTimer hR _ hm ..

theorem onWrapperTimer (m : Machine σ) (w : Nat) (dst : Option Nat) (executionID : String) :
    StepBy R m (m.onWrapperTimer w dst executionID) := by
  unfold Machine.onWrapperTimer
  refine trans hR ?_ (awaitWrapper hR ..)
  exact .of_trace rfl (hR.scheduleTaskWithRetriesLegacy ..) rfl rfl rfl rfl rfl

/-- Workflow code makes a call other than `ScheduleNewWorkflow`. -/
theorem doCall (m : Machine σ) (hm : m.hist = h) {call : Call} (k : Resp → σ)
    (hcall : ∀ name opts, call ≠ .scheduleNewWorkflow name opts) :
    StepBy R m (Machine.doCall sdk m call k) := by
  subst hm
  have htrace : StepBy R m { m with trace := m.trace ++ [.call call] } :=
    ⟨rfl, hR.refl _, rfl, rfl, rfl, rfl, _, rfl, by simp [Obs.isSpawn]⟩
  have hrespond {c : Ctx} (r : Resp) (hc : R m.ctx c) (hr : (Obs.resp r).isSpawn = false) :
      StepBy R { m with trace := m.trace ++ [.call call] }
        ({ m with trace := m.trace ++ [Obs.call call] }.respond k c r) :=
    ⟨rfl, hc, rfl, rfl, rfl, rfl, [.resp r], rfl, by simpa using hr⟩
  refine trans hR htrace ?_
  cases call with
  | callActivity name opts => exact hrespond _ (hR.callActivity ..) rfl
  | callChildWorkflow name opts => exact hrespond _ (hR.callChildWorkflow ..) rfl
  | createTimer delay name => exact hrespond _ (hR.createTimer ..) rfl
  | waitForSingleEvent eventName timeout => exact hrespond _ (hR.waitForSingleEvent ..) rfl
  | scheduleNewWorkflow name opts => exact absurd rfl (hcall name opts)
  | isPatched patchName => exact hrespond _ (hR.patch _ patchName) rfl
  | await task dst =>
    have hcode := push hR { m with trace := m.trace ++ [.call (.await task dst)] }
      (show (Frame.code k).isDrain = false from rfl)
    cases task with
    | completable t => exact trans hR hcode (awaitTask hR ..)
    | retry r => exact trans hR hcode (awaitRetry hR ..)
    | wrapper w => exact trans hR hcode (awaitWrapper hR ..)
  | setCustomStatus cs => exact hrespond _ (hR.core _ _ rfl) rfl
  | continueAsNew newInput keep => exact hrespond _ (hR.core _ _ rfl) rfl
  | taskExecutionId task => exact hrespond _ (hR.refl _) rfl
  | getInput dst => exact hrespond _ (hR.refl _) rfl
  | currentTimeUtc => exact hrespond _ (hR.refl _) rfl
  | id => exact hrespond _ (hR.refl _) rfl
  | name => exact hrespond _ (hR.refl _) rfl

theorem stepReturned (hm : m.hist = h) {r : AwaitResult}
    (hstep : Machine.stepReturned sdk m r = some m') : StepBy R m m' := by
  rcases m with ⟨hist, ctx, control, stack, trace, errors, handled, buffered⟩
  unfold Machine.stepReturned at hstep
  dsimp only at hstep hm
  have hpop : ∀ (f : Frame σ) (rest : List (Frame σ)), stack = f :: rest → f.isDrain = false →
      StepBy R ⟨hist, ctx, control, stack, trace, errors, handled, buffered⟩
        ⟨hist, ctx, control, rest, trace, errors, handled, buffered⟩ := by
    rintro f rest rfl hf
    refine .of_trace rfl (hR.refl _) ?_ rfl rfl rfl rfl
    cases f <;> first | rfl | cases hf
  split at hstep
  · cases hstep
    exact ⟨rfl, hR.refl _, rfl, rfl, rfl, rfl, _, rfl, by simp [Obs.isSpawn]⟩
  · next i dst rest =>
    cases r <;> cases hstep
    · exact trans hR (hpop _ _ rfl rfl) (onRetryFailure hR _ hm ..)
    · exact trans hR (trans hR (hpop _ _ rfl rfl) (modifyRetry hR ..)) (awaitTask hR ..)
  · next i dst err rest =>
    cases r <;> cases hstep
    · exact trans hR (hpop _ _ rfl rfl) (finishRetry hR ..)
    · exact trans hR (hpop _ _ rfl rfl) (onRetryTimer hR ..)
  · next w dst rest =>
    cases r <;> cases hstep
    · exact trans hR (hpop _ _ rfl rfl) (onWrapperFailure hR _ hm ..)
    · exact hpop _ _ rfl rfl
  · next w dst err executionID rest =>
    cases r <;> cases hstep
    · exact trans hR (hpop _ _ rfl rfl) (.of_trace rfl (hR.refl _) rfl rfl rfl rfl rfl)
    · exact trans hR (hpop _ _ rfl rfl) (onWrapperTimer hR ..)
  · cases hstep

end StepBy

theorem StepBy.code (h : StepBy (Ctx.Evolves m.hist) m m') : CodeStep m m' :=
  ⟨h.hist, h.ctx, h.drains, h.errors, h.handled, h.buffered⟩

theorem reaches_run (sdk : Sdk σ) (m : Machine σ) (n : Nat) :
    Transition.Reaches (step sdk) m (m.run sdk n) := by
  induction n generalizing m with
  | zero => exact .refl m
  | succ n ih =>
    unfold run
    split
    · next m' h => exact .head h (ih m')
    · exact .refl m

/-- Whether the next step is one of workflow code or of an `Await` that returns. -/
def inCode (m : Machine σ) : Bool :=
  match m.control with
  | .run _ | .returned _ => true
  | _ => false

/-- A step of workflow code, or of an `Await` that returns: the workflow function returns, a detached
workflow is spawned, or whatever is closed under the updates of calls holds across it. -/
theorem step_inCode_cases {R : Ctx → Ctx → Prop} (hR : Ctx.CallClosed sdk.env m.hist R)
    (hm : m.inCode = true) (h : step sdk m = some m') :
    StepBy R m m' ∨ (∃ name opts k, m' = doCall sdk m (.scheduleNewWorkflow name opts) k) ∨
      ∃ s result, m.control = .run s ∧ m' = { m with ctx := m.ctx.onReturn result, control := .loop } := by
  unfold inCode at hm
  unfold step at h
  split at h
  · next s hcontrol =>
    split at h <;> cases h
    · exact .inr (.inr ⟨s, _, hcontrol, rfl⟩)
    · next c k _ =>
      by_cases hcall : ∃ name opts, c = .scheduleNewWorkflow name opts
      · obtain ⟨name, opts, rfl⟩ := hcall
        exact .inr (.inl ⟨name, opts, k, rfl⟩)
      · exact .inl (StepBy.doCall hR m rfl k fun name opts hc => hcall ⟨name, opts, hc⟩)
  · exact .inl (StepBy.stepReturned hR rfl h)
  all_goals simp_all

/-- The same for what is closed under completions too. -/
theorem step_inCode {R : Ctx → Ctx → Prop} (hR : Ctx.Closed sdk.env m.hist R) (hm : m.inCode = true)
    (h : step sdk m = some m') :
    StepBy R m m' ∨ ∃ name opts k, m' = doCall sdk m (.scheduleNewWorkflow name opts) k := by
  rcases step_inCode_cases hR.toCallClosed hm h with hstep | hspawn | ⟨s, result, -, rfl⟩
  · exact .inl hstep
  · exact .inr hspawn
  · exact .inl (.of_trace rfl (hR.onReturn ..) rfl rfl rfl rfl rfl)

theorem step_code (hm : m.inCode = true) (h : step sdk m = some m') : CodeStep m m' := by
  rcases step_inCode (Ctx.Evolves.closed sdk.env m.hist) hm h with hstep | ⟨name, opts, k, rfl⟩
  · exact hstep.code
  · exact ⟨rfl, .scheduleNewWorkflow .., rfl, rfl, rfl, rfl⟩

/-! ### What a step can be -/

/-- A loop that takes events is on top, and it will take one. -/
def Waits (m : Machine σ) : Prop :=
  m.control = .loop ∧ (m.stack.head? = some .start ∨
    ∃ task dst, m.stack.head? = some (.await task dst) ∧ (m.ctx.core.task task).isCompleted = false)

theorem processNextEvent_eq {e : HistoryEvent} (he : m.hist.events[m.hist.historyIndex]? = some e) :
    processNextEvent sdk m =
      some (processEvent sdk { m with hist := m.hist.taken } (m.hist.historyIndex, e)) := by
  unfold processNextEvent Hist.getNextHistoryEvent
  rw [he]
  rfl

/-- The steps by what they do. Those of workflow code and of an `Await` that returns are one case. -/
inductive StepCase (sdk : Sdk σ) (m : Machine σ) : Machine σ → Prop
  | code {m' : Machine σ} (hcode : m.inCode = true) (hstep : step sdk m = some m') : StepCase sdk m m'
  | next {e : HistoryEvent} (hwaits : m.Waits) (he : m.hist.events[m.hist.historyIndex]? = some e) :
    StepCase sdk m (processEvent sdk { m with hist := m.hist.taken } (m.hist.historyIndex, e))
  | drain {e : Nat × HistoryEvent} {es : List (Nat × HistoryEvent)} {rest : List (Frame σ)}
    (hcontrol : m.control = .loop) (hstack : m.stack = .drain (e :: es) :: rest) :
    StepCase sdk m (processEvent sdk { m with stack := .drain es :: rest } e)
  | drained {rest : List (Frame σ)} (hcontrol : m.control = .loop) (hstack : m.stack = .drain [] :: rest) :
    StepCase sdk m { m with hist := { m.hist with suspendedEvents := [] }, stack := rest }
  | awaited {task : Nat} {dst : Option Nat} {rest : List (Frame σ)} (hcontrol : m.control = .loop)
    (hstack : m.stack = .await task dst :: rest) (hdone : (m.ctx.core.task task).isCompleted = true) :
    StepCase sdk m { m with
      stack := rest, control := .returned (awaitResult sdk (m.ctx.core.task task) dst) }
  /-- An error leaves the loop over the buffered events. -/
  | abandoned {err : ProcessError} {es : List (Nat × HistoryEvent)} {rest : List (Frame σ)}
    (hcontrol : m.control = .raised err) (hstack : m.stack = .drain es :: rest) :
    StepCase sdk m { m with stack := rest }
  | failed {err : ProcessError} {task : Nat} {dst : Option Nat} {rest : List (Frame σ)}
    (hcontrol : m.control = .raised err) (hstack : m.stack = .await task dst :: rest) :
    StepCase sdk m { m with stack := rest, control := .returned (.error (.history err)) }
  | ended {err : ProcessError} {rest : List (Frame σ)} (hcontrol : m.control = .raised err)
    (hstack : m.stack = .start :: rest) :
    StepCase sdk m { m with ctx := m.ctx.onStartError err, control := .done }

theorem stepCase_next (hwaits : m.Waits) (h : processNextEvent sdk m = some m') : StepCase sdk m m' := by
  obtain ⟨⟨e, hist⟩, hnext, -⟩ := Option.map_eq_some_iff.mp h
  obtain ⟨e, he, -⟩ := Option.map_eq_some_iff.mp hnext
  obtain rfl := Option.some.inj ((processNextEvent_eq he).symm.trans h)
  exact .next hwaits he

theorem step_cases (h : step sdk m = some m') : StepCase sdk m m' := by
  by_cases hcode : m.inCode = true
  · exact .code hcode h
  · unfold inCode at hcode
    unfold step at h
    split at h
    · simp_all
    · simp_all
    · next hcontrol =>
      unfold stepLoop at h
      split at h
      · next hstack => exact stepCase_next ⟨hcontrol, .inl (by rw [hstack]; rfl)⟩ h
      · next task dst rest hstack =>
        dsimp only at h
        split at h
        · next hdone =>
          cases h
          exact .awaited hcontrol hstack hdone
        · next hdone =>
          exact stepCase_next ⟨hcontrol, .inr ⟨task, dst, by rw [hstack]; rfl, by simpa using hdone⟩⟩ h
      · next hstack =>
        cases h
        exact .drain hcontrol hstack
      · next hstack =>
        cases h
        exact .drained hcontrol hstack
      · cases h
    · next hcontrol =>
      unfold stepRaised at h
      split at h
      · next hstack =>
        cases h
        exact .abandoned hcontrol hstack
      · next hstack =>
        cases h
        exact .failed hcontrol hstack
      · next hstack =>
        cases h
        exact .ended hcontrol hstack
      · cases h
    · cases h

end Machine

end DurableTask.Task
