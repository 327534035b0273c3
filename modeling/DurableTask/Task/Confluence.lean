import DurableTask.Lib.Interleaving
import DurableTask.Task.Steady
import DurableTask.Task.Terminated

/-!
# The order of resolutions

A program that waits for no external event, has no retry policies and asks for no patches takes no
notice of the order in which its tasks are resolved: its steps commute with deliveries, so a batch of
resolutions may be permuted. What must not happen is that a loop of `onExecutionResumed` still has
events to process, since one of them may suspend the workflow again.
-/

namespace DurableTask.Task

/-! ### Programs -/

def CallActivityOption.isRetry : CallActivityOption → Bool
  | .retryPolicy _ => true
  | _ => false

def ChildWorkflowOption.isRetry : ChildWorkflowOption → Bool
  | .retryPolicy _ => true
  | _ => false

/-- The calls of a program without retry policies, external waits, patches and reads of execution ids.
Such a program is only given references to plain tasks. -/
def Call.isPlain : Call → Bool
  | .callActivity _ opts => opts.all (!·.isRetry)
  | .callChildWorkflow _ opts => opts.all (!·.isRetry)
  | .await (.completable _) _ => true
  | .await _ _ | .waitForSingleEvent _ _ | .isPatched _ | .taskExecutionId _ => false
  | _ => true

def Sdk.Plain {σ : Type} (sdk : Sdk σ) : Prop := ∀ s c k, sdk.next s = .call c k → c.isPlain = true

namespace Ctx

/-- Options without a retry policy. -/
theorem retryPolicy_activity {opts : List CallActivityOption} (h : opts.all (!·.isRetry) = true)
    {o : CallActivityOptions} (hfold : opts.foldlM CallActivityOption.apply {} = .ok o) :
    o.retryPolicy = none := by
  refine Except.foldlM_invariant (I := fun o : CallActivityOptions => o.retryPolicy = none) hfold rfl
    fun x opt y hopt hx hy => ?_
  have hplain := List.all_eq_true.mp h opt hopt
  cases opt with
  | retryPolicy => cases hplain
  | input data =>
    cases data <;> cases hy
    exact hx
  | _ => cases hy; exact hx

theorem retryPolicy_childWorkflow {opts : List ChildWorkflowOption} (h : opts.all (!·.isRetry) = true)
    {o : CallChildWorkflowOptions} (hfold : opts.foldlM ChildWorkflowOption.apply {} = .ok o) :
    o.retryPolicy = none := by
  refine Except.foldlM_invariant (I := fun o : CallChildWorkflowOptions => o.retryPolicy = none) hfold
    rfl fun x opt y hopt hx hy => ?_
  have hplain := List.all_eq_true.mp h opt hopt
  cases opt with
  | retryPolicy => cases hplain
  | input data =>
    cases data <;> cases hy
    exact hx
  | _ => cases hy; exact hx

namespace Independent

theorem const {β : Type} (b : β) : Independent fun c => (c, b) := read (fun _ _ => b) fun _ _ _ => rfl

theorem ident (ψ : Ident → Ident) : Independent fun c => ({ c with ident := ψ c.ident }, ()) :=
  update (fun core => core) ψ (fun _ _ => rfl) (fun _ => rfl) fun _ => rfl

theorem newUUID (env : SdkEnv) : Independent fun c => c.newUUID env :=
  (read (fun _ ident => env.uuid ident.uuids) fun _ _ _ => rfl).bind fun id =>
    (ident fun ident => { ident with uuids := ident.uuids + 1 }).map fun _ => id

theorem internalScheduleActivity (activityName taskExecutionId : String) (options : CallActivityOptions) :
    Independent fun c => c.internalScheduleActivity activityName taskExecutionId options :=
  (register _ _ _ fun _ => rfl).map Prod.fst

theorem internalCallChildWorkflow (workflowName : String) (options : CallChildWorkflowOptions)
    (retryParentInstanceID : Option InstanceID) :
    Independent fun c => c.internalCallChildWorkflow workflowName options retryParentInstanceID :=
  (register _ _ _ fun _ => rfl).bind fun x =>
    (ident fun ident => { ident with childAction := Assoc.insert ident.childAction x.1 x.2 }).map
      fun _ => x.1

theorem createTimer (name : Option String) (delay : Duration) :
    Independent fun c => c.createTimer name delay :=
  (read (fun core _ => core.currentTimeUtc) fun _ _ _ => rfl).bind fun now =>
    (register (.createTimer { fireAt := now + delay, name := name, origin := some .createTimer }) none
      .timer fun _ => rfl).map fun x => TaskRef.completable x.1

theorem callActivity (env : SdkEnv) (activityName : String) {opts : List CallActivityOption}
    (h : opts.all (!·.isRetry) = true) :
    ∃ u, Independent u ∧ ∀ c hist, c.callActivity env hist activityName opts = u c := by
  unfold Ctx.callActivity
  cases hfold : opts.foldlM CallActivityOption.apply {} with
  | error fd => exact ⟨_, failedTask fd, fun _ _ => rfl⟩
  | ok options =>
    dsimp only
    cases validateAppNamespaceRequiresAppID options.targetAppID options.targetAppNamespace
      "InvalidActivityOptions" "WithActivityAppNamespace" "WithActivityAppID" with
    | some fd => exact ⟨_, failedTask fd, fun _ _ => rfl⟩
    | none =>
      rw [retryPolicy_activity h hfold]
      exact ⟨_, (newUUID env).bind fun id =>
        (internalScheduleActivity activityName id options).map .completable, fun _ _ => rfl⟩

theorem callChildWorkflow (env : SdkEnv) (workflowName : String) {opts : List ChildWorkflowOption}
    (h : opts.all (!·.isRetry) = true) :
    ∃ u, Independent u ∧ ∀ c hist, c.callChildWorkflow env hist workflowName opts = u c := by
  unfold Ctx.callChildWorkflow
  cases hfold : opts.foldlM ChildWorkflowOption.apply {} with
  | error fd => exact ⟨_, failedTask fd, fun _ _ => rfl⟩
  | ok options =>
    dsimp only
    cases validateAppNamespaceRequiresAppID options.targetAppID options.targetAppNamespace
      "InvalidChildWorkflowOptions" "WithChildWorkflowAppNamespace" "WithChildWorkflowAppID" with
    | some fd => exact ⟨_, failedTask fd, fun _ _ => rfl⟩
    | none =>
      rw [retryPolicy_childWorkflow h hfold]
      exact ⟨_, (internalCallChildWorkflow workflowName options none).map .completable, fun _ _ => rfl⟩

theorem scheduleNewWorkflow (workflowName : String) (opts : List DetachedWorkflowOption) :
    Independent fun c => c.scheduleNewWorkflow workflowName opts := by
  unfold Ctx.scheduleNewWorkflow
  cases opts.foldlM DetachedWorkflowOption.apply {} with
  | error err => exact const (Except.error err)
  | ok options =>
    dsimp only
    split
    · exact const _
    · split
      · exact const _
      · have hname := read (fun core _ => options.instanceID.getD
          (core.id ++ "-" ++ toString core.defaultDetachedWorkflowCounter)) fun _ _ _ => rfl
        have hcounter := update (fun core => { core with defaultDetachedWorkflowCounter :=
          if options.instanceID.isNone then core.defaultDetachedWorkflowCounter + 1
          else core.defaultDetachedWorkflowCounter }) id (fun _ _ => rfl) (fun _ => rfl) fun _ => rfl
        exact hname.bind fun name =>
          (addAction (.createDetachedWorkflow
            { instanceId := name, name := workflowName, input := options.rawInput
              scheduledStartTimestamp := options.scheduledStartTimestamp })
            (taskRouterFromTarget options.targetAppID options.targetAppNamespace) fun _ => rfl).bind
          fun _ => hcounter.map fun _ => Except.ok name

theorem setCompleteInternal (rawResult : Option String) (status : OrchestrationStatus)
    (failureDetails : Option TaskFailureDetails) :
    Independent fun c => (c.setCompleteInternal rawResult status failureDetails, ()) :=
  addAction _ none fun _ => rfl

/-- An update that depends on the state of the workflow only through what no delivery changes. -/
theorem decide {β γ : Type} {u : Ctx → Ctx × β} (g : Core → γ)
    (hg : ∀ core tasks, g { core with tasks := tasks } = g core)
    (hu : ∀ x, ∃ v, Independent v ∧ ∀ c, g c.core = x → u c = v c) : Independent u := by
  choose v hv heq using hu
  have hbind := (read (fun core _ => g core) fun core tasks _ => hg core tasks).bind hv
  rwa [funext fun c => heq (g c.core) c rfl]

theorem onReturn (result : Except TaskFailureDetails Output) :
    Independent fun c => (c.onReturn result, ()) := by
  refine decide (fun core => (core.continuedAsNew, core.continuedAsNewInput)) (fun _ _ => rfl) ?_
  rintro ⟨continued, input⟩
  have hcases {c : Ctx} (hc : (c.core.continuedAsNew, c.core.continuedAsNewInput) = (continued, input)) :
      c.core.continuedAsNew = continued ∧ c.core.continuedAsNewInput = input := Prod.ext_iff.mp hc
  cases result with
  | error appError => exact ⟨_, setCompleteInternal none .failed (some appError), fun _ _ => rfl⟩
  | ok output =>
    cases continued with
    | false =>
      cases output with
      | nil => exact ⟨_, setCompleteInternal none .completed none, fun c hc => by
          simp [Ctx.onReturn, (hcases hc).1, setComplete]⟩
      | value raw => exact ⟨_, setCompleteInternal (some raw) .completed none, fun c hc => by
          simp [Ctx.onReturn, (hcases hc).1, setComplete]⟩
      | invalid err => exact ⟨_, setCompleteInternal none .failed _, fun c hc => by
          simp only [Ctx.onReturn, (hcases hc).1, setComplete]
          rfl⟩
    | true =>
      cases input with
      | nil => exact ⟨_, setCompleteInternal none .continuedAsNew none, fun c hc => by
          simp [Ctx.onReturn, (hcases hc).1, setContinuedAsNew, (hcases hc).2]⟩
      | value raw => exact ⟨_, setCompleteInternal (some raw) .continuedAsNew none, fun c hc => by
          simp [Ctx.onReturn, (hcases hc).1, setContinuedAsNew, (hcases hc).2]⟩
      | invalid err => exact ⟨_, setCompleteInternal none .failed _, fun c hc => by
          simp only [Ctx.onReturn, (hcases hc).1, setContinuedAsNew, (hcases hc).2]
          rfl⟩

end Independent

end Ctx

/-! ### Steps of workflow code -/

/-- What of a replay is neither its context nor its position in the history. -/
structure Shape (σ : Type) where
  control : Control σ
  stack : List (Frame σ)
  trace : List Obs

namespace Machine

variable {σ : Type} {sdk : Sdk σ} {m m' : Machine σ}

def shape (m : Machine σ) : Shape σ := ⟨m.control, m.stack, m.trace⟩

/-- A machine with another shape and context. -/
def put (m : Machine σ) (s : Shape σ) (c : Ctx) : Machine σ :=
  { m with ctx := c, control := s.control, stack := s.stack, trace := s.trace }

/-- A call of a plain program other than `Await`. -/
theorem doCall_plain (sdk : Sdk σ) {call : Call} (hcall : call.isPlain = true)
    (hawait : ∀ task dst, call ≠ .await task dst) (k : Resp → σ) :
    ∃ u : Ctx → Ctx × Resp, Ctx.Independent u ∧ ∀ m : Machine σ, doCall sdk m call k =
      m.put ⟨.run (k (u m.ctx).2), m.stack, m.trace ++ [.call call] ++ [.resp (u m.ctx).2]⟩ (u m.ctx).1 := by
  cases call with
  | callActivity name opts =>
    obtain ⟨u, hu, heq⟩ := Ctx.Independent.callActivity sdk.env name hcall
    exact ⟨_, hu.map .task, fun m => by simp only [doCall, heq]; rfl⟩
  | callChildWorkflow name opts =>
    obtain ⟨u, hu, heq⟩ := Ctx.Independent.callChildWorkflow sdk.env name hcall
    exact ⟨_, hu.map .task, fun m => by simp only [doCall, heq]; rfl⟩
  | createTimer delay name => exact ⟨_, (Ctx.Independent.createTimer name delay).map .task, fun _ => rfl⟩
  | scheduleNewWorkflow name opts =>
    exact ⟨_, (Ctx.Independent.scheduleNewWorkflow name opts).map .instanceID, fun _ => rfl⟩
  | await task dst => exact absurd rfl (hawait task dst)
  | setCustomStatus cs =>
    exact ⟨_, (Ctx.Independent.update (fun core => { core with customStatus := cs }) id
      (fun _ _ => rfl) (fun _ => rfl) fun _ => rfl).map fun _ => .unit, fun _ => rfl⟩
  | continueAsNew newInput keep =>
    exact ⟨_, (Ctx.Independent.update (fun core => { core with
        continuedAsNew := true, continuedAsNewInput := newInput
        saveBufferedExternalEvents := core.saveBufferedExternalEvents || keep }) id
      (fun _ _ => rfl) (fun _ => rfl) fun _ => rfl).map fun _ => .unit, fun _ => rfl⟩
  | getInput dst =>
    exact ⟨_, Ctx.Independent.read (fun core _ => .input (if core.rawInput = "" then .ok none
      else (sdk.env.unmarshal dst core.rawInput).map some)) fun _ _ _ => rfl, fun _ => rfl⟩
  | currentTimeUtc =>
    exact ⟨_, Ctx.Independent.read (fun core _ => .time core.currentTimeUtc) fun _ _ _ => rfl, fun _ => rfl⟩
  | id => exact ⟨_, Ctx.Independent.read (fun core _ => .string core.id) fun _ _ _ => rfl, fun _ => rfl⟩
  | name => exact ⟨_, Ctx.Independent.read (fun core _ => .string core.name) fun _ _ _ => rfl, fun _ => rfl⟩
  | _ => cases hcall

/-- Running code of a plain program: the context changes independently of deliveries, and the stack
stays as it is unless the code awaits a task. -/
theorem step_run (hsdk : sdk.Plain) {s : Shape σ} {st : σ} (hs : s.control = .run st) :
    ∃ (u : Ctx → Ctx × Resp) (g : Resp → Shape σ), Ctx.Independent u ∧
      (∀ r, ((g r).stack = s.stack ∧ ((g r).control = .loop ∨ ∃ st', (g r).control = .run st')) ∨
        ∃ task dst k, (g r).stack = .await task dst :: .code k :: s.stack ∧ (g r).control = .loop) ∧
      ∀ n : Machine σ, n.shape = s → step sdk n = some (n.put (g (u n.ctx).2) (u n.ctx).1) := by
  have hcontrol {n : Machine σ} (hn : n.shape = s) : n.control = .run st :=
    (congrArg Shape.control hn).trans hs
  cases hnext : sdk.next st with
  | ret result =>
    refine ⟨_, fun _ => ⟨.loop, s.stack, s.trace⟩, (Ctx.Independent.onReturn result).map fun _ => .unit,
      fun _ => .inl ⟨rfl, .inl rfl⟩, fun n hn => ?_⟩
    unfold step
    rw [hcontrol hn]
    dsimp only
    rw [hnext, ← hn]
    rfl
  | call call k =>
    have hplain := hsdk st call k hnext
    have hstep {n : Machine σ} (hn : n.shape = s) : step sdk n = some (doCall sdk n call k) := by
      unfold step
      rw [hcontrol hn]
      dsimp only
      rw [hnext]
    by_cases hawait : ∃ task dst, call = .await task dst
    · obtain ⟨task, dst, rfl⟩ := hawait
      cases task with
      | completable t =>
        refine ⟨_, fun _ => ⟨.loop, .await t dst :: .code k :: s.stack,
          s.trace ++ [.call (.await (.completable t) dst)]⟩, Ctx.Independent.const .unit,
          fun _ => .inr ⟨t, dst, k, rfl, rfl⟩, fun n hn => ?_⟩
        rw [hstep hn, ← hn]
        rfl
      | _ => cases hplain
    · obtain ⟨u, hu, heq⟩ := doCall_plain sdk hplain (fun task dst h => hawait ⟨task, dst, h⟩) k
      refine ⟨u, fun r => ⟨.run (k r), s.stack, s.trace ++ [.call call] ++ [.resp r]⟩, hu,
        fun r => .inl ⟨rfl, .inr ⟨k r, rfl⟩⟩, fun n hn => ?_⟩
      rw [hstep hn, heq, ← hn]
      rfl

/-! ### Replays of plain programs -/

end Machine

namespace Ctx.Steady

variable {c : Ctx}

theorem dropUnless (hc : c.Steady) (asRecorded : Bool) (id : ActionID) (n : Nat) :
    c.dropUnless asRecorded id n = c := by
  have hnone : c.pend.optionalAt id = false := by
    unfold Pending.optionalAt
    split
    · next a ha => exact hc.actions _ (Assoc.mem_of_get? ha)
    · rfl
  unfold Ctx.dropUnless
  split
  · rfl
  · cases n with
    | zero => rfl
    | succ n => rw [dropOptionalTimers, hnone]; rfl

theorem removeAction (hc : c.Steady) (id : ActionID) : (c.removeAction id).Steady :=
  ⟨hc.waits, hc.callbacks, hc.optional, fun x hx => hc.actions x (Assoc.mem_erase.mp hx).1, hc.keys,
    hc.refs, hc.tasks, hc.resolved⟩

theorem ident (hc : c.Steady) (ident : Ident) : ({ c with ident := ident } : Ctx).Steady :=
  ⟨hc.waits, hc.callbacks, hc.optional, hc.actions, hc.keys, hc.refs, hc.tasks, hc.resolved⟩

theorem consumeFor (hc : c.Steady) (ids : List ActionID) : (c.consumeFor ids).Steady := by
  unfold Ctx.consumeFor
  induction ids generalizing c with
  | nil => exact hc
  | cons id ids ih =>
    rw [List.foldl_cons]
    split
    · exact ih (hc.consume _)
    · exact ih hc

theorem alignSchedule (hc : c.Steady) {c' : Ctx} {id : ActionID} {p : WorkflowActionType → Bool} {n : Nat}
    (h : c.alignSchedule id p n = some c') : c' = c := by
  unfold Ctx.alignSchedule at h
  rw [hc.dropUnless] at h
  exact (Option.ite_none_right_eq_some.mp h).2 |> Option.some.inj |> Eq.symm

theorem onTaskScheduled (hc : c.Steady) {c' : Ctx} {id : ActionID} {ts : TaskScheduledEvent}
    (h : c.onTaskScheduled id ts = .ok c') : c'.Steady := by
  unfold Ctx.onTaskScheduled at h
  split at h
  · next c₁ hc₁ =>
    cases h
    rw [hc.alignSchedule hc₁]
    exact hc.removeAction id
  · cases h

theorem onChildWorkflowScheduled (hc : c.Steady) {c' : Ctx} {id : ActionID}
    {ts : ChildWorkflowInstanceCreatedEvent} (h : c.onChildWorkflowScheduled id ts = .ok c') :
    c'.Steady := by
  unfold Ctx.onChildWorkflowScheduled at h
  split at h
  · next c₁ hc₁ =>
    cases h
    rw [hc.alignSchedule hc₁]
    refine removeAction ?_ id
    unfold setChildInstanceID
    split
    · split
      · exact hc.ident _
      · exact hc
    · exact hc
  · cases h

theorem onTimerCreated (hc : c.Steady) {c' : Ctx} {id : ActionID} {tc : TimerCreatedEvent}
    (h : c.onTimerCreated id tc = .ok c') : c'.Steady := by
  unfold Ctx.onTimerCreated at h
  dsimp only at h
  rw [hc.dropUnless] at h
  split at h
  · cases h
    have hremoved : ({ c with pend := c.pend.removeTimer id } : Ctx).Steady := by
      refine ⟨hc.waits, hc.callbacks, ?_, (hc.removeAction id).actions, hc.keys, hc.refs, hc.tasks,
        hc.resolved⟩
      unfold Pending.removeTimer
      dsimp only
      rw [show (c.pend.removeAction id).optionalTimerIDs = [] from hc.optional]
      rfl
    unfold consumeReadyBufferedResolutions
    split
    · exact hremoved
    · exact hremoved.consumeFor _
  · cases h

theorem onDetachedWorkflowCreated (hc : c.Steady) {c' : Ctx} {id : ActionID} {instanceId : InstanceID}
    (h : c.onDetachedWorkflowCreated id instanceId = .ok c') : c'.Steady := by
  unfold Ctx.onDetachedWorkflowCreated at h
  dsimp only at h
  rw [hc.dropUnless] at h
  split at h
  · cases h
  · split at h
    · cases h
      exact hc.removeAction id
    · cases h

theorem onExternalEventRaised (hc : c.Steady) (env : SdkEnv) (e : HistoryEvent) (er : EventRaisedEvent) :
    ({ c with core := Ctx.onExternalEventRaised env c.core e er } : Ctx).Steady := by
  unfold Ctx.onExternalEventRaised
  dsimp only
  rw [hc.waits]
  exact ⟨rfl, hc.callbacks, hc.optional, hc.actions, hc.keys, hc.refs, hc.tasks, hc.resolved⟩

theorem onExecutionTerminated (hc : c.Steady) (et : ExecutionTerminatedEvent) :
    (c.onExecutionTerminated et).Steady := by
  have hterm : ({ c with core := { c.core with isTerminated := true } } : Ctx).Steady :=
    ⟨hc.waits, hc.callbacks, hc.optional, hc.actions, hc.keys, hc.refs, hc.tasks, hc.resolved⟩
  unfold Ctx.onExecutionTerminated
  dsimp only
  split
  · exact (Independent.setCompleteInternal _ _ _).steady (hterm.removeAction _)
  · exact hterm
  · exact (Independent.setCompleteInternal _ _ _).steady hterm

theorem onStartError (hc : c.Steady) (err : ProcessError) : (c.onStartError err).Steady := by
  unfold Ctx.onStartError
  split
  · exact (Independent.addAction .workflowVersionNotAvailable none fun _ => rfl).steady hc
  · exact (Independent.setCompleteInternal _ _ _).steady hc

end Ctx.Steady

/-- The frames of programs without retry policies. -/
def Frame.isPlain {σ : Type} : Frame σ → Bool
  | .start | .code _ | .await _ _ | .drain _ => true
  | _ => false

namespace Machine

variable {σ : Type} {sdk : Sdk σ} {m m' : Machine σ}

/-- The states of a plain program. -/
structure Tame (m : Machine σ) : Prop where
  steady : m.ctx.Steady
  frames : ∀ f ∈ m.stack, f.isPlain = true

namespace Tame

theorem handle (h : m.Tame) {r : Except ProcessError Ctx} (hr : ∀ c, r = .ok c → c.Steady) :
    (m.handle r).Tame := by
  cases r with
  | ok c => exact ⟨hr c rfl, h.frames⟩
  | error err => exact ⟨h.steady, h.frames⟩

theorem dispatch (sdk : Sdk σ) (h : m.Tame) (e : HistoryEvent) : (Machine.dispatch sdk m e).Tame := by
  have hcore {core : Core} (hw : core.pendingExternalEventTasks = m.ctx.core.pendingExternalEventTasks)
      (ht : core.tasks = m.ctx.core.tasks) : ({ m.ctx with core := core } : Ctx).Steady :=
    ⟨hw.trans h.steady.waits, by dsimp only; rw [ht]; exact h.steady.callbacks, h.steady.optional,
      h.steady.actions, h.steady.keys, h.steady.refs, by dsimp only; rw [ht]; exact h.steady.tasks,
      h.steady.resolved⟩
  have hres (k : Kind × ActionID) :
      (m.handle (.ok (m.ctx.onResolution k e))).Tame := ⟨h.steady.onResolution k e, h.frames⟩
  unfold Machine.dispatch
  split
  · exact ⟨hcore rfl rfl, h.frames⟩
  · next es _ =>
    unfold onExecutionStarted
    split
    · exact ⟨h.steady, h.frames⟩
    · exact ⟨hcore rfl rfl, h.frames⟩
  · exact h.handle fun c hc => h.steady.onTaskScheduled hc
  · exact h.handle fun c hc => h.steady.onChildWorkflowScheduled hc
  · exact h.handle fun c hc => h.steady.onDetachedWorkflowCreated hc
  · exact h.handle fun c hc => h.steady.onTimerCreated hc
  · exact hres _
  · exact hres _
  · exact hres _
  · exact hres _
  · exact hres _
  · exact ⟨h.steady.onExternalEventRaised .., h.frames⟩
  · exact ⟨hcore rfl rfl, h.frames⟩
  · refine ⟨hcore rfl rfl, fun f hf => ?_⟩
    rcases List.mem_cons.mp hf with rfl | hf
    · rfl
    · exact h.frames f hf
  · exact ⟨h.steady.onExecutionTerminated _, h.frames⟩
  · exact ⟨h.steady, h.frames⟩
  · exact ⟨h.steady, h.frames⟩
  · exact ⟨h.steady, h.frames⟩
  · exact ⟨h.steady, h.frames⟩
  · exact ⟨h.steady, h.frames⟩

theorem processEvent (sdk : Sdk σ) (h : m.Tame) (e : Nat × HistoryEvent) :
    (Machine.processEvent sdk m e).Tame := by
  unfold Machine.processEvent
  split
  · exact ⟨h.steady, h.frames⟩
  · split
    · exact ⟨h.steady, h.frames⟩
    · exact dispatch sdk (m := { m with handled := m.handled ++ [e.1] }) ⟨h.steady, h.frames⟩ e.2

theorem step (hsdk : sdk.Plain) (h : m.Tame) (hs : Machine.step sdk m = some m') : m'.Tame := by
  have hrest {f : Frame σ} {rest : List (Frame σ)} (hstack : m.stack = f :: rest) :
      ∀ f ∈ rest, f.isPlain = true := fun g hg => h.frames g (hstack ▸ List.mem_cons_of_mem _ hg)
  cases step_cases hs with
  | code hcode hs =>
    unfold inCode at hcode
    cases hc : m.control with
    | run st =>
      obtain ⟨u, g, hu, hg, hstep⟩ := step_run hsdk (s := m.shape) hc
      obtain rfl := Option.some.inj (hs.symm.trans (hstep m rfl))
      refine ⟨hu.steady h.steady, ?_⟩
      rcases hg (u m.ctx).2 with ⟨hstack, -⟩ | ⟨task, dst, k, hstack, -⟩
      · show ∀ f ∈ (g (u m.ctx).2).stack, f.isPlain = true
        rw [hstack]
        exact h.frames
      · show ∀ f ∈ (g (u m.ctx).2).stack, f.isPlain = true
        rw [hstack]
        rintro f (_ | ⟨_, _ | ⟨_, hf⟩⟩)
        · rfl
        · rfl
        · exact h.frames f hf
    | returned r =>
      have htop {f : Frame σ} {rest : List (Frame σ)} (hstack : m.stack = f :: rest) :
          f.isPlain = true := h.frames f (hstack ▸ List.mem_cons_self)
      unfold Machine.step at hs
      rw [hc] at hs
      dsimp only at hs
      unfold stepReturned at hs
      split at hs
      · next hstack =>
        cases hs
        exact ⟨h.steady, hrest hstack⟩
      · next hstack => cases htop hstack
      · next hstack => cases htop hstack
      · next hstack => cases htop hstack
      · next hstack => cases htop hstack
      · cases hs
    | loop => rw [hc] at hcode; cases hcode
    | raised => rw [hc] at hcode; cases hcode
    | done => rw [hc] at hcode; cases hcode
  | next hwaits he => exact processEvent sdk (m := { m with hist := m.hist.taken }) ⟨h.steady, h.frames⟩ _
  | @drain e es rest hc hstack =>
    refine processEvent sdk (m := { m with stack := .drain es :: rest }) ⟨h.steady, fun f hf => ?_⟩ _
    rcases List.mem_cons.mp hf with rfl | hf
    · rfl
    · exact hrest hstack f hf
  | drained hc hstack => exact ⟨h.steady, hrest hstack⟩
  | awaited hc hstack => exact ⟨h.steady, hrest hstack⟩
  | abandoned hc hstack => exact ⟨h.steady, hrest hstack⟩
  | failed hc hstack => exact ⟨h.steady, hrest hstack⟩
  | ended hc hstack => exact ⟨h.steady.onStartError _, h.frames⟩

theorem init (id : InstanceID) (oldEvents newEvents : List HistoryEvent) :
    (Machine.init id oldEvents newEvents : Machine σ).Tame where
  steady := ⟨rfl, fun _ h => absurd h List.not_mem_nil, rfl, fun _ h => absurd h List.not_mem_nil,
    List.nodup_nil, List.nodup_nil, fun _ h => absurd h List.not_mem_nil,
    fun _ h => absurd h List.not_mem_nil⟩
  frames _ hf := List.mem_singleton.mp hf ▸ rfl

end Tame

end Machine

/-! ### Quiet states -/

/-- A stack of a plain program in which no loop over buffered events has any left, with a loop on top
or, after an `Await` has returned, the code that waited for it. -/
def Frame.quiet {σ : Type} : Bool → List (Frame σ) → Bool
  | true, [.start] => true
  | true, .drain [] :: fs => Frame.quiet true fs
  | true, .await _ _ :: fs => Frame.quiet false fs
  | false, .code _ :: fs => Frame.quiet true fs
  | _, _ => false

/-- Code runs, an `Await` has returned to it, or a loop is about to go on. -/
def Shape.Quiet {σ : Type} (s : Shape σ) : Prop :=
  match s.control with
  | .run _ | .loop => Frame.quiet true s.stack = true
  | .returned _ => Frame.quiet false s.stack = true
  | _ => False

/-- The events of a history and how many of them were taken. -/
def Hist.position (h : Hist) : List HistoryEvent × Nat := (h.events, h.historyIndex)

namespace Machine

variable {σ : Type} {sdk : Sdk σ} {m m' : Machine σ}

/-- What a quiet machine does next: an update that is independent of deliveries, waiting for a task, or
taking an event. -/
inductive Next (sdk : Sdk σ) (s : Shape σ) : Prop
  | update (u : Ctx → Ctx × Resp) (g : Resp → Shape σ) (hu : Ctx.Independent u) (hg : ∀ r, (g r).Quiet)
    (hstep : ∀ n : Machine σ, n.shape = s → ∃ n', step sdk n = some n' ∧
      n'.shape = g (u n.ctx).2 ∧ n'.ctx = (u n.ctx).1 ∧ n'.hist.position = n.hist.position)
  | await (task : Nat) (dst : Option Nat) (rest : List (Frame σ)) (hloop : s.control = .loop)
    (hrest : Frame.quiet false rest = true)
    (hstep : ∀ n : Machine σ, n.shape = s → step sdk n =
      if (n.ctx.core.task task).isCompleted then
        some { n with stack := rest, control := .returned (awaitResult sdk (n.ctx.core.task task) dst) }
      else processNextEvent sdk n)
  | take (hloop : s.control = .loop) (hstep : ∀ n : Machine σ, n.shape = s → step sdk n = processNextEvent sdk n)

theorem next_of_quiet (hsdk : sdk.Plain) {s : Shape σ} (hs : s.Quiet) : Next sdk s := by
  rcases s with ⟨control, stack, trace⟩
  cases control with
  | run st =>
    obtain ⟨u, g, hu, hg, hstep⟩ := step_run hsdk (s := ⟨.run st, stack, trace⟩) rfl
    refine .update u g hu (fun r => ?_) fun n hn => ⟨_, hstep n hn, rfl, rfl, rfl⟩
    have hq : Frame.quiet true stack = true := hs
    unfold Shape.Quiet
    rcases hg r with ⟨hstack, hc | ⟨st', hc⟩⟩ | ⟨task, dst, k, hstack, hc⟩
    · rw [hc, hstack]
      exact hq
    · rw [hc, hstack]
      exact hq
    · rw [hc, hstack]
      exact hq
  | returned r =>
    have hq : Frame.quiet false stack = true := hs
    rcases stack with _ | ⟨f, rest⟩
    · cases hq
    · cases f with
      | code k =>
        refine .update _ (fun _ => ⟨.run (k (.awaited r)), rest, trace ++ [.resp (.awaited r)]⟩)
          (Ctx.Independent.const .unit) (fun _ => hq) fun n hn => ?_
        obtain ⟨hist, ctx, control, stack, trace, errors, handled, buffered⟩ := n
        cases hn
        exact ⟨_, rfl, rfl, rfl, rfl⟩
      | _ => cases hq
  | loop =>
    have hq : Frame.quiet true stack = true := hs
    rcases stack with _ | ⟨f, rest⟩
    · cases hq
    · cases f with
      | start =>
        refine .take rfl fun n hn => ?_
        obtain ⟨hist, ctx, control, stack, trace, errors, handled, buffered⟩ := n
        cases hn
        rfl
      | await task dst =>
        refine .await task dst rest rfl hq fun n hn => ?_
        obtain ⟨hist, ctx, control, stack, trace, errors, handled, buffered⟩ := n
        cases hn
        rfl
      | drain es =>
        cases es with
        | nil =>
          refine .update _ (fun _ => ⟨.loop, rest, trace⟩) (Ctx.Independent.const .unit) (fun _ => hq)
            fun n hn => ?_
          obtain ⟨hist, ctx, control, stack, trace, errors, handled, buffered⟩ := n
          cases hn
          exact ⟨_, rfl, rfl, rfl, rfl⟩
        | cons e es => cases hq
      | _ => cases hq
  | raised err => exact hs.elim
  | done => exact hs.elim

end Machine

/-! ### Receiving resolutions -/

namespace Ctx

/-- What processing a resolution event does to a context. -/
def receive (e : HistoryEvent) (c : Ctx) : Ctx :=
  if c.core.isTerminated || c.core.isSuspended then c
  else
    match e.resolution with
    | some k => c.onResolution k e
    | none => c

variable {c c' : Ctx}

theorem flag_of_suspension (h : c'.core.suspension = c.core.suspension) :
    (c'.core.isTerminated || c'.core.isSuspended) = (c.core.isTerminated || c.core.isSuspended) := by
  rw [show c'.core.isTerminated = c.core.isTerminated from congrArg Prod.snd h,
    show c'.core.isSuspended = c.core.isSuspended from congrArg Prod.fst h]

theorem Steady.receive (hc : c.Steady) (e : HistoryEvent) : (c.receive e).Steady := by
  unfold Ctx.receive
  split
  · exact hc
  · split
    · exact hc.onResolution _ e
    · exact hc

theorem Same.receive (h : Same c c') (e : HistoryEvent) : Same (c.receive e) (c'.receive e) := by
  unfold Ctx.receive
  rw [h.core]
  split
  · exact h
  · split
    · exact h.onResolution _ e
    · exact h

theorem Independent.receive {β : Type} {u : Ctx → Ctx × β} (hu : Independent u) (e : HistoryEvent)
    (hc : c.Steady) :
    Same ((u c).1.receive e) (u (c.receive e)).1 ∧ (u (c.receive e)).2 = (u c).2 := by
  unfold Ctx.receive
  rw [flag_of_suspension (hu.suspension c)]
  split
  · exact ⟨.refl _, rfl⟩
  · split
    · exact hu.comm _ e hc
    · exact ⟨.refl _, rfl⟩

/-- A delivery leaves completed tasks alone. -/
theorem Steady.task_receive (hc : c.Steady) (e : HistoryEvent) {t : Nat}
    (ht : (c.core.task t).isCompleted = true) : (c.receive e).core.task t = c.core.task t := by
  unfold Ctx.receive
  split
  · rfl
  · split
    · next k _ =>
      cases hdel : c.pend.deliverable k with
      | none => rw [onResolution_of_none hdel]; rfl
      | some t' =>
        rw [hc.onResolution_of_some hdel]
        obtain ⟨-, x, hx, hrunning⟩ := hc.tasks _ (Assoc.mem_of_get? (hc.deliverable_iff.mp hdel))
        refine Core.task_modifyTask_of_ne _ _ _ ?_
        rintro rfl
        unfold Core.task at ht
        rw [List.getD_eq_getElem?_getD, hx] at ht
        rw [Option.getD_some, hrunning] at ht
        cases ht
    · rfl

end Ctx

/-! ### Steps and deliveries -/

namespace Machine

variable {σ : Type} {sdk : Sdk σ} {m m' : Machine σ}

def view (m : Machine σ) : Shape σ × Ctx := (m.shape, m.ctx)

/-- A replay without further history. -/
def exhausted (p : Shape σ × Ctx) : Machine σ :=
  { hist := { oldEvents := [], newEvents := [] }
    ctx := p.2, control := p.1.control, stack := p.1.stack, trace := p.1.trace }

/-- A step that takes no event. -/
def alone (sdk : Sdk σ) (p : Shape σ × Ctx) : Option (Shape σ × Ctx) := (step sdk (exhausted p)).map view

/-- Receiving a resolution event between steps. -/
def deliver (e : HistoryEvent) (p : Shape σ × Ctx) : Shape σ × Ctx := (p.1, p.2.receive e)

theorem alone_cases (hsdk : sdk.Plain) {s : Shape σ} (hs : s.Quiet) :
    (∃ (u : Ctx → Ctx × Resp) (g : Resp → Shape σ), Ctx.Independent u ∧ (∀ r, (g r).Quiet) ∧
      ∀ c, alone sdk (s, c) = some (g (u c).2, (u c).1)) ∨
    (∃ (task : Nat) (g : CompletableTask → Shape σ), (∀ x, (g x).Quiet) ∧ ∀ c, alone sdk (s, c) =
      if (c.core.task task).isCompleted then some (g (c.core.task task), c) else none) ∨
    ∀ c, alone sdk (s, c) = none := by
  cases next_of_quiet hsdk hs with
  | update u g hu hg hstep =>
    refine .inl ⟨u, g, hu, hg, fun c => ?_⟩
    obtain ⟨n', hn', hshape, hctx, -⟩ := hstep (exhausted (s, c)) rfl
    unfold alone
    rw [hn', Option.map_some, view, hshape, hctx]
    rfl
  | await task dst rest hloop hrest hstep =>
    refine .inr (.inl ⟨task, fun x => ⟨.returned (awaitResult sdk x dst), rest, s.trace⟩, fun x => hrest,
      fun c => ?_⟩)
    unfold alone
    rw [hstep _ rfl]
    show Option.map view (if (c.core.task task).isCompleted then _ else none) = _
    split <;> rfl
  | take hloop hstep =>
    refine .inr (.inr fun c => ?_)
    unfold alone
    rw [hstep _ rfl]
    rfl

theorem commuting (hsdk : sdk.Plain) :
    Transition.Commuting (alone sdk) deliver (fun p => p.1.Quiet ∧ p.2.Steady)
      fun p p' => p'.1 = p.1 ∧ Ctx.Same p.2 p'.2 where
  equiv := ⟨fun _ => ⟨rfl, .refl _⟩, fun h => ⟨h.1.symm, h.2.symm⟩,
    fun h h' => ⟨h'.1.trans h.1, h.2.trans h'.2⟩⟩
  inv_step {p q} hp hs := by
    rcases p with ⟨s, c⟩
    rcases alone_cases hsdk hp.1 with ⟨u, g, hu, hg, hstep⟩ | ⟨task, g, hg, hstep⟩ | hstep
    · rw [hstep] at hs
      cases hs
      exact ⟨hg _, hu.steady hp.2⟩
    · rw [hstep] at hs
      obtain ⟨-, hs⟩ := Option.ite_none_right_eq_some.mp hs
      cases hs
      exact ⟨hg _, hp.2⟩
    · rw [hstep] at hs
      cases hs
  inv_deliver e {p} hp := ⟨hp.1, hp.2.receive e⟩
  step {p p'} hp h := by
    rcases p with ⟨s, c⟩
    rcases p' with ⟨s', c'⟩
    obtain ⟨rfl, hsame⟩ := h
    rcases alone_cases hsdk hp.1 with ⟨u, g, hu, hg, hstep⟩ | ⟨task, g, hg, hstep⟩ | hstep
    · obtain ⟨hsame', hres⟩ := hu.congr hsame
      rw [hstep, hstep]
      exact .some ⟨by rw [hres], hsame'⟩
    · rw [hstep, hstep]
      dsimp only at hsame
      rw [hsame.core]
      split
      · exact .some ⟨rfl, hsame⟩
      · exact .none
    · rw [hstep, hstep]
      exact .none
  deliver_congr e {p p'} hp h := ⟨h.1, h.2.receive e⟩
  comm e {p q} hp hs := by
    rcases p with ⟨s, c⟩
    rcases alone_cases hsdk hp.1 with ⟨u, g, hu, hg, hstep⟩ | ⟨task, g, hg, hstep⟩ | hstep
    · obtain ⟨hsame, hres⟩ := hu.receive e hp.2
      rw [hstep] at hs
      cases hs
      refine ⟨_, hstep _, ?_, hsame⟩
      rw [hres]
      rfl
    · rw [hstep] at hs
      obtain ⟨hdone, hs⟩ := Option.ite_none_right_eq_some.mp hs
      cases hs
      refine ⟨_, ?_, rfl, .refl _⟩
      show alone sdk (s, c.receive e) = _
      rw [hstep, hp.2.task_receive e hdone, if_pos hdone]
      rfl
    · rw [hstep] at hs
      cases hs

/-- The events that were not taken yet. -/
def remaining (m : Machine σ) : List HistoryEvent := m.hist.events.drop m.hist.historyIndex

theorem remaining_of_position (h : m'.hist.position = m.hist.position) : m'.remaining = m.remaining := by
  unfold remaining
  rw [show m'.hist.events = m.hist.events from congrArg Prod.fst h,
    show m'.hist.historyIndex = m.hist.historyIndex from congrArg Prod.snd h]

/-- A resolution event is dispatched to its handler. -/
theorem dispatch_resolution (sdk : Sdk σ) (m : Machine σ) {e : HistoryEvent} {k : Kind × ActionID}
    (he : e.resolution = some k) :
    dispatch sdk m e = { m with ctx := m.ctx.onResolution k e, control := .loop } ∧
      handledWhileSuspended e = false := by
  rcases e with ⟨eventId, timestamp, body, router, row⟩
  cases body <;> cases he <;> exact ⟨rfl, rfl⟩

/-- Processing a resolution event receives it. -/
theorem processEvent_resolution (sdk : Sdk σ) {e : HistoryEvent} (he : e.resolution.isSome = true)
    (hloop : m.control = .loop) (i : Nat) :
    (processEvent sdk m (i, e)).view = deliver e m.view ∧
      (processEvent sdk m (i, e)).hist.position = m.hist.position := by
  obtain ⟨k, hk⟩ := Option.isSome_iff_exists.mp he
  obtain ⟨hdispatch, hwhile⟩ := dispatch_resolution sdk { m with handled := m.handled ++ [i] } hk
  have hshape (c : Ctx) : ((⟨.loop, m.stack, m.trace⟩ : Shape σ), c) = (m.shape, c) := by
    unfold shape
    rw [hloop]
  unfold processEvent deliver Ctx.receive
  by_cases hterm : m.ctx.core.isTerminated = true
  · simp only [hterm, if_true, Bool.true_or, view]
    exact ⟨hshape _, trivial⟩
  · by_cases hsusp : m.ctx.core.isSuspended = true
    · simp only [hterm, hsusp, hwhile, if_true, Bool.or_true, Bool.not_false, Bool.and_self, view]
      exact ⟨hshape _, rfl⟩
    · simp only [hterm, hsusp, view, hk, Bool.false_and, Bool.or_self, hdispatch]
      exact ⟨hshape _, rfl⟩

/-- The steps of a machine whose further events are resolutions. -/
theorem advance_eq (hsdk : sdk.Plain) (hq : m.shape.Quiet)
    (hrest : ∀ e ∈ m.remaining, e.resolution.isSome = true) :
    Transition.advance (alone sdk) deliver (m.view, m.remaining) =
      (step sdk m).map fun m => (m.view, m.remaining) := by
  have htake (hloop : m.control = .loop) (hwait : alone sdk m.view = none)
      (hstep : step sdk m = processNextEvent sdk m) :
      Transition.advance (alone sdk) deliver (m.view, m.remaining) =
        (step sdk m).map fun m => (m.view, m.remaining) := by
    unfold Transition.advance
    dsimp only
    rw [hwait, hstep]
    cases hnext : m.hist.events[m.hist.historyIndex]? with
    | none =>
      have hnone : m.remaining = [] := List.drop_eq_nil_of_le (List.getElem?_eq_none_iff.mp hnext)
      have hend : processNextEvent sdk m = none := by
        unfold processNextEvent Hist.getNextHistoryEvent
        rw [hnext]
        rfl
      rw [hnone, hend]
      rfl
    | some e =>
      obtain ⟨hlt, hget⟩ := List.getElem?_eq_some_iff.mp hnext
      have hcons : m.remaining = e :: m.hist.events.drop (m.hist.historyIndex + 1) := by
        rw [← hget]
        exact List.drop_eq_getElem_cons hlt
      have he : e.resolution.isSome = true := hrest e (hcons ▸ List.mem_cons_self)
      obtain ⟨hview, hpos⟩ := processEvent_resolution sdk he (m := { m with hist := m.hist.taken })
        hloop m.hist.historyIndex
      rw [hcons, processNextEvent_eq hnext, Option.map_some, hview, remaining_of_position hpos]
      rfl
  cases next_of_quiet hsdk hq with
  | update u g hu hg hstep =>
    obtain ⟨n', hn', hshape, hctx, hpos⟩ := hstep m rfl
    obtain ⟨x, hx, hshape', hctx', -⟩ := hstep (exhausted m.view) rfl
    have halone : alone sdk m.view = some n'.view := by
      unfold alone
      rw [hx]
      exact congrArg some (Prod.ext (hshape'.trans hshape.symm) (hctx'.trans hctx.symm))
    unfold Transition.advance
    rw [halone, hn', Option.map_some, remaining_of_position hpos]
  | await task dst rest hloop hrest hstep =>
    by_cases hdone : (m.ctx.core.task task).isCompleted = true
    · have halone : alone sdk m.view = some (⟨.returned (awaitResult sdk (m.ctx.core.task task) dst), rest,
          m.trace⟩, m.ctx) := by
        unfold alone
        rw [hstep (exhausted m.view) rfl]
        exact congrArg (Option.map view) (if_pos hdone)
      unfold Transition.advance
      dsimp only
      rw [halone, hstep m rfl, if_pos hdone]
      rfl
    · refine htake hloop ?_ ?_
      · unfold alone
        rw [hstep (exhausted m.view) rfl]
        exact congrArg (Option.map view) (if_neg hdone)
      · rw [hstep m rfl, if_neg hdone]
  | take hloop hstep =>
    refine htake hloop ?_ (hstep m rfl)
    unfold alone
    rw [hstep (exhausted m.view) rfl]
    rfl

/-- A quiet replay whose further events are resolutions. -/
structure Receptive (m : Machine σ) : Prop where
  quiet : m.shape.Quiet
  steady : m.ctx.Steady
  events : ∀ e ∈ m.remaining, e.resolution.isSome = true

theorem Receptive.step (hsdk : sdk.Plain) (h : m.Receptive) (hs : Machine.step sdk m = some m') :
    m'.Receptive ∧ Transition.advance (alone sdk) deliver (m.view, m.remaining) =
      some (m'.view, m'.remaining) := by
  have hadv := advance_eq hsdk h.quiet h.events
  rw [hs, Option.map_some] at hadv
  obtain ⟨⟨hq, hst⟩, hmem⟩ := (commuting hsdk).inv_advance hadv ⟨h.quiet, h.steady⟩
  exact ⟨⟨hq, hst, fun e he => h.events e (hmem e he)⟩, hadv⟩

/-- A run of a receptive replay is one of its steps with deliveries in between, and conversely. -/
theorem Receptive.advances (hsdk : sdk.Plain) (h : m.Receptive)
    (hrun : Transition.Reaches (Machine.step sdk) m m') :
    m'.Receptive ∧ Transition.Reaches (Transition.advance (alone sdk) deliver) (m.view, m.remaining)
      (m'.view, m'.remaining) := by
  obtain ⟨p, hp, rfl, hm'⟩ := hrun.simulate (R := fun a p => p = (a.view, a.remaining) ∧ a.Receptive)
    ⟨rfl, h⟩ fun a b x hx hs _ => by
      obtain ⟨rfl, ha⟩ := hx
      obtain ⟨hb, hadv⟩ := ha.step hsdk hs
      exact ⟨_, hadv, rfl, hb⟩
  exact ⟨hm', hp⟩

end Machine

/-! ### Permuted batches -/

namespace ConfluenceExample

/-- A workflow calls and awaits an activity a number of times. -/
inductive Flow
  | calls (n : Nat)
  | waits (task : Nat) (n : Nat)

def next : Flow → Step Flow
  | .calls 0 => .ret (.ok .nil)
  | .calls (n + 1) => .call (.callActivity "A" []) fun
    | .task (.completable t) => .waits t n
    | _ => .calls 0
  | .waits t n => .call (.await (.completable t) none) fun _ => .calls n

def env : SdkEnv :=
  { toUpper := id, unmarshal := fun _ s => .ok s, handle := fun _ _ => true
    nextDelayMs := fun ms _ _ => ms, float64 := fun n => n
    childInstanceID := fun _ _ _ => "", uuid := fun _ => "" }

def sdk : Sdk Flow :=
  { env := env, registry := { workflows := [("once", .calls 1), ("twice", .calls 2)] }, next := next }

def turn : HistoryEvent := { eventType := .workflowStarted none }

def start (name : String) : HistoryEvent :=
  { eventType := .executionStarted { name := name, workflowInstance := ⟨"i", some "e1"⟩ } }

def suspend : HistoryEvent := { eventType := .executionSuspended none }

def resume : HistoryEvent := { eventType := .executionResumed none }

def scheduled (id : ActionID) : HistoryEvent :=
  { eventId := id, eventType := .taskScheduled { name := "A" } }

def completed (id : ActionID) : HistoryEvent :=
  { eventType := .taskCompleted { taskScheduledId := id, result := none, taskExecutionId := "" } }

def replay (old new : List HistoryEvent) : Machine Flow := (Machine.init "i" old new).run sdk 80

theorem plain : sdk.Plain := by
  intro s c k h
  rcases s with ⟨_ | n⟩ | ⟨t, n⟩
  · cases h
  · cases h
    rfl
  · cases h
    rfl

/-- The batches of a workflow that is suspended before it starts, resumed, suspended twice and resumed,
each with the events its turn records. -/
def turns : List (List HistoryEvent × List HistoryEvent) :=
  [([turn, suspend], []), ([turn, start "once"], []), ([turn, resume], [scheduled 0]),
    ([turn, suspend], []), ([turn, suspend, resume], [scheduled 1])]

/-- Whether turns record the actions their replays return, after the committed events `old`. -/
def recorded : List HistoryEvent → List (List HistoryEvent × List HistoryEvent) → Bool
  | _, [] => true
  | old, (batch, events) :: rest =>
    (replay old batch).ctx.actions.map (·.id) = events.map (·.eventId) ∧
      recorded (old ++ batch ++ events) rest

def history : List HistoryEvent := turns.flatMap fun t => t.1 ++ t.2

end ConfluenceExample

end DurableTask.Task
