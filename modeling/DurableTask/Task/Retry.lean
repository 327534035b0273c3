import DurableTask.Task.Updates

/-!
# Retry chains

A retry chain lives through three kinds of moments: the call schedules its first attempt, an observed
failure creates a back-off timer, and the fired timer schedules the next attempt. They are the same in
the patched chain (`retryTask`) and in the legacy one (`taskWrapper`), which differ in where they keep
their state. Whether a failure leads to a timer is decided by `computeNextDelay`, where a delay of zero
stands for giving up.
-/

namespace DurableTask

namespace Task

/-! ### The back-off without rounding -/

section Delay

variable {initial max : Int}

end Delay

namespace RetryPolicy

end RetryPolicy

namespace Ctx

variable (c : Ctx) (actionType : WorkflowActionType) (router : Option TaskRouter) (kind : Kind)

variable {c}

variable {actionType router}

variable (actionType router)

end Ctx

namespace Machine

variable {σ α : Type} {m : Machine σ}

/-- The `k`-th attempt of a chain has failed, and the `Await` that waits for it is told so. An error
with an attempt that is still running is not a failure of the attempt. -/
inductive AttemptFailed (m : Machine σ) (chain k : Nat) : Prop
  | retry {r : Nat} {dst : Option Nat} {err : AwaitError} {rest : List (Frame σ)}
    (hcontrol : m.control = .returned (.error err)) (hstack : m.stack = .retryAttempt r dst :: rest)
    (hchain : (m.retry r).chain = chain) (hk : k = (m.retry r).retryCount + 1)
    (hdone : (m.ctx.core.task (m.retry r).current).isCompleted = true)
  | wrapper {w : Nat} {dst : Option Nat} {err : AwaitError} {rest : List (Frame σ)}
    (hcontrol : m.control = .returned (.error err)) (hstack : m.stack = .wrapperDelegate w dst :: rest)
    (hchain : (m.wrapper w).chain = chain) (hk : k = (m.wrapper w).retryCount + 1)
    (hdone : (m.ctx.core.task (m.wrapper w).delegate).isCompleted = true)

/-- The frame of a chain that waits for the back-off timer after its `k`-th attempt. -/
def IsBackOff (m : Machine σ) (chain k : Nat) : Frame σ → Prop
  | .retryTimer r _ _ => (m.retry r).chain = chain ∧ k = (m.retry r).retryCount + 1
  | .wrapperTimer w _ _ _ => (m.wrapper w).chain = chain ∧ k = (m.wrapper w).retryCount + 1
  | _ => False

theorem retry_of_frame {m m' : Machine σ} (h : m'.ctx.core.frame = m.ctx.core.frame) (r : Nat) :
    m'.retry r = m.retry r := by
  have hsame : m'.ctx.core.retryTasks = m.ctx.core.retryTasks :=
    show m'.ctx.core.frame.retryTasks = m.ctx.core.frame.retryTasks from congrArg Core.retryTasks h
  unfold retry
  rw [hsame]

theorem wrapper_of_frame {m m' : Machine σ} (h : m'.ctx.core.frame = m.ctx.core.frame) (w : Nat) :
    m'.wrapper w = m.wrapper w := by
  have hsame : m'.ctx.core.wrappers = m.ctx.core.wrappers :=
    show m'.ctx.core.frame.wrappers = m.ctx.core.frame.wrappers from congrArg Core.wrappers h
  unfold wrapper
  rw [hsame]

/-- A retry task with its execution ids, which nothing but the ids of later actions reads. -/
theorem retry_modifyRetry (m : Machine σ) (r : Nat) {f : RetryTask → RetryTask} {g : RetryTask → α}
    (hf : ∀ t, g (f t) = g t) : g ((m.modifyRetry r f).retry r) = g (m.retry r) := by
  unfold retry modifyRetry
  dsimp only
  rw [List.getD_eq_getElem?_getD, List.getD_eq_getElem?_getD, List.getElem?_modify_eq]
  cases m.ctx.core.retryTasks[r]? with
  | none => rfl
  | some t => exact hf t

/-- What observing a failure leaves alone. -/
structure Observed (m m' : Machine σ) (r : Nat) : Prop where
  pend : m'.ctx.pend = m.ctx.pend
  chain : ∀ i, m'.ctx.chain i = m.ctx.chain i
  time : m'.ctx.core.currentTimeUtc = m.ctx.core.currentTimeUtc
  stack : m'.stack = m.stack
  hchain : (m'.retry r).chain = (m.retry r).chain
  retryCount : (m'.retry r).retryCount = (m.retry r).retryCount

theorem observed_observeFailure (m : Machine σ) (r : Nat) (current : CompletableTask) :
    Observed m (m.observeFailure r current) r := by
  unfold observeFailure
  split
  · exact ⟨rfl, fun _ => rfl, rfl, rfl, rfl, rfl⟩
  · exact ⟨rfl, fun _ => rfl, rfl, rfl, retry_modifyRetry m r fun _ => rfl,
      retry_modifyRetry m r fun _ => rfl⟩

variable {sdk : Sdk σ} {chain k : Nat}

theorem IsBackOff.of_frame {m m' : Machine σ} (h : m'.ctx.core.frame = m.ctx.core.frame) {f : Frame σ}
    (hf : m.IsBackOff chain k f) : m'.IsBackOff chain k f := by
  cases f with
  | retryTimer r dst err =>
    show (m'.retry r).chain = chain ∧ k = (m'.retry r).retryCount + 1
    rw [retry_of_frame h]
    exact hf
  | wrapperTimer w dst err executionID =>
    show (m'.wrapper w).chain = chain ∧ k = (m'.wrapper w).retryCount + 1
    rw [wrapper_of_frame h]
    exact hf
  | _ => exact hf.elim

/-- A failure short of the last attempt, with a delay that does not depend on the failure: the chain
gives up when the delay is zero, and waits for a timer otherwise. -/
theorem AttemptFailed.step_cases (hfail : m.AttemptFailed chain k) {delay : Duration}
    (hk : k < (m.ctx.chain chain).policy.maxAttempts)
    (hdelay : ∀ attempt err, Ctx.computeNextDelay sdk.env m.ctx.core.currentTimeUtc
      (m.ctx.chain chain).policy attempt (m.ctx.chain chain).initialAttempt err = delay) :
    delay = 0 ∧ (∃ m', step sdk m = some m' ∧ m'.stack = m.stack.tail) ∨
    delay ≠ 0 ∧ ∃ (m₁ : Machine σ) (executionID : String) (f : Frame σ),
      step sdk m = some ((m₁.createRetryTimer chain delay executionID).1.awaitUnder f
        (m₁.createRetryTimer chain delay executionID).2 none) ∧
      m₁.ctx.pend = m.ctx.pend ∧ m₁.ctx.chain chain = m.ctx.chain chain ∧
      m₁.ctx.core.currentTimeUtc = m.ctx.core.currentTimeUtc ∧ m₁.stack = m.stack.tail ∧
      m₁.IsBackOff chain k f := by
  cases hfail with
  | @retry r dst err rest hcontrol hstack hchain hcount hdone =>
    have hobs := observed_observeFailure { m with stack := rest } r
      (m.ctx.core.task (m.retry r).current)
    generalize hm₁ : observeFailure { m with stack := rest } r
      (m.ctx.core.task (m.retry r).current) = m₁ at hobs
    have hpolicy : m₁.ctx.chain (m.retry r).chain = m.ctx.chain chain :=
      (hobs.chain _).trans (congrArg m.ctx.chain hchain)
    have htail : m₁.stack = m.stack.tail := by
      rw [hobs.stack, hstack]
      rfl
    have hsame : ∀ i, Machine.retry { m with stack := rest } i = m.retry i := fun _ => rfl
    have hstep : step sdk m = some (onRetryFailure sdk { m with stack := rest } r dst err) := by
      simp only [step, hcontrol, stepReturned, hstack]
    have hmore : ¬(m.ctx.chain chain).policy.maxAttempts ≤ (m.retry r).retryCount + 1 := by omega
    have hnow := hobs.time
    unfold onRetryFailure at hstep
    simp only [hsame, hdone, not_true_eq_false, if_false, hm₁, hpolicy, hmore, hnow, hdelay] at hstep
    by_cases hzero : delay = 0
    · rw [if_pos hzero] at hstep
      exact .inl ⟨hzero, _, hstep, htail⟩
    · rw [if_neg hzero, hchain] at hstep
      exact .inr ⟨hzero, m₁, _, .retryTimer r dst err, hstep, hobs.pend, hobs.chain chain, hobs.time,
        htail, hobs.hchain.trans hchain, hcount.trans (congrArg (· + 1) hobs.retryCount.symm)⟩
  | @wrapper w dst err rest hcontrol hstack hchain hcount hdone =>
    have htail : rest = m.stack.tail := by rw [hstack]; rfl
    have hsame : ∀ i, Machine.wrapper { m with stack := rest } i = m.wrapper i := fun _ => rfl
    have hstep : step sdk m = some (onWrapperFailure sdk { m with stack := rest } w dst err) := by
      simp only [step, hcontrol, stepReturned, hstack]
    have hmore : ¬(m.ctx.chain chain).policy.maxAttempts ≤ (m.wrapper w).retryCount + 1 := by omega
    unfold onWrapperFailure at hstep
    simp only [hsame, hchain, if_false, hmore, hdelay] at hstep
    by_cases hzero : delay = 0
    · rw [if_pos hzero] at hstep
      exact .inl ⟨hzero, _, hstep, htail⟩
    · rw [if_neg hzero] at hstep
      exact .inr ⟨hzero, { m with stack := rest }, _, .wrapperTimer w dst err _, hstep, rfl, rfl, rfl,
        htail, hchain, hcount⟩

end Machine

/-! ### The call -/

namespace Ctx

end Ctx

/-! ### Accepted policies -/

namespace RetryExample

/-- Call an activity with a retry policy and wait for it. -/
inductive Flow
  | begin
  | waiting (task : TaskRef)
  | finished

def next (policy : RetryPolicy) : Flow → Step Flow
  | .begin => .call (.callActivity "A" [.retryPolicy (some policy)]) fun
    | .task t => .waiting t
    | _ => .finished
  | .waiting t => .call (.await t none) fun _ => .finished
  | .finished => .ret (.ok .nil)

def env : SdkEnv :=
  { toUpper := id, unmarshal := fun _ s => .ok s, handle := fun _ _ => true
    nextDelayMs := fun ms _ _ => ms, float64 := fun n => n
    childInstanceID := fun parent _ _ => parent, uuid := fun _ => "" }

def sdk (policy : RetryPolicy) : Sdk Flow :=
  { env := env, registry := { workflows := [("wf", .begin)] }, next := next policy }

/-- The activity fails once. The patches of the first event decide which version of the chain runs. -/
def events (patches : List String) : List HistoryEvent :=
  [{ eventType := .workflowStarted (some { patches := patches }) },
   { eventType := .executionStarted { name := "wf", workflowInstance := ⟨"i", some "e1"⟩ } },
   { eventId := 0, eventType := .taskScheduled { name := "A", taskExecutionId := "x" } },
   { eventType := .taskFailed { taskScheduledId := 0, failureDetails := none, taskExecutionId := "x" } }]

def replay (policy : RetryPolicy) (patches : List String) (n : Nat) : Machine Flow :=
  (Machine.init "i" [] (events patches)).run (sdk policy) n

/-- What `Validate` makes of a policy with the given number of attempts and interval. -/
def accepted (maxAttempts : Int) (interval : Duration) : RetryPolicy :=
  { maxAttempts := maxAttempts, initialRetryInterval := interval, backoffCoefficient := 1
    maxRetryInterval := maxInt64, retryTimeout := maxInt64 }

end RetryExample

end Task

end DurableTask
