import DurableTask.Task.Numbering
import DurableTask.Task.Steps

/-!
# Two replays in step: the calls

Two contexts with the same state of the workflow whose pending work is numbered alike, up to generated
names. With `same = false` the first one belongs to the earlier release, which does not have the
optional timers of the second. Every call of workflow code keeps them so and answers alike.
-/

namespace DurableTask.Task

/-- Two releases of the SDK, or one. Generated names may differ. -/
structure Engines (same : Bool) (env env' : SdkEnv) : Prop where
  toUpper : env'.toUpper = env.toUpper
  unmarshal : env'.unmarshal = env.unmarshal
  handle : env'.handle = env.handle
  nextDelayMs : env'.nextDelayMs = env.nextDelayMs
  float64 : env'.float64 = env.float64
  waits : if same then env'.legacyWaits = env.legacyWaits
    else env.legacyWaits = true ∧ env'.legacyWaits = false

/-- The entries that the first of two releases has too. -/
def shared (same : Bool) (es : List Entry) : List Entry :=
  if same then es else es.filter (!·.isOptional)

theorem shared_concat {same : Bool} {es : List Entry} {x : Entry}
    (hx : same = false → x.isOptional = false) : shared same (es ++ [x]) = shared same es ++ [x] := by
  cases same with
  | true => rfl
  | false => simp [shared, hx rfl]

namespace Ctx

structure Aligned (same : Bool) (b : ActionID) (T : List (ActionID × PendingTask)) (c c' : Ctx) :
    Prop where
  core : c'.core = c.core
  allocated : same = true → c'.pend.allocated = c.pend.allocated
  numbered : ∃ es, Numbered c.pend b (shared same es) T ∧ Numbered c'.pend b es T

namespace Aligned

variable {same : Bool} {b : ActionID} {T : List (ActionID × PendingTask)} {c c' : Ctx}
  {env env' : SdkEnv} {h h' : Hist}

/-- Changing the state of the workflow, and names. -/
theorem update (ha : Aligned same b T c c') {core core' : Core} (hcore : core' = core)
    (ident ident' : Ident) :
    Aligned same b T { c with core := core, ident := ident }
      { c' with core := core', ident := ident' } :=
  ⟨hcore, ha.allocated, ha.numbered⟩

theorem setCore (ha : Aligned same b T c c') {core core' : Core} (hcore : core' = core) :
    Aligned same b T { c with core := core } { c' with core := core' } :=
  ha.update hcore _ _

theorem ident (ha : Aligned same b T c c') (ident ident' : Ident) :
    Aligned same b T { c with ident := ident } { c' with ident := ident' } :=
  ha.update ha.core _ _

theorem sequenceNumber (ha : Aligned same b T c c') (hs : same = true) :
    c'.pend.sequenceNumber = c.pend.sequenceNumber := by
  obtain ⟨es, hn, hn'⟩ := ha.numbered
  subst hs
  exact hn'.sequenceNumber.trans hn.sequenceNumber.symm

/-- Scheduling the same work. -/
theorem register (ha : Aligned same b T c c') {actionType actionType' : WorkflowActionType}
    {router router' : Option TaskRouter} {kind : Kind} {optional : Bool}
    (he : ∀ id t, (⟨⟨id, actionType, router⟩, some t⟩ : PendingAction).entry = .work kind optional t)
    (he' : ∀ id t, (⟨⟨id, actionType', router'⟩, some t⟩ : PendingAction).entry =
      .work kind optional t)
    (hopt : same = false → optional = false) :
    Aligned same b T (c.register actionType router kind).1 (c'.register actionType' router' kind).1 ∧
      (c'.register actionType' router' kind).2.1 = (c.register actionType router kind).2.1 := by
  obtain ⟨es, hn, hn'⟩ := ha.numbered
  obtain ⟨p, hp, hnum, halloc⟩ := register_of_numbered hn (he _ _)
  obtain ⟨p', hp', hnum', halloc'⟩ := register_of_numbered hn' (he' _ _)
  rw [hp, hp']
  refine ⟨⟨?_, fun hs => ?_, es ++ [.work kind optional c.core.tasks.length], ?_, ?_⟩, ?_⟩
  · exact congrArg (fun core => (Core.newTask core).1) ha.core
  · rw [halloc, halloc', ha.sequenceNumber hs, ha.allocated hs]
  · rw [shared_concat (by simpa [Entry.isOptional] using hopt)]
    exact hnum
  · rw [← ha.core]
    exact hnum'
  · rw [ha.core]

/-- Only the second release has the timer of an indefinite wait. -/
theorem registerOptional (ha : Aligned false b T c c') {actionType : WorkflowActionType}
    {router : Option TaskRouter}
    (he : ∀ id t, (⟨⟨id, actionType, router⟩, some t⟩ : PendingAction).entry = .work .timer true t) :
    Aligned false b T { c with core := c.core.newTask.1 } (c'.register actionType router .timer).1 ∧
      (c'.register actionType router .timer).2.1 = c.core.tasks.length := by
  obtain ⟨es, hn, hn'⟩ := ha.numbered
  obtain ⟨p', hp', hnum', -⟩ := register_of_numbered hn' (he _ _)
  rw [hp']
  refine ⟨⟨?_, nofun, es ++ [.work .timer true c'.core.tasks.length], ?_, hnum'⟩, ?_⟩
  · exact congrArg (fun core => (Core.newTask core).1) ha.core
  · have hshared : shared false (es ++ [.work .timer true c'.core.tasks.length]) = shared false es := by
      simp [shared, Entry.isOptional]
    rw [hshared]
    exact hn
  · rw [ha.core]

/-- An action without a task. -/
theorem addAction (ha : Aligned same b T c c') (actionType : WorkflowActionType)
    (router : Option TaskRouter) {x : Entry}
    (he : ∀ id, (⟨⟨id, actionType, router⟩, none⟩ : PendingAction).entry = x)
    (hx : x.isOptional = false) (ht : ∀ id, Entry.pendingTask (id, x) = none) (hne : x ≠ .other) :
    Aligned same b T { c with pend := (c.pend.addAction actionType router none).1 }
      { c' with pend := (c'.pend.addAction actionType router none).1 } := by
  obtain ⟨es, hn, hn'⟩ := ha.numbered
  have hadd := hn.addAction actionType router (by rw [he]; exact hx) (fun id => by rw [he]; exact ht id)
    (by rw [he]; exact hne)
  have hadd' := hn'.addAction actionType router (by rw [he]; exact hx)
    (fun id => by rw [he]; exact ht id) (by rw [he]; exact hne)
  rw [he] at hadd hadd'
  refine ⟨ha.core, fun hs => ?_, es ++ [x], ?_, hadd'⟩
  · show _ ++ [c'.pend.sequenceNumber] = _ ++ [c.pend.sequenceNumber]
    rw [ha.sequenceNumber hs, ha.allocated hs]
  · rw [shared_concat fun _ => hx]
    exact hadd

/-! ### Scheduling -/

theorem newUUID (ha : Aligned same b T c c') (env env' : SdkEnv) :
    Aligned same b T (c.newUUID env).1 (c'.newUUID env').1 :=
  ha.ident _ _

theorem internalScheduleActivity (ha : Aligned same b T c c') (activityName : String)
    (executionID executionID' : String) (options : CallActivityOptions) :
    Aligned same b T (c.internalScheduleActivity activityName executionID options).1
        (c'.internalScheduleActivity activityName executionID' options).1 ∧
      (c'.internalScheduleActivity activityName executionID' options).2 =
        (c.internalScheduleActivity activityName executionID options).2 :=
  ha.register (fun _ _ => rfl) (fun _ _ => rfl) fun _ => rfl

theorem internalCallChildWorkflow (ha : Aligned same b T c c') (workflowName : String)
    (options : CallChildWorkflowOptions) (retryParent retryParent' : Option InstanceID) :
    Aligned same b T (c.internalCallChildWorkflow workflowName options retryParent).1
        (c'.internalCallChildWorkflow workflowName options retryParent').1 ∧
      (c'.internalCallChildWorkflow workflowName options retryParent').2 =
        (c.internalCallChildWorkflow workflowName options retryParent).2 := by
  have hreg (router : Option TaskRouter) (child child' : CreateChildWorkflowAction) :
      Aligned same b T (c.register (.createChildWorkflow child) router .child).1
          (c'.register (.createChildWorkflow child') router .child).1 ∧
        (c'.register (.createChildWorkflow child') router .child).2.1 =
          (c.register (.createChildWorkflow child) router .child).2.1 :=
    ha.register (fun _ _ => rfl) (fun _ _ => rfl) fun _ => rfl
  exact And.imp_left (fun hr => hr.ident _ _) (hreg _ _ _)

theorem chain (ha : Aligned same b T c c') (i : Nat) : c'.chain i = c.chain i := by
  unfold Ctx.chain
  rw [ha.core]

theorem scheduleAttempt (ha : Aligned same b T c c') (i : Nat) (executionID executionID' : String)
    (isRetry : Bool) :
    Aligned same b T (c.scheduleAttempt i executionID isRetry).1
        (c'.scheduleAttempt i executionID' isRetry).1 ∧
      (c'.scheduleAttempt i executionID' isRetry).2 = (c.scheduleAttempt i executionID isRetry).2 := by
  unfold Ctx.scheduleAttempt
  rw [ha.chain]
  split
  · exact ha.internalScheduleActivity ..
  · next workflowName options _ =>
    split
    · exact ha.internalCallChildWorkflow ..
    · obtain ⟨hcall, htask⟩ := ha.internalCallChildWorkflow workflowName options none none
      refine ⟨?_, htask⟩
      dsimp only
      rw [htask]
      exact hcall.setCore (by rw [hcall.core])

theorem scheduleTaskWithRetriesLegacy (ha : Aligned same b T c c') (i retryCount : Nat)
    (executionID executionID' : String) :
    Aligned same b T (c.scheduleTaskWithRetriesLegacy i retryCount executionID).1
        (c'.scheduleTaskWithRetriesLegacy i retryCount executionID').1 ∧
      (c'.scheduleTaskWithRetriesLegacy i retryCount executionID').2 =
        (c.scheduleTaskWithRetriesLegacy i retryCount executionID).2 := by
  obtain ⟨hsched, htask⟩ := ha.scheduleAttempt i executionID executionID' (decide (0 < retryCount))
  unfold Ctx.scheduleTaskWithRetriesLegacy
  dsimp only
  rw [htask]
  exact ⟨hsched.setCore (by rw [hsched.core]), congrArg (fun core => core.wrappers.length) hsched.core⟩

theorem newRetryTask (ha : Aligned same b T c c') (i : Nat) (executionID executionID' : String) :
    Aligned same b T (c.newRetryTask i executionID).1 (c'.newRetryTask i executionID').1 ∧
      (c'.newRetryTask i executionID').2 = (c.newRetryTask i executionID).2 := by
  obtain ⟨hsched, htask⟩ := ha.scheduleAttempt i executionID executionID' false
  unfold Ctx.newRetryTask
  dsimp only
  rw [htask]
  exact ⟨hsched.update (by rw [hsched.core]) _ _, congrArg (fun core => core.retryTasks.length) hsched.core⟩

/-! ### Patches -/

/-- The two histories give the same answer for every patch that is first asked for between `c` and
`d`. -/
def Agree (h h' : Hist) (c d : Ctx) : Prop :=
  ∀ patchName, Assoc.get? c.core.appliedPatches patchName = none →
    (Assoc.get? d.core.appliedPatches patchName).isSome → decision h' patchName = decision h patchName

theorem isPatched (ha : Aligned same b T c c') {patchName : String}
    (hp : Agree h h' c (c.isPatched h patchName).1) :
    Aligned same b T (c.isPatched h patchName).1 (c'.isPatched h' patchName).1 ∧
      (c'.isPatched h' patchName).2 = (c.isPatched h patchName).2 := by
  cases hget : Assoc.get? c.core.appliedPatches patchName with
  | some patched =>
    have hget' : Assoc.get? c'.core.appliedPatches patchName = some patched := by rw [ha.core, hget]
    unfold Ctx.isPatched
    rw [hget, hget']
    exact ⟨ha.setCore (by rw [ha.core]), rfl⟩
  | none =>
    have hget' : Assoc.get? c'.core.appliedPatches patchName = none := by rw [ha.core, hget]
    have hdec : decision h' patchName = decision h patchName := by
      refine hp patchName hget ?_
      unfold Ctx.isPatched
      rw [hget]
      dsimp only
      rw [Assoc.get?_insert_self]
      rfl
    unfold Ctx.isPatched
    rw [hget, hget']
    dsimp only
    rw [hdec]
    exact ⟨ha.setCore (by rw [ha.core]), rfl⟩

theorem flags_scheduleAttempt (c : Ctx) (i : Nat) (executionID : String) (isRetry : Bool) :
    (c.scheduleAttempt i executionID isRetry).1.core.flags = c.core.flags := by
  unfold Ctx.scheduleAttempt
  split
  · exact flags_register ..
  · split
    · exact flags_register ..
    · exact (flags_register .. : (c.internalCallChildWorkflow _ _ _).1.core.flags = _)

theorem retryChainPatched (ha : Aligned same b T c c') (hp : Agree h h' c (c.retryChainPatched h).1) :
    Aligned same b T (c.retryChainPatched h).1 (c'.retryChainPatched h').1 ∧
      (c'.retryChainPatched h').2 = (c.retryChainPatched h).2 := by
  cases hget : Assoc.get? c.core.appliedPatches retryChainPatch with
  | some patched =>
    have hget' : Assoc.get? c'.core.appliedPatches retryChainPatch = some patched := by
      rw [ha.core, hget]
    simp only [Ctx.retryChainPatched, hget, hget']
    exact ⟨ha, trivial⟩
  | none =>
    have hget' : Assoc.get? c'.core.appliedPatches retryChainPatch = none := by rw [ha.core, hget]
    simp only [Ctx.retryChainPatched, hget, hget'] at hp ⊢
    exact ha.isPatched hp

theorem scheduleTaskWithRetries (ha : Aligned same b T c c') (i : Nat)
    (executionID executionID' : String)
    (hp : Agree h h' c (c.scheduleTaskWithRetries h i executionID).1) :
    Aligned same b T (c.scheduleTaskWithRetries h i executionID).1
        (c'.scheduleTaskWithRetries h' i executionID').1 ∧
      (c'.scheduleTaskWithRetries h' i executionID').2 =
        (c.scheduleTaskWithRetries h i executionID).2 := by
  have hflags : (c.scheduleTaskWithRetries h i executionID).1.core.flags =
      (c.retryChainPatched h).1.core.flags := by
    unfold Ctx.scheduleTaskWithRetries
    dsimp only
    split
    · exact (flags_scheduleAttempt (c.retryChainPatched h).1 i executionID false :)
    · exact (flags_scheduleAttempt (c.retryChainPatched h).1 i executionID (decide (0 < 0)) :)
  have hp' : Agree h h' c (c.retryChainPatched h).1 := by
    intro patchName hnone hsome
    refine hp patchName hnone ?_
    rw [show (c.scheduleTaskWithRetries h i executionID).1.core.appliedPatches =
      (c.retryChainPatched h).1.core.appliedPatches from congrArg Flags.appliedPatches hflags]
    exact hsome
  obtain ⟨hpatch, hans⟩ := ha.retryChainPatched hp'
  unfold Ctx.scheduleTaskWithRetries
  dsimp only
  rw [hans]
  split
  · obtain ⟨hnew, htask⟩ := hpatch.newRetryTask i executionID executionID'
    exact ⟨hnew, by rw [htask]⟩
  · obtain ⟨hnew, htask⟩ := hpatch.scheduleTaskWithRetriesLegacy i 0 executionID executionID'
    exact ⟨hnew, by rw [htask]⟩

theorem addChain (ha : Aligned same b T c c') (name : String) (attempt : Attempt) (policy : RetryPolicy)
    (first first' : Option InstanceID) :
    Aligned same b T (c.addChain name attempt policy first).1 (c'.addChain name attempt policy first').1 ∧
      (c'.addChain name attempt policy first').2 = (c.addChain name attempt policy first).2 :=
  ⟨ha.update (by rw [ha.core]) _ _, congrArg (fun core => core.chains.length) ha.core⟩

theorem startChain (ha : Aligned same b T c c') (name : String) (attempt : Attempt)
    (policy : RetryPolicy) (first first' : Option InstanceID)
    (hp : Agree h h' c (c.startChain env h name attempt policy first).1) :
    Aligned same b T (c.startChain env h name attempt policy first).1
        (c'.startChain env' h' name attempt policy first').1 ∧
      (c'.startChain env' h' name attempt policy first').2 =
        (c.startChain env h name attempt policy first).2 := by
  obtain ⟨hadd, hi⟩ := ha.addChain name attempt policy first first'
  have huuid := hadd.newUUID env env'
  unfold Ctx.startChain at hp ⊢
  dsimp only at hp ⊢
  rw [hi]
  exact huuid.scheduleTaskWithRetries _ _ _ hp

theorem failedTask (ha : Aligned same b T c c') (fd : TaskFailureDetails) :
    Aligned same b T (c.failedTask fd).1 (c'.failedTask fd).1 ∧
      (c'.failedTask fd).2 = (c.failedTask fd).2 := by
  refine ⟨ha.setCore (congrArg (fun core => (Core.failedTask core fd).1) ha.core), ?_⟩
  exact congrArg (fun core => TaskRef.completable (Core.failedTask core fd).2) ha.core

/-! ### The calls -/

theorem callActivity (ha : Aligned same b T c c') (env' : SdkEnv) (activityName : String)
    (opts : List CallActivityOption)
    (hp : Agree h h' c (c.callActivity env h activityName opts).1) :
    Aligned same b T (c.callActivity env h activityName opts).1
        (c'.callActivity env' h' activityName opts).1 ∧
      (c'.callActivity env' h' activityName opts).2 = (c.callActivity env h activityName opts).2 := by
  unfold Ctx.callActivity at hp ⊢
  split
  · exact ha.failedTask _
  · next options hopts =>
    rw [hopts] at hp
    dsimp only at hp
    split
    · exact ha.failedTask _
    · next hvalid =>
      rw [hvalid] at hp
      dsimp only at hp
      split
      · next policy hpolicy =>
        rw [hpolicy] at hp
        exact ha.startChain _ _ _ _ _ hp
      · obtain ⟨hsched, htask⟩ := (ha.newUUID env env').internalScheduleActivity
          activityName (c.newUUID env).2 (c'.newUUID env').2 options
        exact ⟨hsched, congrArg TaskRef.completable htask⟩

theorem callChildWorkflow (ha : Aligned same b T c c') (env' : SdkEnv) (workflowName : String)
    (opts : List ChildWorkflowOption)
    (hp : Agree h h' c (c.callChildWorkflow env h workflowName opts).1) :
    Aligned same b T (c.callChildWorkflow env h workflowName opts).1
        (c'.callChildWorkflow env' h' workflowName opts).1 ∧
      (c'.callChildWorkflow env' h' workflowName opts).2 =
        (c.callChildWorkflow env h workflowName opts).2 := by
  unfold Ctx.callChildWorkflow at hp ⊢
  split
  · exact ha.failedTask _
  · next options hopts =>
    rw [hopts] at hp
    dsimp only at hp
    split
    · exact ha.failedTask _
    · next hvalid =>
      rw [hvalid] at hp
      dsimp only at hp
      split
      · next policy hpolicy =>
        rw [hpolicy] at hp
        exact ha.startChain _ _ _ _ _ hp
      · obtain ⟨hsched, htask⟩ := ha.internalCallChildWorkflow workflowName options none none
        exact ⟨hsched, congrArg TaskRef.completable htask⟩

theorem createTimerInternal (ha : Aligned same b T c c') (name : Option String) (delay : Duration) :
    Aligned same b T (c.createTimerInternal name delay).1 (c'.createTimerInternal name delay).1 ∧
      (c'.createTimerInternal name delay).2.1 = (c.createTimerInternal name delay).2.1 :=
  ha.register (fun _ _ => rfl) (fun _ _ => rfl) fun _ => rfl

theorem createTimer (ha : Aligned same b T c c') (name : Option String) (delay : Duration) :
    Aligned same b T (c.createTimer name delay).1 (c'.createTimer name delay).1 ∧
      (c'.createTimer name delay).2 = (c.createTimer name delay).2 := by
  obtain ⟨hreg, htask⟩ := ha.createTimerInternal name delay
  exact ⟨hreg, congrArg TaskRef.completable htask⟩

theorem addWaiter (ha : Aligned same b T c c') (key : String) (task : Nat) :
    Aligned same b T (c.addWaiter key task).1 (c'.addWaiter key task).1 ∧
      (c'.addWaiter key task).2 = (c.addWaiter key task).2 := by
  unfold Ctx.addWaiter
  rw [ha.core]
  split
  · exact ⟨ha.setCore rfl, rfl⟩
  · exact ⟨ha.setCore rfl, rfl⟩

/-- A finite timeout does not end at the time that marks an indefinite one. -/
def Finite (c : Ctx) (timeout : Duration) : Prop :=
  0 < timeout → c.core.currentTimeUtc + timeout ≠ externalEventIndefiniteFireAt

theorem createExternalEventTimerInternal (ha : Aligned same b T c c') (eventName : String)
    {fireAt : Time} (hfinite : same = false → fireAt ≠ externalEventIndefiniteFireAt) :
    Aligned same b T (c.createExternalEventTimerInternal eventName fireAt).1
        (c'.createExternalEventTimerInternal eventName fireAt).1 ∧
      (c'.createExternalEventTimerInternal eventName fireAt).2 =
        (c.createExternalEventTimerInternal eventName fireAt).2 :=
  ha.register (fun _ _ => rfl) (fun _ _ => rfl) fun hs => decide_eq_false (hfinite hs)

/-- Both releases have the timer of the wait. -/
theorem addFiniteWaitTimer (ha : Aligned same b T c c') (eventName : String) {timeout : Duration}
    (hfinite : same = false → 0 < timeout ∧ Finite c timeout) (callback : WaitTimeout)
    (henv : ¬(timeout < 0 ∧ env.legacyWaits)) (henv' : ¬(timeout < 0 ∧ env'.legacyWaits)) :
    Aligned same b T (c.addWaitTimer env eventName timeout callback)
      (c'.addWaitTimer env' eventName timeout callback) := by
  have htime : c'.waitFireAt timeout = c.waitFireAt timeout := by
    unfold waitFireAt
    rw [ha.core]
  have hfire : same = false → c.waitFireAt timeout ≠ externalEventIndefiniteFireAt := by
    intro hs
    unfold waitFireAt
    rw [if_pos (hfinite hs).1]
    exact (hfinite hs).2 (hfinite hs).1
  obtain ⟨hreg, htask⟩ := ha.createExternalEventTimerInternal eventName hfire
  unfold Ctx.addWaitTimer
  rw [if_neg henv, if_neg henv', htime]
  exact hreg.setCore (congrArg₂ (fun core t => Core.onCompleted core t callback) hreg.core htask)

theorem addWaitTimer (ha : Aligned same b T c c') (hengines : Engines same env env') (eventName : String)
    {timeout : Duration} (hzero : timeout ≠ 0) (hfinite : same = false → Finite c timeout)
    (callback : WaitTimeout) :
    Aligned same b T (c.addWaitTimer env eventName timeout callback)
      (c'.addWaitTimer env' eventName timeout callback) := by
  have hwaits := hengines.waits
  cases same with
  | true =>
    rw [if_pos rfl] at hwaits
    by_cases hold : timeout < 0 ∧ env.legacyWaits
    · unfold Ctx.addWaitTimer
      rw [hwaits, if_pos hold, if_pos hold]
      exact ha.setCore (by rw [ha.core])
    · exact ha.addFiniteWaitTimer eventName nofun callback hold (by rw [hwaits]; exact hold)
  | false =>
    rw [if_neg (by decide)] at hwaits
    obtain ⟨hold, hnew⟩ := hwaits
    by_cases hneg : timeout < 0
    · have htime : c'.waitFireAt timeout = externalEventIndefiniteFireAt :=
        if_neg (Int.not_lt.mpr (Int.le_of_lt hneg))
      unfold Ctx.addWaitTimer
      rw [if_pos ⟨hneg, hold⟩, if_neg (by simp [hnew]), htime]
      obtain ⟨hreg, htask⟩ := ha.registerOptional (fun _ _ => rfl :
        ∀ id t, (⟨⟨id, .createTimer
          { fireAt := externalEventIndefiniteFireAt, name := some eventName
            origin := some (.externalEvent eventName) }, none⟩, some t⟩ : PendingAction).entry =
              .work .timer true t)
      exact hreg.setCore
        (congrArg₂ (fun core t => Core.onCompleted core t callback) hreg.core htask)
    · refine ha.addFiniteWaitTimer eventName (fun hs => ⟨?_, hfinite hs⟩) callback
        (fun h => hneg h.1) (by simp [hnew])
      exact Int.lt_iff_le_and_ne.mpr ⟨Int.not_lt.mp hneg, Ne.symm hzero⟩

theorem waitForSingleEvent (ha : Aligned same b T c c') (hengines : Engines same env env')
    (eventName : String) {timeout : Duration} (hfinite : same = false → Finite c timeout) :
    Aligned same b T (c.waitForSingleEvent env eventName timeout).1
        (c'.waitForSingleEvent env' eventName timeout).1 ∧
      (c'.waitForSingleEvent env' eventName timeout).2 =
        (c.waitForSingleEvent env eventName timeout).2 := by
  unfold Ctx.waitForSingleEvent
  dsimp only
  rw [hengines.toUpper, ha.core]
  split
  · exact ⟨ha.setCore rfl, rfl⟩
  · split
    · exact ⟨ha.setCore rfl, rfl⟩
    · next hzero =>
      have hnew : Aligned same b T { c with core := c.core.newTask.1 }
        { c' with core := c.core.newTask.1 } := ha.setCore rfl
      obtain ⟨hwait, hlist⟩ := hnew.addWaiter (env.toUpper eventName) c.core.newTask.2
      rw [hlist]
      refine ⟨hwait.addWaitTimer hengines eventName hzero (fun hs => ?_) _, rfl⟩
      have htime : ∀ d : Ctx, (d.addWaiter (env.toUpper eventName) c.core.newTask.2).1.core.currentTimeUtc =
          d.core.currentTimeUtc := by
        intro d
        unfold Ctx.addWaiter
        split <;> rfl
      unfold Finite
      rw [htime]
      exact hfinite hs

theorem scheduleNewWorkflow (ha : Aligned same b T c c') (workflowName : String)
    (opts : List DetachedWorkflowOption) :
    Aligned same b T (c.scheduleNewWorkflow workflowName opts).1
        (c'.scheduleNewWorkflow workflowName opts).1 ∧
      (c'.scheduleNewWorkflow workflowName opts).2 = (c.scheduleNewWorkflow workflowName opts).2 := by
  unfold Ctx.scheduleNewWorkflow
  split
  · exact ⟨ha, rfl⟩
  · split
    · exact ⟨ha, rfl⟩
    · split
      · exact ⟨ha, rfl⟩
      · dsimp only
        rw [ha.core]
        refine ⟨(ha.addAction (x := .detached _) _ _ (fun _ => rfl) rfl (fun _ => rfl) nofun).setCore rfl, rfl⟩

theorem onReturn (ha : Aligned same b T c c') (result : Except TaskFailureDetails Output) :
    Aligned same b T (c.onReturn result) (c'.onReturn result) := by
  have hcomplete : ∀ (raw : Option String) (status : OrchestrationStatus)
      (fd : Option TaskFailureDetails),
      Aligned same b T (c.setCompleteInternal raw status fd) (c'.setCompleteInternal raw status fd) :=
    fun _ _ _ => ha.addAction (x := .completion) _ _ (fun _ => rfl) rfl (fun _ => rfl) nofun
  unfold Ctx.onReturn
  split
  · exact hcomplete ..
  · rw [ha.core]
    split
    · unfold Ctx.setContinuedAsNew
      rw [ha.core]
      split <;> exact hcomplete ..
    · unfold Ctx.setComplete
      split <;> exact hcomplete ..

/-! ### Back-off timers -/

theorem setTimerOrigin_numbered {c : Ctx} {b : ActionID} {es : List Entry}
    {T : List (ActionID × PendingTask)} {x : Entry} {id : ActionID} (hn : Numbered c.pend b es T)
    (hx : (id, x) ∈ Number.number b es) (hopt : x.isOptional = false) (h : Hist) (i : Nat)
    (executionID : String) :
    (c.setTimerOrigin h i id executionID).core = c.core ∧
      (c.setTimerOrigin h i id executionID).pend.allocated = c.pend.allocated ∧
      Numbered (c.setTimerOrigin h i id executionID).pend b es T := by
  have hentry : ∀ y ∈ c.pend.pendingActions, y.1 = id → y.2.entry.isOptional = false := by
    rintro ⟨id', a⟩ hy rfl
    obtain ⟨a', ha', hax, -⟩ := hn.get?_action hx
    have hnodup : (c.pend.pendingActions.map Prod.fst).Nodup := by
      rw [hn.keys]
      exact Number.nodup_number b es
    rw [Assoc.get?_of_mem hnodup hy] at ha'
    cases ha'
    rw [hax]
    exact hopt
  refine ⟨rfl, rfl, hn.modify fun y hy hi => ?_⟩
  have hy := hentry y hy hi
  rcases y with ⟨id', ⟨⟨aid, actionType, router⟩, task⟩⟩
  cases actionType <;> cases task <;> first | exact ⟨rfl, rfl⟩ | skip
  refine ⟨?_, rfl⟩
  have hy : isOptionalTimer _ _ = false := hy
  simp only [PendingAction.entry, hy]
  congr 1
  split <;> rfl

theorem createRetryTimer_numbered {c : Ctx} {b : ActionID} {es : List Entry}
    {T : List (ActionID × PendingTask)} (hn : Numbered c.pend b es T) (name : Option String)
    (delay : Duration) (h : Hist) (i : Nat) (executionID : String) :
    ∃ d, (c.createTimerInternal name delay).1.setTimerOrigin h i
        (c.createTimerInternal name delay).2.2 executionID = d ∧
      d.core = c.core.newTask.1 ∧ d.pend.allocated = c.pend.allocated ++ [c.pend.sequenceNumber] ∧
      Numbered d.pend b (es ++ [.work .timer false c.core.tasks.length]) T := by
  have hentry : (⟨⟨c.pend.sequenceNumber, .createTimer
      { fireAt := c.core.currentTimeUtc + delay, name := name, origin := some .createTimer }, none⟩,
      some c.core.tasks.length⟩ : PendingAction).entry = .work .timer false c.core.tasks.length := rfl
  obtain ⟨p, hp, hnum, halloc⟩ := register_of_numbered hn hentry
  have htimer : c.createTimerInternal name delay = _ := hp
  rw [htimer]
  have hmem : (c.pend.sequenceNumber, Entry.work .timer false c.core.tasks.length) ∈
      Number.number b (es ++ [.work .timer false c.core.tasks.length]) := by
    rw [Number.number_concat, hn.sequenceNumber]
    exact List.mem_append_right _ (List.mem_singleton.mpr rfl)
  obtain ⟨hcore, hall, hset⟩ := setTimerOrigin_numbered
    (c := { c with core := c.core.newTask.1, pend := p }) hnum hmem rfl h i executionID
  exact ⟨_, rfl, hcore, hall.trans halloc, hset⟩

theorem createRetryTimer (ha : Aligned same b T c c') (name : Option String) (delay : Duration) (i : Nat)
    (executionID executionID' : String) :
    Aligned same b T
      ((c.createTimerInternal name delay).1.setTimerOrigin h i (c.createTimerInternal name delay).2.2
        executionID)
      ((c'.createTimerInternal name delay).1.setTimerOrigin h' i
        (c'.createTimerInternal name delay).2.2 executionID') := by
  obtain ⟨es, hn, hn'⟩ := ha.numbered
  obtain ⟨d, hd, hcore, halloc, hnum⟩ := createRetryTimer_numbered hn name delay h i executionID
  obtain ⟨d', hd', hcore', halloc', hnum'⟩ := createRetryTimer_numbered hn' name delay h' i executionID'
  rw [hd, hd']
  refine ⟨?_, fun hs => ?_, es ++ [.work .timer false c.core.tasks.length], ?_, ?_⟩
  · rw [hcore, hcore', ha.core]
  · rw [halloc, halloc', ha.sequenceNumber hs, ha.allocated hs]
  · rw [shared_concat fun _ => rfl]
    exact hnum
  · rw [← ha.core]
    exact hnum'

end Aligned

end Ctx

end DurableTask.Task
