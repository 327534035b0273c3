import DurableTask.Task.Steps

/-!
# What a replay does

The acts of a replay: the instance ids it generates for detached workflows, the work it schedules, the
resolutions that arrive and the tasks they are delivered to, the external events that are raised, the
waits for them and the timers of waits that fire. `Ctx.Acts` has one rule for each update of a context
and says which acts it is; every step of a replay is made of them (`step_does`). Results about whole
replays are proved from the rules.
-/

namespace DurableTask.Task

/-! ### Acts -/

/-- An act of a replay. `delivered` also says whether an optional timer that the history has not
confirmed was pending at or before the id of the resolution, and `fired` names the wait whose timer
fires. -/
inductive Act
  | generated (instanceID : InstanceID)
  | scheduled (task : Nat) (kind : Kind)
  | arrived (e : HistoryEvent)
  | delivered (k : Kind × ActionID) (task : Nat) (e : HistoryEvent) (unconfirmed : Bool)
  | raised (key : String) (e : HistoryEvent)
  | waited (task : Nat) (key : String) (timeout : Duration)
  | fired (wait : Nat)

namespace Act

def generated? : Act → Option InstanceID
  | .generated instanceID => some instanceID
  | _ => none

/-- The event of the history that an act is the handling of. -/
def event? : Act → Option HistoryEvent
  | .arrived e | .raised _ e => some e
  | _ => none

/-- Whether an act neither generates an instance id nor is the handling of an event. -/
def isInternal (a : Act) : Bool := a.generated?.isNone && a.event?.isNone

end Act

/-- Whether a call of `ScheduleNewWorkflow` asks for the default instance id. -/
def DetachedWorkflowOption.usesDefaultID (opts : List DetachedWorkflowOption) : Bool :=
  match opts.foldlM DetachedWorkflowOption.apply {} with
  | .ok options => options.instanceID.isNone
  | .error _ => false

/-- The timer `t` of a wait fires when it is completed. -/
def Core.firing (c : Core) (t : Nat) : List Act :=
  ((c.task t).completedCallback.map fun w => Act.fired w.task).toList

/-- Whether an optional timer is pending at or before an id. -/
def Pending.unconfirmed (p : Pending) (id : ActionID) : Bool :=
  p.pendingActions.any fun x => isOptionalExternalEventTimerAction x.2.action && decide (x.1 ≤ id)

namespace Ctx

/-- The acts of `onResolution`, apart from the arrival of the event. -/
def resolutionActs (c : Ctx) (k : Kind × ActionID) (e : HistoryEvent) : List Act :=
  match c.pend.deliverable k with
  | some t => .delivered k t e (c.pend.unconfirmed k.2) :: c.core.firing t
  | none => []

def consumeActs (c : Ctx) (k : Kind × ActionID) : List Act :=
  match Assoc.get? c.pend.bufferedResolutions k with
  | none => []
  | some e => if c.pend.resolutionIDProvisional k.2 then [] else c.resolutionActs k e

def consumeForActs : List ActionID → Ctx → List Act
  | [], _ => []
  | id :: ids, c =>
    match Assoc.get? c.pend.pendingTasks id with
    | some t => c.consumeActs (t.kind, id) ++
        consumeForActs ids (c.consumeBufferedResolution (t.kind, id))
    | none => consumeForActs ids c

/-- Scheduled work with its task, before an early resolution is looked for. -/
def registered (c : Ctx) (actionType : WorkflowActionType) (router : Option TaskRouter) (kind : Kind) :
    Ctx :=
  let id := c.pend.sequenceNumber
  let task := c.core.tasks.length
  { c with
    core := c.core.newTask.1
    pend := (((c.pend.addAction actionType router (some task)).1.noteOptional id
      ⟨id, actionType, router⟩).addTask id kind task) }

def registerActs (c : Ctx) (actionType : WorkflowActionType) (router : Option TaskRouter)
    (kind : Kind) : List Act :=
  .scheduled c.core.tasks.length kind ::
    (c.registered actionType router kind).consumeActs (kind, c.pend.sequenceNumber)

theorem register_eq (c : Ctx) (actionType : WorkflowActionType) (router : Option TaskRouter)
    (kind : Kind) : c.register actionType router kind =
      ((c.registered actionType router kind).consumeBufferedResolution (kind, c.pend.sequenceNumber),
        c.core.tasks.length, c.pend.sequenceNumber) := rfl

/-- The ids of the pending tasks after the optional timer at `atID`. -/
def laterIDs (c : Ctx) (atID : ActionID) : List ActionID :=
  (sortIDs ((c.pend.pendingTasks.map Prod.fst).filter (atID < ·))).map (· - 1)

/-- The context without the optional timer at `atID`, before resolutions are looked for. -/
def dropped (c : Ctx) (atID : ActionID) : Ctx :=
  let shifted := (c.pend.pendingActions.filter (atID < ·.1)).filterMap (·.2.task)
  let childAction := c.ident.childAction.map fun e => if e.1 ∈ shifted then (e.1, e.2 - 1) else e
  { c with pend := c.pend.dropAt atID, ident := { c.ident with childAction := childAction } }

theorem dropOptionalTimer_eq (c : Ctx) (atID : ActionID) :
    c.dropOptionalTimer atID = (c.dropped atID).consumeFor (c.laterIDs atID) := rfl

/-- The context with the timer at `id` confirmed, before resolutions are looked for. -/
def confirmed (c : Ctx) (id : ActionID) : Ctx := { c with pend := c.pend.removeTimer id }

def consumeReadyActs (c : Ctx) : List Act :=
  if c.pend.bufferedResolutions.isEmpty then []
  else consumeForActs (sortIDs (c.pend.pendingTasks.map Prod.fst)) c

variable (env : SdkEnv)

/-- A wait that stays pending, before its timer is created. -/
def waiting (c : Ctx) (eventName : String) : Ctx :=
  ({ c with core := c.core.newTask.1 }.addWaiter (env.toUpper eventName) c.core.tasks.length).1

theorem length_waiting (c : Ctx) (eventName : String) :
    (c.waiting env eventName).core.tasks.length = c.core.tasks.length + 1 := by
  unfold waiting addWaiter
  split <;> exact List.length_append

/-- The acts of creating the timer of a wait that stays pending. -/
def waitTimerActs (c : Ctx) (eventName : String) (timeout : Duration) : List Act :=
  if timeout < 0 ∧ env.legacyWaits then []
  else
    let c' := c.waiting env eventName
    c'.registerActs
        (.createTimer
          { fireAt := c'.waitFireAt timeout, name := some eventName
            origin := some (.externalEvent eventName) }) none .timer ++
      let (c'', timer) := c'.createExternalEventTimerInternal eventName (c'.waitFireAt timeout)
      if (c''.core.task timer).isCompleted then [.fired c.core.tasks.length] else []

def waitActs (c : Ctx) (eventName : String) (timeout : Duration) : List Act :=
  .waited c.core.tasks.length (env.toUpper eventName) timeout ::
    match Assoc.get? c.core.bufferedExternalEvents (env.toUpper eventName) with
    | some (_ :: _) => []
    | _ => if timeout = 0 then [] else c.waitTimerActs env eventName timeout

/-- The timer action of a wait for an event of this name. -/
def waitTimer (c : Ctx) (eventName : String) (timeout : Duration) : WorkflowActionType :=
  .createTimer
    { fireAt := c.waitFireAt timeout, name := some eventName
      origin := some (.externalEvent eventName) }

/-- What a wait can do: take a buffered event, be canceled at once, or stay pending with a timer. -/
theorem waitForSingleEvent_cases (c : Ctx) (eventName : String) (timeout : Duration) :
    let t := c.core.tasks.length
    let key := env.toUpper eventName
    let d := (c.waitForSingleEvent env eventName timeout).1
    (∃ e rest, Assoc.get? c.core.bufferedExternalEvents key = some (e :: rest) ∧
      c.waitActs env eventName timeout = [.waited t key timeout] ∧
      d = { c with core := takeBufferedEvent c.core.newTask.1 key e rest t }) ∨
    (∀ e rest, Assoc.get? c.core.bufferedExternalEvents key ≠ some (e :: rest)) ∧
      (timeout = 0 ∧ c.waitActs env eventName timeout = [.waited t key timeout] ∧
        d = { c with core := c.core.newTask.1.cancel t } ∨
      timeout ≠ 0 ∧ c.waitActs env eventName timeout =
          .waited t key timeout :: c.waitTimerActs env eventName timeout ∧
        d = (c.waiting env eventName).addWaitTimer env eventName timeout
          ⟨t, key, ({ c with core := c.core.newTask.1 }.addWaiter key t).2⟩) := by
  intro t key d
  have hnew : c.core.newTask.1.bufferedExternalEvents = c.core.bufferedExternalEvents := rfl
  simp only [d, waitForSingleEvent, waitActs, hnew]
  rcases Assoc.get? c.core.bufferedExternalEvents (env.toUpper eventName) with _ | _ | ⟨e, rest⟩
  case some.cons => exact .inl ⟨e, rest, rfl, rfl, rfl⟩
  all_goals
    refine .inr ⟨by simp, ?_⟩
    by_cases htimeout : timeout = 0
    · exact .inl ⟨htimeout, by simp only [if_pos htimeout, t, key], by simp only [if_pos htimeout]; rfl⟩
    · exact .inr ⟨htimeout, by simp only [if_neg htimeout, t, key], by simp only [if_neg htimeout]; rfl⟩

/-- The timer of a wait that stays pending: none at all, or one that may be resolved early. -/
theorem addWaitTimer_cases (c : Ctx) (eventName : String) (timeout : Duration) (callback : WaitTimeout) :
    let t := (c.waiting env eventName).core.tasks.length
    let d := (c.waiting env eventName).addWaitTimer env eventName timeout callback
    (timeout < 0 ∧ c.waitTimerActs env eventName timeout = [] ∧
      d = { c.waiting env eventName with
        core := (c.waiting env eventName).core.newTask.1.onCompleted t callback }) ∨
    ∃ c', c' = ((c.waiting env eventName).register
        ((c.waiting env eventName).waitTimer eventName timeout) none .timer).1 ∧
      c.waitTimerActs env eventName timeout =
        (c.waiting env eventName).registerActs
          ((c.waiting env eventName).waitTimer eventName timeout) none .timer ++
        (if (c'.core.task t).isCompleted then [.fired c.core.tasks.length] else []) ∧
      d = { c' with core := c'.core.onCompleted t callback } := by
  intro t d
  by_cases hlegacy : timeout < 0 ∧ env.legacyWaits = true
  · exact .inl ⟨hlegacy.1, if_pos hlegacy, if_pos hlegacy⟩
  · exact .inr ⟨_, rfl, if_neg hlegacy, if_neg hlegacy⟩

def spawnActs (c : Ctx) (workflowName : String) (opts : List DetachedWorkflowOption) : List Act :=
  match (c.scheduleNewWorkflow workflowName opts).2 with
  | .ok instanceID =>
    if DetachedWorkflowOption.usesDefaultID opts then [.generated instanceID] else []
  | .error _ => []

end Ctx

/-! ### The updates of a context -/

/-- The part of the state that acts are about: tasks, waits, external events and the counter of
generated instance ids. -/
def Core.work (c : Core) : Core :=
  { c.base with
    name := "", currentTimeUtc := 0, rawInput := "", isSuspended := false, isTerminated := false
    appliedPatches := [], encounteredPatches := [] }

/-- The updates of a context, with the acts they are. -/
inductive Ctx.Acts (env : SdkEnv) (h : Hist) : Ctx → List Act → Ctx → Prop
  | nil (c : Ctx) : Acts env h c [] c
  | append {c c' c'' : Ctx} {acts acts' : List Act} (hc : Acts env h c acts c')
    (hc' : Acts env h c' acts' c'') : Acts env h c (acts ++ acts') c''
  | core (c : Ctx) (core : Core) (hcore : core.work = c.core.work) :
    Acts env h c [] { c with core := core }
  | ident (c : Ctx) (ident : Ident) : Acts env h c [] { c with ident := ident }
  | failedTask (c : Ctx) (fd : TaskFailureDetails) : Acts env h c [] (c.failedTask fd).1
  | addAction (c : Ctx) (actionType : WorkflowActionType) (router : Option TaskRouter)
    (hmandatory : isOptionalExternalEventTimerAction ⟨0, actionType, router⟩ = false) :
    Acts env h c [] { c with pend := (c.pend.addAction actionType router none).1 }
  | setTimerOrigin (c : Ctx) (i : Nat) (id : ActionID) (executionID : String) :
    Acts env h c [] (c.setTimerOrigin h i id executionID)
  | register (c : Ctx) (actionType : WorkflowActionType) (router : Option TaskRouter) (kind : Kind) :
    Acts env h c (c.registerActs actionType router kind) (c.register actionType router kind).1
  | waitForSingleEvent (c : Ctx) (eventName : String) (timeout : Duration) :
    Acts env h c (c.waitActs env eventName timeout) (c.waitForSingleEvent env eventName timeout).1
  | scheduleNewWorkflow (c : Ctx) (workflowName : String) (opts : List DetachedWorkflowOption) :
    Acts env h c (c.spawnActs workflowName opts) (c.scheduleNewWorkflow workflowName opts).1
  | onResolution (c : Ctx) (k : Kind × ActionID) (e : HistoryEvent) (he : e.resolution = some k) :
    Acts env h c (.arrived e :: c.resolutionActs k e) (c.onResolution k e)
  | onExternalEventRaised (c : Ctx) (e : HistoryEvent) (er : EventRaisedEvent)
    (he : e.eventType = .eventRaised er) :
    Acts env h c [.raised (env.toUpper er.name) e]
      { c with core := onExternalEventRaised env c.core e er }
  | removeAction (c : Ctx) (id : ActionID) : Acts env h c [] (c.removeAction id)
  | confirmTimer (c : Ctx) (id : ActionID) :
    Acts env h c (c.confirmed id).consumeReadyActs
      (c.confirmed id).consumeReadyBufferedResolutions
  | dropOptionalTimer (c : Ctx) (atID : ActionID) (hopt : c.pend.optionalAt atID = true) :
    Acts env h c (consumeForActs (c.laterIDs atID) (c.dropped atID)) (c.dropOptionalTimer atID)

/-- Updates that neither generate an instance id nor handle an event that is delivered. -/
def Ctx.Works (env : SdkEnv) (h : Hist) (c c' : Ctx) : Prop :=
  ∃ acts, Ctx.Acts env h c acts c' ∧ ∀ a ∈ acts, a.isInternal = true

/-! ### Calls -/

namespace Ctx

variable {env : SdkEnv} {h : Hist}

theorem isInternal_resolutionActs (c : Ctx) (k : Kind × ActionID) (e : HistoryEvent) :
    ∀ a ∈ c.resolutionActs k e, a.isInternal = true := by
  unfold resolutionActs Core.firing
  intro a ha
  split at ha
  · rcases List.mem_cons.mp ha with rfl | ha
    · rfl
    · obtain ⟨w, -, rfl⟩ := Option.map_eq_some_iff.mp (Option.mem_toList.mp ha)
      rfl
  · cases ha

theorem isInternal_consumeActs (c : Ctx) (k : Kind × ActionID) :
    ∀ a ∈ c.consumeActs k, a.isInternal = true := by
  unfold consumeActs
  intro a ha
  split at ha
  · cases ha
  · split at ha
    · cases ha
    · exact isInternal_resolutionActs _ _ _ a ha

theorem isInternal_consumeForActs (ids : List ActionID) (c : Ctx) :
    ∀ a ∈ consumeForActs ids c, a.isInternal = true := by
  induction ids generalizing c with
  | nil =>
    intro a ha
    cases ha
  | cons id ids ih =>
    intro a ha
    unfold consumeForActs at ha
    split at ha
    · rcases List.mem_append.mp ha with ha | ha
      · exact isInternal_consumeActs _ _ a ha
      · exact ih _ a ha
    · exact ih _ a ha

theorem isInternal_consumeReadyActs (c : Ctx) : ∀ a ∈ c.consumeReadyActs, a.isInternal = true := by
  unfold consumeReadyActs
  intro a ha
  split at ha
  · cases ha
  · exact isInternal_consumeForActs _ _ a ha

theorem isInternal_registerActs (c : Ctx) (actionType : WorkflowActionType)
    (router : Option TaskRouter) (kind : Kind) :
    ∀ a ∈ c.registerActs actionType router kind, a.isInternal = true := by
  intro a ha
  rcases List.mem_cons.mp ha with rfl | ha
  · rfl
  · exact isInternal_consumeActs _ _ a ha

theorem isInternal_waitTimerActs (c : Ctx) (eventName : String) (timeout : Duration) :
    ∀ a ∈ c.waitTimerActs env eventName timeout, a.isInternal = true := by
  unfold waitTimerActs
  intro a ha
  split at ha
  · cases ha
  · dsimp only at ha
    rcases List.mem_append.mp ha with ha | ha
    · exact isInternal_registerActs _ _ _ _ a ha
    · split at ha
      · rw [List.mem_singleton.mp ha]
        rfl
      · cases ha

theorem isInternal_waitActs (c : Ctx) (eventName : String) (timeout : Duration) :
    ∀ a ∈ c.waitActs env eventName timeout, a.isInternal = true := by
  unfold waitActs
  intro a ha
  rcases List.mem_cons.mp ha with rfl | ha
  · rfl
  · split at ha
    · cases ha
    · split at ha
      · cases ha
      · exact isInternal_waitTimerActs _ _ _ a ha

namespace Works

variable {c c' c'' : Ctx}

theorem of_nil (hc : Ctx.Acts env h c [] c') : Works env h c c' :=
  ⟨[], hc, fun _ ha => absurd ha List.not_mem_nil⟩

theorem refl (c : Ctx) : Works env h c c := of_nil (.nil c)

theorem trans (hc : Works env h c c') (hc' : Works env h c' c'') : Works env h c c'' := by
  obtain ⟨acts, hacts, hint⟩ := hc
  obtain ⟨acts', hacts', hint'⟩ := hc'
  refine ⟨acts ++ acts', hacts.append hacts', fun a ha => ?_⟩
  rcases List.mem_append.mp ha with ha | ha
  · exact hint a ha
  · exact hint' a ha

theorem register (c : Ctx) (actionType : WorkflowActionType) (router : Option TaskRouter)
    (kind : Kind) : Works env h c (c.register actionType router kind).1 :=
  ⟨_, .register c actionType router kind, isInternal_registerActs _ _ _ _⟩

theorem closed (env : SdkEnv) (h : Hist) : Closed env h (Works env h) where
  refl := refl
  trans := trans
  core c core hcore := by
    have hwork : core.base.work = c.core.base.work := congrArg Core.work hcore
    exact of_nil (.core c core hwork)
  patch c _ := of_nil (.core c _ rfl)
  ident c ident := of_nil (.ident c ident)
  failedTask c fd := of_nil (.failedTask c fd)
  register c actionType router kind _ := register c actionType router kind
  retryTimer c name delay i executionID :=
    (register c _ _ _).trans (of_nil (.setTimerOrigin _ i _ executionID))
  waitForSingleEvent c eventName timeout :=
    ⟨_, .waitForSingleEvent c eventName timeout, isInternal_waitActs _ _ _⟩
  setCompleteInternal c _ _ _ := of_nil (.addAction c _ _ rfl)

/-! ### Event handlers -/

theorem removeAction (c : Ctx) (id : ActionID) : Works env h c (c.removeAction id) :=
  of_nil (.removeAction c id)

theorem dropOptionalTimers (c : Ctx) (id : ActionID) (n : Nat) :
    Works env h c (Ctx.dropOptionalTimers id n c) := by
  induction n generalizing c with
  | zero => exact refl c
  | succ n ih =>
    unfold Ctx.dropOptionalTimers
    split
    · next hopt =>
      exact trans ⟨_, .dropOptionalTimer c id hopt, isInternal_consumeForActs _ _⟩ (ih _)
    · exact refl c

theorem dropUnless (c : Ctx) (b : Bool) (id : ActionID) (n : Nat) :
    Works env h c (c.dropUnless b id n) := by
  unfold Ctx.dropUnless
  split
  · exact refl c
  · exact dropOptionalTimers ..

theorem alignSchedule {id : ActionID} {p : WorkflowActionType → Bool} {n : Nat}
    (hc : c.alignSchedule id p n = some c') : Works env h c c' := by
  obtain ⟨-, hc⟩ := Option.ite_none_right_eq_some.mp hc
  cases hc
  exact dropUnless ..

theorem onTaskScheduled {id : ActionID} {ts : TaskScheduledEvent}
    (hc : c.onTaskScheduled id ts = .ok c') : Works env h c c' := by
  unfold Ctx.onTaskScheduled at hc
  split at hc
  · next hd =>
    cases hc
    exact (alignSchedule hd).trans (removeAction ..)
  · cases hc

theorem onChildWorkflowScheduled {id : ActionID} {ts : ChildWorkflowInstanceCreatedEvent}
    (hc : c.onChildWorkflowScheduled id ts = .ok c') : Works env h c c' := by
  unfold Ctx.onChildWorkflowScheduled at hc
  split at hc
  · next d hd =>
    cases hc
    have hset : Works env h d (d.setChildInstanceID id ts.instanceId) := by
      unfold Ctx.setChildInstanceID
      split
      · split
        · exact of_nil (.ident d _)
        · exact refl d
      · exact refl d
    exact ((alignSchedule hd).trans hset).trans (removeAction ..)
  · cases hc

theorem onTimerCreated {id : ActionID} {tc : TimerCreatedEvent}
    (hc : c.onTimerCreated id tc = .ok c') : Works env h c c' := by
  unfold Ctx.onTimerCreated at hc
  dsimp only at hc
  split at hc
  · cases hc
    exact (dropUnless ..).trans ⟨_, .confirmTimer _ id, isInternal_consumeReadyActs _⟩
  · cases hc

theorem onDetachedWorkflowCreated {id : ActionID} {instanceId : InstanceID}
    (hc : c.onDetachedWorkflowCreated id instanceId = .ok c') : Works env h c c' := by
  unfold Ctx.onDetachedWorkflowCreated at hc
  dsimp only at hc
  split at hc
  · cases hc
  · split at hc
    · cases hc
      exact (dropUnless ..).trans (removeAction ..)
    · cases hc

theorem setFailed (c : Ctx) (appError : TaskFailureDetails) : Works env h c (c.setFailed appError) :=
  of_nil (.addAction c _ _ rfl)

theorem onExecutionTerminated (c : Ctx) (et : ExecutionTerminatedEvent) :
    Works env h c (c.onExecutionTerminated et) := by
  have hflag : Works env h c { c with core := { c.core with isTerminated := true } } :=
    of_nil (.core c _ rfl)
  unfold Ctx.onExecutionTerminated
  dsimp only
  split
  · exact (hflag.trans (removeAction ..)).trans (of_nil (.addAction _ _ _ rfl))
  · exact hflag
  · exact hflag.trans (of_nil (.addAction _ _ _ rfl))

theorem onStartError (c : Ctx) (err : ProcessError) : Works env h c (c.onStartError err) := by
  unfold Ctx.onStartError
  split
  · exact of_nil (.addAction c _ _ rfl)
  · exact setFailed ..

end Works

end Ctx

/-! ### Steps -/

/-- The instance id generated by a call of `ScheduleNewWorkflow` with the given response. -/
def Obs.generatedID? : Obs → Option Obs → Option InstanceID
  | .call (.scheduleNewWorkflow _ opts), some (.resp (.instanceID (.ok instanceID))) =>
    if DetachedWorkflowOption.usesDefaultID opts then some instanceID else none
  | _, _ => none

/-- The instance ids generated for detached workflows, as workflow code is told. -/
def generatedIDs : List Obs → List InstanceID
  | [] => []
  | o :: rest => (o.generatedID? rest.head?).toList ++ generatedIDs rest

theorem generatedID?_of_not_spawn (o : Obs) {o' : Option Obs} (ho : ∀ p ∈ o', p.isSpawn = false) :
    o.generatedID? o' = none := by
  unfold Obs.generatedID?
  split
  · exact absurd (ho _ rfl) Bool.noConfusion
  · rfl

theorem generatedIDs_append (t : List Obs) {obs : List Obs} (hobs : ∀ o ∈ obs.head?, o.isSpawn = false) :
    generatedIDs (t ++ obs) = generatedIDs t ++ generatedIDs obs := by
  induction t with
  | nil => rfl
  | cons o t ih =>
    cases t with
    | nil =>
      have hnone : o.generatedID? obs.head? = none := generatedID?_of_not_spawn o hobs
      have hnone' : o.generatedID? none = none :=
        generatedID?_of_not_spawn o fun _ hp => absurd hp (Option.not_mem_none _)
      simp [generatedIDs, hnone, hnone']
    | cons o' t => simpa [generatedIDs] using ih

theorem generatedIDs_of_not_spawn {obs : List Obs} (hobs : ∀ o ∈ obs, o.isSpawn = false) :
    generatedIDs obs = [] := by
  induction obs with
  | nil => rfl
  | cons o obs ih =>
    have hnone : o.generatedID? obs.head? = none :=
      generatedID?_of_not_spawn o fun p hp =>
        hobs p (List.mem_cons_of_mem _ (List.mem_of_mem_head? hp))
    rw [generatedIDs, hnone, ih fun p hp => hobs p (List.mem_cons_of_mem _ hp)]
    rfl

/-- Events that are delivered to tasks or waits. -/
def isInput (e : HistoryEvent) : Bool :=
  match e.eventType with
  | .eventRaised _ => true
  | _ => e.resolution.isSome

namespace Machine

variable {σ : Type} {sdk : Sdk σ} {m m' : Machine σ} {acts acts' : List Act}

/-- The event that the next step takes. -/
def taken (m : Machine σ) : Option (Nat × HistoryEvent) :=
  match m.control, m.stack with
  | .loop, .start :: _ => m.hist.getNextHistoryEvent.map Prod.fst
  | .loop, .await task _ :: _ =>
    if (m.ctx.core.task task).isCompleted then none else m.hist.getNextHistoryEvent.map Prod.fst
  | .loop, .drain (e :: _) :: _ => some e
  | _, _ => none

/-- The event that the next step handles: not those that are ignored after a termination or buffered
during a suspension. -/
def handling (m : Machine σ) : Option HistoryEvent :=
  m.taken.bind fun e =>
    if m.ctx.core.isTerminated || m.ctx.core.isSuspended && !handledWhileSuspended e.2 then none
    else some e.2

/-- The acts of a step. -/
structure Does (sdk : Sdk σ) (m : Machine σ) (acts : List Act) (m' : Machine σ) : Prop where
  ctx : Ctx.Acts sdk.env m.hist m.ctx acts m'.ctx
  generated : generatedIDs m'.trace = generatedIDs m.trace ++ acts.filterMap Act.generated?
  events : acts.filterMap Act.event? = m.handling.toList.filter isInput

/-- The acts of a replay from its start. -/
inductive Replays (sdk : Sdk σ) (m₀ : Machine σ) : List Act → Machine σ → Prop
  | nil : Replays sdk m₀ [] m₀
  | step {m m' : Machine σ} {acts acts' : List Act} (h : Replays sdk m₀ acts m)
    (hstep : step sdk m = some m') (hdoes : Does sdk m acts' m') : Replays sdk m₀ (acts ++ acts') m'

theorem filterMap_of_isInternal (hint : ∀ a ∈ acts, a.isInternal = true) :
    acts.filterMap Act.generated? = [] ∧ acts.filterMap Act.event? = [] := by
  refine ⟨List.filterMap_eq_nil_iff.mpr fun a ha => ?_, List.filterMap_eq_nil_iff.mpr fun a ha => ?_⟩
  · have := hint a ha
    simp_all [Act.isInternal]
  · have := hint a ha
    simp_all [Act.isInternal]

/-- A step that does internal work. -/
theorem Does.of_works (hctx : Ctx.Works sdk.env m.hist m.ctx m'.ctx)
    (htrace : ∃ obs, m'.trace = m.trace ++ obs ∧ ∀ o ∈ obs, o.isSpawn = false)
    (hevent : ∀ e ∈ m.handling, isInput e = false) : ∃ acts, Does sdk m acts m' := by
  obtain ⟨acts, hacts, hint⟩ := hctx
  obtain ⟨obs, htrace, hobs⟩ := htrace
  obtain ⟨hgen, hev⟩ := filterMap_of_isInternal hint
  refine ⟨acts, hacts, ?_, ?_⟩
  · rw [htrace, hgen, generatedIDs_append _ fun o ho => hobs o (List.mem_of_mem_head? ho),
      generatedIDs_of_not_spawn hobs]
  · rw [hev, eq_comm, List.filter_eq_nil_iff]
    intro e he
    rw [hevent e (Option.mem_toList.mp he)]
    exact Bool.noConfusion

/-- The acts of handling an event. -/
structure Handles (env : SdkEnv) (h : Hist) (m : Machine σ) (e : HistoryEvent) (acts : List Act)
    (m' : Machine σ) : Prop where
  ctx : Ctx.Acts env h m.ctx acts m'.ctx
  generated : acts.filterMap Act.generated? = []
  events : acts.filterMap Act.event? = [e].filter isInput
  trace : m'.trace = m.trace

variable {h : Hist} {e : HistoryEvent}

theorem Handles.of_works (he : isInput e = false) (hctx : Ctx.Works sdk.env h m.ctx m'.ctx)
    (htrace : m'.trace = m.trace) : ∃ acts, Handles sdk.env h m e acts m' := by
  obtain ⟨acts, hacts, hint⟩ := hctx
  obtain ⟨hgen, hev⟩ := filterMap_of_isInternal hint
  refine ⟨acts, hacts, hgen, ?_, htrace⟩
  rw [hev, List.filter_cons_of_neg (by rw [he]; exact Bool.false_ne_true), List.filter_nil]

theorem Handles.of_result {r : Except ProcessError Ctx} (he : isInput e = false)
    (hr : ∀ c, r = .ok c → Ctx.Works sdk.env h m.ctx c) :
    ∃ acts, Handles sdk.env h m e acts (m.handle r) := by
  cases r with
  | error err => exact Handles.of_works he (.refl _) rfl
  | ok c => exact Handles.of_works he (hr c rfl) rfl

theorem Handles.onResolution {k : Kind × ActionID} (he : e.resolution = some k)
    (hin : isInput e = true) :
    ∃ acts, Handles sdk.env h m e acts (m.handle (.ok (m.ctx.onResolution k e))) := by
  obtain ⟨hgen, hev⟩ := filterMap_of_isInternal (Ctx.isInternal_resolutionActs m.ctx k e)
  refine ⟨_, .onResolution m.ctx k e he, ?_, ?_, rfl⟩
  · rw [List.filterMap_cons_none rfl, hgen]
  · rw [List.filterMap_cons_some (show (Act.arrived e).event? = some e from rfl), hev,
      List.filter_cons_of_pos hin, List.filter_nil]

theorem dispatch_handles (sdk : Sdk σ) (m : Machine σ) (e : HistoryEvent) (h : Hist) :
    ∃ acts, Handles sdk.env h m e acts (dispatch sdk m e) := by
  obtain ⟨id, ts, body, router, row⟩ := e
  have hcore (core : Core) (hcore : core.work = m.ctx.core.work) :
      Ctx.Works sdk.env h m.ctx { m.ctx with core := core } := .of_nil (.core m.ctx core hcore)
  cases body with
  | workflowStarted version => exact Handles.of_works rfl (hcore _ rfl) rfl
  | executionStarted es =>
    show ∃ acts, Handles sdk.env h m _ acts (m.onExecutionStarted sdk es)
    unfold onExecutionStarted
    split
    · exact Handles.of_works rfl (.refl _) rfl
    · exact Handles.of_works rfl (hcore _ rfl) rfl
  | taskScheduled => exact Handles.of_result rfl fun _ hr => .onTaskScheduled hr
  | childWorkflowInstanceCreated => exact Handles.of_result rfl fun _ hr => .onChildWorkflowScheduled hr
  | detachedWorkflowInstanceCreated => exact Handles.of_result rfl fun _ hr => .onDetachedWorkflowCreated hr
  | timerCreated => exact Handles.of_result rfl fun _ hr => .onTimerCreated hr
  | taskCompleted => exact Handles.onResolution rfl rfl
  | taskFailed => exact Handles.onResolution rfl rfl
  | childWorkflowInstanceCompleted => exact Handles.onResolution rfl rfl
  | childWorkflowInstanceFailed => exact Handles.onResolution rfl rfl
  | timerFired => exact Handles.onResolution rfl rfl
  | eventRaised er => exact ⟨_, .onExternalEventRaised m.ctx _ er rfl, rfl, rfl, rfl⟩
  | executionSuspended => exact Handles.of_works rfl (hcore _ rfl) rfl
  | executionResumed => exact Handles.of_works rfl (hcore _ rfl) rfl
  | executionTerminated et => exact Handles.of_works rfl (.onExecutionTerminated ..) rfl
  | executionStalled => exact Handles.of_works rfl (.refl _) rfl
  | workflowCompleted => exact Handles.of_works rfl (.refl _) rfl
  | executionCompleted => exact Handles.of_works rfl (.refl _) rfl
  | eventSent => exact Handles.of_works rfl (.refl _) rfl
  | continueAsNew => exact Handles.of_works rfl (.refl _) rfl

/-- Taking an event. -/
theorem does_processEvent {m₁ : Machine σ} {e : Nat × HistoryEvent} (htaken : m.taken = some e)
    (hctx : m₁.ctx = m.ctx) (htrace : m₁.trace = m.trace) :
    ∃ acts, Does sdk m acts (processEvent sdk m₁ e) := by
  have hhandling : m.handling =
      if m.ctx.core.isTerminated || m.ctx.core.isSuspended && !handledWhileSuspended e.2 then none
      else some e.2 := by
    unfold handling
    rw [htaken, Option.bind_some]
  rw [← hctx] at hhandling
  unfold processEvent
  split
  · next ht =>
    rw [ht, Bool.true_or, if_pos rfl] at hhandling
    refine Does.of_works ?_ ⟨[], by rw [List.append_nil, ← htrace], by simp⟩ (by simp [hhandling])
    exact hctx ▸ .refl _
  · next ht =>
    rw [Bool.not_eq_true] at ht
    rw [ht, Bool.false_or] at hhandling
    split
    · next hs =>
      rw [if_pos hs] at hhandling
      refine Does.of_works ?_ ⟨[], by rw [List.append_nil, ← htrace], by simp⟩ (by simp [hhandling])
      exact hctx ▸ .refl _
    · next hs =>
      rw [if_neg hs] at hhandling
      obtain ⟨acts, hacts⟩ := dispatch_handles sdk
        { m₁ with handled := m₁.handled ++ [e.1] } e.2 m.hist
      refine ⟨acts, hctx ▸ hacts.ctx, ?_, ?_⟩
      · rw [hacts.trace, hacts.generated, List.append_nil]
        exact congrArg generatedIDs htrace
      · rw [hacts.events, hhandling]
        rfl

/-- A loop that takes an event takes the next one of the history. -/
theorem taken_of_waits {e : HistoryEvent} (h : m.Waits)
    (he : m.hist.events[m.hist.historyIndex]? = some e) : m.taken = some (m.hist.historyIndex, e) := by
  have hnext : m.hist.getNextHistoryEvent.map Prod.fst = some (m.hist.historyIndex, e) := by
    unfold Hist.getNextHistoryEvent
    rw [he]
    rfl
  obtain ⟨hcontrol, htop⟩ := h
  unfold taken
  rw [hcontrol]
  cases hstack : m.stack with
  | nil => simp [hstack] at htop
  | cons f rest =>
    rw [hstack] at htop
    rcases htop with htop | ⟨task, dst, htop, hrunning⟩
    · cases htop
      exact hnext
    · cases htop
      simpa [hrunning] using hnext

/-- A step that neither takes an event nor changes the context. -/
theorem does_of_ctx_eq (htaken : m.taken = none) (hctx : m'.ctx = m.ctx) (htrace : m'.trace = m.trace) :
    ∃ acts, Does sdk m acts m' := by
  refine Does.of_works (hctx ▸ .refl _) ⟨[], by rw [List.append_nil, htrace], by simp⟩ ?_
  simp [handling, htaken]

theorem taken_of_inCode (hm : m.inCode = true) : m.taken = none := by
  unfold inCode at hm
  unfold taken
  split <;> simp_all

theorem does_spawn (m : Machine σ) (name : String) (opts : List DetachedWorkflowOption)
    (k : Resp → σ) (hcontrol : m.inCode = true) :
    ∃ acts, Does sdk m acts (doCall sdk m (.scheduleNewWorkflow name opts) k) := by
  refine ⟨_, .scheduleNewWorkflow m.ctx name opts, ?_, ?_⟩
  · show generatedIDs ((m.trace ++ [.call (.scheduleNewWorkflow name opts)]) ++
      [.resp (.instanceID (m.ctx.scheduleNewWorkflow name opts).2)]) = _
    rw [List.append_assoc, generatedIDs_append _ (by simp [Obs.isSpawn])]
    unfold Ctx.spawnActs
    cases (m.ctx.scheduleNewWorkflow name opts).2 with
    | error err => rfl
    | ok instanceID =>
      cases hdef : DetachedWorkflowOption.usesDefaultID opts <;>
        simp [generatedIDs, Obs.generatedID?, hdef, Act.generated?]
  · unfold Ctx.spawnActs handling
    rw [taken_of_inCode hcontrol]
    split
    · split <;> rfl
    · rfl

/-- Every step is made of updates with acts. -/
theorem step_does (h : step sdk m = some m') : ∃ acts, Does sdk m acts m' := by
  cases step_cases h with
  | code hm h =>
    rcases step_inCode (Ctx.Works.closed sdk.env m.hist) hm h with hstep | ⟨name, opts, k, rfl⟩
    · exact Does.of_works hstep.ctx hstep.trace (by simp [handling, taken_of_inCode hm])
    · exact does_spawn m name opts k hm
  | next hwaits he => exact does_processEvent (taken_of_waits hwaits he) rfl rfl
  | drain hc hst => exact does_processEvent (by simp [taken, hc, hst]) rfl rfl
  | drained hc hst => exact does_of_ctx_eq (by simp [taken, hc, hst]) rfl rfl
  | awaited hc hst hdone => exact does_of_ctx_eq (by simp [taken, hc, hst, hdone]) rfl rfl
  | abandoned hc => exact does_of_ctx_eq (by simp [taken, hc]) rfl rfl
  | failed hc => exact does_of_ctx_eq (by simp [taken, hc]) rfl rfl
  | ended hc =>
    refine Does.of_works (.onStartError ..) ⟨[], (List.append_nil _).symm, by simp⟩ ?_
    simp [handling, taken, hc]

end Machine

end DurableTask.Task
