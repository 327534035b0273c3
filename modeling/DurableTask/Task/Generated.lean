import DurableTask.Task.Acts
import DurableTask.Task.Replay

/-!
# Generated instance ids

The instance ids the engine generates over the generations of a workflow that continues as new. A
child workflow without an id gets one made from the execution id and the id of the action that creates
it; no two are alike in a lineage of generations. A detached workflow gets one from a counter that
starts again with every generation, so two generations that spawn detached workflows without an id
generate the same one.
-/

namespace DurableTask.Task

variable {σ : Type}

/-! ### Detached workflows -/

/-- The default id of a detached workflow. -/
def defaultInstanceID (id : InstanceID) (n : Nat) : InstanceID := id ++ "-" ++ toString n

/-- The instance id and the counter of generated ids. -/
def Core.spawning (c : Core) : InstanceID × Nat := (c.id, c.defaultDetachedWorkflowCounter)

theorem Core.spawning_of_frame {c c' : Core} (h : c'.frame = c.frame) : c'.spawning = c.spawning :=
  show c'.frame.spawning = c.frame.spawning from congrArg spawning h

namespace Ctx

theorem frame_waitForSingleEvent (env : SdkEnv) (c : Ctx) (eventName : String) (timeout : Duration) :
    (c.waitForSingleEvent env eventName timeout).1.core.frame = c.core.frame := by
  have hwaiter (c : Ctx) (key : String) (task : Nat) :
      (c.addWaiter key task).1.core.frame = c.core.frame := by
    unfold addWaiter
    split <;> rfl
  have htimer (c : Ctx) (callback : WaitTimeout) :
      (c.addWaitTimer env eventName timeout callback).core.frame = c.core.frame := by
    unfold addWaitTimer
    split
    · exact Core.frame_onCompleted ..
    · exact (Core.frame_onCompleted ..).trans (frame_register ..)
  unfold waitForSingleEvent
  dsimp only
  split
  · exact Core.frame_complete ..
  · split
    · exact Core.frame_cancel ..
    · exact (htimer ..).trans (hwaiter ..)

theorem core_setTimerOrigin (c : Ctx) (h : Hist) (i : Nat) (id : ActionID) (executionID : String) :
    (c.setTimerOrigin h i id executionID).core = c.core := by
  unfold setTimerOrigin
  split
  rfl

/-- A call of `ScheduleNewWorkflow` generates the id of the counter and counts it, or none. -/
theorem spawn_generated (c : Ctx) (workflowName : String) (opts : List DetachedWorkflowOption) :
    ∃ n, (c.spawnActs workflowName opts).filterMap Act.generated? =
        (List.range' c.core.defaultDetachedWorkflowCounter n).map (defaultInstanceID c.core.id) ∧
      (c.scheduleNewWorkflow workflowName opts).1.core.spawning =
        (c.core.id, c.core.defaultDetachedWorkflowCounter + n) := by
  unfold spawnActs scheduleNewWorkflow DetachedWorkflowOption.usesDefaultID
  cases opts.foldlM DetachedWorkflowOption.apply {} with
  | error err => exact ⟨0, rfl, rfl⟩
  | ok options =>
    obtain ⟨instanceID, rawInput, startTime, targetAppID, targetAppNamespace⟩ := options
    by_cases hns : targetAppNamespace.isSome ∧ targetAppID.isNone
    · simp only [if_pos hns]
      exact ⟨0, rfl, rfl⟩
    · by_cases hempty : instanceID = some ""
      · simp only [if_neg hns, if_pos hempty]
        exact ⟨0, rfl, rfl⟩
      · simp only [if_neg hns, if_neg hempty]
        cases instanceID with
        | some instanceID => exact ⟨0, rfl, rfl⟩
        | none => exact ⟨1, rfl, rfl⟩

/-- The ids an update generates are those of the counter, which counts them. -/
theorem Acts.generated {env : SdkEnv} {h : Hist} {c c' : Ctx} {acts : List Act}
    (hc : Acts env h c acts c') :
    ∃ n, acts.filterMap Act.generated? =
        (List.range' c.core.defaultDetachedWorkflowCounter n).map (defaultInstanceID c.core.id) ∧
      c'.core.spawning = (c.core.id, c.core.defaultDetachedWorkflowCounter + n) := by
  have hinternal {c c' : Ctx} {acts : List Act} (hint : ∀ a ∈ acts, a.isInternal = true)
      (hcore : c'.core.spawning = c.core.spawning) :
      ∃ n, acts.filterMap Act.generated? =
          (List.range' c.core.defaultDetachedWorkflowCounter n).map (defaultInstanceID c.core.id) ∧
        c'.core.spawning = (c.core.id, c.core.defaultDetachedWorkflowCounter + n) :=
    ⟨0, (Machine.filterMap_of_isInternal hint).1, hcore⟩
  have hnil {P : Act → Prop} : ∀ a ∈ ([] : List Act), P a := fun _ ha => absurd ha List.not_mem_nil
  induction hc with
  | nil c => exact hinternal hnil rfl
  | @append c c' c'' acts acts' _ _ ih ih' =>
    obtain ⟨n, hn, hcore⟩ := ih
    obtain ⟨n', hn', hcore'⟩ := ih'
    obtain ⟨hid, hcount⟩ := Prod.mk.inj hcore
    refine ⟨n + n', ?_, ?_⟩
    · rw [List.filterMap_append, hn, hn', hid, hcount, ← List.map_append, List.range'_append_1]
    · rw [hcore', hid, hcount, Nat.add_assoc]
  | core c core hcore =>
    have : core.work.spawning = c.core.work.spawning := congrArg Core.spawning hcore
    exact hinternal hnil this
  | ident => exact hinternal hnil rfl
  | failedTask c fd => exact hinternal hnil (Core.spawning_of_frame (Core.frame_failedTask ..))
  | addAction => exact hinternal hnil rfl
  | setTimerOrigin c i id executionID =>
    exact hinternal hnil (by rw [core_setTimerOrigin])
  | register c actionType router kind =>
    exact hinternal (isInternal_registerActs _ _ _ _) (Core.spawning_of_frame (frame_register ..))
  | waitForSingleEvent c eventName timeout =>
    exact hinternal (isInternal_waitActs _ _ _) (Core.spawning_of_frame (frame_waitForSingleEvent ..))
  | scheduleNewWorkflow c workflowName opts => exact spawn_generated c workflowName opts
  | onResolution c k e he =>
    refine ⟨0, ?_, Core.spawning_of_frame (frame_onResolution ..)⟩
    rw [List.filterMap_cons_none rfl,
      (Machine.filterMap_of_isInternal (isInternal_resolutionActs c k e)).1]
    rfl
  | onExternalEventRaised c e er he =>
    exact ⟨0, rfl, Core.spawning_of_frame (frame_onExternalEventRaised ..)⟩
  | removeAction => exact hinternal hnil rfl
  | confirmTimer c id =>
    exact hinternal (isInternal_consumeReadyActs _)
      (Core.spawning_of_frame (frame_consumeReadyBufferedResolutions _))
  | dropOptionalTimer c atID hopt =>
    exact hinternal (isInternal_consumeForActs _ _) (Core.spawning_of_frame (frame_consumeFor ..))

end Ctx

/-- The ids a replay has generated are the first ones. -/
theorem Machine.generatedIDs_of_reaches {sdk : Sdk σ} {m : Machine σ} {id : InstanceID}
    {oldEvents newEvents : List HistoryEvent}
    (h : Transition.Reaches (step sdk) (init id oldEvents newEvents) m) :
    generatedIDs m.trace =
      (List.range m.ctx.core.defaultDetachedWorkflowCounter).map (defaultInstanceID id) := by
  refine (h.invariant (I := fun m : Machine σ => m.ctx.core.id = id ∧ generatedIDs m.trace =
    (List.range m.ctx.core.defaultDetachedWorkflowCounter).map (defaultInstanceID id))
    ⟨rfl, rfl⟩ ?_).2
  rintro m m' ⟨hid, hgen⟩ hstep
  obtain ⟨acts, hdoes⟩ := step_does hstep
  obtain ⟨n, hn, hcore⟩ := hdoes.ctx.generated
  obtain ⟨hid', hcount⟩ := Prod.mk.inj hcore
  refine ⟨hid'.trans hid, ?_⟩
  have happend := List.range'_append_1 (s := 0) (m := m.ctx.core.defaultDetachedWorkflowCounter) (n := n)
  rw [Nat.zero_add] at happend
  rw [hdoes.generated, hgen, hn, hid, hcount, ← List.map_append, List.range_eq_range', happend,
    List.range_eq_range']

/-! ### Child workflows -/

namespace Execution

variable {sdk : Sdk σ} {x : Execution σ} {batch : List HistoryEvent} {env : ProcessEnv}
  {s : WorkflowRuntimeState} {uuid : Nat → String} {m : Machine σ}

/-- The ids of the scheduling actions a turn returns. -/
def schedulingIDs (actions : List WorkflowAction) : List ActionID :=
  (actions.filter fun action => action.actionType.isScheduling).map WorkflowAction.id

theorem nodup_schedulingIDs {b : ActionID} {actions : List WorkflowAction}
    (h : (actions.map WorkflowAction.id).Nodup ∧ ∀ id ∈ actions.map WorkflowAction.id, b ≤ id) :
    (schedulingIDs actions).Nodup ∧ ∀ id ∈ schedulingIDs actions, b ≤ id := by
  have hsub : (schedulingIDs actions).Sublist (actions.map WorkflowAction.id) :=
    List.filter_sublist.map _
  exact ⟨h.1.sublist hsub, fun id hid => h.2 id (hsub.subset hid)⟩

theorem schedulingIDs_failed {id : InstanceID} {old new : List HistoryEvent} {e₀ : HistoryEvent}
    {version : Option WorkflowVersion} {err : ProcessError} :
    schedulingIDs (Machine.failed id old new e₀ version err : Machine σ).ctx.actions = [] := by
  refine List.map_eq_nil_iff.mpr (List.filter_eq_nil_iff.mpr fun action ha => ?_)
  rw [(actions_failed action ha).1]
  exact Bool.false_ne_true

/-- What a replay in a turn returns, once the workflow function was called. -/
theorem schedulingIDs_of_end {b : ActionID} {T : List (ActionID × PendingTask)}
    (h : m.Terminated b ∨ ∃ T', m.Finished b T T') :
    (schedulingIDs m.ctx.actions).Nodup ∧ ∀ id ∈ schedulingIDs m.ctx.actions, b ≤ id := by
  rcases h with ht | ⟨T', hm⟩
  · exact nodup_schedulingIDs (action_ids ht.ended.nodup ht.ended.bound ht.ended.ids)
  · obtain ⟨es, hn⟩ := hm.turn.numbered
    exact nodup_schedulingIDs hn.action_ids

/-- The scheduling actions of a turn have distinct ids that the history does not have. -/
theorem Status.schedulingIDs (h : Status sdk x) (hacc : x.accepts batch = true)
    (hl : Loaded x batch env s)
    (hrun : Transition.Reaches (Machine.step (sdk.withUuid uuid)) (x.replay s) m)
    (hhalt : Machine.step (sdk.withUuid uuid) m = none) :
    (Execution.schedulingIDs m.ctx.actions).Nodup ∧
      ∀ id ∈ Execution.schedulingIDs m.ctx.actions,
        id ∉ x.history.filterMap HistoryEvent.schedulingID := by
  have hnone (hm : Execution.schedulingIDs m.ctx.actions = []) :
      (Execution.schedulingIDs m.ctx.actions).Nodup ∧
        ∀ id ∈ Execution.schedulingIDs m.ctx.actions,
          id ∉ x.history.filterMap HistoryEvent.schedulingID := by
    rw [hm]
    exact ⟨List.nodup_nil, fun _ hid => absurd hid List.not_mem_nil⟩
  unfold replay at hrun
  rw [hl.oldEvents, hl.newEvents] at hrun
  cases h with
  | fresh h =>
    obtain ⟨e, es, rest, he, hkept, ha⟩ := start_of_accepts hacc h.history
    have hstart : (x.history.findSome? HistoryEvent.getExecutionStarted).isSome = false := by
      rw [h.history]
      rfl
    rw [hstart, hkept] at hrun
    cases hres : sdk.registry.resolveWorkflow es.name none with
    | ok r =>
      have hafter := hrun.of_halted hhalt (h.reaches he hres)
      have hend : m.Terminated 0 ∨ ∃ T, m.Finished 0 [] T := by
        rcases Machine.inTurn_of_reaches (h.inTurn ha) (h.accounts he) hafter with ⟨T, hT, hTa⟩ | ht
        · exact .inr ⟨T, .of_halted hT hTa hhalt⟩
        · exact .inl ht
      refine ⟨(schedulingIDs_of_end hend).1, fun id _ => ?_⟩
      rw [h.history]
      exact List.not_mem_nil
    | error err =>
      have hev : x.history ++ started env :: e :: rest = started env :: e :: rest := by
        rw [h.history]
        rfl
      have he₀ : (started env).eventType = .workflowStarted none := rfl
      rcases Machine.reached_of_failed (sdk.withUuid uuid) x.id hev he₀ he hrun hres with
        ⟨-, hsome⟩ | ⟨-, hsome | hm⟩
      · rw [hhalt] at hsome
        cases hsome
      · rw [hhalt] at hsome
        cases hsome
      · exact hnone (by rw [hm]; exact schedulingIDs_failed)
  | running snap h =>
    have hend := (h.run (arrives_of_accepts hacc h.begun _ _) hrun).2 hhalt
    obtain ⟨hnodup, hbound⟩ := schedulingIDs_of_end hend
    exact ⟨hnodup, fun id hid hmem => absurd (h.books.lt id hmem) (Int.not_lt.mpr (hbound id hid))⟩
  | stuck h =>
    obtain ⟨e₀, hm⟩ := (h.run rfl hrun).2 hhalt
    exact hnone (by rw [hm]; exact schedulingIDs_failed)
  | closed h =>
    have := h.completed
    rw [hl.incomplete] at this
    cases this

/-- A batch is processed: its work item is loaded, the workflow replayed and its actions applied. -/
structure Processes (sdk : Sdk σ) (a : Applier) (x : Execution σ) (env : ProcessEnv)
    (s : WorkflowRuntimeState) (m : Machine σ) (result : ActionsResult) (s' : WorkflowRuntimeState) :
    Prop where
  loaded : ∃ batch, x.accepts batch = true ∧
    WorkflowProcessor.applyWorkItem env (x.workItem batch) = some s
  replayed : ∃ uuid, Transition.Reaches (Machine.step (sdk.withUuid uuid)) (x.replay s) m ∧
    Machine.step (sdk.withUuid uuid) m = none
  applied : ∃ receivedHistory, a.actions (env.generation 0) receivedHistory
    (s.recordVersion m.response.version) m.response.customStatus m.response.actions = .ok (result, s')

/-- The execution after a turn that does not continue as new. -/
def committed (x : Execution σ) (m : Machine σ) (s' : WorkflowRuntimeState) : Execution σ :=
  { x with
    customStatus := s'.customStatus
    history := s'.oldEvents ++ s'.newEvents
    dispatched := x.dispatched ++ s'.dispatched
    replays := x.replays ++ [m] }

namespace Processes

variable {a : Applier} {result : ActionsResult} {s' : WorkflowRuntimeState}

theorem turn (h : x.Processes sdk a env s m result s') (hcan : result.continuedAsNew = false) :
    Turn sdk a x (x.committed m s') := by
  obtain ⟨batch, hacc, hloaded⟩ := h.loaded
  obtain ⟨uuid, hrun, hhalt⟩ := h.replayed
  obtain ⟨receivedHistory, happ⟩ := h.applied
  exact .commit batch env uuid receivedHistory s s' m result hacc hloaded hrun hhalt happ hcan

theorem instanceId (h : x.Processes sdk a env s m result s') : s.instanceId = x.id := by
  obtain ⟨batch, -, hloaded⟩ := h.loaded
  unfold WorkflowProcessor.applyWorkItem at hloaded
  split at hloaded
  · cases hloaded
  · cases hloaded
    have hout := ((WorkflowRuntimeState.addEvent (x.workItem batch).state
      (started env)).addEvents_frame batch).1
    rw [WorkflowRuntimeState.addEvent_outbox] at hout
    exact (congrArg (·.1) hout).trans (WorkflowRuntimeState.new_instanceId ..)

/-- Without continue-as-new every scheduling action is in the history after the turn. -/
theorem recorded (h : x.Processes sdk a env s m result s') (hcan : result.continuedAsNew = false) :
    ∀ id ∈ schedulingIDs m.ctx.actions,
      id ∈ (x.committed m s').history.filterMap HistoryEvent.schedulingID := by
  obtain ⟨receivedHistory, happ⟩ := h.applied
  intro id hid
  obtain ⟨action, ha, rfl⟩ := List.mem_map.mp hid
  obtain ⟨ha, hsched⟩ := List.mem_filter.mp ha
  have hmem := Applier.mem_schedulingID_of_applyActions happ hcan action ha hsched
  show action.id ∈ (s'.oldEvents ++ s'.newEvents).filterMap HistoryEvent.schedulingID
  rw [List.filterMap_append]
  exact List.mem_append_right _ hmem

theorem schedulingIDs (h : x.Processes sdk a env s m result s') (hx : Status sdk x) :
    (Execution.schedulingIDs m.ctx.actions).Nodup ∧
      ∀ id ∈ Execution.schedulingIDs m.ctx.actions,
        id ∉ x.history.filterMap HistoryEvent.schedulingID := by
  obtain ⟨batch, hacc, hloaded⟩ := h.loaded
  obtain ⟨uuid, hrun, hhalt⟩ := h.replayed
  exact hx.schedulingIDs hacc (loaded_of_applyWorkItem hx.loadable hloaded) hrun hhalt

/-- What is in the history stays there. -/
theorem history_subset (h : x.Processes sdk a env s m result s') (hx : Status sdk x)
    (hcan : result.continuedAsNew = false) : x.history ⊆ (x.committed m s').history := by
  obtain ⟨_, _, _, _, _, _, _, _, -, -, hc⟩ := committed_of_turn hx.loadable (h.turn hcan)
  rw [hc.history, List.append_assoc]
  exact List.subset_append_left _ _

end Processes

end Execution

/-! ### Generations -/

/-- `helpers.GenerateChildWorkflowInstanceIDForExecution`. `sum256` is the hexadecimal SHA-256 sum of
the JSON text of a list of strings. -/
def generateChildWorkflowInstanceIDForExecution (sum256 : List String → String)
    (parentInstanceID : InstanceID) (executionID : String) (actionID : ActionID) : InstanceID :=
  parentInstanceID ++ ":g:" ++ sum256 [parentInstanceID, executionID, actionID.repr]

def executionIDOf (s : WorkflowRuntimeState) : String :=
  (s.startEvent.map (·.workflowInstance.executionIdValue)).getD ""

/-- The instance id the applier generates for an action, if it has to. -/
def generatedChildID (env : ApplyEnv) (s : WorkflowRuntimeState) (action : WorkflowAction) :
    Option InstanceID :=
  match action.actionType with
  | .createChildWorkflow c =>
    if c.instanceId = "" then some (Applier.childInstanceId env action.id s c) else none
  | _ => none

/-- A generation of a workflow: its execution, and for specifications the instance ids generated for
its child workflows and for its detached workflows. The latter are those of its last replay, which
makes all the calls of the replays before it. -/
structure Generation (σ : Type) where
  executionID : String
  execution : Execution σ
  childIDs : List InstanceID := []
  detachedIDs : List InstanceID := []

namespace Generation

def generated (g : Generation σ) : List InstanceID := g.childIDs ++ g.detachedIDs

/-- A generation after a batch was processed, with the execution `x`. -/
def after (g : Generation σ) (env : ProcessEnv) (s : WorkflowRuntimeState) (m : Machine σ)
    (x : Execution σ) : Generation σ :=
  { g with
    execution := x
    childIDs := g.childIDs ++ m.response.actions.filterMap (generatedChildID (env.generation 0) s)
    detachedIDs := generatedIDs m.trace }

end Generation

/-- The generations of a workflow instance, the current one last. A generation begins with the state
that the one before it switched to, which has an execution id of its own. -/
inductive Lineage (sdk : Sdk σ) (a : Applier) (sum256 : List String → String) (id : InstanceID) :
    List (Generation σ) → Prop
  | new (executionID : String) (customStatus : Option String) :
    Lineage sdk a sum256 id
      [{ executionID := executionID, execution := { id := id, customStatus := customStatus } }]
  | turn {gens : List (Generation σ)} {g : Generation σ} {env : ProcessEnv}
    {s s' : WorkflowRuntimeState} {m : Machine σ} {result : ActionsResult}
    (h : Lineage sdk a sum256 id (gens ++ [g])) (p : g.execution.Processes sdk a env s m result s')
    (continues : result.continuedAsNew = false) (executionID : executionIDOf s = g.executionID)
    (hash : (env.generation 0).childInstanceID = generateChildWorkflowInstanceIDForExecution sum256) :
    Lineage sdk a sum256 id (gens ++ [g.after env s m (g.execution.committed m s')])
  | continueAsNew {gens : List (Generation σ)} {g : Generation σ} {env : ProcessEnv}
    {s s' : WorkflowRuntimeState} {m : Machine σ} {result : ActionsResult}
    (h : Lineage sdk a sum256 id (gens ++ [g])) (p : g.execution.Processes sdk a env s m result s')
    (continues : result.continuedAsNew = true) (executionID : executionIDOf s = g.executionID)
    (hash : (env.generation 0).childInstanceID = generateChildWorkflowInstanceIDForExecution sum256)
    (fresh : executionIDOf s' ∉ (gens ++ [g]).map Generation.executionID) :
    Lineage sdk a sum256 id (gens ++ [g.after env s m g.execution] ++
      [{ executionID := executionIDOf s'
         execution := { id := id, customStatus := s'.customStatus } }])

namespace Generation

variable {sdk : Sdk σ} {a : Applier} {sum256 : List String → String} {id : InstanceID}
  {g : Generation σ} {env : ProcessEnv} {s s' : WorkflowRuntimeState} {m : Machine σ}
  {result : ActionsResult}

/-- What a generation has generated: for its child workflows ids of distinct actions, for its detached
workflows the first default ids. -/
structure Generates (sum256 : List String → String) (id : InstanceID) (ids : List ActionID)
    (g : Generation σ) : Prop where
  nodup : ids.Nodup
  children : g.childIDs =
    ids.map (generateChildWorkflowInstanceIDForExecution sum256 id g.executionID)
  detached : ∃ n, g.detachedIDs = (List.range n).map (defaultInstanceID id)

/-- The current generation. -/
structure Current (sdk : Sdk σ) (sum256 : List String → String) (id : InstanceID)
    (g : Generation σ) : Prop where
  status : g.execution.Status sdk
  instanceID : g.execution.id = id
  generates : ∃ ids, Generates sum256 id ids g ∧
    ids ⊆ g.execution.history.filterMap HistoryEvent.schedulingID

theorem current_new (sdk : Sdk σ) (sum256 : List String → String) (id : InstanceID)
    (executionID : String) (customStatus : Option String) :
    Current sdk sum256 id
      { executionID := executionID, execution := { id := id, customStatus := customStatus } } :=
  ⟨.fresh ⟨rfl, rfl, rfl⟩, rfl, [], ⟨List.nodup_nil, rfl, 0, rfl⟩, List.nil_subset _⟩

/-- The actions whose instance ids the applier generates. -/
theorem generatedChildIDs (actions : List WorkflowAction) {env : ApplyEnv}
    (hid : s.instanceId = id) (hexec : executionIDOf s = g.executionID)
    (hash : env.childInstanceID = generateChildWorkflowInstanceIDForExecution sum256) :
    ∃ ids : List ActionID, ids.Sublist (Execution.schedulingIDs actions) ∧
      actions.filterMap (generatedChildID env s) =
        ids.map (generateChildWorkflowInstanceIDForExecution sum256 id g.executionID) := by
  induction actions with
  | nil => exact ⟨[], .slnil, rfl⟩
  | cons action actions ih =>
    obtain ⟨ids, hsub, hids⟩ := ih
    have hskip : ids.Sublist (Execution.schedulingIDs (action :: actions)) :=
      hsub.trans (((List.sublist_cons_self action actions).filter _).map _)
    cases hgen : generatedChildID env s action with
    | none => exact ⟨ids, hskip, by rw [List.filterMap_cons_none hgen, hids]⟩
    | some instanceID =>
      obtain ⟨actionID, actionType, router⟩ := action
      unfold generatedChildID at hgen
      cases actionType with
      | createChildWorkflow c =>
        dsimp only at hgen
        split at hgen
        · next hempty =>
          refine ⟨actionID :: ids, hsub.cons_cons actionID, ?_⟩
          have hsome : generatedChildID env s ⟨actionID, .createChildWorkflow c, router⟩ =
              some (generateChildWorkflowInstanceIDForExecution sum256 id g.executionID actionID) := by
            unfold generatedChildID Applier.childInstanceId
            simp only [if_pos hempty]
            rw [hash, hid, ← hexec]
            rfl
          rw [List.filterMap_cons_some hsome, hids, List.map_cons]
        · cases hgen
      | _ => cases hgen

/-- What a processed batch adds. -/
theorem Current.after (h : Current sdk sum256 id g)
    (p : g.execution.Processes sdk a env s m result s') (hexec : executionIDOf s = g.executionID)
    (hash : (env.generation 0).childInstanceID = generateChildWorkflowInstanceIDForExecution sum256)
    (x : Execution σ) :
    ∃ ids new, Generates sum256 id (ids ++ new) (g.after env s m x) ∧
      ids ⊆ g.execution.history.filterMap HistoryEvent.schedulingID ∧
      new ⊆ Execution.schedulingIDs m.ctx.actions := by
  obtain ⟨ids, hg, hsub⟩ := h.generates
  obtain ⟨new, hnew, hids⟩ := generatedChildIDs (g := g) m.response.actions
    (p.instanceId.trans h.instanceID) hexec hash
  obtain ⟨hnodup, hfresh⟩ := p.schedulingIDs h.status
  refine ⟨ids, new, ⟨?_, ?_, ?_⟩, hsub, hnew.subset⟩
  · refine List.nodup_append.mpr ⟨hg.nodup, hnodup.sublist hnew, ?_⟩
    rintro i hi j hj rfl
    exact hfresh i (hnew.subset hj) (hsub hi)
  · show g.childIDs ++ _ = (ids ++ new).map _
    rw [hg.children, hids, List.map_append]
    rfl
  · obtain ⟨uuid, hrun, -⟩ := p.replayed
    exact ⟨_, (Machine.generatedIDs_of_reaches hrun).trans (by rw [h.instanceID])⟩

theorem Current.turn (h : Current sdk sum256 id g)
    (p : g.execution.Processes sdk a env s m result s') (hexec : executionIDOf s = g.executionID)
    (hash : (env.generation 0).childInstanceID = generateChildWorkflowInstanceIDForExecution sum256)
    (hcan : result.continuedAsNew = false) :
    Current sdk sum256 id (g.after env s m (g.execution.committed m s')) := by
  obtain ⟨ids, new, hg, hsub, hnew⟩ := h.after p hexec hash (g.execution.committed m s')
  refine ⟨h.status.turn (p.turn hcan), h.instanceID, ids ++ new, hg, fun i hi => ?_⟩
  rcases List.mem_append.mp hi with hi | hi
  · obtain ⟨e, he, hei⟩ := List.mem_filterMap.mp (hsub hi)
    exact List.mem_filterMap.mpr ⟨e, p.history_subset h.status hcan he, hei⟩
  · exact p.recorded hcan i (hnew hi)

end Generation

namespace Lineage

variable {sdk : Sdk σ} {a : Applier} {sum256 : List String → String} {id : InstanceID}
  {gens : List (Generation σ)}

/-- Every generation generates as it should, the execution ids are distinct, and the last generation
goes on. -/
theorem generates (h : Lineage sdk a sum256 id gens) :
    (∀ g ∈ gens, ∃ ids, Generation.Generates sum256 id ids g) ∧
      (gens.map Generation.executionID).Nodup ∧
      ∀ g ∈ gens.getLast?, Generation.Current sdk sum256 id g := by
  induction h with
  | new executionID customStatus =>
    have hcur := Generation.current_new sdk sum256 id executionID customStatus
    obtain ⟨ids, hg, -⟩ := hcur.generates
    refine ⟨fun g hg' => ?_, List.nodup_singleton _, fun g hg' => ?_⟩
    · rw [List.mem_singleton.mp hg']
      exact ⟨ids, hg⟩
    · cases hg'
      exact hcur
  | @turn gens g env s s' m result h p continues hexec hash ih =>
    obtain ⟨hall, hnodup, hlast⟩ := ih
    have hcur := (hlast g (by simp)).turn p hexec hash continues
    obtain ⟨ids, hg, -⟩ := hcur.generates
    refine ⟨fun g' hg' => ?_, ?_, fun g' hg' => ?_⟩
    · rcases List.mem_append.mp hg' with hg' | hg'
      · exact hall g' (List.mem_append_left _ hg')
      · rw [List.mem_singleton.mp hg']
        exact ⟨ids, hg⟩
    · rw [List.map_append] at hnodup ⊢
      exact hnodup
    · rw [List.getLast?_append, List.getLast?_singleton] at hg'
      cases hg'
      exact hcur
  | @continueAsNew gens g env s s' m result h p continues hexec hash fresh ih =>
    obtain ⟨hall, hnodup, hlast⟩ := ih
    obtain ⟨ids, new, hg, -, -⟩ := (hlast g (by simp)).after p hexec hash g.execution
    have hcur := Generation.current_new sdk sum256 id (executionIDOf s') s'.customStatus
    obtain ⟨ids', hg', -⟩ := hcur.generates
    refine ⟨fun g' hmem => ?_, ?_, fun g' hmem => ?_⟩
    · rcases List.mem_append.mp hmem with hmem | hmem
      · rcases List.mem_append.mp hmem with hmem | hmem
        · exact hall g' (List.mem_append_left _ hmem)
        · rw [List.mem_singleton.mp hmem]
          exact ⟨ids ++ new, hg⟩
      · rw [List.mem_singleton.mp hmem]
        exact ⟨ids', hg'⟩
    · have hmap : (gens ++ [g.after env s m g.execution]).map Generation.executionID =
          (gens ++ [g]).map Generation.executionID := by
        rw [List.map_append, List.map_append]
        rfl
      rw [List.map_append, hmap]
      refine List.nodup_append.mpr ⟨hnodup, List.nodup_singleton _, ?_⟩
      rintro i hi j hj rfl
      have hj : i = executionIDOf s' := List.mem_singleton.mp hj
      exact fresh (hj ▸ hi)
    · rw [List.getLast?_append, List.getLast?_singleton] at hmem
      cases hmem
      exact hcur

end Lineage

/-! ### Collisions -/

theorem childInstanceID_injective {sum256 : List String → String} (hinj : Function.Injective sum256)
    {id : InstanceID} {executionID executionID' : String} {i j : ActionID}
    (h : generateChildWorkflowInstanceIDForExecution sum256 id executionID i =
      generateChildWorkflowInstanceIDForExecution sum256 id executionID' j) :
    executionID = executionID' ∧ i = j := by
  have hlist := hinj ((String.append_right_inj _).mp h)
  obtain ⟨-, hlist⟩ := List.cons.inj hlist
  obtain ⟨hexec, hlist⟩ := List.cons.inj hlist
  exact ⟨hexec, Int.repr_inj.mp (List.cons.inj hlist).1⟩

theorem defaultInstanceID_injective (id : InstanceID) : Function.Injective (defaultInstanceID id) :=
  fun _ _ h => Nat.repr_inj.mp ((String.append_right_inj _).mp h)

/-- The two kinds of generated ids differ after the id of the parent. -/
theorem childInstanceID_ne_default (sum256 : List String → String) (id : InstanceID)
    (executionID : String) (i : ActionID) (n : Nat) :
    generateChildWorkflowInstanceIDForExecution sum256 id executionID i ≠ defaultInstanceID id n := by
  intro h
  unfold generateChildWorkflowInstanceIDForExecution defaultInstanceID at h
  rw [String.append_assoc, String.append_assoc, String.append_right_inj] at h
  have hchars := congrArg String.toList h
  rw [String.toList_append, String.toList_append] at hchars
  exact absurd (List.cons.inj hchars).1 (by decide)

namespace Generation.Generates

variable {sum256 : List String → String} {id : InstanceID} {ids ids' : List ActionID}
  {g g' : Generation σ}

theorem children_disjoint_detached (h : Generates sum256 id ids g) (h' : Generates sum256 id ids' g') :
    g.childIDs.Disjoint g'.detachedIDs := by
  obtain ⟨n, hn⟩ := h'.detached
  rw [h.children, hn]
  intro x hx hx'
  obtain ⟨i, -, rfl⟩ := List.mem_map.mp hx
  obtain ⟨k, -, hk⟩ := List.mem_map.mp hx'
  exact childInstanceID_ne_default sum256 id g.executionID i k hk.symm

theorem nodup_generated (h : Generates sum256 id ids g) (hinj : Function.Injective sum256) :
    g.generated.Nodup := by
  refine List.Nodup.append ?_ ?_ (h.children_disjoint_detached h)
  · rw [h.children]
    exact h.nodup.map fun i j hij => (childInstanceID_injective hinj hij).2
  · obtain ⟨n, hn⟩ := h.detached
    rw [hn]
    exact List.nodup_range.map (defaultInstanceID_injective id)

theorem zero_mem (h : Generates sum256 id ids g) (hne : g.detachedIDs ≠ []) :
    defaultInstanceID id 0 ∈ g.generated := by
  obtain ⟨n, hn⟩ := h.detached
  rw [hn] at hne
  refine List.mem_append_right _ ?_
  rw [hn]
  refine List.mem_map_of_mem (List.mem_range.mpr (Nat.pos_of_ne_zero ?_))
  rintro rfl
  exact hne rfl

/-- Two generations generate no common id exactly if not both spawn detached workflows. -/
theorem disjoint_iff (h : Generates sum256 id ids g) (h' : Generates sum256 id ids' g')
    (hinj : Function.Injective sum256) (hexec : g.executionID ≠ g'.executionID) :
    g.generated.Disjoint g'.generated ↔ ¬(g.detachedIDs ≠ [] ∧ g'.detachedIDs ≠ []) := by
  constructor
  · rintro hdis ⟨hne, hne'⟩
    exact hdis (h.zero_mem hne) (h'.zero_mem hne')
  · intro hnot x hx hx'
    rcases List.mem_append.mp hx with hc | hd
    · rcases List.mem_append.mp hx' with hc' | hd'
      · rw [h.children] at hc
        rw [h'.children] at hc'
        obtain ⟨i, -, rfl⟩ := List.mem_map.mp hc
        obtain ⟨j, -, hj⟩ := List.mem_map.mp hc'
        exact hexec (childInstanceID_injective hinj hj).1.symm
      · exact h.children_disjoint_detached h' hc hd'
    · rcases List.mem_append.mp hx' with hc' | hd'
      · exact h'.children_disjoint_detached h hc' hd
      · exact hnot ⟨List.ne_nil_of_mem hd, List.ne_nil_of_mem hd'⟩

end Generation.Generates

/-- At most one element of a list has a property exactly if no two of them do. -/
theorem length_filter_le_one_iff {α : Type} {p : α → Bool} {l : List α} :
    (l.filter p).length ≤ 1 ↔ l.Pairwise fun a b => ¬(p a = true ∧ p b = true) := by
  have hfalse (l : List α) : l.length ≤ 1 ↔ l.Pairwise fun _ _ => False := by
    match l with
    | [] => simp
    | [_] => simp
    | a :: b :: l =>
      refine ⟨fun hlen => absurd hlen (by simp), fun hpair => ?_⟩
      exact ((List.pairwise_cons.mp hpair).1 b List.mem_cons_self).elim
  rw [hfalse, List.pairwise_filter]
  exact List.Pairwise.iff fun a b => by simp

/-- In every lineage of generations the generated instance ids are pairwise distinct exactly if at
most one generation spawns detached workflows without an id. -/
theorem generated_distinct_iff {sdk : Sdk σ} {a : Applier} {sum256 : List String → String}
    {id : InstanceID} {gens : List (Generation σ)} (hinj : Function.Injective sum256)
    (h : Lineage sdk a sum256 id gens) :
    (gens.flatMap Generation.generated).Nodup ↔
      (gens.filter fun g => !g.detachedIDs.isEmpty).length ≤ 1 := by
  obtain ⟨hgen, hexec, -⟩ := h.generates
  have hexec : gens.Pairwise fun g g' => g.executionID ≠ g'.executionID := List.pairwise_map.mp hexec
  have hdisjoint {g g' : Generation σ} (hg : g ∈ gens) (hg' : g' ∈ gens)
      (hne : g.executionID ≠ g'.executionID) :
      g.generated.Disjoint g'.generated ↔ ¬(g.detachedIDs ≠ [] ∧ g'.detachedIDs ≠ []) := by
    obtain ⟨ids, hids⟩ := hgen g hg
    obtain ⟨ids', hids'⟩ := hgen g' hg'
    exact hids.disjoint_iff hids' hinj hne
  have hspawn (g g' : Generation σ) :
      ((!g.detachedIDs.isEmpty) = true ∧ (!g'.detachedIDs.isEmpty) = true) ↔
        (g.detachedIDs ≠ [] ∧ g'.detachedIDs ≠ []) := by simp
  rw [List.nodup_flatMap, length_filter_le_one_iff]
  simp only [hspawn]
  constructor
  · rintro ⟨-, hdis⟩
    exact (hdis.and hexec).imp_of_mem fun hg hg' h => (hdisjoint hg hg' h.2).mp h.1
  · intro hnot
    refine ⟨fun g hg => ?_, (hnot.and hexec).imp_of_mem fun hg hg' h => (hdisjoint hg hg' h.2).mpr h.1⟩
    obtain ⟨ids, hids⟩ := hgen g hg
    exact hids.nodup_generated hinj

namespace GeneratedExample

/-- Without input, spawn a detached workflow; create a child, wait for a signal and continue as new. -/
inductive Flow
  | start
  | spawn
  | create
  | wait
  | waiting (task : TaskRef)
  | again
  | finished

def next (newInput : Output) : Flow → Step Flow
  | .start => .call (.getInput 0) fun
    | .input (.ok none) => .spawn
    | _ => .create
  | .spawn => .call (.scheduleNewWorkflow "audit" []) fun _ => .create
  | .create => .call (.callChildWorkflow "child" []) fun _ => .wait
  | .wait => .call (.waitForSingleEvent "go" (-1)) fun
    | .task t => .waiting t
    | _ => .finished
  | .waiting t => .call (.await t none) fun _ => .again
  | .again => .call (.continueAsNew newInput false) fun _ => .finished
  | .finished => .ret (.ok .nil)

def sdk (newInput : Output) : Sdk Flow :=
  { env := SuspensionExample.env, registry := { workflows := [("flow", .start)] }
    next := next newInput }

/-- An injective stand-in for the hash. -/
def sum256 (l : List String) : String :=
  (Encodable.encode (l.map fun s => s.toList.map Char.toNat)).repr

theorem sum256_injective : Function.Injective sum256 := by
  have hchar : Function.Injective Char.toNat := fun c d h => Char.ext (UInt32.toNat_inj.mp h)
  have hstring : Function.Injective fun s : String => s.toList.map Char.toNat :=
    (List.map_injective_iff.mpr hchar).comp fun _ _ => String.toList_inj.mp
  exact fun _ _ h =>
    List.map_injective_iff.mpr hstring (Encodable.encode_injective (Nat.repr_inj.mp h))

def env : ProcessEnv :=
  let apply : ApplyEnv :=
    { now := fun _ => 0, uuid := fun _ => "e2"
      childInstanceID := generateChildWorkflowInstanceIDForExecution sum256 }
  ⟨0, fun _ => apply, apply, 0⟩

def start (executionID : String) (input : Option String) : HistoryEvent :=
  { eventType := .executionStarted
      { name := "flow", workflowInstance := ⟨"i", some executionID⟩, input := input } }

def go : HistoryEvent := { eventType := .eventRaised { name := "go" } }

/-- Process a batch. -/
def process (newInput : Output) (x : Execution Flow) (batch : List HistoryEvent) :
    Option (WorkflowRuntimeState × Machine Flow × ActionsResult × WorkflowRuntimeState) :=
  match WorkflowProcessor.applyWorkItem env (x.workItem batch) with
  | none => none
  | some s =>
    let m := (x.replay s).run (sdk newInput) 30
    if x.accepts batch ∧ (Machine.step (sdk newInput) m).isNone then
      match (⟨"app", ""⟩ : Applier).actions (env.generation 0) none
        (s.recordVersion m.response.version) m.response.customStatus m.response.actions with
      | .ok (result, s') => some (s, m, result, s')
      | .error _ => none
    else none

theorem processes {newInput : Output} {x : Execution Flow} {batch : List HistoryEvent}
    {s s' : WorkflowRuntimeState} {m : Machine Flow} {result : ActionsResult}
    (h : process newInput x batch = some (s, m, result, s')) :
    x.Processes (sdk newInput) ⟨"app", ""⟩ env s m result s' := by
  unfold process at h
  split at h
  · cases h
  · next hs =>
    dsimp only at h
    split at h
    · next hcond =>
      split at h
      · next happ =>
        cases h
        exact ⟨⟨batch, hcond.1, hs⟩, ⟨(sdk newInput).env.uuid, Machine.reaches_run _ _ 30,
          Option.isNone_iff_eq_none.mp hcond.2⟩, none, happ⟩
      · cases h
    · cases h

/-- Two generations: a first turn, a signal that makes it continue as new, and a turn of the next
one. -/
def run (newInput : Output) (input : Option String) : Option (List (Generation Flow)) :=
  let g₁ : Generation Flow := { executionID := "e1", execution := { id := "i" } }
  match process newInput g₁.execution [start "e1" none] with
  | none => none
  | some (s₁, m₁, r₁, s₁') =>
    let g₂ := g₁.after env s₁ m₁ (g₁.execution.committed m₁ s₁')
    match process newInput g₂.execution [go] with
    | none => none
    | some (s₂, m₂, r₂, s₂') =>
      let g₃ : Generation Flow :=
        { executionID := executionIDOf s₂', execution := { id := "i", customStatus := s₂'.customStatus } }
      match process newInput g₃.execution [start "e2" input] with
      | none => none
      | some (s₃, m₃, r₃, s₃') =>
        if r₁.continuedAsNew = false ∧ executionIDOf s₁ = "e1" ∧
            r₂.continuedAsNew = true ∧ executionIDOf s₂ = "e1" ∧ executionIDOf s₂' ∉ ["e1"] ∧
            r₃.continuedAsNew = false ∧ executionIDOf s₃ = executionIDOf s₂' then
          some [g₂.after env s₂ m₂ g₂.execution, g₃.after env s₃ m₃ (g₃.execution.committed m₃ s₃')]
        else none

theorem lineage_of_run {newInput : Output} {input : Option String} {gens : List (Generation Flow)}
    (h : run newInput input = some gens) : Lineage (sdk newInput) ⟨"app", ""⟩ sum256 "i" gens := by
  unfold run at h
  dsimp only at h
  split at h
  · cases h
  · next h₁ =>
    split at h
    · cases h
    · next h₂ =>
      split at h
      · cases h
      · next h₃ =>
        split at h
        · next hcond =>
          obtain ⟨hc₁, he₁, hc₂, he₂, hfresh, hc₃, he₃⟩ := hcond
          cases h
          have l₀ : Lineage (sdk newInput) ⟨"app", ""⟩ sum256 "i" ([] ++ [_]) := .new "e1" none
          have l₁ := (l₀.turn (processes h₁) hc₁ he₁ rfl).continueAsNew (processes h₂) hc₂ he₂ rfl hfresh
          exact l₁.turn (processes h₃) hc₃ he₃ rfl
        · cases h

/-- Both generations call `ScheduleNewWorkflow` without an id, and both spawn `i-0`. -/
theorem spawned_in_two_generations :
    ∃ gens, Lineage (sdk .nil) ⟨"app", ""⟩ sum256 "i" gens ∧
      gens.map Generation.detachedIDs = [["i-0"], ["i-0"]] ∧
      ¬(gens.flatMap Generation.generated).Nodup := by
  have hrun : (run .nil none).map (·.map Generation.detachedIDs) = some [["i-0"], ["i-0"]] := by
    decide +kernel
  obtain ⟨gens, hgens, hids⟩ := Option.map_eq_some_iff.mp hrun
  refine ⟨gens, lineage_of_run hgens, hids, fun hnodup => ?_⟩
  match gens, hids with
  | [g, g'], hids =>
    obtain ⟨hg, hg'⟩ := List.cons.inj hids
    have hmem : "i-0" ∈ g.generated := List.mem_append_right _ (by rw [hg]; exact List.mem_cons_self)
    have hmem' : "i-0" ∈ g'.generated :=
      List.mem_append_right _ (by rw [(List.cons.inj hg').1]; exact List.mem_cons_self)
    have hdis := (List.nodup_flatMap.mp hnodup).2
    exact (List.pairwise_cons.mp hdis).1 g' List.mem_cons_self hmem hmem'

/-- Here only the first generation does, and no two of the ids are alike. -/
theorem spawned_once :
    Function.Injective sum256 ∧ ∃ gens,
      Lineage (sdk (.value "again")) ⟨"app", ""⟩ sum256 "i" gens ∧
      gens.map (fun g => (g.childIDs.length, g.detachedIDs)) = [(1, ["i-0"]), (1, [])] ∧
      (gens.flatMap Generation.generated).Nodup := by
  have hrun : (run (.value "again") (some "again")).map
      (·.map fun g => (g.childIDs.length, g.detachedIDs)) = some [(1, ["i-0"]), (1, [])] := by
    decide +kernel
  obtain ⟨gens, hgens, hids⟩ := Option.map_eq_some_iff.mp hrun
  refine ⟨sum256_injective, gens, lineage_of_run hgens, hids, ?_⟩
  refine (generated_distinct_iff sum256_injective (lineage_of_run hgens)).mpr ?_
  match gens, hids with
  | [g, g'], hids =>
    obtain ⟨-, hg'⟩ := List.cons.inj hids
    have hnone : g'.detachedIDs = [] := (Prod.mk.inj (List.cons.inj hg').1).2
    simp only [List.filter_cons, hnone, List.isEmpty_nil]
    split <;> simp

end GeneratedExample

end DurableTask.Task
