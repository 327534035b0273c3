import DurableTask.Backend.Sqlite.ChildResult
import DurableTask.Backend.Sqlite.Rows

/-!
# Who writes the history, and what an activity is scheduled from

`lease_exclusive`: of the work items of one instance that workers hold, at most one can be completed or
abandoned. `history_written`: the history of an instance only changes when it is
deleted or when the holder of its lease commits a turn, which appends the turn, and what is loaded
afterwards is the state the worker ended with. `tasks_recorded`: every activity in the queue was
scheduled by the history that its instance has now.
-/

namespace DurableTask

open WorkflowRuntimeState

/-! ### The tasks of a turn -/

/-- Every pending task is an event of the turn, and none that `recordVersion` rewrites. -/
def WorkflowRuntimeState.TasksNew (s : WorkflowRuntimeState) : Prop :=
  ∀ e ∈ s.pendingTasks, e ∈ s.newEvents ∧ ∀ v, e.eventType ≠ .workflowStarted v

theorem mem_recordVersion {version : WorkflowVersion} {es : List HistoryEvent} {e : HistoryEvent}
    (h : e ∈ es) (hne : ∀ v, e.eventType ≠ .workflowStarted v) : e ∈ recordVersion version es := by
  induction es with
  | nil => exact h
  | cons x es ih =>
    unfold recordVersion
    split
    · next v hx =>
      rcases List.mem_cons.mp h with rfl | h
      · exact absurd hx (hne v)
      · exact List.mem_cons_of_mem _ h
    · rcases List.mem_cons.mp h with rfl | h
      · exact List.mem_cons_self
      · exact List.mem_cons_of_mem _ (ih h)

namespace WorkflowRuntimeState

variable {s s' : WorkflowRuntimeState}

theorem TasksNew.of_nil (h : s.pendingTasks = []) : s.TasksNew := by
  intro e he
  rw [h] at he
  cases he

theorem TasksNew.recordVersion (hs : s.TasksNew) (v : Option WorkflowVersion) :
    (s.recordVersion v).TasksNew := by
  unfold WorkflowRuntimeState.recordVersion
  cases v with
  | none => exact hs
  | some version =>
    dsimp only
    split
    · exact hs
    · intro e he
      obtain ⟨hmem, hne⟩ := hs e he
      exact ⟨mem_recordVersion hmem hne, hne⟩

end WorkflowRuntimeState

namespace Applier

variable {a : Applier} {env : ApplyEnv} {receivedHistory : Option PropagatedHistory} {i : Nat}
  {resolved : DedupSet} {action : WorkflowAction} {s s' : WorkflowRuntimeState} {f : Effect}

/-- A task is the event of the round that schedules it. -/
theorem effect_task (h : a.effect env receivedHistory i resolved s action = .ok f) {e : HistoryEvent}
    (he : f.task = some e) : f.event = some e ∧ ∀ v, e.eventType ≠ .workflowStarted v := by
  have hkind := ((effect_round h).dispatched (.task, e.eventId) (by simp [Effect.dispatched, he])).2
  rcases action with ⟨id, body, router⟩
  cases body with
  | scheduleTask t =>
    cases h
    unfold scheduleTask at he ⊢
    dsimp only at he ⊢
    split at he
    · cases he
    · next hnew =>
      cases he
      rw [if_neg hnew]
      exact ⟨rfl, fun v hv => by cases hv⟩
  | _ => cases hkind

theorem tasksNew_effect (hs : s.TasksNew)
    (h : a.effect env receivedHistory i resolved s action = .ok f) : (f.apply s).TasksNew := by
  have hnew := (effect_round h).apply.1
  have htasks : (f.apply s).pendingTasks = s.pendingTasks ++ f.task.toList := by
    unfold Effect.apply
    cases f.event with
    | none => rfl
    | some e => exact congrArg (·.2.1 ++ f.task.toList) (s.addEvent_outbox e)
  intro e he
  rw [htasks, List.mem_append, Option.mem_toList] at he
  rw [hnew, List.mem_append, Option.mem_toList]
  rcases he with he | he
  · exact (hs e he).imp_left .inl
  · exact (effect_task h he).imp_left .inr

theorem tasksNew_actions {customStatus : Option String} {actions : List WorkflowAction}
    {result : ActionsResult} (hs : s.TasksNew)
    (h : a.actions env receivedHistory s customStatus actions = .ok (result, s')) : s'.TasksNew := by
  refine applyActions_invariant (J := TasksNew) (fun hs _ _ hf => tasksNew_effect hs hf)
    (fun _ _ _ _ _ => .of_nil ?_) (show TasksNew { s with customStatus, stalled := none } from hs) h
  unfold continueAsNewState
  refine (congrArg (·.2.1) (foldl_addEvent_frame _ _).1).trans ?_
  exact (congrArg (·.2.1) (addEvent_outbox _ _)).trans (congrArg (·.2.1) (addEvent_outbox _ _))

end Applier

/-- The pending tasks of a processed work item are events of its turn. -/
theorem tasksNew_processWorkItem {w : WorkflowProcessor} {env : ProcessEnv}
    {wi wi' : WorkflowWorkItem} (hnone : wi.state.pendingTasks = [])
    (h : w.processWorkItem env wi = .ok wi') : wi'.state.TasksNew := by
  have hturn := processWorkItem_invariant (J := TasksNew) ?round
    (fun _ _ hforced => Applier.tasksNew_actions (.of_nil rfl) hforced) (fun hs _ => hs)
    (fun _ => .of_nil ?start) h
  case round =>
    intro _ _ _ _ _ _ _ hs hround
    obtain ⟨response, actions, -, -, happly⟩ := runGeneration_actions hround
    exact Applier.tasksNew_actions (hs.recordVersion response.version) happly
  case start =>
    refine (congrArg (·.2.1) (addEvents_frame _ _).1).trans ?_
    exact (congrArg (·.2.1) (addEvent_outbox _ _)).trans hnone
  rcases hturn with ⟨-, msgs, heq, -⟩ | ⟨-, hturn⟩
  · rw [heq]
    exact .of_nil hnone
  · exact hturn

namespace Sqlite

open Table

/-! ### The queue of activities -/

namespace Db

variable {opts : SqliteOptions} {db db' : Db} {wi : WorkflowWorkItem}

/-- Every activity in the queue is an event of its instance's history. -/
def TasksRecorded (db : Db) : Prop :=
  ∀ t ∈ db.newTasks, t.event ∈ (db.historyTable t.instanceID).map HistoryRow.event

theorem TasksRecorded.deleteInstance (h : db.TasksRecorded) (id : InstanceID) :
    (db.deleteInstance id).TasksRecorded := by
  intro t ht
  obtain ⟨ht, hid⟩ := List.mem_filter.mp ht
  rw [historyTable_deleteInstance _ (by simpa using hid)]
  exact h t ht

/-- The turn of a commit: a new generation starts without tasks, and new tasks are in the turn. -/
theorem TasksRecorded.turn {now : Time} {db₁ : Db} (h : db.TasksRecorded) (hnew : wi.state.TasksNew)
    (hinserted : ((db.commitInstance now wi).resetGeneration wi).insertHistory wi.instanceID
      wi.state.oldEvents.length wi.state.newEvents = .ok db₁) (origin : Origin) :
    (db₁.insertTasks wi origin).TasksRecorded := by
  obtain ⟨hown, hother⟩ := historyTable_turn hinserted
  obtain ⟨added, htasks, hid, hevents⟩ := newTasks_insertTasks db₁ wi origin
  have hkept : ∀ t ∈ db₁.newTasks, t ∈ db.newTasks ∧
      (t.instanceID = wi.instanceID → wi.state.continuedAsNew = false) := by
    obtain ⟨-, rfl⟩ := insertHistory_eq hinserted
    intro t ht
    dsimp only at ht
    unfold resetGeneration at ht
    split at ht
    · obtain ⟨ht, hne⟩ := List.mem_filter.mp ht
      exact ⟨ht, fun heq => absurd heq (by simpa using hne)⟩
    · next hcan => exact ⟨ht, fun _ => Bool.not_eq_true _ ▸ hcan⟩
  intro t ht
  rw [htasks, List.mem_append] at ht
  have hhist : (db₁.insertTasks wi origin).historyTable t.instanceID =
      db₁.historyTable t.instanceID := by
    obtain ⟨_, heq⟩ := insertTasks_frame db₁ wi origin
    rw [heq]
    rfl
  rw [hhist]
  rcases ht with ht | ht
  · obtain ⟨ht, hcan⟩ := hkept t ht
    have ht := h t ht
    by_cases hown' : t.instanceID = wi.instanceID
    · rw [hown'] at ht ⊢
      rw [hown, List.map_append, kept, if_neg (by simp [hcan hown'])]
      exact List.mem_append_left _ ht
    · rw [hother _ hown']
      exact ht
  · rw [(hid t ht).1, hown, List.map_append, map_event_historyRows]
    exact List.mem_append_right _ (hnew _ (hevents ▸ List.mem_map_of_mem ht)).1

theorem TasksRecorded.complete {now : Time} (h : db.TasksRecorded) (hnew : wi.state.TasksNew)
    (hcomplete : db.completeWorkflowWorkItem now wi = .ok db') : db'.TasksRecorded := by
  obtain ⟨db₁, db₂, db₃, hc⟩ := completes_of_ok hcomplete
  have hresults : db₂.TasksRecorded := by
    refine Except.foldlM_invariant hc.results (h.turn hnew hc.inserted _) fun x msg y _ hx hstep => ?_
    obtain ⟨_, -, ⟨_, -, -, rfl⟩ | ⟨-, rfl⟩⟩ := enqueueChildResult_eq hstep
    · exact hx
    · exact hx
  have hstarted : db₃.TasksRecorded := by
    refine Except.foldlM_invariant hc.started hresults fun x msg y _ hx hstep => ?_
    refine startInstance_invariant hstep hx (fun _ id hx => hx.deleteInstance id)
      fun x y hx hcreate => ?_
    obtain ⟨r, -, -, -, -, -, -, -, -, -, rfl⟩ := createWorkflowInstanceInternal_eq hcreate
    exact hx
  have hout : (db₃.enqueueOutbox wi (db.committing wi)).TasksRecorded := by
    obtain ⟨_, _, heq⟩ := enqueueOutbox_frame db₃ wi (db.committing wi)
    rw [heq]
    exact hstarted
  obtain ⟨-, rfl⟩ := acknowledge_eq hc.acknowledged
  exact hout

theorem TasksRecorded.transaction {op : Op} (h : db.TasksRecorded)
    (htx : Transaction opts (fun _ wi => wi.state.TasksNew) db op db') : db'.TasksRecorded := by
  -- Workers of activities lock tasks and unlock them.
  have hlocks {newTasks : List TaskRow}
      (hmap : newTasks.map TaskRow.bare = db.newTasks.map TaskRow.bare) :
      ({ db with newTasks := newTasks } : Db).TasksRecorded := by
    intro t ht
    have hmem := List.mem_map_of_mem (f := TaskRow.bare) ht
    rw [hmap] at hmem
    obtain ⟨t₀, ht₀, hbare⟩ := List.mem_map.mp hmem
    have heq := TaskRow.eq_of_bare hbare
    rw [← heq.1, ← heq.2.1]
    exact h t₀ ht₀
  cases htx with
  | idle => exact h
  | createWorkflowInstance hcreate =>
    unfold createWorkflowInstance at hcreate
    split at hcreate
    · cases hcreate
    · obtain ⟨created, hcreated, heq⟩ := Except.bind_eq_ok.mp hcreate
      cases heq
      obtain ⟨r, -, -, -, -, -, -, -, -, -, rfl⟩ := createWorkflowInstanceInternal_eq hcreated
      exact h
  | addNewWorkflowEvent hadd =>
    obtain ⟨-, rfl⟩ := addNewWorkflowEvent_eq hadd
    exact h
  | addNewWorkflowEventWithExternalDelivery hadd =>
    obtain ⟨-, ⟨-, rfl⟩ | ⟨-, rfl⟩⟩ := addNewWorkflowEventWithExternalDelivery_eq hadd
    · exact h
    · exact h
  | purgeWorkflowState hpurge =>
    obtain ⟨rfl, -⟩ := cleanup_eq hpurge
    exact h.deleteInstance _
  | getWorkflowWorkItem hget => cases acquires_of_getWorkflowWorkItem hget <;> exact h
  | completeWorkflowWorkItem _ held hcomplete => exact h.complete held hcomplete
  | abandonWorkflowWorkItem habandon =>
    obtain ⟨-, -, _, rfl⟩ := abandon_eq habandon
    exact h
  | getActivityWorkItem now t =>
    obtain ⟨newTasks, heq, hmap⟩ := getActivityWorkItem_eq db opts now t
    rw [heq]
    exact hlocks hmap
  | completeActivityWorkItem hcomplete =>
    obtain ⟨_, -, rfl⟩ := completeActivityWorkItem_eq hcomplete
    exact fun t ht => h t (List.mem_of_mem_filter ht)
  | abandonActivityWorkItem habandon =>
    obtain ⟨newTasks, rfl, hmap⟩ := abandonActivityWorkItem_eq habandon
    exact hlocks hmap

/-- A work item that could be completed or abandoned now. -/
def Accepts (db : Db) (wi : WorkflowWorkItem) : Prop :=
  ∃ now db', db.completeWorkflowWorkItem now wi = .ok db' ∨ db.abandonWorkflowWorkItem now wi = .ok db'

theorem Accepts.leasedBy (h : db.Accepts wi) (hk : db.Keyed) : db.leasedBy wi.instanceID wi.lockedBy := by
  obtain ⟨now, db', h | h⟩ := h
  · obtain ⟨_, _, _, hc⟩ := completes_of_ok h
    exact hk.leasedBy hc.leased
  · exact hk.leasedBy (abandon_eq h).2.1

end Db

/-! ### Every run -/

namespace System

variable (opts : SqliteOptions) (ops : List Op)

theorem tasksRecorded_maintained : Maintained opts (fun _ _ => True) Db.TasksRecorded
    (fun _ _ => True) (fun _ wi => wi.state.TasksNew) where
  init := fun _ ht => by cases ht
  transaction _ _ h htx := h.transaction htx
  acquire _ _ _ := trivial
  process _ _ _ _ hproc := tasksNew_processWorkItem (new_frame _ _ _).1 hproc
  acquired _ _ _ := trivial
  processed _ _ h := h

/-- Whatever the calls and whatever the executors answer, every activity in the queue is an event of
the history that its instance has now: none outlives its instance or its generation, and none is there
before its turn is committed. -/
theorem tasks_recorded (id : InstanceID) :
    ((run opts ops).db.tasksOf id).map TaskRow.event ⊆ (run opts ops).db.historyOf id := by
  have htasks := ((tasksRecorded_maintained opts).run ops fun _ _ _ _ => trivial).store
  have hdoc := ((documented_maintained opts).run ops fun _ _ _ _ => trivial).store
  intro e he
  obtain ⟨t, ht, rfl⟩ := List.mem_map.mp he
  obtain ⟨ht, hid⟩ := List.mem_filter.mp ht
  rw [(hdoc.recorded id).historyOf, ← of_decide_eq_true hid]
  exact htasks t ht

/-- The commit of a turn by the worker that holds the lease: it appends the turn, to an empty history
if the workflow continued as new, and what is loaded afterwards is the state the worker ended with. -/
structure Writes (db db' : Db) (wi : WorkflowWorkItem) : Prop where
  leased : db.leasedBy wi.instanceID wi.lockedBy
  committed : ∃ now, db.completeWorkflowWorkItem now wi = .ok db'
  history : db'.historyOf wi.instanceID =
    (if wi.state.continuedAsNew then [] else db.historyOf wi.instanceID) ++ wi.state.newEvents
  startEvent : (db'.getWorkflowRuntimeState wi.instanceID).startEvent = wi.state.startEvent
  completedEvent :
    (db'.getWorkflowRuntimeState wi.instanceID).completedEvent = wi.state.completedEvent
  isSuspended : (db'.getWorkflowRuntimeState wi.instanceID).isSuspended = wi.state.isSuspended

/-- One call leaves the history of an instance as it is, or deletes it, or is the commit of a processed
work item. -/
theorem history_written (op : Op) (id : InstanceID) :
    ((run opts ops).exec opts op).db.historyOf id = (run opts ops).db.historyOf id ∨
      ((run opts ops).exec opts op).db.historyOf id = [] ∨
      ∃ wi ∈ (run opts ops).processed, wi.instanceID = id ∧
        Writes (run opts ops).db ((run opts ops).exec opts op).db wi := by
  have h := (documented_maintained opts).run ops fun _ _ _ _ => trivial
  have hrec := h.store.recorded id
  have hrec' : Db.Recorded (((run opts ops).exec opts op).db.historyTable id) :=
    (h.exec (documented_maintained opts) trivial).store.recorded id
  -- What is committed is a processed work item.
  have hheld : Holds Db.Documented (fun _ _ => True)
      (fun db wi => Db.Processed db wi ∧ wi ∈ (run opts ops).processed) (run opts ops) :=
    ⟨h.tokens, h.keyed, h.store, h.acquired, fun wi hwi hl => ⟨h.processed wi hwi hl, hwi⟩⟩
  have htx := hheld.transaction (exec_spec opts _ op)
  generalize (run opts ops).exec opts op = s' at htx hrec' ⊢
  rcases htx.commits_or id with hother | ⟨now, wi, rfl, hl, ⟨hturned, hmem⟩, hcomplete⟩
  · rw [hrec'.historyOf, hrec.historyOf]
    rcases Db.historyTable_ledgers hother.ledgers with hsame | hnil
    · exact .inl (congrArg _ hsame)
    · exact .inr (.inl (congrArg _ hnil))
  · obtain ⟨db₁, db₂, db₃, hc⟩ := Db.completes_of_ok hcomplete
    have hsome : ((run opts ops).db.instance? wi.instanceID).isSome = true := by
      obtain ⟨r, hr, -⟩ := hl
      rw [hr]
      rfl
    have hevents : s'.db.historyOf wi.instanceID =
        ((run opts ops).db.kept wi).map HistoryRow.event ++ wi.state.newEvents := by
      rw [hrec'.historyOf, (Db.complete_own hc hsome).2, (Db.historyTable_turn hc.inserted).1,
        List.map_append, Db.map_event_historyRows]
    have hload : s'.db.getWorkflowRuntimeState wi.instanceID =
        new wi.instanceID none wi.state.allEvents := by
      unfold Db.getWorkflowRuntimeState
      rw [hevents, hturned.kept_events hrec]
      rfl
    obtain ⟨-, hstart, hcompleted, hsuspended⟩ := hturned.coherent.new_eq wi.instanceID none
    rw [← hload] at hstart hcompleted hsuspended
    refine .inr (.inr ⟨wi, hmem, rfl, hl, ⟨now, hcomplete⟩, ?_, hstart, hcompleted, hsuspended⟩)
    rw [hevents, Db.kept, hrec.historyOf]
    split <;> rfl

/-- Of the work items of an instance that workers hold, the store accepts one at most. -/
theorem lease_exclusive (id : InstanceID) :
    {wi | wi ∈ (run opts ops).acquired ++ (run opts ops).processed ∧ wi.instanceID = id ∧
      (run opts ops).db.Accepts wi}.Subsingleton := by
  have h := (documented_maintained opts).run ops fun _ _ _ _ => trivial
  rintro wi ⟨hwi, rfl, haccepts⟩ wi' ⟨hwi', hid, haccepts'⟩
  obtain ⟨r, hr, hlock⟩ := haccepts.leasedBy h.keyed
  obtain ⟨r', hr', hlock'⟩ := haccepts'.leasedBy h.keyed
  rw [hid, hr] at hr'
  cases hr'
  exact List.inj_on_of_nodup_map h.tokens.nodup hwi hwi' (Option.some.inj (hlock.symm.trans hlock'))

end System

end Sqlite

end DurableTask
