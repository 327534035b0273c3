import DurableTask.Backend.Sqlite.Rows

/-!
# Instances that a commit starts

`CompleteWorkflowWorkItem` creates the instances of the start messages in the outbox. A start message
for an instance that exists and has not ended leaves the tables of that instance alone, except that
it is enqueued all the same (`dropped_spawn`). A start message for the completing instance itself
deletes the rows by which the transaction recognises its lease, if the turn ends the instance
(`lock_lost_iff`).
-/

namespace DurableTask

namespace WorkflowRuntimeState

end WorkflowRuntimeState

namespace Sqlite

open Table

namespace Db

variable {db db' db'' : Db} {id : InstanceID} {r : InstanceRow}

/-- An instance keeps its rows, and the given events are enqueued for it. -/
structure Receives (id : InstanceID) (events : List HistoryEvent) (db db' : Db) : Prop where
  row : db'.instance? id = db.instance? id
  history : db'.historyTable id = db.historyTable id
  tasks : db'.tasksOf id = db.tasksOf id
  queue : ∃ added, db'.queueOf id = db.queueOf id ++ added ∧ added.map EventRow.event = events

/-- All rows of an instance stay as they are. -/
abbrev Untouched (id : InstanceID) (db db' : Db) : Prop := Receives id [] db db'

theorem Adds.receives {contents : List (HistoryEvent × Option Time)} (h : Adds id db db' contents) :
    Receives id (contents.map Prod.fst) db db' := by
  obtain ⟨added, hqueue, -, hcontents⟩ := h.events
  refine ⟨h.instance?, congrArg (·.2.1) h.rows, congrArg (·.2.2.1) h.rows, added, hqueue, ?_⟩
  rw [← hcontents, List.map_map]
  rfl

theorem Untouched.queue_eq (h : Untouched id db db') : db'.queueOf id = db.queueOf id := by
  obtain ⟨added, hq, hnil⟩ := h.queue
  rw [hq, List.map_eq_nil_iff.mp hnil, List.append_nil]

/-- The start of an instance leaves every other instance alone, and every one that has not ended. -/
theorem untouched_startInstance {msg : WorkflowRuntimeStateMessage}
    (h : db.startInstance msg = .ok db') (hr : db.instance? id = some r)
    (hkept : isPurgeable r.runtimeStatus = false ∨ msg.starts ≠ some id) : Adds id db db' [] := by
  refine (adds_startInstance h id).resolve_right fun hagain => ?_
  rcases hkept with hkept | hkept
  · have hended := hagain.ended
    rw [hr, Option.all_some, hkept] at hended
    cases hended
  · exact hkept hagain.starts

/-- The starts of a list of messages. -/
theorem untouched_started {msgs : List WorkflowRuntimeStateMessage}
    (h : msgs.foldlM startInstance db = .ok db') (hr : db.instance? id = some r)
    (hkept : isPurgeable r.runtimeStatus = false ∨ ∀ msg ∈ msgs, msg.starts ≠ some id) :
    Untouched id db db' :=
  Adds.receives (Except.foldlM_invariant (I := fun x => Adds id db x []) h (.refl id db)
    fun _ msg _ hmsg hx hstep => hx.trans (untouched_startInstance hstep (hx.instance?.trans hr)
      (hkept.imp_right fun hkept => hkept msg hmsg)))

/-! ### Another instance during a commit -/

section Commit

variable {now : Time} {wi : WorkflowWorkItem} {db₁ db₂ db₃ : Db}

/-- The lease of a work item that was just acquired holds its events: none of them was stale. -/
theorem inbound_acquired {opts : SqliteOptions} {t : String} (hs : db.Sequenced)
    (h : db.getWorkflowWorkItem opts now t = .ok (db', some wi)) :
    wi.newEvents ≠ [] ∧
      ∀ e ∈ wi.newEvents, ∃ row ∈ db'.inbound wi.instanceID wi.lockedBy, row.delivered = e := by
  cases acquires_of_getWorkflowWorkItem h with
  | @lease row _ next instanceID lockedBy newEvents nonempty =>
    refine ⟨nonempty, fun e he => ?_⟩
    rw [newEvents] at he
    obtain ⟨e₁, he₁, rfl⟩ := List.mem_map.mp he
    obtain ⟨hbatch, hfresh⟩ := List.mem_filter.mp he₁
    obtain ⟨e₀, he₀, rfl⟩ := List.mem_map.mp hbatch
    obtain ⟨hmem, hdue⟩ := List.mem_filter.mp (List.mem_of_mem_take he₀)
    rw [instanceID, lockedBy]
    refine ⟨e₀.lock t, List.mem_filter.mpr ⟨?_, ?_⟩, rfl⟩
    · refine List.mem_filter.mpr ⟨mem_updateFirst he₀, ?_⟩
      -- A stale row is another row, so it has another number.
      have hnumber : e₀.sequenceNumber ∉ ((db.batch row.instanceID now t).filter
          (EventRow.isStale row.executionID)).map EventRow.sequenceNumber := by
        intro hmem'
        obtain ⟨x, hx, hseq⟩ := List.mem_map.mp hmem'
        obtain ⟨hx, hstale⟩ := List.mem_filter.mp hx
        obtain ⟨x₀, hx₀, -, rfl⟩ := mem_batch hx
        have heq : x₀ = e₀ := List.inj_on_of_nodup_map hs hx₀ hmem hseq
        rw [heq] at hstale
        simp [hstale] at hfresh
      simp only [Bool.not_eq_true', Bool.and_eq_false_iff]
      exact .inl (.inr (decide_eq_false hnumber))
    · have hid : e₀.instanceID = row.instanceID :=
        of_decide_eq_true (Bool.and_eq_true_iff.mp hdue).1
      simp [EventRow.lock, hid]

/-- A turn that ends its instance, and has a message that starts it again. -/
def SelfSpawn (wi : WorkflowWorkItem) : Prop :=
  isPurgeable wi.state.runtimeStatus = true ∧ ∃ msg ∈ messages wi, msg.starts = some wi.instanceID

instance (wi : WorkflowWorkItem) : Decidable (SelfSpawn wi) :=
  inferInstanceAs (Decidable (_ ∧ _))

/-- The statements of `CompleteWorkflowWorkItem` up to the creation of instances succeed. -/
structure Prepares (db : Db) (now : Time) (wi : WorkflowWorkItem) (db₁ db₂ db₃ : Db) : Prop where
  inserted : ((db.commitInstance now wi).resetGeneration wi).insertHistory wi.instanceID
    wi.state.oldEvents.length wi.state.newEvents = .ok db₁
  results : (childResults wi).foldlM (fun db' msg => db'.enqueueChildResult wi (db.committing wi) msg)
    (db₁.insertTasks wi (db.committing wi)) = .ok db₂
  started : (messages wi).foldlM startInstance db₂ = .ok db₃

/-- Up to the creation of instances, the lease still holds its events. -/
theorem Prepares.before (h : Prepares db now wi db₁ db₂ db₃) :
    db₂.instance? wi.instanceID = (db.commitInstance now wi).instance? wi.instanceID ∧
      db₂.inbound wi.instanceID wi.lockedBy = db.inbound wi.instanceID wi.lockedBy := by
  refine Except.foldlM_invariant (I := fun x : Db => x.instance? wi.instanceID =
      (db.commitInstance now wi).instance? wi.instanceID ∧
    x.inbound wi.instanceID wi.lockedBy = db.inbound wi.instanceID wi.lockedBy) h.results ?_ ?_
  · obtain ⟨newTasks, heq⟩ := insertTasks_frame db₁ wi (db.committing wi)
    rw [heq]
    obtain ⟨-, rfl⟩ := insertHistory_eq h.inserted
    unfold resetGeneration
    split
    · -- What a continue-as-new discards is not locked.
      refine ⟨rfl, filter_delete fun e _ he => ?_⟩
      rw [of_decide_eq_true (Bool.and_eq_true_iff.mp he).2]
      simp
    · exact ⟨rfl, rfl⟩
  · intro x msg y _ hx hstep
    obtain ⟨_, -, ⟨target, -, -, rfl⟩ | ⟨-, rfl⟩⟩ := enqueueChildResult_eq hstep
    · exact ⟨hx.1, (inbound_insertNewEvent ..).trans hx.2⟩
    · exact hx

/-- A start message for an instance that has ended takes away the events of its leases. -/
theorem inbound_replaced {msg : WorkflowRuntimeStateMessage} {t : String}
    (h : db.startInstance msg = .ok db') (hr : db.instance? id = some r)
    (hended : isPurgeable r.runtimeStatus = true) (hstarts : msg.starts = some id) :
    db'.inbound id t = [] := by
  obtain ⟨es, hes, rfl⟩ := Option.map_eq_some_iff.mp hstarts
  have hnone : (db.deleteInstance es.workflowInstance.instanceId).instance?
      es.workflowInstance.instanceId = none :=
    (instance?_deleteInstance db _ _).trans (if_pos rfl)
  simp [startInstance, createWorkflowInstanceInternal, cleanupWorkflowStateInternal, hes, hr, hended,
    hnone] at h
  rw [← h]
  exact filter_delete_eq_nil fun e _ he => (Bool.and_eq_true_iff.mp he).1

theorem inbound_nil_started {msgs : List WorkflowRuntimeStateMessage} {t : String}
    (h : msgs.foldlM startInstance db = .ok db') (hnil : db.inbound id t = []) :
    db'.inbound id t = [] := by
  refine Except.foldlM_invariant (I := fun x : Db => x.inbound id t = []) h hnil
    fun x msg y _ hx hstep => ?_
  have hsub := (startInstance_enqueued hstep).2.2.filter
    fun e => e.instanceID = id && e.lockedBy = some t
  exact List.sublist_nil.mp (hx ▸ hsub)

/-- The starts of a list of messages, one of which is for an instance that has ended. -/
theorem inbound_started {msgs : List WorkflowRuntimeStateMessage} {t : String}
    (h : msgs.foldlM startInstance db = .ok db') (hr : db.instance? id = some r)
    (hended : isPurgeable r.runtimeStatus = true) (hstarts : ∃ msg ∈ msgs, msg.starts = some id) :
    db'.inbound id t = [] := by
  induction msgs generalizing db with
  | nil =>
    obtain ⟨msg, hmsg, -⟩ := hstarts
    exact absurd hmsg List.not_mem_nil
  | cons msg msgs ih =>
    rw [List.foldlM_cons] at h
    obtain ⟨x, hstep, h⟩ := Except.bind_eq_ok.mp h
    by_cases hmsg : msg.starts = some id
    · exact inbound_nil_started h (inbound_replaced hstep hr hended hmsg)
    · have hkept := untouched_startInstance hstep hr (.inr hmsg)
      refine ih h (hkept.instance?.trans hr) ?_
      obtain ⟨msg', hmsg', hstarts⟩ := hstarts
      rcases List.mem_cons.mp hmsg' with rfl | hmsg'
      · exact absurd hstarts hmsg
      · exact ⟨msg', hmsg', hstarts⟩

/-- The events of the lease when instances have been created. -/
theorem Prepares.inbound (h : Prepares db now wi db₁ db₂ db₃)
    (hl : db.leasedBy wi.instanceID wi.lockedBy) :
    db₃.inbound wi.instanceID wi.lockedBy =
      if SelfSpawn wi then [] else db.inbound wi.instanceID wi.lockedBy := by
  obtain ⟨hrow, hin⟩ := h.before
  obtain ⟨r, hr, hlock⟩ := hl
  have hleased : r.isLeased wi = true := by
    rw [InstanceRow.isLeased, instanceID_of_instance? hr, hlock]
    simp
  rw [instance?_commitInstance, hr, Option.map_some, if_pos hleased] at hrow
  have hstatus : (r.commit now wi.state).runtimeStatus = wi.state.runtimeStatus := by
    unfold InstanceRow.commit
    rfl
  split
  · next hself => exact inbound_started h.started hrow (hstatus ▸ hself.1) hself.2
  · next hself =>
    have hkept := untouched_started h.started hrow ?_
    · rw [inbound_eq_filter, hkept.queue_eq, ← inbound_eq_filter, hin]
    · rw [hstatus]
      by_cases hended : isPurgeable wi.state.runtimeStatus = true
      · exact .inr fun msg hmsg hstarts => hself ⟨hended, msg, hmsg, hstarts⟩
      · exact .inl (by simpa using hended)

theorem any_isInbound (db : Db) (wi : WorkflowWorkItem) :
    db.newEvents.any (EventRow.isInbound wi) = true ↔ db.inbound wi.instanceID wi.lockedBy ≠ [] := by
  unfold Db.inbound
  rw [Ne, List.filter_eq_nil_iff, List.any_eq_true]
  push Not
  rfl

end Commit

end Db

namespace System

/-- The lease of every work item holds events. -/
theorem inbound_maintained (opts : SqliteOptions) :
    Maintained opts (fun _ _ => True) Db.Sequenced
      (fun db wi => db.inbound wi.instanceID wi.lockedBy ≠ [])
      (fun db wi => db.inbound wi.instanceID wi.lockedBy ≠ []) where
  init := .nil
  transaction _ _ hs htx := htx.queuings.sequenced hs
  acquire _ hs hget := by
    obtain ⟨hne, hin⟩ := Db.inbound_acquired hs hget
    obtain ⟨e, he⟩ := List.exists_mem_of_ne_nil _ hne
    obtain ⟨row, hrow, -⟩ := hin e he
    exact List.ne_nil_of_mem hrow
  process _ _ _ hin hproc := by
    obtain ⟨hid, hlock, -⟩ := processWorkItem_lease hproc
    rw [hid, hlock]
    exact hin
  acquired hkeeps hl hin := by
    rw [(hkeeps _ hl).2.2]
    exact hin
  processed hkeeps hl hin := by
    rw [(hkeeps _ hl).2.2]
    exact hin

end System

namespace SpawnExample

open StalledExample (opts)

/-- A workflow that was scheduled for later. -/
def scheduled : HistoryEvent :=
  { eventType := .executionStarted
      { name := "own", input := some "own input", workflowInstance := ⟨"t", some "own"⟩
        scheduledStartTimestamp := some 1000 } }

def spawner : HistoryEvent :=
  { eventType := .executionStarted { name := "spawner", workflowInstance := ⟨"a", some "e1"⟩ } }

def stray : WorkflowResponse :=
  { actions :=
      [{ id := 0
         actionType := .createDetachedWorkflow
          { instanceId := "t", name := "stray", input := some "stray input"
            executionId := some "stray" } }] }

def turn (token : String) (response : WorkflowResponse) (now : Time) : List Op :=
  [.getWorkflowWorkItem now token,
   .processWorkItem token (TerminationExample.processor response) OutboxExample.processEnv,
   .completeWorkflowWorkItem token (now + 1)]

/-- The spawn of an instance that exists, and the next turn, which is one of that instance. -/
def overtaken : List Op :=
  [.createWorkflowInstance scheduled, .createWorkflowInstance spawner] ++ turn "t1" stray 1 ++
    turn "t2" {} 3

/-- The turn in which the target's own start is due. -/
def late : List Op := overtaken ++ turn "t3" {} 2000

def starts (db : Db) (id : InstanceID) : List (String × Option String × Option String) :=
  (db.historyOf id).filterMap fun e => e.getExecutionStarted.map fun es =>
    (es.name, es.input, es.workflowInstance.executionId)

/-- The target has had its first turn when it is spawned again. -/
def begun : List Op :=
  .createWorkflowInstance
      { eventType := .executionStarted { name := "own", workflowInstance := ⟨"t", some "own"⟩ } } ::
    .createWorkflowInstance spawner :: turn "t1" {} 1 ++ (turn "t2" stray 3).dropLast

/-- Spawn a detached workflow and end. -/
def spawnAndEnd (id : InstanceID) : WorkflowResponse :=
  { actions :=
      [{ id := 0, actionType := .createDetachedWorkflow { instanceId := id, name := "again" } },
       { id := 1, actionType := .completeWorkflow { workflowStatus := .completed } }] }

/-- The turn of a workflow that does so, not yet committed. -/
def ended (id : InstanceID) : List Op :=
  .createWorkflowInstance spawner :: (turn "t1" (spawnAndEnd id) 1).dropLast

end SpawnExample

end Sqlite

end DurableTask
