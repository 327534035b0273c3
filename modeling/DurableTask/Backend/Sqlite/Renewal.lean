import DurableTask.Backend.Sqlite.Rows

/-!
# Continue-as-new on the SQLite store

The commit of a turn that continued as new: what it does to the rows of its own instance, and that the
rows of the other instances are only added to.
-/

namespace DurableTask.Sqlite

open Table

namespace Db

section Commit

variable {db db' : Db} {id : InstanceID} {now : Time} {wi : WorkflowWorkItem} {db₁ db₂ db₃ : Db}

/-- What is left of the queue of an instance that continues as new. -/
def external (wi : WorkflowWorkItem) (e : EventRow) : Bool :=
  e.lockedBy ≠ some wi.lockedBy && e.event.resolution.isNone

/-- The instance itself, up to its tasks. -/
theorem renewed_turn (hinserted : ((db.commitInstance now wi).resetGeneration wi).insertHistory
      wi.instanceID wi.state.oldEvents.length wi.state.newEvents = .ok db₁)
    (hcan : wi.state.continuedAsNew = true) (origin : Origin) :
    let t := db₁.insertTasks wi origin
    t.historyTable wi.instanceID =
      historyRows wi.instanceID wi.state.oldEvents.length wi.state.newEvents ∧
    (t.tasksOf wi.instanceID).map TaskRow.event = wi.state.pendingTasks ∧
    (∀ x ∈ t.tasksOf wi.instanceID, x.lockedBy = none ∧ x.lockExpiration = none ∧ x.dequeueCount = 0) ∧
    t.deliveriesOf wi.instanceID = db.deliveriesOf wi.instanceID ∧
    t.instances = (db.commitInstance now wi).instances ∧
    t.queueOf wi.instanceID = (db.queueOf wi.instanceID).filter fun e =>
      !(e.lockedBy ≠ some wi.lockedBy && e.event.resolution.isSome) := by
  have hhistory := (historyTable_turn hinserted).1
  obtain ⟨-, hdb₁⟩ := insertHistory_eq hinserted
  obtain ⟨added, htasks, hnew, hadded⟩ := newTasks_insertTasks db₁ wi origin
  obtain ⟨newTasks, hframe⟩ := insertTasks_frame db₁ wi origin
  have hreset : (db.commitInstance now wi).resetGeneration wi =
      { (db.commitInstance now wi).discardPreviousExecutionWork wi with
        history := delete (·.instanceID = wi.instanceID) db.history } := if_pos hcan
  have htasksOf : (db₁.insertTasks wi origin).tasksOf wi.instanceID = added := by
    have hold : db₁.newTasks.filter (·.instanceID = wi.instanceID) = [] := by
      rw [hdb₁, hreset]
      exact filter_delete_eq_nil fun _ _ h => h
    unfold tasksOf
    rw [htasks, List.filter_append, hold, List.nil_append]
    exact List.filter_eq_self.mpr fun x hx => decide_eq_true (hnew x hx).1
  refine ⟨?_, ?_, fun x hx => ?_, ?_, ?_, ?_⟩
  · rw [hframe]
    refine Eq.trans hhistory ?_
    unfold Db.kept
    rw [if_pos hcan, List.nil_append]
  · rw [htasksOf, hadded]
  · rw [htasksOf] at hx
    exact (hnew x hx).2
  · rw [hframe, hdb₁, hreset]
    rfl
  · rw [hframe, hdb₁, hreset]
    rfl
  · rw [hframe, hdb₁, hreset]
    unfold queueOf
    show (delete _ db.newEvents).filter _ = _
    unfold delete
    rw [List.filter_filter, List.filter_filter]
    refine List.filter_congr fun e _ => ?_
    by_cases he : e.instanceID = wi.instanceID <;> simp [he]

/-- The rows of the instance itself. -/
theorem Completes.own (hc : Completes db now wi db' db₁ db₂ db₃)
    (hcan : wi.state.continuedAsNew = true) (hsome : (db.instance? wi.instanceID).isSome = true) :
    db'.historyTable wi.instanceID =
      historyRows wi.instanceID wi.state.oldEvents.length wi.state.newEvents ∧
    (db'.tasksOf wi.instanceID).map TaskRow.event = wi.state.pendingTasks ∧
    (∀ t ∈ db'.tasksOf wi.instanceID, t.lockedBy = none ∧ t.lockExpiration = none ∧ t.dequeueCount = 0) ∧
    db'.deliveriesOf wi.instanceID = db.deliveriesOf wi.instanceID ∧
    ∃ added, db'.queueOf wi.instanceID = (db.queueOf wi.instanceID).filter (external wi) ++ added ∧
      (∀ e ∈ added, e.isNew = true) ∧ added.map EventRow.content =
        (db.commitInstance now wi).resultsFor wi wi.instanceID ++ outboxFor wi wi.instanceID := by
  obtain ⟨hhistory, htasks, hfresh, hdeliveries, hinstances, hevents⟩ :=
    renewed_turn hc.inserted hcan (db.committing wi)
  obtain ⟨hack, rfl⟩ := acknowledge_eq hc.acknowledged
  have hin : db₃.inbound wi.instanceID wi.lockedBy ≠ [] := by
    have hsame : (db₃.enqueueOutbox wi (db.committing wi)).inbound wi.instanceID wi.lockedBy =
        db₃.inbound wi.instanceID wi.lockedBy := inbound_enqueueOutbox ..
    rw [← hsame]
    obtain ⟨e, he, hin⟩ := List.any_eq_true.mp hack
    exact List.ne_nil_of_mem (List.mem_filter.mpr ⟨he, hin⟩)
  obtain ⟨-, hresults⟩ := adds_childResults hc.results wi.instanceID
  have hrow : (db₂.instance? wi.instanceID).isSome = true := by
    rw [hresults.instance?]
    unfold Db.instance?
    rw [hinstances]
    have hcommit := instance?_commitInstance db now wi wi.instanceID
    unfold Db.instance? at hcommit hsome
    rw [hcommit, Option.isSome_map]
    exact hsome
  have hall := (hresults.trans (adds_started_own hc.started hin hrow)).trans
    (adds_enqueueOutbox db₃ wi (db.committing wi) wi.instanceID)
  obtain ⟨hrows, added, hqueue, hnew, hcontents⟩ := hall
  have hrows : (db₃.enqueueOutbox wi (db.committing wi)).rowsOf wi.instanceID = _ := hrows
  refine ⟨(congrArg (·.2.1) hrows).trans hhistory, ?_, fun t ht => ?_,
    (congrArg (·.2.2.2) hrows).trans hdeliveries, added, ?_, hnew, ?_⟩
  · rw [← htasks]
    exact congrArg (·.2.2.1.map TaskRow.event) hrows
  · have hsame : (db₃.enqueueOutbox wi (db.committing wi)).tasksOf wi.instanceID =
        (db₁.insertTasks wi (db.committing wi)).tasksOf wi.instanceID := congrArg (·.2.2.1) hrows
    exact hfresh t (hsame ▸ ht)
  · -- The batch is deleted; what was added is not locked.
    have hfilter (rows : List EventRow) :
        (delete (EventRow.isInbound wi) rows).filter (·.instanceID = wi.instanceID) =
          (rows.filter (·.instanceID = wi.instanceID)).filter fun e => !EventRow.isInbound wi e := by
      unfold delete
      rw [List.filter_filter, List.filter_filter]
      exact List.filter_congr fun e _ => Bool.and_comm _ _
    have hqueue : (db₃.enqueueOutbox wi (db.committing wi)).newEvents.filter
        (·.instanceID = wi.instanceID) = _ := hqueue
    have hkeep : added.filter (fun e => !EventRow.isInbound wi e) = added := by
      refine List.filter_eq_self.mpr fun e he => ?_
      have hlock : e.lockedBy = none := of_decide_eq_true (Bool.and_eq_true_iff.mp (hnew e he)).1
      simp [EventRow.isInbound, hlock]
    unfold queueOf
    rw [hfilter, hqueue, List.filter_append, hkeep, hevents, List.filter_filter]
    congr 1
    refine List.filter_congr fun e he => ?_
    have hid : e.instanceID = wi.instanceID := of_decide_eq_true (List.mem_filter.mp he).2
    by_cases hl : e.lockedBy = some wi.lockedBy <;> simp [external, EventRow.isInbound, hid, hl]
  · rw [hcontents, List.append_nil]
    unfold resultsFor
    simp only [admits_congr hinstances]

end Commit

end Db

namespace System

variable (opts : SqliteOptions) (ops : List Op) {db' : Db} {now : Time} {wi : WorkflowWorkItem}

open Db

/-- The commit of a turn that continued as new. The history and the tasks of its instance are those of the
new generation. Of its queue the batch and the resolutions go; the other rows stay as they are, and after
them come the child results, timers and messages for itself (there is no such child result unless the
workflow was created as its own child). No receipt changes. The rows of another instance stay and its
queue grows, unless the turn creates it, or creates it again after its end. -/
theorem continue_as_new_frame (hwi : wi ∈ (run opts ops).processed)
    (hcan : wi.state.continuedAsNew = true)
    (hok : (run opts ops).db.completeWorkflowWorkItem now wi = .ok db') :
    db'.historyOf wi.instanceID = wi.state.newEvents ∧
    (db'.tasksOf wi.instanceID).map TaskRow.event = wi.state.pendingTasks ∧
    (∀ t ∈ db'.tasksOf wi.instanceID, t.lockedBy = none ∧ t.lockExpiration = none ∧ t.dequeueCount = 0) ∧
    db'.deliveriesOf wi.instanceID = (run opts ops).db.deliveriesOf wi.instanceID ∧
    (∃ added, db'.queueOf wi.instanceID =
        ((run opts ops).db.queueOf wi.instanceID).filter (external wi) ++ added ∧
      (∀ e ∈ added, e.isNew = true) ∧
      added.map EventRow.content =
        ((run opts ops).db.commitInstance now wi).resultsFor wi wi.instanceID ++
          outboxFor wi wi.instanceID) ∧
    ((∀ p, wi.state.startEvent.bind ExecutionStartedEvent.parentInstance = some p →
        p.workflowInstance.instanceId ≠ wi.instanceID) →
      ((run opts ops).db.commitInstance now wi).resultsFor wi wi.instanceID = []) ∧
    ∀ id ≠ wi.instanceID,
      (db'.rowsOf id = (run opts ops).db.rowsOf id ∧
        ∃ added, db'.queueOf id = (run opts ops).db.queueOf id ++ added) ∨
      ∃ msg ∈ messages wi, msg.starts = some id ∧
        ((run opts ops).db.instance? id).all (isPurgeable ·.runtimeStatus) = true := by
  have h := (documented_maintained opts).run ops fun _ _ _ _ => trivial
  obtain ⟨db₁, db₂, db₃, hc⟩ := completes_of_ok hok
  have hleased := h.keyed.leasedBy hc.leased
  have hold : wi.state.oldEvents = [] := (h.processed wi hwi hleased).reset hcan
  have hsome : ((run opts ops).db.instance? wi.instanceID).isSome = true := by
    obtain ⟨r, hr, -⟩ := hleased
    rw [hr]
    rfl
  obtain ⟨hhistory, htasks, hfresh, hdeliveries, added, hevents, hnew, hcontents⟩ := hc.own hcan hsome
  refine ⟨?_, htasks, hfresh, hdeliveries, ⟨added, hevents, hnew, hcontents⟩, resultsFor_of_parent,
    fun id hid => ?_⟩
  · have hnumbers := map_sequenceNumber_historyRows wi.instanceID 0 wi.state.newEvents
    rw [hold, List.length_nil] at hhistory
    rw [← hhistory, ← List.range_eq_range'] at hnumbers
    rw [historyOf_of_contiguous hnumbers, hhistory, map_event_historyRows]
  · rcases hc.other hid with ⟨_, hrows, added, hadded, -⟩ | hstarts
    · exact .inl ⟨hrows, added, hadded⟩
    · exact .inr hstarts

end System

namespace RenewalExample

def raised : HistoryEvent := { eventType := .eventRaised { name := "go" } }

def completed : HistoryEvent := { eventType := .taskCompleted { taskScheduledId := 7 } }

/-- Continue as new, and sleep in the new generation. -/
def processor : WorkflowProcessor :=
  { executor := fun k _ _ _ _ => .ok
      { actions := if k = 0 then
          [{ id := 0, actionType := .completeWorkflow { workflowStatus := .continuedAsNew } }]
        else [{ id := 0, actionType := .createTimer { fireAt := 5 } }] }
    applier := ⟨"app", ""⟩ }

/-- An event and a late resolution are queued while the turn runs. -/
def ops : List Op :=
  [.createWorkflowInstance StalledExample.start, .getWorkflowWorkItem 1 "t1",
   .addNewWorkflowEvent "a" raised, .addNewWorkflowEvent "a" completed,
   .processWorkItem "t1" processor OutboxExample.processEnv]

theorem resolution_discarded_event_kept :
    ∃ wi db', wi ∈ (System.run StalledExample.opts ops).processed ∧
      (System.run StalledExample.opts ops).db.completeWorkflowWorkItem 2 wi = .ok db' ∧
      db'.historyOf "a" = wi.state.newEvents ∧
      ((System.run StalledExample.opts ops).db.queueOf "a").map EventRow.event =
        [StalledExample.start, raised, completed] ∧
      (db'.queueOf "a").length = 2 := by
  refine ⟨_, _, List.mem_singleton.mpr rfl, rfl, ?_, by decide, by decide⟩
  exact (System.continue_as_new_frame StalledExample.opts ops (List.mem_singleton.mpr rfl) rfl rfl).1

end RenewalExample

end DurableTask.Sqlite
