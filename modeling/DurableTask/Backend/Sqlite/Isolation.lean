import DurableTask.Backend.Provenance
import DurableTask.Backend.Sqlite.History
import DurableTask.Backend.Sqlite.Queue

/-!
# Fresh starts

An instance should only see events that were queued for it since it was created. The queue has no key
into `Instances`, so an event for an id without an instance stays there and is delivered to the next
instance of that id. As long as no event is queued that way, instances are isolated.
-/

namespace DurableTask.Sqlite

open Table

namespace Db

variable {db db' : Db} {id : InstanceID}

/-- Every instance only has events that were queued since it was created. -/
structure Fresh (db : Db) : Prop where
  born : ∀ id r, db.instance? id = some r → r.born ≤ db.enqueued.length
  queued : ∀ e ∈ db.newEvents, ∀ r, db.instance? e.instanceID = some r → r.born ≤ e.uid
  history : ∀ id r, db.instance? id = some r →
    RowsIn (r.born ≤ ·) ((db.historyTable id).map HistoryRow.event)

/-- Every queued event belongs to an instance. -/
def Owned (db : Db) : Prop := ∀ e ∈ db.newEvents, (db.instance? e.instanceID).isSome = true

/-! ### Statements -/

/-- Statements that neither create an instance nor add to a history or to the queue. -/
theorem Fresh.of_shrinks (h : db.Fresh) (hborn : NoneBorn db db')
    (hhist : ∀ id, db'.historyTable id = db.historyTable id) (hlog : db'.enqueued = db.enqueued)
    (hqueue : Shrinks db db') : db'.Fresh := by
  refine ⟨fun id r' hr' => ?_, fun e he r' hr' => ?_, fun id r' hr' => ?_⟩
  · obtain ⟨r, hr, hb, -⟩ := hborn id r' hr'
    rw [hb, hlog]
    exact h.born id r hr
  · obtain ⟨e₀, he₀, hbare⟩ := hqueue.mem he
    obtain ⟨hid, -, huid, -⟩ := EventRow.eq_of_bare hbare
    obtain ⟨r, hr, hb, -⟩ := hborn _ r' hr'
    rw [hb, ← huid]
    exact h.queued e₀ he₀ r (hid ▸ hr)
  · obtain ⟨r, hr, hb, -⟩ := hborn id r' hr'
    rw [hb, hhist]
    exact h.history id r hr

theorem Fresh.insertNewEvent (h : db.Fresh) (iid : InstanceID) (e : HistoryEvent)
    (visibleTime : Option Time) (executionID : Option String) (origin : Option Origin) :
    (db.insertNewEvent iid e visibleTime executionID origin).Fresh := by
  refine ⟨fun id r hr => ?_, fun x hx r hr => ?_, h.history⟩
  · have hlen : (db.insertNewEvent iid e visibleTime executionID origin).enqueued.length =
        db.enqueued.length + 1 := List.length_append
    rw [hlen]
    exact Nat.le_succ_of_le (h.born id r hr)
  · rcases List.mem_append.mp hx with hx | hx
    · exact h.queued x hx r hr
    · rw [List.mem_singleton.mp hx] at hr ⊢
      exact h.born _ r hr

theorem Fresh.create {e : HistoryEvent} (h : db.Fresh) (hdoc : db.Documented) (howned : db.Owned)
    (hcreate : db.createWorkflowInstanceInternal e = .ok db') : db'.Fresh ∧ db'.Owned := by
  obtain ⟨r, hnone, -, -, -, -, -, -, -, hborn, rfl⟩ := createWorkflowInstanceInternal_eq hcreate
  refine ⟨⟨fun id r' hr' => ?_, fun x hx r' hr' => ?_, fun id r' hr' => ?_⟩, fun x hx => ?_⟩
  · rcases instance?_append_cases hr' with hr' | ⟨-, rfl⟩
    · exact h.born id r' hr'
    · exact hborn.le
  · rcases instance?_append_cases hr' with hr' | ⟨hold, -⟩
    · exact h.queued x hx r' hr'
    · -- There was no event in the queue for an id without an instance.
      have hsome := howned x hx
      rw [hold] at hsome
      cases hsome
  · rcases instance?_append_cases hr' with hr' | ⟨hold, -⟩
    · exact h.history id r' hr'
    · have hempty : ({ db with instances := db.instances ++ [r] } : Db).historyTable id = [] :=
        hdoc.owned id hold
      rw [hempty]
      exact fun e he => absurd he List.not_mem_nil
  · have hsome := howned x hx
    rw [instance?_append, Option.isSome_or, hsome]
    rfl

theorem Fresh.deleteInstance (h : db.Fresh) (howned : db.Owned) (id' : InstanceID) :
    (db.deleteInstance id').Fresh ∧ (db.deleteInstance id').Owned := by
  have hinst := instance?_deleteInstance db id'
  have hborn : NoneBorn db (db.deleteInstance id') := by
    intro id r hr
    rw [hinst] at hr
    split at hr
    · cases hr
    · exact ⟨r, hr, rfl, rfl⟩
  refine ⟨⟨fun id r hr => ?_, fun x hx r hr => ?_, fun id r hr => ?_⟩, fun x hx => ?_⟩
  · obtain ⟨r₀, hr₀, hb, -⟩ := hborn id r hr
    rw [hb]
    exact h.born id r₀ hr₀
  · obtain ⟨r₀, hr₀, hb, -⟩ := hborn _ r hr
    rw [hb]
    exact h.queued x (List.mem_of_mem_filter hx) r₀ hr₀
  · obtain ⟨r₀, hr₀, hb, -⟩ := hborn id r hr
    rw [hb]
    intro e he
    obtain ⟨row, hrow, rfl⟩ := List.mem_map.mp he
    obtain ⟨hrow, hid⟩ := List.mem_filter.mp hrow
    exact h.history id r₀ hr₀ _
      (List.mem_map_of_mem (List.mem_filter.mpr ⟨List.mem_of_mem_filter hrow, hid⟩))
  · obtain ⟨hx, hne⟩ := List.mem_filter.mp hx
    rw [hinst, if_neg (by simpa using hne)]
    exact howned x hx

theorem Fresh.startInstance {msg : WorkflowRuntimeStateMessage} (h : db.Fresh)
    (hdoc : db.Documented) (howned : db.Owned) (hstart : db.startInstance msg = .ok db') :
    db'.Fresh ∧ db'.Owned := by
  have hfresh := startInstance_invariant
    (I := fun x => (x.Fresh ∧ x.Owned) ∧ x.Documented) hstart ⟨⟨h, howned⟩, hdoc⟩
    (fun x id hx => ⟨hx.1.1.deleteInstance hx.1.2 id, hx.2.delete id⟩)
    fun x y hx hcreate => ⟨hx.1.1.create hx.2 hx.1.2 hcreate, hx.2.create hcreate⟩
  exact hfresh.1

theorem Owned.insertNewEvent (h : db.Owned) {iid : InstanceID} (hiid : (db.instance? iid).isSome = true)
    (e : HistoryEvent) (visibleTime : Option Time) (executionID : Option String)
    (origin : Option Origin) : (db.insertNewEvent iid e visibleTime executionID origin).Owned := by
  intro x hx
  rcases List.mem_append.mp hx with hx | hx
  · exact h x hx
  · rw [List.mem_singleton.mp hx]
    exact hiid

theorem Owned.of_shrinks (h : db.Owned) (hinst : ∀ id, (db'.instance? id).isSome = (db.instance? id).isSome)
    (hqueue : Shrinks db db') : db'.Owned := by
  intro e he
  obtain ⟨e₀, he₀, hbare⟩ := hqueue.mem he
  obtain ⟨hid, -⟩ := EventRow.eq_of_bare hbare
  rw [hinst, ← hid]
  exact h e₀ he₀

/-! ### Work items -/

/-- The events of a work item were queued since its instance was created. -/
def Delivered (db : Db) (wi : WorkflowWorkItem) : Prop :=
  ∀ r, db.instance? wi.instanceID = some r → RowsIn (r.born ≤ ·) wi.newEvents

/-- And so were those a processed work item is going to commit. -/
structure Committing (db : Db) (wi : WorkflowWorkItem) : Prop where
  processed : Processed db wi
  delivered : Delivered db wi
  state : ∀ r, db.instance? wi.instanceID = some r → RowsIn (r.born ≤ ·) wi.state.allEvents

theorem Fresh.turn {now : Time} {wi : WorkflowWorkItem} (h : db.Fresh) (hdoc : db.Documented)
    (held : Committing db wi)
    (hturn : ((db.commitInstance now wi).resetGeneration wi).insertHistory wi.instanceID
      wi.state.oldEvents.length wi.state.newEvents = .ok db') : db'.Fresh := by
  have hborn := noneBorn_turn hturn
  obtain ⟨hown, hother⟩ := historyTable_turn hturn
  obtain ⟨-, hevents⟩ := held.processed.recorded (hdoc.recorded wi.instanceID)
  have hqueue : Shrinks db db' := by
    obtain ⟨-, rfl⟩ := insertHistory_eq hturn
    exact shrinks_resetGeneration (db.commitInstance now wi) wi
  have hlog : db'.enqueued = db.enqueued := by
    obtain ⟨-, rfl⟩ := insertHistory_eq hturn
    unfold resetGeneration
    split <;> rfl
  refine ⟨fun id r hr => ?_, fun e he r hr => ?_, fun id r hr => ?_⟩
  · obtain ⟨r₀, hr₀, hb, -⟩ := hborn id r hr
    rw [hb, hlog]
    exact h.born id r₀ hr₀
  · obtain ⟨e₀, he₀, hbare⟩ := hqueue.mem he
    obtain ⟨hid, -, huid, -⟩ := EventRow.eq_of_bare hbare
    obtain ⟨r₀, hr₀, hb, -⟩ := hborn _ r hr
    rw [hb, ← huid]
    exact h.queued e₀ he₀ r₀ (hid ▸ hr₀)
  · obtain ⟨r₀, hr₀, hb, -⟩ := hborn id r hr
    rw [hb]
    by_cases hid : id = wi.instanceID
    · subst hid
      rw [hown, hevents]
      exact held.state r₀ hr₀
    · rw [hother id hid]
      exact h.history id r₀ hr₀

theorem isSome_instance?_turn {now : Time} {wi : WorkflowWorkItem} {n : Nat}
    {events : List HistoryEvent}
    (h : ((db.commitInstance now wi).resetGeneration wi).insertHistory wi.instanceID n events =
      .ok db') (id : InstanceID) : (db'.instance? id).isSome = (db.instance? id).isSome := by
  rw [instance?_turn h, Option.isSome_map]

theorem Fresh.enqueueOutbox (h : db.Fresh) (wi : WorkflowWorkItem) (origin : Origin) :
    (db.enqueueOutbox wi origin).Fresh := by
  unfold Db.enqueueOutbox
  refine List.foldlRecOn (motive := Fresh) _ _ ?_ fun db h msg _ => h.insertNewEvent _ _ _ _ _
  exact List.foldlRecOn (motive := Fresh) _ _ h fun db h e _ => h.insertNewEvent _ _ _ _ _

/-- A committed work item. What it queues may be for ids without an instance. -/
theorem Fresh.complete {now : Time} {wi : WorkflowWorkItem} (h : db.Fresh) (hdoc : db.Documented)
    (howned : db.Owned) (hleased : db.leasedBy wi.instanceID wi.lockedBy) (held : Committing db wi)
    (hcomplete : db.completeWorkflowWorkItem now wi = .ok db') : db'.Fresh := by
  obtain ⟨db₁, db₂, db₃, hc⟩ := completes_of_ok hcomplete
  have hturn := hc.inserted
  have hstart : db₁.Fresh ∧ db₁.Owned ∧ db₁.Documented := by
    refine ⟨h.turn hdoc held hturn, howned.of_shrinks (isSome_instance?_turn hturn) ?_,
      hdoc.turn hleased held.processed hturn⟩
    obtain ⟨-, rfl⟩ := insertHistory_eq hturn
    exact shrinks_resetGeneration (db.commitInstance now wi) wi
  have htasks : (db₁.insertTasks wi (db.committing wi)).Fresh ∧
      (db₁.insertTasks wi (db.committing wi)).Owned ∧
      (db₁.insertTasks wi (db.committing wi)).Documented := by
    obtain ⟨newTasks, heq⟩ := insertTasks_frame db₁ wi (db.committing wi)
    rw [heq]
    obtain ⟨hf, ho, hd⟩ := hstart
    exact ⟨hf.of_shrinks (.of_eq rfl) (fun _ => rfl) rfl (.refl db₁),
      ho.of_shrinks (fun _ => rfl) (.refl db₁), hd.ledger (.queues rfl rfl)⟩
  have hresults : db₂.Fresh ∧ db₂.Owned ∧ db₂.Documented := by
    refine Except.foldlM_invariant (I := fun db : Db => db.Fresh ∧ db.Owned ∧ db.Documented)
      hc.results htasks fun x msg y _ hx hstep => ?_
    obtain ⟨_, -, ⟨target, htarget, -, rfl⟩ | ⟨-, rfl⟩⟩ := enqueueChildResult_eq hstep
    · obtain ⟨hf, ho, hd⟩ := hx
      refine ⟨hf.insertNewEvent _ _ _ _ _, ho.insertNewEvent ?_ _ _ _ _,
        hd.ledger (.queues rfl rfl)⟩
      rw [htarget]
      rfl
    · exact hx
  have hstarted : db₃.Fresh ∧ db₃.Owned ∧ db₃.Documented := by
    refine Except.foldlM_invariant (I := fun db : Db => db.Fresh ∧ db.Owned ∧ db.Documented)
      hc.started hresults fun x msg y _ hx hstep => ?_
    obtain ⟨hf, ho, hd⟩ := hx
    obtain ⟨hf', ho'⟩ := hf.startInstance hd ho hstep
    exact ⟨hf', ho', hd.ledgers (ledgers_startInstance hstep)⟩
  have hout := hstarted.1.enqueueOutbox wi (db.committing wi)
  obtain ⟨-, rfl⟩ := acknowledge_eq hc.acknowledged
  exact hout.of_shrinks (.of_eq rfl) (fun _ => rfl) rfl (.of_sublist List.filter_sublist)

theorem Fresh.transaction {opts : SqliteOptions} {op : Op} (h : db.Fresh) (hdoc : db.Documented)
    (howned : db.Owned) (htx : Transaction opts Committing db op db') : db'.Fresh := by
  cases htx with
  | idle => exact h
  | createWorkflowInstance hcreate =>
    unfold createWorkflowInstance at hcreate
    split at hcreate
    · cases hcreate
    · obtain ⟨created, hcreated, heq⟩ := Except.bind_eq_ok.mp hcreate
      cases heq
      exact (h.create hdoc howned hcreated).1.insertNewEvent _ _ _ _ _
  | addNewWorkflowEvent hadd =>
    obtain ⟨-, rfl⟩ := addNewWorkflowEvent_eq hadd
    exact h.insertNewEvent _ _ _ _ _
  | addNewWorkflowEventWithExternalDelivery hadd =>
    obtain ⟨-, ⟨-, rfl⟩ | ⟨-, rfl⟩⟩ := addNewWorkflowEventWithExternalDelivery_eq hadd
    · exact h
    · refine Fresh.insertNewEvent ?_ _ _ _ _ _
      exact h.of_shrinks (.of_eq rfl) (fun _ => rfl) rfl (.of_eq rfl)
  | purgeWorkflowState hpurge =>
    obtain ⟨rfl, -⟩ := cleanup_eq hpurge
    exact (h.deleteInstance howned _).1
  | getWorkflowWorkItem hget =>
    refine h.of_shrinks (noneBorn_getWorkflowWorkItem hget) ?_ ?_ (shrinks_getWorkflowWorkItem hget)
    · cases acquires_of_getWorkflowWorkItem hget <;> exact fun _ => rfl
    · cases acquires_of_getWorkflowWorkItem hget <;> rfl
  | completeWorkflowWorkItem leased held hcomplete => exact h.complete hdoc howned leased held hcomplete
  | abandonWorkflowWorkItem habandon =>
    refine h.of_shrinks (noneBorn_abandon habandon) ?_ ?_ (shrinks_abandon habandon)
    · obtain ⟨-, -, _, rfl⟩ := abandon_eq habandon
      exact fun _ => rfl
    · obtain ⟨-, -, _, rfl⟩ := abandon_eq habandon
      rfl
  | getActivityWorkItem now t =>
    obtain ⟨newTasks, heq, -⟩ := getActivityWorkItem_eq db opts now t
    rw [heq]
    exact h.of_shrinks (.of_eq rfl) (fun _ => rfl) rfl (.refl db)
  | completeActivityWorkItem hcomplete =>
    obtain ⟨task, -, rfl⟩ := completeActivityWorkItem_eq hcomplete
    exact (h.insertNewEvent _ _ _ _ _).of_shrinks (.of_eq rfl) (fun _ => rfl) rfl (.of_eq rfl)
  | abandonActivityWorkItem habandon =>
    obtain ⟨newTasks, rfl, -⟩ := abandonActivityWorkItem_eq habandon
    exact h.of_shrinks (.of_eq rfl) (fun _ => rfl) rfl (.refl db)

end Db

/-! ### Every run -/

namespace System

variable (opts : SqliteOptions)

/-- Calls that leave no event in the queue for an id without an instance. -/
def Isolating (s : System) (op : Op) : Prop :=
  (∀ e ∈ (s.exec opts op).db.newEvents, ((s.exec opts op).db.instance? e.instanceID).isSome = true) ∧
    ∀ t w env, op = .processWorkItem t w env → w.Executors WorkflowExecutor.CarriesGiven

theorem isolated_maintained :
    Maintained opts (Isolating opts) (fun db => db.Documented ∧ db.Fresh ∧ db.Owned) Db.Delivered
      Db.Committing where
  init := by
    refine ⟨(documented_maintained opts).init, ⟨?_, ?_, ?_⟩, ?_⟩
    · exact fun _ _ h => by cases h
    · exact fun _ h => absurd h List.not_mem_nil
    · exact fun _ _ h => by cases h
    · exact fun _ h => absurd h List.not_mem_nil
  transaction := by
    rintro s op ⟨howned', -⟩ - ⟨hdoc, hfresh, howned⟩ htx
    have hledgers := htx.ledgers.mono fun _ _ h => h.processed
    exact ⟨hdoc.ledgers hledgers, hfresh.transaction hdoc howned htx, howned'⟩
  acquire := by
    rintro s now t db' wi - ⟨-, hfresh, -⟩ hget r hr e he u hu
    obtain ⟨e₀, he₀, hid, rfl⟩ := Db.delivered_of_acquired hget he
    cases hu
    obtain ⟨r₀, hr₀, hb, -⟩ := Db.noneBorn_getWorkflowWorkItem hget _ r hr
    rw [hb]
    exact hfresh.queued e₀ he₀ r₀ (hid.symm ▸ hr₀)
  process := by
    rintro s w env wi wi' ⟨-, hgiven⟩ ⟨hdoc, hfresh, -⟩ hleased hdelivered hproc
    have hprocessed := (documented_maintained opts).process (s := s) (A := fun _ _ => True) trivial hdoc
      hleased trivial hproc
    obtain ⟨hid, -, hnew⟩ := processWorkItem_lease hproc
    refine ⟨hprocessed, ?_, ?_⟩
    · unfold Db.Delivered
      rw [hid, hnew]
      exact hdelivered
    · intro r hr
      rw [hid] at hr
      refine rowsIn_processWorkItem (hgiven _ w env rfl) ?_ ?_ hproc
      · refine WorkflowRuntimeState.rowsIn_new _ _ ?_
        rw [(hdoc.recorded wi.instanceID).historyOf]
        exact hfresh.history _ r hr
      · exact hdelivered r hr
  acquired := by
    intro db db' wi hkeeps hl h r hr
    rw [(hkeeps wi.instanceID hl).1] at hr
    exact h r hr
  processed := by
    intro db db' wi hkeeps hl h
    have hrow := (hkeeps wi.instanceID hl).1
    refine ⟨(documented_maintained opts).processed hkeeps hl h.processed, fun r hr => ?_,
      fun r hr => ?_⟩
    · rw [hrow] at hr
      exact h.delivered r hr
    · rw [hrow] at hr
      exact h.state r hr

/-- In a run that never queues an event for an id without an instance, an instance only gets events that
were queued since it was created: those in its queue, those of its work items, and those in its
history. -/
theorem fresh_start_isolated (ops : List Op) (hops : Along opts (Isolating opts) ops)
    (id : InstanceID) (r : InstanceRow) (hr : (run opts ops).db.instance? id = some r) :
    (∀ e ∈ (run opts ops).db.newEvents, e.instanceID = id → r.born ≤ e.uid) ∧
      (∀ wi ∈ (run opts ops).acquired ++ (run opts ops).processed, wi.instanceID = id →
        (run opts ops).db.leasedBy id wi.lockedBy → RowsIn (r.born ≤ ·) wi.newEvents) ∧
      RowsIn (r.born ≤ ·) ((run opts ops).db.historyOf id) := by
  have h := (isolated_maintained opts).run ops hops
  obtain ⟨hdoc, hfresh, -⟩ := h.store
  refine ⟨?_, ?_, ?_⟩
  · rintro e he rfl
    exact hfresh.queued e he r hr
  · rintro wi hwi rfl hleased
    rcases List.mem_append.mp hwi with hwi | hwi
    · exact h.acquired wi hwi hleased r hr
    · exact (h.processed wi hwi hleased).delivered r hr
  · rw [(hdoc.recorded id).historyOf]
    exact hfresh.history id r hr

end System

namespace IsolationExample

open StalledExample (opts start)

def raised : HistoryEvent := { eventType := .eventRaised { name := "go" } }

/-- A turn of a workflow that waits. -/
def turn : List Op :=
  [.getWorkflowWorkItem 1 "t1",
   .processWorkItem "t1" (TerminationExample.processor {}) OutboxExample.processEnv,
   .completeWorkflowWorkItem "t1" 2]

/-- An event raised before the instance exists (row 0) is delivered to it, although it was created
later. -/
theorem raised_before_creation_delivered :
    let db := (System.run opts
      (.addNewWorkflowEvent "a" raised :: .createWorkflowInstance start :: turn)).db
    (db.instance? "a").map InstanceRow.born = some 1 ∧
      (db.historyOf "a").map (fun e => (e.eventType, e.row)) =
        [(.workflowStarted none, none), (raised.eventType, some 0), (start.eventType, some 1)] := by
  decide

theorem waiting_carriesGiven :
    (TerminationExample.processor {}).Executors WorkflowExecutor.CarriesGiven := by
  refine ⟨?_, fun x hx => by cases hx⟩
  intro k id oldEvents newEvents incomingHistory response h action haction
  cases h
  cases haction

/-- An event raised afterwards. -/
theorem raised_after_creation_isolated :
    let ops := .createWorkflowInstance start :: .addNewWorkflowEvent "a" raised :: turn
    ∃ r, (System.run opts ops).db.instance? "a" = some r ∧
      RowsIn (r.born ≤ ·) ((System.run opts ops).db.historyOf "a") := by
  refine ⟨_, rfl, (System.fresh_start_isolated opts _ ?_ "a" _ rfl).2.2⟩
  refine .concat [_, _, _, _] (.concat [_, _, _] (.concat [_, _] (.concat [_] (.concat [] .nil ?_)
    ?_) ?_) ?_) ?_
  · exact ⟨by decide, nofun⟩
  · exact ⟨by decide, nofun⟩
  · exact ⟨by decide, nofun⟩
  · refine ⟨by decide, ?_⟩
    rintro t w env ⟨⟩
    exact waiting_carriesGiven
  · exact ⟨by decide, nofun⟩

end IsolationExample

end DurableTask.Sqlite
