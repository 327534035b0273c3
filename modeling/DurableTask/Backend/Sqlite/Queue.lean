import DurableTask.Backend.Sqlite.Invariant

/-!
# The queue

What acquiring, abandoning and completing a work item do to `NewEvents`: apart from their locks, rows
are only removed.
-/

namespace DurableTask.Sqlite

open Table

/-- A row of the queue without its lock. -/
def EventRow.bare (e : EventRow) : EventRow :=
  { e with lockedBy := none, visibleTime := none, dequeueCount := 0 }

theorem EventRow.eq_of_bare {e e' : EventRow} (h : e.bare = e'.bare) :
    e.instanceID = e'.instanceID ∧ e.event = e'.event ∧ e.uid = e'.uid ∧
      e.executionID = e'.executionID ∧ e.origin = e'.origin := by
  cases e
  cases e'
  injection h with hseq hid hexec hvis hcount hlock hevent huid horigin
  exact ⟨hid, hevent, huid, hexec, horigin⟩

namespace Db

variable {db db' : Db} {id : InstanceID}

/-- Rows of the queue are only removed, locked or unlocked. -/
def Shrinks (db db' : Db) : Prop :=
  (db'.newEvents.map EventRow.bare).Sublist (db.newEvents.map EventRow.bare)

theorem Shrinks.refl (db : Db) : Shrinks db db := List.Sublist.refl _

theorem Shrinks.of_eq (h : db'.newEvents = db.newEvents) : Shrinks db db' := by
  unfold Shrinks
  rw [h]

theorem Shrinks.of_sublist (h : db'.newEvents.Sublist db.newEvents) : Shrinks db db' := h.map _

/-- Where a row was before. -/
theorem Shrinks.mem (h : Shrinks db db') {e : EventRow} (he : e ∈ db'.newEvents) :
    ∃ e₀ ∈ db.newEvents, e₀.bare = e.bare :=
  List.mem_map.mp (List.Sublist.mem (List.mem_map_of_mem he) h)

theorem shrinks_lockBatch (db : Db) (row : InstanceRow) (now : Time) (t : String)
    (instances : List InstanceRow) :
    Shrinks db { db with newEvents := db.lockBatch row now t, instances := instances } := by
  unfold Shrinks lockBatch
  have hlocked : (updateFirst (EventRow.isDue row.instanceID now) (EventRow.lock t) maxBatch
      db.newEvents).map EventRow.bare = db.newEvents.map EventRow.bare :=
    map_updateFirst (f := EventRow.lock t) (fun _ => rfl) maxBatch
  rw [← hlocked]
  exact List.filter_sublist.map _

/-- Acquiring a work item. -/
theorem shrinks_getWorkflowWorkItem {opts : SqliteOptions} {now : Time} {t : String}
    {wi : Option WorkflowWorkItem} (h : db.getWorkflowWorkItem opts now t = .ok (db', wi)) :
    Shrinks db db' := by
  cases acquires_of_getWorkflowWorkItem h with
  | idle => exact .refl db
  | stale => exact shrinks_lockBatch ..
  | lease => exact shrinks_lockBatch ..

theorem shrinks_abandon {now : Time} {wi : WorkflowWorkItem}
    (h : db.abandonWorkflowWorkItem now wi = .ok db') : Shrinks db db' := by
  obtain ⟨-, -, visibleTime, rfl⟩ := abandon_eq h
  have hunlocked : (update (EventRow.isInbound wi) (EventRow.unlock visibleTime) db.newEvents).map
      EventRow.bare = db.newEvents.map EventRow.bare := map_update fun _ => rfl
  unfold Shrinks
  rw [hunlocked]

theorem shrinks_resetGeneration (db : Db) (wi : WorkflowWorkItem) :
    Shrinks db (db.resetGeneration wi) := by
  unfold resetGeneration
  split
  · exact .of_sublist List.filter_sublist
  · exact .refl db

/-- The rows of a batch are rows of the queue. -/
theorem mem_batch {now : Time} {t : String} {e : EventRow} (h : e ∈ db.batch id now t) :
    ∃ e₀ ∈ db.newEvents, EventRow.isDue id now e₀ = true ∧ e = e₀.lock t := by
  unfold batch at h
  obtain ⟨e₀, he₀, rfl⟩ := List.mem_map.mp h
  obtain ⟨hmem, hdue⟩ := List.mem_filter.mp (List.mem_of_mem_take he₀)
  exact ⟨e₀, hmem, hdue, rfl⟩

/-- The events of an acquired work item were queued for its instance. -/
theorem delivered_of_acquired {opts : SqliteOptions} {now : Time} {t : String}
    {wi : WorkflowWorkItem} (h : db.getWorkflowWorkItem opts now t = .ok (db', some wi))
    {e : HistoryEvent} (he : e ∈ wi.newEvents) :
    ∃ e₀ ∈ db.newEvents, e₀.instanceID = wi.instanceID ∧ e = e₀.delivered := by
  cases acquires_of_getWorkflowWorkItem h with
  | lease next instanceID lockedBy newEvents =>
    rw [newEvents] at he
    obtain ⟨e₁, he₁, rfl⟩ := List.mem_map.mp he
    obtain ⟨e₀, hmem, hdue, rfl⟩ := mem_batch (List.mem_of_mem_filter he₁)
    refine ⟨e₀, hmem, ?_, rfl⟩
    rw [instanceID]
    exact of_decide_eq_true (Bool.and_eq_true_iff.mp hdue).1

/-! ### Instances -/

/-- No instance is created. -/
def NoneBorn (db db' : Db) : Prop :=
  ∀ id r', db'.instance? id = some r' → ∃ r, db.instance? id = some r ∧ r'.born = r.born ∧
    r'.creation = r.creation

theorem NoneBorn.of_eq (h : db'.instances = db.instances) : NoneBorn db db' := by
  intro id r' hr'
  unfold instance? at hr' ⊢
  rw [h] at hr'
  exact ⟨r', hr', rfl, rfl⟩

theorem noneBorn_getWorkflowWorkItem {opts : SqliteOptions} {now : Time} {t : String}
    {wi : Option WorkflowWorkItem} (h : db.getWorkflowWorkItem opts now t = .ok (db', wi)) :
    NoneBorn db db' := by
  have hset (row : InstanceRow) (lockedBy : Option String) (lockExpiration : Option Time)
      (newEvents : List EventRow) : NoneBorn db { db with
        newEvents := newEvents
        instances := db.setLease row.instanceID lockedBy lockExpiration } := by
    intro id r' hr'
    rw [instance?_setLease] at hr'
    obtain ⟨r, hr, rfl⟩ := Option.map_eq_some_iff.mp hr'
    refine ⟨r, hr, ?_, ?_⟩ <;> split <;> rfl
  cases acquires_of_getWorkflowWorkItem h with
  | idle => exact .of_eq rfl
  | stale => exact hset _ _ _ _
  | lease => exact hset _ _ _ _

theorem noneBorn_abandon {now : Time} {wi : WorkflowWorkItem}
    (h : db.abandonWorkflowWorkItem now wi = .ok db') : NoneBorn db db' := by
  obtain ⟨-, -, visibleTime, rfl⟩ := abandon_eq h
  intro id r' hr'
  have hinst := instance?_update_leased db wi (InstanceRow.setLock none none) (fun _ => rfl) id
  obtain ⟨r, hr, rfl⟩ := Option.map_eq_some_iff.mp (hinst.symm.trans hr')
  refine ⟨r, hr, ?_, ?_⟩ <;> split <;> rfl

theorem noneBorn_turn {now : Time} {wi : WorkflowWorkItem} {n : Nat} {events : List HistoryEvent}
    (h : ((db.commitInstance now wi).resetGeneration wi).insertHistory wi.instanceID n events =
      .ok db') : NoneBorn db db' := by
  intro id r' hr'
  rw [instance?_turn h] at hr'
  obtain ⟨r, hr, rfl⟩ := Option.map_eq_some_iff.mp hr'
  obtain ⟨-, -, hborn, hcreation⟩ := InstanceRow.commit_frame now wi.state r
  refine ⟨r, hr, ?_, ?_⟩
  · split
    · exact hborn
    · rfl
  · split
    · exact hcreation
    · rfl

/-! ### The log -/

/-- The row that is inserted into the queue is logged. -/
theorem insertNewEvent_row (db : Db) (iid : InstanceID) (e : HistoryEvent)
    (visibleTime : Option Time) (executionID : Option String) (origin : Option Origin) :
    ∃ row : EventRow,
      (db.insertNewEvent iid e visibleTime executionID origin).enqueued = db.enqueued ++ [row] ∧
      row.instanceID = iid ∧ row.event = e ∧ row.executionID = executionID ∧ row.origin = origin :=
  ⟨_, rfl, rfl, rfl, rfl, rfl⟩

theorem startInstance_enqueued {msg : WorkflowRuntimeStateMessage}
    (h : db.startInstance msg = .ok db') :
    db'.enqueued = db.enqueued ∧ db'.newTasks.Sublist db.newTasks ∧
      db'.newEvents.Sublist db.newEvents := by
  refine startInstance_invariant (I := fun x => x.enqueued = db.enqueued ∧
    x.newTasks.Sublist db.newTasks ∧ x.newEvents.Sublist db.newEvents) h ⟨rfl, .refl _, .refl _⟩ ?_ ?_
  · rintro x id ⟨hlog, htasks, hevents⟩
    exact ⟨hlog, List.filter_sublist.trans htasks, List.filter_sublist.trans hevents⟩
  · rintro x y hx hcreate
    obtain ⟨r, -, -, -, -, -, -, -, -, -, rfl⟩ := createWorkflowInstanceInternal_eq hcreate
    exact hx

/-- What a work item sends besides child results. -/
theorem enqueueOutbox_enqueued (db : Db) {wi : WorkflowWorkItem} (origin : Origin)
    (htimers : ∀ e ∈ wi.state.pendingTimers, e.isChildResult = false) :
    ∃ rows, (db.enqueueOutbox wi origin).enqueued = db.enqueued ++ rows ∧
      ∀ e ∈ rows, e.event.isChildResult = false ∧ e.origin = some origin := by
  let I (db' : Db) : Prop := ∃ rows, db'.enqueued = db.enqueued ++ rows ∧
    ∀ e ∈ rows, e.event.isChildResult = false ∧ e.origin = some origin
  have hinsert {db' : Db} {iid : InstanceID} {e : HistoryEvent} {visibleTime : Option Time}
      (h : I db') (he : e.isChildResult = false) :
      I (db'.insertNewEvent iid e visibleTime none (some origin)) := by
    obtain ⟨rows, hlog, hrows⟩ := h
    obtain ⟨row, hlog', -, hevent, -, horigin⟩ :=
      insertNewEvent_row db' iid e visibleTime none (some origin)
    refine ⟨rows ++ [row], ?_, fun x hx => ?_⟩
    · rw [hlog', hlog, List.append_assoc]
    · rcases List.mem_append.mp hx with hx | hx
      · exact hrows x hx
      · rw [List.mem_singleton.mp hx, hevent]
        exact ⟨he, horigin⟩
  have hinit : I db := ⟨[], (List.append_nil _).symm, fun e he => absurd he List.not_mem_nil⟩
  show I (db.enqueueOutbox wi origin)
  unfold enqueueOutbox
  refine List.foldlRecOn (motive := I) _ _ ?_ fun db' h msg hmsg => hinsert h ?_
  · exact List.foldlRecOn (motive := I) _ _ hinit fun db' h e he => hinsert h (htimers e he)
  · have hmsg := (List.mem_filter.mp hmsg).2
    simpa [WorkflowRuntimeStateMessage.isChildResult] using hmsg

/-! ### The rows of the queue -/

/-- What the statements of a transaction do to `NewEvents`. -/
inductive Queuing (db : Db) : Db → Prop
  | shrinks {db' : Db} (h : Shrinks db db') : Queuing db db'
  | insert {iid : InstanceID} {e : HistoryEvent} {visibleTime : Option Time}
    {executionID : Option String} {origin : Option Origin} {db' : Db}
    (h : db'.newEvents = (db.insertNewEvent iid e visibleTime executionID origin).newEvents) :
    Queuing db db'

/-- Statements on `NewEvents`, one after the other. -/
abbrev Queuings : Db → Db → Prop := Relation.ReflTransGen Queuing

/-- The same, with the log: a row is inserted into both, and the log never shrinks. -/
inductive Logging (db : Db) : Db → Prop
  | shrinks {db' : Db} (h : Shrinks db db') (log : db'.enqueued = db.enqueued) : Logging db db'
  | insert {iid : InstanceID} {e : HistoryEvent} {visibleTime : Option Time}
    {executionID : Option String} {origin : Option Origin} {db' : Db}
    (h : db'.newEvents = (db.insertNewEvent iid e visibleTime executionID origin).newEvents)
    (log : db'.enqueued = (db.insertNewEvent iid e visibleTime executionID origin).enqueued) :
    Logging db db'

abbrev Loggings : Db → Db → Prop := Relation.ReflTransGen Logging

theorem Loggings.of_eq (h : db'.newEvents = db.newEvents) (log : db'.enqueued = db.enqueued) :
    Loggings db db' :=
  .single (.shrinks (.of_eq h) log)

theorem loggings_startInstance {msg : WorkflowRuntimeStateMessage}
    (h : db.startInstance msg = .ok db') : Loggings db db' := by
  obtain ⟨hlog, -, hsub⟩ := startInstance_enqueued h
  exact .single (.shrinks (.of_sublist hsub) hlog)

theorem loggings_enqueueOutbox (db : Db) (wi : WorkflowWorkItem) (origin : Origin) :
    Loggings db (db.enqueueOutbox wi origin) := by
  unfold enqueueOutbox
  refine List.foldlRecOn (motive := Loggings db) _ _ ?_ fun x hx msg _ => hx.tail (.insert rfl rfl)
  exact List.foldlRecOn (motive := Loggings db) _ _ .refl fun x hx e _ => hx.tail (.insert rfl rfl)

/-- A commit up to its last statement. -/
theorem Completes.loggings {now : Time} {wi : WorkflowWorkItem} {db₁ db₂ db₃ : Db}
    (hc : Completes db now wi db' db₁ db₂ db₃) :
    Loggings db (db₃.enqueueOutbox wi (db.committing wi)) := by
  have hturn : Loggings db db₁ := by
    obtain ⟨-, rfl⟩ := insertHistory_eq hc.inserted
    refine .single (.shrinks (shrinks_resetGeneration (db.commitInstance now wi) wi) ?_)
    unfold resetGeneration
    split <;> rfl
  have htasks : Loggings db (db₁.insertTasks wi (db.committing wi)) := by
    obtain ⟨newTasks, heq⟩ := insertTasks_frame db₁ wi (db.committing wi)
    rw [heq]
    exact hturn.trans (Loggings.of_eq rfl rfl)
  have hresults : Loggings db db₂ := by
    refine Except.foldlM_invariant (I := Loggings db) hc.results htasks fun x msg y _ hx hstep => ?_
    obtain ⟨_, -, ⟨target, -, -, rfl⟩ | ⟨-, rfl⟩⟩ := enqueueChildResult_eq hstep
    · exact hx.tail (.insert rfl rfl)
    · exact hx
  have hstarted : Loggings db db₃ :=
    Except.foldlM_invariant (I := Loggings db) hc.started hresults fun _ _ _ _ hx hstep =>
      hx.trans (loggings_startInstance hstep)
  exact hstarted.trans (loggings_enqueueOutbox db₃ wi (db.committing wi))

theorem Transaction.loggings {opts : SqliteOptions} {P : Db → WorkflowWorkItem → Prop} {op : Op}
    (h : Transaction opts P db op db') : Loggings db db' := by
  cases h with
  | idle => exact .refl
  | createWorkflowInstance h =>
    unfold Db.createWorkflowInstance at h
    split at h
    · cases h
    · obtain ⟨created, hcreate, heq⟩ := Except.bind_eq_ok.mp h
      cases heq
      obtain ⟨r, -, -, -, -, -, -, -, -, -, rfl⟩ := createWorkflowInstanceInternal_eq hcreate
      exact .single (.insert rfl rfl)
  | addNewWorkflowEvent h =>
    obtain ⟨-, rfl⟩ := addNewWorkflowEvent_eq h
    exact .single (.insert rfl rfl)
  | addNewWorkflowEventWithExternalDelivery h =>
    obtain ⟨-, ⟨-, rfl⟩ | ⟨-, rfl⟩⟩ := addNewWorkflowEventWithExternalDelivery_eq h
    · exact .refl
    · exact .single (.insert rfl rfl)
  | purgeWorkflowState h =>
    obtain ⟨rfl, -⟩ := cleanup_eq h
    exact .single (.shrinks (.of_sublist List.filter_sublist) rfl)
  | getWorkflowWorkItem h =>
    have hshrinks := shrinks_getWorkflowWorkItem h
    cases acquires_of_getWorkflowWorkItem h <;> exact .single (.shrinks hshrinks rfl)
  | completeWorkflowWorkItem _ _ h =>
    obtain ⟨db₁, db₂, db₃, hc⟩ := completes_of_ok h
    have hout := hc.loggings
    obtain ⟨-, rfl⟩ := acknowledge_eq hc.acknowledged
    exact hout.tail (.shrinks (.of_sublist List.filter_sublist) rfl)
  | abandonWorkflowWorkItem h =>
    have hshrinks := shrinks_abandon h
    obtain ⟨-, -, visibleTime, rfl⟩ := abandon_eq h
    exact .single (.shrinks hshrinks rfl)
  | getActivityWorkItem now t =>
    obtain ⟨newTasks, heq, -⟩ := getActivityWorkItem_eq db opts now t
    rw [heq]
    exact .of_eq rfl rfl
  | completeActivityWorkItem h =>
    obtain ⟨task, -, rfl⟩ := completeActivityWorkItem_eq h
    exact .single (.insert rfl rfl)
  | abandonActivityWorkItem h =>
    obtain ⟨newTasks, rfl, -⟩ := abandonActivityWorkItem_eq h
    exact .of_eq rfl rfl

theorem Transaction.queuings {opts : SqliteOptions} {P : Db → WorkflowWorkItem → Prop} {op : Op}
    (h : Transaction opts P db op db') : Queuings db db' := by
  refine Relation.ReflTransGen.mono (fun x y hstep => ?_) _ _ h.loggings
  cases hstep with
  | shrinks h => exact .shrinks h
  | insert h => exact .insert h

/-- `SequenceNumber` is a key of `NewEvents`. -/
def Sequenced (db : Db) : Prop := (db.newEvents.map EventRow.sequenceNumber).Nodup

theorem le_foldl_max (keys : List Nat) (n : Nat) :
    n ≤ keys.foldl max n ∧ ∀ k ∈ keys, k ≤ keys.foldl max n := by
  induction keys generalizing n with
  | nil => exact ⟨le_refl n, fun _ h => absurd h List.not_mem_nil⟩
  | cons x keys ih =>
    obtain ⟨hle, hkeys⟩ := ih (max n x)
    refine ⟨(le_max_left n x).trans hle, fun k hk => ?_⟩
    rcases List.mem_cons.mp hk with rfl | hk
    · exact (le_max_right n k).trans hle
    · exact hkeys k hk

theorem lt_nextKey {keys : List Nat} {k : Nat} (h : k ∈ keys) : k < nextKey keys :=
  Nat.lt_succ_of_le ((le_foldl_max keys 0).2 k h)

theorem Queuing.sequenced (h : Queuing db db') (hs : db.Sequenced) : db'.Sequenced := by
  unfold Sequenced at hs ⊢
  cases h with
  | shrinks h =>
    have hsub := h.map EventRow.sequenceNumber
    rw [List.map_map, List.map_map] at hsub
    exact hs.sublist hsub
  | insert h =>
    rw [h, insertNewEvent, List.map_append, List.map_singleton, List.nodup_append]
    refine ⟨hs, List.nodup_cons.mpr ⟨List.not_mem_nil, .nil⟩, ?_⟩
    rintro k hk k' hk' rfl
    exact absurd (lt_nextKey hk) (List.mem_singleton.mp hk' ▸ lt_irrefl _)

theorem Queuings.sequenced (h : Queuings db db') (hs : db.Sequenced) : db'.Sequenced := by
  induction h with
  | refl => exact hs
  | tail _ hstep ih => exact hstep.sequenced ih

/-! ### The completing instance -/

/-- A message that replaces an instance takes the events of its work items away. -/
theorem startInstance_own {msg : WorkflowRuntimeStateMessage} {t : String}
    (h : db.startInstance msg = .ok db') (hsome : (db.instance? id).isSome = true) :
    db'.instance? id = db.instance? id ∧ db'.historyTable id = db.historyTable id ∧
        db'.inbound id t = db.inbound id t ∨ db'.inbound id t = [] := by
  refine startInstance_invariant (I := fun x => x.instance? id = db.instance? id ∧
    x.historyTable id = db.historyTable id ∧ x.inbound id t = db.inbound id t ∨
    x.inbound id t = []) h (.inl ⟨rfl, rfl, rfl⟩) ?_ ?_
  · intro x id' hx
    by_cases hid : id = id'
    · right
      exact filter_delete_eq_nil fun r _ hr =>
        decide_eq_true ((of_decide_eq_true (Bool.and_eq_true_iff.mp hr).1).trans hid)
    · have hin : (x.deleteInstance id').inbound id t = x.inbound id t := by
        refine filter_delete fun r _ hr => decide_eq_false ?_
        exact of_decide_eq_true (Bool.and_eq_true_iff.mp hr).1 ▸ hid
      rcases hx with ⟨hrow, hhist, hin'⟩ | hnone
      · refine .inl ⟨?_, ?_, hin.trans hin'⟩
        · exact (instance?_deleteInstance x id' id).trans ((if_neg hid).trans hrow)
        · exact (historyTable_deleteInstance x hid).trans hhist
      · exact .inr (hin.trans hnone)
  · intro x y hx hcreate
    obtain ⟨r, -, -, -, -, -, -, -, -, -, rfl⟩ := createWorkflowInstanceInternal_eq hcreate
    refine hx.imp_left fun ⟨hrow, hhist, hin⟩ => ⟨?_, hhist, hin⟩
    obtain ⟨r', hr'⟩ := Option.isSome_iff_exists.mp hsome
    rw [instance?_append, hrow, hr', Option.some_or]

/-- A commit never touches its own instance again after its turn: otherwise its events would be gone
and it would fail. -/
theorem complete_own {now : Time} {wi : WorkflowWorkItem} {db₁ db₂ db₃ : Db}
    (hc : Completes db now wi db' db₁ db₂ db₃)
    (hsome : (db.instance? wi.instanceID).isSome = true) :
    db'.instance? wi.instanceID = (db.commitInstance now wi).instance? wi.instanceID ∧
      db'.historyTable wi.instanceID = db₁.historyTable wi.instanceID := by
  -- Up to the start of other instances nothing happens to the instance.
  have hbefore : db₂.instance? wi.instanceID =
        (db.commitInstance now wi).instance? wi.instanceID ∧
      db₂.historyTable wi.instanceID = db₁.historyTable wi.instanceID := by
    refine Except.foldlM_invariant (I := fun x : Db => x.instance? wi.instanceID =
        (db.commitInstance now wi).instance? wi.instanceID ∧
      x.historyTable wi.instanceID = db₁.historyTable wi.instanceID) hc.results ?_ ?_
    · obtain ⟨newTasks, heq⟩ := insertTasks_frame db₁ wi (db.committing wi)
      rw [heq]
      refine ⟨?_, rfl⟩
      obtain ⟨-, rfl⟩ := insertHistory_eq hc.inserted
      unfold resetGeneration
      split <;> rfl
    · intro x msg y _ hx hstep
      obtain ⟨_, -, ⟨target, -, -, rfl⟩ | ⟨-, rfl⟩⟩ := enqueueChildResult_eq hstep
      · exact hx
      · exact hx
  have hisSome : ((db.commitInstance now wi).instance? wi.instanceID).isSome = true := by
    rw [instance?_commitInstance, Option.isSome_map]
    exact hsome
  have hstarted : db₃.instance? wi.instanceID =
        (db.commitInstance now wi).instance? wi.instanceID ∧
      db₃.historyTable wi.instanceID = db₁.historyTable wi.instanceID ∨
      db₃.inbound wi.instanceID wi.lockedBy = [] := by
    refine Except.foldlM_invariant (I := fun x : Db => x.instance? wi.instanceID =
        (db.commitInstance now wi).instance? wi.instanceID ∧
      x.historyTable wi.instanceID = db₁.historyTable wi.instanceID ∨
      x.inbound wi.instanceID wi.lockedBy = []) hc.started (.inl hbefore) ?_
    rintro x msg y - (⟨hrow, hhist⟩ | hnone) hstep
    · rcases startInstance_own hstep (hrow.symm ▸ hisSome) with ⟨hrow', hhist', -⟩ | hnone
      · exact .inl ⟨hrow'.trans hrow, hhist'.trans hhist⟩
      · exact .inr hnone
    · right
      have hsub := (startInstance_enqueued hstep).2.2.filter
        fun e => e.instanceID = wi.instanceID && e.lockedBy = some wi.lockedBy
      unfold inbound at hnone ⊢
      rw [hnone] at hsub
      exact List.sublist_nil.mp hsub
  obtain ⟨hack, rfl⟩ := acknowledge_eq hc.acknowledged
  obtain ⟨newEvents, enqueued, hout⟩ := enqueueOutbox_frame db₃ wi (db.committing wi)
  rcases hstarted with hown | hnone
  · rw [hout]
    exact hown
  · -- The events were deleted, and what is queued since is not locked.
    exfalso
    have hinbound : (db₃.enqueueOutbox wi (db.committing wi)).inbound wi.instanceID wi.lockedBy =
        db₃.inbound wi.instanceID wi.lockedBy := inbound_enqueueOutbox ..
    rw [hnone] at hinbound
    obtain ⟨e, he, hin⟩ := List.any_eq_true.mp hack
    exact List.filter_eq_nil_iff.mp hinbound e he hin

end Db

end DurableTask.Sqlite
