import DurableTask.Backend.Sqlite.Purge

/-!
# Traversals of the recorded children

A recursive purge and a cascade of terminations follow the children in the histories. Neither looks
out for cycles: both end if the recorded children form none. A cascade also goes through the turns of
instances that have not ended, which may record more children. Each of those turns uses up an event
that is no termination, or ends its instance; between them the histories only shrink, and the number
of paths to follow bounds the terminations that are still to come.
-/

namespace DurableTask

/-- Whether an event is a termination. -/
def HistoryEvent.isTermination (e : HistoryEvent) : Bool := e.getExecutionTerminated.isSome

namespace Sqlite

open Table

namespace Db

variable {db db' : Db} {id : InstanceID}

/-! ### The queue -/

/-- What the rows of the queue count together. -/
def load (db : Db) (g : InstanceID → HistoryEvent → Nat) : Nat :=
  (db.newEvents.map fun e => g e.instanceID e.event).sum

/-- The weight of the terminations in the queue. -/
def terminations (db : Db) (weight : InstanceID → Nat) : Nat :=
  db.load fun id e => if e.isTermination then weight id else 0

/-- The number of other events in the queue. -/
def others (db : Db) : Nat := db.load fun _ e => if e.isTermination then 0 else 1

theorem Shrinks.load_le (h : Shrinks db db') (g : InstanceID → HistoryEvent → Nat) :
    db'.load g ≤ db.load g := by
  have hsub := h.map fun e => g e.instanceID e.event
  rw [List.map_map, List.map_map] at hsub
  exact hsub.sum_le_sum fun _ _ => Nat.zero_le _

/-- The instances that have not ended. -/
def active (db : Db) : List InstanceID :=
  (db.instances.map InstanceRow.instanceID).filter fun id =>
    !(db.getWorkflowRuntimeState id).isCompleted

/-- How many turns of instances that have not ended there can be, if only terminations are enqueued. -/
def budget (db : Db) : Nat := db.others + db.active.length

/-- Histories stay as they are or are deleted. -/
def Forgets (db db' : Db) : Prop :=
  ∀ id, db'.historyOf id = db.historyOf id ∨ db'.historyOf id = []

theorem Forgets.trans {db'' : Db} (h : Forgets db db') (h' : Forgets db' db'') :
    Forgets db db'' := by
  intro id
  rcases h' id with h' | h'
  · rw [h']
    exact h id
  · exact .inr h'

theorem Forgets.of_eq (h : db'.history = db.history) : Forgets db db' := by
  intro id
  unfold historyOf
  rw [h]
  exact .inl rfl

theorem childrenOf_congr (h : db'.historyOf id = db.historyOf id) :
    db'.childrenOf id = db.childrenOf id := by
  unfold childrenOf getWorkflowRuntimeState
  rw [h]

theorem childrenOf_eq_nil (h : db.historyOf id = []) : db.childrenOf id = [] := by
  unfold childrenOf getWorkflowRuntimeState
  rw [h]
  rfl

/-- A weight that bounds the terminations an instance sends on. -/
def Bounds (db : Db) (weight : InstanceID → Nat) : Prop :=
  ∀ id, ((db.childrenOf id).map fun c => weight c.1 + 1).sum ≤ weight id

theorem Bounds.forgets {weight : InstanceID → Nat} (h : db.Bounds weight) (hf : Forgets db db') :
    db'.Bounds weight := by
  intro id
  rcases hf id with hid | hid
  · rw [childrenOf_congr hid]
    exact h id
  · rw [childrenOf_eq_nil hid]
    exact Nat.zero_le _

/-- What a call does that enqueues terminations only. -/
inductive Advances (db db' : Db) : Prop
  | spends (h : db'.budget < db.budget)
  | follows (budget : db'.budget ≤ db.budget) (forgets : Forgets db db')
    (paths : ∀ weight, db.Bounds weight →
      db'.enqueued.length + db'.terminations weight ≤ db.enqueued.length + db.terminations weight)

/-- A call that enqueues nothing and leaves the histories alone. -/
theorem Advances.of_shrinks (hqueue : Shrinks db db')
    (hids : db'.instances.map InstanceRow.instanceID = db.instances.map InstanceRow.instanceID)
    (hhist : db'.history = db.history) (hlog : db'.enqueued = db.enqueued) : Advances db db' := by
  have hactive : db'.active = db.active := by
    unfold active getWorkflowRuntimeState historyOf
    rw [hids, hhist]
  refine .follows ?_ (.of_eq hhist) fun weight _ => ?_
  · unfold budget
    rw [hactive]
    exact Nat.add_le_add_right (hqueue.load_le _) _
  · rw [hlog]
    exact Nat.add_le_add_left (hqueue.load_le _) _

theorem advances_delete (db : Db) (id : InstanceID) : Advances db (db.deleteInstance id) := by
  have hqueue : Shrinks db (db.deleteInstance id) := .of_sublist List.filter_sublist
  refine .follows ?_ (fun id' => ?_) fun weight _ => Nat.add_le_add_left (hqueue.load_le _) _
  · refine Nat.add_le_add (hqueue.load_le _) (List.Sublist.length_le ?_)
    have hsame : (db.deleteInstance id).active = ((delete (·.instanceID = id) db.instances).map
        InstanceRow.instanceID).filter fun id => !(db.getWorkflowRuntimeState id).isCompleted := by
      refine List.filter_congr fun id' hid' => ?_
      obtain ⟨row, hrow, rfl⟩ := List.mem_map.mp hid'
      have hne : row.instanceID ≠ id := by simpa using (List.mem_filter.mp hrow).2
      unfold getWorkflowRuntimeState
      rw [historyOf_deleteInstance, if_neg hne]
    rw [hsame]
    exact (List.filter_sublist.map _).filter _
  · rw [historyOf_deleteInstance]
    split
    · exact .inr rfl
    · exact .inl rfl

/-! ### A turn -/

section Turn

variable {wi : WorkflowWorkItem} {now : Time} {db₁ db₂ db₃ : Db}

/-- The events of a work item are in the queue, locked for it. -/
def LocksEvents (db : Db) (wi : WorkflowWorkItem) : Prop :=
  wi.newEvents ≠ [] ∧
    ∀ e ∈ wi.newEvents, ∃ row ∈ db.inbound wi.instanceID wi.lockedBy, row.delivered = e

/-- How a work item was processed: it was dropped, or the instance had not ended, and has if the work
item holds a termination. -/
inductive Handled (db : Db) (wi : WorkflowWorkItem) : Prop
  | dropped (now : Time) (state : wi.state = cascadeTermination now
      (wi.newEvents.findSome? HistoryEvent.getExecutionTerminated)
      (db.getWorkflowRuntimeState wi.instanceID))
  | ran (incomplete : (db.getWorkflowRuntimeState wi.instanceID).isCompleted = false)
    (ended : (∃ e ∈ wi.newEvents, e.isTermination = true) → wi.state.isCompleted = true)

theorem enforceTermination_completes {w : WorkflowProcessor} {env : ProcessEnv}
    {et : ExecutionTerminatedEvent} {s s' : WorkflowRuntimeState}
    (h : w.enforceTermination env (some et) s = .ok s') : s'.isCompleted = true := by
  unfold WorkflowProcessor.enforceTermination at h
  dsimp only at h
  split at h
  · next hcompleted =>
    cases h
    exact hcompleted
  · next hrunning =>
    have hnone : s.completedEvent = none := Option.not_isSome_iff_eq_none.mp hrunning
    obtain ⟨s₂, hforced⟩ := forcedTermination_applied w env et
      (s := { s with pendingTasks := [], pendingTimers := [], pendingMessages := [] }) hnone
    rw [hforced] at h
    cases h
    cases Applier.actions_completed hforced rfl with
    | already completed =>
      rw [hnone] at completed
      cases completed
    | running _ actions => cases actions
    | now c _ hactions hcompleted =>
      unfold WorkflowRuntimeState.isCompleted
      rw [hcompleted]
      rfl

theorem handled_of_processed {w : WorkflowProcessor} {env : ProcessEnv} {wi' : WorkflowWorkItem}
    (h : w.processWorkItem env { wi with state := db.getWorkflowRuntimeState wi.instanceID } =
      .ok wi') : Handled db wi' := by
  obtain ⟨hid, -, hevents⟩ := processWorkItem_lease h
  cases processes_of_ok h with
  | dropped _ state =>
    refine .dropped env.cascade ?_
    rw [hid, hevents]
    exact state
  | ran r s incomplete loop enforce state =>
    refine .ran ?_ fun hterm => ?_
    · rw [hid]
      exact Option.isSome_eq_false_iff.mpr (Option.isNone_iff_eq_none.mpr incomplete)
    · rw [hevents] at hterm
      obtain ⟨e, he, hterm⟩ := hterm
      obtain ⟨et, het⟩ := Option.isSome_iff_exists.mp (List.findSome?_isSome_iff.mpr ⟨e, he, hterm⟩)
      rw [het] at enforce
      obtain ⟨msgs, hcascade, -⟩ := cascadeTermination_eq env.cascade
        (wi.newEvents.findSome? HistoryEvent.getExecutionTerminated) s
      have hended := enforceTermination_completes enforce
      rw [state, hcascade]
      exact hended

/-- The queue with some more entries; other rows may be gone. -/
def Inserts (entries : List (InstanceID × HistoryEvent)) (db db' : Db) : Prop :=
  ∃ rows, db'.enqueued = db.enqueued ++ rows ∧ db'.newEvents.Sublist (db.newEvents ++ rows) ∧
    rows.map (fun row => (row.instanceID, row.event)) = entries

theorem Inserts.of_sublist (hlog : db'.enqueued = db.enqueued)
    (hsub : db'.newEvents.Sublist db.newEvents) : Inserts [] db db' :=
  ⟨[], by rw [hlog, List.append_nil], by rwa [List.append_nil], rfl⟩

theorem Inserts.trans {entries entries' : List (InstanceID × HistoryEvent)} {db'' : Db}
    (h : Inserts entries db db') (h' : Inserts entries' db' db'') :
    Inserts (entries ++ entries') db db'' := by
  obtain ⟨rows, hlog, hsub, rfl⟩ := h
  obtain ⟨rows', hlog', hsub', rfl⟩ := h'
  refine ⟨rows ++ rows', ?_, ?_, List.map_append⟩
  · rw [hlog', hlog, List.append_assoc]
  · rw [← List.append_assoc]
    exact hsub'.trans (hsub.append_right rows')

theorem inserts_insertNewEvent (db : Db) (iid : InstanceID) (e : HistoryEvent)
    (visibleTime : Option Time) (executionID : Option String) (origin : Option Origin) :
    Inserts [(iid, e)] db (db.insertNewEvent iid e visibleTime executionID origin) :=
  ⟨_, rfl, .refl _, rfl⟩

theorem inserts_foldl {α : Type} {f : Db → α → Db} {g : α → InstanceID × HistoryEvent}
    (hf : ∀ x a, Inserts [g a] x (f x a)) (db : Db) (l : List α) :
    Inserts (l.map g) db (l.foldl f db) := by
  induction l generalizing db with
  | nil => exact .of_sublist rfl (.refl _)
  | cons a l ih => exact (hf db a).trans (ih (f db a))

/-- What a work item sends, apart from child results. -/
def outgoing (wi : WorkflowWorkItem) : List (InstanceID × HistoryEvent) :=
  wi.state.pendingTimers.map (wi.instanceID, ·) ++
    (messages wi).map fun msg => (msg.targetInstanceId, msg.historyEvent)

theorem inserts_enqueueOutbox (db : Db) (wi : WorkflowWorkItem) (origin : Origin) :
    Inserts (outgoing wi) db (db.enqueueOutbox wi origin) := by
  unfold enqueueOutbox
  exact (inserts_foldl (fun x e => inserts_insertNewEvent x _ e _ _ _) db _).trans
    (inserts_foldl (fun x msg => inserts_insertNewEvent x _ _ _ _ _) _ _)

theorem inserts_childResults {origin : Origin} {msgs : List WorkflowRuntimeStateMessage}
    (h : msgs.foldlM (fun db msg => db.enqueueChildResult wi origin msg) db = .ok db') :
    ∃ results, results.length ≤ msgs.length ∧ Inserts results db db' := by
  induction msgs generalizing db with
  | nil =>
    cases h
    exact ⟨[], Nat.le_refl _, .of_sublist rfl (.refl _)⟩
  | cons msg msgs ih =>
    rw [List.foldlM_cons] at h
    obtain ⟨x, hstep, h⟩ := Except.bind_eq_ok.mp h
    obtain ⟨results, hlength, hrest⟩ := ih h
    obtain ⟨_, -, ⟨target, -, -, rfl⟩ | ⟨-, rfl⟩⟩ := enqueueChildResult_eq hstep
    · exact ⟨(msg.targetInstanceId, msg.historyEvent) :: results, Nat.succ_le_succ hlength,
        (inserts_insertNewEvent db _ _ _ _ _).trans hrest⟩
    · exact ⟨results, Nat.le_succ_of_le hlength, hrest⟩

/-- A commit: its entries are added to the queue, and its events removed from it. -/
theorem inserts_complete (hc : Completes db now wi db' db₁ db₂ db₃) :
    ∃ results rows, results.length ≤ (childResults wi).length ∧
      db'.enqueued = db.enqueued ++ rows ∧
      rows.map (fun row => (row.instanceID, row.event)) = results ++ outgoing wi ∧
      ∀ g, ∀ row ∈ db.inbound wi.instanceID wi.lockedBy, g row.instanceID row.event + db'.load g ≤
        db.load g + ((results ++ outgoing wi).map fun entry => g entry.1 entry.2).sum := by
  have hturn : Inserts [] db (db₁.insertTasks wi (db.committing wi)) := by
    obtain ⟨newTasks, heq⟩ := insertTasks_frame db₁ wi (db.committing wi)
    rw [heq]
    obtain ⟨-, rfl⟩ := insertHistory_eq hc.inserted
    unfold resetGeneration
    split
    · exact .of_sublist rfl List.filter_sublist
    · exact .of_sublist rfl (.refl _)
  obtain ⟨results, hlength, hresults⟩ := inserts_childResults hc.results
  have hstarted : Inserts [] db₂ db₃ := by
    refine Except.foldlM_invariant (I := Inserts [] db₂) hc.started (.of_sublist rfl (.refl _))
      fun x msg y _ hx hstep => ?_
    obtain ⟨hlog, -, hsub⟩ := startInstance_enqueued hstep
    exact hx.trans (.of_sublist hlog hsub)
  obtain ⟨rows, hlog, hsub, hrows⟩ :=
    ((hturn.trans hresults).trans hstarted).trans (inserts_enqueueOutbox db₃ wi (db.committing wi))
  rw [List.nil_append, List.append_nil] at hrows
  obtain ⟨-, rfl⟩ := acknowledge_eq hc.acknowledged
  refine ⟨results, rows, hlength, hlog, hrows, fun g row hrow => ?_⟩
  obtain ⟨hmem, hinbound⟩ := List.mem_filter.mp hrow
  have hdelete := sum_delete (g := fun e : EventRow => g e.instanceID e.event)
    (p := EventRow.isInbound wi) hmem hinbound
  have hleft : ((delete (EventRow.isInbound wi)
      (db₃.enqueueOutbox wi (db.committing wi)).newEvents).map fun e => g e.instanceID e.event).sum ≤
      ((delete (EventRow.isInbound wi) db.newEvents ++ rows).map
        fun e => g e.instanceID e.event).sum := by
    have hfilter := hsub.filter fun e => !EventRow.isInbound wi e
    rw [List.filter_append] at hfilter
    have hall := hfilter.trans ((List.Sublist.refl _).append List.filter_sublist)
    exact (hall.map _).sum_le_sum fun _ _ => Nat.zero_le _
  rw [List.map_append, List.sum_append] at hleft
  rw [← hrows, List.map_map]
  unfold load
  dsimp only [Function.comp_def]
  omega

/-- Without start messages, a commit only touches its own instance. -/
theorem complete_tables (hc : Completes db now wi db' db₁ db₂ db₃)
    (hstarts : ∀ msg ∈ messages wi, msg.historyEvent.getExecutionStarted = none) :
    db'.instances = (db.commitInstance now wi).instances ∧ db'.history = db₁.history := by
  have hresults : db₂.instances = (db.commitInstance now wi).instances ∧ db₂.history = db₁.history := by
    refine Except.foldlM_invariant (I := fun x : Db => x.instances =
      (db.commitInstance now wi).instances ∧ x.history = db₁.history) hc.results ?_ ?_
    · obtain ⟨newTasks, heq⟩ := insertTasks_frame db₁ wi (db.committing wi)
      rw [heq]
      obtain ⟨-, rfl⟩ := insertHistory_eq hc.inserted
      unfold resetGeneration
      split <;> exact ⟨rfl, rfl⟩
    · intro x msg y _ hx hstep
      obtain ⟨_, -, ⟨target, -, -, rfl⟩ | ⟨-, rfl⟩⟩ := enqueueChildResult_eq hstep
      · exact hx
      · exact hx
  have hstarted : db₃ = db₂ := by
    refine Except.foldlM_invariant (I := (· = db₂)) hc.started rfl fun x msg y hmsg hx hstep => ?_
    unfold startInstance at hstep
    rw [hstarts msg hmsg] at hstep
    cases hstep
    exact hx
  have hout : (db₃.enqueueOutbox wi (db.committing wi)).instances = db₃.instances ∧
      (db₃.enqueueOutbox wi (db.committing wi)).history = db₃.history := by
    unfold enqueueOutbox
    refine List.foldlRecOn (motive := fun x : Db => x.instances = db₃.instances ∧
      x.history = db₃.history) _ _ ?_ fun x hx msg _ => hx
    exact List.foldlRecOn (motive := fun x : Db => x.instances = db₃.instances ∧
      x.history = db₃.history) _ _ ⟨rfl, rfl⟩ fun x hx e _ => hx
  obtain ⟨-, rfl⟩ := acknowledge_eq hc.acknowledged
  rw [hstarted] at hout
  exact ⟨hstarted ▸ hout.1.trans hresults.1, hstarted ▸ hout.2.trans hresults.2⟩

theorem map_instanceID_commitInstance (db : Db) (now : Time) (wi : WorkflowWorkItem) :
    (db.commitInstance now wi).instances.map InstanceRow.instanceID =
      db.instances.map InstanceRow.instanceID :=
  map_update fun r => (InstanceRow.commit_frame now wi.state r).1

/-- The state a dropped work item is left with: a termination goes on to the children. -/
theorem cascade_loaded (now : Time) (terminateEvent : Option ExecutionTerminatedEvent)
    (db : Db) (id : InstanceID) :
    ∃ msgs, cascadeTermination now terminateEvent (db.getWorkflowRuntimeState id) =
        { db.getWorkflowRuntimeState id with pendingMessages := msgs } ∧
      (∀ msg ∈ msgs, msg.historyEvent.isTermination = true) ∧
      (msgs = [] ∨ terminateEvent.isSome = true ∧
        msgs.map WorkflowRuntimeStateMessage.targetInstanceId = (db.childrenOf id).map Prod.fst) := by
  have hmsgs : (db.getWorkflowRuntimeState id).pendingMessages = [] :=
    (WorkflowRuntimeState.new_frame id none _).2.2.1
  have hnone : ∃ msgs, db.getWorkflowRuntimeState id =
        { db.getWorkflowRuntimeState id with pendingMessages := msgs } ∧
      (∀ msg ∈ msgs, msg.historyEvent.isTermination = true) ∧
      (msgs = [] ∨ terminateEvent.isSome = true ∧
        msgs.map WorkflowRuntimeStateMessage.targetInstanceId = (db.childrenOf id).map Prod.fst) :=
    ⟨[], by rw [← hmsgs], fun _ h => absurd h List.not_mem_nil, .inl rfl⟩
  unfold cascadeTermination
  split
  · next et =>
    split
    · unfold appendCascadeTerminateMessages
      split
      · refine ⟨_, rfl, fun msg hmsg => ?_, .inr ⟨rfl, ?_⟩⟩
        · rw [hmsgs, List.nil_append] at hmsg
          obtain ⟨child, -, rfl⟩ := List.mem_map.mp hmsg
          rfl
        · rw [hmsgs, List.nil_append, List.map_map]
          rfl
      · exact hnone
    · exact hnone
  · exact hnone

theorem getExecutionStarted_of_isTermination {e : HistoryEvent} (h : e.isTermination = true) :
    e.getExecutionStarted = none := by
  unfold HistoryEvent.isTermination HistoryEvent.getExecutionTerminated at h
  unfold HistoryEvent.getExecutionStarted
  split at h
  · next het => rw [het]
  · cases h

theorem sum_others_eq_zero {entries : List (InstanceID × HistoryEvent)}
    (h : ∀ entry ∈ entries, entry.2.isTermination = true) :
    (entries.map fun entry => if entry.2.isTermination then 0 else 1).sum = 0 := by
  refine List.sum_eq_zero fun n hn => ?_
  obtain ⟨entry, hentry, rfl⟩ := List.mem_map.mp hn
  exact if_pos (h entry hentry)

/-- The turn of an instance that had not ended. -/
theorem budget_lt_of_ran (hc : Completes db now wi db' db₁ db₂ db₃) (hdoc : db.Documented)
    (hl : db.leasedBy wi.instanceID wi.lockedBy) (hprocessed : Processed db wi)
    (hdelivered : LocksEvents db wi)
    (hinst : db'.instances = (db.commitInstance now wi).instances) (hhist : db'.history = db₁.history)
    (hothers : ∀ row ∈ db.inbound wi.instanceID wi.lockedBy,
      (if row.event.isTermination then 0 else 1) + db'.others ≤ db.others)
    (incomplete : (db.getWorkflowRuntimeState wi.instanceID).isCompleted = false)
    (ended : (∃ e ∈ wi.newEvents, e.isTermination = true) → wi.state.isCompleted = true) :
    db'.budget < db.budget := by
  have hids : db'.instances.map InstanceRow.instanceID = db.instances.map InstanceRow.instanceID := by
    rw [hinst, map_instanceID_commitInstance]
  have hloaded (id : InstanceID) : db'.getWorkflowRuntimeState id = db₁.getWorkflowRuntimeState id := by
    refine getWorkflowRuntimeState_congr ?_
    unfold historyTable
    rw [hhist]
  have hactive : db'.active = (db.active).filter
      fun id => !(db'.getWorkflowRuntimeState id).isCompleted := by
    unfold active
    rw [hids, List.filter_filter]
    refine List.filter_congr fun id _ => ?_
    by_cases hid : id = wi.instanceID
    · rw [hid, incomplete]
      simp
    · rw [hloaded, getWorkflowRuntimeState_congr ((historyTable_turn hc.inserted).2 id hid), Bool.and_self]
  have hle : db'.active.length ≤ db.active.length := hactive ▸ List.length_filter_le _ _
  obtain ⟨e, he⟩ := List.exists_mem_of_ne_nil _ hdelivered.1
  unfold budget
  by_cases hterm : ∃ e ∈ wi.newEvents, e.isTermination = true
  · -- The instance ends.
    have hown : wi.instanceID ∈ db.active := by
      obtain ⟨r, hr, -⟩ := hl
      refine List.mem_filter.mpr ⟨?_, by rw [incomplete]; rfl⟩
      exact List.mem_map.mpr ⟨r, List.mem_of_find?_eq_some hr, instanceID_of_instance? hr⟩
    have hended : (db'.getWorkflowRuntimeState wi.instanceID).isCompleted = true := by
      have hcompleted := (hprocessed.load (hdoc.recorded _) hc.inserted).2
      unfold WorkflowRuntimeState.isCompleted
      rw [hloaded, hcompleted]
      exact ended hterm
    have hlt : db'.active.length < db.active.length := by
      rw [hactive]
      refine List.length_filter_lt_length_iff_exists.mpr ⟨_, hown, ?_⟩
      rw [hended]
      exact nofun
    obtain ⟨row, hrow, -⟩ := hdelivered.2 e he
    have hothers := hothers row hrow
    omega
  · -- An event that is no termination goes.
    obtain ⟨row, hrow, rfl⟩ := hdelivered.2 e he
    have hother : ¬row.event.isTermination = true := fun h => hterm ⟨row.delivered, he, h⟩
    have hothers := hothers row hrow
    rw [if_neg hother] at hothers
    omega

theorem isChildResult_of_isTermination {e : HistoryEvent} (h : e.isTermination = true) :
    e.isChildResult = false := by
  unfold HistoryEvent.isTermination HistoryEvent.getExecutionTerminated at h
  unfold HistoryEvent.isChildResult
  split at h
  · next het => rw [het]
  · cases h

/-- What is sent of a loaded state that only has messages with terminations. -/
theorem outgoing_loaded {msgs : List WorkflowRuntimeStateMessage}
    (hstate : wi.state = { db.getWorkflowRuntimeState wi.instanceID with pendingMessages := msgs })
    (hterm : ∀ msg ∈ msgs, msg.historyEvent.isTermination = true) :
    childResults wi = [] ∧ messages wi = msgs ∧
      outgoing wi = msgs.map fun msg => (msg.targetInstanceId, msg.historyEvent) := by
  have hresult (msg) (hmsg : msg ∈ msgs) : msg.isChildResult = false :=
    isChildResult_of_isTermination (hterm msg hmsg)
  have htimers := (WorkflowRuntimeState.new_frame wi.instanceID none (db.historyOf wi.instanceID)).2.1
  have hmessages : messages wi = msgs := by
    unfold messages
    rw [hstate]
    exact List.filter_eq_self.mpr fun msg hmsg => by rw [hresult msg hmsg]; rfl
  refine ⟨?_, hmessages, ?_⟩
  · unfold childResults
    rw [hstate]
    exact List.filter_eq_nil_iff.mpr fun msg hmsg => by rw [hresult msg hmsg]; exact nofun
  · unfold outgoing
    rw [hmessages, hstate]
    dsimp only [getWorkflowRuntimeState]
    rw [htimers]
    rfl

/-- A turn without new events leaves the history alone. -/
theorem history_loaded {msgs : List WorkflowRuntimeStateMessage}
    (hc : Completes db now wi db' db₁ db₂ db₃)
    (hstate : wi.state = { db.getWorkflowRuntimeState wi.instanceID with pendingMessages := msgs }) :
    db₁.history = db.history := by
  have hnew : wi.state.newEvents = [] := by
    rw [hstate]
    exact (WorkflowRuntimeState.new_events wi.instanceID none _).2
  have hcan : wi.state.continuedAsNew = false := by
    rw [hstate]
    exact congrArg (·.2.2.2.2.1) (WorkflowRuntimeState.foldl_addOrDrop_frame false _ _).1
  obtain ⟨-, rfl⟩ := insertHistory_eq hc.inserted
  unfold resetGeneration
  rw [if_neg (by rw [hcan]; exact nofun), hnew]
  exact List.append_nil _

/-- The commit of a work item that was dropped. -/
theorem advances_of_dropped (hc : Completes db now wi db' db₁ db₂ db₃) (hdelivered : LocksEvents db wi)
    {cascade : Time}
    (hstate : wi.state = cascadeTermination cascade
      (wi.newEvents.findSome? HistoryEvent.getExecutionTerminated)
      (db.getWorkflowRuntimeState wi.instanceID)) : Advances db db' := by
  obtain ⟨msgs, hmsgs, hterm, hcases⟩ := cascade_loaded cascade
    (wi.newEvents.findSome? HistoryEvent.getExecutionTerminated) db wi.instanceID
  rw [hmsgs] at hstate
  obtain ⟨hresults, hmessages, hout⟩ := outgoing_loaded hstate hterm
  obtain ⟨results, rows, hlength, hlog, hrows, hload⟩ := inserts_complete hc
  rw [hresults, List.length_nil, Nat.le_zero, List.length_eq_zero_iff] at hlength
  rw [hlength, List.nil_append, hout] at hrows hload
  obtain ⟨hinst, hhist⟩ := complete_tables hc fun msg hmsg =>
    getExecutionStarted_of_isTermination (hterm msg (hmessages ▸ hmsg))
  have hhist : db'.history = db.history := hhist.trans (history_loaded hc hstate)
  have hactive : db'.active = db.active := by
    unfold active getWorkflowRuntimeState historyOf
    rw [hinst, map_instanceID_commitInstance, hhist]
  obtain ⟨e, he⟩ := List.exists_mem_of_ne_nil _ hdelivered.1
  obtain ⟨row, hrow, -⟩ := hdelivered.2 e he
  refine .follows ?_ (.of_eq hhist) fun weight hbounds => ?_
  · have hothers := hload (fun _ e => if e.isTermination then 0 else 1) row hrow
    rw [sum_others_eq_zero (List.forall_mem_map.mpr hterm)] at hothers
    unfold budget others
    rw [hactive]
    omega
  · have hcount : rows.length = msgs.length := by simpa using congrArg List.length hrows
    have hsum : ((msgs.map fun msg => (msg.targetInstanceId, msg.historyEvent)).map
        fun entry : InstanceID × HistoryEvent =>
          if entry.2.isTermination then weight entry.1 else 0).sum =
        ((msgs.map WorkflowRuntimeStateMessage.targetInstanceId).map weight).sum := by
      rw [List.map_map, List.map_map]
      exact congrArg List.sum (List.map_congr_left fun msg hmsg => if_pos (hterm msg hmsg))
    unfold terminations
    rw [hlog, List.length_append, hcount]
    rcases hcases with rfl | ⟨hsome, htargets⟩
    · have hle := hload (fun id e => if e.isTermination then weight id else 0) row hrow
      rw [hsum] at hle
      simp only [List.map_nil, List.sum_nil, List.length_nil] at hle ⊢
      omega
    · -- The termination makes room for the ones it sends on.
      obtain ⟨e, he, hterm⟩ := List.findSome?_isSome_iff.mp hsome
      obtain ⟨row, hrow, rfl⟩ := hdelivered.2 e he
      have hle := hload (fun id e => if e.isTermination then weight id else 0) row hrow
      have hroom : (if row.event.isTermination then weight row.instanceID else 0) =
          weight wi.instanceID := by
        rw [if_pos (show row.event.isTermination = true from hterm)]
        rw [of_decide_eq_true (Bool.and_eq_true_iff.mp (List.mem_filter.mp hrow).2).1]
      have hpaths := hbounds wi.instanceID
      have hpaths' : ((db.childrenOf wi.instanceID).map fun c => weight c.1 + 1).sum =
          ((msgs.map WorkflowRuntimeStateMessage.targetInstanceId).map weight).sum + msgs.length := by
        have hlen : msgs.length = (db.childrenOf wi.instanceID).length := by
          simpa using congrArg List.length htargets
        rw [htargets, hlen, List.sum_map_add, List.map_map]
        simp [Function.comp_def]
      omega

/-- The commit of a work item, when all it enqueues are terminations. -/
theorem advances_complete (hdoc : db.Documented) (hl : db.leasedBy wi.instanceID wi.lockedBy)
    (hprocessed : Processed db wi) (hdelivered : LocksEvents db wi) (hhandled : Handled db wi)
    (h : db.completeWorkflowWorkItem now wi = .ok db')
    (hterm : ∀ row ∈ db'.enqueued.drop db.enqueued.length, row.event.isTermination = true) :
    Advances db db' := by
  obtain ⟨db₁, db₂, db₃, hc⟩ := completes_of_ok h
  cases hhandled with
  | dropped _ hstate => exact advances_of_dropped hc hdelivered hstate
  | ran incomplete ended =>
    obtain ⟨results, rows, -, hlog, hrows, hload⟩ := inserts_complete hc
    rw [hlog, List.drop_left] at hterm
    have hentries : ∀ entry ∈ results ++ outgoing wi, entry.2.isTermination = true := by
      rw [← hrows]
      intro entry hentry
      obtain ⟨row, hrow, rfl⟩ := List.mem_map.mp hentry
      exact hterm row hrow
    obtain ⟨hinst, hhist⟩ := complete_tables hc fun msg hmsg =>
      getExecutionStarted_of_isTermination (hentries (msg.targetInstanceId, msg.historyEvent)
        (List.mem_append_right _ (List.mem_append_right _ (List.mem_map_of_mem hmsg))))
    refine .spends (budget_lt_of_ran hc hdoc hl hprocessed hdelivered hinst hhist (fun row hrow => ?_)
      incomplete ended)
    have hothers := hload (fun _ e => if e.isTermination then 0 else 1) row hrow
    rw [sum_others_eq_zero hentries] at hothers
    exact hothers

end Turn

/-- What is known of a processed work item that is still leased. -/
structure Taken (db : Db) (wi : WorkflowWorkItem) : Prop where
  processed : Processed db wi
  delivered : LocksEvents db wi
  handled : Handled db wi

/-- Every call that enqueues terminations only, and those in the commit of a work item. -/
theorem Transaction.advances {opts : SqliteOptions} {op : Op} (hdoc : db.Documented)
    (h : Transaction opts Taken db op db')
    (hterm : ∀ row ∈ db'.enqueued.drop db.enqueued.length, row.event.isTermination = true ∧
      ∃ t now, op = .completeWorkflowWorkItem t now) : Advances db db' := by
  -- No other call enqueues anything.
  have hinsert {x : Db} {iid : InstanceID} {e : HistoryEvent} {visibleTime : Option Time}
      {executionID : Option String} {origin : Option Origin} (hx : x.enqueued = db.enqueued)
      (hlog : db'.enqueued = (x.insertNewEvent iid e visibleTime executionID origin).enqueued) :
      ∃ t now, op = .completeWorkflowWorkItem t now := by
    obtain ⟨row, hrow, -⟩ := insertNewEvent_row x iid e visibleTime executionID origin
    rw [hlog, hrow, hx, List.drop_left] at hterm
    exact (hterm row (List.mem_singleton.mpr rfl)).2
  cases h with
  | idle => exact .of_shrinks (.refl db) rfl rfl rfl
  | createWorkflowInstance h =>
    unfold Db.createWorkflowInstance at h
    split at h
    · cases h
    · obtain ⟨created, hcreate, heq⟩ := Except.bind_eq_ok.mp h
      cases heq
      obtain ⟨r, -, -, -, -, -, -, -, -, -, rfl⟩ := createWorkflowInstanceInternal_eq hcreate
      obtain ⟨t, now, hop⟩ := hinsert (x := { db with instances := _ }) rfl rfl
      cases hop
  | addNewWorkflowEvent h =>
    obtain ⟨-, rfl⟩ := addNewWorkflowEvent_eq h
    obtain ⟨t, now, hop⟩ := hinsert (x := db) rfl rfl
    cases hop
  | addNewWorkflowEventWithExternalDelivery h =>
    obtain ⟨-, ⟨-, rfl⟩ | ⟨-, rfl⟩⟩ := addNewWorkflowEventWithExternalDelivery_eq h
    · exact .of_shrinks (.refl _) rfl rfl rfl
    · obtain ⟨t, now, hop⟩ := hinsert (x := { db with externalEventDeliveries := _ }) rfl rfl
      cases hop
  | purgeWorkflowState h =>
    obtain ⟨rfl, -⟩ := cleanup_eq h
    exact advances_delete db _
  | getWorkflowWorkItem h =>
    have hshrinks := shrinks_getWorkflowWorkItem h
    cases acquires_of_getWorkflowWorkItem h with
    | idle => exact .of_shrinks hshrinks rfl rfl rfl
    | stale => exact .of_shrinks hshrinks (map_update fun _ => rfl) rfl rfl
    | lease => exact .of_shrinks hshrinks (map_update fun _ => rfl) rfl rfl
  | completeWorkflowWorkItem leased held h =>
    exact advances_complete hdoc leased held.processed held.delivered held.handled h
      fun row hrow => (hterm row hrow).1
  | abandonWorkflowWorkItem h =>
    have hshrinks := shrinks_abandon h
    obtain ⟨-, -, visibleTime, rfl⟩ := abandon_eq h
    exact .of_shrinks hshrinks (map_update fun _ => rfl) rfl rfl
  | getActivityWorkItem now t =>
    obtain ⟨newTasks, heq, -⟩ := getActivityWorkItem_eq db opts now t
    rw [heq]
    exact .of_shrinks (.of_eq rfl) rfl rfl rfl
  | completeActivityWorkItem h =>
    obtain ⟨task, -, rfl⟩ := completeActivityWorkItem_eq h
    obtain ⟨t, now, hop⟩ := hinsert (x := db) rfl rfl
    cases hop
  | abandonActivityWorkItem h =>
    obtain ⟨newTasks, rfl, -⟩ := abandonActivityWorkItem_eq h
    exact .of_shrinks (.of_eq rfl) rfl rfl rfl

end Db

namespace System

/-- What is known of work items, whatever the calls and whatever the executors answer. -/
theorem taken_maintained (opts : SqliteOptions) :
    Maintained opts (fun _ _ => True) (fun db => db.Documented ∧ db.Sequenced) Db.LocksEvents Db.Taken where
  init := ⟨(documented_maintained opts).init, (inbound_maintained opts).init⟩
  transaction := by
    rintro s op - - ⟨hdoc, hs⟩ htx
    exact ⟨hdoc.ledgers (htx.ledgers.mono fun _ _ h => h.processed), htx.queuings.sequenced hs⟩
  acquire _ h hget := Db.inbound_acquired h.2 hget
  process := by
    rintro s w env wi wi' - ⟨hdoc, -⟩ hl hdelivered hproc
    obtain ⟨hid, hlock, hevents⟩ := processWorkItem_lease hproc
    refine ⟨?_, ?_, Db.handled_of_processed hproc⟩
    · exact (documented_maintained opts).process (s := s) (A := fun _ _ => True) trivial hdoc hl trivial
        hproc
    · unfold Db.LocksEvents
      rw [hid, hlock, hevents]
      exact hdelivered
  acquired := by
    intro db db' wi hkeeps hl h
    unfold Db.LocksEvents at h ⊢
    rwa [(hkeeps _ hl).2.2]
  processed := by
    intro db db' wi hkeeps hl h
    obtain ⟨-, hhist, hin⟩ := hkeeps _ hl
    have hload := Db.getWorkflowRuntimeState_congr hhist
    refine ⟨(documented_maintained opts).processed hkeeps hl h.processed, ?_, ?_⟩
    · unfold Db.LocksEvents
      rw [hin]
      exact h.delivered
    · cases h.handled with
      | dropped now state => exact .dropped now (hload ▸ state)
      | ran incomplete ended => exact .ran (hload ▸ incomplete) ended

/-- A call that enqueues nothing, or is the commit of a work item that enqueues terminations only. -/
def Cascades (opts : SqliteOptions) (s : System) (op : Op) : Prop :=
  ∀ row ∈ (s.exec opts op).db.enqueued.drop s.db.enqueued.length,
    row.event.isTermination = true ∧ ∃ t now, op = .completeWorkflowWorkItem t now

variable {opts : SqliteOptions}

/-- One call of a cascade. -/
theorem advances_exec {s : System}
    (h : Holds (fun db => db.Documented ∧ db.Sequenced) Db.LocksEvents Db.Taken s) {op : Op}
    (hop : Cascades opts s op) : Db.Advances s.db (s.exec opts op).db :=
  (h.transaction (exec_spec opts s op)).advances h.store.1 hop

/-- The state after the first `n` calls of a sequence. -/
def after (opts : SqliteOptions) (s : System) (ops : Nat → Op) (n : Nat) : System :=
  Run.run (exec opts) s ((List.range n).map ops)

theorem after_succ (s : System) (ops : Nat → Op) (n : Nat) :
    after opts s ops (n + 1) = (after opts s ops n).exec opts (ops n) := by
  unfold after
  rw [List.range_succ, List.map_append]
  exact Run.run_concat (exec opts) s _ _

theorem Holds.after {s : System} (ops : Nat → Op)
    (h : Holds (fun db => db.Documented ∧ db.Sequenced) Db.LocksEvents Db.Taken s) (n : Nat) :
    Holds (fun db => db.Documented ∧ db.Sequenced) Db.LocksEvents Db.Taken (after opts s ops n) := by
  induction n with
  | zero => exact h
  | succ n ih =>
    rw [after_succ]
    exact ih.exec (taken_maintained opts) trivial

/-- Once no instance takes a turn any more that had not ended, the terminations that are still enqueued
are those on the paths from the ones in the queue. -/
theorem enqueued_le_of_budget {s : System} {ops : Nat → Op} {m : Nat} {weight : InstanceID → Nat}
    (h : Holds (fun db => db.Documented ∧ db.Sequenced) Db.LocksEvents Db.Taken s)
    (hops : ∀ n, Cascades opts (after opts s ops n) (ops n))
    (hmin : ∀ n, (after opts s ops m).db.budget ≤ (after opts s ops n).db.budget)
    (hbounds : (after opts s ops m).db.Bounds weight) (k : Nat) :
    (after opts s ops (m + k)).db.budget = (after opts s ops m).db.budget ∧
      Db.Forgets (after opts s ops m).db (after opts s ops (m + k)).db ∧
      (after opts s ops (m + k)).db.enqueued.length +
          (after opts s ops (m + k)).db.terminations weight ≤
        (after opts s ops m).db.enqueued.length + (after opts s ops m).db.terminations weight := by
  induction k with
  | zero => exact ⟨rfl, .of_eq rfl, Nat.le_refl _⟩
  | succ k ih =>
    obtain ⟨hbudget, hforgets, hle⟩ := ih
    have hstep := advances_exec (h.after ops (m + k)) (hops (m + k))
    rw [← after_succ] at hstep
    have hmin := hmin (m + k + 1)
    cases hstep with
    | spends hlt => omega
    | follows hbudget' hforgets' hpaths =>
      have hpaths := hpaths weight (hbounds.forgets hforgets)
      rw [← Nat.add_assoc]
      exact ⟨by omega, hforgets.trans hforgets', hpaths.trans hle⟩

theorem exists_bounds {db : Db} (h : Graph.Acyclic db.Child) : ∃ weight, db.Bounds weight := by
  have hwf : WellFounded fun c a => c ∈ (db.childrenOf a).map Prod.fst := by
    simpa only [Db.mem_childrenOf] using Db.child_wellFounded h
  obtain ⟨paths, hpaths⟩ := Graph.exists_paths hwf
  refine ⟨paths, fun id => ?_⟩
  rw [hpaths id, List.map_map]
  exact Nat.le_refl _

/-- Over recorded children without cycles, a recursive purge returns, and a cascade of terminations
ends: in every sequence of calls that enqueue nothing but terminations, there are only so many. -/
theorem traversals_terminate (opts : SqliteOptions) (pre : List Op) :
    (Graph.Acyclic (run opts pre).db.Child → ∀ order force calls iid router,
      ∃ depth, ∀ fuel ≥ depth, (purgeWorkflowState sqliteBackend order true force fuel calls
        (run opts pre).db iid router).isSome = true) ∧
    ∀ ops : Nat → Op, (∀ n, Cascades opts (after opts (run opts pre) ops n) (ops n)) →
      (∀ n, Graph.Acyclic (after opts (run opts pre) ops n).db.Child) →
      ∃ bound, ∀ n, (after opts (run opts pre) ops n).db.enqueued.length ≤ bound := by
  refine ⟨fun hacyclic order force calls iid router => ?_, fun ops hops hacyclic => ?_⟩
  · cases hrouter : isRemoteRouter router with
    | true =>
      refine ⟨1, fun fuel hfuel => ?_⟩
      obtain ⟨fuel, rfl⟩ := Nat.exists_eq_add_of_le' hfuel
      rw [sqliteBackend, purgeWorkflowState_remote hrouter]
      rfl
    | false =>
      obtain ⟨depth, hdepth⟩ := purgeWorkflowState_isSome "sqlite" order force
        (historyOf_owned opts pre) hacyclic iid
      refine ⟨depth, fun fuel hfuel => ?_⟩
      rw [purgeWorkflowState_local hrouter]
      exact hdepth fuel hfuel calls [] .nil
  · have hholds := (taken_maintained opts).run pre fun _ _ _ _ => trivial
    generalize run opts pre = s at hops hacyclic hholds
    -- From some call on, no instance takes a turn that had not ended.
    obtain ⟨m, hmin⟩ : ∃ m, ∀ n, (after opts s ops m).db.budget ≤ (after opts s ops n).db.budget :=
      ⟨_, fun n => Function.argmin_le (fun n => (after opts s ops n).db.budget) n⟩
    obtain ⟨weight, hbounds⟩ := exists_bounds (hacyclic m)
    refine ⟨((List.range m).map fun n => (after opts s ops n).db.enqueued.length).sum +
      ((after opts s ops m).db.enqueued.length + (after opts s ops m).db.terminations weight),
      fun n => ?_⟩
    rcases Nat.lt_or_ge n m with hn | hn
    · have hmem := List.mem_map_of_mem (f := fun n => (after opts s ops n).db.enqueued.length)
        (List.mem_range.mpr hn)
      exact (List.single_le_sum (fun _ _ => Nat.zero_le _) _ hmem).trans (Nat.le_add_right _ _)
    · obtain ⟨k, rfl⟩ := Nat.exists_eq_add_of_le hn
      have hle := (enqueued_le_of_budget hholds hops hmin hbounds k).2.2
      omega

end System

/-- An instance whose only recorded child is itself: its purge never returns. -/
theorem purgeWorkflowState_loops {backend : String} {order : MapOrder} {force : Bool} {db : Db}
    {iid : InstanceID} {router : Option TaskRouter} (hhist : db.historyOf iid ≠ [])
    (hended : (db.getWorkflowRuntimeState iid).isCompleted = true)
    (hself : db.childrenOf iid = [(iid, router)]) (hlocal : isRemoteRouter router = false)
    (fuel calls : Nat) :
    purgeWorkflowState (sqlBackend backend) order true force fuel calls db iid none = none := by
  induction fuel generalizing calls with
  | zero => rfl
  | succ fuel ih =>
    have horder : order.arrange calls [(iid, router)] = [(iid, router)] :=
      List.perm_singleton.mp (order.perm calls _)
    rw [purgeWorkflowState_succ, if_neg hhist, if_neg (by rw [hended]; simp), hself, horder,
      purgeChildren, if_neg (by rw [hlocal]; exact Bool.false_ne_true)]
    dsimp only
    rw [ih]

namespace CascadeExample

open StalledExample (opts)
open SpawnExample (spawner turn)

/-- Start a child under the own ID. -/
def startsItself : WorkflowResponse :=
  { actions :=
      [{ id := 0, actionType := .createChildWorkflow { instanceId := "a", name := "spawner" } }] }

def terminate : HistoryEvent := { eventType := .executionTerminated { recurse := true } }

/-- The workflow does so in the turn that ends it: the child is recorded, but not created. -/
def ownChild : List Op :=
  [.createWorkflowInstance spawner, .addNewWorkflowEvent "a" terminate] ++ turn "t1" startsItself 1

/-- A workflow that was terminated is recorded as its own child. Its purge never returns. -/
theorem own_child_purge_loops :
    ((System.run opts ownChild).db.instance? "a").map InstanceRow.runtimeStatus = some .terminated ∧
      ∀ order force fuel calls, purgeWorkflowState sqliteBackend order true force fuel calls
        (System.run opts ownChild).db "a" none = none := by
  have hstatus : ((System.run opts ownChild).db.instance? "a").map InstanceRow.runtimeStatus =
      some .terminated := by decide +kernel
  have hhist : (System.run opts ownChild).db.historyOf "a" ≠ [] := by decide +kernel
  have hended : ((System.run opts ownChild).db.getWorkflowRuntimeState "a").isCompleted = true := by
    decide +kernel
  have hself : ((System.run opts ownChild).db.childrenOf "a").map Prod.fst = ["a"] ∧
      ∀ child ∈ (System.run opts ownChild).db.childrenOf "a", isRemoteRouter child.2 = false := by
    decide +kernel
  generalize (System.run opts ownChild).db = db at hstatus hhist hended hself
  obtain ⟨hids, hlocal⟩ := hself
  obtain ⟨⟨id, router⟩, hchildren, hid⟩ := List.map_eq_singleton_iff.mp hids
  cases hid
  refine ⟨hstatus, fun order force fuel calls => ?_⟩
  exact purgeWorkflowState_loops hhist hended hchildren
    (hlocal _ (hchildren ▸ List.mem_singleton.mpr rfl)) fuel calls

/-- A workflow with a child, with a termination in its queue. -/
def terminated : List Op := PurgeExample.endedChild ++ [.addNewWorkflowEvent "a" terminate]

/-- The turn that sends the termination on, and then calls that fail. -/
def cascade (n : Nat) : Op := (turn "t3" {} 5).getD n (.createWorkflowInstance terminate)

theorem after_cascade (s : System) (n : Nat) :
    System.after opts s cascade (3 + n) = System.after opts s cascade 3 := by
  induction n with
  | zero => rfl
  | succ n ih =>
    have hop : cascade (3 + n) = .createWorkflowInstance terminate := by
      rw [cascade, List.getD_eq_getElem?_getD, List.getElem?_eq_none (by simp [turn])]
      rfl
    rw [← Nat.add_assoc, System.after_succ, ih, hop]
    rfl

theorem cascade_ends :
    (∃ depth, ∀ fuel ≥ depth, (purgeWorkflowState sqliteBackend PurgeExample.inOrder true false fuel 0
      (System.run opts terminated).db "a" none).isSome = true) ∧
    ∃ bound, ∀ n, (System.after opts (System.run opts terminated) cascade n).db.enqueued.length ≤
      bound := by
  have hedges : ∀ n < 4, ∀ row ∈ (System.after opts (System.run opts terminated) cascade n).db.history,
      row.event.getChildWorkflowInstanceCreated.all
        (fun created => row.instanceID = "a" ∧ created.instanceId = "b") = true := by
    decide +kernel
  have hquiet : ∀ n < 2, (System.after opts (System.run opts terminated) cascade (n + 1)).db.enqueued =
      (System.after opts (System.run opts terminated) cascade n).db.enqueued := by
    decide +kernel
  have hsent : ∀ row ∈ (System.after opts (System.run opts terminated) cascade 3).db.enqueued.drop
      (System.after opts (System.run opts terminated) cascade 2).db.enqueued.length,
      row.event.isTermination = true := by
    decide +kernel
  obtain ⟨hpurge, hcascade⟩ := System.traversals_terminate opts terminated
  generalize System.run opts terminated = s at hedges hquiet hsent hpurge hcascade ⊢
  have hacyclic (n : Nat) : Graph.Acyclic (System.after opts s cascade n).db.Child := by
    rcases Nat.lt_or_ge n 3 with hn | hn
    · exact PurgeExample.acyclic_of_edge (by decide) (hedges n (by omega))
    · obtain ⟨k, rfl⟩ := Nat.exists_eq_add_of_le hn
      rw [after_cascade]
      exact PurgeExample.acyclic_of_edge (by decide) (hedges 3 (by omega))
  refine ⟨hpurge (hacyclic 0) _ _ _ _ _, hcascade cascade (fun n => ?_) hacyclic⟩
  unfold System.Cascades
  rw [← System.after_succ]
  have hsame (hlog : (System.after opts s cascade (n + 1)).db.enqueued =
      (System.after opts s cascade n).db.enqueued) : ∀ row ∈
        (System.after opts s cascade (n + 1)).db.enqueued.drop
          (System.after opts s cascade n).db.enqueued.length,
      row.event.isTermination = true ∧ ∃ t now, cascade n = .completeWorkflowWorkItem t now := by
    rw [hlog, List.drop_length]
    exact fun _ h => absurd h List.not_mem_nil
  rcases Nat.lt_or_ge n 2 with hn | hn
  · exact hsame (hquiet n hn)
  · rcases Nat.eq_or_lt_of_le hn with rfl | hn
    · exact fun row hrow => ⟨hsent row hrow, "t3", 6, rfl⟩
    · obtain ⟨k, rfl⟩ := Nat.exists_eq_add_of_le (show 3 ≤ n from hn)
      refine hsame ?_
      rw [Nat.add_assoc, after_cascade, after_cascade]

end CascadeExample

end Sqlite

end DurableTask
