import DurableTask.Backend.Sqlite.History
import DurableTask.Backend.Sqlite.Queue

/-!
# The rows of one instance

What each statement of a commit does to the rows of one instance: it leaves them alone but for new rows at
the end of the queue (`Adds`), except where the turn changes its own instance or starts another one.
-/

namespace DurableTask

/-- The instance that a message starts. -/
def WorkflowRuntimeStateMessage.starts (msg : WorkflowRuntimeStateMessage) : Option InstanceID :=
  msg.historyEvent.getExecutionStarted.map (·.workflowInstance.instanceId)

namespace Sqlite

open Table

/-- What is queued. -/
def EventRow.content (e : EventRow) : HistoryEvent × Option Time := (e.event, e.visibleTime)

/-- Whether a row was never dequeued. -/
def EventRow.isNew (e : EventRow) : Bool := e.lockedBy = none && e.dequeueCount = 0

namespace Db

/-! ### The rows of an instance -/

/-- The `NewEvents` rows of an instance. -/
def queueOf (db : Db) (id : InstanceID) : List EventRow := db.newEvents.filter (·.instanceID = id)

/-- The `NewTasks` rows of an instance. -/
def tasksOf (db : Db) (id : InstanceID) : List TaskRow := db.newTasks.filter (·.instanceID = id)

def deliveriesOf (db : Db) (id : InstanceID) : List DeliveryRow :=
  db.externalEventDeliveries.filter (·.instanceID = id)

/-- The rows outside the queue. -/
def rowsOf (db : Db) (id : InstanceID) :
    List InstanceRow × List HistoryRow × List TaskRow × List DeliveryRow :=
  (db.instances.filter (·.instanceID = id), db.historyTable id, db.tasksOf id, db.deliveriesOf id)

/-- New rows are put at the end of the queue of an instance, and nothing else happens to it. -/
structure Adds (id : InstanceID) (db db' : Db) (contents : List (HistoryEvent × Option Time)) : Prop where
  rows : db'.rowsOf id = db.rowsOf id
  events : ∃ added, db'.queueOf id = db.queueOf id ++ added ∧ (∀ e ∈ added, e.isNew = true) ∧
    added.map EventRow.content = contents

variable {db db' db'' : Db} {id : InstanceID} {contents contents' : List (HistoryEvent × Option Time)}

namespace Adds

theorem of_eq (hrows : db'.rowsOf id = db.rowsOf id) (hevents : db'.queueOf id = db.queueOf id) :
    Adds id db db' [] :=
  ⟨hrows, [], hevents.trans (List.append_nil _).symm, fun _ h => absurd h List.not_mem_nil, rfl⟩

theorem refl (id : InstanceID) (db : Db) : Adds id db db [] := of_eq rfl rfl

theorem trans (h : Adds id db db' contents) (h' : Adds id db' db'' contents') :
    Adds id db db'' (contents ++ contents') := by
  obtain ⟨hrows, added, hevents, hnew, hcontents⟩ := h
  obtain ⟨hrows', added', hevents', hnew', hcontents'⟩ := h'
  refine ⟨hrows'.trans hrows, added ++ added', ?_, fun e he => ?_, ?_⟩
  · rw [hevents', hevents, List.append_assoc]
  · rcases List.mem_append.mp he with he | he
    · exact hnew e he
    · exact hnew' e he
  · rw [List.map_append, hcontents, hcontents']

theorem instance? (h : Adds id db db' contents) : db'.instance? id = db.instance? id := by
  have hrows : db'.instances.filter (·.instanceID = id) = db.instances.filter (·.instanceID = id) :=
    congrArg Prod.fst h.rows
  unfold Db.instance?
  rw [← List.head?_filter, ← List.head?_filter, hrows]

end Adds

/-- A message is added to the queue of its target. -/
theorem adds_insertNewEvent (db : Db) (id iid : InstanceID) (e : HistoryEvent) (visibleTime : Option Time)
    (executionID : Option String) (origin : Option Origin) :
    Adds id db (db.insertNewEvent iid e visibleTime executionID origin)
      (if iid = id then [(e, visibleTime)] else []) := by
  by_cases hid : iid = id
  · rw [if_pos hid]
    let row : EventRow :=
      { sequenceNumber := nextKey (db.newEvents.map EventRow.sequenceNumber)
        instanceID := iid, executionID := executionID, visibleTime := visibleTime
        event := e, uid := db.enqueued.length, origin := origin }
    refine ⟨rfl, [row], ?_, fun x hx => ?_, rfl⟩
    · unfold queueOf insertNewEvent
      rw [List.filter_append, List.filter_cons_of_pos (by simpa using hid), List.filter_nil]
    · rw [List.mem_singleton.mp hx]
      rfl
  · rw [if_neg hid]
    refine .of_eq rfl ?_
    unfold queueOf insertNewEvent
    rw [List.filter_append, List.filter_cons_of_neg (by simpa using hid), List.filter_nil,
      List.append_nil]

/-! ### Statements -/

theorem adds_foldl (id : InstanceID) {α : Type} {f : Db → α → Db} {g : α → List (HistoryEvent × Option Time)}
    (hf : ∀ db a, Adds id db (f db a) (g a)) (l : List α) (db : Db) :
    Adds id db (l.foldl f db) (l.flatMap g) := by
  induction l generalizing db with
  | nil => exact .refl id db
  | cons a l ih => exact (hf db a).trans (ih (f db a))

/-- When a timer fires. -/
def fireAt (timer : HistoryEvent) : Time :=
  match timer.eventType with
  | .timerFired tf => tf.fireAt
  | _ => 0

/-- What a work item queues for an instance besides child results: its timers, if they are its own, and
then its messages. -/
def outboxFor (wi : WorkflowWorkItem) (id : InstanceID) : List (HistoryEvent × Option Time) :=
  (if wi.instanceID = id then wi.state.pendingTimers.map fun e => (e, some (fireAt e)) else []) ++
    ((messages wi).filter (·.targetInstanceId = id)).map fun msg =>
      (msg.historyEvent,
        msg.historyEvent.getExecutionStarted.bind ExecutionStartedEvent.scheduledStartTimestamp)

theorem flatMap_ite {α β : Type} (p : α → Prop) [DecidablePred p] (f : α → β) (l : List α) :
    l.flatMap (fun a => if p a then [f a] else []) = (l.filter (p ·)).map f := by
  induction l with
  | nil => rfl
  | cons a l ih =>
    rw [List.flatMap_cons, ih]
    by_cases ha : p a <;> simp [ha]

theorem adds_enqueueOutbox (db : Db) (wi : WorkflowWorkItem) (origin : Origin) (id : InstanceID) :
    Adds id db (db.enqueueOutbox wi origin) (outboxFor wi id) := by
  have htimers := adds_foldl id
    (fun db e => adds_insertNewEvent db id wi.instanceID e (some (fireAt e)) none (some origin))
    wi.state.pendingTimers db
  have hmessages := adds_foldl id
    (fun db (msg : WorkflowRuntimeStateMessage) => adds_insertNewEvent db id msg.targetInstanceId
      msg.historyEvent
      (msg.historyEvent.getExecutionStarted.bind ExecutionStartedEvent.scheduledStartTimestamp) none
      (some origin)) (messages wi)
    (wi.state.pendingTimers.foldl (fun db e => db.enqueueTimer wi.instanceID origin e) db)
  rw [flatMap_ite] at htimers hmessages
  have hown : (wi.state.pendingTimers.filter fun _ => decide (wi.instanceID = id)).map
      (fun e => (e, some (fireAt e))) =
      if wi.instanceID = id then wi.state.pendingTimers.map fun e => (e, some (fireAt e)) else [] := by
    by_cases hid : wi.instanceID = id <;> simp [hid]
  rw [hown] at htimers
  exact htimers.trans hmessages

/-- Whether a child result is queued: its target still runs the execution it was captured for. -/
def admits (db : Db) (wi : WorkflowWorkItem) (msg : WorkflowRuntimeStateMessage) : Bool :=
  match childResultExecutionID wi.state msg.targetInstanceId, db.instance? msg.targetInstanceId with
  | .ok generation, some target => target.executionID = generation
  | _, _ => false

/-- The child results a work item queues for an instance. -/
def resultsFor (db : Db) (wi : WorkflowWorkItem) (id : InstanceID) : List (HistoryEvent × Option Time) :=
  ((childResults wi).filter fun msg => msg.targetInstanceId = id && db.admits wi msg).map fun msg =>
    (msg.historyEvent, none)

theorem admits_congr (h : db'.instances = db.instances) (wi : WorkflowWorkItem)
    (msg : WorkflowRuntimeStateMessage) : db'.admits wi msg = db.admits wi msg := by
  unfold admits Db.instance?
  rw [h]

/-- A workflow that is not its own parent has no child result for itself. -/
theorem resultsFor_of_parent {wi : WorkflowWorkItem}
    (h : ∀ p, wi.state.startEvent.bind ExecutionStartedEvent.parentInstance = some p →
      p.workflowInstance.instanceId ≠ wi.instanceID) : db.resultsFor wi wi.instanceID = [] := by
  unfold resultsFor
  rw [List.map_eq_nil_iff, List.filter_eq_nil_iff]
  rintro msg - hmsg
  obtain ⟨htarget, hadmits⟩ := Bool.and_eq_true_iff.mp hmsg
  have htarget : msg.targetInstanceId = wi.instanceID := of_decide_eq_true htarget
  unfold admits childResultExecutionID at hadmits
  cases hp : wi.state.startEvent.bind ExecutionStartedEvent.parentInstance with
  | none =>
    rw [hp, if_pos (.inr rfl)] at hadmits
    cases hadmits
  | some p =>
    rw [hp, if_pos (.inl (htarget ▸ h p hp))] at hadmits
    cases hadmits

theorem adds_enqueueChildResult {wi : WorkflowWorkItem} {origin : Origin}
    {msg : WorkflowRuntimeStateMessage} (h : db.enqueueChildResult wi origin msg = .ok db') (id : InstanceID) :
    db'.instances = db.instances ∧
      Adds id db db' (if msg.targetInstanceId = id ∧ db.admits wi msg = true then [(msg.historyEvent, none)]
        else []) := by
  obtain ⟨generation, hgen, ⟨target, htarget, hexec, rfl⟩ | ⟨hnot, hsame⟩⟩ := enqueueChildResult_eq h
  · have hadmits : db.admits wi msg = true := by
      unfold admits
      rw [hgen, htarget]
      exact decide_eq_true hexec
    have hadds := adds_insertNewEvent db id msg.targetInstanceId msg.historyEvent none
      (some target.executionID) (some origin)
    simp only [hadmits, and_true]
    exact ⟨rfl, hadds⟩
  · have hadmits : ¬db.admits wi msg = true := by
      unfold admits
      rw [hgen]
      split
      · next g target hg htarget =>
        cases hg
        exact fun h => hnot target htarget (of_decide_eq_true h)
      · exact Bool.false_ne_true
    rw [if_neg fun h => hadmits h.2, hsame]
    exact ⟨rfl, .refl id db⟩

theorem adds_childResults {wi : WorkflowWorkItem} {origin : Origin}
    (h : (childResults wi).foldlM (fun db' msg => db'.enqueueChildResult wi origin msg) db = .ok db')
    (id : InstanceID) : db'.instances = db.instances ∧ Adds id db db' (db.resultsFor wi id) := by
  have hfold (l : List WorkflowRuntimeStateMessage) {x y : Db} (hx : x.instances = db.instances)
      (hl : l.foldlM (fun db' msg => db'.enqueueChildResult wi origin msg) x = .ok y) :
      y.instances = db.instances ∧ Adds id x y ((l.filter fun msg => msg.targetInstanceId = id &&
        db.admits wi msg).map fun msg => (msg.historyEvent, none)) := by
    induction l generalizing x with
    | nil =>
      cases hl
      exact ⟨hx, .refl id _⟩
    | cons msg l ih =>
      rw [List.foldlM_cons] at hl
      obtain ⟨z, hz, hl⟩ := Except.bind_eq_ok.mp hl
      obtain ⟨hinst, hadds⟩ := adds_enqueueChildResult hz id
      obtain ⟨hinst', hadds'⟩ := ih (hinst.trans hx) hl
      refine ⟨hinst', ?_⟩
      rw [admits_congr hx] at hadds
      have hboth := hadds.trans hadds'
      by_cases hmsg : msg.targetInstanceId = id ∧ db.admits wi msg = true
      · rw [if_pos hmsg] at hboth
        rw [List.filter_cons_of_pos (by simpa using hmsg)]
        exact hboth
      · rw [if_neg hmsg] at hboth
        rw [List.filter_cons_of_neg (by simpa using hmsg)]
        exact hboth
  exact hfold (childResults wi) rfl h

/-! ### Starting instances -/

theorem adds_create {e : HistoryEvent} (h : db.createWorkflowInstanceInternal e = .ok db')
    (hid : ∀ es, e.getExecutionStarted = some es → es.workflowInstance.instanceId ≠ id) :
    Adds id db db' [] := by
  obtain ⟨r, -, -, hr, hrid, -, -, -, -, -, rfl⟩ := createWorkflowInstanceInternal_eq h
  refine .of_eq ?_ rfl
  have hne : r.instanceID ≠ id := hrid ▸ hid r.creation hr
  unfold rowsOf
  rw [List.filter_append, List.filter_cons_of_neg (by simpa using hne), List.filter_nil,
    List.append_nil]
  rfl

theorem adds_deleteInstance (db : Db) {id' : InstanceID} (hid : id' ≠ id) :
    Adds id db (db.deleteInstance id') [] := by
  have hother {α : Type} (f : α → InstanceID) (rows : List α) :
      (delete (fun r => decide (f r = id')) rows).filter (fun r => decide (f r = id)) =
        rows.filter fun r => decide (f r = id) :=
    filter_delete fun r _ h => decide_eq_false (of_decide_eq_true h ▸ Ne.symm hid)
  refine .of_eq ?_ (hother ..)
  exact Prod.ext (hother ..) (Prod.ext (hother ..) (Prod.ext (hother ..) (hother ..)))

/-- The turn starts a workflow with an id that is new or whose workflow has ended; what was queued for
that one is gone. -/
structure Recreates (id : InstanceID) (msg : WorkflowRuntimeStateMessage) (db db' : Db) : Prop where
  starts : msg.starts = some id
  ended : (db.instance? id).all (isPurgeable ·.runtimeStatus) = true
  cleared : (db.instance? id).isSome = true → db'.queueOf id = []

theorem adds_startInstance {msg : WorkflowRuntimeStateMessage} (h : db.startInstance msg = .ok db')
    (id : InstanceID) : Adds id db db' [] ∨ Recreates id msg db db' := by
  cases starts_of_ok h with
  | nothing => exact .inl (.refl id db)
  | creates hcreate =>
    by_cases hid : msg.starts = some id
    · obtain ⟨r, hnone, -, hr, hrid, -⟩ := createWorkflowInstanceInternal_eq hcreate
      have hself : r.instanceID = id := by
        unfold WorkflowRuntimeStateMessage.starts at hid
        rw [hr] at hid
        exact hrid.trans (Option.some.inj hid)
      rw [hself] at hnone
      exact .inr ⟨hid, hnone ▸ rfl, fun hsome => by rw [hnone] at hsome; cases hsome⟩
    · refine .inl (adds_create hcreate fun es hes heq => hid ?_)
      unfold WorkflowRuntimeStateMessage.starts
      rw [hes, ← heq]
      rfl
  | @replaces es r db' start row ended hcreate =>
    by_cases hid : es.workflowInstance.instanceId = id
    · subst hid
      refine .inr ⟨?_, ?_, fun _ => ?_⟩
      · unfold WorkflowRuntimeStateMessage.starts
        rw [start]
        rfl
      · rw [row]
        exact ended
      · obtain ⟨r', -, -, -, -, -, -, -, -, -, rfl⟩ := createWorkflowInstanceInternal_eq hcreate
        exact filter_delete_eq_nil fun _ _ hr => hr
    · refine .inl ((adds_deleteInstance db hid).trans (adds_create hcreate fun es' hes' => ?_))
      rw [start] at hes'
      cases hes'
      exact hid

theorem inbound_eq_filter (db : Db) (id : InstanceID) (t : String) :
    db.inbound id t = (db.queueOf id).filter (·.lockedBy = some t) := by
  unfold inbound queueOf
  rw [List.filter_filter]
  exact List.filter_congr fun e _ => Bool.and_comm _ _

/-- The instance of the work item is not started again: its events would be gone. -/
theorem adds_started_own {wi : WorkflowWorkItem} (h : (messages wi).foldlM startInstance db = .ok db')
    (hin : db'.inbound wi.instanceID wi.lockedBy ≠ [])
    (hsome : (db.instance? wi.instanceID).isSome = true) : Adds wi.instanceID db db' [] := by
  have hinv : Adds wi.instanceID db db' [] ∨ db'.inbound wi.instanceID wi.lockedBy = [] := by
    refine Except.foldlM_invariant (I := fun x => Adds wi.instanceID db x [] ∨
      x.inbound wi.instanceID wi.lockedBy = []) h (.inl (.refl _ db)) ?_
    rintro x msg y - (hx | hnone) hstep
    · rcases adds_startInstance hstep wi.instanceID with hy | hy
      · exact .inl (hx.trans hy)
      · right
        rw [inbound_eq_filter, hy.cleared (hx.instance? ▸ hsome), List.filter_nil]
    · right
      have hsub := (startInstance_enqueued hstep).2.2.filter
        fun e => e.instanceID = wi.instanceID && e.lockedBy = some wi.lockedBy
      unfold inbound at hnone ⊢
      rw [hnone] at hsub
      exact List.sublist_nil.mp hsub
  exact hinv.resolve_right hin

/-- Another instance is left alone or started again. -/
theorem adds_started_other {wi : WorkflowWorkItem} (h : (messages wi).foldlM startInstance db = .ok db')
    (id : InstanceID) :
    Adds id db db' [] ∨ ∃ msg ∈ messages wi, msg.starts = some id ∧
      (db.instance? id).all (isPurgeable ·.runtimeStatus) = true := by
  refine Except.foldlM_invariant (I := fun x => Adds id db x [] ∨ ∃ msg ∈ messages wi,
    msg.starts = some id ∧ (db.instance? id).all (isPurgeable ·.runtimeStatus) = true) h
    (.inl (.refl id db)) ?_
  rintro x msg y hmsg (hx | hcreated) hstep
  · rcases adds_startInstance hstep id with hy | hy
    · exact .inl (hx.trans hy)
    · exact .inr ⟨msg, hmsg, hy.starts, hx.instance? ▸ hy.ended⟩
  · exact .inr hcreated

/-! ### The whole commit -/

theorem newTasks_insertTasks (db : Db) (wi : WorkflowWorkItem) (origin : Origin) :
    ∃ added, (db.insertTasks wi origin).newTasks = db.newTasks ++ added ∧
      (∀ t ∈ added, t.instanceID = wi.instanceID ∧ t.lockedBy = none ∧ t.lockExpiration = none ∧
        t.dequeueCount = 0) ∧ added.map TaskRow.event = wi.state.pendingTasks := by
  unfold insertTasks
  induction wi.state.pendingTasks generalizing db with
  | nil => exact ⟨[], (List.append_nil _).symm, fun _ h => absurd h List.not_mem_nil, rfl⟩
  | cons e es ih =>
    obtain ⟨added, htasks, hnew, hevents⟩ := ih (db.insertNewTask wi.instanceID origin e)
    refine ⟨_ :: added, htasks.trans (List.append_assoc ..), fun t ht => ?_, ?_⟩
    · rcases List.mem_cons.mp ht with rfl | ht
      · exact ⟨rfl, rfl, rfl, rfl⟩
      · exact hnew t ht
    · rw [List.map_cons, hevents]

section Commit

variable {now : Time} {wi : WorkflowWorkItem} {db₁ db₂ db₃ : Db}

/-- The statements of a turn, up to its tasks, touch its own instance only. -/
theorem adds_commitInstance (db : Db) (now : Time) (hid : id ≠ wi.instanceID) :
    Adds id db (db.commitInstance now wi) [] := by
  refine .of_eq ?_ rfl
  have hinstances : (db.commitInstance now wi).instances.filter (·.instanceID = id) =
      db.instances.filter (·.instanceID = id) := by
    refine filter_update fun r _ hr => ?_
    have hr : r.instanceID ≠ id := of_decide_eq_true (Bool.and_eq_true_iff.mp hr).1 ▸ Ne.symm hid
    refine ⟨decide_eq_false hr, decide_eq_false ?_⟩
    rw [(InstanceRow.commit_frame now wi.state r).1]
    exact hr
  unfold rowsOf
  rw [hinstances]
  rfl

theorem adds_resetGeneration (db : Db) (hid : id ≠ wi.instanceID) :
    Adds id db (db.resetGeneration wi) [] := by
  unfold resetGeneration
  split
  · have hne {i : InstanceID} (hi : decide (i = id) = true) : i ≠ wi.instanceID :=
      of_decide_eq_true hi ▸ hid
    refine .of_eq ?_ ?_
    · refine Prod.ext rfl (Prod.ext ?_ (Prod.ext ?_ rfl))
      · exact filter_delete fun r _ hr => decide_eq_false (hne hr)
      · exact filter_delete fun r _ hr => decide_eq_false (hne hr)
    · refine filter_delete fun r _ hr => ?_
      rw [decide_eq_false (hne hr), Bool.false_and, Bool.false_and]
  · exact .refl id db

theorem adds_insertHistory {n : Nat} {events : List HistoryEvent}
    (h : db.insertHistory wi.instanceID n events = .ok db') (hid : id ≠ wi.instanceID) :
    Adds id db db' [] := by
  obtain ⟨-, rfl⟩ := insertHistory_eq h
  refine .of_eq (Prod.ext rfl (Prod.ext ?_ rfl)) rfl
  show (db.history ++ _).filter _ = _
  rw [List.filter_append, historyTable_historyRows_ne hid, List.append_nil]
  rfl

theorem adds_insertTasks (db : Db) (origin : Origin) (hid : id ≠ wi.instanceID) :
    Adds id db (db.insertTasks wi origin) [] := by
  obtain ⟨added, htasks, hnew, -⟩ := newTasks_insertTasks db wi origin
  obtain ⟨newTasks, hframe⟩ := insertTasks_frame db wi origin
  rw [hframe] at htasks ⊢
  refine .of_eq (Prod.ext rfl (Prod.ext rfl (Prod.ext ?_ rfl))) rfl
  show newTasks.filter _ = _
  have htasks : newTasks = db.newTasks ++ added := htasks
  have hnone : added.filter (·.instanceID = id) = [] := List.filter_eq_nil_iff.mpr fun t ht heq =>
    hid ((of_decide_eq_true heq).symm.trans (hnew t ht).1)
  rw [htasks, List.filter_append, hnone, List.append_nil]
  rfl

theorem adds_acknowledge (h : db.acknowledge wi = .ok db') (hid : id ≠ wi.instanceID) :
    Adds id db db' [] := by
  obtain ⟨-, rfl⟩ := acknowledge_eq h
  refine .of_eq rfl (filter_delete fun e _ he => ?_)
  unfold EventRow.isInbound
  rw [decide_eq_false (of_decide_eq_true he ▸ hid), Bool.false_and]

/-- Another instance gets what is addressed to it, unless the turn starts it again. -/
theorem Completes.other (hc : Completes db now wi db' db₁ db₂ db₃) (hid : id ≠ wi.instanceID) :
    (∃ results, Adds id db db' (results ++ outboxFor wi id)) ∨
      ∃ msg ∈ messages wi, msg.starts = some id ∧
        (db.instance? id).all (isPurgeable ·.runtimeStatus) = true := by
  have hturn : Adds id db (db₁.insertTasks wi (db.committing wi)) [] :=
    (((adds_commitInstance db now hid).trans (adds_resetGeneration _ hid)).trans
      (adds_insertHistory hc.inserted hid)).trans (adds_insertTasks db₁ _ hid)
  have hsent := hturn.trans (adds_childResults hc.results id).2
  rcases adds_started_other hc.started id with hstarted | ⟨msg, hmsg, hstarts, hended⟩
  · have hall := ((hsent.trans hstarted).trans (adds_enqueueOutbox db₃ wi _ id)).trans
      (adds_acknowledge hc.acknowledged hid)
    rw [List.append_nil, List.append_nil] at hall
    exact .inl ⟨_, hall⟩
  · exact .inr ⟨msg, hmsg, hstarts, hsent.instance? ▸ hended⟩

end Commit

end Db

end Sqlite

end DurableTask
