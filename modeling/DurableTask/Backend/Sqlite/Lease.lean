import DurableTask.Backend.Sqlite.System
import DurableTask.Lib.Except

/-!
# Leases

What the holder of a lease relies on: as long as its token is in the `Instances` row, no other
transaction touches the row, the history or the events it holds. So a lease that is still there when
its work item is completed has been there since the work item was acquired.
-/

namespace DurableTask.Sqlite

open Table

/-- What a commit leaves alone in the row of its instance. -/
theorem InstanceRow.commit_frame (now : Time) (state : WorkflowRuntimeState) (r : InstanceRow) :
    (r.commit now state).instanceID = r.instanceID ∧ (r.commit now state).lockedBy = r.lockedBy ∧
      (r.commit now state).born = r.born ∧ (r.commit now state).creation = r.creation := by
  unfold InstanceRow.commit
  dsimp only
  split <;> split <;> exact ⟨rfl, rfl, rfl, rfl⟩

/-- A task without its lock. -/
def TaskRow.bare (t : TaskRow) : TaskRow :=
  { t with lockedBy := none, lockExpiration := none, dequeueCount := 0 }

theorem TaskRow.eq_of_bare {t t' : TaskRow} (h : t.bare = t'.bare) :
    t.instanceID = t'.instanceID ∧ t.event = t'.event ∧ t.origin = t'.origin := by
  cases t
  cases t'
  injection h with hseq hid hcount hlock hexp hevent horigin
  exact ⟨hid, hevent, horigin⟩

namespace Db

variable {db db' db'' : Db} {id : InstanceID} {t : String}

theorem instanceID_of_instance? {r : InstanceRow} (h : db.instance? id = some r) :
    r.instanceID = id := by
  have h := List.find?_some h
  exact of_decide_eq_true h

/-- The `History` rows of an instance. -/
def historyTable (db : Db) (id : InstanceID) : List HistoryRow :=
  db.history.filter (·.instanceID = id)

/-- The queued events of an instance that a lease holds. -/
def inbound (db : Db) (id : InstanceID) (t : String) : List EventRow :=
  db.newEvents.filter fun e => e.instanceID = id && e.lockedBy = some t

/-- Whether a lease is in the row of an instance. -/
def leasedBy (db : Db) (id : InstanceID) (t : String) : Prop :=
  ∃ r, db.instance? id = some r ∧ r.lockedBy = some t

/-- A transaction that leaves alone what the holder of a lease relies on, unless it takes the lease. -/
def Keeps (t : String) (db db' : Db) : Prop :=
  ∀ id, db'.leasedBy id t → db'.instance? id = db.instance? id ∧
    db'.historyTable id = db.historyTable id ∧ db'.inbound id t = db.inbound id t

theorem Keeps.refl (t : String) (db : Db) : Keeps t db db := fun _ _ => ⟨rfl, rfl, rfl⟩

theorem Keeps.leasedBy (h : Keeps t db db') (hl : db'.leasedBy id t) : db.leasedBy id t := by
  obtain ⟨r, hr, ht⟩ := hl
  exact ⟨r, (h id ⟨r, hr, ht⟩).1 ▸ hr, ht⟩

theorem Keeps.trans (h : Keeps t db db') (h' : Keeps t db' db'') : Keeps t db db'' := by
  intro id hl
  obtain ⟨hrow, hhist, hin⟩ := h' id hl
  obtain ⟨hrow', hhist', hin'⟩ := h id (h'.leasedBy hl)
  exact ⟨hrow.trans hrow', hhist.trans hhist', hin.trans hin'⟩

instance : Trans (Keeps t) (Keeps t) (Keeps t) := ⟨Keeps.trans⟩

/-! ### Statements that leave instances and history alone -/

/-- Same instances and history, and the same events held by the lease. -/
theorem Keeps.of_same (hi : db'.instances = db.instances) (hh : db'.history = db.history)
    (hin : ∀ id, db'.inbound id t = db.inbound id t) : Keeps t db db' := by
  intro id _
  refine ⟨?_, ?_, hin id⟩
  · unfold instance?
    rw [hi]
  · unfold historyTable
    rw [hh]

theorem inbound_insertNewEvent (db : Db) (iid : InstanceID) (e : HistoryEvent)
    (visibleTime : Option Time) (executionID : Option String) (origin : Option Origin) :
    (db.insertNewEvent iid e visibleTime executionID origin).inbound id t = db.inbound id t := by
  unfold inbound insertNewEvent
  rw [List.filter_append, List.filter_cons_of_neg (by simp)]
  exact List.append_nil _

theorem keeps_insertNewEvent (db : Db) (iid : InstanceID) (e : HistoryEvent)
    (visibleTime : Option Time) (executionID : Option String) (origin : Option Origin) :
    Keeps t db (db.insertNewEvent iid e visibleTime executionID origin) :=
  .of_same rfl rfl fun _ => inbound_insertNewEvent ..

/-! ### Creating and cleaning up -/

theorem instance?_append (db : Db) (r : InstanceRow) (id : InstanceID) :
    ({ db with instances := db.instances ++ [r] } : Db).instance? id =
      (db.instance? id).or (if r.instanceID = id then some r else none) := by
  unfold instance?
  rw [List.find?_append, List.find?_cons]
  by_cases h : r.instanceID = id <;> simp [h]

/-- The row found after a row was added: one there was, or the new one. -/
theorem instance?_append_cases {r r' : InstanceRow}
    (h : ({ db with instances := db.instances ++ [r] } : Db).instance? id = some r') :
    db.instance? id = some r' ∨ db.instance? id = none ∧ r' = r := by
  rw [instance?_append] at h
  cases hold : db.instance? id with
  | some r₀ =>
    rw [hold] at h
    exact .inl h
  | none =>
    rw [hold, Option.none_or] at h
    split at h <;> cases h
    exact .inr ⟨rfl, rfl⟩

theorem createWorkflowInstanceInternal_eq {e : HistoryEvent}
    (h : db.createWorkflowInstanceInternal e = .ok db') :
    ∃ r, db.instance? r.instanceID = none ∧ r.lockedBy = none ∧
      e.getExecutionStarted = some r.creation ∧
      r.instanceID = r.creation.workflowInstance.instanceId ∧
      r.executionID = r.creation.workflowInstance.executionIdValue ∧ r.runtimeStatus = .pending ∧
      r.output = none ∧ r.failureDetails = none ∧ r.born = db.enqueued.length ∧
      db' = { db with instances := db.instances ++ [r] } := by
  unfold createWorkflowInstanceInternal at h
  split at h
  · cases h
  · next es hes =>
    split at h
    · cases h
    · next hnone =>
      cases h
      exact ⟨_, Option.not_isSome_iff_eq_none.mp hnone, rfl, hes, rfl, rfl, rfl, rfl, rfl, rfl, rfl⟩

theorem keeps_create {e : HistoryEvent} (h : db.createWorkflowInstanceInternal e = .ok db') :
    Keeps t db db' := by
  obtain ⟨r, hnone, hlock, -, -, -, -, -, -, -, rfl⟩ := createWorkflowInstanceInternal_eq h
  rintro id ⟨r', hr', ht⟩
  have hinst := instance?_append db r id
  refine ⟨?_, rfl, rfl⟩
  rw [hinst]
  by_cases hid : r.instanceID = id
  · subst hid
    rw [hinst, hnone, if_pos rfl] at hr'
    cases hr'
    rw [hlock] at ht
    cases ht
  · rw [if_neg hid, Option.or_none]

theorem instance?_deleteInstance (db : Db) (id' id : InstanceID) :
    (db.deleteInstance id').instance? id = if id = id' then none else db.instance? id := by
  by_cases hid : id = id'
  · rw [if_pos hid, hid]
    exact find?_delete_eq_none fun r _ h => h
  · rw [if_neg hid]
    exact find?_delete fun r _ h => decide_eq_false (of_decide_eq_true h ▸ hid)

theorem historyTable_deleteInstance (db : Db) {id' : InstanceID} (hid : id ≠ id') :
    (db.deleteInstance id').historyTable id = db.historyTable id :=
  filter_delete fun r _ h => decide_eq_false (of_decide_eq_true h ▸ hid)

theorem keeps_deleteInstance (db : Db) (id' : InstanceID) : Keeps t db (db.deleteInstance id') := by
  rintro id ⟨r, hr, -⟩
  have hinst := instance?_deleteInstance db id' id
  by_cases hid : id = id'
  · rw [hinst, if_pos hid] at hr
    cases hr
  · refine ⟨hinst.trans (if_neg hid), ?_, ?_⟩
    · exact historyTable_deleteInstance db hid
    · refine filter_delete fun r _ h => decide_eq_false ?_
      exact of_decide_eq_true (Bool.and_eq_true_iff.mp h).1 ▸ hid

theorem cleanup_eq {id' : InstanceID} {requireCompleted : Bool}
    (h : db.cleanupWorkflowStateInternal id' requireCompleted = .ok db') :
    db' = db.deleteInstance id' ∧ ∃ r, db.instance? id' = some r ∧
      (requireCompleted = true → isPurgeable r.runtimeStatus = true) := by
  unfold cleanupWorkflowStateInternal at h
  split at h
  · cases h
  · next r hr =>
    split at h
    · cases h
    · next hcond =>
      cases h
      refine ⟨rfl, r, hr, fun hreq => ?_⟩
      by_contra hnot
      exact hcond ⟨hreq, hnot⟩

/-- What the start of an instance does: nothing, a new instance, or a new one in place of one that has
ended. -/
inductive Starts (db : Db) (msg : WorkflowRuntimeStateMessage) : Db → Prop
  | nothing : Starts db msg db
  | creates {db' : Db} (h : db.createWorkflowInstanceInternal msg.historyEvent = .ok db') :
    Starts db msg db'
  | replaces {es : ExecutionStartedEvent} {r : InstanceRow} {db' : Db}
    (start : msg.historyEvent.getExecutionStarted = some es)
    (row : db.instance? es.workflowInstance.instanceId = some r)
    (ended : isPurgeable r.runtimeStatus = true)
    (h : (db.deleteInstance es.workflowInstance.instanceId).createWorkflowInstanceInternal
      msg.historyEvent = .ok db') : Starts db msg db'

theorem starts_of_ok {msg : WorkflowRuntimeStateMessage} (h : db.startInstance msg = .ok db') :
    Starts db msg db' := by
  unfold startInstance at h
  split at h
  · cases h
    exact .nothing
  · next es hes =>
    split at h
    · next created hcreated =>
      cases h
      exact .creates hcreated
    · split at h
      · split at h <;> cases h
        exact .nothing
      · next cleaned hcleanup =>
        obtain ⟨rfl, r, hr, hended⟩ := cleanup_eq hcleanup
        split at h
        · next created hcreated =>
          cases h
          exact .replaces hes hr (hended rfl) hcreated
        · next hfailed =>
          -- Once the old instance is deleted, the new one can be created.
          have hnone := instance?_deleteInstance db es.workflowInstance.instanceId
            es.workflowInstance.instanceId
          rw [if_pos rfl] at hnone
          simp [createWorkflowInstanceInternal, hes, hnone] at hfailed
    · cases h

/-- What deleting and creating an instance keep, starting an instance keeps. -/
theorem startInstance_invariant {I : Db → Prop} {msg : WorkflowRuntimeStateMessage}
    (h : db.startInstance msg = .ok db') (hdb : I db)
    (hdelete : ∀ x id, I x → I (x.deleteInstance id))
    (hcreate : ∀ x y, I x → x.createWorkflowInstanceInternal msg.historyEvent = .ok y → I y) :
    I db' := by
  cases starts_of_ok h with
  | nothing => exact hdb
  | creates hcreated => exact hcreate _ _ hdb hcreated
  | replaces _ _ _ hcreated => exact hcreate _ _ (hdelete _ _ hdb) hcreated

theorem keeps_startInstance {msg : WorkflowRuntimeStateMessage}
    (h : db.startInstance msg = .ok db') : Keeps t db db' :=
  startInstance_invariant (I := Keeps t db) h (.refl t db)
    (fun _ _ hx => hx.trans (keeps_deleteInstance _ _)) fun _ _ hx hy => hx.trans (keeps_create hy)

/-! ### Taking and giving back a lease -/

/-- What an acquisition does. -/
inductive Acquires (db : Db) (opts : SqliteOptions) (now : Time) (leaseToken : String) :
    Db → Option WorkflowWorkItem → Prop
  | idle : Acquires db opts now leaseToken db none
  | stale {row : InstanceRow} (next : db.nextInstance? now = some row)
    (dequeued : (db.batch row.instanceID now leaseToken).filter
      (!EventRow.isStale row.executionID ·) = []) :
    Acquires db opts now leaseToken
      { db with
        newEvents := db.lockBatch row now leaseToken
        instances := db.setLease row.instanceID none none } none
  | lease {row : InstanceRow} {wi : WorkflowWorkItem} (next : db.nextInstance? now = some row)
    (instanceID : wi.instanceID = row.instanceID) (lockedBy : wi.lockedBy = leaseToken)
    (newEvents : wi.newEvents = ((db.batch row.instanceID now leaseToken).filter
      (!EventRow.isStale row.executionID ·)).map EventRow.delivered)
    (nonempty : wi.newEvents ≠ [])
    (retryCount : wi.retryCount = ((db.batch row.instanceID now leaseToken).map
      EventRow.dequeueCount).foldl max 0 - 1) :
    Acquires db opts now leaseToken
      { db with
        newEvents := db.lockBatch row now leaseToken
        instances := db.setLease row.instanceID (some leaseToken)
          (some (now + opts.workflowLockTimeout)) } (some wi)

theorem acquires_of_getWorkflowWorkItem {opts : SqliteOptions} {now : Time} {leaseToken : String}
    {wi : Option WorkflowWorkItem}
    (h : db.getWorkflowWorkItem opts now leaseToken = .ok (db', wi)) :
    Acquires db opts now leaseToken db' wi := by
  unfold getWorkflowWorkItem at h
  split at h
  · cases h
    exact .idle
  · next row hrow =>
    obtain ⟨-, -, h⟩ := Except.bind_eq_ok.mp h
    dsimp only at h
    split at h
    · next hempty =>
      cases h
      exact .stale hrow (List.isEmpty_iff.mp hempty)
    · next hempty =>
      cases h
      refine .lease hrow rfl rfl rfl ?_ rfl
      intro hnil
      exact hempty (List.isEmpty_iff.mpr (List.map_eq_nil_iff.mp hnil))

theorem instance?_setLease (db : Db) (id' id : InstanceID) (lockedBy : Option String)
    (lockExpiration : Option Time) (newEvents : List EventRow) :
    ({ db with newEvents := newEvents, instances := db.setLease id' lockedBy lockExpiration } :
      Db).instance? id = (db.instance? id).map fun r =>
        if r.instanceID = id' then r.setLock lockedBy lockExpiration else r := by
  have h : (update (·.instanceID = id') (InstanceRow.setLock lockedBy lockExpiration)
      db.instances).find? (·.instanceID = id) = (db.instances.find? (·.instanceID = id)).map fun r =>
        if decide (r.instanceID = id') then r.setLock lockedBy lockExpiration else r :=
    find?_update fun _ => rfl
  simp only [decide_eq_true_eq] at h
  exact h

/-- The events another lease holds of another instance. -/
theorem inbound_lockBatch (db : Db) (row : InstanceRow) (now : Time) (leaseToken : String)
    (hid : id ≠ row.instanceID) :
    (db.lockBatch row now leaseToken).filter (fun e => e.instanceID = id && e.lockedBy = some t) =
      db.inbound id t := by
  unfold lockBatch
  dsimp only
  rw [filter_delete]
  · refine filter_updateFirst (fun r _ hdue => ?_) maxBatch
    have hr : r.instanceID = row.instanceID :=
      of_decide_eq_true (Bool.and_eq_true_iff.mp hdue).1
    have hne : decide (r.instanceID = id) = false := decide_eq_false (hr ▸ hid.symm)
    exact ⟨by rw [hne, Bool.false_and], by rw [show (EventRow.lock leaseToken r).instanceID =
      r.instanceID from rfl, hne, Bool.false_and]⟩
  · intro r _ hr
    have hr : r.instanceID = id := of_decide_eq_true (Bool.and_eq_true_iff.mp hr).1
    rw [decide_eq_false (show ¬r.instanceID = row.instanceID from hr ▸ hid), Bool.false_and,
      Bool.false_and]

/-- Setting a lease leaves every other lease alone, or takes it. -/
theorem keeps_setLease (db : Db) (row : InstanceRow) (now : Time) {leaseToken : String}
    {lockedBy : Option String} (lockExpiration : Option Time) (ht : lockedBy ≠ some t) :
    Keeps t db { db with
      newEvents := db.lockBatch row now leaseToken
      instances := db.setLease row.instanceID lockedBy lockExpiration } := by
  rintro id ⟨r, hr, hlock⟩
  have hinst := instance?_setLease db row.instanceID id lockedBy lockExpiration
    (db.lockBatch row now leaseToken)
  by_cases hid : id = row.instanceID
  · rw [hinst, Option.map_eq_some_iff] at hr
    obtain ⟨r', hr', hrr⟩ := hr
    have hid' : r'.instanceID = row.instanceID := (instanceID_of_instance? hr').trans hid
    rw [if_pos hid'] at hrr
    subst hrr
    exact absurd hlock ht
  · refine ⟨?_, rfl, inbound_lockBatch db row now leaseToken hid⟩
    rw [hinst]
    cases hr' : db.instance? id with
    | none => rfl
    | some r' =>
      rw [Option.map_some, if_neg (instanceID_of_instance? hr' ▸ hid)]

/-- An acquisition leaves every other lease alone, or takes it. -/
theorem keeps_getWorkflowWorkItem {opts : SqliteOptions} {now : Time} {leaseToken : String}
    {wi : Option WorkflowWorkItem}
    (h : db.getWorkflowWorkItem opts now leaseToken = .ok (db', wi)) (ht : t ≠ leaseToken) :
    Keeps t db db' := by
  cases acquires_of_getWorkflowWorkItem h with
  | idle => exact .refl t db
  | stale => exact keeps_setLease db _ now none nofun
  | lease => exact keeps_setLease db _ now _ fun h => ht (Option.some.inj h).symm

theorem abandon_eq {now : Time} {wi : WorkflowWorkItem}
    (h : db.abandonWorkflowWorkItem now wi = .ok db') :
    db.newEvents.any (EventRow.isInbound wi) = true ∧
      db.instances.any (InstanceRow.isLeased wi) = true ∧
      ∃ visibleTime, db' = { db with
        newEvents := update (EventRow.isInbound wi) (EventRow.unlock visibleTime) db.newEvents
        instances := update (InstanceRow.isLeased wi) (InstanceRow.setLock none none)
          db.instances } := by
  unfold abandonWorkflowWorkItem at h
  dsimp only at h
  split at h
  · cases h
  · next hin =>
    split at h
    · cases h
    · next hlease =>
      cases h
      exact ⟨by simpa using hin, by simpa using hlease, _, rfl⟩

/-- An update of a leased row. -/
theorem instance?_update_leased (db : Db) (wi : WorkflowWorkItem) (f : InstanceRow → InstanceRow)
    (hf : ∀ r, (f r).instanceID = r.instanceID) (id : InstanceID) :
    (update (InstanceRow.isLeased wi) f db.instances).find? (·.instanceID = id) =
      (db.instance? id).map fun r => if r.isLeased wi then f r else r :=
  find?_update (p := InstanceRow.isLeased wi) (q := (·.instanceID = id)) fun r => by rw [hf r]

theorem keeps_abandon {now : Time} {wi : WorkflowWorkItem}
    (h : db.abandonWorkflowWorkItem now wi = .ok db') (ht : t ≠ wi.lockedBy) : Keeps t db db' := by
  obtain ⟨-, -, visibleTime, rfl⟩ := abandon_eq h
  rintro id ⟨r, hr, hlock⟩
  have hinst := instance?_update_leased db wi (InstanceRow.setLock none none) (fun _ => rfl) id
  have hr := hinst.symm.trans hr
  obtain ⟨r', hr', rfl⟩ := Option.map_eq_some_iff.mp hr
  refine ⟨?_, rfl, ?_⟩
  · refine hinst.trans ?_
    rw [hr', Option.map_some]
    by_cases hl : r'.isLeased wi = true
    · rw [if_pos hl] at hlock
      cases hlock
    · rw [if_neg hl]
  · refine filter_update fun e _ he => ?_
    have he : e.lockedBy = some wi.lockedBy :=
      of_decide_eq_true (Bool.and_eq_true_iff.mp he).2
    refine ⟨?_, Bool.and_false _⟩
    rw [he, decide_eq_false (fun h => ht (Option.some.inj h).symm), Bool.and_false]

/-! ### Completing a work item -/

/-- The statements of a committed `CompleteWorkflowWorkItem`. -/
structure Completes (db : Db) (now : Time) (wi : WorkflowWorkItem) (db' db₁ db₂ db₃ : Db) : Prop where
  leased : db.instances.any (InstanceRow.isLeased wi) = true
  inserted : ((db.commitInstance now wi).resetGeneration wi).insertHistory wi.instanceID
    wi.state.oldEvents.length wi.state.newEvents = .ok db₁
  results : (childResults wi).foldlM (fun db' msg => db'.enqueueChildResult wi (db.committing wi) msg)
    (db₁.insertTasks wi (db.committing wi)) = .ok db₂
  started : (messages wi).foldlM startInstance db₂ = .ok db₃
  acknowledged : (db₃.enqueueOutbox wi (db.committing wi)).acknowledge wi = .ok db'

theorem completes_of_ok {now : Time} {wi : WorkflowWorkItem}
    (h : db.completeWorkflowWorkItem now wi = .ok db') :
    ∃ db₁ db₂ db₃, Completes db now wi db' db₁ db₂ db₃ := by
  unfold completeWorkflowWorkItem at h
  dsimp only at h
  split at h
  · cases h
  · next hleased =>
    obtain ⟨db₁, h₁, h⟩ := Except.bind_eq_ok.mp h
    obtain ⟨db₂, h₂, h⟩ := Except.bind_eq_ok.mp h
    obtain ⟨db₃, h₃, h⟩ := Except.bind_eq_ok.mp h
    exact ⟨db₁, db₂, db₃, by simpa using hleased, h₁, h₂, h₃, h⟩

theorem insertHistory_eq {n : Nat} {events : List HistoryEvent}
    (h : db.insertHistory id n events = .ok db') :
    (∀ r ∈ historyRows id n events, ∀ x ∈ db.history,
      ¬(x.instanceID = r.instanceID ∧ x.sequenceNumber = r.sequenceNumber)) ∧
      db' = { db with history := db.history ++ historyRows id n events } := by
  unfold insertHistory at h
  dsimp only at h
  split at h
  · cases h
  · next hconflict =>
    cases h
    refine ⟨fun r hr x hx hkey => hconflict ?_, rfl⟩
    exact List.any_eq_true.mpr ⟨r, hr, List.any_eq_true.mpr ⟨x, hx, decide_eq_true hkey⟩⟩

theorem enqueueChildResult_eq {wi : WorkflowWorkItem} {origin : Origin}
    {msg : WorkflowRuntimeStateMessage} (h : db.enqueueChildResult wi origin msg = .ok db') :
    ∃ generation, childResultExecutionID wi.state msg.targetInstanceId = .ok generation ∧
      ((∃ target, db.instance? msg.targetInstanceId = some target ∧
          target.executionID = generation ∧
          db' = db.insertNewEvent msg.targetInstanceId msg.historyEvent none (some target.executionID)
            (some origin)) ∨
        ((∀ target, db.instance? msg.targetInstanceId = some target →
          target.executionID ≠ generation) ∧ db' = db)) := by
  unfold enqueueChildResult at h
  obtain ⟨generation, hgen, h⟩ := Except.bind_eq_ok.mp h
  refine ⟨generation, hgen, ?_⟩
  split at h
  · next hnone =>
    cases h
    refine .inr ⟨fun target ht => ?_, rfl⟩
    rw [hnone] at ht
    cases ht
  · next target htarget =>
    obtain ⟨-, -, h⟩ := Except.bind_eq_ok.mp h
    split at h
    · next heq =>
      cases h
      exact .inl ⟨target, htarget, heq, rfl⟩
    · next hne =>
      cases h
      refine .inr ⟨fun target' ht' => ?_, rfl⟩
      rw [htarget] at ht'
      cases ht'
      exact hne

theorem acknowledge_eq {wi : WorkflowWorkItem} (h : db.acknowledge wi = .ok db') :
    db.newEvents.any (EventRow.isInbound wi) = true ∧
      db' = { db with newEvents := delete (EventRow.isInbound wi) db.newEvents } := by
  unfold acknowledge at h
  split at h
  · cases h
  · next hin =>
    cases h
    exact ⟨by simpa using hin, rfl⟩

/-- A transaction that only touches history and events of an instance with another lease. -/
theorem Keeps.of_own {own : InstanceID} {t' : String} (hl : db.leasedBy own t') (ht : t ≠ t')
    (hi : db'.instances = db.instances)
    (hsame : ∀ id ≠ own, db'.historyTable id = db.historyTable id ∧
      db'.inbound id t = db.inbound id t) : Keeps t db db' := by
  rintro id ⟨r, hr, hlock⟩
  have hrow : db'.instance? id = db.instance? id := by
    unfold instance?
    rw [hi]
  refine ⟨hrow, hsame id fun hid => ?_⟩
  obtain ⟨r', hr', hlock'⟩ := hl
  rw [hrow, hid, hr'] at hr
  cases hr
  rw [hlock'] at hlock
  exact ht (Option.some.inj hlock).symm

theorem instance?_commitInstance (db : Db) (now : Time) (wi : WorkflowWorkItem) (id : InstanceID) :
    (db.commitInstance now wi).instance? id =
      (db.instance? id).map fun r => if r.isLeased wi then r.commit now wi.state else r :=
  instance?_update_leased db wi (InstanceRow.commit now wi.state)
    (fun r => (InstanceRow.commit_frame now wi.state r).1) id

/-- The rows after a turn. -/
theorem instance?_turn {now : Time} {wi : WorkflowWorkItem} {n : Nat} {events : List HistoryEvent}
    (h : ((db.commitInstance now wi).resetGeneration wi).insertHistory wi.instanceID n events = .ok db')
    (id : InstanceID) : db'.instance? id =
      (db.instance? id).map fun r => if r.isLeased wi then r.commit now wi.state else r := by
  obtain ⟨-, rfl⟩ := insertHistory_eq h
  rw [← instance?_commitInstance]
  unfold resetGeneration
  split <;> rfl

theorem keeps_commitInstance (db : Db) (now : Time) {wi : WorkflowWorkItem} (ht : t ≠ wi.lockedBy) :
    Keeps t db (db.commitInstance now wi) := by
  rintro id ⟨r, hr, hlock⟩
  have hinst := instance?_commitInstance db now wi id
  obtain ⟨r', hr', rfl⟩ := Option.map_eq_some_iff.mp (hinst.symm.trans hr)
  refine ⟨?_, rfl, rfl⟩
  rw [hinst, hr', Option.map_some]
  by_cases hl : r'.isLeased wi = true
  · rw [if_pos hl, (InstanceRow.commit_frame now wi.state r').2.1] at hlock
    have hl : r'.lockedBy = some wi.lockedBy := of_decide_eq_true (Bool.and_eq_true_iff.mp hl).2
    exact absurd (Option.some.inj (hlock.symm.trans hl)) ht
  · rw [if_neg hl]

theorem keeps_resetGeneration {wi : WorkflowWorkItem} (hl : db.leasedBy wi.instanceID wi.lockedBy)
    (ht : t ≠ wi.lockedBy) : Keeps t db (db.resetGeneration wi) := by
  unfold resetGeneration
  split
  · refine .of_own hl ht rfl fun id hid => ⟨?_, ?_⟩
    · exact filter_delete fun r _ h => decide_eq_false (of_decide_eq_true h ▸ hid)
    · refine filter_delete fun r _ h => ?_
      have h : r.instanceID = id := of_decide_eq_true (Bool.and_eq_true_iff.mp h).1
      rw [h, decide_eq_false hid, Bool.false_and, Bool.false_and]
  · exact .refl t db

theorem historyTable_historyRows_ne {own : InstanceID} (hid : id ≠ own) (n : Nat)
    (events : List HistoryEvent) : (historyRows own n events).filter (·.instanceID = id) = [] := by
  induction events generalizing n with
  | nil => rfl
  | cons e es ih =>
    unfold historyRows
    rw [List.filter_cons_of_neg (by simpa using hid.symm), ih]

theorem keeps_insertHistory {wi : WorkflowWorkItem} {n : Nat} {events : List HistoryEvent}
    (hl : db.leasedBy wi.instanceID wi.lockedBy) (ht : t ≠ wi.lockedBy)
    (h : db.insertHistory wi.instanceID n events = .ok db') : Keeps t db db' := by
  obtain ⟨-, rfl⟩ := insertHistory_eq h
  refine .of_own hl ht rfl fun id hid => ⟨?_, rfl⟩
  unfold historyTable
  rw [List.filter_append, historyTable_historyRows_ne hid, List.append_nil]

theorem Keeps.foldl {α : Type} {f : Db → α → Db} (hf : ∀ db a, Keeps t db (f db a)) (l : List α)
    (db : Db) : Keeps t db (l.foldl f db) := by
  induction l generalizing db with
  | nil => exact .refl t db
  | cons a l ih => exact (hf db a).trans (ih (f db a))

theorem Keeps.foldlM {α : Type} {f : Db → α → Except StoreError Db} {l : List α}
    (hf : ∀ {db a db'}, f db a = .ok db' → Keeps t db db') (h : l.foldlM f db = .ok db') :
    Keeps t db db' :=
  Except.foldlM_invariant (I := Keeps t db) h (.refl t db) fun _ _ _ _ hx hstep => hx.trans (hf hstep)

theorem keeps_enqueueChildResult {wi : WorkflowWorkItem} {origin : Origin}
    {msg : WorkflowRuntimeStateMessage} (h : db.enqueueChildResult wi origin msg = .ok db') :
    Keeps t db db' := by
  obtain ⟨_, -, ⟨target, -, -, rfl⟩ | ⟨-, rfl⟩⟩ := enqueueChildResult_eq h
  · exact keeps_insertNewEvent _ _ _ _ _ _
  · exact .refl t _

theorem keeps_insertTasks (db : Db) (wi : WorkflowWorkItem) (origin : Origin) :
    Keeps t db (db.insertTasks wi origin) := by
  unfold insertTasks
  refine .foldl (fun db e => ?_) wi.state.pendingTasks db
  exact .of_same rfl rfl fun _ => rfl

theorem inbound_enqueueOutbox (db : Db) (wi : WorkflowWorkItem) (origin : Origin) :
    (db.enqueueOutbox wi origin).inbound id t = db.inbound id t := by
  unfold enqueueOutbox
  have htimers : (wi.state.pendingTimers.foldl (fun db e => db.enqueueTimer wi.instanceID origin e)
      db).inbound id t = db.inbound id t :=
    List.foldlRecOn (motive := fun db' : Db => db'.inbound id t = db.inbound id t) _ _ rfl
      fun db' h e _ => (inbound_insertNewEvent ..).trans h
  exact List.foldlRecOn (motive := fun db' : Db => db'.inbound id t = db.inbound id t) _ _ htimers
    fun db' h msg _ => (inbound_insertNewEvent ..).trans h

theorem keeps_enqueueOutbox (db : Db) (wi : WorkflowWorkItem) (origin : Origin) :
    Keeps t db (db.enqueueOutbox wi origin) := by
  unfold enqueueOutbox
  refine Keeps.trans (.foldl (fun db e => ?_) wi.state.pendingTimers db)
    (.foldl (fun db msg => ?_) (messages wi) _)
  · exact keeps_insertNewEvent _ _ _ _ _ _
  · exact keeps_insertNewEvent _ _ _ _ _ _

theorem keeps_acknowledge {wi : WorkflowWorkItem} (ht : t ≠ wi.lockedBy)
    (h : db.acknowledge wi = .ok db') : Keeps t db db' := by
  obtain ⟨-, rfl⟩ := acknowledge_eq h
  refine .of_same rfl rfl fun id => filter_delete fun r _ hr => ?_
  have hr : r.lockedBy = some t := of_decide_eq_true (Bool.and_eq_true_iff.mp hr).2
  unfold EventRow.isInbound
  rw [hr, decide_eq_false (fun h => ht (Option.some.inj h)), Bool.and_false]

/-- A work item that is completed leaves every other lease alone, or removes its instance. -/
theorem keeps_complete {now : Time} {wi : WorkflowWorkItem}
    (hl : db.leasedBy wi.instanceID wi.lockedBy) (ht : t ≠ wi.lockedBy)
    (h : db.completeWorkflowWorkItem now wi = .ok db') : Keeps t db db' := by
  obtain ⟨db₁, db₂, db₃, h⟩ := completes_of_ok h
  have hcommit : (db.commitInstance now wi).leasedBy wi.instanceID wi.lockedBy := by
    obtain ⟨r, hr, hlock⟩ := hl
    have hinst := instance?_commitInstance db now wi wi.instanceID
    rw [hr, Option.map_some] at hinst
    refine ⟨_, hinst, ?_⟩
    split
    · rw [(InstanceRow.commit_frame now wi.state r).2.1, hlock]
    · exact hlock
  have hreset : ((db.commitInstance now wi).resetGeneration wi).leasedBy wi.instanceID
      wi.lockedBy := by
    unfold resetGeneration
    split <;> exact hcommit
  calc Keeps t db (db.commitInstance now wi) := keeps_commitInstance db now ht
    Keeps t _ ((db.commitInstance now wi).resetGeneration wi) := keeps_resetGeneration hcommit ht
    Keeps t _ db₁ := keeps_insertHistory hreset ht h.inserted
    Keeps t _ (db₁.insertTasks wi (db.committing wi)) := keeps_insertTasks _ _ _
    Keeps t _ db₂ := .foldlM keeps_enqueueChildResult h.results
    Keeps t _ db₃ := .foldlM keeps_startInstance h.started
    Keeps t _ (db₃.enqueueOutbox wi (db.committing wi)) := keeps_enqueueOutbox _ _ _
    Keeps t _ db' := keeps_acknowledge ht h.acknowledged

/-! ### Clients and activities -/

theorem keeps_createWorkflowInstance {e : HistoryEvent}
    (h : db.createWorkflowInstance e = .ok db') : Keeps t db db' := by
  unfold createWorkflowInstance at h
  split at h
  · cases h
  · obtain ⟨created, hcreate, h⟩ := Except.bind_eq_ok.mp h
    cases h
    exact (keeps_create hcreate).trans (keeps_insertNewEvent _ _ _ _ _ _)

theorem addNewWorkflowEvent_eq {iid : InstanceID} {e : HistoryEvent}
    (h : db.addNewWorkflowEvent iid e = .ok db') :
    e.isChildResult = false ∧ db' = db.insertNewEvent iid e none none none := by
  unfold addNewWorkflowEvent at h
  split at h
  · cases h
  · next hchild =>
    cases h
    exact ⟨by simpa using hchild, rfl⟩

theorem addNewWorkflowEventWithExternalDelivery_eq {iid : InstanceID} {eventName deliveryID : String}
    {e : HistoryEvent}
    (h : db.addNewWorkflowEventWithExternalDelivery iid eventName deliveryID e = .ok db') :
    e.isChildResult = false ∧ ((⟨iid, eventName, deliveryID⟩ : DeliveryRow) ∈
        db.externalEventDeliveries ∧ db' = db ∨
      (⟨iid, eventName, deliveryID⟩ : DeliveryRow) ∉ db.externalEventDeliveries ∧
        db' = insertNewEvent { db with
          externalEventDeliveries := db.externalEventDeliveries ++ [⟨iid, eventName, deliveryID⟩] }
          iid e none none none) := by
  unfold addNewWorkflowEventWithExternalDelivery at h
  dsimp only at h
  split at h
  · cases h
  · next hchild =>
    refine ⟨by simpa using hchild, ?_⟩
    split at h
    · next hmem =>
      cases h
      exact .inl ⟨hmem, rfl⟩
    · next hmem =>
      cases h
      exact .inr ⟨hmem, rfl⟩

theorem keeps_delivery {iid : InstanceID} {eventName deliveryID : String} {e : HistoryEvent}
    (h : db.addNewWorkflowEventWithExternalDelivery iid eventName deliveryID e = .ok db') :
    Keeps t db db' := by
  obtain ⟨-, ⟨-, rfl⟩ | ⟨-, rfl⟩⟩ := addNewWorkflowEventWithExternalDelivery_eq h
  · exact .refl t _
  · exact .of_same rfl rfl fun _ => inbound_insertNewEvent ..

theorem completeActivityWorkItem_eq {wi : ActivityWorkItem} {result : HistoryEvent}
    (h : db.completeActivityWorkItem wi result = .ok db') :
    ∃ task, db.newTasks.find? (TaskRow.isHeld wi) = some task ∧
      db' = { db.insertNewEvent wi.instanceID result none none (some task.origin) with
        newTasks := delete (TaskRow.isHeld wi) db.newTasks } := by
  unfold completeActivityWorkItem at h
  split at h
  · cases h
  · next task htask =>
    cases h
    exact ⟨task, htask, rfl⟩

/-- Apart from their locks, tasks are left alone. -/
theorem abandonActivityWorkItem_eq {wi : ActivityWorkItem}
    (h : db.abandonActivityWorkItem wi = .ok db') :
    ∃ newTasks, db' = { db with newTasks := newTasks } ∧
      newTasks.map TaskRow.bare = db.newTasks.map TaskRow.bare := by
  unfold abandonActivityWorkItem at h
  split at h
  · cases h
  · cases h
    exact ⟨_, rfl, map_update fun _ => rfl⟩

theorem getActivityWorkItem_eq (db : Db) (opts : SqliteOptions) (now : Time) (leaseToken : String) :
    ∃ newTasks, (db.getActivityWorkItem opts now leaseToken).1 = { db with newTasks := newTasks } ∧
      newTasks.map TaskRow.bare = db.newTasks.map TaskRow.bare := by
  unfold getActivityWorkItem
  split
  · exact ⟨db.newTasks, rfl, rfl⟩
  · exact ⟨_, rfl, map_update fun _ => rfl⟩

end Db

end DurableTask.Sqlite
