import DurableTask.Backend.Answer
import DurableTask.Backend.Sqlite.History
import DurableTask.Backend.Sqlite.Queue

/-!
# Child results

The end of a child is queued for its parent at most once, in the transaction that commits the child's
completion, and for the execution of the parent that started it.
-/

namespace DurableTask.Sqlite

open Table

/-- A row that reports the end of an incarnation of a child. -/
def EventRow.answersFor (id : InstanceID) (born : Nat) (e : EventRow) : Bool :=
  e.event.isChildResult && e.origin.any fun o => o.instanceID = id && o.born = born

/-- A row that is addressed to a parent: its instance, its execution and the task that waits for the
child. -/
structure EventRow.AddressedTo (p : ParentInstanceInfo) (e : EventRow) : Prop where
  instanceID : e.instanceID = p.workflowInstance.instanceId
  executionID : e.executionID = some p.workflowInstance.executionIdValue
  taskScheduledId : e.event.resolution = some (.child, p.taskScheduledId)

namespace Db

variable {db db' : Db} {id : InstanceID}

/-- The child results an incarnation has queued so far. -/
def answers (db : Db) (id : InstanceID) (born : Nat) : List EventRow :=
  db.enqueued.filter (EventRow.answersFor id born)

/-- Every instance that has started has the parent it was created with, and has reported its end at most
once, and not before it ended. -/
structure Answered (db : Db) : Prop where
  started : ∀ id r, db.instance? id = some r → db.historyTable id ≠ [] →
    ∃ es, (db.getWorkflowRuntimeState id).startEvent = some es ∧
      es.parentInstance = r.creation.parentInstance
  once : ∀ id born, (db.answers id born).length ≤ 1
  pending : ∀ id r, db.instance? id = some r →
    (db.getWorkflowRuntimeState id).completedEvent = none → db.answers id r.born = []
  born : ∀ id r, db.instance? id = some r → r.born ≤ db.enqueued.length
  tasks : ∀ t ∈ db.newTasks, t.origin.born ≤ db.enqueued.length
  log : ∀ e ∈ db.enqueued, ∀ o, e.origin = some o → o.born < db.enqueued.length

/-! ### Statements -/

/-- Statements that neither create an instance nor add to a history or to the queue. -/
theorem Answered.of_frame (h : db.Answered) (hborn : NoneBorn db db')
    (hhist : ∀ id, db'.historyTable id = db.historyTable id) (hlog : db'.enqueued = db.enqueued)
    (htasks : ∀ t ∈ db'.newTasks, t.origin.born ≤ db.enqueued.length) : db'.Answered := by
  have hanswers (id : InstanceID) (born : Nat) : db'.answers id born = db.answers id born := by
    unfold answers
    rw [hlog]
  refine ⟨fun id r' hr' hne => ?_, fun id born => ?_, fun id r' hr' hnone => ?_, fun id r' hr' => ?_,
    fun t ht => ?_, ?_⟩
  · obtain ⟨r, hr, -, hc⟩ := hborn id r' hr'
    rw [getWorkflowRuntimeState_congr (hhist id), hc]
    exact h.started id r hr (hhist id ▸ hne)
  · rw [hanswers]
    exact h.once id born
  · obtain ⟨r, hr, hb, -⟩ := hborn id r' hr'
    rw [hanswers, hb]
    exact h.pending id r hr (getWorkflowRuntimeState_congr (hhist id) ▸ hnone)
  · obtain ⟨r, hr, hb, -⟩ := hborn id r' hr'
    rw [hb, hlog]
    exact h.born id r hr
  · rw [hlog]
    exact htasks t ht
  · rw [hlog]
    exact h.log

/-- A row that is queued: no child result, or the first one of an instance that has ended. -/
theorem Answered.insertNewEvent (h : db.Answered) (iid : InstanceID) {e : HistoryEvent}
    (visibleTime : Option Time) (executionID : Option String) {origin : Option Origin}
    (ho : ∀ o, origin = some o → o.born ≤ db.enqueued.length)
    (he : e.isChildResult = true → ∀ o, origin = some o →
      db.answers o.instanceID o.born = [] ∧ ∀ r, db.instance? o.instanceID = some r →
        (db.getWorkflowRuntimeState o.instanceID).completedEvent ≠ none) :
    (db.insertNewEvent iid e visibleTime executionID origin).Answered := by
  obtain ⟨row, hlog, -, hevent, -, horigin⟩ :=
    insertNewEvent_row db iid e visibleTime executionID origin
  have hlen : (db.insertNewEvent iid e visibleTime executionID origin).enqueued.length =
      db.enqueued.length + 1 := by
    rw [hlog, List.length_append]
    rfl
  -- Either the row answers for the incarnation, or its answers are those there were.
  have hanswers (id : InstanceID) (born : Nat) :
      (db.insertNewEvent iid e visibleTime executionID origin).answers id born = db.answers id born ∨
        ∃ o, origin = some o ∧ e.isChildResult = true ∧ o.instanceID = id ∧ o.born = born ∧
          (db.insertNewEvent iid e visibleTime executionID origin).answers id born =
            db.answers id born ++ [row] := by
    unfold answers
    rw [hlog, List.filter_append]
    cases hrow : EventRow.answersFor id born row with
    | false =>
      rw [List.filter_cons_of_neg (by rw [hrow]; exact nofun)]
      exact .inl (List.append_nil _)
    | true =>
      rw [List.filter_cons_of_pos hrow]
      unfold EventRow.answersFor at hrow
      rw [hevent, horigin, Bool.and_eq_true_iff, Option.any_eq_true_iff_get] at hrow
      obtain ⟨hchild, hsome, hfor⟩ := hrow
      obtain ⟨hid, hborn⟩ := Bool.and_eq_true_iff.mp hfor
      exact .inr ⟨origin.get hsome, Option.some_get hsome |>.symm, hchild, of_decide_eq_true hid,
        of_decide_eq_true hborn, rfl⟩
  refine ⟨h.started, fun id born => ?_, fun id r hr hnone => ?_, fun id r hr => ?_, fun t ht => ?_,
    fun x hx o hox => ?_⟩
  · rcases hanswers id born with heq | ⟨o, ho, hchild, rfl, rfl, heq⟩
    · rw [heq]
      exact h.once id born
    · rw [heq, (he hchild o ho).1]
      exact Nat.le_refl 1
  · rcases hanswers id r.born with heq | ⟨o, ho, hchild, rfl, -, -⟩
    · rw [heq]
      exact h.pending id r hr hnone
    · exact absurd hnone ((he hchild o ho).2 r hr)
  · rw [hlen]
    exact Nat.le_succ_of_le (h.born id r hr)
  · rw [hlen]
    exact Nat.le_succ_of_le (h.tasks t ht)
  · rw [hlen]
    rw [hlog] at hx
    rcases List.mem_append.mp hx with hx | hx
    · exact Nat.lt_succ_of_lt (h.log x hx o hox)
    · rw [List.mem_singleton.mp hx, horigin] at hox
      exact Nat.lt_succ_of_le (ho o hox)

theorem Answered.create {e : HistoryEvent} (h : db.Answered) (hdoc : db.Documented)
    (hcreate : db.createWorkflowInstanceInternal e = .ok db') : db'.Answered := by
  obtain ⟨r, hnone, -, -, -, -, -, -, -, hborn, rfl⟩ := createWorkflowInstanceInternal_eq hcreate
  refine ⟨fun id r' hr' hne => ?_, h.once, fun id r' hr' hpending => ?_, fun id r' hr' => ?_, h.tasks,
    h.log⟩
  · rcases instance?_append_cases hr' with hr' | ⟨hold, -⟩
    · exact h.started id r' hr' hne
    · exact absurd (hdoc.owned id hold) hne
  · rcases instance?_append_cases hr' with hr' | ⟨-, rfl⟩
    · exact h.pending id r' hr' hpending
    · -- No row was queued by an instance that did not exist.
      refine List.filter_eq_nil_iff.mpr fun x hx hfor => ?_
      unfold EventRow.answersFor at hfor
      rw [Bool.and_eq_true_iff, Option.any_eq_true_iff_get] at hfor
      obtain ⟨-, hsome, hfor⟩ := hfor
      have hb := of_decide_eq_true (Bool.and_eq_true_iff.mp hfor).2
      have hlt := h.log x hx _ (Option.some_get hsome).symm
      omega
  · rcases instance?_append_cases hr' with hr' | ⟨-, rfl⟩
    · exact h.born id r' hr'
    · exact hborn.le

theorem Answered.deleteInstance (h : db.Answered) (id' : InstanceID) :
    (db.deleteInstance id').Answered := by
  have hinst := instance?_deleteInstance db id'
  have hsome (id : InstanceID) (r : InstanceRow)
      (hr : (db.deleteInstance id').instance? id = some r) :
      db.instance? id = some r ∧ (db.deleteInstance id').historyTable id = db.historyTable id := by
    rw [hinst] at hr
    split at hr
    · cases hr
    · next hid =>
      exact ⟨hr, historyTable_deleteInstance db hid⟩
  refine ⟨fun id r hr hne => ?_, h.once, fun id r hr hnone => ?_, fun id r hr => ?_, fun t ht => ?_,
    h.log⟩
  · obtain ⟨hr, hhist⟩ := hsome id r hr
    rw [getWorkflowRuntimeState_congr hhist]
    exact h.started id r hr (hhist ▸ hne)
  · obtain ⟨hr, hhist⟩ := hsome id r hr
    exact h.pending id r hr (getWorkflowRuntimeState_congr hhist ▸ hnone)
  · exact h.born id r (hsome id r hr).1
  · exact h.tasks t (List.mem_of_mem_filter ht)

theorem Answered.startInstance {msg : WorkflowRuntimeStateMessage} (h : db.Answered)
    (hdoc : db.Documented) (hstart : db.startInstance msg = .ok db') : db'.Answered := by
  have hanswered := startInstance_invariant (I := fun x => x.Answered ∧ x.Documented) hstart ⟨h, hdoc⟩
    (fun x id hx => ⟨hx.1.deleteInstance id, hx.2.delete id⟩)
    fun x y hx hcreate => ⟨hx.1.create hx.2 hcreate, hx.2.create hcreate⟩
  exact hanswered.1

/-! ### A commit -/

/-- What is known of a processed work item: it was dropped, or the workflow had not completed and it
answers the parent the instance was created with. -/
structure Answering (db : Db) (wi : WorkflowWorkItem) : Prop where
  processed : Processed db wi
  answer : ∀ r, db.instance? wi.instanceID = some r →
    (∃ msgs, wi.state =
        { db.getWorkflowRuntimeState wi.instanceID with pendingMessages := msgs } ∧
      wi.state.childResults = []) ∨
    (db.getWorkflowRuntimeState wi.instanceID).completedEvent = none ∧
      Answers r.creation.parentInstance wi.state

section Commit

variable {now : Time} {wi : WorkflowWorkItem} {r : InstanceRow}

theorem Answering.timers (h : Answering db wi) (hr : db.instance? wi.instanceID = some r) :
    ∀ e ∈ wi.state.pendingTimers, e.isChildResult = false := by
  rcases h.answer r hr with ⟨msgs, heq, -⟩ | ⟨-, hanswers⟩
  · rw [heq]
    have hnone : (db.getWorkflowRuntimeState wi.instanceID).pendingTimers = [] :=
      (WorkflowRuntimeState.new_frame _ _ _).2.1
    intro e he
    have he : e ∈ (db.getWorkflowRuntimeState wi.instanceID).pendingTimers := he
    rw [hnone] at he
    cases he
  · exact hanswers.timers

theorem Answered.turn (h : db.Answered) (hdoc : db.Documented) (held : Answering db wi)
    (hturn : ((db.commitInstance now wi).resetGeneration wi).insertHistory wi.instanceID
      wi.state.oldEvents.length wi.state.newEvents = .ok db') : db'.Answered := by
  have hborn := noneBorn_turn hturn
  obtain ⟨hown, hother⟩ := historyTable_turn hturn
  obtain ⟨hstart, hcompleted⟩ := held.processed.load (hdoc.recorded _) hturn
  obtain ⟨-, hevents⟩ := held.processed.recorded (hdoc.recorded wi.instanceID)
  have hlog : db'.enqueued = db.enqueued ∧ db'.newTasks.Sublist db.newTasks := by
    obtain ⟨-, rfl⟩ := insertHistory_eq hturn
    unfold resetGeneration
    split
    · exact ⟨rfl, List.filter_sublist⟩
    · exact ⟨rfl, .refl _⟩
  have hanswers (id : InstanceID) (born : Nat) : db'.answers id born = db.answers id born := by
    unfold answers
    rw [hlog.1]
  refine ⟨fun id r' hr' hne => ?_, fun id born => ?_, fun id r' hr' hnone => ?_, fun id r' hr' => ?_,
    fun t ht => ?_, ?_⟩
  · obtain ⟨r₀, hr₀, -, hcreation⟩ := hborn id r' hr'
    rw [hcreation]
    by_cases hid : id = wi.instanceID
    · subst hid
      rw [hstart]
      rcases held.answer r₀ hr₀ with ⟨msgs, heq, -⟩ | ⟨-, hanswers⟩
      · rw [heq]
        refine h.started _ r₀ hr₀ fun hempty => hne ?_
        -- A dropped work item leaves the history as it was.
        have hload : (db.getWorkflowRuntimeState wi.instanceID).allEvents = [] := by
          rw [(hdoc.recorded _).getWorkflowRuntimeState, hempty]
          rfl
        rw [hown]
        refine List.map_eq_nil_iff.mp (hevents.trans ?_)
        rw [heq]
        exact hload
      · exact hanswers.parent
    · rw [getWorkflowRuntimeState_congr (hother id hid)]
      exact h.started id r₀ hr₀ (hother id hid ▸ hne)
  · rw [hanswers]
    exact h.once id born
  · obtain ⟨r₀, hr₀, hb, -⟩ := hborn id r' hr'
    rw [hanswers, hb]
    refine h.pending id r₀ hr₀ ?_
    by_cases hid : id = wi.instanceID
    · subst hid
      rcases held.answer r₀ hr₀ with ⟨msgs, heq, -⟩ | ⟨hincomplete, -⟩
      · rw [hcompleted, heq] at hnone
        exact hnone
      · exact hincomplete
    · exact getWorkflowRuntimeState_congr (hother id hid) ▸ hnone
  · obtain ⟨r₀, hr₀, hb, -⟩ := hborn id r' hr'
    rw [hb, hlog.1]
    exact h.born id r₀ hr₀
  · rw [hlog.1]
    exact h.tasks t (hlog.2.mem ht)
  · rw [hlog.1]
    exact h.log

/-- Whether the row of a parent still carries the execution that started a child. -/
def Carries (db : Db) (p : ParentInstanceInfo) : Prop :=
  ∃ target, db.instance? p.workflowInstance.instanceId = some target ∧
    target.executionID = p.workflowInstance.executionIdValue

instance (db : Db) (p : ParentInstanceInfo) : Decidable (db.Carries p) :=
  decidable_of_iff ((db.instance? p.workflowInstance.instanceId).any
    fun target => target.executionID = p.workflowInstance.executionIdValue)
    (by simp [Carries, Option.any_eq_true])

theorem childResultExecutionID_eq {state : WorkflowRuntimeState} {target : InstanceID}
    {generation : String} (h : childResultExecutionID state target = .ok generation) :
    ∃ p, state.startEvent.bind ExecutionStartedEvent.parentInstance = some p ∧
      p.workflowInstance.instanceId = target ∧ p.workflowInstance.executionIdValue = generation := by
  unfold childResultExecutionID at h
  dsimp only at h
  cases hp : state.startEvent.bind ExecutionStartedEvent.parentInstance with
  | none =>
    rw [hp] at h
    split at h
    · cases h
    · next hne => exact absurd (.inr rfl) hne
  | some p =>
    rw [hp] at h
    split at h
    · cases h
    · next hne =>
      cases h
      exact ⟨p, rfl, by simpa using (not_or.mp hne).1, rfl⟩

/-- The child result a commit queues: none if the workflow has no parent, does not end in this turn, or
the parent has moved on. -/
inductive Replies (db : Db) (now : Time) (wi : WorkflowWorkItem) (r : InstanceRow) :
    List EventRow → Prop
  | silent (why : ∀ p, r.creation.parentInstance = some p →
      (db.getWorkflowRuntimeState wi.instanceID).completedEvent = none →
      wi.state.completedEvent ≠ none → ¬(db.commitInstance now wi).Carries p) : Replies db now wi r []
  | reply {p : ParentInstanceInfo} {row : EventRow} (parent : r.creation.parentInstance = some p)
    (addressed : row.AddressedTo p) (origin : row.origin = some (db.committing wi))
    (incomplete : (db.getWorkflowRuntimeState wi.instanceID).completedEvent = none)
    (completed : wi.state.completedEvent ≠ none) : Replies db now wi r [row]

theorem resolution_childResult {e : HistoryEvent} {taskScheduledId : ActionID}
    {c : CompleteWorkflowAction} (h : e.eventType = Applier.childResult taskScheduledId c) :
    e.resolution = some (.child, taskScheduledId) := by
  unfold HistoryEvent.resolution
  rw [h, Applier.childResult]
  by_cases hc : c.workflowStatus = .completed
  · rw [if_pos hc]
  · rw [if_neg hc]

theorem isChildResult_of_resolution {e : HistoryEvent} {taskScheduledId : ActionID}
    (h : e.resolution = some (.child, taskScheduledId)) : e.isChildResult = true := by
  unfold HistoryEvent.resolution at h
  unfold HistoryEvent.isChildResult
  generalize e.eventType = eventType at h ⊢
  cases eventType <;> first | rfl | cases h

/-- The messages of a processed work item that report an end: none, or one of a completion that was
made in this turn. -/
theorem Answering.childResults (h : Answering db wi) (hr : db.instance? wi.instanceID = some r) :
    (wi.state.childResults = [] ∧ ((db.getWorkflowRuntimeState wi.instanceID).completedEvent = none →
      wi.state.completedEvent ≠ none → r.creation.parentInstance = none)) ∨
    ∃ c p m, wi.state.childResults = [m] ∧ r.creation.parentInstance = some p ∧
      wi.state.startEvent.bind ExecutionStartedEvent.parentInstance = some p ∧
      Applier.Reports c p m ∧
      (db.getWorkflowRuntimeState wi.instanceID).completedEvent = none ∧
      wi.state.completedEvent ≠ none := by
  rcases h.answer r hr with ⟨msgs, heq, hnone⟩ | ⟨hincomplete, hanswers⟩
  · refine .inl ⟨hnone, fun hincomplete hcompleted => ?_⟩
    rw [heq] at hcompleted
    exact absurd hincomplete hcompleted
  · obtain ⟨es, hes, hp⟩ := hanswers.parent
    rcases hanswers.answer with ⟨hincomplete', hnone⟩ | ⟨c, hcompleted, hreported⟩
    · exact .inl ⟨hnone, fun _ hcompleted => absurd hincomplete' hcompleted⟩
    · generalize hmsgs : wi.state.childResults = msgs at hreported
      cases hreported with
      | none root =>
        rw [hes] at root
        exact .inl ⟨rfl, fun _ _ => hp.symm.trans root⟩
      | @parent p m child reports =>
        refine .inr ⟨c, p, m, rfl, ?_, child, reports, hincomplete, ?_⟩
        · rw [hes] at child
          exact hp.symm.trans child
        · rw [hcompleted]
          exact nofun

/-- The instances a commit sees after its own update. -/
theorem instance?_beforeResults {db₁ : Db}
    (hturn : ((db.commitInstance now wi).resetGeneration wi).insertHistory wi.instanceID
      wi.state.oldEvents.length wi.state.newEvents = .ok db₁) (origin : Origin) (id : InstanceID) :
    (db₁.insertTasks wi origin).instance? id = (db.commitInstance now wi).instance? id := by
  obtain ⟨newTasks, heq⟩ := insertTasks_frame db₁ wi origin
  rw [heq]
  obtain ⟨-, rfl⟩ := insertHistory_eq hturn
  unfold resetGeneration
  split <;> rfl

/-- The child results of a commit, one message at most. -/
theorem Answering.results (held : Answering db wi) (hr : db.instance? wi.instanceID = some r)
    {db₁ db₂ : Db} (hturn : ((db.commitInstance now wi).resetGeneration wi).insertHistory wi.instanceID
      wi.state.oldEvents.length wi.state.newEvents = .ok db₁)
    (hresults : (Db.childResults wi).foldlM
      (fun db' msg => db'.enqueueChildResult wi (db.committing wi) msg)
      (db₁.insertTasks wi (db.committing wi)) = .ok db₂) :
    db₂ = db₁.insertTasks wi (db.committing wi) ∧ Replies db now wi r [] ∨
      ∃ iid e executionID row, e.isChildResult = true ∧
        db₂ = (db₁.insertTasks wi (db.committing wi)).insertNewEvent iid e none executionID
          (some (db.committing wi)) ∧
        db₂.enqueued = (db₁.insertTasks wi (db.committing wi)).enqueued ++ [row] ∧
        Replies db now wi r [row] := by
  rcases held.childResults hr with
    ⟨hnone, hroot⟩ | ⟨c, p, m, hone, hparent, hstart, hreports, hincomplete, hcompleted⟩
  · rw [show Db.childResults wi = [] from hnone] at hresults
    cases hresults
    refine .inl ⟨rfl, .silent fun p hp hincomplete hcompleted => ?_⟩
    rw [hroot hincomplete hcompleted] at hp
    cases hp
  · rw [show Db.childResults wi = [m] from hone, List.foldlM_cons] at hresults
    obtain ⟨db₃, hstep, hend⟩ := Except.bind_eq_ok.mp hresults
    cases hend
    obtain ⟨generation, hgen, htarget⟩ := enqueueChildResult_eq hstep
    obtain ⟨p', hp', hid, hexec⟩ := childResultExecutionID_eq hgen
    rw [hstart] at hp'
    cases hp'
    rcases htarget with ⟨target, htarget, heq, rfl⟩ | ⟨hmoved, rfl⟩
    · obtain ⟨row, hlog, hiid, hevent, hexecID, horigin⟩ := insertNewEvent_row
        (db₁.insertTasks wi (db.committing wi)) m.targetInstanceId m.historyEvent none
        (some target.executionID) (some (db.committing wi))
      refine .inr ⟨_, _, _, row, Applier.isChildResult_childResult hreports.eventType, rfl, hlog,
        .reply hparent ⟨?_, ?_, ?_⟩ horigin hincomplete hcompleted⟩
      · rw [hiid, hid]
      · rw [hexecID, heq, hexec]
      · rw [hevent]
        exact resolution_childResult hreports.eventType
    · refine .inl ⟨rfl, .silent ?_⟩
      rintro p' hp' - - ⟨target, htarget, heq⟩
      rw [hparent] at hp'
      cases hp'
      rw [← instance?_beforeResults hturn (db.committing wi), hid] at htarget
      exact hmoved target htarget (heq.trans hexec)

theorem committing_eq (hr : db.instance? wi.instanceID = some r) :
    (db.committing wi).instanceID = wi.instanceID ∧ (db.committing wi).born = r.born := by
  refine ⟨rfl, ?_⟩
  unfold committing
  rw [hr]
  rfl

theorem insertTasks_origin (db : Db) (wi : WorkflowWorkItem) (origin : Origin) :
    ∀ t ∈ (db.insertTasks wi origin).newTasks, t ∈ db.newTasks ∨ t.origin = origin := by
  unfold insertTasks
  refine List.foldlRecOn (motive := fun db' : Db =>
    ∀ t ∈ db'.newTasks, t ∈ db.newTasks ∨ t.origin = origin) _ _ (fun t ht => .inl ht) ?_
  intro db' h e _ t ht
  rcases List.mem_append.mp ht with ht | ht
  · exact h t ht
  · rw [List.mem_singleton.mp ht]
    exact .inr rfl

theorem enqueued_beforeResults {db₁ : Db}
    (hturn : ((db.commitInstance now wi).resetGeneration wi).insertHistory wi.instanceID
      wi.state.oldEvents.length wi.state.newEvents = .ok db₁) (origin : Origin) :
    (db₁.insertTasks wi origin).enqueued = db.enqueued ∧
      ∀ id, (db₁.insertTasks wi origin).historyTable id = db₁.historyTable id := by
  obtain ⟨newTasks, heq⟩ := insertTasks_frame db₁ wi origin
  rw [heq]
  obtain ⟨-, rfl⟩ := insertHistory_eq hturn
  refine ⟨?_, fun _ => rfl⟩
  unfold resetGeneration
  split <;> rfl

/-- The outbox of a commit holds no child result. -/
theorem Answered.enqueueOutbox {origin : Origin} (h : db.Answered)
    (ho : origin.born ≤ db.enqueued.length)
    (htimers : ∀ e ∈ wi.state.pendingTimers, e.isChildResult = false) :
    (db.enqueueOutbox wi origin).Answered := by
  let I (db : Db) : Prop := db.Answered ∧ origin.born ≤ db.enqueued.length
  have hinsert {db : Db} {iid : InstanceID} {e : HistoryEvent} {visibleTime : Option Time} (h : I db)
      (he : e.isChildResult = false) :
      I (db.insertNewEvent iid e visibleTime none (some origin)) := by
    refine ⟨h.1.insertNewEvent _ _ _ (fun o ho => ?_) fun hchild => ?_, ?_⟩
    · cases ho
      exact h.2
    · rw [he] at hchild
      cases hchild
    · obtain ⟨row, hlog, -⟩ := insertNewEvent_row db iid e visibleTime none (some origin)
      rw [hlog, List.length_append]
      exact Nat.le_add_right_of_le h.2
  have hout : I (db.enqueueOutbox wi origin) := by
    unfold Db.enqueueOutbox
    refine List.foldlRecOn (motive := I) _ _ ?_ fun db' h msg hmsg => hinsert h ?_
    · exact List.foldlRecOn (motive := I) _ _ ⟨h, ho⟩ fun db' h e he => hinsert h (htimers e he)
    · have hmsg := (List.mem_filter.mp hmsg).2
      simpa [WorkflowRuntimeStateMessage.isChildResult] using hmsg
  exact hout.1

theorem Answered.complete (h : db.Answered) (hdoc : db.Documented)
    (hleased : db.leasedBy wi.instanceID wi.lockedBy) (held : Answering db wi)
    (hcomplete : db.completeWorkflowWorkItem now wi = .ok db') : db'.Answered := by
  obtain ⟨db₁, db₂, db₃, hc⟩ := completes_of_ok hcomplete
  obtain ⟨r, hr, -⟩ := id hleased
  obtain ⟨hoid, hob⟩ := committing_eq hr
  have hborn : (db.committing wi).born ≤ db.enqueued.length := hob ▸ h.born _ r hr
  have hturn := hc.inserted
  have hanswered₁ := h.turn hdoc held hturn
  have hdoc₁ := hdoc.turn hleased held.processed hturn
  obtain ⟨hlog, hhist⟩ := enqueued_beforeResults hturn (db.committing wi)
  have htasks : (db₁.insertTasks wi (db.committing wi)).Answered ∧
      (db₁.insertTasks wi (db.committing wi)).Documented := by
    have hmem := insertTasks_origin db₁ wi (db.committing wi)
    obtain ⟨newTasks, heq⟩ := insertTasks_frame db₁ wi (db.committing wi)
    rw [heq] at hlog hmem ⊢
    have hlog : db₁.enqueued = db.enqueued := hlog
    refine ⟨hanswered₁.of_frame (.of_eq rfl) (fun _ => rfl) rfl fun t ht => ?_,
      hdoc₁.ledger (.queues rfl rfl)⟩
    rcases hmem t ht with ht | ht
    · exact hanswered₁.tasks t ht
    · rw [ht, hlog]
      exact hborn
  have hresults : db₂.Answered ∧ db₂.Documented ∧ (db.committing wi).born ≤ db₂.enqueued.length := by
    rcases held.results hr hturn hc.results with
      ⟨rfl, -⟩ | ⟨iid, e, executionID, row, he, rfl, hlog₂, hreply⟩
    · exact ⟨htasks.1, htasks.2, hlog ▸ hborn⟩
    · refine ⟨htasks.1.insertNewEvent _ _ _ (fun o ho => ?_) fun _ o ho => ?_,
        htasks.2.ledger (.queues rfl rfl), ?_⟩
      · cases ho
        exact hlog ▸ hborn
      · cases ho
        cases hreply with
        | reply parent addressed origin incomplete completed =>
          refine ⟨?_, fun r' hr' => ?_⟩
          · -- The workflow had not completed, so nothing was reported yet.
            unfold answers
            rw [hlog, hob]
            exact h.pending _ r hr incomplete
          · rw [hoid, getWorkflowRuntimeState_congr (hhist wi.instanceID),
              (held.processed.load (hdoc.recorded _) hturn).2]
            exact completed
      · rw [hlog₂, hlog, List.length_append]
        exact Nat.le_add_right_of_le hborn
  have hstarted : db₃.Answered ∧ db₃.Documented ∧
      (db.committing wi).born ≤ db₃.enqueued.length := by
    refine Except.foldlM_invariant (I := fun db' : Db => db'.Answered ∧ db'.Documented ∧
      (db.committing wi).born ≤ db'.enqueued.length) hc.started hresults fun x msg y _ hx hstep => ?_
    obtain ⟨ha, hd, hb⟩ := hx
    refine ⟨ha.startInstance hd hstep, hd.ledgers (ledgers_startInstance hstep), ?_⟩
    rw [(startInstance_enqueued hstep).1]
    exact hb
  have hout := hstarted.1.enqueueOutbox hstarted.2.2 (held.timers hr)
  obtain ⟨-, rfl⟩ := acknowledge_eq hc.acknowledged
  exact hout.of_frame (.of_eq rfl) (fun _ => rfl) rfl hout.tasks

/-- The rows a commit queues: at most one child result, and then no other. -/
theorem Answering.enqueued (held : Answering db wi) (hr : db.instance? wi.instanceID = some r)
    (hcomplete : db.completeWorkflowWorkItem now wi = .ok db') :
    ∃ rows outbox, db'.enqueued = db.enqueued ++ (rows ++ outbox) ∧ Replies db now wi r rows ∧
      ∀ e ∈ outbox, e.event.isChildResult = false := by
  obtain ⟨db₁, db₂, db₃, hc⟩ := completes_of_ok hcomplete
  have hresults : ∃ rows, db₂.enqueued = db.enqueued ++ rows ∧ Replies db now wi r rows := by
    have hlog := (enqueued_beforeResults hc.inserted (db.committing wi)).1
    rcases held.results hr hc.inserted hc.results with
      ⟨rfl, hreply⟩ | ⟨iid, e, executionID, row, -, -, hlog₂, hreply⟩
    · exact ⟨[], hlog.trans (List.append_nil _).symm, hreply⟩
    · exact ⟨[row], hlog₂.trans (congrArg (· ++ [row]) hlog), hreply⟩
  have hstarted : db₃.enqueued = db₂.enqueued :=
    Except.foldlM_invariant (I := fun x : Db => x.enqueued = db₂.enqueued) hc.started rfl
      fun x msg y _ hx hstep => (startInstance_enqueued hstep).1.trans hx
  obtain ⟨rows, hlog, hreply⟩ := hresults
  obtain ⟨outbox, hout, hnot⟩ := enqueueOutbox_enqueued db₃ (db.committing wi) (held.timers hr)
  obtain ⟨-, rfl⟩ := acknowledge_eq hc.acknowledged
  refine ⟨rows, outbox, ?_, hreply, fun e he => (hnot e he).1⟩
  have hout : (db₃.enqueueOutbox wi (db.committing wi)).enqueued =
      db.enqueued ++ (rows ++ outbox) := by
    rw [hout, hstarted, hlog, List.append_assoc]
  exact hout

end Commit

theorem Answered.transaction {opts : SqliteOptions} {op : Op} (h : db.Answered)
    (hdoc : db.Documented)
    (hactivity : ∀ t result, op = .completeActivityWorkItem t result → result.isChildResult = false)
    (htx : Transaction opts Answering db op db') : db'.Answered := by
  -- Locking and unlocking tasks keeps their origins.
  have hlocks {newTasks : List TaskRow}
      (hmap : newTasks.map TaskRow.bare = db.newTasks.map TaskRow.bare) :
      ({ db with newTasks := newTasks } : Db).Answered := by
    refine h.of_frame (.of_eq rfl) (fun _ => rfl) rfl fun t ht => ?_
    have hmem := List.mem_map_of_mem (f := TaskRow.bare) ht
    rw [hmap] at hmem
    obtain ⟨t₀, ht₀, hbare⟩ := List.mem_map.mp hmem
    rw [← (TaskRow.eq_of_bare hbare).2.2]
    exact h.tasks t₀ ht₀
  cases htx with
  | idle => exact h
  | createWorkflowInstance hcreate =>
    unfold createWorkflowInstance at hcreate
    split at hcreate
    · cases hcreate
    · obtain ⟨created, hcreated, heq⟩ := Except.bind_eq_ok.mp hcreate
      cases heq
      exact (h.create hdoc hcreated).insertNewEvent _ _ _ nofun nofun
  | addNewWorkflowEvent hadd =>
    obtain ⟨-, rfl⟩ := addNewWorkflowEvent_eq hadd
    exact h.insertNewEvent _ _ _ nofun nofun
  | addNewWorkflowEventWithExternalDelivery hadd =>
    obtain ⟨-, ⟨-, rfl⟩ | ⟨-, rfl⟩⟩ := addNewWorkflowEventWithExternalDelivery_eq hadd
    · exact h
    · refine Answered.insertNewEvent ?_ _ _ _ nofun nofun
      exact h.of_frame (.of_eq rfl) (fun _ => rfl) rfl h.tasks
  | purgeWorkflowState hpurge =>
    obtain ⟨rfl, -⟩ := cleanup_eq hpurge
    exact h.deleteInstance _
  | getWorkflowWorkItem hget =>
    refine h.of_frame (noneBorn_getWorkflowWorkItem hget) ?_ ?_ ?_
    · cases acquires_of_getWorkflowWorkItem hget <;> exact fun _ => rfl
    · cases acquires_of_getWorkflowWorkItem hget <;> rfl
    · cases acquires_of_getWorkflowWorkItem hget <;> exact h.tasks
  | completeWorkflowWorkItem leased held hcomplete => exact h.complete hdoc leased held hcomplete
  | abandonWorkflowWorkItem habandon =>
    have hborn := noneBorn_abandon habandon
    obtain ⟨-, -, _, rfl⟩ := abandon_eq habandon
    exact h.of_frame hborn (fun _ => rfl) rfl h.tasks
  | getActivityWorkItem now t =>
    obtain ⟨newTasks, heq, hmap⟩ := getActivityWorkItem_eq db opts now t
    rw [heq]
    exact hlocks hmap
  | @completeActivityWorkItem wi result _ hcomplete =>
    have hresult := hactivity _ _ rfl
    obtain ⟨task, hfound, rfl⟩ := completeActivityWorkItem_eq hcomplete
    have htask := h.tasks task (List.mem_of_find?_eq_some hfound)
    have hinserted : (db.insertNewEvent wi.instanceID result none none (some task.origin)).Answered :=
      h.insertNewEvent _ none none (fun o ho => by cases ho; exact htask)
        fun hchild => by rw [hresult] at hchild; cases hchild
    exact hinserted.of_frame (.of_eq rfl) (fun _ => rfl) rfl
      fun t ht => hinserted.tasks t (List.mem_of_mem_filter ht)
  | abandonActivityWorkItem habandon =>
    obtain ⟨newTasks, rfl, hmap⟩ := abandonActivityWorkItem_eq habandon
    exact hlocks hmap

/-! ### What a transaction does to histories and to the queue -/

theorem historyTable_ledgers
    (h : Ledgers (fun _ wi => wi.instanceID ≠ id) db db') :
    db'.historyTable id = db.historyTable id ∨ db'.historyTable id = [] := by
  have hkeep {x y : Db} (hstep : y.historyTable id = x.historyTable id)
      (h : x.historyTable id = db.historyTable id ∨ x.historyTable id = []) :
      y.historyTable id = db.historyTable id ∨ y.historyTable id = [] :=
    h.imp hstep.trans hstep.trans
  induction h with
  | refl => exact .inl rfl
  | tail _ hstep ih =>
    cases hstep with
    | queues instances history => exact hkeep (congrArg (List.filter _) history) ih
    | lock p lockedBy lockExpiration instances history =>
      exact hkeep (congrArg (List.filter _) history) ih
    | create hcreate =>
      obtain ⟨r, -, -, -, -, -, -, -, -, -, rfl⟩ := createWorkflowInstanceInternal_eq hcreate
      exact ih
    | delete id' =>
      by_cases hid : id = id'
      · exact .inr (filter_delete_eq_nil fun r _ hr =>
          decide_eq_true ((of_decide_eq_true hr).trans hid))
      · exact hkeep (historyTable_deleteInstance _ hid) ih
    | turn leased held hturn => exact hkeep ((historyTable_turn hturn).2 id (Ne.symm held)) ih

/-- A transaction is a commit of the instance, or not. -/
theorem Transaction.commits_or {opts : SqliteOptions} {op : Op} {P : Db → WorkflowWorkItem → Prop}
    (h : Transaction opts P db op db') (id : InstanceID) :
    Transaction opts (fun _ wi => wi.instanceID ≠ id) db op db' ∨
      ∃ now wi, wi.instanceID = id ∧ db.leasedBy id wi.lockedBy ∧ P db wi ∧
        db.completeWorkflowWorkItem now wi = .ok db' := by
  cases h with
  | idle => exact .inl (.idle _)
  | createWorkflowInstance h => exact .inl (.createWorkflowInstance h)
  | addNewWorkflowEvent h => exact .inl (.addNewWorkflowEvent h)
  | addNewWorkflowEventWithExternalDelivery h =>
    exact .inl (.addNewWorkflowEventWithExternalDelivery h)
  | purgeWorkflowState h => exact .inl (.purgeWorkflowState h)
  | getWorkflowWorkItem h => exact .inl (.getWorkflowWorkItem h)
  | @completeWorkflowWorkItem now wi _ leased held h =>
    by_cases hid : wi.instanceID = id
    · exact .inr ⟨now, wi, hid, hid ▸ leased, held, h⟩
    · exact .inl (.completeWorkflowWorkItem leased hid h)
  | abandonWorkflowWorkItem h => exact .inl (.abandonWorkflowWorkItem h)
  | getActivityWorkItem now t => exact .inl (.getActivityWorkItem now t)
  | completeActivityWorkItem h => exact .inl (.completeActivityWorkItem h)
  | abandonActivityWorkItem h => exact .inl (.abandonActivityWorkItem h)

/-- The child results a transaction queues are those of a commit. -/
theorem Transaction.enqueued {opts : SqliteOptions} {op : Op} (h : Transaction opts Answering db op db')
    (hactivity : ∀ t result, op = .completeActivityWorkItem t result → result.isChildResult = false) :
    (∃ rows, db'.enqueued = db.enqueued ++ rows ∧
        ∀ e ∈ rows, ∀ id born, e.answersFor id born = false) ∨
      ∃ now wi, db.leasedBy wi.instanceID wi.lockedBy ∧ Answering db wi ∧
        db.completeWorkflowWorkItem now wi = .ok db' := by
  have hquiet (heq : db'.enqueued = db.enqueued) : ∃ rows, db'.enqueued = db.enqueued ++ rows ∧
      ∀ e ∈ rows, ∀ id born, e.answersFor id born = false :=
    ⟨[], heq.trans (List.append_nil _).symm, fun _ h => absurd h List.not_mem_nil⟩
  have hinsert {db : Db} {iid : InstanceID} {e : HistoryEvent} {visibleTime : Option Time}
      {origin : Option Origin} (he : e.isChildResult = false ∨ origin = none) :
      ∃ rows, (db.insertNewEvent iid e visibleTime none origin).enqueued = db.enqueued ++ rows ∧
        ∀ e ∈ rows, ∀ id born, e.answersFor id born = false := by
    obtain ⟨row, hlog, -, hevent, -, horigin⟩ :=
      insertNewEvent_row db iid e visibleTime none origin
    refine ⟨[row], hlog, fun x hx id born => ?_⟩
    rw [List.mem_singleton.mp hx]
    unfold EventRow.answersFor
    rcases he with he | he
    · rw [hevent, he, Bool.false_and]
    · rw [horigin, he, Option.any_none, Bool.and_false]
  cases h with
  | idle => exact .inl (hquiet rfl)
  | createWorkflowInstance hcreate =>
    unfold Db.createWorkflowInstance at hcreate
    split at hcreate
    · cases hcreate
    · obtain ⟨created, hcreated, heq⟩ := Except.bind_eq_ok.mp hcreate
      cases heq
      obtain ⟨r, -, -, -, -, -, -, -, -, -, rfl⟩ := createWorkflowInstanceInternal_eq hcreated
      exact .inl (hinsert (.inr rfl))
  | addNewWorkflowEvent hadd =>
    obtain ⟨-, rfl⟩ := addNewWorkflowEvent_eq hadd
    exact .inl (hinsert (.inr rfl))
  | addNewWorkflowEventWithExternalDelivery hadd =>
    obtain ⟨-, ⟨-, rfl⟩ | ⟨-, rfl⟩⟩ := addNewWorkflowEventWithExternalDelivery_eq hadd
    · exact .inl (hquiet rfl)
    · exact .inl (hinsert (.inr rfl))
  | purgeWorkflowState hpurge =>
    obtain ⟨rfl, -⟩ := cleanup_eq hpurge
    exact .inl (hquiet rfl)
  | getWorkflowWorkItem hget =>
    cases acquires_of_getWorkflowWorkItem hget <;> exact .inl (hquiet rfl)
  | completeWorkflowWorkItem leased held hcomplete => exact .inr ⟨_, _, leased, held, hcomplete⟩
  | abandonWorkflowWorkItem habandon =>
    obtain ⟨-, -, _, rfl⟩ := abandon_eq habandon
    exact .inl (hquiet rfl)
  | getActivityWorkItem now t =>
    obtain ⟨newTasks, heq, -⟩ := getActivityWorkItem_eq db opts now t
    exact .inl (hquiet (by rw [heq]))
  | completeActivityWorkItem hcomplete =>
    obtain ⟨task, -, rfl⟩ := completeActivityWorkItem_eq hcomplete
    exact .inl (hinsert (.inl (hactivity _ _ rfl)))
  | abandonActivityWorkItem habandon =>
    obtain ⟨newTasks, rfl, -⟩ := abandonActivityWorkItem_eq habandon
    exact .inl (hquiet rfl)

/-- A transaction that commits the completion of an instance. -/
def CommitsCompletion (db db' : Db) (id : InstanceID) : Prop :=
  (db.getWorkflowRuntimeState id).completedEvent = none ∧
    (db'.getWorkflowRuntimeState id).completedEvent ≠ none

instance (db db' : Db) (id : InstanceID) : Decidable (CommitsCompletion db db' id) :=
  inferInstanceAs (Decidable (_ ∧ _))

/-- Only a commit of the instance does that. -/
theorem CommitsCompletion.commit {opts : SqliteOptions} {op : Op} {P : Db → WorkflowWorkItem → Prop}
    (h : CommitsCompletion db db' id) (htx : Transaction opts P db op db') :
    ∃ now wi, wi.instanceID = id ∧ db.leasedBy id wi.lockedBy ∧ P db wi ∧
      db.completeWorkflowWorkItem now wi = .ok db' := by
  refine (htx.commits_or id).resolve_left fun hother => ?_
  rcases historyTable_ledgers hother.ledgers with heq | hempty
  · exact h.2 (getWorkflowRuntimeState_congr heq ▸ h.1)
  · refine h.2 ?_
    have heq : db'.historyTable id = ({} : Db).historyTable id := hempty
    rw [getWorkflowRuntimeState_congr heq]
    rfl

/-- The completion a commit leaves in the history. -/
theorem Processed.completedEvent {now : Time} {wi : WorkflowWorkItem} (held : Processed db wi)
    (hdoc : db.Documented) (hsome : (db.instance? wi.instanceID).isSome = true)
    (hcomplete : db.completeWorkflowWorkItem now wi = .ok db') :
    (db'.getWorkflowRuntimeState wi.instanceID).completedEvent = wi.state.completedEvent ∧
      db'.instance? wi.instanceID = (db.commitInstance now wi).instance? wi.instanceID := by
  obtain ⟨db₁, db₂, db₃, hc⟩ := completes_of_ok hcomplete
  obtain ⟨hrow, hhist⟩ := complete_own hc hsome
  refine ⟨?_, hrow⟩
  rw [getWorkflowRuntimeState_congr hhist, (held.load (hdoc.recorded _) hc.inserted).2]

section Reply

variable {now : Time} {wi : WorkflowWorkItem} {r : InstanceRow}

/-- A child result among the rows that a commit queues. -/
theorem Answering.of_answersFor (held : Answering db wi) (hdoc : db.Documented)
    (hr : db.instance? wi.instanceID = some r)
    (hcomplete : db.completeWorkflowWorkItem now wi = .ok db') {e : EventRow}
    (he : e ∈ db'.enqueued.drop db.enqueued.length) {born : Nat}
    (hfor : e.answersFor id born = true) :
    ∃ p, wi.instanceID = id ∧ r.born = born ∧ r.creation.parentInstance = some p ∧ e.AddressedTo p ∧
      CommitsCompletion db db' id := by
  obtain ⟨rows, outbox, hlog, hreplies, hnot⟩ := held.enqueued hr hcomplete
  have hcompleted :=
    (held.processed.completedEvent hdoc (Option.isSome_of_eq_some hr) hcomplete).1
  rw [hlog, List.drop_left] at he
  unfold EventRow.answersFor at hfor
  obtain ⟨hchild, hfor⟩ := Bool.and_eq_true_iff.mp hfor
  have he : e ∈ rows := by
    refine (List.mem_append.mp he).resolve_right fun he => ?_
    rw [hnot e he] at hchild
    cases hchild
  cases hreplies with
  | silent => cases he
  | @reply p row parent addressed origin incomplete completed =>
    rw [List.mem_singleton.mp he, origin] at hfor
    obtain ⟨hid, hborn⟩ := Bool.and_eq_true_iff.mp hfor
    have hid : wi.instanceID = id := of_decide_eq_true hid
    refine ⟨p, hid, ?_, parent, List.mem_singleton.mp he ▸ addressed, ?_⟩
    · exact (committing_eq hr).2.symm.trans (of_decide_eq_true hborn)
    · subst hid
      exact ⟨incomplete, hcompleted ▸ completed⟩

/-- A commit of a completion whose parent waits for it. -/
theorem Answering.reply (held : Answering db wi) (hdoc : db.Documented)
    (hr : db.instance? wi.instanceID = some r) {p : ParentInstanceInfo}
    (hp : r.creation.parentInstance = some p) (hcommits : CommitsCompletion db db' wi.instanceID)
    (hcarries : db.Carries p) (hself : p.workflowInstance.instanceId = wi.instanceID → db'.Carries p)
    (hcomplete : db.completeWorkflowWorkItem now wi = .ok db') :
    ∃ e ∈ db'.enqueued.drop db.enqueued.length, e.answersFor wi.instanceID r.born = true ∧
      e.AddressedTo p := by
  obtain ⟨rows, outbox, hlog, hreplies, -⟩ := held.enqueued hr hcomplete
  obtain ⟨hcompleted, hrow⟩ :=
    held.processed.completedEvent hdoc (Option.isSome_of_eq_some hr) hcomplete
  rw [hlog, List.drop_left]
  cases hreplies with
  | silent why =>
    refine absurd ?_ (why p hp hcommits.1 (hcompleted ▸ hcommits.2))
    by_cases hid : p.workflowInstance.instanceId = wi.instanceID
    · obtain ⟨target, htarget, heq⟩ := hself hid
      rw [hid, hrow] at htarget
      exact ⟨target, hid ▸ htarget, heq⟩
    · obtain ⟨target, htarget, heq⟩ := hcarries
      refine ⟨target, ?_, heq⟩
      have hother : ¬target.isLeased wi = true := fun hleased =>
        hid ((instanceID_of_instance? htarget).symm.trans
          (of_decide_eq_true (Bool.and_eq_true_iff.mp hleased).1))
      rw [instance?_commitInstance, htarget, Option.map_some, if_neg hother]
  | @reply p' row parent addressed origin incomplete completed =>
    rw [hp] at parent
    cases parent
    refine ⟨row, List.mem_cons_self, ?_, addressed⟩
    obtain ⟨hoid, hob⟩ := committing_eq hr
    unfold EventRow.answersFor
    rw [isChildResult_of_resolution addressed.taskScheduledId, origin, Option.any_some, hoid, hob,
      decide_eq_true rfl, decide_eq_true rfl]
    rfl

end Reply

end Db

namespace System

variable (opts : SqliteOptions)

/-- Calls that do not start or end a workflow behind the back of its executor: the first batch of an
instance brings its start event, nobody but the workflow itself makes a completion, and an activity has
a result of its own. -/
def Answerable (s : System) : Op → Prop
  | .getWorkflowWorkItem now t => ∀ db' wi, s.db.getWorkflowWorkItem opts now t = .ok (db', some wi) →
    (s.db.historyTable wi.instanceID = [] → wi.newEvents.findSome? HistoryEvent.getExecutionStarted =
      (s.db.instance? wi.instanceID).map InstanceRow.creation) ∧
    ∀ e ∈ wi.newEvents, e.getExecutionCompleted = none
  | .processWorkItem _ w _ => w.Executors WorkflowExecutor.CarriesNoCompletion
  | .completeActivityWorkItem _ result => result.isChildResult = false
  | _ => True

theorem Answerable.activity {s : System} {op : Op} (h : Answerable opts s op) (t : String)
    (result : HistoryEvent) (hop : op = .completeActivityWorkItem t result) :
    result.isChildResult = false := by
  subst hop
  exact h

/-- What is known of a work item that was acquired: its batch starts the instance if nothing has, and
does not end it. -/
def Startable (db : Db) (wi : WorkflowWorkItem) : Prop :=
  (∀ r, db.instance? wi.instanceID = some r → db.historyTable wi.instanceID = [] →
    wi.newEvents.findSome? HistoryEvent.getExecutionStarted = some r.creation) ∧
  ∀ e ∈ wi.newEvents, e.getExecutionCompleted = none

theorem answered_maintained :
    Maintained opts (Answerable opts) (fun db => db.Documented ∧ db.Answered) Startable
      Db.Answering where
  init := by
    refine ⟨(documented_maintained opts).init, ?_, ?_, ?_, ?_, ?_, ?_⟩
    · exact fun _ _ h => by cases h
    · exact fun _ _ => Nat.zero_le 1
    · exact fun _ _ h => by cases h
    · exact fun _ _ h => by cases h
    · exact fun _ h => absurd h List.not_mem_nil
    · exact fun _ h => absurd h List.not_mem_nil
  transaction := by
    rintro s op hG - ⟨hdoc, hanswered⟩ htx
    have hledgers := htx.ledgers.mono fun _ _ h => h.processed
    exact ⟨hdoc.ledgers hledgers, hanswered.transaction hdoc hG.activity htx⟩
  acquire := by
    intro s now t db' wi hG _ hget
    obtain ⟨hstart, hbatch⟩ := hG db' wi hget
    refine ⟨fun r hr hempty => ?_, hbatch⟩
    obtain ⟨r₀, hr₀, -, hcreation⟩ := Db.noneBorn_getWorkflowWorkItem hget _ r hr
    have hhist : db'.historyTable wi.instanceID = s.db.historyTable wi.instanceID := by
      cases Db.acquires_of_getWorkflowWorkItem hget
      rfl
    rw [hstart (hhist ▸ hempty), hr₀, hcreation]
    rfl
  process := by
    rintro s w env wi wi' hw ⟨hdoc, hanswered⟩ hleased ⟨hstart, hbatch⟩ hproc
    have hprocessed := (documented_maintained opts).process (s := s) (A := fun _ _ => True) trivial hdoc
      hleased trivial hproc
    refine ⟨hprocessed, fun r hr => ?_⟩
    rw [(processWorkItem_lease hproc).1] at hr ⊢
    -- The workflow has the parent it was created with, by its history or by its first batch.
    have hparent : ∃ es, (s.db.getWorkflowRuntimeState wi.instanceID).startEvent.or
        (wi.newEvents.findSome? HistoryEvent.getExecutionStarted) = some es ∧
          es.parentInstance = r.creation.parentInstance := by
      by_cases hempty : s.db.historyTable wi.instanceID = []
      · refine ⟨r.creation, ?_, rfl⟩
        have heq : s.db.historyTable wi.instanceID = ({} : Db).historyTable wi.instanceID := hempty
        rw [hstart r hr hempty, Db.getWorkflowRuntimeState_congr heq]
        rfl
      · obtain ⟨es, hes, hp⟩ := hanswered.started _ r hr hempty
        exact ⟨es, by rw [hes, Option.some_or], hp⟩
    obtain ⟨-, htimers, hmsgs, -⟩ :=
      WorkflowRuntimeState.new_frame wi.instanceID none (s.db.historyOf wi.instanceID)
    refine Or.imp_left (fun ⟨msgs, heq, hnone⟩ => ⟨_, heq, hnone⟩)
      (answers_processWorkItem hw ?_ ?_ ?_ ?_ hproc)
    · exact hparent
    · exact hbatch
    · exact htimers
    · exact hmsgs
  acquired := by
    rintro db db' wi hkeeps hl ⟨hstart, hbatch⟩
    obtain ⟨hrow, hhist, -⟩ := hkeeps wi.instanceID hl
    refine ⟨fun r hr hempty => ?_, hbatch⟩
    rw [hrow] at hr
    rw [hhist] at hempty
    exact hstart r hr hempty
  processed := by
    intro db db' wi hkeeps hl h
    obtain ⟨hrow, hhist, -⟩ := hkeeps wi.instanceID hl
    refine ⟨(documented_maintained opts).processed hkeeps hl h.processed, fun r hr => ?_⟩
    rw [hrow] at hr
    rw [Db.getWorkflowRuntimeState_congr hhist]
    exact h.answer r hr

/-- Child results over a run: an incarnation queues one at most. It does so in the transaction that
commits its completion, for the parent, the execution and the task it was created with; and that
transaction does so if the row of the parent carries that execution (of a workflow that is its own
parent, the row that the transaction writes). -/
theorem child_result_once (ops : List Op) (op : Op)
    (hops : Along opts (Answerable opts) (ops ++ [op])) :
    let db := (run opts ops).db
    let db' := (run opts (ops ++ [op])).db
    (∀ id born, (db'.answers id born).length ≤ 1) ∧
      (∀ e ∈ db'.enqueued.drop db.enqueued.length, ∀ id born, e.answersFor id born = true →
        ∃ r p, db.instance? id = some r ∧ r.born = born ∧ r.creation.parentInstance = some p ∧
          e.AddressedTo p ∧ db.CommitsCompletion db' id) ∧
      ∀ id r p, db.instance? id = some r → r.creation.parentInstance = some p →
        db.CommitsCompletion db' id → db.Carries p →
        (p.workflowInstance.instanceId = id → db'.Carries p) →
        ∃ e ∈ db'.enqueued.drop db.enqueued.length, e.answersFor id r.born = true ∧
          e.AddressedTo p := by
  dsimp only
  have hpre : Along opts (Answerable opts) ops := fun pre x post hsplit =>
    hops pre x (post ++ [op]) (by rw [hsplit, List.append_assoc, List.cons_append])
  have h := (answered_maintained opts).run ops hpre
  have h' := (answered_maintained opts).run _ hops
  have hG := hops ops op [] rfl
  have htx := h.transaction (exec_spec opts (run opts ops) op)
  rw [run_concat] at h' ⊢
  obtain ⟨hdoc, -⟩ := h.store
  refine ⟨h'.store.2.once, fun e he id born hfor => ?_, ?_⟩
  · rcases htx.enqueued hG.activity with ⟨rows, hlog, hnot⟩ | ⟨now, wi, leased, held, hcomplete⟩
    · rw [hlog, List.drop_left] at he
      rw [hnot e he] at hfor
      cases hfor
    · have ⟨r, hr, _⟩ := leased
      obtain ⟨p, rfl, hborn, hp, haddressed, hcommits⟩ := held.of_answersFor hdoc hr hcomplete he hfor
      exact ⟨r, p, hr, hborn, hp, haddressed, hcommits⟩
  · intro id r p hr hp hcommits hcarries hself
    obtain ⟨now, wi, rfl, leased, held, hcomplete⟩ := hcommits.commit htx
    exact held.reply hdoc hr hp hcommits hcarries hself hcomplete

end System

namespace ChildResultExample

open StalledExample (opts start)
open TerminationExample (processor)
open OutboxExample (processEnv)

def spawning : WorkflowResponse :=
  { actions := [{ id := 0, actionType := .createChildWorkflow { name := "wf", instanceId := "c" } }] }

/-- The turn of the parent that creates the child. -/
def spawned : List Op :=
  [.createWorkflowInstance start, .getWorkflowWorkItem 1 "t1",
   .processWorkItem "t1" (processor spawning) processEnv, .completeWorkflowWorkItem "t1" 2]

def parent : ParentInstanceInfo :=
  { taskScheduledId := 0, workflowInstance := ⟨"a", some "e1"⟩, name := some "wf", appID := some "app" }

/-- The start of the child is abandoned twice, so that it is hidden for a second, and the child is
terminated meanwhile. -/
def overtaken : List Op :=
  spawned ++
    [.getWorkflowWorkItem 3 "t2", .abandonWorkflowWorkItem "t2" 4,
     .getWorkflowWorkItem 5 "t3", .abandonWorkflowWorkItem "t3" 6,
     .addNewWorkflowEvent "c" { eventType := .executionTerminated {} },
     .getWorkflowWorkItem 7 "t4", .processWorkItem "t4" (processor {}) processEnv]

/-- The completion is committed while the parent waits, and nothing is queued for the parent. -/
theorem terminated_before_start_unanswered :
    let db := (System.run opts overtaken).db
    let db' := (System.run opts (overtaken ++ [.completeWorkflowWorkItem "t4" 8])).db
    (db.instance? "c").map (·.creation.parentInstance) = some (some parent) ∧
      db.CommitsCompletion db' "c" ∧ db.Carries parent ∧
      db'.enqueued.drop db.enqueued.length = [] := by
  decide +kernel

def completing : WorkflowResponse :=
  { actions := [{ id := 0, actionType := .completeWorkflow { workflowStatus := .completed } }] }

theorem processor_carriesNoCompletion {response : WorkflowResponse}
    (h : ∀ a ∈ response.actions, ∀ c ∈ a.getCompleteWorkflow, c.carryoverEvents = []) :
    (processor response).Executors WorkflowExecutor.CarriesNoCompletion := by
  refine ⟨?_, fun x hx => by cases hx⟩
  intro k id oldEvents newEvents incomingHistory response' hresponse action haction c hc e he
  cases hresponse
  rw [h action haction c hc] at he
  cases he

/-- The condition on a call that acquires a work item, evaluated. -/
theorem answerable_get {s : System} {now : Time} {t : String}
    (h : ∀ wi ∈ (s.db.getWorkflowWorkItem opts now t).toOption.bind Prod.snd,
      wi.newEvents.findSome? HistoryEvent.getExecutionStarted =
          (s.db.instance? wi.instanceID).map InstanceRow.creation ∧
        ∀ e ∈ wi.newEvents, e.getExecutionCompleted = none) :
    System.Answerable opts s (.getWorkflowWorkItem now t) := by
  intro db' wi hget
  obtain ⟨hstart, hbatch⟩ := System.forall_acquired h wi hget
  exact ⟨fun _ => hstart, hbatch⟩

/-- The child completes, and its parent is told. -/
theorem completed_child_answered :
    let ops := spawned ++
      [.getWorkflowWorkItem 3 "t2", .processWorkItem "t2" (processor completing) processEnv]
    let db := (System.run opts ops).db
    let db' := (System.run opts (ops ++ [.completeWorkflowWorkItem "t2" 4])).db
    ∃ e ∈ db'.enqueued.drop db.enqueued.length, e.AddressedTo parent := by
  intro ops db db'
  have hops : System.Along opts (System.Answerable opts) (ops ++ [.completeWorkflowWorkItem "t2" 4]) := by
    refine .concat [_, _, _, _, _, _] (.concat [_, _, _, _, _] (.concat [_, _, _, _] (.concat [_, _, _]
      (.concat [_, _] (.concat [_] (.concat [] .nil ?_) ?_) ?_) ?_) ?_) ?_) ?_
    · trivial
    · exact answerable_get (by decide +kernel)
    · exact processor_carriesNoCompletion (by decide)
    · trivial
    · exact answerable_get (by decide +kernel)
    · exact processor_carriesNoCompletion (by decide)
    · trivial
  have hchild : (db.instance? "c").map (·.creation.parentInstance) = some (some parent) := by
    decide +kernel
  obtain ⟨r, hr, hp⟩ := Option.map_eq_some_iff.mp hchild
  obtain ⟨e, he, -, haddressed⟩ := (System.child_result_once opts ops _ hops).2.2 "c" r parent hr hp
    (by decide +kernel) (by decide +kernel) nofun
  exact ⟨e, he, haddressed⟩

end ChildResultExample

end DurableTask.Sqlite
