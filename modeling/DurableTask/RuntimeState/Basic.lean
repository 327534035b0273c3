import DurableTask.Protos

/-!
# `backend/runtimestate` and `backend/runtimestate/dedup`

The fold that rebuilds a workflow's runtime state from its history, with the duplicate detection of
resolution events. A rejected event (`ErrDuplicateEvent`) is `none`: the state is left as it was.
-/

namespace DurableTask

/-! ### `dedup` -/

/-- The family of the correlator of a resolution event (`dedup.Kind` without `KindNone`). -/
inductive Kind
  | task | timer | child
deriving DecidableEq, Repr

instance : LawfulBEq (Kind × ActionID) := inferInstance

/-- `dedup.Of`: the correlator of a resolution event. -/
def HistoryEvent.resolution (e : HistoryEvent) : Option (Kind × ActionID) :=
  match e.eventType with
  | .taskCompleted tc => some (.task, tc.taskScheduledId)
  | .taskFailed tf => some (.task, tf.taskScheduledId)
  | .timerFired tf => some (.timer, tf.timerId)
  | .childWorkflowInstanceCompleted sc => some (.child, sc.taskScheduledId)
  | .childWorkflowInstanceFailed sf => some (.child, sf.taskScheduledId)
  | _ => none

/-- `dedup.Set`. `packKey` is injective on `int32` ids, so the keys are the pairs themselves. -/
abbrev DedupSet := List (Kind × ActionID)

/-- `dedup.IsPresent`. -/
def isPresent (events : List HistoryEvent) (k : Kind × ActionID) : Bool :=
  events.any fun e => e.resolution = some k

/-- `dedup.NewForState`. -/
def DedupSet.newForState (s : WorkflowRuntimeState) : DedupSet :=
  (s.oldEvents ++ s.newEvents).filterMap HistoryEvent.resolution

/-! ### `runtimestate` -/

namespace WorkflowRuntimeState

/-- The duplicate check of a resolution event: against the set if there is one, else by scanning the
history. -/
def noteResolution (s : WorkflowRuntimeState) (e : HistoryEvent) (seen : Option DedupSet) :
    Option (WorkflowRuntimeState × Option DedupSet) :=
  match e.resolution, seen with
  | none, _ => some (s, seen)
  | some k, some set => if k ∈ set then none else some (s, some (k :: set))
  | some k, none =>
    if isPresent s.oldEvents k || isPresent s.newEvents k then none else some (s, none)

/-- The part of `addEventWithDedup` that depends on the kind of event: the state with its flags
updated and the updated set, or `none` for a duplicate. -/
def noteEvent (s : WorkflowRuntimeState) (e : HistoryEvent) (seen : Option DedupSet) :
    Option (WorkflowRuntimeState × Option DedupSet) :=
  match e.eventType with
  | .executionStarted startEvent =>
    if s.startEvent.isSome then none
    else some ({ s with startEvent := some startEvent, createdTime := some e.timestamp }, seen)
  | .executionCompleted completedEvent =>
    if s.completedEvent.isSome then none
    else some ({ s with completedEvent := some completedEvent, completedTime := some e.timestamp },
      seen)
  | .executionSuspended _ => some ({ s with isSuspended := true }, seen)
  | .executionResumed _ => some ({ s with isSuspended := false }, seen)
  | .executionStalled st =>
    some ({ s with stalled := some ⟨st.reason, st.description⟩ }, seen)
  | _ => s.noteResolution e seen

/-- The part of `addEventWithDedup` shared by all accepted events. -/
def appendEvent (s : WorkflowRuntimeState) (e : HistoryEvent) (isNew : Bool) :
    WorkflowRuntimeState :=
  let stalled := match e.eventType with
    | .executionStalled _ => s.stalled
    | _ => none
  if isNew then
    { s with stalled := stalled, newEvents := s.newEvents ++ [e], lastUpdatedTime := some e.timestamp }
  else
    { s with stalled := stalled, oldEvents := s.oldEvents ++ [e], lastUpdatedTime := some e.timestamp }

def addEventWithDedup (s : WorkflowRuntimeState) (e : HistoryEvent) (isNew : Bool)
    (seen : Option DedupSet) : Option (WorkflowRuntimeState × Option DedupSet) :=
  (s.noteEvent e seen).map fun (s, seen) => (s.appendEvent e isNew, seen)

/-- `addEventWithDedup` as its callers use it: a rejected event leaves state and set unchanged. -/
def addOrDrop (isNew : Bool) (p : WorkflowRuntimeState × Option DedupSet) (e : HistoryEvent) :
    WorkflowRuntimeState × Option DedupSet :=
  (p.1.addEventWithDedup e isNew p.2).getD p

/-- `NewWorkflowRuntimeState`. -/
def new (instanceID : InstanceID) (customStatus : Option String)
    (existingHistory : List HistoryEvent) : WorkflowRuntimeState :=
  (existingHistory.foldl (addOrDrop false)
    ({ instanceId := instanceID, customStatus := customStatus }, some [])).1

/-- `AddEvent` with its error discarded, as every caller in the repository does. -/
def addEvent (s : WorkflowRuntimeState) (e : HistoryEvent) : WorkflowRuntimeState :=
  (addOrDrop true (s, none) e).1

/-- `AddEvents` with its errors discarded (its caller only logs them). -/
def addEvents (s : WorkflowRuntimeState) (events : List HistoryEvent) : WorkflowRuntimeState :=
  (events.foldl (addOrDrop true) (s, some (DedupSet.newForState s))).1

def isValid (s : WorkflowRuntimeState) : Bool :=
  (s.oldEvents.isEmpty && s.newEvents.isEmpty) || s.startEvent.isSome

def runtimeStatus (s : WorkflowRuntimeState) : OrchestrationStatus :=
  match s.startEvent, s.completedEvent with
  | none, _ => if s.stalled.isSome then .stalled else .pending
  | some _, some c => c.workflowStatus
  | some _, none =>
    if s.stalled.isSome then .stalled else if s.isSuspended then .suspended else .running

def isCompleted (s : WorkflowRuntimeState) : Bool := s.completedEvent.isSome

/-- The suspension flag after an event. -/
def suspendedAfter (isSuspended : Bool) (e : HistoryEvent) : Bool :=
  match e.eventType with
  | .executionSuspended _ => true
  | .executionResumed _ => false
  | _ => isSuspended

/-! ### What adding an event changes -/

theorem noteResolution_fst {s : WorkflowRuntimeState} {e : HistoryEvent} {seen : Option DedupSet}
    {q : WorkflowRuntimeState × Option DedupSet} (h : s.noteResolution e seen = some q) :
    q.1 = s := by
  unfold noteResolution at h
  split at h
  · exact (Option.some.inj h) ▸ rfl
  all_goals
    split at h
    · cases h
    · exact (Option.some.inj h) ▸ rfl

/-- An accepted event touches only the start, the completion, the times and the two flags. -/
theorem noteEvent_eq {s : WorkflowRuntimeState} {e : HistoryEvent} {seen : Option DedupSet}
    {q : WorkflowRuntimeState × Option DedupSet} (h : s.noteEvent e seen = some q) :
    q.1 = { s with
      startEvent := s.startEvent.or e.getExecutionStarted
      completedEvent := s.completedEvent.or e.getExecutionCompleted
      createdTime := q.1.createdTime, completedTime := q.1.completedTime
      isSuspended := suspendedAfter s.isSuspended e, stalled := q.1.stalled } := by
  rcases e with ⟨id, ts, body, router, row⟩
  cases body
  case executionStarted | executionCompleted =>
    simp only [noteEvent, Option.ite_none_left_eq_some, Option.some.injEq] at h
    obtain ⟨hs, rfl⟩ := h
    simp [HistoryEvent.getExecutionStarted, HistoryEvent.getExecutionCompleted, suspendedAfter,
      Option.not_isSome_iff_eq_none.mp hs]
  case executionSuspended | executionResumed | executionStalled =>
    cases h
    simp [HistoryEvent.getExecutionStarted, HistoryEvent.getExecutionCompleted, suspendedAfter]
  all_goals
    have hq : q.1 = s := noteResolution_fst (by simpa only [noteEvent] using h)
    simp [hq, HistoryEvent.getExecutionStarted, HistoryEvent.getExecutionCompleted, suspendedAfter]

/-- A rejected event is a second start or completion, or a duplicate resolution. -/
theorem noteEvent_eq_none {s : WorkflowRuntimeState} {e : HistoryEvent} {seen : Option DedupSet}
    (h : s.noteEvent e seen = none) :
    s.startEvent.or e.getExecutionStarted = s.startEvent ∧
      s.completedEvent.or e.getExecutionCompleted = s.completedEvent ∧
      suspendedAfter s.isSuspended e = s.isSuspended := by
  rcases e with ⟨id, ts, body, router, row⟩
  cases body
  case executionStarted | executionCompleted =>
    simp only [noteEvent, ite_eq_left_iff, reduceCtorEq, imp_false, Decidable.not_not] at h
    obtain ⟨ev, hs⟩ := Option.isSome_iff_exists.mp h
    simp [HistoryEvent.getExecutionStarted, HistoryEvent.getExecutionCompleted, suspendedAfter, hs]
  case executionSuspended | executionResumed | executionStalled => cases h
  all_goals simp [HistoryEvent.getExecutionStarted, HistoryEvent.getExecutionCompleted, suspendedAfter]

section AddOrDrop

variable (isNew : Bool) (p : WorkflowRuntimeState × Option DedupSet) (e : HistoryEvent)

theorem addOrDrop_cases :
    (p.1.noteEvent e p.2 = none ∧ addOrDrop isNew p e = p) ∨
    ∃ q, p.1.noteEvent e p.2 = some q ∧ addOrDrop isNew p e = (q.1.appendEvent e isNew, q.2) := by
  cases h : p.1.noteEvent e p.2 with
  | none => exact Or.inl ⟨rfl, by simp [addOrDrop, addEventWithDedup, h]⟩
  | some q => exact Or.inr ⟨q, rfl, by simp [addOrDrop, addEventWithDedup, h]⟩

/-- What an added event never touches. -/
def outbox (s : WorkflowRuntimeState) :
    InstanceID × List HistoryEvent × List HistoryEvent × List WorkflowRuntimeStateMessage ×
      Bool × Option String :=
  (s.instanceId, s.pendingTasks, s.pendingTimers, s.pendingMessages, s.continuedAsNew,
    s.customStatus)

theorem appendEvent_startEvent (s : WorkflowRuntimeState) :
    (s.appendEvent e isNew).startEvent = s.startEvent := by cases isNew <;> rfl

theorem appendEvent_completedEvent (s : WorkflowRuntimeState) :
    (s.appendEvent e isNew).completedEvent = s.completedEvent := by cases isNew <;> rfl

theorem appendEvent_isSuspended (s : WorkflowRuntimeState) :
    (s.appendEvent e isNew).isSuspended = s.isSuspended := by cases isNew <;> rfl

theorem appendEvent_outbox (s : WorkflowRuntimeState) :
    (s.appendEvent e isNew).outbox = s.outbox := by cases isNew <;> rfl

theorem addOrDrop_startEvent :
    (addOrDrop isNew p e).1.startEvent = p.1.startEvent.or e.getExecutionStarted := by
  rcases addOrDrop_cases isNew p e with ⟨hn, h⟩ | ⟨q, hq, h⟩
  · rw [h, (noteEvent_eq_none hn).1]
  · rw [h, appendEvent_startEvent, noteEvent_eq hq]

theorem addOrDrop_completedEvent :
    (addOrDrop isNew p e).1.completedEvent = p.1.completedEvent.or e.getExecutionCompleted := by
  rcases addOrDrop_cases isNew p e with ⟨hn, h⟩ | ⟨q, hq, h⟩
  · rw [h, (noteEvent_eq_none hn).2.1]
  · rw [h, appendEvent_completedEvent, noteEvent_eq hq]

theorem addOrDrop_isSuspended :
    (addOrDrop isNew p e).1.isSuspended = suspendedAfter p.1.isSuspended e := by
  rcases addOrDrop_cases isNew p e with ⟨hn, h⟩ | ⟨q, hq, h⟩
  · rw [h, (noteEvent_eq_none hn).2.2]
  · rw [h, appendEvent_isSuspended, noteEvent_eq hq]

theorem addOrDrop_outbox : (addOrDrop isNew p e).1.outbox = p.1.outbox := by
  rcases addOrDrop_cases isNew p e with ⟨_, h⟩ | ⟨q, hq, h⟩
  · rw [h]
  · rw [h, appendEvent_outbox, noteEvent_eq hq]; rfl

end AddOrDrop

section AddEvent

variable (s : WorkflowRuntimeState) (e : HistoryEvent)

@[simp] theorem addEvent_startEvent :
    (s.addEvent e).startEvent = s.startEvent.or e.getExecutionStarted :=
  addOrDrop_startEvent true (s, none) e

@[simp] theorem addEvent_completedEvent :
    (s.addEvent e).completedEvent = s.completedEvent.or e.getExecutionCompleted :=
  addOrDrop_completedEvent true (s, none) e

theorem addEvent_outbox : (s.addEvent e).outbox = s.outbox := addOrDrop_outbox true (s, none) e

@[simp] theorem addEvent_pendingMessages :
    (s.addEvent e).pendingMessages = s.pendingMessages :=
  congrArg (fun o => o.2.2.2.1) (s.addEvent_outbox e)

end AddEvent

end WorkflowRuntimeState

end DurableTask
