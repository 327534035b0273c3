import DurableTask.Backend.Termination
import DurableTask.RuntimeState.Coherent

/-!
# What `ProcessWorkItem` makes of a loaded state

The state a work item ends with, whatever the executor answered: it is coherent, and it either extends
the loaded history or starts a new generation.
-/

namespace DurableTask

open WorkflowRuntimeState (Coherent)

/-! ### Recording a version -/

theorem map_recordVersion {α : Type} (f : HistoryEvent → α)
    (hf : ∀ (e : HistoryEvent) (v : Option WorkflowVersion) v', e.eventType = .workflowStarted v →
      f { e with eventType := .workflowStarted v' } = f e)
    (version : WorkflowVersion) (es : List HistoryEvent) :
    (recordVersion version es).map f = es.map f := by
  induction es with
  | nil => rfl
  | cons e es ih =>
    unfold recordVersion
    split
    · next v he => rw [List.map_cons, List.map_cons, hf e v _ he]
    · rw [List.map_cons, List.map_cons, ih]

/-- The events before and after a version is recorded say the same. -/
structure SameEvents (es es' : List HistoryEvent) : Prop where
  started : es'.map HistoryEvent.getExecutionStarted = es.map HistoryEvent.getExecutionStarted
  completed : es'.map HistoryEvent.getExecutionCompleted = es.map HistoryEvent.getExecutionCompleted
  resolution : es'.map HistoryEvent.resolution = es.map HistoryEvent.resolution
  suspended : es'.map (fun e b => WorkflowRuntimeState.suspendedAfter b e) =
    es.map (fun e b => WorkflowRuntimeState.suspendedAfter b e)

theorem sameEvents_recordVersion (s : WorkflowRuntimeState) (v : Option WorkflowVersion) :
    SameEvents s.allEvents (s.recordVersion v).allEvents := by
  unfold WorkflowRuntimeState.recordVersion
  cases v with
  | none => exact ⟨rfl, rfl, rfl, rfl⟩
  | some version =>
    dsimp only
    split
    · exact ⟨rfl, rfl, rfl, rfl⟩
    · unfold WorkflowRuntimeState.allEvents
      dsimp only
      refine ⟨?_, ?_, ?_, ?_⟩
      all_goals
        rw [List.map_append, List.map_append]
        refine congrArg _ (map_recordVersion _ ?_ version s.newEvents)
        rintro ⟨id, ts, body, router, row⟩ v v' (he : body = _)
        subst he
        rfl

theorem SameEvents.coherent {s s' : WorkflowRuntimeState} (h : SameEvents s.allEvents s'.allEvents)
    (hs : s.Coherent) (hstart : s'.startEvent = s.startEvent)
    (hcompleted : s'.completedEvent = s.completedEvent) (hsuspended : s'.isSuspended = s.isSuspended) :
    s'.Coherent := by
  have hfilter {α : Type} {f : HistoryEvent → Option α}
      (h : s'.allEvents.map f = s.allEvents.map f) :
      s'.allEvents.filterMap f = s.allEvents.filterMap f := by
    simpa only [List.filterMap_map, Function.id_comp] using congrArg (List.filterMap id) h
  have hfind {α : Type} {f : HistoryEvent → Option α}
      (h : s'.allEvents.map f = s.allEvents.map f) :
      s'.allEvents.findSome? f = s.allEvents.findSome? f := by
    simpa only [List.findSome?_map, Function.id_comp] using congrArg (List.findSome? id) h
  have hfold := congrArg (List.foldl (fun b g => g b) false) h.suspended
  rw [List.foldl_map, List.foldl_map] at hfold
  refine ⟨⟨?_, ?_, ?_⟩, ?_, ?_, ?_⟩
  · rw [hfilter h.started]
    exact hs.loadable.started
  · rw [hfilter h.completed]
    exact hs.loadable.completed
  · rw [hfilter h.resolution]
    exact hs.loadable.nodup
  · rw [hstart, hfind h.started, hs.startEvent]
  · rw [hcompleted, hfind h.completed, hs.completedEvent]
  · rw [hsuspended, hs.isSuspended]
    exact hfold.symm

theorem coherent_recordVersion {s : WorkflowRuntimeState} (h : s.Coherent)
    (v : Option WorkflowVersion) : (s.recordVersion v).Coherent := by
  have hframe := recordVersion_frame s v
  refine (sameEvents_recordVersion s v).coherent h ?_ ?_ ?_ <;> rw [hframe]

/-! ### The loop -/

/-- The state of a work item between its rounds: what was loaded as `s₀` is still there, or the
workflow continued as new. -/
structure Going (s₀ s : WorkflowRuntimeState) : Prop where
  coherent : s.Coherent
  instanceId : s.instanceId = s₀.instanceId
  kept : s.continuedAsNew = false → s.oldEvents = s₀.oldEvents
  reset : s.continuedAsNew = true → s.oldEvents = []

section Loop

variable {w : WorkflowProcessor} {env : ProcessEnv} {instanceID : InstanceID}
  {terminateEvent : Option ExecutionTerminatedEvent} {s₀ s s' : WorkflowRuntimeState}

theorem Going.actions {a : Applier} {applyEnv : ApplyEnv} {receivedHistory : Option PropagatedHistory}
    {customStatus : Option String} {actions : List WorkflowAction} {result : ActionsResult}
    (hs : Going s₀ s)
    (h : a.actions applyEnv receivedHistory s customStatus actions = .ok (result, s')) :
    Going s₀ s' ∧ (result.continuedAsNew = false → s'.stalled = none) := by
  have hc := Applier.actions_coherent hs.coherent h
  rcases Applier.actions_cases h with ⟨hcan, hold, hout⟩ | ⟨hcan, hold, hid, hflag, hstalled⟩
  · have hflag : s'.continuedAsNew = true := congrArg (·.2.2.2.2.1) hout
    refine ⟨⟨hc, (congrArg (·.1) hout).trans hs.instanceId, fun hf => ?_, fun _ => hold⟩,
      fun hf => ?_⟩
    · rw [hflag] at hf
      cases hf
    · rw [hcan] at hf
      cases hf
  · refine ⟨⟨hc, hid.trans hs.instanceId, fun hf => ?_, fun ht => ?_⟩, fun _ => hstalled⟩
    · exact hold.trans (hs.kept (hflag ▸ hf))
    · exact hold.trans (hs.reset (hflag ▸ ht))

theorem Going.of_outbox (hs : Going s₀ s) (hc : s'.Coherent) (hout : s'.outbox = s.outbox)
    (hold : s'.oldEvents = s.oldEvents) : Going s₀ s' := by
  have hflag : s'.continuedAsNew = s.continuedAsNew := congrArg (·.2.2.2.2.1) hout
  exact ⟨hc, (congrArg (·.1) hout).trans hs.instanceId, fun hf => hold.trans (hs.kept (hflag ▸ hf)),
    fun ht => hold.trans (hs.reset (hflag ▸ ht))⟩

theorem Going.addEvent (hs : Going s₀ s) (e : HistoryEvent) : Going s₀ (s.addEvent e) :=
  hs.of_outbox (hs.coherent.addEvent e) (s.addEvent_outbox e)
    (Applier.foldl_addEvent_frame [e] s).2

theorem Going.addEvents (hs : Going s₀ s) (es : List HistoryEvent) : Going s₀ (s.addEvents es) :=
  hs.of_outbox (hs.coherent.addEvents es) (s.addEvents_frame es).1 (s.addEvents_events es).2

theorem Going.recordVersion (hs : Going s₀ s) (v : Option WorkflowVersion) :
    Going s₀ (s.recordVersion v) := by
  have hc := coherent_recordVersion hs.coherent v
  have hframe := recordVersion_frame s v
  generalize s.recordVersion v = s' at hc hframe ⊢
  rw [hframe] at hc ⊢
  exact ⟨hc, hs.instanceId, hs.kept, hs.reset⟩

/-- One round: the executor responds, and the applier applies its actions, of which some may be cut
off. -/
theorem runGeneration_actions {k : Nat} {incomingHistory : Option PropagatedHistory} {g : Generation}
    {result : ActionsResult}
    (h : w.runGeneration env instanceID terminateEvent k s incomingHistory = .ok (g, result, s')) :
    ∃ response actions, w.selectExecutor s k instanceID s.oldEvents s.newEvents incomingHistory =
        .ok response ∧ (∀ action ∈ actions, action ∈ response.actions) ∧
      w.applier.actions (env.generation k) incomingHistory (s.recordVersion response.version)
        response.customStatus actions = .ok (result, s') := by
  unfold WorkflowProcessor.runGeneration at h
  obtain ⟨response, hresponse, h⟩ := Except.bind_eq_ok.mp h
  obtain ⟨⟨r, s₁⟩, happly, h⟩ := Except.bind_eq_ok.mp h
  cases h
  refine ⟨response, _, Except.mapError_eq_ok.mp hresponse, fun action haction => ?_,
    Except.mapError_eq_ok.mp happly⟩
  split at haction
  · exact (List.takeWhile_sublist _).mem haction
  · exact haction

theorem Going.runGeneration {k : Nat} {incomingHistory : Option PropagatedHistory} {g : Generation}
    {result : ActionsResult} (hs : Going s₀ s)
    (h : w.runGeneration env instanceID terminateEvent k s incomingHistory = .ok (g, result, s')) :
    Going s₀ s' ∧ (result.continuedAsNew = false → s'.stalled = none) := by
  obtain ⟨response, actions, -, -, happly⟩ := runGeneration_actions h
  exact (hs.recordVersion response.version).actions happly

/-- What every round keeps holds before the last round, the one that does not continue as new. -/
theorem continueAsNewLoop_invariant {J : WorkflowRuntimeState → Prop} {remaining : Nat}
    {incomingHistory : Option PropagatedHistory} {continued : List Generation} {r : LoopResult}
    (hgen : ∀ {k s incomingHistory g result s'}, J s → w.runGeneration env instanceID terminateEvent k s
      incomingHistory = .ok (g, result, s') → J s')
    (hs : J s)
    (h : w.continueAsNewLoop env instanceID terminateEvent remaining s incomingHistory continued =
      .ok r) :
    ∃ k s incomingHistory g result, J s ∧ w.runGeneration env instanceID terminateEvent k s
      incomingHistory = .ok (g, result, r.state) ∧ result.continuedAsNew = false := by
  induction remaining generalizing s incomingHistory continued with
  | zero =>
    unfold WorkflowProcessor.continueAsNewLoop at h
    obtain ⟨⟨g, result, s'⟩, hround, h⟩ := Except.bind_eq_ok.mp h
    cases hcan : result.continuedAsNew with
    | true => simp [hcan] at h
    | false =>
      simp only [hcan] at h
      cases h
      exact ⟨_, _, _, _, _, hs, hround, hcan⟩
  | succ remaining ih =>
    unfold WorkflowProcessor.continueAsNewLoop at h
    obtain ⟨⟨g, result, s'⟩, hround, h⟩ := Except.bind_eq_ok.mp h
    cases hcan : result.continuedAsNew with
    | true =>
      simp only [hcan] at h
      exact ih (hgen hs hround) h
    | false =>
      simp only [hcan] at h
      cases h
      exact ⟨_, _, _, _, _, hs, hround, hcan⟩

theorem Going.continueAsNewLoop {remaining : Nat} {incomingHistory : Option PropagatedHistory}
    {continued : List Generation} {r : LoopResult} (hs : Going s₀ s)
    (h : w.continueAsNewLoop env instanceID terminateEvent remaining s incomingHistory continued =
      .ok r) : Going s₀ r.state ∧ r.state.stalled = none := by
  obtain ⟨_, _, _, _, result, hs, hround, hcan⟩ :=
    continueAsNewLoop_invariant (fun hs h => (Going.runGeneration hs h).1) hs h
  obtain ⟨hr, hstalled⟩ := hs.runGeneration hround
  exact ⟨hr, hstalled hcan⟩

/-- The enforcement of a terminate event leaves the state alone, or forces a completion. -/
theorem enforceTermination_cases (h : w.enforceTermination env terminateEvent s = .ok s') :
    s' = s ∨ ∃ et, s.completedEvent = none ∧ w.applier.actions env.forced none
      { s with pendingTasks := [], pendingTimers := [], pendingMessages := [] } s.customStatus
      [WorkflowProcessor.forcedTermination et] = .ok ({}, s') := by
  unfold WorkflowProcessor.enforceTermination at h
  split at h
  · cases h
    exact .inl rfl
  · next et =>
    split at h
    · cases h
      exact .inl rfl
    · next hincomplete =>
      have hincomplete := Option.not_isSome_iff_eq_none.mp hincomplete
      obtain ⟨s₂, hforced⟩ := forcedTermination_applied w env et
        (s := { s with pendingTasks := [], pendingTimers := [], pendingMessages := [] }) hincomplete
      have h : ((.ok ({}, s₂) : Except ApplyError (ActionsResult × WorkflowRuntimeState)).mapError
          ProcessError.forcing).map Prod.snd = .ok s' := hforced ▸ h
      cases h
      exact .inr ⟨et, hincomplete, hforced⟩

theorem Going.enforceTermination (hs : Going s₀ s) (hstalled : s.stalled = none)
    (h : w.enforceTermination env terminateEvent s = .ok s') :
    Going s₀ s' ∧ s'.stalled = none := by
  rcases enforceTermination_cases h with rfl | ⟨et, -, hforced⟩
  · exact ⟨hs, hstalled⟩
  · have hs : Going s₀ { s with pendingTasks := [], pendingTimers := [], pendingMessages := [] } :=
      ⟨hs.coherent.congr rfl rfl rfl rfl, hs.instanceId, hs.kept, hs.reset⟩
    obtain ⟨hgoing, hnone⟩ := hs.actions hforced
    exact ⟨hgoing, hnone rfl⟩

/-- A cascade only sends `ExecutionTerminated` messages. -/
theorem cascadeTermination_eq (now : Time) (terminateEvent : Option ExecutionTerminatedEvent)
    (s : WorkflowRuntimeState) :
    ∃ msgs, cascadeTermination now terminateEvent s =
        { s with pendingMessages := s.pendingMessages ++ msgs } ∧
      ∀ m ∈ msgs, ∃ et, m.historyEvent.eventType = .executionTerminated et := by
  have hnone : ∃ msgs, s = { s with pendingMessages := s.pendingMessages ++ msgs } ∧
      ∀ m ∈ msgs, ∃ et, m.historyEvent.eventType = .executionTerminated et := by
    refine ⟨[], ?_, fun m hm => absurd hm List.not_mem_nil⟩
    rw [List.append_nil]
  unfold cascadeTermination
  split
  · next et =>
    split
    · unfold appendCascadeTerminateMessages
      split
      · refine ⟨_, rfl, fun m hm => ?_⟩
        obtain ⟨child, -, rfl⟩ := List.mem_map.mp hm
        exact ⟨_, rfl⟩
      · exact hnone
    · exact hnone
  · exact hnone

theorem Going.cascadeTermination (hs : Going s₀ s) (now : Time)
    (terminateEvent : Option ExecutionTerminatedEvent) :
    Going s₀ (cascadeTermination now terminateEvent s) := by
  obtain ⟨msgs, h, -⟩ := cascadeTermination_eq now terminateEvent s
  rw [h]
  exact ⟨hs.coherent.congr rfl rfl rfl rfl, hs.instanceId, hs.kept, hs.reset⟩

end Loop

/-- The two ways of `ProcessWorkItem`: the work item is dropped, or its events are added and the loop is
run. -/
inductive Processes (w : WorkflowProcessor) (env : ProcessEnv) (wi wi' : WorkflowWorkItem) : Prop
  | dropped (unfit : ¬wi.state.isValid ∨ wi.state.isCompleted)
    (state : wi'.state = cascadeTermination env.cascade
      (wi.newEvents.findSome? HistoryEvent.getExecutionTerminated) wi.state)
  | ran (r : LoopResult) (s : WorkflowRuntimeState) (incomplete : wi.state.completedEvent = none)
    (loop : w.continueAsNewLoop env wi.instanceID
      (wi.newEvents.findSome? HistoryEvent.getExecutionTerminated) maxContinueAsNewCount
      ((wi.state.addEvent
        { timestamp := env.turnStartedAt, eventType := .workflowStarted none }).addEvents wi.newEvents)
      wi.incomingHistory [] = .ok r)
    (enforce : w.enforceTermination env (wi.newEvents.findSome? HistoryEvent.getExecutionTerminated)
      r.state = .ok s)
    (state : wi'.state = cascadeTermination env.cascade
      (wi.newEvents.findSome? HistoryEvent.getExecutionTerminated) s)

theorem processes_of_ok {w : WorkflowProcessor} {env : ProcessEnv} {wi wi' : WorkflowWorkItem}
    (h : w.processWorkItem env wi = .ok wi') : Processes w env wi wi' := by
  unfold WorkflowProcessor.processWorkItem WorkflowProcessor.applyWorkItem at h
  dsimp only at h
  split at h
  · next hnone =>
    cases h
    refine .dropped ?_ rfl
    by_contra hfit
    rw [if_neg hfit] at hnone
    cases hnone
  · next s hsome =>
    obtain ⟨r, hloop, h⟩ := Except.bind_eq_ok.mp h
    obtain ⟨s₂, henforce, h⟩ := Except.bind_eq_ok.mp h
    cases h
    split at hsome
    · cases hsome
    · next hfit =>
      cases hsome
      exact .ran r s₂ (Option.not_isSome_iff_eq_none.mp (not_or.mp hfit).2) hloop henforce rfl

/-- What holds once the events are added, and is kept by every round, by a forced termination and by a
cascade, holds at the end of `ProcessWorkItem`, unless the work item is dropped. -/
theorem processWorkItem_invariant {w : WorkflowProcessor} {env : ProcessEnv}
    {wi wi' : WorkflowWorkItem} {J : WorkflowRuntimeState → Prop}
    (hround : ∀ {terminateEvent k s incomingHistory g result s'}, J s →
      w.runGeneration env wi.instanceID terminateEvent k s incomingHistory = .ok (g, result, s') →
      J s')
    (hforced : ∀ {s et s'}, J s → s.completedEvent = none → w.applier.actions env.forced none
      { s with pendingTasks := [], pendingTimers := [], pendingMessages := [] } s.customStatus
      [WorkflowProcessor.forcedTermination et] = .ok ({}, s') → J s')
    (hcascade : ∀ {s msgs}, J s →
      (∀ m ∈ msgs, ∃ et, m.historyEvent.eventType = .executionTerminated et) →
      J { s with pendingMessages := s.pendingMessages ++ msgs })
    (hstart : wi.state.completedEvent = none → J ((wi.state.addEvent
      { timestamp := env.turnStartedAt, eventType := .workflowStarted none }).addEvents wi.newEvents))
    (h : w.processWorkItem env wi = .ok wi') :
    ((¬wi.state.isValid ∨ wi.state.isCompleted) ∧
      ∃ msgs, wi'.state = { wi.state with pendingMessages := wi.state.pendingMessages ++ msgs } ∧
        ∀ m ∈ msgs, ∃ et, m.historyEvent.eventType = .executionTerminated et) ∨
      wi.state.completedEvent = none ∧ J wi'.state := by
  cases processes_of_ok h with
  | dropped unfit state =>
    rw [state]
    exact .inl ⟨unfit, cascadeTermination_eq ..⟩
  | ran r s incomplete loop enforce state =>
    obtain ⟨_, _, _, _, _, hlast, hlastRound, -⟩ :=
      continueAsNewLoop_invariant hround (hstart incomplete) loop
    have hr := hround hlast hlastRound
    have hs : J s := by
      rcases enforceTermination_cases enforce with rfl | ⟨et, hincomplete, henforced⟩
      · exact hr
      · exact hforced hr hincomplete henforced
    obtain ⟨msgs, heq, hmsgs⟩ := cascadeTermination_eq env.cascade
      (wi.newEvents.findSome? HistoryEvent.getExecutionTerminated) s
    rw [state, heq]
    exact .inr ⟨incomplete, hcascade hs hmsgs⟩

/-- What `ProcessWorkItem` makes of the loaded state `s₀`. -/
structure Turned (s₀ s : WorkflowRuntimeState) : Prop extends Going s₀ s where
  incomplete : s.continuedAsNew = true → s₀.completedEvent = none
  stalled : s.stalled = none ∨
    s.stalled = s₀.stalled ∧ s.newEvents = [] ∧ s.continuedAsNew = false

theorem Turned.processWorkItem {w : WorkflowProcessor} {env : ProcessEnv} {wi wi' : WorkflowWorkItem}
    (hc : wi.state.Coherent) (hcan : wi.state.continuedAsNew = false)
    (hnew : wi.state.newEvents = []) (h : w.processWorkItem env wi = .ok wi') :
    Turned wi.state wi'.state := by
  have hs : Going wi.state wi.state :=
    ⟨hc, rfl, fun _ => rfl, fun ht => by rw [hcan] at ht; cases ht⟩
  have hcascade := cascadeTermination_eq env.cascade
    (wi.newEvents.findSome? HistoryEvent.getExecutionTerminated)
  cases processes_of_ok h with
  | dropped unfit state =>
    have hgoing := hs.cascadeTermination env.cascade
      (wi.newEvents.findSome? HistoryEvent.getExecutionTerminated)
    obtain ⟨msgs, heq, -⟩ := hcascade wi.state
    rw [state]
    rw [heq] at hgoing ⊢
    refine ⟨hgoing, fun ht => ?_, .inr ⟨rfl, hnew, hcan⟩⟩
    rw [hcan] at ht
    cases ht
  | ran r s₂ incomplete loop enforce state =>
    -- The events of the batch are added to the loaded state.
    have hs₁ := hs.addEvent { timestamp := env.turnStartedAt, eventType := .workflowStarted none }
    obtain ⟨hr, hstalled⟩ := (hs₁.addEvents wi.newEvents).continueAsNewLoop loop
    obtain ⟨hs₂, hstalled₂⟩ := hr.enforceTermination hstalled enforce
    have hgoing := hs₂.cascadeTermination env.cascade
      (wi.newEvents.findSome? HistoryEvent.getExecutionTerminated)
    obtain ⟨msgs, heq, -⟩ := hcascade s₂
    rw [state]
    rw [heq] at hgoing ⊢
    exact ⟨hgoing, fun _ => incomplete, .inl hstalled₂⟩

/-- A processed work item is still the same lease on the same instance. -/
theorem processWorkItem_lease {w : WorkflowProcessor} {env : ProcessEnv} {wi wi' : WorkflowWorkItem}
    (h : w.processWorkItem env wi = .ok wi') :
    wi'.instanceID = wi.instanceID ∧ wi'.lockedBy = wi.lockedBy ∧ wi'.newEvents = wi.newEvents := by
  unfold WorkflowProcessor.processWorkItem at h
  dsimp only at h
  split at h
  · cases h
    exact ⟨rfl, rfl, rfl⟩
  · obtain ⟨r, -, h⟩ := Except.bind_eq_ok.mp h
    obtain ⟨s, -, h⟩ := Except.bind_eq_ok.mp h
    cases h
    exact ⟨rfl, rfl, rfl⟩

end DurableTask
