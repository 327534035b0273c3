import DurableTask.Backend.Turned

/-!
# Where the events of a turn come from

The events of a processed work item come from the loaded history, from the batch, or from no queue at
all: the engine's own events have no row, and an executor that continues as new hands back events it
was given. So the rows of the events of a turn are a part of the rows of what was loaded and delivered,
in their order if the executor keeps it.
-/

namespace DurableTask

/-- The events of a list that came from the queue have rows that meet a condition. -/
def RowsIn (Q : Nat → Prop) (es : List HistoryEvent) : Prop := ∀ e ∈ es, ∀ u, e.row = some u → Q u

/-- The rows of the events that came from the queue. -/
def rowNumbers (es : List HistoryEvent) : List Nat := es.filterMap HistoryEvent.row

/-- An executor that carries over events it was given, or events of its own. Rows are invisible to an
executor, so it cannot do otherwise. -/
def WorkflowExecutor.CarriesGiven (x : WorkflowExecutor) : Prop :=
  ∀ k id oldEvents newEvents incomingHistory response,
    x k id oldEvents newEvents incomingHistory = .ok response →
    ∀ action ∈ response.actions, ∀ c, action.getCompleteWorkflow = some c →
      ∀ Q, RowsIn Q oldEvents → RowsIn Q newEvents → RowsIn Q c.carryoverEvents

/-- An executor that carries over the events it was given in their order, and none twice. -/
def WorkflowExecutor.CarriesInOrder (x : WorkflowExecutor) : Prop :=
  ∀ k id oldEvents newEvents incomingHistory response,
    x k id oldEvents newEvents incomingHistory = .ok response →
    ∀ action ∈ response.actions, ∀ c, action.getCompleteWorkflow = some c →
      (rowNumbers c.carryoverEvents).Sublist (rowNumbers (oldEvents ++ newEvents))

/-- What the rows of the given events meet, those of the carried-over events meet. -/
def WorkflowExecutor.Carries (K : List Nat → Prop) (x : WorkflowExecutor) : Prop :=
  ∀ k id oldEvents newEvents incomingHistory response,
    x k id oldEvents newEvents incomingHistory = .ok response →
    ∀ action ∈ response.actions, ∀ c, action.getCompleteWorkflow = some c →
      K (rowNumbers (oldEvents ++ newEvents)) → K (rowNumbers c.carryoverEvents)

/-- Both executors of a processor meet a condition. -/
def WorkflowProcessor.Executors (w : WorkflowProcessor) (φ : WorkflowExecutor → Prop) : Prop :=
  φ w.executor ∧ ∀ x, w.inProcessExecutor = some x → φ x

theorem WorkflowProcessor.Executors.selectExecutor {w : WorkflowProcessor}
    {φ : WorkflowExecutor → Prop} (hw : w.Executors φ) (s : WorkflowRuntimeState) :
    φ (w.selectExecutor s) := by
  unfold WorkflowProcessor.selectExecutor
  split
  · next x hx =>
    split
    · exact hw.2 x hx
    · exact hw.1
  · exact hw.1

theorem WorkflowProcessor.Executors.mono {w : WorkflowProcessor} {φ ψ : WorkflowExecutor → Prop}
    (hw : w.Executors φ) (h : ∀ x, φ x → ψ x) : w.Executors ψ :=
  ⟨h _ hw.1, fun x hx => h x (hw.2 x hx)⟩

variable {Q : Nat → Prop} {K : List Nat → Prop} {s s' : WorkflowRuntimeState}

theorem rowNumbers_append (es es' : List HistoryEvent) : rowNumbers (es ++ es') = rowNumbers es ++ rowNumbers es' :=
  List.filterMap_append

theorem rowsIn_iff {es : List HistoryEvent} : RowsIn Q es ↔ ∀ u ∈ rowNumbers es, Q u := by
  unfold RowsIn rowNumbers
  simp only [List.mem_filterMap]
  exact ⟨fun h u ⟨e, he, hu⟩ => h e he u hu, fun h e he u hu => h u ⟨e, he, hu⟩⟩

theorem WorkflowExecutor.CarriesGiven.carries {x : WorkflowExecutor} (h : x.CarriesGiven) :
    x.Carries fun rows => ∀ u ∈ rows, Q u := by
  intro k id oldEvents newEvents incomingHistory response hresponse action haction c hc hrows
  rw [rowNumbers_append, List.forall_mem_append, ← rowsIn_iff, ← rowsIn_iff] at hrows
  exact rowsIn_iff.mp (h k id oldEvents newEvents incomingHistory response hresponse action haction c hc
    Q hrows.1 hrows.2)

namespace WorkflowRuntimeState

theorem allEvents_addEvent (s : WorkflowRuntimeState) (e : HistoryEvent) :
    (s.addEvent e).allEvents.Sublist (s.allEvents ++ [e]) := by
  unfold addEvent
  rcases addOrDrop_cases true (s, none) e with ⟨-, hdrop⟩ | ⟨q, hq, hadd⟩
  · rw [hdrop]
    exact List.sublist_append_left _ _
  · rw [hadd, noteEvent_eq hq]
    have hall : s.oldEvents ++ (s.newEvents ++ [e]) = s.allEvents ++ [e] := (List.append_assoc ..).symm
    exact hall ▸ List.Sublist.refl _

theorem allEvents_foldl_addEvent (es : List HistoryEvent) (s : WorkflowRuntimeState) :
    (es.foldl addEvent s).allEvents.Sublist (s.allEvents ++ es) := by
  induction es generalizing s with
  | nil => exact List.sublist_append_left _ _
  | cons e es ih =>
    refine (ih (s.addEvent e)).trans ?_
    rw [List.append_cons]
    exact (s.allEvents_addEvent e).append (List.Sublist.refl es)

theorem allEvents_addEvents (s : WorkflowRuntimeState) (es : List HistoryEvent) :
    (s.addEvents es).allEvents.Sublist (s.allEvents ++ es) := by
  obtain ⟨hnew, hold⟩ := s.addEvents_events es
  unfold allEvents
  rw [hnew, hold, ← List.append_assoc]
  exact (List.Sublist.refl _).append (keep_sublist ..)

theorem allEvents_new (id : InstanceID) (customStatus : Option String) (es : List HistoryEvent) :
    (new id customStatus es).allEvents.Sublist es := by
  obtain ⟨hold, hnew⟩ := new_events id customStatus es
  unfold allEvents
  rw [hold, hnew, List.append_nil]
  exact keep_sublist ..

theorem rowsIn_new (id : InstanceID) (customStatus : Option String) {es : List HistoryEvent}
    (hes : RowsIn Q es) : RowsIn Q (new id customStatus es).allEvents :=
  fun e he => hes e ((allEvents_new id customStatus es).mem he)

theorem rowNumbers_recordVersion (s : WorkflowRuntimeState) (v : Option WorkflowVersion) :
    rowNumbers (s.recordVersion v).allEvents = rowNumbers s.allEvents := by
  have hrows (es es' : List HistoryEvent) (h : es.map HistoryEvent.row = es'.map HistoryEvent.row) :
      rowNumbers es = rowNumbers es' := by
    have hmap (es : List HistoryEvent) : rowNumbers es = (es.map HistoryEvent.row).filterMap id := by
      rw [List.filterMap_map]
      rfl
    rw [hmap, hmap, h]
  unfold WorkflowRuntimeState.recordVersion
  cases v with
  | none => rfl
  | some version =>
    dsimp only
    split
    · rfl
    · refine hrows _ _ ?_
      unfold allEvents
      rw [List.map_append, List.map_append]
      exact congrArg _ (map_recordVersion HistoryEvent.row (fun _ _ _ _ => rfl) version s.newEvents)

end WorkflowRuntimeState

open WorkflowRuntimeState

/-! ### One turn -/

/-- What a part of the rows meets if all of them do. -/
def RowsPart (K : List Nat → Prop) : Prop := ∀ rows rows', rows'.Sublist rows → K rows → K rows'

theorem RowsPart.addEvent (hK : RowsPart K) (hs : K (rowNumbers s.allEvents)) {e : HistoryEvent}
    (he : e.row = none) : K (rowNumbers (s.addEvent e).allEvents) := by
  refine hK _ _ ((s.allEvents_addEvent e).filterMap HistoryEvent.row) ?_
  rw [List.filterMap_append, List.filterMap_cons_none he, List.filterMap_nil, List.append_nil]
  exact hs

namespace Applier

variable {a : Applier} {env : ApplyEnv} {receivedHistory : Option PropagatedHistory}
  {customStatus : Option String} {resolved : DedupSet}

theorem rows_effect {i : Nat} {action : WorkflowAction} {f : Effect} (hK : RowsPart K)
    (hs : K (rowNumbers s.allEvents)) (h : a.effect env receivedHistory i resolved s action = .ok f) :
    K (rowNumbers (f.apply s).allEvents) := by
  unfold Effect.apply
  cases he : f.event with
  | none => exact hs
  | some e => exact hK.addEvent hs (effect_event_status h he).2.2

theorem rows_continueAsNewState (i : Nat) (router : TaskRouter) {c : CompleteWorkflowAction}
    (startEvent : ExecutionStartedEvent) (hK : RowsPart K) (hc : K (rowNumbers c.carryoverEvents)) :
    K (rowNumbers (continueAsNewState env i router customStatus c s startEvent).allEvents) := by
  unfold continueAsNewState
  refine hK _ _ ((allEvents_foldl_addEvent c.carryoverEvents _).filterMap HistoryEvent.row) ?_
  rw [List.filterMap_append]
  -- The two first events have no row.
  have hfirst : RowsPart fun rows => K (rows ++ rowNumbers c.carryoverEvents) :=
    fun _ _ hsub => hK _ _ (hsub.append (List.Sublist.refl _))
  refine hfirst.addEvent (hfirst.addEvent ?_ rfl) rfl
  exact hc

theorem rows_actions {actions : List WorkflowAction} {result : ActionsResult} (hK : RowsPart K)
    (hs : K (rowNumbers s.allEvents))
    (hcarry : ∀ action ∈ actions, ∀ c, action.getCompleteWorkflow = some c →
      K (rowNumbers c.carryoverEvents))
    (h : a.actions env receivedHistory s customStatus actions = .ok (result, s')) :
    K (rowNumbers s'.allEvents) := by
  have hs : K (rowNumbers ({ s with customStatus := customStatus, stalled := none } :
    WorkflowRuntimeState).allEvents) := hs
  refine applyActions_invariant (J := fun s => K (rowNumbers s.allEvents))
    (fun hs _ _ hf => rows_effect hK hs hf) (fun _ hmem hc _ _ => ?_) hs h
  exact rows_continueAsNewState _ _ _ hK
    (hcarry _ hmem _ (getCompleteWorkflow_of_continueAsNewAction hc))

end Applier

section Turn

variable {w : WorkflowProcessor} {env : ProcessEnv} {instanceID : InstanceID}
  {terminateEvent : Option ExecutionTerminatedEvent}

theorem rows_runGeneration (hw : w.Executors (WorkflowExecutor.Carries K)) {k : Nat}
    {incomingHistory : Option PropagatedHistory} {g : Generation} {result : ActionsResult}
    (hK : RowsPart K) (hs : K (rowNumbers s.allEvents))
    (h : w.runGeneration env instanceID terminateEvent k s incomingHistory = .ok (g, result, s')) :
    K (rowNumbers s'.allEvents) := by
  obtain ⟨response, actions, hresponse, hactions, happly⟩ := runGeneration_actions h
  refine Applier.rows_actions hK ((s.rowNumbers_recordVersion response.version).symm ▸ hs)
    (fun action haction c hc => ?_) happly
  exact hw.selectExecutor s k instanceID _ _ _ response hresponse action (hactions action haction) c hc hs

/-- The rows of a processed work item meet what the loaded and the delivered ones meet. -/
theorem rows_processWorkItem (hK : RowsPart K) (hw : w.Executors (WorkflowExecutor.Carries K))
    {wi wi' : WorkflowWorkItem} (hs : K (rowNumbers wi.state.allEvents ++ rowNumbers wi.newEvents))
    (h : w.processWorkItem env wi = .ok wi') : K (rowNumbers wi'.state.allEvents) := by
  have hturn := processWorkItem_invariant (J := fun s => K (rowNumbers s.allEvents))
    (fun hs h => rows_runGeneration hw hK hs h) ?forced (fun hs _ => hs) (fun _ => ?start) h
  case forced =>
    intro s et s' hs _ hforced
    have hs : K (rowNumbers ({ s with pendingTasks := [], pendingTimers := [], pendingMessages := [] } :
      WorkflowRuntimeState).allEvents) := hs
    refine Applier.rows_actions hK hs (fun action haction c hc => ?_) hforced
    rw [List.mem_singleton.mp haction] at hc
    cases hc
    exact hK _ _ (List.nil_sublist _) hs
  case start =>
    -- The event that the turn adds has no row.
    have hadd := wi.state.allEvents_addEvent
      { timestamp := env.turnStartedAt, eventType := .workflowStarted none }
    refine hK _ _ ?_ hs
    rw [← rowNumbers_append]
    have hsub := ((allEvents_addEvents _ wi.newEvents).trans
      (hadd.append (List.Sublist.refl wi.newEvents))).filterMap HistoryEvent.row
    rw [List.append_assoc, List.filterMap_append] at hsub
    rw [rowNumbers_append]
    exact hsub
  rcases hturn with ⟨-, msgs, heq, -⟩ | ⟨-, hturn⟩
  · rw [heq]
    exact hK _ _ (List.sublist_append_left _ _) hs
  · exact hturn

/-- The events of a processed work item were loaded or delivered, if they came from a queue. -/
theorem rowsIn_processWorkItem (hw : w.Executors WorkflowExecutor.CarriesGiven) {wi wi' : WorkflowWorkItem}
    (hs : RowsIn Q wi.state.allEvents) (hnew : RowsIn Q wi.newEvents)
    (h : w.processWorkItem env wi = .ok wi') : RowsIn Q wi'.state.allEvents := by
  have hK : RowsPart fun rows => ∀ u ∈ rows, Q u := fun _ _ hsub h u hu => h u (hsub.mem hu)
  refine rowsIn_iff.mpr (rows_processWorkItem hK (hw.mono fun _ hx => hx.carries) ?_ h)
  rw [List.forall_mem_append]
  exact ⟨rowsIn_iff.mp hs, rowsIn_iff.mp hnew⟩

/-- The rows of a processed work item are some of the loaded ones and then of the delivered ones, in
order. -/
theorem rows_sublist_processWorkItem (hw : w.Executors WorkflowExecutor.CarriesInOrder)
    {wi wi' : WorkflowWorkItem} (h : w.processWorkItem env wi = .ok wi') :
    (rowNumbers wi'.state.allEvents).Sublist (rowNumbers wi.state.allEvents ++ rowNumbers wi.newEvents) := by
  refine rows_processWorkItem (K := fun rows =>
    rows.Sublist (rowNumbers wi.state.allEvents ++ rowNumbers wi.newEvents)) (fun _ _ => List.Sublist.trans)
    (hw.mono fun x hx => ?_) (List.Sublist.refl _) h
  intro k id oldEvents newEvents incomingHistory response hresponse action haction c hc hrows
  exact (hx k id oldEvents newEvents incomingHistory response hresponse action haction c hc).trans hrows

end Turn

end DurableTask
