import DurableTask.RuntimeState.Completion

/-!
# Runtime states agree with their events

A state keeps what its events say next to the events. Every way in which the engine builds or extends a
state keeps the two in agreement, and keeps the events such that loading them again drops none.
-/

namespace DurableTask

namespace WorkflowRuntimeState

variable {s : WorkflowRuntimeState} {seen : Option DedupSet} {e : HistoryEvent}

/-- All events of a state. -/
def allEvents (s : WorkflowRuntimeState) : List HistoryEvent := s.oldEvents ++ s.newEvents

/-- What a state keeps about its events is what they say, and loading them drops none. -/
structure Coherent (s : WorkflowRuntimeState) : Prop where
  loadable : Loadable s.allEvents
  startEvent : s.startEvent = s.allEvents.findSome? HistoryEvent.getExecutionStarted
  completedEvent : s.completedEvent = s.allEvents.findSome? HistoryEvent.getExecutionCompleted
  isSuspended : s.isSuspended = s.allEvents.foldl suspendedAfter false

/-- The set of resolutions, if there is one, is that of the events. -/
def Tracks (s : WorkflowRuntimeState) (seen : Option DedupSet) : Prop :=
  ∀ set, seen = some set → ∀ k, k ∈ set ↔ k ∈ s.allEvents.filterMap HistoryEvent.resolution

theorem isPresent_iff (events : List HistoryEvent) (k : Kind × ActionID) :
    isPresent events k = true ↔ k ∈ events.filterMap HistoryEvent.resolution := by
  simp [isPresent, List.any_eq_true, List.mem_filterMap]

/-- An accepted event is no second start, completion or resolution. -/
theorem accepted_of_noteEvent (ht : s.Tracks seen) {q : WorkflowRuntimeState × Option DedupSet}
    (h : s.noteEvent e seen = some q) :
    (e.getExecutionStarted = none ∨ s.startEvent = none) ∧
      (e.getExecutionCompleted = none ∨ s.completedEvent = none) ∧
      (∀ k, e.resolution = some k → k ∉ s.allEvents.filterMap HistoryEvent.resolution) ∧
      ∀ set, q.2 = some set → ∀ k, k ∈ set ↔
        k ∈ (s.allEvents ++ [e]).filterMap HistoryEvent.resolution := by
  have hsame (hres : e.resolution = none) (set : DedupSet) (hset : seen = some set)
      (k : Kind × ActionID) :
      k ∈ set ↔ k ∈ (s.allEvents ++ [e]).filterMap HistoryEvent.resolution := by
    rw [List.filterMap_append, List.filterMap_cons_none hres]
    exact (ht set hset k).trans (by simp)
  have hresolution (k : Kind × ActionID) (hk : e.resolution = some k)
      (h : s.noteResolution e seen = some q) :
      k ∉ s.allEvents.filterMap HistoryEvent.resolution ∧ ∀ set, q.2 = some set → ∀ k', k' ∈ set ↔
        k' ∈ (s.allEvents ++ [e]).filterMap HistoryEvent.resolution := by
    unfold noteResolution at h
    rw [hk] at h
    cases hseen : seen with
    | none =>
      rw [hseen] at h
      dsimp only at h
      split at h
      · cases h
      · next hnot =>
        cases h
        refine ⟨fun hmem => hnot ?_, nofun⟩
        rw [Bool.or_eq_true, isPresent_iff, isPresent_iff]
        rw [allEvents, List.filterMap_append, List.mem_append] at hmem
        exact hmem
    | some set =>
      rw [hseen] at h
      dsimp only at h
      split at h
      · cases h
      · next hnot =>
        cases h
        refine ⟨fun hmem => hnot ((ht set hseen k).mpr hmem), fun set' hset' k' => ?_⟩
        cases hset'
        rw [List.mem_cons, ht set hseen k', List.filterMap_append, List.filterMap_cons_some hk,
          List.mem_append]
        simp [or_comm]
  rcases e with ⟨id, ts, body, router, row⟩
  cases body with
  | executionStarted es =>
    unfold noteEvent at h
    dsimp only at h
    split at h
    · cases h
    · next hs =>
      cases h
      exact ⟨.inr (Option.not_isSome_iff_eq_none.mp hs), .inl rfl, nofun, hsame rfl⟩
  | executionCompleted ec =>
    unfold noteEvent at h
    dsimp only at h
    split at h
    · cases h
    · next hs =>
      cases h
      exact ⟨.inl rfl, .inr (Option.not_isSome_iff_eq_none.mp hs), nofun, hsame rfl⟩
  | taskCompleted | taskFailed | timerFired | childWorkflowInstanceCompleted
  | childWorkflowInstanceFailed =>
    obtain ⟨hnew, hset⟩ := hresolution _ rfl h
    refine ⟨.inl rfl, .inl rfl, fun k hk => ?_, hset⟩
    cases hk
    exact hnew
  | _ =>
    cases h
    exact ⟨.inl rfl, .inl rfl, nofun, hsame rfl⟩

section Concat

variable {α : Type} {f : HistoryEvent → Option α} {l : List HistoryEvent}

theorem findSome?_concat (f : HistoryEvent → Option α) (l : List HistoryEvent) (e : HistoryEvent) :
    (l ++ [e]).findSome? f = (l.findSome? f).or (f e) := by
  rw [List.findSome?_append, List.findSome?_cons]
  cases f e <;> rfl

theorem length_filterMap_concat (hl : (l.filterMap f).length ≤ 1)
    (h : f e = none ∨ l.findSome? f = none) : ((l ++ [e]).filterMap f).length ≤ 1 := by
  rw [List.filterMap_append]
  rcases h with h | h
  · rw [List.filterMap_cons_none h, List.filterMap_nil, List.append_nil]
    exact hl
  · rw [List.filterMap_eq_nil_iff.mpr (List.findSome?_eq_none_iff.mp h), List.nil_append]
    exact List.length_filterMap_le f [e]

end Concat

/-- Where an accepted event goes. -/
theorem allEvents_appendEvent (s : WorkflowRuntimeState) (e : HistoryEvent) {isNew : Bool}
    (h : isNew = true ∨ s.newEvents = []) :
    (s.appendEvent e isNew).allEvents = s.allEvents ++ [e] := by
  unfold appendEvent allEvents
  cases isNew with
  | true => exact (List.append_assoc ..).symm
  | false =>
    have hnil : s.newEvents = [] := h.resolve_left nofun
    simp [hnil]

/-- Adding an event keeps a state coherent. -/
theorem Coherent.addOrDrop (h : s.Coherent) (ht : s.Tracks seen) (e : HistoryEvent) {isNew : Bool}
    (hnew : isNew = true ∨ s.newEvents = []) :
    (addOrDrop isNew (s, seen) e).1.Coherent ∧
      (addOrDrop isNew (s, seen) e).1.Tracks (WorkflowRuntimeState.addOrDrop isNew (s, seen) e).2 := by
  rcases addOrDrop_cases isNew (s, seen) e with ⟨-, hdrop⟩ | ⟨q, hq, hadd⟩
  · rw [hdrop]
    exact ⟨h, ht⟩
  · have hstart := addOrDrop_startEvent isNew (s, seen) e
    have hcompleted := addOrDrop_completedEvent isNew (s, seen) e
    have hsuspended := addOrDrop_isSuspended isNew (s, seen) e
    obtain ⟨hes, hec, hres, hset⟩ := accepted_of_noteEvent ht hq
    have hq₁ : q.1.allEvents = s.allEvents ∧ q.1.newEvents = s.newEvents := by
      rw [noteEvent_eq hq]
      exact ⟨rfl, rfl⟩
    have hall : (q.1.appendEvent e isNew).allEvents = s.allEvents ++ [e] := by
      rw [allEvents_appendEvent q.1 e (hq₁.2 ▸ hnew), hq₁.1]
    rw [hadd] at hstart hcompleted hsuspended ⊢
    refine ⟨⟨⟨?_, ?_, ?_⟩, ?_, ?_, ?_⟩, fun set hset' k => ?_⟩
    · rw [hall]
      exact length_filterMap_concat h.loadable.started (hes.imp_right (h.startEvent ▸ ·))
    · rw [hall]
      exact length_filterMap_concat h.loadable.completed (hec.imp_right (h.completedEvent ▸ ·))
    · rw [hall, List.filterMap_append]
      cases hk : e.resolution with
      | none =>
        rw [List.filterMap_cons_none hk, List.filterMap_nil, List.append_nil]
        exact h.loadable.nodup
      | some k =>
        rw [List.filterMap_cons_some hk, List.filterMap_nil]
        exact List.nodup_append.mpr ⟨h.loadable.nodup, List.nodup_cons.mpr ⟨List.not_mem_nil, .nil⟩,
          fun a ha b hb hab => hres k hk (List.mem_singleton.mp hb ▸ hab ▸ ha)⟩
    · rw [hstart, hall, findSome?_concat, h.startEvent]
    · rw [hcompleted, hall, findSome?_concat, h.completedEvent]
    · rw [hsuspended, hall, List.foldl_append, h.isSuspended]
      rfl
    · rw [hall]
      exact hset set hset' k

/-- Adding a list of events keeps a state coherent. -/
theorem Coherent.foldl_addOrDrop (es : List HistoryEvent) {p : WorkflowRuntimeState × Option DedupSet}
    {isNew : Bool} (h : p.1.Coherent) (ht : p.1.Tracks p.2)
    (hnew : isNew = true ∨ p.1.newEvents = []) :
    (es.foldl (WorkflowRuntimeState.addOrDrop isNew) p).1.Coherent := by
  induction es generalizing p with
  | nil => exact h
  | cons e es ih =>
    obtain ⟨h', ht'⟩ := h.addOrDrop ht e hnew
    refine ih h' ht' ?_
    cases isNew with
    | true => exact .inl rfl
    | false =>
      have hnil : p.1.newEvents = [] := hnew.resolve_left nofun
      right
      rcases addOrDrop_cases false p e with ⟨-, hdrop⟩ | ⟨q, hq, hadd⟩
      · rw [hdrop]
        exact hnil
      · rw [hadd, noteEvent_eq hq]
        exact hnil

theorem Coherent.addEvent (h : s.Coherent) (e : HistoryEvent) : (s.addEvent e).Coherent := by
  have hnone : s.Tracks none := nofun
  exact (h.addOrDrop hnone e (.inl rfl)).1

theorem Coherent.addEvents (h : s.Coherent) (es : List HistoryEvent) : (s.addEvents es).Coherent := by
  refine h.foldl_addOrDrop (p := (s, some (DedupSet.newForState s))) es ?_ (.inl rfl)
  intro set hset k
  cases hset
  rfl

/-- Loading a history gives a coherent state. -/
theorem coherent_new (id : InstanceID) (customStatus : Option String) (h : List HistoryEvent) :
    (new id customStatus h).Coherent := by
  refine Coherent.foldl_addOrDrop h (p := ({ instanceId := id, customStatus := customStatus }, some []))
    ⟨⟨Nat.zero_le 1, Nat.zero_le 1, .nil⟩, rfl, rfl, rfl⟩ ?_ (.inr rfl)
  intro set hset k
  cases hset
  rfl

/-- What a coherent state says is what its events load to. -/
theorem Coherent.new_eq (h : s.Coherent) (id : InstanceID) (customStatus : Option String) :
    (new id customStatus s.allEvents).oldEvents = s.allEvents ∧
      (new id customStatus s.allEvents).startEvent = s.startEvent ∧
      (new id customStatus s.allEvents).completedEvent = s.completedEvent ∧
      (new id customStatus s.allEvents).isSuspended = s.isSuspended := by
  have hnew := coherent_new id customStatus s.allEvents
  obtain ⟨hold, hempty⟩ := new_events id customStatus s.allEvents
  rw [h.loadable.keep_eq] at hold
  have hall : (new id customStatus s.allEvents).allEvents = s.allEvents := by
    unfold allEvents at hold hempty ⊢
    rw [hold, hempty, List.append_nil]
  refine ⟨hold, ?_, ?_, ?_⟩
  · rw [hnew.startEvent, hall, h.startEvent]
  · rw [hnew.completedEvent, hall, h.completedEvent]
  · rw [hnew.isSuspended, hall, h.isSuspended]

theorem new_stalled (id : InstanceID) (customStatus : Option String) {h : List HistoryEvent}
    (hh : ∀ e ∈ h, e.getExecutionStalled = none) :
    (new id customStatus h).stalled = none := by
  unfold new
  refine List.foldlRecOn (motive := fun p : WorkflowRuntimeState × Option DedupSet =>
    p.1.stalled = none) h _ rfl fun p hp e he => ?_
  exact Applier.addOrDrop_stalled (hh e he) false hp

theorem runtimeStatus_congr {s' : WorkflowRuntimeState} (hstart : s'.startEvent = s.startEvent)
    (hcompleted : s'.completedEvent = s.completedEvent) (hsuspended : s'.isSuspended = s.isSuspended)
    (hstalled : s'.stalled = s.stalled) : s'.runtimeStatus = s.runtimeStatus := by
  unfold runtimeStatus
  rw [hstart, hcompleted, hsuspended, hstalled]

theorem Coherent.foldl_addEvent (h : s.Coherent) (es : List HistoryEvent) :
    (es.foldl WorkflowRuntimeState.addEvent s).Coherent := by
  induction es generalizing s with
  | nil => exact h
  | cons e es ih => exact ih (h.addEvent e)

/-- Only the events and what they say matter. -/
theorem Coherent.congr {s' : WorkflowRuntimeState} (h : s.Coherent) (hall : s'.allEvents = s.allEvents)
    (hstart : s'.startEvent = s.startEvent) (hcompleted : s'.completedEvent = s.completedEvent)
    (hsuspended : s'.isSuspended = s.isSuspended) : s'.Coherent :=
  ⟨hall ▸ h.loadable, hall ▸ hstart.trans h.startEvent, hall ▸ hcompleted.trans h.completedEvent,
    hall ▸ hsuspended.trans h.isSuspended⟩

end WorkflowRuntimeState

namespace Applier

variable {a : Applier} {env : ApplyEnv} {receivedHistory : Option PropagatedHistory}
  {customStatus : Option String} {resolved : DedupSet} {s s' : WorkflowRuntimeState}

theorem Effect.coherent (f : Effect) (h : s.Coherent) : (f.apply s).Coherent := by
  unfold Effect.apply
  cases f.event with
  | none => exact h.congr rfl rfl rfl rfl
  | some e => exact (h.addEvent e).congr rfl rfl rfl rfl

theorem continueAsNewState_coherent (i : Nat) (router : TaskRouter) (c : CompleteWorkflowAction)
    (startEvent : ExecutionStartedEvent) :
    (continueAsNewState env i router customStatus c s startEvent).Coherent := by
  unfold continueAsNewState
  refine WorkflowRuntimeState.Coherent.foldl_addEvent ?_ _
  refine WorkflowRuntimeState.Coherent.addEvent (WorkflowRuntimeState.Coherent.addEvent ?_ _) _
  exact (WorkflowRuntimeState.coherent_new s.instanceId customStatus []).congr rfl rfl rfl rfl

theorem actions_coherent {actions : List WorkflowAction} {result : ActionsResult} (hs : s.Coherent)
    (h : a.actions env receivedHistory s customStatus actions = .ok (result, s')) : s'.Coherent := by
  have hs : ({ s with customStatus := customStatus, stalled := none } :
    WorkflowRuntimeState).Coherent := hs.congr rfl rfl rfl rfl
  exact applyActions_invariant (fun hs _ _ _ => Effect.coherent _ hs)
    (fun _ _ _ _ _ => continueAsNewState_coherent ..) hs h

theorem foldl_addEvent_frame (es : List HistoryEvent) (s : WorkflowRuntimeState) :
    (es.foldl WorkflowRuntimeState.addEvent s).outbox = s.outbox ∧
      (es.foldl WorkflowRuntimeState.addEvent s).oldEvents = s.oldEvents := by
  induction es generalizing s with
  | nil => exact ⟨rfl, rfl⟩
  | cons e es ih =>
    obtain ⟨hout, hold⟩ := ih (s.addEvent e)
    refine ⟨hout.trans (s.addEvent_outbox e), hold.trans ?_⟩
    unfold WorkflowRuntimeState.addEvent
    rcases WorkflowRuntimeState.addOrDrop_cases true (s, none) e with ⟨-, hdrop⟩ | ⟨q, hq, hadd⟩
    · rw [hdrop]
    · rw [hadd, WorkflowRuntimeState.noteEvent_eq hq]
      rfl

/-- A fresh generation. -/
theorem continueAsNewState_frame (i : Nat) (router : TaskRouter) (c : CompleteWorkflowAction)
    (startEvent : ExecutionStartedEvent) :
    (continueAsNewState env i router customStatus c s startEvent).outbox =
        (s.instanceId, [], [], [], true, customStatus) ∧
      (continueAsNewState env i router customStatus c s startEvent).oldEvents = [] := by
  -- The two first events and the carried-over ones are one list.
  exact foldl_addEvent_frame (_ :: _ :: c.carryoverEvents) _

/-- A loop that continues as new ends with a fresh generation. -/
theorem applyActions_continues {i : Nat} {actions : List WorkflowAction}
    {result result' : ActionsResult}
    (h : a.applyActions env receivedHistory customStatus resolved i actions result s =
      .ok (result', s'))
    (hfalse : result.continuedAsNew = false) (hcan : result'.continuedAsNew = true) :
    s'.oldEvents = [] ∧ s'.outbox = (s.instanceId, [], [], [], true, customStatus) := by
  induction actions generalizing i result s with
  | nil =>
    cases h
    rw [hfalse] at hcan
    cases hcan
  | cons action actions ih =>
    unfold applyActions at h
    split at h
    · next c hs hc =>
      split at h <;> cases h
      next startEvent hstart =>
      exact (continueAsNewState_frame i _ c startEvent).symm
    · obtain ⟨f, hf, h⟩ := Except.bind_eq_ok.mp h
      have hout : ∀ outgoing, (ActionsResult.addOutgoing result action.id outgoing).continuedAsNew =
          false := fun outgoing => by
        cases outgoing <;> exact hfalse
      rw [← (effect_framed hf).instanceId]
      exact ih h (hout _)

/-- A call of `Actions` either continues as new or leaves the loaded events alone. -/
theorem actions_cases {actions : List WorkflowAction} {result : ActionsResult}
    (h : a.actions env receivedHistory s customStatus actions = .ok (result, s')) :
    (result.continuedAsNew = true ∧ s'.oldEvents = [] ∧
      s'.outbox = (s.instanceId, [], [], [], true, customStatus)) ∨
    (result.continuedAsNew = false ∧ s'.oldEvents = s.oldEvents ∧ s'.instanceId = s.instanceId ∧
      s'.continuedAsNew = s.continuedAsNew ∧ s'.stalled = none) := by
  cases hcan : result.continuedAsNew with
  | false =>
    obtain ⟨added, ha⟩ := actions_applied h hcan
    have hf := applyActions_framed h hcan
    exact .inr ⟨rfl, ha.oldEvents, hf.instanceId, hf.continuedAsNew, hf.stalled rfl⟩
  | true =>
    have hfresh := applyActions_continues h rfl hcan
    exact .inl ⟨rfl, hfresh⟩

end Applier

end DurableTask
