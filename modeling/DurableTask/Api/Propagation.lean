import DurableTask.RuntimeState.Scheduling

/-!
# Propagated history

`api/propagation.go`: a workflow or an activity reads the history that was propagated to it, which
`assembleProtoPropagatedHistory` put together. Marshalling an event is taken to lose nothing, so a raw
event is the event. What is read back are the events that went in, cut into one chunk for each generation
(`propagation_round_trip`).
-/

namespace DurableTask

namespace Api

/-- `historyChunk`: a range of events of one workflow. -/
structure HistoryChunk where
  appID : String
  startEventIndex : Int
  eventCount : Int
  instanceID : InstanceID
  workflowName : String
deriving DecidableEq, Repr

/-- `api.PropagatedHistory`. -/
structure PropagatedHistory where
  events : List HistoryEvent
  scope : HistoryPropagationScope
  chunks : List HistoryChunk
deriving DecidableEq, Repr

structure WorkflowResult where
  found : Bool
  instanceID : InstanceID
  appID : String
  name : String
  events : List HistoryEvent
deriving DecidableEq, Repr

/-- The loop of `ValidatePropagatedHistory` from the chunk at position `i`. -/
def validateChunks : Nat → List PropagatedHistoryChunk → Except String Unit
  | _, [] => .ok ()
  | i, c :: cs =>
    if c.appId = "" then .error ("propagated history: chunk " ++ toString i ++ " has empty appId")
    else validateChunks (i + 1) cs

def validatePropagatedHistory (ph : DurableTask.PropagatedHistory) : Except String Unit :=
  validateChunks 0 ph.chunks

/-- The loop of `PropagatedHistoryFromProto`, after `events` have been decoded. -/
def decodeChunks : List HistoryEvent → List PropagatedHistoryChunk → List HistoryEvent × List HistoryChunk
  | events, [] => (events, [])
  | events, c :: cs =>
    let start := events.length
    let events := events ++ c.rawEvents
    let chunk : HistoryChunk :=
      { appID := c.appId, startEventIndex := start, eventCount := events.length - start
        instanceID := c.instanceId, workflowName := c.workflowName }
    let (events, chunks) := decodeChunks events cs
    (events, chunk :: chunks)

def propagatedHistoryFromProto : Option DurableTask.PropagatedHistory → Except String (Option PropagatedHistory)
  | none => .ok none
  | some ph => do
    validatePropagatedHistory ph
    let (events, chunks) := decodeChunks [] ph.chunks
    return some { events := events, scope := ph.scope, chunks := chunks }

namespace PropagatedHistory

variable (ph : PropagatedHistory)

/-- `chunkEvents`, with the checks against chunks that do not fit the events. -/
def chunkEvents (chunk : HistoryChunk) : List HistoryEvent :=
  let start := chunk.startEventIndex
  if start < 0 ∨ start > ph.events.length then []
  else
    let stop := min (start + chunk.eventCount) ph.events.length
    if stop < start then [] else (ph.events.drop start.toNat).take (stop - start).toNat

def makeWorkflowResult (chunk : HistoryChunk) : WorkflowResult :=
  { found := true, instanceID := chunk.instanceID, appID := chunk.appID, name := chunk.workflowName
    events := ph.chunkEvents chunk }

def getWorkflows : List WorkflowResult := ph.chunks.map ph.makeWorkflowResult

/-- `GetEventsByAppID`, `GetEventsByInstanceID` and `GetEventsByWorkflowName`. -/
def getEventsBy {α : Type} [DecidableEq α] (key : HistoryChunk → α) (value : α) : List HistoryEvent :=
  (ph.chunks.filter (key · = value)).flatMap ph.chunkEvents

def getEventsByAppID : String → List HistoryEvent := ph.getEventsBy HistoryChunk.appID

def getEventsByInstanceID : InstanceID → List HistoryEvent := ph.getEventsBy HistoryChunk.instanceID

def getEventsByWorkflowName : String → List HistoryEvent := ph.getEventsBy HistoryChunk.workflowName

end PropagatedHistory

/-! ### Decoding -/

/-- The view of a chunk that a reader gets. -/
def workflowResult (c : PropagatedHistoryChunk) : WorkflowResult :=
  { found := true, instanceID := c.instanceId, appID := c.appId, name := c.workflowName
    events := c.rawEvents }

/-- Chunks lie one after the other, from one index to another. -/
def Contiguous : Int → List HistoryChunk → Int → Prop
  | start, [], stop => start = stop
  | start, c :: cs, stop =>
    c.startEventIndex = start ∧ 0 ≤ c.eventCount ∧ Contiguous (start + c.eventCount) cs stop

/-- A range within the events is what stands there. -/
theorem chunkEvents_append (scope : HistoryPropagationScope) (chunks : List HistoryChunk)
    (before own after : List HistoryEvent) {chunk : HistoryChunk}
    (hstart : chunk.startEventIndex = before.length) (hcount : chunk.eventCount = own.length) :
    PropagatedHistory.chunkEvents ⟨before ++ own ++ after, scope, chunks⟩ chunk = own := by
  unfold PropagatedHistory.chunkEvents
  simp only [hstart, hcount, List.length_append]
  rw [if_neg (by omega)]
  have hstop : min ((before.length : Int) + own.length) ((before.length + own.length + after.length : Nat) : Int) =
      before.length + own.length := by omega
  rw [hstop, if_neg (by omega)]
  have hlen : ((before.length : Int) + own.length - before.length).toNat = own.length := by omega
  rw [hlen, Int.toNat_natCast, List.append_assoc, List.drop_left, List.take_left]

theorem decodeChunks_events (events : List HistoryEvent) (cs : List PropagatedHistoryChunk) :
    (decodeChunks events cs).1 = events ++ cs.flatMap PropagatedHistoryChunk.rawEvents := by
  induction cs generalizing events with
  | nil => exact (List.append_nil _).symm
  | cons c cs ih =>
    unfold decodeChunks
    dsimp only
    rw [ih, List.flatMap_cons, List.append_assoc]

theorem decodeChunks_contiguous (events : List HistoryEvent) (cs : List PropagatedHistoryChunk) :
    Contiguous events.length (decodeChunks events cs).2 (decodeChunks events cs).1.length := by
  induction cs generalizing events with
  | nil => rfl
  | cons c cs ih =>
    have hnext := ih (events ++ c.rawEvents)
    unfold decodeChunks
    refine ⟨rfl, ?_, ?_⟩
    · show 0 ≤ ((events ++ c.rawEvents).length : Int) - events.length
      rw [List.length_append]
      omega
    · have hsum : (events.length : Int) + ((events ++ c.rawEvents).length - events.length) =
          (events ++ c.rawEvents).length := by omega
      dsimp only
      rw [hsum]
      exact hnext

/-- A decoded chunk and the one it was made of. -/
structure Shows (ph : PropagatedHistory) (chunk : HistoryChunk) (c : PropagatedHistoryChunk) : Prop where
  appID : chunk.appID = c.appId
  instanceID : chunk.instanceID = c.instanceId
  workflowName : chunk.workflowName = c.workflowName
  events : ph.chunkEvents chunk = c.rawEvents

theorem decodeChunks_shows (scope : HistoryPropagationScope) (chunks : List HistoryChunk)
    {events all : List HistoryEvent} {cs : List PropagatedHistoryChunk}
    (hall : all = events ++ cs.flatMap PropagatedHistoryChunk.rawEvents) :
    List.Forall₂ (Shows ⟨all, scope, chunks⟩) (decodeChunks events cs).2 cs := by
  induction cs generalizing events with
  | nil => exact .nil
  | cons c cs ih =>
    rw [List.flatMap_cons, ← List.append_assoc] at hall
    refine .cons ⟨rfl, rfl, rfl, ?_⟩ (ih hall)
    rw [hall]
    refine chunkEvents_append scope chunks events c.rawEvents _ rfl ?_
    dsimp only
    rw [List.length_append]
    omega

namespace PropagatedHistory

variable {ph : PropagatedHistory} {cs : List PropagatedHistoryChunk}

theorem getWorkflows_eq (h : List.Forall₂ (Shows ph) ph.chunks cs) :
    ph.getWorkflows = cs.map workflowResult := by
  unfold getWorkflows
  generalize ph.chunks = chunks at h
  induction h with
  | nil => rfl
  | cons hshows _ ih =>
    rw [List.map_cons, List.map_cons, ih]
    unfold makeWorkflowResult workflowResult
    rw [hshows.appID, hshows.instanceID, hshows.workflowName, hshows.events]

/-- Selecting the events of an app, an instance or a workflow name selects them by chunk. -/
theorem getEventsBy_eq {α : Type} [DecidableEq α] {key : HistoryChunk → α}
    {key' : PropagatedHistoryChunk → α} (hkey : ∀ chunk c, Shows ph chunk c → key chunk = key' c)
    (h : List.Forall₂ (Shows ph) ph.chunks cs) (value : α) :
    ph.getEventsBy key value = (cs.filter (key' · = value)).flatMap PropagatedHistoryChunk.rawEvents := by
  unfold getEventsBy
  generalize ph.chunks = chunks at h
  induction h with
  | nil => rfl
  | @cons chunk c _ _ hshows _ ih =>
    rw [List.filter_cons, List.filter_cons, hkey chunk c hshows]
    by_cases hvalue : key' c = value
    · rw [if_pos (by simpa using hvalue), if_pos (by simpa using hvalue), List.flatMap_cons,
        List.flatMap_cons, ih, hshows.events]
    · rw [if_neg (by simpa using hvalue), if_neg (by simpa using hvalue), ih]

end PropagatedHistory

theorem validateChunks_iff {cs : List PropagatedHistoryChunk} (i : Nat) :
    validateChunks i cs = .ok () ↔ ∀ c ∈ cs, c.appId ≠ "" := by
  induction cs generalizing i with
  | nil => exact ⟨fun _ _ hc => absurd hc List.not_mem_nil, fun _ => rfl⟩
  | cons c cs ih =>
    unfold validateChunks
    by_cases hc : c.appId = ""
    · rw [if_pos hc]
      exact ⟨nofun, fun h => absurd hc (h c List.mem_cons_self)⟩
    · rw [if_neg hc, ih, List.forall_mem_cons]
      exact ⟨fun h => ⟨hc, h⟩, And.right⟩

/-- A history as it is read. -/
def decoded (ph : DurableTask.PropagatedHistory) : PropagatedHistory :=
  { events := (decodeChunks [] ph.chunks).1, scope := ph.scope, chunks := (decodeChunks [] ph.chunks).2 }

theorem fromProto_iff {ph : DurableTask.PropagatedHistory} {read : Option PropagatedHistory} :
    propagatedHistoryFromProto (some ph) = .ok read ↔
      (∀ c ∈ ph.chunks, c.appId ≠ "") ∧ read = some (decoded ph) := by
  have heq : propagatedHistoryFromProto (some ph) =
      (validateChunks 0 ph.chunks).bind fun _ => .ok (some (decoded ph)) := rfl
  rw [← validateChunks_iff 0, heq]
  cases validateChunks 0 ph.chunks with
  | error err => exact ⟨nofun, fun h => nomatch h.1⟩
  | ok _ => exact ⟨fun h => ⟨rfl, (Except.ok.inj h).symm⟩, fun h => congrArg Except.ok h.2.symm⟩

/-- What a reader finds in a history. -/
theorem decoded_spec (ph : DurableTask.PropagatedHistory) :
    (decoded ph).events = ph.chunks.flatMap PropagatedHistoryChunk.rawEvents ∧
      Contiguous 0 (decoded ph).chunks (decoded ph).events.length ∧
      (decoded ph).getWorkflows = ph.chunks.map workflowResult ∧
      (decoded ph).getWorkflows.flatMap WorkflowResult.events = (decoded ph).events := by
  have hevents : (decoded ph).events = ph.chunks.flatMap PropagatedHistoryChunk.rawEvents :=
    decodeChunks_events [] ph.chunks
  have hresults : (decoded ph).getWorkflows = ph.chunks.map workflowResult :=
    PropagatedHistory.getWorkflows_eq (decodeChunks_shows ph.scope _ hevents)
  refine ⟨hevents, decodeChunks_contiguous [] ph.chunks, hresults, ?_⟩
  rw [hresults, hevents, List.flatMap_map]
  rfl

/-- Selecting by app, instance or workflow name. -/
theorem decoded_selects (ph : DurableTask.PropagatedHistory) (appID name : String) (id : InstanceID) :
    (decoded ph).getEventsByAppID appID =
        (ph.chunks.filter (·.appId = appID)).flatMap PropagatedHistoryChunk.rawEvents ∧
      (decoded ph).getEventsByInstanceID id =
        (ph.chunks.filter (·.instanceId = id)).flatMap PropagatedHistoryChunk.rawEvents ∧
      (decoded ph).getEventsByWorkflowName name =
        (ph.chunks.filter (·.workflowName = name)).flatMap PropagatedHistoryChunk.rawEvents := by
  have hshows : List.Forall₂ (Shows (decoded ph)) (decoded ph).chunks ph.chunks :=
    decodeChunks_shows ph.scope _ (decodeChunks_events [] ph.chunks)
  exact ⟨PropagatedHistory.getEventsBy_eq (fun _ _ h => h.appID) hshows appID,
    PropagatedHistory.getEventsBy_eq (fun _ _ h => h.instanceID) hshows id,
    PropagatedHistory.getEventsBy_eq (fun _ _ h => h.workflowName) hshows name⟩

end Api

/-! ### Assembling -/

/-- The chunks of a received history. -/
def receivedChunks (receivedHistory : Option PropagatedHistory) : List PropagatedHistoryChunk :=
  (receivedHistory.map PropagatedHistory.chunks).getD []

/-- The chunk of a workflow's own events. -/
def ownChunk (state : WorkflowRuntimeState) (appID : String) : PropagatedHistoryChunk :=
  { appId := appID, instanceId := state.instanceId
    workflowName := (((state.oldEvents ++ state.newEvents).findSome?
      HistoryEvent.getExecutionStarted).map ExecutionStartedEvent.name).getD ""
    rawEvents := state.oldEvents ++ state.newEvents }

/-- Own events make one chunk, no events none. -/
def ownChunks (state : WorkflowRuntimeState) (appID : String) : List PropagatedHistoryChunk :=
  if (state.oldEvents ++ state.newEvents).isEmpty then [] else [ownChunk state appID]

theorem assemble_eq (state : WorkflowRuntimeState) {scope : HistoryPropagationScope}
    (hscope : scope ≠ .none) (receivedHistory : Option PropagatedHistory) (appID : String) :
    assembleProtoPropagatedHistory state scope receivedHistory appID =
      some { scope := scope
             chunks := (if scope = .lineage then receivedChunks receivedHistory else []) ++
               ownChunks state appID } := if_neg hscope

theorem ownChunks_of_ne_nil {state : WorkflowRuntimeState} (appID : String)
    (h : state.oldEvents ++ state.newEvents ≠ []) : ownChunks state appID = [ownChunk state appID] :=
  if_neg fun hempty => h (List.isEmpty_iff.mp hempty)

theorem ownChunks_spec (state : WorkflowRuntimeState) (appID : String) :
    (ownChunks state appID).flatMap PropagatedHistoryChunk.rawEvents = state.oldEvents ++ state.newEvents ∧
      ∀ c ∈ ownChunks state appID, c.appId = appID := by
  by_cases h : state.oldEvents ++ state.newEvents = []
  · have hnone : ownChunks state appID = [] := if_pos (List.isEmpty_iff.mpr h)
    rw [hnone, h]
    exact ⟨rfl, fun _ hc => absurd hc List.not_mem_nil⟩
  · rw [ownChunks_of_ne_nil appID h]
    refine ⟨List.append_nil _, fun c hc => ?_⟩
    rw [List.mem_singleton.mp hc]
    rfl

namespace Applier

variable {a : Applier} {env : ApplyEnv} {receivedHistory : Option PropagatedHistory}
  {s s' t : WorkflowRuntimeState}

/-- A history assembled from a later state of the turn that began with `s`. -/
def Assembled (a : Applier) (receivedHistory : Option PropagatedHistory) (s : WorkflowRuntimeState)
    (ph : PropagatedHistory) : Prop :=
  ∃ t : WorkflowRuntimeState, t.instanceId = s.instanceId ∧
    s.oldEvents ++ s.newEvents <+: t.oldEvents ++ t.newEvents ∧
    assembleProtoPropagatedHistory t ph.scope receivedHistory a.appID = some ph

theorem Assembled.of_later {ph : PropagatedHistory} (h : a.Assembled receivedHistory t ph)
    (hid : t.instanceId = s.instanceId)
    (hevents : s.oldEvents ++ s.newEvents <+: t.oldEvents ++ t.newEvents) :
    a.Assembled receivedHistory s ph := by
  obtain ⟨u, huid, huevents, hph⟩ := h
  exact ⟨u, huid.trans hid, hevents.trans huevents, hph⟩

theorem scope_of_assemble {scope : HistoryPropagationScope} {appID : String} {ph : PropagatedHistory}
    (h : assembleProtoPropagatedHistory s scope receivedHistory appID = some ph) : ph.scope = scope := by
  unfold assembleProtoPropagatedHistory at h
  split at h
  · cases h
  · cases h
    rfl

theorem Assembled.of_addEvent {e : HistoryEvent} {scope : HistoryPropagationScope}
    {ph : PropagatedHistory} (hs : e.getExecutionStarted = none) (hr : e.resolution = none)
    (hc : e.getExecutionCompleted = none)
    (h : assembleProtoPropagatedHistory (s.addEvent e) scope receivedHistory a.appID = some ph) :
    a.Assembled receivedHistory s ph := by
  obtain ⟨hnew, hold⟩ := s.addEvent_events hs hr (.inr hc)
  refine ⟨s.addEvent e, congrArg (·.1) (s.addEvent_outbox e), ?_, scope_of_assemble h ▸ h⟩
  rw [hnew, hold, ← List.append_assoc]
  exact List.prefix_append ..

/-- A round of the loop changes neither the instance nor the events that are there. -/
theorem Round.later {action : WorkflowAction} {f : Effect} (hr : Round action s f) :
    (f.apply s).instanceId = s.instanceId ∧
      s.oldEvents ++ s.newEvents <+: (f.apply s).oldEvents ++ (f.apply s).newEvents := by
  obtain ⟨hnew, hold, -⟩ := hr.apply
  constructor
  · unfold Effect.apply
    cases f.event with
    | none => rfl
    | some e => exact congrArg (·.1) (s.addEvent_outbox e)
  · rw [hnew, hold, ← List.append_assoc]
    exact List.prefix_append ..

/-- The message of a round carries a history that was just assembled, if any. -/
theorem effect_propagated {i : Nat} {resolved : DedupSet} {action : WorkflowAction} {f : Effect}
    (h : a.effect env receivedHistory i resolved s action = .ok f) {msg : WorkflowRuntimeStateMessage}
    (hmsg : f.message = some msg) {ph : PropagatedHistory} (hph : msg.propagatedHistory = some ph) :
    a.Assembled receivedHistory s ph := by
  rcases action with ⟨id, body, router⟩
  cases body with
  | completeWorkflow c =>
    cases h
    unfold completeWorkflow at hmsg
    split at hmsg
    · cases hmsg
    · obtain ⟨p, -, rfl⟩ := Option.map_eq_some_iff.mp hmsg
      cases hph
  | createChildWorkflow c =>
    simp only [effect, createChildWorkflow] at h
    split at h
    · cases h
      cases hmsg
    · split at h <;> cases h
      cases hmsg
      exact .of_addEvent rfl rfl rfl hph
  | createTimer t =>
    cases h
    cases hmsg
  | scheduleTask t =>
    cases h
    unfold scheduleTask at hmsg
    dsimp only at hmsg
    split at hmsg <;> cases hmsg
  | createDetachedWorkflow c =>
    simp only [effect, createDetachedWorkflow] at h
    split at h <;> cases h
    cases hmsg
    cases hph
  | sendEvent e =>
    cases h
    cases hmsg
    cases hph
  | terminateWorkflow t =>
    cases h
    cases hmsg
    cases hph
  | workflowVersionNotAvailable =>
    cases h
    cases hmsg
    cases hph
  | unset => cases h

theorem pendingMessages_continueAsNewState (env : ApplyEnv) (i : Nat) (router : TaskRouter)
    (customStatus : Option String) (c : CompleteWorkflowAction) (s : WorkflowRuntimeState)
    (startEvent : ExecutionStartedEvent) :
    (continueAsNewState env i router customStatus c s startEvent).pendingMessages = [] := by
  unfold continueAsNewState
  refine List.foldlRecOn (motive := fun s : WorkflowRuntimeState => s.pendingMessages = []) _ _ ?_ ?_
  · rw [WorkflowRuntimeState.addEvent_pendingMessages, WorkflowRuntimeState.addEvent_pendingMessages]
    exact (WorkflowRuntimeState.new_frame _ _ _).2.2.1
  · intro s hs e _
    rw [WorkflowRuntimeState.addEvent_pendingMessages, hs]

/-- What a call of `Actions` hands on was assembled during the call: to the children it creates, and to
the next generation. -/
theorem applyActions_propagated {customStatus : Option String} {resolved : DedupSet} {i : Nat}
    {actions : List WorkflowAction} {result result' : ActionsResult}
    (h : a.applyActions env receivedHistory customStatus resolved i actions result s =
      .ok (result', s')) (hresult : result.newIncomingHistory = none) :
    (∀ msg ∈ s'.pendingMessages, msg ∉ s.pendingMessages → ∀ ph, msg.propagatedHistory = some ph →
      a.Assembled receivedHistory s ph) ∧
    ∀ ph, result'.newIncomingHistory = some ph → a.Assembled receivedHistory s ph := by
  induction actions generalizing i result s with
  | nil =>
    cases h
    refine ⟨fun msg hmsg hnot => absurd hmsg hnot, fun ph hph => ?_⟩
    rw [hresult] at hph
    cases hph
  | cons action actions ih =>
    unfold applyActions at h
    split at h
    · split at h
      · cases h
      · cases h
        refine ⟨fun msg hmsg => ?_, fun ph hph => ?_⟩
        · rw [pendingMessages_continueAsNewState] at hmsg
          exact absurd hmsg List.not_mem_nil
        · unfold continueAsNewResult at hph
          dsimp only at hph
          split at hph
          · rw [hresult] at hph
            cases hph
          · refine ⟨s, rfl, List.prefix_rfl, ?_⟩
            rw [scope_of_assemble hph]
            exact hph
    · obtain ⟨f, hf, h⟩ := Except.bind_eq_ok.mp h
      have hnext : (ActionsResult.addOutgoing result action.id f.outgoing).newIncomingHistory = none := by
        unfold ActionsResult.addOutgoing
        split <;> exact hresult
      obtain ⟨hmessages, hincoming⟩ := ih h hnext
      obtain ⟨hid, hevents⟩ := (effect_round hf).later
      refine ⟨fun msg hmsg hnot ph hph => ?_, fun ph hph => (hincoming ph hph).of_later hid hevents⟩
      by_cases hround : msg ∈ (f.apply s).pendingMessages
      · rw [Effect.pendingMessages_apply] at hround
        rcases List.mem_append.mp hround with hmem | hmem
        · exact absurd hmem hnot
        · exact effect_propagated hf (Option.mem_toList.mp hmem) hph
      · exact (hmessages msg hmsg hround ph hph).of_later hid hevents

end Applier

/-! ### Generations -/

/-- A generation that handed its history on: its app, its instance and the events it ran on. -/
structure Ancestor where
  appID : String
  instanceID : InstanceID
  events : List HistoryEvent

/-- The chunk of a generation: it may have recorded more events by the time it handed them on. -/
structure Ancestor.IsChunk (g : Ancestor) (c : PropagatedHistoryChunk) : Prop where
  appId : c.appId = g.appID
  instanceId : c.instanceId = g.instanceID
  rawEvents : g.events <+: c.rawEvents

/-- A turn of a generation hands its history on with scope LINEAGE: to a child it creates, or to the
generation it continues as. -/
inductive HandsOn (a : Applier) (receivedHistory : Option PropagatedHistory) (s : WorkflowRuntimeState)
    (ph : PropagatedHistory) : Prop
  | child {env : ApplyEnv} {customStatus : Option String} {actions : List WorkflowAction}
    {result : ActionsResult} {s' : WorkflowRuntimeState} {msg : WorkflowRuntimeStateMessage}
    (turn : a.actions env receivedHistory s customStatus actions = .ok (result, s'))
    (sent : msg ∈ s'.pendingMessages) (new : msg ∉ s.pendingMessages)
    (history : msg.propagatedHistory = some ph) (lineage : ph.scope = .lineage)
  | generation {env : ApplyEnv} {customStatus : Option String} {actions : List WorkflowAction}
    {result : ActionsResult} {s' : WorkflowRuntimeState}
    (turn : a.actions env receivedHistory s customStatus actions = .ok (result, s'))
    (history : result.newIncomingHistory = some ph) (lineage : ph.scope = .lineage)

/-- The generations from the first that hands its history on, with what the last one receives. -/
inductive Lineage : List Ancestor → Option PropagatedHistory → Prop
  | root : Lineage [] none
  | next {ancestors : List Ancestor} {receivedHistory : Option PropagatedHistory} {a : Applier}
    {s : WorkflowRuntimeState} {ph : PropagatedHistory} (before : Lineage ancestors receivedHistory)
    (app : a.appID ≠ "") (events : s.oldEvents ++ s.newEvents ≠ [])
    (handsOn : HandsOn a receivedHistory s ph) :
    Lineage (ancestors ++ [⟨a.appID, s.instanceId, s.oldEvents ++ s.newEvents⟩]) (some ph)

/-- Handing on adds one chunk at the end. -/
theorem HandsOn.chunks {a : Applier} {receivedHistory : Option PropagatedHistory}
    {s : WorkflowRuntimeState} {ph : PropagatedHistory} (h : HandsOn a receivedHistory s ph)
    (hevents : s.oldEvents ++ s.newEvents ≠ []) :
    ∃ own, ph.chunks = receivedChunks receivedHistory ++ [own] ∧
      Ancestor.IsChunk ⟨a.appID, s.instanceId, s.oldEvents ++ s.newEvents⟩ own := by
  have hassembled : a.Assembled receivedHistory s ph ∧ ph.scope = .lineage := by
    cases h with
    | child turn sent new history lineage =>
      exact ⟨(Applier.applyActions_propagated turn rfl).1 _ sent new ph history, lineage⟩
    | generation turn history lineage =>
      exact ⟨(Applier.applyActions_propagated turn rfl).2 ph history, lineage⟩
  obtain ⟨⟨t, hid, hprefix, hassemble⟩, hlineage⟩ := hassembled
  have ht : t.oldEvents ++ t.newEvents ≠ [] := by
    intro hnil
    rw [hnil] at hprefix
    exact hevents (List.prefix_nil.mp hprefix)
  rw [hlineage, assemble_eq t (by decide), if_pos rfl, ownChunks_of_ne_nil _ ht] at hassemble
  cases hassemble
  exact ⟨ownChunk t a.appID, rfl, rfl, hid, hprefix⟩

theorem Lineage.chunks {ancestors : List Ancestor} {receivedHistory : Option PropagatedHistory}
    (h : Lineage ancestors receivedHistory) :
    List.Forall₂ Ancestor.IsChunk ancestors (receivedChunks receivedHistory) ∧
      ∀ c ∈ receivedChunks receivedHistory, c.appId ≠ "" := by
  induction h with
  | root => exact ⟨.nil, fun _ hc => absurd hc List.not_mem_nil⟩
  | @next ancestors receivedHistory a s ph _ app events handsOn ih =>
    obtain ⟨own, hchunks, hown⟩ := handsOn.chunks events
    have hall : receivedChunks (some ph) = receivedChunks receivedHistory ++ [own] := hchunks
    rw [hall]
    refine ⟨List.rel_append ih.1 (.cons hown .nil), fun c hc => ?_⟩
    rcases List.mem_append.mp hc with hc | hc
    · exact ih.2 c hc
    · rw [List.mem_singleton.mp hc, hown.appId]
      exact app

open Api in
/-- What is assembled from a state can be read: with scope LINEAGE the received events and then the own
ones, otherwise the own ones, in chunks that lie one after the other and together are all events. In a
lineage every generation receives one chunk for each generation before it, oldest first, and hands them
on as they are. -/
theorem propagation_round_trip {appID : String} (happ : appID ≠ "")
    {receivedHistory : Option PropagatedHistory} {received : Option Api.PropagatedHistory}
    (hreceived : propagatedHistoryFromProto receivedHistory = .ok received)
    (state : WorkflowRuntimeState) (scope : HistoryPropagationScope) :
    (scope = .none → propagatedHistoryFromProto
      (assembleProtoPropagatedHistory state scope receivedHistory appID) = .ok none) ∧
    (scope ≠ .none → ∃ ph, propagatedHistoryFromProto
        (assembleProtoPropagatedHistory state scope receivedHistory appID) = .ok (some ph) ∧
      ph.scope = scope ∧
      ph.events = (if scope = .lineage then (received.map (·.events)).getD [] else []) ++
        (state.oldEvents ++ state.newEvents) ∧
      Contiguous 0 ph.chunks ph.events.length ∧
      ph.getWorkflows.flatMap WorkflowResult.events = ph.events) ∧
    ∀ ancestors receivedHistory, Lineage ancestors receivedHistory →
      List.Forall₂ Ancestor.IsChunk ancestors (receivedChunks receivedHistory) ∧
      ∀ a s ph, a.appID ≠ "" → s.oldEvents ++ s.newEvents ≠ [] → HandsOn a receivedHistory s ph →
        (∃ own, ph.chunks = receivedChunks receivedHistory ++ [own] ∧
          Ancestor.IsChunk ⟨a.appID, s.instanceId, s.oldEvents ++ s.newEvents⟩ own) ∧
        ∃ read, propagatedHistoryFromProto (some ph) = .ok (some read) ∧
          read.getWorkflows = ph.chunks.map workflowResult := by
  have hvalid : (∀ c ∈ receivedChunks receivedHistory, c.appId ≠ "") ∧
      (received.map (·.events)).getD [] =
        (receivedChunks receivedHistory).flatMap PropagatedHistoryChunk.rawEvents := by
    cases receivedHistory with
    | none =>
      cases hreceived
      exact ⟨fun _ hc => absurd hc List.not_mem_nil, rfl⟩
    | some ph =>
      obtain ⟨hchunks, rfl⟩ := fromProto_iff.mp hreceived
      exact ⟨hchunks, (decoded_spec ph).1⟩
  refine ⟨fun hscope => ?_, fun hscope => ?_, fun ancestors receivedHistory hlineage => ?_⟩
  · subst hscope
    rfl
  · obtain ⟨hown, hownApp⟩ := ownChunks_spec state appID
    rw [assemble_eq state hscope]
    have hchunks : ∀ c ∈ (if scope = .lineage then receivedChunks receivedHistory else []) ++
        ownChunks state appID, c.appId ≠ "" := by
      intro c hc
      rcases List.mem_append.mp hc with hc | hc
      · split at hc
        · exact hvalid.1 c hc
        · exact absurd hc List.not_mem_nil
      · exact hownApp c hc ▸ happ
    refine ⟨_, fromProto_iff.mpr ⟨hchunks, rfl⟩, rfl, ?_, (decoded_spec _).2.1, (decoded_spec _).2.2.2⟩
    rw [(decoded_spec _).1, List.flatMap_append, hown, hvalid.2]
    split <;> rfl
  · obtain ⟨hancestors, happs⟩ := hlineage.chunks
    refine ⟨hancestors, fun a s ph ha hevents hands => ?_⟩
    obtain ⟨own, hchunks, hown⟩ := hands.chunks hevents
    refine ⟨⟨own, hchunks, hown⟩, _, fromProto_iff.mpr ⟨?_, rfl⟩, (decoded_spec ph).2.2.1⟩
    exact (Lineage.next hlineage ha hevents hands).chunks.2

namespace PropagationExample

def start (name : String) : HistoryEvent :=
  { eventType := .executionStarted { name := name, workflowInstance := ⟨name, some "e"⟩ } }

def state (name : String) : WorkflowRuntimeState := WorkflowRuntimeState.new name none [start name]

def applier : Applier := ⟨"app", ""⟩

/-- Create a child and propagate the whole lineage. -/
def spawn (name : String) : WorkflowAction :=
  { id := 0
    actionType := .createChildWorkflow
      { name := name, instanceId := name, historyPropagationScope := some .lineage } }

def continueAsNew : WorkflowAction :=
  { id := 1, actionType := .completeWorkflow { workflowStatus := .continuedAsNew } }

def env : ApplyEnv := { now := fun _ => 0, uuid := fun _ => "e2", childInstanceID := fun i _ _ => i }

def created : HistoryEvent :=
  { eventId := 0, timestamp := 0, router := some { sourceAppID := "app" }
    eventType := .childWorkflowInstanceCreated
      { name := "b", instanceId := "b", historyPropagationScope := some .lineage } }

/-- What the child `b` of `a` receives, and what it hands on when it continues as new. -/
def toChild : PropagatedHistory :=
  { scope := .lineage, chunks := [⟨"app", "a", "a", [start "a", created]⟩] }

def toGeneration : PropagatedHistory :=
  { scope := .lineage, chunks := toChild.chunks ++ [⟨"app", "b", "b", [start "b"]⟩] }

theorem child_continued_as_new :
    ∃ read, HandsOn applier none (state "a") toChild ∧
      HandsOn applier (some toChild) (state "b") toGeneration ∧
      Api.propagatedHistoryFromProto (some toGeneration) = .ok (some read) ∧
      read.getWorkflows = toGeneration.chunks.map Api.workflowResult := by
  have hspawn : applier.actions env none (state "a") none [spawn "b"] = .ok (_, _) := rfl
  have hchild : HandsOn applier none (state "a") toChild :=
    .child hspawn List.mem_cons_self List.not_mem_nil rfl rfl
  have hcan : applier.actions env (some toChild) (state "b") none [continueAsNew] = .ok (_, _) := rfl
  have hgeneration : HandsOn applier (some toChild) (state "b") toGeneration := .generation hcan rfl rfl
  obtain ⟨-, hnext⟩ := (propagation_round_trip (show "app" ≠ "" by decide)
    (show Api.propagatedHistoryFromProto none = .ok none from rfl) (state "a") .none).2.2 _ _
    (Lineage.next .root (by decide) (by decide) hchild)
  obtain ⟨-, read, hread, hresults⟩ := hnext applier (state "b") _ (by decide) (by decide) hgeneration
  exact ⟨read, hchild, hgeneration, hread, hresults⟩

end PropagationExample

end DurableTask
