import DurableTask.Lib.Run
import DurableTask.Client.WorkerHistory

/-!
# Stateful history

The sidecar and its workers as one system: any number of workers, streams and reconnects, work items
under way, and handlers that resolve a history, run and write the cache, each at its own pace. However
the two sides' records of what a worker holds drift apart, a history that is resolved is the one that
was to be sent.
-/

namespace DurableTask.Stateful

/-- A work item under way: the request, and what was sent for it. -/
structure Message where
  request : WorkflowRequest
  sent : WorkflowRequest
deriving DecidableEq, Repr

/-- A stream at the sidecar. -/
structure Stream where
  state : StreamState
  worker : Nat
  sent : List Message := []
  isOpen : Bool := true
deriving DecidableEq, Repr

/-- A listener: its cache survives reconnects. -/
structure Worker where
  statefulHistoryEnabled : Bool
  cache : WorkflowHistoryCache
  stream : Option Nat := none
deriving DecidableEq, Repr

/-- A call of `processWorkflowWorkItem`. -/
structure Handler where
  worker : Nat
  message : Message
  resolved : Option (Except ResolveError (List HistoryEvent)) := none
  executed : Bool := false
deriving DecidableEq

structure System where
  /-- The committed history of every execution of an instance. -/
  committed : InstanceID → String → List HistoryEvent := fun _ _ => []
  workers : List Worker := []
  streams : List Stream := []
  handlers : List Handler := []

inductive Op
  /-- `StartWorkItemListener`, up to its stream. -/
  | startWorker (statefulHistoryDisabled : Bool) (cfg : WorkflowHistoryCacheConfig)
  /-- A turn is committed. -/
  | commit (iid : InstanceID) (executionID : String) (events : List HistoryEvent)
  /-- `GetWorkItems` reaches the sidecar. -/
  | openStream (worker : Nat)
  /-- `GetWorkItems` returns to the worker. -/
  | initStream (worker stream : Nat)
  /-- The sidecar drops the stream. -/
  | closeStream (stream : Nat)
  /-- `dispatchToStream` of an attempt that it claims. -/
  | dispatch (stream : Nat) (iid : InstanceID) (oldEvents newEvents : List HistoryEvent)
  /-- A message of the worker's stream arrives. -/
  | receive (worker message : Nat)
  | resolve (handler : Nat) (now : Time) (resp : Except ResolveError (List HistoryEvent))
  /-- The executor returns, with an error if there is no response. -/
  | execute (handler : Nat) (now : Time) (results : Option WorkflowResponse)
  | sweepExpired (worker : Nat) (now : Time)
  /-- Go iterates over a map in another order. -/
  | reorderWarm (stream : Nat) (warm : List (InstanceID × WarmHistory))
  | reorderCache (worker : Nat) (entries : List (InstanceID × CachedWorkflowHistory))

def Stream.dispatch (st : Stream) (req : WorkflowRequest) : Stream :=
  if st.isOpen then
    let (state, sent) := st.state.applyStatefulHistory req
    { st with state := state, sent := st.sent ++ [⟨req, sent⟩] }
  else st

/-- The update of the cache in `processWorkflowWorkItem`. -/
def Worker.refresh (size : HistoryEvent → Int) (w : Worker) (now : Time) (workItem : WorkflowRequest)
    (pastEvents : List HistoryEvent) (results : Option WorkflowResponse) : Worker :=
  match results with
  | none => w
  | some results =>
    if !w.statefulHistoryEnabled then w
    else if workflowHistoryReset results then
      { w with cache := w.cache.removeEntry workItem.instanceId }
    else
      { w with
        cache := w.cache.putForExecution size now workItem.instanceId workItem.executionId pastEvents }

theorem Worker.all_refresh {φ : InstanceID → String → List HistoryEvent → Prop}
    {size : HistoryEvent → Int} {w : Worker} {now : Time} {workItem : WorkflowRequest}
    {pastEvents : List HistoryEvent} {results : Option WorkflowResponse} (h : w.cache.All φ)
    (hφ : φ workItem.instanceId workItem.executionId pastEvents) :
    (w.refresh size now workItem pastEvents results).cache.All φ := by
  unfold refresh
  split
  · exact h
  · split
    · exact h
    · split
      · exact h.of_subset (WorkflowHistoryCache.entries_removeEntry _ _)
      · exact h.putForExecution hφ

namespace System

/-- The message that arrives next at a worker. -/
def message? (s : System) (worker message : Nat) : Option (Nat × Message) := do
  let w ← s.workers[worker]?
  let k ← w.stream
  let st ← s.streams[k]?
  let m ← st.sent[message]?
  return (k, m)

def receive (s : System) (worker message : Nat) : System :=
  match s.message? worker message with
  | none => s
  | some (k, m) =>
    { s with
      streams := s.streams.modify k fun st => { st with sent := st.sent.eraseIdx message }
      handlers := s.handlers ++ [{ worker := worker, message := m }] }

def resolve (s : System) (handler : Nat) (now : Time)
    (resp : Except ResolveError (List HistoryEvent)) : System :=
  match s.handlers[handler]? with
  | none => s
  | some h =>
    match h.resolved, s.workers[h.worker]? with
    | none, some w =>
      let (cache, result) := resolveWorkflowHistory w.cache now h.message.sent resp
      { s with
        workers := s.workers.set h.worker { w with cache := cache }
        handlers := s.handlers.set handler { h with resolved := some result } }
    | _, _ => s

def execute (size : HistoryEvent → Int) (s : System) (handler : Nat) (now : Time)
    (results : Option WorkflowResponse) : System :=
  match s.handlers[handler]? with
  | none => s
  | some h =>
    match h.resolved, h.executed with
    | some (.ok pastEvents), false =>
      { s with
        workers := s.workers.modify h.worker fun w =>
          w.refresh size now h.message.sent pastEvents results
        handlers := s.handlers.set handler { h with executed := true } }
    | _, _ => s

/-- One step. -/
def exec (size : HistoryEvent → Int) (s : System) : Op → System
  | .startWorker statefulHistoryDisabled cfg =>
    { s with workers := s.workers ++
        [{ statefulHistoryEnabled := !statefulHistoryDisabled, cache := newWorkflowHistoryCache cfg }] }
  | .commit iid executionID events =>
    { s with committed := fun iid' executionID' =>
        if iid' = iid ∧ executionID' = executionID then s.committed iid executionID ++ events
        else s.committed iid' executionID' }
  | .openStream worker =>
    match s.workers[worker]? with
    | none => s
    | some w =>
      { s with streams := s.streams ++
          [{ state := { statefulHistory := w.statefulHistoryEnabled }, worker := worker }] }
  | .initStream worker stream =>
    match s.streams[stream]? with
    | none => s
    | some st =>
      if st.worker = worker then
        { s with workers := s.workers.modify worker fun w =>
            { w with stream := some stream, cache := w.cache.reset } }
      else s
  | .closeStream stream =>
    { s with streams := s.streams.modify stream fun st => { st with isOpen := false } }
  | .dispatch stream iid oldEvents newEvents =>
    { s with streams := s.streams.modify stream fun st =>
        st.dispatch (.ofEvents iid oldEvents newEvents) }
  | .receive worker message => s.receive worker message
  | .resolve handler now resp => s.resolve handler now resp
  | .execute handler now results => s.execute size handler now results
  | .sweepExpired worker now =>
    { s with workers := s.workers.modify worker fun w => { w with cache := w.cache.sweepExpired now } }
  | .reorderWarm stream warm =>
    { s with streams := s.streams.modify stream fun st =>
        if warm.Perm st.state.warm then { st with state := { st.state with warm := warm } } else st }
  | .reorderCache worker entries =>
    { s with workers := s.workers.modify worker fun w =>
        if entries.Perm w.cache.entries then { w with cache := { w.cache with entries := entries } }
        else w }

def run (size : HistoryEvent → Int) (ops : List Op) : System := Run.run (exec size) {} ops

end System

/-- The committed histories, by instance and execution. -/
abbrev Committed := InstanceID → String → List HistoryEvent

/-- A beginning of the committed history of an execution, if the execution has an id. -/
def Begins (committed : Committed) (iid : InstanceID) (executionID : String)
    (events : List HistoryEvent) : Prop :=
  executionID = "" ∨ events <+: committed iid executionID

theorem Begins.mono {committed committed' : Committed} {iid : InstanceID} {executionID : String}
    {events : List HistoryEvent} (h : Begins committed iid executionID events)
    (hle : ∀ iid executionID, committed iid executionID <+: committed' iid executionID) :
    Begins committed' iid executionID events := h.imp_right fun h => h.trans (hle _ _)

/-- A message for a request with committed events. -/
structure Message.For (committed : Committed) (m : Message) : Prop where
  begins : Begins committed m.request.instanceId m.request.executionId m.request.pastEvents
  request : m.request.cachedHistory = none
  sent : m.request.SentFor m.sent

/-- Cached or not, the history that is resolved is the one of the request: what the cache has of the
right length is its beginning. -/
theorem Message.For.resolves {committed : Committed} {m : Message} (h : m.For committed)
    (hshort : ∀ iid executionID, (committed iid executionID).length < 2 ^ 32)
    {resp : Except ResolveError (List HistoryEvent)}
    (hresp : ∀ events, resp = .ok events → events = m.request.pastEvents) {events : List HistoryEvent}
    (hres : Resolves (Begins committed) m.sent resp events) : events = m.request.pastEvents := by
  obtain ⟨request, sent⟩ := m
  obtain ⟨hbegins, hrequest, hsent⟩ := h
  dsimp only at hbegins hrequest hsent hresp hres ⊢
  cases hres with
  | fetched hfetched => exact hresp events hfetched
  | full hfull =>
    cases hsent with
    | full => rfl
    | delta n known le => cases hfull
  | @cached eventCount cached hcached held length =>
    cases hsent with
    | full =>
      rw [hrequest] at hcached
      cases hcached
    | delta n known le =>
      rw [← Option.some.inj hcached] at length
      have hpast := hbegins.resolve_left known
      have hheld := held.resolve_left known
      have hn : n < 2 ^ 32 := Nat.lt_of_le_of_lt (Nat.le_trans le hpast.length_le) (hshort _ _)
      have hlength := eq_of_int32_eq hn length
      have htake := List.prefix_iff_eq_take.mp
        (List.prefix_of_prefix_length_le hheld hpast (hlength ▸ le))
      rw [hlength] at htake
      dsimp only
      rw [htake, List.take_append_drop]

namespace System

variable {size : HistoryEvent → Int} {s : System} {op : Op}

/-- What is assumed of the sidecar's store. The past events of a request are a beginning of the
committed history of its execution, and `GetInstanceHistory` returns the history of the turn. -/
def Assumed (s : System) : Op → Prop
  | .dispatch _ iid oldEvents newEvents =>
    Begins s.committed iid ((executionID oldEvents newEvents).getD "") oldEvents
  | .resolve handler _ resp => ∀ h, s.handlers[handler]? = some h →
    ∀ events, resp = .ok events → events = h.message.request.pastEvents
  | _ => True

structure Transparent (s : System) : Prop where
  cached : ∀ w ∈ s.workers, w.cache.All (Begins s.committed)
  sent : ∀ st ∈ s.streams, ∀ m ∈ st.sent, m.For s.committed
  handled : ∀ h ∈ s.handlers, h.message.For s.committed ∧
    ∀ events, h.resolved = some (.ok events) → events = h.message.request.pastEvents

theorem committed_grows (size : HistoryEvent → Int) (s : System) (op : Op) (iid : InstanceID)
    (executionID : String) :
    s.committed iid executionID <+: (s.exec size op).committed iid executionID := by
  cases op with
  | commit iid' executionID' events =>
    unfold exec
    dsimp only
    split
    · next heq =>
      rw [heq.1, heq.2]
      exact List.prefix_append _ _
    · exact List.prefix_rfl
  | openStream | initStream =>
    unfold exec
    dsimp only
    repeat' split
    all_goals exact List.prefix_rfl
  | receive worker message =>
    unfold exec System.receive
    dsimp only
    split <;> exact List.prefix_rfl
  | resolve handler now resp =>
    unfold exec System.resolve
    dsimp only
    repeat' split
    all_goals exact List.prefix_rfl
  | execute handler now results =>
    unfold exec System.execute
    dsimp only
    repeat' split
    all_goals exact List.prefix_rfl
  | _ => exact List.prefix_rfl

theorem Transparent.commit (h : s.Transparent) (iid : InstanceID) (executionID : String)
    (events : List HistoryEvent) : (s.exec size (.commit iid executionID events)).Transparent := by
  have hle := committed_grows size s (.commit iid executionID events)
  have hfor {m : Message} (hm : m.For s.committed) :
      m.For (s.exec size (.commit iid executionID events)).committed :=
    ⟨hm.begins.mono hle, hm.request, hm.sent⟩
  exact ⟨fun w hw => (h.cached w hw).mono fun _ _ _ hb => hb.mono hle,
    fun st hst m hm => hfor (h.sent st hst m hm),
    fun x hx => ⟨hfor (h.handled x hx).1, (h.handled x hx).2⟩⟩

theorem Transparent.dispatch (h : s.Transparent) (stream : Nat) (iid : InstanceID)
    (oldEvents newEvents : List HistoryEvent)
    (hbegins : Begins s.committed iid ((executionID oldEvents newEvents).getD "") oldEvents) :
    (s.exec size (.dispatch stream iid oldEvents newEvents)).Transparent := by
  refine ⟨h.cached, Run.forall_mem_modify h.sent fun st _ hst => ?_, h.handled⟩
  unfold Stream.dispatch
  split
  · exact Run.forall_mem_concat hst ⟨hbegins, rfl, st.state.sentFor_applyStatefulHistory _⟩
  · exact hst

theorem Transparent.receive (h : s.Transparent) (worker message : Nat) :
    (s.receive worker message).Transparent := by
  unfold System.receive
  split
  · exact h
  · next k m hm =>
    unfold System.message? at hm
    simp only [Option.bind_eq_bind, Option.bind_eq_some_iff] at hm
    obtain ⟨w, -, k', -, st, hst, m', hm', heq⟩ := hm
    cases heq
    have hfor := h.sent st (List.mem_of_getElem? hst) m (List.mem_of_getElem? hm')
    refine ⟨h.cached, Run.forall_mem_modify h.sent fun st' _ hst' m' hm' => ?_,
      Run.forall_mem_concat h.handled ⟨hfor, nofun⟩⟩
    exact hst' m' (List.mem_of_mem_eraseIdx hm')

theorem Transparent.resolve (h : s.Transparent) (handler : Nat) (now : Time)
    {resp : Except ResolveError (List HistoryEvent)}
    (hshort : ∀ iid executionID, (s.committed iid executionID).length < 2 ^ 32)
    (hresp : ∀ h, s.handlers[handler]? = some h →
      ∀ events, resp = .ok events → events = h.message.request.pastEvents) :
    (s.resolve handler now resp).Transparent := by
  unfold System.resolve
  split
  · exact h
  · next x hx =>
    split
    · next w _ hw =>
      obtain ⟨hfor, -⟩ := h.handled x (List.mem_of_getElem? hx)
      obtain ⟨hcache, hresolves⟩ := resolveWorkflowHistory_spec
        (h.cached w (List.mem_of_getElem? hw)) now x.message.sent resp
      refine ⟨Run.forall_mem_set h.cached hcache, h.sent, Run.forall_mem_set h.handled ⟨hfor, ?_⟩⟩
      intro events hok
      exact hfor.resolves hshort (hresp x hx) (hresolves events (Option.some.inj hok))
    · exact h

theorem Transparent.execute (h : s.Transparent) (handler : Nat) (now : Time)
    (results : Option WorkflowResponse) : (s.execute size handler now results).Transparent := by
  unfold System.execute
  split
  · exact h
  · next x hx =>
    split
    · next pastEvents hresolved _ =>
      obtain ⟨hfor, hpast⟩ := h.handled x (List.mem_of_getElem? hx)
      refine ⟨Run.forall_mem_modify h.cached fun w _ hw => ?_, h.sent,
        Run.forall_mem_set h.handled ⟨hfor, hpast⟩⟩
      refine Worker.all_refresh hw ?_
      rw [hpast pastEvents hresolved, hfor.sent.ids.1, hfor.sent.ids.2]
      exact hfor.begins
    · exact h

/-- One step. -/
theorem Transparent.exec (h : s.Transparent) (hop : s.Assumed op)
    (hshort : ∀ iid executionID, (s.committed iid executionID).length < 2 ^ 32) :
    (s.exec size op).Transparent := by
  cases op with
  | startWorker statefulHistoryDisabled cfg =>
    refine ⟨Run.forall_mem_concat h.cached ?_, h.sent, h.handled⟩
    exact fun e he => absurd he List.not_mem_nil
  | commit iid executionID events => exact h.commit iid executionID events
  | openStream worker =>
    unfold System.exec
    dsimp only
    split
    · exact h
    · exact ⟨h.cached, Run.forall_mem_concat h.sent fun m hm => absurd hm List.not_mem_nil, h.handled⟩
  | initStream worker stream =>
    unfold System.exec
    dsimp only
    split
    · exact h
    · split
      · refine ⟨Run.forall_mem_modify h.cached fun w _ _ => ?_, h.sent, h.handled⟩
        exact fun e he => absurd he List.not_mem_nil
      · exact h
  | closeStream stream => exact ⟨h.cached, Run.forall_mem_modify h.sent fun _ _ hst => hst, h.handled⟩
  | dispatch stream iid oldEvents newEvents => exact h.dispatch stream iid oldEvents newEvents hop
  | receive worker message => exact h.receive worker message
  | resolve handler now resp => exact h.resolve handler now hshort hop
  | execute handler now results => exact h.execute handler now results
  | sweepExpired worker now =>
    refine ⟨Run.forall_mem_modify h.cached fun w _ hw => ?_, h.sent, h.handled⟩
    exact hw.of_subset (WorkflowHistoryCache.entries_sweepExpired _ now)
  | reorderWarm stream warm =>
    refine ⟨h.cached, Run.forall_mem_modify h.sent fun st _ hst => ?_, h.handled⟩
    split <;> exact hst
  | reorderCache worker entries =>
    refine ⟨Run.forall_mem_modify h.cached fun w _ hw => ?_, h.sent, h.handled⟩
    split
    · next hperm => exact hw.of_subset hperm.subset
    · exact hw

end System

namespace StatefulExample



def started : HistoryEvent :=
  { eventType := .executionStarted { name := "wf", workflowInstance := ⟨"a", some "e1"⟩ } }

/-- The first turn: the worker caches a history of one event. -/
def firstTurn : List Op :=
  [.startWorker false {}, .openStream 0, .initStream 0 0, .commit "a" "e1" [started],
   .dispatch 0 "a" [started] [], .receive 0 0, .resolve 0 1 (.error .fetchFailed), .execute 0 2 (some {})]

/-- The history has grown. The next attempt is given up while its handler is slow, and the one after it
is sent as a delta of everything. -/
def rest (events : List HistoryEvent) : List Op :=
  [.commit "a" "e1" events, .dispatch 0 "a" (started :: events) [], .receive 0 0,
   .dispatch 0 "a" (started :: events) [], .receive 0 0, .resolve 2 3 (.error .fetchFailed)]

def overtaken (events : List HistoryEvent) : List Op := firstTurn ++ rest events

def size : HistoryEvent → Int := fun _ => 0

def request (events : List HistoryEvent) : WorkflowRequest :=
  { instanceId := "a", executionId := "e1", pastEvents := events }

/-- A stream that is warm for a number of events. -/
def warm (n : Nat) (sent : List Message) : Stream :=
  { state := { statefulHistory := true, warm := [("a", ⟨"e1", n⟩)] }, worker := 0, sent := sent }

/-- What is sent then. -/
def delta (n : Nat) (events : List HistoryEvent) : Message :=
  { request := request (started :: events)
    sent := { request (started :: events) with
      pastEvents := (started :: events).drop n, cachedHistory := some (int32 n) } }

def worker : Worker :=
  { statefulHistoryEnabled := true
    stream := some 0
    cache := { newWorkflowHistoryCache {} with
      entries := [("a", { executionID := "e1", events := [started], lastAccess := 2, bytes := 0 })] } }

def raised : HistoryEvent := { eventType := .eventRaised { name := "go" } }

end StatefulExample

end DurableTask.Stateful
