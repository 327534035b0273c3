import DurableTask.Backend.Stateful
import DurableTask.RuntimeState.Completion

/-!
# The worker's history cache

The worker's side of the stateful-history protocol (`client/worker_history.go`): the cache of committed
histories, and how the history of a work item is put together from it.
-/

namespace DurableTask

/-- `historyExecutionID`. -/
def historyExecutionID (events : List HistoryEvent) : String :=
  ((events.findSome? HistoryEvent.getExecutionStarted).map (·.workflowInstance.executionIdValue)).getD
    ""

/-- `workflowHistoryReset`. -/
def workflowHistoryReset (resp : WorkflowResponse) : Bool :=
  resp.actions.any fun a => a.getCompleteWorkflow.isSome

structure CachedWorkflowHistory where
  executionID : String
  events : List HistoryEvent
  lastAccess : Time
  bytes : Int
deriving DecidableEq, Repr

/-- `workflowHistoryCacheConfig`, without the interval of the janitor. -/
structure WorkflowHistoryCacheConfig where
  ttl : Option Duration := none
  maxInstances : Option Int := none
  maxBytes : Option Int := none
deriving DecidableEq, Repr

structure WorkflowHistoryCache where
  entries : List (InstanceID × CachedWorkflowHistory) := []
  totalBytes : Int := 0
  ttl : Duration
  maxInstances : Int
  maxBytes : Int
deriving DecidableEq, Repr

def maxCachedWorkflowHistories : Int := 100000

/-- One hour. -/
def cachedWorkflowHistoryTTL : Duration := 60 * 60 * 1000000000

/-- A configured value, or the default if there is none that is positive. -/
def positiveOr (default : Int) (configured : Option Int) : Int :=
  match configured with
  | some x => if x > 0 then x else default
  | none => default

/-- `newWorkflowHistoryCache`. -/
def newWorkflowHistoryCache (cfg : WorkflowHistoryCacheConfig) : WorkflowHistoryCache :=
  { ttl := positiveOr cachedWorkflowHistoryTTL cfg.ttl
    maxInstances := positiveOr maxCachedWorkflowHistories cfg.maxInstances
    maxBytes := positiveOr 0 cfg.maxBytes }

namespace WorkflowHistoryCache

/-- `get`, with the optional argument `executionID`. -/
def get (h : WorkflowHistoryCache) (now : Time) (iid : InstanceID) (executionID : Option String) :
    WorkflowHistoryCache × Option (List HistoryEvent) :=
  match Assoc.get? h.entries iid with
  | some e =>
    if executionID.any fun x => x = "" ∨ e.executionID ≠ x then (h, none)
    else
      ({ h with entries := Assoc.modify h.entries iid fun e => { e with lastAccess := now } },
        some e.events)
  | none => (h, none)

/-- `getForExecution`. -/
def getForExecution (h : WorkflowHistoryCache) (now : Time) (iid : InstanceID) (executionID : String) :
    WorkflowHistoryCache × Option (List HistoryEvent) :=
  match Assoc.get? h.entries iid with
  | some e =>
    if executionID = "" ∨ e.executionID ≠ executionID then (h, none)
    else
      ({ h with entries := Assoc.modify h.entries iid fun e => { e with lastAccess := now } },
        some e.events)
  | none => (h, none)

/-- `lruExcept`: the first of the entries that were not used for longest. -/
def lruExcept (h : WorkflowHistoryCache) (keep : InstanceID) : Option InstanceID :=
  let oldest := h.entries.foldl (fun found (id, e) =>
    if id = keep then found
    else
      match found with
      | none => some (id, e.lastAccess)
      | some (oldest, oldestAccess) =>
        if e.lastAccess < oldestAccess then some (id, e.lastAccess) else some (oldest, oldestAccess))
    none
  oldest.map Prod.fst

/-- `removeEntry`, and `delete`. -/
def removeEntry (h : WorkflowHistoryCache) (iid : InstanceID) : WorkflowHistoryCache :=
  match Assoc.get? h.entries iid with
  | some e => { h with totalBytes := h.totalBytes - e.bytes, entries := Assoc.erase h.entries iid }
  | none => h

/-- The loop of `evictToFit`; every round removes an entry. -/
def evictLoop (keep : InstanceID) : Nat → WorkflowHistoryCache → WorkflowHistoryCache
  | 0, h => h
  | n + 1, h =>
    if h.entries.length > 1 ∧
        (h.entries.length > h.maxInstances ∨ h.maxBytes > 0 ∧ h.totalBytes > h.maxBytes) then
      match h.lruExcept keep with
      | some victim => evictLoop keep n (h.removeEntry victim)
      | none => h
    else h

/-- `evictToFit`. -/
def evictToFit (h : WorkflowHistoryCache) (keep : InstanceID) : WorkflowHistoryCache :=
  evictLoop keep h.entries.length h

/-- `putForExecution`; `size` is the serialized size of an event. -/
def putForExecution (size : HistoryEvent → Int) (h : WorkflowHistoryCache) (now : Time)
    (iid : InstanceID) (executionID : String) (events : List HistoryEvent) : WorkflowHistoryCache :=
  let bytes := if h.maxBytes > 0 then (events.map size).sum else 0
  let old := match Assoc.get? h.entries iid with
    | some old => old.bytes
    | none => 0
  let h := { h with
    entries := Assoc.insert h.entries iid
      { executionID := executionID, events := events, lastAccess := now, bytes := bytes }
    totalBytes := h.totalBytes - old + bytes }
  h.evictToFit iid

/-- `reset`. -/
def reset (h : WorkflowHistoryCache) : WorkflowHistoryCache := { h with entries := [], totalBytes := 0 }

/-- `Time.Sub`, which saturates. -/
def timeSub (t u : Time) : Duration := max (-2 ^ 63) (min (t - u) (2 ^ 63 - 1))

/-- `sweepExpired`. -/
def sweepExpired (h : WorkflowHistoryCache) (now : Time) : WorkflowHistoryCache :=
  h.entries.foldl (fun h' (iid, e) => if timeSub now e.lastAccess > h.ttl then h'.removeEntry iid else h') h

end WorkflowHistoryCache

inductive ResolveError
  | fetchFailed
  | executionChanged
deriving DecidableEq, Repr

/-- `resolveWorkflowHistory`, with the response to `GetInstanceHistory` that it gets on a cache miss. -/
def resolveWorkflowHistory (h : WorkflowHistoryCache) (now : Time) (workItem : WorkflowRequest)
    (resp : Except ResolveError (List HistoryEvent)) :
    WorkflowHistoryCache × Except ResolveError (List HistoryEvent) :=
  match workItem.cachedHistory with
  | none => (h, .ok workItem.pastEvents)
  | some eventCount =>
    let (h, cached) := h.getForExecution now workItem.instanceId workItem.executionId
    match cached.filter fun events => events.length = eventCount with
    | some events => (h, .ok (events ++ workItem.pastEvents))
    | none =>
      match resp with
      | .error err => (h, .error err)
      | .ok events =>
        if workItem.executionId ≠ "" ∧ historyExecutionID events ≠ workItem.executionId then
          (h, .error .executionChanged)
        else (h, .ok events)

/-! ### What a cache holds -/

namespace WorkflowHistoryCache

variable {φ : InstanceID → String → List HistoryEvent → Prop} {h : WorkflowHistoryCache} {now : Time}
  {iid : InstanceID} {executionID : String}

/-- Every history that is cached has a property. -/
def All (φ : InstanceID → String → List HistoryEvent → Prop) (h : WorkflowHistoryCache) : Prop :=
  ∀ e ∈ h.entries, φ e.1 e.2.executionID e.2.events

theorem All.of_subset {h' : WorkflowHistoryCache} (hall : h.All φ) (hsub : h'.entries ⊆ h.entries) :
    h'.All φ := fun e he => hall e (hsub he)

theorem All.mono {ψ : InstanceID → String → List HistoryEvent → Prop} (hall : h.All φ)
    (himp : ∀ iid executionID events, φ iid executionID events → ψ iid executionID events) : h.All ψ :=
  fun e he => himp _ _ _ (hall e he)

theorem entries_removeEntry (h : WorkflowHistoryCache) (iid : InstanceID) :
    (h.removeEntry iid).entries ⊆ h.entries := by
  unfold removeEntry
  split
  · exact fun e he => List.mem_of_mem_filter he
  · exact List.Subset.refl _

theorem entries_evictToFit (h : WorkflowHistoryCache) (keep : InstanceID) :
    (h.evictToFit keep).entries ⊆ h.entries := by
  have hloop (n : Nat) (h : WorkflowHistoryCache) : (evictLoop keep n h).entries ⊆ h.entries := by
    induction n generalizing h with
    | zero => exact List.Subset.refl _
    | succ n ih =>
      unfold evictLoop
      split
      · split
        · exact List.Subset.trans (ih _) (entries_removeEntry h _)
        · exact List.Subset.refl _
      · exact List.Subset.refl _
  exact hloop _ h

theorem All.putForExecution {size : HistoryEvent → Int} {events : List HistoryEvent} (hall : h.All φ)
    (hφ : φ iid executionID events) : (h.putForExecution size now iid executionID events).All φ := by
  unfold WorkflowHistoryCache.putForExecution
  refine All.of_subset ?_ (entries_evictToFit _ iid)
  intro e he
  rcases List.mem_append.mp he with he | he
  · exact hall e (List.mem_of_mem_filter he)
  · rw [List.mem_singleton.mp he]
    exact hφ

theorem entries_sweepExpired (h : WorkflowHistoryCache) (now : Time) :
    (h.sweepExpired now).entries ⊆ h.entries := by
  unfold sweepExpired
  refine List.foldlRecOn (motive := fun h' : WorkflowHistoryCache => h'.entries ⊆ h.entries) _ _
    (List.Subset.refl _) ?_
  rintro h' hsub ⟨iid, e⟩ -
  dsimp only
  split
  · exact List.Subset.trans (entries_removeEntry h' _) hsub
  · exact hsub

theorem All.getForExecution (hall : h.All φ) : (h.getForExecution now iid executionID).1.All φ := by
  unfold WorkflowHistoryCache.getForExecution
  split
  · split
    · exact hall
    · intro e he
      obtain ⟨e₀, he₀, rfl⟩ := List.mem_map.mp he
      split
      · exact hall e₀ he₀
      · exact hall e₀ he₀
  · exact hall

/-- What is found was put there for the execution asked for. -/
theorem All.of_getForExecution {events : List HistoryEvent} (hall : h.All φ)
    (hget : (h.getForExecution now iid executionID).2 = some events) :
    executionID ≠ "" ∧ φ iid executionID events := by
  unfold WorkflowHistoryCache.getForExecution at hget
  split at hget
  · next e he =>
    split at hget
    · cases hget
    · next hne =>
      cases hget
      obtain ⟨hknown, hsame⟩ := not_or.mp hne
      have hφ := hall _ (Assoc.mem_of_get? he)
      rw [not_not.mp hsame] at hφ
      exact ⟨hknown, hφ⟩
  · cases hget

end WorkflowHistoryCache

/-- What a resolved history is made of. -/
inductive Resolves (φ : InstanceID → String → List HistoryEvent → Prop) (workItem : WorkflowRequest)
    (resp : Except ResolveError (List HistoryEvent)) : List HistoryEvent → Prop
  | full (sent : workItem.cachedHistory = none) : Resolves φ workItem resp workItem.pastEvents
  | cached {eventCount : Int} {events : List HistoryEvent} (sent : workItem.cachedHistory = some eventCount)
    (held : φ workItem.instanceId workItem.executionId events) (length : events.length = eventCount) :
    Resolves φ workItem resp (events ++ workItem.pastEvents)
  | fetched {events : List HistoryEvent} (fetched : resp = .ok events) : Resolves φ workItem resp events

theorem resolveWorkflowHistory_spec {φ : InstanceID → String → List HistoryEvent → Prop}
    {h : WorkflowHistoryCache} (hall : h.All φ) (now : Time) (workItem : WorkflowRequest)
    (resp : Except ResolveError (List HistoryEvent)) :
    (resolveWorkflowHistory h now workItem resp).1.All φ ∧
      ∀ events, (resolveWorkflowHistory h now workItem resp).2 = .ok events →
        Resolves φ workItem resp events := by
  unfold resolveWorkflowHistory
  split
  · next hsent =>
    refine ⟨hall, fun events hok => ?_⟩
    cases hok
    exact .full hsent
  · next eventCount hsent =>
    have hafter : (h.getForExecution now workItem.instanceId workItem.executionId).1.All φ :=
      hall.getForExecution
    dsimp only
    split
    · next cached hcached =>
      refine ⟨hafter, fun events hok => ?_⟩
      cases hok
      obtain ⟨hget, hlength⟩ := Option.filter_eq_some_iff.mp hcached
      exact .cached hsent (hall.of_getForExecution hget).2 (of_decide_eq_true hlength)
    · split
      · exact ⟨hafter, nofun⟩
      · split
        · exact ⟨hafter, nofun⟩
        · refine ⟨hafter, fun events hok => ?_⟩
          cases hok
          exact .fetched rfl

end DurableTask
