import DurableTask.Lib.Assoc
import DurableTask.Protos

/-!
# Work items as deltas

The sidecar's side of the stateful-history protocol (`backend/executor_stateful.go`): what it believes
a stream's worker to hold, and how a request is cut down to what the worker does not hold yet.

A Go map is the list of its entries; the order of the list is the order of iteration, which Go leaves
open.
-/

namespace DurableTask

/-- Go's conversion of an `int` to `int32`. -/
def int32 (n : Int) : Int := n.bmod (2 ^ 32)

/-- `protos.WorkflowRequest`; a missing execution id is the empty string. `cachedHistory` is the
`EventCount` of a `CachedHistory`. -/
structure WorkflowRequest where
  instanceId : InstanceID
  executionId : String := ""
  pastEvents : List HistoryEvent := []
  newEvents : List HistoryEvent := []
  cachedHistory : Option Int := none
deriving DecidableEq, Repr

/-- `executionID`: the first execution id in the new events, or else in the old ones. -/
def executionID (oldEvents newEvents : List HistoryEvent) : Option String :=
  (newEvents ++ oldEvents).findSome? fun e =>
    e.getExecutionStarted.bind fun es => es.workflowInstance.executionId

/-- The request of `ExecuteWorkflow`. -/
def WorkflowRequest.ofEvents (iid : InstanceID) (oldEvents newEvents : List HistoryEvent) :
    WorkflowRequest :=
  { instanceId := iid
    executionId := (executionID oldEvents newEvents).getD ""
    pastEvents := oldEvents
    newEvents := newEvents }

structure WarmHistory where
  executionID : String
  eventCount : Nat
deriving DecidableEq, Repr

def maxWarmInstancesPerStream : Nat := 1000000

/-- The part of a stream's state that concerns histories. -/
structure StreamState where
  /-- Whether the worker advertised `WORKER_CAPABILITY_STATEFUL_HISTORY`. -/
  statefulHistory : Bool
  warm : List (InstanceID × WarmHistory) := []
  maxWarm : Nat := maxWarmInstancesPerStream
deriving DecidableEq, Repr

namespace StreamState

/-- The loop that deletes entries other than the one of `iid` until the rest fits. -/
def evict (maxWarm : Nat) (iid : InstanceID) :
    List InstanceID → List (InstanceID × WarmHistory) → List (InstanceID × WarmHistory)
  | [], warm => warm
  | k :: ks, warm =>
    if k = iid then evict maxWarm iid ks warm
    else
      let warm := Assoc.erase warm k
      if warm.length ≤ maxWarm then warm else evict maxWarm iid ks warm

/-- The request as a delta, if the worker is believed to hold a beginning of the same execution. -/
def delta (warm : List (InstanceID × WarmHistory)) (req : WorkflowRequest) : WorkflowRequest :=
  match Assoc.get? warm req.instanceId with
  | some cached =>
    if req.executionId ≠ "" ∧ cached.executionID = req.executionId ∧ cached.eventCount > 0 ∧
        cached.eventCount ≤ req.pastEvents.length then
      { req with
        pastEvents := req.pastEvents.drop cached.eventCount
        cachedHistory := some (int32 cached.eventCount) }
    else req
  | none => req

/-- `applyStatefulHistory`. -/
def applyStatefulHistory (s : StreamState) (req : WorkflowRequest) : StreamState × WorkflowRequest :=
  if !s.statefulHistory then (s, req)
  else
    let warm := Assoc.insert s.warm req.instanceId ⟨req.executionId, req.pastEvents.length⟩
    let warm :=
      if warm.length > s.maxWarm then evict s.maxWarm req.instanceId (warm.map Prod.fst) warm
      else warm
    ({ s with warm := warm }, delta s.warm req)

end StreamState

/-- A request that was sent for another: the same, or without a beginning that the worker is told the
length of. -/
inductive WorkflowRequest.SentFor (req : WorkflowRequest) : WorkflowRequest → Prop
  | full : SentFor req req
  | delta (n : Nat) (known : req.executionId ≠ "") (le : n ≤ req.pastEvents.length) :
    SentFor req { req with
      pastEvents := req.pastEvents.drop n
      cachedHistory := some (int32 n) }

theorem WorkflowRequest.SentFor.ids {req sent : WorkflowRequest} (h : req.SentFor sent) :
    sent.instanceId = req.instanceId ∧ sent.executionId = req.executionId := by
  cases h with
  | full => exact ⟨rfl, rfl⟩
  | delta => exact ⟨rfl, rfl⟩

theorem StreamState.sentFor_applyStatefulHistory (s : StreamState) (req : WorkflowRequest) :
    req.SentFor (s.applyStatefulHistory req).2 := by
  have hdelta : req.SentFor (delta s.warm req) := by
    unfold delta
    split
    · split
      · next cached _ h => exact .delta cached.eventCount h.1 h.2.2.2
      · exact .full
    · exact .full
  unfold applyStatefulHistory
  split
  · exact .full
  · exact hdelta

/-- The conversion loses nothing below `2 ^ 31`, and is negative up to `2 ^ 32`. -/
theorem eq_of_int32_eq {n m : Nat} (hn : n < 2 ^ 32) (h : (m : Int) = int32 n) : m = n := by
  unfold int32 at h
  rw [Int.bmod_def] at h
  split at h <;> omega

end DurableTask
