import DurableTask.RuntimeState.Load

/-!
# The duplicate detectors of `backend/runtimestate`

`addEventWithDedup` finds duplicate resolutions in three ways: with a set that is filled while a history
is loaded, with a set seeded from the state for a batch, and without a set by scanning the history. The
sets hold packed keys. All three agree (`batch_and_split_agree`), and they do what `RuntimeState.Basic`
says with sets of pairs (`refines_new`, `refines_addEvents`).
-/

namespace DurableTask

/-- The range of `int32`. -/
def IsInt32 (id : ActionID) : Prop := -2147483648 ≤ id ∧ id < 2147483648

/-- The id of a resolution event is an `int32`. -/
def HistoryEvent.HasInt32 (e : HistoryEvent) : Prop := ∀ k ∈ e.resolution, IsInt32 k.2

namespace Dedup

/-! ### `dedup.Set` -/

/-- The number of a kind; 0 is `KindNone`. -/
def code : Kind → BitVec 64
  | .task => 1
  | .timer => 2
  | .child => 3

def packKey (k : Kind × ActionID) : BitVec 64 :=
  code k.1 <<< 32 ||| (BitVec.ofInt 32 k.2).setWidth 64

abbrev Set := List (BitVec 64)

/-- `Add`: whether the key was there already, and the set with it. -/
def Set.add (s : Set) (k : Kind × ActionID) : Bool × Set :=
  if packKey k ∈ s then (true, s) else (false, packKey k :: s)

def Set.populate (s : Set) (events : List HistoryEvent) : Set :=
  events.foldl (fun s e => match e.resolution with
    | some k => packKey k :: s
    | none => s) s

def Set.newForState (s : WorkflowRuntimeState) : Set :=
  (Set.populate [] s.oldEvents).populate s.newEvents

/-! ### `runtimestate` -/

/-- `ErrDuplicateEvent`. -/
inductive AddError
  | duplicateEvent
deriving DecidableEq, Repr

/-- The check of a resolution event. -/
def noteResolution (s : WorkflowRuntimeState) (e : HistoryEvent) (seen : Option Set) :
    Except AddError (WorkflowRuntimeState × Option Set) :=
  match e.resolution, seen with
  | none, _ => .ok (s, seen)
  | some k, some set =>
    match set.add k with
    | (true, _) => .error .duplicateEvent
    | (false, set) => .ok (s, some set)
  | some k, none =>
    if isPresent s.oldEvents k || isPresent s.newEvents k then .error .duplicateEvent else .ok (s, none)

/-- The part of `addEventWithDedup` that depends on the kind of event. -/
def noteEvent (s : WorkflowRuntimeState) (e : HistoryEvent) (seen : Option Set) :
    Except AddError (WorkflowRuntimeState × Option Set) :=
  match e.eventType with
  | .executionStarted startEvent =>
    if s.startEvent.isSome then .error .duplicateEvent
    else .ok ({ s with startEvent := some startEvent, createdTime := some e.timestamp }, seen)
  | .executionCompleted completedEvent =>
    if s.completedEvent.isSome then .error .duplicateEvent
    else .ok ({ s with completedEvent := some completedEvent, completedTime := some e.timestamp }, seen)
  | .executionSuspended _ => .ok ({ s with isSuspended := true }, seen)
  | .executionResumed _ => .ok ({ s with isSuspended := false }, seen)
  | .executionStalled st => .ok ({ s with stalled := some ⟨st.reason, st.description⟩ }, seen)
  | _ => noteResolution s e seen

def addEventWithDedup (s : WorkflowRuntimeState) (e : HistoryEvent) (isNew : Bool) (seen : Option Set) :
    Except AddError (WorkflowRuntimeState × Option Set) :=
  (noteEvent s e seen).map fun (s, seen) => (s.appendEvent e isNew, seen)

/-- A call of `addEventWithDedup`: what it leaves, and the error it returns. -/
def added (isNew : Bool) (p : WorkflowRuntimeState × Option Set) (e : HistoryEvent) :
    (WorkflowRuntimeState × Option Set) × Option AddError :=
  match addEventWithDedup p.1 e isNew p.2 with
  | .ok p => (p, none)
  | .error err => (p, some err)

/-- `NewWorkflowRuntimeState`. -/
def newWorkflowRuntimeState (instanceID : InstanceID) (customStatus : Option String)
    (existingHistory : List HistoryEvent) : WorkflowRuntimeState :=
  (existingHistory.foldl (fun p e => (added false p e).1)
    ({ instanceId := instanceID, customStatus := customStatus }, some [])).1

def addEvent (s : WorkflowRuntimeState) (e : HistoryEvent) : WorkflowRuntimeState × Option AddError :=
  let p := added true (s, none) e
  (p.1.1, p.2)

/-- The loop of `AddEvents`. -/
def addAll : WorkflowRuntimeState × Option Set → List HistoryEvent →
    WorkflowRuntimeState × List (Option AddError)
  | p, [] => (p.1, [])
  | p, e :: es =>
    let p := added true p e
    let r := addAll p.1 es
    (r.1, p.2 :: r.2)

def addEvents (s : WorkflowRuntimeState) (events : List HistoryEvent) :
    WorkflowRuntimeState × List (Option AddError) :=
  addAll (s, some (Set.newForState s)) events

/-- `AddEvent` on the events one by one. -/
def addEach : WorkflowRuntimeState → List HistoryEvent → WorkflowRuntimeState × List (Option AddError)
  | s, [] => (s, [])
  | s, e :: es =>
    let p := addEvent s e
    let r := addEach p.1 es
    (r.1, p.2 :: r.2)

/-! ### Packed keys -/

theorem packKey_low (k : Kind × ActionID) : (packKey k).setWidth 32 = BitVec.ofInt 32 k.2 := by
  have hcode : (code k.1 <<< 32).setWidth 32 = 0#32 := by cases k.1 <;> rfl
  unfold packKey
  rw [BitVec.setWidth_or, hcode, BitVec.zero_or, BitVec.setWidth_setWidth_of_le _ (by decide),
    BitVec.setWidth_eq]

theorem packKey_high (k : Kind × ActionID) : packKey k >>> 32 = code k.1 := by
  have hcode : code k.1 <<< 32 >>> 32 = code k.1 := by cases k.1 <;> rfl
  have hlow : (BitVec.ofInt 32 k.2).setWidth 64 >>> 32 = 0#64 := by
    refine BitVec.eq_of_toNat_eq ?_
    rw [BitVec.toNat_ushiftRight, BitVec.toNat_setWidth_of_le (by decide), Nat.shiftRight_eq_div_pow]
    exact Nat.div_eq_of_lt (BitVec.ofInt 32 k.2).isLt
  unfold packKey
  rw [BitVec.ushiftRight_or_distrib, hcode, hlow, BitVec.or_zero]

theorem ofInt_injective {i j : ActionID} (hi : IsInt32 i) (hj : IsInt32 j)
    (h : BitVec.ofInt 32 i = BitVec.ofInt 32 j) : i = j := by
  have hint := congrArg BitVec.toInt h
  unfold IsInt32 ActionID at *
  rw [BitVec.toInt_ofInt, BitVec.toInt_ofInt] at hint
  simp only [Int.bmod_def] at hint
  omega

/-- Packing is injective over all kinds and all ids. -/
theorem packKey_inj {k k' : Kind × ActionID} (hk : IsInt32 k.2) (hk' : IsInt32 k'.2) :
    packKey k = packKey k' ↔ k = k' := by
  refine ⟨fun h => ?_, congrArg packKey⟩
  have hid : k.2 = k'.2 := by
    have hlow := congrArg (BitVec.setWidth 32) h
    rw [packKey_low, packKey_low] at hlow
    exact ofInt_injective hk hk' hlow
  have hkind : code k.1 = code k'.1 := by
    rw [← packKey_high, ← packKey_high, h]
  refine Prod.ext ?_ hid
  revert hkind
  cases k.1 <;> cases k'.1 <;> decide

/-! ### Sets of keys -/

/-- The keys of the resolutions of a state. -/
abbrev keys (s : WorkflowRuntimeState) : DedupSet := DedupSet.newForState s

/-- A set of packed keys and a set of pairs have the same elements. -/
def Represents (set : Set) (pairs : DedupSet) : Prop :=
  ∀ k, IsInt32 k.2 → (packKey k ∈ set ↔ k ∈ pairs)

theorem Represents.cons {set : Set} {pairs : DedupSet} (h : Represents set pairs) {k : Kind × ActionID}
    (hk : IsInt32 k.2) : Represents (packKey k :: set) (k :: pairs) := by
  intro k' hk'
  rw [List.mem_cons, List.mem_cons, packKey_inj hk' hk, h k' hk']

theorem Represents.congr {set : Set} {pairs pairs' : DedupSet} (h : Represents set pairs)
    (hpairs : ∀ k, k ∈ pairs' ↔ k ∈ pairs) : Represents set pairs' :=
  fun k hk => (h k hk).trans (hpairs k).symm

theorem represents_populate {set : Set} {pairs : DedupSet} (h : Represents set pairs)
    {events : List HistoryEvent} (hids : ∀ e ∈ events, e.HasInt32) :
    Represents (set.populate events) (pairs ++ events.filterMap HistoryEvent.resolution) := by
  unfold Set.populate
  induction events generalizing set pairs with
  | nil => exact h.congr fun k => by rw [List.filterMap_nil, List.append_nil]
  | cons e es ih =>
    have hes : ∀ e ∈ es, e.HasInt32 := fun e he => hids e (List.mem_cons_of_mem _ he)
    rw [List.foldl_cons]
    cases hk : e.resolution with
    | none =>
      rw [List.filterMap_cons_none hk]
      exact ih h hes
    | some k =>
      have hint : IsInt32 k.2 := hids e List.mem_cons_self k hk
      rw [List.filterMap_cons_some hk]
      refine (ih (h.cons hint) hes).congr fun k' => ?_
      simp [List.mem_append, or_left_comm]

theorem represents_newForState {s : WorkflowRuntimeState}
    (hids : ∀ e ∈ s.oldEvents ++ s.newEvents, e.HasInt32) : Represents (Set.newForState s) (keys s) := by
  have hempty : Represents [] [] := fun k _ => ⟨nofun, nofun⟩
  have hold := represents_populate hempty fun e he => hids e (List.mem_append_left _ he)
  have hboth := represents_populate hold fun e he => hids e (List.mem_append_right _ he)
  unfold keys DedupSet.newForState
  rw [List.filterMap_append]
  exact hboth

theorem mem_keys (s : WorkflowRuntimeState) (k : Kind × ActionID) :
    k ∈ keys s ↔ (isPresent s.oldEvents k || isPresent s.newEvents k) = true := by
  unfold keys DedupSet.newForState isPresent
  rw [← List.any_append, List.any_eq_true, List.mem_filterMap]
  simp

/-! ### One event -/

/-- A call with a set and a call that scans the history do the same, and the set stays the one of the
state. -/
inductive Agree (isNew : Bool) (s : WorkflowRuntimeState) (e : HistoryEvent) (set : Set) : Prop
  | added (s' : WorkflowRuntimeState) (set' : Set)
    (scan : addEventWithDedup s e isNew none = .ok (s', none))
    (withSet : addEventWithDedup s e isNew (some set) = .ok (s', some set'))
    (keys : Represents set' (keys s'))
  | rejected (scan : addEventWithDedup s e isNew none = .error .duplicateEvent)
    (withSet : addEventWithDedup s e isNew (some set) = .error .duplicateEvent)

theorem keys_appendEvent (s : WorkflowRuntimeState) (e : HistoryEvent) (isNew : Bool)
    (k : Kind × ActionID) : k ∈ keys (s.appendEvent e isNew) ↔ e.resolution = some k ∨ k ∈ keys s := by
  unfold keys DedupSet.newForState WorkflowRuntimeState.appendEvent
  cases isNew <;> simp [List.filterMap_append, or_comm, or_assoc]

theorem noteEvent_scan (s : WorkflowRuntimeState) {e : HistoryEvent} {k : Kind × ActionID}
    (hk : e.resolution = some k) : noteEvent s e none =
      if isPresent s.oldEvents k || isPresent s.newEvents k then .error .duplicateEvent
      else .ok (s, none) := by
  rcases e with ⟨id, ts, body, router, row⟩
  cases body <;> cases hk <;> rfl

theorem noteEvent_set (s : WorkflowRuntimeState) {e : HistoryEvent} {k : Kind × ActionID}
    (hk : e.resolution = some k) (set : Set) : noteEvent s e (some set) =
      if packKey k ∈ set then .error .duplicateEvent else .ok (s, some (packKey k :: set)) := by
  have hadd : noteEvent s e (some set) = match set.add k with
      | (true, _) => .error .duplicateEvent
      | (false, set) => .ok (s, some set) := by
    rcases e with ⟨id, ts, body, router, row⟩
    cases body <;> cases hk <;> rfl
  rw [hadd]
  unfold Set.add
  by_cases hmem : packKey k ∈ set
  · rw [if_pos hmem, if_pos hmem]
  · rw [if_neg hmem, if_neg hmem]

theorem agree (isNew : Bool) {s : WorkflowRuntimeState} {e : HistoryEvent} {set : Set}
    (hset : Represents set (keys s)) (he : e.HasInt32) : Agree isNew s e set := by
  cases hk : e.resolution with
  | some k =>
    have hint : IsInt32 k.2 := he k hk
    by_cases hmem : k ∈ keys s
    · refine .rejected ?_ ?_
      · unfold addEventWithDedup
        rw [noteEvent_scan s hk, if_pos ((mem_keys s k).mp hmem)]
        rfl
      · unfold addEventWithDedup
        rw [noteEvent_set s hk, if_pos ((hset k hint).mpr hmem)]
        rfl
    · refine .added (s.appendEvent e isNew) (packKey k :: set) ?_ ?_ ?_
      · unfold addEventWithDedup
        rw [noteEvent_scan s hk, if_neg fun h => hmem ((mem_keys s k).mpr h)]
        rfl
      · unfold addEventWithDedup
        rw [noteEvent_set s hk, if_neg fun h => hmem ((hset k hint).mp h)]
        rfl
      · refine (hset.cons hint).congr fun k' => ?_
        rw [keys_appendEvent, hk, List.mem_cons, Option.some.injEq, eq_comm]
  | none =>
    -- Without a key neither the set nor the scan is asked.
    have hsame (s' : WorkflowRuntimeState) (hnote : ∀ seen, noteEvent s e seen = .ok (s', seen))
        (hs' : keys s' = keys s) : Agree isNew s e set := by
      refine .added (s'.appendEvent e isNew) set ?_ ?_ (hset.congr fun k => ?_)
      · unfold addEventWithDedup
        rw [hnote]
        rfl
      · unfold addEventWithDedup
        rw [hnote]
        rfl
      · rw [keys_appendEvent, hk, hs']
        simp
    have hreject (hnote : ∀ seen, noteEvent s e seen = .error .duplicateEvent) : Agree isNew s e set := by
      refine .rejected ?_ ?_
      · unfold addEventWithDedup
        rw [hnote]
        rfl
      · unfold addEventWithDedup
        rw [hnote]
        rfl
    rcases e with ⟨id, ts, body, router, row⟩
    cases body with
    | executionStarted es =>
      by_cases hs : s.startEvent.isSome = true
      · exact hreject fun seen => if_pos hs
      · exact hsame _ (fun seen => if_neg hs) rfl
    | executionCompleted ec =>
      by_cases hs : s.completedEvent.isSome = true
      · exact hreject fun seen => if_pos hs
      · exact hsame _ (fun seen => if_neg hs) rfl
    | _ => first | exact hsame _ (fun seen => rfl) rfl | cases hk

/-! ### Many events -/

theorem represents_nil (instanceID : InstanceID) (customStatus : Option String) :
    Represents [] (keys { instanceId := instanceID, customStatus := customStatus }) :=
  fun _ _ => ⟨nofun, nofun⟩

/-- The loop of a batch does what the single calls do. -/
theorem addAll_eq_addEach {s : WorkflowRuntimeState} {set : Set} {events : List HistoryEvent}
    (hset : Represents set (keys s)) (hids : ∀ e ∈ events, e.HasInt32) :
    addAll (s, some set) events = addEach s events := by
  induction events generalizing s set with
  | nil => rfl
  | cons e es ih =>
    have hes : ∀ e ∈ es, e.HasInt32 := fun e he => hids e (List.mem_cons_of_mem _ he)
    cases agree true hset (hids e List.mem_cons_self) with
    | added s' set' scan withSet hset' =>
      simp only [addAll, addEach, addEvent, added, scan, withSet, ih hset' hes]
    | rejected scan withSet =>
      simp only [addAll, addEach, addEvent, added, scan, withSet, ih hset hes]

/-- Two states with the same start, completion, flags and events in total. -/
structure Same (s s' : WorkflowRuntimeState) : Prop where
  startEvent : s'.startEvent = s.startEvent
  completedEvent : s'.completedEvent = s.completedEvent
  isSuspended : s'.isSuspended = s.isSuspended
  stalled : s'.stalled = s.stalled
  events : s'.oldEvents ++ s'.newEvents = s.oldEvents ++ s.newEvents

theorem Same.refl (s : WorkflowRuntimeState) : Same s s := ⟨rfl, rfl, rfl, rfl, rfl⟩

/-- What a call that scans the history leaves. -/
def scan (isNew : Bool) (s : WorkflowRuntimeState) (e : HistoryEvent) : WorkflowRuntimeState :=
  (added isNew (s, none) e).1.1

theorem addEach_fst (s : WorkflowRuntimeState) (events : List HistoryEvent) :
    (addEach s events).1 = events.foldl (scan true) s := by
  induction events generalizing s with
  | nil => rfl
  | cons e es ih => exact ih _

theorem foldl_added {isNew : Bool} {s : WorkflowRuntimeState} {set : Set} {events : List HistoryEvent}
    (hset : Represents set (keys s)) (hids : ∀ e ∈ events, e.HasInt32) :
    (events.foldl (fun p e => (added isNew p e).1) (s, some set)).1 = events.foldl (scan isNew) s := by
  induction events generalizing s set with
  | nil => rfl
  | cons e es ih =>
    have hes : ∀ e ∈ es, e.HasInt32 := fun e he => hids e (List.mem_cons_of_mem _ he)
    rw [List.foldl_cons, List.foldl_cons]
    cases agree isNew hset (hids e List.mem_cons_self) with
    | added s' set' hscan hwithSet hset' =>
      simp only [added, scan, hscan, hwithSet]
      exact ih hset' hes
    | rejected hscan hwithSet =>
      simp only [added, scan, hscan, hwithSet]
      exact ih hset hes

theorem isPresent_append (es es' : List HistoryEvent) (k : Kind × ActionID) :
    isPresent (es ++ es') k = (isPresent es k || isPresent es' k) := List.any_append

/-- Adding an event to the committed events of one state and to the new events of the other. -/
theorem Same.scan {s s' : WorkflowRuntimeState} (h : Same s s') (hnew : s.newEvents = [])
    (e : HistoryEvent) :
    Same (Dedup.scan false s e) (Dedup.scan true s' e) ∧ (Dedup.scan false s e).newEvents = [] := by
  have hreject (hs : noteEvent s e none = .error .duplicateEvent)
      (hs' : noteEvent s' e none = .error .duplicateEvent) :
      Same (Dedup.scan false s e) (Dedup.scan true s' e) ∧ (Dedup.scan false s e).newEvents = [] := by
    unfold Dedup.scan added addEventWithDedup
    rw [hs, hs']
    exact ⟨h, hnew⟩
  have haccept {t t' : WorkflowRuntimeState} (hs : noteEvent s e none = .ok (t, none))
      (hs' : noteEvent s' e none = .ok (t', none)) (ht : Same t t') (htnew : t.newEvents = []) :
      Same (Dedup.scan false s e) (Dedup.scan true s' e) ∧ (Dedup.scan false s e).newEvents = [] := by
    unfold Dedup.scan added addEventWithDedup
    rw [hs, hs']
    refine ⟨⟨ht.startEvent, ht.completedEvent, ht.isSuspended, ?_, ?_⟩, htnew⟩
    · show (t'.appendEvent e true).stalled = (t.appendEvent e false).stalled
      simp only [WorkflowRuntimeState.appendEvent, Bool.false_eq_true, if_true, if_false, ht.stalled]
    · have hevents := ht.events
      show t'.oldEvents ++ (t'.newEvents ++ [e]) = (t.oldEvents ++ [e]) ++ t.newEvents
      rw [← List.append_assoc, hevents, htnew, List.append_nil, List.append_nil]
  cases hk : e.resolution with
  | some k =>
    have hpresent : (isPresent s'.oldEvents k || isPresent s'.newEvents k) =
        (isPresent s.oldEvents k || isPresent s.newEvents k) := by
      rw [← isPresent_append, ← isPresent_append, h.events]
    have hs := noteEvent_scan s hk
    have hs' := noteEvent_scan s' hk
    rw [hpresent] at hs'
    by_cases hdup : (isPresent s.oldEvents k || isPresent s.newEvents k) = true
    · rw [if_pos hdup] at hs hs'
      exact hreject hs hs'
    · rw [if_neg hdup] at hs hs'
      exact haccept hs hs' h hnew
  | none =>
    rcases e with ⟨id, ts, body, router, row⟩
    cases body with
    | executionStarted es =>
      by_cases hs : s.startEvent.isSome = true
      · exact hreject (if_pos hs) (if_pos (h.startEvent ▸ hs))
      · exact haccept (if_neg hs) (if_neg (h.startEvent ▸ hs))
          ⟨rfl, h.completedEvent, h.isSuspended, h.stalled, h.events⟩ hnew
    | executionCompleted ec =>
      by_cases hs : s.completedEvent.isSome = true
      · exact hreject (if_pos hs) (if_pos (h.completedEvent ▸ hs))
      · exact haccept (if_neg hs) (if_neg (h.completedEvent ▸ hs))
          ⟨h.startEvent, rfl, h.isSuspended, h.stalled, h.events⟩ hnew
    | executionSuspended | executionResumed =>
      exact haccept rfl rfl ⟨h.startEvent, h.completedEvent, rfl, h.stalled, h.events⟩ hnew
    | executionStalled =>
      exact haccept rfl rfl ⟨h.startEvent, h.completedEvent, h.isSuspended, rfl, h.events⟩ hnew
    | _ => first | exact haccept rfl rfl h hnew | cases hk

theorem Same.foldl {s s' : WorkflowRuntimeState} (h : Same s s') (hnew : s.newEvents = [])
    (events : List HistoryEvent) :
    Same (events.foldl (Dedup.scan false) s) (events.foldl (Dedup.scan true) s') ∧
      (events.foldl (Dedup.scan false) s).newEvents = [] := by
  induction events generalizing s s' with
  | nil => exact ⟨h, hnew⟩
  | cons e es ih =>
    obtain ⟨hsame, hnew⟩ := h.scan hnew e
    exact ih hsame hnew

/-! ### The model with sets of pairs -/

/-- A call with packed keys and one with pairs do the same, and the sets stay alike. -/
inductive Refines (isNew : Bool) (s : WorkflowRuntimeState) (e : HistoryEvent) (set : Set)
    (pairs : DedupSet) : Prop
  | added (s' : WorkflowRuntimeState) (set' : Set) (pairs' : DedupSet)
    (packed : addEventWithDedup s e isNew (some set) = .ok (s', some set'))
    (model : s.addEventWithDedup e isNew (some pairs) = some (s', some pairs'))
    (keys : Represents set' pairs')
  | rejected (packed : addEventWithDedup s e isNew (some set) = .error .duplicateEvent)
    (model : s.addEventWithDedup e isNew (some pairs) = none)

theorem refines (isNew : Bool) {s : WorkflowRuntimeState} {e : HistoryEvent} {set : Set}
    {pairs : DedupSet} (hset : Represents set pairs) (he : e.HasInt32) :
    Refines isNew s e set pairs := by
  have hreject (hpacked : noteEvent s e (some set) = .error .duplicateEvent)
      (hmodel : s.noteEvent e (some pairs) = none) : Refines isNew s e set pairs := by
    refine .rejected ?_ ?_
    · unfold addEventWithDedup
      rw [hpacked]
      rfl
    · unfold WorkflowRuntimeState.addEventWithDedup
      rw [hmodel]
      rfl
  have haccept {s' : WorkflowRuntimeState} {set' : Set} {pairs' : DedupSet}
      (hpacked : noteEvent s e (some set) = .ok (s', some set'))
      (hmodel : s.noteEvent e (some pairs) = some (s', some pairs')) (hset' : Represents set' pairs') :
      Refines isNew s e set pairs := by
    refine .added (s'.appendEvent e isNew) set' pairs' ?_ ?_ hset'
    · unfold addEventWithDedup
      rw [hpacked]
      rfl
    · unfold WorkflowRuntimeState.addEventWithDedup
      rw [hmodel]
      rfl
  cases hk : e.resolution with
  | some k =>
    have hpacked := noteEvent_set s hk set
    have hmodel : s.noteEvent e (some pairs) = _ := WorkflowRuntimeState.noteEvent_resolution hk
    by_cases hmem : k ∈ pairs
    · rw [if_pos ((hset k (he k hk)).mpr hmem)] at hpacked
      rw [if_pos hmem] at hmodel
      exact hreject hpacked hmodel
    · rw [if_neg fun h => hmem ((hset k (he k hk)).mp h)] at hpacked
      rw [if_neg hmem] at hmodel
      exact haccept hpacked hmodel (hset.cons (he k hk))
  | none =>
    rcases e with ⟨id, ts, body, router, row⟩
    cases body with
    | executionStarted es =>
      by_cases hs : s.startEvent.isSome = true
      · exact hreject (if_pos hs) (if_pos hs)
      · exact haccept (if_neg hs) (if_neg hs) hset
    | executionCompleted ec =>
      by_cases hs : s.completedEvent.isSome = true
      · exact hreject (if_pos hs) (if_pos hs)
      · exact haccept (if_neg hs) (if_neg hs) hset
    | _ => first | exact haccept rfl rfl hset | cases hk

theorem foldl_refines {isNew : Bool} {s : WorkflowRuntimeState} {set : Set} {pairs : DedupSet}
    {events : List HistoryEvent} (hset : Represents set pairs) (hids : ∀ e ∈ events, e.HasInt32) :
    (events.foldl (fun p e => (added isNew p e).1) (s, some set)).1 =
      (events.foldl (WorkflowRuntimeState.addOrDrop isNew) (s, some pairs)).1 := by
  induction events generalizing s set pairs with
  | nil => rfl
  | cons e es ih =>
    have hes : ∀ e ∈ es, e.HasInt32 := fun e he => hids e (List.mem_cons_of_mem _ he)
    rw [List.foldl_cons, List.foldl_cons]
    cases refines isNew (s := s) hset (hids e List.mem_cons_self) with
    | added s' set' pairs' hpacked hmodel hset' =>
      simp only [added, WorkflowRuntimeState.addOrDrop, hpacked, hmodel, Option.getD_some]
      exact ih hset' hes
    | rejected hpacked hmodel =>
      simp only [added, WorkflowRuntimeState.addOrDrop, hpacked, hmodel, Option.getD_none]
      exact ih hset hes

theorem addAll_fst (p : WorkflowRuntimeState × Option Set) (events : List HistoryEvent) :
    (addAll p events).1 = (events.foldl (fun p e => (added true p e).1) p).1 := by
  induction events generalizing p with
  | nil => rfl
  | cons e es ih => exact ih _

/-- Loading a history with packed keys. -/
theorem refines_new (instanceID : InstanceID) (customStatus : Option String) {h : List HistoryEvent}
    (hids : ∀ e ∈ h, e.HasInt32) :
    newWorkflowRuntimeState instanceID customStatus h =
      WorkflowRuntimeState.new instanceID customStatus h :=
  foldl_refines (fun _ _ => ⟨nofun, nofun⟩) hids

/-- Adding a batch with packed keys. -/
theorem refines_addEvents {s : WorkflowRuntimeState} {events : List HistoryEvent}
    (hs : ∀ e ∈ s.oldEvents ++ s.newEvents, e.HasInt32) (hids : ∀ e ∈ events, e.HasInt32) :
    (addEvents s events).1 = s.addEvents events :=
  (addAll_fst _ _).trans (foldl_refines (represents_newForState hs) hids)

/-! ### The detectors agree -/

/-- Adding a batch returns the errors and leaves the state of adding its events one by one; and a history
that is loaded in part and added in part gives the start, completion, flags and events of loading it
as a whole. -/
theorem batch_and_split_agree {s : WorkflowRuntimeState} {events : List HistoryEvent}
    (hs : ∀ e ∈ s.oldEvents ++ s.newEvents, e.HasInt32) (hids : ∀ e ∈ events, e.HasInt32) :
    addEvents s events = addEach s events ∧
      ∀ (instanceID : InstanceID) (customStatus : Option String) (committed rest : List HistoryEvent),
        (∀ e ∈ committed ++ rest, e.HasInt32) →
        let whole := newWorkflowRuntimeState instanceID customStatus (committed ++ rest)
        let loaded := newWorkflowRuntimeState instanceID customStatus committed
        Same whole (addEvents loaded rest).1 ∧ Same whole (addEach loaded rest).1 := by
  refine ⟨addAll_eq_addEach (represents_newForState hs) hids, ?_⟩
  intro instanceID customStatus committed rest hall whole loaded
  have hcommitted : ∀ e ∈ committed, e.HasInt32 := fun e he => hall e (List.mem_append_left _ he)
  have hrest : ∀ e ∈ rest, e.HasInt32 := fun e he => hall e (List.mem_append_right _ he)
  have hloaded : ∀ e ∈ loaded.oldEvents ++ loaded.newEvents, e.HasInt32 := by
    obtain ⟨hold, hnew⟩ := WorkflowRuntimeState.new_events instanceID customStatus committed
    rw [show loaded = _ from refines_new instanceID customStatus hcommitted, hold, hnew, List.append_nil]
    exact fun e he => hcommitted e ((WorkflowRuntimeState.keep_sublist ..).mem he)
  have hsplit : addEvents loaded rest = addEach loaded rest :=
    addAll_eq_addEach (represents_newForState hloaded) hrest
  have hempty := represents_nil instanceID customStatus
  have hsame : Same whole (addEach loaded rest).1 := by
    rw [addEach_fst]
    show Same (newWorkflowRuntimeState instanceID customStatus (committed ++ rest)) _
    unfold newWorkflowRuntimeState
    rw [foldl_added hempty hall, List.foldl_append,
      show loaded = _ from foldl_added hempty hcommitted]
    exact ((Same.refl _).foldl ((Same.refl _).foldl rfl committed).2 rest).1
  exact ⟨hsplit ▸ hsame, hsame⟩

end Dedup

namespace DedupExample

open Dedup

def fired (id : ActionID) : HistoryEvent := { eventType := .timerFired { timerId := id, fireAt := 0 } }

def completed (id : ActionID) : HistoryEvent := { eventType := .taskCompleted { taskScheduledId := id } }

/-- A state with a duplicate among its committed events. -/
def state : WorkflowRuntimeState := { instanceId := "a", oldEvents := [fired (-1), fired (-1)] }

/-- A batch with ids at the end of the range of `int32` that repeats one. -/
def batch : List HistoryEvent := [completed (-1), fired (-1), fired (-2147483648)]

theorem negative_ids_agree :
    addEvents state batch = addEach state batch ∧
      (addEvents state batch).2 = [none, some .duplicateEvent, none] := by
  have hfired {id : ActionID} (hid : IsInt32 id) : (fired id).HasInt32 := by
    rintro k ⟨⟩
    exact hid
  have hcompleted {id : ActionID} (hid : IsInt32 id) : (completed id).HasInt32 := by
    rintro k ⟨⟩
    exact hid
  refine ⟨(batch_and_split_agree (fun e he => ?_) (fun e he => ?_)).1, by decide⟩
  · rcases List.mem_cons.mp he with rfl | he
    · exact hfired ⟨by decide, by decide⟩
    · rw [List.mem_singleton.mp he]
      exact hfired ⟨by decide, by decide⟩
  · rcases List.mem_cons.mp he with rfl | he
    · exact hcompleted ⟨by decide, by decide⟩
    · rcases List.mem_cons.mp he with rfl | he
      · exact hfired ⟨by decide, by decide⟩
      · rw [List.mem_singleton.mp he]
        exact hfired ⟨by decide, by decide⟩

theorem repeated_refined :
    (addEvents { instanceId := "a" } [fired (-1), fired (-1)]).1 =
      WorkflowRuntimeState.addEvents { instanceId := "a" } [fired (-1), fired (-1)] := by
  refine refines_addEvents (fun e he => absurd he List.not_mem_nil) fun e he => ?_
  have he : e = fired (-1) := by simpa using he
  rw [he]
  rintro k ⟨⟩
  exact ⟨by decide, by decide⟩

end DedupExample

end DurableTask
