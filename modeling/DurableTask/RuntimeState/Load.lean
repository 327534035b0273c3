import DurableTask.RuntimeState.Basic

/-!
# What loading a history and adding a batch keep

`addEventWithDedup` rejects a second start, a second completion and a duplicate resolution. `keep` is
what is left of a list of events; a history without such events is loaded as it is.
-/

namespace DurableTask

namespace WorkflowRuntimeState

/-- Whether an event is rejected, when it is known whether there was a start and a completion, and
which resolutions were seen. -/
def rejects (started completed : Bool) (seen : DedupSet) (e : HistoryEvent) : Bool :=
  e.getExecutionStarted.isSome && started || e.getExecutionCompleted.isSome && completed ||
    e.resolution.any (· ∈ seen)

/-- The events that are not rejected. -/
def keep (started completed : Bool) (seen : DedupSet) : List HistoryEvent → List HistoryEvent
  | [] => []
  | e :: es =>
    if rejects started completed seen e then keep started completed seen es
    else e :: keep (started || e.getExecutionStarted.isSome)
      (completed || e.getExecutionCompleted.isSome) (e.resolution.toList ++ seen) es

/-- The list an added event goes to. -/
def events (s : WorkflowRuntimeState) : Bool → List HistoryEvent
  | true => s.newEvents
  | false => s.oldEvents

theorem appendEvent_events (s : WorkflowRuntimeState) (e : HistoryEvent) (isNew : Bool) :
    (s.appendEvent e isNew).events isNew = s.events isNew ++ [e] ∧
      (s.appendEvent e isNew).events (!isNew) = s.events (!isNew) := by
  cases isNew <;> exact ⟨rfl, rfl⟩

theorem noteEvent_resolution {s : WorkflowRuntimeState} {seen : DedupSet} {e : HistoryEvent}
    {k : Kind × ActionID} (hk : e.resolution = some k) :
    s.noteEvent e (some seen) = if k ∈ seen then none else some (s, some (k :: seen)) := by
  rcases e with ⟨id, ts, body, router, row⟩
  cases body <;> cases hk <;> rfl

theorem rejects_resolution {started completed : Bool} {seen : DedupSet} {e : HistoryEvent}
    {k : Kind × ActionID} (hk : e.resolution = some k) :
    rejects started completed seen e = decide (k ∈ seen) := by
  rcases e with ⟨id, ts, body, router, row⟩
  cases body <;> cases hk <;> rfl

/-- One event. -/
theorem addOrDrop_events (isNew : Bool) (s : WorkflowRuntimeState) (seen : DedupSet)
    (e : HistoryEvent) :
    if rejects s.startEvent.isSome s.completedEvent.isSome seen e then
      addOrDrop isNew (s, some seen) e = (s, some seen)
    else
      (addOrDrop isNew (s, some seen) e).1.events isNew = s.events isNew ++ [e] ∧
        (addOrDrop isNew (s, some seen) e).1.events (!isNew) = s.events (!isNew) ∧
        (addOrDrop isNew (s, some seen) e).2 = some (e.resolution.toList ++ seen) := by
  have hq (q : WorkflowRuntimeState × Option DedupSet) (hq : s.noteEvent e (some seen) = some q)
      (hseen : q.2 = some (e.resolution.toList ++ seen)) :
      (addOrDrop isNew (s, some seen) e).1.events isNew = s.events isNew ++ [e] ∧
        (addOrDrop isNew (s, some seen) e).1.events (!isNew) = s.events (!isNew) ∧
        (addOrDrop isNew (s, some seen) e).2 = some (e.resolution.toList ++ seen) := by
    have happ := appendEvent_events q.1 e isNew
    have hsame (isNew : Bool) : q.1.events isNew = s.events isNew := by
      rw [noteEvent_eq hq]
      cases isNew <;> rfl
    rw [hsame, hsame] at happ
    simp only [addOrDrop, addEventWithDedup, hq, Option.map_some, Option.getD_some]
    exact ⟨happ.1, happ.2, hseen⟩
  have hn (hn : s.noteEvent e (some seen) = none) :
      addOrDrop isNew (s, some seen) e = (s, some seen) := by
    simp [addOrDrop, addEventWithDedup, hn]
  cases hk : e.resolution with
  | some k =>
    rw [rejects_resolution hk]
    rw [hk] at hq
    split
    · next h => exact hn ((noteEvent_resolution hk).trans (if_pos (of_decide_eq_true h)))
    · next h =>
      exact hq _ ((noteEvent_resolution hk).trans (if_neg fun hk => h (decide_eq_true hk))) rfl
  | none =>
    rw [hk] at hq
    rcases e with ⟨id, ts, body, router, row⟩
    cases body with
    | executionStarted es =>
      cases hs : s.startEvent with
      | none =>
        rw [if_neg (by simp [rejects, HistoryEvent.getExecutionCompleted, HistoryEvent.resolution])]
        exact hq _ (if_neg (by simp [hs])) rfl
      | some _ =>
        rw [if_pos (by simp [rejects, HistoryEvent.getExecutionStarted])]
        exact hn (by simp [noteEvent, hs])
    | executionCompleted ec =>
      cases hs : s.completedEvent with
      | none =>
        rw [if_neg (by simp [rejects, HistoryEvent.getExecutionStarted, HistoryEvent.resolution])]
        exact hq _ (if_neg (by simp [hs])) rfl
      | some _ =>
        rw [if_pos (by simp [rejects, HistoryEvent.getExecutionCompleted])]
        exact hn (by simp [noteEvent, hs])
    | _ => first | exact hq _ rfl rfl | cases hk

/-- A list of events. -/
theorem foldl_addOrDrop (isNew : Bool) (es : List HistoryEvent) (s : WorkflowRuntimeState)
    (seen : DedupSet) :
    (es.foldl (addOrDrop isNew) (s, some seen)).1.events isNew =
        s.events isNew ++ keep s.startEvent.isSome s.completedEvent.isSome seen es ∧
      (es.foldl (addOrDrop isNew) (s, some seen)).1.events (!isNew) = s.events (!isNew) := by
  induction es generalizing s seen with
  | nil => exact ⟨(List.append_nil _).symm, rfl⟩
  | cons e es ih =>
    rw [List.foldl_cons, keep]
    have hone := addOrDrop_events isNew s seen e
    split at hone
    · next hr =>
      rw [hone, if_pos hr]
      exact ih s seen
    · next hr =>
      obtain ⟨hev, hother, hseen⟩ := hone
      have hstart := addOrDrop_startEvent isNew (s, some seen) e
      have hcompleted := addOrDrop_completedEvent isNew (s, some seen) e
      rw [if_neg hr]
      generalize addOrDrop isNew (s, some seen) e = q at *
      rcases q with ⟨s', seen'⟩
      cases hseen
      obtain ⟨ih₁, ih₂⟩ := ih s' (e.resolution.toList ++ seen)
      refine ⟨?_, ih₂.trans hother⟩
      rw [ih₁, hev, hstart, hcompleted, List.append_assoc, Option.isSome_or, Option.isSome_or]
      rfl

/-! ### What is kept -/

theorem keep_sublist (started completed : Bool) (seen : DedupSet) (es : List HistoryEvent) :
    (keep started completed seen es).Sublist es := by
  induction es generalizing started completed seen with
  | nil => exact .slnil
  | cons e es ih =>
    rw [keep]
    split
    · exact (ih _ _ _).cons _
    · exact (ih _ _ _).cons_cons _

/-- An event that starts, completes and resolves nothing is kept. -/
theorem mem_keep {es : List HistoryEvent} {e : HistoryEvent} (started completed : Bool)
    (seen : DedupSet) (he : e ∈ es) (hs : e.getExecutionStarted = none)
    (hc : e.getExecutionCompleted = none) (hr : e.resolution = none) :
    e ∈ keep started completed seen es := by
  induction es generalizing started completed seen with
  | nil => exact absurd he List.not_mem_nil
  | cons e' es ih =>
    rw [keep]
    rcases List.mem_cons.mp he with rfl | he
    · rw [if_neg (by simp [rejects, hs, hc, hr])]
      exact List.mem_cons_self
    · split
      · exact ih _ _ _ he
      · exact List.mem_cons_of_mem _ (ih _ _ _ he)

/-- The first event of a history is kept. -/
theorem keep_eq_nil_iff {es : List HistoryEvent} : keep false false [] es = [] ↔ es = [] := by
  cases es with
  | nil => exact Iff.rfl
  | cons e es =>
    rw [keep, if_neg (by cases h : e.resolution <;> simp [rejects, h])]
    exact ⟨fun h => absurd h (List.cons_ne_nil _ _), fun h => absurd h (List.cons_ne_nil _ _)⟩

/-- The kept resolutions are new, and there is one for each key. -/
theorem keep_resolutions (started completed : Bool) (seen : DedupSet) (es : List HistoryEvent) :
    ((keep started completed seen es).filterMap HistoryEvent.resolution).Nodup ∧
      ∀ k ∈ (keep started completed seen es).filterMap HistoryEvent.resolution, k ∉ seen := by
  induction es generalizing started completed seen with
  | nil => exact ⟨List.nodup_nil, fun _ h => absurd h List.not_mem_nil⟩
  | cons e es ih =>
    rw [keep]
    split
    · exact ih _ _ _
    · next hr =>
      obtain ⟨hnodup, hnew⟩ := ih (started || e.getExecutionStarted.isSome)
        (completed || e.getExecutionCompleted.isSome) (e.resolution.toList ++ seen)
      cases he : e.resolution with
      | none =>
        rw [List.filterMap_cons_none he]
        rw [he] at hnodup hnew
        exact ⟨hnodup, hnew⟩
      | some k =>
        rw [List.filterMap_cons_some he]
        rw [he] at hnodup hnew
        have hk : k ∉ seen := by
          intro hk
          exact hr (by simp [rejects, he, hk])
        refine ⟨List.nodup_cons.mpr ⟨fun hmem => ?_, hnodup⟩, ?_⟩
        · exact hnew k hmem (List.mem_cons_self)
        · rintro k' (_ | ⟨_, hk'⟩)
          · exact hk
          · exact fun hmem => hnew k' hk' (List.mem_cons_of_mem _ hmem)

/-- A history with one start, one completion and one resolution for each key is kept. -/
theorem keep_eq_self {started completed : Bool} {seen : DedupSet} {es : List HistoryEvent}
    (hs : (es.filterMap HistoryEvent.getExecutionStarted).length + started.toNat ≤ 1)
    (hc : (es.filterMap HistoryEvent.getExecutionCompleted).length + completed.toNat ≤ 1)
    (hr : (es.filterMap HistoryEvent.resolution).Nodup)
    (hd : ∀ k ∈ es.filterMap HistoryEvent.resolution, k ∉ seen) :
    keep started completed seen es = es := by
  induction es generalizing started completed seen with
  | nil => rfl
  | cons e es ih =>
    have hlen {α : Type} (f : HistoryEvent → Option α) (b : Bool)
        (h : ((e :: es).filterMap f).length + b.toNat ≤ 1) :
        ¬((f e).isSome = true ∧ b = true) ∧ (es.filterMap f).length + (b || (f e).isSome).toNat ≤ 1 := by
      cases hf : f e with
      | none =>
        rw [List.filterMap_cons_none hf] at h
        simpa using h
      | some y =>
        rw [List.filterMap_cons_some hf, List.length_cons] at h
        cases b <;> simp at h ⊢ <;> omega
    obtain ⟨hs₁, hs₂⟩ := hlen _ _ hs
    obtain ⟨hc₁, hc₂⟩ := hlen _ _ hc
    have hreject : rejects started completed seen e = false := by
      have hres : e.resolution.any (· ∈ seen) = false := by
        cases he : e.resolution with
        | none => rfl
        | some k =>
          have := hd k (by rw [List.filterMap_cons_some he]; exact List.mem_cons_self)
          simpa using this
      simp only [rejects, hres, Bool.or_false, Bool.or_eq_false_iff, Bool.and_eq_false_iff]
      constructor
      · cases h : e.getExecutionStarted.isSome <;> simp_all
      · cases h : e.getExecutionCompleted.isSome <;> simp_all
    rw [keep, if_neg (by simp [hreject])]
    cases he : e.resolution with
    | none =>
      rw [List.filterMap_cons_none he] at hr hd
      exact congrArg (e :: ·) (ih hs₂ hc₂ hr hd)
    | some k =>
      rw [List.filterMap_cons_some he] at hr hd
      obtain ⟨hk, hr⟩ := List.nodup_cons.mp hr
      rw [ih hs₂ hc₂ hr]
      intro k' hk' hmem
      rcases List.mem_cons.mp hmem with rfl | hmem
      · exact hk hk'
      · exact hd k' (List.mem_cons_of_mem _ hk') hmem

/-! ### Loading, and adding a batch -/

/-- What a list of events leaves alone, and the start and completion it brings. -/
theorem foldl_addOrDrop_frame (isNew : Bool) (es : List HistoryEvent)
    (p : WorkflowRuntimeState × Option DedupSet) :
    (es.foldl (addOrDrop isNew) p).1.outbox = p.1.outbox ∧
      (es.foldl (addOrDrop isNew) p).1.startEvent =
        p.1.startEvent.or (es.findSome? HistoryEvent.getExecutionStarted) ∧
      (es.foldl (addOrDrop isNew) p).1.completedEvent =
        p.1.completedEvent.or (es.findSome? HistoryEvent.getExecutionCompleted) := by
  induction es generalizing p with
  | nil => exact ⟨rfl, (Option.or_none).symm, (Option.or_none).symm⟩
  | cons e es ih =>
    obtain ⟨ho, hs, hc⟩ := ih (addOrDrop isNew p e)
    have hfind {α : Type} (f : HistoryEvent → Option α) (x : Option α) :
        (x.or (f e)).or (es.findSome? f) = x.or ((e :: es).findSome? f) := by
      rw [Option.or_assoc, List.findSome?_cons]
      cases f e <;> rfl
    rw [List.foldl_cons]
    refine ⟨ho.trans (addOrDrop_outbox ..), ?_, ?_⟩
    · rw [hs, addOrDrop_startEvent, hfind]
    · rw [hc, addOrDrop_completedEvent, hfind]

section New

variable (id : InstanceID) (customStatus : Option String) (h : List HistoryEvent)

theorem new_events : (new id customStatus h).oldEvents = keep false false [] h ∧
    (new id customStatus h).newEvents = [] :=
  foldl_addOrDrop false h { instanceId := id, customStatus := customStatus } []

theorem new_frame : (new id customStatus h).pendingTasks = [] ∧
    (new id customStatus h).pendingTimers = [] ∧ (new id customStatus h).pendingMessages = [] ∧
    (new id customStatus h).startEvent = h.findSome? HistoryEvent.getExecutionStarted ∧
    (new id customStatus h).completedEvent = h.findSome? HistoryEvent.getExecutionCompleted := by
  obtain ⟨ho, hs, hc⟩ := foldl_addOrDrop_frame false h
    ({ instanceId := id, customStatus := customStatus }, some [])
  exact ⟨congrArg (·.2.1) ho, congrArg (·.2.2.1) ho, congrArg (·.2.2.2.1) ho, hs, hc⟩

theorem new_instanceId : (new id customStatus h).instanceId = id :=
  congrArg (·.1) (foldl_addOrDrop_frame false h
    ({ instanceId := id, customStatus := customStatus }, some [])).1

end New

theorem addEvents_events (s : WorkflowRuntimeState) (es : List HistoryEvent) :
    (s.addEvents es).newEvents =
        s.newEvents ++ keep s.startEvent.isSome s.completedEvent.isSome (DedupSet.newForState s) es ∧
      (s.addEvents es).oldEvents = s.oldEvents :=
  foldl_addOrDrop true es s (DedupSet.newForState s)

theorem addEvents_frame (s : WorkflowRuntimeState) (es : List HistoryEvent) :
    (s.addEvents es).outbox = s.outbox ∧
      (s.addEvents es).startEvent =
        s.startEvent.or (es.findSome? HistoryEvent.getExecutionStarted) ∧
      (s.addEvents es).completedEvent =
        s.completedEvent.or (es.findSome? HistoryEvent.getExecutionCompleted) :=
  foldl_addOrDrop_frame true es (s, some (DedupSet.newForState s))

/-- An event that is neither a start nor a resolution, and no second completion, is added. -/
theorem addEvent_events (s : WorkflowRuntimeState) {e : HistoryEvent}
    (hs : e.getExecutionStarted = none) (hr : e.resolution = none)
    (hc : s.completedEvent = none ∨ e.getExecutionCompleted = none) :
    (s.addEvent e).newEvents = s.newEvents ++ [e] ∧ (s.addEvent e).oldEvents = s.oldEvents := by
  have hacc : ∃ q, s.noteEvent e none = some q := by
    rcases e with ⟨id, ts, body, router, row⟩
    cases body with
    | executionStarted => cases hs
    | executionCompleted ec =>
      have hc : s.completedEvent = none := hc.resolve_right nofun
      exact ⟨_, if_neg (by simp [hc])⟩
    | _ => first | exact ⟨_, rfl⟩ | cases hr
  obtain ⟨q, hq⟩ := hacc
  have happ := appendEvent_events q.1 e true
  have hold : q.1.oldEvents = s.oldEvents := by rw [noteEvent_eq hq]
  have hnew : q.1.newEvents = s.newEvents := by rw [noteEvent_eq hq]
  have heq : s.addEvent e = q.1.appendEvent e true := by
    simp [addEvent, addOrDrop, addEventWithDedup, hq]
  rw [heq, ← hold, ← hnew]
  exact happ

end WorkflowRuntimeState

/-- A history that is loaded as it is. -/
structure Loadable (h : List HistoryEvent) : Prop where
  started : (h.filterMap HistoryEvent.getExecutionStarted).length ≤ 1
  completed : (h.filterMap HistoryEvent.getExecutionCompleted).length ≤ 1
  nodup : (h.filterMap HistoryEvent.resolution).Nodup

theorem Loadable.keep_eq {h : List HistoryEvent} (hh : Loadable h) :
    WorkflowRuntimeState.keep false false [] h = h :=
  WorkflowRuntimeState.keep_eq_self (by simpa using hh.started) (by simpa using hh.completed)
    hh.nodup fun _ _ => List.not_mem_nil

end DurableTask
