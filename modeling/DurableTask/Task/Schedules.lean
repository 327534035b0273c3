import DurableTask.RuntimeState.Scheduling
import DurableTask.Task.Batch

/-!
# Recorded schedules

At the end of a turn the history has the scheduling events of its actions. A replay that comes to
them has the same actions pending, so each event finds its action: the workflow stays where it is and
the recorded work only waits for its resolutions.
-/

namespace DurableTask.Task

/-- Entries before which no optional timer is dropped. -/
def Entry.isStrict : Entry → Bool
  | .work _ optional _ => optional
  | .detached _ => true
  | _ => false

/-- `events` record the pending entries `es` in order, from id `b` on, without the optional timers the
recording release did not have; what is left is pending from id `b'` on. -/
inductive Records : ActionID → List Entry → List (ActionID × PendingTask) → List HistoryEvent →
    ActionID → List Entry → List (ActionID × PendingTask) → Prop
  | nil (b : ActionID) (es : List Entry) (T : List (ActionID × PendingTask)) :
    Records b es T [] b es T
  | cons {b b' : ActionID} {os es es' : List Entry} {x : Entry}
    {T T' : List (ActionID × PendingTask)} {e : HistoryEvent} {events : List HistoryEvent}
    (optional : ∀ o ∈ os, o.isOptional = true) (id : e.eventId = b)
    (recorded : x.recordedBy e.eventType = true) (strict : x.isStrict = true → os = [])
    (rest : Records (b + 1) es (T ++ (Entry.pendingTask (b, x)).toList) events b' es' T') :
    Records b (os ++ x :: es) T (e :: events) b' es' T'

theorem PendingAction.recordedBy_entry {a : PendingAction} {e : EventType}
    (h : a.action.actionType.recordedBy e = true) (hne : a.entry ≠ .other) :
    a.entry.recordedBy e = true := by
  rcases a with ⟨⟨id, actionType, router⟩, task⟩
  cases actionType with
  | scheduleTask st =>
    cases e <;> cases h
    cases task with
    | none => exact absurd rfl hne
    | some t => rfl
  | createChildWorkflow c =>
    cases e <;> cases h
    cases task with
    | none => exact absurd rfl hne
    | some t => rfl
  | createTimer tm =>
    cases e <;> try cases h
    next tc =>
    obtain ⟨hfire, horigin⟩ : tc.fireAt = tm.fireAt ∧ tc.origin = tm.origin := by
      simpa [WorkflowActionType.recordedBy] using h
    cases task with
    | none => exact absurd rfl hne
    | some t =>
      simp [PendingAction.entry, Entry.recordedBy, isOptionalExternalEventTimerCreatedEvent, hfire,
        horigin]
  | createDetachedWorkflow d =>
    cases e <;> try cases h
    next instanceId =>
    have hid : instanceId = d.instanceId := by simpa [WorkflowActionType.recordedBy] using h
    cases task with
    | none => simp [PendingAction.entry, Entry.recordedBy, hid]
    | some t => exact absurd rfl hne
  | _ => cases e <;> cases h

/-- The scheduling events of all pending actions record all entries. -/
theorem records_of_actions {L : List (ActionID × PendingAction)} {b : ActionID} {es : List Entry}
    {T : List (ActionID × PendingTask)} {added : List HistoryEvent}
    (hL : L.map (fun x => (x.1, x.2.entry)) = Number.number b es)
    (hids : ∀ x ∈ L, x.2.action.id = x.1) (hne : ∀ x ∈ es, x ≠ .other)
    (hrec : List.Forall₂ (fun (action : WorkflowAction) (e : HistoryEvent) =>
      e.eventId = action.id ∧ action.actionType.recordedBy e.eventType = true)
      (L.map fun x => x.2.action) added) :
    Records b es T added (b + es.length) []
      (T ++ (Number.number b es).filterMap Entry.pendingTask) := by
  induction es generalizing L b T added with
  | nil =>
    cases List.map_eq_nil_iff.mp hL
    cases hrec
    have hb : b + (([] : List Entry).length : Int) = b := by simp
    rw [hb, Number.number, List.filterMap_nil, List.append_nil]
    exact .nil b [] T
  | cons x es ih =>
    cases L with
    | nil => cases hL
    | cons y L =>
      obtain ⟨hy, hL⟩ := List.cons.inj hL
      obtain ⟨hkey, hentry⟩ := Prod.mk.inj hy
      cases hrec with
      | cons he hrest =>
        next e added =>
        have hrec := PendingAction.recordedBy_entry he.2
          (by rw [hentry]; exact hne x List.mem_cons_self)
        have hid : e.eventId = b := by
          rw [he.1, hids y List.mem_cons_self, hkey]
        have hind := ih (T := T ++ (Entry.pendingTask (b, x)).toList) hL
          (fun z hz => hids z (List.mem_cons_of_mem _ hz))
          (fun z hz => hne z (List.mem_cons_of_mem _ hz)) hrest
        have hlen : b + ((x :: es).length : Int) = b + 1 + es.length := by
          rw [List.length_cons]
          unfold ActionID at *
          omega
        have htasks : T ++ (Number.number b (x :: es)).filterMap Entry.pendingTask =
            T ++ (Entry.pendingTask (b, x)).toList ++
              (Number.number (b + 1) es).filterMap Entry.pendingTask := by
          rw [Number.number]
          cases h : Entry.pendingTask (b, x) <;> simp [h]
        rw [hlen, htasks]
        exact .cons (fun o (ho : o ∈ []) => absurd ho List.not_mem_nil) hid (hentry ▸ hrec)
          (fun _ => rfl) hind

namespace Machine

variable {σ : Type} {sdk : Sdk σ} {m m' m'' : Machine σ} {b b' : ActionID} {os es es' : List Entry}
  {x : Entry} {T T' : List (ActionID × PendingTask)}

/-- The workflow has not moved. -/
structure Unmoved (m m' : Machine σ) : Prop where
  core : m'.ctx.core = m.ctx.core
  allocated : m'.ctx.pend.allocated = m.ctx.pend.allocated
  control : m'.control = .loop
  stack : m'.stack = m.stack
  trace : m'.trace = m.trace
  errors : m'.errors = m.errors
  events : m'.hist.events = m.hist.events
  suspendedEvents : m'.hist.suspendedEvents = m.hist.suspendedEvents
  historyPatches : m'.hist.historyPatches = m.hist.historyPatches

namespace Unmoved

theorem refl (h : m.control = .loop) : Unmoved m m := ⟨rfl, rfl, h, rfl, rfl, rfl, rfl, rfl, rfl⟩

theorem trans (h : Unmoved m m') (h' : Unmoved m' m'') : Unmoved m m'' :=
  ⟨h'.core.trans h.core, h'.allocated.trans h.allocated, h'.control, h'.stack.trans h.stack,
    h'.trace.trans h.trace, h'.errors.trans h.errors, h'.events.trans h.events,
    h'.suspendedEvents.trans h.suspendedEvents, h'.historyPatches.trans h.historyPatches⟩

theorem waits (h : Unmoved m m') (hw : m.Waits) : m'.Waits := by
  refine ⟨h.control, ?_⟩
  rw [h.stack, h.core]
  exact hw.2

end Unmoved

/-- The scheduling event of the first pending action. -/
theorem dispatch_schedule (sdk : Sdk σ) {e : HistoryEvent} (hn : Numbered m.ctx.pend b (os ++ x :: es) T)
    (hos : ∀ o ∈ os, o.isOptional = true) (hid : e.eventId = b)
    (hrec : x.recordedBy e.eventType = true) (hstrict : x.isStrict = true → os = []) :
    ∃ c', dispatch sdk m e = { m with ctx := c', control := .loop } ∧
      Ctx.Recorded m.ctx c' b x es T := by
  subst hid
  rcases e with ⟨eventId, timestamp, body, router, row⟩
  cases body with
  | taskScheduled ts =>
    rcases x with ⟨_ | _ | _, _ | _, t⟩ | _ | _ | _ <;> cases hrec
    obtain ⟨c', hc', hrec'⟩ := Ctx.onTaskScheduled_of_numbered hn hos ts
    exact ⟨c', congrArg m.handle hc', hrec'⟩
  | childWorkflowInstanceCreated ts =>
    rcases x with ⟨_ | _ | _, _ | _, t⟩ | _ | _ | _ <;> cases hrec
    obtain ⟨c', hc', hrec'⟩ := Ctx.onChildWorkflowScheduled_of_numbered hn hos ts
    exact ⟨c', congrArg m.handle hc', hrec'⟩
  | timerCreated tc =>
    rcases x with ⟨_ | _ | _, optional, t⟩ | _ | _ | _ <;> try cases hrec
    have hopt : isOptionalExternalEventTimerCreatedEvent tc = optional := by
      simpa [Entry.recordedBy] using hrec
    subst hopt
    obtain ⟨c', hc', hrec'⟩ := Ctx.onTimerCreated_of_numbered hn hos hstrict
    exact ⟨c', congrArg m.handle hc', hrec'⟩
  | detachedWorkflowInstanceCreated instanceId =>
    rcases x with ⟨_ | _ | _, _, t⟩ | instanceId' | _ | _ <;> try cases hrec
    have hid : instanceId = instanceId' := by simpa [Entry.recordedBy] using hrec
    subst hid
    rw [hstrict rfl] at hn
    obtain ⟨c', hc', hrec'⟩ := Ctx.onDetachedWorkflowCreated_of_numbered hn
    exact ⟨c', congrArg m.handle hc', hrec'⟩
  | _ => cases hrec

/-- A replay takes the scheduling events of a turn. -/
theorem reaches_schedules (sdk : Sdk σ) {events rest : List HistoryEvent} (h : Records b es T events b' es' T')
    (hw : m.Waits) (ht : m.ctx.core.isTerminated = false) (hs : m.ctx.core.isSuspended = false)
    (hn : Numbered m.ctx.pend b es T)
    (hev : m.hist.events.drop m.hist.historyIndex = events ++ rest) :
    ∃ m', Transition.Reaches (step sdk) m m' ∧ Unmoved m m' ∧
      m'.hist.historyIndex = m.hist.historyIndex + events.length ∧
      Numbered m'.ctx.pend b' es' T' := by
  induction h generalizing m with
  | nil b es T => exact ⟨m, .refl m, .refl hw.1, rfl, hn⟩
  | cons optional id recorded strict _ ih =>
    next e events _ =>
    have he : m.hist.events[m.hist.historyIndex]? = some e := by
      rw [← List.head?_drop, hev]
      rfl
    obtain ⟨c', hdisp, hrec⟩ := dispatch_schedule sdk
      (m := { m with hist := m.hist.taken, handled := m.handled ++ [m.hist.historyIndex] })
      hn optional id recorded strict
    have hstep := step_dispatch sdk hw he ht (.inl hs)
    rw [hdisp] at hstep
    have hone : Unmoved m { m with
        hist := m.hist.taken
        handled := m.handled ++ [m.hist.historyIndex]
        ctx := c'
        control := .loop } :=
      ⟨hrec.core, hrec.allocated, rfl, rfl, rfl, rfl, rfl, rfl, rfl⟩
    have hdrop : m.hist.events.drop (m.hist.historyIndex + 1) = events ++ rest := by
      rw [← List.tail_drop, hev]
      rfl
    obtain ⟨m', hreach, hun, hidx, hnum⟩ := ih (hone.waits hw) ((congrArg _ hrec.core).trans ht)
      ((congrArg _ hrec.core).trans hs) hrec.numbered hdrop
    refine ⟨m', hreach.head hstep, hone.trans hun, hidx.trans ?_, hnum⟩
    rw [List.length_cons]
    exact Nat.add_right_comm _ 1 _

end Machine

end DurableTask.Task
