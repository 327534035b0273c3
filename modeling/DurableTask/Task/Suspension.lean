import DurableTask.Task.WellFormed

/-!
# Suspension

`onExecutionResumed` goes through the events buffered during suspension while `processEvent` may
append to the same buffer, and clears it at the end. `Susp` is the intended behaviour: an event is
handled at once or, during suspension, buffered and handled when the workflow is resumed. The two
agree as long as no buffer that is drained contains a further suspension, or the start of the
workflow before its last event (`Susp.ok`); otherwise events are lost.
-/

namespace DurableTask.Task

/-! ### Workflow code -/

theorem Ctx.Evolves.suspension {h : Hist} {c c' : Ctx} (hc : Ctx.Evolves h c c') :
    c'.core.suspension = c.core.suspension := by
  induction hc with
  | refl => rfl
  | trans _ _ ih ih' => exact ih'.trans ih
  | core c core hcore => exact Core.suspension_of_flags hcore
  | patch => rfl
  | ident => rfl
  | register c actionType router kind => exact Core.suspension_of_flags (Ctx.flags_register ..)
  | addAction => rfl
  | retryTimer c name delay i executionID => exact Core.suspension_of_flags (Ctx.flags_register ..)

/-! ### The events about suspension -/

def isSuspend (e : HistoryEvent) : Bool :=
  match e.eventType with
  | .executionSuspended _ => true
  | _ => false

def isResume (e : HistoryEvent) : Bool :=
  match e.eventType with
  | .executionResumed _ => true
  | _ => false

def isTerminate (e : HistoryEvent) : Bool :=
  match e.eventType with
  | .executionTerminated _ => true
  | _ => false

def isStart (e : HistoryEvent) : Bool :=
  match e.eventType with
  | .executionStarted _ => true
  | _ => false

theorem suspendedAfter_eq (b : Bool) (e : HistoryEvent) :
    WorkflowRuntimeState.suspendedAfter b e = if isResume e then false else b || isSuspend e := by
  unfold WorkflowRuntimeState.suspendedAfter isResume isSuspend
  split <;> simp_all

/-- Events in arrival order: an event is handled, or buffered in the current segment until the
workflow is resumed. -/
structure Susp where
  suspended : Bool := false
  segment : List (Nat × HistoryEvent) := []
  handled : List Nat := []
  buffered : List Nat := []
  /-- Whether the workflow was started from a buffer; `onExecutionResumed` then clears the buffer only
  when the workflow function returns. -/
  stale : Bool := false
  ok : Bool := true
deriving DecidableEq

namespace Susp

/-- Buffers that `onExecutionResumed` drains as it should: no further suspension in it, and the start
of the workflow only at its end. -/
def drainable (segment : List (Nat × HistoryEvent)) : Bool :=
  segment.all (!isSuspend ·.2) && segment.dropLast.all (!isStart ·.2)

def next (a : Susp) (e : Nat × HistoryEvent) : Susp :=
  if isResume e.2 then
    { a with
      suspended := false
      segment := []
      handled := a.handled ++ e.1 :: a.segment.map Prod.fst
      stale := a.stale || a.segment.any (isStart ·.2)
      ok := a.ok && !a.stale && drainable a.segment }
  else if a.suspended then
    { a with segment := a.segment ++ [e], buffered := a.buffered ++ [e.1] }
  else { a with suspended := isSuspend e.2, handled := a.handled ++ [e.1] }

/-- After the first `n` of the events. -/
def after (events : List HistoryEvent) : Nat → Susp
  | 0 => {}
  | n + 1 =>
    match events[n]? with
    | some e => (after events n).next (n, e)
    | none => after events n

/-- After all events. -/
def of (events : List HistoryEvent) : Susp := after events events.length

theorem after_succ {events : List HistoryEvent} {n : Nat} {e : HistoryEvent}
    (h : events[n]? = some e) : after events (n + 1) = (after events n).next (n, e) := by
  simp only [after, h]

theorem after_of_length_le {events : List HistoryEvent} {n : Nat} (h : events.length ≤ n) :
    after events n = of events := by
  induction n, h using Nat.le_induction with
  | base => rfl
  | succ n hn ih =>
    have hnone : events[n]? = none := List.getElem?_eq_none hn
    simp only [after, hnone, ih]

theorem ok_of_next {a : Susp} {e : Nat × HistoryEvent} (h : (a.next e).ok = true) : a.ok = true := by
  unfold next at h
  split at h
  · simp only [Bool.and_eq_true] at h
    exact h.1.1
  · split at h <;> exact h

theorem ok_of_le {events : List HistoryEvent} {m n : Nat} (hmn : m ≤ n)
    (h : (after events n).ok = true) : (after events m).ok = true := by
  induction n, hmn using Nat.le_induction with
  | base => exact h
  | succ n hmn ih =>
    apply ih
    unfold after at h
    split at h
    · exact ok_of_next h
    · exact h

theorem next_suspended (a : Susp) (e : Nat × HistoryEvent) :
    (a.next e).suspended = WorkflowRuntimeState.suspendedAfter a.suspended e.2 := by
  rw [suspendedAfter_eq]
  unfold next
  split
  · rfl
  · split <;> simp_all

theorem after_suspended (events : List HistoryEvent) (n : Nat) :
    (after events n).suspended =
      (events.take n).foldl WorkflowRuntimeState.suspendedAfter false := by
  induction n with
  | zero => rfl
  | succ n ih =>
    unfold after
    rw [List.take_add_one]
    split
    · next e he => rw [next_suspended, ih, he, Option.toList_some, List.foldl_concat]
    · next he => rw [he, ih, Option.toList_none, List.append_nil]

/-- What holds after `n` events, whatever they are. -/
structure Sound (a : Susp) (n : Nat) : Prop where
  segment : a.suspended = false → a.segment = []
  notResume : ∀ e ∈ a.segment, isResume e.2 = false
  handled_lt : ∀ i ∈ a.handled, i < n
  buffered_lt : ∀ i ∈ a.buffered, i < n
  sorted : a.buffered.Pairwise (· < ·)
  /-- The buffered events that were handled, and the current segment. -/
  split : a.handled.filter (· ∈ a.buffered) ++ a.segment.map Prod.fst = a.buffered

theorem sound_next {a : Susp} {n : Nat} (h : a.Sound n) (e : HistoryEvent) :
    (a.next (n, e)).Sound (n + 1) := by
  have hlt : ∀ i ∈ a.handled, i < n + 1 := fun i hi => Nat.lt_succ_of_lt (h.handled_lt i hi)
  have hblt : ∀ i ∈ a.buffered, i < n + 1 := fun i hi => Nat.lt_succ_of_lt (h.buffered_lt i hi)
  have hn : n ∉ a.buffered := fun hi => Nat.lt_irrefl n (h.buffered_lt n hi)
  have hseg : ∀ i ∈ a.segment.map Prod.fst, i ∈ a.buffered := by
    intro i hi
    rw [← h.split]
    exact List.mem_append_right _ hi
  unfold next
  split
  · refine ⟨fun _ => rfl, fun _ hx => absurd hx List.not_mem_nil, ?_, hblt, h.sorted, ?_⟩
    · intro i hi
      rcases List.mem_append.mp hi with hi | hi
      · exact hlt i hi
      · rcases List.mem_cons.mp hi with rfl | hi
        · exact Nat.lt_succ_self _
        · exact hblt i (hseg i hi)
    · have hfilter : (a.segment.map Prod.fst).filter (· ∈ a.buffered) = a.segment.map Prod.fst :=
        List.filter_eq_self.mpr fun i hi => decide_eq_true (hseg i hi)
      rw [List.filter_append, List.filter_cons_of_neg (by simpa using hn), hfilter]
      simpa using h.split
  · next hr =>
    split
    · next hs =>
      refine ⟨fun hf => absurd hs (by simp [show a.suspended = false from hf]), ?_, hlt, ?_, ?_, ?_⟩
      · intro x hx
        rcases List.mem_append.mp hx with hx | hx
        · exact h.notResume x hx
        · rw [List.mem_singleton.mp hx]
          simpa using hr
      · intro i hi
        rcases List.mem_append.mp hi with hi | hi
        · exact hblt i hi
        · rw [List.mem_singleton.mp hi]
          exact Nat.lt_succ_self _
      · refine List.pairwise_append.mpr ⟨h.sorted, List.pairwise_singleton _ _, ?_⟩
        intro i hi j hj
        rw [List.mem_singleton.mp hj]
        exact h.buffered_lt i hi
      · have hsame : a.handled.filter (· ∈ a.buffered ++ [n]) = a.handled.filter (· ∈ a.buffered) := by
          refine List.filter_congr fun i hi => ?_
          have hne : i ≠ n := Nat.ne_of_lt (h.handled_lt i hi)
          simp [hne]
        dsimp only
        rw [hsame, List.map_append, ← List.append_assoc, h.split]
        rfl
    · next hs =>
      refine ⟨?_, h.notResume, ?_, hblt, h.sorted, ?_⟩
      · intro _
        exact h.segment (by simpa using hs)
      · intro i hi
        rcases List.mem_append.mp hi with hi | hi
        · exact hlt i hi
        · rw [List.mem_singleton.mp hi]
          exact Nat.lt_succ_self _
      · dsimp only
        rw [List.filter_append, List.filter_cons_of_neg (by simpa using hn), List.filter_nil,
          List.append_nil]
        exact h.split

theorem segment_after (events : List HistoryEvent) (n : Nat) :
    ∀ e ∈ (after events n).segment, e.2 ∈ events := by
  induction n with
  | zero => exact fun _ hx => absurd hx List.not_mem_nil
  | succ n ih =>
    unfold after
    split
    · next e he =>
      unfold next
      split
      · exact fun _ hx => absurd hx List.not_mem_nil
      · split
        · intro x hx
          rcases List.mem_append.mp hx with hx | hx
          · exact ih x hx
          · rw [List.mem_singleton.mp hx]
            exact List.mem_of_getElem? he
        · exact ih
    · exact ih

theorem sound_after (events : List HistoryEvent) (n : Nat) : (after events n).Sound n := by
  induction n with
  | zero =>
    have hnil : ∀ i ∈ ([] : List Nat), i < 0 := fun _ hi => absurd hi List.not_mem_nil
    exact ⟨fun _ => rfl, fun _ hx => absurd hx List.not_mem_nil, hnil, hnil, .nil, rfl⟩
  | succ n ih =>
    unfold after
    split
    · exact sound_next ih _
    · exact ⟨ih.segment, ih.notResume, fun i hi => Nat.lt_succ_of_lt (ih.handled_lt i hi),
        fun i hi => Nat.lt_succ_of_lt (ih.buffered_lt i hi), ih.sorted, ih.split⟩

end Susp

/-! ### Handling an event -/

namespace Machine

variable {σ : Type} {sdk : Sdk σ} {m m' : Machine σ}

/-- What handling an event does that is not about suspension or termination. -/
structure Plain (m m' : Machine σ) : Prop where
  events : m'.hist.events = m.hist.events
  historyIndex : m'.hist.historyIndex = m.hist.historyIndex
  suspendedEvents : m'.hist.suspendedEvents = m.hist.suspendedEvents
  flags : m'.ctx.core.flags = m.ctx.core.flags
  stack : m'.stack = m.stack
  handled : m'.handled = m.handled
  buffered : m'.buffered = m.buffered

theorem raise_errors (m : Machine σ) (err : ProcessError) : (m.raise err).errors ≠ [] := by
  simp [raise]

theorem plain_handle {r : Except ProcessError Ctx}
    (hr : ∀ c, r = .ok c → c.core.flags = m.ctx.core.flags) : Plain m (m.handle r) := by
  cases r with
  | ok c => exact ⟨rfl, rfl, rfl, hr c rfl, rfl, rfl, rfl⟩
  | error err => exact ⟨rfl, rfl, rfl, rfl, rfl, rfl, rfl⟩

theorem plain_onExecutionStarted (m : Machine σ) (es : ExecutionStartedEvent) :
    Plain m (m.onExecutionStarted sdk es) := by
  unfold onExecutionStarted
  split <;> exact ⟨rfl, rfl, rfl, rfl, rfl, rfl, rfl⟩

theorem plain_dispatch (sdk : Sdk σ) (m : Machine σ) {e : HistoryEvent} (hs : isSuspend e = false)
    (hr : isResume e = false) (ht : isTerminate e = false) : Plain m (dispatch sdk m e) := by
  have hok {c' : Ctx} (h : c'.core.flags = m.ctx.core.flags) :
      ∀ c, (Except.ok c' : Except ProcessError Ctx) = .ok c → c.core.flags = m.ctx.core.flags := by
    rintro c ⟨⟩
    exact h
  rcases e with ⟨eventId, timestamp, body, router, row⟩
  cases body with
  | executionStarted es => exact plain_onExecutionStarted m es
  | taskScheduled ts => exact plain_handle fun c h => Core.flags_of_frame (Ctx.frame_onTaskScheduled h)
  | childWorkflowInstanceCreated ts =>
    exact plain_handle fun c h => Core.flags_of_frame (Ctx.frame_onChildWorkflowScheduled h)
  | detachedWorkflowInstanceCreated instanceId =>
    exact plain_handle fun c h => Core.flags_of_frame (Ctx.frame_onDetachedWorkflowCreated h)
  | timerCreated tc => exact plain_handle fun c h => Core.flags_of_frame (Ctx.frame_onTimerCreated h)
  | taskCompleted | taskFailed | childWorkflowInstanceCompleted | childWorkflowInstanceFailed
  | timerFired => exact plain_handle (hok (Core.flags_of_frame (Ctx.frame_onResolution ..)))
  | eventRaised er => exact plain_handle (hok (Core.flags_of_frame (frame_onExternalEventRaised ..)))
  | executionSuspended => cases hs
  | executionResumed => cases hr
  | executionTerminated => cases ht
  | workflowStarted | executionStalled | workflowCompleted | executionCompleted | eventSent
  | continueAsNew => exact ⟨rfl, rfl, rfl, rfl, rfl, rfl, rfl⟩

/-- Only the start of a workflow runs workflow code. -/
theorem control_dispatch {e : HistoryEvent} (hstart : isStart e = false)
    (herr : (dispatch sdk m e).errors = []) : (dispatch sdk m e).control = .loop := by
  have hhandle {r : Except ProcessError Ctx} (h : (m.handle r).errors = []) :
      (m.handle r).control = .loop := by
    cases r with
    | ok c => rfl
    | error err => exact absurd h (raise_errors m err)
  rcases e with ⟨eventId, timestamp, body, router, row⟩
  cases body with
  | executionStarted es => cases hstart
  | executionCompleted | eventSent | continueAsNew => exact absurd herr (raise_errors m _)
  | workflowStarted | executionResumed | executionStalled | workflowCompleted => rfl
  | _ => exact hhandle herr

theorem errors_dispatch {e : HistoryEvent} (herr : (dispatch sdk m e).errors = []) :
    m.errors = [] := by
  have hraise {err : ProcessError} (h : (m.raise err).errors = []) : m.errors = [] :=
    (List.append_eq_nil_iff.mp h).1
  have hhandle {r : Except ProcessError Ctx} (h : (m.handle r).errors = []) : m.errors = [] := by
    cases r with
    | ok c => exact h
    | error err => exact hraise h
  rcases e with ⟨eventId, timestamp, body, router, row⟩
  cases body with
  | executionStarted es =>
    simp only [dispatch, onExecutionStarted] at herr
    split at herr
    · exact hraise herr
    · exact herr
  | executionCompleted | eventSent | continueAsNew => exact hraise herr
  | workflowStarted | executionResumed | executionStalled | workflowCompleted => exact herr
  | _ => exact hhandle herr

theorem errors_processEvent {e : Nat × HistoryEvent} (herr : (processEvent sdk m e).errors = []) :
    m.errors = [] := by
  unfold processEvent at herr
  split at herr
  · exact herr
  · split at herr
    · exact herr
    · exact (errors_dispatch herr :)

/-- Errors stay on record. -/
theorem errors_step (h : step sdk m = some m') (herr : m'.errors = []) : m.errors = [] := by
  cases step_cases h with
  | code hcode h => exact (step_code hcode h).errors ▸ herr
  | next => exact (errors_processEvent herr :)
  | drain => exact (errors_processEvent herr :)
  | _ => exact herr

/-! ### The machine follows `Susp` -/

/-- How the buffer and the handled events compare: no buffer is being drained; one is; or the workflow
was started from a buffer, which is not needed any more. -/
inductive Tracks (a : Susp) (m : Machine σ) : Prop
  | normal (drains : m.drains = []) (stale : a.stale = false)
    (segment : m.hist.suspendedEvents = a.segment) (handled : m.handled = a.handled)
  | draining (es : List (Nat × HistoryEvent)) (rest : List (Frame σ)) (control : m.control = .loop)
    (stack : m.stack = .drain es :: rest) (drains : m.drains = [es]) (suspended : a.suspended = false)
    (segment : a.segment = []) (handled : m.handled ++ es.map Prod.fst = a.handled)
    (plain : ∀ e ∈ es, isSuspend e.2 = false ∧ isResume e.2 = false ∧ isTerminate e.2 = false)
    (start : ∀ e ∈ es.dropLast, isStart e.2 = false) (stale : a.stale = es.any (isStart ·.2))
  | stale (drains : ∀ es ∈ m.drains, es = []) (stale : a.stale = true) (handled : m.handled = a.handled)

/-- The machine after `historyIndex` events. -/
structure Follows (events : List HistoryEvent) (m : Machine σ) : Prop where
  hist : m.hist.events = events
  suspension : m.ctx.core.suspension = ((Susp.after events m.hist.historyIndex).suspended, false)
  buffered : m.buffered = (Susp.after events m.hist.historyIndex).buffered
  tracks : Tracks (Susp.after events m.hist.historyIndex) m

variable {events : List HistoryEvent}

theorem follows_init (id : InstanceID) (oldEvents newEvents : List HistoryEvent) :
    Follows (oldEvents ++ newEvents) (init id oldEvents newEvents : Machine σ) :=
  ⟨rfl, rfl, rfl, .normal rfl rfl rfl rfl⟩

theorem follows_code (hf : Follows events m) (hcode : m.inCode = true) (h : CodeStep m m') :
    Follows events m' := by
  have hhist := h.hist
  refine ⟨by rw [hhist, hf.hist], by rw [h.ctx.suspension, hhist, hf.suspension],
    by rw [h.buffered, hhist, hf.buffered], ?_⟩
  rw [hhist]
  cases hf.tracks with
  | normal drains stale segment handled =>
    exact .normal (h.drains.trans drains) stale (by rw [hhist, segment]) (h.handled.trans handled)
  | draining es rest control => simp [inCode, control] at hcode
  | stale drains stale handled =>
    exact .stale (fun es hes => drains es (h.drains ▸ hes)) stale (h.handled.trans handled)

/-- The conditions under which the events are followed to their end. -/
structure Resumable (events : List HistoryEvent) : Prop where
  ok : (Susp.of events).ok = true
  notTerminate : ∀ e ∈ events, isTerminate e = false

theorem Resumable.ok_after (hev : Resumable events) {n : Nat} {e : HistoryEvent}
    (he : events[n]? = some e) : ((Susp.after events n).next (n, e)).ok = true := by
  have hn : n < events.length := (List.getElem?_eq_some_iff.mp he).1
  have hok := Susp.ok_of_le (show n + 1 ≤ events.length from hn) hev.ok
  rwa [Susp.after_succ he] at hok

theorem handledWhileSuspended_eq {e : HistoryEvent} (ht : isTerminate e = false) :
    handledWhileSuspended e = isResume e := by
  unfold handledWhileSuspended isResume
  unfold isTerminate at ht
  split <;> simp_all

/-- An event that is handled at once. -/
theorem tracks_handled {a : Susp} {e : Nat × HistoryEvent} (ht : Tracks a m)
    (htop : ∀ es rest, m.stack ≠ .drain es :: rest) (hr : isResume e.2 = false)
    (hs : a.suspended = false) (hdrains : m'.drains = m.drains)
    (hseg : m'.hist.suspendedEvents = m.hist.suspendedEvents)
    (hh : m'.handled = m.handled ++ [e.1]) : Tracks (a.next e) m' := by
  simp only [Susp.next, hr, hs, Bool.false_eq_true, if_false]
  cases ht with
  | normal drains stale segment handled =>
    exact .normal (hdrains.trans drains) stale (hseg.trans segment) (by rw [hh, handled])
  | draining es rest control stack => exact absurd stack (htop es rest)
  | stale drains stale handled =>
    exact .stale (fun es hes => drains es (hdrains ▸ hes)) stale (by rw [hh, handled])

/-- An event that is buffered. -/
theorem tracks_buffered {a : Susp} {e : Nat × HistoryEvent} (ht : Tracks a m)
    (htop : ∀ es rest, m.stack ≠ .drain es :: rest) (hr : isResume e.2 = false)
    (hs : a.suspended = true) (hdrains : m'.drains = m.drains)
    (hseg : m'.hist.suspendedEvents = m.hist.suspendedEvents ++ [e])
    (hh : m'.handled = m.handled) : Tracks (a.next e) m' := by
  simp only [Susp.next, hr, hs, Bool.false_eq_true, if_false, if_true]
  cases ht with
  | normal drains stale segment handled =>
    exact .normal (hdrains.trans drains) stale (by rw [hseg, segment]) (by rw [hh, handled])
  | draining es rest control stack => exact absurd stack (htop es rest)
  | stale drains stale handled =>
    exact .stale (fun es hes => drains es (hdrains ▸ hes)) stale (by rw [hh, handled])

/-- A resumption starts to drain the buffer. -/
theorem tracks_resumed {n : Nat} {e : Nat × HistoryEvent} (hev : Resumable events)
    (ht : Tracks (Susp.after events n) m) (htop : ∀ es rest, m.stack ≠ .drain es :: rest)
    (hr : isResume e.2 = true) (hok : ((Susp.after events n).next e).ok = true)
    (hcontrol : m'.control = .loop) (hstack : m'.stack = .drain m.hist.suspendedEvents :: m.stack)
    (hh : m'.handled = m.handled ++ [e.1]) : Tracks ((Susp.after events n).next e) m' := by
  simp only [Susp.next, hr, if_true, Bool.and_eq_true, Susp.drainable, Bool.not_eq_true'] at hok ⊢
  obtain ⟨⟨-, hstale⟩, hsusp, hstart⟩ := hok
  cases ht with
  | normal drains stale segment handled =>
    refine .draining m.hist.suspendedEvents m.stack hcontrol hstack ?_ rfl rfl ?_ ?_ ?_ ?_
    · have hd : m'.drains = m.hist.suspendedEvents :: m.drains := by
        unfold Machine.drains
        rw [hstack]
        rfl
      rw [hd, drains]
    · rw [hh, handled, segment, List.append_assoc]
      rfl
    · intro x hx
      rw [segment] at hx
      exact ⟨by simpa using List.all_eq_true.mp hsusp x hx,
        (Susp.sound_after events n).notResume x hx,
        hev.notTerminate _ (Susp.segment_after events n x hx)⟩
    · intro x hx
      rw [segment] at hx
      simpa using List.all_eq_true.mp hstart x hx
    · rw [segment, hstale, Bool.false_or]
  | draining es rest control stack => exact absurd stack (htop es rest)
  | stale drains stale handled => rw [hstale] at stale; cases stale

theorem follows_processEvent {hist : Hist} {n : Nat} {e : HistoryEvent} (hev : Resumable events)
    (hf : Follows events m) (htop : ∀ es rest, m.stack ≠ .drain es :: rest)
    (hn : n = m.hist.historyIndex) (he : events[n]? = some e) (hevents : hist.events = events)
    (hindex : hist.historyIndex = n + 1)
    (hbuffer : hist.suspendedEvents = m.hist.suspendedEvents)
    (herr : (processEvent sdk { m with hist := hist } (n, e)).errors = []) :
    Follows events (processEvent sdk { m with hist := hist } (n, e)) := by
  subst hn
  have ht : isTerminate e = false := hev.notTerminate e (List.mem_of_getElem? he)
  have hsusp : m.ctx.core.isSuspended = (Susp.after events m.hist.historyIndex).suspended :=
    congrArg Prod.fst hf.suspension
  have hterm : m.ctx.core.isTerminated = false := congrArg Prod.snd hf.suspension
  have hfollows (m' : Machine σ) (h : m'.hist.events = events)
      (hi : m'.hist.historyIndex = m.hist.historyIndex + 1)
      (hflags : m'.ctx.core.suspension =
        (((Susp.after events m.hist.historyIndex).next (m.hist.historyIndex, e)).suspended, false))
      (hbuf : m'.buffered =
        ((Susp.after events m.hist.historyIndex).next (m.hist.historyIndex, e)).buffered)
      (htracks : Tracks ((Susp.after events m.hist.historyIndex).next (m.hist.historyIndex, e)) m') :
      Follows events m' := by
    rw [← Susp.after_succ he, ← hi] at hflags hbuf htracks
    exact ⟨h, hflags, hbuf, htracks⟩
  unfold processEvent at herr ⊢
  rw [if_neg (by simp [hterm])] at herr ⊢
  simp only [handledWhileSuspended_eq ht, hsusp] at herr ⊢
  cases hr : isResume e with
  | true =>
    simp only [hr, Bool.not_true, Bool.and_false, Bool.false_eq_true, if_false] at herr ⊢
    rcases e with ⟨eventId, timestamp, body, router, row⟩
    cases body with
    | executionResumed er =>
      refine hfollows _ hevents hindex ?_ ?_ (tracks_resumed hev hf.tracks htop hr
        (hev.ok_after he) rfl (congrArg (Frame.drain · :: m.stack) hbuffer) rfl)
      · simp [Susp.next, hr, Core.suspension, dispatch, hterm]
      · simp [Susp.next, hr, hf.buffered, dispatch]
    | _ => cases hr
  | false =>
    cases hs : (Susp.after events m.hist.historyIndex).suspended with
    | true =>
      rw [if_pos (by simp [hs, hr])] at herr ⊢
      refine hfollows _ hevents hindex ?_ ?_
        (tracks_buffered hf.tracks htop hr hs rfl (by simp [hbuffer]) rfl)
      · simp [Susp.next, hr, hs, hf.suspension]
      · simp [Susp.next, hr, hs, hf.buffered]
    | false =>
      rw [if_neg (by simp [hs])] at herr ⊢
      cases hse : isSuspend e with
      | true =>
        rcases e with ⟨eventId, timestamp, body, router, row⟩
        cases body with
        | executionSuspended es =>
          refine hfollows _ hevents hindex ?_ ?_ (tracks_handled hf.tracks htop hr hs rfl hbuffer rfl)
          · simp [Susp.next, hr, hs, hse, Core.suspension, dispatch, handle, hterm]
          · simp [Susp.next, hr, hs, hf.buffered, dispatch, handle]
        | _ => cases hse
      | false =>
        have hplain := plain_dispatch sdk
          { m with hist := hist, handled := m.handled ++ [m.hist.historyIndex] } hse hr ht
        refine hfollows _ (hplain.events.trans hevents) (hplain.historyIndex.trans hindex) ?_ ?_
          (tracks_handled hf.tracks htop (e := (m.hist.historyIndex, e)) hr hs ?_
            (hplain.suspendedEvents.trans hbuffer) hplain.handled)
        · rw [Core.suspension_of_flags hplain.flags]
          simp [Susp.next, hr, hs, hse, hf.suspension]
        · rw [hplain.buffered]
          simp [Susp.next, hr, hs, hf.buffered]
        · unfold drains
          rw [hplain.stack]

theorem follows_processNextEvent (hev : Resumable events) (hf : Follows events m)
    (htop : ∀ es rest, m.stack ≠ .drain es :: rest) (h : processNextEvent sdk m = some m')
    (herr : m'.errors = []) : Follows events m' := by
  obtain ⟨⟨p, hist⟩, hnext, rfl⟩ := Option.map_eq_some_iff.mp h
  obtain ⟨e, he, hp⟩ := Option.map_eq_some_iff.mp hnext
  obtain ⟨rfl, rfl⟩ := Prod.mk.inj hp
  rw [hf.hist] at he
  exact follows_processEvent hev hf htop rfl he hf.hist rfl rfl herr

/-- One event of the buffer that is drained. -/
theorem follows_drain {e : Nat × HistoryEvent} {es : List (Nat × HistoryEvent)}
    {rest : List (Frame σ)} (hf : Follows events m) (hstack : m.stack = .drain (e :: es) :: rest)
    (herr : (processEvent sdk { m with stack := .drain es :: rest } e).errors = []) :
    Follows events (processEvent sdk { m with stack := .drain es :: rest } e) := by
  have hsusp : m.ctx.core.isSuspended = (Susp.after events m.hist.historyIndex).suspended :=
    congrArg Prod.fst hf.suspension
  have hterm : m.ctx.core.isTerminated = false := congrArg Prod.snd hf.suspension
  have hdrains : m.drains = (e :: es) :: rest.filterMap Frame.drained := by
    unfold drains
    rw [hstack]
    rfl
  cases hf.tracks with
  | normal drains => rw [hdrains] at drains; cases drains
  | stale drains =>
    have hnil := drains (e :: es) (by rw [hdrains]; exact List.mem_cons_self)
    cases hnil
  | draining es' rest' control stack drains suspended segment handled plain start stale =>
    rw [hstack] at stack
    obtain ⟨hes, rfl⟩ := List.cons.inj stack
    cases hes
    obtain ⟨hse, hr, ht⟩ := plain e List.mem_cons_self
    unfold processEvent at herr ⊢
    rw [if_neg (by simp [hterm]), if_neg (by simp [hsusp, suspended])] at herr ⊢
    have hplain := plain_dispatch sdk
      { m with stack := .drain es :: rest, handled := m.handled ++ [e.1] } hse hr ht
    have hloop (hstart : isStart e.2 = false) := control_dispatch hstart herr
    refine ⟨hplain.events.trans hf.hist, ?_, ?_, ?_⟩
    · rw [Core.suspension_of_flags hplain.flags, hplain.historyIndex]
      exact hf.suspension
    · rw [hplain.buffered, hplain.historyIndex]
      exact hf.buffered
    · rw [hplain.historyIndex]
      have hrest : rest.filterMap Frame.drained = [] := by
        rw [hdrains] at drains
        exact (List.cons.inj drains).2
      have hdrains' : Machine.drains (dispatch sdk { m with
          stack := .drain es :: rest, handled := m.handled ++ [e.1] } e.2) = [es] := by
        unfold Machine.drains
        rw [hplain.stack, List.filterMap_cons_some (by rfl), hrest]
      have hhandled : (m.handled ++ [e.1]) ++ es.map Prod.fst =
          (Susp.after events m.hist.historyIndex).handled := by
        rw [← handled, List.append_assoc]
        rfl
      cases hst : isStart e.2 with
      | true =>
        -- The workflow starts here, so nothing is left to drain.
        have hnil : es = [] := by
          by_contra hne
          have := start e (by rw [List.dropLast_cons_of_ne_nil hne]; exact List.mem_cons_self)
          rw [hst] at this
          cases this
        subst hnil
        refine .stale ?_ ?_ ?_
        · rw [hdrains']
          exact fun es hes => List.mem_singleton.mp hes
        · rw [stale, List.any_cons, hst, Bool.true_or]
        · rw [hplain.handled]
          simpa using hhandled
      | false =>
        refine .draining es rest (hloop hst) hplain.stack hdrains' suspended segment ?_
          (fun x hx => plain x (List.mem_cons_of_mem _ hx)) ?_ ?_
        · rw [hplain.handled]
          exact hhandled
        · intro x hx
          cases es with
          | nil => cases hx
          | cons y ys =>
            exact start x (by
              rw [List.dropLast_cons_of_ne_nil (List.cons_ne_nil y ys)]
              exact List.mem_cons_of_mem _ hx)
        · rw [stale, List.any_cons, hst, Bool.false_or]

/-- The end of a drain. -/
theorem follows_drained {rest : List (Frame σ)} (hf : Follows events m)
    (hstack : m.stack = .drain [] :: rest) :
    Follows events { m with hist := { m.hist with suspendedEvents := [] }, stack := rest } := by
  have hdrains : m.drains = [] :: rest.filterMap Frame.drained := by
    unfold drains
    rw [hstack]
    rfl
  refine ⟨hf.hist, hf.suspension, hf.buffered, ?_⟩
  cases hf.tracks with
  | normal drains => rw [hdrains] at drains; cases drains
  | stale drains stale handled =>
    refine .stale (fun es hes => drains es ?_) stale handled
    rw [hdrains]
    exact List.mem_cons_of_mem _ hes
  | draining es rest' control stack drains suspended segment handled plain start stale =>
    rw [hstack] at stack
    obtain ⟨hes, rfl⟩ := List.cons.inj stack
    cases hes
    rw [hdrains] at drains
    exact .normal (List.cons.inj drains).2 stale segment.symm (by simpa using handled)

/-- Leaving an `Await`. -/
theorem follows_awaited {task : Nat} {dst : Option Nat} {rest : List (Frame σ)} (r : AwaitResult)
    (hf : Follows events m) (hstack : m.stack = .await task dst :: rest) :
    Follows events { m with stack := rest, control := .returned r } := by
  have hdrains : m.drains = rest.filterMap Frame.drained := by
    unfold drains
    rw [hstack]
    rfl
  refine ⟨hf.hist, hf.suspension, hf.buffered, ?_⟩
  cases hf.tracks with
  | normal drains stale segment handled => exact .normal (hdrains.symm.trans drains) stale segment handled
  | stale drains stale handled =>
    exact .stale (fun es hes => drains es (hdrains ▸ hes)) stale handled
  | draining es rest' control stack => rw [hstack] at stack; cases stack

theorem follows_stepLoop (hev : Resumable events) (hf : Follows events m)
    (h : stepLoop sdk m = some m') (herr : m'.errors = []) : Follows events m' := by
  unfold stepLoop at h
  split at h
  · next rest hs =>
    exact follows_processNextEvent hev hf (fun es rest' => by rw [hs]; nofun) h herr
  · next task dst rest hs =>
    dsimp only at h
    split at h
    · cases h
      exact follows_awaited _ hf hs
    · exact follows_processNextEvent hev hf (fun es rest' => by rw [hs]; nofun) h herr
  · next e es rest hs =>
    cases h
    exact follows_drain hf hs herr
  · next rest hs =>
    cases h
    exact follows_drained hf hs
  · cases h

theorem follows_step (hev : Resumable events) (hwf : m.WellFormed)
    (hf : m.errors = [] → Follows events m) (h : step sdk m = some m') (herr : m'.errors = []) :
    Follows events m' := by
  have hf := hf (errors_step h herr)
  have hm : m.errors = [] := errors_step h herr
  cases hc : m.control with
  | run s => exact follows_code hf (by simp [inCode, hc]) (step_code (by simp [inCode, hc]) h)
  | returned r => exact follows_code hf (by simp [inCode, hc]) (step_code (by simp [inCode, hc]) h)
  | loop => exact follows_stepLoop hev hf (by simpa [step, hc] using h) herr
  | raised err =>
    simp only [WellFormed, hc] at hwf
    exact absurd hm hwf.2
  | done => simp [step, hc] at h

theorem follows_of_reaches {id : InstanceID} {oldEvents newEvents : List HistoryEvent}
    (hev : Resumable (oldEvents ++ newEvents))
    (h : Transition.Reaches (step sdk) (init id oldEvents newEvents) m) (herr : m.errors = []) :
    Follows (oldEvents ++ newEvents) m := by
  have hinv := h.invariant
    (I := fun m => m.WellFormed ∧ (m.errors = [] → Follows (oldEvents ++ newEvents) m))
    ⟨wellFormed_init .., fun _ => follows_init ..⟩
    fun x y hx hs => ⟨wellFormed_step hx.1 hs, follows_step hev hx.1 hx.2 hs⟩
  exact hinv.2 herr

end Machine

theorem new_isSuspended (id : InstanceID) (customStatus : Option String)
    (events : List HistoryEvent) :
    (WorkflowRuntimeState.new id customStatus events).isSuspended =
      events.foldl WorkflowRuntimeState.suspendedAfter false := by
  have hfold (p : WorkflowRuntimeState × Option DedupSet) :
      (events.foldl (WorkflowRuntimeState.addOrDrop false) p).1.isSuspended =
        events.foldl WorkflowRuntimeState.suspendedAfter p.1.isSuspended := by
    induction events generalizing p with
    | nil => rfl
    | cons e es ih =>
      rw [List.foldl_cons, ih, WorkflowRuntimeState.addOrDrop_isSuspended, List.foldl_cons]
  exact hfold _

open Machine in
/-- If the workflow is never resumed from a buffer that contains a suspension, that contains the start
before its last event, or after it was started from one, then the context and the runtime state agree
on suspension, and unless suspended all buffered events were handled once and in order. -/
theorem suspension_agrees {σ : Type} {sdk : Sdk σ} {id : InstanceID}
    {oldEvents newEvents : List HistoryEvent} {m : Machine σ} (customStatus : Option String)
    (hreach : Transition.Reaches (step sdk) (init id oldEvents newEvents) m)
    (hhalt : step sdk m = none) (herr : m.errors = [])
    (hterm : ∀ e ∈ oldEvents ++ newEvents, isTerminate e = false)
    (hok : (Susp.of (oldEvents ++ newEvents)).ok = true) :
    m.ctx.core.isSuspended =
        (WorkflowRuntimeState.new id customStatus (oldEvents ++ newEvents)).isSuspended ∧
      (m.ctx.core.isSuspended = false →
        m.buffered.Pairwise (· < ·) ∧ m.handled.filter (· ∈ m.buffered) = m.buffered) := by
  have hf := follows_of_reaches ⟨hok, hterm⟩ hreach herr
  have hblocked := blocked_of_halted (wellFormed_of_reaches hreach) herr hhalt
  have hlen := hblocked.consumed
  rw [hf.hist] at hlen
  have hafter := Susp.after_of_length_le hlen
  have hsusp : m.ctx.core.isSuspended = (Susp.of (oldEvents ++ newEvents)).suspended := by
    rw [← hafter]
    exact congrArg Prod.fst hf.suspension
  have hsound : (Susp.of (oldEvents ++ newEvents)).Sound _ := Susp.sound_after _ _
  refine ⟨?_, fun hs => ?_⟩
  · rw [hsusp, new_isSuspended, Susp.of, Susp.after_suspended, List.take_length]
  · have hbuf : m.buffered = (Susp.of (oldEvents ++ newEvents)).buffered := hafter ▸ hf.buffered
    have hhandled : m.handled = (Susp.of (oldEvents ++ newEvents)).handled := by
      rw [← hafter]
      cases hf.tracks with
      | normal drains stale segment handled => exact handled
      | stale drains stale handled => exact handled
      | draining es rest control stack =>
        -- The top frame is one that waits for events.
        have htop := hblocked.top
        rw [stack] at htop
        rcases htop with h | ⟨task, dst, h, -⟩ <;> cases h
    rw [hbuf, hhandled]
    refine ⟨hsound.sorted, ?_⟩
    have hseg := hsound.segment (hsusp ▸ hs)
    have hsplit := hsound.split
    rwa [hseg, List.map_nil, List.append_nil] at hsplit

namespace SuspensionExample

/-- Wait for an approval, then return. -/
inductive Flow
  | begin
  | waiting (approval : TaskRef)
  | finished

def next : Flow → Step Flow
  | .begin => .call (.waitForSingleEvent "approval" (-1)) fun
    | .task t => .waiting t
    | _ => .finished
  | .waiting t => .call (.await t none) fun _ => .finished
  | .finished => .ret (.ok .nil)

def env : SdkEnv :=
  { toUpper := id, unmarshal := fun _ s => .ok s, handle := fun _ _ => true
    nextDelayMs := fun ms _ _ => ms, float64 := fun n => n
    childInstanceID := fun parent _ _ => parent, uuid := fun _ => "" }

def sdk : Sdk Flow := { env := env, registry := { workflows := [("wf", .begin)] }, next := next }

def started : List HistoryEvent :=
  [{ eventType := .workflowStarted none },
   { eventType := .executionStarted { name := "wf", workflowInstance := ⟨"i", some "e1"⟩ } }]

def suspend : HistoryEvent := { eventType := .executionSuspended none }

def resume : HistoryEvent := { eventType := .executionResumed none }

def approve : HistoryEvent := { eventType := .eventRaised { name := "approval" } }

def replay (events : List HistoryEvent) : Machine Flow := (Machine.init "i" [] events).run sdk 20

/-- A workflow suspended twice and then resumed. The context is suspended again by the second
suspension, and resuming it once more does not bring the approval back. -/
theorem approval_lost :
    (Machine.step sdk (replay (started ++ [suspend, suspend, approve, resume]))).isNone ∧
      (replay (started ++ [suspend, suspend, approve, resume])).errors = [] ∧
      (replay (started ++ [suspend, suspend, approve, resume])).ctx.core.isSuspended = true ∧
      (WorkflowRuntimeState.new "i" none
        (started ++ [suspend, suspend, approve, resume])).isSuspended = false ∧
    (Machine.step sdk (replay (started ++ [suspend, suspend, approve, resume, resume]))).isNone ∧
      (replay (started ++ [suspend, suspend, approve, resume, resume])).errors = [] ∧
      (replay (started ++ [suspend, suspend, approve, resume, resume])).ctx.core.isSuspended =
        false ∧
      4 ∈ (replay (started ++ [suspend, suspend, approve, resume, resume])).buffered ∧
      4 ∉ (replay (started ++ [suspend, suspend, approve, resume, resume])).handled := by
  decide

theorem approval_kept :
    (replay (started ++ [suspend, approve, resume])).handled = [0, 1, 2, 4, 3] ∧
      (replay (started ++ [suspend, approve, resume])).handled.filter
        (· ∈ (replay (started ++ [suspend, approve, resume])).buffered) =
      (replay (started ++ [suspend, approve, resume])).buffered :=
  ⟨by decide,
    ((suspension_agrees none (Machine.reaches_run sdk _ 20)
      (Option.isNone_iff_eq_none.mp (by decide)) (by decide) (by decide) (by decide)).2
      (by decide)).2⟩

end SuspensionExample

end DurableTask.Task
