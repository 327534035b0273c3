import DurableTask.Task.Lockstep
import DurableTask.Task.Suspension

/-!
# The events of a turn

What a batch may contain after the start of the workflow: raised events, resolutions of dispatched
work, suspensions, resumptions and terminations. While such events are handled the numbering of the
pending work stays what it is (`InTurn`), every resolution finds its task, and no handler fails.
-/

namespace DurableTask.Task

/-! ### Ordinary events -/

/-- Events handled alike whenever the workflow is not suspended: the start of a turn, raised events
and resolutions. -/
def isPlain (e : HistoryEvent) : Bool :=
  match e.eventType with
  | .workflowStarted _ | .eventRaised _ => true
  | _ => e.resolution.isSome

def isOrdinary (e : HistoryEvent) : Bool := isPlain e || isSuspend e || isResume e || isTerminate e

/-- No suspension of a workflow that is suspended already. -/
def neverSuspendsTwice : Bool → List HistoryEvent → Bool
  | _, [] => true
  | suspended, e :: es =>
    !(suspended && isSuspend e) &&
      neverSuspendsTwice (WorkflowRuntimeState.suspendedAfter suspended e) es

/-- The tasks that are still to be resolved after an event. -/
def settle (T : List (ActionID × PendingTask)) (e : HistoryEvent) : List (ActionID × PendingTask) :=
  match e.resolution with
  | some k => Assoc.erase T k.2
  | none => T

/-- The position in the history after a plain event. -/
def Hist.noteVersion (h : Hist) (e : HistoryEvent) : Hist :=
  match e.eventType with
  | .workflowStarted version =>
    { h with
      historyPatches := h.historyPatches ++ (version.getD {}).patches
      versionName := (version.getD {}).name.or h.versionName }
  | _ => h

theorem noteVersion_frame (h : Hist) (e : HistoryEvent) :
    (h.noteVersion e).events.drop (h.noteVersion e).historyIndex = h.events.drop h.historyIndex ∧
      (h.noteVersion e).suspendedEvents = h.suspendedEvents ∧
      (h.noteVersion e).events = h.events ∧ (h.noteVersion e).historyIndex = h.historyIndex := by
  unfold Hist.noteVersion
  split <;> exact ⟨rfl, rfl, rfl, rfl⟩

/-- The state of the workflow after a plain event, if `T` are the tasks to be resolved. -/
def Core.handlePlain (env : SdkEnv) (T : List (ActionID × PendingTask)) (c : Core)
    (e : HistoryEvent) : Core :=
  match e.eventType with
  | .workflowStarted _ => { c with currentTimeUtc := e.timestamp }
  | .eventRaised er => Ctx.onExternalEventRaised env c e er
  | _ =>
    match e.resolution.bind fun k => Assoc.get? T k.2 with
    | some t => c.resolve t.task e
    | none => c

/-- The pending work after a plain event. -/
def Pending.handlePlain (p : Pending) (e : HistoryEvent) : Pending :=
  match e.resolution with
  | some k => p.resolve k e
  | none => p

theorem flags_handlePlain (env : SdkEnv) (T : List (ActionID × PendingTask)) (c : Core)
    (e : HistoryEvent) : (c.handlePlain env T e).flags = c.flags := by
  unfold Core.handlePlain
  split
  · rfl
  · exact Core.flags_of_frame (frame_onExternalEventRaised ..)
  · split
    · exact Core.flags_resolve ..
    · rfl

theorem Numbered.handlePlain {p : Pending} {b : ActionID} {es : List Entry}
    {T : List (ActionID × PendingTask)} (h : Numbered p b es T) {e : HistoryEvent}
    (hdel : ∀ k, e.resolution = some k → ∃ t, (k.2, ⟨k.1, t⟩) ∈ T) :
    Numbered (p.handlePlain e) b es (settle T e) := by
  unfold Pending.handlePlain settle
  split
  · next k hk =>
    obtain ⟨t, ht⟩ := hdel k hk
    exact h.resolve ht e
  · exact h

/-- Distinct resolutions have distinct tasks, so handling one leaves the others theirs. -/
theorem settle_deliver {T : List (ActionID × PendingTask)} {e : HistoryEvent}
    {es : List HistoryEvent} (hT : (T.map Prod.fst).Nodup)
    (hnodup : ((e :: es).filterMap HistoryEvent.resolution).Nodup)
    (hdel : ∀ k ∈ (e :: es).filterMap HistoryEvent.resolution, ∃ t, (k.2, ⟨k.1, t⟩) ∈ T) :
    (es.filterMap HistoryEvent.resolution).Nodup ∧
      ∀ k ∈ es.filterMap HistoryEvent.resolution, ∃ t, (k.2, ⟨k.1, t⟩) ∈ settle T e := by
  unfold settle
  cases he : e.resolution with
  | none =>
    rw [List.filterMap_cons_none he] at hnodup hdel
    exact ⟨hnodup, hdel⟩
  | some k =>
    rw [List.filterMap_cons_some he] at hnodup hdel
    obtain ⟨hk, hnodup⟩ := List.nodup_cons.mp hnodup
    refine ⟨hnodup, fun k' hk' => ?_⟩
    obtain ⟨t, ht⟩ := hdel k List.mem_cons_self
    obtain ⟨t', ht'⟩ := hdel k' (List.mem_cons_of_mem _ hk')
    refine ⟨t', Assoc.mem_erase.mpr ⟨ht', fun hid => ?_⟩⟩
    have hid : k'.2 = k.2 := hid
    have hget := Assoc.get?_of_mem hT ht
    rw [← hid, Assoc.get?_of_mem hT ht'] at hget
    have hkind : k'.1 = k.1 := congrArg PendingTask.kind (Option.some.inj hget)
    exact hk (Prod.ext hkind hid ▸ hk')

theorem Numbered.tasks_unique {p : Pending} {b : ActionID} {es es' : List Entry}
    {T T' : List (ActionID × PendingTask)} (h : Numbered p b es T) (h' : Numbered p b es' T') :
    T = T' := by
  have hfilter (es : List Entry) (T : List (ActionID × PendingTask)) (h : Numbered p b es T) :
      p.pendingTasks.filter (fun x => decide (x.1 < b)) = T := by
    rw [h.tasks, List.filter_append, List.filter_eq_self.mpr, List.filter_eq_nil_iff.mpr,
      List.append_nil]
    · intro x hx
      have := (Numbered.task_bounds hx).1
      simp only [decide_eq_true_eq]
      exact Int.not_lt.mpr this
    · intro x hx
      simpa using h.recorded x hx
  rw [← hfilter es T h, hfilter es' T' h']

namespace Machine

variable {σ : Type} {sdk : Sdk σ} {m m' : Machine σ} {b : ActionID}
  {T : List (ActionID × PendingTask)}

/-- A plain event, when every resolution has its task. -/
theorem dispatch_of_plain {es : List Entry} (hn : Numbered m.ctx.pend b es T) {e : HistoryEvent}
    (he : isPlain e = true) (hdel : ∀ k, e.resolution = some k → ∃ t, (k.2, ⟨k.1, t⟩) ∈ T) :
    dispatch sdk m e =
      { m with
        hist := m.hist.noteVersion e
        ctx := { m.ctx with
          core := m.ctx.core.handlePlain sdk.env T e
          pend := m.ctx.pend.handlePlain e }
        control := .loop } := by
  have hres (k : Kind × ActionID) (hk : e.resolution = some k) :
      m.ctx.onResolution k e = { m.ctx with
        core := (match e.resolution.bind fun k => Assoc.get? T k.2 with
          | some t => m.ctx.core.resolve t.task e
          | none => m.ctx.core)
        pend := m.ctx.pend.handlePlain e } := by
    obtain ⟨t, ht⟩ := hdel k hk
    have hget := Assoc.get?_of_mem hn.nodup ht
    unfold Pending.handlePlain
    rw [Ctx.onResolution_of_numbered hn ht, hk, Option.bind_some, hget]
  rcases e with ⟨eventId, timestamp, body, router, row⟩
  cases body with
  | workflowStarted version => rfl
  | eventRaised er => rfl
  | taskCompleted tc =>
    exact congrArg (fun c => { m with ctx := c, control := .loop }) (hres _ rfl)
  | taskFailed tf =>
    exact congrArg (fun c => { m with ctx := c, control := .loop }) (hres _ rfl)
  | childWorkflowInstanceCompleted sc =>
    exact congrArg (fun c => { m with ctx := c, control := .loop }) (hres _ rfl)
  | childWorkflowInstanceFailed sf =>
    exact congrArg (fun c => { m with ctx := c, control := .loop }) (hres _ rfl)
  | timerFired tf =>
    exact congrArg (fun c => { m with ctx := c, control := .loop }) (hres _ rfl)
  | _ => cases he

/-! ### The invariant -/

/-- The buffered events that will be handled first. -/
def held (m : Machine σ) : List (Nat × HistoryEvent) := m.drains.head?.getD m.hist.suspendedEvents

/-- The events of the history that were not taken yet. -/
def upcoming (m : Machine σ) : List HistoryEvent := m.hist.events.drop m.hist.historyIndex

/-- The resolutions still to come. -/
def resolutions (m : Machine σ) : List (Kind × ActionID) :=
  (m.held.map Prod.snd ++ m.upcoming).filterMap HistoryEvent.resolution

/-- Either no buffer is being drained, and it is empty unless suspended; or one is. -/
inductive Mode (m : Machine σ) : Prop
  | normal (drains : m.drains = [])
    (buffer : m.ctx.core.isSuspended = false → m.hist.suspendedEvents = [])
  | draining (es : List (Nat × HistoryEvent)) (rest : List (Frame σ)) (control : m.control = .loop)
    (stack : m.stack = .drain es :: rest) (rest_drains : rest.filterMap Frame.drained = [])
    (suspended : m.ctx.core.isSuspended = false)

/-- A replay that has only ordinary events before it. -/
structure InTurn (b : ActionID) (T : List (ActionID × PendingTask)) (m : Machine σ) : Prop where
  wellFormed : m.WellFormed
  errors : m.errors = []
  terminated : m.ctx.core.isTerminated = false
  numbered : ∃ es, Numbered m.ctx.pend b es T
  ordinary : ∀ e ∈ m.upcoming, isOrdinary e = true
  once : neverSuspendsTwice m.ctx.core.isSuspended m.upcoming = true
  held : ∀ e ∈ m.held, isPlain e.2 = true
  mode : m.Mode
  waits : m.ctx.core.isSuspended = true → m.Waits
  nodup : m.resolutions.Nodup
  deliver : ∀ k ∈ m.resolutions, ∃ t, (k.2, ⟨k.1, t⟩) ∈ T

/-! ### Taking an event -/

theorem step_of_waits (h : m.Waits) : step sdk m = processNextEvent sdk m := by
  obtain ⟨hc, htop⟩ := h
  unfold step
  rw [hc]
  dsimp only
  unfold stepLoop
  cases hs : m.stack with
  | nil => rw [hs] at htop; rcases htop with h | ⟨_, _, h, _⟩ <;> cases h
  | cons f rest =>
    rw [hs] at htop
    rcases htop with h | ⟨task, dst, h, hinc⟩
    · cases h
      rfl
    · cases h
      dsimp only
      rw [if_neg (by simp [hinc])]

/-- An event taken by a suspended workflow is buffered, except for the two kinds it handles. -/
theorem step_buffer {e : HistoryEvent} (hw : m.Waits)
    (he : m.hist.events[m.hist.historyIndex]? = some e) (ht : m.ctx.core.isTerminated = false)
    (hs : m.ctx.core.isSuspended = true) (hhandled : handledWhileSuspended e = false) :
    step sdk m = some { m with
      hist := { m.hist.taken with
        suspendedEvents := m.hist.suspendedEvents ++ [(m.hist.historyIndex, e)] }
      buffered := m.buffered ++ [m.hist.historyIndex]
      control := .loop } := by
  rw [step_of_waits hw, processNextEvent_eq he]
  unfold processEvent
  dsimp only
  rw [if_neg (by simp [ht]), if_pos (by simp [hs, hhandled])]
  rfl

/-- Any other event taken is handled. -/
theorem step_dispatch (sdk : Sdk σ) {e : HistoryEvent} (hw : m.Waits)
    (he : m.hist.events[m.hist.historyIndex]? = some e) (ht : m.ctx.core.isTerminated = false)
    (hs : m.ctx.core.isSuspended = false ∨ handledWhileSuspended e = true) :
    step sdk m = some (dispatch sdk { m with
      hist := m.hist.taken, handled := m.handled ++ [m.hist.historyIndex] } e) := by
  rw [step_of_waits hw, processNextEvent_eq he]
  unfold processEvent
  dsimp only
  rw [if_neg (by simp [ht]), if_neg]
  rcases hs with hs | hs <;> simp [hs]

theorem step_drain (sdk : Sdk σ) {e : Nat × HistoryEvent} {es : List (Nat × HistoryEvent)} {rest : List (Frame σ)}
    (hc : m.control = .loop) (hstack : m.stack = .drain (e :: es) :: rest)
    (ht : m.ctx.core.isTerminated = false) (hs : m.ctx.core.isSuspended = false) :
    step sdk m = some (dispatch sdk { m with
      stack := .drain es :: rest, handled := m.handled ++ [e.1] } e.2) := by
  unfold step stepLoop
  rw [hc, hstack]
  dsimp only
  unfold processEvent
  dsimp only
  rw [if_neg (by simp [ht]), if_neg (by simp [hs])]

theorem step_drained {rest : List (Frame σ)} (hc : m.control = .loop)
    (hstack : m.stack = .drain [] :: rest) :
    step sdk m = some { m with hist := { m.hist with suspendedEvents := [] }, stack := rest } := by
  unfold step stepLoop
  rw [hc, hstack]

theorem step_awaited {task : Nat} {dst : Option Nat} {rest : List (Frame σ)}
    (hc : m.control = .loop) (hstack : m.stack = .await task dst :: rest)
    (hcomp : (m.ctx.core.task task).isCompleted = true) :
    step sdk m = some { m with
      stack := rest, control := .returned (awaitResult sdk (m.ctx.core.task task) dst) } := by
  unfold step stepLoop
  rw [hc, hstack]
  exact if_pos hcomp

theorem dispatch_suspend {e : HistoryEvent} (he : isSuspend e = true) :
    dispatch sdk m e =
      { m with
        ctx := { m.ctx with core := { m.ctx.core with isSuspended := true } }
        control := .loop } := by
  rcases e with ⟨eventId, timestamp, body, router, row⟩
  cases body with
  | executionSuspended => rfl
  | _ => cases he

theorem dispatch_resume {e : HistoryEvent} (he : isResume e = true) :
    dispatch sdk m e =
      { m with
        ctx := { m.ctx with core := { m.ctx.core with isSuspended := false } }
        stack := .drain m.hist.suspendedEvents :: m.stack
        control := .loop } := by
  rcases e with ⟨eventId, timestamp, body, router, row⟩
  cases body with
  | executionResumed => rfl
  | _ => cases he

theorem handledWhileSuspended_of_resume {e : HistoryEvent} (he : isResume e = true) :
    handledWhileSuspended e = true := by
  rcases e with ⟨eventId, timestamp, body, router, row⟩
  cases body <;> first | rfl | cases he

theorem handledWhileSuspended_of_plain {e : HistoryEvent} (he : isPlain e = true) :
    handledWhileSuspended e = false ∧ isSuspend e = false ∧ isResume e = false ∧
      isTerminate e = false := by
  rcases e with ⟨eventId, timestamp, body, router, row⟩
  cases body <;> first | exact ⟨rfl, rfl, rfl, rfl⟩ | cases he

theorem resolution_of_not_plain {e : HistoryEvent} (he : isPlain e = false) : e.resolution = none := by
  rcases e with ⟨eventId, timestamp, body, router, row⟩
  cases body <;> first | rfl | cases he

theorem upcoming_eq {e : HistoryEvent} (he : m.hist.events[m.hist.historyIndex]? = some e) :
    m.upcoming = e :: m.hist.events.drop (m.hist.historyIndex + 1) := by
  obtain ⟨hlt, rfl⟩ := List.getElem?_eq_some_iff.mp he
  exact List.drop_eq_getElem_cons hlt

theorem suspendedAfter_of_plain {e : HistoryEvent} (he : isPlain e = true) (suspended : Bool) :
    WorkflowRuntimeState.suspendedAfter suspended e = suspended := by
  obtain ⟨-, hs, hr, -⟩ := handledWhileSuspended_of_plain he
  rw [suspendedAfter_eq, hs, hr]
  simp

theorem suspendedAfter_of_suspend {e : HistoryEvent} (he : isSuspend e = true) (suspended : Bool) :
    WorkflowRuntimeState.suspendedAfter suspended e = true := by
  rcases e with ⟨eventId, timestamp, body, router, row⟩
  cases body <;> first | rfl | cases he

theorem suspendedAfter_of_resume {e : HistoryEvent} (he : isResume e = true) (suspended : Bool) :
    WorkflowRuntimeState.suspendedAfter suspended e = false := by
  rcases e with ⟨eventId, timestamp, body, router, row⟩
  cases body <;> first | rfl | cases he

namespace InTurn

/-- The next event, while no buffer is being drained. -/
theorem next (h : InTurn b T m) {e : HistoryEvent}
    (he : m.hist.events[m.hist.historyIndex]? = some e) :
    isOrdinary e = true ∧ (m.ctx.core.isSuspended = true → isSuspend e = false) ∧
      (∀ e' ∈ m.hist.events.drop (m.hist.historyIndex + 1), isOrdinary e' = true) ∧
      neverSuspendsTwice (WorkflowRuntimeState.suspendedAfter m.ctx.core.isSuspended e)
        (m.hist.events.drop (m.hist.historyIndex + 1)) = true := by
  have hup := upcoming_eq he
  have hord := h.ordinary
  have honce := h.once
  rw [hup] at hord honce
  unfold neverSuspendsTwice at honce
  simp only [Bool.and_eq_true, Bool.not_eq_true', Bool.and_eq_false_iff] at honce
  refine ⟨hord e List.mem_cons_self, fun hs => ?_, fun e' he' => hord e' (List.mem_cons_of_mem _ he'),
    honce.2⟩
  rcases honce.1 with h' | h'
  · rw [hs] at h'
    cases h'
  · exact h'

/-- A drain is not on top of a loop that takes events. -/
theorem normal_of_waits (h : InTurn b T m) (hw : m.Waits) :
    m.drains = [] ∧ (m.ctx.core.isSuspended = false → m.hist.suspendedEvents = []) := by
  cases h.mode with
  | normal drains buffer => exact ⟨drains, buffer⟩
  | draining es rest control stack =>
    have htop := hw.2
    rw [stack] at htop
    rcases htop with h' | ⟨_, _, h', _⟩ <;> cases h'

theorem held_of_normal (hd : m.drains = []) : m.held = m.hist.suspendedEvents := by
  unfold Machine.held
  rw [hd]
  rfl

theorem resolutions_of_waits (h : InTurn b T m) (hw : m.Waits) {e : HistoryEvent}
    (he : m.hist.events[m.hist.historyIndex]? = some e) :
    m.resolutions = (m.hist.suspendedEvents.map Prod.snd ++
      e :: m.hist.events.drop (m.hist.historyIndex + 1)).filterMap HistoryEvent.resolution := by
  unfold resolutions
  rw [held_of_normal (h.normal_of_waits hw).1, upcoming_eq he]

variable {e : HistoryEvent} (h : InTurn b T m) (hw : m.Waits)
  (he : m.hist.events[m.hist.historyIndex]? = some e)

include h hw he

/-- A plain event of a suspended workflow is buffered. -/
theorem buffer (hs : m.ctx.core.isSuspended = true) (hp : isPlain e = true)
    (hm' : m' = { m with
      hist := { m.hist.taken with
        suspendedEvents := m.hist.suspendedEvents ++ [(m.hist.historyIndex, e)] }
      buffered := m.buffered ++ [m.hist.historyIndex]
      control := .loop })
    (hwf : m'.WellFormed) : InTurn b T m' := by
  obtain ⟨-, -, hord, honce⟩ := h.next he
  have hd := (h.normal_of_waits hw).1
  have hheld := held_of_normal hd
  have hd' : m'.drains = [] := by rw [hm']; exact hd
  have hheld' : m'.held = m.hist.suspendedEvents ++ [(m.hist.historyIndex, e)] := by
    rw [held_of_normal hd', hm']
  have hup' : m'.upcoming = m.hist.events.drop (m.hist.historyIndex + 1) := by rw [hm']; rfl
  have hres : m'.resolutions = m.resolutions := by
    rw [h.resolutions_of_waits hw he]
    unfold resolutions
    rw [hheld', hup', List.map_append, List.append_assoc]
    rfl
  rw [suspendedAfter_of_plain hp] at honce
  refine ⟨hwf, hm' ▸ h.errors, hm' ▸ h.terminated, hm' ▸ h.numbered, hup' ▸ hord, ?_, ?_,
    .normal hd' ?_, fun _ => hm' ▸ ⟨rfl, hw.2⟩, hres ▸ h.nodup, hres ▸ h.deliver⟩
  · rw [hup', hm']
    exact honce
  · rw [hheld']
    intro x hx
    rcases List.mem_append.mp hx with hx | hx
    · exact h.held x (hheld ▸ hx)
    · rw [List.mem_singleton.mp hx]
      exact hp
  · rw [hm']
    intro hf
    rw [show m.ctx.core.isSuspended = false from hf] at hs
    cases hs

/-- A suspension. -/
theorem suspend (hs : m.ctx.core.isSuspended = false) (hse : isSuspend e = true)
    (hm' : m' = { m with
      hist := m.hist.taken
      ctx := { m.ctx with core := { m.ctx.core with isSuspended := true } }
      handled := m.handled ++ [m.hist.historyIndex]
      control := .loop })
    (hwf : m'.WellFormed) : InTurn b T m' := by
  obtain ⟨-, -, hord, honce⟩ := h.next he
  obtain ⟨hd, hbuf⟩ := h.normal_of_waits hw
  have hplain : isPlain e = false := by
    by_contra hp
    rw [(handledWhileSuspended_of_plain (by simpa using hp)).2.1] at hse
    cases hse
  have hd' : m'.drains = [] := by rw [hm']; exact hd
  have hheld' : m'.held = m.hist.suspendedEvents := by rw [held_of_normal hd', hm']; rfl
  have hup' : m'.upcoming = m.hist.events.drop (m.hist.historyIndex + 1) := by rw [hm']; rfl
  have hres : m'.resolutions = m.resolutions := by
    rw [h.resolutions_of_waits hw he, List.filterMap_append,
      List.filterMap_cons_none (resolution_of_not_plain hplain), ← List.filterMap_append]
    unfold resolutions
    rw [hheld', hup']
  rw [suspendedAfter_of_suspend hse] at honce
  refine ⟨hwf, hm' ▸ h.errors, hm' ▸ h.terminated, hm' ▸ h.numbered, hup' ▸ hord, ?_, ?_,
    .normal hd' (hm' ▸ nofun), fun _ => hm' ▸ ⟨rfl, hw.2⟩, hres ▸ h.nodup, hres ▸ h.deliver⟩
  · rw [hup', hm']
    exact honce
  · rw [hheld', hbuf hs]
    exact fun x hx => absurd hx List.not_mem_nil

/-- A resumption. -/
theorem resume (hr : isResume e = true)
    (hm' : m' = { m with
      hist := m.hist.taken
      ctx := { m.ctx with core := { m.ctx.core with isSuspended := false } }
      stack := .drain m.hist.suspendedEvents :: m.stack
      handled := m.handled ++ [m.hist.historyIndex]
      control := .loop })
    (hwf : m'.WellFormed) : InTurn b T m' := by
  obtain ⟨-, -, hord, honce⟩ := h.next he
  have hd := (h.normal_of_waits hw).1
  have hplain : isPlain e = false := by
    by_contra hp
    rw [(handledWhileSuspended_of_plain (by simpa using hp)).2.2.1] at hr
    cases hr
  have hheld' : m'.held = m.held := by rw [held_of_normal hd, hm']; rfl
  have hup' : m'.upcoming = m.hist.events.drop (m.hist.historyIndex + 1) := by rw [hm']; rfl
  have hres : m'.resolutions = m.resolutions := by
    rw [h.resolutions_of_waits hw he, List.filterMap_append,
      List.filterMap_cons_none (resolution_of_not_plain hplain), ← List.filterMap_append]
    unfold resolutions
    rw [hheld', hup', held_of_normal hd]
  rw [suspendedAfter_of_resume hr] at honce
  refine ⟨hwf, hm' ▸ h.errors, hm' ▸ h.terminated, hm' ▸ h.numbered, hup' ▸ hord, ?_,
    hheld' ▸ h.held, hm' ▸ .draining _ _ rfl rfl hd rfl, hm' ▸ nofun, hres ▸ h.nodup,
    hres ▸ h.deliver⟩
  rw [hup', hm']
  exact honce

theorem deliver_next {k : Kind × ActionID} (hk : e.resolution = some k) :
    ∃ t, (k.2, ⟨k.1, t⟩) ∈ T := by
  refine h.deliver k ?_
  rw [h.resolutions_of_waits hw he, List.filterMap_append, List.filterMap_cons_some hk]
  exact List.mem_append_right _ List.mem_cons_self

/-- A plain event of a workflow that is not suspended. -/
theorem plain (hs : m.ctx.core.isSuspended = false) (hp : isPlain e = true) {env : SdkEnv}
    (hm' : m' = { m with
      hist := m.hist.taken.noteVersion e
      ctx := { m.ctx with
        core := m.ctx.core.handlePlain env T e
        pend := m.ctx.pend.handlePlain e }
      handled := m.handled ++ [m.hist.historyIndex]
      control := .loop })
    (hwf : m'.WellFormed) : InTurn b (settle T e) m' := by
  obtain ⟨-, -, hord, honce⟩ := h.next he
  obtain ⟨hd, hbuf⟩ := h.normal_of_waits hw
  obtain ⟨es, hn⟩ := h.numbered
  have hflags : m'.ctx.core.flags = m.ctx.core.flags := by rw [hm']; exact flags_handlePlain ..
  have hs' : m'.ctx.core.isSuspended = false := (congrArg Flags.isSuspended hflags).trans hs
  have hd' : m'.drains = [] := by rw [hm']; exact hd
  have hnil' : m'.hist.suspendedEvents = [] := by rw [hm']; exact (noteVersion_frame _ e).2.1.trans (hbuf hs)
  have hheld' : m'.held = [] := by rw [held_of_normal hd', hnil']
  have hup' : m'.upcoming = m.hist.events.drop (m.hist.historyIndex + 1) := by
    rw [hm']
    exact (noteVersion_frame _ e).1
  have hres := h.resolutions_of_waits hw he
  rw [hbuf hs, List.map_nil, List.nil_append] at hres
  have hres' : m'.resolutions =
      (m.hist.events.drop (m.hist.historyIndex + 1)).filterMap HistoryEvent.resolution := by
    unfold resolutions
    rw [hheld', hup']
    rfl
  have hsettle := settle_deliver hn.nodup (hres ▸ h.nodup) (hres ▸ h.deliver)
  rw [suspendedAfter_of_plain hp, hs] at honce
  refine ⟨hwf, hm' ▸ h.errors, (congrArg Flags.isTerminated hflags).trans h.terminated,
    ⟨es, hm' ▸ hn.handlePlain fun k hk => h.deliver_next hw he hk⟩, hup' ▸ hord, ?_,
    fun x hx => ?_, .normal hd' fun _ => hnil', fun hc => ?_, hres' ▸ hsettle.1, hres' ▸ hsettle.2⟩
  · rw [hup', hs']
    exact honce
  · rw [hheld'] at hx
    cases hx
  · rw [hs'] at hc
    cases hc

end InTurn

namespace InTurn

/-- What holds while a buffer is being drained. -/
theorem draining_of_stack (h : InTurn b T m) {es : List (Nat × HistoryEvent)} {rest : List (Frame σ)}
    (hstack : m.stack = .drain es :: rest) :
    m.control = .loop ∧ rest.filterMap Frame.drained = [] ∧ m.ctx.core.isSuspended = false ∧
      m.held = es := by
  have hdrains : m.drains = es :: rest.filterMap Frame.drained := by
    unfold drains
    rw [hstack]
    rfl
  cases h.mode with
  | normal drains =>
    rw [hdrains] at drains
    cases drains
  | draining es' rest' control stack rest_drains suspended =>
    rw [hstack] at stack
    cases stack
    refine ⟨control, rest_drains, suspended, ?_⟩
    unfold Machine.held
    rw [hdrains]
    rfl

/-- An event that was buffered during suspension. -/
theorem drain (h : InTurn b T m) {e : Nat × HistoryEvent} {es : List (Nat × HistoryEvent)}
    {rest : List (Frame σ)} (hstack : m.stack = .drain (e :: es) :: rest) {env : SdkEnv}
    (hm' : m' = { m with
      hist := m.hist.noteVersion e.2
      ctx := { m.ctx with
        core := m.ctx.core.handlePlain env T e.2
        pend := m.ctx.pend.handlePlain e.2 }
      stack := .drain es :: rest
      handled := m.handled ++ [e.1]
      control := .loop })
    (hwf : m'.WellFormed) : InTurn b (settle T e.2) m' := by
  obtain ⟨-, hrest, hs, hheld⟩ := h.draining_of_stack hstack
  obtain ⟨ns, hn⟩ := h.numbered
  have hflags : m'.ctx.core.flags = m.ctx.core.flags := by rw [hm']; exact flags_handlePlain ..
  have hs' : m'.ctx.core.isSuspended = false := (congrArg Flags.isSuspended hflags).trans hs
  have hheld' : m'.held = es := by
    unfold Machine.held drains
    rw [hm']
    rfl
  have hup' : m'.upcoming = m.upcoming := by rw [hm']; exact (noteVersion_frame _ e.2).1
  have hres : m.resolutions =
      (e.2 :: (es.map Prod.snd ++ m.upcoming)).filterMap HistoryEvent.resolution := by
    unfold resolutions
    rw [hheld]
    rfl
  have hres' : m'.resolutions =
      (es.map Prod.snd ++ m.upcoming).filterMap HistoryEvent.resolution := by
    unfold resolutions
    rw [hheld', hup']
  have hsettle := settle_deliver hn.nodup (hres ▸ h.nodup) (hres ▸ h.deliver)
  refine ⟨hwf, hm' ▸ h.errors, (congrArg Flags.isTerminated hflags).trans h.terminated,
    ⟨ns, hm' ▸ hn.handlePlain fun k hk => h.deliver k ?_⟩, hup' ▸ h.ordinary, ?_,
    fun x hx => ?_, .draining es rest (hm' ▸ rfl) (hm' ▸ rfl) hrest hs', fun hc => ?_,
    hres' ▸ hsettle.1, hres' ▸ hsettle.2⟩
  · rw [hres, List.filterMap_cons_some hk]
    exact List.mem_cons_self
  · rw [hup', hs', ← hs]
    exact h.once
  · rw [hheld'] at hx
    exact h.held x (hheld ▸ List.mem_cons_of_mem _ hx)
  · rw [hs'] at hc
    cases hc

/-- The end of the buffer. -/
theorem drained (h : InTurn b T m) {rest : List (Frame σ)} (hstack : m.stack = .drain [] :: rest)
    (hm' : m' = { m with hist := { m.hist with suspendedEvents := [] }, stack := rest })
    (hwf : m'.WellFormed) : InTurn b T m' := by
  obtain ⟨-, hrest, hs, hheld⟩ := h.draining_of_stack hstack
  have hd' : m'.drains = [] := by rw [hm']; exact hrest
  have hheld' : m'.held = m.held := by rw [held_of_normal hd', hheld, hm']
  have hup' : m'.upcoming = m.upcoming := by rw [hm']; rfl
  have hs' : m'.ctx.core.isSuspended = false := by rw [hm']; exact hs
  have hres : m'.resolutions = m.resolutions := by
    unfold resolutions
    rw [hheld', hup']
  refine ⟨hwf, hm' ▸ h.errors, hm' ▸ h.terminated, hm' ▸ h.numbered, hup' ▸ h.ordinary, ?_,
    hheld' ▸ h.held, .normal hd' fun _ => hm' ▸ rfl, fun hc => ?_, hres ▸ h.nodup, hres ▸ h.deliver⟩
  · rw [hup', hs', ← hs]
    exact h.once
  · rw [hs'] at hc
    cases hc

/-- Steps that take no event while none is being drained. -/
theorem quiet (h : InTurn b T m) (hd : m.drains = []) (hhist : m'.hist = m.hist)
    (hflags : m'.ctx.core.suspension = m.ctx.core.suspension) (hd' : m'.drains = [])
    (herr : m'.errors = m.errors) (hs : m.ctx.core.isSuspended = false)
    (hnum : ∃ es, Numbered m'.ctx.pend b es T) (hwf : m'.WellFormed) : InTurn b T m' := by
  have hs' : m'.ctx.core.isSuspended = m.ctx.core.isSuspended := congrArg Prod.fst hflags
  have hheld : m'.held = m.held := by rw [held_of_normal hd', held_of_normal hd, hhist]
  have hup : m'.upcoming = m.upcoming := by
    unfold upcoming
    rw [hhist]
  have hres : m'.resolutions = m.resolutions := by
    unfold resolutions
    rw [hheld, hup]
  have hbuf : m.hist.suspendedEvents = [] := by
    cases h.mode with
    | normal _ buffer => exact buffer hs
    | draining es rest control stack =>
      unfold drains at hd
      rw [stack] at hd
      cases hd
  refine ⟨hwf, herr.trans h.errors, (congrArg Prod.snd hflags).trans h.terminated, hnum,
    hup ▸ h.ordinary, ?_, hheld ▸ h.held, .normal hd' fun _ => hhist ▸ hbuf, fun hc => ?_,
    hres ▸ h.nodup, hres ▸ h.deliver⟩
  · rw [hup, hs']
    exact h.once
  · rw [hs', hs] at hc
    cases hc

end InTurn

/-! ### Steps -/

/-- What a step does in a replay that has only ordinary events before it. -/
inductive TurnStep (sdk : Sdk σ) (T : List (ActionID × PendingTask)) (m m' : Machine σ) : Prop
  | code (inCode : m.inCode = true)
  | awaited (task : Nat) (dst : Option Nat) (rest : List (Frame σ)) (control : m.control = .loop)
    (stack : m.stack = .await task dst :: rest)
    (completed : (m.ctx.core.task task).isCompleted = true)
    (eq : m' = { m with
      stack := rest
      control := .returned (awaitResult sdk (m.ctx.core.task task) dst) })
  | buffer (e : HistoryEvent) (waits : m.Waits)
    (next : m.hist.events[m.hist.historyIndex]? = some e)
    (suspended : m.ctx.core.isSuspended = true) (isPlain : isPlain e = true)
    (eq : m' = { m with
      hist := { m.hist.taken with
        suspendedEvents := m.hist.suspendedEvents ++ [(m.hist.historyIndex, e)] }
      buffered := m.buffered ++ [m.hist.historyIndex]
      control := .loop })
  | suspend (e : HistoryEvent) (waits : m.Waits)
    (next : m.hist.events[m.hist.historyIndex]? = some e)
    (suspended : m.ctx.core.isSuspended = false) (isSuspend : isSuspend e = true)
    (eq : m' = { m with
      hist := m.hist.taken
      ctx := { m.ctx with core := { m.ctx.core with isSuspended := true } }
      handled := m.handled ++ [m.hist.historyIndex]
      control := .loop })
  | resume (e : HistoryEvent) (waits : m.Waits)
    (next : m.hist.events[m.hist.historyIndex]? = some e) (isResume : isResume e = true)
    (eq : m' = { m with
      hist := m.hist.taken
      ctx := { m.ctx with core := { m.ctx.core with isSuspended := false } }
      stack := .drain m.hist.suspendedEvents :: m.stack
      handled := m.handled ++ [m.hist.historyIndex]
      control := .loop })
  | plain (e : HistoryEvent) (waits : m.Waits)
    (next : m.hist.events[m.hist.historyIndex]? = some e)
    (suspended : m.ctx.core.isSuspended = false) (isPlain : isPlain e = true)
    (eq : m' = { m with
      hist := m.hist.taken.noteVersion e
      ctx := { m.ctx with
        core := m.ctx.core.handlePlain sdk.env T e
        pend := m.ctx.pend.handlePlain e }
      handled := m.handled ++ [m.hist.historyIndex]
      control := .loop })
  | terminate (et : ExecutionTerminatedEvent) (waits : m.Waits)
    (eq : m' = { m with
      hist := m.hist.taken
      ctx := m.ctx.onExecutionTerminated et
      handled := m.handled ++ [m.hist.historyIndex]
      control := .loop })
  | drain (e : Nat × HistoryEvent) (es : List (Nat × HistoryEvent)) (rest : List (Frame σ))
    (stack : m.stack = .drain (e :: es) :: rest)
    (eq : m' = { m with
      hist := m.hist.noteVersion e.2
      ctx := { m.ctx with
        core := m.ctx.core.handlePlain sdk.env T e.2
        pend := m.ctx.pend.handlePlain e.2 }
      stack := .drain es :: rest
      handled := m.handled ++ [e.1]
      control := .loop })
  | drained (rest : List (Frame σ)) (stack : m.stack = .drain [] :: rest)
    (eq : m' = { m with hist := { m.hist with suspendedEvents := [] }, stack := rest })

namespace InTurn

theorem step_next (h : InTurn b T m) (hw : m.Waits) (hs : step sdk m = some m') :
    TurnStep sdk T m m' := by
  cases he : m.hist.events[m.hist.historyIndex]? with
  | none =>
    rw [step_of_waits hw] at hs
    unfold processNextEvent Hist.getNextHistoryEvent at hs
    rw [he] at hs
    cases hs
  | some e =>
    obtain ⟨hord, htwice, -, -⟩ := h.next he
    cases hp : isPlain e with
    | true =>
      cases hsus : m.ctx.core.isSuspended with
      | true =>
        rw [step_buffer hw he h.terminated hsus (handledWhileSuspended_of_plain hp).1] at hs
        exact .buffer e hw he hsus hp (Option.some.inj hs).symm
      | false =>
        obtain ⟨es, hn⟩ := h.numbered
        rw [step_dispatch sdk hw he h.terminated (.inl hsus), dispatch_of_plain (T := T)
          (m := { m with hist := m.hist.taken, handled := m.handled ++ [m.hist.historyIndex] })
          hn hp fun k hk => h.deliver_next hw he hk] at hs
        exact .plain e hw he hsus hp (Option.some.inj hs).symm
    | false =>
      rcases e with ⟨eventId, timestamp, body, router, row⟩
      cases body with
      | executionSuspended input =>
        have hsus : m.ctx.core.isSuspended = false := by
          by_contra hc
          cases htwice (by simpa using hc)
        rw [step_dispatch sdk hw he h.terminated (.inl hsus)] at hs
        exact .suspend _ hw he hsus rfl (Option.some.inj hs).symm
      | executionResumed input =>
        rw [step_dispatch sdk hw he h.terminated (.inr rfl)] at hs
        exact .resume _ hw he rfl (Option.some.inj hs).symm
      | executionTerminated et =>
        rw [step_dispatch sdk hw he h.terminated (.inr rfl)] at hs
        exact .terminate et hw (Option.some.inj hs).symm
      | _ =>
        first
        | exact absurd (show true = false from hp) Bool.false_ne_true.symm
        | exact absurd (show false = true from hord) Bool.false_ne_true

/-- Every step is one of those. -/
theorem turnStep (h : InTurn b T m) (hs : step sdk m = some m') : TurnStep sdk T m m' := by
  have hwf := h.wellFormed
  unfold WellFormed at hwf
  cases hc : m.control with
  | run s => exact .code (by unfold inCode; rw [hc])
  | returned r => exact .code (by unfold inCode; rw [hc])
  | raised err =>
    rw [hc] at hwf
    exact absurd h.errors hwf.2
  | done =>
    rw [hc] at hwf
    exact absurd h.errors hwf
  | loop =>
    rw [hc] at hwf
    cases hst : m.stack with
    | nil => rw [hst] at hwf; cases hwf
    | cons f rest =>
      cases f with
      | start => exact h.step_next ⟨hc, .inl (by rw [hst]; rfl)⟩ hs
      | await task dst =>
        cases hcomp : (m.ctx.core.task task).isCompleted with
        | false => exact h.step_next ⟨hc, .inr ⟨task, dst, by rw [hst]; rfl, hcomp⟩⟩ hs
        | true =>
          rw [step_awaited hc hst hcomp] at hs
          exact .awaited task dst rest hc hst hcomp (Option.some.inj hs).symm
      | drain es =>
        obtain ⟨-, -, hsus, hheld⟩ := h.draining_of_stack hst
        cases es with
        | nil =>
          rw [step_drained hc hst] at hs
          exact .drained rest hst (Option.some.inj hs).symm
        | cons e es =>
          obtain ⟨ns, hn⟩ := h.numbered
          have hp := h.held e (by rw [hheld]; exact List.mem_cons_self)
          rw [step_drain sdk hc hst h.terminated hsus, dispatch_of_plain (T := T)
            (m := { m with stack := .drain es :: rest, handled := m.handled ++ [e.1] }) hn hp] at hs
          · exact .drain e es rest hst (Option.some.inj hs).symm
          · intro k hk
            refine h.deliver k ?_
            unfold resolutions
            rw [hheld, List.map_cons, List.cons_append, List.filterMap_cons_some hk]
            exact List.mem_cons_self
      | _ => rw [hst] at hwf; cases hwf

end InTurn

theorem amend_of_drains {fs : List (Frame σ)} (v : Recording)
    (h : fs.filterMap Frame.drained = []) : fs.map (Frame.amend v) = fs := by
  refine (List.map_congr_left fun f hf => ?_).trans (List.map_id fs)
  refine Frame.amend_of_isDrain v ?_
  have hnone := List.filterMap_eq_nil_iff.mp h f hf
  cases f <;> first | rfl | cases hnone

/-- What the pending actions are once the workflow has ended. -/
structure Ended (b : ActionID) (p : Pending) : Prop where
  nodup : (p.pendingActions.map Prod.fst).Nodup
  bound : ∀ x ∈ p.pendingActions, b ≤ x.1
  ids : ∀ x ∈ p.pendingActions, x.2.action.id = x.1
  completion : ∃ x ∈ p.pendingActions, x.2.action.completionStatus.isSome = true

theorem ended_setCompleteInternal {c : Ctx} (hnodup : (c.pend.pendingActions.map Prod.fst).Nodup)
    (hbound : ∀ x ∈ c.pend.pendingActions, b ≤ x.1 ∧ x.1 < c.pend.sequenceNumber)
    (hids : ∀ x ∈ c.pend.pendingActions, x.2.action.id = x.1) (hseq : b ≤ c.pend.sequenceNumber)
    (raw : Option String) (status : OrchestrationStatus) (fd : Option TaskFailureDetails) :
    Ended b (c.setCompleteInternal raw status fd).pend := by
  have hnew : c.pend.sequenceNumber ∉ c.pend.pendingActions.map Prod.fst := by
    intro hmem
    obtain ⟨x, hx, hkey⟩ := List.mem_map.mp hmem
    exact absurd (hkey ▸ (hbound x hx).2) (Int.lt_irrefl _)
  simp only [Ctx.setCompleteInternal, Pending.addAction]
  refine ⟨?_, ?_, ?_, ?_⟩ <;> simp only <;> rw [Assoc.insert_of_notMem hnew]
  · rw [List.map_append]
    exact hnodup.append (List.nodup_singleton _) (by simpa [List.disjoint_singleton] using hnew)
  · intro x hx
    rcases List.mem_append.mp hx with hx | hx
    · exact (hbound x hx).1
    · rw [List.mem_singleton.mp hx]
      exact hseq
  · intro x hx
    rcases List.mem_append.mp hx with hx | hx
    · exact hids x hx
    · rw [List.mem_singleton.mp hx]
  · exact ⟨_, List.mem_append_right _ (List.mem_singleton.mpr rfl), rfl⟩

theorem ended_terminated {c : Ctx} {es : List Entry} (hn : Numbered c.pend b es T)
    (et : ExecutionTerminatedEvent) : Ended b (c.onExecutionTerminated et).pend := by
  have hnodup : (c.pend.pendingActions.map Prod.fst).Nodup := by
    rw [hn.keys]
    exact Number.nodup_number b es
  have hbound : ∀ x ∈ c.pend.pendingActions, b ≤ x.1 ∧ x.1 < c.pend.sequenceNumber := by
    intro x hx
    rw [hn.sequenceNumber]
    exact hn.key_bounds hx
  have hseq : b ≤ c.pend.sequenceNumber := by
    rw [hn.sequenceNumber]
    unfold ActionID at *
    omega
  unfold Ctx.onExecutionTerminated
  dsimp only
  split
  · refine ended_setCompleteInternal (c := Ctx.removeAction _ _) (Assoc.erase_nodup hnodup)
      (fun x hx => ?_) (fun x hx => ?_) hseq _ _ _
    · exact hbound x (Assoc.mem_erase.mp hx).1
    · exact hn.ids x (Assoc.mem_erase.mp hx).1
  · next id st _ hsome =>
    refine ⟨hnodup, fun x hx => (hbound x hx).1, hn.ids, ?_⟩
    obtain ⟨x, hx, hst⟩ := List.exists_of_findSome?_eq_some hsome
    refine ⟨x, hx, ?_⟩
    obtain ⟨st', hst', -⟩ := Option.map_eq_some_iff.mp hst
    rw [hst']
    rfl
  · exact ended_setCompleteInternal (c := { c with core := _ }) hnodup hbound hn.ids hseq _ _ _

/-- After a termination the rest of the events is taken and dropped. -/
structure Terminated (b : ActionID) (m : Machine σ) : Prop where
  errors : m.errors = []
  terminated : m.ctx.core.isTerminated = true
  waits : m.Waits
  ended : Ended b m.ctx.pend

namespace InTurn

/-- While workflow code runs nothing is buffered. -/
theorem code_quiet (h : InTurn b T m) (hcode : m.inCode = true) :
    m.held = [] ∧ m.drains = [] ∧ m.ctx.core.isSuspended = false := by
  have hloop : m.control ≠ .loop := by
    intro hl
    unfold inCode at hcode
    rw [hl] at hcode
    cases hcode
  have hsus : m.ctx.core.isSuspended = false := by
    by_contra hsus
    exact hloop (h.waits (by simpa using hsus)).1
  cases h.mode with
  | normal drains buffer => exact ⟨(held_of_normal drains).trans (buffer hsus), drains, hsus⟩
  | draining es rest control => exact absurd control hloop

theorem step_code (h : InTurn b T m) (hcode : m.inCode = true) (hs : step sdk m = some m') :
    InTurn b T m' := by
  have hc := Machine.step_code hcode hs
  obtain ⟨-, hd, hsus⟩ := h.code_quiet hcode
  obtain ⟨es, hn⟩ := h.numbered
  have hrefl : CodeSim ⟨0, none⟩ true b T m m :=
    ⟨⟨rfl, fun _ => rfl, es, hn, hn⟩, rfl, (amend_of_drains _ hd).symm, rfl⟩
  obtain ⟨m₂, hm₂, hsim⟩ := codeSim_step hrefl (Sdks.refl sdk) hcode hs (fun _ _ _ => rfl) nofun
  obtain ⟨es', -, hn'⟩ := hsim.ctx.numbered
  rw [hs] at hm₂
  cases hm₂
  exact h.quiet hd hc.hist hc.ctx.suspension (hc.drains.trans hd) hc.errors hsus ⟨es', hn'⟩
    (wellFormed_step h.wellFormed hs)

theorem core_terminated (c : Ctx) (et : ExecutionTerminatedEvent) :
    (c.onExecutionTerminated et).core = { c.core with isTerminated := true } := by
  unfold Ctx.onExecutionTerminated
  dsimp only
  split <;> rfl

theorem terminated_of_terminate {et : ExecutionTerminatedEvent}
    (eq : m' = { m with
      hist := m.hist.taken
      ctx := m.ctx.onExecutionTerminated et
      handled := m.handled ++ [m.hist.historyIndex]
      control := .loop }) : m'.ctx.core.isTerminated = true := by
  rw [eq]
  exact congrArg Core.isTerminated (core_terminated m.ctx et)

/-- A step keeps the invariant, with the tasks an event leaves to be resolved, or terminates. -/
theorem step (h : InTurn b T m) (hs : Machine.step sdk m = some m') :
    (∃ T', InTurn b T' m' ∧ (T' = T ∨ ∃ e ∈ m.held.map Prod.snd ++ m.upcoming, T' = settle T e)) ∨
      Terminated b m' := by
  have hwf := wellFormed_step h.wellFormed hs
  cases h.turnStep hs with
  | code inCode => exact .inl ⟨T, h.step_code inCode hs, .inl rfl⟩
  | awaited task dst rest control stack completed eq =>
    have hsus : m.ctx.core.isSuspended = false := by
      by_contra hsus
      rcases (h.waits (by simpa using hsus)).2 with htop | ⟨_, _, htop, hinc⟩
      · rw [stack] at htop
        cases htop
      · rw [stack] at htop
        cases htop
        rw [completed] at hinc
        cases hinc
    have hd : m.drains = [] := by
      cases h.mode with
      | normal drains => exact drains
      | draining es rest' control' stack' => rw [stack] at stack'; cases stack'
    have hd' : m'.drains = [] := by
      unfold drains at hd ⊢
      rw [stack] at hd
      rw [eq]
      exact hd
    exact .inl ⟨T, h.quiet hd (eq ▸ rfl) (eq ▸ rfl) hd' (eq ▸ rfl) hsus (eq ▸ h.numbered) hwf, .inl rfl⟩
  | buffer e waits next suspended isPlain eq =>
    exact .inl ⟨T, h.buffer waits next suspended isPlain eq hwf, .inl rfl⟩
  | suspend e waits next suspended isSuspend eq =>
    exact .inl ⟨T, h.suspend waits next suspended isSuspend eq hwf, .inl rfl⟩
  | resume e waits next isResume eq =>
    exact .inl ⟨T, h.resume waits next isResume eq hwf, .inl rfl⟩
  | plain e waits next suspended isPlain eq =>
    refine .inl ⟨settle T e, h.plain waits next suspended isPlain eq hwf, .inr ⟨e, ?_, rfl⟩⟩
    rw [upcoming_eq next]
    exact List.mem_append_right _ List.mem_cons_self
  | terminate et waits eq =>
    obtain ⟨es, hn⟩ := h.numbered
    have hterm := core_terminated m.ctx et
    refine .inr ⟨eq ▸ h.errors, terminated_of_terminate eq, ?_, eq ▸ ended_terminated hn et⟩
    · rw [eq]
      refine ⟨rfl, waits.2.imp_right ?_⟩
      rintro ⟨task, dst, htop, hinc⟩
      refine ⟨task, dst, htop, ?_⟩
      dsimp only
      rw [hterm]
      exact hinc
  | drain e es rest stack eq =>
    refine .inl ⟨settle T e.2, h.drain stack eq hwf, .inr ⟨e.2, ?_, rfl⟩⟩
    rw [(h.draining_of_stack stack).2.2.2]
    exact List.mem_append_left _ List.mem_cons_self
  | drained rest stack eq => exact .inl ⟨T, h.drained stack eq hwf, .inl rfl⟩

end InTurn

theorem Terminated.step (h : Terminated b m) (hs : Machine.step sdk m = some m') :
    Terminated b m' := by
  rw [step_of_waits h.waits] at hs
  cases he : m.hist.events[m.hist.historyIndex]? with
  | none =>
    unfold processNextEvent Hist.getNextHistoryEvent at hs
    rw [he] at hs
    cases hs
  | some e =>
    rw [processNextEvent_eq he] at hs
    have hdrop : processEvent sdk { m with hist := m.hist.taken } (m.hist.historyIndex, e) =
        { m with hist := m.hist.taken, control := .loop } := by
      unfold processEvent
      exact if_pos h.terminated
    rw [hdrop] at hs
    cases hs
    exact ⟨h.errors, h.terminated, ⟨rfl, h.waits.2⟩, h.ended⟩

/-! ### Bookkeeping over a turn -/

/-- Where the buffered events come from, that suspension follows the history, and what became of the
tasks `T₀` that were to be resolved when the turn began. -/
structure Accounts (T₀ T : List (ActionID × PendingTask)) (m : Machine σ) : Prop where
  origin : ∀ x ∈ m.held, m.hist.events[x.1]? = some x.2
  order : (m.held.map Prod.fst).Pairwise (· < ·)
  bound : ∀ x ∈ m.held, x.1 < m.hist.historyIndex
  index : m.hist.historyIndex ≤ m.hist.events.length
  suspension : m.ctx.core.isSuspended =
    (m.hist.events.take m.hist.historyIndex).foldl WorkflowRuntimeState.suspendedAfter false
  settled : ∀ x ∈ T₀, x ∈ T ∨ (x.2.kind, x.1) ∈ m.hist.events.filterMap HistoryEvent.resolution

/-- A step takes no event, or the next one of the history. -/
theorem InTurn.held_step (h : InTurn b T m) (hs : Machine.step sdk m = some m')
    (hterm : m'.ctx.core.isTerminated = false) :
    m'.hist.events = m.hist.events ∧
      ((m'.held.Sublist m.held ∧ m'.hist.historyIndex = m.hist.historyIndex ∧
        m'.ctx.core.isSuspended = m.ctx.core.isSuspended) ∨
      ∃ e, m.hist.events[m.hist.historyIndex]? = some e ∧
        m'.held.Sublist (m.held ++ [(m.hist.historyIndex, e)]) ∧
        m'.hist.historyIndex = m.hist.historyIndex + 1 ∧
        m'.ctx.core.isSuspended =
          WorkflowRuntimeState.suspendedAfter m.ctx.core.isSuspended e) := by
  have hflags (T : List (ActionID × PendingTask)) (e : HistoryEvent) :
      (m.ctx.core.handlePlain sdk.env T e).isSuspended = m.ctx.core.isSuspended :=
    congrArg Flags.isSuspended (flags_handlePlain sdk.env T m.ctx.core e)
  have hnormal (hw : m.Waits) : m.held = m.hist.suspendedEvents ∧ m.drains = [] :=
    ⟨held_of_normal (h.normal_of_waits hw).1, (h.normal_of_waits hw).1⟩
  cases h.turnStep hs with
  | code inCode =>
    have hc := Machine.step_code inCode hs
    refine ⟨by rw [hc.hist], .inl ⟨?_, by rw [hc.hist], congrArg Prod.fst hc.ctx.suspension⟩⟩
    unfold Machine.held
    rw [hc.drains, hc.hist]
  | awaited task dst rest control stack completed eq =>
    refine ⟨by rw [eq], .inl ⟨?_, by rw [eq], by rw [eq]⟩⟩
    unfold Machine.held drains
    rw [eq, stack]
    exact List.Sublist.refl _
  | buffer e waits next suspended isPlain eq =>
    refine ⟨by rw [eq]; rfl, .inr ⟨e, next, ?_, by rw [eq]; rfl, ?_⟩⟩
    · rw [(hnormal waits).1, held_of_normal (m := m') (by rw [eq]; exact (hnormal waits).2), eq]
    · rw [suspendedAfter_of_plain isPlain, eq]
  | suspend e waits next suspended isSuspend eq =>
    refine ⟨by rw [eq]; rfl, .inr ⟨e, next, ?_, by rw [eq]; rfl, ?_⟩⟩
    · rw [(hnormal waits).1, held_of_normal (m := m') (by rw [eq]; exact (hnormal waits).2), eq]
      exact List.sublist_append_left _ _
    · rw [suspendedAfter_of_suspend isSuspend, eq]
  | resume e waits next isResume eq =>
    refine ⟨by rw [eq]; rfl, .inr ⟨e, next, ?_, by rw [eq]; rfl, ?_⟩⟩
    · rw [(hnormal waits).1, eq]
      exact List.sublist_append_left _ _
    · rw [suspendedAfter_of_resume isResume, eq]
  | plain e waits next suspended isPlain eq =>
    refine ⟨?_, .inr ⟨e, next, ?_, ?_, ?_⟩⟩
    · rw [eq]; exact (noteVersion_frame _ e).2.2.1
    · rw [(hnormal waits).1, held_of_normal (m := m') (by rw [eq]; exact (hnormal waits).2), eq]
      rw [(noteVersion_frame _ e).2.1]
      exact List.sublist_append_left _ _
    · rw [eq]; exact (noteVersion_frame _ e).2.2.2
    · rw [suspendedAfter_of_plain isPlain, eq]
      exact hflags T e
  | terminate et waits eq =>
    have hcontra := (terminated_of_terminate eq).symm.trans hterm
    cases hcontra
  | drain e es rest stack eq =>
    refine ⟨?_, .inl ⟨?_, ?_, ?_⟩⟩
    · rw [eq]; exact (noteVersion_frame _ e.2).2.2.1
    · rw [(h.draining_of_stack stack).2.2.2, eq]
      exact List.sublist_cons_self e es
    · rw [eq]; exact (noteVersion_frame _ e.2).2.2.2
    · rw [eq]; exact hflags T e.2
  | drained rest stack eq =>
    refine ⟨by rw [eq]; rfl, .inl ⟨?_, by rw [eq], by rw [eq]⟩⟩
    rw [held_of_normal (m := m') (by rw [eq]; exact (h.draining_of_stack stack).2.1), eq]
    exact List.nil_sublist _

/-- The buffered and the upcoming events are events of the history. -/
theorem Accounts.mem {T₀ : List (ActionID × PendingTask)} (ha : Accounts T₀ T m) {e : HistoryEvent}
    (he : e ∈ m.held.map Prod.snd ++ m.upcoming) : e ∈ m.hist.events := by
  rcases List.mem_append.mp he with he | he
  · obtain ⟨x, hx, rfl⟩ := List.mem_map.mp he
    exact List.mem_of_getElem? (ha.origin x hx)
  · exact List.mem_of_mem_drop he

theorem Accounts.settle {T₀ : List (ActionID × PendingTask)} (ha : Accounts T₀ T m)
    (hT : (T.map Prod.fst).Nodup) {e : HistoryEvent} (he : e ∈ m.hist.events)
    (hdel : ∀ k, e.resolution = some k → ∃ t, (k.2, ⟨k.1, t⟩) ∈ T) {x : ActionID × PendingTask}
    (hx : x ∈ T₀) : x ∈ Task.settle T e ∨
      (x.2.kind, x.1) ∈ m.hist.events.filterMap HistoryEvent.resolution := by
  rcases ha.settled x hx with hx | hx
  · unfold Task.settle
    cases hres : e.resolution with
    | none => exact .inl hx
    | some k =>
      by_cases hid : x.1 = k.2
      · obtain ⟨t, ht⟩ := hdel k hres
        have hget := Assoc.get?_of_mem hT ht
        rw [← hid, Assoc.get?_of_mem hT (show (x.1, x.2) ∈ T from hx)] at hget
        refine .inr (List.mem_filterMap.mpr ⟨e, he, ?_⟩)
        rw [hres, Option.some.inj hget, hid]
      · exact .inl (Assoc.mem_erase.mpr ⟨hx, hid⟩)
  · exact .inr hx

/-- Both invariants, over a step. -/
theorem accounts_step {T₀ : List (ActionID × PendingTask)} (h : InTurn b T m) (ha : Accounts T₀ T m)
    (hs : step sdk m = some m') :
    (∃ T', InTurn b T' m' ∧ Accounts T₀ T' m') ∨ Terminated b m' := by
  refine (h.step hs).imp_left ?_
  rintro ⟨T', h', hT'⟩
  obtain ⟨hev, hheld⟩ := h.held_step hs h'.terminated
  have hsettled : ∀ x ∈ T₀, x ∈ T' ∨
      (x.2.kind, x.1) ∈ m'.hist.events.filterMap HistoryEvent.resolution := by
    intro x hx
    rw [hev]
    rcases hT' with rfl | ⟨e, he, rfl⟩
    · exact ha.settled x hx
    · obtain ⟨es, hn⟩ := h.numbered
      refine ha.settle hn.nodup (ha.mem he) (fun k hk => h.deliver k ?_) hx
      exact List.mem_filterMap.mpr ⟨e, he, hk⟩
  refine ⟨T', h', ?_⟩
  rcases hheld with ⟨hsub, hidx, hsus⟩ | ⟨e, he, hsub, hidx, hsus⟩
  · refine ⟨fun x hx => hev ▸ ha.origin x (hsub.subset hx), ha.order.sublist (hsub.map _),
      fun x hx => hidx ▸ ha.bound x (hsub.subset hx), ?_, ?_, hsettled⟩
    · rw [hev, hidx]
      exact ha.index
    · rw [hsus, hev, hidx]
      exact ha.suspension
  · have hmem {x : Nat × HistoryEvent} (hx : x ∈ m'.held) :
        x ∈ m.held ∨ x = (m.hist.historyIndex, e) := by
      simpa using hsub.subset hx
    refine ⟨fun x hx => ?_, ?_, fun x hx => ?_, ?_, ?_, hsettled⟩
    · rw [hev]
      rcases hmem hx with hx | rfl
      · exact ha.origin x hx
      · exact he
    · refine List.Pairwise.sublist (hsub.map _) ?_
      rw [List.map_append]
      refine List.pairwise_append.mpr ⟨ha.order, List.pairwise_singleton _ _, ?_⟩
      intro i hi j hj
      obtain ⟨x, hx, rfl⟩ := List.mem_map.mp hi
      rw [List.mem_singleton.mp hj]
      exact ha.bound x hx
    · rw [hidx]
      rcases hmem hx with hx | rfl
      · exact Nat.lt_succ_of_lt (ha.bound x hx)
      · exact Nat.lt_succ_self _
    · rw [hev, hidx]
      exact (List.getElem?_eq_some_iff.mp he).1
    · rw [hsus, hev, hidx, ha.suspension, List.take_add_one, he, List.foldl_append]
      rfl

end Machine

end DurableTask.Task
