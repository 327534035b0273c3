import DurableTask.Task.Acts
import DurableTask.Task.Suspension

/-!
# Events in order

A replay of a history without a suspension handles the events in the order of the history, each once,
up to a termination.
-/

namespace DurableTask.Task

/-! ### What is handled -/

/-- An event that arrives is a resolution, and one that is raised has the name of the act. -/
def Act.Sound (env : SdkEnv) : Act → Prop
  | .arrived e => e.resolution.isSome = true
  | .raised key e => ∃ er, e.eventType = .eventRaised er ∧ key = env.toUpper er.name
  | _ => True

theorem Act.Sound.of_isInternal {env : SdkEnv} {a : Act} (ha : a.isInternal = true) : a.Sound env := by
  cases a <;> trivial

theorem Ctx.Acts.sound {env : SdkEnv} {h : Hist} {c c' : Ctx} {acts : List Act}
    (hacts : Ctx.Acts env h c acts c') : ∀ a ∈ acts, a.Sound env := by
  induction hacts with
  | append _ _ ih ih' =>
    intro a ha
    rcases List.mem_append.mp ha with ha | ha
    · exact ih a ha
    · exact ih' a ha
  | register c actionType router kind =>
    exact fun a ha => .of_isInternal (isInternal_registerActs _ _ _ _ a ha)
  | waitForSingleEvent c eventName timeout =>
    exact fun a ha => .of_isInternal (isInternal_waitActs _ _ _ a ha)
  | scheduleNewWorkflow c workflowName opts =>
    intro a ha
    unfold spawnActs at ha
    split at ha
    · split at ha
      · rw [List.mem_singleton.mp ha]
        trivial
      · cases ha
    · cases ha
  | onResolution c k e he =>
    intro a ha
    rcases List.mem_cons.mp ha with rfl | ha
    · exact Option.isSome_iff_exists.mpr ⟨k, he⟩
    · exact .of_isInternal (isInternal_resolutionActs _ _ _ a ha)
  | onExternalEventRaised c e er he =>
    intro a ha
    rw [List.mem_singleton.mp ha]
    exact ⟨er, he, rfl⟩
  | confirmTimer c id => exact fun a ha => .of_isInternal (isInternal_consumeReadyActs _ a ha)
  | dropOptionalTimer c atID hopt =>
    exact fun a ha => .of_isInternal (isInternal_consumeForActs _ _ a ha)
  | _ => exact fun a ha => absurd ha List.not_mem_nil

namespace Machine

variable {σ : Type} {sdk : Sdk σ} {m m' : Machine σ} {acts acts' : List Act}
  {events : List HistoryEvent}

theorem Replays.sound {m₀ : Machine σ} (h : Replays sdk m₀ acts m) : ∀ a ∈ acts, a.Sound sdk.env := by
  induction h with
  | nil => exact fun a ha => absurd ha List.not_mem_nil
  | step _ _ hdoes ih =>
    intro a ha
    rcases List.mem_append.mp ha with ha | ha
    · exact ih a ha
    · exact hdoes.ctx.sound a ha

/-! ### The order -/

/-- The workflow is not suspended and no event is kept for later. -/
structure Active (events : List HistoryEvent) (m : Machine σ) : Prop where
  hist : m.hist.events = events
  active : m.ctx.core.isSuspended = false
  buffer : m.hist.suspendedEvents = []
  drains : ∀ es ∈ m.drains, es = []

/-- The events handled so far are those of the history, up to a termination. -/
structure InOrder (events : List HistoryEvent) (acts : List Act) (m : Machine σ) : Prop
    extends Active events m where
  handled : m.ctx.core.isTerminated = false →
    acts.filterMap Act.event? = (events.take m.hist.historyIndex).filter isInput
  isPrefix : acts.filterMap Act.event? <+: (events.take m.hist.historyIndex).filter isInput
  running : (∀ e ∈ events, isTerminate e = false) → m.ctx.core.isTerminated = false

theorem drains_of_stack {f : Frame σ} {rest : List (Frame σ)} (hstack : m.stack = f :: rest)
    (h : ∀ es ∈ m.drains, es = []) : ∀ es ∈ rest.filterMap Frame.drained, es = [] := by
  intro es hes
  refine h es ?_
  unfold drains
  rw [hstack]
  obtain ⟨g, hg, hd⟩ := List.mem_filterMap.mp hes
  exact List.mem_filterMap.mpr ⟨g, List.mem_cons_of_mem _ hg, hd⟩

/-- Handling an event that is not a suspension. -/
theorem Active.dispatch (sdk : Sdk σ) (hm : Active events m) {e : HistoryEvent}
    (hs : isSuspend e = false) :
    Active events (Machine.dispatch sdk m e) ∧
      (Machine.dispatch sdk m e).hist.historyIndex = m.hist.historyIndex ∧
      (isTerminate e = false →
        (Machine.dispatch sdk m e).ctx.core.isTerminated = m.ctx.core.isTerminated) := by
  by_cases hr : isResume e = true
  · rcases e with ⟨eventId, timestamp, body, router, row⟩
    cases body with
    | executionResumed reason =>
      refine ⟨⟨hm.hist, rfl, hm.buffer, ?_⟩, rfl, fun _ => rfl⟩
      show ∀ es ∈ m.hist.suspendedEvents :: m.drains, es = []
      intro es hes
      rcases List.mem_cons.mp hes with rfl | hes
      · exact hm.buffer
      · exact hm.drains es hes
    | _ => cases hr
  · by_cases ht : isTerminate e = true
    · rcases e with ⟨eventId, timestamp, body, router, row⟩
      cases body with
      | executionTerminated et =>
        refine ⟨⟨hm.hist, ?_, hm.buffer, hm.drains⟩, rfl, fun hfalse => absurd hfalse Bool.noConfusion⟩
        have hflag : (m.ctx.onExecutionTerminated et).core.isSuspended = m.ctx.core.isSuspended := by
          unfold Ctx.onExecutionTerminated
          dsimp only
          split <;> rfl
        exact hflag.trans hm.active
      | _ => cases ht
    · have hplain := plain_dispatch sdk m hs (Bool.not_eq_true _ ▸ hr) (Bool.not_eq_true _ ▸ ht)
      have hflags := Core.suspension_of_flags hplain.flags
      refine ⟨⟨hplain.events.trans hm.hist, (congrArg Prod.fst hflags).trans hm.active,
        hplain.suspendedEvents.trans hm.buffer, ?_⟩, hplain.historyIndex, fun _ => congrArg Prod.snd hflags⟩
      unfold Machine.drains
      rw [hplain.stack]
      exact hm.drains

/-- A step that handles no event. -/
theorem InOrder.idle (hm : InOrder events acts m) (hactive : Active events m')
    (hindex : m'.hist.historyIndex = m.hist.historyIndex)
    (hterm : m'.ctx.core.isTerminated = m.ctx.core.isTerminated)
    (hdoes : Does sdk m acts' m') (hnone : m.handling = none) : InOrder events (acts ++ acts') m' := by
  have hevents : (acts ++ acts').filterMap Act.event? = acts.filterMap Act.event? := by
    rw [List.filterMap_append, hdoes.events, hnone]
    exact List.append_nil _
  refine ⟨hactive, fun ht => ?_, ?_, fun hrun => hterm.trans (hm.running hrun)⟩
  · rw [hevents, hindex]
    exact hm.handled (hterm.symm.trans ht)
  · rw [hevents, hindex]
    exact hm.isPrefix

/-- The next event of the history. -/
theorem InOrder.next (hm : InOrder events acts m) (hsusp : ∀ e ∈ events, isSuspend e = false)
    {hist : Hist} {e : HistoryEvent} (hhist : hist.events = events) (hbuffer : hist.suspendedEvents = [])
    (hindex : hist.historyIndex = m.hist.historyIndex + 1) (he : events[m.hist.historyIndex]? = some e)
    (hevents : acts'.filterMap Act.event? =
      (if m.ctx.core.isTerminated then none else some e).toList.filter isInput) :
    InOrder events (acts ++ acts')
      (Machine.processEvent sdk { m with hist := hist } (m.hist.historyIndex, e)) := by
  have htake : (events.take (m.hist.historyIndex + 1)).filter isInput =
      (events.take m.hist.historyIndex).filter isInput ++ [e].filter isInput := by
    rw [List.take_add_one, he, List.filter_append]
    rfl
  unfold Machine.processEvent
  dsimp only
  cases ht : m.ctx.core.isTerminated with
  | true =>
    rw [ht, if_pos rfl] at hevents
    rw [if_pos rfl]
    refine ⟨⟨hhist, hm.active, hbuffer, hm.drains⟩, fun hfalse => ?_, ?_, hm.running⟩
    · exact absurd (ht.symm.trans hfalse) Bool.noConfusion
    · rw [List.filterMap_append, hevents, hindex, htake]
      exact (List.append_nil _).symm ▸ hm.isPrefix.trans (List.prefix_append _ _)
  | false =>
    rw [ht, if_neg Bool.false_ne_true] at hevents
    rw [if_neg Bool.false_ne_true, if_neg (by simp [hm.active])]
    have hactive : Active events
        ({ m with hist := hist, handled := m.handled ++ [m.hist.historyIndex] } : Machine σ) :=
      ⟨hhist, hm.active, hbuffer, hm.drains⟩
    have hmem := List.mem_of_getElem? he
    obtain ⟨hactive, hsame, hterm⟩ := hactive.dispatch sdk (hsusp e hmem)
    have hall : (acts ++ acts').filterMap Act.event? =
        (events.take (m.hist.historyIndex + 1)).filter isInput := by
      rw [List.filterMap_append, hevents, hm.handled ht, htake]
      rfl
    have hindex := hsame.trans hindex
    refine ⟨hactive, fun _ => ?_, ?_, fun hrun => (hterm (hrun e hmem)).trans ht⟩
    · rw [hall, hindex]
    · exact ⟨[], by rw [List.append_nil, hall, hindex]⟩

theorem InOrder.step (hm : InOrder events acts m) (hsusp : ∀ e ∈ events, isSuspend e = false)
    (h : Machine.step sdk m = some m') (hdoes : Does sdk m acts' m') :
    InOrder events (acts ++ acts') m' := by
  cases step_cases h with
  | code hcode h =>
    have hstep := step_code hcode h
    have hflags := hstep.ctx.suspension
    refine hm.idle ⟨by rw [hstep.hist, hm.hist], (congrArg Prod.fst hflags).trans hm.active,
      by rw [hstep.hist, hm.buffer], hstep.drains ▸ hm.drains⟩ (by rw [hstep.hist])
      (congrArg Prod.snd hflags) hdoes ?_
    simp [handling, taken_of_inCode hcode]
  | @next e hwaits he =>
    have hevents := hdoes.events
    unfold handling at hevents
    rw [taken_of_waits hwaits he, Option.bind_some, hm.active, Bool.false_and,
      Bool.or_false] at hevents
    exact hm.next hsusp hm.hist hm.buffer rfl (hm.hist ▸ he) hevents
  | @drain e es rest hc hst =>
    have hnil := hm.drains (e :: es) (by simp [Machine.drains, hst, Frame.drained])
    cases hnil
  | drained hc hst =>
    exact hm.idle ⟨hm.hist, hm.active, rfl, drains_of_stack hst hm.drains⟩ rfl rfl hdoes
      (by simp [handling, taken, hc, hst])
  | awaited hc hst hdone =>
    exact hm.idle ⟨hm.hist, hm.active, hm.buffer, drains_of_stack hst hm.drains⟩ rfl rfl hdoes
      (by simp [handling, taken, hc, hst, hdone])
  | abandoned hc hst =>
    exact hm.idle ⟨hm.hist, hm.active, hm.buffer, drains_of_stack hst hm.drains⟩ rfl rfl hdoes
      (by simp [handling, taken, hc])
  | failed hc hst =>
    exact hm.idle ⟨hm.hist, hm.active, hm.buffer, drains_of_stack hst hm.drains⟩ rfl rfl hdoes
      (by simp [handling, taken, hc])
  | @ended err rest hc hst =>
    have hcore : (m.ctx.onStartError err).core = m.ctx.core := by
      unfold Ctx.onStartError
      split <;> rfl
    refine hm.idle ⟨hm.hist, ?_, hm.buffer, hm.drains⟩ rfl (congrArg Core.isTerminated hcore) hdoes
      (by simp [handling, taken, hc])
    rw [← hm.active]
    exact congrArg Core.isSuspended hcore

theorem InOrder.init (id : InstanceID) (oldEvents newEvents : List HistoryEvent) :
    InOrder (oldEvents ++ newEvents) [] (Machine.init (σ := σ) id oldEvents newEvents) := by
  refine ⟨⟨rfl, rfl, rfl, fun es hes => ?_⟩, fun _ => rfl, List.nil_prefix, fun _ => rfl⟩
  cases hes

/-- Along a whole replay of a history without a suspension. -/
theorem Replays.inOrder {id : InstanceID} {oldEvents newEvents : List HistoryEvent}
    (hsusp : ∀ e ∈ oldEvents ++ newEvents, isSuspend e = false)
    (h : Replays sdk (Machine.init id oldEvents newEvents) acts m) :
    InOrder (oldEvents ++ newEvents) acts m := by
  induction h with
  | nil => exact .init id oldEvents newEvents
  | step _ hstep hdoes ih => exact ih.step hsusp hstep hdoes

end Machine

end DurableTask.Task
