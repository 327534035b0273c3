import DurableTask.Task.Steps

/-!
# The shape of the stack

Which frame can be on top of which: the loops that take events (`start`, `Await`, the drain of
`onExecutionResumed`) call each other through workflow code. A replay that halts without an error has
therefore taken the whole history (`consumed_of_halted`).
-/

namespace DurableTask.Task

variable {σ : Type}

/-- Stacks whose top frame is a loop that takes events (`true`), or one that waits for an `Await` to
return (`false`). -/
def Frame.chain : Bool → List (Frame σ) → Bool
  | true, [.start] => true
  | true, .drain _ :: fs => Frame.chain true fs
  | true, .await _ _ :: fs => Frame.chain false fs
  | false, .code _ :: fs => Frame.chain true fs
  | false, .retryAttempt _ _ :: fs => Frame.chain false fs
  | false, .retryTimer _ _ _ :: fs => Frame.chain false fs
  | false, .wrapperDelegate _ _ :: fs => Frame.chain false fs
  | false, .wrapperTimer _ _ _ _ :: fs => Frame.chain false fs
  | _, _ => false

namespace Machine

variable {sdk : Sdk σ} {m m' : Machine σ}

/-- The stack fits what happens next, and an error is on record once one was raised. -/
def WellFormed (m : Machine σ) : Prop :=
  match m.control with
  | .run _ | .loop => Frame.chain true m.stack = true
  | .returned _ => Frame.chain false m.stack = true
  | .raised _ => Frame.chain true m.stack = true ∧ m.errors ≠ []
  | .done => m.errors ≠ []

theorem wellFormed_init (id : InstanceID) (oldEvents newEvents : List HistoryEvent) :
    (init id oldEvents newEvents : Machine σ).WellFormed := rfl

/-! ### Workflow code -/

theorem wellFormed_awaitRetry (r : Nat) (dst : Option Nat) (h : Frame.chain false m.stack = true) :
    (m.awaitRetry r dst).WellFormed := by
  unfold awaitRetry
  dsimp only
  split
  · split <;> exact h
  · exact h

theorem wellFormed_onRetryFailure (r : Nat) (dst : Option Nat) (err : AwaitError)
    (h : Frame.chain false m.stack = true) : (onRetryFailure sdk m r dst err).WellFormed := by
  have hobs : ∀ t, Frame.chain false (m.observeFailure r t).stack = true := by
    intro t
    unfold observeFailure
    split <;> exact h
  unfold onRetryFailure
  dsimp only
  split
  · exact h
  · split
    · exact hobs _
    · split <;> exact hobs _

theorem wellFormed_onWrapperFailure (w : Nat) (dst : Option Nat) (err : AwaitError)
    (h : Frame.chain false m.stack = true) : (onWrapperFailure sdk m w dst err).WellFormed := by
  unfold onWrapperFailure
  dsimp only
  split
  · exact h
  · split <;> exact h

theorem wellFormed_doCall (call : Call) (k : Resp → σ) (h : Frame.chain true m.stack = true) :
    (doCall sdk m call k).WellFormed := by
  cases call with
  | await task dst =>
    cases task with
    | completable t => exact h
    | retry r => exact wellFormed_awaitRetry r dst h
    | wrapper w => exact h
  | _ => exact h

theorem wellFormed_stepReturned {r : AwaitResult} (hm : Frame.chain false m.stack = true)
    (hr : m.control = .returned r) (h : stepReturned sdk m r = some m') : m'.WellFormed := by
  rcases m with ⟨hist, ctx, control, stack, trace, errors, handled, buffered⟩
  dsimp only at hm hr
  subst hr
  unfold stepReturned at h
  dsimp only at h
  split at h
  · cases h; exact hm
  · cases r <;> cases h
    · exact wellFormed_onRetryFailure _ _ _ hm
    · exact hm
  · cases r <;> cases h
    · exact hm
    · exact wellFormed_awaitRetry _ _ hm
  · cases r <;> cases h
    · exact wellFormed_onWrapperFailure _ _ _ hm
    · exact hm
  · cases r <;> cases h
    · exact hm
    · exact hm
  · cases h

/-! ### Events -/

theorem wellFormed_raise (err : ProcessError) (h : Frame.chain true m.stack = true) :
    (m.raise err).WellFormed := ⟨h, by simp [raise]⟩

theorem wellFormed_handle (r : Except ProcessError Ctx) (h : Frame.chain true m.stack = true) :
    (m.handle r).WellFormed := by
  cases r with
  | ok c => exact h
  | error err => exact wellFormed_raise err h

theorem wellFormed_dispatch (e : HistoryEvent) (h : Frame.chain true m.stack = true) :
    (dispatch sdk m e).WellFormed := by
  unfold dispatch
  split
  case h_2 es =>
    unfold onExecutionStarted
    split
    · exact wellFormed_raise _ h
    · exact h
  all_goals first
    | exact wellFormed_handle _ h
    | exact wellFormed_raise _ h
    | exact h

theorem wellFormed_processEvent (e : Nat × HistoryEvent) (h : Frame.chain true m.stack = true) :
    (processEvent sdk m e).WellFormed := by
  unfold processEvent
  split
  · exact h
  · split
    · exact h
    · exact wellFormed_dispatch _ h

theorem wellFormed_processNextEvent (hm : Frame.chain true m.stack = true)
    (h : processNextEvent sdk m = some m') : m'.WellFormed := by
  unfold processNextEvent at h
  obtain ⟨⟨e, hist⟩, -, rfl⟩ := Option.map_eq_some_iff.mp h
  exact wellFormed_processEvent e hm

theorem wellFormed_stepLoop (hm : Frame.chain true m.stack = true) (hc : m.control = .loop)
    (h : stepLoop sdk m = some m') : m'.WellFormed := by
  rcases m with ⟨hist, ctx, control, stack, trace, errors, handled, buffered⟩
  dsimp only at hc
  subst hc
  unfold stepLoop at h
  dsimp only at h hm
  split at h
  · exact wellFormed_processNextEvent hm h
  · split at h
    · cases h; exact hm
    · exact wellFormed_processNextEvent hm h
  · cases h; exact wellFormed_processEvent _ hm
  · cases h; exact hm
  · cases h

theorem wellFormed_stepRaised {err : ProcessError} (hm : Frame.chain true m.stack = true)
    (he : m.errors ≠ []) (hc : m.control = .raised err) (h : stepRaised m err = some m') :
    m'.WellFormed := by
  rcases m with ⟨hist, ctx, control, stack, trace, errors, handled, buffered⟩
  dsimp only at hc
  subst hc
  unfold stepRaised at h
  dsimp only at h hm
  split at h
  · cases h; exact ⟨hm, he⟩
  · cases h; exact hm
  · cases h; exact he
  · cases h

theorem wellFormed_step (hm : m.WellFormed) (h : step sdk m = some m') : m'.WellFormed := by
  unfold WellFormed at hm
  unfold step at h
  cases hc : m.control with
  | run s =>
    simp only [hc] at h hm
    split at h <;> cases h
    · exact hm
    · exact wellFormed_doCall _ _ hm
  | returned r =>
    simp only [hc] at h hm
    exact wellFormed_stepReturned hm hc h
  | loop =>
    simp only [hc] at h hm
    exact wellFormed_stepLoop hm hc h
  | raised err =>
    simp only [hc] at h hm
    exact wellFormed_stepRaised hm.1 hm.2 hc h
  | done => simp [hc] at h

/-- The end of a replay without errors: a loop that takes events has none left. -/
structure Blocked (m : Machine σ) : Prop where
  control : m.control = .loop
  top : m.stack.head? = some .start ∨
    ∃ task dst, m.stack.head? = some (.await task dst) ∧ (m.ctx.core.task task).isCompleted = false
  consumed : m.hist.events.length ≤ m.hist.historyIndex

theorem consumed_of_processNextEvent (h : processNextEvent sdk m = none) :
    m.hist.events.length ≤ m.hist.historyIndex := by
  simpa [processNextEvent, Hist.getNextHistoryEvent] using h

theorem stepReturned_isSome (sdk : Sdk σ) (r : AwaitResult) (hm : Frame.chain false m.stack = true) :
    (stepReturned sdk m r).isSome = true := by
  rcases m with ⟨hist, ctx, control, stack, trace, errors, handled, buffered⟩
  unfold stepReturned
  cases stack with
  | nil => cases hm
  | cons f fs => cases f <;> first | cases hm | (cases r <;> rfl)

/-- A halted replay without errors has taken all events. -/
theorem blocked_of_halted (hm : m.WellFormed) (herr : m.errors = []) (h : step sdk m = none) :
    m.Blocked := by
  unfold WellFormed at hm
  unfold step at h
  cases hc : m.control with
  | run s =>
    simp only [hc] at h
    split at h <;> cases h
  | returned r =>
    simp only [hc] at h hm
    have hsome := stepReturned_isSome sdk r hm
    rw [h] at hsome
    cases hsome
  | raised err =>
    simp only [hc] at hm
    exact absurd herr hm.2
  | done =>
    simp only [hc] at hm
    exact absurd herr hm
  | loop =>
    simp only [hc] at h hm
    unfold stepLoop at h
    split at h
    · next hs => exact ⟨hc, Or.inl (by rw [hs]; rfl), consumed_of_processNextEvent h⟩
    · next task dst rest hs =>
      dsimp only at h
      split at h
      · cases h
      · next ht =>
        exact ⟨hc, Or.inr ⟨task, dst, by rw [hs]; rfl, by simpa using ht⟩,
          consumed_of_processNextEvent h⟩
    · cases h
    · cases h
    · next h₁ h₂ h₃ h₄ =>
      cases hs : m.stack with
      | nil => rw [hs] at hm; cases hm
      | cons f fs =>
        cases f with
        | start => exact absurd hs (h₁ fs)
        | await task dst => exact absurd hs (h₂ task dst fs)
        | drain es =>
          cases es with
          | nil => exact absurd hs (h₄ fs)
          | cons e es => exact absurd hs (h₃ e es fs)
        | _ => rw [hs] at hm; cases hm

/-- The replays of `start` from the beginning. -/
theorem wellFormed_of_reaches {id : InstanceID} {oldEvents newEvents : List HistoryEvent}
    (h : Transition.Reaches (step sdk) (init id oldEvents newEvents) m) : m.WellFormed :=
  h.invariant (wellFormed_init ..) fun _ _ hx hs => wellFormed_step hx hs

end Machine

end DurableTask.Task
