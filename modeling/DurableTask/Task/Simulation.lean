import DurableTask.Task.Batch
import DurableTask.Task.Patches

/-!
# Two replays in step: events

A turn and a later replay of it. The later one reads a longer history, in which the version recorded
after the turn stands in the turn's `WorkflowStarted` event. Both take the same steps: the patches of
that version are in force wherever the turn itself decided for them at the end of its history. The
same relation holds of two releases that replay the same history, with nothing recorded.
-/

namespace DurableTask.Task

/-! ### Events as a later replay sees them -/

namespace Recording

variable {v : Recording} {i : Nat} {e : HistoryEvent}

theorem amend_fst (v : Recording) (e : Nat × HistoryEvent) : (v.amend e).1 = e.1 := by
  unfold amend
  split <;> rfl

theorem amend_of_ne (h : i ≠ v.position) : v.amend (i, e) = (i, e) := if_neg h

theorem amend_position :
    v.amend (v.position, e) = (v.position, { e with eventType := .workflowStarted v.version }) :=
  if_pos rfl

/-- Nothing but the recorded version tells the two apart. -/
theorem amend_spec (hstart : i = v.position → e.eventType = .workflowStarted none) :
    isPlain (v.amend (i, e)).2 = isPlain e ∧ isSuspend (v.amend (i, e)).2 = isSuspend e ∧
      isResume (v.amend (i, e)).2 = isResume e ∧
      (v.amend (i, e)).2.resolution = e.resolution ∧
      (∀ env T c, Core.handlePlain env T c (v.amend (i, e)).2 = Core.handlePlain env T c e) ∧
      ∀ p : Pending, p.handlePlain (v.amend (i, e)).2 = p.handlePlain e := by
  by_cases h : i = v.position
  · have hs := hstart h
    subst h
    rw [amend_position]
    rcases e with ⟨eventId, timestamp, body, router, row⟩
    cases hs
    exact ⟨rfl, rfl, rfl, rfl, fun _ _ _ => rfl, fun _ => rfl⟩
  · rw [amend_of_ne h]
    exact ⟨rfl, rfl, rfl, rfl, fun _ _ _ => rfl, fun _ => rfl⟩

/-- The patches of the recorded version. -/
def patches (v : Recording) : List String := (v.version.getD {}).patches

end Recording

theorem mem_noteVersion_patches (h : Hist) (e : HistoryEvent) (p : String) :
    p ∈ (h.noteVersion e).historyPatches ↔ p ∈ h.historyPatches ∨
      ∃ version, e.eventType = .workflowStarted version ∧ p ∈ (version.getD {}).patches := by
  unfold Hist.noteVersion
  split
  · next version hversion =>
    rw [List.mem_append, hversion]
    simp
  · next hne =>
    refine ⟨.inl, ?_⟩
    rintro (hp | ⟨version, hversion, -⟩)
    · exact hp
    · exact absurd hversion (hne version)

theorem Core.handlePlain_engines {same : Bool} {env env' : SdkEnv} (henv : Engines same env env')
    (T : List (ActionID × PendingTask)) (c : Core) (e : HistoryEvent) :
    c.handlePlain env' T e = c.handlePlain env T e := by
  unfold Core.handlePlain Ctx.onExternalEventRaised
  rw [henv.toUpper]

theorem Pending.handlePlain_allocated (p : Pending) (e : HistoryEvent) :
    (p.handlePlain e).allocated = p.allocated := by
  unfold Pending.handlePlain Pending.resolve
  split
  · dsimp only
    split <;> rfl
  · rfl

namespace Machine

variable {σ : Type} {v : Recording} {same : Bool} {b : ActionID}
  {T : List (ActionID × PendingTask)} {sdk sdk' : Sdk σ} {m m' m₂ : Machine σ}

/-- The event at a position was not handled yet. -/
def Awaits (n : Nat) (m : Machine σ) : Prop := n ∈ m.held.map Prod.fst ∨ m.hist.historyIndex ≤ n

/-- A turn `m` and a later replay `m'` of it, or two replays of the same history. -/
structure TurnSim (v : Recording) (same : Bool) (b : ActionID) (T : List (ActionID × PendingTask))
    (m m' : Machine σ) : Prop where
  turn : InTurn b T m
  accounts : Accounts [] T m
  code : CodeSim v same b T m m'
  errors : m'.errors = []
  index : m'.hist.historyIndex = m.hist.historyIndex
  suspended : m'.hist.suspendedEvents = m.hist.suspendedEvents.map v.amend
  later : v.position < m.hist.events.length ∧ m.hist.events.length < m'.hist.events.length ∨
    m.hist.events.length ≤ v.position ∧ m'.hist.events.length = m.hist.events.length
  upcoming : ∀ i e, m.hist.historyIndex ≤ i → m.hist.events[i]? = some e →
    m'.hist.events[i]? = some (v.amend (i, e)).2
  started : ∀ e, m.hist.events[v.position]? = some e → e.eventType = .workflowStarted none
  patches : ∀ p, p ∈ m'.hist.historyPatches ↔
    p ∈ m.hist.historyPatches ∨ p ∈ v.patches ∧ ¬m.Awaits v.position

namespace TurnSim

theorem start_of_eq (h : TurnSim v same b T m m') {i : Nat} {e : HistoryEvent}
    (he : m.hist.events[i]? = some e) (hi : i = v.position) : e.eventType = .workflowStarted none :=
  h.started e (hi ▸ he)

theorem waits (h : TurnSim v same b T m m') (hw : m.Waits) : m'.Waits := by
  refine ⟨h.code.control.trans hw.1, ?_⟩
  have hcore := h.code.ctx.core
  have htop : ∀ f : Frame σ, f.isDrain = false → m.stack.head? = some f → m'.stack.head? = some f := by
    intro f hf htop
    rw [h.code.stack, List.head?_map, htop, Option.map_some, Frame.amend_of_isDrain v hf]
  rcases hw.2 with h' | ⟨task, dst, h', hinc⟩
  · exact .inl (htop _ rfl h')
  · exact .inr ⟨task, dst, htop _ rfl h', by rw [hcore]; exact hinc⟩

theorem next (h : TurnSim v same b T m m') {e : HistoryEvent}
    (he : m.hist.events[m.hist.historyIndex]? = some e) :
    m'.hist.events[m'.hist.historyIndex]? = some (v.amend (m.hist.historyIndex, e)).2 := by
  rw [h.index]
  exact h.upcoming _ e (Nat.le_refl _) he

theorem terminated (h : TurnSim v same b T m m') : m'.ctx.core.isTerminated = false := by
  rw [h.code.ctx.core]
  exact h.turn.terminated

/-- What is left to show of a step of both. -/
theorem of_step {T₂ : List (ActionID × PendingTask)} {m₂' : Machine σ} (h : TurnSim v same b T m m')
    (hturn : InTurn b T₂ m₂) (hacc : Accounts [] T₂ m₂)
    (T' : List (ActionID × PendingTask)) (hcode : CodeSim v same b T' m₂ m₂')
    (herr : m₂'.errors = m'.errors) (hev : m₂.hist.events = m.hist.events)
    (hev' : m₂'.hist.events = m'.hist.events)
    (hidx : m₂'.hist.historyIndex = m₂.hist.historyIndex)
    (hle : m.hist.historyIndex ≤ m₂.hist.historyIndex)
    (hsus : m₂'.hist.suspendedEvents = m₂.hist.suspendedEvents.map v.amend)
    (hpatches : ∀ p, p ∈ m₂'.hist.historyPatches ↔
      p ∈ m₂.hist.historyPatches ∨ p ∈ v.patches ∧ ¬m₂.Awaits v.position) :
    TurnSim v same b T₂ m₂ m₂' := by
  have hT : T' = T₂ := by
    obtain ⟨es, hn, -⟩ := hcode.ctx.numbered
    obtain ⟨es', hn'⟩ := hturn.numbered
    exact hn.tasks_unique hn'
  subst hT
  refine ⟨hturn, hacc, hcode, herr.trans h.errors, hidx, hsus, ?_, fun i e hi he => ?_, ?_, hpatches⟩
  · rw [hev, hev']
    exact h.later
  · rw [hev'] 
    rw [hev] at he
    exact h.upcoming i e (Nat.le_trans hle hi) he
  · rw [hev]
    exact h.started

/-- The patches when neither history notes any and the same event is awaited. -/
theorem patches_of_frame {m₂' : Machine σ} (h : TurnSim v same b T m m')
    (hp : m₂.hist.historyPatches = m.hist.historyPatches)
    (hp' : m₂'.hist.historyPatches = m'.hist.historyPatches)
    (hawaits : m₂.Awaits v.position ↔ m.Awaits v.position) (p : String) :
    p ∈ m₂'.hist.historyPatches ↔
      p ∈ m₂.hist.historyPatches ∨ p ∈ v.patches ∧ ¬m₂.Awaits v.position := by
  rw [hp, hp', hawaits]
  exact h.patches p

/-- Workflow code finds the same decisions about patches: those of the turn are among the recorded
patches exactly if it decided for them. -/
theorem agree (h : TurnSim v same b T m m') (hcode : m.inCode = true) (hs : step sdk m = some m₂)
    {m₃ : Machine σ} (hend : Transition.Reaches (step sdk) m₂ m₃)
    (hv : ∀ p, p ∈ v.patches ↔ p ∈ m₃.ctx.core.encounteredPatches)
    (hrec : m.ctx.core.PatchesRecorded) :
    Ctx.Aligned.Agree m.hist m'.hist m.ctx m₂.ctx := by
  intro patchName hnone hsome
  obtain ⟨patched, hget⟩ := Option.isSome_iff_exists.mp hsome
  have hdec := decides_step hs
  have hmade := hdec.made patchName patched hnone hget
  have hiff := decided_of_reaches hend hget (hdec.recorded hrec)
  rw [← hv, hmade] at hiff
  have hidx := h.index
  have hbound := h.accounts.index
  have hiff' := h.patches patchName
  cases hd : Ctx.decision m.hist patchName with
  | true =>
    have hmem := hiff.mp hd
    unfold Ctx.decision at hd ⊢
    rw [Bool.or_eq_true, List.contains_iff_mem, decide_eq_true_eq] at hd ⊢
    rcases hd with hp | hlen
    · exact .inl (hiff'.mpr (.inl hp))
    · rcases h.later with ⟨hlt, -⟩ | ⟨-, heq⟩
      · -- At the end of its history the turn has handled every event.
        refine .inl (hiff'.mpr (.inr ⟨hmem, ?_⟩))
        obtain ⟨hheld, -⟩ := h.turn.code_quiet hcode
        rintro (hw | hw)
        · rw [hheld] at hw
          cases hw
        · omega
      · exact .inr (by omega)
  | false =>
    have hnot : patchName ∉ v.patches := fun hmem => by
      have := hiff.mpr hmem
      rw [hd] at this
      cases this
    unfold Ctx.decision at hd ⊢
    rw [Bool.or_eq_false_iff] at hd ⊢
    obtain ⟨hnp, hlen⟩ := hd
    rw [decide_eq_false_iff_not] at hlen
    have hlen' : ¬m'.hist.events.length ≤ m'.hist.historyIndex := by
      rcases h.later with ⟨-, hlt⟩ | ⟨-, heq⟩ <;> omega
    refine ⟨?_, decide_eq_false hlen'⟩
    rw [← Bool.not_eq_true, List.contains_iff_mem] at hnp ⊢
    exact fun hmem => (hiff'.mp hmem).elim hnp fun hv => hnot hv.1

/-- An event that is not the start of the turn, and leaves the buffer alone. -/
theorem awaits_taken (h : TurnSim v same b T m m') {e : HistoryEvent} (he : m.hist.events[m.hist.historyIndex]? = some e)
    (hp : isPlain e = false) (hheld : m₂.held = m.held)
    (hidx : m₂.hist.historyIndex = m.hist.historyIndex + 1) :
    m₂.Awaits v.position ↔ m.Awaits v.position := by
  have hne : m.hist.historyIndex ≠ v.position := by
    intro heq
    have hstart := h.start_of_eq he heq
    unfold isPlain at hp
    rw [hstart] at hp
    cases hp
  unfold Awaits
  rw [hheld, hidx]
  exact or_congr Iff.rfl (by omega)

section Steps

variable {T₂ : List (ActionID × PendingTask)} (h : TurnSim v same b T m m')
  (hturn : InTurn b T₂ m₂) (hacc : Accounts [] T₂ m₂)

include h hturn hacc

theorem step_code (hsdk : Sdks same sdk sdk') (hcode : m.inCode = true) (hs : step sdk m = some m₂)
    {m₃ : Machine σ} (hend : Transition.Reaches (step sdk) m₂ m₃)
    (hv : ∀ p, p ∈ v.patches ↔ p ∈ m₃.ctx.core.encounteredPatches)
    (hrec : m.ctx.core.PatchesRecorded)
    (hfinite : same = false → ∀ s eventName timeout k, m.control = .run s →
      sdk.next s = .call (.waitForSingleEvent eventName timeout) k →
      Ctx.Aligned.Finite m.ctx timeout) :
    ∃ m₂', step sdk' m' = some m₂' ∧ TurnSim v same b T₂ m₂ m₂' := by
  obtain ⟨m₂', hs', hsim⟩ := codeSim_step h.code hsdk hcode hs (h.agree hcode hs hend hv hrec) hfinite
  have hc := Machine.step_code hcode hs
  have hcode' : m'.inCode = true := by
    unfold inCode at hcode ⊢
    rw [h.code.control]
    exact hcode
  have hc' := Machine.step_code hcode' hs'
  refine ⟨m₂', hs', h.of_step hturn hacc _ hsim hc'.errors (by rw [hc.hist]) (by rw [hc'.hist])
    (by rw [hc.hist, hc'.hist, h.index]) (by rw [hc.hist]) (by rw [hc.hist, hc'.hist, h.suspended]) ?_⟩
  refine h.patches_of_frame (by rw [hc.hist]) (by rw [hc'.hist]) ?_
  unfold Awaits held
  rw [hc.drains, hc.hist]

theorem step_awaited (hsdk : Sdks same sdk sdk') {task : Nat} {dst : Option Nat}
    {rest : List (Frame σ)} (control : m.control = .loop) (stack : m.stack = .await task dst :: rest)
    (completed : (m.ctx.core.task task).isCompleted = true)
    (eq : m₂ = { m with
      stack := rest
      control := .returned (awaitResult sdk (m.ctx.core.task task) dst) }) :
    ∃ m₂', step sdk' m' = some m₂' ∧ TurnSim v same b T₂ m₂ m₂' := by
  have hcore := h.code.ctx.core
  have hstack' : m'.stack = .await task dst :: rest.map (Frame.amend v) := by
    rw [h.code.stack, stack]
    rfl
  have hresult : awaitResult sdk' (m'.ctx.core.task task) dst =
      awaitResult sdk (m.ctx.core.task task) dst := by
    unfold awaitResult
    rw [hcore, hsdk.env.unmarshal]
  have hdrains : m₂.drains = m.drains := by
    unfold drains
    rw [eq, stack]
    rfl
  refine ⟨_, Machine.step_awaited (h.code.control.trans control) hstack' (by rw [hcore]; exact completed), ?_⟩
  have hcode : CodeSim v same b T m₂ { m' with
      stack := rest.map (Frame.amend v)
      control := .returned (awaitResult sdk' (m'.ctx.core.task task) dst) } :=
    ⟨eq ▸ h.code.ctx, by rw [hresult, eq], by rw [eq], eq ▸ h.code.trace⟩
  refine h.of_step hturn hacc _ hcode rfl (eq ▸ rfl) rfl (eq ▸ h.index) (eq ▸ Nat.le_refl _)
    (eq ▸ h.suspended) (h.patches_of_frame (eq ▸ rfl) rfl ?_)
  unfold Awaits held
  rw [hdrains, eq]

theorem step_drained {rest : List (Frame σ)} (stack : m.stack = .drain [] :: rest)
    (eq : m₂ = { m with hist := { m.hist with suspendedEvents := [] }, stack := rest }) :
    ∃ m₂', step sdk' m' = some m₂' ∧ TurnSim v same b T₂ m₂ m₂' := by
  obtain ⟨control, hrest, -, hheld⟩ := h.turn.draining_of_stack stack
  have hstack' : m'.stack = .drain [] :: rest.map (Frame.amend v) := by
    rw [h.code.stack, stack]
    rfl
  refine ⟨_, Machine.step_drained (h.code.control.trans control) hstack', ?_⟩
  have hcode : CodeSim v same b T m₂ { m' with
      hist := { m'.hist with suspendedEvents := [] }
      stack := rest.map (Frame.amend v) } :=
    ⟨eq ▸ h.code.ctx, eq ▸ h.code.control, by rw [eq], eq ▸ h.code.trace⟩
  refine h.of_step hturn hacc _ hcode rfl (eq ▸ rfl) rfl (eq ▸ h.index) (eq ▸ Nat.le_refl _)
    (eq ▸ rfl) (h.patches_of_frame (eq ▸ rfl) rfl ?_)
  have hheld₂ : m₂.held = m.held := by
    rw [InTurn.held_of_normal (m := m₂) (by rw [eq]; exact hrest), hheld, eq]
  unfold Awaits
  rw [hheld₂, eq]

theorem step_buffer {e : HistoryEvent} (hw : m.Waits)
    (he : m.hist.events[m.hist.historyIndex]? = some e) (hs : m.ctx.core.isSuspended = true)
    (hp : isPlain e = true)
    (eq : m₂ = { m with
      hist := { m.hist.taken with
        suspendedEvents := m.hist.suspendedEvents ++ [(m.hist.historyIndex, e)] }
      buffered := m.buffered ++ [m.hist.historyIndex]
      control := .loop }) :
    ∃ m₂', step sdk' m' = some m₂' ∧ TurnSim v same b T₂ m₂ m₂' := by
  have hd := (h.turn.normal_of_waits hw).1
  have hsame := Recording.amend_spec (v := v) (h.start_of_eq he)
  have hplain' : isPlain (v.amend (m.hist.historyIndex, e)).2 = true := hsame.1.trans hp
  refine ⟨_, Machine.step_buffer (h.waits hw) (h.next he) h.terminated (by rw [h.code.ctx.core]; exact hs)
    (handledWhileSuspended_of_plain hplain').1, ?_⟩
  have hheld₂ : m₂.held = m.held ++ [(m.hist.historyIndex, e)] := by
    rw [InTurn.held_of_normal (m := m₂) (by rw [eq]; exact hd), InTurn.held_of_normal hd, eq]
  refine h.of_step hturn hacc T ⟨eq ▸ h.code.ctx, by rw [eq], eq ▸ h.code.stack, eq ▸ h.code.trace⟩
    rfl (by rw [eq]; rfl) rfl (by rw [eq]; exact congrArg (· + 1) h.index)
    (by rw [eq]; exact Nat.le_succ _) ?_ (h.patches_of_frame (by rw [eq]; rfl) rfl ?_)
  · rw [eq, List.map_append, ← h.suspended, h.index]
    refine congrArg (_ ++ [·]) (Prod.ext ?_ rfl)
    exact (v.amend_fst (m.hist.historyIndex, e)).symm
  · unfold Awaits
    rw [hheld₂, eq, List.map_append, List.mem_append, List.map_singleton, List.mem_singleton]
    show (_ ∨ v.position = m.hist.historyIndex) ∨ m.hist.historyIndex + 1 ≤ v.position ↔ _
    rw [or_assoc]
    exact or_congr Iff.rfl (by omega)

theorem step_suspend {e : HistoryEvent} (hw : m.Waits)
    (he : m.hist.events[m.hist.historyIndex]? = some e) (hs : m.ctx.core.isSuspended = false)
    (hse : isSuspend e = true)
    (eq : m₂ = { m with
      hist := m.hist.taken
      ctx := { m.ctx with core := { m.ctx.core with isSuspended := true } }
      handled := m.handled ++ [m.hist.historyIndex]
      control := .loop }) :
    ∃ m₂', step sdk' m' = some m₂' ∧ TurnSim v same b T₂ m₂ m₂' := by
  have hd := (h.turn.normal_of_waits hw).1
  have hsame := Recording.amend_spec (v := v) (h.start_of_eq he)
  have hplain : isPlain e = false := by
    by_contra hp
    rw [(handledWhileSuspended_of_plain (by simpa using hp)).2.1] at hse
    cases hse
  have hstep := Machine.step_dispatch sdk' (h.waits hw) (h.next he) h.terminated
    (.inl (by rw [h.code.ctx.core]; exact hs))
  rw [dispatch_suspend (hsame.2.1.trans hse)] at hstep
  refine ⟨_, hstep, ?_⟩
  have hheld₂ : m₂.held = m.held := by
    rw [InTurn.held_of_normal (m := m₂) (by rw [eq]; exact hd), InTurn.held_of_normal hd, eq]
    rfl
  refine h.of_step hturn hacc T
    ⟨eq ▸ h.code.ctx.setCore (by rw [h.code.ctx.core]), by rw [eq], eq ▸ h.code.stack, eq ▸ h.code.trace⟩
    rfl (by rw [eq]; rfl) rfl (by rw [eq]; exact congrArg (· + 1) h.index)
    (by rw [eq]; exact Nat.le_succ _) (by rw [eq]; exact h.suspended)
    (h.patches_of_frame (by rw [eq]; rfl) rfl
      (h.awaits_taken he hplain hheld₂ (by rw [eq]; rfl)))

theorem step_resume {e : HistoryEvent} (hw : m.Waits)
    (he : m.hist.events[m.hist.historyIndex]? = some e) (hr : isResume e = true)
    (eq : m₂ = { m with
      hist := m.hist.taken
      ctx := { m.ctx with core := { m.ctx.core with isSuspended := false } }
      stack := .drain m.hist.suspendedEvents :: m.stack
      handled := m.handled ++ [m.hist.historyIndex]
      control := .loop }) :
    ∃ m₂', step sdk' m' = some m₂' ∧ TurnSim v same b T₂ m₂ m₂' := by
  have hd := (h.turn.normal_of_waits hw).1
  have hsame := Recording.amend_spec (v := v) (h.start_of_eq he)
  have hplain : isPlain e = false := by
    by_contra hp
    rw [(handledWhileSuspended_of_plain (by simpa using hp)).2.2.1] at hr
    cases hr
  have hstep := Machine.step_dispatch sdk' (h.waits hw) (h.next he) h.terminated
    (.inr (handledWhileSuspended_of_resume (hsame.2.2.1.trans hr)))
  rw [dispatch_resume (hsame.2.2.1.trans hr)] at hstep
  refine ⟨_, hstep, ?_⟩
  have hheld₂ : m₂.held = m.held := by
    rw [InTurn.held_of_normal hd, eq]
    rfl
  have hstack : (.drain m'.hist.suspendedEvents :: m'.stack : List (Frame σ)) =
      m₂.stack.map (Frame.amend v) := by
    rw [eq, List.map_cons, ← h.code.stack, h.suspended]
    rfl
  refine h.of_step hturn hacc T
    ⟨eq ▸ h.code.ctx.setCore (by rw [h.code.ctx.core]), by rw [eq], hstack, eq ▸ h.code.trace⟩
    rfl (by rw [eq]; rfl) rfl (by rw [eq]; exact congrArg (· + 1) h.index)
    (by rw [eq]; exact Nat.le_succ _) (by rw [eq]; exact h.suspended)
    (h.patches_of_frame (by rw [eq]; rfl) rfl
      (h.awaits_taken he hplain hheld₂ (by rw [eq]; rfl)))

omit hturn hacc

/-- The context after a plain event. -/
theorem aligned_plain (henv : Engines same sdk.env sdk'.env) {i : Nat} {e : HistoryEvent}
    (hstart : i = v.position → e.eventType = .workflowStarted none)
    (hdel : ∀ k, e.resolution = some k → ∃ t, (k.2, ⟨k.1, t⟩) ∈ T) :
    Ctx.Aligned same b (settle T e)
      { m.ctx with
        core := m.ctx.core.handlePlain sdk.env T e
        pend := m.ctx.pend.handlePlain e }
      { m'.ctx with
        core := m'.ctx.core.handlePlain sdk'.env T (v.amend (i, e)).2
        pend := m'.ctx.pend.handlePlain (v.amend (i, e)).2 } := by
  obtain ⟨-, -, -, -, hcore, hpend⟩ := Recording.amend_spec hstart
  obtain ⟨es, hn, hn'⟩ := h.code.ctx.numbered
  refine ⟨?_, fun hsame => ?_, es, hn.handlePlain hdel, ?_⟩
  · rw [hcore, Core.handlePlain_engines henv, h.code.ctx.core]
  · rw [Pending.handlePlain_allocated, Pending.handlePlain_allocated]
    exact h.code.ctx.allocated hsame
  · rw [hpend]
    exact hn'.handlePlain hdel

/-- The patches after a plain event: those of the recorded version come with the start of the turn. -/
theorem patches_plain {i : Nat} {e : HistoryEvent}
    (hstart : i = v.position → e.eventType = .workflowStarted none)
    (hawaited : i = v.position → m.Awaits v.position ∧ ¬m₂.Awaits v.position)
    (hother : i ≠ v.position → (m₂.Awaits v.position ↔ m.Awaits v.position)) (hist hist' : Hist)
    (hp : hist.historyPatches = m.hist.historyPatches)
    (hp' : hist'.historyPatches = m'.hist.historyPatches) (hm₂ : m₂.hist = hist.noteVersion e)
    (p : String) :
    p ∈ (hist'.noteVersion (v.amend (i, e)).2).historyPatches ↔
      p ∈ m₂.hist.historyPatches ∨ p ∈ v.patches ∧ ¬m₂.Awaits v.position := by
  rw [hm₂, mem_noteVersion_patches, mem_noteVersion_patches, hp, hp', h.patches]
  by_cases hi : i = v.position
  · obtain ⟨hbefore, hafter⟩ := hawaited hi
    rw [hstart hi]
    subst hi
    rw [Recording.amend_position]
    simp [hbefore, hafter, Recording.patches]
  · rw [Recording.amend_of_ne hi, hother hi]
    exact or_right_comm

include hturn hacc

theorem step_plain (hsdk : Sdks same sdk sdk') {e : HistoryEvent} (hw : m.Waits)
    (he : m.hist.events[m.hist.historyIndex]? = some e) (hs : m.ctx.core.isSuspended = false)
    (hp : isPlain e = true)
    (eq : m₂ = { m with
      hist := m.hist.taken.noteVersion e
      ctx := { m.ctx with
        core := m.ctx.core.handlePlain sdk.env T e
        pend := m.ctx.pend.handlePlain e }
      handled := m.handled ++ [m.hist.historyIndex]
      control := .loop }) :
    ∃ m₂', step sdk' m' = some m₂' ∧ TurnSim v same b T₂ m₂ m₂' := by
  obtain ⟨hd, hbuf⟩ := h.turn.normal_of_waits hw
  have hstart : m.hist.historyIndex = v.position → e.eventType = .workflowStarted none :=
    h.start_of_eq he
  have hsame := Recording.amend_spec hstart
  have hdel : ∀ k, e.resolution = some k → ∃ t, (k.2, ⟨k.1, t⟩) ∈ T :=
    fun k hk => h.turn.deliver_next hw he hk
  obtain ⟨es, -, hn'⟩ := h.code.ctx.numbered
  have hstep := Machine.step_dispatch sdk' (h.waits hw) (h.next he) h.terminated
    (.inl (by rw [h.code.ctx.core]; exact hs))
  rw [dispatch_of_plain (T := T) (m := { m' with
      hist := m'.hist.taken, handled := m'.handled ++ [m'.hist.historyIndex] })
    hn' (hsame.1.trans hp) (by rw [hsame.2.2.2.1]; exact hdel)] at hstep
  refine ⟨_, hstep, ?_⟩
  have hnil : m.hist.suspendedEvents = [] := hbuf hs
  have hheld : m.held = [] := (InTurn.held_of_normal hd).trans hnil
  have hframe := noteVersion_frame m.hist.taken e
  have hframe' := noteVersion_frame m'.hist.taken (v.amend (m.hist.historyIndex, e)).2
  have hheld₂ : m₂.held = [] := by
    rw [InTurn.held_of_normal (m := m₂) (by rw [eq]; exact hd), eq]
    exact hframe.2.1.trans hnil
  have hidx₂ : m₂.hist.historyIndex = m.hist.historyIndex + 1 := by
    rw [eq]
    exact hframe.2.2.2
  refine h.of_step hturn hacc _
    ⟨by rw [eq]; exact h.aligned_plain hsdk.env hstart hdel, by rw [eq], eq ▸ h.code.stack,
      eq ▸ h.code.trace⟩
    rfl (by rw [eq]; exact hframe.2.2.1) hframe'.2.2.1 ?_ (by rw [hidx₂]; exact Nat.le_succ _) ?_
    (h.patches_plain hstart ?_ ?_ m.hist.taken m'.hist.taken rfl rfl (by rw [eq]))
  · rw [hidx₂]
    exact hframe'.2.2.2.trans (congrArg (· + 1) h.index)
  · rw [eq]
    refine hframe'.2.1.trans ?_
    rw [hframe.2.1]
    exact h.suspended
  · intro hi
    unfold Awaits
    rw [hheld₂, hidx₂]
    exact ⟨.inr (Nat.le_of_eq hi), by simp; omega⟩
  · intro hi
    unfold Awaits
    rw [hheld₂, hheld, hidx₂]
    exact or_congr Iff.rfl (by omega)

theorem step_drain (hsdk : Sdks same sdk sdk') {e : Nat × HistoryEvent}
    {es : List (Nat × HistoryEvent)} {rest : List (Frame σ)}
    (stack : m.stack = .drain (e :: es) :: rest)
    (eq : m₂ = { m with
      hist := m.hist.noteVersion e.2
      ctx := { m.ctx with
        core := m.ctx.core.handlePlain sdk.env T e.2
        pend := m.ctx.pend.handlePlain e.2 }
      stack := .drain es :: rest
      handled := m.handled ++ [e.1]
      control := .loop }) :
    ∃ m₂', step sdk' m' = some m₂' ∧ TurnSim v same b T₂ m₂ m₂' := by
  obtain ⟨control, hrest, hs, hheld⟩ := h.turn.draining_of_stack stack
  have hmem : e ∈ m.held := by rw [hheld]; exact List.mem_cons_self
  have horigin := h.accounts.origin e hmem
  have hstart : e.1 = v.position → e.2.eventType = .workflowStarted none := h.start_of_eq horigin
  have hsame := Recording.amend_spec hstart
  have hdel : ∀ k, e.2.resolution = some k → ∃ t, (k.2, ⟨k.1, t⟩) ∈ T := by
    intro k hk
    refine h.turn.deliver k (List.mem_filterMap.mpr ⟨e.2, ?_, hk⟩)
    exact List.mem_append_left _ (List.mem_map_of_mem hmem)
  obtain ⟨ns, -, hn'⟩ := h.code.ctx.numbered
  have hstack' : m'.stack = .drain (v.amend e :: es.map v.amend) :: rest.map (Frame.amend v) := by
    rw [h.code.stack, stack]
    rfl
  have hstep := Machine.step_drain sdk' (h.code.control.trans control) hstack' h.terminated
    (by rw [h.code.ctx.core]; exact hs)
  rw [dispatch_of_plain (T := T) (m := { m' with
      stack := .drain (es.map v.amend) :: rest.map (Frame.amend v)
      handled := m'.handled ++ [(v.amend e).1] })
    hn' (hsame.1.trans (h.turn.held e hmem)) (by rw [hsame.2.2.2.1]; exact hdel)] at hstep
  refine ⟨_, hstep, ?_⟩
  have hframe := noteVersion_frame m.hist e.2
  have hframe' := noteVersion_frame m'.hist (v.amend e).2
  have hheld₂ : m₂.held = es := by rw [eq]; rfl
  have hidx₂ : m₂.hist.historyIndex = m.hist.historyIndex := by rw [eq]; exact hframe.2.2.2
  have horder := h.accounts.order
  rw [hheld, List.map_cons, List.pairwise_cons] at horder
  have hbound := h.accounts.bound e hmem
  refine h.of_step hturn hacc _
    ⟨by rw [eq]; exact h.aligned_plain hsdk.env hstart hdel, by rw [eq], by rw [eq]; rfl,
      eq ▸ h.code.trace⟩
    rfl (by rw [eq]; exact hframe.2.2.1) hframe'.2.2.1 ?_ (Nat.le_of_eq hidx₂.symm) ?_
    (h.patches_plain hstart ?_ ?_ m.hist m'.hist rfl rfl (by rw [eq]))
  · rw [hidx₂]
    exact hframe'.2.2.2.trans h.index
  · rw [eq]
    refine hframe'.2.1.trans ?_
    rw [hframe.2.1]
    exact h.suspended
  · intro hi
    unfold Awaits
    rw [hheld, hheld₂, hidx₂, ← hi]
    refine ⟨.inl List.mem_cons_self, ?_⟩
    rintro (hin | hle)
    · exact Nat.lt_irrefl _ (horder.1 _ hin)
    · omega
  · intro hi
    unfold Awaits
    rw [hheld, hheld₂, hidx₂, List.map_cons, List.mem_cons]
    have hi' : v.position ≠ e.1 := fun h => hi h.symm
    simp [hi']

end Steps

/-- A wait that is about to start with a timeout does not end at the date that stands for none. -/
def FiniteWait (sdk : Sdk σ) (m : Machine σ) : Prop :=
  ∀ s eventName timeout k, m.control = .run s →
    sdk.next s = .call (.waitForSingleEvent eventName timeout) k → Ctx.Aligned.Finite m.ctx timeout

/-- A step of the turn is a step of the later replay, if the recorded version has the patches the
turn encountered. -/
theorem step (h : TurnSim v same b T m m') (hsdk : Sdks same sdk sdk')
    (hs : Machine.step sdk m = some m₂) {m₃ : Machine σ}
    (hend : Transition.Reaches (Machine.step sdk) m₂ m₃)
    (hterm : m₃.ctx.core.isTerminated = false)
    (hv : ∀ p, p ∈ v.patches ↔ p ∈ m₃.ctx.core.encounteredPatches)
    (hrec : m.ctx.core.PatchesRecorded) (hfinite : same = false → FiniteWait sdk m) :
    ∃ T₂ m₂', Machine.step sdk' m' = some m₂' ∧ TurnSim v same b T₂ m₂ m₂' := by
  rcases accounts_step h.turn h.accounts hs with ⟨T₂, hturn, hacc⟩ | hdead
  · refine ⟨T₂, ?_⟩
    cases h.turn.turnStep hs with
    | code inCode =>
      exact h.step_code hturn hacc hsdk inCode hs hend hv hrec hfinite
    | awaited task dst rest control stack completed eq =>
      exact h.step_awaited hturn hacc hsdk control stack completed eq
    | buffer e waits next suspended isPlain eq =>
      exact h.step_buffer hturn hacc waits next suspended isPlain eq
    | suspend e waits next suspended isSuspend eq =>
      exact h.step_suspend hturn hacc waits next suspended isSuspend eq
    | resume e waits next isResume eq => exact h.step_resume hturn hacc waits next isResume eq
    | plain e waits next suspended isPlain eq =>
      exact h.step_plain hturn hacc hsdk waits next suspended isPlain eq
    | terminate et waits eq =>
      have hcore := (InTurn.terminated_of_terminate eq).symm.trans hturn.terminated
      cases hcore
    | drain e es rest stack eq => exact h.step_drain hturn hacc hsdk stack eq
    | drained rest stack eq => exact h.step_drained hturn hacc stack eq
  · have := (hend.invariant hdead fun x y hx hs => hx.step hs).terminated
    rw [hterm] at this
    cases this

/-- A later replay goes through a turn as the turn went. -/
theorem reaches (h : TurnSim v same b T m m') (hsdk : Sdks same sdk sdk') {m₃ : Machine σ}
    (hrun : Transition.Reaches (Machine.step sdk) m m₃)
    (hterm : m₃.ctx.core.isTerminated = false)
    (hv : ∀ p, p ∈ v.patches ↔ p ∈ m₃.ctx.core.encounteredPatches)
    (hrec : m.ctx.core.PatchesRecorded)
    (hfinite : same = false → ∀ x, Transition.Reaches (Machine.step sdk) m x → FiniteWait sdk x) :
    ∃ T₃ m₃', Transition.Reaches (Machine.step sdk') m' m₃' ∧ TurnSim v same b T₃ m₃ m₃' := by
  obtain ⟨m₃', hreach, ⟨T₃, hsim⟩, -⟩ := hrun.simulate
    (R := fun x x' => (∃ T, TurnSim v same b T x x') ∧ x.ctx.core.PatchesRecorded ∧
      Transition.Reaches (Machine.step sdk) m x)
    (g := Machine.step sdk') ⟨⟨T, h⟩, hrec, .refl m⟩ (by
      rintro x x₂ x' ⟨⟨T, hx⟩, hxrec, hxm⟩ hs hend
      obtain ⟨T₂, x₂', hs', hx₂⟩ := hx.step hsdk hs hend hterm hv hxrec fun hsame => hfinite hsame x hxm
      exact ⟨x₂', hs', ⟨T₂, hx₂⟩, (decides_step hs).recorded hxrec, hxm.tail hs⟩)
  exact ⟨T₃, m₃', hreach, hsim⟩

end TurnSim

end Machine

end DurableTask.Task
