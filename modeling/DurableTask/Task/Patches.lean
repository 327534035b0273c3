import DurableTask.Task.Aligned

/-!
# Decisions about patches

A decision about a patch is made once, by the position in the history where workflow code first asks
for it, and stays for the rest of the replay. The patches a replay encountered are those it decided
for, so what is recorded after a turn determines every decision of that turn.
-/

namespace DurableTask.Task

/-- The decisions, and the patches decided for. -/
def Core.patches (c : Core) : List (String × Bool) × List String :=
  (c.appliedPatches, c.encounteredPatches)

theorem Core.patches_of_flags {c c' : Core} (h : c'.flags = c.flags) : c'.patches = c.patches :=
  congrArg (fun f : Flags => (f.appliedPatches, f.encounteredPatches)) h

/-- The encountered patches are those decided for. -/
def Core.PatchesRecorded (c : Core) : Prop :=
  ∀ patchName, Assoc.get? c.appliedPatches patchName = some true ↔ patchName ∈ c.encounteredPatches

/-- How decisions develop at a position of the history. -/
structure Decides (h : Hist) (c c' : Core) : Prop where
  kept : ∀ patchName patched, Assoc.get? c.appliedPatches patchName = some patched →
    Assoc.get? c'.appliedPatches patchName = some patched
  made : ∀ patchName patched, Assoc.get? c.appliedPatches patchName = none →
    Assoc.get? c'.appliedPatches patchName = some patched → patched = Ctx.decision h patchName
  recorded : c.PatchesRecorded → c'.PatchesRecorded

namespace Decides

variable {h : Hist} {c c' c'' : Core}

theorem of_patches (hc : c'.patches = c.patches) : Decides h c c' := by
  obtain ⟨happ, henc⟩ := Prod.mk.inj hc
  refine ⟨fun _ _ hs => by rw [happ]; exact hs, fun _ _ hn hs => ?_, fun hr p => ?_⟩
  · rw [happ, hn] at hs
    cases hs
  · rw [happ, henc]
    exact hr p

theorem trans (h₁ : Decides h c c') (h₂ : Decides h c' c'') : Decides h c c'' := by
  refine ⟨fun p d hs => h₂.kept p d (h₁.kept p d hs), fun p d hn hs => ?_,
    fun hr => h₂.recorded (h₁.recorded hr)⟩
  cases hc' : Assoc.get? c'.appliedPatches p with
  | none => exact h₂.made p d hc' hs
  | some d' =>
    have := h₂.kept p d' hc'
    rw [hs] at this
    cases this
    exact h₁.made p d hn hc'

theorem isPatched (c : Ctx) (patchName : String) :
    Decides h c.core (c.isPatched h patchName).1.core := by
  unfold Ctx.isPatched
  cases hget : Assoc.get? c.core.appliedPatches patchName with
  | some patched =>
    refine ⟨fun _ _ hs => hs, fun _ _ hn hs => ?_, fun hr p => ?_⟩
    · rw [hn] at hs
      cases hs
    · dsimp only
      rw [hr p]
      cases patched with
      | false => exact Iff.rfl
      | true =>
        refine ⟨fun hp => List.mem_append_left _ hp, fun hp => ?_⟩
        rcases List.mem_append.mp hp with hp | hp
        · exact hp
        · rw [List.mem_singleton.mp hp]
          exact (hr _).mp hget
  | none =>
    have hother (p : String) (hp : p ≠ patchName) (d : Bool) :
        Assoc.get? (Assoc.insert c.core.appliedPatches patchName d) p =
          Assoc.get? c.core.appliedPatches p := Assoc.get?_insert_of_ne (Ne.symm hp)
    refine ⟨fun p d hs => ?_, fun p d hn hs => ?_, fun hr p => ?_⟩
    · have hp : p ≠ patchName := by
        rintro rfl
        rw [hget] at hs
        cases hs
      exact (hother p hp _).trans hs
    · by_cases hp : p = patchName
      · subst hp
        dsimp only at hs
        rw [Assoc.get?_insert_self] at hs
        exact (Option.some.inj hs).symm
      · dsimp only at hs
        rw [hother p hp, hn] at hs
        cases hs
    · dsimp only
      by_cases hp : p = patchName
      · subst hp
        have hnot : p ∉ c.core.encounteredPatches := by
          intro hmem
          have := (hr p).mpr hmem
          rw [hget] at this
          cases this
        rw [Assoc.get?_insert_self]
        cases hd : Ctx.decision h p with
        | true => simp
        | false => simpa using hnot
      · rw [hother p hp, hr p]
        cases hd : Ctx.decision h patchName with
        | true => simp [hp]
        | false => simp

end Decides

theorem Ctx.Evolves.decides {h : Hist} {c c' : Ctx} (hc : Ctx.Evolves h c c') :
    Decides h c.core c'.core := by
  induction hc with
  | refl => exact .of_patches rfl
  | trans _ _ ih ih' => exact ih.trans ih'
  | core c core hcore => exact .of_patches (Core.patches_of_flags hcore)
  | patch c patchName => exact .isPatched c patchName
  | ident => exact .of_patches rfl
  | register c actionType router kind =>
    exact .of_patches (Core.patches_of_flags (Ctx.flags_register ..))
  | addAction => exact .of_patches rfl
  | retryTimer c name delay i executionID =>
    exact .of_patches (Core.patches_of_flags (Ctx.flags_register ..))

namespace Machine

variable {σ : Type} {sdk : Sdk σ} {m m' : Machine σ}

theorem patches_handle {r : Except ProcessError Ctx}
    (hr : ∀ c, r = .ok c → c.core.flags = m.ctx.core.flags) :
    (m.handle r).ctx.core.patches = m.ctx.core.patches := by
  cases r with
  | ok c => exact Core.patches_of_flags (hr c rfl)
  | error err => rfl

theorem patches_dispatch (e : HistoryEvent) :
    (dispatch sdk m e).ctx.core.patches = m.ctx.core.patches := by
  rcases e with ⟨eventId, timestamp, body, router, row⟩
  cases body with
  | executionStarted es =>
    simp only [dispatch, onExecutionStarted]
    split <;> rfl
  | taskScheduled ts => exact patches_handle fun c h => Core.flags_of_frame (Ctx.frame_onTaskScheduled h)
  | childWorkflowInstanceCreated ts =>
    exact patches_handle fun c h => Core.flags_of_frame (Ctx.frame_onChildWorkflowScheduled h)
  | detachedWorkflowInstanceCreated instanceId =>
    exact patches_handle fun c h => Core.flags_of_frame (Ctx.frame_onDetachedWorkflowCreated h)
  | timerCreated tc => exact patches_handle fun c h => Core.flags_of_frame (Ctx.frame_onTimerCreated h)
  | taskCompleted | taskFailed | childWorkflowInstanceCompleted | childWorkflowInstanceFailed
  | timerFired => exact Core.patches_of_flags (Core.flags_of_frame (Ctx.frame_onResolution ..))
  | eventRaised er => exact Core.patches_of_flags (Core.flags_of_frame (frame_onExternalEventRaised ..))
  | executionTerminated et =>
    show (m.ctx.onExecutionTerminated et).core.patches = _
    unfold Ctx.onExecutionTerminated
    dsimp only
    split <;> rfl
  | _ => rfl

theorem patches_processEvent (e : Nat × HistoryEvent) :
    (processEvent sdk m e).ctx.core.patches = m.ctx.core.patches := by
  unfold processEvent
  split
  · rfl
  · split
    · rfl
    · exact patches_dispatch ..

/-- Decisions are made by steps of workflow code, at the current position. -/
theorem decides_step (h : step sdk m = some m') : Decides m.hist m.ctx.core m'.ctx.core := by
  cases step_cases h with
  | code hcode h => exact (step_code hcode h).ctx.decides
  | next => exact .of_patches (patches_processEvent ..)
  | drain => exact .of_patches (patches_processEvent ..)
  | ended =>
    refine .of_patches ?_
    unfold Ctx.onStartError
    split <;> rfl
  | _ => exact .of_patches rfl

/-- A decision stays for the rest of the replay, and what was encountered at its end tells it. -/
theorem decided_of_reaches {m₁ m₂ : Machine σ} (h : Transition.Reaches (step sdk) m₁ m₂)
    {patchName : String} {patched : Bool}
    (hp : Assoc.get? m₁.ctx.core.appliedPatches patchName = some patched)
    (hr : m₁.ctx.core.PatchesRecorded) :
    patched = true ↔ patchName ∈ m₂.ctx.core.encounteredPatches := by
  have hinv := h.invariant
    (I := fun m => Assoc.get? m.ctx.core.appliedPatches patchName = some patched ∧
      m.ctx.core.PatchesRecorded) ⟨hp, hr⟩
    fun x y hx hs => ⟨(decides_step hs).kept _ _ hx.1, (decides_step hs).recorded hx.2⟩
  rw [← hinv.2 patchName, hinv.1]
  simp

end Machine

end DurableTask.Task
