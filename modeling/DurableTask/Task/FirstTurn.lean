import DurableTask.Task.Snapshot

/-!
# The first turn

A history begins with `WorkflowStarted` and `ExecutionStarted`. The turn that records them resolves
the workflow function, and every later replay resolves the same one, because the version that was
chosen is recorded. If none is registered the turn ends at once.
-/

namespace DurableTask.Task

variable {σ : Type}

/-- The recorded version is resolved to the same workflow function. -/
theorem TaskRegistry.resolveWorkflow_pinned {r : TaskRegistry σ} {name : String} {w : σ}
    {version : Option String} (h : r.resolveWorkflow name none = .ok (w, version)) :
    r.resolveWorkflow name version = .ok (w, version) := by
  unfold resolveWorkflow at h ⊢
  split at h
  · cases h
    rfl
  · split at h
    · rw [Option.none_or] at h
      split at h
      · cases h
      · split at h
        · next hget =>
          cases h
          rw [Option.some_or]
          dsimp only
          rw [hget]
        · cases h
    · rw [if_neg (by simp)] at h
      split at h
      · next hget =>
        cases h
        rw [if_neg (by simp)]
      · cases h

theorem TaskRegistry.resolveWorkflow_error {r : TaskRegistry σ} {name : String}
    {version : Option String} {err : ProcessError} (h : r.resolveWorkflow name version = .error err) :
    err.isPreviousExecution = false := by
  unfold resolveWorkflow at h
  repeat' split at h
  all_goals
    cases h
    try rfl

namespace Machine

variable {sdk : Sdk σ} {m m' : Machine σ} {b : ActionID} {T T₀ : List (ActionID × PendingTask)}
  {id : InstanceID} {old new rest : List HistoryEvent} {e₀ e : HistoryEvent}
  {version : Option WorkflowVersion} {es : ExecutionStartedEvent}

/-! ### The recorded version stays -/

/-- A step takes what it handles from the events before it. -/
theorem InTurn.subset_step (h : InTurn b T m) (hs : Machine.step sdk m = some m')
    (hterm : m'.ctx.core.isTerminated = false) :
    m'.held.map Prod.snd ++ m'.upcoming ⊆ m.held.map Prod.snd ++ m.upcoming := by
  obtain ⟨hev, hheld⟩ := h.held_step hs hterm
  rcases hheld with ⟨hsub, hidx, -⟩ | ⟨e, he, hsub, hidx, -⟩
  · unfold Machine.upcoming
    rw [hev, hidx]
    exact List.append_subset.mpr ⟨fun y hy => List.mem_append_left _ ((hsub.map _).subset hy),
      List.subset_append_right _ _⟩
  · have hup : m.upcoming = e :: m'.upcoming := by
      rw [upcoming_eq he]
      unfold Machine.upcoming
      rw [hev, hidx]
    rw [hup]
    refine List.append_subset.mpr ⟨fun y hy => ?_, fun y hy => ?_⟩
    · have := (hsub.map Prod.snd).subset hy
      rw [List.map_append] at this
      rcases List.mem_append.mp this with hy | hy
      · exact List.mem_append_left _ hy
      · exact List.mem_append_right _ (List.mem_cons.mpr (.inl (List.mem_singleton.mp hy)))
    · exact List.mem_append_right _ (List.mem_cons_of_mem _ hy)

theorem InTurn.versionName_step (h : InTurn b T m) (hs : Machine.step sdk m = some m')
    (hno : ∀ e ∈ m.held.map Prod.snd ++ m.upcoming, ∀ version,
      e.eventType ≠ .workflowStarted version) :
    m'.hist.versionName = m.hist.versionName := by
  have hnote (hist : Hist) {e : HistoryEvent} (he : e ∈ m.held.map Prod.snd ++ m.upcoming) :
      (hist.noteVersion e).versionName = hist.versionName := by
    unfold Hist.noteVersion
    split
    · next version heq => exact absurd heq (hno e he version)
    · rfl
  cases h.turnStep hs with
  | code inCode => rw [(Machine.step_code inCode hs).hist]
  | awaited task dst rest control stack completed eq => rw [eq]
  | buffer e waits next suspended isPlain eq => rw [eq]; rfl
  | suspend e waits next suspended isSuspend eq => rw [eq]; rfl
  | resume e waits next isResume eq => rw [eq]; rfl
  | plain e waits next suspended isPlain eq =>
    rw [eq]
    refine hnote _ (List.mem_append_right _ ?_)
    rw [upcoming_eq next]
    exact List.mem_cons_self
  | terminate et waits eq => rw [eq]; rfl
  | drain e es rest stack eq =>
    rw [eq]
    refine hnote _ (List.mem_append_left _ ?_)
    rw [(h.draining_of_stack stack).2.2.2]
    exact List.mem_cons_self
  | drained rest stack eq => rw [eq]

/-- A turn without further `WorkflowStarted` events keeps the version it resolved. -/
theorem versionName_of_reaches (h : InTurn b T m) (ha : Accounts T₀ T m)
    (hno : ∀ e ∈ m.held.map Prod.snd ++ m.upcoming, ∀ version,
      e.eventType ≠ .workflowStarted version)
    (hrun : Transition.Reaches (step sdk) m m') (hterm : m'.ctx.core.isTerminated = false) :
    m'.hist.versionName = m.hist.versionName := by
  have hinv := hrun.invariant
    (I := fun x => Terminated b x ∨ ∃ T', InTurn b T' x ∧ Accounts T₀ T' x ∧
      (∀ e ∈ x.held.map Prod.snd ++ x.upcoming, ∀ version, e.eventType ≠ .workflowStarted version) ∧
      x.hist.versionName = m.hist.versionName)
    (.inr ⟨T, h, ha, hno, rfl⟩) (by
      rintro x y (hx | ⟨T', hx, hxa, hxno, hxv⟩) hs
      · exact .inl (hx.step hs)
      · rcases accounts_step hx hxa hs with ⟨T'', hy, hya⟩ | hy
        · exact .inr ⟨T'', hy, hya,
            fun e he => hxno e (hx.subset_step hs hy.terminated he),
            (hx.versionName_step hs hxno).trans hxv⟩
        · exact .inl hy)
  rcases hinv with ht | ⟨T', -, -, -, hv⟩
  · have := ht.terminated.symm.trans hterm
    cases this
  · exact hv

/-! ### Beginning a replay -/

/-- A replay that has taken `WorkflowStarted`. -/
def began (id : InstanceID) (old new : List HistoryEvent) (e₀ : HistoryEvent)
    (version : Option WorkflowVersion) : Machine σ :=
  { hist :=
      { oldEvents := old, newEvents := new, historyIndex := 1
        isReplaying := decide (0 < old.length)
        historyPatches := (version.getD {}).patches
        versionName := (version.getD {}).name }
    ctx := { core := { id := id, currentTimeUtc := e₀.timestamp } }
    handled := [0] }

/-- The replay with `ExecutionStarted` taken, before it is handled. -/
def beginning (id : InstanceID) (old new : List HistoryEvent) (e₀ : HistoryEvent)
    (version : Option WorkflowVersion) : Machine σ :=
  { began id old new e₀ version with
    hist := (began id old new e₀ version : Machine σ).hist.taken
    handled := [0, 1] }

/-- The replay when the workflow function is called. -/
def entered (id : InstanceID) (old new : List HistoryEvent) (e₀ : HistoryEvent)
    (version : Option WorkflowVersion) (es : ExecutionStartedEvent) (workflow : σ)
    (resolved : Option String) : Machine σ :=
  let m : Machine σ := beginning id old new e₀ version
  { m with
    hist := { m.hist with versionName := resolved.or m.hist.versionName }
    ctx := { m.ctx with core := { m.ctx.core with
      name := es.name, rawInput := es.input.getD m.ctx.core.rawInput } }
    control := .run workflow }

section Begin

variable (sdk) (id) (hev : old ++ new = e₀ :: e :: rest)
  (he₀ : e₀.eventType = .workflowStarted version) (he : e.eventType = .executionStarted es)

include hev

include he₀ in
theorem step_init : step sdk (init id old new) = some (began id old new e₀ version) := by
  have hnext : (init id old new : Machine σ).hist.events[(0 : Nat)]? = some e₀ := by
    show (old ++ new)[0]? = some e₀
    rw [hev]
    rfl
  rw [step_dispatch sdk (m := init id old new) ⟨rfl, .inl rfl⟩ hnext rfl (.inl rfl)]
  unfold dispatch
  rw [he₀]
  dsimp only
  unfold onWorkflowStarted began
  dsimp only
  rw [show (init id old new : Machine σ).hist.taken.versionName = none from rfl, Option.or_none]
  rfl

include he in
theorem step_began (version : Option WorkflowVersion) : step sdk (began id old new e₀ version) =
    some ((beginning id old new e₀ version).onExecutionStarted sdk es) := by
  have hnext : (began id old new e₀ version : Machine σ).hist.events[(1 : Nat)]? = some e := by
    show (old ++ new)[1]? = some e
    rw [hev]
    rfl
  rw [step_dispatch sdk (m := began id old new e₀ version) ⟨rfl, .inl rfl⟩ hnext rfl (.inl rfl)]
  unfold dispatch
  rw [he]
  rfl

include he₀ he

theorem reaches_entered {w : σ} {resolved : Option String}
    (hres : sdk.registry.resolveWorkflow es.name (version.getD {}).name = .ok (w, resolved)) :
    Transition.Reaches (step sdk) (init id old new) (entered id old new e₀ version es w resolved) := by
  refine .head (step_init sdk id hev he₀) (.single ?_)
  rw [step_began sdk id hev he version]
  unfold onExecutionStarted
  rw [show (beginning id old new e₀ version : Machine σ).hist.versionName =
    (version.getD {}).name from rfl, hres]
  rfl

/-- The replay when no workflow function was found. -/
def failed (id : InstanceID) (old new : List HistoryEvent) (e₀ : HistoryEvent)
    (version : Option WorkflowVersion) (err : ProcessError) : Machine σ :=
  let m : Machine σ := beginning id old new e₀ version
  { m with ctx := m.ctx.onStartError err, control := .done, errors := [err] }

/-- A replay that finds no workflow function ends there. -/
theorem reached_of_failed {err : ProcessError} (hrun : Transition.Reaches (step sdk) (init id old new) m)
    (hres : sdk.registry.resolveWorkflow es.name (version.getD {}).name = .error err) :
    m.errors = [] ∧ (step sdk m).isSome = true ∨
      m.errors = [err] ∧ ((step sdk m).isSome = true ∨ m = failed id old new e₀ version err) := by
  have hinit := step_init sdk id hev he₀
  have hbegan := step_began sdk id hev he version
  have hraised : (beginning id old new e₀ version).onExecutionStarted sdk es =
      (beginning id old new e₀ version).raise err := by
    unfold onExecutionStarted
    rw [show (beginning id old new e₀ version : Machine σ).hist.versionName =
      (version.getD {}).name from rfl, hres]
  rw [hraised] at hbegan
  have hdone : step sdk ((beginning id old new e₀ version).raise err) =
      some (failed id old new e₀ version err) := rfl
  rcases hrun.after_step hinit with rfl | hrun
  · exact .inl ⟨rfl, by rw [hinit]; rfl⟩
  rcases hrun.after_step hbegan with rfl | hrun
  · exact .inl ⟨rfl, by rw [hbegan]; rfl⟩
  rcases hrun.after_step hdone with rfl | hrun
  · exact .inr ⟨rfl, .inl (by rw [hdone]; rfl)⟩
  · exact .inr ⟨by rw [hrun.of_none rfl]; rfl, .inr (hrun.of_none rfl)⟩

theorem reaches_failed {err : ProcessError}
    (hres : sdk.registry.resolveWorkflow es.name (version.getD {}).name = .error err) :
    Transition.Reaches (step sdk) (init id old new) (failed id old new e₀ version err) := by
  have hbegan := step_began sdk id hev he version
  unfold onExecutionStarted at hbegan
  rw [show (beginning id old new e₀ version : Machine σ).hist.versionName =
    (version.getD {}).name from rfl, hres] at hbegan
  exact .head (step_init sdk id hev he₀) (.head hbegan (.single rfl))

end Begin

section Entered

variable {w : σ} {resolved : Option String} (hev : old ++ new = e₀ :: e :: rest)

include hev

theorem upcoming_entered : (entered id old new e₀ version es w resolved).upcoming = rest := by
  show (old ++ new).drop 2 = rest
  rw [hev]
  rfl

theorem inTurn_entered (hrest : ∀ y ∈ rest, isOrdinary y = true ∧ y.resolution = none)
    (honce : neverSuspendsTwice false rest = true) :
    InTurn 0 [] (entered id old new e₀ version es w resolved) := by
  have hres : (entered id old new e₀ version es w resolved).resolutions = [] := by
    unfold Machine.resolutions
    rw [upcoming_entered hev]
    exact List.filterMap_eq_nil_iff.mpr fun y hy => (hrest y hy).2
  refine ⟨rfl, rfl, rfl, ⟨[], .empty⟩, ?_, ?_, fun _ hy => absurd hy List.not_mem_nil,
    .normal rfl fun _ => rfl, nofun, ?_, ?_⟩
  · rw [upcoming_entered hev]
    exact fun y hy => (hrest y hy).1
  · rw [upcoming_entered hev]
    exact honce
  · rw [hres]
    exact List.nodup_nil
  · rw [hres]
    exact fun _ hk => absurd hk List.not_mem_nil

theorem accounts_entered (he₀ : e₀.eventType = .workflowStarted version)
    (he : e.eventType = .executionStarted es) :
    Accounts [] [] (entered id old new e₀ version es w resolved) := by
  refine ⟨fun _ hy => absurd hy List.not_mem_nil, .nil, fun _ hy => absurd hy List.not_mem_nil, ?_,
    ?_, fun _ hy => absurd hy List.not_mem_nil⟩
  · show 2 ≤ (old ++ new).length
    rw [hev]
    exact Nat.le_add_left 2 rest.length
  · show false = ((old ++ new).take 2).foldl WorkflowRuntimeState.suspendedAfter false
    rw [hev]
    show false = WorkflowRuntimeState.suspendedAfter
      (WorkflowRuntimeState.suspendedAfter false e₀) e
    unfold WorkflowRuntimeState.suspendedAfter
    rw [he₀, he]

end Entered

end Machine

/-- The first turn and every later replay of it call the same workflow function. -/
theorem Snapshot.meets_first {sdk : Sdk σ} {v : Recording} {id : InstanceID} {e₀ e : HistoryEvent}
    {rest added : List HistoryEvent} {es : ExecutionStartedEvent} {w : σ} {resolved : Option String}
    (hpos : v.position = 0) (he₀ : e₀.eventType = .workflowStarted none)
    (he : e.eventType = .executionStarted es)
    (hres : sdk.registry.resolveWorkflow es.name none = .ok (w, resolved))
    (hname : (v.version.getD {}).name = resolved)
    (hrest : ∀ y ∈ rest, isOrdinary y = true ∧ y.resolution = none)
    (honce : neverSuspendsTwice false rest = true) (uuid : Nat → String) :
    Meets sdk id v 0 uuid (Machine.init id [] (e₀ :: e :: rest))
      ([] ++ v.start e₀ :: e :: rest ++ added) := by
  intro old new ext uuid' hext hold
  have hold : old ++ new = v.start e₀ :: e :: (rest ++ added ++ ext) := by
    rw [hold]
    simp
  have hres' : sdk.registry.resolveWorkflow es.name (v.version.getD {}).name = .ok (w, resolved) := by
    rw [hname]
    exact TaskRegistry.resolveWorkflow_pinned hres
  refine ⟨[], _, _, Machine.reaches_entered (sdk.withUuid uuid) id rfl he₀ he hres,
    Machine.reaches_entered (sdk.withUuid uuid') id hold rfl he hres',
    ⟨Machine.inTurn_entered rfl hrest honce, Machine.accounts_entered rfl he₀ he,
      ⟨⟨rfl, fun _ => rfl, [], .empty, .empty⟩, rfl, rfl, rfl⟩, rfl, rfl, rfl, .inl ⟨?_, ?_⟩, ?_, ?_,
      ?_⟩, fun _ => ⟨nofun, nofun⟩⟩
  · rw [hpos]
    exact Nat.succ_pos _
  · show (e₀ :: e :: rest).length < (old ++ new).length
    have := List.length_pos_iff.mpr hext
    rw [hold]
    simp only [List.length_append, List.length_cons]
    omega
  · intro i y hi hy
    have hi : 2 ≤ i := hi
    have hy : (e₀ :: e :: rest)[i]? = some y := hy
    show (old ++ new)[i]? = some (v.amend (i, y)).2
    obtain ⟨j, rfl⟩ : ∃ j, i = j + 2 := ⟨i - 2, by omega⟩
    rw [List.getElem?_cons_succ, List.getElem?_cons_succ] at hy
    rw [hold, List.getElem?_cons_succ, List.getElem?_cons_succ, List.append_assoc,
      List.getElem?_append_left (List.getElem?_eq_some_iff.mp hy).1, hy,
      Recording.amend_of_ne (by omega)]
  · intro y hy
    rw [hpos] at hy
    cases hy
    exact he₀
  · intro p
    have haw : ¬(Machine.entered id [] (e₀ :: e :: rest) e₀ none es w resolved).Awaits
        v.position := by
      rintro (hmem | hle)
      · exact absurd hmem List.not_mem_nil
      · have hle : 2 ≤ v.position := hle
        omega
    show p ∈ v.patches ↔ p ∈ [] ∨ p ∈ v.patches ∧ _
    simp [haw]

end DurableTask.Task
