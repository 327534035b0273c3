import DurableTask.Task.Schedules
import DurableTask.Task.Simulation
import DurableTask.Task.Turn

/-!
# What every replay of a history comes to

Between two turns the history determines the state of the workflow: every replay that goes on beyond
the history passes through the same state when it has taken all of it (`Snapshot`). A turn extends the
history, and the snapshot of the longer history is the state the turn ended in.
-/

namespace DurableTask.Task

variable {σ : Type}

namespace Machine

variable {sdk : Sdk σ} {m m' : Machine σ}

/-! ### Whole replays -/

/-- The two parts of the history. -/
def parts (m : Machine σ) : List HistoryEvent × List HistoryEvent := (m.hist.oldEvents, m.hist.newEvents)

theorem parts_handle (r : Except ProcessError Ctx) : (m.handle r).parts = m.parts := by
  cases r <;> rfl

theorem parts_dispatch (e : HistoryEvent) : (dispatch sdk m e).parts = m.parts := by
  unfold dispatch
  split
  case h_2 es =>
    unfold onExecutionStarted
    split <;> rfl
  all_goals first
    | rfl
    | exact parts_handle _

theorem parts_processEvent (e : Nat × HistoryEvent) : (processEvent sdk m e).parts = m.parts := by
  unfold processEvent
  split
  · rfl
  · split
    · rfl
    · exact parts_dispatch (m := { m with handled := m.handled ++ [e.1] }) e.2

theorem events_of_parts (h : m'.parts = m.parts) : m'.hist.events = m.hist.events :=
  congrArg (fun p => p.1 ++ p.2) h

/-- A replay never changes the history. -/
theorem parts_step (h : step sdk m = some m') : m'.parts = m.parts := by
  cases step_cases h with
  | code hcode h =>
    unfold parts
    rw [(step_code hcode h).hist]
  | next => exact parts_processEvent (m := { m with hist := m.hist.taken }) _
  | @drain e es rest _ _ => exact parts_processEvent (m := { m with stack := .drain es :: rest }) e
  | _ => rfl

theorem parts_of_reaches (h : Transition.Reaches (step sdk) m m') : m'.parts = m.parts :=
  h.invariant (I := fun x => x.parts = m.parts) rfl fun _ _ hx hs => (parts_step hs).trans hx

theorem events_of_reaches (h : Transition.Reaches (step sdk) m m') : m'.hist.events = m.hist.events :=
  events_of_parts (parts_of_reaches h)

theorem errors_of_reaches (h : Transition.Reaches (step sdk) m m') (herr : m'.errors = []) :
    m.errors = [] := by
  induction h with
  | refl => exact herr
  | tail _ hs ih => exact ih (errors_step hs herr)

theorem recorded_of_reaches {id : InstanceID} {oldEvents newEvents : List HistoryEvent}
    (h : Transition.Reaches (step sdk) (init id oldEvents newEvents) m) :
    m.ctx.core.PatchesRecorded :=
  h.invariant (I := fun x => x.ctx.core.PatchesRecorded) (fun _ => ⟨nofun, nofun⟩) fun _ _ hx hs =>
    (decides_step hs).recorded hx

/-! ### The end of a turn -/

variable {b : ActionID} {T₀ T : List (ActionID × PendingTask)}

theorem Accounts.weaken (h : Accounts T₀ T m) : Accounts [] T m :=
  ⟨h.origin, h.order, h.bound, h.index, h.suspension, fun _ hx => absurd hx List.not_mem_nil⟩

theorem inTurn_of_reaches (h : InTurn b T m) (ha : Accounts T₀ T m)
    (hrun : Transition.Reaches (step sdk) m m') :
    (∃ T', InTurn b T' m' ∧ Accounts T₀ T' m') ∨ Terminated b m' :=
  hrun.invariant (I := fun x => (∃ T', InTurn b T' x ∧ Accounts T₀ T' x) ∨ Terminated b x)
    (.inl ⟨T, h, ha⟩) fun _ _ hx hs =>
      hx.elim (fun ⟨_, hx, hxa⟩ => accounts_step hx hxa hs) fun hx => .inr (hx.step hs)

/-- A turn that has taken all events without being terminated. -/
structure Finished (b : ActionID) (T₀ T : List (ActionID × PendingTask)) (m : Machine σ) : Prop where
  turn : InTurn b T m
  accounts : Accounts T₀ T m
  waits : m.Waits
  consumed : m.hist.historyIndex = m.hist.events.length

namespace Finished

theorem of_halted (h : InTurn b T m) (ha : Accounts T₀ T m) (hhalt : step sdk m = none) :
    Finished b T₀ T m := by
  have hb := blocked_of_halted h.wellFormed h.errors hhalt
  exact ⟨h, ha, ⟨hb.control, hb.top⟩, Nat.le_antisymm ha.index hb.consumed⟩

theorem drains (h : Finished b T₀ T m) : m.drains = [] := (h.turn.normal_of_waits h.waits).1

theorem held (h : Finished b T₀ T m) : m.held = m.hist.suspendedEvents := InTurn.held_of_normal h.drains

theorem resolutions (h : Finished b T₀ T m) :
    m.resolutions = (m.hist.suspendedEvents.map Prod.snd).filterMap HistoryEvent.resolution := by
  unfold Machine.resolutions upcoming
  rw [h.held, h.consumed, List.drop_length, List.append_nil]

theorem suspension (h : Finished b T₀ T m) :
    m.ctx.core.isSuspended =
      m.hist.events.foldl WorkflowRuntimeState.suspendedAfter false := by
  rw [h.accounts.suspension, h.consumed, List.take_length]

end Finished

end Machine

/-! ### Snapshots -/

/-- The state of the workflow when all of a history was taken: what steers it, the events buffered
during suspension, the patches of the history, and the pending work as in `Numbered`. -/
structure Snapshot (σ : Type) where
  core : Core
  stack : List (Frame σ)
  trace : List Obs
  allocated : List ActionID
  suspendedEvents : List (Nat × HistoryEvent)
  patches : String → Prop
  first : ActionID
  entries : List Entry
  tasks : List (ActionID × PendingTask)

namespace Snapshot

/-- A replay that has taken `n` events is in the state of a snapshot. -/
structure Matches (s : Snapshot σ) (n : Nat) (m : Machine σ) : Prop where
  errors : m.errors = []
  control : m.control = .loop
  index : m.hist.historyIndex = n
  core : m.ctx.core = s.core
  stack : m.stack = s.stack
  trace : m.trace = s.trace
  allocated : m.ctx.pend.allocated = s.allocated
  suspendedEvents : m.hist.suspendedEvents = s.suspendedEvents
  patches : ∀ p, p ∈ m.hist.historyPatches ↔ s.patches p
  numbered : Numbered m.ctx.pend s.first s.entries s.tasks

/-- Every replay beyond the history `h` passes through the snapshot. -/
def Replays (sdk : Sdk σ) (id : InstanceID) (h : List HistoryEvent) (s : Snapshot σ) : Prop :=
  ∀ (old new ext : List HistoryEvent) (uuid : Nat → String), ext ≠ [] → old ++ new = h ++ ext →
    ∃ m, Transition.Reaches (Machine.step (sdk.withUuid uuid)) (Machine.init id old new) m ∧
      s.Matches h.length m

/-- What holds of the snapshot of a history. -/
structure Sound (s : Snapshot σ) (h : List HistoryEvent) : Prop where
  chain : Frame.chain true s.stack = true
  drains : s.stack.filterMap Frame.drained = []
  top : s.stack.head? = some .start ∨ ∃ task dst,
    s.stack.head? = some (.await task dst) ∧ (s.core.task task).isCompleted = false
  terminated : s.core.isTerminated = false
  suspension : s.core.isSuspended = h.foldl WorkflowRuntimeState.suspendedAfter false
  buffer : s.core.isSuspended = false → s.suspendedEvents = []
  plain : ∀ e ∈ s.suspendedEvents, isPlain e.2 = true
  origin : ∀ x ∈ s.suspendedEvents, h[x.1]? = some x.2
  order : (s.suspendedEvents.map Prod.fst).Pairwise (· < ·)
  recorded : s.core.PatchesRecorded
  nodup : ((s.suspendedEvents.map Prod.snd).filterMap HistoryEvent.resolution).Nodup
  deliver : ∀ k ∈ (s.suspendedEvents.map Prod.snd).filterMap HistoryEvent.resolution,
    ∃ t, (k.2, ⟨k.1, t⟩) ∈ s.tasks

/-- What a turn may add to a history. -/
structure Fits (s : Snapshot σ) (h new : List HistoryEvent) : Prop where
  ordinary : ∀ e ∈ new, isOrdinary e = true
  once : neverSuspendsTwice s.core.isSuspended new = true
  nodup : (new.filterMap HistoryEvent.resolution).Nodup
  fresh : ∀ k ∈ new.filterMap HistoryEvent.resolution, k ∉ h.filterMap HistoryEvent.resolution
  deliver : ∀ k ∈ new.filterMap HistoryEvent.resolution, ∃ t, (k.2, ⟨k.1, t⟩) ∈ s.tasks

variable {s : Snapshot σ} {h new : List HistoryEvent} {m : Machine σ}

namespace Matches

theorem drains (hm : s.Matches h.length m) (hs : s.Sound h) : m.drains = [] := by
  unfold Machine.drains
  rw [hm.stack]
  exact hs.drains

theorem waits (hm : s.Matches h.length m) (hs : s.Sound h) : m.Waits := by
  refine ⟨hm.control, ?_⟩
  rw [hm.stack, hm.core]
  exact hs.top

theorem upcoming (hm : s.Matches h.length m) (hev : m.hist.events = h ++ new) : m.upcoming = new := by
  unfold Machine.upcoming
  rw [hm.index, hev, List.drop_left]

/-- The turn begins. -/
theorem inTurn (hm : s.Matches h.length m) (hs : s.Sound h) (hf : s.Fits h new)
    (hev : m.hist.events = h ++ new) : m.InTurn s.first s.tasks := by
  have hheld : m.held = s.suspendedEvents :=
    (Machine.InTurn.held_of_normal (hm.drains hs)).trans hm.suspendedEvents
  have hres : m.resolutions = (s.suspendedEvents.map Prod.snd).filterMap HistoryEvent.resolution ++
      new.filterMap HistoryEvent.resolution := by
    unfold Machine.resolutions
    rw [hheld, hm.upcoming hev, List.filterMap_append]
  refine ⟨?_, hm.errors, hm.core ▸ hs.terminated, ⟨_, hm.numbered⟩, ?_, ?_, ?_, ?_,
    fun _ => hm.waits hs, ?_, ?_⟩
  · unfold Machine.WellFormed
    rw [hm.control, hm.stack]
    exact hs.chain
  · rw [hm.upcoming hev]
    exact hf.ordinary
  · rw [hm.upcoming hev, hm.core]
    exact hf.once
  · rw [hheld]
    exact hs.plain
  · refine .normal (hm.drains hs) fun hsus => ?_
    rw [hm.suspendedEvents]
    exact hs.buffer (hm.core ▸ hsus)
  · rw [hres]
    refine List.nodup_append.mpr ⟨hs.nodup, hf.nodup, ?_⟩
    rintro k hk k' hk' rfl
    -- A buffered event stands in the history, so its resolution is not among the new ones.
    obtain ⟨e, he, hek⟩ := List.mem_filterMap.mp hk
    obtain ⟨x, hx, rfl⟩ := List.mem_map.mp he
    exact hf.fresh k hk'
      (List.mem_filterMap.mpr ⟨x.2, List.mem_of_getElem? (hs.origin x hx), hek⟩)
  · rw [hres]
    intro k hk
    exact (List.mem_append.mp hk).elim (hs.deliver k) (hf.deliver k)

theorem accounts (hm : s.Matches h.length m) (hs : s.Sound h) (hev : m.hist.events = h ++ new) :
    m.Accounts s.tasks s.tasks := by
  have hheld : m.held = s.suspendedEvents :=
    (Machine.InTurn.held_of_normal (hm.drains hs)).trans hm.suspendedEvents
  have hlt {x : Nat × HistoryEvent} (hx : x ∈ s.suspendedEvents) : x.1 < h.length :=
    (List.getElem?_eq_some_iff.mp (hs.origin x hx)).1
  refine ⟨?_, ?_, ?_, ?_, ?_, fun x hx => .inl hx⟩
  · rw [hheld, hev]
    intro x hx
    rw [List.getElem?_append_left (hlt hx)]
    exact hs.origin x hx
  · rw [hheld]
    exact hs.order
  · rw [hheld, hm.index]
    exact fun x hx => hlt hx
  · rw [hm.index, hev, List.length_append]
    exact Nat.le_add_right _ _
  · rw [hm.core, hm.index, hev, List.take_left]
    exact hs.suspension

end Matches

end Snapshot

/-! ### The history after a turn -/

/-- The first event of a turn with the version recorded after it. -/
def Recording.start (v : Recording) (e : HistoryEvent) : HistoryEvent :=
  { e with eventType := .workflowStarted v.version }

/-- The events of a turn as later replays see them. -/
theorem Recording.getElem?_start {v : Recording} {h rest : List HistoryEvent} {e₀ : HistoryEvent}
    (hpos : v.position = h.length) {i : Nat} {e : HistoryEvent}
    (he : (h ++ e₀ :: rest)[i]? = some e) :
    (h ++ v.start e₀ :: rest)[i]? = some (v.amend (i, e)).2 := by
  rcases Nat.lt_trichotomy i h.length with hi | rfl | hi
  · rw [List.getElem?_append_left hi] at he ⊢
    rw [he, Recording.amend_of_ne (by omega)]
  · rw [List.getElem?_append_right (Nat.le_refl _), Nat.sub_self] at he ⊢
    cases he
    rw [← hpos, Recording.amend_position]
    rfl
  · rw [List.getElem?_append_right (Nat.le_of_lt hi)] at he ⊢
    obtain ⟨j, hj⟩ : ∃ j, i - h.length = j + 1 := ⟨i - h.length - 1, by omega⟩
    rw [hj, List.getElem?_cons_succ] at he ⊢
    rw [he, Recording.amend_of_ne (by omega)]

theorem Recording.foldl_start {v : Recording} {h rest : List HistoryEvent} {e₀ : HistoryEvent}
    (he₀ : e₀.eventType = .workflowStarted none) :
    (h ++ v.start e₀ :: rest).foldl WorkflowRuntimeState.suspendedAfter false =
      (h ++ e₀ :: rest).foldl WorkflowRuntimeState.suspendedAfter false := by
  rw [List.foldl_append, List.foldl_append, List.foldl_cons, List.foldl_cons]
  unfold WorkflowRuntimeState.suspendedAfter Recording.start
  rw [he₀]

namespace Records

variable {b b' : ActionID} {es es' : List Entry} {T T' : List (ActionID × PendingTask)}
  {events : List HistoryEvent}

theorem subset (h : Records b es T events b' es' T') : T ⊆ T' := by
  induction h with
  | nil => exact List.Subset.refl _
  | cons _ _ _ _ _ ih => exact fun x hx => ih (List.mem_append_left _ hx)

theorem foldl_suspendedAfter (h : Records b es T events b' es' T') (suspended : Bool) :
    events.foldl WorkflowRuntimeState.suspendedAfter suspended = suspended := by
  induction h with
  | nil => rfl
  | cons optional id recorded strict rest ih =>
    next x _ _ e _ =>
    rw [List.foldl_cons, show WorkflowRuntimeState.suspendedAfter suspended e = suspended from ?_]
    · exact ih
    · rcases e with ⟨eventId, timestamp, body, router, row⟩
      cases body <;> first | rfl | (cases x <;> cases recorded)

end Records

theorem Numbered.entries_unique {p : Pending} {b : ActionID} {es es' : List Entry}
    {T T' : List (ActionID × PendingTask)} (h : Numbered p b es T) (h' : Numbered p b es' T') :
    es = es' := by
  rw [← Number.map_snd_number b es, ← h.actions, h'.actions, Number.map_snd_number]

namespace Snapshot

/-- The snapshot a turn ends in. -/
def ending (v : Recording) (m : Machine σ) (first : ActionID) (entries : List Entry)
    (tasks : List (ActionID × PendingTask)) : Snapshot σ :=
  { core := m.ctx.core
    stack := m.stack
    trace := m.trace
    allocated := m.ctx.pend.allocated
    suspendedEvents := m.hist.suspendedEvents.map v.amend
    patches := fun p => p ∈ m.hist.historyPatches ∨ p ∈ v.patches ∧ ¬m.Awaits v.position
    first := first
    entries := entries
    tasks := tasks }

variable {sdk : Sdk σ} {id : InstanceID} {v : Recording} {m : Machine σ} {b b' : ActionID}
  {es es' : List Entry} {T₀ T T' : List (ActionID × PendingTask)}
  {h rest added : List HistoryEvent} {e₀ : HistoryEvent}

theorem sound_ending (hm : m.Finished b T₀ T) (hpos : v.position = h.length)
    (he₀ : e₀.eventType = .workflowStarted none) (hev : m.hist.events = h ++ e₀ :: rest)
    (hrec : m.ctx.core.PatchesRecorded) (hadded : Records b es T added b' es' T') :
    (ending v m b' es' T').Sound (h ++ v.start e₀ :: rest ++ added) := by
  have hamend {x : Nat × HistoryEvent} (hx : x ∈ m.hist.suspendedEvents) :
      m.hist.events[x.1]? = some x.2 ∧ isPlain (v.amend x).2 = isPlain x.2 ∧
        (v.amend x).2.resolution = x.2.resolution := by
    have horigin := hm.accounts.origin x (hm.held.symm ▸ hx)
    have hspec := Recording.amend_spec (v := v) (i := x.1) (e := x.2) fun hi => by
      rw [hev, hi, hpos, List.getElem?_append_right (Nat.le_refl _), Nat.sub_self] at horigin
      cases horigin
      exact he₀
    exact ⟨horigin, hspec.1, hspec.2.2.2.1⟩
  have hres : ((m.hist.suspendedEvents.map v.amend).map Prod.snd).filterMap
      HistoryEvent.resolution = m.resolutions := by
    rw [hm.resolutions, List.filterMap_map, List.filterMap_map, List.filterMap_map]
    exact List.filterMap_congr fun x hx => (hamend hx).2.2
  refine ⟨?_, hm.drains, hm.waits.2, hm.turn.terminated, ?_, ?_, ?_, ?_, ?_, hrec, ?_, ?_⟩
  · have hwf := hm.turn.wellFormed
    unfold Machine.WellFormed at hwf
    rw [hm.waits.1] at hwf
    exact hwf
  · rw [List.foldl_append, hadded.foldl_suspendedAfter, Recording.foldl_start he₀, ← hev]
    exact hm.suspension
  · intro hsus
    show m.hist.suspendedEvents.map v.amend = []
    rw [(hm.turn.normal_of_waits hm.waits).2 hsus]
    rfl
  · intro y hy
    obtain ⟨x, hx, rfl⟩ := List.mem_map.mp hy
    rw [(hamend hx).2.1]
    exact hm.turn.held x (hm.held.symm ▸ hx)
  · intro y hy
    obtain ⟨x, hx, rfl⟩ := List.mem_map.mp hy
    have hget := Recording.getElem?_start hpos (hev ▸ (hamend hx).1)
    rw [Recording.amend_fst, List.getElem?_append_left (List.getElem?_eq_some_iff.mp hget).1]
    exact hget
  · show ((m.hist.suspendedEvents.map v.amend).map Prod.fst).Pairwise (· < ·)
    have hfst : (m.hist.suspendedEvents.map v.amend).map Prod.fst =
        m.held.map Prod.fst := by
      rw [hm.held, List.map_map]
      exact List.map_congr_left fun x _ => Recording.amend_fst v x
    rw [hfst]
    exact hm.accounts.order
  · show (((m.hist.suspendedEvents.map v.amend).map Prod.snd).filterMap
      HistoryEvent.resolution).Nodup
    rw [hres]
    exact hm.turn.nodup
  · intro k hk
    obtain ⟨t, ht⟩ := hm.turn.deliver k (hres ▸ hk)
    exact ⟨t, hadded.subset ht⟩

/-- A turn from `start` comes to be in step with every replay beyond the history `h`. -/
def Meets (sdk : Sdk σ) (id : InstanceID) (v : Recording) (b : ActionID) (uuid : Nat → String)
    (start : Machine σ) (h : List HistoryEvent) : Prop :=
  ∀ (old new ext : List HistoryEvent) (uuid' : Nat → String), ext ≠ [] → old ++ new = h ++ ext →
    ∃ T m m', Transition.Reaches (Machine.step (sdk.withUuid uuid)) start m ∧
      Transition.Reaches (Machine.step (sdk.withUuid uuid')) (Machine.init id old new) m' ∧
      Machine.TurnSim v true b T m m' ∧ m.ctx.core.PatchesRecorded

theorem sdks_withUuid (sdk : Sdk σ) (uuid uuid' : Nat → String) :
    Machine.Sdks true (sdk.withUuid uuid) (sdk.withUuid uuid') :=
  ⟨⟨rfl, rfl, rfl, rfl, rfl, rfl⟩, rfl, rfl⟩

/-- A later replay at the end of the turn, before the events the turn added to the history. -/
theorem matches_of_sim {m' : Machine σ} (hm : m.Finished b T₀ T) (hn : Numbered m.ctx.pend b es T)
    (hsim : Machine.TurnSim v true b T' m m') :
    (ending v m b es T).Matches m.hist.events.length m' := by
  obtain ⟨es₂, hes, hes'⟩ := hsim.code.ctx.numbered
  have hT := hn.tasks_unique hes
  have hentries := hn.entries_unique hes
  refine ⟨hsim.errors, hsim.code.control.trans hm.waits.1, hsim.index.trans hm.consumed,
    hsim.code.ctx.core, ?_, hsim.code.trace, hsim.code.ctx.allocated rfl, hsim.suspended,
    hsim.patches, ?_⟩
  · rw [hsim.code.stack]
    exact Machine.amend_of_drains v hm.drains
  · show Numbered m'.ctx.pend b es T
    rw [hentries, hT]
    exact hes'

/-- The turn's snapshot is that of the longer history. -/
theorem replays_ending {uuid : Nat → String} {start : Machine σ}
    (hmeets : Meets sdk id v b uuid start (h ++ v.start e₀ :: rest ++ added))
    (hrun : Transition.Reaches (Machine.step (sdk.withUuid uuid)) start m)
    (hhalt : Machine.step (sdk.withUuid uuid) m = none) (hm : m.Finished b T₀ T)
    (hn : Numbered m.ctx.pend b es T) (hev : m.hist.events = h ++ e₀ :: rest)
    (hv : ∀ p, p ∈ v.patches ↔ p ∈ m.ctx.core.encounteredPatches)
    (hadded : Records b es T added b' es' T')
    (hsus : m.ctx.core.isSuspended = true → added = []) :
    Replays sdk id (h ++ v.start e₀ :: rest ++ added) (ending v m b' es' T') := by
  intro old new ext uuid' hext hold
  obtain ⟨T₁, m₁, m₁', hm₁, hm₁', hsim, hrec⟩ := hmeets old new ext uuid' hext hold
  obtain ⟨T₃, m₃, hreach, hsim⟩ := hsim.reaches (sdks_withUuid sdk uuid uuid')
    (hrun.of_halted hhalt hm₁) hm.turn.terminated hv hrec nofun
  have hmatch := matches_of_sim hm hn hsim
  have hlen : m.hist.events.length = (h ++ v.start e₀ :: rest).length := by
    rw [hev, List.length_append, List.length_append, List.length_cons, List.length_cons]
  have hm₃ := hm₁'.trans hreach
  by_cases hs : m.ctx.core.isSuspended = true
  · cases hsus hs
    cases hadded
    refine ⟨m₃, hm₃, ?_⟩
    rw [List.append_nil, ← hlen]
    exact hmatch
  · have hdrop : m₃.hist.events.drop m₃.hist.historyIndex = added ++ ext := by
      rw [Machine.events_of_reaches hm₃, hmatch.index, hlen]
      show (old ++ new).drop _ = _
      rw [hold, List.append_assoc, List.drop_left]
    have hw : m₃.Waits := by
      refine ⟨hmatch.control, ?_⟩
      rw [hmatch.stack, hmatch.core]
      exact hm.waits.2
    obtain ⟨m₄, hm₄, hun, hidx, hnum⟩ := Machine.reaches_schedules
      (sdk.withUuid uuid') hadded hw ((congrArg _ hmatch.core).trans hm.turn.terminated)
      ((congrArg _ hmatch.core).trans (by simpa [ending] using hs)) hmatch.numbered hdrop
    refine ⟨m₄, hm₃.trans hm₄, hun.errors.trans hmatch.errors, hun.control, ?_,
      hun.core.trans hmatch.core, hun.stack.trans hmatch.stack, hun.trace.trans hmatch.trace,
      hun.allocated.trans hmatch.allocated, hun.suspendedEvents.trans hmatch.suspendedEvents, ?_,
      hnum⟩
    · rw [hidx, hmatch.index, hlen, ← List.length_append]
    · rw [hun.historyPatches]
      exact hmatch.patches

/-- A turn after the first one. -/
theorem meets_of_replays {s : Snapshot σ} (hs : s.Sound h) (hr : Replays sdk id h s)
    (hf : s.Fits h (e₀ :: rest)) (he₀ : e₀.eventType = .workflowStarted none)
    (hpos : v.position = h.length) (uuid : Nat → String) :
    Meets sdk id v s.first uuid (Machine.init id h (e₀ :: rest))
      (h ++ v.start e₀ :: rest ++ added) := by
  intro old new ext uuid' hext hold
  obtain ⟨m, hm, hmatch⟩ := hr h (e₀ :: rest) (e₀ :: rest) uuid nofun rfl
  obtain ⟨m', hm', hmatch'⟩ := hr old new (v.start e₀ :: rest ++ added ++ ext) uuid'
    (by simp) (by rw [hold]; simp)
  have hev : m.hist.events = h ++ e₀ :: rest := Machine.events_of_reaches hm
  have hev' : m'.hist.events = h ++ v.start e₀ :: rest ++ added ++ ext :=
    (Machine.events_of_reaches hm').trans hold
  have hlen : m.hist.events.length < m'.hist.events.length := by
    have := List.length_pos_iff.mpr hext
    rw [hev, hev']
    simp only [List.length_append, List.length_cons]
    omega
  have hlt : v.position < m.hist.events.length := by
    rw [hev, hpos, List.length_append, List.length_cons]
    omega
  refine ⟨s.tasks, m, m', hm, hm', ⟨hmatch.inTurn hs hf hev, (hmatch.accounts hs hev).weaken, ?_,
    hmatch'.errors, hmatch'.index.trans hmatch.index.symm, ?_, .inl ⟨hlt, hlen⟩, ?_, ?_, ?_⟩,
    hmatch.core ▸ hs.recorded⟩
  · refine ⟨⟨hmatch'.core.trans hmatch.core.symm,
      fun _ => hmatch'.allocated.trans hmatch.allocated.symm, s.entries, hmatch.numbered,
      hmatch'.numbered⟩, hmatch'.control.trans hmatch.control.symm, ?_,
      hmatch'.trace.trans hmatch.trace.symm⟩
    rw [hmatch'.stack, hmatch.stack]
    exact (Machine.amend_of_drains v hs.drains).symm
  · rw [hmatch'.suspendedEvents, hmatch.suspendedEvents]
    refine ((List.map_congr_left fun x hx => ?_).trans (List.map_id _)).symm
    have := (List.getElem?_eq_some_iff.mp (hs.origin x hx)).1
    exact Recording.amend_of_ne (by omega)
  · intro i e _ he
    rw [hev] at he
    have hget := Recording.getElem?_start hpos he
    rw [hev', List.append_assoc, List.getElem?_append_left (List.getElem?_eq_some_iff.mp hget).1]
    exact hget
  · intro e he
    rw [hev, hpos, List.getElem?_append_right (Nat.le_refl _), Nat.sub_self] at he
    cases he
    exact he₀
  · intro p
    have haw : m.Awaits v.position := .inr (by rw [hmatch.index, hpos])
    rw [hmatch'.patches, hmatch.patches]
    simp [haw]

end Snapshot

end DurableTask.Task
