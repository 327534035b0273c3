import DurableTask.Task.FirstTurn
import DurableTask.Task.Outcome

/-!
# Replay self-consistency

Over every run of turns: replays do not fail with "a previous execution called", an action id is
recorded at most once, and every later replay takes the workflow through what the earlier turns
observed.
-/

namespace DurableTask.Task

variable {σ : Type}

open WorkflowRuntimeState (keep rejects)

/-! ### Loading -/

/-- Dropping duplicates does not touch suspensions and resumptions. -/
theorem neverSuspendsTwice_keep {started completed : Bool} {seen : DedupSet}
    {es : List HistoryEvent} {suspended : Bool} (h : neverSuspendsTwice suspended es = true) :
    neverSuspendsTwice suspended (keep started completed seen es) = true := by
  induction es generalizing started completed seen suspended with
  | nil => rfl
  | cons e es ih =>
    obtain ⟨hone, hrest⟩ := Bool.and_eq_true_iff.mp h
    rw [keep]
    split
    · next hrej =>
      have hsus : WorkflowRuntimeState.suspendedAfter suspended e = suspended := by
        rcases e with ⟨eventId, timestamp, body, router, row⟩
        cases body <;> first | rfl | cases hrej
      rw [hsus] at hrest
      exact ih hrest
    · exact Bool.and_eq_true_iff.mpr ⟨hone, ih hrest⟩

namespace Execution

variable {x : Execution σ} {batch : List HistoryEvent} {env : ProcessEnv}
  {s : WorkflowRuntimeState}

/-- The first event of a turn. -/
def started (env : ProcessEnv) : HistoryEvent :=
  { timestamp := env.turnStartedAt, eventType := .workflowStarted none }

/-- A loaded state with the events of a batch. -/
structure Loaded (x : Execution σ) (batch : List HistoryEvent) (env : ProcessEnv)
    (s : WorkflowRuntimeState) : Prop where
  oldEvents : s.oldEvents = x.history
  newEvents : s.newEvents = started env ::
    keep (x.history.findSome? HistoryEvent.getExecutionStarted).isSome false
      (x.history.filterMap HistoryEvent.resolution) batch
  completedEvent : s.completedEvent = batch.findSome? HistoryEvent.getExecutionCompleted
  dispatched : s.dispatched = []
  valid : x.history = [] ∨ (x.history.findSome? HistoryEvent.getExecutionStarted).isSome = true
  incomplete : x.history.findSome? HistoryEvent.getExecutionCompleted = none

theorem loaded_of_applyWorkItem (hh : Loadable x.history)
    (hs : WorkflowProcessor.applyWorkItem env (x.workItem batch) = some s) : Loaded x batch env s := by
  have hnew := WorkflowRuntimeState.new_events x.id x.customStatus x.history
  obtain ⟨htasks, htimers, hmsgs, hstart, hcomp⟩ :=
    WorkflowRuntimeState.new_frame x.id x.customStatus x.history
  rw [hh.keep_eq] at hnew
  unfold WorkflowProcessor.applyWorkItem at hs
  split at hs
  · cases hs
  next hcond =>
  obtain ⟨hvalid, hopen⟩ := not_or.mp hcond
  have hopen : x.history.findSome? HistoryEvent.getExecutionCompleted = none := by
    rw [← hcomp]
    exact Option.not_isSome_iff_eq_none.mp hopen
  cases hs
  -- The state with the first event of the turn.
  generalize hs₁ : (x.workItem batch).state.addEvent (started env) = s₁
  have hws : s₁.newEvents = [started env] ∧ s₁.oldEvents = x.history := by
    have := (x.workItem batch).state.addEvent_events (e := started env) rfl rfl (.inr rfl)
    rw [hs₁] at this
    exact ⟨this.1.trans (by rw [show (x.workItem batch).state.newEvents = [] from hnew.2]; rfl),
      this.2.trans hnew.1⟩
  have hstart₁ : s₁.startEvent = x.history.findSome? HistoryEvent.getExecutionStarted := by
    rw [← hs₁, WorkflowRuntimeState.addEvent_startEvent]
    exact Option.or_none.trans hstart
  have hcomp₁ : s₁.completedEvent = none := by
    rw [← hs₁, WorkflowRuntimeState.addEvent_completedEvent]
    exact Option.or_none.trans (hcomp.trans hopen)
  have hdis : s₁.dispatched = [] := by
    rw [← hs₁, WorkflowRuntimeState.dispatched_of_outbox (WorkflowRuntimeState.addEvent_outbox _ _)]
    show (WorkflowRuntimeState.new _ _ _).dispatched = []
    unfold WorkflowRuntimeState.dispatched
    rw [htasks, htimers, hmsgs]
    rfl
  have hseen : DedupSet.newForState s₁ = x.history.filterMap HistoryEvent.resolution := by
    unfold DedupSet.newForState
    rw [hws.1, hws.2, List.filterMap_append]
    exact List.append_nil _
  show Loaded x batch env ((WorkflowRuntimeState.addEvent _ (started env)).addEvents batch)
  rw [hs₁]
  obtain ⟨hev, hold⟩ := s₁.addEvents_events batch
  obtain ⟨hout, -, hc⟩ := s₁.addEvents_frame batch
  refine ⟨hold.trans hws.2, ?_, ?_, (WorkflowRuntimeState.dispatched_of_outbox hout).trans hdis, ?_,
    hopen⟩
  · rw [hev, hws.1, hstart₁, hcomp₁, hseen]
    rfl
  · rw [hc, hcomp₁]
    rfl
  · have hvalid := Decidable.not_not.mp hvalid
    unfold WorkflowRuntimeState.isValid at hvalid
    rcases Bool.or_eq_true_iff.mp hvalid with hnil | hsome
    · left
      have := (Bool.and_eq_true_iff.mp hnil).1
      rw [show (x.workItem batch).state.oldEvents = x.history from hnew.1] at this
      exact List.isEmpty_iff.mp this
    · exact .inr (hstart ▸ hsome)

/-! ### Batches -/

/-- What an event that may come is and is not. -/
structure Usual (x : Execution σ) (e : HistoryEvent) : Prop where
  ordinary : isOrdinary e = true
  notStart : e.getExecutionStarted = none
  notCompleted : e.getExecutionCompleted = none
  notScheduling : e.schedulingID = none
  notStarted : ∀ version, e.eventType ≠ .workflowStarted version
  dispatched : ∀ k, e.resolution = some k → k ∈ x.dispatched

theorem usual_of_allows {e : HistoryEvent} (h : x.allows e = true) : Usual x e := by
  have hres (k : Kind × ActionID) (hk : e.resolution = some k) : k ∈ x.dispatched := by
    have hany : e.resolution.any (· ∈ x.dispatched) = true := by
      unfold allows at h
      split at h
      case h_5 => exact h
      all_goals
        next heq =>
        unfold HistoryEvent.resolution at hk
        rw [heq] at hk
        cases hk
    simpa [hk] using hany
  rcases e with ⟨eventId, timestamp, body, router, row⟩
  cases body with
  | workflowStarted version => cases h
  | _ => first | exact ⟨rfl, rfl, rfl, rfl, nofun, hres⟩ | cases h

/-- The events of a batch that are new to the history. -/
structure Arrives (x : Execution σ) (es : List HistoryEvent) : Prop where
  usual : ∀ e ∈ es, Usual x e
  once : neverSuspendsTwice (x.history.foldl WorkflowRuntimeState.suspendedAfter false) es = true
  nodup : (es.filterMap HistoryEvent.resolution).Nodup
  fresh : ∀ k ∈ es.filterMap HistoryEvent.resolution, k ∉ x.history.filterMap HistoryEvent.resolution

theorem arrives_keep (started completed : Bool) (hall : batch.all x.allows = true)
    (honce : neverSuspendsTwice (x.history.foldl WorkflowRuntimeState.suspendedAfter false) batch =
      true) :
    Arrives x (keep started completed (x.history.filterMap HistoryEvent.resolution) batch) := by
  have hres := WorkflowRuntimeState.keep_resolutions started completed
    (x.history.filterMap HistoryEvent.resolution) batch
  refine ⟨fun e he => ?_, neverSuspendsTwice_keep honce, hres.1, hres.2⟩
  exact usual_of_allows
    (List.all_eq_true.mp hall e ((WorkflowRuntimeState.keep_sublist ..).subset he))

/-- The batch of a turn after the first one. -/
theorem arrives_of_accepts (hacc : x.accepts batch = true) (hne : x.history ≠ [])
    (started completed : Bool) :
    Arrives x (keep started completed (x.history.filterMap HistoryEvent.resolution) batch) := by
  obtain ⟨hall, honce⟩ := Bool.and_eq_true_iff.mp hacc
  refine arrives_keep started completed ?_ honce
  split at hall
  · next heq => exact absurd heq hne
  · cases hall
  · exact hall

/-- The batch of the first turn. -/
theorem start_of_accepts (hacc : x.accepts batch = true) (hnil : x.history = []) :
    ∃ e es rest, e.eventType = .executionStarted es ∧
      keep false false (x.history.filterMap HistoryEvent.resolution) batch = e :: rest ∧
      Arrives x rest := by
  obtain ⟨hall, honce⟩ := Bool.and_eq_true_iff.mp hacc
  split at hall
  · next e rest heq =>
    obtain ⟨hstart, hall⟩ := Bool.and_eq_true_iff.mp hall
    obtain ⟨es, hes⟩ : ∃ es, e.eventType = .executionStarted es := by
      rcases e with ⟨eventId, timestamp, body, router, row⟩
      cases body <;> first | exact ⟨_, rfl⟩ | cases hstart
    have hkept : keep false false (x.history.filterMap HistoryEvent.resolution) (e :: rest) =
        e :: keep true false (x.history.filterMap HistoryEvent.resolution) rest := by
      rcases e with ⟨eventId, timestamp, body, router, row⟩
      cases hes
      rfl
    have hsus (suspended : Bool) :
        WorkflowRuntimeState.suspendedAfter suspended e = suspended := by
      unfold WorkflowRuntimeState.suspendedAfter
      rw [hes]
    refine ⟨e, es, _, hes, hkept, arrives_keep true false hall ?_⟩
    have := (Bool.and_eq_true_iff.mp honce).2
    rwa [hsus] at this
  · cases hall
  · next heq => rw [hnil] at heq; cases heq

theorem notCompleted_of_accepts (hacc : x.accepts batch = true) :
    batch.findSome? HistoryEvent.getExecutionCompleted = none := by
  have husual {es : List HistoryEvent} (hall : es.all x.allows = true) :
      es.findSome? HistoryEvent.getExecutionCompleted = none :=
    List.findSome?_eq_none_iff.mpr fun e he =>
      (usual_of_allows (List.all_eq_true.mp hall e he)).notCompleted
  have hall := (Bool.and_eq_true_iff.mp hacc).1
  split at hall
  · next e rest _ =>
    obtain ⟨hstart, hall⟩ := Bool.and_eq_true_iff.mp hall
    have he : e.getExecutionCompleted = none := by
      rcases e with ⟨eventId, timestamp, body, router, row⟩
      cases body <;> first | rfl | cases hstart
    rw [List.findSome?_cons, he]
    exact husual hall
  · cases hall
  · exact husual hall

/-! ### Turns -/

variable {sdk : Sdk σ} {a : Applier} {x' : Execution σ} {uuid : Nat → String}
  {kept added : List HistoryEvent} {m : Machine σ} {v : Recording} {s' : WorkflowRuntimeState}

/-- A turn with the events `kept` that records the version `v` and adds the events `added`. -/
structure Committed (sdk : Sdk σ) (x x' : Execution σ) (env : ProcessEnv) (uuid : Nat → String)
    (kept added : List HistoryEvent) (m : Machine σ) (v : Recording)
    (s s' : WorkflowRuntimeState) : Prop where
  run : Transition.Reaches (Machine.step (sdk.withUuid uuid))
    (Machine.init x.id x.history (started env :: kept)) m
  halted : Machine.step (sdk.withUuid uuid) m = none
  position : v.position = x.history.length
  version : v.version = m.response.version
  applied : Applier.Applied m.ctx.actions s s' added
  idle : s.dispatched = []
  incomplete : s.completedEvent = none
  wasIncomplete : x.history.findSome? HistoryEvent.getExecutionCompleted = none
  history : x'.history = x.history ++ v.start (started env) :: kept ++ added
  dispatched : x'.dispatched = x.dispatched ++ s'.dispatched
  replays : x'.replays = x.replays ++ [m]
  id : x'.id = x.id

theorem recordVersion_eq {rest : List HistoryEvent} (m : Machine σ) (n : Nat)
    (hnew : s.newEvents = started env :: rest) :
    s.recordVersion m.response.version = { s with
      newEvents := Recording.start ⟨n, m.response.version⟩ (started env) :: rest } := by
  unfold Machine.response
  dsimp only
  split
  · show s = { s with newEvents := started env :: rest }
    rw [← hnew]
  · next hne =>
    rw [WorkflowRuntimeState.recordVersion, if_neg hne, hnew]
    rfl

/-- What a turn loads, replays and commits. -/
theorem committed_of_turn (hh : Loadable x.history) (t : Turn sdk a x x') :
    ∃ batch env uuid added m v s s', x.accepts batch = true ∧
      (x.history = [] ∨ (x.history.findSome? HistoryEvent.getExecutionStarted).isSome = true) ∧
      Committed sdk x x' env uuid
        (keep (x.history.findSome? HistoryEvent.getExecutionStarted).isSome false
          (x.history.filterMap HistoryEvent.resolution) batch) added m v s s' := by
  obtain ⟨batch, env, uuid, receivedHistory, s, s', m, result, accepted, loaded, replayed, halted,
    applied, continues⟩ := t
  have hl := loaded_of_applyWorkItem hh loaded
  obtain ⟨added, happ⟩ := Applier.actions_applied applied continues
  have hrec := recordVersion_eq m x.history.length hl.newEvents
  refine ⟨batch, env, uuid, added, m, ⟨x.history.length, m.response.version⟩,
    s.recordVersion m.response.version, s', accepted, hl.valid, ?_⟩
  refine ⟨?_, halted, rfl, rfl, happ, ?_, ?_, hl.incomplete, ?_, rfl, rfl, rfl⟩
  · rw [← hl.newEvents, ← hl.oldEvents]
    exact replayed
  · rw [hrec]
    exact hl.dispatched
  · rw [hrec]
    exact hl.completedEvent.trans (notCompleted_of_accepts accepted)
  · show s'.oldEvents ++ s'.newEvents = _
    rw [happ.oldEvents, happ.newEvents, hrec, ← List.append_assoc]
    show s.oldEvents ++ _ ++ _ = _
    rw [hl.oldEvents]

namespace Committed

theorem filterMap_history {α : Type} (hc : Committed sdk x x' env uuid kept added m v s s')
    (f : HistoryEvent → Option α) (hf : f (v.start (started env)) = none) :
    x'.history.filterMap f = x.history.filterMap f ++ kept.filterMap f ++ added.filterMap f := by
  rw [hc.history, List.filterMap_append, List.filterMap_append, List.filterMap_cons_none hf]

theorem loadable (hc : Committed sdk x x' env uuid kept added m v s s') (hh : Loadable x.history)
    (hstart : (x.history.filterMap HistoryEvent.getExecutionStarted).length +
      (kept.filterMap HistoryEvent.getExecutionStarted).length ≤ 1)
    (hcomp : kept.filterMap HistoryEvent.getExecutionCompleted = [])
    (hnodup : (kept.filterMap HistoryEvent.resolution).Nodup)
    (hfresh : ∀ k ∈ kept.filterMap HistoryEvent.resolution,
      k ∉ x.history.filterMap HistoryEvent.resolution) : Loadable x'.history := by
  have hnone {α : Type} {f : HistoryEvent → Option α} (hf : ∀ e ∈ added, f e = none) :
      added.filterMap f = [] := List.filterMap_eq_nil_iff.mpr hf
  refine ⟨?_, ?_, ?_⟩
  · rw [hc.filterMap_history _ rfl, hnone fun e he => (hc.applied.plain e he).1, List.append_nil,
      List.length_append]
    exact hstart
  · have hold : x.history.filterMap HistoryEvent.getExecutionCompleted = [] :=
      List.filterMap_eq_nil_iff.mpr (List.findSome?_eq_none_iff.mp hc.wasIncomplete)
    rw [hc.filterMap_history _ rfl, hold, hcomp]
    exact Nat.le_of_add_right_le hc.applied.once
  · rw [hc.filterMap_history _ rfl, hnone fun e he => (hc.applied.plain e he).2, List.append_nil]
    refine List.nodup_append.mpr ⟨hh.nodup, hnodup, ?_⟩
    rintro k hk k' hk' rfl
    exact hfresh k hk' hk

/-- What is recorded are the patches the turn decided for. -/
theorem patches (hc : Committed sdk x x' env uuid kept added m v s s') (p : String) :
    p ∈ v.patches ↔ p ∈ m.ctx.core.encounteredPatches := by
  unfold Recording.patches
  rw [hc.version]
  unfold Machine.response
  dsimp only
  split
  · next hempty =>
    rw [List.isEmpty_iff.mp (Bool.and_eq_true_iff.mp hempty).1]
    exact Iff.rfl
  · exact Iff.rfl

theorem versionName (hc : Committed sdk x x' env uuid kept added m v s s') :
    (v.version.getD {}).name = m.hist.versionName := by
  rw [hc.version]
  unfold Machine.response
  dsimp only
  split
  · next hempty =>
    exact (Option.isNone_iff_eq_none.mp (Bool.and_eq_true_iff.mp hempty).2).symm
  · rfl

/-- A completion is found when the history is loaded again. -/
theorem closed (hc : Committed sdk x x' env uuid kept added m v s s')
    (hs : s'.completedEvent.isSome = true) :
    (x'.history.findSome? HistoryEvent.getExecutionCompleted).isSome = true := by
  rw [hc.applied.completedEvent, hc.incomplete, Option.none_or] at hs
  rw [hc.history, List.findSome?_append, Option.isSome_or, hs, Bool.or_true]

end Committed

/-! ### The books of an execution -/

/-- The history can be loaded, its scheduling events have distinct ids below `first`, and `tasks` are
those of dispatched work that is not resolved. -/
structure Books (x : Execution σ) (first : ActionID) (tasks : List (ActionID × PendingTask)) :
    Prop where
  loadable : Loadable x.history
  nodup : (x.history.filterMap HistoryEvent.schedulingID).Nodup
  lt : ∀ id ∈ x.history.filterMap HistoryEvent.schedulingID, id < first
  dispatched : ∀ k ∈ x.dispatched, (∃ t, (k.2, ⟨k.1, t⟩) ∈ tasks) ∨
    k ∈ x.history.filterMap HistoryEvent.resolution

namespace Arrives

variable {first : ActionID} {tasks : List (ActionID × PendingTask)}

theorem filterMap_eq_nil {α : Type} (ha : Arrives x kept) {f : HistoryEvent → Option α}
    (hf : ∀ e, Usual x e → f e = none) : kept.filterMap f = [] :=
  List.filterMap_eq_nil_iff.mpr fun e he => hf e (ha.usual e he)

/-- A resolution that arrives finds its task. -/
theorem deliver (ha : Arrives x kept) (hb : Books x first tasks) :
    ∀ k ∈ kept.filterMap HistoryEvent.resolution, ∃ t, (k.2, ⟨k.1, t⟩) ∈ tasks := by
  intro k hk
  obtain ⟨e, he, hek⟩ := List.mem_filterMap.mp hk
  exact (hb.dispatched k ((ha.usual e he).dispatched k hek)).resolve_right (ha.fresh k hk)

theorem fits {snap : Snapshot σ} (ha : Arrives x kept) (hb : Books x snap.first snap.tasks)
    (hs : snap.Sound x.history) (env : ProcessEnv) :
    snap.Fits x.history (started env :: kept) := by
  have hres : (started env :: kept).filterMap HistoryEvent.resolution =
      kept.filterMap HistoryEvent.resolution := List.filterMap_cons_none rfl
  refine ⟨fun e he => ?_, ?_, ?_, ?_, ?_⟩
  · rcases List.mem_cons.mp he with rfl | he
    · rfl
    · exact (ha.usual e he).ordinary
  · rw [hs.suspension, neverSuspendsTwice]
    simp only [isSuspend, started, Bool.and_false, Bool.not_false, Bool.true_and]
    exact ha.once
  · rw [hres]
    exact ha.nodup
  · rw [hres]
    exact ha.fresh
  · rw [hres]
    exact ha.deliver hb

end Arrives

section Commit

variable {first first' : ActionID} {tasks T T' : List (ActionID × PendingTask)} {es es' : List Entry}

theorem Committed.nodup (hc : Committed sdk x x' env uuid kept added m v s s')
    (hnodup : (x.history.filterMap HistoryEvent.schedulingID).Nodup)
    (hlt : ∀ id ∈ x.history.filterMap HistoryEvent.schedulingID, id < first)
    (hkept : kept.filterMap HistoryEvent.schedulingID = [])
    (hadded : (added.filterMap HistoryEvent.schedulingID).Nodup ∧
      ∀ id ∈ added.filterMap HistoryEvent.schedulingID, first ≤ id) :
    (x'.history.filterMap HistoryEvent.schedulingID).Nodup := by
  rw [hc.filterMap_history _ rfl, hkept, List.append_nil]
  refine List.nodup_append.mpr ⟨hnodup, hadded.1, ?_⟩
  rintro id hid id' hid' rfl
  exact absurd (hlt id hid) (Int.not_lt.mpr (hadded.2 id hid'))

/-- A turn after the first one keeps the history loadable. -/
theorem Books.loadable_commit (hb : Books x first tasks)
    (hc : Committed sdk x x' env uuid kept added m v s s') (ha : Arrives x kept) :
    Loadable x'.history := by
  refine hc.loadable hb.loadable ?_ (ha.filterMap_eq_nil fun e he => he.notCompleted) ha.nodup
    ha.fresh
  rw [ha.filterMap_eq_nil fun e he => he.notStart]
  exact hb.loadable.started

/-- A turn that does not end the execution. -/
theorem Books.commit (hb : Books x first tasks)
    (hc : Committed sdk x x' env uuid kept added m v s s') (hload : Loadable x'.history)
    (hkept : kept.filterMap HistoryEvent.schedulingID = [])
    (hadded : (added.filterMap HistoryEvent.schedulingID).Nodup ∧
      ∀ id ∈ added.filterMap HistoryEvent.schedulingID, first ≤ id)
    (hrec : Records first es T added first' es' T')
    (hset : ∀ y ∈ tasks, y ∈ T ∨
      (y.2.kind, y.1) ∈ (x.history ++ started env :: kept).filterMap HistoryEvent.resolution)
    (hdis : ∀ k ∈ s'.dispatched, ∃ t, (k.2, ⟨k.1, t⟩) ∈ T') : Books x' first' T' := by
  have hres : x'.history.filterMap HistoryEvent.resolution =
      (x.history ++ started env :: kept).filterMap HistoryEvent.resolution ++
        added.filterMap HistoryEvent.resolution := by
    rw [hc.filterMap_history _ rfl, List.filterMap_append, List.filterMap_cons_none rfl]
  refine ⟨hload, hc.nodup hb.nodup hb.lt hkept hadded, fun id hid => ?_, fun k hk => ?_⟩
  · rw [hc.filterMap_history _ rfl, hkept, List.append_nil] at hid
    rcases List.mem_append.mp hid with hid | hid
    · exact Int.lt_of_lt_of_le (hb.lt id hid) hrec.lt.1
    · exact hrec.lt.2 id hid
  · rw [hres]
    rw [hc.dispatched] at hk
    rcases List.mem_append.mp hk with hk | hk
    · rcases hb.dispatched k hk with ⟨t, ht⟩ | hk
      · rcases hset _ ht with hT | hdone
        · exact .inl ⟨t, hrec.subset hT⟩
        · exact .inr (List.mem_append_left _ hdone)
      · refine .inr (List.mem_append_left _ ?_)
        rw [List.filterMap_append]
        exact List.mem_append_left _ hk
    · exact .inl (hdis k hk)

end Commit

/-! ### A running execution -/

/-- Every replay beyond the history goes through what the replay `r` of an earlier turn observed. -/
def Passes (sdk : Sdk σ) (x : Execution σ) (r : Machine σ) : Prop :=
  ∀ (old new ext : List HistoryEvent) (uuid : Nat → String), ext ≠ [] →
    old ++ new = x.history ++ ext →
    ∃ m, Transition.Reaches (Machine.step (sdk.withUuid uuid)) (Machine.init x.id old new) m ∧
      m.trace = r.trace ∧ m.ctx.pend.allocated = r.ctx.pend.allocated

theorem Committed.passes {r : Machine σ} (hc : Committed sdk x x' env uuid kept added m v s s')
    (h : Passes sdk x r) : Passes sdk x' r := by
  intro old new ext uuid hext heq
  rw [hc.history, List.append_assoc, List.append_assoc] at heq
  rw [hc.id]
  exact h old new _ uuid (by simp) heq

structure Running (sdk : Sdk σ) (x : Execution σ) (snap : Snapshot σ) : Prop where
  begun : x.history ≠ []
  books : Books x snap.first snap.tasks
  sound : snap.Sound x.history
  replays : snap.Replays sdk x.id x.history
  passes : ∀ r ∈ x.replays, Passes sdk x r

/-- An execution with a completion in its history. -/
structure Closed (x : Execution σ) : Prop where
  completed : (x.history.findSome? HistoryEvent.getExecutionCompleted).isSome = true
  loadable : Loadable x.history
  nodup : (x.history.filterMap HistoryEvent.schedulingID).Nodup

namespace Running

variable {snap : Snapshot σ}

/-- A replay of the history and a batch. -/
theorem run (h : Running sdk x snap) (ha : Arrives x kept)
    (hrun : Transition.Reaches (Machine.step (sdk.withUuid uuid))
      (Machine.init x.id x.history (started env :: kept)) m) :
    m.errors = [] ∧ (Machine.step (sdk.withUuid uuid) m = none →
      m.Terminated snap.first ∨ ∃ T, m.Finished snap.first snap.tasks T) := by
  obtain ⟨m₁, hm₁, hmatch⟩ :=
    h.replays x.history (started env :: kept) (started env :: kept) uuid nofun rfl
  have hev : m₁.hist.events = x.history ++ started env :: kept := Machine.events_of_reaches hm₁
  have hin := hmatch.inTurn h.sound (ha.fits h.books h.sound env) hev
  have hacc := hmatch.accounts h.sound hev
  refine ⟨?_, fun hhalt => ?_⟩
  · rcases hrun.total hm₁ with hbefore | hafter
    · exact Machine.errors_of_reaches hbefore hmatch.errors
    · rcases Machine.inTurn_of_reaches hin hacc hafter with ⟨T, hT, -⟩ | ht
      · exact hT.errors
      · exact ht.errors
  · rcases Machine.inTurn_of_reaches hin hacc (hrun.of_halted hhalt hm₁) with ⟨T, hT, hTa⟩ | ht
    · exact .inr ⟨T, .of_halted hT hTa hhalt⟩
    · exact .inl ht

end Running

/-- The end of a turn: the execution is completed, or its work is recorded and it goes on. -/
theorem Committed.settle {first : ActionID} {tasks : List (ActionID × PendingTask)}
    (hc : Committed sdk x x' env uuid kept added m v s s') (hb : Books x first tasks)
    (hload : Loadable x'.history) (hkept : kept.filterMap HistoryEvent.schedulingID = [])
    (hpasses : ∀ r ∈ x.replays, Passes sdk x r)
    (hmeets : m.ctx.core.isTerminated = false → Snapshot.Meets sdk x.id v first uuid
      (Machine.init x.id x.history (started env :: kept))
      (x.history ++ v.start (started env) :: kept ++ added))
    (hend : m.Terminated first ∨ ∃ T, m.Finished first tasks T) :
    Closed x' ∨ ∃ snap', Running sdk x' snap' := by
  have hev : m.hist.events = x.history ++ started env :: kept := Machine.events_of_reaches hc.run
  rcases hend with ht | ⟨T, hm⟩
  · obtain ⟨y, hy, hcomp⟩ := ht.ended.completion
    have hids := added_ids (action_ids ht.ended.nodup ht.ended.bound ht.ended.ids) hc.applied
    exact .inl ⟨hc.closed (hc.applied.completed
        (Ctx.completion_mem (fun _ => ht.terminated) hy hcomp)),
      hload, hc.nodup hb.nodup hb.lt hkept hids⟩
  · obtain ⟨es, hn⟩ := hm.turn.numbered
    have hids := added_ids hn.action_ids hc.applied
    rcases hm.outcome hn hc.applied hc.idle with hcomp | ⟨b', es', T', hrec, hsus, hdis⟩
    · exact .inl ⟨hc.closed hcomp, hload, hc.nodup hb.nodup hb.lt hkept hids⟩
    · have hsound := Snapshot.sound_ending hm hc.position rfl hev
        (Machine.recorded_of_reaches hc.run) hrec
      have hreplays := Snapshot.replays_ending (hmeets hm.turn.terminated) hc.run hc.halted hm hn hev
        hc.patches hrec hsus
      rw [← hc.history] at hsound hreplays
      rw [← hc.id] at hreplays
      have hset := hm.accounts.settled
      rw [hev] at hset
      refine .inr ⟨_, ?_, hb.commit hc hload hkept hids hrec hset hdis, hsound, hreplays,
        fun r hr => ?_⟩
      · rw [hc.history]
        simp
      · rw [hc.replays] at hr
        rcases List.mem_append.mp hr with hr | hr
        · exact hc.passes (hpasses r hr)
        · rw [List.mem_singleton.mp hr]
          intro old new ext uuid' hext heq
          obtain ⟨m', hm', hmatch⟩ := hreplays old new ext uuid' hext heq
          exact ⟨m', hm', hmatch.trace, hmatch.allocated⟩

theorem Running.turn {snap : Snapshot σ} (h : Running sdk x snap) (ha : Arrives x kept)
    (hc : Committed sdk x x' env uuid kept added m v s s') :
    Closed x' ∨ ∃ snap', Running sdk x' snap' :=
  hc.settle h.books (h.books.loadable_commit hc ha)
    (ha.filterMap_eq_nil fun _ he => he.notScheduling) h.passes
    (fun _ => Snapshot.meets_of_replays h.sound h.replays (ha.fits h.books h.sound env) rfl
      hc.position uuid)
    ((h.run ha hc.run).2 hc.halted)

/-! ### The first turn -/

structure Fresh (x : Execution σ) : Prop where
  history : x.history = []
  dispatched : x.dispatched = []
  replays : x.replays = []

/-- An execution whose workflow function is not available in the version that was chosen for it: every
turn ends when it is looked up. -/
structure Stuck (sdk : Sdk σ) (x : Execution σ) : Prop where
  begins : ∃ e₀ e es rest, x.history = e₀ :: e :: rest ∧ e₀.eventType = .workflowStarted none ∧
    e.eventType = .executionStarted es ∧
    sdk.registry.resolveWorkflow es.name none = .error .unsupportedVersion
  loadable : Loadable x.history
  notScheduling : x.history.filterMap HistoryEvent.schedulingID = []
  dispatched : x.dispatched = []
  replays : ∀ r ∈ x.replays, r.trace = [] ∧ r.ctx.pend.allocated = [0]

/-- Without scheduling actions nothing is scheduled. -/
theorem notScheduling_of_applied {actions : List WorkflowAction}
    (happ : Applier.Applied actions s s' added) (hidle : s.dispatched = [])
    (h : ∀ action ∈ actions, action.actionType.isScheduling = false ∧ action.actionType.kind = none) :
    added.filterMap HistoryEvent.schedulingID = [] ∧ s'.dispatched = [] := by
  refine ⟨?_, List.eq_nil_iff_forall_not_mem.mpr fun k hk => ?_⟩
  · have hnone : actions.filter (fun action => action.actionType.isScheduling) = [] :=
      List.filter_eq_nil_iff.mpr fun action ha => by simp [(h action ha).1]
    have := happ.scheduling
    rw [hnone] at this
    exact List.sublist_nil.mp this
  · rcases happ.dispatched k hk with hk | ⟨action, ha, -, hkind⟩
    · rw [hidle] at hk
      exact absurd hk List.not_mem_nil
    · rw [(h action ha).2] at hkind
      cases hkind

/-- What a replay returns that found no workflow function. -/
theorem actions_failed {id : InstanceID} {old new : List HistoryEvent} {e₀ : HistoryEvent}
    {version : Option WorkflowVersion} {err : ProcessError} :
    ∀ action ∈ (Machine.failed id old new e₀ version err : Machine σ).ctx.actions,
      action.actionType.isScheduling = false ∧ action.actionType.kind = none := by
  intro action ha
  obtain ⟨y, hy, rfl⟩ := Ctx.mem_actions ha
  rw [(Ctx.withCarryover_frame _ _).2.1, (Ctx.withCarryover_frame _ _).2.2.2]
  unfold Machine.failed Ctx.onStartError at hy
  dsimp only at hy
  split at hy <;> cases List.mem_singleton.mp hy <;> exact ⟨rfl, rfl⟩

section First

variable {e : HistoryEvent} {es : ExecutionStartedEvent} {rest : List HistoryEvent} {w : σ}
  {resolved : Option String} {err : ProcessError}

theorem Fresh.books (hf : Fresh x) : Books x 0 [] := by
  have hnil {α : Type} (f : HistoryEvent → Option α) : x.history.filterMap f = [] := by
    rw [hf.history]
    rfl
  refine ⟨⟨by rw [hnil]; exact Nat.zero_le 1, by rw [hnil]; exact Nat.zero_le 1,
    by rw [hnil]; exact List.nodup_nil⟩, by rw [hnil]; exact List.nodup_nil, ?_, ?_⟩
  · rw [hnil]
    exact fun _ hid => absurd hid List.not_mem_nil
  · rw [hf.dispatched]
    exact fun _ hk => absurd hk List.not_mem_nil

theorem Fresh.usual (hf : Fresh x) (ha : Arrives x rest) :
    ∀ y ∈ rest, isOrdinary y = true ∧ y.resolution = none := by
  intro y hy
  refine ⟨(ha.usual y hy).ordinary, Option.eq_none_iff_forall_ne_some.mpr fun k hk => ?_⟩
  have := (ha.usual y hy).dispatched k hk
  rw [hf.dispatched] at this
  exact absurd this List.not_mem_nil

theorem Fresh.loadable (hf : Fresh x) (he : e.eventType = .executionStarted es)
    (ha : Arrives x rest) (hc : Committed sdk x x' env uuid (e :: rest) added m v s s') :
    Loadable x'.history ∧ (e :: rest).filterMap HistoryEvent.schedulingID = [] := by
  have hstart : e.getExecutionStarted = some es := by
    unfold HistoryEvent.getExecutionStarted
    rw [he]
  have hcomp : e.getExecutionCompleted = none := by
    unfold HistoryEvent.getExecutionCompleted
    rw [he]
  have hres : e.resolution = none := by
    unfold HistoryEvent.resolution
    rw [he]
  have hsched : e.schedulingID = none := by
    unfold HistoryEvent.schedulingID
    rw [he]
  refine ⟨hc.loadable hf.books.loadable ?_ ?_ ?_ ?_, ?_⟩
  · rw [hf.history, List.filterMap_cons_some hstart,
      ha.filterMap_eq_nil fun y hy => hy.notStart]
    exact Nat.le_refl 1
  · rw [List.filterMap_cons_none hcomp]
    exact ha.filterMap_eq_nil fun y hy => hy.notCompleted
  · rw [List.filterMap_cons_none hres]
    exact ha.nodup
  · rw [List.filterMap_cons_none hres]
    exact ha.fresh
  · rw [List.filterMap_cons_none hsched]
    exact ha.filterMap_eq_nil fun y hy => hy.notScheduling

/-- The replay of the first turn, once the workflow function is called. -/
theorem Fresh.inTurn (hf : Fresh x) (ha : Arrives x rest) :
    (Machine.entered x.id x.history (started env :: e :: rest) (started env) none es w
      resolved).InTurn 0 [] := by
  have honce := ha.once
  rw [hf.history] at honce ⊢
  exact Machine.inTurn_entered rfl (hf.usual ha) honce

theorem Fresh.accounts (hf : Fresh x) (he : e.eventType = .executionStarted es) :
    (Machine.entered x.id x.history (started env :: e :: rest) (started env) none es w
      resolved).Accounts [] [] := by
  rw [hf.history]
  exact Machine.accounts_entered rfl rfl he

theorem Fresh.reaches (hf : Fresh x) (he : e.eventType = .executionStarted es)
    (hres : sdk.registry.resolveWorkflow es.name none = .ok (w, resolved)) :
    Transition.Reaches (Machine.step (sdk.withUuid uuid))
      (Machine.init x.id x.history (started env :: e :: rest))
      (Machine.entered x.id x.history (started env :: e :: rest) (started env) none es w
        resolved) :=
  Machine.reaches_entered (sdk.withUuid uuid) x.id (by rw [hf.history]; rfl) rfl he hres

/-- The first turn, when there is a workflow function to call. -/
theorem Fresh.start (hf : Fresh x) (he : e.eventType = .executionStarted es) (ha : Arrives x rest)
    (hc : Committed sdk x x' env uuid (e :: rest) added m v s s')
    (hres : sdk.registry.resolveWorkflow es.name none = .ok (w, resolved)) :
    Closed x' ∨ ∃ snap', Running sdk x' snap' := by
  obtain ⟨hload, hkept⟩ := hf.loadable he ha hc
  have hafter := hc.run.of_halted hc.halted (hf.reaches he hres)
  have hin : (Machine.entered x.id x.history (started env :: e :: rest) (started env) none es w
      resolved).InTurn 0 [] := hf.inTurn ha
  have hacc : (Machine.entered x.id x.history (started env :: e :: rest) (started env) none es w
      resolved).Accounts [] [] := hf.accounts he
  refine hc.settle hf.books hload hkept ?_ (fun hterm => ?_) ?_
  · rw [hf.replays]
    exact fun _ hr => absurd hr List.not_mem_nil
  · have hname : (v.version.getD {}).name = resolved := by
      rw [hc.versionName, Machine.versionName_of_reaches hin hacc ?_ hafter hterm]
      · exact Option.or_none
      · rw [Machine.upcoming_entered (by rw [hf.history]; rfl)]
        exact fun y hy => (ha.usual y hy).notStarted
    have honce := ha.once
    have hpos := hc.position
    rw [hf.history] at honce hpos ⊢
    exact Snapshot.meets_first hpos rfl he hres hname (hf.usual ha) honce uuid
  · rcases Machine.inTurn_of_reaches hin hacc hafter with ⟨T, hT, hTa⟩ | ht
    · exact .inr ⟨T, .of_halted hT hTa hc.halted⟩
    · exact .inl ht

/-- A first turn that finds no workflow function completes the execution, or leaves it stuck. -/
theorem Fresh.fail (hf : Fresh x) (he : e.eventType = .executionStarted es) (ha : Arrives x rest)
    (hc : Committed sdk x x' env uuid (e :: rest) added m v s s')
    (hres : sdk.registry.resolveWorkflow es.name none = .error err) : Closed x' ∨ Stuck sdk x' := by
  obtain ⟨hload, hkept⟩ := hf.loadable he ha hc
  have hm : m = .failed x.id x.history (started env :: e :: rest) (started env) none err := by
    have hev : x.history ++ started env :: e :: rest = started env :: e :: rest := by
      rw [hf.history]
      rfl
    have he₀ : (started env).eventType = .workflowStarted none := rfl
    rcases Machine.reached_of_failed (sdk.withUuid uuid) x.id hev he₀ he hc.run hres with
      ⟨-, hsome⟩ | ⟨-, hsome | hm⟩
    · rw [hc.halted] at hsome
      cases hsome
    · rw [hc.halted] at hsome
      cases hsome
    · exact hm
  have happ := hc.applied
  have hversion := hc.version
  rw [hm] at happ hversion
  obtain ⟨hadded, hdis⟩ := notScheduling_of_applied happ hc.idle actions_failed
  have hids : x'.history.filterMap HistoryEvent.schedulingID = [] := by
    rw [hc.filterMap_history _ rfl, hf.history, hkept, hadded]
    rfl
  by_cases herr : err = .unsupportedVersion
  · right
    have hpend : (Machine.failed x.id x.history (started env :: e :: rest) (started env) none err :
        Machine σ).ctx.core.encounteredPatches = [] ∧
        (Machine.failed x.id x.history (started env :: e :: rest) (started env) none err :
          Machine σ).ctx.pend.allocated = [0] := by
      subst herr
      exact ⟨rfl, rfl⟩
    have hnone : v.version = none := by
      rw [hversion]
      unfold Machine.response
      rw [hpend.1]
      rfl
    refine ⟨⟨v.start (started env), e, es, rest ++ added, ?_, ?_, he, herr ▸ hres⟩, hload, hids, ?_,
      fun r hr => ?_⟩
    · rw [hc.history, hf.history]
      rfl
    · show EventType.workflowStarted v.version = _
      rw [hnone]
    · rw [hc.dispatched, hf.dispatched, hdis]
      rfl
    · rw [hc.replays, hf.replays] at hr
      rw [List.mem_singleton.mp hr, hm]
      exact ⟨rfl, hpend.2⟩
  · left
    refine ⟨hc.closed (happ.completed ?_), hload, ?_⟩
    · have hctx : (Machine.failed x.id x.history (started env :: e :: rest) (started env) none err :
          Machine σ).ctx = Ctx.setFailed _ ⟨"*errors.errorString", err.message⟩ := if_neg herr
      rw [hctx]
      exact Ctx.completion_mem nofun List.mem_cons_self rfl
    · rw [hids]
      exact List.nodup_nil

/-- A replay of the first turn. -/
theorem Fresh.errors (hf : Fresh x) (he : e.eventType = .executionStarted es) (ha : Arrives x rest)
    (hrun : Transition.Reaches (Machine.step (sdk.withUuid uuid))
      (Machine.init x.id x.history (started env :: e :: rest)) m) :
    ∀ err ∈ m.errors, err.isPreviousExecution = false := by
  cases hres : sdk.registry.resolveWorkflow es.name none with
  | ok r =>
    have hnil : m.errors = [] := by
      rcases hrun.total (hf.reaches he hres) with hbefore | hafter
      · exact Machine.errors_of_reaches hbefore rfl
      · rcases Machine.inTurn_of_reaches (hf.inTurn ha) (hf.accounts he) hafter with ⟨T, hT, -⟩ | ht
        · exact hT.errors
        · exact ht.errors
    rw [hnil]
    exact fun _ hmem => absurd hmem List.not_mem_nil
  | error err =>
    have hev : x.history ++ started env :: e :: rest = started env :: e :: rest := by
      rw [hf.history]
      rfl
    have he₀ : (started env).eventType = .workflowStarted none := rfl
    rcases Machine.reached_of_failed (sdk.withUuid uuid) x.id hev he₀ he hrun hres with
      ⟨herr, -⟩ | ⟨herr, -⟩
    · rw [herr]
      exact fun _ hmem => absurd hmem List.not_mem_nil
    · rw [herr]
      intro err' hmem
      rw [List.mem_singleton.mp hmem]
      exact TaskRegistry.resolveWorkflow_error hres

end First

/-- A replay of a stuck execution. -/
theorem Stuck.run {old new ext : List HistoryEvent} (h : Stuck sdk x)
    (hev : old ++ new = x.history ++ ext)
    (hrun : Transition.Reaches (Machine.step (sdk.withUuid uuid)) (Machine.init x.id old new) m) :
    (∀ err ∈ m.errors, err.isPreviousExecution = false) ∧
      (Machine.step (sdk.withUuid uuid) m = none → ∃ e₀,
        m = .failed x.id old new e₀ none .unsupportedVersion) := by
  obtain ⟨e₀, e, es, rest, hhist, he₀, he, hres⟩ := h.begins
  rw [hhist] at hev
  rcases Machine.reached_of_failed (sdk.withUuid uuid) x.id hev he₀ he hrun hres with
    ⟨herr, hsome⟩ | ⟨herr, hend⟩
  · refine ⟨fun err hmem => ?_, fun hhalt => ?_⟩
    · rw [herr] at hmem
      exact absurd hmem List.not_mem_nil
    · rw [hhalt] at hsome
      cases hsome
  · refine ⟨fun err hmem => ?_, fun hhalt => ?_⟩
    · rw [herr] at hmem
      rw [List.mem_singleton.mp hmem]
      rfl
    · rw [hhalt] at hend
      exact ⟨e₀, hend.resolve_left nofun⟩

theorem Stuck.turn (h : Stuck sdk x) (ha : Arrives x kept)
    (hc : Committed sdk x x' env uuid kept added m v s s') : Stuck sdk x' := by
  obtain ⟨e₁, hm⟩ := (h.run rfl hc.run).2 hc.halted
  have happ := hc.applied
  rw [hm] at happ
  obtain ⟨hadded, hdis⟩ := notScheduling_of_applied happ hc.idle actions_failed
  obtain ⟨e₀, e, es, rest, hhist, he₀, he, hres⟩ := h.begins
  refine ⟨⟨e₀, e, es, rest ++ v.start (started env) :: kept ++ added, ?_, he₀, he, hres⟩, ?_, ?_, ?_,
    fun r hr => ?_⟩
  · rw [hc.history, hhist]
    simp
  · refine hc.loadable h.loadable ?_ (ha.filterMap_eq_nil fun y hy => hy.notCompleted) ha.nodup
      ha.fresh
    rw [ha.filterMap_eq_nil fun y hy => hy.notStart]
    exact h.loadable.started
  · rw [hc.filterMap_history _ rfl, h.notScheduling, hadded,
      ha.filterMap_eq_nil fun y hy => hy.notScheduling]
    rfl
  · rw [hc.dispatched, h.dispatched, hdis]
    rfl
  · rw [hc.replays] at hr
    rcases List.mem_append.mp hr with hr | hr
    · exact h.replays r hr
    · rw [List.mem_singleton.mp hr, hm]
      exact ⟨rfl, rfl⟩

/-! ### Runs of turns -/

/-- How an execution stands between two turns. -/
inductive Status (sdk : Sdk σ) (x : Execution σ) : Prop
  | fresh (h : Fresh x)
  | running (snap : Snapshot σ) (h : Running sdk x snap)
  | stuck (h : Stuck sdk x)
  | closed (h : Closed x)

theorem Status.loadable (h : Status sdk x) : Loadable x.history := by
  cases h with
  | fresh h => exact h.books.loadable
  | running _ h => exact h.books.loadable
  | stuck h => exact h.loadable
  | closed h => exact h.loadable

theorem Status.nodup (h : Status sdk x) :
    (x.history.filterMap HistoryEvent.schedulingID).Nodup := by
  cases h with
  | fresh h => exact h.books.nodup
  | running _ h => exact h.books.nodup
  | stuck h => rw [h.notScheduling]; exact List.nodup_nil
  | closed h => exact h.nodup

theorem Status.turn (h : Status sdk x) (t : Turn sdk a x x') : Status sdk x' := by
  obtain ⟨batch, env, uuid, added, m, v, s, s', hacc, -, hc⟩ := committed_of_turn h.loadable t
  cases h with
  | fresh h =>
    obtain ⟨e, es, rest, he, hkept, ha⟩ := start_of_accepts hacc h.history
    have hnone : (x.history.findSome? HistoryEvent.getExecutionStarted).isSome = false := by
      rw [h.history]
      rfl
    rw [hnone, hkept] at hc
    cases hres : sdk.registry.resolveWorkflow es.name none with
    | ok r =>
      rcases h.start he ha hc hres with hx' | ⟨snap, hx'⟩
      · exact .closed hx'
      · exact .running snap hx'
    | error err =>
      rcases h.fail he ha hc hres with hx' | hx'
      · exact .closed hx'
      · exact .stuck hx'
  | running snap h =>
    rcases h.turn (arrives_of_accepts hacc h.begun _ _) hc with hx' | ⟨snap', hx'⟩
    · exact .closed hx'
    · exact .running snap' hx'
  | stuck h =>
    obtain ⟨e₀, e, es, rest, hhist, -⟩ := h.begins
    exact .stuck (h.turn (arrives_of_accepts hacc (by rw [hhist]; exact nofun) _ _) hc)
  | closed h =>
    have := h.completed
    rw [hc.wasIncomplete] at this
    cases this

theorem status_of_reachable (h : Reachable sdk a x) : Status sdk x := by
  induction h with
  | new id customStatus => exact .fresh ⟨rfl, rfl, rfl⟩
  | turn _ t ih => exact ih.turn t

/-- No replay of the next batch fails with a nondeterminism error. -/
theorem Status.errors (h : Status sdk x) (hacc : x.accepts batch = true)
    (hl : Loaded x batch env s)
    (hrun : Transition.Reaches (Machine.step (sdk.withUuid uuid)) (x.replay s) m) :
    ∀ err ∈ m.errors, err.isPreviousExecution = false := by
  unfold replay at hrun
  rw [hl.oldEvents, hl.newEvents] at hrun
  cases h with
  | fresh h =>
    obtain ⟨e, es, rest, he, hkept, ha⟩ := start_of_accepts hacc h.history
    have hnone : (x.history.findSome? HistoryEvent.getExecutionStarted).isSome = false := by
      rw [h.history]
      rfl
    rw [hnone, hkept] at hrun
    exact h.errors he ha hrun
  | running snap h =>
    rw [(h.run (arrives_of_accepts hacc h.begun _ _) hrun).1]
    exact fun _ hmem => absurd hmem List.not_mem_nil
  | stuck h => exact (h.run rfl hrun).1
  | closed h =>
    have := h.completed
    rw [hl.incomplete] at this
    cases this

/-- What an earlier turn observed is observed again. -/
theorem Status.passes (h : Status sdk x) {r : Machine σ} (hr : r ∈ x.replays)
    (hl : Loaded x batch env s) :
    ∃ m, Transition.Reaches (Machine.step (sdk.withUuid uuid)) (x.replay s) m ∧
      m.trace = r.trace ∧ m.ctx.pend.allocated = r.ctx.pend.allocated := by
  unfold replay
  rw [hl.oldEvents, hl.newEvents]
  cases h with
  | fresh h =>
    rw [h.replays] at hr
    exact absurd hr List.not_mem_nil
  | running snap h => exact h.passes r hr _ _ _ uuid (List.cons_ne_nil _ _) rfl
  | stuck h =>
    obtain ⟨e₀, e, es, rest, hhist, he₀, he, hres⟩ := h.begins
    obtain ⟨htrace, halloc⟩ := h.replays r hr
    refine ⟨_, Machine.reaches_failed (sdk.withUuid uuid) x.id (by rw [hhist]; rfl) he₀ he hres, ?_, ?_⟩
    · rw [htrace]
      rfl
    · rw [halloc]
      rfl
  | closed h =>
    have := h.completed
    rw [hl.incomplete] at this
    cases this

end Execution

/-- Replay self-consistency: in every run of turns no replay fails with a nondeterminism error, an
action id is recorded by at most one scheduling event, and every later replay takes the workflow
through the calls, ids and results that each earlier turn observed. -/
theorem replay_consistent {sdk : Sdk σ} {a : Applier} {x : Execution σ}
    (h : Execution.Reachable sdk a x) :
    (∀ batch env s uuid m, x.accepts batch = true →
      WorkflowProcessor.applyWorkItem env (x.workItem batch) = some s →
      Transition.Reaches (Machine.step (sdk.withUuid uuid)) (x.replay s) m →
      ∀ err ∈ m.errors, err.isPreviousExecution = false) ∧
    (x.history.filterMap HistoryEvent.schedulingID).Nodup ∧
    ∀ r ∈ x.replays, ∀ batch env s uuid, x.accepts batch = true →
      WorkflowProcessor.applyWorkItem env (x.workItem batch) = some s →
      ∃ m, Transition.Reaches (Machine.step (sdk.withUuid uuid)) (x.replay s) m ∧
        m.trace = r.trace ∧ m.ctx.pend.allocated = r.ctx.pend.allocated := by
  have hx := Execution.status_of_reachable h
  refine ⟨fun batch env s uuid m hacc hs hrun => ?_, hx.nodup, fun r hr batch env s uuid _ hs => ?_⟩
  · exact hx.errors hacc (Execution.loaded_of_applyWorkItem hx.loadable hs) hrun
  · exact hx.passes hr (Execution.loaded_of_applyWorkItem hx.loadable hs)

namespace ReplayExample

/-- Charge a customer, then ship. -/
inductive Flow
  | charge
  | charging (task : TaskRef)
  | ship
  | shipping (task : TaskRef)
  | finished

def next : Flow → Step Flow
  | .charge => .call (.callActivity "charge" []) fun
    | .task t => .charging t
    | _ => .finished
  | .charging t => .call (.await t none) fun _ => .ship
  | .ship => .call (.callActivity "ship" []) fun
    | .task t => .shipping t
    | _ => .finished
  | .shipping t => .call (.await t none) fun _ => .finished
  | .finished => .ret (.ok .nil)

def sdk : Sdk Flow :=
  { env := SuspensionExample.env, registry := { workflows := [("order", .charge)] }, next := next }

def env : ProcessEnv :=
  let apply : ApplyEnv :=
    { now := fun _ => 0, uuid := fun _ => "e2", childInstanceID := fun i _ _ => i }
  ⟨0, fun _ => apply, apply, 0⟩

def start : HistoryEvent :=
  { eventType := .executionStarted { name := "order", workflowInstance := ⟨"i", some "e1"⟩ } }

def charged : HistoryEvent := { eventType := .taskCompleted { taskScheduledId := 0 } }

def shipped : HistoryEvent := { eventType := .taskCompleted { taskScheduledId := 1 } }

/-- Two turns, and a replay of both with a third batch. -/
theorem order_consistent :
    ∃ x : Execution Flow, Execution.Reachable sdk ⟨"app", ""⟩ x ∧
      x.history.filterMap HistoryEvent.schedulingID = [0, 1] ∧
      (x.history.filterMap HistoryEvent.schedulingID).Nodup ∧
      x.accepts [shipped] = true ∧
      ∃ s, WorkflowProcessor.applyWorkItem env (x.workItem [shipped]) = some s ∧
        x.replays.length = 2 ∧
        ∀ r ∈ x.replays, ∃ m,
          Transition.Reaches (Machine.step (sdk.withUuid fun _ => "u")) (x.replay s) m ∧
            m.trace = r.trace ∧ m.ctx.pend.allocated = r.ctx.pend.allocated := by
  have first : Execution.Turn sdk ⟨"app", ""⟩ { id := "i" } _ :=
    .commit [start] env (fun _ => "u1") none _ _ _ _ rfl rfl (Machine.reaches_run _ _ 20) rfl rfl rfl
  have h := (Execution.Reachable.turn (.new "i" none) first).turn
    (.commit [charged] env (fun _ => "u2") none _ _ _ _ rfl rfl (Machine.reaches_run _ _ 20) rfl rfl
      rfl)
  obtain ⟨-, hnodup, hlater⟩ := replay_consistent h
  exact ⟨_, h, rfl, hnodup, rfl, _, rfl, rfl, fun r hr => hlater r hr [shipped] env _ _ rfl rfl⟩

end ReplayExample

end DurableTask.Task
