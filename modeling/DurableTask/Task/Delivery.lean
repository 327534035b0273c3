import DurableTask.Task.Acts

/-!
# Delivery of resolutions

A resolution event can complete a task when it arrives, when the task is scheduled, when an optional
timer before the task is confirmed, or when one is dropped and the ids after it move. On all four ways
the first event of a kind and id is the one that is delivered, and only while no optional timer at or
before the id is unconfirmed. `Tidy` is about the numbers of pending work, `Linked` about the tasks
that acts name, and `Heard` about the events that arrived.
-/

namespace DurableTask.Task

/-! ### Acts about resolutions -/

namespace Act

def arrived? : Act → Option HistoryEvent
  | .arrived e => some e
  | _ => none

def deliveredKey? : Act → Option (Kind × ActionID)
  | .delivered k _ _ _ => some k
  | _ => none

def deliveredTask? : Act → Option Nat
  | .delivered _ t _ _ => some t
  | _ => none

/-- Whether an act neither schedules work nor delivers a resolution. -/
def isSilent : Act → Bool
  | .scheduled .. | .delivered .. => false
  | _ => true

end Act

/-- The first resolution event of a kind and id that arrived. -/
def firstArrival (acts : List Act) (k : Kind × ActionID) : Option HistoryEvent :=
  (acts.filterMap Act.arrived?).find? fun e => decide (e.resolution = some k)

section Acts

variable {acts acts' : List Act} {k k' : Kind × ActionID} {e : HistoryEvent}

theorem firstArrival_append (acts acts' : List Act) (k : Kind × ActionID) :
    firstArrival (acts ++ acts') k = (firstArrival acts k).or (firstArrival acts' k) := by
  unfold firstArrival
  rw [List.filterMap_append, List.find?_append]

theorem firstArrival_append_of_some (h : firstArrival acts k = some e) (acts' : List Act) :
    firstArrival (acts ++ acts') k = some e := by
  rw [firstArrival_append, h]
  rfl

theorem firstArrival_arrived (he : e.resolution = some k) : firstArrival [.arrived e] k = some e := by
  simp [firstArrival, Act.arrived?, he]

theorem firstArrival_arrived_of_ne (he : e.resolution = some k) (hne : k' ≠ k) :
    firstArrival [.arrived e] k' = none := by
  simp [firstArrival, Act.arrived?, he, Ne.symm hne]

theorem firstArrival_append_silent (h : ∀ a ∈ acts', a.arrived? = none) (k : Kind × ActionID) :
    firstArrival (acts ++ acts') k = firstArrival acts k := by
  unfold firstArrival
  rw [List.filterMap_append, List.filterMap_eq_nil_iff.mpr h, List.append_nil]

end Acts

/-! ### Numbers -/

namespace Pending

/-- The numbers of pending work: those of tasks are distinct and not resolved, an optional timer is
noted as one, and what is resolved comes before every optional timer. -/
structure Tidy (p : Pending) : Prop where
  keys : (p.pendingTasks.map Prod.fst).Nodup
  tasks : ∀ x ∈ p.pendingTasks, x.1 < p.sequenceNumber ∧ (x.2.kind, x.1) ∉ p.resolvedResolutions
  actions : ∀ x ∈ p.pendingActions, x.1 < p.sequenceNumber ∧
    (isOptionalExternalEventTimerAction x.2.action = true → x.1 ∈ p.optionalTimerIDs)
  optional : ∀ id ∈ p.optionalTimerIDs, ∀ k ∈ p.resolvedResolutions, k.2 < id
  resolved : ∀ k ∈ p.resolvedResolutions, k.2 < p.sequenceNumber
  nodup : p.resolvedResolutions.Nodup

/-- The pending work with other buffered resolutions. -/
def withBuffered (p : Pending) (buffered : List ((Kind × ActionID) × HistoryEvent)) : Pending :=
  { p with bufferedResolutions := buffered }

/-- Actions that are among the given ones, up to what they carry besides their task. -/
def Covered (actions actions' : List (ActionID × PendingAction)) : Prop :=
  ∀ x ∈ actions', ∃ y ∈ actions, y.1 = x.1 ∧ y.2.task = x.2.task ∧
    (isOptionalExternalEventTimerAction x.2.action = true →
      isOptionalExternalEventTimerAction y.2.action = true)

/-- The pending tasks for which a resolution is buffered, except those in a list, are after an
optional timer. -/
def Ready (ids : List ActionID) (p : Pending) : Prop :=
  ∀ x ∈ p.pendingTasks, (Assoc.get? p.bufferedResolutions (x.2.kind, x.1)).isSome = true →
    p.resolutionIDProvisional x.1 = true ∨ x.1 ∈ ids

variable {p : Pending} {id : ActionID} {k : Kind × ActionID} {e : HistoryEvent}

theorem mem_of_deliverable {t : Nat} (h : p.deliverable k = some t) :
    Assoc.get? p.pendingTasks k.2 = some ⟨k.1, t⟩ ∧ p.resolutionIDProvisional k.2 = false := by
  unfold deliverable at h
  split at h
  · next t' ht' =>
    split at h
    · next hcond =>
      cases h
      refine ⟨?_, Bool.not_eq_true _ ▸ hcond.2⟩
      rw [ht', ← hcond.1]
    · cases h
  · cases h

theorem provisional_of_not_deliverable {t : PendingTask} (h : p.deliverable (t.kind, id) = none)
    (hp : Assoc.get? p.pendingTasks id = some t) : p.resolutionIDProvisional id = true := by
  unfold deliverable at h
  rw [hp] at h
  by_contra hnot
  simp [hnot] at h

theorem lt_of_not_provisional (h : p.resolutionIDProvisional id = false) :
    ∀ timerID ∈ p.optionalTimerIDs, id < timerID := by
  intro timerID hmem
  have := List.any_eq_false.mp h timerID hmem
  simpa using this

/-- The ids that `noteOptional` leaves noted. -/
def noted (p : Pending) (id : ActionID) (a : WorkflowAction) : List ActionID :=
  if isOptionalExternalEventTimerAction a then p.optionalTimerIDs.filter (· ≠ id) ++ [id]
  else p.optionalTimerIDs

theorem noteOptional_eq (p : Pending) (id : ActionID) (a : WorkflowAction) :
    p.noteOptional id a = { p with optionalTimerIDs := p.noted id a } := by
  unfold noteOptional noted
  split <;> rfl

theorem mem_noted {a : WorkflowAction} {i : ActionID} (h : i ∈ p.noted id a) :
    i ∈ p.optionalTimerIDs ∨ i = id := by
  unfold noted at h
  split at h
  · rcases List.mem_append.mp h with h | h
    · exact .inl (List.mem_filter.mp h).1
    · exact .inr (List.mem_singleton.mp h)
  · exact .inl h

theorem mem_noted_of_mem {i : ActionID} (h : i ∈ p.optionalTimerIDs) (id : ActionID)
    (a : WorkflowAction) : i ∈ p.noted id a := by
  unfold noted
  split
  · by_cases hi : i = id
    · exact List.mem_append_right _ (List.mem_singleton.mpr hi)
    · exact List.mem_append_left _ (List.mem_filter.mpr ⟨h, decide_eq_true hi⟩)
  · exact h

theorem covered_erase (actions : List (ActionID × PendingAction)) (id : ActionID) :
    Covered actions (Assoc.erase actions id) :=
  fun x hx => ⟨x, (Assoc.mem_erase.mp hx).1, rfl, rfl, fun hopt => hopt⟩

theorem covered_modify (actions : List (ActionID × PendingAction)) (id : ActionID)
    {f : PendingAction → PendingAction} (hf : ∀ a, (f a).task = a.task ∧
      (isOptionalExternalEventTimerAction (f a).action = true →
        isOptionalExternalEventTimerAction a.action = true)) :
    Covered actions (Assoc.modify actions id f) := by
  intro x hx
  obtain ⟨y, hy, hid, hx⟩ := Assoc.mem_modify hx
  refine ⟨y, hy, hid, ?_⟩
  rcases hx with hx | hx
  · rw [hx]
    exact ⟨rfl, fun hopt => hopt⟩
  · rw [hx]
    exact ⟨(hf y.2).1.symm, (hf y.2).2⟩

/-- The pending actions after a resolution was delivered. -/
def restored (p : Pending) (k : Kind × ActionID) (e : HistoryEvent) : List (ActionID × PendingAction) :=
  match recordedExecutionID e with
  | some executionID => (p.restoreActivityScheduleIdentity k.2 executionID).pendingActions
  | none => p.pendingActions

theorem resolve_eq (p : Pending) (k : Kind × ActionID) (e : HistoryEvent) :
    p.resolve k e = { p with
      pendingTasks := Assoc.erase p.pendingTasks k.2
      resolvedResolutions := p.resolvedResolutions ++ [k]
      pendingActions := p.restored k e } := by
  unfold resolve restored
  cases recordedExecutionID e <;> rfl

theorem covered_restored (p : Pending) (k : Kind × ActionID) (e : HistoryEvent) :
    Covered p.pendingActions (p.restored k e) := by
  unfold restored
  split
  · unfold restoreActivityScheduleIdentity
    dsimp only
    refine covered_modify p.pendingActions k.2 fun a => ?_
    split
    · exact ⟨rfl, fun hopt => nomatch hopt⟩
    · exact ⟨rfl, fun hopt => hopt⟩
  · exact fun x hx => ⟨x, hx, rfl, rfl, fun hopt => hopt⟩

namespace Tidy

theorem get? (h : p.Tidy) {x : ActionID × PendingTask} (hx : x ∈ p.pendingTasks) :
    Assoc.get? p.pendingTasks x.1 = some x.2 := Assoc.get?_of_mem h.keys hx

theorem unconfirmed (h : p.Tidy) (hnot : p.resolutionIDProvisional id = false) :
    p.unconfirmed id = false := by
  refine List.any_eq_false.mpr fun x hx => ?_
  simp only [Bool.and_eq_true, decide_eq_true_eq, not_and]
  intro hopt hle
  exact absurd (lt_of_not_provisional hnot x.1 ((h.actions x hx).2 hopt)) (Int.not_lt.mpr hle)

theorem addAction (h : p.Tidy) (actionType : WorkflowActionType) (router : Option TaskRouter)
    (task : Option Nat)
    (hmandatory : isOptionalExternalEventTimerAction ⟨0, actionType, router⟩ = false) :
    (p.addAction actionType router task).1.Tidy := by
  have hlt {i : ActionID} (hi : i < p.sequenceNumber) : i < p.sequenceNumber + 1 :=
    Int.lt_add_one_of_le (Int.le_of_lt hi)
  refine ⟨h.keys, fun x hx => ⟨hlt (h.tasks x hx).1, (h.tasks x hx).2⟩, fun x hx => ?_, h.optional,
    fun k hk => hlt (h.resolved k hk), h.nodup⟩
  rcases Assoc.mem_insert.mp hx with ⟨hx, -⟩ | rfl
  · exact ⟨hlt (h.actions x hx).1, (h.actions x hx).2⟩
  · refine ⟨Int.lt_succ p.sequenceNumber, fun hopt => ?_⟩
    exact absurd (hopt.symm.trans hmandatory) Bool.noConfusion

theorem covered (h : p.Tidy) {actions : List (ActionID × PendingAction)}
    (hcov : Covered p.pendingActions actions) :
    ({ p with pendingActions := actions } : Pending).Tidy := by
  refine ⟨h.keys, h.tasks, fun x hx => ?_, h.optional, h.resolved, h.nodup⟩
  obtain ⟨y, hy, hid, -, hopt⟩ := hcov x hx
  rw [← hid]
  exact ⟨(h.actions y hy).1, fun hx => (h.actions y hy).2 (hopt hx)⟩

theorem removeTimer (h : p.Tidy) (id : ActionID) : (p.removeTimer id).Tidy := by
  refine ⟨h.keys, h.tasks, fun x hx => ?_, fun i hi => h.optional i (List.mem_filter.mp hi).1,
    h.resolved, h.nodup⟩
  obtain ⟨hx, hne⟩ := Assoc.mem_erase.mp hx
  exact ⟨(h.actions x hx).1, fun hopt =>
    List.mem_filter.mpr ⟨(h.actions x hx).2 hopt, by simpa using hne⟩⟩

theorem withBuffered (h : p.Tidy) (buffered : List ((Kind × ActionID) × HistoryEvent)) :
    (p.withBuffered buffered).Tidy :=
  ⟨h.keys, h.tasks, h.actions, h.optional, h.resolved, h.nodup⟩

/-- Work is scheduled with a task. -/
theorem register (h : p.Tidy) (actionType : WorkflowActionType) (router : Option TaskRouter)
    (kind : Kind) (n : Nat) :
    (({ (p.addAction actionType router (some n)).1 with
        optionalTimerIDs := p.noted p.sequenceNumber ⟨p.sequenceNumber, actionType, router⟩
      } : Pending).addTask p.sequenceNumber kind n).Tidy := by
  have hlt {i : ActionID} (hi : i < p.sequenceNumber) : i < p.sequenceNumber + 1 :=
    Int.lt_add_one_of_le (Int.le_of_lt hi)
  have hfresh : ∀ k ∈ p.resolvedResolutions, k.2 ≠ p.sequenceNumber :=
    fun k hk => Int.ne_of_lt (h.resolved k hk)
  refine ⟨?_, fun x hx => ?_, fun x hx => ?_, fun i hi k hk => ?_, fun k hk => hlt (h.resolved k hk),
    h.nodup⟩
  · have hnot : p.sequenceNumber ∉ p.pendingTasks.map Prod.fst := by
      intro hmem
      obtain ⟨x, hx, hid⟩ := List.mem_map.mp hmem
      exact Int.ne_of_lt (h.tasks x hx).1 hid
    show ((Assoc.insert p.pendingTasks p.sequenceNumber _).map Prod.fst).Nodup
    rw [Assoc.insert_of_notMem hnot, List.map_append]
    refine List.nodup_append.mpr ⟨h.keys, List.nodup_singleton _, fun i hi j hj hij => ?_⟩
    have hid : i = p.sequenceNumber := hij.trans (List.mem_singleton.mp hj)
    exact hnot (hid ▸ hi)
  · rcases Assoc.mem_insert.mp hx with ⟨hx, -⟩ | rfl
    · exact ⟨hlt (h.tasks x hx).1, (h.tasks x hx).2⟩
    · exact ⟨Int.lt_succ p.sequenceNumber, fun hmem => hfresh _ hmem rfl⟩
  · rcases Assoc.mem_insert.mp hx with ⟨hx, -⟩ | rfl
    · exact ⟨hlt (h.actions x hx).1, fun hopt => mem_noted_of_mem ((h.actions x hx).2 hopt) _ _⟩
    · refine ⟨Int.lt_succ p.sequenceNumber, fun hopt => ?_⟩
      show p.sequenceNumber ∈ p.noted p.sequenceNumber _
      rw [noted, if_pos hopt]
      exact List.mem_append_right _ (List.mem_singleton_self _)
  · rcases mem_noted hi with hi | rfl
    · exact h.optional i hi k hk
    · exact h.resolved k hk

theorem mem_optionalTimerIDs (h : p.Tidy) (hopt : p.optionalAt id = true) :
    id ∈ p.optionalTimerIDs := by
  unfold optionalAt at hopt
  split at hopt
  · next a ha => exact (h.actions _ (Assoc.mem_of_get? ha)).2 hopt
  · cases hopt

/-- An optional timer that is pending comes after everything that is resolved. -/
theorem lt_optionalAt (h : p.Tidy) (hopt : p.optionalAt id = true) :
    id < p.sequenceNumber ∧ ∀ k ∈ p.resolvedResolutions, k.2 < id := by
  refine ⟨?_, h.optional id (h.mem_optionalTimerIDs hopt)⟩
  unfold optionalAt at hopt
  split at hopt
  · next a ha => exact (h.actions _ (Assoc.mem_of_get? ha)).1
  · cases hopt

theorem dropAt (h : p.Tidy) (hopt : p.optionalAt id = true) : (p.dropAt id).Tidy := by
  obtain ⟨hid, hres⟩ := h.lt_optionalAt hopt
  refine ⟨?_, fun x hx => ?_, fun x hx => ?_, fun i hi k hk => ?_, fun k hk => ?_, h.nodup⟩
  · show (((Assoc.erase p.pendingTasks id).map fun e => (shiftID id e.1, e.2)).map Prod.fst).Nodup
    have hmap : ((Assoc.erase p.pendingTasks id).map fun e => (shiftID id e.1, e.2)).map Prod.fst =
        ((Assoc.erase p.pendingTasks id).map Prod.fst).map (shiftID id) := by
      rw [List.map_map, List.map_map]
      rfl
    rw [hmap]
    refine List.Nodup.map_on (fun i hi j hj hij => ?_) (Assoc.erase_nodup h.keys)
    obtain ⟨x, hx, rfl⟩ := List.mem_map.mp hi
    obtain ⟨y, hy, rfl⟩ := List.mem_map.mp hj
    have hx := (Assoc.mem_erase.mp hx).2
    have hy := (Assoc.mem_erase.mp hy).2
    unfold shiftID at hij
    unfold ActionID at *
    split at hij <;> split at hij <;> omega
  · obtain ⟨y, hy, rfl⟩ := List.mem_map.mp hx
    obtain ⟨hy, hne⟩ := Assoc.mem_erase.mp hy
    obtain ⟨hlt, hnot⟩ := h.tasks y hy
    show shiftID id y.1 < p.sequenceNumber - 1 ∧ (y.2.kind, shiftID id y.1) ∉ p.resolvedResolutions
    unfold shiftID
    unfold ActionID at *
    split
    · refine ⟨by omega, fun hmem => ?_⟩
      have := hres _ hmem
      dsimp only at this
      omega
    · exact ⟨by omega, hnot⟩
  · obtain ⟨y, hy, rfl⟩ := List.mem_map.mp hx
    obtain ⟨hy, hne⟩ := Assoc.mem_erase.mp hy
    obtain ⟨hlt, hnoted⟩ := h.actions y hy
    have hsome : (Assoc.get? p.pendingActions y.1).isSome = true := by
      by_contra hnone
      rw [Option.not_isSome_iff_eq_none, Assoc.get?_eq_none_iff] at hnone
      exact hnone (List.mem_map_of_mem hy)
    have hshift : (shiftAction id y).1 = shiftID id y.1 ∧
        isOptionalExternalEventTimerAction (shiftAction id y).2.action =
          isOptionalExternalEventTimerAction y.2.action := by
      unfold shiftAction shiftID
      split <;> exact ⟨rfl, rfl⟩
    rw [hshift.1, hshift.2]
    refine ⟨?_, fun hopt => List.mem_map.mpr ⟨y.1, List.mem_filter.mpr ⟨hnoted hopt, by simpa using hne⟩,
      if_pos hsome⟩⟩
    show shiftID id y.1 < p.sequenceNumber - 1
    unfold shiftID
    unfold ActionID at *
    split <;> omega
  · obtain ⟨j, hj, rfl⟩ := List.mem_map.mp hi
    have hk : k ∈ p.resolvedResolutions := hk
    have hlt := hres k hk
    have hj := h.optional j (List.mem_filter.mp hj).1 k hk
    unfold shiftID
    unfold ActionID at *
    split
    · split <;> omega
    · exact hj
  · have := hres k hk
    show k.2 < p.sequenceNumber - 1
    unfold ActionID at *
    omega

/-- The pending work after a resolution was delivered. -/
theorem resolve (h : p.Tidy) {t : PendingTask} (hget : Assoc.get? p.pendingTasks k.2 = some t)
    (hkind : t.kind = k.1) (hnot : p.resolutionIDProvisional k.2 = false) (e : HistoryEvent) :
    (p.resolve k e).Tidy := by
  obtain ⟨hlt, hunres⟩ := h.tasks _ (Assoc.mem_of_get? hget)
  rw [hkind] at hunres
  have htidy : ({ p with
      pendingTasks := Assoc.erase p.pendingTasks k.2
      resolvedResolutions := p.resolvedResolutions ++ [k] } : Pending).Tidy := by
    refine ⟨Assoc.erase_nodup h.keys, fun x hx => ?_, h.actions, fun i hi k' hk' => ?_,
      fun k' hk' => ?_, ?_⟩
    · obtain ⟨hx, hne⟩ := Assoc.mem_erase.mp hx
      refine ⟨(h.tasks x hx).1, fun hmem => ?_⟩
      rcases List.mem_append.mp hmem with hmem | hmem
      · exact (h.tasks x hx).2 hmem
      · exact hne (congrArg Prod.snd (List.mem_singleton.mp hmem))
    · rcases List.mem_append.mp hk' with hk' | hk'
      · exact h.optional i hi k' hk'
      · rw [List.mem_singleton.mp hk']
        exact lt_of_not_provisional hnot i hi
    · rcases List.mem_append.mp hk' with hk' | hk'
      · exact h.resolved k' hk'
      · rw [List.mem_singleton.mp hk']
        exact hlt
    · refine List.nodup_append.mpr ⟨h.nodup, List.nodup_singleton _, ?_⟩
      rintro k' hk' k'' hk'' rfl
      exact hunres (List.mem_singleton.mp hk'' ▸ hk')
  rw [resolve_eq]
  exact htidy.covered (covered_restored p k e)

end Tidy

/-! ### Tasks -/

/-- How the tasks of pending work and the acts so far belong together, with `n` tasks created. A task
that a resolution was delivered to is not pending any more, and its id is final. -/
structure Linked (acts : List Act) (n : Nat) (p : Pending) : Prop where
  refs : (p.pendingTasks.map (·.2.task)).Nodup
  scheduled : ∀ x ∈ p.pendingTasks, Act.scheduled x.2.task x.2.kind ∈ acts
  sameID : ∀ y ∈ p.pendingActions, ∀ x ∈ p.pendingTasks, y.2.task = some x.2.task → y.1 = x.1
  created : ∀ t kind, Act.scheduled t kind ∈ acts → t < n
  actions : ∀ y ∈ p.pendingActions, ∀ t ∈ y.2.task, t < n
  kind : ∀ t kind kind', Act.scheduled t kind ∈ acts → Act.scheduled t kind' ∈ acts → kind = kind'
  delivered : ∀ k t e u, Act.delivered k t e u ∈ acts → Act.scheduled t k.1 ∈ acts ∧
    (∀ x ∈ p.pendingTasks, x.2.task ≠ t) ∧ ∀ y ∈ p.pendingActions, y.2.task = some t → y.1 = k.2
  once : (acts.filterMap Act.deliveredTask?).Nodup

namespace Linked

variable {acts acts' : List Act} {n n' : Nat}

theorem append (h : Linked acts n p) (hsilent : ∀ a ∈ acts', a.isSilent = true) :
    Linked (acts ++ acts') n p := by
  have hmem {a : Act} (ha : a.isSilent = false) : a ∈ acts ++ acts' ↔ a ∈ acts := by
    rw [List.mem_append]
    refine or_iff_left fun hmem => ?_
    rw [hsilent a hmem] at ha
    cases ha
  have hnone : acts'.filterMap Act.deliveredTask? = [] := by
    refine List.filterMap_eq_nil_iff.mpr fun a ha => ?_
    have := hsilent a ha
    cases a <;> first | rfl | cases this
  refine ⟨h.refs, fun x hx => (hmem rfl).mpr (h.scheduled x hx), h.sameID,
    fun t kind ht => h.created t kind ((hmem rfl).mp ht), h.actions,
    fun t kind kind' ht ht' => h.kind t kind kind' ((hmem rfl).mp ht) ((hmem rfl).mp ht'),
    fun k t e u hd => ?_, ?_⟩
  · obtain ⟨hsched, hrest⟩ := h.delivered k t e u ((hmem rfl).mp hd)
    exact ⟨(hmem rfl).mpr hsched, hrest⟩
  · rw [List.filterMap_append, hnone, List.append_nil]
    exact h.once

theorem of_eq (h : Linked acts n p) {q : Pending} (htasks : q.pendingTasks = p.pendingTasks)
    (hactions : q.pendingActions = p.pendingActions) : Linked acts n q := by
  obtain ⟨h1, h2, h3, h4, h5, h6, h7, h8⟩ := h
  rw [← htasks] at h1 h2 h3 h7
  rw [← hactions] at h3 h5 h7
  exact ⟨h1, h2, h3, h4, h5, h6, h7, h8⟩

theorem mono (h : Linked acts n p) (hn : n ≤ n') : Linked acts n' p :=
  ⟨h.refs, h.scheduled, h.sameID, fun t kind ht => Nat.lt_of_lt_of_le (h.created t kind ht) hn,
    fun y hy t ht => Nat.lt_of_lt_of_le (h.actions y hy t ht) hn, h.kind, h.delivered, h.once⟩

theorem covered (h : Linked acts n p) {actions : List (ActionID × PendingAction)}
    (hcov : Covered p.pendingActions actions) :
    Linked acts n { p with pendingActions := actions } := by
  refine ⟨h.refs, h.scheduled, fun y hy x hx hxy => ?_, h.created, fun y hy t ht => ?_, h.kind,
    fun k t e u hd => ?_, h.once⟩
  · obtain ⟨z, hz, hid, htask, -⟩ := hcov y hy
    rw [← hid]
    exact h.sameID z hz x hx (htask.trans hxy)
  · obtain ⟨z, hz, -, htask, -⟩ := hcov y hy
    exact h.actions z hz t (htask ▸ ht)
  · obtain ⟨hsched, hpend, hact⟩ := h.delivered k t e u hd
    refine ⟨hsched, hpend, fun y hy hyt => ?_⟩
    obtain ⟨z, hz, hid, htask, -⟩ := hcov y hy
    rw [← hid]
    exact hact z hz (htask.trans hyt)

theorem addAction (h : Linked acts n p) (actionType : WorkflowActionType)
    (router : Option TaskRouter) : Linked acts n (p.addAction actionType router none).1 := by
  refine ⟨h.refs, h.scheduled, fun y hy x hx hxy => ?_, h.created, fun y hy t ht => ?_, h.kind,
    fun k t e u hd => ?_, h.once⟩
  · rcases Assoc.mem_insert.mp hy with ⟨hy, -⟩ | rfl
    · exact h.sameID y hy x hx hxy
    · cases hxy
  · rcases Assoc.mem_insert.mp hy with ⟨hy, -⟩ | rfl
    · exact h.actions y hy t ht
    · cases ht
  · obtain ⟨hsched, hpend, hact⟩ := h.delivered k t e u hd
    refine ⟨hsched, hpend, fun y hy hyt => ?_⟩
    rcases Assoc.mem_insert.mp hy with ⟨hy, -⟩ | rfl
    · exact hact y hy hyt
    · cases hyt

/-- New work is linked to the next task. -/
theorem addTask (h : Linked acts n p) {actions : List (ActionID × PendingAction)} {a : PendingAction}
    (kind : Kind) (ha : a.task = some n)
    (hactions : ∀ y ∈ actions, y ∈ p.pendingActions ∨ y = (id, a)) :
    Linked (acts ++ [.scheduled n kind]) (n + 1)
      { p with
        pendingActions := actions
        pendingTasks := Assoc.insert p.pendingTasks id ⟨kind, n⟩ } := by
  have hold {x : ActionID × PendingTask} (hx : x ∈ p.pendingTasks) : x.2.task < n :=
    h.created _ _ (h.scheduled x hx)
  have hmem {t : Nat} {k : Kind} (ht : Act.scheduled t k ∈ acts ++ [.scheduled n kind]) :
      Act.scheduled t k ∈ acts ∨ t = n ∧ k = kind := by
    rcases List.mem_append.mp ht with ht | ht
    · exact .inl ht
    · cases List.mem_singleton.mp ht
      exact .inr ⟨rfl, rfl⟩
  refine ⟨?_, fun x hx => ?_, fun y hy x hx hxy => ?_, fun t k ht => ?_, fun y hy t ht => ?_,
    fun t k k' ht ht' => ?_, fun k t e u hd => ?_, ?_⟩
  · unfold Assoc.insert
    rw [List.map_append, List.nodup_append]
    refine ⟨h.refs.sublist ((List.filter_sublist).map _), List.nodup_singleton _, ?_⟩
    intro t ht t' ht' heq
    obtain ⟨x, hx, rfl⟩ := List.mem_map.mp ht
    have hlt := hold (Assoc.mem_erase.mp hx).1
    rw [heq, List.mem_singleton.mp ht'] at hlt
    exact Nat.lt_irrefl _ hlt
  · rcases Assoc.mem_insert.mp hx with ⟨hx, -⟩ | rfl
    · exact List.mem_append_left _ (h.scheduled x hx)
    · exact List.mem_append_right _ (List.mem_singleton_self _)
  · rcases Assoc.mem_insert.mp hx with ⟨hx, -⟩ | rfl
    · rcases hactions y hy with hy | rfl
      · exact h.sameID y hy x hx hxy
      · have hn := Option.some.inj (ha.symm.trans hxy)
        exact absurd (hn ▸ hold hx) (Nat.lt_irrefl _)
    · rcases hactions y hy with hy | rfl
      · exact absurd (h.actions y hy n hxy) (Nat.lt_irrefl _)
      · rfl
  · rcases hmem ht with ht | ⟨rfl, -⟩
    · exact Nat.lt_succ_of_lt (h.created t k ht)
    · exact Nat.lt_succ_self _
  · rcases hactions y hy with hy | rfl
    · exact Nat.lt_succ_of_lt (h.actions y hy t ht)
    · cases Option.some.inj (ha.symm.trans ht)
      exact Nat.lt_succ_self _
  · rcases hmem ht with ht | ⟨rfl, rfl⟩ <;> rcases hmem ht' with ht' | ⟨hn, hk⟩
    · exact h.kind t k k' ht ht'
    · exact absurd (hn ▸ h.created t k ht) (Nat.lt_irrefl _)
    · exact absurd (h.created _ k' ht') (Nat.lt_irrefl _)
    · exact hk.symm
  · have hd : Act.delivered k t e u ∈ acts := by simpa using hd
    obtain ⟨hsched, hpend, hact⟩ := h.delivered k t e u hd
    have hlt := h.created _ _ hsched
    refine ⟨List.mem_append_left _ hsched, fun x hx => ?_, fun y hy hyt => ?_⟩
    · rcases Assoc.mem_insert.mp hx with ⟨hx, -⟩ | rfl
      · exact hpend x hx
      · exact fun hn => absurd (hn ▸ hlt) (Nat.lt_irrefl _)
    · rcases hactions y hy with hy | rfl
      · exact hact y hy hyt
      · cases Option.some.inj (ha.symm.trans hyt)
        exact absurd hlt (Nat.lt_irrefl _)
  · rw [List.filterMap_append]
    exact (List.append_nil _).symm ▸ h.once

/-- Dropping an optional timer moves no id that a resolution was delivered for. -/
theorem dropAt (h : Linked acts n p)
    (hfinal : ∀ k t e u, Act.delivered k t e u ∈ acts → k.2 < id) : Linked acts n (p.dropAt id) := by
  have htask {x : ActionID × PendingTask} (hx : x ∈ (p.dropAt id).pendingTasks) :
      ∃ x' ∈ p.pendingTasks, x = (shiftID id x'.1, x'.2) := by
    obtain ⟨x', hx', rfl⟩ := List.mem_map.mp hx
    exact ⟨x', (Assoc.mem_erase.mp hx').1, rfl⟩
  have haction {y : ActionID × PendingAction} (hy : y ∈ (p.dropAt id).pendingActions) :
      ∃ y' ∈ p.pendingActions, y.1 = shiftID id y'.1 ∧ y.2.task = y'.2.task := by
    obtain ⟨y', hy', rfl⟩ := List.mem_map.mp hy
    refine ⟨y', (Assoc.mem_erase.mp hy').1, ?_⟩
    unfold shiftAction shiftID
    split <;> exact ⟨rfl, rfl⟩
  refine ⟨?_, fun x hx => ?_, fun y hy x hx hxy => ?_, h.created, fun y hy t ht => ?_, h.kind,
    fun k t e u hd => ?_, h.once⟩
  · unfold Pending.dropAt
    rw [List.map_map]
    exact h.refs.sublist (List.filter_sublist.map fun x : ActionID × PendingTask => x.2.task)
  · obtain ⟨x', hx', rfl⟩ := htask hx
    exact h.scheduled x' hx'
  · obtain ⟨x', hx', rfl⟩ := htask hx
    obtain ⟨y', hy', hid, ht⟩ := haction hy
    rw [hid, h.sameID y' hy' x' hx' (ht.symm.trans hxy)]
  · obtain ⟨y', hy', -, htask⟩ := haction hy
    exact h.actions y' hy' t (htask ▸ ht)
  · obtain ⟨hsched, hpend, hact⟩ := h.delivered k t e u hd
    refine ⟨hsched, fun x hx => ?_, fun y hy hyt => ?_⟩
    · obtain ⟨x', hx', rfl⟩ := htask hx
      exact hpend x' hx'
    · obtain ⟨y', hy', hid, htask⟩ := haction hy
      have hlt := hfinal k t e u hd
      rw [hid, hact y' hy' (htask.symm.trans hyt), shiftID, if_neg (Int.not_lt.mpr (Int.le_of_lt hlt))]

theorem deliver (h : Linked acts n p) {t : Nat}
    (hget : Assoc.get? p.pendingTasks k.2 = some ⟨k.1, t⟩) (e : HistoryEvent) (u : Bool) :
    Linked (acts ++ [.delivered k t e u]) n
      { p with pendingTasks := Assoc.erase p.pendingTasks k.2 } := by
  have hx₀ := Assoc.mem_of_get? hget
  have hmem {t' : Nat} {kind : Kind} :
      Act.scheduled t' kind ∈ acts ++ [.delivered k t e u] ↔ Act.scheduled t' kind ∈ acts := by simp
  have hother {x : ActionID × PendingTask} (hx : x ∈ Assoc.erase p.pendingTasks k.2) :
      x.2.task ≠ t := by
    obtain ⟨hx, hne⟩ := Assoc.mem_erase.mp hx
    intro heq
    exact hne (congrArg Prod.fst (List.inj_on_of_nodup_map h.refs hx hx₀ heq))
  refine ⟨h.refs.sublist ((List.filter_sublist).map _),
    fun x hx => hmem.mpr (h.scheduled x (Assoc.mem_erase.mp hx).1),
    fun y hy x hx => h.sameID y hy x (Assoc.mem_erase.mp hx).1,
    fun t kind ht => h.created t kind (hmem.mp ht), h.actions,
    fun t kind kind' ht ht' => h.kind t kind kind' (hmem.mp ht) (hmem.mp ht'),
    fun k' t' e' u' hd => ?_, ?_⟩
  · rcases List.mem_append.mp hd with hd | hd
    · obtain ⟨hsched, hpend, hact⟩ := h.delivered k' t' e' u' hd
      exact ⟨hmem.mpr hsched, fun x hx => hpend x (Assoc.mem_erase.mp hx).1, hact⟩
    · cases List.mem_singleton.mp hd
      exact ⟨hmem.mpr (h.scheduled _ hx₀), fun x hx => hother hx,
        fun y hy hyt => h.sameID y hy _ hx₀ hyt⟩
  · rw [List.filterMap_append, List.nodup_append]
    refine ⟨h.once, List.nodup_singleton _, ?_⟩
    intro t' ht' t'' ht'' heq
    obtain ⟨a, ha, hat⟩ := List.mem_filterMap.mp ht'
    cases List.mem_singleton.mp ht''
    subst heq
    cases a <;> cases hat
    exact (h.delivered _ _ _ _ ha).2.1 _ hx₀ rfl

end Linked

/-! ### Events -/

/-- What has arrived is resolved or buffered, never both, and the first event of a key is the one that
counts. -/
structure Heard (acts : List Act) (resolved : List (Kind × ActionID))
    (buffered : List ((Kind × ActionID) × HistoryEvent)) : Prop where
  keys : acts.filterMap Act.deliveredKey? = resolved
  held : ∀ k e, Assoc.get? buffered k = some e → firstArrival acts k = some e ∧ k ∉ resolved
  seen : ∀ k, (firstArrival acts k).isSome = true → k ∈ resolved ∨ (Assoc.get? buffered k).isSome = true
  delivered : ∀ k t e u, Act.delivered k t e u ∈ acts → u = false ∧ firstArrival acts k = some e

namespace Heard

variable {acts acts' : List Act} {resolved : List (Kind × ActionID)}
  {buffered : List ((Kind × ActionID) × HistoryEvent)}

theorem append (h : Heard acts resolved buffered)
    (hnone : ∀ a ∈ acts', a.arrived? = none ∧ a.deliveredKey? = none) :
    Heard (acts ++ acts') resolved buffered := by
  have hfirst (k : Kind × ActionID) : firstArrival (acts ++ acts') k = firstArrival acts k :=
    firstArrival_append_silent (fun a ha => (hnone a ha).1) k
  refine ⟨?_, fun k e he => ?_, fun k hk => ?_, fun k t e u hd => ?_⟩
  · rw [List.filterMap_append, List.filterMap_eq_nil_iff.mpr fun a ha => (hnone a ha).2,
      List.append_nil]
    exact h.keys
  · rw [hfirst]
    exact h.held k e he
  · rw [hfirst] at hk
    exact h.seen k hk
  · rw [hfirst]
    rcases List.mem_append.mp hd with hd | hd
    · exact h.delivered k t e u hd
    · exact nomatch (hnone _ hd).2

/-- A later event with a key that is known is ignored. -/
theorem ignored (h : Heard acts resolved buffered) (he : e.resolution = some k)
    (hknown : k ∈ resolved ∨ (Assoc.get? buffered k).isSome = true) :
    Heard (acts ++ [.arrived e]) resolved buffered := by
  refine ⟨?_, fun k' e' he' => ?_, fun k' hk' => ?_, fun k' t e' u hd => ?_⟩
  · rw [List.filterMap_append]
    exact (List.append_nil _).trans h.keys
  · obtain ⟨hfirst, hnot⟩ := h.held k' e' he'
    exact ⟨firstArrival_append_of_some hfirst _, hnot⟩
  · by_cases hkk : k' = k
    · exact hkk ▸ hknown
    · rw [firstArrival_append, firstArrival_arrived_of_ne he hkk, Option.or_none] at hk'
      exact h.seen k' hk'
  · have hd : Act.delivered k' t e' u ∈ acts := by simpa using hd
    obtain ⟨hu, hfirst⟩ := h.delivered k' t e' u hd
    exact ⟨hu, firstArrival_append_of_some hfirst _⟩

/-- The first event with a key is buffered. -/
theorem buffer (h : Heard acts resolved buffered) (he : e.resolution = some k)
    (hres : k ∉ resolved) (hbuf : Assoc.get? buffered k = none) :
    Heard (acts ++ [.arrived e]) resolved (Assoc.insert buffered k e) := by
  have hnew : firstArrival acts k = none := by
    by_contra hsome
    rcases h.seen k (Option.isSome_iff_ne_none.mpr hsome) with hmem | hmem
    · exact hres hmem
    · rw [hbuf] at hmem
      cases hmem
  have hfirst : firstArrival (acts ++ [.arrived e]) k = some e := by
    rw [firstArrival_append, hnew, Option.none_or, firstArrival_arrived he]
  refine ⟨?_, fun k' e' he' => ?_, fun k' hk' => ?_, fun k' t e' u hd => ?_⟩
  · rw [List.filterMap_append]
    exact (List.append_nil _).trans h.keys
  · by_cases hkk : k' = k
    · subst hkk
      rw [Assoc.get?_insert_self] at he'
      cases he'
      exact ⟨hfirst, hres⟩
    · rw [Assoc.get?_insert_of_ne (Ne.symm hkk)] at he'
      obtain ⟨hfirst, hnot⟩ := h.held k' e' he'
      exact ⟨firstArrival_append_of_some hfirst _, hnot⟩
  · by_cases hkk : k' = k
    · rw [hkk, Assoc.get?_insert_self]
      exact .inr rfl
    · rw [Assoc.get?_insert_of_ne (Ne.symm hkk)]
      rw [firstArrival_append, firstArrival_arrived_of_ne he hkk, Option.or_none] at hk'
      exact h.seen k' hk'
  · have hd : Act.delivered k' t e' u ∈ acts := by simpa using hd
    obtain ⟨hu, hfirst⟩ := h.delivered k' t e' u hd
    exact ⟨hu, firstArrival_append_of_some hfirst _⟩

/-- A buffered event is delivered. -/
theorem deliver (h : Heard acts resolved buffered) (hbuf : Assoc.get? buffered k = some e) (t : Nat) :
    Heard (acts ++ [.delivered k t e false]) (resolved ++ [k]) (Assoc.erase buffered k) := by
  have hfirst (k' : Kind × ActionID) :
      firstArrival (acts ++ [.delivered k t e false]) k' = firstArrival acts k' :=
    firstArrival_append_silent (by simp [Act.arrived?]) k'
  refine ⟨?_, fun k' e' he' => ?_, fun k' hk' => ?_, fun k' t' e' u hd => ?_⟩
  · rw [List.filterMap_append, h.keys]
    rfl
  · by_cases hkk : k' = k
    · rw [hkk, Assoc.get?_erase_self] at he'
      cases he'
    · rw [Assoc.get?_erase_of_ne (Ne.symm hkk)] at he'
      obtain ⟨hk', hnot⟩ := h.held k' e' he'
      rw [hfirst, List.mem_append, List.mem_singleton]
      exact ⟨hk', not_or.mpr ⟨hnot, hkk⟩⟩
  · rw [hfirst] at hk'
    rw [List.mem_append, List.mem_singleton]
    by_cases hkk : k' = k
    · exact .inl (.inr hkk)
    · rw [Assoc.get?_erase_of_ne (Ne.symm hkk)]
      exact (h.seen k' hk').imp_left .inl
  · rw [hfirst]
    rcases List.mem_append.mp hd with hd | hd
    · exact h.delivered k' t' e' u hd
    · cases List.mem_singleton.mp hd
      exact ⟨rfl, (h.held k e hbuf).1⟩

end Heard

/-! ### Final ids -/

/-- A task anchored at an id keeps it: no optional timer is at or before the id while the task is
pending, and a resolution is delivered to the task for this id only. -/
def Anchored (anchor : Option (Nat × ActionID)) (acts : List Act) (n : Nat) (p : Pending) : Prop :=
  ∀ a ∈ anchor, a.1 < n ∧
    (∀ x ∈ p.pendingTasks, x.2.task = a.1 → x.1 = a.2 ∧ ∀ j ∈ p.optionalTimerIDs, a.2 < j) ∧
    ∀ k e u, Act.delivered k a.1 e u ∈ acts → k.2 = a.2

namespace Anchored

variable {anchor : Option (Nat × ActionID)} {acts acts' : List Act} {n n' t : Nat}

theorem append (h : Anchored anchor acts n p) (hsilent : ∀ a ∈ acts', a.isSilent = true) :
    Anchored anchor (acts ++ acts') n p := by
  intro a ha
  refine ⟨(h a ha).1, (h a ha).2.1, fun k e u hd => ?_⟩
  rcases List.mem_append.mp hd with hd | hd
  · exact (h a ha).2.2 k e u hd
  · exact nomatch hsilent _ hd

theorem mono (h : Anchored anchor acts n p) (hn : n ≤ n') : Anchored anchor acts n' p :=
  fun a ha => ⟨Nat.lt_of_lt_of_le (h a ha).1 hn, (h a ha).2⟩

theorem deliver (h : Anchored anchor acts n p)
    (hget : Assoc.get? p.pendingTasks k.2 = some ⟨k.1, t⟩) (e : HistoryEvent) (u : Bool) :
    Anchored anchor (acts ++ [.delivered k t e u]) n
      { p with pendingTasks := Assoc.erase p.pendingTasks k.2 } := by
  intro a ha
  obtain ⟨hlt, hpend, hdel⟩ := h a ha
  refine ⟨hlt, fun x hx => hpend x (Assoc.mem_erase.mp hx).1, fun k' e' u' hd => ?_⟩
  rcases List.mem_append.mp hd with hd | hd
  · exact hdel k' e' u' hd
  · cases List.mem_singleton.mp hd
    exact (hpend _ (Assoc.mem_of_get? hget) rfl).1

theorem removeTimer (h : Anchored anchor acts n p) (id : ActionID) :
    Anchored anchor acts n (p.removeTimer id) := by
  intro a ha
  obtain ⟨hlt, hpend, hdel⟩ := h a ha
  refine ⟨hlt, fun x hx ht => ⟨(hpend x hx ht).1, fun j hj => ?_⟩, hdel⟩
  exact (hpend x hx ht).2 j (List.mem_filter.mp hj).1

theorem dropAt (h : Anchored anchor acts n p) (hid : id ∈ p.optionalTimerIDs) :
    Anchored anchor acts n (p.dropAt id) := by
  intro a ha
  obtain ⟨hlt, hpend, hdel⟩ := h a ha
  refine ⟨hlt, fun x hx ht => ?_, hdel⟩
  obtain ⟨y, hy, rfl⟩ := List.mem_map.mp hx
  obtain ⟨hyid, hoptional⟩ := hpend y (Assoc.mem_erase.mp hy).1 ht
  have hbefore := hoptional id hid
  refine ⟨?_, fun j hj => ?_⟩
  · rw [← hyid] at hbefore ⊢
    exact if_neg (Int.not_lt.mpr (Int.le_of_lt hbefore))
  · obtain ⟨i, hi, rfl⟩ := List.mem_map.mp hj
    have hafter := hoptional i (List.mem_filter.mp hi).1
    unfold shiftID
    unfold ActionID at *
    split
    · split <;> omega
    · exact hafter

theorem register (h : Anchored anchor acts n p) (htidy : p.Tidy) (action : WorkflowAction)
    (kind : Kind) :
    Anchored anchor (acts ++ [.scheduled n kind]) (n + 1)
      { p with
        optionalTimerIDs := p.noted p.sequenceNumber action
        pendingTasks := Assoc.insert p.pendingTasks p.sequenceNumber ⟨kind, n⟩ } := by
  intro a ha
  obtain ⟨hlt, hpend, hdel⟩ := h a ha
  refine ⟨Nat.lt_succ_of_lt hlt, fun x hx ht => ?_, fun k e u hd => hdel k e u (by simpa using hd)⟩
  rcases Assoc.mem_insert.mp hx with ⟨hx, -⟩ | rfl
  · refine ⟨(hpend x hx ht).1, fun j hj => ?_⟩
    rcases mem_noted hj with hj | rfl
    · exact (hpend x hx ht).2 j hj
    · exact (hpend x hx ht).1 ▸ (htidy.tasks x hx).1
  · exact absurd (ht ▸ hlt) (Nat.lt_irrefl _)

end Anchored

/-! ### Delivery -/

/-- The invariant of pending work and its resolutions. The tasks with an id in the list may still be
waiting for a buffered resolution to be consumed. -/
structure Delivery (anchor : Option (Nat × ActionID)) (ids : List ActionID) (acts : List Act) (n : Nat)
    (p : Pending) : Prop where
  tidy : p.Tidy
  linked : Linked acts n p
  heard : Heard acts p.resolvedResolutions p.bufferedResolutions
  anchored : Anchored anchor acts n p
  ready : p.Ready ids

namespace Delivery

variable {anchor : Option (Nat × ActionID)} {ids ids' : List ActionID} {acts acts' : List Act}
  {n n' t : Nat}

theorem empty (n : Nat) : Delivery none [] [] n {} where
  tidy := ⟨List.nodup_nil, fun _ h => absurd h List.not_mem_nil, fun _ h => absurd h List.not_mem_nil,
    fun _ h => absurd h List.not_mem_nil, fun _ h => absurd h List.not_mem_nil, List.nodup_nil⟩
  linked := ⟨List.nodup_nil, fun _ h => absurd h List.not_mem_nil, fun _ h => absurd h List.not_mem_nil,
    fun _ _ h => absurd h List.not_mem_nil, fun _ h => absurd h List.not_mem_nil,
    fun _ _ _ h => absurd h List.not_mem_nil, fun _ _ _ _ h => absurd h List.not_mem_nil,
    List.nodup_nil⟩
  heard := ⟨rfl, fun _ _ h => (Option.some_ne_none _ h.symm).elim, fun _ h => absurd h Bool.false_ne_true,
    fun _ _ _ _ h => absurd h List.not_mem_nil⟩
  anchored _ h := absurd h (Option.not_mem_none _)
  ready _ h := absurd h List.not_mem_nil

theorem append (h : Delivery anchor ids acts n p) (hsilent : ∀ a ∈ acts', a.isSilent = true)
    (harr : ∀ a ∈ acts', a.arrived? = none) : Delivery anchor ids (acts ++ acts') n p := by
  refine ⟨h.tidy, h.linked.append hsilent, h.heard.append fun a ha => ⟨harr a ha, ?_⟩,
    h.anchored.append hsilent, h.ready⟩
  have := hsilent a ha
  cases a <;> first | rfl | cases this

theorem mono (h : Delivery anchor ids acts n p) (hn : n ≤ n') : Delivery anchor ids acts n' p :=
  ⟨h.tidy, h.linked.mono hn, h.heard, h.anchored.mono hn, h.ready⟩

theorem covered (h : Delivery anchor ids acts n p) {actions : List (ActionID × PendingAction)}
    (hcov : Covered p.pendingActions actions) :
    Delivery anchor ids acts n { p with pendingActions := actions } :=
  ⟨h.tidy.covered hcov, h.linked.covered hcov, h.heard, h.anchored, h.ready⟩

theorem addAction (h : Delivery anchor ids acts n p) {actionType : WorkflowActionType}
    {router : Option TaskRouter}
    (hmandatory : isOptionalExternalEventTimerAction ⟨0, actionType, router⟩ = false) :
    Delivery anchor ids acts n (p.addAction actionType router none).1 :=
  ⟨h.tidy.addAction actionType router none hmandatory, h.linked.addAction actionType router, h.heard,
    h.anchored, h.ready⟩

/-- A task that can be resolved now is the only one with its id and has no buffered resolution left
to wait for. -/
theorem not_known (h : Delivery anchor [] acts n p) (hdel : p.deliverable k = some t) :
    k ∉ p.resolvedResolutions ∧ Assoc.get? p.bufferedResolutions k = none := by
  obtain ⟨hget, hnot⟩ := mem_of_deliverable hdel
  refine ⟨(h.tidy.tasks _ (Assoc.mem_of_get? hget)).2, ?_⟩
  by_contra hbuf
  rcases h.ready _ (Assoc.mem_of_get? hget) (Option.isSome_iff_ne_none.mpr hbuf) with hprov | hmem
  · rw [hnot] at hprov
    cases hprov
  · cases hmem

/-- A buffered resolution is delivered. -/
theorem deliver (h : Delivery anchor ids acts n p) (hdel : p.deliverable k = some t)
    (hbuf : Assoc.get? p.bufferedResolutions k = some e) (hids : ∀ id ∈ ids, id = k.2 ∨ id ∈ ids') :
    Delivery anchor ids' (acts ++ [.delivered k t e (p.unconfirmed k.2)]) n
      ((p.withBuffered (Assoc.erase p.bufferedResolutions k)).resolve k e) := by
  obtain ⟨hget, hnot⟩ := mem_of_deliverable hdel
  rw [h.tidy.unconfirmed hnot]
  have htidy := h.tidy.withBuffered (Assoc.erase p.bufferedResolutions k)
  have hlinked := (h.linked.deliver hget e false).covered (covered_restored p k e)
  refine ⟨htidy.resolve hget rfl hnot e, ?_, ?_, ?_, ?_⟩
  · rw [resolve_eq]
    exact hlinked.of_eq rfl rfl
  · rw [resolve_eq]
    exact h.heard.deliver hbuf t
  · rw [resolve_eq]
    exact h.anchored.deliver hget e false
  · rw [resolve_eq]
    intro x hx hsome
    obtain ⟨hx, hne⟩ := Assoc.mem_erase.mp hx
    have hkey : k ≠ (x.2.kind, x.1) := fun heq => hne (congrArg Prod.snd heq).symm
    have hsome : (Assoc.get? (Assoc.erase p.bufferedResolutions k) (x.2.kind, x.1)).isSome = true := hsome
    rw [Assoc.get?_erase_of_ne hkey] at hsome
    rcases h.ready x hx hsome with hprov | hmem
    · exact .inl hprov
    · exact .inr ((hids x.1 hmem).resolve_left hne)

/-- A resolution arrives. -/
theorem arrive (h : Delivery anchor [] acts n p) (he : e.resolution = some k) (hres : k ∉ p.resolvedResolutions)
    (hbuf : Assoc.get? p.bufferedResolutions k = none) :
    Delivery anchor [k.2] (acts ++ [.arrived e]) n
      (p.withBuffered (Assoc.insert p.bufferedResolutions k e)) := by
  have hlinked : Linked (acts ++ [.arrived e]) n p := h.linked.append (by simp [Act.isSilent])
  refine ⟨h.tidy.withBuffered _, hlinked.of_eq rfl rfl, h.heard.buffer he hres hbuf,
    h.anchored.append (by simp [Act.isSilent]), fun x hx hsome => ?_⟩
  by_cases hkey : k = (x.2.kind, x.1)
  · exact .inr (List.mem_singleton.mpr (congrArg Prod.snd hkey).symm)
  · unfold withBuffered at hsome
    rw [Assoc.get?_insert_of_ne hkey] at hsome
    exact .inl ((h.ready x hx hsome).resolve_right List.not_mem_nil)

theorem ignored (h : Delivery anchor [] acts n p) (he : e.resolution = some k)
    (hknown : k ∈ p.resolvedResolutions ∨ (Assoc.get? p.bufferedResolutions k).isSome = true) :
    Delivery anchor [] (acts ++ [.arrived e]) n p :=
  ⟨h.tidy, h.linked.append (by simp [Act.isSilent]), h.heard.ignored he hknown,
    h.anchored.append (by simp [Act.isSilent]), h.ready⟩

/-- Nothing is left to consume for a task that cannot be resolved now. -/
theorem skip (h : Delivery anchor (id :: ids) acts n p)
    (hskip : ∀ t, Assoc.get? p.pendingTasks id = some t →
      Assoc.get? p.bufferedResolutions (t.kind, id) = none ∨ p.resolutionIDProvisional id = true) :
    Delivery anchor ids acts n p := by
  refine ⟨h.tidy, h.linked, h.heard, h.anchored, fun x hx hsome => ?_⟩
  rcases h.ready x hx hsome with hprov | hmem
  · exact .inl hprov
  · rcases List.mem_cons.mp hmem with rfl | hmem
    · rcases hskip x.2 (h.tidy.get? hx) with hnone | hprov
      · rw [hnone] at hsome
        cases hsome
      · exact .inl hprov
    · exact .inr hmem

/-- A timer is confirmed. -/
theorem removeTimer (h : Delivery anchor [] acts n p) (id : ActionID)
    (hids : ∀ x ∈ p.pendingTasks, x.1 ∈ ids) : Delivery anchor ids acts n (p.removeTimer id) := by
  have hlinked := h.linked.covered (covered_erase p.pendingActions id)
  exact ⟨h.tidy.removeTimer id, hlinked.of_eq rfl rfl, h.heard, h.anchored.removeTimer id,
    fun x hx _ => .inr (hids x hx)⟩

/-- An optional timer is dropped. -/
theorem dropAt (h : Delivery anchor [] acts n p) (hopt : p.optionalAt id = true)
    (hids : ∀ x ∈ p.pendingTasks, id < x.1 → x.1 - 1 ∈ ids) : Delivery anchor ids acts n (p.dropAt id) := by
  have hfinal : ∀ k t e u, Act.delivered k t e u ∈ acts → k.2 < id := by
    intro k t e u hd
    refine (h.tidy.lt_optionalAt hopt).2 k ?_
    rw [← h.heard.keys]
    exact List.mem_filterMap.mpr ⟨_, hd, rfl⟩
  refine ⟨h.tidy.dropAt hopt, h.linked.dropAt hfinal, h.heard, h.anchored.dropAt ?_,
    fun x hx hsome => ?_⟩
  · exact h.tidy.mem_optionalTimerIDs hopt
  obtain ⟨y, hy, rfl⟩ := List.mem_map.mp hx
  obtain ⟨hy, hne⟩ := Assoc.mem_erase.mp hy
  by_cases hlt : id < y.1
  · refine .inr ?_
    rw [shiftID, if_pos hlt]
    exact hids y hy hlt
  · -- Ids before the timer stay, and so does every optional timer before them.
    have hshift : shiftID id y.1 = y.1 := if_neg hlt
    rw [hshift] at hsome ⊢
    have hprov := (h.ready y hy hsome).resolve_right List.not_mem_nil
    obtain ⟨j, hj, hle⟩ := List.any_eq_true.mp hprov
    have hle : j ≤ y.1 := of_decide_eq_true hle
    have hjid : ¬id < j ∧ j ≠ id := by
      unfold ActionID at *
      omega
    refine .inl (List.any_eq_true.mpr ⟨j, List.mem_map.mpr ⟨j, ?_, ?_⟩, decide_eq_true hle⟩)
    · exact List.mem_filter.mpr ⟨hj, decide_eq_true hjid.2⟩
    · rw [shiftID, if_neg hjid.1, ite_self]

/-- Work is scheduled with the next task. -/
theorem register (h : Delivery anchor [] acts n p) (actionType : WorkflowActionType)
    (router : Option TaskRouter) (kind : Kind) :
    Delivery anchor [p.sequenceNumber] (acts ++ [.scheduled n kind]) (n + 1)
      (((p.addAction actionType router (some n)).1.noteOptional p.sequenceNumber
        ⟨p.sequenceNumber, actionType, router⟩).addTask p.sequenceNumber kind n) := by
  rw [noteOptional_eq]
  refine ⟨h.tidy.register actionType router kind n, ?_, ?_, ?_, fun x hx hsome => ?_⟩
  · refine (h.linked.addTask (a := ⟨⟨p.sequenceNumber, actionType, router⟩, some n⟩) kind rfl
      fun y hy => ?_).of_eq rfl rfl
    exact (Assoc.mem_insert.mp hy).imp_left And.left
  · exact h.heard.append (by simp [Act.arrived?, Act.deliveredKey?])
  · exact h.anchored.register h.tidy _ kind
  · rcases Assoc.mem_insert.mp hx with ⟨hx, -⟩ | rfl
    · have hprov := (h.ready x hx hsome).resolve_right List.not_mem_nil
      obtain ⟨j, hj, hle⟩ := List.any_eq_true.mp hprov
      exact .inl (List.any_eq_true.mpr ⟨j, mem_noted_of_mem hj _ _, hle⟩)
    · exact .inr (List.mem_singleton_self _)

end Delivery

end Pending

end DurableTask.Task
