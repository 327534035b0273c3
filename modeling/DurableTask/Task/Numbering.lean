import DurableTask.Lib.Number
import DurableTask.Task.Handlers

/-!
# The numbering of scheduled work

While no resolution comes early, the pending actions are numbered consecutively from the first id the
history has not recorded. `Numbered` says so, with the tasks of the recorded actions that are not
resolved yet, and each operation on the pending work is described by what it does to the list.
-/

namespace DurableTask.Task

open Number

/-- What of a pending action its matching with the history depends on: whether it is work with a task,
with the task, a detached spawn, with its instance id, or a completion. -/
inductive Entry
  | work (kind : Kind) (optional : Bool) (task : Nat)
  | detached (instanceId : InstanceID)
  | completion
  | other
deriving DecidableEq

def Entry.isOptional : Entry → Bool
  | .work _ optional _ => optional
  | _ => false

/-- The pending task that belongs to a numbered entry. -/
def Entry.pendingTask : ActionID × Entry → Option (ActionID × PendingTask)
  | (id, .work kind _ task) => some (id, ⟨kind, task⟩)
  | _ => none

def PendingAction.entry (a : PendingAction) : Entry :=
  match a.action.actionType, a.task with
  | .scheduleTask _, some t => .work .task false t
  | .createChildWorkflow _, some t => .work .child false t
  | .createTimer tm, some t => .work .timer (isOptionalTimer tm.fireAt tm.origin) t
  | .createDetachedWorkflow d, none => .detached d.instanceId
  | .completeWorkflow _, none => .completion
  | _, _ => .other

theorem PendingAction.entry_isOptional {a : PendingAction} {t : Nat} (h : a.task = some t) :
    a.entry.isOptional = isOptionalExternalEventTimerAction a.action := by
  rcases a with ⟨⟨id, actionType, router⟩, task⟩
  cases h
  cases actionType <;> rfl

/-- What an entry says about its action. -/
theorem PendingAction.kind_of_entry {a : PendingAction} :
    (∀ optional t, a.entry = .work .task optional t → Ctx.isScheduleTask a.action.actionType = true) ∧
    (∀ optional t, a.entry = .work .child optional t →
      Ctx.isCreateChildWorkflow a.action.actionType = true) ∧
    (∀ optional t, a.entry = .work .timer optional t →
      Ctx.isCreateTimer a.action.actionType = true) ∧
    (a.entry.isOptional = true → Ctx.isScheduleTask a.action.actionType = false ∧
      Ctx.isCreateChildWorkflow a.action.actionType = false) := by
  rcases a with ⟨⟨id, actionType, router⟩, task⟩
  cases actionType <;> cases task <;>
    simp [PendingAction.entry, Entry.isOptional, Ctx.isScheduleTask, Ctx.isCreateChildWorkflow,
      Ctx.isCreateTimer]

/-- The pending actions are `es`, numbered from `b` on; `T` are the tasks of actions with smaller ids
that are not resolved; and no resolution is buffered. -/
structure Numbered (p : Pending) (b : ActionID) (es : List Entry)
    (T : List (ActionID × PendingTask)) : Prop where
  actions : p.pendingActions.map (fun x => (x.1, x.2.entry)) = number b es
  ids : ∀ x ∈ p.pendingActions, x.2.action.id = x.1
  sequenceNumber : p.sequenceNumber = b + es.length
  tasks : p.pendingTasks = T ++ (number b es).filterMap Entry.pendingTask
  recorded : ∀ x ∈ T, x.1 < b
  nodup : (T.map Prod.fst).Nodup
  optional : p.optionalTimerIDs = ((number b es).filter (·.2.isOptional)).map Prod.fst
  buffered : p.bufferedResolutions = []
  known : ∀ x ∈ es, x ≠ .other

namespace Numbered

variable {p : Pending} {b : ActionID} {es : List Entry} {T : List (ActionID × PendingTask)}

theorem empty : Numbered {} 0 [] [] :=
  ⟨rfl, fun _ h => absurd h List.not_mem_nil, rfl, rfl, fun _ h => absurd h List.not_mem_nil,
    List.nodup_nil, rfl, rfl, fun _ h => absurd h List.not_mem_nil⟩

theorem keys (h : Numbered p b es T) :
    p.pendingActions.map Prod.fst = (number b es).map Prod.fst := by
  have := congrArg (List.map Prod.fst) h.actions
  simpa [List.map_map, Function.comp_def] using this

theorem key_bounds (h : Numbered p b es T) {x : ActionID × PendingAction}
    (hx : x ∈ p.pendingActions) : b ≤ x.1 ∧ x.1 < b + es.length := by
  have hmem : (x.1, x.2.entry) ∈ number b es := by
    rw [← h.actions]
    exact List.mem_map.mpr ⟨x, hx, rfl⟩
  exact bounds_of_mem hmem

theorem notMem_actions (h : Numbered p b es T) {id : ActionID} (hid : id < b ∨ b + es.length ≤ id) :
    id ∉ p.pendingActions.map Prod.fst := by
  rw [h.keys]
  rcases hid with hid | hid
  · exact notMem_of_lt hid
  · exact notMem_of_le hid

theorem pendingTask_fst {x : ActionID × Entry} {y : ActionID × PendingTask}
    (h : Entry.pendingTask x = some y) : y.1 = x.1 := by
  rcases x with ⟨id, kind | _ | _⟩ <;> cases h
  rfl

theorem task_bounds {y : ActionID × PendingTask} {es : List Entry}
    (hy : y ∈ (number b es).filterMap Entry.pendingTask) : b ≤ y.1 ∧ y.1 < b + es.length := by
  obtain ⟨x, hx, hxy⟩ := List.mem_filterMap.mp hy
  rw [pendingTask_fst hxy]
  exact bounds_of_mem hx

theorem notMem_tasks (h : Numbered p b es T) {id : ActionID} (hid : b + es.length ≤ id) :
    id ∉ p.pendingTasks.map Prod.fst := by
  rw [h.tasks]
  intro hmem
  obtain ⟨y, hy, rfl⟩ := List.mem_map.mp hmem
  rcases List.mem_append.mp hy with hy | hy
  · have := h.recorded y hy
    unfold ActionID at *
    omega
  · have := (task_bounds hy).2
    unfold ActionID at *
    omega

theorem notMem_optional (h : Numbered p b es T) {id : ActionID} (hid : id ∈ p.optionalTimerIDs) :
    b ≤ id ∧ id < b + es.length := by
  rw [h.optional] at hid
  obtain ⟨x, hx, rfl⟩ := List.mem_map.mp hid
  exact bounds_of_mem (List.mem_filter.mp hx).1

theorem known_concat (h : Numbered p b es T) {x : Entry} (hx : x ≠ .other) :
    ∀ y ∈ es ++ [x], y ≠ .other := by
  intro y hy
  rcases List.mem_append.mp hy with hy | hy
  · exact h.known y hy
  · rw [List.mem_singleton.mp hy]
    exact hx

/-! ### Scheduling -/

theorem addAction (h : Numbered p b es T) (actionType : WorkflowActionType)
    (router : Option TaskRouter)
    (he : (⟨⟨p.sequenceNumber, actionType, router⟩, none⟩ : PendingAction).entry.isOptional = false)
    (ht : ∀ id, Entry.pendingTask
      (id, (⟨⟨p.sequenceNumber, actionType, router⟩, none⟩ : PendingAction).entry) = none)
    (hne : (⟨⟨p.sequenceNumber, actionType, router⟩, none⟩ : PendingAction).entry ≠ .other) :
    Numbered (p.addAction actionType router none).1 b
      (es ++ [(⟨⟨p.sequenceNumber, actionType, router⟩, none⟩ : PendingAction).entry]) T := by
  have hnew : p.sequenceNumber ∉ _ := h.notMem_actions (Or.inr (le_of_eq h.sequenceNumber.symm))
  refine ⟨?_, ?_, ?_, ?_, h.recorded, h.nodup, ?_, h.buffered, h.known_concat hne⟩
  · simp only [Pending.addAction]
    rw [Assoc.insert_of_notMem hnew, List.map_append, h.actions, number_concat, h.sequenceNumber]
    rfl
  · simp only [Pending.addAction]
    rw [Assoc.insert_of_notMem hnew]
    intro x hx
    rcases List.mem_append.mp hx with hx | hx
    · exact h.ids x hx
    · rw [List.mem_singleton.mp hx]
  · simp only [Pending.addAction, h.sequenceNumber, List.length_append, List.length_singleton]
    unfold ActionID at *
    omega
  · simp only [Pending.addAction]
    rw [h.tasks, number_concat, List.filterMap_append]
    simp [ht]
  · simp only [Pending.addAction]
    rw [h.optional, number_concat, List.filter_append]
    simp [he]

theorem register (h : Numbered p b es T) {actionType : WorkflowActionType}
    {router : Option TaskRouter} {kind : Kind} {optional : Bool} {task : Nat}
    (he : (⟨⟨p.sequenceNumber, actionType, router⟩, some task⟩ : PendingAction).entry =
      .work kind optional task) :
    Numbered
      (((p.addAction actionType router (some task)).1.noteOptional p.sequenceNumber
        ⟨p.sequenceNumber, actionType, router⟩).addTask p.sequenceNumber kind task) b
      (es ++ [.work kind optional task]) T := by
  have hseq := h.sequenceNumber
  have hnew : p.sequenceNumber ∉ _ := h.notMem_actions (Or.inr (le_of_eq hseq.symm))
  have htask : p.sequenceNumber ∉ _ := h.notMem_tasks (le_of_eq hseq.symm)
  have hopt : isOptionalExternalEventTimerAction ⟨p.sequenceNumber, actionType, router⟩ =
      optional := by
    rw [← PendingAction.entry_isOptional
      (a := ⟨⟨p.sequenceNumber, actionType, router⟩, some task⟩) rfl, he]
    rfl
  have hactions : Assoc.insert p.pendingActions p.sequenceNumber
      (⟨⟨p.sequenceNumber, actionType, router⟩, some task⟩ : PendingAction) =
      p.pendingActions ++ [(p.sequenceNumber, ⟨⟨p.sequenceNumber, actionType, router⟩, some task⟩)] :=
    Assoc.insert_of_notMem hnew
  have htasks : Assoc.insert p.pendingTasks p.sequenceNumber (⟨kind, task⟩ : PendingTask) =
      p.pendingTasks ++ [(p.sequenceNumber, ⟨kind, task⟩)] := Assoc.insert_of_notMem htask
  have hids : ∀ id ∈ p.optionalTimerIDs, decide (id ≠ p.sequenceNumber) = true := by
    intro id hid
    have := h.notMem_optional hid
    simp only [hseq, decide_eq_true_eq]
    unfold ActionID at *
    omega
  -- The fields `noteOptional` leaves alone.
  have hfields : ∀ q : Pending,
      (q.noteOptional p.sequenceNumber ⟨p.sequenceNumber, actionType, router⟩) =
        { q with optionalTimerIDs :=
            if optional then q.optionalTimerIDs.filter (· ≠ p.sequenceNumber) ++ [p.sequenceNumber]
            else q.optionalTimerIDs } := by
    intro q
    unfold Pending.noteOptional
    rw [hopt]
    cases optional <;> rfl
  rw [hfields]
  refine ⟨?_, ?_, ?_, ?_, h.recorded, h.nodup, ?_, h.buffered, h.known_concat nofun⟩
  · simp only [Pending.addTask, Pending.addAction]
    rw [hactions, List.map_append, h.actions, number_concat, List.map_singleton, he, hseq]
  · simp only [Pending.addTask, Pending.addAction, hactions]
    intro x hx
    rcases List.mem_append.mp hx with hx | hx
    · exact h.ids x hx
    · rw [List.mem_singleton.mp hx]
  · simp only [Pending.addTask, Pending.addAction, hseq, List.length_append, List.length_singleton]
    unfold ActionID at *
    omega
  · simp only [Pending.addTask, Pending.addAction, htasks]
    rw [h.tasks, number_concat, List.filterMap_append, List.append_assoc, hseq]
    rfl
  · simp only [Pending.addTask, Pending.addAction]
    rw [List.filter_eq_self.mpr hids, h.optional, number_concat, List.filter_append,
      List.map_append, hseq]
    cases optional
    · simp [Entry.isOptional]
    · rfl

/-- Changing a pending action without changing its entry. -/
theorem modify (h : Numbered p b es T) {i : ActionID} {f : PendingAction → PendingAction}
    (hf : ∀ x ∈ p.pendingActions, x.1 = i → (f x.2).entry = x.2.entry ∧ (f x.2).action.id = x.2.action.id) :
    Numbered { p with pendingActions := Assoc.modify p.pendingActions i f } b es T := by
  refine ⟨?_, ?_, h.sequenceNumber, h.tasks, h.recorded, h.nodup, h.optional, h.buffered, h.known⟩
  · dsimp only
    rw [Assoc.map_modify fun x hx hi => by rw [(hf x hx hi).1], h.actions]
  · intro x hx
    obtain ⟨y, hy, rfl⟩ := List.mem_map.mp hx
    split
    · next hi => exact (hf y hy hi).2.trans (h.ids y hy)
    · exact h.ids y hy

/-! ### Resolutions -/

theorem get?_task (h : Numbered p b es T) {id : ActionID} {t : PendingTask} (ht : (id, t) ∈ T) :
    Assoc.get? p.pendingTasks id = some t := by
  have hnodup : (p.pendingTasks.map Prod.fst).Nodup := by
    rw [h.tasks, List.map_append]
    refine List.Nodup.append h.nodup ?_ ?_
    · have hsub : ∀ l : List (ActionID × Entry),
          ((l.filterMap Entry.pendingTask).map Prod.fst).Sublist (l.map Prod.fst) := by
        intro l
        induction l with
        | nil => exact .slnil
        | cons x l ih =>
          cases hx : Entry.pendingTask x with
          | none => simpa [List.filterMap_cons, hx] using ih.cons _
          | some y =>
            rw [List.filterMap_cons_some hx, List.map_cons, List.map_cons, pendingTask_fst hx]
            exact ih.cons_cons _
      exact (nodup_number b es).sublist (hsub _)
    · intro id hid hid'
      obtain ⟨x, hx, rfl⟩ := List.mem_map.mp hid
      obtain ⟨y, hy, hyx⟩ := List.mem_map.mp hid'
      have h1 := h.recorded x hx
      have h2 := (task_bounds hy).1
      rw [hyx] at h2
      unfold ActionID at *
      omega
  refine Assoc.get?_of_mem hnodup ?_
  rw [h.tasks]
  exact List.mem_append_left _ ht

theorem notProvisional (h : Numbered p b es T) {id : ActionID} (hid : id < b) :
    p.resolutionIDProvisional id = false := by
  refine List.any_eq_false.mpr fun x hx => ?_
  have := (h.notMem_optional hx).1
  simp only [decide_eq_true_eq]
  unfold ActionID at *
  omega

theorem deliverable (h : Numbered p b es T) {k : Kind × ActionID} {t : Nat}
    (ht : (k.2, ⟨k.1, t⟩) ∈ T) : p.deliverable k = some t := by
  unfold Pending.deliverable
  rw [h.get?_task ht]
  have hprov := h.notProvisional (h.recorded _ ht)
  dsimp only at hprov
  simp [hprov]

theorem resolve (h : Numbered p b es T) {k : Kind × ActionID} {t : Nat}
    (ht : (k.2, ⟨k.1, t⟩) ∈ T) (e : HistoryEvent) :
    Numbered (p.resolve k e) b es (Assoc.erase T k.2) := by
  have hlt : k.2 < b := h.recorded _ ht
  have hset : Numbered { p with
      pendingTasks := Assoc.erase p.pendingTasks k.2
      resolvedResolutions := p.resolvedResolutions ++ [k] } b es (Assoc.erase T k.2) := by
    refine ⟨h.actions, h.ids, h.sequenceNumber, ?_, ?_, Assoc.erase_nodup h.nodup, h.optional,
      h.buffered, h.known⟩
    · dsimp only
      rw [h.tasks, Assoc.erase_append]
      congr 1
      refine Assoc.erase_of_notMem fun hmem => ?_
      obtain ⟨y, hy, hyk⟩ := List.mem_map.mp hmem
      have := (task_bounds hy).1
      rw [hyk] at this
      unfold ActionID at *
      omega
    · intro x hx
      exact h.recorded x (Assoc.mem_erase.mp hx).1
  unfold Pending.resolve
  dsimp only
  split
  · refine hset.modify fun x _ _ => ?_
    rcases x with ⟨id, ⟨⟨aid, actionType, router⟩, task⟩⟩
    cases actionType <;> cases task <;> exact ⟨rfl, rfl⟩
  · exact hset

/-! ### Recording -/

theorem get?_action (h : Numbered p b es T) {id : ActionID} {x : Entry}
    (hx : (id, x) ∈ number b es) :
    ∃ a, Assoc.get? p.pendingActions id = some a ∧ a.entry = x ∧ a.action.id = id := by
  rw [← h.actions] at hx
  obtain ⟨⟨id', a⟩, ha, heq⟩ := List.mem_map.mp hx
  cases heq
  refine ⟨a, Assoc.get?_of_mem ?_ ha, rfl, h.ids _ ha⟩
  rw [h.keys]
  exact nodup_number b es

/-- The first pending action is recorded. -/
theorem record {x : Entry} (h : Numbered p b (x :: es) T) {ids : List ActionID}
    (hids : ids = ((number (b + 1) es).filter (·.2.isOptional)).map Prod.fst) :
    Numbered { p.removeAction b with optionalTimerIDs := ids } (b + 1) es
      (T ++ (Entry.pendingTask (b, x)).toList) := by
  have hmap : (Assoc.erase p.pendingActions b).map (fun x => (x.1, x.2.entry)) =
      Assoc.erase (p.pendingActions.map fun x => (x.1, x.2.entry)) b := by
    unfold Assoc.erase
    rw [List.filter_map]
    rfl
  refine ⟨?_, ?_, ?_, ?_, ?_, ?_, hids, h.buffered, fun y hy => h.known y (List.mem_cons_of_mem _ hy)⟩
  · simp only [Pending.removeAction]
    rw [hmap, h.actions]
    have : Assoc.erase (number b (x :: es)) b = Assoc.erase (number (b + 1) es) b := by
      simp [number, Assoc.erase]
    rw [this, Assoc.erase_of_notMem (notMem_of_lt (by omega))]
  · intro y hy
    exact h.ids y (Assoc.mem_erase.mp hy).1
  · have := h.sequenceNumber
    simp only [Pending.removeAction, this, List.length_cons]
    unfold ActionID at *
    omega
  · simp only [Pending.removeAction]
    rw [h.tasks]
    cases hx : Entry.pendingTask (b, x) with
    | none => simp [number, hx]
    | some y => simp [number, hx]
  · intro y hy
    rcases List.mem_append.mp hy with hy | hy
    · have := h.recorded y hy
      unfold ActionID at *
      omega
    · rw [pendingTask_fst (Option.mem_toList.mp hy)]
      exact Int.lt_succ b
  · rw [List.map_append]
    refine List.Nodup.append h.nodup ?_ ?_
    · cases Entry.pendingTask (b, x) <;> simp
    · intro id hid hid'
      obtain ⟨y, hy, rfl⟩ := List.mem_map.mp hid
      obtain ⟨z, hz, hzy⟩ := List.mem_map.mp hid'
      have h1 := h.recorded y hy
      rw [← hzy, pendingTask_fst (Option.mem_toList.mp hz)] at h1
      exact absurd h1 (Int.lt_irrefl _)

theorem recordWork {x : Entry} (h : Numbered p b (x :: es) T) (hx : x.isOptional = false) :
    Numbered (p.removeAction b) (b + 1) es (T ++ (Entry.pendingTask (b, x)).toList) := by
  refine h.record ?_
  have := h.optional
  rwa [number, List.filter_cons_of_neg (by simp [hx])] at this

theorem recordTimer {x : Entry} (h : Numbered p b (x :: es) T) :
    Numbered (p.removeTimer b) (b + 1) es (T ++ (Entry.pendingTask (b, x)).toList) := by
  refine h.record ?_
  have hrest : ∀ id ∈ ((number (b + 1) es).filter (·.2.isOptional)).map Prod.fst,
      decide (id ≠ b) = true := by
    intro id hid
    obtain ⟨y, hy, rfl⟩ := List.mem_map.mp hid
    have := (bounds_of_mem (List.mem_filter.mp hy).1).1
    simp only [decide_eq_true_eq]
    omega
  show p.optionalTimerIDs.filter (· ≠ b) = _
  rw [h.optional, number]
  cases hx : x.isOptional with
  | true => simpa [hx] using hrest
  | false => simpa [hx] using hrest

/-! ### Dropping optional timers -/

theorem dropAt {x : Entry} (h : Numbered p b (x :: es) T) :
    Numbered (p.dropAt b) b es T := by
  have hkeys : ∀ y ∈ Assoc.erase p.pendingActions b, b < y.1 := by
    intro y hy
    obtain ⟨hy, hne⟩ := Assoc.mem_erase.mp hy
    have := (h.key_bounds hy).1
    unfold ActionID at *
    omega
  have hshift : (Assoc.erase p.pendingActions b).map (Pending.shiftAction b) =
      (Assoc.erase p.pendingActions b).map
        fun y => (y.1 - 1, { y.2 with action := { y.2.action with id := y.1 - 1 } }) := by
    refine List.map_congr_left fun y hy => ?_
    simp only [Pending.shiftAction, hkeys y hy, if_true]
  have hrest := (h.record rfl).actions
  simp only [Pending.removeAction] at hrest
  have hnum : (number (b + 1) es).map (fun e => (e.1 - 1, e.2)) = number b es := by
    refine map_number (· - 1) es fun i _ => ?_
    omega
  have hT : ∀ y ∈ T, Pending.shiftID b y.1 = y.1 := by
    intro y hy
    have := h.recorded y hy
    simp only [Pending.shiftID, ite_eq_right_iff]
    unfold ActionID at *
    omega
  refine ⟨?_, ?_, ?_, ?_, h.recorded, h.nodup, ?_, h.buffered,
    fun y hy => h.known y (List.mem_cons_of_mem _ hy)⟩
  · simp only [Pending.dropAt]
    rw [hshift, List.map_map, ← hnum, ← hrest, List.map_map]
    refine List.map_congr_left fun y _ => ?_
    rcases y with ⟨id, ⟨⟨aid, actionType, router⟩, task⟩⟩
    cases actionType <;> cases task <;> rfl
  · simp only [Pending.dropAt]
    rw [hshift]
    intro y hy
    obtain ⟨z, -, rfl⟩ := List.mem_map.mp hy
    rfl
  · have := h.sequenceNumber
    simp only [Pending.dropAt, this, List.length_cons]
    unfold ActionID at *
    omega
  · have hnew : ((number (b + 1) es).filterMap Entry.pendingTask).map
        (fun e => (Pending.shiftID b e.1, e.2)) = (number b es).filterMap Entry.pendingTask := by
      rw [← hnum, List.filterMap_map, List.map_filterMap]
      refine List.filterMap_congr fun y hy => ?_
      have hlt : b < y.1 := Int.lt_of_add_one_le (bounds_of_mem hy).1
      rcases y with ⟨id, kind | _ | _ | _⟩
      · simp only [Entry.pendingTask, Option.map_some, Function.comp, Pending.shiftID]
        rw [if_pos hlt]
      · rfl
      · rfl
      · rfl
    have hold : T.map (fun e => (Pending.shiftID b e.1, e.2)) = T := by
      refine (List.map_congr_left fun y hy => ?_).trans (List.map_id T)
      rw [hT y hy]
      rfl
    simp only [Pending.dropAt]
    rw [h.tasks, Assoc.erase_append, List.map_append, ← hnew]
    congr 1
    · rw [Assoc.erase_of_notMem, hold]
      intro hmem
      obtain ⟨y, hy, hyb⟩ := List.mem_map.mp hmem
      have := h.recorded y hy
      rw [hyb] at this
      exact absurd this (Int.lt_irrefl _)
    · congr 1
      have hhead : Assoc.erase ((number b (x :: es)).filterMap Entry.pendingTask) b =
          Assoc.erase ((number (b + 1) es).filterMap Entry.pendingTask) b := by
        cases hx : Entry.pendingTask (b, x) with
        | none => simp [number, hx]
        | some y =>
          have := pendingTask_fst hx
          simp [number, hx, Assoc.erase, this]
      rw [hhead, Assoc.erase_of_notMem]
      intro hmem
      obtain ⟨y, hy, hyb⟩ := List.mem_map.mp hmem
      have := (task_bounds hy).1
      rw [hyb] at this
      exact absurd (Int.lt_of_add_one_le this) (Int.lt_irrefl _)
  · have hids : p.optionalTimerIDs.filter (· ≠ b) =
        ((number (b + 1) es).filter (·.2.isOptional)).map Prod.fst := h.recordTimer.optional
    have hmap : (((number (b + 1) es).filter (·.2.isOptional)).map Prod.fst).map (fun id =>
          if (Assoc.get? p.pendingActions id).isSome then Pending.shiftID b id else id) =
        (((number (b + 1) es).filter (·.2.isOptional)).map Prod.fst).map (· - 1) := by
      refine List.map_congr_left fun id hid => ?_
      obtain ⟨y, hy, rfl⟩ := List.mem_map.mp hid
      obtain ⟨hy, -⟩ := List.mem_filter.mp hy
      have hlt : b < y.1 := Int.lt_of_add_one_le (bounds_of_mem hy).1
      obtain ⟨a, ha, -⟩ := h.get?_action (List.mem_cons_of_mem _ hy)
      rw [ha]
      simp only [Option.isSome_some, if_true, Pending.shiftID, hlt]
    simp only [Pending.dropAt]
    rw [hids, hmap, ← hnum, List.filter_map, List.map_map, List.map_map]
    rfl

end Numbered

/-! ### The operations of the context -/

namespace Ctx

variable {c : Ctx} {b : ActionID} {es : List Entry} {T : List (ActionID × PendingTask)}

theorem consumeBufferedResolution_of_nil (h : c.pend.bufferedResolutions = [])
    (k : Kind × ActionID) : c.consumeBufferedResolution k = c := by
  unfold consumeBufferedResolution
  rw [h]
  rfl

theorem consumeFor_of_nil (h : c.pend.bufferedResolutions = []) (ids : List ActionID) :
    c.consumeFor ids = c := by
  unfold consumeFor
  induction ids with
  | nil => rfl
  | cons id ids ih =>
    rw [List.foldl_cons]
    split
    · rw [consumeBufferedResolution_of_nil h, ih]
    · exact ih

/-- Scheduling work: a new task object under the next id. -/
theorem register_of_numbered (h : Numbered c.pend b es T) {actionType : WorkflowActionType}
    {router : Option TaskRouter} {kind : Kind} {optional : Bool}
    (he : (⟨⟨c.pend.sequenceNumber, actionType, router⟩, some c.core.tasks.length⟩ :
      PendingAction).entry = .work kind optional c.core.tasks.length) :
    ∃ pend, c.register actionType router kind =
        ({ c with core := c.core.newTask.1, pend := pend }, c.core.tasks.length,
          c.pend.sequenceNumber) ∧
      Numbered pend b (es ++ [.work kind optional c.core.tasks.length]) T ∧
      pend.allocated = c.pend.allocated ++ [c.pend.sequenceNumber] := by
  have hreg := h.register he
  refine ⟨_, ?_, hreg, ?_⟩
  · unfold register
    dsimp only [Core.newTask]
    rw [consumeBufferedResolution_of_nil]
    · rfl
    · exact hreg.buffered
  · simp only [Pending.addTask, Pending.noteOptional]
    split <;> rfl

theorem onResolution_of_numbered (h : Numbered c.pend b es T) {k : Kind × ActionID} {t : Nat}
    (ht : (k.2, ⟨k.1, t⟩) ∈ T) (e : HistoryEvent) :
    c.onResolution k e = { c with pend := c.pend.resolve k e, core := c.core.resolve t e } := by
  unfold onResolution
  rw [h.deliverable ht]

theorem pendingIs_of_numbered (h : Numbered c.pend b es T) {id : ActionID} {x : Entry}
    (hx : (id, x) ∈ number b es) {p : WorkflowActionType → Bool}
    (hp : ∀ a : PendingAction, a.entry = x → p a.action.actionType = true) :
    c.pendingIs id p = true := by
  obtain ⟨a, ha, hax, -⟩ := h.get?_action hx
  unfold pendingIs
  rw [ha]
  exact hp a hax

theorem notPendingIs_of_numbered (h : Numbered c.pend b es T) {id : ActionID} {x : Entry}
    (hx : (id, x) ∈ number b es) {p : WorkflowActionType → Bool}
    (hp : ∀ a : PendingAction, a.entry = x → p a.action.actionType = false) :
    c.pendingIs id p = false := by
  obtain ⟨a, ha, hax, -⟩ := h.get?_action hx
  unfold pendingIs
  rw [ha]
  exact hp a hax

theorem optionalAt_of_numbered {x : Entry} (h : Numbered c.pend b (x :: es) T) (hx : x ≠ .other) :
    c.pend.optionalAt b = x.isOptional := by
  obtain ⟨a, ha, rfl, -⟩ := h.get?_action List.mem_cons_self
  unfold Pending.optionalAt
  rw [ha]
  rcases a with ⟨⟨id, actionType, router⟩, task⟩
  cases actionType <;> cases task <;> first | rfl | exact absurd rfl hx

theorem dropOptionalTimer_of_numbered {x : Entry} (h : Numbered c.pend b (x :: es) T) :
    (c.dropOptionalTimer b).core = c.core ∧
      (c.dropOptionalTimer b).pend.allocated = c.pend.allocated ∧
      Numbered (c.dropOptionalTimer b).pend b es T := by
  have hdrop := h.dropAt
  have heq : (c.dropOptionalTimer b).core = c.core ∧
      (c.dropOptionalTimer b).pend = c.pend.dropAt b := by
    unfold dropOptionalTimer
    dsimp only
    rw [consumeFor_of_nil]
    · exact ⟨rfl, rfl⟩
    · exact hdrop.buffered
  exact ⟨heq.1, by rw [heq.2]; rfl, by rw [heq.2]; exact hdrop⟩

/-- Optional timers that the history does not have are dropped before the first recorded action. -/
theorem dropOptionalTimers_of_numbered {os : List Entry} {x : Entry} {n : Nat}
    (h : Numbered c.pend b (os ++ x :: es) T) (hos : ∀ o ∈ os, o.isOptional = true)
    (hx : x.isOptional = false) (hne : x ≠ .other) (hn : os.length ≤ n) :
    (dropOptionalTimers b n c).core = c.core ∧
      (dropOptionalTimers b n c).pend.allocated = c.pend.allocated ∧
      Numbered (dropOptionalTimers b n c).pend b (x :: es) T := by
  induction os generalizing c n with
  | nil =>
    have hopt : c.pend.optionalAt b = false := (optionalAt_of_numbered h hne).trans hx
    cases n with
    | zero => exact ⟨rfl, rfl, h⟩
    | succ n =>
      unfold dropOptionalTimers
      rw [if_neg (by simp [hopt])]
      exact ⟨rfl, rfl, h⟩
  | cons o os ih =>
    have ho : o.isOptional = true := hos o List.mem_cons_self
    have hopt : c.pend.optionalAt b = true := by
      refine (optionalAt_of_numbered h ?_).trans ho
      rintro rfl
      cases ho
    cases n with
    | zero => cases hn
    | succ n =>
      unfold dropOptionalTimers
      rw [if_pos hopt]
      obtain ⟨hcore, halloc, hdrop⟩ := dropOptionalTimer_of_numbered h
      have hrec := ih (c := c.dropOptionalTimer b) (n := n) hdrop
        (fun o ho => hos o (List.mem_cons_of_mem _ ho)) (Nat.le_of_succ_le_succ hn)
      exact ⟨hrec.1.trans hcore, hrec.2.1.trans halloc, hrec.2.2⟩

end Ctx

/-! ### Recorded schedules -/

/-- Whether a scheduling event records an action of this kind. -/
def Entry.recordedBy (x : Entry) (e : EventType) : Bool :=
  match e, x with
  | .taskScheduled _, .work .task false _ => true
  | .childWorkflowInstanceCreated _, .work .child false _ => true
  | .timerCreated tc, .work .timer optional _ =>
    isOptionalExternalEventTimerCreatedEvent tc == optional
  | .detachedWorkflowInstanceCreated instanceId, .detached instanceId' => instanceId == instanceId'
  | _, _ => false

namespace Ctx

variable {c c' : Ctx} {b : ActionID} {os es : List Entry} {T : List (ActionID × PendingTask)}
  {x : Entry}

/-- The context after the first action that is not an optional timer was recorded. -/
structure Recorded (c c' : Ctx) (b : ActionID) (x : Entry) (es : List Entry)
    (T : List (ActionID × PendingTask)) : Prop where
  core : c'.core = c.core
  allocated : c'.pend.allocated = c.pend.allocated
  numbered : Numbered c'.pend (b + 1) es (T ++ (Entry.pendingTask (b, x)).toList)

/-- Bringing the action to the id it was recorded under. -/
theorem dropUnless_of_numbered (h : Numbered c.pend b (os ++ x :: es) T)
    (hos : ∀ o ∈ os, o.isOptional = true) (hx : x.isOptional = false) (hne : x ≠ .other)
    {asRecorded : Bool} (hrec : asRecorded = true → os = []) :
    (c.dropUnless asRecorded b c.pend.pendingActions.length).core = c.core ∧
      (c.dropUnless asRecorded b c.pend.pendingActions.length).pend.allocated = c.pend.allocated ∧
      Numbered (c.dropUnless asRecorded b c.pend.pendingActions.length).pend b (x :: es) T := by
  cases asRecorded with
  | true =>
    rw [hrec rfl] at h
    exact ⟨rfl, rfl, h⟩
  | false =>
    refine dropOptionalTimers_of_numbered h hos hx hne ?_
    have hlen := congrArg List.length h.keys
    have hnum : ∀ (b : Int) (l : List Entry), (number b l).length = l.length := by
      intro b l
      rw [← List.length_map (f := Prod.snd), map_snd_number]
    simp only [List.length_map, hnum, List.length_append, List.length_cons] at hlen
    omega

theorem alignSchedule_of_numbered (h : Numbered c.pend b (os ++ x :: es) T)
    (hos : ∀ o ∈ os, o.isOptional = true) (hx : x.isOptional = false) (hne : x ≠ .other)
    {p : WorkflowActionType → Bool}
    (hp : ∀ a : PendingAction, a.entry = x → p a.action.actionType = true)
    (hopt : ∀ a : PendingAction, a.entry.isOptional = true → p a.action.actionType = false) :
    ∃ d, c.alignSchedule b p c.pend.pendingActions.length = some d ∧ d.core = c.core ∧
      d.pend.allocated = c.pend.allocated ∧ Numbered d.pend b (x :: es) T := by
  have hrec : c.pendingIs b p = true → os = [] := by
    intro hpend
    cases os with
    | nil => rfl
    | cons o os =>
      have hnot := notPendingIs_of_numbered h List.mem_cons_self (p := p)
        fun a ha => hopt a (by rw [ha]; exact hos o List.mem_cons_self)
      rw [hpend] at hnot
      cases hnot
  obtain ⟨hcore, halloc, hnum⟩ := dropUnless_of_numbered h hos hx hne hrec
  refine ⟨_, ?_, hcore, halloc, hnum⟩
  unfold alignSchedule
  exact if_pos (pendingIs_of_numbered hnum List.mem_cons_self hp)

theorem onTaskScheduled_of_numbered {t : Nat} (h : Numbered c.pend b (os ++ .work .task false t :: es) T)
    (hos : ∀ o ∈ os, o.isOptional = true) (ts : TaskScheduledEvent) :
    ∃ c', c.onTaskScheduled b ts = .ok c' ∧ Recorded c c' b (.work .task false t) es T := by
  obtain ⟨d, hd, hcore, halloc, hnum⟩ := alignSchedule_of_numbered h hos rfl nofun
    (p := isScheduleTask) (fun a ha => PendingAction.kind_of_entry.1 _ _ ha)
    (fun a ha => (PendingAction.kind_of_entry.2.2.2 ha).1)
  refine ⟨d.removeAction b, ?_, hcore, halloc, hnum.recordWork rfl⟩
  unfold onTaskScheduled
  rw [hd]

theorem onChildWorkflowScheduled_of_numbered {t : Nat}
    (h : Numbered c.pend b (os ++ .work .child false t :: es) T)
    (hos : ∀ o ∈ os, o.isOptional = true) (ts : ChildWorkflowInstanceCreatedEvent) :
    ∃ c', c.onChildWorkflowScheduled b ts = .ok c' ∧ Recorded c c' b (.work .child false t) es T := by
  obtain ⟨d, hd, hcore, halloc, hnum⟩ := alignSchedule_of_numbered h hos rfl nofun
    (p := isCreateChildWorkflow) (fun a ha => PendingAction.kind_of_entry.2.1 _ _ ha)
    (fun a ha => (PendingAction.kind_of_entry.2.2.2 ha).2)
  have hset : (d.setChildInstanceID b ts.instanceId).core = d.core ∧
      (d.setChildInstanceID b ts.instanceId).pend = d.pend := by
    unfold setChildInstanceID
    split
    · split <;> exact ⟨rfl, rfl⟩
    · exact ⟨rfl, rfl⟩
  refine ⟨(d.setChildInstanceID b ts.instanceId).removeAction b, ?_, hset.1.trans hcore, ?_, ?_⟩
  · unfold onChildWorkflowScheduled
    rw [hd]
  · show (d.setChildInstanceID b ts.instanceId).pend.allocated = _
    rw [hset.2, halloc]
  · show Numbered ((d.setChildInstanceID b ts.instanceId).pend.removeAction b) _ _ _
    rw [hset.2]
    exact hnum.recordWork rfl

theorem onTimerCreated_of_numbered {t : Nat} {tc : TimerCreatedEvent}
    (h : Numbered c.pend b
      (os ++ .work .timer (isOptionalExternalEventTimerCreatedEvent tc) t :: es) T)
    (hos : ∀ o ∈ os, o.isOptional = true)
    (hopt : isOptionalExternalEventTimerCreatedEvent tc = true → os = []) :
    ∃ c', c.onTimerCreated b tc = .ok c' ∧
      Recorded c c' b (.work .timer (isOptionalExternalEventTimerCreatedEvent tc) t) es T := by
  generalize hb : isOptionalExternalEventTimerCreatedEvent tc = optional at h hopt ⊢
  have hdrop : ∃ d, c.dropUnless optional b c.pend.pendingActions.length = d ∧ d.core = c.core ∧
      d.pend.allocated = c.pend.allocated ∧ Numbered d.pend b (.work .timer optional t :: es) T := by
    refine ⟨_, rfl, ?_⟩
    cases optional with
    | true =>
      rw [hopt rfl] at h
      exact ⟨rfl, rfl, h⟩
    | false => exact dropUnless_of_numbered h hos rfl nofun nofun
  obtain ⟨d, hd, hcore, halloc, hnum⟩ := hdrop
  have hrec := hnum.recordTimer
  refine ⟨{ d with pend := d.pend.removeTimer b }, ?_, hcore, halloc, hrec⟩
  unfold onTimerCreated
  dsimp only
  rw [hb, hd, if_pos (pendingIs_of_numbered hnum List.mem_cons_self
    fun a ha => PendingAction.kind_of_entry.2.2.1 _ _ ha)]
  unfold consumeReadyBufferedResolutions
  rw [if_pos (by rw [hrec.buffered]; rfl)]

theorem onDetachedWorkflowCreated_of_numbered {instanceId : InstanceID}
    (h : Numbered c.pend b (.detached instanceId :: es) T) :
    ∃ c', c.onDetachedWorkflowCreated b instanceId = .ok c' ∧
      Recorded c c' b (.detached instanceId) es T := by
  obtain ⟨a, ha, hax, -⟩ := h.get?_action List.mem_cons_self
  have hpend : c.pendingDetached b = some instanceId := by
    unfold pendingDetached
    rw [ha]
    rcases a with ⟨⟨id, actionType, router⟩, task⟩
    cases actionType <;> cases task <;> cases hax
    rfl
  refine ⟨c.removeAction b, ?_, rfl, rfl, h.recordWork rfl⟩
  unfold onDetachedWorkflowCreated
  dsimp only
  rw [hpend]
  simp only [dropUnless, Option.isSome_some, if_true, hpend]

end Ctx

end DurableTask.Task
