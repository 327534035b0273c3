import DurableTask.Lib.Renumber
import DurableTask.Task.Suspension
import DurableTask.Task.Updates

/-!
# The ids of pending work

The maps of pending actions and tasks, the set of optional timers and the sequence number fit together at
every point of every replay, for any program and any history. The passes of
`dropOptionalExternalEventTimerAt` shift the maps in place, in ascending order, with the same effect as
`Pending.dropAt`.
-/

namespace DurableTask.Task

namespace Pending

variable {p p' : Pending} {id : ActionID}

structure Consistent (p : Pending) : Prop where
  /-- Each action is stored under its own id. -/
  id_eq : ∀ id a, Assoc.get? p.pendingActions id = some a → a.action.id = id
  optional : ∀ id, id ∈ p.optionalTimerIDs ↔ p.optionalAt id = true
  action_range : ∀ id a, Assoc.get? p.pendingActions id = some a → 0 ≤ id ∧ id < p.sequenceNumber
  task_range : ∀ id t, Assoc.get? p.pendingTasks id = some t → 0 ≤ id ∧ id < p.sequenceNumber
  kind : ∀ id a t, Assoc.get? p.pendingActions id = some a → Assoc.get? p.pendingTasks id = some t →
    a.action.actionType.kind = some t.kind
  next : 0 ≤ p.sequenceNumber

/-- The lists are maps. -/
structure Maps (p : Pending) : Prop where
  actions : (p.pendingActions.map Prod.fst).Nodup
  tasks : (p.pendingTasks.map Prod.fst).Nodup

theorem optionalAt_eq_true : p.optionalAt id = true ↔
    ∃ a, Assoc.get? p.pendingActions id = some a ∧ isOptionalExternalEventTimerAction a.action = true := by
  unfold optionalAt
  cases Assoc.get? p.pendingActions id <;> simp

/-- An action under another id. -/
def renumber (id : ActionID) (a : PendingAction) : PendingAction :=
  { a with action := { a.action with id := id } }

theorem shifted_erase {α : Type} (g : ActionID → α → α) (m : List (ActionID × α)) (id k : ActionID) :
    Renumber.shifted g (Assoc.erase m id) id k =
      if k < id then Assoc.get? m k else (Assoc.get? m (k + 1)).map (g k) := by
  unfold Renumber.shifted
  by_cases hk : k < id
  · rw [if_pos hk, if_pos hk, Assoc.get?_erase_of_ne (Int.ne_of_gt hk)]
  · rw [if_neg hk, if_neg hk, Assoc.get?_erase_of_ne (by unfold ActionID at *; omega)]

theorem get?_dropAt_actions (p : Pending) (id k : ActionID) :
    Assoc.get? (p.dropAt id).pendingActions k = if k < id then Assoc.get? p.pendingActions k
      else (Assoc.get? p.pendingActions (k + 1)).map (renumber k) := by
  rw [← shifted_erase]
  exact Renumber.get?_map_shift renumber (Assoc.get?_erase_self ..) k

theorem dropAt_tasks_eq (p : Pending) (id : ActionID) : (p.dropAt id).pendingTasks =
    (Assoc.erase p.pendingTasks id).map (Renumber.shift (fun _ t => t) id) := by
  refine List.map_congr_left fun e _ => ?_
  unfold shiftID Renumber.shift
  split <;> rfl

theorem get?_dropAt_tasks (p : Pending) (id k : ActionID) :
    Assoc.get? (p.dropAt id).pendingTasks k = if k < id then Assoc.get? p.pendingTasks k
      else Assoc.get? p.pendingTasks (k + 1) := by
  have hshift := Renumber.get?_map_shift (fun _ t => t) (Assoc.get?_erase_self p.pendingTasks id) k
  rw [shifted_erase, Option.map_id'] at hshift
  rw [dropAt_tasks_eq]
  exact hshift

namespace Consistent

/-- Pending work with the same entries. -/
theorem congr (h : p.Consistent) (hactions : ∀ id, Assoc.get? p'.pendingActions id = Assoc.get? p.pendingActions id)
    (htasks : ∀ id, Assoc.get? p'.pendingTasks id = Assoc.get? p.pendingTasks id)
    (hoptional : ∀ id, id ∈ p'.optionalTimerIDs ↔ id ∈ p.optionalTimerIDs)
    (hnext : p'.sequenceNumber = p.sequenceNumber) : p'.Consistent := by
  refine ⟨fun id a ha => ?_, fun id => ?_, fun id a ha => ?_, fun id t ht => ?_, fun id a t ha ht => ?_, ?_⟩
  · exact h.id_eq id a (hactions id ▸ ha)
  · rw [hoptional, h.optional, optionalAt_eq_true, optionalAt_eq_true, hactions]
  · rw [hnext]
    exact h.action_range id a (hactions id ▸ ha)
  · rw [hnext]
    exact h.task_range id t (htasks id ▸ ht)
  · exact h.kind id a t (hactions id ▸ ha) (htasks id ▸ ht)
  · rw [hnext]
    exact h.next

/-- The details of an action are filled in. -/
theorem modify (h : p.Consistent) (id : ActionID) {f : PendingAction → PendingAction}
    (hf : ∀ a, Alike a (f a)) (hopt : ∀ a, Assoc.get? p.pendingActions id = some a →
      isOptionalExternalEventTimerAction (f a).action = isOptionalExternalEventTimerAction a.action) :
    ({ p with pendingActions := Assoc.modify p.pendingActions id f } : Pending).Consistent := by
  have hold {k : ActionID} {a : PendingAction}
      (ha : Assoc.get? (Assoc.modify p.pendingActions id f) k = some a) :
      ∃ b, Assoc.get? p.pendingActions k = some b ∧ Alike b a ∧
        isOptionalExternalEventTimerAction a.action = isOptionalExternalEventTimerAction b.action := by
    rw [Assoc.get?_modify] at ha
    split at ha
    · next hk =>
      obtain ⟨b, hb, rfl⟩ := Option.map_eq_some_iff.mp ha
      exact ⟨b, hb, hf b, hopt b (hk ▸ hb)⟩
    · exact ⟨a, ha, .refl a, rfl⟩
  refine ⟨fun k a ha => ?_, fun k => ?_, fun k a ha => ?_, h.task_range, fun k a t ha ht => ?_, h.next⟩
  · obtain ⟨b, hb, halike, -⟩ := hold ha
    rw [halike.id]
    exact h.id_eq k b hb
  · rw [h.optional]
    unfold optionalAt
    dsimp only
    rcases ha : Assoc.get? (Assoc.modify p.pendingActions id f) k with _ | a
    · rw [Assoc.get?_modify] at ha
      have hnone : Assoc.get? p.pendingActions k = none := by
        split at ha
        · exact Option.map_eq_none_iff.mp ha
        · exact ha
      rw [hnone]
    · obtain ⟨b, hb, -, hsame⟩ := hold ha
      rw [hb]
      dsimp only
      rw [hsame]
  · obtain ⟨b, hb, -, -⟩ := hold ha
    exact h.action_range k b hb
  · obtain ⟨b, hb, halike, -⟩ := hold ha
    rw [halike.kind]
    exact h.kind k b t hb ht

/-- An action is taken away, with its note if it is an optional timer. -/
theorem erase (h : p.Consistent) (id : ActionID) {optional : List ActionID}
    (hoptional : ∀ id', id' ∈ optional ↔ id' ≠ id ∧ id' ∈ p.optionalTimerIDs) :
    ({ p with pendingActions := Assoc.erase p.pendingActions id, optionalTimerIDs := optional } :
      Pending).Consistent := by
  refine ⟨fun id' a ha => ?_, fun id' => ?_, fun id' a ha => ?_, h.task_range, fun id' a t ha ht => ?_, h.next⟩
  · exact h.id_eq id' a (Assoc.get?_of_get?_erase ha)
  · rw [hoptional, h.optional]
    unfold optionalAt
    dsimp only
    by_cases hid : id = id'
    · rw [← hid, Assoc.get?_erase_self]
      simp
    · rw [Assoc.get?_erase_of_ne hid]
      exact ⟨fun h => h.2, fun h => ⟨Ne.symm hid, h⟩⟩
  · exact h.action_range id' a (Assoc.get?_of_get?_erase ha)
  · exact h.kind id' a t (Assoc.get?_of_get?_erase ha) ht

/-- Work is added under the next id. -/
theorem add (h : p.Consistent) {a : PendingAction} (ha : a.action.id = p.sequenceNumber)
    {optional : List ActionID} (hoptional : ∀ id, id ∈ optional ↔
      if id = p.sequenceNumber then isOptionalExternalEventTimerAction a.action = true
      else id ∈ p.optionalTimerIDs)
    {tasks : List (ActionID × PendingTask)} (htasks : ∀ id, id ≠ p.sequenceNumber →
      Assoc.get? tasks id = Assoc.get? p.pendingTasks id)
    (hkind : ∀ t, Assoc.get? tasks p.sequenceNumber = some t → a.action.actionType.kind = some t.kind)
    (allocated : List ActionID) :
    ({ p with
        sequenceNumber := p.sequenceNumber + 1
        pendingActions := Assoc.insert p.pendingActions p.sequenceNumber a
        optionalTimerIDs := optional
        pendingTasks := tasks
        allocated := allocated } : Pending).Consistent := by
  have hnext := h.next
  have hold {id : ActionID} {b : PendingAction} (hne : id ≠ p.sequenceNumber)
      (hb : Assoc.get? (Assoc.insert p.pendingActions p.sequenceNumber a) id = some b) :
      Assoc.get? p.pendingActions id = some b := by
    rw [Assoc.get?_insert_of_ne (Ne.symm hne)] at hb
    exact hb
  have hnew {b : PendingAction}
      (hb : Assoc.get? (Assoc.insert p.pendingActions p.sequenceNumber a) p.sequenceNumber = some b) :
      b = a := by
    rw [Assoc.get?_insert_self] at hb
    exact (Option.some.inj hb).symm
  have hgrow {id : ActionID} (hid : 0 ≤ id ∧ id < p.sequenceNumber) : 0 ≤ id ∧ id < p.sequenceNumber + 1 :=
    ⟨hid.1, Int.lt_add_one_of_le (Int.le_of_lt hid.2)⟩
  have hself : 0 ≤ p.sequenceNumber ∧ p.sequenceNumber < p.sequenceNumber + 1 :=
    ⟨hnext, Int.lt_add_one_of_le (Int.le_refl _)⟩
  refine ⟨fun id b hb => ?_, fun id => ?_, fun id b hb => ?_, fun id t ht => ?_, fun id b t hb ht => ?_,
    Int.le_add_one hnext⟩
  · by_cases hid : id = p.sequenceNumber
    · subst hid
      rw [hnew hb, ha]
    · exact h.id_eq id b (hold hid hb)
  · rw [hoptional]
    unfold optionalAt
    dsimp only
    by_cases hid : id = p.sequenceNumber
    · rw [if_pos hid, hid, Assoc.get?_insert_self]
    · rw [if_neg hid, Assoc.get?_insert_of_ne (Ne.symm hid), h.optional]
      rfl
  · by_cases hid : id = p.sequenceNumber
    · exact hid ▸ hself
    · exact hgrow (h.action_range id b (hold hid hb))
  · by_cases hid : id = p.sequenceNumber
    · exact hid ▸ hself
    · exact hgrow (h.task_range id t (htasks id hid ▸ ht))
  · by_cases hid : id = p.sequenceNumber
    · subst hid
      rw [hnew hb]
      exact hkind t ht
    · exact h.kind id b t (hold hid hb) (htasks id hid ▸ ht)

theorem mem_dropAt_optional (h : p.Consistent) (k : ActionID) :
    k ∈ (p.dropAt id).optionalTimerIDs ↔
      if k < id then k ∈ p.optionalTimerIDs else k + 1 ∈ p.optionalTimerIDs := by
  have hshift : (p.dropAt id).optionalTimerIDs = (p.optionalTimerIDs.filter (· ≠ id)).map (shiftID id) := by
    refine List.map_congr_left fun x hx => ?_
    obtain ⟨a, ha, -⟩ := optionalAt_eq_true.mp ((h.optional x).mp (List.mem_of_mem_filter hx))
    rw [ha]
    rfl
  rw [hshift, List.mem_map]
  unfold shiftID
  constructor
  · rintro ⟨x, hx, rfl⟩
    obtain ⟨hmem, hne⟩ := List.mem_filter.mp hx
    have hne : x ≠ id := of_decide_eq_true hne
    unfold ActionID at *
    by_cases hlt : id < x
    · rw [if_pos hlt, if_neg (by omega), Int.sub_add_cancel]
      exact hmem
    · rw [if_neg hlt, if_pos (by omega)]
      exact hmem
  · intro hk
    unfold ActionID at *
    split at hk
    · next hlt =>
      exact ⟨k, List.mem_filter.mpr ⟨hk, decide_eq_true (by omega)⟩, if_neg (by omega)⟩
    · next hlt =>
      refine ⟨k + 1, List.mem_filter.mpr ⟨hk, decide_eq_true (by omega)⟩, ?_⟩
      rw [if_pos (by omega), Int.add_sub_cancel]

/-- The optional timer at `id` is dropped and what is after it renumbered. -/
theorem dropAt (h : p.Consistent) (hopt : p.optionalAt id = true) : (p.dropAt id).Consistent := by
  obtain ⟨a₀, ha₀, -⟩ := optionalAt_eq_true.mp hopt
  have hid := h.action_range id a₀ ha₀
  -- Whether before `id` or not, an action and its task come from one id.
  have hbelow {k : ActionID} (hk : k < id) (hrange : 0 ≤ k ∧ k < p.sequenceNumber) :
      0 ≤ k ∧ k < p.sequenceNumber - 1 := by
    unfold ActionID at *
    omega
  have habove {k : ActionID} (hk : ¬k < id) (hrange : 0 ≤ k + 1 ∧ k + 1 < p.sequenceNumber) :
      0 ≤ k ∧ k < p.sequenceNumber - 1 := by
    unfold ActionID at *
    omega
  refine ⟨fun k a ha => ?_, fun k => ?_, fun k a ha => ?_, fun k t ht => ?_, fun k a t ha ht => ?_, ?_⟩
  · rw [get?_dropAt_actions] at ha
    split at ha
    · exact h.id_eq k a ha
    · obtain ⟨b, -, rfl⟩ := Option.map_eq_some_iff.mp ha
      rfl
  · rw [h.mem_dropAt_optional, optionalAt_eq_true, get?_dropAt_actions]
    split
    · rw [h.optional, optionalAt_eq_true]
    · rw [h.optional, optionalAt_eq_true]
      rcases Assoc.get? p.pendingActions (k + 1) with _ | b
      · simp
      · simp only [Option.map_some, Option.some.injEq, exists_eq_left']
        rfl
  · rw [get?_dropAt_actions] at ha
    split at ha
    · next hk => exact hbelow hk (h.action_range k a ha)
    · next hk =>
      obtain ⟨b, hb, -⟩ := Option.map_eq_some_iff.mp ha
      exact habove hk (h.action_range _ b hb)
  · rw [get?_dropAt_tasks] at ht
    split at ht
    · next hk => exact hbelow hk (h.task_range k t ht)
    · next hk => exact habove hk (h.task_range _ t ht)
  · rw [get?_dropAt_actions] at ha
    rw [get?_dropAt_tasks] at ht
    split at ha
    · next hk =>
      rw [if_pos hk] at ht
      exact h.kind k a t ha ht
    · next hk =>
      rw [if_neg hk] at ht
      obtain ⟨b, hb, rfl⟩ := Option.map_eq_some_iff.mp ha
      exact h.kind _ b t hb ht
  · show 0 ≤ p.sequenceNumber - 1
    unfold ActionID at *
    omega

end Consistent

/-! ### Updates -/

theorem Maps.dropAt (h : p.Maps) (id : ActionID) : (p.dropAt id).Maps := by
  refine ⟨Renumber.nodup_map_shift renumber (Assoc.erase_nodup h.actions) (Assoc.get?_erase_self ..), ?_⟩
  rw [dropAt_tasks_eq]
  exact Renumber.nodup_map_shift _ (Assoc.erase_nodup h.tasks) (Assoc.get?_erase_self ..)

/-- The loop body of the pass over the later actions. -/
def shiftActionDown (p : Pending) (id : ActionID) : Pending :=
  { p with
    pendingActions := Renumber.moveDown renumber p.pendingActions id
    optionalTimerIDs := Renumber.moveKeyDown p.optionalTimerIDs id }

/-- The loop body of the pass over the later tasks. -/
def shiftTaskDown (p : Pending) (id : ActionID) : Pending :=
  { p with pendingTasks := Renumber.moveDown (fun _ t => t) p.pendingTasks id }

/-- The ids of a map after `atID`, in ascending order. -/
def idsAfter {α : Type} (m : List (ActionID × α)) (atID : ActionID) : List ActionID :=
  Ctx.sortIDs ((m.map Prod.fst).filter (atID < ·))

/-- `dropOptionalExternalEventTimerAt` up to the redelivery, as it changes the maps in place. -/
def dropInPlace (p : Pending) (atID : ActionID) : Pending :=
  let p := { p with
    pendingActions := Assoc.erase p.pendingActions atID
    pendingTasks := Assoc.erase p.pendingTasks atID
    optionalTimerIDs := p.optionalTimerIDs.filter (· ≠ atID) }
  let p := (idsAfter p.pendingActions atID).foldl shiftActionDown p
  let p := (idsAfter p.pendingTasks atID).foldl shiftTaskDown p
  { p with sequenceNumber := p.sequenceNumber - 1 }

theorem foldl_shiftActionDown (p : Pending) (ids : List ActionID) :
    ids.foldl shiftActionDown p = { p with
      pendingActions := ids.foldl (Renumber.moveDown renumber) p.pendingActions
      optionalTimerIDs := ids.foldl Renumber.moveKeyDown p.optionalTimerIDs } := by
  induction ids generalizing p with
  | nil => rfl
  | cons id ids ih => exact ih (p.shiftActionDown id)

theorem foldl_shiftTaskDown (p : Pending) (ids : List ActionID) :
    ids.foldl shiftTaskDown p =
      { p with pendingTasks := ids.foldl (Renumber.moveDown fun _ t => t) p.pendingTasks } := by
  induction ids generalizing p with
  | nil => rfl
  | cons id ids ih => exact ih (p.shiftTaskDown id)

theorem dropInPlace_eq (p : Pending) (atID : ActionID) : p.dropInPlace atID = { p with
    sequenceNumber := p.sequenceNumber - 1
    pendingActions := (idsAfter (Assoc.erase p.pendingActions atID) atID).foldl (Renumber.moveDown renumber)
      (Assoc.erase p.pendingActions atID)
    pendingTasks := (idsAfter (Assoc.erase p.pendingTasks atID) atID).foldl
      (Renumber.moveDown fun _ t => t) (Assoc.erase p.pendingTasks atID)
    optionalTimerIDs := (idsAfter (Assoc.erase p.pendingActions atID) atID).foldl Renumber.moveKeyDown
      (p.optionalTimerIDs.filter (· ≠ atID)) } := by
  unfold dropInPlace
  dsimp only
  rw [foldl_shiftActionDown, foldl_shiftTaskDown]

section

variable {α : Type} {m : List (ActionID × α)} {atID : ActionID}

theorem mem_idsAfter : id ∈ idsAfter m atID ↔ atID < id ∧ Assoc.get? m id ≠ none := by
  unfold idsAfter Ctx.sortIDs
  rw [List.mem_insertionSort, List.mem_filter, decide_eq_true_eq, Ne, Assoc.get?_eq_none_iff, not_not]
  exact and_comm

theorem sorted_idsAfter (h : (m.map Prod.fst).Nodup) (atID : ActionID) :
    (idsAfter m atID).Pairwise (· < ·) := by
  have hnodup : (idsAfter m atID).Nodup :=
    (List.perm_insertionSort ..).nodup_iff.mpr (h.sublist List.filter_sublist)
  have hle : (idsAfter m atID).Pairwise (· ≤ ·) := List.pairwise_insertionSort ..
  exact (hle.and hnodup).imp fun h => lt_of_le_of_ne h.1 h.2

end

/-- Pending work that is the same up to the order of its maps. -/
structure SameMaps (p p' : Pending) : Prop where
  actions : ∀ id, Assoc.get? p.pendingActions id = Assoc.get? p'.pendingActions id
  tasks : ∀ id, Assoc.get? p.pendingTasks id = Assoc.get? p'.pendingTasks id
  optional : ∀ id, id ∈ p.optionalTimerIDs ↔ id ∈ p'.optionalTimerIDs
  sequenceNumber : p.sequenceNumber = p'.sequenceNumber
  bufferedResolutions : p.bufferedResolutions = p'.bufferedResolutions
  resolvedResolutions : p.resolvedResolutions = p'.resolvedResolutions

/-- The passes in place shift the three maps as `dropAt` does. -/
theorem Consistent.dropInPlace (h : p.Consistent) (hmaps : p.Maps) (atID : ActionID) :
    (p.dropInPlace atID).SameMaps (p.dropAt atID) := by
  rw [dropInPlace_eq]
  refine ⟨fun k => ?_, fun k => ?_, fun k => ?_, rfl, rfl, rfl⟩
  · rw [get?_dropAt_actions, ← shifted_erase]
    exact Renumber.get?_moveAllDown renumber (sorted_idsAfter (Assoc.erase_nodup hmaps.actions) atID)
      (fun _ => mem_idsAfter) (Assoc.get?_erase_self ..) k
  · have hshift := Renumber.get?_moveAllDown (fun _ t => t)
      (sorted_idsAfter (Assoc.erase_nodup hmaps.tasks) atID) (fun _ => mem_idsAfter)
      (Assoc.get?_erase_self ..) k
    rw [shifted_erase, Option.map_id'] at hshift
    rw [get?_dropAt_tasks]
    exact hshift
  · -- An optional timer has an action, so its id moves if and only if it is a later one.
    have hids (id : ActionID) (hid : id ∈ p.optionalTimerIDs) (hlt : atID < id) :
        id ∈ idsAfter (Assoc.erase p.pendingActions atID) atID := by
      obtain ⟨a, ha, -⟩ := optionalAt_eq_true.mp ((h.optional id).mp hid)
      refine mem_idsAfter.mpr ⟨hlt, ?_⟩
      rw [Assoc.get?_erase_of_ne (Int.ne_of_lt hlt), ha]
      nofun
    have hlater (id : ActionID) (hid : id ∈ idsAfter (Assoc.erase p.pendingActions atID) atID) :
        atID < id := (mem_idsAfter.mp hid).1
    rw [h.mem_dropAt_optional, Renumber.mem_foldl_moveKeyDown
      (sorted_idsAfter (Assoc.erase_nodup hmaps.actions) atID)]
    · simp only [List.mem_filter, decide_eq_true_eq]
      unfold ActionID at *
      by_cases hk : k < atID
      · rw [if_pos hk, if_neg fun hmem => absurd (hlater _ hmem) (by omega)]
        exact ⟨fun h => h.2.1, fun hmem =>
          ⟨fun hm => absurd (hlater _ hm) (by omega), hmem, by omega⟩⟩
      · rw [if_neg hk]
        split
        · exact ⟨fun h => h.1, fun hmem => ⟨hmem, by omega⟩⟩
        · next hnot =>
          refine iff_of_false (fun hmem => hmem.1 (hids k hmem.2.1 ?_)) fun hmem => hnot (hids _ hmem ?_)
          · exact lt_of_le_of_ne (not_lt.mp hk) (Ne.symm hmem.2.2)
          · omega
    · intro id hid
      by_cases hmem : id - 1 ∈ p.optionalTimerIDs.filter (· ≠ atID)
      · obtain ⟨hmem, hne⟩ := List.mem_filter.mp hmem
        refine .inr (hids _ hmem ?_)
        have hne : id - 1 ≠ atID := of_decide_eq_true hne
        have := hlater id hid
        unfold ActionID at *
        omega
      · exact .inl hmem

theorem Maps.dropInPlace (h : p.Maps) (atID : ActionID) : (p.dropInPlace atID).Maps := by
  rw [dropInPlace_eq]
  exact ⟨Renumber.nodup_foldl_moveDown renumber (Assoc.erase_nodup h.actions) _,
    Renumber.nodup_foldl_moveDown _ (Assoc.erase_nodup h.tasks) _⟩

end Pending

namespace Machine

variable {σ : Type}

end Machine

namespace PendingIDsExample

/-- Wait for an approval, start an activity, then wait for the approval. -/
inductive Flow
  | begin
  | approved (approval : TaskRef)
  | charging (approval : TaskRef)
  | finished

def next : Flow → Step Flow
  | .begin => .call (.waitForSingleEvent "approval" (-1)) fun
    | .task t => .approved t
    | _ => .finished
  | .approved t => .call (.callActivity "charge" []) fun _ => .charging t
  | .charging t => .call (.await t none) fun _ => .finished
  | .finished => .ret (.ok .nil)

def sdk : Sdk Flow :=
  { env := SuspensionExample.env, registry := { workflows := [("wf", .begin)] }, next := next }

/-- The replay after both calls: the optional timer has id 0 and the activity id 1. -/
def scheduled : Machine Flow := (Machine.init "i" [] SuspensionExample.started).run sdk 4

end PendingIDsExample

end DurableTask.Task
