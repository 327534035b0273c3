import DurableTask.Task.Snapshot

/-!
# What a turn adds to the history

The actions of a turn are its pending actions in order, unless the workflow is suspended. Either a
completion among them ends the execution, or the events that are added record all pending work.
-/

namespace DurableTask.Task

/-! ### The actions -/

namespace Ctx

variable {c : Ctx} {a : WorkflowAction}

theorem withCarryover_frame (core : Core) (a : WorkflowAction) :
    (withCarryover core a).id = a.id ∧ (withCarryover core a).actionType.kind = a.actionType.kind ∧
      (withCarryover core a).completionStatus = a.completionStatus ∧
      (withCarryover core a).actionType.isScheduling = a.actionType.isScheduling := by
  rcases a with ⟨id, actionType, router⟩
  cases actionType with
  | completeWorkflow co =>
    unfold withCarryover
    dsimp only
    split <;> exact ⟨rfl, rfl, rfl, rfl⟩
  | _ => exact ⟨rfl, rfl, rfl, rfl⟩

theorem perm_actions (hs : c.core.isSuspended = true → c.core.isTerminated = true) :
    c.actions.Perm (((c.pend.pendingActions.map (·.2.action)).filter (!isWithheld c.pend ·)).map
      (withCarryover c.core)) := by
  have hif : (c.core.isSuspended && !c.core.isTerminated) = false := by
    cases h : c.core.isSuspended with
    | false => rfl
    | true => simp [hs h]
  unfold actions
  rw [hif]
  exact List.perm_insertionSort _ _

theorem mem_actions (h : a ∈ c.actions) :
    ∃ x ∈ c.pend.pendingActions, a = withCarryover c.core x.2.action := by
  by_cases hs : c.core.isSuspended = true → c.core.isTerminated = true
  · obtain ⟨a', ha', rfl⟩ := List.mem_map.mp ((perm_actions hs).mem_iff.mp h)
    obtain ⟨x, hx, rfl⟩ := List.mem_map.mp (List.mem_filter.mp ha').1
    exact ⟨x, hx, rfl⟩
  · rw [Classical.not_imp] at hs
    unfold actions at h
    rw [if_pos (by simpa using hs)] at h
    exact absurd h List.not_mem_nil

theorem nodup_actions (h : (c.pend.pendingActions.map (·.2.action.id)).Nodup) :
    (c.actions.map WorkflowAction.id).Nodup := by
  by_cases hs : c.core.isSuspended = true → c.core.isTerminated = true
  · have hid : WorkflowAction.id ∘ withCarryover c.core = WorkflowAction.id :=
      funext fun a => (withCarryover_frame c.core a).1
    rw [((perm_actions hs).map _).nodup_iff, List.map_map, hid]
    refine List.Nodup.sublist (List.filter_sublist.map _) ?_
    rw [List.map_map]
    exact h
  · rw [Classical.not_imp] at hs
    unfold actions
    rw [if_pos (by simpa using hs)]
    exact List.nodup_nil

/-- A pending completion is returned. -/
theorem completion_mem (hs : c.core.isSuspended = true → c.core.isTerminated = true)
    {x : ActionID × PendingAction} (hx : x ∈ c.pend.pendingActions)
    (hc : x.2.action.completionStatus.isSome = true) :
    ∃ a ∈ c.actions, a.completionStatus.isSome = true := by
  refine ⟨withCarryover c.core x.2.action, (perm_actions hs).mem_iff.mpr ?_, ?_⟩
  · refine List.mem_map_of_mem (List.mem_filter.mpr ⟨List.mem_map_of_mem hx, ?_⟩)
    unfold WorkflowAction.completionStatus at hc
    unfold isWithheld
    split at hc
    · next co hco => rw [hco]; rfl
    · cases hc
  · rw [(withCarryover_frame c.core _).2.2.1]
    exact hc

theorem actions_of_suspended (hs : c.core.isSuspended = true) (ht : c.core.isTerminated = false) :
    c.actions = [] := by
  unfold actions
  rw [hs, ht]
  rfl

variable {b b' : ActionID} {es es' : List Entry} {T T' : List (ActionID × PendingTask)}

theorem mem_entries (hn : Numbered c.pend b es T) {x : ActionID × PendingAction}
    (hx : x ∈ c.pend.pendingActions) : (x.1, x.2.entry) ∈ Number.number b es := by
  rw [← hn.actions]
  exact List.mem_map.mpr ⟨x, hx, rfl⟩

theorem entry_mem (hn : Numbered c.pend b es T) {x : ActionID × PendingAction}
    (hx : x ∈ c.pend.pendingActions) : x.2.entry ∈ es := by
  rw [← Number.map_snd_number b es]
  exact List.mem_map_of_mem (f := Prod.snd) (mem_entries hn hx)

/-- Without a completion all pending actions are returned, in the order of their ids. -/
theorem actions_of_numbered (hn : Numbered c.pend b es T) (hs : c.core.isSuspended = false)
    (hne : .completion ∉ es) :
    c.actions = c.pend.pendingActions.map (·.2.action) ∧
      ∀ a ∈ c.actions, a.actionType.isScheduling = true := by
  have hsched {a : WorkflowAction} (ha : a ∈ c.pend.pendingActions.map (·.2.action)) :
      a.actionType.isScheduling = true ∧ withCarryover c.core a = a := by
    obtain ⟨⟨key, ⟨⟨id, actionType, router⟩, task⟩⟩, hx, rfl⟩ := List.mem_map.mp ha
    have hmem := entry_mem hn hx
    have hother := hn.known _ hmem
    cases actionType with
    | scheduleTask | createTimer | createChildWorkflow | createDetachedWorkflow =>
      exact ⟨rfl, rfl⟩
    | completeWorkflow co =>
      cases task with
      | none => exact absurd hmem hne
      | some t => exact absurd rfl hother
    | _ => cases task <;> exact absurd rfl hother
  have hfilter : (c.pend.pendingActions.map (·.2.action)).filter (!isWithheld c.pend ·) =
      c.pend.pendingActions.map (·.2.action) := by
    refine List.filter_eq_self.mpr fun a _ => ?_
    have hprov : c.pend.actionIDProvisional a.id = false := by
      unfold Pending.actionIDProvisional
      simp [hn.buffered]
    unfold isWithheld
    split <;> simp [hprov]
  have hcarry : (c.pend.pendingActions.map (·.2.action)).map (withCarryover c.core) =
      c.pend.pendingActions.map (·.2.action) :=
    (List.map_congr_left fun a ha => (hsched ha).2).trans (List.map_id _)
  have hsorted : (c.pend.pendingActions.map (·.2.action)).Pairwise (·.id ≤ ·.id) := by
    have hlt := Number.sorted_number b es
    rw [← hn.keys, List.pairwise_map] at hlt
    rw [List.pairwise_map]
    refine hlt.imp_of_mem fun {x y} hx hy hxy => ?_
    rw [hn.ids x hx, hn.ids y hy]
    exact Int.le_of_lt hxy
  have heq : c.actions = c.pend.pendingActions.map (·.2.action) := by
    unfold actions
    rw [hs, hfilter, hcarry]
    exact hsorted.insertionSort_eq
  exact ⟨heq, fun a ha => (hsched (heq ▸ ha)).1⟩

end Ctx

/-! ### The events that are added -/

section Added

variable {b b' : ActionID} {es es' : List Entry} {T T₀ T' : List (ActionID × PendingTask)}
  {s s' : WorkflowRuntimeState} {added : List HistoryEvent}

/-- The ids of the actions a turn returns are distinct. -/
theorem action_ids {c : Ctx} (hnodup : (c.pend.pendingActions.map Prod.fst).Nodup)
    (hbound : ∀ x ∈ c.pend.pendingActions, b ≤ x.1)
    (hids : ∀ x ∈ c.pend.pendingActions, x.2.action.id = x.1) :
    (c.actions.map WorkflowAction.id).Nodup ∧ ∀ id ∈ c.actions.map WorkflowAction.id, b ≤ id := by
  refine ⟨Ctx.nodup_actions ?_, fun id hid => ?_⟩
  · rw [List.map_congr_left hids]
    exact hnodup
  · obtain ⟨a, ha, rfl⟩ := List.mem_map.mp hid
    obtain ⟨x, hx, rfl⟩ := Ctx.mem_actions ha
    rw [(Ctx.withCarryover_frame c.core _).1, hids x hx]
    exact hbound x hx

theorem Numbered.action_ids {c : Ctx} (hn : Numbered c.pend b es T) :
    (c.actions.map WorkflowAction.id).Nodup ∧ ∀ id ∈ c.actions.map WorkflowAction.id, b ≤ id :=
  Task.action_ids (by rw [hn.keys]; exact Number.nodup_number b es)
    (fun y hy => (hn.key_bounds hy).1) hn.ids

/-- So are those it records. -/
theorem added_ids {c : Ctx}
    (hids : (c.actions.map WorkflowAction.id).Nodup ∧ ∀ id ∈ c.actions.map WorkflowAction.id, b ≤ id)
    (happ : Applier.Applied c.actions s s' added) :
    (added.filterMap HistoryEvent.schedulingID).Nodup ∧
      ∀ id ∈ added.filterMap HistoryEvent.schedulingID, b ≤ id := by
  have hsub : (added.filterMap HistoryEvent.schedulingID).Sublist
      (c.actions.map WorkflowAction.id) := happ.scheduling.trans (List.filter_sublist.map _)
  exact ⟨List.Nodup.sublist hsub hids.1, fun id hid => hids.2 id (hsub.subset hid)⟩

theorem Records.lt (h : Records b es T added b' es' T') :
    b ≤ b' ∧ ∀ id ∈ added.filterMap HistoryEvent.schedulingID, id < b' := by
  induction h with
  | nil => exact ⟨Int.le_refl _, fun _ hid => absurd hid List.not_mem_nil⟩
  | cons optional id recorded strict rest ih =>
    next b b' _ _ _ x _ _ e _ =>
    obtain ⟨hle, hlt⟩ := ih
    have hb : b < b' := Int.lt_of_lt_of_le (Int.lt_add_one_of_le (Int.le_refl b)) hle
    have hsched : e.schedulingID = some e.eventId := by
      rcases e with ⟨eventId, timestamp, body, router, row⟩
      cases body <;> first | rfl | (cases x <;> cases recorded)
    refine ⟨Int.le_of_lt hb, ?_⟩
    rw [List.filterMap_cons_some hsched, id]
    intro i hi
    rcases List.mem_cons.mp hi with rfl | hi
    · exact hb
    · exact hlt i hi

variable {σ : Type} {m : Machine σ}

/-- A turn ends the execution, or its pending work is recorded. -/
theorem Machine.Finished.outcome (hm : m.Finished b T₀ T) (hn : Numbered m.ctx.pend b es T)
    (happ : Applier.Applied m.ctx.actions s s' added) (hdis : s.dispatched = []) :
    s'.completedEvent.isSome = true ∨ ∃ b' es' T', Records b es T added b' es' T' ∧
      (m.ctx.core.isSuspended = true → added = []) ∧
      ∀ k ∈ s'.dispatched, ∃ t, (k.2, ⟨k.1, t⟩) ∈ T' := by
  cases hs : m.ctx.core.isSuspended with
  | true =>
    have hnil := Ctx.actions_of_suspended hs hm.turn.terminated
    rw [hnil] at happ
    cases happ.scheduled (fun a ha => absurd ha List.not_mem_nil)
    refine .inr ⟨b, es, T, .nil b es T, fun _ => rfl, fun k hk => ?_⟩
    rcases happ.dispatched k hk with hk | ⟨a, ha, -⟩
    · rw [hdis] at hk
      exact absurd hk List.not_mem_nil
    · exact absurd ha List.not_mem_nil
  | false =>
    by_cases hc : Entry.completion ∈ es
    · left
      rw [← Number.map_snd_number b es, ← hn.actions, List.map_map] at hc
      obtain ⟨x, hx, hentry⟩ := List.mem_map.mp hc
      refine happ.completed (Ctx.completion_mem (by rw [hs]; exact nofun) hx ?_)
      rcases x with ⟨key, ⟨⟨id, actionType, router⟩, task⟩⟩
      cases actionType <;> cases task <;> first | rfl | cases hentry
    · right
      obtain ⟨hactions, hsched⟩ := Ctx.actions_of_numbered hn hs hc
      refine ⟨_, _, _, records_of_actions hn.actions hn.ids hn.known
        (hactions ▸ happ.scheduled hsched), nofun, fun k hk => ?_⟩
      rcases happ.dispatched k hk with hk | ⟨a, ha, hid, hkind⟩
      · rw [hdis] at hk
        exact absurd hk List.not_mem_nil
      · rw [hactions] at ha
        obtain ⟨x, hx, rfl⟩ := List.mem_map.mp ha
        have hmem := Ctx.mem_entries hn hx
        have hother := hn.known _ (Ctx.entry_mem hn hx)
        rw [← hn.ids x hx, hid] at hmem
        obtain ⟨t, ht⟩ : ∃ t, Entry.pendingTask (k.2, x.2.entry) = some (k.2, ⟨k.1, t⟩) := by
          rcases x with ⟨key, ⟨⟨id, actionType, router⟩, task⟩⟩
          cases actionType <;> cases task <;>
            first
              | cases hkind
              | exact absurd rfl hother
              | exact ⟨_, by rw [← Option.some.inj hkind]; rfl⟩
        exact ⟨t, List.mem_append_right _ (List.mem_filterMap.mpr ⟨_, hmem, ht⟩)⟩

end Added

end DurableTask.Task
