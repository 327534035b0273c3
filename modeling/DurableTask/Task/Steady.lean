import DurableTask.Task.Delivery
import DurableTask.Task.Moves

/-!
# Contexts without external-event waits

Where no external event is waited for, there are no optional timers and no callbacks, and delivering a
resolution touches only its own task and action. Such deliveries commute with each other and with the
calls that schedule work, up to the order in which resolutions are noted (`Ctx.Same`).
-/

namespace DurableTask.Task

/-! ### Tasks -/

theorem Core.resolve_of_none {c : Core} {t : Nat} (h : (c.task t).completedCallback = none)
    (e : HistoryEvent) : c.resolve t e = c.modifyTask t (·.resolvedBy e) := by
  rw [resolve_eq, h]

theorem Core.modifyTask_comm (c : Core) {t t' : Nat} (h : t ≠ t')
    (f g : CompletableTask → CompletableTask) :
    (c.modifyTask t f).modifyTask t' g = (c.modifyTask t' g).modifyTask t f := by
  unfold modifyTask
  dsimp only
  rw [List.modify_modify_ne _ _ _ h]

theorem modify_append_left {α : Type} {l : List α} {i : Nat} (h : i < l.length) (l' : List α)
    (f : α → α) : (l ++ l').modify i f = l.modify i f ++ l' := by
  rw [List.modify_eq_take_cons_drop h, List.modify_eq_take_cons_drop (by simp; omega),
    List.take_append_of_le_length (by omega), List.drop_append_of_le_length (by omega),
    List.getElem_append_left h]
  simp

theorem modify_append_last {α : Type} (l : List α) (x : α) (f : α → α) :
    (l ++ [x]).modify l.length f = l ++ [f x] := by
  induction l with
  | nil => rfl
  | cons y l ih => simp [ih]

theorem Core.modifyTask_newTask (c : Core) {t : Nat} (h : t < c.tasks.length)
    (f : CompletableTask → CompletableTask) :
    c.newTask.1.modifyTask t f = (c.modifyTask t f).newTask.1 := by
  unfold modifyTask newTask
  dsimp only
  rw [modify_append_left h]

/-! ### Contexts that differ in the order of resolutions -/

namespace Ctx

/-- The context with other notes of what was resolved and what is buffered. -/
def knowing (c : Ctx) (buffered : List ((Kind × ActionID) × HistoryEvent))
    (resolved : List (Kind × ActionID)) : Ctx :=
  { c with pend := { c.pend with bufferedResolutions := buffered, resolvedResolutions := resolved } }

/-- Contexts that are the same but for the order in which resolutions are noted. -/
def Same (c c' : Ctx) : Prop :=
  ∃ buffered resolved, c' = c.knowing buffered resolved ∧
    (∀ k, Assoc.get? buffered k = Assoc.get? c.pend.bufferedResolutions k) ∧
    ∀ k, k ∈ resolved ↔ k ∈ c.pend.resolvedResolutions

theorem Same.refl (c : Ctx) : Same c c := ⟨_, _, rfl, fun _ => rfl, fun _ => Iff.rfl⟩

theorem Same.symm {c c' : Ctx} (h : Same c c') : Same c' c := by
  obtain ⟨buffered, resolved, rfl, hbuf, hres⟩ := h
  exact ⟨_, _, rfl, fun k => (hbuf k).symm, fun k => (hres k).symm⟩

theorem Same.trans {c c' c'' : Ctx} (h : Same c c') (h' : Same c' c'') : Same c c'' := by
  obtain ⟨buffered, resolved, rfl, hbuf, hres⟩ := h
  obtain ⟨buffered', resolved', rfl, hbuf', hres'⟩ := h'
  exact ⟨_, _, rfl, fun k => (hbuf' k).trans (hbuf k), fun k => (hres' k).trans (hres k)⟩

theorem Same.core {c c' : Ctx} (h : Same c c') : c'.core = c.core := by
  obtain ⟨_, _, rfl, -⟩ := h
  rfl

/-- An update that leaves the notes alone. -/
theorem Same.map {c c' : Ctx} (h : Same c c') {u : Ctx → Ctx}
    (hu : ∀ buffered resolved, u (c.knowing buffered resolved) = (u c).knowing buffered resolved)
    (hbuf : (u c).pend.bufferedResolutions = c.pend.bufferedResolutions)
    (hres : (u c).pend.resolvedResolutions = c.pend.resolvedResolutions) : Same (u c) (u c') := by
  obtain ⟨buffered, resolved, rfl, hb, hr⟩ := h
  exact ⟨buffered, resolved, hu _ _, hbuf ▸ hb, hres ▸ hr⟩

theorem Same.onResolution {c c' : Ctx} (h : Same c c') (k : Kind × ActionID) (e : HistoryEvent) :
    Same (c.onResolution k e) (c'.onResolution k e) := by
  obtain ⟨buffered, resolved, rfl, hbuf, hres⟩ := h
  have hdel : (c.knowing buffered resolved).pend.deliverable k = c.pend.deliverable k := rfl
  unfold Ctx.onResolution
  rw [hdel]
  cases c.pend.deliverable k with
  | none =>
    have hknown : (k ∈ resolved ∨ (Assoc.get? buffered k).isSome = true) ↔
        (k ∈ c.pend.resolvedResolutions ∨ (Assoc.get? c.pend.bufferedResolutions k).isSome = true) := by
      rw [hbuf, hres]
    dsimp only [Pending.bufferResolution, knowing]
    by_cases hk : k ∈ c.pend.resolvedResolutions ∨ (Assoc.get? c.pend.bufferedResolutions k).isSome
    · rw [if_pos hk, if_pos (hknown.mpr hk)]
      exact ⟨buffered, resolved, rfl, hbuf, hres⟩
    · rw [if_neg hk, if_neg (hknown.not.mpr hk)]
      refine ⟨Assoc.insert buffered k e, resolved, rfl, fun k' => ?_, hres⟩
      by_cases hkk : k = k'
      · subst hkk
        simp only [Assoc.get?_insert_self]
      · simp only [Assoc.get?_insert_of_ne hkk, hbuf]
  | some t =>
    dsimp only
    rw [Pending.resolve_eq, Pending.resolve_eq]
    refine ⟨buffered, resolved ++ [k], ?_, hbuf, fun k' => ?_⟩
    · unfold Pending.restored
      cases Pending.recordedExecutionID e <;> rfl
    · rw [List.mem_append, List.mem_append, hres]

/-! ### Steady contexts -/

/-- No external event is waited for, and pending tasks are distinct and not completed. -/
structure Steady (c : Ctx) : Prop where
  waits : c.core.pendingExternalEventTasks = []
  callbacks : ∀ t ∈ c.core.tasks, t.completedCallback = none
  optional : c.pend.optionalTimerIDs = []
  actions : ∀ x ∈ c.pend.pendingActions, isOptionalExternalEventTimerAction x.2.action = false
  keys : (c.pend.pendingTasks.map Prod.fst).Nodup
  refs : (c.pend.pendingTasks.map (·.2.task)).Nodup
  tasks : ∀ x ∈ c.pend.pendingTasks, x.1 < c.pend.sequenceNumber ∧
    ∃ t, c.core.tasks[x.2.task]? = some t ∧ t.isCompleted = false
  resolved : ∀ k ∈ c.pend.resolvedResolutions, k.2 < c.pend.sequenceNumber

variable {c : Ctx} {k k' : Kind × ActionID} {t t' : Nat}

theorem Steady.callback (hc : c.Steady) (t : Nat) : (c.core.task t).completedCallback = none := by
  unfold Core.task
  rw [List.getD_eq_getElem?_getD]
  cases ht : c.core.tasks[t]? with
  | none => rfl
  | some x => exact hc.callbacks x (List.mem_of_getElem? ht)

theorem Steady.deliverable_iff (hc : c.Steady) :
    c.pend.deliverable k = some t ↔ Assoc.get? c.pend.pendingTasks k.2 = some ⟨k.1, t⟩ := by
  refine ⟨fun h => (Pending.mem_of_deliverable h).1, fun h => ?_⟩
  unfold Pending.deliverable Pending.resolutionIDProvisional
  rw [h, hc.optional]
  simp

/-- The buffered resolutions after one that cannot be delivered. -/
def heard (p : Pending) (k : Kind × ActionID) (e : HistoryEvent) :
    List ((Kind × ActionID) × HistoryEvent) :=
  if k ∈ p.resolvedResolutions ∨ (Assoc.get? p.bufferedResolutions k).isSome then p.bufferedResolutions
  else Assoc.insert p.bufferedResolutions k e

theorem onResolution_of_none (h : c.pend.deliverable k = none) (e : HistoryEvent) :
    c.onResolution k e = c.knowing (heard c.pend k e) c.pend.resolvedResolutions := by
  unfold onResolution Pending.bufferResolution heard
  rw [h]
  dsimp only
  split <;> rfl

theorem Steady.onResolution_of_some (hc : c.Steady) (h : c.pend.deliverable k = some t)
    (e : HistoryEvent) :
    c.onResolution k e =
      { c with core := c.core.modifyTask t (·.resolvedBy e), pend := c.pend.resolve k e } := by
  unfold onResolution
  rw [h]
  dsimp only
  rw [Core.resolve_of_none (hc.callback t)]

/-- A delivery changes no more of the state of the workflow than one task. -/
theorem Steady.core_onResolution (hc : c.Steady) (k : Kind × ActionID) (e : HistoryEvent) :
    ∃ tasks, (c.onResolution k e).core = { c.core with tasks := tasks } ∧
      tasks.length = c.core.tasks.length := by
  cases hdel : c.pend.deliverable k with
  | none =>
    rw [onResolution_of_none hdel]
    exact ⟨c.core.tasks, rfl, rfl⟩
  | some t =>
    rw [hc.onResolution_of_some hdel]
    exact ⟨_, rfl, List.length_modify ..⟩

theorem deliverable_resolve_of_ne {p : Pending} (h : k.2 ≠ k'.2) (e : HistoryEvent) :
    (p.resolve k e).deliverable k' = p.deliverable k' := by
  rw [Pending.resolve_eq]
  unfold Pending.deliverable
  dsimp only
  rw [Assoc.get?_erase_of_ne h]
  rfl

theorem deliverable_resolve_self {p : Pending} (h : k.2 = k'.2) (e : HistoryEvent) :
    (p.resolve k e).deliverable k' = none := by
  rw [Pending.resolve_eq]
  unfold Pending.deliverable
  dsimp only
  rw [h, Assoc.get?_erase_self]

theorem Steady.ne_of_deliverable (hc : c.Steady) (hk : k ≠ k') (h : c.pend.deliverable k = some t)
    (h' : c.pend.deliverable k' = some t') : k.2 ≠ k'.2 ∧ t ≠ t' := by
  rw [hc.deliverable_iff] at h h'
  have hid : k.2 ≠ k'.2 := by
    intro hid
    rw [hid, h'] at h
    exact hk (Prod.ext (congrArg PendingTask.kind (Option.some.inj h)).symm hid)
  refine ⟨hid, ?_⟩
  rintro rfl
  have hsame := List.inj_on_of_nodup_map hc.refs (Assoc.mem_of_get? h) (Assoc.mem_of_get? h') rfl
  exact hid (congrArg Prod.fst hsame)

theorem resolve_resolve (p : Pending) (h : k.2 ≠ k'.2) (e e' : HistoryEvent) :
    (p.resolve k e).resolve k' e' =
      { (p.resolve k' e').resolve k e with
        resolvedResolutions := p.resolvedResolutions ++ [k] ++ [k'] } := by
  simp only [Pending.resolve_eq, Pending.restored, Pending.restoreActivityScheduleIdentity]
  cases Pending.recordedExecutionID e <;> cases Pending.recordedExecutionID e' <;>
    simp only [Assoc.erase_comm _ k.2 k'.2, Assoc.modify_comm _ h]

theorem Steady.knowing (hc : c.Steady) {buffered : List ((Kind × ActionID) × HistoryEvent)}
    {resolved : List (Kind × ActionID)} (hres : ∀ k ∈ resolved, k.2 < c.pend.sequenceNumber) :
    (c.knowing buffered resolved).Steady :=
  ⟨hc.waits, hc.callbacks, hc.optional, hc.actions, hc.keys, hc.refs, hc.tasks, hres⟩

theorem Steady.same {c' : Ctx} (hc : c.Steady) (h : Same c c') : c'.Steady := by
  obtain ⟨buffered, resolved, rfl, -, hres⟩ := h
  exact hc.knowing fun k hk => hc.resolved k ((hres k).mp hk)

theorem Steady.onResolution (hc : c.Steady) (k : Kind × ActionID) (e : HistoryEvent) :
    (c.onResolution k e).Steady := by
  cases hdel : c.pend.deliverable k with
  | none =>
    rw [onResolution_of_none hdel]
    exact hc.knowing hc.resolved
  | some t =>
    have hget := hc.deliverable_iff.mp hdel
    rw [hc.onResolution_of_some hdel, Pending.resolve_eq]
    refine ⟨hc.waits, fun x hx => ?_, hc.optional, fun x hx => ?_, Assoc.erase_nodup hc.keys,
      hc.refs.sublist (List.filter_sublist.map _), fun x hx => ?_, fun k' hk' => ?_⟩
    · obtain ⟨i, hi⟩ := List.mem_iff_getElem?.mp hx
      rw [show (c.core.modifyTask t (·.resolvedBy e)).tasks = c.core.tasks.modify t (·.resolvedBy e) from rfl,
        List.getElem?_modify] at hi
      obtain ⟨y, hy, rfl⟩ := Option.map_eq_some_iff.mp hi
      have hnone := hc.callbacks y (List.mem_of_getElem? hy)
      split
      · exact (CompletableTask.completedCallback_resolvedBy e y).trans hnone
      · exact hnone
    · obtain ⟨y, hy, -, -, hopt⟩ := Pending.covered_restored c.pend k e x hx
      refine Bool.eq_false_iff.mpr fun hx => ?_
      rw [hc.actions y hy] at hopt
      exact absurd (hopt hx) Bool.false_ne_true
    · obtain ⟨hmem, hne⟩ := Assoc.mem_erase.mp hx
      obtain ⟨hlt, y, hy, hrunning⟩ := hc.tasks x hmem
      refine ⟨hlt, y, ?_, hrunning⟩
      have hother : t ≠ x.2.task := by
        intro ht
        exact hne (congrArg Prod.fst
          (List.inj_on_of_nodup_map hc.refs hmem (Assoc.mem_of_get? hget) ht.symm))
      exact (List.getElem?_modify_ne _ _ hother).trans hy
    · rcases List.mem_append.mp hk' with hk' | hk'
      · exact hc.resolved k' hk'
      · rw [List.mem_singleton.mp hk']
        exact (hc.tasks _ (Assoc.mem_of_get? hget)).1

theorem get?_heard (p : Pending) (k k' : Kind × ActionID) (e : HistoryEvent) :
    Assoc.get? (heard p k e) k' =
      if k = k' ∧ ¬(k ∈ p.resolvedResolutions ∨ (Assoc.get? p.bufferedResolutions k).isSome) then some e
      else Assoc.get? p.bufferedResolutions k' := by
  unfold heard
  split
  · next hnoted => rw [if_neg fun h => h.2 hnoted]
  · next hnoted =>
    by_cases hk : k = k'
    · rw [if_pos ⟨hk, hnoted⟩, ← hk, Assoc.get?_insert_self]
    · rw [if_neg fun h => hk h.1, Assoc.get?_insert_of_ne hk]

theorem get?_heard_heard (p : Pending) (hk : k ≠ k') (e e' : HistoryEvent) (x : Kind × ActionID) :
    Assoc.get? (heard { p with bufferedResolutions := heard p k e } k' e') x =
      if k' = x ∧ ¬(k' ∈ p.resolvedResolutions ∨ (Assoc.get? p.bufferedResolutions k').isSome) then some e'
      else Assoc.get? (heard p k e) x := by
  have hother : Assoc.get? (heard p k e) k' = Assoc.get? p.bufferedResolutions k' := by
    rw [get?_heard, if_neg fun h => hk h.1]
  rw [get?_heard]
  dsimp only
  rw [hother]

theorem restored_insert (p : Pending) {id : ActionID} (h : k.2 ≠ id) (a : PendingAction)
    (e : HistoryEvent) {q : Pending} (hq : q.pendingActions = Assoc.insert p.pendingActions id a) :
    q.restored k e = Assoc.insert (p.restored k e) id a := by
  unfold Pending.restored Pending.restoreActivityScheduleIdentity
  dsimp only
  rw [hq]
  cases Pending.recordedExecutionID e with
  | none => rfl
  | some executionID => exact (Assoc.insert_modify _ h _ _).symm

/-- Deliveries of different resolutions commute. -/
theorem Steady.onResolution_comm (hc : c.Steady) (hk : k ≠ k') (e e' : HistoryEvent) :
    Same ((c.onResolution k e).onResolution k' e') ((c.onResolution k' e').onResolution k e) := by
  -- One is delivered and the other one buffered.
  have hmixed {k k' : Kind × ActionID} {t : Nat} {e e' : HistoryEvent} (hk : k ≠ k')
      (h : c.pend.deliverable k = some t) (h' : c.pend.deliverable k' = none) :
      (c.onResolution k e).onResolution k' e' = (c.onResolution k' e').onResolution k e := by
    have hlate : (c.onResolution k e).pend.deliverable k' = none := by
      rw [hc.onResolution_of_some h]
      by_cases hid : k.2 = k'.2
      · exact deliverable_resolve_self hid e
      · exact (deliverable_resolve_of_ne hid e).trans h'
    have hsoon : (c.onResolution k' e').pend.deliverable k = some t := by
      rw [onResolution_of_none h']
      exact h
    have hheard : heard (c.pend.resolve k e) k' e' = heard c.pend k' e' := by
      have hnoted : k' ∈ c.pend.resolvedResolutions ++ [k] ↔ k' ∈ c.pend.resolvedResolutions := by
        simp [Ne.symm hk]
      simp only [Pending.resolve_eq, heard, hnoted]
    rw [onResolution_of_none hlate, hc.onResolution_of_some h,
      (hc.onResolution k' e').onResolution_of_some hsoon, onResolution_of_none h']
    dsimp only [Ctx.knowing]
    rw [hheard]
    simp only [Pending.resolve_eq]
    rfl
  cases h : c.pend.deliverable k with
  | some t =>
    cases h' : c.pend.deliverable k' with
    | none => rw [hmixed hk h h']; exact .refl _
    | some t' =>
      obtain ⟨hid, ht⟩ := hc.ne_of_deliverable hk h h'
      have hsoon : (c.onResolution k e).pend.deliverable k' = some t' := by
        rw [hc.onResolution_of_some h]
        exact (deliverable_resolve_of_ne hid e).trans h'
      have hsoon' : (c.onResolution k' e').pend.deliverable k = some t := by
        rw [hc.onResolution_of_some h']
        exact (deliverable_resolve_of_ne hid.symm e').trans h
      rw [(hc.onResolution k e).onResolution_of_some hsoon, hc.onResolution_of_some h,
        (hc.onResolution k' e').onResolution_of_some hsoon', hc.onResolution_of_some h']
      dsimp only
      rw [Core.modifyTask_comm _ ht, resolve_resolve _ hid]
      refine ⟨((c.pend.resolve k' e').resolve k e).bufferedResolutions,
        ((c.pend.resolve k' e').resolve k e).resolvedResolutions, rfl, fun _ => rfl, fun x => ?_⟩
      simp only [Pending.resolve_eq, List.mem_append, List.mem_singleton]
      exact or_right_comm
  | none =>
    cases h' : c.pend.deliverable k' with
    | some t' => rw [hmixed (Ne.symm hk) h' h]; exact .refl _
    | none =>
      have hlate : (c.onResolution k e).pend.deliverable k' = none := by
        rw [onResolution_of_none h]
        exact h'
      have hlate' : (c.onResolution k' e').pend.deliverable k = none := by
        rw [onResolution_of_none h']
        exact h
      rw [onResolution_of_none hlate, onResolution_of_none h, onResolution_of_none hlate',
        onResolution_of_none h']
      refine ⟨_, _, rfl, fun x => ?_, fun _ => Iff.rfl⟩
      show Assoc.get? (heard { c.pend with bufferedResolutions := heard c.pend k' e' } k e) x =
        Assoc.get? (heard { c.pend with bufferedResolutions := heard c.pend k e } k' e') x
      rw [get?_heard_heard _ hk, get?_heard_heard _ (Ne.symm hk), get?_heard, get?_heard]
      split <;> split <;> simp_all

/-! ### Updates that commute with deliveries -/

/-- An update with a result for which it does not matter whether a resolution is delivered before or
after it. -/
structure Independent {β : Type} (u : Ctx → Ctx × β) : Prop where
  steady : ∀ {c}, c.Steady → (u c).1.Steady
  suspension : ∀ c, (u c).1.core.suspension = c.core.suspension
  congr : ∀ {c c'}, Same c c' → Same (u c).1 (u c').1 ∧ (u c').2 = (u c).2
  comm : ∀ {c} k e, c.Steady → Same ((u c).1.onResolution k e) (u (c.onResolution k e)).1 ∧
    (u (c.onResolution k e)).2 = (u c).2

namespace Independent

variable {β γ : Type}

/-- One update after the other, the second with the result of the first. -/
theorem bind {u : Ctx → Ctx × β} {v : β → Ctx → Ctx × γ} (hu : Independent u)
    (hv : ∀ b, Independent (v b)) : Independent fun c => v (u c).2 (u c).1 where
  steady hc := (hv _).steady (hu.steady hc)
  suspension c := ((hv _).suspension _).trans (hu.suspension c)
  congr {c c'} h := by
    obtain ⟨hsame, hres⟩ := hu.congr h
    rw [hres]
    exact (hv _).congr hsame
  comm {c} k e hc := by
    obtain ⟨hsame, hres⟩ := hu.comm k e hc
    obtain ⟨hsame', hres'⟩ := (hv (u c).2).comm k e (hu.steady hc)
    obtain ⟨hsame'', hres''⟩ := (hv (u c).2).congr hsame
    rw [hres]
    exact ⟨hsame'.trans hsame'', hres''.trans hres'⟩

theorem map {u : Ctx → Ctx × β} (hu : Independent u) (f : β → γ) :
    Independent fun c => ((u c).1, f (u c).2) :=
  ⟨hu.steady, hu.suspension, fun h => ⟨(hu.congr h).1, congrArg f (hu.congr h).2⟩,
    fun k e hc => ⟨(hu.comm k e hc).1, congrArg f (hu.comm k e hc).2⟩⟩

/-- Reading of the context what no delivery changes. -/
theorem read (g : Core → Ident → β)
    (hg : ∀ core tasks ident, g { core with tasks := tasks } ident = g core ident) :
    Independent fun c => (c, g c.core c.ident) where
  steady hc := hc
  suspension _ := rfl
  congr {c c'} h := by
    obtain ⟨buffered, resolved, rfl, hknown⟩ := h
    exact ⟨⟨buffered, resolved, rfl, hknown⟩, rfl⟩
  comm {c} k e hc := by
    obtain ⟨tasks, hcore, -⟩ := hc.core_onResolution k e
    have hident : (c.onResolution k e).ident = c.ident := by
      unfold onResolution
      split <;> rfl
    refine ⟨.refl _, ?_⟩
    dsimp only
    rw [hcore, hident]
    exact hg c.core tasks c.ident

/-- An update of the generated names and of fields of the state that have nothing to do with tasks. -/
theorem update (φ : Core → Core) (ψ : Ident → Ident)
    (hφ : ∀ core tasks, φ { core with tasks := tasks } = { φ core with tasks := tasks })
    (hwaits : ∀ core, (φ core).pendingExternalEventTasks = core.pendingExternalEventTasks)
    (hsusp : ∀ core, (φ core).suspension = core.suspension) :
    Independent fun c => ({ c with core := φ c.core, ident := ψ c.ident }, ()) := by
  have htasks (core : Core) : (φ core).tasks = core.tasks := by
    have h := congrArg Core.tasks (hφ core core.tasks)
    exact h
  have hsteady {c : Ctx} (hc : c.Steady) : ({ c with core := φ c.core, ident := ψ c.ident } : Ctx).Steady := by
    refine ⟨(hwaits c.core).trans hc.waits, ?_, hc.optional, hc.actions, hc.keys, hc.refs, ?_,
      hc.resolved⟩
    · dsimp only
      rw [htasks]
      exact hc.callbacks
    · dsimp only
      rw [htasks]
      exact hc.tasks
  refine ⟨hsteady, fun c => hsusp c.core, fun {c c'} h => ?_, fun {c} k e hc => ⟨?_, rfl⟩⟩
  · obtain ⟨buffered, resolved, rfl, hknown⟩ := h
    exact ⟨⟨buffered, resolved, rfl, hknown⟩, rfl⟩
  · have hpend : ({ c with core := φ c.core, ident := ψ c.ident } : Ctx).pend.deliverable k =
        c.pend.deliverable k := rfl
    cases hdel : c.pend.deliverable k with
    | none =>
      rw [onResolution_of_none hdel, onResolution_of_none (hpend.trans hdel)]
      exact .refl _
    | some t =>
      have hcore : φ (c.core.modifyTask t (·.resolvedBy e)) = (φ c.core).modifyTask t (·.resolvedBy e) := by
        unfold Core.modifyTask
        rw [hφ, htasks]
      rw [hc.onResolution_of_some hdel, (hsteady hc).onResolution_of_some (hpend.trans hdel)]
      dsimp only
      rw [hcore]
      exact .refl _

/-- A new task that nothing is scheduled for. -/
theorem appendTask {x : CompletableTask} (hx : x.completedCallback = none) :
    Independent fun c => ({ c with core := { c.core with tasks := c.core.tasks ++ [x] } },
      c.core.tasks.length) := by
  have hsteady {c : Ctx} (hc : c.Steady) :
      ({ c with core := { c.core with tasks := c.core.tasks ++ [x] } } : Ctx).Steady := by
    refine ⟨hc.waits, fun y hy => ?_, hc.optional, hc.actions, hc.keys, hc.refs, fun y hy => ?_,
      hc.resolved⟩
    · rcases List.mem_append.mp hy with hy | hy
      · exact hc.callbacks y hy
      · exact List.mem_singleton.mp hy ▸ hx
    · obtain ⟨hlt, t, ht, hrunning⟩ := hc.tasks y hy
      exact ⟨hlt, t, (List.getElem?_append_left (List.getElem?_eq_some_iff.mp ht).1).trans ht, hrunning⟩
  refine ⟨hsteady, fun _ => rfl, fun {c c'} h => ?_, fun {c} k e hc => ?_⟩
  · obtain ⟨buffered, resolved, rfl, hknown⟩ := h
    exact ⟨⟨buffered, resolved, rfl, hknown⟩, rfl⟩
  · have hpend : ({ c with core := { c.core with tasks := c.core.tasks ++ [x] } } : Ctx).pend.deliverable k =
        c.pend.deliverable k := rfl
    cases hdel : c.pend.deliverable k with
    | none =>
      rw [onResolution_of_none hdel, onResolution_of_none (hpend.trans hdel)]
      exact ⟨.refl _, rfl⟩
    | some t =>
      have hlt : t < c.core.tasks.length := by
        obtain ⟨-, y, hy, -⟩ := hc.tasks _ (Assoc.mem_of_get? (hc.deliverable_iff.mp hdel))
        exact (List.getElem?_eq_some_iff.mp hy).1
      rw [hc.onResolution_of_some hdel, (hsteady hc).onResolution_of_some (hpend.trans hdel)]
      dsimp only [Core.modifyTask]
      rw [modify_append_left hlt, List.length_modify]
      exact ⟨.refl _, rfl⟩

/-- A new task that has failed already. -/
theorem failedTask (fd : TaskFailureDetails) : Independent fun c => c.failedTask fd := by
  have heq (c : Ctx) : c.failedTask fd = ({ c with core := { c.core with
      tasks := c.core.tasks ++ [{ failureDetails := some fd, isCompleted := true }] } },
      .completable c.core.tasks.length) := by
    unfold Ctx.failedTask Core.failedTask
    dsimp only
    rw [show c.core.newTask.2 = c.core.tasks.length from rfl,
      Core.fail_of_none _ _ (by rw [Core.task_newTask_self])]
    dsimp only [Core.newTask, Core.modifyTask]
    rw [modify_append_last]
    rfl
  rw [funext heq]
  exact (appendTask (x := { failureDetails := some fd, isCompleted := true }) rfl).map TaskRef.completable

/-- An action without a task. -/
theorem addAction (actionType : WorkflowActionType) (router : Option TaskRouter)
    (hopt : ∀ id, isOptionalExternalEventTimerAction ⟨id, actionType, router⟩ = false) :
    Independent fun c => ({ c with pend := (c.pend.addAction actionType router none).1 }, ()) := by
  have hsteady {c : Ctx} (hc : c.Steady) :
      ({ c with pend := (c.pend.addAction actionType router none).1 } : Ctx).Steady := by
    refine ⟨hc.waits, hc.callbacks, hc.optional, fun x hx => ?_, hc.keys, hc.refs, fun x hx => ?_,
      fun k hk => ?_⟩
    · rcases Assoc.mem_insert.mp hx with ⟨hx, -⟩ | rfl
      · exact hc.actions x hx
      · exact hopt _
    · exact ⟨Int.lt_add_one_of_le (Int.le_of_lt (hc.tasks x hx).1), (hc.tasks x hx).2⟩
    · exact Int.lt_add_one_of_le (Int.le_of_lt (hc.resolved k hk))
  refine ⟨hsteady, fun _ => rfl, fun {c c'} h => ?_, fun {c} k e hc => ⟨?_, rfl⟩⟩
  · obtain ⟨buffered, resolved, rfl, hknown⟩ := h
    exact ⟨⟨buffered, resolved, rfl, hknown⟩, rfl⟩
  · have hpend : ({ c with pend := (c.pend.addAction actionType router none).1 } : Ctx).pend.deliverable k =
        c.pend.deliverable k := rfl
    cases hdel : c.pend.deliverable k with
    | none =>
      rw [onResolution_of_none hdel, onResolution_of_none (hpend.trans hdel)]
      exact .refl _
    | some t =>
      have hne : k.2 ≠ c.pend.sequenceNumber :=
        Int.ne_of_lt (hc.tasks _ (Assoc.mem_of_get? (hc.deliverable_iff.mp hdel))).1
      rw [hc.onResolution_of_some hdel, (hsteady hc).onResolution_of_some (hpend.trans hdel)]
      simp only [Pending.addAction, Pending.resolve_eq]
      rw [restored_insert c.pend hne _ e rfl]
      exact .refl _

/-! ### Scheduling work -/

end Independent

/-- The context without a buffered resolution. -/
def forget (c : Ctx) (k : Kind × ActionID) : Ctx :=
  c.knowing (Assoc.erase c.pend.bufferedResolutions k) c.pend.resolvedResolutions

theorem Steady.forget (hc : c.Steady) (k : Kind × ActionID) : (c.forget k).Steady := hc.knowing hc.resolved

theorem Steady.consume_eq (hc : c.Steady) (k : Kind × ActionID) :
    c.consumeBufferedResolution k = match Assoc.get? c.pend.bufferedResolutions k with
      | none => c
      | some e => (c.forget k).onResolution k e := by
  have hfinal : c.pend.resolutionIDProvisional k.2 = false := by
    unfold Pending.resolutionIDProvisional
    rw [hc.optional]
    rfl
  unfold consumeBufferedResolution
  rw [hfinal]
  rfl

theorem Steady.consume (hc : c.Steady) (k : Kind × ActionID) : (c.consumeBufferedResolution k).Steady := by
  rw [hc.consume_eq]
  split
  · exact hc
  · exact (hc.forget k).onResolution k _

theorem Same.forget {c c' : Ctx} (h : Same c c') (k : Kind × ActionID) : Same (c.forget k) (c'.forget k) := by
  obtain ⟨buffered, resolved, rfl, hbuf, hres⟩ := h
  refine ⟨_, _, rfl, fun x => ?_, hres⟩
  show Assoc.get? (Assoc.erase buffered k) x = Assoc.get? (Assoc.erase c.pend.bufferedResolutions k) x
  by_cases hx : k = x
  · rw [hx, Assoc.get?_erase_self, Assoc.get?_erase_self]
  · rw [Assoc.get?_erase_of_ne hx, Assoc.get?_erase_of_ne hx, hbuf]

theorem Same.consume {c c' : Ctx} (h : Same c c') (k : Kind × ActionID) :
    Same (c.consumeBufferedResolution k) (c'.consumeBufferedResolution k) := by
  have hforget := h.forget k
  obtain ⟨buffered, resolved, rfl, hbuf, hres⟩ := h
  have hget : Assoc.get? (c.knowing buffered resolved).pend.bufferedResolutions k =
      Assoc.get? c.pend.bufferedResolutions k := hbuf k
  have hprov : (c.knowing buffered resolved).pend.resolutionIDProvisional k.2 =
      c.pend.resolutionIDProvisional k.2 := rfl
  unfold consumeBufferedResolution
  rw [hget, hprov]
  split
  · exact ⟨buffered, resolved, rfl, hbuf, hres⟩
  · split
    · exact ⟨buffered, resolved, rfl, hbuf, hres⟩
    · exact hforget.onResolution k _

/-- Forgetting one resolution and delivering another one. -/
theorem Steady.forget_comm (hc : c.Steady) (hk : k ≠ k') (e : HistoryEvent) :
    Same ((c.onResolution k e).forget k') ((c.forget k').onResolution k e) := by
  have hpend : (c.forget k').pend.deliverable k = c.pend.deliverable k := rfl
  cases hdel : c.pend.deliverable k with
  | some t =>
    rw [hc.onResolution_of_some hdel, (hc.forget k').onResolution_of_some (hpend.trans hdel)]
    simp only [Pending.resolve_eq]
    exact .refl _
  | none =>
    rw [onResolution_of_none hdel, onResolution_of_none (hpend.trans hdel)]
    refine ⟨_, _, rfl, fun x => ?_, fun _ => Iff.rfl⟩
    show Assoc.get? (heard { c.pend with bufferedResolutions := Assoc.erase c.pend.bufferedResolutions k' }
      k e) x = Assoc.get? (Assoc.erase (heard c.pend k e) k') x
    rw [get?_heard]
    dsimp only
    rw [Assoc.get?_erase_of_ne (Ne.symm hk)]
    by_cases hx : k' = x
    · subst hx
      rw [Assoc.get?_erase_self, Assoc.get?_erase_self, if_neg fun h => hk h.1]
    · rw [Assoc.get?_erase_of_ne hx, Assoc.get?_erase_of_ne hx, get?_heard]

theorem Steady.consume_comm (hc : c.Steady) (hk : k ≠ k') (e : HistoryEvent) :
    Same ((c.consumeBufferedResolution k').onResolution k e)
      ((c.onResolution k e).consumeBufferedResolution k') := by
  have hget : Assoc.get? (c.onResolution k e).pend.bufferedResolutions k' =
      Assoc.get? c.pend.bufferedResolutions k' := by
    cases hdel : c.pend.deliverable k with
    | none =>
      rw [onResolution_of_none hdel]
      exact (get?_heard c.pend k k' e).trans (if_neg fun h => hk h.1)
    | some t => rw [hc.onResolution_of_some hdel, Pending.resolve_eq]
  rw [hc.consume_eq, (hc.onResolution k e).consume_eq, hget]
  cases Assoc.get? c.pend.bufferedResolutions k' with
  | none => exact .refl _
  | some e' =>
    have hswap := (hc.forget k').onResolution_comm (Ne.symm hk) e' e
    exact hswap.trans ((hc.forget_comm hk e).symm.onResolution k' e')

section Register

variable {actionType : WorkflowActionType} {router : Option TaskRouter} {kind : Kind}
  (hopt : ∀ id, isOptionalExternalEventTimerAction ⟨id, actionType, router⟩ = false)
include hopt

theorem registered_eq (c : Ctx) :
    c.registered actionType router kind =
      { c with
        core := c.core.newTask.1
        pend := { c.pend with
          sequenceNumber := c.pend.sequenceNumber + 1
          pendingActions := Assoc.insert c.pend.pendingActions c.pend.sequenceNumber
            ⟨⟨c.pend.sequenceNumber, actionType, router⟩, some c.core.tasks.length⟩
          pendingTasks := Assoc.insert c.pend.pendingTasks c.pend.sequenceNumber
            ⟨kind, c.core.tasks.length⟩
          allocated := c.pend.allocated ++ [c.pend.sequenceNumber] } } := by
  unfold registered Pending.noteOptional
  dsimp only
  rw [hopt]
  rfl

theorem Steady.registered (hc : c.Steady) : (c.registered actionType router kind).Steady := by
  have hlt {x : ActionID × PendingTask} (hx : x ∈ c.pend.pendingTasks) :
      x.2.task < c.core.tasks.length := by
    obtain ⟨-, t, ht, -⟩ := hc.tasks x hx
    exact (List.getElem?_eq_some_iff.mp ht).1
  rw [registered_eq hopt]
  refine ⟨hc.waits, fun x hx => ?_, hc.optional, fun x hx => ?_, Assoc.insert_nodup hc.keys _ _, ?_,
    fun x hx => ?_, fun k hk => Int.lt_add_one_of_le (Int.le_of_lt (hc.resolved k hk))⟩
  · rcases List.mem_append.mp hx with hx | hx
    · exact hc.callbacks x hx
    · exact List.mem_singleton.mp hx ▸ rfl
  · rcases Assoc.mem_insert.mp hx with ⟨hx, -⟩ | rfl
    · exact hc.actions x hx
    · exact hopt _
  · dsimp only [Assoc.insert]
    rw [List.map_append, List.nodup_append]
    refine ⟨hc.refs.sublist (List.filter_sublist.map _), List.nodup_singleton _, fun t ht t' ht' heq => ?_⟩
    obtain ⟨x, hx, rfl⟩ := List.mem_map.mp ht
    have hx := hlt (Assoc.mem_erase.mp hx).1
    rw [heq, List.mem_singleton.mp ht'] at hx
    exact Nat.lt_irrefl _ hx
  · rcases Assoc.mem_insert.mp hx with ⟨hx, -⟩ | rfl
    · obtain ⟨hn, t, ht, hrunning⟩ := hc.tasks x hx
      exact ⟨Int.lt_add_one_of_le (Int.le_of_lt hn), t,
        (List.getElem?_append_left (hlt hx)).trans ht, hrunning⟩
    · exact ⟨Int.lt_add_one_of_le Int.le_rfl, {}, by simp [Core.newTask], rfl⟩

/-- A delivery of other work before or after work is scheduled. -/
theorem Steady.registered_comm (hc : c.Steady) (hk : k ≠ (kind, c.pend.sequenceNumber)) (e : HistoryEvent) :
    (c.registered actionType router kind).onResolution k e =
      (c.onResolution k e).registered actionType router kind := by
  cases hdel : c.pend.deliverable k with
  | none =>
    have hlate : (c.registered actionType router kind).pend.deliverable k = none := by
      rw [registered_eq hopt]
      unfold Pending.deliverable at hdel ⊢
      dsimp only
      by_cases hid : c.pend.sequenceNumber = k.2
      · rw [← hid, Assoc.get?_insert_self]
        exact if_neg fun h => hk (Prod.ext h.1.symm hid.symm)
      · rw [Assoc.get?_insert_of_ne hid]
        exact hdel
    rw [onResolution_of_none hlate, onResolution_of_none hdel, registered_eq hopt, registered_eq hopt]
    rfl
  | some t =>
    obtain ⟨hn, x, hx, -⟩ := hc.tasks _ (Assoc.mem_of_get? (hc.deliverable_iff.mp hdel))
    have hne : k.2 ≠ c.pend.sequenceNumber := Int.ne_of_lt hn
    have hsoon : (c.registered actionType router kind).pend.deliverable k = some t := by
      rw [(hc.registered hopt).deliverable_iff, registered_eq hopt]
      exact (Assoc.get?_insert_of_ne hne.symm).trans (hc.deliverable_iff.mp hdel)
    rw [(hc.registered hopt).onResolution_of_some hsoon, hc.onResolution_of_some hdel,
      registered_eq hopt, registered_eq hopt]
    dsimp only
    rw [Core.modifyTask_newTask _ (List.getElem?_eq_some_iff.mp hx).1]
    simp only [Pending.resolve_eq, Assoc.erase_insert_of_ne _ hne.symm, Core.modifyTask, List.length_modify]
    rw [restored_insert c.pend hne _ e rfl]

theorem registered_knowing (c : Ctx) (buffered : List ((Kind × ActionID) × HistoryEvent))
    (resolved : List (Kind × ActionID)) :
    (c.knowing buffered resolved).registered actionType router kind =
      (c.registered actionType router kind).knowing buffered resolved := by
  rw [registered_eq hopt, registered_eq hopt]
  rfl

theorem notes_registered (c : Ctx) :
    (c.registered actionType router kind).pend.bufferedResolutions = c.pend.bufferedResolutions ∧
      (c.registered actionType router kind).pend.resolvedResolutions = c.pend.resolvedResolutions := by
  rw [registered_eq hopt]
  exact ⟨rfl, rfl⟩

/-- A resolution is delivered when its work is scheduled, or after that. -/
theorem Steady.register_early (hc : c.Steady) (e : HistoryEvent) :
    Same ((c.register actionType router kind).1.onResolution (kind, c.pend.sequenceNumber) e)
      ((c.onResolution (kind, c.pend.sequenceNumber) e).register actionType router kind).1 := by
  generalize hk : (kind, c.pend.sequenceNumber) = k
  have hid : k.2 = c.pend.sequenceNumber := by rw [← hk]
  have hreg : (c.registered actionType router kind).Steady := hc.registered hopt
  have hdel : c.pend.deliverable k = none := by
    refine Option.eq_none_iff_forall_ne_some.mpr fun t ht => ?_
    have hlt := (hc.tasks _ (Assoc.mem_of_get? (hc.deliverable_iff.mp ht))).1
    exact Int.ne_of_lt hlt hid
  have hnew : k ∉ c.pend.resolvedResolutions := fun hmem => Int.ne_of_lt (hc.resolved k hmem) hid
  -- The new work can be delivered whatever is noted about other resolutions.
  have hready : (c.registered actionType router kind).pend.deliverable k = some c.core.tasks.length := by
    rw [hreg.deliverable_iff, registered_eq hopt, ← hk]
    exact Assoc.get?_insert_self ..
  cases hget : Assoc.get? c.pend.bufferedResolutions k with
  | some e₀ =>
    have hsame : c.onResolution k e = c := by
      rw [onResolution_of_none hdel, heard, if_pos (.inr (by rw [hget]; rfl))]
      rfl
    have hdone : ((c.registered actionType router kind).consumeBufferedResolution k) =
        ((c.registered actionType router kind).forget k).onResolution k e₀ := by
      rw [hreg.consume_eq, (notes_registered hopt c).1, hget]
    have hover : (((c.registered actionType router kind).forget k).onResolution k e₀).onResolution k e =
        ((c.registered actionType router kind).forget k).onResolution k e₀ := by
      rw [(hreg.forget k).onResolution_of_some hready, onResolution_of_none (deliverable_resolve_self rfl e₀),
        heard, if_pos (.inl (by rw [Pending.resolve_eq]; simp))]
      rfl
    rw [hsame, register_eq, hk, hdone, hover]
    exact .refl _
  | none =>
    have hsame : c.onResolution k e =
        c.knowing (Assoc.insert c.pend.bufferedResolutions k e) c.pend.resolvedResolutions := by
      rw [onResolution_of_none hdel, heard, if_neg (by simp [hnew, hget])]
    have hstill : (c.registered actionType router kind).consumeBufferedResolution k =
        c.registered actionType router kind := by
      rw [hreg.consume_eq, (notes_registered hopt c).1, hget]
    -- The resolution is buffered first, and consumed when the work is there.
    have hlater : (c.onResolution k e).registered actionType router kind =
        (c.registered actionType router kind).knowing (Assoc.insert c.pend.bufferedResolutions k e)
          c.pend.resolvedResolutions := by
      rw [hsame, registered_knowing hopt]
    have hfound : ((c.onResolution k e).registered actionType router kind).consumeBufferedResolution k =
        (((c.onResolution k e).registered actionType router kind).forget k).onResolution k e := by
      have hlate : ((c.onResolution k e).registered actionType router kind).Steady :=
        (hc.onResolution k e).registered hopt
      rw [hlate.consume_eq, hlater]
      dsimp only [Ctx.knowing]
      rw [Assoc.get?_insert_self]
    have hnoted : Same (c.registered actionType router kind)
        (((c.onResolution k e).registered actionType router kind).forget k) := by
      rw [hlater]
      refine ⟨_, _, rfl, fun x => ?_, fun x => by rw [(notes_registered hopt c).2]; exact Iff.rfl⟩
      rw [(notes_registered hopt c).1]
      show Assoc.get? (Assoc.erase (Assoc.insert c.pend.bufferedResolutions k e) k) x = _
      rw [Assoc.erase_insert (Assoc.get?_eq_none_iff.mp hget)]
    have hseq : (c.onResolution k e).pend.sequenceNumber = c.pend.sequenceNumber := by
      rw [hsame]
      rfl
    rw [register_eq, register_eq, hseq, hk, hstill, hfound]
    exact hnoted.onResolution k e

end Register

theorem Independent.register (actionType : WorkflowActionType) (router : Option TaskRouter) (kind : Kind)
    (hopt : ∀ id, isOptionalExternalEventTimerAction ⟨id, actionType, router⟩ = false) :
    Independent fun c => c.register actionType router kind where
  steady hc := (hc.registered hopt).consume _
  suspension c :=
    Core.suspension_of_flags (Core.flags_of_frame (frame_consumeBufferedResolution
      (c.registered actionType router kind) (kind, c.pend.sequenceNumber)))
  congr {c c'} h := by
    have hsame : Same (c.registered actionType router kind) (c'.registered actionType router kind) :=
      h.map (u := fun c => c.registered actionType router kind) (registered_knowing hopt c)
        (notes_registered hopt c).1 (notes_registered hopt c).2
    obtain ⟨buffered, resolved, rfl, -⟩ := h
    exact ⟨hsame.consume _, rfl⟩
  comm {c} k e hc := by
    obtain ⟨tasks, hcore, hlen⟩ := hc.core_onResolution k e
    have hseq : (c.onResolution k e).pend.sequenceNumber = c.pend.sequenceNumber := by
      cases hdel : c.pend.deliverable k with
      | none => rw [onResolution_of_none hdel]; rfl
      | some t => rw [hc.onResolution_of_some hdel, Pending.resolve_eq]
    refine ⟨?_, ?_⟩
    · by_cases hk : k = (kind, c.pend.sequenceNumber)
      · subst hk
        exact hc.register_early hopt e
      · have hreg : (c.registered actionType router kind).Steady := hc.registered hopt
        have hcomm := hreg.consume_comm hk e
        rw [hc.registered_comm hopt hk] at hcomm
        simp only [register_eq, hseq]
        exact hcomm
    · simp only [register_eq, hseq, hcore, hlen]

end Ctx

end DurableTask.Task
