import DurableTask.Lib.Mailbox
import DurableTask.Task.Moves

/-!
# External events and waits

For each event name the events and the waits are a mailbox: an event is a message, a wait a reader,
and the timer of a wait makes it give up. `Mailed` says where the parts of the mailboxes are in a
context: the maps by name, the lists they point to, the tasks of the waits and the callbacks that the
timers of waits have. Every move keeps it.
-/

namespace DurableTask.Task

open Mailbox (Op)

/-! ### The mailbox of a name -/

namespace Act

/-- What an act is to the mailbox of the events named `n`. -/
def mail? (n : String) : Act → Option (Op HistoryEvent Nat)
  | .waited t key timeout => if key = n then some (.read t (decide (timeout ≠ 0))) else none
  | .raised key e => if key = n then some (.post e) else none
  | .fired wait => some (.giveUp wait)
  | _ => none

/-- The task an act creates. -/
def created? : Act → Option Nat
  | .scheduled t _ | .waited t _ _ => some t
  | _ => none

/-- Whether an act creates no task and is nothing to mailboxes. -/
def isQuiet : Act → Bool
  | .generated _ | .arrived _ | .delivered .. => true
  | _ => false

end Act

/-- The mailbox of the events named `n`. -/
def box (n : String) (acts : List Act) : Mailbox HistoryEvent Nat :=
  Mailbox.run (acts.filterMap (Act.mail? n))

section Acts

variable {acts acts' : List Act} {n key : String} {a a' : Act}

theorem box_append_none (h : ∀ a ∈ acts', a.mail? n = none) : box n (acts ++ acts') = box n acts := by
  unfold box
  rw [List.filterMap_append, List.filterMap_eq_nil_iff.mpr h, List.append_nil]

theorem box_append_some {op : Op HistoryEvent Nat} (h : a.mail? n = some op) :
    box n (acts ++ [a]) = (box n acts).step op := by
  unfold box
  rw [List.filterMap_append, Mailbox.run_append, List.filterMap_cons_some h]
  rfl

theorem box_fired (n : String) (w : Nat) : box n (acts ++ [.fired w]) = (box n acts).giveUp w :=
  box_append_some (show (Act.fired w).mail? n = some (.giveUp w) from rfl)

theorem box_raised (n : String) (e : HistoryEvent) :
    box n (acts ++ [.raised n e]) = (box n acts).post e :=
  box_append_some (show (Act.raised n e).mail? n = some (.post e) from if_pos rfl)

theorem box_waited (n : String) (t : Nat) (timeout : Duration) :
    box n (acts ++ [.waited t n timeout]) = (box n acts).read t (decide (timeout ≠ 0)) :=
  box_append_some
    (show (Act.waited t n timeout).mail? n = some (.read t (decide (timeout ≠ 0))) from if_pos rfl)

/-- A partial function that is undefined more often. -/
theorem sublist_filterMap {f g : Act → Option Nat} (h : ∀ a, f a = none ∨ f a = g a) (acts : List Act) :
    (acts.filterMap f).Sublist (acts.filterMap g) := by
  induction acts with
  | nil => exact List.Sublist.slnil
  | cons a acts ih =>
    cases hf : f a with
    | none =>
      rw [List.filterMap_cons_none hf]
      cases hg : g a with
      | none => rwa [List.filterMap_cons_none hg]
      | some t =>
        rw [List.filterMap_cons_some hg]
        exact ih.cons t
    | some t =>
      have hg : g a = some t := by
        rw [← hf]
        exact ((h a).resolve_left (by rw [hf]; exact Option.some_ne_none t)).symm
      rw [List.filterMap_cons_some hf, List.filterMap_cons_some hg]
      exact ih.cons_cons t

/-- Acts that create the same task are the same. -/
theorem eq_of_created? (hnodup : (acts.filterMap Act.created?).Nodup) (ha : a ∈ acts) (ha' : a' ∈ acts)
    {t : Nat} (ht : a.created? = some t) (ht' : a'.created? = some t) : a = a' := by
  induction acts with
  | nil => cases ha
  | cons b acts ih =>
    have hmem {x : Act} (hx : x ∈ acts) (hxt : x.created? = some t) :
        t ∈ acts.filterMap Act.created? := List.mem_filterMap.mpr ⟨x, hx, hxt⟩
    cases hb : b.created? with
    | none =>
      rw [List.filterMap_cons_none hb] at hnodup
      have hne {x : Act} (hx : x.created? = some t) : x ≠ b := by
        rintro rfl
        rw [hb] at hx
        cases hx
      exact ih hnodup ((List.mem_cons.mp ha).resolve_left (hne ht))
        ((List.mem_cons.mp ha').resolve_left (hne ht'))
    | some s =>
      rw [List.filterMap_cons_some hb, List.nodup_cons] at hnodup
      rcases List.mem_cons.mp ha with hab | hin <;> rcases List.mem_cons.mp ha' with hab' | hin'
      · rw [hab, hab']
      · rw [hab, hb] at ht
        cases ht
        exact absurd (hmem hin' ht') hnodup.1
      · rw [hab', hb] at ht'
        cases ht'
        exact absurd (hmem hin ht) hnodup.1
      · exact ih hnodup.2 hin hin'

end Acts

/-! ### The invariant -/

/-- The payload of an external event. -/
def raisedInput (e : HistoryEvent) : String :=
  match e.eventType with
  | .eventRaised er => er.input.getD ""
  | _ => ""

namespace Core

/-- Tasks are created in order. -/
structure Created (acts : List Act) (n : Nat) : Prop where
  increasing : (acts.filterMap Act.created?).Pairwise (· < ·)
  bound : ∀ t ∈ acts.filterMap Act.created?, t < n

/-- The parts of the mailbox `b` of the events named `n` in a context. -/
structure Holds (b : Mailbox HistoryEvent Nat) (n : String) (c : Core) : Prop where
  buffered : Assoc.get? c.bufferedExternalEvents n =
    if b.messages = [] then none else some b.messages
  pending : b.readers = [] → Assoc.get? c.pendingExternalEventTasks n = none
  lists : b.readers ≠ [] → ∃ l, Assoc.get? c.pendingExternalEventTasks n = some l ∧
    l < c.waitLists.length ∧ c.waitLists.getD l [] = b.readers
  delivered : ∀ p ∈ b.deliveries, c.task p.2 = { isCompleted := true, rawResult := raisedInput p.1 }
  gaveUp : ∀ w ∈ b.gaveUp, c.task w = { isCompleted := true, isCanceled := true }
  readers : ∀ w ∈ b.readers, c.task w = {}

/-- The mailboxes in a context. -/
structure Boxed (acts : List Act) (c : Core) : Prop where
  keys : (c.bufferedExternalEvents.map Prod.fst).Nodup
  distinct : ∀ n n' l, Assoc.get? c.pendingExternalEventTasks n = some l →
    Assoc.get? c.pendingExternalEventTasks n' = some l → n = n'
  holds : ∀ n, Holds (box n acts) n c

/-- The timers of waits. A timer is the task right after its wait, and its callback points to the list
the wait is in as long as it is in one. -/
structure Timed (acts : List Act) (c : Core) : Prop where
  callbacks : ∀ t w, (c.task t).completedCallback = some w → t = w.task + 1 ∧
    (∃ timeout, Act.waited w.task w.key timeout ∈ acts) ∧
    (∀ kind, Act.scheduled t kind ∈ acts → kind = .timer) ∧
    (w.task ∈ (box w.key acts).readers →
      Assoc.get? c.pendingExternalEventTasks w.key = some w.list)
  fired : ∀ w, Act.fired w ∈ acts → w + 1 < c.tasks.length ∧
    (∃ k e u, Act.delivered k (w + 1) e u ∈ acts) ∧
    ∀ kind, Act.scheduled (w + 1) kind ∈ acts → kind = .timer

structure Mailed (acts : List Act) (c : Core) : Prop where
  created : Created acts c.tasks.length
  boxed : Boxed acts c
  timed : Timed acts c

/-! ### Waits -/

section Waits

variable {acts : List Act} {c : Core} {n n' : String} {w t len : Nat} {timeout timeout' : Duration}

theorem Created.nodup (h : Created acts len) : (acts.filterMap Act.created?).Nodup :=
  h.increasing.imp Nat.ne_of_lt

theorem Created.waited_lt (h : Created acts len) (hw : Act.waited w n timeout ∈ acts) : w < len :=
  h.bound w (List.mem_filterMap.mpr ⟨_, hw, rfl⟩)

theorem Created.scheduled_lt (h : Created acts len) {kind : Kind} (ht : Act.scheduled t kind ∈ acts) :
    t < len :=
  h.bound t (List.mem_filterMap.mpr ⟨_, ht, rfl⟩)

/-- A move creates no task, or the next one. -/
theorem Created.extend (h : Created acts len) {moved : List Act} {len' : Nat} (hle : len ≤ len')
    (hmoved : moved.filterMap Act.created? = [] ∨
      moved.filterMap Act.created? = [len] ∧ len < len') : Created (acts ++ moved) len' := by
  refine ⟨?_, fun t ht => ?_⟩
  · rw [List.filterMap_append, List.pairwise_append]
    refine ⟨h.increasing, ?_, fun t ht t' ht' => ?_⟩
    · rcases hmoved with hnil | ⟨hone, -⟩
      · rw [hnil]
        exact .nil
      · rw [hone]
        exact List.pairwise_singleton _ _
    · rcases hmoved with hnil | ⟨hone, -⟩
      · rw [hnil] at ht'
        cases ht'
      · rw [hone, List.mem_singleton] at ht'
        exact ht' ▸ h.bound t ht
  · rw [List.filterMap_append] at ht
    rcases List.mem_append.mp ht with ht | ht
    · exact Nat.lt_of_lt_of_le (h.bound t ht) hle
    · rcases hmoved with hnil | ⟨hone, hlt⟩
      · rw [hnil] at ht
        cases ht
      · rw [hone, List.mem_singleton] at ht
        exact ht ▸ hlt

theorem Created.concat_none (h : Created acts len) {a : Act} (ha : a.created? = none) :
    Created (acts ++ [a]) len :=
  h.extend (Nat.le_refl _) (.inl (List.filterMap_cons_none ha))

theorem Created.concat_some (h : Created acts len) {a : Act} (ha : a.created? = some len) :
    Created (acts ++ [a]) (len + 1) :=
  h.extend (Nat.le_succ _) (.inr ⟨List.filterMap_cons_some ha, Nat.lt_succ_self _⟩)

/-- A wait has one name. -/
theorem Created.waited_inj (h : Created acts len) (hw : Act.waited w n timeout ∈ acts)
    (hw' : Act.waited w n' timeout' ∈ acts) : n = n' ∧ timeout = timeout' := by
  have := eq_of_created? h.nodup hw hw' rfl rfl
  cases this
  exact ⟨rfl, rfl⟩

theorem mem_reads {acts : List Act} {w : Nat} :
    w ∈ (acts.filterMap (Act.mail? n)).filterMap Op.read? ↔ ∃ timeout, Act.waited w n timeout ∈ acts := by
  simp only [List.mem_filterMap]
  constructor
  · rintro ⟨op, ⟨a, ha, hop⟩, hw⟩
    cases a with
    | waited t key timeout =>
      simp only [Act.mail?] at hop
      split at hop
      · next hkey =>
        cases hop
        cases hw
        exact ⟨timeout, hkey ▸ ha⟩
      · cases hop
    | raised key e =>
      simp only [Act.mail?] at hop
      split at hop
      · cases hop
        cases hw
      · cases hop
    | fired wait =>
      cases hop
      cases hw
    | _ => cases hop
  · rintro ⟨timeout, hw⟩
    exact ⟨.read w (decide (timeout ≠ 0)), ⟨_, hw, if_pos rfl⟩, rfl⟩

/-- The waits for one name are made in order, so each mailbox is fair. -/
theorem Created.fair (h : Created acts len) (n : String) :
    Mailbox.Fair (acts.filterMap (Act.mail? n)) (box n acts) := by
  refine Mailbox.fair_run _ (h.increasing.sublist ?_)
  have hreads : ∀ a : Act, (a.mail? n).bind Op.read? = none ∨ (a.mail? n).bind Op.read? = a.created? := by
    intro a
    cases a with
    | waited t key timeout =>
      unfold Act.mail?
      dsimp only
      split
      · exact .inr rfl
      · exact .inl rfl
    | raised key e =>
      unfold Act.mail?
      dsimp only
      split <;> exact .inl rfl
    | _ => exact .inl rfl
  rw [List.filterMap_filterMap]
  exact sublist_filterMap hreads acts

/-- The waits for a name are those in its mailbox. -/
theorem Created.waited_iff (h : Created acts len) :
    (∃ timeout, Act.waited w n timeout ∈ acts) ↔
      w ∈ (box n acts).deliveries.map Prod.snd ++ (box n acts).readers ∨ w ∈ (box n acts).gaveUp :=
  mem_reads.symm.trans ((h.fair n).known w)

theorem Created.waited_of_reader (h : Created acts len) (hw : w ∈ (box n acts).readers) :
    ∃ timeout, Act.waited w n timeout ∈ acts :=
  h.waited_iff.mpr (.inl (List.mem_append_right _ hw))

end Waits

/-! ### What does not touch a mailbox -/

section Frames

variable {acts acts' : List Act} {c c' : Core} {b : Mailbox HistoryEvent Nat} {n : String} {t : Nat}

theorem Holds.congr (h : Holds b n c)
    (hbuf : Assoc.get? c'.bufferedExternalEvents n = Assoc.get? c.bufferedExternalEvents n)
    (hpend : Assoc.get? c'.pendingExternalEventTasks n = Assoc.get? c.pendingExternalEventTasks n)
    (hlist : ∀ l, Assoc.get? c.pendingExternalEventTasks n = some l → l < c.waitLists.length →
      l < c'.waitLists.length ∧ c'.waitLists.getD l [] = c.waitLists.getD l [])
    (htask : ∀ w, w ∈ b.deliveries.map Prod.snd ++ b.readers ∨ w ∈ b.gaveUp → c'.task w = c.task w) :
    Holds b n c' := by
  refine ⟨hbuf.trans h.buffered, fun hnil => hpend.trans (h.pending hnil), fun hne => ?_,
    fun p hp => ?_, fun w hw => ?_, fun w hw => ?_⟩
  · obtain ⟨l, hl, hlt, hreaders⟩ := h.lists hne
    obtain ⟨hlt', hsame⟩ := hlist l hl hlt
    exact ⟨l, hpend.trans hl, hlt', hsame.trans hreaders⟩
  · rw [htask _ (.inl (List.mem_append_left _ (List.mem_map_of_mem hp)))]
    exact h.delivered p hp
  · rw [htask w (.inr hw)]
    exact h.gaveUp w hw
  · rw [htask w (.inl (List.mem_append_right _ hw))]
    exact h.readers w hw

/-- The list of a name that has waits. -/
theorem Holds.list (h : Holds b n c) {l : Nat}
    (hl : Assoc.get? c.pendingExternalEventTasks n = some l) :
    l < c.waitLists.length ∧ c.waitLists.getD l [] = b.readers ∧ b.readers ≠ [] := by
  have hne : b.readers ≠ [] := by
    intro hnil
    rw [h.pending hnil] at hl
    cases hl
  obtain ⟨l', hl', hlt, hreaders⟩ := h.lists hne
  cases hl.symm.trans hl'
  exact ⟨hlt, hreaders, hne⟩

theorem Boxed.of_box (h : Boxed acts c) (hbox : ∀ n, box n acts' = box n acts) : Boxed acts' c :=
  ⟨h.keys, h.distinct, fun n => hbox n ▸ h.holds n⟩

/-- The waits are not touched. -/
theorem Boxed.of_tasks (h : Boxed acts c) (hcreated : Created acts c.tasks.length)
    (hmail : c'.mail.2 = c.mail.2)
    (htask : ∀ w n timeout, Act.waited w n timeout ∈ acts → c'.task w = c.task w) : Boxed acts c' := by
  have hlists : c'.waitLists = c.waitLists := congrArg Prod.fst hmail
  have hpend : c'.pendingExternalEventTasks = c.pendingExternalEventTasks :=
    congrArg (fun m => m.2.1) hmail
  have hbuf : c'.bufferedExternalEvents = c.bufferedExternalEvents := congrArg (fun m => m.2.2) hmail
  refine ⟨hbuf ▸ h.keys, hpend ▸ h.distinct, fun n => ?_⟩
  refine (h.holds n).congr (by rw [hbuf]) (by rw [hpend]) (fun l _ hlt => ?_) fun w hw => ?_
  · rw [hlists]
    exact ⟨hlt, rfl⟩
  · obtain ⟨timeout, hw⟩ := hcreated.waited_iff.mpr hw
    exact htask w n timeout hw

/-- The list of a name with other waits; it goes with its last wait. -/
def setList (c : Core) (key : String) (l : Nat) (waits : List Nat) : Core :=
  if waits.isEmpty then
    { c with pendingExternalEventTasks := Assoc.erase c.pendingExternalEventTasks key }
  else { c with waitLists := c.waitLists.set l waits }

theorem task_setList (c : Core) (key : String) (l : Nat) (waits : List Nat) (t : Nat) :
    (c.setList key l waits).task t = c.task t := by
  unfold setList
  split <;> rfl

theorem tasks_setList (c : Core) (key : String) (l : Nat) (waits : List Nat) :
    (c.setList key l waits).tasks = c.tasks := by
  unfold setList
  split <;> rfl

theorem bufferedExternalEvents_setList (c : Core) (key : String) (l : Nat) (waits : List Nat) :
    (c.setList key l waits).bufferedExternalEvents = c.bufferedExternalEvents := by
  unfold setList
  split <;> rfl

theorem get?_setList_of_mem (c : Core) (key : String) (l : Nat) {waits : List Nat} {w : Nat}
    (hw : w ∈ waits) :
    (c.setList key l waits).pendingExternalEventTasks = c.pendingExternalEventTasks := by
  unfold setList
  rw [if_neg fun hempty => List.ne_nil_of_mem hw (List.isEmpty_iff.mp hempty)]

theorem get?_setList_of_ne (c : Core) {key : String} (l : Nat) (waits : List Nat) (hn : n ≠ key) :
    Assoc.get? (c.setList key l waits).pendingExternalEventTasks n =
      Assoc.get? c.pendingExternalEventTasks n := by
  unfold setList
  split
  · exact Assoc.get?_erase_of_ne hn.symm
  · rfl

/-- A wait leaves the list of its name. -/
theorem Boxed.removeWait (h : Boxed acts c) {key : String} {l : Nat} {f : CompletableTask → CompletableTask}
    (hl : Assoc.get? c.pendingExternalEventTasks key = some l)
    (hother : ∀ n, n ≠ key → box n acts' = box n acts)
    (hmessages : (box key acts').messages = (box key acts).messages)
    (htask : ∀ n, n ≠ key → ∀ w, w ∈ (box n acts).deliveries.map Prod.snd ++ (box n acts).readers ∨
      w ∈ (box n acts).gaveUp → t ≠ w)
    (hdelivered : ∀ p ∈ (box key acts').deliveries,
      (c.modifyTask t f).task p.2 = { isCompleted := true, rawResult := raisedInput p.1 })
    (hgaveUp : ∀ w ∈ (box key acts').gaveUp,
      (c.modifyTask t f).task w = { isCompleted := true, isCanceled := true })
    (hreaders : ∀ w ∈ (box key acts').readers, (c.modifyTask t f).task w = {}) :
    Boxed acts' ((c.modifyTask t f).setList key l (box key acts').readers) := by
  obtain ⟨hlt, -, -⟩ := (h.holds key).list hl
  refine ⟨?_, fun n n' l' hn hn' => ?_, fun n => ?_⟩
  · rw [bufferedExternalEvents_setList]
    exact h.keys
  · refine h.distinct n n' l' ?_ ?_
    all_goals
      unfold setList at hn hn'
      split at hn
      · rename_i hempty
        rw [if_pos hempty] at hn'
        first
        | exact Assoc.get?_of_get?_erase hn
        | exact Assoc.get?_of_get?_erase hn'
      · rename_i hempty
        rw [if_neg hempty] at hn'
        first
        | exact hn
        | exact hn'
  · by_cases hn : n = key
    · subst hn
      refine ⟨?_, fun hnil => ?_, fun hne => ?_, fun p hp => ?_, fun w hw => ?_, fun w hw => ?_⟩
      · rw [bufferedExternalEvents_setList, hmessages]
        exact (h.holds n).buffered
      · unfold setList
        rw [hnil]
        exact Assoc.get?_erase_self ..
      · unfold setList
        rw [if_neg (by simpa using hne)]
        refine ⟨l, hl, by simpa [modifyTask] using hlt, ?_⟩
        simp [List.getD_eq_getElem?_getD, modifyTask, hlt]
      · rw [task_setList]
        exact hdelivered p hp
      · rw [task_setList]
        exact hgaveUp w hw
      · rw [task_setList]
        exact hreaders w hw
    · rw [hother n hn]
      refine (h.holds n).congr (by rw [bufferedExternalEvents_setList]; rfl) (get?_setList_of_ne _ l _ hn)
        (fun l' hl' hlt' => ?_) fun w hw => ?_
      · have hne : l ≠ l' := by
          rintro rfl
          exact hn (h.distinct n key l hl' hl)
        unfold setList
        split
        · exact ⟨hlt', rfl⟩
        · refine ⟨by simpa [modifyTask] using hlt', ?_⟩
          simp [List.getD_eq_getElem?_getD, modifyTask, List.getElem?_set_ne hne]
      · rw [task_setList]
        exact task_modifyTask_of_ne c t f (htask n hn w hw)

theorem lt_of_callback {w : WaitTimeout} (h : (c.task t).completedCallback = some w) :
    t < c.tasks.length := by
  by_contra hge
  rw [task_of_length_le c t (Nat.le_of_not_lt hge)] at h
  cases h

/-- Timers are touched by no act about another task. -/
theorem Timed.update (h : Timed acts c) (hacts : ∀ a ∈ acts, a ∈ acts')
    (hsched : ∀ t kind, Act.scheduled t kind ∈ acts' → t < c.tasks.length → Act.scheduled t kind ∈ acts)
    (hfired : ∀ w, Act.fired w ∈ acts' → Act.fired w ∈ acts)
    (hlen : c.tasks.length ≤ c'.tasks.length)
    (hcallback : ∀ t w, (c'.task t).completedCallback = some w →
      (c.task t).completedCallback = some w)
    (hlist : ∀ n w timeout, Act.waited w n timeout ∈ acts → w ∈ (box n acts').readers →
      w ∈ (box n acts).readers ∧
        Assoc.get? c'.pendingExternalEventTasks n = Assoc.get? c.pendingExternalEventTasks n) :
    Timed acts' c' := by
  refine ⟨fun t w hw => ?_, fun w hw => ?_⟩
  · have hw := hcallback t w hw
    obtain ⟨ht, ⟨timeout, hwaited⟩, htimer, hvalid⟩ := h.callbacks t w hw
    refine ⟨ht, ⟨timeout, hacts _ hwaited⟩, fun kind hkind => ?_, fun hmem => ?_⟩
    · exact htimer kind (hsched t kind hkind (lt_of_callback hw))
    · obtain ⟨hmem, hsame⟩ := hlist w.key w.task timeout hwaited hmem
      exact hsame.trans (hvalid hmem)
  · obtain ⟨hlt, ⟨k, e, u, hdel⟩, htimer⟩ := h.fired w (hfired w hw)
    exact ⟨Nat.lt_of_lt_of_le hlt hlen, ⟨k, e, u, hacts _ hdel⟩,
      fun kind hkind => htimer kind (hsched _ kind hkind hlt)⟩

end Frames

namespace Mailed

variable {acts acts' : List Act} {c c' : Core} {n : String} {t : Nat}

theorem empty (id : InstanceID) : Mailed [] { id := id } where
  created := ⟨.nil, fun _ h => absurd h List.not_mem_nil⟩
  boxed := ⟨List.nodup_nil, fun _ _ _ h => (Option.some_ne_none _ h.symm).elim, fun _ =>
    ⟨rfl, fun _ => rfl, fun h => absurd rfl h, fun _ h => absurd h List.not_mem_nil,
      fun _ h => absurd h List.not_mem_nil, fun _ h => absurd h List.not_mem_nil⟩⟩
  timed := ⟨fun _ _ h => (Option.some_ne_none _ h.symm).elim, fun _ h => absurd h List.not_mem_nil⟩

theorem quiet (h : Mailed acts c) (hquiet : ∀ a ∈ acts', a.isQuiet = true) :
    Mailed (acts ++ acts') c := by
  have hnone : ∀ a ∈ acts', a.created? = none ∧ ∀ n, a.mail? n = none := by
    intro a ha
    have := hquiet a ha
    cases a <;> first | exact ⟨rfl, fun _ => rfl⟩ | cases this
  have hmem {a : Act} (ha : a ∈ acts ++ acts') (hloud : a.isQuiet = false) : a ∈ acts := by
    rcases List.mem_append.mp ha with ha | ha
    · exact ha
    · rw [hquiet a ha] at hloud
      cases hloud
  have hbox (n : String) : box n (acts ++ acts') = box n acts :=
    box_append_none fun a ha => (hnone a ha).2 n
  have hcreated : Created (acts ++ acts') c.tasks.length :=
    h.created.extend (Nat.le_refl _) (.inl (List.filterMap_eq_nil_iff.mpr fun a ha => (hnone a ha).1))
  refine ⟨hcreated, h.boxed.of_box hbox, ?_⟩
  refine h.timed.update (fun a ha => List.mem_append_left _ ha) (fun t kind ht _ => hmem ht rfl)
    (fun w hw => hmem hw rfl) (Nat.le_refl _) (fun _ _ hw => hw) fun n w timeout _ hw => ?_
  rw [hbox] at hw
  exact ⟨hw, rfl⟩

theorem same (h : Mailed acts c) (hmail : c'.mail = c.mail) : Mailed acts c' := by
  have htasks : c'.tasks = c.tasks := congrArg Prod.fst hmail
  have htask (t : Nat) : c'.task t = c.task t := by
    unfold task
    rw [htasks]
  have hpend : c'.pendingExternalEventTasks = c.pendingExternalEventTasks :=
    congrArg (fun m => m.2.2.1) hmail
  refine ⟨htasks ▸ h.created, h.boxed.of_tasks h.created (congrArg Prod.snd hmail) fun w _ _ _ => htask w,
    ?_⟩
  refine h.timed.update (fun _ ha => ha) (fun _ _ ht _ => ht) (fun _ hw => hw) (htasks ▸ Nat.le_refl _)
    (fun t w hw => ?_) fun n w timeout _ hw => ⟨hw, by rw [hpend]⟩
  rwa [htask] at hw

theorem callback_newTask {w : WaitTimeout} (hw : (c.newTask.1.task t).completedCallback = some w) :
    (c.task t).completedCallback = some w := by
  have hlt : t < c.tasks.length + 1 := length_newTask c ▸ lt_of_callback hw
  rcases Nat.lt_succ_iff_lt_or_eq.mp hlt with hlt | rfl
  · rwa [task_newTask c hlt] at hw
  · rw [task_newTask_self] at hw
    cases hw

theorem newTask (h : Mailed acts c) : Mailed acts c.newTask.1 := by
  have hlen : c.tasks.length ≤ c.newTask.1.tasks.length := length_newTask c ▸ Nat.le_succ _
  refine ⟨⟨h.created.increasing, fun t ht => Nat.lt_of_lt_of_le (h.created.bound t ht) hlen⟩, ?_, ?_⟩
  · exact h.boxed.of_tasks h.created rfl fun w _ _ hw => task_newTask c (h.created.waited_lt hw)
  · exact h.timed.update (fun _ ha => ha) (fun _ _ ht _ => ht) (fun _ hw => hw) hlen
      (fun _ _ => callback_newTask) fun _ _ _ _ hw => ⟨hw, rfl⟩

theorem scheduled (h : Mailed acts c) (kind : Kind) :
    Mailed (acts ++ [.scheduled c.tasks.length kind]) c.newTask.1 := by
  have hbox (n : String) : box n (acts ++ [.scheduled c.tasks.length kind]) = box n acts :=
    box_append_none (by simp [Act.mail?])
  refine ⟨length_newTask c ▸ h.created.concat_some rfl, h.newTask.boxed.of_box hbox, ?_⟩
  refine h.timed.update (fun a ha => List.mem_append_left _ ha) (fun t kind' ht hlt => ?_)
    (fun w hw => by simpa using hw) (length_newTask c ▸ Nat.le_succ _) (fun _ _ => callback_newTask)
    fun n w timeout _ hw => ⟨hbox n ▸ hw, rfl⟩
  rcases List.mem_append.mp ht with ht | ht
  · exact ht
  · cases List.mem_singleton.mp ht
    exact absurd hlt (Nat.lt_irrefl _)

theorem boxed_modifyTask (h : Mailed acts c) (hnot : ∀ n timeout, Act.waited t n timeout ∉ acts)
    (f : CompletableTask → CompletableTask) : Boxed acts (c.modifyTask t f) := by
  refine h.boxed.of_tasks h.created rfl fun w n timeout hw => task_modifyTask_of_ne c t f ?_
  rintro rfl
  exact hnot n timeout hw

/-- A task that is no wait is completed. -/
theorem modifyTask (h : Mailed acts c) (hnot : ∀ n timeout, Act.waited t n timeout ∉ acts)
    {f : CompletableTask → CompletableTask}
    (hf : ∀ x, (f x).completedCallback = x.completedCallback) : Mailed acts (c.modifyTask t f) := by
  have hlen := length_modifyTask c t f
  refine ⟨hlen ▸ h.created, h.boxed_modifyTask hnot f, ?_⟩
  refine h.timed.update (fun _ ha => ha) (fun _ _ ht _ => ht) (fun _ hw => hw) hlen.ge
    (fun t' w hw => ?_) fun _ _ _ _ hw => ⟨hw, rfl⟩
  rwa [callback_modifyTask c t f hf] at hw

/-- The new timer of a wait gets its callback. -/
theorem setCallback (h : Mailed acts c) {w : WaitTimeout} (ht : t = w.task + 1)
    (hnot : ∀ n timeout, Act.waited t n timeout ∉ acts)
    (hwaited : ∃ timeout, Act.waited w.task w.key timeout ∈ acts)
    (htimer : ∀ kind, Act.scheduled t kind ∈ acts → kind = .timer)
    (hlist : Assoc.get? c.pendingExternalEventTasks w.key = some w.list) :
    Mailed acts (c.modifyTask t fun x => { x with completedCallback := some w }) := by
  have hlen : (c.modifyTask t fun x => { x with completedCallback := some w }).tasks.length =
      c.tasks.length := length_modifyTask ..
  refine ⟨hlen ▸ h.created, h.boxed_modifyTask hnot _, fun t' w' hw' => ?_, fun w' hw' => ?_⟩
  · by_cases htt : t = t'
    · subst htt
      have hlt : t < c.tasks.length := hlen ▸ lt_of_callback hw'
      rw [task_modifyTask_self c t _ hlt] at hw'
      cases hw'
      exact ⟨ht, hwaited, htimer, fun _ => hlist⟩
    · rw [task_modifyTask_of_ne c t _ htt] at hw'
      exact h.timed.callbacks t' w' hw'
  · rw [hlen]
    exact h.timed.fired w' hw'

/-! ### Timers -/

/-- A wait is in the mailbox of one name only. -/
theorem key_of_reader (h : Mailed acts c) {w : Nat} {key : String} {timeout : Duration}
    (hwaited : Act.waited w key timeout ∈ acts)
    (hw : w ∈ (box n acts).deliveries.map Prod.snd ++ (box n acts).readers ∨ w ∈ (box n acts).gaveUp) :
    n = key := by
  obtain ⟨timeout', hw⟩ := h.created.waited_iff.mpr hw
  exact (h.created.waited_inj hw hwaited).1

/-- The wait of the timer is not pending any more. -/
theorem onWaitTimeout_of_done (h : Mailed acts c) {w : WaitTimeout} {timeout : Duration}
    (hwaited : Act.waited w.task w.key timeout ∈ acts) (hnot : w.task ∉ (box w.key acts).readers) :
    c.onWaitTimeout w = c := by
  have hdone : (c.task w.task).isCompleted = true := by
    rcases h.created.waited_iff.mp ⟨timeout, hwaited⟩ with hmem | hmem
    · rcases List.mem_append.mp hmem with hmem | hmem
      · obtain ⟨p, hp, hw⟩ := List.mem_map.mp hmem
        rw [← hw, (h.boxed.holds w.key).delivered p hp]
      · exact absurd hmem hnot
    · rw [(h.boxed.holds w.key).gaveUp _ hmem]
  unfold onWaitTimeout
  rw [if_pos hdone]

/-- What is left of a list without one of its waits. -/
theorem erase_eq_nil_iff {l : List Nat} {w : Nat} (hw : w ∈ l) : l.erase w = [] ↔ ¬l.length > 1 := by
  rw [← List.length_eq_zero_iff, List.length_erase_of_mem hw]
  have := List.length_pos_of_mem hw
  omega

/-- A pending wait is canceled and leaves its list. -/
theorem onWaitTimeout_of_pending (h : Mailed acts c) {w : WaitTimeout}
    (hmem : w.task ∈ (box w.key acts).readers)
    (hlist : Assoc.get? c.pendingExternalEventTasks w.key = some w.list) :
    c.onWaitTimeout w =
      (c.modifyTask w.task fun x => { x with isCanceled := true, isCompleted := true }).setList w.key
        w.list ((box w.key acts).readers.erase w.task) := by
  have hnot : ¬(c.task w.task).isCompleted = true := by
    rw [(h.boxed.holds w.key).readers _ hmem]
    exact Bool.false_ne_true
  obtain ⟨hlt, hreaders, -⟩ := (h.boxed.holds w.key).list hlist
  have hset : c.waitLists.modify w.list (·.erase w.task) =
      c.waitLists.set w.list ((box w.key acts).readers.erase w.task) := by
    refine List.ext_getElem? fun i => ?_
    rw [List.getElem?_modify, List.getElem?_set]
    by_cases hi : w.list = i
    · subst hi
      rw [← hreaders]
      simp [List.getD_eq_getElem?_getD, hlt]
    · simp [hi]
  unfold onWaitTimeout setList
  rw [if_neg hnot]
  show (if (c.waitLists.getD w.list []).length > 1 then _ else _) = _
  rw [hreaders]
  by_cases hlong : (box w.key acts).readers.length > 1
  · have hne : ¬((box w.key acts).readers.erase w.task).isEmpty = true := by
      rw [List.isEmpty_iff, erase_eq_nil_iff hmem]
      exact not_not.mpr hlong
    rw [if_pos hlong, if_neg hne]
    exact congrArg (fun l => { c.modifyTask w.task _ with waitLists := l }) hset
  · have hnil : ((box w.key acts).readers.erase w.task).isEmpty = true := by
      rw [List.isEmpty_iff, erase_eq_nil_iff hmem]
      exact hlong
    rw [if_neg hlong, if_pos hnil]

/-- A pending wait is completed and leaves its list: it got an event, or it gave up. -/
theorem leave (h : Mailed acts c) {w l : Nat} {key : String} {f : CompletableTask → CompletableTask}
    (hmem : w ∈ (box key acts).readers) (hl : Assoc.get? c.pendingExternalEventTasks key = some l)
    {deliveries : List (HistoryEvent × Nat)} {gaveUp : List Nat}
    (hother : ∀ n, n ≠ key → box n acts' = box n acts)
    (hself : box key acts' =
      ⟨(box key acts).messages, (box key acts).readers.erase w, (box key acts).deliveries ++ deliveries,
        (box key acts).gaveUp ++ gaveUp⟩)
    (hdeliveries : ∀ p ∈ deliveries, w = p.2 ∧ f {} = { isCompleted := true, rawResult := raisedInput p.1 })
    (hgaveUp : ∀ w' ∈ gaveUp, w = w' ∧ f {} = { isCompleted := true, isCanceled := true }) :
    Boxed acts' ((c.modifyTask w f).setList key l ((box key acts).readers.erase w)) := by
  obtain ⟨timeout, hwaited⟩ := h.created.waited_of_reader hmem
  have hfair := h.created.fair key
  have hholds := h.boxed.holds key
  have hnodup := List.nodup_append.mp (hfair.ordered.imp Nat.ne_of_lt)
  have htask : (c.modifyTask w f).task w = f {} := by
    rw [task_modifyTask_self c w f (h.created.waited_lt hwaited), hholds.readers w hmem]
  have hreaders : (box key acts).readers.erase w = (box key acts').readers := by rw [hself]
  rw [hreaders]
  refine h.boxed.removeWait hl hother (by rw [hself]) (fun n hn w' hw' => ?_) (fun p hp => ?_)
    (fun w' hw' => ?_) fun w' hw' => ?_
  · rintro rfl
    exact hn (h.key_of_reader hwaited hw')
  · rw [hself] at hp
    rcases List.mem_append.mp hp with hp | hp
    · have hne := hnodup.2.2 p.2 (List.mem_map_of_mem hp) w hmem
      rw [task_modifyTask_of_ne c _ _ (Ne.symm hne)]
      exact hholds.delivered p hp
    · obtain ⟨hw, hf⟩ := hdeliveries p hp
      rw [← hw, htask, hf]
  · rw [hself] at hw'
    rcases List.mem_append.mp hw' with hw' | hw'
    · have hne : w ≠ w' := by
        rintro rfl
        exact hfair.disjoint _ hw' (List.mem_append_right _ hmem)
      rw [task_modifyTask_of_ne c _ _ hne]
      exact hholds.gaveUp w' hw'
    · obtain ⟨hw, hf⟩ := hgaveUp w' hw'
      rw [← hw, htask, hf]
  · rw [hself] at hw'
    obtain ⟨hne, hw'⟩ := hnodup.2.1.mem_erase_iff.mp hw'
    rw [task_modifyTask_of_ne c _ _ (Ne.symm hne)]
    exact hholds.readers w' hw'

/-- The waits that stay keep their list. -/
theorem list_of_leave {w l : Nat} {key : String} {f : CompletableTask → CompletableTask}
    (hother : ∀ n, n ≠ key → box n acts' = box n acts)
    (hself : (box key acts').readers = (box key acts).readers.erase w) {w' : Nat}
    (hw' : w' ∈ (box n acts').readers) :
    w' ∈ (box n acts).readers ∧
      Assoc.get? ((c.modifyTask w f).setList key l
        ((box key acts).readers.erase w)).pendingExternalEventTasks n =
        Assoc.get? c.pendingExternalEventTasks n := by
  by_cases hn : n = key
  · subst hn
    rw [hself] at hw'
    exact ⟨List.mem_of_mem_erase hw', by rw [get?_setList_of_mem _ _ _ hw']; rfl⟩
  · rw [hother n hn] at hw'
    exact ⟨hw', get?_setList_of_ne _ _ _ hn⟩

theorem fired_of_done (h : Mailed acts c) {w : Nat} (hlt : w + 1 < c.tasks.length)
    (hdel : ∃ k e u, Act.delivered k (w + 1) e u ∈ acts)
    (htimer : ∀ kind, Act.scheduled (w + 1) kind ∈ acts → kind = .timer)
    (hlen : c'.tasks.length = c.tasks.length)
    (hcallback : ∀ t, (c'.task t).completedCallback = (c.task t).completedCallback)
    (hlist : ∀ n w' timeout, Act.waited w' n timeout ∈ acts →
      w' ∈ ((box n acts).giveUp w).readers → w' ∈ (box n acts).readers ∧
        Assoc.get? c'.pendingExternalEventTasks n = Assoc.get? c.pendingExternalEventTasks n) :
    Timed (acts ++ [.fired w]) c' := by
  have hmem {a : Act} (ha : a ∈ acts ++ [.fired w]) (hne : a ≠ .fired w) : a ∈ acts :=
    (List.mem_append.mp ha).resolve_right fun h => hne (List.mem_singleton.mp h)
  refine ⟨fun t w' hw' => ?_, fun w' hw' => ?_⟩
  · rw [hcallback] at hw'
    obtain ⟨ht, ⟨timeout, hwaited⟩, htimer', hvalid⟩ := h.timed.callbacks t w' hw'
    refine ⟨ht, ⟨timeout, List.mem_append_left _ hwaited⟩, fun kind hk => htimer' kind (hmem hk nofun),
      fun hr => ?_⟩
    rw [box_fired] at hr
    obtain ⟨hr, hsame⟩ := hlist w'.key w'.task timeout hwaited hr
    exact hsame.trans (hvalid hr)
  · have hfacts : w' + 1 < c.tasks.length ∧ (∃ k e u, Act.delivered k (w' + 1) e u ∈ acts) ∧
        ∀ kind, Act.scheduled (w' + 1) kind ∈ acts → kind = .timer := by
      rcases List.mem_append.mp hw' with hw' | hw'
      · exact h.timed.fired w' hw'
      · cases List.mem_singleton.mp hw'
        exact ⟨hlt, hdel, htimer⟩
    obtain ⟨hlt', ⟨k, e, u, hdel'⟩, htimer'⟩ := hfacts
    exact ⟨hlen ▸ hlt', ⟨k, e, u, List.mem_append_left _ hdel'⟩,
      fun kind hk => htimer' kind (hmem hk nofun)⟩

/-- The timer of a wait fires. -/
theorem fired (h : Mailed acts c) {w : WaitTimeout} {timeout : Duration}
    (hwaited : Act.waited w.task w.key timeout ∈ acts)
    (hlist : w.task ∈ (box w.key acts).readers →
      Assoc.get? c.pendingExternalEventTasks w.key = some w.list)
    (hlt : w.task + 1 < c.tasks.length) (hdel : ∃ k e u, Act.delivered k (w.task + 1) e u ∈ acts)
    (htimer : ∀ kind, Act.scheduled (w.task + 1) kind ∈ acts → kind = .timer) :
    Mailed (acts ++ [.fired w.task]) (c.onWaitTimeout w) := by
  have hcreated := h.created.concat_none (a := .fired w.task) rfl
  have hother {n : String} (hn : n ≠ w.key) : (box n acts).giveUp w.task = box n acts :=
    if_neg fun hmem => hn (h.key_of_reader hwaited (.inl (List.mem_append_right _ hmem)))
  by_cases hmem : w.task ∈ (box w.key acts).readers
  · have hl := hlist hmem
    have hother (n : String) (hn : n ≠ w.key) : box n (acts ++ [.fired w.task]) = box n acts :=
      (box_fired ..).trans (hother hn)
    have hself : box w.key (acts ++ [.fired w.task]) =
        ⟨(box w.key acts).messages, (box w.key acts).readers.erase w.task,
          (box w.key acts).deliveries ++ [], (box w.key acts).gaveUp ++ [w.task]⟩ := by
      rw [box_fired, Mailbox.giveUp, if_pos hmem, List.append_nil]
    rw [h.onWaitTimeout_of_pending hmem hl]
    refine ⟨?_, ?_, h.fired_of_done hlt hdel htimer ?_ (fun t => ?_) fun n w' timeout' hw' hmem' => ?_⟩
    · rw [tasks_setList, length_modifyTask]
      exact hcreated
    · exact h.leave hmem hl hother hself (fun _ hp => absurd hp List.not_mem_nil)
        fun w' hw' => ⟨(List.mem_singleton.mp hw').symm, rfl⟩
    · rw [tasks_setList, length_modifyTask]
    · rw [task_setList]
      exact callback_modifyTask c _ _ (by intro x; rfl) t
    · rw [← box_fired] at hmem'
      exact list_of_leave hother (by rw [hself]) hmem'
  · have hsame (n : String) : (box n acts).giveUp w.task = box n acts := by
      by_cases hn : n = w.key
      · subst hn
        exact if_neg hmem
      · exact hother hn
    rw [h.onWaitTimeout_of_done hwaited hmem]
    refine ⟨hcreated, h.boxed.of_box fun n => (box_fired n _).trans (hsame n), ?_⟩
    refine h.fired_of_done hlt hdel htimer rfl (fun _ => rfl) fun n w' timeout' _ hw' => ?_
    rw [hsame] at hw'
    exact ⟨hw', rfl⟩

end Mailed

end Core

end DurableTask.Task
