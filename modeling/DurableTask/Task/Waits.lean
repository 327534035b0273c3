import DurableTask.Task.Mail

/-!
# Events meet waits

An event is given to the first wait for its name, or kept until one comes. With the moves of the
tasks and of the timers, every move keeps the mailboxes of a context.
-/

namespace DurableTask.Task

namespace Core

namespace Mailed

variable {acts acts' : List Act} {c c' : Core} {n key : String} {t : Nat} {env : SdkEnv}

/-! ### Events -/

theorem modifyTask_setList (c : Core) (key : String) (l : Nat) (waits : List Nat) (t : Nat)
    (f : CompletableTask → CompletableTask) :
    (c.setList key l waits).modifyTask t f = (c.modifyTask t f).setList key l waits := by
  unfold setList
  split <;> rfl

/-- The events kept for a name. -/
theorem getD_buffered (h : Mailed acts c) (n : String) :
    (Assoc.get? c.bufferedExternalEvents n).getD [] = (box n acts).messages := by
  rw [(h.boxed.holds n).buffered]
  split
  · next hnil => rw [hnil]; rfl
  · rfl

/-- An event with no wait is kept. -/
theorem onExternalEventRaised_of_none (h : Mailed acts c) (e : HistoryEvent) {er : EventRaisedEvent}
    (hkey : env.toUpper er.name = key) (hl : Assoc.get? c.pendingExternalEventTasks key = none) :
    Ctx.onExternalEventRaised env c e er =
      { c with
        bufferedExternalEvents := Assoc.insert c.bufferedExternalEvents key
          ((box key acts).messages ++ [e]) } := by
  unfold Ctx.onExternalEventRaised
  dsimp only
  rw [hkey, hl, h.getD_buffered]

/-- An event completes the first wait. -/
theorem onExternalEventRaised_of_some (h : Mailed acts c) {e : HistoryEvent} {er : EventRaisedEvent}
    (he : e.eventType = .eventRaised er) (hkey : env.toUpper er.name = key) {l w : Nat} {rest : List Nat}
    (hl : Assoc.get? c.pendingExternalEventTasks key = some l)
    (hreaders : (box key acts).readers = w :: rest) :
    Ctx.onExternalEventRaised env c e er =
      (c.modifyTask w fun x => { x with rawResult := raisedInput e, isCompleted := true }).setList
        key l rest := by
  obtain ⟨-, hlist, -⟩ := (h.boxed.holds key).list hl
  have hnone : ((c.setList key l rest).task w).completedCallback = none := by
    rw [task_setList, (h.boxed.holds key).readers w (hreaders ▸ List.mem_cons_self)]
  have hinput : raisedInput e = er.input.getD "" := by
    unfold raisedInput
    rw [he]
  rw [← modifyTask_setList, hinput, ← complete_of_none _ _ hnone]
  unfold Ctx.onExternalEventRaised
  dsimp only
  rw [hkey, hl]
  dsimp only
  rw [hlist, hreaders]
  rfl

theorem raised (h : Mailed acts c) {e : HistoryEvent} {er : EventRaisedEvent}
    (he : e.eventType = .eventRaised er) (hkey : env.toUpper er.name = key) :
    Mailed (acts ++ [.raised key e]) (Ctx.onExternalEventRaised env c e er) := by
  have hcreated := h.created.concat_none (a := .raised key e) rfl
  have hother (n : String) (hn : n ≠ key) : box n (acts ++ [.raised key e]) = box n acts :=
    box_append_none (by simp [Act.mail?, hn.symm])
  have hmem {a : Act} (ha : a ∈ acts ++ [.raised key e]) (hne : a ≠ .raised key e) : a ∈ acts :=
    (List.mem_append.mp ha).resolve_right fun h => hne (List.mem_singleton.mp h)
  have hholds := h.boxed.holds key
  rcases hl : Assoc.get? c.pendingExternalEventTasks key with _ | l
  · have hreaders : (box key acts).readers = [] := by
      by_contra hne
      obtain ⟨l, hl', -⟩ := hholds.lists hne
      rw [hl] at hl'
      cases hl'
    have hself : box key (acts ++ [.raised key e]) = _ :=
      (box_raised key e).trans (Mailbox.post_of_nil hreaders e)
    rw [h.onExternalEventRaised_of_none e hkey hl]
    refine ⟨hcreated, ⟨Assoc.insert_nodup h.boxed.keys _ _, h.boxed.distinct, fun n => ?_⟩, ?_⟩
    · by_cases hn : n = key
      · subst hn
        rw [hself]
        refine ⟨?_, hholds.pending, hholds.lists, hholds.delivered, hholds.gaveUp, hholds.readers⟩
        rw [if_neg (by simp)]
        exact Assoc.get?_insert_self ..
      · rw [hother n hn]
        exact (h.boxed.holds n).congr (Assoc.get?_insert_of_ne (Ne.symm hn)) rfl
          (fun _ _ hlt => ⟨hlt, rfl⟩) fun _ _ => rfl
    · refine h.timed.update (fun a ha => List.mem_append_left _ ha) (fun t kind ht _ => hmem ht (by rintro ⟨⟩))
        (fun w hw => hmem hw (by rintro ⟨⟩)) (Nat.le_refl _) (fun _ _ hw => hw) fun n w timeout _ hw => ⟨?_, rfl⟩
      by_cases hn : n = key
      · subst hn
        rwa [hself] at hw
      · rwa [hother n hn] at hw
  · obtain ⟨w, rest, hreaders⟩ := List.exists_cons_of_ne_nil (hholds.list hl).2.2
    have hrest : (box key acts).readers.erase w = rest := by rw [hreaders, List.erase_cons_head]
    have hself : box key (acts ++ [.raised key e]) =
        ⟨(box key acts).messages, (box key acts).readers.erase w, (box key acts).deliveries ++ [(e, w)],
          (box key acts).gaveUp ++ []⟩ := by
      rw [box_raised, Mailbox.post_of_cons hreaders, hrest, List.append_nil]
    rw [h.onExternalEventRaised_of_some he hkey hl hreaders, ← hrest]
    refine ⟨?_, ?_, ?_⟩
    · rw [tasks_setList, length_modifyTask]
      exact hcreated
    · refine h.leave (hreaders ▸ List.mem_cons_self) hl hother hself (fun p hp => ?_)
        fun _ hw => absurd hw List.not_mem_nil
      rw [List.mem_singleton.mp hp]
      exact ⟨rfl, rfl⟩
    · refine h.timed.update (fun a ha => List.mem_append_left _ ha) (fun t kind ht _ => hmem ht (by rintro ⟨⟩))
        (fun w hw => hmem hw (by rintro ⟨⟩)) ?_ (fun t w' hw' => ?_)
        fun n w' timeout _ hw' => list_of_leave hother (by rw [hself]) hw'
      · rw [tasks_setList, length_modifyTask]
      · rwa [task_setList, callback_modifyTask c _ _ (by intro x; rfl)] at hw'

/-! ### Waits -/

theorem box_waited_of_ne (hn : n ≠ key) (timeout : Duration) :
    box n (acts ++ [.waited t key timeout]) = box n acts :=
  box_append_none (by simp [Act.mail?, hn.symm])

/-- A new wait touches the mailbox of its name only. -/
theorem waited (h : Mailed acts c) {timeout : Duration} (hlen : c'.tasks.length = c.tasks.length + 1)
    (htask : ∀ t < c.tasks.length, c'.task t = c.task t)
    (hnew : (c'.task c.tasks.length).completedCallback = none)
    (hkeys : (c'.bufferedExternalEvents.map Prod.fst).Nodup)
    (hdistinct : ∀ n n' l, Assoc.get? c'.pendingExternalEventTasks n = some l →
      Assoc.get? c'.pendingExternalEventTasks n' = some l → n = n')
    (hother : ∀ n, n ≠ key →
      Assoc.get? c'.bufferedExternalEvents n = Assoc.get? c.bufferedExternalEvents n ∧
      Assoc.get? c'.pendingExternalEventTasks n = Assoc.get? c.pendingExternalEventTasks n)
    (hlists : ∀ l < c.waitLists.length, Assoc.get? c.pendingExternalEventTasks key ≠ some l →
      l < c'.waitLists.length ∧ c'.waitLists.getD l [] = c.waitLists.getD l [])
    (hself : Holds (box key (acts ++ [.waited c.tasks.length key timeout])) key c')
    (hlist : ∀ w < c.tasks.length, w ∈ (box key (acts ++ [.waited c.tasks.length key timeout])).readers →
      w ∈ (box key acts).readers ∧
        Assoc.get? c'.pendingExternalEventTasks key = Assoc.get? c.pendingExternalEventTasks key) :
    Mailed (acts ++ [.waited c.tasks.length key timeout]) c' := by
  have hmem {a : Act} (ha : a ∈ acts ++ [.waited c.tasks.length key timeout])
      (hne : a ≠ .waited c.tasks.length key timeout) : a ∈ acts :=
    (List.mem_append.mp ha).resolve_right fun h => hne (List.mem_singleton.mp h)
  refine ⟨hlen ▸ h.created.concat_some rfl, ⟨hkeys, hdistinct, fun n => ?_⟩, ?_⟩
  · by_cases hn : n = key
    · rw [hn]
      exact hself
    · rw [box_waited_of_ne hn]
      refine (h.boxed.holds n).congr (hother n hn).1 (hother n hn).2 (fun l hl hlt => ?_) fun w hw => ?_
      · exact hlists l hlt fun hl' => hn (h.boxed.distinct n key l hl hl')
      · obtain ⟨timeout', hw⟩ := h.created.waited_iff.mpr hw
        exact htask w (h.created.waited_lt hw)
  · refine h.timed.update (fun a ha => List.mem_append_left _ ha) (fun t kind ht _ => hmem ht nofun)
      (fun w hw => hmem hw nofun) (hlen ▸ Nat.le_succ _) (fun t w hw => ?_) fun n w timeout' hw hr => ?_
    · rcases Nat.lt_succ_iff_lt_or_eq.mp (hlen ▸ lt_of_callback hw) with hlt | rfl
      · rwa [htask t hlt] at hw
      · rw [hnew] at hw
        cases hw
    · by_cases hn : n = key
      · subst hn
        exact hlist w (h.created.waited_lt hw) hr
      · rw [box_waited_of_ne hn] at hr
        exact ⟨hr, (hother n hn).2⟩

/-- The wait is complete when it is made, so only its task and the kept events change. -/
theorem waited_at_once (h : Mailed acts c) {timeout : Duration} {f : CompletableTask → CompletableTask}
    (hf : (f {}).completedCallback = none) {events : List (String × List HistoryEvent)}
    (hkeys : (events.map Prod.fst).Nodup)
    (hother : ∀ n, n ≠ key → Assoc.get? events n = Assoc.get? c.bufferedExternalEvents n)
    {messages : List HistoryEvent} {deliveries : List (HistoryEvent × Nat)} {gaveUp : List Nat}
    (hbox : box key (acts ++ [.waited c.tasks.length key timeout]) =
      ⟨messages, (box key acts).readers, (box key acts).deliveries ++ deliveries,
        (box key acts).gaveUp ++ gaveUp⟩)
    (hevents : Assoc.get? events key = if messages = [] then none else some messages)
    (hdeliveries : ∀ p ∈ deliveries, c.tasks.length = p.2 ∧
      f {} = { isCompleted := true, rawResult := raisedInput p.1 })
    (hgaveUp : ∀ w ∈ gaveUp, c.tasks.length = w ∧ f {} = { isCompleted := true, isCanceled := true }) :
    Mailed (acts ++ [.waited c.tasks.length key timeout])
      { c.newTask.1.modifyTask c.tasks.length f with bufferedExternalEvents := events } := by
  have hlt : c.tasks.length < c.newTask.1.tasks.length := length_newTask c ▸ Nat.lt_succ_self _
  have hnew : (c.newTask.1.modifyTask c.tasks.length f).task c.tasks.length = f {} := by
    rw [task_modifyTask_self _ _ f hlt, task_newTask_self]
  have hold {t : Nat} (ht : t < c.tasks.length) :
      (c.newTask.1.modifyTask c.tasks.length f).task t = c.task t := by
    rw [task_modifyTask_of_ne _ _ f (Nat.ne_of_gt ht), task_newTask c ht]
  have hwait {w : Nat} (hw : w ∈ (box key acts).deliveries.map Prod.snd ++ (box key acts).readers ∨
      w ∈ (box key acts).gaveUp) : (c.newTask.1.modifyTask c.tasks.length f).task w = c.task w := by
    obtain ⟨timeout', hw⟩ := h.created.waited_iff.mpr hw
    exact hold (h.created.waited_lt hw)
  have hholds := h.boxed.holds key
  refine h.waited ?_ (fun t ht => hold ht) (hnew ▸ hf) hkeys h.boxed.distinct
    (fun n hn => ⟨hother n hn, rfl⟩) (fun l hlt _ => ⟨hlt, rfl⟩) ?_ fun w _ hw => ⟨?_, rfl⟩
  · show (c.newTask.1.modifyTask c.tasks.length f).tasks.length = _
    rw [length_modifyTask, length_newTask]
  · rw [hbox]
    refine ⟨hevents, hholds.pending, hholds.lists, fun p hp => ?_, fun w hw => ?_, fun w hw => ?_⟩
    · rcases List.mem_append.mp hp with hp | hp
      · exact (hwait (.inl (List.mem_append_left _ (List.mem_map_of_mem hp)))).trans
          (hholds.delivered p hp)
      · obtain ⟨hw, hfp⟩ := hdeliveries p hp
        rw [← hw]
        exact hnew.trans hfp
    · rcases List.mem_append.mp hw with hw | hw
      · exact (hwait (.inr hw)).trans (hholds.gaveUp w hw)
      · obtain ⟨hw, hfw⟩ := hgaveUp w hw
        rw [← hw]
        exact hnew.trans hfw
    · exact (hwait (.inl (List.mem_append_right _ hw))).trans (hholds.readers w hw)
  · rwa [hbox] at hw

/-- The first kept event completes a new wait. -/
theorem took (h : Mailed acts c) (timeout : Duration) {e : HistoryEvent} {rest : List HistoryEvent}
    (hbuf : Assoc.get? c.bufferedExternalEvents key = some (e :: rest)) :
    Mailed (acts ++ [.waited c.tasks.length key timeout])
      (Ctx.takeBufferedEvent c.newTask.1 key e rest c.tasks.length) := by
  have hmessages : (box key acts).messages = e :: rest := by
    rw [← h.getD_buffered, hbuf]
    rfl
  have hbox : box key (acts ++ [.waited c.tasks.length key timeout]) =
      ⟨rest, (box key acts).readers, (box key acts).deliveries ++ [(e, c.tasks.length)],
        (box key acts).gaveUp ++ []⟩ := by
    rw [box_waited, Mailbox.read_of_cons hmessages, List.append_nil]
  have hnone (events : List (String × List HistoryEvent)) :
      (({ c.newTask.1 with bufferedExternalEvents := events } : Core).task
        c.tasks.length).completedCallback = none :=
    congrArg CompletableTask.completedCallback (task_newTask_self c)
  unfold Ctx.takeBufferedEvent
  dsimp only
  rw [complete_of_none _ _ (hnone _)]
  refine h.waited_at_once (f := fun x => { x with rawResult := raisedInput e, isCompleted := true })
    rfl ?_ (fun n hn => ?_) hbox ?_ (fun p hp => ?_) fun _ hw => absurd hw List.not_mem_nil
  · split
    · exact Assoc.erase_nodup h.boxed.keys
    · exact Assoc.insert_nodup h.boxed.keys _ _
  · split
    · exact Assoc.get?_erase_of_ne (Ne.symm hn)
    · exact Assoc.get?_insert_of_ne (Ne.symm hn)
  · simp only [List.isEmpty_iff]
    split
    · exact Assoc.get?_erase_self ..
    · exact Assoc.get?_insert_self ..
  · rw [List.mem_singleton.mp hp]
    exact ⟨rfl, rfl⟩

theorem messages_of_ne_cons (h : Mailed acts c)
    (hbuf : ∀ e rest, Assoc.get? c.bufferedExternalEvents key ≠ some (e :: rest)) :
    (box key acts).messages = [] := by
  rcases hm : (box key acts).messages with _ | ⟨e, rest⟩
  · rfl
  · refine absurd ?_ (hbuf e rest)
    rw [(h.boxed.holds key).buffered, hm, if_neg (List.cons_ne_nil e rest)]

/-- A wait with timeout zero gives up when there is no event. -/
theorem canceled (h : Mailed acts c)
    (hbuf : ∀ e rest, Assoc.get? c.bufferedExternalEvents key ≠ some (e :: rest)) :
    Mailed (acts ++ [.waited c.tasks.length key 0]) (c.newTask.1.cancel c.tasks.length) := by
  have hmessages := h.messages_of_ne_cons hbuf
  have hbox : box key (acts ++ [.waited c.tasks.length key 0]) =
      ⟨[], (box key acts).readers, (box key acts).deliveries ++ [],
        (box key acts).gaveUp ++ [c.tasks.length]⟩ := by
    rw [box_waited, Mailbox.read_of_nil hmessages, ← hmessages, List.append_nil]
    rfl
  rw [cancel_of_none _ _ (congrArg CompletableTask.completedCallback (task_newTask_self c))]
  refine h.waited_at_once (f := fun x => { x with isCanceled := true, isCompleted := true }) rfl
    h.boxed.keys (fun _ _ => rfl) hbox ?_ (fun _ hp => absurd hp List.not_mem_nil) fun w hw => ?_
  · have hbuffered := (h.boxed.holds key).buffered
    rw [hmessages] at hbuffered
    exact hbuffered
  · exact ⟨(List.mem_singleton.mp hw).symm, rfl⟩

theorem core_waiting_of_none {c : Ctx} {eventName : String} (hkey : env.toUpper eventName = key)
    (hl : Assoc.get? c.core.pendingExternalEventTasks key = none) :
    (c.waiting env eventName).core =
      { c.core.newTask.1 with
        waitLists := c.core.waitLists ++ [[c.core.tasks.length]]
        pendingExternalEventTasks := Assoc.insert c.core.pendingExternalEventTasks key
          c.core.waitLists.length } := by
  have hl : Assoc.get? c.core.newTask.1.pendingExternalEventTasks key = none := hl
  unfold Ctx.waiting Ctx.addWaiter
  dsimp only
  rw [hkey, hl]
  rfl

theorem core_waiting_of_some {c : Ctx} {eventName : String} (hkey : env.toUpper eventName = key) {l : Nat}
    (hl : Assoc.get? c.core.pendingExternalEventTasks key = some l) :
    (c.waiting env eventName).core =
      { c.core.newTask.1 with
        waitLists := c.core.waitLists.modify l (· ++ [c.core.tasks.length]) } := by
  have hl : Assoc.get? c.core.newTask.1.pendingExternalEventTasks key = some l := hl
  unfold Ctx.waiting Ctx.addWaiter
  dsimp only
  rw [hkey, hl]
  rfl

/-- A wait that finds no event is put at the end of the list of its name. -/
theorem waiting {c : Ctx} (h : Mailed acts c.core) {eventName : String} {timeout : Duration}
    (hkey : env.toUpper eventName = key) (htimeout : timeout ≠ 0)
    (hbuf : ∀ e rest, Assoc.get? c.core.bufferedExternalEvents key ≠ some (e :: rest)) :
    Mailed (acts ++ [.waited c.core.tasks.length key timeout]) (c.waiting env eventName).core := by
  have hmessages := h.messages_of_ne_cons hbuf
  have hholds := h.boxed.holds key
  have hbox : box key (acts ++ [.waited c.core.tasks.length key timeout]) =
      ⟨[], (box key acts).readers ++ [c.core.tasks.length], (box key acts).deliveries,
        (box key acts).gaveUp⟩ := by
    rw [box_waited, Mailbox.read_of_nil hmessages, ← hmessages, decide_eq_true htimeout]
    rfl
  have hbuffered : Assoc.get? c.core.bufferedExternalEvents key = none := by
    rw [hholds.buffered, if_pos hmessages]
  have hold {t : Nat} (ht : t < c.core.tasks.length) : c.core.newTask.1.task t = c.core.task t :=
    task_newTask c.core ht
  have hnew := task_newTask_self c.core
  have hwait {w : Nat} (hw : w ∈ (box key acts).deliveries.map Prod.snd ++ (box key acts).readers ∨
      w ∈ (box key acts).gaveUp) : c.core.newTask.1.task w = c.core.task w := by
    obtain ⟨timeout', hw⟩ := h.created.waited_iff.mpr hw
    exact hold (h.created.waited_lt hw)
  -- The tasks are those with the new one, whichever list the wait is put in.
  have hself {c' : Core} (hbuf' : c'.bufferedExternalEvents = c.core.bufferedExternalEvents)
      (htasks : c'.tasks = c.core.newTask.1.tasks)
      (hlists : ∃ l, Assoc.get? c'.pendingExternalEventTasks key = some l ∧ l < c'.waitLists.length ∧
        c'.waitLists.getD l [] = (box key acts).readers ++ [c.core.tasks.length]) :
      Holds (box key (acts ++ [.waited c.core.tasks.length key timeout])) key c' := by
    have htask (t : Nat) : c'.task t = c.core.newTask.1.task t := by
      unfold task
      rw [htasks]
    rw [hbox]
    refine ⟨by rw [hbuf']; exact hbuffered, fun hnil => ?_, fun _ => hlists, fun p hp => ?_,
      fun w hw => ?_, fun w hw => ?_⟩
    · exact absurd hnil (List.append_ne_nil_of_right_ne_nil _ (List.cons_ne_nil _ _))
    · rw [htask, hwait (.inl (List.mem_append_left _ (List.mem_map_of_mem hp)))]
      exact hholds.delivered p hp
    · rw [htask, hwait (.inr hw)]
      exact hholds.gaveUp w hw
    · rcases List.mem_append.mp hw with hw | hw
      · rw [htask, hwait (.inl (List.mem_append_right _ hw))]
        exact hholds.readers w hw
      · rw [List.mem_singleton.mp hw, htask]
        exact hnew
  have hreaders {w : Nat} (hlt : w < c.core.tasks.length)
      (hw : w ∈ (box key (acts ++ [.waited c.core.tasks.length key timeout])).readers) :
      w ∈ (box key acts).readers := by
    rw [hbox] at hw
    refine (List.mem_append.mp hw).resolve_right fun hw => ?_
    rw [List.mem_singleton.mp hw] at hlt
    exact Nat.lt_irrefl _ hlt
  rcases hl : Assoc.get? c.core.pendingExternalEventTasks key with _ | l
  · have hnil : (box key acts).readers = [] := by
      by_contra hne
      obtain ⟨l, hl', -⟩ := hholds.lists hne
      rw [hl] at hl'
      cases hl'
    -- No list has the number of the new one.
    have hfresh (n : String) : Assoc.get? c.core.pendingExternalEventTasks n ≠
        some c.core.waitLists.length := fun hn =>
      Nat.lt_irrefl _ ((h.boxed.holds n).list hn).1
    rw [core_waiting_of_none hkey hl]
    refine h.waited (length_newTask c.core) (fun t ht => hold ht)
      (congrArg CompletableTask.completedCallback hnew) h.boxed.keys (fun n n' l hn hn' => ?_)
      (fun n hn => ⟨rfl, Assoc.get?_insert_of_ne (Ne.symm hn)⟩) (fun l hlt _ => ?_) ?_ fun w hlt hw => ?_
    · -- Two names with one list are both new or both old.
      by_cases hnk : n = key <;> by_cases hnk' : n' = key
      · rw [hnk, hnk']
      · rw [hnk, Assoc.get?_insert_self] at hn
        rw [Assoc.get?_insert_of_ne (Ne.symm hnk'), ← hn] at hn'
        exact absurd hn' (hfresh n')
      · rw [hnk', Assoc.get?_insert_self] at hn'
        rw [Assoc.get?_insert_of_ne (Ne.symm hnk), ← hn'] at hn
        exact absurd hn (hfresh n)
      · rw [Assoc.get?_insert_of_ne (Ne.symm hnk)] at hn
        rw [Assoc.get?_insert_of_ne (Ne.symm hnk')] at hn'
        exact h.boxed.distinct n n' l hn hn'
    · refine ⟨by simpa using Nat.lt_succ_of_lt hlt, ?_⟩
      simp [List.getD_eq_getElem?_getD, List.getElem?_append_left hlt]
    · refine hself rfl rfl ⟨c.core.waitLists.length, Assoc.get?_insert_self .., by simp, ?_⟩
      rw [hnil]
      simp [List.getD_eq_getElem?_getD]
    · have hw := hreaders hlt hw
      rw [hnil] at hw
      cases hw
  · rw [core_waiting_of_some hkey hl]
    obtain ⟨hllt, hreads, -⟩ := hholds.list hl
    refine h.waited (length_newTask c.core) (fun t ht => hold ht)
      (congrArg CompletableTask.completedCallback hnew) h.boxed.keys h.boxed.distinct
      (fun n hn => ⟨rfl, rfl⟩) (fun l' hlt hne => ?_) (hself rfl rfl ⟨l, hl, ?_, ?_⟩)
      fun w hlt hw => ⟨hreaders hlt hw, rfl⟩
    · have hne : l ≠ l' := by
        rintro rfl
        exact hne hl
      refine ⟨by simpa using hlt, ?_⟩
      simp [List.getD_eq_getElem?_getD, hne]
    · simpa using hllt
    · rw [← hreads]
      simp [List.getD_eq_getElem?_getD, hllt]

/-! ### Moves -/

/-- A wait that is pending is in its list. -/
theorem reader_of_list (h : Mailed acts c) {w : WaitTimeout}
    (hlist : Assoc.get? c.pendingExternalEventTasks w.key = some w.list)
    (hmem : w.list < c.waitLists.length → w.task ∈ c.waitLists.getD w.list []) :
    w.task ∈ (box w.key acts).readers := by
  obtain ⟨hlt, hreaders, -⟩ := (h.boxed.holds w.key).list hlist
  exact hreaders ▸ hmem hlt

/-- A task that does not exist yet is neither a wait nor other work. -/
theorem new_task (h : Mailed acts c) :
    (∀ n timeout, Act.waited c.tasks.length n timeout ∉ acts) ∧
      ∀ kind, Act.scheduled c.tasks.length kind ∉ acts :=
  ⟨fun _ _ hw => Nat.lt_irrefl _ (h.created.waited_lt hw),
    fun _ ht => Nat.lt_irrefl _ (h.created.scheduled_lt ht)⟩

/-- A task is scheduled once, so the work of a new timer is a timer. -/
theorem timer_of_new (h : Mailed acts c) {kind : Kind}
    (hk : Act.scheduled c.tasks.length kind ∈ acts ++ [.scheduled c.tasks.length .timer]) :
    kind = .timer := by
  rcases List.mem_append.mp hk with hk | hk
  · exact absurd hk (h.new_task.2 kind)
  · cases List.mem_singleton.mp hk
    rfl

theorem onCompleted_newTask (c : Core) (w : WaitTimeout) :
    c.newTask.1.onCompleted c.tasks.length w =
      c.newTask.1.modifyTask c.tasks.length fun x => { x with completedCallback := some w } := by
  have hnot : ¬(c.newTask.1.task c.tasks.length).isCompleted = true := by
    rw [task_newTask_self]
    exact Bool.false_ne_true
  unfold onCompleted
  rw [if_neg hnot]

/-- Every move keeps the mailboxes, if no resolution is given to a wait. -/
theorem of_moves {moved : List Act} (hmoves : Core.Moves env c moved c') :
    ∀ {acts : List Act}, Mailed acts c →
      (∀ k t e u, Act.delivered k t e u ∈ moved → ∀ n timeout, Act.waited t n timeout ∉ acts ++ moved) →
      Mailed (acts ++ moved) c' := by
  induction hmoves with
  | append _ _ ih ih' =>
    intro acts h hdel
    rw [← List.append_assoc]
    refine ih' (ih h fun k t e u hmem n timeout hw => ?_) fun k t e u hmem n timeout hw => ?_
    · refine hdel k t e u (List.mem_append_left _ hmem) n timeout ?_
      rw [← List.append_assoc]
      exact List.mem_append_left _ hw
    · refine hdel k t e u (List.mem_append_right _ hmem) n timeout ?_
      rwa [List.append_assoc] at hw
  | same hmail hidle =>
    intro acts h _
    refine (h.same hmail).quiet fun a ha => ?_
    have := hidle a ha
    cases a <;> first | rfl | cases this
  | failedTask c fd =>
    intro acts h _
    rw [List.append_nil]
    have hnone := congrArg CompletableTask.completedCallback (task_newTask_self c)
    show Mailed acts (c.newTask.1.fail c.tasks.length (some fd))
    rw [fail_of_none _ _ hnone]
    exact h.newTask.modifyTask h.new_task.1 (by intro x; rfl)
  | scheduled c kind => exact fun h _ => h.scheduled kind
  | delivered c k t e u =>
    intro acts h hdel
    have hnot (n : String) (timeout : Duration) : Act.waited t n timeout ∉ acts := fun hw =>
      hdel k t e u List.mem_cons_self n timeout (List.mem_append_left _ hw)
    have hdone : Mailed (acts ++ [.delivered k t e u]) (c.modifyTask t (·.resolvedBy e)) :=
      (h.modifyTask hnot (CompletableTask.completedCallback_resolvedBy e)).quiet (by simp [Act.isQuiet])
    rw [← List.singleton_append, ← List.append_assoc, resolve_eq]
    unfold firing
    rcases hw : (c.task t).completedCallback with _ | w
    · rw [Option.map_none, Option.toList_none, List.append_nil]
      exact hdone
    · obtain ⟨ht, ⟨timeout, hwaited⟩, htimer, hlist⟩ := h.timed.callbacks t w hw
      have hbox : box w.key (acts ++ [.delivered k t e u]) = box w.key acts :=
        box_append_none (by simp [Act.mail?])
      have hlt := lt_of_callback hw
      subst ht
      refine hdone.fired (List.mem_append_left _ hwaited) (fun hr => hlist (hbox ▸ hr)) ?_
        ⟨k, e, u, List.mem_append_right _ List.mem_cons_self⟩ fun kind hk => htimer kind ?_
      · rw [length_modifyTask]
        exact hlt
      · simpa using hk
  | raised c e er he => exact fun h _ => h.raised he rfl
  | took c key timeout hbuf => exact fun h _ => h.took timeout hbuf
  | canceled c key hbuf => exact fun h _ => h.canceled hbuf
  | waiting c eventName htimeout hbuf => exact fun h _ => h.waiting rfl htimeout hbuf
  | noWaitTimer c hw hlist hmem =>
    intro acts h _
    rw [List.append_nil, onCompleted_newTask]
    refine h.newTask.setCallback hw h.new_task.1 ?_ (fun kind hk => absurd hk (h.new_task.2 kind)) hlist
    exact h.created.waited_of_reader (h.reader_of_list hlist hmem)
  | waitTimer c hw hlist hmem =>
    intro acts h _
    obtain ⟨timeout, hwaited⟩ := h.created.waited_of_reader (h.reader_of_list hlist hmem)
    rw [onCompleted_newTask]
    refine (h.scheduled .timer).setCallback hw (fun n timeout hw' => ?_)
      ⟨timeout, List.mem_append_left _ hwaited⟩ (fun kind hk => h.timer_of_new hk) hlist
    exact h.new_task.1 n timeout (by simpa using hw')
  | @waitTimerFired c w hw hlist hmem k e u =>
    intro acts h _
    have hreader := h.reader_of_list hlist hmem
    obtain ⟨timeout, hwaited⟩ := h.created.waited_of_reader hreader
    have hdone : Mailed (acts ++ [.scheduled c.tasks.length .timer] ++ [.delivered k c.tasks.length e u])
        (c.newTask.1.modifyTask c.tasks.length (·.resolvedBy e)) := by
      refine ((h.scheduled .timer).modifyTask (fun n timeout hw' => ?_)
        (CompletableTask.completedCallback_resolvedBy e)).quiet (by simp [Act.isQuiet])
      exact h.new_task.1 n timeout (by simpa using hw')
    have hassoc : acts ++ [.scheduled c.tasks.length .timer, .delivered k c.tasks.length e u,
        .fired w.task] = acts ++ [.scheduled c.tasks.length .timer] ++
          [.delivered k c.tasks.length e u] ++ [.fired w.task] := by simp
    rw [hassoc, resolve_eq, task_newTask_self]
    refine hdone.fired (List.mem_append_left _ (List.mem_append_left _ hwaited)) (fun _ => hlist) ?_
      ⟨k, e, u, ?_⟩ fun kind hk => ?_
    · rw [length_modifyTask, length_newTask, ← hw]
      exact Nat.lt_succ_self _
    · rw [← hw]
      exact List.mem_append_right _ List.mem_cons_self
    · rw [← hw] at hk
      exact h.timer_of_new (by simpa using hk)

end Mailed

end Core

end DurableTask.Task
