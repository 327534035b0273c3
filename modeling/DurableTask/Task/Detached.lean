import DurableTask.Task.Schedules

/-!
# Detached workflows in histories of the earlier release

An indefinite wait has a timer that the earlier release did not have. `onTaskScheduled`,
`onChildWorkflowScheduled` and `onTimerCreated` drop any number of such timers when the history has an
action where they are pending; `onDetachedWorkflowCreated` drops one.
-/

namespace DurableTask.Task

/-! ### Workflow code appends to the pending actions -/

/-- The pending actions, as far as matching them with the history goes. -/
def Pending.entries (p : Pending) : List (ActionID × Entry) :=
  p.pendingActions.map fun x => (x.1, x.2.entry)

/-- Pending actions have ids that were handed out. -/
def Pending.Issued (p : Pending) : Prop := ∀ x ∈ p.pendingActions, x.1 < p.sequenceNumber

namespace Pending

variable {p : Pending}

theorem issued_notMem (h : p.Issued) : p.sequenceNumber ∉ p.pendingActions.map Prod.fst := by
  intro hmem
  obtain ⟨x, hx, hid⟩ := List.mem_map.mp hmem
  exact absurd (h x hx) (by rw [hid]; exact Int.lt_irrefl _)

theorem entries_addAction (h : p.Issued) (actionType : WorkflowActionType)
    (router : Option TaskRouter) (task : Option Nat) :
    (p.addAction actionType router task).1.entries =
        p.entries ++ [(p.sequenceNumber,
          (⟨⟨p.sequenceNumber, actionType, router⟩, task⟩ : PendingAction).entry)] ∧
      (p.addAction actionType router task).1.Issued := by
  have heq : (p.addAction actionType router task).1.pendingActions =
      p.pendingActions ++ [(p.sequenceNumber, ⟨⟨p.sequenceNumber, actionType, router⟩, task⟩)] :=
    Assoc.insert_of_notMem (issued_notMem h)
  constructor
  · unfold entries
    rw [heq, List.map_append]
    rfl
  · intro x hx
    rw [heq] at hx
    show x.1 < p.sequenceNumber + 1
    rcases List.mem_append.mp hx with hx | hx
    · exact Int.lt_add_one_of_le (Int.le_of_lt (h x hx))
    · rw [List.mem_singleton.mp hx]
      exact Int.lt_add_one_of_le (Int.le_refl _)

theorem entries_restore (p : Pending) (id : ActionID) (executionID : String) :
    (p.restoreActivityScheduleIdentity id executionID).entries = p.entries := by
  unfold entries restoreActivityScheduleIdentity Assoc.modify
  rw [List.map_map]
  refine List.map_congr_left fun x _ => ?_
  rcases x with ⟨key, ⟨⟨id', actionType, router⟩, task⟩⟩
  simp only [Function.comp_apply]
  split
  · cases actionType <;> cases task <;> rfl
  · rfl

theorem entries_resolve (p : Pending) (k : Kind × ActionID) (e : HistoryEvent) :
    (p.resolve k e).entries = p.entries := by
  unfold resolve
  dsimp only
  split
  · exact entries_restore _ _ _
  · rfl

/-- Whether ids were handed out is a matter of the entries. -/
theorem issued_of_entries {p' : Pending} (h : p.Issued) (he : p'.entries = p.entries)
    (hs : p'.sequenceNumber = p.sequenceNumber) : p'.Issued := by
  intro x hx
  have hmem : (x.1, x.2.entry) ∈ p.entries := by
    rw [← he]
    exact List.mem_map.mpr ⟨x, hx, rfl⟩
  obtain ⟨y, hy, hxy⟩ := List.mem_map.mp hmem
  have hid : y.1 = x.1 := (Prod.mk.inj hxy).1
  rw [hs, ← hid]
  exact h y hy

end Pending

theorem Ctx.entries_consumeBufferedResolution (c : Ctx) (k : Kind × ActionID) :
    (c.consumeBufferedResolution k).pend.entries = c.pend.entries ∧
      (c.consumeBufferedResolution k).pend.sequenceNumber = c.pend.sequenceNumber := by
  have hresolve (p : Pending) (e : HistoryEvent) :
      (p.resolve k e).sequenceNumber = p.sequenceNumber := by
    unfold Pending.resolve
    dsimp only
    split <;> rfl
  unfold consumeBufferedResolution
  split
  · exact ⟨rfl, rfl⟩
  · split
    · exact ⟨rfl, rfl⟩
    · unfold onResolution
      split
      · unfold Pending.bufferResolution
        dsimp only
        split <;> exact ⟨rfl, rfl⟩
      · exact ⟨Pending.entries_resolve _ _ _, hresolve _ _⟩

theorem Ctx.entries_register {c : Ctx} (h : c.pend.Issued) (actionType : WorkflowActionType)
    (router : Option TaskRouter) (kind : Kind) :
    (c.register actionType router kind).1.pend.entries =
        c.pend.entries ++ [(c.pend.sequenceNumber,
          (⟨⟨c.pend.sequenceNumber, actionType, router⟩, some c.core.tasks.length⟩ :
            PendingAction).entry)] ∧
      (c.register actionType router kind).1.pend.Issued ∧
      (c.register actionType router kind).2.2 = c.pend.sequenceNumber := by
  obtain ⟨hadd, hissued⟩ := Pending.entries_addAction h actionType router (some c.core.tasks.length)
  have hnote (p : Pending) (id : ActionID) (a : WorkflowAction) :
      (p.noteOptional id a).entries = p.entries ∧
        (p.noteOptional id a).sequenceNumber = p.sequenceNumber := by
    unfold Pending.noteOptional
    split <;> exact ⟨rfl, rfl⟩
  unfold register
  dsimp only
  obtain ⟨hcons, hseq⟩ := entries_consumeBufferedResolution
    { c with
      core := c.core.newTask.1
      pend := (((c.pend.addAction actionType router (some c.core.newTask.2)).1.noteOptional
        (c.pend.addAction actionType router (some c.core.newTask.2)).2
        ⟨(c.pend.addAction actionType router (some c.core.newTask.2)).2, actionType, router⟩).addTask
          (c.pend.addAction actionType router (some c.core.newTask.2)).2 kind c.core.newTask.2) }
    (kind, (c.pend.addAction actionType router (some c.core.newTask.2)).2)
  refine ⟨hcons.trans ((hnote _ _ _).1.trans hadd),
    Pending.issued_of_entries hissued (hcons.trans (hnote _ _ _).1) (hseq.trans (hnote _ _ _).2), rfl⟩

/-- The timer of an indefinite wait. -/
theorem Ctx.entries_indefiniteTimer {c : Ctx} (h : c.pend.Issued) (eventName : String) :
    (c.createExternalEventTimerInternal eventName externalEventIndefiniteFireAt).1.pend.Issued ∧
      ∃ o, o.2.isOptional = true ∧
        (c.createExternalEventTimerInternal eventName
          externalEventIndefiniteFireAt).1.pend.entries = c.pend.entries ++ [o] := by
  obtain ⟨he, hi, -⟩ := entries_register h (.createTimer
    { fireAt := externalEventIndefiniteFireAt, name := some eventName
      origin := some (.externalEvent eventName) }) none .timer
  exact ⟨hi, _, rfl, he⟩

/-- The origin of a new timer is set before anything else happens to it. -/
theorem Ctx.entries_setTimerOrigin {c : Ctx} {xs : List (ActionID × Entry)} {x : ActionID × Entry}
    (h : c.pend.entries = xs ++ [x]) (hxs : ∀ y ∈ xs, y.1 < x.1) (hist : Hist) (i : Nat)
    (executionID : String) :
    ∃ x', (c.setTimerOrigin hist i x.1 executionID).pend.entries = xs ++ [x'] := by
  unfold Pending.entries at h
  obtain ⟨l, r, hlr, hl, hr⟩ := List.map_eq_append_iff.mp h
  obtain ⟨y, rfl, hy⟩ := List.map_eq_singleton_iff.mp hr
  have hold : ∀ z ∈ l, z.1 ≠ x.1 := by
    intro z hz heq
    have := hxs (z.1, z.2.entry) (hl ▸ List.mem_map.mpr ⟨z, hz, rfl⟩)
    rw [heq] at this
    exact Int.lt_irrefl _ this
  unfold setTimerOrigin Pending.entries Assoc.modify
  dsimp only
  rw [hlr, List.map_map, List.map_append]
  refine ⟨_, congrArg₂ (· ++ ·) ?_ rfl⟩
  rw [← hl]
  refine List.map_congr_left fun z hz => ?_
  simp only [Function.comp_apply, if_neg (hold z hz)]

theorem Ctx.issued_setTimerOrigin {c : Ctx} (h : c.pend.Issued) (hist : Hist) (i : Nat)
    (id : ActionID) (executionID : String) :
    (c.setTimerOrigin hist i id executionID).pend.Issued := by
  intro x hx
  unfold setTimerOrigin Assoc.modify at hx
  obtain ⟨y, hy, rfl⟩ := List.mem_map.mp hx
  have hid := h y hy
  split <;> exact hid

theorem Ctx.Evolves.entries {hist : Hist} {c c' : Ctx} (h : Ctx.Evolves hist c c') :
    c.pend.Issued → c'.pend.Issued ∧ ∃ l, c'.pend.entries = c.pend.entries ++ l := by
  induction h with
  | refl c => exact fun hi => ⟨hi, [], (List.append_nil _).symm⟩
  | trans _ _ ih ih' =>
    intro hi
    obtain ⟨hi', l, hl⟩ := ih hi
    obtain ⟨hi'', l', hl'⟩ := ih' hi'
    exact ⟨hi'', l ++ l', by rw [hl', hl, List.append_assoc]⟩
  | core c core hcore => exact fun hi => ⟨hi, [], (List.append_nil _).symm⟩
  | patch c patchName => exact fun hi => ⟨hi, [], (List.append_nil _).symm⟩
  | ident c ident => exact fun hi => ⟨hi, [], (List.append_nil _).symm⟩
  | register c actionType router kind =>
    intro hi
    obtain ⟨he, hi', -⟩ := Ctx.entries_register hi actionType router kind
    exact ⟨hi', _, he⟩
  | addAction c actionType router =>
    intro hi
    obtain ⟨he, hi'⟩ := Pending.entries_addAction hi actionType router none
    exact ⟨hi', _, he⟩
  | retryTimer c name delay i executionID =>
    intro hi
    obtain ⟨he, hi', hid⟩ := Ctx.entries_register hi (.createTimer
      { fireAt := c.core.currentTimeUtc + delay, name := name, origin := some .createTimer }) none
      .timer
    have hold : ∀ y ∈ c.pend.entries, y.1 < c.pend.sequenceNumber := by
      intro y hy
      obtain ⟨z, hz, rfl⟩ := List.mem_map.mp hy
      exact hi z hz
    obtain ⟨x', hx'⟩ := Ctx.entries_setTimerOrigin he hold hist i executionID
    unfold Ctx.createTimerInternal
    rw [hid]
    exact ⟨Ctx.issued_setTimerOrigin hi' hist i _ executionID, [x'], hx'⟩

/-! ### The event of a detached spawn -/

namespace Ctx

variable {c : Ctx} {b : ActionID} {os es : List Entry} {T : List (ActionID × PendingTask)}
  {instanceId : InstanceID}

theorem pendingDetached_of_numbered {x : Entry} (h : Numbered c.pend b (x :: es) T)
    (hx : x.isOptional = true) : c.pendingDetached b = none := by
  obtain ⟨a, ha, hax, -⟩ := h.get?_action List.mem_cons_self
  unfold pendingDetached
  rw [ha]
  rcases a with ⟨⟨id, actionType, router⟩, task⟩
  subst hax
  cases actionType <;> cases task <;> first | rfl | cases hx

/-- The optional timer dropped before the pending spawn is looked up. -/
theorem dropUnless_one {o : Entry} (h : Numbered c.pend b (o :: es) T) (ho : o.isOptional = true) :
    ∃ d, c.dropUnless (c.pendingDetached b).isSome b 1 = d ∧ d.core = c.core ∧
      Numbered d.pend b es T := by
  have hopt : c.pend.optionalAt b = true := by
    refine (optionalAt_of_numbered h ?_).trans ho
    rintro rfl
    cases ho
  obtain ⟨hcore, -, hdrop⟩ := dropOptionalTimer_of_numbered h
  refine ⟨c.dropOptionalTimer b, ?_, hcore, hdrop⟩
  rw [pendingDetached_of_numbered h ho]
  unfold dropUnless
  rw [if_neg (by simp)]
  unfold dropOptionalTimers
  rw [if_pos hopt]
  rfl

/-- With at most one optional timer before it the spawn is found. -/
theorem onDetachedWorkflowCreated_of_le
    (h : Numbered c.pend b (os ++ .detached instanceId :: es) T)
    (hos : ∀ o ∈ os, o.isOptional = true) (hlen : os.length ≤ 1) :
    ∃ c', c.onDetachedWorkflowCreated b instanceId = .ok c' ∧ c'.core = c.core ∧
      Numbered c'.pend (b + 1) es T := by
  match os, hlen with
  | [], _ =>
    obtain ⟨c', hc', hrec⟩ := onDetachedWorkflowCreated_of_numbered h
    refine ⟨c', hc', hrec.core, ?_⟩
    have hn := hrec.numbered
    rwa [show (Entry.pendingTask (b, .detached instanceId)).toList = [] from rfl,
      List.append_nil] at hn
  | [o], _ =>
    obtain ⟨d, hd, hcore, hn⟩ := dropUnless_one h (hos o (List.mem_singleton_self o))
    obtain ⟨c', hc', hrec⟩ := onDetachedWorkflowCreated_of_numbered hn
    refine ⟨c', ?_, hrec.core.trans hcore, ?_⟩
    · obtain ⟨a, ha, hax, -⟩ := hn.get?_action List.mem_cons_self
      have hsome : (d.pendingDetached b).isSome = true := by
        unfold pendingDetached
        rw [ha]
        rcases a with ⟨⟨id, actionType, router⟩, task⟩
        cases actionType <;> cases task <;> cases hax
        rfl
      unfold onDetachedWorkflowCreated at hc' ⊢
      dsimp only at hc' ⊢
      rw [hd]
      rwa [hsome, show d.dropUnless true b 1 = d from rfl] at hc'
    · have hn' := hrec.numbered
      rwa [show (Entry.pendingTask (b, .detached instanceId)).toList = [] from rfl,
        List.append_nil] at hn'

/-- With two it is not. -/
theorem onDetachedWorkflowCreated_of_lt
    (h : Numbered c.pend b (os ++ .detached instanceId :: es) T)
    (hos : ∀ o ∈ os, o.isOptional = true) (hlen : 1 < os.length) :
    c.onDetachedWorkflowCreated b instanceId =
      .error (.previousScheduleNewWorkflow instanceId b) := by
  match os, hlen with
  | o :: o' :: os, _ =>
    obtain ⟨d, hd, -, hn⟩ := dropUnless_one h (hos o List.mem_cons_self)
    have hnone := pendingDetached_of_numbered hn
      (hos o' (List.mem_cons_of_mem _ List.mem_cons_self))
    unfold onDetachedWorkflowCreated
    dsimp only
    rw [hd, hnone]

end Ctx

theorem Records.append {b b' : ActionID} {es es' : List Entry} {T T' : List (ActionID × PendingTask)}
    {events : List HistoryEvent} (h : Records b es T events b' es' T') (xs : List Entry) :
    Records b (es ++ xs) T events b' (es' ++ xs) T' := by
  induction h with
  | nil b es T => exact .nil b (es ++ xs) T
  | cons optional id recorded strict _ ih =>
    rw [List.append_assoc, List.cons_append]
    exact .cons optional id recorded strict ih

namespace Machine

variable {σ : Type} {sdk sdkL : Sdk σ} {m m' m₁ : Machine σ} {instanceId : InstanceID} {n : Nat}

/-! ### Waits and then a spawn -/

/-- A step that takes no event: workflow code runs, or the `Await` of a completed task returns. -/
def stepQuiet (sdk : Sdk σ) (m : Machine σ) : Option (Machine σ) :=
  if m.inCode then step sdk m
  else
    match m.control, m.stack with
    | .loop, .await task _ :: _ => if (m.ctx.core.task task).isCompleted then step sdk m else none
    | _, _ => none

theorem stepQuiet_entries (h : stepQuiet sdk m = some m') (hi : m.ctx.pend.Issued) :
    m'.ctx.pend.Issued ∧ ∃ l, m'.ctx.pend.entries = m.ctx.pend.entries ++ l := by
  unfold stepQuiet at h
  split at h
  · next hcode => exact (step_code hcode h).ctx.entries hi
  · split at h
    · next hc hstack =>
      split at h
      · next hcomp =>
        rw [step_awaited hc hstack hcomp] at h
        cases h
        exact ⟨hi, [], (List.append_nil _).symm⟩
      · cases h
    · cases h

theorem entries_of_quiet (h : Transition.Reaches (stepQuiet sdk) m m') (hi : m.ctx.pend.Issued) :
    m'.ctx.pend.Issued ∧ ∃ l, m'.ctx.pend.entries = m.ctx.pend.entries ++ l := by
  refine h.invariant (I := fun x => x.ctx.pend.Issued ∧
    ∃ l, x.ctx.pend.entries = m.ctx.pend.entries ++ l) ⟨hi, [], (List.append_nil _).symm⟩ ?_
  rintro x y ⟨hx, l, hl⟩ hs
  obtain ⟨hy, l', hl'⟩ := stepQuiet_entries hs hx
  exact ⟨hy, l ++ l', by rw [hl', hl, List.append_assoc]⟩

/-- Workflow code makes `n` indefinite waits, none for an event that is buffered already, and then
spawns the detached workflow `instanceId`. -/
inductive Spawns (sdk : Sdk σ) (instanceId : InstanceID) : Nat → Machine σ → Machine σ → Prop
  | spawn {m : Machine σ} {s : σ} {name : String} {opts : List DetachedWorkflowOption} {k : Resp → σ}
    (control : m.control = .run s) (next : sdk.next s = .call (.scheduleNewWorkflow name opts) k)
    (spawned : (m.ctx.scheduleNewWorkflow name opts).2 = .ok instanceId) :
    Spawns sdk instanceId 0 m (doCall sdk m (.scheduleNewWorkflow name opts) k)
  | wait {m m₁ : Machine σ} {s : σ} {eventName : String} {timeout : Duration} {k : Resp → σ} {n : Nat}
    (control : m.control = .run s)
    (next : sdk.next s = .call (.waitForSingleEvent eventName timeout) k) (indefinite : timeout < 0)
    (notBuffered :
      (Assoc.get? m.ctx.core.bufferedExternalEvents (sdk.env.toUpper eventName)).getD [] = [])
    (rest : Spawns sdk instanceId n (doCall sdk m (.waitForSingleEvent eventName timeout) k) m₁) :
    Spawns sdk instanceId (n + 1) m m₁

theorem entries_wait (hcurrent : sdk.env.legacyWaits = false) {eventName : String}
    {timeout : Duration} (k : Resp → σ) (hneg : timeout < 0)
    (hbuf : (Assoc.get? m.ctx.core.bufferedExternalEvents (sdk.env.toUpper eventName)).getD [] = [])
    (hi : m.ctx.pend.Issued) :
    (doCall sdk m (.waitForSingleEvent eventName timeout) k).ctx.pend.Issued ∧
      ∃ o, o.2.isOptional = true ∧
        (doCall sdk m (.waitForSingleEvent eventName timeout) k).ctx.pend.entries =
          m.ctx.pend.entries ++ [o] := by
  have hwaiter (c : Ctx) (key : String) (task : Nat) :
      (c.addWaiter key task).1.pend = c.pend := by
    unfold Ctx.addWaiter
    split <;> rfl
  show (m.ctx.waitForSingleEvent sdk.env eventName timeout).1.pend.Issued ∧ ∃ o, _ ∧
    (m.ctx.waitForSingleEvent sdk.env eventName timeout).1.pend.entries = _
  unfold Ctx.waitForSingleEvent
  dsimp only
  split
  · next e rest hget =>
    have hget : Assoc.get? m.ctx.core.bufferedExternalEvents (sdk.env.toUpper eventName) =
        some (e :: rest) := hget
    rw [hget] at hbuf
    cases hbuf
  · rw [if_neg (Int.ne_of_lt hneg)]
    have hp := hwaiter { m.ctx with core := m.ctx.core.newTask.1 } (sdk.env.toUpper eventName)
      m.ctx.core.newTask.2
    generalize Ctx.addWaiter _ (sdk.env.toUpper eventName) m.ctx.core.newTask.2 = w at hp ⊢
    have hfire : w.1.waitFireAt timeout = externalEventIndefiniteFireAt :=
      if_neg (Int.not_lt.mpr (Int.le_of_lt hneg))
    unfold Ctx.addWaitTimer
    rw [if_neg (by simp [hcurrent]), hfire]
    have hi : w.1.pend.Issued := by
      rw [hp]
      exact hi
    obtain ⟨hi', o, ho, he⟩ := Ctx.entries_indefiniteTimer hi eventName
    exact ⟨hi', o, ho, he.trans (by rw [hp])⟩

theorem entries_spawn (sdk : Sdk σ) {name : String} {opts : List DetachedWorkflowOption} (k : Resp → σ)
    (hspawn : (m.ctx.scheduleNewWorkflow name opts).2 = .ok instanceId) (hi : m.ctx.pend.Issued) :
    (doCall sdk m (.scheduleNewWorkflow name opts) k).ctx.pend.Issued ∧ ∃ id,
      (doCall sdk m (.scheduleNewWorkflow name opts) k).ctx.pend.entries =
        m.ctx.pend.entries ++ [(id, .detached instanceId)] := by
  show (m.ctx.scheduleNewWorkflow name opts).1.pend.Issued ∧ ∃ id,
    (m.ctx.scheduleNewWorkflow name opts).1.pend.entries = _
  unfold Ctx.scheduleNewWorkflow at hspawn ⊢
  split at hspawn
  · cases hspawn
  · next options hopts =>
    dsimp only at hspawn ⊢
    split at hspawn
    · cases hspawn
    · split at hspawn
      · cases hspawn
      · next h₁ h₂ =>
        have hid := Except.ok.inj hspawn
        rw [if_neg h₁, if_neg h₂]
        obtain ⟨he, hi'⟩ := Pending.entries_addAction hi (.createDetachedWorkflow
          { instanceId := options.instanceID.getD
              (m.ctx.core.id ++ "-" ++ toString m.ctx.core.defaultDetachedWorkflowCounter)
            name := name, input := options.rawInput
            scheduledStartTimestamp := options.scheduledStartTimestamp })
          (taskRouterFromTarget options.targetAppID options.targetAppNamespace) none
        exact ⟨hi', m.ctx.pend.sequenceNumber, hid ▸ he⟩

theorem entries_of_spawns (hcurrent : sdk.env.legacyWaits = false)
    (h : Spawns sdk instanceId n m m₁) (hi : m.ctx.pend.Issued) :
    m₁.ctx.pend.Issued ∧ ∃ os id, os.length = n ∧ (∀ o ∈ os, o.2.isOptional = true) ∧
      m₁.ctx.pend.entries = m.ctx.pend.entries ++ os ++ [(id, .detached instanceId)] := by
  induction h with
  | spawn control next spawned =>
    obtain ⟨hi', id, he⟩ := entries_spawn sdk _ spawned hi
    exact ⟨hi', [], id, rfl, fun _ ho => absurd ho List.not_mem_nil, by rw [List.append_nil, he]⟩
  | wait control next indefinite notBuffered _ ih =>
    obtain ⟨hi', o, ho, he⟩ := entries_wait hcurrent _ indefinite notBuffered hi
    obtain ⟨hi₁, os, id, hlen, hos, he₁⟩ := ih hi'
    refine ⟨hi₁, o :: os, id, by rw [List.length_cons, hlen], ?_, ?_⟩
    · rintro y hy
      rcases List.mem_cons.mp hy with rfl | hy
      · exact ho
      · exact hos y hy
    · rw [he₁, he]
      simp

theorem waits_of_codeSim {v : Recording} {same : Bool} {b : ActionID}
    {T : List (ActionID × PendingTask)} (h : CodeSim v same b T m m') (hw : m'.Waits) : m.Waits := by
  refine ⟨h.control.symm.trans hw.1, ?_⟩
  have htop := hw.2
  rw [h.stack, h.ctx.core] at htop
  cases hst : m.stack with
  | nil =>
    rw [hst] at htop
    rcases htop with htop | ⟨_, _, htop, -⟩ <;> cases htop
  | cons f fs =>
    rw [hst] at htop
    cases f with
    | start => exact .inl rfl
    | await task dst =>
      rcases htop with htop | ⟨_, _, htop, hcomp⟩ <;> cases htop
      exact .inr ⟨task, dst, rfl, hcomp⟩
    | _ => rcases htop with htop | ⟨_, _, htop, -⟩ <;> cases htop

theorem shared_spawn {es₀ os es : List Entry} (hos : ∀ o ∈ os, o.isOptional = true) :
    shared false (es₀ ++ (os ++ .detached instanceId :: es)) =
      shared false es₀ ++ .detached instanceId :: shared false es := by
  have hnil : os.filter (!·.isOptional) = [] :=
    List.filter_eq_nil_iff.mpr fun o ho => by simp [hos o ho]
  unfold shared
  rw [if_neg (by decide), if_neg (by decide), if_neg (by decide), List.filter_append,
    List.filter_append, hnil]
  rfl

/-- A history of the earlier release (`sdkL`) has the spawn under the id it has without the timers of
the `n` indefinite waits before it. `m₂` is the replay of the current release that has come to the
scheduling events `sched` of what was scheduled before the waits, and `mL₂` that of the earlier one.
The event of the spawn is accepted, and everything scheduled later is numbered as in the earlier
release, exactly if there is at most one such wait. -/
theorem detached_tolerated_iff {v : Recording} {m₂ mL₂ : Machine σ} {b b₁ : ActionID}
    {es₀ : List Entry} {T T₁ : List (ActionID × PendingTask)} {sched rest : List HistoryEvent}
    {e : HistoryEvent} (hsdk : Sdks false sdkL sdk) (hn : Numbered m.ctx.pend b es₀ T)
    (hspawn : Spawns sdk instanceId n m m₁)
    (hquiet : Transition.Reaches (stepQuiet sdk) m₁ m₂) (hsim : CodeSim v false b T mL₂ m₂)
    (hw : m₂.Waits) (ht : m₂.ctx.core.isTerminated = false) (hs : m₂.ctx.core.isSuspended = false)
    (hsched : Records b es₀ T sched b₁ [] T₁) (hschedL : Records b (shared false es₀) T sched b₁ [] T₁)
    (hid : e.eventId = b₁) (he : e.eventType = .detachedWorkflowInstanceCreated instanceId)
    (hev : m₂.upcoming = sched ++ e :: rest) (hevL : mL₂.upcoming = sched ++ e :: rest) :
    ∃ m₃ mL₃ m₄ mL₄,
      Transition.Reaches (step sdk) m₂ m₃ ∧ Transition.Reaches (step sdkL) mL₂ mL₃ ∧
      m₃.hist.historyIndex = m₂.hist.historyIndex + sched.length ∧
      mL₃.hist.historyIndex = mL₂.hist.historyIndex + sched.length ∧
      step sdk m₃ = some m₄ ∧ step sdkL mL₃ = some mL₄ ∧ mL₄.errors = mL₂.errors ∧
      (m₄.errors = m₂.errors ∧ Ctx.Aligned false (b₁ + 1) T₁ mL₄.ctx m₄.ctx ↔ n ≤ 1) := by
  -- What is pending when the replay has come to the events.
  have hissued : m.ctx.pend.Issued := by
    intro x hx
    rw [hn.sequenceNumber]
    exact (hn.key_bounds hx).2
  obtain ⟨hi₁, os, id, hlen, hos, he₁⟩ := entries_of_spawns hsdk.env.waits.2 hspawn hissued
  obtain ⟨-, l, hl⟩ := entries_of_quiet hquiet hi₁
  obtain ⟨es, hnL, hn₂⟩ := hsim.ctx.numbered
  have hes : es = es₀ ++ (os.map Prod.snd ++ .detached instanceId :: l.map Prod.snd) := by
    have hentries : m₂.ctx.pend.entries.map Prod.snd = es := by
      rw [show m₂.ctx.pend.entries = _ from hn₂.actions, Number.map_snd_number]
    rw [← hentries, hl, he₁, show m.ctx.pend.entries = _ from hn.actions]
    simp [Number.map_snd_number]
  have hos : ∀ o ∈ os.map Prod.snd, o.isOptional = true := by
    intro o ho
    obtain ⟨y, hy, rfl⟩ := List.mem_map.mp ho
    exact hos y hy
  have hlen : (os.map Prod.snd).length = n := by rw [List.length_map, hlen]
  generalize os.map Prod.snd = os at hes hos hlen
  generalize l.map Prod.snd = es₁ at hes
  subst hes
  rw [shared_spawn hos] at hnL
  -- Both take the scheduling events before the spawn.
  have hwL := waits_of_codeSim hsim hw
  have hcore := hsim.ctx.core
  obtain ⟨m₃, hm₃, hun, hidx, hn₃⟩ := reaches_schedules sdk (hsched.append _) hw ht hs hn₂ hev
  obtain ⟨mL₃, hmL₃, hunL, hidxL, hnL₃⟩ := reaches_schedules sdkL (hschedL.append _) hwL
    (hcore ▸ ht) (hcore ▸ hs) hnL hevL
  rw [List.nil_append] at hn₃ hnL₃
  have hnext {x x₃ : Machine σ} (hun : Unmoved x x₃) (hx : x.upcoming = sched ++ e :: rest)
      (hi : x₃.hist.historyIndex = x.hist.historyIndex + sched.length) :
      x₃.hist.events[x₃.hist.historyIndex]? = some e := by
    have hdrop : x.hist.events.drop (x.hist.historyIndex + sched.length) = e :: rest := by
      rw [← List.drop_drop, show x.hist.events.drop x.hist.historyIndex = _ from hx, List.drop_left]
    rw [hun.events, hi, ← List.head?_drop, hdrop]
    rfl
  have hstep := step_dispatch sdk (hun.waits hw) (hnext hun hev hidx) (hun.core ▸ ht)
    (.inl (hun.core ▸ hs))
  have hstepL := step_dispatch sdkL (hunL.waits hwL) (hnext hunL hevL hidxL)
    (hunL.core ▸ hcore ▸ ht) (.inl (hunL.core ▸ hcore ▸ hs))
  have hdispatch (x : Machine σ) : dispatch sdk x e =
      x.handle (x.ctx.onDetachedWorkflowCreated b₁ instanceId) := by
    unfold dispatch
    rw [he, hid]
  have hdispatchL (x : Machine σ) : dispatch sdkL x e =
      x.handle (x.ctx.onDetachedWorkflowCreated b₁ instanceId) := by
    unfold dispatch
    rw [he, hid]
  rw [hdispatch] at hstep
  rw [hdispatchL] at hstepL
  obtain ⟨cL, hcL, hcoreL, hnL₄⟩ := Ctx.onDetachedWorkflowCreated_of_le
    (show Numbered mL₃.ctx.pend b₁ ([] ++ .detached instanceId :: shared false es₁) T₁ from hnL₃)
    (fun _ ho => absurd ho List.not_mem_nil) (Nat.zero_le 1)
  rw [hcL] at hstepL
  refine ⟨m₃, mL₃, _, _, hm₃, hmL₃, hidx, hidxL, hstep, hstepL, hunL.errors, ?_⟩
  constructor
  · rintro ⟨herr, -⟩
    by_contra hlt
    rw [Ctx.onDetachedWorkflowCreated_of_lt hn₃ hos (by omega)] at herr
    have herr : m₃.errors ++ [_] = m₂.errors := herr
    rw [hun.errors] at herr
    simp at herr
  · intro hle
    obtain ⟨c, hc, hcorec, hn₄⟩ := Ctx.onDetachedWorkflowCreated_of_le hn₃ hos (by omega)
    rw [hc]
    refine ⟨hun.errors, ⟨?_, nofun, es₁, hnL₄, hn₄⟩⟩
    show c.core = cL.core
    rw [hcorec, hcoreL]
    exact hun.core.trans (hcore.trans hunL.core.symm)

end Machine

namespace DetachedExample

/-- Wait for some events without a timeout, spawn a detached workflow, and sleep. -/
inductive Flow
  | waiting (left : Nat)
  | sleep
  | asleep (timer : TaskRef)
  | finished

def next : Flow → Step Flow
  | .waiting 0 => .call (.scheduleNewWorkflow "audit" []) fun _ => .sleep
  | .waiting (left + 1) => .call (.waitForSingleEvent "go" (-1)) fun _ => .waiting left
  | .sleep => .call (.createTimer 60 none) fun
    | .task t => .asleep t
    | _ => .finished
  | .asleep t => .call (.await t none) fun _ => .finished
  | .finished => .ret (.ok .nil)

def sdk : Sdk Flow :=
  { env := SuspensionExample.env
    registry := { workflows := [("one", .waiting 1), ("two", .waiting 2)] }, next := next }

/-- The earlier release. -/
def sdkL : Sdk Flow := { sdk with env := { SuspensionExample.env with legacyWaits := true } }

def started (name : String) : List HistoryEvent :=
  [{ eventType := .workflowStarted none },
   { eventType := .executionStarted { name := name, workflowInstance := ⟨"i", some "e1"⟩ } }]

def spawned : HistoryEvent := { eventId := 0, eventType := .detachedWorkflowInstanceCreated "i-0" }

def replay (sdk : Sdk Flow) (n : Nat) (events : List HistoryEvent) : Machine Flow :=
  (Machine.init "i" [] events).run sdk n

/-- After two waits the earlier release spawns under id 0 and replays that history; the current one
takes it for a nondeterministic workflow. -/
theorem two_waits_rejected :
    ((replay sdkL 20 (started "two")).response.actions.map WorkflowAction.id = [0, 1]) ∧
      (replay sdkL 20 (started "two")).response.actions.any
        (fun a => a.id = 0 ∧ ∃ d ∈ [a.actionType], d = .createDetachedWorkflow
          { instanceId := "i-0", name := "audit" }) ∧
      (replay sdkL 20 (started "two" ++ [spawned])).errors = [] ∧
      (replay sdk 20 (started "two" ++ [spawned])).errors =
        [.previousScheduleNewWorkflow "i-0" 0] := by
  decide

/-- The current release's replay of a spawn after one wait, when the code starts and when it waits. -/
def running : Machine Flow := replay sdk 2 (started "one" ++ [spawned])

def called : Machine Flow :=
  Machine.doCall sdk
    (Machine.doCall sdk running (.waitForSingleEvent "go" (-1)) fun _ => .waiting 0)
    (.scheduleNewWorkflow "audit" []) fun _ => .sleep

def asleep : Machine Flow := replay sdk 6 (started "one" ++ [spawned])

def asleepL : Machine Flow := replay sdkL 6 (started "one" ++ [spawned])

theorem one_wait_tolerated :
    ∃ m₄ mL₄, Transition.Reaches (Machine.step sdk) asleep m₄ ∧
      Transition.Reaches (Machine.step sdkL) asleepL mL₄ ∧ m₄.errors = asleep.errors ∧
      Ctx.Aligned false (0 + 1) [] mL₄.ctx m₄.ctx := by
  have hsdk : Machine.Sdks false sdkL sdk := ⟨⟨rfl, rfl, rfl, rfl, rfl, rfl, rfl⟩, rfl, rfl⟩
  have hsim : Machine.CodeSim ⟨2, none⟩ false 0 [] asleepL asleep := by
    refine ⟨⟨by decide, nofun, [.work .timer true 1, .detached "i-0", .work .timer false 2], ?_, ?_⟩,
      rfl, rfl, rfl⟩
    · exact ⟨by decide, by decide, by decide, by decide, by decide, by decide, by decide, by decide,
        by decide⟩
    · exact ⟨by decide, by decide, by decide, by decide, by decide, by decide, by decide, by decide,
        by decide⟩
  have hspawn : Machine.Spawns sdk "i-0" 1 running called :=
    .wait rfl rfl (show (-1 : Duration) < 0 by decide) rfl (.spawn rfl rfl rfl)
  have hquiet : Transition.Reaches (Machine.stepQuiet sdk) called asleep :=
    .head rfl (.single rfl)
  obtain ⟨m₃, mL₃, m₄, mL₄, h₃, hL₃, -, -, h₄, hL₄, -, hiff⟩ :=
    Machine.detached_tolerated_iff hsdk Numbered.empty hspawn hquiet hsim
      ⟨rfl, .inr ⟨_, _, rfl, rfl⟩⟩ rfl rfl (.nil 0 [] []) (.nil 0 [] [])
      (e := spawned) rfl rfl rfl rfl
  exact ⟨m₄, mL₄, h₃.tail h₄, hL₃.tail hL₄, hiff.mpr (Nat.le_refl 1)⟩

end DetachedExample

end DurableTask.Task
