import DurableTask.Task.Arrivals
import DurableTask.Task.Delivery
import DurableTask.Task.Moves

/-!
# Resolutions along a replay

Every update of a context keeps the invariant of delivery, so a whole replay does: each task is
completed by the first resolution event of its kind and final id, and by no other.
-/

namespace DurableTask.Task

namespace Ctx

theorem pend_waiting (env : SdkEnv) (c : Ctx) (eventName : String) :
    (c.waiting env eventName).pend = c.pend := by
  unfold waiting addWaiter
  split <;> rfl

/-- The invariant of delivery for a context. -/
def Delivery (anchor : Option (Nat × ActionID)) (ids : List ActionID) (acts : List Act) (c : Ctx) :
    Prop :=
  c.pend.Delivery anchor ids acts c.core.tasks.length

namespace Delivery

variable {env : SdkEnv} {h : Hist} {c c' : Ctx} {anchor : Option (Nat × ActionID)} {ids : List ActionID} {acts acts' : List Act}
  {k : Kind × ActionID} {e : HistoryEvent} {t : Nat}

theorem withCore (hc : c.Delivery anchor ids acts) {core : Core}
    (hlen : c.core.tasks.length ≤ core.tasks.length) :
    ({ c with core := core } : Ctx).Delivery anchor ids acts := Pending.Delivery.mono hc hlen

theorem firing (hc : c.Delivery anchor ids acts) (core : Core) (t : Nat) :
    c.Delivery anchor ids (acts ++ core.firing t) := by
  have hmem {a : Act} (ha : a ∈ core.firing t) : ∃ wait, a = .fired wait := by
    obtain ⟨w, -, rfl⟩ := Option.map_eq_some_iff.mp (Option.mem_toList.mp ha)
    exact ⟨w.task, rfl⟩
  refine Pending.Delivery.append hc (fun a ha => ?_) fun a ha => ?_
  · obtain ⟨wait, rfl⟩ := hmem ha
    rfl
  · obtain ⟨wait, rfl⟩ := hmem ha
    rfl

/-- The four ways to deliver a resolution end here. -/
theorem deliver (hc : c.Delivery anchor (k.2 :: ids) acts) (hdel : c.pend.deliverable k = some t)
    (hbuf : Assoc.get? c.pend.bufferedResolutions k = some e) :
    ({ c with
        pend := (c.pend.withBuffered (Assoc.erase c.pend.bufferedResolutions k)).resolve k e
        core := c.core.resolve t e } : Ctx).Delivery anchor ids
      (acts ++ .delivered k t e (c.pend.unconfirmed k.2) :: c.core.firing t) := by
  have hdelivery := Pending.Delivery.deliver hc hdel hbuf fun id hid => List.mem_cons.mp hid
  rw [List.append_cons]
  refine firing ?_ c.core t
  exact hdelivery.mono (Core.length_resolve c.core t e).ge

theorem consumeBufferedResolution (hc : c.Delivery anchor (k.2 :: ids) acts)
    (hget : Assoc.get? c.pend.pendingTasks k.2 = some ⟨k.1, t⟩) :
    (c.consumeBufferedResolution k).Delivery anchor ids (acts ++ c.consumeActs k) := by
  unfold Ctx.consumeBufferedResolution consumeActs
  cases hbuf : Assoc.get? c.pend.bufferedResolutions k with
  | none =>
    rw [List.append_nil]
    refine Pending.Delivery.skip hc fun t' ht' => .inl ?_
    cases Option.some.inj (hget.symm.trans ht')
    exact hbuf
  | some e =>
    dsimp only
    split
    · next hprov =>
      rw [List.append_nil]
      exact Pending.Delivery.skip hc fun _ _ => .inr hprov
    · next hprov =>
      have hdel : c.pend.deliverable k = some t := by
        unfold Pending.deliverable
        rw [hget]
        exact if_pos ⟨rfl, hprov⟩
      have hdel' :
          (c.pend.withBuffered (Assoc.erase c.pend.bufferedResolutions k)).deliverable k = some t := hdel
      unfold Pending.withBuffered at hdel'
      unfold Ctx.onResolution resolutionActs
      rw [hdel, hdel']
      exact deliver hc hdel hbuf

theorem consumeFor (hc : c.Delivery anchor ids acts) :
    (c.consumeFor ids).Delivery anchor [] (acts ++ consumeForActs ids c) := by
  induction ids generalizing c acts with
  | nil => exact (List.append_nil acts).symm ▸ hc
  | cons id ids ih =>
    unfold Ctx.consumeFor consumeForActs
    rw [List.foldl_cons]
    cases hget : Assoc.get? c.pend.pendingTasks id with
    | none =>
      refine ih (Pending.Delivery.skip hc fun t ht => ?_)
      rw [hget] at ht
      cases ht
    | some t =>
      dsimp only
      rw [← List.append_assoc]
      exact ih (hc.consumeBufferedResolution (k := (t.kind, id)) hget)

theorem onResolution (hc : c.Delivery anchor [] acts) (he : e.resolution = some k) :
    (c.onResolution k e).Delivery anchor [] (acts ++ .arrived e :: c.resolutionActs k e) := by
  unfold Ctx.onResolution resolutionActs
  cases hdel : c.pend.deliverable k with
  | none =>
    dsimp only
    unfold Pending.bufferResolution
    split
    · next hknown => exact Pending.Delivery.ignored hc he hknown
    · next hknown =>
      obtain ⟨hres, hbuf⟩ := not_or.mp hknown
      rw [Option.not_isSome_iff_eq_none] at hbuf
      refine (Pending.Delivery.arrive hc he hres hbuf).skip fun t ht => ?_
      by_cases hkind : t.kind = k.1
      · have hk : (t.kind, k.2) = k := by rw [hkind]
        rw [← hk] at hdel
        exact .inr (Pending.provisional_of_not_deliverable hdel ht)
      · -- A task of another kind: what was buffered for it before stays buffered.
        have hkey : k ≠ (t.kind, k.2) := fun heq => hkind (congrArg Prod.fst heq).symm
        unfold Pending.withBuffered
        rw [Assoc.get?_insert_of_ne hkey]
        by_cases hnone : Assoc.get? c.pend.bufferedResolutions (t.kind, k.2) = none
        · exact .inl hnone
        · refine .inr ((hc.ready _ (Assoc.mem_of_get? ht) ?_).resolve_right List.not_mem_nil)
          exact Option.isSome_iff_ne_none.mpr hnone
  | some t =>
    obtain ⟨hres, hbuf⟩ := Pending.Delivery.not_known hc hdel
    let p := c.pend.withBuffered (Assoc.insert c.pend.bufferedResolutions k e)
    have harrive : ({ c with pend := p } : Ctx).Delivery anchor [k.2] (acts ++ [.arrived e]) :=
      Pending.Delivery.arrive hc he hres hbuf
    have hpend : p.withBuffered (Assoc.erase p.bufferedResolutions k) = c.pend := by
      show c.pend.withBuffered (Assoc.erase (Assoc.insert c.pend.bufferedResolutions k e) k) = c.pend
      rw [Assoc.erase_insert (Assoc.get?_eq_none_iff.mp hbuf)]
      rfl
    have hdelivery := harrive.deliver hdel (Assoc.get?_insert_self ..)
    dsimp only at hdelivery
    rw [hpend, ← List.append_cons] at hdelivery
    exact hdelivery

theorem register (hc : c.Delivery anchor [] acts) (actionType : WorkflowActionType)
    (router : Option TaskRouter) (kind : Kind) :
    (c.register actionType router kind).1.Delivery anchor []
      (acts ++ c.registerActs actionType router kind) := by
  rw [register_eq, registerActs, List.append_cons]
  have hreg : (c.registered actionType router kind).Delivery anchor [c.pend.sequenceNumber]
      (acts ++ [.scheduled c.core.tasks.length kind]) := by
    unfold Delivery
    have hlen : (c.registered actionType router kind).core.tasks.length = c.core.tasks.length + 1 :=
      List.length_append
    rw [hlen]
    exact Pending.Delivery.register hc actionType router kind
  exact hreg.consumeBufferedResolution (k := (kind, c.pend.sequenceNumber))
    (Assoc.get?_insert_self ..)

theorem setTimerOrigin (hc : c.Delivery anchor ids acts) (i : Nat) (id : ActionID) (executionID : String) :
    (c.setTimerOrigin h i id executionID).Delivery anchor ids acts := by
  unfold Ctx.setTimerOrigin
  refine Pending.Delivery.covered hc (Pending.covered_modify c.pend.pendingActions id fun a => ?_)
  split
  · refine ⟨rfl, fun hopt => ?_⟩
    split at hopt <;> cases hopt
  · exact ⟨rfl, fun hopt => hopt⟩

theorem waited (hc : c.Delivery anchor ids acts) (task : Nat) (key : String) (timeout : Duration) :
    c.Delivery anchor ids (acts ++ [.waited task key timeout]) :=
  Pending.Delivery.append hc (by simp [Act.isSilent]) (by simp [Act.arrived?])

theorem waitForSingleEvent (hc : c.Delivery anchor [] acts) (eventName : String) (timeout : Duration) :
    (c.waitForSingleEvent env eventName timeout).1.Delivery anchor []
      (acts ++ c.waitActs env eventName timeout) := by
  have hwaited := hc.waited c.core.tasks.length (env.toUpper eventName) timeout
  have hnew : c.core.newTask.1.tasks.length = c.core.tasks.length + 1 := List.length_append
  rcases waitForSingleEvent_cases env c eventName timeout with
    ⟨e, rest, -, hacts, hd⟩ | ⟨-, ⟨-, hacts, hd⟩ | ⟨-, hacts, hd⟩⟩
  · rw [hacts, hd]
    refine hwaited.withCore ?_
    unfold takeBufferedEvent
    rw [Core.length_complete]
    exact Nat.le_of_lt (hnew.symm ▸ Nat.lt_succ_self _)
  · rw [hacts, hd]
    refine hwaited.withCore ?_
    rw [Core.length_cancel]
    exact Nat.le_of_lt (hnew.symm ▸ Nat.lt_succ_self _)
  · rw [hacts, hd, List.append_cons]
    have hwaiting : (c.waiting env eventName).Delivery anchor []
        (acts ++ [.waited c.core.tasks.length (env.toUpper eventName) timeout]) := by
      have hlen : c.core.tasks.length ≤ (c.waiting env eventName).core.tasks.length := by
        rw [length_waiting]
        exact Nat.le_succ _
      have hpend : (c.waiting env eventName).pend = c.pend := pend_waiting ..
      unfold Delivery
      rw [hpend]
      exact Pending.Delivery.mono hwaited hlen
    rcases addWaitTimer_cases env c eventName timeout
        ⟨c.core.tasks.length, env.toUpper eventName,
          ({ c with core := c.core.newTask.1 }.addWaiter (env.toUpper eventName) c.core.tasks.length).2⟩
      with ⟨-, hacts, hd⟩ | ⟨c', hc', hacts, hd⟩
    · rw [hacts, hd, List.append_nil]
      refine hwaiting.withCore ?_
      rw [Core.length_onCompleted]
      exact (List.length_append).symm ▸ Nat.le_succ _
    · rw [hacts, hd, ← List.append_assoc]
      have hreg := hwaiting.register ((c.waiting env eventName).waitTimer eventName timeout) none .timer
      rw [← hc'] at hreg
      have hfired := hreg.withCore (Core.length_onCompleted c'.core
        (c.waiting env eventName).core.tasks.length ⟨c.core.tasks.length, env.toUpper eventName,
          ({ c with core := c.core.newTask.1 }.addWaiter (env.toUpper eventName)
            c.core.tasks.length).2⟩).ge
      split
      · exact Pending.Delivery.append hfired (by simp [Act.isSilent]) (by simp [Act.arrived?])
      · rw [List.append_nil]
        exact hfired

theorem scheduleNewWorkflow (hc : c.Delivery anchor [] acts) (workflowName : String)
    (opts : List DetachedWorkflowOption) :
    (c.scheduleNewWorkflow workflowName opts).1.Delivery anchor [] (acts ++ c.spawnActs workflowName opts) := by
  have hsilent : ∀ a ∈ c.spawnActs workflowName opts, a.isSilent = true ∧ a.arrived? = none := by
    intro a ha
    unfold spawnActs at ha
    split at ha
    · split at ha
      · rw [List.mem_singleton.mp ha]
        exact ⟨rfl, rfl⟩
      · cases ha
    · cases ha
  refine Pending.Delivery.append ?_ (fun a ha => (hsilent a ha).1) fun a ha => (hsilent a ha).2
  unfold Ctx.scheduleNewWorkflow
  split
  · exact hc
  · split
    · exact hc
    · split
      · exact hc
      · split <;> exact Pending.Delivery.addAction hc rfl

end Delivery

end Ctx

/-! ### Replays -/

namespace Machine

variable {σ : Type} {sdk : Sdk σ} {m m' : Machine σ} {acts acts' : List Act}
  {events : List HistoryEvent}

end Machine

namespace Ctx.Delivery

variable {c : Ctx} {acts : List Act}

/-- A pending task whose id is not provisional is anchored at it. -/
theorem anchor (hc : c.Delivery none [] acts) {x : ActionID × PendingTask}
    (hx : x ∈ c.pend.pendingTasks) (hnot : c.pend.resolutionIDProvisional x.1 = false) :
    c.Delivery (some (x.2.task, x.1)) [] acts := by
  refine ⟨hc.tidy, hc.linked, hc.heard, ?_, hc.ready⟩
  rintro a ⟨⟩
  refine ⟨hc.linked.created _ _ (hc.linked.scheduled x hx), fun y hy hxy => ?_, fun k e u hd => ?_⟩
  · cases List.inj_on_of_nodup_map hc.linked.refs hy hx hxy
    exact ⟨rfl, Pending.lt_of_not_provisional hnot⟩
  · exact absurd rfl ((hc.linked.delivered k _ e u hd).2.1 x hx)

end Ctx.Delivery

namespace ResolutionsExample

open SuspensionExample (env started)

/-- Start to wait for an event, call an activity and wait for it. -/
inductive Flow
  | begin
  | waiting
  | calling (activity : TaskRef)
  | finished

def next : Flow → Step Flow
  | .begin => .call (.waitForSingleEvent "go" (-1)) fun _ => .waiting
  | .waiting => .call (.callActivity "act" []) fun
    | .task t => .calling t
    | _ => .finished
  | .calling t => .call (.await t none) fun _ => .finished
  | .finished => .ret (.ok .nil)

def sdk : Sdk Flow := { env := env, registry := { workflows := [("wf", .begin)] }, next := next }

def completed (result : String) : HistoryEvent :=
  { eventType := .taskCompleted { taskScheduledId := 0, result := some result } }

/-- A history of a release without optional timers: the activity has the id the timer of the wait has
now, and is completed twice, first before it is confirmed. -/
def events : List HistoryEvent :=
  started ++ [completed "first", { eventId := 0, eventType := .taskScheduled { name := "act" } },
    completed "second"]

def replay : Machine Flow := (Machine.init "i" [] events).run sdk 20

end ResolutionsExample

end DurableTask.Task
