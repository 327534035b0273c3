import DurableTask.Task.Outcome
import DurableTask.Task.Resolutions
import DurableTask.Task.Updates
import DurableTask.Task.Waits

/-!
# Conservation of external events

Along a whole replay the events and the waits of each name form a mailbox. A workflow that continues as
new with its unprocessed events carries over what is left in the mailboxes.
-/

namespace DurableTask.Task

/-! ### Replays -/

namespace Core

variable {env : SdkEnv} {c c' : Core}

/-- Every task that a move creates is the next one. -/
theorem Created.of_moves {moved : List Act} (hmoves : Core.Moves env c moved c') :
    ∀ {acts : List Act}, Created acts c.tasks.length → Created (acts ++ moved) c'.tasks.length := by
  have hnew (c : Core) {len : Nat} (hlen : len = c.newTask.1.tasks.length) : c.tasks.length < len := by
    rw [hlen, length_newTask]
    exact Nat.lt_succ_self _
  induction hmoves with
  | append _ _ ih ih' =>
    intro acts h
    rw [← List.append_assoc]
    exact ih' (ih h)
  | @same c c' moved hmail hidle =>
    intro acts h
    have htasks : c'.tasks = c.tasks := congrArg Prod.fst hmail
    refine h.extend (htasks ▸ Nat.le_refl _) (.inl (List.filterMap_eq_nil_iff.mpr fun a ha => ?_))
    have := hidle a ha
    cases a <;> first | rfl | cases this
  | failedTask c fd => exact fun h => h.extend (hnew c (length_fail ..)).le (.inl rfl)
  | scheduled c kind => exact fun h => h.extend (hnew c rfl).le (.inr ⟨rfl, hnew c rfl⟩)
  | delivered c k t e u =>
    intro acts h
    refine h.extend (length_resolve ..).ge (.inl ?_)
    unfold firing
    cases (c.task t).completedCallback <;> rfl
  | raised c e er he => exact fun h => h.extend (length_onExternalEventRaised ..).ge (.inl rfl)
  | @took c key timeout e rest hbuf =>
    intro acts h
    have hlen : (Ctx.takeBufferedEvent c.newTask.1 key e rest c.tasks.length).tasks.length = _ :=
      length_complete ..
    exact h.extend (hnew c hlen).le (.inr ⟨rfl, hnew c hlen⟩)
  | canceled c key hbuf =>
    exact fun h => h.extend (hnew c (length_cancel ..)).le (.inr ⟨rfl, hnew c (length_cancel ..)⟩)
  | waiting c eventName htimeout hbuf =>
    intro acts h
    have hlt := hnew c.core ((Ctx.length_waiting env c eventName).trans (length_newTask c.core).symm)
    exact h.extend hlt.le (.inr ⟨rfl, hlt⟩)
  | noWaitTimer c hw hlist hmem => exact fun h => h.extend (hnew c (length_onCompleted ..)).le (.inl rfl)
  | waitTimer c hw hlist hmem =>
    exact fun h => h.extend (hnew c (length_onCompleted ..)).le
      (.inr ⟨rfl, hnew c (length_onCompleted ..)⟩)
  | @waitTimerFired c w hw hlist hmem k e u =>
    intro acts h
    have hlt := hnew c ((length_onWaitTimeout (c.newTask.1.resolve c.tasks.length e) w).trans
      (length_resolve ..))
    exact h.extend hlt.le (.inr ⟨rfl, hlt⟩)

end Core

namespace Machine

variable {σ : Type} {sdk : Sdk σ} {m : Machine σ} {acts : List Act} {id : InstanceID}
  {oldEvents newEvents : List HistoryEvent}

theorem Replays.created (h : Replays sdk (Machine.init id oldEvents newEvents) acts m) :
    Core.Created acts m.ctx.core.tasks.length := by
  induction h with
  | nil => exact (Core.Mailed.empty id).created
  | step _ _ hdoes ih => exact ih.of_moves hdoes.ctx.moves

end Machine

/-! ### The events of a name -/

section Names

variable {env : SdkEnv} {n : String} {e : HistoryEvent}

end Names

/-! ### Pending completions carry nothing over -/

namespace Pending

/-- No pending action carries events over; that is added when the actions are returned. -/
def Bare (p : Pending) : Prop := ∀ x ∈ p.pendingActions, x.2.action.actionType.carryover = []

theorem carryover_of_kind {actionType : WorkflowActionType} {kind : Kind}
    (h : actionType.kind = some kind) : actionType.carryover = [] := by
  cases actionType <;> first | rfl | cases h

variable {p p' : Pending}

theorem Bare.insert (h : Bare p) (id : ActionID) {a : PendingAction}
    (ha : a.action.actionType.carryover = []) :
    ∀ x ∈ Assoc.insert p.pendingActions id a, x.2.action.actionType.carryover = [] := by
  intro x hx
  rcases Assoc.mem_insert.mp hx with ⟨hx, -⟩ | rfl
  · exact h x hx
  · exact ha

theorem Bare.modify (h : Bare p) (id : ActionID) {f : PendingAction → PendingAction}
    (hf : ∀ a, Alike a (f a)) :
    ∀ x ∈ Assoc.modify p.pendingActions id f, x.2.action.actionType.carryover = [] := by
  intro x hx
  obtain ⟨y, hy, -, hxy | hxy⟩ := Assoc.mem_modify hx
  · rw [hxy]
    exact h y hy
  · rw [hxy, (hf y.2).carryover]
    exact h y hy

theorem Updates.bare (hp : Updates p p') (h : Bare p) : Bare p' := by
  induction hp with
  | refl p => exact h
  | trans _ _ ih ih' => exact ih' (ih h)
  | addAction p router hkind hbare => exact h.insert _ hbare
  | registered p router task hkind =>
    have hnew := h.insert p.sequenceNumber (a := ⟨⟨p.sequenceNumber, _, router⟩, some task⟩)
      (carryover_of_kind hkind)
    unfold Pending.registered Pending.noteOptional
    split <;> exact hnew
  | buffer p buffered => exact h
  | resolve p k e hdel =>
    unfold Pending.resolve
    dsimp only
    split
    · next executionID _ => exact h.modify k.2 (alike_restored executionID)
    · exact h
  | modify p hopt hf => exact h.modify _ hf
  | removeAction p hx hopt => exact fun y hy => h y (Assoc.mem_erase.mp hy).1
  | removeTimer p id => exact fun y hy => h y (Assoc.mem_erase.mp hy).1
  | @dropAt p id hopt =>
    intro y hy
    obtain ⟨x, hx, rfl⟩ := List.mem_map.mp hy
    have hsame : (shiftAction id x).2.action.actionType = x.2.action.actionType := by
      unfold shiftAction
      split <;> rfl
    rw [hsame]
    exact h x (Assoc.mem_erase.mp hx).1

end Pending

namespace Act

variable {a : Act} {n : String} {w : Nat}

end Act

namespace Core

/-- The events of a name that no wait got. -/
def kept (c : Core) (n : String) : List HistoryEvent := (Assoc.get? c.bufferedExternalEvents n).getD []

/-- The pending waits for a name. -/
def waits (c : Core) (n : String) : List Nat :=
  ((Assoc.get? c.pendingExternalEventTasks n).map (c.waitLists.getD · [])).getD []

variable {acts : List Act} {c : Core} {n : String}

end Core

theorem Machine.Replays.trans {σ : Type} {sdk : Sdk σ} {m₀ m m' : Machine σ} {acts acts' : List Act}
    (h : Machine.Replays sdk m₀ acts m) (h' : Machine.Replays sdk m acts' m') :
    Machine.Replays sdk m₀ (acts ++ acts') m' := by
  induction h' with
  | nil => exact (List.append_nil acts).symm ▸ h
  | step _ hstep hdoes ih => exact List.append_assoc .. ▸ ih.step hstep hdoes

namespace CarryoverExample

open SuspensionExample (env started)

/-- Wait twice for an event, the first time not for long, and continue as new. -/
inductive Flow
  | begin
  | first (wait : TaskRef)
  | second (wait wait' : TaskRef)
  | awaiting (wait' : TaskRef)
  | renewing
  | finished

def next : Flow → Step Flow
  | .begin => .call (.waitForSingleEvent "go" 5) fun
    | .task t => .first t
    | _ => .finished
  | .first t => .call (.waitForSingleEvent "go" (-1)) fun
    | .task t' => .second t t'
    | _ => .finished
  | .second t t' => .call (.await t none) fun _ => .awaiting t'
  | .awaiting t' => .call (.await t' none) fun _ => .renewing
  | .renewing => .call (.continueAsNew .nil true) fun _ => .finished
  | .finished => .ret (.ok .nil)

def sdk : Sdk Flow := { env := env, registry := { workflows := [("wf", .begin)] }, next := next }

def raised (input : String) : HistoryEvent :=
  { eventType := .eventRaised { name := "go", input := some input } }

/-- The timer of the first wait fires before the events arrive. -/
def events : List HistoryEvent :=
  started ++ [{ eventType := .timerFired { timerId := 0, fireAt := 5 } }, raised "a", raised "b"]

def replay : Machine Flow := (Machine.init "i" [] events).run sdk 30

end CarryoverExample

end DurableTask.Task
