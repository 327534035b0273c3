import Mathlib

/-!
# Workers and their task hub

`worker` of `backend/worker.go` and `taskHubWorker` of `backend/taskhub.go`, as steps of their goroutines
in any order: the polling loop, the goroutine of each work item, the one that waits for the drain, and the
shutdown of the hub. What the processor and the backend answer is arbitrary, and so is the time at which a
context is cancelled.
-/

namespace DurableTask

/-- Where the polling goroutine is. -/
inductive Poll
  /-- At `w.parallelLock <- struct{}{}`. -/
  | acquiring
  /-- In `NextWorkItem`. -/
  | fetching
  /-- In `waitForWorkerRetry`. -/
  | waiting
  /-- `pollDone` is closed. -/
  | stopped
deriving DecidableEq

/-- The context and the polling goroutine of a call of `Start`. -/
structure Session where
  cancelled : Bool := false
  poll : Poll := .acquiring

/-- Where `processWorkItem` is. -/
inductive WorkPhase
  | processing
  | completing
  | abandoning
  /-- It has returned. -/
  | releasing
  /-- The slot is given back, `workWG.Done` is next. -/
  | released
deriving DecidableEq

structure Work (α : Type) where
  item : α
  phase : WorkPhase := .processing

/-- `worker`. The fields that `Start` sets are set and reset together, under `mu`, and while they are set
another `Start` does nothing: they are one session. Sessions are numbered, `finished` counts those that
have reset the fields. The work items that were ever taken, and those that were completed (`true`) or
abandoned, are for specifications. -/
structure Worker (α : Type) where
  /-- How many slots of `parallelLock` are taken. -/
  parallelLock : Nat := 0
  /-- The goroutines that `workWG` counts. -/
  working : List (Work α) := []
  session : Option Session := none
  finished : Nat := 0
  /-- The sessions whose `drainDone` is closed. -/
  drained : List Nat := []
  taken : List α := []
  ended : List (α × Bool) := []

/-- The context is cancelled, or the polling goroutine takes a step that concerns nobody else. -/
inductive Session.Step (s : Session) : Session → Prop
  | cancel : Step s { s with cancelled := true }
  | stop (poll : s.poll = .acquiring ∨ s.poll = .waiting) (cancelled : s.cancelled = true) :
    Step s { s with poll := .stopped }
  | retry (poll : s.poll = .waiting) : Step s { s with poll := .acquiring }

def Session.fetching (s : Session) : Bool := s.poll = .fetching

theorem Session.Step.fetching {s s' : Session} (h : s.Step s') : s'.fetching = s.fetching := by
  cases h with
  | cancel => rfl
  | stop poll => rcases poll with poll | poll <;> simp [Session.fetching, poll]
  | retry poll => simp [Session.fetching, poll]

namespace Work

variable {α : Type}

/-- Whether a work item holds a slot. -/
def holds (g : Work α) : Bool := g.phase ≠ .released

/-- Whether a work item is neither completed nor abandoned yet. -/
def isOpen (g : Work α) : Bool := g.phase ≠ .releasing && g.phase ≠ .released

/-- `ProcessWorkItem` or `CompleteWorkItem` returns, and `processWorkItem` goes on. -/
inductive Step (x : α) : Work α → Work α → Prop
  | processed (ok : Bool) : Step x ⟨x, .processing⟩ ⟨x, if ok then .completing else .abandoning⟩
  | refused : Step x ⟨x, .completing⟩ ⟨x, .abandoning⟩

end Work

namespace Worker

variable {α : Type} {n : Nat} {w w' : Worker α}

/-- `Start`. -/
def start (w : Worker α) : Worker α :=
  if w.session.isSome then w else { w with session := some {} }

/-- A step of a worker with `n` slots. -/
inductive Step (n : Nat) (w : Worker α) : Worker α → Prop
  | poll {s s' : Session} (session : w.session = some s) (h : s.Step s') :
    Step n w { w with session := some s' }
  | acquire {s : Session} (session : w.session = some s) (poll : s.poll = .acquiring)
    (free : w.parallelLock < n) :
    Step n w { w with
      session := some { s with poll := .fetching }, parallelLock := w.parallelLock + 1 }
  | fetched {s : Session} (session : w.session = some s) (poll : s.poll = .fetching) (x : α) :
    Step n w { w with
      session := some { s with poll := .acquiring }
      working := w.working ++ [{ item := x }], taken := w.taken ++ [x] }
  | failed {s : Session} (session : w.session = some s) (poll : s.poll = .fetching) :
    Step n w { w with
      session := some { s with poll := if s.cancelled then .stopped else .waiting }
      parallelLock := w.parallelLock - 1 }
  | work (pre : List (Work α)) {post : List (Work α)} {x : α} {g g' : Work α}
    (working : w.working = pre ++ g :: post) (h : Work.Step x g g') :
    Step n w { w with working := pre ++ g' :: post }
  | ended (pre : List (Work α)) {post : List (Work α)} {x : α} (completed : Bool)
    (working : w.working = pre ++ ⟨x, if completed then .completing else .abandoning⟩ :: post) :
    Step n w { w with
      working := pre ++ ⟨x, .releasing⟩ :: post, ended := w.ended ++ [(x, completed)] }
  | release (pre : List (Work α)) {post : List (Work α)} {x : α}
    (working : w.working = pre ++ ⟨x, .releasing⟩ :: post) :
    Step n w { w with working := pre ++ ⟨x, .released⟩ :: post, parallelLock := w.parallelLock - 1 }
  | done (pre : List (Work α)) {post : List (Work α)} {x : α}
    (working : w.working = pre ++ ⟨x, .released⟩ :: post) :
    Step n w { w with working := pre ++ post }
  | finish {s : Session} (session : w.session = some s) (poll : s.poll = .stopped)
    (working : w.working = []) : Step n w { w with session := none, finished := w.finished + 1 }
  | close {k : Nat} (finished : k < w.finished) : Step n w { w with drained := k :: w.drained }

/-- Slots are held by work items and by the polling goroutine. Every work item that was taken is being
processed, or was completed or abandoned, once. A session that is drained has finished. -/
structure Sound (n : Nat) (w : Worker α) : Prop where
  idle : w.session = none → w.working = []
  slots : w.parallelLock = w.working.countP Work.holds + w.session.toList.countP Session.fetching
  bound : w.parallelLock ≤ n
  items : w.taken.Perm ((w.working.filter Work.isOpen).map Work.item ++ w.ended.map Prod.fst)
  drained : ∀ k ∈ w.drained, k < w.finished

theorem sound_init : Sound n ({} : Worker α) :=
  ⟨fun _ => rfl, rfl, Nat.zero_le n, .nil, fun _ hk => absurd hk List.not_mem_nil⟩

theorem Sound.start (h : Sound n w) : Sound n w.start := by
  unfold Worker.start
  split
  · exact h
  · next hnone =>
    have hslots := h.slots
    rw [Option.not_isSome_iff_eq_none.mp hnone] at hslots
    exact ⟨fun hnone => absurd hnone (Option.some_ne_none _), hslots, h.bound, h.items, h.drained⟩

theorem perm_ended {xs ys zs : List α} {x : α} :
    (xs ++ x :: (ys ++ zs)).Perm (xs ++ (ys ++ (zs ++ [x]))) := by
  have h := List.perm_middle.trans (List.perm_append_singleton x (xs ++ (ys ++ zs))).symm
  simpa using h

theorem Sound.step (h : Sound n w) (hstep : Step n w w') : Sound n w' := by
  obtain ⟨hidle, hslots, hbound, hitems, hdrained⟩ := h
  have hsome {s : Session} {l : List (Work α)} (hnone : some s = none) : l = [] :=
    absurd hnone (Option.some_ne_none s)
  have hbusy {l : List (Work α)} (hwork : w.working ≠ []) (hnone : w.session = none) : l = [] :=
    absurd (hidle hnone) hwork
  cases hstep with
  | poll session hs =>
    refine ⟨hsome, ?_, hbound, hitems, hdrained⟩
    rw [hslots, session]
    simp [List.countP_cons, hs.fetching]
  | acquire session poll free =>
    refine ⟨hsome, ?_, free, hitems, hdrained⟩
    simp [session, Session.fetching, poll] at hslots ⊢
    omega
  | fetched session poll x =>
    refine ⟨hsome, ?_, hbound, ?_, hdrained⟩
    · simp [session, Session.fetching, poll, Work.holds] at hslots ⊢
      omega
    · have hperm := (List.perm_append_singleton x w.taken).trans ((hitems.cons x).trans
        List.perm_middle.symm)
      simpa [Work.isOpen] using hperm
  | @failed s session poll =>
    refine ⟨hsome, ?_, (Nat.sub_le ..).trans hbound, hitems, hdrained⟩
    cases hc : s.cancelled <;> simp [session, Session.fetching, poll] at hslots ⊢ <;> omega
  | work _ working hg =>
    rw [working] at hslots hitems
    refine ⟨hbusy (by simp [working]), ?_, hbound, ?_, hdrained⟩
    · rcases hg with ⟨_ | _⟩ | _ <;> simpa [Work.holds] using hslots
    · rcases hg with ⟨_ | _⟩ | _ <;> simpa [Work.isOpen] using hitems
  | ended _ completed working =>
    rw [working] at hslots hitems
    refine ⟨hbusy (by simp [working]), ?_, hbound, ?_, hdrained⟩
    · cases completed <;> simpa [Work.holds] using hslots
    · have hperm := hitems.trans (by cases completed <;> simpa [Work.isOpen] using perm_ended ..)
      simpa [Work.isOpen] using hperm
  | release _ working =>
    rw [working] at hslots hitems
    refine ⟨hbusy (by simp [working]), ?_, (Nat.sub_le ..).trans hbound, ?_, hdrained⟩
    · simp [Work.holds] at hslots ⊢
      omega
    · simpa [Work.isOpen] using hitems
  | done _ working =>
    rw [working] at hslots hitems
    refine ⟨hbusy (by simp [working]), ?_, hbound, ?_, hdrained⟩
    · simpa [Work.holds] using hslots
    · simpa [Work.isOpen] using hitems
  | finish session poll working =>
    refine ⟨fun _ => working, ?_, hbound, hitems, fun k hk => Nat.lt_succ_of_lt (hdrained k hk)⟩
    simpa [session, Session.fetching, poll] using hslots
  | close finished =>
    exact ⟨hidle, hslots, hbound, hitems, List.forall_mem_cons.mpr ⟨finished, hdrained⟩⟩

/-- The runs of a worker, which may be started again and again. -/
abbrev Reaches (n : Nat) : Worker α → Worker α → Prop :=
  Relation.ReflTransGen fun w w' => Step n w w' ∨ w' = w.start

/-- Nothing is processed, no slot is taken, and everything that was taken was completed or abandoned. -/
def Idle (w : Worker α) : Prop :=
  w.working = [] ∧ w.parallelLock = 0 ∧ w.taken.Perm (w.ended.map Prod.fst)

theorem Sound.idle_of_stopped (h : Sound n w) (hnone : w.session = none) : w.Idle := by
  have hslots := h.slots
  have hitems := h.items
  rw [h.idle hnone, hnone] at hslots
  rw [h.idle hnone] at hitems
  exact ⟨h.idle hnone, hslots, hitems⟩

/-- At most `n` work items are being processed. Each one that was taken is being processed, or was
completed or abandoned once. Only the `drainDone` of finished sessions is closed, and if no session runs,
the worker is idle. -/
theorem worker_safe (hrun : Reaches n {} w) :
    w.working.countP Work.holds ≤ n ∧
      w.taken.Perm ((w.working.filter Work.isOpen).map Work.item ++ w.ended.map Prod.fst) ∧
      (∀ k ∈ w.drained, k < w.finished) ∧ (w.session = none → w.Idle) := by
  have hw : Sound n w := by
    induction hrun with
    | refl => exact sound_init
    | tail _ hstep ih =>
      rcases hstep with hstep | rfl
      · exact ih.step hstep
      · exact ih.start
  exact ⟨(Nat.le_add_right ..).trans (hw.slots ▸ hw.bound), hw.items, hw.drained, hw.idle_of_stopped⟩

end Worker

/-! ### The hub -/

/-- Where `StopAndDrain` is. -/
inductive Drain
  | calling
  /-- At `cancel()`. -/
  | cancelling (session : Nat)
  /-- At `<-drainDone`. -/
  | waiting (session : Nat)
  | returned
deriving DecidableEq

/-- `StopAndDrain`, with a context that is never done. -/
inductive Worker.Drains {α : Type} (w : Worker α) : Drain → Worker α → Drain → Prop
  | idle (session : w.session = none) : Drains w .calling w .returned
  | read (session : w.session.isSome) : Drains w .calling w (.cancelling w.finished)
  | cancel {s : Session} (session : w.session = some s) : Drains w (.cancelling w.finished)
    { w with session := some { s with cancelled := true } } (.waiting w.finished)
  | late {k : Nat} (finished : k ≠ w.finished) : Drains w (.cancelling k) w (.waiting k)
  | wait {k : Nat} (drained : k ∈ w.drained) : Drains w (.waiting k) w .returned

/-- `taskHubWorker`, with its backend. `shutdown` is the goroutine of `finishShutdown`. -/
structure Hub (α β : Type) where
  workflowWorker : Worker α := {}
  activityWorker : Worker β := {}
  backend : Bool := false
  started : Bool := false
  stopping : Bool := false
  shutdown : Option (Drain × Drain) := none

namespace Hub

variable {α β : Type} {n m : Nat} {h h' : Hub α β}

/-- A step of a hub whose workers have `n` and `m` slots. A start that fails changes nothing, the
`Stop` of the backend may fail. A `ForceShutdown` cancels the sessions besides, which a step of a worker
may do at any time. -/
inductive Step (n m : Nat) (h : Hub α β) : Hub α β → Prop
  | start (stopping : h.stopping = false) (started : h.started = false) :
    Step n m h { h with
      backend := true, workflowWorker := h.workflowWorker.start
      activityWorker := h.activityWorker.start, started := true }
  | workflow {w : Worker α} (step : h.workflowWorker.Step n w) :
    Step n m h { h with workflowWorker := w }
  | activity {w : Worker β} (step : h.activityWorker.Step m w) :
    Step n m h { h with activityWorker := w }
  | shutdown (started : h.started = true) (stopping : h.stopping = false) :
    Step n m h { h with stopping := true, shutdown := some (.calling, .calling) }
  | drainWorkflow {d d' e : Drain} {w : Worker α} (shutdown : h.shutdown = some (d, e))
    (step : h.workflowWorker.Drains d w d') :
    Step n m h { h with workflowWorker := w, shutdown := some (d', e) }
  | drainActivity {d e e' : Drain} {w : Worker β} (shutdown : h.shutdown = some (d, e))
    (step : h.activityWorker.Drains e w e') :
    Step n m h { h with activityWorker := w, shutdown := some (d, e') }
  | stop (shutdown : h.shutdown = some (.returned, .returned)) : Step n m h { h with backend := false }
  | finish (shutdown : h.shutdown = some (.returned, .returned)) :
    Step n m h { h with started := false, stopping := false, shutdown := none }

/-- How far the drain of a worker is: no session runs but the one that is waited for. -/
def Fits (w : Worker α) : Drain → Prop
  | .calling => True
  | .cancelling k | .waiting k => w.session.isSome → k = w.finished
  | .returned => w.session = none

/-- Without a start no session begins. -/
def Quiet (w w' : Worker α) : Prop :=
  w'.session.isSome → w.session.isSome ∧ w'.finished = w.finished

theorem Quiet.none {w w' : Worker α} (h : Quiet w w') (hnone : w.session = none) : w'.session = none := by
  refine Option.not_isSome_iff_eq_none.mp fun hsome => Bool.false_ne_true ?_
  have hsession := (h hsome).1
  rwa [hnone] at hsession

theorem Fits.quiet {w w' : Worker α} {d : Drain} (hd : Fits w d) (h : Quiet w w') : Fits w' d := by
  cases d with
  | calling => trivial
  | cancelling k | waiting k => exact fun hsome => (hd (h hsome).1).trans (h hsome).2.symm
  | returned => exact h.none hd

theorem quiet_step {w w' : Worker α} (h : w.Step n w') : Quiet w w' := by
  cases h with
  | poll session | acquire session | fetched session | failed session =>
    exact fun _ => ⟨by rw [session]; rfl, rfl⟩
  | finish => exact Bool.false_ne_true.elim
  | _ => exact fun hsome => ⟨hsome, rfl⟩

theorem Quiet.refl (w : Worker α) : Quiet w w := fun hsome => ⟨hsome, rfl⟩

theorem sound_drains {w w' : Worker α} {d d' : Drain} (hw : w.Sound n) (hd : Fits w d)
    (h : w.Drains d w' d') : w'.Sound n ∧ Quiet w w' ∧ Fits w' d' := by
  cases h with
  | idle session => exact ⟨hw, .refl w, session⟩
  | read => exact ⟨hw, .refl w, fun _ => rfl⟩
  | cancel session =>
    have hstep : w.Step n _ := .poll session .cancel
    exact ⟨hw.step hstep, quiet_step hstep, fun _ => rfl⟩
  | late => exact ⟨hw, .refl w, hd⟩
  | wait drained =>
    exact ⟨hw, .refl w, Option.not_isSome_iff_eq_none.mp fun hsome =>
      Nat.ne_of_lt (hw.drained _ drained) (hd hsome)⟩

structure Sound (n m : Nat) (h : Hub α β) : Prop where
  workflow : h.workflowWorker.Sound n
  activity : h.activityWorker.Sound m
  draining : ∀ d e, h.shutdown = some (d, e) →
    h.stopping = true ∧ Fits h.workflowWorker d ∧ Fits h.activityWorker e
  backend : h.backend = false → h.workflowWorker.session = none ∧ h.activityWorker.session = none

/-- The workers take steps, and the drains go on. -/
theorem Sound.quiet (hh : Sound n m h) (hw : h'.workflowWorker.Sound n) (ha : h'.activityWorker.Sound m)
    (hqw : Quiet h.workflowWorker h'.workflowWorker) (hqa : Quiet h.activityWorker h'.activityWorker)
    (hbackend : h'.backend = h.backend)
    (hdrain : ∀ d e, h'.shutdown = some (d, e) →
      h'.stopping = true ∧ Fits h'.workflowWorker d ∧ Fits h'.activityWorker e) : Sound n m h' := by
  refine ⟨hw, ha, hdrain, fun hb => ?_⟩
  obtain ⟨hnone, hnone'⟩ := hh.backend (hbackend ▸ hb)
  exact ⟨hqw.none hnone, hqa.none hnone'⟩

theorem Sound.step (hh : Sound n m h) (hstep : Step n m h h') : Sound n m h' := by
  cases hstep with
  | start stopping started =>
    refine ⟨hh.workflow.start, hh.activity.start, fun d e hd => ?_, Bool.noConfusion⟩
    have hstopping := (hh.draining d e hd).1
    rw [stopping] at hstopping
    cases hstopping
  | workflow step =>
    refine hh.quiet (hh.workflow.step step) hh.activity (quiet_step step) (.refl _) rfl fun d e hd => ?_
    obtain ⟨hs, hfits, hfits'⟩ := hh.draining d e hd
    exact ⟨hs, hfits.quiet (quiet_step step), hfits'⟩
  | activity step =>
    refine hh.quiet hh.workflow (hh.activity.step step) (.refl _) (quiet_step step) rfl fun d e hd => ?_
    obtain ⟨hs, hfits, hfits'⟩ := hh.draining d e hd
    exact ⟨hs, hfits, hfits'.quiet (quiet_step step)⟩
  | shutdown started stopping =>
    refine hh.quiet hh.workflow hh.activity (.refl _) (.refl _) rfl fun d e hd => ?_
    cases hd
    exact ⟨rfl, trivial, trivial⟩
  | drainWorkflow shutdown step =>
    obtain ⟨hs, hfits, hfits'⟩ := hh.draining _ _ shutdown
    obtain ⟨hw, hq, hd'⟩ := sound_drains hh.workflow hfits step
    refine hh.quiet hw hh.activity hq (.refl _) rfl fun d e hd => ?_
    cases hd
    exact ⟨hs, hd', hfits'⟩
  | drainActivity shutdown step =>
    obtain ⟨hs, hfits, hfits'⟩ := hh.draining _ _ shutdown
    obtain ⟨ha, hq, hd'⟩ := sound_drains hh.activity hfits' step
    refine hh.quiet hh.workflow ha (.refl _) hq rfl fun d e hd => ?_
    cases hd
    exact ⟨hs, hfits, hd'⟩
  | stop shutdown =>
    exact ⟨hh.workflow, hh.activity, hh.draining, fun _ => (hh.draining _ _ shutdown).2⟩
  | finish shutdown =>
    exact hh.quiet hh.workflow hh.activity (.refl _) (.refl _) rfl fun d e hd => by cases hd

/-- While the backend is stopped, both workers are idle: it is stopped after they have drained, and no
worker is started before it. -/
theorem idle_while_stopped (hrun : Relation.ReflTransGen (Step n m) {} h) :
    h.backend = false → h.workflowWorker.Idle ∧ h.activityWorker.Idle := by
  have hsound : Sound n m h := by
    induction hrun with
    | refl =>
      exact ⟨Worker.sound_init, Worker.sound_init, fun d e hd => (by cases hd), fun _ => ⟨rfl, rfl⟩⟩
    | tail _ hstep ih => exact ih.step hstep
  intro hstopped
  obtain ⟨hw, ha⟩ := hsound.backend hstopped
  exact ⟨hsound.workflow.idle_of_stopped hw, hsound.activity.idle_of_stopped ha⟩

end Hub

namespace WorkerExample

open Relation (ReflTransGen)

/-- A worker with one slot that has completed a work item, and takes the next. -/
def busy : Worker String :=
  { parallelLock := 1, session := some { poll := .fetching }, taken := ["first"]
    ended := [("first", true)] }

theorem busy_safe : busy.working.countP Work.holds ≤ 1 := by
  have hrun : Worker.Reaches 1 {} _ :=
    (((((((ReflTransGen.refl.tail (.inr rfl)).tail (.inl (.acquire rfl rfl Nat.zero_lt_one))).tail
      (.inl (.fetched rfl rfl "first"))).tail (.inl (.work [] rfl (.processed true)))).tail
      (.inl (.ended [] true rfl))).tail (.inl (.release [] rfl))).tail
      (.inl (.done [] rfl))).tail (.inl (.acquire rfl rfl Nat.zero_lt_one))
  exact (Worker.worker_safe hrun).1

/-- A hub that was started and shut down. -/
def down : Hub String String :=
  { workflowWorker := { finished := 1, drained := [0] }
    activityWorker := { finished := 1, drained := [0] } }

theorem down_idle : down.workflowWorker.Idle ∧ down.activityWorker.Idle := by
  have hrun : ReflTransGen (Hub.Step 1 1) ({} : Hub String String) _ :=
    (((((((((((((((ReflTransGen.refl.tail (.start rfl rfl)).tail (.shutdown rfl rfl)).tail
      (.drainWorkflow rfl (.read rfl))).tail (.drainWorkflow rfl (.cancel rfl))).tail
      (.drainActivity rfl (.read rfl))).tail (.drainActivity rfl (.cancel rfl))).tail
      (.workflow (.poll rfl (.stop (.inl rfl) rfl)))).tail (.workflow (.finish rfl rfl rfl))).tail
      (.workflow (.close Nat.zero_lt_one))).tail (.activity (.poll rfl (.stop (.inl rfl) rfl)))).tail
      (.activity (.finish rfl rfl rfl))).tail (.activity (.close Nat.zero_lt_one))).tail
      (.drainWorkflow rfl (.wait List.mem_cons_self))).tail
      (.drainActivity rfl (.wait List.mem_cons_self))).tail (.stop rfl)).tail (.finish rfl)
  exact Hub.idle_while_stopped hrun rfl

end WorkerExample

end DurableTask
