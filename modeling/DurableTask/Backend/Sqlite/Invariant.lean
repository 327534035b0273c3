import DurableTask.Lib.Run
import DurableTask.Backend.Sqlite.Lease
import DurableTask.Backend.Turned

/-!
# Invariants of the system

What one call does, and the rule that every invariant of the store is proved with. It carries what is
known of the work items that are still leased: something about an acquired one, and something about a
processed one, both in terms of what a lease protects.
-/

namespace DurableTask.Sqlite

open Table

/-! ### What a call does -/

/-- A call and the system after it. A call that fails changes nothing. -/
inductive System.Exec (opts : SqliteOptions) (s : System) : Op → System → Prop
  | fails (op : Op) : Exec opts s op s
  | createWorkflowInstance {e : HistoryEvent} {db' : Db}
    (h : s.db.createWorkflowInstance e = .ok db') :
    Exec opts s (.createWorkflowInstance e) { s with db := db' }
  | addNewWorkflowEvent {iid : InstanceID} {e : HistoryEvent} {db' : Db}
    (h : s.db.addNewWorkflowEvent iid e = .ok db') :
    Exec opts s (.addNewWorkflowEvent iid e) { s with db := db' }
  | addNewWorkflowEventWithExternalDelivery {iid : InstanceID} {eventName deliveryID : String}
    {e : HistoryEvent} {db' : Db}
    (h : s.db.addNewWorkflowEventWithExternalDelivery iid eventName deliveryID e = .ok db') :
    Exec opts s (.addNewWorkflowEventWithExternalDelivery iid eventName deliveryID e)
      { s with db := db' }
  | purgeWorkflowState {id : InstanceID} {db' : Db} (h : s.db.purgeWorkflowState id = .ok db') :
    Exec opts s (.purgeWorkflowState id) { s with db := db' }
  | getWorkflowWorkItem {now : Time} {t : String} {db' : Db} {wi : Option WorkflowWorkItem}
    (fresh : t ∉ s.tokens) (h : s.db.getWorkflowWorkItem opts now t = .ok (db', wi)) :
    Exec opts s (.getWorkflowWorkItem now t)
      { s with db := db', acquired := s.acquired ++ wi.toList, tokens := t :: s.tokens }
  | processWorkItem {w : WorkflowProcessor} {env : ProcessEnv} {wi wi' : WorkflowWorkItem}
    (held : wi ∈ s.acquired) (h : w.processWorkItem env
      { wi with state := s.db.getWorkflowRuntimeState wi.instanceID } = .ok wi') :
    Exec opts s (.processWorkItem wi.lockedBy w env)
      { s with
        acquired := s.acquired.filter (·.lockedBy ≠ wi.lockedBy)
        processed := s.processed ++ [wi'] }
  | completeWorkflowWorkItem {wi : WorkflowWorkItem} {now : Time} {db' : Db}
    (held : wi ∈ s.processed) (h : s.db.completeWorkflowWorkItem now wi = .ok db') :
    Exec opts s (.completeWorkflowWorkItem wi.lockedBy now)
      ({ s with db := db' }.release wi.lockedBy)
  | abandonWorkflowWorkItem {wi : WorkflowWorkItem} {now : Time} {db' : Db}
    (held : wi ∈ s.acquired ++ s.processed) (h : s.db.abandonWorkflowWorkItem now wi = .ok db') :
    Exec opts s (.abandonWorkflowWorkItem wi.lockedBy now)
      ({ s with db := db' }.release wi.lockedBy)
  | getActivityWorkItem {now : Time} {t : String} (fresh : t ∉ s.tokens) :
    Exec opts s (.getActivityWorkItem now t)
      { s with
        db := (s.db.getActivityWorkItem opts now t).1
        activities := s.activities ++ (s.db.getActivityWorkItem opts now t).2.toList
        tokens := t :: s.tokens }
  | completeActivityWorkItem {wi : ActivityWorkItem} {result : HistoryEvent} {db' : Db}
    (held : wi ∈ s.activities) (h : s.db.completeActivityWorkItem wi result = .ok db') :
    Exec opts s (.completeActivityWorkItem wi.lockedBy result)
      { s with db := db', activities := s.activities.filter (·.lockedBy ≠ wi.lockedBy) }
  | abandonActivityWorkItem {wi : ActivityWorkItem} {db' : Db}
    (held : wi ∈ s.activities) (h : s.db.abandonActivityWorkItem wi = .ok db') :
    Exec opts s (.abandonActivityWorkItem wi.lockedBy)
      { s with db := db', activities := s.activities.filter (·.lockedBy ≠ wi.lockedBy) }

theorem System.Exec.commit {opts : SqliteOptions} {s : System} {op : Op} {r : Except StoreError Db}
    (h : ∀ db', r = .ok db' → Exec opts s op { s with db := db' }) : Exec opts s op (s.commit r) := by
  cases r with
  | error => exact .fails op
  | ok db' => exact h db' rfl

theorem System.exec_spec (opts : SqliteOptions) (s : System) (op : Op) :
    Exec opts s op (s.exec opts op) := by
  cases op with
  | createWorkflowInstance e => exact .commit fun _ h => .createWorkflowInstance h
  | addNewWorkflowEvent iid e => exact .commit fun _ h => .addNewWorkflowEvent h
  | addNewWorkflowEventWithExternalDelivery iid eventName deliveryID e =>
    exact .commit fun _ h => .addNewWorkflowEventWithExternalDelivery h
  | purgeWorkflowState id => exact .commit fun _ h => .purgeWorkflowState h
  | getWorkflowWorkItem now t =>
    unfold exec System.getWorkflowWorkItem
    dsimp only
    split
    · exact .fails _
    · next fresh =>
      split
      · exact .fails _
      · next db' wi h => exact .getWorkflowWorkItem fresh h
  | processWorkItem t w env =>
    unfold exec System.processWorkItem
    dsimp only
    split
    · exact .fails _
    · next wi hfind =>
      have ht : wi.lockedBy = t := by simpa using List.find?_some hfind
      subst ht
      split
      · exact .fails _
      · next wi' h => exact .processWorkItem (List.mem_of_find?_eq_some hfind) h
  | completeWorkflowWorkItem t now =>
    unfold exec System.completeWorkflowWorkItem
    dsimp only
    split
    · exact .fails _
    · next wi hfind =>
      have ht : wi.lockedBy = t := by simpa using List.find?_some hfind
      subst ht
      split
      · exact .fails _
      · next db' h => exact .completeWorkflowWorkItem (List.mem_of_find?_eq_some hfind) h
  | abandonWorkflowWorkItem t now =>
    unfold exec System.abandonWorkflowWorkItem
    dsimp only
    split
    · exact .fails _
    · next wi hfind =>
      have ht : wi.lockedBy = t := by simpa using List.find?_some hfind
      subst ht
      split
      · exact .fails _
      · next db' h => exact .abandonWorkflowWorkItem (List.mem_of_find?_eq_some hfind) h
  | getActivityWorkItem now t =>
    unfold exec System.getActivityWorkItem
    dsimp only
    split
    · exact .fails _
    · next fresh => exact .getActivityWorkItem fresh
  | completeActivityWorkItem t result =>
    unfold exec System.endActivity
    dsimp only
    split
    · exact .fails _
    · next wi hfind =>
      have ht : wi.lockedBy = t := by simpa using List.find?_some hfind
      subst ht
      split
      · exact .fails _
      · next db' h => exact .completeActivityWorkItem (List.mem_of_find?_eq_some hfind) h
  | abandonActivityWorkItem t =>
    unfold exec System.endActivity
    dsimp only
    split
    · exact .fails _
    · next wi hfind =>
      have ht : wi.lockedBy = t := by simpa using List.find?_some hfind
      subst ht
      split
      · exact .fails _
      · next db' h => exact .abandonActivityWorkItem (List.mem_of_find?_eq_some hfind) h

/-! ### Transactions -/

namespace Db

variable {opts : SqliteOptions} {P : Db → WorkflowWorkItem → Prop} {db db' : Db}

/-- The transaction of a call. `P` is what is known of a processed work item while it is leased. -/
inductive Transaction (opts : SqliteOptions) (P : Db → WorkflowWorkItem → Prop) (db : Db) :
    Op → Db → Prop
  | idle (op : Op) : Transaction opts P db op db
  | createWorkflowInstance {e : HistoryEvent} {db' : Db}
    (h : db.createWorkflowInstance e = .ok db') :
    Transaction opts P db (.createWorkflowInstance e) db'
  | addNewWorkflowEvent {iid : InstanceID} {e : HistoryEvent} {db' : Db}
    (h : db.addNewWorkflowEvent iid e = .ok db') :
    Transaction opts P db (.addNewWorkflowEvent iid e) db'
  | addNewWorkflowEventWithExternalDelivery {iid : InstanceID} {eventName deliveryID : String}
    {e : HistoryEvent} {db' : Db}
    (h : db.addNewWorkflowEventWithExternalDelivery iid eventName deliveryID e = .ok db') :
    Transaction opts P db (.addNewWorkflowEventWithExternalDelivery iid eventName deliveryID e) db'
  | purgeWorkflowState {id : InstanceID} {db' : Db} (h : db.purgeWorkflowState id = .ok db') :
    Transaction opts P db (.purgeWorkflowState id) db'
  | getWorkflowWorkItem {now : Time} {t : String} {wi : Option WorkflowWorkItem} {db' : Db}
    (h : db.getWorkflowWorkItem opts now t = .ok (db', wi)) :
    Transaction opts P db (.getWorkflowWorkItem now t) db'
  | completeWorkflowWorkItem {now : Time} {wi : WorkflowWorkItem} {db' : Db}
    (leased : db.leasedBy wi.instanceID wi.lockedBy) (held : P db wi)
    (h : db.completeWorkflowWorkItem now wi = .ok db') :
    Transaction opts P db (.completeWorkflowWorkItem wi.lockedBy now) db'
  | abandonWorkflowWorkItem {now : Time} {wi : WorkflowWorkItem} {db' : Db}
    (h : db.abandonWorkflowWorkItem now wi = .ok db') :
    Transaction opts P db (.abandonWorkflowWorkItem wi.lockedBy now) db'
  | getActivityWorkItem (now : Time) (t : String) :
    Transaction opts P db (.getActivityWorkItem now t) (db.getActivityWorkItem opts now t).1
  | completeActivityWorkItem {wi : ActivityWorkItem} {result : HistoryEvent} {db' : Db}
    (h : db.completeActivityWorkItem wi result = .ok db') :
    Transaction opts P db (.completeActivityWorkItem wi.lockedBy result) db'
  | abandonActivityWorkItem {wi : ActivityWorkItem} {db' : Db}
    (h : db.abandonActivityWorkItem wi = .ok db') :
    Transaction opts P db (.abandonActivityWorkItem wi.lockedBy) db'

/-! ### Instances and history -/

/-- What the statements of a transaction do to `Instances` and `History`. -/
inductive Ledger (P : Db → WorkflowWorkItem → Prop) (db : Db) : Db → Prop
  | queues {db' : Db} (instances : db'.instances = db.instances) (history : db'.history = db.history) :
    Ledger P db db'
  | lock {db' : Db} (p : InstanceRow → Bool) (lockedBy : Option String) (lockExpiration : Option Time)
    (instances : db'.instances = update p (InstanceRow.setLock lockedBy lockExpiration) db.instances)
    (history : db'.history = db.history) : Ledger P db db'
  | create {e : HistoryEvent} {db' : Db} (h : db.createWorkflowInstanceInternal e = .ok db') :
    Ledger P db db'
  | delete (id : InstanceID) : Ledger P db (db.deleteInstance id)
  | turn {now : Time} {wi : WorkflowWorkItem} {db' : Db}
    (leased : db.leasedBy wi.instanceID wi.lockedBy) (held : P db wi)
    (h : ((db.commitInstance now wi).resetGeneration wi).insertHistory wi.instanceID
      wi.state.oldEvents.length wi.state.newEvents = .ok db') : Ledger P db db'

theorem Ledger.mono {P' : Db → WorkflowWorkItem → Prop} (h : Ledger P db db')
    (hP : ∀ db wi, P db wi → P' db wi) : Ledger P' db db' := by
  cases h with
  | queues instances history => exact .queues instances history
  | lock p lockedBy lockExpiration instances history =>
    exact .lock p lockedBy lockExpiration instances history
  | create h => exact .create h
  | delete id => exact .delete id
  | turn leased held h => exact .turn leased (hP _ _ held) h

/-- Statements on `Instances` and `History`, one after the other. -/
abbrev Ledgers (P : Db → WorkflowWorkItem → Prop) : Db → Db → Prop := Relation.ReflTransGen (Ledger P)

theorem Ledgers.mono {P' : Db → WorkflowWorkItem → Prop} (h : Ledgers P db db')
    (hP : ∀ db wi, P db wi → P' db wi) : Ledgers P' db db' := by
  induction h with
  | refl => exact .refl
  | tail _ hstep ih => exact ih.tail (hstep.mono hP)

theorem ledgers_startInstance {msg : WorkflowRuntimeStateMessage}
    (h : db.startInstance msg = .ok db') : Ledgers P db db' :=
  startInstance_invariant (I := Ledgers P db) h .refl (fun _ _ hx => hx.tail (.delete _))
    fun _ _ hx hy => hx.tail (.create hy)

theorem insertTasks_frame (db : Db) (wi : WorkflowWorkItem) (origin : Origin) :
    ∃ newTasks, db.insertTasks wi origin = { db with newTasks := newTasks } := by
  unfold insertTasks
  induction wi.state.pendingTasks generalizing db with
  | nil => exact ⟨db.newTasks, rfl⟩
  | cons e es ih =>
    obtain ⟨newTasks, h⟩ := ih (db.insertNewTask wi.instanceID origin e)
    exact ⟨newTasks, h⟩

theorem enqueueOutbox_frame (db : Db) (wi : WorkflowWorkItem) (origin : Origin) :
    ∃ newEvents enqueued, db.enqueueOutbox wi origin =
      { db with newEvents := newEvents, enqueued := enqueued } := by
  unfold enqueueOutbox
  have hmsgs (msgs : List WorkflowRuntimeStateMessage) (db : Db) : ∃ newEvents enqueued,
      msgs.foldl (fun db msg => db.enqueueMessage origin msg) db =
        { db with newEvents := newEvents, enqueued := enqueued } := by
    induction msgs generalizing db with
    | nil => exact ⟨_, _, rfl⟩
    | cons msg msgs ih =>
      obtain ⟨newEvents, enqueued, h⟩ := ih (db.enqueueMessage origin msg)
      exact ⟨newEvents, enqueued, h⟩
  have htimers (timers : List HistoryEvent) (db : Db) : ∃ newEvents enqueued,
      timers.foldl (fun db e => db.enqueueTimer wi.instanceID origin e) db =
        { db with newEvents := newEvents, enqueued := enqueued } := by
    induction timers generalizing db with
    | nil => exact ⟨_, _, rfl⟩
    | cons e es ih =>
      obtain ⟨newEvents, enqueued, h⟩ := ih (db.enqueueTimer wi.instanceID origin e)
      exact ⟨newEvents, enqueued, h⟩
  obtain ⟨newEvents, enqueued, h⟩ := htimers wi.state.pendingTimers db
  obtain ⟨newEvents', enqueued', h'⟩ := hmsgs (messages wi) { db with newEvents, enqueued }
  exact ⟨newEvents', enqueued', h ▸ h'⟩

theorem ledgers_complete {now : Time} {wi : WorkflowWorkItem}
    (leased : db.leasedBy wi.instanceID wi.lockedBy) (held : P db wi)
    (h : db.completeWorkflowWorkItem now wi = .ok db') : Ledgers P db db' := by
  obtain ⟨db₁, db₂, db₃, h⟩ := completes_of_ok h
  have hturn : Ledgers P db db₁ := .single (.turn leased held h.inserted)
  have htasks : Ledgers P db (db₁.insertTasks wi (db.committing wi)) := by
    obtain ⟨newTasks, htasks⟩ := insertTasks_frame db₁ wi (db.committing wi)
    rw [htasks]
    exact hturn.tail (.queues rfl rfl)
  have hresults : Ledgers P db db₂ := by
    refine Except.foldlM_invariant (I := Ledgers P db) h.results htasks fun x msg y _ hx hstep => ?_
    obtain ⟨_, -, ⟨target, -, -, rfl⟩ | ⟨-, rfl⟩⟩ := enqueueChildResult_eq hstep
    · exact hx.tail (.queues rfl rfl)
    · exact hx
  have hstarted : Ledgers P db db₃ :=
    Except.foldlM_invariant (I := Ledgers P db) h.started hresults
      fun x msg y _ hx hstep => hx.trans (ledgers_startInstance hstep)
  obtain ⟨newEvents, enqueued, hout⟩ := enqueueOutbox_frame db₃ wi (db.committing wi)
  obtain ⟨-, rfl⟩ := acknowledge_eq h.acknowledged
  rw [hout]
  exact hstarted.tail (.queues rfl rfl)

theorem Transaction.ledgers {op : Op} (h : Transaction opts P db op db') : Ledgers P db db' := by
  cases h with
  | idle => exact .refl
  | createWorkflowInstance h =>
    unfold Db.createWorkflowInstance at h
    split at h
    · cases h
    · obtain ⟨created, hcreate, h⟩ := Except.bind_eq_ok.mp h
      cases h
      exact .tail (.single (.create hcreate)) (.queues rfl rfl)
  | addNewWorkflowEvent h =>
    obtain ⟨-, rfl⟩ := addNewWorkflowEvent_eq h
    exact .single (.queues rfl rfl)
  | addNewWorkflowEventWithExternalDelivery h =>
    obtain ⟨-, ⟨-, rfl⟩ | ⟨-, rfl⟩⟩ := addNewWorkflowEventWithExternalDelivery_eq h
    · exact .refl
    · exact .single (.queues rfl rfl)
  | purgeWorkflowState h =>
    obtain ⟨rfl, -⟩ := cleanup_eq h
    exact .single (.delete _)
  | getWorkflowWorkItem h =>
    cases acquires_of_getWorkflowWorkItem h with
    | idle => exact .refl
    | stale => exact .single (.lock _ _ _ rfl rfl)
    | lease => exact .single (.lock _ _ _ rfl rfl)
  | completeWorkflowWorkItem leased held h => exact ledgers_complete leased held h
  | abandonWorkflowWorkItem h =>
    obtain ⟨-, -, visibleTime, rfl⟩ := abandon_eq h
    exact .single (.lock _ _ _ rfl rfl)
  | getActivityWorkItem now t =>
    obtain ⟨newTasks, h, -⟩ := getActivityWorkItem_eq db opts now t
    rw [h]
    exact .single (.queues rfl rfl)
  | completeActivityWorkItem h =>
    obtain ⟨task, -, rfl⟩ := completeActivityWorkItem_eq h
    exact .single (.queues rfl rfl)
  | abandonActivityWorkItem h =>
    obtain ⟨newTasks, rfl, -⟩ := abandonActivityWorkItem_eq h
    exact .single (.queues rfl rfl)

/-- `InstanceID` is a key of `Instances`. -/
def Keyed (db : Db) : Prop := (db.instances.map InstanceRow.instanceID).Nodup

theorem Ledger.keyed (h : Ledger P db db') (hk : db.Keyed) : db'.Keyed := by
  unfold Keyed at hk ⊢
  cases h with
  | queues instances history => rwa [instances]
  | lock p lockedBy lockExpiration instances history =>
    have hmap : (update p (InstanceRow.setLock lockedBy lockExpiration) db.instances).map
        InstanceRow.instanceID = db.instances.map InstanceRow.instanceID := map_update fun _ => rfl
    rwa [instances, hmap]
  | create h =>
    obtain ⟨r, hnone, -, -, -, -, -, -, -, -, rfl⟩ := createWorkflowInstanceInternal_eq h
    rw [List.map_append, List.nodup_append]
    refine ⟨hk, List.nodup_cons.mpr ⟨List.not_mem_nil, .nil⟩, ?_⟩
    rintro id hid id' hid' rfl
    rw [List.map_singleton, List.mem_singleton] at hid'
    obtain ⟨r', hr', rfl⟩ := List.mem_map.mp hid
    have hfind := List.find?_eq_none.mp hnone r' hr'
    exact hfind (decide_eq_true hid')
  | delete id => exact hk.sublist (List.filter_sublist.map _)
  | @turn now wi _ leased held h =>
    obtain ⟨-, rfl⟩ := insertHistory_eq h
    have hmap : (db.commitInstance now wi).instances.map InstanceRow.instanceID =
        db.instances.map InstanceRow.instanceID :=
      map_update fun r => (InstanceRow.commit_frame now wi.state r).1
    unfold resetGeneration
    split <;> exact hmap.symm ▸ hk

theorem Ledgers.keyed (h : Ledgers P db db') (hk : db.Keyed) : db'.Keyed := by
  induction h with
  | refl => exact hk
  | tail _ hstep ih => exact hstep.keyed ih

/-- The row that a transaction finds leased is the row of its instance. -/
theorem Keyed.leasedBy (hk : db.Keyed) {wi : WorkflowWorkItem}
    (h : db.instances.any (InstanceRow.isLeased wi) = true) :
    db.leasedBy wi.instanceID wi.lockedBy := by
  obtain ⟨r, hr, hleased⟩ := List.any_eq_true.mp h
  obtain ⟨hid, hlock⟩ := Bool.and_eq_true_iff.mp hleased
  have hid := of_decide_eq_true hid
  refine ⟨r, ?_, of_decide_eq_true hlock⟩
  cases hfind : db.instance? wi.instanceID with
  | none => exact absurd (decide_eq_true hid) (List.find?_eq_none.mp hfind r hr)
  | some r' =>
    have hid' := instanceID_of_instance? hfind
    rw [List.inj_on_of_nodup_map hk (List.mem_of_find?_eq_some hfind) hr (hid'.trans hid.symm)]

end Db

/-! ### Lease tokens -/

namespace System

variable {opts : SqliteOptions} {s s' : System} {op : Op}

/-- Every work item has a token of its own. -/
structure Tokens (s : System) : Prop where
  known : ∀ wi ∈ s.acquired ++ s.processed, wi.lockedBy ∈ s.tokens
  nodup : ((s.acquired ++ s.processed).map WorkflowWorkItem.lockedBy).Nodup

theorem Tokens.release (h : s.Tokens) (t : String) (db : Db) :
    ({ s with db := db }.release t).Tokens := by
  have hsub : (s.acquired.filter (·.lockedBy ≠ t) ++ s.processed.filter (·.lockedBy ≠ t)).Sublist
      (s.acquired ++ s.processed) := List.filter_sublist.append List.filter_sublist
  exact ⟨fun wi hwi => h.known wi (hsub.mem hwi), h.nodup.sublist (hsub.map _)⟩

/-- A work item that is moved from the acquired ones to the processed ones. -/
theorem Tokens.process (h : s.Tokens) {wi wi' : WorkflowWorkItem} (hwi : wi ∈ s.acquired)
    (ht : wi'.lockedBy = wi.lockedBy) :
    Tokens { s with
      acquired := s.acquired.filter (·.lockedBy ≠ wi.lockedBy)
      processed := s.processed ++ [wi'] } := by
  have hother : ∀ x ∈ s.processed, x.lockedBy ≠ wi.lockedBy := by
    intro x hx heq
    have hnodup := h.nodup
    rw [List.map_append, List.nodup_append] at hnodup
    exact hnodup.2.2 _ (List.mem_map_of_mem hwi) _ (List.mem_map_of_mem hx) heq.symm
  have hsub : (s.acquired.filter (·.lockedBy ≠ wi.lockedBy) ++ s.processed).Sublist
      (s.acquired ++ s.processed) := List.filter_sublist.append (List.Sublist.refl _)
  refine ⟨?_, ?_⟩
  · intro x hx
    rw [← List.append_assoc, List.mem_append, List.mem_singleton] at hx
    rcases hx with hx | rfl
    · exact h.known x (hsub.mem hx)
    · rw [ht]
      exact h.known wi (List.mem_append_left _ hwi)
  · rw [← List.append_assoc, List.map_append, List.nodup_append]
    refine ⟨h.nodup.sublist (hsub.map _), List.nodup_cons.mpr ⟨List.not_mem_nil, .nil⟩, ?_⟩
    rintro _ hx _ hy rfl
    rw [List.map_singleton, List.mem_singleton, ht] at hy
    obtain ⟨x, hx, hxt⟩ := List.mem_map.mp hx
    rcases List.mem_append.mp hx with hx | hx
    · exact of_decide_eq_true (List.mem_filter.mp hx).2 (hxt.trans hy)
    · exact hother x hx (hxt.trans hy)

theorem Tokens.exec (h : s.Tokens) (hexec : Exec opts s op s') : s'.Tokens := by
  cases hexec with
  | fails => exact h
  | createWorkflowInstance | addNewWorkflowEvent | addNewWorkflowEventWithExternalDelivery
  | purgeWorkflowState | completeActivityWorkItem | abandonActivityWorkItem => exact ⟨h.known, h.nodup⟩
  | getWorkflowWorkItem fresh hget =>
    next now t db' wi =>
    cases wi with
    | none =>
      refine ⟨fun x hx => List.mem_cons_of_mem _ (h.known x ?_), ?_⟩
      · simpa using hx
      · simpa using h.nodup
    | some wi =>
      have ht : wi.lockedBy = t := by
        cases Db.acquires_of_getWorkflowWorkItem hget with
        | lease _ _ lockedBy => exact lockedBy
      have hperm : (s.acquired ++ [wi] ++ s.processed).Perm (wi :: (s.acquired ++ s.processed)) := by
        rw [List.append_assoc]
        exact List.perm_middle
      refine ⟨fun x hx => ?_, ?_⟩
      · rcases List.mem_cons.mp (hperm.mem_iff.mp hx) with rfl | hx
        · exact ht ▸ List.mem_cons_self
        · exact List.mem_cons_of_mem _ (h.known x hx)
      · refine (hperm.map _).nodup_iff.mpr (List.nodup_cons.mpr ⟨?_, h.nodup⟩)
        intro hmem
        obtain ⟨x, hx, hxt⟩ := List.mem_map.mp hmem
        exact fresh (ht ▸ hxt ▸ h.known x hx)
  | processWorkItem held hproc => exact h.process held (processWorkItem_lease hproc).2.1
  | completeWorkflowWorkItem => exact h.release _ _
  | abandonWorkflowWorkItem => exact h.release _ _
  | getActivityWorkItem =>
    exact ⟨fun x hx => List.mem_cons_of_mem _ (h.known x hx), h.nodup⟩

/-! ### The invariant rule -/

/-- Every call of a run meets a condition. -/
def Along (opts : SqliteOptions) (G : System → Op → Prop) (ops : List Op) : Prop :=
  ∀ pre op post, ops = pre ++ op :: post → G (run opts pre) op

/-- An invariant of the store, with what is known of the work items that are still leased. -/
structure Holds (I : Db → Prop) (A P : Db → WorkflowWorkItem → Prop) (s : System) : Prop where
  tokens : s.Tokens
  keyed : s.db.Keyed
  store : I s.db
  acquired : ∀ wi ∈ s.acquired, s.db.leasedBy wi.instanceID wi.lockedBy → A s.db wi
  processed : ∀ wi ∈ s.processed, s.db.leasedBy wi.instanceID wi.lockedBy → P s.db wi

/-- What there is to prove of an invariant under the condition `G` on calls. -/
structure Maintained (opts : SqliteOptions) (G : System → Op → Prop) (I : Db → Prop)
    (A P : Db → WorkflowWorkItem → Prop) : Prop where
  init : I {}
  transaction : ∀ {s : System} {op : Op}, G s op → s.db.Keyed → I s.db →
    Db.Transaction opts P s.db op (s.exec opts op).db → I (s.exec opts op).db
  acquire : ∀ {s : System} {now : Time} {t : String} {db' : Db} {wi : WorkflowWorkItem},
    G s (.getWorkflowWorkItem now t) → I s.db →
    s.db.getWorkflowWorkItem opts now t = .ok (db', some wi) → A db' wi
  process : ∀ {s : System} {w : WorkflowProcessor} {env : ProcessEnv} {wi wi' : WorkflowWorkItem},
    G s (.processWorkItem wi.lockedBy w env) → I s.db →
    s.db.leasedBy wi.instanceID wi.lockedBy → A s.db wi → w.processWorkItem env
      { wi with state := s.db.getWorkflowRuntimeState wi.instanceID } = .ok wi' → P s.db wi'
  acquired : ∀ {db db' : Db} {wi : WorkflowWorkItem}, Db.Keeps wi.lockedBy db db' →
    db'.leasedBy wi.instanceID wi.lockedBy → A db wi → A db' wi
  processed : ∀ {db db' : Db} {wi : WorkflowWorkItem}, Db.Keeps wi.lockedBy db db' →
    db'.leasedBy wi.instanceID wi.lockedBy → P db wi → P db' wi

variable {G : System → Op → Prop} {I : Db → Prop} {A P : Db → WorkflowWorkItem → Prop}

/-- The transaction of a call. -/
theorem Holds.transaction (h : Holds I A P s) (hexec : Exec opts s op s') :
    Db.Transaction opts P s.db op s'.db := by
  cases hexec with
  | fails | processWorkItem => exact .idle _
  | createWorkflowInstance h => exact .createWorkflowInstance h
  | addNewWorkflowEvent h => exact .addNewWorkflowEvent h
  | addNewWorkflowEventWithExternalDelivery h => exact .addNewWorkflowEventWithExternalDelivery h
  | purgeWorkflowState h => exact .purgeWorkflowState h
  | getWorkflowWorkItem _ h => exact .getWorkflowWorkItem h
  | completeWorkflowWorkItem held hcomplete =>
    obtain ⟨_, _, _, hc⟩ := Db.completes_of_ok hcomplete
    have hleased := h.keyed.leasedBy hc.leased
    exact .completeWorkflowWorkItem hleased (h.processed _ held hleased) hcomplete
  | abandonWorkflowWorkItem _ h => exact .abandonWorkflowWorkItem h
  | getActivityWorkItem => exact .getActivityWorkItem _ _
  | completeActivityWorkItem _ h => exact .completeActivityWorkItem h
  | abandonActivityWorkItem _ h => exact .abandonActivityWorkItem h

/-- No call touches what protects a work item that is still held after it. -/
theorem Tokens.keeps (h : s.Tokens) (hk : s.db.Keyed) (hexec : Exec opts s op s')
    {wi : WorkflowWorkItem} (hwi : wi ∈ s.acquired ++ s.processed)
    (hwi' : wi ∈ s'.acquired ++ s'.processed) : Db.Keeps wi.lockedBy s.db s'.db := by
  have hreleased {t : String} {db' : Db}
      (hmem : wi ∈ ({ s with db := db' }.release t).acquired ++
        ({ s with db := db' }.release t).processed) : wi.lockedBy ≠ t := by
    rcases List.mem_append.mp hmem with hmem | hmem
    · exact of_decide_eq_true (List.mem_filter.mp hmem).2
    · exact of_decide_eq_true (List.mem_filter.mp hmem).2
  cases hexec with
  | fails | processWorkItem => exact .refl _ _
  | createWorkflowInstance h => exact Db.keeps_createWorkflowInstance h
  | addNewWorkflowEvent h =>
    obtain ⟨-, rfl⟩ := Db.addNewWorkflowEvent_eq h
    exact Db.keeps_insertNewEvent _ _ _ _ _ _
  | addNewWorkflowEventWithExternalDelivery h => exact Db.keeps_delivery h
  | purgeWorkflowState h =>
    obtain ⟨rfl, -⟩ := Db.cleanup_eq h
    exact Db.keeps_deleteInstance _ _
  | getWorkflowWorkItem fresh hget =>
    exact Db.keeps_getWorkflowWorkItem hget fun ht => fresh (ht ▸ h.known wi hwi)
  | completeWorkflowWorkItem _ hcomplete =>
    obtain ⟨_, _, _, hc⟩ := Db.completes_of_ok hcomplete
    exact Db.keeps_complete (hk.leasedBy hc.leased) (hreleased hwi') hcomplete
  | abandonWorkflowWorkItem _ habandon => exact Db.keeps_abandon habandon (hreleased hwi')
  | getActivityWorkItem =>
    obtain ⟨newTasks, h, -⟩ := Db.getActivityWorkItem_eq s.db opts _ _
    dsimp only
    rw [h]
    exact .of_same rfl rfl fun _ => rfl
  | completeActivityWorkItem _ h =>
    obtain ⟨task, -, rfl⟩ := Db.completeActivityWorkItem_eq h
    exact .of_same rfl rfl fun _ => Db.inbound_insertNewEvent ..
  | abandonActivityWorkItem _ h =>
    obtain ⟨newTasks, rfl, -⟩ := Db.abandonActivityWorkItem_eq h
    exact .of_same rfl rfl fun _ => rfl

/-- One call, from what it does to the store, to the work items that are held, and to the one that it
acquires or processes. -/
theorem Holds.step (h : Holds I A P s) (hstore : I (s.exec opts op).db)
    (hacquire : ∀ {now t db' wi}, op = .getWorkflowWorkItem now t →
      s.db.getWorkflowWorkItem opts now t = .ok (db', some wi) → db' = (s.exec opts op).db → A db' wi)
    (hprocess : ∀ {w env wi wi'}, op = .processWorkItem wi.lockedBy w env →
      s.db.leasedBy wi.instanceID wi.lockedBy → A s.db wi →
      w.processWorkItem env { wi with state := s.db.getWorkflowRuntimeState wi.instanceID } = .ok wi' →
      P s.db wi')
    (hacquired : ∀ {wi}, Db.Keeps wi.lockedBy s.db (s.exec opts op).db →
      (s.exec opts op).db.leasedBy wi.instanceID wi.lockedBy → A s.db wi → A (s.exec opts op).db wi)
    (hprocessed : ∀ {wi}, Db.Keeps wi.lockedBy s.db (s.exec opts op).db →
      (s.exec opts op).db.leasedBy wi.instanceID wi.lockedBy → P s.db wi → P (s.exec opts op).db wi) :
    Holds I A P (s.exec opts op) := by
  have hexec := exec_spec opts s op
  have hkeyed := (h.transaction hexec).ledgers.keyed h.keyed
  have htokens := h.tokens.exec hexec
  have hkeeps {wi : WorkflowWorkItem} (hwi : wi ∈ s.acquired ++ s.processed)
      (hwi' : wi ∈ (s.exec opts op).acquired ++ (s.exec opts op).processed) :=
    h.tokens.keeps h.keyed hexec hwi hwi'
  generalize s.exec opts op = s' at *
  refine ⟨htokens, hkeyed, hstore, fun wi hwi' hl => ?_, fun wi hwi' hl => ?_⟩
  · by_cases hwi : wi ∈ s.acquired
    · have hk := hkeeps (List.mem_append_left _ hwi) (List.mem_append_left _ hwi')
      exact hacquired hk hl (h.acquired wi hwi (hk.leasedBy hl))
    · cases hexec with
      | getWorkflowWorkItem fresh hget =>
        have hnew := (List.mem_append.mp hwi').resolve_left hwi
        rw [Option.mem_toList] at hnew
        cases hnew
        exact hacquire rfl hget rfl
      | processWorkItem => exact absurd (List.mem_of_mem_filter hwi') hwi
      | completeWorkflowWorkItem => exact absurd (List.mem_of_mem_filter hwi') hwi
      | abandonWorkflowWorkItem => exact absurd (List.mem_of_mem_filter hwi') hwi
      | _ => exact absurd hwi' hwi
  · by_cases hwi : wi ∈ s.processed
    · have hk := hkeeps (List.mem_append_right _ hwi) (List.mem_append_right _ hwi')
      exact hprocessed hk hl (h.processed wi hwi (hk.leasedBy hl))
    · cases hexec with
      | processWorkItem held hproc =>
        have hnew := List.mem_singleton.mp ((List.mem_append.mp hwi').resolve_left hwi)
        subst hnew
        obtain ⟨hid, ht, -⟩ := processWorkItem_lease hproc
        rw [hid, ht] at hl
        exact hprocess rfl hl (h.acquired _ held hl) hproc
      | completeWorkflowWorkItem => exact absurd (List.mem_of_mem_filter hwi') hwi
      | abandonWorkflowWorkItem => exact absurd (List.mem_of_mem_filter hwi') hwi
      | _ => exact absurd hwi' hwi

theorem Holds.exec (hI : Maintained opts G I A P) (h : Holds I A P s) (hG : G s op) :
    Holds I A P (s.exec opts op) := by
  refine h.step (hI.transaction hG h.keyed h.store (h.transaction (exec_spec opts s op))) ?_ ?_
    hI.acquired hI.processed
  · rintro now t db' wi rfl hget -
    exact hI.acquire hG h.store hget
  · rintro w env wi wi' rfl hl hacquired hproc
    exact hI.process hG h.store hl hacquired hproc

theorem run_concat (opts : SqliteOptions) (ops : List Op) (op : Op) :
    run opts (ops ++ [op]) = (run opts ops).exec opts op := Run.run_concat (exec opts) {} ops op

/-- What holds of the work item that a call acquires, evaluated. -/
theorem forall_acquired {P : WorkflowWorkItem → Prop} {db db' : Db} {now : Time} {t : String}
    (h : ∀ wi ∈ (db.getWorkflowWorkItem opts now t).toOption.bind Prod.snd, P wi) (wi : WorkflowWorkItem)
    (hget : db.getWorkflowWorkItem opts now t = .ok (db', some wi)) : P wi := by
  rw [hget] at h
  exact h wi rfl

theorem Along.nil : Along opts G [] := Run.Along.nil (f := exec opts)

theorem Along.concat (ops : List Op) (h : Along opts G ops) (hG : G (System.run opts ops) op) :
    Along opts G (ops ++ [op]) := Run.Along.concat (f := exec opts) h hG

/-- What is maintained holds at the end of every run whose calls meet the condition. -/
theorem Maintained.run (hI : Maintained opts G I A P) (ops : List Op) (hG : Along opts G ops) :
    Holds I A P (run opts ops) := by
  have hnone {p : WorkflowWorkItem → Prop} : ∀ wi ∈ ([] : List WorkflowWorkItem), p wi :=
    fun _ h => absurd h List.not_mem_nil
  exact Run.Along.invariant (I := Holds I A P) hG ⟨⟨hnone, .nil⟩, .nil, hI.init, hnone, hnone⟩
    fun s op hG h => h.exec hI hG

end System

end DurableTask.Sqlite
