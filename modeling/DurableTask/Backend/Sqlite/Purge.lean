import DurableTask.Lib.Graph
import DurableTask.Backend.Sqlite.Spawn

/-!
# `purgeWorkflowState`

The recursive driver of `backend/backend.go` over the SQLite and the PostgreSQL store: the recorded
children of an instance are purged first, each in its own transaction, then the instance itself. The
recursion follows the histories while it deletes them. Its result is a list of deletions in
post-order (`purge_spec`), from which everything else follows: what a purge that returns has removed,
and that it returns if the recorded children form no cycle.
-/

namespace DurableTask

/-- `isRemoteRouter`. -/
def isRemoteRouter (r : Option TaskRouter) : Bool :=
  ((r.bind TaskRouter.targetAppID).getD "") ≠ ""

/-- The errors of a purge. -/
inductive PurgeError
  | instanceNotFound
  | notCompleted
  | crossAppDispatch (backend : String)
  | crossAppChild (err : PurgeError)
  | child (err : PurgeError)
deriving DecidableEq, Repr

def PurgeError.message : PurgeError → String
  | instanceNotFound => "no such instance exists"
  | notCompleted => "orchestration has not yet completed"
  | crossAppDispatch backend => backend ++ " backend does not support cross-app purge dispatch"
  | crossAppChild err => "failed to purge cross-app child workflow: " ++ err.message
  | child err => "failed to purge child workflow: " ++ err.message

/-- `errors.Is(err, api.ErrInstanceNotFound)`. -/
def PurgeError.isInstanceNotFound : PurgeError → Bool
  | instanceNotFound => true
  | notCompleted | crossAppDispatch _ => false
  | crossAppChild err | child err => err.isInstanceNotFound

namespace Sqlite

open Table

/-- `PurgeWorkflowState` of a backend with one app. Both backends run the same statements, and neither
looks at `force`. -/
def purgeInstance (backend : String) (db : Db) (id : InstanceID) (router : Option TaskRouter)
    (_recursive _force : Bool) : Except PurgeError (Db × Nat) :=
  if isRemoteRouter router then .error (.crossAppDispatch backend)
  else
    match db.cleanupWorkflowStateInternal id true with
    | .ok db => .ok (db, 1)
    | .error .instanceNotFound => .error .instanceNotFound
    | .error _ => .error .notCompleted

/-- A backend, as the driver uses it. -/
structure PurgeBackend where
  getWorkflowRuntimeState : Db → InstanceID → WorkflowRuntimeState
  purgeWorkflowState : Db → InstanceID → Option TaskRouter → Bool → Bool →
    Except PurgeError (Db × Nat)

def sqlBackend (backend : String) : PurgeBackend :=
  ⟨Db.getWorkflowRuntimeState, purgeInstance backend⟩

def sqliteBackend : PurgeBackend := sqlBackend "sqlite"

def postgresBackend : PurgeBackend := sqlBackend "postgres"

/-- The order in which each round over a map of children finds them. -/
structure MapOrder where
  arrange : Nat → List (InstanceID × Option TaskRouter) → List (InstanceID × Option TaskRouter)
  perm : ∀ k l, (arrange k l).Perm l

/-- What a purge returns, with the store it leaves and the number of calls made so far. -/
structure PurgeResult where
  db : Db
  deletedInstanceCount : Nat := 0
  err : Option PurgeError := none
  calls : Nat := 0
deriving DecidableEq, Repr

variable (be : PurgeBackend) (order : MapOrder) (recursive force : Bool)

/-- The loop over the children, with the recursive call as an argument. -/
def purgeChildren (purge : Nat → Db → InstanceID → Option PurgeResult) :
    List (InstanceID × Option TaskRouter) → PurgeResult → Option PurgeResult
  | [], r => some r
  | child :: children, r =>
    if isRemoteRouter child.2 then
      match be.purgeWorkflowState r.db child.1 child.2 true force with
      | .ok (db, count) =>
        purgeChildren purge children
          { r with db := db, deletedInstanceCount := r.deletedInstanceCount + count }
      | .error err =>
        if err.isInstanceNotFound then purgeChildren purge children r
        else some { r with err := some (.crossAppChild err) }
    else
      match purge r.calls r.db child.1 with
      | none => none
      | some purged =>
        let r : PurgeResult :=
          { purged with
            deletedInstanceCount := r.deletedInstanceCount + purged.deletedInstanceCount, err := none }
        match purged.err with
        | none => purgeChildren purge children r
        | some err =>
          if err.isInstanceNotFound then purgeChildren purge children r
          else some { r with err := some (.child err) }

/-- The purge of the instance itself, after its children. -/
def PurgeResult.purgeRoot (r : PurgeResult) (iid : InstanceID) : PurgeResult :=
  match be.purgeWorkflowState r.db iid none false force with
  | .ok (db, count) =>
    { r with db := db, deletedInstanceCount := r.deletedInstanceCount + count }
  | .error err => { r with err := some err }

/-- `purgeWorkflowState`, with an upper bound on the depth of the recursion. -/
def purgeWorkflowState : Nat → Nat → Db → InstanceID → Option TaskRouter → Option PurgeResult
  | 0, _, _, _, _ => none
  | fuel + 1, calls, db, iid, router =>
    if isRemoteRouter router then
      match be.purgeWorkflowState db iid router recursive force with
      | .ok (db, count) => some { db := db, deletedInstanceCount := count, calls := calls }
      | .error err => some { db := db, err := some err, calls := calls }
    else if recursive then
      let state := be.getWorkflowRuntimeState db iid
      if state.newEvents.length + state.oldEvents.length = 0 then
        some { db := db, err := some .instanceNotFound, calls := calls }
      else if !force && !state.isCompleted then
        some { db := db, err := some .notCompleted, calls := calls }
      else
        match purgeChildren be force
            (fun calls db iid => purgeWorkflowState fuel calls db iid none)
            (order.arrange calls (getChildWorkflowInstances (state.oldEvents ++ state.newEvents)))
            { db := db, calls := calls + 1 } with
        | none => none
        | some r => if r.err.isSome then some r else some (r.purgeRoot be force iid)
    else some (PurgeResult.purgeRoot be force { db := db, calls := calls } iid)

/-! ### The graph of recorded children -/

namespace Db

variable (db : Db) {db' : Db} {ids : List InstanceID} {id : InstanceID}

/-- The history of `y` records the creation of `x`. -/
def Child (y x : InstanceID) : Prop := ∃ e ∈ db.historyOf y, e.creates x = true

/-- What can be reached over recorded children. -/
abbrev Descends : InstanceID → InstanceID → Prop := Relation.ReflTransGen db.Child

/-- The children the driver finds. -/
def childrenOf (id : InstanceID) : List (InstanceID × Option TaskRouter) :=
  getChildWorkflowInstances ((db.getWorkflowRuntimeState id).oldEvents ++
    (db.getWorkflowRuntimeState id).newEvents)

/-- Only instances have a history. -/
def HistoryOwned : Prop := ∀ id, db.instance? id = none → db.historyOf id = []

/-- The deletions of a purge. -/
def deleteAll (ids : List InstanceID) : Db := ids.foldl deleteInstance db

variable {db}

theorem getWorkflowRuntimeState_oldEvents_eq_nil :
    (db.getWorkflowRuntimeState id).oldEvents = [] ↔ db.historyOf id = [] := by
  unfold getWorkflowRuntimeState
  rw [(WorkflowRuntimeState.new_events id none _).1, WorkflowRuntimeState.keep_eq_nil_iff]

theorem getWorkflowRuntimeState_newEvents : (db.getWorkflowRuntimeState id).newEvents = [] :=
  (WorkflowRuntimeState.new_events id none _).2

/-- The driver finds the recorded children. -/
theorem mem_childrenOf {x : InstanceID} : x ∈ (db.childrenOf id).map Prod.fst ↔ db.Child id x := by
  unfold childrenOf
  rw [(getChildWorkflowInstances_spec _).mem, getWorkflowRuntimeState_newEvents, List.append_nil]
  unfold getWorkflowRuntimeState Child
  rw [(WorkflowRuntimeState.new_events id none _).1]
  constructor
  · rintro ⟨e, he, hcreates⟩
    exact ⟨e, (WorkflowRuntimeState.keep_sublist _ _ _ _).subset he, hcreates⟩
  · rintro ⟨e, he, hcreates⟩
    refine ⟨e, ?_, hcreates⟩
    obtain ⟨created, hcreated, -⟩ := (Option.any_eq_true _ _).mp hcreates
    have hevent : e.eventType = .childWorkflowInstanceCreated created := by
      cases he : e.eventType <;> simp [HistoryEvent.getChildWorkflowInstanceCreated, he] at hcreated
      rw [hcreated]
    refine WorkflowRuntimeState.mem_keep _ _ _ he ?_ ?_ ?_
    · simp [HistoryEvent.getExecutionStarted, hevent]
    · simp [HistoryEvent.getExecutionCompleted, hevent]
    · simp [HistoryEvent.resolution, hevent]

theorem not_child_of_historyOf {x : InstanceID} (h : db.historyOf id = []) : ¬db.Child id x := by
  rintro ⟨e, he, -⟩
  exact absurd (h ▸ he) List.not_mem_nil

/-- A recorded child is in a row of `History`. -/
theorem Child.row {x : InstanceID} (h : db.Child id x) :
    ∃ row ∈ db.history, row.instanceID = id ∧ row.event.creates x = true := by
  obtain ⟨e, he, hcreates⟩ := h
  obtain ⟨row, hrow, rfl⟩ := List.mem_map.mp he
  obtain ⟨hmem, hid⟩ := List.mem_filter.mp ((List.perm_insertionSort _ _).mem_iff.mp hrow)
  exact ⟨row, hmem, of_decide_eq_true hid, hcreates⟩

theorem deleteAll_concat (db : Db) (ids : List InstanceID) (id : InstanceID) :
    db.deleteAll (ids ++ [id]) = (db.deleteAll ids).deleteInstance id := by
  unfold deleteAll
  rw [List.foldl_append, List.foldl_cons, List.foldl_nil]

/-- What a deletion resets for its instance only, after many. -/
theorem apply_deleteAll {β : Type} {f : Db → InstanceID → β} {b : β}
    (hf : ∀ db id' id, f (deleteInstance db id') id = if id = id' then b else f db id) (db : Db)
    (ids : List InstanceID) (id : InstanceID) :
    f (db.deleteAll ids) id = if id ∈ ids then b else f db id := by
  induction ids using List.reverseRecOn with
  | nil => exact (if_neg List.not_mem_nil).symm
  | append_singleton ids id' ih =>
    rw [deleteAll_concat, hf, ih]
    by_cases hid : id = id'
    · rw [if_pos hid, if_pos (List.mem_append_right _ (List.mem_singleton.mpr hid))]
    · rw [if_neg hid]
      simp only [List.mem_append, List.mem_singleton, hid, or_false]

theorem instance?_deleteAll (db : Db) (ids : List InstanceID) (id : InstanceID) :
    (db.deleteAll ids).instance? id = if id ∈ ids then none else db.instance? id :=
  apply_deleteAll instance?_deleteInstance db ids id

theorem historyOf_deleteInstance (db : Db) (id' id : InstanceID) :
    (db.deleteInstance id').historyOf id = if id = id' then [] else db.historyOf id := by
  unfold historyOf
  split
  · next hid =>
    have hnil : (db.deleteInstance id').history.filter (·.instanceID = id) = [] :=
      hid ▸ filter_delete_eq_nil fun r _ h => h
    rw [hnil]
    rfl
  · next hid =>
    have hkept : (db.deleteInstance id').history.filter (·.instanceID = id) =
        db.history.filter (·.instanceID = id) := historyTable_deleteInstance db hid
    rw [hkept]

theorem historyOf_deleteAll (db : Db) (ids : List InstanceID) (id : InstanceID) :
    (db.deleteAll ids).historyOf id = if id ∈ ids then [] else db.historyOf id :=
  apply_deleteAll historyOf_deleteInstance db ids id

/-- The state of an instance that is not deleted. -/
theorem getWorkflowRuntimeState_deleteAll (h : id ∉ ids) :
    (db.deleteAll ids).getWorkflowRuntimeState id = db.getWorkflowRuntimeState id := by
  unfold getWorkflowRuntimeState
  rw [historyOf_deleteAll, if_neg h]

theorem childrenOf_deleteAll (h : id ∉ ids) :
    (db.deleteAll ids).childrenOf id = db.childrenOf id := by
  unfold childrenOf
  rw [getWorkflowRuntimeState_deleteAll h]

theorem instances_deleteAll (db : Db) (ids : List InstanceID) :
    (db.deleteAll ids).instances = db.instances.filter fun r => r.instanceID ∉ ids := by
  induction ids using List.reverseRecOn with
  | nil => exact (List.filter_eq_self.mpr fun r _ => decide_eq_true List.not_mem_nil).symm
  | append_singleton ids id ih =>
    rw [deleteAll_concat]
    unfold deleteInstance delete
    dsimp only
    rw [ih, List.filter_filter]
    refine List.filter_congr fun r _ => ?_
    simp only [List.mem_append, List.mem_singleton, not_or, Bool.decide_and]
    rw [Bool.and_comm]
    simp

/-- Each deleted instance takes one row along. -/
theorem length_deleteAll (hk : db.Keyed) (hids : ids.Nodup)
    (hrows : ∀ id ∈ ids, ∃ r, db.instance? id = some r) :
    ids.length + (db.deleteAll ids).instances.length = db.instances.length := by
  have hperm : ((db.instances.map InstanceRow.instanceID).filter (· ∈ ids)).Perm ids := by
    refine (List.perm_ext_iff_of_nodup (hk.filter _) hids).mpr fun id => ?_
    rw [List.mem_filter, decide_eq_true_iff, and_iff_right_iff_imp]
    intro hid
    obtain ⟨r, hr⟩ := hrows id hid
    rw [← instanceID_of_instance? hr]
    exact List.mem_map_of_mem (List.mem_of_find?_eq_some hr)
  have hlen := List.length_eq_length_filter_add (l := db.instances) fun r => r.instanceID ∈ ids
  rw [hlen, instances_deleteAll, ← hperm.length_eq, List.filter_map, List.length_map]
  congr 2
  refine List.filter_congr fun r _ => ?_
  simp

/-- An instance that a recursive purge can delete, once its children are gone. -/
structure Removable (db : Db) (id : InstanceID) : Prop where
  history : db.historyOf id ≠ []
  ended : ∃ r, db.instance? id = some r ∧ isPurgeable r.runtimeStatus = true
  sameApp : ∀ child ∈ db.childrenOf id, isRemoteRouter child.2 = false

/-- A list of deletions, each after those of the children. A child without history is passed over. -/
def Swept (db : Db) : List InstanceID → Prop :=
  Graph.Postorder db.Child (db.historyOf · = []) db.Removable

theorem Swept.irrefl (h : db.Swept ids) (hid : id ∈ ids) : ¬Relation.TransGen db.Child id id := by
  unfold Swept at h
  exact h.irrefl (fun _ _ => not_child_of_historyOf) hid

/-- What can be reached from a deleted instance is deleted or has no history. -/
theorem Swept.descendant {id' : InstanceID} (h : db.Swept ids) (hid : id ∈ ids)
    (hdesc : db.Descends id id') : id' ∈ ids ∨ db.historyOf id' = [] := by
  unfold Swept at h
  exact h.descendant_mem (fun _ _ => not_child_of_historyOf) hid hdesc

/-- What stops a recursive purge at an instance with a history. -/
inductive Obstructed (db : Db) (force : Bool) (id : InstanceID) : Prop
  | active (unforced : force = false) (history : db.historyOf id ≠ [])
    (h : (db.getWorkflowRuntimeState id).isCompleted = false)
  | status {r : InstanceRow} (row : db.instance? id = some r) (history : db.historyOf id ≠ [])
    (h : isPurgeable r.runtimeStatus = false)
  | remote {child : InstanceID × Option TaskRouter} (mem : child ∈ db.childrenOf id)
    (h : isRemoteRouter child.2 = true)

/-- The result `r` of a purge that deletes `ids`, after `pre`, among the instances in `scope`. -/
structure Sweep (db : Db) (pre : List InstanceID) (scope : InstanceID → Prop) (ids : List InstanceID)
    (r : PurgeResult) : Prop where
  store : r.db = db.deleteAll (pre ++ ids)
  swept : db.Swept (pre ++ ids)
  count : r.deletedInstanceCount = ids.length
  within : ∀ id ∈ ids, scope id

/-- The error of a purge of `iid` that deletes `ids`, after `pre`. -/
inductive Outcome (db : Db) (force : Bool) (pre : List InstanceID) (iid : InstanceID)
    (ids : List InstanceID) : Option PurgeError → Prop
  | purged (h : iid ∈ ids) : Outcome db force pre iid ids none
  | notFound (gone : iid ∈ pre ∨ db.historyOf iid = []) (h : ids = []) :
    Outcome db force pre iid ids (some .instanceNotFound)
  | stopped {err : PurgeError} {id : InstanceID} (h : err.isInstanceNotFound = false)
    (descends : db.Descends iid id) (obstructed : db.Obstructed force id) :
    Outcome db force pre iid ids (some err)

/-- The error of the loop over `children` of `iid`, when `ids` are the deletions so far. -/
inductive Rounds (db : Db) (force : Bool) (iid : InstanceID)
    (children : List (InstanceID × Option TaskRouter)) (ids : List InstanceID) :
    Option PurgeError → Prop
  | all (h : ∀ c ∈ children, isRemoteRouter c.2 = false ∧ (c.1 ∈ ids ∨ db.historyOf c.1 = [])) :
    Rounds db force iid children ids none
  | stopped {err : PurgeError} {id : InstanceID} (h : err.isInstanceNotFound = false)
    (descends : db.Descends iid id) (obstructed : db.Obstructed force id) :
    Rounds db force iid children ids (some err)

theorem Rounds.cons {force : Bool} {iid : InstanceID} {c : InstanceID × Option TaskRouter}
    {children : List (InstanceID × Option TaskRouter)} {err : Option PurgeError}
    (hc : isRemoteRouter c.2 = false ∧ (c.1 ∈ ids ∨ db.historyOf c.1 = []))
    (h : Rounds db force iid children ids err) :
    Rounds db force iid (c :: children) ids err := by
  cases h with
  | all h => exact .all (List.forall_mem_cons.mpr ⟨hc, h⟩)
  | stopped h descends obstructed => exact .stopped h descends obstructed

end Db

/-! ### What a purge does -/

section Spec

variable {backend : String} {order : MapOrder} {recursive force : Bool} {db : Db}
  {iid : InstanceID} {pre ids : List InstanceID} {r r' : PurgeResult}

theorem purgeRoot_eq (r : PurgeResult) (iid : InstanceID) :
    r.purgeRoot (sqlBackend backend) force iid =
      match r.db.instance? iid with
      | none => { r with err := some .instanceNotFound }
      | some row =>
        if Db.isPurgeable row.runtimeStatus then
          { r with db := r.db.deleteInstance iid, deletedInstanceCount := r.deletedInstanceCount + 1 }
        else { r with err := some .notCompleted } := by
  simp only [PurgeResult.purgeRoot, sqlBackend, purgeInstance, Db.cleanupWorkflowStateInternal]
  rw [if_neg (by decide)]
  cases r.db.instance? iid with
  | none => rfl
  | some row =>
    cases hrow : Db.isPurgeable row.runtimeStatus <;> simp [hrow]

theorem Db.Sweep.append {ids' : List InstanceID} {c : InstanceID}
    (h : db.Sweep pre (Relation.TransGen db.Child iid) ids r) (hchild : db.Child iid c)
    (h' : db.Sweep (pre ++ ids) (db.Descends c) ids' r') (err : Option PurgeError) :
    db.Sweep pre (Relation.TransGen db.Child iid) (ids ++ ids')
      { r' with
        deletedInstanceCount := r.deletedInstanceCount + r'.deletedInstanceCount, err := err } where
  store := by rw [← List.append_assoc]; exact h'.store
  swept := by rw [← List.append_assoc]; exact h'.swept
  count := by
    rw [List.length_append]
    exact congrArg₂ _ h.count h'.count
  within id hid := by
    rcases List.mem_append.mp hid with hid | hid
    · exact h.within id hid
    · exact .head' hchild (h'.within id hid)

/-- The loop over children: each is deleted or has no history, unless one of them stops the loop. -/
theorem purgeChildren_spec {purge : Nat → Db → InstanceID → Option PurgeResult}
    {children : List (InstanceID × Option TaskRouter)}
    (hpurge : ∀ {calls pre c r}, db.Swept pre → purge calls (db.deleteAll pre) c = some r →
      ∃ ids, db.Sweep pre (db.Descends c) ids r ∧ db.Outcome force pre c ids r.err)
    (hchildren : ∀ c ∈ children, c ∈ db.childrenOf iid)
    (hr : db.Sweep pre (Relation.TransGen db.Child iid) ids r) (herr : r.err = none)
    (h : purgeChildren (sqlBackend backend) force purge children r = some r') :
    ∃ ids', db.Sweep pre (Relation.TransGen db.Child iid) (ids ++ ids') r' ∧
      db.Rounds force iid children (pre ++ (ids ++ ids')) r'.err := by
  induction children generalizing r ids with
  | nil =>
    cases h
    rw [herr]
    exact ⟨[], by rwa [List.append_nil], .all fun _ hc => absurd hc List.not_mem_nil⟩
  | cons c children ih =>
    have hmem := hchildren c List.mem_cons_self
    have hchild : db.Child iid c.1 := Db.mem_childrenOf.mp (List.mem_map_of_mem hmem)
    rw [purgeChildren] at h
    split at h
    · next hremote =>
      simp only [sqlBackend, purgeInstance, hremote, if_true, PurgeError.isInstanceNotFound,
        Bool.false_eq_true, if_false] at h
      cases h
      refine ⟨[], ?_, .stopped rfl .refl (.remote hmem hremote)⟩
      rw [List.append_nil]
      exact ⟨hr.store, hr.swept, hr.count, hr.within⟩
    · next hlocal =>
      split at h
      · cases h
      · next purged hpurged =>
        rw [hr.store] at hpurged
        obtain ⟨ids', hsweep, houtcome⟩ := hpurge hr.swept hpurged
        have happend := hr.append hchild hsweep
        -- The rest of the loop, once this child is dealt with.
        have hrest (hdone : c.1 ∈ pre ++ (ids ++ ids') ∨ db.historyOf c.1 = [])
            (h : purgeChildren (sqlBackend backend) force purge children
              { purged with
                deletedInstanceCount := r.deletedInstanceCount + purged.deletedInstanceCount
                err := none } = some r') :
            ∃ ids', db.Sweep pre (Relation.TransGen db.Child iid) (ids ++ ids') r' ∧
              db.Rounds force iid (c :: children) (pre ++ (ids ++ ids')) r'.err := by
          obtain ⟨ids'', hall, hrounds⟩ :=
            ih (fun c hc => hchildren c (List.mem_cons_of_mem _ hc)) (happend none) rfl h
          rw [List.append_assoc] at hall hrounds
          refine ⟨ids' ++ ids'', hall,
            hrounds.cons ⟨by simpa using hlocal, hdone.imp_left fun hdone => ?_⟩⟩
          rw [← List.append_assoc ids, ← List.append_assoc pre]
          exact List.mem_append_left _ hdone
        dsimp only at h
        generalize purged.err = perr at h houtcome
        cases houtcome with
        | purged hin =>
          exact hrest (.inl (List.mem_append_right _ (List.mem_append_right _ hin))) h
        | notFound gone hnil =>
          refine hrest (gone.imp_left fun gone => ?_) ?_
          · rw [← List.append_assoc]
            exact List.mem_append_left _ gone
          · simpa only [PurgeError.isInstanceNotFound, if_true] using h
        | stopped hnot hdesc hobs =>
          simp only [hnot, Bool.false_eq_true, if_false] at h
          cases h
          exact ⟨ids', happend _, .stopped hnot (.head hchild hdesc) hobs⟩

/-- The last deletion of a purge. -/
theorem Db.Sweep.concat (h : db.Sweep pre (db.Descends iid) ids r) (hfresh : iid ∉ pre ++ ids)
    (hremovable : db.Removable iid)
    (hchildren : ∀ c, db.Child iid c → c ∈ pre ++ ids ∨ db.historyOf c = []) :
    db.Sweep pre (db.Descends iid) (ids ++ [iid])
      { r with db := r.db.deleteInstance iid, deletedInstanceCount := r.deletedInstanceCount + 1 } where
  store := by
    rw [← List.append_assoc, Db.deleteAll_concat, ← h.store]
  swept := by
    rw [← List.append_assoc]
    exact .concat h.swept hfresh hremovable hchildren
  count := by
    rw [List.length_append]
    exact congrArg (· + 1) h.count
  within id hid := by
    rcases List.mem_append.mp hid with hid | hid
    · exact h.within id hid
    · rw [List.mem_singleton.mp hid]

/-- A level of the recursion. -/
theorem purgeWorkflowState_succ (fuel calls : Nat) (db : Db) (iid : InstanceID) :
    purgeWorkflowState (sqlBackend backend) order true force (fuel + 1) calls db iid none =
      if db.historyOf iid = [] then
        some { db := db, err := some .instanceNotFound, calls := calls }
      else if !force && !(db.getWorkflowRuntimeState iid).isCompleted then
        some { db := db, err := some .notCompleted, calls := calls }
      else
        match purgeChildren (sqlBackend backend) force
            (fun calls db iid =>
              purgeWorkflowState (sqlBackend backend) order true force fuel calls db iid none)
            (order.arrange calls (db.childrenOf iid)) { db := db, calls := calls + 1 } with
        | none => none
        | some r => if r.err.isSome then some r else some (r.purgeRoot (sqlBackend backend) force iid) := by
  have hempty : ((db.getWorkflowRuntimeState iid).newEvents.length +
      (db.getWorkflowRuntimeState iid).oldEvents.length = 0) ↔ db.historyOf iid = [] := by
    rw [Db.getWorkflowRuntimeState_newEvents, List.length_nil, Nat.zero_add,
      List.length_eq_zero_iff, Db.getWorkflowRuntimeState_oldEvents_eq_nil]
  rw [purgeWorkflowState, if_neg (by decide), if_pos rfl]
  exact if_congr hempty rfl rfl

/-- A recursive purge deletes in post-order what it counts, and says what stopped it. -/
theorem purgeWorkflowState_spec {fuel calls : Nat} (howned : db.HistoryOwned) (hpre : db.Swept pre)
    (h : purgeWorkflowState (sqlBackend backend) order true force fuel calls (db.deleteAll pre) iid
      none = some r) :
    ∃ ids, db.Sweep pre (db.Descends iid) ids r ∧ db.Outcome force pre iid ids r.err := by
  induction fuel generalizing calls pre iid r with
  | zero => cases h
  | succ fuel ih =>
    have hstart {scope : InstanceID → Prop} (r : PurgeResult) (hdb : r.db = db.deleteAll pre)
        (hcount : r.deletedInstanceCount = 0) : db.Sweep pre scope [] r :=
      ⟨by rwa [List.append_nil], by rwa [List.append_nil], hcount,
        fun _ hid => absurd hid List.not_mem_nil⟩
    rw [purgeWorkflowState_succ, Db.historyOf_deleteAll] at h
    by_cases hgone : iid ∈ pre ∨ db.historyOf iid = []
    · rw [if_pos (by simpa [or_iff_not_imp_left] using hgone)] at h
      cases h
      exact ⟨[], hstart _ rfl rfl, .notFound hgone rfl⟩
    obtain ⟨hfresh, hhist⟩ := not_or.mp hgone
    rw [if_neg (by simpa [hfresh] using hhist), Db.getWorkflowRuntimeState_deleteAll hfresh,
      Db.childrenOf_deleteAll hfresh] at h
    split at h
    · next hactive =>
      cases h
      obtain ⟨hforce, hactive⟩ := Bool.and_eq_true_iff.mp hactive
      exact ⟨[], hstart _ rfl rfl, .stopped rfl .refl (.active (by simpa using hforce) hhist
        (by simpa using hactive))⟩
    split at h
    · cases h
    next r₁ h₁ =>
    have hperm := order.perm calls (db.childrenOf iid)
    obtain ⟨ids, hsweep, hrounds⟩ := purgeChildren_spec ih (fun c hc => hperm.mem_iff.mp hc)
      (hstart _ rfl rfl) rfl h₁
    rw [List.nil_append] at hsweep hrounds
    have hbelow : db.Sweep pre (db.Descends iid) ids r₁ :=
      ⟨hsweep.store, hsweep.swept, hsweep.count, fun id hid => (hsweep.within id hid).to_reflTransGen⟩
    cases herr : r₁.err with
    | some err =>
      rw [herr] at hrounds h
      cases h
      cases hrounds with
      | stopped hnot hdesc hobs =>
        rw [herr]
        exact ⟨ids, hbelow, .stopped hnot hdesc hobs⟩
    | none =>
      rw [herr] at hrounds h
      cases h
      cases hrounds with
      | all hall =>
        -- What is deleted is on no cycle, so the instance itself is still there.
        have hfresh : iid ∉ pre ++ ids := by
          intro hmem
          have hcycle := hsweep.swept.irrefl hmem
          rcases List.mem_append.mp hmem with hmem | hmem
          · exact hfresh hmem
          · exact hcycle (hsweep.within iid hmem)
        have hinst : r₁.db.instance? iid = db.instance? iid := by
          rw [hsweep.store, Db.instance?_deleteAll, if_neg hfresh]
        rw [purgeRoot_eq, hinst]
        cases hrow : db.instance? iid with
        | none => exact absurd (howned iid hrow) hhist
        | some row =>
          dsimp only
          split
          · next hended =>
            have hall (child) (hchild : child ∈ db.childrenOf iid) :=
              hall child (hperm.mem_iff.mpr hchild)
            refine ⟨ids ++ [iid], hbelow.concat hfresh
              ⟨hhist, ⟨row, hrow, hended⟩, fun child hchild => (hall child hchild).1⟩ fun c hc => ?_, ?_⟩
            · obtain ⟨child, hchild, rfl⟩ := List.mem_map.mp (Db.mem_childrenOf.mpr hc)
              exact (hall child hchild).2
            · dsimp only
              rw [herr]
              exact .purged (List.mem_append_right _ (List.mem_singleton.mpr rfl))
          · next hended =>
            exact ⟨ids, ⟨hbelow.store, hbelow.swept, hbelow.count, hbelow.within⟩,
              .stopped rfl .refl (.status hrow hhist (by simpa using hended))⟩

theorem purgeWorkflowState_local {be : PurgeBackend} {router : Option TaskRouter}
    (h : isRemoteRouter router = false) (fuel calls : Nat) :
    purgeWorkflowState be order recursive force fuel calls db iid router =
      purgeWorkflowState be order recursive force fuel calls db iid none := by
  cases fuel with
  | zero => rfl
  | succ fuel =>
    have hnone : isRemoteRouter none = false := by decide
    simp only [purgeWorkflowState, h, hnone, Bool.false_eq_true, if_false]

theorem purgeWorkflowState_remote {router : Option TaskRouter} (h : isRemoteRouter router = true)
    (fuel calls : Nat) :
    purgeWorkflowState (sqlBackend backend) order recursive force (fuel + 1) calls db iid router =
      some { db := db, err := some (.crossAppDispatch backend), calls := calls } := by
  simp only [purgeWorkflowState, sqlBackend, purgeInstance, h, if_true]

end Spec

/-! ### A recursive purge is complete -/

section Complete

variable {backend : String} {order : MapOrder} {force : Bool} {db : Db} {iid : InstanceID}
  {ids : List InstanceID} {r : PurgeResult}

/-- A recursive purge of a store. -/
theorem purge_spec {fuel calls : Nat} (howned : db.HistoryOwned)
    (h : purgeWorkflowState (sqlBackend backend) order true force fuel calls db iid none = some r) :
    ∃ ids, r.db = db.deleteAll ids ∧ db.Swept ids ∧ r.deletedInstanceCount = ids.length ∧
      db.Outcome force [] iid ids r.err := by
  obtain ⟨ids, hsweep, houtcome⟩ := purgeWorkflowState_spec howned Graph.Postorder.nil h
  exact ⟨ids, hsweep.store, hsweep.swept, hsweep.count, houtcome⟩

/-- As many rows as instances are deleted. -/
theorem Db.Swept.length (h : db.Swept ids) (hk : db.Keyed) :
    ids.length + (db.deleteAll ids).instances.length = db.instances.length :=
  Db.length_deleteAll hk h.nodup fun _ hid => (h.holds_of_mem hid).ended.imp fun _ => And.left

theorem Db.Documented.historyOf_owned (h : db.Documented) : db.HistoryOwned := by
  intro id hid
  rw [(h.recorded id).historyOf, h.owned id hid]
  rfl

theorem System.historyOf_owned (opts : SqliteOptions) (ops : List Op) :
    (System.run opts ops).db.HistoryOwned :=
  ((documented_maintained opts).run ops fun _ _ _ _ => trivial).store.historyOf_owned

end Complete

namespace PurgeExample

open StalledExample (opts)
open SpawnExample (spawner turn)

def inOrder : MapOrder := ⟨fun _ l => l, fun _ l => .refl l⟩

def ends : WorkflowResponse :=
  { actions := [{ id := 0, actionType := .completeWorkflow { workflowStatus := .completed } }] }

/-- Spawn a child and end. -/
def spawnsAndEnds : WorkflowResponse :=
  { actions :=
      [{ id := 0, actionType := .createChildWorkflow { instanceId := "b", name := "child" } },
       { id := 1, actionType := .completeWorkflow { workflowStatus := .completed } }] }

/-- A workflow that has ended, with a child that has not had a turn. -/
def pendingChild : List Op := .createWorkflowInstance spawner :: turn "t1" spawnsAndEnds 1

/-- The child ends as well. -/
def endedChild : List Op := pendingChild ++ turn "t2" ends 3

def purge (ops : List Op) : Option PurgeResult :=
  purgeWorkflowState sqliteBackend inOrder true false 3 0 (System.run opts ops).db "a" none

end PurgeExample


/-! ### A purge of an acyclic graph returns -/

section Returns

variable {backend : String} {order : MapOrder} {force : Bool} {db : Db} {iid : InstanceID}

theorem Db.child_wellFounded (h : Graph.Acyclic db.Child) : WellFounded fun c a => db.Child a c := by
  refine h.wellFounded (db.history.map HistoryRow.instanceID) ?_
  intro id c hchild
  obtain ⟨row, hrow, rfl, -⟩ := hchild.row
  exact List.mem_map_of_mem hrow

theorem purgeChildren_isSome {purge : Nat → Db → InstanceID → Option PurgeResult}
    {children : List (InstanceID × Option TaskRouter)} {r : PurgeResult}
    (hpurge : ∀ {calls pre c r}, db.Swept pre → purge calls (db.deleteAll pre) c = some r →
      ∃ ids, db.Sweep pre (db.Descends c) ids r ∧ db.Outcome force pre c ids r.err)
    (hsome : ∀ c ∈ children, ∀ calls pre, db.Swept pre →
      (purge calls (db.deleteAll pre) c.1).isSome = true)
    (hr : ∃ pre, r.db = db.deleteAll pre ∧ db.Swept pre) :
    (purgeChildren (sqlBackend backend) force purge children r).isSome = true := by
  induction children generalizing r with
  | nil => rfl
  | cons c children ih =>
    have ih {r : PurgeResult} := @ih r fun c hc => hsome c (List.mem_cons_of_mem _ hc)
    rw [purgeChildren]
    split
    · next hremote =>
      simp only [sqlBackend, purgeInstance, hremote, if_true, PurgeError.isInstanceNotFound,
        Bool.false_eq_true, if_false, Option.isSome_some]
    · obtain ⟨pre, hdb, hpre⟩ := hr
      rw [hdb]
      obtain ⟨purged, hpurged⟩ := Option.isSome_iff_exists.mp
        (hsome c List.mem_cons_self r.calls pre hpre)
      obtain ⟨ids, hsweep, -⟩ := hpurge hpre hpurged
      rw [hpurged]
      dsimp only
      split
      · exact ih ⟨_, hsweep.store, hsweep.swept⟩
      · split
        · exact ih ⟨_, hsweep.store, hsweep.swept⟩
        · rfl

/-- If the recorded children form no cycle, a recursive purge returns: the recursion is never deeper
than the graph. -/
theorem purgeWorkflowState_isSome (backend : String) (order : MapOrder) (force : Bool)
    (howned : db.HistoryOwned) (hacyclic : Graph.Acyclic db.Child) (iid : InstanceID) : ∃ depth, ∀ fuel ≥ depth, ∀ calls pre, db.Swept pre →
      (purgeWorkflowState (sqlBackend backend) order true force fuel calls (db.deleteAll pre) iid
        none).isSome = true := by
  induction iid using (Db.child_wellFounded hacyclic).induction with
  | _ iid ih =>
    have hchildren : ∀ᶠ fuel in Filter.atTop, ∀ c ∈ {c | c ∈ (db.childrenOf iid).map Prod.fst},
        ∀ calls pre, db.Swept pre → (purgeWorkflowState (sqlBackend backend) order true force fuel
          calls (db.deleteAll pre) c none).isSome = true :=
      (Filter.eventually_all_finite (List.finite_toSet _)).mpr fun c hc =>
        Filter.eventually_atTop.mpr (ih c (Db.mem_childrenOf.mp hc))
    obtain ⟨depth, hdepth⟩ := Filter.eventually_atTop.mp hchildren
    refine ⟨depth + 1, fun fuel hfuel calls pre hpre => ?_⟩
    obtain ⟨fuel, rfl⟩ := Nat.exists_eq_add_of_le' (Nat.le_of_add_left_le hfuel)
    rw [purgeWorkflowState_succ]
    split
    · rfl
    · split
      · rfl
      · next hloaded _ =>
        have hfresh : iid ∉ pre := by
          intro hmem
          rw [Db.historyOf_deleteAll, if_pos hmem] at hloaded
          exact hloaded rfl
        rw [Db.childrenOf_deleteAll hfresh]
        have hperm := order.perm calls (db.childrenOf iid)
        have hloop : (purgeChildren (sqlBackend backend) force
            (fun calls db iid =>
              purgeWorkflowState (sqlBackend backend) order true force fuel calls db iid none)
            (order.arrange calls (db.childrenOf iid))
            { db := db.deleteAll pre, calls := calls + 1 }).isSome = true :=
          purgeChildren_isSome (fun hpre h => purgeWorkflowState_spec howned hpre h)
            (fun c hc => hdepth fuel (by omega) c.1 (List.mem_map_of_mem (hperm.mem_iff.mp hc)))
            ⟨pre, rfl, hpre⟩
        obtain ⟨r, hr⟩ := Option.isSome_iff_exists.mp hloop
        rw [hr]
        dsimp only
        split <;> rfl

/-- A recursive purge with `force` that returns. -/
theorem purge_forced_iff {fuel calls : Nat} {r : PurgeResult} (howned : db.HistoryOwned)
    (hrow : (db.instance? iid).isSome = true)
    (h : purgeWorkflowState (sqlBackend backend) order true true fuel calls db iid none = some r) :
    (r.err = none ∧ ∀ id, db.Descends iid id → r.db.instance? id = none ∧ r.db.historyOf id = []) ↔
      ∀ id, db.Descends iid id → (db.instance? id).isSome = true → db.Removable id := by
  obtain ⟨ids, hstore, hswept, -, houtcome⟩ := purge_spec howned h
  constructor
  · rintro ⟨herr, hgone⟩ id hid hid'
    rw [herr] at houtcome
    cases houtcome with
    | purged hmem =>
      have hinst := (hgone id hid).1
      rw [hstore, Db.instance?_deleteAll] at hinst
      split at hinst
      · next hmem => exact hswept.holds_of_mem hmem
      · rw [hinst] at hid'
        cases hid'
  · intro hall
    generalize hr : r.err = err at houtcome
    cases houtcome with
    | purged hmem =>
      refine ⟨rfl, fun id hid => ?_⟩
      rw [hstore, Db.instance?_deleteAll, Db.historyOf_deleteAll]
      rcases hswept.descendant hmem hid with hmem | hnil
      · rw [if_pos hmem, if_pos hmem]
        exact ⟨rfl, rfl⟩
      · refine ⟨?_, by rw [hnil, ite_self]⟩
        split
        · rfl
        · by_contra hsome
          exact (hall id hid (Option.isSome_iff_ne_none.mpr hsome)).history hnil
    | notFound gone _ =>
      exact absurd (gone.resolve_left List.not_mem_nil) (hall iid .refl hrow).history
    | stopped _ hdesc hobs =>
      exfalso
      cases hobs with
      | active unforced => cases unforced
      | status row history hended =>
        obtain ⟨row', hrow', hended'⟩ := (hall _ hdesc (by rw [row]; rfl)).ended
        rw [row] at hrow'
        cases hrow'
        rw [hended] at hended'
        cases hended'
      | remote mem hremote =>
        have hchild := Db.mem_childrenOf.mp (List.mem_map_of_mem mem)
        have hsome := mt (howned _) (mt Db.not_child_of_historyOf (not_not_intro hchild))
        rw [(hall _ hdesc (Option.isSome_iff_ne_none.mpr hsome)).sameApp _ mem] at hremote
        cases hremote

/-- What the option `force` of a purge comes to, for an instance of an SQL store whose recorded
children form no cycle. Without `recursive` the instance is removed exactly if it has ended. With
`recursive` the purge returns, and it succeeds and removes the instance and all it can reach exactly if
each of them has ended, has a history and no child in another app. -/
theorem force_purge_iff (backend : String) (order : MapOrder) (router : Option TaskRouter)
    (calls : Nat) (howned : db.HistoryOwned) (hacyclic : Graph.Acyclic db.Child)
    (hrow : (db.instance? iid).isSome = true) :
    (∀ fuel, ∃ r,
      purgeWorkflowState (sqlBackend backend) order false true (fuel + 1) calls db iid router = some r ∧
      (r.err = none ∧ r.db.instance? iid = none ∧ r.db.historyOf iid = [] ↔
        isRemoteRouter router = false ∧
          ∃ row, db.instance? iid = some row ∧ Db.isPurgeable row.runtimeStatus = true)) ∧
    ∃ depth, ∀ fuel ≥ depth, ∃ r,
      purgeWorkflowState (sqlBackend backend) order true true fuel calls db iid router = some r ∧
      (r.err = none ∧ (∀ id, db.Descends iid id → r.db.instance? id = none ∧ r.db.historyOf id = []) ↔
        isRemoteRouter router = false ∧
          ∀ id, db.Descends iid id → (db.instance? id).isSome = true → db.Removable id) := by
  cases hrouter : isRemoteRouter router with
  | true =>
    refine ⟨fun fuel => ⟨_, purgeWorkflowState_remote hrouter fuel calls, ?_⟩,
      1, fun fuel hfuel => ?_⟩
    · simp
    · obtain ⟨fuel, rfl⟩ := Nat.exists_eq_add_of_le' hfuel
      exact ⟨_, purgeWorkflowState_remote hrouter fuel calls, by simp⟩
  | false =>
    obtain ⟨row, hrow'⟩ := Option.isSome_iff_exists.mp hrow
    obtain ⟨depth, hdepth⟩ := purgeWorkflowState_isSome backend order true howned hacyclic iid
    refine ⟨fun fuel => ?_, depth, fun fuel hfuel => ?_⟩
    · rw [purgeWorkflowState_local hrouter, purgeWorkflowState, if_neg (by decide), if_neg nofun,
        purgeRoot_eq, hrow']
      dsimp only
      split
      · next hended =>
        refine ⟨_, rfl, fun _ => ⟨rfl, row, rfl, hended⟩, fun _ => ⟨rfl, ?_, ?_⟩⟩
        · exact (Db.instance?_deleteInstance db iid iid).trans (if_pos rfl)
        · exact (Db.historyOf_deleteInstance db iid iid).trans (if_pos rfl)
      · next hended =>
        refine ⟨_, rfl, (fun h => nomatch h.1), ?_⟩
        rintro ⟨-, row', hrow', hended'⟩
        cases hrow'
        exact absurd hended' hended
    · obtain ⟨r, hr⟩ := Option.isSome_iff_exists.mp (hdepth fuel hfuel calls [] .nil)
      rw [purgeWorkflowState_local hrouter]
      refine ⟨r, hr, ?_⟩
      rw [purge_forced_iff howned hrow hr]
      simp

end Returns

namespace PurgeExample

open StalledExample (opts)
open SpawnExample (spawner turn)

/-- A workflow that is running. -/
def running : List Op := .createWorkflowInstance spawner :: turn "t1" {} 1

/-- A workflow that is running is not removed, forced or not, by either store. -/
theorem forced_purge_of_running :
    Graph.Acyclic (System.run opts running).db.Child ∧
      ((System.run opts running).db.instance? "a").isSome = true ∧
      ∀ be ∈ [sqliteBackend, postgresBackend], ∀ recursive : Bool,
        ((purgeWorkflowState be inOrder recursive true 2 0 (System.run opts running).db "a" none).map
          fun r => (r.err, (r.db.instance? "a").isSome)) = some (some .notCompleted, true) := by
  refine ⟨fun id hcycle => ?_, by decide +kernel, by decide +kernel⟩
  have hnone : ∀ row ∈ (System.run opts running).db.history,
      row.event.getChildWorkflowInstanceCreated = none := by decide +kernel
  obtain ⟨c, hchild, -⟩ := Relation.TransGen.head'_iff.mp hcycle
  obtain ⟨row, hrow, -, hcreates⟩ := hchild.row
  rw [HistoryEvent.creates, hnone row hrow] at hcreates
  cases hcreates

/-- A single edge is no cycle. -/
theorem acyclic_of_edge {db : Db} {a b : InstanceID} (hne : a ≠ b)
    (h : ∀ row ∈ db.history, row.event.getChildWorkflowInstanceCreated.all
      (fun created => row.instanceID = a ∧ created.instanceId = b) = true) :
    Graph.Acyclic db.Child := by
  have hchild (y x : InstanceID) (hyx : db.Child y x) : y = a ∧ x = b := by
    obtain ⟨row, hmem, rfl, hcreates⟩ := hyx.row
    obtain ⟨created, hcreated, hid⟩ := (Option.any_eq_true _ _).mp hcreates
    have h := h row hmem
    rw [hcreated] at h
    have h := of_decide_eq_true h
    exact ⟨h.1, (of_decide_eq_true hid).symm.trans h.2⟩
  intro id hcycle
  obtain ⟨c, hhead, -⟩ := Relation.TransGen.head'_iff.mp hcycle
  obtain ⟨d, -, htail⟩ := Relation.TransGen.tail'_iff.mp hcycle
  exact hne ((hchild _ _ hhead).1.symm.trans (hchild _ _ htail).2)

theorem forced_purge_of_ended :
    ∃ depth, ∀ fuel ≥ depth, ∃ r, purgeWorkflowState sqliteBackend inOrder true true fuel 0
        (System.run opts endedChild).db "a" none = some r ∧ r.err = none ∧
      r.db.instance? "a" = none := by
  have hedge : ∀ row ∈ (System.run opts endedChild).db.history,
      row.event.getChildWorkflowInstanceCreated.all
        (fun created => row.instanceID = "a" ∧ created.instanceId = "b") = true := by decide +kernel
  have hrow : ((System.run opts endedChild).db.instance? "a").isSome = true := by decide +kernel
  have hended : ∀ row ∈ (System.run opts endedChild).db.instances,
      (System.run opts endedChild).db.historyOf row.instanceID ≠ [] ∧
      Db.isPurgeable row.runtimeStatus = true ∧
      ∀ child ∈ (System.run opts endedChild).db.childrenOf row.instanceID,
        isRemoteRouter child.2 = false := by decide +kernel
  have howned := System.historyOf_owned opts endedChild
  generalize (System.run opts endedChild).db = db at hedge hrow hended howned
  have hacyclic : Graph.Acyclic db.Child := acyclic_of_edge (by decide) hedge
  obtain ⟨depth, hdepth⟩ := (force_purge_iff "sqlite" inOrder none 0 howned hacyclic hrow).2
  refine ⟨depth, fun fuel hfuel => ?_⟩
  obtain ⟨r, hr, hiff⟩ := hdepth fuel hfuel
  have hdone := hiff.mpr ⟨rfl, fun id _ hid => by
    obtain ⟨row, hrow⟩ := Option.isSome_iff_exists.mp hid
    obtain ⟨hhist, hstatus, hlocal⟩ := hended row (List.mem_of_find?_eq_some hrow)
    rw [Db.instanceID_of_instance? hrow] at hhist hlocal
    exact ⟨hhist, ⟨row, hrow, hstatus⟩, hlocal⟩⟩
  exact ⟨r, hr, hdone.1, (hdone.2 "a" .refl).1⟩

end PurgeExample

end Sqlite

end DurableTask
