import DurableTask.Backend.Provenance
import DurableTask.Backend.Sqlite.ChildResult
import DurableTask.Backend.Sqlite.Spawn

/-!
# The events of a history, and the queue

Rows are numbered in the order they are queued in. The history of an instance, the batch of a lease and
what is left in the queue form one line, which a relation between rows may order: a call only removes rows
from it, or puts new ones at its end. Two relations are of interest. No row comes twice
(`delivered_once`). And rows that were queued for immediate delivery come in the order they were queued
in, as long as none of them is hidden when a work item is acquired (`history_fifo`): an abandoned row is
hidden for a while, and later rows overtake it (`FifoExample.abandoned`).
-/

namespace DurableTask.Sqlite

open Table

namespace Db

variable {db db' : Db} {id : InstanceID}

/-! ### The numbers of rows -/

/-- The numbers of the rows that are queued for an instance. -/
def uidsOf (db : Db) (id : InstanceID) : List Nat := (db.queueOf id).map EventRow.uid

/-- The log numbers its rows, and the queue is a part of it, in order. -/
structure Numbered (db : Db) : Prop where
  log : db.enqueued.map EventRow.uid = List.range db.enqueued.length
  queue : (db.newEvents.map EventRow.uid ++ [db.enqueued.length]).Pairwise (· < ·)

theorem Shrinks.uids (h : Shrinks db db') :
    (db'.newEvents.map EventRow.uid).Sublist (db.newEvents.map EventRow.uid) := by
  have hsub := h.map EventRow.uid
  rw [List.map_map, List.map_map] at hsub
  exact hsub

theorem Shrinks.uidsOf (h : Shrinks db db') (id : InstanceID) :
    (db'.uidsOf id).Sublist (db.uidsOf id) := by
  have hsub := (h.filter (·.instanceID = id)).map EventRow.uid
  rw [List.filter_map, List.filter_map, List.map_map, List.map_map] at hsub
  exact hsub

theorem Logging.numbered (h : Logging db db') (hn : db.Numbered) : db'.Numbered := by
  cases h with
  | shrinks h log => exact ⟨log ▸ hn.log, log ▸ hn.queue.sublist (h.uids.append (List.Sublist.refl _))⟩
  | insert h log =>
    have hlen : db'.enqueued.length = db.enqueued.length + 1 := by
      rw [log]
      exact List.length_append
    refine ⟨?_, ?_⟩
    · rw [hlen, List.range_succ, ← hn.log, log]
      exact List.map_append
    · rw [hlen, h, insertNewEvent, List.map_append, List.map_singleton, List.pairwise_append]
      refine ⟨hn.queue, List.pairwise_singleton .., fun u hu v hv => ?_⟩
      rw [List.mem_singleton.mp hv]
      rcases List.mem_append.mp hu with hu | hu
      · exact Nat.lt_succ_of_lt ((List.pairwise_append.mp hn.queue).2.2 u hu _ List.mem_cons_self)
      · exact List.mem_singleton.mp hu ▸ Nat.lt_succ_self _

theorem Loggings.numbered (h : Loggings db db') (hn : db.Numbered) : db'.Numbered := by
  induction h with
  | refl => exact hn
  | tail _ hstep ih => exact hstep.numbered ih

theorem Loggings.log (h : Loggings db db') : db.enqueued <+: db'.enqueued := by
  induction h with
  | refl => exact List.prefix_rfl
  | tail _ hstep ih =>
    cases hstep with
    | shrinks h log => exact log ▸ ih
    | insert h log => exact log ▸ ih.trans (List.prefix_append ..)

/-- The numbers that were given since. -/
def fresh (db db' : Db) : List Nat :=
  List.range' db.enqueued.length (db'.enqueued.length - db.enqueued.length)

/-- The queue of an instance loses rows, and gets new ones at its end. -/
theorem Loggings.uidsOf (h : Loggings db db') (id : InstanceID) :
    (db'.uidsOf id).Sublist (db.uidsOf id ++ fresh db db') := by
  induction h with
  | refl => exact List.sublist_append_left _ _
  | @tail x y hsteps hstep ih =>
    have hle := (Loggings.log hsteps).length_le
    cases hstep with
    | shrinks h log =>
      unfold fresh
      rw [log]
      exact (h.uidsOf id).trans ih
    | @insert iid e visibleTime executionID origin _ h log =>
      have hlen : y.enqueued.length = x.enqueued.length + 1 := by
        rw [log]
        exact List.length_append
      have hfresh : fresh db y = fresh db x ++ [x.enqueued.length] := by
        unfold fresh
        rw [hlen, Nat.sub_add_comm hle, List.range'_1_concat]
        congr 2
        omega
      rw [hfresh, ← List.append_assoc]
      unfold Db.uidsOf queueOf
      rw [h, insertNewEvent, List.filter_append, List.map_append]
      refine ih.append ?_
      by_cases hid : iid = id
      · rw [List.filter_cons_of_pos (by simpa using hid)]
        exact List.Sublist.refl _
      · rw [List.filter_cons_of_neg (by simpa using hid)]
        exact List.nil_sublist _

theorem Numbered.lt (hn : db.Numbered) {e : EventRow} (he : e ∈ db.newEvents) :
    e.uid < db.enqueued.length :=
  (List.pairwise_append.mp hn.queue).2.2 _ (List.mem_map_of_mem he) _ List.mem_cons_self

theorem Numbered.inj (hn : db.Numbered) {e e' : EventRow} (he : e ∈ db.newEvents)
    (he' : e' ∈ db.newEvents) (h : e.uid = e'.uid) : e = e' := by
  have hnodup : (db.newEvents.map EventRow.uid).Nodup :=
    (List.pairwise_append.mp hn.queue).1.imp fun hlt => Nat.ne_of_lt hlt
  exact List.inj_on_of_nodup_map hnodup he he' h

/-! ### Lines -/

/-- A relation of every row to the later ones, which transactions leave as it is. -/
structure Stable (R : Db → Nat → Nat → Prop) : Prop where
  of_lt : ∀ {db u v}, u < v → R db u v
  keeps : ∀ {db db' u v}, Loggings db db' → db.Numbered → u < db.enqueued.length →
    v < db.enqueued.length → R db u v → R db' u v

/-- The rows of the events in a history. -/
def committed (db : Db) (id : InstanceID) : List Nat :=
  rowNumbers ((db.historyTable id).map HistoryRow.event)

/-- The rows that a lease holds. -/
def heldBy (db : Db) (wi : WorkflowWorkItem) : List Nat :=
  (db.inbound wi.instanceID wi.lockedBy).map EventRow.uid

/-- The rows that are queued for the instance of a work item and not held by its lease. -/
def waiting (db : Db) (wi : WorkflowWorkItem) : List Nat :=
  (db.uidsOf wi.instanceID).filter (· ∉ db.heldBy wi)

section Lines

variable (R : Db → Nat → Nat → Prop)

/-- Every history is in order, and is continued by the queue. -/
structure Lined (db : Db) : Prop where
  numbered : db.Numbered
  below : ∀ id, ∀ u ∈ db.committed id, u < db.enqueued.length
  ordered : ∀ id, (db.committed id ++ db.uidsOf id).Pairwise (R db)

/-- A work item continues its history too, before what its lease does not hold. -/
structure InLine (db : Db) (wi : WorkflowWorkItem) : Prop where
  held : ∀ u ∈ rowNumbers wi.newEvents, u ∈ db.heldBy wi
  ordered : (db.committed wi.instanceID ++ rowNumbers wi.newEvents ++ db.waiting wi).Pairwise (R db)

/-- A processed one has events of its history and its batch, in order. -/
structure Commits (db : Db) (wi : WorkflowWorkItem) : Prop where
  processed : Processed db wi
  inLine : InLine R db wi
  rows : (rowNumbers wi.state.allEvents).Sublist
    (db.committed wi.instanceID ++ rowNumbers wi.newEvents)

end Lines

variable {R : Db → Nat → Nat → Prop} {opts : SqliteOptions} {op : Op} {now : Time}
  {wi : WorkflowWorkItem}

theorem committed_congr (h : db'.historyTable id = db.historyTable id) :
    db'.committed id = db.committed id := by
  unfold committed
  rw [h]

theorem heldBy_congr
    (h : db'.inbound wi.instanceID wi.lockedBy = db.inbound wi.instanceID wi.lockedBy) :
    db'.heldBy wi = db.heldBy wi := by
  unfold heldBy
  rw [h]

/-- A line that loses rows, and is continued with new ones. -/
theorem Stable.continued (hR : Stable R) {us us' : List Nat} (h : us.Pairwise (R db))
    (hlog : Loggings db db') (hn : db.Numbered) (hus : ∀ u ∈ us, u < db.enqueued.length)
    (hsub : us'.Sublist (us ++ fresh db db')) : us'.Pairwise (R db') := by
  refine List.Pairwise.sublist hsub (List.pairwise_append.mpr ⟨?_, ?_, fun u hu v hv => hR.of_lt ?_⟩)
  · exact h.imp_of_mem fun hu hv => hR.keeps hlog hn (hus _ hu) (hus _ hv)
  · exact (List.pairwise_lt_range' ..).imp fun hlt => hR.of_lt hlt
  · exact (hus u hu).trans_le (List.mem_range'_1.mp hv).1

theorem Numbered.uidsOf_lt (hn : db.Numbered) {u : Nat} (hu : u ∈ db.uidsOf id) :
    u < db.enqueued.length := by
  obtain ⟨e, he, rfl⟩ := List.mem_map.mp hu
  exact hn.lt (List.mem_of_mem_filter he)

theorem Lined.below_line (h : Lined R db) (id : InstanceID) :
    ∀ u ∈ db.committed id ++ db.uidsOf id, u < db.enqueued.length := by
  intro u hu
  rcases List.mem_append.mp hu with hu | hu
  · exact h.below id u hu
  · exact h.numbered.uidsOf_lt hu

theorem mem_uidsOf_of_heldBy {u : Nat} (hu : u ∈ db.heldBy wi) : u ∈ db.uidsOf wi.instanceID := by
  unfold heldBy at hu
  rw [inbound_eq_filter] at hu
  obtain ⟨e, he, rfl⟩ := List.mem_map.mp hu
  exact List.mem_map_of_mem (List.mem_of_mem_filter he)

theorem InLine.below (h : InLine R db wi) (hline : Lined R db) :
    ∀ u ∈ db.committed wi.instanceID ++ rowNumbers wi.newEvents ++ db.waiting wi,
      u < db.enqueued.length := by
  intro u hu
  refine hline.below_line wi.instanceID u ?_
  rw [List.append_assoc, List.mem_append, List.mem_append] at hu
  rw [List.mem_append]
  refine hu.imp_right fun hu => hu.elim (fun hu => ?_) List.mem_of_mem_filter
  exact mem_uidsOf_of_heldBy (h.held u hu)

/-! ### One call -/

/-- What a lease does not hold loses rows, and gets new ones at its end. -/
theorem Loggings.waiting (hlog : Loggings db db') (hheld : db'.heldBy wi = db.heldBy wi) :
    (db'.waiting wi).Sublist (db.waiting wi ++ fresh db db') := by
  unfold Db.waiting
  rw [hheld]
  have hsub := (Loggings.uidsOf hlog wi.instanceID).filter (· ∉ db.heldBy wi)
  rw [List.filter_append] at hsub
  exact hsub.trans ((List.Sublist.refl _).append List.filter_sublist)

/-- A call that leaves the lease alone leaves the work item in line. -/
theorem InLine.keeps (hR : Stable R) (h : InLine R db wi) (hline : Lined R db) (hlog : Loggings db db')
    (hkeeps : Keeps wi.lockedBy db db') (hl : db'.leasedBy wi.instanceID wi.lockedBy) :
    InLine R db' wi := by
  obtain ⟨-, hhist, hin⟩ := hkeeps _ hl
  have hheld := heldBy_congr hin
  refine ⟨hheld ▸ h.held, hR.continued h.ordered hlog hline.numbered (h.below hline) ?_⟩
  rw [committed_congr hhist, List.append_assoc _ (db.waiting wi)]
  exact (List.Sublist.refl _).append (hlog.waiting hheld)

/-- What a successful commit leaves of the queue of its instance. -/
theorem Completes.uidsOf {db₁ db₂ db₃ : Db} (hc : Completes db now wi db' db₁ db₂ db₃)
    (hl : db.leasedBy wi.instanceID wi.lockedBy) (hn : db.Numbered) :
    (db'.uidsOf wi.instanceID).Sublist (db.waiting wi ++ fresh db db') := by
  have hlog := hc.loggings
  obtain ⟨hany, hdb'⟩ := acknowledge_eq hc.acknowledged
  have hin : (db₃.enqueueOutbox wi (db.committing wi)).inbound wi.instanceID wi.lockedBy =
      db₃.inbound wi.instanceID wi.lockedBy := inbound_enqueueOutbox ..
  have hn' := Loggings.numbered hlog hn
  generalize db₃.enqueueOutbox wi (db.committing wi) = x at hlog hany hdb' hin hn'
  have hheld : x.heldBy wi = db.heldBy wi := by
    refine heldBy_congr ?_
    rw [any_isInbound, hin] at hany
    have hprep : Prepares db now wi db₁ db₂ db₃ := ⟨hc.inserted, hc.results, hc.started⟩
    have hown := hprep.inbound hl
    split at hown
    · exact absurd hown hany
    · rw [hin, hown]
  have hfresh : fresh db db' = fresh db x := by
    rw [hdb']
    rfl
  have huids : db'.uidsOf wi.instanceID = x.waiting wi := by
    unfold Db.uidsOf Db.waiting Db.uidsOf queueOf
    rw [hdb', List.filter_map]
    unfold delete
    rw [List.filter_filter, List.filter_filter]
    refine congrArg (List.map EventRow.uid) (List.filter_congr fun e he => ?_)
    -- A row that the lease does not hold has another number than those it holds.
    have hiff : EventRow.isInbound wi e = true ↔ e.uid ∈ x.heldBy wi := by
      refine ⟨fun h => List.mem_map_of_mem (List.mem_filter.mpr ⟨he, h⟩), fun h => ?_⟩
      obtain ⟨e', he', hnumber⟩ := List.mem_map.mp h
      obtain ⟨he', hheld'⟩ := List.mem_filter.mp he'
      exact hn'.inj he' he hnumber ▸ hheld'
    by_cases h : EventRow.isInbound wi e = true <;> simp [h, hiff.symm, Bool.and_comm]
  rw [huids, hfresh]
  exact Loggings.waiting hlog hheld

/-- What a successful commit makes of the history. -/
theorem Commits.committed {db₁ db₂ db₃ : Db} (hc : Completes db now wi db' db₁ db₂ db₃)
    (h : Commits R db wi) (hl : db.leasedBy wi.instanceID wi.lockedBy) (hdoc : db.Documented) :
    (db'.committed wi.instanceID).Sublist (db.committed wi.instanceID ++ rowNumbers wi.newEvents) := by
  obtain ⟨r, hr, -⟩ := hl
  have hhist := (complete_own hc (by rw [hr]; rfl)).2
  have hevents := (h.processed.recorded (hdoc.recorded wi.instanceID)).2
  unfold Db.committed at *
  rw [hhist, (historyTable_turn hc.inserted).1, hevents]
  exact h.rows

theorem Lined.transaction (hR : Stable R) (h : Lined R db) (hdoc : db.Documented)
    (htx : Transaction opts (Commits R) db op db') : Lined R db' := by
  have hlog := htx.loggings
  have hline (id : InstanceID) : ∃ past next, (past ++ next).Pairwise (R db) ∧
      (∀ u ∈ past ++ next, u < db.enqueued.length) ∧ (db'.committed id).Sublist past ∧
      (db'.uidsOf id).Sublist (next ++ fresh db db') := by
    rcases htx.commits_or id with hother | ⟨now, wi, rfl, hl, held, hcomplete⟩
    · refine ⟨_, _, h.ordered id, h.below_line id, ?_, Loggings.uidsOf hlog id⟩
      rcases historyTable_ledgers hother.ledgers with heq | hempty
      · exact committed_congr heq ▸ List.Sublist.refl _
      · unfold committed
        rw [hempty]
        exact List.nil_sublist _
    · obtain ⟨db₁, db₂, db₃, hc⟩ := completes_of_ok hcomplete
      exact ⟨_, _, held.inLine.ordered, held.inLine.below h, held.committed hc hl hdoc,
        hc.uidsOf hl h.numbered⟩
  refine ⟨Loggings.numbered hlog h.numbered, fun id u hu => ?_, fun id => ?_⟩
  · obtain ⟨past, next, -, hlt, hpast, -⟩ := hline id
    exact (hlt u (List.mem_append_left _ (hpast.mem hu))).trans_le (Loggings.log hlog).length_le
  · obtain ⟨past, next, hordered, hlt, hpast, hnext⟩ := hline id
    refine hR.continued hordered hlog h.numbered hlt ?_
    rw [List.append_assoc]
    exact hpast.append hnext

theorem rowNumbers_delivered (rows : List EventRow) :
    rowNumbers (rows.map EventRow.delivered) = rows.map EventRow.uid := by
  unfold rowNumbers
  rw [List.filterMap_map]
  exact congrFun (List.filterMap_eq_map (f := EventRow.uid)) rows

/-- The batch of an acquired work item is a part of the queue of its instance. -/
theorem rowNumbers_acquired {t : String}
    (hget : db.getWorkflowWorkItem opts now t = .ok (db', some wi)) :
    (rowNumbers wi.newEvents).Sublist (db.uidsOf wi.instanceID) ∧
      ∀ u ∈ rowNumbers wi.newEvents, ∃ e ∈ (db.newEvents.filter (EventRow.isDue wi.instanceID now)).take
        maxBatch, e.uid = u := by
  cases acquires_of_getWorkflowWorkItem hget with
  | @lease row _ next instanceID lockedBy newEvents nonempty =>
    have hdue : (db.newEvents.filter (EventRow.isDue row.instanceID now)).Sublist
        (db.queueOf row.instanceID) :=
      List.monotone_filter_right _ fun e he => (Bool.and_eq_true_iff.mp he).1
    have hnumbers : (rowNumbers wi.newEvents).Sublist
        (((db.newEvents.filter (EventRow.isDue row.instanceID now)).take maxBatch).map
          EventRow.uid) := by
      rw [newEvents, rowNumbers_delivered]
      refine (List.filter_sublist.map _).trans ?_
      unfold batch
      rw [List.map_map]
      exact List.Sublist.refl _
    rw [instanceID]
    exact ⟨hnumbers.trans (((List.take_sublist ..).trans hdue).map EventRow.uid),
      fun u hu => List.mem_map.mp (hnumbers.mem hu)⟩

theorem heldBy_acquired {t : String} (hs : db.Sequenced)
    (hget : db.getWorkflowWorkItem opts now t = .ok (db', some wi)) :
    ∀ u ∈ rowNumbers wi.newEvents, u ∈ db'.heldBy wi := by
  intro u hu
  obtain ⟨e, he, hrow⟩ := List.mem_filterMap.mp hu
  obtain ⟨row, hrow', rfl⟩ := (inbound_acquired hs hget).2 e he
  cases hrow
  exact List.mem_map_of_mem hrow'

/-- An acquired work item is in line if its batch is before the rest of the queue. -/
theorem InLine.acquire {t : String} (h : Lined R db) (hs : db.Sequenced)
    (hget : db.getWorkflowWorkItem opts now t = .ok (db', some wi))
    (hR : ∀ u v, R db' u v ↔ R db u v)
    (hbefore : ∀ u ∈ rowNumbers wi.newEvents, ∀ v ∈ db'.waiting wi, R db u v) : InLine R db' wi := by
  have hrest : (db'.waiting wi).Sublist (db.uidsOf wi.instanceID) :=
    List.filter_sublist.trans ((shrinks_getWorkflowWorkItem hget).uidsOf _)
  have hhist : db'.committed wi.instanceID = db.committed wi.instanceID := by
    cases acquires_of_getWorkflowWorkItem hget
    rfl
  have hordered := h.ordered wi.instanceID
  refine ⟨heldBy_acquired hs hget, ?_⟩
  rw [hhist, show R db' = R db from funext fun u => funext fun v => propext (hR u v)]
  refine List.pairwise_append.mpr ⟨List.Pairwise.sublist
    ((List.Sublist.refl _).append (rowNumbers_acquired hget).1) hordered,
    List.Pairwise.sublist hrest (List.pairwise_append.mp hordered).2.1, fun u hu v hv => ?_⟩
  rcases List.mem_append.mp hu with hu | hu
  · exact (List.pairwise_append.mp hordered).2.2 u hu v (hrest.mem hv)
  · exact hbefore u hu v hv

/-! ### Immediate delivery -/

/-- A row that was queued for immediate delivery. -/
def immediate (db : Db) (u : Nat) : Prop := ∃ row ∈ db.enqueued, row.uid = u ∧ row.visibleTime = none

instance (db : Db) (u : Nat) : Decidable (db.immediate u) :=
  inferInstanceAs (Decidable (∃ row ∈ db.enqueued, row.uid = u ∧ row.visibleTime = none))

/-- Of a row that is in the log, no later entry says anything. -/
theorem immediate_of_log (hlog : db.enqueued <+: db'.enqueued) (hn : db'.Numbered) {u : Nat}
    (hu : u < db.enqueued.length) (h : db'.immediate u) : db.immediate u := by
  obtain ⟨rows, hrows⟩ := hlog
  obtain ⟨row, hrow, hnumber, hvisible⟩ := h
  rw [← hrows] at hrow
  refine ⟨row, (List.mem_append.mp hrow).resolve_right fun hrow => ?_, hnumber, hvisible⟩
  have hlog := hn.log
  rw [← hrows, List.map_append, List.length_append, List.range_add] at hlog
  have hlater := (List.append_inj hlog (by rw [List.length_map, List.length_range])).2
  have hmem : u ∈ rows.map EventRow.uid := hnumber ▸ List.mem_map_of_mem hrow
  rw [hlater] at hmem
  obtain ⟨k, -, hk⟩ := List.mem_map.mp hmem
  omega

/-- Rows that were queued for immediate delivery are in the order they were queued in. -/
def InOrder (db : Db) (u v : Nat) : Prop := db.immediate u → db.immediate v → u < v

theorem stable_inOrder : Stable InOrder where
  of_lt hlt _ _ := hlt
  keeps hlog hn hu hv h hnow hnow' := by
    have hn' := Loggings.numbered hlog hn
    have hlog := Loggings.log hlog
    exact h (immediate_of_log hlog hn' hu hnow) (immediate_of_log hlog hn' hv hnow')

theorem stable_ne : Stable fun _ u v => u ≠ v where
  of_lt hlt := Nat.ne_of_lt hlt
  keeps _ _ _ _ h := h

/-- None of the rows of an instance that were queued for immediate delivery is hidden. -/
def Visible (db : Db) (id : InstanceID) (now : Time) : Prop :=
  ∀ e ∈ db.queueOf id, db.immediate e.uid → e.visibleTime.all (· ≤ now) = true

instance (db : Db) (id : InstanceID) (now : Time) : Decidable (db.Visible id now) :=
  inferInstanceAs (Decidable (∀ e ∈ db.queueOf id, _))

/-- The first rows that meet a condition come before the others that meet it. -/
theorem Numbered.take_lt_drop (hn : db.Numbered) {p : EventRow → Bool} {n : Nat} {e e' : EventRow}
    (he : e ∈ (db.newEvents.filter p).take n) (he' : e' ∈ (db.newEvents.filter p).drop n) :
    e.uid < e'.uid := by
  have hqueue := (List.pairwise_append.mp hn.queue).1
  rw [List.pairwise_map] at hqueue
  have hrows := hqueue.sublist (List.filter_sublist (p := p))
  rw [← List.take_append_drop n (db.newEvents.filter p)] at hrows
  exact (List.pairwise_append.mp hrows).2.2 e he e' he'

/-- A row that is due and is left in the queue comes after the batch. -/
theorem Visible.inOrder {t : String} (hvisible : db.Visible wi.instanceID now) (hn : db.Numbered)
    (hget : db.getWorkflowWorkItem opts now t = .ok (db', some wi)) :
    ∀ u ∈ rowNumbers wi.newEvents, ∀ v ∈ db'.waiting wi, db.InOrder u v := by
  intro u hu v hv _ hnow
  obtain ⟨e, he, rfl⟩ := (rowNumbers_acquired hget).2 u hu
  obtain ⟨hv, hfree⟩ := List.mem_filter.mp hv
  obtain ⟨e', he', rfl⟩ := List.mem_map.mp hv
  obtain ⟨hqueued, hid⟩ := List.mem_filter.mp he'
  cases acquires_of_getWorkflowWorkItem hget with
  | @lease row _ next instanceID lockedBy newEvents nonempty =>
    rcases mem_updateFirst_cases (List.mem_of_mem_filter hqueued) with ⟨e₀, -, rfl⟩ | ⟨hmem, hafter⟩
    · refine absurd ?_ (of_decide_eq_true hfree)
      refine List.mem_map_of_mem (List.mem_filter.mpr ⟨hqueued, ?_⟩)
      rw [hid, lockedBy]
      simp [EventRow.lock]
    · refine hn.take_lt_drop he (instanceID ▸ hafter ?_)
      have hall := hvisible e' (List.mem_filter.mpr ⟨hmem, hid⟩) hnow
      rw [EventRow.isDue, ← instanceID, hid, hall]
      rfl

end Db

/-! ### Every run -/

namespace System

variable {R : Db → Nat → Nat → Prop} {opts : SqliteOptions} {s : System} {op : Op}

/-- The executors carry events over in order. -/
def CarriesInOrder (op : Op) : Prop :=
  ∀ t w env, op = .processWorkItem t w env → w.Executors WorkflowExecutor.CarriesInOrder

abbrev Lines (R : Db → Nat → Nat → Prop) : System → Prop :=
  Holds (fun db => db.Documented ∧ db.Sequenced ∧ db.Lined R) (Db.InLine R) (Db.Commits R)

theorem Lines.init (opts : SqliteOptions) : Lines R {} := by
  have hnone {p : WorkflowWorkItem → Prop} : ∀ wi ∈ ([] : List WorkflowWorkItem), p wi :=
    fun _ h => absurd h List.not_mem_nil
  refine ⟨⟨hnone, .nil⟩, .nil, ⟨(documented_maintained opts).init, .nil, ?_⟩, hnone, hnone⟩
  exact ⟨⟨rfl, List.pairwise_singleton ..⟩, fun _ u hu => absurd hu List.not_mem_nil, fun _ => .nil⟩

/-- One call, if what it acquires is before the rest of the queue. -/
theorem Lines.exec (hR : Db.Stable R) (h : Lines R s) (hcarries : CarriesInOrder op)
    (hacquire : ∀ now t db' wi, op = .getWorkflowWorkItem now t →
      s.db.getWorkflowWorkItem opts now t = .ok (db', some wi) → (∀ u v, R db' u v ↔ R s.db u v) ∧
        ∀ u ∈ rowNumbers wi.newEvents, ∀ v ∈ db'.waiting wi, R s.db u v) :
    Lines R (s.exec opts op) := by
  have htx := h.transaction (exec_spec opts s op)
  obtain ⟨hdoc, hs, hline⟩ := h.store
  refine h.step ⟨?_, htx.queuings.sequenced hs, hline.transaction hR hdoc htx⟩ ?_ ?_ ?_ ?_
  · exact hdoc.ledgers (htx.ledgers.mono fun _ _ held => held.processed)
  · intro now t db' wi hop hget _
    obtain ⟨hsame, hbefore⟩ := hacquire now t db' wi hop hget
    exact .acquire hline hs hget hsame hbefore
  · intro w env wi wi' hop hl hin hproc
    obtain ⟨hid, ht, hbatch⟩ := processWorkItem_lease hproc
    have hrows := rows_sublist_processWorkItem (hcarries _ w env hop) hproc
    have hloaded : rowNumbers (s.db.getWorkflowRuntimeState wi.instanceID).allEvents =
        s.db.committed wi.instanceID := by
      unfold WorkflowRuntimeState.allEvents
      rw [(hdoc.recorded wi.instanceID).oldEvents, show (s.db.getWorkflowRuntimeState
        wi.instanceID).newEvents = [] from (WorkflowRuntimeState.new_events _ _ _).2, List.append_nil]
      rfl
    refine ⟨(documented_maintained opts).process (s := s) trivial hdoc hl trivial hproc, ?_, ?_⟩
    · rcases wi' with ⟨_, _, _, _, _, _⟩
      cases hid
      cases ht
      cases hbatch
      exact ⟨hin.held, hin.ordered⟩
    · rw [hid, hbatch, ← hloaded]
      exact hrows
  · exact fun hkeeps hl hin => hin.keeps hR hline htx.loggings hkeeps hl
  · intro wi hkeeps hl held
    refine ⟨(documented_maintained opts).processed hkeeps hl held.processed,
      held.inLine.keeps hR hline htx.loggings hkeeps hl, ?_⟩
    rw [Db.committed_congr (hkeeps _ hl).2.1]
    exact held.rows

variable (opts) (ops : List Op)

/-- No row is twice in the history of an instance, and none that is in its history is in its queue: an
event is not delivered again once it is committed. -/
theorem delivered_once (hops : Along opts (fun _ op => CarriesInOrder op) ops) (id : InstanceID) :
    (rowNumbers ((run opts ops).db.historyOf id) ++ (run opts ops).db.uidsOf id).Nodup := by
  have h : Lines (fun _ u v => u ≠ v) (run opts ops) := by
    refine Run.Along.invariant (G := fun _ op => CarriesInOrder op) hops (.init opts)
      fun s op hop h => ?_
    refine h.exec Db.stable_ne hop fun now t db' wi _ hget => ⟨fun _ _ => Iff.rfl, ?_⟩
    rintro u hu _ hv rfl
    exact of_decide_eq_true (List.mem_filter.mp hv).2 (Db.heldBy_acquired h.store.2.1 hget u hu)
  rw [(h.store.1.recorded id).historyOf]
  exact h.store.2.2.ordered id

/-- A call that lets no row overtake another. -/
structure KeepsOrder (opts : SqliteOptions) (s : System) (op : Op) : Prop where
  carries : CarriesInOrder op
  visible : ∀ now t db' wi, op = .getWorkflowWorkItem now t →
    s.db.getWorkflowWorkItem opts now t = .ok (db', some wi) → s.db.Visible wi.instanceID now

/-- The events of a history that were queued for immediate delivery are in the order they were queued
in. -/
theorem history_fifo (hops : Along opts (KeepsOrder opts) ops) (id : InstanceID) :
    (rowNumbers ((run opts ops).db.historyOf id)).Pairwise (run opts ops).db.InOrder := by
  have h : Lines Db.InOrder (run opts ops) := by
    refine Run.Along.invariant (f := exec opts) hops (.init opts) fun s op hop h => ?_
    refine h.exec Db.stable_inOrder hop.carries fun now t db' wi hget' hget => ⟨fun _ _ => ?_, ?_⟩
    · cases Db.acquires_of_getWorkflowWorkItem hget
      exact Iff.rfl
    · exact (hop.visible now t db' wi hget' hget).inOrder h.store.2.2.numbered hget
  rw [(h.store.1.recorded id).historyOf]
  exact (List.pairwise_append.mp (h.store.2.2.ordered id)).1

end System

namespace FifoExample

open StalledExample (opts start)
open SpawnExample (turn)

def raised (name : String) : HistoryEvent := { eventType := .eventRaised { name := name } }

/-- The first event is abandoned twice. The second one is queued while the first is hidden. -/
def abandoned : List Op :=
  [.createWorkflowInstance start] ++ turn "t1" {} 1 ++
    [.addNewWorkflowEvent "a" (raised "first"),
     .getWorkflowWorkItem 3 "t2", .abandonWorkflowWorkItem "t2" 4,
     .getWorkflowWorkItem 5 "t3", .abandonWorkflowWorkItem "t3" 6,
     .addNewWorkflowEvent "a" (raised "second")] ++ turn "t4" {} 7 ++ turn "t5" {} (2 * second)

-- Both were queued for immediate delivery, and they are recorded in the other order.
example :
    let db := (System.run opts abandoned).db
    db.immediate 1 ∧ db.immediate 2 ∧ rowNumbers (db.historyOf "a") = [0, 2, 1] := by
  decide +kernel

def delivered : List Op :=
  [.createWorkflowInstance start, .addNewWorkflowEvent "a" (raised "first"),
   .addNewWorkflowEvent "a" (raised "second")] ++ turn "t1" {} 1

theorem delivered_keepsOrder : System.Along opts (System.KeepsOrder opts) delivered := by
  refine .concat [_, _, _, _, _] (.concat [_, _, _, _] (.concat [_, _, _] (.concat [_, _] (.concat [_]
    (.concat [] .nil ?_) ?_) ?_) ?_) ?_) ?_
  case refine_4 =>
    refine ⟨by rintro _ _ _ ⟨⟩, ?_⟩
    rintro _ _ _ wi ⟨⟩ hget
    exact System.forall_acquired (P := fun wi => Db.Visible _ wi.instanceID 1) (by decide +kernel) wi hget
  case refine_5 =>
    refine ⟨?_, by rintro _ _ _ _ ⟨⟩⟩
    rintro _ _ _ ⟨⟩
    refine ⟨?_, by rintro _ ⟨⟩⟩
    rintro k id oldEvents newEvents incomingHistory response ⟨⟩ action haction
    exact absurd haction List.not_mem_nil
  all_goals exact ⟨by rintro _ _ _ ⟨⟩, by rintro _ _ _ _ ⟨⟩⟩

theorem delivered_in_order :
    (rowNumbers ((System.run opts delivered).db.historyOf "a")).Pairwise
      (System.run opts delivered).db.InOrder :=
  System.history_fifo opts delivered delivered_keepsOrder "a"

theorem delivered_not_queued :
    (rowNumbers ((System.run opts delivered).db.historyOf "a") ++
      (System.run opts delivered).db.uidsOf "a").Nodup :=
  System.delivered_once opts delivered
    (fun pre op post h => (delivered_keepsOrder pre op post h).carries) "a"

end FifoExample

end DurableTask.Sqlite
