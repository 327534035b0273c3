import DurableTask.Client.WorkerHistory
import DurableTask.Lib.Selection

/-!
# The budget of the history cache

The caps of the worker's history cache, over any sequence of calls. Go leaves the order in which a map is
iterated open, so the entries may be in another order every time the eviction loop looks for a victim.
-/

namespace DurableTask.WorkflowHistoryCache

variable {h h' : WorkflowHistoryCache} {keep : InstanceID}

/-- One of the caps is exceeded. -/
def Over (h : WorkflowHistoryCache) : Prop :=
  h.entries.length > h.maxInstances ∨ h.maxBytes > 0 ∧ h.totalBytes > h.maxBytes

/-- The cache with its entries in another order. -/
def Reordered (h h' : WorkflowHistoryCache) : Prop :=
  ∃ entries, entries.Perm h.entries ∧ h' = { h with entries := entries }

/-- The loop of `evictToFit`, with the instances it evicts. Every search for a victim has its own order. -/
inductive EvictsToFit (keep : InstanceID) :
    WorkflowHistoryCache → List InstanceID → WorkflowHistoryCache → Prop
  | fits {h : WorkflowHistoryCache} (hfits : ¬(h.entries.length > 1 ∧ h.Over)) : EvictsToFit keep h [] h
  | none {h h₁ : WorkflowHistoryCache} (hover : h.entries.length > 1 ∧ h.Over) (horder : h.Reordered h₁)
    (hvictim : h₁.lruExcept keep = none) : EvictsToFit keep h [] h
  | evict {h h₁ h' : WorkflowHistoryCache} {victim : InstanceID} {evicted : List InstanceID}
    (hover : h.entries.length > 1 ∧ h.Over) (horder : h.Reordered h₁)
    (hvictim : h₁.lruExcept keep = some victim) (hrest : EvictsToFit keep (h.removeEntry victim) evicted h') :
    EvictsToFit keep h (victim :: evicted) h'

/-- `putForExecution` before `evictToFit`. -/
def inserted (size : HistoryEvent → Int) (h : WorkflowHistoryCache) (now : Time) (iid : InstanceID)
    (executionID : String) (events : List HistoryEvent) : WorkflowHistoryCache :=
  let bytes := if h.maxBytes > 0 then (events.map size).sum else 0
  let old := match Assoc.get? h.entries iid with
    | some old => old.bytes
    | none => 0
  { h with
    entries := Assoc.insert h.entries iid
      { executionID := executionID, events := events, lastAccess := now, bytes := bytes }
    totalBytes := h.totalBytes - old + bytes }

/-- A call on the cache. -/
inductive Calls (size : HistoryEvent → Int) : WorkflowHistoryCache → WorkflowHistoryCache → Prop
  | putForExecution (h : WorkflowHistoryCache) (now : Time) (iid : InstanceID) (executionID : String)
    (events : List HistoryEvent) {evicted : List InstanceID} {h' : WorkflowHistoryCache}
    (hevicts : EvictsToFit iid (h.inserted size now iid executionID events) evicted h') : Calls size h h'
  | get (h : WorkflowHistoryCache) (now : Time) (iid : InstanceID) (executionID : Option String) :
    Calls size h (h.get now iid executionID).1
  | delete (h : WorkflowHistoryCache) (iid : InstanceID) : Calls size h (h.removeEntry iid)
  | reset (h : WorkflowHistoryCache) : Calls size h h.reset
  | sweepExpired {h h₁ : WorkflowHistoryCache} (horder : h.Reordered h₁) (now : Time) :
    Calls size h (h₁.sweepExpired now)

/-! ### Victims -/

theorem lruExcept_eq (h : WorkflowHistoryCache) (keep : InstanceID) :
    h.lruExcept keep =
      ((h.entries.filter fun e => e.1 ≠ keep).argmin fun e => e.2.lastAccess).map Prod.fst := by
  unfold lruExcept List.argmin
  refine (congrArg (Option.map Prod.fst) (Selection.foldl_argAux
    (r := fun b c : InstanceID × CachedWorkflowHistory => b.2.lastAccess < c.2.lastAccess)
    (p := fun e => e.1 ≠ keep) (fun o => o.map fun e => (e.1, e.2.lastAccess)) ?_ ?_ none
    h.entries)).trans ?_
  · intro o e he
    exact if_pos (by simpa using he)
  · intro o e he
    refine (if_neg (by simpa using he)).trans ?_
    cases o with
    | none => rfl
    | some best =>
      simp only [List.argAux, Option.map_some]
      split <;> rfl
  · rw [Option.map_map]
    rfl

/-- The victim is another entry that was not used for longest. -/
theorem lruExcept_spec {victim : InstanceID} (hvictim : h.lruExcept keep = some victim) :
    ∃ e, (victim, e) ∈ h.entries ∧ victim ≠ keep ∧
      ∀ x ∈ h.entries, x.1 ≠ keep → e.lastAccess ≤ x.2.lastAccess := by
  rw [lruExcept_eq] at hvictim
  obtain ⟨x, hx, rfl⟩ := Option.map_eq_some_iff.mp hvictim
  obtain ⟨hmem, hne⟩ := List.mem_filter.mp (List.argmin_mem hx)
  refine ⟨x.2, hmem, of_decide_eq_true hne, fun y hy hne => ?_⟩
  have hy : y ∈ h.entries.filter fun e => e.1 ≠ keep := List.mem_filter.mpr ⟨hy, decide_eq_true hne⟩
  exact List.le_of_mem_argmin (f := fun e => e.2.lastAccess) hy hx

theorem lruExcept_eq_none (hnone : h.lruExcept keep = none) : ∀ x ∈ h.entries, x.1 = keep := by
  rw [lruExcept_eq, Option.map_eq_none_iff, List.argmin_eq_none, List.filter_eq_nil_iff] at hnone
  intro x hx
  simpa using hnone x hx

/-! ### The accounts -/

/-- The bytes of the entries. -/
def bytes (entries : List (InstanceID × CachedWorkflowHistory)) : Int :=
  (entries.map fun e => e.2.bytes).sum

theorem bytes_perm {l l' : List (InstanceID × CachedWorkflowHistory)} (h : l.Perm l') : bytes l = bytes l' :=
  (h.map _).sum_eq

/-- A cache made for a configuration, with its counter right. -/
structure Accounted (cfg : WorkflowHistoryCacheConfig) (h : WorkflowHistoryCache) : Prop where
  nodup : (h.entries.map Prod.fst).Nodup
  totalBytes : h.totalBytes = bytes h.entries
  maxInstances : h.maxInstances = (newWorkflowHistoryCache cfg).maxInstances
  maxBytes : h.maxBytes = (newWorkflowHistoryCache cfg).maxBytes

namespace Accounted

variable {cfg : WorkflowHistoryCacheConfig}

theorem reordered (ha : h.Accounted cfg) (horder : h.Reordered h') : h'.Accounted cfg := by
  obtain ⟨entries, hperm, rfl⟩ := horder
  exact ⟨(hperm.map Prod.fst).nodup_iff.mpr ha.nodup, ha.totalBytes.trans (bytes_perm hperm).symm,
    ha.maxInstances, ha.maxBytes⟩

theorem removeEntry (ha : h.Accounted cfg) (iid : InstanceID) : (h.removeEntry iid).Accounted cfg := by
  unfold WorkflowHistoryCache.removeEntry
  split
  · next e he =>
    refine ⟨Assoc.erase_nodup ha.nodup, ?_, ha.maxInstances, ha.maxBytes⟩
    have hsum : bytes h.entries = e.bytes + bytes (Assoc.erase h.entries iid) :=
      bytes_perm (Assoc.perm_cons_erase ha.nodup he)
    show h.totalBytes - e.bytes = bytes (Assoc.erase h.entries iid)
    rw [ha.totalBytes, hsum]
    omega
  · exact ha

theorem inserted (ha : h.Accounted cfg) (size : HistoryEvent → Int) (now : Time) (iid : InstanceID)
    (executionID : String) (events : List HistoryEvent) :
    (h.inserted size now iid executionID events).Accounted cfg := by
  refine ⟨Assoc.insert_nodup ha.nodup .., ?_, ha.maxInstances, ha.maxBytes⟩
  have hnew (e : CachedWorkflowHistory) :
      bytes (Assoc.insert h.entries iid e) = bytes (Assoc.erase h.entries iid) + e.bytes := by
    unfold bytes Assoc.insert
    rw [List.map_append, List.sum_append]
    simp
  unfold WorkflowHistoryCache.inserted
  dsimp only
  rw [hnew, ha.totalBytes]
  cases he : Assoc.get? h.entries iid with
  | none => rw [Assoc.erase_of_notMem (Assoc.get?_eq_none_iff.mp he), Int.sub_zero]
  | some old =>
    have hsum : bytes h.entries = old.bytes + bytes (Assoc.erase h.entries iid) :=
      bytes_perm (Assoc.perm_cons_erase ha.nodup he)
    rw [hsum]
    dsimp only
    omega

theorem get (ha : h.Accounted cfg) (now : Time) (iid : InstanceID) (executionID : Option String) :
    (h.get now iid executionID).1.Accounted cfg := by
  unfold WorkflowHistoryCache.get
  split
  · split
    · exact ha
    · refine ⟨?_, ha.totalBytes.trans (congrArg List.sum (Eq.symm ?_)), ha.maxInstances, ha.maxBytes⟩
      · dsimp only
        rw [Assoc.keys_modify]
        exact ha.nodup
      · exact Assoc.map_modify (g := fun e : InstanceID × CachedWorkflowHistory => e.2.bytes)
          (f := fun e : CachedWorkflowHistory => { e with lastAccess := now }) fun _ _ _ => rfl
  · exact ha

theorem sweepExpired (ha : h.Accounted cfg) (now : Time) : (h.sweepExpired now).Accounted cfg := by
  unfold WorkflowHistoryCache.sweepExpired
  refine List.foldlRecOn (motive := fun h' : WorkflowHistoryCache => h'.Accounted cfg) _ _ ha ?_
  rintro h' ha' ⟨iid, e⟩ -
  dsimp only
  split
  · exact ha'.removeEntry iid
  · exact ha'

end Accounted

theorem mem_removeEntry {victim : InstanceID} {x : InstanceID × CachedWorkflowHistory} :
    x ∈ (h.removeEntry victim).entries ↔ x ∈ h.entries ∧ x.1 ≠ victim := by
  unfold removeEntry
  split
  · exact Assoc.mem_erase
  · next hnone =>
    refine ⟨fun hx => ⟨hx, fun heq => ?_⟩, fun hx => hx.1⟩
    exact Assoc.get?_eq_none_iff.mp hnone (List.mem_map.mpr ⟨x, hx, heq⟩)

/-! ### Evictions -/

/-- What evictions leave, for any victims the loop may choose. -/
structure Evicted (cfg : WorkflowHistoryCacheConfig) (keep : InstanceID) (h : WorkflowHistoryCache)
    (evicted : List InstanceID) (h' : WorkflowHistoryCache) : Prop where
  accounted : h'.Accounted cfg
  subset : h'.entries ⊆ h.entries
  kept : ∀ x ∈ h.entries, x.1 = keep → x ∈ h'.entries
  fits : (∀ x ∈ h'.entries, x.1 = keep) ∨ ¬h'.Over
  oldest : ∀ x ∈ h.entries, x ∉ h'.entries → ∀ y ∈ h'.entries, y.1 ≠ keep →
    x.2.lastAccess ≤ y.2.lastAccess
  needed : ∀ before victim after, evicted = before ++ victim :: after →
    (before.foldl removeEntry h).Over

theorem EvictsToFit.evicted {cfg : WorkflowHistoryCacheConfig} {evicted : List InstanceID}
    (hevicts : EvictsToFit keep h evicted h') (ha : h.Accounted cfg) (hkeep : ∃ x ∈ h.entries, x.1 = keep) :
    Evicted cfg keep h evicted h' := by
  induction hevicts with
  | @fits h hfits =>
    refine ⟨ha, List.Subset.refl _, fun _ hx _ => hx, ?_, fun x hx hnot => absurd hx hnot,
      fun before victim after heq => absurd heq (by simp)⟩
    by_cases hlen : h.entries.length > 1
    · exact .inr fun hover => hfits ⟨hlen, hover⟩
    · obtain ⟨x, hx, rfl⟩ := hkeep
      obtain ⟨y, hy⟩ := List.length_eq_one_iff.mp
        (Nat.le_antisymm (Nat.not_lt.mp hlen) (List.length_pos_of_mem hx))
      rw [hy] at hx ⊢
      rw [List.mem_singleton.mp hx]
      exact .inl fun z hz => congrArg Prod.fst (List.mem_singleton.mp hz)
  | @none h h₁ _ horder hvictim =>
    obtain ⟨entries, hperm, rfl⟩ := horder
    exact ⟨ha, List.Subset.refl _, fun _ hx _ => hx,
      .inl fun x hx => lruExcept_eq_none hvictim x (hperm.symm.subset hx), fun x hx hnot => absurd hx hnot,
      fun before victim after heq => absurd heq (by simp)⟩
  | @evict h h₁ h' victim evicted hover horder hvictim _ ih =>
    obtain ⟨entries, hperm, rfl⟩ := horder
    obtain ⟨e, hmem, hne, holdest⟩ := lruExcept_spec hvictim
    have hmem : (victim, e) ∈ h.entries := hperm.subset hmem
    have hremove (x : InstanceID × CachedWorkflowHistory) :
        x ∈ (h.removeEntry victim).entries ↔ x ∈ h.entries ∧ x.1 ≠ victim := mem_removeEntry
    obtain ⟨k, hk, hkid⟩ := hkeep
    have ih := ih (ha.removeEntry victim) ⟨k, (hremove _).mpr ⟨hk, fun hkv => hne (hkv.symm.trans hkid)⟩, hkid⟩
    refine ⟨ih.accounted, fun x hx => ((hremove _).mp (ih.subset hx)).1,
      fun x hx hxk => ih.kept x ((hremove _).mpr ⟨hx, fun hxv => hne (hxv.symm.trans hxk)⟩) hxk, ih.fits,
      fun x hx hnot y hy hyk => ?_, fun before v after heq => ?_⟩
    · by_cases hxv : x.1 = victim
      · have hxe : x = (victim, e) := by
          exact List.inj_on_of_nodup_map ha.nodup hx hmem hxv
        rw [hxe]
        exact holdest y (hperm.symm.subset ((hremove _).mp (ih.subset hy)).1) hyk
      · exact ih.oldest x ((hremove _).mpr ⟨hx, hxv⟩) hnot y hy hyk
    · cases before with
      | nil => exact hover.2
      | cons b before =>
        obtain ⟨rfl, hrest⟩ := List.cons.inj heq
        exact ih.needed before v after hrest

/-- The loop with the fuel of `evictToFit` ends by its own conditions. -/
theorem evictsToFit_evictLoop (keep : InstanceID) {n : Nat} (hn : h.entries.length ≤ n) :
    ∃ evicted, EvictsToFit keep h evicted (evictLoop keep n h) := by
  induction n generalizing h with
  | zero => exact ⟨[], .fits fun hover => by omega⟩
  | succ n ih =>
    unfold evictLoop
    split
    · next hover =>
      have hsame : h.Reordered h := ⟨h.entries, .refl _, rfl⟩
      split
      · next victim hvictim =>
        obtain ⟨e, hmem, -, -⟩ := lruExcept_spec hvictim
        have hlt : (h.removeEntry victim).entries.length < h.entries.length := by
          have hsome : (Assoc.get? h.entries victim).isSome = true := by
            refine Option.isSome_iff_ne_none.mpr fun hnone => ?_
            exact Assoc.get?_eq_none_iff.mp hnone (List.mem_map.mpr ⟨_, hmem, rfl⟩)
          unfold removeEntry
          obtain ⟨e', he'⟩ := Option.isSome_iff_exists.mp hsome
          rw [he']
          exact List.length_filter_lt_length_iff_exists.mpr ⟨_, hmem, by simp⟩
        obtain ⟨evicted, hrest⟩ := ih (Nat.le_of_lt_succ (Nat.lt_of_lt_of_le hlt hn))
        exact ⟨victim :: evicted, .evict hover hsame hvictim hrest⟩
      · next hvictim => exact ⟨[], .none hover hsame hvictim⟩
    · next hfits => exact ⟨[], .fits hfits⟩

theorem evictsToFit_putForExecution (size : HistoryEvent → Int) (h : WorkflowHistoryCache) (now : Time)
    (iid : InstanceID) (executionID : String) (events : List HistoryEvent) :
    ∃ evicted, EvictsToFit iid (h.inserted size now iid executionID events) evicted
      (h.putForExecution size now iid executionID events) :=
  evictsToFit_evictLoop iid (Nat.le_refl _)

/-- The entry that was put is there. -/
theorem get?_inserted (size : HistoryEvent → Int) (h : WorkflowHistoryCache) (now : Time) (iid : InstanceID)
    (executionID : String) (events : List HistoryEvent) :
    ∃ e, (iid, e) ∈ (h.inserted size now iid executionID events).entries ∧
      e.executionID = executionID ∧ e.events = events ∧ e.lastAccess = now :=
  ⟨_, Assoc.mem_insert.mpr (.inr rfl), rfl, rfl, rfl⟩

variable {size : HistoryEvent → Int} {cfg : WorkflowHistoryCacheConfig}

theorem Accounted.call (ha : h.Accounted cfg) (hcall : Calls size h h') : h'.Accounted cfg := by
  cases hcall with
  | putForExecution now iid executionID events hevicts =>
    obtain ⟨e, he, -⟩ := h.get?_inserted size now iid executionID events
    exact (hevicts.evicted (ha.inserted size now iid executionID events) ⟨_, he, rfl⟩).accounted
  | get now iid executionID => exact ha.get now iid executionID
  | delete iid => exact ha.removeEntry iid
  | reset => exact ⟨List.nodup_nil, rfl, ha.maxInstances, ha.maxBytes⟩
  | sweepExpired horder now => exact (ha.reordered horder).sweepExpired now

theorem accounted_new (cfg : WorkflowHistoryCacheConfig) : (newWorkflowHistoryCache cfg).Accounted cfg :=
  ⟨List.nodup_nil, rfl, rfl, rfl⟩

theorem accounted_of_calls
    (hcalls : Relation.ReflTransGen (Calls size) (newWorkflowHistoryCache cfg) h) : h.Accounted cfg := by
  induction hcalls with
  | refl => exact accounted_new cfg
  | tail _ hcall ih => exact ih.call hcall

end DurableTask.WorkflowHistoryCache

namespace DurableTask

open WorkflowHistoryCache

/-- After any calls on a new cache `totalBytes` is the sum of the sizes of its entries. Whatever victims a
following `putForExecution` chooses, the instance is there afterwards; it is alone or both caps hold; what
was evicted was not used after any other entry that was kept; and every eviction was needed. -/
theorem history_cache_budget (size : HistoryEvent → Int) (cfg : WorkflowHistoryCacheConfig)
    {h : WorkflowHistoryCache}
    (hcalls : Relation.ReflTransGen (Calls size) (newWorkflowHistoryCache cfg) h) :
    h.totalBytes = (h.entries.map fun e => e.2.bytes).sum ∧
    ∀ (now : Time) (iid : InstanceID) (executionID : String) (events : List HistoryEvent),
      (∃ evicted, EvictsToFit iid (h.inserted size now iid executionID events) evicted
        (h.putForExecution size now iid executionID events)) ∧
      ∀ evicted h', EvictsToFit iid (h.inserted size now iid executionID events) evicted h' →
        (∃ e, Assoc.get? h'.entries iid = some e ∧ e.executionID = executionID ∧ e.events = events) ∧
        ((∀ e ∈ h'.entries, e.1 = iid) ∨
          h'.entries.length ≤ (newWorkflowHistoryCache cfg).maxInstances ∧
          ((newWorkflowHistoryCache cfg).maxBytes > 0 →
            h'.totalBytes ≤ (newWorkflowHistoryCache cfg).maxBytes)) ∧
        (∀ e ∈ h.entries, e.1 ≠ iid → e ∉ h'.entries → ∀ kept ∈ h'.entries, kept.1 ≠ iid →
          e.2.lastAccess ≤ kept.2.lastAccess) ∧
        ∀ before victim after, evicted = before ++ victim :: after →
          (before.foldl removeEntry (h.inserted size now iid executionID events)).Over := by
  have ha := accounted_of_calls hcalls
  refine ⟨ha.totalBytes, fun now iid executionID events =>
    ⟨evictsToFit_putForExecution size h now iid executionID events, fun evicted h' hevicts => ?_⟩⟩
  obtain ⟨e, he, hexecution, hevents, -⟩ := h.get?_inserted size now iid executionID events
  have hev := hevicts.evicted (ha.inserted size now iid executionID events) ⟨_, he, rfl⟩
  refine ⟨⟨e, ?_, hexecution, hevents⟩, ?_, fun x hx hne hnot => ?_, hev.needed⟩
  · exact Assoc.get?_of_mem hev.accounted.nodup (hev.kept _ he rfl)
  · rcases hev.fits with honly | hfits
    · exact .inl honly
    · refine .inr ?_
      rw [← hev.accounted.maxInstances, ← hev.accounted.maxBytes]
      obtain ⟨hcount, hbytes⟩ := not_or.mp hfits
      exact ⟨Int.not_lt.mp hcount, fun hpos => Int.not_lt.mp fun hover => hbytes ⟨hpos, hover⟩⟩
  · exact hev.oldest x (Assoc.mem_insert.mpr (.inl ⟨hx, hne⟩)) hnot

namespace BudgetExample

def cfg : WorkflowHistoryCacheConfig := { maxInstances := some 1 }

/-- The history of `i` is cached at time 1. -/
def one : WorkflowHistoryCache := (newWorkflowHistoryCache cfg).putForExecution (fun _ => 1) 1 "i" "e1" []

/-- A cache for one instance has no room for a second. -/
theorem second_instance_evicts_first :
    (one.putForExecution (fun _ => 1) 2 "j" "e1" []).entries =
        [("j", { executionID := "e1", events := [], lastAccess := 2, bytes := 0 })] ∧
      ∃ evicted, EvictsToFit "j" (one.inserted (fun _ => 1) 2 "j" "e1" []) evicted
        (one.putForExecution (fun _ => 1) 2 "j" "e1" []) := by
  obtain ⟨evicted, hput⟩ := evictsToFit_putForExecution (fun _ => 1) (newWorkflowHistoryCache cfg) 1 "i" "e1" []
  have hcalls : Relation.ReflTransGen (Calls fun _ => 1) (newWorkflowHistoryCache cfg) one :=
    .single (.putForExecution _ 1 "i" "e1" [] hput)
  exact ⟨by decide +kernel, ((history_cache_budget (fun _ => 1) cfg hcalls).2 2 "j" "e1" []).1⟩

end BudgetExample

end DurableTask
