import Mathlib

/-!
# Association lists as finite maps

A finite map as the list of its entries, at most one for each key. `insert` puts the entry at the
end, so entries stay in the order their keys were last assigned.
-/

namespace Assoc

variable {κ α β : Type} [DecidableEq κ]

def get? : List (κ × α) → κ → Option α
  | [], _ => none
  | (k, v) :: m, k' => if k = k' then some v else get? m k'

def erase (m : List (κ × α)) (k : κ) : List (κ × α) := m.filter fun e => e.1 ≠ k

def insert (m : List (κ × α)) (k : κ) (v : α) : List (κ × α) := erase m k ++ [(k, v)]

/-- Apply a function to the value at a key, if it has one. -/
def modify (m : List (κ × α)) (k : κ) (f : α → α) : List (κ × α) :=
  m.map fun e => if e.1 = k then (e.1, f e.2) else e

section Lemmas

variable {m : List (κ × α)} {k k' : κ} {v : α}

theorem get?_of_mem (hnodup : (m.map Prod.fst).Nodup) (h : (k, v) ∈ m) : get? m k = some v := by
  induction m with
  | nil => cases h
  | cons e m ih =>
    obtain ⟨he, hm⟩ := List.nodup_cons.mp hnodup
    rcases List.mem_cons.mp h with rfl | h
    · simp [get?]
    · have hne : e.1 ≠ k := by
        rintro rfl
        exact he (List.mem_map.mpr ⟨_, h, rfl⟩)
      simp only [get?, hne, if_false]
      exact ih hm h

theorem mem_of_get? (h : get? m k = some v) : (k, v) ∈ m := by
  induction m with
  | nil => cases h
  | cons e m ih =>
    unfold get? at h
    split at h
    · next hk =>
      cases h
      rw [← hk]
      exact List.mem_cons_self
    · exact List.mem_cons_of_mem _ (ih h)

theorem get?_of_notMem (h : k ∉ m.map Prod.fst) : get? m k = none := by
  cases hg : get? m k with
  | none => rfl
  | some v => exact absurd (List.mem_map.mpr ⟨_, mem_of_get? hg, rfl⟩) h

theorem erase_of_notMem (h : k ∉ m.map Prod.fst) : erase m k = m := by
  refine List.filter_eq_self.mpr fun e he => ?_
  have hne : e.1 ≠ k := by
    rintro rfl
    exact h (List.mem_map_of_mem he)
  simpa using hne

theorem insert_of_notMem (h : k ∉ m.map Prod.fst) : insert m k v = m ++ [(k, v)] := by
  rw [insert, erase_of_notMem h]

theorem erase_append (m m' : List (κ × α)) (k : κ) : erase (m ++ m') k = erase m k ++ erase m' k :=
  List.filter_append ..

theorem mem_erase {e : κ × α} : e ∈ erase m k ↔ e ∈ m ∧ e.1 ≠ k := by simp [erase]

theorem erase_nodup (h : (m.map Prod.fst).Nodup) : ((erase m k).map Prod.fst).Nodup :=
  List.Nodup.sublist (List.filter_sublist.map _) h

theorem get?_insert_self (m : List (κ × α)) (k : κ) (v : α) : get? (insert m k v) k = some v := by
  have h : ∀ m : List (κ × α), k ∉ m.map Prod.fst → get? (m ++ [(k, v)]) k = some v := by
    intro m hm
    induction m with
    | nil => simp [get?]
    | cons e m ih =>
      simp only [List.map_cons, List.mem_cons, not_or] at hm
      simp only [List.cons_append, get?, Ne.symm hm.1, if_false]
      exact ih hm.2
  refine h _ ?_
  intro hmem
  obtain ⟨e, he, rfl⟩ := List.mem_map.mp hmem
  exact (mem_erase.mp he).2 rfl

theorem get?_insert_of_ne (h : k ≠ k') : get? (insert m k v) k' = get? m k' := by
  induction m with
  | nil => simp [insert, erase, get?, h]
  | cons e m ih =>
    by_cases he : e.1 = k
    · have hne : e.1 ≠ k' := fun h' => h (he ▸ h')
      simp only [get?, hne, if_false]
      rw [← ih]
      simp [insert, erase, he]
    · simp only [insert, erase, ne_eq, he, not_false_eq_true, decide_true, List.filter_cons_of_pos,
        List.cons_append, get?]
      split
      · rfl
      · exact ih

theorem get?_erase_self (m : List (κ × α)) (k : κ) : get? (erase m k) k = none := by
  refine get?_of_notMem fun hmem => ?_
  obtain ⟨e, he, rfl⟩ := List.mem_map.mp hmem
  exact (mem_erase.mp he).2 rfl

theorem get?_erase_of_ne (h : k ≠ k') : get? (erase m k) k' = get? m k' := by
  induction m with
  | nil => rfl
  | cons e m ih =>
    by_cases he : e.1 = k
    · have hne : e.1 ≠ k' := fun h' => h (he ▸ h')
      simp only [get?, hne, if_false]
      rw [← ih]
      simp [erase, he]
    · simp only [erase, ne_eq, he, not_false_eq_true, decide_true, List.filter_cons_of_pos, get?]
      split
      · rfl
      · exact ih

theorem get?_eq_none_iff : get? m k = none ↔ k ∉ m.map Prod.fst := by
  refine ⟨fun h hmem => ?_, get?_of_notMem⟩
  induction m with
  | nil => cases hmem
  | cons e m ih =>
    unfold get? at h
    split at h
    · cases h
    · next hne =>
      rcases List.mem_cons.mp hmem with hk | hmem
      · exact hne hk.symm
      · exact ih h hmem

theorem mem_insert {e : κ × α} : e ∈ insert m k v ↔ e ∈ m ∧ e.1 ≠ k ∨ e = (k, v) := by
  rw [insert, List.mem_append, mem_erase, List.mem_singleton]

/-- A map is the entry of a key and the rest. -/
theorem perm_cons_erase (hnodup : (m.map Prod.fst).Nodup) (h : get? m k = some v) :
    m.Perm ((k, v) :: erase m k) := by
  induction m with
  | nil => cases h
  | cons e m ih =>
    obtain ⟨hnot, hrest⟩ := List.nodup_cons.mp hnodup
    unfold get? at h
    by_cases he : e.1 = k
    · rw [if_pos he] at h
      cases h
      subst he
      have herase : erase (e :: m) e.1 = m :=
        (List.filter_cons_of_neg (by simp)).trans (erase_of_notMem hnot)
      rw [herase]
    · rw [if_neg he] at h
      have herase : erase (e :: m) k = e :: erase m k := List.filter_cons_of_pos (by simpa using he)
      rw [herase]
      exact ((ih hrest h).cons e).trans (.swap ..)

theorem get?_of_get?_erase (h : get? (erase m k) k' = some v) : get? m k' = some v := by
  by_cases hk : k = k'
  · rw [hk, get?_erase_self] at h
    cases h
  · rwa [get?_erase_of_ne hk] at h

theorem insert_nodup (h : (m.map Prod.fst).Nodup) (k : κ) (v : α) :
    ((insert m k v).map Prod.fst).Nodup := by
  unfold insert
  rw [List.map_append]
  refine List.nodup_append.mpr ⟨erase_nodup h, List.nodup_singleton _, fun x hx y hy hxy => ?_⟩
  obtain ⟨e, he, rfl⟩ := List.mem_map.mp hx
  exact (mem_erase.mp he).2 (hxy.trans (List.mem_singleton.mp hy))

theorem erase_insert (h : k ∉ m.map Prod.fst) : erase (insert m k v) k = m := by
  rw [insert_of_notMem h, erase_append, erase_of_notMem h]
  simp [erase]

theorem mem_modify {f : α → α} {e : κ × α} (h : e ∈ modify m k f) :
    ∃ x ∈ m, x.1 = e.1 ∧ (e.2 = x.2 ∨ e.2 = f x.2) := by
  obtain ⟨x, hx, rfl⟩ := List.mem_map.mp h
  refine ⟨x, hx, ?_⟩
  split
  · exact ⟨rfl, .inr rfl⟩
  · exact ⟨rfl, .inl rfl⟩

theorem get?_modify (m : List (κ × α)) (k : κ) (f : α → α) (k' : κ) :
    get? (modify m k f) k' = if k = k' then (get? m k').map f else get? m k' := by
  induction m with
  | nil => simp [modify, get?]
  | cons e m ih =>
    have hkey : (if e.1 = k then (e.1, f e.2) else e).1 = e.1 := by split <;> rfl
    show get? ((if e.1 = k then (e.1, f e.2) else e) :: modify m k f) k' = _
    unfold get?
    rw [hkey, ih]
    by_cases hk' : e.1 = k'
    · subst hk'
      by_cases hk : e.1 = k
      · simp [hk]
      · simp [hk, Ne.symm hk]
    · simp [hk']

theorem erase_comm (m : List (κ × α)) (k k' : κ) : erase (erase m k) k' = erase (erase m k') k := by
  unfold erase
  rw [List.filter_filter, List.filter_filter]
  exact List.filter_congr fun e _ => Bool.and_comm ..

theorem modify_comm (m : List (κ × α)) (h : k ≠ k') (f g : α → α) :
    modify (modify m k f) k' g = modify (modify m k' g) k f := by
  unfold modify
  rw [List.map_map, List.map_map]
  refine List.map_congr_left fun e _ => ?_
  dsimp only [Function.comp]
  by_cases hk : e.1 = k
  · simp [hk, h]
  · by_cases hk' : e.1 = k'
    · simp [hk', Ne.symm h]
    · simp [hk, hk']

theorem keys_modify (m : List (κ × α)) (k : κ) (f : α → α) :
    (modify m k f).map Prod.fst = m.map Prod.fst := by
  unfold modify
  rw [List.map_map]
  refine List.map_congr_left fun e _ => ?_
  dsimp only [Function.comp]
  split <;> rfl

theorem insert_modify (m : List (κ × α)) (h : k ≠ k') (f : α → α) (v : α) :
    insert (modify m k f) k' v = modify (insert m k' v) k f := by
  unfold insert modify erase
  rw [List.map_append, List.filter_map]
  have hkeep : ((fun e : κ × α => decide (e.1 ≠ k')) ∘ fun e : κ × α => if e.1 = k then (e.1, f e.2) else e) =
      fun e => decide (e.1 ≠ k') := by
    funext e
    dsimp only [Function.comp]
    split <;> rfl
  rw [hkeep]
  simp [Ne.symm h]

theorem erase_insert_of_ne (m : List (κ × α)) (h : k ≠ k') (v : α) :
    erase (insert m k v) k' = insert (erase m k') k v := by
  unfold insert
  rw [erase_append, erase_comm]
  simp [erase, h]

theorem map_modify {g : κ × α → β} {f : α → α} (hg : ∀ e ∈ m, e.1 = k → g (e.1, f e.2) = g e) :
    (modify m k f).map g = m.map g := by
  unfold modify
  rw [List.map_map]
  refine List.map_congr_left fun e he => ?_
  simp only [Function.comp]
  split
  · next hk => exact hg e he hk
  · rfl

end Lemmas

end Assoc
