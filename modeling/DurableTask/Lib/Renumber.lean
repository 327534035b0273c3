import DurableTask.Lib.Assoc

/-!
# Renumbering in place

The entries of a map above a number move down by one: all at once, or one after another in ascending
order, in place. Both give the same map, since an entry's new place is free when its turn comes.
-/

namespace Renumber

open Assoc

variable {α : Type} {m : List (Int × α)} {a : Int}

/-- An entry after the move; its value may depend on its new number. -/
def shift (g : Int → α → α) (a : Int) (e : Int × α) : Int × α :=
  if a < e.1 then (e.1 - 1, g (e.1 - 1) e.2) else e

/-- What the renumbered map has at `k`. -/
def shifted (g : Int → α → α) (m : List (Int × α)) (a k : Int) : Option α :=
  if k < a then get? m k else (get? m (k + 1)).map (g k)

theorem get?_map_shift (g : Int → α → α) (h : get? m a = none) (k : Int) :
    get? (m.map (shift g a)) k = shifted g m a k := by
  unfold shifted
  induction m with
  | nil => simp [get?]
  | cons e m ih =>
    unfold get? at h
    split at h
    · cases h
    · next hne =>
      have ih := ih h
      rw [List.map_cons]
      unfold get? shift
      by_cases hlt : a < e.1
      · rw [if_pos hlt]
        by_cases hk : e.1 = k + 1
        · have hka : ¬k < a := by omega
          rw [if_pos (show e.1 - 1 = k by omega), if_neg hka, if_pos hk, hk, Int.add_sub_cancel]
          rfl
        · rw [if_neg (show ¬e.1 - 1 = k by omega), if_neg hk]
          refine ih.trans ?_
          by_cases hka : k < a
          · rw [if_pos hka, if_pos hka, if_neg (show ¬e.1 = k by omega)]
          · rw [if_neg hka, if_neg hka]
      · rw [if_neg hlt]
        by_cases hk : e.1 = k
        · rw [if_pos hk, if_pos (show k < a by omega), if_pos hk]
        · rw [if_neg hk, if_neg hk]
          refine ih.trans ?_
          by_cases hka : k < a
          · rw [if_pos hka, if_pos hka]
          · rw [if_neg hka, if_neg hka, if_neg (show ¬e.1 = k + 1 by omega)]

theorem nodup_map_shift (g : Int → α → α) (h : (m.map Prod.fst).Nodup) (ha : get? m a = none) :
    ((m.map (shift g a)).map Prod.fst).Nodup := by
  have hkeys : (m.map (shift g a)).map Prod.fst = (m.map Prod.fst).map fun k => if a < k then k - 1 else k := by
    rw [List.map_map, List.map_map]
    refine List.map_congr_left fun e _ => ?_
    unfold shift
    dsimp only [Function.comp_apply]
    split <;> rfl
  have hne : ∀ k ∈ m.map Prod.fst, k ≠ a := fun k hk heq => get?_eq_none_iff.mp ha (heq ▸ hk)
  rw [hkeys]
  refine List.Nodup.map_on (fun k hk k' hk' heq => ?_) h
  have := hne k hk
  have := hne k' hk'
  split at heq <;> split at heq <;> omega

/-- One entry moves down. -/
def moveDown (g : Int → α → α) (m : List (Int × α)) (id : Int) : List (Int × α) :=
  match get? m id with
  | some v => insert (erase m id) (id - 1) (g (id - 1) v)
  | none => m

theorem get?_moveDown (g : Int → α → α) {id : Int} (hid : get? m id ≠ none) (k : Int) :
    get? (moveDown g m id) k =
      if k = id - 1 then (get? m id).map (g k) else if k = id then none else get? m k := by
  unfold moveDown
  rcases hv : get? m id with _ | v
  · exact absurd hv hid
  · by_cases hk : k = id - 1
    · rw [if_pos hk, hk]
      exact get?_insert_self ..
    · rw [if_neg hk]
      dsimp only
      rw [get?_insert_of_ne (Ne.symm hk)]
      by_cases hki : k = id
      · rw [if_pos hki, hki]
        exact get?_erase_self ..
      · rw [if_neg hki]
        exact get?_erase_of_ne (Ne.symm hki)

theorem nodup_foldl_moveDown (g : Int → α → α) (h : (m.map Prod.fst).Nodup) (ids : List Int) :
    ((ids.foldl (moveDown g) m).map Prod.fst).Nodup := by
  induction ids generalizing m with
  | nil => exact h
  | cons id ids ih =>
    refine ih ?_
    unfold moveDown
    split
    · exact insert_nodup (erase_nodup h) ..
    · exact h

/-- Entries that move in ascending order, each to a place that is free or has moved before. -/
theorem get?_foldl_moveDown (g : Int → α → α) {ids : List Int} (hsorted : ids.Pairwise (· < ·))
    (hids : ∀ id ∈ ids, get? m id ≠ none) (hfree : ∀ id ∈ ids, get? m (id - 1) = none ∨ id - 1 ∈ ids)
    (k : Int) : get? (ids.foldl (moveDown g) m) k =
      if k + 1 ∈ ids then (get? m (k + 1)).map (g k) else if k ∈ ids then none else get? m k := by
  induction ids generalizing m with
  | nil => simp
  | cons id ids ih =>
    obtain ⟨hlt, hsorted⟩ := List.pairwise_cons.mp hsorted
    have hmove := get?_moveDown g (hids id List.mem_cons_self)
    have hlater (id' : Int) (h : id' ∈ ids) : get? (moveDown g m id) id' = get? m id' := by
      have := hlt id' h
      rw [hmove, if_neg (by omega), if_neg (by omega)]
    rw [List.foldl_cons, ih hsorted (fun id' h => hlater id' h ▸ hids id' (List.mem_cons_of_mem _ h))]
    · by_cases hk : k + 1 = id
      · have hnot : k + 1 ∉ ids := fun h => absurd (hlt _ h) (by omega)
        have hnot' : k ∉ ids := fun h => absurd (hlt _ h) (by omega)
        rw [if_neg hnot, if_neg hnot', hmove, if_pos (by omega), if_pos (hk ▸ List.mem_cons_self), hk]
      · by_cases hmem : k + 1 ∈ ids
        · rw [if_pos hmem, if_pos (List.mem_cons_of_mem _ hmem), hlater _ hmem]
        · have hnot : k + 1 ∉ id :: ids := fun h => (List.mem_cons.mp h).elim hk hmem
          rw [if_neg hmem, if_neg hnot, hmove, if_neg (show ¬k = id - 1 by omega)]
          by_cases hkid : k = id
          · rw [if_pos hkid, ite_self, if_pos (hkid ▸ List.mem_cons_self)]
          · rw [if_neg hkid]
            by_cases hkm : k ∈ ids
            · rw [if_pos hkm, if_pos (List.mem_cons_of_mem _ hkm)]
            · rw [if_neg hkm, if_neg fun h => (List.mem_cons.mp h).elim hkid hkm]
    · intro id' h
      have hlt' := hlt id' h
      rcases hfree id' (List.mem_cons_of_mem _ h) with hnone | hmem
      · left
        rw [hmove, if_neg (by omega), hnone, ite_self]
      · rcases List.mem_cons.mp hmem with heq | hmem
        · left
          rw [hmove, if_neg (by omega), if_pos heq]
        · exact .inr hmem

/-- The entries above a free number move down. -/
theorem get?_moveAllDown (g : Int → α → α) {ids : List Int} (hsorted : ids.Pairwise (· < ·))
    (hids : ∀ id, id ∈ ids ↔ a < id ∧ get? m id ≠ none) (h : get? m a = none) (k : Int) :
    get? (ids.foldl (moveDown g) m) k = shifted g m a k := by
  have hfree (id : Int) (hid : id ∈ ids) : get? m (id - 1) = none ∨ id - 1 ∈ ids := by
    have hlt := ((hids id).mp hid).1
    by_cases hnone : get? m (id - 1) = none
    · exact .inl hnone
    · refine .inr ((hids _).mpr ⟨?_, hnone⟩)
      have hne : id - 1 ≠ a := fun heq => hnone (heq ▸ h)
      omega
  rw [get?_foldl_moveDown g hsorted (fun id hid => ((hids id).mp hid).2) hfree]
  unfold shifted
  by_cases hk : k < a
  · rw [if_neg (by rw [hids]; omega), if_neg (by rw [hids]; omega), if_pos hk]
  · rw [if_neg hk]
    by_cases hmem : k + 1 ∈ ids
    · rw [if_pos hmem]
    · have hnone : get? m (k + 1) = none := by
        by_contra hne
        exact hmem ((hids _).mpr ⟨by omega, hne⟩)
      rw [if_neg hmem, hnone]
      by_cases hkm : k ∈ ids
      · rw [if_pos hkm]
        rfl
      · rw [if_neg hkm]
        by_contra hne
        by_cases hka : k = a
        · exact hne (hka ▸ h)
        · exact hkm ((hids k).mpr ⟨by omega, hne⟩)

/-! ### Sets of numbers -/

/-- One number of a set moves down. -/
def moveKeyDown (s : List Int) (id : Int) : List Int :=
  if id ∈ s then (s.filter (· ≠ id)).filter (· ≠ id - 1) ++ [id - 1] else s

theorem mem_moveKeyDown {s : List Int} {id : Int} (hfree : id - 1 ∉ s) (k : Int) :
    k ∈ moveKeyDown s id ↔ if k = id - 1 then id ∈ s else k ≠ id ∧ k ∈ s := by
  unfold moveKeyDown
  by_cases hid : id ∈ s
  · rw [if_pos hid]
    by_cases hk : k = id - 1
    · rw [if_pos hk]
      simp [hk, hid]
    · rw [if_neg hk]
      simp [hk, and_comm]
  · rw [if_neg hid]
    by_cases hk : k = id - 1
    · rw [if_pos hk]
      exact iff_of_false (hk ▸ hfree) hid
    · rw [if_neg hk]
      exact ⟨fun hks => ⟨fun heq => hid (heq ▸ hks), hks⟩, fun h => h.2⟩

theorem mem_foldl_moveKeyDown {s ids : List Int} (hsorted : ids.Pairwise (· < ·))
    (hfree : ∀ id ∈ ids, id - 1 ∉ s ∨ id - 1 ∈ ids) (k : Int) :
    k ∈ ids.foldl moveKeyDown s ↔ if k + 1 ∈ ids then k + 1 ∈ s else k ∉ ids ∧ k ∈ s := by
  induction ids generalizing s with
  | nil => simp
  | cons id ids ih =>
    obtain ⟨hlt, hsorted⟩ := List.pairwise_cons.mp hsorted
    have hhead : id - 1 ∉ s := by
      refine (hfree id List.mem_cons_self).resolve_right fun hmem => ?_
      rcases List.mem_cons.mp hmem with heq | hmem
      · omega
      · exact absurd (hlt _ hmem) (by omega)
    have hmove := mem_moveKeyDown hhead
    have hlater (id' : Int) (h : id' ∈ ids) : id' ∈ moveKeyDown s id ↔ id' ∈ s := by
      have := hlt id' h
      rw [hmove, if_neg (by omega)]
      exact ⟨fun h => h.2, fun h => ⟨by omega, h⟩⟩
    rw [List.foldl_cons, ih hsorted]
    · by_cases hk : k + 1 = id
      · have hnot : k + 1 ∉ ids := fun h => absurd (hlt _ h) (by omega)
        have hnot' : k ∉ ids := fun h => absurd (hlt _ h) (by omega)
        rw [if_neg hnot, if_pos (hk ▸ List.mem_cons_self), hmove, if_pos (by omega), hk]
        exact ⟨fun h => h.2, fun h => ⟨hnot', h⟩⟩
      · by_cases hmem : k + 1 ∈ ids
        · rw [if_pos hmem, if_pos (List.mem_cons_of_mem _ hmem), hlater _ hmem]
        · have hnot : k + 1 ∉ id :: ids := fun h => (List.mem_cons.mp h).elim hk hmem
          rw [if_neg hmem, if_neg hnot, hmove, if_neg (show ¬k = id - 1 by omega), List.mem_cons, not_or]
          tauto
    · intro id' h
      have hlt' := hlt id' h
      rcases hfree id' (List.mem_cons_of_mem _ h) with hnot | hmem
      · left
        rw [hmove, if_neg (by omega)]
        exact fun h => hnot h.2
      · rcases List.mem_cons.mp hmem with heq | hmem
        · left
          rw [hmove, if_neg (by omega)]
          exact fun h => h.1 heq
        · exact .inr hmem

end Renumber
