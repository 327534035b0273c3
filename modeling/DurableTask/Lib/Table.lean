import Mathlib

/-!
# Tables as lists of rows

The statements of SQL on a table kept as the list of its rows in key order.
-/

namespace Table

variable {α : Type} {p q : α → Bool} {f : α → α} {rows : List α} {r : α}

/-- `UPDATE … SET f WHERE p`. -/
def update (p : α → Bool) (f : α → α) (rows : List α) : List α :=
  rows.map fun r => if p r then f r else r

/-- `DELETE … WHERE p`. -/
def delete (p : α → Bool) (rows : List α) : List α := rows.filter fun r => !p r

/-- `UPDATE … SET f WHERE key IN (SELECT key … WHERE p ORDER BY key LIMIT n)`. -/
def updateFirst (p : α → Bool) (f : α → α) : Nat → List α → List α
  | 0, rows => rows
  | _, [] => []
  | n + 1, r :: rows =>
    if p r then f r :: updateFirst p f n rows else r :: updateFirst p f (n + 1) rows

/-! ### Deleting -/

theorem filter_delete (h : ∀ r ∈ rows, q r = true → p r = false) :
    (delete p rows).filter q = rows.filter q := by
  unfold delete
  rw [List.filter_filter]
  refine List.filter_congr fun r hr => ?_
  cases hq : q r with
  | false => rfl
  | true => simp [h r hr hq]

theorem find?_delete (h : ∀ r ∈ rows, q r = true → p r = false) :
    (delete p rows).find? q = rows.find? q := by
  rw [← List.head?_filter, ← List.head?_filter, filter_delete h]

theorem filter_delete_eq_nil (h : ∀ r ∈ rows, q r = true → p r = true) :
    (delete p rows).filter q = [] := by
  refine List.filter_eq_nil_iff.mpr fun r hr hq => ?_
  obtain ⟨hmem, hp⟩ := List.mem_filter.mp hr
  rw [h r hmem hq] at hp
  cases hp

theorem find?_delete_eq_none (h : ∀ r ∈ rows, q r = true → p r = true) :
    (delete p rows).find? q = none := by
  rw [← List.head?_filter, filter_delete_eq_nil h]
  rfl

/-- What a deleted row counts. -/
theorem sum_delete {g : α → Nat} (hr : r ∈ rows) (hp : p r = true) :
    g r + ((delete p rows).map g).sum ≤ (rows.map g).sum := by
  unfold delete
  induction rows with
  | nil => exact absurd hr List.not_mem_nil
  | cons x rows ih =>
    rcases List.mem_cons.mp hr with rfl | hr
    · rw [List.filter_cons_of_neg (by simp [hp]), List.map_cons, List.sum_cons]
      have hsub : (rows.filter fun r => !p r).Sublist rows := List.filter_sublist
      exact Nat.add_le_add_left ((hsub.map g).sum_le_sum fun _ _ => Nat.zero_le _) _
    · have ih := ih hr
      rw [List.filter_cons, List.map_cons, List.sum_cons]
      split
      · rw [List.map_cons, List.sum_cons]
        omega
      · omega

/-! ### Updating -/

theorem find?_update (hf : ∀ r, q (f r) = q r) :
    (update p f rows).find? q = (rows.find? q).map fun r => if p r then f r else r := by
  unfold update
  rw [List.find?_map]
  have hq : (q ∘ fun r => if p r then f r else r) = q := by
    funext r
    dsimp only [Function.comp]
    split
    · exact hf r
    · rfl
  rw [hq]

theorem map_update {β : Type} {g : α → β} (hf : ∀ r, g (f r) = g r) :
    (update p f rows).map g = rows.map g := by
  unfold update
  rw [List.map_map]
  refine List.map_congr_left fun r _ => ?_
  dsimp only [Function.comp]
  split
  · exact hf r
  · rfl

/-- Rows that an update neither touches nor brings in. -/
theorem filter_update (h : ∀ r ∈ rows, p r = true → q r = false ∧ q (f r) = false) :
    (update p f rows).filter q = rows.filter q := by
  unfold update
  induction rows with
  | nil => rfl
  | cons r rows ih =>
    have ih := ih fun x hx => h x (List.mem_cons_of_mem _ hx)
    rw [List.map_cons]
    cases hp : p r with
    | false =>
      rw [if_neg (by exact nofun), List.filter_cons, List.filter_cons, ih]
    | true =>
      obtain ⟨hq, hqf⟩ := h r List.mem_cons_self hp
      rw [if_pos rfl, List.filter_cons_of_neg (by rw [hqf]; exact nofun),
        List.filter_cons_of_neg (by rw [hq]; exact nofun), ih]

theorem filter_updateFirst (h : ∀ r ∈ rows, p r = true → q r = false ∧ q (f r) = false) (n : Nat) :
    (updateFirst p f n rows).filter q = rows.filter q := by
  induction rows generalizing n with
  | nil => cases n <;> rfl
  | cons r rows ih =>
    have ih := ih fun x hx => h x (List.mem_cons_of_mem _ hx)
    cases n with
    | zero => rfl
    | succ n =>
      unfold updateFirst
      split
      · next hp =>
        obtain ⟨hq, hqf⟩ := h r List.mem_cons_self hp
        rw [List.filter_cons_of_neg (by rw [hqf]; exact nofun),
          List.filter_cons_of_neg (by rw [hq]; exact nofun), ih]
      · rw [List.filter_cons, List.filter_cons, ih]

/-- A row among the first that are updated. -/
theorem mem_updateFirst {n : Nat} (h : r ∈ (rows.filter p).take n) :
    f r ∈ updateFirst p f n rows := by
  induction rows generalizing n with
  | nil => simp at h
  | cons x rows ih =>
    cases n with
    | zero => simp at h
    | succ n =>
      unfold updateFirst
      split
      · next hp =>
        rw [List.filter_cons_of_pos hp, List.take_succ_cons] at h
        rcases List.mem_cons.mp h with rfl | h
        · exact List.mem_cons_self
        · exact List.mem_cons_of_mem _ (ih h)
      · next hp =>
        rw [List.filter_cons_of_neg hp] at h
        exact List.mem_cons_of_mem _ (ih h)

/-- A row of the result is an updated one, or one that was left alone: it comes after those that were
updated, if it is one of the rows to update. -/
theorem mem_updateFirst_cases {n : Nat} (h : r ∈ updateFirst p f n rows) :
    (∃ r₀ ∈ (rows.filter p).take n, r = f r₀) ∨
      r ∈ rows ∧ (p r = true → r ∈ (rows.filter p).drop n) := by
  induction rows generalizing n with
  | nil => cases n <;> cases h
  | cons x rows ih =>
    cases n with
    | zero => exact .inr ⟨h, fun hp => List.mem_filter.mpr ⟨h, hp⟩⟩
    | succ n =>
      unfold updateFirst at h
      split at h
      · next hp =>
        rw [List.filter_cons_of_pos hp, List.take_succ_cons, List.drop_succ_cons]
        rcases List.mem_cons.mp h with rfl | h
        · exact .inl ⟨x, List.mem_cons_self, rfl⟩
        · refine (ih h).imp ?_ fun ⟨hr, hdrop⟩ => ⟨List.mem_cons_of_mem _ hr, hdrop⟩
          rintro ⟨r₀, hr₀, rfl⟩
          exact ⟨r₀, List.mem_cons_of_mem _ hr₀, rfl⟩
      · next hp =>
        rw [List.filter_cons_of_neg hp]
        rcases List.mem_cons.mp h with rfl | h
        · exact .inr ⟨List.mem_cons_self, fun hp' => absurd hp' hp⟩
        · exact (ih h).imp_right fun ⟨hr, hdrop⟩ => ⟨List.mem_cons_of_mem _ hr, hdrop⟩

theorem map_updateFirst {β : Type} {g : α → β} (hg : ∀ r, g (f r) = g r) (n : Nat) :
    (updateFirst p f n rows).map g = rows.map g := by
  induction rows generalizing n with
  | nil => cases n <;> rfl
  | cons r rows ih =>
    cases n with
    | zero => rfl
    | succ n =>
      unfold updateFirst
      split
      · rw [List.map_cons, List.map_cons, hg, ih]
      · rw [List.map_cons, List.map_cons, ih]

end Table
