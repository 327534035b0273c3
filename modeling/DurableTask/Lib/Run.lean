import Mathlib

/-!
# Runs of calls

A system that executes one call after the other, and what holds along its runs.
-/

namespace Run

variable {σ ι : Type}

/-- The state after a list of calls. -/
def run (f : σ → ι → σ) (s : σ) (ops : List ι) : σ := ops.foldl f s

/-- Every call of a run meets a condition on the state it is made in. -/
def Along (f : σ → ι → σ) (s : σ) (G : σ → ι → Prop) (ops : List ι) : Prop :=
  ∀ pre op post, ops = pre ++ op :: post → G (run f s pre) op

variable {f : σ → ι → σ} {s : σ} {G : σ → ι → Prop} {ops : List ι} {op : ι}

theorem run_concat (f : σ → ι → σ) (s : σ) (ops : List ι) (op : ι) :
    run f s (ops ++ [op]) = f (run f s ops) op := List.foldl_append ..

theorem Along.nil : Along f s G [] := by
  intro pre op post h
  cases pre <;> cases h

theorem Along.concat (h : Along f s G ops) (hG : G (run f s ops) op) :
    Along f s G (ops ++ [op]) := by
  intro pre op' post hsplit
  rcases List.eq_nil_or_concat post with rfl | ⟨post, last, rfl⟩
  · obtain ⟨rfl, hop⟩ := List.append_inj' hsplit rfl
    cases hop
    exact hG
  · rw [List.concat_eq_append, ← List.cons_append, ← List.append_assoc] at hsplit
    exact h pre op' post (List.append_inj' hsplit rfl).1

theorem Along.cons (hG : G s op) (h : Along f (f s op) G ops) : Along f s G (op :: ops) := by
  intro pre op' post hsplit
  cases pre with
  | nil =>
    cases hsplit
    exact hG
  | cons x pre =>
    cases hsplit
    exact h pre op' post rfl

theorem Along.init (h : Along f s G (ops ++ [op])) : Along f s G ops := fun pre x post hsplit =>
  h pre x (post ++ [op]) (by rw [hsplit, List.append_assoc, List.cons_append])

theorem Along.last (h : Along f s G (ops ++ [op])) : G (run f s ops) op := h ops op [] rfl

/-- What every call that meets the condition keeps holds at the end. -/
theorem Along.invariant {I : σ → Prop} (h : Along f s G ops) (hs : I s)
    (hstep : ∀ s op, G s op → I s → I (f s op)) : I (run f s ops) := by
  induction ops using List.reverseRecOn with
  | nil => exact hs
  | append_singleton ops op ih =>
    rw [run_concat]
    exact hstep _ _ h.last (ih h.init)

/-! ### Components

What holds of every component of a system, when one of them changes. -/

section Components

variable {α : Type} {l : List α} {P : α → Prop}

theorem forall_mem_set {i : Nat} {a : α} (h : ∀ x ∈ l, P x) (ha : P a) : ∀ x ∈ l.set i a, P x := by
  intro x hx
  rcases List.mem_or_eq_of_mem_set hx with hx | rfl
  · exact h x hx
  · exact ha

theorem forall_mem_modify {i : Nat} {g : α → α} (h : ∀ x ∈ l, P x) (hg : ∀ x ∈ l, P x → P (g x)) :
    ∀ x ∈ l.modify i g, P x := by
  intro x hx
  obtain ⟨j, hj⟩ := List.mem_iff_getElem?.mp hx
  rw [List.getElem?_modify] at hj
  obtain ⟨y, hy, rfl⟩ := Option.map_eq_some_iff.mp hj
  have hmem := List.mem_iff_getElem?.mpr ⟨j, hy⟩
  split
  · exact hg y hmem (h y hmem)
  · exact h y hmem

theorem getElem?_modify_cases {i j : Nat} {g : α → α} {y : α} (h : (l.modify i g)[j]? = some y) :
    (j ≠ i ∧ l[j]? = some y) ∨ (j = i ∧ ∃ x, l[i]? = some x ∧ y = g x) := by
  rw [List.getElem?_modify] at h
  obtain ⟨x, hx, rfl⟩ := Option.map_eq_some_iff.mp h
  by_cases hij : i = j
  · subst hij
    exact .inr ⟨rfl, x, hx, if_pos rfl⟩
  · exact .inl ⟨Ne.symm hij, by rw [hx, if_neg hij]⟩

theorem getElem?_modify_of_eq_some {i j : Nat} {g : α → α} {x : α} (h : l[j]? = some x) :
    (l.modify i g)[j]? = some (if i = j then g x else x) := by
  rw [List.getElem?_modify, h]
  rfl

theorem getElem?_concat_of_eq_some {j : Nat} {x y : α} (h : l[j]? = some x) :
    (l ++ [y])[j]? = some x := by
  rw [List.getElem?_append_left (List.getElem?_eq_some_iff.mp h).1, h]

theorem getElem?_concat_cases {j : Nat} {x y : α} (h : (l ++ [y])[j]? = some x) :
    l[j]? = some x ∨ j = l.length ∧ x = y := by
  by_cases hj : j < l.length
  · rw [List.getElem?_append_left hj] at h
    exact .inl h
  · have hj' : j = l.length := by
      have := (List.getElem?_eq_some_iff.mp h).1
      rw [List.length_append, List.length_singleton] at this
      omega
    subst hj'
    rw [List.getElem?_concat_length] at h
    exact .inr ⟨rfl, (Option.some.inj h).symm⟩

theorem forall_mem_concat {a : α} (h : ∀ x ∈ l, P x) (ha : P a) : ∀ x ∈ l ++ [a], P x := by
  intro x hx
  rcases List.mem_append.mp hx with hx | hx
  · exact h x hx
  · rw [List.mem_singleton.mp hx]
    exact ha

end Components

end Run
