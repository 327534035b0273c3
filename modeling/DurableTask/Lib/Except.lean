import Mathlib

/-!
# Successful computations in `Except`

Inversion of `map`, `mapError` and `bind` on a successful result.
-/

namespace Except

variable {ε δ α β : Type}

theorem mapError_eq_ok {f : ε → δ} {x : Except ε α} {a : α} :
    x.mapError f = .ok a ↔ x = .ok a := by
  cases x with
  | error e => simp [Except.mapError]
  | ok a => simp [Except.mapError]

theorem bind_eq_ok {f : α → Except ε β} {x : Except ε α} {b : β} :
    (x >>= f) = .ok b ↔ ∃ a, x = .ok a ∧ f a = .ok b := by
  cases x with
  | error e => simp [bind, Except.bind]
  | ok a => simp [bind, Except.bind]

theorem bind_eq_error {f : α → Except ε β} {x : Except ε α} {e : ε} :
    (x >>= f) = .error e ↔ x = .error e ∨ ∃ a, x = .ok a ∧ f a = .error e := by
  cases x with
  | error e' => simp [bind, Except.bind]
  | ok a => simp [bind, Except.bind]

/-- A loop that fails does so in one of its rounds. -/
theorem foldlM_error {f : β → α → Except ε β} {l : List α} {b : β} {e : ε}
    (h : l.foldlM f b = .error e) : ∃ x a, a ∈ l ∧ f x a = .error e := by
  induction l generalizing b with
  | nil => cases h
  | cons a l ih =>
    rw [List.foldlM_cons] at h
    rcases bind_eq_error.mp h with h | ⟨c, -, h⟩
    · exact ⟨b, a, List.mem_cons_self, h⟩
    · obtain ⟨x, a', ha', hx⟩ := ih h
      exact ⟨x, a', List.mem_cons_of_mem _ ha', hx⟩

/-- What every round of a loop keeps holds at its end. -/
theorem foldlM_invariant {f : β → α → Except ε β} {l : List α} {b b' : β}
    {I : β → Prop} (h : l.foldlM f b = .ok b') (hb : I b)
    (hstep : ∀ x a y, a ∈ l → I x → f x a = .ok y → I y) : I b' := by
  induction l generalizing b with
  | nil =>
    cases h
    exact hb
  | cons a l ih =>
    rw [List.foldlM_cons] at h
    obtain ⟨c, hc, h⟩ := bind_eq_ok.mp h
    exact ih h (hstep b a c List.mem_cons_self hb hc) fun x a' y ha' =>
      hstep x a' y (List.mem_cons_of_mem _ ha')

end Except
