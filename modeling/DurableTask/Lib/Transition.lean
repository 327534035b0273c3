import Mathlib

/-!
# Deterministic transition systems

The runs of a partial step function: invariants, lock-step simulation, and that any two runs from one
state are comparable.
-/

namespace Transition

variable {α β : Type} {f : α → Option α} {g : β → Option β} {a b c : α}

/-- `b` is reached from `a` by some number of steps. -/
def Reaches (f : α → Option α) : α → α → Prop := Relation.ReflTransGen fun a b => f a = some b

namespace Reaches

theorem refl (a : α) : Reaches f a a := Relation.ReflTransGen.refl

theorem tail (h : Reaches f a b) (hs : f b = some c) : Reaches f a c := Relation.ReflTransGen.tail h hs

theorem head (hs : f a = some b) (h : Reaches f b c) : Reaches f a c := Relation.ReflTransGen.head hs h

theorem single (hs : f a = some b) : Reaches f a b := Relation.ReflTransGen.single hs

theorem trans (h : Reaches f a b) (h' : Reaches f b c) : Reaches f a c :=
  Relation.ReflTransGen.trans h h'

/-- What every step preserves holds along a run. -/
theorem invariant {I : α → Prop} (h : Reaches f a b) (ha : I a)
    (hstep : ∀ x y, I x → f x = some y → I y) : I b := by
  induction h with
  | refl => exact ha
  | tail _ hs ih => exact hstep _ _ ih hs

/-- Two runs from one state: one extends the other. -/
theorem total (h : Reaches f a b) (h' : Reaches f a c) : Reaches f b c ∨ Reaches f c b :=
  Relation.ReflTransGen.total_of_right_unique
    (fun _ _ _ hx hy => Option.some.inj (hx.symm.trans hy)) h h'

/-- A run goes through every state reached before its halting state. -/
theorem of_halted (h : Reaches f a b) (hb : f b = none) (h' : Reaches f a c) : Reaches f c b := by
  rcases h.total h' with hbc | hcb
  · rcases Relation.ReflTransGen.cases_head hbc with rfl | ⟨d, hd, _⟩
    · exact refl _
    · rw [hb] at hd; cases hd
  · exact hcb

theorem of_none (h : Reaches f a b) (ha : f a = none) : b = a := by
  rcases Relation.ReflTransGen.cases_head h with rfl | ⟨c, hc, _⟩
  · rfl
  · rw [ha] at hc; cases hc

theorem after_step (h : Reaches f a c) (hs : f a = some b) : c = a ∨ Reaches f b c := by
  rcases Relation.ReflTransGen.cases_head h with rfl | ⟨b', hb', hrest⟩
  · exact .inl rfl
  · rw [hs] at hb'
    cases hb'
    exact .inr hrest

/-- A run that passes a bound its steps approach one by one has a step that meets it. -/
theorem crossing {μ : α → Nat} {n : Nat} (hμ : ∀ x y, f x = some y → μ y ≤ μ x + 1)
    (h : Reaches f a c) (ha : μ a ≤ n) (hc : n < μ c) :
    ∃ x y, Reaches f a x ∧ f x = some y ∧ Reaches f y c ∧ μ x = n ∧ μ y = n + 1 := by
  induction h with
  | refl => omega
  | @tail b c hab hs ih =>
    by_cases hb : n < μ b
    · obtain ⟨x, y, hax, hxy, hyb, hx, hy⟩ := ih hb
      exact ⟨x, y, hax, hxy, hyb.tail hs, hx, hy⟩
    · have hstep := hμ b c hs
      exact ⟨b, c, hab, hs, refl c, by omega, by omega⟩

/-- Lock-step simulation of a run: related states step to related states, on the way to its end. -/
theorem simulate {R : α → β → Prop} {x : β} (h : Reaches f a b) (hR : R a x)
    (hstep : ∀ a a' x, R a x → f a = some a' → Reaches f a' b → ∃ y, g x = some y ∧ R a' y) :
    ∃ y, Reaches g x y ∧ R b y := by
  induction h using Relation.ReflTransGen.head_induction_on generalizing x with
  | refl => exact ⟨x, refl x, hR⟩
  | head hs hend ih =>
    obtain ⟨y, hy, hRy⟩ := hstep _ _ _ hR hs hend
    obtain ⟨z, hz, hRz⟩ := ih hRy
    exact ⟨z, hz.head hy, hRz⟩

end Reaches

end Transition
