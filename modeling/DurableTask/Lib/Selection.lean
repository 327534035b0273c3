import Mathlib

/-!
# Selecting by a key

A scan that keeps the best element so far selects a maximum of the list. Where the keys are distinct it
does not depend on the order of the list, and two lists that contain each other's maxima have the same.
-/

namespace Selection

variable {α β γ : Type} {f : α → β} {l l' : List α} {a b : α}

/-- The elements of a list have different keys. -/
def Distinct (f : α → β) (l : List α) : Prop := ∀ a ∈ l, ∀ b ∈ l, f a = f b → a = b

variable [LinearOrder β]

theorem argmax_eq_of_mem (hl : Distinct f l) (ha : l.argmax f = some a) (hb : l'.argmax f = some b)
    (ha' : a ∈ l') (hb' : b ∈ l) : a = b :=
  hl a (List.argmax_mem ha) b hb'
    (le_antisymm (List.le_of_mem_argmax ha' hb) (List.le_of_mem_argmax hb' ha))

theorem argmax_perm (hl : Distinct f l) (h : l.Perm l') : l.argmax f = l'.argmax f := by
  rcases ha : l.argmax f with _ | a
  · rw [List.argmax_eq_none.mp ha] at h
    rw [← h.nil_eq]
    rfl
  · rcases hb : l'.argmax f with _ | b
    · rw [List.argmax_eq_none.mp hb] at h
      rw [h.eq_nil] at ha
      cases ha
    · rw [argmax_eq_of_mem hl ha hb (h.subset (List.argmax_mem ha)) (h.symm.subset (List.argmax_mem hb))]

/-- A scan that skips some elements, and carries more than the best element so far. -/
theorem foldl_argAux {r : α → α → Prop} [DecidableRel r] {p : α → Bool} {s : γ → α → γ}
    (g : Option α → γ) (hskip : ∀ o x, p x = false → s (g o) x = g o)
    (hstep : ∀ o x, p x = true → s (g o) x = g (List.argAux r o x)) (o : Option α) (l : List α) :
    l.foldl s (g o) = g ((l.filter p).foldl (List.argAux r) o) := by
  induction l generalizing o with
  | nil => rfl
  | cons x l ih =>
    rw [List.foldl_cons]
    cases hx : p x with
    | false => rw [hskip o x hx, ih, List.filter_cons_of_neg (by rw [hx]; exact Bool.false_ne_true)]
    | true => rw [hstep o x hx, ih, List.filter_cons_of_pos hx, List.foldl_cons]

end Selection
