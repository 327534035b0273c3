import DurableTask.Lib.Transition

/-!
# Steps interleaved with deliveries

A system steps on its own while it can, and takes the next message of a queue when it cannot. If
deliveries commute with steps and with each other, up to an equivalence of states, then all messages
might as well have been there from the start, and their order does not matter.
-/

namespace Transition

variable {α ε : Type}

/-- A step of the system, or else the next message. -/
def advance (f : α → Option α) (deliver : ε → α → α) (p : α × List ε) : Option (α × List ε) :=
  match f p.1, p.2 with
  | some a, es => some (a, es)
  | none, e :: es => some (deliver e p.1, es)
  | none, [] => none

/-- Deliveries commute with steps, for states with the invariant `I` and up to `E`. -/
structure Commuting (f : α → Option α) (deliver : ε → α → α) (I : α → Prop) (E : α → α → Prop) :
    Prop where
  equiv : Equivalence E
  inv_step : ∀ {a b}, I a → f a = some b → I b
  inv_deliver : ∀ e {a}, I a → I (deliver e a)
  step : ∀ {a a'}, I a → E a a' → Option.Rel E (f a) (f a')
  deliver_congr : ∀ e {a a'}, I a → E a a' → E (deliver e a) (deliver e a')
  comm : ∀ e {a b}, I a → f a = some b → ∃ x, f (deliver e a) = some x ∧ E (deliver e b) x

namespace Commuting

variable {f : α → Option α} {deliver : ε → α → α} {I : α → Prop} {E : α → α → Prop}
  (h : Commuting f deliver I E) {a a' b x y : α}
include h

theorem inv_advance {p q : α × List ε} (hs : advance f deliver p = some q) (hp : I p.1) :
    I q.1 ∧ ∀ e ∈ q.2, e ∈ p.2 := by
  rcases p with ⟨a, es⟩
  unfold advance at hs
  cases hfa : f a with
  | some b =>
    rw [hfa] at hs
    cases hs
    exact ⟨h.inv_step hp hfa, fun _ he => he⟩
  | none =>
    rw [hfa] at hs
    cases es with
    | nil => cases hs
    | cons e es =>
      cases hs
      exact ⟨h.inv_deliver e hp, fun _ he => List.mem_cons_of_mem _ he⟩

end Commuting

end Transition
