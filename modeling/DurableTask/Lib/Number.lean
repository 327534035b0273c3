import Mathlib

/-!
# Consecutive numbering

The entries of a list under consecutive integers, from a given first one.
-/

namespace Number

variable {α β : Type}

def number (b : Int) : List α → List (Int × α)
  | [] => []
  | x :: xs => (b, x) :: number (b + 1) xs

theorem number_append (b : Int) (xs ys : List α) :
    number b (xs ++ ys) = number b xs ++ number (b + xs.length) ys := by
  induction xs generalizing b with
  | nil => simp [number]
  | cons x xs ih =>
    simp only [List.cons_append, number, ih, List.length_cons]
    congr 3
    omega

theorem number_concat (b : Int) (xs : List α) (x : α) :
    number b (xs ++ [x]) = number b xs ++ [(b + xs.length, x)] := by rw [number_append]; rfl

theorem map_snd_number (b : Int) (xs : List α) : (number b xs).map Prod.snd = xs := by
  induction xs generalizing b with
  | nil => rfl
  | cons x xs ih => simp only [number, List.map_cons, ih]

theorem bounds_of_mem {b : Int} {xs : List α} {e : Int × α} (h : e ∈ number b xs) :
    b ≤ e.1 ∧ e.1 < b + xs.length := by
  induction xs generalizing b with
  | nil => cases h
  | cons x xs ih =>
    rcases List.mem_cons.mp h with rfl | h
    · simp only [List.length_cons]
      omega
    · have := ih h
      simp only [List.length_cons]
      omega

theorem notMem_of_lt {b k : Int} {xs : List α} (h : k < b) : k ∉ (number b xs).map Prod.fst := by
  intro hmem
  obtain ⟨e, he, rfl⟩ := List.mem_map.mp hmem
  have := bounds_of_mem he
  omega

theorem notMem_of_le {b k : Int} {xs : List α} (h : b + xs.length ≤ k) :
    k ∉ (number b xs).map Prod.fst := by
  intro hmem
  obtain ⟨e, he, rfl⟩ := List.mem_map.mp hmem
  have := bounds_of_mem he
  omega

theorem sorted_number (b : Int) (xs : List α) : ((number b xs).map Prod.fst).Pairwise (· < ·) := by
  induction xs generalizing b with
  | nil => exact .nil
  | cons x xs ih =>
    refine List.pairwise_cons.mpr ⟨fun k hk => ?_, ih (b + 1)⟩
    by_contra hlt
    exact notMem_of_lt (by omega) hk

theorem nodup_number (b : Int) (xs : List α) : ((number b xs).map Prod.fst).Nodup :=
  (sorted_number b xs).imp fun h => Int.ne_of_lt h

/-- Renumbering. -/
theorem map_number {b c : Int} (f : Int → Int) (xs : List α)
    (hf : ∀ i : Nat, i < xs.length → f (b + i) = c + i) :
    (number b xs).map (fun e => (f e.1, e.2)) = number c xs := by
  induction xs generalizing b c with
  | nil => rfl
  | cons x xs ih =>
    have h0 := hf 0 (Nat.zero_lt_succ _)
    simp only [Int.ofNat_zero, Int.add_zero] at h0
    simp only [number, List.map_cons, h0]
    congr 1
    refine ih fun i hi => ?_
    have := hf (i + 1) (Nat.succ_lt_succ hi)
    rw [show b + 1 + (i : Int) = b + ((i + 1 : Nat) : Int) by omega, this]
    omega

end Number
