import Mathlib

/-!
# Graphs that are taken down from the leaves

A node goes only after all its children, so a list of removed nodes is a post-order: what it holds is
closed under children and lies on no cycle. On an acyclic graph with finitely many edges, recursion
over children ends, and only finitely many paths start at a node.
-/

namespace Graph

variable {α : Type} {child : α → α → Prop} {leaf P : α → Prop} {l : List α} {a b c : α}

/-- A node from which recursion over children ends is not its own descendant. -/
theorem not_transGen_of_acc (h : Acc (fun c a => child a c) a) : ¬Relation.TransGen child a a := by
  induction h with
  | intro a _ ih =>
    intro hcycle
    obtain ⟨c, hac, hca⟩ := Relation.TransGen.head'_iff.mp hcycle
    exact ih c hac (.tail' hca hac)

/-- Nodes with the property `P`, each after its children other than leaves. -/
inductive Postorder (child : α → α → Prop) (leaf P : α → Prop) : List α → Prop
  | nil : Postorder child leaf P []
  | concat {l : List α} {a : α} (h : Postorder child leaf P l) (fresh : a ∉ l) (holds : P a)
    (children : ∀ c, child a c → c ∈ l ∨ leaf c) : Postorder child leaf P (l ++ [a])

namespace Postorder

theorem nodup (h : Postorder child leaf P l) : l.Nodup := by
  induction h with
  | nil => exact .nil
  | concat _ fresh _ _ ih =>
    refine List.nodup_append.mpr ⟨ih, List.nodup_cons.mpr ⟨List.not_mem_nil, .nil⟩, ?_⟩
    rintro x hx y hy rfl
    exact fresh (List.mem_singleton.mp hy ▸ hx)

theorem holds_of_mem (h : Postorder child leaf P l) (ha : a ∈ l) : P a := by
  induction h with
  | nil => exact absurd ha List.not_mem_nil
  | concat _ _ holds _ ih =>
    rcases List.mem_append.mp ha with ha | ha
    · exact ih ha
    · exact List.mem_singleton.mp ha ▸ holds

/-- Children of removed nodes are removed, or leaves. -/
theorem child_mem (h : Postorder child leaf P l) (ha : a ∈ l) (hc : child a c) :
    c ∈ l ∨ leaf c := by
  induction h with
  | nil => exact absurd ha List.not_mem_nil
  | concat _ _ _ children ih =>
    rcases List.mem_append.mp ha with ha | ha
    · exact (ih ha).imp_left (List.mem_append_left _)
    · exact (children c (List.mem_singleton.mp ha ▸ hc)).imp_left (List.mem_append_left _)

variable (hleaf : ∀ a c, leaf a → ¬child a c)
include hleaf

/-- What can be reached from a removed node is removed, or a leaf. -/
theorem descendant_mem (h : Postorder child leaf P l) (ha : a ∈ l)
    (hb : Relation.ReflTransGen child a b) : b ∈ l ∨ leaf b := by
  induction hb with
  | refl => exact .inl ha
  | tail _ hstep ih =>
    rcases ih with ih | ih
    · exact h.child_mem ih hstep
    · exact absurd hstep (hleaf _ _ ih)

/-- Recursion over the children of a removed node ends. -/
theorem acc (h : Postorder child leaf P l) (ha : a ∈ l) : Acc (fun c a => child a c) a := by
  induction h generalizing a with
  | nil => exact absurd ha List.not_mem_nil
  | concat _ _ _ children ih =>
    rcases List.mem_append.mp ha with ha | ha
    · exact ih ha
    · rw [List.mem_singleton.mp ha]
      refine ⟨_, fun c hc => ?_⟩
      rcases children c hc with hc | hc
      · exact ih hc
      · exact ⟨_, fun d hd => absurd hd (hleaf c d hc)⟩

/-- No removed node is on a cycle. -/
theorem irrefl (h : Postorder child leaf P l) (ha : a ∈ l) : ¬Relation.TransGen child a a :=
  not_transGen_of_acc (h.acc hleaf ha)

end Postorder

/-! ### Acyclic graphs -/

/-- No node can be reached from itself. -/
def Acyclic (child : α → α → Prop) : Prop := ∀ a, ¬Relation.TransGen child a a

/-- Recursion over the children of an acyclic graph ends if only finitely many nodes have any. -/
theorem Acyclic.wellFounded (h : Acyclic child) (nodes : List α)
    (hnodes : ∀ a c, child a c → a ∈ nodes) : WellFounded fun c a => child a c := by
  -- The nodes that have children are a finite set, ordered by reachability.
  let r : {a // a ∈ nodes} → {a // a ∈ nodes} → Prop := fun c a => Relation.TransGen child a c
  have : Finite {a // a ∈ nodes} := nodes.finite_toSet.to_subtype
  have : IsTrans _ r := ⟨fun _ _ _ hab hbc => hbc.trans hab⟩
  have : Std.Irrefl r := ⟨fun a => h a⟩
  have hwf : WellFounded r := Finite.wellFounded_of_trans_of_irrefl r
  have hacc (a : {a // a ∈ nodes}) : Acc (fun c a => child a c) a.1 := by
    induction a using hwf.induction with
    | _ a ih =>
      refine ⟨_, fun c hc => ?_⟩
      by_cases hmem : c ∈ nodes
      · exact ih ⟨c, hmem⟩ (.single hc)
      · exact ⟨_, fun d hd => absurd (hnodes c d hd) hmem⟩
  refine ⟨fun a => ⟨_, fun c hc => ?_⟩⟩
  by_cases hmem : c ∈ nodes
  · exact hacc ⟨c, hmem⟩
  · exact ⟨_, fun d hd => absurd (hnodes c d hd) hmem⟩

/-- The number of paths that start at a node. -/
theorem exists_paths {children : α → List α} (h : WellFounded fun c a => c ∈ children a) :
    ∃ paths : α → Nat, ∀ a, paths a = ((children a).map fun c => paths c + 1).sum := by
  refine ⟨h.fix fun a rec => ((children a).attach.map fun c => rec c.1 c.2 + 1).sum, fun a => ?_⟩
  rw [h.fix_eq]
  congr 1
  conv_rhs => rw [← List.attach_map_subtype_val (children a), List.map_map]
  rfl

end Graph
