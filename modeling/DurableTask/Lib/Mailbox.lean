import Mathlib

/-!
# Mailboxes

A mailbox gives each message to one reader, both in the order they come. A reader that finds no
message waits, or gives up at once; one that waits may give up later.
-/

/-- The messages not read yet, the readers that wait, who read what, and the readers that gave up. -/
structure Mailbox (α β : Type) where
  messages : List α := []
  readers : List β := []
  deliveries : List (α × β) := []
  gaveUp : List β := []

namespace Mailbox

variable {α β : Type}

inductive Op (α β : Type)
  | post (a : α)
  | read (r : β) (patient : Bool)
  | giveUp (r : β)

namespace Op

def post? : Op α β → Option α
  | post a => some a
  | _ => none

def read? : Op α β → Option β
  | read r _ => some r
  | _ => none

end Op

def post (b : Mailbox α β) (a : α) : Mailbox α β :=
  match b.readers with
  | r :: rest => { b with readers := rest, deliveries := b.deliveries ++ [(a, r)] }
  | [] => { b with messages := b.messages ++ [a] }

def read (b : Mailbox α β) (r : β) (patient : Bool) : Mailbox α β :=
  match b.messages with
  | a :: rest => { b with messages := rest, deliveries := b.deliveries ++ [(a, r)] }
  | [] =>
    if patient then { b with readers := b.readers ++ [r] } else { b with gaveUp := b.gaveUp ++ [r] }

section Cases

variable {b : Mailbox α β}

theorem post_of_nil (h : b.readers = []) (a : α) :
    b.post a = { b with messages := b.messages ++ [a] } := by
  unfold post
  split
  · next r rest h' =>
    rw [h] at h'
    cases h'
  · rfl

theorem post_of_cons {r : β} {rest : List β} (h : b.readers = r :: rest) (a : α) :
    b.post a = { b with readers := rest, deliveries := b.deliveries ++ [(a, r)] } := by
  unfold post
  rw [h]

theorem read_of_nil (h : b.messages = []) (r : β) (patient : Bool) :
    b.read r patient =
      if patient then { b with readers := b.readers ++ [r] }
      else { b with gaveUp := b.gaveUp ++ [r] } := by
  unfold read
  split
  · next a rest h' =>
    rw [h] at h'
    cases h'
  · rfl

theorem read_of_cons {a : α} {rest : List α} (h : b.messages = a :: rest) (r : β) (patient : Bool) :
    b.read r patient = { b with messages := rest, deliveries := b.deliveries ++ [(a, r)] } := by
  unfold read
  rw [h]

end Cases

variable [LinearOrder β]

def giveUp (b : Mailbox α β) (r : β) : Mailbox α β :=
  if r ∈ b.readers then { b with readers := b.readers.erase r, gaveUp := b.gaveUp ++ [r] } else b

def step (b : Mailbox α β) : Op α β → Mailbox α β
  | .post a => b.post a
  | .read r patient => b.read r patient
  | .giveUp r => b.giveUp r

def run (ops : List (Op α β)) : Mailbox α β := ops.foldl step {}

theorem run_append (ops ops' : List (Op α β)) : run (ops ++ ops') = ops'.foldl step (run ops) :=
  List.foldl_append

/-! ### What stays -/

/-- No message is lost and none is read twice; messages and readers are matched in order; nobody waits
while there is a message; who gives up was impatient or asked to. -/
structure Fair (ops : List (Op α β)) (b : Mailbox α β) : Prop where
  conserved : b.deliveries.map Prod.fst ++ b.messages = ops.filterMap Op.post?
  exclusive : b.messages = [] ∨ b.readers = []
  ordered : (b.deliveries.map Prod.snd ++ b.readers).Pairwise (· < ·)
  known : ∀ r, r ∈ ops.filterMap Op.read? ↔
    r ∈ b.deliveries.map Prod.snd ++ b.readers ∨ r ∈ b.gaveUp
  disjoint : ∀ r ∈ b.gaveUp, r ∉ b.deliveries.map Prod.snd ++ b.readers
  reason : ∀ r ∈ b.gaveUp, .read r false ∈ ops ∨ .giveUp r ∈ ops

namespace Fair

variable {ops : List (Op α β)} {b : Mailbox α β}

theorem reason_append (h : Fair ops b) (op : Op α β) {r : β} (hr : r ∈ b.gaveUp) :
    .read r false ∈ ops ++ [op] ∨ .giveUp r ∈ ops ++ [op] :=
  (h.reason r hr).imp (List.mem_append_left _) (List.mem_append_left _)

theorem post (h : Fair ops b) (a : α) : Fair (ops ++ [.post a]) (b.post a) := by
  have hreads : (ops ++ [Op.post a]).filterMap Op.read? = ops.filterMap Op.read? := by
    rw [List.filterMap_append]
    exact List.append_nil _
  have hposts : (ops ++ [Op.post a]).filterMap Op.post? = ops.filterMap Op.post? ++ [a] :=
    List.filterMap_append
  unfold Mailbox.post
  split
  · next r rest hreaders =>
    -- The readers move one place to the left.
    have hmessages : b.messages = [] := by
      refine h.exclusive.resolve_right ?_
      rw [hreaders]
      exact List.cons_ne_nil r rest
    have hmove : (b.deliveries ++ [(a, r)]).map Prod.snd ++ rest =
        b.deliveries.map Prod.snd ++ b.readers := by
      rw [hreaders, List.map_append, List.append_assoc]
      rfl
    refine ⟨?_, .inl hmessages, ?_, fun r' => ?_, fun r' hr' => ?_, fun r' hr' => h.reason_append _ hr'⟩
    · rw [hposts, ← h.conserved, hmessages, List.append_nil, List.append_nil, List.map_append]
      rfl
    · rw [hmove]
      exact h.ordered
    · rw [hreads, hmove]
      exact h.known r'
    · rw [hmove]
      exact h.disjoint r' hr'
  · next hreaders =>
    refine ⟨?_, .inr hreaders, h.ordered, fun r' => ?_, h.disjoint, fun r' hr' => h.reason_append _ hr'⟩
    · rw [hposts, ← h.conserved, List.append_assoc]
    · rw [hreads]
      exact h.known r'

/-- A new reader comes after all others. -/
theorem read (h : Fair ops b) {r : β} (patient : Bool)
    (hnew : ∀ r' ∈ ops.filterMap Op.read?, r' < r) :
    Fair (ops ++ [.read r patient]) (b.read r patient) := by
  have hreads : (ops ++ [Op.read r patient]).filterMap Op.read? = ops.filterMap Op.read? ++ [r] :=
    List.filterMap_append
  have hposts : (ops ++ [Op.read r patient]).filterMap Op.post? = ops.filterMap Op.post? := by
    rw [List.filterMap_append]
    exact List.append_nil _
  have hlast {l : List β} (hl : b.deliveries.map Prod.snd ++ b.readers = l) :
      (l ++ [r]).Pairwise (· < ·) := by
    subst hl
    refine List.pairwise_append.mpr ⟨h.ordered, List.pairwise_singleton _ _, fun r' hr' r'' hr'' => ?_⟩
    rw [List.mem_singleton.mp hr'']
    exact hnew r' ((h.known r').mpr (.inl hr'))
  have hother {r' : β} (hr' : r' ∈ b.gaveUp) : r' ≠ r :=
    ne_of_lt (hnew r' ((h.known r').mpr (.inr hr')))
  unfold Mailbox.read
  split
  · next a rest hmessages =>
    have hreaders : b.readers = [] := by
      refine h.exclusive.resolve_left ?_
      rw [hmessages]
      exact List.cons_ne_nil a rest
    have hl : (b.deliveries ++ [(a, r)]).map Prod.snd ++ b.readers =
        (b.deliveries.map Prod.snd ++ b.readers) ++ [r] := by
      rw [hreaders, List.map_append, List.append_nil, List.append_nil]
      rfl
    refine ⟨?_, .inr hreaders, ?_, fun r' => ?_, fun r' hr' => ?_, fun r' hr' => h.reason_append _ hr'⟩
    · rw [hposts, ← h.conserved, hmessages, List.map_append, List.append_assoc]
      rfl
    · rw [hl]
      exact hlast rfl
    · rw [hreads, hl, List.mem_append, h.known r', List.mem_append (s := _ ++ b.readers)]
      tauto
    · rw [hl, List.mem_append, List.mem_singleton]
      exact not_or.mpr ⟨h.disjoint r' hr', hother hr'⟩
  · next hmessages =>
    split
    · refine ⟨by rw [hposts]; exact h.conserved, .inl hmessages, ?_, fun r' => ?_, fun r' hr' => ?_,
        fun r' hr' => h.reason_append _ hr'⟩
      · rw [← List.append_assoc]
        exact hlast rfl
      · rw [hreads, ← List.append_assoc, List.mem_append, h.known r', List.mem_append (s := _ ++ b.readers)]
        tauto
      · rw [← List.append_assoc, List.mem_append, List.mem_singleton]
        exact not_or.mpr ⟨h.disjoint r' hr', hother hr'⟩
    · next hpatient =>
      refine ⟨by rw [hposts]; exact h.conserved, .inl hmessages, h.ordered, fun r' => ?_,
        fun r' hr' => ?_, fun r' hr' => ?_⟩
      · rw [hreads, List.mem_append, h.known r', List.mem_append (s := b.gaveUp)]
        tauto
      · rcases List.mem_append.mp hr' with hr' | hr'
        · exact h.disjoint r' hr'
        · rw [List.mem_singleton.mp hr']
          exact fun hmem => lt_irrefl r (hnew r ((h.known r).mpr (.inl hmem)))
      · rcases List.mem_append.mp hr' with hr' | hr'
        · exact h.reason_append _ hr'
        · have hfalse : patient = false := by simpa using hpatient
          rw [List.mem_singleton.mp hr', hfalse]
          exact .inl (List.mem_append_right _ (List.mem_singleton_self _))

theorem giveUp (h : Fair ops b) (r : β) : Fair (ops ++ [.giveUp r]) (b.giveUp r) := by
  have hreads : (ops ++ [Op.giveUp r]).filterMap Op.read? = ops.filterMap Op.read? := by
    rw [List.filterMap_append]
    exact List.append_nil _
  have hposts : (ops ++ [Op.giveUp r]).filterMap Op.post? = ops.filterMap Op.post? := by
    rw [List.filterMap_append]
    exact List.append_nil _
  unfold Mailbox.giveUp
  split
  · next hr =>
    have hnodup : (b.deliveries.map Prod.snd ++ b.readers).Nodup := h.ordered.imp fun hlt => ne_of_lt hlt
    obtain ⟨-, hnodup', hdisj⟩ := List.nodup_append.mp hnodup
    have herase (r' : β) : r' ∈ b.deliveries.map Prod.snd ++ b.readers.erase r ↔
        r' ∈ b.deliveries.map Prod.snd ++ b.readers ∧ r' ≠ r := by
      rw [List.mem_append, List.mem_append, hnodup'.mem_erase_iff]
      constructor
      · rintro (hmem | ⟨hne, hmem⟩)
        · exact ⟨.inl hmem, hdisj r' hmem r hr⟩
        · exact ⟨.inr hmem, hne⟩
      · rintro ⟨hmem | hmem, hne⟩
        · exact .inl hmem
        · exact .inr ⟨hne, hmem⟩
    refine ⟨by rw [hposts]; exact h.conserved, ?_, ?_, fun r' => ?_, fun r' hr' => ?_, fun r' hr' => ?_⟩
    · refine .inl (h.exclusive.resolve_right fun hnil => ?_)
      rw [hnil] at hr
      cases hr
    · exact h.ordered.sublist ((List.Sublist.refl _).append List.erase_sublist)
    · rw [hreads, h.known r', herase r', List.mem_append (s := b.gaveUp), List.mem_singleton]
      by_cases hne : r' = r
      · rw [hne]
        simp [hr]
      · simp [hne]
    · rw [herase r']
      rcases List.mem_append.mp hr' with hr' | hr'
      · exact fun hmem => h.disjoint r' hr' hmem.1
      · exact fun hmem => hmem.2 (List.mem_singleton.mp hr')
    · rcases List.mem_append.mp hr' with hr' | hr'
      · exact h.reason_append _ hr'
      · rw [List.mem_singleton.mp hr']
        exact .inr (List.mem_append_right _ (List.mem_singleton_self _))
  · refine ⟨by rw [hposts]; exact h.conserved, h.exclusive, h.ordered, fun r' => ?_, h.disjoint,
      fun r' hr' => h.reason_append _ hr'⟩
    rw [hreads]
    exact h.known r'

end Fair

/-- Readers that come in increasing order are served fairly. -/
theorem fair_run (ops : List (Op α β)) (h : (ops.filterMap Op.read?).Pairwise (· < ·)) :
    Fair ops (run ops) := by
  induction ops using List.reverseRecOn with
  | nil => exact ⟨rfl, .inl rfl, .nil, fun r => by simp [run], nofun, nofun⟩
  | append_singleton ops op ih =>
    rw [List.filterMap_append, List.pairwise_append] at h
    rw [run_append]
    have ih := ih h.1
    cases op with
    | post a => exact ih.post a
    | read r patient => exact ih.read patient fun r' hr' => h.2.2 r' hr' r (List.mem_singleton_self _)
    | giveUp r => exact ih.giveUp r

end Mailbox
