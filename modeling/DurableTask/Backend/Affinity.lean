import DurableTask.Backend.Stateful
import DurableTask.Lib.Selection

/-!
# Instance affinity

Which connected stream a workflow work item is routed to (`backend/executor_stateful.go`): the capable
stream of the highest score for the instance, or of the lowest id among those.
-/

namespace DurableTask

inductive WorkerCapability
  | unspecified
  | statefulHistory
deriving DecidableEq, Repr

/-- A stream's state with its id. -/
structure ConnectedStream extends StreamState where
  id : String
deriving DecidableEq, Repr

/-- `newStreamState`. -/
def newStreamState (id : String) (capabilities : List WorkerCapability) : ConnectedStream :=
  { id := id, statefulHistory := capabilities.any (· == .statefulHistory) }

/-- The executor's map of connected streams, each under its own id. -/
structure ConnectedStreams where
  entries : List (String × ConnectedStream)
  nodup : (entries.map Prod.fst).Nodup
  id_eq : ∀ e ∈ entries, e.2.id = e.1

namespace ConnectedStreams

def empty : ConnectedStreams := ⟨[], List.nodup_nil, fun _ h => absurd h List.not_mem_nil⟩

/-- `g.streams.Store(streamID, newStreamState(streamID, req))`. -/
def connect (s : ConnectedStreams) (streamID : String) (capabilities : List WorkerCapability) :
    ConnectedStreams where
  entries := Assoc.insert s.entries streamID (newStreamState streamID capabilities)
  nodup := Assoc.insert_nodup s.nodup ..
  id_eq e he := by
    rcases Assoc.mem_insert.mp he with ⟨he, -⟩ | rfl
    · exact s.id_eq e he
    · rfl

/-- `g.streams.Delete(streamID)`. -/
def disconnect (s : ConnectedStreams) (streamID : String) : ConnectedStreams where
  entries := Assoc.erase s.entries streamID
  nodup := Assoc.erase_nodup s.nodup
  id_eq e he := s.id_eq e (Assoc.mem_erase.mp he).1

def streams (s : ConnectedStreams) : List ConnectedStream := s.entries.map Prod.snd

end ConnectedStreams

/-- FNV-1a with 64 bits. -/
def fnv1a (bytes : List UInt8) : UInt64 :=
  bytes.foldl (fun h b => (h ^^^ b.toUInt64) * 1099511628211) 14695981039346656037

/-- `rendezvousScore`. -/
def rendezvousScore (iid : InstanceID) (streamID : String) : UInt64 :=
  fnv1a (iid.toUTF8.toList ++ [0] ++ streamID.toUTF8.toList)

section

variable (score : InstanceID → String → UInt64) (iid : InstanceID)

/-- The loop body of `affinityStreamOwner`, on `best` and `bestScore`. -/
def considerStream (acc : Option ConnectedStream × UInt64) (ss : ConnectedStream) :
    Option ConnectedStream × UInt64 :=
  if !ss.statefulHistory then acc
  else
    let s := score iid ss.id
    match acc.1 with
    | none => (some ss, s)
    | some best => if s > acc.2 ∨ (s = acc.2 ∧ ss.id < best.id) then (some ss, s) else acc

/-- `affinityStreamOwner`; the code's `score` is `rendezvousScore`. -/
def affinityStreamOwner (s : ConnectedStreams) : Option ConnectedStream :=
  (s.streams.foldl (considerStream score iid) (none, 0)).1

/-- What the loop compares: the score, and the lower id first. -/
def affinityKey (ss : ConnectedStream) : Lex (Nat × Stringᵒᵈ) :=
  toLex ((score iid ss.id).toNat, OrderDual.toDual ss.id)

theorem affinityKey_lt (a b : ConnectedStream) :
    affinityKey score iid a < affinityKey score iid b ↔
      score iid b.id > score iid a.id ∨ (score iid b.id = score iid a.id ∧ b.id < a.id) := by
  unfold affinityKey
  rw [Prod.Lex.toLex_lt_toLex]
  refine or_congr UInt64.lt_iff_toNat_lt.symm (and_congr ?_ OrderDual.toDual_lt_toDual)
  rw [UInt64.toNat_inj]
  exact eq_comm

/-- The streams the loop considers. -/
def ConnectedStreams.capable (s : ConnectedStreams) : List ConnectedStream :=
  s.streams.filter (·.statefulHistory)

theorem distinct_affinityKey (s : ConnectedStreams) :
    Selection.Distinct (affinityKey score iid) s.capable := by
  intro a ha b hb hab
  obtain ⟨x, hx, rfl⟩ := List.mem_map.mp (List.mem_of_mem_filter ha)
  obtain ⟨y, hy, rfl⟩ := List.mem_map.mp (List.mem_of_mem_filter hb)
  have hid : x.2.id = y.2.id := OrderDual.toDual_inj.mp (Prod.mk.inj (toLex_inj.mp hab)).2
  rw [s.id_eq x hx, s.id_eq y hy] at hid
  rw [List.inj_on_of_nodup_map s.nodup hx hy hid]

/-- The loop selects a capable stream of the greatest key. -/
theorem affinityStreamOwner_eq (s : ConnectedStreams) :
    affinityStreamOwner score iid s = s.capable.argmax (affinityKey score iid) := by
  unfold affinityStreamOwner List.argmax ConnectedStreams.capable
  have hscan := Selection.foldl_argAux (r := fun b c => affinityKey score iid c < affinityKey score iid b)
    (p := (·.statefulHistory)) (s := considerStream score iid)
    (fun o => (o, (o.map fun ss => score iid ss.id).getD 0)) ?_ ?_ none s.streams
  · exact congrArg Prod.fst hscan
  · intro o x hx
    unfold considerStream
    rw [hx]
    rfl
  · intro o x hx
    unfold considerStream
    rw [hx]
    cases o with
    | none => rfl
    | some best =>
      simp only [List.argAux, affinityKey_lt, Option.map_some, Option.getD_some, Bool.not_true,
        Bool.false_eq_true, if_false]
      split <;> rfl

variable {score iid} {s t : ConnectedStreams} {a b : ConnectedStream}

theorem mem_of_affinityStreamOwner (ha : affinityStreamOwner score iid s = some a) :
    a ∈ s.streams ∧ a.statefulHistory = true := by
  rw [affinityStreamOwner_eq] at ha
  exact List.mem_filter.mp (List.argmax_mem ha)

/-- Two memberships that contain each other's owner have the same owner. -/
theorem affinityStreamOwner_unique (ha : affinityStreamOwner score iid s = some a)
    (hb : affinityStreamOwner score iid t = some b) (hat : a ∈ t.streams) (hbs : b ∈ s.streams) :
    a = b := by
  have hat : a ∈ t.capable := List.mem_filter.mpr ⟨hat, (mem_of_affinityStreamOwner ha).2⟩
  have hbs : b ∈ s.capable := List.mem_filter.mpr ⟨hbs, (mem_of_affinityStreamOwner hb).2⟩
  rw [affinityStreamOwner_eq] at ha hb
  exact Selection.argmax_eq_of_mem (distinct_affinityKey score iid s) ha hb hat hbs

theorem affinityStreamOwner_eq_none :
    affinityStreamOwner score iid s = none ↔ ∀ ss ∈ s.streams, ss.statefulHistory = false := by
  rw [affinityStreamOwner_eq, List.argmax_eq_none, ConnectedStreams.capable, List.filter_eq_nil_iff]
  simp only [Bool.not_eq_true]

theorem ConnectedStreams.mem_streams :
    a ∈ s.streams ↔ (a.id, a) ∈ s.entries := by
  refine ⟨fun ha => ?_, fun ha => List.mem_map.mpr ⟨_, ha, rfl⟩⟩
  obtain ⟨e, he, rfl⟩ := List.mem_map.mp ha
  rw [s.id_eq e he]
  exact he

theorem ConnectedStreams.mem_connect {streamID : String} {capabilities : List WorkerCapability}
    (hne : a.id ≠ streamID) : a ∈ (s.connect streamID capabilities).streams ↔ a ∈ s.streams := by
  rw [mem_streams, mem_streams]
  refine Assoc.mem_insert.trans ⟨fun h => ?_, fun h => .inl ⟨h, hne⟩⟩
  rcases h with ⟨h, -⟩ | h
  · exact h
  · exact absurd (congrArg Prod.fst h) hne

theorem ConnectedStreams.mem_disconnect {streamID : String} :
    a ∈ (s.disconnect streamID).streams ↔ a ∈ s.streams ∧ a.id ≠ streamID := by
  rw [mem_streams, mem_streams]
  exact Assoc.mem_erase

variable (score iid)

/-- For any scores: the owner does not depend on the order in which the map is iterated; there is none
exactly if no capable stream is connected; and two memberships that both contain both owners have the
same. So a stream that connects takes instances to itself only, and one that disconnects moves only its
own. -/
theorem affinityStreamOwner_minimal_disruption :
    (∀ s t : ConnectedStreams, s.entries.Perm t.entries →
      affinityStreamOwner score iid s = affinityStreamOwner score iid t) ∧
    (∀ s : ConnectedStreams, affinityStreamOwner score iid s = none ↔
      ∀ ss ∈ s.streams, ss.statefulHistory = false) ∧
    (∀ (s t : ConnectedStreams) (a b : ConnectedStream),
      affinityStreamOwner score iid s = some a → affinityStreamOwner score iid t = some b →
      (a ∈ s.streams ∧ a ∈ t.streams) → (b ∈ s.streams ∧ b ∈ t.streams) → a = b) ∧
    ∀ (s : ConnectedStreams) (streamID : String) (a : ConnectedStream),
      affinityStreamOwner score iid s = some a → a.id ≠ streamID →
      affinityStreamOwner score iid (s.disconnect streamID) = some a ∧
      ∀ capabilities b, affinityStreamOwner score iid (s.connect streamID capabilities) = some b →
        b.id ≠ streamID → a = b := by
  refine ⟨fun s t hperm => ?_, fun s => affinityStreamOwner_eq_none,
    fun s t a b ha hb hat hbs => affinityStreamOwner_unique ha hb hat.2 hbs.1,
    fun s streamID a ha hne => ⟨?_, fun capabilities b hb hnew => ?_⟩⟩
  · rw [affinityStreamOwner_eq, affinityStreamOwner_eq]
    exact Selection.argmax_perm (distinct_affinityKey score iid s) ((hperm.map Prod.snd).filter _)
  · have hmem := ConnectedStreams.mem_disconnect.mpr ⟨(mem_of_affinityStreamOwner ha).1, hne⟩
    rcases hb : affinityStreamOwner score iid (s.disconnect streamID) with _ | b
    · have hnone := affinityStreamOwner_eq_none.mp hb a hmem
      rw [(mem_of_affinityStreamOwner ha).2] at hnone
      cases hnone
    · have hbs := ConnectedStreams.mem_disconnect.mp (mem_of_affinityStreamOwner hb).1
      rw [affinityStreamOwner_unique ha hb hmem hbs.1]
  · exact affinityStreamOwner_unique ha hb
      ((ConnectedStreams.mem_connect hne).mpr (mem_of_affinityStreamOwner ha).1)
      ((ConnectedStreams.mem_connect hnew).mp (mem_of_affinityStreamOwner hb).1)

end

namespace AffinityExample

def three : ConnectedStreams :=
  ((ConnectedStreams.empty.connect "a" [.statefulHistory]).connect "b" [.unspecified, .statefulHistory]).connect
    "c" []

def score (_ : InstanceID) (streamID : String) : UInt64 := if streamID = "b" then 7 else 3

theorem owner_after_disconnect :
    affinityStreamOwner score "order-1" three = some (newStreamState "b" [.statefulHistory]) ∧
      affinityStreamOwner score "order-1" (three.disconnect "a") =
        some (newStreamState "b" [.statefulHistory]) := by
  have howner : affinityStreamOwner score "order-1" three =
      some (newStreamState "b" [.statefulHistory]) := by decide +kernel
  have hstable := affinityStreamOwner_minimal_disruption score "order-1"
  exact ⟨howner, (hstable.2.2.2 three "a" _ howner (by decide)).1⟩

end AffinityExample

end DurableTask
