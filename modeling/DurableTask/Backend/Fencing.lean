import DurableTask.Backend.Transport

/-!
# Fencing of transport attempts

However the goroutines of attempts, streams and completions interleave, a response is handed to the
backend for the attempt it names, once, and reaches no other attempt's waiter. The mutex of an attempt
keeps its reservation alive while a response is under way: `finish` cannot return before the backend
does.
-/

namespace DurableTask.Transport

/-- The goroutine of an attempt has a waiter to remove. -/
def Phase.owns (w : Nat) : Phase → Prop
  | .waiting w' | .leaving w' => w' = w
  | _ => False

namespace TransportAttempt

/-- In `finish` the attempt is terminal, and past its lock no response is under way. -/
structure Sound (p : TransportAttempt) : Prop where
  stopped : p.phase = .stopped ∨ p.phase = .finished ∨ p.phase = .retired → p.terminal = true
  finished : p.phase = .finished ∨ p.phase = .retired →
    ∀ token progress, p.mu = .complete token progress → progress = .locked

/-- A response was taken. -/
def Spent (p : TransportAttempt) : Prop :=
  p.terminal = true ∨ ∃ token, p.mu = .complete token .delivered

/-- What a step keeps of an attempt. -/
structure Moves (p q : TransportAttempt) : Prop where
  key : q.key = p.key
  token : q.token = p.token
  active : q.phase ≠ .retired → p.phase ≠ .retired
  sound : p.Sound → q.Sound
  spent : p.Spent → q.Spent

theorem Sound.of_eq {p q : TransportAttempt} (h : p.Sound) (hphase : q.phase = p.phase)
    (hterminal : p.terminal = true → q.terminal = true)
    (hmu : ∀ token progress, q.mu = .complete token progress →
      progress = .locked ∨ p.mu = .complete token progress) : q.Sound := by
  refine ⟨fun hq => ?_, fun hq token progress hm => ?_⟩
  · rw [hphase] at hq
    exact hterminal (h.stopped hq)
  · rw [hphase] at hq
    exact (hmu token progress hm).elim id (h.finished hq token progress)

/-- The goroutine of an attempt goes on, before `finish`. -/
theorem moves_phase {p : TransportAttempt} {phase : Phase} (hactive : p.phase ≠ .retired)
    (hphase : phase ≠ .stopped ∧ phase ≠ .finished ∧ phase ≠ .retired) :
    p.Moves { p with phase := phase } := by
  obtain ⟨hstopped, hfinished, hretired⟩ := hphase
  refine ⟨rfl, rfl, fun _ => hactive, fun _ => ⟨fun hq => ?_, fun hq => ?_⟩, id⟩
  · rcases hq with hq | hq | hq
    · exact absurd hq hstopped
    · exact absurd hq hfinished
    · exact absurd hq hretired
  · rcases hq with hq | hq
    · exact absurd hq hfinished
    · exact absurd hq hretired

theorem moves_step (p : TransportAttempt) (st : LocalStep) : p.Moves (p.step st) := by
  have hrefl : p.Moves p := ⟨rfl, rfl, id, id, id⟩
  have hstop : p.Moves p.stop :=
    ⟨rfl, rfl, id, fun h => h.of_eq rfl (fun _ => rfl) fun _ _ => .inr, fun _ => .inl rfl⟩
  cases st with
  | stop => exact hstop
  | stopForStream id =>
    unfold step stopForStream
    dsimp only
    split
    · exact hstop
    · exact hrefl
  | cancel => exact ⟨rfl, rfl, id, fun h => h.of_eq rfl id fun _ _ => .inr, id⟩
  | finishStop =>
    unfold step
    dsimp only
    split
    · next hphase =>
      refine ⟨rfl, rfl, fun _ => ?_, fun _ => ⟨fun _ => rfl, fun hq => ?_⟩, fun _ => .inl rfl⟩
      · rw [hphase]
        exact nofun
      · rcases hq with hq | hq <;> cases hq
    · exact hrefl
  | finishLock =>
    unfold step
    dsimp only
    split
    · next hphase =>
      obtain ⟨hphase, hmu⟩ := hphase
      refine ⟨rfl, rfl, fun _ => ?_, fun h => ⟨fun _ => h.stopped (.inl hphase), ?_⟩, id⟩
      · rw [hphase]
        exact nofun
      · intro _ token progress hm
        have hm : p.mu = .complete token progress := hm
        rw [hmu] at hm
        cases hm
    · exact hrefl
  | claimLock streamID token =>
    unfold step
    dsimp only
    split
    · next hp =>
      refine ⟨rfl, rfl, id, fun h => h.of_eq rfl id nofun, fun hspent => ?_⟩
      rcases hspent with hspent | ⟨token', hmu⟩
      · exact .inl hspent
      · rw [hp.1] at hmu
        cases hmu
    · exact hrefl
  | claimStore =>
    unfold step
    dsimp only
    split
    · next hmu =>
      refine ⟨rfl, rfl, id, fun h => h.of_eq rfl id nofun, fun hspent => ?_⟩
      rcases hspent with hspent | ⟨token', hmu'⟩
      · exact .inl hspent
      · rw [hmu] at hmu'
        cases hmu'
    · exact hrefl
  | completeLock token =>
    unfold step
    dsimp only
    split
    · next hmu =>
      refine ⟨rfl, rfl, id, fun h => h.of_eq rfl id ?_, fun hspent => ?_⟩
      · intro token' progress hm
        injection hm with _ hprogress
        exact .inl hprogress.symm
      · rcases hspent with hspent | ⟨token', hmu'⟩
        · exact .inl hspent
        · rw [hmu] at hmu'
          cases hmu'
    · exact hrefl
  | completeRecord =>
    unfold step
    dsimp only
    split
    · exact ⟨rfl, rfl, id, fun h => h.of_eq rfl (fun _ => rfl) nofun, fun _ => .inl rfl⟩
    · exact hrefl

/-- No step of the attempt alone gives up its waiter or starts to hand over a response. -/
theorem step_keeps (p : TransportAttempt) (st : LocalStep) :
    (∀ w, p.phase.owns w → (p.step st).phase.owns w) ∧
      ∀ token, (p.step st).mu = .complete token .delivering → p.mu = .complete token .delivering := by
  cases st with
  | stop | cancel => exact ⟨fun _ => id, fun _ => id⟩
  | stopForStream id =>
    unfold step stopForStream
    dsimp only
    split <;> exact ⟨fun _ h => h, fun _ h => h⟩
  | finishStop =>
    unfold step
    dsimp only
    split
    · next hphase =>
      refine ⟨fun w hw => ?_, fun _ => id⟩
      rw [hphase] at hw
      exact hw.elim
    · exact ⟨fun _ => id, fun _ => id⟩
  | finishLock =>
    unfold step
    dsimp only
    split
    · next hphase =>
      refine ⟨fun w hw => ?_, fun _ => id⟩
      rw [hphase.1] at hw
      exact hw.elim
    · exact ⟨fun _ => id, fun _ => id⟩
  | claimLock | claimStore | completeLock | completeRecord =>
    unfold step
    dsimp only
    split
    · exact ⟨fun _ => id, nofun⟩
    · exact ⟨fun _ => id, fun _ => id⟩

end TransportAttempt

namespace System

variable {strict : Bool} {s : System} {a : Nat} {p : TransportAttempt}

/-- The invariant. An attempt holds its reservation until it retires, and a waiter in the backend's
registry is owned by an attempt under its key. -/
structure Fenced (strict : Bool) (s : System) : Prop where
  active : ∀ a p, s.attempts[a]? = some p → p.phase ≠ .retired → Assoc.get? s.registry p.key = some a
  owned : ∀ k w, Assoc.get? s.pending k = some w → ∃ x p, s.waiters[w]? = some x ∧
    s.attempts[x.attempt]? = some p ∧ p.key = k ∧ p.phase.owns w
  sound : ∀ (a : Nat) (p : TransportAttempt), s.attempts[a]? = some p → p.Sound
  handing : ∀ a p token, s.attempts[a]? = some p → p.mu = .complete token .delivering →
    (∀ d ∈ s.deliveries, d.attempt ≠ a) ∧ ∃ h ∈ s.handOffs, h.attempt = a ∧ h.token = token
  spent : ∀ d ∈ s.deliveries, ∀ p, s.attempts[d.attempt]? = some p → p.Spent
  once : (s.deliveries.map Delivery.attempt).Nodup
  reached : ∀ d ∈ s.deliveries, (∃ x, s.waiters[d.waiter]? = some x ∧ x.attempt = d.attempt) ∧
    ∃ h ∈ s.handOffs, h.attempt = d.attempt ∧ h.token = d.token
  checked : ∀ h ∈ s.handOffs, h.streamID ≠ none ∧ h.terminal = false ∧
    (strict = true → h.token ≠ "") ∧
    ∃ p, s.attempts[h.attempt]? = some p ∧ (h.token ≠ "" → h.token = p.token)
  tokens : (s.attempts.map TransportAttempt.token).Nodup

/-- One attempt moves on. -/
theorem Fenced.modify (h : s.Fenced strict) (hp : s.attempts[a]? = some p)
    {f : TransportAttempt → TransportAttempt} (hmoves : p.Moves (f p))
    (howns : ∀ w, Assoc.get? s.pending p.key = some w → p.phase.owns w → (f p).phase.owns w)
    (hhanding : ∀ token, (f p).mu = .complete token .delivering →
      (∀ d ∈ s.deliveries, d.attempt ≠ a) ∧ ∃ h ∈ s.handOffs, h.attempt = a ∧ h.token = token) :
    (s.modify a f).Fenced strict := by
  have hcases {b : Nat} {q : TransportAttempt} (hq : (s.modify a f).attempts[b]? = some q) :
      s.attempts[b]? = some q ∨ b = a ∧ q = f p := by
    rcases Run.getElem?_modify_cases hq with ⟨-, hq⟩ | ⟨hb, p', hp', heq⟩
    · exact .inl hq
    · rw [hp] at hp'
      cases hp'
      exact .inr ⟨hb, heq⟩
  -- Looking up an attempt that was there.
  have hget {b : Nat} {q : TransportAttempt} (hq : s.attempts[b]? = some q) :
      ∃ q', (s.modify a f).attempts[b]? = some q' ∧ q'.key = q.key ∧ q'.token = q.token ∧
        ∀ w, Assoc.get? s.pending q.key = some w → q.phase.owns w → q'.phase.owns w := by
    refine ⟨_, Run.getElem?_modify_of_eq_some hq, ?_⟩
    split
    · next hb =>
      subst hb
      rw [hp] at hq
      cases hq
      exact ⟨hmoves.key, hmoves.token, howns⟩
    · exact ⟨rfl, rfl, fun _ _ => id⟩
  refine ⟨fun b q hq hactive => ?_, fun k w hw => ?_, fun b q hq => ?_, fun b q token hq hmu => ?_,
    fun d hd q hq => ?_, h.once, h.reached, fun x hx => ?_, ?_⟩
  · rcases hcases hq with hq | ⟨rfl, rfl⟩
    · exact h.active b q hq hactive
    · rw [hmoves.key]
      exact h.active b p hp (hmoves.active hactive)
  · obtain ⟨x, q, hx, hq, hkey, howns⟩ := h.owned k w hw
    obtain ⟨q', hq', hkey', -, howns'⟩ := hget hq
    exact ⟨x, q', hx, hq', hkey'.trans hkey, howns' w (hkey ▸ hw) howns⟩
  · rcases hcases hq with hq | ⟨rfl, rfl⟩
    · exact h.sound b q hq
    · exact hmoves.sound (h.sound b p hp)
  · rcases hcases hq with hq | ⟨rfl, rfl⟩
    · exact h.handing b q token hq hmu
    · exact hhanding token hmu
  · rcases hcases hq with hq | ⟨heq, rfl⟩
    · exact h.spent d hd q hq
    · exact hmoves.spent (h.spent d hd p (heq ▸ hp))
  · obtain ⟨hstream, hterminal, hstrict, q, hq, htoken⟩ := h.checked x hx
    obtain ⟨q', hq', -, htoken', -⟩ := hget hq
    exact ⟨hstream, hterminal, hstrict, q', hq', fun hne => (htoken hne).trans htoken'.symm⟩
  · have hmap : (s.modify a f).attempts.map TransportAttempt.token =
        s.attempts.map TransportAttempt.token := by
      refine List.ext_getElem? fun b => ?_
      rw [List.getElem?_map, List.getElem?_map]
      cases hq : s.attempts[b]? with
      | none =>
        unfold System.modify
        rw [List.getElem?_modify, hq]
        rfl
      | some q =>
        obtain ⟨q', hq', -, htoken', -⟩ := hget hq
        rw [hq']
        exact congrArg some htoken'
    rw [hmap]
    exact h.tokens

/-- An attempt that keeps its waiter and hands nothing over. -/
theorem Fenced.modify_quiet (h : s.Fenced strict) (hp : s.attempts[a]? = some p)
    {f : TransportAttempt → TransportAttempt} (hmoves : p.Moves (f p))
    (howns : ∀ w, p.phase.owns w → (f p).phase.owns w)
    (hmu : ∀ token, (f p).mu = .complete token .delivering → p.mu = .complete token .delivering) :
    (s.modify a f).Fenced strict :=
  h.modify hp hmoves (fun w _ => howns w) fun token hq => h.handing a p token hp (hmu token hq)

/-- The attempt that has moved on. -/
theorem getElem?_modify_self (hp : s.attempts[a]? = some p) (f : TransportAttempt → TransportAttempt) :
    (s.modify a f).attempts[a]? = some (f p) := by
  have hq := Run.getElem?_modify_of_eq_some (i := a) (g := f) hp
  rw [if_pos rfl] at hq
  exact hq

theorem Fenced.registerAttempt (h : s.Fenced strict) (key : Key) {token : String}
    (hfresh : ∀ p ∈ s.attempts, p.token ≠ token) : (s.registerAttempt key token).Fenced strict := by
  unfold System.registerAttempt
  split
  · exact h
  · next hfree =>
    have hnone : Assoc.get? s.registry key = none :=
      Option.not_isSome_iff_eq_none.mp (not_or.mp hfree).2
    refine ⟨fun b q hq hactive => ?_, fun k w hw => ?_, fun b q hq => ?_, fun b q t hq hmu => ?_,
      fun d hd q hq => ?_, h.once, h.reached, fun x hx => ?_, ?_⟩
    · rcases Run.getElem?_concat_cases hq with hq | ⟨rfl, rfl⟩
      · have hactive := h.active b q hq hactive
        have hne : key ≠ q.key := by
          rintro rfl
          rw [hnone] at hactive
          cases hactive
        exact (Assoc.get?_insert_of_ne hne).trans hactive
      · exact Assoc.get?_insert_self ..
    · obtain ⟨x, p, hx, hp, hkey⟩ := h.owned k w hw
      exact ⟨x, p, hx, Run.getElem?_concat_of_eq_some hp, hkey⟩
    · rcases Run.getElem?_concat_cases hq with hq | ⟨-, rfl⟩
      · exact h.sound b q hq
      · refine ⟨fun hq => ?_, fun hq => ?_⟩
        · rcases hq with hq | hq | hq <;> cases hq
        · rcases hq with hq | hq <;> cases hq
    · rcases Run.getElem?_concat_cases hq with hq | ⟨-, rfl⟩
      · exact h.handing b q t hq hmu
      · cases hmu
    · rcases Run.getElem?_concat_cases hq with hq | ⟨hlen, -⟩
      · exact h.spent d hd q hq
      · -- The attempt of a delivery was registered before.
        obtain ⟨-, x, hx, hattempt, -⟩ := h.reached d hd
        obtain ⟨-, -, -, p, hp, -⟩ := h.checked x hx
        rw [hattempt, hlen, List.getElem?_eq_none (Nat.le_refl _)] at hp
        cases hp
    · obtain ⟨hstream, hterminal, hstrict, p, hp, htoken⟩ := h.checked x hx
      exact ⟨hstream, hterminal, hstrict, p, Run.getElem?_concat_of_eq_some hp, htoken⟩
    · rw [List.map_append, List.nodup_append]
      refine ⟨h.tokens, List.nodup_cons.mpr ⟨List.not_mem_nil, .nil⟩, ?_⟩
      rintro t ht t' ht' rfl
      obtain ⟨p, hp, rfl⟩ := List.mem_map.mp ht
      exact hfresh p hp (List.mem_singleton.mp ht')

/-- Entries leave the backend's registry. -/
theorem Fenced.dropPending (h : s.Fenced strict) {pending : List (Key × Nat)}
    (hsub : ∀ k w, Assoc.get? pending k = some w → Assoc.get? s.pending k = some w) :
    ({ s with pending := pending } : System).Fenced strict :=
  ⟨h.active, fun k w hw => h.owned k w (hsub k w hw), h.sound, h.handing, h.spent, h.once, h.reached,
    h.checked, h.tokens⟩

theorem get?_erase {m : List (Key × Nat)} {key k : Key} {n : Nat}
    (h : Assoc.get? (Assoc.erase m key) k = some n) : key ≠ k ∧ Assoc.get? m k = some n := by
  by_cases hk : key = k
  · subst hk
    rw [Assoc.get?_erase_self] at h
    cases h
  · rw [Assoc.get?_erase_of_ne hk] at h
    exact ⟨hk, h⟩

theorem get?_compareAndDelete {m : List (Key × Nat)} {key k : Key} {n n' : Nat}
    (h : Assoc.get? (compareAndDelete m key n) k = some n') :
    Assoc.get? m k = some n' ∧ (key = k → n' ≠ n) := by
  unfold compareAndDelete at h
  split at h
  · obtain ⟨hk, hget⟩ := get?_erase h
    exact ⟨hget, fun heq => absurd heq hk⟩
  · next hne =>
    refine ⟨h, ?_⟩
    rintro rfl rfl
    exact hne h

theorem Fenced.completeWaiter (h : s.Fenced strict) (key : Key) (w : Nat) :
    (s.completeWaiter key w).Fenced strict := by
  have hwaiter {i : Nat} {x : Waiter} (hx : s.waiters[i]? = some x) :
      ∃ y, (s.completeWaiter key w).waiters[i]? = some y ∧ y.attempt = x.attempt := by
    refine ⟨_, Run.getElem?_modify_of_eq_some hx, ?_⟩
    split <;> rfl
  refine ⟨h.active, fun k w' hw' => ?_, h.sound, h.handing, h.spent, h.once, fun d hd => ?_, h.checked,
    h.tokens⟩
  · obtain ⟨x, p, hx, hp, hkey⟩ := h.owned k w' (get?_erase hw').2
    obtain ⟨y, hy, hattempt⟩ := hwaiter hx
    exact ⟨y, p, hy, hattempt ▸ hp, hkey⟩
  · obtain ⟨⟨x, hx, hattempt⟩, hnoted⟩ := h.reached d hd
    obtain ⟨y, hy, hy'⟩ := hwaiter hx
    exact ⟨⟨y, hy, hy'.trans hattempt⟩, hnoted⟩

/-- A waiter is registered for an attempt that owns it. -/
theorem Fenced.addWaiter (h : s.Fenced strict) (hp : s.attempts[a]? = some p)
    (howns : p.phase.owns s.waiters.length) :
    ({ s with
      waiters := s.waiters ++ [{ attempt := a }]
      pending := Assoc.insert s.pending p.key s.waiters.length } : System).Fenced strict := by
  refine ⟨h.active, fun k w hw => ?_, h.sound, h.handing, h.spent, h.once, fun d hd => ?_, h.checked,
    h.tokens⟩
  · by_cases hk : p.key = k
    · subst hk
      have hw : Assoc.get? (Assoc.insert s.pending p.key s.waiters.length) p.key = some w := hw
      rw [Assoc.get?_insert_self] at hw
      cases hw
      exact ⟨_, p, List.getElem?_concat_length, hp, rfl, howns⟩
    · have hw : Assoc.get? (Assoc.insert s.pending p.key s.waiters.length) k = some w := hw
      rw [Assoc.get?_insert_of_ne hk] at hw
      obtain ⟨x, q, hx, hq⟩ := h.owned k w hw
      exact ⟨x, q, Run.getElem?_concat_of_eq_some hx, hq⟩
  · obtain ⟨⟨x, hx, hattempt⟩, hnoted⟩ := h.reached d hd
    exact ⟨⟨x, Run.getElem?_concat_of_eq_some hx, hattempt⟩, hnoted⟩

/-- A retired attempt gives up its reservation, and only its own. -/
theorem Fenced.dropReservation (h : s.Fenced strict) (hp : s.attempts[a]? = some p)
    (hretired : p.phase = .retired) (key : Key) :
    ({ s with registry := compareAndDelete s.registry key a } : System).Fenced strict := by
  refine ⟨fun b q hq hactive => ?_, h.owned, h.sound, h.handing, h.spent, h.once, h.reached, h.checked,
    h.tokens⟩
  have hb := h.active b q hq hactive
  have hne : b ≠ a := by
    rintro rfl
    rw [hp] at hq
    cases hq
    exact hactive hretired
  unfold compareAndDelete
  dsimp only
  split
  · next ha =>
    by_cases hk : key = q.key
    · rw [hk, hb] at ha
      exact absurd (Option.some.inj ha) hne
    · rw [Assoc.get?_erase_of_ne hk]
      exact hb
  · exact hb

/-- A response is handed over for an attempt that is claimed and not terminal. -/
theorem Fenced.addHandOff (h : s.Fenced strict) (hp : s.attempts[a]? = some p) {token : String}
    (hcheck : p.checkComplete strict token = .ok ()) :
    ({ s with handOffs := s.handOffs ++ [⟨a, token, p.streamID, p.terminal⟩] } : System).Fenced
      strict := by
  unfold TransportAttempt.checkComplete at hcheck
  split at hcheck
  · cases hcheck
  · next hpending =>
    split at hcheck
    · cases hcheck
    · next hvalid =>
      obtain ⟨hterminal, hstream⟩ := not_or.mp hpending
      obtain ⟨hstrict, htoken⟩ := not_or.mp hvalid
      refine ⟨h.active, h.owned, h.sound, fun b q t hq hmu => ?_, h.spent, h.once, fun d hd => ?_, ?_,
        h.tokens⟩
      · obtain ⟨hnone, x, hx, hx'⟩ := h.handing b q t hq hmu
        exact ⟨hnone, x, List.mem_append_left _ hx, hx'⟩
      · obtain ⟨hwaiter, x, hx, hx'⟩ := h.reached d hd
        exact ⟨hwaiter, x, List.mem_append_left _ hx, hx'⟩
      · refine Run.forall_mem_concat h.checked ⟨hstream, Bool.eq_false_iff.mpr hterminal, ?_, p, hp, ?_⟩
        · exact fun hs hempty => hstrict ⟨hempty, hs⟩
        · exact fun hne => not_not.mp fun hdiff => htoken ⟨hne, hdiff⟩

/-- The backend takes a response for an attempt it has taken none for. -/
theorem Fenced.addDelivery (h : s.Fenced strict) (hp : s.attempts[a]? = some p) {token : String}
    {w : Nat} (hmu : p.mu = .complete token .delivered) (hfirst : ∀ d ∈ s.deliveries, d.attempt ≠ a)
    (hwaiter : ∃ x, s.waiters[w]? = some x ∧ x.attempt = a)
    (hnoted : ∃ x ∈ s.handOffs, x.attempt = a ∧ x.token = token) :
    ({ s with deliveries := s.deliveries ++ [⟨a, token, w⟩] } : System).Fenced strict := by
  refine ⟨h.active, h.owned, h.sound, fun b q t hq hdelivering => ?_, ?_, ?_, ?_, h.checked, h.tokens⟩
  · obtain ⟨hnone, hx⟩ := h.handing b q t hq hdelivering
    refine ⟨Run.forall_mem_concat hnone ?_, hx⟩
    rintro rfl
    rw [hp] at hq
    cases hq
    rw [hmu] at hdelivering
    cases hdelivering
  · refine Run.forall_mem_concat h.spent fun q hq => ?_
    rw [hp] at hq
    cases hq
    exact .inr ⟨token, hmu⟩
  · rw [List.map_append, List.nodup_append]
    refine ⟨h.once, List.nodup_cons.mpr ⟨List.not_mem_nil, .nil⟩, ?_⟩
    rintro b hb b' hb' rfl
    obtain ⟨d, hd, rfl⟩ := List.mem_map.mp hb
    exact hfirst d hd (List.mem_singleton.mp hb')
  · exact Run.forall_mem_concat h.reached ⟨hwaiter, hnoted⟩

/-! ### Steps -/

theorem Fenced.registerCompletion (h : s.Fenced strict) (hp : s.attempts[a]? = some p)
    (hphase : p.phase = .registered) : (s.registerCompletion a p).Fenced strict := by
  have hmove {phase : Phase} (hne : phase ≠ .stopped ∧ phase ≠ .finished ∧ phase ≠ .retired) :
      (s.modify a fun p => { p with phase := phase }).Fenced strict := by
    refine h.modify_quiet hp (TransportAttempt.moves_phase (hphase ▸ nofun) hne) (fun w hw => ?_)
      fun _ => id
    rw [hphase] at hw
    exact hw.elim
  unfold System.registerCompletion
  split
  · exact hmove ⟨nofun, nofun, nofun⟩
  · have hwaiting : (s.modify a fun p => { p with phase := .waiting s.waiters.length }).Fenced strict :=
      hmove ⟨nofun, nofun, nofun⟩
    have hq := getElem?_modify_self hp fun p => { p with phase := .waiting s.waiters.length }
    exact Fenced.addWaiter (p := { p with phase := .waiting s.waiters.length }) hwaiting hq rfl

theorem Fenced.wait (h : s.Fenced strict) (hp : s.attempts[a]? = some p) {w : Nat}
    (hphase : p.phase = .waiting w) :
    (s.modify a fun p => { p with phase := .leaving w }).Fenced strict := by
  refine h.modify_quiet hp (TransportAttempt.moves_phase (hphase ▸ nofun) ⟨nofun, nofun, nofun⟩)
    (fun w' hw' => ?_) fun _ => id
  rw [hphase] at hw'
  exact hw'

theorem Fenced.removeWaiter (h : s.Fenced strict) (hp : s.attempts[a]? = some p) {w : Nat}
    (hphase : p.phase = .leaving w) :
    ({ s.modify a (fun p => { p with phase := .returning }) with
      pending := compareAndDelete s.pending p.key w } : System).Fenced strict := by
  have hdropped : ({ s with pending := compareAndDelete s.pending p.key w } : System).Fenced strict :=
    h.dropPending fun k w' hw' => (get?_compareAndDelete hw').1
  refine hdropped.modify hp (TransportAttempt.moves_phase (hphase ▸ nofun) ⟨nofun, nofun, nofun⟩)
    (fun w' hw' howns => ?_) fun token => h.handing a p token hp
  -- The only waiter it owned is gone.
  rw [hphase] at howns
  exact absurd howns.symm ((get?_compareAndDelete hw').2 rfl)

theorem Fenced.retire (h : s.Fenced strict) (hp : s.attempts[a]? = some p)
    (hphase : p.phase = .finished) :
    ({ s.modify a (fun p => { p with phase := .retired }) with
      registry := compareAndDelete s.registry p.key a } : System).Fenced strict := by
  have hretired : (s.modify a fun p => { p with phase := .retired }).Fenced strict := by
    refine h.modify_quiet hp ⟨rfl, rfl, fun hne => absurd rfl hne, fun hs => ?_, id⟩ (fun w hw => ?_)
      fun _ => id
    · exact ⟨fun _ => hs.stopped (.inr (.inl hphase)), fun _ => hs.finished (.inl hphase)⟩
    · rw [hphase] at hw
      exact hw.elim
  exact hretired.dropReservation (getElem?_modify_self hp _) rfl p.key

/-- The lock is given back without a response taken. -/
theorem Fenced.unlock (h : s.Fenced strict) (hp : s.attempts[a]? = some p) {token : String}
    {progress : Progress} (hmu : p.mu = .complete token progress) (hne : progress ≠ .delivered) :
    (s.modify a fun p => { p with mu := .free }).Fenced strict := by
  refine h.modify_quiet hp ⟨rfl, rfl, id, fun hs => hs.of_eq rfl id nofun, fun hspent => ?_⟩
    (fun _ => id) nofun
  rcases hspent with hspent | ⟨token', hmu'⟩
  · exact .inl hspent
  · rw [hmu] at hmu'
    injection hmu' with _ hprogress
    exact absurd hprogress hne

theorem Fenced.completeCheck (h : s.Fenced strict) (hp : s.attempts[a]? = some p) {token : String}
    (hmu : p.mu = .complete token .locked) : (s.completeCheck strict a p token).Fenced strict := by
  unfold System.completeCheck
  split
  · exact h.unlock hp hmu nofun
  · next hcheck =>
    have hterminal : p.terminal ≠ true := by
      unfold TransportAttempt.checkComplete at hcheck
      split at hcheck
      · cases hcheck
      · next hpending => exact (not_or.mp hpending).1
    have hunspent : ¬p.Spent := by
      rintro (hspent | ⟨token', hmu'⟩)
      · exact hterminal hspent
      · rw [hmu] at hmu'
        cases hmu'
    refine (h.addHandOff hp hcheck).modify hp ⟨rfl, rfl, id, fun hs => ?_, fun hs => absurd hs hunspent⟩
      (fun _ _ => id) fun t hq => ?_
    · exact ⟨hs.stopped, fun hq => absurd (hs.stopped (.inr hq)) hterminal⟩
    · injection hq with htoken _
      refine ⟨fun d hd hd' => hunspent (h.spent d hd p (hd' ▸ hp)),
        ⟨a, token, p.streamID, p.terminal⟩, ?_, rfl, htoken⟩
      exact List.mem_append_right _ (List.mem_singleton_self _)

/-- While a response is under way its attempt holds the reservation, so that the waiter under its key
is its own. -/
theorem Fenced.waiter_of_pending (h : s.Fenced strict) (hp : s.attempts[a]? = some p)
    {token : String} (hmu : p.mu = .complete token .delivering) {w : Nat}
    (hw : Assoc.get? s.pending p.key = some w) : ∃ x, s.waiters[w]? = some x ∧ x.attempt = a := by
  obtain ⟨x, q, hx, hq, hkey, howns⟩ := h.owned p.key w hw
  have hactive := h.active a p hp fun hretired => by
    have := (h.sound a p hp).finished (.inr hretired) token .delivering hmu
    cases this
  have hother := h.active x.attempt q hq fun hretired => by
    rw [hretired] at howns
    exact howns
  rw [hkey, hactive] at hother
  exact ⟨x, hx, (Option.some.inj hother).symm⟩

theorem Fenced.deliver (h : s.Fenced strict) (hp : s.attempts[a]? = some p) {token : String}
    (hmu : p.mu = .complete token .delivering) (fails : Bool) :
    (s.deliver a p token fails).Fenced strict := by
  unfold System.deliver
  split
  · exact h.unlock hp hmu (by rintro ⟨⟩)
  · next w hw =>
    have hw : Assoc.get? s.pending p.key = some w := by
      split at hw
      · cases hw
      · exact hw
    obtain ⟨hfirst, hnoted⟩ := h.handing a p token hp hmu
    obtain ⟨x, hx, hattempt⟩ := h.waiter_of_pending hp hmu hw
    have hnext : ((s.completeWaiter p.key w).modify a
        fun p => { p with mu := .complete token .delivered }).Fenced strict := by
      refine (h.completeWaiter p.key w).modify hp
        ⟨rfl, rfl, id, fun hs => ⟨hs.stopped, fun hq => ?_⟩, fun _ => .inr ⟨token, rfl⟩⟩
        (fun _ _ => id) (by rintro _ ⟨⟩)
      cases hs.finished hq token .delivering hmu
    refine hnext.addDelivery (getElem?_modify_self hp _) rfl hfirst ?_ hnoted
    refine ⟨_, Run.getElem?_modify_of_eq_some hx, ?_⟩
    rw [if_pos rfl]
    exact hattempt

/-- Tokens are fresh. -/
def Fresh (s : System) : Op → Prop
  | .registerAttempt _ token => ∀ p ∈ s.attempts, p.token ≠ token
  | _ => True

/-- One step. -/
theorem Fenced.exec {op : Op} (h : s.Fenced strict) (hop : s.Fresh op) :
    (s.exec strict op).Fenced strict := by
  cases op with
  | registerAttempt key token => exact h.registerAttempt key hop
  | registerCompletion a =>
    unfold System.exec
    dsimp only
    split
    · exact h
    · next p hp =>
      split
      · next hphase => exact h.registerCompletion hp hphase
      · exact h
  | wait a =>
    unfold System.exec
    dsimp only
    split
    · exact h
    · next p hp =>
      split
      · next w hphase =>
        split
        · exact h.wait hp hphase
        · exact h
      · exact h
  | removeWaiter a =>
    unfold System.exec
    dsimp only
    split
    · exact h
    · next p hp =>
      split
      · next w hphase => exact h.removeWaiter hp hphase
      · exact h
  | retire a =>
    unfold System.exec
    dsimp only
    split
    · exact h
    · next p hp =>
      split
      · next hphase => exact h.retire hp hphase
      · exact h
  | localStep a step =>
    cases hp : s.attempts[a]? with
    | none =>
      have hsame : s.exec strict (.localStep a step) = s := by
        unfold System.exec System.modify
        dsimp only
        rw [List.modify_eq_self (List.getElem?_eq_none_iff.mp hp)]
      rw [hsame]
      exact h
    | some p => exact h.modify_quiet hp (p.moves_step step) (p.step_keeps step).1 (p.step_keeps step).2
  | completeCheck a =>
    unfold System.exec
    dsimp only
    split
    · exact h
    · next p hp =>
      split
      · next token hmu => exact h.completeCheck hp hmu
      · exact h
  | deliver a fails =>
    unfold System.exec
    dsimp only
    split
    · exact h
    · next p hp =>
      split
      · next token hmu => exact h.deliver hp hmu fails
      · exact h
  | cancelTask key =>
    unfold System.exec
    dsimp only
    split
    · exact h
    · exact h.completeWaiter key _
  | shutdown =>
    exact ⟨h.active, h.owned, h.sound, h.handing, h.spent, h.once, h.reached, h.checked, h.tokens⟩

/-- In every run with fresh tokens: a response is handed to the backend for an attempt that a stream
has claimed and that is not terminal; with a token, for the one attempt that has the token, and without
one only if tokens are not required. The backend takes one response for an attempt, and it reaches the
waiter that this attempt registered. -/
theorem attempts_fenced (strict : Bool) (ops : List Op)
    (hops : Run.Along (exec · strict) {} Fresh ops) :
    (∀ h ∈ (run strict ops).handOffs, h.streamID ≠ none ∧ h.terminal = false ∧
      (strict = true → h.token ≠ "") ∧
      (h.token ≠ "" → ∃ p, (run strict ops).attempts[h.attempt]? = some p ∧ p.token = h.token ∧
        ∀ b q, (run strict ops).attempts[b]? = some q → q.token = h.token → b = h.attempt)) ∧
    ((run strict ops).deliveries.map Delivery.attempt).Nodup ∧
    ∀ d ∈ (run strict ops).deliveries,
      (∃ h ∈ (run strict ops).handOffs, h.attempt = d.attempt ∧ h.token = d.token) ∧
      ∃ x, (run strict ops).waiters[d.waiter]? = some x ∧ x.attempt = d.attempt := by
  have h : (run strict ops).Fenced strict := by
    refine hops.invariant (I := Fenced strict) ?_ fun s op hop h => h.exec hop
    exact ⟨nofun, nofun, nofun, nofun, nofun, .nil, nofun, nofun, .nil⟩
  refine ⟨fun x hx => ?_, h.once, fun d hd => ?_⟩
  · obtain ⟨hstream, hterminal, hstrict, p, hp, htoken⟩ := h.checked x hx
    refine ⟨hstream, hterminal, hstrict, fun hne => ⟨p, hp, (htoken hne).symm, fun b q hq hqt => ?_⟩⟩
    -- Two attempts with one token are one.
    have hmap (c : Nat) : ((run strict ops).attempts.map TransportAttempt.token)[c]? =
        ((run strict ops).attempts[c]?).map TransportAttempt.token := List.getElem?_map ..
    refine (List.getElem?_inj ?_ h.tokens).mp ?_
    · rw [List.length_map]
      exact (List.getElem?_eq_some_iff.mp hq).1
    · rw [hmap, hmap, hq, hp]
      exact congrArg some (hqt.trans (htoken hne))
  · obtain ⟨hwaiter, hnoted⟩ := h.reached d hd
    exact ⟨hnoted, hwaiter⟩

end System

namespace FencingExample

/-- An attempt that is cancelled while the backend is slow: it has returned from `wait` when its response
is taken, and its successor is turned away. -/
def ops : List Op :=
  [.registerAttempt (.workflow "a") "t1", .registerCompletion 0,
   .localStep 0 (.claimLock "stream" "t1"), .localStep 0 .claimStore,
   .localStep 0 (.completeLock "t1"), .completeCheck 0, .localStep 0 .cancel, .wait 0,
   .deliver 0 false, .removeWaiter 0, .localStep 0 .finishStop, .localStep 0 .finishLock,
   .registerAttempt (.workflow "a") "t2", .localStep 0 .completeRecord, .localStep 0 .finishLock,
   .retire 0, .registerAttempt (.workflow "a") "t2"]

theorem response_reaches_own_waiter :
    (System.run true ops).deliveries = [⟨0, "t1", 0⟩] ∧
      (System.run true ops).attempts.map TransportAttempt.token = ["t1", "t2"] ∧
      ∃ x, (System.run true ops).waiters[0]? = some x ∧ x.attempt = 0 := by
  have hops : Run.Along (System.exec · true) {} System.Fresh ops := by
    refine .cons (fun _ h => absurd h List.not_mem_nil) (.cons trivial (.cons trivial (.cons trivial
      (.cons trivial (.cons trivial (.cons trivial (.cons trivial (.cons trivial (.cons trivial
      (.cons trivial (.cons trivial (.cons ?_ (.cons trivial (.cons trivial (.cons trivial
      (.cons ?_ .nil))))))))))))))))
    · change ∀ p ∈ _, TransportAttempt.token p ≠ "t2"
      decide
    · change ∀ p ∈ _, TransportAttempt.token p ≠ "t2"
      decide
  refine ⟨by decide, by decide, ?_⟩
  exact ((System.attempts_fenced true ops hops).2.2 ⟨0, "t1", 0⟩ (by decide)).2

end FencingExample

end DurableTask.Transport
