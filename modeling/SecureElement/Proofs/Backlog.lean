import SecureElement.Link.Rehearsal
import SecureElement.Link.Traced
import SecureElement.Proofs.Ensures
import SecureElement.Session.Receive

/-!
# What a link can still bring

A session answers requests of its peer for as long as they come, and the number of
rounds that it has for them is read off the backlog of its link. `Link.Truthful` says
what a backlog has to be for that: whatever is brought comes out of it. A rehearsed
link is of this kind, and so is the record of any such link.

Below an exchange every step then ends (`Returns`), and one that has a block to show
has taken something off the backlog (`Brings`). The loop that waits for a block has
the backlog for its variant (`awaitBlock_brings`).
-/

namespace SecureElement

open Link

/-- How many octets a read brought. -/
def Link.brought : Except Link.Fault Bytes → Nat
  | .ok bytes => bytes.length
  | .error _ => 0

/-- A backlog that is true to its name: whatever is brought comes out of it, and nothing that a
session does adds to it. -/
class Link.Truthful (L : Type) [Link L] : Prop where
  read : ∀ (n : Nat) (timeout : Nanos) (link : L),
    backlog (read n timeout link).2 + brought (read n timeout link).1 ≤ backlog link
  write : ∀ (bytes : Bytes) (timeout : Nanos) (link : L),
    backlog (write bytes timeout link).2 ≤ backlog link

namespace Link

namespace Rehearsal

/-- The octets that are laid down for later reads. -/
def laidDown (readings : List Reading) : Nat :=
  readings.foldr (fun reading n => reading.size + n) 0

/-- What is handed out of a delivery is unread no more. -/
theorem unread_deliver (r : Rehearsal) (n : Nat) (d : Delivery) :
    (r.deliver n d).2.unread + (r.deliver n d).1.length =
      d.bytes.length + laidDown r.readings := by
  have hsplit := congrArg List.length (List.take_append_drop (min n (d.chunk.getD n)) d.bytes)
  rw [List.length_append] at hsplit
  unfold deliver unread
  dsimp only
  change _ + laidDown r.readings + _ = _
  split
  · rename_i hempty
    rw [List.isEmpty_iff.mp hempty] at hsplit
    rw [List.length_nil] at hsplit
    simp only [Option.map_none, Option.getD_none]
    omega
  · simp only [Option.map_some, Option.getD_some]
    omega

theorem unread_upset (r : Rehearsal) (timeout : Nanos) (u : Upset) :
    (r.upset timeout u).2.unread = r.unread := by
  cases u with
  | fault fault => rfl
  | silence => rfl

/-- Whatever a read brings was laid down. -/
theorem unread_read (n : Nat) (timeout : Nanos) (r : Rehearsal) :
    (Rehearsal.read n timeout r).2.unread + brought (Rehearsal.read n timeout r).1 ≤ r.unread := by
  cases hcurrent : r.current with
  | some d =>
      have hread := unread_deliver r n d
      have hunread : r.unread = d.bytes.length + laidDown r.readings := by
        unfold unread
        rw [hcurrent]
        rfl
      simp only [Rehearsal.read, hcurrent, brought]
      omega
  | none =>
      have hunread : r.unread = laidDown r.readings := by
        unfold unread
        rw [hcurrent]
        exact Nat.zero_add _
      cases hreadings : r.readings with
      | nil =>
          simp only [Rehearsal.read, hcurrent, hreadings, brought]
          exact Nat.le_refl _
      | cons reading rest =>
          have hsum : laidDown r.readings = reading.size + laidDown rest := by
            rw [hreadings]
            rfl
          cases houtcome : reading.outcome with
          | error u =>
              have hlater : ({ r with
                  readings := rest, current := none, clock := r.clock + reading.delay } :
                  Rehearsal).unread = laidDown rest := Nat.zero_add _
              simp only [Rehearsal.read, hcurrent, hreadings, houtcome, brought, unread_upset]
              omega
          | ok d =>
              have hsize : reading.size = d.bytes.length := by
                unfold Reading.size
                rw [houtcome]
              have hread := unread_deliver
                { r with readings := rest, current := none, clock := r.clock + reading.delay } n d
              simp only [Rehearsal.read, hcurrent, hreadings, houtcome, brought]
              dsimp only at hread
              omega

theorem unread_write (bytes : Bytes) (timeout : Nanos) (r : Rehearsal) :
    (Rehearsal.write bytes timeout r).2.unread = r.unread := by
  unfold Rehearsal.write
  split
  · rfl
  · dsimp only
    split
    · exact unread_upset _ _ _
    · rfl

instance : Truthful Rehearsal where
  read := unread_read
  write bytes timeout r := Nat.le_of_eq (unread_write bytes timeout r)

end Rehearsal

variable {L : Type} [Link L] [Truthful L]

instance : Truthful (Traced L) where
  read n timeout t := Truthful.read n timeout t.link
  write bytes timeout t := Truthful.write bytes timeout t.link

theorem writeAll_backlog (bytes : Bytes) (timeout : Nanos) (link : L) :
    backlog (writeAll bytes timeout link).2 ≤ backlog link := by
  rw [writeAll_snd]
  exact Truthful.write bytes timeout link

/-- What is read comes out of the backlog, and all of it is there unless a call failed. -/
theorem readUpTo_backlog (timeout : Nanos) :
    ∀ (calls n : Nat) (link : L), n ≤ calls →
      backlog (readUpTo timeout calls n link).2 + (readUpTo timeout calls n link).1.1.length ≤
          backlog link ∧
        ((readUpTo timeout calls n link).1.2 = none →
          (readUpTo timeout calls n link).1.1.length = n)
  | calls, 0, link, _ => by
      have hnone : readUpTo timeout calls 0 link = (([], none), link) := by cases calls <;> rfl
      rw [hnone]
      exact ⟨Nat.le_refl _, fun _ => rfl⟩
  | 0, n + 1, link, hcalls => by omega
  | calls + 1, n + 1, link, hcalls => by
      have hless := Truthful.read (n + 1) timeout link
      unfold readUpTo
      split
      · rename_i fault link' h
        rw [h] at hless
        exact ⟨hless, nofun⟩
      · rename_i link' h
        rw [h] at hless
        exact ⟨hless, nofun⟩
      · rename_i bytes link' hsome h
        rw [h] at hless
        have hpos : 0 < bytes.length := List.length_pos_iff.mpr hsome
        have hpart : (bytes.take (n + 1)).length = min (n + 1) bytes.length := List.length_take
        have hrest := readUpTo_backlog timeout calls (n + 1 - (bytes.take (n + 1)).length) link'
          (by omega)
        dsimp only [brought] at hless ⊢
        generalize readUpTo timeout calls _ link' = rest at hrest ⊢
        obtain ⟨⟨more, fault⟩, after⟩ := rest
        dsimp only at hrest ⊢
        rw [List.length_append]
        exact ⟨by omega, fun hnone => by rw [hrest.2 hnone]; omega⟩

end Link

namespace Step

open SecureElement.Action Session

variable {L : Type} [Link L] {s s' s'' : Session L} {α β : Type}

/-! ## Single blocks -/

/-- What every step keeps to. -/
structure Uses (s s' : Session L) : Prop where
  backlog : backlog s'.link ≤ backlog s.link
  settings : s'.settings = s.settings
  parked : s'.parked = s.parked

/-- What a step keeps to that charges no try. -/
structure Spends (s s' : Session L) : Prop extends Uses s s' where
  retries : s'.retries = s.retries

/-- The step ends. -/
def Returns (s : Session L) (r : Except (Stop Setback) α) (s' : Session L) : Prop :=
  Spends s s' ∧ r ≠ .error .stalled

/-- The step ends, and if it has a value something was brought. -/
def Brings (s : Session L) (r : Except (Stop Setback) α) (s' : Session L) : Prop :=
  Returns s r s' ∧ ∀ a, r = .ok a → backlog s'.link < backlog s.link

theorem Uses.trans (h₁ : Uses s s') (h₂ : Uses s' s'') : Uses s s'' where
  backlog := Nat.le_trans h₂.backlog h₁.backlog
  settings := h₂.settings.trans h₁.settings
  parked := h₂.parked.trans h₁.parked

theorem Spends.refl (s : Session L) : Spends s s := ⟨⟨Nat.le_refl _, rfl, rfl⟩, rfl⟩

theorem Spends.trans (h₁ : Spends s s') (h₂ : Spends s' s'') : Spends s s'' :=
  { h₁.toUses.trans h₂.toUses with retries := h₂.retries.trans h₁.retries }

theorem error_ne_stalled {stop : Stop Setback}
    (h : (.error stop : Except (Stop Setback) β) ≠ .error .stalled) :
    (.error stop : Except (Stop Setback) α) ≠ .error .stalled :=
  fun heq => h (congrArg _ (Except.error.inj heq))

theorem returns_bind {x : Step L β} {f : β → Step L α} (hx : Ensures x s (Returns s))
    (hf : ∀ b s', Spends s s' → Ensures (f b) s' (Returns s')) :
    Ensures (x >>= f) s (Returns s) := by
  refine hx.bind ?_ ?_
  · intro b s' hend
    obtain ⟨hspends, -⟩ := hend
    refine (hf b s' hspends).mono ?_
    intro r s'' hend
    obtain ⟨hspends', hends⟩ := hend
    exact ⟨hspends.trans hspends', hends⟩
  · intro stop s' hend
    obtain ⟨hspends, hends⟩ := hend
    exact ⟨hspends, error_ne_stalled hends⟩

/-- Something was brought if the first of two steps brings it. -/
theorem brings_bind {x : Step L β} {f : β → Step L α} (hx : Ensures x s (Brings s))
    (hf : ∀ b s', Spends s s' → Ensures (f b) s' (Returns s')) :
    Ensures (x >>= f) s (Brings s) := by
  refine hx.bind ?_ ?_
  · intro b s' hend
    obtain ⟨⟨hspends, -⟩, hbrought⟩ := hend
    refine (hf b s' hspends).mono ?_
    intro r s'' hend
    obtain ⟨hspends', hends⟩ := hend
    exact ⟨⟨hspends.trans hspends', hends⟩, fun _ _ =>
      Nat.lt_of_le_of_lt hspends'.backlog (hbrought b rfl)⟩
  · intro stop s' hend
    obtain ⟨⟨hspends, hends⟩, -⟩ := hend
    exact ⟨⟨hspends, error_ne_stalled hends⟩, nofun⟩

/-- Something was brought if the second of two steps brings it. -/
theorem bind_brings {x : Step L β} {f : β → Step L α} (hx : Ensures x s (Returns s))
    (hf : ∀ b s', Spends s s' → Ensures (f b) s' (Brings s')) :
    Ensures (x >>= f) s (Brings s) := by
  refine hx.bind ?_ ?_
  · intro b s' hend
    obtain ⟨hspends, -⟩ := hend
    refine (hf b s' hspends).mono ?_
    intro r s'' hend
    obtain ⟨⟨hspends', hends⟩, hbrought⟩ := hend
    exact ⟨⟨hspends.trans hspends', hends⟩, fun a ha =>
      Nat.lt_of_lt_of_le (hbrought a ha) hspends.backlog⟩
  · intro stop s' hend
    obtain ⟨hspends, hends⟩ := hend
    exact ⟨⟨hspends, error_ne_stalled hends⟩, nofun⟩

variable [Truthful L]

theorem transmit_returns (frame : Bytes) : Ensures (transmit frame) s (Returns s) := by
  unfold transmit
  rw [ensures_count_bind, ensures_get_bind]
  dsimp only
  rw [ensures_onLink_bind]
  have hless := writeAll_backlog frame s.settings.blockTimeout s.link
  cases (writeAll frame s.settings.blockTimeout s.link).1 with
  | ok u => exact ⟨⟨⟨hless, rfl, rfl⟩, rfl⟩, nofun⟩
  | error fault => exact ⟨⟨⟨hless, rfl, rfl⟩, rfl⟩, nofun⟩

theorem sendCommand_returns : Ensures sendCommand s (Returns s) :=
  transmit_returns s.command.used

theorem sendControl_returns (block : Block) : Ensures (sendControl block) s (Returns s) := by
  unfold sendControl
  rw [ensures_get_bind]
  split
  · exact ⟨Spends.refl s, nofun⟩
  · exact transmit_returns _

/-- Octets that were read are off the backlog. -/
theorem readFrame_returns (n : Nat) (timeout : Nanos) :
    Ensures (readFrame n timeout) s fun r s' =>
      Returns s r s' ∧ (r = .ok () → backlog s'.link + n ≤ backlog s.link) := by
  unfold readFrame
  rw [ensures_get_bind]
  split
  · exact ⟨⟨Spends.refl s, nofun⟩, nofun⟩
  · rename_i claimed hclaimed
    rw [ensures_onLink_bind]
    have hless := readUpTo_backlog timeout n n s.link (Nat.le_refl n)
    change backlog (readAll n timeout s.link).2 + (readAll n timeout s.link).1.1.length ≤ _ ∧
      ((readAll n timeout s.link).1.2 = none → (readAll n timeout s.link).1.1.length = n) at hless
    generalize readAll n timeout s.link = result at hless ⊢
    obtain ⟨⟨octets, fault⟩, link⟩ := result
    dsimp only at hless ⊢
    rw [ensures_modify_bind]
    have hspends : Spends s { s with link, frame := claimed.setTail n octets } :=
      ⟨⟨Nat.le_trans (Nat.le_add_right _ _) hless.1, rfl, rfl⟩, rfl⟩
    cases fault with
    | none =>
        refine ⟨⟨hspends, nofun⟩, fun _ => ?_⟩
        have hlength := hless.2 rfl
        dsimp only
        omega
    | some fault => exact ⟨⟨hspends, nofun⟩, nofun⟩

theorem discard_returns (timeout : Nanos) :
    ∀ (rounds remaining : Nat) (s : Session L),
      Ensures (discard timeout rounds remaining) s (Returns s)
  | 0, _, s => ⟨Spends.refl s, nofun⟩
  | rounds + 1, remaining, s => by
      unfold discard
      rw [ensures_get_bind]
      dsimp only
      split
      · exact ⟨Spends.refl s, nofun⟩
      · refine ensures_attempt_bind (readFrame_returns _ timeout) ?_ ?_ ?_ ?_
        · intro u s' hend
          obtain ⟨⟨hspends, -⟩, -⟩ := hend
          dsimp only
          rw [ensures_modify_bind]
          refine (discard_returns timeout rounds _ _).mono ?_
          intro r s'' hend
          obtain ⟨hspends', hends⟩ := hend
          exact ⟨hspends.trans { hspends' with }, hends⟩
        · intro setback s' hend
          obtain ⟨⟨hspends, -⟩, -⟩ := hend
          exact ⟨{ hspends with }, nofun⟩
        · intro s' hend
          obtain ⟨⟨hspends, -⟩, -⟩ := hend
          exact ⟨hspends, nofun⟩
        · intro s' hend
          obtain ⟨⟨-, hends⟩, -⟩ := hend
          exact absurd rfl hends

theorem readPrologue_brings (timeout : Nanos) : Ensures (readPrologue timeout) s (Brings s) := by
  unfold readPrologue
  rw [ensures_modify_bind]
  refine Ensures.mono (P := Brings { s with frame := s.frame.clear }) (brings_bind ?_ ?_) ?_
  · refine (readFrame_returns Block.shortPrologue timeout).mono ?_
    intro r s₁ hend
    obtain ⟨hreturns, hread⟩ := hend
    refine ⟨hreturns, fun u hu => ?_⟩
    have hless := hread hu
    unfold Block.shortPrologue at hless
    omega
  · intro u s₁ _
    rw [ensures_get_bind]
    exact (readFrame_returns _ timeout).mono fun _ _ h => h.1
  · intro r s₁ hend
    obtain ⟨⟨hspends, hends⟩, hbrought⟩ := hend
    exact ⟨⟨{ hspends with }, hends⟩, hbrought⟩

omit [Truthful L] in
theorem readBlock_returns (start : Nat) : Ensures (readBlock start) s (Returns s) := by
  have hspends : ∀ statistics : Statistics, Spends s { s with statistics } :=
    fun _ => ⟨⟨Nat.le_refl _, rfl, rfl⟩, rfl⟩
  unfold readBlock
  rw [ensures_count_bind, ensures_get_bind]
  split
  · exact ⟨hspends _, nofun⟩
  · split
    · exact ⟨hspends _, nofun⟩
    · exact ⟨hspends _, nofun⟩

/-- A block takes at least its prologue off the backlog. -/
theorem receiveBlock_brings (timeout : Nanos) : Ensures (receiveBlock timeout) s (Brings s) := by
  unfold receiveBlock
  refine brings_bind (readPrologue_brings timeout) ?_
  intro u s₁ _
  rw [ensures_get_bind]
  split
  · exact ⟨Spends.refl s₁, nofun⟩
  · split
    · rw [ensures_modify_bind]
      refine Ensures.mono (P := Returns { s₁ with frame := s₁.frame.clear })
        (returns_bind (discard_returns timeout _ _ _) ?_) ?_
      · intro u' s₂ _
        exact ⟨Spends.refl s₂, nofun⟩
      · intro r s₂ hend
        obtain ⟨hspends, hends⟩ := hend
        exact ⟨{ hspends with }, hends⟩
    · refine returns_bind ((readFrame_returns _ timeout).mono fun _ _ h => h.1) ?_
      intro u' s₂ _
      exact readBlock_returns _

/-! ## Waiting -/

omit [Truthful L] in
theorem waitTime_returns (timeout : Nanos) : Ensures (waitTime timeout) s (Returns s) := by
  unfold waitTime
  rw [ensures_get_bind]
  split
  · exact ⟨Spends.refl s, nofun⟩
  · dsimp only
    split
    · exact ⟨Spends.refl s, nofun⟩
    · exact ⟨Spends.refl s, nofun⟩

omit [Truthful L] in
theorem extendWait_returns (multiplier : UInt8) :
    Ensures (extendWait multiplier) s (Returns s) := by
  unfold extendWait
  split
  · exact ⟨Spends.refl s, nofun⟩
  · dsimp only
    rw [ensures_modify_bind, ensures_get_bind]
    split
    · exact ⟨⟨⟨Nat.le_refl _, rfl, rfl⟩, rfl⟩, nofun⟩
    · exact ⟨⟨⟨Nat.le_refl _, rfl, rfl⟩, rfl⟩, nofun⟩

/-- Every request that is answered on the way was brought first. -/
theorem awaitRound_brings (timeout : Nanos) : Ensures (awaitRound timeout) s (Brings s) := by
  unfold awaitRound
  refine bind_brings (waitTime_returns timeout) ?_
  intro wait s₁ _
  refine brings_bind (receiveBlock_brings wait) ?_
  intro inbound s₂ _
  rw [ensures_get_bind]
  split
  · refine returns_bind (extendWait_returns _) ?_
    intro extra s₃ _
    refine returns_bind (sendControl_returns _) ?_
    intro u s₄ _
    exact ⟨Spends.refl s₄, nofun⟩
  · split
    · exact ⟨Spends.refl s₂, nofun⟩
    · refine returns_bind (sendControl_returns _) ?_
      intro u s₃ _
      exact ⟨Spends.refl s₃, nofun⟩
  · exact ⟨Spends.refl s₂, nofun⟩

/-- **Waiting ends**: there is a round for all that can still be brought, and one more. -/
theorem awaitBlock_brings : Ensures awaitBlock s (Brings s) := by
  unfold awaitBlock
  rw [ensures_get_bind]
  refine ensures_loop_variant (I := fun _ s₁ => Spends s s₁)
    (V := fun s₁ => backlog s₁.link) ?_ _ _ _ (Spends.refl s) (Nat.lt_succ_self _)
  intro timeout s₁ hspends
  refine (awaitRound_brings timeout).mono ?_
  intro r s₂ hend
  obtain ⟨⟨hspends', hends⟩, hbrought⟩ := hend
  match r with
  | .ok (.inl _) => exact ⟨hspends.trans hspends', hbrought _ rfl⟩
  | .ok (.inr inbound) =>
      exact ⟨⟨hspends.trans hspends', nofun⟩, fun _ _ =>
        Nat.lt_of_lt_of_le (hbrought _ rfl) hspends.backlog⟩
  | .error stop =>
      exact ⟨⟨hspends.trans hspends', error_ne_stalled hends⟩, nofun⟩

end Step

end SecureElement
