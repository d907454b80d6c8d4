import SecureElement.Link.Traced
import SecureElement.Session.State

/-!
# What passes over a link, block by block

The record of a traced link is a row of calls. This file reads it as what two peers
would call their conversation: frames sent, and blocks received. It is a reading of
its own, made from the record alone:

* octets that arrive are put together until they are as long as their own prologue
  **announces**; they are a block then, and a block that fits the frame was
  `received`;
* a read that fails or brings nothing ends a wait for which there is no block, and
  so does a block that no frame holds; either is a wait that was `lost`.

`Passes s items s'` says that `items` is what passed between two states of a
session, and that no block was left half read.
-/

namespace SecureElement

open Link

/-- What passes over a link. -/
inductive Passage where
  /-- The link was to come up. -/
  | raised (outcome : Except Link.Fault Unit)
  /-- A frame was handed over; the link took that many octets of it. -/
  | sent (frame : Bytes) (outcome : Except Link.Fault Nat)
  /-- A whole block arrived. -/
  | received (raw : Bytes)
  /-- A wait ended without a block. These octets had arrived. -/
  | lost (octets : Bytes)
  /-- The link was let go of. -/
  | released

namespace Passage

/-- Whether this is part of a conversation, and not the coming and going of the link. -/
def IsTalk : Passage → Prop
  | raised _ | released => False
  | sent _ _ | received _ | lost _ => True

/-- The frame that was handed to the link, if this is where one was. -/
def frame? : Passage → Option Bytes
  | sent frame _ => some frame
  | _ => none

/-- The block that arrived, if this is where one did. -/
def raw? : Passage → Option Bytes
  | received raw => some raw
  | _ => none

end Passage

/-! ## Reading the record -/

/-- The length that the front of a block announces for all of it, once enough of it is there. -/
def announcedLength? (e : Epilogue) (octets : Bytes) : Option Nat :=
  (Codec.announced? octets).map fun (front, length) => front + length + e.width

/-- The octets are one block from end to end. -/
def IsWhole (e : Epilogue) (octets : Bytes) : Prop := announcedLength? e octets = some octets.length

instance (e : Epilogue) (octets : Bytes) : Decidable (IsWhole e octets) :=
  inferInstanceAs (Decidable (_ = _))

/-- What to make of the octets that have arrived since the last block: what passed, and the octets
of a block that is still to be completed. -/
def arrive (e : Epilogue) (capacity : Nat) (octets : Bytes) : List Passage × Bytes :=
  if IsWhole e octets then
    ([if octets.length ≤ capacity then .received octets else .lost octets], [])
  else ([], octets)

theorem arrive_of_whole {e : Epilogue} {capacity : Nat} {octets : Bytes} (h : IsWhole e octets) :
    arrive e capacity octets =
      ([if octets.length ≤ capacity then .received octets else .lost octets], []) :=
  if_pos h

theorem arrive_of_not_whole {e : Epilogue} {capacity : Nat} {octets : Bytes}
    (h : ¬ IsWhole e octets) : arrive e capacity octets = ([], octets) :=
  if_neg h

/-- What one call adds, when `begun` has arrived of a block. -/
def hear (e : Epilogue) (capacity : Nat) (begun : Bytes) : Event → List Passage × Bytes
  | .bringUp outcome => ([.raised outcome], begun)
  | .write frame _ outcome => ([.sent frame outcome], begun)
  | .read _ _ (.error _) => ([.lost begun], [])
  | .read _ _ (.ok []) => ([.lost begun], [])
  | .read _ _ (.ok (octet :: octets)) => arrive e capacity (begun ++ octet :: octets)
  | .release => ([.released], begun)

/-- What a row of calls comes to, when `begun` has arrived of a block. -/
def passages (e : Epilogue) (capacity : Nat) : Bytes → List Event → List Passage × Bytes
  | begun, [] => ([], begun)
  | begun, event :: events =>
    let now := hear e capacity begun event
    let later := passages e capacity now.2 events
    (now.1 ++ later.1, later.2)

variable {e : Epilogue} {capacity : Nat}

theorem passages_append (begun : Bytes) (front back : List Event) :
    passages e capacity begun (front ++ back) =
      ((passages e capacity begun front).1 ++
          (passages e capacity (passages e capacity begun front).2 back).1,
        (passages e capacity (passages e capacity begun front).2 back).2) := by
  induction front generalizing begun with
  | nil => rfl
  | cons event front ih =>
      rw [List.cons_append, passages, passages, ih]
      dsimp only
      rw [List.append_assoc]

theorem passages_cons (begun : Bytes) (event : Event) (events : List Event) :
    passages e capacity begun (event :: events) =
      ((hear e capacity begun event).1 ++
          (passages e capacity (hear e capacity begun event).2 events).1,
        (passages e capacity (hear e capacity begun event).2 events).2) := rfl

/-- What is announced does not change when more arrives. -/
theorem announced?_append {front back : Bytes} {lengths : Nat × Nat}
    (h : Codec.announced? front = some lengths) :
    Codec.announced? (front ++ back) = some lengths := by
  rcases front with _ | ⟨_, _ | ⟨_, _ | ⟨third, rest⟩⟩⟩
  · exact absurd h (by simp [Codec.announced?])
  · exact absurd h (by simp [Codec.announced?])
  · exact absurd h (by simp [Codec.announced?])
  · simp only [Codec.announced?, List.cons_append] at h ⊢
    by_cases hmarker : third = Block.longMarker
    · rw [if_pos hmarker] at h ⊢
      rcases rest with _ | ⟨_, _ | ⟨_, _⟩⟩
      · exact absurd h (by simp)
      · exact absurd h (by simp)
      · exact h
    · rw [if_neg hmarker] at h ⊢
      exact h

/-! ## Whole reads -/

namespace Link

variable {L : Type} [Link L]

theorem read_traced (n : Nat) (timeout : Nanos) (t : Traced L) :
    read n timeout t = ((read n timeout t.link).1,
      t.record (.read n timeout ((read n timeout t.link).1.map (·.take n)))
        (read n timeout t.link).2) := rfl

theorem write_traced (bytes : Bytes) (timeout : Nanos) (t : Traced L) :
    write bytes timeout t = ((write bytes timeout t.link).1,
      t.record (.write bytes timeout (write bytes timeout t.link).1)
        (write bytes timeout t.link).2) := rfl

theorem writeAll_traced (bytes : Bytes) (timeout : Nanos) (t : Traced L) :
    (writeAll bytes timeout t).2
      = t.record (.write bytes timeout (write bytes timeout t.link).1)
        (write bytes timeout t.link).2 := writeAll_snd bytes timeout t

theorem readUpTo_none (timeout : Nanos) (calls : Nat) (t : Traced L) :
    readUpTo timeout calls 0 t = (([], none), t) := by
  cases calls <;> rfl

/-- A call that fails, or brings nothing, is the last. -/
theorem readUpTo_failed {n : Nat} {timeout : Nanos} {t : Traced L} {fault : Fault}
    (h : (read (n + 1) timeout t.link).1 = .error fault ∨
      ((read (n + 1) timeout t.link).1 = .ok [] ∧ fault = .timeout)) (calls : Nat) :
    ∃ outcome link, (outcome = .error fault ∨ outcome = .ok []) ∧
      readUpTo timeout (calls + 1) (n + 1) t =
        (([], some fault), t.record (.read (n + 1) timeout outcome) link) := by
  rcases h with h | ⟨h, rfl⟩
  · refine ⟨.error fault, (read (n + 1) timeout t.link).2, Or.inl rfl, ?_⟩
    rw [readUpTo, read_traced, h]
    rfl
  · refine ⟨.ok [], (read (n + 1) timeout t.link).2, Or.inr rfl, ?_⟩
    rw [readUpTo, read_traced, h]
    rfl

/-- A call that brings something is followed by the calls for the rest. -/
theorem readUpTo_more {n : Nat} {timeout : Nanos} {t : Traced L} {octet : UInt8} {more : Bytes}
    (h : (read (n + 1) timeout t.link).1 = .ok (octet :: more)) (calls : Nat) :
    ∃ (arrived : Bytes) (link : L), 0 < arrived.length ∧ arrived.length ≤ n + 1 ∧
      readUpTo timeout (calls + 1) (n + 1) t =
        let rest := readUpTo timeout calls (n + 1 - arrived.length)
          (t.record (.read (n + 1) timeout (.ok arrived)) link)
        ((arrived ++ rest.1.1, rest.1.2), rest.2) := by
  refine ⟨(octet :: more).take (n + 1), (read (n + 1) timeout t.link).2, ?_, ?_, ?_⟩
  · rw [List.length_take, List.length_cons]; omega
  · rw [List.length_take]; omega
  · rw [readUpTo, read_traced, h]
    rfl

end Link

theorem hear_read_failed {n : Nat} {timeout : Nanos} {fault : Link.Fault}
    {outcome : Except Link.Fault Bytes} (h : outcome = .error fault ∨ outcome = .ok [])
    (begun : Bytes) :
    hear e capacity begun (.read n timeout outcome) = ([.lost begun], []) := by
  rcases h with rfl | rfl <;> rfl

theorem hear_read_ok {n : Nat} {timeout : Nanos} {arrived : Bytes} (h : 0 < arrived.length)
    (begun : Bytes) :
    hear e capacity begun (.read n timeout (.ok arrived)) =
      arrive e capacity (begun ++ arrived) := by
  cases arrived with
  | nil => exact absurd h (by simp)
  | cons octet octets => rfl

/-- A read of `n` octets behind `begun`, as it is heard: all of them arrived, or the wait was
lost. -/
def HeardRead {L : Type} (e : Epilogue) (capacity n : Nat) (begun : Bytes) (t : Traced L)
    (result : (Bytes × Option Link.Fault) × Traced L) : Prop :=
  ∃ events, result.2.events = t.events ++ events ∧
    match result.1 with
    | (octets, none) => octets.length = n ∧
        passages e capacity begun events = arrive e capacity (begun ++ octets)
    | (octets, some _) => passages e capacity begun events = ([.lost (begun ++ octets)], [])

/--
**Reading all of `n` octets is heard as one arrival**, however they are brought. No
part of them may complete a block, or it would be heard on its own.
-/
theorem readUpTo_heard {L : Type} [Link L] (timeout : Nanos) :
    ∀ (calls n : Nat) (begun : Bytes) (t : Traced L), n ≤ calls → ¬ IsWhole e begun →
      (∀ part : Bytes, part.length < n → ¬ IsWhole e (begun ++ part)) →
      HeardRead e capacity n begun t (readUpTo timeout calls n t)
  | calls, 0, begun, t, _, hbegun, _ => by
      rw [readUpTo_none]
      refine ⟨[], (List.append_nil _).symm, rfl, ?_⟩
      rw [List.append_nil, arrive_of_not_whole hbegun, passages]
  | 0, n + 1, _, _, hcalls, _, _ => by omega
  | calls + 1, n + 1, begun, t, hcalls, hbegun, hpart => by
      have failed : ∀ fault, (read (n + 1) timeout t.link).1 = .error fault ∨
          ((read (n + 1) timeout t.link).1 = .ok [] ∧ fault = .timeout) →
          HeardRead e capacity (n + 1) begun t (readUpTo timeout (calls + 1) (n + 1) t) := by
        intro fault h
        obtain ⟨outcome, link, houtcome, hrun⟩ := readUpTo_failed h calls
        rw [hrun]
        refine ⟨_, Traced.events_record .., ?_⟩
        dsimp only
        rw [passages_cons, hear_read_failed houtcome, passages, List.append_nil, List.append_nil]
      cases h : (read (n + 1) timeout t.link).1 with
      | error fault => exact failed fault (Or.inl h)
      | ok brought =>
        cases brought with
        | nil => exact failed .timeout (Or.inr ⟨h, rfl⟩)
        | cons octet more =>
          obtain ⟨arrived, link, hpos, hlen, hrun⟩ := readUpTo_more h calls
          rw [hrun]
          have hheard : hear e capacity begun (.read (n + 1) timeout (.ok arrived))
              = arrive e capacity (begun ++ arrived) := hear_read_ok hpos begun
          generalize ht : t.record (.read (n + 1) timeout (.ok arrived)) link = t'
          have hevents : t'.events = t.events ++ [.read (n + 1) timeout (.ok arrived)] := by
            rw [← ht]; exact Traced.events_record ..
          -- either this call brought all that was asked for, or the rest is read behind it
          rcases Nat.lt_or_ge arrived.length (n + 1) with hshort | hall
          · have hstill := hpart arrived hshort
            rw [arrive_of_not_whole hstill] at hheard
            obtain ⟨events, hrest, hmatch⟩ := readUpTo_heard timeout calls (n + 1 - arrived.length)
              (begun ++ arrived) t' (by omega) hstill (fun part hp => by
                rw [List.append_assoc]
                exact hpart _ (by rw [List.length_append]; omega))
            refine ⟨.read (n + 1) timeout (.ok arrived) :: events, ?_, ?_⟩
            · rw [hrest, hevents, List.append_assoc]
              rfl
            · rw [passages_cons, hheard]
              generalize readUpTo timeout calls (n + 1 - arrived.length) t' = rest at hmatch ⊢
              obtain ⟨⟨octets, fault⟩, _⟩ := rest
              cases fault with
              | none =>
                  obtain ⟨hl, hp⟩ := hmatch
                  dsimp only at hl hp ⊢
                  refine ⟨by rw [List.length_append]; omega, ?_⟩
                  rw [← List.append_assoc, hp]
                  rfl
              | some fault =>
                  dsimp only at hmatch ⊢
                  rw [← List.append_assoc, hmatch]
                  rfl
          · rw [show n + 1 - arrived.length = 0 by omega, readUpTo_none]
            refine ⟨_, hevents, by rw [List.append_nil]; omega, ?_⟩
            rw [passages_cons, hheard, List.append_nil, passages, List.append_nil]

end SecureElement
