import SecureElement.Proofs.Traffic

/-!
# What an exchange leaves alone

Between two states of a session something passes over the link, and most of the
session stays what it was. There are four relations for that, each stronger than
the one before it:

* `Hears`: what passed, with a block that may be half read at either end, and
  `Passes` for the case that none is;
* `Within`: nothing but talk passed, and the session is still in the same call, with
  the same settings and codec. Every exchange keeps to this for as long as it may
  still fail;
* `Proceeds`: moreover nothing was parked or resynchronised. A step may fail halfway
  and still keep to this;
* `Talks`: moreover the exchange has not moved. Blocks were sent and received, and
  neither a sequence number nor a buffer that the exchange relies on has changed.
-/

namespace SecureElement.Session

open Link

variable {L : Type} {s s₁ s₂ : Session (Traced L)} {begun begun₁ begun₂ : Bytes}
  {items items₁ items₂ : List Passage}

/-- Between two states `items` passed, where `begun` and `begun'` had arrived of a block. -/
def Hears (s : Session (Traced L)) (begun : Bytes) (items : List Passage)
    (s' : Session (Traced L)) (begun' : Bytes) : Prop :=
  ∃ events, s'.link.events = s.link.events ++ events ∧
    passages s.codec.epilogue s.frame.capacity begun events = (items, begun')

/-- Between two states `items` passed, and no block was left half read. -/
def Passes (s : Session (Traced L)) (items : List Passage) (s' : Session (Traced L)) : Prop :=
  Hears s [] items s' []

theorem hears_same (h : s₁.link = s.link) : Hears s begun [] s₁ begun :=
  ⟨[], by rw [h, List.append_nil], rfl⟩

theorem Hears.trans (h₁ : Hears s begun items₁ s₁ begun₁) (h₂ : Hears s₁ begun₁ items₂ s₂ begun₂)
    (hepilogue : s₁.codec.epilogue = s.codec.epilogue)
    (hcapacity : s₁.frame.capacity = s.frame.capacity) :
    Hears s begun (items₁ ++ items₂) s₂ begun₂ := by
  obtain ⟨events₁, hevents₁, hpass₁⟩ := h₁
  obtain ⟨events₂, hevents₂, hpass₂⟩ := h₂
  rw [hepilogue, hcapacity] at hpass₂
  refine ⟨events₁ ++ events₂, by rw [hevents₂, hevents₁, List.append_assoc], ?_⟩
  rw [passages_append, hpass₁]
  dsimp only
  rw [hpass₂]

/-- Only the link tells what passed. -/
theorem Hears.congr (h : Hears s begun items s₁ begun₁) (hlink : s₂.link = s₁.link) :
    Hears s begun items s₂ begun₁ := by
  obtain ⟨events, hevents, hpass⟩ := h
  exact ⟨events, by rw [hlink, hevents], hpass⟩

/-- What every step of an exchange keeps to. -/
structure Within (s : Session (Traced L)) (items : List Passage) (s' : Session (Traced L)) :
    Prop where
  settings : s'.settings = s.settings
  status : s'.status = s.status
  codec : s'.codec = s.codec
  capacity : s'.frame.capacity = s.frame.capacity
  /-- What passed over the link. -/
  passes : Passes s items s'
  /-- The link neither came up nor was let go of. -/
  talk : ∀ x ∈ items, x.IsTalk

/-- What a step inside an exchange keeps to, however it ends. -/
structure Proceeds (s : Session (Traced L)) (items : List Passage) (s' : Session (Traced L)) : Prop
    extends Within s items s' where
  parked : s'.parked = s.parked
  resyncs : s'.statistics.resyncs = s.statistics.resyncs

/-- What sending and receiving blocks keeps to. -/
structure Talks (s : Session (Traced L)) (items : List Passage) (s' : Session (Traced L)) : Prop
    extends Proceeds s items s' where
  sendSeq : s'.sendSeq = s.sendSeq
  recvSeq : s'.recvSeq = s.recvSeq
  response : s'.response = s.response
  command : s'.command = s.command
  commandPending : s'.commandPending = s.commandPending
  answer : s'.answer = s.answer

/-- Whatever the frame could hold it still can. -/
theorem Within.holds {n : Nat} (h : Within s items s₁) (hn : n ≤ s.frame.capacity) :
    n ≤ s₁.frame.capacity := by
  rw [h.capacity]
  exact hn

theorem Within.refl (s : Session (Traced L)) : Within s [] s where
  settings := rfl
  status := rfl
  codec := rfl
  capacity := rfl
  passes := hears_same rfl
  talk := List.forall_mem_nil _

theorem Within.trans (h₁ : Within s items₁ s₁) (h₂ : Within s₁ items₂ s₂) :
    Within s (items₁ ++ items₂) s₂ where
  settings := h₂.settings.trans h₁.settings
  status := h₂.status.trans h₁.status
  codec := h₂.codec.trans h₁.codec
  capacity := h₂.capacity.trans h₁.capacity
  passes := Hears.trans h₁.passes h₂.passes (by rw [h₁.codec]) h₁.capacity
  talk := fun x hx => (List.mem_append.mp hx).elim (h₁.talk x) (h₂.talk x)

theorem Proceeds.trans (h₁ : Proceeds s items₁ s₁) (h₂ : Proceeds s₁ items₂ s₂) :
    Proceeds s (items₁ ++ items₂) s₂ :=
  { h₁.toWithin.trans h₂.toWithin with
    parked := h₂.parked.trans h₁.parked
    resyncs := h₂.resyncs.trans h₁.resyncs }

theorem Talks.refl (s : Session (Traced L)) : Talks s [] s :=
  { Within.refl s with
    parked := rfl
    resyncs := rfl
    sendSeq := rfl
    recvSeq := rfl
    response := rfl
    command := rfl
    commandPending := rfl
    answer := rfl }

theorem Talks.trans (h₁ : Talks s items₁ s₁) (h₂ : Talks s₁ items₂ s₂) :
    Talks s (items₁ ++ items₂) s₂ :=
  { h₁.toProceeds.trans h₂.toProceeds with
    sendSeq := h₂.sendSeq.trans h₁.sendSeq
    recvSeq := h₂.recvSeq.trans h₁.recvSeq
    response := h₂.response.trans h₁.response
    command := h₂.command.trans h₁.command
    commandPending := h₂.commandPending.trans h₁.commandPending
    answer := h₂.answer.trans h₁.answer }

end SecureElement.Session
