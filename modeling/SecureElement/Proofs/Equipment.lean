import SecureElement.Proofs.Conduct

/-!
# What a session is equipped with

Buffers have the sizes that the settings ask for, and the blocks that a session makes
never outgrow them. The steps with the link have nothing to do with that (`SameKit`). What
is done without the link may change the codec, but only to the one of the settings or to
one with narrower blocks. So a fact about the kit that stands both (`OfKit`) stands
every call.

`Equipped` is what comes of it for every session: a block of a command always fits the
buffer in which it is staged, so a command never fails for want of room.
-/

namespace SecureElement.Session

open SecureElement.Action Link

variable {L : Type}

/-- Between two states of a session neither its codec nor the size of a buffer has changed. -/
structure SameKit (s s' : Session L) : Prop where
  settings : s'.settings = s.settings
  codec : s'.codec = s.codec
  command : s'.command.capacity = s.command.capacity
  response : s'.response.capacity = s.response.capacity

/-- `J` is a fact about the kit of a session, and true of a narrower codec too. -/
structure OfKit (J : Session L → Prop) : Prop where
  same : ∀ {s s'}, J s → SameKit s s' → J s'
  narrowed : ∀ {s codec}, J s → codec.Narrows s.settings.codec → J { s with codec }

section Kit

variable [Link L] {settings : Settings} {J : Session (Traced L) → Prop} (h : OfKit J)

include h

theorem OfKit.transmit (frame : Bytes) : (Step.transmit frame : Step (Traced L) Unit).Maintains
    (fun s => J s ∧ Block.longPrologue ≤ s.frame.capacity) fun _ _ => True := by
  intro s hs
  refine (Step.transmit_outcome frame).mono ?_
  rintro r s' ⟨outcome, link, rfl, -⟩
  exact kept_any ⟨h.same hs.1 ⟨rfl, rfl, rfl, rfl⟩, hs.2⟩

/-- **A fact about the kit stands whatever is done with a session** whose frame holds any
prologue. -/
theorem OfKit.regime : Regime fun s => J s ∧ Block.longPrologue ≤ s.frame.capacity where
  offline := by
    intro s s' hs hoffline
    refine ⟨?_, by rw [hoffline.frame]; exact hs.2⟩
    rcases hoffline.codec with hsame | hnarrows
    · exact h.same hs.1 ⟨hoffline.settings, hsame, hoffline.staging, hoffline.response⟩
    · exact h.same (h.narrowed hs.1 hnarrows)
        ⟨hoffline.settings, rfl, hoffline.staging, hoffline.response⟩
  sendCommand := Step.maintains_sendCommand fun frame => h.transmit frame
  sendControl := fun _ =>
    Step.maintains_sendControl (fun frame => h.transmit frame) (fun _ _ => trivial) _
  awaitRound := by
    intro timeout s hs
    refine (Step.awaitRound_rounds timeout hs.2).mono ?_
    intro r s' hround
    cases hround with
    | unrelated hframe => exact kept_any ⟨h.same hs.1 ⟨rfl, rfl, rfl, rfl⟩, hframe ▸ hs.2⟩
    | refused hframe => exact kept_any ⟨h.same hs.1 ⟨rfl, rfl, rfl, rfl⟩, hframe ▸ hs.2⟩
    | granted hframe => exact kept_any ⟨h.same hs.1 ⟨rfl, rfl, rfl, rfl⟩, hframe ▸ hs.2⟩
  raised := fun hs => ⟨h.same hs.1 ⟨rfl, rfl, rfl, rfl⟩, hs.2⟩
  released := fun hs => ⟨h.same hs.1 ⟨rfl, rfl, rfl, rfl⟩, hs.2⟩

theorem OfKit.reachable {s : Session (Traced L)} (hreachable : Reachable settings s)
    (hcreated : ∀ link, J (create link settings)) : J s := by
  induction hreachable with
  | created hnew =>
      obtain ⟨-, rfl⟩ := new_eq_ok hnew
      exact hcreated _
  | called request hbefore ih => exact (h.regime.perform request ⟨ih, hbefore.sound.capacity⟩).1
  | touched link _ ih => exact h.same ih ⟨rfl, rfl, rfl, rfl⟩

end Kit

/-! ## Room for blocks -/

/-- The buffers are as large as the settings say, and no block is larger than the settings allow. -/
structure Equipped (settings : Settings) (s : Session L) : Prop where
  epilogue : s.codec.epilogue = settings.codec.epilogue
  payload : s.codec.maxPayload ≤ settings.codec.maxPayload
  command : s.command.capacity = settings.codec.frameCapacity
  response : s.response.capacity = settings.responseCapacity
  settings : s.settings = settings

variable {settings : Settings}

theorem Equipped.kept {s s' : Session L} (h : Equipped settings s) (hkit : SameKit s s') :
    Equipped settings s' where
  settings := hkit.settings.trans h.settings
  epilogue := by rw [hkit.codec]; exact h.epilogue
  payload := by rw [hkit.codec]; exact h.payload
  command := hkit.command.trans h.command
  response := hkit.response.trans h.response

theorem equipped_ofKit : OfKit (Equipped settings : Session L → Prop) where
  same := fun h hkit => h.kept hkit
  narrowed := by
    intro s codec h hnarrows
    rw [h.settings] at hnarrows
    exact { h with epilogue := hnarrows.epilogue, payload := hnarrows.payload }

variable [Link L] {s : Session (Traced L)}

theorem run_equipped {request : Request} {exchange : Step (Traced L) Unit}
    (hexchange : request.exchange? = some exchange)
    (hcapacity : Block.longPrologue ≤ s.frame.capacity) (h : Equipped settings s) :
    Ensures (run exchange) s fun _ s' => Equipped settings s' :=
  (equipped_ofKit.regime.run hexchange s ⟨h, hcapacity⟩).mono fun _ _ hkept => hkept.1.1

theorem establish_equipped (hcapacity : Block.longPrologue ≤ s.frame.capacity)
    (h : Equipped settings s) : Ensures establish s fun _ s' => Equipped settings s' :=
  (equipped_ofKit.regime.establish s ⟨h, hcapacity⟩).mono fun _ _ hkept => hkept.1.1

/-- **Whatever was done with a session, it is equipped as its settings say.** -/
theorem Reachable.equipped (h : Reachable settings s) : Equipped settings s :=
  equipped_ofKit.reachable h fun _ =>
    ⟨rfl, Nat.le_refl _, Buffer.capacity_empty _, Buffer.capacity_empty _, rfl⟩

/-! ## The codec -/

/-- The codec of the session speaks like the one that the settings ask for. -/
def SpeaksAlike (s : Session L) : Prop := s.codec.Alike s.settings.codec

omit [Link L] in
theorem speaksAlike_ofKit : OfKit (SpeaksAlike : Session L → Prop) where
  same := by
    intro s s' h hkit
    unfold SpeaksAlike
    rw [hkit.codec, hkit.settings]
    exact h
  narrowed := fun _ hnarrows => hnarrows.toAlike

/-- **Whatever was done with a session, it speaks like its settings say.** -/
theorem Reachable.speaksAlike (h : Reachable settings s) : s.SpeaksAlike :=
  speaksAlike_ofKit.reachable h fun _ => ⟨rfl, rfl, rfl⟩

end SecureElement.Session
