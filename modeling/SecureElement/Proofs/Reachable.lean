import SecureElement.Proofs.Outcome

/-!
# The sessions that calls can lead to

`Reachable settings s` is every session that starts from `new` with these settings,
through any calls in any order, whatever they end in and whatever is done to the
link between them. `Sound` is what is true of all of them, and what every statement
about a call rests on:

* the frame has the size that the settings ask for, so it can hold the prologue of any
  block;
* what is parked is never the end of a recovery;
* nothing is parked before the first exchange.

Each call has its own lemma; `Reachable.sound` is the induction.
-/

namespace SecureElement.Session

open Link SecureElement.Action

variable {L : Type} [Link L] {settings : Settings} {s s' : Session (Traced L)}

/-- Every session that calls can lead to. -/
inductive Reachable (settings : Settings) : Session (Traced L) → Prop where
  /-- It was created. -/
  | created {link : Traced L} {s : Session (Traced L)} : new link settings = .ok s →
      Reachable settings s
  /-- A call was made, whatever it ended in. -/
  | called {s : Session (Traced L)} (request : Request) :
      Reachable settings s → Reachable settings ((perform request).final s)
  /-- Something was done to the link. -/
  | touched {s : Session (Traced L)} (link : Traced L) :
      Reachable settings s → Reachable settings { s with link }

omit [Link L] in
/-- What is true of a session at any time. -/
structure Sound (settings : Settings) (s : Session (Traced L)) : Prop where
  frame : s.frame.capacity
    = settings.codec.frameLength (max settings.maxBlockPayload Block.shortMax)
  parkedOrdinary : s.ParkedOrdinary
  opened : s.status = .opened → s.parked = none
  settings : s.settings = settings

/-- The frame holds any block whose length is a single octet, and so any prologue. -/
theorem longPrologue_le_frame (settings : Settings) : Block.longPrologue
    ≤ settings.codec.frameLength (max settings.maxBlockPayload Block.shortMax) := by
  have hshort : Block.shortMax ≤ max settings.maxBlockPayload Block.shortMax :=
    Nat.le_max_right ..
  unfold Block.shortMax at hshort
  unfold Codec.frameLength Block.longPrologue Block.shortMax
  omega

omit [Link L] in
theorem Sound.capacity (h : Sound settings s) : Block.longPrologue ≤ s.frame.capacity := by
  rw [h.frame]
  exact longPrologue_le_frame settings

omit [Link L] in
theorem Sound.leaves (h : Sound settings s) (hleaves : Leaves s s') : Sound settings s' where
  settings := hleaves.settings.trans h.settings
  frame := hleaves.capacity.trans h.frame
  parkedOrdinary := hleaves.parkedOrdinary
  opened := fun hopened => absurd hopened hleaves.status

omit [Link L] in
/-- Only settings without contradiction lead to a session, and to one only. -/
theorem new_eq_ok {link : Traced L} (h : new link settings = .ok s) :
    settings.fault? = none ∧ s = create link settings := by
  unfold new at h
  split at h
  · exact absurd h nofun
  · rename_i hvalid
    split at h
    · exact ⟨hvalid, (Except.ok.inj h).symm⟩
    · exact absurd h nofun

omit [Link L] in
theorem new_sound {link : Traced L} (h : new link settings = .ok s) : Sound settings s := by
  obtain ⟨-, rfl⟩ := new_eq_ok h
  exact ⟨Buffer.capacity_empty _, nofun, fun _ => rfl, rfl⟩

/-! ## One call after the other -/

theorem exchange_sound (request : Request) {exchange : Step (Traced L) Unit}
    (hexchange : request.exchange? = some exchange) (h : Sound settings s) :
    Ensures (run exchange) s fun _ s' => Sound settings s' := by
  cases hready : s.status.isReady with
  | true =>
      refine (run_outcome hready h.capacity
        (exchange_exchanged hexchange h.capacity (Nat.zero_le _) h.parkedOrdinary)).mono ?_
      intro r s' hend
      obtain ⟨hleaves, -⟩ := hend
      exact h.leaves hleaves
  | false =>
      refine (run_refused hready).mono ?_
      intro r s' hend
      obtain ⟨rfl, -⟩ := hend
      exact h

omit [Link L] in
theorem Sound.keeps (h : Sound settings s) (hkeeps : Keeps s s') (hparked : s'.parked = none) :
    Sound settings s' where
  settings := hkeeps.settings.trans h.settings
  frame := hkeeps.capacity.trans h.frame
  parkedOrdinary := parkedOrdinary_of_none hparked
  opened := fun _ => hparked

/-! ## Opening -/

/-- The session in which the handshake runs: the link is up, and everything starts over. -/
def risen (s : Session (Traced L)) : Session (Traced L) :=
  { ({ s with link := (Link.bringUp s.link).2 } : Session (Traced L)) |>.resetSequence
    |>.resetExchange with codec := s.settings.codec, answer := none }

/-- What opening a session makes of its handshake. -/
theorem ensures_establish {Q : Except (Stop Failure) Unit → Session (Traced L) → Prop}
    (hopen : s.status.isOpen = true → Q (.ok ()) s)
    (hdown : s.status = .closed → ∀ fault, (Link.bringUp s.link).1 = .error fault →
      Q (.error (.because (Failure.ofLink fault).toOpenFailed))
        { s with link := (Link.bringUp s.link).2 })
    (hup : s.status = .closed → (Link.bringUp s.link).1 = .ok () →
      Ensures handshake s.risen fun r s₁ =>
        match r with
        | .ok () => s₁.status = .closed ∧ Q (.ok ()) { s₁ with status := .opened, deadline := none }
        | .error (.because setback) => Q (.error (.because setback.failure.toOpenFailed))
            { s₁ with link := Link.release s₁.link, deadline := none }
        | .error .crashed => Q (.error .crashed) s₁
        | .error .stalled => Q (.error .stalled) s₁) :
    Ensures establish s Q := by
  unfold establish
  rw [ensures_get_bind]
  split
  · rename_i hisOpen
    exact hopen hisOpen
  · rename_i hisOpen
    rw [ensures_onLink_bind]
    split
    · rename_i fault hraised
      exact hdown (Status.not_isOpen_iff.mp hisOpen) fault hraised
    · rename_i hraised
      rw [ensures_modify_bind]
      refine Step.ensures_conclude (hup (Status.not_isOpen_iff.mp hisOpen) hraised) ?_ ?_
        (fun _ hQ => hQ) fun _ hQ => hQ
      · intro u s₁ hend
        obtain ⟨hstatus, hQ⟩ := hend
        rw [ensures_modify_bind, ensures_moveTo (by dsimp only; rw [hstatus]; rfl)]
        exact hQ
      · intro setback s₁ hQ
        rw [ensures_modify_bind, ensures_fail]
        exact hQ

theorem raised_passes (s : Session (Traced L)) :
    Passes s [.raised (Link.bringUp s.link).1] { s with link := (Link.bringUp s.link).2 } :=
  ⟨[_], Traced.events_record .., rfl⟩

theorem risen_passes (h : (Link.bringUp s.link).1 = .ok ()) :
    Passes s [.raised (.ok ())] s.risen := by
  have hraised := raised_passes s
  rw [h] at hraised
  exact hraised.congr rfl

/-- A handshake has nothing to do with responses and commands, parks nothing, and is not counted as
a resynchronisation. -/
theorem handshake_keeps (hcapacity : Block.longPrologue ≤ s.frame.capacity) :
    Ensures handshake s fun _ s' =>
      Keeps s s' ∧ s'.parked = s.parked ∧ s'.status = s.status ∧ s'.response = s.response ∧
        s'.commandPending = s.commandPending ∧
        s'.statistics.resyncs = s.statistics.resyncs := by
  have hend : ∀ {items : List Passage} {s' : Session (Traced L)},
      Talks { s with deadline := s.deadlineFromNow } items s' →
      Keeps s s' ∧ s'.parked = s.parked ∧ s'.status = s.status ∧ s'.response = s.response ∧
        s'.commandPending = s.commandPending ∧
        s'.statistics.resyncs = s.statistics.resyncs :=
    fun htalks => ⟨⟨htalks.settings, htalks.capacity⟩, htalks.parked, htalks.status,
      htalks.response, htalks.commandPending, htalks.resyncs⟩
  unfold handshake
  rw [ensures_modify_bind, ensures_get_bind]
  split
  · refine (Step.resetInterface_spec (s := { s with deadline := s.deadlineFromNow })
      hcapacity).mono ?_
    intro r s' hr
    obtain ⟨items, hr⟩ := hr
    cases r with
    | ok u =>
        obtain ⟨s₁, codec, answer, htalks, rfl, -⟩ := hr
        obtain ⟨hkeeps, hsame⟩ := hend htalks
        exact ⟨⟨hkeeps.settings, hkeeps.capacity⟩, hsame⟩
    | error stop => exact hend hr.2
  · refine Ensures.bind (Step.supervise_spec (s := { s with deadline := s.deadlineFromNow }) .resync
      hcapacity) ?_ ?_
    · intro inbound s₁ hr
      obtain ⟨items, htalks, -⟩ := hr
      exact hend htalks
    · intro stop s₁ hr
      obtain ⟨items, htalks, -⟩ := hr
      exact hend htalks

/-- An attempt to open drops what is parked, unless the link does not even come up. -/
theorem establish_spec (hcapacity : Block.longPrologue ≤ s.frame.capacity) :
    Ensures establish s fun _ s' =>
      (∃ link, s' = { s with link }) ∨ (Keeps s s' ∧ s'.parked = none) := by
  refine ensures_establish (fun _ => Or.inl ⟨s.link, rfl⟩) (fun _ _ _ => Or.inl ⟨_, rfl⟩) ?_
  intro hclosed _
  refine (handshake_keeps (s := s.risen) hcapacity).mono ?_
  rintro r s₁ ⟨hkeeps, hnone, hstatus, -⟩
  have hall : Keeps s s₁ := ⟨hkeeps.settings, hkeeps.capacity⟩
  match r with
  | .ok () => exact ⟨hstatus.trans hclosed, Or.inr ⟨⟨hall.settings, hall.capacity⟩, hnone⟩⟩
  | .error (.because setback) => exact Or.inr ⟨⟨hall.settings, hall.capacity⟩, hnone⟩
  | .error .crashed => exact Or.inr ⟨hall, hnone⟩
  | .error .stalled => exact Or.inr ⟨hall, hnone⟩

theorem establish_sound (h : Sound settings s) :
    Ensures establish s fun _ s' => Sound settings s' := by
  refine (establish_spec h.capacity).mono ?_
  intro r s' hend
  rcases hend with ⟨link, rfl⟩ | ⟨hkeeps, hnone⟩
  · exact { h with }
  · exact h.keeps hkeeps hnone

/-- **Every call leaves a sound session behind, whatever it ends in.** -/
theorem perform_sound (request : Request) (h : Sound settings s) :
    Ensures (perform request) s fun _ s' => Sound settings s' :=
  perform_keeps request h (fun request _ _ => exchange_sound request) establish_sound
    (fun h => h.keeps ⟨rfl, rfl⟩ rfl) fun h => h.keeps ⟨rfl, rfl⟩ rfl

/-- **Whatever was done with a session, it is sound.** -/
theorem Reachable.sound (h : Reachable settings s) : Sound settings s := by
  induction h with
  | created hnew => exact new_sound hnew
  | called request _ ih => exact (perform_sound request ih).final
  | touched link _ ih => exact { ih with }

/-- Only settings without contradiction lead to a session. -/
theorem Reachable.fault?_eq (h : Reachable settings s) : settings.fault? = none := by
  induction h with
  | created hnew => exact (new_eq_ok hnew).1
  | called request _ ih => exact ih
  | touched link _ ih => exact ih

theorem Reachable.blockTimeout_pos (h : Reachable settings s) : 0 < settings.blockTimeout := by
  have hfault := h.fault?_eq
  unfold Settings.fault? at hfault
  split at hfault
  · exact absurd hfault nofun
  · exact Nat.pos_of_ne_zero (by assumption)

end SecureElement.Session
