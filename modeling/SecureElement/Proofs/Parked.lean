import SecureElement.Proofs.Guarantees

/-!
# What becomes of a parked block

A parked block is a place in the receive frame and no more. `prefetch` says that it is
kept for the next read, and this file says how far that is true:

* most calls either drop what is parked or leave it alone, frame and all
  (`perform_parked`);
* `resync` and `endApduSession` keep it parked and receive their own response into the
  same frame (`perform_overwrites`).

So what a read takes for the payload is that place in the last block that was received,
whichever it was (`parked_payload`). Where that is the parked block itself the read is
right and cannot crash. `softReset` drops what is parked before it uses the frame;
nothing of the kind is done in the two other calls, and `parked_lost` is what comes of
it.
-/

namespace SecureElement.Session

open Link SecureElement.Action

variable {L : Type} {settings : Settings} {s s' s₁ s₂ : Session (Traced L)}
  {items items' : List Passage}

/-- The record tells what passed in one way only. -/
theorem Passes.unique (h : Passes s items s') (h' : Passes s items' s') : items = items' := by
  obtain ⟨events, hevents, hpass⟩ := h
  obtain ⟨events', hevents', hpass'⟩ := h'
  obtain rfl := List.append_cancel_left (hevents.symm.trans hevents')
  exact (Prod.mk.inj (hpass.symm.trans hpass')).1

variable [Link L]

/-! ## Parking -/

/-- A block that is parked is the last that came, and it is still in the frame. -/
theorem park_spec (hcapacity : Block.longPrologue ≤ s.frame.capacity) :
    Ensures Step.park s fun r s' =>
      match r with
      | .ok () => ∀ inbound, s'.parked = some (.ok inbound) →
          ∃ items raw block, Passes s (items ++ [.received raw]) s' ∧
            Arrived s.codec s'.frame inbound raw block ∧ s'.status = s.status
      | .error _ => True := by
  unfold Step.park
  refine Step.ensures_attempt_bind (Step.awaitBlock_spec hcapacity) ?_ ?_ ?_ ?_
  · intro inbound s₁ hend
    obtain ⟨-, asides, raw, block, htalks, -, harrived⟩ := hend
    rw [ensures_modify]
    intro inbound' hparked
    obtain rfl := Except.ok.inj (Option.some.inj hparked)
    exact ⟨asides, raw, block, htalks.passes.congr rfl, harrived, htalks.status⟩
  · intro setback s₁ _
    cases setback with
    | minor failure =>
        dsimp only
        rw [ensures_modify]
        intro inbound hparked
        exact absurd (Option.some.inj hparked) (by simp)
    | major failure => trivial
  · exact fun _ _ => trivial
  · exact fun _ _ => trivial

/-! ## Calls that drop it or leave it alone -/

/-- Whether a call receives into the frame and forgets nothing. -/
def Request.Overwrites : Request → Prop
  | .resync | .endApduSession => True
  | .establish | .close | .send _ | .receive | .transceive _ | .prefetch | .softReset | .reset
  | .dropResponse => False

/-- Nothing is parked any more, or it is where it was. -/
def KeepsParked (s s' : Session (Traced L)) : Prop :=
  s'.parked = none ∨ (s'.parked = s.parked ∧ s'.frame = s.frame ∧ s'.codec = s.codec)

/-- Nothing is parked, and the session is still in the same call. -/
def Drops (s s' : Session (Traced L)) : Prop :=
  s'.parked = none ∧ Keeps s s' ∧ s'.status = s.status

omit [Link L] in
theorem Within.drops (h : Within s items s') (hnone : s'.parked = none) : Drops s s' :=
  ⟨hnone, h.keeps, h.status⟩

theorem sendChain_drops (command : Bytes) (hcapacity : Block.longPrologue ≤ s.frame.capacity) :
    Ensures (Step.sendChain command) s fun _ s' => Drops s s' := by
  refine (Step.sendChain_spec command hcapacity).mono ?_
  intro r s' hend
  obtain ⟨items, hproceeds, -⟩ := hend
  obtain ⟨hwithin, hnone, -⟩ := hproceeds.of_dropped
  exact hwithin.drops hnone

theorem receiveResponse_drops (hcapacity : Block.longPrologue ≤ s.frame.capacity)
    (hbudget : s.WithinBudget) (hparked : s.ParkedOrdinary) :
    Ensures Step.receiveResponse s fun _ s' => Drops s s' := by
  cases hreceived : s.parked with
  | none =>
      refine (Step.receiveResponse_spec hcapacity hreceived hbudget).mono ?_
      intro r s' hr
      cases r with
      | ok u =>
          obtain ⟨items, blocks, hproceeds, -⟩ := hr
          exact hproceeds.drops (hproceeds.parked.trans hreceived)
      | error stop =>
          obtain ⟨-, items, hproceeds⟩ := hr
          exact hproceeds.drops (hproceeds.parked.trans hreceived)
  | some received =>
      refine (Step.receiveResponse_parked_spec hreceived hcapacity hbudget ?_).mono ?_
      · intro setback h
        subst h
        exact hparked setback hreceived
      · intro r s' hr
        obtain ⟨items, hproceeds⟩ := hr.proceeds
        obtain ⟨hwithin, hnone, -⟩ := hproceeds.of_dropped
        exact hwithin.drops hnone

theorem renewInterface_drops (hcapacity : Block.longPrologue ≤ s.frame.capacity) :
    Ensures Step.renewInterface s fun _ s' => Drops s s' := by
  unfold Step.renewInterface
  rw [ensures_modify_bind]
  refine (Step.resetInterface_spec (s := { s.resetExchange with commandPending := false })
    hcapacity).bind ?_ ?_
  · intro u s₁ hend
    obtain ⟨items, s₂, codec, answer, htalks, rfl, -⟩ := hend
    exact ⟨htalks.parked, ⟨htalks.settings, htalks.capacity⟩, htalks.status⟩
  · intro stop s₁ hend
    obtain ⟨items, -, htalks⟩ := hend
    exact ⟨htalks.parked, ⟨htalks.settings, htalks.capacity⟩, htalks.status⟩

/-- A call drops what is parked if its exchange does. -/
theorem run_drops {α : Type} {exchange : Step (Traced L) α}
    (hcapacity : Block.longPrologue ≤ s.frame.capacity)
    (h : Ensures exchange s.begun fun _ s₁ => Drops s.begun s₁) :
    Ensures (run exchange) s fun _ s' => KeepsParked s s' := by
  cases hready : s.status.isReady with
  | false =>
      refine (run_refused hready).mono ?_
      intro r s' hend
      obtain ⟨rfl, -⟩ := hend
      exact Or.inr ⟨rfl, rfl, rfl⟩
  | true =>
      refine ensures_run hready h ?_ ?_ ?_ ?_
      · intro a s₁ hend
        obtain ⟨hnone, -, hstatus⟩ := hend
        exact ⟨hstatus, Or.inl hnone⟩
      · intro setback s₁ hend
        obtain ⟨-, hkeeps, hstatus⟩ := hend
        refine (recover_spec (s := { s₁ with deadline := none }) setback.failure hstatus
          (hkeeps.holds hcapacity)).mono ?_
        intro r s₂ hr
        cases r with
        | ok told =>
            rcases hr with ⟨-, m, vain, last, -, hrestarts, -⟩ | ⟨-, vain, hgives, -⟩
            · exact Or.inl hrestarts.parked
            · exact Or.inl hgives.parked
        | error stop => exact Or.inl hr.2.2.1
      -- nothing tidies up behind a crash or a stall, but the exchange itself had dropped it
      · exact fun s₁ hP => Or.inl hP.1
      · exact fun s₁ hP => Or.inl hP.1

omit [Link L] in
theorem KeepsParked.trans (h₁ : KeepsParked s s₁) (h₂ : KeepsParked s₁ s₂) : KeepsParked s s₂ := by
  rcases h₂ with h₂ | ⟨hparked₂, hframe₂, hcodec₂⟩
  · exact Or.inl h₂
  · rcases h₁ with h₁ | ⟨hparked₁, hframe₁, hcodec₁⟩
    · exact Or.inl (hparked₂.trans h₁)
    · exact Or.inr ⟨hparked₂.trans hparked₁, hframe₂.trans hframe₁, hcodec₂.trans hcodec₁⟩

theorem send_parked (command : Bytes) (h : Sound settings s) :
    Ensures (send command) s fun _ s' => KeepsParked s s' :=
  run_drops h.capacity (sendChain_drops command h.capacity)

theorem receive_parked (h : Sound settings s) :
    Ensures receive s fun _ s' => KeepsParked s s' := by
  have hrun : Ensures (run Step.receiveResponse) s fun _ s' => KeepsParked s s' :=
    run_drops h.capacity (receiveResponse_drops h.capacity (Nat.zero_le _) h.parkedOrdinary)
  exact hrun.bind_kept fun _ _ h => h

theorem softReset_parked (h : Sound settings s) :
    Ensures softReset s fun _ s' => KeepsParked s s' :=
  run_drops h.capacity (renewInterface_drops h.capacity)

theorem establish_parked (h : Sound settings s) :
    Ensures establish s fun _ s' => KeepsParked s s' := by
  refine (establish_spec h.capacity).mono ?_
  intro r s' hend
  rcases hend with ⟨link, rfl⟩ | ⟨-, hnone⟩
  · exact Or.inr ⟨rfl, rfl, rfl⟩
  · exact Or.inl hnone

/-- **Whatever is parked stays as it is or is dropped**, unless the call is one of the two that use
the frame for themselves. -/
theorem perform_parked {request : Request} (h : Sound settings s) (hparked : s.parked.isSome = true)
    (hoverwrites : ¬ request.Overwrites) :
    Ensures (perform request) s fun _ s' => KeepsParked s s' := by
  cases request with
  | establish => exact (establish_parked h).bind_kept fun _ _ h => h
  | close =>
      have hclosed : KeepsParked s s.close := Or.inl rfl
      exact hclosed
  | send command => exact (send_parked command h).bind_kept fun _ _ h => h
  | receive => exact (receive_parked h).bind_kept fun _ _ h => h
  | transceive command =>
      refine Ensures.bind_kept ?_ fun _ _ h => h
      have hsend := (send_parked command h).and (exchange_sound (.send command) rfl h)
      refine hsend.bind ?_ fun _ _ h => h.1
      intro u s₁ hend
      obtain ⟨hkept, hsound⟩ := hend
      exact (receive_parked hsound).mono fun _ _ hkept' => hkept.trans hkept'
  | prefetch =>
      refine Ensures.bind_kept ?_ fun _ _ h => h
      unfold prefetch
      rw [ensures_get_bind, if_pos hparked]
      exact Or.inr ⟨rfl, rfl, rfl⟩
  | resync => exact absurd trivial hoverwrites
  | softReset => exact (softReset_parked h).bind_kept fun _ _ h => h
  | endApduSession => exact absurd trivial hoverwrites
  | reset =>
      refine Ensures.bind_kept ?_ fun _ _ h => h
      unfold reset
      rw [ensures_get_bind]
      split
      · exact softReset_parked h
      · exact establish_parked h
  | dropResponse =>
      have hdropped : KeepsParked s s.dropResponse := Or.inl rfl
      exact hdropped

/-! ## Calls that use its frame -/

/-- What a call that overwrites the frame leaves in it: the last block that it received. -/
def Overwritten (s s' : Session (Traced L)) : Prop :=
  s'.parked = s.parked ∧ s'.codec = s.codec ∧ ∃ items raw,
    Passes s (items ++ [.received raw]) s' ∧ s'.frame.used = raw

theorem run_overwrites {α : Type} {exchange : Step (Traced L) α}
    (h : Ensures exchange s.begun fun r s₁ =>
      match r with
      | .ok _ => Overwritten s.begun s₁ ∧ s₁.status = s.begun.status
      | .error _ => True) :
    Ensures (run exchange) s fun r s' =>
      match r with
      | .ok _ => Overwritten s s'
      | .error _ => True := by
  refine run_value (P := fun _ s' => Overwritten s s') (h.mono ?_)
  intro r s₁ hr
  cases r with
  | ok a =>
      obtain ⟨⟨hparked, hcodec, items, raw, hpasses, hused⟩, hstatus⟩ := hr
      exact ⟨hstatus, hparked, hcodec, items, raw, hpasses.congr rfl, hused⟩
  | error stop => trivial

/-- The response to a supervisory request is in the frame, and what was parked is still parked. -/
theorem supervise_overwrites (function : Supervisory)
    (hcapacity : Block.longPrologue ≤ s.frame.capacity) :
    Ensures (Step.supervise function) s fun r s' =>
      match r with
      | .ok _ => Overwritten s s' ∧ s'.status = s.status
      | .error _ => True := by
  refine (Step.supervise_spec function hcapacity).mono ?_
  intro r s' hend
  obtain ⟨items, htalks, hr⟩ := hend
  cases r with
  | ok inbound =>
      obtain ⟨-, raw, block, hlast, harrived⟩ := hr
      obtain ⟨front, rfl⟩ := List.getLast?_eq_some_iff.mp hlast
      exact ⟨⟨htalks.parked, htalks.codec, front, raw, htalks.passes, harrived.used⟩, htalks.status⟩
  | error stop => trivial

/-- The two other calls leave it parked, over a frame that is no longer its own. -/
theorem perform_overwrites {request : Request} (h : Sound settings s)
    (hoverwrites : request.Overwrites) :
    Ensures (perform request) s fun r s' =>
      match r with
      | .ok _ => Overwritten s s'
      | .error _ => True := by
  cases request with
  | resync =>
      have hrun : Ensures resync s fun r s' =>
          match r with
          | .ok _ => Overwritten s s'
          | .error _ => True := by
        refine run_overwrites ?_
        refine (supervise_overwrites (s := s.begun) .resync h.capacity).bind ?_ fun _ _ h => h
        intro inbound s₁ hend
        obtain ⟨⟨hparked, hcodec, items, raw, hpasses, hused⟩, hstatus⟩ := hend
        exact ⟨⟨hparked, hcodec, items, raw, hpasses.congr rfl, hused⟩, hstatus⟩
      exact hrun.bind (fun _ _ h => h) fun _ _ h => h
  | endApduSession =>
      have hrun : Ensures endApduSession s fun r s' =>
          match r with
          | .ok _ => Overwritten s s'
          | .error _ => True := by
        refine run_overwrites ?_
        exact (supervise_overwrites (s := s.begun) .endApduSession h.capacity).bind
          (fun _ _ h => h) fun _ _ h => h
      exact hrun.bind (fun _ _ h => h) fun _ _ h => h
  | establish | close | send _ | receive | transceive _ | prefetch | softReset | reset
    | dropResponse => exact hoverwrites.elim

/-! ## Reading it -/

/-- A response that begins with whatever `octets` hold in the place of the payload, and that ends
there if no other block follows. -/
def Resumes (octets : Bytes) (inbound : Inbound) (more : Bool) (bytes : Bytes) : Prop :=
  ∃ payload rest, inbound.payload? octets = some payload ∧ bytes = payload ++ rest ∧
    (more = false → rest = [])

/-- What a read makes of a parked block: the payload is whatever the frame holds in its place, and
there is no other reason to crash but a place that is not there. -/
theorem receive_resumes {inbound : Inbound} (h : Sound settings s)
    (hparked : s.parked = some (.ok inbound)) :
    Ensures receive s fun r _ =>
      match r with
      | .ok bytes => ∀ more, inbound.control = .information s.recvSeq more →
          Resumes s.frame.used inbound more bytes
      | .error .crashed => inbound.payload? s.frame.used = none ∨
          counterMax ≤ s.settings.blockRetransmits
      | .error _ => True := by
  have hresponse := Step.receiveResponse_parked_spec (s := s.begun) hparked h.capacity
    (Nat.zero_le _) fun _ h => absurd h (by simp)
  unfold receive
  refine Ensures.bind (P := fun r s' =>
    match r with
    | .ok () => ∀ more, inbound.control = .information s.recvSeq more →
        Resumes s.frame.used inbound more s'.responseBytes
    | .error .crashed => inbound.payload? s.frame.used = none ∨
        counterMax ≤ s.settings.blockRetransmits
    | .error _ => True) ?_ ?_ ?_
  · cases hready : s.status.isReady with
    | false =>
        refine (run_refused hready).mono ?_
        intro r s' hend
        obtain ⟨-, failure, rfl, -⟩ := hend
        trivial
    | true =>
    refine ensures_run hready hresponse ?_ ?_ ?_ ?_
    · intro u s₁ hend
      -- either the parked block was accepted first, or it is not the one that is expected
      obtain ⟨items, blocks, hproceeds, -,
        ⟨inbound', payload, more, hinbound, hcontrol, hpayload, hbytes, -, hrest⟩ |
        ⟨hnot, -⟩⟩ := hend
      · obtain rfl := Except.ok.inj hinbound
        refine ⟨hproceeds.status, fun more' hcontrol' => ⟨payload, _, hpayload, hbytes, ?_⟩⟩
        intro hlast
        subst hlast
        rw [hcontrol'] at hcontrol
        obtain ⟨-, rfl⟩ := Control.information.inj hcontrol
        obtain ⟨-, rfl⟩ := hrest
        rfl
      · exact ⟨hproceeds.status, fun more hcontrol => absurd hcontrol (hnot inbound rfl more)⟩
    · intro setback s₁ hend
      obtain ⟨-, items, hproceeds⟩ := hend
      refine (recover_spec (s := { s₁ with deadline := none }) setback.failure hproceeds.status
        (hproceeds.holds h.capacity)).mono ?_
      intro r s₂ hr
      cases r with
      | ok told => trivial
      | error stop =>
          obtain ⟨rfl, -⟩ := hr
          trivial
    · intro s₁ hend
      obtain ⟨horderly | ⟨inbound', hinbound, hnone, -⟩, items, hproceeds⟩ := hend
      · -- a count of tries that is full crashes too, with or without anything parked
        refine Or.inr ?_
        have hsettings : s₁.settings = s.settings := hproceeds.settings
        rw [← hsettings]
        exact horderly
      · obtain rfl := Except.ok.inj hinbound
        exact Or.inl hnone
    · exact fun _ _ => trivial
  · intro u s₁ hbytes
    exact hbytes
  · intro stop s₁ hstop
    cases stop <;> exact hstop

omit [Link L] in
/-- An action that crashes first crashes. -/
theorem crashes_bind {ε α β : Type} {x : Action ε (Traced L) β} {f : β → Action ε (Traced L) α}
    (h : Ensures x s fun r _ => r = .error .crashed) :
    Ensures (x >>= f) s fun r _ => r = .error .crashed := by
  refine h.bind ?_ ?_
  · intro b s' hb
    exact absurd hb (by simp)
  · intro stop s' hstop
    exact congrArg _ (Except.error.inj hstop)

/-- A place that is not there ends the first round on the spot, if the block would be accepted. -/
theorem receiveRound_crashes {inbound : Inbound} {more : Bool}
    (hcapacity : Block.longPrologue ≤ s.frame.capacity) (hparked : s.parked = some (.ok inbound))
    (hcontrol : inbound.control = .information s.recvSeq more)
    (hnone : inbound.payload? s.frame.used = none) :
    Ensures (Step.receiveRound ()) s fun r _ => r = .error .crashed := by
  unfold Step.receiveRound
  refine (Step.nextBlock_spec hcapacity).bind ?_ ?_
  · intro received s₁ hend
    obtain ⟨-, hnext⟩ := hend
    rw [hparked] at hnext
    obtain ⟨rfl, rfl⟩ := hnext
    unfold Step.dealWith
    rw [ensures_get_bind, hcontrol]
    dsimp only
    rw [if_pos rfl]
    refine crashes_bind ?_
    unfold Step.accept
    rw [ensures_get_bind]
    dsimp only
    rw [hnone]
    rfl
  · intro stop s₁ hend
    obtain ⟨-, hnext⟩ := hend
    rw [hparked] at hnext
    exact hnext.elim

/-- **A read crashes if the place of the parked block is not there any more**, as far as the block
would be accepted. -/
theorem receive_crashes {inbound : Inbound} {more : Bool} (hready : s.status.isReady = true)
    (hcapacity : Block.longPrologue ≤ s.frame.capacity) (hparked : s.parked = some (.ok inbound))
    (hcontrol : inbound.control = .information s.recvSeq more)
    (hnone : inbound.payload? s.frame.used = none) : receive.result s = .error .crashed := by
  refine Ensures.result (P := fun r => r = .error .crashed) (crashes_bind ?_)
  have hresponse : Ensures Step.receiveResponse s.begun fun r _ => r = .error .crashed := by
    unfold Step.receiveResponse
    rw [ensures_modify_bind, ensures_get_bind]
    dsimp only
    obtain ⟨rounds, hrounds⟩ : ∃ rounds,
        (backlog s.begun.link + 2) * (s.begun.settings.blockRetransmits + 1) = rounds + 1 :=
      Nat.exists_eq_succ_of_ne_zero (Nat.mul_ne_zero (Nat.succ_ne_zero _) (Nat.succ_ne_zero _))
    rw [hrounds]
    exact crashes_bind (receiveRound_crashes
      (s := { s.begun with response := s.begun.response.clear }) hcapacity hparked hcontrol hnone)
  refine ensures_run hready hresponse ?_ ?_ ?_ ?_
  · intro u s₁ h
    exact absurd h (by simp)
  · intro setback s₁ h
    exact absurd (Except.error.inj h) (by simp)
  · exact fun _ _ => rfl
  · intro s₁ h
    exact absurd (Except.error.inj h) (by simp)

/-! ## From parking to reading -/

/-- What may happen between the call that parked a block and the next read, as long as the block is
still parked, together with the last block that was received by then. -/
inductive Since (s₁ : Session (Traced L)) (raw₁ : Bytes) : Session (Traced L) → Bytes → Prop where
  /-- Nothing happened. -/
  | parked : Since s₁ raw₁ s₁ raw₁
  /-- Something was done to the link. -/
  | touched {s : Session (Traced L)} {raw : Bytes} (link : Traced L) :
      Since s₁ raw₁ s raw → Since s₁ raw₁ { s with link } raw
  /-- A call was made, whatever it ended in, that has no use for the frame. -/
  | kept {s : Session (Traced L)} {raw : Bytes} {request : Request} : Since s₁ raw₁ s raw →
      ¬ request.Overwrites → ((perform request).final s).parked.isSome = true →
      Since s₁ raw₁ ((perform request).final s) raw
  /-- A call that uses the frame succeeded, and `raw'` is the last block that it received. -/
  | overwritten {s s' : Session (Traced L)} {raw raw' : Bytes} {request : Request}
      {response : Option Bytes} {items : List Passage} : Since s₁ raw₁ s raw → request.Overwrites →
      perform request s = .ok response s' → Passes s (items ++ [.received raw']) s' →
      Since s₁ raw₁ s' raw'
  /-- Such a call failed. -/
  | failed {s s' : Session (Traced L)} {raw : Bytes} {request : Request} {failure : Failure} :
      Since s₁ raw₁ s raw → request.Overwrites →
      perform request s = .error (.because failure) s' → s'.parked.isSome = true →
      Since s₁ raw₁ s' raw

/-- Where such a call fails it was refused, or nothing is parked any more. -/
theorem perform_overwrites_failed {request : Request} (h : Sound settings s)
    (hoverwrites : request.Overwrites) :
    Ensures (perform request) s fun r s' =>
      match r with
      | .error (.because _) => s' = s ∨ s'.parked = none
      | _ => True := by
  obtain ⟨exchange, hexchange, hrefused⟩ : ∃ exchange : Step (Traced L) Unit,
      request.exchange? = some exchange ∧
      ∀ Q : Except (Stop Failure) (Option Bytes) → Session (Traced L) → Prop,
        Ensures (run exchange >>= fun _ => pure none) s Q → Ensures (perform request) s Q := by
    cases request with
    | resync => exact ⟨_, rfl, fun _ h => h⟩
    | endApduSession => exact ⟨_, rfl, fun _ h => h⟩
    | establish | close | send _ | receive | transceive _ | prefetch | softReset | reset
      | dropResponse => exact hoverwrites.elim
  cases hready : s.status.isReady with
  | false =>
      refine hrefused _ ((run_refused hready).bind ?_ ?_)
      · intro u s' _
        trivial
      · intro stop s' hend
        obtain ⟨rfl, -⟩ := hend
        cases stop with
        | because failure => exact Or.inl rfl
        | crashed => trivial
        | stalled => trivial
  | true =>
      refine (perform_outcome hexchange hready h.capacity h.parkedOrdinary h.opened).mono ?_
      intro r s' hend
      obtain ⟨-, hr⟩ := hend
      match r with
      | .ok response => trivial
      | .error (.because told) =>
          obtain ⟨fault, s₁, front, -, -, -,
            ⟨-, m, vain, last, -, hrestarts, -⟩ | ⟨-, vain, hgives, -⟩⟩ := hr
          · exact Or.inr hrestarts.parked
          · exact Or.inr hgives.parked
      | .error .crashed => trivial
      | .error .stalled => trivial

/-- **As long as a block is parked, its place lies in the last block that was received.** -/
theorem Since.frame {raw₁ raw₂ : Bytes} {received : Except Setback Inbound}
    (h : Since s₁ raw₁ s₂ raw₂) (hsound : Sound settings s₁)
    (hparked : s₁.parked = some received) (hused : s₁.frame.used = raw₁) :
    Sound settings s₂ ∧ s₂.parked = some received ∧ s₂.frame.used = raw₂ ∧ s₂.codec = s₁.codec := by
  induction h with
  | parked => exact ⟨hsound, hparked, hused, rfl⟩
  | touched link _ ih =>
      obtain ⟨hsound', hparked', hused', hcodec'⟩ := ih
      exact ⟨{ hsound' with }, hparked', hused', hcodec'⟩
  | @kept s raw request _ hoverwrites hstill ih =>
      obtain ⟨hsound', hparked', hused', hcodec'⟩ := ih
      have hsome : s.parked.isSome = true := by rw [hparked']; rfl
      refine ⟨(perform_sound request hsound').final, ?_⟩
      rcases (perform_parked hsound' hsome hoverwrites).final with hnone | ⟨hsame, hframe, hcodec⟩
      · rw [hnone] at hstill
        exact absurd hstill Bool.false_ne_true
      · exact ⟨hsame.trans hparked', by rw [hframe, hused'], hcodec.trans hcodec'⟩
  -- the frame changes hands: what is known of the block before is of no use any more
  | @overwritten s s' raw raw' request response items _ hoverwrites hcall hpasses ih =>
      obtain ⟨hsound', hparked', -, hcodec'⟩ := ih
      refine ⟨(perform_sound request hsound').ok hcall, ?_⟩
      obtain ⟨hsame, hcodec, items', raw'', hpasses', hused''⟩ :=
        (perform_overwrites hsound' hoverwrites).ok hcall
      obtain ⟨-, hlast⟩ := List.append_inj' (hpasses.unique hpasses') rfl
      obtain rfl := Passage.received.inj (List.cons.inj hlast).1
      exact ⟨hsame.trans hparked', hused'', hcodec.trans hcodec'⟩
  -- a failure that leaves the block parked was a refusal, since recovery drops it
  | @failed s s' raw request failure _ hoverwrites hcall hstill ih =>
      obtain ⟨hsound', hparked', hused', hcodec'⟩ := ih
      rcases (perform_overwrites_failed hsound' hoverwrites).error hcall with rfl | hnone
      · exact ⟨hsound', hparked', hused', hcodec'⟩
      · rw [hnone] at hstill
        exact absurd hstill Bool.false_ne_true

/-- **Nothing else can happen**: whatever the call, as long as it returns and the block is still
parked, it is one of these. -/
theorem Since.called {raw₁ raw : Bytes} {received : Except Setback Inbound}
    (h : Since s₁ raw₁ s raw) (hsound : Sound settings s₁) (hparked : s₁.parked = some received)
    (hused : s₁.frame.used = raw₁) (request : Request)
    (hcrashed : (perform request).result s ≠ .error .crashed)
    (hstalled : (perform request).result s ≠ .error .stalled)
    (hstill : ((perform request).final s).parked.isSome = true) :
    ∃ raw', Since s₁ raw₁ ((perform request).final s) raw' := by
  by_cases hoverwrites : request.Overwrites
  · obtain ⟨hsound', -, -, -⟩ := h.frame hsound hparked hused
    cases hresult : (perform request).result s with
    | ok response =>
        have hcall := eq_ok_of_result hresult
        -- which block the call received last is not for the caller to choose
        obtain ⟨-, -, items, raw', hpasses, -⟩ :=
          (perform_overwrites hsound' hoverwrites).ok hcall
        exact ⟨raw', .overwritten h hoverwrites hcall hpasses⟩
    | error stop =>
        have hcall := eq_error_of_result hresult
        cases stop with
        | because failure => exact ⟨raw, .failed h hoverwrites hcall hstill⟩
        | crashed => exact absurd hresult hcrashed
        | stalled => exact absurd hresult hstalled
  · exact ⟨raw, .kept h hoverwrites hstill⟩

/-- What a call of `prefetch` parked is the last block that it received. -/
theorem prefetch_parks {inbound : Inbound} (h : Sound settings s) (hnone : s.parked = none)
    (hcall : prefetch s = .ok () s₁) (hparked : s₁.parked = some (.ok inbound)) :
    ∃ items raw block, Passes s (items ++ [.received raw]) s₁ ∧
      Arrived s.codec s₁.frame inbound raw block := by
  have hprefetch : Ensures prefetch s fun r s' =>
      match r with
      | .ok () => ∀ inbound, s'.parked = some (.ok inbound) →
          ∃ items raw block, Passes s (items ++ [.received raw]) s' ∧
            Arrived s.codec s'.frame inbound raw block
      | .error _ => True := by
    unfold prefetch
    rw [ensures_get_bind, hnone, if_neg (show ¬ (none : Option _).isSome = true from
      Bool.false_ne_true)]
    refine run_value (P := fun _ s' => ∀ inbound, s'.parked = some (.ok inbound) →
      ∃ items raw block, Passes s (items ++ [.received raw]) s' ∧
        Arrived s.codec s'.frame inbound raw block) ?_
    refine ((park_spec (s := s.begun) h.capacity).and
      (park_exchanged (s := s.begun) h.capacity h.parkedOrdinary)).mono ?_
    intro r s' hend
    cases r with
    | ok u =>
        obtain ⟨hparks, ⟨-, hstatus, -⟩, -⟩ := hend
        refine ⟨hstatus, fun inbound hsome => ?_⟩
        obtain ⟨items, raw, block, hpasses, harrived, -⟩ := hparks inbound hsome
        exact ⟨items, raw, block, hpasses.congr rfl, harrived⟩
    | error stop => trivial
  exact hprefetch.ok hcall inbound hparked

/--
**A read takes the parked place out of the last block that was received.** `raw` is the
block that was parked, `raw₂` the last that came by the time of the read. Where the
place holds the same octets in both, and above all where nothing came in between, the
read is right: it begins with the payload of the parked block and does not crash.
Where `raw₂` is too short for it the read crashes.
-/
theorem parked_payload {inbound : Inbound} (h : Reachable settings s) (hnone : s.parked = none)
    (hcall : prefetch s = .ok () s₁) (hparked : s₁.parked = some (.ok inbound)) :
    ∃ items raw block, Passes s (items ++ [.received raw]) s₁ ∧
      s.codec.decode raw = .ok block ∧ inbound.control = block.control ∧
      inbound.payload? raw = some block.payload ∧
      ∀ s₂ raw₂, Since s₁ raw s₂ raw₂ →
        s₂.parked = some (.ok inbound) ∧ s₂.frame.used = raw₂ ∧
        (∀ bytes s₃, receive s₂ = .ok bytes s₃ →
          ∀ more, block.control = .information s₂.recvSeq more →
            ∃ payload rest, inbound.payload? raw₂ = some payload ∧ bytes = payload ++ rest ∧
              (more = false → rest = [])) ∧
        (∀ s₃, receive s₂ = .error .crashed s₃ →
          inbound.payload? raw₂ = none ∨ counterMax ≤ settings.blockRetransmits) ∧
        (∀ more, s₂.status.isReady = true → block.control = .information s₂.recvSeq more →
          inbound.payload? raw₂ = none → receive.result s₂ = .error .crashed) := by
  have hsound₁ : Sound settings s₁ := by
    have hperform : perform .prefetch s = .ok none s₁ := bind_of_ok hcall
    exact (perform_sound .prefetch h.sound).ok hperform
  obtain ⟨items, raw, block, hpasses, harrived⟩ := prefetch_parks h.sound hnone hcall hparked
  refine ⟨items, raw, block, hpasses, harrived.decode, harrived.control, harrived.payload, ?_⟩
  intro s₂ raw₂ hsince
  obtain ⟨hsound₂, hparked₂, hused₂, -⟩ := hsince.frame hsound₁ hparked harrived.used
  have hread := receive_resumes hsound₂ hparked₂
  rw [hused₂, hsound₂.settings] at hread
  refine ⟨hparked₂, hused₂, ?_, ?_, ?_⟩
  · intro bytes s₃ hreceive more hcontrol
    exact hread.ok hreceive more (harrived.control.trans hcontrol)
  · intro s₃ hreceive
    exact hread.error hreceive
  · intro more hready hcontrol hgone
    rw [← hused₂] at hgone
    exact receive_crashes hready hsound₂.capacity hparked₂ (harrived.control.trans hcontrol) hgone

/-- A session whose element answers the handshake, sends a block of two octets unasked and answers
one request to resynchronise. -/
def parking : Session (Traced Rehearsal) :=
  (perform .establish).final
    (rehearse [[0xA5, 0xE0, 0, 0x45], [0xA5, 0, 2, 0x61, 0x10, 0xD6], [0xA5, 0xE0, 0, 0x45]])

/-- The same once the block is parked. -/
def parkedSession : Session (Traced Rehearsal) := prefetch.final parking

/-- The place of its payload. -/
def parkedInbound : Inbound := { control := .information .zero false, start := 3, stop := 5 }

theorem parked_payload_parking :
    ∃ s₃, Reachable rehearsalSettings parking ∧ parking.parked = none ∧
      prefetch parking = .ok () parkedSession ∧
      parkedSession.parked = some (.ok parkedInbound) ∧
      receive parkedSession = .ok [0x61, 0x10] s₃ ∧
      ∃ raw payload rest, parkedInbound.payload? raw = some payload ∧
        [0x61, 0x10] = payload ++ rest := by
  have hreachable : Reachable rehearsalSettings parking := .called _ (rehearse_reachable _)
  have hnone : parking.parked = none := by decide +kernel
  have hresult : prefetch.result parking = .ok () := by decide +kernel
  have hcall : prefetch parking = .ok () parkedSession := eq_ok_of_result hresult
  have hparked : parkedSession.parked = some (.ok parkedInbound) := by decide +kernel
  have hread : receive.result parkedSession = .ok [0x61, 0x10] := by decide +kernel
  have hseq : parkedSession.recvSeq = .zero := by decide +kernel
  obtain ⟨items, raw, block, -, -, hcontrol, -, hsince⟩ :=
    parked_payload hreachable hnone hcall hparked
  obtain ⟨-, -, hok, -⟩ := hsince _ _ .parked
  obtain ⟨payload, rest, hpayload, hbytes, -⟩ := hok _ _ (eq_ok_of_result hread) false (by
    rw [← hcontrol, hseq]
    rfl)
  exact ⟨_, hreachable, hnone, hcall, hparked, eq_ok_of_result hread, raw, payload, rest, hpayload,
    hbytes⟩

/-- **Resynchronising costs the payload of a parked block.** The block is still parked and would be
accepted, and the read of it crashes. -/
theorem parked_lost :
    ∃ s₂, Reachable rehearsalSettings parking ∧ parking.parked = none ∧
      prefetch parking = .ok () parkedSession ∧
      parkedSession.parked = some (.ok parkedInbound) ∧
      parkedInbound.payload? parkedSession.frame.used = some [0x61, 0x10] ∧
      perform .resync parkedSession = .ok none s₂ ∧ s₂.parked = some (.ok parkedInbound) ∧
      parkedInbound.payload? s₂.frame.used = none ∧ receive.result s₂ = .error .crashed := by
  have hresult : prefetch.result parking = .ok () := by decide +kernel
  have hresync : (perform .resync).result parkedSession = .ok none := by decide +kernel
  refine ⟨(perform .resync).final parkedSession, .called _ (rehearse_reachable _), ?_,
    eq_ok_of_result hresult, ?_, ?_, eq_ok_of_result hresync, ?_, ?_, ?_⟩
  · decide +kernel
  · decide +kernel
  · decide +kernel
  · decide +kernel
  · decide +kernel
  · decide +kernel

end SecureElement.Session
