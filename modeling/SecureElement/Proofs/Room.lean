import SecureElement.Proofs.Equipment
import SecureElement.Proofs.Outline
import SecureElement.Proofs.Tolerance

/-!
# Room for every block

Two kinds of failure say that octets did not fit: a block carries more than its codec
allows, or a buffer is too small. A session makes its own blocks and has its own buffers,
so none of this should ever happen to it but for one case: the element decides how long a
response is, and the buffer for that is as large as the settings say.

`Roomy` is what a session has to be like for this. Its codec and the answer to reset are
parameters, since no step but `resetInterface` changes them; so each lemma below also says
that they stay.

* A step is `InRoom` if it leaves a roomy session roomy and never fails for want of room.
  Every exchange but `receiveResponse` and the resets is (`sendChain_inRoom`,
  `supervise_inRoom`, `park_inRoom`).
* A read may fail in one way more: its response is `Overfull`
  (`receiveResponse_room`).
-/

namespace SecureElement

namespace Failure

/-- Whether this is told of octets that did not fit: a block with too long a payload, or an
overflow. -/
def isMisfit : Failure → Bool
  | openFailed cause => cause.isMisfit
  | malformed defect => defect.text = Block.Defect.oversized.text
  | overflow _ => true
  | _ => false

theorem isMisfit_toOpenFailed (failure : Failure) :
    failure.toOpenFailed.isMisfit = failure.isMisfit := by
  cases failure <;> rfl

theorem ofLink_isMisfit (fault : Link.Fault) : (ofLink fault).isMisfit = false := by
  cases fault <;> rfl

end Failure

/-- A fault that is not for want of room. -/
def Setback.Fits (setback : Setback) : Prop := setback.failure.isMisfit = false

theorem Setback.fits_ofLink (fault : Link.Fault) : (Setback.ofLink fault).Fits := by
  cases fault <;> rfl

theorem Inbound.rejection_fits (inbound : Inbound) : inbound.rejection.isMisfit = false := by
  unfold Inbound.rejection
  split
  · rfl
  · decide
  · rfl

namespace Codec

variable {c : Codec} {raw octets : Bytes} {fault : Block.Fault}

/-- Octets that are read are never objected to for want of room. -/
theorem decode_fits (h : c.decode raw = .error fault) :
    (Failure.ofBlock fault).isMisfit = false := by
  have hmalformed : ∀ defect : Block.Defect, (Failure.malformed defect).isMisfit = false →
      Except.error (.malformed defect) = (.error fault : Except Block.Fault Block) →
      (Failure.ofBlock fault).isMisfit = false := by
    intro defect hfits hsame
    obtain rfl := Except.error.inj hsame
    exact hfits
  unfold decode at h
  simp only [bind, Except.bind] at h
  split at h
  · split at h
    · exact hmalformed .truncated (by decide) h
    · split at h
      · exact hmalformed .lengthMismatch (by decide) h
      · split at h
        · obtain rfl := Except.error.inj h
          rfl
        · split at h
          · split at h
            · exact hmalformed .foreignAddress (by decide) h
            · split at h
              · rename_i defect hdefect
                refine hmalformed defect ?_ h
                unfold payloadDefect? at hdefect
                split at hdefect
                · split at hdefect
                  · exact absurd hdefect nofun
                  · obtain rfl := Option.some.inj hdefect
                    decide
                · split at hdefect
                  · exact absurd hdefect nofun
                  · obtain rfl := Option.some.inj hdefect
                    decide
                · exact absurd hdefect nofun
              · exact absurd h nofun
          · exact hmalformed .unknownControl (by decide) h
  · exact hmalformed .truncated (by decide) h

theorem bodyLength_fits (h : c.bodyLength octets = .error fault) :
    (Failure.ofBlock fault).isMisfit = false := by
  have hincomplete : Except.error (.malformed .prologueIncomplete)
      = (.error fault : Except Block.Fault Nat) → (Failure.ofBlock fault).isMisfit = false := by
    intro hsame
    obtain rfl := Except.error.inj hsame
    decide
  unfold bodyLength at h
  split at h
  · split at h
    · exact hincomplete h
    · exact absurd h nofun
  · split at h
    · exact absurd h nofun
    · exact hincomplete h
  · exact hincomplete h

end Codec

namespace Session

variable {L : Type} {c : Codec} {known : Option AnswerToReset} {s : Session L}

/-- What is parked is no fault for want of room. -/
def ParkedFits (s : Session L) : Prop :=
  ∀ setback, s.parked = some (.error setback) → setback.Fits

theorem parkedFits_of_none {s : Session L} (h : s.parked = none) : s.ParkedFits := by
  intro setback hsome
  rw [h] at hsome
  cases hsome

/-- Every block that a session makes and the front of every block that it receives has its room, and
nothing parked says otherwise. -/
structure Roomy (c : Codec) (known : Option AnswerToReset) (s : Session L) : Prop where
  codec : s.codec = c
  answer : s.answer = known
  staging : c.frameCapacity ≤ s.command.capacity
  frame : Block.longPrologue ≤ s.frame.capacity
  parked : s.ParkedFits

/-- The frame has been used. -/
theorem Roomy.framed {link : L} {frame : Buffer} (h : Roomy c known s)
    (hframe : frame.capacity = s.frame.capacity) : Roomy c known { s with link, frame } :=
  { h with frame := by rw [hframe]; exact h.frame }

/-- The same, as what is known of a fault in any session. -/
def Fitting (setback : Setback) (_ : Session L) : Prop := setback.Fits

/-- There was no room in the response for the payload of the block in the frame. -/
def Overfull (setback : Setback) (s : Session L) : Prop :=
  ∃ (overflow : Buffer.Overflow) (inbound : Inbound) (payload : Bytes),
    setback = .major (.overflow overflow) ∧ inbound.payload? s.frame.used = some payload
      ∧ s.response.append payload = .error overflow

end Session

namespace Action

open Session

variable {L α : Type} {c : Codec} {known : Option AnswerToReset}

/-- A roomy session is still roomy behind this step, and the step never fails for want of room. -/
def InRoom (c : Codec) (known : Option AnswerToReset) (x : Action Setback L α) : Prop :=
  x.Maintains (Roomy c known) Fitting

theorem inRoom_fail {setback : Setback} (h : setback.Fits) :
    (fail setback : Action Setback L α).InRoom c known :=
  fun _ hs => kept_fault hs h

end Action

namespace Step

open SecureElement.Action Session

variable {L α σ : Type} {c : Codec} {known : Option AnswerToReset} {s : Session L}
  {setback : Setback}

/-! ## Tries -/

/-- A charge passes on the fault that it is made for. -/
theorem charge_inRoom (h : setback.Fits) : (charge setback : Step L Unit).InRoom c known := by
  intro s hs
  unfold charge
  cases setback with
  | major failure => exact kept_fault hs h
  | minor failure =>
      have hcharged : ∀ retries statistics, Roomy c known { s with retries, statistics } :=
        fun _ _ => { hs with }
      dsimp only
      rw [ensures_get_bind]
      split
      · rw [ensures_crash_bind]
        exact kept_crashed hs
      · rw [ensures_set_bind]
        split
        · rw [ensures_fail_bind]
          exact kept_fault (hcharged _ _) h
        · exact kept_ok (hcharged _ _)

theorem orCharge_inRoom {step : Step L Unit} (h : step.InRoom c known) :
    (orCharge step).InRoom c known := by
  refine maintains_attempt_bind h (fun _ => maintains_pure _) ?_
  intro setback s hs hfits
  exact charge_inRoom hfits s hs

/-- A block that the codec allows is staged. -/
theorem stage_inRoom {block : Block} (h : block.payload.length ≤ c.maxPayload) :
    (stage block : Step L Unit).InRoom c known := by
  intro s hs
  obtain rfl := hs.codec
  refine (stage_fits h hs.staging).mono ?_
  intro r s' hend
  obtain ⟨rfl, command, rfl, hcapacity⟩ := hend
  exact kept_ok { hs with staging := by rw [hcapacity]; exact hs.staging }

variable [Link L]

/-! ## Single blocks -/

theorem transmit_inRoom (frame : Bytes) :
    (transmit frame : Step L Unit).InRoom c known := by
  refine maintains_modify_bind (fun _ hs => { hs with }) fun _ => maintains_get.bind fun _ => ?_
  intro s hs
  have hlinked : ∀ link : L, Roomy c known { s with link } := fun _ => { hs with }
  dsimp only
  rw [ensures_onLink_bind]
  split
  · exact kept_ok (hlinked _)
  · exact kept_fault (hlinked _) (Setback.fits_ofLink _)

theorem sendControl_inRoom {block : Block} (hpayload : block.payload.length ≤ 2)
    (hcontrol : ∀ seq more, block.control ≠ .information seq more) :
    (sendControl block : Step L Unit).InRoom c known := by
  refine maintains_get.bind fun s => ?_
  rw [Codec.encodeWithin_control hpayload hcontrol (by unfold controlFrameMax; omega)]
  exact transmit_inRoom _

/-- Reading into the frame never fails for want of room if there is some. -/
theorem readFrame_room (n : Nat) (timeout : Nanos) :
    Ensures (readFrame n timeout) s fun r s' =>
      ∃ link frame, s' = { s with link, frame } ∧ frame.capacity = s.frame.capacity
        ∧ (n ≤ s.frame.room → match r with
          | .ok () => frame.used.length = s.frame.used.length + n
          | .error stop => ∀ setback, stop = .because setback → setback.Fits) := by
  unfold readFrame
  rw [ensures_get_bind]
  cases hclaim : s.frame.claim n with
  | error overflow =>
      refine ⟨s.link, s.frame, rfl, rfl, fun hroom => ?_⟩
      unfold Buffer.claim at hclaim
      rw [if_pos hroom] at hclaim
      exact absurd hclaim nofun
  | ok claimed =>
      dsimp only
      rw [ensures_onLink_bind]
      have hread : (Link.readAll n timeout s.link).1.2 = none →
        (Link.readAll n timeout s.link).1.1.length = n := Link.readUpTo_length timeout n n s.link
      generalize Link.readAll n timeout s.link = result at hread ⊢
      obtain ⟨⟨octets, fault⟩, link⟩ := result
      have hcapacity : (claimed.setTail n octets).capacity = s.frame.capacity :=
        Buffer.capacity_setTail_claim hclaim
      rw [ensures_modify_bind]
      cases fault with
      | none =>
          refine ⟨link, _, rfl, hcapacity, fun _ => ?_⟩
          rw [Buffer.used_setTail_claim hclaim (hread rfl), List.length_append, hread rfl]
      | some fault =>
          refine ⟨link, _, rfl, hcapacity, fun _ setback hstop => ?_⟩
          obtain rfl := Stop.because.inj hstop
          exact Setback.fits_ofLink fault

/-- Dropping octets is not a matter of room: whatever goes wrong with it is not reported. -/
theorem discard_inRoom (timeout : Nanos) : ∀ rounds remaining,
    (discard timeout rounds remaining : Step L Unit).InRoom c known
  | 0, _ => maintains_pure _
  | rounds + 1, remaining => by
      unfold discard
      refine maintains_get.bind fun s => ?_
      dsimp only
      split
      · exact maintains_pure _
      · intro s hs
        refine ensures_attempt_bind (readFrame_room _ timeout) ?_ ?_ ?_ ?_
        · intro u s₁ hend
          obtain ⟨link, frame, rfl, hframe, -⟩ := hend
          dsimp only
          rw [ensures_modify_bind]
          exact discard_inRoom timeout rounds _ _
            (hs.framed ((Buffer.capacity_clear _).trans hframe))
        · intro setback s₁ hend
          obtain ⟨link, frame, rfl, hframe, -⟩ := hend
          exact kept_ok (hs.framed ((Buffer.capacity_clear _).trans hframe))
        · intro s₁ hend
          obtain ⟨link, frame, rfl, hframe, -⟩ := hend
          exact kept_crashed (hs.framed hframe)
        · intro s₁ hend
          obtain ⟨link, frame, rfl, hframe, -⟩ := hend
          exact kept_stalled (hs.framed hframe)

/-- The frame of a roomy session, once emptied, has room for a prologue. -/
theorem readPrologue_inRoom (timeout : Nanos) :
    (readPrologue timeout : Step L Unit).InRoom c known := by
  intro s hs
  have hcells := s.frame.clear.length_used_add_room
  rw [Buffer.used_clear, List.length_nil, Buffer.capacity_clear] at hcells
  have hprologue := hs.frame
  unfold Block.longPrologue at hprologue
  unfold readPrologue
  rw [ensures_modify_bind]
  refine Ensures.bind (readFrame_room _ timeout) ?_ ?_
  · intro u s₁ hend
    obtain ⟨link, frame, rfl, hframe, hread⟩ := hend
    have hshort : frame.used.length = Block.shortPrologue := by
      have hlength := hread (by dsimp only; unfold Block.shortPrologue; omega)
      rwa [Buffer.used_clear, List.length_nil, Nat.zero_add] at hlength
    rw [Buffer.capacity_clear] at hframe
    have hroom : Codec.extension (frame.used.getD 2 0) ≤ frame.room := by
      have hleft := frame.length_used_add_room
      unfold Block.shortPrologue at hshort
      unfold Codec.extension
      split <;> omega
    rw [ensures_get_bind]
    refine (readFrame_room _ timeout).mono ?_
    intro r s₂ hend
    obtain ⟨link', frame', rfl, hframe', hfits⟩ := hend
    refine ⟨hs.framed (hframe'.trans hframe), ?_⟩
    rintro setback rfl
    exact hfits hroom setback rfl
  · intro stop s₁ hend
    obtain ⟨link, frame, rfl, hframe, hfits⟩ := hend
    refine ⟨hs.framed (hframe.trans (Buffer.capacity_clear _)), fun setback hstop => ?_⟩
    exact hfits (by dsimp only; unfold Block.shortPrologue; omega) setback (Except.error.inj hstop)

theorem receiveBlock_inRoom (timeout : Nanos) :
    (receiveBlock timeout : Step L Inbound).InRoom c known := by
  have hblock : ∀ start, (readBlock start : Step L Inbound).InRoom c known := by
    intro start
    refine maintains_modify_bind (fun _ hs => { hs with }) fun _ => ?_
    intro s hs
    rw [ensures_get_bind]
    split
    · exact kept_ok hs
    · rename_i fault hdecode
      have hfits : (Setback.minor (.ofBlock fault)).Fits := Codec.decode_fits hdecode
      have hcounted : ∀ statistics, Roomy c known { s with statistics } := fun _ => { hs with }
      split
      · exact kept_fault (hcounted _) hfits
      · exact kept_fault hs hfits
  refine (readPrologue_inRoom timeout).bind fun _ => ?_
  intro s hs
  rw [ensures_get_bind]
  split
  · rename_i fault hlength
    exact kept_fault hs (Codec.bodyLength_fits hlength)
  · rename_i body hlength
    split
    · have hbeyond : (Setback.major (.malformed .beyondFrame)).Fits := by
        unfold Setback.Fits
        decide
      rw [ensures_modify_bind]
      exact ((discard_inRoom timeout body body).bind fun _ => inRoom_fail hbeyond) _
        (hs.framed (Buffer.capacity_clear _))
    · have hroom : body ≤ s.frame.room := by
        have hcells := s.frame.length_used_add_room
        omega
      refine Ensures.bind (readFrame_room body timeout) ?_ ?_
      · intro u s₁ hend
        obtain ⟨link, frame, rfl, hframe, -⟩ := hend
        exact hblock _ _ (hs.framed hframe)
      · intro stop s₁ hend
        obtain ⟨link, frame, rfl, hframe, hfits⟩ := hend
        exact ⟨hs.framed hframe, fun setback hstop =>
          hfits hroom setback (Except.error.inj hstop)⟩

theorem awaitRound_inRoom (timeout : Nanos) :
    (awaitRound timeout : Step L (Nanos ⊕ Inbound)).InRoom c known := by
  have hwait : (waitTime timeout : Step L Nanos).InRoom c known := by
    refine maintains_get.bind fun s => ?_
    split
    · exact maintains_pure _
    · dsimp only
      split
      · exact inRoom_fail rfl
      · exact maintains_pure _
  have hextend : ∀ multiplier, (extendWait multiplier : Step L Nanos).InRoom c known := by
    intro multiplier s hs
    have hgranted : ∀ extension statistics deadline,
        Roomy c known { s with extension, statistics, deadline } := fun _ _ _ => { hs with }
    unfold extendWait
    split
    · exact kept_fault hs rfl
    · dsimp only
      rw [ensures_modify_bind, ensures_get_bind]
      split
      · exact kept_fault (hgranted _ _ _) rfl
      · exact kept_ok (hgranted _ _ _)
  refine hwait.bind fun wait => (receiveBlock_inRoom wait).bind fun inbound => ?_
  refine maintains_get.bind fun s => ?_
  split
  · refine (hextend _).bind fun _ => (sendControl_inRoom ?_ ?_).bind fun _ => maintains_pure _
    · exact Nat.le_succ 1
    · exact fun _ _ h => Control.noConfusion h
  · split
    · exact maintains_pure _
    · refine (sendControl_inRoom ?_ ?_).bind fun _ => maintains_pure _
      · exact List.length_take_le _ _
      · exact fun _ _ h => Control.noConfusion h
  · exact maintains_pure _

theorem awaitBlock_inRoom : (awaitBlock : Step L Inbound).InRoom c known :=
  maintains_get.bind fun _ => maintains_loop awaitRound_inRoom _ _

/-! ## Commands -/

omit [Link L] in
theorem askUntil_inRoom {ask : Step L Inbound} (h : ask.InRoom c known) (awaited : Control) :
    (askUntil ask awaited).InRoom c known := by
  refine maintains_get.bind fun s => maintains_loop (fun _ => ?_) _ _
  refine maintains_attempt_bind h (fun inbound => ?_) ?_
  · dsimp only
    split
    · exact maintains_pure _
    · have hrejected : (Setback.minor inbound.rejection).Fits := inbound.rejection_fits
      exact (charge_inRoom hrejected).bind fun _ => maintains_pure _
  · intro setback s hs hfits
    exact ((charge_inRoom hfits).bind fun _ => maintains_pure _) s hs

theorem sendCommand_inRoom : (sendCommand : Step L Unit).InRoom c known :=
  maintains_get.bind fun _ => transmit_inRoom _

theorem sendBlock_inRoom {block : Block} (h : block.payload.length ≤ c.maxPayload) :
    (sendBlock block : Step L Unit).InRoom c known := by
  have hchained : (sendChained : Step L Unit).InRoom c known :=
    maintains_get.bind fun _ => (askUntil_inRoom
      (sendCommand_inRoom.bind fun _ => awaitBlock_inRoom) _).bind fun _ => maintains_pure _
  have hfinal : (sendFinal : Step L Unit).InRoom c known := by
    refine maintains_get.bind fun s => maintains_loop (fun _ => ?_) _ _
    refine maintains_attempt_bind sendCommand_inRoom (fun _ => maintains_pure _) ?_
    intro setback s hs hfits
    exact ((charge_inRoom hfits).bind fun _ => maintains_pure _) s hs
  refine (stage_inRoom h).bind fun _ => maintains_modify_bind (fun _ hs => { hs with }) fun _ => ?_
  split
  · exact hchained.bind fun _ => maintains_modify fun _ hs => { hs with }
  · exact hfinal.bind fun _ => maintains_modify fun _ hs => { hs with }

/-- The chain is made with the codec that it is sent with, so each of its blocks can be staged. -/
theorem sendBlocks_inRoom : ∀ (n : Nat) (chain : Chain), chain.codec = c →
    (sendBlocks n chain : Step L Unit).InRoom c known
  | 0, _, _ => maintains_pure _
  | n + 1, chain, hcodec => by
      unfold sendBlocks
      split
      · exact maintains_pure _
      · rename_i block rest hnext
        obtain ⟨-, -, hrest⟩ := Chain.next?_eq_some hnext
        have hpayload := Chain.payload_next_le hnext
        rw [hcodec] at hpayload
        exact (sendBlock_inRoom hpayload).bind fun _ =>
          sendBlocks_inRoom n rest (hrest.trans hcodec)

theorem sendChain_inRoom (command : Bytes) :
    (sendChain command : Step L Unit).InRoom c known := by
  refine maintains_modify_bind (fun _ hs => { hs with parked := parkedFits_of_none rfl })
    fun _ => ?_
  intro s hs
  rw [ensures_get_bind]
  refine ((sendBlocks_inRoom _ (Chain.ofPayload s.codec command s.sendSeq) hs.codec).bind
    fun _ => ?_) s hs
  exact maintains_modify fun _ hs => { hs with }

/-! ## Responses -/

/-- What ends a read is not for want of room, or it is for want of room in the response. -/
def ReadEnds (setback : Setback) (s : Session L) : Prop := setback.Fits ∨ Overfull setback s

omit [Link L] in
theorem reads_of_inRoom {x : Step L α} (h : x.InRoom c known) :
    x.Maintains (Roomy c known) ReadEnds := fun s hs =>
  (h s hs).mono fun _ _ hend => ⟨hend.1, fun setback hr => .inl (hend.2 setback hr)⟩

theorem accept_room (inbound : Inbound) (more : Bool) :
    (accept inbound more : Step L Bool).Maintains (Roomy c known) ReadEnds := by
  intro s hs
  unfold accept
  rw [ensures_get_bind]
  split
  · exact kept_crashed hs
  · rename_i payload hpayload
    split
    · rename_i overflow happend
      exact kept_fault hs (.inr ⟨overflow, inbound, payload, rfl, hpayload, happend⟩)
    · rename_i response _
      rw [ensures_set_bind]
      have haccepted : Roomy c known { s with
          response, recvSeq := s.recvSeq.next, commandPending := false, retries := 0 } :=
        { hs with }
      split
      · exact kept_ok haccepted
      · have hready : (sendControl (s.codec.ready s.recvSeq.next .clean) : Step L Unit).InRoom
            c known :=
          sendControl_inRoom (Nat.zero_le 2) fun _ _ h => Control.noConfusion h
        exact reads_of_inRoom ((orCharge_inRoom hready).bind fun _ => maintains_pure false) _
          haccepted

theorem reject_inRoom (h : setback.Fits) (receipt : Receipt) :
    (reject setback receipt : Step L Unit).InRoom c known :=
  (charge_inRoom h).bind fun _ => maintains_get.bind fun _ =>
    orCharge_inRoom (sendControl_inRoom (Nat.zero_le 2) fun _ _ h => Control.noConfusion h)

theorem dealWith_room {received : Except Setback Inbound}
    (h : ∀ setback, received = .error setback → setback.Fits) :
    (dealWith received : Step L (Unit ⊕ Unit)).Maintains (Roomy c known) ReadEnds := by
  cases received with
  | error setback =>
      refine reads_of_inRoom ?_
      exact (reject_inRoom (h setback rfl) _).bind fun _ => maintains_pure _
  | ok inbound =>
      have hrejected : ∀ receipt, (do
          reject (.minor inbound.rejection) receipt
          return .inl () : Step L (Unit ⊕ Unit)).Maintains (Roomy c known) ReadEnds := by
        intro receipt
        have hfits : (Setback.minor inbound.rejection).Fits := inbound.rejection_fits
        exact reads_of_inRoom ((reject_inRoom hfits receipt).bind fun _ => maintains_pure _)
      refine maintains_get.bind fun s => ?_
      split
      · split
        · refine (accept_room inbound _).bind fun complete => ?_
          split
          · exact maintains_pure _
          · exact maintains_pure _
        · exact hrejected _
      · split
        · have hlost : (charge (.minor (.violation .commandLost)) : Step L Unit).InRoom c
              known := charge_inRoom rfl
          refine reads_of_inRoom (hlost.bind fun _ => ?_)
          exact (orCharge_inRoom sendCommand_inRoom).bind fun _ => maintains_pure _
        · exact hrejected _
      · exact hrejected _

/-- What is parked is known to fit, and so is whatever comes in its place. -/
theorem receiveRound_room :
    (receiveRound () : Step L (Unit ⊕ Unit)).Maintains (Roomy c known) ReadEnds := by
  intro s hs
  have htaken : Roomy c known { s with parked := none } :=
    { hs with parked := parkedFits_of_none rfl }
  have hnext : Ensures (nextBlock : Step L (Except Setback Inbound)) s fun r s' =>
      Roomy c known s' ∧ match r with
        | .ok received => ∀ setback, received = .error setback → setback.Fits
        | .error stop => ∀ setback, stop ≠ .because setback := by
    unfold nextBlock
    rw [ensures_get_bind, ensures_set_bind]
    split
    · rename_i parked hparked
      refine ⟨htaken, ?_⟩
      rintro setback rfl
      exact hs.parked setback hparked
    · refine ensures_attempt (awaitBlock_inRoom _ htaken) ?_ ?_ ?_ ?_
      · exact fun _ _ hend => ⟨hend.1, nofun⟩
      · intro setback s₁ hend
        refine ⟨hend.1, fun other hsame => ?_⟩
        obtain rfl := Except.error.inj hsame
        exact hend.2 _ rfl
      · exact fun _ hend => ⟨hend.1, nofun⟩
      · exact fun _ hend => ⟨hend.1, nofun⟩
  refine hnext.bind ?_ ?_
  · intro received s₁ hend
    exact dealWith_room hend.2 s₁ hend.1
  · intro stop s₁ hend
    exact ⟨hend.1, fun setback hstop => absurd (Except.error.inj hstop) (hend.2 setback)⟩

/-- **A read fails for want of room only where its response does not fit.** -/
theorem receiveResponse_room :
    (receiveResponse : Step L Unit).Maintains (Roomy c known) ReadEnds :=
  maintains_modify_bind (fun _ hs => { hs with }) fun _ => maintains_get.bind fun _ =>
    maintains_loop (fun _ => receiveRound_room) _ _

/-! ## Supervision and waiting ahead -/

theorem supervise_inRoom (function : Supervisory) :
    (supervise function : Step L Inbound).InRoom c known := by
  refine maintains_modify_bind (fun _ hs => { hs with }) fun _ => maintains_get.bind fun _ =>
    askUntil_inRoom ((sendControl_inRoom ?_ ?_).bind fun _ => awaitBlock_inRoom) _
  · exact Nat.zero_le 2
  · exact fun _ _ h => Control.noConfusion h

theorem park_inRoom : (park : Step L Unit).InRoom c known := by
  refine maintains_attempt_bind awaitBlock_inRoom (fun inbound => ?_) ?_
  · exact maintains_modify fun s hs => { hs with parked := nofun }
  · intro setback s hs hfits
    cases setback with
    | major failure => exact kept_fault hs hfits
    | minor failure =>
        refine kept_ok { hs with parked := fun other hsome => ?_ }
        obtain rfl := Except.error.inj (Option.some.inj hsome)
        exact hfits

theorem resynchronise_inRoom : (resynchronise : Step L Unit).InRoom c known :=
  (supervise_inRoom .resync).bind fun _ => maintains_modify_bind (fun _ hs => { hs with }) fun _ =>
    maintains_modify fun _ hs => { hs with }

theorem endApplication_inRoom : (endApplication : Step L Unit).InRoom c known :=
  (supervise_inRoom .endApduSession).bind fun _ => maintains_pure _

theorem resyncOnce_inRoom : (resyncOnce : Step L Unit).InRoom c known := by
  refine maintains_get.bind fun s => (sendControl_inRoom ?_ ?_).bind fun _ =>
    awaitBlock_inRoom.bind fun inbound => ?_
  · exact Nat.zero_le 2
  · exact fun _ _ h => Control.noConfusion h
  · split
    · exact inRoom_fail inbound.rejection_fits
    · exact maintains_pure _

/-- The interface tells something new, or the session knows what it knew before. -/
theorem resetInterface_fits (hs : Roomy c known s) :
    Ensures resetInterface s fun r s' =>
      match r with
      | .ok () => s'.ParkedFits
      | .error stop => Roomy c known s' ∧ ∀ setback, stop = .because setback → setback.Fits := by
  refine (supervise_inRoom .softReset s hs).bind ?_ ?_
  · intro inbound s₁ hend
    rw [ensures_get_bind]
    split
    · exact ⟨hend.1, nofun⟩
    · split
      · exact hend.1.parked
      · exact hend.1.parked
  · intro stop s₁ hend
    exact ⟨hend.1, fun setback hstop => hend.2 setback (congrArg _ hstop)⟩

end Step

namespace Session

open SecureElement.Action

variable {L : Type} [Link L] {c : Codec} {known : Option AnswerToReset} {settings : Settings}
  {s : Session L}

/-! ## Calls -/

/-- A recovery changes neither the codec nor the answer. -/
theorem recover_roomy (failure : Failure) (hs : Roomy c known s) :
    Ensures (recover failure) s fun _ s' => Roomy c known s' := by
  have hattempts : ∀ (n : Nat) (s : Session L), Roomy c known s →
      Ensures (resyncAttempts n) s fun _ s' => Roomy c known s' := by
    intro n
    induction n with
    | zero => exact fun _ h => h
    | succ n ih =>
        intro s h
        unfold resyncAttempts
        refine Step.ensures_conclude (Step.resyncOnce_inRoom s h) ?_ ?_ ?_ ?_
        · exact fun _ _ hend => hend.1
        · exact fun _ s₁ hend => ih s₁ hend.1
        · exact fun _ hend => hend.1
        · exact fun _ hend => hend.1
  have hmoves : ∀ (status : Status) (s : Session L), Roomy c known s →
      Ensures (moveTo status : Call L Unit) s fun _ s' => Roomy c known s' := by
    intro status s h
    unfold moveTo
    rw [ensures_get_bind]
    split
    · exact { h with }
    · exact h
  unfold recover
  rw [ensures_get_bind]
  split
  · exact hs
  · refine (hmoves _ s hs).bind_kept fun _ s₁ h₁ => ?_
    have hforgotten : Roomy c known { s₁.resetExchange with
        response := s₁.response.clear, commandPending := false, deadline := none } :=
      { h₁ with parked := parkedFits_of_none rfl }
    rw [ensures_modify_bind, ensures_get_bind]
    refine (hattempts _ _ hforgotten).bind_kept fun succeeded s₂ h₂ => ?_
    have hstarted : ∀ statistics, Roomy c known { s₂ with statistics }.resetSequence :=
      fun _ => { h₂ with }
    have hreleased : Roomy c known { s₂ with link := Link.release s₂.link } := { h₂ with }
    split
    · rw [ensures_count_bind, ensures_modify_bind]
      exact (hmoves _ _ (hstarted _)).bind_kept fun _ _ h => h
    · rw [ensures_modify_bind]
      exact (hmoves _ _ hreleased).bind_kept fun _ _ h => h

end Session

namespace Session

open SecureElement.Action Link

variable {L : Type} [Link L] {c : Codec} {known : Option AnswerToReset} {settings : Settings}
  {s s' : Session (Traced L)}

/-- The end of an exchange. Only a reset that succeeds changes the codec or the answer, and only a
read fails for want of room. -/
structure RoomyEnd (c : Codec) (known : Option AnswerToReset) (request : Request)
    (r : Except (Stop Setback) Unit) (s' : Session (Traced L)) : Prop where
  parked : s'.ParkedFits
  roomy : request ≠ .softReset ∨ (∃ stop, r = .error stop) → Roomy c known s'
  fault : ∀ setback, r = .error (.because setback) →
    setback.Fits ∨ request = .receive ∧ Overfull setback s'

theorem exchange_room {request : Request} {exchange : Step (Traced L) Unit}
    (hexchange : request.exchange? = some exchange) (hs : Roomy c known s) :
    Ensures exchange s (RoomyEnd c known request) := by
  have hfitting : ∀ {exchange : Step (Traced L) Unit}, exchange.InRoom c known →
      Ensures exchange s (RoomyEnd c known request) := fun h =>
    (h s hs).mono fun _ _ hend =>
      ⟨hend.1.parked, fun _ => hend.1, fun setback hr => .inl (hend.2 setback hr)⟩
  cases request with
  | send command =>
      obtain rfl := Option.some.inj hexchange
      exact hfitting (Step.sendChain_inRoom command)
  | receive =>
      obtain rfl := Option.some.inj hexchange
      exact (Step.receiveResponse_room s hs).mono fun _ _ hend =>
        ⟨hend.1.parked, fun _ => hend.1, fun setback hr =>
          (hend.2 setback hr).imp id fun hoverfull => ⟨rfl, hoverfull⟩⟩
  | prefetch =>
      obtain rfl := Option.some.inj hexchange
      exact hfitting Step.park_inRoom
  | resync =>
      obtain rfl := Option.some.inj hexchange
      exact hfitting Step.resynchronise_inRoom
  | endApduSession =>
      obtain rfl := Option.some.inj hexchange
      exact hfitting Step.endApplication_inRoom
  | softReset =>
      obtain rfl := Option.some.inj hexchange
      have hforgotten : Roomy c known { s.resetExchange with commandPending := false } :=
        { hs with parked := parkedFits_of_none rfl }
      unfold Step.renewInterface
      rw [ensures_modify_bind]
      refine (Step.resetInterface_fits hforgotten).bind ?_ ?_
      · intro u s₁ hparked
        exact ⟨hparked, fun h => h.elim (absurd rfl) nofun, nofun⟩
      · intro stop s₁ hend
        exact ⟨hend.1.parked, fun _ => hend.1, fun setback hr =>
          .inl (hend.2 setback (Except.error.inj hr))⟩
  | establish | close | transceive _ | reset | dropResponse => exact absurd hexchange nofun

/-- What holds of every session that can be reached, and what room there is rests on. -/
structure Housed (settings : Settings) (s : Session (Traced L)) : Prop where
  sound : Sound settings s
  equipped : Equipped settings s
  parked : s.ParkedFits

omit [Link L] in
theorem Housed.roomy (h : Housed settings s) : Roomy s.codec s.answer s where
  codec := rfl
  answer := rfl
  staging := by
    rw [h.equipped.command]
    exact Codec.frameLength_le h.equipped.epilogue h.equipped.payload
  frame := h.sound.capacity
  parked := h.parked

/-- A read was told of an overflow, and that is how its exchange ended: the response had no room for
the payload of the block in the frame. -/
def Overran (s : Session (Traced L)) (told : Failure) : Prop :=
  ∃ overflow s₁, told = .overflow overflow
    ∧ Step.receiveResponse s.begun = .error (.because (.major (.overflow overflow))) s₁
    ∧ Overfull (.major (.overflow overflow)) s₁

theorem run_refused_fits {exchange : Step (Traced L) Unit} (hready : s.status.isReady = false) :
    Ensures (run exchange) s fun r s' =>
      s' = s ∧ ∃ told, r = .error (.because told) ∧ told.isMisfit = false := by
  unfold run begin
  rw [bind_assoc, ensures_get_bind]
  split
  · exact ⟨rfl, _, rfl, rfl⟩
  · exact ⟨rfl, _, rfl, rfl⟩
  · exact ⟨rfl, _, rfl, rfl⟩
  · rename_i hstatus
    rw [hstatus] at hready
    exact absurd hready.symm Bool.false_ne_true
  · rename_i hstatus
    rw [hstatus] at hready
    exact absurd hready.symm Bool.false_ne_true

/-- What a call leaves that runs one exchange. -/
structure RoomyCall (s : Session (Traced L)) (request : Request) (r : Except (Stop Failure) Unit)
    (s' : Session (Traced L)) : Prop where
  parked : s'.ParkedFits
  roomy : request ≠ .softReset ∨ (∃ stop, r = .error stop) → Roomy s.codec s.answer s'
  told : ∀ told, r = .error (.because told) →
    told.isMisfit = false ∨ request = .receive ∧ s.Overran told

/-- **A call is told for want of room only where a response does not fit.** -/
theorem run_room (request : Request) {exchange : Step (Traced L) Unit}
    (hexchange : request.exchange? = some exchange) (h : Housed settings s) :
    Ensures (run exchange) s (RoomyCall s request) := by
  cases hready : s.status.isReady with
  | false =>
      refine (run_refused_fits hready).mono ?_
      rintro r s' ⟨rfl, told, rfl, hfits⟩
      refine ⟨h.parked, fun _ => h.roomy, fun other hsame => .inl ?_⟩
      obtain rfl := Stop.because.inj (Except.error.inj hsame)
      exact hfits
  | true =>
      have hroomy : Roomy s.codec s.answer s.begun := { h.roomy with }
      have hexchanged := exchange_exchanged (s := s.begun) hexchange h.sound.capacity
        (Nat.zero_le _) h.sound.parkedOrdinary
      refine ensures_run hready ((exchange_room hexchange hroomy).and hexchanged).ran ?_ ?_ ?_ ?_
      · intro u s₁ hend
        obtain ⟨⟨hroom, ⟨-, hstatus, -⟩, -⟩, -⟩ := hend
        refine ⟨hstatus, hroom.parked, fun hchanged => ?_, nofun⟩
        refine { hroom.roomy (hchanged.imp id ?_) with }
        rintro ⟨stop, hstop⟩
        exact absurd hstop nofun
      · intro setback s₁ hend
        obtain ⟨⟨hroom, ⟨hkeeps, hstatus, -⟩, -⟩, hran⟩ := hend
        have hbefore : Roomy s.codec s.answer { s₁ with deadline := none } :=
          { hroom.roomy (.inr ⟨_, rfl⟩) with }
        refine ((recover_roomy setback.failure hbefore).and
          (recover_spec (s := { s₁ with deadline := none }) setback.failure hstatus
            (hkeeps.holds h.sound.capacity))).mono ?_
        rintro r s₂ ⟨hafter, hrecovered⟩
        cases r with
        | error stop =>
            obtain ⟨rfl, -⟩ := hrecovered
            exact ⟨hafter.parked, fun _ => hafter, nofun⟩
        | ok told =>
            refine ⟨hafter.parked, fun _ => hafter, fun other hsame => ?_⟩
            obtain rfl := Stop.because.inj (Except.error.inj hsame)
            rcases hrecovered with ⟨rfl, -⟩ | ⟨rfl, -⟩
            · refine (hroom.fault setback rfl).imp id fun hoverfull => ?_
              obtain ⟨rfl, overflow, inbound, payload, rfl, hpayload, happend⟩ := hoverfull
              obtain rfl := Option.some.inj hexchange
              exact ⟨rfl, overflow, s₁, rfl, hran, overflow, inbound, payload, rfl, hpayload,
                happend⟩
            · exact .inl rfl
      · intro s₁ hend
        obtain ⟨⟨hroom, -⟩, -⟩ := hend
        exact ⟨hroom.parked, fun _ => hroom.roomy (.inr ⟨_, rfl⟩), nofun⟩
      · intro s₁ hend
        obtain ⟨⟨hroom, -⟩, -⟩ := hend
        exact ⟨hroom.parked, fun _ => hroom.roomy (.inr ⟨_, rfl⟩), nofun⟩

/-- The handshake of a session is a supervisory request, and that always has its room. -/
theorem handshake_fits (hs : Roomy c known s) :
    Ensures handshake s fun r s' =>
      s'.ParkedFits ∧ (∀ stop, r = .error stop → Roomy c known s') ∧
        ∀ setback, r = .error (.because setback) → setback.Fits := by
  have hstarted : Roomy c known { s with deadline := s.deadlineFromNow } := { hs with }
  unfold handshake
  rw [ensures_modify_bind, ensures_get_bind]
  split
  · refine (Step.resetInterface_fits hstarted).mono ?_
    intro r s' hend
    cases r with
    | ok u => exact ⟨hend, nofun, nofun⟩
    | error stop =>
        exact ⟨hend.1.parked, fun _ _ => hend.1, fun setback hr =>
          hend.2 setback (Except.error.inj hr)⟩
  · refine (Step.supervise_inRoom .resync _ hstarted).bind ?_ ?_
    · exact fun _ _ hend => ⟨hend.1.parked, nofun, nofun⟩
    · exact fun _ _ hend => ⟨hend.1.parked, fun _ _ => hend.1, fun setback hr =>
        hend.2 setback (congrArg _ (Except.error.inj hr))⟩

/-- The codec of the settings is the largest that the buffer for commands was made for. -/
theorem Housed.risen (h : Housed settings s) : Roomy settings.codec none s.risen where
  codec := congrArg Settings.codec h.sound.settings
  answer := rfl
  staging := Nat.le_of_eq h.equipped.command.symm
  frame := h.sound.capacity
  parked := parkedFits_of_none rfl

theorem establish_room (h : Housed settings s) :
    Ensures establish s fun r s' =>
      s'.ParkedFits ∧ ∀ told, r = .error (.because told) → told.isMisfit = false := by
  refine ensures_establish (fun _ => ⟨h.parked, nofun⟩) ?_ ?_
  · refine fun _ fault _ => ⟨h.parked, fun told hr => ?_⟩
    obtain rfl := Stop.because.inj (Except.error.inj hr)
    rw [Failure.isMisfit_toOpenFailed, Failure.ofLink_isMisfit]
  · intro hclosed _
    refine ((handshake_fits h.risen).and (handshake_keeps h.sound.capacity)).mono ?_
    rintro r s₁ ⟨⟨hparked, -, hfits⟩, -, -, hstatus, -⟩
    match r with
    | .ok () => exact ⟨hstatus.trans hclosed, hparked, nofun⟩
    | .error (.because setback) =>
        refine ⟨hparked, fun told hr => ?_⟩
        obtain rfl := Stop.because.inj (Except.error.inj hr)
        rw [Failure.isMisfit_toOpenFailed]
        exact hfits setback rfl
    | .error .crashed => exact ⟨hparked, nofun⟩
    | .error .stalled => exact ⟨hparked, nofun⟩

theorem run_housed (request : Request) {exchange : Step (Traced L) Unit}
    (hexchange : request.exchange? = some exchange) (h : Housed settings s) :
    Ensures (run exchange) s fun _ s' => Housed settings s' :=
  (((exchange_sound request hexchange h.sound).and
    (run_equipped hexchange h.sound.capacity h.equipped)).and (run_room request hexchange h)).mono
      fun _ _ hend => ⟨hend.1.1, hend.1.2, hend.2.parked⟩

theorem establish_housed (h : Housed settings s) :
    Ensures establish s fun _ s' => Housed settings s' :=
  (((establish_sound h.sound).and
    (establish_equipped h.sound.capacity h.equipped)).and (establish_room h)).mono
      fun _ _ hend => ⟨hend.1.1, hend.1.2, hend.2.1⟩

omit [Link L] in
/-- What forgets whatever is parked leaves no fault behind. -/
theorem Housed.forgets (h : Housed settings s) (hkeeps : Keeps s s') (hkit : SameKit s s')
    (hparked : s'.parked = none) : Housed settings s' where
  sound := h.sound.keeps hkeeps hparked
  equipped := h.equipped.kept hkit
  parked := parkedFits_of_none hparked

theorem perform_housed (request : Request) (h : Housed settings s) :
    Ensures (perform request) s fun _ s' => Housed settings s' :=
  perform_keeps request h (fun request _ _ => run_housed request) establish_housed
    (fun {s} h => h.forgets ⟨rfl, rfl⟩ ⟨rfl, rfl, rfl, s.response.capacity_clear⟩ rfl)
    fun {s} h => h.forgets ⟨rfl, rfl⟩ ⟨rfl, rfl, rfl, s.response.capacity_clear⟩ rfl

/-- **Whatever was done with a session, every block that it makes has its room.** -/
theorem Reachable.housed (h : Reachable settings s) : Housed settings s := by
  induction h with
  | @created link s hnew =>
      have hparked : s.ParkedFits := by
        obtain ⟨-, rfl⟩ := new_eq_ok hnew
        exact parkedFits_of_none rfl
      exact ⟨new_sound hnew, (Reachable.created hnew).equipped, hparked⟩
  | called request _ ih => exact (perform_housed request ih).final
  | touched link _ ih =>
      exact ⟨{ ih.sound with }, ih.equipped.kept ⟨rfl, rfl, rfl, rfl⟩, ih.parked⟩

/-! ## What is told -/

theorem run_fits (request : Request) {exchange : Step (Traced L) Unit}
    (hexchange : request.exchange? = some exchange) (hother : request ≠ .receive)
    (h : Housed settings s) :
    Ensures (run exchange) s fun r _ => ∀ told, r = .error (.because told) →
      told.isMisfit = false := by
  refine (run_room request hexchange h).mono fun r s' hend told hr => ?_
  exact (hend.told told hr).elim id fun hreads => absurd hreads.1 hother

theorem receive_told (h : Housed settings s) :
    Ensures receive s fun r _ => ∀ told, r = .error (.because told) →
      told.isMisfit = false ∨ s.Overran told := by
  refine Ensures.bind (run_room .receive rfl h) ?_ ?_
  · exact fun _ _ _ => nofun
  · intro stop s₁ hend told hr
    exact (hend.told told (congrArg _ (Except.error.inj hr))).imp id fun hreads => hreads.2

/-- A command always has its room, so only the read behind it can be told of an overflow. -/
theorem transceive_told (command : Bytes) (h : Housed settings s) :
    Ensures (transceive command) s fun r _ => ∀ told, r = .error (.because told) →
      told.isMisfit = false ∨ ∃ s₁, s₁.Overran told ∧ send command s = .ok () s₁ := by
  have hsend : Ensures (send command) s fun r s₁ => Housed settings s₁ ∧
      ∀ told, r = .error (.because told) → told.isMisfit = false :=
    (run_housed (.send command) rfl h).and (run_fits (.send command) rfl nofun h)
  refine hsend.ran.bind ?_ ?_
  · intro u s₁ hend
    obtain ⟨⟨hhoused, -⟩, hsent⟩ := hend
    refine (receive_told hhoused).mono fun r s₂ hend told hr => ?_
    exact (hend told hr).imp id fun hoverran => ⟨s₁, hoverran, hsent⟩
  · intro stop s₁ hend told hr
    exact .inl (hend.1.2 told (congrArg _ (Except.error.inj hr)))

/-- What a call may be told of room: nothing, unless it reads a response. -/
def MayTell (s : Session (Traced L)) (request : Request) (told : Failure) : Prop :=
  told.isMisfit = false ∨ ∃ s₁, s₁.Overran told
    ∧ (request = .receive ∧ s₁ = s
      ∨ ∃ command, request = .transceive command ∧ send command s = .ok () s₁)

/-- **No call is told for want of room, but for a response that does not fit.** -/
theorem perform_told (request : Request) (h : Housed settings s) :
    Ensures (perform request) s fun r _ => ∀ told, r = .error (.because told) →
      s.MayTell request told := by
  -- most calls have no response, and end like the call that they stand for
  have hsilent : ∀ {call : Call (Traced L) Unit},
      (Ensures call s fun r _ => ∀ told, r = .error (.because told) → told.isMisfit = false) →
      Ensures (do call; return none : Call (Traced L) (Option Bytes)) s fun r _ =>
        ∀ told, r = .error (.because told) → s.MayTell request told := by
    intro call hcall
    refine hcall.bind ?_ ?_
    · exact fun _ _ _ => nofun
    · intro stop s₁ hend told hr
      exact .inl (hend told (congrArg _ (Except.error.inj hr)))
  have hestablish : Ensures establish s fun r _ => ∀ told, r = .error (.because told) →
      told.isMisfit = false := (establish_room h).mono fun _ _ hend => hend.2
  cases request with
  | establish => exact hsilent hestablish
  | close => exact nofun
  | dropResponse => exact nofun
  | send command => exact hsilent (run_fits (.send command) rfl nofun h)
  | resync => exact hsilent (run_fits .resync rfl nofun h)
  | softReset => exact hsilent (run_fits .softReset rfl nofun h)
  | endApduSession => exact hsilent (run_fits .endApduSession rfl nofun h)
  | prefetch =>
      refine hsilent ?_
      unfold prefetch
      rw [ensures_get_bind]
      split
      · exact nofun
      · exact run_fits .prefetch rfl nofun h
  | reset =>
      refine hsilent ?_
      unfold reset
      rw [ensures_get_bind]
      split
      · exact run_fits .softReset rfl nofun h
      · exact hestablish
  | receive =>
      refine (receive_told h).bind ?_ ?_
      · exact fun _ _ _ => nofun
      · intro stop s₁ hend told hr
        refine (hend told (congrArg _ (Except.error.inj hr))).imp id fun hoverran => ?_
        exact ⟨s, hoverran, .inl ⟨rfl, rfl⟩⟩
  | transceive command =>
      refine (transceive_told command h).bind ?_ ?_
      · exact fun _ _ _ => nofun
      · intro stop s₁ hend told hr
        refine (hend told (congrArg _ (Except.error.inj hr))).imp id fun hoverran => ?_
        obtain ⟨s₂, hoverran, hsent⟩ := hoverran
        exact ⟨s₂, hoverran, .inr ⟨command, rfl, hsent⟩⟩

end Session

end SecureElement
