import SecureElement.Proofs.Allowance
import SecureElement.Proofs.Reachable
import SecureElement.Proofs.Reply

/-!
# Steps that keep the account

A session keeps its own account of the time that it grants, in `extension`. `Booked` ties
it to the account that can be read off the link, and `KeepsBooks` says of a step that it
keeps the two together, however it ends.

Only one step of the exchange deals with requests for more time, and `awaitRound_rounds`
says all that it can do about them. The other steps with the link are unrelated: they send
frames that grant nothing, and leave `extension` alone.
-/

namespace SecureElement

/-! ## Codecs that speak alike -/

namespace Codec

/-- Two codecs that differ at most in how much one block may carry. -/
structure Alike (c c' : Codec) : Prop where
  own : c.own = c'.own
  peer : c.peer = c'.peer
  epilogue : c.epilogue = c'.epilogue

variable {c c' : Codec}

theorem Alike.decode (h : Alike c c') (raw : Bytes) : c.decode raw = c'.decode raw := by
  unfold Codec.decode
  rw [h.peer, h.epilogue]

theorem Alike.asked? (h : Alike c c') (raw : Bytes) : c.asked? raw = c'.asked? raw := by
  unfold Codec.asked?
  rw [h.decode]

theorem Alike.grant (h : Alike c c') (multiplier : UInt8) :
    c.grant multiplier = c'.grant multiplier := by
  unfold Codec.grant Codec.layout Codec.make
  rw [h.own, h.epilogue]

theorem Alike.granted? (h : Alike c c') (frame : Bytes) : c.granted? frame = c'.granted? frame := by
  have hflip : Alike c.flip c'.flip := ⟨h.peer, h.own, h.epilogue⟩
  unfold Codec.granted?
  rw [hflip.decode]

theorem Alike.isUnrelated (h : Alike c c') {x : Passage} (hx : x.IsUnrelated c) :
    x.IsUnrelated c' := by
  cases x with
  | received raw => exact ⟨(h.asked? raw).symm.trans hx.1, rfl⟩
  | sent frame outcome => exact ⟨rfl, (h.granted? frame).symm.trans hx.2⟩
  | raised _ | lost _ | released => exact ⟨rfl, rfl⟩

theorem ready_control_ne (c : Codec) (seq : Seq) (receipt : Receipt) :
    (c.ready seq receipt).control ≠ .response .wtx := nofun

theorem request_control_ne (c : Codec) (function : Supervisory) :
    (c.make (.request function) []).control ≠ .response .wtx := nofun

end Codec

open Link

namespace Step

open SecureElement.Action Session

variable {L : Type} [Link L] {s : Session (Traced L)}

/-! ## One round of a wait -/

/-- The extension after one more request, granted or not. -/
def counted (x : Extension) : Extension := { x with requests := min (x.requests + 1) counterMax }

/-- What a round of a wait has to do with requests for more time. -/
inductive Rounds (s : Session (Traced L)) :
    Except (Stop Setback) (Nanos ⊕ Inbound) → Session (Traced L) → Prop
  /-- None came. -/
  | unrelated {r : Except (Stop Setback) (Nanos ⊕ Inbound)} {items : List Passage}
      {link : Traced L} {frame : Buffer} {statistics : Statistics} :
      frame.capacity = s.frame.capacity → Passes s items { s with link, frame, statistics } →
      (∀ x ∈ items, x.IsUnrelated s.codec) → statistics = s.statistics.passAll s.codec items →
      Rounds s r { s with link, frame, statistics }
  /-- One came, and it was not allowed. -/
  | refused {raw : Bytes} {multiplier : UInt8} {link : Traced L} {frame : Buffer}
      {statistics : Statistics} :
      frame.capacity = s.frame.capacity →
      Passes s [.received raw] { s with link, frame, statistics } →
      s.codec.asked? raw = some multiplier →
      grantable? s.settings (counted s.extension) multiplier.toNat = none →
      statistics = s.statistics.passAll s.codec [.received raw] →
      Rounds s (.error (.because (.major .extensionExceeded)))
        { s with link, frame, statistics, extension := counted s.extension }
  /-- One came and was granted. If the link takes the answer, the next round may take as long. -/
  | granted {r : Except (Stop Setback) (Nanos ⊕ Inbound)} {raw : Bytes} {multiplier : UInt8}
      {outcome : Except Link.Fault Nat} {extra total : Nanos} {link : Traced L} {frame : Buffer}
      {statistics : Statistics} :
      frame.capacity = s.frame.capacity →
      Passes s [.received raw, .sent (s.codec.grant multiplier) outcome]
        { s with link, frame, statistics } →
      s.codec.asked? raw = some multiplier →
      grantable? s.settings (counted s.extension) multiplier.toNat = some (extra, total) →
      (outcome = .ok (s.codec.grant multiplier).length → r = .ok (.inl extra)) →
      statistics = s.statistics.passAll s.codec
        [.received raw, .sent (s.codec.grant multiplier) outcome] →
      Rounds s r { s with
        link, frame, statistics
        extension := { counted s.extension with granted := total }
        deadline := s.deadline.bind (Time.after? · extra) }

/-- A frame is handed over once, and the step goes on exactly if the link takes all of it. -/
theorem transmit_outcome (frame : Bytes) :
    Ensures (transmit frame) s fun r s' => ∃ outcome link,
      s' = { s with link, statistics.blocksSent := s.statistics.blocksSent + 1 }
        ∧ Passes s [.sent frame outcome] s' ∧ (outcome = .ok frame.length → r = .ok ()) := by
  unfold transmit
  rw [ensures_count_bind, ensures_get_bind]
  dsimp only
  rw [ensures_onLink_bind]
  obtain ⟨outcome, hevents, hok⟩ := writeAll_heard frame s.settings.blockTimeout s.link
  cases hresult : (writeAll frame s.settings.blockTimeout s.link).1 with
  | ok u => exact ⟨outcome, _, rfl, ⟨_, hevents, rfl⟩, fun _ => rfl⟩
  | error fault =>
      refine ⟨outcome, _, rfl, ⟨_, hevents, rfl⟩, fun htaken => ?_⟩
      exact absurd (hresult.symm.trans (hok.mpr htaken)) nofun

theorem sendControl_outcome {block : Block} (hpayload : block.payload.length ≤ 2)
    (hcontrol : ∀ seq more, block.control ≠ .information seq more) :
    Ensures (sendControl block) s fun r s' => ∃ outcome link,
      s' = { s with link, statistics.blocksSent := s.statistics.blocksSent + 1 }
        ∧ Passes s [.sent (s.codec.layout block) outcome] s'
        ∧ (outcome = .ok (s.codec.layout block).length → r = .ok ()) := by
  unfold sendControl
  rw [ensures_get_bind,
    Codec.encodeWithin_control hpayload hcontrol (by unfold controlFrameMax; omega)]
  exact transmit_outcome _

/-- The multiplier stands where the payload begins. -/
theorem Arrived.getD_start {c : Codec} {frame : Buffer} {inbound : Inbound} {raw : Bytes}
    {block : Block} {multiplier : UInt8} (h : Arrived c frame inbound raw block)
    (hpayload : block.payload = [multiplier]) : frame.used.getD inbound.start 0 = multiplier := by
  have hsome := h.payload
  unfold Inbound.payload? at hsome
  split at hsome
  · have hfirst := congrArg (fun octets : Bytes => octets[0]?) (Option.some.inj hsome)
    simp only [hpayload, List.getElem?_drop, List.getElem?_take, List.getElem?_cons_zero,
      Nat.add_zero] at hfirst
    split at hfirst
    · rw [h.used, List.getD_eq_getElem?_getD, hfirst]
      rfl
    · exact absurd hfirst nofun
  · exact absurd hsome nofun

omit [Link L] in
/-- A request for some time is counted, and granted if that is possible. -/
theorem extendWait_outcome {multiplier : UInt8} (hzero : multiplier ≠ 0) :
    Ensures (extendWait multiplier) s fun r s' =>
      match grantable? s.settings (counted s.extension) multiplier.toNat with
      | none => r = .error (.because (.major .extensionExceeded)) ∧
          s' = { s with extension := counted s.extension }
      | some (extra, total) => r = .ok extra ∧ s' = { s with
          statistics.extensions := s.statistics.extensions + 1
          extension := { counted s.extension with granted := total }
          deadline := s.deadline.bind (Time.after? · extra) } := by
  unfold extendWait
  rw [if_neg hzero]
  dsimp only
  rw [ensures_modify_bind, ensures_get_bind]
  show Ensures (match grantable? s.settings (counted s.extension) multiplier.toNat with
    | none => _
    | some (extra, total) => _) _ _
  split
  · exact ⟨rfl, rfl⟩
  · exact ⟨rfl, rfl⟩

section Answering

variable {raw : Bytes} {multiplier : UInt8} {link : Traced L} {frame : Buffer}
  {statistics : Statistics}

/-- A request for some time is refused, or granted and answered. -/
theorem request_rounds (hframe : frame.capacity = s.frame.capacity)
    (hpasses : Passes s [.received raw] { s with link, frame, statistics })
    (hasked : s.codec.asked? raw = some multiplier) (hzero : multiplier ≠ 0)
    (hcounts : statistics = s.statistics.passAll s.codec [.received raw]) :
    Ensures (do
        let extra ← extendWait multiplier
        sendControl (s.codec.make (.response .wtx) [multiplier])
        return .inl extra : Step (Traced L) (Nanos ⊕ Inbound))
      { s with link, frame, statistics } (Rounds s) := by
  refine (extendWait_outcome hzero).bind ?_ ?_
  · intro extra s₁ hend
    dsimp only at hend
    cases hgrantable : grantable? s.settings (counted s.extension) multiplier.toNat with
    | none =>
        rw [hgrantable] at hend
        exact absurd hend.1 nofun
    | some times =>
        obtain ⟨extra', total⟩ := times
        rw [hgrantable] at hend
        obtain ⟨hextra, rfl⟩ := hend
        obtain rfl := Except.ok.inj hextra
        have hgranted : ∀ outcome, ({ statistics with
            blocksSent := statistics.blocksSent + 1
            extensions := statistics.extensions + 1 } : Statistics)
              = s.statistics.passAll s.codec
                [.received raw, .sent (s.codec.grant multiplier) outcome] := by
          intro outcome
          have hgrant : Codec.isGrant (s.codec.grant multiplier) = true := by
            unfold Codec.grant
            rw [Codec.isGrant_layout]
            rfl
          rw [hcounts]
          exact (Statistics.pass_sent s.codec _ hgrant outcome).symm
        have hanswer : (s.codec.make (.response .wtx) [multiplier]).payload.length ≤ 2 :=
          Nat.le_succ 1
        refine (sendControl_outcome hanswer fun _ _ => nofun).bind ?_ ?_
        · intro u s₂ hend
          obtain ⟨outcome, link', rfl, hsent, -⟩ := hend
          exact .granted hframe (hpasses.trans hsent rfl hframe) hasked hgrantable (fun _ => rfl)
            (hgranted outcome)
        · intro stop s₂ hend
          obtain ⟨outcome, link', rfl, hsent, htaken⟩ := hend
          exact .granted hframe (hpasses.trans hsent rfl hframe) hasked hgrantable
            (fun haccepted => absurd (htaken haccepted) nofun) (hgranted outcome)
  · intro stop s₁ hend
    dsimp only at hend
    cases hgrantable : grantable? s.settings (counted s.extension) multiplier.toNat with
    | none =>
        rw [hgrantable] at hend
        obtain ⟨hstop, rfl⟩ := hend
        obtain rfl := Except.error.inj hstop
        exact .refused hframe hpasses hasked hgrantable hcounts
    | some times =>
        rw [hgrantable] at hend
        exact absurd hend.1 nofun

/-- A request for a size is answered with that size, which grants no time. -/
theorem size_rounds {octets : Bytes} {wait : Nanos} (hframe : frame.capacity = s.frame.capacity)
    (hpasses : Passes s [.received raw] { s with link, frame, statistics })
    (hrequest : (Passage.received raw).IsUnrelated s.codec)
    (hcounts : statistics = s.statistics.passAll s.codec [.received raw]) :
    Ensures (do
        sendControl (s.codec.make (.response .ifs) (octets.take 2))
        return .inl wait : Step (Traced L) (Nanos ⊕ Inbound))
      { s with link, frame, statistics } (Rounds s) := by
  have hanswered : Ensures (sendControl (s.codec.make (.response .ifs) (octets.take 2)))
      { s with link, frame, statistics } fun _ s' => ∀ r, Rounds s r s' := by
    refine Ensures.mono (sendControl_outcome (List.length_take_le _ _) fun _ _ => nofun) ?_
    intro _ _ hend r
    obtain ⟨outcome, link', rfl, hsent, -⟩ := hend
    refine .unrelated hframe (hpasses.trans hsent rfl hframe) ?_ ?_
    · exact List.forall_mem_cons.mpr ⟨hrequest, List.forall_mem_singleton.mpr
        ⟨rfl, Codec.granted?_layout nofun⟩⟩
    · have hsize : Codec.isGrant (s.codec.layout
          (s.codec.make (.response .ifs) (octets.take 2))) = false := Codec.isGrant_layout _ _
      rw [hcounts]
      exact (Statistics.pass_sent s.codec _ hsize outcome).symm
  exact hanswered.bind (fun _ _ hround => hround _) fun _ _ hround => hround _

end Answering

theorem awaitRound_rounds (timeout : Nanos) (hcapacity : Block.longPrologue ≤ s.frame.capacity) :
    Ensures (awaitRound timeout) s (Rounds s) := by
  have none_passed : Passes s [] s := hears_same rfl
  unfold awaitRound
  refine (waitTime_spec timeout).bind ?_ ?_
  · intro wait s₁ hend
    obtain ⟨rfl, -⟩ := hend
    refine (receiveBlock_spec wait hcapacity).bind ?_ ?_
    · intro inbound s₂ hend
      obtain ⟨link, frame, statistics, rfl, raw, block, htalks, harrived, hcounts⟩ := hend
      have hframe : frame.capacity = s₁.frame.capacity := htalks.capacity
      have hpasses := htalks.passes
      have hother : inbound.control ≠ .request .wtx →
          (Passage.received raw).IsUnrelated s₁.codec := by
        rw [harrived.control]
        exact fun hcontrol => ⟨Codec.asked?_of_control harrived.decode hcontrol, rfl⟩
      rw [ensures_get_bind]
      dsimp only
      split
      · rename_i hwtx
        have hcontrol : block.control = .request .wtx := harrived.control.symm.trans hwtx
        obtain ⟨multiplier, hpayload, hasked⟩ := Codec.asked?_of_request harrived.decode hcontrol
        have hstart : frame.used.getD inbound.start 0 = multiplier :=
          Arrived.getD_start harrived hpayload
        rw [hstart]
        by_cases hzero : multiplier = 0
        · -- asking for no time is a fault, and no request
          rw [if_pos hzero] at hasked
          unfold extendWait
          rw [if_pos hzero]
          exact .unrelated hframe hpasses (List.forall_mem_singleton.mpr ⟨hasked, rfl⟩) hcounts
        · rw [if_neg hzero] at hasked
          exact request_rounds hframe hpasses hasked hzero hcounts
      · rename_i hifs
        have hcontrol : inbound.control ≠ .request .wtx := by
          rw [hifs]
          exact nofun
        have hrequest := hother hcontrol
        split
        · exact .unrelated hframe hpasses (List.forall_mem_singleton.mpr hrequest) hcounts
        · exact size_rounds hframe hpasses hrequest hcounts
      · rename_i hwtx hifs
        exact .unrelated hframe hpasses (List.forall_mem_singleton.mpr (hother hwtx)) hcounts
    · intro stop s₂ hend
      obtain ⟨link, frame, statistics, rfl, -, x, htalks, hfruitless, hcounts⟩ := hend
      refine .unrelated htalks.capacity htalks.passes (List.forall_mem_singleton.mpr ?_) hcounts
      cases hfruitless with
      | lost octets => exact ⟨rfl, rfl⟩
      | unreadable hdecode => exact ⟨Codec.asked?_of_error hdecode, rfl⟩
  · intro stop s₁ hend
    obtain ⟨rfl, -⟩ := hend
    exact .unrelated rfl none_passed (List.forall_mem_nil _) rfl

end Step

/-! ## The account of a session -/

namespace Session

variable {L : Type} {settings : Settings} {a b : Account} {s s' s₁ : Session (Traced L)}

/-- The session keeps the same account as the one that is read off the link. -/
structure Booked (settings : Settings) (a : Account) (s : Session (Traced L)) : Prop where
  requests : s.extension.requests = min a.asked counterMax
  granted : s.extension.granted = a.granted * settings.blockTimeout
  /-- The command that may be sent again is no grant. -/
  command : Codec.isGrant s.command.used = false
  codec : s.codec.Alike settings.codec
  frame : s.frame.capacity
    = settings.codec.frameLength (max settings.maxBlockPayload Block.shortMax)
  settings : s.settings = settings

theorem Booked.capacity (h : Booked settings a s) : Block.longPrologue ≤ s.frame.capacity := by
  rw [h.frame]
  exact longPrologue_le_frame settings

/-- Nothing that the account depends on has changed. -/
structure SameBooks (s s' : Session (Traced L)) : Prop where
  link : s'.link = s.link
  extension : s'.extension = s.extension
  command : s'.command = s.command
  codec : s'.codec = s.codec
  frame : s'.frame.capacity = s.frame.capacity
  settings : s'.settings = s.settings

/-- What passed between two states is what the account says. -/
def Accounted (settings : Settings) (a : Account) (s s' : Session (Traced L)) : Prop :=
  ∃ items b, Passes s items s' ∧ Serves settings a items b ∧ Booked settings b s'

theorem Booked.same (h : Booked settings a s) (hsame : SameBooks s s') : Booked settings a s' where
  requests := by rw [hsame.extension]; exact h.requests
  granted := by rw [hsame.extension]; exact h.granted
  command := by rw [hsame.command]; exact h.command
  codec := by rw [hsame.codec]; exact h.codec
  frame := hsame.frame.trans h.frame
  settings := hsame.settings.trans h.settings

/-- Nothing passed, and the account is what it was. -/
theorem Booked.accounted (h : Booked settings a s') (hlink : s'.link = s.link) :
    Accounted settings a s s' :=
  ⟨[], a, hears_same hlink, .done a, h⟩

/-- One conversation after the other. What the account was at the start does not matter. -/
theorem Accounted.after {items : List Passage} {a₀ : Account} (h : Booked settings a₀ s)
    (hpasses : Passes s items s₁) (hserves : Serves settings a items b)
    (hbooked : Booked settings b s₁) (hthen : Accounted settings b s₁ s') :
    Accounted settings a s s' := by
  obtain ⟨items', d, hpasses', hserves', hbooked'⟩ := hthen
  have hepilogue : s₁.codec.epilogue = s.codec.epilogue :=
    hbooked.codec.epilogue.trans h.codec.epilogue.symm
  have hcapacity : s₁.frame.capacity = s.frame.capacity := hbooked.frame.trans h.frame.symm
  exact ⟨items ++ items', d, hpasses.trans hpasses' hepilogue hcapacity, hserves.append hserves',
    hbooked'⟩

/-- Nothing passed that has to do with the account. -/
theorem Booked.passed {items : List Passage} (h : Booked settings a s')
    (hpasses : Passes s items s') (hitems : ∀ x ∈ items, x.IsUnrelated settings.codec) :
    Accounted settings a s s' := by
  refine ⟨items, a, hpasses, ?_, h⟩
  clear hpasses
  induction items with
  | nil => exact .done a
  | cons x items ih =>
      obtain ⟨hx, hrest⟩ := List.forall_mem_cons.mp hitems
      exact .unrelated hx (ih hrest)

end Session

/-! ## Steps that keep it -/

namespace Step

open SecureElement.Action Session

variable {L α : Type} {settings : Settings}

/-- However it ends, what passed is what the account says. -/
def KeepsBooks (settings : Settings) (step : Step (Traced L) α) : Prop :=
  ∀ a s, Booked settings a s → Ensures step s fun _ s' => Accounted settings a s s'

variable [Link L]

theorem transmit_keepsBooks {frame : Bytes} (hframe : Codec.isGrant frame = false) :
    KeepsBooks settings (transmit frame : Step (Traced L) Unit) := by
  intro a s h
  refine (transmit_outcome frame).mono ?_
  intro r s' hend
  obtain ⟨outcome, link, rfl, hsent, -⟩ := hend
  have hbooked : Booked settings a { s with
      link, statistics.blocksSent := s.statistics.blocksSent + 1 } := { h with }
  exact hbooked.passed hsent
    (List.forall_mem_singleton.mpr ⟨rfl, Codec.granted?_of_not_isGrant hframe⟩)

theorem sendCommand_keepsBooks : KeepsBooks settings (sendCommand : Step (Traced L) Unit) := by
  intro a s h
  unfold sendCommand
  rw [ensures_get_bind]
  exact transmit_keepsBooks h.command a s h

theorem sendControl_keepsBooks {block : Block} (hcontrol : block.control ≠ .response .wtx) :
    KeepsBooks settings (sendControl block : Step (Traced L) Unit) := by
  intro a s h
  unfold sendControl
  rw [ensures_get_bind]
  split
  · exact h.accounted rfl
  · rename_i frame hencode
    obtain ⟨rfl, -⟩ := Codec.encodeWithin_eq_ok hencode
    refine transmit_keepsBooks ?_ a s h
    rw [Codec.isGrant_layout]
    exact decide_eq_false hcontrol

omit [Link L] in
/-- The session grants what the account allows. The count of its requests stops at its largest
value, but only where nothing is granted any more. -/
theorem grantable?_booked {a : Account} {s : Session (Traced L)} (h : Booked settings a s)
    (hcount : settings.maxExtensions < counterMax) (multiplier : UInt8) :
    (settings.Allows a multiplier → grantable? s.settings (counted s.extension) multiplier.toNat
      = some (multiplier.toNat * settings.blockTimeout,
          (a.granted + multiplier.toNat) * settings.blockTimeout)) ∧
    (¬ settings.Allows a multiplier →
      grantable? s.settings (counted s.extension) multiplier.toNat = none) := by
  have hrequests : (counted s.extension).requests ≤ settings.maxExtensions
      ↔ a.asked + 1 ≤ settings.maxExtensions := by
    unfold counted
    dsimp only
    rw [h.requests]
    omega
  have htotal : (counted s.extension).granted + multiplier.toNat * settings.blockTimeout
      = (a.granted + multiplier.toNat) * settings.blockTimeout := by
    unfold counted
    dsimp only
    rw [h.granted, Nat.add_mul]
  unfold grantable? Time.scale? Time.add?
  rw [h.settings]
  refine ⟨fun hallows => ?_, fun hallows => ?_⟩
  · rw [if_pos hallows.exists_extra]
    dsimp only [bind, Option.bind]
    rw [htotal, if_pos hallows.exists_total]
    dsimp only
    rw [if_pos ⟨hrequests.mpr hallows.inTurn, hallows.ceiling⟩]
    rfl
  · by_cases hextra : multiplier.toNat * settings.blockTimeout ≤ Time.longest
    · rw [if_pos hextra]
      dsimp only [bind, Option.bind]
      rw [htotal]
      by_cases hsum : (a.granted + multiplier.toNat) * settings.blockTimeout ≤ Time.longest
      · rw [if_pos hsum]
        dsimp only
        rw [if_neg fun hboth => hallows ⟨hrequests.mp hboth.1, hextra, hsum, hboth.2⟩]
      · rw [if_neg hsum]
    · rw [if_neg hextra]
      rfl

/-- **A round of a wait grants what is due.** -/
theorem awaitRound_keepsBooks (hcount : settings.maxExtensions < counterMax) (timeout : Nanos) :
    KeepsBooks settings (awaitRound timeout : Step (Traced L) (Nanos ⊕ Inbound)) := by
  intro a s h
  refine (awaitRound_rounds timeout h.capacity).mono ?_
  intro r s' hend
  have hgrants := grantable?_booked h hcount
  cases hend with
  | @unrelated r items link frame statistics hframe hpasses hitems _ =>
      have hbooked : Booked settings a { s with link, frame, statistics } :=
        { h with frame := hframe.trans h.frame }
      exact hbooked.passed hpasses fun x hx => h.codec.isUnrelated (hitems x hx)
  | @refused raw multiplier link frame statistics hframe hpasses hasked hgrantable _ =>
      rw [h.codec.asked?] at hasked
      have hrefused : ¬ settings.Allows a multiplier := by
        intro hallows
        rw [(hgrants multiplier).1 hallows] at hgrantable
        exact absurd hgrantable nofun
      refine ⟨[.received raw], a.ask, hpasses.congr rfl,
        .refused hasked hrefused (.done a.ask), ?_⟩
      exact { h with
        frame := hframe.trans h.frame
        requests := by
          unfold counted Account.ask
          dsimp only
          rw [h.requests]
          omega }
  | @granted r raw multiplier outcome extra total link frame statistics hframe hpasses hasked
      hgrantable haccepted _ =>
      rw [h.codec.asked?] at hasked
      rw [h.codec.grant] at hpasses
      have hallows : settings.Allows a multiplier := by
        by_contra hnot
        rw [(hgrants multiplier).2 hnot] at hgrantable
        exact absurd hgrantable nofun
      have htimes := Option.some.inj (((hgrants multiplier).1 hallows).symm.trans hgrantable)
      obtain ⟨-, rfl⟩ := Prod.mk.inj htimes
      refine ⟨[.received raw, .sent (settings.codec.grant multiplier) outcome], a.pay multiplier,
        hpasses.congr rfl, .granted hasked hallows (.done (a.pay multiplier)), ?_⟩
      exact { h with
        frame := hframe.trans h.frame
        granted := rfl
        requests := by
          unfold counted Account.pay
          dsimp only
          rw [h.requests]
          omega }

end Step

end SecureElement
