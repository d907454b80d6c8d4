import SecureElement.Proofs.Budget

/-!
# What the host replies

While a response is collected, whatever comes in place of the block awaited costs one
try, and one frame goes out in reply. Which try and which frame are read off here, so
that no later statement has to look into `dealWith` for them.

* Mostly the block awaited is **asked for again**, with a receipt that tells a wrong
  epilogue from anything else.
* If the peer names the number of the last command block while that may have to be
  sent again (`asksAgain`), the reply is **that block**.

`dealWith_eq` is the equation. What a charge does is `charge_passes` within the budget
and `charge_fails` beyond it; in neither case does it touch anything but the account of
tries (`charge_kept`).
-/

namespace SecureElement

open Link

/-- What is reported about a block of this type where it has no place. -/
def Control.complaint : Control → Failure
  | .ready _ .badEpilogue => .epilogueMismatch
  | .ready _ .otherwiseBad => .malformed .rejected
  | _ => .violation .unexpectedBlock

theorem Control.complaint_ne (control : Control) : control.complaint ≠ .recoveryExhausted := by
  unfold Control.complaint
  split <;> exact Failure.noConfusion

namespace Session

variable {L : Type} {s : Session L}

/-- Whether a block of this type asks for the last command block once more. -/
def asksAgain (s : Session L) : Control → Bool
  | .ready seq _ => s.commandPending && decide (seq = s.sendSeq.next)
  | _ => false

theorem asksAgain_iff {control : Control} :
    s.asksAgain control = true
      ↔ s.commandPending = true ∧ ∃ receipt, control = .ready s.sendSeq.next receipt := by
  cases control with
  | ready seq receipt =>
      simp only [asksAgain, Bool.and_eq_true, decide_eq_true_eq, Control.ready.injEq]
      exact ⟨fun h => ⟨h.1, receipt, h.2, rfl⟩, fun h => ⟨h.1, h.2.elim fun _ hr => hr.1⟩⟩
  | information seq more => simp [asksAgain]
  | supervisory function response => simp [asksAgain]

/-- What is charged for whatever came in place of the block awaited. -/
def objection (s : Session L) : Except Setback Control → Setback
  | .ok control =>
    .minor (if s.asksAgain control then .violation .commandLost else control.complaint)
  | .error setback => setback

/-- What is handed over in reply to it. -/
def reply (s : Session L) : Except Setback Control → Bytes
  | .ok control =>
    if s.asksAgain control then s.command.used
    else s.codec.layout (s.codec.ready s.recvSeq .otherwiseBad)
  | .error setback =>
    s.codec.layout (s.codec.ready s.recvSeq
      (if setback.failure = .epilogueMismatch then .badEpilogue else .otherwiseBad))

theorem objection_ne {heard : Except Setback Control}
    (h : ∀ setback, heard = .error setback → setback.failure ≠ .recoveryExhausted) :
    (s.objection heard).failure ≠ .recoveryExhausted := by
  cases heard with
  | error setback => exact h setback rfl
  | ok control =>
      show (if s.asksAgain control then Failure.violation .commandLost else control.complaint) ≠ _
      split
      · exact Failure.noConfusion
      · exact control.complaint_ne

end Session

namespace Step

open SecureElement.Action Session

variable {L : Type} {s s₁ : Session L}

/-- An action that can only end in one way ends in that way. -/
theorem eq_ok_of_ensures {ε α : Type} {x : Action ε L α} {a : α}
    (h : Ensures x s fun r s' => r = .ok a ∧ s' = s₁) : x s = .ok a s₁ := by
  cases hx : x s with
  | ok b s' =>
      obtain ⟨hr, rfl⟩ := h.ok hx
      rw [Except.ok.inj hr]
  | error stop s' => exact absurd (h.error hx).1 nofun

theorem eq_error_of_ensures {ε α : Type} {x : Action ε L α} {stop : Stop ε}
    (h : Ensures x s fun r s' => r = .error stop ∧ s' = s₁) : x s = .error stop s₁ := by
  cases hx : x s with
  | ok b s' => exact absurd (h.ok hx).1 nofun
  | error stop' s' =>
      obtain ⟨hr, rfl⟩ := h.error hx
      rw [Except.error.inj hr]

/-- A charge that the budget allows. -/
theorem charge_passes (failure : Failure) (hcount : s.retries ≠ counterMax)
    (hleft : s.retries + 1 ≤ s.settings.blockRetransmits) :
    charge (.minor failure) s = .ok () { s with
      retries := s.retries + 1
      statistics.retransmissions := s.statistics.retransmissions + 1 } := by
  refine eq_ok_of_ensures ?_
  unfold charge
  dsimp only
  rw [ensures_get_bind, if_neg hcount, ensures_set_bind, if_neg (Nat.not_lt.mpr hleft)]
  exact ⟨rfl, rfl⟩

/-- A charge beyond the budget makes the fault a major one. -/
theorem charge_fails (failure : Failure) (hcount : s.retries ≠ counterMax)
    (hspent : s.settings.blockRetransmits < s.retries + 1) :
    charge (.minor failure) s
      = .error (.because (.major failure)) { s with retries := s.retries + 1 } := by
  refine eq_error_of_ensures ?_
  unfold charge
  dsimp only
  rw [ensures_get_bind, if_neg hcount, ensures_set_bind, if_pos hspent]
  exact ⟨rfl, rfl⟩

/-- A charge that the count of tries has no room for is the end of the call. -/
theorem charge_crashes (failure : Failure) (hfull : s.retries = counterMax) :
    charge (.minor failure) s = .error .crashed s := by
  refine eq_error_of_ensures ?_
  unfold charge
  dsimp only
  rw [ensures_get_bind, if_pos hfull]
  exact ⟨rfl, rfl⟩

/-- Only the account of tries is different after a charge, and a fault that it reports is the one
that was charged. -/
theorem charge_kept (setback : Setback) (s : Session L) :
    Ensures (charge setback) s fun r s' =>
      (∃ retries statistics, s' = { s with retries, statistics } ∧
        statistics.resyncs = s.statistics.resyncs) ∧
        match r with
        | .ok _ => True
        | .error stop => stop = .because (.major setback.failure) ∨ stop = .crashed := by
  unfold charge
  cases setback with
  | major failure => exact ⟨⟨s.retries, s.statistics, rfl, rfl⟩, Or.inl rfl⟩
  | minor failure =>
      dsimp only
      rw [ensures_get_bind]
      split
      · exact ⟨⟨s.retries, s.statistics, rfl, rfl⟩, Or.inr rfl⟩
      · rw [ensures_set_bind]
        split
        · exact ⟨⟨_, s.statistics, rfl, rfl⟩, Or.inl rfl⟩
        · exact ⟨⟨_, _, rfl, rfl⟩, trivial⟩

/-- Actions that do the same from here on bring about the same. -/
theorem ensures_congr {ε α : Type} {x y : Action ε L α}
    {Q : Except (Stop ε) α → Session L → Prop} (h : x s = y s) :
    Ensures x s Q ↔ Ensures y s Q := by
  unfold Ensures
  rw [h]

/-- What follows an action matters only in the states to which the action leads. -/
theorem bind_congr_at {ε α β : Type} {x : Action ε L α} {f g : α → Action ε L β}
    (h : ∀ a s₁, x s = .ok a s₁ → f a s₁ = g a s₁) : (x >>= f) s = (x >>= g) s := by
  cases hx : x s with
  | ok a s₁ => rw [bind_of_ok hx, bind_of_ok hx, h a s₁ hx]
  | error stop s₁ => rw [bind_of_error hx, bind_of_error hx]

theorem orCharge_congr {step step' : Step L Unit} (h : step s = step' s) :
    orCharge step s = orCharge step' s := by
  have hattempt : attempt step s = attempt step' s := by
    unfold attempt
    rw [h]
  show EStateM.bind (attempt step) _ s = EStateM.bind (attempt step') _ s
  unfold EStateM.bind
  rw [hattempt]

variable [Link L]

/-- A ready block always fits, and goes out as it is laid out. -/
theorem sendControl_ready (s : Session L) (c : Codec) (seq : Seq) (receipt : Receipt) :
    sendControl (c.ready seq receipt) s
      = transmit (s.codec.layout (c.ready seq receipt)) s := by
  have hroom : 7 ≤ controlFrameMax := by
    unfold controlFrameMax
    omega
  have hencode : s.codec.encodeWithin (c.ready seq receipt) controlFrameMax
      = .ok (s.codec.layout (c.ready seq receipt)) :=
    Codec.encodeWithin_control (Nat.zero_le 2) (fun _ _ h => Control.noConfusion h) hroom
  have hget : ∀ f : Session L → Step L Unit, (get >>= f) s = f s s := fun _ => rfl
  unfold sendControl
  rw [hget, hencode]

/-- What is refused costs a try, and the block awaited is asked for again. -/
theorem reject_eq (setback : Setback) (receipt : Receipt) (s : Session L) :
    reject setback receipt s = (do
      charge setback
      orCharge (transmit (s.codec.layout (s.codec.ready s.recvSeq receipt))) : Step L Unit) s := by
  unfold reject
  refine bind_congr_at fun u s₁ hcharge => ?_
  obtain ⟨⟨retries, statistics, rfl, -⟩, -⟩ := (charge_kept setback s).ok hcharge
  exact orCharge_congr (sendControl_ready _ _ _ _)

/-- The block awaited is accepted, and there is another round if others follow. -/
theorem dealWith_awaited {inbound : Inbound} {more : Bool}
    (h : inbound.control = .information s.recvSeq more) :
    dealWith (.ok inbound) s = (do
      if ← accept inbound more then return .inr ()
      return .inl () : Step L (Unit ⊕ Unit)) s := by
  obtain ⟨control, start, stop⟩ := inbound
  dsimp only at h
  subst h
  show (if s.recvSeq = s.recvSeq then _ else _ : Step L (Unit ⊕ Unit)) s = _
  rw [if_pos rfl]

/-- **Whatever is not the block awaited costs a try and has one frame in reply.** -/
theorem dealWith_eq {received : Except Setback Inbound}
    (h : ∀ inbound, received = .ok inbound →
      ∀ more, inbound.control ≠ .information s.recvSeq more) :
    dealWith received s = (do
      charge (s.objection (received.map Inbound.control))
      orCharge (transmit (s.reply (received.map Inbound.control)))
      return .inl () : Step L (Unit ⊕ Unit)) s := by
  have hrejected : ∀ (setback : Setback) (receipt : Receipt),
      (do reject setback receipt; return .inl () : Step L (Unit ⊕ Unit)) s = (do
        charge setback
        orCharge (transmit (s.codec.layout (s.codec.ready s.recvSeq receipt)))
        return .inl () : Step L (Unit ⊕ Unit)) s := by
    intro setback receipt
    rw [← bind_assoc]
    show EStateM.bind (reject setback receipt) _ s = EStateM.bind _ _ s
    unfold EStateM.bind
    rw [reject_eq]
  cases received with
  | error setback => exact hrejected setback _
  | ok inbound =>
      obtain ⟨control, start, stop⟩ := inbound
      have hcontrol := h _ rfl
      dsimp only at hcontrol
      cases control with
      | information seq more =>
          have hseq : seq ≠ s.recvSeq := fun hsame => hcontrol more (by rw [hsame])
          show (if seq = s.recvSeq then _ else _ : Step L (Unit ⊕ Unit)) s = _
          rw [if_neg hseq]
          exact hrejected _ _
      | ready seq receipt =>
          show (if s.commandPending = true ∧ seq = s.sendSeq.next then _ else _ :
            Step L (Unit ⊕ Unit)) s = _
          by_cases hagain : s.commandPending = true ∧ seq = s.sendSeq.next
          · have hasks : s.asksAgain (.ready seq receipt) = true :=
              asksAgain_iff.mpr ⟨hagain.1, receipt, by rw [hagain.2]⟩
            rw [if_pos hagain]
            simp only [Except.map, objection, reply, hasks]
            refine bind_congr_at fun u s₁ hcharge => ?_
            -- the command is still the one that was pending before the charge
            obtain ⟨⟨retries, statistics, rfl, -⟩, -⟩ := (charge_kept _ s).ok hcharge
            rfl
          · have hasks : s.asksAgain (.ready seq receipt) = false := by
              refine Bool.eq_false_iff.mpr fun h => hagain ?_
              obtain ⟨hpending, receipt', hsame⟩ := asksAgain_iff.mp h
              exact ⟨hpending, (Control.ready.inj hsame).1⟩
            rw [if_neg hagain]
            simp only [Except.map, objection, reply, hasks]
            exact hrejected _ _
      | supervisory function response => exact hrejected _ _

end Step

end SecureElement
