import SecureElement.Link.Traced
import SecureElement.Proofs.Agreement
import SecureElement.Session.Calls

/-!
# Calls that have time enough

A deadline is looked at in one place only, where a wait is cut short by what is left of
the call. On a link in which time stands still nothing is ever cut short: a call starts
with more time than one block may take, and a request for more time that is granted moves
the deadline by as much. So two sessions that differ in their deadlines only go the same
way there, as long as both deadlines are far enough ahead.

`Timeless P` says that time stands still for as long as `P` is true of the link, and
`Leisurely P settings wait` relates the two sessions; `wait` is how long they wait next.
The steps of collecting a response keep the relation, block by block up to
`receiveRound_leisurely`.
-/

namespace SecureElement

open SecureElement.Action

/-- Time stands still in the states of a link of which `P` is true, and they are not left. -/
structure Link.Timeless {L : Type} [Link L] (P : L → Prop) : Prop where
  read : ∀ (n : Nat) (timeout : Nanos) (link : L), P link →
    P (Link.read n timeout link).2 ∧ Link.now (Link.read n timeout link).2 = Link.now link
  write : ∀ (bytes : Bytes) (timeout : Nanos) (link : L), P link →
    P (Link.write bytes timeout link).2 ∧ Link.now (Link.write bytes timeout link).2 = Link.now link

namespace Link.Timeless

variable {L : Type} [Link L] {P : L → Prop}

theorem writeAll (h : Timeless P) (bytes : Bytes) (timeout : Nanos) (link : L) (hlink : P link) :
    P (Link.writeAll bytes timeout link).2 ∧
      now (Link.writeAll bytes timeout link).2 = now link := by
  rw [writeAll_snd]
  exact h.write bytes timeout link hlink

theorem readUpTo (h : Timeless P) (timeout : Nanos) : ∀ (calls n : Nat) (link : L), P link →
    P (Link.readUpTo timeout calls n link).2 ∧
      now (Link.readUpTo timeout calls n link).2 = now link
  | calls, 0, link, hlink => by
      cases calls <;> exact ⟨hlink, rfl⟩
  | 0, n + 1, link, hlink => ⟨hlink, rfl⟩
  | calls + 1, n + 1, link, hlink => by
      have hread := h.read (n + 1) timeout link hlink
      rw [Link.readUpTo]
      split
      · rename_i hresult
        rw [hresult] at hread
        exact hread
      · rename_i hresult
        rw [hresult] at hread
        exact hread
      · rename_i hresult
        rw [hresult] at hread
        obtain ⟨hstill, hnow⟩ := hread
        obtain ⟨hstill', hnow'⟩ := readUpTo h timeout calls _ _ hstill
        exact ⟨hstill', hnow'.trans hnow⟩

/-- The record of a link does not move its clock. -/
theorem traced (h : Timeless P) : Timeless fun t : Traced L => P t.link where
  read := fun n timeout t ht => h.read n timeout t.link ht
  write := fun bytes timeout t ht => h.write bytes timeout t.link ht

end Link.Timeless

/-- Settings that do not contradict themselves give a call as long as a block, and that is not
nothing. -/
theorem Settings.blockTimeout_le {settings : Settings} (h : settings.fault? = none) :
    settings.blockTimeout ≤ settings.exchangeTimeout ∧ 0 < settings.exchangeTimeout := by
  unfold fault? at h
  split at h
  · exact absurd h nofun
  · split at h
    · exact absurd h nofun
    · rename_i hsome
      split at h
      · exact absurd h nofun
      · rename_i hfits
        exact ⟨Nat.le_of_not_lt hfits, Nat.pos_of_ne_zero hsome⟩

namespace Session

variable {L : Type} [Link L] {P : L → Prop} {settings : Settings} {wait : Nanos}
  {s t : Session L} {deadline : Option Nanos}

/-- Time stands still, and neither the deadline of the session nor the other one will come up while
it waits for so long. -/
structure Unhurried (P : L → Prop) (settings : Settings) (wait : Nanos) (s : Session L)
    (deadline : Option Nanos) : Prop where
  still : P s.link
  same : s.settings = settings
  ample : ∀ instant ∈ s.deadline, Link.now s.link + max settings.exchangeTimeout wait ≤ instant
  ample' : ∀ instant ∈ deadline, Link.now s.link + max settings.exchangeTimeout wait ≤ instant

/-- Two sessions that differ in their deadlines only, and have time enough for a wait. -/
def Leisurely (P : L → Prop) (settings : Settings) (wait : Nanos) (s t : Session L) : Prop :=
  ∃ deadline, Unhurried P settings wait s deadline ∧ t = { s with deadline }

/-- Whoever has time enough to wait has time enough for anything that takes no longer. -/
theorem Leisurely.weaken {wait' : Nanos} (h : Leisurely P settings wait s t)
    (hle : wait' ≤ max settings.exchangeTimeout wait) : Leisurely P settings wait' s t := by
  obtain ⟨deadline, hunhurried, rfl⟩ := h
  have hmax : max settings.exchangeTimeout wait' ≤ max settings.exchangeTimeout wait :=
    Nat.max_le.mpr ⟨Nat.le_max_left _ _, hle⟩
  refine ⟨deadline, ?_, rfl⟩
  exact { hunhurried with
    ample := fun instant hsome =>
      Nat.le_trans (Nat.add_le_add_left hmax _) (hunhurried.ample instant hsome)
    ample' := fun instant hsome =>
      Nat.le_trans (Nat.add_le_add_left hmax _) (hunhurried.ample' instant hsome) }

/-- Between two waits it does not matter how long the last one was. -/
theorem Leisurely.between (h : Leisurely P settings wait s t) : Leisurely P settings 0 s t :=
  h.weaken (Nat.zero_le _)

/-- The same change on both sides, beside the link and the deadline. -/
theorem Leisurely.change (h : Leisurely P settings wait s t) (g : Session L → Session L)
    (hblind : ∀ (s : Session L) (deadline : Option Nanos),
      g { s with deadline } = { g s with deadline })
    (hkept : ∀ s, (g s).link = s.link ∧ (g s).settings = s.settings ∧ (g s).deadline = s.deadline) :
    Leisurely P settings wait (g s) (g t) := by
  obtain ⟨deadline, hunhurried, rfl⟩ := h
  obtain ⟨hlink, hsettings, hdeadline⟩ := hkept s
  refine ⟨deadline, ?_, hblind s deadline⟩
  exact {
    still := by rw [hlink]; exact hunhurried.still
    same := hsettings.trans hunhurried.same
    ample := by rw [hlink, hdeadline]; exact hunhurried.ample
    ample' := by rw [hlink]; exact hunhurried.ample' }

/-- What the link does takes no time. -/
theorem Leisurely.onLink (h : Leisurely P settings wait s t) {link : L} (hstill : P link)
    (hnow : Link.now link = Link.now s.link) :
    Leisurely P settings wait { s with link } { t with link } := by
  obtain ⟨deadline, hunhurried, rfl⟩ := h
  refine ⟨deadline, ?_, rfl⟩
  exact {
    still := hstill
    same := hunhurried.same
    ample := by dsimp only; rw [hnow]; exact hunhurried.ample
    ample' := by dsimp only; rw [hnow]; exact hunhurried.ample' }

end Session

open Session

namespace Action

variable {ε L α β : Type} [Link L] {P : L → Prop} {settings : Settings} {wait : Nanos}

/-! ## Actions that do not look at the deadline -/

theorem leisurely_get_bind {f : Session L → Action ε L α}
    (hblind : ∀ (s : Session L) (deadline : Option Nanos), f { s with deadline } = f s)
    (hf : ∀ s, Respects (Leisurely P settings wait) (f s)) :
    Respects (Leisurely P settings wait) (get >>= f) := by
  refine respects_get_bind (fun s t h => ?_) hf
  obtain ⟨deadline, -, rfl⟩ := h
  exact hblind s deadline

theorem leisurely_modify {g : Session L → Session L}
    (hblind : ∀ (s : Session L) (deadline : Option Nanos),
      g { s with deadline } = { g s with deadline })
    (hkept : ∀ s, (g s).link = s.link ∧ (g s).settings = s.settings ∧ (g s).deadline = s.deadline) :
    Respects (Leisurely P settings wait) (modify g : Action ε L PUnit) :=
  respects_modify fun _ _ h => h.change g hblind hkept

theorem leisurely_modify_bind {g : Session L → Session L} {f : PUnit → Action ε L α}
    (hblind : ∀ (s : Session L) (deadline : Option Nanos),
      g { s with deadline } = { g s with deadline })
    (hkept : ∀ s, (g s).link = s.link ∧ (g s).settings = s.settings ∧ (g s).deadline = s.deadline)
    (hf : ∀ u, Respects (Leisurely P settings wait) (f u)) :
    Respects (Leisurely P settings wait) (modify g >>= f) :=
  (leisurely_modify hblind hkept).bind hf

theorem leisurely_count (g : Statistics → Statistics) :
    Respects (Leisurely P settings wait) (count g : Action ε L Unit) :=
  leisurely_modify (fun _ _ => rfl) fun _ => ⟨rfl, rfl, rfl⟩

theorem leisurely_onLink_bind {g : L → β × L} {f : β → Action ε L α}
    (hg : ∀ link, P link → P (g link).2 ∧ Link.now (g link).2 = Link.now link)
    (hf : ∀ b, Respects (Leisurely P settings wait) (f b)) :
    Respects (Leisurely P settings wait) (onLink g >>= f) := by
  intro s t h
  have hsame : t.link = s.link := by
    obtain ⟨deadline, -, rfl⟩ := h
    rfl
  have hstill : P s.link := by
    obtain ⟨deadline, hunhurried, -⟩ := h
    exact hunhurried.still
  obtain ⟨hkept, hnow⟩ := hg s.link hstill
  rw [agree_onLink_bind, hsame]
  exact hf _ _ _ (h.onLink hkept hnow)

end Action

namespace Step

variable {L : Type} [Link L] {P : L → Prop} {settings : Settings} {wait : Nanos}

/-! ## Single blocks -/

theorem charge_leisurely (setback : Setback) :
    Respects (Leisurely P settings wait) (charge setback : Step L Unit) := by
  cases setback with
  | major failure => exact respects_fail _
  | minor failure =>
      intro s t h
      have hcharged := h.change (fun s => { s with retries := s.retries + 1 }) (fun _ _ => rfl)
        fun _ => ⟨rfl, rfl, rfl⟩
      obtain ⟨deadline, hunhurried, rfl⟩ := h
      unfold charge
      rw [agree_get_bind]
      dsimp only
      split
      · exact ⟨rfl, deadline, hunhurried, rfl⟩
      · rw [agree_set_bind]
        split
        · exact ⟨rfl, hcharged⟩
        · exact leisurely_count _ _ _ hcharged

theorem orCharge_leisurely {step : Step L Unit} (h : Respects (Leisurely P settings wait) step) :
    Respects (Leisurely P settings wait) (orCharge step) := by
  refine (respects_attempt h).bind fun outcome => ?_
  cases outcome with
  | ok u => exact respects_pure _
  | error setback => exact charge_leisurely setback

variable (htimeless : Link.Timeless P)

include htimeless

theorem transmit_leisurely (frame : Bytes) :
    Respects (Leisurely P settings wait) (transmit frame : Step L Unit) := by
  refine (leisurely_count _).bind fun _ => leisurely_get_bind (fun _ _ => rfl) fun s =>
    leisurely_onLink_bind (fun link => htimeless.writeAll frame _ link) fun outcome => ?_
  cases outcome with
  | ok u => exact respects_pure _
  | error fault => exact respects_fail _

theorem sendCommand_leisurely :
    Respects (Leisurely P settings wait) (sendCommand : Step L Unit) :=
  leisurely_get_bind (fun _ _ => rfl) fun _ => transmit_leisurely htimeless _

theorem sendControl_leisurely (block : Block) :
    Respects (Leisurely P settings wait) (sendControl block : Step L Unit) := by
  refine leisurely_get_bind (fun _ _ => rfl) fun s => ?_
  split
  · exact respects_fail _
  · exact transmit_leisurely htimeless _

theorem readFrame_leisurely (n : Nat) (timeout : Nanos) :
    Respects (Leisurely P settings wait) (readFrame n timeout : Step L Unit) := by
  refine leisurely_get_bind (fun _ _ => rfl) fun s => ?_
  split
  · exact respects_fail _
  · refine leisurely_onLink_bind (fun link => htimeless.readUpTo timeout n n link) fun outcome => ?_
    refine leisurely_modify_bind (fun _ _ => rfl) (fun _ => ⟨rfl, rfl, rfl⟩) fun _ => ?_
    split
    · exact respects_pure _
    · exact respects_fail _

theorem discard_leisurely (timeout : Nanos) : ∀ rounds remaining : Nat,
    Respects (Leisurely P settings wait) (discard timeout rounds remaining : Step L Unit)
  | 0, _ => respects_pure _
  | rounds + 1, remaining => by
      refine leisurely_get_bind (fun _ _ => rfl) fun s => ?_
      dsimp only
      split
      · exact respects_pure _
      · refine (respects_attempt (readFrame_leisurely htimeless _ timeout)).bind fun outcome => ?_
        cases outcome with
        | error setback => exact leisurely_modify (fun _ _ => rfl) fun _ => ⟨rfl, rfl, rfl⟩
        | ok u =>
            exact leisurely_modify_bind (fun _ _ => rfl) (fun _ => ⟨rfl, rfl, rfl⟩) fun _ =>
              discard_leisurely timeout rounds _

theorem receiveBlock_leisurely (timeout : Nanos) :
    Respects (Leisurely P settings wait) (receiveBlock timeout : Step L Inbound) := by
  have hprologue : Respects (Leisurely P settings wait) (readPrologue timeout : Step L Unit) :=
    leisurely_modify_bind (fun _ _ => rfl) (fun _ => ⟨rfl, rfl, rfl⟩) fun _ =>
      (readFrame_leisurely htimeless _ timeout).bind fun _ =>
        leisurely_get_bind (fun _ _ => rfl) fun _ => readFrame_leisurely htimeless _ timeout
  have hblock : ∀ start,
      Respects (Leisurely P settings wait) (readBlock start : Step L Inbound) := by
    intro start
    refine (leisurely_count _).bind fun _ => leisurely_get_bind (fun _ _ => rfl) fun s => ?_
    split
    · exact respects_pure _
    · split
      · exact (leisurely_count _).bind fun _ => respects_fail _
      · exact respects_fail _
  refine hprologue.bind fun _ => leisurely_get_bind (fun _ _ => rfl) fun s => ?_
  split
  · exact respects_fail _
  · dsimp only
    split
    · exact leisurely_modify_bind (fun _ _ => rfl) (fun _ => ⟨rfl, rfl, rfl⟩) fun _ =>
        (discard_leisurely htimeless timeout _ _).bind fun _ => respects_fail _
    · exact (readFrame_leisurely htimeless _ timeout).bind fun _ => hblock _

/-! ## Waiting -/

omit htimeless in
/-- A wait that there is time for is not cut short. -/
theorem waitTime_eq {s : Session L} (hexchange : 0 < settings.exchangeTimeout)
    (hample : ∀ instant ∈ s.deadline,
      Link.now s.link + max settings.exchangeTimeout wait ≤ instant) :
    (waitTime wait : Step L Nanos) s = .ok wait s := by
  have hwhole : Ensures (waitTime wait : Step L Nanos) s fun r s' => r = .ok wait ∧ s' = s := by
    unfold waitTime
    rw [ensures_get_bind]
    split
    · exact ⟨rfl, rfl⟩
    · rename_i deadline hdeadline
      have hleft : max settings.exchangeTimeout wait ≤ deadline - Link.now s.link :=
        Nat.le_sub_of_add_le' (hample deadline hdeadline)
      have hsome : deadline - Link.now s.link ≠ 0 :=
        Nat.ne_of_gt (Nat.lt_of_lt_of_le hexchange (Nat.le_trans (Nat.le_max_left _ _) hleft))
      dsimp only
      rw [if_neg hsome, ensures_pure, Nat.min_eq_left (Nat.le_trans (Nat.le_max_right _ _) hleft)]
      exact ⟨rfl, rfl⟩
  obtain ⟨s', hrun, rfl⟩ := hwhole.exists_ok
  exact hrun

omit htimeless in
theorem waitTime_leisurely (hexchange : 0 < settings.exchangeTimeout) :
    Respects (Leisurely P settings wait) (waitTime wait : Step L Nanos) := by
  intro s t h
  obtain ⟨deadline, hunhurried, rfl⟩ := h
  exact agree_ok (waitTime_eq hexchange hunhurried.ample) (waitTime_eq hexchange hunhurried.ample')
    ⟨deadline, hunhurried, rfl⟩

omit [Link L] htimeless in
/-- A deadline that is moved is as far ahead as it was, and by what was granted. -/
theorem le_of_mem_bind_after {deadline : Option Nanos} {extra now bound instant : Nanos}
    (h : ∀ instant ∈ deadline, now + bound ≤ instant)
    (hmem : instant ∈ deadline.bind (Time.after? · extra)) : now + max bound extra ≤ instant := by
  obtain ⟨before, hbefore, hafter⟩ := Option.bind_eq_some_iff.mp hmem
  have hleast := h before hbefore
  unfold Time.after? at hafter
  split at hafter
  · obtain rfl := Option.some.inj hafter
    have hmax : max bound extra ≤ bound + extra :=
      Nat.max_le.mpr ⟨Nat.le_add_right _ _, Nat.le_add_left _ _⟩
    calc now + max bound extra ≤ now + (bound + extra) := Nat.add_le_add_left hmax _
      _ = now + bound + extra := (Nat.add_assoc _ _ _).symm
      _ ≤ before + extra := Nat.add_le_add_right hleast _
  · exact absurd hafter nofun

omit htimeless in
/-- There is time enough to wait for as long as was granted. -/
theorem extendWait_leisurely (multiplier : UInt8) {s t : Session L}
    (h : Leisurely P settings wait s t) :
    Agree (extendWait multiplier) s (extendWait multiplier) t fun r s' t' =>
      match r with
      | .ok extra => Leisurely P settings extra s' t'
      | .error _ => Leisurely P settings 0 s' t' := by
  unfold extendWait
  split
  · exact ⟨rfl, h.between⟩
  · rw [agree_modify_bind]
    have hcounted := h.change (fun s => { s with
      extension.requests := min (s.extension.requests + 1) Session.counterMax }) (fun _ _ => rfl)
      fun _ => ⟨rfl, rfl, rfl⟩
    obtain ⟨deadline, hunhurried, rfl⟩ := h
    rw [agree_get_bind]
    dsimp only at hcounted ⊢
    split
    · exact ⟨rfl, hcounted.between⟩
    · rename_i extra total _
      rw [agree_set_bind]
      have hbound : ∀ {deadline : Option Nanos},
          (∀ instant ∈ deadline, Link.now s.link + max settings.exchangeTimeout wait ≤ instant) →
          ∀ instant ∈ deadline.bind (Time.after? · extra),
            Link.now s.link + max settings.exchangeTimeout extra ≤ instant := by
        intro deadline hample instant hmem
        refine le_of_mem_bind_after (fun before hbefore => ?_) hmem
        exact Nat.le_trans (Nat.add_le_add_left (Nat.le_max_left _ _) _) (hample before hbefore)
      refine ⟨rfl, deadline.bind (Time.after? · extra), ?_, rfl⟩
      exact {
        still := hunhurried.still
        same := hunhurried.same
        ample := hbound hunhurried.ample
        ample' := hbound hunhurried.ample' }

variable (hvalid : settings.fault? = none)

include hvalid

/-- A wait ends the same way with either deadline, and there is time enough for the next one. -/
theorem awaitRound_leisurely {s t : Session L} (h : Leisurely P settings wait s t) :
    Agree (awaitRound wait) s (awaitRound wait) t fun r s' t' =>
      match r with
      | .ok (.inl next) => Leisurely P settings next s' t'
      | .ok (.inr _) | .error _ => Leisurely P settings 0 s' t' := by
  obtain ⟨hfits, hexchange⟩ := Settings.blockTimeout_le hvalid
  unfold awaitRound
  refine (waitTime_leisurely hexchange s t h).bind (fun time s₁ t₁ h₁ => ?_)
    fun _ _ _ h₁ => h₁.between
  refine (receiveBlock_leisurely htimeless time s₁ t₁ h₁).bind (fun inbound s₂ t₂ h₂ => ?_)
    fun _ _ _ h₂ => h₂.between
  have hanswer : ∀ {next : Nanos} {s₃ t₃ : Session L} (block : Block),
      Leisurely P settings next s₃ t₃ →
      Agree (do sendControl block; return .inl next : Step L (Nanos ⊕ Inbound)) s₃
        (do sendControl block; return .inl next) t₃ fun r s' t' =>
          match r with
          | .ok (.inl next) => Leisurely P settings next s' t'
          | .ok (.inr _) | .error _ => Leisurely P settings 0 s' t' :=
    fun block h₃ => (sendControl_leisurely htimeless block _ _ h₃).bind
      (fun _ _ _ h₄ => ⟨rfl, h₄⟩) fun _ _ _ h₄ => h₄.between
  have hleisure := h₂
  obtain ⟨deadline, hunhurried, rfl⟩ := h₂
  rw [agree_get_bind]
  dsimp only
  split
  · exact (extendWait_leisurely _ hleisure).bind (fun extra _ _ h₃ => hanswer _ h₃)
      fun _ _ _ h₃ => h₃
  · split
    · exact ⟨rfl, hleisure.between⟩
    · refine hanswer _ (hleisure.weaken ?_)
      rw [hunhurried.same]
      exact Nat.le_trans hfits (Nat.le_max_left _ _)
  · exact ⟨rfl, hleisure.between⟩

theorem awaitBlock_leisurely :
    Respects (Leisurely P settings 0) (awaitBlock : Step L Inbound) := by
  obtain ⟨hfits, -⟩ := Settings.blockTimeout_le hvalid
  intro s t h
  unfold awaitBlock
  have hleisure := h
  obtain ⟨deadline, hunhurried, rfl⟩ := h
  rw [agree_get_bind]
  dsimp only
  refine agree_loop_indexed (R := fun next => Leisurely P settings next) (fun next s t h => ?_)
    (fun _ _ _ h => h.between) _ _ _ _ (hleisure.weaken ?_)
  · refine (awaitRound_leisurely htimeless hvalid h).mono ?_
    intro r s' t' hr
    match r with
    | .ok (.inl _) => exact hr
    | .ok (.inr _) => exact hr
    | .error _ => exact hr
  · rw [hunhurried.same]
    exact Nat.le_trans hfits (Nat.le_max_left _ _)

/-! ## Responses -/

omit hvalid in
theorem refuse_leisurely (receipt : Receipt) :
    Respects (Leisurely P settings 0) (refuse receipt : Step L Unit) :=
  leisurely_get_bind (fun _ _ => rfl) fun _ =>
    orCharge_leisurely (sendControl_leisurely htimeless _)

omit hvalid in
theorem reject_leisurely (setback : Setback) (receipt : Receipt) :
    Respects (Leisurely P settings 0) (reject setback receipt : Step L Unit) :=
  (charge_leisurely setback).bind fun _ => refuse_leisurely htimeless receipt

omit hvalid in
theorem accept_leisurely (inbound : Inbound) (more : Bool) :
    Respects (Leisurely P settings 0) (accept inbound more : Step L Bool) := by
  intro s t h
  have hleisure := h
  obtain ⟨deadline, hunhurried, rfl⟩ := h
  unfold accept
  rw [agree_get_bind]
  dsimp only
  split
  · exact ⟨rfl, hleisure⟩
  · split
    · exact ⟨rfl, hleisure⟩
    · rename_i response _
      rw [agree_set_bind]
      have haccepted := hleisure.change (fun s => { s with
        response, recvSeq := s.recvSeq.next, commandPending := false, retries := 0 })
        (fun _ _ => rfl) fun _ => ⟨rfl, rfl, rfl⟩
      refine Respects.agree ?_ haccepted
      split
      · exact respects_pure _
      · exact (orCharge_leisurely (sendControl_leisurely htimeless _)).bind fun _ => respects_pure _

omit hvalid in
theorem dealWith_leisurely (received : Except Setback Inbound) :
    Respects (Leisurely P settings 0) (dealWith received : Step L (Unit ⊕ Unit)) := by
  cases received with
  | error setback => exact (reject_leisurely htimeless setback _).bind fun _ => respects_pure _
  | ok inbound =>
      have hreject : Respects (Leisurely P settings 0) (do
          reject (.minor inbound.rejection) .otherwiseBad
          return .inl () : Step L (Unit ⊕ Unit)) :=
        (reject_leisurely htimeless _ _).bind fun _ => respects_pure _
      refine leisurely_get_bind (fun _ _ => rfl) fun s => ?_
      split
      · split
        · refine (accept_leisurely htimeless inbound _).bind fun complete => ?_
          split
          · exact respects_pure _
          · exact respects_pure _
        · exact hreject
      · split
        · exact (charge_leisurely _).bind fun _ =>
            (orCharge_leisurely (sendCommand_leisurely htimeless)).bind fun _ => respects_pure _
        · exact hreject
      · exact hreject

theorem nextBlock_leisurely :
    Respects (Leisurely P settings 0) (nextBlock : Step L (Except Setback Inbound)) := by
  intro s t h
  have hdropped := h.change (fun s => { s with parked := none }) (fun _ _ => rfl)
    fun _ => ⟨rfl, rfl, rfl⟩
  obtain ⟨deadline, hunhurried, rfl⟩ := h
  unfold nextBlock
  rw [agree_get_bind, agree_set_bind]
  dsimp only
  split
  · exact ⟨rfl, hdropped⟩
  · exact respects_attempt (awaitBlock_leisurely htimeless hvalid) _ _ hdropped

/-- **A response is collected the same way, whatever the deadline.** -/
theorem receiveRound_leisurely :
    Respects (Leisurely P settings 0) (receiveRound () : Step L (Unit ⊕ Unit)) :=
  (nextBlock_leisurely htimeless hvalid).bind fun received => dealWith_leisurely htimeless received

end Step

end SecureElement
