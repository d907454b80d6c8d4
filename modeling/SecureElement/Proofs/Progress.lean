import SecureElement.Proofs.Backlog
import SecureElement.Proofs.Budget
import SecureElement.Session.Calls

/-!
# Every call comes to an end

The loops of a session have a number of rounds that is fixed beforehand. This file
shows that it is large enough: over a link whose backlog is true to its name no call
ever stalls, whatever the state in which it is made (`perform_ends`). So what is said
about the end of a call leaves out no case that such a link could bring about.

* A loop of tries goes on only if a try was charged, so what is left of the budget is
  its variant (`tries_ended`).
* Collecting a response goes on for two reasons, and an accepted block gives the whole
  budget back. Its variant counts a whole budget for everything that can still come,
  and what is left of the present one (`credit`).
-/

namespace SecureElement

open Link

namespace Step

open SecureElement.Action Session

variable {L : Type} [Link L] [Truthful L] {s s' s'' : Session L} {α β : Type}

/-! ## Tries -/

/-- The step ends, however many tries it charged. -/
def Ended (s : Session L) (r : Except (Stop Setback) α) (s' : Session L) : Prop :=
  Uses s s' ∧ r ≠ .error .stalled

omit [Truthful L] in
/-- A charge that passes has used up one more try. -/
theorem charge_ended (setback : Setback) :
    Ensures (charge setback) s fun r s' =>
      Ended s r s' ∧ (r = .ok () → s.retries < s'.retries ∧ s'.WithinBudget) := by
  have huses : ∀ retries : Nat, ∀ statistics : Statistics,
      Uses s { s with retries, statistics } := fun _ _ => ⟨Nat.le_refl _, rfl, rfl⟩
  unfold charge
  cases setback with
  | major failure => exact ⟨⟨huses s.retries s.statistics, nofun⟩, nofun⟩
  | minor failure =>
      dsimp only
      rw [ensures_get_bind]
      split
      · exact ⟨⟨huses s.retries s.statistics, nofun⟩, nofun⟩
      · rw [ensures_set_bind]
        split
        · exact ⟨⟨huses _ s.statistics, nofun⟩, nofun⟩
        · rename_i hleft
          exact ⟨⟨huses _ _, nofun⟩, fun _ => ⟨Nat.lt_succ_self _, Nat.le_of_not_lt hleft⟩⟩

/-- A step that was tried once. -/
def Attempted (s : Session L) (r : Except (Stop Setback) Unit) (s' : Session L) : Prop :=
  Ended s r s' ∧ (r = .ok () → s.WithinBudget → s.retries ≤ s'.retries ∧ s'.WithinBudget)

omit [Truthful L] in
theorem orCharge_attempted {step : Step L Unit} (h : Ensures step s (Returns s)) :
    Ensures (orCharge step) s (Attempted s) := by
  unfold orCharge
  refine ensures_attempt_bind h ?_ ?_ ?_ ?_
  · intro u s₁ hend
    obtain ⟨hspends, -⟩ := hend
    refine ⟨⟨hspends.toUses, nofun⟩, fun _ hbudget => ⟨Nat.le_of_eq hspends.retries.symm, ?_⟩⟩
    unfold WithinBudget
    rw [hspends.retries, hspends.settings]
    exact hbudget
  · intro setback s₁ hend
    obtain ⟨hspends, -⟩ := hend
    refine (charge_ended setback).mono ?_
    intro r s₂ hend
    obtain ⟨⟨huses, hends⟩, hcharged⟩ := hend
    refine ⟨⟨hspends.toUses.trans huses, hends⟩, fun hr _ => ?_⟩
    obtain ⟨hmore, hwithin⟩ := hcharged hr
    exact ⟨by rw [← hspends.retries]; exact Nat.le_of_lt hmore, hwithin⟩
  · intro s₁ hend
    obtain ⟨hspends, -⟩ := hend
    exact ⟨⟨hspends.toUses, nofun⟩, nofun⟩
  · intro s₁ hend
    obtain ⟨-, hends⟩ := hend
    exact absurd rfl hends

/-- A round of tries: there is another only if a try was charged. -/
def Charged {σ : Type} (s : Session L) (r : Except (Stop Setback) (σ ⊕ α)) (s' : Session L) :
    Prop :=
  Ended s r s' ∧ ∀ state, r = .ok (.inl state) → s.retries < s'.retries ∧ s'.WithinBudget

omit [Truthful L] in
/-- **Tries end**, since each of them uses up some of the budget. -/
theorem tries_ended {σ : Type} {round : σ → Step L (σ ⊕ α)} (state : σ)
    (hround : ∀ state s₁, Ensures (round state) s₁ (Charged s₁)) :
    Ensures (loop round (s.settings.blockRetransmits + 1) state) s (Ended s) := by
  refine ensures_loop_variant (I := fun _ s₁ => Uses s s₁)
    (V := fun s₁ => s₁.settings.blockRetransmits - s₁.retries) ?_ _ _ _
    ⟨Nat.le_refl _, rfl, rfl⟩ (by omega)
  intro state s₁ huses
  refine (hround state s₁).mono ?_
  intro r s₂ hend
  obtain ⟨⟨huses', hends⟩, hcharged⟩ := hend
  match r with
  | .ok (.inl state') =>
      obtain ⟨hmore, hwithin⟩ := hcharged state' rfl
      unfold WithinBudget at hwithin
      have hsettings := huses'.settings
      refine ⟨huses.trans huses', ?_⟩
      rw [hsettings] at hwithin ⊢
      omega
  | .ok (.inr a) => exact ⟨huses.trans huses', nofun⟩
  | .error stop => exact ⟨huses.trans huses', error_ne_stalled hends⟩

omit [Truthful L] in
/-- What was charged in a round that asks for another one. -/
theorem charge_charged (setback : Setback) :
    Ensures (do charge setback; return .inl () : Step L (Unit ⊕ α)) s (Charged s) := by
  refine (charge_ended setback).bind ?_ ?_
  · intro u s₁ hend
    obtain ⟨⟨huses, -⟩, hcharged⟩ := hend
    exact ⟨⟨huses, nofun⟩, fun _ _ => hcharged rfl⟩
  · intro stop s₁ hend
    obtain ⟨⟨huses, hends⟩, -⟩ := hend
    exact ⟨⟨huses, error_ne_stalled hends⟩, nofun⟩

/-! ## Exchanges -/

theorem ask_returns {send : Step L Unit} (h : ∀ s₁, Ensures send s₁ (Returns s₁)) :
    Ensures (do send; awaitBlock) s (Returns s) :=
  returns_bind (h s) fun _ _ _ => awaitBlock_brings.mono fun _ _ hend => hend.1

omit [Truthful L] in
theorem askRound_charged {ask : Step L Inbound} (h : ∀ s₁, Ensures ask s₁ (Returns s₁))
    (answer : Control) (s : Session L) : Ensures (askRound ask answer ()) s (Charged s) := by
  have charged : ∀ {setback : Setback} {s₁ : Session L}, Spends s s₁ →
      Ensures (do charge setback; return .inl () : Step L (Unit ⊕ Inbound)) s₁ (Charged s) := by
    intro setback s₁ hspends
    refine (charge_charged setback).mono ?_
    intro r s₂ hend
    obtain ⟨⟨huses, hends⟩, hcharged⟩ := hend
    rw [hspends.retries] at hcharged
    exact ⟨⟨hspends.toUses.trans huses, hends⟩, hcharged⟩
  unfold askRound
  refine ensures_attempt_bind (h s) ?_ ?_ ?_ ?_
  · intro inbound s₁ hend
    obtain ⟨hspends, -⟩ := hend
    dsimp only
    split
    · exact ⟨⟨hspends.toUses, nofun⟩, nofun⟩
    · exact charged hspends
  · intro setback s₁ hend
    obtain ⟨hspends, -⟩ := hend
    exact charged hspends
  · intro s₁ hend
    obtain ⟨hspends, -⟩ := hend
    exact ⟨⟨hspends.toUses, nofun⟩, nofun⟩
  · intro s₁ hend
    obtain ⟨-, hends⟩ := hend
    exact absurd rfl hends

omit [Truthful L] in
theorem askUntil_ended {ask : Step L Inbound} (h : ∀ s₁, Ensures ask s₁ (Returns s₁))
    (answer : Control) : Ensures (askUntil ask answer) s (Ended s) := by
  unfold askUntil
  rw [ensures_get_bind]
  exact tries_ended () fun _ s₁ => askRound_charged h answer s₁

theorem sendFinalRound_charged (s : Session L) :
    Ensures (sendFinalRound ()) s (Charged s) := by
  unfold sendFinalRound
  refine ensures_attempt_bind sendCommand_returns ?_ ?_ ?_ ?_
  · intro u s₁ hend
    obtain ⟨hspends, -⟩ := hend
    exact ⟨⟨hspends.toUses, nofun⟩, nofun⟩
  · intro setback s₁ hend
    obtain ⟨hspends, -⟩ := hend
    refine (charge_charged setback).mono ?_
    intro r s₂ hend
    obtain ⟨⟨huses, hends⟩, hcharged⟩ := hend
    rw [hspends.retries] at hcharged
    exact ⟨⟨hspends.toUses.trans huses, hends⟩, hcharged⟩
  · intro s₁ hend
    obtain ⟨hspends, -⟩ := hend
    exact ⟨⟨hspends.toUses, nofun⟩, nofun⟩
  · intro s₁ hend
    obtain ⟨-, hends⟩ := hend
    exact absurd rfl hends

theorem sendFinal_ended : Ensures sendFinal s (Ended s) := by
  unfold sendFinal
  rw [ensures_get_bind]
  exact tries_ended () fun _ s₁ => sendFinalRound_charged s₁

/-! ## Collecting a response -/

/-- What can still come for the exchange, in octets and one more for what is parked. -/
def due (s : Session L) : Nat := backlog s.link + if s.parked.isSome then 1 else 0

/-- A whole budget for everything that is due, and what is left of the present one. -/
def credit (s : Session L) : Nat :=
  due s * (s.settings.blockRetransmits + 1) + (s.settings.blockRetransmits - s.retries)

omit [Truthful L] in
theorem Uses.due (h : Uses s s') : Step.due s' ≤ Step.due s := by
  unfold Step.due
  rw [h.parked]
  exact Nat.add_le_add_right h.backlog _

/-- A block for the exchange was parked or is brought. -/
theorem nextBlock_ended :
    Ensures nextBlock s fun r s' =>
      s'.retries = s.retries ∧ s'.settings = s.settings ∧ r ≠ .error .stalled ∧
        due s' ≤ due s ∧ ∀ inbound, r = .ok (.ok inbound) → due s' < due s := by
  unfold nextBlock
  rw [ensures_get_bind, ensures_set_bind]
  cases hparked : s.parked with
  | some received =>
      have hless : due { s with parked := none } < due s := by
        unfold due
        rw [hparked]
        exact Nat.lt_succ_self _
      exact ⟨rfl, rfl, nofun, Nat.le_of_lt hless, fun _ _ => hless⟩
  | none =>
      -- nothing is parked, so a block can only come out of what the link still has
      have hsame : { s with parked := none } = s := by rw [← hparked]
      dsimp only
      rw [hsame]
      refine ensures_attempt awaitBlock_brings ?_ ?_ ?_ ?_
      · intro inbound s₁ hend
        obtain ⟨⟨hspends, -⟩, hbrought⟩ := hend
        refine ⟨hspends.retries, hspends.settings, nofun, hspends.toUses.due, fun _ _ => ?_⟩
        unfold due
        rw [hspends.parked]
        exact Nat.add_lt_add_right (hbrought inbound rfl) _
      · intro setback s₁ hend
        obtain ⟨⟨hspends, -⟩, -⟩ := hend
        exact ⟨hspends.retries, hspends.settings, nofun, hspends.toUses.due, nofun⟩
      · intro s₁ hend
        obtain ⟨⟨hspends, -⟩, -⟩ := hend
        exact ⟨hspends.retries, hspends.settings, nofun, hspends.toUses.due, nofun⟩
      · intro s₁ hend
        obtain ⟨⟨-, hends⟩, -⟩ := hend
        exact absurd rfl hends

/-- What one round of collecting comes to: another one follows only if a try was charged, or a block
was accepted. -/
def Dealt (received : Except Setback Inbound) (s : Session L)
    (r : Except (Stop Setback) (Unit ⊕ Unit)) (s' : Session L) : Prop :=
  Ended s r s' ∧ ∀ state, r = .ok (.inl state) →
    s'.WithinBudget ∧ (s.retries < s'.retries ∨ ∃ inbound, received = .ok inbound)

theorem accept_ended (inbound : Inbound) (more : Bool) :
    Ensures (accept inbound more) s fun r s' =>
      Ended s r s' ∧ (r = .ok false → s'.WithinBudget) := by
  unfold accept
  rw [ensures_get_bind]
  split
  · exact ⟨⟨⟨Nat.le_refl _, rfl, rfl⟩, nofun⟩, nofun⟩
  · split
    · exact ⟨⟨⟨Nat.le_refl _, rfl, rfl⟩, nofun⟩, nofun⟩
    · rw [ensures_set_bind]
      split
      · exact ⟨⟨⟨Nat.le_refl _, rfl, rfl⟩, nofun⟩, nofun⟩
      · refine (orCharge_attempted (sendControl_returns _)).bind ?_ ?_
        · intro u s₁ hend
          obtain ⟨⟨huses, -⟩, hcharged⟩ := hend
          exact ⟨⟨{ huses with }, nofun⟩, fun _ => (hcharged rfl (Nat.zero_le _)).2⟩
        · intro stop s₁ hend
          obtain ⟨⟨huses, hends⟩, -⟩ := hend
          exact ⟨⟨{ huses with }, error_ne_stalled hends⟩, nofun⟩

omit [Truthful L] in
/-- A fault is charged, and then one frame is handed over. -/
theorem charge_dealt {received : Except Setback Inbound} (setback : Setback)
    {answer : Step L Unit} (h : ∀ s₁, Ensures answer s₁ (Attempted s₁)) :
    Ensures (do charge setback; answer; return .inl ()) s (Dealt received s) := by
  refine (charge_ended setback).bind ?_ ?_
  · intro u s₁ hend
    obtain ⟨⟨huses, -⟩, hcharged⟩ := hend
    obtain ⟨hmore, hwithin⟩ := hcharged rfl
    refine (h s₁).bind ?_ ?_
    · intro u' s₂ hend
      obtain ⟨⟨huses', -⟩, hcharged'⟩ := hend
      obtain ⟨hmore', hwithin'⟩ := hcharged' rfl hwithin
      exact ⟨⟨huses.trans huses', nofun⟩, fun _ _ =>
        ⟨hwithin', Or.inl (Nat.lt_of_lt_of_le hmore hmore')⟩⟩
    · intro stop s₂ hend
      obtain ⟨⟨huses', hends⟩, -⟩ := hend
      exact ⟨⟨huses.trans huses', error_ne_stalled hends⟩, nofun⟩
  · intro stop s₁ hend
    obtain ⟨⟨huses, hends⟩, -⟩ := hend
    exact ⟨⟨huses, error_ne_stalled hends⟩, nofun⟩

theorem reject_dealt {received : Except Setback Inbound} (setback : Setback) (receipt : Receipt) :
    Ensures (do reject setback receipt; return .inl ()) s (Dealt received s) := by
  unfold reject
  rw [bind_assoc]
  refine charge_dealt setback fun s₁ => ?_
  unfold refuse
  rw [ensures_get_bind]
  exact orCharge_attempted (sendControl_returns _)

theorem dealWith_dealt (received : Except Setback Inbound) :
    Ensures (dealWith received) s (Dealt received s) := by
  unfold dealWith
  cases received with
  | error setback => exact reject_dealt setback _
  | ok inbound =>
      dsimp only
      rw [ensures_get_bind]
      split
      · split
        · refine Ensures.bind (accept_ended inbound _) ?_ ?_
          · intro complete s₁ hend
            obtain ⟨⟨huses, -⟩, hwithin⟩ := hend
            cases complete with
            | true => exact ⟨⟨huses, nofun⟩, nofun⟩
            | false => exact ⟨⟨huses, nofun⟩, fun _ _ => ⟨hwithin rfl, Or.inr ⟨inbound, rfl⟩⟩⟩
          · intro stop s₁ hend
            obtain ⟨⟨huses, hends⟩, -⟩ := hend
            exact ⟨⟨huses, error_ne_stalled hends⟩, nofun⟩
        · exact reject_dealt _ _
      · split
        · exact charge_dealt _ fun _ => orCharge_attempted sendCommand_returns
        · exact reject_dealt _ _
      · exact reject_dealt _ _

/-- A round that goes on has cost some of the credit: a try, or a budget that is given back for less
than what came in. -/
theorem receiveRound_credit (s : Session L) :
    Ensures (receiveRound ()) s fun r s' =>
      r ≠ .error .stalled ∧ ∀ state, r = .ok (.inl state) → credit s' < credit s := by
  unfold receiveRound
  refine nextBlock_ended.bind ?_ ?_
  · intro received s₁ hend
    obtain ⟨hretries, hsettings, -, hless, hbrought⟩ := hend
    refine (dealWith_dealt received).mono ?_
    intro r s₂ hend
    obtain ⟨⟨huses, hends⟩, hdealt⟩ := hend
    refine ⟨hends, fun state hr => ?_⟩
    obtain ⟨hwithin, hwhy⟩ := hdealt state hr
    have hsettings₂ := huses.settings.trans hsettings
    have hdue := huses.due
    unfold WithinBudget at hwithin
    unfold credit
    rw [hsettings₂] at hwithin ⊢
    rcases hwhy with hmore | ⟨inbound, hok⟩
    · -- a try was charged, and no more is due than before
      have hall := Nat.mul_le_mul_right (s.settings.blockRetransmits + 1) (Nat.le_trans hdue hless)
      omega
    · -- a block was accepted: less is due, by as much as the budget that is given back
      have hall := Nat.mul_le_mul_right (s.settings.blockRetransmits + 1)
        (Nat.lt_of_le_of_lt hdue (hbrought inbound (congrArg _ hok)))
      rw [Nat.succ_mul] at hall
      omega
  · intro stop s₁ hend
    obtain ⟨-, -, hends, -, -⟩ := hend
    exact ⟨error_ne_stalled hends, nofun⟩

/-- **Collecting a response ends.** -/
theorem receiveResponse_ended : Ensures receiveResponse s fun r _ => r ≠ .error .stalled := by
  unfold receiveResponse
  rw [ensures_modify_bind, ensures_get_bind]
  refine ensures_loop_variant (I := fun _ _ => True) (V := credit) ?_ _ _ _ trivial ?_
  · intro state s₁ _
    refine (receiveRound_credit s₁).mono ?_
    intro r s₂ hend
    obtain ⟨hends, hless⟩ := hend
    match r with
    | .ok (.inl state') => exact ⟨trivial, hless state' rfl⟩
    | .ok (.inr u) => exact nofun
    | .error stop => exact error_ne_stalled hends
  · -- one more is due for what is parked, and the present budget is no larger than a whole one
    have hdue : due { s with response := s.response.clear } ≤ backlog s.link + 1 := by
      unfold due
      dsimp only
      split <;> omega
    have hall := Nat.mul_le_mul_right (s.settings.blockRetransmits + 1) hdue
    unfold credit
    dsimp only
    rw [Nat.succ_mul (backlog s.link + 1)]
    omega

end Step

/-! ## Calls -/

namespace Action

variable {ε L α β : Type}

/-- However it is started, it comes to an end. -/
def Ends (x : Action ε L α) : Prop := ∀ s, Ensures x s fun r _ => r ≠ .error .stalled

theorem Ends.bind {x : Action ε L β} {f : β → Action ε L α} (hx : x.Ends)
    (hf : ∀ b, (f b).Ends) : (x >>= f).Ends := by
  intro s
  refine (hx s).bind ?_ ?_
  · intro b s' _
    exact hf b s'
  · intro stop s' hends heq
    exact hends (congrArg _ (Except.error.inj heq))

theorem ends_pure (a : α) : (pure a : Action ε L α).Ends := fun _ => nofun

theorem ends_get : (get : Action ε L (Session L)).Ends := fun _ => nofun

theorem ends_modify (g : Session L → Session L) : (modify g : Action ε L PUnit).Ends :=
  fun _ => nofun

theorem ends_count (g : Statistics → Statistics) : (count g : Action ε L Unit).Ends :=
  fun _ => nofun

theorem ends_onLink (g : L → α × L) : (onLink g : Action ε L α).Ends := fun _ => nofun

theorem ends_fail (reason : ε) : (fail reason : Action ε L α).Ends := fun _ => nofun

theorem ends_moveTo (status : Status) : (moveTo status : Action ε L Unit).Ends := by
  intro s
  unfold moveTo
  rw [ensures_get_bind]
  split
  · exact nofun
  · exact nofun

theorem ends_conclude {step : Step L β} {onValue : β → Call L α} {onFault : Setback → Call L α}
    (h : step.Ends) (hvalue : ∀ b, (onValue b).Ends) (hfault : ∀ setback, (onFault setback).Ends) :
    (step.conclude onValue onFault).Ends := by
  intro s
  refine Step.ensures_conclude (h s) ?_ ?_ ?_ ?_
  · intro b s' _
    exact hvalue b s'
  · intro setback s' _
    exact hfault setback s'
  · intro s' _
    exact nofun
  · intro s' hends
    exact absurd rfl hends

end Action

namespace Step

open SecureElement.Action

variable {L : Type} [Link L] [Truthful L] {α : Type}

omit [Truthful L] in
theorem ends_of_returns {x : Step L α} (h : ∀ s, Ensures x s (Returns s)) : x.Ends :=
  fun s => (h s).mono fun _ _ hend => hend.2

omit [Truthful L] in
theorem ends_of_ended {x : Step L α} (h : ∀ s, Ensures x s (Ended s)) : x.Ends :=
  fun s => (h s).mono fun _ _ hend => hend.2

theorem awaitBlock_ends : (awaitBlock : Step L Inbound).Ends :=
  ends_of_returns fun _ => awaitBlock_brings.mono fun _ _ hend => hend.1

omit [Link L] [Truthful L] in
theorem stage_ends (block : Block) : (stage block : Step L Unit).Ends := by
  intro s
  unfold stage
  rw [ensures_get_bind]
  dsimp only
  rw [ensures_set_bind]
  split
  · exact nofun
  · exact nofun

theorem sendBlock_ends (block : Block) : (sendBlock block : Step L Unit).Ends := by
  have hchained : (sendChained : Step L Unit).Ends :=
    ends_get.bind fun _ => Ends.bind
      (ends_of_ended fun _ => askUntil_ended (fun _ => ask_returns fun _ => sendCommand_returns) _)
      fun _ => ends_pure _
  refine (stage_ends block).bind fun _ => (ends_modify _).bind fun _ => ?_
  split
  · exact hchained.bind fun _ => ends_modify _
  · exact (ends_of_ended fun _ => sendFinal_ended).bind fun _ => ends_modify _

theorem sendBlocks_ends : ∀ (n : Nat) (chain : Chain), (sendBlocks n chain : Step L Unit).Ends
  | 0, _ => ends_pure _
  | n + 1, chain => by
      unfold sendBlocks
      split
      · exact ends_pure _
      · exact (sendBlock_ends _).bind fun _ => sendBlocks_ends n _

theorem sendChain_ends (command : Bytes) : (sendChain command : Step L Unit).Ends :=
  (ends_modify _).bind fun _ => ends_get.bind fun _ =>
    (sendBlocks_ends _ _).bind fun _ => ends_modify _

theorem supervise_ends (function : Supervisory) : (supervise function : Step L Inbound).Ends :=
  (ends_modify _).bind fun _ => ends_get.bind fun _ => ends_of_ended fun _ =>
    askUntil_ended (fun _ => ask_returns fun _ => sendControl_returns _) _

theorem resyncOnce_ends : (resyncOnce : Step L Unit).Ends := by
  refine ends_get.bind fun _ => ?_
  refine (ends_of_returns fun _ => sendControl_returns _).bind fun _ => ?_
  refine awaitBlock_ends.bind fun _ => ?_
  split
  · exact ends_fail _
  · exact ends_pure _

theorem resetInterface_ends : (resetInterface : Step L Unit).Ends := by
  refine (supervise_ends _).bind fun inbound => ?_
  intro s
  rw [ensures_get_bind]
  split
  · exact nofun
  · split
    · exact nofun
    · exact nofun

theorem park_ends : (park : Step L Unit).Ends := by
  intro s
  unfold park
  refine ensures_attempt_bind (awaitBlock_ends s) ?_ ?_ ?_ ?_
  · intro inbound s₁ _
    exact nofun
  · intro setback s₁ _
    cases setback with
    | minor failure => exact nofun
    | major failure => exact nofun
  · intro s₁ _
    exact nofun
  · intro s₁ hends
    exact absurd rfl hends

theorem resynchronise_ends : (resynchronise : Step L Unit).Ends :=
  (supervise_ends _).bind fun _ => (ends_count _).bind fun _ => ends_modify _

theorem renewInterface_ends : (renewInterface : Step L Unit).Ends :=
  (ends_modify _).bind fun _ => resetInterface_ends.bind fun _ => ends_modify _

theorem endApplication_ends : (endApplication : Step L Unit).Ends :=
  (supervise_ends _).bind fun _ => ends_pure _

end Step

namespace Session

open SecureElement.Action

variable {L : Type} [Link L] [Truthful L] {α : Type}

theorem resyncAttempts_ends : ∀ n : Nat, (resyncAttempts n : Call L Bool).Ends
  | 0 => ends_pure _
  | n + 1 => ends_conclude Step.resyncOnce_ends (fun _ => ends_pure _) fun _ =>
      resyncAttempts_ends n

theorem recover_ends (failure : Failure) : (recover failure : Call L Failure).Ends := by
  unfold recover
  refine ends_get.bind fun s => ?_
  split
  · exact ends_pure _
  · refine (ends_moveTo _).bind fun _ => (ends_modify _).bind fun _ => ends_get.bind fun _ => ?_
    refine (resyncAttempts_ends _).bind fun succeeded => ?_
    split
    · exact (ends_count _).bind fun _ => (ends_modify _).bind fun _ =>
        (ends_moveTo _).bind fun _ => ends_pure _
    · exact (ends_modify _).bind fun _ => (ends_moveTo _).bind fun _ => ends_pure _

omit [Truthful L] in
theorem begin_ends : (begin : Call L Unit).Ends := by
  unfold begin
  refine ends_get.bind fun s => ?_
  split
  · exact ends_fail _
  · exact ends_fail _
  · exact ends_fail _
  · exact (ends_moveTo _).bind fun _ => ends_modify _
  · exact (ends_moveTo _).bind fun _ => ends_modify _

/-- A call ends if its exchange does. -/
theorem run_ends {exchange : Step L α} (h : exchange.Ends) : (run exchange).Ends := by
  refine begin_ends.bind fun _ => ends_conclude h ?_ ?_
  · intro a
    exact (ends_modify _).bind fun _ => (ends_moveTo _).bind fun _ => ends_pure a
  · intro setback
    exact (ends_modify _).bind fun _ => (recover_ends _).bind fun _ => ends_fail _

theorem establish_ends : (establish : Call L Unit).Ends := by
  have hhandshake : (handshake : Step L Unit).Ends := by
    refine (ends_modify _).bind fun _ => ends_get.bind fun _ => ?_
    split
    · exact Step.resetInterface_ends
    · exact (Step.supervise_ends .resync).bind fun _ => ends_pure _
  unfold establish
  refine ends_get.bind fun s => ?_
  split
  · exact ends_pure _
  · refine (ends_onLink _).bind fun outcome => ?_
    split
    · exact ends_fail _
    · refine (ends_modify _).bind fun _ => ends_conclude hhandshake ?_ ?_
      · intro _
        exact (ends_modify _).bind fun _ => ends_moveTo _
      · intro setback
        exact (ends_modify _).bind fun _ => ends_fail _

theorem receive_ends : (receive : Call L Bytes).Ends :=
  (run_ends fun _ => Step.receiveResponse_ended).bind fun _ => ends_get.bind fun _ => ends_pure _

/-- **Every call comes to an end**, in whatever state it is made and whatever the link brings. -/
theorem perform_ends (request : Request) : (perform request : Call L (Option Bytes)).Ends := by
  cases request with
  | establish => exact establish_ends.bind fun _ => ends_pure _
  | close => exact (ends_modify _).bind fun _ => ends_pure _
  | send command => exact (run_ends (Step.sendChain_ends command)).bind fun _ => ends_pure _
  | receive => exact receive_ends.bind fun _ => ends_pure _
  | transceive command =>
      exact ((run_ends (Step.sendChain_ends command)).bind fun _ => receive_ends).bind
        fun _ => ends_pure _
  | prefetch =>
      refine Ends.bind ?_ fun _ => ends_pure _
      refine ends_get.bind fun s => ?_
      split
      · exact ends_pure _
      · exact run_ends Step.park_ends
  | resync => exact (run_ends Step.resynchronise_ends).bind fun _ => ends_pure _
  | softReset => exact (run_ends Step.renewInterface_ends).bind fun _ => ends_pure _
  | endApduSession => exact (run_ends Step.endApplication_ends).bind fun _ => ends_pure _
  | reset =>
      refine Ends.bind ?_ fun _ => ends_pure _
      refine ends_get.bind fun s => ?_
      split
      · exact run_ends Step.renewInterface_ends
      · exact establish_ends
  | dropResponse => exact (ends_modify _).bind fun _ => ends_pure _

end Session

end SecureElement
