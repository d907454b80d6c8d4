import SecureElement.Proofs.Blocks
import SecureElement.Session.Exchange

/-!
# The budget of tries

Whatever goes wrong with a block is charged, and the charge is what ends a loop of
tries. Two facts about it are used by every exchange:

* a charge says nothing to the peer and moves nothing (`charge_spec`);
* the count of tries never passes the budget, so a charge can only crash where the
  budget is as large as the count can be. `Orderly` is this, together with what an
  exchange may report: a fault that was major from the start, or that became so.
-/

namespace SecureElement

open Link Session

/-- The tries of the current block are within the budget. -/
def Session.WithinBudget {L : Type} (s : Session L) : Prop :=
  s.retries ≤ s.settings.blockRetransmits

/-- The stops of a step that charges tries: what it reports is a major fault of the exchange, and it
crashes only with a budget that no count can pass. -/
def Stop.IsOrderly {L : Type} (stop : Stop Setback) (s' : Session L) : Prop :=
  match stop with
  | .because setback => ∃ failure, setback = .major failure ∧ failure ≠ .recoveryExhausted
  | .crashed => counterMax ≤ s'.settings.blockRetransmits
  | .stalled => True

/-- How an exchange stops: in order, or on the spot before it has collected anything. -/
def Stop.EndsExchange {L : Type} (stop : Stop Setback) (s' : Session L) : Prop :=
  stop.IsOrderly s' ∨ (stop = .crashed ∧ s'.response.used = [])

theorem Stop.EndsExchange.major {L : Type} {setback : Setback} {s' : Session L}
    (h : (Stop.because setback).EndsExchange s') :
    ∃ failure, setback = .major failure ∧ failure ≠ .recoveryExhausted :=
  h.elim id fun hcrashed => absurd hcrashed.1 nofun

/-- An exchange that has collected something is cut off only where the count of tries is full. -/
theorem Stop.EndsExchange.crashed {L : Type} {s' : Session L}
    (h : (Stop.crashed : Stop Setback).EndsExchange s') :
    counterMax ≤ s'.settings.blockRetransmits ∨ s'.response.used = [] :=
  h.imp id And.right

/-- How a step that charges tries may end: within the budget, or in order. -/
def Orderly {L α : Type} (r : Except (Stop Setback) α) (s' : Session L) : Prop :=
  match r with
  | .ok _ => s'.WithinBudget
  | .error stop => stop.IsOrderly s'

/-- A step that charges nothing stays within the budget. -/
theorem Session.WithinBudget.kept {L : Type} {s s' : Session (Traced L)} {items : List Passage}
    (hbudget : s.WithinBudget) (hretries : s'.retries = s.retries) (htalks : Talks s items s') :
    s'.WithinBudget := by
  unfold WithinBudget
  rw [hretries, htalks.settings]
  exact hbudget

namespace Step

open SecureElement.Action

variable {L : Type} {s : Session (Traced L)}

/-- A charge moves nothing but the count of tries. Once the budget is used up the fault counts as
major. -/
theorem charge_spec {setback : Setback} (hfailure : setback.failure ≠ .recoveryExhausted)
    (hbudget : s.WithinBudget) :
    Ensures (charge setback) s fun r s' =>
      (Talks s [] s' ∧ s'.frame = s.frame) ∧ Orderly r s' := by
  unfold charge
  cases setback with
  | major failure => exact ⟨⟨Talks.refl s, rfl⟩, failure, rfl, hfailure⟩
  | minor failure =>
      dsimp only
      rw [ensures_get_bind]
      split
      · rename_i hfull
        rw [ensures_crash_bind]
        unfold WithinBudget at hbudget
        rw [hfull] at hbudget
        exact ⟨⟨Talks.refl s, rfl⟩, hbudget⟩
      · rw [ensures_set_bind]
        split
        · rw [ensures_fail_bind]
          exact ⟨⟨{ Talks.refl s with passes := hears_same rfl }, rfl⟩, failure, rfl, hfailure⟩
        · rename_i hleft
          exact ⟨⟨{ Talks.refl s with passes := hears_same rfl }, rfl⟩, Nat.le_of_not_lt hleft⟩

/-- What one frame handed over in a step that is tried once comes to. -/
theorem orCharge_spec {step : Step (Traced L) Unit} {frame : Bytes} (hbudget : s.WithinBudget)
    (h : Ensures step s (HandedOver frame s)) :
    Ensures (orCharge step) s fun r s' =>
      (∃ outcome, Talks s [.sent frame outcome] s' ∧ s'.frame = s.frame) ∧ Orderly r s' := by
  unfold orCharge
  refine ensures_attempt_bind h ?_ ?_ ?_ ?_
  · intro u s' hend
    obtain ⟨⟨hretries, hframe⟩, outcome, htalks, -⟩ := hend
    exact ⟨⟨outcome, htalks, hframe⟩, hbudget.kept hretries htalks⟩
  · intro setback s' hend
    obtain ⟨⟨hretries, hframe⟩, outcome, htalks, hordinary⟩ := hend
    refine (charge_spec hordinary (hbudget.kept hretries htalks)).mono ?_
    intro r s'' hend
    obtain ⟨⟨hcharged, hframe'⟩, horderly⟩ := hend
    exact ⟨⟨outcome, htalks.trans hcharged, hframe'.trans hframe⟩, horderly⟩
  · intro s' hend
    obtain ⟨-, outcome, -, hordinary⟩ := hend
    exact hordinary.elim
  · intro s' hend
    obtain ⟨⟨hretries, hframe⟩, outcome, htalks, -⟩ := hend
    exact ⟨⟨outcome, htalks, hframe⟩, trivial⟩

variable [Link L]

/-- A refusal is handed over once, and a fault of the link on the way is charged. -/
theorem refuse_spec (receipt : Receipt) (hbudget : s.WithinBudget) :
    Ensures (refuse receipt) s fun r s' =>
      (∃ outcome, Talks s [.sent (s.codec.layout (s.codec.ready s.recvSeq receipt)) outcome] s' ∧
        s'.frame = s.frame) ∧ Orderly r s' := by
  unfold refuse
  rw [ensures_get_bind]
  exact orCharge_spec hbudget
    (sendControl_spec (Nat.zero_le 2) fun _ _ h => Control.noConfusion h)

end Step

end SecureElement
