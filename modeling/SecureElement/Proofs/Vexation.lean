import SecureElement.Proofs.Reply
import SecureElement.Proofs.Script

/-!
# Whatever comes in place of the block awaited

While a block is awaited anything may come that is not the block: a fault of the link, a
block that cannot be read, or one that has no place. An arrival `Vexes` if it is one of
these. It costs one try and changes nothing else, whether a command is sent or a response
is collected:

* `askRound_charges` and `receiveRound_charges` are one round of either loop;
* `loop_vexed` is the induction over a row of vexations. As long as there are tries for
  all of them, the loop stands where it stood, with the rounds and the tries that are left;
* `loop_spent` is the other side of it. One vexation beyond the tries ends the loop, and
  the exchange fails with what is said of the last one (`blame`).
-/

namespace SecureElement

open Link

/-- What a session goes by when something arrives: how blocks are read, how long they may be, and
how many tries there are for each of them. -/
structure Terms where
  codec : Codec
  capacity : Nat
  budget : Nat
  deriving Repr, DecidableEq

def Session.terms {L : Type} (s : Session L) : Terms where
  codec := s.codec
  capacity := s.frame.capacity
  budget := s.settings.blockRetransmits

/-- An arrival that costs a try and nothing else, where blocks of certain types are awaited. -/
structure Link.Arrival.Vexes (terms : Terms) (awaited : Control → Prop) (arrival : Arrival) : Prop
    where
  fits : arrival.Fits terms.codec.epilogue terms.capacity
  unserved : ¬ arrival.IsServed terms.codec
  /-- A link that is closed is given up at once. -/
  passing : arrival ≠ .fault .closed
  unawaited : ∀ control, arrival.heard terms.codec = .ok control → ¬ awaited control

namespace Link.Arrival

variable {terms : Terms} {awaited : Control → Prop} {raw : Bytes}

/-! The three kinds of vexation. -/

theorem vexes_fault {reason : Fault} (h : reason ≠ .closed) :
    (fault reason).Vexes terms awaited where
  fits := trivial
  unserved := id
  passing := fun hclosed => h (fault.inj hclosed)
  unawaited := nofun

theorem vexes_unreadable {reason : Block.Fault}
    (hfits : (block raw).Fits terms.codec.epilogue terms.capacity)
    (hdecode : terms.codec.decode raw = .error reason) : (block raw).Vexes terms awaited where
  fits := hfits
  unserved := by
    rintro ⟨received, hreceived, -⟩
    exact absurd (hdecode.symm.trans hreceived) nofun
  passing := nofun
  unawaited := by
    intro control hheard
    rw [heard_of_fault hdecode] at hheard
    exact absurd hheard nofun

theorem vexes_misplaced {received : Block}
    (hfits : (block raw).Fits terms.codec.epilogue terms.capacity)
    (hdecode : terms.codec.decode raw = .ok received) (hwtx : received.control ≠ .request .wtx)
    (hifs : received.control ≠ .request .ifs) (hother : ¬ awaited received.control) :
    (block raw).Vexes terms awaited where
  fits := hfits
  unserved := unserved hdecode hwtx hifs
  passing := nofun
  unawaited := by
    intro control hheard
    rw [heard_of_decode hdecode] at hheard
    rw [← Except.ok.inj hheard]
    exact hother

end Link.Arrival

/-- One block comes, behind vexations that the budget allows. -/
structure Link.Comes (terms : Terms) (awaited : Control → Prop) (vexations : List Arrival)
    (raw : Bytes) (block : Block) : Prop where
  vexes : ∀ vexation ∈ vexations, vexation.Vexes terms awaited
  within : vexations.length ≤ terms.budget
  fits : (Arrival.block raw).Fits terms.codec.epilogue terms.capacity
  decode : terms.codec.decode raw = .ok block

/-- One vexation comes that is more than the budget allows. -/
structure Link.Exceeds (terms : Terms) (awaited : Control → Prop) (vexations : List Arrival)
    (last : Arrival) : Prop where
  vexes : ∀ vexation ∈ vexations, vexation.Vexes terms awaited
  spent : vexations.length = terms.budget
  last : last.Vexes terms awaited

/-- What a session awaits while it collects a response. -/
def Awaits (seq : Seq) (control : Control) : Prop := ∃ more, control = .information seq more

/-- A fault of the link other than its end may pass. -/
theorem Setback.ofLink_minor {fault : Fault} (h : fault ≠ .closed) :
    Setback.ofLink fault = .minor (.ofLink fault) := by
  cases fault with
  | closed => exact absurd rfl h
  | timeout | notAcknowledged | shortWrite written expected | bus message => rfl

namespace Session

variable {L : Type} {s : Session L} {arrival : Arrival} {awaited : Control → Prop}

/-- What is reported about an arrival that has no place. -/
def blame (s : Session L) (arrival : Arrival) : Failure :=
  (s.objection (arrival.heard s.codec)).failure

/-- There is an objection to every vexation, and none of them is the end of an exchange. -/
theorem objection_vexes (h : arrival.Vexes s.terms awaited) :
    s.objection (arrival.heard s.codec) = .minor (s.blame arrival) := by
  have hminor : ∃ failure, s.objection (arrival.heard s.codec) = .minor failure := by
    cases arrival with
    | fault reason =>
        exact ⟨_, Setback.ofLink_minor fun hclosed => h.passing (by rw [hclosed])⟩
    | block raw =>
        cases hdecode : s.codec.decode raw with
        | ok block =>
            rw [Arrival.heard_of_decode hdecode]
            exact ⟨_, rfl⟩
        | error fault =>
            rw [Arrival.heard_of_fault hdecode]
            exact ⟨_, rfl⟩
  obtain ⟨failure, hfailure⟩ := hminor
  unfold blame
  rw [hfailure]
  rfl

/-- While no command is pending, what is said of a block goes by its type alone. -/
theorem objection_ok {control : Control} (hpending : s.commandPending = false) :
    s.objection (.ok control) = .minor control.complaint := by
  have hasks : s.asksAgain control = false := by
    refine Bool.eq_false_iff.mpr fun h => ?_
    have hout := (asksAgain_iff.mp h).1
    rw [hpending] at hout
    exact absurd hout Bool.false_ne_true
  simp only [objection, hasks, Bool.false_eq_true, if_false]

/-- So it is the same in all of them. -/
theorem blame_settled {s' : Session L} (hcodec : s'.codec = s.codec)
    (hpending : s.commandPending = false) (hpending' : s'.commandPending = false) :
    s'.blame arrival = s.blame arrival := by
  unfold blame
  rw [hcodec]
  cases arrival.heard s.codec with
  | error setback => rfl
  | ok control => rw [objection_ok hpending, objection_ok hpending']

end Session

namespace Step

open SecureElement.Action Session

variable {L : Type} {s s' s₁ : Session L} {arrival : Arrival} {arrivals : List Arrival}
  {awaited : Control → Prop} {Holds : L → List Arrival → Prop} {n : Nat}

/-! ## Caught in a round -/

/-- A wait that took an arrival ends in a block or in a setback. -/
theorem Heard.because {stop : Stop Setback} (h : Heard s arrival (.error stop) s') :
    ∃ setback, stop = .because setback := by
  obtain ⟨-, hr⟩ := h
  cases arrival with
  | fault reason => exact ⟨_, Except.error.inj hr⟩
  | block raw =>
      dsimp only at hr
      split at hr
      · obtain ⟨inbound, hinbound, -⟩ := hr
        exact absurd hinbound nofun
      · exact ⟨_, Except.error.inj hr⟩

/-- A step that neither crashes nor stalls is caught, whatever it ends in. -/
theorem attempt_received {β : Type} {step : Step L β}
    {Q : Except (Stop Setback) β → Session L → Prop} (h : Ensures step s Q)
    (hbecause : ∀ stop s', Q (.error stop) s' → ∃ setback, stop = .because setback) :
    Ensures (attempt step) s fun r s' => ∃ received : Except Setback β,
      r = .ok received ∧ Q (received.mapError .because) s' := by
  refine ensures_attempt h ?_ ?_ ?_ ?_
  · intro value s' hend
    exact ⟨.ok value, rfl, hend⟩
  · intro setback s' hend
    exact ⟨.error setback, rfl, hend⟩
  · intro s' hend
    obtain ⟨setback, hsetback⟩ := hbecause _ _ hend
    exact absurd hsetback nofun
  · intro s' hend
    obtain ⟨setback, hsetback⟩ := hbecause _ _ hend
    exact absurd hsetback nofun

/-- A round catches what a wait has come to. -/
theorem attempt_heard {wait : Step L Inbound}
    (h : Ensures wait s fun r s' => Heard s arrival r s' ∧ Holds s'.link arrivals) :
    Ensures (attempt wait) s fun r s' => ∃ received : Except Setback Inbound, r = .ok received
      ∧ Heard s arrival (received.mapError .because) s' ∧ Holds s'.link arrivals :=
  attempt_received h fun _ _ hend => hend.1.because

theorem Heard.control {received : Except Setback Inbound}
    (h : Heard s arrival (received.mapError .because) s') :
    received.map Inbound.control = arrival.heard s.codec := by
  obtain ⟨-, hr⟩ := h
  cases arrival with
  | fault reason =>
      cases received with
      | ok inbound => exact absurd hr nofun
      | error setback =>
          have hsetback := Stop.because.inj (Except.error.inj hr)
          exact congrArg Except.error hsetback
  | block raw =>
      cases hdecode : s.codec.decode raw with
      | error reason =>
          simp only [hdecode] at hr
          rw [Arrival.heard_of_fault hdecode]
          cases received with
          | ok inbound => exact absurd hr nofun
          | error setback =>
              have hsetback := Stop.because.inj (Except.error.inj hr)
              exact congrArg Except.error hsetback
      | ok block =>
          simp only [hdecode] at hr
          obtain ⟨inbound, hinbound, harrived⟩ := hr
          rw [Arrival.heard_of_decode hdecode]
          cases received with
          | error setback => exact absurd hinbound nofun
          | ok inbound' =>
              obtain rfl := Except.ok.inj hinbound
              exact congrArg Except.ok harrived.control

/-! ## One vexation -/

/-- What a round makes of a vexation. It is charged: another round follows while there are tries,
and beyond them it is what the exchange fails with. -/
def Vexed {α : Type} (Holds : L → List Arrival → Prop) (arrivals : List Arrival)
    (failure : Failure) (again : α) (s : Session L) (r : Except (Stop Setback) α)
    (s' : Session L) : Prop :=
  if s.retries < s.settings.blockRetransmits then
    r = .ok again ∧ Advances s 1 s' ∧ s'.retries = s.retries + 1 ∧ Holds s'.link arrivals
  else r = .error (.because (.major failure))

/-- What comes before the charge and costs nothing. -/
theorem Vexed.before {α : Type} {failure : Failure} {r : Except (Stop Setback) α} {again : α}
    (h : Vexed Holds arrivals failure again s₁ r s') (hadvances : Advances s 0 s₁)
    (hretries : s₁.retries = s.retries) : Vexed Holds arrivals failure again s r s' := by
  have hsettings : s₁.settings = s.settings := by
    obtain ⟨link, frame, retries, statistics, rfl, -⟩ := hadvances
    rfl
  unfold Vexed at h ⊢
  rw [hretries, hsettings] at h
  split
  · rename_i hleft
    rw [if_pos hleft] at h
    obtain ⟨hr, hadvances', hretries', hholds⟩ := h
    have hall := hadvances.trans hadvances'
    rw [Nat.zero_add] at hall
    exact ⟨hr, hall, hretries', hholds⟩
  · rename_i hspent
    rw [if_neg hspent] at h
    exact h

theorem charge_vexed (failure : Failure) (hcount : s.settings.blockRetransmits < counterMax)
    (hbudget : s.retries ≤ s.settings.blockRetransmits) (hholds : Holds s.link arrivals) :
    Ensures (charge (.minor failure)) s (Vexed Holds arrivals failure () s) := by
  have hnot : s.retries ≠ counterMax := by omega
  unfold Ensures Vexed
  by_cases hleft : s.retries < s.settings.blockRetransmits
  · rw [charge_passes failure hnot hleft]
    dsimp only
    rw [if_pos hleft]
    exact ⟨rfl, ⟨s.link, s.frame, _, _, rfl, rfl, rfl, rfl⟩, rfl, hholds⟩
  · rw [charge_fails failure hnot (by omega)]
    dsimp only
    rw [if_neg hleft]

/-- A vexation is charged, and what is done about it costs nothing. -/
theorem charge_bind_vexed {α : Type} {failure : Failure} {again : α} {reply : Step L Unit}
    (hcount : s.settings.blockRetransmits < counterMax)
    (hbudget : s.retries ≤ s.settings.blockRetransmits) (hholds : Holds s.link arrivals)
    (hreply : ∀ s₁, Advances s 1 s₁ → Holds s₁.link arrivals → Ensures reply s₁ fun r s' =>
      r = .ok () ∧ Advances s₁ 0 s' ∧ s'.retries = s₁.retries ∧ Holds s'.link arrivals) :
    Ensures (do charge (.minor failure); reply; return again) s
      (Vexed Holds arrivals failure again s) := by
  refine (charge_vexed failure hcount hbudget hholds).bind ?_ ?_
  · intro u s₁ hend
    unfold Vexed at hend ⊢
    split at hend
    · rename_i hleft
      obtain ⟨-, hadvances, hretries, hrest⟩ := hend
      simp only [if_pos hleft]
      refine (hreply s₁ hadvances hrest).bind_ok fun s₂ hend => ?_
      obtain ⟨hadvances', hretries', hrest'⟩ := hend
      exact ⟨rfl, hadvances.trans hadvances', hretries'.trans hretries, hrest'⟩
    · exact absurd hend nofun
  · intro stop s₁ hend
    unfold Vexed at hend ⊢
    split at hend
    · exact absurd hend.1 nofun
    · rename_i hspent
      rw [if_neg hspent, Except.error.inj hend]

/-- A wait for a vexation is charged once it is over. -/
theorem charge_heard {β : Type} {again : β} {reply : Step L Unit} (h : Advances s n s₁)
    (hcount : s.settings.blockRetransmits < counterMax)
    (hbudget : s₁.retries ≤ s.settings.blockRetransmits) {s₂ : Session L}
    (hadvances : Advances s₁ 0 s₂) (hretries : s₂.retries = s₁.retries)
    (hholds : Holds s₂.link arrivals)
    (hreply : ∀ s₃, Advances s (n + 1) s₃ → Holds s₃.link arrivals → Ensures reply s₃ fun r s' =>
      r = .ok () ∧ Advances s₃ 0 s' ∧ s'.retries = s₃.retries ∧ Holds s'.link arrivals)
    {failure : Failure} :
    Ensures (do charge (.minor failure); reply; return again) s₂
      (Vexed Holds arrivals failure again s₁) := by
  have hsettings : s₂.settings = s.settings := (h.trans hadvances).settings
  refine (charge_bind_vexed ?_ ?_ hholds fun s₃ hadvances' hholds' => ?_).mono ?_
  · rw [hsettings]
    exact hcount
  · rw [hsettings, hretries]
    exact hbudget
  · exact hreply s₃ ((h.trans hadvances).trans hadvances') hholds'
  · intro r s₃ hvexed
    exact hvexed.before hadvances hretries

/-! ## A row of vexations -/

/-- A round that charges every vexation that comes before a certain block. -/
def Charges {α : Type} (Holds : L → List Arrival → Prop) (awaited : Control → Prop)
    (s : Session L) (round : Unit → Step L (Unit ⊕ α)) : Prop :=
  ∀ {n s₁ arrival arrivals}, Advances s n s₁ →
    arrival.Vexes s.terms awaited → Holds s₁.link (arrival :: arrivals) →
    s₁.retries ≤ s.settings.blockRetransmits →
    Ensures (round ()) s₁ (Vexed Holds arrivals (s.blame arrival) (.inl ()) s₁)

variable {α : Type} {round : Unit → Step L (Unit ⊕ α)}
  {Q : Except (Stop Setback) α → Session L → Prop}

/-- **A row of vexations leaves a loop where it was**, as long as there are tries for all of
them. -/
theorem loop_vexed (hround : Charges Holds awaited s round) :
    ∀ (vexations : List Arrival) (rounds n : Nat) (s₁ : Session L), Advances s n s₁ →
      (∀ vexation ∈ vexations, vexation.Vexes s.terms awaited) →
      Holds s₁.link (vexations ++ arrivals) →
      s₁.retries + vexations.length ≤ s.settings.blockRetransmits →
      (rounds < vexations.length → ∀ s₂, Q (.error .stalled) s₂) →
      (∀ s₂, Advances s (n + vexations.length) s₂ →
        s₂.retries = s₁.retries + vexations.length → Holds s₂.link arrivals →
        Ensures (loop round (rounds - vexations.length) ()) s₂ Q) →
      Ensures (loop round rounds ()) s₁ Q
  | [], rounds, n, s₁, hadvances, _, hholds, _, _, hrest => hrest s₁ hadvances rfl hholds
  | vexation :: vexations, 0, n, s₁, _, _, _, _, hstalled, _ => hstalled (Nat.succ_pos _) s₁
  | vexation :: vexations, rounds + 1, n, s₁, hadvances, hvexes, hholds, hbudget, hstalled,
      hrest => by
      obtain ⟨hvexation, hvexations⟩ := List.forall_mem_cons.mp hvexes
      have hlength : (vexation :: vexations).length = vexations.length + 1 := List.length_cons
      rw [hlength] at hbudget hstalled hrest
      have hleft : s₁.retries < s₁.settings.blockRetransmits := by
        rw [hadvances.settings]
        omega
      refine (hround hadvances hvexation hholds (by omega)).bind ?_ ?_
      · intro r s₂ hend
        unfold Vexed at hend
        rw [if_pos hleft] at hend
        obtain ⟨hr, hadvances', hretries, hholds'⟩ := hend
        obtain rfl := Except.ok.inj hr
        -- one try and one round less are left for the vexations that follow
        refine loop_vexed hround vexations rounds (n + 1) s₂ (hadvances.trans hadvances')
          hvexations hholds' (by omega) (fun hless => hstalled (by omega)) ?_
        intro s₃ hadvances'' hretries' hholds''
        have hcount : n + 1 + vexations.length = n + (vexations.length + 1) := by omega
        have hrounds : rounds + 1 - (vexations.length + 1) = rounds - vexations.length := by omega
        rw [hcount] at hadvances''
        have hall := hrest s₃ hadvances'' (by omega) hholds''
        rw [hrounds] at hall
        exact hall
      · intro stop s₂ hend
        unfold Vexed at hend
        rw [if_pos hleft] at hend
        exact absurd hend.1 nofun

/-- **One vexation too many ends a loop**, and it is what the exchange fails with. -/
theorem loop_spent (hround : Charges Holds awaited s round) {vexations : List Arrival}
    {last : Arrival} {rounds : Nat} (hexceeds : Exceeds s.terms awaited vexations last)
    (hfresh : s.retries = 0) (hholds : Holds s.link (vexations ++ last :: arrivals)) :
    Ensures (loop round rounds ()) s fun r _ =>
      r = .error (.because (.major (s.blame last))) ∨ r = .error .stalled ∧
        rounds ≤ s.settings.blockRetransmits := by
  have hspent : vexations.length = s.settings.blockRetransmits := hexceeds.spent
  refine loop_vexed hround vexations rounds 0 s (Advances.refl s) hexceeds.vexes hholds
    (by omega) (fun hless _ => .inr ⟨rfl, by omega⟩) ?_
  intro s₁ hadvances hretries hholds'
  cases hleft : rounds - vexations.length with
  | zero => exact .inr ⟨rfl, by omega⟩
  | succ rounds' =>
      have hfull : ¬ s₁.retries < s₁.settings.blockRetransmits := by
        rw [hadvances.settings]
        omega
      refine (hround hadvances hexceeds.last hholds' (by omega)).bind ?_ ?_
      · intro r s₂ hend
        unfold Vexed at hend
        rw [if_neg hfull] at hend
        exact absurd hend nofun
      · intro stop s₂ hend
        unfold Vexed at hend
        rw [if_neg hfull] at hend
        exact .inl (congrArg _ (Except.error.inj hend))

variable [Link L]

/-! ## Asking -/

theorem sendCommand_taken (h : Attends Holds s) (hholds : Holds s.link arrivals) :
    Ensures sendCommand s fun r s' =>
      r = .ok () ∧ Advances s 0 s' ∧ s'.retries = s.retries ∧ Holds s'.link arrivals := by
  unfold sendCommand
  rw [ensures_get_bind]
  exact transmit_taken _ h hholds

/-- The staged block is handed over, and one arrival comes behind it. -/
theorem askCommand_heard (h : Attends Holds s) (hholds : Holds s.link (arrival :: arrivals))
    (hfits : arrival.Fits s.codec.epilogue s.frame.capacity)
    (hserved : ¬ arrival.IsServed s.codec) :
    Ensures (do sendCommand; awaitBlock) s fun r s' =>
      Heard s arrival r s' ∧ Holds s'.link arrivals := by
  refine (sendCommand_taken h hholds).bind_ok fun s₁ hend => ?_
  obtain ⟨hadvances, hretries, hholds₁⟩ := hend
  refine (awaitBlock_heard (h.advances hadvances) hholds₁ (hadvances.fits hfits)
    (by rw [hadvances.codec]; exact hserved)).mono ?_
  intro r s₂ hend
  obtain ⟨⟨⟨hadvances', hretries'⟩, hr⟩, hrest⟩ := hend
  rw [hadvances.codec] at hr
  exact ⟨⟨⟨hadvances.trans hadvances', hretries'.trans hretries⟩, hr⟩, hrest⟩

/-- A vexation is charged, and the block is sent again in the next round. -/
theorem askRound_charges {answer : Control} (h : Attends Holds s)
    (hcount : s.settings.blockRetransmits < counterMax) (hpending : s.commandPending = false) :
    Charges Holds (· = answer) s (askRound (do sendCommand; awaitBlock) answer) := by
  intro n s₁ arrival arrivals hadvances hvexes hholds hbudget
  have hheard := attempt_heard (askCommand_heard (h.advances hadvances) hholds
    (hadvances.fits hvexes.fits) (by rw [hadvances.codec]; exact hvexes.unserved))
  unfold askRound
  refine hheard.bind ?_ ?_
  · intro received s₂ hend
    obtain ⟨received', hr, hheard', hrest⟩ := hend
    obtain rfl := Except.ok.inj hr
    obtain ⟨hadvances', hretries'⟩ := hheard'.1
    have hnothing : ∀ s₃, Advances s (n + 1) s₃ → Holds s₃.link arrivals →
        Ensures (pure () : Step L Unit) s₃ fun r s' =>
          r = .ok () ∧ Advances s₃ 0 s' ∧ s'.retries = s₃.retries ∧ Holds s'.link arrivals :=
      fun s₃ _ hholds₃ => ⟨rfl, Advances.refl s₃, rfl, hholds₃⟩
    have hcharged : Ensures (do charge (.minor (s.blame arrival)); pure (); return .inl () :
        Step L (Unit ⊕ Inbound)) s₂ (Vexed Holds arrivals (s.blame arrival) (.inl ()) s₁) :=
      charge_heard hadvances hcount hbudget hadvances' hretries' hrest hnothing
    have hcontrol := hheard'.control
    rw [hadvances.codec] at hcontrol
    have hobjection := objection_vexes hvexes
    rw [← hcontrol] at hobjection
    cases received with
    | error setback =>
        have hsetback : setback = .minor (s.blame arrival) := hobjection
        rw [hsetback]
        exact hcharged
    | ok inbound =>
        have hother : inbound.control ≠ answer := hvexes.unawaited _ hcontrol.symm
        have hblame : Setback.minor inbound.rejection = .minor (s.blame arrival) :=
          (objection_ok hpending).symm.trans hobjection
        dsimp only
        rw [if_neg hother, hblame]
        exact hcharged
  · intro stop s₂ hend
    obtain ⟨received, hr, -⟩ := hend
    exact absurd hr nofun

/-- The block that is owed ends a round of asking. -/
theorem askRound_answered {raw : Bytes} {block : Block} {answer : Control} (h : Attends Holds s)
    (hholds : Holds s.link (.block raw :: arrivals))
    (hfits : (Arrival.block raw).Fits s.codec.epilogue s.frame.capacity)
    (hserved : ¬ (Arrival.block raw).IsServed s.codec) (hdecode : s.codec.decode raw = .ok block)
    (hcontrol : block.control = answer) :
    Ensures (askRound (do sendCommand; awaitBlock) answer ()) s fun r s' =>
      (∃ inbound, r = .ok (.inr inbound)) ∧ Advances s 0 s' ∧ Holds s'.link arrivals := by
  unfold askRound
  refine (attempt_heard (askCommand_heard h hholds hfits hserved)).bind ?_ ?_
  · intro received s₁ hend
    obtain ⟨received', hr, hheard, hrest⟩ := hend
    obtain rfl := Except.ok.inj hr
    have hshown := hheard.control
    rw [Arrival.heard_of_decode hdecode, hcontrol] at hshown
    cases received with
    | error setback => exact absurd hshown nofun
    | ok inbound =>
        dsimp only
        rw [if_pos (Except.ok.inj hshown)]
        exact ⟨⟨inbound, rfl⟩, hheard.1.1, hrest⟩
  · intro stop s₁ hend
    obtain ⟨received, hr, -⟩ := hend
    exact absurd hr nofun

/-- Asking goes on behind vexations for which there are tries, until the answer comes. -/
theorem askUntil_answered {vexations : List Arrival} {raw : Bytes} {block : Block}
    {answer : Control} (h : Attends Holds s) (hcount : s.settings.blockRetransmits < counterMax)
    (hpending : s.commandPending = false) (hfresh : s.retries = 0)
    (hcomes : Comes s.terms (· = answer) vexations raw block)
    (hserved : ¬ (Arrival.block raw).IsServed s.codec) (hcontrol : block.control = answer)
    (hholds : Holds s.link (vexations ++ .block raw :: arrivals)) :
    Ensures (askUntil (do sendCommand; awaitBlock) answer) s fun r s' =>
      (∃ inbound, r = .ok inbound) ∧ Advances s vexations.length s' ∧ Holds s'.link arrivals := by
  have hwithin : vexations.length ≤ s.settings.blockRetransmits := hcomes.within
  unfold askUntil
  rw [ensures_get_bind]
  refine loop_vexed (askRound_charges h hcount hpending) vexations _ 0 s (Advances.refl s)
    hcomes.vexes hholds (by omega) (fun hless => by omega) ?_
  intro s₁ hadvances _ hholds₁
  rw [Nat.zero_add] at hadvances
  -- a round is left for the answer
  obtain ⟨rounds, hrounds⟩ : ∃ rounds,
      s.settings.blockRetransmits + 1 - vexations.length = rounds + 1 :=
    ⟨s.settings.blockRetransmits - vexations.length, by omega⟩
  rw [hrounds]
  refine (askRound_answered (h.advances hadvances) hholds₁ (hadvances.fits hcomes.fits)
    (by rw [hadvances.codec]; exact hserved) (by rw [hadvances.codec]; exact hcomes.decode)
    hcontrol).bind ?_ ?_
  · intro r s₂ hend
    obtain ⟨⟨inbound, hr⟩, hadvances', hrest⟩ := hend
    obtain rfl := Except.ok.inj hr
    exact ⟨⟨inbound, rfl⟩, hadvances.trans hadvances', hrest⟩
  · intro stop s₂ hend
    obtain ⟨⟨inbound, hr⟩, -⟩ := hend
    exact absurd hr nofun

/-- One vexation too many ends it. -/
theorem askUntil_spent {vexations : List Arrival} {last : Arrival} {answer : Control}
    (h : Attends Holds s) (hcount : s.settings.blockRetransmits < counterMax)
    (hpending : s.commandPending = false) (hfresh : s.retries = 0)
    (hexceeds : Exceeds s.terms (· = answer) vexations last)
    (hholds : Holds s.link (vexations ++ last :: arrivals)) :
    Ensures (askUntil (do sendCommand; awaitBlock) answer) s fun r _ =>
      r = .error (.because (.major (s.blame last))) := by
  unfold askUntil
  rw [ensures_get_bind]
  refine (loop_spent (askRound_charges h hcount hpending) hexceeds hfresh hholds).mono ?_
  intro r s₁ hend
  rcases hend with hr | ⟨-, hrounds⟩
  · exact hr
  · omega

/-! ## Collecting -/

/-- A frame that is handed over in reply is taken. -/
theorem orCharge_taken (frame : Bytes) (h : Attends Holds s) (hholds : Holds s.link arrivals) :
    Ensures (orCharge (transmit frame)) s fun r s' =>
      r = .ok () ∧ Advances s 0 s' ∧ s'.retries = s.retries ∧ Holds s'.link arrivals := by
  unfold orCharge
  exact (ensures_attempt_ok (transmit_taken frame h hholds)).bind_ok fun s₁ hend => ⟨rfl, hend⟩

/-- While nothing is parked the next block is the next arrival. -/
theorem nextBlock_heard (h : Attends Holds s) (hparked : s.parked = none)
    (hholds : Holds s.link (arrival :: arrivals))
    (hfits : arrival.Fits s.codec.epilogue s.frame.capacity)
    (hserved : ¬ arrival.IsServed s.codec) :
    Ensures nextBlock s fun r s' => ∃ received : Except Setback Inbound, r = .ok received
      ∧ Heard s arrival (received.mapError .because) s' ∧ Holds s'.link arrivals := by
  have hsame : { s with parked := none } = s := by rw [← hparked]
  unfold nextBlock
  rw [ensures_get_bind, ensures_set_bind, hparked, hsame]
  exact attempt_heard (awaitBlock_heard h hholds hfits hserved)

/-- A vexation is charged, and the block awaited is asked for again. -/
theorem receiveRound_charges (h : Attends Holds s)
    (hcount : s.settings.blockRetransmits < counterMax) (hparked : s.parked = none) :
    Charges Holds (Awaits s.recvSeq) s receiveRound := by
  intro n s₁ arrival arrivals hadvances hvexes hholds hbudget
  have hattends := h.advances hadvances
  unfold receiveRound
  refine (nextBlock_heard hattends ?_ hholds (hadvances.fits hvexes.fits)
    (by rw [hadvances.codec]; exact hvexes.unserved)).bind ?_ ?_
  · obtain ⟨link, frame, retries, statistics, rfl, -⟩ := hadvances
    exact hparked
  · intro received s₂ hend
    obtain ⟨received', hr, hheard, hrest⟩ := hend
    obtain rfl := Except.ok.inj hr
    obtain ⟨hadvances', hretries'⟩ := hheard.1
    have hcontrol := hheard.control
    rw [hadvances.codec] at hcontrol
    have hall := hadvances.trans hadvances'
    -- what is said of it is the same in every round: the exchange has not moved
    have hobjection : s₂.objection (received.map Inbound.control) = .minor (s.blame arrival) := by
      rw [hcontrol, ← objection_vexes hvexes]
      obtain ⟨link, frame, retries, statistics, rfl, -⟩ := hall
      rfl
    have hnot : ∀ inbound, received = .ok inbound →
        ∀ more, inbound.control ≠ .information s₂.recvSeq more := by
      rintro inbound rfl more hmore
      refine hvexes.unawaited _ hcontrol.symm ⟨more, ?_⟩
      obtain ⟨link, frame, retries, statistics, rfl, -⟩ := hall
      exact hmore
    refine (ensures_congr (dealWith_eq hnot)).mpr ?_
    rw [hobjection]
    refine charge_heard hadvances hcount hbudget hadvances' hretries' hrest ?_
    intro s₃ hadvances'' hholds'
    exact orCharge_taken _ (h.advances hadvances'') hholds'
  · intro stop s₂ hend
    obtain ⟨received, hr, -⟩ := hend
    exact absurd hr nofun

end Step

end SecureElement
