import SecureElement.Proofs.Leisure
import SecureElement.Proofs.Reopening
import SecureElement.Proofs.Transparency

/-!
# Receiving ahead

`prefetch` receives one block ahead of the read that it is for, in a busy period of its
own. On a link in which time stands still that makes no difference: `prefetch_receive`
says that the read behind it comes to the same, on the same calls, as a read alone, and
that a wait which ends in recovery is the read that ends in recovery.

The two ways part in three places, and come together again in each.

* A read clears the response before it waits, and a wait ahead does not. What the response
  holds is nothing to a wait (`awaitBlock_response`), and recovery clears it anyhow.
* The read behind a wait has a deadline of its own, which does not know of the time that
  was granted meanwhile. Neither deadline comes up (`Leisurely`).
* It counts its rounds anew. But a loop that ends before its rounds are used up ends the
  same way with more of them (`loop_more`).
-/

namespace SecureElement

open Link SecureElement.Action Session

namespace Step

section Loops

variable {L σ α : Type} {round : σ → Step L (σ ⊕ α)}

theorem loop_succ (n : Nat) (state : σ) (s : Session L) :
    loop round (n + 1) state s = match round state s with
      | .ok (.inl state') s' => loop round n state' s'
      | .ok (.inr a) s' => .ok a s'
      | .error stop s' => .error stop s' := by
  rw [loop]
  cases hround : round state s with
  | error stop s' => rw [bind_of_error hround]
  | ok r s' =>
      rw [bind_of_ok hround]
      cases r <;> rfl

/-- Rounds that are not needed change nothing. -/
theorem loop_more (k : Nat) : ∀ {n : Nat} {state : σ} {s : Session L},
    (loop round n state).result s ≠ .error .stalled →
      loop round (n + k) state s = loop round n state s
  | 0, _, _, h => absurd rfl h
  | n + 1, state, s, h => by
      unfold result at h
      rw [loop_succ] at h
      rw [Nat.add_right_comm, loop_succ, loop_succ]
      cases hround : round state s with
      | error stop s' => rfl
      | ok r s' =>
          cases r with
          | inr a => rfl
          | inl state' =>
              rw [hround] at h
              exact loop_more k h

end Loops

variable {L : Type} [Link L] {P : L → Prop} {settings : Settings} {s t : Session (Traced L)}

/-- A wait charges no try and leaves the exchange where it is. -/
theorem awaitBlock_talks (hcapacity : Block.longPrologue ≤ s.frame.capacity) :
    Ensures awaitBlock s fun _ s' => s'.retries = s.retries ∧ ∃ items, Talks s items s' := by
  refine (awaitBlock_spec hcapacity).mono ?_
  intro r s' hend
  obtain ⟨hretries, hr⟩ := hend
  cases r with
  | ok inbound =>
      obtain ⟨asides, raw, block, htalks, -⟩ := hr
      exact ⟨hretries, _, htalks⟩
  | error stop =>
      obtain ⟨-, items, htalks, -⟩ := hr
      exact ⟨hretries, items, htalks⟩

/-- **What the response holds is nothing to a wait.** -/
theorem awaitBlock_response (hcapacity : Block.longPrologue ≤ s.frame.capacity)
    (htwins : Twins {} .shown s s) :
    Agree awaitBlock s awaitBlock { s with response := s.response.clear } fun _ s' t' =>
      t' = { s' with response := s.response.clear } := by
  obtain ⟨_, _, _, hreplaces, -⟩ := htwins
  have hcleared : Twins {} ⟨False, True, True⟩ s { s with response := s.response.clear } := by
    refine ⟨s.response.clear, s.command, s.frame, ?_, by rw [statistics_zero_add]⟩
    exact {
      pairedResponse := ⟨hreplaces.pairedResponse.tidy, hreplaces.pairedResponse.tidy.clear,
        Buffer.capacity_clear _⟩
      pairedCommand := hreplaces.pairedCommand.tidy.paired
      pairedFrame := hreplaces.pairedFrame.tidy.paired
      sameResponse := False.elim
      sameCommand := fun _ => rfl
      sameFrame := fun _ => rfl }
  have hroom : Block.longPrologue
      ≤ ({ s with response := s.response.clear } : Session (Traced L)).frame.capacity := hcapacity
  refine ((awaitBlock_fetches s _ hcleared).beside (awaitBlock_talks hroom)).mono ?_
  intro r s' t' hend
  obtain ⟨hlearns, -, items, htalks⟩ := hend
  obtain ⟨response, command, frame, hreplaces', rfl⟩ := hlearns.twins Twins.of_framed
  have hresponse : response = s.response.clear := htalks.response
  rw [hresponse, hreplaces'.sameCommand (Or.inl trivial), hreplaces'.sameFrame (Or.inl trivial),
    statistics_zero_add]

/-! ## The first wait -/

/-- What came of the first wait of an exchange: a block, or the fault in its place. -/
structure Awaits (s : Session (Traced L)) (received : Except Setback Inbound)
    (s' : Session (Traced L)) : Prop where
  eq : attempt awaitBlock s = .ok received s'
  retries : s'.retries = s.retries
  status : s'.status = s.status
  parked : s'.parked = s.parked
  response : s'.response = s.response
  capacity : s'.frame.capacity = s.frame.capacity

/-- Every wait ends in one of the two. -/
theorem exists_awaits [Truthful L] (hcapacity : Block.longPrologue ≤ s.frame.capacity) :
    ∃ received s', Awaits s received s' := by
  have hend : Ensures (attempt awaitBlock) s fun r s' => (∃ received, r = .ok received) ∧
      s'.retries = s.retries ∧ ∃ items, Talks s items s' := by
    have hspec := (awaitBlock_spec hcapacity).and (awaitBlock_talks hcapacity)
    refine ensures_attempt (hspec.and (awaitBlock_ends s)) ?_ ?_ ?_ ?_
    · exact fun inbound s' hend => ⟨⟨_, rfl⟩, hend.1.2⟩
    · exact fun setback s' hend => ⟨⟨_, rfl⟩, hend.1.2⟩
    · exact fun s' hend => hend.1.1.2.1.elim
    · exact fun s' hend => absurd rfl hend.2
  obtain ⟨received, hresult⟩ := (hend.mono fun _ _ hend => hend.1).result
  obtain ⟨hretries, items, htalks⟩ := (hend.mono fun _ _ hend => hend.2).final
  exact ⟨received, _, eq_ok_of_result hresult, hretries, htalks.status, htalks.parked,
    htalks.response, htalks.capacity⟩

/-- A session with its response cleared waits the same way. -/
theorem Awaits.cleared {received : Except Setback Inbound} {s' : Session (Traced L)}
    (h : Awaits s received s') (hcapacity : Block.longPrologue ≤ s.frame.capacity)
    (htwins : Twins {} .shown s s) :
    attempt awaitBlock { s with response := s.response.clear }
      = .ok received { s' with response := s.response.clear } := by
  have hattempt : Agree (attempt awaitBlock) s (attempt awaitBlock)
      { s with response := s.response.clear }
      fun _ s' t' => t' = { s' with response := s.response.clear } :=
    agree_attempt (awaitBlock_response hcapacity htwins) (fun _ _ _ h => h) (fun _ _ _ h => h)
      (fun _ _ h => h) fun _ _ h => h
  rcases hattempt.cases with ⟨r, s₁, t₁, hs, ht, rfl⟩ | ⟨stop, s₁, t₁, hs, -, -⟩
  · rw [h.eq] at hs
    obtain ⟨rfl, rfl⟩ := EStateM.Result.ok.inj hs
    exact ht
  · rw [h.eq] at hs
    exact absurd hs nofun

theorem nextBlock_eq_attempt (hparked : s.parked = none) : nextBlock s = attempt awaitBlock s := by
  have hsame : ({ s with parked := none } : Session (Traced L)) = s := by rw [← hparked]
  calc nextBlock s = nextBlock { s with parked := none } := by rw [hsame]
    _ = attempt awaitBlock { s with parked := none } := rfl
    _ = attempt awaitBlock s := by rw [hsame]

theorem nextBlock_eq_parked {received : Except Setback Inbound}
    (hparked : s.parked = some received) :
    nextBlock s = .ok received { s with parked := none } := by
  have hsame : ({ s with parked := some received } : Session (Traced L)) = s := by rw [← hparked]
  calc nextBlock s = nextBlock { s with parked := some received } := by rw [hsame]
    _ = .ok received { s with parked := none } := rfl

/-- What came of the first wait is dealt with first. -/
theorem receiveRound_eq {received : Except Setback Inbound} {s' : Session (Traced L)}
    (h : nextBlock s = .ok received s') : receiveRound () s = dealWith received s' :=
  bind_of_ok h

/-- A wait ahead parks what came of it, unless the exchange cannot go on. -/
theorem park_eq {received : Except Setback Inbound} {s' : Session (Traced L)}
    (h : Awaits s received s') :
    park s = match received with
      | .error (.major failure) => .error (.because (.major failure)) s'
      | received => .ok () { s' with parked := some received } := by
  unfold park
  rw [bind_of_ok h.eq]
  match received with
  | .ok inbound => rfl
  | .error (.minor failure) => rfl
  | .error (.major failure) => rfl

/-- A fault with which the exchange cannot go on ends the read that it is met in. -/
theorem receiveResponse_eq_major {failure : Failure} {s' : Session (Traced L)}
    (h : Awaits s (.error (.major failure)) s') (hparked : s.parked = none)
    (hcapacity : Block.longPrologue ≤ s.frame.capacity) (htwins : Twins {} .shown s s) :
    receiveResponse s
      = .error (.because (.major failure)) { s' with response := s.response.clear } := by
  have hround : receiveRound () { s with response := s.response.clear }
      = .error (.because (.major failure)) { s' with response := s.response.clear } := by
    have hnext : nextBlock { s with response := s.response.clear }
        = .ok (.error (.major failure)) { s' with response := s.response.clear } :=
      (nextBlock_eq_attempt (s := { s with response := s.response.clear }) hparked).trans
        (h.cleared hcapacity htwins)
    rw [receiveRound_eq hnext]
    rfl
  obtain ⟨m, hm⟩ : ∃ m, (Link.backlog s.link + 2) * (s.settings.blockRetransmits + 1) = m + 1 :=
    Nat.exists_eq_add_one.mpr (Nat.mul_pos (Nat.succ_pos _) (Nat.succ_pos _))
  show loop receiveRound ((Link.backlog s.link + 2) * (s.settings.blockRetransmits + 1)) ()
    { s with response := s.response.clear } = _
  rw [hm, loop_succ, hround]

/-- A read is so many rounds, or any larger number. -/
theorem receiveResponse_eq_loop [Truthful L] {n : Nat}
    (hn : (Link.backlog s.link + 2) * (s.settings.blockRetransmits + 1) ≤ n) :
    receiveResponse s = loop receiveRound n () { s with response := s.response.clear } := by
  obtain ⟨k, rfl⟩ := Nat.exists_eq_add_of_le hn
  have hends : receiveResponse.result s ≠ .error .stalled :=
    (receiveResponse_ended (s := s)).result
  exact (loop_more k hends).symm

/-- **A read goes on from what was parked as it would have without.** -/
theorem receiveResponse_ahead [Truthful L] {received : Except Setback Inbound}
    {s' : Session (Traced L)} (h : Awaits s received s') (htimeless : Timeless P)
    (hvalid : settings.fault? = none) (hparked : s.parked = none)
    (hcapacity : Block.longPrologue ≤ s.frame.capacity) (htwins : Twins {} .shown s s)
    (hahead : t.parked = some received)
    (hleisure : Leisurely (fun t : Traced L => P t.link) settings 0
      { s' with response := s.response.clear }
      { t with response := t.response.clear, parked := none }) :
    Agree receiveResponse s receiveResponse t fun _ =>
      Leisurely (fun t : Traced L => P t.link) settings 0 := by
  have hfirst : Agree (receiveRound ()) { s with response := s.response.clear } (receiveRound ())
      { t with response := t.response.clear } fun _ =>
        Leisurely (fun t : Traced L => P t.link) settings 0 := by
    have hnext : nextBlock { s with response := s.response.clear }
        = .ok received { s' with response := s.response.clear } :=
      (nextBlock_eq_attempt (s := { s with response := s.response.clear }) hparked).trans
        (h.cleared hcapacity htwins)
    have hnext' : nextBlock { t with response := t.response.clear }
        = .ok received { t with response := t.response.clear, parked := none } :=
      nextBlock_eq_parked (s := { t with response := t.response.clear }) hahead
    unfold Agree
    rw [receiveRound_eq hnext, receiveRound_eq hnext']
    exact dealWith_leisurely htimeless.traced received _ _ hleisure
  have hloop : ∀ n, Agree (loop receiveRound (n + 1) ()) { s with response := s.response.clear }
      (loop receiveRound (n + 1) ()) { t with response := t.response.clear } fun _ =>
        Leisurely (fun t : Traced L => P t.link) settings 0 := by
    intro n
    refine hfirst.bind (fun r s₁ t₁ h₁ => ?_) fun _ _ _ h₁ => h₁
    cases r with
    | inl u =>
        exact respects_loop (fun _ => receiveRound_leisurely htimeless.traced hvalid) n u _ _ h₁
    | inr a => exact ⟨rfl, h₁⟩
  -- neither uses up its rounds, so both may have the rounds of both
  have hboth := hloop ((Link.backlog s.link + 2) * (s.settings.blockRetransmits + 1)
    + (Link.backlog t.link + 2) * (t.settings.blockRetransmits + 1))
  unfold Agree at hboth ⊢
  rw [receiveResponse_eq_loop (Nat.le_succ_of_le (Nat.le_add_right _ _)),
    receiveResponse_eq_loop (Nat.le_succ_of_le (Nat.le_add_left _ _))]
  exact hboth

end Step

namespace Session

variable {L : Type} [Link L] {P : L → Prop} {settings : Settings} {s t : Session (Traced L)}

/-! ## Two calls -/

theorem begin_eq (hready : s.status.isReady = true) :
    (begin : Call (Traced L) Unit) s = .ok () s.begun := by
  have hwhole : Ensures (begin >>= pure) s fun r s' => r = .ok () ∧ s' = s.begun :=
    (ensures_begin_bind hready).mpr ⟨rfl, rfl⟩
  rw [bind_pure] at hwhole
  obtain ⟨s', hrun, rfl⟩ := hwhole.exists_ok
  exact hrun

/-- What two calls make of exchanges that go the same way. -/
theorem agree_run {α : Type} {x y : Step (Traced L) α}
    {R : Except (Stop Setback) α → Session (Traced L) → Session (Traced L) → Prop}
    {Q : Except (Stop Failure) α → Session (Traced L) → Session (Traced L) → Prop}
    (hs : s.status.isReady = true) (ht : t.status.isReady = true)
    (h : Agree x s.begun y t.begun R)
    (hvalue : ∀ a s' t', R (.ok a) s' t' → s'.status = .busy ∧ t'.status = .busy ∧
      Q (.ok a) { s' with status := .idle, deadline := none }
        { t' with status := .idle, deadline := none })
    (hfault : ∀ setback s' t', R (.error (.because setback)) s' t' →
      Agree (recover setback.failure) { s' with deadline := none } (recover setback.failure)
        { t' with deadline := none } fun r s' t' =>
          match r with
          | .ok told => Q (.error (.because told)) s' t'
          | .error stop => Q (.error stop) s' t')
    (hcrashed : ∀ s' t', R (.error .crashed) s' t' → Q (.error .crashed) s' t')
    (hstalled : ∀ s' t', R (.error .stalled) s' t' → Q (.error .stalled) s' t') :
    Agree (run x) s (run y) t Q := by
  have hbegun : Agree (begin : Call (Traced L) Unit) s begin t fun r s' t' =>
      r = .ok () ∧ s' = s.begun ∧ t' = t.begun :=
    agree_ok (begin_eq hs) (begin_eq ht) ⟨rfl, rfl, rfl⟩
  refine hbegun.bind (fun _ s₁ t₁ hend => ?_) fun _ _ _ hend => absurd hend.1 nofun
  obtain ⟨-, rfl, rfl⟩ := hend
  refine Step.agree_conclude h ?_ ?_ hcrashed hstalled
  · intro a s₁ t₁ hR
    obtain ⟨hstatus, hstatus', hQ⟩ := hvalue a s₁ t₁ hR
    rw [agree_modify_bind, agree_moveTo_bind (by dsimp only; rw [hstatus]; rfl)
      (by dsimp only; rw [hstatus']; rfl)]
    exact ⟨rfl, hQ⟩
  · intro setback s₁ t₁ hR
    rw [agree_modify_bind]
    exact (hfault setback s₁ t₁ hR).bind (fun _ _ _ hQ => ⟨rfl, hQ⟩) fun _ _ _ hQ => hQ

/-- Recovery clears the response anyhow. -/
theorem recover_cleared {response : Buffer} (failure : Failure) (hstatus : s.status = .busy)
    (hsame : response.clear = s.response.clear) :
    Agree (recover failure) s (recover failure) { s with response } fun _ s' t' => t' = s' := by
  have hopen : ¬ (!s.status.isOpen) = true := by rw [hstatus]; exact Bool.false_ne_true
  have hallowed : s.status.allows .recovering = true := by rw [hstatus]; rfl
  unfold recover
  rw [agree_get_bind, if_neg hopen,
    agree_moveTo_bind hallowed (t := { s with response }) hallowed, agree_modify_bind]
  dsimp only [resetExchange]
  rw [hsame]
  exact agree_refl _ _

/-- **A wait that ends in recovery is the read that ends in recovery.** -/
theorem park_major [Truthful L] {failure : Failure} {s' : Session (Traced L)}
    (h : Step.Awaits s.begun (.error (.major failure)) s') (hready : s.status.isReady = true)
    (hparked : s.parked = none) (hcapacity : Block.longPrologue ≤ s.frame.capacity)
    (htwins : Twins {} .shown s.begun s.begun) :
    Agree (run Step.park) s (run Step.receiveResponse) s fun r s' t' =>
      t' = s' ∧ ∃ told, r = .error (.because told) := by
  have hexchange : Agree Step.park s.begun Step.receiveResponse s.begun fun r s₁ t₁ =>
      r = .error (.because (.major failure)) ∧ s₁ = s' ∧
        t₁ = { s' with response := s.response.clear } :=
    agree_error (Step.park_eq h) (Step.receiveResponse_eq_major h hparked hcapacity htwins)
      ⟨rfl, rfl, rfl⟩
  refine agree_run hready hready hexchange ?_ ?_ ?_ ?_
  · exact fun _ _ _ hend => absurd hend.1 nofun
  · intro setback s₁ t₁ hend
    obtain ⟨hsetback, rfl, rfl⟩ := hend
    obtain ⟨_, _, _, hreplaces, -⟩ := htwins
    have hsame : s.response.clear.clear = s₁.response.clear := by
      have htidy : s.response.Tidy := hreplaces.pairedResponse.tidy
      rw [h.response, htidy.clear.clear_eq, Buffer.capacity_clear, ← htidy.clear_eq]
      rfl
    have hspec := recover_spec (s := { s₁ with response := s.response.clear, deadline := none })
      setback.failure h.status (by dsimp only; rw [h.capacity]; exact hcapacity)
    refine ((recover_cleared (s := { s₁ with deadline := none }) setback.failure h.status
      hsame).beside (hspec.and (recover_ends setback.failure _))).mono ?_
    intro r s' t' hend
    obtain ⟨hsame, hrecovered, hended⟩ := hend
    cases r with
    | ok told => exact ⟨hsame, told, rfl⟩
    | error stop => exact absurd (congrArg Except.error hrecovered.1) hended
  · exact fun _ _ hend => absurd hend.1 nofun
  · exact fun _ _ hend => absurd hend.1 nofun

/-- What a wait ahead leaves for the read behind it. -/
def parkedWith (s : Session (Traced L)) (received : Except Setback Inbound) : Session (Traced L) :=
  { s with parked := some received, status := .idle, deadline := none }

/-- A wait ahead that does not end in recovery parks what came of it. -/
theorem park_minor {received : Except Setback Inbound} {s' : Session (Traced L)}
    (h : Step.Awaits s.begun received s') (hready : s.status.isReady = true)
    (hminor : ∀ failure, received ≠ .error (.major failure)) :
    run Step.park s = .ok () (s'.parkedWith received) := by
  have hpark : Step.park s.begun = .ok () { s' with parked := some received } := by
    rw [Step.park_eq h]
    split
    · exact absurd rfl (hminor _)
    · rfl
  have hexchange : Ensures Step.park s.begun fun r s₁ =>
      r = .ok () ∧ s₁ = { s' with parked := some received } := by
    unfold Ensures
    rw [hpark]
    exact ⟨rfl, rfl⟩
  have hrun : Ensures (run Step.park) s fun r s₁ =>
      r = .ok () ∧ s₁ = s'.parkedWith received := by
    refine ensures_run_ok hready hexchange ?_
    rintro s₁ rfl
    exact ⟨h.status, rfl⟩
  obtain ⟨s₁, hcall, rfl⟩ := hrun.exists_ok
  exact hcall

/-- The ends of two calls are the same, but for a deadline that a call which was cut off has left
behind. -/
def SameEnd {α : Type} (r : Except (Stop Failure) α) (s' t' : Session (Traced L)) : Prop :=
  match r with
  | .ok _ | .error (.because _) => t' = s'
  | .error _ => ∃ deadline, t' = { s' with deadline }

omit [Link L] in
theorem sameEnd_refl {α : Type} (r : Except (Stop Failure) α) (s' : Session (Traced L)) :
    SameEnd r s' s' := by
  match r with
  | .ok _ | .error (.because _) => rfl
  | .error .crashed | .error .stalled => exact ⟨s'.deadline, rfl⟩

omit [Link L] in
/-- What two calls come to that end in the same. -/
theorem sameEnd_ends {α : Type} {x : Call (Traced L) α} (hends : x.result s ≠ .error .stalled)
    (h : Agree x s x t SameEnd) :
    x.result t = x.result s ∧ (x.result s ≠ .error .crashed → x.final t = x.final s) ∧
      ∃ deadline, x.final t = { x.final s with deadline } := by
  unfold Action.result at hends
  unfold Action.result Action.final
  rcases h.cases with ⟨a, s', t', hs, ht, hend⟩ | ⟨stop, s', t', hs, ht, hend⟩
  · obtain rfl : t' = s' := hend
    rw [hs, ht]
    exact ⟨rfl, fun _ => rfl, t'.deadline, rfl⟩
  · rw [hs] at hends
    rw [hs, ht]
    cases stop with
    | because failure =>
        obtain rfl : t' = s' := hend
        exact ⟨rfl, fun _ => rfl, t'.deadline, rfl⟩
    | crashed => exact ⟨rfl, fun hcrashed => absurd rfl hcrashed, hend⟩
    | stalled => exact absurd rfl hends

/-- A call has all of its time when it starts. -/
theorem deadlineFromNow_ample {instant : Nanos} (h : instant ∈ s.deadlineFromNow) :
    Link.now s.link + max s.settings.exchangeTimeout 0 ≤ instant := by
  unfold deadlineFromNow Time.after? at h
  split at h
  · obtain rfl := Option.some.inj h
    exact Nat.le_of_eq (congrArg (Link.now s.link + ·) (Nat.max_zero _))
  · exact absurd h nofun

/-- A read starts behind a wait where the wait has ended, but for the deadline. -/
theorem begun_parkedWith {received : Except Setback Inbound} {s' : Session (Traced L)}
    (h : Step.Awaits s.begun received s') (hparked : s.parked = none) :
    { (s'.parkedWith received).begun with
        response := (s'.parkedWith received).begun.response.clear, parked := none }
      = { s' with
        response := s.begun.response.clear,
        deadline := (s'.parkedWith received).deadlineFromNow } := by
  have hresponse : s'.response = s.begun.response := h.response
  have hretries : s'.retries = 0 := h.retries
  have hstatus : s'.status = .busy := h.status
  have hnone : s'.parked = none := h.parked.trans hparked
  unfold parkedWith begun
  dsimp only
  rw [hresponse, hretries, hstatus, hnone]
  rfl

/-- The wait has left time enough for the read, whatever was granted on the way. -/
theorem awaits_leisurely {received : Except Setback Inbound} {s' : Session (Traced L)}
    (h : Step.Awaits s.begun received s') (htimeless : Timeless P)
    (hvalid : settings.fault? = none) (hsettings : s.settings = settings)
    (hparked : s.parked = none) (hstill : P s.link.link) :
    Leisurely (fun t : Traced L => P t.link) settings 0
      { s' with response := s.begun.response.clear }
      { (s'.parkedWith received).begun with
        response := (s'.parkedWith received).begun.response.clear, parked := none } := by
  have hbegun : Leisurely (fun t : Traced L => P t.link) settings 0 s.begun s.begun := by
    have hample : ∀ instant ∈ s.deadlineFromNow,
        Link.now s.link + max settings.exchangeTimeout 0 ≤ instant := by
      rw [← hsettings]
      exact fun instant => deadlineFromNow_ample
    exact ⟨s.deadlineFromNow,
      { still := hstill, same := hsettings, ample := hample, ample' := hample }, rfl⟩
  have hwaited : Leisurely (fun t : Traced L => P t.link) settings 0 s' s' := by
    have hattempt := Step.respects_attempt
      (Step.awaitBlock_leisurely htimeless.traced hvalid) _ _ hbegun
    rcases hattempt.cases with ⟨r, s₁, t₁, hs, ht, hend⟩ | ⟨stop, s₁, t₁, hs, -, -⟩
    · rw [h.eq] at hs ht
      obtain ⟨-, rfl⟩ := EStateM.Result.ok.inj hs
      obtain ⟨-, rfl⟩ := EStateM.Result.ok.inj ht
      exact hend
    · rw [h.eq] at hs
      exact absurd hs nofun
  obtain ⟨deadline, hunhurried, -⟩ := hwaited
  have hample : ∀ instant ∈ (s'.parkedWith received).deadlineFromNow,
      Link.now s'.link + max settings.exchangeTimeout 0 ≤ instant := by
    rw [← hunhurried.same]
    exact fun instant => deadlineFromNow_ample
  exact ⟨(s'.parkedWith received).deadlineFromNow, { hunhurried with ample' := hample },
    begun_parkedWith h hparked⟩

/-- **The read behind a wait comes to the same as a read alone.** -/
theorem receive_ahead [Truthful L] {received : Except Setback Inbound} {s' : Session (Traced L)}
    (h : Step.Awaits s.begun received s') (htimeless : Timeless P)
    (hvalid : settings.fault? = none) (hsound : Sound settings s)
    (hsound' : Sound settings (s'.parkedWith received)) (hready : s.status.isReady = true)
    (hparked : s.parked = none) (htwins : Twins {} .shown s.begun s.begun)
    (hstill : P s.link.link) :
    Agree receive s receive (s'.parkedWith received) SameEnd := by
  have hcollected := Step.receiveResponse_ahead (s := s.begun) h htimeless hvalid hparked
    hsound.capacity htwins (t := (s'.parkedWith received).begun) rfl
    (awaits_leisurely h htimeless hvalid hsound.settings hparked hstill)
  have hexchange := hcollected.beside
    (receiveResponse_exchanged (s := (s'.parkedWith received).begun) hsound'.capacity
      (Nat.zero_le _) hsound'.parkedOrdinary)
  have hrun : Agree (run Step.receiveResponse) s (run Step.receiveResponse)
      (s'.parkedWith received) SameEnd := by
    refine agree_run hready rfl hexchange ?_ ?_ ?_ ?_
    · intro u s₁ t₁ hend
      obtain ⟨⟨deadline, -, rfl⟩, ⟨-, hstatus, -⟩, -⟩ := hend
      exact ⟨hstatus, hstatus, rfl⟩
    · intro setback s₁ t₁ hend
      obtain ⟨⟨deadline, -, rfl⟩, -⟩ := hend
      -- both recover without a deadline
      refine (agree_refl (recover setback.failure) { s₁ with deadline := none }).mono ?_
      rintro r s₂ _ rfl
      cases r with
      | ok told => rfl
      | error stop => exact sameEnd_refl _ _
    · intro s₁ t₁ hend
      obtain ⟨⟨deadline, -, rfl⟩, -⟩ := hend
      exact ⟨deadline, rfl⟩
    · intro s₁ t₁ hend
      obtain ⟨⟨deadline, -, rfl⟩, -⟩ := hend
      exact ⟨deadline, rfl⟩
  refine hrun.bind ?_ fun stop s₁ t₁ hend => ?_
  · rintro u s₁ _ rfl
    exact ⟨rfl, rfl⟩
  · cases stop <;> exact hend

/-! ## A read and the waits ahead of it -/

/-- A wait ahead does nothing while something is parked. -/
theorem prefetch_eq_ok (hparked : s.parked.isSome = true) : prefetch s = .ok () s := by
  show (if s.parked.isSome then pure () else run Step.park : Call (Traced L) Unit) s = _
  rw [if_pos hparked]
  rfl

theorem prefetch_eq_run (hparked : s.parked = none) : prefetch s = run Step.park s := by
  have hnone : ¬ s.parked.isSome = true := by rw [hparked]; exact Bool.false_ne_true
  show (if s.parked.isSome then pure () else run Step.park : Call (Traced L) Unit) s = _
  rw [if_neg hnone]

/-- More waits do nothing at all. -/
theorem performAll_prefetch (hparked : s.parked.isSome = true) : ∀ n : Nat,
    performAll (List.replicate n .prefetch) s = List.replicate n (.ok none, s)
  | 0 => rfl
  | n + 1 => by
      have hcall : perform .prefetch s = .ok none s := bind_of_ok (prefetch_eq_ok hparked)
      have hresult : (perform .prefetch).result s = .ok none := by unfold result; rw [hcall]
      have hfinal : (perform .prefetch).final s = s := by unfold final; rw [hcall]
      rw [List.replicate_succ, List.replicate_succ, performAll, hresult, hfinal,
        performAll_prefetch hparked n]

/--
**A wait ahead of a read makes no difference to the read.** In a session between two calls that
has parked nothing, over a link in which time stands still:

* if the wait succeeds, the read behind it has the same result as a read alone and leaves the
  same session, link and calls on the link included. Only what is left of a deadline may differ,
  and only if the read was cut off where it stood. More waits in between do nothing at all;
* if it does not succeed, it has failed with what a read alone fails with, and has left what the
  read leaves.
-/
theorem prefetch_receive [Truthful L] (htimeless : Timeless P) (h : Reachable settings s)
    (hready : s.status.isReady = true) (hparked : s.parked = none) (hstill : P s.link.link) :
    (∀ s₁, prefetch s = .ok () s₁ →
      (∀ n, performAll (List.replicate n .prefetch) s₁ = List.replicate n (.ok none, s₁)) ∧
      receive.result s₁ = receive.result s ∧
      (receive.result s ≠ .error .crashed → receive.final s₁ = receive.final s) ∧
      ∃ deadline, receive.final s₁ = { receive.final s with deadline }) ∧
    ∀ stop s₁, prefetch s = .error stop s₁ →
      ∃ failure, stop = .because failure ∧ receive s = .error stop s₁ := by
  have hsound := h.sound
  have hcapacity : Block.longPrologue ≤ s.begun.frame.capacity := hsound.capacity
  have htwins : Twins {} .shown s.begun s.begun := by
    refine h.twins.change begun (fun _ _ _ _ _ => rfl) fun _ => ?_
    exact .of_eq rfl
  obtain ⟨received, s', hawaits⟩ := Step.exists_awaits hcapacity
  rw [prefetch_eq_run hparked]
  by_cases hmajor : ∃ failure, received = .error (.major failure)
  · obtain ⟨failure, rfl⟩ := hmajor
    have hrun := park_major hawaits hready hparked hcapacity htwins
    rcases hrun.cases with ⟨u, s₁, t₁, -, -, -, told, htold⟩ |
      ⟨stop, s₁, t₁, hpark, hreceive, rfl, told, htold⟩
    · exact absurd htold nofun
    · obtain rfl := Except.error.inj htold
      refine ⟨fun s₂ hok => absurd (hpark.symm.trans hok) nofun, fun stop s₂ herror => ?_⟩
      obtain ⟨rfl, rfl⟩ := EStateM.Result.error.inj (hpark.symm.trans herror)
      exact ⟨told, rfl, bind_of_error hreceive⟩
  · have hpark := park_minor hawaits hready fun failure hfailure => hmajor ⟨failure, hfailure⟩
    refine ⟨fun s₁ hok => ?_, fun stop s₁ herror => absurd (hpark.symm.trans herror) nofun⟩
    obtain ⟨-, rfl⟩ := EStateM.Result.ok.inj (hpark.symm.trans hok)
    have hsound' : Sound settings (s'.parkedWith received) :=
      (exchange_sound .prefetch rfl hsound).ok hpark
    exact ⟨performAll_prefetch rfl, sameEnd_ends (receive_ends s).result
      (receive_ahead hawaits htimeless h.fault?_eq hsound hsound' hready hparked htwins hstill)⟩

/-! ## A link on which time stands still -/

/-- Nothing that is laid down takes any time. -/
structure Immediate (r : Rehearsal) : Prop where
  writings : ∀ w ∈ r.writings, w.delay = 0 ∧ w.outcome ≠ .error .silence
  readings : ∀ x ∈ r.readings, x.delay = 0 ∧ x.outcome ≠ .error .silence

theorem Immediate.write {r : Rehearsal} (h : Immediate r) (bytes : Bytes) (timeout : Nanos) :
    Immediate (r.write bytes timeout).2 ∧ (r.write bytes timeout).2.clock = r.clock := by
  obtain ⟨openings, writings, readings, current, clock⟩ := r
  obtain ⟨hwritings, hreadings⟩ := h
  cases writings with
  | nil => exact ⟨⟨hwritings, hreadings⟩, rfl⟩
  | cons w rest =>
      have hrest : ∀ w ∈ rest, w.delay = 0 ∧ w.outcome ≠ .error .silence :=
        fun w hw => hwritings w (List.mem_cons_of_mem _ hw)
      obtain ⟨delay, outcome⟩ := w
      obtain ⟨rfl : delay = 0, houtcome⟩ := hwritings _ List.mem_cons_self
      match outcome, houtcome with
      | .error .silence, houtcome => exact absurd rfl houtcome
      | .error (.fault fault), _ => exact ⟨⟨hrest, hreadings⟩, rfl⟩
      | .ok taken, _ => exact ⟨⟨hrest, hreadings⟩, rfl⟩

theorem Immediate.read {r : Rehearsal} (h : Immediate r) (n : Nat) (timeout : Nanos) :
    Immediate (r.read n timeout).2 ∧ (r.read n timeout).2.clock = r.clock := by
  obtain ⟨openings, writings, readings, current, clock⟩ := r
  obtain ⟨hwritings, hreadings⟩ := h
  match current, readings with
  | some d, readings => exact ⟨⟨hwritings, hreadings⟩, rfl⟩
  | none, [] => exact ⟨⟨hwritings, hreadings⟩, rfl⟩
  | none, x :: rest =>
      have hrest : ∀ x ∈ rest, x.delay = 0 ∧ x.outcome ≠ .error .silence :=
        fun x hx => hreadings x (List.mem_cons_of_mem _ hx)
      obtain ⟨delay, outcome⟩ := x
      obtain ⟨rfl : delay = 0, houtcome⟩ := hreadings _ List.mem_cons_self
      match outcome, houtcome with
      | .error .silence, houtcome => exact absurd rfl houtcome
      | .error (.fault fault), _ => exact ⟨⟨hwritings, hrest⟩, rfl⟩
      | .ok d, _ => exact ⟨⟨hwritings, hrest⟩, rfl⟩

theorem immediate_timeless : Timeless Immediate where
  read := fun n timeout _ h => h.read n timeout
  write := fun bytes timeout _ h => h.write bytes timeout

/-- A session whose element answers the handshake, asks for more time, and then sends a response in
two blocks. -/
def deferring : Session (Traced Rehearsal) :=
  (perform .establish).final (rehearse [[0xA5, 0xE0, 0, 0x45], [0xA5, 0xC3, 1, 1, 0x66],
    [0xA5, 0x20, 1, 0x90, 0x14], [0xA5, 0x40, 1, 0, 0xE4]])

theorem deferring_immediate : Immediate deferring.link.link where
  writings := by decide +kernel
  readings := by decide +kernel

theorem prefetch_receive_deferring :
    ∃ s₁ : Session (Traced Rehearsal), Timeless Immediate ∧ Reachable rehearsalSettings deferring ∧
      deferring.status.isReady = true ∧ deferring.parked = none ∧ Immediate deferring.link.link ∧
      prefetch deferring = .ok () s₁ ∧ receive.result s₁ = .ok [0x90, 0] ∧
      receive.final s₁ = receive.final deferring := by
  have hreachable : Reachable rehearsalSettings deferring := .called _ (rehearse_reachable _)
  have hready : deferring.status.isReady = true := by decide +kernel
  have hparked : deferring.parked = none := by decide +kernel
  have hprefetch : prefetch.result deferring = .ok () := by decide +kernel
  have hreceive : receive.result deferring = .ok [0x90, 0] := by decide +kernel
  have hcall := eq_ok_of_result hprefetch
  obtain ⟨-, hresult, hfinal, -⟩ := (prefetch_receive immediate_timeless hreachable hready hparked
    deferring_immediate).1 _ hcall
  rw [hreceive] at hresult hfinal
  exact ⟨_, immediate_timeless, hreachable, hready, hparked, deferring_immediate, hcall, hresult,
    hfinal nofun⟩

end Session

end SecureElement
