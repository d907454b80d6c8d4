import SecureElement.Proofs.Twins

/-!
# Twins stay twins

What a call comes to does not depend on what was left over by the calls before it. The
exchanges go the same way in twins, block by block; so do the calls that are made of them
(`perform_twins`).

Three places need more than the blocks: a command is staged before it is sent, a response
is cleared before it is collected, and what was parked is taken out of a frame that is in
both.
-/

namespace SecureElement

open SecureElement.Action Session

namespace Step

variable {L α : Type} {d : Statistics} {k : Known}

/-! ## Asking -/

/-- What was caught lies in both frames if it is a value. -/
def Caught (d : Statistics) (k : Known) :
    Except (Stop Setback) (Except Setback α) → Session L → Session L → Prop
  | .ok (.ok _) => Twins d k.framed
  | _ => Twins d k

theorem Fetches.caught {step : Step L α} (h : Fetches d k step) {s t : Session L}
    (htwins : Twins d k s t) : Agree (attempt step) s (attempt step) t (Caught d k) :=
  agree_attempt (h s t htwins) (fun _ _ _ h => h) (fun _ _ _ h => h) (fun _ _ h => h) fun _ _ h => h

theorem askUntil_fetches {ask : Step L Inbound} (h : Fetches d k ask) (answer : Control) :
    Fetches d k (askUntil ask answer) := by
  refine .get_bind (fun _ _ _ _ _ => rfl) fun s => ?_
  refine agree_loop (R := Twins d k) (fun _ s t htwins => ?_) (fun _ _ h => h) _ _
  refine (h.caught htwins).bind ?_ fun _ _ _ h => h
  intro outcome s₁ t₁ h₁
  cases outcome with
  | error setback =>
      exact (charge_twins setback s₁ t₁ h₁).bind (fun _ _ _ h => ⟨rfl, h⟩) fun _ _ _ h => h
  | ok inbound =>
      dsimp only
      split
      · exact ⟨rfl, h₁⟩
      · exact (charge_twins _ s₁ t₁ (Twins.of_framed h₁)).bind (fun _ _ _ h => ⟨rfl, h⟩)
          fun _ _ _ h => h

variable [Link L]

/-! ## Commands -/

/-- A staged block goes out until it is taken, as often on either side. -/
theorem sendBlock_twins {s t : Session L} (block : Block) (h : Twins d k s t) :
    Agree (sendBlock block) s (sendBlock block) t (Learns d k k.staged) := by
  have hchained : Respects (Twins d k.staged) (sendChained : Step L Unit) := by
    refine twins_get_bind (fun _ _ _ _ _ => rfl) fun s => ?_
    have hask : Fetches d k.staged (do sendCommand; awaitBlock : Step L Inbound) :=
      .after sendCommand_twins fun _ => awaitBlock_fetches
    refine Respects.bind (fun s t h => ?_) fun _ => respects_pure _
    exact (askUntil_fetches hask _ s t h).mono fun _ _ _ h => h.twins Twins.of_framed
  have hfinal : Respects (Twins d k.staged) (sendFinal : Step L Unit) := by
    refine twins_get_bind (fun _ _ _ _ _ => rfl) fun s => respects_loop (fun _ => ?_) _ _
    refine (respects_attempt sendCommand_twins).bind fun outcome => ?_
    cases outcome with
    | ok u => exact respects_pure _
    | error setback => exact (charge_twins setback).bind fun _ => respects_pure _
  unfold sendBlock
  refine (stage_twins block h).bind (fun _ s₁ t₁ h₁ => ?_) fun _ _ _ h₁ => h₁
  refine Agree.mono (Respects.agree ?_ h₁) fun r _ _ h₂ => h₂.learns Twins.of_staged r
  refine twins_modify_bind (fun _ _ _ _ _ => rfl)
    (fun _ => .of_eq rfl) fun _ => ?_
  split
  · exact hchained.bind fun _ => twins_modify (fun _ _ _ _ _ => rfl)
      fun _ => .of_eq rfl
  · exact hfinal.bind fun _ => twins_modify (fun _ _ _ _ _ => rfl)
      fun _ => .of_eq rfl

theorem sendBlocks_twins : ∀ (n : Nat) (chain : Chain),
    Respects (Twins d k.staged) (sendBlocks n chain : Step L Unit)
  | 0, _ => respects_pure _
  | n + 1, chain => by
      unfold sendBlocks
      split
      · exact respects_pure _
      · refine Respects.bind (fun s t h => ?_) fun _ => sendBlocks_twins n _
        exact (sendBlock_twins _ h).mono fun _ _ _ h => h.twins Twins.of_staged

omit [Link L] in
/-- What is sent over in an exchange: nothing is parked, no extra time was granted, and the response
is empty. -/
theorem twins_forget {s t : Session L} (h : Twins d k s t) :
    Twins d k.cleared
      { s.resetExchange with response := s.response.clear, commandPending := false }
      { t.resetExchange with response := t.response.clear, commandPending := false } := by
  have hreset : Twins d k { s.resetExchange with commandPending := false }
      { t.resetExchange with commandPending := false } :=
    h.change (fun s => { s.resetExchange with commandPending := false }) (fun _ _ _ _ _ => rfl)
      fun _ => ⟨rfl, rfl, rfl, rfl, nofun, nofun⟩
  exact hreset.clear_response

/-- A command has at least one block, so it is in both buffers once it is sent. -/
theorem sendChain_twins (command : Bytes) :
    Respects (Twins d k) (sendChain command : Step L Unit) := by
  intro s t h
  unfold sendChain
  rw [agree_modify_bind]
  refine Respects.agree (twins_get_bind (fun _ _ _ _ _ => rfl) fun s => ?_)
    (twins_forget h).of_cleared
  dsimp only
  obtain ⟨n, hn⟩ : ∃ n, (Chain.ofPayload s.codec command s.sendSeq).remaining = n + 1 :=
    Nat.exists_eq_add_one.mpr (Nat.le_max_left 1 _)
  obtain ⟨block, rest, hnext⟩ : ∃ block rest,
      (Chain.ofPayload s.codec command s.sendSeq).next? = some (block, rest) := ⟨_, _, rfl⟩
  rw [hn]
  unfold sendBlocks
  rw [hnext]
  dsimp only
  rw [bind_assoc]
  intro s t h
  refine (sendBlock_twins block h).bind (fun _ s₁ t₁ h₁ => ?_) fun _ _ _ h₁ => h₁
  refine Agree.mono (Respects.agree ?_ h₁) fun _ _ _ h₂ => Twins.of_staged h₂
  refine (sendBlocks_twins n rest).bind fun _ => respects_modify fun s t h => ?_
  obtain ⟨response, command, frame, hreplaces, rfl⟩ := h
  exact ⟨response, command, frame, { hreplaces with
    sameCommand := fun _ => hreplaces.sameCommand (Or.inl trivial) }, rfl⟩

/-! ## Responses -/

theorem refuse_twins (receipt : Receipt) : Respects (Twins d k) (refuse receipt : Step L Unit) :=
  twins_get_bind (fun _ _ _ _ _ => rfl) fun _ => orCharge_twins (sendControl_twins _)

theorem reject_twins (setback : Setback) (receipt : Receipt) :
    Respects (Twins d k) (reject setback receipt : Step L Unit) :=
  (charge_twins setback).bind fun _ => refuse_twins receipt

/-- What was parked was taken from a frame that is in both. -/
theorem nextBlock_twins {s t : Session L} (h : Twins d k s t) :
    Agree nextBlock s nextBlock t (Caught d k) := by
  obtain ⟨response, command, frame, hreplaces, rfl⟩ := h
  unfold nextBlock
  rw [agree_get_bind, agree_set_bind]
  dsimp only
  have hdropped : Twins d k { s with parked := none } _ :=
    ⟨response, command, frame, { hreplaces with
      sameFrame := fun hk => hreplaces.sameFrame (hk.imp_right nofun) }, rfl⟩
  cases hparked : s.parked with
  | none => exact awaitBlock_fetches.caught hdropped
  | some received =>
      cases received with
      | error setback => exact ⟨rfl, hdropped⟩
      | ok inbound =>
          obtain rfl := hreplaces.sameFrame (Or.inr ⟨inbound, hparked⟩)
          exact ⟨rfl, response, command, s.frame, { hreplaces with sameFrame := fun _ => rfl }, rfl⟩

/-- A payload that lies in both frames goes behind what is in both responses. -/
theorem accept_twins (inbound : Inbound) (more : Bool) {s t : Session L}
    (h : Twins d k.cleared.framed s t) :
    Agree (accept inbound more) s (accept inbound more) t fun _ => Twins d k.cleared := by
  obtain ⟨response, command, frame, hreplaces, rfl⟩ := h
  obtain rfl := hreplaces.sameFrame (Or.inl trivial)
  obtain rfl := hreplaces.sameResponse trivial
  have hless : Replaces k.cleared s s.response command s.frame :=
    hreplaces.mono id id fun _ => trivial
  unfold accept
  rw [agree_get_bind]
  dsimp only
  split
  · exact ⟨rfl, s.response, command, s.frame, hless, rfl⟩
  · split
    · exact ⟨rfl, s.response, command, s.frame, hless, rfl⟩
    · rename_i response happend
      rw [agree_set_bind]
      have haccepted : Twins d k.cleared { s with
          response, recvSeq := s.recvSeq.next, commandPending := false, retries := 0 } _ :=
        ⟨response, command, s.frame, { hless with
          pairedResponse := (hless.pairedResponse.tidy.append happend).paired
          sameResponse := fun _ => rfl
          sameCommand := fun hk => hless.sameCommand (hk.imp_right nofun) }, rfl⟩
      refine Respects.agree ?_ haccepted
      split
      · exact respects_pure _
      · exact (orCharge_twins (sendControl_twins _)).bind fun _ => respects_pure _

theorem dealWith_twins (received : Except Setback Inbound) {s t : Session L}
    (h : Caught d k.cleared (.ok received) s t) :
    Agree (dealWith received) s (dealWith received) t fun _ => Twins d k.cleared := by
  cases received with
  | error setback =>
      exact Respects.agree ((reject_twins setback _).bind fun _ => respects_pure _) h
  | ok inbound =>
      have hless : Twins d k.cleared s t := Twins.of_framed h
      have hreject : Respects (Twins d k.cleared) (do
          reject (.minor inbound.rejection) .otherwiseBad
          return .inl () : Step L (Unit ⊕ Unit)) :=
        (reject_twins _ _).bind fun _ => respects_pure _
      obtain ⟨response, command, frame, hreplaces, rfl⟩ := h
      unfold dealWith
      rw [agree_get_bind]
      dsimp only
      split
      · split
        · have hframed : Twins d k.cleared.framed s _ := ⟨response, command, frame, hreplaces, rfl⟩
          refine (accept_twins inbound _ hframed).bind (fun complete s₁ t₁ h₁ => ?_)
            fun _ _ _ h => h
          refine Respects.agree ?_ h₁
          split
          · exact respects_pure _
          · exact respects_pure _
        · exact hreject _ _ hless
      · split
        · rename_i hagain
          have hcommand : Twins d k.cleared.staged s
              { s with response, command, frame, statistics := d + s.statistics } :=
            ⟨response, command, frame, { hreplaces with
              sameCommand := fun _ => hreplaces.sameCommand (Or.inr hagain.1)
              sameFrame := fun hk => hreplaces.sameFrame (hk.imp_left fun _ => trivial) }, rfl⟩
          refine Agree.mono (Respects.agree ?_ hcommand) fun _ _ _ h => Twins.of_staged h
          exact (charge_twins _).bind fun _ => (orCharge_twins sendCommand_twins).bind fun _ =>
            respects_pure _
        · exact hreject _ _ hless
      · exact hreject _ _ hless

/-- **A response is collected from nothing, the same way on either side.** -/
theorem receiveResponse_twins {s t : Session L} (h : Twins d k s t) :
    Agree receiveResponse s receiveResponse t fun _ => Twins d k.cleared := by
  unfold receiveResponse
  rw [agree_modify_bind]
  refine Respects.agree (twins_get_bind (fun _ _ _ _ _ => rfl) fun s => ?_) h.clear_response
  refine respects_loop (fun _ => ?_) _ _
  intro s t h
  refine (nextBlock_twins h).bind (fun received s₁ t₁ h₁ => dealWith_twins received h₁) ?_
  exact fun _ _ _ h₁ => h₁

/-! ## Supervision -/

theorem supervise_fetches (function : Supervisory) :
    Fetches d k (supervise function : Step L Inbound) :=
  .after (twins_modify (fun _ _ _ _ _ => rfl) fun _ => .of_eq rfl)
    fun _ => .get_bind (fun _ _ _ _ _ => rfl) fun _ =>
      askUntil_fetches (.after (sendControl_twins _) fun _ => awaitBlock_fetches) _

theorem supervise_twins (function : Supervisory) :
    Respects (Twins d k) (supervise function : Step L Inbound) := fun s t h =>
  (supervise_fetches function s t h).mono fun _ _ _ h => h.twins Twins.of_framed

theorem resetInterface_twins : Respects (Twins d k) (resetInterface : Step L Unit) := by
  intro s t h
  refine (supervise_fetches .softReset s t h).bind (fun inbound s₁ t₁ h₁ => ?_) fun _ _ _ h => h
  obtain ⟨response, command, frame, hreplaces, rfl⟩ := h₁
  obtain rfl := hreplaces.sameFrame (Or.inl trivial)
  have hless : Replaces k s₁ response command s₁.frame := hreplaces.mono id id fun _ => trivial
  rw [agree_get_bind]
  dsimp only
  split
  · exact ⟨rfl, response, command, s₁.frame, hless, rfl⟩
  · split
    · exact ⟨rfl, response, command, s₁.frame, { hless with }, rfl⟩
    · exact ⟨rfl, response, command, s₁.frame, { hless with }, rfl⟩

theorem resynchronise_twins : Respects (Twins d k) (resynchronise : Step L Unit) :=
  (supervise_twins _).bind fun _ => twins_count_bind (fun _ => rfl) fun _ =>
    twins_modify (fun _ _ _ _ _ => rfl) fun _ => .of_eq rfl

theorem renewInterface_twins : Respects (Twins d k) (renewInterface : Step L Unit) :=
  twins_modify_bind (fun _ _ _ _ _ => rfl) (fun _ => ⟨rfl, rfl, rfl, rfl, nofun, nofun⟩) fun _ =>
    resetInterface_twins.bind fun _ =>
      twins_modify (fun _ _ _ _ _ => rfl) fun _ => .of_eq rfl

theorem endApplication_twins : Respects (Twins d k) (endApplication : Step L Unit) :=
  (supervise_twins _).bind fun _ => respects_pure _

/-- A block that is parked lies in both frames. -/
theorem park_twins : Respects (Twins d k) (park : Step L Unit) := by
  intro s t h
  refine (awaitBlock_fetches.caught h).bind (fun received s₁ t₁ h₁ => ?_) fun _ _ _ h => h
  have hparks : ∀ hk : Twins d k s₁ t₁, ((∃ inbound, received = .ok inbound) →
      Twins d k.framed s₁ t₁) →
      Twins d k { s₁ with parked := some received } { t₁ with parked := some received } := by
    intro hk hframed
    obtain ⟨response, command, frame, hreplaces, rfl⟩ := hk
    refine ⟨response, command, frame, { hreplaces with sameFrame := ?_ }, rfl⟩
    rintro (hknown | ⟨inbound, hinbound⟩)
    · exact hreplaces.sameFrame (Or.inl hknown)
    · obtain ⟨_, _, frame', hreplaces', hsame⟩ := hframed ⟨inbound, Option.some.inj hinbound⟩
      have hframe : frame = frame' := congrArg Session.frame hsame
      exact hframe.trans (hreplaces'.sameFrame (Or.inl trivial))
  match received with
  | .ok inbound => exact ⟨rfl, hparks (Twins.of_framed h₁) fun _ => h₁⟩
  | .error (.minor failure) => exact ⟨rfl, hparks h₁ fun ⟨_, hnone⟩ => absurd hnone nofun⟩
  | .error (.major failure) => exact ⟨rfl, h₁⟩

theorem resyncOnce_twins : Respects (Twins d k) (resyncOnce : Step L Unit) :=
  twins_get_bind (fun _ _ _ _ _ => rfl) fun _ => (sendControl_twins _).bind fun _ => by
    refine Respects.bind (fun s t h => ?_) fun inbound => ?_
    · exact (awaitBlock_fetches s t h).mono fun _ _ _ h => h.twins Twins.of_framed
    · split
      · exact respects_fail _
      · exact respects_pure _

end Step

namespace Session

variable {L α : Type} [Link L] {d : Statistics} {k : Known} {s t : Session L}

/-! ## Calls -/

/-- The link that is let go of is the same. -/
theorem Twins.release (h : Twins d k s t) :
    Twins d k { s with link := Link.release s.link } { t with link := Link.release t.link } :=
  h.change (fun s => { s with link := Link.release s.link }) (fun _ _ _ _ _ => rfl)
    fun _ => .of_eq rfl

theorem begin_twins : Respects (Twins d k) (begin : Call L Unit) := by
  refine twins_get_bind (fun _ _ _ _ _ => rfl) fun s => ?_
  have hbusy : Respects (Twins d k) (do
      Action.moveTo .busy
      modify fun s => { s with retries := 0, deadline := s.deadlineFromNow } : Call L Unit) :=
    (twins_moveTo _).bind fun _ => twins_modify (fun _ _ _ _ _ => rfl)
      fun _ => .of_eq rfl
  split
  · exact respects_fail _
  · exact respects_fail _
  · exact respects_fail _
  · exact hbusy
  · exact hbusy

theorem resyncAttempts_twins : ∀ n, Respects (Twins d k) (resyncAttempts n : Call L Bool)
  | 0 => respects_pure _
  | n + 1 => fun s t h => Step.agree_conclude (Step.resyncOnce_twins s t h)
      (fun _ _ _ h => ⟨rfl, h⟩) (fun _ _ _ h => resyncAttempts_twins n _ _ h) (fun _ _ h => h)
      fun _ _ h => h

theorem recover_twins (failure : Failure) :
    Respects (Twins d k) (recover failure : Call L Failure) := by
  refine twins_get_bind (fun _ _ _ _ _ => rfl) fun s => ?_
  split
  · exact respects_pure _
  · refine (twins_moveTo _).bind fun _ => respects_modify_bind (fun s t h => ?_) fun _ => ?_
    · exact ((Step.twins_forget h).of_cleared).change (fun s => { s with deadline := none })
        (fun _ _ _ _ _ => rfl) fun _ => .of_eq rfl
    · refine twins_get_bind (fun _ _ _ _ _ => rfl) fun s =>
        (resyncAttempts_twins _).bind fun succeeded => ?_
      split
      · exact twins_count_bind (fun _ => rfl) fun _ => twins_modify_bind (fun _ _ _ _ _ => rfl)
          (fun _ => .of_eq rfl) fun _ =>
            (twins_moveTo _).bind fun _ => respects_pure _
      · exact respects_modify_bind (fun _ _ h => h.release) fun _ =>
          (twins_moveTo _).bind fun _ => respects_pure _

/-- A call goes the same way as its exchange. -/
theorem run_twins (k' : Known) {exchange : Step L α}
    (hless : ∀ s t : Session L, Twins d k' s t → Twins d k s t)
    (hexchange : ∀ s t, Twins d k s t → Agree exchange s exchange t (Learns d k k'))
    (h : Twins d k s t) : Agree (run exchange) s (run exchange) t (Learns d k k') := by
  have hlate : ∀ (k₁ : Known) (s t : Session L), Twins d k₁ s t →
      Twins d k₁ { s with deadline := none } { t with deadline := none } := fun k₁ s t h =>
    h.change (fun s => { s with deadline := none }) (fun _ _ _ _ _ => rfl)
      fun _ => .of_eq rfl
  refine (begin_twins s t h).bind (fun _ s₁ t₁ h₁ => ?_) fun _ _ _ h₁ => h₁
  refine Step.agree_conclude (hexchange s₁ t₁ h₁) ?_ ?_ (fun _ _ h => h) fun _ _ h => h
  · intro value s₂ t₂ h₂
    rw [agree_modify_bind]
    refine Agree.mono (Respects.agree ?_ (hlate _ _ _ h₂)) fun r _ _ h₃ => h₃.learns (hless _ _) r
    exact (twins_moveTo _).bind fun _ => respects_pure _
  · intro setback s₂ t₂ h₂
    rw [agree_modify_bind]
    exact (recover_twins _ _ _ (hlate _ _ _ h₂)).bind (fun _ _ _ h₃ => ⟨rfl, h₃⟩) fun _ _ _ h₃ => h₃

theorem run_respects {exchange : Step L α} (hexchange : Respects (Twins d k) exchange) :
    Respects (Twins d k) (run exchange) := fun _ _ h =>
  (run_twins k (fun _ _ => id)
    (fun s t h => (hexchange s t h).mono fun r _ _ h => h.learns id r) h).mono
      fun _ _ _ h => h.twins id

/-- A response is told from what was collected, whatever was there before. -/
theorem receive_twins : Respects (Twins d k) (receive : Call L Bytes) := by
  intro s t h
  refine (run_twins k.cleared (fun _ _ => Twins.of_cleared) (fun s t h => ?_) h).bind
    (fun _ s₁ t₁ h₁ => ?_) fun _ _ _ h => h
  · exact (Step.receiveResponse_twins h).mono fun r _ _ h => h.learns Twins.of_cleared r
  · have hless := Twins.of_cleared h₁
    obtain ⟨response, command, frame, hreplaces, rfl⟩ := h₁
    obtain rfl := hreplaces.sameResponse trivial
    exact ⟨rfl, hless⟩

theorem handshake_twins : Respects (Twins d k) (handshake : Step L Unit) := by
  refine twins_modify_bind (fun _ _ _ _ _ => rfl) (fun _ => .of_eq rfl)
    fun _ => twins_get_bind (fun _ _ _ _ _ => rfl) fun s => ?_
  split
  · exact Step.resetInterface_twins
  · exact (Step.supervise_twins _).bind fun _ => respects_pure _

/-- What a session starts an opening with, once its link has come up. -/
def afresh (s : Session L) : Session L :=
  { s.resetSequence.resetExchange with codec := s.settings.codec, answer := none }

/-- Two closed sessions open the same way on links that come up, if they are twins from there on. -/
theorem establish_raised (hs : s.status = .closed) (ht : t.status = .closed)
    (hlink : t.link = s.link) (hraised : (Link.bringUp s.link).1 = .ok ())
    (h : Twins d k (afresh { s with link := (Link.bringUp s.link).2 })
      (afresh { t with link := (Link.bringUp s.link).2 })) :
    Agree establish s establish t fun _ => Twins d k := by
  unfold establish
  rw [agree_get_bind, hs, ht, if_neg (Status.not_isOpen_iff.mpr rfl), agree_onLink_bind, hlink,
    hraised]
  dsimp only
  rw [agree_modify_bind]
  refine Step.agree_conclude (handshake_twins _ _ h) ?_ ?_ (fun _ _ h => h) fun _ _ h => h
  · intro _ s₁ t₁ h₁
    refine Respects.agree ?_ h₁
    exact twins_modify_bind (fun _ _ _ _ _ => rfl) (fun _ => .of_eq rfl)
      fun _ => twins_moveTo _
  · intro setback s₁ t₁ h₁
    refine Respects.agree ?_ h₁
    exact twins_modify_bind (fun _ _ _ _ _ => rfl) (fun _ => .of_eq rfl)
      fun _ => respects_fail _

theorem establish_twins : Respects (Twins d k) (establish : Call L Unit) := by
  intro s t h
  have hstatus : t.status = s.status := by
    obtain ⟨_, _, _, -, rfl⟩ := h
    rfl
  have hlink : t.link = s.link := by
    obtain ⟨_, _, _, -, rfl⟩ := h
    rfl
  by_cases hopen : s.status.isOpen = true
  · unfold establish
    rw [agree_get_bind, hstatus, if_pos hopen]
    exact ⟨rfl, h⟩
  · have hraised : Twins d k { s with link := (Link.bringUp s.link).2 }
        { t with link := (Link.bringUp t.link).2 } :=
      h.change (fun s => { s with link := (Link.bringUp s.link).2 }) (fun _ _ _ _ _ => rfl)
        fun _ => .of_eq rfl
    cases houtcome : (Link.bringUp s.link).1 with
    | error fault =>
        unfold establish
        rw [agree_get_bind, hstatus, if_neg hopen, agree_onLink_bind, hlink, houtcome]
        rw [hlink] at hraised
        exact ⟨rfl, hraised⟩
    | ok u =>
        have hclosed : s.status = .closed := Status.not_isOpen_iff.mp hopen
        refine establish_raised hclosed (hstatus.trans hclosed) hlink houtcome ?_
        rw [hlink] at hraised
        exact hraised.change afresh (fun _ _ _ _ _ => rfl)
          fun _ => ⟨rfl, rfl, rfl, rfl, id, nofun⟩

theorem Twins.close (h : Twins d k s t) : Twins d k.cleared s.close t.close := by
  have hclosed := h.change (fun s => { s.resetExchange with
      link := if s.status.isOpen then Link.release s.link else s.link
      status := .closed
      deadline := none
      commandPending := false }) (fun _ _ _ _ _ => rfl)
    fun _ => ⟨rfl, rfl, rfl, rfl, nofun, nofun⟩
  exact hclosed.clear_response

omit [Link L] in
theorem Twins.dropResponse (h : Twins d k s t) :
    Twins d k.cleared s.dropResponse t.dropResponse := by
  have hdropped := h.change (fun s => { s with parked := none }) (fun _ _ _ _ _ => rfl)
    fun _ => ⟨rfl, rfl, rfl, rfl, id, nofun⟩
  exact hdropped.clear_response

theorem softReset_twins : Respects (Twins d k) (softReset : Call L Unit) :=
  run_respects Step.renewInterface_twins

/-- **Every call comes to the same in twins, and leaves twins behind.** -/
theorem perform_twins (request : Request) :
    Respects (Twins d k) (perform request : Call L (Option Bytes)) := by
  have hsend : ∀ command, Respects (Twins d k) (send command : Call L Unit) :=
    fun command => run_respects (Step.sendChain_twins command)
  cases request with
  | establish => exact establish_twins.bind fun _ => respects_pure _
  | close => exact respects_modify_bind (fun _ _ h => h.close.of_cleared) fun _ => respects_pure _
  | send command => exact (hsend command).bind fun _ => respects_pure _
  | receive => exact receive_twins.bind fun _ => respects_pure _
  | transceive command =>
      exact ((hsend command).bind fun _ => receive_twins).bind fun _ => respects_pure _
  | prefetch =>
      refine Respects.bind (twins_get_bind (fun _ _ _ _ _ => rfl) fun s => ?_)
        fun _ => respects_pure _
      split
      · exact respects_pure _
      · exact run_respects Step.park_twins
  | resync => exact (run_respects Step.resynchronise_twins).bind fun _ => respects_pure _
  | softReset => exact softReset_twins.bind fun _ => respects_pure _
  | endApduSession => exact (run_respects Step.endApplication_twins).bind fun _ => respects_pure _
  | reset =>
      refine Respects.bind (twins_get_bind (fun _ _ _ _ _ => rfl) fun s => ?_)
        fun _ => respects_pure _
      split
      · exact softReset_twins
      · exact establish_twins
  | dropResponse =>
      exact respects_modify_bind (fun _ _ h => h.dropResponse.of_cleared) fun _ => respects_pure _

end Session

end SecureElement
