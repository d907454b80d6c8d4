import SecureElement.Proofs.Parked
import SecureElement.Proofs.Repeats
import SecureElement.Proofs.RoundTrip

/-!
# What each call makes of a pending command

A command is pending from the end of `send` until the first block of its response. What
goes out again then is whatever is staged, and the peer asks for it by a number, so both
have to belong to that command. Here is what every call does about it:

* `send` stages the last block of its command and uses up that block's number
  (`send_staged`), or leaves nothing pending;
* every other call leaves what is pending with all that belongs to it, or settles it
  (`perform_follows`);
* the one exception is `resync` (`resync_pending`). It starts the numbers over and keeps
  the command pending. `recover` and `softReset` start the numbers over as well, and
  forget the command first.
-/

namespace SecureElement

open Link

namespace Step

open SecureElement.Action Session

variable {L : Type} {s : Session (Traced L)} [Link L]

/-! ## What is staged -/

/-- A block that was sent is the one that is staged, and its number is used up. -/
theorem sendBlock_staged (block : Block) (hcapacity : Block.longPrologue ≤ s.frame.capacity) :
    Ensures (sendBlock block) s fun r s' =>
      s'.commandPending = s.commandPending ∧ (r = .ok () →
        s'.command.used = s.codec.layout block ∧ s'.sendSeq = s.sendSeq.next
          ∧ s'.codec = s.codec ∧ s'.frame.capacity = s.frame.capacity) := by
  unfold sendBlock
  refine (stage_spec block).bind ?_ ?_
  · intro u s₁ hend
    obtain ⟨command, rfl, hused⟩ := hend
    dsimp only at hused
    rw [ensures_modify_bind]
    generalize hstaged : ({ s with command, retries := 0 } : Session (Traced L)) = staged
    have hbudget : staged.WithinBudget := by rw [← hstaged]; exact Nat.zero_le _
    have hroom : Block.longPrologue ≤ staged.frame.capacity := by rw [← hstaged]; exact hcapacity
    subst hstaged
    -- while a block is under way nothing of the exchange moves
    cases hchained : block.control.isChained with
    | true =>
        refine Ensures.bind (sendChained_spec hroom hbudget) ?_ ?_
        · intro u s₂ hend
          obtain ⟨items, htalks, -⟩ := hend
          refine ⟨htalks.commandPending, fun _ => ⟨?_, ?_, htalks.codec, htalks.capacity⟩⟩
          · exact (congrArg Buffer.used htalks.command).trans hused
          · exact congrArg Seq.next htalks.sendSeq
        · intro stop s₂ hend
          obtain ⟨items, htalks, -⟩ := hend
          exact ⟨htalks.commandPending, nofun⟩
    | false =>
        refine Ensures.bind (sendFinal_spec hbudget) ?_ ?_
        · intro u s₂ hend
          obtain ⟨items, htalks, -⟩ := hend
          refine ⟨htalks.commandPending, fun _ => ⟨?_, ?_, htalks.codec, htalks.capacity⟩⟩
          · exact (congrArg Buffer.used htalks.command).trans hused
          · exact congrArg Seq.next htalks.sendSeq
        · intro stop s₂ hend
          obtain ⟨items, htalks, -⟩ := hend
          exact ⟨htalks.commandPending, nofun⟩
  · intro stop s₁ hend
    obtain ⟨command, rfl, -⟩ := hend
    exact ⟨rfl, nofun⟩

/-- What is staged and awaited once a row of blocks is out: the last of them, and the number behind
its own. -/
def Staged (c : Codec) (blocks : List Block) (s' : Session (Traced L)) : Prop :=
  s'.codec = c ∧ ∃ block seq, blocks.getLast? = some block
    ∧ block.control = .information seq false ∧ s'.command.used = c.layout block
    ∧ s'.sendSeq = seq.next

theorem sendBlocks_staged :
    ∀ (n : Nat) (chain : Chain) (s : Session (Traced L)), chain.remaining = n →
      chain.done = false → chain.codec = s.codec → chain.seq = s.sendSeq →
      Block.longPrologue ≤ s.frame.capacity →
      Ensures (sendBlocks n chain) s fun r s' =>
        s'.commandPending = s.commandPending ∧ (r = .ok () → Staged s.codec chain.blocks s')
  | 0, chain, s, hn, hdone, _, _, _ => by
      obtain ⟨block, rest, hnext⟩ := Chain.exists_next hdone
      have hcount := Chain.remaining_next hnext
      omega
  | n + 1, chain, s, hn, hdone, hcodec, hseq, hcapacity => by
      obtain ⟨block, rest, hnext⟩ := Chain.exists_next hdone
      have hrest : rest.remaining = n := by
        have hcount := Chain.remaining_next hnext
        omega
      obtain ⟨hcontrol, hrestSeq, hrestCodec⟩ := Chain.next?_eq_some hnext
      unfold sendBlocks
      rw [hnext, Chain.blocks_next hnext]
      dsimp only
      refine (sendBlock_staged block hcapacity).bind ?_ ?_
      · intro u s₁ hend
        obtain ⟨hpending, hok⟩ := hend
        obtain ⟨hused, hsend, hcodec₁, hcapacity₁⟩ := hok rfl
        cases hlast : rest.done with
        | true =>
            have hnone : n = 0 := by
              rw [← hrest, Chain.remaining, if_pos hlast]
            rw [Chain.blocks_of_done hlast, hnone]
            refine ⟨hpending, fun _ => ⟨hcodec₁, block, s.sendSeq, rfl, ?_, hused, hsend⟩⟩
            rw [hcontrol, hlast, hseq]
            rfl
        | false =>
            refine (sendBlocks_staged n rest s₁ hrest hlast ?_ ?_ (by rw [hcapacity₁]; exact
              hcapacity)).mono ?_
            · rw [hrestCodec, hcodec, hcodec₁]
            · rw [hrestSeq, hseq, hsend]
            · intro r s₂ hend
              obtain ⟨hpending', hstaged⟩ := hend
              refine ⟨hpending'.trans hpending, fun hr => ?_⟩
              obtain ⟨hcodec₂, last, seq, hgetLast, hrest'⟩ := hstaged hr
              rw [hcodec₁] at hcodec₂ hrest'
              refine ⟨hcodec₂, last, seq, ?_, hrest'⟩
              rw [List.getLast?_cons, hgetLast]
              rfl
      · intro stop s₁ hend
        refine ⟨hend.1, fun hr => ?_⟩
        cases hr

theorem sendChain_staged (command : Bytes) (hcapacity : Block.longPrologue ≤ s.frame.capacity) :
    Ensures (sendChain command) s fun r s' =>
      match r with
      | .ok () => Staged s.codec (s.commandBlocks command) s'
      | .error _ => s'.commandPending = false := by
  unfold sendChain
  rw [ensures_modify_bind, ensures_get_bind]
  dsimp only [resetExchange]
  refine Ensures.bind (sendBlocks_staged _ (Chain.ofPayload s.codec command s.sendSeq) _ rfl rfl rfl
    rfl hcapacity) ?_ ?_
  · intro u s₁ hend
    exact hend.2 rfl
  · intro stop s₁ hend
    exact hend.1

/-! ## Exchanges that send no command -/

theorem receiveResponse_pends (hcapacity : Block.longPrologue ≤ s.frame.capacity)
    (hbudget : s.WithinBudget) (hparked : s.ParkedOrdinary) :
    Ensures receiveResponse s fun _ s' => s'.commandPending = true → Pends s s' := by
  cases hreceived : s.parked with
  | none =>
      refine (receiveResponse_replies hcapacity hreceived hbudget).mono ?_
      intro r s' hend
      obtain ⟨items, -, hpends, -⟩ := hend
      exact hpends
  | some received =>
      refine (receiveResponse_parked_replies hreceived hcapacity hbudget ?_).mono ?_
      · rintro setback rfl
        exact hparked setback hreceived
      · intro r s' hend
        obtain ⟨items, -, hpends, -⟩ := hend
        exact hpends

theorem park_pends (hcapacity : Block.longPrologue ≤ s.frame.capacity) :
    Ensures park s fun _ s' => s'.commandPending = true → Pends s s' := by
  unfold park
  refine ensures_attempt_bind (awaitBlock_spec hcapacity) ?_ ?_ ?_ ?_
  · intro inbound s₁ hend
    obtain ⟨-, asides, raw, block, htalks, -⟩ := hend
    rw [ensures_modify]
    exact fun h => { htalks.pends h with }
  · intro setback s₁ hend
    obtain ⟨-, -, items, htalks, -⟩ := hend
    cases setback with
    | minor failure =>
        rw [ensures_modify]
        exact fun h => { htalks.pends h with }
    | major failure => exact htalks.pends
  · intro s₁ hend
    obtain ⟨-, hordinary, -⟩ := hend
    exact hordinary.elim
  · intro s₁ hend
    obtain ⟨-, -, items, htalks, -⟩ := hend
    exact htalks.pends

theorem supervise_pends (function : Supervisory)
    (hcapacity : Block.longPrologue ≤ s.frame.capacity) :
    Ensures (supervise function) s fun _ s' => s'.commandPending = true → Pends s s' := by
  refine (supervise_spec function hcapacity).mono ?_
  intro r s' hend
  obtain ⟨items, htalks, -⟩ := hend
  exact htalks.pends

/-- The numbers start over, and what was pending is pending still. -/
theorem resynchronise_pends (hcapacity : Block.longPrologue ≤ s.frame.capacity) :
    Ensures resynchronise s fun r s' =>
      s'.commandPending = true →
        match r with
        | .ok () => s.commandPending = true ∧ s'.command = s.command ∧ s'.codec = s.codec
            ∧ s'.sendSeq = .zero
        | .error _ => Pends s s' := by
  unfold resynchronise
  refine (supervise_pends .resync hcapacity).bind ?_ ?_
  · intro inbound s₁ hpends
    rw [ensures_count_bind, ensures_modify]
    intro h
    have hsame := hpends h
    exact ⟨hsame.pending, hsame.command, hsame.codec, rfl⟩
  · intro stop s₁ hpends
    exact hpends

theorem resetInterface_pending (hcapacity : Block.longPrologue ≤ s.frame.capacity) :
    Ensures resetInterface s fun _ s' => s'.commandPending = s.commandPending := by
  refine (resetInterface_spec hcapacity).mono ?_
  intro r s' hend
  obtain ⟨items, hr⟩ := hend
  cases r with
  | ok u =>
      obtain ⟨s₁, codec, answer, htalks, rfl, -⟩ := hr
      exact htalks.commandPending
  | error stop => exact hr.2.commandPending

theorem renewInterface_pending (hcapacity : Block.longPrologue ≤ s.frame.capacity) :
    Ensures renewInterface s fun _ s' => s'.commandPending = false := by
  unfold renewInterface
  rw [ensures_modify_bind]
  exact (resetInterface_pending (s := { s.resetExchange with commandPending := false })
    hcapacity).bind_kept fun _ _ h => h

end Step

namespace Session

open SecureElement.Action Step

variable {L : Type} [Link L] {settings : Settings} {s s' s₁ : Session (Traced L)}

/-! ## Recovery -/

/-- However a row of attempts ends, only attempts passed, each with one request. -/
theorem resyncAttempts_recovers :
    ∀ (n : Nat) (s : Session (Traced L)), Block.longPrologue ≤ s.frame.capacity →
      Ensures (resyncAttempts n) s fun _ s' => ∃ items, Talks s items s' ∧
        (∀ x ∈ items, Recovers s.codec x) ∧ handovers (s.codec.request .resync) items ≤ n
  | 0, s, _ => ⟨[], Talks.refl s, List.forall_mem_nil _, Nat.le_refl 0⟩
  | n + 1, s, hcapacity => by
      have hvain : ∀ {outcome : Except Link.Fault Nat} {items : List Passage},
          (∀ x ∈ items, InVain s.codec x) →
          (∀ x ∈ .sent (s.codec.request .resync) outcome :: items, Recovers s.codec x) ∧
            handovers (s.codec.request .resync) (.sent (s.codec.request .resync) outcome :: items)
              = 1 := by
        intro outcome items hitems
        refine ⟨List.forall_mem_cons.mpr ⟨.request _, fun x hx => .inVain (hitems x hx)⟩, ?_⟩
        rw [handovers_sent, handovers_inVain hitems]
      unfold resyncAttempts
      refine Step.ensures_conclude (Step.resyncOnce_spec hcapacity) ?_ ?_ ?_ ?_
      · intro u s₁ hend
        obtain ⟨outcome, items, htalks, hresyncs⟩ := hend
        exact ⟨_, htalks, hresyncs.recovers, by rw [hresyncs.handovers]; omega⟩
      · intro setback s₁ hend
        obtain ⟨outcome, front, htalks, -, hfront⟩ := hend
        refine (resyncAttempts_recovers n s₁ (htalks.holds hcapacity)).mono ?_
        intro r s₂ hend
        obtain ⟨items, htalks', hitems, hcount⟩ := hend
        rw [htalks.codec] at hitems hcount
        obtain ⟨hrecovers, hone⟩ := hvain hfront
        refine ⟨_, htalks.trans htalks', List.forall_mem_append.mpr ⟨hrecovers, hitems⟩, ?_⟩
        rw [handovers_append, hone]
        omega
      · intro s₁ hend
        obtain ⟨outcome, front, -, hcrashed, -⟩ := hend
        exact absurd rfl hcrashed
      · intro s₁ hend
        obtain ⟨outcome, front, htalks, -, hfront⟩ := hend
        obtain ⟨hrecovers, hone⟩ := hvain hfront
        exact ⟨_, htalks, hrecovers, by rw [hone]; omega⟩

/-- Recovery forgets the command before it starts the numbers over, and hands over a request for
each of its attempts at most. -/
theorem recover_forgets (failure : Failure) (hstatus : s.status = .busy)
    (hcapacity : Block.longPrologue ≤ s.frame.capacity) :
    Ensures (recover failure) s fun _ s' =>
      s'.commandPending = false ∧ ∃ back, Passes s back s' ∧ (∀ x ∈ back, Recovers s.codec x) ∧
        handovers (s.codec.request .resync) back ≤ s.settings.resyncAttempts := by
  refine ensures_recover hstatus ?_
  refine (resyncAttempts_recovers s.settings.resyncAttempts s.recovering hcapacity).mono ?_
  rintro r s₁ ⟨items, htalks, hitems, hcount⟩
  have hpasses : Passes s items s₁ := htalks.passes
  match r with
  | .ok true =>
      exact ⟨htalks.status, htalks.commandPending, items, hpasses.congr rfl, hitems, hcount⟩
  | .ok false =>
      have hall := hpasses.trans (released_passes s₁) (congrArg Codec.epilogue htalks.codec)
        htalks.capacity
      refine ⟨htalks.status, htalks.commandPending, _, hall.congr rfl,
        List.forall_mem_append.mpr ⟨hitems, List.forall_mem_singleton.mpr .released⟩, ?_⟩
      rw [handovers_append]
      exact hcount
  | .error stop => exact ⟨htalks.commandPending, items, hpasses, hitems, hcount⟩

/-! ## One call after the other -/

/-- The end of a call that runs one exchange: its exchange has a value, or nothing is pending, or it
broke off where its exchange did. -/
theorem run_ended (request : Request) {exchange : Step (Traced L) Unit}
    {P : Except (Stop Setback) Unit → Session (Traced L) → Prop}
    (hexchange : request.exchange? = some exchange) (hsound : Sound settings s)
    (hready : s.status.isReady = true) (h : Ensures exchange s.begun P) :
    Ensures (run exchange) s fun r s' =>
      match r with
      | .ok () => ∃ s₁, P (.ok ()) s₁ ∧ s' = { s₁ with status := .idle, deadline := none }
      | .error _ => s'.commandPending = false
          ∨ s'.status = .busy ∧ ∃ stop, P (.error stop) s' := by
  have hexchanged := exchange_exchanged (s := s.begun) hexchange hsound.capacity (Nat.zero_le _)
    hsound.parkedOrdinary
  refine ensures_run hready (h.and hexchanged) ?_ ?_ ?_ ?_
  · intro u s₁ hend
    obtain ⟨hP, ⟨-, hstatus, -⟩, -⟩ := hend
    exact ⟨hstatus, s₁, hP, rfl⟩
  · intro setback s₁ hend
    obtain ⟨-, ⟨hkeeps, hstatus, -⟩, -⟩ := hend
    refine (recover_forgets (s := { s₁ with deadline := none }) setback.failure hstatus
      (hkeeps.holds hsound.capacity)).mono ?_
    intro r s₂ hend
    cases r with
    | ok told => exact .inl hend.1
    | error stop => exact .inl hend.1
  · intro s₁ hend
    obtain ⟨hP, ⟨-, hstatus, -⟩, -⟩ := hend
    exact .inr ⟨hstatus, _, hP⟩
  · intro s₁ hend
    obtain ⟨hP, ⟨-, hstatus, -⟩, -⟩ := hend
    exact .inr ⟨hstatus, _, hP⟩

omit [Link L] in
/-- A closed session has no command out. -/
def ClosedSettled (s : Session (Traced L)) : Prop :=
  s.status = .closed → s.commandPending = false

omit [Link L] in
/-- What is pending was pending before, and a closed session has no command out. -/
structure Follows (s s' : Session (Traced L)) : Prop where
  pends : s'.commandPending = true → Pends s s'
  closed : ClosedSettled s'

omit [Link L] in
theorem Follows.settled (h : s'.commandPending = false) : Follows s s' where
  pends := fun hpending => absurd (h.symm.trans hpending) Bool.false_ne_true
  closed := fun _ => h

omit [Link L] in
theorem Follows.refl (h : ClosedSettled s) : Follows s s where
  pends := fun hpending => ⟨hpending, rfl, rfl, rfl, rfl⟩
  closed := h

theorem run_follows (request : Request) {exchange : Step (Traced L) Unit}
    (hexchange : request.exchange? = some exchange) (hsound : Sound settings s)
    (hclosed : ClosedSettled s)
    (h : Ensures exchange s.begun fun _ s₁ => s₁.commandPending = true → Pends s.begun s₁) :
    Ensures (run exchange) s fun _ s' => Follows s s' := by
  cases hready : s.status.isReady with
  | false =>
      refine (run_refused hready).mono ?_
      intro r s' hend
      obtain ⟨rfl, -⟩ := hend
      exact .refl hclosed
  | true =>
      refine (run_ended request hexchange hsound hready h).mono ?_
      intro r s' hend
      cases r with
      | ok u =>
          obtain ⟨s₁, hpends, rfl⟩ := hend
          exact ⟨fun hpending => { hpends hpending with }, nofun⟩
      | error stop =>
          rcases hend with hsettled | ⟨hbusy, stop', hpends⟩
          · exact .settled hsettled
          · refine ⟨fun hpending => { hpends hpending with }, fun hstatus => ?_⟩
            rw [hbusy] at hstatus
            exact Status.noConfusion hstatus

theorem receive_follows (hsound : Sound settings s) (hclosed : ClosedSettled s) :
    Ensures receive s fun _ s' => Follows s s' := by
  have hrun := run_follows .receive rfl hsound hclosed
    (receiveResponse_pends (s := s.begun) hsound.capacity (Nat.zero_le _) hsound.parkedOrdinary)
  exact hrun.bind_kept fun _ _ h => h

theorem softReset_follows (hsound : Sound settings s) (hclosed : ClosedSettled s) :
    Ensures softReset s fun _ s' => Follows s s' := by
  refine run_follows .softReset rfl hsound hclosed ?_
  refine (renewInterface_pending (s := s.begun) hsound.capacity).mono ?_
  intro r s₁ hsettled hpending
  exact absurd (hsettled.symm.trans hpending) Bool.false_ne_true

/-- Opening a session sends no command, and there was none out. -/
theorem establish_follows (hsound : Sound settings s) (hclosed : ClosedSettled s) :
    Ensures establish s fun _ s' => Follows s s' := by
  refine ensures_establish (fun _ => .refl hclosed)
    (fun hstatus _ _ => .settled (hclosed hstatus)) ?_
  intro hstatus _
  refine (handshake_keeps (s := s.risen) hsound.capacity).mono ?_
  intro r s₁ hend
  obtain ⟨-, -, hsame, -, hkept, -⟩ := hend
  have hsettled : s₁.commandPending = false := hkept.trans (hclosed hstatus)
  match r with
  | .ok () => exact ⟨hsame.trans hstatus, .settled hsettled⟩
  | .error (.because setback) => exact .settled hsettled
  | .error .crashed => exact .settled hsettled
  | .error .stalled => exact .settled hsettled

/-! ## All calls -/

/-- The calls that send a command. -/
def Request.Sends : Request → Prop
  | .send _ | .transceive _ => True
  | .establish | .close | .receive | .prefetch | .resync | .softReset | .endApduSession | .reset
  | .dropResponse => False

/-- A command that was sent is staged; one that was not is not pending. A session that is not
between calls sends none. -/
theorem send_staged (command : Bytes) (hsound : Sound settings s) :
    Ensures (send command) s fun r s' =>
      if s.status.isReady then
        match r with
        | .ok () => s'.status = .idle ∧ Staged s.codec (s.commandBlocks command) s'
        | .error _ => s'.commandPending = false
      else s' = s ∧ ∃ stop, r = .error stop := by
  cases hready : s.status.isReady with
  | false =>
      refine (run_refused hready).mono ?_
      intro r s' hend
      obtain ⟨rfl, failure, rfl, -⟩ := hend
      exact ⟨rfl, _, rfl⟩
  | true =>
      refine (run_ended (.send command) rfl hsound hready
        (sendChain_staged (s := s.begun) command hsound.capacity)).mono ?_
      intro r s' hend
      cases r with
      | ok u =>
          obtain ⟨s₁, hstaged, rfl⟩ := hend
          exact ⟨rfl, hstaged⟩
      | error stop =>
          rcases hend with hsettled | ⟨-, stop', hsettled⟩
          · exact hsettled
          · exact hsettled

/-- Resynchronising starts the number of the next block over, and keeps all else of what is
pending. -/
theorem resync_pending (hsound : Sound settings s) (hclosed : ClosedSettled s) :
    Ensures resync s fun r s' =>
      ClosedSettled s' ∧ (s'.commandPending = true →
        match r with
        | .ok () => s.commandPending = true ∧ s'.codec = s.codec ∧ s'.command = s.command
            ∧ s'.sendSeq = .zero
        | .error _ => Pends s s') := by
  cases hready : s.status.isReady with
  | false =>
      refine (run_refused hready).mono ?_
      intro r s' hend
      obtain ⟨rfl, failure, rfl, -⟩ := hend
      exact ⟨hclosed, fun hpending => ⟨hpending, rfl, rfl, rfl, rfl⟩⟩
  | true =>
      refine (run_ended .resync rfl hsound hready
        (resynchronise_pends (s := s.begun) hsound.capacity)).mono ?_
      intro r s' hend
      cases r with
      | ok u =>
          obtain ⟨s₁, hpends, rfl⟩ := hend
          refine ⟨nofun, fun hpending => ?_⟩
          obtain ⟨hbefore, hcommand, hcodec, hzero⟩ := hpends hpending
          exact ⟨hbefore, hcodec, hcommand, hzero⟩
      | error stop =>
          rcases hend with hsettled | ⟨hbusy, stop', hpends⟩
          · exact ⟨fun _ => hsettled, fun h => absurd (hsettled.symm.trans h) Bool.false_ne_true⟩
          · refine ⟨fun hstatus => ?_, fun hpending => { hpends hpending with }⟩
            rw [hbusy] at hstatus
            exact Status.noConfusion hstatus

/-- **A call that sends no command leaves what is pending as it is, or settles it**, unless it
resynchronises. -/
theorem perform_follows (request : Request) (hsends : ¬ request.Sends)
    (hresync : request ≠ .resync) (hsound : Sound settings s) (hclosed : ClosedSettled s) :
    Ensures (perform request) s fun _ s' => Follows s s' := by
  cases request with
  | send command => exact absurd trivial hsends
  | transceive command => exact absurd trivial hsends
  | resync => exact absurd rfl hresync
  | establish => exact (establish_follows hsound hclosed).bind_kept fun _ _ h => h
  | close =>
      have hfollows : Follows s s.close := .settled rfl
      exact hfollows
  | receive => exact (receive_follows hsound hclosed).bind_kept fun _ _ h => h
  | prefetch =>
      refine Ensures.bind_kept ?_ fun _ _ h => h
      unfold prefetch
      rw [ensures_get_bind]
      split
      · exact .refl hclosed
      · exact run_follows .prefetch rfl hsound hclosed (park_pends (s := s.begun) hsound.capacity)
  | softReset => exact (softReset_follows hsound hclosed).bind_kept fun _ _ h => h
  | endApduSession =>
      refine Ensures.bind_kept ?_ fun _ _ h => h
      refine run_follows .endApduSession rfl hsound hclosed ?_
      exact (supervise_pends (s := s.begun) .endApduSession hsound.capacity).bind_kept
        fun _ _ h => h
  | reset =>
      refine Ensures.bind_kept ?_ fun _ _ h => h
      unfold reset
      rw [ensures_get_bind]
      split
      · exact softReset_follows hsound hclosed
      · exact establish_follows hsound hclosed
  | dropResponse =>
      have hfollows : Follows s s.dropResponse :=
        ⟨fun hpending => ⟨hpending, rfl, rfl, rfl, rfl⟩, hclosed⟩
      exact hfollows

end Session

end SecureElement
