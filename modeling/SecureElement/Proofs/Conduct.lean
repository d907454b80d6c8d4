import SecureElement.Proofs.Granting

/-!
# What an exchange keeps to

Only two steps of an exchange have to do with the link: `transmit` hands over a frame,
and `awaitRound` receives a block and answers it if it is a request. Whatever happens
between them is `Quiet`: it is bookkeeping of the exchange, and leaves the link, the
deadline, the time granted, the receive frame and the sizes of the other buffers as they
are. So a fact about a session that both steps and everything quiet keep is kept by every
exchange, and likewise for what is known of the faults that end one.

`Conduct I F` lists what has to be shown for that, `I` being the fact about the session
and `F` the one about a fault; `Conduct.exchange` and `Conduct.handshake` are what
follows. A fault may be met in one call and told in another, since a block that is
parked may be a fault in its place, so the list has two entries about parking. A frame is
handed over by `sendCommand` or by `sendControl`, and none of these frames grants the peer
more time: only `awaitRound` does that.

A call adds little to its exchange. It raises the link or lets go of it, and does the rest
without the link (`Offline`). `Regime I` lists what has to be shown of a fact that no call
ends, whatever the state of the session, and `Regime.perform` is what follows.
-/

namespace SecureElement

/-- A fault that is told without the session being closed for it. -/
def Setback.IsMild (setback : Setback) : Prop := setback.failure.requiresReopen = false

theorem Failure.ofBlock_requiresReopen (fault : Block.Fault) :
    (Failure.ofBlock fault).requiresReopen = false := by
  cases fault <;> rfl

theorem Inbound.rejection_requiresReopen (inbound : Inbound) :
    inbound.rejection.requiresReopen = false := by
  unfold Inbound.rejection
  split <;> rfl

/-- Between two counts nothing but tries and resynchronisations was counted. -/
structure Statistics.SameTraffic (counts counts' : Statistics) : Prop where
  blocksSent : counts'.blocksSent = counts.blocksSent
  blocksReceived : counts'.blocksReceived = counts.blocksReceived
  epilogueMismatches : counts'.epilogueMismatches = counts.epilogueMismatches
  extensions : counts'.extensions = counts.extensions
  retransmissions : counts.retransmissions ≤ counts'.retransmissions
  resyncs : counts.resyncs ≤ counts'.resyncs

theorem Statistics.SameTraffic.refl (counts : Statistics) : counts.SameTraffic counts :=
  ⟨rfl, rfl, rfl, rfl, Nat.le_refl _, Nat.le_refl _⟩

namespace Codec

/-- A codec like another one, for blocks that may carry less. -/
structure Narrows (c c' : Codec) : Prop extends Alike c c' where
  payload : c.maxPayload ≤ c'.maxPayload

theorem Narrows.refl (c : Codec) : c.Narrows c := ⟨⟨rfl, rfl, rfl⟩, Nat.le_refl _⟩

end Codec

namespace Session

variable {L : Type} {s s' : Session L}

/-- Between two states of a session nothing was done with the link. The buffers are as large as
before, and the codec is as before or that of the settings, limited further or not. -/
structure Offline (s s' : Session L) : Prop where
  link : s'.link = s.link
  settings : s'.settings = s.settings
  codec : s'.codec = s.codec ∨ s'.codec.Narrows s.settings.codec
  staging : s'.command.capacity = s.command.capacity
  /-- What is staged is no grant. -/
  command : Codec.isGrant s.command.used = false → Codec.isGrant s'.command.used = false
  response : s'.response.capacity = s.response.capacity
  frame : s'.frame = s.frame
  statistics : s.statistics.SameTraffic s'.statistics

/-- Between two states of a session an exchange has kept its own books, and nothing else has
changed. -/
structure Quiet (s s' : Session L) : Prop extends Offline s s' where
  status : s'.status = s.status
  deadline : s'.deadline = s.deadline
  extension : s'.extension = s.extension
  /-- What is parked may be taken. -/
  parked : s'.parked = s.parked ∨ s'.parked = none

/-- What speaks like its settings goes on to do so. -/
theorem Offline.speaksAlike (h : Offline s s') (hs : s.codec.Alike s.settings.codec) :
    s'.codec.Alike s'.settings.codec := by
  rw [h.settings]
  rcases h.codec with hsame | hnarrows
  · rw [hsame]
    exact hs
  · exact hnarrows.toAlike

/-- A call may change whatever is neither of the link nor of the codec nor in a buffer. -/
theorem Offline.books {status : Status} {sendSeq recvSeq : Seq} {retries : Nat}
    {parked : Option (Except Setback Inbound)} {extension : Extension} {deadline : Option Nanos}
    {commandPending : Bool} {answer : Option AnswerToReset} {statistics : Statistics}
    (h : s.statistics.SameTraffic statistics) :
    Offline s { s with
      status, sendSeq, recvSeq, retries, parked, extension, deadline, commandPending, answer
      statistics } :=
  ⟨rfl, rfl, .inl rfl, rfl, id, rfl, rfl, h⟩

theorem Offline.cleared {status : Status} {parked : Option (Except Setback Inbound)}
    {extension : Extension} {deadline : Option Nanos} {commandPending : Bool} :
    Offline s { s with
      response := s.response.clear
      status, parked, extension, deadline, commandPending } :=
  ⟨rfl, rfl, .inl rfl, rfl, id, s.response.capacity_clear, rfl, .refl _⟩

/-- Within an exchange what is parked, the deadline and what was granted stand as well. -/
theorem Quiet.books {sendSeq recvSeq : Seq} {retries : Nat} {commandPending : Bool}
    {answer : Option AnswerToReset} {statistics : Statistics}
    (h : s.statistics.SameTraffic statistics) :
    Quiet s { s with sendSeq, recvSeq, retries, commandPending, answer, statistics } :=
  ⟨.books h, rfl, rfl, rfl, .inl rfl⟩

/-- A response is collected where the one before it was. -/
theorem Quiet.collected {response : Buffer} {recvSeq : Seq} {retries : Nat} {commandPending : Bool}
    (h : response.capacity = s.response.capacity) :
    Quiet s { s with response, recvSeq, retries, commandPending } :=
  ⟨⟨rfl, rfl, .inl rfl, rfl, id, h, rfl, .refl _⟩, rfl, rfl, rfl, .inl rfl⟩

theorem Quiet.staged {command : Buffer} (hroom : command.capacity = s.command.capacity)
    (hgrant : Codec.isGrant command.used = false) : Quiet s { s with command } :=
  ⟨⟨rfl, rfl, .inl rfl, hroom, fun _ => hgrant, rfl, rfl, .refl _⟩, rfl, rfl, rfl, .inl rfl⟩

/-- An answer to reset changes how much one block may carry, and nothing else about the codec. -/
theorem Quiet.adopted (answer : AnswerToReset) :
    Quiet s { s with codec := Step.adoptAnswer s answer, answer := some answer } := by
  have hcodec : Step.adoptAnswer s answer = s.codec ∨
      (Step.adoptAnswer s answer).Narrows s.settings.codec := by
    unfold Step.adoptAnswer
    split
    · exact .inr ⟨⟨rfl, rfl, rfl⟩, Codec.clampPayload_mono (Nat.min_le_left _ _)⟩
    · exact .inl rfl
  exact ⟨⟨rfl, rfl, hcodec, rfl, id, rfl, rfl, .refl _⟩, rfl, rfl, rfl, .inl rfl⟩

theorem Quiet.taken : Quiet s { s with parked := none } :=
  ⟨.books (.refl _), rfl, rfl, rfl, .inr rfl⟩

end Session

/-! ## Actions that maintain a fact -/

namespace Action

variable {ε L α β : Type} {I : Session L → Prop} {F : ε → Session L → Prop} {s : Session L}

/-- An end at which `I` is true of the session, and `F` of the reason if there is one. -/
def Kept (I : Session L → Prop) (F : ε → Session L → Prop) (r : Except (Stop ε) α)
    (s' : Session L) : Prop :=
  I s' ∧ ∀ reason, r = .error (.because reason) → F reason s'

/-- However it ends, `I` is still true, and `F` of the reason for which it fails. -/
def Maintains (I : Session L → Prop) (F : ε → Session L → Prop) (x : Action ε L α) : Prop :=
  ∀ s, I s → Ensures x s (Kept I F)

theorem kept_ok {a : α} (h : I s) : Kept I F (.ok a) s := ⟨h, nofun⟩

theorem kept_fault {reason : ε} (h : I s) (hreason : F reason s) :
    Kept I F (.error (.because reason) : Except (Stop ε) α) s := by
  refine ⟨h, fun other hsame => ?_⟩
  obtain rfl := Stop.because.inj (Except.error.inj hsame)
  exact hreason

/-- Where nothing is asked of the reason, any end will do. -/
theorem kept_any {r : Except (Stop ε) α} (h : I s) : Kept I (fun _ _ => True) r s :=
  ⟨h, fun _ _ => trivial⟩

theorem kept_crashed (h : I s) : Kept I F (.error .crashed : Except (Stop ε) α) s := ⟨h, nofun⟩

theorem kept_stalled (h : I s) : Kept I F (.error .stalled : Except (Stop ε) α) s := ⟨h, nofun⟩

/-- An action that ends early keeps what it would have kept with another value. -/
theorem Kept.error {stop : Stop ε} (h : Kept I F (.error stop : Except (Stop ε) α) s) :
    Kept I F (.error stop : Except (Stop ε) β) s := by
  refine ⟨h.1, fun reason hsame => h.2 reason ?_⟩
  rw [Except.error.inj hsame]

/-- What is kept by the second action is kept by both. -/
theorem kept_bind {x : Action ε L β} {f : β → Action ε L α} (hx : Ensures x s (Kept I F))
    (hf : ∀ b, (f b).Maintains I F) : Ensures (x >>= f) s (Kept I F) :=
  hx.bind (fun b s' h => hf b s' h.1) fun _ _ h => h.error

theorem Maintains.bind {x : Action ε L β} {f : β → Action ε L α} (hx : x.Maintains I F)
    (hf : ∀ b, (f b).Maintains I F) : (x >>= f).Maintains I F :=
  fun s h => kept_bind (hx s h) hf

theorem maintains_pure (a : α) : (pure a : Action ε L α).Maintains I F := fun _ h => kept_ok h

theorem maintains_get : (get : Action ε L (Session L)).Maintains I F := fun _ h => kept_ok h

theorem maintains_fail (reason : ε) :
    (fail reason : Action ε L α).Maintains I fun _ _ => True := fun _ h => kept_any (I := I) h

theorem maintains_onLink {g : L → α × L}
    (h : ∀ s, I s → I { s with link := (g s.link).2 }) :
    (onLink g : Action ε L α).Maintains I F := fun s hs => kept_ok (h s hs)

theorem maintains_modify {g : Session L → Session L} (h : ∀ s, I s → I (g s)) :
    (modify g : Action ε L PUnit).Maintains I F := fun s hs => kept_ok (h s hs)

theorem maintains_modify_bind {g : Session L → Session L} {f : PUnit → Action ε L α}
    (h : ∀ s, I s → I (g s)) (hf : ∀ u, (f u).Maintains I F) : (modify g >>= f).Maintains I F :=
  (maintains_modify h).bind hf

end Action

namespace Step

open SecureElement.Action Session

variable {L α β σ : Type} {I : Session L → Prop} {F : Setback → Session L → Prop} {s : Session L}

/-- A fault that is caught is still known for what it is. -/
theorem maintains_attempt_bind {step : Step L β} {f : Except Setback β → Step L α}
    (h : step.Maintains I F) (hok : ∀ b, (f (.ok b)).Maintains I F)
    (hcaught : ∀ setback s, I s → F setback s → Ensures (f (.error setback)) s (Kept I F)) :
    (attempt step >>= f).Maintains I F := by
  intro s hs
  refine ensures_attempt_bind (h s hs) ?_ ?_ ?_ ?_
  · intro b s' hend
    exact hok b s' hend.1
  · intro setback s' hend
    exact hcaught setback s' hend.1 (hend.2 setback rfl)
  · exact fun _ hend => kept_crashed hend.1
  · exact fun _ hend => kept_stalled hend.1

/-- Of the fault that a step ends in nothing is asked. -/
theorem maintains_conclude {step : Step L α} {onValue : α → Call L β} {onFault : Setback → Call L β}
    (h : step.Maintains I F) (hvalue : ∀ a, (onValue a).Maintains I fun _ _ => True)
    (hfault : ∀ setback, (onFault setback).Maintains I fun _ _ => True) :
    (step.conclude onValue onFault).Maintains I fun _ _ => True := by
  intro s hs
  refine ensures_conclude (h s hs) ?_ ?_ ?_ ?_
  · exact fun a s₁ h₁ => hvalue a s₁ h₁.1
  · exact fun setback s₁ h₁ => hfault setback s₁ h₁.1
  · exact fun _ h => kept_crashed h.1
  · exact fun _ h => kept_stalled h.1

theorem maintains_loop {round : σ → Step L (σ ⊕ α)} (h : ∀ state, (round state).Maintains I F) :
    ∀ (n : Nat) (state : σ), (loop round n state).Maintains I F
  | 0, _ => fun _ hs => kept_stalled hs
  | n + 1, state => by
      refine (h state).bind fun r => ?_
      cases r with
      | inl state' => exact maintains_loop h n state'
      | inr a => exact maintains_pure a

/-- What is staged is the block or nothing. -/
theorem stage_leaves (block : Block) (s : Session L) :
    Ensures (stage block) s fun _ s' => ∃ command, s' = { s with command } ∧
      command.capacity = s.command.capacity ∧
        (command.used = s.codec.layout block ∨ command.used = []) := by
  unfold stage
  rw [ensures_get_bind]
  dsimp only
  rw [ensures_set_bind]
  generalize hfilled : s.command.fill _ = filled
  have hroom : filled.2.capacity = s.command.capacity := by
    rw [← hfilled]
    exact Buffer.capacity_fill _ _
  have hused : filled.2.used = s.codec.layout block ∨ filled.2.used = [] := by
    cases hencode : s.codec.encodeWithin block s.command.clear.capacity with
    | ok frame =>
        obtain ⟨rfl, hfits⟩ := Codec.encodeWithin_eq_ok hencode
        rw [Buffer.capacity_clear] at hfits
        rw [← hfilled]
        exact Or.inl (Buffer.used_fill (by simp only [hencode]) hfits).2
    | error fault =>
        rw [← hfilled]
        exact Or.inr (Buffer.used_fill_refused (e := fault) (by simp only [hencode]))
  split
  · exact ⟨_, rfl, hroom, hused⟩
  · exact ⟨_, rfl, hroom, hused⟩

/-- Staging fails for the block and for nothing else. -/
theorem stage_fault (block : Block) (s : Session L) :
    Ensures (stage block) s fun r _ => ∀ setback, r = .error (.because setback) →
      ∃ fault, setback = .major (.ofBlock fault) := by
  unfold stage
  rw [ensures_get_bind]
  dsimp only
  rw [ensures_set_bind]
  split
  · exact nofun
  · rename_i fault _
    intro setback hr
    exact ⟨fault, (Stop.because.inj (Except.error.inj hr)).symm⟩

variable [Link L]

theorem maintains_sendCommand (h : ∀ frame, (transmit frame : Step L Unit).Maintains I F) :
    (sendCommand : Step L Unit).Maintains I F :=
  maintains_get.bind fun _ => h _

theorem maintains_sendControl (h : ∀ frame, (transmit frame : Step L Unit).Maintains I F)
    (hmild : ∀ {setback s}, I s → setback.IsMild → F setback s) (block : Block) :
    (sendControl block : Step L Unit).Maintains I F := by
  refine maintains_get.bind fun s => ?_
  split
  · exact fun s hs => kept_fault hs (hmild hs (Failure.ofBlock_requiresReopen _))
  · exact h _

/-- What it takes for `I` to be true throughout an exchange, and `F` of every fault in it. -/
structure Conduct (I : Session L → Prop) (F : Setback → Session L → Prop) : Prop where
  quiet : ∀ {s s'}, I s → Quiet s s' → I s'
  /-- A fault is what it is while books are kept. -/
  still : ∀ {setback s s'}, F setback s → Quiet s s' → F setback s'
  mild : ∀ {setback s}, I s → setback.IsMild → F setback s
  /-- A minor setback becomes major when the tries are used up. -/
  hardens : ∀ {failure s}, F (.minor failure) s → F (.major failure) s
  parked : ∀ {setback s}, I s → s.parked = some (.error setback) → F setback s
  parks : ∀ {received s}, I s →
    (∀ setback, received = .error setback →
      (∃ failure, setback = .minor failure) ∧ F setback s) →
    I { s with parked := some received }
  sendCommand : sendCommand.Maintains I F
  sendControl : ∀ {block}, block.control ≠ .response .wtx → (sendControl block).Maintains I F
  awaitRound : ∀ timeout, (awaitRound timeout).Maintains I F

namespace Conduct

variable (h : Conduct I F)

include h

theorem modify_bind {g : Session L → Session L} {f : PUnit → Step L α} (hg : ∀ s, Quiet s (g s))
    (hf : ∀ u, (f u).Maintains I F) : (modify g >>= f).Maintains I F :=
  maintains_modify_bind (fun s hs => h.quiet hs (hg s)) hf

theorem modify {g : Session L → Session L} (hg : ∀ s, Quiet s (g s)) :
    (modify g : Step L PUnit).Maintains I F :=
  maintains_modify fun s hs => h.quiet hs (hg s)

/-! ## Tries -/

/-- A charge passes on the fault that it is made for. -/
theorem charge {setback : Setback} (hs : I s) (hsetback : F setback s) :
    Ensures (charge setback) s (Kept I F) := by
  unfold Step.charge
  cases setback with
  | major failure => exact kept_fault hs hsetback
  | minor failure =>
      have hcharged : Quiet s { s with retries := s.retries + 1 } :=
        .books (.refl _)
      have hcounted : Quiet s { s with
          retries := s.retries + 1
          statistics.retransmissions := s.statistics.retransmissions + 1 } :=
        .books ⟨rfl, rfl, rfl, rfl, Nat.le_succ _, Nat.le_refl _⟩
      dsimp only
      rw [ensures_get_bind]
      split
      · rw [ensures_crash_bind]
        exact kept_crashed hs
      · rw [ensures_set_bind]
        split
        · rw [ensures_fail_bind]
          exact kept_fault (h.quiet hs hcharged) (h.hardens (h.still hsetback hcharged))
        · exact kept_ok (h.quiet hs hcounted)

/-- What comes in place of a block that would fit is charged for as a mild fault. -/
theorem charge_mild (setback : Setback) (hmild : setback.IsMild) :
    (Step.charge setback : Step L Unit).Maintains I F :=
  fun _ hs => h.charge hs (h.mild hs hmild)

theorem orCharge {step : Step L Unit} (hstep : step.Maintains I F) :
    (orCharge step).Maintains I F := by
  refine maintains_attempt_bind hstep (fun _ => maintains_pure _) ?_
  intro setback s hs hsetback
  exact h.charge hs hsetback

/-! ## Single blocks -/

theorem stage {block : Block} (hcontrol : block.control ≠ .response .wtx) :
    (stage block : Step L Unit).Maintains I F := by
  intro s hs
  refine ((stage_leaves block s).and (stage_fault block s)).mono ?_
  intro r s' hend
  obtain ⟨⟨command, rfl, hroom, hused⟩, hfault⟩ := hend
  have hgrant : Codec.isGrant command.used = false := by
    rcases hused with hblock | hnothing
    · rw [hblock, Codec.isGrant_layout]
      exact decide_eq_false hcontrol
    · rw [hnothing]
      exact Codec.isGrant_nil
  have hstaged : I { s with command } := h.quiet hs (.staged hroom hgrant)
  refine ⟨hstaged, fun setback hr => h.mild hstaged ?_⟩
  obtain ⟨fault, rfl⟩ := hfault setback hr
  exact Failure.ofBlock_requiresReopen fault

theorem awaitBlock : (awaitBlock : Step L Inbound).Maintains I F :=
  maintains_get.bind fun _ => maintains_loop h.awaitRound _ _

/-! ## Commands -/

theorem askUntil {ask : Step L Inbound} (hask : ask.Maintains I F) (answer : Control) :
    (askUntil ask answer).Maintains I F := by
  refine maintains_get.bind fun s => maintains_loop (fun _ => ?_) _ _
  refine maintains_attempt_bind hask (fun inbound => ?_) ?_
  · dsimp only
    split
    · exact maintains_pure _
    · exact (h.charge_mild (.minor _) inbound.rejection_requiresReopen).bind fun _ =>
        maintains_pure _
  · intro setback s hs hsetback
    exact kept_bind (h.charge hs hsetback) fun _ => maintains_pure _

theorem sendBlock {block : Block} (hcontrol : block.control ≠ .response .wtx) :
    (sendBlock block : Step L Unit).Maintains I F := by
  have hchained : (sendChained : Step L Unit).Maintains I F :=
    maintains_get.bind fun _ =>
      (h.askUntil (h.sendCommand.bind fun _ => h.awaitBlock) _).bind fun _ => maintains_pure _
  have hfinal : (sendFinal : Step L Unit).Maintains I F := by
    refine maintains_get.bind fun s => maintains_loop (fun _ => ?_) _ _
    refine maintains_attempt_bind h.sendCommand (fun _ => maintains_pure _) ?_
    intro setback s hs hsetback
    exact kept_bind (h.charge hs hsetback) fun _ => maintains_pure _
  have hnumbered : ∀ s : Session L, Quiet s { s with sendSeq := s.sendSeq.next } :=
    fun _ => .books (.refl _)
  refine (h.stage hcontrol).bind fun _ =>
    h.modify_bind (fun _ => .books (.refl _)) fun _ => ?_
  split
  · exact hchained.bind fun _ => h.modify hnumbered
  · exact hfinal.bind fun _ => h.modify hnumbered

theorem sendBlocks :
    ∀ (n : Nat) (chain : Chain), (sendBlocks n chain : Step L Unit).Maintains I F
  | 0, _ => maintains_pure _
  | n + 1, chain => by
      unfold Step.sendBlocks
      split
      · exact maintains_pure _
      · rename_i block rest hnext
        obtain ⟨hcontrol, -⟩ := Chain.next?_eq_some hnext
        refine (h.sendBlock ?_).bind fun _ => sendBlocks n _
        rw [hcontrol]
        exact nofun

/-- A command starts without what is left of the exchange before it. -/
theorem sendChain (command : Bytes) (hs : I s.resetExchange) :
    Ensures (sendChain command : Step L Unit) s (Kept I F) := by
  have hstarted : Quiet s.resetExchange
      { s.resetExchange with response := s.response.clear, commandPending := false } :=
    .collected s.response.capacity_clear
  unfold Step.sendChain
  rw [ensures_modify_bind, ensures_get_bind]
  refine kept_bind (h.sendBlocks _ _ _ (h.quiet hs hstarted)) fun _ => ?_
  exact h.modify fun _ => .books (.refl _)

/-! ## Responses -/

theorem accept (inbound : Inbound) (more : Bool) :
    (accept inbound more : Step L Bool).Maintains I F := by
  intro s hs
  unfold Step.accept
  rw [ensures_get_bind]
  split
  · exact kept_crashed hs
  · split
    · exact kept_fault hs (h.mild hs rfl)
    · rename_i response happend
      rw [ensures_set_bind]
      have haccepted : I { s with
          response, recvSeq := s.recvSeq.next, commandPending := false, retries := 0 } :=
        h.quiet hs (.collected (Buffer.capacity_append happend))
      split
      · exact kept_ok haccepted
      · exact ((h.orCharge (h.sendControl (s.codec.ready_control_ne _ _))).bind fun _ =>
          maintains_pure false) _ haccepted

theorem refuse (receipt : Receipt) : (refuse receipt : Step L Unit).Maintains I F :=
  maintains_get.bind fun s => h.orCharge (h.sendControl (s.codec.ready_control_ne _ _))

/-- What came in place of the block that is expected next is known for what it is. -/
theorem reject {setback : Setback} {receipt : Receipt} (hs : I s) (hsetback : F setback s) :
    Ensures (reject setback receipt) s (Kept I F) :=
  kept_bind (h.charge hs hsetback) fun _ => h.refuse receipt

/-- The next block, or the fault in its place, with what is known of it. -/
theorem nextBlock (hs : I s) :
    Ensures (nextBlock : Step L (Except Setback Inbound)) s fun r s' =>
      I s' ∧ match r with
        | .ok (.ok _) => True
        | .ok (.error setback) => F setback s'
        | .error stop => ∀ setback, stop ≠ .because setback := by
  unfold Step.nextBlock
  rw [ensures_get_bind, ensures_set_bind]
  split
  · rename_i parked hparked
    refine ⟨h.quiet hs .taken, ?_⟩
    cases parked with
    | ok inbound => trivial
    | error setback => exact h.still (h.parked hs hparked) .taken
  · refine ensures_attempt (h.awaitBlock _ (h.quiet hs .taken)) ?_ ?_ ?_ ?_
    · exact fun _ _ hend => ⟨hend.1, trivial⟩
    · exact fun setback _ hend => ⟨hend.1, hend.2 setback rfl⟩
    · exact fun _ hend => ⟨hend.1, nofun⟩
    · exact fun _ hend => ⟨hend.1, nofun⟩

theorem dealWith {received : Except Setback Inbound} (hs : I s)
    (hreceived : ∀ setback, received = .error setback → F setback s) :
    Ensures (dealWith received) s (Kept I F) := by
  have hagain : ∀ _ : Unit, (pure (.inl ()) : Step L (Unit ⊕ Unit)).Maintains I F :=
    fun _ => maintains_pure _
  cases received with
  | error setback => exact kept_bind (h.reject hs (hreceived setback rfl)) hagain
  | ok inbound =>
      have hrejected : ∀ receipt, Ensures (Step.reject (.minor inbound.rejection) receipt) s
          (Kept I F) :=
        fun _ => h.reject hs (h.mild hs inbound.rejection_requiresReopen)
      unfold Step.dealWith
      rw [ensures_get_bind]
      split
      · split
        · refine kept_bind (h.accept inbound _ s hs) fun complete => ?_
          split
          · exact maintains_pure _
          · exact hagain ()
        · exact kept_bind (hrejected _) hagain
      · split
        · refine kept_bind (h.charge_mild (.minor (.violation .commandLost)) rfl s hs) fun _ => ?_
          exact (h.orCharge h.sendCommand).bind hagain
        · exact kept_bind (hrejected _) hagain
      · exact kept_bind (hrejected _) hagain

theorem receiveRound : (receiveRound () : Step L (Unit ⊕ Unit)).Maintains I F := by
  intro s hs
  refine (h.nextBlock hs).bind ?_ ?_
  · intro received s₁ hend
    refine h.dealWith hend.1 fun setback hsetback => ?_
    subst hsetback
    exact hend.2
  · intro stop s₁ hend
    exact ⟨hend.1, fun setback hstop => absurd (Except.error.inj hstop) (hend.2 setback)⟩

theorem receiveResponse : (receiveResponse : Step L Unit).Maintains I F :=
  h.modify_bind (fun s => .collected s.response.capacity_clear) fun _ =>
    maintains_get.bind fun _ => maintains_loop (fun _ => h.receiveRound) _ _

/-! ## Supervision -/

theorem supervise (function : Supervisory) :
    (supervise function : Step L Inbound).Maintains I F :=
  h.modify_bind (fun _ => .books (.refl _)) fun _ =>
    maintains_get.bind fun s => h.askUntil
      ((h.sendControl (s.codec.request_control_ne function)).bind fun _ => h.awaitBlock) _

theorem resetInterface : (resetInterface : Step L Unit).Maintains I F := by
  refine (h.supervise .softReset).bind fun inbound => ?_
  intro s hs
  rw [ensures_get_bind]
  split
  · exact kept_crashed hs
  · split
    · rename_i answer _
      exact kept_ok (h.quiet hs (.adopted answer))
    · exact kept_ok (h.quiet hs (.books (.refl _)))

theorem resynchronise : (resynchronise : Step L Unit).Maintains I F := by
  have hcounted : ∀ s : Session L,
      Quiet s { s with statistics.resyncs := s.statistics.resyncs + 1 } :=
    fun _ => .books ⟨rfl, rfl, rfl, rfl, Nat.le_refl _, Nat.le_succ _⟩
  exact (h.supervise .resync).bind fun _ => h.modify_bind hcounted fun _ =>
    h.modify fun _ => .books (.refl _)

/-- A reset of the interface forgets the exchange before it, as a command does. -/
theorem renewInterface (hs : I s.resetExchange) :
    Ensures (renewInterface : Step L Unit) s (Kept I F) := by
  have hstarted : Quiet s.resetExchange { s.resetExchange with commandPending := false } :=
    .books (.refl _)
  unfold Step.renewInterface
  rw [ensures_modify_bind]
  refine kept_bind (h.resetInterface _ (h.quiet hs hstarted)) fun _ => ?_
  exact h.modify fun _ => .books (.refl _)

theorem endApplication : (endApplication : Step L Unit).Maintains I F :=
  (h.supervise .endApduSession).bind fun _ => maintains_pure _

/-- A handshake runs against the deadline that it sets. -/
theorem handshake (hs : I { s with deadline := s.deadlineFromNow }) :
    Ensures (handshake : Step L Unit) s (Kept I F) := by
  unfold Session.handshake
  rw [ensures_modify_bind, ensures_get_bind]
  split
  · exact h.resetInterface _ hs
  · exact kept_bind (h.supervise .resync _ hs) fun _ => maintains_pure _

/-! ## Recovery -/

theorem resyncOnce : (resyncOnce : Step L Unit).Maintains I F := by
  refine maintains_get.bind fun s =>
    (h.sendControl (s.codec.request_control_ne .resync)).bind fun _ =>
      h.awaitBlock.bind fun inbound => ?_
  split
  · exact fun s hs => kept_fault hs (h.mild hs inbound.rejection_requiresReopen)
  · exact maintains_pure _

theorem resyncAttempts :
    ∀ n, (Session.resyncAttempts n : Call L Bool).Maintains I fun _ _ => True
  | 0 => maintains_pure _
  | n + 1 => maintains_conclude h.resyncOnce (fun _ => maintains_pure _) fun _ => resyncAttempts n

/-! ## Waiting ahead -/

theorem park : (park : Step L Unit).Maintains I F := by
  refine maintains_attempt_bind h.awaitBlock (fun inbound => ?_) ?_
  · exact maintains_modify fun s hs => h.parks hs nofun
  · intro setback s hs hsetback
    cases setback with
    | major failure => exact kept_fault hs hsetback
    | minor failure =>
        refine kept_ok (h.parks hs fun other hsame => ?_)
        obtain rfl := Except.error.inj hsame
        exact ⟨⟨failure, rfl⟩, hsetback⟩

end Conduct

/-- **What both steps keep, every exchange keeps**, those that renew the session from there on. -/
theorem Conduct.exchange {L : Type} [Link L] {I : Session (Link.Traced L) → Prop}
    {F : Setback → Session (Link.Traced L) → Prop} (h : Conduct I F) {request : Request}
    {exchange : Step (Link.Traced L) Unit} (hexchange : request.exchange? = some exchange)
    {s : Session (Link.Traced L)} (hs : ¬ request.Renews → I s)
    (hrenewed : request.Renews → I s.resetExchange) : Ensures exchange s (Kept I F) := by
  cases request with
  | send command =>
      obtain rfl := Option.some.inj hexchange
      exact h.sendChain command (hrenewed trivial)
  | softReset =>
      obtain rfl := Option.some.inj hexchange
      exact h.renewInterface (hrenewed trivial)
  | receive =>
      obtain rfl := Option.some.inj hexchange
      exact h.receiveResponse s (hs id)
  | prefetch =>
      obtain rfl := Option.some.inj hexchange
      exact h.park s (hs id)
  | resync =>
      obtain rfl := Option.some.inj hexchange
      exact h.resynchronise s (hs id)
  | endApduSession =>
      obtain rfl := Option.some.inj hexchange
      exact h.endApplication s (hs id)
  | establish | close | transceive _ | reset | dropResponse => exact absurd hexchange nofun

end Step

namespace Session

open SecureElement.Action Link

variable {L : Type} [Link L] {settings : Settings} {s : Session (Traced L)}

/-! ## What every call keeps to -/

/-- What it takes for `I` to be true of a session whatever is done with it. -/
structure Regime (I : Session (Traced L) → Prop) : Prop where
  offline : ∀ {s s'}, I s → Offline s s' → I s'
  sendCommand : (Step.sendCommand : Step (Traced L) Unit).Maintains I fun _ _ => True
  sendControl : ∀ {block}, block.control ≠ .response .wtx →
    (Step.sendControl block : Step (Traced L) Unit).Maintains I fun _ _ => True
  awaitRound : ∀ timeout,
    (Step.awaitRound timeout : Step (Traced L) (Nanos ⊕ Inbound)).Maintains I fun _ _ => True
  raised : ∀ {s}, I s → I { s with link := (Link.bringUp s.link).2 }
  released : ∀ {s}, I s → I { s with link := Link.release s.link }

namespace Regime

variable {ε α : Type} {I : Session (Traced L) → Prop} (h : Regime I)

include h

theorem conduct : Step.Conduct I fun _ _ => True where
  quiet := fun hs hquiet => h.offline hs hquiet.toOffline
  still := fun _ _ => trivial
  mild := fun _ _ => trivial
  hardens := fun _ => trivial
  parked := fun _ _ => trivial
  parks := fun hs _ => h.offline hs (.books (.refl _))
  sendCommand := h.sendCommand
  sendControl := h.sendControl
  awaitRound := h.awaitRound

theorem modify_bind {g : Session (Traced L) → Session (Traced L)}
    {f : PUnit → Action ε (Traced L) α} (hg : ∀ s, Offline s (g s))
    (hf : ∀ u, (f u).Maintains I fun _ _ => True) :
    (modify g >>= f).Maintains I fun _ _ => True :=
  maintains_modify_bind (fun s hs => h.offline hs (hg s)) hf

theorem modify {g : Session (Traced L) → Session (Traced L)} (hg : ∀ s, Offline s (g s)) :
    (modify g : Action ε (Traced L) PUnit).Maintains I fun _ _ => True :=
  maintains_modify fun s hs => h.offline hs (hg s)

theorem moveTo (status : Status) :
    (moveTo status : Action ε (Traced L) Unit).Maintains I fun _ _ => True := by
  refine maintains_get.bind fun s => ?_
  split
  · exact h.modify fun _ => .books (.refl _)
  · exact fun _ hs => kept_any hs

/-! ## Recovery -/

theorem recover (failure : Failure) : (Session.recover failure).Maintains I fun _ _ => True := by
  have hcounted : ∀ s : Session (Traced L),
      Offline s { s with statistics.resyncs := s.statistics.resyncs + 1 } :=
    fun _ => .books ⟨rfl, rfl, rfl, rfl, Nat.le_refl _, Nat.le_succ _⟩
  refine maintains_get.bind fun s => ?_
  split
  · exact maintains_pure _
  · refine (h.moveTo _).bind fun _ =>
      h.modify_bind (fun _ => .cleared) fun _ =>
        maintains_get.bind fun _ => (h.conduct.resyncAttempts _).bind fun succeeded => ?_
    split
    · exact h.modify_bind hcounted fun _ =>
        h.modify_bind (fun _ => .books (.refl _)) fun _ =>
          (h.moveTo _).bind fun _ => maintains_pure _
    · exact (maintains_modify fun _ => h.released).bind fun _ =>
        (h.moveTo _).bind fun _ => maintains_pure _

/-! ## Calls -/

theorem begin : (Session.begin : Call (Traced L) Unit).Maintains I fun _ _ => True := by
  have hready : ∀ s : Session (Traced L),
      Offline s { s with retries := 0, deadline := s.deadlineFromNow } :=
    fun _ => .books (.refl _)
  refine maintains_get.bind fun s => ?_
  split
  · exact maintains_fail _
  · exact maintains_fail _
  · exact maintains_fail _
  · exact (h.moveTo _).bind fun _ => h.modify hready
  · exact (h.moveTo _).bind fun _ => h.modify hready

theorem run {request : Request} {exchange : Step (Traced L) Unit}
    (hexchange : request.exchange? = some exchange) :
    (Session.run exchange).Maintains I fun _ _ => True := by
  have hended : ∀ s : Session (Traced L), Offline s { s with deadline := none } :=
    fun _ => .books (.refl _)
  have hforgets : ∀ s : Session (Traced L), Offline s s.resetExchange :=
    fun _ => .books (.refl _)
  have hexchanges : exchange.Maintains I fun _ _ => True := fun s hs =>
    h.conduct.exchange hexchange (fun _ => hs) fun _ => h.offline hs (hforgets s)
  refine h.begin.bind fun _ =>
    Step.maintains_conclude hexchanges (fun u => ?_) fun setback => ?_
  · exact h.modify_bind hended fun _ => (h.moveTo _).bind fun _ => maintains_pure u
  · exact h.modify_bind hended fun _ => (h.recover _).bind fun _ => maintains_fail _

/-- Opening starts over with the codec of the settings. -/
theorem establish : (Session.establish : Call (Traced L) Unit).Maintains I fun _ _ => True := by
  have hrenewed : ∀ s : Session (Traced L), Offline s
      { s.resetSequence.resetExchange with codec := s.settings.codec, answer := none } :=
    fun _ => ⟨rfl, rfl, .inr (.refl _), rfl, id, rfl, rfl, .refl _⟩
  refine maintains_get.bind fun s => ?_
  split
  · exact maintains_pure _
  · refine (maintains_onLink fun _ => h.raised).bind fun outcome => ?_
    cases outcome with
    | error fault => exact maintains_fail _
    | ok u =>
        refine h.modify_bind hrenewed fun _ => Step.maintains_conclude
          (fun s hs => h.conduct.handshake ?_) (fun _ => ?_) fun setback => ?_
        · exact h.offline hs (.books (.refl _))
        · exact h.modify_bind (fun _ => .books (.refl _)) fun _ => h.moveTo _
        · refine (maintains_modify fun s hs => ?_).bind fun _ => maintains_fail _
          exact h.offline (h.released hs) (.books (.refl _))

/-- Only an open session lets go of its link. -/
theorem close {s : Session (Traced L)} (hs : I s) : I s.close := by
  refine h.offline (s := { s with
    link := if s.status.isOpen then Link.release s.link else s.link }) ?_ .cleared
  split
  · exact h.released hs
  · exact hs

/-- **What every step with the link keeps, and all that is done without it, every call keeps.** -/
theorem perform (request : Request) {s : Session (Traced L)} (hs : I s) :
    I ((Session.perform request).final s) := by
  refine (perform_keeps request hs ?_ ?_ h.close ?_).final
  · exact fun request _ _ hexchange hs => (h.run hexchange _ hs).mono fun _ _ hkept => hkept.1
  · exact fun hs => (h.establish _ hs).mono fun _ _ hkept => hkept.1
  · exact fun hs => h.offline hs .cleared

end Regime

end Session

end SecureElement
