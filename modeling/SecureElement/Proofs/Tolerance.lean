import SecureElement.Proofs.Guarantees
import SecureElement.Proofs.Vexation

/-!
# How much an exchange tolerates

`Vexation` is about the wait for one block. Here the waits of a whole exchange are put
together. What a link owes is a `Row`: blocks with numbers that follow one another, each
behind its own vexations. The count of tries starts again with every block, so a row is
tolerated if every block of it is, however many vexations there are in all.

* `Goes` and `Gains` say what a row leaves behind when the session sends and when it
  collects. Both are closed under composition (`Goes.trans`, `Gains.trans`), which is what
  the inductions run on.
* `sendBlocks_acknowledged` and `receiveRounds_announced` take a row, by induction on it,
  and leave open what comes behind it.
* What comes behind it is the last block, or one vexation too many. So each of them is
  used twice: `sendChain_tolerates` and `sendChain_spent`, `receiveResponse_tolerates` and
  `receiveResponse_spent`.
-/

namespace SecureElement

open Link

/-! ## What is owed -/

/-- Blocks that come in a row, each numbered behind the one before it, and each behind no more
vexations than the budget allows. The number at the end counts the vexations. -/
inductive Row (terms : Terms) (awaited : Seq → Control → Prop) (owed : Seq → Control) :
    Seq → List Block → List Arrival → Nat → Prop where
  | none {seq : Seq} : Row terms awaited owed seq [] [] 0
  | next {seq : Seq} {vexations arrivals : List Arrival} {raw : Bytes} {block : Block}
      {blocks : List Block} {n : Nat} :
      Comes terms (awaited seq) vexations raw block → block.control = owed seq →
      Row terms awaited owed seq.next blocks arrivals n →
      Row terms awaited owed seq (block :: blocks)
        (vexations ++ .block raw :: arrivals) (vexations.length + n)

/-- The type of the block that acknowledges the command block with this number. -/
def acknowledgement (seq : Seq) : Control := .ready seq.next .clean

/-- The acknowledgements of command blocks from this number on. -/
def Acknowledged (terms : Terms) : Seq → List Block → List Arrival → Nat → Prop :=
  Row terms (fun seq control => control = acknowledgement seq) acknowledgement

/-- Blocks of a response from this number on, each of which announces another. -/
def Announced (terms : Terms) : Seq → List Block → List Arrival → Nat → Prop :=
  Row terms Awaits (.information · true)

namespace Buffer

/-- What there is room for is appended. -/
theorem exists_append {b : Buffer} {bytes : Bytes}
    (h : b.used.length + bytes.length ≤ b.capacity) : ∃ b', b.append bytes = .ok b' := by
  have hcells := b.length_used_add_room
  have hroom : bytes.length ≤ b.room := by omega
  unfold append claim
  rw [if_pos hroom]
  exact ⟨_, rfl⟩

end Buffer

namespace Codec

/-- A payload that the codec allows fits into the room that is set aside for a block. -/
theorem encodeWithin_information {c : Codec} {block : Block} {room : Nat}
    (hpayload : block.payload.length ≤ c.maxPayload) (hroom : c.frameCapacity ≤ room) :
    c.encodeWithin block room = .ok (c.layout block) := by
  have hlimit : c.maxPayload ≤ c.payloadLimit block.control := by
    unfold payloadLimit
    split
    · exact Nat.le_refl _
    · exact c.maxPayload_le
  have hlength : c.frameLength block.payload.length ≤ c.frameCapacity := frameLength_le rfl hpayload
  unfold encodeWithin encode
  rw [if_neg (by omega)]
  simp only [bind, Except.bind]
  rw [if_neg (by omega)]

end Codec

theorem Chain.payload_next_le {c rest : Chain} {block : Block} (h : c.next? = some (block, rest)) :
    block.payload.length ≤ c.codec.maxPayload := by
  unfold next? at h
  split at h
  · exact absurd h nofun
  · obtain ⟨rfl, -⟩ := Prod.mk.inj (Option.some.inj h)
    exact List.length_take_le _ _

/-- A chain of which no block is left is done. -/
theorem Chain.done_of_blocks {c : Chain} (h : c.blocks.length = 0) : c.done = true := by
  cases hdone : c.done with
  | true => rfl
  | false =>
      obtain ⟨block, rest, hnext⟩ := Chain.exists_next hdone
      have hblocks := congrArg List.length (Chain.blocks_next hnext)
      rw [List.length_cons] at hblocks
      omega

namespace Step

open SecureElement.Action Session

variable {L : Type} {s s' s₁ s₂ : Session L} {Holds : L → List Arrival → Prop}
  {arrivals : List Arrival} {terms : Terms} {m n m' n' : Nat}

/-! ## Sending -/

/-- So many blocks were sent, and so many tries were charged on the way. -/
def Goes (s : Session L) (blocks tries : Nat) (s' : Session L) : Prop :=
  ∃ link frame retries statistics command, s' = { s with
      link, frame, retries, statistics, command
      sendSeq := Seq.next^[blocks] s.sendSeq }
    ∧ frame.capacity = s.frame.capacity
    ∧ statistics.retransmissions = s.statistics.retransmissions + tries
    ∧ statistics.resyncs = s.statistics.resyncs
    ∧ command.capacity = s.command.capacity

theorem Goes.refl (s : Session L) : Goes s 0 0 s :=
  ⟨s.link, s.frame, s.retries, s.statistics, s.command, rfl, rfl, rfl, rfl, rfl⟩

theorem Goes.trans (h₁ : Goes s m n s₁) (h₂ : Goes s₁ m' n' s₂) : Goes s (m + m') (n + n') s₂ := by
  obtain ⟨link₁, frame₁, retries₁, statistics₁, command₁, rfl, hframe₁, hcount₁, hresyncs₁,
    hcommand₁⟩ := h₁
  obtain ⟨link₂, frame₂, retries₂, statistics₂, command₂, rfl, hframe₂, hcount₂, hresyncs₂,
    hcommand₂⟩ := h₂
  dsimp only at hframe₂ hcount₂ hresyncs₂ hcommand₂
  refine ⟨link₂, frame₂, retries₂, statistics₂, command₂, ?_, hframe₂.trans hframe₁, ?_,
    hresyncs₂.trans hresyncs₁, hcommand₂.trans hcommand₁⟩
  · rw [Nat.add_comm m m', Function.iterate_add_apply]
  · omega

/-- A block that fits is staged. -/
theorem stage_fits {block : Block} (hpayload : block.payload.length ≤ s.codec.maxPayload)
    (hroom : s.codec.frameCapacity ≤ s.command.capacity) :
    Ensures (stage block) s fun r s' =>
      r = .ok () ∧ ∃ command, s' = { s with command } ∧ command.capacity = s.command.capacity := by
  have hencode : s.codec.encodeWithin block s.command.clear.capacity
      = .ok (s.codec.layout block) :=
    Codec.encodeWithin_information hpayload (by rw [Buffer.capacity_clear]; exact hroom)
  unfold stage
  rw [ensures_get_bind]
  dsimp only
  rw [ensures_set_bind]
  generalize hfilled : s.command.fill _ = filled
  have hcapacity : filled.2.capacity = s.command.capacity := by
    rw [← hfilled]
    exact Buffer.capacity_fill _ _
  have hok : filled.1 = .ok () := by
    rw [← hfilled]
    unfold Buffer.fill
    simp only [hencode]
  rw [hok]
  exact ⟨rfl, _, rfl, hcapacity⟩

theorem Advances.goes (h : Advances s n s') : Goes s 0 n s' := by
  obtain ⟨link, frame, retries, statistics, rfl, hframe, hcount, hresyncs⟩ := h
  exact ⟨link, frame, retries, statistics, s.command, rfl, hframe, hcount, hresyncs, rfl⟩

theorem Goes.terms_eq (h : Goes s m n s') : s'.terms = s.terms := by
  obtain ⟨link, frame, retries, statistics, command, rfl, hframe, -⟩ := h
  unfold Session.terms
  rw [hframe]

/-- One more block is out. -/
theorem Goes.advance (h : Goes s m n s') :
    Goes s (m + 1) n { s' with sendSeq := s'.sendSeq.next } := by
  obtain ⟨link, frame, retries, statistics, command, rfl, hrest⟩ := h
  refine ⟨link, frame, retries, statistics, command, ?_, hrest⟩
  rw [Function.iterate_succ_apply']

variable [Link L]

/-- A session that sends a command, over a link that follows a script. -/
structure Sending (terms : Terms) (Holds : L → List Arrival → Prop) (s : Session L) : Prop where
  attends : Attends Holds s
  terms : s.terms = terms
  /-- The count of tries can get beyond the budget. -/
  count : s.settings.blockRetransmits < counterMax
  pending : s.commandPending = false
  room : s.codec.frameCapacity ≤ s.command.capacity

theorem Sending.goes (h : Sending terms Holds s) (hgoes : Goes s m n s') :
    Sending terms Holds s' := by
  have hterms := hgoes.terms_eq
  obtain ⟨link, frame, retries, statistics, command, rfl, hframe, -, -, hcommand⟩ := hgoes
  exact {
    attends := ⟨h.attends.script, h.attends.timeout, by rw [hframe]; exact h.attends.capacity⟩
    terms := hterms.trans h.terms
    count := h.count
    pending := h.pending
    room := by rw [hcommand]; exact h.room }

/-- A command that is taken with the first try is sent once. -/
theorem sendFinal_once {P : Session L → Prop}
    (h : Ensures sendCommand s fun r s' => r = .ok () ∧ P s') :
    Ensures sendFinal s fun r s' => r = .ok () ∧ P s' := by
  have hround : Ensures (sendFinalRound ()) s fun r s' => r = .ok (.inr ()) ∧ P s' := by
    unfold sendFinalRound
    exact (ensures_attempt_ok h).bind_ok fun s₁ hend => ⟨rfl, hend⟩
  unfold sendFinal
  rw [ensures_get_bind]
  exact hround.bind_ok fun s₁ hend => ⟨rfl, hend⟩

/-- The last block of a command is taken at once. -/
theorem sendFinal_taken (h : Attends Holds s) (hholds : Holds s.link arrivals) :
    Ensures sendFinal s fun r s' => r = .ok () ∧ Advances s 0 s' ∧ Holds s'.link arrivals :=
  sendFinal_once ((sendCommand_taken h hholds).mono
    fun _ _ hend => ⟨hend.1, hend.2.1, hend.2.2.2⟩)

/-- Whatever becomes of a block, it is staged first, and its budget is a fresh one. -/
theorem sendBlock_begun {block : Block} {Q : Except (Stop Setback) Unit → Session L → Prop}
    (hroom : s.codec.frameCapacity ≤ s.command.capacity)
    (hpayload : block.payload.length ≤ s.codec.maxPayload)
    (hrest : ∀ s₁, Goes s 0 0 s₁ → s₁.retries = 0 → s₁.link = s.link → Ensures (do
      if block.control.isChained then sendChained else sendFinal
      modify fun s => { s with sendSeq := s.sendSeq.next }) s₁ Q) :
    Ensures (sendBlock block) s Q := by
  unfold sendBlock
  refine (stage_fits hpayload hroom).bind_ok fun s₁ hend => ?_
  obtain ⟨command, rfl, hcommand⟩ := hend
  rw [ensures_modify_bind]
  exact hrest _ ⟨s.link, s.frame, 0, s.statistics, command, rfl, rfl, rfl, rfl, hcommand⟩ rfl rfl

theorem sendBlock_last {block : Block} (h : Sending terms Holds s)
    (hpayload : block.payload.length ≤ s.codec.maxPayload)
    (hcontrol : block.control = .information s.sendSeq false) (hholds : Holds s.link arrivals) :
    Ensures (sendBlock block) s fun r s' =>
      r = .ok () ∧ Goes s 1 0 s' ∧ Holds s'.link arrivals := by
  refine sendBlock_begun h.room hpayload fun s₁ hgoes _ hlink => ?_
  have hlast : ¬ block.control.isChained = true := by
    rw [hcontrol]
    exact Bool.false_ne_true
  rw [if_neg hlast]
  refine (sendFinal_taken (h.goes hgoes).attends (by rw [hlink]; exact hholds)).bind_ok ?_
  intro s₂ hend
  obtain ⟨hadvances, hrest⟩ := hend
  exact ⟨rfl, (hgoes.trans hadvances.goes).advance, hrest⟩

theorem sendBlock_acknowledged {block receipt : Block} {vexations : List Arrival} {raw : Bytes}
    (h : Sending terms Holds s) (hpayload : block.payload.length ≤ s.codec.maxPayload)
    (hcontrol : block.control = .information s.sendSeq true)
    (hcomes : Comes terms (· = acknowledgement s.sendSeq) vexations raw receipt)
    (hreceipt : receipt.control = acknowledgement s.sendSeq)
    (hholds : Holds s.link (vexations ++ .block raw :: arrivals)) :
    Ensures (sendBlock block) s fun r s' =>
      r = .ok () ∧ Goes s 1 vexations.length s' ∧ Holds s'.link arrivals := by
  refine sendBlock_begun h.room hpayload fun s₁ hgoes hfresh hlink => ?_
  have hsending := h.goes hgoes
  have hseq : s₁.sendSeq = s.sendSeq := by
    obtain ⟨link, frame, retries, statistics, command, rfl, -⟩ := hgoes
    rfl
  rw [if_pos (by rw [hcontrol]; rfl)]
  have hasked : Ensures sendChained s₁ fun r s' =>
      r = .ok () ∧ Advances s₁ vexations.length s' ∧ Holds s'.link arrivals := by
    unfold sendChained
    rw [ensures_get_bind]
    dsimp only
    rw [hseq]
    rw [← hsending.terms] at hcomes
    have hserved : ¬ (Arrival.block raw).IsServed s₁.codec :=
      Arrival.unserved hcomes.decode (by rw [hreceipt]; nofun) (by rw [hreceipt]; nofun)
    refine (askUntil_answered hsending.attends hsending.count hsending.pending hfresh hcomes hserved
      hreceipt (by rw [hlink]; exact hholds)).bind ?_ ?_
    · intro inbound s₂ hend
      exact ⟨rfl, hend.2⟩
    · intro stop s₂ hend
      obtain ⟨⟨inbound, hr⟩, -⟩ := hend
      exact absurd hr nofun
  refine hasked.bind_ok fun s₂ hend => ?_
  obtain ⟨hadvances, hrest⟩ := hend
  have hall := (hgoes.trans hadvances.goes).advance
  rw [Nat.zero_add vexations.length] at hall
  exact ⟨rfl, hall, hrest⟩

theorem sendBlock_spent {block : Block} {vexations : List Arrival} {last : Arrival}
    (h : Sending terms Holds s) (hpayload : block.payload.length ≤ s.codec.maxPayload)
    (hcontrol : block.control = .information s.sendSeq true)
    (hexceeds : Exceeds terms (· = acknowledgement s.sendSeq) vexations last)
    (hholds : Holds s.link (vexations ++ last :: arrivals)) :
    Ensures (sendBlock block) s fun r _ => r = .error (.because (.major (s.blame last))) := by
  refine sendBlock_begun h.room hpayload fun s₁ hgoes hfresh hlink => ?_
  have hsending := h.goes hgoes
  have hseq : s₁.sendSeq = s.sendSeq := by
    obtain ⟨link, frame, retries, statistics, command, rfl, -⟩ := hgoes
    rfl
  rw [if_pos (by rw [hcontrol]; rfl)]
  have hasked : Ensures sendChained s₁ fun r _ =>
      r = .error (.because (.major (s.blame last))) := by
    unfold sendChained
    rw [ensures_get_bind]
    dsimp only
    have hblame : s₁.blame last = s.blame last :=
      blame_settled (congrArg Terms.codec hgoes.terms_eq) h.pending hsending.pending
    rw [← hsending.terms] at hexceeds
    rw [hseq, ← hblame]
    refine (askUntil_spent hsending.attends hsending.count hsending.pending hfresh hexceeds
      (by rw [hlink]; exact hholds)).bind ?_ ?_
    · intro inbound s₂ hend
      exact absurd hend nofun
    · intro stop s₂ hend
      rw [Except.error.inj hend]
  refine hasked.bind ?_ ?_
  · intro u s₂ hend
    exact absurd hend nofun
  · intro stop s₂ hend
    exact hend

/-! ## A whole command -/

/-- A place in a chain from which a session goes on. -/
structure Continues (s : Session L) (chain : Chain) : Prop where
  codec : chain.codec = s.codec
  seq : chain.seq = s.sendSeq
  done : chain.done = false

omit [Link L] in
theorem Continues.payload_le {chain rest : Chain} {block : Block} (h : Continues s chain)
    (hnext : chain.next? = some (block, rest)) : block.payload.length ≤ s.codec.maxPayload := by
  have hle := Chain.payload_next_le hnext
  rw [h.codec] at hle
  exact hle

/-- **A row of acknowledgements takes a command forward by as many blocks.** -/
theorem sendBlocks_acknowledged {Q : Except (Stop Setback) Unit → Session L → Prop} {seq : Seq}
    {acks : List Block} {sending : List Arrival}
    (hrow : Acknowledged terms seq acks sending n) :
    ∀ (chain : Chain) (s : Session L), Sending terms Holds s → Continues s chain →
      s.sendSeq = seq → acks.length < chain.blocks.length → Holds s.link (sending ++ arrivals) →
      (∀ (rest : Chain) (s' : Session L), Continues s' rest →
        chain.blocks.length = acks.length + rest.blocks.length → Goes s acks.length n s' →
        Holds s'.link arrivals → Ensures (sendBlocks rest.remaining rest) s' Q) →
      Ensures (sendBlocks chain.remaining chain) s Q := by
  induction hrow with
  | none =>
      intro chain s _ hchain _ _ hholds hrest
      exact hrest chain s hchain (Nat.zero_add _).symm (Goes.refl s) hholds
  | @next seq vexations arrivals' raw receipt acks' n' hcomes hreceipt _ ih =>
      intro chain s hsending hchain hseq hmore hholds hrest
      obtain ⟨block, rest, hnext⟩ := Chain.exists_next hchain.done
      obtain ⟨hcontrol, hrestSeq, hrestCodec⟩ := Chain.next?_eq_some hnext
      have hblocks := congrArg List.length (Chain.blocks_next hnext)
      rw [List.length_cons] at hblocks hmore
      -- others are to be acknowledged, so this block is not the last
      have hdone : rest.done = false := by
        refine Bool.eq_false_iff.mpr fun hdone => ?_
        rw [Chain.blocks_of_done hdone, List.length_nil] at hblocks
        omega
      rw [hchain.seq, hdone] at hcontrol
      rw [List.append_assoc, List.cons_append] at hholds
      rw [Chain.remaining_next hnext]
      unfold sendBlocks
      rw [hnext]
      subst hseq
      refine (sendBlock_acknowledged hsending (hchain.payload_le hnext) hcontrol hcomes hreceipt
        hholds).bind_ok fun s₁ hend => ?_
      obtain ⟨hgoes, hholds₁⟩ := hend
      have hseq : s₁.sendSeq = s.sendSeq.next := by
        obtain ⟨link, frame, retries, statistics, command, rfl, -⟩ := hgoes
        rfl
      have hcodec : s₁.codec = s.codec := congrArg Terms.codec hgoes.terms_eq
      refine ih rest s₁ (hsending.goes hgoes) ⟨?_, ?_, hdone⟩ hseq (by omega) hholds₁ ?_
      · rw [hrestCodec, hchain.codec, hcodec]
      · rw [hrestSeq, hchain.seq, hseq]
      · intro rest' s₂ hchain' hlength hgoes' hholds₂
        have hall := hgoes.trans hgoes'
        rw [Nat.add_comm 1] at hall
        refine hrest rest' s₂ hchain' ?_ hall hholds₂
        rw [List.length_cons]
        omega

/-- A session before the first block of a command. -/
def cleared (s : Session L) : Session L :=
  { s.resetExchange with response := s.response.clear, commandPending := false }

/-- A command is followed from the place up to which it was acknowledged. -/
theorem sendChain_acknowledged {command : Bytes} {acks : List Block} {sending : List Arrival}
    {Q : Except (Stop Setback) Unit → Session L → Prop} (h : Sending s.terms Holds (cleared s))
    (hrow : Acknowledged s.terms s.sendSeq acks sending n)
    (hmore : acks.length < (Chain.ofPayload s.codec command s.sendSeq).blocks.length)
    (hholds : Holds s.link (sending ++ arrivals))
    (hrest : ∀ (rest : Chain) (s' : Session L), Continues s' rest →
      (Chain.ofPayload s.codec command s.sendSeq).blocks.length = acks.length + rest.blocks.length →
      Goes (cleared s) acks.length n s' → Holds s'.link arrivals →
      Ensures (sendBlocks rest.remaining rest) s' fun r s₁ =>
        (∀ u, r = .ok u → Q (.ok ()) { s₁ with commandPending := true })
          ∧ ∀ stop, r = .error stop → Q (.error stop) s₁) :
    Ensures (sendChain command) s Q := by
  have hcontinues : Continues (cleared s) (Chain.ofPayload s.codec command s.sendSeq) :=
    ⟨rfl, rfl, rfl⟩
  unfold sendChain
  rw [ensures_modify_bind, ensures_get_bind]
  refine (sendBlocks_acknowledged hrow _ (cleared s) h hcontinues rfl hmore hholds hrest).bind
    ?_ ?_
  · intro u s₁ hend
    exact hend.1 u rfl
  · intro stop s₁ hend
    exact hend.2 stop rfl

/-- **A command goes out if no acknowledgement is behind more vexations than the budget allows.** -/
theorem sendChain_tolerates {command : Bytes} {acks : List Block} {sending : List Arrival}
    (h : Sending s.terms Holds (cleared s))
    (hrow : Acknowledged s.terms s.sendSeq acks sending n)
    (hcount : (Chain.ofPayload s.codec command s.sendSeq).blocks.length = acks.length + 1)
    (hholds : Holds s.link (sending ++ arrivals)) :
    Ensures (sendChain command) s fun r s' => r = .ok () ∧ ∃ s₁,
      Goes (cleared s) (acks.length + 1) n s₁ ∧ s' = { s₁ with commandPending := true } := by
  refine sendChain_acknowledged h hrow (by omega) hholds ?_
  -- only the last block is left
  intro rest s₁ hcontinues hlength hgoes hholds₁
  obtain ⟨block, behind, hnext⟩ := Chain.exists_next hcontinues.done
  obtain ⟨hcontrol, -⟩ := Chain.next?_eq_some hnext
  have hblocks := congrArg List.length (Chain.blocks_next hnext)
  rw [List.length_cons] at hblocks
  have hdone : behind.done = true := by
    apply Chain.done_of_blocks
    omega
  rw [hcontinues.seq, hdone] at hcontrol
  have hnone : behind.remaining = 0 := by
    rw [Chain.remaining, if_pos hdone]
  rw [Chain.remaining_next hnext, hnone]
  unfold sendBlocks
  rw [hnext]
  refine (sendBlock_last (h.goes hgoes) (hcontinues.payload_le hnext) hcontrol hholds₁).bind_ok ?_
  intro s₂ hend
  have hall := hgoes.trans hend.1
  refine ⟨fun _ _ => ⟨rfl, s₂, hall, rfl⟩, fun stop hstop => ?_⟩
  cases hstop

/-- **A command is given up with the first vexation beyond the budget.** -/
theorem sendChain_spent {command : Bytes} {acks : List Block} {sending vexations : List Arrival}
    {last : Arrival} {seq : Seq} (h : Sending s.terms Holds (cleared s))
    (hrow : Acknowledged s.terms s.sendSeq acks sending n)
    (hcount : acks.length + 1 < (Chain.ofPayload s.codec command s.sendSeq).blocks.length)
    (hseq : seq = Seq.next^[acks.length] s.sendSeq)
    (hexceeds : Exceeds s.terms (· = acknowledgement seq) vexations last)
    (hholds : Holds s.link (sending ++ (vexations ++ last :: arrivals))) :
    Ensures (sendChain command) s fun r _ =>
      r = .error (.because (.major ((cleared s).blame last))) := by
  refine sendChain_acknowledged h hrow (by omega) hholds ?_
  intro rest s₁ hcontinues hlength hgoes hholds₁
  obtain ⟨block, behind, hnext⟩ := Chain.exists_next hcontinues.done
  obtain ⟨hcontrol, -⟩ := Chain.next?_eq_some hnext
  have hblocks := congrArg List.length (Chain.blocks_next hnext)
  rw [List.length_cons] at hblocks
  have hdone : behind.done = false := by
    refine Bool.eq_false_iff.mpr fun hdone => ?_
    rw [Chain.blocks_of_done hdone, List.length_nil] at hblocks
    omega
  rw [hcontinues.seq, hdone] at hcontrol
  have hsending := h.goes hgoes
  have hseq₁ : s₁.sendSeq = seq := by
    obtain ⟨link, frame, retries, statistics, command, rfl, -⟩ := hgoes
    exact hseq.symm
  subst hseq₁
  have hblame : s₁.blame last = (cleared s).blame last :=
    blame_settled (congrArg Terms.codec hgoes.terms_eq) h.pending hsending.pending
  rw [Chain.remaining_next hnext, ← hblame]
  unfold sendBlocks
  rw [hnext]
  refine (sendBlock_spent hsending (hcontinues.payload_le hnext) hcontrol hexceeds hholds₁).bind
    ?_ ?_
  · intro u s₂ hend
    cases hend
  · intro stop s₂ hend
    refine ⟨fun u hu => ?_, fun stop' hstop => hstop.symm.trans hend⟩
    cases hu

/-! ## A whole response -/

/-- So many blocks were accepted, with this payload in them, and so many tries were charged on the
way. -/
def Gains (s : Session L) (blocks tries : Nat) (payload : Bytes) (s' : Session L) : Prop :=
  ∃ link frame statistics response, s' = { s with
      link, frame, statistics, response
      recvSeq := Seq.next^[blocks] s.recvSeq
      commandPending := s.commandPending && blocks == 0
      retries := 0 }
    ∧ frame.capacity = s.frame.capacity
    ∧ statistics.retransmissions = s.statistics.retransmissions + tries
    ∧ statistics.resyncs = s.statistics.resyncs
    ∧ response.used = s.response.used ++ payload
    ∧ response.capacity = s.response.capacity

omit [Link L] in
theorem Gains.refl (h : s.retries = 0) : Gains s 0 0 [] s := by
  refine ⟨s.link, s.frame, s.statistics, s.response, ?_, rfl, rfl, rfl,
    (List.append_nil _).symm, rfl⟩
  rw [Function.iterate_zero_apply, beq_self_eq_true, Bool.and_true, ← h]

omit [Link L] in
theorem Gains.trans {payload payload' : Bytes} (h₁ : Gains s m n payload s₁)
    (h₂ : Gains s₁ m' n' payload' s₂) : Gains s (m + m') (n + n') (payload ++ payload') s₂ := by
  obtain ⟨link₁, frame₁, statistics₁, response₁, rfl, hframe₁, hcount₁, hresyncs₁, hused₁,
    hresponse₁⟩ := h₁
  obtain ⟨link₂, frame₂, statistics₂, response₂, rfl, hframe₂, hcount₂, hresyncs₂, hused₂,
    hresponse₂⟩ := h₂
  dsimp only at hframe₂ hcount₂ hresyncs₂ hused₂ hresponse₂
  refine ⟨link₂, frame₂, statistics₂, response₂, ?_, hframe₂.trans hframe₁, ?_,
    hresyncs₂.trans hresyncs₁, ?_, hresponse₂.trans hresponse₁⟩
  · have hnone : (s.commandPending && m == 0 && m' == 0) = (s.commandPending && m + m' == 0) := by
      cases m with
      | zero => rw [Nat.zero_add, beq_self_eq_true, Bool.and_true]
      | succ m => simp
    dsimp only
    rw [Nat.add_comm m m', Function.iterate_add_apply, hnone, Nat.add_comm m m']
  · omega
  · rw [hused₂, hused₁, List.append_assoc]

omit [Link L] in
theorem Gains.terms_eq {payload : Bytes} (h : Gains s m n payload s') : s'.terms = s.terms := by
  obtain ⟨link, frame, statistics, response, rfl, hframe, -⟩ := h
  unfold Session.terms
  rw [hframe]

omit [Link L] in
/-- Tries that were charged before a block was accepted. -/
theorem Advances.gains {payload : Bytes} (h₁ : Advances s n s₁) (h₂ : Gains s₁ m n' payload s₂) :
    Gains s m (n + n') payload s₂ := by
  obtain ⟨link₁, frame₁, retries₁, statistics₁, rfl, hframe₁, hcount₁, hresyncs₁⟩ := h₁
  obtain ⟨link₂, frame₂, statistics₂, response₂, rfl, hframe₂, hcount₂, hresyncs₂, hresponse⟩ := h₂
  dsimp only at hframe₂ hcount₂ hresyncs₂
  refine ⟨link₂, frame₂, statistics₂, response₂, rfl, hframe₂.trans hframe₁, ?_,
    hresyncs₂.trans hresyncs₁, hresponse⟩
  omega

omit [Link L] in
/-- An acknowledgement that costs nothing. -/
theorem Gains.advances {payload : Bytes} (h₁ : Gains s m n payload s₁) (h₂ : Advances s₁ 0 s₂)
    (hretries : s₂.retries = s₁.retries) : Gains s m n payload s₂ := by
  obtain ⟨link₁, frame₁, statistics₁, response₁, rfl, hframe₁, hcount₁, hresyncs₁, hresponse⟩ := h₁
  obtain ⟨link₂, frame₂, retries₂, statistics₂, rfl, hframe₂, hcount₂, hresyncs₂⟩ := h₂
  dsimp only at hretries hframe₂ hcount₂ hresyncs₂
  subst hretries
  exact ⟨link₂, frame₂, statistics₂, response₁, rfl, hframe₂.trans hframe₁, hcount₂.trans hcount₁,
    hresyncs₂.trans hresyncs₁, hresponse⟩

/-- The link has no part in what is gained. -/
theorem Attends.gains {payload : Bytes} (h : Attends Holds s)
    (hgains : Gains s m n payload s') : Attends Holds s' := by
  obtain ⟨link, frame, statistics, response, rfl, hframe, -⟩ := hgains
  exact ⟨h.script, h.timeout, by rw [hframe]; exact h.capacity⟩

/-- A session that collects a response, over a link that follows a script. -/
structure Collecting (terms : Terms) (Holds : L → List Arrival → Prop) (s : Session L) : Prop where
  attends : Attends Holds s
  terms : s.terms = terms
  /-- The count of tries can get beyond the budget. -/
  count : s.settings.blockRetransmits < counterMax
  parked : s.parked = none
  fresh : s.retries = 0

theorem Collecting.gains {payload : Bytes} (h : Collecting terms Holds s)
    (hgains : Gains s m n payload s') : Collecting terms Holds s' := by
  have hterms := hgains.terms_eq
  have hattends := h.attends.gains hgains
  obtain ⟨link, frame, statistics, response, rfl, -⟩ := hgains
  exact {
    attends := hattends
    terms := hterms.trans h.terms
    count := h.count
    parked := h.parked
    fresh := rfl }

/-- A payload for which there is room is kept before anything else is done. -/
theorem accept_keeps {inbound : Inbound} {payload : Bytes} {more : Bool}
    {Q : Except (Stop Setback) Bool → Session L → Prop}
    (hpayload : inbound.payload? s.frame.used = some payload)
    (hroom : s.response.used.length + payload.length ≤ s.response.capacity)
    (hrest : ∀ s₁, Gains s 1 0 payload s₁ → s₁.link = s.link → Ensures (do
      if !more then return true
      orCharge (sendControl (s.codec.ready s.recvSeq.next .clean))
      return false) s₁ Q) :
    Ensures (accept inbound more) s Q := by
  obtain ⟨response, happend⟩ := Buffer.exists_append hroom
  unfold accept
  rw [ensures_get_bind, hpayload]
  dsimp only
  rw [happend]
  dsimp only
  rw [ensures_set_bind]
  refine hrest _ ⟨s.link, s.frame, s.statistics, response, ?_, rfl, rfl, rfl,
    Buffer.used_append happend, Buffer.capacity_append happend⟩ rfl
  rw [show ((1 : Nat) == 0) = false from rfl, Bool.and_false, Function.iterate_one]

/-- A payload for which there is room is accepted, and acknowledged if others follow. -/
theorem accept_gains {inbound : Inbound} {payload : Bytes} {more : Bool} (h : Attends Holds s)
    (hholds : Holds s.link arrivals) (hpayload : inbound.payload? s.frame.used = some payload)
    (hroom : s.response.used.length + payload.length ≤ s.response.capacity) :
    Ensures (accept inbound more) s fun r s' =>
      r = .ok (!more) ∧ Gains s 1 0 payload s' ∧ Holds s'.link arrivals := by
  refine accept_keeps hpayload hroom fun s₁ hgains hlink => ?_
  rw [← hlink] at hholds
  cases more with
  | false => exact ⟨rfl, hgains, hholds⟩
  | true =>
      have hready : Ensures (orCharge (sendControl (s.codec.ready s.recvSeq.next .clean))) s₁
          fun r s' => r = .ok () ∧ Advances s₁ 0 s' ∧ s'.retries = s₁.retries
            ∧ Holds s'.link arrivals :=
        (ensures_congr (orCharge_congr (sendControl_ready _ _ _ _))).mpr
          (orCharge_taken _ (h.gains hgains) hholds)
      refine hready.bind_ok fun s₂ hend => ?_
      obtain ⟨hadvances, hretries, hrest⟩ := hend
      exact ⟨rfl, hgains.advances hadvances hretries, hrest⟩

/-- The block awaited is accepted, and another round follows if another block does. -/
theorem receiveRound_accepts {raw : Bytes} {block : Block} {more : Bool} (h : Attends Holds s)
    (hparked : s.parked = none) (hholds : Holds s.link (.block raw :: arrivals))
    (hfits : (Arrival.block raw).Fits s.codec.epilogue s.frame.capacity)
    (hdecode : s.codec.decode raw = .ok block)
    (hcontrol : block.control = .information s.recvSeq more)
    (hroom : s.response.used.length + block.payload.length ≤ s.response.capacity) :
    Ensures (receiveRound ()) s fun r s' =>
      r = .ok (if more then .inl () else .inr ()) ∧ Gains s 1 0 block.payload s'
        ∧ Holds s'.link arrivals := by
  unfold receiveRound
  have hserved : ¬ (Arrival.block raw).IsServed s.codec :=
    Arrival.unserved hdecode (by rw [hcontrol]; nofun) (by rw [hcontrol]; nofun)
  refine (nextBlock_heard h hparked hholds hfits hserved).bind ?_ ?_
  · intro received s₁ hend
    obtain ⟨received', hr, ⟨⟨hadvances, -⟩, hheard⟩, hrest⟩ := hend
    obtain rfl := Except.ok.inj hr
    simp only [hdecode] at hheard
    obtain ⟨inbound, hinbound, harrived⟩ := hheard
    have hreceived : received = .ok inbound := by
      cases received with
      | ok inbound' => exact congrArg Except.ok (Except.ok.inj hinbound)
      | error setback => exact absurd hinbound nofun
    subst hreceived
    have hattends := h.advances hadvances
    have hseq : inbound.control = .information s₁.recvSeq more := by
      obtain ⟨link, frame, retries, statistics, rfl, -⟩ := hadvances
      exact harrived.control.trans hcontrol
    have hpayload : inbound.payload? s₁.frame.used = some block.payload := by
      rw [harrived.used]
      exact harrived.payload
    have hroom₁ : s₁.response.used.length + block.payload.length ≤ s₁.response.capacity := by
      obtain ⟨link, frame, retries, statistics, rfl, -⟩ := hadvances
      exact hroom
    refine (ensures_congr (dealWith_awaited hseq)).mpr ?_
    refine (accept_gains hattends hrest hpayload hroom₁).bind_ok fun s₂ hend => ?_
    obtain ⟨hgains, hrest'⟩ := hend
    have hall := hadvances.gains hgains
    cases more with
    | false => exact ⟨rfl, hall, hrest'⟩
    | true => exact ⟨rfl, hall, hrest'⟩
  · intro stop s₁ hend
    obtain ⟨received, hr, -⟩ := hend
    exact absurd hr nofun

/-- **One block is accepted, whatever vexed before it**, as long as the budget allows that. The loop
may only run out of rounds. -/
theorem receiveRounds_comes {Q : Except (Stop Setback) Unit → Session L → Prop}
    {vexations : List Arrival} {raw : Bytes} {block : Block} {more : Bool}
    (h : Collecting terms Holds s)
    (hcomes : Comes terms (Awaits s.recvSeq) vexations raw block)
    (hcontrol : block.control = .information s.recvSeq more)
    (hholds : Holds s.link (vexations ++ .block raw :: arrivals))
    (hroom : s.response.used.length + block.payload.length ≤ s.response.capacity)
    (hstalled : ∀ s', Q (.error .stalled) s')
    (hmore : more = true → ∀ (rounds : Nat) (s' : Session L),
      Gains s 1 vexations.length block.payload s' → Holds s'.link arrivals →
      Ensures (loop receiveRound rounds ()) s' Q)
    (hlast : more = false → ∀ s', Gains s 1 vexations.length block.payload s' → Q (.ok ()) s') :
    ∀ rounds : Nat, Ensures (loop receiveRound rounds ()) s Q := by
  intro rounds
  rw [← h.terms] at hcomes
  have hwithin : vexations.length ≤ s.settings.blockRetransmits := hcomes.within
  have hfresh := h.fresh
  refine loop_vexed (receiveRound_charges h.attends h.count h.parked) vexations rounds 0 s
    (Advances.refl s) hcomes.vexes hholds (by omega) (fun _ => hstalled) ?_
  intro s₁ hadvances _ hholds₁
  rw [Nat.zero_add] at hadvances
  cases rounds - vexations.length with
  | zero => exact hstalled s₁
  | succ rounds' =>
      have hattends := h.attends.advances hadvances
      have hfits := hadvances.fits hcomes.fits
      have hdecode : s₁.codec.decode raw = .ok block := by
        rw [hadvances.codec]
        exact hcomes.decode
      have hround : Ensures (receiveRound ()) s₁ fun r s' =>
          r = .ok (if more then .inl () else .inr ()) ∧ Gains s₁ 1 0 block.payload s'
            ∧ Holds s'.link arrivals := by
        obtain ⟨link, frame, retries, statistics, rfl, -⟩ := hadvances
        exact receiveRound_accepts hattends h.parked hholds₁ hfits hdecode hcontrol hroom
      refine hround.bind_ok fun s₂ hend => ?_
      obtain ⟨hgains, hrest⟩ := hend
      have hall := hadvances.gains hgains
      cases more with
      | true => exact hmore rfl rounds' s₂ hall hrest
      | false => exact hlast rfl s₂ hall

/-- **A row of blocks is accepted one after the other.** -/
theorem receiveRounds_announced {Q : Except (Stop Setback) Unit → Session L → Prop} {seq : Seq}
    {blocks : List Block} {receiving : List Arrival}
    (hrow : Announced terms seq blocks receiving n)
    (hstalled : ∀ s', Q (.error .stalled) s') :
    ∀ (rounds : Nat) (s : Session L), Collecting terms Holds s → s.recvSeq = seq →
      s.response.used.length + (blocks.map Block.payload).flatten.length ≤ s.response.capacity →
      Holds s.link (receiving ++ arrivals) →
      (∀ (rounds : Nat) (s' : Session L),
        Gains s blocks.length n (blocks.map Block.payload).flatten s' → Holds s'.link arrivals →
        Ensures (loop receiveRound rounds ()) s' Q) →
      Ensures (loop receiveRound rounds ()) s Q := by
  induction hrow with
  | none =>
      intro rounds s h _ _ hholds hrest
      exact hrest rounds s (Gains.refl h.fresh) hholds
  | @next seq vexations arrivals' raw block blocks' n' hcomes hcontrol _ ih =>
      intro rounds s h hseq hroom hholds hrest
      rw [List.map_cons, List.flatten_cons, List.length_append] at hroom
      rw [List.append_assoc, List.cons_append] at hholds
      subst hseq
      refine receiveRounds_comes h hcomes hcontrol hholds (by omega) hstalled ?_ nofun rounds
      intro _ rounds' s₁ hgains hholds₁
      have hmoved : s₁.recvSeq = s.recvSeq.next
          ∧ s₁.response.used.length = s.response.used.length + block.payload.length
          ∧ s₁.response.capacity = s.response.capacity := by
        obtain ⟨link, frame, statistics, response, rfl, -, -, -, hused, hcapacity⟩ := hgains
        refine ⟨rfl, ?_, hcapacity⟩
        rw [hused, List.length_append]
      refine ih rounds' s₁ (h.gains hgains) hmoved.1 ?_ hholds₁ ?_
      · rw [hmoved.2.1, hmoved.2.2]
        omega
      · intro rounds'' s₂ hgains' hholds₂
        have hall := hgains.trans hgains'
        rw [Nat.add_comm 1] at hall
        exact hrest rounds'' s₂ hall hholds₂

/-- A session before the first block of a response. -/
def emptied (s : Session L) : Session L := { s with response := s.response.clear }

/-- **A response is collected if none of its blocks is behind more vexations than the budget
allows.** -/
theorem receiveResponse_tolerates {blocks : List Block} {block : Block}
    {receiving vexations : List Arrival} {raw : Bytes} {seq : Seq}
    (h : Collecting s.terms Holds (emptied s))
    (hrow : Announced s.terms s.recvSeq blocks receiving n)
    (hseq : seq = Seq.next^[blocks.length] s.recvSeq)
    (hcomes : Comes s.terms (Awaits seq) vexations raw block)
    (hcontrol : block.control = .information seq false)
    (hroom : ((blocks ++ [block]).map Block.payload).flatten.length ≤ s.response.capacity)
    (hholds : Holds s.link (receiving ++ (vexations ++ .block raw :: arrivals))) :
    Ensures receiveResponse s fun r s' => r = .error .stalled ∨ r = .ok () ∧
      Gains (emptied s) (blocks.length + 1) (n + vexations.length)
        ((blocks ++ [block]).map Block.payload).flatten s' := by
  have hpayload : ((blocks ++ [block]).map Block.payload).flatten
      = (blocks.map Block.payload).flatten ++ block.payload := by
    rw [List.map_append, List.flatten_append, List.map_singleton, List.flatten_singleton]
  rw [hpayload, List.length_append] at hroom
  have hempty : (emptied s).response.used.length = 0
      ∧ (emptied s).response.capacity = s.response.capacity := by
    unfold emptied
    rw [Buffer.used_clear, Buffer.capacity_clear]
    exact ⟨rfl, rfl⟩
  unfold receiveResponse
  rw [ensures_modify_bind, ensures_get_bind]
  refine receiveRounds_announced hrow (fun _ => .inl rfl) _ (emptied s) h rfl (by omega) hholds ?_
  intro rounds s₁ hgains hholds₁
  have hmoved : s₁.recvSeq = seq ∧ s₁.response.used.length + block.payload.length
      ≤ s₁.response.capacity := by
    obtain ⟨link, frame, statistics, response, rfl, -, -, -, hused, hcapacity⟩ := hgains
    refine ⟨hseq.symm, ?_⟩
    rw [hused, hcapacity, List.length_append]
    omega
  rw [← hmoved.1] at hcomes hcontrol
  refine receiveRounds_comes (h.gains hgains) hcomes hcontrol hholds₁ hmoved.2
    (fun _ => .inl rfl) nofun ?_ rounds
  intro _ s₂ hgains'
  rw [hpayload]
  exact .inr ⟨rfl, hgains.trans hgains'⟩

/-- **A response is given up with the first vexation beyond the budget.** -/
theorem receiveResponse_spent {blocks : List Block} {receiving vexations : List Arrival}
    {last : Arrival} {seq : Seq} (h : Collecting s.terms Holds (emptied s))
    (hrow : Announced s.terms s.recvSeq blocks receiving n)
    (hseq : seq = Seq.next^[blocks.length] s.recvSeq)
    (hexceeds : Exceeds s.terms (Awaits seq) vexations last)
    (hroom : (blocks.map Block.payload).flatten.length ≤ s.response.capacity)
    (hholds : Holds s.link (receiving ++ (vexations ++ last :: arrivals))) :
    Ensures receiveResponse s fun r _ => r = .error .stalled ∨ r = .error (.because (.major
      ({ s with commandPending := s.commandPending && blocks.isEmpty }.blame last))) := by
  have hempty : (emptied s).response.used.length = 0
      ∧ (emptied s).response.capacity = s.response.capacity := by
    unfold emptied
    rw [Buffer.used_clear, Buffer.capacity_clear]
    exact ⟨rfl, rfl⟩
  unfold receiveResponse
  rw [ensures_modify_bind, ensures_get_bind]
  refine receiveRounds_announced hrow (fun _ => .inl rfl) _ (emptied s) h rfl (by omega) hholds ?_
  intro rounds s₁ hgains hholds₁
  have hcollecting := h.gains hgains
  have hsame : s₁.recvSeq = seq ∧ s₁.blame last = Session.blame
      { s with commandPending := s.commandPending && blocks.isEmpty } last := by
    obtain ⟨link, frame, statistics, response, rfl, -⟩ := hgains
    refine ⟨hseq.symm, ?_⟩
    cases blocks with
    | nil => rfl
    | cons block blocks => rfl
  have hrounds : Charges Holds (Awaits s₁.recvSeq) s₁ receiveRound :=
    receiveRound_charges hcollecting.attends hcollecting.count hcollecting.parked
  rw [hsame.1] at hrounds
  rw [← hcollecting.terms] at hexceeds
  refine (loop_spent hrounds hexceeds hcollecting.fresh hholds₁).mono ?_
  intro r s₂ hend
  rcases hend with hr | ⟨hr, -⟩
  · rw [hsame.2] at hr
    exact .inr hr
  · exact .inl hr

end Step

end SecureElement
