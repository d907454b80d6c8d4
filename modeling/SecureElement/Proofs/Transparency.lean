import SecureElement.Proofs.Guarantees
import SecureElement.Proofs.Progress
import SecureElement.Proofs.Rehearsed
import SecureElement.Proofs.Tolerance

/-!
# A faulty link, as a caller sees it

`Tolerance` follows the exchanges. Here they are calls again: a session between two calls
(`Rested`) sends a command, collects the response, and recovers if that was given up.

* `send_tolerates` and `receive_tolerates` are the calls that succeed. What `Sent` leaves
  behind is again between two calls, so the two compose to `Exchanges`.
* `run_fails` is about the calls that do not. A recovery comes behind them, and it either
  hands on what the exchange failed with or reports that it did not succeed itself.
* `transceive_tolerance` is the result: within the budget of every block the response is
  the one that was sent, and one vexation beyond it is an error.

A block has to have room in the frame. `transceive_tolerance_oversized` shows that this
cannot be left out, as the length of a block is judged before it is read.
-/

namespace SecureElement

open Link

namespace Session

open SecureElement.Action Step

variable {L : Type} [Link L] {settings : Settings} {s s' s₁ : Session (Traced L)} {k l m n : Nat}

/-! ## Between two calls -/

omit [Link L] in
/-- A session between two calls that has parked nothing. -/
structure Rested (s : Session (Traced L)) : Prop where
  ready : s.status.isReady = true
  parked : s.parked = none
  capacity : Block.longPrologue ≤ s.frame.capacity
  timeout : 0 < s.settings.blockTimeout
  count : s.settings.blockRetransmits < counterMax
  room : s.codec.frameCapacity ≤ s.command.capacity

/-- A block that the codec allows can be staged. -/
theorem Reachable.room (h : Reachable settings s) :
    s.codec.frameCapacity ≤ s.command.capacity := by
  have hequipped := h.equipped
  rw [hequipped.command]
  exact Codec.frameLength_le hequipped.epilogue hequipped.payload

theorem Reachable.rested (h : Reachable settings s) (hready : s.status.isReady = true)
    (hparked : s.parked = none) (hcount : settings.blockRetransmits < counterMax) : Rested s where
  ready := hready
  parked := hparked
  capacity := h.sound.capacity
  timeout := by
    rw [h.sound.settings]
    exact h.blockTimeout_pos
  count := by
    rw [h.sound.settings]
    exact hcount
  room := h.room

/-! ## One call after the other -/

/-- A command was sent in so many blocks, and so many tries were charged on the way. -/
def Sent (s : Session (Traced L)) (blocks tries : Nat) (s' : Session (Traced L)) : Prop :=
  ∃ link frame retries statistics command, s' = { s with
      link, frame, retries, statistics, command
      status := .idle
      sendSeq := Seq.next^[blocks] s.sendSeq
      response := s.response.clear
      parked := none
      extension := {}
      deadline := none
      commandPending := true }
    ∧ frame.capacity = s.frame.capacity
    ∧ statistics.retransmissions = s.statistics.retransmissions + tries
    ∧ statistics.resyncs = s.statistics.resyncs
    ∧ command.capacity = s.command.capacity

/-- A command was exchanged for a response, and so many tries were charged on the way. Apart from
what the link and the buffers hold this is all that is different. -/
def Exchanges (s : Session (Traced L)) (sent accepted tries : Nat) (bytes : Bytes)
    (s' : Session (Traced L)) : Prop :=
  ∃ link frame statistics command response, s' = { s with
      link, frame, statistics, command, response
      status := .idle
      sendSeq := Seq.next^[sent] s.sendSeq
      recvSeq := Seq.next^[accepted] s.recvSeq
      retries := 0
      parked := none
      extension := {}
      deadline := none
      commandPending := false }
    ∧ response.used = bytes
    ∧ statistics.retransmissions = s.statistics.retransmissions + tries
    ∧ statistics.resyncs = s.statistics.resyncs

omit [Link L] in
theorem Sent.terms_eq (h : Sent s k n s₁) : s₁.terms = s.terms := by
  obtain ⟨link, frame, retries, statistics, command, rfl, hframe, -⟩ := h
  unfold terms
  rw [hframe]

omit [Link L] in
theorem Sent.rested (h : Rested s) (hsent : Sent s k n s₁) : Rested s₁ := by
  obtain ⟨link, frame, retries, statistics, command, rfl, hframe, -, -, hcommand⟩ := hsent
  exact {
    ready := rfl
    parked := rfl
    capacity := by rw [hframe]; exact h.capacity
    timeout := h.timeout
    count := h.count
    room := by rw [hcommand]; exact h.room }

theorem Sent.exchanges {bytes : Bytes} {s₂ : Session (Traced L)} (hsent : Sent s k m s₁)
    (hgains : Gains (emptied s₁.begun) (l + 1) n bytes s₂) :
    Exchanges s k (l + 1) (m + n) bytes { s₂ with status := .idle, deadline := none } := by
  have hempty : (emptied s₁.begun).response.used = [] := Buffer.used_clear _
  obtain ⟨link, frame, retries, statistics, command, rfl, -, hcount, hresyncs, -⟩ := hsent
  obtain ⟨link', frame', statistics', response, rfl, -, hcount', hresyncs', hused, -⟩ := hgains
  refine ⟨link', frame', statistics', command, response, rfl, ?_, ?_, hresyncs'.trans hresyncs⟩
  · rw [hused, hempty, List.nil_append]
  · have hsum : statistics'.retransmissions = statistics.retransmissions + n := hcount'
    omega

/-- The link brings these arrivals to a call that starts now, before the call runs out of time. -/
def Meets (s : Session (Traced L)) (arrivals : List Arrival) : Prop :=
  Plays s.settings.blockTimeout s.begun.deadline s.link arrivals

theorem Rested.sending (h : Rested s) {Holds : Traced L → List Arrival → Prop}
    (hscript : Script s.settings.blockTimeout s.begun.deadline Holds) :
    Sending s.terms Holds (cleared s.begun) where
  attends := ⟨hscript, h.timeout, h.capacity⟩
  terms := rfl
  count := h.count
  pending := rfl
  room := h.room

theorem Rested.collecting (h : Rested s) {Holds : Traced L → List Arrival → Prop}
    (hscript : Script s.settings.blockTimeout s.begun.deadline Holds) :
    Collecting s.terms Holds (emptied s.begun) where
  attends := ⟨hscript, h.timeout, h.capacity⟩
  terms := rfl
  count := h.count
  parked := h.parked
  fresh := rfl

theorem send_tolerates {command : Bytes} {acks : List Block} {sending : List Arrival}
    (h : Rested s) (hrow : Acknowledged s.terms s.sendSeq acks sending m)
    (hlength : (s.commandBlocks command).length = acks.length + 1) (hmeets : s.Meets sending) :
    Ensures (send command) s fun r s₁ => r = .ok () ∧ Sent s (acks.length + 1) m s₁ := by
  obtain ⟨Holds, hscript, hholds⟩ := hmeets
  have hall : Holds s.begun.link (sending ++ []) := by
    rw [List.append_nil]
    exact hholds
  refine ensures_run_ok h.ready (sendChain_tolerates (s := s.begun) (h.sending hscript) hrow hlength
    hall) ?_
  intro s₁ hend
  obtain ⟨s₂, hgoes, rfl⟩ := hend
  obtain ⟨link, frame, retries, statistics, command, rfl, hframe, hcount, hresyncs, hcommand⟩ :=
    hgoes
  exact ⟨rfl, link, frame, retries, statistics, command, rfl, hframe, hcount, hresyncs, hcommand⟩

variable [Truthful L]

/-- A call whose exchange fails says so, or that recovery was exhausted. -/
theorem run_fails (request : Request) {exchange : Step (Traced L) Unit} {failure : Failure}
    (hexchange : request.exchange? = some exchange) (h : Rested s) (hends : exchange.Ends)
    (hfails : Ensures exchange s.begun fun r _ =>
      r = .error .stalled ∨ r = .error (.because (.major failure))) :
    Ensures (run exchange) s fun r _ => ∃ told, r = .error (.because told) ∧
      (told = failure ∨ told = .recoveryExhausted) := by
  have hexchanged := exchange_exchanged (s := s.begun) hexchange h.capacity (Nat.zero_le _)
    (parkedOrdinary_of_none h.parked)
  refine ensures_run h.ready ((hfails.and hexchanged).and (hends s.begun)) ?_ ?_ ?_ ?_
  · intro u s₁ hend
    obtain ⟨⟨hr, -⟩, -⟩ := hend
    rcases hr with hr | hr
    · exact absurd hr nofun
    · exact absurd hr nofun
  · intro setback s₁ hend
    obtain ⟨⟨hr, ⟨hkeeps, hstatus, -⟩, -⟩, -⟩ := hend
    have hsetback : setback.failure = failure := by
      rcases hr with hr | hr
      · exact absurd hr nofun
      · rw [Stop.because.inj (Except.error.inj hr)]
        rfl
    rw [hsetback]
    refine ((recover_spec (s := { s₁ with deadline := none }) failure hstatus
      (hkeeps.holds h.capacity)).and (recover_ends failure _)).mono ?_
    intro r s₂ hend
    obtain ⟨hr, hends⟩ := hend
    cases r with
    | ok told =>
        rcases hr with ⟨htold, -⟩ | ⟨htold, -⟩
        · exact ⟨told, rfl, .inl htold⟩
        · exact ⟨told, rfl, .inr htold⟩
    | error stop =>
        obtain ⟨rfl, -⟩ := hr
        exact absurd rfl hends
  · intro s₁ hend
    obtain ⟨⟨hr, -⟩, -⟩ := hend
    rcases hr with hr | hr
    · exact absurd hr nofun
    · exact absurd hr nofun
  · intro s₁ hend
    exact absurd rfl hend.2

theorem send_spent {command : Bytes} {acks : List Block} {sending vexations : List Arrival}
    {last : Arrival} {seq : Seq} (h : Rested s)
    (hrow : Acknowledged s.terms s.sendSeq acks sending m)
    (hmore : acks.length + 1 < (s.commandBlocks command).length)
    (hseq : seq = Seq.next^[acks.length] s.sendSeq)
    (hexceeds : Exceeds s.terms (· = acknowledgement seq) vexations last)
    (hmeets : s.Meets (sending ++ (vexations ++ [last]))) :
    Ensures (send command) s fun r _ => ∃ told, r = .error (.because told) ∧
      (told = { s with commandPending := false }.blame last ∨ told = .recoveryExhausted) := by
  obtain ⟨Holds, hscript, hholds⟩ := hmeets
  refine run_fails (.send command) rfl h (sendChain_ends command) ?_
  refine (sendChain_spent (s := s.begun) (h.sending hscript) hrow hmore hseq hexceeds
    hholds).mono ?_
  intro r s₁ hend
  exact .inr hend

theorem receive_tolerates {blocks : List Block} {block : Block} {receiving vexations : List Arrival}
    {raw : Bytes} {seq : Seq} (h : Rested s)
    (hrow : Announced s.terms s.recvSeq blocks receiving n)
    (hseq : seq = Seq.next^[blocks.length] s.recvSeq)
    (hcomes : Comes s.terms (Awaits seq) vexations raw block)
    (hcontrol : block.control = .information seq false)
    (hroom : ((blocks ++ [block]).map Block.payload).flatten.length ≤ s.response.capacity)
    (hmeets : s.Meets (receiving ++ (vexations ++ [.block raw]))) :
    Ensures receive s fun r s' => r = .ok ((blocks ++ [block]).map Block.payload).flatten ∧
      ∃ s₁, Gains (emptied s.begun) (blocks.length + 1) (n + vexations.length)
          ((blocks ++ [block]).map Block.payload).flatten s₁
        ∧ s' = { s₁ with status := .idle, deadline := none } := by
  obtain ⟨Holds, hscript, hholds⟩ := hmeets
  have hrun : Ensures (run receiveResponse) s fun r s' => r = .ok () ∧
      ∃ s₁, Gains (emptied s.begun) (blocks.length + 1) (n + vexations.length)
          ((blocks ++ [block]).map Block.payload).flatten s₁
        ∧ s' = { s₁ with status := .idle, deadline := none } := by
    refine ensures_run h.ready ((receiveResponse_tolerates (s := s.begun) (h.collecting hscript)
      hrow hseq hcomes hcontrol hroom hholds).and receiveResponse_ended) ?_ ?_ ?_ ?_
    · intro u s₁ hend
      obtain ⟨hr | ⟨-, hgains⟩, -⟩ := hend
      · exact absurd hr nofun
      · refine ⟨?_, rfl, s₁, hgains, rfl⟩
        obtain ⟨link, frame, statistics, response, rfl, -⟩ := hgains
        rfl
    · intro setback s₁ hend
      obtain ⟨hr | ⟨hr, -⟩, -⟩ := hend
      · exact absurd hr nofun
      · exact absurd hr nofun
    · intro s₁ hend
      obtain ⟨hr | ⟨hr, -⟩, -⟩ := hend
      · exact absurd hr nofun
      · exact absurd hr nofun
    · intro s₁ hend
      exact absurd rfl hend.2
  unfold receive
  refine hrun.bind_ok fun s₂ hend => ?_
  obtain ⟨s₁, hgains, rfl⟩ := hend
  rw [ensures_get_bind]
  refine ⟨?_, s₁, hgains, rfl⟩
  obtain ⟨link, frame, statistics, response, rfl, -, -, -, hused, -⟩ := hgains
  have hempty : (emptied s.begun).response.used = [] := Buffer.used_clear _
  rw [hempty, List.nil_append] at hused
  exact congrArg Except.ok hused

theorem receive_spent {blocks : List Block} {receiving vexations : List Arrival} {last : Arrival}
    {seq : Seq} (h : Rested s) (hrow : Announced s.terms s.recvSeq blocks receiving n)
    (hseq : seq = Seq.next^[blocks.length] s.recvSeq)
    (hexceeds : Exceeds s.terms (Awaits seq) vexations last)
    (hroom : (blocks.map Block.payload).flatten.length ≤ s.response.capacity)
    (hmeets : s.Meets (receiving ++ (vexations ++ [last]))) :
    Ensures receive s fun r _ => ∃ told, r = .error (.because told) ∧
      (told = { s with commandPending := s.commandPending && blocks.isEmpty }.blame last
        ∨ told = .recoveryExhausted) := by
  obtain ⟨Holds, hscript, hholds⟩ := hmeets
  have hrun := run_fails .receive rfl h (fun _ => receiveResponse_ended)
    (receiveResponse_spent (s := s.begun) (h.collecting hscript) hrow hseq hexceeds hroom hholds)
  unfold receive
  refine hrun.bind ?_ ?_
  · intro u s₁ hend
    obtain ⟨told, hr, -⟩ := hend
    exact absurd hr nofun
  · intro stop s₁ hend
    obtain ⟨told, hr, htold⟩ := hend
    exact ⟨told, congrArg _ (Except.error.inj hr), htold⟩

/-! ## A command and its response -/

omit [Truthful L] in
theorem transceive_of_ok {command : Bytes} (h : send command s = .ok () s₁) :
    transceive command s = receive s₁ :=
  bind_of_ok h

omit [Truthful L] in
theorem transceive_of_error {command : Bytes} {stop : Stop Failure}
    (h : send command s = .error stop s₁) : transceive command s = .error stop s₁ :=
  bind_of_error h

/-- The exchange of a command fails: with this, or because the recovery from it did not succeed. -/
def FailsWith (command : Bytes) (failure : Failure) (s : Session (Traced L)) : Prop :=
  ∃ told s', transceive command s = .error (.because told) s' ∧
    (told = failure ∨ told = .recoveryExhausted)

/--
**What vexes an exchange within the budget leaves no trace but a count, and the budget is
exact.** It is the budget of one block, whatever the blocks before it have cost.

The link takes whatever is handed over, and the calls run in time. It brings the
acknowledgements of all blocks of the command but the last and then the blocks of the
response, each behind no more vexations than the budget allows. Then `transceive` gives
the payload of the response, and the session is left as it would be without a single
vexation, except that they are counted. If a block in either direction is behind one
vexation more, `transceive` fails: with what that vexation was, or because the recovery
from it did not succeed.
-/
theorem transceive_tolerance (command : Bytes) (h : Reachable settings s)
    (hready : s.status.isReady = true) (hparked : s.parked = none)
    (hcount : settings.blockRetransmits < counterMax) {acks : List Block} {sending : List Arrival}
    (hacks : Acknowledged s.terms s.sendSeq acks sending m) :
    ((s.commandBlocks command).length = acks.length + 1 → s.Meets sending →
      ∃ s₁, send command s = .ok () s₁ ∧
        ∀ (blocks : List Block) (receiving vexations : List Arrival) (n : Nat) (seq : Seq),
          Announced s.terms s.recvSeq blocks receiving n →
          seq = Seq.next^[blocks.length] s.recvSeq →
          (∀ raw block, Comes s.terms (Awaits seq) vexations raw block →
            block.control = .information seq false →
            ((blocks ++ [block]).map Block.payload).flatten.length ≤ settings.responseCapacity →
            s₁.Meets (receiving ++ (vexations ++ [.block raw])) →
            ∃ s', transceive command s = .ok ((blocks ++ [block]).map Block.payload).flatten s' ∧
              Exchanges s (acks.length + 1) (blocks.length + 1) (m + (n + vexations.length))
                ((blocks ++ [block]).map Block.payload).flatten s') ∧
          ∀ last, Exceeds s.terms (Awaits seq) vexations last →
            (blocks.map Block.payload).flatten.length ≤ settings.responseCapacity →
            s₁.Meets (receiving ++ (vexations ++ [last])) →
            FailsWith command ({ s₁ with commandPending := blocks.isEmpty }.blame last) s) ∧
    (acks.length + 1 < (s.commandBlocks command).length →
      ∀ (vexations : List Arrival) (last : Arrival) (seq : Seq),
        seq = Seq.next^[acks.length] s.sendSeq →
        Exceeds s.terms (· = acknowledgement seq) vexations last →
        s.Meets (sending ++ (vexations ++ [last])) →
        FailsWith command ({ s with commandPending := false }.blame last) s) := by
  have hrested := h.rested hready hparked hcount
  have hcapacity : s.response.clear.capacity = settings.responseCapacity :=
    (Buffer.capacity_clear _).trans h.equipped.response
  refine ⟨fun hlength hmeets => ?_, ?_⟩
  · obtain ⟨s₁, hsend, hsent⟩ := (send_tolerates hrested hacks hlength hmeets).exists_ok
    have hrested₁ := hsent.rested hrested
    refine ⟨s₁, hsend, ?_⟩
    unfold FailsWith
    rw [transceive_of_ok hsend]
    have hterms := hsent.terms_eq
    have hempty : s₁.response.capacity = settings.responseCapacity
        ∧ s₁.recvSeq = s.recvSeq ∧ s₁.commandPending = true := by
      obtain ⟨link, frame, retries, statistics, staged, rfl, -⟩ := hsent
      exact ⟨hcapacity, rfl, rfl⟩
    rw [← hterms, ← hempty.1, ← hempty.2.1]
    intro blocks receiving vexations n seq hrow hseq
    refine ⟨?_, ?_⟩
    · intro raw block hcomes hcontrol hroom hmeets'
      obtain ⟨s', hreceive, s₂, hgains, rfl⟩ :=
        (receive_tolerates hrested₁ hrow hseq hcomes hcontrol hroom hmeets').exists_ok
      exact ⟨_, hreceive, hsent.exchanges hgains⟩
    · intro last hexceeds hroom hmeets'
      have hspent := (receive_spent hrested₁ hrow hseq hexceeds hroom hmeets').exists_error
      rw [hempty.2.2, Bool.true_and] at hspent
      exact hspent
  · intro hmore vexations last seq hseq hexceeds hmeets
    obtain ⟨told, s', hsend, htold⟩ :=
      (send_spent hrested hacks hmore hseq hexceeds hmeets).exists_error
    exact ⟨told, s', transceive_of_error hsend, htold⟩

/-! ## Rehearsed -/

/-- A closed session over a link on which these arrivals are laid down. -/
def laidDown (arrivals : List Arrival) : Session (Traced Rehearsal) :=
  create { link := { readings := arrivals.map Arrival.reading } } rehearsalSettings

/-- It is opened with the first of them. -/
def beset (arrivals : List Arrival) : Session (Traced Rehearsal) :=
  (perform .establish).final (laidDown arrivals)

theorem beset_reachable (arrivals : List Arrival) :
    Reachable rehearsalSettings (beset arrivals) := by
  have hnew : new (laidDown arrivals).link rehearsalSettings = .ok (laidDown arrivals) := rfl
  exact .called _ (.created hnew)

/-- What a call that succeeds leaves behind. -/
theorem final_of_ok {ε α : Type} {x : Action ε (Traced Rehearsal) α}
    {s s' : Session (Traced Rehearsal)} {a : α} (h : x s = .ok a s') : s' = x.final s := by
  unfold Action.final
  rw [h]

/-- What lies ahead of a call: these arrivals first, none of them longer than so many octets. -/
def Faces (s : Session (Traced Rehearsal)) (capacity : Nat) (arrivals later : List Arrival) :
    Prop :=
  s.link.link.readings = arrivals.map Arrival.reading ++ later.map Arrival.reading
    ∧ s.link.link.current = none ∧ s.link.link.writings = []
    ∧ (∀ arrival ∈ arrivals, arrival.Fits .lrc capacity)
    ∧ ∀ instant ∈ s.begun.deadline, s.link.link.clock < instant

instance (s : Session (Traced Rehearsal)) (capacity : Nat) (arrivals later : List Arrival) :
    Decidable (s.Faces capacity arrivals later) := by
  unfold Faces
  infer_instance

/-- What lies ahead of a call is what it meets. -/
theorem Faces.meets {s : Session (Traced Rehearsal)} {capacity : Nat}
    {arrivals later : List Arrival} (h : s.Faces capacity arrivals later) : s.Meets arrivals := by
  obtain ⟨hreadings, hcurrent, hwritings, hfits, htime⟩ := h
  exact ⟨_, rehearses_script .lrc capacity _ _, ⟨_, hreadings⟩, hcurrent, hwritings, hfits, htime⟩

/-- The answer to the handshake. -/
def greeting : Arrival := .block [0xA5, 0xE0, 0, 0x45]

/-- An acknowledgement that comes late. -/
def delayed : List Arrival := [.fault .timeout, .block [0xA5, 0x90, 0, 0x35]]

/-- A response of two blocks. Each comes garbled first, and the first one is repeated. -/
def garbled : List Arrival :=
  [.block [0xA5, 0x20, 1, 0x90, 0], .block [0xA5, 0x20, 1, 0x90, 0x14],
    .block [0xA5, 0x40, 1, 0, 0], .block [0xA5, 0x20, 1, 0x90, 0x14],
    .block [0xA5, 0x40, 1, 0, 0xE4]]

/-- A session that meets both. -/
def harried : Session (Traced Rehearsal) := beset (greeting :: (delayed ++ garbled))

/-- An element asks for the last block of a command. -/
def insistence : Arrival := .block [0xA5, 0x90, 0, 0x35]

/-- A session whose element does so four times. -/
def pestered : Session (Traced Rehearsal) :=
  beset (greeting :: (delayed ++ List.replicate 4 insistence))

/-- Nothing comes at all. -/
def silence : Arrival := .fault .timeout

/-- A session whose element is silent once it is open. -/
def ignored : Session (Traced Rehearsal) :=
  beset (greeting :: List.replicate 4 silence)

/-- What all of them go by. -/
def rehearsalTerms : Terms := { codec := rehearsalSettings.codec, capacity := 258, budget := 3 }

theorem acknowledged_delayed :
    Acknowledged rehearsalTerms .zero [⟨0xA5, .ready .one .clean, [], 0x35⟩] delayed 1 := by
  show Row _ _ _ _ _ ([.fault .timeout] ++ .block [0xA5, 0x90, 0, 0x35] :: []) (1 + 0)
  refine .next ⟨?_, ?_, ?_, ?_⟩ rfl .none
  · exact List.forall_mem_singleton.mpr (Arrival.vexes_fault nofun)
  · decide
  · decide +kernel
  · decide +kernel

theorem announced_garbled :
    Announced rehearsalTerms .zero [⟨0xA5, .information .zero true, [0x90], 0x14⟩]
      (garbled.take 2) 1 := by
  show Row _ _ _ _ _ ([.block [0xA5, 0x20, 1, 0x90, 0]] ++
    .block [0xA5, 0x20, 1, 0x90, 0x14] :: []) (1 + 0)
  refine .next ⟨?_, ?_, ?_, ?_⟩ rfl .none
  · have hdecode : rehearsalTerms.codec.decode [0xA5, 0x20, 1, 0x90, 0]
        = .error (.epilogueMismatch 0x14 0) := by decide +kernel
    exact List.forall_mem_singleton.mpr (Arrival.vexes_unreadable (by decide +kernel) hdecode)
  · decide
  · decide +kernel
  · decide +kernel

theorem comes_garbled :
    Comes rehearsalTerms (Awaits .one)
      [.block [0xA5, 0x40, 1, 0, 0], .block [0xA5, 0x20, 1, 0x90, 0x14]] [0xA5, 0x40, 1, 0, 0xE4]
      ⟨0xA5, .information .one false, [0], 0xE4⟩ := by
  refine ⟨?_, ?_, ?_, ?_⟩
  · have hgarbled : rehearsalTerms.codec.decode [0xA5, 0x40, 1, 0, 0]
        = .error (.epilogueMismatch 0xE4 0) := by decide +kernel
    have hrepeated : rehearsalTerms.codec.decode [0xA5, 0x20, 1, 0x90, 0x14]
        = .ok ⟨0xA5, .information .zero true, [0x90], 0x14⟩ := by decide +kernel
    refine List.forall_mem_cons.mpr ⟨Arrival.vexes_unreadable (by decide +kernel) hgarbled,
      List.forall_mem_singleton.mpr ?_⟩
    refine Arrival.vexes_misplaced (by decide +kernel) hrepeated nofun nofun ?_
    rintro ⟨more, hmore⟩
    exact absurd hmore nofun
  · decide
  · decide +kernel
  · decide +kernel

theorem insistence_vexes (seq : Seq) : insistence.Vexes rehearsalTerms (Awaits seq) := by
  have hdecode : rehearsalTerms.codec.decode [0xA5, 0x90, 0, 0x35]
      = .ok ⟨0xA5, .ready .one .clean, [], 0x35⟩ := by decide +kernel
  refine Arrival.vexes_misplaced (by decide +kernel) hdecode nofun nofun ?_
  rintro ⟨more, hmore⟩
  exact absurd hmore nofun

theorem exceeds_replicate {terms : Terms} {awaited : Control → Prop} {vexation : Arrival}
    (h : vexation.Vexes terms awaited) :
    Exceeds terms awaited (List.replicate terms.budget vexation) vexation where
  vexes := fun other hother => by
    rw [List.eq_of_mem_replicate hother]
    exact h
  spent := List.length_replicate
  last := h

/--
Three sessions. One gets its response although every block is behind a vexation or two; one
is asked for the last block of its command once too often; and one gets no acknowledgement.
-/
theorem transceive_tolerance_rehearsed :
    (Reachable rehearsalSettings harried ∧ harried.status.isReady = true ∧
      harried.parked = none ∧ rehearsalSettings.blockRetransmits < counterMax ∧
      ∃ s', transceive [0x80, 0xCA] harried = .ok [0x90, 0] s' ∧
        Exchanges harried 2 2 4 [0x90, 0] s') ∧
    FailsWith [0x80, 0xCA] (.violation .commandLost) pestered ∧
    FailsWith [0x80, 0xCA] .timeout ignored := by
  have hcount : rehearsalSettings.blockRetransmits < counterMax := by decide
  refine ⟨⟨beset_reachable _, by decide +kernel, by decide +kernel, hcount, ?_⟩, ?_, ?_⟩
  · have hready : harried.status.isReady = true := by decide +kernel
    have hparked : harried.parked = none := by decide +kernel
    have hterms : harried.terms = rehearsalTerms := by decide +kernel
    have hsendSeq : harried.sendSeq = .zero := by decide +kernel
    have hrecvSeq : harried.recvSeq = .zero := by decide +kernel
    have hlength : (harried.commandBlocks [0x80, 0xCA]).length = 1 + 1 := by decide +kernel
    have hfaces : harried.Faces 258 delayed garbled := by decide +kernel
    have hacks := acknowledged_delayed
    rw [← hterms, ← hsendSeq] at hacks
    obtain ⟨s₁, hsend, hreceives⟩ :=
      (transceive_tolerance [0x80, 0xCA] (beset_reachable _) hready hparked hcount hacks).1
        hlength hfaces.meets
    have hfaces₁ : s₁.Faces 258 garbled [] := by
      rw [final_of_ok hsend]
      decide +kernel
    have hblocks := announced_garbled
    have hcomes := comes_garbled
    rw [← hterms, ← hrecvSeq] at hblocks
    rw [← hterms] at hcomes
    have hseq : Seq.one = Seq.next^[1] harried.recvSeq := by
      rw [hrecvSeq]
      rfl
    exact (hreceives _ _ _ _ .one hblocks hseq).1 _ _ hcomes rfl (by decide) hfaces₁.meets
  · have hready : pestered.status.isReady = true := by decide +kernel
    have hparked : pestered.parked = none := by decide +kernel
    have hterms : pestered.terms = rehearsalTerms := by decide +kernel
    have hsendSeq : pestered.sendSeq = .zero := by decide +kernel
    have hlength : (pestered.commandBlocks [0x80, 0xCA]).length = 1 + 1 := by decide +kernel
    have hfaces : pestered.Faces 258 delayed (List.replicate 4 insistence) := by decide +kernel
    have hacks := acknowledged_delayed
    rw [← hterms, ← hsendSeq] at hacks
    obtain ⟨s₁, hsend, hreceives⟩ :=
      (transceive_tolerance [0x80, 0xCA] (beset_reachable _) hready hparked hcount hacks).1
        hlength hfaces.meets
    have hfaces₁ : s₁.Faces 258 (List.replicate 3 insistence ++ [insistence]) [] := by
      rw [final_of_ok hsend]
      decide +kernel
    have hvexes : insistence.Vexes pestered.terms (Awaits pestered.recvSeq) := by
      rw [hterms]
      exact insistence_vexes _
    have hexceeds := exceeds_replicate hvexes
    have hfails := (hreceives [] [] _ 0 _ .none rfl).2 _ hexceeds (Nat.zero_le _)
      hfaces₁.meets
    have hblame : { s₁ with commandPending := true }.blame insistence
        = .violation .commandLost := by
      rw [final_of_ok hsend]
      decide +kernel
    rwa [List.isEmpty_nil, hblame] at hfails
  · have hready : ignored.status.isReady = true := by decide +kernel
    have hparked : ignored.parked = none := by decide +kernel
    have hmore : 0 + 1 < (ignored.commandBlocks [0x80, 0xCA]).length := by decide +kernel
    have hfaces : ignored.Faces 258 (List.replicate 3 silence ++ [silence]) [] := by decide +kernel
    have hvexes : silence.Vexes ignored.terms (· = acknowledgement ignored.sendSeq) :=
      Arrival.vexes_fault nofun
    exact (transceive_tolerance [0x80, 0xCA] (beset_reachable _) hready hparked hcount .none).2
      hmore _ _ _ rfl (exceeds_replicate hvexes) hfaces.meets

/-- A block with one octet more than a frame has room for. -/
def oversized : Bytes := [0xA5, 0, 0xFF, 0, 0xFF] ++ (List.replicate 255 0 ++ [0xA5])

/-- A session that gets it as the whole of its response. -/
def overfed : Session (Traced Rehearsal) := beset [greeting, .block oversized, greeting]

/-- **A block must have room in a frame.** A response of one block that is well formed, that is the
one awaited and that has room in the buffer for the response is not taken when it comes, although
nothing comes before it. -/
theorem transceive_tolerance_oversized :
    Reachable rehearsalSettings overfed ∧ overfed.status.isReady = true ∧
      overfed.parked = none ∧ rehearsalSettings.blockRetransmits < counterMax ∧
      (overfed.commandBlocks [0x80]).length = 1 ∧
      overfed.codec.decode oversized
        = .ok ⟨0xA5, .information overfed.recvSeq false, List.replicate 255 0, 0xA5⟩ ∧
      255 ≤ rehearsalSettings.responseCapacity ∧
      ∃ s₁, send [0x80] overfed = .ok () s₁ ∧ s₁.Meets [.block oversized] ∧
        ∃ s', transceive [0x80] overfed = .error (.because (.malformed .beyondFrame)) s' := by
  have hsent : (send [0x80]).result overfed = .ok () := by decide +kernel
  have hresult : (transceive [0x80]).result overfed
      = .error (.because (.malformed .beyondFrame)) := by decide +kernel
  have hfaces : ((send [0x80]).final overfed).Faces 261 [.block oversized] [greeting] := by
    decide +kernel
  exact ⟨beset_reachable _, by decide +kernel, by decide +kernel, by decide, by decide +kernel,
    by decide +kernel, by decide, _, eq_ok_of_result hsent, hfaces.meets, _,
    eq_error_of_result hresult⟩

end Session

end SecureElement
