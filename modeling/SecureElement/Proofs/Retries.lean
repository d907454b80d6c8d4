import SecureElement.Proofs.LastCommand
import SecureElement.Proofs.Progress
import SecureElement.Proofs.Room

/-!
# How often one frame goes out

A block or a request that was handed over in vain is charged before it is handed over
again, and its tries are counted from zero. So it goes out as often as there are tries,
and once more.

`tries_counted` says so of every loop of tries. It counts charges and not rounds: what it
says is true of any number of rounds that the loop may have been given. The blocks of a
command and supervisory requests are two uses of it (`sendChain_copies`,
`supervise_counted`).

A recovery charges nothing. It hands over one request for each of its attempts
(`recover_forgets`), and all of that comes behind the exchange that failed
(`run_counted`).
-/

namespace SecureElement

open Link

variable {c : Codec} {frame : Bytes} {items : List Passage}

/-- Of information blocks the record of a delivery counts the same. -/
theorem handovers_of_informationFrames {count : Nat} (hframe : isInformation frame = true)
    (h : informationFrames items = List.replicate count frame) : handovers frame items = count := by
  unfold informationFrames at h
  unfold handovers
  rw [← List.count_filter hframe, h, List.count_replicate_self]

namespace Step

open SecureElement.Action Session

variable {L σ α : Type} {s : Session (Traced L)}

/-! ## Loops of tries -/

/-- A charge that passes counts, and no charge does anything else. -/
theorem charge_counted (setback : Setback) (s : Session (Traced L)) [Link L] :
    Ensures (charge setback) s fun r s' =>
      Talks s [] s' ∧ (r = .ok () → s.retries < s'.retries ∧ s'.WithinBudget) := by
  refine ((charge_kept setback s).and (charge_ended setback)).mono ?_
  rintro r s' ⟨⟨⟨retries, statistics, rfl, hresyncs⟩, -⟩, -, hcharged⟩
  exact ⟨{ Talks.refl s with passes := hears_same rfl, resyncs := hresyncs }, hcharged⟩

/-- A round of tries: the frame goes out once at most, and there is another round only behind a
charge. -/
def Counted (frame : Bytes) (s : Session (Traced L)) (r : Except (Stop Setback) (σ ⊕ α))
    (s' : Session (Traced L)) : Prop :=
  ∃ items, Talks s items s' ∧ handovers frame items ≤ 1 ∧
    ∀ state, r = .ok (.inl state) → s.retries < s'.retries ∧ s'.WithinBudget

variable [Link L]

/-- What went out in vain is charged. -/
theorem charge_tried {setback : Setback} {s₁ : Session (Traced L)} (htalks : Talks s items s₁)
    (hretries : s₁.retries = s.retries) (hone : handovers frame items ≤ 1) :
    Ensures (do charge setback; return .inl () : Step (Traced L) (Unit ⊕ α)) s₁
      (Counted frame s) := by
  refine Ensures.bind (charge_counted setback s₁) ?_ ?_
  · rintro u s₂ ⟨hcharged, hcounts⟩
    have hall := htalks.trans hcharged
    rw [List.append_nil] at hall
    refine ⟨items, hall, hone, fun _ _ => ?_⟩
    rw [← hretries]
    exact hcounts rfl
  · rintro stop s₂ ⟨hcharged, -⟩
    have hall := htalks.trans hcharged
    rw [List.append_nil] at hall
    exact ⟨items, hall, hone, nofun⟩

omit [Link L] in
/-- **Whatever is tried goes out as often as there are tries, and once more.** -/
theorem tries_counted {round : σ → Step (Traced L) (σ ⊕ α)} (hfresh : s.retries = 0)
    (hround : ∀ state s₁ items, Talks s items s₁ → Ensures (round state) s₁ (Counted frame s₁))
    (n : Nat) (state : σ) :
    Ensures (loop round n state) s fun _ s' =>
      ∃ items, Talks s items s' ∧ handovers frame items ≤ s.settings.blockRetransmits + 1 := by
  -- between two rounds every copy that went out has been charged
  refine ensures_loop (I := fun _ s₁ => s₁.retries ≤ s.settings.blockRetransmits ∧
    ∃ items, Talks s items s₁ ∧ handovers frame items ≤ s₁.retries) ?_ ?_ n state s
    ⟨by omega, [], Talks.refl s, Nat.zero_le _⟩
  · rintro state s₁ ⟨hwithin, front, hfront, hcount⟩
    refine (hround state s₁ front hfront).mono ?_
    rintro r s₂ ⟨items, htalks, hone, hmore⟩
    have hall := hfront.trans htalks
    have hsum : handovers frame (front ++ items) ≤ s₁.retries + 1 := by
      rw [handovers_append]
      omega
    match r with
    | .ok (.inl state') =>
        obtain ⟨hless, hwithin'⟩ := hmore state' rfl
        unfold WithinBudget at hwithin'
        rw [hall.settings] at hwithin'
        exact ⟨hwithin', _, hall, by omega⟩
    | .ok (.inr a) => exact ⟨_, hall, by omega⟩
    | .error stop => exact ⟨_, hall, by omega⟩
  · rintro state s₁ ⟨hwithin, items, htalks, hcount⟩
    exact ⟨items, htalks, by omega⟩

/-- Asking once hands the frame over once. -/
theorem askRound_counted {ask : Step (Traced L) Inbound} {answer : Control}
    (hframe : ¬ IsAnswer s.codec frame) (h : Ensures ask s (Asked frame s)) :
    Ensures (askRound ask answer ()) s (Counted frame s) := by
  have hone : ∀ (outcome : Except Fault Nat) (back : List Passage) {asides : List Passage},
      (∀ x ∈ asides, Aside s.codec x) → handovers frame back = 0 →
      handovers frame (.sent frame outcome :: (asides ++ back)) ≤ 1 := by
    intro outcome back asides hasides hback
    have hnone := handovers_asides hframe hasides
    rw [handovers_sent, handovers_append]
    omega
  unfold askRound
  refine ensures_attempt_bind h ?_ ?_ ?_ ?_
  · rintro inbound s₁ ⟨hretries, outcome, asides, hasides, raw, block, htalks, -⟩
    have hcount := hone outcome _ hasides (handovers_received frame raw)
    dsimp only
    split
    · exact ⟨_, htalks, hcount, nofun⟩
    · exact charge_tried htalks hretries hcount
  · rintro setback s₁ ⟨hretries, outcome, asides, hasides, -, htalks⟩
    have hcount := hone outcome [] hasides rfl
    rw [List.append_nil] at hcount
    exact charge_tried htalks hretries hcount
  · rintro s₁ ⟨-, outcome, asides, -, hordinary, -⟩
    exact hordinary.elim
  · rintro s₁ ⟨-, outcome, asides, hasides, -, htalks⟩
    have hcount := hone outcome [] hasides rfl
    rw [List.append_nil] at hcount
    exact ⟨_, htalks, hcount, nofun⟩

theorem askUntil_counted {ask : Step (Traced L) Inbound} {answer : Control}
    (hfresh : s.retries = 0) (hframe : ¬ IsAnswer s.codec frame)
    (hask : ∀ s₁ items, Talks s items s₁ → Ensures ask s₁ (Asked frame s₁)) :
    Ensures (askUntil ask answer) s fun _ s' =>
      ∃ items, Talks s items s' ∧ handovers frame items ≤ s.settings.blockRetransmits + 1 := by
  unfold askUntil
  rw [ensures_get_bind]
  refine tries_counted hfresh (fun _ s₁ items htalks => askRound_counted ?_ (hask s₁ items htalks))
    _ _
  rw [htalks.codec]
  exact hframe

theorem sendFinalRound_counted : Ensures (sendFinalRound ()) s (Counted s.command.used s) := by
  have hone : ∀ outcome, handovers s.command.used [.sent s.command.used outcome] ≤ 1 := by
    intro outcome
    rw [handovers_sent]
    exact Nat.le_refl 1
  unfold sendFinalRound
  refine ensures_attempt_bind sendCommand_spec ?_ ?_ ?_ ?_
  · rintro u s₁ ⟨-, outcome, htalks, -⟩
    exact ⟨_, htalks, hone outcome, nofun⟩
  · rintro setback s₁ ⟨⟨hretries, -⟩, outcome, htalks, -⟩
    exact charge_tried htalks hretries (hone outcome)
  · rintro s₁ ⟨-, outcome, -, hordinary⟩
    exact hordinary.elim
  · rintro s₁ ⟨-, outcome, htalks, -⟩
    exact ⟨_, htalks, hone outcome, nofun⟩

theorem sendFinal_counted (hfresh : s.retries = 0) :
    Ensures sendFinal s fun _ s' =>
      ∃ items, Talks s items s' ∧
        handovers s.command.used items ≤ s.settings.blockRetransmits + 1 := by
  unfold sendFinal
  rw [ensures_get_bind]
  refine tries_counted hfresh (fun _ s₁ items htalks => ?_) _ _
  rw [← htalks.command]
  exact sendFinalRound_counted

theorem sendChained_counted (hcapacity : Block.longPrologue ≤ s.frame.capacity)
    (hfresh : s.retries = 0) (hframe : ¬ IsAnswer s.codec s.command.used) :
    Ensures sendChained s fun _ s' =>
      ∃ items, Talks s items s' ∧
        handovers s.command.used items ≤ s.settings.blockRetransmits + 1 := by
  unfold sendChained
  rw [ensures_get_bind]
  refine (askUntil_counted hfresh hframe fun s₁ items htalks => ?_).bind_kept fun _ _ h => h
  rw [← htalks.command]
  exact ask_spec (htalks.holds hcapacity) sendCommand_spec

/-! ## Requests -/

theorem supervise_counted (function : Supervisory)
    (hcapacity : Block.longPrologue ≤ s.frame.capacity) :
    Ensures (supervise function) s fun _ s' =>
      ∃ items, Passes s items s' ∧
        handovers (s.codec.request function) items ≤ s.settings.blockRetransmits + 1 := by
  unfold supervise
  rw [ensures_modify_bind, ensures_get_bind]
  refine (askUntil_counted (s := { s with retries := 0 }) rfl
    (request_not_isAnswer s.codec function) fun s₁ items htalks => ?_).mono fun r s₁ hend => ?_
  · have hsent := sendRequest_spec (s := s₁) function
    rw [htalks.codec] at hsent
    exact ask_spec (htalks.holds hcapacity) hsent
  · obtain ⟨items, htalks, hcount⟩ := hend
    exact ⟨items, htalks.passes, hcount⟩

/-- What follows from the response hands over nothing. -/
theorem resetInterface_counted (hcapacity : Block.longPrologue ≤ s.frame.capacity) :
    Ensures resetInterface s fun _ s' =>
      ∃ items, Passes s items s' ∧
        handovers (s.codec.request .softReset) items ≤ s.settings.blockRetransmits + 1 := by
  unfold resetInterface
  refine (supervise_counted .softReset hcapacity).bind_kept fun inbound s₁ hend => ?_
  obtain ⟨items, hpasses, hcount⟩ := hend
  rw [ensures_get_bind]
  split
  · exact ⟨items, hpasses, hcount⟩
  · split
    · exact ⟨items, hpasses.congr rfl, hcount⟩
    · exact ⟨items, hpasses.congr rfl, hcount⟩

/-! ## Commands -/

theorem sendBlock_counted {block : Block} {more : Bool}
    (hcontrol : block.control = .information s.sendSeq more)
    (hcapacity : Block.longPrologue ≤ s.frame.capacity) :
    Ensures (sendBlock block) s fun _ s' =>
      ∃ items, Passes s items s' ∧
        handovers (s.codec.layout block) items ≤ s.settings.blockRetransmits + 1 := by
  unfold sendBlock
  refine (stage_spec block).bind ?_ ?_
  · rintro u s₁ ⟨command, rfl, hused⟩
    dsimp only at hused
    rw [ensures_modify_bind]
    generalize hstaged : ({ s with command, retries := 0 } : Session (Traced L)) = staged
    have hframe : staged.command.used = s.codec.layout block := by rw [← hstaged]; exact hused
    have hfresh : staged.retries = 0 := by rw [← hstaged]
    have hplain : ¬ IsAnswer staged.codec staged.command.used := by
      rw [hframe, ← hstaged]
      exact not_isAnswer_layout fun function => by rw [hcontrol]; exact Control.noConfusion
    have hroom : Block.longPrologue ≤ staged.frame.capacity := by rw [← hstaged]; exact hcapacity
    have hmoved : ∀ {s₂ : Session (Traced L)} {items : List Passage}, Talks staged items s₂ →
        handovers staged.command.used items ≤ staged.settings.blockRetransmits + 1 →
        ∀ s₃ : Session (Traced L), s₃.link = s₂.link → ∃ items, Passes s items s₃ ∧
          handovers (s.codec.layout block) items ≤ s.settings.blockRetransmits + 1 := by
      intro s₂ items htalks hcount s₃ hlink
      rw [hframe] at hcount
      rw [← hstaged] at htalks hcount
      exact ⟨items, Hears.congr htalks.passes hlink, hcount⟩
    split
    · refine Ensures.bind (sendChained_counted hroom hfresh hplain) ?_ ?_
      · exact fun _ s₂ ⟨items, htalks, hcount⟩ => hmoved htalks hcount _ rfl
      · exact fun _ s₂ ⟨items, htalks, hcount⟩ => hmoved htalks hcount _ rfl
    · refine Ensures.bind (sendFinal_counted hfresh) ?_ ?_
      · exact fun _ s₂ ⟨items, htalks, hcount⟩ => hmoved htalks hcount _ rfl
      · exact fun _ s₂ ⟨items, htalks, hcount⟩ => hmoved htalks hcount _ rfl
  · rintro stop s₁ ⟨command, rfl, -⟩
    exact ⟨[], hears_same rfl, Nat.zero_le _⟩

omit [Link L] in
/-- What is handed over of a block are its copies. -/
theorem BlockSent.copies {block : Block} {more : Bool} {r : Except (Stop Setback) Unit}
    {s' : Session (Traced L)} (hcontrol : block.control = .information s.sendSeq more)
    (h : BlockSent block s r s') :
    ∃ items count, Proceeds s items s' ∧
      informationFrames items = List.replicate count (s.codec.layout block) ∧
      (r = .ok () → Sends s 1 items s') := by
  have hframe := isInformation_layout (c := s.codec) hcontrol
  obtain ⟨items, h⟩ := h
  cases r with
  | ok u =>
      obtain ⟨hsends, hsent⟩ := h
      have hcopies : ∃ count, informationFrames items
          = List.replicate (count + 1) (s.codec.layout block) := by
        split at hsent
        · exact hsent.informationFrames hframe
        · exact hsent.informationFrames hframe
      obtain ⟨count, hcount⟩ := hcopies
      exact ⟨items, count + 1, hsends.toProceeds, hcount, fun _ => hsends⟩
  | error stop =>
      obtain ⟨-, hproceeds, htries⟩ := h
      obtain ⟨count, hcount⟩ := informationFrames_tried hframe htries.all
      exact ⟨items, count, hproceeds, hcount, nofun⟩

/-- What sending blocks hands over of each: copies of it, and no more than there are tries and one
more. -/
def Copied (s : Session (Traced L)) (blocks : List Block) (items : List Passage) : Prop :=
  ∃ counts, informationFrames items = copiesOf s.codec counts blocks
    ∧ counts.length ≤ blocks.length ∧ ∀ count ∈ counts, count ≤ s.settings.blockRetransmits + 1

omit [Link L] in
theorem Copied.cons {s₁ : Session (Traced L)} {block : Block} {blocks : List Block} {count : Nat}
    {front back : List Passage} (h : Copied s₁ blocks back) (hcodec : s₁.codec = s.codec)
    (hsettings : s₁.settings = s.settings)
    (hfront : informationFrames front = List.replicate count (s.codec.layout block))
    (hcount : count ≤ s.settings.blockRetransmits + 1) :
    Copied s (block :: blocks) (front ++ back) := by
  obtain ⟨counts, hframes, hlength, hcounts⟩ := h
  rw [hcodec] at hframes
  rw [hsettings] at hcounts
  refine ⟨count :: counts, ?_, Nat.succ_le_succ hlength, List.forall_mem_cons.mpr ⟨hcount, hcounts⟩⟩
  rw [informationFrames_append, hfront, hframes]
  rfl

omit [Link L] in
theorem copied_nil (s : Session (Traced L)) (blocks : List Block) : Copied s blocks [] :=
  ⟨[], rfl, Nat.zero_le _, nofun⟩

theorem sendBlocks_copies :
    ∀ (n : Nat) (chain : Chain) (s : Session (Traced L)), chain.remaining = n →
      chain.codec = s.codec → chain.seq = s.sendSeq → Block.longPrologue ≤ s.frame.capacity →
      Ensures (sendBlocks n chain) s fun _ s' =>
        ∃ items, Passes s items s' ∧ Copied s chain.blocks items
  | 0, chain, s, _, _, _, _ => ⟨[], hears_same rfl, copied_nil s _⟩
  | n + 1, chain, s, hn, hcodec, hseq, hcapacity => by
      have hdone : chain.done = false := by
        cases hdone : chain.done with
        | false => rfl
        | true =>
            rw [Chain.remaining, if_pos hdone] at hn
            omega
      obtain ⟨block, rest, hnext⟩ := Chain.exists_next hdone
      obtain ⟨hcontrol, hrestSeq, hrestCodec⟩ := Chain.next?_eq_some hnext
      have hrest : rest.remaining = n := by
        have hcount := Chain.remaining_next hnext
        omega
      rw [hseq] at hcontrol
      unfold sendBlocks
      rw [hnext, Chain.blocks_next hnext]
      dsimp only
      have hblock : Ensures (sendBlock block) s fun r s₁ => ∃ items count, Proceeds s items s₁ ∧
          informationFrames items = List.replicate count (s.codec.layout block) ∧
          count ≤ s.settings.blockRetransmits + 1 ∧ (r = .ok () → Sends s 1 items s₁) := by
        refine ((sendBlock_spec hcontrol hcapacity).and
          (sendBlock_counted hcontrol hcapacity)).mono ?_
        rintro r s₁ ⟨hsent, items', hpasses, hcount⟩
        obtain ⟨items, count, hproceeds, hcopies, hsends⟩ := hsent.copies hcontrol
        obtain rfl := Passes.unique hproceeds.passes hpasses
        rw [handovers_of_informationFrames (isInformation_layout hcontrol) hcopies] at hcount
        exact ⟨items, count, hproceeds, hcopies, hcount, hsends⟩
      refine hblock.bind ?_ ?_
      · rintro u s₁ ⟨front, count, -, hcopies, hcount, hsent⟩
        have hsends := hsent rfl
        -- the chain and the session have moved on by one number each
        refine (sendBlocks_copies n rest s₁ hrest ?_ ?_ (hsends.holds hcapacity)).mono ?_
        · rw [hrestCodec, hcodec, hsends.codec]
        · rw [hrestSeq, hseq, hsends.sendSeq]
          rfl
        · rintro r s₂ ⟨back, hpasses, hrest⟩
          refine ⟨front ++ back, hsends.passes.trans hpasses (by rw [hsends.codec])
            hsends.capacity, ?_⟩
          exact hrest.cons hsends.codec hsends.settings hcopies hcount
      · rintro stop s₁ ⟨items, count, hproceeds, hcopies, hcount, -⟩
        have hall := (copied_nil s rest.blocks).cons rfl rfl hcopies hcount
        rw [List.append_nil] at hall
        exact ⟨items, hproceeds.passes, hall⟩

/-- **Each block of a command goes out as often as there are tries, and once more.** -/
theorem sendChain_copies (command : Bytes) (hcapacity : Block.longPrologue ≤ s.frame.capacity) :
    Ensures (sendChain command) s fun _ s' =>
      ∃ items, Passes s items s' ∧ Copied s (s.commandBlocks command) items := by
  unfold sendChain
  rw [ensures_modify_bind, ensures_get_bind]
  dsimp only [resetExchange]
  have hcopies := sendBlocks_copies _ (Chain.ofPayload s.codec command s.sendSeq) { s with
    parked := none, extension := {}, response := s.response.clear, commandPending := false }
    rfl rfl rfl hcapacity
  refine Ensures.bind hcopies ?_ ?_
  · rintro u s₁ ⟨items, hpasses, hcopied⟩
    exact ⟨items, Hears.congr hpasses rfl, hcopied⟩
  · rintro stop s₁ ⟨items, hpasses, hcopied⟩
    exact ⟨items, hpasses, hcopied⟩

end Step

namespace Session

open SecureElement.Action

variable {L : Type} [Link L] {settings : Settings} {s : Session (Traced L)}

/-! ## Calls -/

/-- What passes in a call is what passes in its exchange, and a recovery behind it. -/
theorem run_counted (request : Request) {exchange : Step (Traced L) Unit} {P : List Passage → Prop}
    (hexchange : request.exchange? = some exchange) (h : Sound settings s)
    (hready : s.status.isReady = true)
    (hruns : Ensures exchange s.begun fun _ s₁ => ∃ items, Passes s.begun items s₁ ∧ P items) :
    Ensures (run exchange) s fun _ s' =>
      ∃ items back, Passes s items (exchange.final s.begun) ∧ Passes s (items ++ back) s' ∧
        P items ∧ (∀ x ∈ back, Recovers s.codec x) ∧
        handovers (s.codec.request .resync) back ≤ s.settings.resyncAttempts := by
  have hexchanged := exchange_exchanged (s := s.begun) hexchange h.capacity (Nat.zero_le _)
    h.parkedOrdinary
  -- an exchange that did not fail has no recovery behind it
  have hwhole : ∀ {s₁ s₂ : Session (Traced L)},
      (∃ items, Passes s.begun items s₁ ∧ P items) → exchange.final s.begun = s₁ →
      s₂.link = s₁.link → ∃ items back, Passes s items (exchange.final s.begun) ∧
        Passes s (items ++ back) s₂ ∧ P items ∧ (∀ x ∈ back, Recovers s.codec x) ∧
        handovers (s.codec.request .resync) back ≤ s.settings.resyncAttempts := by
    rintro s₁ s₂ ⟨items, hpasses, hitems⟩ rfl hlink
    refine ⟨items, [], hpasses, ?_, hitems, List.forall_mem_nil _, Nat.zero_le _⟩
    rw [List.append_nil]
    exact Hears.congr hpasses hlink
  refine ensures_run hready (hruns.and hexchanged).ended ?_ ?_ ?_ ?_
  · rintro u s₁ ⟨⟨hpassed, ⟨-, hstatus, -⟩, -⟩, -, hfinal⟩
    exact ⟨hstatus, hwhole hpassed hfinal rfl⟩
  · rintro setback s₁ ⟨⟨⟨items, hpasses, hitems⟩, ⟨hkeeps, hstatus, -⟩, ⟨front, hwithin⟩, -⟩, -,
      rfl⟩
    have hcodec : (exchange.final s.begun).codec = s.codec := hwithin.codec
    refine (recover_forgets (s := { exchange.final s.begun with deadline := none }) setback.failure
      hstatus (hkeeps.holds h.capacity)).mono ?_
    rintro r s₂ ⟨-, back, hback, hrecovers, hcount⟩
    dsimp only at hrecovers hcount
    rw [hcodec] at hrecovers
    rw [hcodec, hkeeps.settings] at hcount
    have hall : Passes s (items ++ back) s₂ :=
      Hears.trans (Hears.congr hpasses rfl) hback (congrArg Codec.epilogue hcodec) hkeeps.capacity
    cases r with
    | ok told => exact ⟨items, back, hpasses, hall, hitems, hrecovers, hcount⟩
    | error stop => exact ⟨items, back, hpasses, hall, hitems, hrecovers, hcount⟩
  · rintro s₁ ⟨⟨hpassed, -⟩, -, hfinal⟩
    exact hwhole hpassed hfinal rfl
  · rintro s₁ ⟨⟨hpassed, -⟩, -, hfinal⟩
    exact hwhole hpassed hfinal rfl

end Session

/-- The request by which a session opens. -/
def Handshake.function : Handshake → Supervisory
  | .softReset => .softReset
  | .resync => .resync

namespace Session

open SecureElement.Action

variable {L : Type} [Link L] {settings : Settings} {s : Session (Traced L)}

theorem handshake_counted (hcapacity : Block.longPrologue ≤ s.frame.capacity) :
    Ensures handshake s fun _ s' =>
      ∃ items, Passes s items s' ∧ handovers (s.codec.request s.settings.handshake.function) items
        ≤ s.settings.blockRetransmits + 1 := by
  unfold handshake
  rw [ensures_modify_bind, ensures_get_bind]
  dsimp only
  split
  · rename_i hreset
    rw [hreset]
    exact Step.resetInterface_counted hcapacity
  · rename_i hresync
    rw [hresync]
    refine Ensures.bind (Step.supervise_counted .resync hcapacity) ?_ ?_
    · exact fun _ _ h => h
    · exact fun _ _ h => h

/-- **Opening a session hands over its request as often as there are tries, and once more.** -/
theorem establish_counted (h : Housed settings s) :
    Ensures establish s fun _ s' =>
      ∃ items, Passes s items s' ∧
        handovers (settings.codec.request settings.handshake.function) items
          ≤ settings.blockRetransmits + 1 := by
  have hepilogue : settings.codec.epilogue = s.codec.epilogue := h.equipped.epilogue.symm
  have hsettings : s.risen.settings = settings := h.sound.settings
  refine ensures_establish (fun _ => ⟨[], hears_same rfl, Nat.zero_le _⟩)
    (fun _ _ _ => ⟨_, raised_passes s, Nat.zero_le _⟩) ?_
  intro hclosed hup
  refine (((handshake_counted (s := s.risen) h.sound.capacity).and (handshake_fits h.risen)).and
    (handshake_keeps h.sound.capacity)).mono ?_
  rintro r s₁ ⟨⟨⟨items, hpasses, hcount⟩, -, hroomy, -⟩, hkeeps, -, hstatus, -⟩
  rw [h.risen.codec, hsettings] at hcount
  have hbehind : Passes s ([.raised (.ok ())] ++ items) s₁ :=
    Hears.trans (risen_passes hup) hpasses
      ((congrArg Codec.epilogue h.risen.codec).trans hepilogue) rfl
  match r with
  | .ok () => exact ⟨hstatus.trans hclosed, _, Hears.congr hbehind rfl, hcount⟩
  | .error (.because setback) =>
      have hcodec := (hroomy _ rfl).codec
      have hall := hbehind.trans (released_passes s₁)
        ((congrArg Codec.epilogue hcodec).trans hepilogue) hkeeps.capacity
      refine ⟨_, Hears.congr hall rfl, ?_⟩
      rw [handovers_append]
      exact hcount
  | .error .crashed => exact ⟨_, hbehind, hcount⟩
  | .error .stalled => exact ⟨_, hbehind, hcount⟩

end Session

end SecureElement
