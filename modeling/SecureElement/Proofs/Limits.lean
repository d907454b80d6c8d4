import SecureElement.Proofs.LastAnswer
import SecureElement.Proofs.Retries

/-!
# How much one block may carry

The limit on outgoing blocks changes over the life of a session, and a chain that was
started under one limit can still be under way when a call comes: its last block may have
to be sent again. This file traces every information block that a call hands over to the
chain that it belongs to (`ChainOf`), and to the session in which that chain was started.

`block_limits` puts together what there is to say: where the limit comes from, which blocks
keep to it, and that no block of the session's own making ever fails for want of room.
-/

namespace SecureElement

open Link

theorem Chain.payload_le_of_mem_upTo {block : Block} :
    ∀ (n : Nat) (c : Chain), block ∈ upTo n c → block.payload.length ≤ c.codec.maxPayload
  | 0, _, h => absurd h List.not_mem_nil
  | n + 1, c, h => by
      unfold upTo at h
      split at h
      · exact absurd h List.not_mem_nil
      · rename_i first rest hnext
        rcases List.mem_cons.mp h with rfl | h
        · exact payload_next_le hnext
        · have hrest := payload_le_of_mem_upTo n rest h
          rwa [(next?_eq_some hnext).2.2] at hrest

/-- A chain is cut by the codec that it was started with. -/
theorem Chain.payload_le_of_mem_blocks {c : Chain} {block : Block} (h : block ∈ c.blocks) :
    block.payload.length ≤ c.codec.maxPayload := by
  rw [blocks_eq] at h
  exact payload_le_of_mem_upTo _ c h

/-! ## Information blocks among what passed -/

variable {c : Codec} {items : List Passage} {block : Block} {frame : Bytes}

theorem mem_copiesOf {counts : List Nat} {blocks : List Block}
    (h : frame ∈ copiesOf c counts blocks) : ∃ block ∈ blocks, frame = c.layout block := by
  unfold copiesOf at h
  obtain ⟨copies, hcopies, hframe⟩ := List.mem_flatten.mp h
  rw [List.mem_iff_getElem] at hcopies
  obtain ⟨i, hi, rfl⟩ := hcopies
  rw [List.getElem_zipWith] at hframe
  exact ⟨_, List.getElem_mem _, List.eq_of_mem_replicate hframe⟩

namespace Session

open SecureElement.Action

variable {L : Type} [Link L] {settings : Settings} {s s₁ s₂ : Session (Traced L)}
  {P : Bytes → Prop} {α : Type}

omit [Link L] in
/-- Between two states something passed, and every information block among it is as `P` says. -/
def Hands (P : Bytes → Prop) (s s' : Session (Traced L)) : Prop :=
  ∃ items, Passes s items s' ∧ ∀ frame ∈ informationFrames items, P frame

omit [Link L] in
theorem hands_nothing (h : s₁.link = s.link) : Hands P s s₁ :=
  ⟨[], hears_same h, nofun⟩

omit [Link L] in
theorem Hands.trans (h₁ : Hands P s s₁) (h₂ : Hands P s₁ s₂)
    (hepilogue : s₁.codec.epilogue = s.codec.epilogue)
    (hcapacity : s₁.frame.capacity = s.frame.capacity) : Hands P s s₂ := by
  obtain ⟨front, hfront, hframes⟩ := h₁
  obtain ⟨back, hback, hframes'⟩ := h₂
  refine ⟨front ++ back, hfront.trans hback hepilogue hcapacity, fun frame hframe => ?_⟩
  rw [informationFrames_append] at hframe
  exact (List.mem_append.mp hframe).elim (hframes frame) (hframes' frame)

omit [Link L] in
theorem Hands.mono {Q : Bytes → Prop} (h : Hands P s s₁) (hPQ : ∀ frame, P frame → Q frame) :
    Hands Q s s₁ := by
  obtain ⟨items, hpasses, hframes⟩ := h
  exact ⟨items, hpasses, fun frame hframe => hPQ frame (hframes frame hframe)⟩

omit [Link L] in
theorem Hands.congr (h : Hands P s s₁) (hlink : s₂.link = s₁.link) : Hands P s s₂ := by
  obtain ⟨items, hpasses, hframes⟩ := h
  exact ⟨items, hpasses.congr hlink, hframes⟩

omit [Link L] in
/-- Where nothing but frames of other types is handed over, any `P` will do. -/
theorem hands_of_nil {items : List Passage} (hpasses : Passes s items s₁)
    (hitems : ∀ x ∈ items, ∀ frame, x.frame? = some frame → isInformation frame = false) :
    Hands P s s₁ :=
  ⟨items, hpasses, by rw [informationFrames_eq_nil hitems]; exact nofun⟩

/-! ## One exchange after the other -/

/-- The information blocks of a command are all that sending it hands over. -/
theorem sendChain_hands (command : Bytes) (hcapacity : Block.longPrologue ≤ s.frame.capacity) :
    Ensures (Step.sendChain command) s
      (fun _ => Hands (fun frame => ∃ block ∈ s.commandBlocks command,
        frame = s.codec.layout block) s) := by
  refine (Step.sendChain_copies command hcapacity).mono ?_
  intro r s' hend
  obtain ⟨items, hpasses, counts, hframes, -⟩ := hend
  refine ⟨items, hpasses, fun frame hframe => ?_⟩
  rw [hframes] at hframe
  exact mem_copiesOf hframe

/-- A supervisory request is no information block, and neither is anything that is handed over until
its response comes. -/
theorem supervise_hands (function : Supervisory)
    (hcapacity : Block.longPrologue ≤ s.frame.capacity) :
    Ensures (Step.supervise function) s fun _ s' =>
      Hands P s s' ∧ s'.codec = s.codec ∧ s'.frame.capacity = s.frame.capacity := by
  refine (Step.supervise_spec function hcapacity).mono ?_
  intro r s' hend
  obtain ⟨items, htalks, hr⟩ := hend
  refine ⟨hands_of_nil htalks.passes fun x hx frame hframe => ?_, htalks.codec, htalks.capacity⟩
  have hplain : frame = s.codec.request function ∨ IsAnswer s.codec frame := by
    cases r with
    | ok inbound => exact hr.1.frame hx hframe
    | error stop => exact (hr.2.all x hx).frame hframe
  rcases hplain with rfl | hanswer
  · exact request_not_isInformation s.codec function
  · exact hanswer.not_isInformation

theorem resetInterface_hands (hcapacity : Block.longPrologue ≤ s.frame.capacity) :
    Ensures Step.resetInterface s fun _ s' => Hands P s s' := by
  unfold Step.resetInterface
  refine (supervise_hands (P := P) .softReset hcapacity).bind ?_ fun _ _ hend => hend.1
  intro inbound s₁ hend
  rw [ensures_get_bind]
  split
  · exact hend.1
  · split
    · exact hend.1.congr rfl
    · exact hend.1.congr rfl

theorem park_hands (hcapacity : Block.longPrologue ≤ s.frame.capacity) :
    Ensures Step.park s fun _ s' => Hands P s s' := by
  have hwaited : ∀ {s₁ : Session (Traced L)}, Step.Waited s s₁ → Hands P s s₁ := by
    rintro s₁ ⟨items, htalks, hasides⟩
    exact hands_of_nil htalks.passes fun x hx frame => (hasides x hx).not_isInformation
  refine Step.ensures_attempt_bind (Step.awaitBlock_spec hcapacity) ?_ ?_ ?_ ?_
  · intro inbound s₁ hend
    obtain ⟨-, asides, raw, block, htalks, hasides, -⟩ := hend
    have hreceived : Hands P s s₁ := by
      refine hands_of_nil htalks.passes fun x hx frame hframe => ?_
      rcases List.mem_append.mp hx with hx | hx
      · exact (hasides x hx).not_isInformation hframe
      · rw [List.mem_singleton.mp hx] at hframe
        exact absurd hframe nofun
    exact hreceived.congr rfl
  · intro setback s₁ hend
    obtain ⟨-, -, hend⟩ := hend
    cases setback with
    | minor failure => exact (hwaited hend).congr rfl
    | major failure => exact hwaited hend
  · exact fun _ hend => hwaited hend.2.2
  · exact fun _ hend => hwaited hend.2.2

/-- Of all exchanges only those of a command and of its response hand over information blocks. -/
theorem exchange_hands (request : Request) {exchange : Step (Traced L) Unit}
    (hexchange : request.exchange? = some exchange) (hsends : ¬ request.Sends)
    (hreads : request ≠ .receive) (hcapacity : Block.longPrologue ≤ s.frame.capacity) :
    Ensures exchange s fun _ s' => Hands P s s' := by
  cases request with
  | prefetch =>
      obtain rfl := Option.some.inj hexchange
      exact park_hands hcapacity
  | resync =>
      obtain rfl := Option.some.inj hexchange
      refine (supervise_hands .resync hcapacity).bind ?_ fun _ _ hend => hend.1
      intro inbound s₁ hend
      exact hend.1.congr rfl
  | softReset =>
      obtain rfl := Option.some.inj hexchange
      unfold Step.renewInterface
      rw [ensures_modify_bind]
      refine Ensures.bind (resetInterface_hands (P := P) hcapacity) ?_ ?_
      · intro u s₁ hend
        have hsame : Hands P s s₁ := hend
        exact hsame.congr rfl
      · intro stop s₁ hend
        have hsame : Hands P s s₁ := hend
        exact hsame
  | endApduSession =>
      obtain rfl := Option.some.inj hexchange
      exact (supervise_hands .endApduSession hcapacity).bind (fun _ _ hend => hend.1)
        fun _ _ hend => hend.1
  | send command => exact absurd trivial hsends
  | receive => exact absurd rfl hreads
  | establish | close | transceive _ | reset | dropResponse => exact absurd hexchange nofun

/-- Letting go of the link hands over nothing at all. -/
theorem hands_released : Hands P s { s with link := Link.release s.link } :=
  hands_of_nil (released_passes s) (List.forall_mem_singleton.mpr nofun)

/-! ## One call after the other -/

/-- A call hands over no other information blocks than its exchange. -/
theorem run_hands (request : Request) {exchange : Step (Traced L) Unit}
    (hexchange : request.exchange? = some exchange) (hsound : Sound settings s)
    (h : s.status.isReady = true → Ensures exchange s.begun fun _ s₁ => Hands P s.begun s₁) :
    Ensures (run exchange) s fun _ s' => Hands P s s' := by
  cases hready : s.status.isReady with
  | false =>
      refine (run_refused hready).mono ?_
      rintro r s' ⟨rfl, -⟩
      exact hands_nothing rfl
  | true =>
      have hexchanged := exchange_exchanged (s := s.begun) hexchange hsound.capacity
        (Nat.zero_le _) hsound.parkedOrdinary
      refine ensures_run hready ((h hready).and hexchanged) ?_ ?_ ?_ ?_
      · intro u s₁ hend
        obtain ⟨hhands, ⟨-, hstatus, -⟩, -⟩ := hend
        have hsame : Hands P s s₁ := hhands
        exact ⟨hstatus, hsame.congr rfl⟩
      · intro setback s₁ hend
        obtain ⟨hhands, ⟨hkeeps, hstatus, -⟩, ⟨items, hwithin⟩, -⟩ := hend
        have hbefore : Hands P s { s₁ with deadline := none } := hhands
        refine (recover_forgets (s := { s₁ with deadline := none }) setback.failure hstatus
          (hkeeps.holds hsound.capacity)).mono ?_
        rintro r s₂ ⟨-, back, hback, hrecovers, -⟩
        have hrecovered : Hands P { s₁ with deadline := none } s₂ :=
          ⟨back, hback, by rw [informationFrames_recovers hrecovers]; exact nofun⟩
        have hcodec : s₁.codec = s.codec := hwithin.codec
        have hall := hbefore.trans hrecovered (congrArg Codec.epilogue hcodec) hwithin.capacity
        cases r with
        | ok told => exact hall
        | error stop => exact hall
      · exact fun _ hend => hend.1
      · exact fun _ hend => hend.1

theorem send_hands (command : Bytes) (hsound : Sound settings s) :
    Ensures (send command) s fun _ s' =>
      Hands (fun frame => ∃ block ∈ s.commandBlocks command, frame = s.codec.layout block) s s' :=
  run_hands (.send command) rfl hsound fun _ =>
    sendChain_hands (s := s.begun) command hsound.capacity

/-- A read hands over no information block but the pending command. -/
theorem receive_hands (hsound : Sound settings s)
    (hpending : s.commandPending = true → P s.command.used) :
    Ensures receive s fun _ s' => Hands P s s' := by
  refine Ensures.bind_kept (run_hands .receive rfl hsound fun _ => ?_) fun _ _ h => h
  refine (receiveResponse_repeats hsound).mono ?_
  rintro r s₁ ⟨items, hwithin, hrepeats⟩
  refine ⟨items, hwithin.passes, fun frame hframe => ?_⟩
  unfold informationFrames at hframe
  obtain ⟨hsent, hinformation⟩ := List.mem_filter.mp hframe
  obtain ⟨x, hx, hxframe⟩ := List.mem_filterMap.mp hsent
  obtain ⟨outcome, rfl⟩ : ∃ outcome, x = .sent frame outcome := by
    cases x with
    | sent other outcome =>
        obtain rfl := Option.some.inj hxframe
        exact ⟨outcome, rfl⟩
    | raised | received | lost | released => exact absurd hxframe nofun
  obtain ⟨front, back, rfl⟩ := List.append_of_mem hx
  obtain ⟨hcommand, rfl, -⟩ := hrepeats.asked front frame outcome back rfl hinformation
  exact hpending hcommand

/-- Neither does what a new session begins with. -/
theorem handshake_hands (hcapacity : Block.longPrologue ≤ s.frame.capacity) :
    Ensures handshake s fun _ s' => Hands P s s' := by
  let started := { s with deadline := s.deadlineFromNow }
  have hstarted : ∀ {s₁ : Session (Traced L)}, Hands P started s₁ → Hands P s s₁ := fun h => h
  unfold handshake
  rw [ensures_modify_bind, ensures_get_bind]
  split
  · exact (resetInterface_hands (s := started) hcapacity).mono fun _ _ hend => hstarted hend
  · refine Ensures.bind (supervise_hands (P := P) (s := started) .resync hcapacity) ?_ ?_
    · exact fun _ _ hend => hstarted hend.1
    · exact fun _ _ hend => hstarted hend.1

theorem establish_hands (h : Housed settings s) : Ensures establish s fun _ s' => Hands P s s' := by
  have hepilogue : settings.codec.epilogue = s.codec.epilogue := h.equipped.epilogue.symm
  refine ensures_establish (fun _ => hands_nothing rfl) ?_ ?_
  · exact fun _ _ _ => hands_of_nil (raised_passes s) (List.forall_mem_singleton.mpr nofun)
  · intro hclosed hup
    refine (((handshake_hands (P := P) (s := s.risen) h.sound.capacity).and
      (handshake_fits h.risen)).and (handshake_keeps h.sound.capacity)).mono ?_
    rintro r s₁ ⟨⟨hhands, -, hroomy, -⟩, hkeeps, -, hstatus, -⟩
    have hbehind : Hands P s s₁ :=
      (hands_of_nil (risen_passes hup) (List.forall_mem_singleton.mpr nofun)).trans hhands
        ((congrArg Codec.epilogue h.risen.codec).trans hepilogue) rfl
    match r with
    | .ok () => exact ⟨hstatus.trans hclosed, hbehind.congr rfl⟩
    | .error (.because setback) =>
        have hcodec := (hroomy _ rfl).codec
        exact (hbehind.trans hands_released ((congrArg Codec.epilogue hcodec).trans hepilogue)
          hkeeps.capacity).congr rfl
    | .error .crashed => exact hbehind
    | .error .stalled => exact hbehind

theorem close_hands : Hands P s s.close := by
  cases hopen : s.status.isOpen with
  | false =>
      refine hands_nothing ?_
      show (if s.status.isOpen = true then _ else _) = _
      rw [hopen, if_neg Bool.false_ne_true]
  | true =>
      have hreleased : s.close.link = Link.release s.link := by
        show (if s.status.isOpen = true then _ else _) = _
        rw [hopen, if_pos rfl]
      exact hands_released.congr hreleased

/-- The chain that a call in `s` hands over blocks of, if it does: the one of its own command, as
`s` cuts it, or the one of the command that is still pending, as the session cut it in which it was
sent. -/
inductive ChainOf (settings : Settings) (s : Session (Traced L)) :
    Request → Session (Traced L) → Bytes → Prop where
  | sent (command : Bytes) : ChainOf settings s (.send command) s command
  | exchanged (command : Bytes) : ChainOf settings s (.transceive command) s command
  | pending {s₀ s₁ : Session (Traced L)} {command : Bytes} {resynced : Bool} :
      Reachable settings s₀ → send command s₀ = .ok () s₁ → SinceSent s₁ resynced s →
      ChainOf settings s .receive s₀ command

/-- The frame of a block of such a chain. -/
def IsOfChain (settings : Settings) (s : Session (Traced L)) (request : Request) (frame : Bytes) :
    Prop :=
  ∃ s₀ command, ChainOf settings s request s₀ command
    ∧ ∃ block ∈ s₀.commandBlocks command, frame = s₀.codec.layout block

theorem transceive_hands (command : Bytes) (h : Housed settings s) :
    Ensures (transceive command) s fun _ s' =>
      Hands (fun frame => ∃ block ∈ s.commandBlocks command, frame = s.codec.layout block)
        s s' := by
  refine (((send_hands command h.sound).and (send_staged command h.sound)).and
    (run_housed (.send command) rfl h)).bind ?_ fun _ _ hend => hend.1.1
  intro u s₁ hend
  obtain ⟨⟨hhands, hstaged⟩, hhoused⟩ := hend
  have hready : s.status.isReady = true := by
    cases hready : s.status.isReady with
    | true => rfl
    | false =>
        rw [hready, if_neg Bool.false_ne_true] at hstaged
        obtain ⟨-, stop, hstop⟩ := hstaged
        exact absurd hstop nofun
  rw [if_pos hready] at hstaged
  obtain ⟨block, seq, hlast, -, hused, -⟩ := (outstanding_of_staged hstaged.2).staged
  have hcodec := (outstanding_of_staged hstaged.2).codec
  have hpending : ∃ block ∈ s.commandBlocks command, s₁.command.used = s.codec.layout block := by
    refine ⟨block, List.mem_of_getLast? hlast, ?_⟩
    rw [hused, hcodec]
  refine (receive_hands (P := fun frame => ∃ block ∈ s.commandBlocks command,
    frame = s.codec.layout block) hhoused.sound fun _ => hpending).mono fun r s₂ hread => ?_
  exact hhands.trans hread (congrArg Codec.epilogue hcodec)
    (hhoused.sound.frame.trans h.sound.frame.symm)

/-- **Every information block that a call hands over is of the chain of its own command, or of
the command that is still pending.** -/
theorem perform_hands (request : Request) (h : Reachable settings s) :
    Ensures (perform request) s fun _ s' => Hands (IsOfChain settings s request) s s' := by
  have hhoused := h.housed
  have hsilent : ∀ {call : Call (Traced L) Unit},
      (Ensures call s fun _ s' => Hands (IsOfChain settings s request) s s') →
      Ensures (do call; return none : Call (Traced L) (Option Bytes)) s fun _ s' =>
        Hands (IsOfChain settings s request) s s' := fun hcall =>
    hcall.bind_kept fun _ _ hend => hend
  have hother : ∀ (called : Request) {exchange : Step (Traced L) Unit},
      called.exchange? = some exchange → ¬ called.Sends → called ≠ .receive →
      Ensures (run exchange) s fun _ s' => Hands (IsOfChain settings s request) s s' :=
    fun called _ hexchange hsends hreads => run_hands called hexchange hhoused.sound fun _ =>
      exchange_hands (s := s.begun) called hexchange hsends hreads hhoused.sound.capacity
  cases request with
  | establish => exact hsilent (establish_hands hhoused)
  | close => exact close_hands
  | send command =>
      refine hsilent ((send_hands command hhoused.sound).mono fun _ _ hend => hend.mono ?_)
      exact fun frame hframe => ⟨s, command, .sent command, hframe⟩
  | receive =>
      refine (receive_hands hhoused.sound fun hpending => ?_).bind_kept fun _ _ hend => hend
      obtain ⟨s₀, s₁, command, resynced, hreachable, hsent, hsince, houtstanding⟩ :=
        (reachable_tracks h).accounted hpending
      obtain ⟨block, seq, hlast, -, hused, -⟩ := houtstanding.staged
      refine ⟨s₀, command, .pending hreachable hsent hsince, block, List.mem_of_getLast? hlast, ?_⟩
      rw [hused, houtstanding.codec]
  | transceive command =>
      refine Ensures.bind_kept ((transceive_hands command hhoused).mono fun _ _ hend =>
        hend.mono ?_) fun _ _ hend => hend
      exact fun frame hframe => ⟨s, command, .exchanged command, hframe⟩
  | prefetch =>
      refine hsilent ?_
      unfold prefetch
      rw [ensures_get_bind]
      split
      · exact hands_nothing rfl
      · exact hother .prefetch rfl not_false nofun
  | resync => exact hsilent (hother .resync rfl not_false nofun)
  | softReset => exact hsilent (hother .softReset rfl not_false nofun)
  | endApduSession => exact hsilent (hother .endApduSession rfl not_false nofun)
  | reset =>
      refine hsilent ?_
      unfold reset
      rw [ensures_get_bind]
      split
      · exact hother .softReset rfl not_false nofun
      · exact establish_hands hhoused
  | dropResponse => exact hands_nothing rfl

/-! ## Room for every block -/

/-- The control blocks of a session: its answers to blocks and to requests that it receives, and its
own requests. -/
inductive IsControl (c : Codec) : Block → Prop where
  | ready (seq : Seq) (receipt : Receipt) : IsControl c (c.ready seq receipt)
  | request (function : Supervisory) : IsControl c (c.make (.request function) [])
  | granted (multiplier : UInt8) : IsControl c (c.make (.response .wtx) [multiplier])
  | sized (size : Bytes) : size.length ≤ 2 → IsControl c (c.make (.response .ifs) size)

theorem IsControl.encodes {c : Codec} {block : Block} (h : IsControl c block) :
    c.encodeWithin block Step.controlFrameMax = .ok (c.layout block) := by
  have hroom : 7 ≤ Step.controlFrameMax := by decide
  cases h with
  | ready seq receipt =>
      exact Codec.encodeWithin_control (Nat.zero_le 2) (fun _ _ h => Control.noConfusion h) hroom
  | request function =>
      exact Codec.encodeWithin_control (Nat.zero_le 2) (fun _ _ h => Control.noConfusion h) hroom
  | granted multiplier =>
      exact Codec.encodeWithin_control (Nat.le_succ 1) (fun _ _ h => Control.noConfusion h) hroom
  | sized size hsize =>
      exact Codec.encodeWithin_control hsize (fun _ _ h => Control.noConfusion h) hroom

omit [Link L] in
/-- A block of a command can be staged wherever the session gets with the codec and the buffer that
it has now. -/
theorem Housed.stages (h : Housed settings s) (hkit : SameKit s s₁) {command : Bytes} {seq : Seq}
    {block : Block} (hblock : block ∈ (Chain.ofPayload s.codec command seq).blocks) :
    s₁.codec.encodeWithin block s₁.command.capacity = .ok (s₁.codec.layout block) := by
  have hpayload : block.payload.length ≤ s.codec.maxPayload := Chain.payload_le_of_mem_blocks hblock
  rw [hkit.codec, hkit.command]
  exact Codec.encodeWithin_information hpayload h.roomy.staging

/--
**The limit on blocks, and room for every one.** The limit is never beyond the one of the
settings. It and the answer to reset are what the history of the session makes them. Every
information block that a call hands over keeps to the limit under which its chain was
started. The blocks of a command fit into the buffer that they are staged in and control
blocks into theirs, so an exchange fails for want of room only if its response does not
fit, and no call is told of anything else of that kind.
-/
theorem block_limits (h : Reachable settings s) :
    (1 ≤ s.codec.maxPayload ∧ s.codec.maxPayload ≤ settings.maxBlockPayload) ∧
    (∃ payloads, Told settings payloads s) ∧
    (∀ payloads, Told settings payloads s →
      s.codec.maxPayload = settings.blockLimit payloads ∧ s.answer = lastAnswer? payloads) ∧
    (∀ request, ∃ items, Passes s items ((perform request).final s) ∧
      ∀ frame ∈ informationFrames items, ∃ s₀ command, ChainOf settings s request s₀ command ∧
        ∃ block ∈ s₀.commandBlocks command,
          frame = s₀.codec.layout block ∧ block.payload.length ≤ s₀.codec.maxPayload) ∧
    (∀ s₁, SameKit s s₁ →
      (∀ command seq, ∀ block ∈ (Chain.ofPayload s.codec command seq).blocks,
        s₁.codec.encodeWithin block s₁.command.capacity = .ok (s₁.codec.layout block)) ∧
      ∀ block, IsControl s₁.codec block →
        s₁.codec.encodeWithin block Step.controlFrameMax = .ok (s₁.codec.layout block)) ∧
    (∀ (request : Request) (exchange : Step (Traced L) Unit),
      request.exchange? = some exchange → ∀ setback s₁,
      exchange s.begun = .error (.because setback) s₁ →
        setback.failure.isMisfit = false ∨ request = .receive ∧ Overfull setback s₁) ∧
    ∀ request told s', perform request s = .error (.because told) s' → s.MayTell request told := by
  have hhoused := h.housed
  have hfault : settings.fault? = none := h.fault?_eq
  have hlimits : ∀ payloads, Told settings payloads s →
      s.codec.maxPayload = settings.blockLimit payloads := by
    intro payloads htold
    rw [htold.recalls.codec]
    obtain ⟨hpos, hle⟩ := settings.blockLimit_bounds hfault payloads
    obtain ⟨-, hmax⟩ := settings.maxBlockPayload_bounds hfault
    show Codec.clampPayload _ = _
    unfold Codec.clampPayload
    omega
  obtain ⟨payloads, htold⟩ := h.told
  refine ⟨?_, ⟨payloads, htold⟩, fun payloads htold => ⟨hlimits payloads htold,
    htold.recalls.answer⟩, fun request => ?_, fun s₁ hkit => ⟨?_, ?_⟩, ?_, ?_⟩
  · rw [hlimits payloads htold]
    exact settings.blockLimit_bounds hfault payloads
  · obtain ⟨items, hpasses, hframes⟩ := (perform_hands request h).final
    refine ⟨items, hpasses, fun frame hframe => ?_⟩
    obtain ⟨s₀, command, hchain, block, hblock, hlayout⟩ := hframes frame hframe
    exact ⟨s₀, command, hchain, block, hblock, hlayout, Chain.payload_le_of_mem_blocks hblock⟩
  · exact fun command seq block hblock => hhoused.stages hkit hblock
  · exact fun block hblock => hblock.encodes
  · intro request exchange hexchange setback s₁ hfails
    have hroomy : Roomy s.codec s.answer s.begun := { hhoused.roomy with }
    exact ((exchange_room hexchange hroomy).error hfails).fault setback rfl
  · exact fun request told s' hfails => (perform_told request hhoused).error hfails told rfl

/-- Settings under which a session takes over the field size of its element. -/
def adoptingSettings : Settings := { epilogue := .lrc, adoptIfsc := true }

/-- A closed session over a link on which an answer to reset arrives that names 32 octets. -/
def unadopted : Session (Traced Rehearsal) :=
  let row : Bytes := [0xA5, 0xEF, 0x19, 1, 0x10, 0x20, 0x30, 0x40, 0x50, 4, 0, 0x64, 0,
    0x20, 2, 0xB, 1, 0x90, 0, 5, 0, 0, 0, 0, 0x64, 0, 0xC8, 0, 0x33]
  create { link := { readings := [{ outcome := .ok { bytes := row, chunk := none } }] } }
    adoptingSettings

/-- The same session once it is open. -/
def adopting : Session (Traced Rehearsal) := (perform .establish).final unadopted

theorem block_limits_adopting :
    Reachable adoptingSettings adopting ∧ adopting.codec.maxPayload = 32 ∧
      adopting.answer.isSome = true ∧
      ∃ payloads, Told adoptingSettings payloads adopting ∧
        adoptingSettings.blockLimit payloads = 32 ∧ (lastAnswer? payloads).isSome = true := by
  have hnew : new unadopted.link adoptingSettings = .ok unadopted := rfl
  have hreachable : Reachable adoptingSettings adopting := .called .establish (.created hnew)
  have hlimit : adopting.codec.maxPayload = 32 := by decide +kernel
  have hanswer : adopting.answer.isSome = true := by decide +kernel
  obtain ⟨-, ⟨payloads, htold⟩, hrecalls, -⟩ := block_limits hreachable
  obtain ⟨hcodec, hlast⟩ := hrecalls payloads htold
  refine ⟨hreachable, hlimit, hanswer, payloads, htold, ?_, ?_⟩
  · rw [← hcodec, hlimit]
  · rw [← hlast, hanswer]

end Session

end SecureElement
