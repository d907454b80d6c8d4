import SecureElement.Link.Rehearsal
import SecureElement.Proofs.Reachable

/-!
# What the calls guarantee

The statements about whole calls, for every session that can be reached, every
command and every behaviour of the link:

* `receive_integrity`: a response is the payloads of the blocks that were accepted
  for it, and nothing else;
* `send_delivers`: a command that was sent was delivered block by block, and one that
  was not was delivered up to some point;
* `exchange_outcome`: a call ends idle, or closed once recovery is exhausted.

What is known of the session beforehand is that it is `Sound`; what its exchange does
is known from the module of that exchange.
-/

namespace SecureElement.Session

open Link SecureElement.Action

variable {L : Type} [Link L] {settings : Settings} {s s' : Session (Traced L)}

/-! ## Collecting a response -/

/-- A response was collected, and these are its octets. -/
def Responded (s : Session (Traced L)) (bytes : Bytes) (s' : Session (Traced L)) : Prop :=
  ∃ items accepted, Passes s items s' ∧
    Collects s.codec s.pendingCommand s.recvSeq items accepted ∧
    bytes = (accepted.map Block.payload).flatten ∧
    s'.recvSeq = Seq.next^[accepted.length] s.recvSeq ∧ s'.sendSeq = s.sendSeq

theorem receive_spec (h : Sound settings s) (hparked : s.parked = none) :
    Ensures receive s fun r s' =>
      match r with
      | .ok bytes => Responded s bytes s'
      | .error _ => True := by
  have hresponse := Step.receiveResponse_spec (s := s.begun) h.capacity hparked (Nat.zero_le _)
  have hrun : Ensures (run Step.receiveResponse) s fun r s' =>
      match r with
      | .ok () => Responded s s'.responseBytes s'
      | .error _ => True := by
    refine run_value (hresponse.mono ?_)
    intro r s₁ hend
    cases r with
    | ok u =>
        obtain ⟨items, accepted, hproceeds, hcollects, hbytes, hseq⟩ := hend
        exact ⟨hproceeds.status, items, accepted, hproceeds.passes.congr rfl, hcollects, hbytes,
          hseq⟩
    | error stop => trivial
  refine hrun.bind ?_ ?_
  · intro u s' hresponded
    exact hresponded
  · exact fun _ _ _ => trivial

/--
**A response is what the accepted blocks carry.** They are decoded from what came
during the call, in the order in which it came, and the last that came is among them;
they are numbered in turn from the number that was expected, and all but the last
announce another. What was handed over meanwhile is what `Collects` allows.
-/
theorem receive_integrity {bytes : Bytes} (h : Reachable settings s) (hparked : s.parked = none)
    (hcall : receive s = .ok bytes s') :
    ∃ items accepted, Passes s items s' ∧
      Collects s.codec s.pendingCommand s.recvSeq items accepted ∧
      (∃ raws : List Bytes, raws.Sublist (items.filterMap Passage.raw?) ∧
        raws.getLast? = (items.filterMap Passage.raw?).getLast? ∧
        List.Forall₂ (fun raw block => s.codec.decode raw = .ok block) raws accepted) ∧
      0 < accepted.length ∧
      (∀ (i : Nat) (block : Block), accepted[i]? = some block →
        block.control =
          .information (Seq.next^[i] s.recvSeq) (decide (i + 1 < accepted.length))) ∧
      bytes = (accepted.map Block.payload).flatten ∧
      s'.recvSeq = Seq.next^[accepted.length] s.recvSeq ∧ s'.sendSeq = s.sendSeq := by
  obtain ⟨items, accepted, hpasses, hcollects, hbytes, hseq⟩ :=
    (receive_spec h.sound hparked).ok hcall
  exact ⟨items, accepted, hpasses, hcollects, hcollects.decoded, hcollects.length_pos,
    hcollects.control, hbytes, hseq⟩

/-- Settings under which a rehearsal is short enough to follow. -/
def rehearsalSettings : Settings :=
  { epilogue := .lrc, handshake := .resync, maxBlockPayload := 1 }

/-- A closed session over a link on which these octets arrive, one row after the other. -/
def rehearse (rows : List Bytes) : Session (Traced Rehearsal) :=
  let reading := fun row : Bytes => { outcome := .ok { bytes := row, chunk := none } : Reading }
  create { link := { readings := rows.map reading } } rehearsalSettings

theorem rehearse_reachable (rows : List Bytes) :
    Reachable rehearsalSettings (rehearse rows) := by
  have hnew : new (rehearse rows).link rehearsalSettings = .ok (rehearse rows) := rfl
  exact .created hnew

/-- A session whose element answers the handshake and then sends a response in two blocks. -/
def responding : Session (Traced Rehearsal) :=
  (perform .establish).final
    (rehearse [[0xA5, 0xE0, 0, 0x45], [0xA5, 0x20, 1, 0x90, 0x14], [0xA5, 0x40, 1, 0, 0xE4]])

theorem receive_integrity_responding :
    ∃ s' : Session (Traced Rehearsal), Reachable rehearsalSettings responding ∧
      responding.parked = none ∧ receive responding = .ok [0x90, 0] s' ∧
      ∃ items accepted, Passes responding items s' ∧
        Collects responding.codec responding.pendingCommand .zero items accepted ∧
        [0x90, 0] = (accepted.map Block.payload).flatten := by
  have hreachable : Reachable rehearsalSettings responding := .called _ (rehearse_reachable _)
  have hparked : responding.parked = none := by decide +kernel
  have hresult : receive.result responding = .ok [0x90, 0] := by decide +kernel
  have hcall := eq_ok_of_result hresult
  have hzero : responding.recvSeq = .zero := by decide +kernel
  obtain ⟨items, accepted, hpasses, hcollects, -, -, -, hbytes, -⟩ :=
    receive_integrity hreachable hparked hcall
  rw [hzero] at hcollects
  exact ⟨_, hreachable, hparked, hcall, items, accepted, hpasses, hcollects, hbytes⟩

/-! ## Sending a command -/

theorem request_not_isInformation (c : Codec) (function : Supervisory) :
    isInformation (c.request function) = false :=
  not_isInformation_layout fun _ _ => Control.noConfusion

/-- A recovery hands over no information block. -/
theorem informationFrames_recovers {c : Codec} {items : List Passage}
    (h : ∀ x ∈ items, Recovers c x) : informationFrames items = [] := by
  refine informationFrames_eq_nil fun x hx frame hframe => ?_
  cases h x hx with
  | request outcome =>
      obtain rfl := Option.some.inj hframe
      exact request_not_isInformation c .resync
  | inVain hvain =>
      cases hvain with
      | aside haside => exact haside.not_isInformation hframe
      | other => exact absurd hframe nofun
  | answered | released => exact absurd hframe nofun

/-- What `send` comes to. -/
theorem send_spec (command : Bytes) (h : Sound settings s) (hready : s.status.isReady = true) :
    Ensures (send command) s fun r s' =>
      match r with
      | .ok () => ∃ items, Passes s items s' ∧
          Delivers s.codec (s.commandBlocks command) items ∧
          s'.sendSeq = Seq.next^[(s.commandBlocks command).length] s.sendSeq ∧
          s'.recvSeq = s.recvSeq ∧ s'.response.used = [] ∧ s'.parked = none ∧
          s'.commandPending = true
      | .error (.because _) => ∃ items back, Passes s (items ++ back) s' ∧
          Begins s.codec (s.commandBlocks command) items ∧ ∀ x ∈ back, Recovers s.codec x
      | .error _ => True := by
  -- what is delivered comes first, and whatever recovery does comes behind it
  refine ensures_run hready (Step.sendChain_spec (s := s.begun) command h.capacity) ?_ ?_ ?_ ?_
  · intro u s₁ hend
    obtain ⟨items, hproceeds, hdelivers, hsend, hrecv, hresponse, hpending⟩ := hend
    exact ⟨hproceeds.status, items, hproceeds.passes.congr rfl, hdelivers, hsend, hrecv, hresponse,
      hproceeds.parked, hpending⟩
  · intro setback s₁ hend
    obtain ⟨items, hproceeds, horderly, hbegins⟩ := hend
    have hpasses : Passes s items { s₁ with deadline := none } := hproceeds.passes.congr rfl
    refine (recover_spec (s := { s₁ with deadline := none }) setback.failure hproceeds.status
      (hproceeds.holds h.capacity)).mono ?_
    intro r s₂ hr
    cases r with
    | ok told =>
        have hcodec : s₁.codec = s.codec := hproceeds.codec
        rcases hr with ⟨-, m, vain, last, -, hrestarts, hattempts, hresyncs⟩ |
          ⟨-, vain, hgives, hattempts⟩
        · dsimp only at hattempts hresyncs
          rw [hcodec] at hattempts hresyncs
          refine ⟨items, vain ++ last, ?_, hbegins, fun x hx => ?_⟩
          · exact hpasses.trans hrestarts.passes (by rw [hcodec]) hproceeds.capacity
          · exact (List.mem_append.mp hx).elim (hattempts.recovers x) (hresyncs.recovers x)
        · dsimp only at hattempts
          rw [hcodec] at hattempts
          refine ⟨items, vain ++ [.released], ?_, hbegins, fun x hx => ?_⟩
          · exact hpasses.trans hgives.passes (by rw [hcodec]) hproceeds.capacity
          · rcases List.mem_append.mp hx with hx | hx
            · exact hattempts.recovers x hx
            · rw [List.mem_singleton.mp hx]
              exact .released
    | error stop =>
        obtain ⟨rfl, -⟩ := hr
        trivial
  · exact fun _ _ => trivial
  · exact fun _ _ => trivial

/--
**A command is delivered block by block.** If the call succeeds, each block was handed
over at least once and nothing else was but answers, the next one only after the
acknowledgement of the one before, and the link took the last one in full. If it
fails, that holds of the first blocks, and what passed behind them was recovery.
-/
theorem send_delivers (command : Bytes) (h : Reachable settings s)
    (hready : s.status.isReady = true) :
    (∀ s', send command s = .ok () s' →
      ∃ items, Passes s items s' ∧ Delivers s.codec (s.commandBlocks command) items ∧
        (∀ x ∈ items, ∀ frame, x.frame? = some frame →
          isInformation frame = true ∨ IsAnswer s.codec frame) ∧
        (∃ counts : List Nat, counts.length = (s.commandBlocks command).length ∧
          (∀ count ∈ counts, 0 < count) ∧
          informationFrames items = copiesOf s.codec counts (s.commandBlocks command)) ∧
        s'.sendSeq = Seq.next^[(s.commandBlocks command).length] s.sendSeq ∧
        s'.recvSeq = s.recvSeq ∧ s'.responseBytes = [] ∧ s'.parked = none ∧
        s'.commandPending = true) ∧
    ∀ failure s', send command s = .error (.because failure) s' →
      ∃ items back, Passes s (items ++ back) s' ∧
        Begins s.codec (s.commandBlocks command) items ∧ (∀ x ∈ back, Recovers s.codec x) ∧
        ∃ counts : List Nat, counts.length ≤ (s.commandBlocks command).length ∧
          (∀ count ∈ counts, 0 < count) ∧
          informationFrames (items ++ back) =
            copiesOf s.codec counts (s.commandBlocks command) := by
  have hspec := send_spec command h.sound hready
  have hblocks : ∀ block ∈ s.commandBlocks command,
      ∃ seq more, block.control = .information seq more := fun _ => Chain.information_of_mem_blocks
  constructor
  · intro s' hcall
    obtain ⟨items, hpasses, hdelivers, hrest⟩ := hspec.ok hcall
    exact ⟨items, hpasses, hdelivers, hdelivers.frame hblocks,
      hdelivers.informationFrames hblocks, hrest⟩
  · intro failure s' hcall
    obtain ⟨items, back, hpasses, hbegins, hback⟩ := hspec.error hcall
    refine ⟨items, back, hpasses, hbegins, hback, ?_⟩
    rw [informationFrames_append, informationFrames_recovers hback, List.append_nil]
    exact hbegins.informationFrames hblocks

/-- A session whose element answers the handshake and then acknowledges one block. -/
def acknowledging : Session (Traced Rehearsal) :=
  (perform .establish).final (rehearse [[0xA5, 0xE0, 0, 0x45], [0xA5, 0x90, 0, 0x35]])

theorem send_delivers_acknowledging :
    ∃ s' : Session (Traced Rehearsal), Reachable rehearsalSettings acknowledging ∧
      acknowledging.status.isReady = true ∧ send [0x80, 0xCA] acknowledging = .ok () s' ∧
      ∃ items, Passes acknowledging items s' ∧
        Delivers acknowledging.codec (acknowledging.commandBlocks [0x80, 0xCA]) items := by
  have hreachable : Reachable rehearsalSettings acknowledging := .called _ (rehearse_reachable _)
  have hready : acknowledging.status.isReady = true := by decide +kernel
  have hresult : (send [0x80, 0xCA]).result acknowledging = .ok () := by decide +kernel
  have hcall := eq_ok_of_result hresult
  obtain ⟨items, hpasses, hdelivers, -⟩ :=
    (send_delivers [0x80, 0xCA] hreachable hready).1 _ hcall
  exact ⟨_, hreachable, hready, hcall, items, hpasses, hdelivers⟩

/-! ## The end of a call -/

/--
**Every call that runs one exchange ends idle or closed.** After a value it is idle and
the link is still up. After a fault it is closed exactly if it says that recovery was
exhausted: then the link was let go of once, behind as many requests to resynchronise
as the settings allow. After any other fault it is idle again with a fresh start, and
what is told is the fault that ended its exchange. A call that crashes has crashed
inside its exchange, so no change of status was refused.
-/
theorem exchange_outcome {request : Request} {exchange : Step (Traced L) Unit}
    (h : Reachable settings s) (hready : s.status.isReady = true)
    (hexchange : request.exchange? = some exchange) :
    (∀ response s', perform request s = .ok response s' →
      s'.status = .idle ∧ ∃ items, Passes s items s' ∧ ∀ x ∈ items, x.IsTalk) ∧
    (∀ told s', perform request s = .error (.because told) s' →
      (told = .recoveryExhausted ↔ s'.status = .closed) ∧
      s'.responseBytes = [] ∧ s'.parked = none ∧ s'.commandPending = false ∧
      ∃ fault s₁ front, exchange s.begun = .error (.because (.major fault)) s₁ ∧
        Passes s front s₁ ∧
        (told ≠ .recoveryExhausted →
          told = fault ∧ s'.status = .idle ∧ s'.sendSeq = .zero ∧ s'.recvSeq = .zero ∧
          s'.statistics.resyncs = s.statistics.resyncs + 1 ∧
          ∃ items raw block, Passes s (front ++ items ++ [.received raw]) s' ∧
            (∀ x ∈ front ++ items, x.IsTalk) ∧ s.codec.decode raw = .ok block ∧
            block.control = .response .resync) ∧
        (told = .recoveryExhausted →
          ∃ items, Passes s (front ++ items ++ [.released]) s' ∧
            (∀ x ∈ front ++ items, x.IsTalk) ∧
            handovers (s.codec.request .resync) items = s.settings.resyncAttempts)) ∧
    ∀ s', perform request s = .error .crashed s' → exchange s.begun = .error .crashed s' := by
  have hsound := h.sound
  have houtcome := perform_outcome hexchange hready hsound.capacity hsound.parkedOrdinary
    hsound.opened
  refine ⟨?_, ?_, ?_⟩
  · intro response s' hcall
    exact (houtcome.ok hcall).2
  · intro told s' hcall
    obtain ⟨-, fault, s₁, front, hran, hfault, hpasses,
      ⟨rfl, m, vain, last, -, hrestarts, hattempts, hresyncs⟩ | ⟨rfl, vain, hgives, hattempts⟩⟩ :=
        houtcome.error hcall
    · -- it went on: the last attempt ends in the response to its request
      have hopen : s'.status ≠ .closed := by
        rw [hrestarts.status]
        exact Status.noConfusion
      refine ⟨⟨fun hexhausted => absurd hexhausted hfault, fun hclosed => absurd hclosed hopen⟩,
        hrestarts.response, hrestarts.parked, hrestarts.commandPending, told, s₁, front, hran,
        hpasses, fun _ => ?_, fun hexhausted => absurd hexhausted hfault⟩
      obtain ⟨before, raw, block, rfl, hdecode, hcontrol⟩ := hresyncs.last
      have hrow : front ++ (vain ++ (before ++ [.received raw])) =
          front ++ (vain ++ before) ++ [Passage.received raw] := by simp
      have hall := hrestarts.passes
      have htalk := hrestarts.talk
      rw [hrow] at hall htalk
      exact ⟨rfl, hrestarts.status, hrestarts.sendSeq, hrestarts.recvSeq, hrestarts.resyncs,
        vain ++ before, raw, block, hall, fun x hx => htalk x (List.mem_append_left _ hx), hdecode,
        hcontrol⟩
    · -- it was given up after all the attempts that the settings allow
      refine ⟨⟨fun _ => hgives.status, fun _ => rfl⟩, hgives.response, hgives.parked,
        hgives.commandPending, fault, s₁, front, hran, hpasses, fun hother => absurd rfl hother,
        fun _ => ⟨vain, hgives.passes, hgives.talk, hattempts.handovers⟩⟩
  · intro s' hcall
    exact (houtcome.error hcall).2

/-- A session whose element answers the handshake and then falls silent. -/
def silent : Session (Traced Rehearsal) :=
  (perform .establish).final (rehearse [[0xA5, 0xE0, 0, 0x45]])

theorem exchange_outcome_silent :
    ∃ s' : Session (Traced Rehearsal), Reachable rehearsalSettings silent ∧
      silent.status.isReady = true ∧
      Request.resync.exchange? (L := Rehearsal) = some Step.resynchronise ∧
      perform .resync silent = .error (.because .recoveryExhausted) s' ∧ s'.status = .closed ∧
      ∃ front items, Passes silent (front ++ items ++ [.released]) s' ∧
        handovers (silent.codec.request .resync) items = 3 := by
  have hreachable : Reachable rehearsalSettings silent := .called _ (rehearse_reachable _)
  have hready : silent.status.isReady = true := by decide +kernel
  have hexchange : Request.resync.exchange? (L := Rehearsal) = some Step.resynchronise := rfl
  have hresult : (perform .resync).result silent = .error (.because .recoveryExhausted) := by
    decide +kernel
  have hcall := eq_error_of_result hresult
  obtain ⟨hclosed, -, -, -, fault, s₁, front, -, -, -, hexhausted⟩ :=
    (exchange_outcome hreachable hready hexchange).2.1 _ _ hcall
  obtain ⟨items, hpasses, -, hcount⟩ := hexhausted rfl
  exact ⟨_, hreachable, hready, hexchange, hcall, hclosed.mp rfl, front, items, hpasses, hcount⟩

end SecureElement.Session
