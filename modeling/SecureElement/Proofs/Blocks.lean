import Mathlib.Data.List.GetD
import SecureElement.Proofs.Contents
import SecureElement.Proofs.Ensures
import SecureElement.Proofs.Layout
import SecureElement.Proofs.Talk
import SecureElement.Session.Receive

/-!
# What passes while one block is sent or awaited

One statement for each step below an exchange, saying what it makes pass over the
link and what its result has to do with that:

* `transmit_spec`: one frame is handed over, once, whatever comes of it;
* `receiveBlock_spec`: one block arrives and is left in the receive frame, or one wait
  is lost. Which octets belong to the block is decided here by the same rule by which
  the record is read, so the next block starts where it should;
* `awaitBlock_spec`: everything before the block that is returned is an `Aside`, that
  is a wait without a usable block, or a request of the peer with its answer;
* `ask_spec`: that with one frame handed over in front, which is how a block that was
  sent comes to be answered.

None of these steps can crash. The frame has to hold the longest prologue, which is
where `Block.longPrologue ≤ capacity` comes from.
-/

namespace SecureElement

/-- The stops of a step that charges no try: it does not crash, and what it reports is a fault of
the exchange and not the end of a recovery. -/
def Stop.IsOrdinary : Stop Setback → Prop
  | .because setback => setback.failure ≠ .recoveryExhausted
  | .crashed => False
  | .stalled => True

theorem Setback.ofLink_failure (fault : Link.Fault) :
    (Setback.ofLink fault).failure ≠ .recoveryExhausted := by
  cases fault <;> exact Failure.noConfusion

theorem Failure.ofBlock_ne (fault : Block.Fault) : Failure.ofBlock fault ≠ .recoveryExhausted := by
  cases fault <;> exact Failure.noConfusion

theorem Inbound.rejection_ne (inbound : Inbound) : inbound.rejection ≠ .recoveryExhausted := by
  unfold Inbound.rejection
  split <;> exact Failure.noConfusion

/-! ## Asides -/

/-- The frames by which the requests of a peer are answered on the way. -/
inductive IsAnswer (c : Codec) : Bytes → Prop where
  | extension (multiplier : UInt8) : IsAnswer c (c.layout (c.make (.response .wtx) [multiplier]))
  | fieldSize (size : Bytes) : 0 < size.length → size.length ≤ 2 →
      IsAnswer c (c.layout (c.make (.response .ifs) size))

/-- What may pass before a block that is for the exchange. -/
inductive Aside (c : Codec) : Passage → Prop where
  /-- A wait ended without a block. -/
  | lost (octets : Bytes) : Aside c (.lost octets)
  /-- A block came that cannot be read. -/
  | unreadable {raw : Bytes} {fault : Block.Fault} :
      c.decode raw = .error fault → Aside c (.received raw)
  /-- The peer asked for something that is answered on the way. -/
  | request {raw : Bytes} {block : Block} : c.decode raw = .ok block →
      block.control = .request .wtx ∨ block.control = .request .ifs → Aside c (.received raw)
  /-- It was answered. -/
  | answer {frame : Bytes} {outcome : Except Link.Fault Nat} :
      IsAnswer c frame → Aside c (.sent frame outcome)

/-- What a wait comes to that brings no block. -/
inductive Fruitless (c : Codec) : Passage → Prop where
  | lost (octets : Bytes) : Fruitless c (.lost octets)
  | unreadable {raw : Bytes} {fault : Block.Fault} :
      c.decode raw = .error fault → Fruitless c (.received raw)

theorem Fruitless.aside {c : Codec} {x : Passage} (h : Fruitless c x) : Aside c x := by
  cases h with
  | lost octets => exact .lost octets
  | unreadable hdecode => exact .unreadable hdecode

/-- `inbound` is the block `block` that came as `raw`, and the frame still holds it. -/
structure Arrived (c : Codec) (frame : Buffer) (inbound : Inbound) (raw : Bytes) (block : Block) :
    Prop where
  decode : c.decode raw = .ok block
  used : frame.used = raw
  control : inbound.control = block.control
  payload : inbound.payload? raw = some block.payload

/-! ## Counts -/

/-- Whether octets are refused for their epilogue. -/
def Codec.mismatches (c : Codec) (raw : Bytes) : Bool :=
  match c.decode raw with
  | .error (.epilogueMismatch _ _) => true
  | _ => false

section Mismatches

variable {c : Codec} {raw : Bytes}

theorem Codec.mismatches_of_ok {block : Block} (h : c.decode raw = .ok block) :
    c.mismatches raw = false := by
  unfold mismatches
  rw [h]

theorem Codec.mismatches_of_epilogueMismatch {expected actual : UInt16}
    (h : c.decode raw = .error (.epilogueMismatch expected actual)) : c.mismatches raw = true := by
  unfold mismatches
  rw [h]

theorem Codec.mismatches_of_error {fault : Block.Fault} (h : c.decode raw = .error fault)
    (hother : ∀ expected actual, fault ≠ .epilogueMismatch expected actual) :
    c.mismatches raw = false := by
  unfold mismatches
  rw [h]
  cases fault with
  | epilogueMismatch expected actual => exact absurd rfl (hother expected actual)
  | _ => rfl

end Mismatches

/-- The counts behind one more passage. -/
def Statistics.pass (c : Codec) (counts : Statistics) : Passage → Statistics
  | .sent frame _ => { counts with
      blocksSent := counts.blocksSent + 1
      extensions := counts.extensions + (Codec.isGrant frame).toNat }
  | .received raw => { counts with
      blocksReceived := counts.blocksReceived + 1
      epilogueMismatches := counts.epilogueMismatches + (c.mismatches raw).toNat }
  | .raised _ | .lost _ | .released => counts

/-- A grant was counted before it was handed over, and everything else is a block and no more. -/
theorem Statistics.pass_sent (c : Codec) (counts : Statistics) {frame : Bytes} {grant : Bool}
    (h : Codec.isGrant frame = grant) (outcome : Except Link.Fault Nat) :
    counts.pass c (.sent frame outcome) = { counts with
      blocksSent := counts.blocksSent + 1
      extensions := counts.extensions + grant.toNat } := by
  rw [← h]
  rfl

/-- The counts behind a row of passages. -/
def Statistics.passAll (c : Codec) (counts : Statistics) (items : List Passage) : Statistics :=
  items.foldl (pass c) counts

/-- What passes over a link is no resynchronisation yet. -/
theorem Statistics.resyncs_pass (c : Codec) (counts : Statistics) (x : Passage) :
    (counts.pass c x).resyncs = counts.resyncs := by
  cases x <;> rfl

namespace Session

variable {L : Type} {s : Session (Link.Traced L)} {items : List Passage}

/-- Calls on the link, the frame and the counts are all that sending and receiving has to show. -/
theorem talks_of_link {link : Link.Traced L} {frame : Buffer} {statistics : Statistics}
    (hcapacity : frame.capacity = s.frame.capacity)
    (hresyncs : statistics.resyncs = s.statistics.resyncs)
    (hpasses : Passes s items { s with link, frame, statistics })
    (htalk : ∀ x ∈ items, x.IsTalk) : Talks s items { s with link, frame, statistics } where
  settings := rfl
  status := rfl
  capacity := hcapacity
  passes := hpasses
  talk := htalk
  codec := rfl
  sendSeq := rfl
  recvSeq := rfl
  response := rfl
  command := rfl
  parked := rfl
  commandPending := rfl
  answer := rfl
  resyncs := hresyncs

end Session

namespace Link

variable {L : Type} [Link L]

theorem writeAll_heard (bytes : Bytes) (timeout : Nanos) (t : Traced L) :
    ∃ outcome, (writeAll bytes timeout t).2.events = t.events ++ [.write bytes timeout outcome] ∧
      ((writeAll bytes timeout t).1 = .ok () ↔ outcome = .ok bytes.length) := by
  refine ⟨_, ?_, writeAll_ok_iff⟩
  rw [writeAll_traced, Traced.events_record]
  rfl

end Link

namespace Step

open SecureElement.Action Session Link

variable {L : Type} [Link L] {s : Session (Traced L)}

/-! ## Sending -/

/-- One frame was handed to the link, and nothing else happened. -/
def HandedOver (frame : Bytes) (s : Session (Traced L)) (r : Except (Stop Setback) Unit)
    (s' : Session (Traced L)) : Prop :=
  (s'.retries = s.retries ∧ s'.frame = s.frame) ∧
    ∃ outcome, Talks s [.sent frame outcome] s' ∧
      match r with
      | .ok () => outcome = .ok frame.length
      | .error stop => stop.IsOrdinary

theorem transmit_spec (frame : Bytes) : Ensures (transmit frame) s (HandedOver frame s) := by
  unfold transmit
  rw [ensures_count_bind, ensures_get_bind]
  dsimp only
  rw [ensures_onLink_bind]
  obtain ⟨outcome, hevents, hok⟩ := writeAll_heard frame s.settings.blockTimeout s.link
  have htalks : ∀ statistics : Statistics, statistics.resyncs = s.statistics.resyncs →
      Talks s [.sent frame outcome]
        { s with link := (writeAll frame s.settings.blockTimeout s.link).2, statistics } := by
    intro statistics hresyncs
    exact talks_of_link rfl hresyncs ⟨_, hevents, rfl⟩ (List.forall_mem_singleton.mpr trivial)
  cases hresult : (writeAll frame s.settings.blockTimeout s.link).1 with
  | ok u => exact ⟨⟨rfl, rfl⟩, outcome, htalks _ rfl, hok.mp hresult⟩
  | error fault => exact ⟨⟨rfl, rfl⟩, outcome, htalks _ rfl, Setback.ofLink_failure fault⟩

theorem sendCommand_spec : Ensures sendCommand s (HandedOver s.command.used s) :=
  transmit_spec s.command.used

/-- A ready or supervisory block with a short payload is handed over as it is laid out. -/
theorem sendControl_spec {block : Block} (hpayload : block.payload.length ≤ 2)
    (hcontrol : ∀ seq more, block.control ≠ .information seq more) :
    Ensures (sendControl block) s (HandedOver (s.codec.layout block) s) := by
  unfold sendControl
  rw [ensures_get_bind,
    Codec.encodeWithin_control hpayload hcontrol (by unfold controlFrameMax; omega)]
  exact transmit_spec _

omit [Link L] in
/-- Staging puts the block, as it is laid out, where it is sent from. -/
theorem stage_spec (block : Block) :
    Ensures (stage block) s fun r s' =>
      ∃ command, s' = { s with command } ∧
        match r with
        | .ok () => command.used = s.codec.layout block
        | .error (.because setback) =>
            ∃ failure, setback = .major failure ∧ failure ≠ .recoveryExhausted
        | .error _ => False := by
  unfold stage
  rw [ensures_get_bind]
  dsimp only
  rw [ensures_set_bind]
  generalize hfilled : s.command.fill _ = filled
  cases hencode : s.codec.encodeWithin block s.command.clear.capacity with
  | ok frame =>
      obtain ⟨hframe, hroom⟩ := Codec.encodeWithin_eq_ok hencode
      rw [Buffer.capacity_clear] at hroom
      obtain ⟨hok, hused⟩ : filled.1 = .ok () ∧ filled.2.used = frame := by
        rw [← hfilled]
        exact Buffer.used_fill (by simp only [hencode]) hroom
      rw [hok]
      exact ⟨_, rfl, hused.trans hframe⟩
  | error fault =>
      have hrefused : filled.1 = .error fault := by
        rw [← hfilled]
        exact Buffer.fill_refused (by simp only [hencode])
      rw [hrefused]
      exact ⟨_, rfl, _, rfl, Failure.ofBlock_ne fault⟩

/-! ## Receiving -/

/-- Octets for which there is room are appended to the frame, and the read is heard as it went. -/
theorem readFrame_spec {begun : Bytes} {n : Nat} (timeout : Nanos) (hroom : n ≤ s.frame.room)
    (hbegun : ¬ IsWhole s.codec.epilogue begun)
    (hpart : ∀ part : Bytes, part.length < n → ¬ IsWhole s.codec.epilogue (begun ++ part)) :
    Ensures (readFrame n timeout) s fun r s' =>
      ∃ link frame, s' = { s with link, frame } ∧ frame.capacity = s.frame.capacity ∧
        match r with
        | .ok () => ∃ octets : Bytes, octets.length = n ∧ frame.used = s.frame.used ++ octets ∧
            ∀ now later, arrive s.codec.epilogue s.frame.capacity (begun ++ octets) = (now, later) →
              Hears s begun now s' later
        | .error stop => stop.IsOrdinary ∧ stop ≠ .stalled ∧
            ∃ octets, Hears s begun [.lost octets] s' [] := by
  unfold readFrame
  rw [ensures_get_bind]
  cases hclaim : s.frame.claim n with
  | error overflow =>
      unfold Buffer.claim at hclaim
      rw [if_pos hroom] at hclaim
      exact absurd hclaim (by simp)
  | ok claimed =>
      dsimp only
      rw [ensures_onLink_bind]
      -- what was heard is a fact about the link alone; the frame comes in behind it
      have hheard : HeardRead s.codec.epilogue s.frame.capacity n begun s.link
          (readAll n timeout s.link) :=
        readUpTo_heard timeout n n begun s.link (Nat.le_refl n) hbegun hpart
      generalize readAll n timeout s.link = result at hheard
      obtain ⟨⟨octets, fault⟩, link⟩ := result
      obtain ⟨events, hevents, hread⟩ := hheard
      dsimp only at hevents ⊢
      rw [ensures_modify_bind]
      cases fault with
      | none =>
          obtain ⟨hlength, hpassages⟩ := hread
          refine ⟨_, _, rfl, Buffer.capacity_setTail_claim hclaim, octets, hlength,
            Buffer.used_setTail_claim hclaim hlength, fun now later h => ?_⟩
          exact ⟨events, hevents, hpassages.trans h⟩
      | some fault =>
          exact ⟨_, _, rfl, Buffer.capacity_setTail_claim hclaim, Setback.ofLink_failure fault,
            nofun, _, events, hevents, hread⟩

theorem ensures_discard_nothing {Q : Except (Stop Setback) Unit → Session (Traced L) → Prop}
    (timeout : Nanos) (rounds : Nat) :
    Ensures (discard timeout rounds 0) s Q ↔ Q (.ok ()) s := by
  cases rounds with
  | zero => exact Iff.rfl
  | succ rounds =>
      unfold discard
      rw [ensures_get_bind]
      dsimp only
      rw [if_pos (Nat.zero_min _), ensures_pure]

/-- **Dropping the rest of a block too large for the frame is heard as one lost wait.** `begun` is
what had arrived of it, and `remaining` is what it still announces. -/
theorem discard_spec (timeout : Nanos) :
    ∀ (rounds remaining : Nat) (begun : Bytes) (s : Session (Traced L)),
      s.frame.used = [] → remaining ≤ rounds → 0 < remaining → 0 < s.frame.capacity →
      s.frame.capacity < begun.length + remaining →
      (∀ part, IsWhole s.codec.epilogue (begun ++ part) ↔ part.length = remaining) →
      Ensures (discard timeout rounds remaining) s fun r s' =>
        r = .ok () ∧ ∃ link frame, s' = { s with link, frame } ∧
          frame.capacity = s.frame.capacity ∧ ∃ octets, Hears s begun [.lost octets] s' []
  | 0, remaining, _, _, _, hrounds, hpos, _, _, _ => by omega
  | rounds + 1, remaining, begun, s, hempty, hrounds, hpos, hcapacity, hlarge, hwhole => by
      have hroom := s.frame.length_used_add_room
      rw [hempty, List.length_nil] at hroom
      have hbegun : ¬ IsWhole s.codec.epilogue begun := by
        intro h
        rw [← List.append_nil begun, hwhole, List.length_nil] at h
        omega
      unfold discard
      rw [ensures_get_bind]
      dsimp only
      rw [if_neg (by omega)]
      have hpart : ∀ part : Bytes, part.length < min remaining s.frame.capacity →
          ¬ IsWhole s.codec.epilogue (begun ++ part) := by
        intro part hp h
        rw [hwhole] at h
        omega
      refine ensures_attempt_bind (readFrame_spec timeout (by omega) hbegun hpart) ?_ ?_ ?_ ?_
      · intro u s' hend
        obtain ⟨link, frame, rfl, hsame, octets, hlength, -, hheard⟩ := hend
        dsimp only
        rw [ensures_modify_bind]
        have hcleared : frame.clear.capacity = s.frame.capacity := by
          rw [Buffer.capacity_clear, hsame]
        -- the last piece completes the block; before that another piece is read
        by_cases hlast : remaining ≤ s.frame.capacity
        · have hdone : remaining - min remaining s.frame.capacity = 0 := by omega
          have hbyte : IsWhole s.codec.epilogue (begun ++ octets) := (hwhole _).mpr (by omega)
          have hlost := hheard _ _ (arrive_of_whole hbyte)
          rw [if_neg (by rw [List.length_append]; omega)] at hlost
          rw [hdone, ensures_discard_nothing]
          exact ⟨rfl, _, _, rfl, hcleared, _, hlost⟩
        · have hstill : ¬ IsWhole s.codec.epilogue (begun ++ octets) := by
            rw [hwhole]
            omega
          have hbefore : Hears s begun [] { s with link, frame := frame.clear } (begun ++ octets) :=
            (hheard _ _ (arrive_of_not_whole hstill)).congr rfl
          refine (discard_spec timeout rounds (remaining - min remaining s.frame.capacity)
            (begun ++ octets) _ (Buffer.used_clear _) (by omega) (by omega) (by dsimp only; omega)
            (by dsimp only; rw [List.length_append]; omega) ?_).mono ?_
          · intro part
            rw [List.append_assoc, hwhole, List.length_append]
            omega
          · intro r s'' hend
            obtain ⟨hr, link', frame', rfl, hsame', octets', hheard'⟩ := hend
            refine ⟨hr, _, _, rfl, hsame'.trans hcleared, octets', ?_⟩
            exact hbefore.trans hheard' rfl hcleared
      · intro setback s' hend
        obtain ⟨link, frame, rfl, hsame, -, -, octets, hheard⟩ := hend
        exact ⟨rfl, _, _, rfl, (Buffer.capacity_clear _).trans hsame, octets, hheard⟩
      · intro s' hend
        obtain ⟨_, _, -, -, hordinary, -⟩ := hend
        exact hordinary.elim
      · intro s' hend
        obtain ⟨_, _, -, -, -, hstalled, -⟩ := hend
        exact absurd rfl hstalled

/-- A prologue is read whole, and then it tells how much follows it. -/
theorem readPrologue_spec (timeout : Nanos) (hcapacity : Block.longPrologue ≤ s.frame.capacity) :
    Ensures (readPrologue timeout) s fun r s' =>
      ∃ link frame, s' = { s with link, frame } ∧ frame.capacity = s.frame.capacity ∧
        match r with
        | .ok () => Hears s [] [] s' frame.used ∧
            frame.used.length = Block.shortPrologue + Codec.extension (frame.used.getD 2 0)
        | .error stop => stop.IsOrdinary ∧ ∃ octets, Hears s [] [.lost octets] s' [] := by
  have hsame : Hears s [] [] { s with frame := s.frame.clear } [] := hears_same rfl
  have hcleared := Buffer.capacity_clear s.frame
  have hshort : ∀ part : Bytes, part.length < Block.shortPrologue →
      ¬ IsWhole s.codec.epilogue ([] ++ part) := fun part hp =>
    Codec.not_isWhole_of_length_le (by rw [List.nil_append]; omega)
  unfold Block.longPrologue at hcapacity
  unfold readPrologue
  rw [ensures_modify_bind]
  have hroom : Block.shortPrologue ≤ s.frame.clear.room := by
    have hcells := s.frame.clear.length_used_add_room
    rw [Buffer.used_clear, List.length_nil] at hcells
    unfold Block.shortPrologue
    omega
  -- no row of octets as short as a prologue is a block, so nothing is heard before the body
  refine Ensures.bind (readFrame_spec timeout hroom (hshort [] (by decide)) hshort) ?_ ?_
  · intro u s' hend
    obtain ⟨link, frame, rfl, hframe, first, hfirst, hused, hheard⟩ := hend
    rw [Buffer.used_clear, List.nil_append] at hused
    rw [List.nil_append] at hheard
    have hnot : ∀ part : Bytes, part.length ≤ Codec.extension (first.getD 2 0) →
        ¬ IsWhole s.codec.epilogue (first ++ part) := by
      intro part hp
      refine Codec.not_isWhole_of_length_le ?_
      rw [List.length_append, hfirst, List.getD_append _ _ _ _ (by rw [hfirst]; decide)]
      omega
    have hnone := hnot [] (Nat.zero_le _)
    rw [List.append_nil] at hnone
    have hfirstHeard := hheard _ _ (arrive_of_not_whole hnone)
    have hroom : Codec.extension (first.getD 2 0) ≤ frame.room := by
      have hcells := frame.length_used_add_room
      rw [hused, hfirst, hframe, hcleared] at hcells
      unfold Codec.extension Block.shortPrologue at *
      split <;> omega
    rw [ensures_get_bind]
    dsimp only
    rw [hused]
    refine Ensures.mono
      (readFrame_spec timeout hroom hnone fun part hp => hnot part (Nat.le_of_lt hp)) ?_
    intro r s'' hend
    obtain ⟨link', frame', rfl, hframe', hr⟩ := hend
    refine ⟨_, _, rfl, (hframe'.trans hframe).trans hcleared, ?_⟩
    have hbefore := hsame.trans hfirstHeard rfl hcleared
    cases r with
    | ok u' =>
        obtain ⟨rest, hrest, hused', hheard'⟩ := hr
        have hrestHeard := hheard' _ _ (arrive_of_not_whole (hnot rest (Nat.le_of_eq hrest)))
        dsimp only at hused' ⊢
        rw [hused', hused]
        refine ⟨hbefore.trans hrestHeard rfl (hframe.trans hcleared), ?_⟩
        rw [List.length_append, hfirst, hrest, List.getD_append _ _ _ _ (by rw [hfirst]; decide)]
    | error stop =>
        obtain ⟨hordinary, -, octets, hlost⟩ := hr
        exact ⟨hordinary, octets, hbefore.trans hlost rfl (hframe.trans hcleared)⟩
  · intro stop s' hend
    obtain ⟨link, frame, rfl, hframe, hordinary, -, octets, hlost⟩ := hend
    exact ⟨_, _, rfl, hframe.trans hcleared, hordinary, octets, hsame.trans hlost rfl hcleared⟩

omit [Link L] in
/-- The payload of a block lies behind the prologue that announces it. -/
theorem arrived_of_decode {c : Codec} {frame : Buffer} {block : Block} {start length : Nat}
    (hannounced : Codec.announced? frame.used = some (start, length))
    (hdecode : c.decode frame.used = .ok block) :
    Arrived c frame { control := block.control, start, stop := start + block.payload.length }
      frame.used block := by
  refine ⟨hdecode, rfl, rfl, ?_⟩
  obtain ⟨front, length', hannounced', hlength, -, hpayload⟩ := Codec.decode_eq_ok hdecode
  rw [hannounced] at hannounced'
  obtain ⟨rfl, rfl⟩ := Prod.mk.inj (Option.some.inj hannounced')
  have hsize : block.payload.length = length := by
    rw [hpayload, List.length_drop, List.length_take]
    omega
  unfold Inbound.payload?
  dsimp only
  rw [hsize, if_pos (by omega), hpayload]

omit [Link L] in
/-- A frame that is full up to its end is decoded where it lies. -/
theorem readBlock_spec {start length : Nat}
    (hannounced : Codec.announced? s.frame.used = some (start, length)) :
    Ensures (readBlock start) s fun r s' =>
      s' = { s with statistics := s.statistics.pass s.codec (.received s.frame.used) } ∧
        match r with
        | .ok inbound => ∃ block, Arrived s.codec s.frame inbound s.frame.used block
        | .error stop => stop.IsOrdinary ∧ ∃ fault, s.codec.decode s.frame.used = .error fault := by
  have hpass : ∀ mismatch : Bool, s.codec.mismatches s.frame.used = mismatch →
      s.statistics.pass s.codec (.received s.frame.used) = { s.statistics with
        blocksReceived := s.statistics.blocksReceived + 1
        epilogueMismatches := s.statistics.epilogueMismatches + mismatch.toNat } := by
    intro mismatch hmismatch
    rw [← hmismatch]
    rfl
  unfold readBlock
  rw [ensures_count_bind, ensures_get_bind]
  dsimp only
  cases hdecode : s.codec.decode s.frame.used with
  | ok block =>
      rw [hpass false (Codec.mismatches_of_ok hdecode)]
      exact ⟨rfl, block, arrived_of_decode hannounced hdecode⟩
  | error fault =>
      dsimp only
      split
      · rename_i expected actual
        rw [hpass true (Codec.mismatches_of_epilogueMismatch hdecode)]
        exact ⟨rfl, Failure.ofBlock_ne (.epilogueMismatch expected actual), _, rfl⟩
      · rename_i hother
        rw [hpass false (Codec.mismatches_of_error hdecode hother)]
        exact ⟨rfl, Failure.ofBlock_ne fault, fault, rfl⟩

/-- **One whole block arrives and stays in the frame, or one wait is lost.** -/
theorem receiveBlock_spec (timeout : Nanos) (hcapacity : Block.longPrologue ≤ s.frame.capacity) :
    Ensures (receiveBlock timeout) s fun r s' =>
      ∃ link frame statistics, s' = { s with link, frame, statistics } ∧
        match r with
        | .ok inbound => ∃ raw block, Talks s [.received raw] s' ∧
            Arrived s.codec frame inbound raw block ∧
            statistics = s.statistics.pass s.codec (.received raw)
        | .error stop => stop.IsOrdinary ∧ ∃ x, Talks s [x] s' ∧ Fruitless s.codec x ∧
            statistics = s.statistics.pass s.codec x := by
  have lost : ∀ {link : Traced L} {frame : Buffer} {octets : Bytes},
      frame.capacity = s.frame.capacity → Hears s [] [.lost octets] { s with link, frame } [] →
      ∃ x, Talks s [x] { s with link, frame } ∧ Fruitless s.codec x ∧
        s.statistics = s.statistics.pass s.codec x := by
    intro link frame octets hframe hheard
    refine ⟨.lost octets, talks_of_link hframe rfl hheard ?_, .lost octets, rfl⟩
    exact List.forall_mem_singleton.mpr trivial
  unfold receiveBlock
  refine (readPrologue_spec timeout hcapacity).bind ?_ ?_
  · intro u s₁ hend
    obtain ⟨link, frame, rfl, hframe, hheard, hprologue⟩ := hend
    obtain ⟨length, hannounced, hbody⟩ := Codec.announced?_of_prologue hprologue
    have hwhole : ∀ part, IsWhole s.codec.epilogue (frame.used ++ part) ↔
        part.length = length + s.codec.epilogue.width := fun part =>
      Codec.isWhole_append_iff hannounced
    have hwidth := Codec.width_pos s.codec.epilogue
    have hnot : ¬ IsWhole s.codec.epilogue frame.used := by
      rw [← List.append_nil frame.used, hwhole, List.length_nil]
      omega
    rw [ensures_get_bind]
    dsimp only
    rw [hbody]
    dsimp only
    unfold Block.longPrologue at hcapacity
    split
    · -- the frame cannot hold the block: the rest of it is dropped
      rename_i hlarge
      have hsame : Hears s [] [] { s with link, frame := frame.clear } frame.used :=
        hheard.congr rfl
      have hcleared : frame.clear.capacity = s.frame.capacity := by
        rw [Buffer.capacity_clear, hframe]
      rw [ensures_modify_bind]
      refine Ensures.bind (discard_spec timeout _ _ frame.used _ (Buffer.used_clear _)
        (Nat.le_refl _) (by omega) (by dsimp only; omega) (by dsimp only; omega) hwhole) ?_ ?_
      · intro u' s₂ hend
        obtain ⟨-, link', frame', rfl, hframe', octets, hlost⟩ := hend
        exact ⟨_, _, _, rfl, Failure.noConfusion,
          lost (hframe'.trans hcleared) (hsame.trans hlost rfl hcleared)⟩
      · intro stop s₂ hend
        obtain ⟨hok, -⟩ := hend
        exact absurd hok (by simp)
    · -- the rest of the block is read, and the frame decides what it is
      rename_i hfits
      have hroom : length + s.codec.epilogue.width ≤ frame.room := by
        have hcells := frame.length_used_add_room
        omega
      refine Ensures.bind (readFrame_spec timeout hroom hnot fun part hp h => ?_) ?_ ?_
      · rw [hwhole] at h
        omega
      · intro u' s₂ hend
        obtain ⟨link', frame', rfl, hframe', octets, hlength, hused, harrived⟩ := hend
        dsimp only at hused
        -- the listener of the link cuts the same block out of it as the frame holds
        have hblock : IsWhole s.codec.epilogue (frame.used ++ octets) := (hwhole _).mpr hlength
        have hreceived := harrived _ _ (arrive_of_whole hblock)
        rw [if_pos (by rw [List.length_append, hlength]; exact Nat.le_of_not_lt hfits), ← hused]
          at hreceived
        have hpasses := hheard.trans hreceived rfl hframe
        have hcap := hframe'.trans hframe
        have htalk : ∀ x ∈ [Passage.received frame'.used], x.IsTalk :=
          List.forall_mem_singleton.mpr trivial
        have hfront : Codec.announced? frame'.used = some (frame.used.length, length) := by
          rw [hused]
          exact announced?_append hannounced
        refine Ensures.mono (readBlock_spec hfront) ?_
        intro r s₃ hend
        obtain ⟨rfl, hr⟩ := hend
        refine ⟨_, _, _, rfl, ?_⟩
        have htalks : Talks s [.received frame'.used] { s with
            link := link', frame := frame'
            statistics := s.statistics.pass s.codec (.received frame'.used) } :=
          talks_of_link hcap (Statistics.resyncs_pass ..) (hpasses.congr rfl) htalk
        cases r with
        | ok inbound =>
            obtain ⟨block, harr⟩ := hr
            exact ⟨_, block, htalks, harr, rfl⟩
        | error stop =>
            obtain ⟨hordinary, fault, hfault⟩ := hr
            exact ⟨hordinary, _, htalks, .unreadable hfault, rfl⟩
      · intro stop s₂ hend
        obtain ⟨link', frame', rfl, hframe', hordinary, -, octets, hlost⟩ := hend
        exact ⟨_, _, _, rfl, hordinary,
          lost (hframe'.trans hframe) (hheard.trans hlost rfl hframe)⟩
  · intro stop s₁ hend
    obtain ⟨link, frame, rfl, hframe, hordinary, octets, hlost⟩ := hend
    exact ⟨_, _, _, rfl, hordinary, lost hframe hlost⟩

/-! ## Waiting -/

theorem waitTime_spec (timeout : Nanos) :
    Ensures (waitTime timeout) s fun r s' =>
      s' = s ∧ match r with
        | .ok _ => True
        | .error stop => stop.IsOrdinary := by
  unfold waitTime
  rw [ensures_get_bind]
  cases s.deadline with
  | none => exact ⟨rfl, trivial⟩
  | some deadline =>
      dsimp only
      split
      · exact ⟨rfl, Failure.noConfusion⟩
      · exact ⟨rfl, trivial⟩

omit [Link L] in
/-- Granting more time changes the account of it, and nothing that an exchange relies on. -/
theorem extendWait_spec (multiplier : UInt8) :
    Ensures (extendWait multiplier) s fun r s' =>
      (s'.retries = s.retries ∧ s'.frame = s.frame) ∧ Talks s [] s' ∧
        match r with
        | .ok _ => True
        | .error stop => stop.IsOrdinary := by
  unfold extendWait
  split
  · exact ⟨⟨rfl, rfl⟩, Talks.refl s, Failure.noConfusion⟩
  · dsimp only
    rw [ensures_modify_bind, ensures_get_bind]
    dsimp only
    split
    · refine ⟨⟨rfl, rfl⟩, ?_, Failure.noConfusion⟩
      exact { Talks.refl s with passes := hears_same rfl }
    · rw [ensures_set_bind]
      refine ⟨⟨rfl, rfl⟩, ?_, trivial⟩
      exact { Talks.refl s with passes := hears_same rfl }

/-- Only asides passed since `start`. -/
def Waited (start s : Session (Traced L)) : Prop :=
  ∃ items, Talks start items s ∧ ∀ x ∈ items, Aside start.codec x

omit [Link L] in
theorem Waited.refl (s : Session (Traced L)) : Waited s s :=
  ⟨[], Talks.refl s, List.forall_mem_nil _⟩

omit [Link L] in
theorem Waited.trans {s₁ s₂ : Session (Traced L)} (h₁ : Waited s s₁) (h₂ : Waited s₁ s₂) :
    Waited s s₂ := by
  obtain ⟨items₁, htalks₁, hasides₁⟩ := h₁
  obtain ⟨items₂, htalks₂, hasides₂⟩ := h₂
  rw [htalks₁.codec] at hasides₂
  exact ⟨_, htalks₁.trans htalks₂, fun x hx =>
    (List.mem_append.mp hx).elim (hasides₁ x) (hasides₂ x)⟩

omit [Link L] in
theorem waited_one {s' : Session (Traced L)} {x : Passage} (htalks : Talks s [x] s')
    (haside : Aside s.codec x) : Waited s s' :=
  ⟨[x], htalks, List.forall_mem_singleton.mpr haside⟩

/-- Answering a request is an aside, whether the link takes the answer or not. -/
theorem sendControl_answer {block : Block} (hpayload : block.payload.length ≤ 2)
    (hcontrol : ∀ seq more, block.control ≠ .information seq more)
    (hanswer : IsAnswer s.codec (s.codec.layout block)) :
    Ensures (sendControl block) s fun r s' =>
      (s'.retries = s.retries ∧ Waited s s') ∧
        match r with
        | .ok _ => True
        | .error stop => stop.IsOrdinary := by
  refine (sendControl_spec hpayload hcontrol).mono ?_
  intro r s' hend
  obtain ⟨⟨hretries, -⟩, outcome, htalks, hr⟩ := hend
  refine ⟨⟨hretries, waited_one htalks (.answer hanswer)⟩, ?_⟩
  cases r with
  | ok u => trivial
  | error stop => exact hr

/-- A block for the exchange is returned. Anything else that came is an aside, and it was answered
if that is due. -/
theorem awaitRound_spec (timeout : Nanos) (hcapacity : Block.longPrologue ≤ s.frame.capacity) :
    Ensures (awaitRound timeout) s fun r s' =>
      s'.retries = s.retries ∧
      match r with
      | .ok (.inl _) => Waited s s'
      | .ok (.inr inbound) => ∃ raw block, Talks s [.received raw] s' ∧
          Arrived s.codec s'.frame inbound raw block
      | .error stop => stop.IsOrdinary ∧ Waited s s' := by
  unfold awaitRound
  refine (waitTime_spec timeout).bind ?_ ?_
  · intro wait s₁ hend
    obtain ⟨rfl, -⟩ := hend
    refine (receiveBlock_spec wait hcapacity).bind ?_ ?_
    · intro inbound s₁ hend
      obtain ⟨link, frame, statistics, rfl, raw, block, htalks, harrived, -⟩ := hend
      rw [ensures_get_bind]
      split
      · -- a request for more time
        rename_i hwtx
        have hrequest := waited_one htalks (.request harrived.decode
          (Or.inl (harrived.control.symm.trans hwtx)))
        dsimp only
        refine (extendWait_spec _).bind ?_ ?_
        · intro extra s₂ hend
          obtain ⟨⟨hretries, -⟩, hextended, -⟩ := hend
          have hwaited := hrequest.trans ⟨[], hextended, List.forall_mem_nil _⟩
          refine (sendControl_answer ?_ ?_ ?_).bind ?_ ?_
          · exact Nat.le_succ 1
          · exact fun _ _ h => Control.noConfusion h
          · rw [hextended.codec]
            exact .extension _
          · intro u s₃ hend
            obtain ⟨⟨hretries', hanswered⟩, -⟩ := hend
            exact ⟨hretries'.trans hretries, hwaited.trans hanswered⟩
          · intro stop s₃ hend
            obtain ⟨⟨hretries', hanswered⟩, hordinary⟩ := hend
            exact ⟨hretries'.trans hretries, hordinary, hwaited.trans hanswered⟩
        · intro stop s₂ hend
          obtain ⟨⟨hretries, -⟩, hextended, hordinary⟩ := hend
          exact ⟨hretries, hordinary,
            hrequest.trans ⟨[], hextended, List.forall_mem_nil _⟩⟩
      · -- an announced field size
        rename_i hifs
        have hrequest := waited_one htalks (.request harrived.decode
          (Or.inr (harrived.control.symm.trans hifs)))
        split
        · exact ⟨rfl, raw, block, htalks, harrived⟩
        · rename_i hlength
          have hsize := harrived.payload
          unfold Inbound.payload? at hsize
          split at hsize
          -- the payload lies in the frame, so the two octets of the answer are those that came
          · rename_i hstop
            rw [← harrived.used] at hstop
            refine (sendControl_answer ?_ ?_ ?_).bind ?_ ?_
            · exact List.length_take_le _ _
            · exact fun _ _ h => Control.noConfusion h
            · refine .fieldSize _ ?_ (List.length_take_le _ _)
              unfold Inbound.length at hlength
              rw [List.length_take, List.length_drop, List.length_take]
              dsimp only
              omega
            · intro u s₃ hend
              obtain ⟨⟨hretries, hanswered⟩, -⟩ := hend
              exact ⟨hretries, hrequest.trans hanswered⟩
            · intro stop s₃ hend
              obtain ⟨⟨hretries, hanswered⟩, hordinary⟩ := hend
              exact ⟨hretries, hordinary, hrequest.trans hanswered⟩
          · exact absurd hsize (by simp)
      · exact ⟨rfl, raw, block, htalks, harrived⟩
    · intro stop s₁ hend
      obtain ⟨link, frame, statistics, rfl, hordinary, x, htalks, hfruitless, -⟩ := hend
      exact ⟨rfl, hordinary, waited_one htalks hfruitless.aside⟩
  · intro stop s₁ hend
    obtain ⟨rfl, hordinary⟩ := hend
    exact ⟨rfl, hordinary, Waited.refl _⟩

/-- **Everything that passes before the block for the exchange is an aside.** -/
theorem awaitBlock_spec (hcapacity : Block.longPrologue ≤ s.frame.capacity) :
    Ensures awaitBlock s fun r s' =>
      s'.retries = s.retries ∧
      match r with
      | .ok inbound => ∃ asides raw block, Talks s (asides ++ [.received raw]) s' ∧
          (∀ x ∈ asides, Aside s.codec x) ∧ Arrived s.codec s'.frame inbound raw block
      | .error stop => stop.IsOrdinary ∧ Waited s s' := by
  unfold awaitBlock
  rw [ensures_get_bind]
  -- the number of rounds does not matter here: `stalled` is ordinary too
  refine ensures_loop (I := fun _ s' => s'.retries = s.retries ∧ Waited s s') ?_ ?_ _ _ _
    ⟨rfl, Waited.refl s⟩
  · intro timeout s₁ hend
    obtain ⟨hretries, items, htalks, hasides⟩ := hend
    refine (awaitRound_spec timeout (htalks.holds hcapacity)).mono ?_
    intro r s₂ hend
    obtain ⟨hretries₂, hr⟩ := hend
    have hsame := hretries₂.trans hretries
    match r with
    | .ok (.inl _) => exact ⟨hsame, Waited.trans ⟨items, htalks, hasides⟩ hr⟩
    | .ok (.inr inbound) =>
        obtain ⟨raw, block, hreceived, harrived⟩ := hr
        rw [htalks.codec] at harrived
        exact ⟨hsame, items, raw, block, htalks.trans hreceived, hasides, harrived⟩
    | .error stop => exact ⟨hsame, hr.1, Waited.trans ⟨items, htalks, hasides⟩ hr.2⟩
  · intro timeout s₁ hend
    obtain ⟨hretries, hwaited⟩ := hend
    exact ⟨hretries, trivial, hwaited⟩

/-- One frame was handed over, and then the next block was awaited. -/
def Asked (frame : Bytes) (s : Session (Traced L)) (r : Except (Stop Setback) Inbound)
    (s' : Session (Traced L)) : Prop :=
  s'.retries = s.retries ∧
    ∃ outcome asides, (∀ x ∈ asides, Aside s.codec x) ∧
      match r with
      | .ok inbound => ∃ raw block,
          Talks s (.sent frame outcome :: (asides ++ [.received raw])) s' ∧
          Arrived s.codec s'.frame inbound raw block
      | .error stop => stop.IsOrdinary ∧ Talks s (.sent frame outcome :: asides) s'

theorem ask_spec {send : Step (Traced L) Unit} {frame : Bytes}
    (hcapacity : Block.longPrologue ≤ s.frame.capacity)
    (h : Ensures send s (HandedOver frame s)) :
    Ensures (do send; awaitBlock) s (Asked frame s) := by
  refine h.bind ?_ ?_
  · intro u s₁ hend
    obtain ⟨⟨hretries, hframe⟩, outcome, hsent, -⟩ := hend
    refine (awaitBlock_spec (by rw [hframe]; exact hcapacity)).mono ?_
    intro r s₂ hend
    obtain ⟨hretries', hr⟩ := hend
    refine ⟨hretries'.trans hretries, outcome, ?_⟩
    cases r with
    | ok inbound =>
        obtain ⟨asides, raw, block, htalks, hasides, harrived⟩ := hr
        rw [hsent.codec] at hasides harrived
        exact ⟨asides, hasides, raw, block, hsent.trans htalks, harrived⟩
    | error stop =>
        obtain ⟨hordinary, asides, htalks, hasides⟩ := hr
        rw [hsent.codec] at hasides
        exact ⟨asides, hasides, hordinary, hsent.trans htalks⟩
  · intro stop s₁ hend
    obtain ⟨⟨hretries, -⟩, outcome, hsent, hordinary⟩ := hend
    exact ⟨hretries, outcome, [], List.forall_mem_nil _, hordinary, hsent⟩

end Step

end SecureElement
