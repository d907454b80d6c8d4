import SecureElement.Proofs.Rehearsed
import SecureElement.Proofs.RoundTrip

/-!
# Blocks cut out of a stream

A link brings a row of octets in whatever pieces it likes, and nothing in the row says
where one block ends and the next begins but the blocks themselves. `Stream` is such a
link; `Codec.span` is the length that the front of a block declares for all of it.

* Reading is blind to the pieces: whoever asks for `n` octets gets the next `n`
  (`Stream.readAll`).
* `receiveBlock_cuts` is the step: one call takes as many octets as the block in front
  declares, and what it makes of them (`Codec.received`) depends on those octets, the
  codec and the size of the frame, and on nothing else.
* `receiveBlocks_cut` is the run: a row of blocks is cut where it was put together,
  whatever is wrong with some of them.

`receiveBlock_framing` says it for a session with frames as its settings ask for
(`Fitted`), which every session has.
-/

namespace SecureElement

/-! ## How much a front declares -/

namespace Codec

/-- Octets in front of a payload, by the third of them. -/
def front (octets : Bytes) : Nat := Block.shortPrologue + extension (octets.getD 2 0)

/-- How many octets the block that begins here declares for itself. -/
def span (c : Codec) (octets : Bytes) : Except Block.Fault Nat :=
  (c.bodyLength (octets.take (front octets))).map (front octets + ·)

/-- What reading a whole block comes to. -/
def verdict (c : Codec) (raw : Bytes) : Except Setback Inbound :=
  match c.decode raw with
  | .ok block => .ok
      { control := block.control, start := front raw, stop := front raw + block.payload.length }
  | .error fault => .error (.minor (.ofBlock fault))

/-- What receiving a whole block comes to, in a frame of the given size. -/
def received (c : Codec) (capacity : Nat) (raw : Bytes) : Except Setback Inbound :=
  if raw.length ≤ capacity then c.verdict raw else .error (.major (.malformed .beyondFrame))

variable {c : Codec} {e : Epilogue} {octets rest raw : Bytes} {block : Block} {m n : Nat}

theorem front_le (octets : Bytes) : front octets ≤ Block.longPrologue := by
  unfold front extension Block.shortPrologue Block.longPrologue
  split <;> omega

/-- Where the front ends is known from its first three octets. -/
theorem front_take (h : Block.shortPrologue ≤ m) : front (octets.take m) = front octets := by
  unfold Block.shortPrologue at h
  unfold front
  rw [List.getD_eq_getElem?_getD, List.getD_eq_getElem?_getD, List.getElem?_take,
    if_pos (by omega)]

/-- A front that is there is read by the receiver and by the decoder alike. -/
theorem announced?_take_front {octets : Bytes} (h : front octets ≤ octets.length) :
    ∃ length, announced? (octets.take (front octets)) = some (front octets, length)
      ∧ ∀ c : Codec, c.span octets = .ok (front octets + (length + c.epilogue.width)) := by
  have htaken : (octets.take (front octets)).length = front octets := by
    rw [List.length_take]
    omega
  have hsame : front (octets.take (front octets)) = front octets :=
    front_take (Nat.le_add_right _ _)
  obtain ⟨length, hannounced, hbody⟩ := announced?_of_prologue (htaken.trans hsame.symm)
  rw [htaken] at hannounced
  refine ⟨length, hannounced, fun c => ?_⟩
  unfold span
  rw [hbody c]
  rfl

theorem span_eq_ok (h : c.span octets = .ok n) (hn : n ≤ octets.length) :
    ∃ length, announced? (octets.take (front octets)) = some (front octets, length)
      ∧ c.bodyLength (octets.take (front octets)) = .ok (length + c.epilogue.width)
      ∧ n = front octets + (length + c.epilogue.width) := by
  cases hbody : c.bodyLength (octets.take (front octets)) with
  | error fault =>
      unfold span at h
      rw [hbody] at h
      exact absurd h nofun
  | ok body =>
      have hspan : n = front octets + body := by
        unfold span at h
        rw [hbody] at h
        exact (Except.ok.inj h).symm
      have hfront : front octets ≤ octets.length := by omega
      obtain ⟨length, hannounced, hall⟩ := announced?_take_front hfront
      have hsame := Except.ok.inj (h.symm.trans (hall c))
      refine ⟨length, hannounced, ?_, hsame⟩
      congr 1
      omega

/-- The decoder finds the same front in the block that is cut out. -/
theorem announced?_take_span (h : c.span octets = .ok n) (hn : n ≤ octets.length) :
    front octets ≤ n ∧ ∃ length, announced? (octets.take n) = some (front octets, length) := by
  obtain ⟨length, hannounced, -, rfl⟩ := span_eq_ok h hn
  rw [List.take_add]
  exact ⟨Nat.le_add_right _ _, length, announced?_append hannounced⟩

/-- What a stream is cut into is what the decoder takes for a block of full length. -/
theorem isWhole_take_span (h : c.span octets = .ok n) (hn : n ≤ octets.length) :
    IsWhole c.epilogue (octets.take n) := by
  obtain ⟨length, hannounced, -, rfl⟩ := span_eq_ok h hn
  rw [List.take_add]
  have htaken : (octets.take (front octets)).length = front octets := by
    rw [List.length_take]
    omega
  have hfront : announced? (octets.take (front octets))
      = some ((octets.take (front octets)).length, length) := by
    rw [htaken]
    exact hannounced
  refine (isWhole_append_iff hfront).mpr ?_
  rw [List.length_take, List.length_drop]
  omega

/-- No type of block objects to the length of a block. -/
theorem payloadDefect?_ne {control : Control} {payload : Bytes} {defect : Block.Defect}
    (h : payloadDefect? control payload = some defect) :
    defect ≠ .truncated ∧ defect ≠ .lengthMismatch := by
  unfold payloadDefect? at h
  split at h
  · split at h
    · exact absurd h nofun
    · obtain rfl := Option.some.inj h
      exact ⟨nofun, nofun⟩
  · split at h
    · exact absurd h nofun
    · obtain rfl := Option.some.inj h
      exact ⟨nofun, nofun⟩
  · exact absurd h nofun

/-- A block of full length is not refused for its length. -/
theorem decode_fault_of_isWhole (h : IsWhole c.epilogue raw)
    (hfault : c.decode raw = .error fault) :
    fault ≠ .malformed .truncated ∧ fault ≠ .malformed .lengthMismatch := by
  unfold IsWhole announcedLength? at h
  cases hannounced : announced? raw with
  | none =>
      rw [hannounced] at h
      exact absurd h nofun
  | some lengths =>
      obtain ⟨front, length⟩ := lengths
      rw [hannounced] at h
      have hlength : front + length + c.epilogue.width = raw.length := Option.some.inj h
      unfold decode at hfault
      rw [hannounced] at hfault
      dsimp only at hfault
      rw [if_neg (by omega), if_neg (by omega)] at hfault
      simp only [bind, Except.bind] at hfault
      split at hfault
      · obtain rfl := Except.error.inj hfault
        exact ⟨nofun, nofun⟩
      · cases hcontrol : Control.ofByte? (raw.getD 1 0) with
        | none =>
            rw [hcontrol] at hfault
            obtain rfl := Except.error.inj hfault
            exact ⟨nofun, nofun⟩
        | some control =>
            rw [hcontrol] at hfault
            dsimp only at hfault
            split at hfault
            · obtain rfl := Except.error.inj hfault
              exact ⟨nofun, nofun⟩
            · split at hfault
              · rename_i defect hdefect
                obtain rfl := Except.error.inj hfault
                obtain ⟨hshort, hmismatch⟩ := payloadDefect?_ne hdefect
                exact ⟨fun h => hshort (Block.Fault.malformed.inj h),
                  fun h => hmismatch (Block.Fault.malformed.inj h)⟩
              · exact absurd hfault nofun

/-- The parts of a frame are a block of full length. -/
theorem isWhole_octets {p : Parts} (h : p.Fit e) : IsWhole e p.octets := by
  have hoctets : p.octets = p.node :: p.control :: (p.length ++ (p.payload ++ p.epilogue)) := by
    simp only [Parts.octets, Parts.covered, List.cons_append, List.append_assoc]
  unfold IsWhole announcedLength?
  rw [hoctets, announced?_of_form h.announced]
  refine congrArg some ?_
  simp only [List.length_cons, List.length_append, h.filled]
  omega

/-- A block of full length declares that length, whatever follows it. -/
theorem span_of_isWhole (h : IsWhole c.epilogue raw) : c.span (raw ++ rest) = .ok raw.length := by
  obtain ⟨hless, length, -, hall⟩ := Step.isWhole_front h
  have hle : front raw ≤ raw.length := Nat.le_of_lt hless
  have hbody : c.bodyLength (raw.take (front raw)) = .ok (raw.length - front raw) := hall c rfl
  have hfront : front (raw ++ rest) = front raw := by
    unfold Block.shortPrologue at hless
    unfold front
    rw [List.getD_append _ _ _ _ (by omega)]
  unfold span
  rw [hfront, List.take_append_of_le_length hle, hbody]
  exact congrArg Except.ok (Nat.add_sub_cancel' hle)

/-- So does every block as it is written. -/
theorem span_layout (c : Codec) (rest : Bytes) (hpayload : block.payload.length ≤ Block.longMax) :
    c.span (c.layout block ++ rest) = .ok (c.layout block).length := by
  refine span_of_isWhole ?_
  rw [← parts_octets]
  exact isWhole_octets (parts_fit hpayload)

end Codec

/-! ## A link that brings a stream -/

namespace Link

/-- `Holds link octets` says that these octets are the next to come. A read brings some of them, as
many as the link likes but no more than were asked for. What comes behind them is left open. -/
structure Stream {L : Type} [Link L] (Holds : L → Bytes → Prop) : Prop where
  read : ∀ {link octets}, Holds link octets → ∀ n timeout, 0 < n → n ≤ octets.length →
    ∃ k link', 0 < k ∧ k ≤ n ∧ Link.read n timeout link = (.ok (octets.take k), link')
      ∧ Holds link' (octets.drop k)

variable {L : Type} [Link L] {Holds : L → Bytes → Prop}

/-- The pieces are put together until the row is complete. Every piece has at least one octet, so
there are never more pieces than octets. -/
theorem Stream.readUpTo (h : Stream Holds) (timeout : Nanos) :
    ∀ (calls n : Nat) (link : L) (octets : Bytes), Holds link octets → n ≤ calls →
      n ≤ octets.length → ∃ link', Link.readUpTo timeout calls n link
        = ((octets.take n, none), link') ∧ Holds link' (octets.drop n)
  | calls, 0, link, octets, hholds, _, _ => by
      cases calls <;> exact ⟨link, rfl, hholds⟩
  | 0, n + 1, _, _, _, hcalls, _ => absurd hcalls (Nat.not_succ_le_zero n)
  | calls + 1, n + 1, link, octets, hholds, hcalls, hn => by
      obtain ⟨k, link₁, hpos, hk, hread, hholds₁⟩ :=
        h.read hholds (n + 1) timeout (Nat.succ_pos n) hn
      have hlength : (octets.take k).length = k := by
        rw [List.length_take]
        omega
      obtain ⟨link₂, hmore, hholds₂⟩ := h.readUpTo timeout calls (n + 1 - k) link₁ (octets.drop k)
        hholds₁ (by omega) (by rw [List.length_drop]; omega)
      rw [List.drop_drop, Nat.add_sub_cancel' hk] at hholds₂
      refine ⟨link₂, ?_, hholds₂⟩
      have hrow : octets.take k ++ (octets.drop k).take (n + 1 - k) = octets.take (n + 1) := by
        rw [← List.take_add, Nat.add_sub_cancel' hk]
      rw [Link.readUpTo, hread]
      cases hpiece : octets.take k with
      | nil =>
          rw [hpiece] at hlength
          exact absurd hlength (Nat.ne_of_lt hpos)
      | cons octet piece =>
          dsimp only
          rw [← hpiece, List.take_of_length_le (by omega), hlength, hmore]
          dsimp only
          rw [hrow]

/-- **Reading is blind to the pieces.** -/
theorem Stream.readAll (h : Stream Holds) {link : L} {octets : Bytes} (hholds : Holds link octets)
    {n : Nat} (hn : n ≤ octets.length) (timeout : Nanos) :
    ∃ link', Link.readAll n timeout link = ((octets.take n, none), link')
      ∧ Holds link' (octets.drop n) :=
  h.readUpTo timeout n n link octets hholds (Nat.le_refl n) hn

end Link

open Link

/-! ## Receiving from a stream -/

namespace Step

open SecureElement.Action Session

variable {L : Type} [Link L] {Holds : L → Bytes → Prop} {s : Session L} {octets raw : Bytes}
  {n : Nat}

theorem readFrame_stream (hstream : Stream Holds) (hholds : Holds s.link octets)
    (hn : n ≤ octets.length) (hroom : n ≤ s.frame.room) (timeout : Nanos) :
    Ensures (readFrame n timeout) s fun r s' => r = .ok () ∧ ∃ link frame,
      s' = { s with link, frame } ∧ frame.used = s.frame.used ++ octets.take n
        ∧ frame.capacity = s.frame.capacity ∧ Holds link (octets.drop n) := by
  obtain ⟨link, hread, hrest⟩ := hstream.readAll hholds hn timeout
  have hlength : (octets.take n).length = n := by
    rw [List.length_take]
    omega
  refine (readFrame_whole hroom hlength hread).mono ?_
  intro r s' hend
  obtain ⟨hr, frame, rfl, hused, hcapacity⟩ := hend
  exact ⟨hr, link, frame, rfl, hused, hcapacity, hrest⟩

/-- As many octets are dropped as were asked for, a frame at a time. -/
theorem discard_stream (hstream : Stream Holds) (timeout : Nanos) :
    ∀ (rounds remaining : Nat) (octets : Bytes) (s : Session L), Holds s.link octets →
      remaining ≤ rounds → remaining ≤ octets.length → 0 < s.frame.capacity → s.frame.used = [] →
      Ensures (discard timeout rounds remaining) s fun r s' => r = .ok () ∧ ∃ link frame,
        s' = { s with link, frame } ∧ frame.used = [] ∧ frame.capacity = s.frame.capacity
          ∧ Holds link (octets.drop remaining)
  | 0, remaining, octets, s, hholds, hrounds, _, _, hempty => by
      obtain rfl := Nat.le_zero.mp hrounds
      exact ⟨rfl, s.link, s.frame, rfl, hempty, rfl, hholds⟩
  | rounds + 1, remaining, octets, s, hholds, hrounds, hlength, hcapacity, hempty => by
      have hcells := s.frame.length_used_add_room
      rw [hempty, List.length_nil] at hcells
      unfold discard
      rw [ensures_get_bind]
      dsimp only
      split
      · rename_i hnone
        obtain rfl : remaining = 0 := by omega
        exact ⟨rfl, s.link, s.frame, rfl, hempty, rfl, hholds⟩
      · rename_i hsome
        generalize hchunk : min remaining s.frame.capacity = chunk at hsome
        refine Ensures.bind_ok (ensures_attempt_ok
          (readFrame_stream hstream hholds (by omega) (by omega) timeout)) fun s₁ hend => ?_
        obtain ⟨link, frame, rfl, -, hframe, hrest⟩ := hend
        dsimp only
        rw [ensures_modify_bind]
        have hcleared : frame.clear.capacity = s.frame.capacity := by
          rw [Buffer.capacity_clear, hframe]
        refine (discard_stream hstream timeout rounds (remaining - chunk) (octets.drop chunk)
          { s with link, frame := frame.clear } hrest (by omega)
          (by rw [List.length_drop]; omega) (by dsimp only; omega) (Buffer.used_clear _)).mono ?_
        intro r s₂ hend
        obtain ⟨hr, link', frame', rfl, hempty', hframe', hrest'⟩ := hend
        rw [List.drop_drop, Nat.add_sub_cancel' (by omega)] at hrest'
        exact ⟨hr, link', frame', rfl, hempty', hframe'.trans hcleared, hrest'⟩

/-- The front of a block is read, and no more. -/
theorem readPrologue_stream (hstream : Stream Holds) (hholds : Holds s.link octets)
    (hfront : Codec.front octets ≤ octets.length)
    (hcapacity : Block.longPrologue ≤ s.frame.capacity) (timeout : Nanos) :
    Ensures (readPrologue timeout) s fun r s' => r = .ok () ∧ ∃ link frame,
      s' = { s with link, frame } ∧ frame.used = octets.take (Codec.front octets)
        ∧ frame.capacity = s.frame.capacity ∧ Holds link (octets.drop (Codec.front octets)) := by
  have hroom := Nat.le_trans (Codec.front_le octets) hcapacity
  unfold Codec.front at hfront hroom ⊢
  generalize hext : Codec.extension (octets.getD 2 0) = ext at hfront hroom ⊢
  obtain ⟨link₁, hread₁, hholds₁⟩ := hstream.readAll hholds
    (n := Block.shortPrologue) (by omega) timeout
  obtain ⟨link₂, hread₂, hholds₂⟩ := hstream.readAll hholds₁
    (n := ext) (by rw [List.length_drop]; omega) timeout
  rw [List.drop_drop] at hholds₂
  refine (readPrologue_whole hext hfront hroom hread₁ hread₂).mono ?_
  intro r s' hend
  obtain ⟨hr, frame, rfl, hused, hframe⟩ := hend
  exact ⟨hr, link₂, frame, rfl, hused, hframe, hholds₂⟩

omit [Link L] in
/-- What is made of a block that lies in the frame as a whole. -/
theorem readBlock_verdict (s : Session L) :
    Ensures (readBlock (Codec.front s.frame.used)) s fun r s' =>
      r = (s.codec.verdict s.frame.used).mapError .because
        ∧ ∃ statistics, s' = { s with statistics } := by
  unfold readBlock Codec.verdict
  rw [ensures_count_bind, ensures_get_bind]
  dsimp only
  cases s.codec.decode s.frame.used with
  | ok block => exact ⟨rfl, _, rfl⟩
  | error fault =>
      dsimp only
      split
      · exact ⟨rfl, _, rfl⟩
      · exact ⟨rfl, _, rfl⟩

/-- **One call takes the block in front, and all of it.** -/
theorem receiveBlock_cuts (hstream : Stream Holds) (hholds : Holds s.link octets)
    (hspan : s.codec.span octets = .ok n) (hn : n ≤ octets.length)
    (hcapacity : Block.longPrologue ≤ s.frame.capacity) (timeout : Nanos) :
    Ensures (receiveBlock timeout) s fun r s' =>
      r = (s.codec.received s.frame.capacity (octets.take n)).mapError .because
        ∧ ∃ link frame statistics, s' = { s with link, frame, statistics }
          ∧ frame.used = (if n ≤ s.frame.capacity then octets.take n else [])
          ∧ frame.capacity = s.frame.capacity ∧ Holds link (octets.drop n) := by
  have hlength : (octets.take n).length = n := by
    rw [List.length_take]
    omega
  obtain ⟨length, -, hbody, hsum⟩ := Codec.span_eq_ok hspan hn
  generalize length + s.codec.epilogue.width = body at hbody hsum
  have hprologue : Block.shortPrologue ≤ Codec.front octets := Nat.le_add_right _ _
  unfold receiveBlock
  refine (readPrologue_stream hstream hholds (by omega) hcapacity timeout).bind_ok
    fun s₁ hend => ?_
  obtain ⟨link, frame, rfl, hused, hframe, hholds₁⟩ := hend
  have hfront : frame.used.length = Codec.front octets := by
    rw [hused, List.length_take]
    omega
  have hleft : body ≤ (octets.drop (Codec.front octets)).length := by
    rw [List.length_drop]
    omega
  have hdrop : (octets.drop (Codec.front octets)).drop body = octets.drop n := by
    rw [List.drop_drop, hsum]
  rw [ensures_get_bind]
  dsimp only
  rw [hused, hbody, ← hused, hfront, hframe]
  dsimp only
  unfold Codec.received
  rw [hlength]
  by_cases hlarge : s.frame.capacity < Codec.front octets + body
  · -- the rest of the block is taken too, though there is no place for it
    rw [if_pos hlarge, if_neg (by omega), if_neg (by omega), ensures_modify_bind]
    unfold Block.longPrologue at hcapacity
    have hcleared : frame.clear.capacity = s.frame.capacity := by
      rw [Buffer.capacity_clear, hframe]
    refine Ensures.bind_ok (discard_stream hstream timeout body body _
      { s with link, frame := frame.clear } hholds₁ (Nat.le_refl _) hleft
      (by dsimp only; omega) (Buffer.used_clear _)) fun s₂ hend => ?_
    obtain ⟨link', frame', rfl, hempty, hframe', hholds₂⟩ := hend
    rw [hdrop] at hholds₂
    exact ⟨rfl, link', frame', s.statistics, rfl, hempty, hframe'.trans hcleared, hholds₂⟩
  · have hcells := frame.length_used_add_room
    rw [if_neg hlarge, if_pos (by omega), if_pos (by omega)]
    refine Ensures.bind_ok (readFrame_stream hstream hholds₁ hleft (by dsimp only; omega) timeout)
      fun s₂ hend => ?_
    obtain ⟨link', frame', rfl, hused', hframe', hholds₂⟩ := hend
    rw [hdrop] at hholds₂
    have hraw : frame'.used = octets.take n := by
      rw [hused', hused, ← List.take_add, hsum]
    have hstart : Codec.front octets = Codec.front frame'.used := by
      rw [hraw, Codec.front_take (by omega)]
    rw [hstart]
    refine (readBlock_verdict { s with link := link', frame := frame' }).mono ?_
    intro r s₃ hend
    obtain ⟨hr, statistics, rfl⟩ := hend
    rw [hraw] at hr
    exact ⟨hr, link', frame', statistics, rfl, hraw, hframe'.trans hframe, hholds₂⟩

omit [Link L] in
/-- Once it is caught, a fault is a value. -/
theorem ensures_attempt_mapError {α : Type} {step : Step L α} {outcome : Except Setback α}
    {P : Session L → Prop}
    (h : Ensures step s fun r s' => r = outcome.mapError .because ∧ P s') :
    Ensures (attempt step) s fun r s' => r = .ok outcome ∧ P s' := by
  cases outcome with
  | ok a => exact ensures_attempt_ok h
  | error setback =>
      refine ensures_attempt h ?_ ?_ ?_ ?_
      · intro a s' hend
        cases hend.1
      · intro setback' s' hend
        obtain ⟨hr, hrest⟩ := hend
        obtain rfl := Stop.because.inj (Except.error.inj hr)
        exact ⟨rfl, hrest⟩
      · intro s' hend
        cases hend.1
      · intro s' hend
        cases hend.1

/-- Receives so many blocks, one after the other, whatever becomes of them. -/
def receiveBlocks (timeout : Nanos) : Nat → Step L (List (Except Setback Inbound))
  | 0 => return []
  | n + 1 => do
    let first ← attempt (receiveBlock timeout)
    let others ← receiveBlocks timeout n
    return first :: others

/-- **A row of blocks is cut where it was put together**, whatever is wrong with some of them: a
block that is refused, or that no frame can hold, does not shift the next. -/
theorem receiveBlocks_cut (hstream : Stream Holds) (timeout : Nanos) (rest : Bytes) :
    ∀ (raws : List Bytes) (s : Session L), (∀ raw ∈ raws, IsWhole s.codec.epilogue raw) →
      Holds s.link (raws.flatten ++ rest) → Block.longPrologue ≤ s.frame.capacity →
      Ensures (receiveBlocks timeout raws.length) s fun r s' =>
        r = .ok (raws.map (s.codec.received s.frame.capacity))
          ∧ ∃ link frame statistics, s' = { s with link, frame, statistics }
            ∧ frame.capacity = s.frame.capacity ∧ Holds link rest
  | [], s, _, hholds, _ => ⟨rfl, s.link, s.frame, s.statistics, rfl, rfl, hholds⟩
  | raw :: raws, s, hwhole, hholds, hcapacity => by
      obtain ⟨hraw, hraws⟩ := List.forall_mem_cons.mp hwhole
      rw [List.flatten_cons, List.append_assoc] at hholds
      have hcut := receiveBlock_cuts hstream hholds (Codec.span_of_isWhole hraw)
        (by rw [List.length_append]; omega) hcapacity timeout
      rw [List.take_left, List.drop_left] at hcut
      refine (ensures_attempt_mapError hcut).bind_ok fun s₁ hend => ?_
      obtain ⟨link, frame, statistics, rfl, -, hframe, hholds₁⟩ := hend
      refine Ensures.bind_ok (receiveBlocks_cut hstream timeout rest raws
        { s with link, frame, statistics } hraws hholds₁ (by rw [hframe]; exact hcapacity))
        fun s₂ hend => ?_
      obtain ⟨link', frame', statistics', rfl, hframe', hholds₂⟩ := hend
      rw [hframe]
      exact ⟨rfl, link', frame', statistics', rfl, hframe'.trans hframe, hholds₂⟩

end Step

namespace Link

/-- These octets are readable, at most `chunk` of them at a time. -/
def Doles (chunk : Nat) (r : Rehearsal) (octets : Bytes) : Prop :=
  octets = [] ∨ r.current = some { bytes := octets, chunk := some chunk }

/-- A delivery in pieces is a stream. -/
theorem doles_stream {chunk : Nat} (h : 0 < chunk) : Stream (Doles chunk) where
  read := by
    intro r octets hholds n timeout hpos hn
    rcases hholds with rfl | hcurrent
    · exact absurd hn (Nat.not_le.mpr hpos)
    · refine ⟨min n chunk, (r.deliver n { bytes := octets, chunk := some chunk }).2,
        Nat.lt_min.mpr ⟨hpos, h⟩, Nat.min_le_left _ _, ?_, ?_⟩
      · show Rehearsal.read n timeout r = _
        unfold Rehearsal.read
        rw [hcurrent]
        rfl
      · unfold Rehearsal.deliver Doles
        rw [Option.getD_some]
        dsimp only
        cases hrest : octets.drop (min n chunk) with
        | nil => exact .inl rfl
        | cons octet rest => exact .inr rfl

end Link

/-! ## Every session -/

namespace Session

open SecureElement.Action Step

variable {L : Type} {settings : Settings} {s : Session L}

/-- The frame has the size that the settings ask for, and blocks end as they say. No call and no
part of one changes either. -/
structure Fitted (settings : Settings) (s : Session L) : Prop where
  frame : s.frame.capacity
    = settings.codec.frameLength (max settings.maxBlockPayload Block.shortMax)
  epilogue : s.codec.epilogue = settings.codec.epilogue

theorem create_fitted (link : L) (settings : Settings) : Fitted settings (create link settings) :=
  ⟨Buffer.capacity_empty _, rfl⟩

/-- Between two calls. -/
theorem Reachable.fitted [Link L] {s : Session (Traced L)} (h : Reachable settings s) :
    Fitted settings s :=
  ⟨h.sound.frame, h.equipped.epilogue⟩

/-- In the middle of one. -/
theorem Fitted.within {s s' : Session (Traced L)} {items : List Passage} (h : Fitted settings s)
    (hwithin : Within s items s') : Fitted settings s' where
  frame := hwithin.capacity.trans h.frame
  epilogue := by
    rw [hwithin.codec]
    exact h.epilogue

theorem Fitted.capacity (h : Fitted settings s) : Block.longPrologue ≤ s.frame.capacity := by
  rw [h.frame]
  exact longPrologue_le_frame settings

/-- The longest payload for which there is always room is one that a block can have. -/
theorem max_shortMax_le (h : settings.fault? = none) :
    max settings.maxBlockPayload Block.shortMax ≤ Block.longMax := by
  have hpayload : settings.maxBlockPayload ≤ Block.longMax := by
    unfold Settings.fault? at h
    by_contra hlarge
    split at h
    · exact absurd h nofun
    · split at h
      · exact absurd h nofun
      · split at h
        · exact absurd h nofun
        · rw [if_pos (.inr (Nat.lt_of_not_le hlarge))] at h
          exact absurd h nofun
  unfold Block.shortMax
  unfold Block.longMax at hpayload ⊢
  omega

/-- Blocks with payloads of ordinary length have room in the frame. -/
theorem Fitted.room (h : Fitted settings s) {block : Block}
    (hpayload : block.payload.length ≤ max settings.maxBlockPayload Block.shortMax) :
    (s.codec.layout block).length ≤ s.frame.capacity := by
  rw [h.frame, Codec.length_layout]
  exact Codec.frameLength_le h.epilogue hpayload

variable [Link L] {Holds : L → Bytes → Prop} {octets : Bytes} {n : Nat}

/-- **Every call takes exactly the block in front of it.** What comes of the block is what the
decoder makes of it, provided that it fits the frame, and the pieces in which it came do not
matter. -/
theorem receiveBlock_framing (timeout : Nanos) (hvalid : settings.fault? = none)
    (hfitted : Fitted settings s) (hstream : Stream Holds) (hholds : Holds s.link octets)
    (hspan : s.codec.span octets = .ok n) (hn : n ≤ octets.length) :
    Ensures (receiveBlock timeout) s (fun r s' =>
      Holds s'.link (octets.drop n) ∧ Fitted settings s' ∧
      if n ≤ s.frame.capacity then
        s'.frame.used = octets.take n ∧
          match s.codec.decode (octets.take n) with
          | .ok block => ∃ inbound, r = .ok inbound ∧ inbound.control = block.control
              ∧ inbound.payload? s'.frame.used = some block.payload
          | .error fault => r = .error (.because (.minor (.ofBlock fault)))
              ∧ fault ≠ .malformed .truncated ∧ fault ≠ .malformed .lengthMismatch
      else r = .error (.because (.major (.malformed .beyondFrame)))) ∧
    (∀ block rest, octets = s.codec.layout block ++ rest →
      block.payload.length ≤ max settings.maxBlockPayload Block.shortMax →
      n = (s.codec.layout block).length ∧ n ≤ s.frame.capacity) ∧
    ∀ (L' : Type) [Link L'] (Holds' : L' → Bytes → Prop) (s₁ : Session L') (timeout' : Nanos),
      s₁.codec = s.codec → s₁.frame.capacity = s.frame.capacity → Stream Holds' →
      Holds' s₁.link octets →
      (receiveBlock timeout').result s₁ = (receiveBlock timeout).result s
        ∧ ((receiveBlock timeout').final s₁).frame.used
          = ((receiveBlock timeout).final s).frame.used
        ∧ Holds' ((receiveBlock timeout').final s₁).link (octets.drop n) := by
  have hcut := receiveBlock_cuts hstream hholds hspan hn hfitted.capacity timeout
  obtain ⟨hfront, length, hannounced⟩ := Codec.announced?_take_span hspan hn
  refine ⟨hcut.mono ?_, ?_, ?_⟩
  · intro r s' hend
    obtain ⟨hr, link, frame, statistics, rfl, hused, hframe, hrest⟩ := hend
    refine ⟨hrest, ⟨hframe.trans hfitted.frame, hfitted.epilogue⟩, ?_⟩
    unfold Codec.received at hr
    rw [List.length_take, Nat.min_eq_left hn] at hr
    split
    · rename_i hfits
      rw [if_pos hfits] at hused hr
      unfold Codec.verdict at hr
      rw [Codec.front_take (Nat.le_trans (Nat.le_add_right _ _) hfront)] at hr
      refine ⟨hused, ?_⟩
      cases hdecode : s.codec.decode (octets.take n) with
      | ok block =>
          rw [hdecode] at hr
          rw [← hused] at hannounced hdecode
          have harrived := arrived_of_decode hannounced hdecode
          exact ⟨_, hr, rfl, harrived.payload⟩
      | error fault =>
          rw [hdecode] at hr
          exact ⟨hr, Codec.decode_fault_of_isWhole (Codec.isWhole_take_span hspan hn) hdecode⟩
    · rename_i hlarge
      rw [if_neg hlarge] at hr
      exact hr
  · rintro block rest rfl hpayload
    have hlength := Codec.span_layout s.codec rest
      (Nat.le_trans hpayload (max_shortMax_le hvalid))
    obtain rfl := Except.ok.inj (hspan.symm.trans hlength)
    exact ⟨rfl, hfitted.room hpayload⟩
  · intro L' _ Holds' s₁ timeout' hcodec hcapacity hstream' hholds'
    have hspan' : s₁.codec.span octets = .ok n := by
      rw [hcodec]
      exact hspan
    have hcut' := receiveBlock_cuts hstream' hholds' hspan' hn
      (by rw [hcapacity]; exact hfitted.capacity) timeout'
    rw [hcodec, hcapacity] at hcut'
    -- both ends are those of the same octets
    have hresult := (hcut.mono fun _ _ hend => hend.1).result
    have hresult' := (hcut'.mono fun _ _ hend => hend.1).result
    obtain ⟨link, frame, statistics, hfinal, hused, -⟩ := (hcut.mono fun _ _ hend => hend.2).final
    obtain ⟨link', frame', statistics', hfinal', hused', -, hrest'⟩ :=
      (hcut'.mono fun _ _ hend => hend.2).final
    refine ⟨hresult'.trans hresult.symm, ?_, ?_⟩
    · rw [hfinal, hfinal']
      exact hused'.trans hused.symm
    · rw [hfinal']
      exact hrest'

/-- Two blocks, one behind the other. -/
def twoBlocks : Bytes := [0xA5, 0x00, 0x02, 0x61, 0x10, 0xD6, 0xA5, 0xE0, 0x00, 0x45]

theorem receiveBlock_framing_doled :
    let settings : Settings := { epilogue := .lrc }
    let s := create ({ current := some { bytes := twoBlocks, chunk := some 2 } } : Rehearsal)
      settings
    settings.fault? = none ∧ Fitted settings s ∧ Stream (Doles 2) ∧ Doles 2 s.link twoBlocks ∧
      s.codec.span twoBlocks = .ok 6 ∧ 6 ≤ twoBlocks.length ∧
      Ensures (receiveBlock 1) s fun r s' =>
        Doles 2 s'.link (twoBlocks.drop 6) ∧ ∃ inbound, r = .ok inbound ∧
          inbound.control = .information .zero false ∧
          inbound.payload? s'.frame.used = some [0x61, 0x10] := by
  intro settings s
  have hvalid : settings.fault? = none := by decide
  have hfitted : Fitted settings s := create_fitted _ settings
  have hstream : Stream (Doles 2) := doles_stream (by decide)
  have hholds : Doles 2 s.link twoBlocks := .inr rfl
  have hspan : s.codec.span twoBlocks = .ok 6 := by decide
  have hlength : 6 ≤ twoBlocks.length := by decide
  have hfits : 6 ≤ s.frame.capacity := by decide
  have hdecode : s.codec.decode (twoBlocks.take 6)
      = .ok { address := 0xA5, control := .information .zero false, payload := [0x61, 0x10],
              edc := 0xD6 } := by
    decide
  clear_value s
  refine ⟨hvalid, hfitted, hstream, hholds, hspan, hlength, ?_⟩
  refine (receiveBlock_framing 1 hvalid hfitted hstream hholds hspan hlength).1.mono ?_
  intro r s' hend
  obtain ⟨hrest, -, hcut⟩ := hend
  rw [if_pos hfits, hdecode] at hcut
  exact ⟨hrest, hcut.2⟩

end Session

end SecureElement
