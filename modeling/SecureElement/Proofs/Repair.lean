import SecureElement.Proofs.Burst
import SecureElement.Proofs.Foresight
import SecureElement.Proofs.Stream
import SecureElement.Proofs.Transparency

/-!
# A damaged response is asked for again

One bit of a response is turned over on the way. The session sees that in the epilogue, asks
for the block again and gets it. What stands between the two is where the damaged block ends: that
is read off its length, which may be what was damaged.

* `decode_flipBit` says that no flip goes unnoticed, and `covers_flipBit` that a flip outside of the
  length leaves the end of the block where it was.
* `Replying` is a link on which something can be read only after something was written. There the
  rest of a block that is declared too long never comes: `receiveBlock_dry` says that what came is
  taken off the link while it is waited for.
* So a damaged block that covers all that came is a minor setback, and nothing of it is left
  (`receiveBlock_damaged`). `receiveRound_damaged` and `receiveRound_intact` are the two rounds that
  follow, and `transceive_repairs` is the call.

`transceive_unrepaired` shows what is left out: the rest of a block that is declared too short is
read as the next one, and a block that is declared longer than the frame is refused for good.
-/

namespace SecureElement

/-! ## One bit -/

namespace Bytes

/-- The octets with one bit turned over, counted from the lowest bit of the first octet. -/
def flipBit (octets : Bytes) (i : Nat) : Bytes :=
  octets.modify (i / 8) (· ^^^ (1 <<< UInt8.ofNat (i % 8)))

@[simp] theorem length_flipBit (octets : Bytes) (i : Nat) :
    (octets.flipBit i).length = octets.length :=
  List.length_modify ..

theorem bits_append (front back : Bytes) : bits (front ++ back) = bits front ++ bits back :=
  List.flatMap_append

/-- What is done to one octet is a burst of eight bits. -/
theorem isBurst_modify {octets : Bytes} {k : Nat} (f : UInt8 → UInt8) (hk : k < octets.length) :
    IsBurst 8 octets (octets.modify k f) := by
  obtain ⟨front, octet, back, rfl, hfront, hmodified⟩ := List.exists_of_modify f hk
  rw [hmodified]
  refine ⟨8 * k, fun i hi => ?_⟩
  rw [bits_append, bits_append, bits_cons, bits_cons] at hi
  have hlength : (bits front).length = 8 * k := by rw [length_bits, hfront]
  -- a bit that differs would be in front of the octet or behind it, where both are the same
  by_contra hout
  refine hi ?_
  by_cases hless : i < 8 * k
  · rw [List.getElem?_append_left (by omega), List.getElem?_append_left (by omega)]
  · have hbehind : (bits front).length ≤ i := by omega
    have hlater : ∀ a, (octetBits a).length ≤ i - (bits front).length := by
      intro a
      rw [length_octetBits]
      omega
    rw [List.getElem?_append_right hbehind, List.getElem?_append_right hbehind,
      List.getElem?_append_right (hlater _), List.getElem?_append_right (hlater _),
      length_octetBits, length_octetBits]

theorem flipBit_ne {octets : Bytes} {i : Nat} (hi : i < 8 * octets.length) :
    octets.flipBit i ≠ octets := by
  intro hsame
  have hk : i / 8 < octets.length := by omega
  have hoctet := congrArg (fun l : Bytes => l[i / 8]?) hsame
  dsimp only [flipBit] at hoctet
  rw [List.getElem?_modify_eq, List.getElem?_eq_getElem hk] at hoctet
  have hmask : ∀ j < 8, (1 : UInt8) <<< UInt8.ofNat j ≠ 0 := by decide
  have hzero : octets[i / 8] ^^^ (1 <<< UInt8.ofNat (i % 8)) = octets[i / 8] ^^^ 0 := by
    rw [UInt8.xor_zero]
    exact Option.some.inj hoctet
  exact hmask _ (Nat.mod_lt _ (by omega)) ((UInt8.xor_right_inj _).mp hzero)

end Bytes

namespace Codec

variable {c : Codec} {raw : Bytes} {block : Block} {i : Nat}

theorem isWhole_of_decode (h : c.decode raw = .ok block) : IsWhole c.epilogue raw := by
  obtain ⟨front, length, hannounced, hlength, -⟩ := decode_eq_ok h
  unfold IsWhole announcedLength?
  rw [hannounced, hlength]
  rfl

/-- A block of which one bit was turned over is refused. -/
theorem decode_flipBit (h : c.decode raw = .ok block) (hi : i < 8 * raw.length) :
    ∃ fault, c.decode (raw.flipBit i) = .error fault := by
  cases hdecode : c.decode (raw.flipBit i) with
  | error fault => exact ⟨fault, rfl⟩
  | ok block' =>
      have hresidue := (residue_of_decode h).trans (residue_of_decode hdecode).symm
      obtain ⟨start, hburst⟩ : IsBurst 8 raw (raw.flipBit i) := Bytes.isBurst_modify _ (by omega)
      have hwide : IsBurst (8 * c.epilogue.width) raw (raw.flipBit i) := by
        have hwidth : 1 ≤ c.epilogue.width := by cases c.epilogue <;> decide
        exact ⟨start, fun j hj => ⟨(hburst j hj).1, by have := (hburst j hj).2; omega⟩⟩
      have hlength : raw.length = (raw.flipBit i).length := (Bytes.length_flipBit raw i).symm
      exact absurd (Epilogue.eq_of_burst hlength hresidue hwide).symm (Bytes.flipBit_ne hi)

/-- What is done to an octet beside the length does not change what is announced. -/
theorem announced?_modify {octets : Bytes} {k : Nat} (f : UInt8 → UInt8)
    (hk : k < 2 ∨ front octets ≤ k) : announced? (octets.modify k f) = announced? octets := by
  match octets, k with
  | [], _ => rw [List.modify_nil]
  | [_], 0 | [_, _], 0 | [_, _], 1 => rfl
  | [_], k + 1 => rw [List.modify_eq_self (Nat.succ_le_succ (Nat.zero_le k))]
  | [_, _], k + 2 => rw [List.modify_eq_self (Nat.le_add_left 2 k)]
  | _ :: _ :: _ :: _, 0 | _ :: _ :: _ :: _, 1 => rfl
  | _ :: _ :: third :: rest, k + 2 =>
      -- the third octet says where the front ends, so it is not touched itself
      have hfront : Block.shortPrologue + extension third ≤ k + 2 := by
        rcases hk with hless | hle
        · omega
        · exact hle
      obtain ⟨k, rfl⟩ : ∃ j, k = j + 1 := ⟨k - 1, by unfold Block.shortPrologue at hfront; omega⟩
      rw [List.modify_succ_cons, List.modify_succ_cons, List.modify_succ_cons]
      unfold announced?
      dsimp only
      by_cases hmarker : third = Block.longMarker
      · rw [if_pos hmarker, if_pos hmarker]
        unfold extension Block.shortPrologue at hfront
        rw [if_pos hmarker] at hfront
        match rest with
        | [] => rw [List.modify_nil]
        | [_] => rw [List.modify_eq_self (by rw [List.length_singleton]; omega)]
        | high :: low :: rest =>
            obtain ⟨k, rfl⟩ : ∃ j, k = j + 2 := ⟨k - 2, by omega⟩
            rw [List.modify_succ_cons, List.modify_succ_cons]
      · rw [if_neg hmarker, if_neg hmarker]

/-- The block still declares the same length if the damage is outside of it. -/
theorem span_flipBit (h : IsWhole c.epilogue raw) (hi : i / 8 < 2 ∨ front raw ≤ i / 8) :
    c.span (raw.flipBit i) = .ok raw.length := by
  have hwhole : IsWhole c.epilogue (raw.flipBit i) := by
    unfold IsWhole announcedLength? at h ⊢
    rw [Bytes.length_flipBit, ← h]
    unfold Bytes.flipBit
    rw [announced?_modify _ hi]
  have hspan : c.span (raw.flipBit i ++ []) = .ok (raw.flipBit i).length := span_of_isWhole hwhole
  rw [List.append_nil, Bytes.length_flipBit] at hspan
  exact hspan

/-- What a front declares covers all that came, and is no more than a frame of this size can
hold. -/
def Covers (c : Codec) (capacity : Nat) (octets : Bytes) : Prop :=
  ∃ n, c.span octets = .ok n ∧ octets.length ≤ n ∧ n ≤ capacity

/-- Damage outside of the length leaves all of the block covered. -/
theorem covers_flipBit {capacity : Nat} (h : IsWhole c.epilogue raw) (hfits : raw.length ≤ capacity)
    (hi : i / 8 < 2 ∨ front raw ≤ i / 8) : c.Covers capacity (raw.flipBit i) :=
  ⟨raw.length, span_flipBit h hi, Nat.le_of_eq (Bytes.length_flipBit raw i), hfits⟩

/-- Only a front that is there declares anything. -/
theorem front_le_of_span {octets : Bytes} {n : Nat} (h : c.span octets = .ok n) :
    front octets ≤ octets.length ∧ ∃ body,
      c.bodyLength (octets.take (front octets)) = .ok body ∧ n = front octets + body := by
  cases hbody : c.bodyLength (octets.take (front octets)) with
  | error fault =>
      unfold span at h
      rw [hbody] at h
      exact absurd h nofun
  | ok body =>
      unfold span at h
      rw [hbody] at h
      refine ⟨?_, body, rfl, (Except.ok.inj h).symm⟩
      -- a front that is cut off declares nothing, which depends on how much of it is there
      by_contra hshort
      rw [List.take_of_length_le (by omega)] at hbody
      match octets with
      | [] | [_] | [_, _] | [_, _, _, _] => exact absurd hbody nofun
      | [_, _, third] =>
          unfold bodyLength at hbody
          dsimp only at hbody
          by_cases hmarker : third = Block.longMarker
          · rw [if_pos hmarker] at hbody
            exact absurd hbody nofun
          · refine hshort ?_
            show Block.shortPrologue + extension third ≤ 3
            unfold extension
            rw [if_neg hmarker]
            exact Nat.le_refl 3
      | a :: b :: third :: high :: low :: rest =>
          refine hshort (Nat.le_trans (front_le _) ?_)
          exact Nat.le_add_left 5 rest.length

end Codec

/-! ## A link that speaks when it is spoken to -/

namespace Link

/-- `Holds link unread replies` says that these octets can be read now, and that these replies are
still to come, one for each write. Whatever is handed over is taken; a read brings some of what is
unread, and one that finds nothing waits in vain. No time passes in any of this. -/
structure Replying {L : Type} [Link L] (instant : Nanos)
    (Holds : L → Bytes → List Bytes → Prop) : Prop where
  still : ∀ {link unread replies}, Holds link unread replies → now link = instant
  written : ∀ {link unread reply replies}, Holds link unread (reply :: replies) →
    ∀ frame timeout, ∃ link', write frame timeout link = (.ok frame.length, link')
      ∧ Holds link' (unread ++ reply) replies
  read : ∀ {link unread replies}, Holds link unread replies → unread ≠ [] →
    ∀ n timeout, 0 < n → ∃ k link', 0 < k ∧ k ≤ n ∧ k ≤ unread.length
      ∧ Link.read n timeout link = (.ok (unread.take k), link')
      ∧ Holds link' (unread.drop k) replies
  silent : ∀ {link replies}, Holds link [] replies → ∀ n timeout, 0 < n →
    ∃ link', Link.read n timeout link = (.error .timeout, link') ∧ Holds link' [] replies

namespace Replying

variable {L : Type} [Link L] {instant : Nanos} {Holds : L → Bytes → List Bytes → Prop}
  {link : L} {unread reply : Bytes} {replies : List Bytes} {n : Nat}

/-- The record of such a link does not matter. -/
theorem traced (h : Replying instant Holds) :
    Replying instant fun t : Traced L => Holds t.link where
  still hholds := h.still hholds
  written := by
    intro t unread reply replies hholds frame timeout
    obtain ⟨link', hwrite, hrest⟩ := h.written hholds frame timeout
    have htraced := write_traced frame timeout t
    rw [hwrite] at htraced
    exact ⟨_, htraced, hrest⟩
  read := by
    intro t unread replies hholds hsome n timeout hpos
    obtain ⟨k, link', hk, hkn, hlength, hread, hrest⟩ := h.read hholds hsome n timeout hpos
    have htraced := read_traced n timeout t
    rw [hread] at htraced
    exact ⟨k, _, hk, hkn, hlength, htraced, hrest⟩
  silent := by
    intro t replies hholds n timeout hpos
    obtain ⟨link', hread, hrest⟩ := h.silent hholds n timeout hpos
    have htraced := read_traced n timeout t
    rw [hread] at htraced
    exact ⟨_, htraced, hrest⟩

/-- Between two writes it brings a stream. -/
theorem stream (h : Replying instant Holds) (replies : List Bytes) :
    Stream fun link unread => Holds link unread replies where
  read := by
    intro link unread hholds n timeout hpos hn
    have hsome : unread ≠ [] := by
      rintro rfl
      exact absurd hn (Nat.not_le.mpr hpos)
    obtain ⟨k, link', hk, hkn, -, hread, hrest⟩ := h.read hholds hsome n timeout hpos
    exact ⟨k, link', hk, hkn, hread, hrest⟩

theorem writeAll (h : Replying instant Holds) (hholds : Holds link unread (reply :: replies))
    (frame : Bytes) (timeout : Nanos) : ∃ link', Link.writeAll frame timeout link = (.ok (), link')
      ∧ Holds link' (unread ++ reply) replies := by
  obtain ⟨link', hwrite, hrest⟩ := h.written hholds frame timeout
  refine ⟨link', ?_, hrest⟩
  unfold Link.writeAll
  rw [hwrite]
  exact if_pos rfl

/-- Whoever asks for more than there is gets all of it, and waits in vain for the rest. -/
theorem readUpTo_dry (h : Replying instant Holds) (timeout : Nanos) :
    ∀ (calls n : Nat) (link : L) (unread : Bytes), Holds link unread replies → n ≤ calls →
      unread.length < n → ∃ link', Link.readUpTo timeout calls n link
        = ((unread, some .timeout), link') ∧ Holds link' [] replies
  | _, 0, _, _, _, _, hless => absurd hless (Nat.not_lt_zero _)
  | 0, n + 1, _, _, _, hcalls, _ => absurd hcalls (Nat.not_succ_le_zero n)
  | calls + 1, n + 1, link, [], hholds, _, _ => by
      obtain ⟨link', hread, hrest⟩ := h.silent hholds (n + 1) timeout (Nat.succ_pos n)
      refine ⟨link', ?_, hrest⟩
      rw [Link.readUpTo, hread]
  | calls + 1, n + 1, link, octet :: octets, hholds, hcalls, hless => by
      obtain ⟨k, link₁, hpos, hk, hlength, hread, hholds₁⟩ :=
        h.read hholds (List.cons_ne_nil _ _) (n + 1) timeout (Nat.succ_pos n)
      have hpiece : ((octet :: octets).take k).length = k := List.length_take_of_le hlength
      obtain ⟨link₂, hmore, hrest⟩ := h.readUpTo_dry timeout calls (n + 1 - k) link₁
        ((octet :: octets).drop k) hholds₁ (by omega) (by rw [List.length_drop]; omega)
      refine ⟨link₂, ?_, hrest⟩
      rw [Link.readUpTo, hread]
      obtain ⟨k, rfl⟩ : ∃ j, k = j + 1 := ⟨k - 1, by omega⟩
      rw [List.take_succ_cons] at hpiece ⊢
      dsimp only
      rw [List.take_of_length_le (by omega), hpiece, hmore]
      dsimp only
      rw [← List.take_succ_cons, List.take_append_drop]

/-- So it does for `readAll`. -/
theorem readAll_dry (h : Replying instant Holds) (hholds : Holds link unread replies)
    (hless : unread.length < n) (timeout : Nanos) : ∃ link',
      Link.readAll n timeout link = ((unread, some .timeout), link') ∧ Holds link' [] replies :=
  h.readUpTo_dry timeout n n link unread hholds (Nat.le_refl n) hless

end Replying

/-- A link on which each write brings the next reply, and on which no time passes. -/
structure Responder where
  unread : Bytes := []
  replies : List Bytes
  deriving Repr

instance : Link Responder where
  bringUp r := (.ok (), r)
  write frame _ r :=
    (.ok frame.length,
      match r.replies with
      | [] => r
      | reply :: replies => { unread := r.unread ++ reply, replies })
  read n _ r :=
    if r.unread.isEmpty then (.error .timeout, r)
    else (.ok (r.unread.take n), { r with unread := r.unread.drop n })
  release r := r
  now _ := 0
  backlog r := r.unread.length + (r.replies.map List.length).sum

theorem Responder.replying :
    Replying 0 fun (r : Responder) unread replies => r.unread = unread ∧ r.replies = replies where
  still _ := rfl
  written := by
    rintro r unread reply replies ⟨rfl, hreplies⟩ frame timeout
    refine ⟨_, rfl, ?_⟩
    rw [hreplies]
    exact ⟨rfl, rfl⟩
  read := by
    rintro r unread replies ⟨rfl, rfl⟩ hsome n timeout hpos
    have hlength := List.length_pos_of_ne_nil hsome
    refine ⟨min n r.unread.length, { r with unread := r.unread.drop n }, by omega, by omega,
      by omega, ?_, ?_, rfl⟩
    · refine (if_neg ?_).trans ?_
      · rw [List.isEmpty_iff]
        exact hsome
      · rw [List.take_eq_take_min]
    · exact List.drop_eq_drop_min
  silent := by
    rintro r replies ⟨hunread, rfl⟩ n timeout hpos
    refine ⟨r, if_pos ?_, hunread, rfl⟩
    rw [hunread]
    rfl

end Link

/-- A payload that one block can carry makes a chain of one block. -/
theorem Chain.next?_alone {c : Codec} {payload : Bytes} (seq : Seq)
    (h : payload.length ≤ c.maxPayload) :
    ∃ rest, (ofPayload c payload seq).next? = some (c.make (.information seq false) payload, rest)
      ∧ rest.done = true := by
  unfold next? ofPayload
  rw [if_neg Bool.false_ne_true]
  dsimp only
  rw [List.take_of_length_le h, List.drop_eq_nil_of_le h]
  exact ⟨_, rfl, rfl⟩

open Link

/-! ## A damaged block -/

namespace Step

open SecureElement.Action Session

variable {L : Type} [Link L] {instant : Nanos} {Holds : L → Bytes → List Bytes → Prop}
  {s s₁ s' : Session L} {octets unread reply : Bytes} {replies : List Bytes} {n : Nat}

omit [Link L] in
/-- Nothing but the link, the counts and what is in the frame and the staged block is different. -/
def Stays (s s' : Session L) : Prop :=
  ∃ link frame retries statistics command,
    s' = { s with link, frame, retries, statistics, command }
      ∧ frame.capacity = s.frame.capacity

omit [Link L] in
theorem Stays.trans (h₁ : Stays s s₁) (h₂ : Stays s₁ s') : Stays s s' := by
  obtain ⟨link₁, frame₁, retries₁, statistics₁, command₁, rfl, hframe₁⟩ := h₁
  obtain ⟨link₂, frame₂, retries₂, statistics₂, command₂, rfl, hframe₂⟩ := h₂
  exact ⟨link₂, frame₂, retries₂, statistics₂, command₂, rfl, hframe₂.trans hframe₁⟩

omit [Link L] in
theorem Stays.settings (h : Stays s s') : s'.settings = s.settings := by
  obtain ⟨link, frame, retries, statistics, command, rfl, -⟩ := h
  rfl

/-- A frame that is handed over is replied to. -/
theorem transmit_written (h : Replying instant Holds)
    (hholds : Holds s.link unread (reply :: replies)) (frame : Bytes) :
    Ensures (transmit frame) s fun r s' =>
      r = .ok () ∧ Stays s s' ∧ Holds s'.link (unread ++ reply) replies := by
  obtain ⟨link, htaken, hrest⟩ := h.writeAll hholds frame s.settings.blockTimeout
  unfold transmit
  rw [ensures_count_bind, ensures_get_bind]
  dsimp only
  rw [ensures_onLink_bind, htaken]
  exact ⟨rfl, ⟨link, s.frame, s.retries, _, s.command, rfl, rfl⟩, hrest⟩

/-- A block that declares more than there is, but no more than the frame can hold, is waited for in
vain. -/
theorem receiveBlock_dry (h : Replying instant Holds) (hholds : Holds s.link octets replies)
    (hspan : s.codec.span octets = .ok n) (hless : octets.length < n)
    (hfits : n ≤ s.frame.capacity) (hcapacity : Block.longPrologue ≤ s.frame.capacity)
    (timeout : Nanos) :
    Ensures (receiveBlock timeout) s fun r s' => r = .error (.because (.ofLink .timeout)) ∧
      Stays s s' ∧ s'.retries = s.retries ∧ Holds s'.link [] replies := by
  obtain ⟨hfront, body, hbody, hsum⟩ := Codec.front_le_of_span hspan
  unfold receiveBlock
  refine (readPrologue_stream (h.stream replies) hholds hfront hcapacity timeout).bind_ok
    fun s₁ hend => ?_
  obtain ⟨link, frame, rfl, hused, hframe, hholds₁⟩ := hend
  have hlength : frame.used.length = Codec.front octets := by
    rw [hused, List.length_take_of_le hfront]
  have hcells := frame.length_used_add_room
  -- what is left of the octets is less than what the front declares
  have hshort : (octets.drop (Codec.front octets)).length < body := by
    rw [List.length_drop]
    omega
  obtain ⟨link', hread, hrest⟩ := h.readAll_dry hholds₁ hshort timeout
  rw [ensures_get_bind]
  dsimp only
  rw [hused, hbody, ← hused]
  dsimp only
  rw [if_neg (by omega)]
  refine (readFrame_fault (by dsimp only; omega) hread).bind_error fun s₂ hend => ?_
  obtain ⟨frame', rfl, hframe'⟩ := hend
  exact ⟨rfl, ⟨link', frame', s.retries, s.statistics, s.command, rfl, hframe'.trans hframe⟩, rfl,
    hrest⟩

/-- **A damaged block is a minor setback, and nothing of it is left to be read**, if it declares no
less than what came and no more than the frame can hold. -/
theorem receiveBlock_damaged {fault : Block.Fault} (h : Replying instant Holds)
    (hholds : Holds s.link octets replies) (hcovers : s.codec.Covers s.frame.capacity octets)
    (hcapacity : Block.longPrologue ≤ s.frame.capacity)
    (hdecode : s.codec.decode octets = .error fault) (timeout : Nanos) :
    Ensures (receiveBlock timeout) s fun r s' =>
      (∃ failure, r = .error (.because (.minor failure))) ∧
        Stays s s' ∧ s'.retries = s.retries ∧ Holds s'.link [] replies := by
  obtain ⟨n, hspan, hlong, hfits⟩ := hcovers
  rcases Nat.lt_or_eq_of_le hlong with hless | rfl
  · refine (receiveBlock_dry h hholds hspan hless hfits hcapacity timeout).mono ?_
    intro r s' hend
    obtain ⟨rfl, hrest⟩ := hend
    exact ⟨⟨_, rfl⟩, hrest⟩
  · refine (receiveBlock_cuts (h.stream replies) hholds hspan (Nat.le_refl _) hcapacity
      timeout).mono ?_
    intro r s' hend
    obtain ⟨hr, link, frame, statistics, rfl, -, hframe, hrest⟩ := hend
    rw [List.drop_length] at hrest
    rw [List.take_length] at hr
    unfold Codec.received Codec.verdict at hr
    rw [if_pos hfits, hdecode] at hr
    exact ⟨⟨_, hr⟩, ⟨link, frame, s.retries, statistics, s.command, rfl, hframe⟩, rfl, hrest⟩

/-- An intact block is received as a whole. -/
theorem receiveBlock_intact {block : Block} (h : Replying instant Holds)
    (hholds : Holds s.link octets replies) (hdecode : s.codec.decode octets = .ok block)
    (hfits : octets.length ≤ s.frame.capacity)
    (hcapacity : Block.longPrologue ≤ s.frame.capacity) (timeout : Nanos) :
    Ensures (receiveBlock timeout) s fun r s' => Stays s s' ∧ Holds s'.link [] replies ∧
      ∃ inbound, r = .ok inbound ∧ inbound.control = block.control ∧
        inbound.payload? s'.frame.used = some block.payload := by
  have hspan : s.codec.span (octets ++ []) = .ok octets.length :=
    Codec.span_of_isWhole (Codec.isWhole_of_decode hdecode)
  rw [List.append_nil] at hspan
  obtain ⟨-, length, hannounced⟩ := Codec.announced?_take_span hspan (Nat.le_refl _)
  rw [List.take_length] at hannounced
  refine (receiveBlock_cuts (h.stream replies) hholds hspan (Nat.le_refl _) hcapacity
    timeout).mono ?_
  intro r s' hend
  obtain ⟨hr, link, frame, statistics, rfl, hused, hframe, hrest⟩ := hend
  rw [if_pos hfits, List.take_length] at hused
  rw [List.take_length] at hr
  rw [List.drop_length] at hrest
  unfold Codec.received Codec.verdict at hr
  rw [if_pos hfits, hdecode] at hr
  rw [← hused] at hannounced hdecode
  refine ⟨⟨link, frame, s.retries, statistics, s.command, rfl, hframe⟩, hrest, _, hr, rfl, ?_⟩
  have harrived := arrived_of_decode hannounced hdecode
  rw [← hused]
  exact harrived.payload

/-! ## Two rounds -/

/-- A session that collects a response and has tries left, over a link that replies. -/
structure Listening (instant : Nanos) (s : Session L) : Prop where
  timeout : 0 < s.settings.blockTimeout
  inTime : ∀ deadline, s.deadline = some deadline → instant < deadline
  capacity : Block.longPrologue ≤ s.frame.capacity
  parked : s.parked = none

omit [Link L] in
theorem Listening.stays (h : Listening instant s) (hstays : Stays s s') : Listening instant s' := by
  obtain ⟨link, frame, retries, statistics, command, rfl, hframe⟩ := hstays
  exact ⟨h.timeout, h.inTime, by rw [hframe]; exact h.capacity, h.parked⟩

/-- While nothing is parked the next block is the next to be received. -/
theorem nextBlock_received {Q : Except (Stop Setback) Inbound → Session L → Prop}
    (h : Replying instant Holds) (hlistening : Listening instant s)
    (hholds : Holds s.link unread replies)
    (hreceived : ∀ timeout, Ensures (receiveBlock timeout) s Q)
    (hplain : ∀ inbound s', Q (.ok inbound) s' → inbound.control ≠ .request .wtx ∧
      (inbound.control = .request .ifs → inbound.length = 0))
    (hbecause : ∀ stop s', Q (.error stop) s' → ∃ setback, stop = .because setback) :
    Ensures nextBlock s fun r s' => ∃ received : Except Setback Inbound,
      r = .ok received ∧ Q (received.mapError .because) s' := by
  have hsame : { s with parked := none } = s := by rw [← hlistening.parked]
  have hintime : ∀ deadline, s.deadline = some deadline → now s.link < deadline := by
    rw [h.still hholds]
    exact hlistening.inTime
  unfold nextBlock
  rw [ensures_get_bind, ensures_set_bind, hlistening.parked, hsame]
  exact attempt_received (awaitBlock_received hlistening.timeout hintime
    (fun wait _ _ => hreceived wait) hplain) hbecause

/-- What is handed over in reply to a damaged block is replied to in turn. -/
theorem orCharge_written (h : Replying instant Holds)
    (hholds : Holds s.link unread (reply :: replies)) (frame : Bytes) :
    Ensures (orCharge (transmit frame)) s fun r s' =>
      r = .ok () ∧ Stays s s' ∧ Holds s'.link (unread ++ reply) replies := by
  unfold orCharge
  exact (ensures_attempt_ok (transmit_written h hholds frame)).bind_ok fun s₁ hend => ⟨rfl, hend⟩

omit [Link L] in
/-- A first try is charged. -/
theorem charge_first (failure : Failure) (hfresh : s.retries = 0)
    (hbudget : 1 ≤ s.settings.blockRetransmits) :
    Ensures (charge (.minor failure)) s fun r s' =>
      r = .ok () ∧ Stays s s' ∧ s'.link = s.link := by
  have hcount : s.retries ≠ counterMax := by
    rw [hfresh]
    decide
  unfold Ensures
  rw [charge_passes failure hcount (by omega)]
  exact ⟨rfl, ⟨s.link, s.frame, _, _, s.command, rfl, rfl⟩, rfl⟩

/-- A damaged block costs a try, and is asked for again. -/
theorem receiveRound_damaged {fault : Block.Fault} (h : Replying instant Holds)
    (hlistening : Listening instant s) (hholds : Holds s.link octets (reply :: replies))
    (hcovers : s.codec.Covers s.frame.capacity octets)
    (hdecode : s.codec.decode octets = .error fault)
    (hfresh : s.retries = 0) (hbudget : 1 ≤ s.settings.blockRetransmits) :
    Ensures (receiveRound ()) s fun r s' =>
      r = .ok (.inl ()) ∧ Stays s s' ∧ Holds s'.link reply replies := by
  have hreceived := receiveBlock_damaged h hholds hcovers hlistening.capacity hdecode
  unfold receiveRound
  refine (nextBlock_received h hlistening hholds hreceived ?_ ?_).bind ?_ ?_
  · intro inbound s' hend
    obtain ⟨⟨failure, hr⟩, -⟩ := hend
    exact absurd hr nofun
  · intro stop s' hend
    obtain ⟨⟨failure, hr⟩, -⟩ := hend
    exact ⟨_, Except.error.inj hr⟩
  · intro received s₁ hend
    obtain ⟨received', hr, ⟨failure, hfailure⟩, hstays, hretries, hrest⟩ := hend
    obtain rfl := Except.ok.inj hr
    have hminor : received = .error (.minor failure) := by
      cases received with
      | ok inbound => exact absurd hfailure nofun
      | error setback =>
          rw [Stop.because.inj (Except.error.inj hfailure)]
    subst hminor
    have hnot : ∀ inbound, (Except.error (.minor failure) : Except Setback Inbound) = .ok inbound →
        ∀ more, inbound.control ≠ .information s₁.recvSeq more := fun _ herror => nomatch herror
    refine (ensures_congr (dealWith_eq hnot)).mpr ?_
    have hbudget₁ : 1 ≤ s₁.settings.blockRetransmits := by
      rw [hstays.settings]
      exact hbudget
    refine (charge_first failure (hretries.trans hfresh) hbudget₁).bind_ok fun s₂ hend => ?_
    obtain ⟨hstays', hlink⟩ := hend
    rw [← hlink] at hrest
    refine (orCharge_written h hrest _).bind_ok fun s₃ hend => ?_
    obtain ⟨hstays'', hrest'⟩ := hend
    exact ⟨rfl, (hstays.trans hstays').trans hstays'', hrest'⟩
  · intro stop s₁ hend
    obtain ⟨received, hr, -⟩ := hend
    exact absurd hr nofun

/-- The block that is expected next, and is the last, completes the response. -/
theorem receiveRound_intact {block : Block} (h : Replying instant Holds)
    (hlistening : Listening instant s) (hholds : Holds s.link octets replies)
    (hdecode : s.codec.decode octets = .ok block) (hfits : octets.length ≤ s.frame.capacity)
    (hcontrol : block.control = .information s.recvSeq false)
    (hroom : s.response.used.length + block.payload.length ≤ s.response.capacity) :
    Ensures (receiveRound ()) s fun r s' => r = .ok (.inr ()) ∧
      (∃ s₁, Stays s s₁ ∧ Gains s₁ 1 0 block.payload s') ∧ Holds s'.link [] replies := by
  have hreceived := receiveBlock_intact h hholds hdecode hfits hlistening.capacity
  unfold receiveRound
  refine (nextBlock_received h hlistening hholds hreceived ?_ ?_).bind ?_ ?_
  · intro inbound s₁ hend
    obtain ⟨-, -, inbound', hr, hsame, -⟩ := hend
    obtain rfl := Except.ok.inj hr
    rw [hsame, hcontrol]
    exact ⟨nofun, nofun⟩
  · intro stop s₁ hend
    obtain ⟨-, -, inbound, hr, -⟩ := hend
    exact absurd hr nofun
  · intro received s₁ hend
    obtain ⟨received', hr, hstays, hrest, inbound, hinbound, hsame, hpayload⟩ := hend
    obtain rfl := Except.ok.inj hr
    have hreceived : received = .ok inbound := by
      cases received with
      | ok inbound' => exact congrArg Except.ok (Except.ok.inj hinbound)
      | error setback => exact absurd hinbound nofun
    subst hreceived
    have hawaited : inbound.control = .information s₁.recvSeq false := by
      obtain ⟨link, frame, retries, statistics, command, rfl, -⟩ := hstays
      exact hsame.trans hcontrol
    have hroom₁ : s₁.response.used.length + block.payload.length ≤ s₁.response.capacity := by
      obtain ⟨link, frame, retries, statistics, command, rfl, -⟩ := hstays
      exact hroom
    refine (ensures_congr (dealWith_awaited hawaited)).mpr ?_
    have haccepted : Ensures (accept inbound false) s₁ fun r s' =>
        r = .ok true ∧ Gains s₁ 1 0 block.payload s' ∧ s'.link = s₁.link :=
      accept_keeps hpayload hroom₁ fun s₂ hgains hlink => ⟨rfl, hgains, hlink⟩
    refine haccepted.bind_ok fun s₂ hend => ?_
    obtain ⟨hgains, hlink⟩ := hend
    rw [← hlink] at hrest
    exact ⟨rfl, ⟨s₁, hstays, hgains⟩, hrest⟩
  · intro stop s₁ hend
    obtain ⟨received, hr, -⟩ := hend
    exact absurd hr nofun

/-- **A damaged response is collected with the second try.** -/
theorem receiveResponse_repairs {block : Block} {fault : Block.Fault} {raw : Bytes}
    (h : Replying instant Holds) (hlistening : Listening instant s)
    (hholds : Holds s.link octets (raw :: replies))
    (hcovers : s.codec.Covers s.frame.capacity octets)
    (hdamaged : s.codec.decode octets = .error fault) (hdecode : s.codec.decode raw = .ok block)
    (hraw : raw.length ≤ s.frame.capacity)
    (hcontrol : block.control = .information s.recvSeq false)
    (hroom : block.payload.length ≤ s.response.capacity) (hfresh : s.retries = 0)
    (hbudget : 1 ≤ s.settings.blockRetransmits) :
    Ensures receiveResponse s fun r s' => r = .ok () ∧
      (∃ s₁, Stays (emptied s) s₁ ∧ Gains s₁ 1 0 block.payload s') ∧ Holds s'.link [] replies := by
  have hlistening₀ : Listening instant (emptied s) :=
    ⟨hlistening.timeout, hlistening.inTime, hlistening.capacity, hlistening.parked⟩
  have hempty : (emptied s).response.used.length = 0
      ∧ (emptied s).response.capacity = s.response.capacity := by
    unfold emptied
    rw [Buffer.used_clear, Buffer.capacity_clear]
    exact ⟨rfl, rfl⟩
  unfold receiveResponse
  rw [ensures_modify_bind, ensures_get_bind]
  -- one round for the damaged block, and one for the block that is asked for again
  obtain ⟨rounds, hrounds⟩ : ∃ rounds,
      (backlog s.link + 2) * (s.settings.blockRetransmits + 1) = rounds + 2 := by
    refine ⟨_, (Nat.sub_add_cancel ?_).symm⟩
    exact Nat.le_trans (Nat.le_add_left 2 _) (Nat.le_mul_of_pos_right _ (Nat.succ_pos _))
  dsimp only
  rw [hrounds]
  refine (receiveRound_damaged (s := emptied s) h hlistening₀ hholds hcovers hdamaged
    hfresh hbudget).bind_ok fun s₁ hend => ?_
  obtain ⟨hstays, hholds₁⟩ := hend
  have hlistening₁ := hlistening₀.stays hstays
  have hround : Ensures (receiveRound ()) s₁ fun r s' => r = .ok (.inr ()) ∧
      (∃ s₂, Stays s₁ s₂ ∧ Gains s₂ 1 0 block.payload s') ∧ Holds s'.link [] replies := by
    obtain ⟨link, frame, retries, statistics, command, rfl, hframe⟩ := hstays
    refine receiveRound_intact h hlistening₁ hholds₁ hdecode ?_ hcontrol ?_
    · rw [hframe]
      exact hraw
    · rw [hempty.1, hempty.2, Nat.zero_add]
      exact hroom
  refine hround.bind_ok fun s₂ hend => ?_
  obtain ⟨⟨s₃, hstays', hgains⟩, hrest⟩ := hend
  exact ⟨rfl, ⟨s₃, hstays.trans hstays', hgains⟩, hrest⟩

/-! ## A command that is one block -/

omit [Link L] in
/-- Up to its first block a command changes nothing else either. -/
theorem Goes.stays {tries : Nat} (h : Goes s 0 tries s') : Stays s s' := by
  obtain ⟨link, frame, retries, statistics, command, rfl, hframe, -⟩ := h
  exact ⟨link, frame, retries, statistics, command, rfl, hframe⟩

theorem sendCommand_written (h : Replying instant Holds)
    (hholds : Holds s.link unread (reply :: replies)) :
    Ensures sendCommand s fun r s' =>
      r = .ok () ∧ Stays s s' ∧ Holds s'.link (unread ++ reply) replies := by
  unfold sendCommand
  rw [ensures_get_bind]
  exact transmit_written h hholds s.command.used

theorem sendBlock_written {block : Block} (h : Replying instant Holds)
    (hholds : Holds s.link unread (reply :: replies))
    (hpayload : block.payload.length ≤ s.codec.maxPayload)
    (hroom : s.codec.frameCapacity ≤ s.command.capacity)
    (hlast : block.control.isChained = false) :
    Ensures (sendBlock block) s fun r s' => r = .ok () ∧
      (∃ s₁, Stays s s₁ ∧ s' = { s₁ with sendSeq := s₁.sendSeq.next }) ∧
      Holds s'.link (unread ++ reply) replies := by
  refine sendBlock_begun hroom hpayload fun s₁ hgoes _ hlink => ?_
  rw [← hlink] at hholds
  rw [if_neg (Bool.eq_false_iff.mp hlast)]
  refine (sendFinal_once (sendCommand_written h hholds)).bind_ok fun s₂ hend => ?_
  obtain ⟨hstays, hrest⟩ := hend
  exact ⟨rfl, ⟨s₂, hgoes.stays.trans hstays, rfl⟩, hrest⟩

/-- A command that one block can carry goes out as one block. -/
theorem sendChain_alone {command : Bytes} (h : Replying instant Holds)
    (hholds : Holds s.link unread (reply :: replies))
    (hlength : command.length ≤ s.codec.maxPayload)
    (hroom : s.codec.frameCapacity ≤ s.command.capacity) :
    Ensures (sendChain command) s fun r s' => r = .ok () ∧
      (∃ s₁, Stays (cleared s) s₁ ∧
        s' = { s₁ with sendSeq := s₁.sendSeq.next, commandPending := true }) ∧
      Holds s'.link (unread ++ reply) replies := by
  obtain ⟨rest, hnext, hdone⟩ := Chain.next?_alone s.sendSeq hlength
  have hnone : rest.remaining = 0 := by rw [Chain.remaining, if_pos hdone]
  have hblocks : Ensures (sendBlocks (Chain.ofPayload s.codec command s.sendSeq).remaining
      (Chain.ofPayload s.codec command s.sendSeq)) (cleared s) fun r s' => r = .ok () ∧
        (∃ s₁, Stays (cleared s) s₁ ∧ s' = { s₁ with sendSeq := s₁.sendSeq.next }) ∧
        Holds s'.link (unread ++ reply) replies := by
    rw [Chain.remaining_next hnext, hnone]
    unfold sendBlocks
    rw [hnext]
    exact (sendBlock_written (s := cleared s) h hholds hlength hroom rfl).bind_ok
      fun s₁ hend => ⟨rfl, hend⟩
  unfold sendChain
  rw [ensures_modify_bind, ensures_get_bind]
  refine hblocks.bind_ok fun s₁ hend => ?_
  obtain ⟨⟨s₂, hstays, rfl⟩, hrest⟩ := hend
  exact ⟨rfl, ⟨s₂, hstays, rfl⟩, hrest⟩

end Step

namespace Session

open SecureElement.Action Step

variable {L : Type} [Link L] {settings : Settings} {s s₁ s' : Session (Traced L)} {instant : Nanos}
  {Holds : Traced L → Bytes → List Bytes → Prop} {unread reply raw command : Bytes}
  {replies : List Bytes}

/-- A call that starts on a link where no time passes has all of its time. -/
theorem begun_listening (hvalid : s.settings.fault? = none) (htimeout : 0 < s.settings.blockTimeout)
    (hcapacity : Block.longPrologue ≤ s.frame.capacity) (hparked : s.parked = none)
    (hstill : Link.now s.link = instant) : Listening instant s.begun where
  timeout := htimeout
  inTime := by
    intro deadline hdeadline
    have hample := deadlineFromNow_ample (s := s) hdeadline
    have hpos := (Settings.blockTimeout_le hvalid).2
    rw [hstill] at hample
    exact Nat.lt_of_lt_of_le
      (Nat.lt_add_of_pos_right (Nat.lt_of_lt_of_le hpos (Nat.le_max_left _ _))) hample
  capacity := hcapacity
  parked := hparked

omit [Link L] in
/-- A command of one block is out, and its response is due. -/
structure Due (s s₁ : Session (Traced L)) : Prop where
  ready : s₁.status.isReady = true
  parked : s₁.parked = none
  settings : s₁.settings = s.settings
  codec : s₁.codec = s.codec
  frame : s₁.frame.capacity = s.frame.capacity
  response : s₁.response.capacity = s.response.capacity
  sendSeq : s₁.sendSeq = s.sendSeq.next
  recvSeq : s₁.recvSeq = s.recvSeq

/-- A call sends a command of one block, and the reply is there to be read. -/
theorem send_alone (h : Replying instant Holds) (hready : s.status.isReady = true)
    (hholds : Holds s.link unread (reply :: replies))
    (hlength : command.length ≤ s.codec.maxPayload)
    (hroom : s.codec.frameCapacity ≤ s.command.capacity) :
    Ensures (send command) s fun r s' =>
      r = .ok () ∧ Due s s' ∧ Holds s'.link (unread ++ reply) replies := by
  refine ensures_run_ok hready (sendChain_alone (s := s.begun) h hholds hlength hroom) ?_
  intro s₁ hend
  obtain ⟨⟨s₂, hstays, rfl⟩, hrest⟩ := hend
  obtain ⟨link, frame, retries, statistics, command, rfl, hframe⟩ := hstays
  refine ⟨rfl, ?_, hrest⟩
  exact {
    ready := rfl
    parked := rfl
    settings := rfl
    codec := rfl
    frame := hframe
    response := Buffer.capacity_clear _
    sendSeq := rfl
    recvSeq := rfl }

/-- A call collects a response that is damaged once. -/
theorem receive_repairs {octets : Bytes} {block : Block} {fault : Block.Fault}
    (h : Replying instant Holds) (hready : s.status.isReady = true)
    (hlistening : Listening instant s.begun) (hholds : Holds s.link octets (raw :: replies))
    (hcovers : s.codec.Covers s.frame.capacity octets)
    (hdamaged : s.codec.decode octets = .error fault) (hdecode : s.codec.decode raw = .ok block)
    (hraw : raw.length ≤ s.frame.capacity)
    (hcontrol : block.control = .information s.recvSeq false)
    (hroom : block.payload.length ≤ s.response.capacity)
    (hbudget : 1 ≤ s.settings.blockRetransmits) :
    Ensures receive s fun r s' => r = .ok block.payload ∧ s'.status = .idle ∧ s'.parked = none ∧
      s'.sendSeq = s.sendSeq ∧ s'.recvSeq = s.recvSeq.next ∧ Holds s'.link [] replies := by
  have hrun : Ensures (run receiveResponse) s fun r s' => r = .ok () ∧
      s'.response.used = block.payload ∧ s'.status = .idle ∧ s'.parked = none ∧
      s'.sendSeq = s.sendSeq ∧ s'.recvSeq = s.recvSeq.next ∧ Holds s'.link [] replies := by
    refine ensures_run_ok hready (receiveResponse_repairs (s := s.begun) h hlistening hholds
      hcovers hdamaged hdecode hraw hcontrol hroom rfl hbudget) ?_
    intro s₁ hend
    obtain ⟨⟨s₂, hstays, hgains⟩, hrest⟩ := hend
    obtain ⟨link, frame, retries, statistics, command, rfl, -⟩ := hstays
    obtain ⟨link', frame', statistics', response, rfl, -, -, -, hused, -⟩ := hgains
    have hempty : (emptied s.begun).response.used = [] := Buffer.used_clear _
    rw [hempty, List.nil_append] at hused
    exact ⟨rfl, hused, rfl, hlistening.parked, rfl, rfl, hrest⟩
  unfold receive
  refine hrun.bind_ok fun s₁ hend => ?_
  obtain ⟨hused, hrest⟩ := hend
  rw [ensures_get_bind]
  exact ⟨congrArg Except.ok hused, hrest⟩

/-! ## One flipped bit -/

/-- The frame in which the peer of a session sends a payload as the last block of a response. -/
def responseFrame (s : Session (Traced L)) (payload : Bytes) : Bytes :=
  s.codec.flip.layout (s.codec.flip.make (.information s.recvSeq false) payload)

omit [Link L] in
theorem decode_responseFrame {payload : Bytes} (h : payload.length ≤ Block.longMax) :
    s.codec.decode (s.responseFrame payload)
      = .ok (s.codec.flip.make (.information s.recvSeq false) payload) := by
  have hmade := Codec.decode_made (c := s.codec.flip)
    (.information s.recvSeq false) (show s.codec.epilogue = s.codec.flip.epilogue from rfl) h
  rw [if_neg (show ¬ s.codec.flip.own ≠ s.codec.peer from not_not_intro rfl)] at hmade
  exact hmade

/--
**A response of which one bit is turned over is collected all the same**, if the settings allow a
block to be tried again.

The link speaks when it is spoken to, and no time passes on it. It replies to the command, which
is one block, with the response, which is one block as well and has one bit turned over; and to
what is written next with the response as it should be. Then `transceive` gives the payload of the
response, both sides have moved on by one number, and nothing is left on the link. What was parked
before the command is forgotten, so it does not matter.

Any bit may be turned over. One that is part of the length must leave all that came covered, and
no more than the frame can hold.
-/
theorem transceive_repairs {Holds : L → Bytes → List Bytes → Prop} {payload : Bytes}
    {rest : List Bytes} {i : Nat} (h : Reachable settings s)
    (hready : s.status.isReady = true) (hbudget : 1 ≤ settings.blockRetransmits)
    (hcommand : command.length ≤ s.codec.maxPayload)
    (hpayload : payload.length ≤ max settings.maxBlockPayload Block.shortMax)
    (hresponse : payload.length ≤ settings.responseCapacity)
    (hlink : Replying instant Holds)
    (hholds : Holds s.link.link []
      ((s.responseFrame payload).flipBit i :: s.responseFrame payload :: rest))
    (hi : i < 8 * (s.responseFrame payload).length)
    (hcovers : 2 ≤ i / 8 → i / 8 < Codec.front (s.responseFrame payload) →
      s.codec.Covers s.frame.capacity ((s.responseFrame payload).flipBit i)) :
    ∃ s', transceive command s = .ok payload s' ∧ s'.status = .idle ∧ s'.parked = none ∧
      s'.sendSeq = s.sendSeq.next ∧ s'.recvSeq = s.recvSeq.next ∧ Holds s'.link.link [] rest := by
  have hdecode : s.codec.decode (s.responseFrame payload)
      = .ok (s.codec.flip.make (.information s.recvSeq false) payload) :=
    decode_responseFrame (Nat.le_trans hpayload (max_shortMax_le h.fault?_eq))
  have hfits : (s.responseFrame payload).length ≤ s.frame.capacity := by
    rw [responseFrame, Codec.length_layout, h.fitted.frame]
    exact Codec.frameLength_le h.fitted.epilogue hpayload
  obtain ⟨fault, hdamaged⟩ := Codec.decode_flipBit hdecode hi
  have hcovered : s.codec.Covers s.frame.capacity ((s.responseFrame payload).flipBit i) := by
    by_cases hinside : 2 ≤ i / 8 ∧ i / 8 < Codec.front (s.responseFrame payload)
    · exact hcovers hinside.1 hinside.2
    · exact Codec.covers_flipBit (Codec.isWhole_of_decode hdecode) hfits (by omega)
  obtain ⟨s₁, hsend, hdue, hholds₁⟩ :=
    (send_alone hlink.traced hready hholds hcommand h.room).exists_ok
  rw [List.nil_append] at hholds₁
  have hsettings := hdue.settings.trans h.sound.settings
  have hlistening : Listening instant s₁.begun := by
    refine begun_listening ?_ ?_ ?_ hdue.parked (hlink.traced.still hholds₁)
    · rw [hsettings]
      exact h.fault?_eq
    · rw [hsettings]
      exact h.blockTimeout_pos
    · rw [hdue.frame]
      exact h.sound.capacity
  rw [← hdue.codec, ← hdue.frame] at hcovered
  rw [← hdue.codec] at hdamaged hdecode
  rw [← hdue.frame] at hfits
  rw [← h.equipped.response, ← hdue.response] at hresponse
  rw [← hsettings] at hbudget
  obtain ⟨s', hreceive, hstatus, hparked', hsendSeq, hrecvSeq, hrest⟩ :=
    (receive_repairs hlink.traced hdue.ready hlistening hholds₁ hcovered hdamaged hdecode hfits
      (congrArg (Control.information · false) hdue.recvSeq.symm) hresponse hbudget).exists_ok
  rw [transceive_of_ok hsend]
  exact ⟨s', hreceive, hstatus, hparked', hsendSeq.trans hdue.sendSeq,
    hrecvSeq.trans (congrArg Seq.next hdue.recvSeq), hrest⟩

/-! ## Rehearsed -/

/-- A closed session over a link on which each write brings the next of these replies. -/
def answered (replies : List Bytes) : Session (Traced Responder) :=
  create { link := { replies } } rehearsalSettings

/-- It is opened, and what comes next is a payload in one block: first with one bit turned over, and
then as it should be. -/
def spoiled (payload : Bytes) (i : Nat) : Session (Traced Responder) :=
  let c := rehearsalSettings.codec.flip
  let frame := c.layout (c.make (.information .zero false) payload)
  (perform .establish).final (answered [[0xA5, 0xE0, 0, 0x45], frame.flipBit i, frame])

theorem answered_reachable (replies : List Bytes) :
    Reachable rehearsalSettings (answered replies) := by
  have hnew : new (answered replies).link rehearsalSettings = .ok (answered replies) := rfl
  exact .created hnew

theorem spoiled_reachable (payload : Bytes) (i : Nat) :
    Reachable rehearsalSettings (spoiled payload i) := by
  unfold spoiled
  exact .called .establish (answered_reachable _)

/-- The damage makes the block longer: the rest of it is waited for in vain. -/
theorem transceive_repairs_longer :
    (spoiled [0x61, 0x10] 23).status.isReady = true ∧ 1 ≤ rehearsalSettings.blockRetransmits ∧
      (spoiled [0x61, 0x10] 23).codec.span [0xA5, 0x00, 0x82, 0x61, 0x10, 0xD6] = .ok 134 ∧
      ∃ s' : Session (Traced Responder),
        transceive [0x80] (spoiled [0x61, 0x10] 23) = .ok [0x61, 0x10] s' ∧ s'.status = .idle ∧
        s'.link.link.unread = [] := by
  have hready : (spoiled [0x61, 0x10] 23).status.isReady = true := by decide +kernel
  have hbudget : 1 ≤ rehearsalSettings.blockRetransmits := by decide
  have hcommand : ([0x80] : Bytes).length ≤ (spoiled [0x61, 0x10] 23).codec.maxPayload := by
    decide +kernel
  have hframe : (spoiled [0x61, 0x10] 23).responseFrame [0x61, 0x10]
      = [0xA5, 0x00, 0x02, 0x61, 0x10, 0xD6] := by decide +kernel
  have hflipped : Bytes.flipBit [0xA5, 0x00, 0x02, 0x61, 0x10, 0xD6] 23
      = [0xA5, 0x00, 0x82, 0x61, 0x10, 0xD6] := by decide +kernel
  have hspan : (spoiled [0x61, 0x10] 23).codec.span [0xA5, 0x00, 0x82, 0x61, 0x10, 0xD6]
      = .ok 134 := by decide +kernel
  have hholds : (spoiled [0x61, 0x10] 23).link.link.unread = [] ∧
      (spoiled [0x61, 0x10] 23).link.link.replies
        = [((spoiled [0x61, 0x10] 23).responseFrame [0x61, 0x10]).flipBit 23,
          (spoiled [0x61, 0x10] 23).responseFrame [0x61, 0x10]] := by
    rw [hframe, hflipped]
    decide +kernel
  have hcovers : (spoiled [0x61, 0x10] 23).codec.Covers (spoiled [0x61, 0x10] 23).frame.capacity
      (((spoiled [0x61, 0x10] 23).responseFrame [0x61, 0x10]).flipBit 23) := by
    rw [hframe, hflipped]
    exact ⟨134, hspan, by decide, by decide +kernel⟩
  obtain ⟨s', hcall, hstatus, -, -, -, hunread, -⟩ :=
    transceive_repairs (spoiled_reachable _ _) hready hbudget hcommand (by decide) (by decide)
      Responder.replying hholds (by rw [hframe]; decide) fun _ _ => hcovers
  exact ⟨hready, hbudget, hspan, s', hcall, hstatus, hunread⟩

/-- **The length is not repaired as everything else is.** If the damage makes the block shorter, the
rest of it is taken for the front of the next one; if it makes the block longer than the frame, it
is refused for good. -/
theorem transceive_unrepaired :
    1 ≤ rehearsalSettings.blockRetransmits ∧
      ∀ damage ∈ [(([0x61, 0x10], 17) : Bytes × Nat), (0xFF :: 0xFF :: List.replicate 252 0, 16)],
        ∃ s : Session (Traced Responder), Reachable rehearsalSettings s ∧
          s.status.isReady = true ∧ s.parked = none ∧ [0x80].length ≤ s.codec.maxPayload ∧
          damage.1.length ≤ Block.shortMax ∧ damage.1.length ≤ rehearsalSettings.responseCapacity ∧
          damage.2 < 8 * (s.responseFrame damage.1).length ∧ s.link.link.unread = [] ∧
          s.link.link.replies
            = [(s.responseFrame damage.1).flipBit damage.2, s.responseFrame damage.1] ∧
          (transceive [0x80]).result s = .error (.because .recoveryExhausted) := by
  refine ⟨by decide, fun damage hmem => ⟨spoiled damage.1 damage.2, spoiled_reachable _ _, ?_⟩⟩
  rcases List.mem_cons.mp hmem with rfl | hmem
  · decide +kernel
  · obtain rfl := List.mem_singleton.mp hmem
    decide +kernel

end Session

end SecureElement
