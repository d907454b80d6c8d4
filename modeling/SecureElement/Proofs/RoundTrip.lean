import SecureElement.Proofs.Framing

/-!
# Reading what was written

The writer computes a check value over prologue and payload, chooses a form for the
length and puts three pieces at three offsets. The reader, and the helpers that cut a
frame out of a stream, start from the octets alone and compute all of it again.

* A block that carries what its type admits is **written and read back unchanged**, by
  the codec of the other end (`decode_encode`).
* The stream helpers **find the end** of any frame (`stream_helpers`).
* The piecewise writer **changes the octets of the frame and no others**, and none
  where it refuses (`encodeOver_written`, `encodeOver_refused`).
* A codec with two different addresses **reads none of its own frames**
  (`decode_own`).
-/

namespace SecureElement

namespace Codec

variable {c : Codec} {block : Block} {control : Control} {payload out : Bytes} {n : Nat}

/-- What a block of each type may carry. -/
def Admits (c : Codec) : Control → Bytes → Prop
  | .information _ _, payload => payload.length ≤ c.maxPayload
  | .ready _ _, payload => payload = []
  | .supervisory .wtx _, payload => payload.length = 1
  | .supervisory _ _, payload => payload.length ≤ Block.longMax

theorem payloadLimit_le (c : Codec) (control : Control) :
    c.payloadLimit control ≤ Block.longMax := by
  cases control with
  | information seq more => exact c.maxPayload_le
  | ready seq receipt => exact Nat.le_refl _
  | supervisory function response => exact Nat.le_refl _

theorem Admits.length_le (h : c.Admits control payload) :
    payload.length ≤ c.payloadLimit control := by
  cases control with
  | information seq more => exact h
  | ready seq receipt =>
      have hempty : payload = [] := h
      rw [hempty]
      exact Nat.zero_le _
  | supervisory function response =>
      cases function with
      | wtx =>
          have hone : payload.length = 1 := h
          rw [hone]
          exact Nat.le_of_ble_eq_true rfl
      | _ => exact h

theorem Admits.payloadDefect? (h : c.Admits control payload) :
    payloadDefect? control payload = none := by
  cases control with
  | information seq more => rfl
  | ready seq receipt => exact if_pos (List.isEmpty_iff.mpr h)
  | supervisory function response =>
      cases function with
      | wtx => exact if_pos h
      | _ => rfl

/-! ## The parts of a block -/

/-- A length in the shortest form that holds it. -/
def shortestForm (n : Nat) : Bytes :=
  if n ≤ Block.shortMax then [UInt8.ofNat n]
  else [Block.longMarker, (Bytes.ofLength n).1, (Bytes.ofLength n).2]

theorem lengthForm_shortest (h : n ≤ Block.longMax) : LengthForm (shortestForm n) n := by
  by_cases hshort : n ≤ Block.shortMax
  · have hn : (UInt8.ofNat n).toNat = n := by
      unfold Block.shortMax at hshort
      rw [UInt8.toNat_ofNat']
      omega
    have hoctet : (UInt8.ofNat n).toNat ≤ Block.shortMax := by
      rw [hn]
      exact hshort
    have hform := LengthForm.short hoctet
    rwa [hn, show [UInt8.ofNat n] = shortestForm n from (if_pos hshort).symm] at hform
  · have hn : n < 65536 := Nat.lt_succ_of_le h
    have hform := LengthForm.long (Bytes.ofLength n).1 (Bytes.ofLength n).2
    rwa [Bytes.toLength_ofLength hn,
      show [Block.longMarker, (Bytes.ofLength n).1, (Bytes.ofLength n).2] = shortestForm n from
        (if_neg hshort).symm] at hform

/-- The parts that a block is written as. -/
def parts (c : Codec) (block : Block) : Parts where
  node := block.address
  control := block.control.toByte
  length := shortestForm block.payload.length
  payload := block.payload
  epilogue := c.epilogue.encode block.edc

theorem prologue_eq (address : UInt8) (control : Control) (n : Nat) :
    prologue address control n = address :: control.toByte :: shortestForm n := by
  unfold prologue shortestForm
  split <;> rfl

theorem parts_covered (c : Codec) (block : Block) :
    (c.parts block).covered
      = prologue block.address block.control block.payload.length ++ block.payload := by
  rw [prologue_eq]
  rfl

theorem parts_octets (c : Codec) (block : Block) : (c.parts block).octets = c.layout block := by
  rw [Parts.octets, parts_covered]
  rfl

theorem parts_fit (h : block.payload.length ≤ Block.longMax) :
    (c.parts block).Fit c.epilogue where
  announced := lengthForm_shortest h
  filled := Epilogue.length_encode _ _

/-- What a codec at either end reads from a block that this one made. -/
theorem decode_made {c' : Codec} (control : Control) (hsame : c'.epilogue = c.epilogue)
    (h : payload.length ≤ Block.longMax) :
    c'.decode (c.layout (c.make control payload)) =
      if c.own ≠ c'.peer then .error (.malformed .foreignAddress)
      else
        match payloadDefect? control payload with
        | some defect => .error (.malformed defect)
        | none => .ok (c.make control payload) := by
  have hfit : (c.parts (c.make control payload)).Fit c'.epilogue := by
    rw [hsame]
    exact parts_fit h
  have hedc : c'.epilogue.compute (c.parts (c.make control payload)).covered
      = (c.make control payload).edc := by
    rw [parts_covered, hsame]
    rfl
  have hcarried : c'.epilogue.load? (c.parts (c.make control payload)).epilogue
      = some (c.make control payload).edc := by
    rw [hsame]
    exact Epilogue.load?_encode_compute _ _
  have hcontrol : Control.ofByte? (c.parts (c.make control payload)).control = some control :=
    Control.ofByte?_toByte control
  rw [← parts_octets, decode_octets hfit hcarried, hedc, if_neg (not_not_intro rfl), judge,
    hcontrol]
  rfl

/-! ## Cutting a frame out of a stream -/

/-- The first three octets tell where the prologue ends, and the prologue tells the rest. -/
theorem stream_helpers {p : Parts} (h : p.Fit c.epilogue) :
    ∃ body, c.bodyLength
        (p.octets.take (Block.shortPrologue + extension (p.octets.getD 2 0))) = .ok body
      ∧ Block.shortPrologue + extension (p.octets.getD 2 0) + body = p.octets.length := by
  obtain ⟨node, pcb, form, payload, epilogue⟩ := p
  obtain ⟨hform, hfilled⟩ := h
  dsimp only at hform hfilled
  generalize hn : payload.length = n at hform
  cases hform with
  | @short octet hoctet =>
      have hne := (ne_longMarker_iff octet).mpr hoctet
      refine ⟨octet.toNat + c.epilogue.width, ?_, ?_⟩
      · simp only [Parts.octets, Parts.covered, List.cons_append, List.nil_append,
          List.getD_cons_succ, List.getD_cons_zero, extension, if_neg hne]
        exact if_neg hne
      · simp only [Parts.octets, Parts.covered, List.cons_append, List.nil_append,
          List.getD_cons_succ, List.getD_cons_zero, extension, if_neg hne, List.length_cons,
          List.length_append, hn, hfilled, Block.shortPrologue]
        omega
  | long high low =>
      have hbody : c.bodyLength [node, pcb, Block.longMarker, high, low]
          = .ok (Bytes.toLength high low + c.epilogue.width) := by
        simp only [bodyLength, if_pos]
      refine ⟨Bytes.toLength high low + c.epilogue.width, ?_, ?_⟩
      · simp only [Parts.octets, Parts.covered, List.cons_append, List.nil_append,
          List.getD_cons_succ, List.getD_cons_zero, extension, if_pos]
        exact hbody
      · simp only [Parts.octets, Parts.covered, List.cons_append, List.nil_append,
          List.getD_cons_succ, List.getD_cons_zero, extension, if_pos, List.length_cons,
          List.length_append, hn, hfilled, Block.shortPrologue]
        omega

/-! ## Writing over octets that are there -/

/-- The three pieces are the whole frame, and what lies behind it stays. -/
theorem encodeOver_written (hlimit : block.payload.length ≤ c.payloadLimit block.control)
    (hroom : c.frameLength block.payload.length ≤ out.length) :
    c.encodeOver block out
      = (.ok (c.frameLength block.payload.length),
          c.layout block ++ out.drop (c.frameLength block.payload.length)) := by
  have hpieces : ((out.write 0 (prologue block.address block.control block.payload.length)).write
        (prologue block.address block.control block.payload.length).length block.payload).write
        ((prologue block.address block.control block.payload.length).length + block.payload.length)
        (c.epilogue.encode block.edc) = out.write 0 (c.layout block) := by
    have hfront := Bytes.write_write
      (prologue block.address block.control block.payload.length) block.payload
      (Nat.zero_le out.length)
    have hback := Bytes.write_write
      (prologue block.address block.control block.payload.length ++ block.payload)
      (c.epilogue.encode block.edc) (Nat.zero_le out.length)
    rw [Nat.zero_add] at hfront hback
    rw [hfront, ← List.length_append, hback]
    rfl
  unfold encodeOver
  simp only [if_neg (Nat.not_lt.mpr hlimit), if_neg (Nat.not_lt.mpr hroom), hpieces]
  rw [Bytes.write_zero, length_layout]

/-- A refusal tells the sizes and touches nothing. The payload is looked at before the room. -/
theorem encodeOver_refused (c : Codec) (block : Block) (out : Bytes) :
    (c.payloadLimit block.control < block.payload.length →
      c.encodeOver block out
        = (.error (.oversized block.payload.length (c.payloadLimit block.control)), out))
    ∧ (block.payload.length ≤ c.payloadLimit block.control →
      out.length < c.frameLength block.payload.length →
        c.encodeOver block out
          = (.error (.noRoom (c.frameLength block.payload.length) out.length), out)) := by
  unfold encodeOver
  refine ⟨fun hlimit => if_pos hlimit, fun hlimit hroom => ?_⟩
  simp only [if_neg (Nat.not_lt.mpr hlimit), if_pos hroom]

/-! ## Main results -/

/-- No codec between two different addresses reads a frame of its own. -/
theorem decode_own {raw : Bytes} (haddress : c.own ≠ c.peer)
    (h : c.encode (c.make control payload) = .ok raw) :
    c.decode raw = .error (.malformed .foreignAddress) := by
  unfold encode at h
  split at h
  · exact absurd h (by simp)
  · rename_i hlimit
    obtain rfl := Except.ok.inj h
    have hlong := payloadLimit_le c control
    have hpayload : payload.length ≤ c.payloadLimit control := Nat.not_lt.mp hlimit
    rw [decode_made control rfl (Nat.le_trans hpayload hlong), if_pos haddress]

/-- **Reading undoes writing.** A block that carries what its type admits is written, as many octets
as its length calls for, and the other end reads the same block from them. The stream helpers find
the end of these octets. Written over `out` they replace a front part and nothing else; a payload
beyond the limit or too short an `out` is refused with the sizes, and `out` stays as it was. A codec
between two different addresses refuses every frame of its own. -/
theorem decode_encode (c : Codec) (control : Control) (payload : Bytes)
    (h : c.Admits control payload) :
    (∃ raw, c.encode (c.make control payload) = .ok raw
      ∧ raw.length = c.frameLength payload.length
      ∧ c.flip.decode raw = .ok (c.make control payload)
      ∧ (∃ body, c.bodyLength (raw.take (Block.shortPrologue + extension (raw.getD 2 0))) = .ok body
          ∧ Block.shortPrologue + extension (raw.getD 2 0) + body = raw.length)
      ∧ ∀ out : Bytes,
          (raw.length ≤ out.length →
            c.encodeOver (c.make control payload) out
              = (.ok raw.length, raw ++ out.drop raw.length))
          ∧ (out.length < raw.length →
            c.encodeOver (c.make control payload) out
              = (.error (.noRoom raw.length out.length), out)))
    ∧ (∀ long out : Bytes, c.payloadLimit control < long.length →
        c.encode (c.make control long)
            = .error (.oversized long.length (c.payloadLimit control))
          ∧ c.encodeOver (c.make control long) out
            = (.error (.oversized long.length (c.payloadLimit control)), out))
    ∧ (c.own ≠ c.peer → ∀ control payload raw, c.encode (c.make control payload) = .ok raw →
        c.decode raw = .error (.malformed .foreignAddress)) := by
  have hlimit : payload.length ≤ c.payloadLimit control := h.length_le
  have hlong : payload.length ≤ Block.longMax := Nat.le_trans hlimit (payloadLimit_le c control)
  have hlength : (c.layout (c.make control payload)).length = c.frameLength payload.length :=
    length_layout c (c.make control payload)
  refine ⟨⟨c.layout (c.make control payload), ?_, hlength, ?_, ?_, fun out => ⟨?_, ?_⟩⟩, ?_, ?_⟩
  · exact if_neg (Nat.not_lt.mpr hlimit)
  · have hown : c.own = c.flip.peer := rfl
    have hsame : c.flip.epilogue = c.epilogue := rfl
    rw [decode_made control hsame hlong, if_neg (not_not_intro hown), h.payloadDefect?]
  · rw [← parts_octets]
    exact stream_helpers (parts_fit hlong)
  · intro hroom
    rw [hlength] at hroom ⊢
    exact encodeOver_written hlimit hroom
  · intro hroom
    rw [hlength] at hroom ⊢
    exact (encodeOver_refused c (c.make control payload) out).2 hlimit hroom
  · intro long out hover
    exact ⟨if_pos hover, (encodeOver_refused c (c.make control long) out).1 hover⟩
  · exact fun haddress control payload raw hraw => decode_own haddress hraw

/-- One octet more than the short form of a length can hold. -/
theorem decode_encode_long :
    (host 300 .lrc).Admits (.information .one true) (List.replicate 255 0x61)
    ∧ ∃ raw, (host 300 .lrc).encode
          ((host 300 .lrc).make (.information .one true) (List.replicate 255 0x61)) = .ok raw
        ∧ raw.length = 261
        ∧ (host 300 .lrc).flip.decode raw
          = .ok ((host 300 .lrc).make (.information .one true) (List.replicate 255 0x61)) := by
  have hlimit : (host 300 .lrc).maxPayload = 300 := rfl
  have hadmits : (host 300 .lrc).Admits (.information .one true) (List.replicate 255 0x61) := by
    rw [Admits, List.length_replicate, hlimit]
    omega
  obtain ⟨⟨raw, hraw, hlength, hread, -⟩, -⟩ := decode_encode _ _ _ hadmits
  rw [List.length_replicate] at hlength
  exact ⟨hadmits, raw, hraw, hlength, hread⟩

end Codec

end SecureElement
