import Mathlib.Data.List.Basic
import SecureElement.Proofs.Traffic

/-!
# What the octets of a block give away

Facts about `Codec` on which the statements about traffic rest:

* the front of a block announces its length, and no proper part of a block is a block
  (`isWhole_append_iff`);
* whatever `decode` accepts is laid out as announced (`decode_eq_ok`);
* the second octet of a frame is its control byte, so frames of different types are
  different frames (`control_of_layout_eq`);
* a ready or supervisory block with at most two octets of payload always fits the
  space that is set aside for one (`encodeWithin_control`).
-/

namespace SecureElement.Codec

variable {c : Codec} {e : Epilogue} {octets part raw : Bytes} {block : Block}

theorem width_pos (e : Epilogue) : 0 < e.width := by
  cases e <;> simp [Epilogue.width]

/-! ## Lengths announced in front -/

/-- Three octets are enough to read the short length. -/
theorem exists_third (h : Block.shortPrologue ≤ octets.length) :
    ∃ node control third rest, octets = node :: control :: third :: rest := by
  rcases octets with _ | ⟨node, _ | ⟨control, _ | ⟨third, rest⟩⟩⟩
  · exact absurd h (by simp [Block.shortPrologue])
  · exact absurd h (by simp [Block.shortPrologue])
  · exact absurd h (by simp [Block.shortPrologue])
  · exact ⟨node, control, third, rest, rfl⟩

/-- A complete prologue tells how much follows it, and tells the reader and the observer alike. -/
theorem announced?_of_prologue
    (h : octets.length = Block.shortPrologue + extension (octets.getD 2 0)) :
    ∃ length, announced? octets = some (octets.length, length) ∧
      ∀ c : Codec, c.bodyLength octets = .ok (length + c.epilogue.width) := by
  obtain ⟨node, control, third, rest, rfl⟩ := exists_third (Nat.le.intro h.symm)
  simp only [List.getD_cons_succ, List.getD_cons_zero, extension, Block.shortPrologue,
    List.length_cons] at h
  by_cases hmarker : third = Block.longMarker
  · -- the marker announces two more octets, so there are exactly two
    rw [if_pos hmarker] at h
    obtain ⟨high, low, rfl⟩ := List.length_eq_two.mp (show rest.length = 2 by omega)
    refine ⟨Bytes.toLength high low, ?_, fun c => ?_⟩
    · simp only [announced?, if_pos hmarker]
      rfl
    · simp only [bodyLength, if_pos hmarker]
  · rw [if_neg hmarker] at h
    obtain rfl := List.length_eq_zero_iff.mp (show rest.length = 0 by omega)
    refine ⟨third.toNat, ?_, fun c => ?_⟩
    · simp only [announced?, if_neg hmarker]
      rfl
    · simp only [bodyLength, if_neg hmarker]

/-- Octets that do not reach past the prologue are no block. -/
theorem not_isWhole_of_length_le
    (h : octets.length ≤ Block.shortPrologue + extension (octets.getD 2 0)) :
    ¬ IsWhole e octets := by
  intro hwhole
  have hwidth := width_pos e
  unfold IsWhole announcedLength? at hwhole
  rcases octets with _ | ⟨node, _ | ⟨control, _ | ⟨third, rest⟩⟩⟩
  · exact absurd hwhole (by simp [announced?])
  · exact absurd hwhole (by simp [announced?])
  · exact absurd hwhole (by simp [announced?])
  · simp only [List.getD_cons_succ, List.getD_cons_zero, extension, Block.shortPrologue,
      List.length_cons] at h
    by_cases hmarker : third = Block.longMarker
    · rw [if_pos hmarker] at h
      rcases rest with _ | ⟨high, _ | ⟨low, rest⟩⟩
      · exact absurd hwhole (by simp [announced?, hmarker])
      · exact absurd hwhole (by simp [announced?, hmarker])
      · simp only [announced?, if_pos hmarker, Option.map_some, Option.some.injEq,
          List.length_cons, Block.longPrologue] at hwhole h
        omega
    · rw [if_neg hmarker] at h
      simp only [announced?, if_neg hmarker, Option.map_some, Option.some.injEq,
        List.length_cons, Block.shortPrologue] at hwhole
      omega

/-- Behind a complete prologue a block is whole as soon as what was announced is there. -/
theorem isWhole_append_iff {length : Nat} (h : announced? octets = some (octets.length, length)) :
    IsWhole e (octets ++ part) ↔ part.length = length + e.width := by
  unfold IsWhole announcedLength?
  rw [announced?_append h, List.length_append]
  simp only [Option.map_some, Option.some.injEq]
  omega

/-! ## Decoding -/

/-- Whatever is accepted is laid out as its front announces. -/
theorem decode_eq_ok (h : c.decode raw = .ok block) :
    ∃ front length, announced? raw = some (front, length) ∧
      raw.length = front + length + c.epilogue.width ∧
      Control.ofByte? (raw.getD 1 0) = some block.control ∧
      block.payload = (raw.take (front + length)).drop front := by
  unfold decode at h
  cases hannounced : announced? raw with
  | none => rw [hannounced] at h; exact absurd h (by simp)
  | some lengths =>
      obtain ⟨front, length⟩ := lengths
      rw [hannounced] at h
      dsimp only at h
      split at h
      · exact absurd h (by simp [bind, Except.bind])
      · split at h
        · exact absurd h (by simp [bind, Except.bind])
        · rename_i hlength
          split at h
          · exact absurd h (by simp [bind, Except.bind])
          · cases hcontrol : Control.ofByte? (raw.getD 1 0) with
            | none => rw [hcontrol] at h; exact absurd h (by simp)
            | some control =>
                rw [hcontrol] at h
                simp only [bind, Except.bind] at h
                split at h
                · exact absurd h (by simp)
                · split at h
                  · exact absurd h (by simp)
                  · injection h with h
                    subst h
                    exact ⟨front, length, rfl, by omega, rfl, rfl⟩

/-! ## Encoding -/

@[simp] theorem length_prologue (address : UInt8) (control : Control) (n : Nat) :
    (prologue address control n).length = Block.prologueLength n := by
  unfold prologue Block.prologueLength
  split <;> rfl

theorem length_layout (c : Codec) (block : Block) :
    (c.layout block).length = c.frameLength block.payload.length := by
  unfold layout frameLength
  rw [List.length_append, List.length_append, length_prologue, Epilogue.length_encode]

/-- A longer payload takes no fewer octets. -/
theorem frameLength_le {c c' : Codec} {m n : Nat} (hepilogue : c.epilogue = c'.epilogue)
    (h : m ≤ n) : c.frameLength m ≤ c'.frameLength n := by
  unfold frameLength Block.prologueLength Block.shortPrologue Block.longPrologue
  rw [hepilogue]
  split <;> split <;> omega

/-- The second octet of a frame is the control byte. -/
theorem layout_control (c : Codec) (block : Block) :
    (c.layout block).getD 1 0 = block.control.toByte := by
  unfold layout prologue
  split <;> rfl

/-- Equal frames are frames of blocks of one type. -/
theorem control_of_layout_eq {c' : Codec} {block' : Block}
    (h : c.layout block = c'.layout block') : block.control = block'.control := by
  have hbyte := congrArg (fun frame : Bytes => frame.getD 1 0) h
  simp only [layout_control] at hbyte
  have hread := congrArg Control.ofByte? hbyte
  rw [Control.ofByte?_toByte, Control.ofByte?_toByte] at hread
  exact Option.some.inj hread

theorem encodeWithin_eq_ok {room : Nat} {frame : Bytes}
    (h : c.encodeWithin block room = .ok frame) :
    frame = c.layout block ∧ frame.length ≤ room := by
  unfold encodeWithin encode at h
  split at h
  · exact absurd h (by simp [bind, Except.bind])
  · simp only [bind, Except.bind] at h
    split at h
    · exact absurd h (by simp)
    · rename_i hroom
      injection h with h
      subst h
      rw [length_layout]
      exact ⟨rfl, by omega⟩

/-- A ready or supervisory block with at most two octets of payload fits into seven. -/
theorem encodeWithin_control {room : Nat} (hpayload : block.payload.length ≤ 2)
    (hcontrol : ∀ seq more, block.control ≠ .information seq more) (hroom : 7 ≤ room) :
    c.encodeWithin block room = .ok (c.layout block) := by
  have hlimit : c.payloadLimit block.control = Block.longMax := by
    unfold payloadLimit
    split
    · rename_i seq more hc
      exact absurd hc (hcontrol seq more)
    · rfl
  have hwidth : c.epilogue.width ≤ 2 := by
    cases c.epilogue <;> simp [Epilogue.width]
  have hframe : ¬ room < c.frameLength block.payload.length := by
    unfold frameLength Block.prologueLength Block.shortMax Block.shortPrologue
    rw [if_pos (by omega)]
    omega
  unfold encodeWithin encode
  rw [hlimit, if_neg (by unfold Block.longMax; omega)]
  simp only [bind, Except.bind]
  rw [if_neg hframe]

/-! ## Grants -/

/-- Whether a frame is laid out as a grant of more time. -/
def isGrant (frame : Bytes) : Bool :=
  Control.ofByte? (frame.getD 1 0) = some (.response .wtx)

theorem isGrant_layout (c : Codec) (block : Block) :
    isGrant (c.layout block) = decide (block.control = .response .wtx) := by
  unfold isGrant
  rw [layout_control, Control.ofByte?_toByte]
  simp only [Option.some.injEq]

theorem isGrant_nil : isGrant [] = false := rfl

end SecureElement.Codec
