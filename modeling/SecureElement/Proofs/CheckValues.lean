import SecureElement.Proofs.Register

/-!
# Check values by their definition

Neither kind of check value is defined by a table, or by pieces. CRC-16/X.25 is a division
that takes the bits of a message one by one, and an LRC is the exclusive or of all octets.
Both are written down here as such, without the register of the epilogue:

* `serialCrc` is the division, a bit that leaves the register against a bit of the message;
* `parity` is the exclusive or.

`checks_by_definition` says that the register arrives at them, however a message is cut
into pieces, and that a message behind which its check value stands leaves what only the
kind of the epilogue decides (`remainder`).
-/

namespace SecureElement

namespace Epilogue

/-- One step of the division: the lowest bit leaves the register, and the polynomial is taken off
if that bit is not the bit of the message. -/
def divideBit (register : UInt16) (bit : Bool) : UInt16 :=
  if register.toNat.testBit 0 ≠ bit then (register >>> 1) ^^^ 0x8408 else register >>> 1

/-- The CRC-16/X.25 of a message, bit by bit. -/
def serialCrc (message : Bytes) : UInt16 := message.bits.foldl divideBit 0xFFFF ^^^ 0xFFFF

/-- The exclusive or of all octets of a message. -/
def parity (message : Bytes) : UInt8 := message.foldl (· ^^^ ·) 0

/-- What the check value of a message is by definition. -/
def definition : Epilogue → Bytes → UInt16
  | crc16, message => serialCrc message
  | lrc, message => (parity message).toUInt16

/-- What a message with its own check value behind it comes to. -/
def remainder : Epilogue → UInt16
  | crc16 => 0x0F47
  | lrc => 0

/-! ## The register and the division -/

/-- It is the same to add a bit to the register before it is turned, or to compare it with the bit
that leaves. -/
theorem divideBit_eq (register : UInt16) (bit : Bool) :
    divideBit register bit = crc16.feedBit register bit := by
  have hhalf : ofBit bit >>> 1 = 0 := by cases bit <;> decide
  have hlow : (register ^^^ ofBit bit).toNat % 2 = 1 ↔ register.toNat.testBit 0 ≠ bit := by
    rw [UInt16.toNat_xor, Nat.xor_mod_two_eq_one, Nat.testBit_zero]
    have hbit : (ofBit bit).toNat % 2 = 1 ↔ bit = true := by cases bit <;> decide
    rw [hbit]
    cases bit <;> simp
  unfold feedBit divideBit
  rw [turn_eq, UInt16.shiftRight_xor, hhalf, UInt16.xor_zero]
  by_cases hdiffers : register.toNat.testBit 0 ≠ bit
  · rw [if_pos hdiffers, if_pos (hlow.mpr hdiffers)]
    rfl
  · rw [if_neg hdiffers, if_neg (hlow.not.mpr hdiffers)]

theorem compute_crc16 (message : Bytes) : crc16.compute message = serialCrc message := by
  have hstep : divideBit = crc16.feedBit := funext fun register => funext (divideBit_eq register)
  unfold serialCrc compute
  rw [hstep, feed_eq_bits (start_spans crc16)]
  rfl

/-- What is in the register beforehand is added to what comes. -/
theorem feed_lrc (register : UInt8) (message : Bytes) :
    lrc.feed register.toUInt16 message = (message.foldl (· ^^^ ·) register).toUInt16 := by
  induction message generalizing register with
  | nil => rfl
  | cons octet message ih =>
      rw [feed_cons, List.foldl_cons, ← ih, UInt8.toUInt16_xor]
      rfl

theorem compute_lrc (message : Bytes) : lrc.compute message = (parity message).toUInt16 :=
  feed_lrc 0 message

/-- The register arrives at the check value. -/
theorem compute_eq_definition (e : Epilogue) (message : Bytes) :
    e.compute message = e.definition message := by
  cases e with
  | crc16 => exact compute_crc16 message
  | lrc => exact compute_lrc message

/-! ## Pieces -/

theorem foldl_feed (e : Epilogue) (register : UInt16) (pieces : List Bytes) :
    pieces.foldl e.feed register = e.feed register pieces.flatten := by
  induction pieces generalizing register with
  | nil => cases e <;> rfl
  | cons piece pieces ih => rw [List.foldl_cons, ih, List.flatten_cons, feed_append]

/-- Cells of the right number are written over with the octets of the check value. -/
theorem store?_eq_some {e : Epilogue} {value : UInt16} {cells : Bytes}
    (h : cells.length = e.width) :
    e.store? value cells = some (e.encode value) := by
  cases e with
  | crc16 =>
      obtain ⟨low, high, rfl⟩ := List.length_eq_two.mp h
      rfl
  | lrc =>
      obtain ⟨cell, rfl⟩ := List.length_eq_one_iff.mp h
      rfl

theorem finish_residue (e : Epilogue) : e.finish e.residue = e.remainder := by
  cases e <;> decide +kernel

/--
**Check values are what they are defined to be**: whatever pieces a message comes in, the
register ends with the division of all its bits, or with the exclusive or of all its
octets, and neither is wider than the epilogue. Once a check value is written into its
cells and these are checked behind the message, the register holds the same for every
message, and comes to `remainder`.
-/
theorem checks_by_definition (e : Epilogue) :
    (∀ pieces : List Bytes,
      e.finish (pieces.foldl e.feed e.start) = e.definition pieces.flatten ∧
        (e.finish (pieces.foldl e.feed e.start)).toNat < 256 ^ e.width) ∧
    ∀ message cells : Bytes, cells.length = e.width →
      ∃ written, e.store? (e.compute message) cells = some written ∧
        e.feed e.start (message ++ written) = e.residue ∧
        e.compute (message ++ written) = e.remainder := by
  refine ⟨fun pieces => ?_, fun message cells hcells => ?_⟩
  · rw [foldl_feed]
    refine ⟨compute_eq_definition e pieces.flatten, ?_⟩
    have hwide : 256 ^ e.width = 2 ^ (8 * e.width) := by rw [Nat.pow_mul]
    rw [hwide]
    exact compute_spans e pieces.flatten
  · have hresidue := feed_checked e message
    refine ⟨_, store?_eq_some hcells, hresidue, ?_⟩
    unfold compute at hresidue ⊢
    rw [hresidue]
    exact finish_residue e

/-- The message that the check value of CRC-16/X.25 is known for: the digits from one to nine. -/
def digits : Bytes := [0x31, 0x32, 0x33, 0x34, 0x35, 0x36, 0x37, 0x38, 0x39]

/-- Behind it stand `6E` and `90`, and the whole comes to what every message does. -/
theorem checks_by_definition_digits :
    serialCrc digits = 0x906E ∧ ([0xEE, 0xEE] : Bytes).length = crc16.width ∧
      ∃ written, crc16.store? (crc16.compute digits) [0xEE, 0xEE] = some written ∧
        crc16.compute (digits ++ written) = 0x0F47 := by
  have hcells : ([0xEE, 0xEE] : Bytes).length = crc16.width := rfl
  obtain ⟨written, hstored, -, hremainder⟩ :=
    (checks_by_definition crc16).2 digits [0xEE, 0xEE] hcells
  exact ⟨by decide +kernel, hcells, written, hstored, hremainder⟩

end Epilogue

end SecureElement
