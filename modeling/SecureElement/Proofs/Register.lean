import Mathlib.Data.Nat.Bitwise
import Mathlib.Logic.Function.Iterate
import SecureElement.Proofs.Framing

/-!
# The register of a check value

Both kinds of check value are remainders. A register takes one bit after the other, the
least significant of each octet first; what leaves it comes back through its taps. For
the CRC the taps are the reflected polynomial, and the exclusive or of all octets is the
same with the top bit of an octet as its only tap, since a register that is turned eight
times is then what it was.

* **Turning is linear and loses nothing** (`turn_xor`, `eq_zero_of_turns`).
* A row of bits no longer than the register may be added **all at once** before it is
  turned (`foldl_feedBit`). From this the table of the CRC gets its meaning
  (`feedCrc_eq`), and both kinds are fed bit by bit (`feed_eq_bits`).
* Octets that end in their own check value leave **the same residue** behind, whatever
  they are (`feed_checked`).
-/

namespace SecureElement

namespace Bytes

/-- The bits of an octet, least significant first. -/
def octetBits (octet : UInt8) : List Bool := (List.range 8).map octet.toNat.testBit

/-- The bits of a string of octets, in the order in which they are checked. -/
def bits (bytes : Bytes) : List Bool := bytes.flatMap octetBits

@[simp] theorem length_octetBits (octet : UInt8) : (octetBits octet).length = 8 := rfl

theorem bits_cons (octet : UInt8) (bytes : Bytes) :
    bits (octet :: bytes) = octetBits octet ++ bits bytes := rfl

theorem length_bits (bytes : Bytes) : (bits bytes).length = 8 * bytes.length := by
  induction bytes with
  | nil => rfl
  | cons octet bytes ih =>
      rw [bits_cons, List.length_append, ih, length_octetBits, List.length_cons]
      omega

end Bytes

namespace Epilogue

variable {e : Epilogue} {register value : UInt16}

/-- What is added to a register when a set bit leaves it. -/
def taps : Epilogue → UInt16
  | crc16 => 0x8408
  | lrc => 0x80

/-- The register after its lowest bit has left it. -/
def turn (e : Epilogue) (register : UInt16) : UInt16 :=
  if register &&& 1 = 1 then (register >>> 1) ^^^ e.taps else register >>> 1

def ofBit (bit : Bool) : UInt16 := if bit then 1 else 0

/-- The register after one more bit. -/
def feedBit (e : Epilogue) (register : UInt16) (bit : Bool) : UInt16 :=
  e.turn (register ^^^ ofBit bit)

/-- The number with the given bits, least significant first. -/
def word : List Bool → UInt16
  | [] => 0
  | bit :: bits => ofBit bit ^^^ (word bits <<< 1)

/-- Whether a register is no wider than the check value. -/
def Spans (e : Epilogue) (register : UInt16) : Prop := register.toNat < 2 ^ (8 * e.width)

/-! ## Halves and doubles -/

theorem lowBit_iff (register : UInt16) : register &&& 1 = 1 ↔ register.toNat % 2 = 1 := by
  rw [← UInt16.toNat_inj, UInt16.toNat_and]
  show register.toNat &&& 1 = 1 ↔ _
  rw [Nat.and_one_is_mod]

theorem toNat_half (register : UInt16) : (register >>> 1).toNat = register.toNat / 2 := by
  rw [UInt16.toNat_shiftRight, show UInt16.toNat 1 % 16 = 1 from rfl, Nat.shiftRight_eq_div_pow]

theorem toNat_double (value : UInt16) (h : value.toNat < 2 ^ 15) :
    (value <<< 1).toNat = 2 * value.toNat := by
  rw [UInt16.toNat_shiftLeft, show UInt16.toNat 1 % 16 = 1 from rfl, Nat.shiftLeft_eq]
  omega

theorem toNat_ofBit_le (bit : Bool) : (ofBit bit).toNat ≤ 1 := by
  cases bit <;> decide

theorem turn_eq (e : Epilogue) (register : UInt16) :
    e.turn register
      = if register.toNat % 2 = 1 then (register >>> 1) ^^^ e.taps else register >>> 1 := by
  unfold turn
  simp only [lowBit_iff]

/-! ## Turning -/

theorem xor_cancel (a b c : UInt16) : (a ^^^ c) ^^^ (b ^^^ c) = a ^^^ b := by
  rw [UInt16.xor_comm b c, UInt16.xor_assoc, ← UInt16.xor_assoc c c b, UInt16.xor_self,
    UInt16.zero_xor]

theorem turn_xor (a b : UInt16) : e.turn (a ^^^ b) = e.turn a ^^^ e.turn b := by
  simp only [turn_eq, UInt16.toNat_xor, Nat.xor_mod_two_eq_one, UInt16.shiftRight_xor]
  -- the taps are added where one of the two low bits is set, and twice where both are
  by_cases ha : a.toNat % 2 = 1
  · by_cases hb : b.toNat % 2 = 1
    · simp only [ha, hb, not_true_eq_false, if_true, if_false, xor_cancel]
    · simp only [ha, hb, iff_false, not_true_eq_false, not_false_eq_true, if_true, if_false]
      rw [UInt16.xor_assoc, UInt16.xor_comm (b >>> 1), ← UInt16.xor_assoc]
  · by_cases hb : b.toNat % 2 = 1
    · simp only [ha, hb, iff_true, not_false_eq_true, if_true, if_false]
      rw [UInt16.xor_assoc]
    · simp only [ha, hb, not_true_eq_false, if_false]

theorem iterate_turn_xor (n : Nat) (a b : UInt16) :
    e.turn^[n] (a ^^^ b) = e.turn^[n] a ^^^ e.turn^[n] b := by
  induction n generalizing a b with
  | zero => rfl
  | succ n ih =>
      rw [Function.iterate_succ_apply, turn_xor, ih]
      rfl

/-- A register whose lowest bit is clear only moves down. -/
theorem turn_double (h : value.toNat < 2 ^ 15) : e.turn (value <<< 1) = value := by
  have hdouble := toNat_double value h
  rw [turn_eq, if_neg (by omega), ← UInt16.toNat_inj, toNat_half]
  omega

theorem turn_spans (h : e.Spans register) : e.Spans (e.turn register) := by
  unfold Spans at h ⊢
  have hhalf := toNat_half register
  unfold turn
  split
  · rw [UInt16.toNat_xor]
    refine Nat.xor_lt_two_pow (by omega) ?_
    cases e <;> decide
  · omega

/-- The taps include the top bit, so what comes back is never taken for what was there. -/
theorem eq_zero_of_turn (h : e.Spans register) (hzero : e.turn register = 0) : register = 0 := by
  unfold Spans at h
  have hhalf := toNat_half register
  rw [turn_eq] at hzero
  split at hzero
  · have htop : 2 ^ (8 * e.width) ≤ 2 * e.taps.toNat := by cases e <;> decide
    rw [UInt16.xor_eq_zero_iff, ← UInt16.toNat_inj] at hzero
    omega
  · rw [← UInt16.toNat_inj, UInt16.toNat_zero] at hzero ⊢
    omega

theorem eq_zero_of_turns (h : e.Spans register) (n : Nat) (hzero : e.turn^[n] register = 0) :
    register = 0 := by
  induction n generalizing register with
  | zero => exact hzero
  | succ n ih =>
      rw [Function.iterate_succ_apply] at hzero
      exact eq_zero_of_turn h (ih (turn_spans h) hzero)

/-! ## Feeding bits -/

theorem feedBit_spans (h : e.Spans register) (bit : Bool) : e.Spans (e.feedBit register bit) := by
  refine turn_spans ?_
  unfold Spans at h ⊢
  rw [UInt16.toNat_xor]
  refine Nat.xor_lt_two_pow h ?_
  cases e <;> cases bit <;> decide

theorem foldl_feedBit_spans (bits : List Bool) (h : e.Spans register) :
    e.Spans (bits.foldl e.feedBit register) := by
  induction bits generalizing register with
  | nil => exact h
  | cons bit bits ih => exact ih (feedBit_spans h bit)

/-- The sum of two rows of bits is fed as the sum of both. -/
theorem foldl_feedBit_xor {front back : List Bool} (h : front.length = back.length)
    (a b : UInt16) :
    (List.zipWith xor front back).foldl e.feedBit (a ^^^ b)
      = front.foldl e.feedBit a ^^^ back.foldl e.feedBit b := by
  induction front generalizing back a b with
  | nil =>
      obtain rfl := List.length_eq_zero_iff.mp h.symm
      rfl
  | cons bit front ih =>
      cases back with
      | nil => cases h
      | cons bit' back =>
          have hbit : ofBit (bit ^^ bit') = ofBit bit ^^^ ofBit bit' := by
            cases bit <;> cases bit' <;> rfl
          have hsum : e.feedBit (a ^^^ b) (bit ^^ bit') = e.feedBit a bit ^^^ e.feedBit b bit' := by
            unfold feedBit
            rw [hbit, ← turn_xor, UInt16.xor_assoc a b, ← UInt16.xor_assoc b, UInt16.xor_comm b,
              UInt16.xor_assoc _ b, ← UInt16.xor_assoc a]
          rw [List.zipWith_cons_cons, List.foldl_cons, hsum, ih (Nat.succ.inj h)]
          rfl

theorem word_lt (bits : List Bool) (h : bits.length ≤ 16) :
    (word bits).toNat < 2 ^ bits.length := by
  induction bits with
  | nil => decide
  | cons bit bits ih =>
      rw [List.length_cons] at h ⊢
      have hlt := ih (by omega)
      have hpow : 2 ^ bits.length ≤ 2 ^ 15 := Nat.pow_le_pow_right (by omega) (by omega)
      have hone : 1 ≤ 2 ^ bits.length := Nat.one_le_two_pow
      have hbit := toNat_ofBit_le bit
      have hdouble := toNat_double (word bits) (by omega)
      rw [word, UInt16.toNat_xor]
      refine Nat.xor_lt_two_pow ?_ ?_
      · rw [Nat.pow_succ]
        omega
      · rw [hdouble, Nat.pow_succ]
        omega

/-- Bits that the register has room for may be added all at once. -/
theorem foldl_feedBit {bits : List Bool} (h : bits.length ≤ 16) (register : UInt16) :
    bits.foldl e.feedBit register = e.turn^[bits.length] (register ^^^ word bits) := by
  induction bits generalizing register with
  | nil => exact UInt16.xor_zero.symm
  | cons bit bits ih =>
      rw [List.length_cons] at h
      have hlt := word_lt bits (by omega)
      have hpow : 2 ^ bits.length ≤ 2 ^ 15 := Nat.pow_le_pow_right (by omega) (by omega)
      have hsum : e.turn (register ^^^ word (bit :: bits))
          = e.feedBit register bit ^^^ word bits := by
        rw [word, ← UInt16.xor_assoc, turn_xor, turn_double (by omega)]
        rfl
      rw [List.foldl_cons, ih (by omega), List.length_cons, Function.iterate_succ_apply, hsum]

/-- The bits can be told from their number. -/
theorem eq_false_of_word {bits : List Bool} (h : bits.length ≤ 16) (hzero : word bits = 0) :
    ∀ bit ∈ bits, bit = false := by
  induction bits with
  | nil => exact List.forall_mem_nil _
  | cons bit bits ih =>
      rw [List.length_cons] at h
      have hlt := word_lt bits (by omega)
      have hpow : 2 ^ bits.length ≤ 2 ^ 15 := Nat.pow_le_pow_right (by omega) (by omega)
      have hdouble := toNat_double (word bits) (by omega)
      have hbit := toNat_ofBit_le bit
      rw [word, UInt16.xor_eq_zero_iff, ← UInt16.toNat_inj, hdouble] at hzero
      -- the first bit alone is odd
      have hrest : word bits = 0 := by
        rw [← UInt16.toNat_inj, UInt16.toNat_zero]
        omega
      refine List.forall_mem_cons.mpr ⟨?_, ih (by omega) hrest⟩
      cases bit with
      | false => rfl
      | true =>
          have hone : (ofBit true).toNat = 1 := rfl
          omega

/-! ## Feeding octets -/

theorem word_octetBits (octet : UInt8) : word (Bytes.octetBits octet) = octet.toUInt16 := by
  have hall : ∀ n : Fin 256, word (Bytes.octetBits (UInt8.ofNat n))
      = (UInt8.ofNat n).toUInt16 := by
    decide +kernel
  have hthis := hall ⟨octet.toNat, octet.toNat_lt⟩
  rwa [show UInt8.ofNat octet.toNat = octet from UInt8.ofNat_toNat] at hthis

/-- A number is the sum of its two octets. -/
theorem octets_xor (value : UInt16) :
    value.toUInt8.toUInt16 ^^^ ((value >>> 8).toUInt8.toUInt16 <<< 8) = value := by
  have hvalue := value.toNat_lt
  have hhigh : ∀ i, 16 ≤ i → value.toNat.testBit i = false := fun i hi =>
    Nat.testBit_lt_two_pow (Nat.lt_of_lt_of_le hvalue (Nat.pow_le_pow_right (by omega) hi))
  rw [← UInt16.toNat_inj, UInt16.toNat_xor, UInt16.toNat_shiftLeft, UInt8.toNat_toUInt16,
    UInt8.toNat_toUInt16, toNat_low, toNat_high]
  show value.toNat % 2 ^ 8 ^^^ (value.toNat / 2 ^ 8) <<< 8 % 2 ^ 16 = _
  refine Nat.eq_of_testBit_eq fun i => ?_
  rw [Nat.testBit_xor, Nat.testBit_mod_two_pow, Nat.testBit_mod_two_pow, Nat.testBit_shiftLeft,
    Nat.testBit_div_two_pow]
  by_cases hlow : i < 8
  · simp [hlow, show ¬ 8 ≤ i by omega]
  · by_cases hi : i < 16
    · simp [hlow, hi, show 8 ≤ i by omega]
    · simp [hlow, hi, hhigh i (by omega)]

theorem lowOctet_eq (value : UInt16) : value &&& 0xFF = value.toUInt8.toUInt16 := by
  rw [← UInt16.toNat_inj, UInt16.toNat_and, UInt8.toNat_toUInt16, toNat_low]
  exact Nat.and_two_pow_sub_one_eq_mod value.toNat 8

/-- The upper octet of a register has moved down after eight turns. -/
theorem turns_highOctet (octet : UInt8) :
    crc16.turn^[8] (octet.toUInt16 <<< 8) = octet.toUInt16 := by
  have hall : ∀ n : Fin 256, crc16.turn^[8] ((UInt8.ofNat n).toUInt16 <<< 8)
      = (UInt8.ofNat n).toUInt16 := by
    decide +kernel
  have hthis := hall ⟨octet.toNat, octet.toNat_lt⟩
  rwa [show UInt8.ofNat octet.toNat = octet from UInt8.ofNat_toNat] at hthis

/-- The table holds what eight turns make of the low octet. -/
theorem table_lowOctet (register : UInt16) :
    table.getD (register &&& 0xFF).toNat 0 = crc16.turn^[8] register.toUInt8.toUInt16 := by
  have hsize : (register &&& 0xFF).toNat < 256 := by
    rw [lowOctet_eq, UInt8.toNat_toUInt16]
    exact register.toUInt8.toNat_lt
  unfold table
  rw [Array.getD_eq_getD_getElem?, Array.getElem?_map, Array.getElem?_range, if_pos hsize,
    ← lowOctet_eq]
  show shiftOctet (UInt16.ofNat _) = _
  rw [UInt16.ofNat_toNat]
  rfl

/-- Looking an octet up in the table is eight turns of the register with the octet added. -/
theorem feedCrc_eq (register : UInt16) (octet : UInt8) :
    feedCrc register octet = crc16.turn^[8] (register ^^^ octet.toUInt16) := by
  have hhigh : ((register ^^^ octet.toUInt16) >>> 8).toUInt8.toUInt16 = register >>> 8 := by
    have hregister := register.toNat_lt
    have hoctet : octet.toUInt16 >>> 8 = 0 := by
      have hlt := octet.toNat_lt
      rw [← UInt16.toNat_inj, UInt16.toNat_shiftRight, UInt8.toNat_toUInt16,
        show UInt16.toNat 8 % 16 = 8 from rfl, Nat.shiftRight_eq_div_pow, UInt16.toNat_zero]
      omega
    rw [UInt16.shiftRight_xor, hoctet, UInt16.xor_zero, ← UInt16.toNat_inj, UInt8.toNat_toUInt16,
      toNat_high, UInt16.toNat_shiftRight, show UInt16.toNat 8 % 16 = 8 from rfl,
      Nat.shiftRight_eq_div_pow]
  calc feedCrc register octet
      = (register >>> 8) ^^^ crc16.turn^[8] (register ^^^ octet.toUInt16).toUInt8.toUInt16 :=
        congrArg (register >>> 8 ^^^ ·) (table_lowOctet _)
    _ = crc16.turn^[8] ((register ^^^ octet.toUInt16).toUInt8.toUInt16
          ^^^ (((register ^^^ octet.toUInt16) >>> 8).toUInt8.toUInt16 <<< 8)) := by
        rw [iterate_turn_xor, turns_highOctet, hhigh, UInt16.xor_comm]
    _ = crc16.turn^[8] (register ^^^ octet.toUInt16) := by rw [octets_xor]

/-- A register of one octet is back where it was after eight turns. -/
theorem turns_lrc (h : lrc.Spans register) : lrc.turn^[8] register = register := by
  have hall : ∀ n : Fin 256, lrc.turn^[8] (UInt16.ofNat n) = UInt16.ofNat n := by
    decide +kernel
  have hthis := hall ⟨register.toNat, h⟩
  rwa [show UInt16.ofNat register.toNat = register from UInt16.ofNat_toNat] at hthis

theorem feed_cons (e : Epilogue) (register : UInt16) (octet : UInt8) (bytes : Bytes) :
    e.feed register (octet :: bytes) = e.feed (e.feed register [octet]) bytes :=
  feed_append e register [octet] bytes

theorem feed_octet (h : e.Spans register) (octet : UInt8) :
    e.feed register [octet] = (Bytes.octetBits octet).foldl e.feedBit register := by
  rw [foldl_feedBit (by rw [Bytes.length_octetBits]; omega), word_octetBits,
    Bytes.length_octetBits]
  cases e with
  | crc16 => exact feedCrc_eq register octet
  | lrc =>
      have hsum : lrc.Spans (register ^^^ octet.toUInt16) := by
        unfold Spans at h ⊢
        rw [UInt16.toNat_xor, UInt8.toNat_toUInt16]
        exact Nat.xor_lt_two_pow h octet.toNat_lt
      exact (turns_lrc hsum).symm

/-- **Octets are fed bit by bit.** -/
theorem feed_eq_bits (h : e.Spans register) (bytes : Bytes) :
    e.feed register bytes = bytes.bits.foldl e.feedBit register := by
  induction bytes generalizing register with
  | nil => cases e <;> rfl
  | cons octet bytes ih =>
      rw [feed_cons, feed_octet h, ih (foldl_feedBit_spans _ h), Bytes.bits_cons,
        List.foldl_append]

/-! ## The residue -/

theorem start_spans (e : Epilogue) : e.Spans e.start := by
  cases e with
  | crc16 => exact (by decide : UInt16.toNat 0xFFFF < 2 ^ 16)
  | lrc => exact (by decide : UInt16.toNat 0 < 2 ^ 8)

theorem feed_spans (e : Epilogue) (bytes : Bytes) : e.Spans (e.feed e.start bytes) := by
  rw [feed_eq_bits (start_spans e)]
  exact foldl_feedBit_spans _ (start_spans e)

theorem finish_eq (e : Epilogue) (register : UInt16) :
    e.finish register = register ^^^ e.finish 0 := by
  cases e with
  | crc16 => exact congrArg (register ^^^ ·) UInt16.zero_xor.symm
  | lrc => exact UInt16.xor_zero.symm

/-- The octets of a check value are fed as the check value itself, whichever comes first. -/
theorem feed_encode (hregister : e.Spans register) (hvalue : e.Spans value) :
    e.feed register (e.encode value) = e.turn^[8 * e.width] (register ^^^ value) := by
  cases e with
  | crc16 =>
      have hlow : (register ^^^ value.toUInt8.toUInt16)
          ^^^ ((value >>> 8).toUInt8.toUInt16 <<< 8) = register ^^^ value := by
        rw [UInt16.xor_assoc, octets_xor]
      calc feedCrc (feedCrc register value.toUInt8) (value >>> 8).toUInt8
          = crc16.turn^[8] (crc16.turn^[8] (register ^^^ value.toUInt8.toUInt16)
              ^^^ (value >>> 8).toUInt8.toUInt16) := by rw [feedCrc_eq, feedCrc_eq]
        _ = crc16.turn^[8] (crc16.turn^[8] (register ^^^ value)) := by
            rw [← turns_highOctet (value >>> 8).toUInt8, ← iterate_turn_xor, hlow]
  | lrc =>
      have hsmall : value.toUInt8.toUInt16 = value := by
        unfold Spans at hvalue
        rw [← UInt16.toNat_inj, UInt8.toNat_toUInt16, toNat_low]
        exact Nat.mod_eq_of_lt hvalue
      have hsum : lrc.Spans (register ^^^ value) := by
        unfold Spans at hregister hvalue ⊢
        rw [UInt16.toNat_xor]
        exact Nat.xor_lt_two_pow hregister hvalue
      calc register ^^^ value.toUInt8.toUInt16
          = register ^^^ value := by rw [hsmall]
        _ = lrc.turn^[8] (register ^^^ value) := (turns_lrc hsum).symm

/-- What is left in the register behind octets that end in their own check value. -/
def residue (e : Epilogue) : UInt16 := e.turn^[8 * e.width] (e.finish 0)

/-- No check value is wider than the octets that it is written in. -/
theorem compute_spans (e : Epilogue) (bytes : Bytes) : e.Spans (e.compute bytes) := by
  unfold compute
  rw [finish_eq]
  unfold Spans
  rw [UInt16.toNat_xor]
  refine Nat.xor_lt_two_pow (feed_spans e bytes) ?_
  cases e <;> decide

/-- **The residue does not depend on what was checked.** -/
theorem feed_checked (e : Epilogue) (bytes : Bytes) :
    e.feed e.start (bytes ++ e.encode (e.compute bytes)) = e.residue := by
  have hcancel : e.feed e.start bytes ^^^ e.compute bytes = e.finish 0 := by
    unfold compute
    rw [finish_eq, ← UInt16.xor_assoc, UInt16.xor_self, UInt16.zero_xor]
  rw [feed_append, feed_encode (feed_spans e bytes) (compute_spans e bytes), hcancel]
  rfl

end Epilogue

end SecureElement
