import SecureElement.Proofs.Grammar
import SecureElement.Proofs.Register

/-!
# Bursts

A disturbance of the line changes bits that lie close to one another. If they lie within
as many bits as the check value has, the block is not accepted any more, wherever they
are: in the length, which is what tells the reader where to look for the rest, or across
the border between payload and epilogue.

The length does not matter because the residue does not depend on it: every string that
is accepted leaves the same residue in the register, however it is cut into parts
(`residue_of_decode`). The difference of two such strings then leaves nothing there, and
a difference that is no longer than the register and leaves nothing is none
(`eq_of_burst`).
-/

namespace SecureElement

/-- Two strings of octets differ at most within `n` bits in a row. -/
def IsBurst (n : Nat) (front back : Bytes) : Prop :=
  ∃ start, ∀ i, front.bits[i]? ≠ back.bits[i]? → start ≤ i ∧ i < start + n

namespace Bytes

theorem octetBits_inj {a b : UInt8} (h : octetBits a = octetBits b) : a = b := by
  have hword := congrArg Epilogue.word h
  rw [Epilogue.word_octetBits, Epilogue.word_octetBits, ← UInt16.toNat_inj, UInt8.toNat_toUInt16,
    UInt8.toNat_toUInt16] at hword
  exact UInt8.toNat_inj.mp hword

/-- Octets are told apart by their bits. -/
theorem bits_inj {front back : Bytes} (hlength : front.length = back.length)
    (h : front.bits = back.bits) : front = back := by
  induction front generalizing back with
  | nil => exact (List.length_eq_zero_iff.mp hlength.symm).symm
  | cons octet front ih =>
      cases back with
      | nil => cases hlength
      | cons octet' back =>
          rw [bits_cons, bits_cons] at h
          obtain ⟨hoctet, hrest⟩ := List.append_inj h (by
            rw [length_octetBits, length_octetBits])
          rw [octetBits_inj hoctet, ih (Nat.succ.inj hlength) hrest]

end Bytes

namespace Epilogue

variable {e : Epilogue} {register : UInt16}

/-- Clear bits only turn the register. -/
theorem foldl_feedBit_clear {bits : List Bool} (h : ∀ bit ∈ bits, bit = false) :
    bits.foldl e.feedBit register = e.turn^[bits.length] register := by
  induction bits generalizing register with
  | nil => rfl
  | cons bit bits ih =>
      obtain ⟨rfl, hrest⟩ := List.forall_mem_cons.mp h
      have hstep : e.feedBit register false = e.turn register :=
        congrArg e.turn UInt16.xor_zero
      rw [List.foldl_cons, ih hrest, hstep]
      rfl

/-- Bits that are set only where the register can hold all of them at once, and that leave nothing
in it, are not set anywhere. -/
theorem clear_of_foldl {front burst back : List Bool} (hfront : ∀ bit ∈ front, bit = false)
    (hburst : burst.length ≤ 8 * e.width) (hback : ∀ bit ∈ back, bit = false)
    (h : (front ++ (burst ++ back)).foldl e.feedBit 0 = 0) : ∀ bit ∈ burst, bit = false := by
  have hlength : burst.length ≤ 16 := by
    have hwidth : 8 * e.width ≤ 16 := by cases e <;> decide
    omega
  have hzero : e.turn^[front.length] 0 = 0 := Function.iterate_fixed rfl _
  have hspans : e.Spans (word burst) :=
    Nat.lt_of_lt_of_le (word_lt burst hlength) (Nat.pow_le_pow_right (by omega) hburst)
  rw [List.foldl_append, List.foldl_append, foldl_feedBit_clear hfront, hzero,
    foldl_feedBit hlength, UInt16.zero_xor, foldl_feedBit_clear hback,
    ← Function.iterate_add_apply] at h
  exact eq_false_of_word hlength (eq_zero_of_turns hspans _ h)

/-- The same for bits of which it is known where they may be set. -/
theorem clear_of_window {bits : List Bool} {start : Nat}
    (hset : ∀ i : Nat, bits[i]? = some true → start ≤ i ∧ i < start + 8 * e.width)
    (h : bits.foldl e.feedBit 0 = 0) : ∀ bit ∈ bits, bit = false := by
  have hfront : ∀ bit ∈ bits.take start, bit = false := by
    intro bit hbit
    obtain ⟨i, hi⟩ := List.mem_iff_getElem?.mp hbit
    rw [List.getElem?_take] at hi
    split at hi
    · cases bit with
      | false => rfl
      | true => exact absurd (hset i hi).1 (by omega)
    · cases hi
  have hback : ∀ bit ∈ (bits.drop start).drop (8 * e.width), bit = false := by
    intro bit hbit
    obtain ⟨i, hi⟩ := List.mem_iff_getElem?.mp hbit
    rw [List.getElem?_drop, List.getElem?_drop] at hi
    cases bit with
    | false => rfl
    | true => exact absurd (hset _ hi).2 (by omega)
  have hparts : bits.take start ++ ((bits.drop start).take (8 * e.width)
      ++ (bits.drop start).drop (8 * e.width)) = bits := by
    rw [List.take_append_drop, List.take_append_drop]
  rw [← hparts] at h
  have hburst := clear_of_foldl hfront (List.length_take_le _ _) hback h
  rw [← hparts, List.forall_mem_append, List.forall_mem_append]
  exact ⟨hfront, hburst, hback⟩

/-- **No burst goes unnoticed**: octets that differ by one and leave the same in the register do
not differ. -/
theorem eq_of_burst {front back : Bytes} (hlength : front.length = back.length)
    (hsame : e.feed e.start front = e.feed e.start back)
    (hburst : IsBurst (8 * e.width) front back) : front = back := by
  obtain ⟨start, hburst⟩ := hburst
  have hbits : front.bits.length = back.bits.length := by
    rw [Bytes.length_bits, Bytes.length_bits, hlength]
  -- the difference is fed to an empty register, and is gone when it has passed
  have hfed : (List.zipWith xor front.bits back.bits).foldl e.feedBit 0 = 0 := by
    have hsum := foldl_feedBit_xor (e := e) hbits e.start e.start
    rw [UInt16.xor_self, ← feed_eq_bits (start_spans e), ← feed_eq_bits (start_spans e), hsame,
      UInt16.xor_self] at hsum
    exact hsum
  have hset : ∀ i, (List.zipWith xor front.bits back.bits)[i]? = some true →
      start ≤ i ∧ i < start + 8 * e.width := by
    intro i hi
    refine hburst i fun heq => ?_
    obtain ⟨a, b, ha, hb, hab⟩ := List.getElem?_zipWith_eq_some.mp hi
    rw [ha, hb] at heq
    obtain rfl := Option.some.inj heq
    rw [Bool.xor_self] at hab
    cases hab
  have hclear := clear_of_window hset hfed
  refine Bytes.bits_inj hlength (List.ext_getElem hbits fun i hi hi' => ?_)
  have hbit := hclear _ (List.getElem_mem (by
    rw [List.length_zipWith]
    exact Nat.lt_min.mpr ⟨hi, hi'⟩ : i < (List.zipWith xor front.bits back.bits).length))
  rw [List.getElem_zipWith] at hbit
  simpa using hbit

end Epilogue

namespace Codec

variable {c : Codec} {raw raw' : Bytes} {block : Block} {fault : Block.Fault}

/-- A frame whose epilogue is right leaves the residue behind. -/
theorem residue_of_checks {p : Parts} (h : p.Checks c.epilogue) :
    c.epilogue.feed c.epilogue.start p.octets = c.epilogue.residue := by
  unfold Parts.octets
  rw [h]
  exact Epilogue.feed_checked c.epilogue p.covered

/-- What is refused for another reason than its length or its epilogue leaves it behind as well. -/
theorem residue_of_objection (h : Objection c raw fault)
    (hlength : fault ≠ .malformed .truncated ∧ fault ≠ .malformed .lengthMismatch)
    (hepilogue : ∀ expected actual, fault ≠ .epilogueMismatch expected actual) :
    c.epilogue.feed c.epilogue.start raw = c.epilogue.residue := by
  cases h with
  | truncated short => exact absurd rfl hlength.1
  | lengthMismatch enough unfit => exact absurd rfl hlength.2
  | epilogueMismatch fit wrong read => exact absurd rfl (hepilogue _ _)
  | unknownControl fit checks unknown => exact residue_of_checks checks
  | foreignAddress fit checks known foreign => exact residue_of_checks checks
  | readyWithPayload fit checks known peer unsuited => exact residue_of_checks checks
  | multiplierMissing fit checks known peer unsuited => exact residue_of_checks checks

theorem residue_of_decode (h : c.decode raw = .ok block) :
    c.epilogue.feed c.epilogue.start raw = c.epilogue.residue := by
  cases (decode_eq_ok_iff c raw block).mp h with
  | intro fit checks known peer suits => exact residue_of_checks checks

/-- **A block that was disturbed by one burst is refused**, and for nothing but its length or its
epilogue: whatever else the burst made of it is not looked at. -/
theorem burst_detected (h : c.decode raw = .ok block) (hlength : raw'.length = raw.length)
    (hne : raw' ≠ raw) (hburst : IsBurst (8 * c.epilogue.width) raw raw') :
    ∃ fault, c.decode raw' = .error fault ∧
      (fault = .malformed .truncated ∨ fault = .malformed .lengthMismatch ∨
        ∃ expected actual, fault = .epilogueMismatch expected actual) := by
  have hresidue : c.epilogue.feed c.epilogue.start raw'
      ≠ c.epilogue.residue := fun hsame =>
    hne (Epilogue.eq_of_burst hlength.symm ((residue_of_decode h).trans hsame.symm) hburst).symm
  cases hdecode : c.decode raw' with
  | ok block' => exact absurd (residue_of_decode hdecode) hresidue
  | error fault =>
      refine ⟨fault, rfl, ?_⟩
      by_contra hother
      rw [not_or, not_or] at hother
      obtain ⟨htruncated, hmismatch, hepilogue⟩ := hother
      refine hresidue (residue_of_objection ((decode_eq_error_iff c raw' fault).mp hdecode)
        ⟨htruncated, hmismatch⟩ fun expected actual hfault => ?_)
      exact hepilogue ⟨expected, actual, hfault⟩

/-- A block with a payload of two octets. -/
def sentBlock : Block := (host 254 .crc16).flip.make (.information .zero false) [0x90, 0x00]

def sentFrame : Bytes := [0xA5, 0x00, 0x02, 0x90, 0x00, 0x02, 0xAF]

/-- The same frame when a burst of sixteen bits has made its length the marker. -/
def burstFrame : Bytes := [0xA5, 0x00, 0xFF, 0x00, 0x00, 0x02, 0xAF]

theorem burst_detected_length :
    (host 254 .crc16).decode sentFrame = .ok sentBlock
      ∧ burstFrame.length = sentFrame.length ∧ burstFrame ≠ sentFrame
      ∧ IsBurst (8 * (host 254 .crc16).epilogue.width) sentFrame burstFrame
      ∧ ∃ fault, (host 254 .crc16).decode burstFrame = .error fault := by
  have hdecode : (host 254 .crc16).decode sentFrame = .ok sentBlock := by decide +kernel
  have hlength : burstFrame.length = sentFrame.length := rfl
  have hne : burstFrame ≠ sentFrame := by decide
  have hburst : IsBurst (8 * (host 254 .crc16).epilogue.width) sentFrame burstFrame := by
    have hbits : ∀ i : Fin 56, sentFrame.bits[i.val]? ≠ burstFrame.bits[i.val]? →
        16 ≤ i.val ∧ i.val < 16 + 16 := by
      decide +kernel
    refine ⟨16, fun i hi => ?_⟩
    by_cases hin : i < 56
    · exact hbits ⟨i, hin⟩ hi
    · refine absurd ?_ hi
      rw [List.getElem?_eq_none (by rw [Bytes.length_bits]; exact Nat.le_of_not_lt hin),
        List.getElem?_eq_none (by rw [Bytes.length_bits]; exact Nat.le_of_not_lt hin)]
  obtain ⟨fault, hfault, -⟩ := burst_detected hdecode hlength hne hburst
  exact ⟨hdecode, hlength, hne, hburst, fault, hfault⟩

end Codec

end SecureElement
