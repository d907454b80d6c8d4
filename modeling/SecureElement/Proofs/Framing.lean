import Mathlib.Data.List.Basic
import SecureElement.Proofs.Layout

/-!
# Frames and their parts

A frame is taken apart into address, control byte, length, payload and epilogue. The
length may stand in either of two forms, whatever it is, and which of the two is
chosen shifts everything behind it. The reader and the writer each find their way
through this on their own; this file says that both arrive at the same parts.

* An epilogue **keeps its check value** (`Epilogue.load?_encode_compute`), and the
  octets of an epilogue are those of the value read from them
  (`Epilogue.encode_of_load?`).
* `Parts.Fit` says that parts make up a frame, and **what the reader makes of a
  frame** depends on its parts alone (`decode_octets`).
* Octets that are no frame are either **too short to tell**
  (`decode_truncated`) or of **another length than announced**
  (`decode_lengthMismatch`); there is nothing else (`truncated_or_announced`).
-/

namespace SecureElement

/-! ## Check values on the wire -/

namespace Epilogue

variable {e : Epilogue} {cells : Bytes} {value : UInt16}

/-- Two cells hold a number, low octet first. -/
theorem toNat_pair (low high : UInt8) :
    (low.toUInt16 ||| (high.toUInt16 <<< 8)).toNat = Bytes.toLength high low := by
  have hlow : low.toNat < 2 ^ 8 := low.toNat_lt
  have hhigh : high.toNat < 2 ^ 8 := high.toNat_lt
  have hshift : high.toNat <<< 8 % 2 ^ 16 = high.toNat <<< 8 := by
    rw [Nat.shiftLeft_eq]
    exact Nat.mod_eq_of_lt (by omega)
  simp only [UInt16.toNat_or, UInt16.toNat_shiftLeft, UInt8.toNat_toUInt16]
  rw [show UInt16.toNat 8 % 16 = 8 from rfl, hshift, Nat.or_comm,
    ← Nat.shiftLeft_add_eq_or_of_lt hlow, Nat.shiftLeft_eq, Bytes.toLength, Nat.mul_comm]

theorem toNat_low (value : UInt16) : value.toUInt8.toNat = value.toNat % 256 :=
  UInt16.toNat_toUInt8 value

theorem toNat_high (value : UInt16) : (value >>> 8).toUInt8.toNat = value.toNat / 256 := by
  have hvalue : value.toNat < 2 ^ 16 := value.toNat_lt
  rw [UInt16.toNat_toUInt8, UInt16.toNat_shiftRight, show UInt16.toNat 8 % 16 = 8 from rfl,
    Nat.shiftRight_eq_div_pow]
  omega

/-- The register of an LRC never leaves its low octet. -/
theorem feed_lrc_lt (bytes : Bytes) {register : UInt16} (h : register.toNat < UInt8.size) :
    (feed lrc register bytes).toNat < UInt8.size := by
  induction bytes generalizing register with
  | nil => exact h
  | cons octet bytes ih =>
      refine ih ?_
      rw [UInt16.toNat_xor, UInt8.toNat_toUInt16]
      exact Nat.xor_lt_two_pow (n := 8) h octet.toNat_lt

/-- A row of the right width always holds a value. -/
theorem exists_load? (h : cells.length = e.width) : ∃ value, e.load? cells = some value := by
  cases e with
  | crc16 =>
      obtain ⟨low, high, rfl⟩ := List.length_eq_two.mp h
      exact ⟨_, rfl⟩
  | lrc =>
      obtain ⟨octet, rfl⟩ := List.length_eq_one_iff.mp h
      exact ⟨_, rfl⟩

/-- The octets of an epilogue are those of the value that is read from them. -/
theorem encode_of_load? (hcells : cells.length = e.width) (h : e.load? cells = some value) :
    e.encode value = cells := by
  cases e with
  | crc16 =>
      obtain ⟨low, high, rfl⟩ := List.length_eq_two.mp hcells
      obtain rfl := Option.some.inj h
      have hlow := low.toNat_lt
      have hhigh := high.toNat_lt
      have hpair := toNat_pair low high
      unfold Bytes.toLength at hpair
      refine List.cons_eq_cons.mpr ⟨UInt8.toNat_inj.mp ?_,
        congrArg (· :: []) (UInt8.toNat_inj.mp ?_)⟩
      · rw [toNat_low, hpair]
        omega
      · rw [toNat_high, hpair]
        omega
  | lrc =>
      obtain ⟨octet, rfl⟩ := List.length_eq_one_iff.mp hcells
      obtain rfl := Option.some.inj h
      exact congrArg (· :: []) octet.toUInt8_toUInt16

/-- A check value survives the wire. -/
theorem load?_encode_compute (e : Epilogue) (bytes : Bytes) :
    e.load? (e.encode (e.compute bytes)) = some (e.compute bytes) := by
  cases e with
  | crc16 =>
      refine congrArg some (UInt16.toNat_inj.mp ?_)
      rw [toNat_pair, Bytes.toLength, toNat_high, toNat_low]
      omega
  | lrc =>
      -- the one octet is all of the value, because the register stays that small
      have hsmall : (lrc.compute bytes).toNat < 2 ^ 8 := feed_lrc_lt bytes (by decide)
      refine congrArg some (UInt16.toNat_inj.mp ?_)
      rw [UInt8.toNat_toUInt16, toNat_low]
      omega

/-- A value read back from the octets of a check value is that value. -/
theorem load?_eq_compute_iff {bytes : Bytes} (hcells : cells.length = e.width)
    (h : e.load? cells = some value) :
    e.compute bytes = value ↔ cells = e.encode (e.compute bytes) := by
  constructor
  · rintro rfl
    exact (encode_of_load? hcells h).symm
  · rintro rfl
    rw [load?_encode_compute] at h
    exact Option.some.inj h

end Epilogue

/-! ## Control bytes -/

/-- An octet that is read as a control byte is the control byte that would be written. -/
theorem Control.toByte_of_ofByte? {octet : UInt8} {control : Control}
    (h : Control.ofByte? octet = some control) : control.toByte = octet := by
  have hall : ∀ n : Fin 256, ∀ control ∈ Control.ofByte? (UInt8.ofNat n), control.toByte
      = UInt8.ofNat n := by
    decide +kernel
  have hoctet : UInt8.ofNat octet.toNat = octet := UInt8.ofNat_toNat
  have hthis := hall ⟨octet.toNat, octet.toNat_lt⟩ control
  rw [hoctet] at hthis
  exact hthis h

/-! ## Parts of a frame -/

/-- How the length of a payload may be written. The long form may hold any length, also one for
which the short form would do. -/
inductive LengthForm : Bytes → Nat → Prop
  | short {octet : UInt8} (h : octet.toNat ≤ Block.shortMax) : LengthForm [octet] octet.toNat
  | long (high low : UInt8) : LengthForm [Block.longMarker, high, low] (Bytes.toLength high low)

theorem LengthForm.le_longMax {form : Bytes} {n : Nat} (h : LengthForm form n) :
    n ≤ Block.longMax := by
  cases h with
  | short hoctet =>
      unfold Block.shortMax at hoctet
      unfold Block.longMax
      omega
  | long high low => exact Nat.le_of_lt_succ (Bytes.toLength_lt high low)

/-- The parts of a frame in the order in which they are sent. -/
structure Parts where
  node : UInt8
  control : UInt8
  length : Bytes
  payload : Bytes
  epilogue : Bytes

namespace Parts

/-- Everything that the check value is computed over. -/
def covered (p : Parts) : Bytes := p.node :: p.control :: (p.length ++ p.payload)

def octets (p : Parts) : Bytes := p.covered ++ p.epilogue

/-- The length is that of the payload, and the epilogue fills its width. -/
structure Fit (p : Parts) (e : Epilogue) : Prop where
  announced : LengthForm p.length p.payload.length
  filled : p.epilogue.length = e.width

end Parts

/-- There are fewer octets than the shortest block has, or than the shortest block has whose length
is in the long form, when that is announced. -/
def Truncated (e : Epilogue) (raw : Bytes) : Prop :=
  raw.length < Block.shortPrologue + e.width
    ∨ raw[2]? = some Block.longMarker ∧ raw.length < Block.longPrologue + e.width

namespace Codec

variable {c : Codec} {e : Epilogue} {raw form rest : Bytes} {node pcb : UInt8} {n : Nat}
  {block : Block}

/-- The octet that announces the long form is the one length that no short form holds. -/
theorem ne_longMarker_iff (octet : UInt8) :
    octet ≠ Block.longMarker ↔ octet.toNat ≤ Block.shortMax := by
  have hoctet := octet.toNat_lt
  have hmarker : Block.longMarker.toNat = 255 := rfl
  rw [Ne, ← UInt8.toNat_inj, hmarker, Block.shortMax]
  omega

/-- Either form of a length is found where it stands. -/
theorem announced?_of_form (h : LengthForm form n) :
    announced? (node :: pcb :: (form ++ rest)) = some (2 + form.length, n) := by
  cases h with
  | short hoctet =>
      have hne := (ne_longMarker_iff _).mpr hoctet
      simp only [List.singleton_append, announced?, if_neg hne]
      rfl
  | long high low =>
      simp only [List.cons_append, List.nil_append, announced?, if_pos]
      rfl

/-- Octets too few for a prologue and an epilogue are no block, whatever they announce. -/
theorem decode_truncated (h : Truncated c.epilogue raw) :
    c.decode raw = .error (.malformed .truncated) := by
  unfold decode
  rcases raw with _ | ⟨node, _ | ⟨pcb, _ | ⟨third, rest⟩⟩⟩
  · rfl
  · rfl
  · rfl
  · simp only [Truncated, List.length_cons, List.getElem?_cons_succ, List.getElem?_cons_zero,
      Option.some.injEq, Block.shortPrologue, Block.longPrologue] at h
    by_cases hmarker : third = Block.longMarker
    · rcases rest with _ | ⟨high, _ | ⟨low, rest⟩⟩
      · simp only [announced?, if_pos hmarker]
      · simp only [announced?, if_pos hmarker]
      · have hfew : (node :: pcb :: third :: high :: low :: rest).length
            < Block.longPrologue + c.epilogue.width := by
          simp only [List.length_cons, Block.longPrologue] at h ⊢
          rcases h with h | ⟨-, h⟩ <;> omega
        simp only [announced?, if_pos hmarker, if_pos hfew]
        rfl
    · have hfew : (node :: pcb :: third :: rest).length
          < Block.shortPrologue + c.epilogue.width := by
        rcases h with h | ⟨hlong, -⟩
        · simp only [List.length_cons, Block.shortPrologue]
          omega
        · exact absurd hlong hmarker
      simp only [announced?, if_neg hmarker, if_pos hfew]
      rfl

/-- Octets that are enough to tell have a length in one of its two forms. -/
theorem truncated_or_announced (e : Epilogue) (raw : Bytes) :
    Truncated e raw ∨ ∃ node pcb form n rest, LengthForm form n
      ∧ raw = node :: pcb :: (form ++ rest) ∧ e.width ≤ rest.length := by
  by_cases hshort : Truncated e raw
  · exact .inl hshort
  · have hfew : Block.shortPrologue + e.width ≤ raw.length := by
      unfold Truncated at hshort
      omega
    have hlength : Block.shortPrologue ≤ raw.length := by omega
    obtain ⟨node, pcb, third, rest, rfl⟩ := exists_third hlength
    simp only [List.length_cons, Block.shortPrologue] at hfew
    by_cases hmarker : third = Block.longMarker
    · have hmany : Block.longPrologue + e.width ≤ rest.length + 3 := by
        unfold Truncated at hshort
        simp only [List.length_cons, List.getElem?_cons_succ, List.getElem?_cons_zero,
          hmarker, true_and] at hshort
        omega
      unfold Block.longPrologue at hmany
      rcases rest with _ | ⟨high, _ | ⟨low, rest⟩⟩
      · simp only [List.length_nil] at hmany
        omega
      · simp only [List.length_cons, List.length_nil] at hmany
        omega
      · refine .inr ⟨node, pcb, _, _, rest, .long high low, by rw [hmarker]; rfl, ?_⟩
        simp only [List.length_cons] at hmany
        omega
    · exact .inr ⟨node, pcb, _, _, rest, .short ((ne_longMarker_iff third).mp hmarker), rfl,
        by omega⟩

/-- A frame is as long as it announces. -/
theorem decode_lengthMismatch (hform : LengthForm form n) (hwidth : c.epilogue.width ≤ rest.length)
    (hrest : rest.length ≠ n + c.epilogue.width) :
    c.decode (node :: pcb :: (form ++ rest)) = .error (.malformed .lengthMismatch) := by
  have hlength : (node :: pcb :: (form ++ rest)).length = 2 + form.length + rest.length := by
    simp only [List.length_cons, List.length_append]
    omega
  unfold decode
  rw [announced?_of_form hform]
  simp only [hlength]
  rw [if_neg (by omega), if_pos (by omega)]
  rfl

/-- The verdict on a frame whose epilogue holds the right value. -/
def judge (c : Codec) (p : Parts) (edc : UInt16) : Except Block.Fault Block :=
  match Control.ofByte? p.control with
  | none => .error (.malformed .unknownControl)
  | some control =>
    if p.node ≠ c.peer then .error (.malformed .foreignAddress)
    else
      match payloadDefect? control p.payload with
      | some defect => .error (.malformed defect)
      | none => .ok { address := p.node, control, payload := p.payload, edc }

/-- What the reader makes of a frame, in terms of its parts and of the value in its epilogue. -/
theorem decode_octets {p : Parts} {carried : UInt16} (h : p.Fit c.epilogue)
    (hcarried : c.epilogue.load? p.epilogue = some carried) :
    c.decode p.octets =
      if c.epilogue.compute p.covered ≠ carried then
        .error (.epilogueMismatch (c.epilogue.compute p.covered) carried)
      else c.judge p carried := by
  have hoctets : p.octets = p.node :: p.control :: (p.length ++ (p.payload ++ p.epilogue)) := by
    simp only [Parts.octets, Parts.covered, List.cons_append, List.append_assoc]
  have hannounced : announced? p.octets = some (2 + p.length.length, p.payload.length) := by
    rw [hoctets]
    exact announced?_of_form h.announced
  have hcovered : p.covered.length = 2 + p.length.length + p.payload.length := by
    simp only [Parts.covered, List.length_cons, List.length_append]
    omega
  have hlength : p.octets.length = 2 + p.length.length + p.payload.length + c.epilogue.width := by
    rw [Parts.octets, List.length_append, hcovered, h.filled]
  have htake : p.octets.take (2 + p.length.length + p.payload.length) = p.covered :=
    List.take_left' hcovered
  have hdrop : p.octets.drop (2 + p.length.length + p.payload.length) = p.epilogue :=
    List.drop_left' hcovered
  have hpayload : p.covered.drop (2 + p.length.length) = p.payload := by
    have hfront : (p.node :: p.control :: p.length).length = 2 + p.length.length := by
      simp only [List.length_cons]
      omega
    have hsplit : p.covered = (p.node :: p.control :: p.length) ++ p.payload := rfl
    rw [hsplit, List.drop_left' hfront]
  have hnode : p.octets.headD 0 = p.node := rfl
  have hcontrol : p.octets.getD 1 0 = p.control := rfl
  unfold decode
  rw [hannounced]
  simp only [htake, hdrop, hcarried, hpayload, hnode, hcontrol, Option.getD_some]
  rw [if_neg (by omega), if_neg (by omega)]
  by_cases hvalue : c.epilogue.compute p.covered = carried
  · rw [if_neg (not_not_intro hvalue), if_neg (not_not_intro hvalue)]
    unfold judge
    cases Control.ofByte? p.control with
    | none => rfl
    | some control => exact if_congr Iff.rfl rfl rfl
  · rw [if_pos hvalue, if_pos hvalue]
    rfl

end Codec

end SecureElement
