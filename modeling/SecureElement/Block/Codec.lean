import SecureElement.Block.Basic

/-!
# Reading and writing blocks

A codec knows the two addresses, the kind of epilogue and how much one outgoing
information block may carry. It has no state: sequence numbers and chains belong
to whoever drives it.

* `Codec.make` builds a block and computes its check value;
* `Codec.encode` and `Codec.encodeOver` write a block, `Codec.decode` reads one;
* `Codec.extension` and `Codec.bodyLength` tell, from the front of a block, how much
  of it is still to come, which is how a block is cut out of a stream.

`Codec.decode` judges in a fixed order, and the first objection wins: length,
epilogue, control byte, address, payload.
-/

namespace SecureElement

/-- The reader and writer of blocks at one end of a link. -/
structure Codec where
  /-- The address written into outgoing blocks. -/
  own : UInt8
  /-- The address expected on incoming blocks. -/
  peer : UInt8
  /-- The longest payload of one outgoing information block. -/
  maxPayload : Nat
  epilogue : Epilogue
  /-- An information block can always carry something. -/
  maxPayload_pos : 0 < maxPayload
  /-- No block carries more than its length can tell. -/
  maxPayload_le : maxPayload ≤ Block.longMax
  deriving Repr, DecidableEq

namespace Codec

def hostAddress : UInt8 := 0x5A

def elementAddress : UInt8 := 0xA5

/-- The nearest payload limit that a codec can have. -/
def clampPayload (n : Nat) : Nat := max 1 (min n Block.longMax)

theorem clampPayload_pos (n : Nat) : 0 < clampPayload n := by
  simp only [clampPayload]; omega

theorem clampPayload_mono {m n : Nat} (h : m ≤ n) : clampPayload m ≤ clampPayload n := by
  simp only [clampPayload]; omega

theorem clampPayload_le (n : Nat) : clampPayload n ≤ Block.longMax := by
  simp only [clampPayload, Block.longMax]; omega

/-- The host's codec for a payload limit, which is moved into range. -/
def host (maxPayload : Nat) (epilogue : Epilogue) : Codec where
  own := hostAddress
  peer := elementAddress
  maxPayload := clampPayload maxPayload
  epilogue := epilogue
  maxPayload_pos := clampPayload_pos maxPayload
  maxPayload_le := clampPayload_le maxPayload

instance : Inhabited Codec := ⟨host Block.shortMax .crc16⟩

/-- The same codec between other addresses. -/
def withAddresses (c : Codec) (own peer : UInt8) : Codec := { c with own, peer }

/-- The same codec with another payload limit, which is moved into range. -/
def withMaxPayload (c : Codec) (maxPayload : Nat) : Codec :=
  { c with
    maxPayload := clampPayload maxPayload
    maxPayload_pos := clampPayload_pos maxPayload
    maxPayload_le := clampPayload_le maxPayload }

def flip (c : Codec) : Codec := c.withAddresses c.peer c.own

/-! ## Writing -/

/-- Octets of a block whose payload has `n` octets. -/
def frameLength (c : Codec) (n : Nat) : Nat := Block.prologueLength n + n + c.epilogue.width

/-- The same, as long as a size can be that large. -/
def frameLength? (c : Codec) (n : Nat) : Option Nat :=
  if c.frameLength n ≤ Bytes.sizeMax then some (c.frameLength n) else none

/-- Octets of the largest outgoing information block. -/
def frameCapacity (c : Codec) : Nat := c.frameLength c.maxPayload

/-- The octets in front of a payload of `n` octets. -/
def prologue (address : UInt8) (control : Control) (n : Nat) : Bytes :=
  if n ≤ Block.shortMax then [address, control.toByte, UInt8.ofNat n]
  else
    let length := Bytes.ofLength n
    [address, control.toByte, Block.longMarker, length.1, length.2]

/-- An outgoing block with its check value. -/
def make (c : Codec) (control : Control) (payload : Bytes) : Block where
  address := c.own
  control := control
  payload := payload
  edc := c.epilogue.compute (prologue c.own control payload.length ++ payload)

/-- A ready block that names `seq` as the number expected next. -/
def ready (c : Codec) (seq : Seq) (receipt : Receipt) : Block := c.make (.ready seq receipt) []

/-- The longest payload of a block with the given control byte. -/
def payloadLimit (c : Codec) : Control → Nat
  | .information _ _ => c.maxPayload
  | _ => Block.longMax

/-- A block as it stands on the wire. -/
def layout (c : Codec) (block : Block) : Bytes :=
  prologue block.address block.control block.payload.length ++ block.payload
    ++ c.epilogue.encode block.edc

/-- The octets of a block, unless its payload is too long. -/
def encode (c : Codec) (block : Block) : Except Block.Fault Bytes :=
  if c.payloadLimit block.control < block.payload.length then
    .error (.oversized block.payload.length (c.payloadLimit block.control))
  else .ok (c.layout block)

/-- The octets of a block, unless its payload is too long or they are more than `room`. -/
def encodeWithin (c : Codec) (block : Block) (room : Nat) : Except Block.Fault Bytes := do
  let frame ← c.encode block
  let needed := c.frameLength block.payload.length
  if room < needed then .error (.noRoom needed room) else .ok frame

/-- Writes a block over the front of `out`, piece by piece. Returns how many octets it took, or why
there is none, and all of `out` afterwards. -/
def encodeOver (c : Codec) (block : Block) (out : Bytes) : Except Block.Fault Nat × Bytes :=
  let length := block.payload.length
  let needed := c.frameLength length
  if c.payloadLimit block.control < length then
    (.error (.oversized length (c.payloadLimit block.control)), out)
  else if out.length < needed then (.error (.noRoom needed out.length), out)
  else
    let front := prologue block.address block.control length
    let out := out.write 0 front
    let out := out.write front.length block.payload
    (.ok needed, out.write (front.length + length) (c.epilogue.encode block.edc))

/-- The same for a caller who drops `out` when there is no block in it. -/
def encodeInto (c : Codec) (block : Block) (out : Bytes) : Except Block.Fault (Nat × Bytes) :=
  let (outcome, out) := c.encodeOver block out
  outcome.map fun used => (used, out)

/-! ## Reading -/

/-- Octets of the length that follow the third octet of a block, given that octet. -/
def extension (length : UInt8) : Nat := if length = Block.longMarker then 2 else 0

/-- Octets that follow a complete prologue: payload and epilogue. -/
def bodyLength (c : Codec) : Bytes → Except Block.Fault Nat
  | [_, _, length] =>
    if length = Block.longMarker then .error (.malformed .prologueIncomplete)
    else .ok (length.toNat + c.epilogue.width)
  | [_, _, marker, high, low] =>
    if marker = Block.longMarker then .ok (Bytes.toLength high low + c.epilogue.width)
    else .error (.malformed .prologueIncomplete)
  | _ => .error (.malformed .prologueIncomplete)

/-- The prologue length and payload length that the front of `raw` announces, if it is there. -/
def announced? (raw : Bytes) : Option (Nat × Nat) :=
  match raw with
  | _ :: _ :: length :: rest =>
    if length = Block.longMarker then
      match rest with
      | high :: low :: _ => some (Block.longPrologue, Bytes.toLength high low)
      | _ => none
    else some (Block.shortPrologue, length.toNat)
  | _ => none

/-- What a block of the given type may not carry. -/
def payloadDefect? (control : Control) (payload : Bytes) : Option Block.Defect :=
  match control with
  | .ready _ _ => if payload.isEmpty then none else some .readyWithPayload
  | .supervisory .wtx _ => if payload.length = 1 then none else some .multiplierMissing
  | _ => none

/-- The block that `raw` is, octet for octet. -/
def decode (c : Codec) (raw : Bytes) : Except Block.Fault Block := do
  let width := c.epilogue.width
  let some (front, length) := announced? raw | .error (.malformed .truncated)
  if raw.length < front + width then .error (.malformed .truncated)
  if raw.length ≠ front + length + width then .error (.malformed .lengthMismatch)
  let expected := c.epilogue.compute (raw.take (front + length))
  let actual := (c.epilogue.load? (raw.drop (front + length))).getD 0
  -- nothing in front of the epilogue is believed before it agrees, except the length
  if expected ≠ actual then .error (.epilogueMismatch expected actual)
  let some control := Control.ofByte? (raw.getD 1 0) | .error (.malformed .unknownControl)
  if raw.headD 0 ≠ c.peer then .error (.malformed .foreignAddress)
  let payload := (raw.take (front + length)).drop front
  match payloadDefect? control payload with
  | some defect => .error (.malformed defect)
  | none => .ok { address := raw.headD 0, control, payload, edc := actual }

end Codec

end SecureElement
