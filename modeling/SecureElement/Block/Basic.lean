import SecureElement.Block.Control
import SecureElement.Block.Epilogue

/-!
# Blocks

A block is the unit that travels between host and secure element:

    address | control | length (1 or 3 octets) | payload | epilogue (1 or 2 octets)

A length up to `254` is one octet. Longer ones are announced by the octet `FF` and
follow as two octets, high one first. `Block.Defect` and `Block.Fault` list what
can be wrong with a block, with the wording that users see.
-/

namespace SecureElement

/-- One block, taken apart. -/
structure Block where
  /-- The address of the sender. -/
  address : UInt8
  control : Control
  payload : Bytes
  /-- The check value in its epilogue. -/
  edc : UInt16
  deriving Repr, DecidableEq, Inhabited

namespace Block

/-- The longest payload whose length is a single octet. -/
def shortMax : Nat := 254

/-- The longest payload of any block. -/
def longMax : Nat := 65535

/-- The length octet that announces two more. -/
def longMarker : UInt8 := 0xFF

/-- Octets in front of a payload when its length is a single octet. -/
def shortPrologue : Nat := 3

/-- Octets in front of a payload when its length is announced by the marker. -/
def longPrologue : Nat := 5

/-- Octets in front of a payload of `n` octets. -/
def prologueLength (n : Nat) : Nat := if n ≤ shortMax then shortPrologue else longPrologue

/-- What is wrong with the form of a block, or of what a block carries. -/
inductive Defect where
  /-- There are fewer octets than the shortest block has. -/
  | truncated
  /-- The announced length is not the length that is there. -/
  | lengthMismatch
  | unknownControl
  /-- The block comes from someone else. -/
  | foreignAddress
  | readyWithPayload
  /-- A request for more time does not carry exactly its multiplier. -/
  | multiplierMissing
  /-- The octets in front of the payload are not all there. -/
  | prologueIncomplete
  | answerTruncated
  | oversized
  | rejected
  /-- The block is larger than the frame that was to receive it. -/
  | beyondFrame
  /-- Any other reason, in the words of whoever states it. -/
  | stated (text : String)
  deriving Repr, DecidableEq

def Defect.text : Defect → String
  | truncated => "truncated block"
  | lengthMismatch => "length does not match block size"
  | unknownControl => "unknown block type"
  | foreignAddress => "unexpected node address"
  | readyWithPayload => "R-block with payload"
  | multiplierMissing => "WTX without multiplier"
  | prologueIncomplete => "incomplete prologue"
  | answerTruncated => "truncated ATR"
  | oversized => "oversized block"
  | rejected => "block rejected by peer"
  | beyondFrame => "block exceeds receive frame"
  | stated text => text

/-- Why a single block could not be read or written. -/
inductive Fault where
  /-- The epilogue holds `actual` where the octets before it call for `expected`. -/
  | epilogueMismatch (expected actual : UInt16)
  | malformed (defect : Defect)
  /-- The payload is longer than the limit in force. -/
  | oversized (length limit : Nat)
  /-- The block does not fit the space given for it. -/
  | noRoom (needed available : Nat)
  deriving Repr, DecidableEq

end Block

end SecureElement
