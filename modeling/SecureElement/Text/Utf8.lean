import SecureElement.Bytes

/-!
# Octets as text

Octets are read as UTF-8. `Utf8.next` takes one character from the front, or else
the longest start of a character that cannot be completed; both readings of a whole
string follow from it:

* `decode?` gives up on the first such place;
* `decodeLossy` puts one replacement character there and goes on.
-/

namespace SecureElement.Text.Utf8

/-- What stands at the front of a row of octets. -/
inductive Front where
  /-- A character, and what follows it. -/
  | char (c : Char) (rest : Bytes)
  /-- The start of a character that is not completed, and what follows it. -/
  | broken (rest : Bytes)
  deriving Repr, DecidableEq

/-- Whether an octet continues a character. -/
def isContinuation (b : UInt8) : Bool := 0x80 ≤ b ∧ b ≤ 0xBF

/-- The six bits that a continuing octet adds. -/
def continuation (b : UInt8) : Nat := b.toNat % 64

/-- How many octets continue the character that an octet starts, within which limits the first of
them lies, and the bits that the octet itself gives. -/
def lead? (b : UInt8) : Option (Nat × UInt8 × UInt8 × Nat) :=
  if b < 0x80 then some (0, 0, 0, b.toNat)
  else if b < 0xC2 then none
  else if b < 0xE0 then some (1, 0x80, 0xBF, b.toNat % 32)
  else if b < 0xF0 then
    some (2, if b = 0xE0 then 0xA0 else 0x80, if b = 0xED then 0x9F else 0xBF, b.toNat % 16)
  else if b < 0xF5 then
    some (3, if b = 0xF0 then 0x90 else 0x80, if b = 0xF4 then 0x8F else 0xBF, b.toNat % 8)
  else none

/-- Takes so many more octets of a character. -/
def continued : (left : Nat) → (bits : Nat) → Bytes → Front
  | 0, bits, rest => .char (Char.ofNat bits) rest
  | _ + 1, _, [] => .broken []
  | left + 1, bits, b :: rest =>
    if isContinuation b then continued left (bits * 64 + continuation b) rest
    else .broken (b :: rest)

/-- What stands at the front, if there is anything. -/
def next : Bytes → Option Front
  | [] => none
  | b :: rest =>
    match lead? b with
    | none => some (.broken rest)
    | some (0, _, _, bits) => some (.char (Char.ofNat bits) rest)
    | some (left + 1, low, high, bits) =>
      match rest with
      | [] => some (.broken [])
      | c :: more =>
        if low ≤ c ∧ c ≤ high then some (continued left (bits * 64 + continuation c) more)
        else some (.broken rest)

/-- The characters in at most so many steps; a broken place becomes what `replace` makes of it.
What was read before is in `read`, last character first. -/
def decodeWith (replace : Option Char) (read : List Char) :
    (steps : Nat) → Bytes → Option (List Char)
  | 0, _ => some read.reverse
  | steps + 1, bytes =>
    match next bytes with
    | none => some read.reverse
    | some (.char c rest) => decodeWith replace (c :: read) steps rest
    | some (.broken rest) =>
      match replace with
      | none => none
      | some c => decodeWith replace (c :: read) steps rest

/-- The text that octets stand for; `none` if they are broken anywhere. -/
def decode? (bytes : Bytes) : Option String :=
  (decodeWith none [] bytes.length bytes).map String.ofList

/-- The text that octets stand for, with a replacement character in each broken place. -/
def decodeLossy (bytes : Bytes) : String :=
  String.ofList ((decodeWith (some '\uFFFD') [] bytes.length bytes).getD [])

end SecureElement.Text.Utf8
