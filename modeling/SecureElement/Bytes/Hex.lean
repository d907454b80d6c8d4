import SecureElement.Bytes

/-!
# Hexadecimal text

Octets are shown as two digits each, in lower or upper case, and words as four
digits. Reading is stricter than it looks:

* the length is judged first, **in octets of the text's UTF-8 form**, so that a
  letter outside ASCII can make a text odd;
* the first octet that is no digit is then reported with its position, again
  counted in octets.
-/

namespace SecureElement.Hex

/-- The digit that stands for `n`, from `0` to `f`. -/
def digit (n : Nat) : Char := Nat.digitChar (n % 16)

def capital (n : Nat) : Char := (digit n).toUpper

/-- Two digits per octet, in lower case. -/
def encode (bytes : Bytes) : String :=
  String.ofList (bytes.flatMap fun b => [digit (b.toNat / 16), digit b.toNat])

/-- Two digits per octet, in upper case. -/
def encodeUpper (bytes : Bytes) : String :=
  String.ofList (bytes.flatMap fun b => [capital (b.toNat / 16), capital b.toNat])

/-- Two digits of an octet in lower case behind `0x`. -/
def octet (b : UInt8) : String := "0x" ++ encode [b]

/-- Two digits of an octet in upper case behind `0x`. -/
def octetUpper (b : UInt8) : String := "0x" ++ encodeUpper [b]

/-- Four digits of a word in upper case behind `0x`. -/
def wordUpper (w : UInt16) : String :=
  "0x" ++ encodeUpper [UInt8.ofNat (w.toNat / 256), UInt8.ofNat w.toNat]

/-- Why a text is no row of octets. -/
inductive Error where
  | oddLength
  /-- The octet at `index` is no digit. -/
  | badDigit (octet : UInt8) (index : Nat)
  deriving Repr, DecidableEq

/-- The value of an ASCII digit in either case. -/
def value? (b : UInt8) : Option UInt8 :=
  if 0x30 ≤ b ∧ b ≤ 0x39 then some (b - 0x30)
  else if 0x41 ≤ b ∧ b ≤ 0x46 then some (b - 0x41 + 10)
  else if 0x61 ≤ b ∧ b ≤ 0x66 then some (b - 0x61 + 10)
  else none

/-- Reads digit pairs from position `index` on; a lone last digit is ignored. What was read before
is in `read`, last octet first. -/
def decodePairs (index : Nat) (read : Bytes) : Bytes → Except Error Bytes
  | high :: low :: rest =>
    match value? high, value? low with
    | none, _ => .error (.badDigit high index)
    | some _, none => .error (.badDigit low (index + 1))
    | some h, some l => decodePairs (index + 2) ((h * 16 + l) :: read) rest
  | _ => .ok read.reverse

/-- The octets that a row of digits, given as octets of text, stands for. -/
def decodeOctets (text : Bytes) : Except Error Bytes :=
  if text.length % 2 = 1 then .error .oddLength else decodePairs 0 [] text

/-- The octets that a text stands for. -/
def decode (text : String) : Except Error Bytes := decodeOctets text.toUTF8.toList

end SecureElement.Hex
