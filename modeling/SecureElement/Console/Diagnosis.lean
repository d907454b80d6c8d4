import SecureElement.Failure
import SecureElement.Text.Quoted

/-!
# Diagnoses

When the tool gives up it shows the failure by its structure rather than in words:
the name of the case, and what it carries in brackets or braces. `Diagnosis.fields`
is the one place that knows how named fields look.
-/

namespace SecureElement

namespace Diagnosis

/-- A case with one part. -/
def apply (name part : String) : String := name ++ "(" ++ part ++ ")"

/-- A case with named fields, on one line. -/
def fields (name : String) (parts : List (String × String)) : String :=
  name ++ " \x7b " ++ ", ".intercalate (parts.map fun (field, value) => field ++ ": " ++ value)
    ++ " \x7d"

/-- A case with named fields, on a line each. -/
def block (name : String) (parts : List (String × String)) : String :=
  name ++ " \x7b\n"
    ++ String.join (parts.map fun (field, value) => "    " ++ field ++ ": " ++ value ++ ",\n")
    ++ "\x7d"

end Diagnosis

/-- A contradiction in settings by its structure. -/
def Settings.Fault.diagnosis : Settings.Fault → String
  | zeroTimeout wait => Diagnosis.apply "ZeroTimeout" (Text.quoted wait.name)
  | exchangeShorterThanBlock exchange block =>
    Diagnosis.fields "ExchangeShorterThanBlock"
      [("exchange", Time.render exchange), ("block", Time.render block)]
  | payloadOutOfRange payload => Diagnosis.apply "BlockPayloadOutOfRange" (toString payload)
  | responseTooSmall capacity minimum =>
    Diagnosis.fields "ReadBufferTooSmall"
      [("capacity", toString capacity), ("minimum", toString minimum)]
  | addressCollision address => Diagnosis.apply "AddressCollision" (toString address.toNat)

/-- A link fault by its structure. -/
def Link.Fault.diagnosis : Link.Fault → String
  | timeout => "Timeout"
  | notAcknowledged => "Nack"
  | closed => "Closed"
  | shortWrite written expected =>
    Diagnosis.fields "ShortWrite" [("written", toString written), ("expected", toString expected)]
  | bus message => Diagnosis.apply "Bus" (Text.quoted message)

/-- A failure by its structure. -/
def Failure.diagnosis : Failure → String
  | openFailed cause => Diagnosis.apply "OpenFailed" cause.diagnosis
  | settings fault => Diagnosis.apply "Config" fault.diagnosis
  | epilogueMismatch => "ChecksumMismatch"
  | malformed defect => Diagnosis.apply "Malformed" (Text.quoted defect.text)
  | violation v => Diagnosis.apply "Protocol" (Text.quoted v.text)
  | timeout => "Timeout"
  | extensionExceeded => "WtxExceeded"
  | recoveryExhausted => "RecoveryExhausted"
  | closed => "Closed"
  | overflow o =>
    Diagnosis.fields "BufferOverflow"
      [("capacity", toString o.capacity), ("needed", toString o.needed)]
  | link fault => Diagnosis.apply "Link" fault.diagnosis

/-- An error in a row of digits by its structure. An octet is shown as the character with its
number. -/
def Hex.Error.diagnosis : Hex.Error → String
  | oddLength => "OddLength"
  | badDigit octet index =>
    Diagnosis.fields "InvalidHexCharacter"
      [("c", Text.quotedChar (Char.ofNat octet.toNat)), ("index", toString index)]

end SecureElement
