import SecureElement.Block.Basic
import SecureElement.Time

/-!
# The answer to reset

What a secure element tells about itself after a reset of its interface:

    version | vendor (5) | n | link (n) | layer | m | physical (m) | h | historical (h)

The first four octets of `link` and the first eleven of `physical` have a meaning;
surplus octets of either, and whatever follows the historical bytes, have none.
`AnswerToReset.parse` reads left to right and has one complaint, that the answer
ends too soon.
-/

namespace SecureElement

/-- What a secure element tells about itself. -/
structure AnswerToReset where
  version : UInt8
  /-- Registered identifier of the vendor, five octets. -/
  vendor : Bytes
  /-- How long the element may take for a block. -/
  blockWaitingTime : Nanos
  /-- The longest information field that the element accepts. -/
  ifsc : Nat
  physicalLayer : UInt8
  /-- The highest bus clock, in kilohertz. -/
  maxClock : Nat
  configuration : UInt8
  /-- The shortest pause between two polls. -/
  minPollingTime : Nanos
  /-- The pause after each transfer. -/
  guardTime : Nanos
  /-- How long the element takes to wake up. -/
  wakeUpTime : Nanos
  historical : Bytes
  deriving Repr, DecidableEq

namespace AnswerToReset

/-- The identifier of an I²C bus. -/
def i2cLayer : UInt8 := 0x02

def isI2c (a : AnswerToReset) : Bool := a.physicalLayer == i2cLayer

/-! ## Reading -/

/-- A reader takes octets from the front of what is left. -/
abbrev Reader := StateT Bytes (Except Block.Fault)

namespace Reader

/-- The next `n` octets. -/
def take (n : Nat) : Reader Bytes := fun bytes =>
  if bytes.length < n then .error (.malformed .answerTruncated)
  else .ok (bytes.take n, bytes.drop n)

def octet : Reader UInt8 := do return (← take 1).headD 0

/-- The next two octets as a number, high one first. -/
def word : Reader Nat := do
  let bytes ← take 2
  return Bytes.toLength (bytes.headD 0) (bytes.getD 1 0)

/-- The next octet, and as many octets as it says. -/
def counted : Reader Bytes := do
  let n ← octet
  take n.toNat

/-- Reads the next counted field with a reader of its own; what that leaves over is dropped. -/
def within {α : Type} (reader : Reader α) : Reader α := do
  let field ← counted
  let (a, _) ← (reader field : Except Block.Fault (α × Bytes))
  return a

end Reader

/-- Block waiting time and information field size. -/
def linkField : Reader (Nanos × Nat) := do
  let waiting ← Reader.word
  let ifsc ← Reader.word
  return (waiting * Time.milli, ifsc)

/-- Clock, flags, polling time, guard time and wake-up time. -/
def physicalField : Reader (Nat × UInt8 × Nanos × Nanos × Nanos) := do
  let clock ← Reader.word
  let flags ← Reader.octet
  let polling ← Reader.octet
  -- three octets that no field of an answer is made of
  let _ ← Reader.take 3
  let guardTime ← Reader.word
  let wakeUp ← Reader.word
  return (clock, flags, polling.toNat * Time.milli, guardTime * Time.micro, wakeUp * Time.micro)

def reader : Reader AnswerToReset := do
  let version ← Reader.octet
  let vendor ← Reader.take 5
  let (blockWaitingTime, ifsc) ← Reader.within linkField
  let physicalLayer ← Reader.octet
  let (maxClock, configuration, minPollingTime, guardTime, wakeUpTime) ←
    Reader.within physicalField
  let historical ← Reader.counted
  return { version, vendor, blockWaitingTime, ifsc, physicalLayer, maxClock, configuration,
           minPollingTime, guardTime, wakeUpTime, historical }

/-- The answer at the front of a byte string. -/
def parse (bytes : Bytes) : Except Block.Fault AnswerToReset := do
  let (answer, _) ← reader bytes
  return answer

end AnswerToReset

end SecureElement
