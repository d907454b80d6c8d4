import SecureElement.Bytes
import SecureElement.Time

/-!
# I²C buses

What a bus master offers: transfers to and from a device address, and the passage
of time. A device that is busy does not acknowledge its address, and a transfer is
refused then; any other fault is final.
-/

namespace SecureElement.I2c

/-- How a transfer fails. -/
inductive Bus.Fault where
  | notAcknowledged
  | other (message : String)
  deriving Repr, DecidableEq

def Bus.Fault.message : Bus.Fault → String
  | notAcknowledged => "Address not acknowledged"
  | other message => "Bus error: " ++ message

/-- What the states of a bus do. A device that answers a read sends as many octets as were asked
for. -/
class Bus (B : Type) where
  /-- Writes octets to the device at an address. -/
  write : UInt8 → Bytes → B → Except Bus.Fault Unit × B
  /-- Reads so many octets from the device at an address. -/
  read : UInt8 → (n : Nat) → B → Except Bus.Fault (Bytes.Row n) × B
  sleep : Nanos → B → B
  now : B → Nanos
  /-- How many octets the device still has to send. -/
  backlog : B → Nat

namespace Bus

/-- A transfer with its outcome, or a pause. -/
inductive Event where
  /-- Octets were to be written. -/
  | write (address : UInt8) (bytes : Bytes) (outcome : Except Fault Unit)
  /-- So many octets were to be read; these came. -/
  | read (address : UInt8) (length : Nat) (outcome : Except Fault Bytes)
  | sleep (time : Nanos)
  deriving Repr

/-- A bus with a record of what was done on it. -/
structure Traced (B : Type) where
  bus : B
  /-- What was done, newest first. -/
  past : List Event := []
  deriving Repr

namespace Traced

variable {B : Type}

/-- What was done, oldest first. -/
def events (t : Traced B) : List Event := t.past.reverse

/-- The bus with its record after one more deed. -/
def record (t : Traced B) (event : Event) (bus : B) : Traced B :=
  { bus, past := event :: t.past }

@[simp] theorem events_record (t : Traced B) (event : Event) (bus : B) :
    (t.record event bus).events = t.events ++ [event] := by
  simp [events, record]

variable [Bus B]

instance : Bus (Traced B) where
  write address bytes t :=
    let (outcome, bus) := write address bytes t.bus
    (outcome, t.record (.write address bytes outcome) bus)
  read address n t :=
    let (outcome, bus) := read address n t.bus
    (outcome, t.record (.read address n (outcome.map (·.val))) bus)
  sleep time t := t.record (.sleep time) (sleep time t.bus)
  now t := now t.bus
  backlog t := backlog t.bus

end Traced

end Bus

end SecureElement.I2c
