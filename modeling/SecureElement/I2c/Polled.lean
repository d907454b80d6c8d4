import SecureElement.I2c.Bus
import SecureElement.Link.Basic

/-!
# The polled link

A secure element that is working does not acknowledge its address. The link repeats
a refused transfer after each poll interval, until the device answers or the time
is up; after a transfer that went through it leaves the device alone for the guard
time.

The time is looked at only after a refusal, so there is always a first attempt, and
a transfer that goes through late still counts.
-/

namespace SecureElement.I2c

/-- How a device is addressed and polled. -/
structure Polling where
  /-- The address of the device, seven bits. -/
  address : UInt8 := 0x48
  /-- The pause after a refusal. -/
  interval : Nanos := 1 * Time.milli
  /-- The pause after a transfer that went through. -/
  guardTime : Nanos := 100 * Time.micro
  deriving Repr, DecidableEq, Inhabited

/-- A link to a device on a bus. -/
structure Polled (B : Type) where
  bus : B
  /-- How the device is addressed and polled. -/
  polling : Polling
  isOpen : Bool := false
  deriving Repr

namespace Polled

/-- The largest number that an attempt of one call can have. -/
def attemptsMax : Nat := 0xFFFFFFFF

variable {B α : Type} [Bus B]

/-- Repeats a transfer as long as it is refused and the time is not up, for at most so many
attempts. `none` when the attempts do not suffice. -/
def attempts (polling : Polling) (deadline : Nanos)
    (transfer : B → Except Bus.Fault α × B) : Nat → B → Option (Except Link.Fault α) × B
  | 0, bus => (none, bus)
  | n + 1, bus =>
    match transfer bus with
    | (.ok a, bus) =>
      (some (.ok a), if polling.guardTime = 0 then bus else Bus.sleep polling.guardTime bus)
    | (.error (.other message), bus) => (some (.error (.bus message)), bus)
    -- a busy device does not acknowledge its address
    | (.error .notAcknowledged, bus) =>
      if deadline ≤ Bus.now bus then (some (.error .timeout), bus)
      else attempts polling deadline transfer n (Bus.sleep polling.interval bus)

/-- Makes a transfer on an open link. A call that would need more attempts than there are numbers
for them is given up as timed out. -/
def poll (p : Polled B) (timeout : Nanos) (transfer : B → Except Bus.Fault α × B) :
    Except Link.Fault α × Polled B :=
  if p.isOpen then
    let (outcome, bus) := attempts p.polling (Bus.now p.bus + timeout) transfer attemptsMax p.bus
    (outcome.getD (.error .timeout), { p with bus })
  else (.error .closed, p)

instance : Link (Polled B) where
  bringUp p := (.ok (), { p with isOpen := true })
  write bytes timeout p :=
    let (outcome, p) := p.poll timeout (Bus.write p.polling.address bytes)
    (outcome.map fun () => bytes.length, p)
  read n timeout p :=
    let (outcome, p) := p.poll timeout (Bus.read p.polling.address n)
    (outcome.map (·.val), p)
  release p := { p with isOpen := false }
  now p := Bus.now p.bus
  backlog p := Bus.backlog p.bus

end Polled

end SecureElement.I2c
