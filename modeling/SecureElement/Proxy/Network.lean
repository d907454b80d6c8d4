import SecureElement.Bytes
import SecureElement.Time

/-!
# Stream connections

What the proxy link asks of the network: one connection at a time, with a time
limit for each direction. The errors are those of the operating system that the
link can meet, each with the text that users know it by.

A call may be **interrupted**, in which case nothing has happened and it is simply
made again. `sendAll` and `receiveAll` do so; how often it can happen is bounded by
`interruptions`.
-/

namespace SecureElement.Proxy

/-- How a call on a connection fails. -/
inductive Network.Error where
  /-- A signal came in between; nothing has happened. -/
  | interrupted
  /-- The device below failed. -/
  | inputOutput
  | wouldBlock
  | invalidArgument
  /-- The other side reads no more. -/
  | brokenPipe
  | networkUnreachable
  | connectionAborted
  | connectionReset
  | noBufferSpace
  | timedOut
  | connectionRefused
  | hostUnreachable
  /-- The stream ended inside what was to be read. -/
  | unexpectedEnd
  /-- The connection took nothing of what was to be sent. -/
  | nothingTaken
  deriving Repr, DecidableEq

def Network.Error.message : Network.Error → String
  | interrupted => "Interrupted system call (os error 4)"
  | inputOutput => "Input/output error (os error 5)"
  | wouldBlock => "Resource temporarily unavailable (os error 11)"
  | invalidArgument => "Invalid argument (os error 22)"
  | brokenPipe => "Broken pipe (os error 32)"
  | networkUnreachable => "Network is unreachable (os error 101)"
  | connectionAborted => "Software caused connection abort (os error 103)"
  | connectionReset => "Connection reset by peer (os error 104)"
  | noBufferSpace => "No buffer space available (os error 105)"
  | timedOut => "Connection timed out (os error 110)"
  | connectionRefused => "Connection refused (os error 111)"
  | hostUnreachable => "No route to host (os error 113)"
  | unexpectedEnd => "failed to fill whole buffer"
  | nothingTaken => "failed to write whole buffer"

/-- What the states of a network do. -/
class Network (N : Type) where
  connect : N → Except Network.Error Unit × N
  /-- Limits the time of each receiving call. -/
  limitReceive : Nanos → N → N
  /-- Limits the time of each sending call. -/
  limitSend : Nanos → N → N
  /-- Receives at most so many octets; none at all means that the stream has ended. -/
  receive : Nat → N → Except Network.Error Bytes × N
  /-- Sends octets; the result is how many were taken. -/
  send : Bytes → N → Except Network.Error Nat × N
  shutdown : N → N
  now : N → Nanos
  /-- How many octets can still arrive. -/
  backlog : N → Nat
  /-- How many calls can still be interrupted. -/
  interruptions : N → Nat

namespace Network

variable {N : Type} [Network N]

/-- Receives exactly `n` octets in at most so many calls. -/
def receiveUpTo : (calls n : Nat) → N → Except Error Bytes × N
  | _, 0, net => (.ok [], net)
  | 0, _ + 1, net => (.error .interrupted, net)
  | calls + 1, n + 1, net =>
    match receive (n + 1) net with
    | (.error .interrupted, net) => receiveUpTo calls (n + 1) net
    | (.error e, net) => (.error e, net)
    | (.ok [], net) => (.error .unexpectedEnd, net)
    | (.ok bytes, net) =>
      -- no call hands out more than was asked for, whatever the network returns
      let part := bytes.take (n + 1)
      match receiveUpTo calls (n + 1 - part.length) net with
      | (.error e, net) => (.error e, net)
      | (.ok more, net) => (.ok (part ++ more), net)

/-- Receives exactly `n` octets. Every call brings one or is interrupted. -/
def receiveAll (n : Nat) (net : N) : Except Error Bytes × N :=
  receiveUpTo (n + interruptions net) n net

/-- Sends all octets in at most so many calls. -/
def sendUpTo : (calls : Nat) → Bytes → N → Except Error Unit × N
  | _, [], net => (.ok (), net)
  | 0, _ :: _, net => (.error .interrupted, net)
  | calls + 1, bytes@(_ :: _), net =>
    match send bytes net with
    | (.error .interrupted, net) => sendUpTo calls bytes net
    | (.error e, net) => (.error e, net)
    | (.ok 0, net) => (.error .nothingTaken, net)
    | (.ok n, net) => sendUpTo calls (bytes.drop n) net

/-- Sends all octets. Every call takes one or is interrupted. -/
def sendAll (bytes : Bytes) (net : N) : Except Error Unit × N :=
  sendUpTo (bytes.length + interruptions net) bytes net

/-- A call on a network with its outcome. -/
inductive Event where
  | connect (outcome : Except Error Unit)
  /-- The time of receiving calls was limited. -/
  | limitReceive (limit : Nanos)
  /-- The time of sending calls was limited. -/
  | limitSend (limit : Nanos)
  /-- So many octets were asked for; these arrived. -/
  | receive (length : Nat) (outcome : Except Error Bytes)
  /-- Octets were to be sent; so many were taken. -/
  | send (bytes : Bytes) (outcome : Except Error Nat)
  | shutdown
  deriving Repr

/-- A network with a record of the calls made on it. -/
structure Traced (N : Type) where
  net : N
  /-- The calls, newest first. -/
  past : List Event := []
  deriving Repr

namespace Traced

omit [Network N]

/-- The calls, oldest first. -/
def events (t : Traced N) : List Event := t.past.reverse

/-- The network with its record after one more call. -/
def record (t : Traced N) (event : Event) (net : N) : Traced N :=
  { net, past := event :: t.past }

@[simp] theorem events_record (t : Traced N) (event : Event) (net : N) :
    (t.record event net).events = t.events ++ [event] := by
  simp [events, record]

end Traced

instance : Network (Traced N) where
  connect t :=
    let (outcome, net) := connect t.net
    (outcome, t.record (.connect outcome) net)
  limitReceive limit t := t.record (.limitReceive limit) (limitReceive limit t.net)
  limitSend limit t := t.record (.limitSend limit) (limitSend limit t.net)
  receive n t :=
    let (outcome, net) := receive n t.net
    (outcome, t.record (.receive n (outcome.map (·.take n))) net)
  send bytes t :=
    let (outcome, net) := send bytes t.net
    (outcome, t.record (.send bytes outcome) net)
  shutdown t := t.record .shutdown (shutdown t.net)
  now t := now t.net
  backlog t := backlog t.net
  interruptions t := interruptions t.net

end Network

end SecureElement.Proxy
