import SecureElement.Bytes.Hex
import SecureElement.Link.Basic
import SecureElement.Proxy.Address
import SecureElement.Proxy.Network

/-!
# The proxy link

A proxy that owns a secure element is reached over a stream connection. Block
octets travel in messages, in both directions:

    type (1) | length (2, high octet first) | octets (length)

The first octet of a message may be long in coming; once it is there, the rest has
to follow. A message that breaks off leaves the stream out of step, so the
connection is dropped then. A message of another type is read, refused and
forgotten, which keeps the stream in step.
-/

namespace SecureElement.Proxy

/-- The type of a message that carries block octets. -/
def blockMessage : UInt8 := 0x01

/-- The longest row of octets that one message carries. -/
def messageMax : Nat := 65535

/-- The shortest time limit that is set on a connection. -/
def minLimit : Nanos := 1 * Time.milli

/-- A message with the given octets. -/
def message (bytes : Bytes) : Bytes :=
  let length := Bytes.ofLength bytes.length
  blockMessage :: length.1 :: length.2 :: bytes

/-- What an error of a connection is to a link: a limit that passed, a connection that is gone, or
a fault. -/
def linkFault : Network.Error → Link.Fault
  | .wouldBlock | .timedOut => .timeout
  | .unexpectedEnd | .connectionReset | .connectionAborted | .brokenPipe => .closed
  | error => .bus error.message

structure Client (N : Type) where
  net : N
  address : Address
  isConnected : Bool := false
  /-- What the last message brought and was not read yet. -/
  pending : Bytes := []
  deriving Repr

namespace Client

variable {N : Type} [Network N]

/-- Connects, unless there is a connection. -/
def connect (c : Client N) : Except Link.Fault Unit × Client N :=
  if c.isConnected then (.ok (), c)
  else
    match Network.connect c.net with
    | (.error error, net) =>
      (.error (.bus ("Failed to connect to " ++ c.address.render ++ ": " ++ error.message)),
        { c with net })
    | (.ok (), net) => (.ok (), { c with net, isConnected := true, pending := [] })

/-- Drops the connection and whatever was not read yet. -/
def disconnect (c : Client N) : Client N :=
  { c with
    net := if c.isConnected then Network.shutdown c.net else c.net
    isConnected := false
    pending := [] }

/-- Receives what follows the first octet of a message: its length, and its octets. -/
def receiveRest (net : N) : Except Network.Error Bytes × N :=
  match Network.receiveAll 2 net with
  | (.error error, net) => (.error error, net)
  | (.ok length, net) =>
    Network.receiveAll (Bytes.toLength (length.headD 0) (length.getD 1 0)) net

/-- Receives one message and keeps its octets. -/
def receiveMessage (timeout : Nanos) (c : Client N) : Except Link.Fault Unit × Client N :=
  if !c.isConnected then (.error .closed, c)
  else
    match Network.receive 1 (Network.limitReceive (max timeout minLimit) c.net) with
    -- nothing of the message is gone yet, so the connection is still of use
    | (.error error, net) => (.error (linkFault error), { c with net })
    | (.ok [], net) => (.error .closed, disconnect { c with net })
    | (.ok (kind :: _), net) =>
      match receiveRest net with
      -- from here on the messages could not be told apart any more
      | (.error error, net) =>
        (.error (.bus ("truncated proxy message: " ++ error.message)), disconnect { c with net })
      | (.ok bytes, net) =>
        if kind = blockMessage then (.ok (), { c with net, pending := c.pending ++ bytes })
        else (.error (.bus ("unexpected message type " ++ Hex.octet kind)), { c with net })

/-- Sends octets as one message. -/
def write (bytes : Bytes) (timeout : Nanos) (c : Client N) : Except Link.Fault Nat × Client N :=
  if messageMax < bytes.length then (.error (.bus "block too large for proxy message"), c)
  else if !c.isConnected then (.error .closed, c)
  else
    match Network.sendAll (message bytes) (Network.limitSend (max timeout minLimit) c.net) with
    | (.error error, net) => (.error (linkFault error), { c with net })
    | (.ok (), net) => (.ok bytes.length, { c with net })

/-- Hands out what is pending, at most `n` octets. -/
def takePending (n : Nat) (c : Client N) : Bytes × Client N :=
  (c.pending.take n, { c with pending := c.pending.drop n })

/-- Reads at most `n` octets, from a new message if nothing is pending. -/
def read (n : Nat) (timeout : Nanos) (c : Client N) : Except Link.Fault Bytes × Client N :=
  let (outcome, c) := if c.pending.isEmpty then c.receiveMessage timeout else (.ok (), c)
  match outcome with
  | .error fault => (.error fault, c)
  | .ok () =>
    let (bytes, c) := c.takePending n
    (.ok bytes, c)

instance : Link (Client N) where
  bringUp := connect
  write := write
  read := read
  release := disconnect
  now c := Network.now c.net
  backlog c := c.pending.length + Network.backlog c.net

/-- A link to the proxy at an address that is given as text. -/
def resolve (net : N) (text : String) : Except Link.Fault (Client N) :=
  match Address.parse text with
  | .ok address => .ok { net, address }
  | .error error =>
    .error (.bus ("Invalid proxy address " ++ text ++ ": " ++ error.message))

end Client

end SecureElement.Proxy
