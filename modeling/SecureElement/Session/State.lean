import SecureElement.AnswerToReset
import SecureElement.Failure
import SecureElement.Session.Status

/-!
# The state of a session

A session owns its link and three buffers: the response, the command block that may
have to be sent again, and the frame into which blocks are received. Everything
else is a handful of small facts about the exchange.

Two of them deserve a warning:

* a block that was **parked** is only a place in the receive frame, together with
  its type. Whatever is received later goes into the same frame;
* `commandPending` says that the last block of a command is out and nothing has
  come back; only then may the peer ask for that block again.
-/

namespace SecureElement

/-- A fault in the middle of an exchange. -/
inductive Setback where
  /-- Costs one more try of the current block. -/
  | minor (failure : Failure)
  /-- Ends the exchange at once and calls for recovery. -/
  | major (failure : Failure)
  deriving Repr, DecidableEq

namespace Setback

/-- What a caller would be told. -/
def failure : Setback → Failure
  | minor f => f
  | major f => f

/-- A closed link ends an exchange; any other fault of the link may be tried again. -/
def ofLink : Link.Fault → Setback
  | .closed => major .closed
  | fault => minor (.ofLink fault)

end Setback

/-- A block that was received: its type, and where in the receive frame its payload lies. -/
structure Inbound where
  control : Control
  /-- The index of the first octet of the payload. -/
  start : Nat
  /-- The index behind the last octet of the payload. -/
  stop : Nat
  deriving Repr, DecidableEq

namespace Inbound

def length (b : Inbound) : Nat := b.stop - b.start

/-- The payload, as long as the frame reaches that far. -/
def payload? (b : Inbound) (frame : Bytes) : Option Bytes :=
  if b.stop ≤ frame.length then some ((frame.take b.stop).drop b.start) else none

/-- What to report about a block that has no place in the exchange. -/
def rejection (b : Inbound) : Failure :=
  match b.control with
  | .ready _ .badEpilogue => .epilogueMismatch
  | .ready _ .otherwiseBad => .malformed .rejected
  | _ => .violation .unexpectedBlock

end Inbound

/-- Extra time granted within one exchange. -/
structure Extension where
  /-- How many requests there were; the count stops at its largest value. -/
  requests : Nat := 0
  /-- The sum of what was granted. -/
  granted : Nanos := 0
  deriving Repr, DecidableEq, Inhabited

/-- Counts over the whole life of a session. They are taken never to reach 2⁶⁴, where a count of
fixed width would overflow. -/
structure Statistics where
  /-- Blocks handed to the link, repetitions included. -/
  blocksSent : Nat := 0
  /-- Whole blocks that arrived. -/
  blocksReceived : Nat := 0
  /-- Tries beyond the first. -/
  retransmissions : Nat := 0
  /-- Whole blocks that arrived with a wrong epilogue. -/
  epilogueMismatches : Nat := 0
  /-- Requests for more time that were granted. -/
  extensions : Nat := 0
  /-- Resynchronisations that succeeded. -/
  resyncs : Nat := 0
  deriving Repr, DecidableEq, Inhabited

/-- A session over a link. -/
structure Session (L : Type) where
  link : L
  settings : Settings
  /-- How blocks are written and read now. -/
  codec : Codec
  status : Status
  /-- The number of the next information block to send. -/
  sendSeq : Seq
  /-- The number of the next information block to accept. -/
  recvSeq : Seq
  /-- Tries of the current block beyond the first. -/
  retries : Nat
  /-- The response, as far as it has been received. -/
  response : Buffer
  /-- The command block that may have to be sent again. -/
  command : Buffer
  /-- The frame into which blocks are received. -/
  frame : Buffer
  /-- What was received ahead of the next read. -/
  parked : Option (Except Setback Inbound)
  extension : Extension
  /-- When the call that is under way has to end. -/
  deadline : Option Nanos
  /-- Whether the last block of a command is out and nothing has come back. -/
  commandPending : Bool
  /-- What the element told about itself when its interface was last reset. -/
  answer : Option AnswerToReset
  statistics : Statistics

namespace Session

variable {L : Type}

/-- The largest value of the counts that an exchange keeps. -/
def counterMax : Nat := 0xFFFFFFFF

/-- A closed session over a link, with buffers for the given settings. The receive frame holds any
block whose length is a single octet, even when the settings ask for smaller ones. -/
def create (link : L) (settings : Settings) : Session L :=
  let codec := settings.codec
  { link, settings, codec
    status := .closed
    sendSeq := .zero
    recvSeq := .zero
    retries := 0
    response := .empty settings.responseCapacity
    command := .empty codec.frameCapacity
    frame := .empty (codec.frameLength (max settings.maxBlockPayload Block.shortMax))
    parked := none
    extension := {}
    deadline := none
    commandPending := false
    answer := none
    statistics := {} }

/-- Both sequence numbers start over. -/
def resetSequence (s : Session L) : Session L :=
  { s with sendSeq := .zero, recvSeq := .zero, retries := 0 }

/-- What belongs to the exchange alone is dropped. -/
def resetExchange (s : Session L) : Session L := { s with parked := none, extension := {} }

def responseBytes (s : Session L) : Bytes := s.response.used

def isConnected (s : Session L) : Bool := s.status.isOpen

end Session

end SecureElement
