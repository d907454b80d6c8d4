import SecureElement.Block.Codec
import SecureElement.Time

/-!
# Settings of a session

What a session is told once and never changes: how long to wait, how often to try
again, and which blocks to speak. `Settings.check` looks for contradictions before
a link is touched; it reports the first it finds, in the order of its clauses.
-/

namespace SecureElement

/-- The exchange that opens a session once the link is up. -/
inductive Handshake where
  /-- A reset of the interface, answered with the answer to reset. -/
  | softReset
  | resync
  deriving Repr, DecidableEq, Inhabited

/-- The settings of a session. -/
structure Settings where
  /-- How long to wait for one block. -/
  blockTimeout : Nanos := 1 * Time.second
  /-- How long one whole call may take. -/
  exchangeTimeout : Nanos := 30 * Time.second
  /-- How much extra time may be granted within one exchange. -/
  extensionCeiling : Nanos := 20 * Time.second
  /-- How many requests for more time may be granted within one exchange. -/
  maxExtensions : Nat := 64
  /-- How often a block may be tried again. -/
  blockRetransmits : Nat := 3
  /-- How often recovery tries to resynchronise. -/
  resyncAttempts : Nat := 3
  epilogue : Epilogue := .crc16
  /-- The longest payload sent in one information block. -/
  maxBlockPayload : Nat := Block.shortMax
  /-- How many octets a response may have. -/
  responseCapacity : Nat := 4096
  /-- The address of outgoing blocks. -/
  own : UInt8 := Codec.hostAddress
  /-- The address expected on incoming blocks. -/
  peer : UInt8 := Codec.elementAddress
  handshake : Handshake := .softReset
  /-- Whether the information field size in the answer to reset limits outgoing blocks. -/
  adoptIfsc : Bool := false
  deriving Repr, DecidableEq, Inhabited

namespace Settings

/-- The waits that a session has. -/
inductive Wait where
  | block
  | exchange
  /-- Any other, by the name that whoever states it gives it. -/
  | named (name : String)
  deriving Repr, DecidableEq

def Wait.name : Wait → String
  | block => "block timeout"
  | exchange => "exchange timeout"
  | named name => name

/-- Why settings contradict themselves. -/
inductive Fault where
  | zeroTimeout (wait : Wait)
  /-- A whole call has less time than one block. -/
  | exchangeShorterThanBlock (exchange block : Nanos)
  /-- No block can have so long a payload, or there is none at all. -/
  | payloadOutOfRange (payload : Nat)
  /-- A response buffer is too small for one block. -/
  | responseTooSmall (capacity minimum : Nat)
  | addressCollision (address : UInt8)
  deriving Repr, DecidableEq

/-- The smallest response buffer that settings can do with: room for one block, and for a status
word in any case. -/
def minResponse (s : Settings) : Nat := max s.maxBlockPayload 2

/-- The first contradiction in the settings, if there is one. -/
def fault? (s : Settings) : Option Fault :=
  if s.blockTimeout = 0 then some (.zeroTimeout .block)
  else if s.exchangeTimeout = 0 then some (.zeroTimeout .exchange)
  else if s.exchangeTimeout < s.blockTimeout then
    some (.exchangeShorterThanBlock s.exchangeTimeout s.blockTimeout)
  else if s.maxBlockPayload = 0 ∨ Block.longMax < s.maxBlockPayload then
    some (.payloadOutOfRange s.maxBlockPayload)
  else if s.responseCapacity < s.minResponse then
    some (.responseTooSmall s.responseCapacity s.minResponse)
  else if s.own = s.peer then some (.addressCollision s.own)
  else none

/-- Accepts settings without contradiction. -/
def check (s : Settings) : Except Fault Unit :=
  match s.fault? with
  | some fault => .error fault
  | none => .ok ()

/-- The codec that settings ask for. -/
def codec (s : Settings) : Codec :=
  (Codec.host s.maxBlockPayload s.epilogue).withAddresses s.own s.peer

end Settings

end SecureElement
