import SecureElement.Bytes.Hex
import SecureElement.Buffer
import SecureElement.Link.Basic
import SecureElement.Settings

/-!
# Failures

What a caller of a session can be told. A failure names its cause; `message` is the
one place where causes become words, here and for the faults that a failure may
wrap.

`Failure.requiresReopen` is the question that a caller asks next: did the session
have to close?
-/

namespace SecureElement

def Block.Fault.message : Block.Fault → String
  | epilogueMismatch expected actual =>
    "Checksum mismatch: expected " ++ Hex.wordUpper expected ++ ", received "
      ++ Hex.wordUpper actual
  | malformed defect => "Malformed block: " ++ defect.text
  | oversized length limit => s!"Block payload of {length} bytes exceeds maximum of {limit}"
  | noRoom needed available => s!"Buffer too small: need {needed} bytes, have {available}"

def Settings.Fault.message : Settings.Fault → String
  | zeroTimeout wait => wait.name ++ " must be greater than zero"
  | exchangeShorterThanBlock exchange block =>
    "Exchange timeout " ++ Time.render exchange ++ " is shorter than block timeout "
      ++ Time.render block
  | payloadOutOfRange payload =>
    s!"Block payload size {payload} out of range 1..=" ++ toString Block.longMax
  | responseTooSmall capacity minimum =>
    s!"Read buffer capacity {capacity} below minimum {minimum}"
  | addressCollision address =>
    "Node address " ++ Hex.octetUpper address ++ " is used for both directions"

/-- What a peer or a caller did against the protocol. -/
inductive Violation where
  | exchangeInProgress
  /-- A block came that fits nowhere at this point. -/
  | unexpectedBlock
  /-- The peer asked for the command although it had been sent. -/
  | commandLost
  /-- The peer asked for no extra time at all. -/
  | zeroExtension
  /-- Any other, in the words of whoever states it. -/
  | stated (text : String)
  deriving Repr, DecidableEq

def Violation.text : Violation → String
  | exchangeInProgress => "exchange already in progress"
  | unexpectedBlock => "unexpected block"
  | commandLost => "command block not received"
  | zeroExtension => "wait time extension of zero"
  | stated text => text

/-- What a caller of a session can be told. -/
inductive Failure where
  | openFailed (cause : Failure)
  | settings (fault : Settings.Fault)
  | epilogueMismatch
  | malformed (defect : Block.Defect)
  | violation (violation : Violation)
  | timeout
  /-- The peer asked for more extra time than the settings grant. -/
  | extensionExceeded
  /-- Recovery did not succeed, and the session is closed. -/
  | recoveryExhausted
  | closed
  | overflow (overflow : Buffer.Overflow)
  | link (fault : Link.Fault)
  deriving Repr, DecidableEq

namespace Failure

def message : Failure → String
  | openFailed cause => "Failed to open session: " ++ cause.message
  | settings fault => fault.message
  | epilogueMismatch => "Checksum mismatch"
  | malformed defect => "Malformed block: " ++ defect.text
  | violation v => "Protocol violation: " ++ v.text
  | timeout => "Operation timed out"
  | extensionExceeded => "Wait time extension ceiling exceeded"
  | recoveryExhausted => "Recovery exhausted, session closed"
  | closed => "Session is closed"
  | overflow o => "Buffer overflow: capacity " ++ toString o.capacity ++ ", needed "
      ++ toString o.needed
  | link fault => "Link error: " ++ fault.message

/-- A failure to open, for the given cause. Such a failure is not wrapped again. -/
def toOpenFailed : Failure → Failure
  | openFailed cause => openFailed cause
  | cause => openFailed cause

/-- Whether the session had to close and must be opened again. -/
def requiresReopen : Failure → Bool
  | recoveryExhausted | closed | openFailed _ => true
  | _ => false

def ofBlock : Block.Fault → Failure
  | .epilogueMismatch _ _ => epilogueMismatch
  | .malformed defect => malformed defect
  | .oversized _ _ => malformed .oversized
  | .noRoom needed available => overflow { capacity := available, needed }

def ofLink : Link.Fault → Failure
  | .timeout => timeout
  | .closed => closed
  | fault => link fault

end Failure

end SecureElement
