import SecureElement.Block.Chain
import SecureElement.Session.Receive

/-!
# Exchanges

The exchanges that the calls of a session run, each built from single blocks and the
retry budget of the settings:

* `sendChain` sends a command. Each block but the last has to be acknowledged; the
  last one is acknowledged by the response itself;
* `receiveResponse` collects a response, acknowledging each block but the last and
  refusing whatever does not fit;
* `supervise` sends a supervisory request until its response comes. What follows from
  the response is said by `resynchronise`, `renewInterface` and `endApplication`;
* `park` waits for one block ahead of the next read.

`askUntil` is what a block that has to be acknowledged and a request have in common:
one frame goes out again and again until a block of a certain type comes back.

Every round of their loops either makes progress or charges a try, which is where
the number of rounds comes from.
-/

namespace SecureElement.Step

variable {L : Type} [Link L]

/-! ## Asking -/

/-- Asks once. What comes in place of the answer is charged, and there is another round. -/
def askRound (ask : Step L Inbound) (answer : Control) : Unit → Step L (Unit ⊕ Inbound) :=
    fun _ => do
  match ← attempt ask with
  | .ok inbound =>
    if inbound.control = answer then return .inr inbound
    -- an information block of the peer is an answer to nothing here, and is lost
    charge (.minor inbound.rejection)
    return .inl ()
  | .error setback =>
    charge setback
    return .inl ()

/-- Asks until a block of the given type comes in answer, for as long as there are tries. -/
def askUntil (ask : Step L Inbound) (answer : Control) : Step L Inbound := do
  loop (askRound ask answer) ((← get).settings.blockRetransmits + 1) ()

/-! ## Commands -/

/-- Sends the staged block, which others follow, until it is acknowledged. -/
def sendChained : Step L Unit := do
  let expected := (← get).sendSeq.next
  let _ ← askUntil (do sendCommand; awaitBlock) (.ready expected .clean)
  return

/-- Sends the staged block once. -/
def sendFinalRound : Unit → Step L (Unit ⊕ Unit) := fun _ => do
  match ← attempt sendCommand with
  | .ok () => return .inr ()
  | .error setback =>
    charge setback
    return .inl ()

/-- Sends the staged block, which is the last of its chain, until the link takes it. -/
def sendFinal : Step L Unit := do
  loop sendFinalRound ((← get).settings.blockRetransmits + 1) ()

def sendBlock (block : Block) : Step L Unit := do
  stage block
  modify fun s => { s with retries := 0 }
  if block.control.isChained then sendChained else sendFinal
  modify fun s => { s with sendSeq := s.sendSeq.next }

/-- Sends at most so many blocks of a chain, each once the one before it has been taken. -/
def sendBlocks : Nat → Chain → Step L Unit
  | 0, _ => return
  | n + 1, chain =>
    match chain.next? with
    | none => return
    | some (block, rest) => do
      sendBlock block
      sendBlocks n rest

def sendChain (command : Bytes) : Step L Unit := do
  modify fun s =>
    { s.resetExchange with response := s.response.clear, commandPending := false }
  let s ← get
  let chain := Chain.ofPayload s.codec command s.sendSeq
  sendBlocks chain.remaining chain
  modify fun s => { s with commandPending := true }

/-! ## Responses -/

/-- Asks the peer to repeat the block that is expected next. -/
def refuse (receipt : Receipt) : Step L Unit := do
  let s ← get
  orCharge (sendControl (s.codec.ready s.recvSeq receipt))

/-- The next block for the exchange: the one that was parked, or the next to come. -/
def nextBlock : Step L (Except Setback Inbound) := do
  let s ← get
  set { s with parked := none }
  match s.parked with
  | some parked => return parked
  | none => attempt awaitBlock

/-- Appends the payload of a block to the response, expects the next one and acknowledges if it is
to come. The result tells whether the response is complete. -/
def accept (inbound : Inbound) (more : Bool) : Step L Bool := do
  let s ← get
  match inbound.payload? s.frame.used with
  | none => Action.crash
  | some payload =>
    match s.response.append payload with
    | .error overflow => Action.fail (.major (.overflow overflow))
    | .ok response =>
      set { s with response, recvSeq := s.recvSeq.next, commandPending := false, retries := 0 }
      if !more then return true
      -- the payload is kept by now, so a lost acknowledgement costs a try and nothing else
      orCharge (sendControl (s.codec.ready s.recvSeq.next .clean))
      return false

/-- Charges what came in place of the block that is expected next, and asks for that block. -/
def reject (setback : Setback) (receipt : Receipt) : Step L Unit := do
  charge setback
  refuse receipt

/-- Deals with one block, or with the fault in its place. There is another round unless the response
is complete. -/
def dealWith : Except Setback Inbound → Step L (Unit ⊕ Unit)
  | .ok inbound => do
    let s ← get
    match inbound.control with
    | .information seq more =>
      if seq = s.recvSeq then
        if ← accept inbound more then return .inr ()
      else reject (.minor inbound.rejection) .otherwiseBad
    | .ready seq _ =>
      -- the number of the last block sent: the peer is still waiting for it
      if s.commandPending ∧ seq = s.sendSeq.next then
        charge (.minor (.violation .commandLost))
        orCharge sendCommand
      else reject (.minor inbound.rejection) .otherwiseBad
    | .supervisory _ _ => reject (.minor inbound.rejection) .otherwiseBad
    return .inl ()
  | .error setback => do
    reject setback (if setback.failure = .epilogueMismatch then .badEpilogue else .otherwiseBad)
    return .inl ()

def receiveRound : Unit → Step L (Unit ⊕ Unit) := fun _ => do dealWith (← nextBlock)

/-- Collects a response. Between two accepted blocks there are at most as many rounds as there are
tries, and an accepted block was either parked or comes out of the backlog of the link. -/
def receiveResponse : Step L Unit := do
  modify fun s => { s with response := s.response.clear }
  let s ← get
  loop receiveRound ((Link.backlog s.link + 2) * (s.settings.blockRetransmits + 1)) ()

/-! ## Supervision -/

def supervise (function : Supervisory) : Step L Inbound := do
  modify fun s => { s with retries := 0 }
  let request := (← get).codec.make (.request function) []
  askUntil (do sendControl request; awaitBlock) (.response function)

/-- One attempt to resynchronise, without further tries. -/
def resyncOnce : Step L Unit := do
  sendControl ((← get).codec.make (.request .resync) [])
  let inbound ← awaitBlock
  if inbound.control ≠ .response .resync then Action.fail (.minor inbound.rejection)

/-- The codec after an answer to reset: a non-zero field size in it limits outgoing blocks, if the
settings want that. -/
def adoptAnswer (s : Session L) (answer : AnswerToReset) : Codec :=
  if s.settings.adoptIfsc ∧ 0 < answer.ifsc then
    s.settings.codec.withMaxPayload (min s.settings.maxBlockPayload answer.ifsc)
  else s.codec

/-- Resets the interface and keeps the answer. An answer that makes no sense is no fault: there is
none then. -/
def resetInterface : Step L Unit := do
  let inbound ← supervise .softReset
  let s ← get
  match inbound.payload? s.frame.used with
  | none => Action.crash
  | some payload =>
    match AnswerToReset.parse payload with
    | .ok answer => set { s with codec := adoptAnswer s answer, answer := some answer }
    -- the codec stays as the answer before left it
    | .error _ => set { s with answer := none }

/-- Resynchronises the sequence numbers with the element. -/
def resynchronise : Step L Unit := do
  let _ ← supervise .resync
  Action.count fun c => { c with resyncs := c.resyncs + 1 }
  modify Session.resetSequence

/-- Forgets the exchange and resets the interface. -/
def renewInterface : Step L Unit := do
  modify fun s => { s.resetExchange with commandPending := false }
  resetInterface
  modify Session.resetSequence

/-- Ends the session of the application that runs on the element. -/
def endApplication : Step L Unit := do
  let _ ← supervise .endApduSession
  return

/-! ## Waiting ahead -/

/-- Waits for the next block and parks it, or a minor setback if that is what came. -/
def park : Step L Unit := do
  match ← attempt awaitBlock with
  | .error (.major failure) => Action.fail (.major failure)
  | received => modify fun s => { s with parked := some received }

end SecureElement.Step
