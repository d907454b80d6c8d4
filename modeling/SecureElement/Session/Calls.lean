import SecureElement.Session.Exchange

/-!
# The calls of a session

What a program does with a session. A call on an open session runs inside one busy
period: it gets a deadline, and it ends idle, or in `recover` if its exchange could
not go on.

**Recovery** resynchronises as often as the settings allow. If one attempt succeeds
the session goes on, and the caller is told what had gone wrong; if none does, the
session closes and says so.
-/

namespace SecureElement.Session

variable {L : Type} [Link L]

/-! ## Opening and closing -/

/-- A closed session, if the settings do not contradict themselves and memory can hold the response
buffer that they ask for. -/
def new (link : L) (settings : Settings) : Except (Stop Settings.Fault) (Session L) :=
  match settings.fault? with
  | some fault => .error (.because fault)
  | none =>
    if settings.responseCapacity ≤ Buffer.capacityMax then .ok (create link settings)
    else .error .crashed

/-- The deadline of a call that starts now. -/
def deadlineFromNow (s : Session L) : Option Nanos :=
  Time.after? (Link.now s.link) s.settings.exchangeTimeout

/-- The exchange that opens a session. -/
def handshake : Step L Unit := do
  modify fun s => { s with deadline := s.deadlineFromNow }
  match (← get).settings.handshake with
  | .softReset => Step.resetInterface
  | .resync => discard (Step.supervise .resync)

/-- Opens the link and runs the handshake. An open session stays as it is; after a failure the link
is closed again. -/
def establish : Call L Unit := do
  if (← get).status.isOpen then return
  match ← Action.onLink Link.bringUp with
  | .error fault => Action.fail (Failure.toOpenFailed (.ofLink fault))
  | .ok () =>
    modify fun s =>
      { s.resetSequence.resetExchange with codec := s.settings.codec, answer := none }
    -- the status is still closed here, so that a failure leaves nothing to undo but the link
    Step.conclude handshake
      (fun () => do
        modify fun s => { s with deadline := none }
        Action.moveTo .opened)
      (fun setback => do
        modify fun s => { s with link := Link.release s.link, deadline := none }
        Action.fail setback.failure.toOpenFailed)

/-- Lets go of the link and forgets the exchange. -/
def close (s : Session L) : Session L :=
  { s.resetExchange with
    link := if s.status.isOpen then Link.release s.link else s.link
    status := .closed
    deadline := none
    response := s.response.clear
    commandPending := false }

/-- The link of a session that is given up; it is let go of if the session is open. -/
def drop (s : Session L) : L := if s.status.isOpen then Link.release s.link else s.link

/-! ## Recovery -/

/-- Attempts to resynchronise, so many times at most. Tells whether one succeeded. -/
def resyncAttempts : Nat → Call L Bool
  | 0 => return false
  | n + 1 => Step.conclude Step.resyncOnce (fun () => return true) (fun _ => resyncAttempts n)

/-- Resynchronises after a fault that ended an exchange. The result is what to tell the caller. -/
def recover (failure : Failure) : Call L Failure := do
  if !(← get).status.isOpen then return failure
  Action.moveTo .recovering
  -- the attempts run without the deadline of the call, which may have passed
  modify fun s =>
    { s.resetExchange with response := s.response.clear, commandPending := false, deadline := none }
  if ← resyncAttempts (← get).settings.resyncAttempts then
    Action.count fun c => { c with resyncs := c.resyncs + 1 }
    modify resetSequence
    Action.moveTo .idle
    return failure
  else
    modify fun s => { s with link := Link.release s.link }
    Action.moveTo .closed
    return .recoveryExhausted

/-! ## Running an exchange -/

/-- Starts a call: the session becomes busy and the call gets its deadline. -/
def begin : Call L Unit := do
  let s ← get
  match s.status with
  | .closed => Action.fail .closed
  | .busy | .recovering => Action.fail (.violation .exchangeInProgress)
  | .opened | .idle =>
    Action.moveTo .busy
    modify fun s => { s with retries := 0, deadline := s.deadlineFromNow }

/-- Runs an exchange as one call. -/
def run {α : Type} (exchange : Step L α) : Call L α := do
  begin
  exchange.conclude
    (fun a => do
      modify fun s => { s with deadline := none }
      Action.moveTo .idle
      return a)
    (fun setback => do
      modify fun s => { s with deadline := none }
      Action.fail (← recover setback.failure))

def send (command : Bytes) : Call L Unit := run (Step.sendChain command)

/-- Collects the response to the last command. -/
def receive : Call L Bytes := do
  run Step.receiveResponse
  return (← get).responseBytes

def transceive (command : Bytes) : Call L Bytes := do
  send command
  receive

/-- Receives the next block and parks it for `receive`, together with a minor setback if that is
what came. Requests of the peer are answered on the way. -/
def prefetch : Call L Unit := do
  -- a second block would overwrite the frame that the first one lies in
  if (← get).parked.isSome then return
  run Step.park

/-- Resynchronises the sequence numbers with the element. -/
def resync : Call L Unit := run Step.resynchronise

/-- Resets the interface of the element and renews its answer to reset. -/
def softReset : Call L Unit := run Step.renewInterface

/-- Ends the session of the application that runs on the element. -/
def endApduSession : Call L Unit := run Step.endApplication

/-- Resets an open session, opens a closed one. -/
def reset : Call L Unit := do
  if (← get).status.isOpen then softReset else establish

/-- Forgets the response and whatever was parked. -/
def dropResponse (s : Session L) : Session L :=
  { s with response := s.response.clear, parked := none }

/-! ## All calls as one type -/

/-- The calls that a program can make on a session. -/
inductive Request where
  | establish
  | close
  | send (command : Bytes)
  | receive
  | transceive (command : Bytes)
  | prefetch
  | resync
  | softReset
  | endApduSession
  | reset
  | dropResponse
  deriving Repr, DecidableEq

/-- Makes a call. The result is the response if the call has one. -/
def perform : Request → Call L (Option Bytes)
  | .establish => do establish; return none
  | .close => do modify close; return none
  | .send command => do send command; return none
  | .receive => do return some (← receive)
  | .transceive command => do return some (← transceive command)
  | .prefetch => do prefetch; return none
  | .resync => do resync; return none
  | .softReset => do softReset; return none
  | .endApduSession => do endApduSession; return none
  | .reset => do reset; return none
  | .dropResponse => do modify dropResponse; return none

/-- A session that is created and opened at once. A session that could not be opened is given
back closed, together with the reason; when none could be created the link is given back. -/
def connect (link : L) (settings : Settings) :
    Except (Stop Failure × L) (EStateM.Result (Stop Failure) (Session L) Unit) :=
  match new link settings with
  | .error stop => .error (stop.map .settings, link)
  | .ok s => .ok (establish s)

end SecureElement.Session
