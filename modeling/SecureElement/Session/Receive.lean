import SecureElement.Session.Step

/-!
# Sending and receiving single blocks

`sendCommand` and `sendControl` hand one block to the link. `receiveBlock` cuts one
block out of what the link brings: three octets tell how many follow, and exactly
those are read, whatever the block turns out to be. A block too large for the frame
is read too and dropped, so that the next one starts where it should.

`awaitBlock` receives until something comes that the exchange has to deal with.
Two requests of the peer are answered on the way:

* more time: granted as long as `extendWait` allows, and the next block may then
  take as long as was granted;
* an announced information field size: repeated back.
-/

namespace SecureElement.Step

variable {L : Type} [Link L]

/-! ## Sending -/

/-- Hands one whole block to the link. -/
def transmit (frame : Bytes) : Step L Unit := do
  Action.count fun c => { c with blocksSent := c.blocksSent + 1 }
  let timeout := (← get).settings.blockTimeout
  match ← Action.onLink (Link.writeAll frame timeout) with
  | .ok () => return
  | .error fault => Action.fail (.ofLink fault)

/-- Sends the staged command block, for the first time or again. -/
def sendCommand : Step L Unit := do transmit (← get).command.used

/-- The largest ready or supervisory block that is sent. -/
def controlFrameMax : Nat := 16

def sendControl (block : Block) : Step L Unit := do
  match (← get).codec.encodeWithin block controlFrameMax with
  | .error fault => Action.fail (.major (.ofBlock fault))
  | .ok frame => transmit frame

/-- Puts a block where `sendCommand` finds it. -/
def stage (block : Block) : Step L Unit := do
  let s ← get
  let (outcome, command) := s.command.fill fun cleared =>
    match s.codec.encodeWithin block cleared.capacity with
    | .ok frame => (.ok frame.length, frame)
    | .error fault => (.error fault, [])
  set { s with command }
  match outcome with
  | .ok () => return
  | .error fault => Action.fail (.major (.ofBlock fault))

/-! ## Receiving one block -/

/-- Reads exactly `n` more octets into the receive frame. -/
def readFrame (n : Nat) (timeout : Nanos) : Step L Unit := do
  match (← get).frame.claim n with
  | .error overflow => Action.fail (.major (.overflow overflow))
  | .ok claimed =>
    let (bytes, fault) ← Action.onLink (Link.readAll n timeout)
    modify fun s => { s with frame := claimed.setTail n bytes }
    match fault with
    | none => return
    | some fault => Action.fail (.ofLink fault)

/-- Reads `remaining` octets and drops them, a frame at a time. A fault ends it early. -/
def discard (timeout : Nanos) : (rounds remaining : Nat) → Step L Unit
  | 0, _ => return
  | rounds + 1, remaining => do
    let chunk := min remaining (← get).frame.capacity
    if chunk = 0 then return
    match ← attempt (readFrame chunk timeout) with
    -- a fault while dropping is not reported: the block it belongs to is already refused
    | .error _ => modify fun s => { s with frame := s.frame.clear }
    | .ok () =>
      modify fun s => { s with frame := s.frame.clear }
      discard timeout rounds (remaining - chunk)

/-- Reads the octets in front of a payload into the empty frame. -/
def readPrologue (timeout : Nanos) : Step L Unit := do
  modify fun s => { s with frame := s.frame.clear }
  readFrame Block.shortPrologue timeout
  -- only now is it known whether two octets of length follow
  readFrame (Codec.extension ((← get).frame.used.getD 2 0)) timeout

/-- Makes a block of the frame, which is full up to its end. The payload starts at the given
place. -/
def readBlock (start : Nat) : Step L Inbound := do
  Action.count fun c => { c with blocksReceived := c.blocksReceived + 1 }
  let s ← get
  match s.codec.decode s.frame.used with
  | .ok block =>
    return { control := block.control, start, stop := start + block.payload.length }
  | .error fault =>
    if let .epilogueMismatch _ _ := fault then
      Action.count fun c => { c with epilogueMismatches := c.epilogueMismatches + 1 }
    Action.fail (.minor (.ofBlock fault))

/-- Receives one block into the frame and reads it. -/
def receiveBlock (timeout : Nanos) : Step L Inbound := do
  readPrologue timeout
  let s ← get
  match s.codec.bodyLength s.frame.used with
  | .error fault => Action.fail (.minor (.ofBlock fault))
  | .ok body =>
    if s.frame.capacity < s.frame.used.length + body then
      -- what stays unread would be taken for the front of the next block
      modify fun s => { s with frame := s.frame.clear }
      discard timeout body body
      Action.fail (.major (.malformed .beyondFrame))
    readFrame body timeout
    readBlock s.frame.used.length

/-! ## Waiting -/

/-- How long a wait may be before the call as a whole runs out of time. -/
def waitTime (timeout : Nanos) : Step L Nanos := do
  let s ← get
  match s.deadline with
  | none => return timeout
  | some deadline =>
    let left := deadline - Link.now s.link
    if left = 0 then Action.fail (.major .timeout)
    return min timeout left

/-- The extension and the sum of all extensions after a request for `multiplier` block timeouts, if
the settings and the range of times allow it. -/
def grantable? (settings : Settings) (extension : Extension) (multiplier : Nat) :
    Option (Nanos × Nanos) := do
  let extra ← Time.scale? multiplier settings.blockTimeout
  let total ← Time.add? extension.granted extra
  if extension.requests ≤ settings.maxExtensions ∧ total ≤ settings.extensionCeiling then
    return (extra, total)
  else none

/-- Grants `multiplier` block timeouts of extra time, and moves the deadline by as much. A deadline
that would lie beyond the last instant is dropped. -/
def extendWait (multiplier : UInt8) : Step L Nanos := do
  if multiplier = 0 then Action.fail (.minor (.violation .zeroExtension))
  -- a request counts even if it is turned down
  modify fun s =>
    { s with extension.requests := min (s.extension.requests + 1) Session.counterMax }
  let s ← get
  match grantable? s.settings s.extension multiplier.toNat with
  | none => Action.fail (.major .extensionExceeded)
  | some (extra, total) =>
    set { s with
      extension.granted := total
      statistics.extensions := s.statistics.extensions + 1
      deadline := s.deadline.bind (Time.after? · extra) }
    return extra

/-- Receives one block and answers it if it is a request that is answered on the way. The result is
how long to wait for the next one, or the block if it is for the exchange. -/
def awaitRound (timeout : Nanos) : Step L (Nanos ⊕ Inbound) := do
  let inbound ← receiveBlock (← waitTime timeout)
  let s ← get
  match inbound.control with
  | .supervisory .wtx false =>
    let multiplier := s.frame.used.getD inbound.start 0
    let extra ← extendWait multiplier
    sendControl (s.codec.make (.response .wtx) [multiplier])
    return .inl extra
  | .supervisory .ifs false =>
    -- a request that names no size is not one, and is left to the exchange to refuse
    if inbound.length = 0 then return .inr inbound
    let size := ((s.frame.used.take inbound.stop).drop inbound.start).take 2
    sendControl (s.codec.make (.response .ifs) size)
    return .inl s.settings.blockTimeout
  | _ => return .inr inbound

/-- Waits for a block that is for the exchange. Every request that is answered on the way takes
something off the backlog of the link, so there is a round for each and one more. -/
def awaitBlock : Step L Inbound := do
  let s ← get
  loop awaitRound (Link.backlog s.link + 1) s.settings.blockTimeout

end SecureElement.Step
