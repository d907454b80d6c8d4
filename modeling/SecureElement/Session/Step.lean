import SecureElement.Session.State

/-!
# Steps of an exchange

A step changes the state of a session and ends in a value or in a `Stop`. The state
that a step leaves behind counts in both cases: what was sent before a fault stays
sent.

There are three ways to stop, and they are kept apart:

* `because` carries a fault of the exchange, which whoever runs the step may catch;
* `crashed` is the end of a call on the spot, with nothing tidied up: a place in the
  receive frame that is no longer there, a count that cannot go on, or a buffer that
  no memory can hold;
* `stalled` means that the peer went on for longer than the backlog of the link
  allows. No link whose backlog is true to its name brings it about.

`Step.loop` is the only loop, and its number of rounds is fixed beforehand.
-/

namespace SecureElement

/-- How a step ends when it has no value. -/
inductive Stop (ε : Type) where
  | because (reason : ε)
  | crashed
  | stalled
  deriving Repr, DecidableEq

/-- A stop with another reason. -/
def Stop.map {ε ε' : Type} (f : ε → ε') : Stop ε → Stop ε'
  | because reason => because (f reason)
  | crashed => crashed
  | stalled => stalled

/-- A change of a session that ends in a value or a stop. -/
abbrev Action (ε L α : Type) := EStateM (Stop ε) (Session L) α

/-- A step of an exchange, which faults may interrupt. -/
abbrev Step (L α : Type) := Action Setback L α

/-- A whole call, which ends in a value or in what the caller is told. -/
abbrev Call (L α : Type) := Action Failure L α

namespace Action

variable {ε L α : Type}

def fail (reason : ε) : Action ε L α := throw (.because reason)

def crash : Action ε L α := throw .crashed

def onLink (f : L → α × L) : Action ε L α := fun s =>
  let (a, link) := f s.link
  .ok a { s with link }

def count (f : Statistics → Statistics) : Action ε L Unit :=
  modify fun s => { s with statistics := f s.statistics }

/-- Goes from one status to another. A change that the table does not allow ends the call. -/
def moveTo (status : Status) : Action ε L Unit := do
  if (← get).status.allows status then modify fun s => { s with status }
  else crash

end Action

namespace Step

variable {L σ α : Type}

/-- A step whose faults are values. The other ways to stop pass through. -/
def attempt (step : Step L α) : Step L (Except Setback α) := fun s =>
  match step s with
  | .ok a s => .ok (.ok a) s
  | .error (.because setback) s => .ok (.error setback) s
  | .error .crashed s => .error .crashed s
  | .error .stalled s => .error .stalled s

/-- A step inside a call, which goes on after a value in one way and after a fault in another. The
other ways to stop pass through. -/
def conclude {β : Type} (step : Step L α) (onValue : α → Call L β) (onFault : Setback → Call L β) :
    Call L β := fun s =>
  match step s with
  | .ok a s => onValue a s
  | .error (.because setback) s => onFault setback s
  | .error .crashed s => .error .crashed s
  | .error .stalled s => .error .stalled s

/-- Repeats a step until it has a value, for at most so many rounds; `.inl` starts the next. -/
def loop (round : σ → Step L (σ ⊕ α)) : Nat → σ → Step L α
  | 0, _ => throw .stalled
  | rounds + 1, state => do
    match ← round state with
    | .inl state => loop round rounds state
    | .inr a => return a

/-- Charges one more try to the current block. A major setback passes, and so does a minor one once
the tries are used up: it then counts as major. -/
def charge : Setback → Step L Unit
  | .major failure => Action.fail (.major failure)
  | .minor failure => do
    let s ← get
    -- the count is a fixed number of bits wide, and its overflow is not caught
    if s.retries = Session.counterMax then Action.crash
    set { s with retries := s.retries + 1 }
    if s.settings.blockRetransmits < s.retries + 1 then Action.fail (.major failure)
    Action.count fun c => { c with retransmissions := c.retransmissions + 1 }

/-- A step that is tried once. A fault of it is charged. -/
def orCharge (step : Step L Unit) : Step L Unit := do
  match ← attempt step with
  | .ok () => return
  | .error setback => charge setback

end Step

end SecureElement
