import SecureElement.Proxy.Network

/-!
# Conversations

A network whose replies become known one at a time. What is known so far is a list;
the first call beyond it is kept as a **question**, and whatever is computed after
that is of no account. Once the reply to the question is known too, the same
computation over the longer list gets one call further.

In this way a program over networks is run against a real connection: ask, add the
reply, start again, until no question is left.
-/

namespace SecureElement.Proxy

/-- A call whose reply is not known yet. -/
inductive Question where
  | connect
  | receive (length : Nat) (limit : Nanos)
  | send (bytes : Bytes) (limit : Nanos)
  | shutdown
  deriving Repr, DecidableEq

/-- The reply to a call: what was received or taken, if anything, and the time by then. -/
structure Reply where
  /-- The octets that the call moved, or its error. -/
  outcome : Except Network.Error Bytes
  time : Nanos
  deriving Repr

/-- A network whose replies become known one at a time. -/
structure Conversation where
  /-- The replies that are known and not used yet. -/
  replies : List Reply := []
  /-- The first call without a known reply. -/
  question : Option Question := none
  receiveLimit : Nanos := 0
  sendLimit : Nanos := 0
  clock : Nanos := 0
  deriving Repr

namespace Conversation

/-- Makes a call: takes its reply, or keeps it as the question if it is the first without one. -/
def ask (q : Question) (c : Conversation) : Except Network.Error Bytes × Conversation :=
  match c.replies with
  | reply :: rest => (reply.outcome, { c with replies := rest, clock := reply.time })
  | [] => (.error .brokenPipe, { c with question := c.question <|> some q })

/-- The octets that a reply moves. -/
def size (r : Reply) : Nat :=
  match r.outcome with
  | .ok bytes => bytes.length
  | .error _ => 0

/-- How often a reply says that its call was interrupted. -/
def interruption (r : Reply) : Nat :=
  match r.outcome with
  | .error .interrupted => 1
  | _ => 0

instance : Network Conversation where
  connect c :=
    let (outcome, c) := c.ask .connect
    (outcome.map fun _ => (), c)
  limitReceive limit c := { c with receiveLimit := limit }
  limitSend limit c := { c with sendLimit := limit }
  receive n c := c.ask (.receive n c.receiveLimit)
  send bytes c :=
    let (outcome, c) := c.ask (.send bytes c.sendLimit)
    (outcome.map List.length, c)
  shutdown c := (c.ask .shutdown).2
  now c := c.clock
  backlog c := c.replies.foldr (fun r n => size r + n) 0
  interruptions c := c.replies.foldr (fun r n => interruption r + n) 0

end Conversation

end SecureElement.Proxy
