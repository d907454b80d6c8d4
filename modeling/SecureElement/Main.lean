import SecureElement.Console.Program
import SecureElement.Proxy.Conversation
import Std.Async.Select
import Std.Async.TCP
import Std.Async.Timer

/-!
# The tool as a program

The outer layer of the command line tool: it talks to the proxy, reads lines and
prints. What to say, to either side, is decided in `Console.Program` and
`Console.Shell`; here a `Conversation` is kept going until no question is left.
-/

namespace SecureElement.Console

open Proxy Std.Async

/-- The connection to the proxy, while there is one. -/
structure Wire where
  socket : IO.Ref (Option TCP.Socket.Client)
  address : Address
  /-- When the clock was started. -/
  origin : Nat

namespace Wire

/-- An address as the system wants it. -/
def systemAddress (a : Address) : Std.Net.SocketAddress :=
  let port := UInt16.ofNat a.port
  match a.host with
  | .four n =>
    match (Address.octets n).map UInt8.ofNat with
    | [a, b, c, d] => .v4 ⟨.ofParts a b c d, port⟩
    | _ => .v4 ⟨.ofParts 0 0 0 0, port⟩
  | .six groups _ =>
    match groups.map UInt16.ofNat with
    | [a, b, c, d, e, f, g, h] => .v6 ⟨.ofParts a b c d e f g h, port⟩
    | _ => .v6 ⟨.ofParts 0 0 0 0 0 0 0 0, port⟩

/-- The errors of the system, as far as they are told apart. -/
def networkError : IO.Error → Network.Error
  | .interrupted .. => .interrupted
  | .timeExpired .. => .timedOut
  | .resourceVanished .. => .connectionReset
  | .invalidArgument .. => .invalidArgument
  | .resourceExhausted .. => .noBufferSpace
  | .noSuchThing .. => .connectionRefused
  | .unexpectedEof => .connectionReset
  | _ => .inputOutput

/-- Receives within a time limit; no octets mean the end of the stream. -/
def receive (socket : TCP.Socket.Client) (n : Nat) (limit : Nanos) :
    IO (Except Network.Error Bytes) := do
  let pause ← (Selector.sleep (.ofNat (limit / Time.milli + 1))).block
  let arrived ← (Selectable.one #[
    .case (socket.recvSelector (UInt64.ofNat n)) fun bytes =>
      pure (Except.ok ((bytes.map ByteArray.toList).getD [])),
    .case pause fun () => pure (Except.error Network.Error.wouldBlock)]).block
  return arrived

/-- Puts a question to the system. -/
def put (w : Wire) : Question → IO (Except Network.Error Bytes)
  | .connect => do
    let socket ← TCP.Socket.Client.mk
    (socket.connect (systemAddress w.address)).block
    socket.noDelay
    w.socket.set (some socket)
    return .ok []
  | .receive n limit => do
    let some socket ← w.socket.get | return .error .brokenPipe
    receive socket n limit
  | .send bytes _ => do
    let some socket ← w.socket.get | return .error .brokenPipe
    (socket.send bytes.toByteArray).block
    return .ok bytes
  | .shutdown => do
    let some socket ← w.socket.get | return .ok []
    w.socket.set none
    (socket.shutdown).block
    return .ok []

/-- The reply to a question. -/
def reply (w : Wire) (q : Question) : IO Reply := do
  let outcome ← try w.put q catch e => pure (.error (networkError e))
  return { outcome, time := (← IO.monoNanosNow) - w.origin }

/-- Runs a computation over a conversation, with more and more replies, until it leaves no
question. -/
partial def settle {α : Type} (w : Wire) (compute : List Reply → α × Conversation)
    (known : List Reply) : IO α := do
  let (a, conversation) := compute known
  match conversation.question with
  | none => return a
  | some q => settle w compute (known ++ [← w.reply q])

end Wire

/-- A session on which replies are known. -/
def withReplies (s : Session (Client Conversation)) (replies : List Reply) :
    Session (Client Conversation) :=
  { s with link.net.replies := replies }

/-- Prints how the tool ended. -/
def finish (outcome : Outcome) : IO UInt32 := do
  IO.print outcome.out
  IO.eprint outcome.err
  return UInt32.ofNat outcome.exit

/-- Reads and obeys lines until the shell ends. -/
partial def converse (w : Wire) (s : Session (Client Conversation)) :
    IO (Session (Client Conversation)) := do
  let output ← IO.getStdout
  output.putStr Shell.prompt
  output.flush
  let text ← try (← IO.getStdin).getLine catch _ => pure ""
  if text.isEmpty then return s
  let answer ← w.settle (fun replies =>
    match Shell.obey (withReplies s replies) (.ofLine text) with
    | none => (none, {})
    | some (said, s) => (some (said, s), s.link.net)) []
  match answer with
  | none => return s
  | some (said, s) =>
    output.putStr said
    converse w s

/-- Does what a command asks for on an open session, and lets go of it. -/
def serve (w : Wire) (s : Session (Client Conversation)) (command : Command) : IO Outcome := do
  let (outcome, s) ← match command with
    | .shell => do
      IO.print Shell.greeting
      let s ← converse w s
      pure ({ exit := 0, out := Shell.farewell }, s)
    | command => w.settle (fun replies =>
        let (outcome, s) := Program.perform (withReplies s replies) [] command
        ((outcome, s), s.link.net)) []
  w.settle (fun replies => (outcome, ((withReplies s replies).drop).net)) []

/-- The tool from its arguments to its end. -/
def runTool (arguments : List String) : IO Outcome := do
  match Invocation.ofArguments arguments with
  | .run options command =>
    let address := (Address.parse (options.proxy.getD Program.defaultProxy)).toOption.getD default
    let w : Wire := { socket := ← IO.mkRef none, address, origin := ← IO.monoNanosNow }
    let opened ← w.settle (fun replies =>
      let opened := Program.start options ({ replies } : Conversation)
      (opened, match opened with
        | .error (_, net) => net
        | .ok s => s.link.net)) []
    match opened with
    | .error (outcome, _) => return outcome
    | .ok s => serve w s command
  | _ => return (Program.run arguments [] ({} : Conversation)).1

end SecureElement.Console

def main (arguments : List String) : IO UInt32 := do
  SecureElement.Console.finish (← SecureElement.Console.runTool arguments)
