import SecureElement.Console.Arguments
import SecureElement.Console.Shell
import SecureElement.Proxy.Client

/-!
# The command line tool

The tool opens a session through a proxy, does what its arguments ask for, and
closes the session. It ends with `0`, with `1` when something failed, or with `2`
when the arguments made no sense.

`Program.start` gets as far as an open session and says what is left to do, so that
a shell can be driven line by line; `Program.run` is the whole tool over an input
that is there from the start.
-/

namespace SecureElement.Console

/-- What the tool has said and how it ended. -/
structure Outcome where
  exit : Nat
  out : String := ""
  err : String := ""
  deriving Repr, DecidableEq

namespace Program

open Proxy (Network Client)

variable {N : Type} [Network N]

/-- The name and version of the tool. -/
def versionText : String := line "se05x-cli 0.1.0"

/-- How the tool is used. -/
def usageText : String := line "Usage: se05x [OPTIONS] <atr|send|shell>"

/-- Where the proxy is unless the arguments say otherwise. -/
def defaultProxy : String := "127.0.0.1:8050"

/-- The settings that options ask for. -/
def settings (o : Options) : Settings :=
  { epilogue := if o.lrc.getD false then .lrc else .crc16
    blockTimeout := o.blockTimeout.getD 1000 * Time.milli
    handshake := if o.resync then .resync else .softReset }

/-- The end after a failure, after some output. -/
def failed (diagnosis : String) (out : String := "") : Outcome :=
  { exit := 1, out, err := line ("Error: " ++ diagnosis) }

/-- The end of a call that stopped. One that broke off has no failure to show. -/
def stopped (stop : Stop Failure) (out : String) : Outcome :=
  match stop with
  | .because failure => failed failure.diagnosis out
  | .crashed | .stalled => { exit := 101, out }

/-- Sends commands one after the other, and shows their responses. The first failure ends it. -/
def sendAll (said : String) (s : Session (Client N)) :
    List String → Outcome × Session (Client N)
  | [] => ({ exit := 0, out := said }, s)
  | text :: rest =>
    match Hex.decode (Text.withoutBlanks text) with
    | .error error => (failed error.diagnosis said, s)
    | .ok command =>
      match Session.transceive command s with
      | .ok response s => sendAll (said ++ line (Hex.encodeUpper response)) s rest
      | .error stop s => (stopped stop said, s)

/-- An open session, if there can be one, or else the end of the tool. -/
def start (o : Options) (net : N) : Except (Outcome × N) (Session (Client N)) :=
  match Client.resolve net (o.proxy.getD defaultProxy) with
  | .error fault => .error (failed fault.diagnosis, net)
  | .ok client =>
    match Session.connect client (settings o) with
    | .error (stop, client) => .error (stopped stop "", client.net)
    | .ok (.error stop s) => .error (stopped stop "", s.drop.net)
    | .ok (.ok () s) => .ok s

/-- What a command does on an open session, given all of the input. -/
def perform (s : Session (Client N)) (input : Bytes) : Command → Outcome × Session (Client N)
  | .answer => ({ exit := 0, out := answerReport? s.answer }, s)
  | .send commands => sendAll "" s commands
  | .shell =>
    let (out, s) := Shell.converse Shell.greeting s (Shell.lines input)
    ({ exit := 0, out }, s)

/-- The tool from its arguments to its end. A session is closed at the end, or given up after a
failure, which lets go of its link just the same. -/
def run (arguments : List String) (input : Bytes) (net : N) : Outcome × N :=
  match Invocation.ofArguments arguments with
  | .misuse => ({ exit := 2, err := usageText }, net)
  | .help => ({ exit := 0, out := usageText }, net)
  | .version => ({ exit := 0, out := versionText }, net)
  | .run options command =>
    match start options net with
    | .error (outcome, net) => (outcome, net)
    | .ok s =>
      let (outcome, s) := perform s input command
      (outcome, s.drop.net)

end Program

end SecureElement.Console
