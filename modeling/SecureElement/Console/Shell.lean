import SecureElement.Console.Report
import SecureElement.Session.Calls
import SecureElement.Text.Blank

/-!
# The shell

The shell reads a line at a time. A line is the name of a command or a row of hex
digits, with blanks anywhere; what it does not understand it says so, and goes on.
It ends at `exit`, and where the input ends or is no longer text.

`Shell.obey` is the answer to one line. Whoever drives the shell prints
`Shell.prompt` before each line and `Shell.farewell` at the end.
-/

namespace SecureElement.Console.Shell

variable {L : Type} [Link L]

/-- What the shell says first. -/
def greeting : String :=
  line "APDU Shell - Enter commands in hex format or 'help' for assistance"
    ++ line "Example: 00A4040000"

/-- What stands in front of each line. -/
def prompt : String := "> "

def farewell : String := line "Goodbye!"

/-- What the shell understands. -/
def help : String :=
  String.join <| List.map line
    ["Commands:",
     "  <hex>     - Send APDU command",
     "  atr       - Display the answer to reset",
     "  reset     - Soft reset the secure element",
     "  resync    - Resynchronise the block sequence",
     "  end       - End the APDU session",
     "  stats     - Show link statistics",
     "  exit      - Exit the shell"]

/-- A line of the input. -/
inductive Order where
  | nothing
  | exit
  | help
  | answer
  | reset
  | resync
  | endApduSession
  | statistics
  | send (command : Bytes)
  | unknown
  deriving Repr, DecidableEq

/-- What a line says. Names of commands may be in either case. They hold ASCII letters only, and
none that a character outside ASCII has as its lower case. -/
def Order.ofLine (text : String) : Order :=
  let input := Text.trim text
  if input.isEmpty then .nothing
  else
    match input.map Char.toLower with
    | "exit" | "quit" | "q" => .exit
    | "help" | "?" => .help
    | "atr" => .answer
    | "reset" => .reset
    | "resync" => .resync
    | "end" => .endApduSession
    | "stats" => .statistics
    | _ =>
      match Hex.decode (Text.withoutBlanks input) with
      | .ok command => .send command
      | .error _ => .unknown

/-- How a call ended, in words. -/
def outcome {α : Type} (done : α → String) (trouble : String) :
    EStateM.Result (Stop Failure) (Session L) α → Option (String × Session L)
  | .ok a s => some (line (done a), s)
  | .error (.because failure) s => some (line (trouble ++ ": " ++ failure.message), s)
  | .error _ _ => none

/-- What the shell says to an order, and the session afterwards. There is no answer to the order to
end, nor after a call that broke off. -/
def obey (s : Session L) : Order → Option (String × Session L)
  | .nothing => some ("", s)
  | .exit => none
  | .help => some (help, s)
  | .answer => some (answerReport? s.answer, s)
  | .reset => outcome (fun () => "Reset successfully") "Error resetting" (Session.reset s)
  | .resync => outcome (fun () => "Resynchronised") "Error resynchronising" (Session.resync s)
  | .endApduSession =>
    outcome (fun () => "APDU session ended") "Error ending session" (Session.endApduSession s)
  | .statistics => some (statisticsReport s.statistics, s)
  | .send command => outcome Hex.encodeUpper "Command failed" (Session.transceive command s)
  | .unknown => some (line "Invalid hex input", s)

/-- The lines of an input. The last one need not be ended. -/
def rawLines (input : Bytes) : List Bytes :=
  let parts := input.splitOn 0x0A
  if parts.getLast? = some [] then parts.dropLast else parts

/-- The lines of an input up to the first that is no text. -/
def lines (input : Bytes) : List String :=
  ((rawLines input).map Text.Utf8.decode?).takeWhile Option.isSome |>.filterMap id

/-- What the shell has said after a row of lines, given what it had said before, and the session
afterwards. -/
def converse (said : String) (s : Session L) : List String → String × Session L
  | [] => (said ++ prompt ++ farewell, s)
  | text :: rest =>
    match obey s (.ofLine text) with
    | none => (said ++ prompt ++ farewell, s)
    | some (answer, s) => converse (said ++ prompt ++ answer) s rest

end SecureElement.Console.Shell
