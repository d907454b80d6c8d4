/-!
# Arguments of the command line

    [-p | --proxy ADDRESS] [-v | --verbose] [--checksum crc|lrc]
    [--block-timeout-ms N] [--resync]  atr | send APDU... | shell

Arguments are read from left to right, and the first that makes no sense ends the
reading; so does a request for help or for the version. An option takes its value
from the same argument, behind `=` or directly behind its letter, or from the next
one, which must not look like an option. No option may be given twice.
-/

namespace SecureElement.Console

/-- What the tool is to do on an open session. -/
inductive Command where
  | answer
  | send (commands : List String)
  | shell
  deriving Repr, DecidableEq, Inhabited

/-- The options, as far as they were given. -/
structure Options where
  proxy : Option String := none
  verbose : Bool := false
  /-- Whether blocks end in an LRC. -/
  lrc : Option Bool := none
  /-- The time to wait for a block, in milliseconds. -/
  blockTimeout : Option Nat := none
  /-- Whether the session opens with a resynchronisation. -/
  resync : Bool := false
  deriving Repr, DecidableEq, Inhabited

/-- What the arguments ask for. -/
inductive Invocation where
  | run (options : Options) (command : Command)
  | help
  | version
  /-- Nothing that makes sense. -/
  | misuse
  deriving Repr, DecidableEq, Inhabited

namespace Arguments

/-- The options that take a value. -/
inductive Valued where
  | proxy
  | checksum
  | blockTimeout
  deriving Repr, DecidableEq

/-- The options that do not. -/
inductive Switch where
  | verbose
  | resync
  | help
  | version
  deriving Repr, DecidableEq

def long? : String → Option (Valued ⊕ Switch)
  | "proxy" => some (.inl .proxy)
  | "checksum" => some (.inl .checksum)
  | "block-timeout-ms" => some (.inl .blockTimeout)
  | "verbose" => some (.inr .verbose)
  | "resync" => some (.inr .resync)
  | "help" => some (.inr .help)
  | "version" => some (.inr .version)
  | _ => none

def short? : Char → Option (Valued ⊕ Switch)
  | 'p' => some (.inl .proxy)
  | 'v' => some (.inr .verbose)
  | 'h' => some (.inr .help)
  | 'V' => some (.inr .version)
  | _ => none

/-- What one argument looks like. -/
inductive Shape where
  /-- Two dashes alone: what follows are no options. -/
  | escape
  /-- A long option, with the value behind `=` if there is one. -/
  | long (name : String) (value : Option String)
  | short (letters : List Char)
  | plain
  deriving Repr, DecidableEq

/-- What an argument looks like. A dash alone is plain. -/
def shape (argument : String) : Shape :=
  match argument.toList with
  | ['-', '-'] => .escape
  | '-' :: '-' :: name =>
    match name.span (· ≠ '=') with
    | (name, []) => .long (String.ofList name) none
    | (name, _ :: value) => .long (String.ofList name) (some (String.ofList value))
  | '-' :: c :: letters => .short (c :: letters)
  | _ => .plain

/-- A number below `2 ^ 64` in decimal digits, behind a sign perhaps. -/
def number? (text : String) : Option Nat :=
  let digits := match text.toList with
    | '+' :: digits => digits
    | digits => digits
  if digits = [] ∨ digits.any (!·.isDigit) then none
  else
    -- cut off at the bound, so that many digits make no large number
    let bound := 0x10000000000000000
    let n := digits.foldl (fun n c => min bound (n * 10 + (c.toNat - '0'.toNat))) 0
    if n < bound then some n else none

/-- Options with one more value; `none` if it makes no sense or comes a second time. -/
def setValue (o : Options) : Valued → String → Option Options
  | .proxy, text => if o.proxy.isSome then none else some { o with proxy := some text }
  | .checksum, text =>
    if o.lrc.isSome then none
    else if text = "crc" then some { o with lrc := some false }
    else if text = "lrc" then some { o with lrc := some true }
    else none
  | .blockTimeout, text =>
    if o.blockTimeout.isSome then none
    else (number? text).map fun n => { o with blockTimeout := some n }

/-- Options with one more switch, or the end of the reading. -/
def setSwitch (o : Options) : Switch → Except Invocation Options
  | .verbose => if o.verbose then .error .misuse else .ok { o with verbose := true }
  | .resync => if o.resync then .error .misuse else .ok { o with resync := true }
  | .help => .error .help
  | .version => .error .version

/-- What is left to do after one argument. -/
inductive Pending where
  | nothing
  /-- An option waits for its value. -/
  | value (option : Valued)
  deriving Repr, DecidableEq

/-- Reads a row of letters. The value of an option is whatever follows its letter. -/
def letters (o : Options) : List Char → Except Invocation (Options × Pending)
  | [] => .ok (o, .nothing)
  | c :: rest =>
    match short? c with
    | none => .error .misuse
    | some (.inr switch) => do letters (← setSwitch o switch) rest
    | some (.inl option) =>
      match rest with
      | [] => .ok (o, .value option)
      | '=' :: value => set option (String.ofList value)
      | value => set option (String.ofList value)
where
  /-- An option with its value. -/
  set (option : Valued) (value : String) : Except Invocation (Options × Pending) :=
    match setValue o option value with
    | some o => .ok (o, .nothing)
    | none => .error .misuse

/-- Reads what follows `send`: anything that does not look like an option, or anything at all behind
two dashes. -/
def commands (escaped : Bool) (read : List String) : List String → Invocation ⊕ List String
  | [] => .inr read.reverse
  | argument :: rest =>
    if escaped then commands true (argument :: read) rest
    else
      match shape argument with
      | .escape => commands true read rest
      | .long "help" none => .inl .help
      | .long _ _ => .inl .misuse
      | .short ('h' :: _) => .inl .help
      | .short _ => .inl .misuse
      | .plain => commands false (argument :: read) rest

/-- Reads what follows the name of a command that takes nothing. Two dashes alone are nothing. -/
def nothingMore (o : Options) (command : Command) : List String → Invocation
  | [] => .run o command
  | argument :: rest =>
    match shape argument with
    | .escape => if rest = [] then .run o command else .misuse
    | .long "help" none => .help
    | .short ('h' :: _) => .help
    | _ => .misuse

def command (o : Options) (name : String) (rest : List String) : Invocation :=
  match name with
  | "atr" => nothingMore o .answer rest
  | "shell" => nothingMore o .shell rest
  | "send" =>
    match commands false [] rest with
    | .inl invocation => invocation
    | .inr [] => .misuse
    | .inr read => .run o (.send read)
  | "help" =>
    match rest with
    | [] | ["atr"] | ["send"] | ["shell"] | ["help"] => .help
    | _ => .misuse
  | _ => .misuse

/-- Reads arguments up to the name of a command, and hands over from there. -/
def options (o : Options) (pending : Pending) : List String → Invocation
  | [] => .misuse
  | argument :: rest =>
    match shape argument, pending with
    | .plain, .nothing => command o argument rest
    | .plain, .value option =>
      match setValue o option argument with
      | some o => options o .nothing rest
      | none => .misuse
    | _, .value _ => .misuse
    | .escape, .nothing => .misuse
    | .short row, .nothing =>
      match letters o row with
      | .ok (o, pending) => options o pending rest
      | .error invocation => invocation
    | .long name value, .nothing =>
      match long? name, value with
      | none, _ => .misuse
      | some (.inr _), some _ => .misuse
      | some (.inr switch), none =>
        match setSwitch o switch with
        | .ok o => options o .nothing rest
        | .error invocation => invocation
      | some (.inl option), none => options o (.value option) rest
      | some (.inl option), some value =>
        match setValue o option value with
        | some o => options o .nothing rest
        | none => .misuse

end Arguments

def Invocation.ofArguments (arguments : List String) : Invocation :=
  Arguments.options {} .nothing arguments

end SecureElement.Console
