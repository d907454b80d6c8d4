import SecureElement.Bytes

/-!
# Addresses of a proxy

A proxy is named by a host and a port, `host:port`. The host is a number in one of
the usual notations:

* four decimal octets, `127.0.0.1`;
* eight groups of hexadecimal digits in brackets, `[2001:db8::1]`, where `::` stands
  for a row of zero groups, the last two groups may be written as four octets, and
  a `%` may announce the number of an interface.

Whatever is not of this form is split at its last colon. Both kinds of host are
then read once more in the looser notation of network tools: groups without
brackets, with the number of an interface or without, and one to four numbers, octal
and hexadecimal ones included, the last of which fills all the octets that are left.
Names of hosts and of interfaces are not looked up.

An address is shown in its shortest form: the longest row of at least two zero
groups is left out.
-/

namespace SecureElement.Proxy

inductive Host where
  /-- Four octets, as one number. -/
  | four (number : Nat)
  /-- Eight groups, and the number of an interface, or zero. -/
  | six (groups : List Nat) (scope : Nat)
  deriving Repr, DecidableEq, Inhabited

structure Address where
  host : Host
  port : Nat
  deriving Repr, DecidableEq, Inhabited

namespace Address

/-! ## Showing -/

/-- The octets of a number with four of them, high one first. -/
def octets (n : Nat) : List Nat :=
  [n / 0x1000000 % 256, n / 0x10000 % 256, n / 0x100 % 256, n % 256]

def renderFour (n : Nat) : String := ".".intercalate ((octets n).map toString)

def renderGroups (groups : List Nat) : String :=
  ":".intercalate (groups.map fun g => String.ofList (Nat.toDigits 16 g))

/-- How many zeros a list starts with. -/
def zeroRun (groups : List Nat) : Nat := (groups.takeWhile (· = 0)).length

/-- The place and length of the longest row of zeros, the first of several. -/
def longestZeroRun (groups : List Nat) : Nat × Nat :=
  (List.range groups.length).foldl
    (fun best i =>
      let n := zeroRun (groups.drop i)
      if best.2 < n then (i, n) else best)
    (0, 0)

/-- Eight groups in their shortest form. Four octets that stand in for the last two groups of a
mapped address are shown as such. -/
def renderSix (groups : List Nat) : String :=
  match groups with
  | [0, 0, 0, 0, 0, 0xFFFF, high, low] => "::ffff:" ++ renderFour (high * 65536 + low)
  | _ =>
    let (start, n) := longestZeroRun groups
    if 1 < n then renderGroups (groups.take start) ++ "::" ++ renderGroups (groups.drop (start + n))
    else renderGroups groups

/-- An address in its shortest form. -/
def render (a : Address) : String :=
  match a.host with
  | .four n => renderFour n ++ ":" ++ toString a.port
  | .six groups 0 => "[" ++ renderSix groups ++ "]:" ++ toString a.port
  | .six groups scope =>
    "[" ++ renderSix groups ++ "%" ++ toString scope ++ "]:" ++ toString a.port

/-! ## Reading -/

/-- A reader takes characters from the front of a text. -/
abbrev Reader := StateT (List Char) Option

namespace Reader

/-- The value of a digit in either case. -/
def digit? (radix : Nat) (c : Char) : Option Nat :=
  let value :=
    if '0' ≤ c ∧ c ≤ '9' then some (c.toNat - '0'.toNat)
    else if 'a' ≤ c ∧ c ≤ 'z' then some (c.toNat - 'a'.toNat + 10)
    else if 'A' ≤ c ∧ c ≤ 'Z' then some (c.toNat - 'A'.toNat + 10)
    else none
  value.filter (· < radix)

/-- The number that digits stand for, or `bound` if it is not below that. -/
def value (radix bound : Nat) (digits : List Char) : Nat :=
  digits.foldl (fun n c => min bound (n * radix + (digit? radix c).getD 0)) 0

def char (c : Char) : Reader Unit := fun
  | d :: rest => if c = d then some ((), rest) else none
  | [] => none

/-- A number of all the digits that come, `below` a bound. There may be a limit to how many digits
there are, and a zero in front of others may be forbidden. -/
def number (radix below : Nat) (digits : Option Nat) (leadingZero : Bool) : Reader Nat := fun cs =>
  let (taken, rest) := cs.span fun c => (digit? radix c).isSome
  let n := value radix below taken
  if taken = [] ∨ digits.any (· < taken.length) ∨ below ≤ n then none
  else if !leadingZero ∧ 1 < taken.length ∧ taken.head? = some '0' then none
  else some (n, rest)

/-- Four decimal octets, as one number. -/
def four : Reader Nat := do
  let octet := number 10 256 (some 3) false
  let a ← octet
  char '.'
  let b ← octet
  char '.'
  let c ← octet
  char '.'
  let d ← octet
  return a * 0x1000000 + b * 0x10000 + c * 0x100 + d

/-- A reader behind a colon, except in first place. -/
def separated {α : Type} (first : Bool) (reader : Reader α) : Reader α := do
  if !first then char ':'
  reader

/-- As many groups as there are, up to a number of them. Four octets may stand in for the last two;
the result tells whether they did. -/
def groups : (room : Nat) → (first : Bool) → List Char → (List Nat × Bool) × List Char
  | 0, _, cs => (([], false), cs)
  | room + 1, first, cs =>
    match if 0 < room then separated first four cs else none with
    | some (n, cs) => (([n / 65536, n % 65536], true), cs)
    | none =>
      match separated first (number 16 65536 (some 4) true) cs with
      | none => (([], false), cs)
      | some (g, cs) =>
        let ((more, octets), cs) := groups room false cs
        ((g :: more, octets), cs)

/-- Eight groups, or fewer with a row of zeros left out. -/
def six : Reader (List Nat) := fun cs =>
  let ((front, octets), rest) := groups 8 true cs
  if front.length = 8 then some (front, rest)
  else if octets then none
  else
    match rest with
    | ':' :: ':' :: rest =>
      let ((back, _), rest) := groups (7 - front.length) true rest
      some (front ++ List.replicate (8 - front.length - back.length) 0 ++ back, rest)
    | _ => none

/-- The port behind a colon. -/
def port : Reader Nat := do
  char ':'
  number 10 65536 none true

def addressFour : Reader Address := do
  let n ← four
  return { host := .four n, port := ← port }

def addressSix : Reader Address := do
  char '['
  let groups ← six
  let scope ← (do char '%'; number 10 0x100000000 none true : Reader Nat) <|> pure 0
  char ']'
  return { host := .six groups scope, port := ← port }

/-- All of a text, or nothing. -/
def whole? {α : Type} (reader : Reader α) (cs : List Char) : Option α :=
  match reader cs with
  | some (a, []) => some a
  | _ => none

end Reader

/-- One of the numbers in the looser notation of four octets: hexadecimal behind `0x`, octal behind
`0`, decimal otherwise. -/
def looseNumber? (cs : List Char) : Option Nat :=
  match cs with
  | '0' :: 'x' :: digits | '0' :: 'X' :: digits =>
    Reader.whole? (Reader.number 16 0x100000000 none true) digits
  | '0' :: digits =>
    if digits = [] then some 0 else Reader.whole? (Reader.number 8 0x100000000 none true) digits
  | digits => Reader.whole? (Reader.number 10 0x100000000 none true) digits

/-- Puts numbers together to four octets: each but the last is one octet. -/
def assemble? : (room : Nat) → List Nat → Option Nat
  | room, [last] => if last < Nat.pow 256 room then some last else none
  | room + 1, n :: rest =>
    if n < 256 then (assemble? room rest).map (n * Nat.pow 256 room + ·) else none
  | _, _ => none

/-- Eight groups without brackets, and behind a percent sign the number of an interface. -/
def scopedGroups? (text : List Char) : Option Host :=
  match text.span (· ≠ '%') with
  | (groups, []) => (Reader.whole? Reader.six groups).map (Host.six · 0)
  | (groups, _ :: scope) => do
    let groups ← Reader.whole? Reader.six groups
    let scope ← Reader.whole? (Reader.number 10 0x100000000 none true) scope
    return .six groups scope

/-- A host in the looser notation. -/
def looseHost? (text : List Char) : Option Host :=
  match (text.splitOn '.').mapM looseNumber? with
  | some numbers => (assemble? 4 numbers).map Host.four
  | none => scopedGroups? text

/-- A port in the looser notation, which allows a sign. -/
def loosePort? (text : List Char) : Option Nat :=
  match text with
  | '+' :: digits => Reader.whole? (Reader.number 10 65536 none true) digits
  | digits => Reader.whole? (Reader.number 10 65536 none true) digits

/-- Splits a text at its last colon. -/
def splitLast? (text : List Char) : Option (List Char × List Char) :=
  match text.reverse.span (· ≠ ':') with
  | (back, _ :: front) => some (front.reverse, back.reverse)
  | (_, []) => none

/-- Why a text is no address. -/
inductive Error where
  | noPort
  /-- What follows the last colon is no port. -/
  | badPort
  /-- There is a zero character in the host. -/
  | zeroInHost
  | unknownHost
  deriving Repr, DecidableEq

def Error.message : Error → String
  | noPort => "invalid socket address"
  | badPort => "invalid port value"
  | zeroInHost => "file name contained an unexpected NUL byte"
  | unknownHost => "failed to lookup address information: Name or service not known"

def parse (text : String) : Except Error Address :=
  let cs := text.toList
  match Reader.whole? (Reader.addressFour <|> Reader.addressSix) cs with
  | some address => .ok address
  | none =>
    match splitLast? cs with
    | none => .error .noPort
    | some (host, port) =>
      match loosePort? port with
      | none => .error .badPort
      | some port =>
        if '\x00' ∈ host then .error .zeroInHost
        else
          match looseHost? host with
          | none => .error .unknownHost
          | some host => .ok { host, port }

end Address

end SecureElement.Proxy
