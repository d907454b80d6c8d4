/-!
# Spans and instants

Time is counted in whole nanoseconds. Two limits are part of the behaviour, since
running into them changes what a session does:

* a **span** holds 64-bit seconds and a fraction, so `longest` is its largest value
  and sums and multiples that pass it do not exist;
* an **instant** holds signed 64-bit seconds, so a deadline past it does not exist
  and the wait it would have bounded has no bound.
-/

namespace SecureElement

/-- A span of time, or an instant as the span since the clock started, in nanoseconds. -/
abbrev Nanos := Nat

namespace Time

def micro : Nanos := 1000

def milli : Nanos := 1000000

def second : Nanos := 1000000000

/-- The largest span: as many seconds as 64 bits count, and the fraction after them. -/
def longest : Nanos := 0x10000000000000000 * second - 1

/-- The sum of two spans, if there is such a span. -/
def add? (a b : Nanos) : Option Nanos := if a + b ≤ longest then some (a + b) else none

/-- A span taken `n` times, if there is such a span. -/
def scale? (n : Nat) (d : Nanos) : Option Nanos := if n * d ≤ longest then some (n * d) else none

/-- The last instant: as many seconds as 63 bits count, and the fraction after them. -/
def lastInstant : Nanos := 0x8000000000000000 * second - 1

/-- The instant `d` after `t`, if there is such an instant. -/
def after? (t d : Nanos) : Option Nanos := if t + d ≤ lastInstant then some (t + d) else none

/-- The digits of `fraction`, read as that many `places` behind the point, without the zeros
at the end. -/
def fractionDigits (places fraction : Nat) : List Char :=
  let digits := Nat.toDigits 10 fraction
  let padded := List.replicate (places - digits.length) '0' ++ digits
  (padded.reverse.dropWhile (· = '0')).reverse

/-- `amount` parts of which ten to the power `places` make a whole, as a decimal number without
zeros at the end. -/
def decimal (places amount : Nat) : String :=
  let unit := Nat.pow 10 places
  match fractionDigits places (amount % unit) with
  | [] => toString (amount / unit)
  | digits => toString (amount / unit) ++ "." ++ String.ofList digits

/-- A span in the largest unit that it fills, from seconds down to nanoseconds. -/
def render (d : Nanos) : String :=
  if second ≤ d then decimal 9 d ++ "s"
  else if milli ≤ d then decimal 6 d ++ "ms"
  else if micro ≤ d then decimal 3 d ++ "µs"
  else toString d ++ "ns"

end Time

end SecureElement
