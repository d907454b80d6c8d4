import SecureElement.Link.Basic

/-!
# Rehearsed links

A link whose behaviour is laid down beforehand: what each attempt to open it, each
write and each read will come to, and how long it takes. Every finite behaviour of
a link is such a rehearsal, so this is the link on which a session is tried out.

Reads are laid down as deliveries. A delivery may be handed out in pieces, at most
`chunk` octets at a time; an empty one makes a single read that brings nothing.
-/

namespace SecureElement.Link

/-- A fault laid down beforehand. -/
inductive Upset where
  | fault (fault : Fault)
  /-- All of the time allowed passes, and then nothing has happened. -/
  | silence
  deriving Repr, DecidableEq

/-- What comes of one write. -/
structure Writing where
  delay : Nanos := 0
  /-- How it fails, or how many octets it claims to take; without a number it takes all. -/
  outcome : Except Upset (Option Nat) := .ok none
  deriving Repr

/-- Octets on their way to the reader. -/
structure Delivery where
  bytes : Bytes
  /-- How many of them one read brings at most. -/
  chunk : Option Nat
  deriving Repr, DecidableEq

/-- What the next read that needs something new comes to. -/
structure Reading where
  delay : Nanos := 0
  /-- How it fails, or what becomes readable. -/
  outcome : Except Upset Delivery
  deriving Repr

/-- The octets that a reading makes readable. -/
def Reading.size (r : Reading) : Nat :=
  match r.outcome with
  | .ok d => d.bytes.length
  | .error _ => 0

/-- A link whose behaviour is laid down beforehand. -/
structure Rehearsal where
  /-- The attempts to open: a fault, or success. Once they are used up all succeed. -/
  openings : List (Option Upset) := []
  /-- The writes. Once they are used up all octets are taken. -/
  writings : List Writing := []
  /-- The reads. Once they are used up nothing arrives. -/
  readings : List Reading := []
  /-- What has become readable and was not read yet. -/
  current : Option Delivery := none
  clock : Nanos := 0
  deriving Repr

namespace Rehearsal

/-- The longest time that silence lasts. -/
def longestSilence : Nanos := 3600 * Time.second

/-- What an upset does to a call that was allowed some time. -/
def upset (r : Rehearsal) (timeout : Nanos) : Upset → Fault × Rehearsal
  | .fault fault => (fault, r)
  | .silence => (.timeout, { r with clock := r.clock + min timeout longestSilence })

/-- Hands out the next piece of a delivery. -/
def deliver (r : Rehearsal) (n : Nat) (d : Delivery) : Bytes × Rehearsal :=
  let size := min n (d.chunk.getD n)
  let rest := d.bytes.drop size
  (d.bytes.take size,
    { r with current := if rest.isEmpty then none else some { d with bytes := rest } })

/-- The octets that are still to be read. -/
def unread (r : Rehearsal) : Nat :=
  (r.current.map (·.bytes.length)).getD 0
    + r.readings.foldr (fun reading n => reading.size + n) 0

def extend (r : Rehearsal) (openings : List (Option Upset)) (writings : List Writing)
    (readings : List Reading) : Rehearsal :=
  { r with
    openings := r.openings ++ openings
    writings := r.writings ++ writings
    readings := r.readings ++ readings }

def bringUp (r : Rehearsal) : Except Fault Unit × Rehearsal :=
  match r.openings with
  | some u :: rest =>
    let (fault, r) := { r with openings := rest }.upset 0 u
    (.error fault, r)
  | none :: rest => (.ok (), { r with openings := rest })
  | [] => (.ok (), r)

def write (bytes : Bytes) (timeout : Nanos) (r : Rehearsal) : Except Fault Nat × Rehearsal :=
  match r.writings with
  | [] => (.ok bytes.length, r)
  | w :: rest =>
    let r := { r with writings := rest, clock := r.clock + w.delay }
    match w.outcome with
    | .error u =>
      let (fault, r) := r.upset timeout u
      (.error fault, r)
    | .ok taken => (.ok (taken.getD bytes.length), r)

def read (n : Nat) (timeout : Nanos) (r : Rehearsal) : Except Fault Bytes × Rehearsal :=
  match r.current, r.readings with
  | some d, _ =>
    let (bytes, r) := r.deliver n d
    (.ok bytes, r)
  | none, [] => (.error .timeout, r)
  | none, reading :: rest =>
    let r := { r with readings := rest, clock := r.clock + reading.delay }
    match reading.outcome with
    | .error u =>
      let (fault, r) := r.upset timeout u
      (.error fault, r)
    | .ok d =>
      let (bytes, r) := r.deliver n d
      (.ok bytes, r)

instance : Link Rehearsal where
  bringUp := bringUp
  write := write
  read := read
  release r := r
  now r := r.clock
  backlog r := r.unread

end Rehearsal

end SecureElement.Link
