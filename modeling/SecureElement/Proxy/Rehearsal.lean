import SecureElement.Proxy.Network

/-!
# Rehearsed networks

A network whose behaviour is laid down beforehand. One stream of arrivals serves
all connections, in order, whichever connection is up when an arrival is due.

Once the arrivals are used up, and wherever silence is laid down, a receiving call
waits for its whole time limit. Time limits are kept in whole microseconds.
-/

namespace SecureElement.Proxy

/-- What a receiving call meets. -/
inductive Arrival where
  | bytes (bytes : Bytes)
  | delay (time : Nanos)
  /-- The stream ends, and stays ended until the next connection. -/
  | ending
  | failure (error : Network.Error)
  deriving Repr, DecidableEq

/-- The octets that an arrival brings. -/
def Arrival.size : Arrival → Nat
  | bytes b => b.length
  | _ => 0

/-- A network whose behaviour is laid down beforehand. -/
structure Rehearsal where
  /-- The attempts to connect: an error, or success. Once they are used up all succeed. -/
  connects : List (Option Network.Error) := []
  /-- What receiving calls meet. Once it is used up there is silence. -/
  arrivals : List Arrival := []
  /-- What comes of sending calls: an error, or a limit to how many octets are taken. Once they
  are used up all octets are taken. -/
  sends : List (Except Network.Error (Option Nat)) := []
  ended : Bool := false
  receiveLimit : Nanos := 0
  clock : Nanos := 0
  deriving Repr

namespace Rehearsal

/-- The longest time that silence lasts. -/
def longestSilence : Nanos := 3600 * Time.second

/-- A receiving call that nothing comes of before its time limit. -/
def silence (r : Rehearsal) : Except Network.Error Bytes × Rehearsal :=
  (.error .wouldBlock, { r with clock := r.clock + min r.receiveLimit longestSilence })

/-- A receiving call, given what it meets. -/
def receiveFrom (n : Nat) (r : Rehearsal) :
    List Arrival → Except Network.Error Bytes × Rehearsal
  | [] => { r with arrivals := [] }.silence
  | .bytes [] :: rest => receiveFrom n r rest
  | .bytes (b :: bs) :: rest =>
    let left := (b :: bs).drop n
    (.ok ((b :: bs).take n),
      { r with arrivals := if left.isEmpty then rest else .bytes left :: rest })
  | .delay time :: rest => receiveFrom n { r with clock := r.clock + time } rest
  | .ending :: rest => (.ok [], { r with arrivals := rest, ended := true })
  | .failure .wouldBlock :: rest => { r with arrivals := rest }.silence
  | .failure error :: rest => (.error error, { r with arrivals := rest })

def send (bytes : Bytes) (r : Rehearsal) : Except Network.Error Nat × Rehearsal :=
  match r.sends with
  | [] => (.ok bytes.length, r)
  | .error error :: rest => (.error error, { r with sends := rest })
  | .ok limit :: rest =>
    (.ok (min (limit.getD bytes.length) bytes.length), { r with sends := rest })

def connect (r : Rehearsal) : Except Network.Error Unit × Rehearsal :=
  match r.connects with
  | some error :: rest => (.error error, { r with connects := rest })
  | none :: rest => (.ok (), { r with connects := rest, ended := false })
  | [] => (.ok (), { r with ended := false })

/-- The octets that are still to be received. -/
def unread (r : Rehearsal) : Nat := r.arrivals.foldr (fun a n => a.size + n) 0

/-- How many calls are laid down to be interrupted. -/
def interruptions (r : Rehearsal) : Nat :=
  (r.arrivals.filter (· = .failure .interrupted)).length
    + (r.sends.filter fun s =>
        match s with
        | .error .interrupted => true
        | _ => false).length

def extend (r : Rehearsal) (connects : List (Option Network.Error)) (arrivals : List Arrival)
    (sends : List (Except Network.Error (Option Nat))) : Rehearsal :=
  { r with
    connects := r.connects ++ connects
    arrivals := r.arrivals ++ arrivals
    sends := r.sends ++ sends }

instance : Network Rehearsal where
  connect := connect
  limitReceive limit r := { r with receiveLimit := limit / Time.micro * Time.micro }
  limitSend _ r := r
  receive n r := if r.ended then (.ok [], r) else receiveFrom n r r.arrivals
  send := send
  shutdown r := r
  now r := r.clock
  backlog := unread
  interruptions := interruptions

end Rehearsal

end SecureElement.Proxy
