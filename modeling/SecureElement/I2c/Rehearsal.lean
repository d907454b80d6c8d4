import SecureElement.I2c.Bus

/-!
# Rehearsed buses

A bus whose behaviour is laid down beforehand: how each transfer ends, how long
transfers take, and what the device sends. A device that has nothing more to send
sends zeros.
-/

namespace SecureElement.I2c

/-- How transfers end. -/
inductive Transfer where
  /-- So many transfers in a row are refused. -/
  | refused (times : Nat)
  | failed (message : String)
  | done
  deriving Repr, DecidableEq

/-- A bus whose behaviour is laid down beforehand. -/
structure Rehearsal where
  /-- How transfers end. Once this is used up all go through. -/
  transfers : List Transfer := []
  /-- What the device has to send. -/
  reply : Bytes := []
  transferTime : Nanos := 0
  clock : Nanos := 0
  deriving Repr

namespace Rehearsal

/-- How the next transfer ends, and what is laid down for those after it. -/
def nextTransfer : List Transfer → Except Bus.Fault Unit × List Transfer
  | [] => (.ok (), [])
  | .done :: rest => (.ok (), rest)
  | .failed message :: rest => (.error (.other message), rest)
  | .refused 0 :: rest => nextTransfer rest
  | .refused 1 :: rest => (.error .notAcknowledged, rest)
  | .refused (n + 2) :: rest => (.error .notAcknowledged, .refused (n + 1) :: rest)

def transfer (r : Rehearsal) : Except Bus.Fault Unit × Rehearsal :=
  let (outcome, transfers) := nextTransfer r.transfers
  (outcome, { r with transfers, clock := r.clock + r.transferTime })

/-- The next octets of the device, filled up with zeros. -/
def take (r : Rehearsal) (n : Nat) : Bytes.Row n × Rehearsal :=
  let bytes := r.reply.take n
  let filled := bytes ++ Bytes.zeros (n - bytes.length)
  have hfilled : filled.length = n := by
    have hshort : bytes.length ≤ n := List.length_take_le n r.reply
    rw [List.length_append, Bytes.length_zeros]
    omega
  (⟨filled, hfilled⟩, { r with reply := r.reply.drop n })

/-- Adds to what is laid down; a transfer time replaces the one before. -/
def extend (r : Rehearsal) (transfers : List Transfer) (reply : Bytes)
    (transferTime : Option Nanos) : Rehearsal :=
  { r with
    transfers := r.transfers ++ transfers
    reply := r.reply ++ reply
    transferTime := transferTime.getD r.transferTime }

instance : Bus Rehearsal where
  write _ _ r := r.transfer
  read _ n r :=
    match r.transfer with
    | (.error fault, r) => (.error fault, r)
    | (.ok (), r) =>
      let (bytes, r) := r.take n
      (.ok bytes, r)
  sleep time r := { r with clock := r.clock + time }
  now r := r.clock
  backlog r := r.reply.length

end Rehearsal

end SecureElement.I2c
