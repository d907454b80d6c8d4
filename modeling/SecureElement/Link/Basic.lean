import SecureElement.Bytes
import SecureElement.Time

/-!
# Links

A link moves octets between host and secure element. It may move fewer than it was
asked to, and it may fail in the ways that `Link.Fault` lists.

A link is described by its state and by what each call makes of that state, so a
session over a link is an ordinary function and every behaviour that a link can
show is a value that a theorem can range over. Two things that a session only
looks at belong to the state as well:

* `now`, the clock: it moves when a call takes time, and never otherwise;
* `backlog`, how many octets of worth the link can still deliver. A session answers
  requests of the peer for as long as they come, and this is what bounds how many
  can come.
-/

namespace SecureElement

/-- How a call on a link fails. -/
inductive Link.Fault where
  /-- Nothing arrived in the time allowed. -/
  | timeout
  | notAcknowledged
  | closed
  /-- The link took `written` of `expected` octets. -/
  | shortWrite (written expected : Nat)
  | bus (message : String)
  deriving Repr, DecidableEq

def Link.Fault.message : Link.Fault → String
  | timeout => "Link timed out"
  | notAcknowledged => "Device did not acknowledge"
  | closed => "Link is closed"
  | shortWrite written expected => s!"Short write: {written} of {expected} bytes"
  | bus message => "Bus error: " ++ message

/-- What the states of a link do. -/
class Link (L : Type) where
  bringUp : L → Except Link.Fault Unit × L
  /-- Hands octets to the link within a time; the result is how many it took. -/
  write : Bytes → Nanos → L → Except Link.Fault Nat × L
  /-- Asks for at most so many octets within a time; the result is what arrived. -/
  read : Nat → Nanos → L → Except Link.Fault Bytes × L
  release : L → L
  now : L → Nanos
  /-- How many octets can still arrive that a peer meant to send. -/
  backlog : L → Nat

namespace Link

variable {L : Type} [Link L]

/-- Hands all octets to a link, and takes it for a fault if the link takes another number. -/
def writeAll (bytes : Bytes) (timeout : Nanos) (link : L) : Except Fault Unit × L :=
  match write bytes timeout link with
  | (.error e, link) => (.error e, link)
  | (.ok n, link) =>
    if n = bytes.length then (.ok (), link) else (.error (.shortWrite n bytes.length), link)

/-- It is one call, whatever comes of it. -/
theorem writeAll_eq (bytes : Bytes) (timeout : Nanos) (link : L) :
    writeAll bytes timeout link = ((write bytes timeout link).1.bind fun n =>
        if n = bytes.length then .ok () else .error (.shortWrite n bytes.length),
      (write bytes timeout link).2) := by
  unfold writeAll
  generalize write bytes timeout link = result
  obtain ⟨outcome, link'⟩ := result
  cases outcome with
  | error fault => rfl
  | ok n =>
      dsimp only [Except.bind]
      split <;> rfl

theorem writeAll_snd (bytes : Bytes) (timeout : Nanos) (link : L) :
    (writeAll bytes timeout link).2 = (write bytes timeout link).2 := by
  rw [writeAll_eq]

theorem writeAll_of_error {bytes : Bytes} {timeout : Nanos} {link : L} {fault : Fault}
    (h : (write bytes timeout link).1 = .error fault) :
    (writeAll bytes timeout link).1 = .error fault := by
  rw [writeAll_eq, h]
  rfl

theorem writeAll_ok_iff {bytes : Bytes} {timeout : Nanos} {link : L} :
    (writeAll bytes timeout link).1 = .ok () ↔
      (write bytes timeout link).1 = .ok bytes.length := by
  rw [writeAll_eq]
  cases (write bytes timeout link).1 with
  | error fault => exact ⟨nofun, nofun⟩
  | ok n =>
      dsimp only [Except.bind]
      split
      · rename_i hall
        exact ⟨fun _ => congrArg Except.ok hall, fun _ => rfl⟩
      · rename_i hshort
        exact ⟨nofun, fun hall => absurd (Except.ok.inj hall) hshort⟩

/-- The link reports a fault, or it takes another number of octets. -/
theorem writeAll_error {bytes : Bytes} {timeout : Nanos} {link : L} {fault : Fault}
    (h : (writeAll bytes timeout link).1 = .error fault) :
    (write bytes timeout link).1 = .error fault ∨ ∃ n, fault = .shortWrite n bytes.length := by
  rw [writeAll_eq] at h
  cases hwritten : (write bytes timeout link).1 with
  | error fault' =>
      rw [hwritten] at h
      exact .inl (congrArg Except.error (Except.error.inj h))
  | ok n =>
      rw [hwritten] at h
      dsimp only [Except.bind] at h
      split at h
      · exact absurd h nofun
      · exact .inr ⟨n, (Except.error.inj h).symm⟩

/-- Reads until `n` octets are there or a call fails, with at most `calls` calls. A call that brings
nothing counts as a timeout. Returns what arrived, and the fault if there was one. -/
def readUpTo (timeout : Nanos) : (calls n : Nat) → L → (Bytes × Option Fault) × L
  | _, 0, link => (([], none), link)
  | 0, _ + 1, link => (([], some .timeout), link)
  | calls + 1, n + 1, link =>
    match read (n + 1) timeout link with
    | (.error e, link) => (([], some e), link)
    | (.ok [], link) => (([], some .timeout), link)
    | (.ok bytes, link) =>
      let part := bytes.take (n + 1)
      let ((more, fault), link) := readUpTo timeout calls (n + 1 - part.length) link
      ((part ++ more, fault), link)

/-- Reads exactly `n` octets, as far as the link brings them. Every call brings at least one, so no
more than `n` calls are needed. -/
def readAll (n : Nat) (timeout : Nanos) (link : L) : (Bytes × Option Fault) × L :=
  readUpTo timeout n n link

end Link

end SecureElement
