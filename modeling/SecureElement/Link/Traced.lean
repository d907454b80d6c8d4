import SecureElement.Link.Basic

/-!
# Traces of a link

`Traced L` is the link `L` with a record of every call made on it and of what came
of the call. It answers exactly as `L` does, so whatever a session
does over a link can be read off the record.
-/

namespace SecureElement.Link

/-- A call on a link with its outcome. -/
inductive Event where
  | bringUp (outcome : Except Fault Unit)
  /-- Octets were handed over within a time; the link took that many. -/
  | write (bytes : Bytes) (timeout : Nanos) (outcome : Except Fault Nat)
  /-- So many octets were asked for within a time; these arrived. -/
  | read (length : Nat) (timeout : Nanos) (outcome : Except Fault Bytes)
  | release
  deriving Repr

structure Traced (L : Type) where
  link : L
  /-- The calls, newest first. -/
  past : List Event := []
  deriving Repr

namespace Traced

variable {L : Type}

/-- The calls, oldest first. -/
def events (t : Traced L) : List Event := t.past.reverse

/-- The link with its record after one more call. -/
def record (t : Traced L) (event : Event) (link : L) : Traced L :=
  { link, past := event :: t.past }

@[simp] theorem events_record (t : Traced L) (event : Event) (link : L) :
    (t.record event link).events = t.events ++ [event] := by
  simp [events, record]

variable [Link L]

instance : Link (Traced L) where
  bringUp t :=
    let (outcome, link) := bringUp t.link
    (outcome, t.record (.bringUp outcome) link)
  write bytes timeout t :=
    let (outcome, link) := write bytes timeout t.link
    (outcome, t.record (.write bytes timeout outcome) link)
  read n timeout t :=
    let (outcome, link) := read n timeout t.link
    (outcome, t.record (.read n timeout (outcome.map (·.take n))) link)
  release t := t.record .release (release t.link)
  now t := now t.link
  backlog t := backlog t.link

end Traced

end SecureElement.Link
