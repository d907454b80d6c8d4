/-!
# Where a session stands

    closed → opened → busy → idle → busy → idle → … → closed
                      busy → recovering → idle

A session is closed, or open and ready (`opened`, `idle`), or in the middle of a
call (`busy`, `recovering`). `Status.allows` is the whole table of changes; every
status may become `closed`.
-/

namespace SecureElement

/-- Where a session stands. -/
inductive Status where
  /-- There is no link. -/
  | closed
  /-- A call is under way. -/
  | busy
  /-- A call failed and the session is resynchronising. -/
  | recovering
  /-- Between calls. -/
  | idle
  /-- Open, before the first call. -/
  | opened
  deriving Repr, DecidableEq, Inhabited

namespace Status

/-- Every status, in the order in which they are listed to users. -/
def all : List Status := [closed, busy, recovering, idle, opened]

def name : Status → String
  | closed => "closed"
  | busy => "busy"
  | recovering => "recovery"
  | idle => "idle"
  | opened => "open"

/-- Whether a session may go from one status to another. -/
def allows : Status → Status → Bool
  | _, closed => true
  | closed, opened => true
  | opened, busy | idle, busy => true
  | busy, idle | busy, recovering => true
  | recovering, idle => true
  | _, _ => false

def isOpen : Status → Bool
  | closed => false
  | _ => true

def isReady : Status → Bool
  | opened | idle => true
  | _ => false

theorem not_isOpen_iff {status : Status} : ¬ status.isOpen = true ↔ status = .closed := by
  cases status with
  | closed => exact iff_of_true Bool.false_ne_true rfl
  | busy | recovering | idle | opened => exact iff_of_false (fun h => h rfl) nofun

theorem isOpen_of_isReady {status : Status} (h : status.isReady = true) : status.isOpen = true := by
  cases status with
  | opened | idle => rfl
  | closed | busy | recovering => exact absurd h Bool.false_ne_true

end Status

end SecureElement
