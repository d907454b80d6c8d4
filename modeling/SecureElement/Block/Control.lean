import SecureElement.Bytes

/-!
# The control byte

The second octet of a block tells its type and carries the flags of that type:

* `0 N M 00000`: **information**, with sequence bit `N` and `M` for "more follows";
* `100 N 00 EE`: **ready**, naming the sequence bit expected next and a receipt `EE`;
* `11 R CCCCC`: **supervisory**, with function code `C` and `R` on a response.

`Control.toByte` and `Control.ofByte?` are the two directions. An octet with a
reserved bit set, an unused receipt or an unassigned function is no control byte.
-/

namespace SecureElement

/-- A one-bit sequence number. -/
inductive Seq where
  | zero
  | one
  deriving Repr, DecidableEq, Inhabited

namespace Seq

def next : Seq → Seq
  | zero => one
  | one => zero

def toNat : Seq → Nat
  | zero => 0
  | one => 1

def ofFlag : Bool → Seq
  | false => zero
  | true => one

@[simp] theorem next_next (s : Seq) : s.next.next = s := by cases s <;> rfl

end Seq

/-- What a ready block says about the last block its sender received. -/
inductive Receipt where
  | clean
  | badEpilogue
  | otherwiseBad
  deriving Repr, DecidableEq, Inhabited

namespace Receipt

def code : Receipt → UInt8
  | clean => 0
  | badEpilogue => 1
  | otherwiseBad => 2

def ofCode? : UInt8 → Option Receipt
  | 0 => some clean
  | 1 => some badEpilogue
  | 2 => some otherwiseBad
  | _ => none

end Receipt

/-- What a supervisory block asks for. -/
inductive Supervisory where
  /-- Set both sequence numbers to zero. -/
  | resync
  /-- Announce the size of the information field. -/
  | ifs
  | abort
  | wtx
  /-- Close the session of the running application. -/
  | endApduSession
  | chipReset
  | getAtr
  /-- Reset the communication interface; the response carries the answer to reset. -/
  | softReset
  deriving Repr, DecidableEq, Inhabited

namespace Supervisory

def code : Supervisory → UInt8
  | resync => 0x00
  | ifs => 0x01
  | abort => 0x02
  | wtx => 0x03
  | endApduSession => 0x05
  | chipReset => 0x06
  | getAtr => 0x07
  | softReset => 0x0F

def ofCode? : UInt8 → Option Supervisory
  | 0x00 => some resync
  | 0x01 => some ifs
  | 0x02 => some abort
  | 0x03 => some wtx
  | 0x05 => some endApduSession
  | 0x06 => some chipReset
  | 0x07 => some getAtr
  | 0x0F => some softReset
  | _ => none

end Supervisory

/-- The type of a block with the flags of that type. -/
inductive Control where
  /-- Carries command or response bytes. -/
  | information (seq : Seq) (more : Bool)
  /-- Names the sequence number expected next. -/
  | ready (seq : Seq) (receipt : Receipt)
  /-- Steers the link itself. -/
  | supervisory (function : Supervisory) (response : Bool)
  deriving Repr, DecidableEq, Inhabited

namespace Control

/-- `mask` if the flag is set, no bit otherwise. -/
def flag (set : Bool) (mask : UInt8) : UInt8 := if set then mask else 0

def toByte : Control → UInt8
  | information seq more => flag (seq = .one) 0x40 ||| flag more 0x20
  | ready seq receipt => 0x80 ||| flag (seq = .one) 0x10 ||| receipt.code
  | supervisory function response => 0xC0 ||| flag response 0x20 ||| function.code

/-- Reads a control byte; `none` for an octet that is none. -/
def ofByte? (b : UInt8) : Option Control :=
  if b &&& 0xC0 = 0xC0 then
    (Supervisory.ofCode? (b &&& 0x1F)).map (supervisory · (b &&& 0x20 != 0))
  else if b &&& 0xC0 = 0x80 then
    if b &&& 0x2C = 0 then
      (Receipt.ofCode? (b &&& 0x03)).map (ready (.ofFlag (b &&& 0x10 != 0)))
    else none
  else if b &&& 0x1F = 0 then
    some (information (.ofFlag (b &&& 0x40 != 0)) (b &&& 0x20 != 0))
  else none

/-- Whether this opens or continues a chain: an information block that others follow. -/
def isChained : Control → Bool
  | information _ more => more
  | _ => false

/-- The sequence number that a block carries or names. -/
def seq? : Control → Option Seq
  | information seq _ => some seq
  | ready seq _ => some seq
  | supervisory _ _ => none

def request (function : Supervisory) : Control := supervisory function false

def response (function : Supervisory) : Control := supervisory function true

theorem ofByte?_toByte (c : Control) : ofByte? c.toByte = some c := by
  cases c with
  | information seq more => cases seq <;> cases more <;> rfl
  | ready seq receipt => cases seq <;> cases receipt <;> rfl
  | supervisory function response => cases function <;> cases response <;> rfl

end Control

end SecureElement
