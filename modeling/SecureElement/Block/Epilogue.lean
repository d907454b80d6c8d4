import SecureElement.Bytes

/-!
# Block epilogues

A block ends in a check value over everything before it. Two kinds are in use:

* **CRC-16/X.25**, two octets, low one first: the register starts at `FFFF`, takes
  the octets through a table of the reflected polynomial `8408`, and is inverted at
  the end;
* **LRC**, one octet, the exclusive or of all octets.

The register is exposed (`start`, `feed`, `finish`), because a block is checked in
pieces: `feed` over two pieces is `feed` over their concatenation.
-/

namespace SecureElement

/-- The kind of check value that ends a block. -/
inductive Epilogue where
  /-- CRC-16/X.25. -/
  | crc16
  /-- Exclusive or of all octets. -/
  | lrc
  deriving Repr, DecidableEq, Inhabited

namespace Epilogue

def width : Epilogue → Nat
  | crc16 => 2
  | lrc => 1

/-- One division step of the reflected polynomial. -/
def shift (register : UInt16) : UInt16 :=
  if register &&& 1 = 1 then (register >>> 1) ^^^ 0x8408 else register >>> 1

def shiftOctet (register : UInt16) : UInt16 :=
  shift (shift (shift (shift (shift (shift (shift (shift register)))))))

/-- What eight division steps make of each low octet. -/
def table : Array UInt16 := (Array.range 256).map fun i => shiftOctet (UInt16.ofNat i)

/-- The CRC register after one more octet. -/
def feedCrc (register : UInt16) (octet : UInt8) : UInt16 :=
  (register >>> 8) ^^^ table.getD ((register ^^^ octet.toUInt16) &&& 0xFF).toNat 0

def start : Epilogue → UInt16
  | crc16 => 0xFFFF
  | lrc => 0

def feed : Epilogue → UInt16 → Bytes → UInt16
  | crc16, register, bytes => bytes.foldl feedCrc register
  | lrc, register, bytes => bytes.foldl (fun r b => r ^^^ b.toUInt16) register

/-- The check value that a register stands for. -/
def finish : Epilogue → UInt16 → UInt16
  | crc16, register => register ^^^ 0xFFFF
  | lrc, register => register

def compute (e : Epilogue) (bytes : Bytes) : UInt16 := e.finish (e.feed e.start bytes)

/-- A check value as it stands on the wire. -/
def encode : Epilogue → UInt16 → Bytes
  | crc16, value => [value.toUInt8, (value >>> 8).toUInt8]
  | lrc, value => [value.toUInt8]

/-- Whether a check value can be written into a row of so many cells. A CRC wants exactly its two
cells, an LRC takes the first of any number. -/
def suits : Epilogue → Nat → Bool
  | crc16, n => n = 2
  | lrc, n => 0 < n

/-- Writes a check value into a row of cells; `none` when the cells do not suit. -/
def store? : Epilogue → UInt16 → Bytes → Option Bytes
  | crc16, value, [_, _] => some (encode crc16 value)
  | crc16, _, _ => none
  | lrc, value, _ :: rest => some (value.toUInt8 :: rest)
  | lrc, _, [] => none

/-- Reads a check value from the front of a row of cells; `none` when there are too few. -/
def load? : Epilogue → Bytes → Option UInt16
  | crc16, low :: high :: _ => some (low.toUInt16 ||| (high.toUInt16 <<< 8))
  | crc16, _ => none
  | lrc, octet :: _ => some octet.toUInt16
  | lrc, [] => none

@[simp] theorem length_encode (e : Epilogue) (value : UInt16) :
    (e.encode value).length = e.width := by
  cases e <;> rfl

theorem isSome_store? (e : Epilogue) (value : UInt16) (out : Bytes) :
    (e.store? value out).isSome = e.suits out.length := by
  cases e with
  | crc16 =>
    match out with
    | [] => rfl
    | [_] => rfl
    | [_, _] => rfl
    | _ :: _ :: _ :: _ => simp [store?, suits]
  | lrc => cases out <;> simp [store?, suits]

theorem feed_append (e : Epilogue) (register : UInt16) (front back : Bytes) :
    e.feed register (front ++ back) = e.feed (e.feed register front) back := by
  cases e <;> simp [feed]

end Epilogue

end SecureElement
