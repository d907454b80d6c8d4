import SecureElement.Block.Codec

/-!
# Chains

A payload longer than one block is cut into a chain of information blocks. All but
the last are full and say that more follows; sequence numbers alternate. An empty
payload still makes one block.

A `Chain` is the place reached in that cutting: `next?` gives the next block and
the place behind it, `remaining` says how many blocks are still to come, and
`blocks` lists them.
-/

namespace SecureElement

/-- A payload on its way into blocks. -/
structure Chain where
  codec : Codec
  /-- What no block carries yet. -/
  rest : Bytes
  seq : Seq
  done : Bool
  deriving Repr, DecidableEq

namespace Chain

/-- Before the first block. -/
def ofPayload (codec : Codec) (payload : Bytes) (seq : Seq) : Chain :=
  { codec, rest := payload, seq, done := false }

/-- The next block and the place behind it; `none` once the last block has been made. -/
def next? (c : Chain) : Option (Block × Chain) :=
  if c.done then none
  else
    let chunk := c.rest.take c.codec.maxPayload
    let rest := c.rest.drop c.codec.maxPayload
    -- an exact multiple ends in a full block, not in an empty one
    let more := !rest.isEmpty
    some (c.codec.make (.information c.seq more) chunk,
      { c with rest, seq := c.seq.next, done := !more })

/-- How many blocks are still to come. -/
def remaining (c : Chain) : Nat :=
  if c.done then 0
  else max 1 ((c.rest.length + (c.codec.maxPayload - 1)) / c.codec.maxPayload)

/-- At most `n` more blocks. -/
def upTo : Nat → Chain → List Block
  | 0, _ => []
  | n + 1, c =>
    match c.next? with
    | none => []
    | some (block, rest) => block :: upTo n rest

/-- The blocks in `made`, which holds the last of them first, and at most `n` more. -/
def upToBehind (made : List Block) : Nat → Chain → List Block
  | 0, _ => made.reverse
  | n + 1, c =>
    match c.next? with
    | none => made.reverse
    | some (block, rest) => upToBehind (block :: made) n rest

/-- All blocks still to come. -/
def blocks (c : Chain) : List Block := upToBehind [] c.remaining c

theorem upToBehind_eq (made : List Block) (n : Nat) (c : Chain) :
    upToBehind made n c = made.reverse ++ upTo n c := by
  induction n generalizing made c with
  | zero => simp [upToBehind, upTo]
  | succ n ih =>
    simp only [upToBehind, upTo]
    cases c.next? with
    | none => simp
    | some step => simp [ih]

theorem blocks_eq (c : Chain) : c.blocks = upTo c.remaining c := by
  simp [blocks, upToBehind_eq]

end Chain

end SecureElement
