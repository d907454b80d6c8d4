import SecureElement.Bytes

/-!
# Fixed buffers

A buffer has a fixed number of cells, of which a front part is in use. It never
grows: what does not fit is refused and changes nothing.

The unused cells are kept too. Clearing writes zeros over the cells that were in
use, and claiming hands out cells as they are, so what an unused cell holds can
come to light. `cells` is what a buffer stands for, and `lay` builds one from its
cells. They are kept in a form that suits the work:

* a buffer grows and changes at the end of its contents, so the cells in use are
  kept last one first;
* most unused cells hold zero, so a row of zeros at the very end is kept as its
  length alone. An empty buffer takes no space, however many cells it has.
-/

namespace SecureElement

/-- Cells in use, and the unused cells behind them. -/
structure Buffer where
  /-- The cells in use, last one first. -/
  top : Bytes
  /-- The unused cells up to the last that holds something else than zero. -/
  stale : Bytes
  /-- The number of cells behind those. -/
  blank : Nat
  deriving Repr, DecidableEq, Inhabited

/-- The refusal of contents that do not fit. -/
structure Buffer.Overflow where
  capacity : Nat
  /-- The number of cells that the contents would have taken. -/
  needed : Nat
  deriving Repr, DecidableEq

namespace Buffer

/-- The largest number of cells that a buffer can have. -/
def capacityMax : Nat := 0x7FFFFFFFFFFFFFFF

/-- An empty buffer of `n` zeroed cells. -/
def empty (n : Nat) : Buffer := { top := [], stale := [], blank := n }

def used (b : Buffer) : Bytes := b.top.reverse

def spare (b : Buffer) : Bytes := b.stale ++ Bytes.zeros b.blank

/-- All cells, those in use first. -/
def cells (b : Buffer) : Bytes := b.used ++ b.spare

def room (b : Buffer) : Nat := b.stale.length + b.blank

def capacity (b : Buffer) : Nat := b.top.length + b.room

/-- The buffer of so many cells which hold `front` and zeros behind it, with the first `n` of them
in use. -/
def lay (capacity : Nat) (front : Bytes) (n : Nat) : Buffer :=
  let used := front.take n ++ Bytes.zeros (min n capacity - front.length)
  let stale := Bytes.trimZeros (front.drop n)
  -- more than fits may have been asked for, but not more than fits is kept
  { top := used.reverse, stale, blank := capacity - used.length - stale.length }

/-- Drops the contents and zeroes the cells that held them. -/
def clear (b : Buffer) : Buffer :=
  lay b.capacity (Bytes.zeros b.top.length ++ b.stale) 0

/-- Takes `n` more cells into use, as they are. A size that no number of cells can have is reported
as the largest that one can. -/
def claim (b : Buffer) (n : Nat) : Except Overflow Buffer :=
  if n ≤ b.room then
    let zeros := n - b.stale.length
    .ok {
      top := Bytes.zeros zeros ++ (b.stale.take n).reverse ++ b.top
      stale := b.stale.drop n
      blank := b.blank - zeros }
  else .error { capacity := b.capacity, needed := min (b.top.length + n) Bytes.sizeMax }

/-- The last `n` cells in use. -/
def tail (b : Buffer) (n : Nat) : Bytes := (b.top.take n).reverse

/-- Writes over the last `n` cells in use, from the first of them on. -/
def setTail (b : Buffer) (n : Nat) (bytes : Bytes) : Buffer :=
  { b with top := (bytes.overlay (b.tail n)).reverse ++ b.top.drop n }

def append (b : Buffer) (bytes : Bytes) : Except Overflow Buffer := do
  let claimed ← b.claim bytes.length
  return claimed.setTail bytes.length bytes

/-- Replaces the contents. The writer is shown the cleared buffer; it returns what it writes from
the first cell on, and how many cells are contents then or why there are none. -/
def fill {ε : Type} (b : Buffer) (writer : Buffer → Except ε Nat × Bytes) :
    Except ε Unit × Buffer :=
  let cleared := b.clear
  let (outcome, written) := writer cleared
  let written := written.take cleared.capacity
  let front := written ++ cleared.stale.drop written.length
  match outcome with
  | .ok n => (.ok (), lay cleared.capacity front n)
  | .error e => (.error e, lay cleared.capacity front 0)

/-! ## Cells -/

theorem length_spare (b : Buffer) : b.spare.length = b.room := by
  simp [spare, room]

theorem capacity_eq (b : Buffer) : b.capacity = b.cells.length := by
  simp [capacity, cells, used, length_spare]

@[simp] theorem capacity_empty (n : Nat) : (empty n).capacity = n := by
  simp [capacity, room, empty]

/-- The cells of a buffer are those that it was built from. -/
theorem cells_lay {capacity : Nat} {front : Bytes} (h : front.length ≤ capacity) (n : Nat) :
    (lay capacity front n).cells = front ++ Bytes.zeros (capacity - front.length) := by
  simp only [cells, used, spare, lay, List.reverse_reverse]
  rcases Nat.le_total n front.length with hn | hn
  · have trim := Bytes.trimZeros_append_zeros (front.drop n)
    have le := Bytes.length_trimZeros_le (front.drop n)
    rw [List.length_drop] at trim le
    have used : min n capacity - front.length = 0 := by omega
    have blank : capacity - n - (Bytes.trimZeros (front.drop n)).length
        = (front.length - n - (Bytes.trimZeros (front.drop n)).length)
          + (capacity - front.length) := by omega
    rw [used, show Bytes.zeros 0 = [] from rfl, List.append_nil, List.length_take,
      Nat.min_eq_left hn, blank, ← Bytes.zeros_append_zeros, ← List.append_assoc
      (Bytes.trimZeros _), trim, ← List.append_assoc, List.take_append_drop]
  · have used : front.length + (min n capacity - front.length) = min n capacity := by omega
    have trim : Bytes.trimZeros (front.drop n) = [] := by
      rw [List.drop_eq_nil_of_le hn]
      rfl
    rw [trim, List.take_of_length_le hn, List.length_append, Bytes.length_zeros, used,
      List.nil_append, List.append_assoc, Bytes.zeros_append_zeros, List.length_nil]
    congr 2
    omega

@[simp] theorem used_empty (n : Nat) : (empty n).used = [] := rfl

@[simp] theorem used_clear (b : Buffer) : b.clear.used = [] := by
  simp [used, clear, lay, Bytes.zeros]

theorem capacity_lay {capacity : Nat} {front : Bytes} (h : front.length ≤ capacity) (n : Nat) :
    (lay capacity front n).capacity = capacity := by
  rw [capacity_eq, cells_lay h, List.length_append, Bytes.length_zeros]
  omega

@[simp] theorem capacity_clear (b : Buffer) : b.clear.capacity = b.capacity := by
  refine capacity_lay ?_ 0
  rw [List.length_append, Bytes.length_zeros, capacity, room]
  omega

end Buffer

end SecureElement
