import SecureElement.Proofs.Contents

/-!
# A buffer is a bounded list

A buffer keeps its cells in a form that suits the work: the last one first, and a row of
zeros as its length. Here is what it is meant to be instead: the contents, and the
octets behind them that an extension would grow over, both as plain lists
(`BoundedList`). Growing is adding to the one and dropping from the other, or nothing at
all; filling cuts what was written in two.

`view` reads the two lists off a buffer. One operation on a buffer does to its view what
it does to a bounded list (`view_perform`), so every row of operations does
(`refines_boundedList`), whatever the sizes asked for and whatever the writers do.
-/

namespace SecureElement

/-- The contents, and what lies behind them. -/
@[ext] structure BoundedList where
  contents : Bytes
  beyond : Bytes
  deriving Repr, DecidableEq

namespace Buffer

/-- What can be done with a buffer. A writer is shown the octets that it may write over, and returns
what it writes from the first of them on. -/
inductive Operation (ε : Type)
  | append (bytes : Bytes)
  /-- Takes so many cells into use, and writes over them. -/
  | claim (n : Nat) (writer : Bytes → Bytes)
  | clear
  /-- The writer is shown all cells, and says how many are contents then. -/
  | fill (writer : Bytes → Except ε Nat × Bytes)

/-- Why an operation was refused. -/
inductive Refusal (ε : Type)
  | overflow (overflow : Overflow)
  /-- A writer gave up. -/
  | writer (reason : ε)
  deriving Repr, DecidableEq

variable {ε σ : Type}

/-- A buffer that could not grow is what it was. -/
def orLeft (s : σ) : Except Overflow σ → Except (Refusal ε) Unit × σ
  | .ok s' => (.ok (), s')
  | .error overflow => (.error (.overflow overflow), s)

def perform (b : Buffer) : Operation ε → Except (Refusal ε) Unit × Buffer
  | .append bytes => orLeft b (b.append bytes)
  | .claim n writer => orLeft b do
      let claimed ← b.claim n
      return claimed.setTail n (writer (claimed.tail n))
  | .clear => (.ok (), b.clear)
  | .fill writer =>
      let (outcome, b) := b.fill fun cleared => writer cleared.cells
      (outcome.mapError .writer, b)

end Buffer

namespace BoundedList

open Buffer

variable {ε : Type}

/-- An empty list with so many zeros behind it. -/
def blank (capacity : Nat) : BoundedList := { contents := [], beyond := Bytes.zeros capacity }

def capacity (l : BoundedList) : Nat := l.contents.length + l.beyond.length

/-- Adds `n` octets, in place of as many behind the contents. -/
def extend (l : BoundedList) (n : Nat) (added : Bytes) : Except Overflow BoundedList :=
  if l.contents.length + n ≤ l.capacity then
    .ok { contents := l.contents ++ added, beyond := l.beyond.drop n }
  else .error { capacity := l.capacity, needed := min (l.contents.length + n) Bytes.sizeMax }

theorem extend_of_le {l : BoundedList} {n : Nat} (added : Bytes)
    (h : l.contents.length + n ≤ l.capacity) :
    l.extend n added = .ok { contents := l.contents ++ added, beyond := l.beyond.drop n } :=
  if_pos h

theorem extend_of_lt {l : BoundedList} {n : Nat} (added : Bytes)
    (h : l.capacity < l.contents.length + n) :
    l.extend n added
      = .error { capacity := l.capacity, needed := min (l.contents.length + n) Bytes.sizeMax } :=
  if_neg (Nat.not_le_of_lt h)

def clear (l : BoundedList) : BoundedList :=
  { contents := [], beyond := Bytes.zeros l.contents.length ++ l.beyond }

def perform (l : BoundedList) : Operation ε → Except (Refusal ε) Unit × BoundedList
  | .append bytes => orLeft l (l.extend bytes.length bytes)
  | .claim n writer =>
      let shown := l.beyond.take n
      orLeft l (l.extend n ((writer shown).overlay shown))
  | .clear => (.ok (), l.clear)
  | .fill writer =>
      let (outcome, written) := writer l.clear.beyond
      let storage := written.overlay l.clear.beyond
      match outcome with
      | .ok n => (.ok (), { contents := storage.take n, beyond := storage.drop n })
      | .error reason => (.error (.writer reason), { contents := [], beyond := storage })

end BoundedList

namespace Buffer

variable {ε : Type} {b claimed : Buffer} {n : Nat}

/-- What a buffer is meant to be. -/
def view (b : Buffer) : BoundedList := { contents := b.used, beyond := b.spare }

theorem capacity_view (b : Buffer) : b.view.capacity = b.capacity := by
  rw [capacity_eq, cells, List.length_append]
  rfl

/-! ## Growing -/

/-- Cells that are claimed are the first of those that were not in use. -/
theorem claim_of_le (h : b.used.length + n ≤ b.capacity) :
    ∃ claimed, b.claim n = .ok claimed
      ∧ claimed.used = b.used ++ b.spare.take n ∧ claimed.spare = b.spare.drop n := by
  have hroom : n ≤ b.room := by
    have := b.length_used_add_room
    omega
  unfold claim
  rw [if_pos hroom]
  refine ⟨_, rfl, ?_, ?_⟩
  · simp only [used, spare, List.reverse_append, List.reverse_reverse, List.take_append,
      Bytes.zeros, List.reverse_replicate, List.take_replicate, List.append_assoc]
    unfold room at hroom
    rw [Nat.min_eq_left (by omega : n - b.stale.length ≤ b.blank)]
  · simp only [spare, List.drop_append, Bytes.zeros, List.drop_replicate]

theorem claim_of_lt (h : b.capacity < b.used.length + n) :
    b.claim n
      = .error { capacity := b.capacity, needed := min (b.used.length + n) Bytes.sizeMax } := by
  have hroom : ¬ n ≤ b.room := by
    have := b.length_used_add_room
    omega
  unfold claim
  rw [if_neg hroom, used, List.length_reverse]

/-- The cells that were claimed are at the end of those in use, and what is written over them leaves
the others alone. -/
theorem view_setTail_claim (h : b.used.length + n ≤ b.capacity) (hclaim : b.claim n = .ok claimed)
    (bytes : Bytes) :
    claimed.tail n = b.spare.take n
      ∧ (claimed.setTail n bytes).view
        = { contents := b.used ++ bytes.overlay (b.spare.take n), beyond := b.spare.drop n } := by
  obtain ⟨claimed', hclaim', hused, hspare⟩ := claim_of_le h
  obtain rfl := Except.ok.inj (hclaim.symm.trans hclaim')
  have hshown : (b.spare.take n).length = n := by
    have := b.length_used_add_room
    rw [List.length_take, length_spare]
    omega
  have htop : claimed.top = (b.spare.take n).reverse ++ b.top := by
    rw [← List.reverse_reverse claimed.top, ← used, hused, List.reverse_append, used,
      List.reverse_reverse]
  have hreversed : (b.spare.take n).reverse.length = n := List.length_reverse.trans hshown
  have htail : claimed.tail n = b.spare.take n := by
    rw [tail, htop, List.take_left' hreversed, List.reverse_reverse]
  refine ⟨htail, BoundedList.ext ?_ hspare⟩
  show (claimed.setTail n bytes).top.reverse = _
  rw [setTail, htail, htop, List.drop_left' hreversed, List.reverse_append, List.reverse_reverse]
  rfl

/-- **What is written into claimed cells extends the contents, or nothing happens.** -/
theorem view_claim (b : Buffer) (n : Nat) (writer : Bytes → Bytes) :
    (do let claimed ← b.claim n; return claimed.setTail n (writer (claimed.tail n))).map view
      = b.view.extend n ((writer (b.spare.take n)).overlay (b.spare.take n)) := by
  rcases Nat.lt_or_ge b.capacity (b.used.length + n) with hover | hfits
  · rw [claim_of_lt hover, BoundedList.extend_of_lt _ (by rw [capacity_view]; exact hover),
      capacity_view]
    rfl
  · obtain ⟨claimed, hclaim, -⟩ := claim_of_le hfits
    obtain ⟨htail, hview⟩ := view_setTail_claim hfits hclaim (writer (b.spare.take n))
    rw [hclaim, BoundedList.extend_of_le _ (by rw [capacity_view]; exact hfits)]
    refine congrArg Except.ok ?_
    rw [htail]
    exact hview

theorem view_append (b : Buffer) (bytes : Bytes) :
    (b.append bytes).map view = b.view.extend bytes.length bytes := by
  refine (b.view_claim bytes.length fun _ => bytes).trans ?_
  rcases Nat.lt_or_ge b.capacity (b.used.length + bytes.length) with hover | hfits
  · rw [← capacity_view] at hover
    exact (BoundedList.extend_of_lt _ hover).trans (BoundedList.extend_of_lt _ hover).symm
  · have hshown : bytes.length = (b.spare.take bytes.length).length := by
      have := b.length_used_add_room
      rw [List.length_take, length_spare]
      omega
    rw [Bytes.overlay_eq_self hshown]

/-! ## Starting over -/

/-- The first `n` cells of a buffer that was built with so many are in use. -/
theorem view_lay {capacity : Nat} {front : Bytes} (h : front.length ≤ capacity) (n : Nat) :
    (lay capacity front n).view
      = { contents := (front ++ Bytes.zeros (capacity - front.length)).take n
          beyond := (front ++ Bytes.zeros (capacity - front.length)).drop n } := by
  rw [← cells_lay h n]
  have hcapacity := capacity_lay h n
  have hused : (lay capacity front n).used.length = min n capacity := by
    simp only [used, lay, List.reverse_reverse, List.length_append, List.length_take,
      Bytes.length_zeros]
    omega
  generalize lay capacity front n = laid at *
  rw [capacity_eq, cells, List.length_append] at hcapacity
  unfold view cells
  rcases Nat.le_total n capacity with hn | hn
  · rw [List.take_left' (by omega), List.drop_left' (by omega)]
  · have hspare : laid.spare = [] := List.eq_nil_of_length_eq_zero (by omega)
    rw [hspare, List.append_nil, List.take_of_length_le (by omega),
      List.drop_eq_nil_of_le (by omega)]

theorem view_clear (b : Buffer) : b.clear.view = b.view.clear := by
  have hfront : (Bytes.zeros b.top.length ++ b.stale).length ≤ b.capacity := by
    rw [List.length_append, Bytes.length_zeros, capacity, room]
    omega
  have hblank : b.capacity - (Bytes.zeros b.top.length ++ b.stale).length = b.blank := by
    rw [List.length_append, Bytes.length_zeros, capacity, room]
    omega
  unfold clear
  rw [view_lay hfront, hblank]
  refine BoundedList.ext rfl ?_
  show Bytes.zeros b.top.length ++ b.stale ++ Bytes.zeros b.blank = Bytes.zeros b.used.length ++ _
  rw [used, List.length_reverse, List.append_assoc]
  rfl

theorem view_fill (b : Buffer) (writer : Bytes → Except ε Nat × Bytes) :
    Prod.map id view (b.perform (.fill writer)) = b.view.perform (.fill writer) := by
  have hshown : b.view.clear.beyond = b.clear.cells := by
    rw [← view_clear, cells, used_clear]
    rfl
  unfold perform fill BoundedList.perform
  dsimp only
  rw [hshown]
  generalize writer b.clear.cells = result
  obtain ⟨outcome, written⟩ := result
  obtain ⟨hfront, hstorage⟩ := overlay_cells b.used_clear written
  cases outcome with
  | ok n =>
      refine congrArg (Prod.mk _) ((view_lay hfront n).trans ?_)
      rw [hstorage]
  | error reason =>
      refine congrArg (Prod.mk _) ((view_lay hfront 0).trans ?_)
      rw [hstorage]
      rfl

theorem view_orLeft (b : Buffer) (grown : Except Overflow Buffer) :
    Prod.map id view (orLeft b grown : Except (Refusal ε) Unit × Buffer)
      = orLeft b.view (grown.map view) := by
  cases grown <;> rfl

/-- **An operation does to a buffer what it does to the list that the buffer is meant to be.** -/
theorem view_perform (b : Buffer) (operation : Operation ε) :
    Prod.map id view (b.perform operation) = b.view.perform operation := by
  cases operation with
  | append bytes =>
      refine (view_orLeft b _).trans ?_
      rw [view_append]
      rfl
  | claim n writer =>
      refine (view_orLeft b _).trans ?_
      rw [view_claim]
      rfl
  | clear => exact congrArg (Prod.mk _) b.view_clear
  | fill writer => exact b.view_fill writer

theorem capacity_perform (b : Buffer) (operation : Operation ε) :
    (b.perform operation).2.capacity = b.capacity := by
  have hgrown : ∀ {grown : Except Overflow Buffer},
      (∀ b', grown = .ok b' → b'.capacity = b.capacity) →
        (orLeft b grown : Except (Refusal ε) Unit × Buffer).2.capacity = b.capacity := by
    intro grown h
    cases grown with
    | error overflow => rfl
    | ok b' => exact h b' rfl
  cases operation with
  | append bytes => exact hgrown fun b' h => capacity_append h
  | claim n writer =>
      refine hgrown fun b' h => ?_
      cases hclaim : b.claim n with
      | error overflow =>
          rw [hclaim] at h
          exact absurd h nofun
      | ok claimed =>
          rw [hclaim] at h
          obtain rfl := Except.ok.inj h
          exact capacity_setTail_claim hclaim
  | clear => exact b.capacity_clear
  | fill writer => exact b.capacity_fill fun cleared => writer cleared.cells

/-! ## Rows of operations -/

variable {ω ρ σ τ : Type}

/-- What each of a row of operations brings, and what it leaves behind. -/
def history (perform : σ → ω → ρ × σ) : σ → List ω → List (ρ × σ)
  | _, [] => []
  | s, operation :: operations =>
      perform s operation :: history perform (perform s operation).2 operations

/-- What one operation on `s` does to what is seen of it, a row of them does. -/
theorem history_map {perform : σ → ω → ρ × σ} {perform' : τ → ω → ρ × τ} {see : σ → τ}
    (h : ∀ s operation, Prod.map id see (perform s operation) = perform' (see s) operation)
    (s : σ) (operations : List ω) :
    (history perform s operations).map (Prod.map id see) = history perform' (see s) operations := by
  induction operations generalizing s with
  | nil => rfl
  | cons operation operations ih =>
      have hnext : see (perform s operation).2 = (perform' (see s) operation).2 :=
        congrArg Prod.snd (h s operation)
      rw [history, List.map_cons, ih, h, hnext]
      rfl

/-- What no operation changes is the same at every moment. -/
theorem history_keeps {perform : σ → ω → ρ × σ} {measure : σ → Nat}
    (h : ∀ s operation, measure (perform s operation).2 = measure s) (s : σ)
    (operations : List ω) :
    ∀ moment ∈ history perform s operations, measure moment.2 = measure s := by
  induction operations generalizing s with
  | nil => exact List.forall_mem_nil _
  | cons operation operations ih =>
      refine List.forall_mem_cons.mpr ⟨h s operation, fun moment hmoment => ?_⟩
      exact (ih _ moment hmoment).trans (h s operation)

/-- **A buffer is a list of at most so many octets.** Whatever is done with it, each operation
brings what it brings on the list, and leaves contents and unused cells as there. -/
theorem refines_boundedList (capacity : Nat) (operations : List (Operation ε)) :
    (history perform (empty capacity) operations).map (Prod.map id view)
        = history BoundedList.perform (BoundedList.blank capacity) operations
      ∧ ∀ moment ∈ history perform (empty capacity) operations,
          moment.2.capacity = capacity ∧ moment.2.used.length ≤ capacity := by
  refine ⟨history_map view_perform (empty capacity) operations, fun moment hmoment => ?_⟩
  have hcapacity := history_keeps capacity_perform (empty capacity) operations moment hmoment
  rw [capacity_empty] at hcapacity
  refine ⟨hcapacity, ?_⟩
  have := moment.2.length_used_add_room
  omega

end Buffer

end SecureElement
