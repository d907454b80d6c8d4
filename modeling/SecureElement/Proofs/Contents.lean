import SecureElement.Buffer

/-!
# What a buffer holds

A session looks at the cells in use of its buffers and at nothing else, so each
operation is pinned down by what it makes of `used`. None of them changes the number
of cells.

* claiming cells and writing over them **appends** (`used_setTail_claim`);
* `append` does both at once, or finds that there is no room;
* `fill` **replaces** the contents by what its writer claims of what it wrote.
-/

namespace SecureElement.Buffer

variable {b b' claimed : Buffer} {n : Nat} {bytes : Bytes}

/-- Every cell is in use or free. -/
theorem length_used_add_room (b : Buffer) : b.used.length + b.room = b.capacity := by
  unfold used capacity
  rw [List.length_reverse]

/-- What a successful claim puts in front of the cells that were in use. -/
theorem claim_eq_ok (h : b.claim n = .ok claimed) :
    n ≤ b.room ∧ claimed.room = b.room - n
      ∧ ∃ cells : Bytes, cells.length = n ∧ claimed.top = cells ++ b.top := by
  unfold claim at h
  split at h
  · rename_i hroom
    injection h with h
    subst h
    unfold room at hroom ⊢
    refine ⟨hroom, ?_, _, ?_, rfl⟩
    · simp only [List.length_drop]
      omega
    · simp only [List.length_append, List.length_reverse, List.length_take, Bytes.length_zeros]
      omega
  · exact absurd h (by simp)

/-- Cells that were claimed and written over follow what the buffer held. -/
theorem used_setTail_claim (h : b.claim n = .ok claimed) (hn : bytes.length = n) :
    (claimed.setTail n bytes).used = b.used ++ bytes := by
  obtain ⟨_, _, cells, hcells, htop⟩ := claim_eq_ok h
  have htail : (claimed.tail n).length = n := by
    rw [tail, htop, List.length_reverse, List.length_take, List.length_append]
    omega
  have hdrop : claimed.top.drop n = b.top := by
    rw [htop, ← hcells, List.drop_left]
  unfold setTail used
  rw [Bytes.overlay_eq_self (hn.trans htail.symm), hdrop, List.reverse_append,
    List.reverse_reverse]

theorem capacity_setTail_claim (h : b.claim n = .ok claimed) :
    (claimed.setTail n bytes).capacity = b.capacity := by
  obtain ⟨hroom, hroom', cells, hcells, htop⟩ := claim_eq_ok h
  have htail : (bytes.overlay (claimed.tail n)).length = n := by
    rw [Bytes.length_overlay, tail, htop, List.length_reverse, List.length_take,
      List.length_append]
    omega
  have hdrop : claimed.top.drop n = b.top := by
    rw [htop, ← hcells, List.drop_left]
  have hsame : (claimed.setTail n bytes).room = claimed.room := rfl
  unfold capacity
  rw [hsame, hroom', setTail, hdrop, List.length_append, List.length_reverse, htail]
  omega

theorem append_eq_ok (h : b.append bytes = .ok b') :
    ∃ claimed, b.claim bytes.length = .ok claimed ∧ b' = claimed.setTail bytes.length bytes := by
  unfold append at h
  cases hclaim : b.claim bytes.length with
  | error overflow =>
      rw [hclaim] at h
      exact absurd h (by simp [bind, Except.bind])
  | ok claimed =>
      rw [hclaim] at h
      exact ⟨claimed, rfl, (Except.ok.inj h).symm⟩

theorem used_append (h : b.append bytes = .ok b') : b'.used = b.used ++ bytes := by
  obtain ⟨claimed, hclaim, rfl⟩ := append_eq_ok h
  exact used_setTail_claim hclaim rfl

/-- The contents after a writer that claims exactly what it wrote. -/
theorem used_fill {ε : Type} {writer : Buffer → Except ε Nat × Bytes}
    (h : writer b.clear = (.ok bytes.length, bytes)) (hroom : bytes.length ≤ b.capacity) :
    (b.fill writer).1 = .ok () ∧ (b.fill writer).2.used = bytes := by
  have hwritten : bytes.take b.clear.capacity = bytes :=
    List.take_of_length_le (by rw [capacity_clear]; exact hroom)
  simp only [fill, h]
  refine ⟨trivial, ?_⟩
  simp only [used, lay, List.reverse_reverse, hwritten, List.take_left, List.length_append]
  rw [show min bytes.length b.clear.capacity - (bytes.length +
    (b.clear.stale.drop bytes.length).length) = 0 by omega]
  exact List.append_nil _

/-- A writer that refuses leaves nothing behind. -/
theorem fill_refused {ε : Type} {writer : Buffer → Except ε Nat × Bytes} {e : ε}
    (h : (writer b.clear).1 = .error e) : (b.fill writer).1 = .error e := by
  simp only [fill, h]

theorem used_fill_refused {ε : Type} {writer : Buffer → Except ε Nat × Bytes} {e : ε}
    (h : (writer b.clear).1 = .error e) : (b.fill writer).2.used = [] := by
  simp only [fill, h, used, lay, List.reverse_reverse, List.take_zero, Nat.zero_min, Nat.zero_sub]
  rfl

/-- Octets that are written over the front of a cleared buffer, before the zeros at its end. -/
theorem overlay_cells (h : b.used = []) (written : Bytes) :
    let front := written.take b.capacity ++ b.stale.drop (written.take b.capacity).length
    front.length ≤ b.capacity
      ∧ front ++ Bytes.zeros (b.capacity - front.length) = written.overlay b.cells := by
  have hcapacity : b.capacity = b.stale.length + b.blank := by
    rw [← b.length_used_add_room, h]
    exact Nat.zero_add _
  have hcells : b.cells = b.stale ++ Bytes.zeros b.blank := by
    rw [cells, h]
    rfl
  have hlength : b.cells.length = b.capacity := b.capacity_eq.symm
  dsimp only
  have hfront : (written.take b.capacity ++ b.stale.drop (written.take b.capacity).length).length
      = max b.stale.length (min b.capacity written.length) := by
    rw [List.length_append, List.length_drop, List.length_take]
    omega
  refine ⟨by omega, ?_⟩
  rw [hfront, Bytes.overlay, hlength, hcells, List.append_assoc]
  congr 1
  rw [List.drop_append, Bytes.zeros, Bytes.zeros, List.drop_replicate, List.length_take]
  rcases Nat.le_total written.length b.capacity with hle | hle
  · rw [Nat.min_eq_right hle]
    congr 2
    omega
  · rw [Nat.min_eq_left hle, List.drop_eq_nil_of_le (by omega), List.drop_eq_nil_of_le (by omega)]
    congr 2
    omega

/-- A buffer has the same cells after it was filled, whether the writer failed or not. -/
theorem capacity_fill {ε : Type} (b : Buffer) (writer : Buffer → Except ε Nat × Bytes) :
    (b.fill writer).2.capacity = b.capacity := by
  unfold fill
  dsimp only
  generalize writer b.clear = result
  obtain ⟨outcome, written⟩ := result
  have hfront := (overlay_cells b.used_clear written).1
  cases outcome with
  | ok n => exact (capacity_lay hfront n).trans b.capacity_clear
  | error e => exact (capacity_lay hfront 0).trans b.capacity_clear

theorem capacity_append {b b' : Buffer} {bytes : Bytes} (h : b.append bytes = .ok b') :
    b'.capacity = b.capacity := by
  obtain ⟨claimed, hclaim, rfl⟩ := append_eq_ok h
  exact capacity_setTail_claim hclaim

end SecureElement.Buffer
