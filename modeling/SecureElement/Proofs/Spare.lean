import SecureElement.Proofs.Contents

/-!
# Unused cells

Unused cells of a buffer can come to light when they are claimed, so a session keeps them
zero: a buffer is `Tidy` from the start, and every operation of a session leaves it so.

A tidy buffer that is cleared is as good as a new one. So two tidy buffers of one size may
hold what they like, and once both are cleared or filled they are the same buffer. Such
buffers are `Paired`.
-/

namespace SecureElement

theorem Bytes.trimZeros_zeros (n : Nat) : trimZeros (zeros n) = [] := by
  unfold trimZeros zeros
  rw [List.reverse_replicate, List.dropWhile_replicate, if_pos (decide_eq_true rfl)]
  rfl

namespace Buffer

variable {b b' claimed : Buffer} {n : Nat} {bytes : Bytes}

/-- Every unused cell holds zero. -/
def Tidy (b : Buffer) : Prop := b.stale = []

theorem tidy_empty (n : Nat) : (empty n).Tidy := rfl

/-- A tidy buffer that is cleared is as good as new. -/
theorem Tidy.clear_eq (h : b.Tidy) : b.clear = empty b.capacity := by
  unfold Tidy at h
  unfold clear lay
  rw [h, List.append_nil, List.drop_zero, Bytes.trimZeros_zeros, List.take_zero, Nat.zero_min,
    Nat.zero_sub]
  rfl

theorem Tidy.clear (h : b.Tidy) : b.clear.Tidy := by
  rw [h.clear_eq]
  exact tidy_empty _

theorem Tidy.setTail_claim (h : b.Tidy) (hclaim : b.claim n = .ok claimed) :
    (claimed.setTail n bytes).Tidy := by
  unfold Tidy at h
  unfold claim at hclaim
  split at hclaim
  · obtain rfl := Except.ok.inj hclaim
    show b.stale.drop n = []
    rw [h, List.drop_nil]
  · exact absurd hclaim nofun

theorem Tidy.append (h : b.Tidy) (happend : b.append bytes = .ok b') : b'.Tidy := by
  obtain ⟨claimed, hclaim, rfl⟩ := append_eq_ok happend
  exact h.setTail_claim hclaim

/-- A writer that claims all that it wrote, or wrote nothing, leaves nothing unused behind. -/
theorem Tidy.fill {ε : Type} {writer : Buffer → Except ε Nat × Bytes} (h : b.Tidy)
    (hok : ∀ n, (writer b.clear).1 = .ok n → (writer b.clear).2.length ≤ n)
    (herror : ∀ e, (writer b.clear).1 = .error e → (writer b.clear).2 = []) :
    (b.fill writer).2.Tidy := by
  have hlaid : ∀ (written : Bytes) (n : Nat), written.length ≤ n →
      (lay b.clear.capacity (written.take b.clear.capacity ++ b.clear.stale.drop
        (written.take b.clear.capacity).length) n).Tidy := by
    intro written n hn
    have hstale : b.clear.stale = [] := h.clear
    unfold lay Tidy
    dsimp only
    rw [hstale, List.drop_nil, List.append_nil, List.drop_eq_nil_of_le
      (Nat.le_trans (List.length_take_le' ..) hn)]
    rfl
  unfold Buffer.fill
  cases houtcome : (writer b.clear).1 with
  | ok n =>
      simp only [houtcome]
      exact hlaid _ n (hok n houtcome)
  | error e =>
      simp only [houtcome]
      exact hlaid _ 0 (by rw [herror e houtcome]; exact Nat.le_refl 0)

/-- Two buffers that only differ in their contents. -/
structure Paired (b b' : Buffer) : Prop where
  tidy : b.Tidy
  tidy' : b'.Tidy
  capacity : b'.capacity = b.capacity

theorem Tidy.paired (h : b.Tidy) : Paired b b := ⟨h, h, rfl⟩

/-- Once they are cleared they are the same. -/
theorem Paired.clear_eq (h : Paired b b') : b'.clear = b.clear := by
  rw [h.tidy'.clear_eq, h.tidy.clear_eq, h.capacity]

theorem Paired.fill_eq {ε : Type} (h : Paired b b') (writer : Buffer → Except ε Nat × Bytes) :
    b'.fill writer = b.fill writer := by
  unfold fill
  rw [h.clear_eq]

end Buffer

end SecureElement
