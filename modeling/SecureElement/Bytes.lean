/-!
# Byte strings

Everything that crosses the wire is a list of octets. Lengths inside a block are
two octets, high one first, so the two directions of that split live here:

* `Bytes.ofLength` writes a length as its high and low octet;
* `Bytes.toLength` reads the pair back, and is the inverse below `65536`.
-/

namespace SecureElement

/-- A string of octets. -/
abbrev Bytes := List UInt8

namespace Bytes

/-- A string of `n` octets. -/
abbrev Row (n : Nat) := { bytes : Bytes // bytes.length = n }

/-- The number whose high octet is `high` and whose low octet is `low`. -/
def toLength (high low : UInt8) : Nat := 256 * high.toNat + low.toNat

/-- The high and low octet of `n`; anything above `65535` wraps around. -/
def ofLength (n : Nat) : UInt8 × UInt8 := (UInt8.ofNat (n / 256), UInt8.ofNat n)

/-- The largest number that a size can be. -/
def sizeMax : Nat := 0xFFFFFFFFFFFFFFFF

def zeros (n : Nat) : Bytes := List.replicate n 0

/-- A string without the zeros at its end. -/
def trimZeros (bytes : Bytes) : Bytes := (bytes.reverse.dropWhile (· = 0)).reverse

/-- `new` written over the front of `old`, whose length stays what it was. -/
def overlay (new old : Bytes) : Bytes := new.take old.length ++ old.drop new.length

/-- `bytes` with `new` written over the octets from `place` on. -/
def write (bytes : Bytes) (place : Nat) (new : Bytes) : Bytes :=
  bytes.take place ++ new ++ bytes.drop (place + new.length)

@[simp] theorem length_zeros (n : Nat) : (zeros n).length = n := List.length_replicate

theorem zeros_append_zeros (m n : Nat) : zeros m ++ zeros n = zeros (m + n) :=
  List.replicate_append_replicate

theorem toLength_lt (high low : UInt8) : toLength high low < 65536 := by
  have := high.toNat_lt
  have := low.toNat_lt
  simp only [toLength]
  omega

theorem toLength_ofLength {n : Nat} (h : n < 65536) :
    toLength (ofLength n).1 (ofLength n).2 = n := by
  simp only [toLength, ofLength, UInt8.toNat_ofNat']
  omega

theorem length_overlay (new old : Bytes) : (overlay new old).length = old.length := by
  simp only [overlay, List.length_append, List.length_take, List.length_drop]
  omega

/-- What is written over as many octets is what is there then. -/
theorem overlay_eq_self {new old : Bytes} (h : new.length = old.length) :
    new.overlay old = new := by
  rw [overlay, h, List.drop_length, ← h, List.take_length, List.append_nil]

/-- Writing behind what was just written is writing both at once. -/
theorem write_write {bytes : Bytes} {place : Nat} (front back : Bytes) (h : place ≤ bytes.length) :
    (bytes.write place front).write (place + front.length) back
      = bytes.write place (front ++ back) := by
  have hbefore : (bytes.take place ++ front).length = place + front.length := by
    rw [List.length_append, List.length_take, Nat.min_eq_left h]
  simp only [write]
  rw [List.take_left' hbefore, List.drop_append, List.drop_of_length_le (by omega),
    List.nil_append, List.drop_drop, hbefore, List.length_append, ← List.append_assoc]
  congr 2
  omega

/-- Writing from the first octet on replaces a front part. -/
theorem write_zero (bytes new : Bytes) : bytes.write 0 new = new ++ bytes.drop new.length := by
  simp [write]

theorem exists_trimZeros_append (bytes : Bytes) : ∃ n, trimZeros bytes ++ zeros n = bytes := by
  refine ⟨(bytes.reverse.takeWhile (· = 0)).length, ?_⟩
  have zeros_eq : zeros (bytes.reverse.takeWhile (· = 0)).length =
      (bytes.reverse.takeWhile (· = 0)).reverse := by
    rw [zeros, eq_comm, List.eq_replicate_iff]
    refine ⟨by simp, fun b hb => ?_⟩
    have := List.all_takeWhile (p := (· = (0 : UInt8))) (l := bytes.reverse)
    rw [List.all_eq_true] at this
    simpa using this b (List.mem_reverse.1 hb)
  rw [zeros_eq, trimZeros, ← List.reverse_append, List.takeWhile_append_dropWhile,
    List.reverse_reverse]

/-- Zeros that were cut off can be put back. -/
theorem trimZeros_append_zeros (bytes : Bytes) :
    trimZeros bytes ++ zeros (bytes.length - (trimZeros bytes).length) = bytes := by
  obtain ⟨n, h⟩ := exists_trimZeros_append bytes
  have : bytes.length - (trimZeros bytes).length = n := by
    have := congrArg List.length h
    simp only [List.length_append, length_zeros] at this
    omega
  rw [this, h]

theorem length_trimZeros_le (bytes : Bytes) : (trimZeros bytes).length ≤ bytes.length := by
  have := congrArg List.length (trimZeros_append_zeros bytes)
  rw [List.length_append] at this
  omega

end Bytes

end SecureElement
