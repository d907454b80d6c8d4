import SecureElement.Link.Rehearsal
import SecureElement.Proofs.Script

/-!
# A rehearsal that follows a script

Any row of faults and whole blocks can be rehearsed: each arrival is laid down as one
reading, and nothing is laid down for what is handed over. `rehearses_script` says that
such a rehearsal follows the script, whatever a session does in between. So whatever is
shown of a session on a script is shown of a session on a link that there is.
-/

namespace SecureElement.Link

deriving instance DecidableEq for Reading, Writing

instance (e : Epilogue) (capacity : Nat) (arrival : Arrival) :
    Decidable (arrival.Fits e capacity) :=
  match arrival with
  | .fault _ => inferInstanceAs (Decidable True)
  | .block raw => inferInstanceAs (Decidable (IsWhole e raw ∧ raw.length ≤ capacity))

/-- An arrival as it is laid down. -/
def Arrival.reading : Arrival → Reading
  | .fault reason => { outcome := .error (.fault reason) }
  | .block raw => { outcome := .ok { bytes := raw, chunk := none } }

/-- These octets come next, and these readings behind them. -/
inductive Lies (bytes : Bytes) (rest : List Reading) (r : Rehearsal) : Prop where
  /-- A part of them has been read. -/
  | begun : r.current = some { bytes, chunk := none } → r.readings = rest → Lies bytes rest r
  | laid : r.current = none → r.readings = (Arrival.block bytes).reading :: rest → Lies bytes rest r

variable {bytes : Bytes} {rest : List Reading} {n : Nat} {timeout : Nanos}

/-- What is left of some octets when the first of them have been read. -/
def leftover (bytes : Bytes) (n : Nat) : Option Delivery :=
  if (bytes.drop n).isEmpty then none else some { bytes := bytes.drop n, chunk := none }

/-- One read brings as many octets as it asks for. -/
theorem Lies.read_eq {r : Rehearsal} (h : Lies bytes rest r) (n : Nat) (timeout : Nanos) :
    read n timeout r
      = (.ok (bytes.take n), { r with readings := rest, current := leftover bytes n }) := by
  have hdeliver : ∀ r : Rehearsal, r.deliver n { bytes, chunk := none }
      = (bytes.take n, { r with current := leftover bytes n }) := by
    intro r
    unfold Rehearsal.deliver leftover
    rw [Option.getD_none, Nat.min_self]
  show Rehearsal.read n timeout r = _
  unfold Rehearsal.read
  cases h with
  | begun hcurrent hreadings =>
      rw [hcurrent]
      dsimp only
      rw [hdeliver, ← hreadings]
  | laid hcurrent hreadings =>
      rw [hcurrent, hreadings]
      dsimp only [Arrival.reading]
      rw [hdeliver]
      rfl

theorem Lies.behind {r : Rehearsal} (hmore : n < bytes.length)
    (hcurrent : r.current = leftover bytes n) (hreadings : r.readings = rest) :
    Lies (bytes.drop n) rest r := by
  have hsome : (bytes.drop n).isEmpty = false := by
    rw [List.isEmpty_eq_false_iff, ne_eq, List.drop_eq_nil_iff]
    omega
  unfold leftover at hcurrent
  rw [hsome] at hcurrent
  exact .begun hcurrent hreadings

/-- So many octets are there, and they come at once. -/
theorem Lies.readAll {t : Traced Rehearsal} (h : Lies bytes rest t.link) (hpos : 0 < n)
    (hle : n ≤ bytes.length) (timeout : Nanos) :
    ∃ t', Link.readAll n timeout t = ((bytes.take n, none), t') ∧
      t'.link = { t.link with readings := rest, current := leftover bytes n } := by
  obtain ⟨k, rfl⟩ : ∃ k, n = k + 1 := ⟨n - 1, by omega⟩
  have hread := read_traced (k + 1) timeout t
  rw [h.read_eq] at hread
  have hlength : (bytes.take (k + 1)).length = k + 1 := by
    rw [List.length_take]
    omega
  generalize bytes.take (k + 1) = taken at hread hlength
  unfold Link.readAll readUpTo
  rw [hread]
  cases taken with
  | nil => cases hlength
  | cons octet octets =>
      dsimp only
      rw [List.take_of_length_le (Nat.le_of_eq hlength), hlength, Nat.sub_self, readUpTo_none]
      dsimp only
      rw [List.append_nil]
      exact ⟨_, rfl, rfl⟩

/-- The front of a block comes in one piece or in two: its length takes one octet or three. -/
theorem Lies.front {t : Traced Rehearsal} {extension : Nat} (h : Lies bytes rest t.link)
    (hless : Block.shortPrologue + extension < bytes.length) (timeout : Nanos) : ∃ t₁ t₂,
      Link.readAll Block.shortPrologue timeout t = ((bytes.take Block.shortPrologue, none), t₁)
      ∧ Link.readAll extension timeout t₁
        = (((bytes.drop Block.shortPrologue).take extension, none), t₂)
      ∧ Lies (bytes.drop (Block.shortPrologue + extension)) rest t₂.link
      ∧ t₂.link.clock = t.link.clock ∧ t₂.link.writings = t.link.writings := by
  have hshort : 0 < Block.shortPrologue := Nat.succ_pos 2
  have hprologue : Block.shortPrologue < bytes.length := by omega
  obtain ⟨t₁, hread₁, hlink₁⟩ := h.readAll hshort (Nat.le_of_lt hprologue) timeout
  have hlies₁ : Lies (bytes.drop Block.shortPrologue) rest t₁.link :=
    .behind hprologue (congrArg Rehearsal.current hlink₁) (congrArg Rehearsal.readings hlink₁)
  rcases Nat.eq_zero_or_pos extension with hnone | hsome
  · subst hnone
    refine ⟨t₁, t₁, hread₁, rfl, hlies₁, ?_⟩
    rw [hlink₁]
    exact ⟨rfl, rfl⟩
  · have hmore : extension < (bytes.drop Block.shortPrologue).length := by
      rw [List.length_drop]
      omega
    obtain ⟨t₂, hread₂, hlink₂⟩ := hlies₁.readAll hsome (Nat.le_of_lt hmore) timeout
    have hlies₂ := Lies.behind hmore (congrArg Rehearsal.current hlink₂)
      (congrArg Rehearsal.readings hlink₂)
    rw [List.drop_drop] at hlies₂
    refine ⟨t₁, t₂, hread₁, hread₂, hlies₂, ?_⟩
    rw [hlink₂, hlink₁]
    exact ⟨rfl, rfl⟩

/-- Of a fault that is laid down the next read learns. -/
theorem readAll_fault {t : Traced Rehearsal} {reason : Fault} (hcurrent : t.link.current = none)
    (hreadings : t.link.readings = (Arrival.fault reason).reading :: rest) (hpos : 0 < n)
    (timeout : Nanos) :
    ∃ t', Link.readAll n timeout t = (([], some reason), t') ∧
      t'.link = { t.link with readings := rest, current := none } := by
  obtain ⟨k, rfl⟩ : ∃ k, n = k + 1 := ⟨n - 1, by omega⟩
  have hfails : read (k + 1) timeout t.link
      = (.error reason, { t.link with readings := rest, current := none }) := by
    show Rehearsal.read (k + 1) timeout t.link = _
    unfold Rehearsal.read
    rw [hcurrent, hreadings]
    rfl
  have hread := read_traced (k + 1) timeout t
  rw [hfails] at hread
  unfold Link.readAll readUpTo
  rw [hread]
  exact ⟨_, rfl, rfl⟩

/-- These arrivals are laid down before any others, nothing is laid down for what is handed over,
and the time of the call is not up. -/
structure Rehearses (e : Epilogue) (capacity : Nat) (deadline : Option Nanos)
    (t : Traced Rehearsal) (arrivals : List Arrival) : Prop where
  readings : ∃ later, t.link.readings = arrivals.map Arrival.reading ++ later
  current : t.link.current = none
  writings : t.link.writings = []
  fits : ∀ arrival ∈ arrivals, arrival.Fits e capacity
  inTime : ∀ instant ∈ deadline, t.link.clock < instant

namespace Rehearses

variable {e : Epilogue} {capacity : Nat} {deadline : Option Nanos} {t : Traced Rehearsal}
  {arrivals : List Arrival}

theorem taken (h : Rehearses e capacity deadline t arrivals) (frame : Bytes) (timeout : Nanos) :
    ∃ t', writeAll frame timeout t = (.ok (), t') ∧ Rehearses e capacity deadline t' arrivals := by
  have hwrite : write frame timeout t.link = (.ok frame.length, t.link) := by
    show Rehearsal.write frame timeout t.link = _
    unfold Rehearsal.write
    rw [h.writings]
  have htraced := write_traced frame timeout t
  rw [hwrite] at htraced
  refine ⟨t.record (.write frame timeout (.ok frame.length)) t.link, ?_, { h with }⟩
  unfold writeAll
  rw [htraced]
  dsimp only
  rw [if_pos rfl]

theorem fault {reason : Fault}
    (h : Rehearses e capacity deadline t (.fault reason :: arrivals)) (timeout : Nanos) :
    ∃ t', Link.readAll Block.shortPrologue timeout t = (([], some reason), t') ∧
      Rehearses e capacity deadline t' arrivals := by
  obtain ⟨later, hreadings⟩ := h.readings
  have hshort : 0 < Block.shortPrologue := Nat.succ_pos 2
  obtain ⟨t', hread, hlink⟩ := readAll_fault h.current hreadings hshort timeout
  refine ⟨t', hread, ?_⟩
  exact {
    readings := ⟨later, congrArg Rehearsal.readings hlink⟩
    current := congrArg Rehearsal.current hlink
    writings := by rw [hlink]; exact h.writings
    fits := (List.forall_mem_cons.mp h.fits).2
    inTime := by rw [hlink]; exact h.inTime }

theorem block {raw : Bytes} (h : Rehearses e capacity deadline t (.block raw :: arrivals))
    (timeout : Nanos) : ∃ t₁ t₂ t₃,
      Link.readAll Block.shortPrologue timeout t = ((raw.take Block.shortPrologue, none), t₁)
      ∧ Link.readAll (Codec.extension (raw.getD 2 0)) timeout t₁
        = (((raw.drop Block.shortPrologue).take (Codec.extension (raw.getD 2 0)), none), t₂)
      ∧ Link.readAll (raw.length - (Block.shortPrologue + Codec.extension (raw.getD 2 0))) timeout
          t₂
        = ((raw.drop (Block.shortPrologue + Codec.extension (raw.getD 2 0)), none), t₃)
      ∧ Rehearses e capacity deadline t₃ arrivals := by
  obtain ⟨later, hreadings⟩ := h.readings
  obtain ⟨⟨hwhole, -⟩, hfits⟩ := List.forall_mem_cons.mp h.fits
  obtain ⟨hless, -⟩ := Step.isWhole_front hwhole
  generalize Codec.extension (raw.getD 2 0) = extension at hless ⊢
  obtain ⟨t₁, t₂, hread₁, hread₂, hlies, hclock, hwritings⟩ :=
    (Lies.laid h.current hreadings).front hless timeout
  have hlength : (raw.drop (Block.shortPrologue + extension)).length
      = raw.length - (Block.shortPrologue + extension) := List.length_drop
  obtain ⟨t₃, hread₃, hlink₃⟩ := hlies.readAll (by omega) (Nat.le_of_eq hlength.symm) timeout
  rw [List.take_of_length_le (Nat.le_of_eq hlength)] at hread₃
  refine ⟨t₁, t₂, t₃, hread₁, hread₂, hread₃, ?_⟩
  have hnone : leftover (raw.drop (Block.shortPrologue + extension))
      (raw.length - (Block.shortPrologue + extension)) = none := by
    unfold leftover
    rw [← hlength, List.drop_length]
    rfl
  exact {
    readings := ⟨later, congrArg Rehearsal.readings hlink₃⟩
    current := (congrArg Rehearsal.current hlink₃).trans hnone
    writings := by rw [hlink₃]; exact hwritings.trans h.writings
    fits := hfits
    inTime := by rw [hlink₃]; dsimp only; rw [hclock]; exact h.inTime }

/-- Readings that bring something are counted by what is unread. -/
theorem unread_replicate {reading : Reading} (hsize : 0 < reading.size) (later : List Reading) :
    ∀ n : Nat, n ≤ (List.replicate n reading ++ later).foldr (fun r k => r.size + k) 0
  | 0 => Nat.zero_le _
  | n + 1 => by
      have hrest := unread_replicate hsize later n
      rw [List.replicate_succ, List.cons_append, List.foldr_cons]
      omega

/-- So a row of blocks is no longer than the backlog. -/
theorem replicate_le {n : Nat} {raw : Bytes} (hsize : 0 < raw.length)
    (h : Rehearses e capacity deadline t (List.replicate n (.block raw) ++ arrivals)) :
    n ≤ backlog t := by
  obtain ⟨later, hreadings⟩ := h.readings
  rw [List.map_append, List.map_replicate, List.append_assoc] at hreadings
  have hreading : 0 < (Arrival.block raw).reading.size := hsize
  have hmany := unread_replicate hreading (arrivals.map Arrival.reading ++ later) n
  rw [← hreadings] at hmany
  exact Nat.le_trans hmany (Nat.le_add_left _ _)

end Rehearses

/-- **A rehearsal follows the script that is laid down for it.** -/
theorem rehearses_script (e : Epilogue) (capacity : Nat) (blockTimeout : Nanos)
    (deadline : Option Nanos) :
    Script blockTimeout deadline (Rehearses e capacity deadline) where
  taken := fun h frame => h.taken frame blockTimeout
  fault := by
    intro t reason arrivals h timeout _ _
    obtain ⟨t', hfault⟩ := h.fault timeout
    exact ⟨[], t', hfault⟩
  block := fun h timeout _ _ => h.block timeout
  inTime := fun h instant hdeadline => h.inTime instant hdeadline

end SecureElement.Link
