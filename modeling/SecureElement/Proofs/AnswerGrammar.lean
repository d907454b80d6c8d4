import SecureElement.AnswerToReset

/-!
# The grammar of an answer to reset

What `AnswerToReset.parse` accepts is written down here as a grammar, without a reader: a
`Layout` is a version, a vendor, three counted fields and the layer between two of them, of
which the first has at least four octets and the second at least eleven. `Layout.octets` is
its spelling and `Layout.answer` says what stands where.

`Reads` ties a reader to a grammar, from both sides: it takes every spelling off the front
of what is there, and refuses what does not begin with one. Readers that go one after the
other are tied to the spellings one after the other (`Reads.bind`), so that
`reader_reads` follows the reader step by step. A field that is read by a reader of its
own cannot take more than the field has (`reads_within`).
-/

namespace SecureElement.AnswerToReset

/-- As many octets as a single one can count, and not less than `n`. -/
abbrev Field (n : Nat) := { bytes : Bytes // n ≤ bytes.length ∧ bytes.length ≤ 255 }

/-- The field behind its count. -/
def Field.counted {n : Nat} (field : Field n) : Bytes := UInt8.ofNat field.val.length :: field.val

/-- The octet at a place. -/
def octetAt (bytes : Bytes) (place : Nat) : UInt8 := bytes.getD place 0

/-- The number at a place and the one behind it, high octet first. -/
def wordAt (bytes : Bytes) (place : Nat) : Nat :=
  Bytes.toLength (octetAt bytes place) (octetAt bytes (place + 1))

/-- The parts of an answer. -/
structure Layout where
  version : UInt8
  vendor : Bytes.Row 5
  link : Field 4
  layer : UInt8
  physical : Field 11
  historical : Field 0

namespace Layout

/-- How an answer with these parts is spelt. -/
def octets (l : Layout) : Bytes :=
  l.version :: l.vendor.val ++ l.link.counted ++ l.layer :: l.physical.counted
    ++ l.historical.counted

/-- What an answer with these parts says. Octets 4 to 6 of the physical field say nothing. -/
def answer (l : Layout) : AnswerToReset where
  version := l.version
  vendor := l.vendor.val
  blockWaitingTime := wordAt l.link.val 0 * Time.milli
  ifsc := wordAt l.link.val 2
  physicalLayer := l.layer
  maxClock := wordAt l.physical.val 0
  configuration := octetAt l.physical.val 2
  minPollingTime := (octetAt l.physical.val 3).toNat * Time.milli
  guardTime := wordAt l.physical.val 7 * Time.micro
  wakeUpTime := wordAt l.physical.val 9 * Time.micro
  historical := l.historical.val

/-- Two layouts that differ in nothing but the surplus of their fields. -/
structure Alike (l l' : Layout) : Prop where
  version : l.version = l'.version
  vendor : l.vendor = l'.vendor
  link : l.link.val.take 4 = l'.link.val.take 4
  layer : l.layer = l'.layer
  physical : l.physical.val.take 11 = l'.physical.val.take 11
  historical : l.historical = l'.historical

end Layout

/-! ## Readers and what they accept -/

namespace Reader

variable {α β σ τ : Type} {n m : Nat}

/-- The only complaint. -/
abbrev truncated : Block.Fault := .malformed .answerTruncated

/-- A reader that takes spellings off the front of what is there, and refuses everything else. -/
structure Reads (reader : Reader α) (octets : σ → Bytes) (value : σ → α) : Prop where
  accepts : ∀ s rest, reader (octets s ++ rest) = .ok (value s, rest)
  refuses : ∀ bytes, (∀ s rest, bytes ≠ octets s ++ rest) → reader bytes = .error truncated

theorem bind_ok {reader : Reader α} {next : α → Reader β} {bytes rest : Bytes} {a : α}
    (h : reader bytes = .ok (a, rest)) : (reader >>= next) bytes = next a rest := by
  show Except.bind (reader bytes) _ = _
  rw [h]
  rfl

theorem bind_error {reader : Reader α} {next : α → Reader β} {bytes : Bytes} {fault : Block.Fault}
    (h : reader bytes = .error fault) : (reader >>= next) bytes = .error fault := by
  show Except.bind (reader bytes) _ = _
  rw [h]
  rfl

theorem reads_pure (a : α) : Reads (pure a : Reader α) (fun _ : Unit => []) fun _ => a where
  accepts _ _ := rfl
  refuses bytes h := absurd rfl (h () bytes)

/-- What is read one after the other is spelt one behind the other. -/
theorem Reads.bind {reader : Reader α} {octets : σ → Bytes} {value : σ → α} {next : α → Reader β}
    {octets' : τ → Bytes} {value' : σ → τ → β} (h : Reads reader octets value)
    (hnext : ∀ s, Reads (next (value s)) octets' (value' s)) :
    Reads (reader >>= next) (fun s : σ × τ => octets s.1 ++ octets' s.2)
      fun s => value' s.1 s.2 where
  accepts s rest := by
    rw [List.append_assoc, bind_ok (h.accepts s.1 _)]
    exact (hnext s.1).accepts s.2 rest
  refuses bytes hnone := by
    by_cases hfirst : ∃ s rest, bytes = octets s ++ rest
    · obtain ⟨s, rest, rfl⟩ := hfirst
      rw [bind_ok (h.accepts s rest)]
      refine (hnext s).refuses rest fun t rest' hrest => hnone (s, t) rest' ?_
      rw [hrest, List.append_assoc]
    · exact bind_error (h.refuses bytes fun s rest heq => hfirst ⟨s, rest, heq⟩)

/-- The same spellings under other names. -/
theorem Reads.rename {reader : Reader α} {octets : σ → Bytes} {value : σ → α}
    {octets' : τ → Bytes} {value' : τ → α} (h : Reads reader octets value) (name : τ → σ)
    (hname : ∀ s, ∃ t, name t = s) (hoctets : ∀ t, octets' t = octets (name t))
    (hvalue : ∀ t, value' t = value (name t)) : Reads reader octets' value' where
  accepts t rest := by
    rw [hoctets, hvalue]
    exact h.accepts (name t) rest
  refuses bytes hnone := h.refuses bytes fun s rest heq => by
    obtain ⟨t, rfl⟩ := hname s
    exact hnone t rest (by rw [hoctets, heq])

theorem take_of_lt {bytes : Bytes} (h : bytes.length < n) : take n bytes = .error truncated :=
  if_pos h

theorem take_of_le {bytes : Bytes} (h : n ≤ bytes.length) :
    take n bytes = .ok (bytes.take n, bytes.drop n) := if_neg (Nat.not_lt.mpr h)

theorem take_append {front rest : Bytes} (h : front.length = n) :
    take n (front ++ rest) = .ok (front, rest) := by
  rw [take_of_le (by rw [List.length_append]; omega), List.take_left' h, List.drop_left' h]

theorem reads_take (n : Nat) : Reads (take n) (fun row : Bytes.Row n => row.val) (·.val) where
  accepts row rest := take_append row.property
  refuses bytes hnone := by
    refine take_of_lt (Nat.not_le.mp fun hle => ?_)
    exact hnone ⟨bytes.take n, List.length_take_of_le hle⟩ (bytes.drop n)
      (List.take_append_drop n bytes).symm

theorem reads_octet : Reads octet (fun b : UInt8 => [b]) fun b => b where
  accepts _ _ := rfl
  refuses bytes hnone := by
    cases bytes with
    | nil => rfl
    | cons b rest => exact absurd rfl (hnone b rest)

theorem reads_counted : Reads counted (fun field : Field 0 => field.counted) (·.val) where
  accepts field rest := by
    have hcount : (UInt8.ofNat field.val.length).toNat = field.val.length := by
      rw [UInt8.toNat_ofNat']
      have := field.property
      omega
    have hhead := reads_octet.accepts (UInt8.ofNat field.val.length) (field.val ++ rest)
    refine (bind_ok hhead).trans (take_append ?_)
    exact hcount.symm
  refuses bytes hnone := by
    cases bytes with
    | nil => rfl
    | cons count rest =>
        refine (bind_ok (reads_octet.accepts count rest)).trans (take_of_lt ?_)
        refine Nat.not_le.mp fun hle => ?_
        have hlength : (rest.take count.toNat).length = count.toNat := List.length_take_of_le hle
        have hfew := count.toNat_lt
        refine hnone ⟨rest.take count.toNat, Nat.zero_le _, by omega⟩ (rest.drop count.toNat) ?_
        show count :: rest = UInt8.ofNat (rest.take count.toNat).length
          :: rest.take count.toNat ++ rest.drop count.toNat
        rw [hlength, UInt8.ofNat_toNat, List.cons_append, List.take_append_drop]

/-! ## Readers of a fixed number of octets -/

/-- A reader that always takes the next `n` octets, and reads them where they stand. -/
def Takes (n : Nat) (reader : Reader α) (value : Bytes → α) : Prop :=
  ∀ bytes, reader bytes
    = if bytes.length < n then .error truncated else .ok (value bytes, bytes.drop n)

theorem takes_pure (a : α) : Takes 0 (pure a : Reader α) fun _ => a := fun _ => rfl

theorem takes_take (n : Nat) : Takes n (take n) (·.take n) := fun _ => rfl

theorem Takes.bind {reader : Reader α} {value : Bytes → α} {next : α → Reader β}
    {value' : α → Bytes → β} (h : Takes m reader value) (hnext : ∀ a, Takes n (next a) (value' a)) :
    Takes (m + n) (reader >>= next) fun bytes => value' (value bytes) (bytes.drop m) := by
  intro bytes
  by_cases hshort : bytes.length < m
  · rw [bind_error ((h bytes).trans (if_pos hshort)), if_pos (by omega)]
  · rw [bind_ok ((h bytes).trans (if_neg hshort)), hnext, List.length_drop, List.drop_drop]
    have hrest : bytes.length - m < n ↔ bytes.length < m + n := by omega
    simp only [hrest]

theorem takes_octet : Takes 1 octet (octetAt · 0) := by
  intro bytes
  cases bytes <;> rfl

theorem takes_word : Takes 2 word (wordAt · 0) := by
  intro bytes
  match bytes with
  | [] => rfl
  | [_] => rfl
  | _ :: _ :: _ => rfl

/-- Where no field begins there is none to be read. -/
theorem within_refuses {reader : Reader α} {bytes : Bytes}
    (h : ∀ (field : Field 0) rest, bytes ≠ field.counted ++ rest) :
    within reader bytes = .error truncated :=
  bind_error (reads_counted.refuses bytes h)

/-- A field is read by itself, whatever stands behind it. -/
theorem within_field {reader : Reader α} {value : Bytes → α} (h : Takes n reader value)
    (field : Field 0) (rest : Bytes) :
    within reader (field.counted ++ rest)
      = if field.val.length < n then .error truncated else .ok (value field.val, rest) := by
  refine (bind_ok (reads_counted.accepts field rest)).trans ?_
  show Except.bind (Except.bind (reader field.val) _) _ = _
  rw [h]
  split <;> rfl

/-- **A reader within a field** takes the field, if this has the octets that it reads. -/
theorem reads_within {reader : Reader α} {value : Bytes → α} (h : Takes n reader value) :
    Reads (within reader) (fun field : Field n => field.counted) fun field => value field.val where
  accepts field rest :=
    (within_field h ⟨field.val, Nat.zero_le _, field.property.2⟩ rest).trans
      (if_neg (Nat.not_lt.mpr field.property.1))
  refuses bytes hnone := by
    by_cases hfield : ∃ (field : Field 0) (rest : Bytes), bytes = field.counted ++ rest
    · obtain ⟨field, rest, rfl⟩ := hfield
      rw [within_field h]
      refine if_pos (Nat.not_le.mp fun hlong => ?_)
      exact hnone ⟨field.val, hlong, field.property.2⟩ rest rfl
    · exact within_refuses fun field rest heq => hfield ⟨field, rest, heq⟩

end Reader

open Reader

/-! ## The two fields that have a meaning -/

theorem octetAt_drop (bytes : Bytes) (n place : Nat) :
    octetAt (bytes.drop n) place = octetAt bytes (n + place) := by
  simp only [octetAt, List.getD_eq_getElem?_getD, List.getElem?_drop]

theorem wordAt_drop (bytes : Bytes) (n place : Nat) :
    wordAt (bytes.drop n) place = wordAt bytes (n + place) := by
  simp only [wordAt, octetAt_drop, Nat.add_assoc]

theorem takes_linkField :
    Takes 4 linkField fun field => (wordAt field 0 * Time.milli, wordAt field 2) := by
  have h := takes_word.bind fun waiting => takes_word.bind fun ifsc =>
    takes_pure (waiting * Time.milli, ifsc)
  simp only [wordAt_drop] at h
  exact h

theorem takes_physicalField :
    Takes 11 physicalField fun field =>
      (wordAt field 0, octetAt field 2, (octetAt field 3).toNat * Time.milli,
        wordAt field 7 * Time.micro, wordAt field 9 * Time.micro) := by
  have h := takes_word.bind fun clock => takes_octet.bind fun flags =>
    takes_octet.bind fun polling => (takes_take 3).bind fun _ =>
    takes_word.bind fun guardTime => takes_word.bind fun wakeUp =>
    takes_pure (clock, flags, polling.toNat * Time.milli, guardTime * Time.micro,
      wakeUp * Time.micro)
  simp only [wordAt_drop, octetAt_drop, List.drop_drop] at h
  exact h

/-! ## The whole answer -/

/-- The parts of a layout, in the order in which they are read. -/
def Layout.parts (l : Layout) : UInt8 × Bytes.Row 5 × Field 4 × UInt8 × Field 11 × Field 0 × Unit :=
  (l.version, l.vendor, l.link, l.layer, l.physical, l.historical, ())

/-- **The reader of an answer reads its layouts.** -/
theorem reader_reads : Reads reader Layout.octets Layout.answer := by
  have h : Reads reader _ _ :=
    reads_octet.bind fun version => (reads_take 5).bind fun vendor =>
    (reads_within takes_linkField).bind fun link => reads_octet.bind fun layer =>
    (reads_within takes_physicalField).bind fun physical => reads_counted.bind fun historical =>
    reads_pure (Layout.answer ⟨version, vendor, link, layer, physical, historical⟩)
  refine h.rename Layout.parts (fun s => ?_) (fun l => ?_) fun _ => rfl
  · obtain ⟨version, vendor, link, layer, physical, historical, -⟩ := s
    exact ⟨⟨version, vendor, link, layer, physical, historical⟩, rfl⟩
  · simp only [Layout.octets, Layout.parts, List.append_assoc, List.append_nil, List.cons_append,
      List.nil_append]

/-! ## What is parsed -/

section Parsing

variable {bytes rest : Bytes} {answer : AnswerToReset} {l l' : Layout}

theorem parse_of_reader (h : reader bytes = .ok (answer, rest)) : parse bytes = .ok answer := by
  show Except.bind (reader bytes) _ = _
  rw [h]
  rfl

theorem parse_layout (l : Layout) (rest : Bytes) : parse (l.octets ++ rest) = .ok l.answer :=
  parse_of_reader (reader_reads.accepts l rest)

theorem parse_refuses (h : ¬ ∃ (l : Layout) (rest : Bytes), bytes = l.octets ++ rest) :
    parse bytes = .error truncated := by
  show Except.bind (reader bytes) _ = _
  rw [reader_reads.refuses bytes fun l rest heq => h ⟨l, rest, heq⟩]
  rfl

/-- Only a layout is parsed. -/
theorem exists_layout (h : parse bytes = .ok answer) :
    ∃ (l : Layout) (rest : Bytes), bytes = l.octets ++ rest ∧ l.answer = answer := by
  by_cases hlayout : ∃ (l : Layout) (rest : Bytes), bytes = l.octets ++ rest
  · obtain ⟨l, rest, rfl⟩ := hlayout
    exact ⟨l, rest, rfl, Except.ok.inj ((parse_layout l rest).symm.trans h)⟩
  · exact absurd (h.symm.trans (parse_refuses hlayout)) nofun

/-- An answer ends where it ends, whatever stands behind it. -/
theorem rest_eq {rest' : Bytes} (h : l.octets ++ rest = l'.octets ++ rest') : rest = rest' := by
  have hread := (reader_reads.accepts l rest).symm.trans
    ((congrArg reader h).trans (reader_reads.accepts l' rest'))
  exact congrArg Prod.snd (Except.ok.inj hread)

/-- A part of an answer is not an answer. -/
theorem parse_front {front : Bytes} (hfront : front <+: l.octets ++ rest)
    (hshort : front.length < l.octets.length) : parse front = .error truncated := by
  refine parse_refuses fun ⟨l', rest', hlayout⟩ => ?_
  obtain ⟨back, hback⟩ := hfront
  have hwhole : l'.octets ++ (rest' ++ back) = l.octets ++ rest := by
    rw [← List.append_assoc, ← hlayout, hback]
  -- both end at the same place, which is behind the part
  have hlength := congrArg List.length hwhole
  rw [rest_eq hwhole, List.length_append, List.length_append] at hlength
  have := congrArg List.length hlayout
  rw [List.length_append] at this
  omega

theorem octetAt_take {n place : Nat} (h : place < n) :
    octetAt (bytes.take n) place = octetAt bytes place := by
  simp only [octetAt, List.getD_eq_getElem?_getD, List.getElem?_take_of_lt h]

theorem wordAt_take {n place : Nat} (h : place + 1 < n) :
    wordAt (bytes.take n) place = wordAt bytes place := by
  unfold wordAt
  rw [octetAt_take h, octetAt_take (Nat.lt_of_succ_lt h)]

/-- The surplus of a field says nothing. -/
theorem Layout.Alike.answer_eq (h : Alike l l') : l.answer = l'.answer := by
  have hword : ∀ place, place + 1 < 4 → wordAt l.link.val place = wordAt l'.link.val place :=
    fun place hplace => by rw [← wordAt_take hplace, h.link, wordAt_take hplace]
  have hword' : ∀ place, place + 1 < 11 →
      wordAt l.physical.val place = wordAt l'.physical.val place :=
    fun place hplace => by rw [← wordAt_take hplace, h.physical, wordAt_take hplace]
  have hoctet : ∀ place, place < 11 →
      octetAt l.physical.val place = octetAt l'.physical.val place :=
    fun place hplace => by rw [← octetAt_take hplace, h.physical, octetAt_take hplace]
  unfold Layout.answer
  rw [h.version, h.vendor, h.layer, h.historical, hword 0 (by decide), hword 2 (by decide),
    hword' 0 (by decide), hword' 7 (by decide), hword' 9 (by decide), hoctet 2 (by decide),
    hoctet 3 (by decide)]

/--
**The parser accepts its grammar and nothing else.** A byte string is parsed exactly if a
layout stands at its front, and then to what that layout says; everything else is refused,
with one complaint. So neither the surplus of a field nor what stands behind the answer
makes a difference, nor does appending something, and no part of an answer that ends before
its last historical byte is accepted.
-/
theorem parses_grammar :
    (∀ bytes answer, parse bytes = .ok answer ↔
      ∃ (l : Layout) (rest : Bytes), bytes = l.octets ++ rest ∧ l.answer = answer) ∧
    (∀ bytes fault, parse bytes = .error fault ↔ fault = .malformed .answerTruncated ∧
      ¬ ∃ (l : Layout) (rest : Bytes), bytes = l.octets ++ rest) ∧
    Block.Defect.answerTruncated.text = "truncated ATR" ∧
    (∀ (l l' : Layout) (rest rest' : Bytes), l.Alike l' →
      parse (l.octets ++ rest) = parse (l'.octets ++ rest')) ∧
    (∀ bytes answer more, parse bytes = .ok answer → parse (bytes ++ more) = .ok answer) ∧
    ∀ (l : Layout) (rest front : Bytes), front <+: l.octets ++ rest →
      front.length < l.octets.length → parse front = .error (.malformed .answerTruncated) := by
  refine ⟨fun bytes answer => ⟨exists_layout, ?_⟩, fun bytes fault => ⟨fun h => ?_, ?_⟩, rfl,
    fun l l' rest rest' halike => ?_, fun bytes answer more h => ?_,
    fun l rest front hfront hshort => parse_front hfront hshort⟩
  · rintro ⟨l, rest, rfl, rfl⟩
    exact parse_layout l rest
  · have hnone : ¬ ∃ (l : Layout) (rest : Bytes), bytes = l.octets ++ rest := by
      rintro ⟨l, rest, rfl⟩
      exact absurd ((parse_layout l rest).symm.trans h) nofun
    exact ⟨Except.error.inj (h.symm.trans (parse_refuses hnone)), hnone⟩
  · rintro ⟨rfl, hnone⟩
    exact parse_refuses hnone
  · rw [parse_layout, parse_layout, halike.answer_eq]
  · obtain ⟨l, rest, rfl, rfl⟩ := exists_layout h
    rw [List.append_assoc]
    exact parse_layout l (rest ++ more)

end Parsing

/-- The parts of an answer that a secure element on an I²C bus gives. -/
def element : Layout where
  version := 0x00
  vendor := ⟨[0xA0, 0x00, 0x00, 0x03, 0x96], rfl⟩
  link := ⟨[0x03, 0xE8, 0x00, 0xFE], by decide⟩
  layer := 0x02
  physical := ⟨[0x03, 0xE8, 0x08, 0x01, 0x00, 0x00, 0x00, 0x00, 0x64, 0x00, 0x00], by decide⟩
  historical := ⟨[0x4A, 0x43, 0x4F, 0x50, 0x34, 0x20, 0x41, 0x54, 0x50, 0x4F], by decide⟩

/-- The same parts, with an octet too many in the first field. -/
def roomyElement : Layout :=
  { element with link := ⟨[0x03, 0xE8, 0x00, 0xFE, 0x7F], by decide⟩ }

/-- Its answer is read with something behind it and with surplus in it, and its first twenty octets
are refused. -/
theorem parses_grammar_element :
    (∃ answer, parse (element.octets ++ [0xFF]) = .ok answer ∧
      answer.blockWaitingTime = 1000 * Time.milli ∧ answer.ifsc = 254 ∧ answer.isI2c = true ∧
      answer.maxClock = 1000 ∧ answer.guardTime = 100 * Time.micro) ∧
    roomyElement.octets.length = 36 ∧
      parse (roomyElement.octets ++ []) = parse (element.octets ++ [0xFF]) ∧
    parse (element.octets.take 20) = .error (.malformed .answerTruncated) := by
  obtain ⟨haccepts, -, -, hsurplus, happend, hfronts⟩ := parses_grammar
  have hparse : parse element.octets = .ok element.answer :=
    (haccepts _ _).mpr ⟨element, [], (List.append_nil _).symm, rfl⟩
  have hfront : element.octets.take 20 <+: element.octets ++ [] := by
    rw [List.append_nil]
    exact List.take_prefix 20 element.octets
  exact ⟨⟨element.answer, happend _ _ _ hparse, rfl, rfl, rfl, rfl, rfl⟩, rfl,
    hsurplus roomyElement element [] [0xFF] ⟨rfl, rfl, rfl, rfl, rfl, rfl⟩,
    hfronts element [] _ hfront (by decide)⟩

end SecureElement.AnswerToReset
