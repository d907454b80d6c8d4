import SecureElement.Proofs.RoundTrip

/-!
# The grammar of blocks

What counts as a block is said here without mention of the reader: `Spells` relates
octets to the block that they spell, `Objection` names what is wrong with octets that
spell none. An objection is raised only where all earlier ones do not apply, so the
order of its cases is the order of judgement.

* The reader **accepts exactly what spells a block**, and **reports exactly the first
  objection** (`decode_grammar`). Every string of octets falls under one or the other
  (`spells_or_objection`).
* A block that was read is written again with the length in its shortest form, and
  everything else as it was (`encode_again`). That need not be the frame that was
  read: a longer form is understood as well, but never written.
-/

namespace SecureElement

/-- The check value in the epilogue is that of everything before it. -/
def Parts.Checks (p : Parts) (e : Epilogue) : Prop :=
  p.epilogue = e.encode (e.compute p.covered)

/-- What a payload must look like, by the type of its block. -/
def Control.Suits : Control → Bytes → Prop
  | .ready _ _, payload => payload = []
  | .supervisory .wtx _, payload => payload.length = 1
  | _, _ => True

/-- The octets are those of `block`, sent by the peer. -/
inductive Spells (c : Codec) : Bytes → Block → Prop
  | intro {p : Parts} {control : Control} (fit : p.Fit c.epilogue) (checks : p.Checks c.epilogue)
      (known : control.toByte = p.control) (peer : p.node = c.peer)
      (suits : control.Suits p.payload) :
      Spells c p.octets
        { address := p.node, control, payload := p.payload, edc := c.epilogue.compute p.covered }

/-- The first thing that is wrong with octets. -/
inductive Objection (c : Codec) : Bytes → Block.Fault → Prop
  | truncated {raw : Bytes} (short : Truncated c.epilogue raw) :
      Objection c raw (.malformed .truncated)
  | lengthMismatch {raw : Bytes} (enough : ¬ Truncated c.epilogue raw)
      (unfit : ∀ p : Parts, p.Fit c.epilogue → p.octets ≠ raw) :
      Objection c raw (.malformed .lengthMismatch)
  | epilogueMismatch {p : Parts} {carried : UInt16} (fit : p.Fit c.epilogue)
      (wrong : ¬ p.Checks c.epilogue) (read : c.epilogue.load? p.epilogue = some carried) :
      Objection c p.octets (.epilogueMismatch (c.epilogue.compute p.covered) carried)
  | unknownControl {p : Parts} (fit : p.Fit c.epilogue) (checks : p.Checks c.epilogue)
      (unknown : ∀ control : Control, control.toByte ≠ p.control) :
      Objection c p.octets (.malformed .unknownControl)
  | foreignAddress {p : Parts} {control : Control} (fit : p.Fit c.epilogue)
      (checks : p.Checks c.epilogue) (known : control.toByte = p.control)
      (foreign : p.node ≠ c.peer) :
      Objection c p.octets (.malformed .foreignAddress)
  | readyWithPayload {p : Parts} {seq : Seq} {receipt : Receipt} (fit : p.Fit c.epilogue)
      (checks : p.Checks c.epilogue) (known : (Control.ready seq receipt).toByte = p.control)
      (peer : p.node = c.peer) (unsuited : p.payload ≠ []) :
      Objection c p.octets (.malformed .readyWithPayload)
  | multiplierMissing {p : Parts} {response : Bool} (fit : p.Fit c.epilogue)
      (checks : p.Checks c.epilogue)
      (known : (Control.supervisory .wtx response).toByte = p.control)
      (peer : p.node = c.peer) (unsuited : p.payload.length ≠ 1) :
      Objection c p.octets (.malformed .multiplierMissing)

/-- The same frame with its length in the shortest form, and with the epilogue that it had. -/
def Parts.shortened (p : Parts) : Parts :=
  { p with length := Codec.shortestForm p.payload.length }

namespace Codec

variable {c : Codec} {e : Epilogue} {raw : Bytes} {block : Block} {fault : Block.Fault}
  {control : Control} {p : Parts}

theorem payloadDefect?_eq_none_iff (control : Control) (payload : Bytes) :
    payloadDefect? control payload = none ↔ control.Suits payload := by
  cases control with
  | information seq more => simp [payloadDefect?, Control.Suits]
  | ready seq receipt => simp [payloadDefect?, Control.Suits]
  | supervisory function response =>
      cases function <;> simp [payloadDefect?, Control.Suits]

/-- Octets that are enough and as many as they announce are a frame. -/
theorem fit_or_unfit (e : Epilogue) (raw : Bytes) :
    Truncated e raw
    ∨ (∃ node pcb form n rest, LengthForm form n ∧ raw = node :: pcb :: (form ++ rest)
        ∧ e.width ≤ rest.length ∧ rest.length ≠ n + e.width)
    ∨ ∃ p : Parts, p.Fit e ∧ p.octets = raw := by
  rcases truncated_or_announced e raw with hshort | ⟨node, pcb, form, n, rest, hform, hraw, hwidth⟩
  · exact .inl hshort
  · by_cases hrest : rest.length = n + e.width
    · have hpayload : (rest.take n).length = n := by
        rw [List.length_take]
        omega
      have hepilogue : (rest.drop n).length = e.width := by
        rw [List.length_drop]
        omega
      refine .inr (.inr ⟨⟨node, pcb, form, rest.take n, rest.drop n⟩, ⟨?_, hepilogue⟩, ?_⟩)
      · show LengthForm form (rest.take n).length
        rw [hpayload]
        exact hform
      · rw [hraw, Parts.octets, Parts.covered, List.cons_append, List.cons_append,
          List.append_assoc, List.take_append_drop]
    · exact .inr (.inl ⟨node, pcb, form, n, rest, hform, hraw, hwidth, hrest⟩)

/-- The reader on a frame whose check value is right. -/
theorem decode_checked (fit : p.Fit c.epilogue) (checks : p.Checks c.epilogue) :
    c.decode p.octets = c.judge p (c.epilogue.compute p.covered) := by
  have hcarried : c.epilogue.load? p.epilogue = some (c.epilogue.compute p.covered) := by
    rw [checks]
    exact Epilogue.load?_encode_compute _ _
  rw [decode_octets fit hcarried, if_neg (not_not_intro rfl)]

/-- The same, when the control byte is known as well. -/
theorem decode_known (fit : p.Fit c.epilogue) (checks : p.Checks c.epilogue)
    (known : control.toByte = p.control) :
    c.decode p.octets =
      if p.node ≠ c.peer then .error (.malformed .foreignAddress)
      else
        match payloadDefect? control p.payload with
        | some defect => .error (.malformed defect)
        | none =>
          .ok { address := p.node, control, payload := p.payload,
                edc := c.epilogue.compute p.covered } := by
  have hdecode := decode_checked fit checks
  rw [judge, ← known, Control.ofByte?_toByte] at hdecode
  exact hdecode

/-- Whatever spells a block is accepted as that block. -/
theorem decode_of_spells (h : Spells c raw block) : c.decode raw = .ok block := by
  cases h with
  | intro fit checks known peer suits =>
      rw [decode_known fit checks known, if_neg (not_not_intro peer),
        (payloadDefect?_eq_none_iff _ _).mpr suits]

/-- Whatever there is an objection to is refused with that objection. -/
theorem decode_of_objection (h : Objection c raw fault) : c.decode raw = .error fault := by
  cases h with
  | truncated short => exact decode_truncated short
  | lengthMismatch enough unfit =>
      rcases fit_or_unfit c.epilogue raw with
        hshort | ⟨node, pcb, form, n, rest, hform, rfl, hwidth, hrest⟩ | ⟨p, hfit, hraw⟩
      · exact absurd hshort enough
      · exact decode_lengthMismatch hform hwidth hrest
      · exact absurd hraw (unfit p hfit)
  | @epilogueMismatch p carried fit wrong read =>
      have hvalue : c.epilogue.compute p.covered ≠ carried := fun hsame =>
        wrong ((Epilogue.load?_eq_compute_iff fit.filled read).mp hsame)
      rw [decode_octets fit read, if_pos hvalue]
  | @unknownControl p fit checks unknown =>
      have hnone : Control.ofByte? p.control = none := by
        cases hcontrol : Control.ofByte? p.control with
        | none => rfl
        | some control => exact absurd (Control.toByte_of_ofByte? hcontrol) (unknown control)
      rw [decode_checked fit checks, judge, hnone]
  | foreignAddress fit checks known foreign =>
      rw [decode_known fit checks known, if_pos foreign]
  | @readyWithPayload p seq receipt fit checks known peer unsuited =>
      have hdefect : payloadDefect? (.ready seq receipt) p.payload = some .readyWithPayload :=
        if_neg (by rwa [List.isEmpty_iff])
      rw [decode_known fit checks known, if_neg (not_not_intro peer), hdefect]
  | @multiplierMissing p response fit checks known peer unsuited =>
      have hdefect : payloadDefect? (.supervisory .wtx response) p.payload
          = some .multiplierMissing := if_neg unsuited
      rw [decode_known fit checks known, if_neg (not_not_intro peer), hdefect]

/-- Nothing is left undecided. -/
theorem spells_or_objection (c : Codec) (raw : Bytes) :
    (∃ block, Spells c raw block) ∨ ∃ fault, Objection c raw fault := by
  by_cases hshort : Truncated c.epilogue raw
  · exact .inr ⟨_, .truncated hshort⟩
  by_cases hfit : ∃ p : Parts, p.Fit c.epilogue ∧ p.octets = raw
  · obtain ⟨p, hfit, rfl⟩ := hfit
    by_cases hchecks : p.Checks c.epilogue
    · cases hcontrol : Control.ofByte? p.control with
      | none =>
          refine .inr ⟨_, .unknownControl hfit hchecks fun control hsame => ?_⟩
          rw [← hsame, Control.ofByte?_toByte] at hcontrol
          exact Option.some_ne_none control hcontrol
      | some control =>
          have hknown := Control.toByte_of_ofByte? hcontrol
          by_cases hpeer : p.node = c.peer
          · by_cases hsuits : control.Suits p.payload
            · exact .inl ⟨_, .intro hfit hchecks hknown hpeer hsuits⟩
            · -- only two types restrict their payload
              cases control with
              | information seq more => exact absurd trivial hsuits
              | ready seq receipt =>
                  exact .inr ⟨_, .readyWithPayload hfit hchecks hknown hpeer hsuits⟩
              | supervisory function response =>
                  cases function with
                  | wtx => exact .inr ⟨_, .multiplierMissing hfit hchecks hknown hpeer hsuits⟩
                  | _ => exact absurd trivial hsuits
          · exact .inr ⟨_, .foreignAddress hfit hchecks hknown hpeer⟩
    · obtain ⟨carried, hcarried⟩ := Epilogue.exists_load? hfit.filled
      exact .inr ⟨_, .epilogueMismatch hfit hchecks hcarried⟩
  · exact .inr ⟨_, .lengthMismatch hshort fun p hp hraw => hfit ⟨p, hp, hraw⟩⟩

theorem decode_eq_ok_iff (c : Codec) (raw : Bytes) (block : Block) :
    c.decode raw = .ok block ↔ Spells c raw block := by
  refine ⟨fun h => ?_, decode_of_spells⟩
  rcases spells_or_objection c raw with ⟨block', hspells⟩ | ⟨fault, hobjection⟩
  · have hsame := (decode_of_spells hspells).symm.trans h
    rwa [← Except.ok.inj hsame]
  · exact absurd ((decode_of_objection hobjection).symm.trans h) (by simp)

theorem decode_eq_error_iff (c : Codec) (raw : Bytes) (fault : Block.Fault) :
    c.decode raw = .error fault ↔ Objection c raw fault := by
  refine ⟨fun h => ?_, decode_of_objection⟩
  rcases spells_or_objection c raw with ⟨block, hspells⟩ | ⟨fault', hobjection⟩
  · exact absurd ((decode_of_spells hspells).symm.trans h) (by simp)
  · have hsame := (decode_of_objection hobjection).symm.trans h
    rwa [← Except.error.inj hsame]

/-! ## Writing again -/

/-- Nothing but the form of the length can get lost. -/
theorem shortened_octets_iff (p : Parts) :
    p.shortened.octets = p.octets ↔ p.length = shortestForm p.payload.length := by
  constructor
  · intro h
    have hbody : (shortestForm p.payload.length ++ p.payload) ++ p.epilogue
        = (p.length ++ p.payload) ++ p.epilogue := (List.cons.inj (List.cons.inj h).2).2
    rw [List.append_left_inj, List.append_left_inj] at hbody
    exact hbody.symm
  · intro h
    rw [Parts.shortened, ← h]

/-- A block that was read is written by the other end with the length in its shortest form. -/
theorem encode_again (h : Spells c raw block) {n : Nat} (hn : block.payload.length ≤ n) :
    ∃ p : Parts, p.Fit c.epilogue ∧ p.octets = raw
      ∧ (c.withMaxPayload n).flip.encode block = .ok p.shortened.octets := by
  cases h with
  | @intro p control fit checks known peer suits =>
      have hlong : p.payload.length ≤ Block.longMax := fit.announced.le_longMax
      have hlimit : p.payload.length ≤ (c.withMaxPayload n).flip.payloadLimit control := by
        cases control with
        | information seq more =>
            show p.payload.length ≤ max 1 (min n Block.longMax)
            have hroom : p.payload.length ≤ n := hn
            omega
        | ready seq receipt => exact hlong
        | supervisory function response => exact hlong
      refine ⟨p, fit, rfl, ?_⟩
      rw [encode, if_neg (Nat.not_lt.mpr hlimit), ← parts_octets]
      congr 2
      simp only [parts, Parts.shortened, known]
      rw [checks]
      rfl

/-! ## Main result -/

/-- **The reader knows exactly one grammar.** It accepts what spells a block, as that block, and
reports the first objection to anything else. The other end, given room for the payload, writes an
accepted block as it was received but for the form of its length, which it makes the shortest. -/
theorem decode_grammar (c : Codec) (raw : Bytes) :
    (∀ block, c.decode raw = .ok block ↔ Spells c raw block)
    ∧ (∀ fault, c.decode raw = .error fault ↔ Objection c raw fault)
    ∧ ∀ block, c.decode raw = .ok block → ∀ n, block.payload.length ≤ n →
        ∃ p : Parts, p.Fit c.epilogue ∧ p.octets = raw
          ∧ (c.withMaxPayload n).flip.encode block = .ok p.shortened.octets
          ∧ (p.shortened.octets = raw ↔ p.length = shortestForm p.payload.length) := by
  refine ⟨decode_eq_ok_iff c raw, decode_eq_error_iff c raw, fun block h n hn => ?_⟩
  obtain ⟨p, hfit, hraw, hagain⟩ := encode_again ((decode_eq_ok_iff c raw block).mp h) hn
  refine ⟨p, hfit, hraw, hagain, ?_⟩
  rw [← hraw]
  exact shortened_octets_iff p

/-- One octet of payload with its length in the long form is accepted, but written in the short
one. -/
example :
    (host 254 .lrc).decode [0xA5, 0x00, 0xFF, 0x00, 0x01, 0x61, 0x3A]
      = .ok { address := 0xA5, control := .information .zero false, payload := [0x61], edc := 0x3A }
    ∧ (host 254 .lrc).flip.encode
        { address := 0xA5, control := .information .zero false, payload := [0x61], edc := 0x3A }
      = .ok [0xA5, 0x00, 0x01, 0x61, 0x3A] := by
  decide +kernel

end Codec

end SecureElement
