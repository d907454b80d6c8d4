import SecureElement.Proofs.Pending
import SecureElement.Proofs.Room

/-!
# The last answer to reset

A reset of its interface makes the element tell about itself, and two things are kept of
that: the answer as a whole, and how much the element wants to receive in one block. The
second outlives the first, since an answer that cannot be read replaces the one before it
and leaves the codec as it is. Only opening a session undoes both.

* `Told` is the history of a session: what the element told, newest first, since the link
  last came up. It is read off the calls, how they ended and what passed in them.
* `Recalls` is what such a history comes to, and `perform_recounts` says that every call
  keeps to it.
* `Told.recalls` is the induction, and `Reachable.told` says that every session has such a
  history.
-/

namespace SecureElement

open Link

/-- The link came up. -/
def Passage.isRise : Passage → Bool
  | .raised (.ok ()) => true
  | _ => false

theorem Passage.IsTalk.isRise {x : Passage} (h : x.IsTalk) : x.isRise = false := by
  cases x with
  | raised outcome => exact h.elim
  | sent | received | lost | released => rfl

theorem Recovers.isRise {c : Codec} {x : Passage} (h : Recovers c x) : x.isRise = false := by
  cases h with
  | inVain hvain =>
      cases hvain with
      | aside haside => cases haside <;> rfl
      | other => rfl
  | request | answered | released => rfl

/-- The field size that the payload of a response to a reset names, if it is an answer to reset that
names one. -/
def namedSize? (payload : Bytes) : Option Nat :=
  match AnswerToReset.parse payload with
  | .ok answer => if 0 < answer.ifsc then some answer.ifsc else none
  | .error _ => none

/-- How much one block may carry when these payloads were told, newest first. -/
def Settings.blockLimit (settings : Settings) (payloads : List Bytes) : Nat :=
  if settings.adoptIfsc then
    match payloads.findSome? namedSize? with
    | some size => min settings.maxBlockPayload size
    | none => settings.maxBlockPayload
  else settings.maxBlockPayload

/-- The answer to reset that was told last, if what was told last is one. -/
def lastAnswer? : List Bytes → Option AnswerToReset
  | [] => none
  | payload :: _ => (AnswerToReset.parse payload).toOption

theorem namedSize?_pos {payload : Bytes} {size : Nat} (h : namedSize? payload = some size) :
    0 < size := by
  unfold namedSize? at h
  split at h
  · split at h
    · rename_i hpos
      obtain rfl := Option.some.inj h
      exact hpos
    · exact absurd h nofun
  · exact absurd h nofun

/-- Settings without contradiction allow every block at least one octet, and no more than its length
can tell. -/
theorem Settings.maxBlockPayload_bounds {settings : Settings} (h : settings.fault? = none) :
    1 ≤ settings.maxBlockPayload ∧ settings.maxBlockPayload ≤ Block.longMax := by
  unfold fault? at h
  split at h
  · exact absurd h nofun
  · split at h
    · exact absurd h nofun
    · split at h
      · exact absurd h nofun
      · split at h
        · exact absurd h nofun
        · omega

theorem Settings.blockLimit_bounds {settings : Settings} (h : settings.fault? = none)
    (payloads : List Bytes) : 1 ≤ settings.blockLimit payloads
      ∧ settings.blockLimit payloads ≤ settings.maxBlockPayload := by
  obtain ⟨hone, -⟩ := settings.maxBlockPayload_bounds h
  unfold blockLimit
  split
  · split
    · rename_i size hsize
      obtain ⟨payload, -, hnamed⟩ := List.exists_of_findSome?_eq_some hsize
      have hpos := namedSize?_pos hnamed
      omega
    · exact ⟨hone, Nat.le_refl _⟩
  · exact ⟨hone, Nat.le_refl _⟩

namespace Session

variable {L : Type} {settings : Settings} {payloads : List Bytes} {payload : Bytes}

/-- What a session has of what the element told. -/
structure Recalls (settings : Settings) (payloads : List Bytes) (s : Session L) : Prop where
  codec : s.codec = settings.codec.withMaxPayload (settings.blockLimit payloads)
  answer : s.answer = lastAnswer? payloads

/-- Where neither the codec nor the answer has changed. -/
theorem Recalls.same {s s' : Session L} (h : Recalls settings payloads s)
    (hcodec : s'.codec = s.codec) (hanswer : s'.answer = s.answer) :
    Recalls settings payloads s' where
  codec := hcodec.trans h.codec
  answer := hanswer.trans h.answer

theorem Roomy.recalls {c : Codec} {known : Option AnswerToReset} {s s' : Session L}
    (h : Recalls settings payloads s) (hbefore : Roomy c known s) (hafter : Roomy c known s') :
    Recalls settings payloads s' :=
  h.same (hafter.codec.trans hbefore.codec.symm) (hafter.answer.trans hbefore.answer.symm)

/-- Every codec of a session reads like the one of its settings. -/
theorem Recalls.decode {s : Session L} (h : Recalls settings payloads s) (raw : Bytes) :
    s.codec.decode raw = settings.codec.decode raw := by
  rw [h.codec]
  rfl

theorem Recalls.epilogue {s : Session L} (h : Recalls settings payloads s) :
    s.codec.epilogue = settings.codec.epilogue := by
  rw [h.codec]
  rfl

theorem recalls_nil {s : Session L} (hcodec : s.codec = settings.codec)
    (hanswer : s.answer = none) : Recalls settings [] s := by
  refine ⟨?_, hanswer⟩
  have hlimit : settings.blockLimit [] = settings.maxBlockPayload := by
    unfold Settings.blockLimit
    split <;> rfl
  rw [hcodec, hlimit]
  rfl

/-- An answer that can be read is kept, and so is the size that it names. -/
theorem Recalls.adopts {s : Session L} {answer : AnswerToReset} (h : Recalls settings payloads s)
    (hsettings : s.settings = settings) (hparse : AnswerToReset.parse payload = .ok answer) :
    Recalls settings (payload :: payloads)
      { s with codec := Step.adoptAnswer s answer, answer := some answer } := by
  refine ⟨?_, by dsimp only [lastAnswer?]; rw [hparse]; rfl⟩
  unfold Step.adoptAnswer Settings.blockLimit
  rw [hsettings, List.findSome?_cons, namedSize?, hparse]
  dsimp only
  by_cases hadopt : settings.adoptIfsc = true
  · by_cases hpos : 0 < answer.ifsc
    · rw [if_pos ⟨hadopt, hpos⟩, if_pos hadopt, if_pos hpos]
    · have hcodec := h.codec
      unfold Settings.blockLimit at hcodec
      rw [if_pos hadopt] at hcodec
      rw [if_neg (fun hboth => hpos hboth.2), if_pos hadopt, if_neg hpos, hcodec]
  · have hcodec := h.codec
    unfold Settings.blockLimit at hcodec
    rw [if_neg hadopt] at hcodec
    rw [if_neg (fun hboth => hadopt hboth.1), if_neg hadopt, hcodec]

/-- Anything else leaves no answer, and the codec as it was. -/
theorem Recalls.forgets {s : Session L} {fault : Block.Fault} (h : Recalls settings payloads s)
    (hparse : AnswerToReset.parse payload = .error fault) :
    Recalls settings (payload :: payloads) { s with answer := none } := by
  refine ⟨?_, by dsimp only [lastAnswer?]; rw [hparse]; rfl⟩
  have hcodec := h.codec
  unfold Settings.blockLimit at hcodec ⊢
  rw [List.findSome?_cons, namedSize?, hparse]
  exact hcodec

end Session

/-- What is still known of what was told before these items passed. -/
def carried (items : List Passage) (payloads : List Bytes) : List Bytes :=
  if items.any Passage.isRise then [] else payloads

theorem carried_of_none {items : List Passage} (h : ∀ x ∈ items, x.isRise = false)
    (payloads : List Bytes) : carried items payloads = payloads := by
  unfold carried
  rw [if_neg]
  rw [List.any_eq_true]
  rintro ⟨x, hx, hrise⟩
  exact absurd ((h x hx).symm.trans hrise) Bool.false_ne_true

theorem carried_rise (items : List Passage) (payloads : List Bytes) :
    carried (.raised (.ok ()) :: items) payloads = [] := if_pos rfl

theorem carried_nil (items : List Passage) : carried items [] = [] := by
  unfold carried
  split <;> rfl

theorem carried_append (front back : List Passage) (payloads : List Bytes) :
    carried (front ++ back) payloads = carried back (carried front payloads) := by
  unfold carried
  rw [List.any_append]
  cases front.any Passage.isRise with
  | true =>
      rw [Bool.true_or, if_pos rfl]
      exact (carried_nil back).symm
  | false =>
      rw [Bool.false_or, if_neg Bool.false_ne_true]

namespace Session

open SecureElement.Action

variable {L : Type} {settings : Settings} {payloads : List Bytes} {s s' : Session (Traced L)}
  {items : List Passage} {ε α β : Type}

/-- The last that passed is the response to a reset, and the session has what it told. -/
def Answers (settings : Settings) (payloads : List Bytes) (items : List Passage)
    (s' : Session (Traced L)) : Prop :=
  ∃ front raw block, items = front ++ [.received raw] ∧ settings.codec.decode raw = .ok block
    ∧ block.control = .response .softReset ∧ Recalls settings (block.payload :: payloads) s'

/-- What passed, and what the session has of it: one answer more, if `renews` tells that it asked
for one and it succeeded, and what it had before otherwise. -/
def Recounts (settings : Settings) (payloads : List Bytes) (renews : Prop) (s : Session (Traced L))
    (r : Except (Stop ε) α) (s' : Session (Traced L)) : Prop :=
  ∃ items, Passes s items s'
    ∧ (renews ∧ (∃ a, r = .ok a) → Answers settings (carried items payloads) items s')
    ∧ (¬ (renews ∧ ∃ a, r = .ok a) → Recalls settings (carried items payloads) s')

theorem recounts_same {renews : Prop} {r : Except (Stop ε) α} (h : Recalls settings payloads s)
    (hlink : s'.link = s.link) (hcodec : s'.codec = s.codec) (hanswer : s'.answer = s.answer)
    (hrenews : ¬ (renews ∧ ∃ a, r = .ok a)) : Recounts settings payloads renews s r s' :=
  ⟨[], hears_same hlink, fun h => absurd h hrenews, fun _ => h.same hcodec hanswer⟩

/-- All that matters is whether there is something new. -/
theorem Recounts.congr {renews renews' : Prop} {r : Except (Stop ε) α} {r' : Except (Stop ε) β}
    (h : Recounts settings payloads renews s r s')
    (hiff : (renews ∧ ∃ a, r = .ok a) ↔ renews' ∧ ∃ b, r' = .ok b) :
    Recounts settings payloads renews' s r' s' := by
  obtain ⟨items, hpasses, hanswers, hrecalls⟩ := h
  exact ⟨items, hpasses, fun hr => hanswers (hiff.mpr hr), fun hr => hrecalls fun hr' => hr
    (hiff.mp hr')⟩

variable [Link L]

/-! ## One exchange after the other -/

/-- **A reset that succeeds ends with the response that is kept.** -/
theorem resetInterface_recounts (h : Recalls settings payloads s)
    (hsettings : s.settings = settings) (hcapacity : Block.longPrologue ≤ s.frame.capacity) :
    Ensures Step.resetInterface s (Recounts settings payloads True s) := by
  unfold Step.resetInterface
  refine (Step.supervise_spec .softReset hcapacity).bind ?_ ?_
  · intro inbound s₁ hend
    obtain ⟨items, htalks, hanswered, raw, block, hlast, harrived⟩ := hend
    have hnone : ∀ x ∈ items, x.isRise = false := fun x hx => (htalks.talk x hx).isRise
    have hbefore : Recalls settings payloads s₁ := h.same htalks.codec htalks.answer
    have hcontrol : block.control = .response .softReset := by
      cases hanswered with
      | @intro tries raw' block' outcome _ hdecode hcontrol =>
          rw [← List.cons_append, List.getLast?_concat] at hlast
          obtain rfl := Passage.received.inj (Option.some.inj hlast)
          rw [harrived.decode] at hdecode
          rw [Except.ok.inj hdecode]
          exact hcontrol
    obtain ⟨front, rfl⟩ := List.getLast?_eq_some_iff.mp hlast
    have hdecode : settings.codec.decode raw = .ok block := by
      rw [← h.decode]
      exact harrived.decode
    have hkept : ∀ {s₂ : Session (Traced L)}, s₂.link = s₁.link →
        Recalls settings (block.payload :: payloads) s₂ →
        Recounts settings payloads True s (.ok () : Except (Stop Setback) Unit) s₂ := by
      intro s₂ hlink hrecalls
      refine ⟨_, htalks.passes.congr hlink, fun _ => ?_, fun hr => absurd ⟨trivial, _, rfl⟩ hr⟩
      rw [carried_of_none hnone]
      exact ⟨front, raw, block, rfl, hdecode, hcontrol, hrecalls⟩
    have hpayload := harrived.payload
    rw [← harrived.used] at hpayload
    rw [ensures_get_bind, hpayload]
    dsimp only
    split
    · rename_i answer hparse
      exact hkept rfl (hbefore.adopts (htalks.settings.trans hsettings) hparse)
    · rename_i fault hparse
      exact hkept rfl (hbefore.forgets hparse)
  · intro stop s₁ hend
    obtain ⟨items, htalks, -, -⟩ := hend
    refine ⟨items, htalks.passes, fun hr => hr.2.elim nofun, fun _ => ?_⟩
    rw [carried_of_none fun x hx => (htalks.talk x hx).isRise]
    exact h.same htalks.codec htalks.answer

/-- Of all exchanges only a reset of the interface learns something. -/
theorem exchange_recounts {request : Request} {exchange : Step (Traced L) Unit}
    (hexchange : request.exchange? = some exchange) (h : Housed settings s)
    (hbudget : s.WithinBudget) (hrecalls : Recalls settings payloads s) :
    Ensures exchange s (Recounts settings payloads (request = .softReset) s) := by
  by_cases hreset : request = .softReset
  · subst hreset
    obtain rfl := Option.some.inj hexchange
    unfold Step.renewInterface
    rw [ensures_modify_bind]
    have hforgotten : Recalls settings payloads { s.resetExchange with commandPending := false } :=
      { hrecalls with }
    refine (resetInterface_recounts hforgotten h.sound.settings h.sound.capacity).bind ?_ ?_
    · intro u s₁ hend
      obtain ⟨items, hpasses, hanswers, -⟩ := hend
      rw [ensures_modify]
      refine ⟨items, hpasses.congr rfl, fun _ => ?_, fun hr => absurd ⟨rfl, _, rfl⟩ hr⟩
      obtain ⟨front, raw, block, hitems, hdecode, hcontrol, hafter⟩ := hanswers ⟨trivial, _, rfl⟩
      exact ⟨front, raw, block, hitems, hdecode, hcontrol, { hafter with }⟩
    · intro stop s₁ hend
      obtain ⟨items, hpasses, -, hafter⟩ := hend
      exact ⟨items, hpasses, fun hr => hr.2.elim nofun, fun _ => hafter fun hr => hr.2.elim nofun⟩
  · refine ((exchange_room hexchange h.roomy).and (exchange_exchanged hexchange h.sound.capacity
      hbudget h.sound.parkedOrdinary)).mono ?_
    intro r s' hend
    obtain ⟨hroom, -, hpassed⟩ := hend
    have hafter : Recalls settings payloads s' :=
      h.roomy.recalls hrecalls (hroom.roomy (.inl hreset))
    have hitems : ∃ items, Passes s items s' ∧ ∀ x ∈ items, x.IsTalk := by
      cases r with
      | ok u => exact hpassed
      | error stop =>
          obtain ⟨⟨items, hwithin⟩, -⟩ := hpassed
          exact ⟨items, hwithin.passes, hwithin.talk⟩
    obtain ⟨items, hpasses, htalk⟩ := hitems
    refine ⟨items, hpasses, fun hr => absurd hr.1 hreset, fun _ => ?_⟩
    rw [carried_of_none fun x hx => (htalk x hx).isRise]
    exact hafter

/-! ## One call after the other -/

/-- A recovery has nothing to do with it. -/
theorem run_recounts (request : Request) {exchange : Step (Traced L) Unit}
    (hexchange : request.exchange? = some exchange) (h : Housed settings s)
    (hrecalls : Recalls settings payloads s) :
    Ensures (run exchange) s (Recounts settings payloads (request = .softReset) s) := by
  cases hready : s.status.isReady with
  | false =>
      refine (run_refused hready).mono ?_
      rintro r s' ⟨rfl, failure, rfl, -⟩
      exact recounts_same hrecalls rfl rfl rfl fun hr => hr.2.elim nofun
  | true =>
      have hbegun : Housed settings s.begun :=
        ⟨{ h.sound with opened := nofun }, h.equipped.kept ⟨rfl, rfl, rfl, rfl⟩, h.parked⟩
      have hbefore : Recalls settings payloads s.begun := { hrecalls with }
      have hends := (exchange_recounts hexchange hbegun (Nat.zero_le _) hbefore).and
        ((exchange_room hexchange hbegun.roomy).and (exchange_exchanged (s := s.begun) hexchange
          h.sound.capacity (Nat.zero_le _) h.sound.parkedOrdinary))
      have hfailed : ∀ {stop : Stop Setback} {s₁ : Session (Traced L)},
          Recounts settings payloads (request = .softReset) s.begun
            (.error stop : Except (Stop Setback) Unit) s₁ →
          ∃ items, Passes s items s₁ ∧ Recalls settings (carried items payloads) s₁ := by
        rintro stop s₁ ⟨items, hpasses, -, hafter⟩
        exact ⟨items, hpasses, hafter fun hr => hr.2.elim nofun⟩
      refine ensures_run hready hends ?_ ?_ ?_ ?_
      · intro u s₁ hend
        obtain ⟨⟨items, hpasses, hanswers, hafter⟩, -, ⟨-, hstatus, -⟩, -⟩ := hend
        refine ⟨hstatus, items, hpasses.congr rfl, fun hr => ?_, fun hr => ?_⟩
        · obtain ⟨front, raw, block, hitems, hdecode, hcontrol, hkept⟩ := hanswers ⟨hr.1, _, rfl⟩
          exact ⟨front, raw, block, hitems, hdecode, hcontrol, { hkept with }⟩
        · exact { hafter fun hr' => hr ⟨hr'.1, _, rfl⟩ with }
      · intro setback s₁ hend
        obtain ⟨hrecounts, hroom, ⟨hkeeps, hstatus, -⟩, -⟩ := hend
        obtain ⟨items, hpasses, hafter⟩ := hfailed hrecounts
        have hroomy : Roomy s.codec s.answer { s₁ with deadline := none } :=
          { hroom.roomy (.inr ⟨_, rfl⟩) with }
        refine ((recover_roomy setback.failure hroomy).and (recover_forgets
          (s := { s₁ with deadline := none }) setback.failure hstatus
            (hkeeps.holds h.sound.capacity))).mono ?_
        rintro r s₂ ⟨hroomy', -, back, hback, hrecovers, -⟩
        have hnone : ∀ x ∈ back, x.isRise = false := fun x hx => (hrecovers x hx).isRise
        have hboth : Passes s (items ++ back) s₂ :=
          Hears.trans (hpasses : Passes s items { s₁ with deadline := none }) hback
            (hafter.epilogue.trans hrecalls.epilogue.symm) hkeeps.capacity
        have hkept : Recalls settings (carried (items ++ back) payloads) s₂ := by
          have hlate : Recalls settings (carried items payloads) { s₁ with deadline := none } :=
            { hafter with }
          rw [carried_append, carried_of_none hnone]
          exact hroomy.recalls hlate hroomy'
        cases r with
        | ok told => exact ⟨_, hboth, fun hr => hr.2.elim nofun, fun _ => hkept⟩
        | error stop => exact ⟨_, hboth, fun hr => hr.2.elim nofun, fun _ => hkept⟩
      · intro s₁ hend
        obtain ⟨items, hpasses, hafter⟩ := hfailed hend.1
        exact ⟨items, hpasses, fun hr => hr.2.elim nofun, fun _ => hafter⟩
      · intro s₁ hend
        obtain ⟨items, hpasses, hafter⟩ := hfailed hend.1
        exact ⟨items, hpasses, fun hr => hr.2.elim nofun, fun _ => hafter⟩

/-- The handshake learns what its settings ask for. -/
theorem handshake_recounts (hrecalls : Recalls settings payloads s)
    (hsettings : s.settings = settings) (hcapacity : Block.longPrologue ≤ s.frame.capacity) :
    Ensures handshake s (Recounts settings payloads (settings.handshake = .softReset) s) := by
  subst hsettings
  have hstarted : Recalls s.settings payloads { s with deadline := s.deadlineFromNow } :=
    { hrecalls with }
  unfold handshake
  rw [ensures_modify_bind, ensures_get_bind]
  dsimp only
  split
  · rename_i hreset
    refine (resetInterface_recounts hstarted rfl hcapacity).mono ?_
    rintro r s' ⟨items, hpasses, hanswers, hafter⟩
    rw [hreset]
    exact ⟨items, hpasses, fun hr => hanswers ⟨trivial, hr.2⟩,
      fun hr => hafter fun hr' => hr ⟨rfl, hr'.2⟩⟩
  · rename_i hresync
    rw [hresync]
    have hkept : ∀ {r : Except (Stop Setback) Unit} {s₁ : Session (Traced L)}
        {items : List Passage}, Talks { s with deadline := s.deadlineFromNow } items s₁ →
        Recounts s.settings payloads (Handshake.resync = .softReset) s r s₁ := by
      intro r s₁ items htalks
      refine ⟨items, htalks.passes, fun hr => absurd hr.1 nofun, fun _ => ?_⟩
      rw [carried_of_none fun x hx => (htalks.talk x hx).isRise]
      exact hrecalls.same htalks.codec htalks.answer
    refine Ensures.bind (Step.supervise_spec (s := { s with deadline := s.deadlineFromNow }) .resync
      hcapacity) ?_ ?_
    · intro inbound s₁ hend
      obtain ⟨items, htalks, -⟩ := hend
      exact hkept htalks
    · intro stop s₁ hend
      obtain ⟨items, htalks, -⟩ := hend
      exact hkept htalks

/-- Whether a call on this session resets the interface of the element, if it succeeds. -/
def ResetsInterface (s : Session (Traced L)) : Request → Prop
  | .softReset => True
  | .establish => s.status.isOpen = false ∧ s.settings.handshake = .softReset
  | .reset => s.status.isOpen = true ∨ s.settings.handshake = .softReset
  | _ => False

/-- What was known is known no more once the link has come up. -/
theorem establish_recounts (h : Housed settings s) (hrecalls : Recalls settings payloads s) :
    Ensures establish s (Recounts settings payloads (s.ResetsInterface .establish) s) := by
  have hnothing : Recalls settings [] s.risen :=
    recalls_nil (congrArg Settings.codec h.sound.settings) rfl
  refine ensures_establish ?_ ?_ ?_
  · intro hopen
    refine recounts_same hrecalls rfl rfl rfl fun hr => ?_
    exact absurd (hr.1.1.symm.trans hopen) Bool.false_ne_true
  · intro _ fault hfault
    have hraised := raised_passes s
    rw [hfault] at hraised
    refine ⟨_, hraised, fun hr => hr.2.elim nofun, fun _ => ?_⟩
    rw [carried_of_none (List.forall_mem_singleton.mpr rfl)]
    exact { hrecalls with }
  · intro hclosed hup
    refine ((handshake_recounts hnothing h.sound.settings h.sound.capacity).and
      (handshake_keeps h.sound.capacity)).mono ?_
    rintro r s₁ ⟨⟨items, hpasses, hanswers, hafter⟩, hkeeps, -, hstatus, -⟩
    rw [carried_nil] at hanswers hafter
    -- whatever the handshake comes to, it passes behind the rise of the link
    have hbehind : Passes s (.raised (.ok ()) :: items) s₁ :=
      Hears.trans (risen_passes hup) hpasses (hnothing.epilogue.trans hrecalls.epilogue.symm) rfl
    match r with
    | .ok () =>
        refine ⟨hstatus.trans hclosed, _, hbehind.congr rfl, fun hr => ?_, fun hr => ?_⟩
        · rw [carried_rise]
          have hreset : settings.handshake = .softReset := by
            rw [← h.sound.settings]
            exact hr.1.2
          obtain ⟨front, raw, block, rfl, hdecode, hcontrol, hkept⟩ := hanswers ⟨hreset, _, rfl⟩
          exact ⟨.raised (.ok ()) :: front, raw, block, rfl, hdecode, hcontrol, { hkept with }⟩
        · rw [carried_rise]
          refine { hafter fun hr' => hr ⟨⟨?_, ?_⟩, _, rfl⟩ with }
          · rw [hclosed]
            rfl
          · rw [h.sound.settings]
            exact hr'.1
    | .error (.because setback) =>
        have hkept := hafter fun hr => hr.2.elim nofun
        have hall := hbehind.trans (released_passes s₁)
          (hkept.epilogue.trans hrecalls.epilogue.symm) hkeeps.capacity
        refine ⟨_, hall.congr rfl, fun hr => hr.2.elim nofun, fun _ => ?_⟩
        rw [List.cons_append, carried_rise]
        exact { hkept with }
    | .error .crashed =>
        refine ⟨_, hbehind, fun hr => hr.2.elim nofun, fun _ => ?_⟩
        rw [carried_rise]
        exact hafter fun hr => hr.2.elim nofun
    | .error .stalled =>
        refine ⟨_, hbehind, fun hr => hr.2.elim nofun, fun _ => ?_⟩
        rw [carried_rise]
        exact hafter fun hr => hr.2.elim nofun

omit [Link L] in
/-- What a call makes of the result of another one is of no account. -/
theorem recounts_bind {call : Call (Traced L) α} {f : α → Call (Traced L) β} {renews renews' : Prop}
    (hcall : Ensures call s (Recounts settings payloads renews s)) (hiff : renews ↔ renews')
    (hf : ∀ a s₁, Ensures (f a) s₁ fun r s₂ => (∃ b, r = .ok b) ∧ s₂ = s₁) :
    Ensures (call >>= f) s (Recounts settings payloads renews' s) := by
  refine hcall.bind ?_ ?_
  · intro a s₁ hend
    refine (hf a s₁).mono ?_
    rintro r s₂ ⟨hok, rfl⟩
    exact hend.congr ⟨fun hr => ⟨hiff.mp hr.1, hok⟩, fun hr => ⟨hiff.mpr hr.1, _, rfl⟩⟩
  · intro stop s₁ hend
    exact hend.congr ⟨fun hr => hr.2.elim nofun, fun hr => hr.2.elim nofun⟩

theorem receive_recounts (h : Housed settings s) (hrecalls : Recalls settings payloads s) :
    Ensures receive s (Recounts settings payloads False s) :=
  recounts_bind (run_recounts .receive rfl h hrecalls) ⟨nofun, False.elim⟩
    fun _ _ => ⟨⟨_, rfl⟩, rfl⟩

/-- Two calls in a row, of which neither resets the interface. -/
theorem transceive_recounts (command : Bytes) (h : Housed settings s)
    (hrecalls : Recalls settings payloads s) :
    Ensures (transceive command) s (Recounts settings payloads False s) := by
  have hsend : Ensures (send command) s fun r s₁ => Housed settings s₁ ∧
      Recounts settings payloads False s r s₁ := by
    refine (run_housed (.send command) rfl h).and ?_
    refine (run_recounts (.send command) rfl h hrecalls).mono fun r s₁ hend => ?_
    exact hend.congr ⟨fun hr => absurd hr.1 nofun, fun hr => hr.1.elim⟩
  refine hsend.bind ?_ ?_
  · rintro u s₁ ⟨hhoused, items, hpasses, -, hafter⟩
    have hsent := hafter fun hr => hr.1
    refine (receive_recounts hhoused hsent).mono ?_
    rintro r s₂ ⟨items', hpasses', -, hafter'⟩
    have hboth := hpasses.trans hpasses' (hsent.epilogue.trans hrecalls.epilogue.symm)
      (hhoused.sound.frame.trans h.sound.frame.symm)
    refine ⟨_, hboth, fun hr => hr.1.elim, fun _ => ?_⟩
    rw [carried_append]
    exact hafter' fun hr => hr.1
  · rintro stop s₁ ⟨-, hend⟩
    exact hend.congr ⟨fun hr => hr.1.elim, fun hr => hr.1.elim⟩

/-- Closing a session lets go of the link at most. -/
theorem close_recounts (hrecalls : Recalls settings payloads s) {response : Option Bytes} :
    Recounts settings payloads False s (.ok response : Except (Stop ε) _) s.close := by
  cases hopen : s.status.isOpen with
  | false =>
      refine recounts_same hrecalls ?_ rfl rfl fun hr => hr.1
      show (if s.status.isOpen = true then _ else _) = _
      rw [hopen, if_neg Bool.false_ne_true]
  | true =>
      have hreleased : s.close.link = Link.release s.link := by
        show (if s.status.isOpen = true then _ else _) = _
        rw [hopen, if_pos rfl]
      have hpasses : Passes s [.released] { s with link := Link.release s.link } :=
        ⟨[.release], Traced.events_record .., rfl⟩
      refine ⟨_, hpasses.congr hreleased, fun hr => hr.1.elim, fun _ => ?_⟩
      rw [carried_of_none (List.forall_mem_singleton.mpr rfl)]
      exact { hrecalls with }

/-- **Every call leaves a session with what the element has told it.** -/
theorem perform_recounts (request : Request) (h : Housed settings s)
    (hrecalls : Recalls settings payloads s) :
    Ensures (perform request) s (Recounts settings payloads (s.ResetsInterface request) s) := by
  have hnone : ∀ a s₁, Ensures (pure a : Call (Traced L) (Option Bytes)) s₁ fun r s₂ =>
      (∃ b, r = .ok b) ∧ s₂ = s₁ := fun _ _ => ⟨⟨_, rfl⟩, rfl⟩
  have hreset : Ensures softReset s
      (Recounts settings payloads (Request.softReset = .softReset) s) :=
    run_recounts .softReset rfl h hrecalls
  cases request with
  | establish => exact recounts_bind (establish_recounts h hrecalls) Iff.rfl fun _ => hnone none
  | close =>
      have hclosed : Recounts settings payloads False s
          (.ok none : Except (Stop Failure) (Option Bytes)) s.close := close_recounts hrecalls
      exact hclosed
  | send command =>
      exact recounts_bind (run_recounts (.send command) rfl h hrecalls)
        ⟨nofun, False.elim⟩ fun _ => hnone none
  | receive => exact recounts_bind (receive_recounts h hrecalls) Iff.rfl fun _ => hnone _
  | transceive command =>
      exact recounts_bind (transceive_recounts command h hrecalls) Iff.rfl fun _ => hnone _
  | prefetch =>
      suffices hprefetch : Ensures prefetch s (Recounts settings payloads False s) from
        recounts_bind hprefetch Iff.rfl fun _ => hnone none
      unfold prefetch
      rw [ensures_get_bind]
      split
      · exact recounts_same hrecalls rfl rfl rfl fun hr => hr.1
      · refine (run_recounts .prefetch rfl h hrecalls).mono fun r s₁ hend => ?_
        exact hend.congr ⟨fun hr => absurd hr.1 nofun, fun hr => hr.1.elim⟩
  | resync =>
      exact recounts_bind (run_recounts .resync rfl h hrecalls) ⟨nofun, False.elim⟩
        fun _ => hnone none
  | softReset => exact recounts_bind hreset ⟨fun _ => trivial, fun _ => rfl⟩ fun _ => hnone none
  | endApduSession =>
      exact recounts_bind (run_recounts .endApduSession rfl h hrecalls)
        ⟨nofun, False.elim⟩ fun _ => hnone none
  | reset =>
      suffices hcall :
          Ensures reset s (Recounts settings payloads (s.ResetsInterface .reset) s) from
        recounts_bind hcall Iff.rfl fun _ => hnone none
      unfold reset
      rw [ensures_get_bind]
      split
      · rename_i hopen
        refine hreset.mono fun r s₁ hend => hend.congr ?_
        exact ⟨fun hr => ⟨.inl hopen, hr.2⟩, fun hr => ⟨rfl, hr.2⟩⟩
      · rename_i hopen
        refine (establish_recounts h hrecalls).mono fun r s₁ hend => hend.congr ?_
        refine ⟨fun hr => ⟨.inr hr.1.2, hr.2⟩, fun hr => ⟨⟨?_, ?_⟩, hr.2⟩⟩
        · exact Bool.eq_false_iff.mpr hopen
        · exact hr.1.resolve_left hopen
  | dropResponse =>
      have hdropped : Recounts settings payloads False s
          (.ok none : Except (Stop Failure) (Option Bytes)) s.dropResponse :=
        recounts_same hrecalls rfl rfl rfl fun hr => hr.1
      exact hdropped

/-! ## The history of a session -/

omit [Link L] in
/-- What an action ensures is true of its result and of the session that it leaves behind. -/
theorem ensures_end {x : Action ε L α} {s : Session L}
    {Q : Except (Stop ε) α → Session L → Prop} (h : Ensures x s Q) :
    Q (x.result s) (x.final s) := by
  unfold Ensures at h
  unfold result final
  split at h
  · exact h
  · exact h

/-- A call that was to reset the interface succeeded. -/
def Renewed (s : Session (Traced L)) (request : Request) : Prop :=
  s.ResetsInterface request ∧ ∃ response, (perform request).result s = .ok response

/-- What the element told a session since the link last came up for it, newest first: the payloads
of its responses to the resets of its interface that succeeded. -/
inductive Told (settings : Settings) : List Bytes → Session (Traced L) → Prop where
  | created {link : Traced L} {s : Session (Traced L)} : new link settings = .ok s →
      Told settings [] s
  /-- Something was done to the link. -/
  | touched {payloads : List Bytes} {s : Session (Traced L)} (link : Traced L) :
      Told settings payloads s → Told settings payloads { s with link }
  /-- A call was made that reset no interface, or failed. -/
  | called {payloads : List Bytes} {s : Session (Traced L)} {request : Request}
      {items : List Passage} : Told settings payloads s → ¬ s.Renewed request →
      Passes s items ((perform request).final s) →
      Told settings (carried items payloads) ((perform request).final s)
  /-- The interface was reset, and this is what the element told. -/
  | renewed {payloads : List Bytes} {s : Session (Traced L)} {request : Request}
      {front : List Passage} {raw : Bytes} {block : Block} :
      Told settings payloads s → s.Renewed request →
      Passes s (front ++ [.received raw]) ((perform request).final s) →
      settings.codec.decode raw = .ok block → block.control = .response .softReset →
      Told settings (block.payload :: carried front payloads) ((perform request).final s)

theorem Told.reachable (h : Told settings payloads s) : Reachable settings s := by
  induction h with
  | created hnew => exact .created hnew
  | touched link _ ih => exact .touched link ih
  | called _ _ _ ih => exact .called _ ih
  | renewed _ _ _ _ _ ih => exact .called _ ih

theorem carried_received (front : List Passage) (raw : Bytes) (payloads : List Bytes) :
    carried (front ++ [.received raw]) payloads = carried front payloads := by
  rw [carried_append, carried_of_none (List.forall_mem_singleton.mpr rfl)]

/-- **A session has of its element what its history says.** -/
theorem Told.recalls (h : Told settings payloads s) : Recalls settings payloads s := by
  induction h with
  | created hnew =>
      obtain ⟨-, rfl⟩ := new_eq_ok hnew
      exact recalls_nil rfl rfl
  | touched link _ ih => exact { ih with }
  | @called payloads s request items htold hnot hpasses ih =>
      obtain ⟨items', hpasses', -, hafter⟩ :=
        ensures_end (perform_recounts request htold.reachable.housed ih)
      obtain rfl := hpasses'.unique hpasses
      exact hafter hnot
  | @renewed payloads s request front raw block htold hrenewed hpasses hdecode hcontrol ih =>
      obtain ⟨items', hpasses', hanswers, -⟩ :=
        ensures_end (perform_recounts request htold.reachable.housed ih)
      obtain rfl := hpasses'.unique hpasses
      obtain ⟨front', raw', block', hitems, hdecode', -, hafter⟩ := hanswers hrenewed
      -- the last that passed is one block, and it is read in one way
      obtain ⟨-, hlast⟩ := List.append_inj' hitems rfl
      obtain rfl := Passage.received.inj (List.head_eq_of_cons_eq hlast)
      obtain rfl := Except.ok.inj (hdecode.symm.trans hdecode')
      rwa [carried_received] at hafter

/-- **Every session has such a history.** -/
theorem Reachable.told (h : Reachable settings s) : ∃ payloads, Told settings payloads s := by
  induction h with
  | created hnew => exact ⟨[], .created hnew⟩
  | touched link _ ih =>
      obtain ⟨payloads, htold⟩ := ih
      exact ⟨payloads, .touched link htold⟩
  | @called s request hreachable ih =>
      obtain ⟨payloads, htold⟩ := ih
      obtain ⟨items, hpasses, hanswers, -⟩ :=
        ensures_end (perform_recounts request hreachable.housed htold.recalls)
      by_cases hrenewed : s.Renewed request
      · obtain ⟨front, raw, block, rfl, hdecode, hcontrol, -⟩ := hanswers hrenewed
        exact ⟨_, .renewed htold hrenewed hpasses hdecode hcontrol⟩
      · exact ⟨_, .called htold hrenewed hpasses⟩

end Session

end SecureElement
