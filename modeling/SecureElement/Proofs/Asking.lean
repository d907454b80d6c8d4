import SecureElement.Proofs.Budget

/-!
# Asking until the answer comes

Two exchanges send one frame again and again until a block of a certain type comes
back: a command block that is to be acknowledged, and a supervisory request.
`askUntil_spec` serves both.

What passes meanwhile are `Tries`. They begin with the frame, and apart from copies
of it they hold only asides and blocks of another type; so the block that is
returned is the first of its type, and it comes behind a copy of the frame.
-/

namespace SecureElement

open Link

/-- What may pass while `frame` is sent until a block of type `answer` comes. -/
inductive Tried (c : Codec) (frame : Bytes) (answer : Control) : Passage → Prop where
  /-- The frame was handed over. -/
  | copy (outcome : Except Link.Fault Nat) : Tried c frame answer (.sent frame outcome)
  /-- Something passed that is not for the exchange. -/
  | aside {x : Passage} : Aside c x → Tried c frame answer x
  /-- A block of another type came. -/
  | other {raw : Bytes} {block : Block} : c.decode raw = .ok block → block.control ≠ answer →
      Tried c frame answer (.received raw)

/-- A row of tries. The frame is handed over before anything else can pass. -/
inductive Tries (c : Codec) (frame : Bytes) (answer : Control) : List Passage → Prop where
  | none : Tries c frame answer []
  | some {items : List Passage} (outcome : Except Link.Fault Nat) :
      (∀ x ∈ items, Tried c frame answer x) → Tries c frame answer (.sent frame outcome :: items)

variable {c : Codec} {frame : Bytes} {answer : Control}

theorem Tries.all {items : List Passage} (h : Tries c frame answer items) :
    ∀ x ∈ items, Tried c frame answer x := by
  cases h with
  | none => exact List.forall_mem_nil _
  | some outcome htried =>
      intro x hx
      rcases List.mem_cons.mp hx with rfl | hx
      · exact .copy outcome
      · exact htried x hx

theorem Tries.append {front back : List Passage} (hfront : Tries c frame answer front)
    (hback : Tries c frame answer back) : Tries c frame answer (front ++ back) := by
  cases hfront with
  | none => exact hback
  | some outcome htried =>
      exact .some outcome fun x hx => (List.mem_append.mp hx).elim (htried x) (hback.all x)

/-- The answer came. Tries passed before it, the first of them a copy of the frame. -/
inductive Answered (c : Codec) (frame : Bytes) (answer : Control) : List Passage → Prop where
  | intro {tries : List Passage} {raw : Bytes} {block : Block} (outcome : Except Link.Fault Nat) :
      (∀ x ∈ tries, Tried c frame answer x) → c.decode raw = .ok block → block.control = answer →
      Answered c frame answer (.sent frame outcome :: (tries ++ [.received raw]))

theorem Tries.answered {front : List Passage} {asides : List Passage} {raw : Bytes} {block : Block}
    {outcome : Except Link.Fault Nat} (hfront : Tries c frame answer front)
    (hasides : ∀ x ∈ asides, Aside c x) (hdecode : c.decode raw = .ok block)
    (hcontrol : block.control = answer) :
    Answered c frame answer (front ++ .sent frame outcome :: (asides ++ [.received raw])) := by
  have htried : ∀ x ∈ asides, Tried c frame answer x := fun x hx => .aside (hasides x hx)
  cases hfront with
  | none => exact .intro outcome htried hdecode hcontrol
  | @some items first hitems =>
      have hrow : Passage.sent frame first :: items ++ .sent frame outcome ::
          (asides ++ [.received raw]) = .sent frame first ::
            ((items ++ .sent frame outcome :: asides) ++ [.received raw]) := by
        simp
      rw [hrow]
      refine .intro first (fun x hx => ?_) hdecode hcontrol
      rcases List.mem_append.mp hx with hx | hx
      · exact hitems x hx
      · rcases List.mem_cons.mp hx with rfl | hx
        · exact .copy outcome
        · exact htried x hx

namespace Step

open SecureElement.Action Session

variable {L : Type} {s : Session (Traced L)}

/-- What one round of asking comes to. -/
def AskedOnce (frame : Bytes) (answer : Control) (s : Session (Traced L))
    (r : Except (Stop Setback) (Unit ⊕ Inbound)) (s' : Session (Traced L)) : Prop :=
  ∃ outcome, match r with
    | .ok (.inr inbound) => s'.WithinBudget ∧ ∃ asides raw block,
        Talks s (.sent frame outcome :: (asides ++ [.received raw])) s' ∧
        (∀ x ∈ asides, Aside s.codec x) ∧ Arrived s.codec s'.frame inbound raw block ∧
        block.control = answer
    | .ok (.inl ()) => s'.WithinBudget ∧ ∃ items, Talks s (.sent frame outcome :: items) s' ∧
        ∀ x ∈ items, Tried s.codec frame answer x
    | .error stop => stop.IsOrderly s' ∧ ∃ items, Talks s (.sent frame outcome :: items) s' ∧
        ∀ x ∈ items, Tried s.codec frame answer x

/-- Whatever passed in vain is charged, and that says nothing to the peer. -/
theorem charge_askedOnce {setback : Setback} {outcome : Except Fault Nat} {items : List Passage}
    {s₁ : Session (Traced L)} (hfailure : setback.failure ≠ .recoveryExhausted)
    (hbudget : s₁.WithinBudget) (htalks : Talks s (.sent frame outcome :: items) s₁)
    (htried : ∀ x ∈ items, Tried s.codec frame answer x) :
    Ensures (do charge setback; return .inl ()) s₁ (AskedOnce frame answer s) := by
  refine (charge_spec hfailure hbudget).bind ?_ ?_
  · intro u s₂ hend
    obtain ⟨⟨hcharged, -⟩, horderly⟩ := hend
    have hall := htalks.trans hcharged
    rw [List.append_nil] at hall
    exact ⟨outcome, horderly, items, hall, htried⟩
  · intro stop s₂ hend
    obtain ⟨⟨hcharged, -⟩, horderly⟩ := hend
    have hall := htalks.trans hcharged
    rw [List.append_nil] at hall
    exact ⟨outcome, horderly, items, hall, htried⟩

theorem askRound_spec {ask : Step (Traced L) Inbound} (hbudget : s.WithinBudget)
    (h : Ensures ask s (Asked frame s)) :
    Ensures (askRound ask answer ()) s (AskedOnce frame answer s) := by
  unfold askRound
  refine ensures_attempt_bind h ?_ ?_ ?_ ?_
  · intro inbound s₁ hend
    obtain ⟨hretries, outcome, asides, hasides, raw, block, htalks, harrived⟩ := hend
    have hwithin := hbudget.kept hretries htalks
    dsimp only
    split
    -- the answer ends the round, and any other block is one more thing heard in vain
    · rename_i hanswer
      exact ⟨outcome, hwithin, asides, raw, block, htalks, hasides, harrived,
        harrived.control.symm.trans hanswer⟩
    · rename_i hother
      refine charge_askedOnce (inbound.rejection_ne) hwithin htalks fun x hx => ?_
      rcases List.mem_append.mp hx with hx | hx
      · exact .aside (hasides x hx)
      · rw [List.mem_singleton.mp hx]
        exact .other harrived.decode fun h => hother (harrived.control.trans h)
  · intro setback s₁ hend
    obtain ⟨hretries, outcome, asides, hasides, hordinary, htalks⟩ := hend
    exact charge_askedOnce hordinary (hbudget.kept hretries htalks) htalks
      fun x hx => .aside (hasides x hx)
  · intro s₁ hend
    obtain ⟨-, outcome, asides, -, hordinary, -⟩ := hend
    exact hordinary.elim
  · intro s₁ hend
    obtain ⟨-, outcome, asides, hasides, -, htalks⟩ := hend
    exact ⟨outcome, trivial, asides, htalks, fun x hx => .aside (hasides x hx)⟩

/-- **Asking ends with the answer, or with the tries used up.** Nothing passes behind the answer. -/
theorem askUntil_spec {ask : Step (Traced L) Inbound} (hbudget : s.WithinBudget)
    (hask : ∀ s' items, Talks s items s' → Ensures ask s' (Asked frame s')) :
    Ensures (askUntil ask answer) s fun r s' =>
      match r with
      | .ok inbound => ∃ items raw block, Talks s items s' ∧ Answered s.codec frame answer items ∧
          items.getLast? = some (.received raw) ∧ Arrived s.codec s'.frame inbound raw block ∧
          block.control = answer
      | .error stop =>
          stop.IsOrderly s' ∧ ∃ items, Talks s items s' ∧ Tries s.codec frame answer items := by
  unfold askUntil
  rw [ensures_get_bind]
  -- between rounds all that passed so far is a row of tries, none of which was answered
  refine ensures_loop (I := fun _ s' => s'.WithinBudget ∧
    ∃ items, Talks s items s' ∧ Tries s.codec frame answer items) ?_ ?_ _ _ _
    ⟨hbudget, [], Talks.refl s, .none⟩
  · intro u s₁ hend
    obtain ⟨hwithin, front, hfront, htries⟩ := hend
    refine (askRound_spec hwithin (hask s₁ front hfront)).mono ?_
    intro r s₂ hend
    obtain ⟨outcome, hr⟩ := hend
    rw [hfront.codec] at hr
    match r with
    | .ok (.inr inbound) =>
        obtain ⟨-, asides, raw, block, htalks, hasides, harrived, hcontrol⟩ := hr
        refine ⟨_, raw, block, hfront.trans htalks,
          htries.answered hasides harrived.decode hcontrol, ?_, harrived, hcontrol⟩
        rw [← List.cons_append, ← List.append_assoc, List.getLast?_concat]
    | .ok (.inl ()) =>
        obtain ⟨hwithin', items, htalks, htried⟩ := hr
        exact ⟨hwithin', _, hfront.trans htalks, htries.append (.some outcome htried)⟩
    | .error stop =>
        obtain ⟨horderly, items, htalks, htried⟩ := hr
        exact ⟨horderly, _, hfront.trans htalks, htries.append (.some outcome htried)⟩
  · intro u s₁ hend
    obtain ⟨-, items, htalks, htries⟩ := hend
    exact ⟨trivial, items, htalks, htries⟩

end Step

end SecureElement
