import SecureElement.Session.Step

/-!
# What a step brings about

An action ends in a value or in a `Stop`, and the state that it leaves behind counts
in both cases. `Ensures x s Q` says of an action started in `s` that `Q` holds of
its end, whichever it is. Every later statement about steps and calls is one of
these, and this file holds the rules by which they are put together:

* one rule for each way to build an action, so that a statement about a block of
  actions comes apart into statements about its parts;
* `ensures_loop`, the rule of the only loop: what holds before the first round and
  is kept by a round that asks for another holds whenever the loop is left;
* `ensures_loop_variant`, the same for a loop that is left before its rounds are used
  up.
-/

namespace SecureElement.Action

variable {ε L α β : Type} {s : Session L}

/-- What an action ends in. -/
def result (x : Action ε L α) (s : Session L) : Except (Stop ε) α :=
  match x s with
  | .ok a _ => .ok a
  | .error stop _ => .error stop

/-- The session that an action leaves behind, whatever it ends in. -/
def final (x : Action ε L α) (s : Session L) : Session L :=
  match x s with
  | .ok _ s' => s'
  | .error _ s' => s'

theorem eq_ok_of_result {x : Action ε L α} {a : α} (h : x.result s = .ok a) :
    x s = .ok a (x.final s) := by
  unfold result at h
  unfold final
  split at h
  · obtain rfl := Except.ok.inj h
    assumption
  · exact absurd h (by simp)

theorem eq_error_of_result {x : Action ε L α} {stop : Stop ε} (h : x.result s = .error stop) :
    x s = .error stop (x.final s) := by
  unfold result at h
  unfold final
  split at h
  · exact absurd h (by simp)
  · obtain rfl := Except.error.inj h
    assumption

/-- What follows an action that succeeds is done where that has left off. -/
theorem bind_of_ok {x : Action ε L β} {f : β → Action ε L α} {b : β} {s' : Session L}
    (h : x s = .ok b s') : (x >>= f) s = f b s' := by
  show EStateM.bind x f s = _
  rw [EStateM.bind, h]

/-- Nothing follows an action that stops. -/
theorem bind_of_error {x : Action ε L β} {f : β → Action ε L α} {stop : Stop ε} {s' : Session L}
    (h : x s = .error stop s') : (x >>= f) s = .error stop s' := by
  show EStateM.bind x f s = _
  rw [EStateM.bind, h]

/-- However `x` ends when it is started in `s`, its end satisfies `Q`. -/
def Ensures (x : Action ε L α) (s : Session L)
    (Q : Except (Stop ε) α → Session L → Prop) : Prop :=
  match x s with
  | .ok a s' => Q (.ok a) s'
  | .error stop s' => Q (.error stop) s'

variable {Q P : Except (Stop ε) α → Session L → Prop}

theorem Ensures.ok {x : Action ε L α} {a : α} {s' : Session L} (h : Ensures x s Q)
    (hx : x s = .ok a s') : Q (.ok a) s' := by
  unfold Ensures at h
  rw [hx] at h
  exact h

theorem Ensures.error {x : Action ε L α} {stop : Stop ε} {s' : Session L} (h : Ensures x s Q)
    (hx : x s = .error stop s') : Q (.error stop) s' := by
  unfold Ensures at h
  rw [hx] at h
  exact h

theorem Ensures.ends {x : Action ε L α} (h : Ensures x s Q) : Q (x.result s) (x.final s) := by
  unfold Ensures at h
  unfold Action.result Action.final
  split at h <;> exact h

theorem Ensures.final {P : Session L → Prop} {x : Action ε L α}
    (h : Ensures x s fun _ s' => P s') : P (x.final s) :=
  h.ends

theorem Ensures.result {P : Except (Stop ε) α → Prop} {x : Action ε L α}
    (h : Ensures x s fun r _ => P r) : P (x.result s) :=
  h.ends

theorem Ensures.intro {x : Action ε L α} (hok : ∀ a s', x s = .ok a s' → Q (.ok a) s')
    (herror : ∀ stop s', x s = .error stop s' → Q (.error stop) s') : Ensures x s Q := by
  unfold Ensures
  split
  · exact hok _ _ (by assumption)
  · exact herror _ _ (by assumption)

theorem Ensures.mono {x : Action ε L α} (h : Ensures x s P) (hPQ : ∀ r s', P r s' → Q r s') :
    Ensures x s Q :=
  .intro (fun _ _ hx => hPQ _ _ (h.ok hx)) (fun _ _ hx => hPQ _ _ (h.error hx))

theorem Ensures.and {x : Action ε L α} (hP : Ensures x s P) (hQ : Ensures x s Q) :
    Ensures x s fun r s' => P r s' ∧ Q r s' :=
  .intro (fun _ _ hx => ⟨hP.ok hx, hQ.ok hx⟩) (fun _ _ hx => ⟨hP.error hx, hQ.error hx⟩)

/-- An action that can only have one value has it. -/
theorem Ensures.exists_ok {x : Action ε L α} {a : α} {P : Session L → Prop}
    (h : Ensures x s fun r s' => r = .ok a ∧ P s') : ∃ s', x s = .ok a s' ∧ P s' := by
  cases hx : x s with
  | ok b s' =>
      obtain ⟨hb, hP⟩ := h.ok hx
      obtain rfl := Except.ok.inj hb
      exact ⟨s', rfl, hP⟩
  | error stop s' => exact absurd (h.error hx).1 nofun

/-- An action that can only fail does. -/
theorem Ensures.exists_error {x : Action ε L α} {P : ε → Prop}
    (h : Ensures x s fun r _ => ∃ reason, r = .error (.because reason) ∧ P reason) :
    ∃ reason s', x s = .error (.because reason) s' ∧ P reason := by
  cases hx : x s with
  | ok a s' =>
      obtain ⟨reason, hr, -⟩ := h.ok hx
      exact absurd hr nofun
  | error stop s' =>
      obtain ⟨reason, hr, hP⟩ := h.error hx
      obtain rfl := Except.error.inj hr
      exact ⟨reason, s', rfl, hP⟩

/-- An action ends as it does. -/
theorem Ensures.ran {x : Action ε L α} (h : Ensures x s Q) :
    Ensures x s fun r s' => Q r s' ∧
      match r with
      | .ok a => x s = .ok a s'
      | .error stop => x s = .error stop s' :=
  .intro (fun _ _ hx => ⟨h.ok hx, hx⟩) (fun _ _ hx => ⟨h.error hx, hx⟩)

/-- The same with the end taken apart: its result, and the session that it leaves behind. -/
theorem Ensures.ended {x : Action ε L α} (h : Ensures x s Q) :
    Ensures x s fun r s' => Q r s' ∧ x.result s = r ∧ x.final s = s' := by
  refine .intro (fun a s' hx => ⟨h.ok hx, ?_, ?_⟩) fun stop s' hx => ⟨h.error hx, ?_, ?_⟩
  · rw [Action.result, hx]
  · rw [Action.final, hx]
  · rw [Action.result, hx]
  · rw [Action.final, hx]

/-! ## One action after another -/

theorem Ensures.bind {x : Action ε L β} {f : β → Action ε L α}
    {P : Except (Stop ε) β → Session L → Prop} (hx : Ensures x s P)
    (hok : ∀ b s', P (.ok b) s' → Ensures (f b) s' Q)
    (herror : ∀ stop s', P (.error stop) s' → Q (.error stop) s') : Ensures (x >>= f) s Q := by
  unfold Ensures
  cases h : x s with
  | ok b s' =>
      rw [bind_of_ok h]
      exact hok b s' (hx.ok h)
  | error stop s' =>
      rw [bind_of_error h]
      exact herror stop s' (hx.error h)

/-- The second action after a first one that succeeds. -/
theorem Ensures.bind_ok {x : Action ε L β} {f : β → Action ε L α} {b : β} {P : Session L → Prop}
    (hx : Ensures x s fun r s' => r = .ok b ∧ P s')
    (hok : ∀ s', P s' → Ensures (f b) s' Q) : Ensures (x >>= f) s Q := by
  refine hx.bind ?_ ?_
  · intro b' s' hend
    obtain ⟨hr, hrest⟩ := hend
    obtain rfl := Except.ok.inj hr
    exact hok s' hrest
  · intro stop s' hend
    cases hend.1

/-- Nothing follows a first action that fails. -/
theorem Ensures.bind_error {x : Action ε L β} {f : β → Action ε L α} {stop : Stop ε}
    {P : Session L → Prop} (hx : Ensures x s fun r s' => r = .error stop ∧ P s')
    (herror : ∀ s', P s' → Q (.error stop) s') : Ensures (x >>= f) s Q := by
  refine hx.bind ?_ ?_
  · intro b s' hend
    cases hend.1
  · intro stop' s' hend
    obtain ⟨hr, hrest⟩ := hend
    obtain rfl := Except.error.inj hr
    exact herror s' hrest

/-- Nothing follows a first action that fails in every case, in whatever way. -/
theorem Ensures.bind_fails {x : Action ε L β} {f : β → Action ε L α} {Ends : Stop ε → Prop}
    {P : Session L → Prop}
    (hx : Ensures x s fun r s' => (∃ stop, r = .error stop ∧ Ends stop) ∧ P s') :
    Ensures (x >>= f) s fun r s' => (∃ stop, r = .error stop ∧ Ends stop) ∧ P s' := by
  refine hx.bind ?_ ?_
  · rintro b s₁ ⟨⟨stop, hr, -⟩, -⟩
    exact absurd hr nofun
  · rintro stop s₁ ⟨⟨stop', hr, hends⟩, hrest⟩
    obtain rfl := Except.error.inj hr
    exact ⟨⟨stop, rfl, hends⟩, hrest⟩

/-- What the first action brings about and the second one keeps. -/
theorem Ensures.bind_kept {x : Action ε L β} {f : β → Action ε L α} {P : Session L → Prop}
    (hx : Ensures x s fun _ s' => P s')
    (hf : ∀ b s', P s' → Ensures (f b) s' fun _ s'' => P s'') :
    Ensures (x >>= f) s fun _ s' => P s' :=
  hx.bind hf fun _ _ h => h

@[simp] theorem ensures_pure (a : α) : Ensures (pure a : Action ε L α) s Q ↔ Q (.ok a) s := Iff.rfl

@[simp] theorem ensures_fail (reason : ε) :
    Ensures (fail reason : Action ε L α) s Q ↔ Q (.error (.because reason)) s := Iff.rfl

@[simp] theorem ensures_crash : Ensures (crash : Action ε L α) s Q ↔ Q (.error .crashed) s :=
  Iff.rfl

@[simp] theorem ensures_fail_bind (reason : ε) (f : β → Action ε L α) :
    Ensures (fail reason >>= f) s Q ↔ Q (.error (.because reason)) s := Iff.rfl

@[simp] theorem ensures_crash_bind (f : β → Action ε L α) :
    Ensures (crash >>= f) s Q ↔ Q (.error .crashed) s := Iff.rfl

@[simp] theorem ensures_get_bind (f : Session L → Action ε L α) :
    Ensures (get >>= f) s Q ↔ Ensures (f s) s Q := Iff.rfl

@[simp] theorem ensures_set_bind (s' : Session L) (f : PUnit → Action ε L α) :
    Ensures (set s' >>= f) s Q ↔ Ensures (f ⟨⟩) s' Q := Iff.rfl

@[simp] theorem ensures_modify {Q : Except (Stop ε) PUnit → Session L → Prop}
    (g : Session L → Session L) :
    Ensures (modify g : Action ε L PUnit) s Q ↔ Q (.ok ⟨⟩) (g s) := Iff.rfl

@[simp] theorem ensures_modify_bind (g : Session L → Session L) (f : PUnit → Action ε L α) :
    Ensures (modify g >>= f) s Q ↔ Ensures (f ⟨⟩) (g s) Q := Iff.rfl

@[simp] theorem ensures_count_bind (g : Statistics → Statistics) (f : Unit → Action ε L α) :
    Ensures (count g >>= f) s Q ↔ Ensures (f ⟨⟩) { s with statistics := g s.statistics } Q :=
  Iff.rfl

@[simp] theorem ensures_onLink_bind (g : L → β × L) (f : β → Action ε L α) :
    Ensures (onLink g >>= f) s Q ↔ Ensures (f (g s.link).1) { s with link := (g s.link).2 } Q :=
  Iff.rfl

/-- A change of status that the table allows goes through. -/
theorem moveTo_eq {status : Status} (h : s.status.allows status) :
    (moveTo status : Action ε L Unit) s = .ok ⟨⟩ { s with status } := by
  show (if s.status.allows status then _ else crash : Action ε L Unit) s = _
  rw [if_pos h]
  rfl

theorem ensures_moveTo {Q : Except (Stop ε) Unit → Session L → Prop} {status : Status}
    (h : s.status.allows status) :
    Ensures (moveTo status) s Q ↔ Q (.ok ⟨⟩) { s with status } := by
  unfold Ensures
  rw [moveTo_eq h]

theorem ensures_moveTo_bind {status : Status} {f : Unit → Action ε L α}
    (h : s.status.allows status) :
    Ensures (moveTo status >>= f) s Q ↔ Ensures (f ⟨⟩) { s with status } Q := by
  unfold Ensures
  rw [bind_of_ok (moveTo_eq h)]

end SecureElement.Action

namespace SecureElement.Step

open SecureElement.Action

variable {L α β σ : Type} {s : Session L}

/-! ## Catching and repeating -/

/-- A step whose faults are values ends for no reason but its own crash or stall. -/
theorem ensures_attempt {step : Step L β} {P : Except (Stop Setback) β → Session L → Prop}
    {Q : Except (Stop Setback) (Except Setback β) → Session L → Prop} (h : Ensures step s P)
    (hok : ∀ b s', P (.ok b) s' → Q (.ok (.ok b)) s')
    (hcaught : ∀ setback s', P (.error (.because setback)) s' → Q (.ok (.error setback)) s')
    (hcrashed : ∀ s', P (.error .crashed) s' → Q (.error .crashed) s')
    (hstalled : ∀ s', P (.error .stalled) s' → Q (.error .stalled) s') :
    Ensures (attempt step) s Q := by
  unfold Ensures attempt
  cases hstep : step s with
  | ok b s' => exact hok b s' (h.ok hstep)
  | error stop s' =>
      cases stop with
      | because setback => exact hcaught setback s' (h.error hstep)
      | crashed => exact hcrashed s' (h.error hstep)
      | stalled => exact hstalled s' (h.error hstep)

/-- There is nothing to catch in a step that succeeds. -/
theorem ensures_attempt_ok {step : Step L β} {b : β} {P : Session L → Prop}
    (h : Ensures step s fun r s' => r = .ok b ∧ P s') :
    Ensures (attempt step) s fun r s' => r = .ok (.ok b) ∧ P s' := by
  refine ensures_attempt h ?_ ?_ ?_ ?_
  · intro b' s' hend
    obtain ⟨hr, hrest⟩ := hend
    exact ⟨congrArg (Except.ok ∘ Except.ok) (Except.ok.inj hr), hrest⟩
  · intro setback s' hend
    cases hend.1
  · intro s' hend
    cases hend.1
  · intro s' hend
    cases hend.1

theorem ensures_attempt_bind {step : Step L β} {f : Except Setback β → Step L α}
    {P : Except (Stop Setback) β → Session L → Prop}
    {Q : Except (Stop Setback) α → Session L → Prop} (h : Ensures step s P)
    (hok : ∀ b s', P (.ok b) s' → Ensures (f (.ok b)) s' Q)
    (hcaught : ∀ setback s', P (.error (.because setback)) s' → Ensures (f (.error setback)) s' Q)
    (hcrashed : ∀ s', P (.error .crashed) s' → Q (.error .crashed) s')
    (hstalled : ∀ s', P (.error .stalled) s' → Q (.error .stalled) s') :
    Ensures (attempt step >>= f) s Q := by
  refine Ensures.bind (P := fun r s' =>
    match r with
    | .ok received => Ensures (f received) s' Q
    | .error stop => Q (.error stop) s') ?_ (fun _ _ hr => hr) (fun _ _ hr => hr)
  exact ensures_attempt h hok hcaught hcrashed hstalled

/-- What a call makes of the end of a step. -/
theorem ensures_conclude {step : Step L β} {onValue : β → Call L α} {onFault : Setback → Call L α}
    {P : Except (Stop Setback) β → Session L → Prop}
    {Q : Except (Stop Failure) α → Session L → Prop}
    (h : Ensures step s P) (hvalue : ∀ b s', P (.ok b) s' → Ensures (onValue b) s' Q)
    (hfault : ∀ setback s', P (.error (.because setback)) s' → Ensures (onFault setback) s' Q)
    (hcrashed : ∀ s', P (.error .crashed) s' → Q (.error .crashed) s')
    (hstalled : ∀ s', P (.error .stalled) s' → Q (.error .stalled) s') :
    Ensures (conclude step onValue onFault) s Q := by
  unfold Ensures conclude
  cases hstep : step s with
  | ok b s' => exact hvalue b s' (h.ok hstep)
  | error stop s' =>
      cases stop with
      | because setback => exact hfault setback s' (h.error hstep)
      | crashed => exact hcrashed s' (h.error hstep)
      | stalled => exact hstalled s' (h.error hstep)

/-- **The rule of the loop.** `I` holds before every round. -/
theorem ensures_loop {round : σ → Step L (σ ⊕ α)} {I : σ → Session L → Prop}
    {Q : Except (Stop Setback) α → Session L → Prop}
    (hround : ∀ state s, I state s → Ensures (round state) s fun r s' =>
      match r with
      | .ok (.inl state') => I state' s'
      | .ok (.inr a) => Q (.ok a) s'
      | .error stop => Q (.error stop) s')
    (hstalled : ∀ state s, I state s → Q (.error .stalled) s) :
    ∀ (n : Nat) (state : σ) (s : Session L), I state s → Ensures (loop round n state) s Q
  | 0, state, s, h => hstalled state s h
  | n + 1, state, s, h => by
      refine (hround state s h).bind ?_ ?_
      · intro r s' hr
        cases r with
        | inl state' => exact ensures_loop hround hstalled n state' s' hr
        | inr a => exact hr
      · intro stop s' hr
        exact hr

/-- The same with a variant: as long as every round that asks for another one makes it smaller, a
number of rounds above it is never used up. -/
theorem ensures_loop_variant {round : σ → Step L (σ ⊕ α)} {I : σ → Session L → Prop}
    {V : Session L → Nat} {Q : Except (Stop Setback) α → Session L → Prop}
    (hround : ∀ state s, I state s → Ensures (round state) s fun r s' =>
      match r with
      | .ok (.inl state') => I state' s' ∧ V s' < V s
      | .ok (.inr a) => Q (.ok a) s'
      | .error stop => Q (.error stop) s') :
    ∀ (n : Nat) (state : σ) (s : Session L), I state s → V s < n →
      Ensures (loop round n state) s Q
  | 0, _, _, _, hn => absurd hn (Nat.not_lt_zero _)
  | n + 1, state, s, h, hn => by
      refine (hround state s h).bind ?_ ?_
      · intro r s' hr
        cases r with
        | inl state' =>
            obtain ⟨hinvariant, hless⟩ := hr
            exact ensures_loop_variant hround n state' s' hinvariant (by omega)
        | inr a => exact hr
      · intro stop s' hr
        exact hr

end SecureElement.Step
