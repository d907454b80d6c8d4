import SecureElement.Proofs.Ensures

/-!
# Two runs that agree

Where two sessions differ only in what does not matter, an action has to go the same way
in both. `Agree x s y t Q` says so of an action started in `s` and another started in
`t`: they end in the same value or the same stop, and `Q` holds of the two states that
they leave behind. It is `Ensures` for two runs at once, and has the same rules.

Most of the time the two actions are the same one and a relation of the two sessions is
kept: the action `Respects` the relation.
-/

namespace SecureElement.Action

variable {ε L α β : Type} {s t : Session L}

/-- Both actions end in the same, and `Q` holds of the sessions that they leave behind. -/
def Agree (x : Action ε L α) (s : Session L) (y : Action ε L α) (t : Session L)
    (Q : Except (Stop ε) α → Session L → Session L → Prop) : Prop :=
  match x s, y t with
  | .ok a s', .ok b t' => a = b ∧ Q (.ok a) s' t'
  | .error stop s', .error stop' t' => stop = stop' ∧ Q (.error stop) s' t'
  | _, _ => False

variable {x y : Action ε L α} {Q P : Except (Stop ε) α → Session L → Session L → Prop}

theorem Agree.cases (h : Agree x s y t Q) :
    (∃ a s' t', x s = .ok a s' ∧ y t = .ok a t' ∧ Q (.ok a) s' t') ∨
    ∃ stop s' t', x s = .error stop s' ∧ y t = .error stop t' ∧ Q (.error stop) s' t' := by
  unfold Agree at h
  split at h
  · obtain ⟨rfl, hQ⟩ := h
    exact Or.inl ⟨_, _, _, by assumption, by assumption, hQ⟩
  · obtain ⟨rfl, hQ⟩ := h
    exact Or.inr ⟨_, _, _, by assumption, by assumption, hQ⟩
  · exact h.elim

theorem agree_ok {a : α} {s' t' : Session L} (hx : x s = .ok a s') (hy : y t = .ok a t')
    (hQ : Q (.ok a) s' t') : Agree x s y t Q := by
  unfold Agree
  rw [hx, hy]
  exact ⟨rfl, hQ⟩

theorem agree_error {stop : Stop ε} {s' t' : Session L} (hx : x s = .error stop s')
    (hy : y t = .error stop t') (hQ : Q (.error stop) s' t') : Agree x s y t Q := by
  unfold Agree
  rw [hx, hy]
  exact ⟨rfl, hQ⟩

theorem Agree.mono (h : Agree x s y t P) (hPQ : ∀ r s' t', P r s' t' → Q r s' t') :
    Agree x s y t Q := by
  rcases h.cases with ⟨a, s', t', hx, hy, hP⟩ | ⟨stop, s', t', hx, hy, hP⟩
  · exact agree_ok hx hy (hPQ _ _ _ hP)
  · exact agree_error hx hy (hPQ _ _ _ hP)

/-- Both ends are the same, and the states that are left behind are related. -/
theorem Agree.ends {R : Session L → Session L → Prop} (h : Agree x s y t fun _ => R) :
    x.result s = y.result t ∧ R (x.final s) (y.final t) := by
  unfold result final
  rcases h.cases with ⟨a, s', t', hx, hy, hR⟩ | ⟨stop, s', t', hx, hy, hR⟩
  · rw [hx, hy]
    exact ⟨rfl, hR⟩
  · rw [hx, hy]
    exact ⟨rfl, hR⟩

/-- The end of the one is the end of the other, and `Q` holds of it. -/
theorem Agree.outcome (h : Agree x s y t Q) :
    y.result t = x.result s ∧ Q (x.result s) (x.final s) (y.final t) := by
  unfold result final
  rcases h.cases with ⟨a, s', t', hx, hy, hQ⟩ | ⟨stop, s', t', hx, hy, hQ⟩
  · rw [hx, hy]
    exact ⟨rfl, hQ⟩
  · rw [hx, hy]
    exact ⟨rfl, hQ⟩

theorem agree_refl (x : Action ε L α) (s : Session L) : Agree x s x s fun _ s' t' => t' = s' := by
  cases h : x s with
  | ok a s' => exact agree_ok h h rfl
  | error stop s' => exact agree_error h h rfl

/-- What is known of the second run alone is known beside. -/
theorem Agree.beside {P' : Except (Stop ε) α → Session L → Prop} (h : Agree x s y t P)
    (hy : Ensures y t P') : Agree x s y t fun r s' t' => P r s' t' ∧ P' r t' := by
  rcases h.cases with ⟨a, s', t', hx, hyt, hP⟩ | ⟨stop, s', t', hx, hyt, hP⟩
  · exact agree_ok hx hyt ⟨hP, hy.ok hyt⟩
  · exact agree_error hx hyt ⟨hP, hy.error hyt⟩

/-! ## One action after another -/

theorem Agree.bind {x y : Action ε L β} {f g : β → Action ε L α}
    {P : Except (Stop ε) β → Session L → Session L → Prop} (h : Agree x s y t P)
    (hok : ∀ b s' t', P (.ok b) s' t' → Agree (f b) s' (g b) t' Q)
    (herror : ∀ stop s' t', P (.error stop) s' t' → Q (.error stop) s' t') :
    Agree (x >>= f) s (y >>= g) t Q := by
  rcases h.cases with ⟨b, s', t', hx, hy, hP⟩ | ⟨stop, s', t', hx, hy, hP⟩
  · unfold Agree
    rw [bind_of_ok hx, bind_of_ok hy]
    exact hok b s' t' hP
  · exact agree_error (bind_of_error hx) (bind_of_error hy) (herror stop s' t' hP)

theorem agree_get_bind {f g : Session L → Action ε L α} :
    Agree (get >>= f) s (get >>= g) t Q ↔ Agree (f s) s (g t) t Q := Iff.rfl

theorem agree_set_bind {s' t' : Session L} {f g : PUnit → Action ε L α} :
    Agree (set s' >>= f) s (set t' >>= g) t Q ↔ Agree (f ⟨⟩) s' (g ⟨⟩) t' Q := Iff.rfl

theorem agree_modify_bind {f g : Session L → Session L} {h k : PUnit → Action ε L α} :
    Agree (modify f >>= h) s (modify g >>= k) t Q ↔ Agree (h ⟨⟩) (f s) (k ⟨⟩) (g t) Q := Iff.rfl

theorem agree_onLink_bind {f : L → β × L} {h k : β → Action ε L α} :
    Agree (onLink f >>= h) s (onLink f >>= k) t Q ↔
      Agree (h (f s.link).1) { s with link := (f s.link).2 } (k (f t.link).1)
        { t with link := (f t.link).2 } Q := Iff.rfl

/-- A change of status that the table allows on both sides goes through. -/
theorem agree_moveTo_bind {status : Status} {f g : Unit → Action ε L α}
    (hs : s.status.allows status) (ht : t.status.allows status) :
    Agree (moveTo status >>= f) s (moveTo status >>= g) t Q ↔
      Agree (f ⟨⟩) { s with status } (g ⟨⟩) { t with status } Q := by
  unfold Agree
  rw [bind_of_ok (moveTo_eq hs), bind_of_ok (moveTo_eq ht)]

/-! ## Actions that keep a relation -/

/-- The action goes the same way in two sessions that are related, and they stay related. -/
def Respects (R : Session L → Session L → Prop) (x : Action ε L α) : Prop :=
  ∀ s t, R s t → Agree x s x t fun _ => R

variable {R : Session L → Session L → Prop}

theorem Respects.agree {x : Action ε L α} (hx : Respects R x) (h : R s t) :
    Agree x s x t fun _ => R := hx s t h

theorem Respects.bind {x : Action ε L β} {f : β → Action ε L α} (hx : Respects R x)
    (hf : ∀ b, Respects R (f b)) : Respects R (x >>= f) := fun s t h =>
  (hx s t h).bind (fun b s' t' h' => hf b s' t' h') fun _ _ _ h' => h'

theorem respects_pure (a : α) : Respects R (pure a : Action ε L α) := fun _ _ h => ⟨rfl, h⟩

theorem respects_fail (reason : ε) : Respects R (fail reason : Action ε L α) :=
  fun _ _ h => ⟨rfl, h⟩

theorem respects_crash : Respects R (crash : Action ε L α) := fun _ _ h => ⟨rfl, h⟩

/-- What follows depends on nothing that the two sessions differ in. -/
theorem respects_get_bind {f : Session L → Action ε L α} (hsame : ∀ s t, R s t → f t = f s)
    (hf : ∀ s, Respects R (f s)) : Respects R (get >>= f) := by
  intro s t h
  rw [agree_get_bind, hsame s t h]
  exact hf s s t h

theorem respects_modify {g : Session L → Session L} (hg : ∀ s t, R s t → R (g s) (g t)) :
    Respects R (modify g : Action ε L PUnit) := fun s t h => ⟨rfl, hg s t h⟩

theorem respects_modify_bind {g : Session L → Session L} {f : PUnit → Action ε L α}
    (hg : ∀ s t, R s t → R (g s) (g t)) (hf : ∀ u, Respects R (f u)) :
    Respects R (modify g >>= f) := (respects_modify hg).bind hf

end SecureElement.Action

namespace SecureElement.Step

open SecureElement.Action

variable {L α β σ : Type} {s t : Session L} {R : Session L → Session L → Prop}

/-! ## Catching and repeating -/

theorem agree_attempt {x y : Step L β} {P : Except (Stop Setback) β → Session L → Session L → Prop}
    {Q : Except (Stop Setback) (Except Setback β) → Session L → Session L → Prop}
    (h : Agree x s y t P) (hok : ∀ b s' t', P (.ok b) s' t' → Q (.ok (.ok b)) s' t')
    (hcaught : ∀ setback s' t', P (.error (.because setback)) s' t' →
      Q (.ok (.error setback)) s' t')
    (hcrashed : ∀ s' t', P (.error .crashed) s' t' → Q (.error .crashed) s' t')
    (hstalled : ∀ s' t', P (.error .stalled) s' t' → Q (.error .stalled) s' t') :
    Agree (attempt x) s (attempt y) t Q := by
  unfold Agree attempt
  rcases h.cases with ⟨b, s', t', hx, hy, hP⟩ | ⟨stop, s', t', hx, hy, hP⟩
  · rw [hx, hy]
    exact ⟨rfl, hok b s' t' hP⟩
  · rw [hx, hy]
    cases stop with
    | because setback => exact ⟨rfl, hcaught setback s' t' hP⟩
    | crashed => exact ⟨rfl, hcrashed s' t' hP⟩
    | stalled => exact ⟨rfl, hstalled s' t' hP⟩

theorem respects_attempt {step : Step L β} (h : Respects R step) : Respects R (attempt step) :=
  fun s t hrelated => agree_attempt (h s t hrelated) (fun _ _ _ h => h) (fun _ _ _ h => h)
    (fun _ _ h => h) fun _ _ h => h

/-- What a call makes of the end of a step. -/
theorem agree_conclude {x y : Step L β} {onValue onValue' : β → Call L α}
    {onFault onFault' : Setback → Call L α}
    {P : Except (Stop Setback) β → Session L → Session L → Prop}
    {Q : Except (Stop Failure) α → Session L → Session L → Prop} (h : Agree x s y t P)
    (hvalue : ∀ b s' t', P (.ok b) s' t' → Agree (onValue b) s' (onValue' b) t' Q)
    (hfault : ∀ setback s' t', P (.error (.because setback)) s' t' →
      Agree (onFault setback) s' (onFault' setback) t' Q)
    (hcrashed : ∀ s' t', P (.error .crashed) s' t' → Q (.error .crashed) s' t')
    (hstalled : ∀ s' t', P (.error .stalled) s' t' → Q (.error .stalled) s' t') :
    Agree (conclude x onValue onFault) s (conclude y onValue' onFault') t Q := by
  unfold Agree conclude
  rcases h.cases with ⟨b, s', t', hx, hy, hP⟩ | ⟨stop, s', t', hx, hy, hP⟩
  · rw [hx, hy]
    exact hvalue b s' t' hP
  · rw [hx, hy]
    cases stop with
    | because setback => exact hfault setback s' t' hP
    | crashed => exact ⟨rfl, hcrashed s' t' hP⟩
    | stalled => exact ⟨rfl, hstalled s' t' hP⟩

/-- **The rule of the loop** for two runs. Before every round the sessions are related as the state
of the loop asks. -/
theorem agree_loop_indexed {round : σ → Step L (σ ⊕ α)} {R : σ → Session L → Session L → Prop}
    {Q : Except (Stop Setback) α → Session L → Session L → Prop}
    (hround : ∀ state s t, R state s t → Agree (round state) s (round state) t fun r s' t' =>
      match r with
      | .ok (.inl state') => R state' s' t'
      | .ok (.inr a) => Q (.ok a) s' t'
      | .error stop => Q (.error stop) s' t')
    (hstalled : ∀ state s t, R state s t → Q (.error .stalled) s t) :
    ∀ (n : Nat) (state : σ) (s t : Session L), R state s t →
      Agree (loop round n state) s (loop round n state) t Q
  | 0, state, s, t, h => ⟨rfl, hstalled state s t h⟩
  | n + 1, state, s, t, h => by
      refine (hround state s t h).bind ?_ ?_
      · intro r s' t' hr
        cases r with
        | inl state' => exact agree_loop_indexed hround hstalled n state' s' t' hr
        | inr a => exact ⟨rfl, hr⟩
      · exact fun _ _ _ hr => hr

/-- The same with one relation for every round. -/
theorem agree_loop {round : σ → Step L (σ ⊕ α)}
    {Q : Except (Stop Setback) α → Session L → Session L → Prop}
    (hround : ∀ state s t, R s t → Agree (round state) s (round state) t fun r s' t' =>
      match r with
      | .ok (.inl _) => R s' t'
      | .ok (.inr a) => Q (.ok a) s' t'
      | .error stop => Q (.error stop) s' t')
    (hstalled : ∀ s t, R s t → Q (.error .stalled) s t) (n : Nat) (state : σ) (s t : Session L)
    (h : R s t) : Agree (loop round n state) s (loop round n state) t Q :=
  agree_loop_indexed (R := fun _ => R) hround (fun _ => hstalled) n state s t h

theorem respects_loop {round : σ → Step L (σ ⊕ α)} (h : ∀ state, Respects R (round state)) (n : Nat)
    (state : σ) : Respects R (loop round n state) := by
  refine agree_loop (fun state s t hrelated => (h state s t hrelated).mono ?_) (fun _ _ h => h) n
    state
  intro r s' t' hr
  match r with
  | .ok (.inl _) => exact hr
  | .ok (.inr _) => exact hr
  | .error _ => exact hr

end SecureElement.Step
