import SecureElement.Proofs.Supervision

/-!
# One exchange as a call

`run` wraps an exchange in a busy period. Whatever the exchange is, four things are
true of the call, and they are proved here once:

* it ends idle after a value, and no status is entered that the table does not allow
  (`ensures_run`): a call that crashes has crashed inside its exchange;
* a fault of the exchange leads to `recover`, which ends idle with both numbers at
  zero, or closed (`recover_spec`);
* either way the exchange is forgotten;
* what is told is the fault of the exchange, or that recovery was exhausted, and the
  two cannot be mistaken for one another.

What an exchange has to provide for this is `Exchanged`, and what the call comes to
then is its `Outcome` (`run_outcome`).
-/

namespace SecureElement.Session

open Link SecureElement.Action

variable {L : Type}

/-- What no call ever changes. -/
structure Keeps (s s' : Session L) : Prop where
  settings : s'.settings = s.settings
  capacity : s'.frame.capacity = s.frame.capacity

/-- Nothing of an exchange is left. -/
structure Forgotten (s : Session L) : Prop where
  response : s.response.used = []
  parked : s.parked = none
  commandPending : s.commandPending = false

/-- What is parked is no end of a recovery. -/
def ParkedOrdinary (s : Session L) : Prop :=
  ∀ setback, s.parked = some (.error setback) → setback.failure ≠ .recoveryExhausted

theorem parkedOrdinary_of_none {s : Session L} (h : s.parked = none) : s.ParkedOrdinary := by
  intro setback hsome
  rw [h] at hsome
  exact absurd hsome (by simp)

theorem Keeps.holds {s s' : Session L} {n : Nat} (h : Keeps s s') (hn : n ≤ s.frame.capacity) :
    n ≤ s'.frame.capacity := by
  rw [h.capacity]
  exact hn

theorem Keeps.trans {s s₁ s₂ : Session L} (h₁ : Keeps s s₁) (h₂ : Keeps s₁ s₂) : Keeps s s₂ where
  settings := h₂.settings.trans h₁.settings
  capacity := h₂.capacity.trans h₁.capacity

theorem Within.keeps {s s' : Session (Traced L)} {items : List Passage} (h : Within s items s') :
    Keeps s s' where
  settings := h.settings
  capacity := h.capacity

/-! ## Recovery -/

/-- A session that went on after a fault: both sides start over, and `items` passed meanwhile. -/
structure Restarts (s : Session (Traced L)) (items : List Passage) (s' : Session (Traced L)) : Prop
    extends Keeps s s', Forgotten s' where
  status : s'.status = .idle
  sendSeq : s'.sendSeq = .zero
  recvSeq : s'.recvSeq = .zero
  resyncs : s'.statistics.resyncs = s.statistics.resyncs + 1
  passes : Passes s items s'
  talk : ∀ x ∈ items, x.IsTalk

/-- A session that was given up: the link was let go of once, behind everything that passed. -/
structure GivesUp (s : Session (Traced L)) (items : List Passage) (s' : Session (Traced L)) : Prop
    extends Keeps s s', Forgotten s' where
  status : s'.status = .closed
  passes : Passes s (items ++ [.released]) s'
  talk : ∀ x ∈ items, x.IsTalk

variable [Link L] {s : Session (Traced L)}

/-- What recovery comes to. The session goes on as soon as one attempt succeeds, and is given up
when all have failed. -/
def Recovered (failure : Failure) (s : Session (Traced L)) (r : Except (Stop Failure) Failure)
    (s' : Session (Traced L)) : Prop :=
  match r with
  | .ok told =>
      (told = failure ∧ ∃ m vain last, m < s.settings.resyncAttempts ∧
        Restarts s (vain ++ last) s' ∧ Attempts s.codec m vain ∧ Resyncs s.codec last) ∨
      (told = .recoveryExhausted ∧ ∃ items, GivesUp s items s' ∧
        Attempts s.codec s.settings.resyncAttempts items)
  | .error stop => stop = .stalled ∧ Keeps s s' ∧ s'.parked = none ∧ s'.status = .recovering

/-- Letting go of the link is all that passes then. -/
theorem released_passes (s : Session (Traced L)) :
    Passes s [.released] { s with link := Link.release s.link } :=
  ⟨[.release], Traced.events_record .., rfl⟩

/-- The session in which the attempts of a recovery are made. -/
def recovering (s : Session (Traced L)) : Session (Traced L) :=
  { s with
    status := .recovering, parked := none, extension := {}, response := s.response.clear,
    commandPending := false, deadline := none }

/-- What recovery makes of its attempts. -/
theorem ensures_recover {failure : Failure}
    {Q : Except (Stop Failure) Failure → Session (Traced L) → Prop} (hstatus : s.status = .busy)
    (h : Ensures (resyncAttempts s.settings.resyncAttempts) s.recovering fun r s₁ =>
      match r with
      | .ok true => s₁.status = .recovering ∧ Q (.ok failure) { s₁.resetSequence with
          status := .idle, statistics.resyncs := s₁.statistics.resyncs + 1 }
      | .ok false => s₁.status = .recovering ∧ Q (.ok .recoveryExhausted) { s₁ with
          link := Link.release s₁.link, status := .closed }
      | .error stop => Q (.error stop) s₁) :
    Ensures (recover failure) s Q := by
  unfold recover
  have hopen : ¬ (!s.status.isOpen) = true := by rw [hstatus]; exact Bool.false_ne_true
  rw [ensures_get_bind, if_neg hopen, ensures_moveTo_bind (by rw [hstatus]; rfl),
    ensures_modify_bind, ensures_get_bind]
  refine Ensures.bind h ?_ fun _ _ hQ => hQ
  intro succeeded s₁ hend
  match succeeded with
  | true =>
      rw [if_pos rfl, ensures_count_bind, ensures_modify_bind,
        ensures_moveTo_bind (by dsimp only [resetSequence]; rw [hend.1]; rfl)]
      exact hend.2
  | false =>
      rw [if_neg Bool.false_ne_true, ensures_modify_bind,
        ensures_moveTo_bind (by dsimp only; rw [hend.1]; rfl)]
      exact hend.2

/-- What passes in a recovery is what its attempts make of it, and at most the release of the link
comes behind it. -/
theorem recover_passes {P : List Passage → Prop} (failure : Failure)
    (hreleased : ∀ items, P items → P (items ++ [.released])) (hstatus : s.status = .busy)
    (hattempts : Ensures (resyncAttempts s.settings.resyncAttempts) s.recovering fun _ s' =>
      ∃ items, Within s.recovering items s' ∧ P items) :
    Ensures (recover failure) s fun _ s' => ∃ items, Passes s items s' ∧ P items := by
  refine ensures_recover hstatus (hattempts.mono ?_)
  rintro r s₁ ⟨items, hwithin, hitems⟩
  have hpasses : Passes s items s₁ := hwithin.passes
  match r with
  | .ok true => exact ⟨hwithin.status, items, hpasses.congr rfl, hitems⟩
  | .ok false =>
      have hall : Passes s (items ++ [.released]) { s₁ with link := Link.release s₁.link } :=
        hpasses.trans (released_passes s₁) (congrArg Codec.epilogue hwithin.codec) hwithin.capacity
      exact ⟨hwithin.status, _, hall.congr rfl, hreleased items hitems⟩
  | .error stop => exact ⟨items, hpasses, hitems⟩

/-- **Recovery goes on with a fresh start, or gives up after all its attempts.** -/
theorem recover_spec (failure : Failure) (hstatus : s.status = .busy)
    (hcapacity : Block.longPrologue ≤ s.frame.capacity) :
    Ensures (recover failure) s (Recovered failure s) := by
  refine ensures_recover hstatus ?_
  refine (resyncAttempts_spec s.settings.resyncAttempts s.recovering hcapacity).mono ?_
  rintro r s₁ ⟨items, htalks, hr⟩
  have hresponse : s₁.response.used = [] := by
    rw [htalks.response]
    exact Buffer.used_clear s.response
  match r with
  -- both sides start over, and what had gone wrong is what the caller is told
  | .ok true =>
      obtain ⟨m, vain, last, hm, rfl, hattempts, hresyncs⟩ := hr
      refine ⟨htalks.status, Or.inl ⟨rfl, m, vain, last, hm, ?_, hattempts, hresyncs⟩⟩
      exact {
        settings := htalks.settings
        capacity := htalks.capacity
        response := hresponse
        parked := htalks.parked
        commandPending := htalks.commandPending
        status := rfl
        sendSeq := rfl
        recvSeq := rfl
        resyncs := congrArg (· + 1) htalks.resyncs
        passes := htalks.passes.congr rfl
        talk := htalks.talk }
  -- the release of the link is the last thing that passes
  | .ok false =>
      refine ⟨htalks.status, Or.inr ⟨rfl, items, ?_, hr⟩⟩
      exact {
        settings := htalks.settings
        capacity := htalks.capacity
        response := hresponse
        parked := htalks.parked
        commandPending := htalks.commandPending
        status := rfl
        passes :=
          htalks.passes.trans (released_passes s₁) (by rw [htalks.codec]) htalks.capacity
        talk := htalks.talk }
  | .error stop =>
      obtain rfl := hr
      exact ⟨rfl, ⟨htalks.settings, htalks.capacity⟩, htalks.parked, htalks.status⟩

/-! ## Running an exchange -/

variable {α : Type} {exchange : Step (Traced L) α}

/-- The session in which the exchange of a call runs. -/
def begun (s : Session (Traced L)) : Session (Traced L) :=
  { s with status := .busy, retries := 0, deadline := s.deadlineFromNow }

/-- Only a session between calls starts another one. -/
theorem ensures_begin_bind {β : Type} {f : Unit → Call (Traced L) β}
    {Q : Except (Stop Failure) β → Session (Traced L) → Prop} (hready : s.status.isReady = true) :
    Ensures (begin >>= f) s Q ↔ Ensures (f ()) s.begun Q := by
  unfold begin
  rw [bind_assoc, ensures_get_bind]
  split
  · rename_i h; rw [h] at hready; exact absurd hready Bool.false_ne_true
  · rename_i h; rw [h] at hready; exact absurd hready Bool.false_ne_true
  · rename_i h; rw [h] at hready; exact absurd hready Bool.false_ne_true
  · rename_i h
    rw [bind_assoc, ensures_moveTo_bind (by rw [h]; rfl), ensures_modify_bind]
    exact Iff.rfl
  · rename_i h
    rw [bind_assoc, ensures_moveTo_bind (by rw [h]; rfl), ensures_modify_bind]
    exact Iff.rfl

/-- A session that is not between calls refuses, and stays as it is. -/
theorem run_refused (hready : s.status.isReady = false) :
    Ensures (run exchange) s fun r s' =>
      s' = s ∧ ∃ failure, r = .error (.because failure) ∧ failure ≠ .recoveryExhausted := by
  unfold run begin
  rw [bind_assoc, ensures_get_bind]
  split
  · exact ⟨rfl, _, rfl, Failure.noConfusion⟩
  · exact ⟨rfl, _, rfl, Failure.noConfusion⟩
  · exact ⟨rfl, _, rfl, Failure.noConfusion⟩
  · rename_i h; rw [h] at hready; exact absurd hready.symm Bool.false_ne_true
  · rename_i h; rw [h] at hready; exact absurd hready.symm Bool.false_ne_true

/-- What a call makes of its exchange. -/
theorem ensures_run {P : Except (Stop Setback) α → Session (Traced L) → Prop}
    {Q : Except (Stop Failure) α → Session (Traced L) → Prop} (hready : s.status.isReady = true)
    (h : Ensures exchange s.begun P)
    (hvalue : ∀ a s₁, P (.ok a) s₁ → s₁.status = .busy ∧
      Q (.ok a) { s₁ with status := .idle, deadline := none })
    (hfault : ∀ setback s₁, P (.error (.because setback)) s₁ →
      Ensures (recover setback.failure) { s₁ with deadline := none } fun r s' =>
        match r with
        | .ok told => Q (.error (.because told)) s'
        | .error stop => Q (.error stop) s')
    (hcrashed : ∀ s₁, P (.error .crashed) s₁ → Q (.error .crashed) s₁)
    (hstalled : ∀ s₁, P (.error .stalled) s₁ → Q (.error .stalled) s₁) :
    Ensures (run exchange) s Q := by
  unfold run
  rw [ensures_begin_bind hready]
  refine Step.ensures_conclude h ?_ ?_ hcrashed hstalled
  · intro a s₁ hP
    obtain ⟨hstatus, hQ⟩ := hvalue a s₁ hP
    rw [ensures_modify_bind, ensures_moveTo_bind (by rw [hstatus]; rfl)]
    exact hQ
  · intro setback s₁ hP
    rw [ensures_modify_bind]
    refine (hfault setback s₁ hP).bind ?_ ?_
    · intro told s' hQ
      exact hQ
    · intro stop s' hQ
      exact hQ

/-- A call whose exchange succeeds. -/
theorem ensures_run_ok {a : α} {P Q : Session (Traced L) → Prop} (hready : s.status.isReady = true)
    (h : Ensures exchange s.begun fun r s₁ => r = .ok a ∧ P s₁)
    (hvalue : ∀ s₁, P s₁ → s₁.status = .busy ∧ Q { s₁ with status := .idle, deadline := none }) :
    Ensures (run exchange) s fun r s' => r = .ok a ∧ Q s' := by
  refine ensures_run hready h ?_ ?_ ?_ ?_
  · intro b s₁ hend
    exact ⟨(hvalue s₁ hend.2).1, congrArg _ (Except.ok.inj hend.1), (hvalue s₁ hend.2).2⟩
  · intro setback s₁ hend
    exact absurd hend.1 nofun
  · intro s₁ hend
    exact absurd hend.1 nofun
  · intro s₁ hend
    exact absurd hend.1 nofun

/-- What a call that succeeds has of its exchange. -/
theorem run_value {P : α → Session (Traced L) → Prop}
    (h : Ensures exchange s.begun fun r s₁ =>
      match r with
      | .ok a => s₁.status = .busy ∧ P a { s₁ with status := .idle, deadline := none }
      | .error _ => True) :
    Ensures (run exchange) s fun r s' =>
      match r with
      | .ok a => P a s'
      | .error _ => True := by
  cases hready : s.status.isReady with
  | false =>
      refine (run_refused hready).mono ?_
      intro r s' hend
      obtain ⟨-, failure, rfl, -⟩ := hend
      trivial
  | true =>
      refine ensures_run hready h ?_ ?_ ?_ ?_
      · intro a s₁ hP
        exact hP
      · intro setback s₁ _
        exact .intro (fun _ _ _ => trivial) fun _ _ _ => trivial
      · exact fun _ _ => trivial
      · exact fun _ _ => trivial

/-- What every exchange keeps to. A fault that ends it is major and is not counted as a
resynchronisation. -/
def Exchanged (s : Session (Traced L)) (r : Except (Stop Setback) α) (s' : Session (Traced L)) :
    Prop :=
  (Keeps s s' ∧ s'.status = s.status ∧ s'.ParkedOrdinary) ∧
    match r with
    | .ok _ => ∃ items, Passes s items s' ∧ ∀ x ∈ items, x.IsTalk
    | .error stop => (∃ items, Within s items s') ∧
        s'.statistics.resyncs = s.statistics.resyncs ∧ stop.EndsExchange s'

/-- What every call leaves behind. -/
structure Leaves (s s' : Session (Traced L)) : Prop extends Keeps s s' where
  parkedOrdinary : s'.ParkedOrdinary
  status : s'.status ≠ .opened

/-- **What a call comes to.** It succeeds and is idle; or its exchange failed, and it went on with a
fresh start or was given up. -/
def Outcome {β : Type} (exchange : Step (Traced L) α) (s : Session (Traced L))
    (r : Except (Stop Failure) β) (s' : Session (Traced L)) : Prop :=
  Leaves s s' ∧
    match r with
    | .ok _ => s'.status = .idle ∧ ∃ items, Passes s items s' ∧ ∀ x ∈ items, x.IsTalk
    | .error (.because told) => ∃ fault s₁ front,
        exchange s.begun = .error (.because (.major fault)) s₁ ∧ fault ≠ .recoveryExhausted ∧
        Passes s front s₁ ∧
        ((told = fault ∧ ∃ m vain last, m < s.settings.resyncAttempts ∧
            Restarts s (front ++ (vain ++ last)) s' ∧ Attempts s.codec m vain ∧
            Resyncs s.codec last) ∨
          (told = .recoveryExhausted ∧ ∃ vain, GivesUp s (front ++ vain) s' ∧
            Attempts s.codec s.settings.resyncAttempts vain))
    | .error .crashed => exchange s.begun = .error .crashed s'
    | .error .stalled => True

/-! What passes after a fault comes behind what passed before it. -/

omit [Link L] in
theorem Within.restarts {s₁ s₂ : Session (Traced L)} {front back : List Passage}
    (h₁ : Within s front s₁) (hresyncs : s₁.statistics.resyncs = s.statistics.resyncs)
    (h₂ : Restarts s₁ back s₂) : Restarts s (front ++ back) s₂ :=
  { h₁.keeps.trans h₂.toKeeps, h₂.toForgotten with
    status := h₂.status
    sendSeq := h₂.sendSeq
    recvSeq := h₂.recvSeq
    resyncs := by rw [h₂.resyncs, hresyncs]
    passes := h₁.passes.trans h₂.passes (by rw [h₁.codec]) h₁.capacity
    talk := fun x hx => (List.mem_append.mp hx).elim (h₁.talk x) (h₂.talk x) }

omit [Link L] in
theorem Within.givesUp {s₁ s₂ : Session (Traced L)} {front back : List Passage}
    (h₁ : Within s front s₁) (h₂ : GivesUp s₁ back s₂) : GivesUp s (front ++ back) s₂ :=
  { h₁.keeps.trans h₂.toKeeps, h₂.toForgotten with
    status := h₂.status
    passes := by
      rw [List.append_assoc]
      exact h₁.passes.trans h₂.passes (by rw [h₁.codec]) h₁.capacity
    talk := fun x hx => (List.mem_append.mp hx).elim (h₁.talk x) (h₂.talk x) }

theorem run_outcome (hready : s.status.isReady = true)
    (hcapacity : Block.longPrologue ≤ s.frame.capacity)
    (h : Ensures exchange s.begun (Exchanged s.begun)) :
    Ensures (run exchange) s (Outcome exchange s) := by
  refine ensures_run hready h.ran ?_ ?_ ?_ ?_
  · intro a s₁ hend
    obtain ⟨⟨⟨hkeeps, hstatus, hparked⟩, items, hpasses, htalk⟩, -⟩ := hend
    refine ⟨hstatus, ⟨⟨hkeeps.settings, hkeeps.capacity⟩, hparked, Status.noConfusion⟩, rfl, items,
      hpasses.congr rfl, htalk⟩
  · intro setback s₁ hend
    obtain ⟨⟨⟨hkeeps, hstatus, hparked⟩, ⟨front, hwithin⟩, hresyncs, hends⟩, hran⟩ := hend
    -- a minor setback never gets as far as this: whoever met it has charged it
    obtain ⟨fault, rfl, hfault⟩ := hends.major
    have hpasses : Passes s front s₁ := hwithin.passes
    -- recovery starts without a deadline, and nothing passes when that is dropped
    have hbefore : Within s.begun front { s₁ with deadline := none } :=
      { hwithin with passes := hwithin.passes.congr rfl }
    refine (recover_spec (s := { s₁ with deadline := none }) fault hstatus
      (hwithin.holds hcapacity)).mono ?_
    intro r s₂ hr
    cases r with
    | ok told =>
        rcases hr with ⟨rfl, m, vain, last, hm, hrestarts, hattempts, hresyncs'⟩ |
          ⟨rfl, vain, hgives, hattempts⟩
        · have hall := hbefore.restarts hresyncs hrestarts
          dsimp only at hm hattempts hresyncs'
          rw [hwithin.codec] at hattempts hresyncs'
          rw [hwithin.settings] at hm
          refine ⟨⟨⟨hall.settings, hall.capacity⟩, parkedOrdinary_of_none hall.parked, ?_⟩,
            told, s₁, front, hran, hfault, hpasses,
            Or.inl ⟨rfl, m, vain, last, hm, { hall with }, hattempts, hresyncs'⟩⟩
          rw [hall.status]
          exact Status.noConfusion
        · have hall := hbefore.givesUp hgives
          dsimp only at hattempts
          rw [hwithin.codec, hwithin.settings] at hattempts
          refine ⟨⟨⟨hall.settings, hall.capacity⟩, parkedOrdinary_of_none hall.parked, ?_⟩,
            fault, s₁, front, hran, hfault, hpasses, Or.inr ⟨rfl, vain, { hall with }, hattempts⟩⟩
          rw [hall.status]
          exact Status.noConfusion
    -- a peer that never stops talking keeps the session recovering
    | error stop =>
        obtain ⟨rfl, hkeeps', hnone, hrecovering⟩ := hr
        refine ⟨⟨⟨hkeeps'.settings.trans hkeeps.settings, hkeeps'.capacity.trans hkeeps.capacity⟩,
          parkedOrdinary_of_none hnone, ?_⟩, trivial⟩
        rw [hrecovering]
        exact Status.noConfusion
  · intro s₁ hend
    obtain ⟨⟨⟨hkeeps, hstatus, hparked⟩, -⟩, hran⟩ := hend
    refine ⟨⟨⟨hkeeps.settings, hkeeps.capacity⟩, hparked, ?_⟩, hran⟩
    rw [hstatus]
    exact Status.noConfusion
  · intro s₁ hend
    obtain ⟨⟨⟨hkeeps, hstatus, hparked⟩, -⟩, hran⟩ := hend
    refine ⟨⟨⟨hkeeps.settings, hkeeps.capacity⟩, hparked, ?_⟩, trivial⟩
    rw [hstatus]
    exact Status.noConfusion

end SecureElement.Session
