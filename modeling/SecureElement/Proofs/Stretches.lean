import SecureElement.Proofs.Conduct
import SecureElement.Proofs.Parked

/-!
# The account of a session, from one reset to the next

Extra time is granted within limits that hold from one reset of the account to the next.
The account is reset where a command or a reset of the interface starts, where a link has
come up, where a recovery starts, and where the session is closed; everything between two
such places is a `Stretch`, however many calls it takes.

* `conduct_accounted` says that an exchange keeps the account that it starts with, and
  `exchange_accounted`, `recover_accounted` and `establish_accounted` which one that is.
* `Stretch` says how a session gets from one such place to the next, with what passed since;
  the end of an exchange is a place of its own, since a recovery may start there.
* `Stretch.booked` is the induction: on every stretch the session keeps the account that
  can be read off the link.
* `Reachable.onStretch` says that nothing is left out: every reachable session is on one.
-/

namespace SecureElement

open Link

namespace Session

open SecureElement.Action

variable {L : Type} {settings : Settings} {a b : Account} {s s' s₁ : Session (Traced L)}
  {items more : List Passage}

/-! ## Books that go on -/

/-- Whatever the account was, the new one is empty. -/
theorem Booked.renewed (h : Booked settings a s) (hsame : SameBooks { s with extension := {} } s') :
    Booked settings {} s' where
  requests := by rw [hsame.extension]; rfl
  granted := by rw [hsame.extension]; exact (Nat.zero_mul _).symm
  command := by rw [hsame.command]; exact h.command
  codec := by rw [hsame.codec]; exact h.codec
  frame := hsame.frame.trans h.frame
  settings := hsame.settings.trans h.settings

theorem Booked.quiet (h : Booked settings a s) (hquiet : Quiet s s') : Booked settings a s' where
  requests := by rw [hquiet.extension]; exact h.requests
  granted := by rw [hquiet.extension]; exact h.granted
  command := hquiet.command h.command
  codec := by
    have halike := hquiet.speaksAlike (by rw [h.settings]; exact h.codec)
    rw [hquiet.settings, h.settings] at halike
    exact halike
  frame := by rw [hquiet.frame]; exact h.frame
  settings := hquiet.settings.trans h.settings

theorem Accounted.same (h : Accounted settings a s s₁) (hsame : SameBooks s₁ s') :
    Accounted settings a s s' := by
  obtain ⟨items, b, hpasses, hserves, hbooked⟩ := h
  exact ⟨items, b, hpasses.congr hsame.link, hserves, hbooked.same hsame⟩

/-- A step that keeps the books goes on with those that were kept before it. -/
theorem maintains_accounted {α : Type} {step : Step (Traced L) α} (h : Booked settings b s)
    (hstep : Step.KeepsBooks settings step) :
    step.Maintains (Accounted settings a s) fun _ _ => True := by
  intro s₁ haccounted
  obtain ⟨items, a₁, hpasses, hserves, hbooked⟩ := haccounted
  exact (hstep a₁ s₁ hbooked).mono fun _ _ hthen =>
    kept_any (.after h hpasses hserves hbooked hthen)

variable [Link L]

/-- Letting go of the link is none of its business. -/
theorem Accounted.released (h : Booked settings b s) (haccounted : Accounted settings a s s₁) :
    Accounted settings a s { s₁ with link := Link.release s₁.link } := by
  obtain ⟨items, a₁, hpasses, hserves, hbooked⟩ := haccounted
  have hafter : Booked settings a₁ { s₁ with link := Link.release s₁.link } := { hbooked with }
  exact .after h hpasses hserves hbooked
    (hafter.passed (released_passes s₁) (List.forall_mem_singleton.mpr ⟨rfl, rfl⟩))

/-- **Every exchange keeps the books that it finds.** -/
theorem conduct_accounted (hcount : settings.maxExtensions < counterMax)
    (h : Booked settings b s) (a : Account) :
    Step.Conduct (Accounted settings a s) fun _ _ => True where
  quiet := by
    intro s₁ s₂ haccounted hquiet
    obtain ⟨items, a₁, hpasses, hserves, hbooked⟩ := haccounted
    exact ⟨items, a₁, hpasses.congr hquiet.link, hserves, hbooked.quiet hquiet⟩
  still := fun _ _ => trivial
  mild := fun _ _ => trivial
  hardens := fun _ => trivial
  parked := fun _ _ => trivial
  parks := fun haccounted _ => haccounted.same ⟨rfl, rfl, rfl, rfl, rfl, rfl⟩
  sendCommand := maintains_accounted h Step.sendCommand_keepsBooks
  sendControl := fun hcontrol => maintains_accounted h (Step.sendControl_keepsBooks hcontrol)
  awaitRound := fun timeout => maintains_accounted h (Step.awaitRound_keepsBooks hcount timeout)

/-! ## Calls -/

/-- An exchange goes on with the account that it finds, or starts with an empty one. -/
theorem exchange_accounted {request : Request} {exchange : Step (Traced L) Unit}
    (hcount : settings.maxExtensions < counterMax) (hexchange : request.exchange? = some exchange)
    (h : Booked settings a s) :
    (¬ request.Renews → Ensures exchange s fun _ s' => Accounted settings a s s') ∧
    (request.Renews → Ensures exchange s fun _ s' => Accounted settings {} s s') := by
  have hrenewed : Booked settings {} s.resetExchange :=
    h.renewed ⟨rfl, rfl, rfl, rfl, rfl, rfl⟩
  constructor
  · intro hnot
    refine ((conduct_accounted hcount h a).exchange hexchange (fun _ => h.accounted rfl)
      (fun hrenews => absurd hrenews hnot)).mono ?_
    exact fun _ _ hkept => hkept.1
  · intro hrenews
    refine ((conduct_accounted hcount h {}).exchange hexchange (absurd hrenews)
      (fun _ => hrenewed.accounted rfl)).mono ?_
    exact fun _ _ hkept => hkept.1

/-- A recovery starts with an empty account. -/
theorem recover_accounted (hcount : settings.maxExtensions < counterMax) (failure : Failure)
    (h : Booked settings a s) (hstatus : s.status = .busy) :
    Ensures (recover failure) s fun _ s' => Accounted settings {} s s' := by
  have hrenewed : Booked settings {} s.recovering := h.renewed ⟨rfl, rfl, rfl, rfl, rfl, rfl⟩
  refine ensures_recover hstatus (((conduct_accounted hcount h {}).resyncAttempts _ s.recovering
    (hrenewed.accounted rfl)).and (resyncAttempts_spec _ s.recovering h.capacity) |>.mono ?_)
  rintro r s₁ ⟨⟨haccounted, -⟩, items, htalks, -⟩
  match r with
  | .ok true => exact ⟨htalks.status, haccounted.same ⟨rfl, rfl, rfl, rfl, rfl, rfl⟩⟩
  | .ok false =>
      exact ⟨htalks.status, (haccounted.released h).same ⟨rfl, rfl, rfl, rfl, rfl, rfl⟩⟩
  | .error stop => exact haccounted

/-- So does an attempt to open, once the link has come up. -/
theorem establish_accounted (hcount : settings.maxExtensions < counterMax)
    (h : Booked settings a s) (hstatus : s.status = .closed)
    (hraised : (Link.bringUp s.link).1 = .ok ()) :
    Ensures establish s fun _ s' =>
      Accounted settings {} { s with link := (Link.bringUp s.link).2 } s' := by
  have hup : Booked settings a { s with link := (Link.bringUp s.link).2 } := { h with }
  have hrisen : Booked settings {} { s.risen with deadline := s.risen.deadlineFromNow } :=
    { h with
      requests := rfl
      granted := (Nat.zero_mul _).symm
      codec := by
        show s.settings.codec.Alike settings.codec
        rw [h.settings]
        exact ⟨rfl, rfl, rfl⟩ }
  refine ensures_establish (fun hopen => ?_) (fun _ fault hdown => ?_) fun _ _ => ?_
  · rw [hstatus] at hopen
    exact absurd hopen Bool.false_ne_true
  · rw [hraised] at hdown
    exact absurd hdown nofun
  · refine (((conduct_accounted hcount hup {}).handshake (hrisen.accounted rfl)).and
      (handshake_keeps (s := s.risen) h.capacity)).mono ?_
    rintro r s₁ ⟨⟨haccounted, -⟩, -, -, hsame, -⟩
    match r with
    | .ok () =>
        exact ⟨hsame.trans hstatus, haccounted.same ⟨rfl, rfl, rfl, rfl, rfl, rfl⟩⟩
    | .error (.because setback) =>
        exact (haccounted.released hup).same ⟨rfl, rfl, rfl, rfl, rfl, rfl⟩
    | .error .crashed => exact haccounted
    | .error .stalled => exact haccounted

/-! ## Stretches -/

/-- A session, with what passed since its account was last reset. A session that is busy stands at
the end of an exchange, or crashed there. -/
inductive Stretch (settings : Settings) : List Passage → Session (Traced L) → Prop
  /-- A session starts with an empty account. -/
  | created {link : Traced L} {s : Session (Traced L)} : new link settings = .ok s →
      Stretch settings [] s
  /-- Something was done to the link. -/
  | touched {items : List Passage} {s : Session (Traced L)} (link : Traced L) :
      Stretch settings items s → Stretch settings items { s with link }
  /-- The response was dropped, and what was parked. -/
  | dropped {items : List Passage} {s : Session (Traced L)} :
      Stretch settings items s → Stretch settings items s.dropResponse
  | closed {items : List Passage} {s : Session (Traced L)} :
      Stretch settings items s → Stretch settings [] s.close
  /-- An exchange went on with the account that it found. -/
  | continued {items more : List Passage} {s : Session (Traced L)} {request : Request}
      {exchange : Step (Traced L) Unit} : Stretch settings items s →
      s.status.isReady = true → request.exchange? = some exchange → ¬ request.Renews →
      Passes s more (exchange.final s.begun) →
      Stretch settings (items ++ more) (exchange.final s.begun)
  /-- An exchange started with an empty account. -/
  | renewed {items more : List Passage} {s : Session (Traced L)} {request : Request}
      {exchange : Step (Traced L) Unit} : Stretch settings items s →
      s.status.isReady = true → request.exchange? = some exchange → request.Renews →
      Passes s more (exchange.final s.begun) → Stretch settings more (exchange.final s.begun)
  /-- An exchange came to its end, and so did its call. -/
  | returned {items : List Passage} {s : Session (Traced L)} : Stretch settings items s →
      s.status = .busy → Stretch settings items { s with status := .idle, deadline := none }
  /-- A fault ended an exchange, and recovery started with an empty account. -/
  | recovered {items more : List Passage} {s : Session (Traced L)} (failure : Failure) :
      Stretch settings items s → s.status = .busy →
      Passes s more ((recover failure).final { s with deadline := none }) →
      Stretch settings more ((recover failure).final { s with deadline := none })
  /-- The link did not come up. -/
  | refused {items : List Passage} {s : Session (Traced L)} {fault : Link.Fault} :
      Stretch settings items s → s.status = .closed → (Link.bringUp s.link).1 = .error fault →
      Stretch settings (items ++ [.raised (.error fault)])
        { s with link := (Link.bringUp s.link).2 }
  /-- The link came up, and the handshake started with an empty account. -/
  | opened {items more : List Passage} {s : Session (Traced L)} :
      Stretch settings items s → s.status = .closed → (Link.bringUp s.link).1 = .ok () →
      Passes { s with link := (Link.bringUp s.link).2 } more (establish.final s) →
      Stretch settings more (establish.final s)

omit [Link L] in
theorem new_booked {link : Traced L} (h : new link settings = .ok s) : Booked settings {} s := by
  obtain ⟨-, rfl⟩ := new_eq_ok h
  exact {
    requests := rfl
    granted := (Nat.zero_mul _).symm
    command := Codec.isGrant_nil
    codec := ⟨rfl, rfl, rfl⟩
    frame := Buffer.capacity_empty _
    settings := rfl }

omit [Link L] in
/-- The account is the one of what passed. -/
theorem Accounted.booked (h : Accounted settings a s s') (hpasses : Passes s items s') :
    ∃ b, Serves settings a items b ∧ Booked settings b s' := by
  obtain ⟨items', b, hpasses', hserves, hbooked⟩ := h
  obtain rfl := Passes.unique hpasses' hpasses
  exact ⟨b, hserves, hbooked⟩

/-- **On every stretch the session keeps the account that is read off the link.** -/
theorem Stretch.booked (hcount : settings.maxExtensions < counterMax)
    (h : Stretch settings items s) : ∃ a, Serves settings {} items a ∧ Booked settings a s := by
  induction h with
  | created hnew => exact ⟨{}, .done _, new_booked hnew⟩
  | touched link _ ih =>
      obtain ⟨a, hserves, hbooked⟩ := ih
      exact ⟨a, hserves, { hbooked with }⟩
  | dropped _ ih =>
      obtain ⟨a, hserves, hbooked⟩ := ih
      exact ⟨a, hserves, { hbooked with }⟩
  | closed _ ih =>
      obtain ⟨a, -, hbooked⟩ := ih
      exact ⟨{}, .done _, { hbooked with
        requests := rfl
        granted := (Nat.zero_mul _).symm }⟩
  | continued _ _ hexchange hnot hpasses ih =>
      obtain ⟨a, hserves, hbooked⟩ := ih
      have hbegun : Booked settings a (begun _) := { hbooked with }
      have haccounted := ((exchange_accounted hcount hexchange hbegun).1 hnot).final
      obtain ⟨b, hmore, hend⟩ := haccounted.booked hpasses
      exact ⟨b, hserves.append hmore, hend⟩
  | renewed _ _ hexchange hrenews hpasses ih =>
      obtain ⟨a, -, hbooked⟩ := ih
      have hbegun : Booked settings a (begun _) := { hbooked with }
      exact ((exchange_accounted hcount hexchange hbegun).2 hrenews).final.booked hpasses
  | returned _ _ ih =>
      obtain ⟨a, hserves, hbooked⟩ := ih
      exact ⟨a, hserves, { hbooked with }⟩
  | @recovered items more s failure _ hstatus hpasses ih =>
      obtain ⟨a, -, hbooked⟩ := ih
      have hlate : Booked settings a { s with deadline := none } := { hbooked with }
      exact (recover_accounted hcount failure hlate hstatus).final.booked hpasses
  | refused _ _ _ ih =>
      obtain ⟨a, hserves, hbooked⟩ := ih
      exact ⟨a, hserves.append (.unrelated ⟨rfl, rfl⟩ (.done a)), { hbooked with }⟩
  | opened _ hstatus hraised hpasses ih =>
      obtain ⟨a, -, hbooked⟩ := ih
      exact (establish_accounted hcount hbooked hstatus hraised).final.booked hpasses

/-! ## Every session is on one -/

/-- A session that is on some stretch. -/
def OnStretch (settings : Settings) (s : Session (Traced L)) : Prop :=
  ∃ items, Stretch settings items s

/-- The end of an exchange is on a stretch if its start is. -/
theorem OnStretch.exchanged {request : Request} {exchange : Step (Traced L) Unit}
    (hcount : settings.maxExtensions < counterMax) (h : OnStretch settings s)
    (hready : s.status.isReady = true) (hexchange : request.exchange? = some exchange) :
    OnStretch settings (exchange.final s.begun) := by
  obtain ⟨items, hstretch⟩ := h
  obtain ⟨a, -, hbooked⟩ := hstretch.booked hcount
  have hbegun : Booked settings a s.begun := { hbooked with }
  obtain ⟨hcontinues, hrenews⟩ := exchange_accounted hcount hexchange hbegun
  by_cases hrenewing : request.Renews
  · obtain ⟨more, -, hpasses, -⟩ := (hrenews hrenewing).final
    exact ⟨more, .renewed hstretch hready hexchange hrenewing hpasses⟩
  · obtain ⟨more, -, hpasses, -⟩ := (hcontinues hrenewing).final
    exact ⟨items ++ more, .continued hstretch hready hexchange hrenewing hpasses⟩

theorem run_onStretch (request : Request) {exchange : Step (Traced L) Unit}
    (hcount : settings.maxExtensions < counterMax) (hexchange : request.exchange? = some exchange)
    (hsound : Sound settings s) (h : OnStretch settings s) :
    Ensures (run exchange) s fun _ s' => OnStretch settings s' := by
  cases hready : s.status.isReady with
  | false =>
      refine (run_refused hready).mono ?_
      intro r s' hend
      obtain ⟨rfl, -⟩ := hend
      exact h
  | true =>
      have hended : Ensures exchange s.begun fun _ s₁ =>
          OnStretch settings s₁ ∧ s₁.status = .busy := by
        refine (exchange_exchanged (s := s.begun) hexchange hsound.capacity (Nat.zero_le _)
          hsound.parkedOrdinary).ended.mono ?_
        intro r s₁ hend
        obtain ⟨⟨⟨-, hstatus, -⟩, -⟩, -, rfl⟩ := hend
        exact ⟨h.exchanged hcount hready hexchange, hstatus⟩
      refine ensures_run hready hended ?_ ?_ (fun _ h => h.1) fun _ h => h.1
      · intro u s₁ hend
        obtain ⟨⟨items, hstretch⟩, hstatus⟩ := hend
        exact ⟨hstatus, items, .returned hstretch hstatus⟩
      · intro setback s₁ hend
        obtain ⟨⟨items, hstretch⟩, hstatus⟩ := hend
        obtain ⟨a, -, hbooked⟩ := hstretch.booked hcount
        have hlate : Booked settings a { s₁ with deadline := none } := { hbooked with }
        have hrecovered := recover_accounted hcount setback.failure hlate hstatus
        refine hrecovered.ended.mono ?_
        intro r s₂ hend
        obtain ⟨⟨more, -, hpasses, -⟩, -, rfl⟩ := hend
        have hon :
            OnStretch settings ((recover setback.failure).final { s₁ with deadline := none }) :=
          ⟨more, .recovered _ hstretch hstatus hpasses⟩
        cases r with
        | ok told => exact hon
        | error stop => exact hon

theorem establish_onStretch (hcount : settings.maxExtensions < counterMax)
    (h : OnStretch settings s) : Ensures establish s fun _ s' => OnStretch settings s' := by
  obtain ⟨items, hstretch⟩ := h
  obtain ⟨a, -, hbooked⟩ := hstretch.booked hcount
  by_cases hopen : s.status.isOpen = true
  · unfold establish
    rw [ensures_get_bind, if_pos hopen]
    exact ⟨items, hstretch⟩
  · have hclosed : s.status = .closed := Status.not_isOpen_iff.mp hopen
    cases hraised : (Link.bringUp s.link).1 with
    | error fault =>
        unfold establish
        rw [ensures_get_bind, if_neg hopen, ensures_onLink_bind, hraised]
        exact ⟨_, .refused hstretch hclosed hraised⟩
    | ok u =>
        refine (establish_accounted hcount hbooked hclosed hraised).ended.mono ?_
        intro r s' hend
        obtain ⟨⟨more, -, hpasses, -⟩, -, rfl⟩ := hend
        exact ⟨more, .opened hstretch hclosed hraised hpasses⟩

/-- Every call leads from one stretch to the next, or goes on with the one it is on. -/
theorem perform_onStretch (hcount : settings.maxExtensions < counterMax) (request : Request)
    (hsound : Sound settings s) (h : OnStretch settings s) :
    Ensures (perform request) s fun _ s' => Sound settings s' ∧ OnStretch settings s' := by
  refine perform_keeps request ⟨hsound, h⟩ ?_ ?_ ?_ ?_
  · intro request exchange s₁ hexchange h₁
    exact (exchange_sound request hexchange h₁.1).and
      (run_onStretch request hcount hexchange h₁.1 h₁.2)
  · intro s₁ h₁
    exact (establish_sound h₁.1).and (establish_onStretch hcount h₁.2)
  · rintro s₁ ⟨hsound₁, items, hstretch⟩
    exact ⟨hsound₁.keeps ⟨rfl, rfl⟩ rfl, [], .closed hstretch⟩
  · rintro s₁ ⟨hsound₁, items, hstretch⟩
    exact ⟨hsound₁.keeps ⟨rfl, rfl⟩ rfl, items, .dropped hstretch⟩

/-- **Whatever was done with a session, it is on a stretch.** -/
theorem Reachable.onStretch (hcount : settings.maxExtensions < counterMax)
    (h : Reachable settings s) : OnStretch settings s := by
  induction h with
  | created hnew => exact ⟨[], .created hnew⟩
  | called request hreachable ih =>
      exact (perform_onStretch hcount request hreachable.sound ih).final.2
  | touched link _ ih =>
      obtain ⟨items, hstretch⟩ := ih
      exact ⟨items, .touched link hstretch⟩

end Session

end SecureElement
