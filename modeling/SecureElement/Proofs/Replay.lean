import SecureElement.Proofs.Allotment
import SecureElement.Proofs.Conduct

/-!
# Runs of a link, and the time they take

A link is a state and what each call makes of it, so the record of a traced link says
where the link stands: `replay` makes the same calls again. With that the record can be
asked for the time. `Prompt` says that every call kept to its time: a write took none,
and a read no more than it was given.

The rest is about the calls of one wait, `awaitRound_course`: reads first, all of them
given the same time, and then at most the answer. As long as a block is not complete,
every read of it has brought something, so there were no more of them than octets of the
block have come (`reads_of_begun`), and `now_replay_reads` turns that into time.
-/

namespace SecureElement

open Link

namespace Link

variable {L : Type} [Link L]

/-- The link after one more call. -/
def after (link : L) : Event → L
  | .bringUp _ => (bringUp link).2
  | .write bytes timeout _ => (write bytes timeout link).2
  | .read n timeout _ => (read n timeout link).2
  | .release => release link

/-- The link after the same calls again. -/
def replay (link : L) (events : List Event) : L := events.foldl after link

theorem replay_append (link : L) (front back : List Event) :
    replay link (front ++ back) = replay (replay link front) back :=
  List.foldl_append

/-- A write took no time, and a read no more than it was given. -/
def InTime (link : L) : Event → Prop
  | .write bytes timeout _ => now (write bytes timeout link).2 = now link
  | .read n timeout _ => now (read n timeout link).2 ≤ now link + timeout
  | .bringUp _ | .release => True

/-- Every call kept to its time. -/
def Prompt (link : L) : List Event → Prop
  | [] => True
  | event :: events => InTime link event ∧ Prompt (after link event) events

instance (link : L) : (event : Event) → Decidable (InTime link event)
  | .write _ _ _ => inferInstanceAs (Decidable (_ = _))
  | .read _ _ _ => inferInstanceAs (Decidable (_ ≤ _))
  | .bringUp _ | .release => inferInstanceAs (Decidable True)

instance decidablePrompt : (link : L) → (events : List Event) → Decidable (Prompt link events)
  | _, [] => inferInstanceAs (Decidable True)
  | link, event :: events =>
      have := decidablePrompt (after link event) events
      inferInstanceAs (Decidable (_ ∧ _))

theorem prompt_append {link : L} {front back : List Event} :
    Prompt link (front ++ back) ↔ Prompt link front ∧ Prompt (replay link front) back := by
  induction front generalizing link with
  | nil => exact ⟨fun h => ⟨trivial, h⟩, fun h => h.2⟩
  | cons event front ih =>
      show InTime link event ∧ Prompt (after link event) (front ++ back) ↔ _
      rw [ih, ← and_assoc]
      exact Iff.rfl

/-- A read that was given a certain time. -/
def Event.IsRead (timeout : Nanos) (event : Event) : Prop :=
  ∃ n outcome, event = .read n timeout outcome

/-- A write. -/
def Event.IsWrite (event : Event) : Prop :=
  ∃ bytes timeout outcome, event = .write bytes timeout outcome

theorem Event.not_isWrite_read (n : Nat) (timeout : Nanos) (outcome : Except Fault Bytes) :
    ¬ (Event.read n timeout outcome).IsWrite := by
  rintro ⟨_, _, _, hother⟩
  exact absurd hother Event.noConfusion

/-- Handing over a frame is one write. -/
theorem writeAll_replay (bytes : Bytes) (timeout : Nanos) (t : Traced L) :
    ∃ outcome, (writeAll bytes timeout t).2.events = t.events ++ [.write bytes timeout outcome] ∧
      (writeAll bytes timeout t).2.link = replay t.link [.write bytes timeout outcome] := by
  refine ⟨(write bytes timeout t.link).1, ?_, ?_⟩
  · rw [writeAll_traced, Traced.events_record]
  · rw [writeAll_traced]
    rfl

/-- Reading some octets is a row of reads, all of them given the same time. -/
theorem readUpTo_replay (timeout : Nanos) : ∀ (calls n : Nat) (t : Traced L),
    ∃ events, (readUpTo timeout calls n t).2.events = t.events ++ events ∧
      (readUpTo timeout calls n t).2.link = replay t.link events ∧
      ∀ event ∈ events, event.IsRead timeout
  | calls, 0, t => by
      rw [readUpTo_none]
      exact ⟨[], (List.append_nil _).symm, rfl, List.forall_mem_nil _⟩
  | 0, n + 1, t => ⟨[], (List.append_nil _).symm, rfl, List.forall_mem_nil _⟩
  | calls + 1, n + 1, t => by
      have hread : ∀ outcome : Except Fault Bytes,
          ∀ event ∈ [Event.read (n + 1) timeout outcome], event.IsRead timeout :=
        fun outcome => List.forall_mem_singleton.mpr ⟨n + 1, outcome, rfl⟩
      rw [readUpTo, read_traced]
      split
      · rename_i hresult
        obtain ⟨-, rfl⟩ := Prod.mk.inj hresult
        exact ⟨_, Traced.events_record .., rfl, hread _⟩
      · rename_i hresult
        obtain ⟨-, rfl⟩ := Prod.mk.inj hresult
        exact ⟨_, Traced.events_record .., rfl, hread _⟩
      · rename_i bytes link _ hresult
        obtain ⟨-, rfl⟩ := Prod.mk.inj hresult
        obtain ⟨events, hevents, hlink, hreads⟩ := readUpTo_replay timeout calls
          (n + 1 - (bytes.take (n + 1)).length) _
        rw [Traced.events_record, List.append_assoc] at hevents
        exact ⟨_, hevents, hlink, List.forall_mem_append.mpr ⟨hread _, hreads⟩⟩

/-- So many reads take no longer than the times that they are given. -/
theorem now_replay_reads {timeout : Nanos} {link : L} {reads : List Event}
    (hreads : ∀ event ∈ reads, event.IsRead timeout) (hprompt : Prompt link reads) :
    now (replay link reads) ≤ now link + reads.length * timeout := by
  induction reads generalizing link with
  | nil => exact Nat.le_add_right _ _
  | cons event reads ih =>
      obtain ⟨hfirst, hrest⟩ := hprompt
      obtain ⟨n, outcome, rfl⟩ := hreads event (List.mem_cons_self ..)
      have hlater := ih (fun e he => hreads e (List.mem_cons_of_mem _ he)) hrest
      have hnow : now (after link (.read n timeout outcome)) ≤ now link + timeout := hfirst
      have hsum : (reads.length + 1) * timeout = reads.length * timeout + timeout :=
        Nat.succ_mul _ _
      calc now (replay (after link (.read n timeout outcome)) reads)
          ≤ now (after link (.read n timeout outcome)) + reads.length * timeout := hlater
        _ ≤ now link + timeout + reads.length * timeout := Nat.add_le_add_right hnow _
        _ = now link + (reads.length + 1) * timeout := by
            rw [hsum, Nat.add_assoc, Nat.add_comm timeout]

end Link

/-! ## Reads of one block -/

variable {e : Epilogue} {capacity : Nat} {timeout : Nanos}

/-- Reads that complete nothing have all brought something. -/
theorem length_begun_of_silent {reads : List Event} {begun : Bytes}
    (hreads : ∀ event ∈ reads, event.IsRead timeout)
    (hsilent : (passages e capacity begun reads).1 = []) :
    begun.length + reads.length ≤ (passages e capacity begun reads).2.length := by
  induction reads generalizing begun with
  | nil => exact Nat.le_refl _
  | cons event reads ih =>
      obtain ⟨n, outcome, rfl⟩ := hreads event (List.mem_cons_self ..)
      rw [passages_cons] at hsilent ⊢
      obtain ⟨hnow, hlater⟩ := List.append_eq_nil_iff.mp hsilent
      -- a read that says something has failed, or has completed a block
      cases outcome with
      | error fault => exact absurd hnow (List.cons_ne_nil _ _)
      | ok octets =>
          cases octets with
          | nil => exact absurd hnow (List.cons_ne_nil _ _)
          | cons octet octets =>
              by_cases hwhole : IsWhole e (begun ++ octet :: octets)
              · rw [hear, arrive_of_whole hwhole] at hnow
                exact absurd hnow (List.cons_ne_nil _ _)
              · rw [hear, arrive_of_not_whole hwhole] at hlater ⊢
                have hrest := ih (fun e he => hreads e (List.mem_cons_of_mem _ he)) hlater
                rw [List.length_append, List.length_cons] at hrest
                rw [List.length_cons]
                dsimp only at hrest ⊢
                omega

/-- **While a block is read, there were no more reads of it than octets have come.** -/
theorem reads_of_begun {reads front back : List Event} {n : Nat}
    {outcome : Except Link.Fault Bytes} {items : List Passage}
    (hreads : ∀ event ∈ reads, event.IsRead timeout)
    (hpass : passages e capacity [] reads = (items, [])) (hone : items.length ≤ 1)
    (hsplit : reads = front ++ .read n timeout outcome :: back) :
    (passages e capacity [] front).1 = [] ∧
      front.length ≤ (passages e capacity [] front).2.length := by
  subst hsplit
  obtain ⟨hfront, hback⟩ := List.forall_mem_append.mp hreads
  rw [passages_append] at hpass
  obtain ⟨hitems, hend⟩ := Prod.mk.inj hpass
  have hsilent : (passages e capacity [] front).1 = [] := by
    cases hheard : (passages e capacity [] front).1 with
    | nil => rfl
    | cons x rest =>
        -- all has been heard by then, so the reads behind it are silent and leave a block begun
        have hlength := congrArg List.length hitems
        rw [hheard, List.length_append, List.length_cons] at hlength
        have hnothing : (passages e capacity (passages e capacity [] front).2
            (.read n timeout outcome :: back)).1 = [] := List.length_eq_zero_iff.mp (by omega)
        have hbegun := length_begun_of_silent hback hnothing
        rw [hend, List.length_cons, List.length_nil] at hbegun
        omega
  have hbegun := length_begun_of_silent hfront hsilent
  rw [List.length_nil, Nat.zero_add] at hbegun
  exact ⟨hsilent, hbegun⟩

/-! ## The calls of a step -/

namespace Session

variable {L : Type} [Link L] {P : Event → Prop} {s₀ s s' : Session (Traced L)}

/-- From `s₀` to `s` only calls of a certain kind were made on the link, and the link stands where
they lead. -/
def Calls (P : Event → Prop) (s₀ s : Session (Traced L)) : Prop :=
  ∃ events, s.link.events = s₀.link.events ++ events ∧
    s.link.link = replay s₀.link.link events ∧ ∀ event ∈ events, P event

theorem Calls.refl (s : Session (Traced L)) : Calls P s s :=
  ⟨[], (List.append_nil _).symm, rfl, List.forall_mem_nil _⟩

theorem Calls.trans (h₁ : Calls P s₀ s) (h₂ : Calls P s s') : Calls P s₀ s' := by
  obtain ⟨events₁, hevents₁, hlink₁, hall₁⟩ := h₁
  obtain ⟨events₂, hevents₂, hlink₂, hall₂⟩ := h₂
  refine ⟨events₁ ++ events₂, ?_, ?_, List.forall_mem_append.mpr ⟨hall₁, hall₂⟩⟩
  · rw [hevents₂, hevents₁, List.append_assoc]
  · rw [replay_append, ← hlink₁, hlink₂]

/-- Only the link tells which calls were made. -/
theorem Calls.congr (h : Calls P s₀ s) (hlink : s'.link = s.link) : Calls P s₀ s' := by
  obtain ⟨events, hevents, hstands, hall⟩ := h
  exact ⟨events, by rw [hlink, hevents], by rw [hlink, hstands], hall⟩

end Session

namespace Step

open SecureElement.Action Session

variable {L α : Type} [Link L] {P : Event → Prop} {s₀ s : Session (Traced L)}

/-- A step that only makes calls of a certain kind. -/
abbrev Makes (P : Event → Prop) (step : Step (Traced L) α) : Prop :=
  ∀ s₀, step.Maintains (Calls P s₀) fun _ _ => True

theorem makes_fail (setback : Setback) : Makes P (fail setback : Step (Traced L) α) :=
  fun _ _ h => kept_any h

theorem calls_modify_bind {g : Session (Traced L) → Session (Traced L)}
    {f : PUnit → Step (Traced L) α} (hlink : ∀ s, (g s).link = s.link)
    (hf : ∀ u, (f u).Maintains (Calls P s₀) fun _ _ => True) :
    (modify g >>= f).Maintains (Calls P s₀) fun _ _ => True :=
  maintains_modify_bind (fun s h => h.congr (hlink s)) hf

/-! ## Writes -/

theorem transmit_makes (frame : Bytes) :
    Makes Event.IsWrite (transmit frame : Step (Traced L) Unit) := by
  intro s₀ s h
  unfold transmit
  rw [ensures_count_bind, ensures_get_bind]
  dsimp only
  rw [ensures_onLink_bind]
  obtain ⟨outcome, hevents, hlink⟩ := writeAll_replay frame s.settings.blockTimeout s.link
  have hmade : ∀ statistics, Calls Event.IsWrite s { s with
      link := (writeAll frame s.settings.blockTimeout s.link).2, statistics } :=
    fun _ => ⟨[_], hevents, hlink, List.forall_mem_singleton.mpr ⟨_, _, _, rfl⟩⟩
  split
  · exact kept_any (h.trans (hmade _))
  · exact kept_any (h.trans (hmade _))

theorem sendControl_makes (block : Block) :
    Makes Event.IsWrite (sendControl block : Step (Traced L) Unit) := by
  intro s₀
  refine maintains_get.bind fun s => ?_
  split
  · exact makes_fail _ s₀
  · exact transmit_makes _ s₀

/-! ## Reads -/

variable (timeout : Nanos)

theorem readFrame_makes (n : Nat) :
    Makes (Event.IsRead timeout) (readFrame n timeout : Step (Traced L) Unit) := by
  intro s₀ s h
  unfold readFrame
  rw [ensures_get_bind]
  split
  · exact kept_any h
  · rw [ensures_onLink_bind]
    obtain ⟨events, hevents, hlink, hreads⟩ := readUpTo_replay timeout n n s.link
    have hmade : ∀ frame, Calls (Event.IsRead timeout) s { s with
        link := (readAll n timeout s.link).2, frame } :=
      fun _ => ⟨events, hevents, hlink, hreads⟩
    generalize readAll n timeout s.link = result at hmade
    obtain ⟨⟨octets, fault⟩, link⟩ := result
    dsimp only at hmade ⊢
    rw [ensures_modify_bind]
    split
    · exact kept_any (h.trans (hmade _))
    · exact kept_any (h.trans (hmade _))

theorem discard_makes : ∀ rounds remaining, Makes (Event.IsRead timeout)
    (discard timeout rounds remaining : Step (Traced L) Unit)
  | 0, _, _ => maintains_pure _
  | rounds + 1, remaining, s₀ => by
      unfold discard
      refine maintains_get.bind fun s => ?_
      dsimp only
      split
      · exact maintains_pure _
      · refine maintains_attempt_bind (readFrame_makes timeout _ s₀) (fun u => ?_) ?_
        · exact calls_modify_bind (fun _ => rfl) fun _ => discard_makes rounds _ s₀
        · intro setback s h _
          exact kept_any (h.congr rfl)

theorem receiveBlock_makes :
    Makes (Event.IsRead timeout) (receiveBlock timeout : Step (Traced L) Inbound) := by
  intro s₀
  have hprologue : Makes (Event.IsRead timeout) (readPrologue timeout : Step (Traced L) Unit) :=
    fun s₀ => calls_modify_bind (fun _ => rfl) fun _ => (readFrame_makes timeout _ s₀).bind fun _ =>
      maintains_get.bind fun _ => readFrame_makes timeout _ s₀
  have hblock : ∀ start, Makes (Event.IsRead timeout)
      (readBlock start : Step (Traced L) Inbound) := by
    intro start s₀
    refine calls_modify_bind (fun _ => rfl) fun _ => maintains_get.bind fun s => ?_
    split
    · exact maintains_pure _
    · split
      · exact calls_modify_bind (fun _ => rfl) fun _ => makes_fail _ s₀
      · exact makes_fail _ s₀
  refine (hprologue s₀).bind fun _ => maintains_get.bind fun s => ?_
  split
  · exact makes_fail _ s₀
  · split
    · exact calls_modify_bind (fun _ => rfl) fun _ =>
        (discard_makes timeout _ _ s₀).bind fun _ => makes_fail _ s₀
    · exact (readFrame_makes timeout _ s₀).bind fun _ => hblock _ s₀

/-! ## One wait -/

/-- The calls of one wait: the reads of one block, all of them given the time that the call has left
at most, and then the answer if there is one. -/
structure Course (timeout : Nanos) (s : Session (Traced L)) (reads writes : List Event)
    (s' : Session (Traced L)) : Prop where
  record : s'.link.events = s.link.events ++ (reads ++ writes)
  stands : s'.link.link = replay s.link.link (reads ++ writes)
  reading : ∀ event ∈ reads, event.IsRead (bounded timeout (timeLeft s))
  writing : ∀ event ∈ writes, event.IsWrite
  /-- Without time there is no read. -/
  left : reads ≠ [] → timeLeft s ≠ some 0
  /-- At most one block, and all of it. -/
  block : ∃ items, items.length ≤ 1 ∧
    passages s.codec.epilogue s.frame.capacity [] reads = (items, [])

theorem awaitRound_course (hcapacity : Block.longPrologue ≤ s.frame.capacity) :
    Ensures (awaitRound timeout) s fun _ s' =>
      ∃ reads writes, Course timeout s reads writes s' := by
  unfold awaitRound
  refine (waitTime_bounded timeout).bind ?_ ?_
  · intro wait s₁ hend
    obtain ⟨rfl, hup, hleft⟩ := hend
    have hsome : timeLeft s₁ ≠ some 0 := fun h => absurd (hup h) nofun
    obtain rfl := Except.ok.inj (hleft hsome)
    have hreads : Ensures (receiveBlock (bounded timeout (timeLeft s₁))) s₁ fun _ s' =>
        ∃ reads, Course timeout s₁ reads [] s' := by
      refine ((receiveBlock_spec _ hcapacity).and (receiveBlock_makes _ s₁ s₁ (.refl s₁))).mono ?_
      intro r s₂ hend
      obtain ⟨⟨link, frame, statistics, rfl, hr⟩, ⟨reads, hevents, hlink, hreads⟩, -⟩ := hend
      have hpass : ∃ x, Passes s₁ [x] { s₁ with link, frame, statistics } := by
        cases r with
        | ok inbound =>
            obtain ⟨raw, block, htalks, -⟩ := hr
            exact ⟨_, htalks.passes⟩
        | error stop =>
            obtain ⟨-, x, htalks, -⟩ := hr
            exact ⟨x, htalks.passes⟩
      obtain ⟨x, events, hevents', hpass⟩ := hpass
      obtain rfl := List.append_cancel_left (hevents.symm.trans hevents')
      refine ⟨reads, ?_⟩
      exact {
        record := by rw [List.append_nil]; exact hevents
        stands := by rw [List.append_nil]; exact hlink
        reading := hreads
        writing := List.forall_mem_nil _
        left := fun _ => hsome
        block := ⟨[x], Nat.le_refl 1, hpass⟩ }
    -- whatever is done with the block, nothing but writes comes behind it
    have hbehind : ∀ {step : Step (Traced L) (Nanos ⊕ Inbound)} {s₂ : Session (Traced L)}
        {reads : List Event}, Makes Event.IsWrite step → Course timeout s₁ reads [] s₂ →
        Ensures step s₂ fun _ s' => ∃ reads writes, Course timeout s₁ reads writes s' := by
      intro step s₂ reads hstep hcourse
      refine (hstep s₂ s₂ (.refl s₂)).mono ?_
      intro r s₃ hend
      obtain ⟨⟨writes, hevents, hlink, hwrites⟩, -⟩ := hend
      refine ⟨reads, writes, ?_⟩
      exact { hcourse with
        record := by rw [hevents, hcourse.record, List.append_nil, List.append_assoc]
        stands := by rw [hlink, hcourse.stands, List.append_nil, replay_append]
        writing := hwrites }
    have hextend : ∀ multiplier,
        Makes Event.IsWrite (extendWait multiplier : Step (Traced L) Nanos) := by
      intro multiplier s₀ s h
      refine (extendWait_link multiplier).mono ?_
      intro r s' hlink
      exact kept_any (h.congr hlink)
    refine hreads.bind ?_ ?_
    · intro inbound s₂ hend
      obtain ⟨reads, hcourse⟩ := hend
      refine hbehind (fun s₀ => maintains_get.bind fun s => ?_) hcourse
      split
      · exact (hextend _ s₀).bind fun _ => (sendControl_makes _ s₀).bind fun _ => maintains_pure _
      · split
        · exact maintains_pure _
        · exact (sendControl_makes _ s₀).bind fun _ => maintains_pure _
      · exact maintains_pure _
    · intro stop s₂ hend
      obtain ⟨reads, hcourse⟩ := hend
      exact ⟨reads, [], hcourse⟩
  · intro stop s₁ hend
    obtain ⟨rfl, -⟩ := hend
    refine ⟨[], [], ?_⟩
    exact {
      record := (List.append_nil _).symm
      stands := rfl
      reading := List.forall_mem_nil _
      writing := List.forall_mem_nil _
      left := fun h => absurd rfl h
      block := ⟨[], Nat.zero_le 1, rfl⟩ }

end Step

end SecureElement
