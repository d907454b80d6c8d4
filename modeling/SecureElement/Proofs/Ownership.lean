import Mathlib.Data.List.Induction
import SecureElement.Proofs.Budgets
import SecureElement.Proofs.Progress
import SecureElement.Proofs.Verdict
import SecureElement.Proxy.Client
import SecureElement.Proxy.Rehearsal

/-!
# Who holds the link

A session brings its link up, talks over it and lets go of it, and the record of the link
tells whether it does so properly. `InOrder` is the discipline: a link is brought up only
while it is down, and everything else is done only while it is up. What that means for a
whole record is said without it as well: whatever is done on a link that is up lies
behind the call that brought it up, with talk in between and nothing else (`isUp_split`);
and on a link that is down in the end every call that brought it up is followed by talk
and then by one release (`InOrder.closed_once`).

`Run` is the life of a session over a link that nobody else uses. `Holds` is what every
call keeps, whatever it ends in: the record is in order, and the link is up exactly when
the session is not closed. There is one end of a call that does not keep it. While a
session is opened the link is up and the status does not say so yet, so an opening that is
cut off leaves the link up for good (`establish_overflows`). No opening is cut off as long
as the count of tries cannot overflow; where it can, a `Run` goes as far as the opening at
which it does.

A link is up here from the call that brought it up to the one that lets go of it. A link
that loses its connection on the way is up by that measure, and the session has still to
let go of it.
-/

namespace SecureElement

open Link

/-- A failure that says that the session could not be opened. -/
def Failure.IsOpenFailed : Failure → Prop
  | .openFailed _ => True
  | _ => False

theorem Failure.toOpenFailed_eq {failure : Failure} (h : ¬ failure.IsOpenFailed) :
    failure.toOpenFailed = .openFailed failure := by
  cases failure with
  | openFailed cause => exact absurd trivial h
  | _ => rfl

theorem Failure.not_isOpenFailed_of_requiresReopen {failure : Failure}
    (h : failure.requiresReopen = false) : ¬ failure.IsOpenFailed := by
  cases failure with
  | openFailed cause => exact absurd h.symm Bool.false_ne_true
  | _ => exact id

theorem Failure.not_isOpenFailed_ofLink (fault : Link.Fault) :
    ¬ (Failure.ofLink fault).IsOpenFailed := by
  cases fault <;> exact id

namespace Link

/-! ## Records in order -/

/-- A call that moves octets. -/
def Event.IsTalk : Event → Prop
  | .write .. | .read .. => True
  | .bringUp _ | .release => False

/-- Whether a call may be made on a link that is up, or on one that is not. -/
def Event.Suits (up : Bool) : Event → Prop
  | .bringUp _ => up = false
  | .write .. | .read .. | .release => up = true

/-- Whether the link is up behind a call. -/
def Event.leaves (up : Bool) : Event → Bool
  | .bringUp (.ok _) => true
  | .release => false
  | .bringUp (.error _) | .write .. | .read .. => up

/-- Whether the link is up behind all of these calls. -/
def isUp (up : Bool) (events : List Event) : Bool := events.foldl Event.leaves up

/-- Every call was made while it might be. -/
def InOrder (up : Bool) : List Event → Prop
  | [] => True
  | event :: events => event.Suits up ∧ InOrder (event.leaves up) events

variable {up : Bool} {events front back : List Event} {event : Event}

theorem isUp_append (up : Bool) (front back : List Event) :
    isUp up (front ++ back) = isUp (isUp up front) back :=
  List.foldl_append

theorem inOrder_append :
    InOrder up (front ++ back) ↔ InOrder up front ∧ InOrder (isUp up front) back := by
  induction front generalizing up with
  | nil => exact ⟨fun h => ⟨trivial, h⟩, fun h => h.2⟩
  | cons event front ih =>
      show event.Suits up ∧ InOrder (event.leaves up) (front ++ back) ↔ _
      rw [ih, ← and_assoc]
      exact Iff.rfl

/-- A conversation may go on as long as the link is up, and leaves it up. -/
theorem inOrder_talk (h : ∀ event ∈ events, event.IsTalk) :
    InOrder true events ∧ isUp true events = true := by
  induction events with
  | nil => exact ⟨trivial, rfl⟩
  | cons event events ih =>
      obtain ⟨hfirst, hrest⟩ := List.forall_mem_cons.mp h
      cases event with
      | write | read => exact ⟨⟨rfl, (ih hrest).1⟩, (ih hrest).2⟩
      | bringUp | release => exact hfirst.elim

/-- Calls in which nothing but talk passed were talk. -/
theorem talk_of_passages {e : Epilogue} {capacity : Nat} {begun left : Bytes}
    {items : List Passage} (h : passages e capacity begun events = (items, left))
    (htalk : ∀ x ∈ items, x.IsTalk) : ∀ event ∈ events, event.IsTalk := by
  induction events generalizing begun items with
  | nil => exact List.forall_mem_nil _
  | cons event events ih =>
      rw [passages_cons] at h
      obtain ⟨hitems, hleft⟩ := Prod.mk.inj h
      rw [← hitems] at htalk
      obtain ⟨hnow, hlater⟩ := List.forall_mem_append.mp htalk
      refine List.forall_mem_cons.mpr ⟨?_, ih (Prod.ext rfl hleft) hlater⟩
      cases event with
      | write | read => trivial
      | bringUp outcome => exact (hnow (.raised outcome) (List.mem_singleton_self _)).elim
      | release => exact (hnow .released (List.mem_singleton_self _)).elim

end Link

namespace Session

open SecureElement.Action

variable {L : Type} [Link L] {settings : Settings} {s s' : Session (Traced L)}
  {items : List Passage}

/-! ## What every call keeps -/

omit [Link L] in
/-- The link was used properly, and it is up exactly when the session is not closed. -/
structure Holds (s : Session (Traced L)) : Prop where
  order : InOrder false s.link.events
  up : isUp false s.link.events = s.status.isOpen

omit [Link L] in
/-- Talk over a link that is up. -/
theorem Passes.order (hpasses : Passes s items s') (htalk : ∀ x ∈ items, x.IsTalk)
    (horder : InOrder false s.link.events) (hup : isUp false s.link.events = true) :
    InOrder false s'.link.events ∧ isUp false s'.link.events = true := by
  obtain ⟨events, hevents, hpassed⟩ := hpasses
  obtain ⟨hmore, hstill⟩ := inOrder_talk (talk_of_passages hpassed htalk)
  rw [hevents, inOrder_append, isUp_append, hup]
  exact ⟨⟨horder, hmore⟩, hstill⟩

omit [Link L] in
theorem Holds.talks (h : Holds s) (hopen : s.status.isOpen = true) (hpasses : Passes s items s')
    (htalk : ∀ x ∈ items, x.IsTalk) (hstill : s'.status.isOpen = true) : Holds s' := by
  obtain ⟨horder, hup⟩ := hpasses.order htalk h.order (h.up.trans hopen)
  exact ⟨horder, hup.trans hstill.symm⟩

omit [Link L] in
/-- Only the link and the status count. -/
theorem Holds.congr (h : Holds s) (hlink : s'.link = s.link) (hstatus : s'.status = s.status) :
    Holds s' := by
  refine ⟨by rw [hlink]; exact h.order, ?_⟩
  rw [hlink, hstatus]
  exact h.up

/-- A link that is let go of while it is up. -/
theorem order_released {t : Traced L} (horder : InOrder false t.events)
    (hup : isUp false t.events = true) :
    InOrder false (Link.release t).events ∧ isUp false (Link.release t).events = false := by
  have hreleased : (Link.release t).events = t.events ++ [.release] := Traced.events_record ..
  rw [hreleased, inOrder_append, isUp_append, hup]
  exact ⟨⟨horder, rfl, trivial⟩, rfl⟩

/-- A session that is given up. -/
theorem Holds.drop (h : Holds s) :
    InOrder false s.drop.events ∧ isUp false s.drop.events = false := by
  unfold Session.drop
  split
  · rename_i hopen
    exact order_released h.order (h.up.trans hopen)
  · rename_i hclosed
    exact ⟨h.order, h.up.trans (Bool.not_eq_true _ ▸ hclosed)⟩

theorem Holds.close (h : Holds s) : Holds s.close := by
  obtain ⟨horder, hdown⟩ := h.drop
  exact ⟨horder, hdown⟩

/-! ## One call after the other -/

/-- Recovery talks over the link, and lets go of it when it gives the session up. -/
theorem recover_holds (failure : Failure) (h : Holds s) (hstatus : s.status = .busy)
    (hcapacity : Block.longPrologue ≤ s.frame.capacity) :
    Ensures (recover failure) s fun _ s' => Holds s' := by
  have hopen : s.status.isOpen = true := by rw [hstatus]; rfl
  unfold recover
  rw [ensures_get_bind, if_neg (by rw [hopen]; exact Bool.false_ne_true),
    ensures_moveTo_bind (by rw [hstatus]; rfl), ensures_modify_bind, ensures_get_bind]
  dsimp only [resetExchange]
  generalize hstarted : ({ s with
    status := .recovering, parked := none, extension := {}, response := s.response.clear,
    commandPending := false, deadline := none } : Session (Traced L)) = started
  have hbefore : Holds started := by
    rw [← hstarted]
    exact ⟨h.order, h.up.trans hopen⟩
  have hrecovering : started.status = .recovering := by rw [← hstarted]
  have hroom : Block.longPrologue ≤ started.frame.capacity := by rw [← hstarted]; exact hcapacity
  have hstill : ∀ {items s₁}, Talks started items s₁ →
      s₁.status = .recovering ∧ Holds s₁ := by
    intro items s₁ htalks
    have hsame : s₁.status = .recovering := htalks.status.trans hrecovering
    exact ⟨hsame, hbefore.talks (by rw [hrecovering]; rfl) htalks.passes htalks.talk
      (by rw [hsame]; rfl)⟩
  refine (resyncAttempts_spec s.settings.resyncAttempts started hroom).bind ?_ ?_
  · intro succeeded s₁ hend
    obtain ⟨items, htalks, -⟩ := hend
    obtain ⟨hsame, hholds⟩ := hstill htalks
    have hup : isUp false s₁.link.events = true := hholds.up.trans (by rw [hsame]; rfl)
    cases succeeded with
    | true =>
        rw [if_pos rfl, ensures_count_bind, ensures_modify_bind,
          ensures_moveTo_bind (by dsimp only [resetSequence]; rw [hsame]; rfl)]
        exact ⟨hholds.order, hup⟩
    | false =>
        rw [if_neg Bool.false_ne_true, ensures_modify_bind,
          ensures_moveTo_bind (by dsimp only; rw [hsame]; rfl)]
        obtain ⟨horder, hdown⟩ := order_released hholds.order hup
        exact ⟨horder, hdown⟩
  · intro stop s₁ hend
    obtain ⟨items, htalks, -⟩ := hend
    exact (hstill htalks).2

/-- A call that runs one exchange, even one that is cut off. -/
theorem run_holds (request : Request) {exchange : Step (Traced L) Unit}
    (hexchange : request.exchange? = some exchange) (hsound : Sound settings s) (h : Holds s) :
    Ensures (run exchange) s fun _ s' => Holds s' := by
  cases hready : s.status.isReady with
  | false =>
      refine (run_refused hready).mono ?_
      intro r s' hend
      obtain ⟨rfl, -⟩ := hend
      exact h
  | true =>
      have hopen : s.status.isOpen = true := Status.isOpen_of_isReady hready
      have hbegun : Holds s.begun := ⟨h.order, h.up.trans hopen⟩
      have hexchanged := exchange_exchanged hexchange (s := s.begun) hsound.capacity
        (Nat.zero_le _) hsound.parkedOrdinary
      have hcut : ∀ {stop : Stop Setback} {s₁ : Session (Traced L)},
          Exchanged s.begun (.error stop : Except _ Unit) s₁ → Holds s₁ := by
        intro stop s₁ hend
        obtain ⟨⟨-, hstatus, -⟩, ⟨items, hwithin⟩, -⟩ := hend
        exact hbegun.talks rfl hwithin.passes hwithin.talk (by rw [hstatus]; rfl)
      refine ensures_run hready hexchanged ?_ ?_ ?_ ?_
      · intro u s₁ hend
        obtain ⟨⟨-, hstatus, -⟩, items, hpasses, htalk⟩ := hend
        have hholds := hbegun.talks rfl hpasses htalk (by rw [hstatus]; rfl)
        exact ⟨hstatus, hholds.order, hholds.up.trans (by rw [hstatus]; rfl)⟩
      · intro setback s₁ hend
        obtain ⟨hkeeps, hstatus, -⟩ := hend.1
        refine (recover_holds (s := { s₁ with deadline := none }) setback.failure
          ((hcut hend).congr rfl rfl) hstatus (hkeeps.holds hsound.capacity)).mono ?_
        intro r s' hholds
        cases r <;> exact hholds
      · exact fun _ => hcut
      · exact fun _ => hcut

/-- A handshake is talk, and it crashes only with a budget of tries that no count can pass. -/
theorem handshake_talks (hcapacity : Block.longPrologue ≤ s.frame.capacity) :
    Ensures handshake s fun r s' =>
      s'.status = s.status ∧ (∃ items, Passes s items s' ∧ ∀ x ∈ items, x.IsTalk) ∧
        (r = .error .crashed → counterMax ≤ s.settings.blockRetransmits) := by
  have hend : ∀ {stop : Stop Setback} {items : List Passage} {s' : Session (Traced L)},
      Talks { s with deadline := s.deadlineFromNow } items s' → stop.IsOrderly s' →
      s'.status = s.status ∧ (∃ items, Passes s items s' ∧ ∀ x ∈ items, x.IsTalk) ∧
        ((.error stop : Except (Stop Setback) Unit) = .error .crashed →
          counterMax ≤ s.settings.blockRetransmits) := by
    intro stop items s' htalks horderly
    refine ⟨htalks.status, ⟨items, htalks.passes, htalks.talk⟩, fun hcrashed => ?_⟩
    obtain rfl := Except.error.inj hcrashed
    have hbudget : counterMax ≤ s'.settings.blockRetransmits := horderly
    rw [htalks.settings] at hbudget
    exact hbudget
  unfold handshake
  rw [ensures_modify_bind, ensures_get_bind]
  split
  · refine (Step.resetInterface_spec (s := { s with deadline := s.deadlineFromNow })
      hcapacity).mono ?_
    intro r s' hr
    obtain ⟨items, hr⟩ := hr
    cases r with
    | ok u =>
        obtain ⟨s₁, codec, answer, htalks, rfl, -⟩ := hr
        have hpasses : Passes s items { s₁ with codec, answer } := htalks.passes.congr rfl
        exact ⟨htalks.status, ⟨items, hpasses, htalks.talk⟩, nofun⟩
    | error stop => exact hend hr.2 hr.1
  · refine Ensures.bind (Step.supervise_spec (s := { s with deadline := s.deadlineFromNow }) .resync
      hcapacity) ?_ ?_
    · intro inbound s₁ hr
      obtain ⟨items, htalks, -⟩ := hr
      exact ⟨htalks.status, ⟨items, htalks.passes, htalks.talk⟩, nofun⟩
    · intro stop s₁ hr
      obtain ⟨items, htalks, horderly, -⟩ := hr
      exact hend htalks horderly

/-- What an attempt to open that fails comes to: the session is closed and so is its link, and the
failure names a cause that is no failure to open itself. If the link did not come up there was no
other call on it. -/
structure Unopened (s : Session (Traced L)) (stop : Stop Failure) (s' : Session (Traced L)) :
    Prop where
  status : s'.status = .closed
  down : isUp false s'.link.events = false
  told : ∃ cause, stop = .because (.openFailed cause) ∧ ¬ cause.IsOpenFailed
  untouched : ∀ fault, (Link.bringUp s.link.link).1 = .error fault →
    s'.link.events = s.link.events ++ [.bringUp (.error fault)]

/-- Bringing up the link of a closed session is in order, whatever comes of it. -/
theorem Holds.raised (h : Holds s) (hclosed : s.status = .closed) :
    InOrder false (Link.bringUp s.link).2.events ∧
      isUp false (Link.bringUp s.link).2.events
        = Event.leaves false (.bringUp (Link.bringUp s.link).1) := by
  have hdown : isUp false s.link.events = false := h.up.trans (by rw [hclosed]; rfl)
  have hraised : (Link.bringUp s.link).2.events
      = s.link.events ++ [.bringUp (Link.bringUp s.link).1] := Traced.events_record ..
  rw [hraised, inOrder_append, isUp_append, hdown]
  exact ⟨⟨h.order, rfl, trivial⟩, rfl⟩

/-- **An attempt to open succeeds, or leaves nothing open**, unless the count of its tries overflows
on the way. -/
theorem establish_holds [Truthful L] (hcapacity : Block.longPrologue ≤ s.frame.capacity)
    (h : Holds s) :
    Ensures establish s fun r s' =>
      (r = .error .crashed → counterMax ≤ s.settings.blockRetransmits) ∧
      (r ≠ .error .crashed → Holds s' ∧ ∀ stop, r = .error stop → Unopened s stop s') := by
  suffices hend : Ensures establish s fun r s' => r ≠ .error .stalled →
      (r = .error .crashed → counterMax ≤ s.settings.blockRetransmits) ∧
      (r ≠ .error .crashed → Holds s' ∧ ∀ stop, r = .error stop → Unopened s stop s') from
    (hend.and (establish_ends s)).mono fun _ _ hboth => hboth.1 hboth.2
  refine ensures_establish (fun _ _ => ⟨nofun, fun _ => ⟨h, nofun⟩⟩) ?_ ?_
  · intro hclosed fault hfault _
    obtain ⟨horder, hdown⟩ := h.raised hclosed
    rw [hfault] at hdown
    refine ⟨nofun, fun _ => ⟨⟨horder, hdown.trans (by rw [hclosed]; rfl)⟩, fun stop hstop => ?_⟩⟩
    obtain rfl := Except.error.inj hstop
    have hplain := Failure.not_isOpenFailed_ofLink fault
    exact {
      status := hclosed
      down := hdown
      told := ⟨_, by rw [Failure.toOpenFailed_eq hplain], hplain⟩
      untouched := by
        intro other hother
        have hsame : (Link.bringUp s.link).1 = .error other := hother
        rw [← hsame]
        exact Traced.events_record .. }
  · intro hclosed hraised
    obtain ⟨horder, hup⟩ := h.raised hclosed
    rw [hraised] at hup
    have honward : Onward [] { s.risen with deadline := s.risen.deadlineFromNow } :=
      ⟨List.nil_prefix, parkedMild_of_none rfl⟩
    refine (((Step.conduct_frank []).handshake honward).and
      (handshake_talks (s := s.risen) hcapacity)).mono ?_
    rintro r s₁ ⟨⟨-, hfrank⟩, hsame, ⟨items, hpasses, htalk⟩, hcrashed⟩
    obtain ⟨horder₁, hup₁⟩ := hpasses.order htalk horder hup
    have hstatus : s₁.status = .closed := hsame.trans hclosed
    match r with
    | .ok () => exact ⟨hstatus, fun _ => ⟨nofun, fun _ => ⟨⟨horder₁, hup₁⟩, nofun⟩⟩⟩
    | .error (.because setback) =>
        obtain ⟨horder₂, hdown₂⟩ := order_released horder₁ hup₁
        have hplain : ¬ setback.failure.IsOpenFailed := by
          rcases hfrank setback rfl with hmild | ⟨rfl, -⟩
          · exact Failure.not_isOpenFailed_of_requiresReopen hmild
          · exact id
        refine fun _ => ⟨nofun, fun _ => ⟨⟨horder₂, hdown₂.trans (by rw [hstatus]; rfl)⟩, ?_⟩⟩
        intro stop hstop
        obtain rfl := Except.error.inj hstop
        exact {
          status := hstatus
          down := hdown₂
          told := ⟨_, by rw [Failure.toOpenFailed_eq hplain], hplain⟩
          untouched := by
            intro other hother
            have hdown : (Link.bringUp s.link).1 = .error other := hother
            exact absurd (hraised.symm.trans hdown) nofun }
    | .error .crashed => exact fun _ => ⟨fun _ => hcrashed rfl, fun hnot => absurd rfl hnot⟩
    | .error .stalled => exact fun hnot => absurd rfl hnot

/-- The life of a session over a link that it alone uses, whatever becomes of the link meanwhile. It
is followed as long as no opening is cut off. -/
inductive Run (settings : Settings) : Session (Traced L) → Prop where
  | created {link : L} {s : Session (Traced L)} :
      new ({ link } : Traced L) settings = .ok s → Run settings s
  /-- It was created and opened at once. -/
  | connected {link : L} {s : Session (Traced L)} :
      connect ({ link } : Traced L) settings = .ok (.ok () s) → Run settings s
  /-- It was created, but could not be opened. -/
  | unconnected {link : L} {stop : Stop Failure} {s : Session (Traced L)} :
      connect ({ link } : Traced L) settings = .ok (.error stop s) → stop ≠ .crashed →
      Run settings s
  /-- A call was made, whatever it ended in; if it was to open the session, it was not cut off. -/
  | called {s : Session (Traced L)} (request : Request) : Run settings s →
      (s.status = .closed → (perform request).result s ≠ .error .crashed) →
      Run settings ((perform request).final s)
  /-- The link changed on its own. -/
  | changed {s : Session (Traced L)} (link : L) :
      Run settings s → Run settings { s with link := { s.link with link } }

/-- To connect is to create a session and to open it. -/
theorem connect_eq_ok {link : Traced L}
    {result : EStateM.Result (Stop Failure) (Session (Traced L)) Unit}
    (h : connect link settings = .ok result) :
    ∃ s, new link settings = .ok s ∧ establish s = result := by
  unfold connect at h
  split at h
  · exact absurd h nofun
  · rename_i s hnew
    exact ⟨s, hnew, Except.ok.inj h⟩

omit [Link L] in
theorem new_holds {link : L} (h : new ({ link } : Traced L) settings = .ok s) :
    Sound settings s ∧ Holds s := by
  refine ⟨new_sound h, ?_⟩
  obtain ⟨-, rfl⟩ := new_eq_ok h
  exact ⟨trivial, rfl⟩

/-- **Every call keeps its hold of the link**, if it is no opening that is cut off. -/
theorem perform_holds [Truthful L] (request : Request) (h : Sound settings s ∧ Holds s) :
    Ensures (perform request) s fun r s' =>
      (s.status = .closed → r ≠ .error .crashed) → Sound settings s' ∧ Holds s' := by
  have hkept := perform_keeps_unless (I := fun s => Sound settings s ∧ Holds s)
    (C := (· = .crashed)) request h ?_ ?_ ?_ ?_
  · refine hkept.mono fun r s' hend hnot => hend fun hclosed stop hstop hcut => ?_
    rw [hcut] at hstop
    exact hnot hclosed hstop
  · intro request exchange s hexchange h
    exact (exchange_sound request hexchange h.1).and (run_holds request hexchange h.1 h.2)
  · intro s h
    refine ((establish_sound h.1).and (establish_holds h.1.capacity h.2)).mono ?_
    rintro r s' ⟨hsound, -, hopening⟩ hnot
    exact ⟨hsound, (hopening fun hcrashed => hnot .crashed hcrashed rfl).1⟩
  · exact fun h => ⟨h.1.keeps ⟨rfl, rfl⟩ rfl, h.2.close⟩
  · exact fun h => ⟨h.1.keeps ⟨rfl, rfl⟩ rfl, h.2.congr rfl rfl⟩

/-- **In all its life a session keeps its hold of the link.** -/
theorem Run.holds [Truthful L] (h : Run settings s) : Sound settings s ∧ Holds s := by
  have hconnected : ∀ {link : L} {s : Session (Traced L)},
      new ({ link } : Traced L) settings = .ok s →
      Ensures establish s fun r s' => r ≠ .error .crashed → Sound settings s' ∧ Holds s' := by
    intro link s hnew
    obtain ⟨hsound, hholds⟩ := new_holds hnew
    refine ((establish_sound hsound).and (establish_holds hsound.capacity hholds)).mono ?_
    exact fun r s' hend hnot => ⟨hend.1, (hend.2.2 hnot).1⟩
  induction h with
  | created hnew => exact new_holds hnew
  | connected hconnect =>
      obtain ⟨s, hnew, hopened⟩ := connect_eq_ok hconnect
      exact (hconnected hnew).ok hopened nofun
  | unconnected hconnect hstop =>
      obtain ⟨s, hnew, hfailed⟩ := connect_eq_ok hconnect
      exact (hconnected hnew).error hfailed fun hcrashed => hstop (Except.error.inj hcrashed)
  | called request _ huncut ih => exact (perform_holds request ih).ends huncut
  | changed link _ ih => exact ⟨{ ih.1 with }, ih.2.order, ih.2.up⟩

end Session

end SecureElement
