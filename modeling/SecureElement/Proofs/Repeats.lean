import SecureElement.Proofs.Delivery
import SecureElement.Proofs.Reply
import SecureElement.Proofs.Response

/-!
# When a command goes out again

`Replies` is the conversation of one read with a single question in mind: does the last
command block go out again? It does behind a block that asks for it, as long as no block
of the response was accepted, and at no other point.

* `Replies.asked` and `Replies.answered` read this off in both directions: an information
  frame was asked for right before it, and whoever asks gets it next.
* `receiveRounds_replies` is the induction over the rounds of a read. A round either
  leaves the command pending, with all that belongs to it as it was (`Pends`), or it
  settles it, and behind that no information frame can pass.
-/

namespace SecureElement

open Link

/-- This is where a block of the given type came. -/
def Passage.Shows (c : Codec) (control : Control) (x : Passage) : Prop :=
  ∃ raw block, x = .received raw ∧ c.decode raw = .ok block ∧ block.control = control

/-- Something that neither hands over an information block nor, while the command is pending, shows
one of the two types that matter. -/
structure IsQuiet (c : Codec) (number seq : Seq) (pending : Bool) (x : Passage) : Prop where
  frame : ∀ frame, x.frame? = some frame → isInformation frame = false
  ready : pending = true → ∀ receipt, ¬ x.Shows c (.ready number receipt)
  information : pending = true → ∀ more, ¬ x.Shows c (.information seq more)

/-- The ends of a read that leave a request for the command unanswered: no tries are left. -/
def IsSpent (r : Except (Stop Setback) Unit) : Prop :=
  r = .error (.because (.major (.violation .commandLost))) ∨ r = .error .crashed

/-- The conversation of a read that ends in `r`. While the command is `pending`, a block that names
`number` asks for it, and a block numbered `seq` settles it. -/
inductive Replies (c : Codec) (command : Bytes) (number seq : Seq)
    (r : Except (Stop Setback) Unit) : Bool → List Passage → Prop
  | ended {pending : Bool} : Replies c command number seq r pending []
  /-- The read ends behind something that came. -/
  | givenUp {pending : Bool} {x : Passage} (come : x.frame? = none)
      (spent : pending = true → ∀ receipt, x.Shows c (.ready number receipt) → IsSpent r) :
      Replies c command number seq r pending [x]
  | quiet {pending : Bool} {x : Passage} {rest : List Passage}
      (quiet : IsQuiet c number seq pending x) :
      Replies c command number seq r pending rest →
      Replies c command number seq r pending (x :: rest)
  /-- The command is asked for, and goes out next. -/
  | repeated {x : Passage} {rest : List Passage} {receipt : Receipt}
      (shows : x.Shows c (.ready number receipt)) (outcome : Except Link.Fault Nat) :
      Replies c command number seq r true rest →
      Replies c command number seq r true (x :: .sent command outcome :: rest)
  /-- A block of the response is accepted, and the command is pending no longer. -/
  | settled {x : Passage} {rest : List Passage} {more : Bool}
      (shows : x.Shows c (.information seq more)) :
      Replies c command number seq r false rest → Replies c command number seq r true (x :: rest)

variable {c : Codec} {command frame : Bytes} {number seq : Seq} {pending : Bool}
  {r : Except (Stop Setback) Unit} {x : Passage} {items : List Passage}

theorem Passage.Shows.frame?_eq {control : Control} (h : x.Shows c control) : x.frame? = none := by
  obtain ⟨raw, block, rfl, -⟩ := h
  rfl

/-- A block is of one type only. -/
theorem Passage.Shows.unique {control control' : Control} (h : x.Shows c control)
    (h' : x.Shows c control') : control = control' := by
  obtain ⟨raw, block, rfl, hdecode, hcontrol⟩ := h
  obtain ⟨raw', block', hraw, hdecode', hcontrol'⟩ := h'
  obtain rfl := Passage.received.inj hraw
  obtain rfl := Except.ok.inj (hdecode.symm.trans hdecode')
  exact hcontrol.symm.trans hcontrol'

/-- A frame that was handed over shows nothing. -/
theorem not_shows_sent {control : Control} {outcome : Except Link.Fault Nat} :
    ¬ (Passage.sent frame outcome).Shows c control :=
  fun h => absurd h.frame?_eq nofun

/-! ## Both directions -/

/-- **Whatever information block goes out was asked for.** It is the command, no block of the
response was accepted before, and the passage right before it asks for it. -/
theorem Replies.asked (h : Replies c command number seq r pending items) :
    ∀ (front : List Passage) (frame : Bytes) (outcome : Except Link.Fault Nat)
      (rest : List Passage), items = front ++ .sent frame outcome :: rest →
      isInformation frame = true →
      pending = true ∧ frame = command
        ∧ (∀ y ∈ front, ∀ more, ¬ y.Shows c (.information seq more))
        ∧ ∃ before y receipt, front = before ++ [y] ∧ y.Shows c (.ready number receipt) := by
  induction h with
  | ended =>
      intro front frame outcome rest hitems
      exact absurd hitems.symm (by simp)
  | @givenUp pending x come spent =>
      intro front frame outcome rest hitems
      have hx : Passage.sent frame outcome ∈ [x] := by
        rw [hitems]
        exact List.mem_append_right _ (List.mem_cons_self ..)
      rw [← List.mem_singleton.mp hx] at come
      exact absurd come nofun
  | @quiet pending x rest' quiet _ ih =>
      intro front frame outcome rest hitems hinformation
      cases front with
      | nil =>
          obtain ⟨rfl, -⟩ := List.cons.inj hitems
          have hquiet := quiet.frame frame rfl
          rw [hinformation] at hquiet
          exact absurd hquiet (by simp)
      | cons y front =>
          obtain ⟨rfl, hrest⟩ := List.cons.inj hitems
          obtain ⟨hpending, hframe, hnone, before, z, receipt, rfl, hshows⟩ :=
            ih front frame outcome rest hrest hinformation
          refine ⟨hpending, hframe, ?_, x :: before, z, receipt, rfl, hshows⟩
          exact List.forall_mem_cons.mpr ⟨quiet.information hpending, hnone⟩
  | @repeated x rest' receipt shows sent _ ih =>
      intro front frame outcome rest hitems hinformation
      have hnot : ∀ more, ¬ x.Shows c (.information seq more) := fun more h =>
        Control.noConfusion (shows.unique h)
      match front with
      | [] =>
          obtain ⟨rfl, -⟩ := List.cons.inj hitems
          exact absurd shows not_shows_sent
      | [y] =>
          obtain ⟨rfl, hrest⟩ := List.cons.inj hitems
          obtain ⟨hsent, -⟩ := List.cons.inj hrest
          obtain ⟨rfl, -⟩ := Passage.sent.inj hsent
          exact ⟨rfl, rfl, List.forall_mem_singleton.mpr hnot, [], x, receipt, rfl, shows⟩
      | y :: z :: front =>
          obtain ⟨rfl, htail⟩ := List.cons.inj hitems
          obtain ⟨rfl, hrest⟩ := List.cons.inj htail
          obtain ⟨hpending, hframe, hnone, before, w, receipt', rfl, hshows⟩ :=
            ih front frame outcome rest hrest hinformation
          refine ⟨hpending, hframe, ?_, x :: .sent command sent :: before, w, receipt', rfl, hshows⟩
          exact List.forall_mem_cons.mpr ⟨hnot,
            List.forall_mem_cons.mpr ⟨fun _ => not_shows_sent, hnone⟩⟩
  | @settled x rest' more shows _ ih =>
      intro front frame outcome rest hitems hinformation
      cases front with
      | nil =>
          obtain ⟨rfl, -⟩ := List.cons.inj hitems
          exact absurd shows not_shows_sent
      | cons y front =>
          -- behind a block that was accepted no information block goes out
          obtain ⟨-, hrest⟩ := List.cons.inj hitems
          exact absurd (ih front frame outcome rest hrest hinformation).1 Bool.false_ne_true

/-- What comes behind a request for the command: the command, or the end of the read when no tries
are left. -/
def Granted (command : Bytes) (r : Except (Stop Setback) Unit) (rest : List Passage) : Prop :=
  (rest = [] ∧ IsSpent r) ∨ ∃ outcome rest', rest = .sent command outcome :: rest'

/-- **Whoever asks for the command gets it next**, before a block of the response was accepted. -/
theorem Replies.answered (h : Replies c command number seq r pending items) :
    ∀ (front : List Passage) (x : Passage) (rest : List Passage) (receipt : Receipt),
      items = front ++ x :: rest → pending = true → x.Shows c (.ready number receipt) →
      (∀ y ∈ front, ∀ more, ¬ y.Shows c (.information seq more)) → Granted command r rest := by
  induction h with
  | ended =>
      intro front x rest receipt hitems
      exact absurd hitems.symm (by simp)
  | @givenUp pending x come spent =>
      intro front y rest receipt hitems hpending hshows _
      cases front with
      | nil =>
          obtain ⟨rfl, hrest⟩ := List.cons.inj hitems
          exact .inl ⟨hrest.symm, spent hpending receipt hshows⟩
      | cons z front => exact absurd (List.cons.inj hitems).2.symm (by simp)
  | @quiet pending x rest' quiet _ ih =>
      intro front y rest receipt hitems hpending hshows hnone
      cases front with
      | nil =>
          obtain ⟨rfl, -⟩ := List.cons.inj hitems
          exact absurd hshows (quiet.ready hpending receipt)
      | cons z front =>
          obtain ⟨-, hrest⟩ := List.cons.inj hitems
          exact ih front y rest receipt hrest hpending hshows fun w hw =>
            hnone w (List.mem_cons_of_mem z hw)
  | @repeated x rest' receipt' shows sent _ ih =>
      intro front y rest receipt hitems hpending hshows hnone
      match front with
      | [] =>
          obtain ⟨-, hrest⟩ := List.cons.inj hitems
          exact .inr ⟨sent, rest', hrest.symm⟩
      | [z] =>
          obtain ⟨-, hrest⟩ := List.cons.inj hitems
          obtain ⟨rfl, -⟩ := List.cons.inj hrest
          exact absurd hshows not_shows_sent
      | z :: w :: front =>
          obtain ⟨-, hrest⟩ := List.cons.inj hitems
          obtain ⟨-, hrest⟩ := List.cons.inj hrest
          exact ih front y rest receipt hrest hpending hshows fun v hv =>
            hnone v (List.mem_cons_of_mem z (List.mem_cons_of_mem w hv))
  | @settled x rest' more shows _ ih =>
      intro front y rest receipt hitems _ hshows hnone
      cases front with
      | nil =>
          obtain ⟨rfl, -⟩ := List.cons.inj hitems
          exact Control.noConfusion (hshows.unique shows)
      | cons z front =>
          obtain ⟨rfl, -⟩ := List.cons.inj hitems
          exact absurd shows (hnone x (List.mem_cons_self ..) more)

/-! ## Ways to begin -/

/-- Once the command is settled, nothing depends on what it was. -/
theorem Replies.of_settled {command' : Bytes} {number' seq' : Seq}
    (h : Replies c command number seq r pending items) (hpending : pending = false) :
    Replies c command' number' seq' r false items := by
  induction h with
  | ended => exact .ended
  | givenUp come _ => exact .givenUp come nofun
  | quiet quiet _ ih => exact .quiet ⟨quiet.frame, nofun, nofun⟩ (ih hpending)
  | repeated => exact absurd hpending nofun
  | settled => exact absurd hpending nofun

theorem Aside.isQuiet (h : Aside c x) : IsQuiet c number seq pending x := by
  cases h with
  | lost octets => exact ⟨nofun, fun _ _ h => absurd h nofun, fun _ _ h => absurd h nofun⟩
  | @unreadable raw fault hfault =>
      have hnot : ∀ control, ¬ (Passage.received raw).Shows c control := by
        rintro control ⟨raw', block, hraw, hdecode, -⟩
        rw [← Passage.received.inj hraw, hfault] at hdecode
        exact absurd hdecode (by simp)
      exact ⟨nofun, fun _ _ => hnot _, fun _ _ => hnot _⟩
  | @request raw block hdecode hcontrol =>
      have hshows : (Passage.received raw).Shows c block.control := ⟨raw, block, rfl, hdecode, rfl⟩
      refine ⟨nofun, fun _ receipt h => ?_, fun _ more h => ?_⟩
      · rcases hcontrol with hwtx | hifs
        · exact Control.noConfusion (hwtx.symm.trans (hshows.unique h))
        · exact Control.noConfusion (hifs.symm.trans (hshows.unique h))
      · rcases hcontrol with hwtx | hifs
        · exact Control.noConfusion (hwtx.symm.trans (hshows.unique h))
        · exact Control.noConfusion (hifs.symm.trans (hshows.unique h))
  | answer hanswer =>
      refine ⟨fun frame hframe => ?_, fun _ _ => not_shows_sent, fun _ _ => not_shows_sent⟩
      rw [← Option.some.inj hframe]
      exact hanswer.not_isInformation

theorem Replies.behind_asides {asides : List Passage} (hasides : ∀ y ∈ asides, Aside c y)
    (h : Replies c command number seq r pending items) :
    Replies c command number seq r pending (asides ++ items) := by
  induction asides with
  | nil => exact h
  | cons y asides ih =>
      exact .quiet (hasides y (List.mem_cons_self ..)).isQuiet
        (ih fun z hz => hasides z (List.mem_cons_of_mem y hz))

/-- A ready block is no information block. -/
theorem isQuiet_ready (receipt : Receipt) (named : Seq) (outcome : Except Link.Fault Nat) :
    IsQuiet c number seq pending (.sent (c.layout (c.ready named receipt)) outcome) := by
  refine ⟨fun frame hframe => ?_, fun _ _ => not_shows_sent, fun _ _ => not_shows_sent⟩
  rw [← Option.some.inj hframe]
  exact not_isInformation_layout fun _ _ => Control.noConfusion

/-- A block that settles the command, if it is pending still. -/
theorem Replies.behind_information {more : Bool} (shows : x.Shows c (.information seq more))
    (h : Replies c command number seq r false items) :
    Replies c command number seq r pending (x :: items) := by
  cases pending with
  | true => exact .settled shows h
  | false =>
      refine .quiet ⟨fun frame hframe => ?_, nofun, nofun⟩ h
      rw [shows.frame?_eq] at hframe
      exact absurd hframe nofun

/-- A block of any other type that does not ask for the command. -/
theorem Replies.behind_other {control : Control} (shows : x.Shows c control)
    (hinformation : ∀ more, control ≠ .information seq more)
    (hready : pending = true → ∀ receipt, control ≠ .ready number receipt)
    (h : Replies c command number seq r pending items) :
    Replies c command number seq r pending (x :: items) := by
  refine .quiet ⟨fun frame hframe => ?_, fun hpending receipt h => ?_, fun _ more h => ?_⟩ h
  · rw [shows.frame?_eq] at hframe
    exact absurd hframe nofun
  · exact hready hpending receipt (shows.unique h)
  · exact hinformation more (shows.unique h)

/-! ## One round -/

namespace Session

variable {L : Type}

/-- The last command block is still out, and everything that belongs to it is as it was. -/
structure Pends (s s' : Session L) : Prop where
  pending : s.commandPending = true
  codec : s'.codec = s.codec
  command : s'.command = s.command
  sendSeq : s'.sendSeq = s.sendSeq
  recvSeq : s'.recvSeq = s.recvSeq

theorem Talks.pends {s s' : Session (Traced L)} {items : List Passage} (h : Talks s items s')
    (hpending : s'.commandPending = true) : Pends s s' where
  pending := h.commandPending.symm.trans hpending
  codec := h.codec
  command := h.command
  sendSeq := h.sendSeq
  recvSeq := h.recvSeq

theorem Pends.trans {s s₁ s₂ : Session L} (h₁ : Pends s s₁) (h₂ : Pends s₁ s₂) : Pends s s₂ where
  pending := h₁.pending
  codec := h₂.codec.trans h₁.codec
  command := h₂.command.trans h₁.command
  sendSeq := h₂.sendSeq.trans h₁.sendSeq
  recvSeq := h₂.recvSeq.trans h₁.recvSeq

/-- The conversation of a read of this session. -/
def Reads (s : Session L) (r : Except (Stop Setback) Unit) (pending : Bool)
    (items : List Passage) : Prop :=
  Replies s.codec s.command.used s.sendSeq.next s.recvSeq r pending items

/-- The same conversation, as it was before the session had got this far. -/
theorem Reads.before {s s₁ : Session L} {r : Except (Stop Setback) Unit} {items : List Passage}
    (hcodec : s₁.codec = s.codec) (hpends : s₁.commandPending = true → Pends s s₁)
    (h : s₁.Reads r s₁.commandPending items) : s.Reads r s₁.commandPending items := by
  unfold Reads at h ⊢
  rw [hcodec] at h
  cases hpending : s₁.commandPending with
  | true =>
      have hsame := hpends hpending
      rw [hpending, hsame.command, hsame.sendSeq, hsame.recvSeq] at h
      exact h
  | false => exact h.of_settled hpending

/-- What passes in a round that ends in `r`: another round goes on from there, or the conversation
is over. -/
def Turns (s : Session L) (r : Except (Stop Setback) (Unit ⊕ Unit)) (s' : Session L)
    (items : List Passage) : Prop :=
  match r with
  | .ok (.inl ()) => ∀ r rest, s.Reads r s'.commandPending rest →
      s.Reads r s.commandPending (items ++ rest)
  | .ok (.inr ()) => ∀ r, s.Reads r s.commandPending items
  | .error stop => s.Reads (.error stop) s.commandPending items

/-- What a round is about has shown itself: as a block that came, or in nothing at all if it was a
setback. -/
def Shown (c : Codec) (heard : Except Setback Control) (front : List Passage) : Prop :=
  match heard with
  | .ok control => ∃ x : Passage, front = [x] ∧ x.Shows c control
  | .error _ => front = []

end Session

namespace Step

open SecureElement.Action Session

variable {L : Type} {s : Session (Traced L)} [Link L]

/-- Accepting a block hands over nothing but its acknowledgement, and then the command is
settled. -/
theorem accept_settles (inbound : Inbound) (more : Bool) :
    Ensures (accept inbound more) s fun r s' =>
      (Talks s [] s' ∧ ∃ stop, r = .error stop)
      ∨ ∃ items, Proceeds s items s' ∧ s'.commandPending = false
          ∧ (∀ complete, r = .ok complete → s'.WithinBudget)
          ∧ ∀ y ∈ items, ∃ outcome,
            y = .sent (s.codec.layout (s.codec.ready s.recvSeq.next .clean)) outcome := by
  unfold accept
  rw [ensures_get_bind]
  cases inbound.payload? s.frame.used with
  | none => exact .inl ⟨Talks.refl s, _, rfl⟩
  | some payload =>
      dsimp only
      cases s.response.append payload with
      | error overflow => exact .inl ⟨Talks.refl s, _, rfl⟩
      | ok response =>
          dsimp only
          rw [ensures_set_bind]
          have haccepted : Proceeds s [] { s with
              response, recvSeq := s.recvSeq.next, commandPending := false, retries := 0 } :=
            { (Talks.refl s).toProceeds with passes := hears_same rfl }
          cases more with
          | false =>
              exact .inr ⟨[], haccepted, rfl, fun _ _ => Nat.zero_le _, List.forall_mem_nil _⟩
          | true =>
              refine Ensures.bind (orCharge_spec (Nat.zero_le _)
                (sendControl_spec (Nat.zero_le 2) fun _ _ h => Control.noConfusion h)) ?_ ?_
              · intro u s' hend
                obtain ⟨⟨outcome, htalks, -⟩, horderly⟩ := hend
                exact .inr ⟨_, haccepted.trans htalks.toProceeds, htalks.commandPending,
                  fun _ _ => horderly, List.forall_mem_singleton.mpr ⟨outcome, rfl⟩⟩
              · intro stop s' hend
                obtain ⟨⟨outcome, htalks, -⟩, -⟩ := hend
                exact .inr ⟨_, haccepted.trans htalks.toProceeds, htalks.commandPending,
                  fun _ h => absurd h nofun, List.forall_mem_singleton.mpr ⟨outcome, rfl⟩⟩

/-- What is not the block awaited is charged. If there was a try left, one frame is handed over. -/
theorem dealWith_replies {received : Except Setback Inbound} (hbudget : s.WithinBudget)
    (hfailure : ∀ setback, received = .error setback → setback.failure ≠ .recoveryExhausted)
    (hnot : ∀ inbound, received = .ok inbound →
      ∀ more, inbound.control ≠ .information s.recvSeq more) :
    Ensures (dealWith received) s fun r s' =>
      (∃ outcome, Talks s [.sent (s.reply (received.map Inbound.control)) outcome] s'
        ∧ r ≠ .ok (.inr ()) ∧ (r = .ok (.inl ()) → s'.WithinBudget))
      ∨ Talks s [] s' ∧ (r = .error (.because
            (.major (s.objection (received.map Inbound.control)).failure))
          ∨ r = .error .crashed) := by
  have hobjection : (s.objection (received.map Inbound.control)).failure
      ≠ .recoveryExhausted := by
    refine objection_ne fun setback h => ?_
    cases received with
    | error setback' =>
        obtain rfl := Except.error.inj h
        exact hfailure _ rfl
    | ok inbound => exact absurd h nofun
  refine (ensures_congr (dealWith_eq hnot)).mpr ?_
  refine Ensures.bind ((charge_spec hobjection hbudget).and (charge_kept _ s)) ?_ ?_
  · intro u s₁ hend
    obtain ⟨⟨⟨hcharged, -⟩, hwithin⟩, -⟩ := hend
    refine Ensures.bind (orCharge_spec hwithin (transmit_spec _)) ?_ ?_
    · intro u s₂ hend
      obtain ⟨⟨outcome, htalks, -⟩, horderly⟩ := hend
      exact .inl ⟨outcome, hcharged.trans htalks, nofun, fun _ => horderly⟩
    · intro stop s₂ hend
      obtain ⟨⟨outcome, htalks, -⟩, -⟩ := hend
      exact .inl ⟨outcome, hcharged.trans htalks, nofun, fun h => absurd h nofun⟩
  · intro stop s₁ hend
    obtain ⟨⟨⟨hcharged, -⟩, -⟩, -, hstop⟩ := hend
    exact .inr ⟨hcharged, hstop.imp (congrArg _) (congrArg _)⟩

omit [Link L] in
/-- A reply is a ready block, unless the command was asked for. -/
theorem reply_quiet {heard : Except Setback Control} {outcome : Except Link.Fault Nat}
    {number seq : Seq} {pending : Bool}
    (h : ∀ control, heard = .ok control → s.asksAgain control = false) :
    IsQuiet s.codec number seq pending (.sent (s.reply heard) outcome) := by
  cases heard with
  | error setback => exact isQuiet_ready _ _ _
  | ok control =>
      have hnot := h control rfl
      simp only [reply, hnot, Bool.false_eq_true, if_false]
      exact isQuiet_ready _ _ _

omit [Link L] in
/-- Whatever becomes of the block awaited, behind it the command is settled or the read is over. -/
theorem turns_awaited {control : Control} {more : Bool} {r : Except (Stop Setback) (Unit ⊕ Unit)}
    {s' : Session (Traced L)} {items front : List Passage}
    (hcontrol : control = .information s.recvSeq more) (hsettled : s'.commandPending = false)
    (hitems : ∀ y ∈ items, ∃ outcome,
      y = .sent (s.codec.layout (s.codec.ready s.recvSeq.next .clean)) outcome)
    (hshown : Shown s.codec (.ok control) front) : s.Turns r s' (front ++ items) := by
  obtain ⟨x, rfl, hshows⟩ := hshown
  rw [hcontrol] at hshows
  have hrest : ∀ r rest, s.Reads r false rest → s.Reads r false (items ++ rest) := by
    intro r rest h
    induction items with
    | nil => exact h
    | cons y items ih =>
        obtain ⟨outcome, rfl⟩ := hitems y (List.mem_cons_self ..)
        exact .quiet (isQuiet_ready _ _ _) (ih fun z hz => hitems z (List.mem_cons_of_mem _ hz))
  have hall : ∀ r rest, s.Reads r false rest →
      s.Reads r s.commandPending ([x] ++ items ++ rest) := by
    intro r rest h
    rw [List.append_assoc]
    exact .behind_information hshows (hrest r rest h)
  have hlast : ∀ r, s.Reads r s.commandPending ([x] ++ items) := by
    intro r
    have h := hall r [] .ended
    rwa [List.append_nil] at h
  match r with
  | .ok (.inl ()) =>
      intro r rest h
      rw [hsettled] at h
      exact hall r rest h
  | .ok (.inr ()) => exact hlast
  | .error stop => exact hlast _

omit [Link L] in
/-- Behind anything else there is one reply, and the conversation goes on. -/
theorem turns_replied {heard : Except Setback Control} {outcome : Except Link.Fault Nat}
    {r : Except (Stop Setback) (Unit ⊕ Unit)} {s' : Session (Traced L)} {front : List Passage}
    (hnot : ∀ control, heard = .ok control → ∀ more, control ≠ .information s.recvSeq more)
    (hpending : s'.commandPending = s.commandPending) (hinr : r ≠ .ok (.inr ()))
    (hshown : Shown s.codec heard front) :
    s.Turns r s' (front ++ [.sent (s.reply heard) outcome]) := by
  have hgoes : ∀ r rest, s.Reads r s.commandPending rest →
      s.Reads r s.commandPending (front ++ [.sent (s.reply heard) outcome] ++ rest) := by
    intro r rest h
    cases heard with
    | error setback =>
        have hfront : front = [] := hshown
        rw [hfront]
        refine .quiet (reply_quiet fun control hcontrol => ?_) h
        cases hcontrol
    | ok control =>
        obtain ⟨x, rfl, hshows⟩ := hshown
        cases hasks : s.asksAgain control with
        | true =>
            obtain ⟨hout, receipt, hcontrol⟩ := asksAgain_iff.mp hasks
            have hreply : s.reply (.ok control) = s.command.used := by
              simp only [reply, hasks, if_true]
            rw [hcontrol] at hshows
            rw [hout] at h ⊢
            show Replies _ _ _ _ _ _ (x :: .sent (s.reply (.ok control)) outcome :: rest)
            rw [hreply]
            exact .repeated hshows outcome h
        | false =>
            refine .behind_other hshows (hnot control rfl) ?_ (.quiet (reply_quiet ?_) h)
            · intro hout receipt hcontrol
              rw [asksAgain_iff.mpr ⟨hout, receipt, hcontrol⟩] at hasks
              cases hasks
            · intro control' hcontrol
              obtain rfl := Except.ok.inj hcontrol
              exact hasks
  rcases r with stop | ⟨⟨⟩ | ⟨⟩⟩
  · have h := hgoes (.error stop) [] .ended
    rwa [List.append_nil] at h
  · intro r rest h
    rw [hpending] at h
    exact hgoes r rest h
  · exact absurd rfl hinr

omit [Link L] in
/-- If no try is left nothing is handed over, and what was heard is the last of it. -/
theorem turns_given_up {heard : Except Setback Control}
    {r : Except (Stop Setback) (Unit ⊕ Unit)} {s' : Session (Traced L)} {front : List Passage}
    (hstop : r = .error (.because (.major (s.objection heard).failure)) ∨ r = .error .crashed)
    (hshown : Shown s.codec heard front) : s.Turns r s' front := by
  have hover : ∀ stop, r = .error stop → s.Reads (.error stop) s.commandPending front := by
    rintro stop rfl
    cases heard with
    | error setback =>
        have hfront : front = [] := hshown
        rw [hfront]
        exact .ended
    | ok control =>
        obtain ⟨x, rfl, hshows⟩ := hshown
        refine .givenUp hshows.frame?_eq fun hpending receipt h => ?_
        have hasks : s.asksAgain control = true :=
          asksAgain_iff.mpr ⟨hpending, receipt, hshows.unique h⟩
        rcases hstop with hstop | hstop
        · refine .inl ?_
          obtain rfl := Except.error.inj hstop
          simp only [objection, hasks, if_true]
          rfl
        · exact .inr (congrArg _ (Except.error.inj hstop))
  rcases hstop with rfl | rfl
  · exact hover _ rfl
  · exact hover _ rfl

/-- **A round keeps to the conversation**, whatever it deals with. -/
theorem dealWith_turns {received : Except Setback Inbound} (hbudget : s.WithinBudget)
    (hfailure : ∀ setback, received = .error setback → setback.failure ≠ .recoveryExhausted) :
    Ensures (dealWith received) s fun r s' =>
      ∃ items, Proceeds s items s' ∧ (s'.commandPending = true → Pends s s')
        ∧ (r = .ok (.inl ()) → s'.WithinBudget)
        ∧ ∀ front, Shown s.codec (received.map Inbound.control) front →
          s.Turns r s' (front ++ items) := by
  by_cases hawaited : ∃ inbound more, received = .ok inbound
      ∧ inbound.control = .information s.recvSeq more
  · obtain ⟨inbound, more, rfl, hcontrol⟩ := hawaited
    refine (ensures_congr (dealWith_awaited hcontrol)).mpr ?_
    refine Ensures.bind (accept_settles inbound more) ?_ ?_
    · intro complete s₁ hend
      rcases hend with ⟨-, stop, hstop⟩ | ⟨items, hproceeds, hsettled, hwithin, hitems⟩
      · exact absurd hstop nofun
      · have hno : s₁.commandPending = true → Pends s s₁ := fun h =>
          absurd (hsettled.symm.trans h) Bool.false_ne_true
        cases complete with
        | true =>
            refine ⟨items, hproceeds, hno, nofun, fun front hshown => ?_⟩
            exact turns_awaited hcontrol hsettled hitems hshown
        | false =>
            refine ⟨items, hproceeds, hno, fun _ => hwithin _ rfl, fun front hshown => ?_⟩
            exact turns_awaited hcontrol hsettled hitems hshown
    · intro stop s₁ hend
      rcases hend with ⟨htalks, -⟩ | ⟨items, hproceeds, hsettled, -, hitems⟩
      · refine ⟨[], htalks.toProceeds, htalks.pends, nofun, ?_⟩
        rintro front ⟨x, rfl, hshows⟩
        refine .givenUp hshows.frame?_eq fun _ receipt h => ?_
        exact Control.noConfusion (hcontrol.symm.trans (hshows.unique h))
      · have hno : s₁.commandPending = true → Pends s s₁ := fun h =>
          absurd (hsettled.symm.trans h) Bool.false_ne_true
        refine ⟨items, hproceeds, hno, nofun, fun front hshown => ?_⟩
        exact turns_awaited hcontrol hsettled hitems hshown
  · have hnot : ∀ inbound, received = .ok inbound →
        ∀ more, inbound.control ≠ .information s.recvSeq more := fun inbound h more hcontrol =>
      hawaited ⟨inbound, more, h, hcontrol⟩
    have hother : ∀ control, received.map Inbound.control = .ok control →
        ∀ more, control ≠ .information s.recvSeq more := by
      intro control hmap
      cases received with
      | error setback => exact absurd hmap nofun
      | ok inbound =>
          obtain rfl := Except.ok.inj hmap
          exact hnot inbound rfl
    refine (dealWith_replies hbudget hfailure hnot).mono ?_
    intro r s' hend
    rcases hend with ⟨outcome, htalks, hinr, hwithin⟩ | ⟨htalks, hstop⟩
    · refine ⟨_, htalks.toProceeds, htalks.pends, hwithin, fun front hshown => ?_⟩
      exact turns_replied hother htalks.commandPending hinr hshown
    · refine ⟨[], htalks.toProceeds, htalks.pends, ?_, fun front hshown => ?_⟩
      · rcases hstop with rfl | rfl <;> nofun
      · rw [List.append_nil]
        exact turns_given_up hstop hshown

/-! ## All rounds -/

omit [Link L] in
theorem Turns.behind_asides {r : Except (Stop Setback) (Unit ⊕ Unit)} {s' : Session (Traced L)}
    {asides items : List Passage} (hasides : ∀ y ∈ asides, Aside s.codec y)
    (h : s.Turns r s' items) : s.Turns r s' (asides ++ items) := by
  match r with
  | .ok (.inl ()) =>
      intro r rest hrest
      rw [List.append_assoc]
      exact Replies.behind_asides hasides (h r rest hrest)
  | .ok (.inr ()) => exact fun r => Replies.behind_asides hasides (h r)
  | .error stop => exact Replies.behind_asides hasides h

omit [Link L] in
/-- Blocks that came and went do not change what a conversation is about. -/
theorem Turns.of_talks {r : Except (Stop Setback) (Unit ⊕ Unit)} {s₁ s' : Session (Traced L)}
    {items front : List Passage} (htalks : Talks s front s₁) (h : s₁.Turns r s' items) :
    s.Turns r s' items := by
  unfold Turns Reads at h ⊢
  rw [htalks.codec, htalks.command, htalks.sendSeq, htalks.recvSeq, htalks.commandPending] at h
  exact h

/-- One round when nothing was parked. -/
theorem receiveRound_turns (hcapacity : Block.longPrologue ≤ s.frame.capacity)
    (hparked : s.parked = none) (hbudget : s.WithinBudget) :
    Ensures (receiveRound ()) s fun r s' =>
      ∃ items, Proceeds s items s' ∧ (s'.commandPending = true → Pends s s')
        ∧ (r = .ok (.inl ()) → s'.WithinBudget) ∧ s.Turns r s' items := by
  unfold receiveRound
  refine (nextBlock_spec hcapacity).bind ?_ ?_
  · intro received s₁ hend
    obtain ⟨hretries, hnext⟩ := hend
    rw [hparked] at hnext
    -- behind the asides stands the block that came, or nothing if the wait ended without one
    obtain ⟨asides, front, htalks, hasides, hshown, hfailure⟩ : ∃ asides front,
        Talks s (asides ++ front) s₁ ∧ (∀ y ∈ asides, Aside s.codec y) ∧
        Shown s₁.codec (received.map Inbound.control) front ∧
        ∀ setback, received = .error setback → setback.failure ≠ .recoveryExhausted := by
      cases received with
      | ok inbound =>
          obtain ⟨asides, raw, block, htalks, hasides, harrived⟩ := hnext
          refine ⟨asides, [.received raw], htalks, hasides, ⟨_, rfl, raw, block, rfl, ?_, ?_⟩,
            nofun⟩
          · rw [htalks.codec]
            exact harrived.decode
          · exact harrived.control.symm
      | error setback =>
          obtain ⟨hfailure, asides, htalks, hasides⟩ := hnext
          refine ⟨asides, [], ?_, hasides, rfl, fun setback' h => ?_⟩
          · rw [List.append_nil]
            exact htalks
          · obtain rfl := Except.error.inj h
            exact hfailure
    refine (dealWith_turns (hbudget.kept hretries htalks) hfailure).mono ?_
    intro r s' hend
    obtain ⟨items, hproceeds, hpends, hwithin, hturns⟩ := hend
    refine ⟨_, htalks.toProceeds.trans hproceeds, fun h => ?_, hwithin, ?_⟩
    · exact (htalks.pends (hpends h).pending).trans (hpends h)
    · rw [List.append_assoc]
      exact Turns.behind_asides hasides (Turns.of_talks htalks (hturns front hshown))
  · intro stop s₁ hend
    obtain ⟨-, hnext⟩ := hend
    rw [hparked] at hnext
    obtain ⟨rfl, asides, htalks, hasides⟩ := hnext
    refine ⟨asides, htalks.toProceeds, htalks.pends, nofun, ?_⟩
    have h : s.Reads (.error .stalled) s.commandPending (asides ++ []) :=
      .behind_asides hasides .ended
    rwa [List.append_nil] at h

/-- **The rounds of a read keep to the conversation, however many there are.** -/
theorem receiveRounds_replies :
    ∀ (n : Nat) (s : Session (Traced L)), Block.longPrologue ≤ s.frame.capacity →
      s.parked = none → s.WithinBudget → Ensures (loop receiveRound n ()) s fun r s' =>
        ∃ items, Proceeds s items s' ∧ (s'.commandPending = true → Pends s s')
          ∧ s.Reads r s.commandPending items
  | 0, s, _, _, _ =>
      ⟨[], (Talks.refl s).toProceeds, (Talks.refl s).pends, .ended⟩
  | n + 1, s, hcapacity, hparked, hbudget => by
      refine (receiveRound_turns hcapacity hparked hbudget).bind ?_ ?_
      · intro r s₁ hend
        obtain ⟨items, hproceeds, hpends, hwithin, hturns⟩ := hend
        match r with
        | .inl () =>
            refine (receiveRounds_replies n s₁ (hproceeds.holds hcapacity)
              (hproceeds.parked.trans hparked) (hwithin rfl)).mono ?_
            intro r s' hend
            obtain ⟨rest, hproceeds', hpends', hreads⟩ := hend
            refine ⟨_, hproceeds.trans hproceeds', fun h => ?_, ?_⟩
            · exact (hpends (hpends' h).pending).trans (hpends' h)
            · exact hturns r rest (hreads.before hproceeds.codec hpends)
        | .inr () => exact ⟨items, hproceeds, hpends, hturns _⟩
      · intro stop s₁ hend
        obtain ⟨items, hproceeds, hpends, -, hturns⟩ := hend
        exact ⟨items, hproceeds, hpends, hturns⟩

/-- A read when nothing was parked. -/
theorem receiveResponse_replies (hcapacity : Block.longPrologue ≤ s.frame.capacity)
    (hparked : s.parked = none) (hbudget : s.WithinBudget) :
    Ensures receiveResponse s fun r s' =>
      ∃ items, Within s items s' ∧ (s'.commandPending = true → Pends s s')
        ∧ s.Reads r s.commandPending items := by
  unfold receiveResponse
  rw [ensures_modify_bind, ensures_get_bind]
  refine (receiveRounds_replies _ { s with response := s.response.clear } hcapacity hparked
    hbudget).mono ?_
  intro r s' hend
  obtain ⟨items, hproceeds, hpends, hreads⟩ := hend
  exact ⟨items, { hproceeds.toWithin with }, fun h => { hpends h with }, hreads⟩

/-- A read deals with what was parked first, as if it had just come. -/
theorem receiveResponse_parked_replies {received : Except Setback Inbound}
    (hparked : s.parked = some received) (hcapacity : Block.longPrologue ≤ s.frame.capacity)
    (hbudget : s.WithinBudget)
    (hfailure : ∀ setback, received = .error setback → setback.failure ≠ .recoveryExhausted) :
    Ensures receiveResponse s fun r s' =>
      ∃ items, Within s items s' ∧ (s'.commandPending = true → Pends s s')
        ∧ ∀ front, Shown s.codec (received.map Inbound.control) front →
          s.Reads r s.commandPending (front ++ items) := by
  unfold receiveResponse
  rw [ensures_modify_bind, ensures_get_bind]
  dsimp only
  obtain ⟨rounds, hrounds⟩ : ∃ rounds,
      (backlog s.link + 2) * (s.settings.blockRetransmits + 1) = rounds + 1 :=
    Nat.exists_eq_succ_of_ne_zero (Nat.mul_ne_zero (Nat.succ_ne_zero _) (Nat.succ_ne_zero _))
  rw [hrounds]
  generalize hcleared : ({ s with response := s.response.clear } : Session (Traced L)) = cleared
  have hround : Ensures (receiveRound ()) cleared fun r s' =>
      ∃ items, Proceeds { cleared with parked := none } items s'
        ∧ (s'.commandPending = true → Pends { cleared with parked := none } s')
        ∧ (r = .ok (.inl ()) → s'.WithinBudget)
        ∧ ∀ front, Shown cleared.codec (received.map Inbound.control) front →
          Turns { cleared with parked := none } r s' (front ++ items) := by
    unfold receiveRound
    refine (nextBlock_spec (by rw [← hcleared]; exact hcapacity)).bind ?_ ?_
    · intro received' s₁ hend
      obtain ⟨-, hnext⟩ := hend
      rw [← hcleared] at hnext
      dsimp only at hnext
      rw [hparked] at hnext
      obtain ⟨rfl, rfl⟩ := hnext
      subst hcleared
      exact dealWith_turns hbudget hfailure
    · intro stop s₁ hend
      obtain ⟨-, hnext⟩ := hend
      rw [← hcleared] at hnext
      dsimp only at hnext
      rw [hparked] at hnext
      exact hnext.elim
  subst hcleared
  refine Ensures.bind hround ?_ ?_
  · intro r s₁ hend
    obtain ⟨items, hproceeds, hpends, hwithin, hturns⟩ := hend
    have hbefore : Within s items s₁ := { hproceeds.toWithin with }
    match r with
    | .inl () =>
        refine (receiveRounds_replies rounds s₁ (hbefore.holds hcapacity) hproceeds.parked
          (hwithin rfl)).mono ?_
        intro r s' hend
        obtain ⟨rest, hproceeds', hpends', hreads⟩ := hend
        refine ⟨_, hbefore.trans hproceeds'.toWithin, fun h => ?_, fun front hshown => ?_⟩
        · have hall := (hpends (hpends' h).pending).trans (hpends' h)
          exact { hall with }
        · rw [← List.append_assoc]
          exact hturns front hshown r rest (hreads.before hproceeds.codec hpends)
    | .inr () =>
        exact ⟨items, hbefore, fun h => { hpends h with }, fun front hshown =>
          hturns front hshown _⟩
  · intro stop s₁ hend
    obtain ⟨items, hproceeds, hpends, -, hturns⟩ := hend
    exact ⟨items, { hproceeds.toWithin with }, fun h => { hpends h with }, hturns⟩

end Step

end SecureElement
