import SecureElement.Proofs.Replay

/-!
# What a session does to its link

A session gets at its link by the calls of the link and by nothing else. So whatever is true
of a link and survives each of these calls (`Link.Steady`) survives every call of the
session, whatever it ends in (`perform_upholds`). This needs no knowledge of what the
session sends, and of what state it is in.

The first use of it is the record itself. `Recorded` says that every call in a row of
calls had the outcome that the link gives where it stands, and `perform_recorded` that
what a call of a session adds to the record is of this kind. From the record of a call alone
it can be told then in which state the link met each frame.
-/

namespace SecureElement

open Link

namespace Link

variable {L : Type} [Link L] {J : L → Prop}

/-- What is true of a link and stays true in every call on it. -/
structure Steady (J : L → Prop) : Prop where
  bringUp {link : L} : J link → J (bringUp link).2
  write (bytes : Bytes) (timeout : Nanos) {link : L} : J link → J (write bytes timeout link).2
  read (n : Nat) (timeout : Nanos) {link : L} : J link → J (read n timeout link).2
  release {link : L} : J link → J (release link)

theorem Steady.writeAll (h : Steady J) (bytes : Bytes) (timeout : Nanos) {link : L}
    (hlink : J link) : J (writeAll bytes timeout link).2 := by
  rw [writeAll_snd]
  exact h.write bytes timeout hlink

theorem Steady.readUpTo (h : Steady J) (timeout : Nanos) :
    ∀ (calls n : Nat) {link : L}, J link → J (readUpTo timeout calls n link).2
  | calls, 0, _, hlink => by cases calls <;> exact hlink
  | 0, _ + 1, _, hlink => hlink
  | calls + 1, n + 1, link, hlink => by
      have hread := h.read (n + 1) timeout hlink
      unfold Link.readUpTo
      generalize Link.read (n + 1) timeout link = result at hread
      obtain ⟨outcome, link'⟩ := result
      cases outcome with
      | error fault => exact hread
      | ok octets =>
          cases octets with
          | nil => exact hread
          | cons octet more => exact h.readUpTo timeout calls _ hread

end Link

namespace Action

open Session

variable {ε L α β : Type} {J : L → Prop}

/-- An action that leaves something true of the link, if it was true before. -/
abbrev Upholds (J : L → Prop) (x : Action ε L α) : Prop :=
  x.Maintains (fun s => J s.link) fun _ _ => True

theorem upholds_modify {g : Session L → Session L} (hlink : ∀ s, (g s).link = s.link) :
    Upholds J (modify g : Action ε L PUnit) :=
  maintains_modify fun s h => by rw [hlink]; exact h

theorem upholds_modify_bind {g : Session L → Session L} {f : PUnit → Action ε L α}
    (hlink : ∀ s, (g s).link = s.link) (hf : ∀ u, Upholds J (f u)) : Upholds J (modify g >>= f) :=
  (upholds_modify hlink).bind hf

theorem upholds_onLink {g : L → α × L} (h : ∀ link, J link → J (g link).2) :
    Upholds J (onLink g : Action ε L α) :=
  maintains_onLink fun s hs => h s.link hs

end Action

namespace Step

open SecureElement.Action Session

variable {L α β : Type} {J : L → Prop}

/-- A step that is attempted leaves behind what it would have left behind. -/
theorem kept_attempt_bind {step : Step L β} {f : Except Setback β → Step L α} {s : Session L}
    (h : Ensures step s (Kept (fun s => J s.link) fun _ _ => True))
    (hf : ∀ outcome, Upholds J (f outcome)) :
    Ensures (attempt step >>= f) s (Kept (fun s => J s.link) fun _ _ => True) := by
  refine ensures_attempt_bind h ?_ ?_ ?_ ?_
  · exact fun b s₁ h₁ => hf (.ok b) s₁ h₁.1
  · exact fun setback s₁ h₁ => hf (.error setback) s₁ h₁.1
  · exact fun _ h => kept_crashed h.1
  · exact fun _ h => kept_stalled h.1

theorem upholds_attempt_bind {step : Step L β} {f : Except Setback β → Step L α}
    (h : Upholds J step) (hf : ∀ outcome, Upholds J (f outcome)) :
    Upholds J (attempt step >>= f) := fun s hs => kept_attempt_bind (h s hs) hf

/-- Of a loop the first round counts, if the others uphold what it leaves behind. -/
theorem kept_loop {σ : Type} {round : σ → Step L (σ ⊕ α)} {state : σ} {s : Session L}
    (h : Ensures (round state) s (Kept (fun s => J s.link) fun _ _ => True))
    (hround : ∀ state, Upholds J (round state)) (n : Nat) :
    Ensures (loop round (n + 1) state) s (Kept (fun s => J s.link) fun _ _ => True) := by
  refine kept_bind h fun r => ?_
  cases r with
  | inl state' => exact maintains_loop hround n state'
  | inr a => exact maintains_pure a

variable [Link L] {J : Traced L → Prop} (h : Steady J)

include h

/-! ## Single blocks -/

theorem transmit_upholds (frame : Bytes) : Upholds J (transmit frame : Step (Traced L) Unit) := by
  refine upholds_modify_bind (fun _ => rfl) fun _ => maintains_get.bind fun s => ?_
  refine (upholds_onLink fun link hlink => h.writeAll frame _ hlink).bind fun outcome => ?_
  cases outcome with
  | ok u => exact maintains_pure _
  | error fault => exact maintains_fail _

theorem sendControl_upholds (block : Block) :
    Upholds J (sendControl block : Step (Traced L) Unit) :=
  maintains_sendControl (transmit_upholds h) (fun _ _ => trivial) block

theorem readFrame_upholds (n : Nat) (timeout : Nanos) :
    Upholds J (readFrame n timeout : Step (Traced L) Unit) := by
  refine maintains_get.bind fun s => ?_
  split
  · exact maintains_fail _
  · refine (upholds_onLink fun link hlink => h.readUpTo timeout n n hlink).bind fun result => ?_
    refine upholds_modify_bind (fun _ => rfl) fun _ => ?_
    split
    · exact maintains_pure _
    · exact maintains_fail _

theorem discard_upholds (timeout : Nanos) :
    ∀ rounds remaining, Upholds J (discard timeout rounds remaining : Step (Traced L) Unit)
  | 0, _ => maintains_pure _
  | rounds + 1, remaining => by
      unfold discard
      refine maintains_get.bind fun s => ?_
      dsimp only
      split
      · exact maintains_pure _
      · refine upholds_attempt_bind (readFrame_upholds h _ timeout) fun outcome => ?_
        cases outcome with
        | error setback => exact upholds_modify fun _ => rfl
        | ok u => exact upholds_modify_bind (fun _ => rfl) fun _ => discard_upholds timeout rounds _

theorem receiveBlock_upholds (timeout : Nanos) :
    Upholds J (receiveBlock timeout : Step (Traced L) Inbound) := by
  have hprologue : Upholds J (readPrologue timeout : Step (Traced L) Unit) :=
    upholds_modify_bind (fun _ => rfl) fun _ => (readFrame_upholds h _ timeout).bind fun _ =>
      maintains_get.bind fun _ => readFrame_upholds h _ timeout
  have hblock : ∀ start, Upholds J (readBlock start : Step (Traced L) Inbound) := by
    intro start
    refine upholds_modify_bind (fun _ => rfl) fun _ => maintains_get.bind fun s => ?_
    split
    · exact maintains_pure _
    · split
      · exact upholds_modify_bind (fun _ => rfl) fun _ => maintains_fail _
      · exact maintains_fail _
  refine hprologue.bind fun _ => maintains_get.bind fun s => ?_
  split
  · exact maintains_fail _
  · split
    · exact upholds_modify_bind (fun _ => rfl) fun _ =>
        (discard_upholds h timeout _ _).bind fun _ => maintains_fail _
    · exact (readFrame_upholds h _ timeout).bind fun _ => hblock _

theorem awaitRound_upholds (timeout : Nanos) :
    Upholds J (awaitRound timeout : Step (Traced L) (Nanos ⊕ Inbound)) := by
  have hwait : Upholds J (waitTime timeout : Step (Traced L) Nanos) := by
    refine maintains_get.bind fun s => ?_
    split
    · exact maintains_pure _
    · dsimp only
      split
      · exact maintains_fail _
      · exact maintains_pure _
  have hextend : ∀ multiplier, Upholds J (extendWait multiplier : Step (Traced L) Nanos) := by
    intro multiplier s hs
    refine (extendWait_link multiplier).mono fun r s' hlink => kept_any ?_
    rw [hlink]
    exact hs
  refine hwait.bind fun wait => (receiveBlock_upholds h wait).bind fun inbound => ?_
  refine maintains_get.bind fun s => ?_
  split
  · exact (hextend _).bind fun _ => (sendControl_upholds h _).bind fun _ => maintains_pure _
  · split
    · exact maintains_pure _
    · exact (sendControl_upholds h _).bind fun _ => maintains_pure _
  · exact maintains_pure _

/-! ## Exchanges -/

theorem regime_upholds : Regime fun s : Session (Traced L) => J s.link where
  offline := fun hs hoffline => by rw [hoffline.link]; exact hs
  sendCommand := maintains_sendCommand (transmit_upholds h)
  sendControl := fun _ => sendControl_upholds h _
  awaitRound := awaitRound_upholds h
  raised := h.bringUp
  released := h.release

theorem charge_upholds (setback : Setback) : Upholds J (charge setback : Step (Traced L) Unit) :=
  fun _ hs => (regime_upholds h).conduct.charge hs trivial

/-- A round of tries makes no other calls than the attempt in it. -/
theorem askRound_behind {ask : Step (Traced L) Inbound} {answer : Control}
    {s : Session (Traced L)}
    (hask : Ensures ask s (Kept (fun s => J s.link) fun _ _ => True)) :
    Ensures (askRound ask answer ()) s (Kept (fun s => J s.link) fun _ _ => True) := by
  refine kept_attempt_bind hask fun outcome => ?_
  cases outcome with
  | error setback => exact (charge_upholds h setback).bind fun _ => maintains_pure _
  | ok inbound =>
      dsimp only
      split
      · exact maintains_pure _
      · exact (charge_upholds h _).bind fun _ => maintains_pure _

theorem sendFinalRound_behind {s : Session (Traced L)}
    (hsend : Ensures sendCommand s (Kept (fun s => J s.link) fun _ _ => True)) :
    Ensures (sendFinalRound ()) s (Kept (fun s => J s.link) fun _ _ => True) := by
  refine kept_attempt_bind hsend fun outcome => ?_
  cases outcome with
  | error setback => exact (charge_upholds h setback).bind fun _ => maintains_pure _
  | ok u => exact maintains_pure _

end Step

/-! ## Calls -/

namespace Session

open SecureElement.Action

variable {L : Type} [Link L] {J : Traced L → Prop} (h : Steady J)

include h

/-- **What survives every call on the link survives every call of the session.** -/
theorem perform_upholds (request : Request) {s : Session (Traced L)} (hs : J s.link) :
    J ((perform request).final s).link :=
  (Step.regime_upholds h).perform request hs

end Session

/-! ## The record -/

namespace Link

variable {L : Type} [Link L]

/-- A call had the outcome that the link gives. -/
def Answers (link : L) : Event → Prop
  | .bringUp outcome => outcome = (bringUp link).1
  | .write bytes timeout outcome => outcome = (write bytes timeout link).1
  | .read n timeout outcome => outcome = (read n timeout link).1.map (·.take n)
  | .release => True

/-- Calls, one after the other, had the outcomes that the link gives. -/
def Recorded (link : L) : List Event → Prop
  | [] => True
  | event :: events => Answers link event ∧ Recorded (after link event) events

theorem recorded_append {link : L} {front back : List Event} :
    Recorded link (front ++ back) ↔ Recorded link front ∧ Recorded (replay link front) back := by
  induction front generalizing link with
  | nil => exact ⟨fun h => ⟨trivial, h⟩, fun h => h.2⟩
  | cons event front ih =>
      show Answers link event ∧ Recorded (after link event) (front ++ back) ↔ _
      rw [ih, ← and_assoc]
      exact Iff.rfl

/-- A call in the record was answered where the calls before it had led. -/
theorem Recorded.answers {link : L} {front back : List Event} {event : Event}
    (h : Recorded link (front ++ event :: back)) : Answers (replay link front) event :=
  (recorded_append.mp h).2.1

/-- Since the link was as it is in `t` some calls were made, and all of them are recorded. -/
def Logged (t : Traced L) (events : List Event) (t' : Traced L) : Prop :=
  t'.events = t.events ++ events ∧ t'.link = replay t.link events ∧ Recorded t.link events

theorem Logged.refl (t : Traced L) : Logged t [] t := ⟨(List.append_nil _).symm, rfl, trivial⟩

/-- One more call is recorded with what comes of it. -/
theorem Logged.record {t t' : Traced L} {events : List Event} (h : Logged t events t')
    (event : Event) (hanswers : Answers t'.link event) :
    Logged t (events ++ [event]) (t'.record event (after t'.link event)) := by
  obtain ⟨hevents, hlink, hrecorded⟩ := h
  refine ⟨?_, ?_, recorded_append.mpr ⟨hrecorded, hlink ▸ hanswers, trivial⟩⟩
  · rw [Traced.events_record, hevents, List.append_assoc]
  · rw [replay_append, ← hlink]
    rfl

theorem steady_logged (t : Traced L) : Steady fun t' => ∃ events, Logged t events t' where
  bringUp := fun ⟨_, h⟩ => ⟨_, h.record (.bringUp _) rfl⟩
  write bytes timeout := fun ⟨_, h⟩ => ⟨_, h.record (.write bytes timeout _) rfl⟩
  read n timeout := fun ⟨_, h⟩ => ⟨_, h.record (.read n timeout _) rfl⟩
  release := fun ⟨_, h⟩ => ⟨_, h.record .release trivial⟩

end Link

/-- **What a call of a session adds to the record is what the link answered**, call by call from
where it stood, and the link is left where these calls lead. -/
theorem Session.perform_recorded {L : Type} [Link L] (request : Request)
    (s : Session (Traced L)) :
    ∃ events, Logged s.link events ((Session.perform request).final s).link :=
  perform_upholds (steady_logged s.link) request ⟨[], .refl s.link⟩

end SecureElement
