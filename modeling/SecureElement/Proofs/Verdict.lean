import SecureElement.Proofs.Conduct
import SecureElement.Proofs.Guarantees

/-!
# What a failure says about the session

A caller that is told of a failure asks whether the session has to be opened again, and
`Failure.requiresReopen` answers from the failure alone. Whether the answer is right is
decided elsewhere, in the recovery that follows a fault. The two are brought together
here:

* no step of an exchange makes up a failure that calls for a new opening, except the one
  that a link reports by saying that it is closed (`Frank`, and `conduct_frank` for all
  exchanges);
* recovery either closes the session and says so, or leaves it idle and passes the
  failure on as it is (`run_verdict`).

So the answer is right but for one case: the link said that it was closed, and then
answered the recovery all the same (`requiresReopen_iff`).
-/

namespace SecureElement

open Link

namespace Link

/-- A call that was told that the link is closed. -/
def Event.TellsClosed : Event → Prop
  | .write _ _ outcome => outcome = .error .closed
  | .read _ _ outcome => outcome = .error .closed
  | .bringUp _ | .release => False

variable {L : Type} [Link L]

/-- A frame that could not be handed over because the link is closed leaves a trace of that. -/
theorem writeAll_told (bytes : Bytes) (timeout : Nanos) (t : Traced L) :
    ∃ event, (writeAll bytes timeout t).2.events = t.events ++ [event] ∧
      ((writeAll bytes timeout t).1 = .error .closed → event.TellsClosed) := by
  refine ⟨.write bytes timeout (write bytes timeout t.link).1, ?_, fun hclosed => ?_⟩
  · rw [writeAll_traced, Traced.events_record]
  · obtain htold | ⟨n, hshort⟩ := writeAll_error hclosed
    · exact htold
    · exact absurd hshort nofun

/-- So does a read that ended for that reason. -/
theorem readUpTo_told (timeout : Nanos) : ∀ (calls n : Nat) (t : Traced L),
    ∃ events, (readUpTo timeout calls n t).2.events = t.events ++ events ∧
      ((readUpTo timeout calls n t).1.2 = some .closed → ∃ event ∈ events, event.TellsClosed)
  | calls, 0, t => by
      rw [readUpTo_none]
      exact ⟨[], (List.append_nil _).symm, nofun⟩
  | 0, n + 1, t => ⟨[], (List.append_nil _).symm, nofun⟩
  | calls + 1, n + 1, t => by
      cases h : (read (n + 1) timeout t.link).1 with
      | error fault =>
          rw [readUpTo, read_traced, h]
          refine ⟨_, Traced.events_record .., fun hclosed => ?_⟩
          obtain rfl := Option.some.inj hclosed
          exact ⟨_, List.mem_singleton.mpr rfl, rfl⟩
      | ok brought =>
          cases brought with
          | nil =>
              rw [readUpTo, read_traced, h]
              refine ⟨_, Traced.events_record .., fun hclosed => ?_⟩
              cases hclosed
          | cons octet more =>
              obtain ⟨arrived, link, -, -, hrun⟩ := readUpTo_more h calls
              rw [hrun]
              dsimp only
              obtain ⟨events, hevents, htold⟩ := readUpTo_told timeout calls
                (n + 1 - arrived.length) (t.record (.read (n + 1) timeout (.ok arrived)) link)
              rw [Traced.events_record, List.append_assoc] at hevents
              refine ⟨_, hevents, fun hclosed => ?_⟩
              obtain ⟨event, hevent, hclosed⟩ := htold hclosed
              exact ⟨event, List.mem_append_right _ hevent, hclosed⟩

end Link

namespace Failure

theorem toOpenFailed_requiresReopen (failure : Failure) :
    failure.toOpenFailed.requiresReopen = true := by
  cases failure <;> rfl

end Failure

namespace Session

variable {L : Type} {base before : List Event} {s s' : Session (Traced L)} {setback : Setback}

/-- Since the record was `base`, a call was told that the link is closed. -/
def ToldClosed (base : List Event) (s : Session (Traced L)) : Prop :=
  ∃ events, s.link.events = base ++ events ∧ ∃ event ∈ events, event.TellsClosed

/-- What is parked says nothing about the session. -/
def ParkedMild (s : Session (Traced L)) : Prop :=
  ∀ setback, s.parked = some (.error setback) → setback.IsMild

theorem parkedMild_of_none (h : s.parked = none) : s.ParkedMild := by
  intro setback hsome
  rw [h] at hsome
  exact absurd hsome nofun

theorem ToldClosed.extend (h : ToldClosed base s) (hmore : s.link.events <+: s'.link.events) :
    ToldClosed base s' := by
  obtain ⟨events, hevents, event, hevent, hclosed⟩ := h
  obtain ⟨more, hmore⟩ := hmore
  exact ⟨events ++ more, by rw [← hmore, hevents, List.append_assoc], event,
    List.mem_append_left _ hevent, hclosed⟩

/-- What was told since a later point was told since an earlier one. -/
theorem ToldClosed.since (h : ToldClosed base s) (hbefore : before <+: base) :
    ToldClosed before s := by
  obtain ⟨events, hevents, event, hevent, hclosed⟩ := h
  obtain ⟨more, rfl⟩ := hbefore
  exact ⟨more ++ events, by rw [hevents, List.append_assoc], event,
    List.mem_append_right _ hevent, hclosed⟩

/-- The record has only grown since it was `base`, and what is parked is mild. -/
structure Onward (base : List Event) (s : Session (Traced L)) : Prop where
  record : base <+: s.link.events
  parked : s.ParkedMild

/-- A fault that says nothing about the session, or passes on what the link has said. -/
def Frank (base : List Event) (setback : Setback) (s : Session (Traced L)) : Prop :=
  setback.IsMild ∨ setback = .major .closed ∧ ToldClosed base s

theorem Frank.minor {failure : Failure} (h : Frank base (.minor failure) s) :
    failure.requiresReopen = false := by
  rcases h with hmild | ⟨hmajor, -⟩
  · exact hmild
  · exact absurd hmajor nofun

/-- A fault of the link is reported as it is. -/
theorem frank_ofLink {fault : Link.Fault} (h : fault = .closed → ToldClosed base s) :
    Frank base (Setback.ofLink fault) s := by
  cases fault with
  | closed => exact Or.inr ⟨rfl, h rfl⟩
  | timeout | notAcknowledged | shortWrite | bus => exact Or.inl rfl

end Session

namespace Step

open SecureElement.Action Session

variable {L : Type} [Link L] {base : List Event} {α : Type}

/-! ## Steps that deal with the link -/

omit [Link L] in
theorem onward_modify_bind {g : Session (Traced L) → Session (Traced L)}
    {f : PUnit → Step (Traced L) α} (hlink : ∀ s, (g s).link = s.link)
    (hparked : ∀ s, (g s).parked = s.parked)
    (hf : ∀ u, (f u).Maintains (Onward base) (Frank base)) :
    (modify g >>= f).Maintains (Onward base) (Frank base) := by
  refine maintains_modify_bind (fun s h => ⟨?_, ?_⟩) hf
  · rw [hlink]
    exact h.record
  · unfold ParkedMild
    rw [hparked]
    exact h.parked

omit [Link L] in
/-- A fault that is mild may be told at any time. -/
theorem frank_fail {setback : Setback} (h : setback.IsMild) :
    (fail setback : Step (Traced L) α).Maintains (Onward base) (Frank base) :=
  fun _ hs => kept_fault hs (Or.inl h)

theorem transmit_frank (frame : Bytes) :
    (transmit frame : Step (Traced L) Unit).Maintains (Onward base) (Frank base) := by
  intro s h
  unfold transmit
  rw [ensures_count_bind, ensures_get_bind]
  dsimp only
  rw [ensures_onLink_bind]
  obtain ⟨event, hevents, htold⟩ := writeAll_told frame s.settings.blockTimeout s.link
  obtain ⟨events, hbase⟩ := h.record
  have hall : (writeAll frame s.settings.blockTimeout s.link).2.events
      = base ++ (events ++ [event]) := by
    rw [hevents, ← hbase, List.append_assoc]
  have honward : ∀ statistics, Onward base
      { s with link := (writeAll frame s.settings.blockTimeout s.link).2, statistics } :=
    fun _ => ⟨⟨_, hall.symm⟩, h.parked⟩
  cases hresult : (writeAll frame s.settings.blockTimeout s.link).1 with
  | ok u => exact kept_ok (honward _)
  | error fault =>
      refine kept_fault (honward _) (frank_ofLink fun hclosed => ?_)
      rw [hclosed] at hresult
      exact ⟨_, hall, event, List.mem_append_right _ (List.mem_singleton.mpr rfl), htold hresult⟩

theorem sendControl_frank (block : Block) :
    (sendControl block : Step (Traced L) Unit).Maintains (Onward base) (Frank base) :=
  maintains_sendControl transmit_frank (fun _ hmild => Or.inl hmild) block

theorem readFrame_frank (n : Nat) (timeout : Nanos) :
    (readFrame n timeout : Step (Traced L) Unit).Maintains (Onward base) (Frank base) := by
  intro s h
  unfold readFrame
  rw [ensures_get_bind]
  split
  · exact kept_fault h (Or.inl rfl)
  · rw [ensures_onLink_bind]
    obtain ⟨events, hevents, htold⟩ := readUpTo_told timeout n n s.link
    obtain ⟨before, hbase⟩ := h.record
    rw [← hbase, List.append_assoc] at hevents
    change (readAll n timeout s.link).2.events = _ at hevents
    change (readAll n timeout s.link).1.2 = _ → _ at htold
    generalize readAll n timeout s.link = result at hevents htold
    obtain ⟨⟨octets, fault⟩, link⟩ := result
    dsimp only at hevents htold ⊢
    rw [ensures_modify_bind]
    have honward : ∀ frame, Onward base { s with link, frame } :=
      fun _ => ⟨⟨_, hevents.symm⟩, h.parked⟩
    cases fault with
    | none => exact kept_ok (honward _)
    | some fault =>
        refine kept_fault (honward _) (frank_ofLink fun hclosed => ?_)
        obtain ⟨event, hevent, hclosed⟩ := htold (congrArg some hclosed)
        exact ⟨_, hevents, event, List.mem_append_right _ hevent, hclosed⟩

theorem discard_frank (timeout : Nanos) : ∀ rounds remaining,
    (discard timeout rounds remaining : Step (Traced L) Unit).Maintains (Onward base) (Frank base)
  | 0, _ => maintains_pure _
  | rounds + 1, remaining => by
      unfold discard
      refine maintains_get.bind fun s => ?_
      dsimp only
      split
      · exact maintains_pure _
      · refine maintains_attempt_bind (readFrame_frank _ timeout) (fun u => ?_) ?_
        · exact onward_modify_bind (fun _ => rfl) (fun _ => rfl) fun _ =>
            discard_frank timeout rounds _
        · intro setback s h _
          exact kept_ok ⟨h.record, h.parked⟩

theorem receiveBlock_frank (timeout : Nanos) :
    (receiveBlock timeout : Step (Traced L) Inbound).Maintains (Onward base) (Frank base) := by
  have hprologue : (readPrologue timeout : Step (Traced L) Unit).Maintains (Onward base)
      (Frank base) :=
    onward_modify_bind (fun _ => rfl) (fun _ => rfl) fun _ =>
      (readFrame_frank _ _).bind fun _ => maintains_get.bind fun _ => readFrame_frank _ _
  have hblock : ∀ start, (readBlock start : Step (Traced L) Inbound).Maintains (Onward base)
      (Frank base) := by
    intro start
    refine onward_modify_bind (fun _ => rfl) (fun _ => rfl) fun _ => maintains_get.bind fun s => ?_
    split
    · exact maintains_pure _
    · split
      · exact onward_modify_bind (fun _ => rfl) (fun _ => rfl) fun _ => frank_fail rfl
      · exact frank_fail (Failure.ofBlock_requiresReopen _)
  refine hprologue.bind fun _ => maintains_get.bind fun s => ?_
  split
  · exact frank_fail (Failure.ofBlock_requiresReopen _)
  · split
    · exact onward_modify_bind (fun _ => rfl) (fun _ => rfl) fun _ =>
        (discard_frank _ _ _).bind fun _ => frank_fail rfl
    · exact (readFrame_frank _ _).bind fun _ => hblock _

theorem awaitRound_frank (timeout : Nanos) :
    (awaitRound timeout : Step (Traced L) (Nanos ⊕ Inbound)).Maintains (Onward base)
      (Frank base) := by
  have hwait : (waitTime timeout : Step (Traced L) Nanos).Maintains (Onward base) (Frank base) := by
    refine maintains_get.bind fun s => ?_
    split
    · exact maintains_pure _
    · dsimp only
      split
      · exact frank_fail rfl
      · exact maintains_pure _
  have hextend : ∀ multiplier,
      (extendWait multiplier : Step (Traced L) Nanos).Maintains (Onward base) (Frank base) := by
    intro multiplier s h
    unfold extendWait
    split
    · exact kept_fault h (Or.inl rfl)
    · dsimp only
      rw [ensures_modify_bind, ensures_get_bind]
      split
      · exact kept_fault ⟨h.record, h.parked⟩ (Or.inl rfl)
      · exact kept_ok ⟨h.record, h.parked⟩
  refine hwait.bind fun wait => (receiveBlock_frank wait).bind fun inbound => ?_
  refine maintains_get.bind fun s => ?_
  split
  · exact (hextend _).bind fun _ => (sendControl_frank _).bind fun _ => maintains_pure _
  · split
    · exact maintains_pure _
    · exact (sendControl_frank _).bind fun _ => maintains_pure _
  · exact maintains_pure _

/-- **No exchange makes up a failure that calls for a new opening**: it only passes on that the link
said that it was closed. -/
theorem conduct_frank (base : List Event) :
    Conduct (Onward base) (Frank base : Setback → Session (Traced L) → Prop) where
  quiet := by
    intro s s' h hquiet
    refine ⟨by rw [hquiet.link]; exact h.record, ?_⟩
    rcases hquiet.parked with hsame | hnone
    · unfold ParkedMild
      rw [hsame]
      exact h.parked
    · exact parkedMild_of_none hnone
  still := by
    intro setback s s' h hquiet
    have hevents : s.link.events <+: s'.link.events := hquiet.link ▸ List.prefix_rfl
    exact h.imp id fun ⟨hclosed, htold⟩ => ⟨hclosed, htold.extend hevents⟩
  mild := fun _ hmild => Or.inl hmild
  hardens := fun h => Or.inl h.minor
  parked := fun h hparked => Or.inl (h.parked _ hparked)
  parks := by
    intro received s h hreceived
    refine ⟨h.record, fun setback hsome => ?_⟩
    obtain ⟨⟨failure, rfl⟩, hfrank⟩ := hreceived setback (Option.some.inj hsome)
    exact hfrank.minor
  sendCommand := maintains_sendCommand transmit_frank
  sendControl := fun _ => sendControl_frank _
  awaitRound := awaitRound_frank

end Step

namespace Session

open SecureElement.Action

variable {L : Type} [Link L] {settings : Settings} {s s' : Session (Traced L)} {base : List Event}
  {α : Type}

/-! ## Calls -/

/-- A failure tells the truth about the session that it leaves, or passes on what the link said
before the session recovered. -/
def Truth (base : List Event) (failure : Failure) (s : Session (Traced L)) : Prop :=
  failure.requiresReopen = true ↔
    s.status = .closed ∨ failure = .closed ∧ s.status = .idle ∧ ToldClosed base s

omit [Link L] in
theorem Truth.since {before : List Event} {failure : Failure} (h : Truth base failure s)
    (hbefore : before <+: base) : Truth before failure s := by
  refine ⟨fun hreopen => (h.mp hreopen).imp id fun ⟨hclosed, hidle, htold⟩ =>
    ⟨hclosed, hidle, htold.since hbefore⟩, fun hend => ?_⟩
  rcases hend with hstatus | ⟨rfl, -⟩
  · exact h.mpr (Or.inl hstatus)
  · rfl

omit [Link L] in
/-- A session that is closed, and a failure that says so. -/
theorem truth_closed {failure : Failure} (hstatus : s.status = .closed)
    (hreopen : failure.requiresReopen = true) : Truth base failure s :=
  ⟨fun _ => Or.inl hstatus, fun _ => hreopen⟩

omit [Link L] in
/-- A session that is not closed, and a failure that calls for nothing. -/
theorem truth_open {failure : Failure} (hstatus : s.status ≠ .closed)
    (hmild : failure.requiresReopen = false) : Truth base failure s := by
  refine ⟨fun hreopen => absurd (hmild.symm.trans hreopen) Bool.false_ne_true, fun hend => ?_⟩
  rcases hend with hclosed | ⟨rfl, -⟩
  · exact absurd hclosed hstatus
  · exact absurd hmild nofun

/-- What every call comes to: nothing that is parked speaks of the session, and what the caller is
told is true. -/
def Verdict (base : List Event) (r : Except (Stop Failure) α) (s' : Session (Traced L)) : Prop :=
  s'.ParkedMild ∧
    match r with
    | .ok _ => base <+: s'.link.events
    | .error (.because failure) => base <+: s'.link.events ∧ Truth base failure s'
    | .error _ => True

omit [Link L] in
theorem Verdict.stop {β : Type} {stop : Stop Failure}
    (h : Verdict base (.error stop : Except _ α) s') :
    Verdict base (.error stop : Except _ β) s' := by
  cases stop <;> exact h

/-- A session that is not between calls says so. -/
theorem run_refused_verdict {exchange : Step (Traced L) α} (hready : s.status.isReady = false)
    (h : s.ParkedMild) : Ensures (run exchange) s (Verdict s.link.events) := by
  unfold run begin
  rw [bind_assoc, ensures_get_bind]
  split
  · rename_i hstatus
    exact ⟨h, List.prefix_rfl, truth_closed hstatus rfl⟩
  · rename_i hstatus
    exact ⟨h, List.prefix_rfl, truth_open (by rw [hstatus]; exact Status.noConfusion) rfl⟩
  · rename_i hstatus
    exact ⟨h, List.prefix_rfl, truth_open (by rw [hstatus]; exact Status.noConfusion) rfl⟩
  · rename_i hstatus
    rw [hstatus] at hready
    exact absurd hready.symm Bool.false_ne_true
  · rename_i hstatus
    rw [hstatus] at hready
    exact absurd hready.symm Bool.false_ne_true

/-- Recovery passes the failure on and leaves the session idle, or closes the session and says
so. -/
theorem recover_verdict {failure : Failure} (hstatus : s.status = .busy)
    (hcapacity : Block.longPrologue ≤ s.frame.capacity) (hbase : base <+: s.link.events)
    (hfrank : Frank base (.major failure) s) :
    Ensures (recover failure) s fun r s' => s'.ParkedMild ∧
      match r with
      | .ok told => base <+: s'.link.events ∧ Truth base told s'
      | .error stop => stop = .stalled := by
  refine (recover_spec failure hstatus hcapacity).mono ?_
  intro r s' hend
  cases r with
  | ok told =>
      rcases hend with ⟨rfl, m, vain, last, -, hrestarts, -⟩ | ⟨rfl, vain, hgives, -⟩
      · obtain ⟨events, hevents, -⟩ := hrestarts.passes
        have hmore : s.link.events <+: s'.link.events := ⟨events, hevents.symm⟩
        refine ⟨parkedMild_of_none hrestarts.parked, hbase.trans hmore, ?_⟩
        rcases hfrank with hmild | ⟨hclosed, htold⟩
        · exact truth_open (by rw [hrestarts.status]; exact Status.noConfusion) hmild
        · -- the link said that it was closed, and then it answered
          obtain rfl := Setback.major.inj hclosed
          exact ⟨fun _ => Or.inr ⟨rfl, hrestarts.status, htold.extend hmore⟩, fun _ => rfl⟩
      · obtain ⟨events, hevents, -⟩ := hgives.passes
        exact ⟨parkedMild_of_none hgives.parked, hbase.trans ⟨events, hevents.symm⟩,
          truth_closed hgives.status rfl⟩
  | error stop =>
      obtain ⟨rfl, -, hnone, -⟩ := hend
      exact ⟨parkedMild_of_none hnone, rfl⟩

/-- **What a call that runs one exchange tells is true**, but for a link that comes back. -/
theorem run_verdict (request : Request) {exchange : Step (Traced L) Unit}
    (hexchange : request.exchange? = some exchange) (hsound : Sound settings s)
    (h : s.ParkedMild) : Ensures (run exchange) s (Verdict s.link.events) := by
  cases hready : s.status.isReady with
  | false => exact run_refused_verdict hready h
  | true =>
      have hkept := (Step.conduct_frank s.link.events).exchange hexchange (s := s.begun)
        (fun _ => ⟨List.prefix_rfl, h⟩) fun _ => ⟨List.prefix_rfl, parkedMild_of_none rfl⟩
      have hexchanged := exchange_exchanged hexchange (s := s.begun) hsound.capacity
        (Nat.zero_le _) hsound.parkedOrdinary
      refine ensures_run hready (hkept.and hexchanged) ?_ ?_ ?_ ?_
      · intro u s₁ hend
        obtain ⟨⟨honward, -⟩, ⟨-, hstatus, -⟩, -⟩ := hend
        exact ⟨hstatus, honward.parked, honward.record⟩
      · intro setback s₁ hend
        obtain ⟨⟨honward, hfrank⟩, ⟨hkeeps, hstatus, -⟩, -, -, hends⟩ := hend
        obtain ⟨failure, rfl, -⟩ := hends.major
        refine (recover_verdict (s := { s₁ with deadline := none }) hstatus
          (hkeeps.holds hsound.capacity) honward.record (hfrank _ rfl)).mono ?_
        intro r s' hend
        cases r with
        | ok told => exact hend
        | error stop =>
            obtain ⟨hmild, rfl⟩ := hend
            exact ⟨hmild, trivial⟩
      · intro s₁ hend
        exact ⟨hend.1.1.parked, trivial⟩
      · intro s₁ hend
        exact ⟨hend.1.1.parked, trivial⟩

/-- An attempt to open that fails leaves the session closed, and says so. -/
theorem establish_verdict (hsound : Sound settings s) (h : s.ParkedMild) :
    Ensures establish s (Verdict s.link.events) := by
  have hraised : (Link.bringUp s.link).2.events
      = s.link.events ++ [.bringUp (Link.bringUp s.link.link).1] := Traced.events_record ..
  have hbase : s.link.events <+: (Link.bringUp s.link).2.events := ⟨_, hraised.symm⟩
  refine ensures_establish (fun _ => ⟨h, List.prefix_rfl⟩) (fun hclosed _ _ => ?_) ?_
  · exact ⟨h, hbase, truth_closed hclosed (Failure.toOpenFailed_requiresReopen _)⟩
  intro hclosed _
  have honward : Onward s.link.events { s.risen with deadline := s.risen.deadlineFromNow } :=
    ⟨hbase, nofun⟩
  refine (((Step.conduct_frank s.link.events).handshake honward).and
    (handshake_keeps (s := s.risen) hsound.capacity)).mono ?_
  intro r s₁ hend
  obtain ⟨⟨honward₁, -⟩, -, -, hsame, -⟩ := hend
  match r with
  | .ok () => exact ⟨hsame.trans hclosed, honward₁.parked, honward₁.record⟩
  | .error (.because setback) =>
      have hreleased : (Link.release s₁.link).events = s₁.link.events ++ [.release] :=
        Traced.events_record ..
      exact ⟨honward₁.parked, honward₁.record.trans ⟨_, hreleased.symm⟩,
        truth_closed (hsame.trans hclosed) (Failure.toOpenFailed_requiresReopen _)⟩
  | .error .crashed => exact ⟨honward₁.parked, trivial⟩
  | .error .stalled => exact ⟨honward₁.parked, trivial⟩

/-- What is collected does not change what is told. -/
theorem receive_verdict (hsound : Sound settings s) (h : s.ParkedMild) :
    Ensures receive s (Verdict s.link.events) :=
  (run_verdict .receive rfl hsound h).bind (fun _ _ h => h) fun _ _ h => h.stop

theorem transceive_verdict (command : Bytes) (hsound : Sound settings s) (h : s.ParkedMild) :
    Ensures (transceive command) s (Verdict s.link.events) := by
  have hsend := (run_verdict (.send command) rfl hsound h).and
    (exchange_sound (.send command) rfl hsound)
  refine hsend.bind ?_ fun _ _ hend => hend.1.stop
  -- the second call is made on the session that the first one left, and knows what it was told
  intro u s₁ hend
  obtain ⟨⟨hmild, hrecord⟩, hsound₁⟩ := hend
  refine (receive_verdict hsound₁ hmild).mono ?_
  intro r s' hend
  obtain ⟨hmild', hr⟩ := hend
  match r with
  | .ok _ => exact ⟨hmild', hrecord.trans hr⟩
  | .error (.because failure) => exact ⟨hmild', hrecord.trans hr.1, hr.2.since hrecord⟩
  | .error .crashed => exact ⟨hmild', trivial⟩
  | .error .stalled => exact ⟨hmild', trivial⟩

theorem perform_verdict (request : Request) (hsound : Sound settings s) (h : s.ParkedMild) :
    Ensures (perform request) s (Verdict s.link.events) := by
  have hcall : ∀ {β : Type} {call : Call (Traced L) β} (f : β → Option Bytes),
      Ensures call s (Verdict s.link.events) →
      Ensures (do return f (← call) : Call (Traced L) (Option Bytes)) s
        (Verdict s.link.events) :=
    fun _ hcall => hcall.bind (fun _ _ h => h) fun _ _ h => h.stop
  cases request with
  | establish => exact hcall (fun _ => none) (establish_verdict hsound h)
  | close =>
      refine ⟨parkedMild_of_none rfl, ?_⟩
      show s.link.events <+: s.close.link.events
      unfold close
      dsimp only
      split
      · have hreleased : (Link.release s.link).events = s.link.events ++ [.release] :=
          Traced.events_record ..
        exact ⟨_, hreleased.symm⟩
      · exact List.prefix_rfl
  | send command =>
      exact hcall (fun _ => none) (run_verdict (.send command) rfl hsound h)
  | receive => exact hcall some (receive_verdict hsound h)
  | transceive command => exact hcall some (transceive_verdict command hsound h)
  | prefetch =>
      refine hcall (fun _ => none) ?_
      unfold prefetch
      rw [ensures_get_bind]
      split
      · exact ⟨h, List.prefix_rfl⟩
      · exact run_verdict .prefetch rfl hsound h
  | resync => exact hcall (fun _ => none) (run_verdict .resync rfl hsound h)
  | softReset => exact hcall (fun _ => none) (run_verdict .softReset rfl hsound h)
  | endApduSession =>
      exact hcall (fun _ => none) (run_verdict .endApduSession rfl hsound h)
  | reset =>
      refine hcall (fun _ => none) ?_
      unfold reset
      rw [ensures_get_bind]
      split
      · exact run_verdict .softReset rfl hsound h
      · exact establish_verdict hsound h
  | dropResponse => exact ⟨parkedMild_of_none rfl, List.prefix_rfl⟩

/-- Nothing that is parked calls for a new opening, in any session. -/
theorem Reachable.parkedMild (h : Reachable settings s) : s.ParkedMild := by
  induction h with
  | created hnew =>
      obtain ⟨-, rfl⟩ := new_eq_ok hnew
      exact parkedMild_of_none rfl
  | called request hbefore ih =>
      exact ((perform_verdict request hbefore.sound ih).mono fun _ _ hend => hend.1).final
  | touched link _ ih => exact ih

/--
**A failure calls for a new opening exactly when the session has closed, or when it passes on
what the link said.** In the second case the failure is `closed`, some write or read of the
call was told that the link is closed, and the session has recovered behind that and is
idle. No other failure of any call misleads.
-/
theorem requiresReopen_iff {request : Request} {failure : Failure} (h : Reachable settings s)
    (hcall : perform request s = .error (.because failure) s') :
    ∃ events, s'.link.events = s.link.events ++ events ∧
      (failure.requiresReopen = true ↔
        s'.status = .closed ∨
          failure = .closed ∧ s'.status = .idle ∧ ∃ event ∈ events, event.TellsClosed) := by
  obtain ⟨-, ⟨events, hevents⟩, htruth⟩ :=
    (perform_verdict request h.sound h.parkedMild).error hcall
  refine ⟨events, hevents.symm, htruth.trans (or_congr_right (and_congr_right fun _ =>
    and_congr_right fun _ => ⟨?_, fun htold => ⟨events, hevents.symm, htold⟩⟩))⟩
  intro htold
  obtain ⟨events', hevents', htold⟩ := htold
  rw [← hevents] at hevents'
  rw [List.append_cancel_left hevents']
  exact htold

theorem requiresReopen_iff_silent :
    ∃ s' : Session (Traced Rehearsal), Reachable rehearsalSettings silent ∧
      perform .receive silent = .error (.because .recoveryExhausted) s' ∧ s'.status = .closed := by
  have hreachable : Reachable rehearsalSettings silent := .called _ (rehearse_reachable _)
  have hresult : (perform .receive).result silent = .error (.because .recoveryExhausted) := by
    decide +kernel
  have hcall := eq_error_of_result hresult
  obtain ⟨events, -, hverdict⟩ := requiresReopen_iff hreachable hcall
  rcases hverdict.mp rfl with hclosed | ⟨hother, -⟩
  · exact ⟨_, hreachable, hcall, hclosed⟩
  · exact absurd hother Failure.noConfusion

/-- A link that says once that it is closed, and then answers the recovery. -/
def wavering : Traced Rehearsal :=
  let answer : Reading := { outcome := .ok { bytes := [0xA5, 0xE0, 0, 0x45], chunk := none } }
  { link := { readings := [answer, { outcome := .error (.fault .closed) }, answer] } }

/-- What the caller is told there is that the session has to be opened again. But it is idle, and
takes the next call. -/
theorem requiresReopen_wavering :
    ∃ s : Session (Traced Rehearsal), Reachable rehearsalSettings s ∧
      (perform .receive).result s = .error (.because .closed) ∧
      Failure.closed.requiresReopen = true ∧ ((perform .receive).final s).status = .idle := by
  have hnew : new wavering rehearsalSettings = .ok (create wavering rehearsalSettings) := rfl
  refine ⟨(perform .establish).final (create wavering rehearsalSettings),
    .called _ (.created hnew), ?_, rfl, ?_⟩
  · decide +kernel
  · decide +kernel

end Session

end SecureElement
