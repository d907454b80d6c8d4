import SecureElement.Proofs.Agreement
import SecureElement.Proofs.Spare
import SecureElement.Session.Calls

/-!
# Sessions that differ in what is left over

A buffer that was used stays as it is until it is used again, and the statistics of a
session go on for as long as it lives. Two sessions are `Twins` if they differ in such
things only: each buffer may hold what it likes unless something is known to depend on
it, and the statistics of one are ahead by a fixed amount.

Every step of an exchange goes the same way in twins, and they stay twins. What is known
of their buffers grows on the way: a block that is received lies in both frames, a block
that is staged in both command buffers, and a response starts from nothing in both.
-/

namespace SecureElement

/-- One count after the other. -/
instance : Add Statistics where
  add c d :=
    { blocksSent := c.blocksSent + d.blocksSent
      blocksReceived := c.blocksReceived + d.blocksReceived
      retransmissions := c.retransmissions + d.retransmissions
      epilogueMismatches := c.epilogueMismatches + d.epilogueMismatches
      extensions := c.extensions + d.extensions
      resyncs := c.resyncs + d.resyncs }

namespace Session

/-- The buffers of two sessions that are known to hold the same. -/
structure Known where
  response : Prop
  command : Prop
  frame : Prop

/-- What the frame holds is known too. -/
def Known.framed (k : Known) : Known := { k with frame := True }

/-- What the command buffer holds is known too. -/
def Known.staged (k : Known) : Known := { k with command := True }

/-- What the response holds is known too. -/
def Known.cleared (k : Known) : Known := { k with response := True }

variable {L : Type} {d : Statistics} {k : Known} {s t : Session L}
  {response command frame : Buffer}

/-- These buffers may stand in for those of a session. -/
structure Replaces (k : Known) (s : Session L) (response command frame : Buffer) : Prop where
  pairedResponse : Buffer.Paired s.response response
  pairedCommand : Buffer.Paired s.command command
  pairedFrame : Buffer.Paired s.frame frame
  sameResponse : k.response → response = s.response
  /-- A command that may be asked for again is in both. -/
  sameCommand : k.command ∨ s.commandPending = true → command = s.command
  /-- A block that was parked is in both. -/
  sameFrame : k.frame ∨ (∃ inbound, s.parked = some (.ok inbound)) → frame = s.frame

/-- The second session is the first with other buffers, and its statistics are ahead. -/
def Twins (d : Statistics) (k : Known) (s t : Session L) : Prop :=
  ∃ response command frame, Replaces k s response command frame ∧
    t = { s with response, command, frame, statistics := d + s.statistics }

theorem Replaces.mono {k' : Known} (h : Replaces k s response command frame)
    (hresponse : k'.response → k.response) (hcommand : k'.command → k.command)
    (hframe : k'.frame → k.frame) : Replaces k' s response command frame :=
  { h with
    sameResponse := fun hk => h.sameResponse (hresponse hk)
    sameCommand := fun hk => h.sameCommand (hk.imp_left hcommand)
    sameFrame := fun hk => h.sameFrame (hk.imp_left hframe) }

theorem Twins.of_framed (h : Twins d k.framed s t) : Twins d k s t := by
  obtain ⟨response, command, frame, hreplaces, rfl⟩ := h
  exact ⟨response, command, frame, hreplaces.mono id id fun _ => trivial, rfl⟩

theorem Twins.of_staged (h : Twins d k.staged s t) : Twins d k s t := by
  obtain ⟨response, command, frame, hreplaces, rfl⟩ := h
  exact ⟨response, command, frame, hreplaces.mono id (fun _ => trivial) id, rfl⟩

theorem Twins.of_cleared (h : Twins d k.cleared s t) : Twins d k s t := by
  obtain ⟨response, command, frame, hreplaces, rfl⟩ := h
  exact ⟨response, command, frame, hreplaces.mono (fun _ => trivial) id id, rfl⟩

/-- More is known behind a value than behind a fault. -/
def Learns {ε α : Type} (d : Statistics) (k k' : Known) :
    Except (Stop ε) α → Session L → Session L → Prop
  | .ok _ => Twins d k'
  | .error _ => Twins d k

theorem Learns.twins {ε α : Type} {k' : Known} {r : Except (Stop ε) α} (h : Learns d k k' r s t)
    (hless : Twins d k' s t → Twins d k s t) : Twins d k s t := by
  cases r with
  | ok a => exact hless h
  | error stop => exact h

/-- Whatever is done with more known leaves it known. -/
theorem Twins.learns {ε α : Type} {k' : Known} (h : Twins d k' s t)
    (hless : Twins d k' s t → Twins d k s t) (r : Except (Stop ε) α) : Learns d k k' r s t := by
  cases r with
  | ok a => exact h
  | error stop => exact hless h

/-- Nothing has changed that makes a difference to what has to be known. -/
structure SameStore (s s' : Session L) : Prop where
  response : s'.response = s.response
  command : s'.command = s.command
  frame : s'.frame = s.frame
  statistics : s'.statistics = s.statistics
  commandPending : s'.commandPending = true → s.commandPending = true
  parked : ∀ inbound, s'.parked = some (.ok inbound) → s.parked = some (.ok inbound)

/-- A change beside the buffers and what is said of them. -/
theorem SameStore.of_eq {s' : Session L} (h : s' = { s' with
    response := s.response
    command := s.command
    frame := s.frame
    statistics := s.statistics
    commandPending := s.commandPending
    parked := s.parked }) : SameStore s s' := by
  rw [h]
  exact ⟨rfl, rfl, rfl, rfl, id, fun _ => id⟩

/-- The same change on both sides leaves twins. -/
theorem Twins.change (h : Twins d k s t) (g : Session L → Session L)
    (hsame : ∀ (s : Session L) (response command frame : Buffer) (statistics : Statistics),
      g { s with response, command, frame, statistics }
        = { g s with response, command, frame, statistics })
    (hstore : ∀ s, SameStore s (g s)) : Twins d k (g s) (g t) := by
  obtain ⟨response, command, frame, hreplaces, rfl⟩ := h
  have hkept := hstore s
  refine ⟨response, command, frame, ?_, ?_⟩
  · exact {
      pairedResponse := by rw [hkept.response]; exact hreplaces.pairedResponse
      pairedCommand := by rw [hkept.command]; exact hreplaces.pairedCommand
      pairedFrame := by rw [hkept.frame]; exact hreplaces.pairedFrame
      sameResponse := fun hk => by rw [hkept.response]; exact hreplaces.sameResponse hk
      sameCommand := fun hk => by
        rw [hkept.command]
        exact hreplaces.sameCommand (hk.imp_right hkept.commandPending)
      sameFrame := fun hk => by
        rw [hkept.frame]
        exact hreplaces.sameFrame (hk.imp_right fun ⟨inbound, hparked⟩ =>
          ⟨inbound, hkept.parked inbound hparked⟩) }
  · rw [hsame, hkept.statistics]

/-- Once both frames are cleared they are the same. -/
theorem Twins.clear_frame (h : Twins d k s t) :
    Twins d k.framed { s with frame := s.frame.clear } { t with frame := t.frame.clear } := by
  obtain ⟨response, command, frame, hreplaces, rfl⟩ := h
  refine ⟨response, command, s.frame.clear, ?_, ?_⟩
  · exact { hreplaces with
      pairedFrame := hreplaces.pairedFrame.tidy.clear.paired
      sameFrame := fun _ => rfl }
  · dsimp only
    rw [hreplaces.pairedFrame.clear_eq]

/-- Once both responses are cleared they are the same. -/
theorem Twins.clear_response (h : Twins d k s t) :
    Twins d k.cleared { s with response := s.response.clear }
      { t with response := t.response.clear } := by
  obtain ⟨response, command, frame, hreplaces, rfl⟩ := h
  refine ⟨s.response.clear, command, frame, ?_, ?_⟩
  · exact { hreplaces with
      pairedResponse := hreplaces.pairedResponse.tidy.clear.paired
      sameResponse := fun _ => rfl }
  · dsimp only
    rw [hreplaces.pairedResponse.clear_eq]

end Session

open SecureElement.Action Session

namespace Action

variable {ε L α β : Type} {d : Statistics} {k : Known}

/-! ## Actions that depend on nothing that is left over -/

/-- What follows looks at no buffer and at no statistics. -/
theorem twins_get_bind {f : Session L → Action ε L α}
    (hsame : ∀ (s : Session L) (response command frame : Buffer) (statistics : Statistics),
      f { s with response, command, frame, statistics } = f s)
    (hf : ∀ s, Respects (Twins d k) (f s)) : Respects (Twins d k) (get >>= f) := by
  refine respects_get_bind (fun s t h => ?_) hf
  obtain ⟨response, command, frame, -, rfl⟩ := h
  exact hsame ..

/-- What follows looks at no buffer but the frame, and that is known. -/
theorem twins_get_framed_bind {f : Session L → Action ε L α}
    (hsame : ∀ (s : Session L) (response command : Buffer) (statistics : Statistics),
      f { s with response, command, statistics } = f s)
    (hf : ∀ s, Respects (Twins d k.framed) (f s)) : Respects (Twins d k.framed) (get >>= f) := by
  refine respects_get_bind (fun s t h => ?_) hf
  obtain ⟨response, command, frame, hreplaces, rfl⟩ := h
  obtain rfl := hreplaces.sameFrame (Or.inl trivial)
  exact hsame ..

theorem twins_onLink_bind {g : L → β × L} {f : β → Action ε L α}
    (hf : ∀ b, Respects (Twins d k) (f b)) : Respects (Twins d k) (onLink g >>= f) := by
  intro s t h
  obtain ⟨response, command, frame, hreplaces, rfl⟩ := h
  rw [agree_onLink_bind]
  exact hf _ _ _ ⟨response, command, frame, { hreplaces with }, rfl⟩

/-- Both counts go on from where they were. -/
theorem twins_count {g : Statistics → Statistics} (hg : ∀ c, g (d + c) = d + g c) :
    Respects (Twins d k) (count g : Action ε L Unit) := by
  intro s t h
  obtain ⟨response, command, frame, hreplaces, rfl⟩ := h
  refine ⟨rfl, response, command, frame, { hreplaces with }, ?_⟩
  dsimp only
  rw [hg]

theorem twins_count_bind {g : Statistics → Statistics} {f : Unit → Action ε L α}
    (hg : ∀ c, g (d + c) = d + g c) (hf : ∀ u, Respects (Twins d k) (f u)) :
    Respects (Twins d k) (count g >>= f) := (twins_count hg).bind hf

theorem twins_modify {g : Session L → Session L}
    (hsame : ∀ (s : Session L) (response command frame : Buffer) (statistics : Statistics),
      g { s with response, command, frame, statistics }
        = { g s with response, command, frame, statistics })
    (hstore : ∀ s, SameStore s (g s)) : Respects (Twins d k) (modify g : Action ε L PUnit) :=
  respects_modify fun _ _ h => h.change g hsame hstore

theorem twins_modify_bind {g : Session L → Session L} {f : PUnit → Action ε L α}
    (hsame : ∀ (s : Session L) (response command frame : Buffer) (statistics : Statistics),
      g { s with response, command, frame, statistics }
        = { g s with response, command, frame, statistics })
    (hstore : ∀ s, SameStore s (g s)) (hf : ∀ u, Respects (Twins d k) (f u)) :
    Respects (Twins d k) (modify g >>= f) := (twins_modify hsame hstore).bind hf

theorem twins_moveTo (status : Status) :
    Respects (Twins d k) (moveTo status : Action ε L Unit) := by
  refine twins_get_bind (fun _ _ _ _ _ => rfl) fun s => ?_
  split
  · exact twins_modify (fun _ _ _ _ _ => rfl) fun _ => .of_eq rfl
  · exact respects_crash

end Action

namespace Step

variable {L α β : Type} {d : Statistics} {k : Known}

theorem charge_twins (setback : Setback) :
    Respects (Twins d k) (charge setback : Step L Unit) := by
  cases setback with
  | major failure => exact respects_fail _
  | minor failure =>
      intro s t h
      obtain ⟨response, command, frame, hreplaces, rfl⟩ := h
      unfold charge
      rw [agree_get_bind]
      dsimp only
      split
      · exact ⟨rfl, response, command, frame, hreplaces, rfl⟩
      · rw [agree_set_bind]
        have hcharged : Twins d k { s with retries := s.retries + 1 } _ :=
          ⟨response, command, frame, { hreplaces with }, rfl⟩
        split
        · exact ⟨rfl, hcharged⟩
        · refine twins_count ?_ _ _ hcharged
          exact fun _ => rfl

theorem orCharge_twins {step : Step L Unit} (h : Respects (Twins d k) step) :
    Respects (Twins d k) (orCharge step) := by
  refine (respects_attempt h).bind fun outcome => ?_
  cases outcome with
  | ok u => exact respects_pure _
  | error setback => exact charge_twins setback

variable [Link L]

/-! ## Single blocks -/

theorem transmit_twins (frame : Bytes) : Respects (Twins d k) (transmit frame : Step L Unit) := by
  refine twins_count_bind (fun _ => rfl) fun _ =>
    twins_get_bind (fun _ _ _ _ _ => rfl) fun s => twins_onLink_bind fun outcome => ?_
  cases outcome with
  | ok u => exact respects_pure _
  | error fault => exact respects_fail _

/-- The command goes out that is in both. -/
theorem sendCommand_twins : Respects (Twins d k.staged) (sendCommand : Step L Unit) := by
  refine respects_get_bind (fun s t h => ?_) fun s => transmit_twins _
  obtain ⟨response, command, frame, hreplaces, rfl⟩ := h
  rw [hreplaces.sameCommand (Or.inl trivial)]

theorem sendControl_twins (block : Block) :
    Respects (Twins d k) (sendControl block : Step L Unit) := by
  refine twins_get_bind (fun _ _ _ _ _ => rfl) fun s => ?_
  split
  · exact respects_fail _
  · exact transmit_twins _

omit [Link L] in
/-- A block of a command is in both buffers once it is staged. -/
theorem stage_twins {s t : Session L} (block : Block) (h : Twins d k s t) :
    Agree (stage block) s (stage block) t (Learns d k k.staged) := by
  obtain ⟨response, command, frame, hreplaces, rfl⟩ := h
  unfold stage
  rw [agree_get_bind]
  dsimp only
  rw [hreplaces.pairedCommand.fill_eq, agree_set_bind]
  have htidy := hreplaces.pairedCommand.tidy
  generalize hfilled : s.command.fill _ = filled
  have hclean : filled.2.Tidy := by
    rw [← hfilled]
    refine htidy.fill ?_ ?_
    · intro n hn
      split at hn
      · obtain rfl := Except.ok.inj hn
        simp only [*, Nat.le_refl]
      · exact absurd hn nofun
    · intro e he
      split at he
      · exact absurd he nofun
      · simp only [*]
  have hstaged : Twins d k.staged { s with command := filled.2 } _ :=
    ⟨response, filled.2, frame, { hreplaces with
      pairedCommand := hclean.paired
      sameCommand := fun _ => rfl }, rfl⟩
  split
  · exact ⟨rfl, hstaged⟩
  · exact ⟨rfl, hstaged.of_staged⟩

/-- What is read behind what is known is known. -/
theorem readFrame_twins (n : Nat) (timeout : Nanos) :
    Respects (Twins d k.framed) (readFrame n timeout : Step L Unit) := by
  intro s t h
  obtain ⟨response, command, frame, hreplaces, rfl⟩ := h
  obtain rfl := hreplaces.sameFrame (Or.inl trivial)
  unfold readFrame
  rw [agree_get_bind]
  dsimp only
  cases hclaim : s.frame.claim n with
  | error overflow => exact ⟨rfl, response, command, s.frame, hreplaces, rfl⟩
  | ok claimed =>
      dsimp only
      rw [agree_onLink_bind]
      dsimp only
      generalize Link.readAll n timeout s.link = result
      obtain ⟨⟨bytes, fault⟩, link⟩ := result
      have hread : Twins d k.framed { s with link, frame := claimed.setTail n bytes } _ :=
        ⟨response, command, claimed.setTail n bytes, { hreplaces with
          pairedFrame := (hreplaces.pairedFrame.tidy.setTail_claim hclaim).paired
          sameFrame := fun _ => rfl }, rfl⟩
      cases fault with
      | none => exact ⟨rfl, hread⟩
      | some fault => exact ⟨rfl, hread⟩

theorem discard_twins (timeout : Nanos) : ∀ rounds remaining : Nat,
    Respects (Twins d k.framed) (discard timeout rounds remaining : Step L Unit)
  | 0, _ => respects_pure _
  | rounds + 1, remaining => by
      refine twins_get_framed_bind (fun _ _ _ _ => rfl) fun s => ?_
      dsimp only
      split
      · exact respects_pure _
      · refine (respects_attempt (readFrame_twins _ timeout)).bind fun outcome => ?_
        cases outcome with
        | error setback => exact respects_modify fun _ _ h => h.clear_frame
        | ok u =>
            exact respects_modify_bind (fun _ _ h => h.clear_frame) fun _ =>
              discard_twins timeout rounds _

omit [Link L] in
theorem readBlock_twins (start : Nat) :
    Respects (Twins d k.framed) (readBlock start : Step L Inbound) := by
  refine twins_count_bind (fun _ => rfl) fun _ =>
    twins_get_framed_bind (fun _ _ _ _ => rfl) fun s => ?_
  split
  · exact respects_pure _
  · split
    · exact twins_count_bind (fun _ => rfl) fun _ => respects_fail _
    · exact respects_fail _

/-- **A block that is received lies in both frames**, and so does whatever came in its place. -/
theorem receiveBlock_twins {s t : Session L} (timeout : Nanos) (h : Twins d k s t) :
    Agree (receiveBlock timeout) s (receiveBlock timeout) t fun _ => Twins d k.framed := by
  have hprologue : Agree (readPrologue timeout) s (readPrologue timeout) t
      fun _ => Twins d k.framed := by
    unfold readPrologue
    rw [agree_modify_bind]
    refine Respects.agree ?_ h.clear_frame
    exact (readFrame_twins _ timeout).bind fun _ =>
      twins_get_framed_bind (fun _ _ _ _ => rfl) fun _ => readFrame_twins _ timeout
  refine hprologue.bind (fun _ s₁ t₁ h₁ => ?_) fun _ _ _ h₁ => h₁
  refine Respects.agree (twins_get_framed_bind (fun _ _ _ _ => rfl) fun s => ?_) h₁
  split
  · exact respects_fail _
  · dsimp only
    split
    · exact respects_modify_bind (fun _ _ h => h.clear_frame) fun _ =>
        (discard_twins timeout _ _).bind fun _ => respects_fail _
    · exact (readFrame_twins _ timeout).bind fun _ => readBlock_twins _

/-! ## Waiting -/

theorem waitTime_twins (timeout : Nanos) :
    Respects (Twins d k) (waitTime timeout : Step L Nanos) := by
  refine twins_get_bind (fun _ _ _ _ _ => rfl) fun s => ?_
  split
  · exact respects_pure _
  · dsimp only
    split
    · exact respects_fail _
    · exact respects_pure _

omit [Link L] in
theorem extendWait_twins (multiplier : UInt8) :
    Respects (Twins d k) (extendWait multiplier : Step L Nanos) := by
  unfold extendWait
  split
  · exact respects_fail _
  · refine twins_modify_bind (fun _ _ _ _ _ => rfl)
      (fun _ => .of_eq rfl) fun _ => ?_
    intro s t h
    obtain ⟨response, command, frame, hreplaces, rfl⟩ := h
    rw [agree_get_bind]
    dsimp only
    split
    · exact ⟨rfl, response, command, frame, hreplaces, rfl⟩
    · exact ⟨rfl, response, command, frame, { hreplaces with }, rfl⟩

/-- What the step comes to lies in both frames. -/
def Fetches (d : Statistics) (k : Known) (step : Step L α) : Prop :=
  ∀ s t, Twins d k s t → Agree step s step t (Learns d k k.framed)

omit [Link L] in
theorem Fetches.after {step : Step L β} {f : β → Step L α} (hstep : Respects (Twins d k) step)
    (hf : ∀ b, Fetches d k (f b)) : Fetches d k (step >>= f) := fun s t h =>
  (hstep s t h).bind (fun b s' t' h' => hf b s' t' h') fun _ _ _ h' => h'

omit [Link L] in
theorem Fetches.get_bind {f : Session L → Step L α}
    (hsame : ∀ (s : Session L) (response command frame : Buffer) (statistics : Statistics),
      f { s with response, command, frame, statistics } = f s)
    (hf : ∀ s, Fetches d k (f s)) : Fetches d k (get >>= f) := by
  intro s t h
  obtain ⟨response, command, frame, hreplaces, rfl⟩ := h
  rw [agree_get_bind, hsame s response command frame]
  exact hf s s _ ⟨response, command, frame, hreplaces, rfl⟩

theorem awaitRound_fetches (timeout : Nanos) :
    Fetches d k (awaitRound timeout : Step L (Nanos ⊕ Inbound)) := by
  refine .after (waitTime_twins timeout) fun wait s t h => ?_
  refine (receiveBlock_twins wait h).bind (fun inbound s₁ t₁ h₁ => ?_) fun _ _ _ h₁ => h₁.of_framed
  -- from here on the frame is known, whatever becomes of the answer
  refine Agree.mono (Respects.agree ?_ h₁) fun r _ _ h₂ => h₂.learns Twins.of_framed r
  refine twins_get_framed_bind (fun _ _ _ _ => rfl) fun s => ?_
  split
  · exact (extendWait_twins _).bind fun _ => (sendControl_twins _).bind fun _ => respects_pure _
  · split
    · exact respects_pure _
    · exact (sendControl_twins _).bind fun _ => respects_pure _
  · exact respects_pure _

/-- **The block that is waited for lies in both frames.** -/
theorem awaitBlock_fetches : Fetches d k (awaitBlock : Step L Inbound) := by
  refine .get_bind (fun _ _ _ _ _ => rfl) fun s => ?_
  refine agree_loop (R := Twins d k) (fun timeout s t h => ?_) (fun _ _ h => h) _ _
  refine (awaitRound_fetches timeout s t h).mono ?_
  intro r s' t' hr
  match r with
  | .ok (.inl _) => exact Twins.of_framed hr
  | .ok (.inr _) => exact hr
  | .error _ => exact hr

end Step

end SecureElement
