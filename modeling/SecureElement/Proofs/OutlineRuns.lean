import SecureElement.Proofs.Outline

/-!
# Exchanges bring into scope what they look at

An exchange stages a block before it sends it, clears the response before it appends to it,
and receives a block before it reads it. What is parked is taken out of a frame that has to
be in scope from the start; nothing else has to be. So two sessions that coincide in a
scope go through an exchange in the same way, and `Leads` says how much more they have in
common afterwards.

After a fault the frame may be anything. That does no harm to a later read: a call that
fails drops whatever was parked.
-/

namespace SecureElement

open SecureElement.Action Session

namespace Step

variable {L α : Type} {k k' : Scope}

/-! ## Asking -/

theorem askUntil_leads {ask : Step L Inbound} (h : Leads k.unframed k.framed k.unframed ask)
    (answer : Control) : Leads k k.framed k.unframed (askUntil ask answer) := by
  refine Leads.from_unframed (leads_get_bind (fun _ => rfl) fun s => ?_)
  refine agree_loop (R := Coincide k.unframed) (fun _ s t hs => ?_) (fun _ _ h => h) _ _
  refine (attempt_caught h hs).bind ?_ fun _ _ _ h => h
  intro outcome s₁ t₁ h₁
  cases outcome with
  | error setback =>
      exact (charge_leads setback s₁ t₁ h₁).bind (fun _ _ _ h => ⟨rfl, h⟩) fun _ _ _ h => h
  | ok inbound =>
      dsimp only
      split
      · exact ⟨rfl, h₁⟩
      · exact (charge_leads _ s₁ t₁ (Coincide.unframed h₁)).bind (fun _ _ _ h => ⟨rfl, h⟩)
          fun _ _ _ h => h

variable [Link L]

/-! ## Commands -/

theorem sendChained_leads (hcommand : k.command = true) :
    Leads k k.unframed k.unframed (sendChained : Step L Unit) := by
  refine leads_get_bind (fun _ => rfl) fun s => ?_
  have hask : Leads k.unframed k.framed k.unframed
      (do sendCommand; awaitBlock : Step L Inbound) :=
    Leads.bind (sendCommand_leads (k := k.unframed) hcommand) fun _ =>
      awaitBlock_leads (k := k.unframed)
  exact (askUntil_leads hask _).bind fun _ =>
    (leads_pure _).mono (fun _ _ h => h.unframed) fun _ _ h => h

theorem sendFinal_leads (hcommand : k.command = true) :
    Leads k k k (sendFinal : Step L Unit) := by
  refine leads_get_bind (fun _ => rfl) fun s => ?_
  refine agree_loop (R := Coincide k) (fun _ s t hs => ?_) (fun _ _ h => h) _ _
  refine (attempt_caught (sendCommand_leads hcommand) hs).bind ?_ fun _ _ _ h => h
  intro outcome s₁ t₁ h₁
  cases outcome with
  | error setback =>
      exact (charge_leads setback s₁ t₁ h₁).bind (fun _ _ _ h => ⟨rfl, h⟩) fun _ _ _ h => h
  | ok u => exact ⟨rfl, h₁⟩

/-- A block is staged before it goes out. -/
theorem sendBlock_leads (block : Block) :
    Leads k k.staged.unframed k.staged.unframed (sendBlock block : Step L Unit) := by
  have hnext : Leads k.staged.unframed k.staged.unframed k.staged.unframed
      (modify fun s => { s with sendSeq := s.sendSeq.next } : Step L PUnit) :=
    leads_modify fun _ _ h => h.change (fun s => { s with sendSeq := s.sendSeq.next })
      (fun _ => rfl) fun _ => rfl
  refine (stage_leads block).unframed.bind fun _ => leads_modify_bind
    (fun _ _ h => h.change (fun s => { s with retries := 0 }) (fun _ => rfl) fun _ => rfl)
    fun _ => ?_
  split
  · exact (sendChained_leads rfl).bind fun _ => hnext
  · exact (sendFinal_leads (k := k.staged.unframed) rfl).from_unframed.bind fun _ => hnext

theorem sendBlocks_leads : ∀ (n : Nat) (chain : Chain),
    Leads k.staged.unframed k.staged.unframed k.staged.unframed (sendBlocks n chain : Step L Unit)
  | 0, _ => leads_pure _
  | n + 1, chain => by
      unfold sendBlocks
      split
      · exact leads_pure _
      · exact (sendBlock_leads _).bind fun _ => sendBlocks_leads n _

omit [Link L] in
/-- What is sent over in an exchange: nothing is parked, no extra time was granted, and the response
is empty. -/
theorem coincide_forget {s t : Session L} (h : Coincide k s t) :
    Coincide k.cleared.vacant
      { s.resetExchange with response := s.response.clear, commandPending := false }
      { t.resetExchange with response := t.response.clear, commandPending := false } :=
  h.clear_response.settle.vacate.change (fun s => { s with extension := {} }) (fun _ => rfl)
    fun _ => rfl

/-- A command has at least one block, so it is in scope once it is sent. -/
theorem sendChain_leads (command : Bytes) :
    Leads k k.cleared.vacant.staged.unframed k.cleared.vacant.staged.unframed
      (sendChain command : Step L Unit) := by
  refine leads_modify_bind (fun _ _ h => coincide_forget h) fun _ => leads_get_bind (fun _ => rfl)
    fun s => ?_
  dsimp only
  obtain ⟨n, hn⟩ : ∃ n, (Chain.ofPayload s.codec command s.sendSeq).remaining = n + 1 :=
    Nat.exists_eq_add_one.mpr (Nat.le_max_left 1 _)
  obtain ⟨block, rest, hnext⟩ : ∃ block rest,
      (Chain.ofPayload s.codec command s.sendSeq).next? = some (block, rest) := ⟨_, _, rfl⟩
  rw [hn]
  unfold sendBlocks
  rw [hnext]
  dsimp only
  rw [bind_assoc]
  refine (sendBlock_leads block).bind fun _ => (sendBlocks_leads n rest).bind fun _ =>
    leads_modify fun s t h => ?_
  exact {
    outline := congrArg (fun o => { o with commandPending := true }) h.outline
    response := h.response
    parked := h.parked
    status := h.status
    pending := fun _ => rfl }

/-! ## Responses -/

theorem refuse_leads (receipt : Receipt) : Leads k k k (refuse receipt : Step L Unit) :=
  leads_get_bind (fun _ => rfl) fun _ => orCharge_leads (sendControl_leads _)

theorem reject_leads (setback : Setback) (receipt : Receipt) :
    Leads k k k (reject setback receipt : Step L Unit) :=
  (charge_leads setback).bind fun _ => refuse_leads receipt

/-- What was parked is taken from a frame that is in scope. -/
theorem nextBlock_leads {s t : Session L} (hheld : k.Holds) (h : Coincide k s t) :
    Agree nextBlock s nextBlock t (Catches k.vacant.framed k.vacant.unframed) := by
  obtain ⟨response, command, frame, rfl⟩ := h.exists_eq
  have htaken := h.vacate
  unfold nextBlock
  rw [agree_get_bind, agree_set_bind]
  dsimp only
  cases hparked : s.parked with
  | none => exact attempt_caught awaitBlock_leads htaken
  | some received =>
      cases received with
      | error setback => exact ⟨rfl, htaken.unframed⟩
      | ok inbound =>
          have hframe : k.frame = true := hheld inbound (hparked ▸ h.parked)
          have hframed : k.vacant = k.vacant.framed := by
            unfold Scope.framed Scope.vacant
            rw [hframe]
          rw [hframed] at htaken
          exact ⟨rfl, htaken⟩

/-- A payload that lies in both frames goes behind what is in both responses. -/
theorem accept_leads (inbound : Inbound) (more : Bool) :
    Leads k.cleared.framed k.cleared.framed k.cleared.framed
      (accept inbound more : Step L Bool) := by
  intro s t h
  have hframe := h.frame_alike.used
  have hresponse : Buffer.Alike s.response t.response := h.response
  obtain ⟨response, command, frame, rfl⟩ := h.exists_eq
  unfold accept
  rw [agree_get_bind]
  dsimp only at hframe hresponse ⊢
  rw [hframe]
  split
  · exact ⟨rfl, h⟩
  · rename_i payload _
    rcases hresponse.append payload with ⟨overflow, happend, happend'⟩ |
      ⟨longer, longer', happend, happend', hlonger⟩
    · rw [happend, happend']
      exact ⟨rfl, h⟩
    · rw [happend, happend']
      dsimp only
      rw [agree_set_bind]
      have haccepted := (h.withResponse hlonger).settle.change
        (fun s => { s with recvSeq := s.recvSeq.next, retries := 0 }) (fun _ => rfl) fun _ => rfl
      refine Leads.agree ?_ haccepted
      split
      · exact leads_pure _
      · exact (orCharge_leads (sendControl_leads _)).bind fun _ => leads_pure _

/-- How a round of a read ends. Once the response is complete the last block is still in scope. -/
def DealtAlike (k : Scope) :
    Except (Stop Setback) (Unit ⊕ Unit) → Session L → Session L → Prop
  | .ok (.inr _) => Coincide k.framed
  | .ok (.inl _) => Coincide k.unframed
  | .error _ => Coincide k.unframed

theorem reject_dealt_leads (setback : Setback) (receipt : Receipt) {s t : Session L}
    (h : Coincide k.unframed s t) :
    Agree (do reject setback receipt; return .inl ()) s
      (do reject setback receipt; return .inl ()) t (DealtAlike k) :=
  (reject_leads setback receipt s t h).bind (fun _ _ _ h => ⟨rfl, h⟩) fun _ _ _ h => h

theorem dealWith_leads (received : Except Setback Inbound) {s t : Session L}
    (h : Catches k.cleared.framed k.cleared.unframed (.ok received) s t) :
    Agree (dealWith received) s (dealWith received) t (DealtAlike k.cleared) := by
  cases received with
  | error setback => exact reject_dealt_leads setback _ h
  | ok inbound =>
      have hframed : Coincide k.cleared.framed s t := h
      have hunframed := hframed.unframed
      obtain ⟨response, command, frame, rfl⟩ := hframed.exists_eq
      unfold dealWith
      rw [agree_get_bind]
      dsimp only
      split
      · split
        · refine (accept_leads inbound _ _ _ hframed).bind (fun complete s₁ t₁ h₁ => ?_)
            fun _ _ _ h => h.unframed
          split
          · exact ⟨rfl, h₁⟩
          · exact ⟨rfl, h₁.unframed⟩
        · exact reject_dealt_leads _ _ hunframed
      · split
        · rename_i hagain
          have hcommand : k.cleared.unframed.command = true := hunframed.pending hagain.1
          refine (charge_leads _ _ _ hunframed).bind (fun _ s₁ t₁ h₁ => ?_) fun _ _ _ h => h
          exact (orCharge_leads (sendCommand_leads hcommand) s₁ t₁ h₁).bind
            (fun _ _ _ h => ⟨rfl, h⟩) fun _ _ _ h => h
        · exact reject_dealt_leads _ _ hunframed
      · exact reject_dealt_leads _ _ hunframed

/-- **A response is collected from nothing**, and the block that completes it is in scope. -/
theorem receiveResponse_leads (hheld : k.Holds) :
    Leads k k.cleared.vacant.framed k.cleared.lost (receiveResponse : Step L Unit) := by
  refine leads_modify_bind (fun _ _ h => h.clear_response) fun _ =>
    leads_get_bind (fun _ => rfl) fun s => ?_
  intro s t h
  -- the first round may find something parked, the later ones find nothing
  refine agree_loop
    (R := fun s t => Coincide k.cleared s t ∨ Coincide k.cleared.vacant.unframed s t)
    (fun _ s t h => ?_) (fun s t h => ?_) _ () s t (Or.inl h)
  · have hnext : Agree nextBlock s nextBlock t
        (Catches k.cleared.vacant.framed k.cleared.vacant.unframed) := by
      rcases h with h | h
      · exact nextBlock_leads hheld h
      · exact nextBlock_leads (k := k.cleared.vacant.unframed) (fun _ h => absurd h nofun) h
    refine hnext.bind (fun received s₁ t₁ h₁ =>
      (dealWith_leads (k := k.vacant) received h₁).mono ?_)
      fun _ _ _ h => Coincide.lost (k := k.cleared.vacant.unframed) h
    intro r s' t' hr
    match r with
    | .ok (.inl _) => exact Or.inr hr
    | .ok (.inr _) => exact hr
    | .error _ => exact Coincide.lost (k := k.cleared.vacant.unframed) hr
  · rcases h with h | h
    · exact h.lost
    · exact h.lost

/-! ## Supervision -/

theorem supervise_leads (function : Supervisory) :
    Leads k k.framed k.unframed (supervise function : Step L Inbound) := by
  refine leads_modify_bind (fun _ _ h => h.change (fun s => { s with retries := 0 })
    (fun _ => rfl) fun _ => rfl) fun _ => leads_get_bind (fun _ => rfl) fun s => ?_
  have hask : Leads k.unframed k.framed k.unframed (do
      sendControl (s.codec.make (.request function) [])
      awaitBlock : Step L Inbound) :=
    (sendControl_leads _).bind fun _ => awaitBlock_leads (k := k.unframed)
  exact askUntil_leads hask _

theorem resetInterface_leads : Leads k k.framed k.unframed (resetInterface : Step L Unit) := by
  refine (supervise_leads .softReset).bind fun inbound s t h => ?_
  have hframe := h.frame_alike.used
  obtain ⟨response, command, frame, rfl⟩ := h.exists_eq
  rw [agree_get_bind]
  dsimp only at hframe ⊢
  rw [hframe]
  split
  · exact ⟨rfl, h.unframed⟩
  · split
    · rename_i answer _
      exact ⟨rfl, h.change
        (fun s => { s with codec := adoptAnswer s answer, answer := some answer })
        (fun _ => rfl) fun _ => rfl⟩
    · exact ⟨rfl, h.change (fun s => { s with answer := none }) (fun _ => rfl) fun _ => rfl⟩

omit [Link L] in
theorem coincide_resetSequence {s t : Session L} (h : Coincide k s t) :
    Coincide k s.resetSequence t.resetSequence :=
  h.change resetSequence (fun _ => rfl) fun _ => rfl

theorem resynchronise_leads : Leads k k.framed k.unframed (resynchronise : Step L Unit) :=
  (supervise_leads _).bind fun _ => (leads_count _).bind fun _ =>
    leads_modify fun _ _ h => coincide_resetSequence h

theorem renewInterface_leads :
    Leads k k.vacant.framed k.vacant.unframed (renewInterface : Step L Unit) :=
  leads_modify_bind (fun _ _ h => h.settle.vacate.change (fun s => { s with extension := {} })
    (fun _ => rfl) fun _ => rfl) fun _ => resetInterface_leads.bind fun _ =>
      leads_modify fun _ _ h => coincide_resetSequence h

theorem endApplication_leads : Leads k k.framed k.unframed (endApplication : Step L Unit) :=
  (supervise_leads _).bind fun _ => leads_pure _

theorem resyncOnce_leads : Leads k k.unframed k.unframed (resyncOnce : Step L Unit) := by
  refine leads_get_bind (fun _ => rfl) fun _ => (sendControl_leads _).unframed.bind fun _ =>
    (awaitBlock_leads).bind fun inbound => ?_
  split
  · exact (leads_fail _).unframed.mono (fun _ _ h => h.unframed) fun _ _ h => h
  · exact (leads_pure _).mono (fun _ _ h => h.unframed) fun _ _ h => h

end Step

end SecureElement
