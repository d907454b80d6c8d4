import SecureElement.Proofs.Progress
import SecureElement.Proofs.Reopening

/-!
# Nothing is left over

Clearing a buffer zeroes the cells that were in use, and no others. So what a session has
read or sent is only gone for good if no cell was ever written without being counted:
by a read that broke off, a block that did not fit, or an encoder that gave up. That is
how it is (`Reachable.noResidue`), since the buffers of a session are tidy at all times.

Once a response is cleared, then, none of it is left in any cell. Closing and
dropping it clear it, a command clears it before the first block goes out, and a call
that fails goes through recovery, which clears it too. There is one more way to fail: a
session that is not ready refuses. So a session that is not ready must hold no response
(`Vacant`). Every call that comes back leaves it so, and a call that is cut off does too
(`perform_vacates`), unless the count of tries overflows behind a block that was accepted.
`Unbroken` is the run without that, and `Unbroken.vacant` the induction.
-/

namespace SecureElement

namespace Buffer

/-- Every cell behind the contents holds zero. -/
def Clean (b : Buffer) : Prop :=
  ∀ i octet, b.used.length ≤ i → b.cells[i]? = some octet → octet = 0

/-- Nothing of what the buffer ever held is left. -/
def Wiped (b : Buffer) : Prop := b.used = [] ∧ b.cells = Bytes.zeros b.capacity

variable {b : Buffer}

theorem Tidy.spare_eq (h : b.Tidy) : b.spare = Bytes.zeros b.blank := by
  unfold Tidy at h
  rw [spare, h, List.nil_append]

theorem Tidy.clean (h : b.Tidy) : b.Clean := by
  intro i octet hi hoctet
  rw [cells, List.getElem?_append_right hi, h.spare_eq] at hoctet
  exact List.eq_of_mem_replicate (List.mem_of_getElem? hoctet)

theorem Tidy.wiped (h : b.Tidy) (hused : b.used = []) : b.Wiped := by
  refine ⟨hused, ?_⟩
  rw [capacity_eq, cells, hused, List.nil_append, h.spare_eq, Bytes.length_zeros]

end Buffer

open Link SecureElement.Action

namespace Session

variable {L : Type} [Link L] {settings : Settings} {s s' : Session (Traced L)} {α β : Type}

omit [Link L] in
/-- No buffer of the session holds anything behind its contents. -/
structure NoResidue (s : Session (Traced L)) : Prop where
  response : s.response.Clean
  frame : s.frame.Clean
  command : s.command.Clean

omit [Link L] in
/-- A session that refuses exchanges holds no response. -/
def Vacant (s : Session (Traced L)) : Prop := s.status.isReady = false → s.response.used = []

/-! ## What a call leaves of a response -/

omit [Link L] in
/-- A call leaves the session vacant, and without a response if it failed. -/
def Vacates (settings : Settings) (r : Except (Stop Failure) α) (s' : Session (Traced L)) : Prop :=
  match r with
  | .ok _ => s'.Vacant
  | .error (.because _) => s'.response.used = []
  | .error .crashed => counterMax ≤ settings.blockRetransmits ∨ s'.response.used = []
  | .error .stalled => True

omit [Link L] in
theorem Vacates.stop {stop : Stop Failure} (h : Vacates settings (.error stop : Except _ α) s') :
    Vacates settings (.error stop : Except _ β) s' := by
  cases stop <;> exact h

omit [Link L] in
/-- What is returned in the end makes no difference. -/
theorem Vacates.bind {x : Call (Traced L) β} {f : β → Call (Traced L) α}
    (hx : Ensures x s (Vacates settings))
    (hf : ∀ b s₁, s₁.Vacant → Ensures (f b) s₁ (Vacates settings)) :
    Ensures (x >>= f) s (Vacates settings) :=
  Ensures.bind hx hf fun _ _ h => h.stop

/-- A call that runs an exchange. One that is cut off was cut off in the exchange, and what the
exchange had collected by then is lost on it only where the count of tries is full. -/
theorem run_vacates (request : Request) {exchange : Step (Traced L) Unit}
    (hexchange : request.exchange? = some exchange) (hsound : Sound settings s)
    (hvacant : s.Vacant) : Ensures (run exchange) s (Vacates settings) := by
  cases hready : s.status.isReady with
  | false =>
      refine (run_refused hready).mono ?_
      intro r s' hend
      obtain ⟨rfl, failure, rfl, -⟩ := hend
      exact hvacant hready
  | true =>
      refine ensures_run hready (exchange_exchanged (s := s.begun) hexchange hsound.capacity
        (Nat.zero_le _) hsound.parkedOrdinary) ?_ ?_ ?_ ?_
      · intro u s₁ hend
        obtain ⟨⟨-, hstatus, -⟩, -⟩ := hend
        exact ⟨hstatus, nofun⟩
      · intro setback s₁ hend
        obtain ⟨⟨hkeeps, hstatus, -⟩, -⟩ := hend
        refine (recover_spec (s := { s₁ with deadline := none }) setback.failure hstatus
          (hkeeps.holds hsound.capacity)).mono ?_
        intro r s₂ hr
        cases r with
        | ok told =>
            rcases hr with ⟨-, m, vain, last, -, hrestarts, -⟩ | ⟨-, items, hgives, -⟩
            · exact hrestarts.response
            · exact hgives.response
        | error stop =>
            obtain ⟨rfl, -⟩ := hr
            trivial
      · intro s₁ hend
        obtain ⟨⟨hkeeps, -⟩, -, -, hends⟩ := hend
        have hsettings : s₁.settings = settings := hkeeps.settings.trans hsound.settings
        rw [← hsettings]
        exact hends.crashed
      · exact fun _ _ => trivial

/-- Opening touches no response, and there is none to touch. -/
theorem establish_vacates (hsound : Sound settings s) (hvacant : s.Vacant) :
    Ensures establish s (Vacates settings) := by
  have hnone : s.status = .closed → s.response.used = [] :=
    fun hclosed => hvacant (by rw [hclosed]; rfl)
  refine ensures_establish (fun _ => hvacant) (fun hclosed _ _ => hnone hclosed) ?_
  intro hclosed _
  refine (handshake_keeps (s := s.risen) hsound.capacity).mono ?_
  rintro r s₁ ⟨-, -, hstatus, hresponse, -⟩
  have hempty : s₁.response.used = [] := by
    rw [hresponse]
    exact hnone hclosed
  match r with
  | .ok () => exact ⟨hstatus.trans hclosed, nofun⟩
  | .error (.because setback) => exact hempty
  | .error .crashed => exact .inr hempty
  | .error .stalled => trivial

theorem receive_vacates (hsound : Sound settings s) (hvacant : s.Vacant) :
    Ensures receive s (Vacates settings) :=
  Vacates.bind (run_vacates .receive rfl hsound hvacant) fun _ _ h => h

/-- **Every call leaves a session vacant that was so before, and without a response if it failed.**
The only exception is a call that is cut off by a count of tries that is full. -/
theorem perform_vacates (request : Request) (hsound : Sound settings s) (hvacant : s.Vacant) :
    Ensures (perform request) s (Vacates settings) := by
  have hvoid : ∀ {x : Call (Traced L) Unit}, Ensures x s (Vacates settings) →
      Ensures (do x; return none : Call (Traced L) (Option Bytes)) s (Vacates settings) :=
    fun hx => Vacates.bind hx fun _ _ h => h
  cases request with
  | establish => exact hvoid (establish_vacates hsound hvacant)
  | close | dropResponse => exact fun _ => s.response.used_clear
  | send command => exact hvoid (run_vacates (.send command) rfl hsound hvacant)
  | receive => exact Vacates.bind (receive_vacates hsound hvacant) fun _ _ h => h
  | transceive command =>
      refine Vacates.bind (x := transceive command) ?_ fun _ _ h => h
      refine Ensures.bind ((run_vacates (.send command) rfl hsound hvacant).and
        (exchange_sound (.send command) rfl hsound)) ?_ fun _ _ hend => hend.1.stop
      exact fun u s₁ hend => receive_vacates hend.2 hend.1
  | prefetch =>
      refine hvoid ?_
      unfold prefetch
      rw [ensures_get_bind]
      split
      · exact hvacant
      · exact run_vacates .prefetch rfl hsound hvacant
  | resync => exact hvoid (run_vacates .resync rfl hsound hvacant)
  | softReset => exact hvoid (run_vacates .softReset rfl hsound hvacant)
  | endApduSession => exact hvoid (run_vacates .endApduSession rfl hsound hvacant)
  | reset =>
      refine hvoid ?_
      unfold reset
      rw [ensures_get_bind]
      split
      · exact run_vacates .softReset rfl hsound hvacant
      · exact establish_vacates hsound hvacant

/-! ## Every session -/

/-- **No call leaves anything in a cell that is not in use.** -/
theorem Reachable.noResidue (h : Reachable settings s) : s.NoResidue := by
  obtain ⟨_, _, _, hreplaces, -⟩ := h.twins
  exact ⟨hreplaces.pairedResponse.tidy.clean, hreplaces.pairedFrame.tidy.clean,
    hreplaces.pairedCommand.tidy.clean⟩

theorem Reachable.wiped (h : Reachable settings s) (hused : s.response.used = []) :
    s.response.Wiped := by
  obtain ⟨_, _, _, hreplaces, -⟩ := h.twins
  exact hreplaces.pairedResponse.tidy.wiped hused

/-- The sessions that calls can lead to if all of them end, and none is cut off where the settings
allow more tries than can be counted. What was before the session was last closed does not
matter. -/
inductive Unbroken (settings : Settings) : Session (Traced L) → Prop where
  | created {link : Traced L} {s : Session (Traced L)} : new link settings = .ok s →
      Unbroken settings s
  | called {s : Session (Traced L)} (request : Request) : Unbroken settings s →
      (perform request).result s ≠ .error .stalled →
      ((perform request).result s = .error .crashed → settings.blockRetransmits < counterMax) →
      Unbroken settings ((perform request).final s)
  | closed {s : Session (Traced L)} : Reachable settings s →
      Unbroken settings ((perform .close).final s)
  | touched {s : Session (Traced L)} (link : Traced L) :
      Unbroken settings s → Unbroken settings { s with link }

theorem Unbroken.reachable (h : Unbroken settings s) : Reachable settings s := by
  induction h with
  | created hnew => exact .created hnew
  | called request _ _ _ ih => exact .called request ih
  | closed hreachable => exact .called .close hreachable
  | touched link _ ih => exact .touched link ih

/-- **A session that refuses exchanges holds no response**, whatever was done with it. -/
theorem Unbroken.vacant (h : Unbroken settings s) : s.Vacant := by
  induction h with
  | created hnew =>
      obtain ⟨-, rfl⟩ := new_eq_ok hnew
      exact fun _ => rfl
  | @called s request hbefore hended hcut ih =>
      have hvacates := (perform_vacates request hbefore.reachable.sound ih).ends
      generalize (perform request).result s = r at hvacates hended hcut
      match r with
      | .ok answer => exact hvacates
      | .error (.because failure) => exact fun _ => hvacates
      | .error .crashed =>
          exact fun _ => hvacates.resolve_left (Nat.not_le_of_lt (hcut rfl))
      | .error .stalled => exact absurd rfl hended
  | @closed s _ => exact fun _ => s.response.used_clear
  | touched link _ ih => exact ih

/-- Over a link that is true to its backlog every call ends, so with fewer tries than can be counted
every session is unbroken. -/
theorem Reachable.unbroken [Truthful L] (hcount : settings.blockRetransmits < counterMax)
    (h : Reachable settings s) : Unbroken settings s := by
  induction h with
  | created hnew => exact .created hnew
  | called request _ ih => exact .called request ih (perform_ends request _).result fun _ => hcount
  | touched link _ ih => exact .touched link ih

/-- A command that was sent has cleared the response before it. -/
theorem send_clears (command : Bytes) (hsound : Sound settings s) :
    Ensures (send command) s fun r s' =>
      match r with
      | .ok () => s'.response.used = []
      | .error _ => True := by
  refine run_value ((Step.sendChain_spec (s := s.begun) command hsound.capacity).mono ?_)
  intro r s₁ hend
  cases r with
  | ok u =>
      obtain ⟨items, hproceeds, -, -, -, hresponse, -⟩ := hend
      exact ⟨hproceeds.status, hresponse⟩
  | error stop => trivial

/--
**Nothing is left over in the buffers of a session.** In every session that calls can lead
to, and after every further call, each cell of the response, the frame and the command
buffer that is not in use holds zero. So no octet of a response is left in any cell once
it was dropped, the session was closed, or another command was sent. Nor is any left once a
call has failed, whether it ran into a fault or was refused by a session that an earlier
call had left busy, closed or recovering.
-/
theorem no_residue (h : Reachable settings s) (request : Request) :
    let result := (perform request).result s
    let s' := (perform request).final s
    s.NoResidue ∧ s'.NoResidue ∧
      (request = .dropResponse ∨ request = .close → s'.response.Wiped) ∧
      (∀ command answer, request = .send command → result = .ok answer → s'.response.Wiped) ∧
      (Unbroken settings s →
        ∀ failure, result = .error (.because failure) → s'.response.Wiped) := by
  have hcalled := h.called request
  refine ⟨h.noResidue, hcalled.noResidue, fun hrequest => hcalled.wiped ?_, ?_, ?_⟩
  · rcases hrequest with rfl | rfl
    · exact s.response.used_clear
    · exact s.response.used_clear
  · rintro command answer rfl hanswer
    have hclears : Ensures (perform (.send command)) s fun r s' =>
        ∀ answer, r = .ok answer → s'.response.used = [] :=
      (send_clears command h.sound).bind (fun _ _ hused _ _ => hused) fun _ _ _ => nofun
    exact hcalled.wiped (hclears.ends answer hanswer)
  · intro hunbroken failure hfailure
    have hvacates := (perform_vacates request h.sound hunbroken.vacant).ends
    rw [hfailure] at hvacates
    exact hcalled.wiped hvacates

/-- A session that holds a response, and whose element is silent from then on. -/
def collected : Session (Traced Rehearsal) := (perform .receive).final responding

theorem no_residue_collected :
    Reachable rehearsalSettings collected ∧ Unbroken rehearsalSettings collected ∧
      collected.response.used = [0x90, 0] ∧
      (perform .receive).result collected = .error (.because .recoveryExhausted) ∧
      ((perform .receive).final collected).response.Wiped ∧
      ((perform .close).final collected).response.Wiped := by
  have hreachable : Reachable rehearsalSettings collected :=
    .called .receive (.called .establish (rehearse_reachable _))
  have hunbroken : Unbroken rehearsalSettings collected := hreachable.unbroken (by decide)
  have hused : collected.response.used = [0x90, 0] := by decide +kernel
  have hfails : (perform .receive).result collected = .error (.because .recoveryExhausted) := by
    decide +kernel
  obtain ⟨-, -, -, -, hreceived⟩ := no_residue hreachable .receive
  obtain ⟨-, -, hclosed, -⟩ := no_residue hreachable .close
  exact ⟨hreachable, hunbroken, hused, hfails, hreceived hunbroken _ hfails,
    hclosed (Or.inr rfl)⟩

end Session

end SecureElement
