import SecureElement.Proofs.Foresight
import SecureElement.Proofs.OutlineRuns

/-!
# Old exchanges do not influence new ones

Between two calls a session is `Interchangeable` with another if the two differ in what is
left over from earlier exchanges only: in the response, in the retry counter and the
deadline, in a command that nobody may ask for again, and in a frame in which nothing is
parked. Whatever is called then, the two do the same to the link and come to the same
(`leftovers`).

A call sets the retry counter and the deadline anew, and its exchange brings everything else
that it looks at into scope. What is parked is shown from the start on; a call that fails
drops it, because the frame is not known any more.
-/

namespace SecureElement

open Link SecureElement.Action Session

namespace Session

/-! ## Between calls -/

section Interchangeable

variable {L : Type} {s t : Session L} {k : Scope} {ρ : Buffer → Buffer → Prop}

/-- Two sessions that differ in leftovers only. -/
structure Interchangeable (s t : Session L) : Prop where
  link : t.link = s.link
  settings : t.settings = s.settings
  codec : t.codec = s.codec
  status : t.status = s.status
  sendSeq : t.sendSeq = s.sendSeq
  recvSeq : t.recvSeq = s.recvSeq
  extension : t.extension = s.extension
  answer : t.answer = s.answer
  statistics : t.statistics = s.statistics
  commandPending : t.commandPending = s.commandPending
  parked : t.parked = s.parked
  responseCapacity : t.response.capacity = s.response.capacity
  commandCapacity : t.command.capacity = s.command.capacity
  frameCapacity : t.frame.capacity = s.frame.capacity
  /-- A command that the peer may ask for again is in both. -/
  command : s.commandPending = true → t.command.used = s.command.used
  /-- A block that was parked for the next read is in both. -/
  frame : s.status.isReady = true → ∀ inbound, s.parked = some (.ok inbound) →
    t.frame.used = s.frame.used

theorem Interchangeable.refl (s : Session L) : Interchangeable s s where
  link := rfl
  settings := rfl
  codec := rfl
  status := rfl
  sendSeq := rfl
  recvSeq := rfl
  extension := rfl
  answer := rfl
  statistics := rfl
  commandPending := rfl
  parked := rfl
  responseCapacity := rfl
  commandCapacity := rfl
  frameCapacity := rfl
  command := fun _ => rfl
  frame := fun _ _ _ => rfl

/-- The same, and the responses are related in some way. -/
structure Rests (ρ : Buffer → Buffer → Prop) (s t : Session L) : Prop extends
    Interchangeable s t where
  response : ρ s.response t.response

theorem Coincide.rests (h : Coincide k s t) (hheld : s.status.isReady = true → k.Holds) :
    Rests k.response s t where
  link := h.congr Session.link fun _ => rfl
  settings := h.congr Session.settings fun _ => rfl
  codec := h.congr Session.codec fun _ => rfl
  status := h.congr Session.status fun _ => rfl
  sendSeq := h.congr Session.sendSeq fun _ => rfl
  recvSeq := h.congr Session.recvSeq fun _ => rfl
  extension := h.congr Session.extension fun _ => rfl
  answer := h.congr Session.answer fun _ => rfl
  statistics := h.congr Session.statistics fun _ => rfl
  commandPending := h.congr Session.commandPending fun _ => rfl
  parked := h.congr Session.parked fun _ => rfl
  responseCapacity := h.response_capacity
  commandCapacity := h.command_capacity
  frameCapacity := h.frame_capacity
  command := fun hpending => h.command_used (h.pending hpending)
  frame := fun hready inbound hparked => by
    have hframe : k.frame = true := hheld hready inbound (hparked ▸ h.parked)
    exact h.congr (fun s => s.frame.used) fun _ => by rw [hframe]; rfl
  response := h.response

/-- Whether there is something in the frame that the next read takes out. -/
def holdsBlock (s : Session L) : Bool :=
  match s.parked with
  | some (.ok _) => s.status.isReady
  | _ => false

/-- What two sessions have in common between calls, seen from one of them. -/
def openingScope (ρ : Buffer → Buffer → Prop) (s : Session L) : Scope where
  response := ρ
  command := s.commandPending
  frame := s.holdsBlock
  parked := fun parked => parked = s.parked
  status := s.status

theorem openingScope_holds (hready : s.status.isReady = true) : (openingScope ρ s).Holds := by
  intro inbound hparked
  show s.holdsBlock = true
  unfold holdsBlock
  rw [show s.parked = some (.ok inbound) from hparked.symm]
  exact hready

/-- Once the retry counter and the deadline are set anew, the two coincide. -/
theorem Rests.coincide (h : Rests ρ s t) (retries : Nat) (deadline : Option Nanos) :
    Coincide (openingScope ρ s) { s with retries, deadline } { t with retries, deadline } where
  outline := by
    have hframe : t.frame.outline s.holdsBlock = s.frame.outline s.holdsBlock := by
      refine Buffer.outline_eq_iff.mpr ⟨h.frameCapacity, fun hheld => ?_⟩
      unfold holdsBlock at hheld
      split at hheld
      · rename_i inbound hparked
        exact h.frame hheld inbound hparked
      · exact absurd hheld Bool.false_ne_true
    have hcommand : t.command.outline s.commandPending = s.command.outline s.commandPending :=
      Buffer.outline_eq_iff.mpr ⟨h.commandCapacity, h.command⟩
    have hresponse : t.response.outline false = s.response.outline false :=
      Buffer.outline_eq_iff.mpr ⟨h.responseCapacity, nofun⟩
    simp only [outline, openingScope, hframe, hcommand, hresponse, h.link, h.settings, h.codec,
      h.status, h.sendSeq, h.recvSeq, h.extension, h.answer, h.statistics, h.commandPending,
      h.parked]
  response := h.response
  parked := rfl
  status := rfl
  pending := id

end Interchangeable

/-! ## Exchanges inside a call -/

section Settled

variable {L α : Type} {s t : Session L} {k k₁ kf : Scope} {ρ : Buffer → Buffer → Prop}

/-- How an exchange ends: the responses are related in the given way, and after a value a block that
is parked is in scope. -/
def Settled (ρ : Buffer → Buffer → Prop) (r : Except (Stop Setback) α) (s t : Session L) : Prop :=
  ∃ k : Scope, k.response = ρ ∧ k.status = .busy ∧ ((∃ a, r = .ok a) → k.Holds) ∧ Coincide k s t

/-- The exchange settles, from every scope in which what is parked is shown. -/
def Settles (ρ ρ' : Buffer → Buffer → Prop) (exchange : Step L α) : Prop :=
  ∀ k : Scope, k.response = ρ → k.status = .busy → k.Holds → ∀ s t, Coincide k s t →
    Agree exchange s exchange t (Settled ρ')

theorem settled_of_leads {exchange : Step L α} {ρ' : Buffer → Buffer → Prop}
    (h : Leads k k₁ kf exchange) (hvalue : k₁.response = ρ' ∧ k₁.status = .busy ∧ k₁.Holds)
    (hfault : kf.response = ρ' ∧ kf.status = .busy) (hs : Coincide k s t) :
    Agree exchange s exchange t (Settled ρ') :=
  (h s t hs).mono fun r s' t' hr => by
    cases r with
    | ok a => exact ⟨k₁, hvalue.1, hvalue.2.1, fun _ => hvalue.2.2, hr⟩
    | error stop => exact ⟨kf, hfault.1, hfault.2, fun hok => absurd hok.choose_spec nofun, hr⟩

/-- Nothing is parked, so nothing has to be shown. -/
theorem vacant_holds (k : Scope) : k.vacant.Holds := fun _ hparked => absurd hparked nofun

theorem framed_holds (k : Scope) : k.framed.Holds := fun _ _ => rfl

variable [Link L]

theorem sendChain_settles (command : Bytes) :
    Settles ρ Buffer.Alike (Step.sendChain command : Step L Unit) := fun k _ hstatus _ _ _ h =>
  settled_of_leads (Step.sendChain_leads command)
    ⟨rfl, hstatus, vacant_holds k.cleared.staged.unframed⟩ ⟨rfl, hstatus⟩ h

theorem receiveResponse_settles :
    Settles ρ Buffer.Alike (Step.receiveResponse : Step L Unit) := fun k _ hstatus hheld _ _ h =>
  settled_of_leads (Step.receiveResponse_leads hheld)
    ⟨rfl, hstatus, framed_holds k.cleared.vacant⟩ ⟨rfl, hstatus⟩ h

theorem resynchronise_settles : Settles ρ ρ (Step.resynchronise : Step L Unit) :=
  fun k hresponse hstatus _ _ _ h =>
    settled_of_leads Step.resynchronise_leads ⟨hresponse, hstatus, framed_holds k⟩
      ⟨hresponse, hstatus⟩ h

theorem renewInterface_settles : Settles ρ ρ (Step.renewInterface : Step L Unit) :=
  fun k hresponse hstatus _ _ _ h =>
    settled_of_leads Step.renewInterface_leads ⟨hresponse, hstatus, framed_holds k.vacant⟩
      ⟨hresponse, hstatus⟩ h

theorem endApplication_settles : Settles ρ ρ (Step.endApplication : Step L Unit) :=
  fun k hresponse hstatus _ _ _ h =>
    settled_of_leads Step.endApplication_leads ⟨hresponse, hstatus, framed_holds k⟩
      ⟨hresponse, hstatus⟩ h

/-- The scope in which something certain is parked. -/
def Scope.parking (k : Scope) (received : Except Setback Inbound) : Scope :=
  { k with parked := fun parked => parked = some received }

omit [Link L] in
theorem Coincide.park (h : Coincide k s t) (received : Except Setback Inbound) :
    Coincide (k.parking received)
      { s with parked := some received } { t with parked := some received } where
  outline := congrArg (fun o => { o with parked := some received }) h.outline
  response := h.response
  parked := rfl
  status := h.status
  pending := h.pending

/-- A block that is parked was received, and is in scope. A fault that is parked needs no frame. -/
theorem park_settles : Settles ρ ρ (Step.park : Step L Unit) := by
  intro k hresponse hstatus _ s t h
  have hfailed : ∀ {stop : Stop Setback} {s t : Session L}, Coincide k.unframed s t →
      Settled (α := Unit) ρ (.error stop) s t := fun h =>
    ⟨k.unframed, hresponse, hstatus, fun hok => absurd hok.choose_spec nofun, h⟩
  refine (Step.attempt_caught Step.awaitBlock_leads h).bind (fun received s₁ t₁ h₁ => ?_)
    fun _ _ _ h₁ => hfailed h₁
  match received with
  | .ok inbound =>
      exact ⟨rfl, k.framed.parking _, hresponse, hstatus, fun _ _ _ => rfl, Coincide.park h₁ _⟩
  | .error (.minor failure) =>
      refine ⟨rfl, k.unframed.parking _, hresponse, hstatus, fun _ inbound hparked => ?_,
        Coincide.park h₁ _⟩
      exact absurd (Option.some.inj hparked) nofun
  | .error (.major failure) => exact ⟨rfl, hfailed h₁⟩

/-! ## Recovery -/

theorem resyncAttempts_leads : ∀ n : Nat,
    Leads k.unframed k.unframed k.unframed (resyncAttempts n : Call L Bool)
  | 0 => leads_pure _
  | n + 1 => fun s t h => Step.agree_conclude (Step.resyncOnce_leads s t h)
      (fun _ _ _ h => ⟨rfl, h⟩) (fun _ _ _ h => resyncAttempts_leads n _ _ h) (fun _ _ h => h)
      fun _ _ h => h

/-- Recovery clears the response and drops what was parked. -/
theorem recover_rests (failure : Failure) (hbusy : k.status = .busy) (h : Coincide k s t) :
    Agree (recover failure) s (recover failure) t fun _ => Rests Buffer.Alike := by
  have hstatus : s.status = .busy := h.status.trans hbusy
  have hopen : ¬ (!s.status.isOpen) = true := by rw [hstatus]; exact Bool.false_ne_true
  have hallowed : s.status.allows .recovering = true := by rw [hstatus]; rfl
  obtain ⟨response, command, frame, rfl⟩ := h.exists_eq
  let recovering : Scope := { k.cleared.vacant.unframed with status := .recovering }
  have hrests : ∀ (status : Status) (s t : Session L),
      Coincide { recovering with status } s t → Rests Buffer.Alike s t := fun status s t h =>
    h.rests fun _ => vacant_holds { recovering with status }
  have hstart := ((Step.coincide_forget (h.withStatus .recovering)).change
    (fun s => { s with deadline := none }) (fun _ => rfl) fun _ => rfl).unframed
  unfold recover
  rw [agree_get_bind, if_neg hopen,
    agree_moveTo_bind hallowed (t := { s with response, command, frame }) hallowed,
    agree_modify_bind, agree_get_bind]
  refine (resyncAttempts_leads (k := recovering) _ _ _ hstart).bind ?_ fun _ _ _ h =>
    hrests .recovering _ _ h
  intro succeeded s₁ t₁ h₁
  split
  · have hidle : Leads recovering { recovering with status := .idle } recovering (do
        Action.count fun c => { c with resyncs := c.resyncs + 1 }
        modify resetSequence
        Action.moveTo .idle
        return failure : Call L Failure) :=
      (leads_count _).bind fun _ => leads_modify_bind
        (fun _ _ h => Step.coincide_resetSequence h) fun _ =>
          (leads_moveTo rfl).bind fun _ => leads_pure _
    exact (hidle _ _ h₁).mono fun r _ _ hr => by
      cases r with
      | ok told => exact hrests .idle _ _ hr
      | error stop => exact hrests .recovering _ _ hr
  · have hclosed : Leads recovering { recovering with status := .closed } recovering (do
        modify fun s => { s with link := Link.release s.link }
        Action.moveTo .closed
        return .recoveryExhausted : Call L Failure) :=
      leads_modify_bind (fun _ _ h => h.change (fun s => { s with link := Link.release s.link })
        (fun _ => rfl) fun _ => rfl) fun _ => (leads_moveTo rfl).bind fun _ => leads_pure _
    exact (hclosed _ _ h₁).mono fun r _ _ hr => by
      cases r with
      | ok told => exact hrests .closed _ _ hr
      | error stop => exact hrests .recovering _ _ hr

end Settled

/-! ## Calls -/

section Calls

variable {L α β : Type} [Link L] {s t : Session (Traced L)} {ρ ρ' : Buffer → Buffer → Prop}

/-- How a call ends: the responses are alike, or the call did not clear them and they are related as
before. -/
def LeftBy (clears : Except (Stop Failure) α → Prop) (ρ : Buffer → Buffer → Prop)
    (r : Except (Stop Failure) α) (s t : Session (Traced L)) : Prop :=
  Rests Buffer.Alike s t ∨ (¬ clears r ∧ Rests ρ s t)

theorem Rests.coincide_begun (h : Rests ρ s t) :
    Coincide { openingScope ρ s with status := .busy } s.begun t.begun := by
  have hdeadline : t.deadlineFromNow = s.deadlineFromNow := by
    unfold deadlineFromNow
    rw [h.link, h.settings]
  have hbusy := (h.coincide 0 s.deadlineFromNow).withStatus .busy
  unfold begun
  rw [hdeadline]
  exact hbusy

/-- A session that is not ready runs no exchange. -/
theorem run_refused_both {exchange : Step (Traced L) α} (hstatus : t.status = s.status)
    (hready : ¬ s.status.isReady = true) : Refused (run exchange) s t := by
  refine Refused.bind ?_
  unfold Refused begin
  rw [agree_get_bind, hstatus]
  split
  · exact ⟨rfl, ⟨_, rfl⟩, rfl, rfl⟩
  · exact ⟨rfl, ⟨_, rfl⟩, rfl, rfl⟩
  · exact ⟨rfl, ⟨_, rfl⟩, rfl, rfl⟩
  · rename_i hopened
    exact absurd (by rw [hopened]; rfl) hready
  · rename_i hidle
    exact absurd (by rw [hidle]; rfl) hready

/-- **A call on a ready session.** If it fails and the session recovers, the responses are cleared;
otherwise they are what the exchange has left. -/
theorem run_rests {exchange : Step (Traced L) α} (hexchange : Settles ρ ρ' exchange)
    (hready : s.status.isReady = true) (h : Rests ρ s t) :
    Agree (run exchange) s (run exchange) t
      (LeftBy (fun r => ∃ failure, r = .error (.because failure)) ρ') := by
  have hready' : t.status.isReady = true := h.status ▸ hready
  have hbegun := hexchange { openingScope ρ s with status := .busy } rfl rfl
    (openingScope_holds (ρ := ρ) hready) _ _ h.coincide_begun
  refine agree_run hready hready' hbegun ?_ ?_ ?_ ?_
  · intro a s₁ t₁ ⟨k, hresponse, hbusy, hheld, h₁⟩
    have hstatus : s₁.status = .busy := h₁.status.trans hbusy
    refine ⟨hstatus, (h₁.congr Session.status fun _ => rfl).trans hstatus, Or.inr ⟨nofun, ?_⟩⟩
    have hidle := (h₁.change (fun s => { s with deadline := none }) (fun _ => rfl)
      fun _ => rfl).withStatus .idle
    rw [← hresponse]
    exact hidle.rests fun _ => hheld ⟨a, rfl⟩
  · intro setback s₁ t₁ ⟨k, _, hbusy, _, h₁⟩
    have hlate := h₁.change (fun s => { s with deadline := none }) (fun _ => rfl) fun _ => rfl
    refine (recover_rests setback.failure hbusy hlate).mono fun r _ _ hrests => ?_
    cases r with
    | ok told => exact Or.inl hrests
    | error stop => exact Or.inl hrests
  · intro s₁ t₁ ⟨k, hresponse, hbusy, _, h₁⟩
    refine Or.inr ⟨nofun, ?_⟩
    rw [← hresponse]
    exact h₁.rests fun hready => absurd hready (by rw [h₁.status, hbusy]; exact Bool.false_ne_true)
  · intro s₁ t₁ ⟨k, hresponse, hbusy, _, h₁⟩
    refine Or.inr ⟨nofun, ?_⟩
    rw [← hresponse]
    exact h₁.rests fun hready => absurd hready (by rw [h₁.status, hbusy]; exact Bool.false_ne_true)

omit [Link L] in
/-- A call that is not ready for its exchange changes nothing. -/
theorem Refused.rests {x : Call (Traced L) α} {clears : Except (Stop Failure) α → Prop}
    (hrefused : Refused x s t) (hkept : ∀ r, ¬ clears r) (h : Rests ρ s t) :
    Agree x s x t (LeftBy clears ρ) :=
  hrefused.mono fun r _ _ ⟨_, hs, ht⟩ => Or.inr ⟨hkept r, by rw [hs, ht]; exact h⟩

omit [Link L] in
/-- What a call makes of the value of another, without a change. -/
theorem LeftBy.mapped {x : Call (Traced L) β} {f : β → α}
    {clears : Except (Stop Failure) α → Prop} {clears' : Except (Stop Failure) β → Prop}
    (h : Agree x s x t (LeftBy clears' ρ)) (hvalue : ∀ b, clears (.ok (f b)) → clears' (.ok b))
    (hfault : ∀ stop, clears (.error stop) → clears' (.error stop)) :
    Agree (do return f (← x)) s (do return f (← x)) t (LeftBy clears ρ) :=
  h.bind (fun b _ _ hleft => ⟨rfl, hleft.imp_right fun hkept =>
    ⟨fun hclears => hkept.1 (hvalue b hclears), hkept.2⟩⟩) fun stop _ _ hleft =>
      hleft.imp_right fun hkept => ⟨fun hclears => hkept.1 (hfault stop hclears), hkept.2⟩

/-- The exchange that opens a session, from where it gets its deadline. -/
theorem handshake_leads {k : Scope} (hdeadline : t.deadlineFromNow = s.deadlineFromNow)
    (h : Coincide k { s with deadline := s.deadlineFromNow }
      { t with deadline := s.deadlineFromNow }) :
    Agree handshake s handshake t (Reaches k.framed k.unframed) := by
  unfold handshake
  rw [agree_modify_bind, hdeadline]
  refine leads_get_bind (fun _ => rfl) (fun s => ?_) _ _ h
  split
  · exact Step.resetInterface_leads
  · exact (Step.supervise_leads _).bind fun _ => leads_pure _

/-- Opening starts over with everything that it looks at. -/
theorem establish_rests (h : Rests ρ s t) : Agree establish s establish t fun _ => Rests ρ := by
  unfold establish
  rw [agree_get_bind, h.status]
  split
  · exact ⟨rfl, h⟩
  · rename_i hopen
    have hclosed : s.status = .closed := Status.not_isOpen_iff.mp hopen
    rw [agree_onLink_bind, h.link]
    have hraised : Rests ρ { s with link := (Link.bringUp s.link).2 }
        { t with link := (Link.bringUp s.link).2 } := { h with link := rfl }
    generalize Link.bringUp s.link = result at hraised
    obtain ⟨outcome, link⟩ := result
    cases outcome with
    | error fault => exact ⟨rfl, hraised⟩
    | ok u =>
        dsimp only at hraised ⊢
        rw [agree_modify_bind]
        let k : Scope := (openingScope ρ s).vacant
        have hallowed : k.framed.status.allows .opened = true := by
          show s.status.allows .opened = true
          rw [hclosed]
          rfl
        have hstart : ∀ deadline, Coincide k { afresh { s with link } with deadline }
            { afresh { t with link } with deadline } := fun deadline =>
          (hraised.coincide 0 deadline).vacate.change (fun s => { s with
            sendSeq := .zero, recvSeq := .zero, extension := {}
            codec := s.settings.codec, answer := none }) (fun _ => rfl) fun _ => rfl
        have hdeadline : (afresh { t with link }).deadlineFromNow
            = (afresh { s with link }).deadlineFromNow := by
          unfold deadlineFromNow afresh
          dsimp only [resetSequence, resetExchange]
          rw [h.settings]
        refine Step.agree_conclude (handshake_leads hdeadline (hstart _)) ?_ ?_ ?_ ?_
        · intro _ s₁ t₁ h₁
          have hopened : Leads k.framed { k.framed with status := .opened } k.framed (do
              modify fun s => { s with deadline := none }
              Action.moveTo .opened : Call (Traced L) Unit) :=
            leads_modify_bind (fun _ _ h => h.change (fun s => { s with deadline := none })
              (fun _ => rfl) fun _ => rfl) fun _ => leads_moveTo hallowed
          refine (hopened _ _ h₁).mono fun r _ _ hr => ?_
          cases r with
          | ok u => exact Coincide.rests hr fun _ => framed_holds _
          | error stop => exact Coincide.rests hr fun _ => framed_holds _
        · intro setback s₁ t₁ h₁
          have hgone := Coincide.change (k := k.unframed) h₁
            (fun s => { s with link := Link.release s.link, deadline := none })
            (fun _ => rfl) fun _ => rfl
          rw [agree_modify_bind]
          exact ⟨rfl, hgone.rests fun _ => vacant_holds k.unframed⟩
        · exact fun _ _ h₁ => Coincide.rests (k := k.unframed) h₁ fun _ => vacant_holds k.unframed
        · exact fun _ _ h₁ => Coincide.rests (k := k.unframed) h₁ fun _ => vacant_holds k.unframed

/-- A call whose exchange clears the response. -/
theorem run_alike {exchange : Step (Traced L) α} (hexchange : Settles ρ Buffer.Alike exchange)
    (hready : s.status.isReady = true) (h : Rests ρ s t) :
    Agree (run exchange) s (run exchange) t fun _ => Rests Buffer.Alike :=
  (run_rests hexchange hready h).mono fun _ _ _ hleft => hleft.elim id And.right

theorem run_clears {exchange : Step (Traced L) α} (hexchange : Settles ρ Buffer.Alike exchange)
    (h : Rests ρ s t) :
    Agree (run exchange) s (run exchange) t (LeftBy (fun _ => s.status.isReady = true) ρ) := by
  by_cases hready : s.status.isReady = true
  · exact (run_alike hexchange hready h).mono fun _ _ _ => Or.inl
  · exact (run_refused_both h.status hready).rests (fun _ => hready) h

/-- A call whose exchange leaves the response alone. -/
theorem run_spares {exchange : Step (Traced L) α} (hexchange : Settles ρ ρ exchange)
    (h : Rests ρ s t) :
    Agree (run exchange) s (run exchange) t (LeftBy
      (fun r => s.status.isReady = true ∧ ∃ failure, r = .error (.because failure)) ρ) := by
  by_cases hready : s.status.isReady = true
  · exact (run_rests hexchange hready h).mono fun _ _ _ hleft =>
      hleft.imp_right fun hkept => ⟨fun hclears => hkept.1 hclears.2, hkept.2⟩
  · exact (run_refused_both h.status hready).rests (fun _ hclears => hready hclears.1) h

/-- The response is read off what was collected in both. -/
theorem receive_rests (h : Rests ρ s t) :
    Agree receive s receive t (LeftBy (fun _ => s.status.isReady = true) ρ) := by
  by_cases hready : s.status.isReady = true
  · refine (run_alike receiveResponse_settles hready h).bind (fun _ s₁ t₁ h₁ => ?_)
      fun _ _ _ => Or.inl
    have hbytes : t₁.responseBytes = s₁.responseBytes := h₁.response.used
    rw [agree_get_bind, hbytes]
    exact ⟨rfl, Or.inl h₁⟩
  · exact (run_refused_both h.status hready).bind.rests (fun _ => hready) h

theorem transceive_rests (command : Bytes) (h : Rests ρ s t) :
    Agree (transceive command) s (transceive command) t
      (LeftBy (fun _ => s.status.isReady = true) ρ) := by
  by_cases hready : s.status.isReady = true
  · refine (run_alike (sendChain_settles command) hready h).bind (fun _ s₁ t₁ h₁ => ?_)
      fun _ _ _ => Or.inl
    exact (receive_rests h₁).mono fun _ _ _ hleft => Or.inl (hleft.elim id And.right)
  · exact (run_refused_both h.status hready).bind.rests (fun _ => hready) h

theorem Rests.close (h : Rests ρ s t) : Rests Buffer.Alike s.close t.close :=
  have halike := Buffer.alike_clear h.responseCapacity
  { h with
    link := by
      unfold Session.close
      rw [h.status, h.link]
    status := rfl
    extension := rfl
    commandPending := rfl
    parked := rfl
    responseCapacity := halike.capacity
    command := nofun
    frame := nofun
    response := halike }

omit [Link L] in
/-- What is forgotten makes no difference, unless it was parked. -/
theorem Interchangeable.dropResponse (h : Interchangeable s t) (hparked : s.parked = none) :
    Interchangeable s t.dropResponse :=
  { h with
    parked := hparked.symm
    responseCapacity := (Buffer.capacity_clear _).trans h.responseCapacity }

omit [Link L] in
theorem Rests.dropResponse (h : Rests ρ s t) :
    Rests Buffer.Alike s.dropResponse t.dropResponse :=
  have halike := Buffer.alike_clear h.responseCapacity
  { h with
    parked := rfl
    responseCapacity := halike.capacity
    frame := fun _ _ hparked => absurd hparked nofun
    response := halike }

/-- The calls that clear the response, told from the session before the call and from the result. -/
def Clears (s : Session (Traced L)) :
    Request → Except (Stop Failure) (Option Bytes) → Prop
  | .close, _ | .dropResponse, _ => True
  | .send _, _ | .receive, _ | .transceive _, _ => s.status.isReady = true
  | _, result => s.status.isReady = true ∧ ∃ failure, result = .error (.because failure)

/-- **Every call comes to the same in two sessions that are interchangeable**, and leaves them
interchangeable. -/
theorem perform_rests (request : Request) (h : Rests ρ s t) :
    Agree (perform request) s (perform request) t (LeftBy (Clears s request) ρ) := by
  have hspared : ∀ {x : Call (Traced L) Unit} {request : Request},
      Agree x s x t (LeftBy
        (fun r => s.status.isReady = true ∧ ∃ failure, r = .error (.because failure)) ρ) →
      (∀ r, Clears s request r →
        s.status.isReady = true ∧ ∃ failure, r = .error (.because failure)) →
      Agree (do x; return none) s (do x; return none) t (LeftBy (Clears s request) ρ) :=
    fun hx hclears => LeftBy.mapped (f := fun _ => none) hx
      (fun _ hnone => absurd (hclears _ hnone).2.choose_spec nofun)
      fun stop hstop => by
        obtain ⟨hready, failure, hfailure⟩ := hclears _ hstop
        exact ⟨hready, failure, by rw [Except.error.inj hfailure]⟩
  have hestablish : Agree establish s establish t (LeftBy
      (fun r => s.status.isReady = true ∧ ∃ failure, r = .error (.because failure)) ρ) := by
    by_cases hready : s.status.isReady = true
    · unfold establish
      rw [agree_get_bind, h.status, if_pos (Status.isOpen_of_isReady hready)]
      exact ⟨rfl, Or.inr ⟨fun hclears => absurd hclears.2.choose_spec nofun, h⟩⟩
    · exact (establish_rests h).mono fun _ _ _ hrests =>
        Or.inr ⟨fun hclears => hready hclears.1, hrests⟩
  cases request with
  | establish => exact hspared hestablish fun _ => id
  | close => exact ⟨rfl, Or.inl h.close⟩
  | send command =>
      have hcleared := run_clears (sendChain_settles command) h
      exact LeftBy.mapped hcleared (fun _ => id) fun _ => id
  | receive => exact LeftBy.mapped (receive_rests h) (fun _ => id) fun _ => id
  | transceive command => exact LeftBy.mapped (transceive_rests command h) (fun _ => id) fun _ => id
  | prefetch =>
      refine hspared ?_ fun _ => id
      unfold prefetch
      rw [agree_get_bind, h.parked]
      split
      · exact ⟨rfl, Or.inr ⟨fun hclears => absurd hclears.2.choose_spec nofun, h⟩⟩
      · exact run_spares park_settles h
  | resync => exact hspared (run_spares resynchronise_settles h) fun _ => id
  | softReset => exact hspared (run_spares renewInterface_settles h) fun _ => id
  | endApduSession => exact hspared (run_spares endApplication_settles h) fun _ => id
  | reset =>
      refine hspared ?_ fun _ => id
      unfold reset
      rw [agree_get_bind, h.status]
      split
      · exact run_spares renewInterface_settles h
      · exact hestablish
  | dropResponse => exact ⟨rfl, Or.inl h.dropResponse⟩

/-! ## Rows of calls -/

/-- The session that a row of calls leaves behind. -/
def performed : List Request → Session (Traced L) → Session (Traced L)
  | [], s => s
  | request :: requests, s => performed requests ((perform request).final s)

/-- One of the calls clears the response. -/
def Cleared : List Request → Session (Traced L) → Prop
  | [], _ => False
  | request :: requests, s =>
    Clears s request ((perform request).result s) ∨ Cleared requests ((perform request).final s)

/-- A call came to the same on both sessions, and they are still interchangeable. The link tells all
calls that were made on it, with what came of them. -/
structure SameOutcome (a b : Except (Stop Failure) (Option Bytes) × Session (Traced L)) : Prop
    extends Interchangeable a.2 b.2 where
  result : b.1 = a.1

theorem performAll_rests (requests : List Request) : ∀ s t : Session (Traced L), Rests ρ s t →
    List.Forall₂ SameOutcome (performAll requests s) (performAll requests t) ∧
      (Rests Buffer.Alike (performed requests s) (performed requests t) ∨
        (¬ Cleared requests s ∧ Rests ρ (performed requests s) (performed requests t))) := by
  induction requests generalizing ρ with
  | nil => exact fun s t h => ⟨.nil, Or.inr ⟨id, h⟩⟩
  | cons request requests ih =>
      intro s t h
      obtain ⟨hresult, hleft⟩ := (perform_rests request h).outcome
      rcases hleft with halike | ⟨hspared, hrests⟩
      · obtain ⟨hcalls, hend⟩ := ih _ _ halike
        exact ⟨.cons ⟨halike.toInterchangeable, hresult⟩ hcalls, Or.inl (hend.elim id And.right)⟩
      · obtain ⟨hcalls, hend⟩ := ih _ _ hrests
        refine ⟨.cons ⟨hrests.toInterchangeable, hresult⟩ hcalls, hend.imp_right fun hkept => ?_⟩
        exact ⟨fun hcleared => hcleared.elim hspared hkept.1, hkept.2⟩

/-- One call after the other, each with so many more calls before it that forget the response. -/
def performDropping : List (Nat × Request) → Session (Traced L) →
    List (Except (Stop Failure) (Option Bytes) × Session (Traced L))
  | [], _ => []
  | (n, request) :: calls, s =>
    let dropped := ((perform .dropResponse).final)^[n] s
    ((perform request).result dropped, (perform request).final dropped)
      :: performDropping calls ((perform request).final dropped)

/-- Nothing is parked wherever the response is to be forgotten. -/
def DropsVacant : List (Nat × Request) → Session (Traced L) → Prop
  | [], _ => True
  | (n, request) :: calls, s =>
    (n = 0 ∨ s.parked = none) ∧ DropsVacant calls ((perform request).final s)

theorem performDropping_interchangeable (calls : List (Nat × Request)) :
    ∀ s t : Session (Traced L), Interchangeable s t → DropsVacant calls s →
      List.Forall₂ SameOutcome (performAll (calls.map Prod.snd) s) (performDropping calls t) := by
  induction calls with
  | nil => exact fun _ _ _ _ => .nil
  | cons call calls ih =>
      obtain ⟨n, request⟩ := call
      intro s t h hvacant
      obtain ⟨hdrops, hvacant⟩ := hvacant
      have hdropped : Interchangeable s (((perform .dropResponse).final)^[n] t) := by
        rcases hdrops with rfl | hparked
        · exact h
        · exact Function.Iterate.rec (fun t => Interchangeable s t) h
            (fun _ h => h.dropResponse hparked) n
      have hrests : Rests (fun _ _ => True) s (((perform .dropResponse).final)^[n] t) :=
        { hdropped with response := trivial }
      obtain ⟨hresult, hleft⟩ := (perform_rests request hrests).outcome
      have hend := hleft.elim Rests.toInterchangeable fun hkept => hkept.2.toInterchangeable
      exact .cons ⟨hend, hresult⟩ (ih _ _ hend hvacant)

/-! ## Main results -/

/--
**Old exchanges do not influence new ones.** Two sessions may differ in their responses,
their retry counters and deadlines, in a frame in which nothing is parked, in a command that
nobody may ask for again, and in every cell that is not in use. Whatever is called then, the
two make the same calls on the link with the same arguments, come to the same results and
show the same status. Their responses differ only until one of the calls clears them, and as
long as they differ each is what it was.

So it makes no difference how often a response is forgotten while nothing is parked.
-/
theorem leftovers (h : Interchangeable s t) (requests : List Request) :
    List.Forall₂ SameOutcome (performAll requests s) (performAll requests t)
    ∧ (Cleared requests s →
        (performed requests t).responseBytes = (performed requests s).responseBytes)
    ∧ ((performed requests t).responseBytes = (performed requests s).responseBytes
        ∨ ((performed requests s).response = s.response
          ∧ (performed requests t).response = t.response))
    ∧ ∀ calls : List (Nat × Request), DropsVacant calls s →
        List.Forall₂ SameOutcome (performAll (calls.map Prod.snd) s) (performDropping calls s) := by
  have hrests : Rests (fun b b' => b = s.response ∧ b' = t.response) s t :=
    { h with response := ⟨rfl, rfl⟩ }
  obtain ⟨hcalls, hend⟩ := performAll_rests requests s t hrests
  refine ⟨hcalls, fun hcleared => ?_, ?_, fun calls => ?_⟩
  · rcases hend with halike | ⟨hspared, -⟩
    · exact halike.response.used
    · exact absurd hcleared hspared
  · rcases hend with halike | ⟨-, hkept⟩
    · exact Or.inl halike.response.used
    · exact Or.inr hkept.response
  · exact performDropping_interchangeable calls s s (Interchangeable.refl s)

/-- A session that answers as `responding` does, with something else in every buffer. -/
def littered : Session (Traced Rehearsal) :=
  let litter := fun b : Buffer => Buffer.lay b.capacity [0xEE, 0xEE] 1
  { responding with
    response := litter responding.response
    command := litter responding.command
    frame := litter responding.frame
    retries := 7 }

theorem leftovers_littered :
    Interchangeable responding littered ∧
      littered.responseBytes = [0xEE] ∧
      (performAll [.receive, .resync] littered).map Prod.fst
        = (performAll [.receive, .resync] responding).map Prod.fst ∧
      (perform .receive).result littered = .ok (some [0x90, 0]) := by
  have hclosed : responding.commandPending = false ∧ responding.parked = none := by
    decide +kernel
  have hsame : Interchangeable responding littered :=
    { Interchangeable.refl responding with
      responseCapacity := by decide +kernel
      commandCapacity := by decide +kernel
      frameCapacity := by decide +kernel
      command := fun hpending => absurd (hclosed.1.symm.trans hpending) Bool.false_ne_true
      frame := fun _ _ hparked => absurd (hclosed.2.symm.trans hparked) nofun }
  obtain ⟨hcalls, -⟩ := leftovers hsame [.receive, .resync]
  refine ⟨hsame, by decide +kernel, ?_, by decide +kernel⟩
  refine (congrFun₂ List.forall₂_eq_eq_eq _ _).mp ?_
  rw [List.forall₂_map_left_iff, List.forall₂_map_right_iff]
  exact hcalls.flip.imp fun _ _ h => h.result

end Calls

end Session

end SecureElement
