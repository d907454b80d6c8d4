import SecureElement.Proofs.Guarantees
import SecureElement.Proofs.Pending

/-!
# The command that is sent again

The pending command of any session is traced to the call of `send` that sent it, and a
read of that session is followed to see when it goes out once more.

* `reachable_traced` is the induction over the calls: what is staged is the last block of
  the command sent last, and the number waited for is the one behind it.
* The exception is a session that was resynchronised since (`SinceSent` keeps account of
  that): the command is the same, and the number waited for is zero.
* `read_repeats` says of a read that the command goes out directly behind each request
  for it and nowhere else.

A block asks for the command by the number behind the one waited for. Without a
resynchronisation that is the number in the command itself. After one it is not, unless
by chance, and `pending_command_separated` is a session where the two differ.
-/

namespace SecureElement

open Link

namespace Action

variable {ε L α β : Type}

/-- A row of two actions ends where the second one does, or where the first one stopped. -/
theorem final_bind (x : Action ε L β) (f : β → Action ε L α) (s : Session L) :
    (x >>= f).final s =
      match x s with
      | .ok b s₁ => (f b).final s₁
      | .error _ s₁ => s₁ := by
  unfold final
  cases h : x s with
  | ok b s₁ => rw [bind_of_ok h]
  | error stop s₁ => rw [bind_of_error h]

theorem final_bind_pure (x : Action ε L β) (f : β → α) (s : Session L) :
    (x >>= fun b => pure (f b)).final s = x.final s := by
  rw [final_bind]
  unfold final
  cases x s <;> rfl

end Action

namespace Session

open SecureElement.Action

variable {L : Type} [Link L] {settings : Settings} {s s' s₀ s₁ : Session (Traced L)}

/-! ## Back to the call that sent it -/

/-- What may have happened since the session was `s₁`, apart from sending another command. The flag
tells whether the session was resynchronised. -/
inductive SinceSent (s₁ : Session (Traced L)) : Bool → Session (Traced L) → Prop where
  /-- Nothing happened. -/
  | sent : SinceSent s₁ false s₁
  /-- Something was done to the link. -/
  | touched {resynced : Bool} {s : Session (Traced L)} (link : Traced L) :
      SinceSent s₁ resynced s → SinceSent s₁ resynced { s with link }
  /-- A call was made, whatever it ended in: no command was accepted, and no resynchronisation
  succeeded. -/
  | called {resynced : Bool} {s : Session (Traced L)} {request : Request} :
      SinceSent s₁ resynced s → (request.Sends → s.status.isReady = false) →
      (request = .resync → ∃ stop, resync.result s = .error stop) →
      SinceSent s₁ resynced ((perform request).final s)
  /-- The session was resynchronised. -/
  | resynced {resynced : Bool} {s s' : Session (Traced L)} : SinceSent s₁ resynced s →
      resync s = .ok () s' → SinceSent s₁ true s'

omit [Link L] in
/-- What is staged is the last block of a command that was sent in `s₀`. The number waited for is
the one behind it, so that its own number asks for it, unless the numbers started over. -/
structure Outstanding (s₀ : Session (Traced L)) (command : Bytes) (resynced : Bool)
    (s : Session (Traced L)) : Prop where
  codec : s.codec = s₀.codec
  staged : ∃ block seq, (s₀.commandBlocks command).getLast? = some block
    ∧ block.control = .information seq false ∧ s.command.used = s.codec.layout block
    ∧ if resynced then s.sendSeq = .zero else s.sendSeq = seq.next ∧ s.sendSeq.next = seq

/-- The command that is staged is the one that was sent last. -/
def IsAccounted (settings : Settings) (s : Session (Traced L)) : Prop :=
  ∃ s₀ s₁ command resynced, Reachable settings s₀ ∧ send command s₀ = .ok () s₁
    ∧ SinceSent s₁ resynced s ∧ Outstanding s₀ command resynced s

omit [Link L] in
theorem Outstanding.pends {command : Bytes} {resynced : Bool}
    (h : Outstanding s₀ command resynced s) (hpends : Pends s s') :
    Outstanding s₀ command resynced s' := by
  obtain ⟨hcodec, block, seq, hlast, hcontrol, hused, hnumber⟩ := h
  refine ⟨hpends.codec.trans hcodec, block, seq, hlast, hcontrol, ?_, ?_⟩
  · rw [hpends.command, hpends.codec]
    exact hused
  · rw [hpends.sendSeq]
    exact hnumber

omit [Link L] in
theorem outstanding_of_staged {command : Bytes}
    (h : Step.Staged s₀.codec (s₀.commandBlocks command) s) :
    Outstanding s₀ command false s := by
  obtain ⟨hcodec, block, seq, hlast, hcontrol, hused, hnumber⟩ := h
  refine ⟨hcodec, block, seq, hlast, hcontrol, ?_, hnumber, ?_⟩
  · rw [hcodec]
    exact hused
  · rw [hnumber, Seq.next_next]

/-- A call that sends nothing keeps the account. -/
theorem IsAccounted.called {request : Request} (h : IsAccounted settings s)
    (hsends : request.Sends → s.status.isReady = false)
    (hresync : request = .resync → ∃ stop, resync.result s = .error stop)
    (hpends : Pends s ((perform request).final s)) :
    IsAccounted settings ((perform request).final s) := by
  obtain ⟨s₀, s₁, command, resynced, hreachable, hsend, hsince, houtstanding⟩ := h
  exact ⟨s₀, s₁, command, resynced, hreachable, hsend, .called hsince hsends hresync,
    houtstanding.pends hpends⟩

/-- What every session has of its last command. -/
structure Tracks (settings : Settings) (s : Session (Traced L)) : Prop where
  closed : ClosedSettled s
  accounted : s.commandPending = true → IsAccounted settings s

omit [Link L] in
theorem Pends.refl (h : s.commandPending = true) : Pends s s := ⟨h, rfl, rfl, rfl, rfl⟩

/-- One more call, which sends nothing and does not resynchronise. -/
theorem Tracks.follows {request : Request} (h : Tracks settings s)
    (hsends : request.Sends → s.status.isReady = false)
    (hresync : request = .resync → ∃ stop, resync.result s = .error stop)
    (hfollows : Follows s ((perform request).final s)) :
    Tracks settings ((perform request).final s) where
  closed := hfollows.closed
  accounted := fun hpending =>
    have hpends := hfollows.pends hpending
    (h.accounted hpends.pending).called hsends hresync hpends

/-! ## One call after the other -/

theorem perform_send (command : Bytes) (s : Session (Traced L)) :
    (perform (.send command)).final s =
      match send command s with
      | .ok _ s₁ => s₁
      | .error _ s₁ => s₁ := by
  have hfinal : (perform (.send command)).final s = (send command).final s :=
    final_bind_pure _ _ s
  rw [hfinal, final]
  cases send command s <;> rfl

/-- A call of `transceive` is a call of `send` and, if that succeeds, one of `receive`. -/
theorem perform_transceive (command : Bytes) (s : Session (Traced L)) :
    (perform (.transceive command)).final s =
      match send command s with
      | .ok _ s₁ => (perform .receive).final s₁
      | .error _ s₁ => s₁ := by
  have hreceive : ∀ s₁ : Session (Traced L),
      (perform .receive).final s₁ = receive.final s₁ := fun s₁ => final_bind_pure _ _ s₁
  have htransceive : (perform (.transceive command)).final s = (transceive command).final s :=
    final_bind_pure _ _ s
  rw [htransceive]
  unfold transceive
  rw [final_bind]
  cases send command s with
  | ok u s₁ => exact (hreceive s₁).symm
  | error stop s₁ => rfl

/-- A command that was sent is accounted for. One that was not leaves nothing pending, unless the
session refused to send at all. -/
theorem send_tracks (command : Bytes) (hreachable : Reachable settings s) :
    Ensures (send command) s fun r s' =>
      match r with
      | .ok () => send command s = .ok () s' → Tracks settings s'
      | .error _ => (s.status.isReady = false ∧ s' = s) ∨ s'.commandPending = false := by
  refine (send_staged command hreachable.sound).mono ?_
  intro r s' hend
  cases hready : s.status.isReady with
  | false =>
      rw [hready, if_neg Bool.false_ne_true] at hend
      obtain ⟨rfl, stop, rfl⟩ := hend
      exact .inl ⟨rfl, rfl⟩
  | true =>
      rw [hready, if_pos rfl] at hend
      cases r with
      | error stop => exact .inr hend
      | ok u =>
          intro hsend
          obtain ⟨hidle, hstaged⟩ := hend
          refine ⟨fun hclosed => ?_, fun _ => ?_⟩
          · rw [hidle] at hclosed
            exact Status.noConfusion hclosed
          · exact ⟨s, s', command, false, hreachable, hsend, .sent, outstanding_of_staged hstaged⟩

omit [Link L] in
theorem not_pending (h : s.commandPending = false) : ¬ s.commandPending = true := by
  rw [h]
  exact Bool.false_ne_true

/-- A call that sends keeps the account even if it fails. -/
theorem Tracks.failed {request : Request} (h : Tracks settings s) (hsends : request.Sends)
    (hfailed : (s.status.isReady = false ∧ (perform request).final s = s)
      ∨ ((perform request).final s).commandPending = false) :
    Tracks settings ((perform request).final s) := by
  rcases hfailed with ⟨hready, hsame⟩ | hsettled
  · refine h.follows (fun _ => hready) ?_ ?_
    · rintro rfl
      exact hsends.elim
    · rw [hsame]
      exact .refl h.closed
  · exact ⟨fun _ => hsettled, fun hpending => absurd hpending (not_pending hsettled)⟩

theorem resync_tracks (hsound : Sound settings s) (h : Tracks settings s) :
    Tracks settings ((perform .resync).final s) := by
  have hspec := resync_pending hsound h.closed
  have hfinal : (perform .resync).final s = resync.final s := final_bind_pure _ _ s
  cases hresult : resync s with
  | ok u s' =>
      obtain ⟨hclosed, hpends⟩ := hspec.ok hresult
      have hsame : resync.final s = s' := by rw [final, hresult]
      rw [hfinal, hsame]
      refine ⟨hclosed, fun hpending => ?_⟩
      obtain ⟨hbefore, hcodec, hcommand, hzero⟩ := hpends hpending
      obtain ⟨s₀, s₁, command, resynced, hreachable, hsend, hsince, houtstanding⟩ :=
        h.accounted hbefore
      obtain ⟨hcodec₀, block, seq, hlast, hcontrol, hused, -⟩ := houtstanding
      refine ⟨s₀, s₁, command, true, hreachable, hsend, .resynced hsince hresult,
        hcodec.trans hcodec₀, block, seq, hlast, hcontrol, ?_, hzero⟩
      rw [hcommand, hcodec]
      exact hused
  | error stop s' =>
      obtain ⟨hclosed, hpends⟩ := hspec.error hresult
      have hsame : resync.final s = s' := by rw [final, hresult]
      have hfollows : Follows s s' := ⟨hpends, hclosed⟩
      refine h.follows (fun hsends => False.elim hsends) (fun _ => ⟨stop, ?_⟩) ?_
      · rw [result, hresult]
      · rw [hfinal, hsame]
        exact hfollows

/-- **Every call keeps the account of the last command.** -/
theorem perform_tracks (request : Request) (hreachable : Reachable settings s)
    (h : Tracks settings s) : Tracks settings ((perform request).final s) := by
  have hsound := hreachable.sound
  by_cases hsends : request.Sends
  · cases request with
    | send command =>
        have hfinal := perform_send command s
        have hsent := send_tracks command hreachable
        cases hsend : send command s with
        | ok u s₁ =>
            rw [hsend] at hfinal
            rw [hfinal]
            exact hsent.ok hsend hsend
        | error stop s₁ =>
            rw [hsend] at hfinal
            refine h.failed trivial ?_
            rw [hfinal]
            exact hsent.error hsend
    | transceive command =>
        have hfinal := perform_transceive command s
        have hsent := send_tracks command hreachable
        cases hsend : send command s with
        | ok u s₁ =>
            rw [hsend] at hfinal
            rw [hfinal]
            -- the read that follows is one more call on the session that has just sent
            have htracks := hsent.ok hsend hsend
            have hsound₁ : Sound settings s₁ :=
              (exchange_sound (.send command) rfl hsound).ok hsend
            exact htracks.follows nofun nofun
              (perform_follows .receive nofun nofun hsound₁ htracks.closed).final
        | error stop s₁ =>
            rw [hsend] at hfinal
            refine h.failed trivial ?_
            rw [hfinal]
            exact hsent.error hsend
    | establish | close | receive | prefetch | resync | softReset | endApduSession | reset
    | dropResponse => exact hsends.elim
  · by_cases hresync : request = .resync
    · rw [hresync]
      exact resync_tracks hsound h
    · exact h.follows (fun hsent => absurd hsent hsends) (fun hsame => absurd hsame hresync)
        (perform_follows request hsends hresync hsound h.closed).final

/-- **Whatever was done with a session, the command that is pending is the one sent last.** -/
theorem reachable_tracks (h : Reachable settings s) : Tracks settings s := by
  induction h with
  | @created link s hnew =>
      have hsettled : s.commandPending = false := by
        obtain ⟨-, rfl⟩ := new_eq_ok hnew
        rfl
      exact ⟨fun _ => hsettled, fun hpending => absurd hpending (not_pending hsettled)⟩
  | called request hreachable ih => exact perform_tracks request hreachable ih
  | touched link _ ih =>
      refine ⟨ih.closed, fun hpending => ?_⟩
      obtain ⟨s₀, s₁, command, resynced, hreachable, hsend, hsince, houtstanding⟩ :=
        ih.accounted hpending
      exact ⟨s₀, s₁, command, resynced, hreachable, hsend, .touched link hsince,
        { houtstanding with }⟩

/-! ## The read of its response -/

omit [Link L] in
/-- A block of this type was parked. -/
def Offers (s : Session (Traced L)) (control : Control) : Prop :=
  ∃ inbound, s.parked = some (.ok inbound) ∧ inbound.control = control

omit [Link L] in
/-- A read has got a block of this type once `front` has passed: it came, or it was parked
before. -/
def Gets (s : Session (Traced L)) (front : List Passage) (control : Control) : Prop :=
  s.Offers control ∨ ∃ y ∈ front, y.Shows s.codec control

omit [Link L] in
/-- Such a block is what the read got last. -/
def GetsLast (s : Session (Traced L)) (front : List Passage) (control : Control) : Prop :=
  (front = [] ∧ s.Offers control)
    ∨ ∃ before y, front = before ++ [y] ∧ y.Shows s.codec control

omit [Link L] in
/-- When the command goes out again in a read that ends in `r`, and whose exchange `items` are. A
block with the number that is expected is accepted, or ends the read. -/
structure Repeats (s : Session (Traced L)) (r : Except (Stop Setback) Unit)
    (items : List Passage) : Prop where
  /-- Any information block that is handed over is the command. It was pending, no block of the
  response was accepted before, and it was asked for right before. -/
  asked : ∀ (front : List Passage) (frame : Bytes) (outcome : Except Link.Fault Nat)
    (rest : List Passage), items = front ++ .sent frame outcome :: rest →
    isInformation frame = true →
    s.commandPending = true ∧ frame = s.command.used
      ∧ (∀ more, ¬ s.Gets front (.information s.recvSeq more))
      ∧ ∃ receipt, s.GetsLast front (.ready s.sendSeq.next receipt)
  /-- Under the same conditions it is handed over, as long as there are tries. -/
  answered : ∀ (front rest : List Passage) (receipt : Receipt), items = front ++ rest →
    s.commandPending = true → (∀ more, ¬ s.Gets front (.information s.recvSeq more)) →
    s.GetsLast front (.ready s.sendSeq.next receipt) → Granted s.command.used r rest

/-- Any codec reads a block of any type from somewhere. -/
theorem exists_shows (c : Codec) (control : Control) : ∃ x : Passage, x.Shows c control := by
  obtain ⟨payload, hlength, hdefect⟩ : ∃ payload : Bytes, payload.length ≤ Block.longMax
      ∧ Codec.payloadDefect? control payload = none := by
    rcases control with ⟨seq, more⟩ | ⟨seq, receipt⟩ | ⟨function, response⟩
    · exact ⟨[], Nat.zero_le _, rfl⟩
    · exact ⟨[], Nat.zero_le _, rfl⟩
    · refine ⟨[0], by decide, ?_⟩
      cases function <;> rfl
  have hmade : c.decode (c.flip.layout (c.flip.make control payload)) = _ :=
    Codec.decode_made control rfl hlength
  have hpeer : c.flip.own = c.peer := rfl
  rw [if_neg (not_not_intro hpeer), hdefect] at hmade
  exact ⟨_, _, _, rfl, hmade, rfl⟩

omit [Link L] in
/-- What is parked stands in front of what comes. -/
def Opens (s : Session (Traced L)) (opening : List Passage) : Prop :=
  (opening = [] ∧ ∀ control, ¬ s.Offers control)
    ∨ ∃ x, opening = [x] ∧ ∀ control, s.Offers control ↔ x.Shows s.codec control

omit [Link L] in
theorem Opens.gets {opening front : List Passage} {control : Control} (h : s.Opens opening) :
    s.Gets front control ↔ ∃ y ∈ opening ++ front, y.Shows s.codec control := by
  unfold Gets
  rcases h with ⟨rfl, hnone⟩ | ⟨x, rfl, hoffers⟩
  · simp only [hnone control, false_or, List.nil_append]
  · rw [hoffers, List.singleton_append]
    simp only [List.mem_cons, exists_eq_or_imp]

omit [Link L] in
theorem Opens.getsLast {opening front : List Passage} {control : Control} (h : s.Opens opening) :
    s.GetsLast front control
      ↔ ∃ before y, opening ++ front = before ++ [y] ∧ y.Shows s.codec control := by
  unfold GetsLast
  rcases h with ⟨rfl, hnone⟩ | ⟨x, rfl, hoffers⟩
  · simp only [hnone control, and_false, false_or, List.nil_append]
  · rw [hoffers, List.singleton_append]
    constructor
    · rintro (⟨rfl, hshows⟩ | ⟨before, y, rfl, hshows⟩)
      · exact ⟨[], x, rfl, hshows⟩
      · exact ⟨x :: before, y, rfl, hshows⟩
    · rintro ⟨before, y, hfront, hshows⟩
      cases before with
      | nil =>
          obtain ⟨rfl, rfl⟩ := List.cons.inj hfront
          exact .inl ⟨rfl, hshows⟩
      | cons z before => exact .inr ⟨before, y, (List.cons.inj hfront).2, hshows⟩

omit [Link L] in
theorem Reads.repeats {r : Except (Stop Setback) Unit} {opening items : List Passage}
    (hopening : s.Opens opening) (h : s.Reads r s.commandPending (opening ++ items)) :
    s.Repeats r items where
  asked := by
    intro front frame outcome rest hitems hinformation
    rw [hitems, ← List.append_assoc] at h
    obtain ⟨hpending, hframe, hnone, hlast⟩ :=
      Replies.asked h (opening ++ front) frame outcome rest rfl hinformation
    refine ⟨hpending, hframe, fun more hgets => ?_, ?_⟩
    · obtain ⟨y, hy, hshows⟩ := hopening.gets.mp hgets
      exact hnone y hy more hshows
    · obtain ⟨before, y, receipt, hfront, hshows⟩ := hlast
      exact ⟨receipt, hopening.getsLast.mpr ⟨before, y, hfront, hshows⟩⟩
  answered := by
    intro front rest receipt hitems hpending hnone hlast
    obtain ⟨before, y, hfront, hshows⟩ := hopening.getsLast.mp hlast
    rw [hitems, ← List.append_assoc, hfront, List.append_assoc] at h
    refine Replies.answered h before y rest receipt rfl hpending hshows fun z hz more hz' => ?_
    refine hnone more (hopening.gets.mpr ⟨z, ?_, hz'⟩)
    rw [hfront]
    exact List.mem_append_left _ hz

/-- The exchange of a read repeats the command when it is asked for. -/
theorem receiveResponse_repeats (h : Sound settings s) :
    Ensures Step.receiveResponse s.begun fun r s₁ =>
      ∃ items, Within s.begun items s₁ ∧ s.Repeats r items := by
  cases hparked : s.parked with
  | none =>
      have hopens : s.Opens [] := by
        refine .inl ⟨rfl, ?_⟩
        rintro control ⟨inbound, hsome, -⟩
        rw [hparked] at hsome
        exact absurd hsome nofun
      refine (Step.receiveResponse_replies (s := s.begun) h.capacity hparked
        (Nat.zero_le _)).mono ?_
      intro r s₁ hend
      obtain ⟨items, hwithin, -, hreads⟩ := hend
      exact ⟨items, hwithin, Reads.repeats hopens hreads⟩
  | some received =>
      have hordinary : ∀ setback, received = .error setback →
          setback.failure ≠ .recoveryExhausted := by
        rintro setback rfl
        exact h.parkedOrdinary setback hparked
      refine (Step.receiveResponse_parked_replies (s := s.begun) hparked h.capacity (Nat.zero_le _)
        hordinary).mono ?_
      intro r s₁ hend
      obtain ⟨items, hwithin, -, hreads⟩ := hend
      refine ⟨items, hwithin, ?_⟩
      cases received with
      | error setback =>
          have hopens : s.Opens [] := by
            refine .inl ⟨rfl, ?_⟩
            rintro control ⟨inbound, hsome, -⟩
            rw [hparked] at hsome
            exact absurd (Option.some.inj hsome) nofun
          exact Reads.repeats hopens (hreads [] rfl)
      | ok inbound =>
          -- where a parked block came from is long past; any passage that shows it will do
          obtain ⟨x, hshows⟩ := exists_shows s.codec inbound.control
          have hopens : s.Opens [x] := by
            refine .inr ⟨x, rfl, fun control => ⟨?_, fun hshows' => ?_⟩⟩
            · rintro ⟨inbound', hsome, rfl⟩
              rw [hparked] at hsome
              obtain rfl := Except.ok.inj (Option.some.inj hsome)
              exact hshows
            · exact ⟨inbound, hparked, hshows.unique hshows'⟩
          exact Reads.repeats hopens (hreads [x] ⟨x, rfl, hshows⟩)

/-- **A read sends the command again when it is asked to, and at no other time.** What passes behind
its exchange is a recovery. -/
theorem read_repeats (h : Sound settings s) (hready : s.status.isReady = true) :
    ∃ items back, Passes s items (Step.receiveResponse.final s.begun)
      ∧ Passes s (items ++ back) (receive.final s) ∧ (∀ x ∈ back, Recovers s.codec x)
      ∧ s.Repeats (Step.receiveResponse.result s.begun) items := by
  have hexchange := ((receiveResponse_repeats h).and
    (Session.exchange_exchanged (show Request.exchange? .receive = some _ from rfl) h.capacity
      (Nat.zero_le _) h.parkedOrdinary)).ended
  -- the call adds nothing to the conversation unless it has to recover
  have hrun : Ensures (run Step.receiveResponse) s fun _ s' =>
      ∃ items back, Passes s items (Step.receiveResponse.final s.begun)
        ∧ Passes s (items ++ back) s' ∧ (∀ x ∈ back, Recovers s.codec x)
        ∧ s.Repeats (Step.receiveResponse.result s.begun) items := by
    refine ensures_run hready hexchange ?_ ?_ ?_ ?_
    · intro u s₁ hend
      obtain ⟨⟨⟨items, hwithin, hrepeats⟩, ⟨-, hstatus, -⟩, -⟩, hresult, hfinal⟩ := hend
      have hpasses : Passes s items s₁ := hwithin.passes
      rw [hresult, hfinal]
      refine ⟨hstatus, items, [], hpasses, ?_, List.forall_mem_nil _, hrepeats⟩
      rw [List.append_nil]
      exact hpasses.congr rfl
    · intro setback s₁ hend
      obtain ⟨⟨⟨items, hwithin, hrepeats⟩, ⟨hkeeps, hstatus, -⟩, -⟩, hresult, hfinal⟩ := hend
      have hpasses : Passes s items s₁ := hwithin.passes
      rw [hresult, hfinal]
      refine (recover_forgets (s := { s₁ with deadline := none }) setback.failure hstatus
        (hkeeps.holds h.capacity)).mono ?_
      intro r s₂ hend
      obtain ⟨-, back, hback, hrecovers, -⟩ := hend
      have hcodec : s₁.codec = s.codec := hwithin.codec
      have hboth : Passes s (items ++ back) s₂ :=
        Hears.trans (hpasses : Passes s items { s₁ with deadline := none }) hback
          (congrArg Codec.epilogue hcodec) hwithin.capacity
      have hall : ∀ x ∈ back, Recovers s.codec x := by
        rw [← hcodec]
        exact hrecovers
      cases r with
      | ok told => exact ⟨items, back, hpasses, hboth, hall, hrepeats⟩
      | error stop => exact ⟨items, back, hpasses, hboth, hall, hrepeats⟩
    · intro s₁ hend
      obtain ⟨⟨⟨items, hwithin, hrepeats⟩, -⟩, hresult, hfinal⟩ := hend
      have hpasses : Passes s items s₁ := hwithin.passes
      rw [hresult, hfinal]
      refine ⟨items, [], hpasses, ?_, List.forall_mem_nil _, hrepeats⟩
      rwa [List.append_nil]
    · intro s₁ hend
      obtain ⟨⟨⟨items, hwithin, hrepeats⟩, -⟩, hresult, hfinal⟩ := hend
      have hpasses : Passes s items s₁ := hwithin.passes
      rw [hresult, hfinal]
      refine ⟨items, [], hpasses, ?_, List.forall_mem_nil _, hrepeats⟩
      rwa [List.append_nil]
  have hreceive : Ensures receive s fun _ s' => ∃ items back,
      Passes s items (Step.receiveResponse.final s.begun) ∧ Passes s (items ++ back) s'
        ∧ (∀ x ∈ back, Recovers s.codec x)
        ∧ s.Repeats (Step.receiveResponse.result s.begun) items :=
    hrun.bind_kept fun _ _ h => h
  exact hreceive.final

/--
**The pending command is the one sent last, and a read sends it again exactly when it is
asked for.** What is staged is the last block of the command of the last successful
`send`, and its own number is the one that asks for it, unless the session was
resynchronised since. A read hands over an information block only directly behind a
request for it and before a block of the response was accepted; that block is the
command; and whenever these conditions hold it is handed over, unless no tries are left.
-/
theorem pending_command (h : Reachable settings s) :
    (s.commandPending = true → ∃ s₀ s₁ command resynced, Reachable settings s₀
      ∧ send command s₀ = .ok () s₁ ∧ SinceSent s₁ resynced s
      ∧ Outstanding s₀ command resynced s)
    ∧ (s.status.isReady = true → ∃ items back,
      Passes s items (Step.receiveResponse.final s.begun)
      ∧ Passes s (items ++ back) (receive.final s) ∧ (∀ x ∈ back, Recovers s.codec x)
      ∧ s.Repeats (Step.receiveResponse.result s.begun) items) :=
  ⟨(reachable_tracks h).accounted, read_repeats h.sound⟩

/-- A session whose element answers the handshake, asks for the command that was sent and then
responds to it. -/
def asking : Session (Traced Rehearsal) :=
  (perform (.send [0x61])).final ((perform .establish).final
    (rehearse [[0xA5, 0xE0, 0, 0x45], [0xA5, 0x80, 0, 0x25], [0xA5, 0, 1, 0x90, 0x34]]))

theorem pending_command_asking :
    Reachable rehearsalSettings asking ∧ asking.commandPending = true
      ∧ asking.status.isReady = true ∧ receive.result asking = .ok [0x90]
      ∧ ∃ s₀ s₁ command resynced, Reachable rehearsalSettings s₀
        ∧ send command s₀ = .ok () s₁ ∧ SinceSent s₁ resynced asking
        ∧ Outstanding s₀ command resynced asking
        ∧ ∃ items back, Passes asking (items ++ back) (receive.final asking)
          ∧ asking.Repeats (Step.receiveResponse.result asking.begun) items := by
  have hreachable : Reachable rehearsalSettings asking :=
    .called _ (.called _ (rehearse_reachable _))
  have hpending : asking.commandPending = true := by decide +kernel
  have hready : asking.status.isReady = true := by decide +kernel
  obtain ⟨haccounted, hreads⟩ := pending_command hreachable
  obtain ⟨s₀, s₁, command, resynced, hreachable₀, hsend, hsince, houtstanding⟩ :=
    haccounted hpending
  obtain ⟨items, back, -, hpasses, -, hrepeats⟩ := hreads hready
  exact ⟨hreachable, hpending, hready, by decide +kernel, s₀, s₁, command, resynced, hreachable₀,
    hsend, hsince, houtstanding, items, back, hpasses, hrepeats⟩

/-- A session that was resynchronised while a command was pending. Its element then asks for the
block behind the command, for the command, and responds. -/
def resynchronised : Session (Traced Rehearsal) :=
  (perform .resync).final ((perform (.send [0x61])).final ((perform .establish).final
    (rehearse [[0xA5, 0xE0, 0, 0x45], [0xA5, 0xE0, 0, 0x45], [0xA5, 0x90, 0, 0x35],
      [0xA5, 0x80, 0, 0x25], [0xA5, 0, 1, 0x90, 0x34]])))

deriving instance DecidableEq for Link.Event, Passage

/-- **A resynchronisation separates a pending command from its number.** The block that is staged
carries the number zero, and so does the next block to be sent. Asked for block one, which was never
sent, the session hands over the command; asked for the command, it refuses. -/
theorem pending_command_separated :
    Reachable rehearsalSettings resynchronised ∧ resynchronised.commandPending = true
      ∧ resynchronised.command.used = resynchronised.codec.layout
          (resynchronised.codec.make (.information .zero false) [0x61])
      ∧ resynchronised.sendSeq.next ≠ .zero
      ∧ (Passage.received [0xA5, 0x90, 0, 0x35]).Shows resynchronised.codec (.ready .one .clean)
      ∧ (Passage.received [0xA5, 0x80, 0, 0x25]).Shows resynchronised.codec (.ready .zero .clean)
      ∧ Passes resynchronised
          [.received [0xA5, 0x90, 0, 0x35], .sent resynchronised.command.used (.ok 5),
            .received [0xA5, 0x80, 0, 0x25],
            .sent (resynchronised.codec.layout (resynchronised.codec.ready .zero .otherwiseBad))
              (.ok 4),
            .received [0xA5, 0, 1, 0x90, 0x34]] (receive.final resynchronised) := by
  have hone : resynchronised.codec.decode [0xA5, 0x90, 0, 0x35]
      = .ok { address := 0xA5, control := .ready .one .clean, payload := [], edc := 0x35 } := by
    decide +kernel
  have hzero : resynchronised.codec.decode [0xA5, 0x80, 0, 0x25]
      = .ok { address := 0xA5, control := .ready .zero .clean, payload := [], edc := 0x25 } := by
    decide +kernel
  refine ⟨.called _ (.called _ (.called _ (rehearse_reachable _))), ?_, ?_, ?_,
    ⟨_, _, rfl, hone, rfl⟩, ⟨_, _, rfl, hzero, rfl⟩, ?_⟩
  · decide +kernel
  · decide +kernel
  · decide +kernel
  · refine ⟨(receive.final resynchronised).link.events.drop resynchronised.link.events.length,
      ?_, ?_⟩
    · decide +kernel
    · decide +kernel

end Session

end SecureElement
