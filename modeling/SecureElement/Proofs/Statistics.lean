import SecureElement.Proofs.Conduct
import SecureElement.Proofs.Guarantees

/-!
# What the statistics count

The steps of a session keep its statistics, one count here and another there, and some of
them count before they know how they will end. This file ties the counts to what can be
seen from outside.

* Blocks, grants and epilogue mismatches are a matter of what passes over the link. A row
  of passages has its counts (`Statistics.passAll`), and `Reckoned` says that the session
  has counted what stands on the record of its link. Each step that has to do with the
  link counts what passes in it; nothing else does (`regime_reckoned`).
* A resynchronisation cannot be told from the record: what is asked for and what answers
  are the same in a handshake, which is not counted. It is told from how a call ended
  (`perform_resyncs`).

`Chronicle` is a whole run of a session from its creation, with what each call ended in,
and `Chronicle.counts_traffic` is what the statistics say about it.
-/

namespace SecureElement

open Link

/-! ## The counts of a conversation -/

namespace Statistics

/-- No count is larger. -/
structure AtMost (counts counts' : Statistics) : Prop where
  blocksSent : counts.blocksSent ≤ counts'.blocksSent
  blocksReceived : counts.blocksReceived ≤ counts'.blocksReceived
  retransmissions : counts.retransmissions ≤ counts'.retransmissions
  epilogueMismatches : counts.epilogueMismatches ≤ counts'.epilogueMismatches
  extensions : counts.extensions ≤ counts'.extensions
  resyncs : counts.resyncs ≤ counts'.resyncs

variable {counts counts₁ counts₂ : Statistics}

theorem AtMost.refl (counts : Statistics) : counts.AtMost counts :=
  ⟨Nat.le_refl _, Nat.le_refl _, Nat.le_refl _, Nat.le_refl _, Nat.le_refl _, Nat.le_refl _⟩

theorem AtMost.trans (h₁ : counts.AtMost counts₁) (h₂ : counts₁.AtMost counts₂) :
    counts.AtMost counts₂ where
  blocksSent := Nat.le_trans h₁.blocksSent h₂.blocksSent
  blocksReceived := Nat.le_trans h₁.blocksReceived h₂.blocksReceived
  retransmissions := Nat.le_trans h₁.retransmissions h₂.retransmissions
  epilogueMismatches := Nat.le_trans h₁.epilogueMismatches h₂.epilogueMismatches
  extensions := Nat.le_trans h₁.extensions h₂.extensions
  resyncs := Nat.le_trans h₁.resyncs h₂.resyncs

theorem SameTraffic.atMost (h : counts.SameTraffic counts₁) : counts.AtMost counts₁ where
  blocksSent := Nat.le_of_eq h.blocksSent.symm
  blocksReceived := Nat.le_of_eq h.blocksReceived.symm
  retransmissions := h.retransmissions
  epilogueMismatches := Nat.le_of_eq h.epilogueMismatches.symm
  extensions := Nat.le_of_eq h.extensions.symm
  resyncs := h.resyncs

theorem SameTraffic.trans (h₁ : counts.SameTraffic counts₁) (h₂ : counts₁.SameTraffic counts₂) :
    counts.SameTraffic counts₂ where
  blocksSent := h₂.blocksSent.trans h₁.blocksSent
  blocksReceived := h₂.blocksReceived.trans h₁.blocksReceived
  epilogueMismatches := h₂.epilogueMismatches.trans h₁.epilogueMismatches
  extensions := h₂.extensions.trans h₁.extensions
  retransmissions := Nat.le_trans h₁.retransmissions h₂.retransmissions
  resyncs := Nat.le_trans h₁.resyncs h₂.resyncs

theorem pass_atMost (c : Codec) (counts : Statistics) (x : Passage) :
    counts.AtMost (counts.pass c x) := by
  cases x with
  | sent frame outcome =>
      exact ⟨Nat.le_succ _, Nat.le_refl _, Nat.le_refl _, Nat.le_refl _, Nat.le_add_right _ _,
        Nat.le_refl _⟩
  | received raw =>
      exact ⟨Nat.le_refl _, Nat.le_succ _, Nat.le_refl _, Nat.le_add_right _ _, Nat.le_refl _,
        Nat.le_refl _⟩
  | raised _ | lost _ | released => exact .refl counts

theorem passAll_atMost (c : Codec) (counts : Statistics) :
    ∀ items : List Passage, counts.AtMost (counts.passAll c items)
  | [] => .refl counts
  | x :: items => (pass_atMost c counts x).trans (passAll_atMost c _ items)

theorem SameTraffic.pass (h : counts.SameTraffic counts₁) (c : Codec) (x : Passage) :
    (counts.pass c x).SameTraffic (counts₁.pass c x) := by
  cases x with
  | sent frame outcome =>
      exact { h with
        blocksSent := congrArg (· + 1) h.blocksSent
        extensions := congrArg (· + (Codec.isGrant frame).toNat) h.extensions }
  | received raw =>
      exact { h with
        blocksReceived := congrArg (· + 1) h.blocksReceived
        epilogueMismatches := congrArg (· + (c.mismatches raw).toNat) h.epilogueMismatches }
  | raised _ | lost _ | released => exact h

/-- Tries and resynchronisations do not matter for what is counted next. -/
theorem SameTraffic.passAll (h : counts.SameTraffic counts₁) (c : Codec) (items : List Passage) :
    (counts.passAll c items).SameTraffic (counts₁.passAll c items) := by
  induction items generalizing counts counts₁ with
  | nil => exact h
  | cons x items ih => exact ih (h.pass c x)

theorem passAll_append (c : Codec) (counts : Statistics) (front back : List Passage) :
    counts.passAll c (front ++ back) = (counts.passAll c front).passAll c back :=
  List.foldl_append

theorem add_toNat (b : Bool) (m n : Nat) : m + b.toNat + n = m + (n + if b then 1 else 0) := by
  cases b with
  | false => rfl
  | true => exact Nat.succ_add_eq_add_succ m n

/-- **A row of passages is counted frame by frame and block by block.** -/
theorem passAll_counts (c : Codec) (counts : Statistics) (items : List Passage) :
    let after := counts.passAll c items
    let frames := items.filterMap Passage.frame?
    let blocks := items.filterMap Passage.raw?
    after.blocksSent = counts.blocksSent + frames.length ∧
      after.extensions = counts.extensions + frames.countP Codec.isGrant ∧
      after.blocksReceived = counts.blocksReceived + blocks.length ∧
      after.epilogueMismatches = counts.epilogueMismatches + blocks.countP c.mismatches := by
  induction items generalizing counts with
  | nil => exact ⟨rfl, rfl, rfl, rfl⟩
  | cons x items ih =>
      obtain ⟨hsent, hgrants, hreceived, hmismatches⟩ := ih (counts.pass c x)
      cases x with
      | sent frame outcome =>
          have hframes : (Passage.sent frame outcome :: items).filterMap Passage.frame?
              = frame :: items.filterMap Passage.frame? := rfl
          dsimp only
          rw [hframes, List.length_cons, List.countP_cons]
          exact ⟨hsent.trans (Nat.succ_add_eq_add_succ _ _), hgrants.trans (add_toNat _ _ _),
            hreceived, hmismatches⟩
      | received raw =>
          have hblocks : (Passage.received raw :: items).filterMap Passage.raw?
              = raw :: items.filterMap Passage.raw? := rfl
          dsimp only
          rw [hblocks, List.length_cons, List.countP_cons]
          exact ⟨hsent, hgrants, hreceived.trans (Nat.succ_add_eq_add_succ _ _),
            hmismatches.trans (add_toNat _ _ _)⟩
      | raised _ | lost _ | released => exact ⟨hsent, hgrants, hreceived, hmismatches⟩

end Statistics

theorem Codec.Alike.mismatches {c c' : Codec} (h : c.Alike c') : c.mismatches = c'.mismatches := by
  funext raw
  unfold Codec.mismatches
  rw [h.decode]

theorem Codec.Alike.passAll {c c' : Codec} (h : c.Alike c') (counts : Statistics)
    (items : List Passage) : counts.passAll c items = counts.passAll c' items := by
  have hpass : ∀ counts x, Statistics.pass c counts x = Statistics.pass c' counts x := by
    intro counts x
    cases x with
    | received raw =>
        unfold Statistics.pass
        rw [h.mismatches]
    | sent _ _ | raised _ | lost _ | released => rfl
  unfold Statistics.passAll
  congr 1
  funext counts x
  exact hpass counts x

/-! ## What stands on the record -/

/-- The frame that was handed over in a call on the link, if this is one. -/
def Link.Event.written? : Event → Option Bytes
  | .write bytes _ _ => some bytes
  | _ => none

/-- A frame passes where it is handed over, and nowhere else. -/
theorem hear_frame? (e : Epilogue) (capacity : Nat) (begun : Bytes) (event : Event) :
    (hear e capacity begun event).1.filterMap Passage.frame? = event.written?.toList := by
  have harrive : ∀ octets,
      (arrive e capacity octets).1.filterMap Passage.frame? = [] := by
    intro octets
    unfold arrive
    split
    · split <;> rfl
    · rfl
  cases event with
  | read n timeout outcome =>
      cases outcome with
      | error fault => rfl
      | ok octets =>
          cases octets with
          | nil => rfl
          | cons octet octets => exact harrive _
  | bringUp _ | write _ _ _ | release => rfl

theorem passages_frame? (e : Epilogue) (capacity : Nat) (begun : Bytes) (events : List Event) :
    (passages e capacity begun events).1.filterMap Passage.frame?
      = events.filterMap Event.written? := by
  induction events generalizing begun with
  | nil => rfl
  | cons event events ih =>
      rw [passages_cons, List.filterMap_append, hear_frame?, ih]
      cases event <;> rfl

namespace Session

open SecureElement.Action

variable {L : Type} {settings : Settings} {base : Statistics} {s s' : Session (Traced L)}
  {items : List Passage}

/-- Everything that has passed since the session was created. -/
def passed (s : Session (Traced L)) : List Passage :=
  (passages s.settings.codec.epilogue s.frame.capacity [] s.link.events).1

/-- The session has counted what stands on the record of its link, and has not unlearned what it had
counted. -/
structure Reckoned (settings : Settings) (base : Statistics) (s : Session (Traced L)) : Prop where
  codec : s.codec.Alike settings.codec
  frame : Block.longPrologue ≤ s.frame.capacity
  /-- A command is no grant. -/
  command : Codec.isGrant s.command.used = false
  record : ∃ items,
    passages settings.codec.epilogue s.frame.capacity [] s.link.events = (items, []) ∧
      (Statistics.passAll settings.codec {} items).SameTraffic s.statistics
  least : base.AtMost s.statistics
  settings : s.settings = settings

/-- What passes next is counted next. -/
theorem Reckoned.extend (h : Reckoned settings base s) (hpasses : Passes s items s')
    (hsettings : s'.settings = s.settings) (hcodec : s'.codec = s.codec)
    (hframe : s'.frame.capacity = s.frame.capacity) (hcommand : s'.command = s.command)
    (hstatistics : s'.statistics = s.statistics.passAll s.codec items) :
    Reckoned settings base s' := by
  obtain ⟨before, hbefore, hcounts⟩ := h.record
  obtain ⟨events, hevents, hpass⟩ := hpasses
  rw [h.codec.epilogue] at hpass
  rw [h.codec.passAll] at hstatistics
  have hrecord : passages settings.codec.epilogue s'.frame.capacity [] s'.link.events
      = (before ++ items, []) := by
    rw [hevents, hframe, passages_append, hbefore]
    dsimp only
    rw [hpass]
  have hcounted : (Statistics.passAll settings.codec {} (before ++ items)).SameTraffic
      s'.statistics := by
    rw [Statistics.passAll_append, hstatistics]
    exact hcounts.passAll _ _
  exact {
    codec := by rw [hcodec]; exact h.codec
    frame := by rw [hframe]; exact h.frame
    command := by rw [hcommand]; exact h.command
    record := ⟨_, hrecord, hcounted⟩
    least := by rw [hstatistics]; exact h.least.trans (Statistics.passAll_atMost _ _ _)
    settings := hsettings.trans h.settings }

theorem Reckoned.round (h : Reckoned settings base s)
    {r : Except (Stop Setback) (Nanos ⊕ Inbound)} (hround : Step.Rounds s r s') :
    Reckoned settings base s' := by
  cases hround with
  | unrelated hframe hpasses _ hcounts => exact h.extend hpasses rfl rfl hframe rfl hcounts
  | refused hframe hpasses _ _ hcounts =>
      exact h.extend (hpasses.congr rfl) rfl rfl hframe rfl hcounts
  | granted hframe hpasses _ _ _ hcounts =>
      exact h.extend (hpasses.congr rfl) rfl rfl hframe rfl hcounts

variable [Link L]

/-- A frame that is no grant is a block and no more. -/
theorem Reckoned.transmitted (h : Reckoned settings base s) {frame : Bytes}
    (hgrant : Codec.isGrant frame = false) :
    Ensures (Step.transmit frame) s (Kept (Reckoned settings base) fun _ _ => True) := by
  refine (Step.transmit_outcome frame).mono ?_
  intro r s' hend
  obtain ⟨outcome, link, rfl, hpasses, -⟩ := hend
  exact kept_any (h.extend hpasses rfl rfl rfl rfl
    (Statistics.pass_sent s.codec s.statistics hgrant outcome).symm)

/-- **Every step with the link counts what passes in it, and what is done without the link counts
nothing that passes.** -/
theorem regime_reckoned (settings : Settings) (base : Statistics) :
    Regime (Reckoned settings base : Session (Traced L) → Prop) where
  offline := by
    intro s s' h hoffline
    have halike := hoffline.speaksAlike (by rw [h.settings]; exact h.codec)
    rw [hoffline.settings, h.settings] at halike
    obtain ⟨items, hitems, hcounts⟩ := h.record
    exact {
      settings := hoffline.settings.trans h.settings
      codec := halike
      frame := by rw [hoffline.frame]; exact h.frame
      command := hoffline.command h.command
      record := ⟨items, by rw [hoffline.frame, hoffline.link]; exact hitems,
        hcounts.trans hoffline.statistics⟩
      least := h.least.trans hoffline.statistics.atMost }
  sendCommand := fun _ h => h.transmitted h.command
  sendControl := by
    intro block hcontrol s h
    unfold Step.sendControl
    rw [ensures_get_bind]
    split
    · exact kept_any h
    · rename_i frame hencode
      obtain ⟨rfl, -⟩ := Codec.encodeWithin_eq_ok hencode
      refine h.transmitted ?_
      rw [Codec.isGrant_layout]
      exact decide_eq_false hcontrol
  awaitRound := fun timeout s h =>
    (Step.awaitRound_rounds timeout h.frame).mono fun _ _ hround => kept_any (h.round hround)
  raised := fun h => h.extend (raised_passes _) rfl rfl rfl rfl rfl
  released := fun h => h.extend (released_passes _) rfl rfl rfl rfl rfl

omit [Link L] in
/-- A session that was just created has counted nothing, and nothing has passed. -/
theorem new_reckoned {link : L} (h : new ({ link } : Traced L) settings = .ok s) :
    Reckoned settings {} s := by
  have hcapacity := (new_sound h).capacity
  obtain ⟨-, rfl⟩ := new_eq_ok h
  exact {
    codec := ⟨rfl, rfl, rfl⟩
    frame := hcapacity
    command := Codec.isGrant_nil
    record := ⟨[], rfl, .refl _⟩
    least := .refl _
    settings := rfl }

/-! ## Resynchronisations -/

/-- Whether a call that ended so has resynchronised: it succeeded and was made for that, or it
failed and left the session idle. -/
def resynced {α : Type} (asked : Bool) : Except (Stop Failure) α → Status → Bool
  | .ok _, _ => asked
  | .error (.because _), status => status = .idle
  | .error _, _ => false

/-- A call counted one resynchronisation if there was one, and none otherwise. -/
def CountsResync {α : Type} (asked : Bool) (s : Session (Traced L)) (r : Except (Stop Failure) α)
    (s' : Session (Traced L)) : Prop :=
  s'.statistics.resyncs = s.statistics.resyncs + (resynced asked r s'.status).toNat

omit [Link L] in
/-- What an action that fails would have brought does not matter. -/
theorem CountsResync.bind {α β : Type} {asked : Bool} {x : Call (Traced L) α}
    {f : α → Call (Traced L) β} (hx : Ensures x s (CountsResync asked s))
    (hf : ∀ a s', CountsResync asked s (.ok a : Except (Stop Failure) α) s' →
      Ensures (f a) s' (CountsResync asked s)) :
    Ensures (x >>= f) s (CountsResync asked s) := by
  refine Ensures.bind hx hf fun stop s' hstop => ?_
  cases stop <;> exact hstop

/-- Of the exchanges only the one that is made for it counts a resynchronisation. -/
theorem exchange_resyncs {request : Request} {exchange : Step (Traced L) Unit}
    (hexchange : request.exchange? = some exchange)
    (hcapacity : Block.longPrologue ≤ s.frame.capacity) (hbudget : s.WithinBudget)
    (hparked : s.ParkedOrdinary) :
    Ensures exchange s fun r s' => r = .ok () →
      s'.statistics.resyncs = s.statistics.resyncs + (decide (request = .resync)).toNat := by
  cases request with
  | send command =>
      obtain rfl := Option.some.inj hexchange
      refine (Step.sendChain_spec command hcapacity).mono fun r s' hend _ => ?_
      obtain ⟨items, hproceeds, -⟩ := hend
      exact hproceeds.resyncs
  | receive =>
      obtain rfl := Option.some.inj hexchange
      cases hreceived : s.parked with
      | none =>
          refine (Step.receiveResponse_spec hcapacity hreceived hbudget).mono fun r s' hend hr => ?_
          subst hr
          obtain ⟨items, blocks, hproceeds, -⟩ := hend
          exact hproceeds.resyncs
      | some received =>
          refine (Step.receiveResponse_parked_spec hreceived hcapacity hbudget ?_).mono ?_
          · intro setback h
            subst h
            exact hparked setback hreceived
          · intro r s' hend hr
            subst hr
            obtain ⟨items, blocks, hproceeds, -⟩ := hend
            exact hproceeds.resyncs
  | prefetch =>
      obtain rfl := Option.some.inj hexchange
      unfold Step.park
      refine Step.ensures_attempt_bind (Step.awaitBlock_spec hcapacity) ?_ ?_ ?_ ?_
      · intro inbound s₁ hend _
        obtain ⟨-, asides, raw, block, htalks, -⟩ := hend
        exact htalks.resyncs
      · intro setback s₁ hend
        obtain ⟨-, -, items, htalks, -⟩ := hend
        cases setback with
        | minor failure => exact fun _ => htalks.resyncs
        | major failure => exact nofun
      · exact fun _ _ => nofun
      · exact fun _ _ => nofun
  | resync =>
      obtain rfl := Option.some.inj hexchange
      refine (Step.supervise_spec .resync hcapacity).bind ?_ fun _ _ _ => nofun
      intro inbound s₁ hend _
      obtain ⟨items, htalks, -⟩ := hend
      exact congrArg (· + 1) htalks.resyncs
  | softReset =>
      obtain rfl := Option.some.inj hexchange
      unfold Step.renewInterface
      rw [ensures_modify_bind]
      refine (Step.resetInterface_spec (s := { s.resetExchange with commandPending := false })
        hcapacity).bind ?_ fun _ _ _ => nofun
      intro u s₁ hend _
      obtain ⟨items, s₂, codec, answer, htalks, rfl, -⟩ := hend
      exact htalks.resyncs
  | endApduSession =>
      obtain rfl := Option.some.inj hexchange
      refine (Step.supervise_spec .endApduSession hcapacity).bind ?_ fun _ _ _ => nofun
      intro inbound s₁ hend _
      obtain ⟨items, htalks, -⟩ := hend
      exact htalks.resyncs
  | establish | close | transceive _ | reset | dropResponse => exact absurd hexchange nofun

/-- A recovery counts one resynchronisation if the session goes on. -/
theorem recover_resyncs (failure : Failure) (hstatus : s.status = .busy)
    (hcapacity : Block.longPrologue ≤ s.frame.capacity) :
    Ensures (recover failure) s fun r s' =>
      match r with
      | .ok _ => s'.statistics.resyncs
          = s.statistics.resyncs + (decide (s'.status = .idle)).toNat
      | .error stop => stop = .stalled ∧ s'.statistics.resyncs = s.statistics.resyncs := by
  refine ensures_recover hstatus ?_
  refine (resyncAttempts_spec s.settings.resyncAttempts s.recovering hcapacity).mono ?_
  intro r s₁ hend
  obtain ⟨items, htalks, hr⟩ := hend
  match r with
  | .ok true => exact ⟨htalks.status, congrArg (· + 1) htalks.resyncs⟩
  | .ok false => exact ⟨htalks.status, htalks.resyncs⟩
  | .error stop => exact ⟨hr, htalks.resyncs⟩

theorem run_resyncs (request : Request) {exchange : Step (Traced L) Unit}
    (hexchange : request.exchange? = some exchange) (h : Sound settings s) :
    Ensures (run exchange) s (CountsResync (request = .resync) s) := by
  cases hready : s.status.isReady with
  | false =>
      refine (run_refused hready).mono ?_
      rintro r s' ⟨rfl, failure, rfl, -⟩
      have hbetween : s'.status ≠ .idle := by
        intro hidle
        rw [hidle] at hready
        exact absurd hready nofun
      show _ = _ + (decide (s'.status = .idle)).toNat
      rw [decide_eq_false hbetween]
      rfl
  | true =>
      have hexchanged := exchange_exchanged (s := s.begun) hexchange h.capacity (Nat.zero_le _)
        h.parkedOrdinary
      have hcounted := exchange_resyncs (s := s.begun) hexchange h.capacity (Nat.zero_le _)
        h.parkedOrdinary
      refine ensures_run hready (hexchanged.and hcounted) ?_ ?_ ?_ ?_
      · intro u s₁ hend
        obtain ⟨⟨⟨-, hstatus, -⟩, -⟩, hresyncs⟩ := hend
        exact ⟨hstatus, hresyncs rfl⟩
      · intro setback s₁ hend
        obtain ⟨⟨⟨-, hstatus, -⟩, ⟨items, hwithin⟩, hresyncs, -⟩, -⟩ := hend
        refine (recover_resyncs (s := { s₁ with deadline := none }) setback.failure hstatus
          (hwithin.holds h.capacity)).mono ?_
        intro r s₂ hcounts
        cases r with
        | ok told =>
            dsimp only at hcounts
            rw [hresyncs] at hcounts
            exact hcounts
        | error stop =>
            obtain ⟨rfl, hsame⟩ := hcounts
            exact hsame.trans hresyncs
      · intro s₁ hend
        obtain ⟨⟨-, -, hresyncs, -⟩, -⟩ := hend
        exact hresyncs
      · intro s₁ hend
        obtain ⟨⟨-, -, hresyncs, -⟩, -⟩ := hend
        exact hresyncs

/-- Opening resynchronises nothing, whatever the handshake is. -/
theorem establish_resyncs (h : Sound settings s) :
    Ensures establish s (CountsResync false s) := by
  have hfailed : ∀ (s₁ : Session (Traced L)) (told : Failure), s₁.status = .closed →
      s₁.statistics.resyncs = s.statistics.resyncs →
      CountsResync false s (.error (.because told) : Except (Stop Failure) Unit) s₁ := by
    intro s₁ told hclosed hsame
    show _ = _ + (decide (s₁.status = .idle)).toNat
    rw [hsame, hclosed]
    rfl
  refine ensures_establish (fun _ => rfl) (fun hclosed _ _ => hfailed _ _ hclosed rfl) ?_
  intro hclosed _
  refine (handshake_keeps (s := s.risen) h.capacity).mono ?_
  intro r s₁ hend
  obtain ⟨-, -, hstatus, -, -, hsame⟩ := hend
  match r with
  | .ok () => exact ⟨hstatus.trans hclosed, hsame⟩
  | .error (.because setback) => exact hfailed _ _ (hstatus.trans hclosed) hsame
  | .error .crashed => exact hsame
  | .error .stalled => exact hsame

/-- **A call that returns counts one resynchronisation if it succeeds and was made for one, or if it
fails and leaves the session idle, and none otherwise.** -/
theorem perform_resyncs (request : Request) (h : Sound settings s) :
    Ensures (perform request) s (CountsResync (request = .resync) s) := by
  have hreceive : ∀ {s₁ : Session (Traced L)}, Sound settings s₁ →
      Ensures receive s₁ (CountsResync false s₁) :=
    fun h₁ => CountsResync.bind (run_resyncs .receive rfl h₁) fun _ _ hcounts => hcounts
  cases request with
  | establish => exact CountsResync.bind (establish_resyncs h) fun _ _ hcounts => hcounts
  | close => exact Eq.refl s.statistics.resyncs
  | send command =>
      exact CountsResync.bind (run_resyncs (.send command) rfl h) fun _ _ hcounts => hcounts
  | receive => exact CountsResync.bind (hreceive h) fun _ _ hcounts => hcounts
  -- the first call succeeded if the second one is made, and has counted nothing
  | transceive command =>
      refine CountsResync.bind ?_ fun _ _ hcounts => hcounts
      refine Ensures.bind ((run_resyncs (.send command) rfl h).and
        (exchange_sound (.send command) rfl h)) ?_ ?_
      · intro u s₁ hend
        obtain ⟨hsame, hsound⟩ := hend
        refine (hreceive hsound).mono fun r s₂ hcounts => ?_
        unfold CountsResync at hcounts
        rw [hsame] at hcounts
        exact hcounts
      · intro stop s₁ hend
        cases stop <;> exact hend.1
  | prefetch =>
      refine CountsResync.bind ?_ fun _ _ hcounts => hcounts
      unfold prefetch
      rw [ensures_get_bind]
      split
      · exact Eq.refl s.statistics.resyncs
      · exact run_resyncs .prefetch rfl h
  | resync => exact CountsResync.bind (run_resyncs .resync rfl h) fun _ _ hcounts => hcounts
  | softReset =>
      exact CountsResync.bind (run_resyncs .softReset rfl h) fun _ _ hcounts => hcounts
  | endApduSession =>
      exact CountsResync.bind (run_resyncs .endApduSession rfl h) fun _ _ hcounts => hcounts
  | reset =>
      refine CountsResync.bind ?_ fun _ _ hcounts => hcounts
      unfold reset
      rw [ensures_get_bind]
      split
      · exact run_resyncs .softReset rfl h
      · exact establish_resyncs h
  | dropResponse => exact Eq.refl s.statistics.resyncs

/-! ## A whole run -/

/-- One call of a run: what was asked for, what it ended in, and the status that it left. -/
structure Entry where
  request : Request
  result : Except (Stop Failure) (Option Bytes)
  status : Status
  deriving Repr, DecidableEq

/-- It succeeded and was made to resynchronise, or it failed and left the session idle. -/
def Entry.resynced (x : Entry) : Bool :=
  Session.resynced (x.request = .resync) x.result x.status

/-- A call as it is entered: it is made, and then it is known what came of it. -/
def entry (request : Request) (s : Session (Traced L)) : Entry where
  request
  result := (perform request).result s
  status := ((perform request).final s).status

/-- A run of a session from its creation: the calls so far, and the session that they led to. -/
inductive Chronicle (settings : Settings) : List Entry → Session (Traced L) → Prop where
  /-- It was created over a link on which nothing has been done. -/
  | created {link : L} {s : Session (Traced L)} : new ({ link } : Traced L) settings = .ok s →
      Chronicle settings [] s
  /-- A call was made, whatever it ended in. -/
  | called {entries : List Entry} {s : Session (Traced L)} (request : Request) :
      Chronicle settings entries s →
      Chronicle settings (entries ++ [s.entry request]) ((perform request).final s)
  /-- The link changed on its own. -/
  | changed {entries : List Entry} {s : Session (Traced L)} (link : L) :
      Chronicle settings entries s →
      Chronicle settings entries { s with link := { s.link with link } }

variable {entries : List Entry}

theorem Chronicle.reachable (h : Chronicle settings entries s) : Reachable settings s := by
  induction h with
  | created hnew => exact .created hnew
  | called request _ ih => exact .called request ih
  | changed link _ ih => exact .touched _ ih

theorem Chronicle.reckoned (h : Chronicle settings entries s) : Reckoned settings {} s := by
  induction h with
  | created hnew => exact new_reckoned hnew
  | called request _ ih => exact (regime_reckoned settings {}).perform request ih
  | changed link _ ih => exact { ih with }

theorem Chronicle.resyncs (h : Chronicle settings entries s) :
    s.statistics.resyncs = entries.countP Entry.resynced := by
  induction h with
  | created hnew =>
      obtain ⟨-, rfl⟩ := new_eq_ok hnew
      rfl
  | @called entries s request h ih =>
      have hcounts := (perform_resyncs request h.reachable.sound).ends
      unfold CountsResync at hcounts
      rw [hcounts, ih, List.countP_append, List.countP_singleton]
      show _ + (s.entry request).resynced.toNat = _
      cases (s.entry request).resynced <;> rfl
  | changed link _ ih => exact ih

/--
**The statistics agree with the traffic**, in every run of a session over any link, from
its creation and through all closes and openings. They count the frames handed over,
the grants among them, the blocks that arrived whole and that the frame could hold, those
of them whose epilogue did not match, and the calls that resynchronised; and no call
makes a count smaller.
-/
theorem Chronicle.counts_traffic (h : Chronicle settings entries s) :
    s.statistics.blocksSent = (s.link.events.filterMap Event.written?).length ∧
      s.statistics.extensions = (s.link.events.filterMap Event.written?).countP Codec.isGrant ∧
      s.statistics.resyncs = entries.countP Entry.resynced ∧
      s.statistics.blocksReceived = (s.passed.filterMap Passage.raw?).length ∧
      s.statistics.epilogueMismatches
        = (s.passed.filterMap Passage.raw?).countP settings.codec.mismatches ∧
      ∀ request, s.statistics.AtMost ((perform request).final s).statistics := by
  have hreckoned := h.reckoned
  obtain ⟨items, hitems, hcounts⟩ := hreckoned.record
  obtain ⟨hsent, hgrants, hreceived, hmismatches⟩ :=
    Statistics.passAll_counts settings.codec {} items
  have hpassed : s.passed = items := by
    unfold passed
    rw [hreckoned.settings, hitems]
  have hframes : items.filterMap Passage.frame? = s.link.events.filterMap Event.written? := by
    rw [← passages_frame? settings.codec.epilogue s.frame.capacity [], hitems]
  rw [hframes, Nat.zero_add] at hsent hgrants
  rw [Nat.zero_add] at hreceived hmismatches
  rw [hpassed]
  refine ⟨hcounts.blocksSent.trans hsent, hcounts.extensions.trans hgrants, h.resyncs,
    hcounts.blocksReceived.trans hreceived, hcounts.epilogueMismatches.trans hmismatches, ?_⟩
  intro request
  have hbefore : Reckoned settings s.statistics s := { hreckoned with least := .refl _ }
  exact ((regime_reckoned settings s.statistics).perform request hbefore).least

/-- A session that granted time, met an epilogue that does not match, resynchronised when it was
told to, recovered from a request for more time than there is, and was closed. -/
def audited : Session (Traced Rehearsal) :=
  [Request.establish, .send [0x80], .receive, .resync, .prefetch, .close].foldl
    (fun s request => (perform request).final s)
    (rehearse [[0xA5, 0xE0, 0, 0x45], [0xA5, 0xC3, 1, 2, 0x65], [0xA5, 0, 1, 0x90, 0x35],
      [0xA5, 0, 1, 0x90, 0x34], [0xA5, 0xE0, 0, 0x45], [0xA5, 0xC3, 1, 0xFF, 0x98],
      [0xA5, 0xE0, 0, 0x45]])

theorem counts_traffic_audited : ∃ entries, Chronicle rehearsalSettings entries audited ∧
    (audited.link.events.filterMap Event.written?).length = 6 ∧
    (audited.link.events.filterMap Event.written?).countP Codec.isGrant = 1 ∧
    entries.countP Entry.resynced = 2 ∧
    (audited.passed.filterMap Passage.raw?).length = 7 ∧
    (audited.passed.filterMap Passage.raw?).countP rehearsalSettings.codec.mismatches = 1 ∧
    audited.statistics.AtMost ((perform .establish).final audited).statistics := by
  have hchronicle : ∃ entries, Chronicle rehearsalSettings entries audited :=
    ⟨_, .called .close (.called .prefetch (.called .resync (.called .receive
      (.called (.send [0x80]) (.called .establish (.created rfl))))))⟩
  obtain ⟨entries, h⟩ := hchronicle
  obtain ⟨hsent, hgrants, hresyncs, hreceived, hmismatches, hmore⟩ := h.counts_traffic
  have hcounts : audited.statistics = {
      blocksSent := 6
      blocksReceived := 7
      retransmissions := 1
      epilogueMismatches := 1
      extensions := 1
      resyncs := 2 } := by decide +kernel
  rw [hcounts] at hsent hgrants hresyncs hreceived hmismatches
  exact ⟨entries, h, hsent.symm, hgrants.symm, hresyncs.symm, hreceived.symm, hmismatches.symm,
    hmore .establish⟩

end Session

end SecureElement
