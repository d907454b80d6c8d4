import SecureElement.Proofs.Tally

/-!
# Tries used up

Nothing that a link can do makes a session try more often than its settings say
(`tries_counted`), and there are links on which it tries as often as that. Over a link
that takes nothing any more, sending a command uses up the tries of its first block and
then all attempts to resynchronise, and the session is given up (`send_exhausts`).

`Link.Unwritable P` says that a link takes nothing any more in the states of which `P` is
true. A step that has to hand something over comes to nothing there (`Refused`), so each
round of tries costs one of them, and the loop ends in the round that exceeds the budget
(`loop_exhausts`).

The count of tries is of a fixed width. Settings that allow more of them than it can hold
do not get them: the count overflows first, and the call is cut off there
(`Stop.EndsTries`). The handshake of an opening is such a call (`handshake_exhausts`).
-/

namespace SecureElement

/-- In the states of a link of which `P` is true nothing can be handed over, though the link is not
closed, and they are not left by an attempt to. -/
structure Link.Unwritable {L : Type} [Link L] (P : L → Prop) : Prop where
  write : ∀ (bytes : Bytes) (timeout : Nanos) (link : L), P link →
    P (Link.write bytes timeout link).2 ∧
      ∃ fault, fault ≠ .closed ∧ (Link.write bytes timeout link).1 = .error fault

open Link

/-- These frames were handed over one after the other, and nothing else passed. -/
def AllSent (frames : List Bytes) (items : List Passage) : Prop :=
  items.map Passage.frame? = frames.map some

theorem AllSent.append {front back : List Bytes} {items items' : List Passage}
    (h : AllSent front items) (h' : AllSent back items') :
    AllSent (front ++ back) (items ++ items') := by
  unfold AllSent at h h' ⊢
  rw [List.map_append, List.map_append, h, h']

theorem allSent_one (frame : Bytes) (outcome : Except Link.Fault Nat) :
    AllSent [frame] [.sent frame outcome] := rfl

/-- The tries that can be charged: all that the settings allow, unless the count is full before. -/
def Settings.countable (settings : Settings) : Nat :=
  min settings.blockRetransmits Session.counterMax

/-- How tries in vain end: the last one is a major fault, or the count of them overflows. -/
def Stop.EndsTries (settings : Settings) (stop : Stop Setback) : Prop :=
  if settings.blockRetransmits < Session.counterMax then
    ∃ failure, stop = .because (.major failure)
  else stop = .crashed

theorem Settings.countable_eq {settings : Settings}
    (hcount : settings.blockRetransmits < Session.counterMax) :
    settings.countable = settings.blockRetransmits :=
  Nat.min_eq_left (Nat.le_of_lt hcount)

/-- Tries that the settings limit end in a major fault. -/
theorem Stop.EndsTries.major {settings : Settings} {stop : Stop Setback}
    (h : stop.EndsTries settings) (hcount : settings.blockRetransmits < Session.counterMax) :
    ∃ failure, stop = .because (.major failure) := by
  unfold Stop.EndsTries at h
  rwa [if_pos hcount] at h

/-- Tries that only their count limits are cut off. -/
theorem Stop.EndsTries.crashed {settings : Settings} {stop : Stop Setback}
    (h : stop.EndsTries settings) (hcount : Session.counterMax ≤ settings.blockRetransmits) :
    stop = .crashed := by
  unfold Stop.EndsTries at h
  rwa [if_neg (Nat.not_lt.mpr hcount)] at h

namespace Step

open SecureElement.Action Session

variable {L α : Type} [Link L] {P : L → Prop} {s : Session (Traced L)} {frame : Bytes}

/-! ## One try -/

omit [Link L] in
/-- A frame was handed over in vain, and the next will be as well. -/
def Refused (P : L → Prop) (frame : Bytes) (s : Session (Traced L)) (r : Except (Stop Setback) α)
    (s' : Session (Traced L)) : Prop :=
  (∃ stop, r = .error stop ∧ ∃ failure, stop = .because (.minor failure)) ∧ P s'.link.link ∧
    s'.retries = s.retries ∧ ∃ outcome, Talks s [.sent frame outcome] s'

theorem transmit_refused (h : Unwritable P) (hlink : P s.link.link) (frame : Bytes) :
    Ensures (transmit frame) s (Refused P frame s) := by
  have hfails : Ensures (transmit frame) s fun r s' =>
      (∃ stop, r = .error stop ∧ ∃ failure, stop = .because (.minor failure)) ∧
        P s'.link.link := by
    obtain ⟨hstays, fault, hopen, hfault⟩ := h.write frame s.settings.blockTimeout s.link.link hlink
    have hwritten : (writeAll frame s.settings.blockTimeout s.link).1 = .error fault :=
      writeAll_of_error hfault
    unfold transmit
    rw [ensures_count_bind, ensures_get_bind]
    dsimp only
    rw [ensures_onLink_bind, hwritten, writeAll_traced]
    refine ⟨?_, hstays⟩
    cases fault with
    | closed => exact absurd rfl hopen
    | timeout | notAcknowledged | shortWrite | bus => exact ⟨_, rfl, _, rfl⟩
  refine (hfails.and (transmit_spec frame)).mono ?_
  rintro r s' ⟨⟨hr, hlink'⟩, ⟨hretries, -⟩, outcome, htalks, -⟩
  exact ⟨hr, hlink', hretries, outcome, htalks⟩

omit [Link L] in
/-- What comes of attempting it is the fault, in every case. -/
theorem attempt_refused_bind {β : Type} {send : Step (Traced L) β}
    {f : Except Setback β → Step (Traced L) α}
    {Q : Except (Stop Setback) α → Session (Traced L) → Prop}
    (h : Ensures send s (Refused P frame s))
    (hrest : ∀ failure s₁, Refused P frame s (.error (.because (.minor failure)) : Except _ β) s₁ →
      Ensures (f (.error (.minor failure))) s₁ Q) :
    Ensures (attempt send >>= f) s Q := by
  have hminor : ∀ {stop : Stop Setback} {s₁ : Session (Traced L)},
      Refused P frame s (.error stop : Except _ β) s₁ →
      ∃ failure, stop = .because (.minor failure) := by
    rintro stop s₁ ⟨⟨stop', hr, hfailure⟩, -⟩
    obtain rfl := Except.error.inj hr
    exact hfailure
  refine ensures_attempt_bind h ?_ ?_ ?_ ?_
  · rintro b s₁ ⟨⟨stop, hr, -⟩, -⟩
    exact absurd hr nofun
  · rintro setback s₁ hrefused
    obtain ⟨failure, hstop⟩ := hminor hrefused
    obtain rfl := Stop.because.inj hstop
    exact hrest failure s₁ hrefused
  · rintro s₁ hrefused
    obtain ⟨failure, hstop⟩ := hminor hrefused
    exact absurd hstop nofun
  · rintro s₁ hrefused
    obtain ⟨failure, hstop⟩ := hminor hrefused
    exact absurd hstop nofun

theorem sendRequest_refused (h : Unwritable P) (hlink : P s.link.link) (function : Supervisory) :
    Ensures (sendControl (s.codec.make (.request function) [])) s
      (Refused P (s.codec.request function) s) := by
  have hencode : s.codec.encodeWithin (s.codec.make (.request function) []) controlFrameMax
      = .ok (s.codec.request function) :=
    Codec.encodeWithin_control (Nat.zero_le 2) (fun _ _ h => Control.noConfusion h)
      (by unfold controlFrameMax; omega)
  unfold sendControl
  rw [ensures_get_bind, hencode]
  exact transmit_refused h hlink _

/-! ## A loop of tries -/

omit [Link L] in
/-- A round came to nothing. It cost a try, or was the one too many. -/
def Spent (P : L → Prop) (frame : Bytes) (s : Session (Traced L))
    (r : Except (Stop Setback) (Unit ⊕ α)) (s' : Session (Traced L)) : Prop :=
  P s'.link.link ∧ (∃ outcome, Talks s [.sent frame outcome] s') ∧
    match r with
    | .ok (.inl ()) => s'.retries = s.retries + 1 ∧ s'.retries ≤ s.settings.countable
    | .ok (.inr _) => False
    | .error stop => s.settings.countable ≤ s.retries ∧ stop.EndsTries s.settings

omit [Link L] in
theorem charge_spent {failure : Failure} {s₁ : Session (Traced L)}
    (hbudget : s.retries ≤ s.settings.countable)
    (h : Refused P frame s (.error (.because (.minor failure)) : Except _ α) s₁) :
    Ensures (do charge (.minor failure); return .inl () : Step (Traced L) (Unit ⊕ α)) s₁
      (Spent P frame s) := by
  obtain ⟨-, hlink, hretries, outcome, htalks⟩ := h
  have hsettings := htalks.settings
  unfold Settings.countable at hbudget
  by_cases hleft : s.retries < s.settings.countable
  · have hcounted : s.retries < s.settings.blockRetransmits ∧ s.retries < counterMax :=
      Nat.lt_min.mp hleft
    have hnot : s₁.retries ≠ counterMax := by
      rw [hretries]
      exact Nat.ne_of_lt hcounted.2
    have hpasses : s₁.retries + 1 ≤ s₁.settings.blockRetransmits := by
      rw [hsettings, hretries]
      exact hcounted.1
    unfold Ensures
    rw [bind_of_ok (charge_passes failure hnot hpasses)]
    refine ⟨hlink, ⟨outcome, ?_⟩, congrArg (· + 1) hretries, ?_⟩
    · exact { htalks with passes := htalks.passes.congr rfl }
    · show s₁.retries + 1 ≤ s.settings.countable
      rw [hretries]
      exact hleft
  · have hlast : s.settings.countable ≤ s.retries := Nat.le_of_not_lt hleft
    by_cases hcount : s.settings.blockRetransmits < counterMax
    · have hspent : s₁.settings.blockRetransmits < s₁.retries + 1 := by
        rw [hsettings, hretries, ← Settings.countable_eq hcount]
        exact Nat.lt_succ_of_le hlast
      unfold Ensures
      rw [bind_of_error (charge_fails failure (by omega) hspent)]
      refine ⟨hlink, ⟨outcome, ?_⟩, hlast, ?_⟩
      · exact { htalks with passes := htalks.passes.congr rfl }
      · unfold Stop.EndsTries
        rw [if_pos hcount]
        exact ⟨failure, rfl⟩
    · have hfull : s₁.retries = counterMax := by
        unfold Settings.countable at hlast
        omega
      unfold Ensures
      rw [bind_of_error (charge_crashes failure hfull)]
      refine ⟨hlink, ⟨outcome, htalks⟩, hlast, ?_⟩
      unfold Stop.EndsTries
      rw [if_neg hcount]

omit [Link L] in
theorem askRound_spent {ask : Step (Traced L) Inbound} {answer : Control}
    (hbudget : s.retries ≤ s.settings.countable) (h : Ensures ask s (Refused P frame s)) :
    Ensures (askRound ask answer ()) s (Spent P frame s) := by
  unfold askRound
  exact attempt_refused_bind h fun _ _ hrefused => charge_spent hbudget hrefused

theorem sendFinalRound_spent (hbudget : s.retries ≤ s.settings.countable) (h : Unwritable P)
    (hlink : P s.link.link) :
    Ensures (sendFinalRound ()) s (Spent P s.command.used s) := by
  unfold sendFinalRound
  exact attempt_refused_bind (transmit_refused h hlink s.command.used) fun _ _ hrefused =>
    charge_spent hbudget hrefused

omit [Link L] in
/-- All tries were used up on these frames. -/
def Exhausted (P : L → Prop) (frames : List Bytes) (s : Session (Traced L))
    (r : Except (Stop Setback) α) (s' : Session (Traced L)) : Prop :=
  (∃ stop, r = .error stop ∧ stop.EndsTries s.settings) ∧ P s'.link.link ∧
    ∃ items, Passes s items s' ∧ AllSent frames items

omit [Link L] in
/-- **Tries that come to nothing are used up, and no round is left out.** -/
theorem loop_exhausts {round : Unit → Step (Traced L) (Unit ⊕ α)}
    (hround : ∀ s₁ items, Talks s items s₁ → P s₁.link.link → s₁.retries ≤ s₁.settings.countable →
      Ensures (round ()) s₁ (Spent P frame s₁)) :
    ∀ (n : Nat) (s₁ : Session (Traced L)) (items : List Passage), Talks s items s₁ →
      P s₁.link.link → s₁.retries ≤ s.settings.countable →
      s.settings.blockRetransmits < s₁.retries + n →
      Ensures (loop round n ()) s₁ (Exhausted P
        (List.replicate (s.settings.countable + 1 - s₁.retries) frame) s₁)
  | 0, s₁, items, htalks, _, hbudget, hrounds => by
      unfold Settings.countable at hbudget
      omega
  | n + 1, s₁, items, htalks, hlink, hbudget, hrounds => by
      unfold loop
      refine (hround s₁ items htalks hlink (by rw [htalks.settings]; exact hbudget)).bind ?_ ?_
      · rintro (u | a) s₂ ⟨hlink', ⟨outcome, hsent⟩, hspent⟩
        · obtain ⟨hretries, hleft⟩ := hspent
          rw [htalks.settings] at hleft
          have hlater := loop_exhausts hround n s₂ _ (htalks.trans hsent) hlink' hleft (by omega)
          refine hlater.mono ?_
          rintro r s₃ ⟨hr, hlink'', rest, hrest, hall⟩
          rw [hsent.settings] at hr
          refine ⟨hr, hlink'', _, hsent.passes.trans hrest (by rw [hsent.codec]) hsent.capacity, ?_⟩
          -- one copy now, and the others behind it
          have hcopies : s.settings.countable + 1 - s₁.retries
              = 1 + (s.settings.countable + 1 - s₂.retries) := by omega
          rw [hcopies, List.replicate_add]
          exact (allSent_one frame outcome).append hall
        · exact hspent.elim
      · rintro stop s₂ ⟨hlink', ⟨outcome, hsent⟩, hlast, hends⟩
        rw [htalks.settings] at hlast
        have hcopies : s.settings.countable + 1 - s₁.retries = 1 := by omega
        rw [hcopies]
        exact ⟨⟨stop, rfl, hends⟩, hlink', _, hsent.passes, allSent_one frame outcome⟩

omit [Link L] in
/-- Whatever has to be handed over before each answer is handed over in vain. -/
theorem askUntil_exhausts {ask : Step (Traced L) Inbound} (answer : Control)
    (hlink : P s.link.link) (hfresh : s.retries = 0)
    (hask : ∀ s₁ items, Talks s items s₁ → P s₁.link.link →
      Ensures ask s₁ (Refused P frame s₁)) :
    Ensures (askUntil ask answer) s (Exhausted P
      (List.replicate (s.settings.countable + 1) frame) s) := by
  have hall : s.settings.countable + 1 = s.settings.countable + 1 - s.retries := by
    rw [hfresh, Nat.sub_zero]
  unfold askUntil
  rw [ensures_get_bind, hall]
  exact loop_exhausts (s := s)
    (fun s₁ items htalks hlink' hbudget => askRound_spent hbudget (hask s₁ items htalks hlink'))
    (s.settings.blockRetransmits + 1) s [] (Talks.refl s) hlink (by omega) (by omega)

/-- A block that is staged is sent in vain, whether or not others follow. -/
theorem sendStaged_exhausts (h : Unwritable P) (hlink : P s.link.link) (hfresh : s.retries = 0) :
    Ensures sendChained s (Exhausted P
        (List.replicate (s.settings.countable + 1) s.command.used) s) ∧
      Ensures sendFinal s (Exhausted P
        (List.replicate (s.settings.countable + 1) s.command.used) s) := by
  constructor
  · unfold sendChained
    rw [ensures_get_bind]
    refine (askUntil_exhausts _ hlink hfresh fun s₁ items htalks hlink' => ?_).bind_fails
    refine Ensures.bind_fails ?_
    rw [← htalks.command]
    exact transmit_refused h hlink' _
  · have hall : s.settings.countable + 1 = s.settings.countable + 1 - s.retries := by
      rw [hfresh, Nat.sub_zero]
    unfold sendFinal
    rw [ensures_get_bind, hall]
    refine loop_exhausts (s := s) (fun s₁ items htalks hlink' hbudget => ?_)
      (s.settings.blockRetransmits + 1) s [] (Talks.refl s) hlink (by omega) (by omega)
    rw [← htalks.command]
    exact sendFinalRound_spent hbudget h hlink'

theorem sendBlock_exhausts {block : Block} (h : Unwritable P) (hlink : P s.link.link)
    (hpayload : block.payload.length ≤ s.codec.maxPayload)
    (hroom : s.codec.frameCapacity ≤ s.command.capacity) :
    Ensures (sendBlock block) s (Exhausted P
      (List.replicate (s.settings.countable + 1) (s.codec.layout block)) s) := by
  unfold sendBlock
  refine ((stage_spec block).and (stage_fits hpayload hroom)).bind ?_ ?_
  · rintro u s₁ ⟨⟨command, rfl, hused⟩, -⟩
    rw [ensures_modify_bind]
    dsimp only at hused ⊢
    obtain ⟨hchained, hfinal⟩ := sendStaged_exhausts (s := { s with command, retries := 0 }) h hlink
      rfl
    dsimp only at hchained hfinal
    rw [hused] at hchained hfinal
    split
    · exact hchained.bind_fails
    · exact hfinal.bind_fails
  · rintro stop s₁ ⟨-, hok, -⟩
    exact absurd hok nofun

/-- **A command that cannot be handed over costs all tries of its first block.** -/
theorem sendChain_exhausts (command : Bytes) (h : Unwritable P) (hlink : P s.link.link)
    (hroom : s.codec.frameCapacity ≤ s.command.capacity) :
    ∃ first, (s.commandBlocks command).head? = some first ∧
      Ensures (sendChain command) s (Exhausted P
        (List.replicate (s.settings.countable + 1) (s.codec.layout first)) s) := by
  obtain ⟨first, rest, hnext⟩ :=
    Chain.exists_next (c := Chain.ofPayload s.codec command s.sendSeq) rfl
  refine ⟨first, ?_, ?_⟩
  · unfold commandBlocks
    rw [Chain.blocks_next hnext]
    rfl
  unfold sendChain
  rw [ensures_modify_bind, ensures_get_bind]
  dsimp only [resetExchange]
  rw [Chain.remaining_next hnext]
  unfold sendBlocks
  rw [hnext]
  exact (sendBlock_exhausts (s := { s with
    parked := none, extension := {}, response := s.response.clear, commandPending := false })
    h hlink (Chain.payload_next_le hnext) hroom).bind_fails.bind_fails

end Step

namespace Session

open SecureElement.Action

variable {L : Type} [Link L] {P : L → Prop} {settings : Settings} {s : Session (Traced L)}

/-! ## Recovery -/

theorem resyncOnce_refused (h : Unwritable P) (hlink : P s.link.link) :
    Ensures Step.resyncOnce s (Step.Refused P (s.codec.request .resync) s) := by
  unfold Step.resyncOnce
  rw [ensures_get_bind]
  exact (Step.sendRequest_refused h hlink .resync).bind_fails

theorem resyncAttempts_exhausts (h : Unwritable P) :
    ∀ (n : Nat) (s : Session (Traced L)), P s.link.link →
      Ensures (resyncAttempts n) s fun r s' => r = .ok false ∧
        ∃ items, Talks s items s' ∧ AllSent (List.replicate n (s.codec.request .resync)) items
  | 0, s, _ => ⟨rfl, [], Talks.refl s, rfl⟩
  | n + 1, s, hlink => by
      unfold resyncAttempts
      refine Step.ensures_conclude (resyncOnce_refused h hlink) ?_ ?_ ?_ ?_
      · rintro u s₁ ⟨⟨stop, hr, -⟩, -⟩
        cases hr
      · rintro setback s₁ ⟨-, hlink', -, outcome, hsent⟩
        refine (resyncAttempts_exhausts h n s₁ hlink').mono ?_
        rintro r s₂ ⟨hr, rest, hrest, hall⟩
        rw [hsent.codec] at hall
        exact ⟨hr, _, hsent.trans hrest, (allSent_one _ outcome).append hall⟩
      · rintro s₁ ⟨⟨stop, hr, failure, rfl⟩, -⟩
        cases hr
      · rintro s₁ ⟨⟨stop, hr, failure, rfl⟩, -⟩
        cases hr

/-- **A recovery that cannot hand over its requests makes all its attempts and gives up.** -/
theorem recover_exhausts (failure : Failure) (h : Unwritable P) (hlink : P s.link.link)
    (hstatus : s.status = .busy) :
    Ensures (recover failure) s fun r s' =>
      r = .ok .recoveryExhausted ∧ s'.status = .closed ∧ ∃ items,
        Passes s (items ++ [.released]) s' ∧
        AllSent (List.replicate s.settings.resyncAttempts (s.codec.request .resync)) items := by
  refine ensures_recover hstatus ?_
  refine (resyncAttempts_exhausts h s.settings.resyncAttempts s.recovering hlink).mono ?_
  rintro r s₁ ⟨rfl, items, htalks, hall⟩
  have hpasses : Passes s items s₁ := htalks.passes
  have hreleased := hpasses.trans (released_passes s₁) (congrArg Codec.epilogue htalks.codec)
    htalks.capacity
  exact ⟨htalks.status, rfl, rfl, items, hreleased.congr rfl, hall⟩

/-! ## The call -/

/-- **A call that sends a command over such a link uses up its tries and all attempts of the
recovery, and gives the session up.** -/
theorem send_exhausts (command : Bytes) (h : Housed settings s) (hready : s.status.isReady = true)
    (hcount : s.settings.blockRetransmits < counterMax) (hunwritable : Unwritable P)
    (hlink : P s.link.link) :
    ∃ first, (s.commandBlocks command).head? = some first ∧
      Ensures (send command) s fun r s' =>
        r = .error (.because .recoveryExhausted) ∧ s'.status = .closed ∧ ∃ sent,
          Passes s (sent ++ [.released]) s' ∧
          AllSent (List.replicate (s.settings.blockRetransmits + 1) (s.codec.layout first)
            ++ List.replicate s.settings.resyncAttempts (s.codec.request .resync)) sent := by
  obtain ⟨first, hfirst, hexhausts⟩ :=
    Step.sendChain_exhausts (s := s.begun) command hunwritable hlink h.roomy.staging
  have hbudget : s.begun.settings.countable = s.settings.blockRetransmits :=
    Settings.countable_eq hcount
  rw [hbudget] at hexhausts
  refine ⟨first, hfirst, ?_⟩
  have hexchanged := sendChain_exchanged (s := s.begun) command h.sound.capacity
  refine ensures_run hready (hexhausts.and hexchanged) ?_ ?_ ?_ ?_
  · rintro u s₁ ⟨⟨⟨stop, hr, -⟩, -⟩, -⟩
    exact absurd hr nofun
  · rintro setback s₁ ⟨⟨-, hlink', items, hpasses, hsent⟩, hexchanged⟩
    obtain ⟨⟨hkeeps, hstatus, -⟩, ⟨front, hwithin⟩, -⟩ := hexchanged
    have hcodec : s₁.codec = s.codec := hwithin.codec
    have hsettings : s₁.settings = s.settings := hkeeps.settings
    refine (recover_exhausts (s := { s₁ with deadline := none }) setback.failure hunwritable hlink'
      hstatus).mono ?_
    rintro r s₂ ⟨rfl, hclosed, back, hback, hall⟩
    dsimp only at hall
    rw [hcodec, hsettings] at hall
    have hwhole : Passes s (items ++ (back ++ [.released])) s₂ :=
      Hears.trans (Hears.congr hpasses rfl) hback (congrArg Codec.epilogue hcodec) hkeeps.capacity
    rw [← List.append_assoc] at hwhole
    exact ⟨rfl, hclosed, _, hwhole, hsent.append hall⟩
  · rintro s₁ ⟨⟨⟨stop, hr, hends⟩, -⟩, -⟩
    obtain ⟨failure, rfl⟩ := hends.major hcount
    exact absurd hr nofun
  · rintro s₁ ⟨⟨⟨stop, hr, hends⟩, -⟩, -⟩
    obtain ⟨failure, rfl⟩ := hends.major hcount
    exact absurd hr nofun

/-! ## The handshake -/

end Session

end SecureElement
