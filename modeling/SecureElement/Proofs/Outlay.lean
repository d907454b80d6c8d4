import SecureElement.Proofs.Granting
import SecureElement.Proofs.Guarantees
import SecureElement.Proofs.Progress
import SecureElement.Proofs.Rehearsed
import SecureElement.Proofs.Script

/-!
# What a recovery may send

A recovery has no deadline, so what bounds it has to be counted. Every frame that it hands
over is of one of three kinds:

* a request to resynchronise, of which there is one for each attempt;
* a grant of more time, which takes something off a `Reserve`: what is left below the
  ceiling, or what is left of the number of requests;
* a repeated size, which answers a request of the peer and is taken off nothing.

`Outlay` puts the three together: what was handed over and what is left of a reserve is
paid for by attempts, by requests for a size, and by what was left before. It is a step
lemma for one round of a wait (`awaitRound_outlay`), and everything else adds up.

So a recovery hands over as many frames as the settings allow, and one for each size
that the peer announces meanwhile (`recovery_outlay`). That the settings alone give no
bound is shown by `recovery_unbounded`: a peer that goes on announcing sizes is answered
for as long as it does.
-/

namespace SecureElement

open Link

/-! ## Counting -/

/-- The block announces a size, and is to be answered. -/
def Codec.announcesSize (c : Codec) (raw : Bytes) : Bool :=
  match c.decode raw with
  | .ok block => decide (block.control = .request .ifs ∧ block.payload ≠ [])
  | .error _ => false

namespace Passage

/-- How many frames were handed to the link. -/
def handed (items : List Passage) : Nat := (items.filterMap frame?).length

/-- How many blocks arrived that announce a size. -/
def announcedSizes (c : Codec) (items : List Passage) : Nat :=
  (items.filterMap raw?).countP c.announcesSize

variable {c : Codec}

theorem handed_append (front back : List Passage) :
    handed (front ++ back) = handed front + handed back := by
  unfold handed
  rw [List.filterMap_append, List.length_append]

theorem announcedSizes_append (front back : List Passage) :
    announcedSizes c (front ++ back) = announcedSizes c front + announcedSizes c back := by
  unfold announcedSizes
  rw [List.filterMap_append, List.countP_append]

theorem announcedSizes_size {raw : Bytes} {block : Block} (h : c.decode raw = .ok block)
    (hcontrol : block.control = .request .ifs) (hpayload : block.payload ≠ [])
    (items : List Passage) :
    announcedSizes c (.received raw :: items) = announcedSizes c items + 1 := by
  have hannounces : c.announcesSize raw = true := by
    unfold Codec.announcesSize
    rw [h]
    exact decide_eq_true ⟨hcontrol, hpayload⟩
  unfold announcedSizes
  rw [List.filterMap_cons_some (by rfl), List.countP_cons_of_pos hannounces]

end Passage

namespace Session

/-- What is left of something that every grant of more time takes from, and no request adds to. -/
structure Reserve (settings : Settings) (left : Extension → Nat) : Prop where
  counted : ∀ x, left (Step.counted x) ≤ left x
  granted : ∀ {x multiplier extra total}, 0 < multiplier →
    Step.grantable? settings (Step.counted x) multiplier = some (extra, total) →
    left { Step.counted x with granted := total } + 1 ≤ left x

/-- What a request is granted is allowed. -/
theorem grantable?_eq_some {settings : Settings} {x : Extension} {multiplier : Nat}
    {extra total : Nanos} (h : Step.grantable? settings x multiplier = some (extra, total)) :
    total = x.granted + multiplier * settings.blockTimeout ∧
      x.requests ≤ settings.maxExtensions ∧ total ≤ settings.extensionCeiling := by
  unfold Step.grantable? Time.scale? Time.add? at h
  by_cases hextra : multiplier * settings.blockTimeout ≤ Time.longest
  · rw [if_pos hextra] at h
    dsimp only [bind, Option.bind] at h
    by_cases hsum : x.granted + multiplier * settings.blockTimeout ≤ Time.longest
    · rw [if_pos hsum] at h
      dsimp only at h
      split at h
      · rename_i hallowed
        obtain ⟨-, rfl⟩ := Prod.mk.inj (Option.some.inj h)
        exact ⟨rfl, hallowed⟩
      · exact absurd h nofun
    · rw [if_neg hsum] at h
      exact absurd h nofun
  · rw [if_neg hextra] at h
    exact absurd h nofun

/-- How many block timeouts are left below the ceiling. -/
theorem reserve_ceiling {settings : Settings} (htimeout : 0 < settings.blockTimeout) :
    Reserve settings fun x => (settings.extensionCeiling - x.granted) / settings.blockTimeout where
  counted _ := Nat.le_refl _
  granted := by
    intro x multiplier extra total hsome h
    obtain ⟨htotal, -, hceiling⟩ := grantable?_eq_some h
    -- a grant is one block timeout at least, so one of those that are left is gone
    have hone : settings.blockTimeout ≤ multiplier * settings.blockTimeout :=
      Nat.le_mul_of_pos_left _ hsome
    have hbefore : (Step.counted x).granted = x.granted := rfl
    rw [hbefore] at htotal
    have hgrows : ∀ ceiling before after time timeout : Nat, after = before + time →
        timeout ≤ time → after ≤ ceiling → ceiling - after + timeout ≤ ceiling - before := by
      omega
    have hless := hgrows _ _ _ _ _ htotal hone hceiling
    calc (settings.extensionCeiling - total) / settings.blockTimeout + 1
        = (settings.extensionCeiling - total + settings.blockTimeout) / settings.blockTimeout :=
          (Nat.add_div_right _ htimeout).symm
      _ ≤ (settings.extensionCeiling - x.granted) / settings.blockTimeout :=
          Nat.div_le_div_right hless

/-- How many requests are left, unless their count stops before. -/
theorem reserve_count {settings : Settings} (hcount : settings.maxExtensions < counterMax) :
    Reserve settings fun x => settings.maxExtensions - x.requests where
  counted x := by
    show settings.maxExtensions - min (x.requests + 1) counterMax ≤ _
    omega
  granted := by
    intro x multiplier extra total hsome h
    obtain ⟨-, hrequests, -⟩ := grantable?_eq_some h
    have hcounted : (Step.counted x).requests = min (x.requests + 1) counterMax := rfl
    show settings.maxExtensions - (Step.counted x).requests + 1 ≤ _
    omega

/-- Two reserves are taken from together. -/
theorem Reserve.min {settings : Settings} {left₁ left₂ : Extension → Nat}
    (h₁ : Reserve settings left₁) (h₂ : Reserve settings left₂) :
    Reserve settings fun x => min (left₁ x) (left₂ x) where
  counted x := by
    have hcounted₁ := h₁.counted x
    have hcounted₂ := h₂.counted x
    omega
  granted := by
    intro x multiplier extra total hsome h
    have hgranted₁ := h₁.granted hsome h
    have hgranted₂ := h₂.granted hsome h
    omega

/-! ## What each step spends -/

variable {L : Type} {left : Extension → Nat} {s s₁ s' : Session (Traced L)} {items : List Passage}

/-- Between two states only talk passed, and the frames that were handed over are paid for: `spent`
of them are free, and the others were demanded by an announced size or taken off the reserve. -/
def Outlay (left : Extension → Nat) (spent : Nat) (s s' : Session (Traced L)) : Prop :=
  ∃ items, Within s items s' ∧ Passage.handed items + left s'.extension
    ≤ spent + Passage.announcedSizes s.codec items + left s.extension

theorem Outlay.trans {m n : Nat} (h₁ : Outlay left m s s₁) (h₂ : Outlay left n s₁ s') :
    Outlay left (m + n) s s' := by
  obtain ⟨items₁, hwithin₁, hpaid₁⟩ := h₁
  obtain ⟨items₂, hwithin₂, hpaid₂⟩ := h₂
  rw [hwithin₁.codec] at hpaid₂
  refine ⟨items₁ ++ items₂, hwithin₁.trans hwithin₂, ?_⟩
  rw [Passage.handed_append, Passage.announcedSizes_append]
  omega

theorem Outlay.mono {m n : Nat} (h : Outlay left m s s') (hle : m ≤ n) : Outlay left n s s' := by
  obtain ⟨items, hwithin, hpaid⟩ := h
  exact ⟨items, hwithin, by omega⟩

/-- What was left aside when `items` passed pays for what is spent behind them. -/
theorem Outlay.after {n : Nat} (hwithin : Within s items s₁)
    (hroom : Passage.handed items + left s₁.extension + n
      ≤ Passage.announcedSizes s.codec items + left s.extension)
    (h : Outlay left n s₁ s') : Outlay left 0 s s' := by
  obtain ⟨items', hwithin', hpaid⟩ := h
  rw [hwithin.codec] at hpaid
  refine ⟨items ++ items', hwithin.trans hwithin', ?_⟩
  rw [Passage.handed_append, Passage.announcedSizes_append]
  omega

theorem Outlay.refl (s : Session (Traced L)) : Outlay left 0 s s :=
  ⟨[], Within.refl s, by show 0 + _ ≤ _; omega⟩

theorem Outlay.keeps {n : Nat} (h : Outlay left n s s') : Keeps s s' := by
  obtain ⟨items, hwithin, -⟩ := h
  exact hwithin.keeps

/-- A round of a wait changes nothing that an exchange is about. -/
theorem within_round {link : Traced L} {frame : Buffer} {statistics : Statistics}
    {extension : Extension} {deadline : Option Nanos} (hframe : frame.capacity = s.frame.capacity)
    (hpasses : Passes s items { s with link, frame, statistics })
    (htalk : ∀ x ∈ items, x.IsTalk) :
    Within s items { s with link, frame, statistics, extension, deadline } where
  settings := rfl
  status := rfl
  codec := rfl
  capacity := hframe
  passes := hpasses.congr rfl
  talk := htalk

end Session

namespace Step

open SecureElement.Action Session

variable {L : Type} [Link L] {left : Extension → Nat} {s : Session (Traced L)}

/-- Handing over one frame. -/
theorem sendControl_outlay {block : Block} (hpayload : block.payload.length ≤ 2)
    (hcontrol : ∀ seq more, block.control ≠ .information seq more) :
    Ensures (sendControl block) s fun _ s' => Outlay left 1 s s' := by
  refine (sendControl_outcome hpayload hcontrol).mono ?_
  intro r s' hend
  obtain ⟨outcome, link, rfl, hsent, -⟩ := hend
  refine ⟨_, within_round rfl hsent (List.forall_mem_singleton.mpr trivial), ?_⟩
  exact Nat.add_le_add_right (Nat.le_add_right 1 _) _

/-- A request is answered with what was left aside for it. -/
theorem answer_outlay {α : Type} {value : α} {block : Block} {s₁ : Session (Traced L)}
    {items : List Passage} (hpayload : block.payload.length ≤ 2)
    (hcontrol : ∀ seq more, block.control ≠ .information seq more) (hwithin : Within s items s₁)
    (hroom : Passage.handed items + left s₁.extension + 1
      ≤ Passage.announcedSizes s.codec items + left s.extension) :
    Ensures (do sendControl block; return value) s₁ fun _ s' => Outlay left 0 s s' := by
  have hanswer : Ensures (sendControl block) s₁ fun _ s' => Outlay left 0 s s' :=
    (sendControl_outlay hpayload hcontrol).mono fun _ _ h => .after hwithin hroom h
  exact hanswer.bind (fun _ _ h => h) fun _ _ h => h

section Answering

variable {raw : Bytes} {multiplier : UInt8} {link : Traced L} {frame : Buffer}
  {statistics : Statistics}

omit [Link L] in
/-- Nothing is handed over while a block is received. -/
theorem received_outlay (htalks : Talks s [.received raw] { s with link, frame, statistics }) :
    Outlay left 0 s { s with link, frame, statistics } :=
  ⟨_, htalks.toWithin, Nat.add_le_add_right (Nat.zero_le _) _⟩

/-- A request for some time is refused, or what is granted is taken off the reserve. -/
theorem request_outlay (hreserve : Reserve s.settings left)
    (htalks : Talks s [.received raw] { s with link, frame, statistics }) :
    Ensures (do
        let extra ← extendWait multiplier
        sendControl (s.codec.make (.response .wtx) [multiplier])
        return .inl extra : Step (Traced L) (Nanos ⊕ Inbound))
      { s with link, frame, statistics } fun _ s' => Outlay left 0 s s' := by
  have hframe : frame.capacity = s.frame.capacity := htalks.capacity
  by_cases hzero : multiplier = 0
  · unfold extendWait
    rw [if_pos hzero]
    exact received_outlay htalks
  refine (extendWait_outcome hzero).bind ?_ ?_
  · intro extra s₁ hend
    dsimp only at hend
    cases hgrantable : grantable? s.settings (counted s.extension) multiplier.toNat with
    | none =>
        rw [hgrantable] at hend
        exact absurd hend.1 nofun
    | some times =>
        obtain ⟨extra', total⟩ := times
        rw [hgrantable] at hend
        obtain ⟨-, rfl⟩ := hend
        have hsome : 0 < multiplier.toNat :=
          Nat.pos_of_ne_zero fun h => hzero (UInt8.toNat_inj.mp h)
        have htaken := hreserve.granted hsome hgrantable
        refine answer_outlay (Nat.le_succ 1) (fun _ _ => nofun)
          (within_round hframe htalks.passes htalks.talk) ?_
        have hpays : ∀ a b c : Nat, a + 1 ≤ b → 0 + a + 1 ≤ c + b := by omega
        exact hpays _ _ _ htaken
  · intro stop s₁ hend
    dsimp only at hend
    cases hgrantable : grantable? s.settings (counted s.extension) multiplier.toNat with
    | none =>
        rw [hgrantable] at hend
        obtain ⟨-, rfl⟩ := hend
        refine ⟨_, within_round hframe htalks.passes htalks.talk, ?_⟩
        exact Nat.add_le_add (Nat.zero_le _) (hreserve.counted _)
    | some times =>
        rw [hgrantable] at hend
        exact absurd hend.1 nofun

/-- A size is repeated because it was announced. -/
theorem size_outlay {block : Block} {octets : Bytes} {wait : Nanos}
    (htalks : Talks s [.received raw] { s with link, frame, statistics })
    (hdecode : s.codec.decode raw = .ok block) (hcontrol : block.control = .request .ifs)
    (hpayload : block.payload ≠ []) :
    Ensures (do
        sendControl (s.codec.make (.response .ifs) (octets.take 2))
        return .inl wait : Step (Traced L) (Nanos ⊕ Inbound))
      { s with link, frame, statistics } fun _ s' => Outlay left 0 s s' := by
  refine answer_outlay (List.length_take_le _ _) (fun _ _ => nofun) htalks.toWithin ?_
  rw [Passage.announcedSizes_size hdecode hcontrol hpayload]
  have hpays : ∀ a c : Nat, 0 + a + 1 ≤ c + 1 + a := by omega
  exact hpays _ _

end Answering

/-- **What a round of a wait hands over is paid for.** -/
theorem awaitRound_outlay (hreserve : Reserve s.settings left) (timeout : Nanos)
    (hcapacity : Block.longPrologue ≤ s.frame.capacity) :
    Ensures (awaitRound timeout) s fun _ s' => Outlay left 0 s s' := by
  unfold awaitRound
  refine (waitTime_spec timeout).bind ?_ ?_
  · intro wait s₁ hend
    obtain ⟨rfl, -⟩ := hend
    refine (receiveBlock_spec wait hcapacity).bind ?_ ?_
    · intro inbound s₂ hend
      obtain ⟨link, frame, statistics, rfl, raw, block, htalks, harrived, -⟩ := hend
      rw [ensures_get_bind]
      dsimp only
      split
      · exact request_outlay hreserve htalks
      · rename_i hifs
        split
        · exact received_outlay htalks
        · rename_i hlength
          refine size_outlay htalks harrived.decode (harrived.control.symm.trans hifs) ?_
          exact fun hnil => hlength (Arrived.payload_eq_nil harrived hnil)
      · exact received_outlay htalks
    · intro stop s₂ hend
      obtain ⟨link, frame, statistics, rfl, -, x, htalks, hfruitless, -⟩ := hend
      refine ⟨[x], htalks.toWithin, Nat.add_le_add_right ?_ _⟩
      cases hfruitless <;> exact Nat.zero_le _
  · intro stop s₁ hend
    obtain ⟨rfl, -⟩ := hend
    exact .refl _

/-- So is the whole wait, however many requests it answers. -/
theorem awaitRounds_outlay (hreserve : Reserve s.settings left)
    (hcapacity : Block.longPrologue ≤ s.frame.capacity) (rounds : Nat) (timeout : Nanos) :
    Ensures (loop awaitRound rounds timeout) s fun _ s' => Outlay left 0 s s' := by
  -- a round starts with whatever reserve the rounds before it have left
  refine ensures_loop (I := fun _ s' => Outlay left 0 s s') ?_ ?_ _ _ _ (.refl s)
  · intro timeout s₁ hbefore
    have hsettings := hbefore.keeps.settings
    refine (awaitRound_outlay (hsettings ▸ hreserve) timeout
      (hbefore.keeps.holds hcapacity)).mono ?_
    intro r s₂ hround
    have hafter : Outlay left (0 + 0) s s₂ := hbefore.trans hround
    match r with
    | .ok (.inl _) | .ok (.inr _) | .error _ => exact hafter
  · exact fun _ _ hbefore => hbefore

theorem awaitBlock_outlay (hreserve : Reserve s.settings left)
    (hcapacity : Block.longPrologue ≤ s.frame.capacity) :
    Ensures awaitBlock s fun _ s' => Outlay left 0 s s' := by
  unfold awaitBlock
  rw [ensures_get_bind]
  exact awaitRounds_outlay hreserve hcapacity _ _

/-- An attempt to resynchronise is free, and what it waits for is paid for. -/
theorem resyncOnce_outlay (hreserve : Reserve s.settings left)
    (hcapacity : Block.longPrologue ≤ s.frame.capacity) :
    Ensures resyncOnce s fun _ s' => Outlay left 1 s s' := by
  unfold resyncOnce
  rw [ensures_get_bind]
  have hrequest : Ensures (sendControl (s.codec.make (.request .resync) [])) s
      fun _ s' => Outlay left 1 s s' :=
    sendControl_outlay (Nat.zero_le 2) fun _ _ => nofun
  refine hrequest.bind ?_ ?_
  · intro _ s₁ hsent
    have hsettings := hsent.keeps.settings
    refine (awaitBlock_outlay (hsettings ▸ hreserve) (hsent.keeps.holds hcapacity)).bind ?_ ?_
    · intro inbound s₂ hwaited
      have hboth : Outlay left (1 + 0) s s₂ := hsent.trans hwaited
      split
      · exact hboth
      · exact hboth
    · intro stop s₂ hwaited
      exact hsent.trans hwaited
  · exact fun _ _ hsent => hsent

end Step

namespace Session

open SecureElement.Action

variable {L : Type} [Link L] {settings : Settings} {left : Extension → Nat}
  {s : Session (Traced L)}

/-- Every attempt hands over one frame that nothing else pays for. -/
theorem resyncAttempts_outlay :
    ∀ (n : Nat) (s : Session (Traced L)), Reserve s.settings left →
      Block.longPrologue ≤ s.frame.capacity →
      Ensures (resyncAttempts n) s fun _ s' => Outlay left n s s'
  | 0, s, _, _ => .refl s
  | n + 1, s, hreserve, hcapacity => by
      unfold resyncAttempts
      refine Step.ensures_conclude (Step.resyncOnce_outlay hreserve hcapacity) ?_ ?_ ?_ ?_
      · exact fun _ _ hone => hone.mono (Nat.succ_le_succ (Nat.zero_le n))
      · intro setback s₁ hone
        have hsettings := hone.keeps.settings
        refine (resyncAttempts_outlay n s₁ (hsettings ▸ hreserve)
          (hone.keeps.holds hcapacity)).mono ?_
        exact fun _ _ hrest => (hone.trans hrest).mono (Nat.le_of_eq (Nat.add_comm 1 n))
      · exact fun _ hone => hone.mono (Nat.succ_le_succ (Nat.zero_le n))
      · exact fun _ hone => hone.mono (Nat.succ_le_succ (Nat.zero_le n))

/-- A call whose exchange failed recovers. Over a link whose backlog is true to its name it comes to
an end. -/
theorem run_recovers [Truthful L] {P : List Passage → Prop} {request : Request}
    {exchange : Step (Traced L) Unit} {setback : Setback} {s₁ : Session (Traced L)}
    (h : Reachable settings s) (hready : s.status.isReady = true)
    (hexchange : request.exchange? = some exchange)
    (hfault : exchange s.begun = .error (.because setback) s₁)
    (hreleased : ∀ items, P items → P (items ++ [.released]))
    (hattempts : s₁.codec = s.codec → s₁.settings = settings →
      Block.longPrologue ≤ s₁.frame.capacity →
      Ensures (resyncAttempts settings.resyncAttempts) s₁.recovering fun _ s' =>
        ∃ items, Within s₁.recovering items s' ∧ P items) :
    ∃ told items s', run exchange s = .error (.because told) s' ∧
      (s'.status = .idle ∨ s'.status = .closed) ∧ Passes s₁ items s' ∧ P items := by
  have hsound := h.sound
  obtain ⟨⟨hkeeps, hstatus, -⟩, ⟨front, hwithin⟩, -⟩ :=
    (exchange_exchanged (s := s.begun) hexchange hsound.capacity (Nat.zero_le _)
      hsound.parkedOrdinary).error hfault
  have hsettings : s₁.settings = settings := hkeeps.settings.trans hsound.settings
  have hcapacity : Block.longPrologue ≤ s₁.frame.capacity := hkeeps.holds hsound.capacity
  have hpasses := hattempts hwithin.codec hsettings hcapacity
  rw [← hsettings] at hpasses
  have hrecovers := ((recover_spec (s := { s₁ with deadline := none }) setback.failure hstatus
    hcapacity).and (recover_passes setback.failure hreleased hstatus hpasses)).and
      (recover_ends setback.failure { s₁ with deadline := none })
  have hruns : Ensures (run exchange) s fun r s' => ∃ told items, r = .error (.because told) ∧
      (s'.status = .idle ∨ s'.status = .closed) ∧ Passes s₁ items s' ∧ P items := by
    refine ensures_run (P := fun r s' => r = .error (.because setback) ∧ s' = s₁) hready
      ?_ ?_ ?_ ?_ ?_
    · exact .intro (fun _ _ hok => by rw [hfault] at hok; exact absurd hok nofun)
        fun stop s' herror => by rw [hfault] at herror; cases herror; exact ⟨rfl, rfl⟩
    · exact fun _ _ hend => absurd hend.1 nofun
    · intro setback' s' hend
      obtain ⟨hsame, rfl⟩ := hend
      cases hsame
      refine hrecovers.mono ?_
      intro r s₂ hend
      obtain ⟨⟨hrecovered, hpassed⟩, hends⟩ := hend
      match r with
      | .ok told =>
          obtain ⟨items, hitems⟩ := hpassed
          refine ⟨told, items, rfl, ?_, hitems⟩
          rcases hrecovered with ⟨-, _, _, _, -, hrestarts, -⟩ | ⟨-, _, hgives, -⟩
          · exact .inl hrestarts.status
          · exact .inr hgives.status
      | .error stop => exact absurd (congrArg Except.error hrecovered.1) hends
    · exact fun _ hend => absurd hend.1 nofun
    · exact fun _ hend => absurd hend.1 nofun
  cases hrun : run exchange s with
  | ok value s' =>
      obtain ⟨told, items, herror, -⟩ := hruns.ok hrun
      exact absurd herror nofun
  | error stop s' =>
      obtain ⟨told, items, herror, hends⟩ := hruns.error hrun
      cases herror
      exact ⟨told, items, s', rfl, hends⟩

/-- What a recovery hands over is paid for, by a reserve that is full at its start. -/
theorem run_outlay [Truthful L] {request : Request} {exchange : Step (Traced L) Unit}
    {setback : Setback} {s₁ : Session (Traced L)} (h : Reachable settings s)
    (hreserve : Reserve settings left) (hready : s.status.isReady = true)
    (hexchange : request.exchange? = some exchange)
    (hfault : exchange s.begun = .error (.because setback) s₁) :
    ∃ told items s', run exchange s = .error (.because told) s' ∧
      (s'.status = .idle ∨ s'.status = .closed) ∧ Passes s₁ items s' ∧ Passage.handed items
        ≤ settings.resyncAttempts + Passage.announcedSizes s.codec items + left {} := by
  refine run_recovers h hready hexchange hfault ?_ ?_
  · intro items hbound
    rw [Passage.handed_append, Passage.announcedSizes_append]
    exact hbound
  · intro hcodec hsettings hcapacity
    have hreserve' : Reserve s₁.recovering.settings left := by
      rw [show s₁.recovering.settings = settings from hsettings]
      exact hreserve
    refine (resyncAttempts_outlay _ s₁.recovering hreserve' hcapacity).mono ?_
    intro r s' houtlay
    obtain ⟨items, hwithin, hpaid⟩ := houtlay
    have hcodec' : s₁.recovering.codec = s.codec := hcodec
    rw [hcodec'] at hpaid
    exact ⟨items, hwithin, Nat.le_trans (Nat.le_add_right _ _) hpaid⟩

/--
**A recovery is paid for.** However an exchange failed, its call recovers and comes to an
end, idle or closed. What the recovery hands over meanwhile is a request for each attempt,
a frame for each size that the peer announces, and no more grants than there are block
timeouts below the ceiling, nor than the settings allow requests, as long as those can be
counted.
-/
theorem recovery_outlay [Truthful L] {request : Request} {exchange : Step (Traced L) Unit}
    {setback : Setback} {s₁ : Session (Traced L)} (h : Reachable settings s)
    (hready : s.status.isReady = true) (hexchange : request.exchange? = some exchange)
    (hfault : exchange s.begun = .error (.because setback) s₁) :
    ∃ told items s', run exchange s = .error (.because told) s' ∧
      (s'.status = .idle ∨ s'.status = .closed) ∧ Passes s₁ items s' ∧
      Passage.handed items ≤ settings.resyncAttempts + Passage.announcedSizes s.codec items
        + settings.extensionCeiling / settings.blockTimeout ∧
      (settings.maxExtensions < counterMax → Passage.handed items
        ≤ settings.resyncAttempts + Passage.announcedSizes s.codec items
          + settings.maxExtensions) := by
  have hceiling := reserve_ceiling h.blockTimeout_pos
  by_cases hcount : settings.maxExtensions < counterMax
  · obtain ⟨told, items, s', hrun, hstatus, hpasses, hbound⟩ :=
      run_outlay h (hceiling.min (reserve_count hcount)) hready hexchange hfault
    refine ⟨told, items, s', hrun, hstatus, hpasses, ?_, fun _ => ?_⟩
    · exact Nat.le_trans hbound (Nat.add_le_add_left (Nat.min_le_left ..) _)
    · exact Nat.le_trans hbound (Nat.add_le_add_left (Nat.min_le_right ..) _)
  · obtain ⟨told, items, s', hrun, hstatus, hpasses, hbound⟩ :=
      run_outlay h hceiling hready hexchange hfault
    exact ⟨told, items, s', hrun, hstatus, hpasses, hbound, fun h => absurd h hcount⟩

/-- The peer announces a size of 254. -/
def announcement : Bytes := [0xA5, 0xC1, 1, 0xFE, 0x9B]

/-- A session whose element does not answer what it is asked, and announces its size twice before it
resynchronises. -/
def obstinate : Session (Traced Rehearsal) :=
  (perform .establish).final (rehearse ([[0xA5, 0xE0, 0, 0x45]]
    ++ List.replicate 4 [0xA5, 0x90, 0, 0x35]
    ++ [announcement, announcement, [0xA5, 0xE0, 0, 0x45]]))

theorem recovery_outlay_obstinate :
    ∃ s₁ told items s', Reachable rehearsalSettings obstinate ∧
      obstinate.status.isReady = true ∧
      Step.resynchronise obstinate.begun
        = .error (.because (.major (.violation .unexpectedBlock))) s₁ ∧
      run Step.resynchronise obstinate = .error (.because told) s' ∧
      Passes s₁ items s' ∧
      Passage.handed items ≤ 3 + Passage.announcedSizes obstinate.codec items + 20 := by
  have hreachable : Reachable rehearsalSettings obstinate := .called _ (rehearse_reachable _)
  have hready : obstinate.status.isReady = true := by decide +kernel
  have hexchange : Request.resync.exchange? (L := Rehearsal) = some Step.resynchronise := rfl
  have hresult : Step.resynchronise.result obstinate.begun
      = .error (.because (.major (.violation .unexpectedBlock))) := by decide +kernel
  have hfault := eq_error_of_result hresult
  obtain ⟨told, items, s', hrun, -, hpasses, hceiling, -⟩ :=
    recovery_outlay hreachable hready hexchange hfault
  exact ⟨_, told, items, s', hreachable, hready, hfault, hrun, hpasses, hceiling⟩

/-! ## A peer that goes on announcing -/

/-- So many frames were handed over at least. -/
def Incurs (n : Nat) (s s' : Session (Traced L)) : Prop :=
  ∃ items, Within s items s' ∧ n ≤ Passage.handed items

omit [Link L] in
theorem Incurs.trans {m n : Nat} {s₁ s' : Session (Traced L)} (h₁ : Incurs m s s₁)
    (h₂ : Incurs n s₁ s') : Incurs (m + n) s s' := by
  obtain ⟨items₁, hwithin₁, hspent₁⟩ := h₁
  obtain ⟨items₂, hwithin₂, hspent₂⟩ := h₂
  refine ⟨items₁ ++ items₂, hwithin₁.trans hwithin₂, ?_⟩
  rw [Passage.handed_append]
  omega

omit [Link L] in
theorem Incurs.keeps {n : Nat} {s' : Session (Traced L)} (h : Incurs n s s') : Keeps s s' := by
  obtain ⟨items, hwithin, -⟩ := h
  exact hwithin.keeps

omit [Link L] in
theorem Outlay.incurs {n : Nat} {s' : Session (Traced L)} (h : Outlay left n s s') :
    Incurs 0 s s' := by
  obtain ⟨items, hwithin, -⟩ := h
  exact ⟨items, hwithin, Nat.zero_le _⟩

end Session

namespace Step

open SecureElement.Action Session

variable {L : Type} [Link L] {s : Session (Traced L)} {Holds : Traced L → List Arrival → Prop}
  {arrivals : List Arrival} {raw : Bytes} {block : Block}

/-- A frame that is handed over on the way is taken. -/
theorem sendControl_incurs (h : Attends Holds s) (hholds : Holds s.link arrivals)
    (hpayload : block.payload.length ≤ 2)
    (hcontrol : ∀ seq more, block.control ≠ .information seq more) :
    Ensures (sendControl block) s fun r s' =>
      r = .ok () ∧ Advances s 0 s' ∧ Holds s'.link arrivals ∧ Incurs 1 s s' := by
  unfold sendControl
  rw [ensures_get_bind,
    Codec.encodeWithin_control hpayload hcontrol (by unfold controlFrameMax; omega)]
  refine ((transmit_taken _ h hholds).and (transmit_outcome _)).mono ?_
  intro r s' hend
  obtain ⟨⟨hr, hadvances, -, hrest⟩, outcome, link, rfl, hsent, -⟩ := hend
  exact ⟨hr, hadvances, hrest, _,
    within_round rfl hsent (List.forall_mem_singleton.mpr trivial), Nat.le_refl 1⟩

/-- A block that comes is received, and nothing is handed over for it. -/
theorem receiveBlock_incurs {wait : Nanos} (h : Attends Holds s)
    (hholds : Holds s.link (.block raw :: arrivals))
    (hfits : (Arrival.block raw).Fits s.codec.epilogue s.frame.capacity)
    (hdecode : s.codec.decode raw = .ok block) (hpos : 0 < wait)
    (hle : wait ≤ s.settings.blockTimeout) :
    Ensures (receiveBlock wait) s fun r s' => ∃ inbound, r = .ok inbound ∧
      Arrived s.codec s'.frame inbound raw block ∧ Advances s 0 s' ∧ Holds s'.link arrivals ∧
        Incurs 0 s s' := by
  refine ((receiveBlock_heard h hholds hfits hpos hle).and
    (receiveBlock_spec wait h.capacity)).mono ?_
  intro r s' hend
  obtain ⟨⟨⟨⟨hadvances, -⟩, hheard⟩, hrest⟩, link, frame, statistics, -, hreceived⟩ := hend
  dsimp only at hheard
  rw [hdecode] at hheard
  obtain ⟨inbound, rfl, harrived⟩ := hheard
  obtain ⟨raw', block', htalks, -⟩ := hreceived
  exact ⟨inbound, rfl, harrived, hadvances, hrest, _, htalks.toWithin, Nat.zero_le _⟩

omit [Link L] in
/-- A block that carries something is longer than nothing. -/
theorem Arrived.length_ne_zero {c : Codec} {frame : Buffer} {inbound : Inbound}
    (h : Arrived c frame inbound raw block) (hpayload : block.payload ≠ []) :
    inbound.length ≠ 0 := by
  have hsome := h.payload
  unfold Inbound.payload? at hsome
  split at hsome
  · have hlength := congrArg List.length (Option.some.inj hsome)
    have hpos := List.length_pos_iff.mpr hpayload
    rw [List.length_drop, List.length_take] at hlength
    unfold Inbound.length
    omega
  · exact absurd hsome nofun

/-- An announced size is repeated as soon as it comes, and the wait starts over. -/
theorem awaitRound_incurs (h : Attends Holds s) (hholds : Holds s.link (.block raw :: arrivals))
    (hfits : (Arrival.block raw).Fits s.codec.epilogue s.frame.capacity)
    (hdecode : s.codec.decode raw = .ok block) (hcontrol : block.control = .request .ifs)
    (hpayload : block.payload ≠ []) :
    Ensures (awaitRound s.settings.blockTimeout) s fun r s' =>
      r = .ok (.inl s.settings.blockTimeout) ∧ Advances s 0 s' ∧ Holds s'.link arrivals ∧
        Incurs 1 s s' := by
  unfold awaitRound
  refine (waitTime_heard h.timeout (h.script.inTime hholds)).bind ?_ ?_
  · intro wait s₁ hend
    obtain ⟨rfl, wait', hwait, hpos, hle⟩ := hend
    obtain rfl := Except.ok.inj hwait
    refine (receiveBlock_incurs h hholds hfits hdecode hpos hle).bind ?_ ?_
    · intro inbound s₂ hend
      obtain ⟨inbound', hinbound, harrived, hadvances, hrest, hreceived⟩ := hend
      obtain rfl := Except.ok.inj hinbound
      rw [ensures_get_bind, harrived.control, hcontrol]
      dsimp only [Control.request]
      rw [if_neg (Arrived.length_ne_zero harrived hpayload)]
      have hlength : (s₂.codec.make (.response .ifs)
          (((s₂.frame.used.take inbound.stop).drop inbound.start).take 2)).payload.length ≤ 2 :=
        List.length_take_le _ _
      refine (sendControl_incurs (h.advances hadvances) hrest hlength
        fun _ _ => nofun).bind_ok fun s₃ hend => ?_
      obtain ⟨hadvances', hrest', hsent⟩ := hend
      exact ⟨by rw [hadvances.settings], hadvances.trans hadvances', hrest', hreceived.trans hsent⟩
    · intro stop s₂ hend
      obtain ⟨inbound, herror, -⟩ := hend
      cases herror
  · intro stop s₁ hend
    obtain ⟨-, wait, hwait, -⟩ := hend
    cases hwait

/-- So one size after the other is repeated, as long as there are rounds. -/
theorem awaitRounds_incurs {n rounds : Nat} (hrounds : n ≤ rounds) (h : Attends Holds s)
    (hholds : Holds s.link (List.replicate n (.block raw) ++ arrivals))
    (hfits : (Arrival.block raw).Fits s.codec.epilogue s.frame.capacity)
    (hdecode : s.codec.decode raw = .ok block) (hcontrol : block.control = .request .ifs)
    (hpayload : block.payload ≠ []) :
    Ensures (loop awaitRound rounds s.settings.blockTimeout) s fun _ s' => Incurs n s s' := by
  induction n generalizing rounds s with
  | zero =>
      exact (awaitRounds_outlay (reserve_ceiling h.timeout) h.capacity rounds _).mono
        fun _ _ houtlay => houtlay.incurs
  | succ n ih =>
      obtain ⟨rounds, rfl⟩ : ∃ k, rounds = k + 1 := ⟨rounds - 1, by omega⟩
      refine (awaitRound_incurs h hholds hfits hdecode hcontrol hpayload).bind_ok fun s₁ hend => ?_
      obtain ⟨hadvances, hrest, hone⟩ := hend
      have hmore := ih (Nat.le_of_succ_le_succ hrounds) (h.advances hadvances) hrest
        (hadvances.fits hfits) (by rw [hadvances.codec]; exact hdecode)
      rw [hadvances.settings] at hmore
      refine hmore.mono fun _ _ hrest => ?_
      rw [Nat.add_comm n 1]
      exact hone.trans hrest

/-- An attempt to resynchronise goes on for as long as sizes are announced. -/
theorem resyncOnce_incurs {n : Nat} (h : Attends Holds s)
    (hholds : Holds s.link (List.replicate n (.block raw) ++ arrivals))
    (hbacklog : ∀ link, Holds link (List.replicate n (.block raw) ++ arrivals) → n ≤ backlog link)
    (hfits : (Arrival.block raw).Fits s.codec.epilogue s.frame.capacity)
    (hdecode : s.codec.decode raw = .ok block) (hcontrol : block.control = .request .ifs)
    (hpayload : block.payload ≠ []) :
    Ensures resyncOnce s fun _ s' => Incurs n s s' := by
  unfold resyncOnce
  rw [ensures_get_bind]
  have hpayload' : (s.codec.make (.request .resync) []).payload.length ≤ 2 := Nat.zero_le 2
  refine (sendControl_incurs h hholds hpayload' fun _ _ => nofun).bind_ok fun s₁ hend => ?_
  obtain ⟨hadvances, hrest, hsent⟩ := hend
  have hwaits : Ensures awaitBlock s₁ fun _ s' => Incurs n s₁ s' := by
    unfold awaitBlock
    rw [ensures_get_bind]
    exact awaitRounds_incurs (Nat.le_succ_of_le (hbacklog _ hrest)) (h.advances hadvances) hrest
      (hadvances.fits hfits) (by rw [hadvances.codec]; exact hdecode) hcontrol hpayload
  have hall : ∀ s', Incurs n s₁ s' → Incurs n s s' := by
    intro s' hwaited
    obtain ⟨items, hwithin, hspent⟩ := hsent.trans hwaited
    exact ⟨items, hwithin, Nat.le_trans (Nat.le_add_left n 1) hspent⟩
  refine hwaits.bind ?_ ?_
  · intro inbound s₂ hwaited
    split
    · exact hall _ hwaited
    · exact hall _ hwaited
  · exact fun _ _ hwaited => hall _ hwaited

/-- A link that is closed ends the wait for a block that is to be parked. -/
theorem park_closed (h : Attends Holds s) (hholds : Holds s.link (.fault .closed :: arrivals)) :
    Ensures park s fun r s' => r = .error (.because (.major .closed)) ∧ Advances s 0 s' ∧
      Holds s'.link arrivals := by
  unfold park
  have hheard := awaitBlock_heard h hholds trivial fun hserved => hserved
  refine ensures_attempt_bind hheard ?_ ?_ ?_ ?_
  · exact fun _ _ hend => absurd hend.1.2 nofun
  · intro setback s' hend
    obtain ⟨⟨⟨hadvances, -⟩, hclosed⟩, hrest⟩ := hend
    cases hclosed
    exact ⟨rfl, hadvances, hrest⟩
  · exact fun _ hend => absurd hend.1.2 nofun
  · exact fun _ hend => absurd hend.1.2 nofun

end Step

namespace Session

open SecureElement.Action Step

/-- The link reports that it is closed, and then the peer announces a size so many times. -/
def announcements (n : Nat) : List Arrival :=
  .fault .closed :: List.replicate n (.block announcement)

/-- A session to which this happens. -/
structure Flooded (n : Nat) (s : Session (Traced Rehearsal)) : Prop where
  reachable : Reachable rehearsalSettings s
  ready : s.status.isReady = true
  link : s.link.link = { readings := (announcements n).map Arrival.reading }
  codec : s.codec = rehearsalSettings.codec

theorem exists_flooded (n : Nat) : ∃ s, Flooded n s :=
  ⟨{ silent with
      link := { silent.link with
        link := { readings := (announcements n).map Arrival.reading } } }, {
    reachable := .touched _ (.called _ (rehearse_reachable _))
    ready := show silent.status.isReady = true by decide +kernel
    link := rfl
    codec := show silent.codec = rehearsalSettings.codec by decide +kernel }⟩

variable {n : Nat} {s : Session (Traced Rehearsal)}

theorem announcement_fits : (Arrival.block announcement).Fits rehearsalSettings.epilogue 258 := by
  decide

theorem Flooded.capacity (h : Flooded n s) : s.frame.capacity = 258 :=
  h.reachable.sound.frame

/-- The first call finds the link closed. -/
theorem Flooded.park (h : Flooded n s) : Ensures Step.park s.begun fun r s' =>
    r = .error (.because (.major .closed)) ∧ Advances s.begun 0 s' ∧
      Rehearses rehearsalSettings.epilogue 258 s.begun.deadline s'.link
        (List.replicate n (.block announcement)) := by
  have hsettings : s.begun.settings = rehearsalSettings := h.reachable.sound.settings
  have hlink : s.begun.link.link = { readings := (announcements n).map Arrival.reading } := h.link
  have hdeadline : s.begun.deadline = some (30 * Time.second) := by
    show s.deadlineFromNow = _
    unfold deadlineFromNow
    rw [show s.settings = rehearsalSettings from hsettings, show Link.now s.link = 0 from
      congrArg Rehearsal.clock h.link]
    rfl
  refine park_closed ⟨?_, ?_, h.reachable.sound.capacity⟩ ?_
  · rw [hsettings]
    exact rehearses_script _ _ _ _
  · rw [hsettings]
    decide
  · exact {
      readings := ⟨[], by rw [hlink, List.append_nil]; rfl⟩
      current := by rw [hlink]
      writings := by rw [hlink]
      fits := List.forall_mem_cons.mpr ⟨trivial, fun arrival harrival => by
        rw [List.eq_of_mem_replicate harrival]
        exact announcement_fits⟩
      inTime := by
        rw [hdeadline, hlink]
        intro instant hinstant
        obtain rfl := Option.some.inj hinstant
        exact Nat.mul_pos (by decide) (by decide) }

/-- The recovery behind it repeats one size after the other. -/
theorem Flooded.recovery (h : Flooded n s) : ∃ s₁ told s' items,
    Step.park s.begun = .error (.because (.major .closed)) s₁ ∧
      run Step.park s = .error (.because told) s' ∧ Passes s₁ items s' ∧
      n ≤ Passage.handed items := by
  cases hpark : Step.park s.begun with
  | ok value s₁ => exact absurd (h.park.ok hpark).1 nofun
  | error stop s₁ =>
      obtain ⟨hstop, hadvances, hrehearses⟩ := h.park.error hpark
      cases hstop
      have hattempts : s₁.codec = s.codec → s₁.settings = rehearsalSettings →
          Block.longPrologue ≤ s₁.frame.capacity →
          Ensures (resyncAttempts rehearsalSettings.resyncAttempts) s₁.recovering fun _ s' =>
            ∃ items, Within s₁.recovering items s' ∧ n ≤ Passage.handed items := by
        intro hcodec hsettings hcapacity
        have hattends : Attends (Rehearses rehearsalSettings.epilogue 258 none) s₁.recovering := by
          refine ⟨?_, ?_, hcapacity⟩
          · show Script s₁.settings.blockTimeout none _
            rw [hsettings]
            exact rehearses_script _ _ _ _
          · show 0 < s₁.settings.blockTimeout
            rw [hsettings]
            decide
        have hrest : Rehearses rehearsalSettings.epilogue 258 none s₁.link
            (List.replicate n (.block announcement) ++ []) := by
          rw [List.append_nil]
          exact { hrehearses with inTime := nofun }
        have hframe : s₁.frame.capacity = 258 := hadvances.capacity.trans h.capacity
        have hown : s₁.codec = rehearsalSettings.codec := hcodec.trans h.codec
        have honce : Ensures resyncOnce s₁.recovering fun _ s' => Incurs n s₁.recovering s' := by
          have hfits : (Arrival.block announcement).Fits s₁.codec.epilogue s₁.frame.capacity := by
            rw [hframe, hown]
            exact announcement_fits
          have hdecode : s₁.codec.decode announcement
              = .ok ⟨0xA5, .request .ifs, [0xFE], 0x9B⟩ := by
            rw [hown]
            rfl
          have hsize : 0 < announcement.length := by decide
          exact resyncOnce_incurs hattends hrest (fun link hlink => hlink.replicate_le hsize) hfits
            hdecode rfl (List.cons_ne_nil _ _)
        refine Step.ensures_conclude honce ?_ ?_ ?_ ?_
        · exact fun _ _ hend => hend
        · intro setback s₂ hend
          have hvalid : 0 < s₂.settings.blockTimeout := by
            rw [hend.keeps.settings]
            exact hattends.timeout
          exact (resyncAttempts_outlay 2 s₂ (reserve_ceiling hvalid)
            (hend.keeps.holds hcapacity)).mono fun _ _ hrest => hend.trans hrest.incurs
        · exact fun _ hend => hend
        · exact fun _ hend => hend
      have hexchange : Request.prefetch.exchange? (L := Rehearsal) = some Step.park := rfl
      obtain ⟨told, items, s', hrun, -, hpasses, hmore⟩ :=
        run_recovers h.reachable h.ready hexchange hpark
          (fun items hmore => by rw [Passage.handed_append]; exact Nat.le_add_right_of_le hmore)
          hattempts
      exact ⟨s₁, told, s', items, rfl, hrun, hpasses, hmore⟩

/-- **The settings alone do not bound a recovery.** Whatever number is named, there is a session
whose recovery hands over more frames than that. -/
theorem recovery_unbounded : ¬ ∃ bound : Nat,
    ∀ (s s₁ s' : Session (Traced Rehearsal)) (request : Request)
      (exchange : Step (Traced Rehearsal) Unit) (setback : Setback) (told : Failure)
      (items : List Passage),
      Reachable rehearsalSettings s → s.status.isReady = true →
      request.exchange? = some exchange → exchange s.begun = .error (.because setback) s₁ →
      run exchange s = .error (.because told) s' → Passes s₁ items s' →
      Passage.handed items ≤ bound := by
  rintro ⟨bound, hbound⟩
  obtain ⟨s, h⟩ := exists_flooded (bound + 1)
  obtain ⟨s₁, told, s', items, hfault, hrun, hpasses, hmore⟩ := h.recovery
  have hless := hbound s s₁ s' .prefetch _ _ told items h.reachable h.ready rfl hfault hrun hpasses
  omega

end Session

end SecureElement
