import SecureElement.Proofs.Stretches

/-!
# What a grant comes to

A request that is granted has three consequences: the answer goes out, the call that is
under way may take longer, and so may the next block.

* `awaitRound_begins` says how a wait begins: with one read, in the time that is left;
* `awaitRound_grants` says what one grant does to the call, and to the wait behind it;
* `extension_accounting` puts this together with the account of whole stretches.
-/

namespace SecureElement

open Link

namespace Link

variable {L : Type} [Link L]

/-- Reading some octets begins with one call for all of them. -/
theorem readUpTo_begins (timeout : Nanos) : ∀ (calls n : Nat) (t : Traced L),
    ∃ events, (readUpTo timeout calls n t).2.events = t.events ++ events ∧
      (0 < n → 0 < calls → ∃ outcome rest, events = .read n timeout outcome :: rest)
  | calls, 0, t => by
      rw [readUpTo_none]
      exact ⟨[], (List.append_nil _).symm, fun h => absurd h (Nat.lt_irrefl 0)⟩
  | 0, n + 1, t => ⟨[], (List.append_nil _).symm, fun _ h => absurd h (Nat.lt_irrefl 0)⟩
  | calls + 1, n + 1, t => by
      have failed : ∀ fault, (read (n + 1) timeout t.link).1 = .error fault ∨
          ((read (n + 1) timeout t.link).1 = .ok [] ∧ fault = .timeout) →
          ∃ events, (readUpTo timeout (calls + 1) (n + 1) t).2.events = t.events ++ events ∧
            (0 < n + 1 → 0 < calls + 1 →
              ∃ outcome rest, events = .read (n + 1) timeout outcome :: rest) := by
        intro fault h
        obtain ⟨outcome, link, -, hrun⟩ := readUpTo_failed h calls
        rw [hrun]
        exact ⟨_, Traced.events_record .., fun _ _ => ⟨outcome, [], rfl⟩⟩
      cases h : (read (n + 1) timeout t.link).1 with
      | error fault => exact failed fault (Or.inl h)
      | ok brought =>
          cases brought with
          | nil => exact failed .timeout (Or.inr ⟨h, rfl⟩)
          | cons octet more =>
              obtain ⟨arrived, link, -, -, hrun⟩ := readUpTo_more h calls
              rw [hrun]
              dsimp only
              obtain ⟨events, hevents, -⟩ := readUpTo_begins timeout calls
                (n + 1 - arrived.length) (t.record (.read (n + 1) timeout (.ok arrived)) link)
              rw [Traced.events_record, List.append_assoc] at hevents
              exact ⟨_, hevents, fun _ _ => ⟨.ok arrived, events, rfl⟩⟩

end Link

namespace Step

open SecureElement.Action Session

variable {L : Type} [Link L] {s : Session (Traced L)}

/-! ## How a wait begins -/

/-- What passed since then, the first thing of all being a read of so many octets in such a time. -/
def BeginsWith (length : Nat) (timeout : Nanos) (s s' : Session (Traced L)) : Prop :=
  ∃ outcome rest, s'.link.events = s.link.events ++ .read length timeout outcome :: rest

omit [Link L] in
/-- What passed first stays first. -/
theorem BeginsWith.extend {length : Nat} {timeout : Nanos} {s₁ s₂ : Session (Traced L)}
    (h : BeginsWith length timeout s s₁) (hadded : s₁.link.events <+: s₂.link.events) :
    BeginsWith length timeout s s₂ := by
  obtain ⟨outcome, rest, hevents⟩ := h
  obtain ⟨more, hmore⟩ := hadded
  refine ⟨outcome, rest ++ more, ?_⟩
  rw [← hmore, hevents, List.append_assoc, List.cons_append]

/-- Reading into the frame begins with one call for all of it, if there is room. -/
theorem readFrame_begins (n : Nat) (timeout : Nanos) :
    Ensures (readFrame n timeout) s fun _ s' => s.link.events <+: s'.link.events ∧
      (0 < n → n ≤ s.frame.room → BeginsWith n timeout s s') := by
  unfold readFrame
  rw [ensures_get_bind]
  cases hclaim : s.frame.claim n with
  | error overflow =>
      refine ⟨List.prefix_rfl, fun _ hroom => ?_⟩
      unfold Buffer.claim at hclaim
      rw [if_pos hroom] at hclaim
      exact absurd hclaim nofun
  | ok claimed =>
      dsimp only
      rw [ensures_onLink_bind]
      obtain ⟨events, hevents, hfirst⟩ := readUpTo_begins timeout n n s.link
      have hend : ∀ frame : Buffer, s.link.events <+: (readAll n timeout s.link).2.events ∧
          (0 < n → n ≤ s.frame.room → BeginsWith n timeout s
            { s with link := (readAll n timeout s.link).2, frame }) := by
        refine fun frame => ⟨⟨events, hevents.symm⟩, fun hpos _ => ?_⟩
        obtain ⟨outcome, rest, rfl⟩ := hfirst hpos hpos
        exact ⟨outcome, rest, hevents⟩
      cases hfault : (readAll n timeout s.link).1.2 with
      | none =>
          rw [show (readAll n timeout s.link).1 = ((readAll n timeout s.link).1.1, none) from
            Prod.ext rfl hfault]
          exact hend _
      | some fault =>
          rw [show (readAll n timeout s.link).1 = ((readAll n timeout s.link).1.1, some fault) from
            Prod.ext rfl hfault]
          exact hend _

theorem discard_adds (timeout : Nanos) : ∀ (rounds remaining : Nat) (s : Session (Traced L)),
    Ensures (discard timeout rounds remaining) s fun _ s' => s.link.events <+: s'.link.events
  | 0, _, _ => List.prefix_rfl
  | rounds + 1, remaining, s => by
      unfold discard
      rw [ensures_get_bind]
      dsimp only
      split
      · exact List.prefix_rfl
      · refine ensures_attempt_bind (readFrame_begins _ timeout) ?_ ?_ (fun _ h => h.1)
          fun _ h => h.1
        · intro u s₁ hend
          dsimp only
          rw [ensures_modify_bind]
          exact (discard_adds timeout rounds _ _).mono fun _ _ h => hend.1.trans h
        · intro setback s₁ hend
          exact hend.1

omit [Link L] in
theorem readBlock_adds (start : Nat) :
    Ensures (readBlock start) s fun _ s' => s.link.events <+: s'.link.events := by
  unfold readBlock
  rw [ensures_count_bind, ensures_get_bind]
  dsimp only
  split
  · exact List.prefix_rfl
  · split <;> exact List.prefix_rfl

/-- A block begins with three octets. -/
theorem receiveBlock_begins (timeout : Nanos) (hcapacity : Block.longPrologue ≤ s.frame.capacity) :
    Ensures (receiveBlock timeout) s fun _ s' => BeginsWith Block.shortPrologue timeout s s' := by
  have hroom : Block.shortPrologue ≤ s.frame.clear.room := by
    have hcells := s.frame.clear.length_used_add_room
    rw [Buffer.used_clear, List.length_nil, Buffer.capacity_clear] at hcells
    unfold Block.longPrologue at hcapacity
    unfold Block.shortPrologue
    omega
  -- what follows the first read only adds to the record
  have hadds : ∀ {α : Type} {step : Step (Traced L) α} {s₁ : Session (Traced L)},
      BeginsWith Block.shortPrologue timeout s s₁ →
      (Ensures step s₁ fun _ s' => s₁.link.events <+: s'.link.events) →
      Ensures step s₁ fun _ s' => BeginsWith Block.shortPrologue timeout s s' :=
    fun hbegins hstep => hstep.mono fun _ _ hadded => hbegins.extend hadded
  have hprologue : Ensures (readPrologue timeout) s fun _ s' =>
      BeginsWith Block.shortPrologue timeout s s' := by
    unfold readPrologue
    rw [ensures_modify_bind]
    have hfirst : Ensures (readFrame Block.shortPrologue timeout)
        { s with frame := s.frame.clear } fun _ s' => BeginsWith Block.shortPrologue timeout s s' :=
      (readFrame_begins _ timeout).mono fun _ _ h => h.2 (Nat.succ_pos 2) hroom
    refine hfirst.bind_kept fun u s₁ hbegins => ?_
    rw [ensures_get_bind]
    exact hadds hbegins ((readFrame_begins _ timeout).mono fun _ _ h => h.1)
  unfold receiveBlock
  refine hprologue.bind_kept fun u s₁ hbegins => ?_
  rw [ensures_get_bind]
  split
  · exact hbegins
  · dsimp only
    split
    · rw [ensures_modify_bind]
      have hcleared :
          BeginsWith Block.shortPrologue timeout s { s₁ with frame := s₁.frame.clear } := hbegins
      exact (hadds hcleared (discard_adds timeout _ _ _)).bind_kept fun _ _ h => h
    · exact (hadds hbegins ((readFrame_begins _ timeout).mono fun _ _ h => h.1)).bind_kept
        fun _ s₂ hbegins₂ => hadds hbegins₂ (readBlock_adds _)

/-- The time that a call has left, if it has a deadline. -/
def timeLeft (s : Session (Traced L)) : Option Nanos := s.deadline.map (· - Link.now s.link)

/-- A wait is no longer than the time that the call has left. -/
def bounded (timeout : Nanos) (left : Option Nanos) : Nanos := left.elim timeout (min timeout)

theorem waitTime_bounded (timeout : Nanos) :
    Ensures (waitTime timeout) s fun r s' => s' = s ∧
      (timeLeft s = some 0 → r = .error (.because (.major .timeout))) ∧
      (timeLeft s ≠ some 0 → r = .ok (bounded timeout (timeLeft s))) := by
  unfold waitTime timeLeft
  rw [ensures_get_bind]
  cases s.deadline with
  | none => exact ⟨rfl, fun h => absurd h nofun, fun _ => rfl⟩
  | some deadline =>
      dsimp only [Option.map_some]
      split
      · rename_i hleft
        exact ⟨rfl, fun _ => rfl, fun h => absurd (congrArg some hleft) h⟩
      · rename_i hleft
        exact ⟨rfl, fun h => absurd (Option.some.inj h) hleft, fun _ => rfl⟩

theorem sendControl_adds (block : Block) :
    Ensures (sendControl block) s fun _ s' => s.link.events <+: s'.link.events := by
  unfold sendControl
  rw [ensures_get_bind]
  split
  · exact List.prefix_rfl
  · refine (transmit_outcome _).mono ?_
    intro r s' hend
    obtain ⟨-, -, -, ⟨events, hevents, -⟩, -⟩ := hend
    exact ⟨events, hevents.symm⟩

omit [Link L] in
theorem extendWait_link (multiplier : UInt8) :
    Ensures (extendWait multiplier) s fun _ s' => s'.link = s.link := by
  unfold extendWait
  split
  · exact rfl
  · dsimp only
    rw [ensures_modify_bind, ensures_get_bind]
    dsimp only
    split
    · exact rfl
    · exact rfl

/-- **How a wait begins**: with the first octets of a block, unless the time of the call is up. -/
theorem awaitRound_begins (timeout : Nanos) (hcapacity : Block.longPrologue ≤ s.frame.capacity) :
    Ensures (awaitRound timeout) s fun r s' =>
      (timeLeft s = some 0 → r = .error (.because (.major .timeout)) ∧ s' = s) ∧
      (timeLeft s ≠ some 0 →
        BeginsWith Block.shortPrologue (bounded timeout (timeLeft s)) s s') := by
  unfold awaitRound
  refine (waitTime_bounded timeout).bind ?_ ?_
  · intro wait s₁ hend
    obtain ⟨rfl, hup, hleft⟩ := hend
    have hsome : timeLeft s₁ ≠ some 0 := fun h => absurd (hup h) nofun
    obtain rfl := Except.ok.inj (hleft hsome)
    refine Ensures.mono (P := fun _ s' =>
      BeginsWith Block.shortPrologue (bounded timeout (timeLeft s₁)) s₁ s') ?_
      fun _ _ h => ⟨fun hnone => absurd hnone hsome, fun _ => h⟩
    refine (receiveBlock_begins _ hcapacity).bind_kept fun inbound s₂ hbegins => ?_
    -- whatever is answered is answered behind that
    have hanswer : ∀ (block : Block) (value : Nanos ⊕ Inbound) (s₃ : Session (Traced L)),
        s₃.link.events = s₂.link.events →
        Ensures (do sendControl block; return value) s₃ fun _ s' =>
          BeginsWith Block.shortPrologue (bounded timeout (timeLeft s₁)) s₁ s' := by
      intro block value s₃ hsame
      refine Ensures.bind_kept ?_ fun _ _ h => h
      refine (sendControl_adds block).mono fun r s₄ hadded => hbegins.extend ?_
      rw [← hsame]
      exact hadded
    rw [ensures_get_bind]
    dsimp only
    split
    · refine (extendWait_link _).bind ?_ ?_
      · intro extra s₃ hsame
        exact hanswer _ _ s₃ (congrArg Traced.events hsame)
      · intro stop s₃ hsame
        have hevents : s₃.link.events = s₂.link.events := congrArg Traced.events hsame
        exact hbegins.extend (hevents ▸ List.prefix_rfl)
    · split
      · exact hbegins
      · exact hanswer _ _ s₂ rfl
    · exact hbegins
  · intro stop s₁ hend
    obtain ⟨rfl, hup, hleft⟩ := hend
    have hnone : timeLeft s₁ = some 0 := by
      by_contra hsome
      exact absurd (hleft hsome) nofun
    obtain rfl := Except.error.inj (hup hnone)
    exact ⟨fun _ => ⟨rfl, rfl⟩, fun hsome => absurd hnone hsome⟩

/-! ## What a grant does -/

omit [Link L] in
/-- What is granted is so many block timeouts. -/
theorem grantable?_extra {settings : Settings} {x : Extension} {multiplier : Nat}
    {extra total : Nanos} (h : grantable? settings x multiplier = some (extra, total)) :
    extra = multiplier * settings.blockTimeout := by
  unfold grantable? Time.scale? at h
  split at h
  · dsimp only [bind, Option.bind] at h
    split at h
    · exact absurd h nofun
    · dsimp only at h
      split at h
      · exact (Prod.mk.inj (Option.some.inj h)).1.symm
      · exact absurd h nofun
  · exact absurd h nofun

/--
**What a grant does to the call.** No try is charged for it, and the call may take longer
by what was granted; a deadline that there is no instant for is dropped. If the link took
the answer, the next wait is as long as was granted, as far as the call has so much time
left, and it begins with the first octets of the next block.
-/
theorem awaitRound_grants (timeout : Nanos) (hcapacity : Block.longPrologue ≤ s.frame.capacity)
    {raw : Bytes} {multiplier : UInt8} (hasked : s.codec.asked? raw = some multiplier) :
    Ensures (awaitRound timeout) s fun r s₁ => ∀ outcome,
      Passes s [.received raw, .sent (s.codec.grant multiplier) outcome] s₁ →
      let extra := multiplier.toNat * s.settings.blockTimeout
      s₁.retries = s.retries ∧ s₁.deadline = s.deadline.bind (Time.after? · extra) ∧
      (outcome = .ok (s.codec.grant multiplier).length → r = .ok (.inl extra) ∧
        Ensures (awaitRound extra) s₁ fun r₂ s₂ =>
          (timeLeft s₁ = some 0 → r₂ = .error (.because (.major .timeout)) ∧ s₂ = s₁) ∧
          (timeLeft s₁ ≠ some 0 →
            BeginsWith Block.shortPrologue (bounded extra (timeLeft s₁)) s₁ s₂)) := by
  refine (awaitRound_rounds timeout hcapacity).mono ?_
  intro r s₁ hend outcome hpasses
  cases hend with
  | unrelated _ hpasses' hitems _ =>
      obtain rfl := Passes.unique hpasses' hpasses
      exact absurd ((hitems _ List.mem_cons_self).1.symm.trans hasked) nofun
  | refused _ hpasses' _ _ _ =>
      have hitems := Passes.unique (hpasses'.congr rfl) hpasses
      exact absurd (List.cons.inj hitems).2 nofun
  | @granted _ raw' multiplier' outcome' extra total link frame statistics hframe hpasses' hasked'
      hgrantable htaken _ =>
      have hitems := Passes.unique (hpasses'.congr rfl) hpasses
      obtain ⟨hreceived, hsent⟩ := List.cons.inj hitems
      obtain rfl := Passage.received.inj hreceived
      obtain rfl := Option.some.inj (hasked'.symm.trans hasked)
      obtain ⟨-, rfl⟩ := Passage.sent.inj (List.cons.inj hsent).1
      obtain rfl := grantable?_extra hgrantable
      refine ⟨rfl, rfl, fun haccepted => ⟨htaken haccepted, awaitRound_begins _ ?_⟩⟩
      dsimp only
      rw [hframe]
      exact hcapacity

end Step

/-- The account of what passed: the requests, and the sum of the multipliers that were granted. -/
def Passage.account (c : Codec) (items : List Passage) : Account :=
  { asked := (requested c items).length
    granted := ((Passage.granted c items).map UInt8.toNat).sum }

theorem Serves.account {settings : Settings} {a : Account} {items : List Passage}
    (h : Serves settings {} items a) : a = Passage.account settings.codec items := by
  obtain ⟨hasked, hgranted⟩ := h.totals
  rw [Nat.zero_add] at hasked hgranted
  unfold Passage.account
  rw [← hasked, ← hgranted]

namespace Session

open SecureElement.Action Step

variable {L : Type} [Link L] {settings : Settings}

/--
**Extra time is granted as the settings allow, and accounted for.** Every session that can
be reached is on a stretch, and of every stretch this is true: what the session says was
granted is the sum of the multipliers that were granted, in block timeouts; it keeps to the
ceiling, and no more requests were granted than may be. Wherever a request came, it was
answered with its own multiplier, as the next frame that was handed over and before
anything else came, exactly if the account up to there allowed it; and wherever time was
granted, the request stands before it. What a single grant does to a call is said by
`awaitRound_grants`, for any session with these settings.
-/
theorem extension_accounting (hcount : settings.maxExtensions < counterMax) :
    (∀ s : Session (Traced L), Reachable settings s → ∃ items, Stretch settings items s) ∧
    (∀ (items : List Passage) (s : Session (Traced L)), Stretch settings items s →
      s.extension.granted
        = ((Passage.granted settings.codec items).map UInt8.toNat).sum * settings.blockTimeout ∧
      s.extension.granted ≤ settings.extensionCeiling ∧
      (Passage.granted settings.codec items).length ≤ settings.maxExtensions ∧
      (∀ (front back : List Passage) (raw : Bytes) (multiplier : UInt8),
        items = front ++ .received raw :: back → settings.codec.asked? raw = some multiplier →
        ((∃ outcome rest, back = .sent (settings.codec.grant multiplier) outcome :: rest) ↔
          settings.Allows (Passage.account settings.codec front) multiplier)) ∧
      (∀ (front back : List Passage) (frame : Bytes) (outcome : Except Link.Fault Nat)
        (multiplier : UInt8), items = front ++ .sent frame outcome :: back →
        settings.codec.granted? frame = some multiplier →
        ∃ front' raw, front = front' ++ [.received raw] ∧
          settings.codec.asked? raw = some multiplier)) ∧
    (∀ (s : Session (Traced L)) (timeout : Nanos) (raw : Bytes) (multiplier : UInt8),
      s.settings = settings → Block.longPrologue ≤ s.frame.capacity →
      s.codec.asked? raw = some multiplier →
      Ensures (awaitRound timeout) s fun r s₁ => ∀ outcome,
        Passes s [.received raw, .sent (s.codec.grant multiplier) outcome] s₁ →
        let extra := multiplier.toNat * settings.blockTimeout
        s₁.retries = s.retries ∧ s₁.deadline = s.deadline.bind (Time.after? · extra) ∧
        (outcome = .ok (s.codec.grant multiplier).length → r = .ok (.inl extra) ∧
          Ensures (awaitRound extra) s₁ fun r₂ s₂ =>
            (timeLeft s₁ = some 0 → r₂ = .error (.because (.major .timeout)) ∧ s₂ = s₁) ∧
            (timeLeft s₁ ≠ some 0 →
              BeginsWith Block.shortPrologue (bounded extra (timeLeft s₁)) s₁ s₂))) := by
  refine ⟨fun s h => h.onStretch hcount, ?_, ?_⟩
  · intro items s h
    obtain ⟨a, hserves, hbooked⟩ := h.booked hcount
    obtain ⟨-, hgranted⟩ := hserves.totals
    obtain ⟨hnumber, hceiling⟩ := hserves.within
    have htotal : s.extension.granted = a.granted * settings.blockTimeout := hbooked.granted
    have hwithin : a.granted * settings.blockTimeout ≤ settings.extensionCeiling :=
      hceiling (by rw [Nat.zero_mul]; exact Nat.zero_le _)
    refine ⟨?_, ?_, hnumber, ?_, ?_⟩
    · rw [htotal, hgranted, Nat.zero_add]
    · rw [htotal]
      exact hwithin
    · intro front back raw multiplier hitems hasked
      obtain ⟨b, hfront, hiff⟩ := hserves.granted_iff hitems hasked
      rw [hiff, hfront.account]
    · intro front back frame outcome multiplier hitems hframe
      exact hserves.preceded hitems hframe
  · intro s timeout raw multiplier hsettings hcapacity hasked
    have hgrants := awaitRound_grants timeout hcapacity hasked
    rw [hsettings] at hgrants
    exact hgrants

/-- A session whose element asks for two block timeouts before it answers the handshake. -/
def delaying : Session (Traced Rehearsal) :=
  (perform .establish).final (rehearse [[0xA5, 0xC3, 1, 2, 0x65], [0xA5, 0xE0, 0, 0x45]])

theorem extension_accounting_delaying :
    rehearsalSettings.maxExtensions < counterMax ∧
    ∃ items, Stretch rehearsalSettings items delaying ∧
      delaying.extension.granted = 2 * Time.second ∧
      ((Passage.granted rehearsalSettings.codec items).map UInt8.toNat).sum = 2 := by
  have hcount : rehearsalSettings.maxExtensions < counterMax := by decide
  have hreachable : Reachable rehearsalSettings delaying := .called _ (rehearse_reachable _)
  obtain ⟨hon, haccounts, -⟩ := extension_accounting (L := Rehearsal) hcount
  obtain ⟨items, hstretch⟩ := hon delaying hreachable
  obtain ⟨htotal, -⟩ := haccounts items delaying hstretch
  have hgranted : delaying.extension.granted = 2 * Time.second := by decide +kernel
  have hpositive : 0 < rehearsalSettings.blockTimeout := by decide
  have hsecond : Time.second = rehearsalSettings.blockTimeout := by decide
  refine ⟨hcount, items, hstretch, hgranted, ?_⟩
  rw [hgranted, hsecond] at htotal
  exact (Nat.eq_of_mul_eq_mul_right hpositive htotal).symm

end Session

end SecureElement
