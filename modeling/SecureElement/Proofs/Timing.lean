import SecureElement.Proofs.Equipment
import SecureElement.Proofs.LastCommand
import SecureElement.Proofs.Replay
import SecureElement.Proofs.TwinRuns

/-!
# How long a call takes

A call has to be over by a certain instant, its deadline. The deadline moves when the
peer is granted more time, and with it what is due by `dueBy`. It is looked at once for
each block: what is left of it bounds the first read, and every other read of the same
block is given the same time again. So

* the first read of a block is over by the instant that is due;
* each read behind it may be later by as much as it was given itself.

`Timely` says this of a row of calls, and `Tracked` carries it from step to step. The
settings ask for more than that: a call as a whole is to take no longer than its
exchange timeout. What is missing is shown by `exchange_timely_dribbling`.
-/

namespace SecureElement

open Link

/-- A deadline that there is no instant for counts as one behind the last. -/
theorem Time.after?_getD_le (t d : Nanos) :
    (Time.after? t d).getD (Time.lastInstant + 1) ≤ t + d := by
  unfold Time.after?
  split
  · exact Nat.le_refl _
  · rename_i hlate
    exact Nat.lt_of_not_le hlate

theorem Passage.granted_append (c : Codec) (front back : List Passage) :
    Passage.granted c (front ++ back) = Passage.granted c front ++ Passage.granted c back :=
  List.filterMap_append

namespace Session

variable {L : Type} [Link L] {s s' t : Session (Traced L)} {events more : List Event}
  {items items' : List Passage}

/-- The instant by which a call that starts now is to be over when `items` have passed: it has the
exchange timeout, and the extra time that was granted meanwhile. -/
def dueBy (s : Session (Traced L)) (items : List Passage) : Nanos :=
  Link.now s.link + s.settings.exchangeTimeout +
    ((Passage.granted s.settings.codec items).map UInt8.toNat).sum * s.settings.blockTimeout

theorem dueBy_append (items more : List Passage) :
    t.dueBy (items ++ more) = t.dueBy items +
      ((Passage.granted t.settings.codec more).map UInt8.toNat).sum * t.settings.blockTimeout := by
  unfold dueBy
  rw [Passage.granted_append, List.map_append, List.sum_append, Nat.add_mul, ← Nat.add_assoc]

theorem dueBy_le_append (items more : List Passage) : t.dueBy items ≤ t.dueBy (items ++ more) := by
  rw [dueBy_append]
  exact Nat.le_add_right _ _

/-- Every read of these calls is over by the instant that is due then, or later by as many times as
long as it was given as octets of its block had come before it. -/
def Timely (s : Session (Traced L)) (events : List Event) : Prop :=
  ∀ front back n timeout outcome, events = front ++ .read n timeout outcome :: back →
    let heard := passages s.codec.epilogue s.frame.capacity [] front
    s.dueBy heard.1 ≤ Time.lastInstant →
    now (replay s.link.link (front ++ [.read n timeout outcome]))
      ≤ s.dueBy heard.1 + heard.2.length * timeout

theorem Timely.append (h : Timely t events)
    (hpassed : passages t.codec.epilogue t.frame.capacity [] events = (items, []))
    (hmore : ∀ front back n timeout outcome, more = front ++ .read n timeout outcome :: back →
      let heard := passages t.codec.epilogue t.frame.capacity [] front
      t.dueBy (items ++ heard.1) ≤ Time.lastInstant →
      now (replay (replay t.link.link events) (front ++ [.read n timeout outcome]))
        ≤ t.dueBy (items ++ heard.1) + heard.2.length * timeout) :
    Timely t (events ++ more) := by
  have hbehind : ∀ front back n timeout outcome,
      more = front ++ .read n timeout outcome :: back →
      let heard := passages t.codec.epilogue t.frame.capacity [] (events ++ front)
      t.dueBy heard.1 ≤ Time.lastInstant →
      now (replay t.link.link (events ++ front ++ [.read n timeout outcome]))
        ≤ t.dueBy heard.1 + heard.2.length * timeout := by
    intro front back n timeout outcome hsplit
    rw [passages_append, hpassed, List.append_assoc, replay_append]
    exact hmore front back n timeout outcome hsplit
  intro front back n timeout outcome hsplit
  rcases List.append_eq_append_iff.mp hsplit with ⟨front', rfl, hrest⟩ | ⟨rest, rfl, hrest⟩
  · exact hbehind front' back n timeout outcome hrest
  · cases rest with
    | nil =>
        have hfirst := hbehind [] back n timeout outcome (List.nil_append _ ▸ hrest).symm
        rw [List.append_nil, List.append_nil] at hfirst
        exact hfirst
    | cons event rest =>
        obtain ⟨rfl, -⟩ := List.cons.inj hrest
        exact h front rest n timeout outcome rfl

/-- What is known of a call between two of its steps: what passed since it started in `t`, and that
its deadline is no later than what is due. -/
structure Tracked (t : Session (Traced L)) (events : List Event) (items : List Passage)
    (s : Session (Traced L)) : Prop where
  record : s.link.events = t.link.events ++ events
  stands : s.link.link = replay t.link.link events
  passed : passages t.codec.epilogue t.frame.capacity [] events = (items, [])
  capacity : s.frame.capacity = t.frame.capacity
  settings : s.settings = t.settings
  codec : s.codec.Alike t.settings.codec
  due : s.deadline.getD (Time.lastInstant + 1) ≤ t.dueBy items
  timely : Prompt t.link.link events → Timely t events

theorem Tracked.epilogue (h : Tracked t events items s)
    (halike : t.codec.Alike t.settings.codec) : s.codec.epilogue = t.codec.epilogue :=
  h.codec.epilogue.trans halike.epilogue.symm

/-- Some way a call has come from `t` to `s`. -/
def OnTrack (t s : Session (Traced L)) : Prop := ∃ events items, Tracked t events items s

/-- Time that is granted moves the deadline no further than what is due. -/
theorem deadline_extended (deadline : Option Nanos) (extra : Nanos) :
    (deadline.bind (Time.after? · extra)).getD (Time.lastInstant + 1)
      ≤ deadline.getD (Time.lastInstant + 1) + extra := by
  cases deadline with
  | none => exact Nat.le_add_right _ _
  | some instant => exact Time.after?_getD_le instant extra

/-- The track goes on with what one step makes pass. -/
theorem Tracked.extend (h : Tracked t events items s) (halike : t.codec.Alike t.settings.codec)
    (hevents : s'.link.events = s.link.events ++ more)
    (hstands : s'.link.link = replay s.link.link more) (hpasses : Passes s items' s')
    (hcapacity : s'.frame.capacity = s.frame.capacity) (hsettings : s'.settings = s.settings)
    (hcodec : s'.codec = s.codec)
    (hdue : s'.deadline.getD (Time.lastInstant + 1) ≤ t.dueBy (items ++ items'))
    (hmore : Prompt s.link.link more → ∀ front back n timeout outcome,
      more = front ++ .read n timeout outcome :: back →
      let heard := passages t.codec.epilogue t.frame.capacity [] front
      t.dueBy (items ++ heard.1) ≤ Time.lastInstant →
      now (replay s.link.link (front ++ [.read n timeout outcome]))
        ≤ t.dueBy (items ++ heard.1) + heard.2.length * timeout) :
    OnTrack t s' := by
  obtain ⟨events', hevents', hpassed'⟩ := hpasses
  obtain rfl := List.append_cancel_left (hevents.symm.trans hevents')
  rw [h.epilogue halike, h.capacity] at hpassed'
  refine ⟨events ++ more, items ++ items', ?_⟩
  exact {
    record := by rw [hevents, h.record, List.append_assoc]
    stands := by rw [hstands, h.stands, replay_append]
    passed := by rw [passages_append, h.passed]; dsimp only; rw [hpassed']
    capacity := hcapacity.trans h.capacity
    settings := hsettings.trans h.settings
    codec := by rw [hcodec]; exact h.codec
    due := hdue
    timely := by
      intro hprompt
      obtain ⟨hbefore, hafter⟩ := prompt_append.mp hprompt
      rw [← h.stands] at hafter
      refine (h.timely hbefore).append h.passed ?_
      rw [← h.stands]
      exact hmore hafter }

end Session

namespace Step

open SecureElement.Action Session

variable {L : Type} [Link L] {s s' t : Session (Traced L)} {events reads writes : List Event}
  {items : List Passage} {timeout : Nanos}

theorem transmit_onTrack (halike : t.codec.Alike t.settings.codec) (frame : Bytes) :
    (transmit frame : Step (Traced L) Unit).Maintains (OnTrack t) fun _ _ => True := by
  intro s h
  obtain ⟨events, items, htracked⟩ := h
  refine ((transmit_outcome frame).and (transmit_makes frame s s (.refl s))).mono ?_
  intro r s' hend
  obtain ⟨⟨outcome, link, rfl, hpasses, -⟩, ⟨more, hevents, hlink, hwrites⟩, -⟩ := hend
  refine kept_any (htracked.extend halike hevents hlink hpasses rfl rfl rfl
    (Nat.le_trans htracked.due (dueBy_le_append _ _)) ?_)
  -- there is no read among the calls of this step
  intro _ front back n timeout outcome' hsplit
  have hread : Event.read n timeout outcome' ∈ more := by
    rw [hsplit]
    exact List.mem_append_right _ (List.mem_cons_self ..)
  exact absurd (hwrites _ hread) (Event.not_isWrite_read _ _ _)

/-- The first read of a wait is over by the deadline. -/
theorem now_add_bounded_le (timeout : Nanos) {deadline : Nanos}
    (hdeadline : s.deadline = some deadline) (hleft : timeLeft s ≠ some 0) :
    Link.now s.link + bounded timeout (timeLeft s) ≤ deadline := by
  unfold timeLeft at hleft ⊢
  rw [hdeadline, Option.map_some] at hleft ⊢
  have hsome : deadline - Link.now s.link ≠ 0 := fun h => hleft (congrArg some h)
  have hwait : bounded timeout (some (deadline - Link.now s.link)) ≤ deadline - Link.now s.link :=
    Nat.min_le_right _ _
  rw [Nat.add_comm]
  exact (Nat.le_sub_iff_add_le (Nat.le_of_lt (Nat.lt_of_sub_ne_zero hsome))).mp hwait

/-- A read of a wait is made for the block, with the time that every read of it is given. -/
theorem Course.read (h : Course timeout s reads writes s') {front back : List Event} {n : Nat}
    {wait : Nanos} {outcome : Except Link.Fault Bytes}
    (hsplit : reads ++ writes = front ++ .read n wait outcome :: back) :
    wait = bounded timeout (timeLeft s) ∧
      ∃ rest, reads = front ++ .read n wait outcome :: rest := by
  have hreads : ∃ rest, reads = front ++ .read n wait outcome :: rest := by
    rcases List.append_eq_append_iff.mp hsplit with ⟨front', rfl, hrest⟩ | ⟨rest, rfl, hrest⟩
    · refine absurd (h.writing (.read n wait outcome) ?_) (Event.not_isWrite_read _ _ _)
      rw [hrest]
      exact List.mem_append_right _ (List.mem_cons_self ..)
    · cases rest with
      | nil =>
          refine absurd (h.writing (.read n wait outcome) ?_) (Event.not_isWrite_read _ _ _)
          rw [← List.nil_append writes, ← hrest]
          exact List.mem_cons_self ..
      | cons event rest =>
          obtain ⟨rfl, -⟩ := List.cons.inj hrest
          exact ⟨rest, rfl⟩
  obtain ⟨rest, rfl⟩ := hreads
  obtain ⟨n', outcome', hsame⟩ := h.reading (.read n wait outcome)
    (List.mem_append_right _ (List.mem_cons_self ..))
  exact ⟨(Event.read.inj hsame).2.1, rest, rfl⟩

/-- **The reads of one wait are over in time**, but for those behind the first. -/
theorem Course.timely (hcourse : Course timeout s reads writes s') (h : Tracked t events items s)
    (halike : t.codec.Alike t.settings.codec) (hprompt : Prompt s.link.link (reads ++ writes))
    (front back : List Event) (n : Nat) (wait : Nanos) (outcome : Except Link.Fault Bytes)
    (hsplit : reads ++ writes = front ++ .read n wait outcome :: back) :
    let heard := passages t.codec.epilogue t.frame.capacity [] front
    t.dueBy (items ++ heard.1) ≤ Time.lastInstant →
    now (replay s.link.link (front ++ [.read n wait outcome]))
      ≤ t.dueBy (items ++ heard.1) + heard.2.length * wait := by
  obtain ⟨rfl, rest, hreads⟩ := hcourse.read hsplit
  obtain ⟨one, hone, hpass⟩ := hcourse.block
  rw [h.epilogue halike, h.capacity] at hpass
  obtain ⟨hsilent, hbegun⟩ := reads_of_begun hcourse.reading hpass hone hreads
  dsimp only
  rw [hsilent, List.append_nil]
  intro hinstant
  have hleft : timeLeft s ≠ some 0 := by
    refine hcourse.left ?_
    rw [hreads]
    exact List.append_ne_nil_of_right_ne_nil _ (List.cons_ne_nil _ _)
  rw [List.append_cons] at hsplit hreads
  rw [hsplit] at hprompt
  have hfront : ∀ event ∈ front ++ [Event.read n (bounded timeout (timeLeft s)) outcome],
      event.IsRead (bounded timeout (timeLeft s)) := fun event hevent =>
    hcourse.reading event (hreads ▸ List.mem_append_left _ hevent)
  have hclock := now_replay_reads hfront (prompt_append.mp hprompt).1
  cases hdeadline : s.deadline with
  | none =>
      -- what is due lies behind the last instant then
      have hdue := h.due
      rw [hdeadline] at hdue
      exact absurd (Nat.le_trans hdue hinstant) (Nat.not_succ_le_self _)
  | some deadline =>
      have hfirst := now_add_bounded_le timeout hdeadline hleft
      have hdue := h.due
      rw [hdeadline] at hdue
      generalize bounded timeout (timeLeft s) = wait at hclock hfirst ⊢
      rw [List.length_append, List.length_singleton, Nat.add_mul, Nat.one_mul] at hclock
      have hmore : front.length * wait
          ≤ (passages t.codec.epilogue t.frame.capacity [] front).2.length * wait :=
        Nat.mul_le_mul_right _ hbegun
      calc now (replay s.link.link (front ++ [.read n wait outcome]))
          ≤ now s.link.link + (front.length * wait + wait) := hclock
        _ = Link.now s.link + wait + front.length * wait := by
            rw [Nat.add_comm (_ * _), ← Nat.add_assoc]
            rfl
        _ ≤ deadline + front.length * wait := Nat.add_le_add_right hfirst _
        _ ≤ t.dueBy items + (passages t.codec.epilogue t.frame.capacity [] front).2.length * wait :=
            Nat.add_le_add hdue hmore

/-- A wait leaves the deadline where it was, or moves it by what it grants. -/
theorem Rounds.due {r : Except (Stop Setback) (Nanos ⊕ Inbound)} (h : Rounds s r s')
    (htracked : Tracked t events items s) :
    ∃ items', Passes s items' s' ∧ s'.frame.capacity = s.frame.capacity ∧
      s'.settings = s.settings ∧ s'.codec = s.codec ∧
      s'.deadline.getD (Time.lastInstant + 1) ≤ t.dueBy (items ++ items') := by
  have hkept : ∀ items', s.deadline.getD (Time.lastInstant + 1) ≤ t.dueBy (items ++ items') :=
    fun items' => Nat.le_trans htracked.due (dueBy_le_append _ _)
  cases h with
  | unrelated hframe hpasses _ _ => exact ⟨_, hpasses, hframe, rfl, rfl, hkept _⟩
  | refused hframe hpasses _ _ _ => exact ⟨_, hpasses.congr rfl, hframe, rfl, rfl, hkept _⟩
  | @granted r raw multiplier outcome extra total link frame statistics hframe hpasses _
      hgrantable _ _ =>
      refine ⟨_, hpasses.congr rfl, hframe, rfl, rfl, ?_⟩
      obtain rfl := grantable?_extra hgrantable
      have hmore : ((Passage.granted t.settings.codec
          [.received raw, .sent (s.codec.grant multiplier) outcome]).map UInt8.toNat).sum
          = multiplier.toNat := by
        rw [htracked.codec.grant, Passage.granted_received, Passage.granted_sent]
        exact List.sum_singleton
      rw [dueBy_append, hmore, ← htracked.settings]
      exact Nat.le_trans (deadline_extended _ _) (Nat.add_le_add_right htracked.due _)

theorem awaitRound_onTrack (halike : t.codec.Alike t.settings.codec)
    (hcapacity : Block.longPrologue ≤ t.frame.capacity) (timeout : Nanos) :
    (awaitRound timeout : Step (Traced L) (Nanos ⊕ Inbound)).Maintains (OnTrack t)
      fun _ _ => True := by
  intro s h
  obtain ⟨events, items, htracked⟩ := h
  have hroom : Block.longPrologue ≤ s.frame.capacity := by
    rw [htracked.capacity]
    exact hcapacity
  refine ((awaitRound_course timeout hroom).and (awaitRound_rounds timeout hroom)).mono ?_
  intro r s' hend
  obtain ⟨⟨reads, writes, hcourse⟩, hrounds⟩ := hend
  obtain ⟨items', hpasses, hframe, hsettings, hcodec, hdue⟩ := hrounds.due htracked
  exact kept_any (htracked.extend halike hcourse.record hcourse.stands hpasses hframe hsettings
    hcodec hdue (hcourse.timely htracked halike))

/-- **Every exchange keeps on the track of its call.** -/
theorem conduct_onTrack (halike : t.codec.Alike t.settings.codec)
    (hcapacity : Block.longPrologue ≤ t.frame.capacity) :
    Conduct (OnTrack t) fun _ _ => True where
  quiet := by
    intro s s' h hquiet
    obtain ⟨events, items, htracked⟩ := h
    refine ⟨events, items, ?_⟩
    exact {
      record := by rw [hquiet.link]; exact htracked.record
      stands := by rw [hquiet.link]; exact htracked.stands
      passed := htracked.passed
      capacity := by rw [hquiet.frame]; exact htracked.capacity
      settings := hquiet.settings.trans htracked.settings
      codec := by
        have hcodec := hquiet.speaksAlike (by rw [htracked.settings]; exact htracked.codec)
        rw [hquiet.settings, htracked.settings] at hcodec
        exact hcodec
      due := by rw [hquiet.deadline]; exact htracked.due
      timely := htracked.timely }
  still := fun _ _ => trivial
  mild := fun _ _ => trivial
  hardens := fun _ => trivial
  parked := fun _ _ => trivial
  parks := by
    intro received s h _
    obtain ⟨events, items, htracked⟩ := h
    exact ⟨events, items, { htracked with }⟩
  sendCommand := maintains_sendCommand (transmit_onTrack halike)
  sendControl := fun _ => maintains_sendControl (transmit_onTrack halike) (fun _ _ => trivial) _
  awaitRound := awaitRound_onTrack halike hcapacity

end Step

namespace Session

variable {L : Type} [Link L] {settings : Settings} {s s' t : Session (Traced L)}

/-- A call is on its track when it gets its deadline. -/
theorem onTrack_start (halike : t.codec.Alike t.settings.codec) :
    OnTrack t { t with deadline := t.deadlineFromNow } := by
  refine ⟨[], [], ?_⟩
  exact {
    record := (List.append_nil _).symm
    stands := rfl
    passed := rfl
    capacity := rfl
    settings := rfl
    codec := halike
    due := Nat.le_trans (Time.after?_getD_le _ _) (Nat.le_add_right _ _)
    timely := by
      intro _ front back n timeout outcome hsplit
      exact absurd hsplit.symm (List.append_ne_nil_of_right_ne_nil _ (List.cons_ne_nil _ _)) }

/-- What is left of another exchange has nothing to do with it. -/
theorem OnTrack.forgets (h : OnTrack t s) : OnTrack t s.resetExchange := by
  obtain ⟨events, items, htracked⟩ := h
  exact ⟨events, items, { htracked with }⟩

/-- The record tells what a call that started in `t` did to the link, and if the link was prompt
then every read was over in time. -/
def KeepsTime (t s' : Session (Traced L)) : Prop :=
  ∃ events, s'.link.events = t.link.events ++ events ∧ s'.link.link = replay t.link.link events ∧
    (Prompt t.link.link events → Timely t events)

theorem OnTrack.keepsTime (h : OnTrack t s') : KeepsTime t s' := by
  obtain ⟨events, items, htracked⟩ := h
  exact ⟨events, htracked.record, htracked.stands, htracked.timely⟩

/--
**As far as the exchange timeout bounds an exchange.** Let writes take no time, and reads no
longer than they are given. Then the first read of a block is over by the start of the
exchange, its timeout and the extra time granted meanwhile; a read of the rest of that
block may be later by its own time for each octet that has come. The same holds of the
handshake of a session that is opened.
-/
theorem exchange_timely (h : Reachable settings s) :
    (∀ request exchange, Request.exchange? request = some exchange →
      KeepsTime s.begun (exchange.final s.begun)) ∧
    KeepsTime (afresh { s with link := (Link.bringUp s.link).2 })
      (handshake.final (afresh { s with link := (Link.bringUp s.link).2 })) := by
  have hroom : Block.longPrologue ≤ s.frame.capacity := h.sound.capacity
  constructor
  · intro request exchange hexchange
    have hstart : OnTrack s.begun s.begun := onTrack_start (t := s.begun) h.speaksAlike
    have hkept := (Step.conduct_onTrack (t := s.begun) h.speaksAlike hroom).exchange hexchange
      (fun _ => hstart) fun _ => hstart.forgets
    exact (hkept.mono fun _ _ hend => hend.1).final.keepsTime
  · generalize hfresh : afresh { s with link := (Link.bringUp s.link).2 } = fresh
    have halike : fresh.codec.Alike fresh.settings.codec := by
      rw [← hfresh]
      exact ⟨rfl, rfl, rfl⟩
    have hcapacity : Block.longPrologue ≤ fresh.frame.capacity := by
      rw [← hfresh]
      exact hroom
    have hkept := (Step.conduct_onTrack halike hcapacity).handshake (onTrack_start halike)
    exact (hkept.mono fun _ _ hend => hend.1).final.keepsTime

/-- A response of two blocks comes at once. -/
theorem exchange_timely_responding :
    Reachable rehearsalSettings responding ∧
      responding.begun.dueBy [] ≤ Time.lastInstant ∧ ∃ events,
        (Step.receiveResponse.final responding.begun).link.events
          = responding.link.events ++ events ∧
        Prompt responding.link.link events ∧ Timely responding.begun events := by
  have hreachable : Reachable rehearsalSettings responding := .called _ (rehearse_reachable _)
  obtain ⟨events, hevents, -, htimely⟩ := (exchange_timely hreachable).1 .receive _ rfl
  have hprompt : Prompt responding.link.link events := by
    have hsame : events = (Step.receiveResponse.final responding.begun).link.events.drop
        responding.link.events.length := by
      rw [hevents]
      exact (List.drop_left ..).symm
    rw [hsame]
    decide +kernel
  exact ⟨hreachable, by decide +kernel, events, hevents, hprompt, htimely hprompt⟩

/-- A call has one and a half times as long as a block. -/
def dribblingSettings : Settings :=
  { rehearsalSettings with exchangeTimeout := 3 * rehearsalSettings.blockTimeout / 2 }

/-- The element answers the handshake. Its response begins when the time for a block is almost over,
and never ends. -/
def dribbling : Traced Rehearsal :=
  let answer : Reading := { outcome := .ok { bytes := [0xA5, 0xE0, 0, 0x45], chunk := none } }
  let octet : Reading := {
    delay := rehearsalSettings.blockTimeout, outcome := .ok { bytes := [0xA5], chunk := none } }
  { link := { readings := [answer, octet, { outcome := .error .silence }] } }

/-- **The second read of a block has its time without regard to what the first one took**, and so
the call takes twice the time of a block. -/
theorem exchange_timely_dribbling :
    ∃ s : Session (Traced Rehearsal), Reachable dribblingSettings s ∧ s.status.isReady = true ∧
      ∃ events front back n timeout outcome,
        (Step.receiveResponse.final s.begun).link.events = s.link.events ++ events ∧
        Prompt s.link.link events ∧ events = front ++ .read n timeout outcome :: back ∧
        (passages s.codec.epilogue s.frame.capacity [] front).1 = [] ∧
        s.begun.dueBy [] = 1500000000 ∧ s.begun.dueBy [] ≤ Time.lastInstant ∧
        now (replay s.link.link (front ++ [.read n timeout outcome])) = 2000000000 := by
  have hnew : new dribbling dribblingSettings = .ok (create dribbling dribblingSettings) := rfl
  refine ⟨(perform .establish).final (create dribbling dribblingSettings),
    .called _ (.created hnew), ?_, _, [.read 3 1000000000 (.ok [0xA5])],
    [.write [0x5A, 0x82, 0, 0xD8] 1000000000 (.ok 4)], 2, 1000000000, .error .timeout,
    ?_, ?_, rfl, ?_, ?_, ?_, ?_⟩
  · decide +kernel
  · decide +kernel
  · decide +kernel
  · decide +kernel
  · decide +kernel
  · decide +kernel
  · decide +kernel

end Session

end SecureElement
