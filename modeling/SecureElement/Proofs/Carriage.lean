import SecureElement.Proofs.Connections
import SecureElement.Proofs.Dealings
import SecureElement.Proofs.Limits

/-!
# Blocks in messages

The length of a message to the proxy is two octets, and so is the length of a payload. But
a message holds a whole block, with the octets in front of its payload and the epilogue
behind it, so the longest payloads that the settings allow are too long for it:
`Epilogue.carriable` is the longest that is not.

`frames_carried` says which blocks of a command the proxy link refuses for that, and that
it takes every other over a connection that takes octets.
-/

namespace SecureElement

open Link

namespace Proxy

namespace Network

variable {N : Type} [Network N] {J : N → Prop}

/-- In the states of a network of which `J` is true octets are taken, be it in pieces. -/
structure Accepting (J : N → Prop) : Prop where
  limited (limit : Nanos) {net : N} : J net → J (limitSend limit net)
  takes {bytes : Bytes} {net : N} : J net → bytes ≠ [] →
    ∃ n, 0 < n ∧ (send bytes net).1 = .ok n ∧ J (send bytes net).2

/-- Octets that are taken in pieces are all taken in the end. -/
theorem Accepting.sendUpTo (h : Accepting J) :
    ∀ (calls : Nat) (bytes : Bytes) {net : N}, J net → bytes.length ≤ calls →
      (sendUpTo calls bytes net).1 = .ok ()
  | 0, [], _, _, _ => rfl
  | calls + 1, [], _, _, _ => rfl
  | 0, _ :: _, _, _, hcalls => absurd hcalls (Nat.not_succ_le_zero _)
  | calls + 1, b :: bs, net, hnet, hcalls => by
      obtain ⟨n, hpos, hsent, hafter⟩ := h.takes hnet (List.cons_ne_nil b bs)
      obtain ⟨m, rfl⟩ : ∃ m, n = m + 1 := ⟨n - 1, by omega⟩
      have hrest : ((b :: bs).drop (m + 1)).length ≤ calls := by
        rw [List.length_drop]
        omega
      have hlater := h.sendUpTo calls ((b :: bs).drop (m + 1)) hafter hrest
      unfold Network.sendUpTo
      generalize Network.send (b :: bs) net = result at hsent hlater
      obtain ⟨outcome, net'⟩ := result
      dsimp only at hsent hlater
      subst hsent
      exact hlater

end Network

namespace Client

variable {N : Type} [Network N] {c : Client N} {bytes : Bytes} {timeout : Nanos}

/-- What is said of octets that no message can carry. -/
def refusal : Fault := .bus "block too large for proxy message"

/-- Octets are refused for their number exactly if they are too many for a message. -/
theorem write_refuses_iff :
    (c.write bytes timeout).1 = .error refusal ↔ messageMax < bytes.length := by
  refine ⟨fun hrefused => ?_, fun hlong => ?_⟩
  · by_contra hfits
    unfold write at hrefused
    rw [if_neg hfits] at hrefused
    split at hrefused
    · exact absurd hrefused nofun
    · split at hrefused
      · rename_i error _ _
        have hother : linkFault error ≠ refusal := by cases error <;> decide
        exact hother (Except.error.inj hrefused)
      · exact absurd hrefused nofun
  · unfold write
    rw [if_pos hlong]
    rfl

/-- All others are taken over a connection that takes octets. -/
theorem write_taken {J : N → Prop} (h : Network.Accepting J) (hnet : J c.net)
    (hup : c.isConnected = true) (hfits : bytes.length ≤ messageMax) :
    (c.write bytes timeout).1 = .ok bytes.length := by
  have hsent : (Network.sendAll (message bytes)
      (Network.limitSend (max timeout minLimit) c.net)).1 = .ok () :=
    h.sendUpTo _ _ (h.limited _ hnet) (Nat.le_add_right _ _)
  unfold write
  rw [if_neg (Nat.not_lt.mpr hfits), if_neg (by rw [hup]; exact Bool.false_ne_true)]
  generalize Network.sendAll (message bytes) (Network.limitSend (max timeout minLimit) c.net)
    = result at hsent
  obtain ⟨outcome, net⟩ := result
  dsimp only at hsent
  subst hsent
  rfl

end Client

end Proxy

/-! ## How long blocks are -/

/-- The longest payload of a block that a message can carry. -/
def Epilogue.carriable (e : Epilogue) : Nat := Proxy.messageMax - Block.longPrologue - e.width

/-- What makes a block too long for a message is its payload. -/
theorem messageMax_lt_layout_iff (c : Codec) (block : Block) :
    Proxy.messageMax < (c.layout block).length ↔ c.epilogue.carriable < block.payload.length := by
  have hwidth : c.epilogue.width ≤ 2 := by cases c.epilogue <;> decide
  rw [Codec.length_layout]
  unfold Codec.frameLength Block.prologueLength Epilogue.carriable Proxy.messageMax
    Block.shortPrologue Block.longPrologue Block.shortMax
  split <;> omega

example : Epilogue.crc16.carriable = 65528 ∧ Epilogue.lrc.carriable = 65529 := ⟨rfl, rfl⟩

/-! ## What comes first -/

namespace Link

variable {L : Type} [Link L]

/-- Whatever was recorded, it was recorded behind these calls. -/
def Behind (front : List Event) (t : Traced L) : Prop := front <+: t.events

theorem steady_behind (front : List Event) : Steady (Behind (L := L) front) where
  bringUp {t} h := h.trans ⟨[.bringUp (bringUp t.link).1], (Traced.events_record ..).symm⟩
  write bytes timeout {t} h :=
    h.trans ⟨[.write bytes timeout (write bytes timeout t.link).1], (Traced.events_record ..).symm⟩
  read n timeout {t} h := h.trans
    ⟨[.read n timeout ((read n timeout t.link).1.map (·.take n))], (Traced.events_record ..).symm⟩
  release h := h.trans ⟨[.release], (Traced.events_record ..).symm⟩

end Link

namespace Step

open SecureElement.Action Session

variable {L α : Type} [Link L] {s : Session (Traced L)} {frame : Bytes}

/-- The record when a frame is handed over next. -/
def opening (frame : Bytes) (s : Session (Traced L)) : List Event :=
  s.link.events ++ [.write frame s.settings.blockTimeout
    (Link.write frame s.settings.blockTimeout s.link.link).1]

/-- A frame is handed over before anything else is done. -/
abbrev Opens (frame : Bytes) (s : Session (Traced L)) :
    Except (Stop Setback) α → Session (Traced L) → Prop :=
  Kept (fun s' => Behind (opening frame s) s'.link) fun _ _ => True

theorem transmit_opens (frame : Bytes) : Ensures (transmit frame) s (Opens frame s) := by
  have hbehind : Behind (opening frame s) (writeAll frame s.settings.blockTimeout s.link).2 := by
    unfold Behind
    rw [writeAll_traced, Traced.events_record]
    exact List.prefix_rfl
  unfold transmit
  rw [ensures_count_bind, ensures_get_bind]
  dsimp only
  rw [ensures_onLink_bind]
  split
  · exact ⟨hbehind, nofun⟩
  · exact ⟨hbehind, fun _ _ => trivial⟩

/-- A block that is staged opens, whether or not others follow. -/
theorem sendStaged_opens :
    Ensures sendChained s (Opens s.command.used s) ∧
      Ensures sendFinal s (Opens s.command.used s) := by
  have hbehind := steady_behind (L := L) (opening s.command.used s)
  have hcommand : Ensures sendCommand s (Opens s.command.used s) := transmit_opens s.command.used
  have hsend := (regime_upholds hbehind).conduct.sendCommand
  have hawait := (regime_upholds hbehind).conduct.awaitBlock
  constructor
  · unfold sendChained
    rw [ensures_get_bind]
    refine kept_bind ?_ fun _ => maintains_pure _
    unfold askUntil
    rw [ensures_get_bind]
    refine kept_loop (askRound_behind hbehind (kept_bind hcommand fun _ => hawait)) ?_ _
    exact fun _ s hs => askRound_behind hbehind (hsend.bind (fun _ => hawait) s hs)
  · unfold sendFinal
    rw [ensures_get_bind]
    refine kept_loop (sendFinalRound_behind hbehind hcommand) ?_ _
    exact fun _ s hs => sendFinalRound_behind hbehind (hsend s hs)

theorem sendBlock_opens {block : Block} (hpayload : block.payload.length ≤ s.codec.maxPayload)
    (hroom : s.codec.frameCapacity ≤ s.command.capacity) :
    Ensures (sendBlock block) s (Opens (s.codec.layout block) s) := by
  have hbehind := steady_behind (L := L) (opening (s.codec.layout block) s)
  unfold sendBlock
  refine ((stage_spec block).and (stage_fits hpayload hroom)).bind ?_ ?_
  · rintro u s₁ ⟨⟨command, rfl, hused⟩, -⟩
    rw [ensures_modify_bind]
    dsimp only at hused ⊢
    obtain ⟨hchained, hfinal⟩ :=
      sendStaged_opens (s := { s with command, retries := 0 })
    dsimp only at hchained hfinal
    rw [hused] at hchained hfinal
    have hadvance : Upholds (Behind (opening (s.codec.layout block) s))
        (modify fun s => { s with sendSeq := s.sendSeq.next } : Step (Traced L) PUnit) :=
      upholds_modify fun _ => rfl
    split
    · exact kept_bind hchained fun _ => hadvance
    · exact kept_bind hfinal fun _ => hadvance
  · rintro stop s₁ ⟨-, hok, -⟩
    exact absurd hok nofun

/-- **A command begins with its first block**, which is full if the command is long enough and is
handed over at once. -/
theorem sendChain_opens (command : Bytes) (hroom : s.codec.frameCapacity ≤ s.command.capacity) :
    ∃ first ∈ s.commandBlocks command, first.payload = command.take s.codec.maxPayload ∧
      Ensures (sendChain command) s (Opens (s.codec.layout first) s) := by
  obtain ⟨first, rest, hnext⟩ :=
    Chain.exists_next (c := Chain.ofPayload s.codec command s.sendSeq) rfl
  refine ⟨first, ?_, ?_, ?_⟩
  · unfold commandBlocks
    rw [Chain.blocks_next hnext]
    exact List.mem_cons_self ..
  · unfold Chain.next? at hnext
    rw [if_neg (by exact Bool.false_ne_true)] at hnext
    obtain ⟨rfl, -⟩ := Prod.mk.inj (Option.some.inj hnext)
    rfl
  have hbehind := steady_behind (L := L) (opening (s.codec.layout first) s)
  unfold sendChain
  rw [ensures_modify_bind, ensures_get_bind]
  dsimp only [resetExchange]
  rw [Chain.remaining_next hnext]
  unfold sendBlocks
  rw [hnext]
  have hfirst := sendBlock_opens (s := { s with
    parked := none, extension := {}, response := s.response.clear, commandPending := false })
    (Chain.payload_next_le hnext) hroom
  refine kept_bind (kept_bind hfirst fun _ => ?_) fun _ => upholds_modify fun _ => rfl
  exact (regime_upholds hbehind).conduct.sendBlocks _ rest

end Step

namespace Session

open SecureElement.Action

section Opening

variable {L : Type} [Link L] {settings : Settings} {s : Session (Traced L)}

theorem send_opens (command : Bytes) (h : Housed settings s) (hready : s.status.isReady = true) :
    ∃ first ∈ s.commandBlocks command, first.payload = command.take s.codec.maxPayload ∧
      Behind (Step.opening (s.codec.layout first) s) ((perform (.send command)).final s).link := by
  obtain ⟨first, hfirst, hpayload, hopens⟩ :=
    Step.sendChain_opens (s := s.begun) command h.roomy.staging
  refine ⟨first, hfirst, hpayload, ?_⟩
  have hbehind := steady_behind (L := L) (Step.opening (s.codec.layout first) s)
  have hexchanged := sendChain_exchanged (s := s.begun) command h.sound.capacity
  have hrun : Ensures (run (Step.sendChain command)) s fun _ s' =>
      Behind (Step.opening (s.codec.layout first) s) s'.link := by
    refine ensures_run hready (hopens.and hexchanged) ?_ ?_ ?_ ?_
    · exact fun u s₁ hend => ⟨hend.2.1.2.1, hend.1.1⟩
    · intro setback s₁ hend
      refine ((Step.regime_upholds hbehind).recover setback.failure { s₁ with deadline := none }
        hend.1.1).mono ?_
      rintro (stop | told) s₂ hkept
      · exact hkept.1
      · exact hkept.1
    · exact fun _ hend => hend.1.1
    · exact fun _ hend => hend.1.1
  have hperform : Ensures (perform (.send command)) s fun _ s' =>
      Behind (Step.opening (s.codec.layout first) s) s'.link := hrun.bind_kept fun _ _ h => h
  exact hperform.final

/-- The session in which a chain was started that a call hands over blocks of. -/
theorem ChainOf.reachable {request : Request} {s₀ : Session (Traced L)} {command : Bytes}
    (hchain : ChainOf settings s request s₀ command) (h : Reachable settings s) :
    Reachable settings s₀ := by
  cases hchain with
  | sent | exchanged => exact h
  | pending hreachable _ _ => exact hreachable

/-- No limit that is ever in force is beyond the one of the settings. -/
theorem Reachable.maxPayload_le (h : Reachable settings s) :
    s.codec.maxPayload ≤ settings.maxBlockPayload := by
  obtain ⟨hpos, hmax⟩ := settings.maxBlockPayload_bounds h.fault?_eq
  refine Nat.le_trans h.housed.equipped.payload (Nat.le_of_eq ?_)
  show Codec.clampPayload _ = _
  unfold Codec.clampPayload
  omega

/-- An information block in the record of a call was handed over in it. -/
theorem mem_informationFrames {e : Epilogue} {capacity : Nat} {begun left : Bytes}
    {items : List Passage} {front back : List Event} {frame : Bytes} {timeout : Nanos}
    {outcome : Except Fault Nat}
    (h : passages e capacity begun (front ++ .write frame timeout outcome :: back) = (items, left))
    (hframe : isInformation frame = true) : frame ∈ informationFrames items := by
  rw [passages_append, passages_cons] at h
  rw [← (Prod.mk.inj h).1, informationFrames_append, informationFrames_append]
  refine List.mem_append_right _ (List.mem_append_left _ ?_)
  rw [show (hear e capacity (passages e capacity begun front).2 (.write frame timeout outcome)).1
    = [.sent frame outcome] from rfl, informationFrames_sent hframe]
  exact List.mem_cons_self ..

end Opening

/-! ## Blocks over the proxy link -/

open Proxy

variable {N : Type} [Network N] {settings : Settings} {s : Session (Traced (Client N))}

/-- What has become of a block that was handed to the proxy link as it stood. -/
structure Carried (settings : Settings) (c : Client N) (block : Block) (frame : Bytes)
    (outcome : Except Fault Nat) : Prop where
  refused : outcome = .error Client.refusal ↔
    settings.epilogue.carriable < block.payload.length
  taken (J : N → Prop) : Network.Accepting J → J c.net → c.isConnected = true →
    block.payload.length ≤ settings.epilogue.carriable → outcome = .ok frame.length

theorem write_carried {codec : Codec} (hepilogue : codec.epilogue = settings.epilogue)
    (c : Client N) (block : Block) (timeout : Nanos) :
    Carried settings c block (codec.layout block)
      (Link.write (codec.layout block) timeout c).1 := by
  have hlong := messageMax_lt_layout_iff codec block
  rw [hepilogue] at hlong
  refine ⟨Client.write_refuses_iff.trans hlong, fun J haccepting hnet hup hshort => ?_⟩
  refine Client.write_taken haccepting hnet hup (Nat.not_lt.mp fun hmore => ?_)
  exact Nat.not_lt.mpr hshort (hlong.mp hmore)

/--
**Which blocks the proxy link refuses for their length.** It refuses a block of a command
exactly if its payload is longer than the longest that a message can carry with it, and
takes all of any other over a connection that takes octets. So it is for every block of
every command, and in every call for whatever information block the session hands over in
it. Nothing is refused for its length where the settings keep payloads that short.
-/
theorem frames_carried (h : Reachable settings s) :
    (∀ command, ∀ block ∈ s.commandBlocks command, ∀ (c : Client N) (timeout : Nanos),
      Carried settings c block (s.codec.layout block)
        (Link.write (s.codec.layout block) timeout c).1) ∧
    (∀ request, ∃ events, Logged s.link events ((perform request).final s).link ∧
      ∀ front frame timeout outcome back, events = front ++ .write frame timeout outcome :: back →
        isInformation frame = true →
          ∃ s₀ command, ChainOf settings s request s₀ command ∧
            ∃ block ∈ s₀.commandBlocks command, frame = s₀.codec.layout block ∧
              Carried settings (replay s.link.link front) block frame outcome ∧
              (settings.maxBlockPayload ≤ settings.epilogue.carriable →
                outcome ≠ .error Client.refusal)) := by
  refine ⟨fun command block _ c timeout => write_carried h.housed.equipped.epilogue c block timeout,
    fun request => ?_⟩
  obtain ⟨events, hlogged⟩ := perform_recorded request s
  obtain ⟨items, ⟨events', hevents, hpassed⟩, hframes⟩ := (perform_hands request h).final
  obtain rfl := List.append_cancel_left (hevents.symm.trans hlogged.1)
  refine ⟨events', hlogged, fun front frame timeout outcome back hsplit hinformation => ?_⟩
  subst hsplit
  obtain ⟨s₀, command, hchain, block, hblock, rfl⟩ :=
    hframes frame (mem_informationFrames hpassed hinformation)
  have hstarted := hchain.reachable h
  -- the link gave its answer in the state in which the calls before had left it
  have hanswer : outcome = (Link.write (s₀.codec.layout block) timeout
      (replay s.link.link front)).1 := hlogged.2.2.answers
  have hcarried : Carried settings (replay s.link.link front) block (s₀.codec.layout block)
      outcome := by
    rw [hanswer]
    exact write_carried hstarted.housed.equipped.epilogue _ block timeout
  have hpayload : block.payload.length ≤ settings.maxBlockPayload :=
    Nat.le_trans (Chain.payload_le_of_mem_blocks hblock) hstarted.maxPayload_le
  refine ⟨s₀, command, hchain, block, hblock, rfl, hcarried, fun hshort hrefused => ?_⟩
  exact Nat.not_lt.mpr (Nat.le_trans hpayload hshort) (hcarried.refused.mp hrefused)

/-! ## A session at the proxy -/

/-- A rehearsed network takes octets as long as none of its sending calls is laid down to fail or to
take nothing. -/
theorem accepting_rehearsal : Network.Accepting fun net : Proxy.Rehearsal =>
    ∀ taken ∈ net.sends, ∃ limit, taken = .ok limit ∧ limit ≠ some 0 where
  limited _ _ h := h
  takes {bytes net} h hsome := by
    have hlength := List.length_pos_iff.mpr hsome
    obtain ⟨connects, arrivals, sends, ended, receiveLimit, clock⟩ := net
    cases sends with
    | nil => exact ⟨bytes.length, hlength, rfl, h⟩
    | cons taken sends =>
        obtain ⟨⟨limit, rfl, hlimit⟩, hrest⟩ := List.forall_mem_cons.mp h
        refine ⟨min (limit.getD bytes.length) bytes.length, ?_, rfl, hrest⟩
        cases limit with
        | none => exact Nat.lt_min.mpr ⟨hlength, hlength⟩
        | some n =>
            have hpos : 0 < n := Nat.pos_of_ne_zero fun hzero => hlimit (congrArg some hzero)
            exact Nat.lt_min.mpr ⟨hpos, hlength⟩

/-- A link to a proxy that will confirm a resynchronisation. -/
def proxyLink : Traced (Client Proxy.Rehearsal) where
  link := {
    net := { arrivals := [.bytes [0x01, 0x00, 0x04, 0xA5, 0xE0, 0x00, 0x45]] }
    address := { host := .four 0x7F000001, port := 8050 } }

/-- A session that is opened over it. -/
def atProxy (settings : Settings) : Session (Traced (Client Proxy.Rehearsal)) :=
  (perform .establish).final (create proxyLink settings)

theorem reachable_atProxy {settings : Settings} (hvalid : settings.fault? = none)
    (hcapacity : settings.responseCapacity ≤ Buffer.capacityMax) :
    Reachable settings (atProxy settings) := by
  have hnew : new proxyLink settings = .ok (create proxyLink settings) := by
    unfold new
    rw [hvalid]
    exact if_pos hcapacity
  exact .called .establish (.created hnew)

/-- Settings under which a block fits into a message many times. -/
def modestSettings : Settings := { epilogue := .lrc, handshake := .resync }

/-- A command of one octet is handed over in one block, which is taken, and could not have been
refused. -/
theorem frames_carried_modest :
    Reachable modestSettings (atProxy modestSettings) ∧
      ∃ frame timeout outcome,
        ((perform (.send [0x80])).final (atProxy modestSettings)).link.events
          = (atProxy modestSettings).link.events ++ [.write frame timeout outcome] ∧
        outcome = .ok frame.length ∧ outcome ≠ .error Client.refusal := by
  have hreachable : Reachable modestSettings (atProxy modestSettings) :=
    reachable_atProxy rfl (by decide)
  have hevents : ((perform (.send [0x80])).final (atProxy modestSettings)).link.events
      = (atProxy modestSettings).link.events ++
        [.write [0x5A, 0x00, 0x01, 0x80, 0xDB] (1 * Time.second) (.ok 5)] := by decide +kernel
  obtain ⟨events, hlogged, hcarried⟩ := (frames_carried hreachable).2 (.send [0x80])
  have hsplit := List.append_cancel_left (hlogged.1.symm.trans hevents)
  obtain ⟨s₀, command, -, block, -, -, hblock, hnever⟩ := hcarried [] _ _ _ [] hsplit (by decide)
  have hup : (atProxy modestSettings).link.link.isConnected = true := by decide +kernel
  have hsends : (atProxy modestSettings).link.link.net.sends = [] := by decide +kernel
  have hwilling : ∀ taken ∈ (atProxy modestSettings).link.link.net.sends,
      ∃ limit, taken = .ok limit ∧ limit ≠ some 0 := by
    rw [hsends]
    exact nofun
  have hunrefused := hnever (by decide)
  have hshort : block.payload.length ≤ modestSettings.epilogue.carriable :=
    Nat.not_lt.mp (hblock.refused.not.mp hunrefused)
  have htaken := hblock.taken _ accepting_rehearsal hwilling hup hshort
  exact ⟨hreachable, _, _, _, hevents, htaken, hunrefused⟩

/-- Settings under which the longest block is one octet too long for a message. -/
def spaciousSettings : Settings :=
  { modestSettings with maxBlockPayload := 65530, responseCapacity := 65530 }

/-- The settings allow the block, the session is open, there is a connection and it takes octets,
and still the block is refused. -/
theorem frames_carried_refused :
    spaciousSettings.check = .ok () ∧ Reachable spaciousSettings (atProxy spaciousSettings) ∧
      (atProxy spaciousSettings).status.isReady = true ∧
      (atProxy spaciousSettings).link.link.isConnected = true ∧
      (atProxy spaciousSettings).link.link.net.sends = [] ∧
      ∃ block ∈ (atProxy spaciousSettings).commandBlocks (Bytes.zeros 65530), ∃ back,
        ((perform (.send (Bytes.zeros 65530))).final (atProxy spaciousSettings)).link.events
          = (atProxy spaciousSettings).link.events
            ++ .write ((atProxy spaciousSettings).codec.layout block) (1 * Time.second)
              (.error (.bus "block too large for proxy message")) :: back := by
  have hreachable : Reachable spaciousSettings (atProxy spaciousSettings) :=
    reachable_atProxy rfl (by decide)
  have hready : (atProxy spaciousSettings).status.isReady = true := by decide +kernel
  have hmax : (atProxy spaciousSettings).codec.maxPayload = 65530 := by decide +kernel
  have hsettings : (atProxy spaciousSettings).settings = spaciousSettings :=
    hreachable.sound.settings
  obtain ⟨block, hblock, hpayload, back, hevents⟩ :=
    send_opens (Bytes.zeros 65530) hreachable.housed hready
  have hlength : block.payload.length = 65530 := by
    rw [hpayload, hmax, List.length_take, Bytes.length_zeros, Nat.min_self]
  refine ⟨rfl, hreachable, hready, by decide +kernel, by decide +kernel, block, hblock, back, ?_⟩
  have hcarried : ∀ timeout, Carried spaciousSettings (atProxy spaciousSettings).link.link block _
      (Link.write ((atProxy spaciousSettings).codec.layout block) timeout
        (atProxy spaciousSettings).link.link).1 :=
    write_carried hreachable.housed.equipped.epilogue _ block
  have hrefused := (hcarried (1 * Time.second)).refused.mpr (by rw [hlength]; decide)
  rw [← hevents, Step.opening, hsettings, List.append_assoc]
  exact congrArg (fun outcome => _ ++ Event.write _ (1 * Time.second) outcome :: back) hrefused

end Session

end SecureElement
