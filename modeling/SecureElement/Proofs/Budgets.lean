import SecureElement.Proofs.Exhaustion

/-!
# The budgets of a session

Two settings limit how often a session repeats itself: how often one block or request may
be tried again, and how many attempts a recovery has. The first of the two is counted by a
single counter, which is set back in several places and charged in many.

`tries_bounded` says what the settings are worth for each call that runs an exchange
(`KeepsTries`), for the recovery behind it and for the handshake that opens a session. It
says too that no smaller number would do: over a link that takes nothing, sending a
command uses up all of both budgets.
-/

namespace SecureElement

namespace Session

open Link SecureElement.Action

variable {L : Type} [Link L] {settings : Settings} {s : Session (Traced L)}

omit [Link L] in
/-- What passed in the exchange of a call keeps to the budget of tries. -/
def KeepsTries (s : Session (Traced L)) : Request → List Passage → Prop
  | .send command, items => Step.Copied s (s.commandBlocks command) items
  | .receive, items => s.tally.StaysWithin s.codec s.settings.blockRetransmits items
  | .resync, items =>
      handovers (s.codec.request .resync) items ≤ s.settings.blockRetransmits + 1
  | .softReset, items =>
      handovers (s.codec.request .softReset) items ≤ s.settings.blockRetransmits + 1
  | .endApduSession, items =>
      handovers (s.codec.request .endApduSession) items ≤ s.settings.blockRetransmits + 1
  | _, _ => True

/-- **Every exchange keeps to the budget of tries.** -/
theorem exchange_keepsTries (request : Request) {exchange : Step (Traced L) Unit}
    (hexchange : request.exchange? = some exchange) (h : Sound settings s) :
    Ensures exchange s.begun fun _ s₁ =>
      ∃ items, Passes s.begun items s₁ ∧ s.KeepsTries request items := by
  have hcapacity : Block.longPrologue ≤ s.begun.frame.capacity := h.capacity
  cases request with
  | send command =>
      obtain rfl := Option.some.inj hexchange
      exact Step.sendChain_copies command hcapacity
  | receive =>
      obtain rfl := Option.some.inj hexchange
      exact Step.receiveResponse_tallies rfl hcapacity
  | prefetch =>
      have hexchanged := exchange_exchanged (s := s.begun) hexchange hcapacity (Nat.zero_le _)
        h.parkedOrdinary
      refine hexchanged.mono ?_
      intro r s₁ hend
      cases r with
      | ok u =>
          obtain ⟨-, items, hpasses, -⟩ := hend
          exact ⟨items, hpasses, trivial⟩
      | error stop =>
          obtain ⟨-, ⟨items, hwithin⟩, -⟩ := hend
          exact ⟨items, hwithin.passes, trivial⟩
  | resync =>
      obtain rfl := Option.some.inj hexchange
      unfold Step.resynchronise
      refine (Step.supervise_counted .resync hcapacity).bind_kept ?_
      intro inbound s₁ hend
      obtain ⟨items, hpasses, hcount⟩ := hend
      rw [ensures_count_bind]
      exact ⟨items, hpasses.congr rfl, hcount⟩
  | softReset =>
      obtain rfl := Option.some.inj hexchange
      unfold Step.renewInterface
      rw [ensures_modify_bind]
      refine (Step.resetInterface_counted (s := { s.begun.resetExchange with
        commandPending := false }) hcapacity).bind_kept ?_
      intro u s₁ hend
      obtain ⟨items, hpasses, hcount⟩ := hend
      exact ⟨items, hpasses.congr rfl, hcount⟩
  | endApduSession =>
      obtain rfl := Option.some.inj hexchange
      unfold Step.endApplication
      exact (Step.supervise_counted .endApduSession hcapacity).bind_kept fun _ _ hend => hend
  | establish | close | transceive _ | reset | dropResponse => exact absurd hexchange nofun

/-- **The budgets bound what a session repeats, and they are used up by a link that takes nothing.**
The handshake hands over its request as often as there are tries, and once more. So does every
other supervisory exchange, and every command each of its blocks; a read asks for a block as often
as there are tries. What passes behind the exchange of a call is recovery and nothing else, with as
many requests as it has attempts at most. If nothing can be handed over any more, a command costs
exactly all of that, and the session is given up. -/
theorem tries_bounded (h : Reachable settings s)
    (hcount : settings.blockRetransmits < counterMax) :
    (∃ items, Passes s items (establish.final s) ∧
      handovers (settings.codec.request settings.handshake.function) items
        ≤ settings.blockRetransmits + 1) ∧
    (s.status.isReady = true →
      (∀ (request : Request) (exchange : Step (Traced L) Unit),
        request.exchange? = some exchange → ∃ items back,
          Passes s items (exchange.final s.begun) ∧
          Passes s (items ++ back) ((run exchange).final s) ∧ s.KeepsTries request items ∧
          (∀ x ∈ back, Recovers s.codec x) ∧
          handovers (s.codec.request .resync) back ≤ settings.resyncAttempts) ∧
      ∀ (P : L → Prop) (command : Bytes), Unwritable P → P s.link.link →
        ∃ first sent s', (s.commandBlocks command).head? = some first ∧
          send command s = .error (.because .recoveryExhausted) s' ∧ s'.status = .closed ∧
          Passes s (sent ++ [.released]) s' ∧
          AllSent (List.replicate (settings.blockRetransmits + 1) (s.codec.layout first)
            ++ List.replicate settings.resyncAttempts (s.codec.request .resync)) sent) := by
  have hhoused := h.housed
  have hsettings : s.settings = settings := hhoused.sound.settings
  refine ⟨(establish_counted hhoused).final, fun hready => ⟨?_, ?_⟩⟩
  · intro request exchange hexchange
    have hruns := exchange_keepsTries request hexchange hhoused.sound
    obtain ⟨items, back, hpasses, hall, hkeeps, hrecovers, hback⟩ :=
      (run_counted request hexchange hhoused.sound hready hruns).final
    rw [hsettings] at hback
    exact ⟨items, back, hpasses, hall, hkeeps, hrecovers, hback⟩
  · intro P command hunwritable hlink
    rw [← hsettings] at hcount ⊢
    obtain ⟨first, hfirst, hexhausts⟩ :=
      send_exhausts command hhoused hready hcount hunwritable hlink
    have hresult : (send command).result s = .error (.because .recoveryExhausted) :=
      (hexhausts.mono fun _ _ hend => hend.1).result
    obtain ⟨hclosed, sent, hsent, hall⟩ := (hexhausts.mono fun _ _ hend => hend.2).final
    exact ⟨first, sent, _, hfirst, eq_error_of_result hresult, hclosed, hsent, hall⟩

end Session

/-- A link that can be cut. From then on the other side takes nothing any more. -/
structure Link.Cut (L : Type) where
  link : L
  cut : Bool := false

namespace Link.Cut

variable {L : Type} [Link L]

instance : Link (Cut L) where
  bringUp c :=
    let (outcome, link) := bringUp c.link
    (outcome, { c with link })
  write bytes timeout c :=
    if c.cut then (.error .notAcknowledged, c)
    else
      let (outcome, link) := write bytes timeout c.link
      (outcome, { c with link })
  read n timeout c :=
    let (outcome, link) := read n timeout c.link
    (outcome, { c with link })
  release c := { c with link := release c.link }
  now c := now c.link
  backlog c := backlog c.link

theorem unwritable : Link.Unwritable fun c : Cut L => c.cut = true where
  write := by
    intro bytes timeout c hcut
    have hwrite : Link.write bytes timeout c = (.error .notAcknowledged, c) := if_pos hcut
    rw [hwrite]
    exact ⟨hcut, .notAcknowledged, nofun, rfl⟩

end Link.Cut

namespace Session

open Link SecureElement.Action

/-- A closed session over a link on which the answer to the handshake arrives. -/
def connecting : Session (Traced (Cut Rehearsal)) :=
  let answer := { outcome := .ok { bytes := [0xA5, 0xE0, 0, 0x45], chunk := none } : Reading }
  create { link := { link := { readings := [answer] } } } rehearsalSettings

/-- The same session once it is open, when its link has been cut. -/
def severed : Session (Traced (Cut Rehearsal)) :=
  { (perform .establish).final connecting with
    link := { link := { link := {}, cut := true } } }

theorem tries_bounded_severed :
    Reachable rehearsalSettings severed ∧ severed.status.isReady = true ∧
      ∃ first sent s', (severed.commandBlocks [0, 0xA4]).head? = some first ∧
        send [0, 0xA4] severed = .error (.because .recoveryExhausted) s' ∧ s'.status = .closed ∧
        Passes severed (sent ++ [.released]) s' ∧
        AllSent (List.replicate 4 (severed.codec.layout first)
          ++ List.replicate 3 (severed.codec.request .resync)) sent := by
  have hnew : new connecting.link rehearsalSettings = .ok connecting := rfl
  have hreachable : Reachable rehearsalSettings severed :=
    .touched _ (.called .establish (.created hnew))
  have hready : severed.status.isReady = true := by decide +kernel
  obtain ⟨-, hopen⟩ := tries_bounded hreachable (by decide)
  obtain ⟨-, hexhausts⟩ := hopen hready
  exact ⟨hreachable, hready, hexhausts _ [0, 0xA4] Cut.unwritable rfl⟩

end Session

end SecureElement
