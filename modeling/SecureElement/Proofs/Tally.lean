import SecureElement.Proofs.Reply
import SecureElement.Proofs.Response
import SecureElement.Proofs.Retries

/-!
# The tries of a read

A read asks for a block that did not come, or that came damaged, by refusing what came in
its place, or by sending the command once more. How often it does so before it gives up is
limited for every block by itself, and the limit starts over with each that is accepted.

The `Tally` is this account, kept by someone who sees only what passes: which number is
awaited, and how often it was asked for. An accepted block is one with the number that is
awaited. That the account never exceeds the budget of tries is an induction over the
rounds of the read. What carries it is that every try has been charged, and that the
session keeps the number awaited and the count of charges where the tally keeps the
number and the count of tries (`Tally.Suits`).
-/

namespace SecureElement

open Link

/-- Whether a frame asks for the block that is awaited: it refuses what came in place of that, or it
is the command once more. -/
def isTry (frame : Bytes) : Bool :=
  match Control.ofByte? (frame.getD 1 0) with
  | some (.information _ _) => true
  | some (.ready _ receipt) => decide (receipt ≠ .clean)
  | _ => false

/-- The number of an information block. -/
def Control.number? : Control → Option Seq
  | .information seq _ => some seq
  | _ => none

/-- The number under which octets would be accepted. -/
def Codec.number? (c : Codec) (raw : Bytes) : Option Seq :=
  match c.decode raw with
  | .ok block => block.control.number?
  | .error _ => none

/-- Which block of a response is awaited, and how often it was asked for. -/
structure Tally where
  awaited : Seq
  tries : Nat

namespace Tally

/-- The account behind one more passage. -/
def pass (c : Codec) (t : Tally) : Passage → Tally
  | .received raw => if c.number? raw = some t.awaited then ⟨t.awaited.next, 0⟩ else t
  | .sent frame _ => if isTry frame then { t with tries := t.tries + 1 } else t
  | _ => t

/-- The account behind all of this. -/
def run (c : Codec) (t : Tally) (items : List Passage) : Tally := items.foldl (pass c) t

/-- At no point more tries were made than this. -/
def StaysWithin (c : Codec) (n : Nat) (t : Tally) (items : List Passage) : Prop :=
  ∀ front back, items = front ++ back → (t.run c front).tries ≤ n

variable {c : Codec} {n : Nat} {t : Tally} {front back items : List Passage} {x : Passage}

theorem run_append (c : Codec) (t : Tally) (front back : List Passage) :
    t.run c (front ++ back) = (t.run c front).run c back := List.foldl_append

theorem staysWithin_nil (h : t.tries ≤ n) : t.StaysWithin c n [] := by
  intro front back hsplit
  obtain ⟨rfl, -⟩ := List.append_eq_nil_iff.mp hsplit.symm
  exact h

theorem StaysWithin.append (hfront : t.StaysWithin c n front)
    (hback : (t.run c front).StaysWithin c n back) : t.StaysWithin c n (front ++ back) := by
  intro front' back' hsplit
  rcases List.append_eq_append_iff.mp hsplit with ⟨more, rfl, hrest⟩ | ⟨more, hrest, -⟩
  · rw [run_append]
    exact hback more back' hrest
  · exact hfront front' more hrest

theorem staysWithin_one (h : t.tries ≤ n) (hx : (t.pass c x).tries ≤ n) :
    t.StaysWithin c n [x] := by
  intro front back hsplit
  cases front with
  | nil => exact h
  | cons y front =>
      obtain ⟨rfl, hrest⟩ := List.cons.inj hsplit
      obtain ⟨rfl, -⟩ := List.append_eq_nil_iff.mp hrest.symm
      exact hx

/-- What says nothing of tries or of the block awaited changes nothing. -/
theorem run_quiet (h : ∀ x ∈ items, t.pass c x = t) : t.run c items = t := by
  induction items with
  | nil => rfl
  | cons x items ih =>
      have hrest := ih fun y hy => h y (List.mem_cons_of_mem x hy)
      show (t.pass c x).run c items = t
      rwa [h x (List.mem_cons_self ..)]

theorem staysWithin_quiet (h : ∀ x ∈ items, t.pass c x = t) (ht : t.tries ≤ n) :
    t.StaysWithin c n items := by
  rintro front back rfl
  rw [run_quiet fun x hx => h x (List.mem_append_left back hx)]
  exact ht

/-- A frame that goes out is one try at most. -/
theorem pass_sent (c : Codec) (t : Tally) (frame : Bytes) (outcome : Except Link.Fault Nat) :
    (t.pass c (.sent frame outcome)).awaited = t.awaited ∧
      (t.pass c (.sent frame outcome)).tries ≤ t.tries + 1 := by
  unfold pass
  dsimp only
  split
  · exact ⟨rfl, Nat.le_refl _⟩
  · exact ⟨rfl, Nat.le_succ _⟩

end Tally

variable {c : Codec} {t : Tally}

theorem isTry_layout (c : Codec) (block : Block) :
    isTry (c.layout block) =
      match block.control with
      | .information _ _ => true
      | .ready _ receipt => decide (receipt ≠ .clean)
      | .supervisory _ _ => false := by
  unfold isTry
  rw [Codec.layout_control, Control.ofByte?_toByte]
  cases block.control <;> rfl

/-- An acknowledgement asks for nothing that did not come. -/
theorem pass_acknowledgement (seq : Seq) (outcome : Except Link.Fault Nat) :
    t.pass c (.sent (c.layout (c.ready seq .clean)) outcome) = t := by
  have htry : isTry (c.layout (c.ready seq .clean)) = false := isTry_layout c _
  unfold Tally.pass
  dsimp only
  rw [htry]
  rfl

theorem Aside.pass {x : Passage} (h : Aside c x) (t : Tally) : t.pass c x = t := by
  have hunnumbered : ∀ {raw : Bytes}, c.number? raw = none → t.pass c (.received raw) = t := by
    intro raw hnone
    unfold Tally.pass
    dsimp only
    rw [hnone, if_neg nofun]
  cases h with
  | lost octets => rfl
  | unreadable hdecode =>
      refine hunnumbered ?_
      unfold Codec.number?
      rw [hdecode]
  | request hdecode hcontrol =>
      refine hunnumbered ?_
      unfold Codec.number?
      rw [hdecode]
      dsimp only
      rcases hcontrol with hcontrol | hcontrol
      · rw [hcontrol]
        rfl
      · rw [hcontrol]
        rfl
  | @answer frame outcome hanswer =>
      have htry : isTry frame = false := by
        cases hanswer with
        | extension multiplier => exact isTry_layout c _
        | fieldSize size => exact isTry_layout c _
      unfold Tally.pass
      dsimp only
      rw [htry]
      rfl

namespace Session

variable {L : Type} {s : Session (Traced L)}

/-- What came is the block that is awaited. -/
def isAwaited {L : Type} (s : Session L) : Except Setback Inbound → Bool
  | .ok inbound => decide (inbound.control.number? = some s.recvSeq)
  | .error _ => false

/-- The account at the start of a read. A block that was parked came before it. -/
def tally {L : Type} (s : Session L) : Tally where
  awaited := if s.parked.any s.isAwaited then s.recvSeq.next else s.recvSeq
  tries := 0

theorem isAwaited_iff {inbound : Inbound} :
    s.isAwaited (.ok inbound) = true ↔ ∃ more, inbound.control = .information s.recvSeq more := by
  unfold isAwaited Control.number?
  rw [decide_eq_true_iff]
  cases inbound.control with
  | information seq more =>
      refine ⟨fun h => ⟨more, ?_⟩, ?_⟩
      · rw [Option.some.inj h]
      · rintro ⟨more', h⟩
        exact congrArg some (Control.information.inj h).1
  | ready | supervisory => exact ⟨nofun, fun h => h.elim nofun⟩

end Session

/-- The account of someone who sees what passes is that of the session. -/
structure Tally.Suits {L : Type} (t : Tally) (s : Session L) : Prop where
  budget : s.WithinBudget
  awaited : t.awaited = if s.parked.any s.isAwaited then s.recvSeq.next else s.recvSeq
  tries : t.tries ≤ s.retries
  /-- Where a parked block is to be accepted, nothing was tried yet. -/
  parked : s.parked.any s.isAwaited = true → t.tries = 0

/-- The same behind the block that comes next, while the session has not dealt with it. -/
structure Tally.Meets {L : Type} (t : Tally) (received : Except Setback Inbound) (s : Session L) :
    Prop where
  budget : s.WithinBudget
  awaited : t.awaited = if s.isAwaited received then s.recvSeq.next else s.recvSeq
  tries : t.tries ≤ s.retries
  accepted : s.isAwaited received = true → t.tries = 0

namespace Step

open SecureElement.Action Session

variable {L : Type} {s : Session (Traced L)} {t : Tally}

/-- What a step does to the account, and that there is another round only if it still suits. -/
def Tallies (t : Tally) (s : Session (Traced L)) (r : Except (Stop Setback) (Unit ⊕ Unit))
    (s' : Session (Traced L)) : Prop :=
  ∃ items, Within s items s' ∧ t.StaysWithin s.codec s.settings.blockRetransmits items ∧
    ∀ u, r = .ok (.inl u) → (t.run s.codec items).Suits s'

/-- A step that is tried once hands its frame over, and may be charged for that. -/
theorem orCharge_counted [Link L] {step : Step (Traced L) Unit} {frame : Bytes}
    (hbudget : s.WithinBudget) (h : Ensures step s (HandedOver frame s)) :
    Ensures (orCharge step) s fun r s' =>
      ∃ outcome, Talks s [.sent frame outcome] s' ∧
        (r = .ok () → s.retries ≤ s'.retries ∧ s'.WithinBudget) := by
  unfold orCharge
  refine ensures_attempt_bind h ?_ ?_ ?_ ?_
  · rintro u s₁ ⟨⟨hretries, -⟩, outcome, htalks, -⟩
    exact ⟨outcome, htalks, fun _ => ⟨Nat.le_of_eq hretries.symm, hbudget.kept hretries htalks⟩⟩
  · rintro setback s₁ ⟨⟨hretries, -⟩, outcome, htalks, -⟩
    refine (charge_counted setback s₁).mono ?_
    rintro r s₂ ⟨hcharged, hcounts⟩
    refine ⟨outcome, htalks.trans hcharged, fun hr => ?_⟩
    obtain ⟨hless, hwithin⟩ := hcounts hr
    exact ⟨by omega, hwithin⟩
  · rintro s₁ ⟨-, outcome, -, hordinary⟩
    exact hordinary.elim
  · rintro s₁ ⟨-, outcome, htalks, -⟩
    exact ⟨outcome, htalks, nofun⟩

/-- Nothing is parked any more, so the account suits if the numbers agree. -/
theorem suits_of_none {s' : Session (Traced L)} (hparked : s'.parked = none)
    (hbudget : s'.WithinBudget) (hawaited : t.awaited = s'.recvSeq)
    (htries : t.tries ≤ s'.retries) : t.Suits s' where
  budget := hbudget
  awaited := by
    rw [hparked]
    exact hawaited
  tries := htries
  parked := by
    rw [hparked]
    exact nofun

variable [Link L]

/-- What is not the block awaited is charged before anything is asked for. -/
theorem refuse_tallies {received : Except Setback Inbound} (h : t.Meets received s)
    (hparked : s.parked = none) (hnot : s.isAwaited received = false) :
    Ensures (dealWith received) s (Tallies t s) := by
  have hawaited : t.awaited = s.recvSeq := by
    have hsame := h.awaited
    rwa [hnot, if_neg Bool.false_ne_true] at hsame
  have hbudget := h.budget
  have htries := h.tries
  unfold WithinBudget at hbudget
  have hother : ∀ inbound, received = .ok inbound →
      ∀ more, inbound.control ≠ .information s.recvSeq more := by
    rintro inbound rfl more hcontrol
    have hyes := isAwaited_iff.mpr ⟨more, hcontrol⟩
    exact Bool.false_ne_true (hnot.symm.trans hyes)
  rw [ensures_congr (dealWith_eq hother)]
  refine (charge_counted _ s).bind ?_ ?_
  · rintro u s₁ ⟨hcharged, hcounts⟩
    obtain ⟨hless, hwithin⟩ := hcounts rfl
    have hleft : s₁.retries ≤ s.settings.blockRetransmits := by
      rw [← hcharged.settings]
      exact hwithin
    -- one frame goes out, and a try has been charged for it
    have hone : ∀ {outcome : Except Fault Nat} {s₂ : Session (Traced L)}
        {r : Except (Stop Setback) (Unit ⊕ Unit)},
        Talks s₁ [.sent (s.reply (received.map Inbound.control)) outcome] s₂ →
        (∀ u, r = .ok (.inl u) → s₁.retries ≤ s₂.retries ∧ s₂.WithinBudget) →
        Tallies t s r s₂ := by
      intro outcome s₂ r htalks hkept
      have hall := hcharged.trans htalks
      obtain ⟨hnumber, hcount⟩ := t.pass_sent s.codec (s.reply (received.map Inbound.control))
        outcome
      refine ⟨_, hall.toWithin, Tally.staysWithin_one (by omega) (by omega), fun u hr => ?_⟩
      obtain ⟨hmore, hwithin'⟩ := hkept u hr
      refine suits_of_none (hall.parked.trans hparked) hwithin' ?_ ?_
      · exact hnumber.trans (hawaited.trans hall.recvSeq.symm)
      · exact Nat.le_trans hcount (by omega)
    refine Ensures.bind (orCharge_counted hwithin (transmit_spec _)) ?_ ?_
    · rintro u s₂ ⟨outcome, htalks, hkept⟩
      exact hone htalks fun _ _ => hkept rfl
    · rintro stop s₂ ⟨outcome, htalks, -⟩
      exact hone htalks nofun
  · rintro stop s₁ ⟨hcharged, -⟩
    exact ⟨[], hcharged.toWithin, Tally.staysWithin_nil (by omega), nofun⟩

/-- The block awaited gives back all tries, and its acknowledgement is none. -/
theorem accept_tallies {inbound : Inbound} (h : t.Meets (.ok inbound) s) (hparked : s.parked = none)
    (hyes : s.isAwaited (.ok inbound) = true) :
    Ensures (dealWith (.ok inbound)) s (Tallies t s) := by
  obtain ⟨more, hcontrol⟩ := isAwaited_iff.mp hyes
  have hawaited : t.awaited = s.recvSeq.next := by
    have hsame := h.awaited
    rwa [hyes, if_pos rfl] at hsame
  have hzero : t.tries = 0 := h.accepted hyes
  have hnothing : ∀ {r : Except (Stop Setback) (Unit ⊕ Unit)} {s' : Session (Traced L)},
      Within s [] s' → (∀ u, r ≠ .ok (.inl u)) → Tallies t s r s' := fun hwithin hr =>
    ⟨[], hwithin, Tally.staysWithin_nil (by omega), fun u hu => absurd hu (hr u)⟩
  rw [ensures_congr (dealWith_awaited hcontrol)]
  unfold accept
  rw [bind_assoc, ensures_get_bind]
  cases inbound.payload? s.frame.used with
  | none => exact hnothing (Within.refl s) nofun
  | some payload =>
      dsimp only
      cases s.response.append payload with
      | error overflow => exact hnothing (Within.refl s) nofun
      | ok response =>
          dsimp only
          rw [bind_assoc, ensures_set_bind]
          generalize haccepted : ({ s with
            response, recvSeq := s.recvSeq.next, commandPending := false, retries := 0 } :
              Session (Traced L)) = accepted
          have hbefore : Within s [] accepted := by
            rw [← haccepted]
            exact { Within.refl s with passes := hears_same rfl }
          have hnumber : accepted.recvSeq = s.recvSeq.next := by rw [← haccepted]
          have hnone : accepted.parked = none := by rw [← haccepted]; exact hparked
          have hfresh : accepted.WithinBudget := by rw [← haccepted]; exact Nat.zero_le _
          cases more with
          | false => exact hnothing hbefore nofun
          | true =>
              rw [if_neg (by decide), bind_assoc]
              have hframe : accepted.codec.layout (s.codec.ready s.recvSeq.next .clean)
                  = s.codec.layout (s.codec.ready s.recvSeq.next .clean) := by
                rw [hbefore.codec]
              have hone : ∀ {outcome : Except Fault Nat} {s₂ : Session (Traced L)}
                  {r : Except (Stop Setback) (Unit ⊕ Unit)},
                  Talks accepted
                    [.sent (accepted.codec.layout (s.codec.ready s.recvSeq.next .clean)) outcome]
                    s₂ → (∀ u, r = .ok (.inl u) → s₂.WithinBudget) → Tallies t s r s₂ := by
                intro outcome s₂ r htalks hkept
                have hquiet : ∀ x ∈ [Passage.sent
                    (accepted.codec.layout (s.codec.ready s.recvSeq.next .clean)) outcome],
                    t.pass s.codec x = t := by
                  rw [hframe]
                  exact List.forall_mem_singleton.mpr (pass_acknowledgement _ _)
                refine ⟨_, hbefore.trans htalks.toWithin, Tally.staysWithin_quiet hquiet
                  (by omega), fun u hr => ?_⟩
                rw [List.nil_append, Tally.run_quiet hquiet]
                refine suits_of_none (htalks.parked.trans hnone) (hkept u hr) ?_ (by omega)
                exact hawaited.trans (hnumber.symm.trans htalks.recvSeq.symm)
              refine Ensures.bind (orCharge_counted hfresh
                (sendControl_spec (Nat.zero_le 2) fun _ _ h => Control.noConfusion h)) ?_ ?_
              · rintro u s₂ ⟨outcome, htalks, hkept⟩
                exact hone htalks fun _ _ => (hkept rfl).2
              · rintro stop s₂ ⟨outcome, htalks, -⟩
                exact hone htalks nofun

theorem dealWith_tallies {received : Except Setback Inbound} (h : t.Meets received s)
    (hparked : s.parked = none) : Ensures (dealWith received) s (Tallies t s) := by
  cases hawaited : s.isAwaited received with
  | false => exact refuse_tallies h hparked hawaited
  | true =>
      cases received with
      | ok inbound => exact accept_tallies h hparked hawaited
      | error setback => exact absurd hawaited Bool.false_ne_true

/-- The account meets the next block, whether it was parked or comes now. -/
theorem nextBlock_meets (h : t.Suits s) (hcapacity : Block.longPrologue ≤ s.frame.capacity) :
    Ensures nextBlock s fun r s' =>
      ∃ items, Within s items s' ∧ t.StaysWithin s.codec s.settings.blockRetransmits items ∧
        ∀ received, r = .ok received → (t.run s.codec items).Meets received s' ∧
          s'.parked = none := by
  have hbudget := h.budget
  have htries := h.tries
  unfold WithinBudget at hbudget
  refine (nextBlock_spec hcapacity).mono ?_
  rintro r s₁ ⟨hretries, hnext⟩
  cases hparked : s.parked with
  | some parked =>
      rw [hparked] at hnext
      cases r with
      | error stop => exact hnext.elim
      | ok received =>
          obtain ⟨rfl, rfl⟩ := hnext
          refine ⟨[], { Within.refl s with passes := hears_same rfl },
            Tally.staysWithin_nil (by omega), fun received' hr => ⟨?_, rfl⟩⟩
          obtain rfl := Except.ok.inj hr
          have hany : s.parked.any s.isAwaited = s.isAwaited received := by rw [hparked]; rfl
          refine ⟨h.budget, ?_, htries, fun hyes => h.parked (hany.trans hyes)⟩
          have hawaited := h.awaited
          rwa [hany] at hawaited
  | none =>
      rw [hparked] at hnext
      have hawaited : t.awaited = s.recvSeq := by
        have hsame := h.awaited
        rw [hparked] at hsame
        exact hsame
      -- until the block comes nothing passes but asides
      have hquiet : ∀ {items : List Passage}, (∀ x ∈ items, Aside s.codec x) →
          t.run s.codec items = t ∧
            t.StaysWithin s.codec s.settings.blockRetransmits items := fun hasides =>
        ⟨Tally.run_quiet fun x hx => (hasides x hx).pass t,
          Tally.staysWithin_quiet (fun x hx => (hasides x hx).pass t) (by omega)⟩
      match r with
      | .ok (.ok inbound) =>
          obtain ⟨asides, raw, block, htalks, hasides, harrived⟩ := hnext
          obtain ⟨hrun, hstays⟩ := hquiet hasides
          have hnumber : s.codec.number? raw = inbound.control.number? := by
            unfold Codec.number?
            rw [harrived.decode, harrived.control]
          have hany : s₁.isAwaited (.ok inbound)
              = decide (s.codec.number? raw = some t.awaited) := by
            rw [hnumber, hawaited, ← htalks.recvSeq]
            rfl
          have hpass : t.pass s.codec (.received raw)
              = if s.codec.number? raw = some t.awaited then ⟨t.awaited.next, 0⟩ else t := rfl
          have hless : (t.pass s.codec (.received raw)).tries ≤ t.tries := by
            rw [hpass]
            split
            · exact Nat.zero_le _
            · exact Nat.le_refl _
          refine ⟨_, htalks.toWithin, hstays.append ?_, fun received hr => ⟨?_,
            htalks.parked.trans hparked⟩⟩
          · rw [hrun]
            exact Tally.staysWithin_one (by omega) (by omega)
          · obtain rfl := Except.ok.inj hr
            rw [Tally.run_append, hrun]
            show (t.pass s.codec (.received raw)).Meets _ _
            refine ⟨WithinBudget.kept h.budget hretries htalks, ?_, by omega, fun hyes => ?_⟩
            · rw [hany, hpass, htalks.recvSeq]
              split
              · rename_i hyes
                rw [if_pos (decide_eq_true hyes), hawaited]
              · rename_i hno
                rw [decide_eq_false hno, if_neg Bool.false_ne_true]
                exact hawaited
            · rw [hany, decide_eq_true_iff] at hyes
              rw [hpass, if_pos hyes]
      | .ok (.error setback) =>
          obtain ⟨-, items, htalks, hasides⟩ := hnext
          obtain ⟨hrun, hstays⟩ := hquiet hasides
          refine ⟨items, htalks.toWithin, hstays, fun received hr => ⟨?_,
            htalks.parked.trans hparked⟩⟩
          obtain rfl := Except.ok.inj hr
          rw [hrun]
          exact ⟨WithinBudget.kept h.budget hretries htalks, hawaited.trans htalks.recvSeq.symm,
            by omega, nofun⟩
      | .error stop =>
          obtain ⟨-, items, htalks, hasides⟩ := hnext
          exact ⟨items, htalks.toWithin, (hquiet hasides).2, nofun⟩

theorem receiveRound_tallies (h : t.Suits s) (hcapacity : Block.longPrologue ≤ s.frame.capacity) :
    Ensures (receiveRound ()) s (Tallies t s) := by
  unfold receiveRound
  refine (nextBlock_meets h hcapacity).bind ?_ ?_
  · rintro received s₁ ⟨front, hfront, hstays, hmeets⟩
    obtain ⟨hnext, hparked⟩ := hmeets received rfl
    refine (dealWith_tallies hnext hparked).mono ?_
    rintro r s₂ ⟨back, hback, hstays', hsuits⟩
    rw [hfront.codec] at hstays' hsuits
    rw [hfront.settings] at hstays'
    refine ⟨_, hfront.trans hback, hstays.append hstays', fun u hr => ?_⟩
    rw [Tally.run_append]
    exact hsuits u hr
  · rintro stop s₁ ⟨items, hwithin, hstays, -⟩
    exact ⟨items, hwithin, hstays, nofun⟩

/-- **Between two accepted blocks a read asks for the next one as often as there are tries.** -/
theorem receiveResponse_tallies (hfresh : s.retries = 0)
    (hcapacity : Block.longPrologue ≤ s.frame.capacity) :
    Ensures receiveResponse s fun _ s' =>
      ∃ items, Passes s items s' ∧
        s.tally.StaysWithin s.codec s.settings.blockRetransmits items := by
  unfold receiveResponse
  rw [ensures_modify_bind, ensures_get_bind]
  generalize hcleared : ({ s with response := s.response.clear } : Session (Traced L)) = cleared
  have hbefore : Within s [] cleared := by
    rw [← hcleared]
    exact { Within.refl s with passes := hears_same rfl }
  have hsuits : s.tally.Suits cleared := by
    rw [← hcleared]
    refine ⟨?_, rfl, Nat.zero_le _, fun _ => rfl⟩
    unfold WithinBudget
    dsimp only
    omega
  refine ensures_loop (I := fun _ s₁ => ∃ items, Within s items s₁ ∧
    s.tally.StaysWithin s.codec s.settings.blockRetransmits items ∧
      (s.tally.run s.codec items).Suits s₁) ?_ ?_ _ _ _
    ⟨[], hbefore, Tally.staysWithin_nil (Nat.zero_le _), hsuits⟩
  · rintro u s₁ ⟨front, hfront, hstays, hsuits⟩
    refine (receiveRound_tallies hsuits (hfront.holds hcapacity)).mono ?_
    rintro r s₂ ⟨back, hback, hstays', hsuits'⟩
    rw [hfront.codec] at hstays' hsuits'
    rw [hfront.settings] at hstays'
    have hall := hfront.trans hback
    match r with
    | .ok (.inl u) =>
        refine ⟨_, hall, hstays.append hstays', ?_⟩
        rw [Tally.run_append]
        exact hsuits' u rfl
    | .ok (.inr u) => exact ⟨_, hall.passes, hstays.append hstays'⟩
    | .error stop => exact ⟨_, hall.passes, hstays.append hstays'⟩
  · rintro u s₁ ⟨items, hwithin, hstays, -⟩
    exact ⟨items, hwithin.passes, hstays⟩

end Step

end SecureElement
