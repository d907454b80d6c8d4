import Mathlib.Data.List.Forall2
import Mathlib.Logic.Function.Iterate
import SecureElement.Proofs.Budget

/-!
# How a response is put together

`Collects` is the conversation in which a response is collected, as a grammar over
what passes: a block is accepted if it carries the number that is expected, it is
acknowledged at once if another is to follow, and everything else that comes is
passed over. The payloads of the accepted blocks, in order, are the response.

The grammar is about what passed and knows nothing of the session. That the session
keeps to it is `receiveResponse_spec`, an induction over the rounds of its loop:
a round is one of the three ways in which a word of the grammar begins.
-/

namespace SecureElement

open Link

/-- What may pass while the block with number `seq` is awaited. `pending` is the frame of the last
command block, as long as it may have to be sent again. -/
inductive Waits (c : Codec) (pending : Option Bytes) (seq : Seq) : Passage → Prop where
  /-- A wait ended without a block. -/
  | lost (octets : Bytes) : Waits c pending seq (.lost octets)
  /-- A block came that cannot be read, or that is not the one awaited. -/
  | passedOver {raw : Bytes} :
      (∀ block more, c.decode raw = .ok block → block.control ≠ .information seq more) →
      Waits c pending seq (.received raw)
  /-- The block awaited was asked for again. -/
  | refusal {receipt : Receipt} {outcome : Except Link.Fault Nat} : receipt ≠ .clean →
      Waits c pending seq (.sent (c.layout (c.ready seq receipt)) outcome)
  /-- A request of the peer was answered. -/
  | answer {frame : Bytes} {outcome : Except Link.Fault Nat} : IsAnswer c frame →
      Waits c pending seq (.sent frame outcome)
  /-- The last block of the command was sent again. -/
  | command {frame : Bytes} {outcome : Except Link.Fault Nat} : pending = some frame →
      Waits c pending seq (.sent frame outcome)

/-- The conversation that collects a response, from the point where the block with number `seq` is
awaited, and the blocks that are accepted in it. -/
inductive Collects (c : Codec) : Option Bytes → Seq → List Passage → List Block → Prop where
  /-- Something is passed over. -/
  | aside {pending : Option Bytes} {seq : Seq} {x : Passage} {items : List Passage}
      {blocks : List Block} : Waits c pending seq x → Collects c pending seq items blocks →
      Collects c pending seq (x :: items) blocks
  /-- A block is accepted that others follow, and it is acknowledged at once. -/
  | more {pending : Option Bytes} {seq : Seq} {raw : Bytes} {block : Block}
      {outcome : Except Link.Fault Nat} {items : List Passage} {blocks : List Block} :
      c.decode raw = .ok block → block.control = .information seq true →
      Collects c none seq.next items blocks →
      Collects c pending seq
        (.received raw :: .sent (c.layout (c.ready seq.next .clean)) outcome :: items)
        (block :: blocks)
  /-- The last block is accepted, and nothing comes behind it. -/
  | last {pending : Option Bytes} {seq : Seq} {raw : Bytes} {block : Block} :
      c.decode raw = .ok block → block.control = .information seq false →
      Collects c pending seq [.received raw] [block]

variable {c : Codec} {pending : Option Bytes} {seq : Seq}

theorem Collects.asides {items rest : List Passage} {blocks : List Block}
    (h : ∀ x ∈ items, Waits c pending seq x) (hrest : Collects c pending seq rest blocks) :
    Collects c pending seq (items ++ rest) blocks := by
  induction items with
  | nil => exact hrest
  | cons x items ih =>
      exact .aside (h x (List.mem_cons_self ..)) (ih fun y hy => h y (List.mem_cons_of_mem x hy))

theorem Aside.waits {x : Passage} (h : Aside c x) : Waits c pending seq x := by
  cases h with
  | lost octets => exact .lost octets
  | unreadable hfault =>
      refine .passedOver fun block more hok => ?_
      rw [hfault] at hok
      exact absurd hok (by simp)
  | request hdecode hcontrol =>
      refine .passedOver fun block more hok => ?_
      rw [hdecode] at hok
      obtain rfl := Except.ok.inj hok
      rcases hcontrol with h | h <;> rw [h] <;> exact Control.noConfusion
  | answer hanswer => exact .answer hanswer

theorem Collects.length_pos {items : List Passage} {blocks : List Block}
    (h : Collects c pending seq items blocks) : 0 < blocks.length := by
  induction h with
  | aside _ _ ih => exact ih
  | more => exact Nat.succ_pos _
  | last => exact Nat.succ_pos _

/-- The accepted blocks are numbered in turn, and all but the last announce another. -/
theorem Collects.control {items : List Passage} {blocks : List Block}
    (h : Collects c pending seq items blocks) :
    ∀ (i : Nat) (block : Block), blocks[i]? = some block →
      block.control = .information (Seq.next^[i] seq) (decide (i + 1 < blocks.length)) := by
  induction h with
  | aside _ _ ih => exact ih
  | more hdecode hcontrol hrest ih =>
      intro i block hi
      cases i with
      | zero =>
          obtain rfl := Option.some.inj hi
          have hlength := hrest.length_pos
          rw [hcontrol, List.length_cons, decide_eq_true (by omega)]
          rfl
      | succ i =>
          rw [ih i block hi, Function.iterate_succ_apply, List.length_cons]
          simp only [Nat.add_lt_add_iff_right]
  | last hdecode hcontrol =>
      intro i block hi
      cases i with
      | zero =>
          obtain rfl := Option.some.inj hi
          rw [hcontrol]
          rfl
      | succ i => exact absurd hi (by simp)

/-- Every accepted block is one of those that came, in the order in which they came, and the last
that came is accepted. -/
theorem Collects.decoded {items : List Passage} {blocks : List Block}
    (h : Collects c pending seq items blocks) :
    ∃ raws : List Bytes, raws.Sublist (items.filterMap Passage.raw?) ∧
      raws.getLast? = (items.filterMap Passage.raw?).getLast? ∧
      List.Forall₂ (fun raw block => c.decode raw = .ok block) raws blocks := by
  -- along the conversation: each clause of the grammar skips a block that came or takes it
  induction h with
  | @aside pending seq x items blocks _ hrest ih =>
      obtain ⟨raws, hsub, hlast, hdecoded⟩ := ih
      cases hraw : x.raw? with
      | none =>
          rw [List.filterMap_cons_none hraw]
          exact ⟨raws, hsub, hlast, hdecoded⟩
      | some raw =>
          rw [List.filterMap_cons_some hraw]
          -- the block is skipped, and it is not the last that came since others are accepted
          refine ⟨raws, hsub.cons raw, ?_, hdecoded⟩
          have hpos := hrest.length_pos
          rw [← hdecoded.length_eq] at hpos
          obtain ⟨last, hsome⟩ := List.getLast?_isSome.mpr (List.length_pos_iff.mp hpos) |>
            Option.isSome_iff_exists.mp
          rw [hsome] at hlast ⊢
          rw [List.getLast?_cons, ← hlast]
          rfl
  | @more pending seq raw block outcome items blocks hdecode _ hrest ih =>
      obtain ⟨raws, hsub, hlast, hdecoded⟩ := ih
      have hraws : (Passage.received raw :: .sent (c.layout (c.ready seq.next .clean)) outcome ::
          items).filterMap Passage.raw? = raw :: items.filterMap Passage.raw? := rfl
      rw [hraws]
      refine ⟨raw :: raws, hsub.cons_cons raw, ?_, .cons hdecode hdecoded⟩
      rw [List.getLast?_cons, List.getLast?_cons, hlast]
  | @last pending seq raw block hdecode _ =>
      exact ⟨[raw], List.Sublist.refl _, rfl, .cons hdecode .nil⟩

/-! ## One block -/

namespace Session

/-- The frame of the last command block, as long as it may have to be sent again. -/
def pendingCommand {L : Type} (s : Session L) : Option Bytes :=
  if s.commandPending then some s.command.used else none

/-- A payload was accepted: it is behind the response, and the next number is awaited. -/
structure Accepts {L : Type} (s : Session (Traced L)) (payload : Bytes) (items : List Passage)
    (s' : Session (Traced L)) : Prop extends Proceeds s items s' where
  sendSeq : s'.sendSeq = s.sendSeq
  recvSeq : s'.recvSeq = s.recvSeq.next
  response : s'.response.used = s.response.used ++ payload
  commandPending : s'.commandPending = false

theorem Talks.pendingCommand {L : Type} {s s' : Session (Traced L)} {items : List Passage}
    (h : Talks s items s') : s'.pendingCommand = s.pendingCommand := by
  unfold Session.pendingCommand
  rw [h.commandPending, h.command]

theorem Accepts.pendingCommand {L : Type} {s s' : Session (Traced L)} {payload : Bytes}
    {items : List Passage} (h : Accepts s payload items s') : s'.pendingCommand = none := by
  unfold Session.pendingCommand
  rw [h.commandPending]
  rfl

theorem Talks.accepts {L : Type} {s s₁ s₂ : Session (Traced L)} {items₁ items₂ : List Passage}
    {payload : Bytes} (h₁ : Talks s items₁ s₁) (h₂ : Accepts s₁ payload items₂ s₂) :
    Accepts s payload (items₁ ++ items₂) s₂ :=
  { h₁.toProceeds.trans h₂.toProceeds with
    sendSeq := h₂.sendSeq.trans h₁.sendSeq
    recvSeq := by rw [h₂.recvSeq, h₁.recvSeq]
    response := by rw [h₂.response, h₁.response]
    commandPending := h₂.commandPending }

end Session

namespace Step

open SecureElement.Action Session

variable {L : Type} {s : Session (Traced L)}

/-- The next block is the one that was parked, or the next to come. -/
theorem nextBlock_spec [Link L] (hcapacity : Block.longPrologue ≤ s.frame.capacity) :
    Ensures nextBlock s fun r s' =>
      s'.retries = s.retries ∧
      match s.parked, r with
      | some parked, .ok received => received = parked ∧ s' = { s with parked := none }
      | some _, .error _ => False
      | none, .ok (.ok inbound) => ∃ asides raw block, Talks s (asides ++ [.received raw]) s' ∧
          (∀ x ∈ asides, Aside s.codec x) ∧ Arrived s.codec s'.frame inbound raw block
      | none, .ok (.error setback) => setback.failure ≠ .recoveryExhausted ∧ Waited s s'
      | none, .error stop => stop = .stalled ∧ Waited s s' := by
  unfold nextBlock
  rw [ensures_get_bind, ensures_set_bind]
  cases hparked : s.parked with
  | some parked => exact ⟨rfl, rfl, rfl⟩
  | none =>
      -- taking out what was parked changes nothing here
      have hsame : { s with parked := none } = s := by rw [← hparked]
      dsimp only
      rw [hsame]
      refine ensures_attempt (awaitBlock_spec hcapacity) ?_ ?_ ?_ ?_
      · intro inbound s' hend
        obtain ⟨hretries, harrived⟩ := hend
        exact ⟨hretries, harrived⟩
      · intro setback s' hend
        obtain ⟨hretries, hordinary, hwaited⟩ := hend
        exact ⟨hretries, hordinary, hwaited⟩
      · intro s' hend
        obtain ⟨-, hordinary, -⟩ := hend
        exact hordinary.elim
      · intro s' hend
        obtain ⟨hretries, -, hwaited⟩ := hend
        exact ⟨hretries, rfl, hwaited⟩

/-- How dealing with a block may fail: in order, or on a place in the frame that is not there, which
leaves the response as it was. -/
def Fails (received : Except Setback Inbound) (s : Session (Traced L)) (stop : Stop Setback)
    (s' : Session (Traced L)) : Prop :=
  (stop.IsOrderly s' ∨ ∃ inbound, received = .ok inbound ∧
      inbound.payload? s.frame.used = none ∧ stop = .crashed ∧ s'.response = s.response) ∧
    ∃ items, Proceeds s items s'

theorem Fails.of_talks {received : Except Setback Inbound} {stop : Stop Setback}
    {s' : Session (Traced L)} {items : List Passage} (horderly : stop.IsOrderly s')
    (htalks : Talks s items s') : Fails received s stop s' :=
  ⟨Or.inl horderly, items, htalks.toProceeds⟩

variable [Link L]

/-- A payload is put behind the response, and acknowledged if it is not the last. -/
theorem accept_spec (inbound : Inbound) (more : Bool) :
    Ensures (accept inbound more) s fun r s' =>
      match r with
      | .ok complete => s'.WithinBudget ∧ complete = !more ∧ s'.frame = s.frame ∧
          ∃ payload, inbound.payload? s.frame.used = some payload ∧
            if more then ∃ outcome, Accepts s payload
              [.sent (s.codec.layout (s.codec.ready s.recvSeq.next .clean)) outcome] s'
            else Accepts s payload [] s'
      | .error stop => Fails (.ok inbound) s stop s' := by
  unfold accept
  rw [ensures_get_bind]
  cases hpayload : inbound.payload? s.frame.used with
  | none =>
      dsimp only
      rw [ensures_crash]
      exact ⟨Or.inr ⟨inbound, rfl, hpayload, rfl, rfl⟩, [], (Talks.refl s).toProceeds⟩
  | some payload =>
  dsimp only
  cases happend : s.response.append payload with
  | error overflow => exact Fails.of_talks ⟨_, rfl, Failure.noConfusion⟩ (Talks.refl s)
  | ok response =>
      dsimp only
      rw [ensures_set_bind]
      have haccepts : Accepts s payload [] { s with
          response, recvSeq := s.recvSeq.next, commandPending := false, retries := 0 } :=
        { Talks.refl s with
          passes := hears_same rfl
          recvSeq := rfl
          response := Buffer.used_append happend
          commandPending := rfl }
      cases more with
      | false => exact ⟨Nat.zero_le _, rfl, rfl, payload, rfl, haccepts⟩
      | true =>
          -- the acknowledgement may fail to be handed over; the block is accepted all the same
          refine Ensures.bind (orCharge_spec (Nat.zero_le _)
            (sendControl_spec (Nat.zero_le 2) fun _ _ h => Control.noConfusion h)) ?_ ?_
          · intro u s' hend
            obtain ⟨⟨outcome, htalks, hframe⟩, horderly⟩ := hend
            refine ⟨horderly, rfl, hframe, payload, rfl, outcome, ?_⟩
            exact { haccepts.toProceeds.trans htalks.toProceeds with
              sendSeq := htalks.sendSeq
              recvSeq := htalks.recvSeq
              response := by rw [htalks.response]; exact haccepts.response
              commandPending := htalks.commandPending }
          · intro stop s' hend
            obtain ⟨⟨outcome, htalks, -⟩, horderly⟩ := hend
            exact ⟨Or.inl horderly, _, haccepts.toProceeds.trans htalks.toProceeds⟩

/-- What is refused is charged, and the block awaited is asked for again. -/
theorem reject_spec {setback : Setback} (receipt : Receipt)
    (hfailure : setback.failure ≠ .recoveryExhausted) (hbudget : s.WithinBudget) :
    Ensures (reject setback receipt) s fun r s' =>
      Orderly r s' ∧ ∃ items, Talks s items s' ∧ ∀ x ∈ items, ∃ outcome,
        x = .sent (s.codec.layout (s.codec.ready s.recvSeq receipt)) outcome := by
  refine (charge_spec hfailure hbudget).bind ?_ ?_
  · intro u s₁ hend
    obtain ⟨⟨hcharged, hframe⟩, horderly⟩ := hend
    refine (refuse_spec receipt horderly).mono ?_
    intro r s₂ hend
    obtain ⟨⟨outcome, htalks, hframe'⟩, horderly'⟩ := hend
    rw [hcharged.codec, hcharged.recvSeq] at htalks
    refine ⟨horderly', _, hcharged.trans htalks, fun x hx => ⟨outcome, ?_⟩⟩
    exact List.mem_singleton.mp hx
  · intro stop s₁ hend
    obtain ⟨⟨hcharged, -⟩, horderly⟩ := hend
    exact ⟨horderly, [], hcharged, List.forall_mem_nil _⟩

/-- **The ways in which one round may go on.** Something is passed over, or a block is accepted that
others follow, or the last one is. -/
def DealtWith (received : Except Setback Inbound) (s : Session (Traced L))
    (r : Except (Stop Setback) (Unit ⊕ Unit)) (s' : Session (Traced L)) : Prop :=
  match r with
  | .ok (.inl ()) => s'.WithinBudget ∧
      ((∃ items, Talks s items s' ∧
          (∀ x ∈ items, Waits s.codec s.pendingCommand s.recvSeq x) ∧
          ∀ inbound, received = .ok inbound →
            ∀ more, inbound.control ≠ .information s.recvSeq more) ∨
        ∃ inbound payload outcome, received = .ok inbound ∧
          inbound.control = .information s.recvSeq true ∧
          inbound.payload? s.frame.used = some payload ∧
          Accepts s payload
            [.sent (s.codec.layout (s.codec.ready s.recvSeq.next .clean)) outcome] s')
  | .ok (.inr ()) => s'.WithinBudget ∧ ∃ inbound payload, received = .ok inbound ∧
      inbound.control = .information s.recvSeq false ∧
      inbound.payload? s.frame.used = some payload ∧ Accepts s payload [] s'
  | .error stop => Fails received s stop s'

/-- Whatever is not the block awaited is charged and refused. -/
theorem reject_dealtWith {received : Except Setback Inbound} {setback : Setback} {receipt : Receipt}
    (hbudget : s.WithinBudget) (hfailure : setback.failure ≠ .recoveryExhausted)
    (hreceipt : receipt ≠ .clean) (hnot : ∀ inbound, received = .ok inbound →
      ∀ more, inbound.control ≠ .information s.recvSeq more) :
    Ensures (do reject setback receipt; return .inl ()) s (DealtWith received s) := by
  refine (reject_spec receipt hfailure hbudget).bind ?_ ?_
  · intro u s' hend
    obtain ⟨horderly, items, htalks, hitems⟩ := hend
    refine ⟨horderly, Or.inl ⟨items, htalks, fun x hx => ?_, hnot⟩⟩
    obtain ⟨outcome, rfl⟩ := hitems x hx
    exact .refusal hreceipt
  · intro stop s' hend
    obtain ⟨horderly, items, htalks, -⟩ := hend
    exact Fails.of_talks horderly htalks

theorem dealWith_spec {received : Except Setback Inbound} (hbudget : s.WithinBudget)
    (hfailure : ∀ setback, received = .error setback → setback.failure ≠ .recoveryExhausted) :
    Ensures (dealWith received) s (DealtWith received s) := by
  unfold dealWith
  cases received with
  | error setback =>
      dsimp only
      refine reject_dealtWith hbudget (hfailure setback rfl) ?_ nofun
      split <;> exact Receipt.noConfusion
  | ok inbound =>
      have hreject : (∀ more, inbound.control ≠ .information s.recvSeq more) →
          Ensures (do reject (.minor inbound.rejection) .otherwiseBad; return .inl ()) s
            (DealtWith (.ok inbound) s) := by
        intro hnot
        refine reject_dealtWith hbudget (inbound.rejection_ne) Receipt.noConfusion ?_
        intro inbound' hinbound
        obtain rfl := Except.ok.inj hinbound
        exact hnot
      dsimp only
      rw [ensures_get_bind]
      split
      · rename_i seq more hcontrol
        split
        · -- the block awaited
          rename_i hseq
          subst hseq
          refine Ensures.bind (accept_spec inbound more) ?_ ?_
          · intro complete s' hend
            obtain ⟨hwithin, rfl, hframe, payload, hpayload, haccepts⟩ := hend
            cases more with
            | false => exact ⟨hwithin, inbound, payload, rfl, hcontrol, hpayload, haccepts⟩
            | true =>
                obtain ⟨outcome, haccepts⟩ := haccepts
                exact ⟨hwithin, Or.inr
                  ⟨inbound, payload, outcome, rfl, hcontrol, hpayload, haccepts⟩⟩
          · intro stop s' hfails
            exact hfails
        · rename_i hseq
          -- a block of the chain, but out of turn
          refine hreject fun more' h => hseq ?_
          rw [hcontrol] at h
          exact (Control.information.inj h).1
      · rename_i seq receipt hcontrol
        split
        · -- the peer asks for the last block of the command again
          rename_i hagain
          have hnot : ∀ inbound', (.ok inbound : Except Setback Inbound) = .ok inbound' →
              ∀ more, inbound'.control ≠ .information s.recvSeq more := by
            intro inbound' hinbound more h
            obtain rfl := Except.ok.inj hinbound
            rw [hcontrol] at h
            exact Control.noConfusion h
          refine Ensures.bind (charge_spec Failure.noConfusion hbudget) ?_ ?_
          · intro u s₁ hend
            obtain ⟨⟨hcharged, -⟩, horderly⟩ := hend
            refine Ensures.bind (orCharge_spec horderly sendCommand_spec) ?_ ?_
            · intro u s₂ hend
              obtain ⟨⟨outcome, htalks, -⟩, horderly'⟩ := hend
              refine ⟨horderly', Or.inl ⟨_, hcharged.trans htalks, fun x hx => ?_, hnot⟩⟩
              rw [List.nil_append] at hx
              rw [List.mem_singleton.mp hx, hcharged.command]
              -- only a command that is still pending may be repeated in a conversation
              refine .command ?_
              unfold pendingCommand
              rw [if_pos hagain.1]
            · intro stop s₂ hend
              obtain ⟨⟨outcome, htalks, -⟩, horderly'⟩ := hend
              exact Fails.of_talks horderly' (hcharged.trans htalks)
          · intro stop s₁ hend
            obtain ⟨⟨hcharged, -⟩, horderly⟩ := hend
            exact Fails.of_talks horderly hcharged
        · refine hreject fun more' h => ?_
          rw [hcontrol] at h
          exact Control.noConfusion h
      · rename_i function response hcontrol
        refine hreject fun more' h => ?_
        rw [hcontrol] at h
        exact Control.noConfusion h

/-! ## The whole response -/

/-- What one round comes to when nothing was parked, as the conversation has it. -/
def RoundHeard (s : Session (Traced L)) (r : Except (Stop Setback) (Unit ⊕ Unit))
    (s' : Session (Traced L)) : Prop :=
  match r with
  | .ok (.inl ()) => s'.WithinBudget ∧
      ((∃ items, Talks s items s' ∧ ∀ x ∈ items, Waits s.codec s.pendingCommand s.recvSeq x) ∨
        ∃ asides raw block outcome, (∀ x ∈ asides, Aside s.codec x) ∧
          s.codec.decode raw = .ok block ∧ block.control = .information s.recvSeq true ∧
          Accepts s block.payload (asides ++ [.received raw,
            .sent (s.codec.layout (s.codec.ready s.recvSeq.next .clean)) outcome]) s')
  | .ok (.inr ()) => s'.WithinBudget ∧ ∃ asides raw block, (∀ x ∈ asides, Aside s.codec x) ∧
      s.codec.decode raw = .ok block ∧ block.control = .information s.recvSeq false ∧
      Accepts s block.payload (asides ++ [.received raw]) s'
  | .error stop => stop.IsOrderly s' ∧ ∃ items, Proceeds s items s'

omit [Link L] in
/-- The conversation behind a round that dealt with a block. -/
theorem DealtWith.heard_block {s₁ s' : Session (Traced L)} {asides : List Passage} {raw : Bytes}
    {block : Block} {inbound : Inbound} {r : Except (Stop Setback) (Unit ⊕ Unit)}
    (htalks : Talks s (asides ++ [.received raw]) s₁) (hasides : ∀ x ∈ asides, Aside s.codec x)
    (harrived : Arrived s.codec s₁.frame inbound raw block)
    (hdealt : DealtWith (.ok inbound) s₁ r s') : RoundHeard s r s' := by
  have hpayload := harrived.payload
  rw [← harrived.used] at hpayload
  match r with
  | .ok (.inl ()) =>
      obtain ⟨hwithin, ⟨items, htalks', hwaits, hnot⟩ |
        ⟨inbound', payload, outcome, hinbound, hcontrol, hpayload', haccepts⟩⟩ := hdealt
      · -- the block was not the one awaited, so it is one of those that are passed over
        refine ⟨hwithin, Or.inl ⟨_, htalks.trans htalks', fun x hx => ?_⟩⟩
        rw [htalks.codec, htalks.recvSeq, htalks.pendingCommand] at hwaits
        rcases List.mem_append.mp hx with hx | hx
        · rcases List.mem_append.mp hx with hx | hx
          · exact (hasides x hx).waits
          · rw [List.mem_singleton.mp hx]
            refine .passedOver fun block' more hdecode hcontrol => ?_
            rw [harrived.decode] at hdecode
            obtain rfl := Except.ok.inj hdecode
            refine hnot inbound rfl more ?_
            rw [harrived.control, hcontrol, htalks.recvSeq]
        · exact hwaits x hx
      · -- it was accepted, with the payload that the frame still holds
        obtain rfl := Except.ok.inj hinbound
        rw [hpayload] at hpayload'
        obtain rfl := Option.some.inj hpayload'
        have hall := htalks.accepts haccepts
        rw [htalks.codec, htalks.recvSeq, List.append_assoc] at hall
        rw [htalks.recvSeq] at hcontrol
        exact ⟨hwithin, Or.inr ⟨asides, raw, block, outcome, hasides, harrived.decode,
          harrived.control.symm.trans hcontrol, hall⟩⟩
  | .ok (.inr ()) =>
      obtain ⟨hwithin, inbound', payload, hinbound, hcontrol, hpayload', haccepts⟩ := hdealt
      obtain rfl := Except.ok.inj hinbound
      rw [hpayload] at hpayload'
      obtain rfl := Option.some.inj hpayload'
      have hall := htalks.accepts haccepts
      rw [List.append_nil] at hall
      rw [htalks.recvSeq] at hcontrol
      exact ⟨hwithin, asides, raw, block, hasides, harrived.decode,
        harrived.control.symm.trans hcontrol, hall⟩
  | .error stop =>
      obtain ⟨horderly | ⟨inbound', hinbound, hnone, -⟩, items, hproceeds⟩ := hdealt
      · exact ⟨horderly, _, htalks.toProceeds.trans hproceeds⟩
      · -- the frame still holds the block, so the place of its payload is there
        obtain rfl := Except.ok.inj hinbound
        rw [hpayload] at hnone
        exact absurd hnone (by simp)

omit [Link L] in
/-- The conversation behind a round that dealt with a fault. -/
theorem DealtWith.heard_fault {s₁ s' : Session (Traced L)} {items : List Passage}
    {setback : Setback} {r : Except (Stop Setback) (Unit ⊕ Unit)} (htalks : Talks s items s₁)
    (hasides : ∀ x ∈ items, Aside s.codec x) (hdealt : DealtWith (.error setback) s₁ r s') :
    RoundHeard s r s' := by
  match r with
  | .ok (.inl ()) =>
      obtain ⟨hwithin, ⟨items', htalks', hwaits, -⟩ | ⟨_, _, _, hinbound, -⟩⟩ := hdealt
      · refine ⟨hwithin, Or.inl ⟨_, htalks.trans htalks', fun x hx => ?_⟩⟩
        rw [htalks.codec, htalks.recvSeq, htalks.pendingCommand] at hwaits
        exact (List.mem_append.mp hx).elim (fun hx => (hasides x hx).waits) (hwaits x)
      · exact absurd hinbound (by simp)
  | .ok (.inr ()) =>
      obtain ⟨-, _, _, hinbound, -⟩ := hdealt
      exact absurd hinbound (by simp)
  | .error stop =>
      obtain ⟨horderly | ⟨_, hinbound, -⟩, items', hproceeds⟩ := hdealt
      · exact ⟨horderly, _, htalks.toProceeds.trans hproceeds⟩
      · exact absurd hinbound (by simp)

theorem receiveRound_spec (hcapacity : Block.longPrologue ≤ s.frame.capacity)
    (hparked : s.parked = none) (hbudget : s.WithinBudget) :
    Ensures (receiveRound ()) s (RoundHeard s) := by
  unfold receiveRound
  refine (nextBlock_spec hcapacity).bind ?_ ?_
  · intro received s₁ hend
    obtain ⟨hretries, hnext⟩ := hend
    rw [hparked] at hnext
    cases received with
    | ok inbound =>
        obtain ⟨asides, raw, block, htalks, hasides, harrived⟩ := hnext
        refine (dealWith_spec (hbudget.kept hretries htalks) fun _ h => absurd h (by simp)).mono ?_
        intro r s₂ hdealt
        exact hdealt.heard_block htalks hasides harrived
    | error setback =>
        obtain ⟨hfailure, items, htalks, hasides⟩ := hnext
        refine (dealWith_spec (hbudget.kept hretries htalks) ?_).mono ?_
        · intro setback' h
          obtain rfl := Except.error.inj h
          exact hfailure
        · intro r s₂ hdealt
          exact hdealt.heard_fault htalks hasides
  · intro stop s₁ hend
    obtain ⟨hretries, hnext⟩ := hend
    rw [hparked] at hnext
    obtain ⟨rfl, items, htalks, -⟩ := hnext
    exact ⟨trivial, items, htalks.toProceeds⟩

/-- What collecting a response comes to when nothing is parked. The payloads of the accepted blocks
are behind what was there before. -/
def Collected (s : Session (Traced L)) (r : Except (Stop Setback) Unit) (s' : Session (Traced L)) :
    Prop :=
  match r with
  | .ok () => ∃ items blocks, Proceeds s items s' ∧
      Collects s.codec s.pendingCommand s.recvSeq items blocks ∧
      s'.response.used = s.response.used ++ (blocks.map Block.payload).flatten ∧
      s'.recvSeq = Seq.next^[blocks.length] s.recvSeq ∧ s'.sendSeq = s.sendSeq
  | .error stop => stop.IsOrderly s' ∧ ∃ items, Proceeds s items s'

omit [Link L] in
theorem Collected.after_talks {s₁ s' : Session (Traced L)} {items : List Passage}
    {r : Except (Stop Setback) Unit} (htalks : Talks s items s₁)
    (hwaits : ∀ x ∈ items, Waits s.codec s.pendingCommand s.recvSeq x) (h : Collected s₁ r s') :
    Collected s r s' := by
  cases r with
  | ok u =>
      obtain ⟨items', blocks, hproceeds, hcollects, hresponse, hrecv, hsend⟩ := h
      rw [htalks.codec, htalks.pendingCommand, htalks.recvSeq] at hcollects
      rw [htalks.response] at hresponse
      rw [htalks.recvSeq] at hrecv
      exact ⟨_, blocks, htalks.toProceeds.trans hproceeds, hcollects.asides hwaits, hresponse,
        hrecv, hsend.trans htalks.sendSeq⟩
  | error stop =>
      obtain ⟨horderly, items', hproceeds⟩ := h
      exact ⟨horderly, _, htalks.toProceeds.trans hproceeds⟩

omit [Link L] in
theorem Collected.after_accepts {s₁ s' : Session (Traced L)} {asides : List Passage} {raw : Bytes}
    {block : Block} {outcome : Except Fault Nat} {r : Except (Stop Setback) Unit}
    (hasides : ∀ x ∈ asides, Aside s.codec x) (hdecode : s.codec.decode raw = .ok block)
    (hcontrol : block.control = .information s.recvSeq true)
    (haccepts : Accepts s block.payload (asides ++ [.received raw,
      .sent (s.codec.layout (s.codec.ready s.recvSeq.next .clean)) outcome]) s₁)
    (h : Collected s₁ r s') : Collected s r s' := by
  cases r with
  | ok u =>
      obtain ⟨items, blocks, hproceeds, hcollects, hresponse, hrecv, hsend⟩ := h
      rw [haccepts.codec, haccepts.recvSeq, haccepts.pendingCommand] at hcollects
      refine ⟨_, block :: blocks, haccepts.toProceeds.trans hproceeds, ?_, ?_, ?_, ?_⟩
      · rw [List.append_assoc]
        exact .asides (fun x hx => (hasides x hx).waits) (.more hdecode hcontrol hcollects)
      · rw [hresponse, haccepts.response, List.map_cons, List.flatten_cons, List.append_assoc]
      · rw [hrecv, haccepts.recvSeq, List.length_cons, Function.iterate_succ_apply]
      · exact hsend.trans haccepts.sendSeq
  | error stop =>
      obtain ⟨horderly, items, hproceeds⟩ := h
      exact ⟨horderly, _, haccepts.toProceeds.trans hproceeds⟩

/-- **The rounds collect a response, however many there are.** -/
theorem receiveRounds_spec :
    ∀ (n : Nat) (s : Session (Traced L)), Block.longPrologue ≤ s.frame.capacity →
      s.parked = none → s.WithinBudget → Ensures (loop receiveRound n ()) s (Collected s)
  | 0, s, _, _, _ => ⟨trivial, [], (Talks.refl s).toProceeds⟩
  | n + 1, s, hcapacity, hparked, hbudget => by
      refine (receiveRound_spec hcapacity hparked hbudget).bind ?_ ?_
      · intro r s₁ hround
        match r with
        -- another round: what is collected behind it is put behind what this one did
        | .inl () =>
            obtain ⟨hwithin, ⟨items, htalks, hwaits⟩ |
              ⟨asides, raw, block, outcome, hasides, hdecode, hcontrol, haccepts⟩⟩ := hround
            · refine (receiveRounds_spec n s₁ (htalks.holds hcapacity)
                (htalks.parked.trans hparked) hwithin).mono ?_
              intro r s' h
              exact h.after_talks htalks hwaits
            · refine (receiveRounds_spec n s₁ (haccepts.holds hcapacity)
                (haccepts.parked.trans hparked) hwithin).mono ?_
              intro r s' h
              exact h.after_accepts hasides hdecode hcontrol haccepts
        | .inr () =>
            obtain ⟨-, asides, raw, block, hasides, hdecode, hcontrol, haccepts⟩ := hround
            refine ⟨_, [block], haccepts.toProceeds, ?_, ?_, haccepts.recvSeq, haccepts.sendSeq⟩
            · exact .asides (fun x hx => (hasides x hx).waits) (.last hdecode hcontrol)
            · rw [haccepts.response]
              simp
      · intro stop s₁ hround
        exact ⟨hround.1, hround.2⟩

/-- The response is what the accepted blocks carry, and nothing else. -/
theorem receiveResponse_spec (hcapacity : Block.longPrologue ≤ s.frame.capacity)
    (hparked : s.parked = none) (hbudget : s.WithinBudget) :
    Ensures receiveResponse s fun r s' =>
      match r with
      | .ok () => ∃ items blocks, Proceeds s items s' ∧
          Collects s.codec s.pendingCommand s.recvSeq items blocks ∧
          s'.response.used = (blocks.map Block.payload).flatten ∧
          s'.recvSeq = Seq.next^[blocks.length] s.recvSeq ∧ s'.sendSeq = s.sendSeq
      | .error stop => stop.IsOrderly s' ∧ ∃ items, Proceeds s items s' := by
  unfold receiveResponse
  rw [ensures_modify_bind, ensures_get_bind]
  refine (receiveRounds_spec _ { s with response := s.response.clear } hcapacity hparked
    hbudget).mono ?_
  intro r s' h
  cases r with
  | ok u =>
      obtain ⟨items, blocks, hproceeds, hcollects, hresponse, hseq⟩ := h
      dsimp only at hresponse
      rw [Buffer.used_clear, List.nil_append] at hresponse
      exact ⟨items, blocks, { hproceeds with }, hcollects, hresponse, hseq⟩
  | error stop =>
      obtain ⟨horderly, items, hproceeds⟩ := h
      exact ⟨horderly, items, { hproceeds with }⟩

/-! ## A response that starts with a parked block -/

/-- What collecting a response comes to when something was parked. The parked block is accepted if
it is the one awaited, with whatever the frame holds in its place; otherwise it is passed over. -/
def Resumed (received : Except Setback Inbound) (s : Session (Traced L))
    (r : Except (Stop Setback) Unit) (s' : Session (Traced L)) : Prop :=
  match r with
  | .ok () => ∃ items blocks, Proceeds { s with parked := none } items s' ∧
      s'.sendSeq = s.sendSeq ∧
      ((∃ inbound payload more, received = .ok inbound ∧
          inbound.control = .information s.recvSeq more ∧
          inbound.payload? s.frame.used = some payload ∧
          s'.response.used = payload ++ (blocks.map Block.payload).flatten ∧
          s'.recvSeq = Seq.next^[blocks.length + 1] s.recvSeq ∧
          if more then ∃ outcome rest,
              items = .sent (s.codec.layout (s.codec.ready s.recvSeq.next .clean)) outcome :: rest ∧
              Collects s.codec none s.recvSeq.next rest blocks
            else items = [] ∧ blocks = []) ∨
        ((∀ inbound, received = .ok inbound → ∀ more,
            inbound.control ≠ .information s.recvSeq more) ∧
          Collects s.codec s.pendingCommand s.recvSeq items blocks ∧
          s'.response.used = (blocks.map Block.payload).flatten ∧
          s'.recvSeq = Seq.next^[blocks.length] s.recvSeq))
  | .error stop => Fails received { s with parked := none, response := s.response.clear } stop s'

omit [Link L] in
/-- Whatever it comes to, nothing is parked any more. -/
theorem Resumed.proceeds {received : Except Setback Inbound} {r : Except (Stop Setback) Unit}
    {s' : Session (Traced L)} (h : Resumed received s r s') :
    ∃ items, Proceeds { s with parked := none } items s' := by
  cases r with
  | ok u =>
      obtain ⟨items, blocks, hproceeds, -⟩ := h
      exact ⟨items, hproceeds⟩
  | error stop =>
      obtain ⟨-, items, hproceeds⟩ := h
      exact ⟨items, { hproceeds with }⟩

/-- The first round deals with what was parked, and the link is not asked. -/
theorem receiveRound_parked {received : Except Setback Inbound} (hparked : s.parked = some received)
    (hcapacity : Block.longPrologue ≤ s.frame.capacity) (hbudget : s.WithinBudget)
    (hfailure : ∀ setback, received = .error setback → setback.failure ≠ .recoveryExhausted) :
    Ensures (receiveRound ()) s (DealtWith received { s with parked := none }) := by
  unfold receiveRound
  refine (nextBlock_spec hcapacity).bind ?_ ?_
  · intro received' s₁ hend
    obtain ⟨-, hnext⟩ := hend
    rw [hparked] at hnext
    obtain ⟨rfl, rfl⟩ := hnext
    exact dealWith_spec hbudget hfailure
  · intro stop s₁ hend
    obtain ⟨-, hnext⟩ := hend
    rw [hparked] at hnext
    exact hnext.elim

/-- What was parked comes first, and the rest of the response is collected behind it. -/
theorem receiveResponse_parked_spec {received : Except Setback Inbound}
    (hparked : s.parked = some received) (hcapacity : Block.longPrologue ≤ s.frame.capacity)
    (hbudget : s.WithinBudget)
    (hfailure : ∀ setback, received = .error setback → setback.failure ≠ .recoveryExhausted) :
    Ensures receiveResponse s (Resumed received s) := by
  unfold receiveResponse
  rw [ensures_modify_bind, ensures_get_bind]
  dsimp only
  -- there is at least one round, which is the one that finds the parked block
  obtain ⟨rounds, hrounds⟩ : ∃ rounds,
      (backlog s.link + 2) * (s.settings.blockRetransmits + 1) = rounds + 1 :=
    Nat.exists_eq_succ_of_ne_zero (Nat.mul_ne_zero (Nat.succ_ne_zero _) (Nat.succ_ne_zero _))
  rw [hrounds]
  refine (receiveRound_parked (s := { s with response := s.response.clear }) hparked hcapacity
    hbudget hfailure).bind ?_ ?_
  · intro first s₁ hdealt
    have hempty : s.response.clear.used = [] := Buffer.used_clear s.response
    match first with
    | .inl () =>
        obtain ⟨hwithin, ⟨items, htalks, hwaits, hnot⟩ |
          ⟨inbound, payload, outcome, rfl, hcontrol, hpayload, haccepts⟩⟩ := hdealt
        · -- it was passed over
          refine (receiveRounds_spec rounds s₁ (htalks.holds hcapacity) htalks.parked
            hwithin).mono ?_
          intro r s' h
          cases r with
          | ok u =>
              obtain ⟨items', blocks, hproceeds, hcollects, hresponse, hrecv, hsend⟩ :=
                h.after_talks htalks hwaits
              dsimp only at hresponse
              rw [hempty, List.nil_append] at hresponse
              exact ⟨items', blocks, { hproceeds with }, hsend,
                Or.inr ⟨hnot, hcollects, hresponse, hrecv⟩⟩
          | error stop =>
              obtain ⟨horderly, items', hproceeds⟩ := h
              exact ⟨Or.inl horderly, _, { htalks.toProceeds.trans hproceeds with }⟩
        · -- it was accepted, and others follow
          refine (receiveRounds_spec rounds s₁ (haccepts.holds hcapacity) haccepts.parked
            hwithin).mono ?_
          intro r s' h
          cases r with
          | ok u =>
              obtain ⟨items', blocks, hproceeds, hcollects, hresponse, hrecv, hsend⟩ := h
              rw [haccepts.codec, haccepts.recvSeq, haccepts.pendingCommand] at hcollects
              rw [haccepts.response, hempty, List.nil_append] at hresponse
              rw [haccepts.recvSeq] at hrecv
              exact ⟨_, blocks, { haccepts.toProceeds.trans hproceeds with },
                hsend.trans haccepts.sendSeq, Or.inl ⟨inbound, payload, true, rfl, hcontrol,
                  hpayload, hresponse, hrecv, outcome, items', rfl, hcollects⟩⟩
          | error stop =>
              obtain ⟨horderly, items', hproceeds⟩ := h
              exact ⟨Or.inl horderly, _, { haccepts.toProceeds.trans hproceeds with }⟩
    | .inr () =>
        obtain ⟨-, inbound, payload, rfl, hcontrol, hpayload, haccepts⟩ := hdealt
        have hresponse := haccepts.response
        dsimp only at hresponse
        rw [hempty, List.nil_append] at hresponse
        refine ⟨[], [], { haccepts.toProceeds with }, haccepts.sendSeq, Or.inl ⟨inbound, payload,
          false, rfl, hcontrol, hpayload, ?_, haccepts.recvSeq, rfl, rfl⟩⟩
        rw [hresponse, List.map_nil, List.flatten_nil, List.append_nil]
  · intro stop s₁ hfails
    obtain ⟨hhow, items, hproceeds⟩ := hfails
    exact ⟨hhow, items, { hproceeds with }⟩

end Step

end SecureElement
