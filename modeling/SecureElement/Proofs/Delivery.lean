import Mathlib.Logic.Function.Iterate
import SecureElement.Proofs.Asking

/-!
# How a command is delivered

`Delivers` is the conversation in which the blocks of a command are sent, as a
grammar over what passes: a block is sent until it is acknowledged, and only then the
next one is. The last block is sent until the link takes it. Copies of a block are
octet for octet the same, so none is renumbered on the way.

`Begins` is the same conversation broken off at any point: the blocks that were sent
are the first ones, in order. `sendChain_spec` says that sending a command is one or
the other. It is an induction over the blocks; what carries it is that the number of
the next block of the chain is the number that the session would send next.
-/

namespace SecureElement

open Link

namespace Chain

/-! ## Blocks still to come -/

theorem blocks_of_done {c : Chain} (h : c.done = true) : c.blocks = [] := by
  rw [blocks_eq, remaining, if_pos h, upTo]

theorem exists_next {c : Chain} (h : c.done = false) :
    ∃ block rest, c.next? = some (block, rest) := by
  unfold next?
  rw [if_neg (by rw [h]; exact Bool.false_ne_true)]
  exact ⟨_, _, rfl⟩

/-- Each block that is made is one less to come. -/
theorem remaining_next {c rest : Chain} {block : Block} (h : c.next? = some (block, rest)) :
    c.remaining = rest.remaining + 1 := by
  unfold next? at h
  split at h
  · exact absurd h (by simp)
  · rename_i hdone
    obtain ⟨-, rfl⟩ := Prod.mk.inj (Option.some.inj h)
    have hpos := c.codec.maxPayload_pos
    unfold remaining
    rw [if_neg hdone]
    dsimp only
    generalize c.codec.maxPayload = m at hpos
    rcases Nat.lt_or_ge m c.rest.length with hmore | hlast
    · -- others follow: taking `m` octets off is one less in the quotient
      have hrest : (c.rest.drop m).isEmpty = false := by
        rw [List.isEmpty_eq_false_iff, ne_eq, List.drop_eq_nil_iff]
        omega
      have hstep : (c.rest.length + (m - 1)) / m = (c.rest.length - m + (m - 1)) / m + 1 := by
        rw [← Nat.add_div_right _ hpos]
        congr 1
        omega
      have hone : 1 ≤ (c.rest.length - m + (m - 1)) / m :=
        (Nat.one_le_div_iff hpos).mpr (by omega)
      rw [hrest, List.length_drop]
      simp only [Bool.not_false, Bool.not_true, Bool.false_eq_true, if_false]
      omega
    · -- this is the last one, and it may be empty
      have hrest : (c.rest.drop m).isEmpty = true := by
        rw [List.isEmpty_iff, List.drop_eq_nil_iff]
        exact hlast
      have hone : (c.rest.length + (m - 1)) / m ≤ 1 :=
        Nat.le_of_lt_succ ((Nat.div_lt_iff_lt_mul hpos).mpr (by omega))
      rw [hrest]
      simp only [Bool.not_true, Bool.not_false, if_true]
      omega

/-- The next block comes first, and the others are those behind it. -/
theorem blocks_next {c rest : Chain} {block : Block} (h : c.next? = some (block, rest)) :
    c.blocks = block :: rest.blocks := by
  rw [blocks_eq, blocks_eq, remaining_next h, upTo, h]

/-- A block that is made carries the number of its place, and says whether others follow. -/
theorem next?_eq_some {c rest : Chain} {block : Block} (h : c.next? = some (block, rest)) :
    block.control = .information c.seq (!rest.done) ∧ rest.seq = c.seq.next ∧
      rest.codec = c.codec := by
  unfold next? at h
  split at h
  · exact absurd h (by simp)
  · obtain ⟨rfl, rfl⟩ := Prod.mk.inj (Option.some.inj h)
    refine ⟨?_, rfl, rfl⟩
    dsimp only
    rw [Bool.not_not]
    rfl

theorem information_of_mem_upTo {block : Block} :
    ∀ (n : Nat) (c : Chain), block ∈ upTo n c → ∃ seq more, block.control = .information seq more
  | 0, _, h => absurd h List.not_mem_nil
  | n + 1, c, h => by
      unfold upTo at h
      split at h
      · exact absurd h List.not_mem_nil
      · rename_i first rest hnext
        rcases List.mem_cons.mp h with rfl | h
        · exact ⟨_, _, (next?_eq_some hnext).1⟩
        · exact information_of_mem_upTo n rest h

/-- Every block of a chain is an information block. -/
theorem information_of_mem_blocks {c : Chain} {block : Block} (h : block ∈ c.blocks) :
    ∃ seq more, block.control = .information seq more := by
  rw [blocks_eq] at h
  exact information_of_mem_upTo _ c h

end Chain

/-! ## The conversation -/

/-- The type of the block that acknowledges an information block without a fault. -/
def Block.receipt (block : Block) : Control :=
  match block.control with
  | .information seq _ => .ready seq.next .clean
  | other => other

/-- Nothing passed but copies of one frame, and the link took the last of them in full. -/
inductive Taken (frame : Bytes) : List Passage → Prop where
  | last : Taken frame [.sent frame (.ok frame.length)]
  | again {items : List Passage} (outcome : Except Link.Fault Nat) :
      Taken frame items → Taken frame (.sent frame outcome :: items)

/-- The conversation in which blocks are sent one after the other, each but the last acknowledged
before the next one is sent. -/
inductive Delivers (c : Codec) : List Block → List Passage → Prop where
  /-- The last block is sent until the link takes it. -/
  | last {block : Block} {items : List Passage} :
      Taken (c.layout block) items → Delivers c [block] items
  /-- Another block is sent until it is acknowledged, and the others behind that. -/
  | next {block : Block} {blocks : List Block} {front items : List Passage} :
      Answered c (c.layout block) block.receipt front → Delivers c blocks items →
      Delivers c (block :: blocks) (front ++ items)

/-- That conversation, broken off. -/
inductive Begins (c : Codec) : List Block → List Passage → Prop where
  /-- No block was acknowledged, and none but the first was sent. -/
  | first {block : Block} {blocks : List Block} {items : List Passage} :
      Tries c (c.layout block) block.receipt items → Begins c (block :: blocks) items
  /-- The first block was acknowledged, and the others were begun. -/
  | next {block : Block} {blocks : List Block} {front items : List Passage} :
      Answered c (c.layout block) block.receipt front → Begins c blocks items →
      Begins c (block :: blocks) (front ++ items)

/-! ## The record of a delivery -/

/-- Whether a frame is laid out as an information block. -/
def isInformation (frame : Bytes) : Bool :=
  match Control.ofByte? (frame.getD 1 0) with
  | some (.information _ _) => true
  | _ => false

/-- The information blocks that were handed over, repetitions included. -/
def informationFrames (items : List Passage) : List Bytes :=
  (items.filterMap Passage.frame?).filter isInformation

theorem informationFrames_append (front back : List Passage) :
    informationFrames (front ++ back) = informationFrames front ++ informationFrames back := by
  unfold informationFrames
  rw [List.filterMap_append, List.filter_append]

/-- Of a row of blocks, so many copies of each in turn. -/
def copiesOf (c : Codec) (counts : List Nat) (blocks : List Block) : List Bytes :=
  (List.zipWith (fun count block => List.replicate count (c.layout block)) counts blocks).flatten

variable {c : Codec} {block : Block} {blocks : List Block} {items : List Passage}

theorem isInformation_layout {seq : Seq} {more : Bool}
    (hcontrol : block.control = .information seq more) : isInformation (c.layout block) = true := by
  unfold isInformation
  rw [Codec.layout_control, Control.ofByte?_toByte, hcontrol]

theorem not_isInformation_layout
    (hcontrol : ∀ seq more, block.control ≠ .information seq more) :
    isInformation (c.layout block) = false := by
  unfold isInformation
  rw [Codec.layout_control, Control.ofByte?_toByte]
  split
  · rename_i seq more hsome
    exact absurd (Option.some.inj hsome) (hcontrol seq more)
  · rfl

theorem IsAnswer.not_isInformation {frame : Bytes} (h : IsAnswer c frame) :
    isInformation frame = false := by
  cases h with
  | extension multiplier => exact not_isInformation_layout fun _ _ => Control.noConfusion
  | fieldSize size => exact not_isInformation_layout fun _ _ => Control.noConfusion

theorem Aside.not_isInformation {x : Passage} {frame : Bytes} (h : Aside c x)
    (hframe : x.frame? = some frame) : isInformation frame = false := by
  cases h with
  | answer hanswer =>
      obtain rfl := Option.some.inj hframe
      exact hanswer.not_isInformation
  | lost | unreadable | request => exact absurd hframe nofun

theorem informationFrames_eq_nil
    (h : ∀ x ∈ items, ∀ frame, x.frame? = some frame → isInformation frame = false) :
    informationFrames items = [] := by
  unfold informationFrames
  rw [List.filter_eq_nil_iff]
  intro frame hframe
  obtain ⟨x, hx, hxframe⟩ := List.mem_filterMap.mp hframe
  rw [h x hx frame hxframe]
  exact Bool.false_ne_true

/-- While a block is tried, only copies of it are handed over besides answers. -/
theorem informationFrames_tried {frame : Bytes} {answer : Control}
    (hframe : isInformation frame = true) (h : ∀ x ∈ items, Tried c frame answer x) :
    ∃ count, informationFrames items = List.replicate count frame := by
  induction items with
  | nil => exact ⟨0, rfl⟩
  | cons x items ih =>
      obtain ⟨count, hcount⟩ := ih fun y hy => h y (List.mem_cons_of_mem x hy)
      have hsplit := informationFrames_append [x] items
      rw [List.singleton_append, hcount] at hsplit
      cases h x (List.mem_cons_self ..) with
      | copy outcome =>
          refine ⟨count + 1, hsplit.trans ?_⟩
          simp [informationFrames, Passage.frame?, hframe, List.replicate_succ]
      | aside haside =>
          refine ⟨count, hsplit.trans ?_⟩
          cases haside with
          | answer hanswer => simp [informationFrames, Passage.frame?, hanswer.not_isInformation]
          | lost | unreadable | request => rfl
      | other => exact ⟨count, hsplit⟩

theorem informationFrames_sent {frame : Bytes} (hframe : isInformation frame = true)
    (outcome : Except Link.Fault Nat) (items : List Passage) :
    informationFrames (.sent frame outcome :: items) = frame :: informationFrames items := by
  simp [informationFrames, Passage.frame?, hframe]

theorem Taken.informationFrames {frame : Bytes} (hframe : isInformation frame = true)
    (h : Taken frame items) :
    ∃ count, informationFrames items = List.replicate (count + 1) frame := by
  induction h with
  | last => exact ⟨0, informationFrames_sent hframe _ []⟩
  | again outcome _ ih =>
      obtain ⟨count, hcount⟩ := ih
      refine ⟨count + 1, ?_⟩
      rw [informationFrames_sent hframe, hcount]
      rfl

theorem Answered.informationFrames {frame : Bytes} {answer : Control}
    (hframe : isInformation frame = true) (h : Answered c frame answer items) :
    ∃ count, informationFrames items = List.replicate (count + 1) frame := by
  cases h with
  | intro outcome htried _ _ =>
      obtain ⟨count, hcount⟩ := informationFrames_tried hframe htried
      refine ⟨count, ?_⟩
      rw [informationFrames_sent hframe, informationFrames_append, hcount, List.replicate_succ]
      exact congrArg _ (List.append_nil _)

/-- The copies of an acknowledged block come before those of the blocks behind it. -/
theorem Answered.copiesOf {seq : Seq} {more : Bool} {answer : Control} {front : List Passage}
    {counts : List Nat} (hcontrol : block.control = .information seq more)
    (h : Answered c (c.layout block) answer front)
    (hframes : SecureElement.informationFrames items = copiesOf c counts blocks) :
    ∃ count, SecureElement.informationFrames (front ++ items) =
      copiesOf c ((count + 1) :: counts) (block :: blocks) := by
  obtain ⟨count, hcount⟩ := h.informationFrames (isInformation_layout hcontrol)
  refine ⟨count, ?_⟩
  rw [informationFrames_append, hcount, hframes]
  rfl

theorem Tried.frame {frame other : Bytes} {answer : Control} {x : Passage}
    (h : Tried c frame answer x) (hframe : x.frame? = some other) :
    other = frame ∨ IsAnswer c other := by
  cases h with
  | copy outcome => exact Or.inl (Option.some.inj hframe).symm
  | aside haside =>
      cases haside with
      | answer hanswer =>
          obtain rfl := Option.some.inj hframe
          exact Or.inr hanswer
      | lost | unreadable | request => exact absurd hframe nofun
  | other => exact absurd hframe nofun

theorem Answered.frame {frame other : Bytes} {answer : Control} {x : Passage}
    (h : Answered c frame answer items) (hx : x ∈ items) (hframe : x.frame? = some other) :
    other = frame ∨ IsAnswer c other := by
  cases h with
  | intro outcome htried _ _ =>
      rcases List.mem_cons.mp hx with rfl | hx
      · exact Or.inl (Option.some.inj hframe).symm
      · rcases List.mem_append.mp hx with hx | hx
        · exact (htried x hx).frame hframe
        · rw [List.mem_singleton.mp hx] at hframe
          exact absurd hframe nofun

theorem Taken.frame {frame : Bytes} {x : Passage} (h : Taken frame items) (hx : x ∈ items) :
    x.frame? = some frame := by
  induction h with
  | last => rw [List.mem_singleton.mp hx]; rfl
  | again outcome _ ih => exact (List.mem_cons.mp hx).elim (fun hx => by rw [hx]; rfl) ih

/-- Besides the blocks only answers are handed over. -/
theorem Delivers.frame (h : Delivers c blocks items)
    (hblocks : ∀ block ∈ blocks, ∃ seq more, block.control = .information seq more) :
    ∀ x ∈ items, ∀ frame, x.frame? = some frame →
      isInformation frame = true ∨ IsAnswer c frame := by
  induction h with
  | @last block items htaken =>
      obtain ⟨seq, more, hcontrol⟩ := hblocks block (List.mem_singleton.mpr rfl)
      intro x hx frame hframe
      obtain rfl := Option.some.inj ((htaken.frame hx).symm.trans hframe)
      exact Or.inl (isInformation_layout hcontrol)
  | @next block blocks front items hanswered _ ih =>
      obtain ⟨seq, more, hcontrol⟩ := hblocks block (List.mem_cons_self ..)
      intro x hx frame hframe
      rcases List.mem_append.mp hx with hx | hx
      · rcases hanswered.frame hx hframe with rfl | hanswer
        · exact Or.inl (isInformation_layout hcontrol)
        · exact Or.inr hanswer
      · exact ih (fun b hb => hblocks b (List.mem_cons_of_mem _ hb)) x hx frame hframe

/-- **What a delivery hands over is each block in turn, at least once.** -/
theorem Delivers.informationFrames (h : Delivers c blocks items)
    (hblocks : ∀ block ∈ blocks, ∃ seq more, block.control = .information seq more) :
    ∃ counts : List Nat, counts.length = blocks.length ∧ (∀ count ∈ counts, 0 < count) ∧
      informationFrames items = copiesOf c counts blocks := by
  induction h with
  | @last block items htaken =>
      obtain ⟨seq, more, hcontrol⟩ := hblocks block (List.mem_singleton.mpr rfl)
      obtain ⟨count, hcount⟩ := htaken.informationFrames (isInformation_layout hcontrol)
      refine ⟨[count + 1], rfl, List.forall_mem_singleton.mpr (Nat.succ_pos count), ?_⟩
      rw [hcount]
      exact (List.append_nil _).symm
  | @next block blocks front items hanswered _ ih =>
      obtain ⟨seq, more, hcontrol⟩ := hblocks block (List.mem_cons_self ..)
      obtain ⟨counts, hlength, hpos, hframes⟩ :=
        ih fun b hb => hblocks b (List.mem_cons_of_mem _ hb)
      obtain ⟨count, hall⟩ := hanswered.copiesOf hcontrol hframes
      exact ⟨(count + 1) :: counts, congrArg (· + 1) hlength,
        List.forall_mem_cons.mpr ⟨Nat.succ_pos count, hpos⟩, hall⟩

/-- **A delivery that is broken off has handed over the first blocks**, in order and each at least
once. -/
theorem Begins.informationFrames (h : Begins c blocks items)
    (hblocks : ∀ block ∈ blocks, ∃ seq more, block.control = .information seq more) :
    ∃ counts : List Nat, counts.length ≤ blocks.length ∧ (∀ count ∈ counts, 0 < count) ∧
      informationFrames items = copiesOf c counts blocks := by
  induction h with
  | @first block blocks items htries =>
      obtain ⟨seq, more, hcontrol⟩ := hblocks block (List.mem_cons_self ..)
      have hframe := isInformation_layout (c := c) hcontrol
      cases htries with
      -- not even the first block was handed over
      | none => exact ⟨[], Nat.zero_le _, nofun, rfl⟩
      | some outcome htried =>
          obtain ⟨count, hcount⟩ := informationFrames_tried hframe htried
          refine ⟨[count + 1], Nat.succ_le_succ (Nat.zero_le _),
            List.forall_mem_singleton.mpr (Nat.succ_pos count), ?_⟩
          rw [informationFrames_sent hframe, hcount, ← List.replicate_succ]
          exact (List.append_nil _).symm
  | @next block blocks front items hanswered _ ih =>
      obtain ⟨seq, more, hcontrol⟩ := hblocks block (List.mem_cons_self ..)
      obtain ⟨counts, hlength, hpos, hframes⟩ :=
        ih fun b hb => hblocks b (List.mem_cons_of_mem _ hb)
      obtain ⟨count, hall⟩ := hanswered.copiesOf hcontrol hframes
      exact ⟨(count + 1) :: counts, Nat.succ_le_succ hlength,
        List.forall_mem_cons.mpr ⟨Nat.succ_pos count, hpos⟩, hall⟩

namespace Session

variable {L : Type} {s s₁ s₂ : Session (Traced L)} {m n : Nat} {items items₁ items₂ : List Passage}

/-- The blocks of a command, in the form in which the session sends them now. -/
def commandBlocks (s : Session (Traced L)) (command : Bytes) : List Block :=
  (Chain.ofPayload s.codec command s.sendSeq).blocks

/-- So many information blocks were sent, and the numbers moved on by as many. -/
structure Sends (s : Session (Traced L)) (n : Nat) (items : List Passage)
    (s' : Session (Traced L)) : Prop extends Proceeds s items s' where
  sendSeq : s'.sendSeq = Seq.next^[n] s.sendSeq
  recvSeq : s'.recvSeq = s.recvSeq
  response : s'.response = s.response

theorem Sends.trans (h₁ : Sends s m items₁ s₁) (h₂ : Sends s₁ n items₂ s₂) :
    Sends s (m + n) (items₁ ++ items₂) s₂ :=
  { h₁.toProceeds.trans h₂.toProceeds with
    sendSeq := by rw [h₂.sendSeq, h₁.sendSeq, Nat.add_comm, Function.iterate_add_apply]
    recvSeq := h₂.recvSeq.trans h₁.recvSeq
    response := h₂.response.trans h₁.response }

theorem Talks.sends (h : Talks s items s₁) : Sends s 0 items s₁ :=
  { h with }

/-- One more block is out. -/
theorem Sends.advance (h : Sends s n items s₁) :
    Sends s (n + 1) items { s₁ with sendSeq := s₁.sendSeq.next } :=
  { h with sendSeq := by rw [h.sendSeq, Function.iterate_succ_apply'] }

end Session

/-- Only copies of one frame were handed over. -/
def Copies (frame : Bytes) (items : List Passage) : Prop :=
  ∀ x ∈ items, ∃ outcome, x = .sent frame outcome

theorem Copies.taken {frame : Bytes} {items : List Passage} (h : Copies frame items) :
    Taken frame (items ++ [.sent frame (.ok frame.length)]) := by
  induction items with
  | nil => exact .last
  | cons x items ih =>
      obtain ⟨outcome, rfl⟩ := h x (List.mem_cons_self ..)
      exact .again outcome (ih fun y hy => h y (List.mem_cons_of_mem _ hy))

theorem Copies.tries {c : Codec} {frame : Bytes} {answer : Control} {items : List Passage}
    (h : Copies frame items) : Tries c frame answer items := by
  cases items with
  | nil => exact .none
  | cons x items =>
      obtain ⟨outcome, rfl⟩ := h x (List.mem_cons_self ..)
      refine .some outcome fun y hy => ?_
      obtain ⟨outcome', rfl⟩ := h y (List.mem_cons_of_mem _ hy)
      exact .copy outcome'

theorem Copies.concat {frame : Bytes} {items : List Passage} (h : Copies frame items)
    (outcome : Except Link.Fault Nat) : Copies frame (items ++ [.sent frame outcome]) := by
  intro x hx
  rcases List.mem_append.mp hx with hx | hx
  · exact h x hx
  · exact ⟨outcome, List.mem_singleton.mp hx⟩

namespace Step

open SecureElement.Action Session

variable {L : Type} [Link L] {s : Session (Traced L)}

/-! ## One block -/

/-- The last block is handed over until the link takes it, and nothing is received meanwhile. -/
theorem sendFinal_spec (hbudget : s.WithinBudget) :
    Ensures sendFinal s fun r s' =>
      ∃ items, Talks s items s' ∧
        match r with
        | .ok () => Taken s.command.used items
        | .error stop => stop.IsOrderly s' ∧ Copies s.command.used items := by
  unfold sendFinal
  rw [ensures_get_bind]
  refine ensures_loop (I := fun _ s' => s'.WithinBudget ∧
    ∃ items, Talks s items s' ∧ Copies s.command.used items) ?_ ?_ _ _ _
    ⟨hbudget, [], Talks.refl s, List.forall_mem_nil _⟩
  · intro u s₁ hend
    obtain ⟨hwithin, front, hfront, hcopies⟩ := hend
    -- the staged block is the same in every round, so all that is handed over are its copies
    have hsent := sendCommand_spec (s := s₁)
    rw [hfront.command] at hsent
    unfold sendFinalRound
    refine ensures_attempt_bind hsent ?_ ?_ ?_ ?_
    · intro u s₂ hend
      obtain ⟨-, outcome, htalks, rfl⟩ := hend
      exact ⟨_, hfront.trans htalks, hcopies.taken⟩
    · intro setback s₂ hend
      obtain ⟨⟨hretries, -⟩, outcome, htalks, hordinary⟩ := hend
      refine Ensures.bind (charge_spec hordinary (hwithin.kept hretries htalks)) ?_ ?_
      · intro u s₃ hend
        obtain ⟨⟨hcharged, -⟩, horderly⟩ := hend
        exact ⟨horderly, _, hfront.trans (htalks.trans hcharged), hcopies.concat outcome⟩
      · intro stop s₃ hend
        obtain ⟨⟨hcharged, -⟩, horderly⟩ := hend
        exact ⟨_, hfront.trans (htalks.trans hcharged), horderly, hcopies.concat outcome⟩
    · intro s₂ hend
      obtain ⟨-, outcome, -, hordinary⟩ := hend
      exact hordinary.elim
    · intro s₂ hend
      obtain ⟨-, outcome, htalks, -⟩ := hend
      exact ⟨_, hfront.trans htalks, trivial, hcopies.concat outcome⟩
  · intro u s₁ hend
    obtain ⟨-, items, htalks, hcopies⟩ := hend
    exact ⟨items, htalks, trivial, hcopies⟩

/-- A block that others follow is sent until it is acknowledged. -/
theorem sendChained_spec (hcapacity : Block.longPrologue ≤ s.frame.capacity)
    (hbudget : s.WithinBudget) :
    Ensures sendChained s fun r s' =>
      ∃ items, Talks s items s' ∧
        match r with
        | .ok () => Answered s.codec s.command.used (.ready s.sendSeq.next .clean) items
        | .error stop => stop.IsOrderly s' ∧
            Tries s.codec s.command.used (.ready s.sendSeq.next .clean) items := by
  unfold sendChained
  rw [ensures_get_bind]
  have hask : ∀ s₁ items, Talks s items s₁ →
      Ensures (do sendCommand; awaitBlock) s₁ (Asked s.command.used s₁) := by
    intro s₁ items htalks
    have hsent := sendCommand_spec (s := s₁)
    rw [htalks.command] at hsent
    exact ask_spec (htalks.holds hcapacity) hsent
  refine (askUntil_spec hbudget hask).bind ?_ ?_
  · intro inbound s₁ hend
    obtain ⟨items, raw, block, htalks, hanswered, -⟩ := hend
    exact ⟨items, htalks, hanswered⟩
  · intro stop s₁ hend
    obtain ⟨horderly, items, htalks, htries⟩ := hend
    exact ⟨items, htalks, horderly, htries⟩

/-- What sending one block comes to. -/
def BlockSent (block : Block) (s : Session (Traced L)) (r : Except (Stop Setback) Unit)
    (s' : Session (Traced L)) : Prop :=
  ∃ items, match r with
    | .ok () => Sends s 1 items s' ∧
        if block.control.isChained then Answered s.codec (s.codec.layout block) block.receipt items
        else Taken (s.codec.layout block) items
    | .error stop => stop.IsOrderly s' ∧ Proceeds s items s' ∧
        Tries s.codec (s.codec.layout block) block.receipt items

theorem sendBlock_spec {block : Block} {more : Bool}
    (hcontrol : block.control = .information s.sendSeq more)
    (hcapacity : Block.longPrologue ≤ s.frame.capacity) :
    Ensures (sendBlock block) s (BlockSent block s) := by
  have hreceipt : block.receipt = .ready s.sendSeq.next .clean := by
    unfold Block.receipt
    rw [hcontrol]
  unfold sendBlock
  refine (stage_spec block).bind ?_ ?_
  · intro u s₁ hend
    obtain ⟨command, rfl, hused⟩ := hend
    dsimp only at hused
    rw [ensures_modify_bind, hcontrol]
    -- nothing has passed yet; the staged block and a fresh budget are all that is new
    generalize hstaged : ({ s with command, retries := 0 } : Session (Traced L)) = staged
    have hframe : staged.command.used = s.codec.layout block := by rw [← hstaged]; exact hused
    have hbudget : staged.WithinBudget := by rw [← hstaged]; exact Nat.zero_le _
    have hbefore : Sends s 0 [] staged := by
      rw [← hstaged]
      exact { Talks.refl s with passes := hears_same rfl }
    cases more with
    | true =>
        rw [if_pos (show (Control.information s.sendSeq true).isChained = true from rfl)]
        refine Ensures.bind (sendChained_spec (hbefore.holds hcapacity) hbudget) ?_ ?_
        · intro u s₂ hend
          obtain ⟨items, htalks, hanswered⟩ := hend
          rw [hframe, hbefore.codec, hbefore.sendSeq] at hanswered
          refine ⟨_, (hbefore.trans htalks.sends).advance, ?_⟩
          rw [hcontrol, hreceipt]
          exact hanswered
        · intro stop s₂ hend
          obtain ⟨items, htalks, horderly, htries⟩ := hend
          rw [hframe, hbefore.codec, hbefore.sendSeq] at htries
          refine ⟨_, horderly, hbefore.toProceeds.trans htalks.toProceeds, ?_⟩
          rw [hreceipt]
          exact htries
    | false =>
        rw [if_neg (show ¬ (Control.information s.sendSeq false).isChained = true from
          Bool.false_ne_true)]
        refine Ensures.bind (sendFinal_spec hbudget) ?_ ?_
        · intro u s₂ hend
          obtain ⟨items, htalks, htaken⟩ := hend
          rw [hframe] at htaken
          refine ⟨_, (hbefore.trans htalks.sends).advance, ?_⟩
          rw [hcontrol]
          exact htaken
        · intro stop s₂ hend
          obtain ⟨items, htalks, horderly, hcopies⟩ := hend
          rw [hframe] at hcopies
          exact ⟨_, horderly, hbefore.toProceeds.trans htalks.toProceeds, hcopies.tries⟩
  · intro stop s₁ hend
    obtain ⟨command, rfl, hstop⟩ := hend
    refine ⟨[], ?_, { Talks.refl s with passes := hears_same rfl }, .none⟩
    cases stop with
    | because setback => exact hstop
    | crashed => exact hstop.elim
    | stalled => exact hstop.elim

/-! ## The whole command -/

/-- What sending a row of blocks comes to. -/
def BlocksSent (blocks : List Block) (s : Session (Traced L)) (r : Except (Stop Setback) Unit)
    (s' : Session (Traced L)) : Prop :=
  ∃ items, match r with
    | .ok () => Sends s blocks.length items s' ∧ Delivers s.codec blocks items
    | .error stop => stop.IsOrderly s' ∧ Proceeds s items s' ∧ Begins s.codec blocks items

/-- **Blocks are delivered in order, however many there are.** -/
theorem sendBlocks_spec :
    ∀ (n : Nat) (chain : Chain) (s : Session (Traced L)), chain.remaining = n →
      chain.done = false → chain.codec = s.codec → chain.seq = s.sendSeq →
      Block.longPrologue ≤ s.frame.capacity →
      Ensures (sendBlocks n chain) s (BlocksSent chain.blocks s)
  | 0, chain, s, hn, hdone, _, _, _ => by
      -- a chain that is not done has a block left
      obtain ⟨block, rest, hnext⟩ := Chain.exists_next hdone
      have hcount := Chain.remaining_next hnext
      omega
  | n + 1, chain, s, hn, hdone, hcodec, hseq, hcapacity => by
      obtain ⟨block, rest, hnext⟩ := Chain.exists_next hdone
      have hrest : rest.remaining = n := by
        have hcount := Chain.remaining_next hnext
        omega
      obtain ⟨hcontrol, hrestSeq, hrestCodec⟩ := Chain.next?_eq_some hnext
      unfold sendBlocks
      rw [hnext, Chain.blocks_next hnext]
      dsimp only
      rw [hseq] at hcontrol
      refine (sendBlock_spec hcontrol hcapacity).bind ?_ ?_
      · intro u s₁ hend
        obtain ⟨front, hsends, hsent⟩ := hend
        rw [hcontrol] at hsent
        cases hlast : rest.done with
        | true =>
            rw [hlast] at hsent
            rw [Chain.blocks_of_done hlast]
            have hnone : n = 0 := by
              rw [← hrest, Chain.remaining, if_pos hlast]
            rw [hnone]
            exact ⟨front, hsends, .last hsent⟩
        | false =>
            rw [hlast] at hsent
            -- the chain and the session have moved on by one number each
            refine (sendBlocks_spec n rest s₁ hrest hlast ?_ ?_ (hsends.holds hcapacity)).mono ?_
            · rw [hrestCodec, hcodec, hsends.codec]
            · rw [hrestSeq, hseq, hsends.sendSeq]
              rfl
            · intro r s₂ hend
              obtain ⟨items, hr⟩ := hend
              rw [hsends.codec] at hr
              cases r with
              | ok u =>
                  have hall := hsends.trans hr.1
                  rw [Nat.add_comm] at hall
                  exact ⟨_, hall, .next hsent hr.2⟩
              | error stop =>
                  exact ⟨_, hr.1, hsends.toProceeds.trans hr.2.1, .next hsent hr.2.2⟩
      · intro stop s₁ hend
        -- the blocks behind a block that was given up are never begun
        obtain ⟨items, horderly, hproceeds, htries⟩ := hend
        exact ⟨items, horderly, hproceeds, .first htries⟩

/-- Sending a command delivers its blocks, or begins to. -/
theorem sendChain_spec (command : Bytes) (hcapacity : Block.longPrologue ≤ s.frame.capacity) :
    Ensures (sendChain command) s fun r s' =>
      ∃ items, Proceeds { s with parked := none } items s' ∧
        match r with
        | .ok () => Delivers s.codec (s.commandBlocks command) items ∧
            s'.sendSeq = Seq.next^[(s.commandBlocks command).length] s.sendSeq ∧
            s'.recvSeq = s.recvSeq ∧ s'.response.used = [] ∧ s'.commandPending = true
        | .error stop => stop.IsOrderly s' ∧ Begins s.codec (s.commandBlocks command) items := by
  unfold sendChain
  rw [ensures_modify_bind, ensures_get_bind]
  dsimp only [resetExchange]
  refine Ensures.bind (sendBlocks_spec _ (Chain.ofPayload s.codec command s.sendSeq) _ rfl rfl rfl
    rfl hcapacity) ?_ ?_
  · intro u s₁ hend
    obtain ⟨items, hsends, hdelivers⟩ := hend
    refine ⟨items, { hsends.toProceeds with }, hdelivers, hsends.sendSeq, hsends.recvSeq, ?_, rfl⟩
    dsimp only
    rw [hsends.response]
    exact Buffer.used_clear _
  · intro stop s₁ hend
    obtain ⟨items, horderly, hproceeds, hbegins⟩ := hend
    exact ⟨items, { hproceeds with }, horderly, hbegins⟩

end Step

end SecureElement
