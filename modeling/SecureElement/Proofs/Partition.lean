import Mathlib.Algebra.Order.Floor.Div
import SecureElement.Proofs.Delivery
import SecureElement.Proofs.RoundTrip

/-!
# A chain cuts its payload into parts

A chain gives its blocks one at a time, and says before each how many are still to
come. The two are computed apart: the next block from what is left of the payload, the
number from its length. That they agree is the property of one step
(`Chain.remaining_next`), and everything here follows the steps (`Chain.steps`).

`Chain.advance` and `Chain.yields` are the chain as its user sees it: asked for a block
again and again, also after the last one.
-/

namespace SecureElement

namespace Chain

variable {c rest : Chain} {block : Block}

/-- Induction over the blocks that are still to come. -/
theorem steps {motive : Chain → Prop} (finished : ∀ c, c.done = true → motive c)
    (next : ∀ c block rest, c.next? = some (block, rest) → motive rest → motive c) :
    ∀ c, motive c := by
  intro c
  induction hn : c.remaining generalizing c with
  | zero =>
      refine finished c ?_
      by_contra hdone
      obtain ⟨block, rest, hnext⟩ := exists_next (Bool.eq_false_iff.mpr hdone)
      exact absurd (hn.symm.trans (remaining_next hnext)) (Nat.succ_ne_zero _).symm
  | succ n ih =>
      cases hdone : c.done with
      | true => exact finished c hdone
      | false =>
          obtain ⟨block, rest, hnext⟩ := exists_next hdone
          refine next c block rest hnext (ih rest ?_)
          have hone := remaining_next hnext
          omega

/-! ## Asking for one block after the other -/

/-- A chain after it was asked for its next block. One that has none stays as it is. -/
def advance (c : Chain) : Chain := (c.next?.map Prod.snd).getD c

/-- The answer to the request for a block that comes after `n` others. -/
def yields (c : Chain) (n : Nat) : Option Block := (advance^[n] c).next?.map Prod.fst

theorem next?_of_done (h : c.done = true) : c.next? = none := if_pos h

theorem advance_of_done (h : c.done = true) : c.advance = c := by
  rw [advance, next?_of_done h]
  rfl

theorem advance_of_next (h : c.next? = some (block, rest)) : c.advance = rest := by
  rw [advance, h]
  rfl

/-- The answers are the blocks, each once and in order, and none behind them. -/
theorem yields_eq (c : Chain) : ∀ n, c.yields n = c.blocks[n]? := by
  induction c using steps with
  | finished c hdone =>
      intro n
      rw [yields, Function.iterate_fixed (advance_of_done hdone), next?_of_done hdone,
        blocks_of_done hdone]
      rfl
  | next c block rest hnext ih =>
      intro n
      rw [blocks_next hnext]
      cases n with
      | zero =>
          rw [yields, Function.iterate_zero_apply, hnext]
          rfl
      | succ n =>
          rw [yields, Function.iterate_succ_apply, advance_of_next hnext, List.getElem?_cons_succ,
            ← ih n]
          rfl

/-- What a chain says of itself is the number of its blocks. -/
theorem remaining_eq (c : Chain) : c.remaining = c.blocks.length := by
  induction c using steps with
  | finished c hdone => rw [blocks_of_done hdone, remaining, if_pos hdone, List.length_nil]
  | next c block rest hnext ih => rw [remaining_next hnext, blocks_next hnext, ih, List.length_cons]

/-- Each request takes one off that number, down to zero. -/
theorem remaining_advanced (c : Chain) : ∀ n, (advance^[n] c).remaining = c.remaining - n := by
  induction c using steps with
  | finished c hdone =>
      intro n
      rw [Function.iterate_fixed (advance_of_done hdone), remaining, if_pos hdone, Nat.zero_sub]
  | next c block rest hnext ih =>
      intro n
      cases n with
      | zero => rfl
      | succ n =>
          rw [Function.iterate_succ_apply, advance_of_next hnext, ih n, remaining_next hnext,
            Nat.add_sub_add_right]

/-! ## What the blocks carry -/

/-- The parts of one step: a block with the front of what is left, and whether it is the last. -/
theorem next?_parts (h : c.next? = some (block, rest)) :
    block = c.codec.make (.information c.seq (!rest.done)) (c.rest.take c.codec.maxPayload)
      ∧ rest = { c with
          rest := c.rest.drop c.codec.maxPayload, seq := c.seq.next,
          done := (c.rest.drop c.codec.maxPayload).isEmpty } := by
  unfold next? at h
  split at h
  · exact absurd h (by simp)
  · obtain ⟨rfl, rfl⟩ := Prod.mk.inj (Option.some.inj h)
    simp only [Bool.not_not, and_self]

/-- Nothing is lost between the blocks, and nothing is carried twice. -/
theorem flatten_blocks (c : Chain) :
    c.done = false → (c.blocks.map Block.payload).flatten = c.rest := by
  induction c using steps with
  | finished c hdone => exact fun h => absurd (hdone.symm.trans h) (by decide)
  | next c block rest hnext ih =>
      intro _
      obtain ⟨hblock, hrest⟩ := next?_parts hnext
      have htail : (rest.blocks.map Block.payload).flatten = c.rest.drop c.codec.maxPayload := by
        cases hdone : rest.done with
        | true =>
            rw [hrest] at hdone
            rw [blocks_of_done (by rw [hrest]; exact hdone)]
            exact (List.isEmpty_iff.mp hdone).symm
        | false =>
            rw [ih hdone, hrest]
      rw [blocks_next hnext, List.map_cons, List.flatten_cons, htail, hblock]
      exact List.take_append_drop _ _

/-- The block at each place, from the payload and the place alone. -/
theorem getElem?_blocks (c : Chain) :
    ∀ i, i < c.remaining →
      c.blocks[i]? = some (c.codec.make
        (.information (Seq.next^[i] c.seq) (decide (i + 1 < c.remaining)))
        ((c.rest.drop (i * c.codec.maxPayload)).take c.codec.maxPayload)) := by
  induction c using steps with
  | finished c hdone =>
      intro i hi
      rw [remaining, if_pos hdone] at hi
      exact absurd hi (Nat.not_lt_zero i)
  | next c block rest hnext ih =>
      intro i hi
      obtain ⟨hblock, hrest⟩ := next?_parts hnext
      have hone := remaining_next hnext
      rw [blocks_next hnext, hone]
      cases i with
      | zero =>
          -- others follow exactly if the chain behind the block has some
          have hmore : (!rest.done) = decide (0 + 1 < rest.remaining + 1) := by
            cases hdone : rest.done with
            | true => simp [remaining, hdone]
            | false =>
                obtain ⟨_, _, hnext'⟩ := exists_next hdone
                simp [remaining_next hnext']
          rw [List.getElem?_cons_zero, hblock, hmore, Nat.zero_mul, List.drop_zero,
            Function.iterate_zero_apply]
      | succ i =>
          have hlast : decide (i + 1 + 1 < rest.remaining + 1) = decide (i + 1 < rest.remaining) :=
            decide_eq_decide.mpr (Nat.add_lt_add_iff_right)
          obtain ⟨-, hseq, hcodec⟩ := next?_eq_some hnext
          have hleft : rest.rest = c.rest.drop c.codec.maxPayload := congrArg Chain.rest hrest
          rw [List.getElem?_cons_succ, ih i (by omega), hlast, Function.iterate_succ_apply, hseq,
            hcodec, hleft, List.drop_drop, Nat.succ_mul, Nat.add_comm c.codec.maxPayload]

end Chain

namespace Codec

/-- A payload that was cut into blocks, written, read by the other end and put together again. -/
def carried (c : Codec) (payload : Bytes) (seq : Seq) : Except Block.Fault Bytes := do
  let frames ← (Chain.ofPayload c payload seq).blocks.mapM c.encode
  let blocks ← frames.mapM c.flip.decode
  return (blocks.map Block.payload).flatten

/-- Work that succeeds on each member succeeds on the list. -/
theorem mapM_ok {α β ε : Type} {f : α → Except ε β} {g : α → β} :
    ∀ l : List α, (∀ a ∈ l, f a = .ok (g a)) → l.mapM f = .ok (l.map g)
  | [], _ => rfl
  | a :: l, h => by
      rw [List.mapM_cons, h a List.mem_cons_self,
        mapM_ok l fun b hb => h b (List.mem_cons_of_mem a hb)]
      rfl

section OfPayload

variable {c : Codec} {payload : Bytes} {seq : Seq} {block : Block} {i : Nat}

theorem length_blocks (c : Codec) (payload : Bytes) (seq : Seq) :
    (Chain.ofPayload c payload seq).blocks.length
      = max 1 (payload.length ⌈/⌉ c.maxPayload) := by
  rw [← Chain.remaining_eq, Nat.ceilDiv_eq_add_pred_div, Nat.add_sub_assoc c.maxPayload_pos]
  rfl

/-- The block at each place carries the octets from there on, up to the limit. -/
theorem block_at (h : (Chain.ofPayload c payload seq).blocks[i]? = some block) :
    block = c.make
      (.information (Seq.next^[i] seq)
        (decide (i + 1 < (Chain.ofPayload c payload seq).blocks.length)))
      ((payload.drop (i * c.maxPayload)).take c.maxPayload) := by
  obtain ⟨hi, -⟩ := List.getElem?_eq_some_iff.mp h
  have hplace := Chain.getElem?_blocks (Chain.ofPayload c payload seq) i
    (by rw [Chain.remaining_eq]; exact hi)
  rw [h, Chain.remaining_eq] at hplace
  exact Option.some.inj hplace

/-- Every block is one that the codec made and can write. -/
theorem made_of_mem_blocks (h : block ∈ (Chain.ofPayload c payload seq).blocks) :
    ∃ control chunk, block = c.make control chunk ∧ chunk.length ≤ c.payloadLimit control
      ∧ payloadDefect? control chunk = none := by
  obtain ⟨i, hi, hblock⟩ := List.getElem_of_mem h
  have hplace := block_at ((List.getElem?_eq_getElem hi).trans (congrArg some hblock))
  exact ⟨_, _, hplace, List.length_take_le _ _, rfl⟩

/-- Where others follow, there is enough for a full block and more. -/
theorem full_of_lt (h : i + 1 < max 1 (payload.length ⌈/⌉ c.maxPayload)) :
    ((payload.drop (i * c.maxPayload)).take c.maxPayload).length = c.maxPayload := by
  have hmore : ¬ payload.length ⌈/⌉ c.maxPayload ≤ i + 1 := by omega
  rw [ceilDiv_le_iff_le_mul c.maxPayload_pos, Nat.mul_comm, Nat.succ_mul] at hmore
  rw [List.length_take, List.length_drop]
  omega

/-- At the last place there is no more than one block can carry, and something unless there was
nothing at all. -/
theorem rest_of_last (h : i + 1 = max 1 (payload.length ⌈/⌉ c.maxPayload)) :
    (payload.drop (i * c.maxPayload)).take c.maxPayload = payload.drop (i * c.maxPayload)
      ∧ (payload.drop (i * c.maxPayload) = [] ↔ payload = []) := by
  have hend : payload.length ⌈/⌉ c.maxPayload ≤ i + 1 := by omega
  rw [ceilDiv_le_iff_le_mul c.maxPayload_pos, Nat.mul_comm, Nat.succ_mul] at hend
  refine ⟨List.take_of_length_le (by rw [List.length_drop]; omega), ?_⟩
  rw [List.drop_eq_nil_iff]
  refine ⟨fun hshort => ?_, fun hempty => by rw [hempty]; exact Nat.zero_le _⟩
  have hfew : payload.length ⌈/⌉ c.maxPayload ≤ i := by
    rw [ceilDiv_le_iff_le_mul c.maxPayload_pos, Nat.mul_comm]
    exact hshort
  -- then the only block is the one that an empty payload makes
  have hnone : payload.length ⌈/⌉ c.maxPayload ≤ 0 := by omega
  rw [ceilDiv_le_iff_le_mul c.maxPayload_pos, Nat.mul_zero] at hnone
  exact List.length_eq_zero_iff.mp (Nat.le_zero.mp hnone)

/-- What was cut, written and read is put together again. -/
theorem carried_eq (c : Codec) (payload : Bytes) (seq : Seq) :
    c.carried payload seq = .ok payload := by
  have hwritten : (Chain.ofPayload c payload seq).blocks.mapM c.encode
      = .ok ((Chain.ofPayload c payload seq).blocks.map c.layout) := by
    refine mapM_ok _ fun block hblock => ?_
    obtain ⟨control, chunk, rfl, hchunk, -⟩ := made_of_mem_blocks hblock
    exact if_neg (Nat.not_lt.mpr hchunk)
  have hread : ((Chain.ofPayload c payload seq).blocks.map c.layout).mapM c.flip.decode
      = .ok ((Chain.ofPayload c payload seq).blocks.map id) := by
    rw [List.mapM_map]
    refine mapM_ok _ fun block hblock => ?_
    obtain ⟨control, chunk, rfl, hchunk, hsound⟩ := made_of_mem_blocks hblock
    have hown : c.own = c.flip.peer := rfl
    have hsame : c.flip.epilogue = c.epilogue := rfl
    rw [Function.comp_apply, id_eq,
      decode_made control hsame (Nat.le_trans hchunk (payloadLimit_le c control)),
      if_neg (not_not_intro hown), hsound]
  rw [carried, hwritten]
  show (List.mapM c.flip.decode _ >>= _) = _
  rw [hread, List.map_id]
  exact congrArg Except.ok (Chain.flatten_blocks (Chain.ofPayload c payload seq) rfl)

end OfPayload

/-! ## Main results -/

/-- **Chaining is a partition.** The blocks of a payload carry its octets, each once and in order;
there are as many as it takes, and one for nothing at all. All but the last are full and say that
more follows, the last carries what is left; the numbers alternate from the first; and the check
value of each is that of its encoding. Asked for one block after the other the chain gives these
and then none forever, and before each it says how many are still to come. Writing every block,
reading each at the other end and joining what they carry gives the payload back. -/
theorem chain_partition (c : Codec) (payload : Bytes) (seq : Seq) :
    let chain := Chain.ofPayload c payload seq
    let blocks := chain.blocks
    (blocks.map Block.payload).flatten = payload
    ∧ blocks.length = max 1 (payload.length ⌈/⌉ c.maxPayload)
    ∧ (∀ i block, blocks[i]? = some block →
        block.control = .information (Seq.next^[i] seq) (decide (i + 1 < blocks.length))
        ∧ (i + 1 < blocks.length → block.payload.length = c.maxPayload)
        ∧ (i + 1 = blocks.length →
            block.payload = payload.drop (i * c.maxPayload)
              ∧ (block.payload = [] ↔ payload = []))
        ∧ ∃ covered, c.encode block = .ok (covered ++ c.epilogue.encode block.edc)
            ∧ block.edc = c.epilogue.compute covered)
    ∧ (∀ n, chain.yields n = blocks[n]?)
    ∧ (∀ n, (Chain.advance^[n] chain).remaining = blocks.length - n)
    ∧ c.carried payload seq = .ok payload := by
  intro chain blocks
  have hlength : blocks.length = max 1 (payload.length ⌈/⌉ c.maxPayload) :=
    length_blocks c payload seq
  refine ⟨Chain.flatten_blocks chain rfl, hlength, ?_, Chain.yields_eq chain, ?_,
    carried_eq c payload seq⟩
  · intro i block hblock
    obtain rfl := block_at hblock
    refine ⟨rfl, fun hmore => ?_, fun hlast => ?_, _, if_neg (Nat.not_lt.mpr ?_), rfl⟩
    · rw [hlength] at hmore
      exact full_of_lt hmore
    · rw [hlength] at hlast
      obtain ⟨hrest, hempty⟩ := rest_of_last hlast
      exact ⟨hrest, (congrArg (· = []) hrest).to_iff.trans hempty⟩
    · exact List.length_take_le _ _
  · intro n
    rw [Chain.remaining_advanced, Chain.remaining_eq]

/-- Two full blocks and half of one. -/
example :
    (Chain.ofPayload (host 10 .lrc) (List.replicate 25 0) .one).blocks.map
        (fun block => (block.control, block.payload.length))
      = [(.information .one true, 10), (.information .zero true, 10),
          (.information .one false, 5)] := by
  decide

end Codec

end SecureElement
