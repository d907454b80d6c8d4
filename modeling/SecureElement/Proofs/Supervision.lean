import SecureElement.Proofs.Asking
import SecureElement.Session.Calls

/-!
# Supervisory requests and recovery

A supervisory request is sent until its response comes (`supervise_spec`). One attempt
to resynchronise is the same with a single try, and recovery is a row of such
attempts. `Attempts` is the conversation of those that came to nothing. Every attempt
hands over the request exactly once, and nothing else that is handed over meanwhile
is that frame, so the requests on the record count the attempts
(`Attempts.handovers`).
-/

namespace SecureElement

open Link

/-- The frame of a supervisory request without payload. -/
def Codec.request (c : Codec) (function : Supervisory) : Bytes :=
  c.layout (c.make (.request function) [])

/-- What may pass behind a request to resynchronise, until an attempt is over. -/
inductive InVain (c : Codec) : Passage → Prop where
  | aside {x : Passage} : Aside c x → InVain c x
  | other {raw : Bytes} {block : Block} : c.decode raw = .ok block →
      block.control ≠ .response .resync → InVain c (.received raw)

/-- So many attempts to resynchronise, all of them in vain. -/
inductive Attempts (c : Codec) : Nat → List Passage → Prop where
  | none : Attempts c 0 []
  | one {n : Nat} {front items : List Passage} (outcome : Except Link.Fault Nat) :
      (∀ x ∈ front, InVain c x) → Attempts c n items →
      Attempts c (n + 1) (.sent (c.request .resync) outcome :: (front ++ items))

/-- An attempt to resynchronise that succeeds. -/
inductive Resyncs (c : Codec) : List Passage → Prop where
  | intro {asides : List Passage} {raw : Bytes} {block : Block} (outcome : Except Link.Fault Nat) :
      (∀ x ∈ asides, Aside c x) → c.decode raw = .ok block → block.control = .response .resync →
      Resyncs c (.sent (c.request .resync) outcome :: (asides ++ [.received raw]))

variable {c : Codec}

/-- What answers a request of the peer is a response, and no block of another type. -/
theorem not_isAnswer_layout {block : Block}
    (h : ∀ function, block.control ≠ .response function) : ¬ IsAnswer c (c.layout block) := by
  have hanswer : ∀ {frame : Bytes}, IsAnswer c frame → frame = c.layout block →
      ∃ function, Control.response function = block.control := by
    intro frame hframe hsame
    cases hframe with
    | extension multiplier => exact ⟨.wtx, Codec.control_of_layout_eq hsame⟩
    | fieldSize size => exact ⟨.ifs, Codec.control_of_layout_eq hsame⟩
  intro hframe
  obtain ⟨function, hcontrol⟩ := hanswer hframe rfl
  exact h function hcontrol.symm

theorem request_not_isAnswer (c : Codec) (function : Supervisory) :
    ¬ IsAnswer c (c.request function) :=
  not_isAnswer_layout fun _ h => Bool.false_ne_true (Control.supervisory.inj h).2

theorem Aside.frame?_ne {x : Passage} {frame : Bytes} (h : Aside c x)
    (hframe : ¬ IsAnswer c frame) : x.frame? ≠ some frame := by
  cases h with
  | answer hanswer =>
      intro hsome
      obtain rfl := Option.some.inj hsome
      exact hframe hanswer
  | lost | unreadable | request => exact nofun

theorem InVain.frame?_ne {x : Passage} (h : InVain c x) : x.frame? ≠ some (c.request .resync) := by
  cases h with
  | aside haside => exact haside.frame?_ne (request_not_isAnswer c .resync)
  | other => exact nofun

/-- How often a frame was handed over. -/
def handovers (frame : Bytes) (items : List Passage) : Nat :=
  (items.filterMap Passage.frame?).count frame

theorem handovers_append (frame : Bytes) (front back : List Passage) :
    handovers frame (front ++ back) = handovers frame front + handovers frame back := by
  unfold handovers
  rw [List.filterMap_append, List.count_append]

theorem handovers_sent (frame : Bytes) (outcome : Except Link.Fault Nat) (items : List Passage) :
    handovers frame (.sent frame outcome :: items) = handovers frame items + 1 := by
  unfold handovers
  rw [List.filterMap_cons_some (by rfl), List.count_cons_self]

theorem handovers_eq_zero {frame : Bytes} {items : List Passage}
    (h : ∀ x ∈ items, x.frame? ≠ some frame) : handovers frame items = 0 := by
  unfold handovers
  rw [List.count_eq_zero, List.mem_filterMap]
  intro hend
  obtain ⟨x, hx, hframe⟩ := hend
  exact h x hx hframe

theorem handovers_inVain {items : List Passage} (h : ∀ x ∈ items, InVain c x) :
    handovers (c.request .resync) items = 0 :=
  handovers_eq_zero fun x hx => (h x hx).frame?_ne

theorem handovers_asides {frame : Bytes} {items : List Passage} (hframe : ¬ IsAnswer c frame)
    (h : ∀ x ∈ items, Aside c x) : handovers frame items = 0 :=
  handovers_eq_zero fun x hx => (h x hx).frame?_ne hframe

theorem handovers_received (frame raw : Bytes) : handovers frame [.received raw] = 0 := rfl

/-- The requests on the record count the attempts. -/
theorem Attempts.handovers {n : Nat} {items : List Passage} (h : Attempts c n items) :
    handovers (c.request .resync) items = n := by
  induction h with
  | none => rfl
  | one outcome hfront _ ih =>
      rw [handovers_sent, handovers_append, handovers_inVain hfront, ih, Nat.zero_add]

/-- The attempt that succeeds hands over one request. -/
theorem Resyncs.handovers {items : List Passage} (h : Resyncs c items) :
    handovers (c.request .resync) items = 1 := by
  cases h with
  | intro outcome hasides _ _ =>
      rw [handovers_sent, handovers_append,
        handovers_asides (request_not_isAnswer c .resync) hasides, handovers_received]

/-- The element said last that it resynchronised. -/
theorem Resyncs.last {c : Codec} {items : List Passage} (h : Resyncs c items) :
    ∃ front raw block, items = front ++ [.received raw] ∧ c.decode raw = .ok block ∧
      block.control = .response .resync := by
  cases h with
  | @intro asides raw block outcome _ hdecode hcontrol =>
      exact ⟨.sent (c.request .resync) outcome :: asides, raw, block, rfl, hdecode, hcontrol⟩

/-- What may pass in a recovery. -/
inductive Recovers (c : Codec) : Passage → Prop where
  /-- The element was asked to resynchronise. -/
  | request (outcome : Except Link.Fault Nat) : Recovers c (.sent (c.request .resync) outcome)
  /-- An attempt went on, or came to nothing. -/
  | inVain {x : Passage} : InVain c x → Recovers c x
  /-- The element answered. -/
  | answered {raw : Bytes} {block : Block} : c.decode raw = .ok block →
      block.control = .response .resync → Recovers c (.received raw)
  /-- The session was given up. -/
  | released : Recovers c .released

theorem Attempts.recovers {n : Nat} {items : List Passage} (h : Attempts c n items) :
    ∀ x ∈ items, Recovers c x := by
  induction h with
  | none => exact List.forall_mem_nil _
  | one outcome hfront _ ih =>
      intro x hx
      rcases List.mem_cons.mp hx with rfl | hx
      · exact .request outcome
      · rcases List.mem_append.mp hx with hx | hx
        · exact .inVain (hfront x hx)
        · exact ih x hx

theorem Resyncs.recovers {items : List Passage} (h : Resyncs c items) :
    ∀ x ∈ items, Recovers c x := by
  cases h with
  | intro outcome hasides hdecode hcontrol =>
      intro x hx
      rcases List.mem_cons.mp hx with rfl | hx
      · exact .request outcome
      · rcases List.mem_append.mp hx with hx | hx
        · exact .inVain (.aside (hasides x hx))
        · rw [List.mem_singleton.mp hx]
          exact .answered hdecode hcontrol

namespace Step

open SecureElement.Action Session

variable {L : Type} [Link L] {s : Session (Traced L)}

/-! ## Requests -/

theorem sendRequest_spec (function : Supervisory) :
    Ensures (sendControl (s.codec.make (.request function) [])) s
      (HandedOver (s.codec.request function) s) :=
  sendControl_spec (Nat.zero_le 2) fun _ _ h => Control.noConfusion h

/-- What a supervisory request comes to. -/
def Supervised (function : Supervisory) (s : Session (Traced L))
    (r : Except (Stop Setback) Inbound) (s' : Session (Traced L)) : Prop :=
  ∃ items, Talks s items s' ∧
    match r with
    | .ok inbound => Answered s.codec (s.codec.request function) (.response function) items ∧
        ∃ raw block, items.getLast? = some (.received raw) ∧
          Arrived s.codec s'.frame inbound raw block
    | .error stop =>
        stop.IsOrderly s' ∧ Tries s.codec (s.codec.request function) (.response function) items

theorem supervise_spec (function : Supervisory)
    (hcapacity : Block.longPrologue ≤ s.frame.capacity) :
    Ensures (supervise function) s (Supervised function s) := by
  unfold supervise
  rw [ensures_modify_bind, ensures_get_bind]
  dsimp only
  -- the fresh budget is all that `askUntil` needs to know of its start
  generalize hstarted : ({ s with retries := 0 } : Session (Traced L)) = started
  have hbefore : Talks s [] started := by
    rw [← hstarted]
    exact { Talks.refl s with passes := hears_same rfl }
  have hbudget : started.WithinBudget := by rw [← hstarted]; exact Nat.zero_le _
  have hask : ∀ s₁ items, Talks started items s₁ →
      Ensures (do sendControl (s.codec.make (.request function) []); awaitBlock) s₁
        (Asked (s.codec.request function) s₁) := by
    intro s₁ items htalks
    have hsent := sendRequest_spec (s := s₁) function
    rw [htalks.codec, hbefore.codec] at hsent
    exact ask_spec (htalks.holds (hbefore.holds hcapacity)) hsent
  refine (askUntil_spec hbudget hask).mono ?_
  intro r s' hr
  cases r with
  | ok inbound =>
      obtain ⟨items, raw, block, htalks, hanswered, hlast, harrived, -⟩ := hr
      rw [hbefore.codec] at hanswered harrived
      exact ⟨items, hbefore.trans htalks, hanswered, raw, block, hlast, harrived⟩
  | error stop =>
      obtain ⟨horderly, items, htalks, htries⟩ := hr
      rw [hbefore.codec] at htries
      exact ⟨items, hbefore.trans htalks, horderly, htries⟩

/-- One attempt to resynchronise succeeds, or it was in vain. -/
theorem resyncOnce_spec (hcapacity : Block.longPrologue ≤ s.frame.capacity) :
    Ensures resyncOnce s fun r s' =>
      ∃ outcome items, Talks s (.sent (s.codec.request .resync) outcome :: items) s' ∧
        match r with
        | .ok () => Resyncs s.codec (.sent (s.codec.request .resync) outcome :: items)
        | .error stop => stop ≠ .crashed ∧ ∀ x ∈ items, InVain s.codec x := by
  unfold resyncOnce
  rw [ensures_get_bind, ← bind_assoc]
  refine (ask_spec hcapacity (sendRequest_spec .resync)).bind ?_ ?_
  · intro inbound s₁ hend
    obtain ⟨-, outcome, asides, hasides, raw, block, htalks, harrived⟩ := hend
    split
    · rename_i hother
      refine ⟨outcome, _, htalks, nofun, fun x hx => ?_⟩
      rcases List.mem_append.mp hx with hx | hx
      · exact .aside (hasides x hx)
      · rw [List.mem_singleton.mp hx]
        exact .other harrived.decode fun h => hother (harrived.control.trans h)
    · rename_i hanswer
      refine ⟨outcome, _, htalks, .intro outcome hasides harrived.decode ?_⟩
      exact harrived.control.symm.trans (Decidable.not_not.mp hanswer)
  · intro stop s₁ hend
    obtain ⟨-, outcome, asides, hasides, hordinary, htalks⟩ := hend
    refine ⟨outcome, asides, htalks, ?_, fun x hx => .aside (hasides x hx)⟩
    intro hcrashed
    subst hcrashed
    exact hordinary

/-- The interface answers, and what it tells about itself is kept. The payload is still in the frame
when it is read. -/
theorem resetInterface_spec (hcapacity : Block.longPrologue ≤ s.frame.capacity) :
    Ensures resetInterface s fun r s' =>
      ∃ items, match r with
        | .ok () => ∃ s₁ codec answer, Talks s items s₁ ∧ s' = { s₁ with codec, answer } ∧
            Answered s.codec (s.codec.request .softReset) (.response .softReset) items
        | .error stop => stop.IsOrderly s' ∧ Talks s items s' := by
  unfold resetInterface
  refine (supervise_spec .softReset hcapacity).bind ?_ ?_
  · intro inbound s₁ hend
    obtain ⟨items, htalks, hanswered, raw, block, -, harrived⟩ := hend
    have hpayload := harrived.payload
    rw [← harrived.used] at hpayload
    rw [ensures_get_bind, hpayload]
    dsimp only
    split
    · exact ⟨items, s₁, _, _, htalks, rfl, hanswered⟩
    · exact ⟨items, s₁, s₁.codec, none, htalks, rfl, hanswered⟩
  · intro stop s₁ hend
    obtain ⟨items, htalks, horderly, -⟩ := hend
    exact ⟨items, horderly, htalks⟩

end Step

namespace Session

open SecureElement.Action

variable {L : Type} [Link L]

/-! ## Recovery -/

/-- Of all attempts only the last can succeed. -/
theorem resyncAttempts_spec :
    ∀ (n : Nat) (s : Session (Traced L)), Block.longPrologue ≤ s.frame.capacity →
      Ensures (resyncAttempts n) s fun r s' =>
        ∃ items, Talks s items s' ∧
          match r with
          | .ok false => Attempts s.codec n items
          | .ok true => ∃ m vain last, m < n ∧ items = vain ++ last ∧ Attempts s.codec m vain ∧
              Resyncs s.codec last
          | .error stop => stop = .stalled
  | 0, s, _ => ⟨[], Talks.refl s, .none⟩
  | n + 1, s, hcapacity => by
      unfold resyncAttempts
      refine Step.ensures_conclude (Step.resyncOnce_spec hcapacity) ?_ ?_ ?_ ?_
      · intro u s₁ hend
        obtain ⟨outcome, items, htalks, hresyncs⟩ := hend
        exact ⟨_, htalks, 0, [], _, Nat.succ_pos n, rfl, .none, hresyncs⟩
      -- a fault of one attempt, major or minor, only means that the next one starts
      · intro setback s₁ hend
        obtain ⟨outcome, front, htalks, -, hvain⟩ := hend
        refine (resyncAttempts_spec n s₁ (htalks.holds hcapacity)).mono ?_
        intro r s₂ hend
        obtain ⟨items, htalks', hr⟩ := hend
        rw [htalks.codec] at hr
        refine ⟨_, htalks.trans htalks', ?_⟩
        match r with
        | .ok false => exact .one outcome hvain hr
        | .ok true =>
            obtain ⟨m, vain, last, hm, rfl, hattempts, hresyncs⟩ := hr
            refine ⟨m + 1, _, last, Nat.succ_lt_succ hm, ?_, .one outcome hvain hattempts, hresyncs⟩
            simp
        | .error stop => exact hr
      · intro s₁ hend
        obtain ⟨outcome, front, -, hcrashed, -⟩ := hend
        exact absurd rfl hcrashed
      · intro s₁ hend
        obtain ⟨outcome, front, htalks, -, -⟩ := hend
        exact ⟨_, htalks, rfl⟩

end Session

end SecureElement
