import SecureElement.Proofs.Agreement
import SecureElement.Proofs.Contents
import SecureElement.Proofs.Equipment

/-!
# What an exchange looks at

A session carries a lot along that an exchange never looks at: what its buffers held
before, and cells that are not in use at all. The `outline` of a session leaves out what a
`Scope` does not show, and two sessions `Coincide` in a scope if their outlines in it are
the same.

An action that goes the same way in two sessions that coincide in one scope leaves
sessions that coincide in another: `Leads` says in which one after a value, and in which
one after a stop. Before a block is received nothing has to be known of the frame, and
once it is received the frame is in scope (`awaitBlock_leads`). A read that breaks off may
bring unused cells to light, so after a fault the frame is out of scope again.
-/

namespace SecureElement

/-! ## Buffers -/

namespace Buffer

variable {b b' : Buffer} {n : Nat} {bytes : Bytes} {shown : Bool}

/-- A buffer of the same size, with the same contents if they are shown. -/
def outline (shown : Bool) (b : Buffer) : Buffer :=
  match shown with
  | true => { top := b.top, stale := [], blank := b.room }
  | false => empty b.capacity

/-- Two buffers hold the same and are of one size. -/
def Alike (b b' : Buffer) : Prop := b'.outline true = b.outline true

@[simp] theorem capacity_outline (shown : Bool) (b : Buffer) :
    (b.outline shown).capacity = b.capacity := by
  cases shown with
  | false => exact capacity_empty _
  | true =>
      unfold outline capacity
      dsimp only [room]
      rw [List.length_nil, Nat.zero_add]

@[simp] theorem used_outline (b : Buffer) : (b.outline true).used = b.used := rfl

theorem outline_eq_iff : b'.outline shown = b.outline shown ↔
    b'.capacity = b.capacity ∧ (shown = true → b'.used = b.used) := by
  constructor
  · intro h
    refine ⟨by rw [← capacity_outline shown b', h, capacity_outline], ?_⟩
    rintro rfl
    rw [← used_outline b', h, used_outline]
  · rintro ⟨hcapacity, hused⟩
    cases shown with
    | false => exact congrArg empty hcapacity
    | true =>
        have htop : b'.top = b.top := List.reverse_injective (hused rfl)
        have hroom : b'.room = b.room := by
          unfold capacity at hcapacity
          rw [htop] at hcapacity
          exact Nat.add_left_cancel hcapacity
        unfold outline
        rw [htop, hroom]

theorem Alike.capacity (h : Alike b b') : b'.capacity = b.capacity := (outline_eq_iff.mp h).1

theorem Alike.used (h : Alike b b') : b'.used = b.used := (outline_eq_iff.mp h).2 rfl

theorem Alike.outline (h : Alike b b') (shown : Bool) : b'.outline shown = b.outline shown :=
  outline_eq_iff.mpr ⟨h.capacity, fun _ => h.used⟩

/-- Buffers of one size are alike once they are cleared. -/
theorem alike_clear (h : b'.capacity = b.capacity) : Alike b.clear b'.clear :=
  outline_eq_iff.mpr ⟨by rw [capacity_clear, capacity_clear, h], fun _ => by
    rw [used_clear, used_clear]⟩

/-- The same claim is refused by both in the same words, or granted by both. Cells that are written
over completely are alike again. -/
theorem Alike.claim (h : Alike b b') (n : Nat) :
    (∃ overflow, b.claim n = .error overflow ∧ b'.claim n = .error overflow) ∨
    ∃ claimed claimed', b.claim n = .ok claimed ∧ b'.claim n = .ok claimed' ∧
      ∀ bytes : Bytes, (claimed'.setTail n bytes).capacity = (claimed.setTail n bytes).capacity ∧
        (bytes.length = n → Alike (claimed.setTail n bytes) (claimed'.setTail n bytes)) := by
  have htop : b'.top = b.top := List.reverse_injective h.used
  have hroom : b'.room = b.room := by
    have hb := b.length_used_add_room
    have hb' := b'.length_used_add_room
    rw [h.capacity, h.used] at hb'
    omega
  by_cases hn : n ≤ b.room
  · right
    have hclaim : ∃ claimed, b.claim n = .ok claimed := ⟨_, if_pos hn⟩
    have hclaim' : ∃ claimed', b'.claim n = .ok claimed' := ⟨_, if_pos (hroom ▸ hn)⟩
    obtain ⟨claimed, hclaim⟩ := hclaim
    obtain ⟨claimed', hclaim'⟩ := hclaim'
    refine ⟨claimed, claimed', hclaim, hclaim', fun bytes => ?_⟩
    have hcapacity : (claimed'.setTail n bytes).capacity = (claimed.setTail n bytes).capacity := by
      rw [capacity_setTail_claim hclaim, capacity_setTail_claim hclaim', h.capacity]
    refine ⟨hcapacity, fun hlength => outline_eq_iff.mpr ⟨hcapacity, fun _ => ?_⟩⟩
    rw [used_setTail_claim hclaim hlength, used_setTail_claim hclaim' hlength, h.used]
  · left
    refine ⟨_, if_neg hn, ?_⟩
    unfold Buffer.claim
    rw [if_neg (hroom ▸ hn), h.capacity, htop]

theorem Alike.append (h : Alike b b') (bytes : Bytes) :
    (∃ overflow, b.append bytes = .error overflow ∧ b'.append bytes = .error overflow) ∨
    ∃ c c', b.append bytes = .ok c ∧ b'.append bytes = .ok c' ∧ Alike c c' := by
  unfold Buffer.append
  rcases h.claim bytes.length with ⟨overflow, hb, hb'⟩ | ⟨claimed, claimed', hb, hb', hfilled⟩
  · left
    rw [hb, hb']
    exact ⟨overflow, rfl, rfl⟩
  · right
    rw [hb, hb']
    exact ⟨_, _, rfl, rfl, (hfilled bytes).2 rfl⟩

/-- Buffers of one size are alike once a writer has filled both with the same, or has refused
both. -/
theorem fill_alike {ε : Type} {writer : Buffer → Except ε Nat × Bytes}
    (h : b'.capacity = b.capacity) (hsame : writer b'.clear = writer b.clear)
    (hfits : ∀ n, (writer b.clear).1 = .ok n → (writer b.clear).2.length = n ∧ n ≤ b.capacity) :
    (b'.fill writer).1 = (b.fill writer).1 ∧ Alike (b.fill writer).2 (b'.fill writer).2 := by
  have hcapacity : (b'.fill writer).2.capacity = (b.fill writer).2.capacity := by
    rw [capacity_fill, capacity_fill, h]
  cases houtcome : (writer b.clear).1 with
  | error fault =>
      have houtcome' : (writer b'.clear).1 = .error fault := hsame ▸ houtcome
      rw [fill_refused houtcome, fill_refused houtcome']
      refine ⟨rfl, outline_eq_iff.mpr ⟨hcapacity, fun _ => ?_⟩⟩
      rw [used_fill_refused houtcome, used_fill_refused houtcome']
  | ok n =>
      obtain ⟨hlength, hroom⟩ := hfits n houtcome
      have hwritten : writer b.clear = (.ok (writer b.clear).2.length, (writer b.clear).2) :=
        Prod.ext (by rw [houtcome, hlength]) rfl
      obtain ⟨hok, hused⟩ := used_fill hwritten (hlength ▸ hroom)
      obtain ⟨hok', hused'⟩ := used_fill (hsame.trans hwritten) (by rw [h, hlength]; exact hroom)
      rw [hok, hok']
      exact ⟨rfl, outline_eq_iff.mpr ⟨hcapacity, fun _ => hused'.trans hused.symm⟩⟩

end Buffer

/-! ## Sessions -/

namespace Session

variable {L : Type} {s t : Session L}

/-- What two sessions have to have in common in the middle of an exchange. -/
structure Scope where
  /-- How the responses of the two are related. -/
  response : Buffer → Buffer → Prop
  /-- Whether the command buffer is shown. -/
  command : Bool
  /-- Whether the receive frame is shown. -/
  frame : Bool
  /-- What may be parked. -/
  parked : Option (Except Setback Inbound) → Prop
  status : Status

namespace Scope

/-- The scope in which the receive frame is shown. -/
def framed (k : Scope) : Scope := { k with frame := true }

/-- The scope in which the receive frame is not shown. -/
def unframed (k : Scope) : Scope := { k with frame := false }

/-- The scope in which the command buffer is shown. -/
def staged (k : Scope) : Scope := { k with command := true }

/-- The scope in which nothing is parked. -/
def vacant (k : Scope) : Scope := { k with parked := fun parked => parked = none }

/-- The scope in which the receive frame is not shown and anything may be parked. -/
def lost (k : Scope) : Scope := { k with frame := false, parked := fun _ => True }

/-- The scope in which the responses are alike. -/
def cleared (k : Scope) : Scope := { k with response := Buffer.Alike }

/-- A block that is parked is shown. -/
def Holds (k : Scope) : Prop := ∀ inbound, k.parked (some (.ok inbound)) → k.frame = true

end Scope

/-- A session as far as its command buffer and its frame are shown. The response has its place in
`Scope.response`. -/
def outline (command frame : Bool) (s : Session L) : Session L :=
  { s with
    response := s.response.outline false
    command := s.command.outline command
    frame := s.frame.outline frame }

/-- The two sessions are the same as far as the scope goes. -/
structure Coincide (k : Scope) (s t : Session L) : Prop where
  outline : t.outline k.command k.frame = s.outline k.command k.frame
  response : k.response s.response t.response
  parked : k.parked s.parked
  status : s.status = k.status
  /-- A command that the peer may ask for again is shown. -/
  pending : s.commandPending = true → k.command = true

variable {k : Scope}

/-- What does not depend on a buffer is the same. -/
theorem Coincide.congr {β : Sort*} (h : Coincide k s t) (f : Session L → β)
    (hsame : ∀ s : Session L, f (s.outline k.command k.frame) = f s) : f t = f s := by
  rw [← hsame t, h.outline, hsame s]

/-- The second session is the first with other buffers. -/
theorem Coincide.exists_eq (h : Coincide k s t) :
    ∃ response command frame, t = { s with response, command, frame } := by
  refine ⟨t.response, t.command, t.frame, ?_⟩
  exact h.congr (fun o : Session L =>
    { o with response := t.response, command := t.command, frame := t.frame }) fun _ => rfl

theorem Coincide.response_capacity (h : Coincide k s t) :
    t.response.capacity = s.response.capacity :=
  h.congr (fun s => s.response.capacity) fun _ => Buffer.capacity_outline _ _

theorem Coincide.command_capacity (h : Coincide k s t) :
    t.command.capacity = s.command.capacity :=
  h.congr (fun s => s.command.capacity) fun _ => Buffer.capacity_outline _ _

theorem Coincide.frame_capacity (h : Coincide k s t) : t.frame.capacity = s.frame.capacity :=
  h.congr (fun s => s.frame.capacity) fun _ => Buffer.capacity_outline _ _

theorem Coincide.command_used (h : Coincide k s t) (hcommand : k.command = true) :
    t.command.used = s.command.used :=
  h.congr (fun s => s.command.used) fun _ => by rw [hcommand]; rfl

theorem Coincide.frame_alike (h : Coincide k.framed s t) : Buffer.Alike s.frame t.frame :=
  Buffer.outline_eq_iff.mpr
    ⟨h.frame_capacity, fun _ => h.congr (fun s => s.frame.used) fun _ => rfl⟩

/-- Whatever was there, another frame takes its place. -/
theorem Coincide.withFrame (h : Coincide k s t) {frame frame' : Buffer} {shown : Bool}
    (hframe : frame'.outline shown = frame.outline shown) :
    Coincide { k with frame := shown } { s with frame } { t with frame := frame' } where
  outline := by
    have hrest := congrArg (fun o => { o with frame := frame.outline shown }) h.outline
    refine Eq.trans ?_ hrest
    rw [← hframe]
    rfl
  response := h.response
  parked := h.parked
  status := h.status
  pending := h.pending

/-- Whatever was there, another command takes its place. -/
theorem Coincide.withCommand (h : Coincide k s t) {command command' : Buffer}
    (hcommand : Buffer.Alike command command') :
    Coincide k.staged { s with command } { t with command := command' } where
  outline := by
    have hrest := congrArg (fun o => { o with command := command.outline true }) h.outline
    refine Eq.trans ?_ hrest
    rw [← hcommand]
    rfl
  response := h.response
  parked := h.parked
  status := h.status
  pending := fun _ => rfl

theorem Coincide.unframed (h : Coincide k s t) : Coincide k.unframed s t :=
  h.withFrame (Buffer.outline_eq_iff.mpr ⟨h.frame_capacity, nofun⟩)

theorem Coincide.lost (h : Coincide k s t) : Coincide k.lost s t :=
  { h.unframed with parked := trivial }

theorem Coincide.clear_frame (h : Coincide k s t) :
    Coincide k.framed { s with frame := s.frame.clear } { t with frame := t.frame.clear } :=
  h.withFrame (Buffer.alike_clear h.frame_capacity)

/-- Whatever was there, another response takes its place. -/
theorem Coincide.withResponse (h : Coincide k s t) {response response' : Buffer}
    (hresponse : Buffer.Alike response response') :
    Coincide k.cleared { s with response } { t with response := response' } where
  outline := by
    have hrest := congrArg (fun o => { o with response := response.outline false }) h.outline
    refine Eq.trans ?_ hrest
    rw [← hresponse.outline]
    rfl
  response := hresponse
  parked := h.parked
  status := h.status
  pending := h.pending

theorem Coincide.clear_response (h : Coincide k s t) :
    Coincide k.cleared { s with response := s.response.clear }
      { t with response := t.response.clear } :=
  h.withResponse (Buffer.alike_clear h.response_capacity)

/-- What was parked is taken away. -/
theorem Coincide.vacate (h : Coincide k s t) :
    Coincide k.vacant { s with parked := none } { t with parked := none } where
  outline := congrArg (fun o => { o with parked := none }) h.outline
  response := h.response
  parked := rfl
  status := h.status
  pending := h.pending

/-- Nobody may ask for the command again. -/
theorem Coincide.settle (h : Coincide k s t) :
    Coincide k { s with commandPending := false } { t with commandPending := false } where
  outline := congrArg (fun o => { o with commandPending := false }) h.outline
  response := h.response
  parked := h.parked
  status := h.status
  pending := nofun

/-- The status is the same before and after. -/
theorem Coincide.withStatus (h : Coincide k s t) (status : Status) :
    Coincide { k with status } { s with status } { t with status } where
  outline := congrArg (fun o => { o with status }) h.outline
  response := h.response
  parked := h.parked
  status := rfl
  pending := h.pending

/-- The same change on both sides, beside the buffers and what is said of them. -/
theorem Coincide.change (h : Coincide k s t) (g : Session L → Session L)
    (hsame : ∀ s : Session L, (g s).outline k.command k.frame = g (s.outline k.command k.frame))
    (hkept : ∀ s, g s = { g s with
      response := s.response
      parked := s.parked
      status := s.status
      commandPending := s.commandPending }) : Coincide k (g s) (g t) where
  outline := by rw [hsame, hsame, h.outline]
  response := by
    rw [hkept s, hkept t]
    exact h.response
  parked := by
    rw [hkept s]
    exact h.parked
  status := by
    rw [hkept s]
    exact h.status
  pending := by
    rw [hkept s]
    exact h.pending

end Session

/-- What was read without a fault is as much as was asked for. -/
theorem Link.readUpTo_length {L : Type} [Link L] (timeout : Nanos) :
    ∀ (calls n : Nat) (link : L), (readUpTo timeout calls n link).1.2 = none →
      (readUpTo timeout calls n link).1.1.length = n
  | calls, 0, link, _ => by
      have hnone : readUpTo timeout calls 0 link = (([], none), link) := by cases calls <;> rfl
      rw [hnone]
      rfl
  | 0, n + 1, _, h => absurd h nofun
  | calls + 1, n + 1, link, h => by
      unfold readUpTo at h ⊢
      split at h
      · exact absurd h nofun
      · exact absurd h nofun
      · rename_i bytes link' hsome hread
        have hmore := readUpTo_length timeout calls (n + 1 - (bytes.take (n + 1)).length) link' h
        have hpart : (bytes.take (n + 1)).length ≤ n + 1 := List.length_take_le _ _
        dsimp only
        rw [List.length_append, hmore]
        omega

open SecureElement.Action Session

namespace Action

variable {ε L α β : Type} {k k₁ k₂ kf : Scope}

/-- The scope in which two sessions coincide after a value, and the one after a stop. -/
def Reaches (k kf : Scope) : Except (Stop ε) α → Session L → Session L → Prop
  | .ok _ => Coincide k
  | .error _ => Coincide kf

/-- The action goes the same way in two sessions that coincide in the first scope. They then
coincide in the second one, or in the third if the action stops. -/
def Leads (k k₁ kf : Scope) (x : Action ε L α) : Prop :=
  ∀ s t, Coincide k s t → Agree x s x t (Reaches k₁ kf)

theorem Leads.agree {x : Action ε L α} {s t : Session L} (hx : Leads k k₁ kf x)
    (h : Coincide k s t) : Agree x s x t (Reaches k₁ kf) := hx s t h

theorem Leads.bind {x : Action ε L β} {f : β → Action ε L α} (hx : Leads k k₁ kf x)
    (hf : ∀ b, Leads k₁ k₂ kf (f b)) : Leads k k₂ kf (x >>= f) := fun s t h =>
  (hx s t h).bind (fun b s' t' h' => hf b s' t' h') fun _ _ _ h' => h'

theorem leads_pure (a : α) : Leads k k kf (pure a : Action ε L α) := fun _ _ h => ⟨rfl, h⟩

theorem leads_fail (reason : ε) : Leads kf k kf (fail reason : Action ε L α) :=
  fun _ _ h => ⟨rfl, h⟩

/-- Less has to be known at the end. -/
theorem Leads.mono {k' kf' : Scope} {x : Action ε L α} (h : Leads k k₁ kf x)
    (hok : ∀ s t : Session L, Coincide k₁ s t → Coincide k' s t)
    (herror : ∀ s t : Session L, Coincide kf s t → Coincide kf' s t) : Leads k k' kf' x :=
  fun s t hs => (h s t hs).mono fun r s' t' hr => by
    cases r with
    | ok a => exact hok s' t' hr
    | error stop => exact herror s' t' hr

/-- After a stop nothing has to be known of the frame. -/
theorem Leads.unframed {x : Action ε L α} (h : Leads k k₁ kf x) : Leads k k₁ kf.unframed x :=
  h.mono (fun _ _ h => h) fun _ _ h => h.unframed

/-- More may be known at the start. -/
theorem Leads.from_unframed {x : Action ε L α} (h : Leads k.unframed k₁ kf x) : Leads k k₁ kf x :=
  fun s t hs => h s t hs.unframed

theorem leads_get_bind {f : Session L → Action ε L α}
    (hsame : ∀ s : Session L, f (s.outline k.command k.frame) = f s)
    (hf : ∀ s, Leads k k₁ kf (f s)) : Leads k k₁ kf (get >>= f) := by
  intro s t h
  have heq : f t = f s := by rw [← hsame t, h.outline, hsame s]
  rw [agree_get_bind, heq]
  exact hf s s t h

theorem leads_onLink_bind {g : L → β × L} {f : β → Action ε L α}
    (hf : ∀ b, Leads k k₁ kf (f b)) : Leads k k₁ kf (onLink g >>= f) := by
  intro s t h
  obtain ⟨response, command, frame, rfl⟩ := h.exists_eq
  rw [agree_onLink_bind]
  exact hf _ _ _ (h.change (fun s => { s with link := (g s.link).2 }) (fun _ => rfl) fun _ => rfl)

theorem leads_modify {g : Session L → Session L}
    (hg : ∀ s t, Coincide k s t → Coincide k₁ (g s) (g t)) :
    Leads k k₁ kf (modify g : Action ε L PUnit) := fun s t h => ⟨rfl, hg s t h⟩

theorem leads_modify_bind {g : Session L → Session L} {f : PUnit → Action ε L α}
    (hg : ∀ s t, Coincide k s t → Coincide k₁ (g s) (g t)) (hf : ∀ u, Leads k₁ k₂ kf (f u)) :
    Leads k k₂ kf (modify g >>= f) := (leads_modify hg).bind hf

theorem leads_count (g : Statistics → Statistics) :
    Leads k k kf (count g : Action ε L Unit) :=
  leads_modify fun _ _ h => h.change (fun s => { s with statistics := g s.statistics })
    (fun _ => rfl) fun _ => rfl

/-- A change of status that the table allows. -/
theorem leads_moveTo {status : Status} (h : k.status.allows status = true) :
    Leads k { k with status } kf (moveTo status : Action ε L Unit) := by
  intro s t hs
  have hallowed : s.status.allows status = true := hs.status ▸ h
  have hallowed' : t.status.allows status = true := by
    rw [hs.congr Session.status fun _ => rfl]
    exact hallowed
  exact agree_ok (moveTo_eq hallowed) (moveTo_eq hallowed') (hs.withStatus status)

end Action

namespace Step

variable {L α β σ : Type} {k k₁ k₂ kc kf : Scope}

/-- What is known behind a value that was caught, and what behind a fault. -/
def Catches (k kf : Scope) :
    Except (Stop Setback) (Except Setback α) → Session L → Session L → Prop
  | .ok (.ok _) => Coincide k
  | _ => Coincide kf

theorem attempt_caught {step : Step L α} (h : Leads k k₁ kf step) {s t : Session L}
    (hs : Coincide k s t) : Agree (attempt step) s (attempt step) t (Catches k₁ kf) :=
  agree_attempt (h s t hs) (fun _ _ _ h => h) (fun _ _ _ h => h) (fun _ _ h => h) fun _ _ h => h

/-- A step that is caught, and what is done after a value and after a fault. -/
theorem leads_attempt_bind {step : Step L β} {f : Except Setback β → Step L α}
    (hstep : Leads k k₁ kf step) (hvalue : ∀ b, Leads k₁ k₂ kf (f (.ok b)))
    (hfault : ∀ setback, Leads kf k₂ kf (f (.error setback))) :
    Leads k k₂ kf (attempt step >>= f) := by
  intro s t h
  refine (attempt_caught hstep h).bind ?_ fun _ _ _ h => h
  intro outcome s₁ t₁ h₁
  cases outcome with
  | ok b => exact hvalue b s₁ t₁ h₁
  | error setback => exact hfault setback s₁ t₁ h₁

theorem charge_leads (setback : Setback) : Leads k k k (charge setback : Step L Unit) := by
  cases setback with
  | major failure => exact leads_fail _
  | minor failure =>
      intro s t h
      obtain ⟨response, command, frame, rfl⟩ := h.exists_eq
      unfold charge
      rw [agree_get_bind]
      dsimp only
      split
      · exact ⟨rfl, h⟩
      · rw [agree_set_bind]
        have hcharged := h.change (fun s => { s with retries := s.retries + 1 }) (fun _ => rfl)
          fun _ => rfl
        split
        · exact ⟨rfl, hcharged⟩
        · exact leads_count _ _ _ hcharged

theorem orCharge_leads {step : Step L Unit} (h : Leads k k k step) : Leads k k k (orCharge step) :=
  leads_attempt_bind h (fun _ => leads_pure _) charge_leads

variable [Link L]

/-! ## Single blocks -/

theorem transmit_leads (frame : Bytes) : Leads k k k (transmit frame : Step L Unit) := by
  refine (leads_count _).bind fun _ => leads_get_bind (fun _ => rfl) fun s =>
    leads_onLink_bind fun outcome => ?_
  cases outcome with
  | ok u => exact leads_pure _
  | error fault => exact leads_fail _

theorem sendCommand_leads (hcommand : k.command = true) :
    Leads k k k (sendCommand : Step L Unit) := by
  intro s t h
  unfold sendCommand
  rw [agree_get_bind, h.command_used hcommand]
  exact transmit_leads _ s t h

theorem sendControl_leads (block : Block) : Leads k k k (sendControl block : Step L Unit) := by
  refine leads_get_bind (fun _ => rfl) fun s => ?_
  split
  · exact leads_fail _
  · exact transmit_leads _

omit [Link L] in
/-- Whatever was in the command buffer, the staged block takes its place. -/
theorem stage_leads (block : Block) : Leads k k.staged k.staged (stage block : Step L Unit) := by
  intro s t h
  have hcapacity := h.command_capacity
  obtain ⟨response, command, frame, rfl⟩ := h.exists_eq
  unfold stage
  rw [agree_get_bind]
  dsimp only at hcapacity ⊢
  generalize hfill : s.command.fill _ = filled
  generalize hfill' : command.fill _ = filled'
  obtain ⟨houtcome, halike⟩ : filled'.1 = filled.1 ∧ Buffer.Alike filled.2 filled'.2 := by
    rw [← hfill, ← hfill']
    refine Buffer.fill_alike hcapacity ?_ fun n hn => ?_
    · rw [Buffer.capacity_clear, Buffer.capacity_clear, hcapacity]
    · split at hn
      · rename_i frame hencoded
        obtain rfl := Except.ok.inj hn
        rw [Buffer.capacity_clear] at hencoded
        exact ⟨rfl, (Codec.encodeWithin_eq_ok hencoded).2⟩
      · exact absurd hn nofun
  have hstaged := h.withCommand halike
  rw [agree_set_bind, houtcome]
  split
  · exact ⟨rfl, hstaged⟩
  · exact ⟨rfl, hstaged⟩

/-- A read that is granted and comes to its end leaves the frame in scope. -/
theorem readFrame_leads (n : Nat) (timeout : Nanos) :
    Leads k.framed k.framed k.unframed (readFrame n timeout : Step L Unit) := by
  intro s t h
  have halike := h.frame_alike
  obtain ⟨response, command, frame, rfl⟩ := h.exists_eq
  unfold readFrame
  rw [agree_get_bind]
  dsimp only at halike ⊢
  rcases halike.claim n with ⟨overflow, hclaim, hclaim'⟩ |
    ⟨claimed, claimed', hclaim, hclaim', hfilled⟩
  · rw [hclaim, hclaim']
    exact ⟨rfl, h.unframed⟩
  · rw [hclaim, hclaim']
    dsimp only
    rw [agree_onLink_bind]
    dsimp only
    have hread : (Link.readAll n timeout s.link).1.2 = none →
        (Link.readAll n timeout s.link).1.1.length = n := Link.readUpTo_length timeout n n s.link
    generalize Link.readAll n timeout s.link = result at hread ⊢
    obtain ⟨⟨bytes, fault⟩, link⟩ := result
    obtain ⟨hcapacity, hsame⟩ := hfilled bytes
    have hlinked := h.change (fun s => { s with link }) (fun _ => rfl) fun _ => rfl
    cases fault with
    | none =>
        exact ⟨rfl, hlinked.withFrame (hsame (hread rfl))⟩
    | some fault =>
        exact ⟨rfl, hlinked.withFrame (Buffer.outline_eq_iff.mpr ⟨hcapacity, nofun⟩)⟩

theorem discard_leads (timeout : Nanos) : ∀ rounds remaining : Nat,
    Leads k.framed k.framed k.unframed (discard timeout rounds remaining : Step L Unit)
  | 0, _ => leads_pure _
  | rounds + 1, remaining => by
      refine leads_get_bind (fun s => ?_) fun s => ?_
      · simp only [Session.outline, Buffer.capacity_outline]
      · dsimp only
        split
        · exact leads_pure _
        · refine leads_attempt_bind (readFrame_leads _ timeout) (fun _ => ?_) fun setback => ?_
          · exact leads_modify_bind (fun _ _ h => h.clear_frame) fun _ =>
              discard_leads timeout rounds _
          · exact leads_modify fun _ _ h => h.clear_frame

omit [Link L] in
theorem readBlock_leads (start : Nat) :
    Leads k.framed k.framed k.unframed (readBlock start : Step L Inbound) := by
  refine (leads_count _).bind fun _ => leads_get_bind (fun _ => rfl) fun s => ?_
  split
  · exact leads_pure _
  · split
    · exact (leads_count _).bind fun _ => (leads_fail _).unframed
    · exact (leads_fail _).unframed

/-- **A block that is received is in scope**, whatever was in the frame before. -/
theorem receiveBlock_leads (timeout : Nanos) :
    Leads k k.framed k.unframed (receiveBlock timeout : Step L Inbound) := by
  have hprologue : Leads k k.framed k.unframed (readPrologue timeout : Step L Unit) :=
    leads_modify_bind (fun _ _ h => h.clear_frame) fun _ =>
      (readFrame_leads _ timeout).bind fun _ => leads_get_bind (fun _ => rfl) fun _ =>
        readFrame_leads _ timeout
  refine hprologue.bind fun _ => leads_get_bind (fun s => ?_) fun s => ?_
  · simp only [Session.outline, Scope.framed, Buffer.capacity_outline, Buffer.used_outline]
  split
  · exact (leads_fail _).unframed
  · dsimp only
    split
    · exact leads_modify_bind (fun _ _ h => h.clear_frame) fun _ =>
        (discard_leads timeout _ _).bind fun _ => (leads_fail _).unframed
    · exact (readFrame_leads _ timeout).bind fun _ => readBlock_leads _

/-! ## Waiting -/

theorem waitTime_leads (timeout : Nanos) : Leads k k k (waitTime timeout : Step L Nanos) := by
  refine leads_get_bind (fun _ => rfl) fun s => ?_
  split
  · exact leads_pure _
  · dsimp only
    split
    · exact leads_fail _
    · exact leads_pure _

omit [Link L] in
theorem extendWait_leads (multiplier : UInt8) :
    Leads k k k (extendWait multiplier : Step L Nanos) := by
  unfold extendWait
  split
  · exact leads_fail _
  · refine leads_modify_bind (fun _ _ h => h.change (fun s =>
      { s with extension.requests := min (s.extension.requests + 1) Session.counterMax })
      (fun _ => rfl) fun _ => rfl) fun _ s t h => ?_
    obtain ⟨response, command, frame, rfl⟩ := h.exists_eq
    rw [agree_get_bind]
    dsimp only
    split
    · exact ⟨rfl, h⟩
    · rename_i extra total _
      exact ⟨rfl, h.change (fun s => { s with
        extension.granted := total
        statistics.extensions := s.statistics.extensions + 1
        deadline := s.deadline.bind (Time.after? · extra) }) (fun _ => rfl) fun _ => rfl⟩

theorem awaitRound_leads (timeout : Nanos) :
    Leads k k.framed k.unframed (awaitRound timeout : Step L (Nanos ⊕ Inbound)) := by
  refine (waitTime_leads timeout).unframed.bind fun wait =>
    (receiveBlock_leads wait).bind fun inbound => leads_get_bind (fun _ => rfl) fun s => ?_
  split
  · exact (extendWait_leads _).unframed.bind fun _ =>
      (sendControl_leads _).unframed.bind fun _ => leads_pure _
  · split
    · exact leads_pure _
    · exact (sendControl_leads _).unframed.bind fun _ => leads_pure _
  · exact leads_pure _

/-- **The block that is waited for is in scope.** -/
theorem awaitBlock_leads : Leads k k.framed k.unframed (awaitBlock : Step L Inbound) := by
  refine Leads.from_unframed (leads_get_bind (fun _ => rfl) fun s => ?_)
  refine agree_loop (R := Coincide k.unframed) (fun timeout s t h => ?_) (fun _ _ h => h) _ _
  refine (awaitRound_leads timeout s t h).mono ?_
  intro r s' t' hr
  match r with
  | .ok (.inl _) => exact hr.unframed
  | .ok (.inr _) => exact hr
  | .error _ => exact hr

end Step

end SecureElement
