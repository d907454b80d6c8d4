import SecureElement.Proofs.Connections

/-!
# What is sent to the proxy

A message goes out in as many pieces as the network takes it in, and a write can fail
when some of them are gone. `Entry.Posts` is what each call sends, on its own: a write
that succeeds its whole message, a write that fails less than that, and any other call
nothing. Every call of every run does so (`Run.posts`).

What was sent over a connection is those pieces in their order. As long as nothing is
written behind a message that broke off they are whole messages, and at most one part of
a message at the end (`whole_messages`). A link does not see to that by itself: a write
that fails leaves the connection as it is, and the next one sends its message right
behind the part that is out (`messages_torn`).
-/

namespace SecureElement.Proxy

open Network

namespace Entry

/-- What a call may have sent: a write that succeeds its whole message, one that fails less than
that, and any other call nothing. -/
def Posts (entry : Entry) : Prop :=
  match entry.call with
  | .write bytes _ (.ok n) =>
    n = bytes.length ∧ bytes.length ≤ messageMax ∧ entry.sent = message bytes
  | .write bytes _ (.error _) =>
    Breaks entry.sent (message bytes) ∧ (entry.sent ≠ [] → bytes.length ≤ messageMax)
  | _ => entry.sent = []

/-- The octets that a write succeeded to send. -/
def posted (entry : Entry) : List Bytes :=
  match entry.call with
  | .write bytes _ (.ok _) => [bytes]
  | _ => []

def IsWrite (entry : Entry) : Prop :=
  match entry.call with
  | .write .. => True
  | _ => False

/-- A write that failed with a part of its message on the way. -/
def IsTorn (entry : Entry) : Prop :=
  entry.sent ≠ [] ∧ ∃ bytes timeout fault, entry.call = .write bytes timeout (.error fault)

variable {entry : Entry}

/-- A call that did not break off sent whole messages. -/
theorem Posts.whole (h : entry.Posts) (hwhole : ¬ entry.IsTorn) :
    entry.sent = entry.posted.flatMap message := by
  obtain ⟨call, events⟩ := entry
  cases call with
  | write bytes timeout outcome =>
      cases outcome with
      | ok n =>
          obtain ⟨-, -, hsent⟩ := h
          exact hsent.trans (List.append_nil _).symm
      | error fault =>
          by_cases hsent : sent ⟨.write bytes timeout (.error fault), events⟩ = []
          · exact hsent
          · exact absurd ⟨hsent, bytes, timeout, fault, rfl⟩ hwhole
  | bringUp | read | release => exact h

theorem Posts.idle (h : entry.Posts) (hother : ¬ entry.IsWrite) :
    entry.sent = [] ∧ entry.posted = [] := by
  obtain ⟨call, events⟩ := entry
  cases call with
  | write => exact absurd trivial hother
  | bringUp | read | release => exact ⟨h, rfl⟩

end Entry

/-- Calls that were made over one connection, up to some moment. -/
def Over (entries calls : List Entry) : Prop :=
  ∃ before first after, entries = before ++ first :: (calls ++ after) ∧
    first.connects = true ∧ ∀ entry ∈ calls, entry.connects = false

/-- The octets that calls put on their way. -/
def outgoing (calls : List Entry) : Bytes := calls.flatMap Entry.sent

/-- The octets that writes succeeded to send, one row for each of them. -/
def posted (calls : List Entry) : List Bytes := calls.flatMap Entry.posted

variable {N : Type} [Network N] {address : Address} {entries calls : List Entry}
  {c : Client (Traced N)}

theorem Over.subset (h : Over entries calls) : calls ⊆ entries := by
  obtain ⟨before, first, after, rfl, -⟩ := h
  intro entry hentry
  exact List.mem_append_right _ (List.mem_cons_of_mem _ (List.mem_append_left _ hentry))

/-- **What each call sends.** -/
theorem noted_posts (c : Client (Traced N)) (call : Link.Call) : (c.noted call).Posts := by
  cases call with
  | bringUp =>
      obtain ⟨events, hevents, hcases⟩ := c.connect_spec
      rw [c.noted_eq .bringUp hevents]
      show Network.sent events = []
      rcases hcases with ⟨-, rfl, -⟩ | ⟨-, rfl, -⟩ | ⟨-, error, fault, rfl, -⟩ <;> rfl
  | write bytes timeout =>
      obtain ⟨events, hevents, -, -, hsent⟩ := c.write_spec bytes timeout
      rw [c.noted_eq (.write bytes timeout) hevents]
      show Entry.Posts ⟨.write bytes timeout (c.write bytes timeout).1, events⟩
      cases hwritten : (c.write bytes timeout).1 with
      | ok n => rw [hwritten] at hsent; exact hsent
      | error fault => rw [hwritten] at hsent; exact hsent
  | read length timeout =>
      obtain ⟨events, hevents, hquiet, -⟩ := c.read_spec length timeout
      rw [c.noted_eq (.read length timeout) hevents]
      exact sent_of_receives hquiet
  | release =>
      rw [c.noted_eq .release c.disconnect_events]
      show Network.sent (if c.isConnected then [.shutdown] else []) = []
      split <;> rfl

/-- **In every run every call sends what it may.** -/
theorem Run.posts (h : Run address entries c) : ∀ entry ∈ entries, entry.Posts := by
  induction h with
  | created net => exact List.forall_mem_nil _
  | @called entries c call _ ih =>
      exact List.forall_mem_append.mpr ⟨ih, List.forall_mem_singleton.mpr (noted_posts c call)⟩
  | changed net _ ih => exact ih

/-- What is sent by calls of which none writes behind a message that broke off. -/
theorem outgoing_whole (hposts : ∀ entry ∈ calls, entry.Posts)
    (hcareful : calls.Pairwise fun earlier later => earlier.IsTorn → ¬ later.IsWrite) :
    ∃ rest, outgoing calls = (posted calls).flatMap message ++ rest ∧
      (rest = [] ∨ ∃ entry ∈ calls, entry.IsTorn ∧ rest = entry.sent) := by
  induction calls with
  | nil => exact ⟨[], rfl, .inl rfl⟩
  | cons entry calls ih =>
      obtain ⟨hfirst, hposts⟩ := List.forall_mem_cons.mp hposts
      obtain ⟨hbehind, hcareful⟩ := List.pairwise_cons.mp hcareful
      have houtgoing : outgoing (entry :: calls) = entry.sent ++ outgoing calls := rfl
      have hposted : posted (entry :: calls) = entry.posted ++ posted calls := rfl
      by_cases htorn : entry.IsTorn
      · -- nothing is written any more, so the part of a message stays the last thing sent
        have hidle : ∀ later ∈ calls, later.sent = [] ∧ later.posted = [] := fun later hlater =>
          (hposts later hlater).idle (hbehind later hlater htorn)
        have hnothing : outgoing calls = [] :=
          List.flatMap_eq_nil_iff.mpr fun later hlater => (hidle later hlater).1
        have hnone : posted calls = [] :=
          List.flatMap_eq_nil_iff.mpr fun later hlater => (hidle later hlater).2
        have hfailed : entry.posted = [] := by
          obtain ⟨-, bytes, timeout, fault, hcall⟩ := htorn
          unfold Entry.posted
          rw [hcall]
        refine ⟨entry.sent, ?_, .inr ⟨entry, List.mem_cons_self, htorn, rfl⟩⟩
        rw [houtgoing, hposted, hnothing, hnone, hfailed, List.append_nil]
        rfl
      · obtain ⟨rest, hrest, hend⟩ := ih hposts hcareful
        refine ⟨rest, ?_, hend.imp_right fun ⟨later, hlater, htold⟩ =>
          ⟨later, List.mem_cons_of_mem _ hlater, htold⟩⟩
        rw [houtgoing, hposted, hrest, hfirst.whole htorn, List.flatMap_append, List.append_assoc]

/--
**What is sent over a connection are whole messages**, one for each write that succeeded and in
their order, and behind them at most a part of one message, as long as nothing is written
behind a message that broke off. In any case each call by itself sends its whole message,
or less than that if it fails, or nothing.
-/
theorem whole_messages (h : Run address entries c) (hover : Over entries calls) :
    (∀ entry ∈ calls, entry.Posts) ∧
      (calls.Pairwise (fun earlier later => earlier.IsTorn → ¬ later.IsWrite) →
        ∃ rest, outgoing calls = (posted calls).flatMap message ++ rest ∧
          (rest = [] ∨ ∃ bytes, bytes.length ≤ messageMax ∧ Breaks rest (message bytes))) := by
  have hposts : ∀ entry ∈ calls, entry.Posts := fun entry hentry =>
    h.posts entry (hover.subset hentry)
  refine ⟨hposts, fun hcareful => ?_⟩
  obtain ⟨rest, hrest, hend⟩ := outgoing_whole hposts hcareful
  refine ⟨rest, hrest, hend.imp_right ?_⟩
  rintro ⟨entry, hentry, ⟨hsent, bytes, timeout, fault, hcall⟩, rfl⟩
  have hpart := hposts entry hentry
  unfold Entry.Posts at hpart
  rw [hcall] at hpart
  exact ⟨bytes, hpart.2 hsent, hpart.1⟩

/-! ## Writes that break off -/

/-- A link over a network that takes octets as laid down. -/
def taking (sends : List (Except Network.Error (Option Nat))) : Client (Traced Rehearsal) where
  net := { net := { sends } }
  address := default

/-- A connection is made, and two writes. -/
def twoWrites (sends : List (Except Network.Error (Option Nat))) :
    List Entry × Client (Traced Rehearsal) :=
  (taking sends).makeAll [.bringUp, .write [0xa1] 0, .write [0xb2] 0]

theorem run_twoWrites (sends : List (Except Network.Error (Option Nat))) :
    Run default (twoWrites sends).1 (twoWrites sends).2 := by
  have hstart : Run default [] (taking sends) := .created _
  exact hstart.makeAll [.bringUp, .write [0xa1] 0, .write [0xb2] 0]

/-- The second of two writes breaks off after two octets. -/
theorem whole_messages_breaking :
    ∃ (entries calls : List Entry) (c : Client (Traced Rehearsal)), Run default entries c ∧
      Over entries calls ∧
      calls.Pairwise (fun earlier later => earlier.IsTorn → ¬ later.IsWrite) ∧
      (∃ rest, outgoing calls = (posted calls).flatMap message ++ rest ∧
        (rest = [] ∨ ∃ bytes, bytes.length ≤ messageMax ∧ Breaks rest (message bytes))) ∧
      posted calls = [[0xa1]] ∧ outgoing calls = message [0xa1] ++ [0x01, 0x00] := by
  have hrun := run_twoWrites [.ok none, .ok (some 2), .error .wouldBlock]
  have hover : Over (twoWrites [.ok none, .ok (some 2), .error .wouldBlock]).1
      (twoWrites [.ok none, .ok (some 2), .error .wouldBlock]).1.tail :=
    ⟨[], _, [], rfl, rfl, by decide⟩
  have hcareful : (twoWrites [.ok none, .ok (some 2), .error .wouldBlock]).1.tail.Pairwise
      fun earlier later => earlier.IsTorn → ¬ later.IsWrite := by
    refine List.pairwise_cons.mpr ⟨fun later _ htorn => ?_, List.pairwise_singleton _ _⟩
    obtain ⟨-, bytes, timeout, fault, hcall⟩ := htorn
    exact absurd hcall nofun
  exact ⟨_, _, _, hrun, hover, hcareful, (whole_messages hrun hover).2 hcareful, by decide,
    by decide⟩

/-- **A message can be torn.** The first of two writes breaks off after two octets, and the second
one sends its message behind them: what was sent does not begin with the only message that was
written with success. -/
theorem messages_torn :
    ∃ (entries calls : List Entry) (c : Client (Traced Rehearsal)), Run default entries c ∧
      Over entries calls ∧ ¬ ∃ rest, outgoing calls = (posted calls).flatMap message ++ rest := by
  refine ⟨_, (twoWrites [.ok (some 2), .error .wouldBlock]).1.tail, _,
    run_twoWrites [.ok (some 2), .error .wouldBlock], ⟨[], _, [], rfl, rfl, by decide⟩, ?_⟩
  have houtgoing : outgoing (twoWrites [.ok (some 2), .error .wouldBlock]).1.tail
      = [0x01, 0x00] ++ message [0xb2] := by decide
  have hposted : posted (twoWrites [.ok (some 2), .error .wouldBlock]).1.tail = [[0xb2]] := by
    decide
  rw [houtgoing, hposted]
  rintro ⟨rest, hrest⟩
  have hfront := congrArg (List.take 4) hrest
  rw [List.take_left' (show ([[0xb2]].flatMap message).length = 4 from rfl)] at hfront
  exact absurd hfront (by decide)

end SecureElement.Proxy
