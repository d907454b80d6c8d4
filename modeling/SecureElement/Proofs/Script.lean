import SecureElement.Proofs.Equipment

/-!
# A link that follows a script

A `Script` says what a link brings, one `Arrival` for each wait of the session: a fault, or
all octets of a block. What is handed to the link is always taken and does not change what
comes. Only the states through which the link can get matter, so a script is a set of
states with the arrivals that each has still to bring, closed under what a session does.

Against such a link every step below an exchange is determined. `awaitBlock_heard` is
the sum of it: a wait takes one arrival, and its result is that arrival (`Heard`). The
exceptions are requests of the peer that are answered on the way (`IsServed`) and blocks
that do not fit the frame (`Fits`).
-/

namespace SecureElement

namespace Link

/-- What one wait of a session may come to. -/
inductive Arrival where
  /-- The wait fails. -/
  | fault (fault : Fault)
  /-- These octets arrive. -/
  | block (raw : Bytes)
  deriving Repr, DecidableEq

/-- `Holds link arrivals` says that these arrivals are still to come. Whatever is handed over is
taken, and before each arrival the deadline has not passed. -/
structure Script {L : Type} [Link L] (blockTimeout : Nanos) (deadline : Option Nanos)
    (Holds : L → List Arrival → Prop) : Prop where
  taken : ∀ {link arrivals}, Holds link arrivals → ∀ frame, ∃ link',
    writeAll frame blockTimeout link = (.ok (), link') ∧ Holds link' arrivals
  /-- Whatever had come of a block when the wait failed is lost. -/
  fault : ∀ {link fault arrivals}, Holds link (.fault fault :: arrivals) →
    ∀ timeout, 0 < timeout → timeout ≤ blockTimeout → ∃ octets link',
      readAll Block.shortPrologue timeout link = ((octets, some fault), link')
        ∧ Holds link' arrivals
  /-- A block is read in three pieces: up to its length, up to its payload, and to its end. -/
  block : ∀ {link raw arrivals}, Holds link (.block raw :: arrivals) →
    ∀ timeout, 0 < timeout → timeout ≤ blockTimeout → ∃ link₁ link₂ link₃,
      readAll Block.shortPrologue timeout link = ((raw.take Block.shortPrologue, none), link₁)
        ∧ readAll (Codec.extension (raw.getD 2 0)) timeout link₁
          = (((raw.drop Block.shortPrologue).take (Codec.extension (raw.getD 2 0)), none), link₂)
        ∧ readAll (raw.length - (Block.shortPrologue + Codec.extension (raw.getD 2 0))) timeout
            link₂
          = ((raw.drop (Block.shortPrologue + Codec.extension (raw.getD 2 0)), none), link₃)
        ∧ Holds link₃ arrivals
  inTime : ∀ {link arrival arrivals}, Holds link (arrival :: arrivals) →
    ∀ instant, deadline = some instant → now link < instant

/-- The link has these arrivals still to bring. -/
def Plays {L : Type} [Link L] (blockTimeout : Nanos) (deadline : Option Nanos) (link : L)
    (arrivals : List Arrival) : Prop :=
  ∃ Holds : L → List Arrival → Prop, Script blockTimeout deadline Holds ∧ Holds link arrivals

namespace Arrival

/-- What an exchange makes of an arrival. -/
def heard (c : Codec) : Arrival → Except Setback Control
  | .fault reason => .error (.ofLink reason)
  | .block raw =>
    match c.decode raw with
    | .ok received => .ok received.control
    | .error reason => .error (.minor (.ofBlock reason))

theorem heard_of_decode {c : Codec} {raw : Bytes} {received : Block}
    (h : c.decode raw = .ok received) : (block raw).heard c = .ok received.control := by
  simp only [heard, h]

theorem heard_of_fault {c : Codec} {raw : Bytes} {reason : Block.Fault}
    (h : c.decode raw = .error reason) :
    (block raw).heard c = .error (.minor (.ofBlock reason)) := by
  simp only [heard, h]

/-- The arrival is a whole block, and the frame can hold it. -/
def Fits (e : Epilogue) (capacity : Nat) : Arrival → Prop
  | .fault _ => True
  | .block raw => IsWhole e raw ∧ raw.length ≤ capacity

/-- The arrival is a request that is answered before anything else is made of it. -/
def IsServed (c : Codec) : Arrival → Prop
  | .fault _ => False
  | .block raw => ∃ received, c.decode raw = .ok received ∧
      (received.control = .request .wtx ∨ received.control = .request .ifs ∧ received.payload ≠ [])

/-- A block of any other type is left to the exchange. -/
theorem unserved {c : Codec} {raw : Bytes} {block : Block} (h : c.decode raw = .ok block)
    (hwtx : block.control ≠ .request .wtx) (hifs : block.control ≠ .request .ifs) :
    ¬ (Arrival.block raw).IsServed c := by
  rintro ⟨received, hreceived, hserved⟩
  obtain rfl := Except.ok.inj (h.symm.trans hreceived)
  rcases hserved with hserved | ⟨hserved, -⟩
  · exact hwtx hserved
  · exact hifs hserved

end Arrival

end Link

open Link

namespace Step

open SecureElement.Action Session

variable {L : Type} {s s' : Session L}

/-- Nothing but the link, the frame and the counts has changed, and so many tries are counted. -/
def Advances (s : Session L) (n : Nat) (s' : Session L) : Prop :=
  ∃ link frame retries statistics, s' = { s with link, frame, retries, statistics }
    ∧ frame.capacity = s.frame.capacity
    ∧ statistics.retransmissions = s.statistics.retransmissions + n
    ∧ statistics.resyncs = s.statistics.resyncs

theorem Advances.refl (s : Session L) : Advances s 0 s :=
  ⟨s.link, s.frame, s.retries, s.statistics, rfl, rfl, rfl, rfl⟩

theorem Advances.trans {m n : Nat} {s₁ s₂ : Session L} (h₁ : Advances s m s₁)
    (h₂ : Advances s₁ n s₂) : Advances s (m + n) s₂ := by
  obtain ⟨link₁, frame₁, retries₁, statistics₁, rfl, hcapacity₁, hcount₁, hresyncs₁⟩ := h₁
  obtain ⟨link₂, frame₂, retries₂, statistics₂, rfl, hcapacity₂, hcount₂, hresyncs₂⟩ := h₂
  dsimp only at hcapacity₂ hcount₂ hresyncs₂
  refine ⟨link₂, frame₂, retries₂, statistics₂, rfl, hcapacity₂.trans hcapacity₁, ?_,
    hresyncs₂.trans hresyncs₁⟩
  omega

theorem Advances.settings {n : Nat} (h : Advances s n s') : s'.settings = s.settings := by
  obtain ⟨link, frame, retries, statistics, rfl, -⟩ := h
  rfl

theorem Advances.codec {n : Nat} (h : Advances s n s') : s'.codec = s.codec := by
  obtain ⟨link, frame, retries, statistics, rfl, -⟩ := h
  rfl

theorem Advances.capacity {n : Nat} (h : Advances s n s') :
    s'.frame.capacity = s.frame.capacity := by
  obtain ⟨link, frame, retries, statistics, rfl, hcapacity, -⟩ := h
  exact hcapacity

/-- Whatever fits the frame fits it still. -/
theorem Advances.fits {n : Nat} {arrival : Arrival} (h : Advances s n s')
    (hfits : arrival.Fits s.codec.epilogue s.frame.capacity) :
    arrival.Fits s'.codec.epilogue s'.frame.capacity := by
  rw [h.codec, h.capacity]
  exact hfits

/-- What a wait for an arrival comes to. -/
def Heard (s : Session L) (arrival : Arrival) (r : Except (Stop Setback) Inbound)
    (s' : Session L) : Prop :=
  (Advances s 0 s' ∧ s'.retries = s.retries) ∧
    match arrival with
    | .fault fault => r = .error (.because (.ofLink fault))
    | .block raw =>
      match s.codec.decode raw with
      | .ok block => ∃ inbound, r = .ok inbound ∧ Arrived s.codec s'.frame inbound raw block
      | .error fault => r = .error (.because (.minor (.ofBlock fault)))

/-! ## Decoding what is in the frame -/

/-- A block that is whole is decoded where it lies, and what is wrong with it is reported. -/
theorem readBlock_heard {start length : Nat}
    (hannounced : Codec.announced? s.frame.used = some (start, length)) :
    Ensures (readBlock start) s fun r s' =>
      Heard s (.block s.frame.used) r s' ∧ s'.link = s.link := by
  unfold readBlock
  rw [ensures_count_bind, ensures_get_bind]
  dsimp only
  have hcounted : ∀ statistics : Statistics,
      statistics.retransmissions = s.statistics.retransmissions →
      statistics.resyncs = s.statistics.resyncs →
      Advances s 0 { s with statistics }
        ∧ ({ s with statistics } : Session L).retries = s.retries :=
    fun statistics hcount hresyncs =>
      ⟨⟨s.link, s.frame, s.retries, statistics, rfl, rfl, hcount, hresyncs⟩, rfl⟩
  cases hdecode : s.codec.decode s.frame.used with
  | ok block =>
      refine ⟨⟨hcounted _ rfl rfl, ?_⟩, rfl⟩
      dsimp only
      rw [hdecode]
      exact ⟨_, rfl, arrived_of_decode hannounced hdecode⟩
  | error fault =>
      dsimp only
      split
      · refine ⟨⟨hcounted _ rfl rfl, ?_⟩, rfl⟩
        dsimp only
        rw [hdecode]
      · refine ⟨⟨hcounted _ rfl rfl, ?_⟩, rfl⟩
        dsimp only
        rw [hdecode]

variable [Link L]

/-- Octets that arrive are appended to the frame. -/
theorem readFrame_whole {n : Nat} {timeout : Nanos} {octets : Bytes} {link : L}
    (hroom : n ≤ s.frame.room) (hlength : octets.length = n)
    (hread : readAll n timeout s.link = ((octets, none), link)) :
    Ensures (readFrame n timeout) s fun r s' =>
      r = .ok () ∧ ∃ frame, s' = { s with link, frame } ∧ frame.used = s.frame.used ++ octets
        ∧ frame.capacity = s.frame.capacity := by
  unfold readFrame
  rw [ensures_get_bind]
  cases hclaim : s.frame.claim n with
  | error overflow =>
      unfold Buffer.claim at hclaim
      rw [if_pos hroom] at hclaim
      exact absurd hclaim nofun
  | ok claimed =>
      dsimp only
      rw [ensures_onLink_bind, hread]
      dsimp only
      rw [ensures_modify_bind]
      exact ⟨rfl, _, rfl, Buffer.used_setTail_claim hclaim hlength,
        Buffer.capacity_setTail_claim hclaim⟩

/-- A fault of the link is reported. -/
theorem readFrame_fault {n : Nat} {timeout : Nanos} {octets : Bytes} {fault : Fault} {link : L}
    (hroom : n ≤ s.frame.room)
    (hread : readAll n timeout s.link = ((octets, some fault), link)) :
    Ensures (readFrame n timeout) s fun r s' =>
      r = .error (.because (.ofLink fault)) ∧ ∃ frame, s' = { s with link, frame }
        ∧ frame.capacity = s.frame.capacity := by
  unfold readFrame
  rw [ensures_get_bind]
  cases hclaim : s.frame.claim n with
  | error overflow =>
      unfold Buffer.claim at hclaim
      rw [if_pos hroom] at hclaim
      exact absurd hclaim nofun
  | ok claimed =>
      dsimp only
      rw [ensures_onLink_bind, hread]
      dsimp only
      rw [ensures_modify_bind]
      exact ⟨rfl, _, rfl, Buffer.capacity_setTail_claim hclaim⟩

/-! ## Waiting for one block -/

/-- There is time left, and a wait takes no more than was asked for. -/
theorem waitTime_heard {timeout : Nanos} (hpos : 0 < timeout)
    (hintime : ∀ instant, s.deadline = some instant → now s.link < instant) :
    Ensures (waitTime timeout) s fun r s' =>
      s' = s ∧ ∃ wait, r = .ok wait ∧ 0 < wait ∧ wait ≤ timeout := by
  unfold waitTime
  rw [ensures_get_bind]
  cases hdeadline : s.deadline with
  | none => exact ⟨rfl, timeout, rfl, hpos, Nat.le_refl _⟩
  | some instant =>
      have hleft := hintime instant hdeadline
      dsimp only
      rw [if_neg (Nat.sub_ne_zero_of_lt hleft)]
      exact ⟨rfl, _, rfl, Nat.lt_min.mpr ⟨hpos, Nat.sub_pos_of_lt hleft⟩, Nat.min_le_left _ _⟩

variable {blockTimeout timeout : Nanos} {deadline : Option Nanos}
  {Holds : L → List Arrival → Prop} {arrival : Arrival} {arrivals : List Arrival}

theorem receiveBlock_fault {fault : Fault} (hscript : Script blockTimeout deadline Holds)
    (hholds : Holds s.link (.fault fault :: arrivals)) (hpos : 0 < timeout)
    (hle : timeout ≤ blockTimeout) (hcapacity : Block.longPrologue ≤ s.frame.capacity) :
    Ensures (receiveBlock timeout) s fun r s' =>
      Heard s (.fault fault) r s' ∧ Holds s'.link arrivals := by
  obtain ⟨octets, link, hread, hrest⟩ := hscript.fault hholds timeout hpos hle
  have hroom : Block.shortPrologue ≤ s.frame.clear.room := by
    have hcells := s.frame.clear.length_used_add_room
    rw [Buffer.used_clear, Buffer.capacity_clear, List.length_nil] at hcells
    unfold Block.longPrologue at hcapacity
    unfold Block.shortPrologue
    omega
  have hprologue : Ensures (readPrologue timeout) s fun r s' =>
      r = .error (.because (.ofLink fault)) ∧ ∃ frame, s' = { s with link, frame }
        ∧ frame.capacity = s.frame.capacity := by
    unfold readPrologue
    rw [ensures_modify_bind]
    refine Ensures.bind_error (readFrame_fault hroom hread) fun s' hend => ?_
    obtain ⟨frame, rfl, hframe⟩ := hend
    exact ⟨rfl, frame, rfl, hframe.trans s.frame.capacity_clear⟩
  unfold receiveBlock
  refine hprologue.bind_error fun s' hend => ?_
  obtain ⟨frame, rfl, hframe⟩ := hend
  have hadvances : Advances s 0 { s with link, frame } :=
    ⟨link, frame, s.retries, s.statistics, rfl, hframe, rfl, rfl⟩
  exact ⟨⟨⟨hadvances, rfl⟩, rfl⟩, hrest⟩

/-- The front of a whole block, up to its payload, tells how much follows. -/
theorem isWhole_front {e : Epilogue} {raw : Bytes} (h : IsWhole e raw) :
    Block.shortPrologue + Codec.extension (raw.getD 2 0) < raw.length
      ∧ ∃ length, Codec.announced? (raw.take
            (Block.shortPrologue + Codec.extension (raw.getD 2 0)))
          = some (Block.shortPrologue + Codec.extension (raw.getD 2 0), length)
        ∧ ∀ c : Codec, c.epilogue = e → c.bodyLength (raw.take
            (Block.shortPrologue + Codec.extension (raw.getD 2 0)))
          = .ok (raw.length - (Block.shortPrologue + Codec.extension (raw.getD 2 0))) := by
  generalize hn : Block.shortPrologue + Codec.extension (raw.getD 2 0) = n
  have hless : n < raw.length := by
    by_contra hshort
    exact Codec.not_isWhole_of_length_le (by omega) h
  have htaken : (raw.take n).length = n := by
    rw [List.length_take]
    omega
  have hthird : (raw.take n).getD 2 0 = raw.getD 2 0 := by
    unfold Block.shortPrologue at hn
    rw [List.getD_eq_getElem?_getD, List.getD_eq_getElem?_getD, List.getElem?_take,
      if_pos (by omega)]
  have hfront : (raw.take n).length
      = Block.shortPrologue + Codec.extension ((raw.take n).getD 2 0) := by
    rw [htaken, hthird, hn]
  obtain ⟨length, hannounced, hbody⟩ := Codec.announced?_of_prologue hfront
  have hsplit := List.take_append_drop n raw
  have hrest : (raw.drop n).length = length + e.width := by
    refine (Codec.isWhole_append_iff hannounced).mp ?_
    rw [hsplit]
    exact h
  rw [List.length_drop] at hrest
  rw [htaken] at hannounced
  refine ⟨hless, length, hannounced, fun c hc => ?_⟩
  rw [hbody c, hc, hrest]

/-- The front of a block is read up to its payload. -/
theorem readPrologue_whole {raw : Bytes} {link₁ link₂ : L} {ext : Nat}
    (hext : Codec.extension (raw.getD 2 0) = ext) (hless : Block.shortPrologue + ext ≤ raw.length)
    (hfits : Block.shortPrologue + ext ≤ s.frame.capacity)
    (hread₁ : readAll Block.shortPrologue timeout s.link
      = ((raw.take Block.shortPrologue, none), link₁))
    (hread₂ : readAll ext timeout link₁
      = (((raw.drop Block.shortPrologue).take ext, none), link₂)) :
    Ensures (readPrologue timeout) s fun r s' =>
      r = .ok () ∧ ∃ frame, s' = { s with link := link₂, frame }
        ∧ frame.used = raw.take (Block.shortPrologue + ext)
        ∧ frame.capacity = s.frame.capacity := by
  have hthird : (raw.take Block.shortPrologue).getD 2 0 = raw.getD 2 0 := by
    rw [List.getD_eq_getElem?_getD, List.getD_eq_getElem?_getD, List.getElem?_take,
      if_pos (by decide)]
  have hcells := s.frame.clear.length_used_add_room
  rw [Buffer.used_clear, Buffer.capacity_clear, List.length_nil] at hcells
  unfold readPrologue
  rw [ensures_modify_bind]
  refine Ensures.bind_ok (readFrame_whole (by dsimp only; omega) (by rw [List.length_take]; omega)
    hread₁) fun s₁ hend => ?_
  obtain ⟨frame, rfl, hused, hframe⟩ := hend
  rw [Buffer.used_clear, List.nil_append] at hused
  have hcells₁ := frame.length_used_add_room
  rw [hused, hframe, Buffer.capacity_clear, List.length_take] at hcells₁
  rw [ensures_get_bind]
  dsimp only
  -- the third octet says how much of the front is left
  rw [hused, hthird, hext]
  refine Ensures.mono (readFrame_whole (by dsimp only; omega)
    (by rw [List.length_take, List.length_drop]; omega) hread₂) ?_
  intro r s₂ hend
  obtain ⟨hr, frame', rfl, hused', hframe'⟩ := hend
  refine ⟨hr, frame', rfl, ?_, (hframe'.trans hframe).trans s.frame.capacity_clear⟩
  rw [hused', hused, ← List.take_add]

theorem receiveBlock_whole {raw : Bytes} (hscript : Script blockTimeout deadline Holds)
    (hholds : Holds s.link (.block raw :: arrivals)) (hpos : 0 < timeout)
    (hle : timeout ≤ blockTimeout) (hwhole : IsWhole s.codec.epilogue raw)
    (hfits : raw.length ≤ s.frame.capacity) :
    Ensures (receiveBlock timeout) s fun r s' =>
      Heard s (.block raw) r s' ∧ Holds s'.link arrivals := by
  obtain ⟨link₁, link₂, link₃, hread₁, hread₂, hread₃, hrest⟩ :=
    hscript.block hholds timeout hpos hle
  obtain ⟨hless, length, hannounced, hbody⟩ := isWhole_front hwhole
  generalize hext : Codec.extension (raw.getD 2 0) = ext at *
  have hprologue := readPrologue_whole hext (Nat.le_of_lt hless)
    (Nat.le_trans (Nat.le_of_lt hless) hfits) hread₁ hread₂
  unfold receiveBlock
  refine hprologue.bind_ok fun s₁ hend => ?_
  obtain ⟨frame, rfl, hused, hframe⟩ := hend
  have hcells₁ := frame.length_used_add_room
  have hlength : frame.used.length = Block.shortPrologue + ext := by
    rw [hused, List.length_take]
    omega
  rw [ensures_get_bind]
  dsimp only
  rw [hused, hbody _ rfl, ← hused]
  dsimp only
  rw [if_neg (by omega)]
  refine Ensures.bind_ok (readFrame_whole (by dsimp only; omega) (by rw [List.length_drop])
    hread₃) fun s₂ hend => ?_
  obtain ⟨frame', rfl, hused', hframe'⟩ := hend
  -- the frame holds the whole block now, and its front announces what it did before
  have hraw : frame'.used = raw := by
    rw [hused', hused, List.take_append_drop]
  have hfront : Codec.announced? frame'.used = some (frame.used.length, length) := by
    rw [hlength, hused', hused]
    exact announced?_append hannounced
  have hheard := readBlock_heard (s := { s with link := link₃, frame := frame' }) hfront
  rw [hraw] at hheard
  refine hheard.mono ?_
  intro r s₃ hend
  obtain ⟨⟨⟨hadvances, hretries⟩, hr⟩, hlink⟩ := hend
  have hbefore : Advances s 0 { s with link := link₃, frame := frame' } :=
    ⟨link₃, frame', s.retries, s.statistics, rfl, hframe'.trans hframe, rfl, rfl⟩
  refine ⟨⟨⟨hbefore.trans hadvances, hretries⟩, hr⟩, ?_⟩
  rw [hlink]
  exact hrest

/-! ## A session on a script -/

/-- The link of the session follows a script that fits the times of the session. -/
structure Attends (Holds : L → List Arrival → Prop) (s : Session L) : Prop where
  script : Script s.settings.blockTimeout s.deadline Holds
  timeout : 0 < s.settings.blockTimeout
  capacity : Block.longPrologue ≤ s.frame.capacity

theorem Attends.advances {n : Nat} (h : Attends Holds s) (hadvances : Advances s n s') :
    Attends Holds s' := by
  obtain ⟨link, frame, retries, statistics, rfl, hcapacity, -⟩ := hadvances
  exact ⟨h.script, h.timeout, by rw [hcapacity]; exact h.capacity⟩

/-- A frame that is handed over is taken. -/
theorem transmit_taken (frame : Bytes) (h : Attends Holds s) (hholds : Holds s.link arrivals) :
    Ensures (transmit frame) s fun r s' =>
      r = .ok () ∧ Advances s 0 s' ∧ s'.retries = s.retries ∧ Holds s'.link arrivals := by
  obtain ⟨link, htaken, hrest⟩ := h.script.taken hholds frame
  unfold transmit
  rw [ensures_count_bind, ensures_get_bind]
  dsimp only
  rw [ensures_onLink_bind, htaken]
  exact ⟨rfl, ⟨link, s.frame, s.retries, _, rfl, rfl, rfl, rfl⟩, rfl, hrest⟩

theorem receiveBlock_heard (h : Attends Holds s) (hholds : Holds s.link (arrival :: arrivals))
    (hfits : arrival.Fits s.codec.epilogue s.frame.capacity) (hpos : 0 < timeout)
    (hle : timeout ≤ s.settings.blockTimeout) :
    Ensures (receiveBlock timeout) s fun r s' =>
      Heard s arrival r s' ∧ Holds s'.link arrivals := by
  cases arrival with
  | fault reason => exact receiveBlock_fault h.script hholds hpos hle h.capacity
  | block raw => exact receiveBlock_whole h.script hholds hpos hle hfits.1 hfits.2

omit [Link L] in
/-- A payload lies between its two ends. -/
theorem Arrived.payload_eq_nil {c : Codec} {frame : Buffer} {inbound : Inbound} {raw : Bytes}
    {block : Block} (h : Arrived c frame inbound raw block) (hpayload : block.payload = []) :
    inbound.length = 0 := by
  have hsome := h.payload
  unfold Inbound.payload? at hsome
  split at hsome
  · rename_i hstop
    have hlength := congrArg List.length (Option.some.inj hsome)
    rw [hpayload, List.length_drop, List.length_take, List.length_nil] at hlength
    unfold Inbound.length
    omega
  · exact absurd hsome nofun

/-- A wait is over with the first setback, and with the first block that is not answered on the
way. -/
theorem awaitBlock_received {Q : Except (Stop Setback) Inbound → Session L → Prop}
    (hpos : 0 < s.settings.blockTimeout)
    (hintime : ∀ instant, s.deadline = some instant → now s.link < instant)
    (hreceived : ∀ wait, 0 < wait → wait ≤ s.settings.blockTimeout →
      Ensures (receiveBlock wait) s Q)
    (hplain : ∀ inbound s', Q (.ok inbound) s' → inbound.control ≠ .request .wtx ∧
      (inbound.control = .request .ifs → inbound.length = 0)) :
    Ensures awaitBlock s Q := by
  have hround : Ensures (awaitRound s.settings.blockTimeout) s fun r s' =>
      ∃ received, r = received.map .inr ∧ Q received s' := by
    unfold awaitRound
    refine (waitTime_heard hpos hintime).bind ?_ ?_
    · intro wait s₁ hend
      obtain ⟨rfl, wait', hwait, hsome, hle⟩ := hend
      obtain rfl := Except.ok.inj hwait
      refine (hreceived wait hsome hle).bind ?_ ?_
      · intro inbound s₂ hend
        obtain ⟨hwtx, hifs⟩ := hplain inbound s₂ hend
        rw [ensures_get_bind]
        split
        · rename_i hcontrol
          exact absurd hcontrol hwtx
        · rename_i hcontrol
          rw [if_pos (hifs hcontrol)]
          exact ⟨.ok inbound, rfl, hend⟩
        · exact ⟨.ok inbound, rfl, hend⟩
      · intro stop s₂ hend
        exact ⟨.error stop, rfl, hend⟩
    · intro stop s₁ hend
      obtain ⟨-, wait, hwait, -⟩ := hend
      cases hwait
  unfold awaitBlock
  rw [ensures_get_bind]
  refine hround.bind ?_ ?_
  · intro r s₁ hend
    obtain ⟨received, hr, hrest⟩ := hend
    cases received with
    | error stop => cases hr
    | ok inbound =>
        obtain rfl := Except.ok.inj hr
        exact hrest
  · intro stop s₁ hend
    obtain ⟨received, hr, hrest⟩ := hend
    cases received with
    | error stop' =>
        obtain rfl := Except.error.inj hr
        exact hrest
    | ok inbound => cases hr

/-- **A wait takes one arrival, and its result is that arrival.** -/
theorem awaitBlock_heard (h : Attends Holds s) (hholds : Holds s.link (arrival :: arrivals))
    (hfits : arrival.Fits s.codec.epilogue s.frame.capacity)
    (hserved : ¬ arrival.IsServed s.codec) :
    Ensures awaitBlock s fun r s' => Heard s arrival r s' ∧ Holds s'.link arrivals := by
  refine awaitBlock_received h.timeout (h.script.inTime hholds)
    (fun wait hpos hle => receiveBlock_heard h hholds hfits hpos hle) ?_
  intro inbound s' hend
  obtain ⟨⟨-, hheard⟩, -⟩ := hend
  cases arrival with
  | fault reason => cases hheard
  | block raw =>
      cases hdecode : s.codec.decode raw with
      | error fault =>
          simp only [hdecode] at hheard
          cases hheard
      | ok block =>
          simp only [hdecode] at hheard
          obtain ⟨inbound', hinbound, harrived⟩ := hheard
          obtain rfl := Except.ok.inj hinbound
          -- a request that is answered would have been served
          refine ⟨fun hwtx => hserved ⟨block, hdecode, .inl ?_⟩, fun hifs => ?_⟩
          · exact harrived.control.symm.trans hwtx
          · by_contra hsize
            refine hserved ⟨block, hdecode, .inr ⟨harrived.control.symm.trans hifs, fun hnil => ?_⟩⟩
            exact hsize (Arrived.payload_eq_nil harrived hnil)

end Step

end SecureElement
