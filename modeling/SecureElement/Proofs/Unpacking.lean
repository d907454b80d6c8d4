import SecureElement.Proofs.Connections

/-!
# What the proxy delivers

The octets that come over a connection are messages behind each other, and nothing but
the messages says where one ends. `messages` cuts such a row: complete messages, and
what is left behind them. It is blind to the parts that the network brings the row in.

A link hands the octets of its messages out in parts of its own. `Unpacked` is what holds
between any two calls, for the connection at hand: what was handed out and what is
pending are the octets of the complete messages that came, messages of another type left
out; each of those made one read fail; and the stream is in step as long as the
connection is there. Every call keeps it (`Unpacked.step`), whichever way it ends in, and
`unpacking` says it for whole runs, with what a read can do next.
-/

namespace SecureElement

/-- Octets that are read as a length are how that length is written. -/
theorem Bytes.ofLength_toLength (high low : UInt8) :
    ofLength (toLength high low) = (high, low) := by
  have hhigh : (256 * high.toNat + low.toNat) / 256 = high.toNat := by
    have := low.toNat_lt
    omega
  refine Prod.ext ?_ (UInt8.toNat_inj.mp ?_)
  · show UInt8.ofNat ((256 * high.toNat + low.toNat) / 256) = high
    rw [hhigh, UInt8.ofNat_toNat]
  · show (UInt8.ofNat (256 * high.toNat + low.toNat)).toNat = low.toNat
    rw [UInt8.toNat_ofNat']
    have := low.toNat_lt
    omega

namespace Proxy

open Network

/-! ## Messages behind each other -/

/-- A message of any type. -/
structure Message where
  kind : UInt8
  body : Bytes
  deriving Repr, DecidableEq

def Message.encode (m : Message) : Bytes :=
  m.kind :: (Bytes.ofLength m.body.length).1 :: (Bytes.ofLength m.body.length).2 :: m.body

/-- The complete messages in front of a row of octets, and what is left of it. -/
def messages (octets : Bytes) : List Message × Bytes :=
  match octets with
  | kind :: high :: low :: more =>
    if more.length < Bytes.toLength high low then ([], kind :: high :: low :: more)
    else
      let later := messages (more.drop (Bytes.toLength high low))
      (⟨kind, more.take (Bytes.toLength high low)⟩ :: later.1, later.2)
  | octets => ([], octets)
termination_by octets.length
decreasing_by
  simp only [List.length_drop, List.length_cons]
  omega

/-- The octets of the messages that carry them. -/
def carried (row : List Message) : Bytes :=
  row.flatMap fun m => if m.kind = blockMessage then m.body else []

/-- The messages that are of no use. -/
def strange (row : List Message) : List Message := row.filter (·.kind ≠ blockMessage)

/-- How a message of no use is refused. -/
def Message.refusal (m : Message) : Link.Fault :=
  .bus ("unexpected message type " ++ Hex.octet m.kind)

variable {octets front back : Bytes} {kind high low : UInt8} {body : Bytes}

theorem carried_append (row more : List Message) :
    carried (row ++ more) = carried row ++ carried more :=
  List.flatMap_append

theorem strange_append (row more : List Message) :
    strange (row ++ more) = strange row ++ strange more :=
  List.filter_append ..

@[simp] theorem messages_nil : messages [] = ([], []) := by
  rw [messages]
  exact nofun

/-- A message in front, and what comes behind it. -/
theorem messages_cons (h : body.length = Bytes.toLength high low) (back : Bytes) :
    messages (kind :: high :: low :: (body ++ back))
      = (⟨kind, body⟩ :: (messages back).1, (messages back).2) := by
  rw [messages, if_neg (by rw [List.length_append]; omega), ← h, List.take_left, List.drop_left]

/-- What stops short of the length that it begins with is no message. -/
theorem messages_short (h : body.length < Bytes.toLength high low) :
    messages (kind :: high :: low :: body) = ([], kind :: high :: low :: body) := by
  rw [messages, if_pos h]

/-- What stops short of a length is no message. -/
theorem messages_headless (h : octets.length < 3) : messages octets = ([], octets) := by
  rw [messages]
  rintro kind high low more rfl
  simp only [List.length_cons] at h
  omega

/-- **Messages are cut where they were put together.** -/
theorem messages_append (h : (messages front).2 = []) :
    messages (front ++ back) = ((messages front).1 ++ (messages back).1, (messages back).2) := by
  -- the induction is on how the front is cut; it must not leave a part of a message over
  fun_induction messages front with
  | case1 kind high low more hshort => exact absurd h (List.cons_ne_nil _ _)
  | case2 kind high low more hlong later ih =>
      have hlength : (more.take (Bytes.toLength high low)).length = Bytes.toLength high low := by
        rw [List.length_take]
        omega
      have hsplit : kind :: high :: low :: more ++ back = kind :: high :: low ::
          (more.take (Bytes.toLength high low) ++
            (more.drop (Bytes.toLength high low) ++ back)) := by
        rw [← List.append_assoc, List.take_append_drop]
        rfl
      rw [hsplit, messages_cons hlength, ih h]
      rfl
  | case3 octets hother =>
      have hnil : octets = [] := h
      subst hnil
      rfl

/-- **Nothing is lost and nothing made up by cutting a row into messages.** -/
theorem messages_join (octets : Bytes) :
    (messages octets).1.flatMap Message.encode ++ (messages octets).2 = octets := by
  fun_induction messages octets with
  | case1 | case3 => rfl
  | case2 kind high low more hlong later ih =>
      have hlength : (more.take (Bytes.toLength high low)).length = Bytes.toLength high low := by
        rw [List.length_take]
        omega
      have hencode : Message.encode ⟨kind, more.take (Bytes.toLength high low)⟩
          = kind :: high :: low :: more.take (Bytes.toLength high low) := by
        unfold Message.encode
        rw [hlength, Bytes.ofLength_toLength]
      rw [List.flatMap_cons, hencode, List.append_assoc, ih]
      exact congrArg (kind :: high :: low :: ·) (List.take_append_drop ..)

/-! ## What a fetch brings -/

theorem Client.ReceivesRest.isReceive {events : List Event} {outcome : Except Network.Error Bytes}
    (h : ReceivesRest events outcome) : ∀ event ∈ events, event.IsReceive := by
  cases h with
  | headless hhead => exact hhead.isReceive
  | headed hhead hbody => exact List.forall_mem_append.mpr ⟨hhead.isReceive, hbody.isReceive⟩

/-- What a fetch that brings a message receives. -/
theorem Client.ReceivesRest.messages_ok {events : List Event}
    (h : ReceivesRest events (.ok body)) (kind : UInt8) :
    messages (kind :: received events) = ([⟨kind, body⟩], []) := by
  generalize houtcome : (.ok body : Except Network.Error Bytes) = outcome at h
  cases h with
  | headless => exact absurd houtcome nofun
  | @headed front back high low outcome hhead hbody =>
      subst houtcome
      obtain ⟨hfront, -⟩ := hhead.outcome.1 _ rfl
      obtain ⟨hback, hlength⟩ := hbody.outcome.1 _ rfl
      have hwhole : messages (kind :: high :: low :: (body ++ []))
          = (⟨kind, body⟩ :: (messages []).1, (messages []).2) := messages_cons hlength []
      rw [List.append_nil, messages_nil] at hwhole
      rw [received_append, hfront, hback]
      exact hwhole

/-- A fetch that breaks off has received no whole message. -/
theorem Client.ReceivesRest.messages_error {events : List Event} {error : Network.Error}
    (h : ReceivesRest events (.error error)) (kind : UInt8) :
    messages (kind :: received events) = ([], kind :: received events) := by
  generalize houtcome : (.error error : Except Network.Error Bytes) = outcome at h
  cases h with
  | headless hhead =>
      obtain ⟨hshort, -⟩ := hhead.outcome.2 _ rfl
      exact messages_headless (by rw [List.length_cons]; omega)
  | @headed front back high low outcome hhead hbody =>
      subst houtcome
      obtain ⟨hfront, -⟩ := hhead.outcome.1 _ rfl
      obtain ⟨hshort, -⟩ := hbody.outcome.2 _ rfl
      rw [received_append, hfront]
      exact messages_short hshort

/-! ## What is handed out -/

namespace Entry

/-- The octets that a read handed out. -/
def delivered (entry : Entry) : Bytes :=
  match entry.call with
  | .read _ _ (.ok bytes) => bytes
  | _ => []

/-- Whether the call ended a connection. -/
def shuts (entry : Entry) : Bool :=
  entry.events.any fun event =>
    match event with
    | .shutdown => true
    | _ => false

/-- How a read failed that used up octets and kept the connection. -/
def refused (entry : Entry) : List Link.Fault :=
  match entry.call with
  | .read _ _ (.error fault) => if entry.received = [] ∨ entry.shuts then [] else [fault]
  | _ => []

theorem refused_shut {call : Link.Event} {events : List Event}
    (h : shuts ⟨call, events⟩ = true) : refused ⟨call, events⟩ = [] := by
  unfold refused
  split
  · exact if_pos (.inr h)
  · rfl

theorem refused_kept {n : Nat} {timeout : Nanos} {fault : Link.Fault} {events : List Event}
    (hreceived : Network.received events ≠ [])
    (hkept : ∀ event ∈ events, event.IsReceive ∨ ∃ limit, event = .limitReceive limit) :
    refused ⟨.read n timeout (.error fault), events⟩ = [fault] := by
  refine if_neg (not_or.mpr ⟨hreceived, fun hshuts => ?_⟩)
  obtain ⟨event, hevent, hshut⟩ := List.any_eq_true.mp hshuts
  rcases hkept event hevent with hkind | ⟨limit, rfl⟩
  · cases event with
    | receive => exact absurd hshut Bool.false_ne_true
    | _ => exact hkind
  · exact absurd hshut Bool.false_ne_true

end Entry

/-- The octets that calls brought over the connection. -/
def incoming (calls : List Entry) : Bytes := calls.flatMap Entry.received

/-- The octets that reads handed out. -/
def delivered (calls : List Entry) : Bytes := calls.flatMap Entry.delivered

/-- How reads failed that used up octets and kept the connection. -/
def refusals (calls : List Entry) : List Link.Fault := calls.flatMap Entry.refused

variable {N : Type} [Network N] {address : Address} {entries calls : List Entry} {entry : Entry}
  {c c' : Client (Traced N)}

theorem incoming_concat : incoming (calls ++ [entry]) = incoming calls ++ entry.received := by
  unfold incoming
  rw [List.flatMap_append, List.flatMap_singleton]

theorem delivered_concat : delivered (calls ++ [entry]) = delivered calls ++ entry.delivered := by
  unfold delivered
  rw [List.flatMap_append, List.flatMap_singleton]

theorem refusals_concat : refusals (calls ++ [entry]) = refusals calls ++ entry.refused := by
  unfold refusals
  rw [List.flatMap_append, List.flatMap_singleton]

/-- What holds between two calls, for the calls over the connection at hand. -/
structure Unpacked (calls : List Entry) (c : Client (Traced N)) : Prop where
  /-- Each message of no use made one read fail, in their order. -/
  refused : refusals calls = (strange (messages (incoming calls)).1).map Message.refusal
  /-- As long as there is a connection it is in step, and nothing is lost. -/
  connected : c.isConnected = true → (messages (incoming calls)).2 = [] ∧
    delivered calls ++ c.pending = carried (messages (incoming calls)).1
  /-- Without one nothing is pending, and nothing was made up. -/
  dropped : c.isConnected = false → c.pending = [] ∧
    delivered calls <+: carried (messages (incoming calls)).1

omit [Network N] in
theorem unpacked_nil (h : c.pending = []) : Unpacked [] c := by
  have hnone : messages (incoming []) = ([], []) := messages_nil
  refine ⟨by rw [hnone]; rfl, fun _ => ?_, fun _ => ⟨h, List.nil_prefix⟩⟩
  rw [hnone, h]
  exact ⟨rfl, rfl⟩

omit [Network N] in
/-- What is handed out never goes beyond what came. -/
theorem Unpacked.delivered_prefix (h : Unpacked calls c) :
    delivered calls <+: carried (messages (incoming calls)).1 := by
  cases hup : c.isConnected with
  | true =>
      rw [← (h.connected hup).2]
      exact List.prefix_append ..
  | false => exact (h.dropped hup).2

omit [Network N] in
/-- A call that brings nothing and hands nothing out. -/
theorem Unpacked.idle (h : Unpacked calls c) (hreceived : entry.received = [])
    (hdelivered : entry.delivered = []) (hrefused : entry.refused = [])
    (hkept : c'.isConnected = true → c.isConnected = true ∧ c'.pending = c.pending)
    (hlost : c'.isConnected = false → c'.pending = []) :
    Unpacked (calls ++ [entry]) c' := by
  have hincoming : incoming (calls ++ [entry]) = incoming calls := by
    rw [incoming_concat, hreceived, List.append_nil]
  have hsame : delivered (calls ++ [entry]) = delivered calls := by
    rw [delivered_concat, hdelivered, List.append_nil]
  refine ⟨?_, fun hup => ?_, fun hdown => ⟨hlost hdown, ?_⟩⟩
  · rw [hincoming, refusals_concat, hrefused, List.append_nil]
    exact h.refused
  · obtain ⟨hbefore, hpending⟩ := hkept hup
    rw [hincoming, hsame, hpending]
    exact h.connected hbefore
  · rw [hincoming, hsame]
    exact h.delivered_prefix

omit [Network N] in
/-- A call over a connection that is in step. -/
theorem Unpacked.grow (h : Unpacked calls c) (hup : c.isConnected = true)
    (hrefused : entry.refused = (strange (messages entry.received).1).map Message.refusal)
    (hkept : c'.isConnected = true → (messages entry.received).2 = [] ∧
      entry.delivered ++ c'.pending = c.pending ++ carried (messages entry.received).1)
    (hlost : c'.isConnected = false → c'.pending = [] ∧ entry.delivered = []) :
    Unpacked (calls ++ [entry]) c' := by
  obtain ⟨hstep, hdelivered⟩ := h.connected hup
  have hmessages : messages (incoming (calls ++ [entry]))
      = ((messages (incoming calls)).1 ++ (messages entry.received).1,
        (messages entry.received).2) := by
    rw [incoming_concat]
    exact messages_append hstep
  refine ⟨?_, fun hup' => ?_, fun hdown => ?_⟩
  · rw [hmessages, refusals_concat, h.refused, hrefused, strange_append, List.map_append]
  · obtain ⟨hrest, hmore⟩ := hkept hup'
    rw [hmessages, delivered_concat, carried_append, List.append_assoc, hmore, ← List.append_assoc,
      hdelivered]
    exact ⟨hrest, rfl⟩
  · obtain ⟨hpending, hnone⟩ := hlost hdown
    rw [hmessages, delivered_concat, carried_append, hnone, List.append_nil]
    exact ⟨hpending, h.delivered_prefix.trans (List.prefix_append ..)⟩

omit [Network N] in
/-- A read that goes as `Client.Reads` says. -/
theorem Unpacked.read {n : Nat} {limit timeout : Nanos} {events : List Event}
    {outcome : Except Link.Fault Bytes} (h : Unpacked calls c)
    (hreads : Client.Reads n limit c.isConnected c.pending events outcome c'.isConnected
      c'.pending) :
    Unpacked (calls ++ [⟨.read n timeout outcome, events⟩]) c' := by
  generalize hup : c.isConnected = up, hpending : c.pending = pending, hup' : c'.isConnected = up',
    hpending' : c'.pending = pending' at hreads
  cases hreads with
  | served hsome =>
      have hconnected : c.isConnected = true := by
        by_contra hdown
        exact hsome (hpending.symm.trans (h.dropped (Bool.not_eq_true _ ▸ hdown)).1)
      refine h.grow hconnected ?_ (fun _ => ?_) fun hdown => ?_
      · exact congrArg (fun row => (strange row.1).map Message.refusal) messages_nil.symm
      · rw [hpending, hpending']
        refine ⟨congrArg Prod.snd messages_nil, ?_⟩
        rw [show Entry.received ⟨.read n timeout _, []⟩ = [] from rfl, messages_nil]
        exact (List.take_append_drop ..).trans (List.append_nil _).symm
      · exact absurd (hup'.symm.trans hdown) (by rw [← hup, hconnected]; exact Bool.noConfusion)
  | unconnected =>
      exact h.idle rfl rfl rfl (fun hconnected => absurd (hup'.symm.trans hconnected) nofun)
        (fun _ => hpending')
  | failed hfetches =>
      cases hfetches with
      | silent =>
          exact h.idle rfl rfl rfl (fun _ => ⟨hup, hpending'.trans hpending.symm⟩)
            (fun _ => hpending')
      | ended =>
          exact h.idle rfl rfl rfl (fun hconnected => absurd (hup'.symm.trans hconnected) nofun)
            fun _ => hpending'
      | @cut kind events error hrest =>
          have hreceived : ∀ call, Entry.received ⟨call, .limitReceive limit ::
              .receive 1 (.ok [kind]) :: (events ++ [.shutdown])⟩ = kind :: received events := by
            intro call
            show [] ++ ([kind] ++ received (events ++ [.shutdown])) = _
            rw [received_append]
            exact congrArg (kind :: ·) (List.append_nil _)
          refine h.grow hup ?_ (fun hconnected => absurd (hup'.symm.trans hconnected) nofun)
            fun _ => ⟨hpending', rfl⟩
          rw [hreceived, hrest.messages_error kind, Entry.refused_shut]
          · rfl
          · exact List.any_eq_true.mpr ⟨.shutdown, by simp, rfl⟩
      | @strange kind events bytes hother hrest =>
          have hreceived : ∀ call, Entry.received ⟨call, .limitReceive limit ::
              .receive 1 (.ok [kind]) :: events⟩ = kind :: received events := fun _ => rfl
          have hfilter : strange [⟨kind, bytes⟩] = [⟨kind, bytes⟩] :=
            List.filter_cons_of_pos (decide_eq_true hother)
          have hcarried : carried [⟨kind, bytes⟩] = [] :=
            (List.flatMap_singleton ..).trans (if_neg hother)
          refine h.grow hup ?_ (fun _ => ?_) fun hdown => absurd (hup'.symm.trans hdown) nofun
          · rw [hreceived, hrest.messages_ok kind, hfilter]
            refine Entry.refused_kept (List.cons_ne_nil kind _) ?_
            exact List.forall_mem_cons.mpr ⟨.inr ⟨limit, rfl⟩, List.forall_mem_cons.mpr
              ⟨.inl trivial, fun event hevent => .inl (hrest.isReceive event hevent)⟩⟩
          · rw [hreceived, hrest.messages_ok kind, hpending, hpending', hcarried]
            exact ⟨rfl, rfl⟩
  | @fetched events bytes up hfetches =>
      cases hfetches with
      | @whole events _ hrest =>
          have hreceived : ∀ call, Entry.received ⟨call, .limitReceive limit ::
              .receive 1 (.ok [blockMessage]) :: events⟩ = blockMessage :: received events :=
            fun _ => rfl
          have hcarried : carried [⟨blockMessage, bytes⟩] = bytes := List.append_nil _
          refine h.grow hup ?_ (fun _ => ?_) fun hdown => absurd (hup'.symm.trans hdown) nofun
          · rw [hreceived, hrest.messages_ok blockMessage]
            rfl
          · rw [hreceived, hrest.messages_ok blockMessage, hpending, hpending', hcarried]
            exact ⟨rfl, List.take_append_drop ..⟩

/-- **Every call keeps it**, whatever it ends in. -/
theorem Unpacked.step [Network.Truthful N] (h : Unpacked (current entries) c) (call : Link.Call) :
    Unpacked (current (entries ++ [c.noted call])) (call.make c).2 := by
  -- only a read brings something; a new connection starts with nothing, and the rest is idle
  cases call with
  | bringUp =>
      obtain ⟨events, hevents, hcases⟩ := c.connect_spec
      rw [c.noted_eq .bringUp hevents]
      rcases hcases with ⟨-, rfl, hsame⟩ | ⟨-, rfl, -, -, hpending⟩ |
        ⟨hdown, error, fault, rfl, -, hdown', hpending⟩
      · rw [current_still rfl]
        have hc : (Link.Call.bringUp.make c).2 = c := congrArg Prod.snd hsame
        rw [hc]
        exact h.idle rfl rfl rfl (fun hup => ⟨hup, rfl⟩) fun hdown => (h.dropped hdown).1
      · rw [current_connected rfl]
        exact unpacked_nil hpending
      · rw [current_still rfl]
        exact h.idle rfl rfl rfl (fun hup => absurd (hdown'.symm.trans hup) nofun)
          fun _ => hpending.trans (h.dropped hdown).1
  | write bytes timeout =>
      obtain ⟨events, hevents, hkind, ⟨hup, hpending⟩, -⟩ := c.write_spec bytes timeout
      rw [c.noted_eq (.write bytes timeout) hevents, current_still ?_]
      · refine h.idle (received_of_sends hkind) rfl rfl
          (fun hconnected => ⟨hup.symm.trans hconnected, hpending⟩) fun hdown => ?_
        exact hpending.trans (h.dropped (hup.symm.trans hdown)).1
      · refine Entry.connects_eq_false fun event hevent => ?_
        rcases hkind event hevent with hsend | hsetting <;>
          cases event <;> first | rfl | exact hsend.elim | exact hsetting.elim
  | read n timeout =>
      obtain ⟨events, hevents, hquiet, hreads⟩ := c.read_spec n timeout
      rw [c.noted_eq (.read n timeout) hevents, current_still ?_]
      · exact h.read (hreads inferInstance)
      · refine Entry.connects_eq_false fun event hevent => ?_
        rcases hquiet event hevent with hreceive | hsetting <;>
          cases event <;> first | rfl | exact hreceive.elim | exact hsetting.elim
  | release =>
      rw [c.noted_eq .release c.disconnect_events, current_still ?_]
      · refine h.idle ?_ rfl rfl nofun fun _ => rfl
        unfold Entry.received
        dsimp only
        split <;> rfl
      · unfold Entry.connects
        dsimp only
        split <;> rfl

/-- **In every run the messages of the connection at hand are handed out.** -/
theorem Run.unpacked [Network.Truthful N] (h : Run address entries c) :
    Unpacked (current entries) c := by
  induction h with
  | created net => exact unpacked_nil rfl
  | called call _ ih => exact ih.step call
  | changed net _ ih => exact ⟨ih.refused, ih.connected, ih.dropped⟩

/--
**The link delivers what the proxy sends.** At each moment of a run, for the connection at hand:

* the octets that came are complete messages behind each other, and a rest of one that there is
  only once the connection is gone;
* what reads handed out, and what is pending behind it, are the octets of the messages that carry
  them, in their order and with nothing lost or made up; without a connection nothing is pending;
* each message of another type made one read fail, and added nothing.

And what comes next is no surprise (`Client.Reads`): a read hands out what is pending, or fetches
one message, whose parts it puts together however often it is interrupted. Where nothing
of a message is there it fails, and leaves everything as it was; where the stream ends
between two messages the link is closed; and where anything else goes wrong within a
message that is a fault of the bus, and the link is closed too. On a link without a connection reads
and writes only say so.
-/
theorem unpacking [Network.Truthful N] (h : Run address entries c) :
    (messages (incoming (current entries))).1.flatMap Message.encode
        ++ (messages (incoming (current entries))).2 = incoming (current entries) ∧
      Unpacked (current entries) c ∧
      (∀ n timeout, ∃ events, (c.read n timeout).2.net.events = c.net.events ++ events ∧
        Client.Reads n (max timeout minLimit) c.isConnected c.pending events
          (c.read n timeout).1 (c.read n timeout).2.isConnected (c.read n timeout).2.pending) ∧
      (c.isConnected = false → (∀ n timeout, c.read n timeout = (.error .closed, c)) ∧
        ∀ bytes timeout, bytes.length ≤ messageMax →
          c.write bytes timeout = (.error .closed, c)) := by
  refine ⟨messages_join _, h.unpacked, fun n timeout => ?_, fun hdown => ⟨fun n timeout => ?_, ?_⟩⟩
  · obtain ⟨events, hevents, -, hreads⟩ := c.read_spec n timeout
    exact ⟨events, hevents, hreads inferInstance⟩
  · exact Client.read_unconnected hdown (h.unpacked.dropped hdown).1
  · intro bytes timeout hfits
    exact Client.write_unconnected hdown hfits

/-! ## A connection that breaks off -/

/-- A link to a proxy that sends a message in parts, one of no use, and the beginning of a third. -/
def trickling : Client (Traced Rehearsal) where
  net := {
    net := {
      arrivals := [.bytes [0x01, 0x00], .failure .interrupted, .bytes [0x03, 0xa1, 0xb2],
        .bytes [0xc3, 0x7f, 0x00, 0x01], .bytes [0xff, 0x01, 0x00], .ending] } }
  address := default

/-- What there is to see of a run over a connection that breaks off. -/
theorem unpacking_trickling :
    ∃ (entries : List Entry) (c : Client (Traced Rehearsal)), Run default entries c ∧
      Unpacked (current entries) c ∧
      c.isConnected = false ∧ (∀ n timeout, c.read n timeout = (.error .closed, c)) ∧
      delivered (current entries) = [0xa1, 0xb2, 0xc3] ∧
      refusals (current entries) = [Message.refusal ⟨0x7f, [0xff]⟩] := by
  have hstart : Run default [] trickling := .created _
  have hrun := hstart.makeAll [.bringUp, .read 2 0, .read 5 0, .read 1 0, .read 1 0]
  have hdown : (trickling.makeAll
      [.bringUp, .read 2 0, .read 5 0, .read 1 0, .read 1 0]).2.isConnected = false := by
    decide +kernel
  obtain ⟨-, hunpacked, -, hclosed⟩ := unpacking hrun
  exact ⟨_, _, hrun, hunpacked, hdown, (hclosed hdown).1, by decide +kernel, by decide +kernel⟩

end Proxy

end SecureElement
