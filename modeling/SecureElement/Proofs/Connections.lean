import Mathlib.Data.List.DropRight
import SecureElement.Link.Traced
import SecureElement.Proxy.Client
import SecureElement.Proxy.Rehearsal

/-!
# Connections to the proxy

The link to the proxy is used by calls in any order, and below it a network is used by
calls of its own. An `Entry` is one call on the link with the calls on the network that
it made, and a `Run` is a row of them: from a link without a connection, over any
network, which may change on its own in between.

Over a run one connection comes after the other. `current` is the part of a run that
belongs to the last of them, and what was sent and received over that connection is
read off the calls on the network in it.

Two loops move octets, and their specifications say what they leave on the network:

* `sendUpTo_spec`: what is sent in all is what was to be sent, or a part of it that
  stops short if the loop fails;
* `receiveUpTo_spec`: what is received in all is what the loop hands out, and `Receives`
  says call by call how it came together.
-/

namespace SecureElement

namespace Link

/-- A call on a link. -/
inductive Call where
  | bringUp
  | write (bytes : Bytes) (timeout : Nanos)
  | read (length : Nat) (timeout : Nanos)
  | release
  deriving Repr

/-- Makes a call: what came of it, and the link behind it. -/
def Call.make {L : Type} [Link L] (link : L) : Call → Event × L
  | .bringUp => (.bringUp (Link.bringUp link).1, (Link.bringUp link).2)
  | .write bytes timeout =>
    (.write bytes timeout (Link.write bytes timeout link).1, (Link.write bytes timeout link).2)
  | .read length timeout =>
    (.read length timeout (Link.read length timeout link).1, (Link.read length timeout link).2)
  | .release => (.release, Link.release link)

end Link

namespace Proxy

namespace Network

/-! ## What a call moves -/

/-- The octets that a call put on their way. -/
def Event.sent : Event → Bytes
  | .send bytes (.ok n) => bytes.take n
  | _ => []

/-- The octets that a call brought. -/
def Event.received : Event → Bytes
  | .receive _ (.ok bytes) => bytes
  | _ => []

/-- Whether a connection was made. -/
def Event.connects : Event → Bool
  | .connect (.ok _) => true
  | _ => false

def Event.IsSend : Event → Prop
  | .send .. => True
  | _ => False

def Event.IsReceive : Event → Prop
  | .receive .. => True
  | _ => False

/-- A call that only sets a limit or ends a connection. -/
def Event.IsSetting : Event → Prop
  | .limitReceive _ | .limitSend _ | .shutdown => True
  | _ => False

/-- A part of `bytes` that stops short of them. -/
def Breaks (part bytes : Bytes) : Prop := part <+: bytes ∧ part ≠ bytes

theorem breaks_nil {bytes : Bytes} (h : bytes ≠ []) : Breaks [] bytes :=
  ⟨List.nil_prefix, h.symm⟩

theorem Breaks.append_left {part bytes : Bytes} (front : Bytes) (h : Breaks part bytes) :
    Breaks (front ++ part) (front ++ bytes) :=
  ⟨(List.prefix_append_right_inj front).mpr h.1, fun hsame => h.2 (List.append_cancel_left hsame)⟩

/-- The octets that calls put on their way. -/
def sent (events : List Event) : Bytes := events.flatMap Event.sent

/-- The octets that calls brought. -/
def received (events : List Event) : Bytes := events.flatMap Event.received

variable {events front back : List Event} {event : Event}

@[simp] theorem sent_nil : sent [] = [] := rfl

@[simp] theorem sent_cons : sent (event :: events) = event.sent ++ sent events := rfl

@[simp] theorem sent_append : sent (front ++ back) = sent front ++ sent back :=
  List.flatMap_append

@[simp] theorem received_nil : received [] = [] := rfl

@[simp] theorem received_cons :
    received (event :: events) = event.received ++ received events := rfl

@[simp] theorem received_append : received (front ++ back) = received front ++ received back :=
  List.flatMap_append

theorem sent_of_receives (h : ∀ event ∈ events, event.IsReceive ∨ event.IsSetting) :
    sent events = [] := by
  refine List.flatMap_eq_nil_iff.mpr fun event hevent => ?_
  rcases h event hevent with hkind | hkind <;>
    cases event <;> first | rfl | exact hkind.elim

theorem received_of_sends (h : ∀ event ∈ events, event.IsSend ∨ event.IsSetting) :
    received events = [] := by
  refine List.flatMap_eq_nil_iff.mpr fun event hevent => ?_
  rcases h event hevent with hkind | hkind <;>
    cases event <;> first | rfl | exact hkind.elim

/-! ## Sending -/

variable {N : Type}

/-- One call, and what is recorded behind it. -/
theorem Traced.events_behind {t t' : Traced N} {net : N}
    (h : t'.events = (t.record event net).events ++ events) :
    t'.events = t.events ++ event :: events := by
  rw [h, Traced.events_record, List.append_assoc]
  rfl

/-- What calls have made of octets that were to be sent: they are on their way, or they stop short
of that and the calls have failed. -/
def Sends (bytes : Bytes) (t : Traced N) (outcome : Except Error Unit) (t' : Traced N) : Prop :=
  ∃ events, t'.events = t.events ++ events ∧ (∀ event ∈ events, event.IsSend) ∧
    match outcome with
    | .ok () => sent events = bytes
    | .error _ => Breaks (sent events) bytes

theorem Sends.nothing (t : Traced N) : Sends [] t (.ok ()) t :=
  ⟨[], (List.append_nil _).symm, List.forall_mem_nil _, rfl⟩

/-- A call that puts nothing on its way is a failure. -/
theorem Sends.failed {t : Traced N} {net : N} {bytes : Bytes} {error : Error}
    {told : Except Error Nat} (hsome : bytes ≠ []) (hnone : (Event.send bytes told).sent = []) :
    Sends bytes t (.error error) (t.record (.send bytes told) net) := by
  refine ⟨_, Traced.events_record .., List.forall_mem_singleton.mpr trivial, ?_⟩
  rw [sent_cons, hnone]
  exact breaks_nil hsome

/-- A call takes some of the octets, and the calls behind it see to the rest. -/
theorem Sends.behind {t t' : Traced N} {net : N} {whole bytes : Bytes} {told : Except Error Nat}
    {outcome : Except Error Unit}
    (h : Sends bytes (t.record (.send whole told) net) outcome t') :
    Sends ((Event.send whole told).sent ++ bytes) t outcome t' := by
  obtain ⟨events, hevents, hkind, hend⟩ := h
  refine ⟨.send whole told :: events, Traced.events_behind hevents,
    List.forall_mem_cons.mpr ⟨trivial, hkind⟩, ?_⟩
  cases outcome with
  | ok u => exact congrArg ((Event.send whole told).sent ++ ·) hend
  | error error => exact Breaks.append_left _ hend

variable [Network N]

/-- **What is sent is all that was to be sent, or stops short of it** if sending fails. -/
theorem sendUpTo_spec (calls : Nat) (bytes : Bytes) (t : Traced N) :
    Sends bytes t (sendUpTo calls bytes t).1 (sendUpTo calls bytes t).2 := by
  induction calls generalizing bytes t with
  | zero =>
      cases bytes with
      | nil => exact .nothing t
      | cons b bs =>
          exact ⟨[], (List.append_nil _).symm, List.forall_mem_nil _,
            breaks_nil (List.cons_ne_nil b bs)⟩
  | succ calls ih =>
      cases bytes with
      | nil => exact .nothing t
      | cons b bs =>
          have hsend : Network.send (b :: bs) t = ((Network.send (b :: bs) t.net).1,
              t.record (.send (b :: bs) (Network.send (b :: bs) t.net).1)
                (Network.send (b :: bs) t.net).2) := rfl
          generalize (Network.send (b :: bs) t.net).1 = outcome,
            (Network.send (b :: bs) t.net).2 = net at hsend
          unfold sendUpTo
          rw [hsend]
          split
          · -- an interrupted call has put nothing on its way, and is made again
            rename_i next heq
            obtain ⟨rfl, rfl⟩ := Prod.mk.inj heq
            exact (ih (b :: bs) _).behind
          · rename_i error next _ heq
            obtain ⟨rfl, rfl⟩ := Prod.mk.inj heq
            exact .failed (List.cons_ne_nil b bs) rfl
          · rename_i next heq
            obtain ⟨rfl, rfl⟩ := Prod.mk.inj heq
            exact .failed (List.cons_ne_nil b bs) rfl
          · rename_i n next _ heq
            obtain ⟨rfl, rfl⟩ := Prod.mk.inj heq
            have hmore := (ih ((b :: bs).drop n) (t.record (.send (b :: bs) (.ok n)) net)).behind
            rw [show (Event.send (b :: bs) (.ok n)).sent = (b :: bs).take n from rfl,
              List.take_append_drop] at hmore
            exact hmore

theorem sendAll_spec (bytes : Bytes) (t : Traced N) :
    Sends bytes t (sendAll bytes t).1 (sendAll bytes t).2 :=
  sendUpTo_spec (bytes.length + interruptions t) bytes t

/-! ## Receiving -/

/-- A network that counts truthfully how often receiving can still be interrupted. -/
class Truthful (N : Type) [Network N] : Prop where
  interrupted {n : Nat} {net net' : N} :
    Network.receive n net = (.error .interrupted, net') → interruptions net' < interruptions net
  received {n : Nat} {net net' : N} {outcome : Except Error Bytes} :
    Network.receive n net = (outcome, net') → interruptions net' ≤ interruptions net

/-- How exactly `n` octets are received: part by part, an interrupted call is made again, and any
other error or the end of the stream ends it. -/
inductive Receives : Nat → List Event → Except Error Bytes → Prop where
  | done : Receives 0 [] (.ok [])
  | again {n : Nat} {events : List Event} {outcome : Except Error Bytes} :
      Receives (n + 1) events outcome →
      Receives (n + 1) (.receive (n + 1) (.error .interrupted) :: events) outcome
  | failed {n : Nat} {error : Error} :
      error ≠ .interrupted → Receives (n + 1) [.receive (n + 1) (.error error)] (.error error)
  | ended {n : Nat} : Receives (n + 1) [.receive (n + 1) (.ok [])] (.error .unexpectedEnd)
  | part {n : Nat} {part : Bytes} {events : List Event} {outcome : Except Error Bytes} :
      part ≠ [] → part.length ≤ n + 1 → Receives (n + 1 - part.length) events outcome →
      Receives (n + 1) (.receive (n + 1) (.ok part) :: events) (outcome.map (part ++ ·))

/-- What is handed out is what was received, and it is never too little; a failure comes before all
of it is there. -/
theorem Receives.outcome {n : Nat} {outcome : Except Error Bytes}
    (h : Receives n events outcome) :
    (∀ bytes, outcome = .ok bytes → received events = bytes ∧ bytes.length = n) ∧
      ∀ error, outcome = .error error → (received events).length < n ∧ error ≠ .interrupted := by
  induction h with
  | done => exact ⟨fun _ hbytes => by cases hbytes; exact ⟨rfl, rfl⟩, nofun⟩
  | again _ ih => exact ih
  | failed hother =>
      exact ⟨nofun, fun _ herror => by cases herror; exact ⟨Nat.succ_pos _, hother⟩⟩
  | ended => exact ⟨nofun, fun _ herror => by cases herror; exact ⟨Nat.succ_pos _, nofun⟩⟩
  | @part n part events outcome hsome hfits _ ih =>
      have hgain := List.length_pos_iff.mpr hsome
      have htaken : (Event.receive (n + 1) (.ok part)).received = part := rfl
      rw [received_cons, htaken]
      cases outcome with
      | ok bytes =>
          obtain ⟨hreceived, hlength⟩ := ih.1 bytes rfl
          refine ⟨fun _ hbytes => ?_, nofun⟩
          cases hbytes
          exact ⟨by rw [hreceived], by rw [List.length_append]; omega⟩
      | error error =>
          obtain ⟨hshort, hother⟩ := ih.2 error rfl
          refine ⟨nofun, fun _ herror => ?_⟩
          cases herror
          exact ⟨by rw [List.length_append]; omega, hother⟩

theorem Receives.isReceive {n : Nat} {outcome : Except Error Bytes}
    (h : Receives n events outcome) : ∀ event ∈ events, event.IsReceive := by
  induction h with
  | done => exact List.forall_mem_nil _
  | again _ ih => exact List.forall_mem_cons.mpr ⟨trivial, ih⟩
  | failed | ended => exact List.forall_mem_singleton.mpr trivial
  | part _ _ _ ih => exact List.forall_mem_cons.mpr ⟨trivial, ih⟩

/-- A call that brings something, and the calls behind it. -/
theorem receiveUpTo_part {calls n : Nat} {net net' : N} {bytes : Bytes}
    (hcall : Network.receive (n + 1) net = (.ok bytes, net')) (hsome : bytes ≠ []) :
    receiveUpTo (calls + 1) (n + 1) net =
      ((receiveUpTo calls (n + 1 - (bytes.take (n + 1)).length) net').1.map
          (bytes.take (n + 1) ++ ·),
        (receiveUpTo calls (n + 1 - (bytes.take (n + 1)).length) net').2) := by
  cases bytes with
  | nil => exact absurd rfl hsome
  | cons b bs =>
      rw [receiveUpTo, hcall]
      dsimp only
      split <;> rename_i hrest <;> rw [hrest] <;> rfl

/-- **How exactly so many octets are received** in enough calls; in too few of them there is
nothing but receiving either. -/
theorem receiveUpTo_spec (calls n : Nat) (t : Traced N) :
    ∃ events, (receiveUpTo calls n t).2.events = t.events ++ events ∧
      (∀ event ∈ events, event.IsReceive) ∧
      (Truthful N → n + interruptions t.net ≤ calls →
        Receives n events (receiveUpTo calls n t).1) := by
  have hdone : ∀ calls (t : Traced N),
      ∃ events, (receiveUpTo calls 0 t).2.events = t.events ++ events ∧
        (∀ event ∈ events, event.IsReceive) ∧
        (Truthful N → 0 + interruptions t.net ≤ calls →
          Receives 0 events (receiveUpTo calls 0 t).1) := by
    intro calls t
    rw [receiveUpTo]
    exact ⟨[], (List.append_nil _).symm, List.forall_mem_nil _, fun _ _ => .done⟩
  induction calls generalizing n t with
  | zero =>
      cases n with
      | zero => exact hdone 0 t
      | succ n =>
          exact ⟨[], (List.append_nil _).symm, List.forall_mem_nil _,
            fun _ hcalls => absurd hcalls (by omega)⟩
  | succ calls ih =>
      cases n with
      | zero => exact hdone (calls + 1) t
      | succ n =>
          cases hcall : Network.receive (n + 1) t.net with
          | mk outcome net =>
          have hreceive : Network.receive (n + 1) t = (outcome,
              t.record (.receive (n + 1) (outcome.map (·.take (n + 1)))) net) :=
            congrArg (fun p => (p.1, t.record (.receive (n + 1) (p.1.map (·.take (n + 1)))) p.2))
              hcall
          cases outcome with
          | error error =>
              by_cases hinterrupted : error = .interrupted
              · subst hinterrupted
                obtain ⟨events, hmore, hkind, hend⟩ :=
                  ih (n + 1) (t.record (.receive (n + 1) (.error .interrupted)) net)
                rw [receiveUpTo, hreceive]
                refine ⟨.receive (n + 1) (.error .interrupted) :: events,
                  Traced.events_behind hmore,
                  List.forall_mem_cons.mpr ⟨trivial, hkind⟩, fun htruthful hcalls => ?_⟩
                have hlower := htruthful.interrupted hcall
                exact .again (hend htruthful (show _ + interruptions net ≤ _ by omega))
              · have hfailed : receiveUpTo (calls + 1) (n + 1) t = (.error error,
                    t.record (.receive (n + 1) (.error error)) net) := by
                  rw [receiveUpTo, hreceive]
                  cases error <;> first | rfl | exact absurd rfl hinterrupted
                rw [hfailed]
                exact ⟨_, Traced.events_record .., List.forall_mem_singleton.mpr trivial,
                  fun _ _ => .failed hinterrupted⟩
          | ok bytes =>
              cases bytes with
              | nil =>
                  rw [receiveUpTo, hreceive]
                  exact ⟨_, Traced.events_record .., List.forall_mem_singleton.mpr trivial,
                    fun _ _ => .ended⟩
              | cons b bs =>
                  rw [receiveUpTo_part hreceive (List.cons_ne_nil b bs)]
                  obtain ⟨events, hmore, hkind, hend⟩ :=
                    ih (n + 1 - ((b :: bs).take (n + 1)).length)
                      (t.record (.receive (n + 1) (.ok ((b :: bs).take (n + 1)))) net)
                  refine ⟨.receive (n + 1) (.ok ((b :: bs).take (n + 1))) :: events,
                    Traced.events_behind hmore,
                    List.forall_mem_cons.mpr ⟨trivial, hkind⟩, fun htruthful hcalls => ?_⟩
                  have hlower := htruthful.received hcall
                  have hgain : 0 < ((b :: bs).take (n + 1)).length := Nat.succ_pos _
                  exact .part (List.cons_ne_nil b _) (List.length_take_le _ _)
                    (hend htruthful (show _ + interruptions net ≤ _ by omega))

theorem receiveAll_spec (n : Nat) (t : Traced N) :
    ∃ events, (receiveAll n t).2.events = t.events ++ events ∧
      (∀ event ∈ events, event.IsReceive) ∧
      (Truthful N → Receives n events (receiveAll n t).1) := by
  obtain ⟨events, hevents, hkind, hend⟩ := receiveUpTo_spec (n + interruptions t) n t
  exact ⟨events, hevents, hkind, fun htruthful => hend htruthful le_rfl⟩

end Network

/-- A receiving call uses up what it meets, and its interruption with it. -/
theorem Rehearsal.receiveFrom_interruptions (n : Nat) (r : Rehearsal) (arrivals : List Arrival) :
    (r.receiveFrom n arrivals).2.sends = r.sends ∧
      ((r.receiveFrom n arrivals).2.arrivals.filter (· = .failure .interrupted)).length
        + (if (r.receiveFrom n arrivals).1 = .error .interrupted then 1 else 0)
        ≤ (arrivals.filter (· = .failure .interrupted)).length := by
  fun_induction receiveFrom n r arrivals with
  | case1 r => exact ⟨rfl, le_rfl⟩
  | case2 r rest ih => exact ih
  | case3 r b bs rest left =>
    refine ⟨rfl, ?_⟩
    dsimp only
    split <;> simp
  | case4 r time rest ih => exact ih
  | case5 r rest => exact ⟨rfl, by simp⟩
  | case6 r rest => exact ⟨rfl, by simp [silence]⟩
  | case7 r error rest hother =>
    refine ⟨rfl, ?_⟩
    by_cases h : error = .interrupted <;> simp [h]

theorem Rehearsal.receive_interruptions {n : Nat} {r r' : Rehearsal}
    {outcome : Except Network.Error Bytes} (h : Network.receive n r = (outcome, r')) :
    interruptions r' + (if outcome = .error .interrupted then 1 else 0) ≤ interruptions r := by
  have hcall : (if r.ended then (.ok [], r) else r.receiveFrom n r.arrivals) = (outcome, r') := h
  show Rehearsal.interruptions r' + _ ≤ Rehearsal.interruptions r
  split at hcall
  · obtain ⟨rfl, rfl⟩ := Prod.mk.inj hcall
    exact le_rfl
  · obtain ⟨hsends, harrivals⟩ := receiveFrom_interruptions n r r.arrivals
    rw [hcall] at hsends harrivals
    dsimp only at hsends harrivals
    unfold Rehearsal.interruptions
    rw [hsends]
    omega

instance : Network.Truthful Rehearsal where
  interrupted h := by
    have := Rehearsal.receive_interruptions h
    rw [if_pos rfl] at this
    exact this
  received h := (Nat.le_add_right _ _).trans (Rehearsal.receive_interruptions h)

/-! ## Runs -/

/-- A call on the link, with the calls on the network that it made. -/
structure Entry where
  call : Link.Event
  events : List Network.Event
  deriving Repr

namespace Entry

/-- Whether the call made a connection. -/
def connects (entry : Entry) : Bool := entry.events.any Network.Event.connects

/-- The octets that the call put on their way. -/
def sent (entry : Entry) : Bytes := Network.sent entry.events

/-- The octets that the call brought over the connection. -/
def received (entry : Entry) : Bytes := Network.received entry.events

end Entry

/-- The calls behind the one that made the last connection. -/
def current (entries : List Entry) : List Entry := entries.rtakeWhile fun entry => !entry.connects

variable {N : Type} [Network N] {address : Address} {entries : List Entry} {entry : Entry}
  {c c' : Client (Network.Traced N)} {events : List Network.Event}

theorem current_connected (h : entry.connects = true) : current (entries ++ [entry]) = [] :=
  List.rtakeWhile_concat_neg _ _ _ (by rw [h]; exact Bool.false_ne_true)

theorem current_still (h : entry.connects = false) :
    current (entries ++ [entry]) = current entries ++ [entry] :=
  List.rtakeWhile_concat_pos _ _ _ (by rw [h]; rfl)

theorem Entry.connects_eq_false (h : ∀ event ∈ entry.events, event.connects = false) :
    entry.connects = false :=
  List.any_eq_false.mpr fun event hevent => by rw [h event hevent]; exact Bool.false_ne_true

/-- The record of a call. -/
def Client.noted (c : Client (Network.Traced N)) (call : Link.Call) : Entry where
  call := (call.make c).1
  events := (call.make c).2.net.events.drop c.net.events.length

theorem Client.noted_eq (c : Client (Network.Traced N)) (call : Link.Call)
    (h : (call.make c).2.net.events = c.net.events ++ events) :
    c.noted call = ⟨(call.make c).1, events⟩ := by
  unfold Client.noted
  rw [h, List.drop_left]

/-- The calls on a link that nobody else uses, over a network that may change on its own, and what
has become of the link. -/
inductive Run (address : Address) : List Entry → Client (Network.Traced N) → Prop where
  | created (net : N) : Run address [] { net := { net }, address }
  /-- A call was made. -/
  | called {entries : List Entry} {c : Client (Network.Traced N)} (call : Link.Call) :
      Run address entries c → Run address (entries ++ [c.noted call]) (call.make c).2
  /-- The network changed. -/
  | changed {entries : List Entry} {c : Client (Network.Traced N)} (net : N) :
      Run address entries c → Run address entries { c with net := { c.net with net } }

/-- Makes calls one after the other: their record, and the link behind them. -/
def Client.makeAll (c : Client (Network.Traced N)) :
    List Link.Call → List Entry × Client (Network.Traced N)
  | [] => ([], c)
  | call :: calls =>
    let later := makeAll (call.make c).2 calls
    (c.noted call :: later.1, later.2)

theorem Run.makeAll (h : Run address entries c) (calls : List Link.Call) :
    Run address (entries ++ (c.makeAll calls).1) (c.makeAll calls).2 := by
  induction calls generalizing entries c with
  | nil =>
      rw [show (c.makeAll []).1 = [] from rfl, List.append_nil]
      exact h
  | cons call calls ih =>
      have hmore := ih (h.called call)
      rw [List.append_assoc] at hmore
      exact hmore

/-! ## What each call does on the network -/

namespace Client

open Network

theorem connect_spec (c : Client (Traced N)) :
    ∃ events, c.connect.2.net.events = c.net.events ++ events ∧
      ((c.isConnected = true ∧ events = [] ∧ c.connect = (.ok (), c)) ∨
        (c.isConnected = false ∧ events = [.connect (.ok ())] ∧ c.connect.1 = .ok () ∧
          c.connect.2.isConnected = true ∧ c.connect.2.pending = []) ∨
        (c.isConnected = false ∧ ∃ error fault, events = [.connect (.error error)] ∧
          c.connect.1 = .error (.bus fault) ∧
          c.connect.2.isConnected = false ∧ c.connect.2.pending = c.pending)) := by
  cases hup : c.isConnected with
  | true =>
      have hsame : c.connect = (.ok (), c) := by
        unfold connect
        rw [if_pos hup]
      exact ⟨[], by rw [hsame, List.append_nil], .inl ⟨rfl, rfl, hsame⟩⟩
  | false =>
      have hcall : Network.connect c.net = ((Network.connect c.net.net).1,
          c.net.record (.connect (Network.connect c.net.net).1) (Network.connect c.net.net).2) :=
        rfl
      generalize (Network.connect c.net.net).1 = outcome, (Network.connect c.net.net).2 = net
        at hcall
      unfold connect
      rw [if_neg (by rw [hup]; exact Bool.false_ne_true), hcall]
      refine ⟨[.connect outcome], ?_, .inr ?_⟩
      · cases outcome <;> exact Traced.events_record ..
      · cases outcome with
        | ok u => exact .inl ⟨rfl, rfl, rfl, rfl, rfl⟩
        | error error => exact .inr ⟨rfl, error, _, rfl, rfl, hup, rfl⟩

theorem disconnect_events (c : Client (Traced N)) :
    c.disconnect.net.events = c.net.events ++ if c.isConnected then [.shutdown] else [] := by
  unfold disconnect
  cases c.isConnected with
  | true => exact Traced.events_record ..
  | false => exact (List.append_nil _).symm

/-- What was sent for a write is the whole message, or stops short of it if the write fails. -/
theorem write_spec (bytes : Bytes) (timeout : Nanos) (c : Client (Traced N)) :
    ∃ events, (c.write bytes timeout).2.net.events = c.net.events ++ events ∧
      (∀ event ∈ events, event.IsSend ∨ event.IsSetting) ∧
      ((c.write bytes timeout).2.isConnected = c.isConnected ∧
        (c.write bytes timeout).2.pending = c.pending) ∧
      match (c.write bytes timeout).1 with
      | .ok n => n = bytes.length ∧ bytes.length ≤ messageMax ∧ Network.sent events = message bytes
      | .error _ => Breaks (Network.sent events) (message bytes) ∧
          (Network.sent events ≠ [] → bytes.length ≤ messageMax) := by
  have hnone : Breaks [] (message bytes) ∧ (([] : Bytes) ≠ [] → bytes.length ≤ messageMax) :=
    ⟨breaks_nil (List.cons_ne_nil _ _), fun hsent => absurd rfl hsent⟩
  unfold write
  split
  · exact ⟨[], (List.append_nil _).symm, List.forall_mem_nil _, ⟨rfl, rfl⟩, hnone⟩
  · rename_i hfits
    split
    · exact ⟨[], (List.append_nil _).symm, List.forall_mem_nil _, ⟨rfl, rfl⟩, hnone⟩
    · obtain ⟨events, hevents, hkind, hend⟩ :=
        sendAll_spec (message bytes) (Network.limitSend (max timeout minLimit) c.net)
      replace hevents := Traced.events_behind hevents
      refine ⟨.limitSend (max timeout minLimit) :: events, ?_,
        List.forall_mem_cons.mpr ⟨.inr trivial, fun event hevent => .inl (hkind event hevent)⟩, ?_⟩
      all_goals
        revert hend hevents
        rcases sendAll (message bytes) (Network.limitSend (max timeout minLimit) c.net) with
          ⟨outcome, net⟩
        intro hend hevents
        cases outcome
      · exact hevents
      · exact hevents
      · exact ⟨⟨rfl, rfl⟩, hend, fun _ => Nat.le_of_not_lt hfits⟩
      · exact ⟨⟨rfl, rfl⟩, rfl, Nat.le_of_not_lt hfits, hend⟩

/-- How what follows the first octet of a message is received. -/
inductive ReceivesRest : List Event → Except Network.Error Bytes → Prop where
  | headless {events : List Event} {error : Network.Error} :
      Receives 2 events (.error error) → ReceivesRest events (.error error)
  | headed {front back : List Event} {high low : UInt8} {outcome : Except Network.Error Bytes} :
      Receives 2 front (.ok [high, low]) → Receives (Bytes.toLength high low) back outcome →
      ReceivesRest (front ++ back) outcome

theorem receiveRest_spec (t : Traced N) :
    ∃ events, (receiveRest t).2.events = t.events ++ events ∧
      (∀ event ∈ events, event.IsReceive) ∧
      (Network.Truthful N → ReceivesRest events (receiveRest t).1) := by
  obtain ⟨front, hfront, hkind, hend⟩ := receiveAll_spec 2 t
  unfold receiveRest
  rcases hlength : receiveAll 2 t with ⟨outcome, net⟩
  rw [hlength] at hfront hend
  cases outcome with
  | error error => exact ⟨front, hfront, hkind, fun htruthful => .headless (hend htruthful)⟩
  | ok length =>
      obtain ⟨back, hback, hkind', hend'⟩ :=
        receiveAll_spec (Bytes.toLength (length.headD 0) (length.getD 1 0)) net
      refine ⟨front ++ back, hback.trans (by rw [hfront, List.append_assoc]),
        List.forall_mem_append.mpr ⟨hkind, hkind'⟩, fun htruthful => ?_⟩
      have hhead := hend htruthful
      obtain ⟨-, htwo⟩ := hhead.outcome.1 length rfl
      obtain ⟨high, low, rfl⟩ := List.length_eq_two.mp htwo
      exact .headed hhead (hend' htruthful)

/-- How a message is received over a connection: the calls on the network, what comes of it, and
whether the connection is still there. -/
inductive Fetches (limit : Nanos) :
    List Event → Except Link.Fault Bytes → Bool → Prop where
  /-- Nothing of a message is there. -/
  | silent {error : Network.Error} :
      Fetches limit [.limitReceive limit, .receive 1 (.error error)] (.error (linkFault error)) true
  /-- The stream ends between two messages. -/
  | ended :
      Fetches limit [.limitReceive limit, .receive 1 (.ok []), .shutdown] (.error .closed) false
  /-- Something goes wrong within a message. -/
  | cut {kind : UInt8} {events : List Event} {error : Network.Error} :
      ReceivesRest events (.error error) →
      Fetches limit (.limitReceive limit :: .receive 1 (.ok [kind]) :: (events ++ [.shutdown]))
        (.error (.bus ("truncated proxy message: " ++ error.message))) false
  /-- A message of another type is refused. -/
  | strange {kind : UInt8} {events : List Event} {bytes : Bytes} :
      kind ≠ blockMessage → ReceivesRest events (.ok bytes) →
      Fetches limit (.limitReceive limit :: .receive 1 (.ok [kind]) :: events)
        (.error (.bus ("unexpected message type " ++ Hex.octet kind))) true
  | whole {events : List Event} {bytes : Bytes} :
      ReceivesRest events (.ok bytes) →
      Fetches limit (.limitReceive limit :: .receive 1 (.ok [blockMessage]) :: events)
        (.ok bytes) true

/-- What a read of at most `n` octets does: given whether there is a connection and what is pending,
the calls on the network, what is handed out, and the two again. -/
inductive Reads (n : Nat) (limit : Nanos) :
    Bool → Bytes → List Event → Except Link.Fault Bytes → Bool → Bytes → Prop where
  | served {up : Bool} {pending : Bytes} :
      pending ≠ [] → Reads n limit up pending [] (.ok (pending.take n)) up (pending.drop n)
  | unconnected : Reads n limit false [] [] (.error .closed) false []
  | failed {events : List Event} {fault : Link.Fault} {up : Bool} :
      Fetches limit events (.error fault) up →
      Reads n limit true [] events (.error fault) up []
  | fetched {events : List Event} {bytes : Bytes} {up : Bool} :
      Fetches limit events (.ok bytes) up →
      Reads n limit true [] events (.ok (bytes.take n)) up (bytes.drop n)

/-- Behind its first octet a message is there as a whole, or the connection is dropped. -/
theorem receiveMessage_headed {timeout : Nanos} {kind : UInt8} {more : Bytes} {t : Traced N}
    (hup : c.isConnected = true) (hpending : c.pending = [])
    (hcall : Network.receive 1 (Network.limitReceive (max timeout minLimit) c.net)
      = (.ok (kind :: more), t)) :
    ∃ events outcome, (c.receiveMessage timeout).2.net.events = t.events ++ events ∧
      (∀ event ∈ events, event.IsReceive ∨ event.IsSetting) ∧
      (c.receiveMessage timeout).1 = outcome.map (fun _ => ()) ∧
      (c.receiveMessage timeout).2.pending = outcome.toOption.getD [] ∧
      (Network.Truthful N → Fetches (max timeout minLimit)
        (.limitReceive (max timeout minLimit) :: .receive 1 (.ok [kind]) :: events) outcome
        (c.receiveMessage timeout).2.isConnected) := by
  unfold receiveMessage
  rw [if_neg (by rw [hup]; exact Bool.false_ne_true), hcall]
  generalize max timeout minLimit = limit
  obtain ⟨events, hrest, hreceives, hend⟩ := receiveRest_spec t
  have hquiet : ∀ event ∈ events, event.IsReceive ∨ event.IsSetting :=
    fun event hevent => .inl (hreceives event hevent)
  revert hrest hend
  dsimp only
  rcases receiveRest t with ⟨outcome, net⟩
  intro hrest hend
  cases outcome with
  | error error =>
      -- the next octets could be in the middle of a message, so the connection goes
      refine ⟨events ++ [.shutdown], .error _, ?_, ?_, rfl, rfl,
        fun htruthful => .cut (hend htruthful)⟩
      · rw [disconnect_events, if_pos hup]
        dsimp only at hrest ⊢
        rw [hrest, List.append_assoc]
      · exact List.forall_mem_append.mpr
          ⟨hquiet, List.forall_mem_singleton.mpr (.inr trivial)⟩
  | ok bytes =>
      dsimp only
      by_cases hblock : kind = blockMessage
      · rw [if_pos hblock, hpending, hblock]
        exact ⟨events, .ok bytes, hrest, hquiet, rfl, rfl, fun htruthful => by
          rw [hup]; exact .whole (hend htruthful)⟩
      · rw [if_neg hblock]
        exact ⟨events, .error _, hrest, hquiet, rfl, hpending, fun htruthful => by
          rw [hup]; exact .strange hblock (hend htruthful)⟩

/-- How a message is received when nothing is pending. -/
theorem receiveMessage_spec (timeout : Nanos) (hup : c.isConnected = true)
    (hpending : c.pending = []) :
    ∃ events outcome, (c.receiveMessage timeout).2.net.events = c.net.events ++ events ∧
      (∀ event ∈ events, event.IsReceive ∨ event.IsSetting) ∧
      (c.receiveMessage timeout).1 = outcome.map (fun _ => ()) ∧
      (c.receiveMessage timeout).2.pending = outcome.toOption.getD [] ∧
      (Network.Truthful N → Fetches (max timeout minLimit) events outcome
        (c.receiveMessage timeout).2.isConnected) := by
  generalize hlimit : max timeout minLimit = limit
  have hcall : Network.receive 1 (Network.limitReceive limit c.net) =
      ((Network.receive 1 (Network.limitReceive limit c.net.net)).1,
        (c.net.record (.limitReceive limit) (Network.limitReceive limit c.net.net)).record
          (.receive 1 ((Network.receive 1 (Network.limitReceive limit c.net.net)).1.map (·.take 1)))
          (Network.receive 1 (Network.limitReceive limit c.net.net)).2) := rfl
  generalize (Network.receive 1 (Network.limitReceive limit c.net.net)).1 = outcome,
    (Network.receive 1 (Network.limitReceive limit c.net.net)).2 = net at hcall
  have hfirst : ∀ event : Event,
      ((c.net.record (.limitReceive limit) (Network.limitReceive limit c.net.net)).record event
        net).events = c.net.events ++ [.limitReceive limit, event] :=
    fun event => Traced.events_behind (Traced.events_record ..)
  have hquiet : ∀ outcome, ∀ event ∈ [Event.limitReceive limit, .receive 1 outcome],
      event.IsReceive ∨ event.IsSetting := fun outcome =>
    List.forall_mem_cons.mpr ⟨.inr trivial, List.forall_mem_singleton.mpr (.inl trivial)⟩
  cases outcome with
  | error error =>
      unfold receiveMessage
      rw [if_neg (by rw [hup]; exact Bool.false_ne_true), hlimit, hcall]
      exact ⟨_, .error (linkFault error), hfirst _, hquiet _, rfl, hpending, fun _ => by
        rw [hup]; exact .silent⟩
  | ok bytes =>
      cases bytes with
      | nil =>
          unfold receiveMessage
          rw [if_neg (by rw [hup]; exact Bool.false_ne_true), hlimit, hcall]
          refine ⟨[.limitReceive limit, .receive 1 (.ok []), .shutdown], .error .closed, ?_, ?_,
            rfl, rfl, fun _ => .ended⟩
          · rw [disconnect_events, if_pos hup]
            dsimp only
            rw [hfirst, List.append_assoc]
            rfl
          · exact List.forall_mem_cons.mpr ⟨.inr trivial,
              List.forall_mem_cons.mpr ⟨.inl trivial, List.forall_mem_singleton.mpr (.inr trivial)⟩⟩
      | cons kind more =>
          rw [← hlimit] at hcall
          obtain ⟨events, outcome, hevents, hkind, hrest⟩ :=
            receiveMessage_headed hup hpending hcall
          rw [hlimit] at hevents hrest
          refine ⟨.limitReceive limit :: .receive 1 (.ok [kind]) :: events, outcome, ?_,
            List.forall_mem_append.mpr ⟨hquiet (.ok [kind]), hkind⟩, hrest⟩
          rw [hevents, hfirst, List.append_assoc]
          rfl

theorem read_served {n : Nat} {timeout : Nanos} (h : c.pending ≠ []) :
    c.read n timeout = (.ok (c.pending.take n), { c with pending := c.pending.drop n }) := by
  unfold read
  rw [if_neg (by rwa [List.isEmpty_iff])]
  rfl

theorem read_unconnected {n : Nat} {timeout : Nanos} (hdown : c.isConnected = false)
    (hpending : c.pending = []) : c.read n timeout = (.error .closed, c) := by
  have hmessage : c.receiveMessage timeout = (.error .closed, c) := by
    unfold receiveMessage
    rw [if_pos (by rw [hdown]; rfl)]
  unfold read
  rw [if_pos (by rw [hpending]; rfl), hmessage]

theorem write_unconnected {bytes : Bytes} {timeout : Nanos} (hdown : c.isConnected = false)
    (hfits : bytes.length ≤ messageMax) : c.write bytes timeout = (.error .closed, c) := by
  unfold write
  rw [if_neg (Nat.not_lt.mpr hfits), if_pos (by rw [hdown]; rfl)]

/-- **What a read does**, and that it sends nothing. -/
theorem read_spec (n : Nat) (timeout : Nanos) (c : Client (Traced N)) :
    ∃ events, (c.read n timeout).2.net.events = c.net.events ++ events ∧
      (∀ event ∈ events, event.IsReceive ∨ event.IsSetting) ∧
      (Network.Truthful N → Reads n (max timeout minLimit) c.isConnected c.pending events
        (c.read n timeout).1 (c.read n timeout).2.isConnected (c.read n timeout).2.pending) := by
  by_cases hpending : c.pending = []
  swap
  · rw [read_served hpending]
    exact ⟨[], (List.append_nil _).symm, List.forall_mem_nil _, fun _ => .served hpending⟩
  cases hup : c.isConnected with
  | false =>
      rw [read_unconnected hup hpending]
      refine ⟨[], (List.append_nil _).symm, List.forall_mem_nil _, fun _ => ?_⟩
      rw [hpending, hup]
      exact .unconnected
  | true =>
      unfold read
      rw [if_pos (by rw [hpending]; rfl)]
      obtain ⟨events, outcome, hevents, hquiet, houtcome, hleft, hend⟩ :=
        receiveMessage_spec timeout hup hpending
      revert hevents houtcome hleft hend
      rcases c.receiveMessage timeout with ⟨received, c'⟩
      intro hevents houtcome hleft hend
      dsimp only at houtcome hleft hend
      subst houtcome
      refine ⟨events, ?_, hquiet, fun htruthful => ?_⟩
      · cases outcome <;> exact hevents
      · have hfetches := hend htruthful
        rw [hpending]
        cases outcome with
        | error fault =>
            dsimp only [Except.map]
            rw [hleft]
            exact .failed hfetches
        | ok bytes =>
            dsimp only [Except.map, takePending]
            rw [hleft]
            exact .fetched hfetches

end Client
end Proxy
end SecureElement
