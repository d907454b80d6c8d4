import SecureElement.Proofs.Guarantees
import SecureElement.Proofs.Equipment
import SecureElement.Proofs.TwinRuns

/-!
# A session that is opened again

A session can be closed in any state, and opened again later. `reopening` says that it is
then as good as a new one: whatever is asked of the two, they do the same to the link and
come to the same, and the statistics of the old one are ahead by what they were.

One thing is not as good as new. What an answer to reset told, how much a block may carry
and where the sequence numbers stand is renewed once the link has come up, and not before.
So as long as the link fails to come up an old session still shows what it had been told,
and the numbers at which it had stopped (`reopening_stale`).

Until the link comes up the two are `Parted`: closed, and alike but for that. From then on
they are twins.
-/

namespace SecureElement

open Link SecureElement.Action

namespace Session

/-! ## Closed sessions -/

section Parted

variable {L α β : Type} [Link L] {d : Statistics} {k : Known} {s t : Session L}

/-- Closed sessions that are twins as soon as the link comes up. -/
structure Parted (d : Statistics) (k : Known) (s t : Session L) : Prop where
  closed : s.status = .closed
  closed' : t.status = .closed
  link : t.link = s.link
  parked : s.parked = none
  parked' : t.parked = none
  extension : t.extension = s.extension
  twins : ∀ link : L, Twins d k (afresh { s with link }) (afresh { t with link })

/-- The action fails at once, in both for the same reason. -/
def Refused (x : Action Failure L α) (s t : Session L) : Prop :=
  Agree x s x t fun r s' t' => (∃ stop, r = .error stop) ∧ s' = s ∧ t' = t

omit [Link L] in
theorem Refused.bind {x : Call L β} {f : β → Call L α} (h : Refused x s t) :
    Refused (x >>= f) s t :=
  Agree.bind h (fun _ _ _ hend => absurd hend.1 nofun)
    fun stop _ _ hend => ⟨⟨stop, rfl⟩, hend.2⟩

/-- A closed session runs no exchange. -/
theorem run_refused_closed {exchange : Step L α} (hs : s.status = .closed)
    (ht : t.status = .closed) : Refused (run exchange) s t := by
  refine Refused.bind ?_
  unfold Refused begin
  rw [agree_get_bind, hs, ht]
  exact ⟨rfl, ⟨_, rfl⟩, rfl, rfl⟩

omit [Link L] in
/-- A change that an opening undoes, or that both make, leaves them parted. -/
theorem Parted.change (h : Parted d k s t) {s' t' : Session L} (hs : s'.status = .closed)
    (ht : t'.status = .closed) (hlink : t'.link = s'.link) (hparked : s'.parked = none)
    (hparked' : t'.parked = none) (hextension : t'.extension = s'.extension)
    (htwins : ∀ link : L, Twins d k (afresh { s with link }) (afresh { t with link }) →
      Twins d k (afresh { s' with link }) (afresh { t' with link })) : Parted d k s' t' :=
  ⟨hs, ht, hlink, hparked, hparked', hextension, fun link => htwins link (h.twins link)⟩

theorem Parted.close (h : Parted d k s t) : Parted d k s.close t.close := by
  refine h.change rfl rfl ?_ rfl rfl rfl fun link htwins => ?_
  · unfold Session.close
    rw [h.closed, h.closed']
    exact h.link
  · have hchanged := htwins.change
      (fun s => { s with status := .closed, deadline := none, commandPending := false })
      (fun _ _ _ _ _ => rfl) fun _ => ⟨rfl, rfl, rfl, rfl, nofun, fun _ => id⟩
    exact hchanged.clear_response.of_cleared

omit [Link L] in
theorem Parted.dropResponse (h : Parted d k s t) : Parted d k s.dropResponse t.dropResponse :=
  h.change h.closed h.closed' h.link rfl rfl h.extension fun _ htwins =>
    htwins.clear_response.of_cleared

omit [Link L] in
theorem Parted.withLink (h : Parted d k s t) (link : L) :
    Parted d k { s with link } { t with link } :=
  h.change h.closed h.closed' rfl h.parked h.parked' h.extension fun _ htwins => htwins

omit [Link L] in
/-- What the two show is the same, but for what is renewed later. -/
theorem Parted.shows (h : Parted d k s t) (hresponse : k.response) :
    t.responseBytes = s.responseBytes ∧ t.statistics = d + s.statistics := by
  obtain ⟨response, command, frame, hreplaces, hsame⟩ := h.twins s.link
  have hbuffer : t.response = response := congrArg Session.response hsame
  have hstatistics : t.statistics = d + s.statistics := congrArg Session.statistics hsame
  refine ⟨?_, hstatistics⟩
  unfold responseBytes
  rw [hbuffer, hreplaces.sameResponse hresponse]
  rfl

end Parted

/-! ## Until the link comes up -/

variable {L : Type} [Link L] {settings : Settings} {d : Statistics} {k : Known}
  {s t : Session (Traced L)}

/-- The link came up since then. -/
def CameUp (since now : Traced L) : Prop :=
  ∃ events, now.events = since.events ++ events ∧ Event.bringUp (.ok ()) ∈ events

/-- The record goes on from there, and the link did not come up. -/
def StayedDown (since now : Traced L) : Prop :=
  ∃ events, now.events = since.events ++ events ∧ Event.bringUp (.ok ()) ∉ events

omit [Link L] in
theorem StayedDown.not_cameUp {since now : Traced L} (h : StayedDown since now) :
    ¬ CameUp since now := by
  rintro ⟨events', hevents', hup⟩
  obtain ⟨events, hevents, hdown⟩ := h
  obtain rfl := List.append_cancel_left (hevents.symm.trans hevents')
  exact hdown hup

/-- Parted for as long as the link stays down, and twins from then on. -/
def Reunites (d : Statistics) (k : Known) (since : Traced L) (s t : Session (Traced L)) : Prop :=
  (Parted d k s t ∧ StayedDown since s.link) ∨ Twins d k s t

theorem establish_parted {since : Traced L} (h : Parted d k s t)
    (hdown : StayedDown since s.link) :
    Agree establish s establish t fun _ => Reunites d k since := by
  cases houtcome : (Link.bringUp s.link).1 with
  | ok u =>
      exact (establish_raised h.closed h.closed' h.link houtcome (h.twins _)).mono
        fun _ _ _ htwins => Or.inr htwins
  | error fault =>
      unfold establish
      rw [agree_get_bind, h.closed, h.closed', if_neg (Status.not_isOpen_iff.mpr rfl),
        agree_onLink_bind, h.link, houtcome]
      refine ⟨rfl, Or.inl ⟨h.withLink _, ?_⟩⟩
      obtain ⟨events, hevents, hnone⟩ := hdown
      have hrecord : (Link.bringUp s.link).2.events = s.link.events
          ++ [.bringUp (Link.bringUp s.link.link).1] := Traced.events_record ..
      have hfault : (Link.bringUp s.link.link).1 = .error fault := houtcome
      rw [hevents, hfault, List.append_assoc] at hrecord
      refine ⟨events ++ [.bringUp (.error fault)], hrecord, fun hup => ?_⟩
      rcases List.mem_append.mp hup with hup | hup
      · exact hnone hup
      · exact absurd (List.mem_singleton.mp hup) nofun

/-- No call but an opening does anything to a closed session, beyond what both do. -/
theorem perform_parted {since : Traced L} (request : Request) (h : Parted d k s t)
    (hdown : StayedDown since s.link) :
    Agree (perform request) s (perform request) t fun _ => Reunites d k since := by
  have hrefused : Refused (perform request) s t →
      Agree (perform request) s (perform request) t fun _ => Reunites d k since := by
    intro hrefused
    refine hrefused.mono fun _ s' t' hend => ?_
    obtain ⟨-, rfl, rfl⟩ := hend
    exact Or.inl ⟨h, hdown⟩
  have hrun : ∀ {α : Type} {exchange : Step (Traced L) α}, Refused (run exchange) s t :=
    run_refused_closed h.closed h.closed'
  cases request with
  | establish =>
      exact (establish_parted h hdown).bind (fun _ _ _ hend => ⟨rfl, hend⟩) fun _ _ _ hend => hend
  | close =>
      refine ⟨rfl, Or.inl ⟨h.close, ?_⟩⟩
      unfold close
      rw [h.closed]
      exact hdown
  | send command => exact hrefused hrun.bind
  | receive => exact hrefused hrun.bind.bind
  | transceive command => exact hrefused hrun.bind.bind
  | prefetch =>
      refine hrefused (Refused.bind ?_)
      unfold Refused prefetch
      rw [agree_get_bind, h.parked, h.parked']
      exact hrun
  | resync => exact hrefused hrun.bind
  | softReset => exact hrefused hrun.bind
  | endApduSession => exact hrefused hrun.bind
  | reset =>
      have hreset : Agree reset s reset t fun _ => Reunites d k since := by
        unfold reset
        rw [agree_get_bind, h.closed, h.closed', if_neg (Status.not_isOpen_iff.mpr rfl)]
        exact establish_parted h hdown
      exact hreset.bind (fun _ _ _ hend => ⟨rfl, hend⟩) fun _ _ _ hend => hend
  | dropResponse => exact ⟨rfl, Or.inl ⟨h.dropResponse, hdown⟩⟩

theorem perform_reunites {since : Traced L} (request : Request) (h : Reunites d k since s t) :
    Agree (perform request) s (perform request) t fun _ => Reunites d k since := by
  rcases h with ⟨hparted, hdown⟩ | htwins
  · exact perform_parted request hparted hdown
  · exact (perform_twins request s t htwins).mono fun _ _ _ hend => Or.inr hend

/-! ## Rows of calls -/

/-- Makes one call after the other. Each call comes with its end and the session that it left. -/
def performAll : List Request → Session (Traced L) →
    List (Except (Stop Failure) (Option Bytes) × Session (Traced L))
  | [], _ => []
  | request :: requests, s =>
    ((perform request).result s, (perform request).final s)
      :: performAll requests ((perform request).final s)

/-- A call on the second session came to the same as one on the first, and left what shows the same.
The link tells all calls that were made on it, with what came of them. -/
structure ShowsSame (d : Statistics) (since : Traced L)
    (a b : Except (Stop Failure) (Option Bytes) × Session (Traced L)) : Prop where
  result : b.1 = a.1
  link : b.2.link = a.2.link
  status : b.2.status = a.2.status
  response : b.2.responseBytes = a.2.responseBytes
  extension : b.2.extension = a.2.extension
  statistics : b.2.statistics = d + a.2.statistics
  /-- What is renewed once the link has come up. -/
  renewed : CameUp since a.2.link → b.2.sendSeq = a.2.sendSeq ∧ b.2.recvSeq = a.2.recvSeq ∧
    b.2.answer = a.2.answer ∧ b.2.codec.maxPayload = a.2.codec.maxPayload

omit [Link L] in
theorem Reunites.showsSame {since : Traced L} (h : Reunites d k since s t) (hresponse : k.response)
    (result : Except (Stop Failure) (Option Bytes)) :
    ShowsSame d since (result, s) (result, t) := by
  rcases h with ⟨hparted, hdown⟩ | ⟨response, command, frame, hreplaces, rfl⟩
  · obtain ⟨hbytes, hstatistics⟩ := hparted.shows hresponse
    exact {
      result := rfl
      link := hparted.link
      status := hparted.closed'.trans hparted.closed.symm
      response := hbytes
      extension := hparted.extension
      statistics := hstatistics
      renewed := fun hup => absurd hup hdown.not_cameUp }
  · obtain rfl := hreplaces.sameResponse hresponse
    exact ⟨rfl, rfl, rfl, rfl, rfl, rfl, fun _ => ⟨rfl, rfl, rfl, rfl⟩⟩

/-- **Whatever is asked of the two, they come to the same.** -/
theorem performAll_showsSame {since : Traced L} (hresponse : k.response) (requests : List Request) :
    ∀ s t : Session (Traced L), Reunites d k since s t →
      List.Forall₂ (ShowsSame d since) (performAll requests s) (performAll requests t) := by
  induction requests with
  | nil => exact fun _ _ _ => .nil
  | cons request requests ih =>
      intro s t h
      obtain ⟨hresult, hreunites⟩ := (perform_reunites request h).ends
      have hshows := hreunites.showsSame hresponse ((perform request).result s)
      refine .cons ?_ (ih _ _ hreunites)
      rw [← hresult]
      exact hshows

/-! ## As good as new -/

/-- Of the buffers only the response is shown. -/
def Known.shown : Known := ⟨True, False, False⟩

omit [Link L] in
theorem statistics_zero_add (c : Statistics) : ({} : Statistics) + c = c := by
  show Statistics.mk _ _ _ _ _ _ = _
  simp only [Nat.zero_add]

omit [Link L] in
/-- A session with tidy buffers is a twin of itself. -/
theorem twins_self (hresponse : s.response.Tidy) (hcommand : s.command.Tidy)
    (hframe : s.frame.Tidy) : Twins {} .shown s s := by
  refine ⟨s.response, s.command, s.frame, ?_, ?_⟩
  · exact ⟨hresponse.paired, hcommand.paired, hframe.paired, fun _ => rfl, fun _ => rfl,
      fun _ => rfl⟩
  · rw [statistics_zero_add]

/-- **No call leaves anything behind in an unused cell.** -/
theorem Reachable.twins (h : Reachable settings s) : Twins {} .shown s s := by
  induction h with
  | created hnew =>
      obtain ⟨-, rfl⟩ := new_eq_ok hnew
      exact twins_self (Buffer.tidy_empty _) (Buffer.tidy_empty _) (Buffer.tidy_empty _)
  | called request _ ih => exact (perform_twins request _ _ ih).ends.2
  | touched link _ ih =>
      exact ih.change (fun s => { s with link }) (fun _ _ _ _ _ => rfl)
        fun _ => .of_eq rfl

/-- Settings that led to one session lead to another. -/
theorem Reachable.new_eq (h : Reachable settings s) (link : Traced L) :
    new link settings = .ok (create link settings) := by
  induction h with
  | @created link' s' hnew =>
      unfold new at hnew ⊢
      split at hnew
      · exact absurd hnew nofun
      · split at hnew
        · rename_i hcapacity
          exact if_pos hcapacity
        · exact absurd hnew nofun
  | called request _ ih => exact ih
  | touched link _ ih => exact ih

/-- Once it is closed, a session is like a new one, but for what is renewed later. -/
theorem Reachable.parted (h : Reachable settings s) :
    Parted s.statistics .shown (create s.close.link settings) s.close := by
  obtain ⟨_, _, _, hreplaces, -⟩ := h.twins
  have hequipped := h.equipped
  have hframe : s.frame.capacity = (create s.close.link settings).frame.capacity :=
    h.sound.frame.trans (Buffer.capacity_empty _).symm
  have hcommand : s.command.capacity = (create s.close.link settings).command.capacity :=
    hequipped.command.trans (Buffer.capacity_empty _).symm
  have hresponse : s.response.clear = .empty settings.responseCapacity := by
    rw [hreplaces.pairedResponse.tidy.clear_eq, hequipped.response]
  have hsettings : s.settings = settings := hequipped.settings
  refine ⟨rfl, rfl, rfl, rfl, rfl, rfl, fun link => ⟨s.response.clear, s.command, s.frame, ?_, ?_⟩⟩
  · rw [hresponse]
    exact {
      pairedResponse := (Buffer.tidy_empty _).paired
      pairedCommand := ⟨Buffer.tidy_empty _, hreplaces.pairedCommand.tidy, hcommand⟩
      pairedFrame := ⟨Buffer.tidy_empty _, hreplaces.pairedFrame.tidy, hframe⟩
      sameResponse := fun _ => rfl
      sameCommand := fun hk => hk.elim False.elim nofun
      sameFrame := fun hk => hk.elim False.elim nofun }
  · unfold afresh
    dsimp only [resetSequence, resetExchange, close, create]
    rw [hsettings]
    rfl

/--
**A session that is opened again is as good as a new one.** However it was left, it is
closed and opened again on one side, and on the other a session is created on the link that
closing left, and opened. Whatever calls follow, the two make the same calls on the link
with the same arguments, come to the same results, and show the same status, response and
extra time; the statistics of the one are ahead by what they were when it was closed. The
sequence numbers, the answer to reset and the limit on outgoing blocks are the same too
from the first opening on in which the link came up.
-/
theorem reopening (h : Reachable settings s) (requests : List Request) :
    ∃ fresh, new s.close.link settings = .ok fresh ∧
      List.Forall₂ (ShowsSame s.statistics s.close.link)
        (performAll (.establish :: requests) fresh)
        (performAll (.establish :: requests) s.close) := by
  refine ⟨create s.close.link settings, h.new_eq _, ?_⟩
  have hdown : StayedDown s.close.link (create s.close.link settings).link :=
    ⟨[], (List.append_nil _).symm, List.not_mem_nil⟩
  exact performAll_showsSame trivial _ _ _ (Or.inl ⟨h.parted, hdown⟩)

/-- A link that comes up once, fails the next time it is to come up, and answers two handshakes. -/
def failingOnce : Rehearsal :=
  let answered : Reading := { outcome := .ok { bytes := [0xA5, 0xE0, 0, 0x45], chunk := none } }
  { openings := [none, some (.fault .notAcknowledged)], readings := [answered, answered] }

/-- A session over such a link that has sent a command. -/
def stranded : Session (Traced Rehearsal) :=
  (perform (.send [0x80])).final
    ((perform .establish).final (create { link := failingOnce } rehearsalSettings))

theorem stranded_reachable : Reachable rehearsalSettings stranded := by
  have hnew : new { link := failingOnce } rehearsalSettings
      = .ok (create (L := Traced Rehearsal) { link := failingOnce } rehearsalSettings) := rfl
  exact .called (.send [0x80]) (.called .establish (.created hnew))

theorem reopening_stranded :
    Reachable rehearsalSettings stranded ∧ ∃ fresh,
      new stranded.close.link rehearsalSettings = .ok fresh ∧
      (performAll [.establish, .establish, .receive] fresh).map Prod.fst
        = (performAll [.establish, .establish, .receive] stranded.close).map Prod.fst := by
  obtain ⟨fresh, hnew, hshows⟩ := reopening stranded_reachable [.establish, .receive]
  refine ⟨stranded_reachable, fresh, hnew, ?_⟩
  refine (congrFun₂ List.forall₂_eq_eq_eq _ _).mp ?_
  rw [List.forall₂_map_left_iff, List.forall₂_map_right_iff]
  exact hshows.imp fun _ _ h => h.result.symm

/-- **An opening that fails on the link leaves the sequence numbers where they were**, and a new
session does not show them. -/
theorem reopening_stale :
    Reachable rehearsalSettings stranded ∧
    new stranded.close.link rehearsalSettings
      = .ok (create stranded.close.link rehearsalSettings) ∧
    ((perform .establish).final stranded.close).sendSeq = .one ∧
    ((perform .establish).final (create stranded.close.link rehearsalSettings)).sendSeq
      = .zero := by
  refine ⟨stranded_reachable, rfl, ?_, ?_⟩
  · decide +kernel
  · decide +kernel

end Session

end SecureElement
