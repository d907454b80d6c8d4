import SecureElement.Proofs.Delivery
import SecureElement.Proofs.Recovery
import SecureElement.Proofs.Response

/-!
# The exchanges of the calls

Six calls run one exchange each (`Request.exchange?`). Every one of these exchanges
keeps to `Exchanged`, so every one of these calls has the same `Outcome`
(`perform_outcome`).

Every call is made of these exchanges, of openings, and of forgetting something. So what
all of these keep is kept by every call (`perform_keeps`).
-/

namespace SecureElement.Session

open Link SecureElement.Action

variable {L : Type} {s s' : Session (Traced L)} {items : List Passage} {α : Type}

/-! ## One exchange after the other -/

theorem Within.exchanged_ok {a : α} (h : Within s items s') (hparked : s'.ParkedOrdinary) :
    Exchanged s (.ok a) s' :=
  ⟨⟨h.keeps, h.status, hparked⟩, items, h.passes, h.talk⟩

theorem Within.exchanged_error {stop : Stop Setback} (h : Within s items s')
    (hparked : s'.ParkedOrdinary) (hresyncs : s'.statistics.resyncs = s.statistics.resyncs)
    (hends : stop.EndsExchange s') : Exchanged s (.error stop : Except _ α) s' :=
  ⟨⟨h.keeps, h.status, hparked⟩, ⟨items, h⟩, hresyncs, hends⟩

theorem Proceeds.parkedOrdinary (h : Proceeds s items s') (hparked : s.ParkedOrdinary) :
    s'.ParkedOrdinary := by
  unfold ParkedOrdinary
  rw [h.parked]
  exact hparked

/-- An exchange that begins by dropping what is parked. -/
theorem Proceeds.of_dropped (h : Proceeds { s with parked := none } items s') :
    Within s items s' ∧ s'.parked = none ∧ s'.statistics.resyncs = s.statistics.resyncs :=
  ⟨{ h.toWithin with }, h.parked, h.resyncs⟩

/-- An exchange that moved nothing of its own and failed in order. -/
theorem Proceeds.exchanged_error {stop : Stop Setback} (h : Proceeds s items s')
    (hparked : s.ParkedOrdinary) (horderly : stop.IsOrderly s') :
    Exchanged s (.error stop : Except _ α) s' :=
  h.toWithin.exchanged_error (h.parkedOrdinary hparked) h.resyncs (.inl horderly)

variable [Link L]

theorem sendChain_exchanged (command : Bytes) (hcapacity : Block.longPrologue ≤ s.frame.capacity) :
    Ensures (Step.sendChain command) s (Exchanged s) := by
  refine (Step.sendChain_spec command hcapacity).mono ?_
  intro r s' hend
  obtain ⟨items, hproceeds, hr⟩ := hend
  obtain ⟨hwithin, hnone, hresyncs⟩ := hproceeds.of_dropped
  have hparked := parkedOrdinary_of_none hnone
  cases r with
  | ok u => exact hwithin.exchanged_ok hparked
  | error stop => exact hwithin.exchanged_error hparked hresyncs (.inl hr.1)

theorem receiveResponse_exchanged (hcapacity : Block.longPrologue ≤ s.frame.capacity)
    (hbudget : s.WithinBudget) (hparked : s.ParkedOrdinary) :
    Ensures Step.receiveResponse s (Exchanged s) := by
  cases hreceived : s.parked with
  | none =>
      refine (Step.receiveResponse_spec hcapacity hreceived hbudget).mono ?_
      intro r s' hr
      cases r with
      | ok u =>
          obtain ⟨items, blocks, hproceeds, -⟩ := hr
          exact hproceeds.toWithin.exchanged_ok (hproceeds.parkedOrdinary hparked)
      | error stop =>
          obtain ⟨horderly, items, hproceeds⟩ := hr
          exact hproceeds.exchanged_error hparked horderly
  | some received =>
      refine (Step.receiveResponse_parked_spec hreceived hcapacity hbudget ?_).mono ?_
      · intro setback h
        subst h
        exact hparked setback hreceived
      · intro r s' hr
        obtain ⟨items, hproceeds⟩ := hr.proceeds
        obtain ⟨hwithin, hnone, hresyncs⟩ := hproceeds.of_dropped
        cases r with
        | ok u => exact hwithin.exchanged_ok (parkedOrdinary_of_none hnone)
        | error stop =>
            refine hwithin.exchanged_error (parkedOrdinary_of_none hnone) hresyncs ?_
            -- a place that is not there is no fault: the call ends on the spot
            rcases hr.1 with horderly | ⟨_, -, -, hcrashed, hresponse⟩
            · exact .inl horderly
            · exact .inr ⟨hcrashed, by rw [hresponse]; exact s.response.used_clear⟩

theorem park_exchanged (hcapacity : Block.longPrologue ≤ s.frame.capacity)
    (hparked : s.ParkedOrdinary) : Ensures Step.park s (Exchanged s) := by
  unfold Step.park
  refine Step.ensures_attempt_bind (Step.awaitBlock_spec hcapacity) ?_ ?_ ?_ ?_
  · intro inbound s₁ hend
    obtain ⟨-, asides, raw, block, htalks, -, -⟩ := hend
    rw [ensures_modify]
    have hwithin : Within s _ { s₁ with parked := some (.ok inbound) } :=
      { htalks.toWithin with passes := htalks.passes.congr rfl }
    exact hwithin.exchanged_ok nofun
  · intro setback s₁ hend
    obtain ⟨-, hordinary, items, htalks, -⟩ := hend
    cases setback with
    | minor failure =>
        dsimp only
        rw [ensures_modify]
        have hwithin : Within s _ { s₁ with parked := some (.error (.minor failure)) } :=
          { htalks.toWithin with passes := htalks.passes.congr rfl }
        refine hwithin.exchanged_ok fun setback hsome => ?_
        obtain rfl := Except.error.inj (Option.some.inj hsome)
        exact hordinary
    | major failure =>
        dsimp only
        rw [ensures_fail]
        refine htalks.toProceeds.exchanged_error hparked ?_
        exact ⟨failure, rfl, hordinary⟩
  · intro s₁ hend
    obtain ⟨-, hordinary, -⟩ := hend
    exact hordinary.elim
  · intro s₁ hend
    obtain ⟨-, -, items, htalks, -⟩ := hend
    exact htalks.toProceeds.exchanged_error hparked trivial

theorem resynchronise_exchanged (hcapacity : Block.longPrologue ≤ s.frame.capacity)
    (hparked : s.ParkedOrdinary) : Ensures Step.resynchronise s (Exchanged s) := by
  refine (Step.supervise_spec .resync hcapacity).bind ?_ ?_
  · intro inbound s₁ hend
    obtain ⟨items, htalks, -⟩ := hend
    rw [ensures_count_bind, ensures_modify]
    have hwithin : Within s items (resetSequence
        { s₁ with statistics.resyncs := s₁.statistics.resyncs + 1 }) :=
      { htalks.toWithin with passes := htalks.passes.congr rfl }
    exact hwithin.exchanged_ok (htalks.parkedOrdinary hparked)
  · intro stop s₁ hend
    obtain ⟨items, htalks, horderly, -⟩ := hend
    exact htalks.toProceeds.exchanged_error hparked horderly

theorem renewInterface_exchanged (hcapacity : Block.longPrologue ≤ s.frame.capacity) :
    Ensures Step.renewInterface s (Exchanged s) := by
  unfold Step.renewInterface
  rw [ensures_modify_bind]
  refine (Step.resetInterface_spec (s := { s.resetExchange with commandPending := false })
    hcapacity).bind ?_ ?_
  · intro u s₁ hend
    obtain ⟨items, s₂, codec, answer, htalks, rfl, -⟩ := hend
    rw [ensures_modify]
    have hparked : s₂.ParkedOrdinary := htalks.parkedOrdinary nofun
    exact ⟨⟨⟨htalks.settings, htalks.capacity⟩, htalks.status, hparked⟩, items,
      htalks.passes.congr rfl, htalks.talk⟩
  · intro stop s₁ hend
    obtain ⟨items, horderly, htalks⟩ := hend
    have hwithin : Within s items s₁ := { htalks.toWithin with }
    exact hwithin.exchanged_error (htalks.parkedOrdinary nofun) htalks.resyncs (.inl horderly)

theorem endApplication_exchanged (hcapacity : Block.longPrologue ≤ s.frame.capacity)
    (hparked : s.ParkedOrdinary) : Ensures Step.endApplication s (Exchanged s) := by
  refine (Step.supervise_spec .endApduSession hcapacity).bind ?_ ?_
  · intro inbound s₁ hend
    obtain ⟨items, htalks, -⟩ := hend
    rw [ensures_pure]
    exact htalks.toWithin.exchanged_ok (htalks.parkedOrdinary hparked)
  · intro stop s₁ hend
    obtain ⟨items, htalks, horderly, -⟩ := hend
    exact htalks.toProceeds.exchanged_error hparked horderly

/-! ## All of them -/

/-- The exchange of a call that runs exactly one. -/
def Request.exchange? : Request → Option (Step (Traced L) Unit)
  | .send command => some (Step.sendChain command)
  | .receive => some Step.receiveResponse
  | .prefetch => some Step.park
  | .resync => some Step.resynchronise
  | .softReset => some Step.renewInterface
  | .endApduSession => some Step.endApplication
  | .establish | .close | .transceive _ | .reset | .dropResponse => none

/-- The requests whose exchange starts without what is left of the exchange before it. -/
def Request.Renews : Request → Prop
  | .send _ | .softReset => True
  | _ => False

theorem exchange_exchanged {request : Request} {exchange : Step (Traced L) Unit}
    (hexchange : request.exchange? = some exchange)
    (hcapacity : Block.longPrologue ≤ s.frame.capacity) (hbudget : s.WithinBudget)
    (hparked : s.ParkedOrdinary) : Ensures exchange s (Exchanged s) := by
  cases request with
  | send command =>
      obtain rfl := Option.some.inj hexchange
      exact sendChain_exchanged command hcapacity
  | receive =>
      obtain rfl := Option.some.inj hexchange
      exact receiveResponse_exchanged hcapacity hbudget hparked
  | prefetch =>
      obtain rfl := Option.some.inj hexchange
      exact park_exchanged hcapacity hparked
  | resync =>
      obtain rfl := Option.some.inj hexchange
      exact resynchronise_exchanged hcapacity hparked
  | softReset =>
      obtain rfl := Option.some.inj hexchange
      exact renewInterface_exchanged hcapacity
  | endApduSession =>
      obtain rfl := Option.some.inj hexchange
      exact endApplication_exchanged hcapacity hparked
  | establish | close | transceive _ | reset | dropResponse => exact absurd hexchange nofun

theorem Outcome.stop {β γ : Type} {exchange : Step (Traced L) α} {stop : Stop Failure}
    (h : Outcome exchange s (.error stop : Except _ β) s') :
    Outcome exchange s (.error stop : Except _ γ) s' := by
  cases stop <;> exact h

/-- A call that runs one exchange has the outcome of that exchange. If something is parked already
there is nothing to wait for, and the session was idle before. -/
theorem perform_outcome {request : Request} {exchange : Step (Traced L) Unit}
    (hexchange : request.exchange? = some exchange) (hready : s.status.isReady = true)
    (hcapacity : Block.longPrologue ≤ s.frame.capacity) (hparked : s.ParkedOrdinary)
    (hopened : s.status = .opened → s.parked = none) :
    Ensures (perform request) s (Outcome exchange s) := by
  have hrun : Ensures (run exchange) s (Outcome exchange s) :=
    run_outcome hready hcapacity
      (exchange_exchanged hexchange hcapacity (Nat.zero_le _) hparked)
  cases request with
  | send command =>
      obtain rfl := Option.some.inj hexchange
      exact hrun.bind (fun _ _ h => h) fun _ _ h => h.stop
  | receive =>
      obtain rfl := Option.some.inj hexchange
      have hreceive : Ensures receive s (Outcome Step.receiveResponse s) :=
        hrun.bind (fun _ _ h => h) fun _ _ h => h.stop
      exact hreceive.bind (fun _ _ h => h) fun _ _ h => h.stop
  | prefetch =>
      obtain rfl := Option.some.inj hexchange
      refine Ensures.bind (P := Outcome Step.park s) ?_ (fun _ _ h => h) fun _ _ h => h.stop
      unfold prefetch
      rw [ensures_get_bind]
      split
      · -- something is parked already, which no session has that was only opened
        rename_i hsome
        have hidle : s.status = .idle := by
          cases hstatus : s.status with
          | idle => rfl
          | opened =>
              rw [hopened hstatus] at hsome
              exact absurd hsome Bool.false_ne_true
          | closed | busy | recovering =>
              rw [hstatus] at hready
              exact absurd hready Bool.false_ne_true
        rw [ensures_pure]
        refine ⟨⟨⟨rfl, rfl⟩, hparked, by rw [hidle]; exact Status.noConfusion⟩, hidle, [],
          hears_same rfl, List.forall_mem_nil _⟩
      · exact hrun
  | resync =>
      obtain rfl := Option.some.inj hexchange
      exact hrun.bind (fun _ _ h => h) fun _ _ h => h.stop
  | softReset =>
      obtain rfl := Option.some.inj hexchange
      exact hrun.bind (fun _ _ h => h) fun _ _ h => h.stop
  | endApduSession =>
      obtain rfl := Option.some.inj hexchange
      exact hrun.bind (fun _ _ h => h) fun _ _ h => h.stop
  | establish | close | transceive _ | reset | dropResponse => exact absurd hexchange nofun

/-! ## All calls -/

/-- Only an attempt to open a closed session can fail. -/
theorem establish_fails (s : Session (Traced L)) :
    Ensures establish s fun r _ => ∀ stop, r = .error stop → s.status = .closed := by
  unfold establish
  rw [ensures_get_bind]
  split
  · exact nofun
  · rename_i hclosed
    exact .intro (fun _ _ _ => nofun) fun _ _ _ _ _ => Status.not_isOpen_iff.mp hclosed

/-- What is kept where a call runs an exchange, opens the link or forgets something is kept by every
call. If an opening keeps it only as long as it is not cut off in one of certain ways, the same goes
for the calls that open a closed session, and for no others. -/
theorem perform_keeps_unless {I : Session (Traced L) → Prop} {C : Stop Failure → Prop}
    (request : Request) (h : I s)
    (hrun : ∀ (request : Request) {exchange : Step (Traced L) Unit} {s : Session (Traced L)},
      request.exchange? = some exchange → I s → Ensures (run exchange) s fun _ s' => I s')
    (hestablish : ∀ {s : Session (Traced L)}, I s →
      Ensures establish s fun r s' => (∀ stop, r = .error stop → ¬ C stop) → I s')
    (hclose : ∀ {s : Session (Traced L)}, I s → I s.close)
    (hdropped : ∀ {s : Session (Traced L)}, I s → I s.dropResponse) :
    Ensures (perform request) s fun r s' =>
      (s.status = .closed → ∀ stop, r = .error stop → ¬ C stop) → I s' := by
  have hopening : Ensures establish s fun r s' =>
      (s.status = .closed → ∀ stop, r = .error stop → ¬ C stop) → I s' := by
    refine ((hestablish h).and (establish_fails s)).mono ?_
    rintro r s' ⟨hkept, hclosed⟩ hnot
    exact hkept fun stop hstop => hnot (hclosed stop hstop) stop hstop
  have hwhole : ∀ {x : Call (Traced L) Unit}, Ensures x s (fun r s' =>
        (s.status = .closed → ∀ stop, r = .error stop → ¬ C stop) → I s') →
      Ensures (x >>= fun _ => pure none) s fun (r : Except (Stop Failure) (Option Bytes)) s' =>
        (s.status = .closed → ∀ stop, r = .error stop → ¬ C stop) → I s' := by
    intro x hx
    refine hx.bind (fun u s₁ hend _ => hend fun _ _ => nofun) fun stop s₁ hend hnot => ?_
    refine hend fun hclosed stop' hstop => ?_
    obtain rfl := Except.error.inj hstop
    exact hnot hclosed stop rfl
  have hreceive : ∀ {s₁ : Session (Traced L)}, I s₁ → Ensures receive s₁ fun _ s' => I s' :=
    fun h₁ => (hrun .receive rfl h₁).bind_kept fun _ _ h => h
  -- every call but an opening keeps it, whatever the call ends in
  have hkept : ∀ {x : Call (Traced L) (Option Bytes)}, Ensures x s (fun _ s' => I s') →
      Ensures x s fun r s' =>
        (s.status = .closed → ∀ stop, r = .error stop → ¬ C stop) → I s' :=
    fun hx => hx.mono fun _ _ hI _ => hI
  cases request with
  | establish => exact hwhole hopening
  | close => exact hkept (hclose h)
  | send command => exact hkept ((hrun (.send command) rfl h).bind_kept fun _ _ h => h)
  | receive => exact hkept ((hreceive h).bind_kept fun _ _ h => h)
  | transceive command =>
      refine hkept (Ensures.bind_kept ?_ fun _ _ h => h)
      exact (hrun (.send command) rfl h).bind_kept fun _ _ h => hreceive h
  | prefetch =>
      refine hkept (Ensures.bind_kept ?_ fun _ _ h => h)
      unfold prefetch
      rw [ensures_get_bind]
      split
      · exact h
      · exact hrun .prefetch rfl h
  | resync => exact hkept ((hrun .resync rfl h).bind_kept fun _ _ h => h)
  | softReset => exact hkept ((hrun .softReset rfl h).bind_kept fun _ _ h => h)
  | endApduSession => exact hkept ((hrun .endApduSession rfl h).bind_kept fun _ _ h => h)
  | reset =>
      refine hwhole ?_
      unfold reset
      rw [ensures_get_bind]
      split
      · exact (hrun .softReset rfl h).mono fun _ _ hI _ => hI
      · exact hopening
  | dropResponse => exact hkept (hdropped h)

/-- What is kept by exchanges, openings and whatever forgets something is kept by every call. -/
theorem perform_keeps {I : Session (Traced L) → Prop} (request : Request) (h : I s)
    (hrun : ∀ (request : Request) {exchange : Step (Traced L) Unit} {s : Session (Traced L)},
      request.exchange? = some exchange → I s → Ensures (run exchange) s fun _ s' => I s')
    (hestablish : ∀ {s : Session (Traced L)}, I s → Ensures establish s fun _ s' => I s')
    (hclose : ∀ {s : Session (Traced L)}, I s → I s.close)
    (hdropped : ∀ {s : Session (Traced L)}, I s → I s.dropResponse) :
    Ensures (perform request) s fun _ s' => I s' :=
  (perform_keeps_unless (C := fun _ => False) request h hrun
    (fun h => (hestablish h).mono fun _ _ hI _ => hI) hclose hdropped).mono
    fun _ _ hend => hend fun _ _ _ => id

end SecureElement.Session
