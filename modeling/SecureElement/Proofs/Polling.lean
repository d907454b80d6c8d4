import Mathlib.Data.Nat.Find
import SecureElement.I2c.Polled
import SecureElement.I2c.Rehearsal

/-!
# Polling a busy device

A call on the polled link makes one attempt after the other, and how many depends on
nothing but the bus: on how each transfer ends, and on the time by then. `reach` is the
bus on which each attempt is made, as if all before it had been in vain. An attempt **was
in vain** if it was refused and there is time for another (`InVain`); the first that was
not **decides** the call (`Decides`).

* `attempts_of_decides`: what the loop comes to is what the deciding attempt comes to.
* `exists_decides`: if attempts take time there is a deciding one, also on a bus that never
  acknowledges anything.
* `Polls` is how such a call looks from outside, and `polls_until_decided` says that
  every call does.

Of the bus it is assumed that its clock does not go back (`Steady`). How late a timeout
may come depends on the pauses as well, and only there are they assumed to be no longer
than they are to be (`Prompt`).
-/

namespace SecureElement.I2c

namespace Bus

/-- A bus on which no transfer turns the clock back. -/
class Steady (B : Type) [Bus B] : Prop where
  now_write (address : UInt8) (bytes : Bytes) (bus : B) : now bus ≤ now (write address bytes bus).2
  now_read (address : UInt8) (n : Nat) (bus : B) : now bus ≤ now (read address n bus).2

/-- A bus on which no pause is longer than it is to be. -/
def Prompt (B : Type) [Bus B] : Prop :=
  ∀ (time : Nanos) (bus : B), now (sleep time bus) ≤ now bus + time

/-- A bus on which no pause is shorter than it is to be. -/
def Patient (B : Type) [Bus B] : Prop :=
  ∀ (time : Nanos) (bus : B), now bus + time ≤ now (sleep time bus)

instance {B : Type} [Bus B] [Steady B] : Steady (Traced B) where
  now_write address bytes t := Steady.now_write address bytes t.bus
  now_read address n t := Steady.now_read address n t.bus

theorem Prompt.traced {B : Type} [Bus B] (h : Prompt B) : Prompt (Traced B) :=
  fun time t => h time t.bus

theorem Patient.traced {B : Type} [Bus B] (h : Patient B) : Patient (Traced B) :=
  fun time t => h time t.bus

/-- A read takes the time of one transfer, whatever it comes to. -/
theorem Rehearsal.now_read (address : UInt8) (n : Nat) (r : Rehearsal) :
    now (read address n r).2 = r.transfer.2.clock := by
  simp only [read, now]
  generalize r.transfer = result
  obtain ⟨outcome, r'⟩ := result
  cases outcome <;> rfl

instance : Steady Rehearsal where
  now_write _ _ r := Nat.le_add_right r.clock r.transferTime
  now_read address n r := by
    rw [Rehearsal.now_read]
    exact Nat.le_add_right r.clock r.transferTime

/-- A rehearsed pause takes exactly its time. -/
theorem Rehearsal.prompt : Prompt Rehearsal := fun _ _ => Nat.le_refl _

theorem Rehearsal.patient : Patient Rehearsal := fun _ _ => Nat.le_refl _

end Bus

namespace Polled

open Bus

variable {B α : Type} [Bus B] {polling : Polling} {transfer : B → Except Bus.Fault α × B}
  {bus : B} {timeout : Nanos} {k : Nat}

/-- The bus on which the attempt with the given number is made, counted from zero. -/
def reach (polling : Polling) (transfer : B → Except Bus.Fault α × B) (bus : B) : Nat → B
  | 0 => bus
  | k + 1 => sleep polling.interval (transfer (reach polling transfer bus k)).2

/-- What the attempt with the given number comes to. -/
def attempt (polling : Polling) (transfer : B → Except Bus.Fault α × B) (bus : B) (k : Nat) :
    Except Bus.Fault α × B :=
  transfer (reach polling transfer bus k)

/-- The attempt with the given number is refused, and there is time for another. -/
def InVain (polling : Polling) (transfer : B → Except Bus.Fault α × B) (bus : B)
    (timeout : Nanos) (k : Nat) : Prop :=
  (attempt polling transfer bus k).1 = .error .notAcknowledged ∧
    now (attempt polling transfer bus k).2 < now bus + timeout

/-- The attempt with the given number is the first that was not in vain. -/
def Decides (polling : Polling) (transfer : B → Except Bus.Fault α × B) (bus : B)
    (timeout : Nanos) (k : Nat) : Prop :=
  (∀ i < k, InVain polling transfer bus timeout i) ∧ ¬ InVain polling transfer bus timeout k

/-- Each attempt in vain takes at least so much time, the pause behind it included. -/
def TakesTime (polling : Polling) (transfer : B → Except Bus.Fault α × B) (bus : B)
    (timeout step : Nanos) : Prop :=
  ∀ i, InVain polling transfer bus timeout i →
    now (reach polling transfer bus i) + step ≤ now (reach polling transfer bus (i + 1))

/-- What a call is told of the transfer that decides it. -/
def told : Except Bus.Fault α → Except Link.Fault α
  | .ok a => .ok a
  | .error .notAcknowledged => .error .timeout
  | .error (.other message) => .error (.bus message)

/-- Leaves the device alone after a transfer that went through. -/
def guard (polling : Polling) : Except Bus.Fault α × B → B
  | (.ok _, bus) => if polling.guardTime = 0 then bus else sleep polling.guardTime bus
  | (.error _, bus) => bus

/-! ## The loop -/

/-- An attempt in vain is followed by the next one. -/
theorem attempts_again {deadline : Nanos} {n : Nat}
    (hrefused : (transfer bus).1 = .error .notAcknowledged)
    (htime : now (transfer bus).2 < deadline) :
    attempts polling deadline transfer (n + 1) bus
      = attempts polling deadline transfer n (sleep polling.interval (transfer bus).2) := by
  rw [attempts]
  generalize transfer bus = result at hrefused htime
  obtain ⟨outcome, bus'⟩ := result
  dsimp only at hrefused htime
  subst hrefused
  exact if_neg (Nat.not_le.mpr htime)

/-- Any other attempt is the last. -/
theorem attempts_last {deadline : Nanos} {n : Nat}
    (h : ¬ ((transfer bus).1 = .error .notAcknowledged ∧ now (transfer bus).2 < deadline)) :
    attempts polling deadline transfer (n + 1) bus
      = (some (told (transfer bus).1), guard polling (transfer bus)) := by
  rw [attempts]
  generalize transfer bus = result at h
  obtain ⟨outcome, bus'⟩ := result
  cases outcome with
  | ok a => rfl
  | error fault =>
      cases fault with
      | other message => rfl
      | notAcknowledged => exact if_pos (Nat.not_lt.mp fun htime => h ⟨rfl, htime⟩)

/-- **The attempt that decides a call decides the loop.** -/
theorem attempts_of_decides {n : Nat} (h : Decides polling transfer bus timeout k) (hk : k < n) :
    attempts polling (now bus + timeout) transfer n bus
      = (some (told (attempt polling transfer bus k).1),
        guard polling (attempt polling transfer bus k)) := by
  -- the deadline stays what it was when the call began, while the bus goes on
  suffices ∀ i ≤ k, attempts polling (now bus + timeout) transfer (n - i)
      (reach polling transfer bus i) = _ from this 0 (Nat.zero_le k)
  intro i hi
  obtain ⟨hvain, hdecides⟩ := h
  induction hleft : k - i generalizing i with
  | zero =>
      obtain rfl : i = k := by omega
      obtain ⟨m, hm⟩ : ∃ m, n - i = m + 1 := ⟨n - i - 1, by omega⟩
      rw [hm]
      exact attempts_last hdecides
  | succ left ih =>
      obtain ⟨m, hm⟩ : ∃ m, n - i = m + 1 := ⟨n - i - 1, by omega⟩
      obtain ⟨hrefused, htime⟩ := hvain i (by omega)
      have hnext := ih (i + 1) (by omega) (by omega)
      rw [show n - (i + 1) = m by omega] at hnext
      rw [hm, attempts_again hrefused htime]
      exact hnext

/-! ## The clock -/

/-- As long as attempts are in vain each takes its time. -/
theorem now_reach {step : Nanos} (hstep : TakesTime polling transfer bus timeout step)
    (hvain : ∀ i < k, InVain polling transfer bus timeout i) :
    now bus + k * step ≤ now (reach polling transfer bus k) := by
  induction k with
  | zero =>
      rw [Nat.zero_mul]
      exact Nat.le_refl _
  | succ k ih =>
      calc now bus + (k + 1) * step
          = now bus + k * step + step := by rw [Nat.succ_mul, Nat.add_assoc]
        _ ≤ now (reach polling transfer bus k) + step :=
            Nat.add_le_add_right (ih fun i hi => hvain i (Nat.lt_succ_of_lt hi)) step
        _ ≤ now (reach polling transfer bus (k + 1)) := hstep k (hvain k (Nat.lt_succ_self k))

/-- **Attempts that take time come to an end**: no more are in vain than fit into the timeout. -/
theorem exists_decides {step : Nanos} (hpos : 0 < step)
    (hforward : ∀ bus, now bus ≤ now (transfer bus).2)
    (hstep : TakesTime polling transfer bus timeout step) :
    ∃ k, k * step < timeout + step ∧ Decides polling transfer bus timeout k := by
  classical
  -- one that is in vain ends before the time is up, and all before it have taken theirs
  have hbound : ∀ k, (∀ i ≤ k, InVain polling transfer bus timeout i) → k * step < timeout := by
    intro k hvain
    have hbegun := now_reach hstep fun i hi => hvain i (Nat.le_of_lt hi)
    have hended : now (reach polling transfer bus k) ≤ now (attempt polling transfer bus k).2 :=
      hforward _
    exact Nat.lt_of_add_lt_add_left
      (Nat.lt_of_le_of_lt (Nat.le_trans hbegun hended) (hvain k (Nat.le_refl k)).2)
  have hsome : ∃ k, ¬ InVain polling transfer bus timeout k := by
    by_contra hnone
    rw [not_exists_not] at hnone
    have hlate := hbound timeout fun i _ => hnone i
    exact absurd hlate (Nat.not_lt.mpr (Nat.le_mul_of_pos_right timeout hpos))
  have hbefore : ∀ i < Nat.find hsome, InVain polling transfer bus timeout i := fun i hi =>
    not_not.mp (Nat.find_min hsome hi)
  refine ⟨Nat.find hsome, ?_, hbefore, Nat.find_spec hsome⟩
  cases hfirst : Nat.find hsome with
  | zero =>
      rw [Nat.zero_mul]
      exact Nat.add_pos_right timeout hpos
  | succ k =>
      rw [Nat.succ_mul]
      exact Nat.add_lt_add_right (hbound k fun i hi => hbefore i (by omega)) step

/-- The attempt behind those in vain begins no later than a pause after the time is up. -/
theorem now_reach_le (hprompt : Prompt B) (hvain : ∀ i < k, InVain polling transfer bus timeout i) :
    now (reach polling transfer bus k) ≤ now bus + timeout + polling.interval := by
  cases k with
  | zero => exact Nat.le_trans (Nat.le_add_right _ _) (Nat.le_add_right _ _)
  | succ k =>
      have hpause : now (reach polling transfer bus (k + 1))
          ≤ now (attempt polling transfer bus k).2 + polling.interval := hprompt _ _
      exact Nat.le_trans hpause
        (Nat.add_le_add_right (Nat.le_of_lt (hvain k (Nat.lt_succ_self k)).2) _)

/-- A pause between attempts is time that they take. -/
theorem takesTime_interval (hpatient : Patient B)
    (hforward : ∀ bus, now bus ≤ now (transfer bus).2) :
    TakesTime polling transfer bus timeout polling.interval := fun _ _ =>
  Nat.le_trans (Nat.add_le_add_right (hforward _) _) (hpatient _ _)

/-! ## The record of a call -/

section Record

variable {transfer : Traced B → Except Bus.Fault α × Traced B}
  {event : Except Bus.Fault α → Bus.Event} {t : Traced B} {p : Polled (Traced B)}

/-- Attempts in vain, each with the pause behind it. -/
def refusals (polling : Polling) (event : Except Bus.Fault α → Bus.Event) (k : Nat) :
    List Bus.Event :=
  (List.replicate k [event (.error .notAcknowledged), .sleep polling.interval]).flatten

/-- The pause behind the last transfer, if there is one. -/
def afterwards (polling : Polling) : Except Bus.Fault α → List Bus.Event
  | .ok _ => if polling.guardTime = 0 then [] else [.sleep polling.guardTime]
  | .error _ => []

/-- A transfer that is one event of the record. -/
def Records (transfer : Traced B → Except Bus.Fault α × Traced B)
    (event : Except Bus.Fault α → Bus.Event) : Prop :=
  ∀ t, (transfer t).2.events = t.events ++ [event (transfer t).1]

theorem write_records (address : UInt8) (bytes : Bytes) :
    Records (B := B) (Bus.write address bytes) (.write address bytes) := fun _ =>
  Traced.events_record ..

theorem read_records (address : UInt8) (n : Nat) :
    Records (B := B) (Bus.read address n) fun outcome =>
      .read address n (outcome.map (·.val)) := fun _ =>
  Traced.events_record ..

theorem events_reach (hrecords : Records transfer event)
    (hvain : ∀ i < k, InVain polling transfer t timeout i) :
    (reach polling transfer t k).events = t.events ++ refusals polling event k := by
  induction k with
  | zero => exact (List.append_nil _).symm
  | succ k ih =>
      have hpause : (reach polling transfer t (k + 1)).events
          = (attempt polling transfer t k).2.events ++ [.sleep polling.interval] :=
        Traced.events_record ..
      have hlast : (attempt polling transfer t k).2.events
          = (reach polling transfer t k).events ++ [event (.error .notAcknowledged)] := by
        rw [← (hvain k (Nat.lt_succ_self k)).1]
        exact hrecords _
      rw [hpause, hlast, ih fun i hi => hvain i (Nat.lt_succ_of_lt hi), refusals, refusals,
        List.replicate_succ', List.flatten_append, List.flatten_singleton]
      simp only [List.append_assoc, List.singleton_append]

theorem events_guard (result : Except Bus.Fault α × Traced B) :
    (guard polling result).events = result.2.events ++ afterwards polling result.1 := by
  obtain ⟨outcome, t⟩ := result
  cases outcome with
  | error fault => exact (List.append_nil _).symm
  | ok a =>
      unfold guard afterwards
      dsimp only
      split
      · exact (List.append_nil _).symm
      · exact Traced.events_record ..

/-- How a call goes for which so many attempts were in vain before one decided it. -/
structure Polls (p : Polled (Traced B)) (timeout : Nanos)
    (transfer : Traced B → Except Bus.Fault α × Traced B) (event : Except Bus.Fault α → Bus.Event)
    (k : Nat) (answer : Except Link.Fault α) (p' : Polled (Traced B)) : Prop where
  /-- The call is told what the last transfer came to. -/
  answered : answer = told (attempt p.polling transfer p.bus k).1
  /-- One pause lies between two transfers, and the guard time behind the last if it went through;
  nothing else is done on the bus. -/
  events : p'.bus.events = p.bus.events ++ (refusals p.polling event k
    ++ event (attempt p.polling transfer p.bus k).1
      :: afterwards p.polling (attempt p.polling transfer p.bus k).1)
  /-- A timeout is late by no more than a pause and the last transfer. -/
  timely : Prompt B → answer = .error .timeout → now p'.bus ≤ now p.bus + timeout
    + p.polling.interval + (now p'.bus - now (reach p.polling transfer p.bus k))
  polling : p'.polling = p.polling
  isOpen : p'.isOpen = true

/-- **A transfer on an open link is polled.** -/
theorem poll_polls (hrecords : Records transfer event) (hopen : p.isOpen = true)
    (h : Decides p.polling transfer p.bus timeout k) (hk : k < attemptsMax) :
    Polls p timeout transfer event k (p.poll timeout transfer).1 (p.poll timeout transfer).2 := by
  have hpoll : p.poll timeout transfer = (told (attempt p.polling transfer p.bus k).1,
      { p with bus := guard p.polling (attempt p.polling transfer p.bus k) }) := by
    unfold poll
    rw [if_pos hopen, attempts_of_decides h hk]
    rfl
  rw [hpoll]
  refine ⟨rfl, ?_, fun hprompt htimeout => ?_, rfl, hopen⟩
  · have hlast : (attempt p.polling transfer p.bus k).2.events
        = (reach p.polling transfer p.bus k).events
          ++ [event (attempt p.polling transfer p.bus k).1] := hrecords _
    rw [events_guard, hlast, events_reach hrecords h.1, List.append_assoc, List.append_assoc]
    rfl
  · -- a refused transfer is not followed by the guard time
    have hrefused : guard p.polling (attempt p.polling transfer p.bus k)
        = (attempt p.polling transfer p.bus k).2 := by
      dsimp only at htimeout
      generalize attempt p.polling transfer p.bus k = result at htimeout ⊢
      obtain ⟨outcome, t⟩ := result
      cases outcome with
      | ok a => exact absurd htimeout nofun
      | error fault => rfl
    dsimp only
    rw [hrefused]
    exact Nat.le_trans (Nat.le_add_of_sub_le (Nat.le_refl _))
      (by rw [Nat.add_comm]; exact Nat.add_le_add_right (now_reach_le hprompt.traced h.1) _)

/--
**A busy device is polled until it answers or the time is up.** A closed link does nothing.
On an open one each call makes attempts until one is not in vain, and looks as
`Polls` says; a write that goes through has written all octets, and a read has
read as many as it was asked for. Where attempts take time there always is such an
attempt, and before it no more than fit into the timeout. On a bus whose pauses are no
longer than they are to be, a timeout is late by one of them and the last transfer at most.
-/
theorem polls_until_decided [Steady B] (p : Polled (Traced B)) (timeout : Nanos) :
    (p.isOpen = false →
      (∀ bytes, Link.write bytes timeout p = (.error .closed, p)) ∧
      ∀ n, Link.read n timeout p = (.error .closed, p)) ∧
    (p.isOpen = true → ∀ k < attemptsMax,
      (∀ bytes, Decides p.polling (Bus.write p.polling.address bytes) p.bus timeout k →
        ∃ outcome, Polls p timeout (Bus.write p.polling.address bytes)
            (.write p.polling.address bytes) k outcome (Link.write bytes timeout p).2 ∧
          (Link.write bytes timeout p).1 = outcome.map fun () => bytes.length) ∧
      ∀ n, Decides p.polling (Bus.read p.polling.address n) p.bus timeout k →
        ∃ outcome, Polls p timeout (Bus.read p.polling.address n)
            (fun last => .read p.polling.address n (last.map (·.val))) k outcome
            (Link.read n timeout p).2 ∧
          (Link.read n timeout p).1 = outcome.map (·.val)) ∧
    ∀ step, 0 < step →
      (∀ bytes, TakesTime p.polling (Bus.write p.polling.address bytes) p.bus timeout step →
        ∃ k, k * step < timeout + step ∧
          Decides p.polling (Bus.write p.polling.address bytes) p.bus timeout k) ∧
      ∀ n, TakesTime p.polling (Bus.read p.polling.address n) p.bus timeout step →
        ∃ k, k * step < timeout + step ∧
          Decides p.polling (Bus.read p.polling.address n) p.bus timeout k := by
  refine ⟨fun hclosed => ⟨fun bytes => ?_, fun n => ?_⟩,
    fun hopen k hk => ⟨fun bytes h => ?_, fun n h => ?_⟩,
    fun step hpos => ⟨fun bytes hstep => ?_, fun n hstep => ?_⟩⟩
  · have hpoll : p.poll timeout (Bus.write p.polling.address bytes) = (.error .closed, p) :=
      if_neg (by rw [hclosed]; exact Bool.false_ne_true)
    show ((p.poll timeout (Bus.write p.polling.address bytes)).1.map fun () => bytes.length,
      (p.poll timeout (Bus.write p.polling.address bytes)).2) = _
    rw [hpoll]
    rfl
  · have hpoll : p.poll timeout (Bus.read p.polling.address n) = (.error .closed, p) :=
      if_neg (by rw [hclosed]; exact Bool.false_ne_true)
    show ((p.poll timeout (Bus.read p.polling.address n)).1.map (·.val),
      (p.poll timeout (Bus.read p.polling.address n)).2) = _
    rw [hpoll]
    rfl
  · exact ⟨_, poll_polls (write_records _ bytes) hopen h hk, rfl⟩
  · exact ⟨_, poll_polls (read_records _ n) hopen h hk, rfl⟩
  · exact exists_decides hpos (Steady.now_write _ bytes) hstep
  · exact exists_decides hpos (Steady.now_read _ n) hstep

end Record

/-! ## A device that takes its time -/

/-- An open link to a device whose transfers take two milliseconds and end as laid down. -/
def device (transfers : List Transfer) : Polled (Traced Rehearsal) where
  bus := { bus := { transfers, transferTime := 2 * Time.milli } }
  polling := {}
  isOpen := true

/-- A device that refuses the first transfer and takes the second, which ends behind the timeout,
and one that goes on refusing. -/
theorem polls_until_decided_late :
    (Link.write [0xA5] (4 * Time.milli) (device [.refused 1])).1 = .ok 1 ∧
    (Link.write [0xA5] (4 * Time.milli) (device [.refused 1])).2.bus.events =
      [.write 0x48 [0xA5] (.error .notAcknowledged), .sleep (1 * Time.milli),
        .write 0x48 [0xA5] (.ok ()), .sleep (100 * Time.micro)] ∧
    (Link.read 1 (4 * Time.milli) (device [.refused 9])).1 = .error .timeout ∧
    (Link.read 1 (4 * Time.milli) (device [.refused 9])).2.bus.events =
      [.read 0x48 1 (.error .notAcknowledged), .sleep (1 * Time.milli),
        .read 0x48 1 (.error .notAcknowledged)] ∧
    Bus.now (Link.read 1 (4 * Time.milli) (device [.refused 9])).2.bus
      ≤ 4 * Time.milli + 1 * Time.milli + 2 * Time.milli ∧
    (∃ k, k * (1 * Time.milli) < 4 * Time.milli + 1 * Time.milli ∧
      Decides (device [.refused 9]).polling (Bus.read 0x48 1) (device [.refused 9]).bus
        (4 * Time.milli) k) ∧
    Link.read 1 0 { device [] with isOpen := false }
      = (.error .closed, { device [] with isOpen := false }) := by
  have hopen : ∀ transfers, (device transfers).isOpen = true := fun _ => rfl
  have hfew : 1 < attemptsMax := by decide
  have htaken : Decides (device [.refused 1]).polling (Bus.write 0x48 [0xA5])
      (device [.refused 1]).bus (4 * Time.milli) 1 := by
    refine ⟨fun i hi => ?_, fun hvain => absurd hvain.1 nofun⟩
    obtain rfl : i = 0 := by omega
    exact ⟨rfl, by decide⟩
  have hrefused : Decides (device [.refused 9]).polling (Bus.read 0x48 1)
      (device [.refused 9]).bus (4 * Time.milli) 1 := by
    refine ⟨fun i hi => ?_, fun hvain => absurd hvain.2 (by decide)⟩
    obtain rfl : i = 0 := by omega
    exact ⟨rfl, by decide⟩
  obtain ⟨-, hwritten, -⟩ := polls_until_decided (device [.refused 1]) (4 * Time.milli)
  obtain ⟨written, hwrite, hanswer⟩ := (hwritten (hopen _) 1 hfew).1 [0xA5] htaken
  obtain ⟨-, hread, hends⟩ := polls_until_decided (device [.refused 9]) (4 * Time.milli)
  obtain ⟨brought, hreads, hanswer'⟩ := (hread (hopen _) 1 hfew).2 1 hrefused
  obtain ⟨hclosed, -⟩ := polls_until_decided { device [] with isOpen := false } 0
  refine ⟨?_, hwrite.events, ?_, hreads.events, ?_, ?_, (hclosed rfl).2 1⟩
  · rw [hanswer, hwrite.answered]
    rfl
  · rw [hanswer', hreads.answered]
    rfl
  · have htimeout : brought = .error .timeout := hreads.answered
    exact Nat.le_trans (hreads.timely Rehearsal.prompt htimeout) (by decide)
  · exact (hends (1 * Time.milli) (by decide)).2 1
      (takesTime_interval Rehearsal.patient.traced (Steady.now_read _ 1))

end Polled

end SecureElement.I2c
