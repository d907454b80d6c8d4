import Mathlib.Algebra.GroupWithZero.Nat
import SecureElement.Proofs.Grammar

/-!
# Requests for more time, read off the link

A peer that needs more time asks for a multiple of the block timeout, and is answered
with the same multiplier or not at all. Who asked and who was answered can be read off
what passed over a link, and so can what was due to whom:

* `Codec.asked?` and `Codec.granted?` tell of a block that came, and of a frame that
  went out, whether it asks for time or grants it;
* an `Account` says how many requests there were and how much was granted;
  `Settings.Allows` says which request is granted next;
* `Serves` follows a conversation with an account: every request that is allowed is
  answered at once, every other is not, and no time is granted to anyone else.

What it takes for such a conversation is stated for any place of it: `Serves.totals`,
`Serves.within`, `Serves.granted_iff` and `Serves.preceded`.
-/

namespace SecureElement

namespace Codec

/-- The multiplier that a block asks for, if it is a request for more time. Asking for no time is
no request. -/
def asked? (c : Codec) (raw : Bytes) : Option UInt8 :=
  match c.decode raw with
  | .ok block => if block.control = .request .wtx then block.payload.head?.filter (· ≠ 0) else none
  | .error _ => none

/-- The frame that grants a request. -/
def grant (c : Codec) (multiplier : UInt8) : Bytes :=
  c.layout (c.make (.response .wtx) [multiplier])

/-- The multiplier that a frame grants, as the peer reads it. -/
def granted? (c : Codec) (frame : Bytes) : Option UInt8 :=
  match c.flip.decode frame with
  | .ok block => if block.control = .response .wtx then block.payload.head? else none
  | .error _ => none

variable {c : Codec} {raw : Bytes} {block : Block}

theorem asked?_of_control (h : c.decode raw = .ok block)
    (hcontrol : block.control ≠ .request .wtx) : c.asked? raw = none := by
  unfold asked?
  rw [h]
  exact if_neg hcontrol

theorem asked?_of_error {fault : Block.Fault} (h : c.decode raw = .error fault) :
    c.asked? raw = none := by
  unfold asked?
  rw [h]

/-- A request for more time carries its multiplier and nothing else. -/
theorem asked?_of_request (h : c.decode raw = .ok block)
    (hcontrol : block.control = .request .wtx) :
    ∃ multiplier, block.payload = [multiplier]
      ∧ c.asked? raw = if multiplier = 0 then none else some multiplier := by
  have hspells := (decode_eq_ok_iff c raw block).mp h
  obtain ⟨fit, checks, known, peer, suits⟩ := hspells
  dsimp only at hcontrol
  rw [hcontrol] at suits
  obtain ⟨multiplier, hpayload⟩ := List.length_eq_one_iff.mp suits
  refine ⟨multiplier, hpayload, ?_⟩
  unfold asked?
  rw [h]
  dsimp only
  rw [if_pos hcontrol, hpayload]
  by_cases hzero : multiplier = 0
  · rw [if_pos hzero, hzero]
    rfl
  · rw [if_neg hzero]
    simp only [List.head?_cons, Option.filter_some, decide_not, hzero, decide_false, Bool.not_false,
      if_true]

/-- The peer finds its multiplier in the answer. -/
theorem granted?_grant (c : Codec) (multiplier : UInt8) :
    c.granted? (c.grant multiplier) = some multiplier := by
  have hshort : [multiplier].length ≤ Block.longMax := by
    show 1 ≤ Block.longMax
    decide
  have hdecode : c.flip.decode (c.grant multiplier)
      = .ok (c.make (.response .wtx) [multiplier]) := by
    have hmade := decode_made (c := c) (.response .wtx) (show c.flip.epilogue = c.epilogue from rfl)
      hshort
    rw [if_neg (show ¬ c.own ≠ c.flip.peer from not_not_intro rfl)] at hmade
    exact hmade
  unfold granted?
  rw [hdecode]
  rfl

/-- What is not laid out as a grant grants nothing. -/
theorem granted?_of_not_isGrant {frame : Bytes} (h : isGrant frame = false) :
    c.granted? frame = none := by
  unfold granted?
  cases hdecode : c.flip.decode frame with
  | error fault => rfl
  | ok block =>
      obtain ⟨-, -, -, -, hread, -⟩ := decode_eq_ok hdecode
      refine if_neg fun hcontrol => ?_
      unfold isGrant at h
      rw [hread, hcontrol] at h
      exact absurd h (by decide)

/-- No block of another type grants anything. -/
theorem granted?_layout {c' : Codec} (hcontrol : block.control ≠ .response .wtx) :
    c.granted? (c'.layout block) = none :=
  granted?_of_not_isGrant ((isGrant_layout c' block).trans (decide_eq_false hcontrol))

end Codec

namespace Passage

/-- The multiplier that the peer asks for, if this is where it asks. -/
def asks? (c : Codec) : Passage → Option UInt8
  | received raw => c.asked? raw
  | _ => none

/-- The multiplier that is granted, if this is where one is. -/
def grants? (c : Codec) : Passage → Option UInt8
  | sent frame _ => c.granted? frame
  | _ => none

/-- What passed has to do with requests for more time. -/
def IsUnrelated (c : Codec) (x : Passage) : Prop := x.asks? c = none ∧ x.grants? c = none

end Passage

/-! ## What is due -/

/-- How many requests for more time there were, and how many block timeouts were granted. -/
structure Account where
  asked : Nat := 0
  granted : Nat := 0

/-- The account after one more request. -/
def Account.ask (a : Account) : Account := { a with asked := a.asked + 1 }

/-- The account after one more request that is granted. -/
def Account.pay (a : Account) (multiplier : UInt8) : Account :=
  { asked := a.asked + 1, granted := a.granted + multiplier.toNat }

/-- The settings allow one more request to be granted: it is in turn, its time and the time granted
in all are times that there are, and the ceiling is kept. -/
structure Settings.Allows (settings : Settings) (a : Account) (multiplier : UInt8) : Prop where
  inTurn : a.asked + 1 ≤ settings.maxExtensions
  exists_extra : multiplier.toNat * settings.blockTimeout ≤ Time.longest
  exists_total : (a.granted + multiplier.toNat) * settings.blockTimeout ≤ Time.longest
  ceiling : (a.granted + multiplier.toNat) * settings.blockTimeout ≤ settings.extensionCeiling

/-- A conversation between two states of the account. -/
inductive Serves (settings : Settings) : Account → List Passage → Account → Prop
  | done (a : Account) : Serves settings a [] a
  | unrelated {a b : Account} {x : Passage} {items : List Passage} :
      x.IsUnrelated settings.codec → Serves settings a items b → Serves settings a (x :: items) b
  /-- What is allowed is granted at once. -/
  | granted {a b : Account} {raw : Bytes} {multiplier : UInt8} {outcome : Except Link.Fault Nat}
      {items : List Passage} : settings.codec.asked? raw = some multiplier →
      settings.Allows a multiplier → Serves settings (a.pay multiplier) items b →
      Serves settings a
        (.received raw :: .sent (settings.codec.grant multiplier) outcome :: items) b
  /-- What is not allowed is not granted. -/
  | refused {a b : Account} {raw : Bytes} {multiplier : UInt8} {items : List Passage} :
      settings.codec.asked? raw = some multiplier → ¬ settings.Allows a multiplier →
      Serves settings a.ask items b → Serves settings a (.received raw :: items) b

namespace Passage

/-- The multipliers that were asked for. -/
def requested (c : Codec) (items : List Passage) : List UInt8 := items.filterMap (·.asks? c)

/-- The multipliers that were granted. -/
def granted (c : Codec) (items : List Passage) : List UInt8 := items.filterMap (·.grants? c)

variable {c : Codec} {raw : Bytes} {multiplier : UInt8} {items : List Passage}

theorem requested_unrelated {x : Passage} (h : x.IsUnrelated c) :
    requested c (x :: items) = requested c items :=
  List.filterMap_cons_none h.1

theorem granted_unrelated {x : Passage} (h : x.IsUnrelated c) :
    granted c (x :: items) = granted c items :=
  List.filterMap_cons_none h.2

theorem requested_received (h : c.asked? raw = some multiplier) :
    requested c (.received raw :: items) = multiplier :: requested c items :=
  List.filterMap_cons_some h

theorem requested_sent (frame : Bytes) (outcome : Except Link.Fault Nat) :
    requested c (.sent frame outcome :: items) = requested c items := rfl

theorem granted_received (raw : Bytes) :
    granted c (.received raw :: items) = granted c items := rfl

theorem granted_sent (outcome : Except Link.Fault Nat) :
    granted c (.sent (c.grant multiplier) outcome :: items) = multiplier :: granted c items :=
  List.filterMap_cons_some (Codec.granted?_grant c multiplier)

end Passage

namespace Serves

open Passage (requested_unrelated granted_unrelated requested_received requested_sent
  granted_received granted_sent)

variable {settings : Settings} {a b d : Account} {items front back : List Passage} {raw : Bytes}
  {multiplier : UInt8}

theorem append (h₁ : Serves settings a items b) {more : List Passage}
    (h₂ : Serves settings b more d) : Serves settings a (items ++ more) d := by
  induction h₁ with
  | done a => exact h₂
  | unrelated hx _ ih => exact .unrelated hx (ih h₂)
  | granted hasked hallows _ ih => exact .granted hasked hallows (ih h₂)
  | refused hasked hallows _ ih => exact .refused hasked hallows (ih h₂)

/-- **The account counts what passed.** -/
theorem totals (h : Serves settings a items b) :
    b.asked = a.asked + (Passage.requested settings.codec items).length
      ∧ b.granted = a.granted + ((Passage.granted settings.codec items).map UInt8.toNat).sum := by
  induction h with
  | done a => exact ⟨rfl, rfl⟩
  | unrelated hx _ ih =>
      rw [requested_unrelated hx, granted_unrelated hx]
      exact ih
  | granted hasked _ _ ih =>
      obtain ⟨hcount, hsum⟩ := ih
      rw [requested_received hasked, requested_sent, granted_received, granted_sent,
        List.length_cons, List.map_cons, List.sum_cons]
      unfold Account.pay at hcount hsum
      dsimp only at hcount hsum
      exact ⟨by omega, by omega⟩
  | refused hasked _ _ ih =>
      obtain ⟨hcount, hsum⟩ := ih
      rw [requested_received hasked, granted_received, List.length_cons]
      unfold Account.ask at hcount hsum
      dsimp only at hcount hsum
      exact ⟨by omega, hsum⟩

/-- **No more is granted than the settings allow**, neither in number nor in time. -/
theorem within (h : Serves settings a items b) :
    (Passage.granted settings.codec items).length ≤ settings.maxExtensions - a.asked
      ∧ (a.granted * settings.blockTimeout ≤ settings.extensionCeiling →
          b.granted * settings.blockTimeout ≤ settings.extensionCeiling) := by
  induction h with
  | done a => exact ⟨Nat.zero_le _, id⟩
  | unrelated hx _ ih =>
      rw [granted_unrelated hx]
      exact ih
  | granted hasked hallows _ ih =>
      obtain ⟨hcount, hceiling⟩ := ih
      have hturn := hallows.inTurn
      rw [granted_received, granted_sent, List.length_cons]
      unfold Account.pay at hcount
      dsimp only at hcount
      exact ⟨by omega, fun _ => hceiling hallows.ceiling⟩
  | refused hasked _ _ ih =>
      obtain ⟨hcount, hceiling⟩ := ih
      rw [granted_received]
      unfold Account.ask at hcount
      dsimp only at hcount
      exact ⟨by omega, hceiling⟩

/-- No conversation begins with a grant. -/
theorem head_grants?_eq_none {frame : Bytes} {outcome : Except Link.Fault Nat}
    (h : Serves settings a (.sent frame outcome :: back) b) :
    settings.codec.granted? frame = none := by
  cases h with
  | unrelated hx _ => exact hx.2

/-- **A request is granted exactly when the account up to there allows it.** -/
theorem granted_iff (h : Serves settings a items b)
    (hitems : items = front ++ .received raw :: back)
    (hasked : settings.codec.asked? raw = some multiplier) :
    ∃ a', Serves settings a front a' ∧
      ((∃ outcome rest, back = .sent (settings.codec.grant multiplier) outcome :: rest) ↔
        settings.Allows a' multiplier) := by
  induction h generalizing front with
  | done a => exact absurd hitems (List.append_ne_nil_of_right_ne_nil _ (List.cons_ne_nil _ _)).symm
  | @unrelated a b x items hx hrest ih =>
      cases front with
      | nil =>
          obtain ⟨rfl, -⟩ := List.cons.inj hitems
          exact absurd (hasked.symm.trans hx.1) nofun
      | cons y front =>
          obtain ⟨rfl, hrest⟩ := List.cons.inj hitems
          obtain ⟨a', hfront, hiff⟩ := ih hrest
          exact ⟨a', .unrelated hx hfront, hiff⟩
  | @granted a b raw' multiplier' outcome items hasked' hallows hrest ih =>
      match front with
      | [] =>
          obtain ⟨hraw, rfl⟩ := List.cons.inj hitems
          obtain rfl := Passage.received.inj hraw
          obtain rfl := Option.some.inj (hasked.symm.trans hasked')
          exact ⟨a, .done a, fun _ => hallows, fun _ => ⟨outcome, items, rfl⟩⟩
      | [_] =>
          obtain ⟨-, hbehind⟩ := List.cons.inj hitems
          exact absurd (List.cons.inj hbehind).1 nofun
      | _ :: _ :: front =>
          obtain ⟨rfl, hbehind⟩ := List.cons.inj hitems
          obtain ⟨rfl, hrest⟩ := List.cons.inj hbehind
          obtain ⟨a', hfront, hiff⟩ := ih hrest
          exact ⟨a', .granted hasked' hallows hfront, hiff⟩
  | @refused a b raw' multiplier' items hasked' hallows hrest ih =>
      cases front with
      | nil =>
          obtain ⟨hraw, rfl⟩ := List.cons.inj hitems
          obtain rfl := Passage.received.inj hraw
          obtain rfl := Option.some.inj (hasked.symm.trans hasked')
          refine ⟨a, .done a, ?_, fun h => absurd h hallows⟩
          rintro ⟨outcome, rest, rfl⟩
          have hnone := hrest.head_grants?_eq_none
          rw [Codec.granted?_grant] at hnone
          exact absurd hnone nofun
      | cons y front =>
          obtain ⟨rfl, hrest⟩ := List.cons.inj hitems
          obtain ⟨a', hfront, hiff⟩ := ih hrest
          exact ⟨a', .refused hasked' hallows hfront, hiff⟩

/-- **Time is granted to who asked for it, and directly behind the request.** -/
theorem preceded {frame : Bytes} {outcome : Except Link.Fault Nat} (h : Serves settings a items b)
    (hitems : items = front ++ .sent frame outcome :: back)
    (hgranted : settings.codec.granted? frame = some multiplier) :
    ∃ front' raw, front = front' ++ [.received raw]
      ∧ settings.codec.asked? raw = some multiplier := by
  induction h generalizing front with
  | done a => exact absurd hitems (List.append_ne_nil_of_right_ne_nil _ (List.cons_ne_nil _ _)).symm
  | @unrelated a b x items hx hrest ih =>
      cases front with
      | nil =>
          obtain ⟨rfl, -⟩ := List.cons.inj hitems
          exact absurd (hgranted.symm.trans hx.2) nofun
      | cons y front =>
          obtain ⟨front', raw, rfl, hasked⟩ := ih (List.cons.inj hitems).2
          exact ⟨y :: front', raw, rfl, hasked⟩
  | @granted a b raw multiplier' outcome' items hasked hallows hrest ih =>
      match front with
      | [] => exact absurd (List.cons.inj hitems).1 nofun
      | [y] =>
          obtain ⟨rfl, hbehind⟩ := List.cons.inj hitems
          obtain ⟨rfl, -⟩ := Passage.sent.inj (List.cons.inj hbehind).1
          rw [Codec.granted?_grant] at hgranted
          obtain rfl := Option.some.inj hgranted
          exact ⟨[], raw, rfl, hasked⟩
      | y :: z :: front =>
          obtain ⟨front', raw', rfl, hasked'⟩ := ih (List.cons.inj (List.cons.inj hitems).2).2
          exact ⟨y :: z :: front', raw', rfl, hasked'⟩
  | @refused a b raw multiplier' items hasked hallows hrest ih =>
      cases front with
      | nil => exact absurd (List.cons.inj hitems).1 nofun
      | cons y front =>
          obtain ⟨front', raw', rfl, hasked'⟩ := ih (List.cons.inj hitems).2
          exact ⟨y :: front', raw', rfl, hasked'⟩

end Serves

end SecureElement
