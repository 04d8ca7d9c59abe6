/-
`MessageQueue::GetDelay`, by its comment the "amount of time until the next message can be
retrieved". It looks at what `Get` looks at, but for the message that `Peek` keeps.
-/
import Gxmpp.QueueConservation
import Gxmpp.TimeWrap

set_option autoImplicit false

namespace Gxmpp.TalkBase

open Reentrant

namespace MessageQueue

variable {q : MessageQueue}

def GetDelay (q : MessageQueue) : Int :=
  if q.msgq_ ≠ [] then 0
  else
    match q.dmsgq_ with
    | top :: _ =>
      let delay := TimeDiff top.msTrigger_ q.now
      if delay < 0 then 0 else delay
    | [] => kForever

/-! ## 1. What `Get` returns now -/

/-- A `Get` at this instant returns a message without waiting. -/
def GetsNow (q : MessageQueue) (cmsWait : Int) : Prop :=
  ∃ q' m, messageQueue.settle 1 ⟨(q.enter (.get cmsWait)).1, (q.enter (.get cmsWait)).2⟩ =
      ⟨q', []⟩ ∧
    q'.returned = q.returned ++ [m]

theorem getsNow_iff (q : MessageQueue) (cmsWait : Int) : q.GetsNow cmsWait ↔ q.ready ≠ [] := by
  unfold GetsNow enter
  dsimp only
  cases hpeek : q.fPeekKeep_ with
  | true =>
    refine iff_of_true ⟨_, q.msgPeek_, rfl, ?_⟩ (by simp [ready, peeked, hpeek])
    simp [returned, emit, QueueEvent.returned?]
  | false =>
    obtain ⟨r, control, hr, hsettle⟩ := settle_get q hpeek cmsWait
    rw [if_neg Bool.false_ne_true, hsettle]
    cases hready : q.ready with
    | nil =>
      refine iff_of_false ?_ (not_not.2 rfl)
      rintro ⟨q', m, hq', hm⟩
      obtain rfl : r = q' := congrArg Config.state hq'
      simp [hr] at hm
    | cons m rest =>
      refine iff_of_true ⟨_, m, rfl, ?_⟩ (List.cons_ne_nil m rest)
      rw [← hr]
      simp [returned, emit, QueueEvent.returned?]

/-! ## 2. What `GetDelay` says of it -/

/-- The message on top of the priority queue is due. -/
def TopDue (q : MessageQueue) : Prop :=
  ∃ top ∈ q.dmsgq_.head?, TimeIsLater q.now top.msTrigger_ = false

theorem ready_ne_nil (hdispose : ∀ m ∈ q.pending, m.message_id ≠ MQID_DISPOSE) :
    q.ready ≠ [] ↔ q.fPeekKeep_ = true ∨ q.msgq_ ≠ [] ∨ q.TopDue := by
  unfold ready TopDue peeked
  rw [List.filter_eq_self.2 fun m hm => decide_eq_true (hdispose m ?_)]
  · cases hd : q.dmsgq_ with
    | nil => by_cases hpeek : q.fPeekKeep_ = true <;> simp [hpeek]
    | cons top rest =>
      cases hlater : TimeIsLater q.now top.msTrigger_ <;>
        by_cases hpeek : q.fPeekKeep_ = true <;> simp [hpeek, hlater]
  · have hsub := (List.takeWhile_sublist (l := q.dmsgq_) fun d =>
      !TimeIsLater q.now d.msTrigger_).map DelayedMessage.msg_
    unfold pending
    rw [List.append_assoc]
    exact List.mem_append_right _ (((List.Sublist.refl q.msgq_).append hsub).subset hm)

/-- What `GetDelay` goes by. -/
theorem getDelay_cases (q : MessageQueue) :
    ((q.msgq_ ≠ [] ∨ q.TopDue) ∧ q.GetDelay = 0) ∨
    (q.msgq_ = [] ∧ q.dmsgq_ = [] ∧ q.GetDelay = kForever) ∨
    ∃ top rest, q.msgq_ = [] ∧ q.dmsgq_ = top :: rest ∧
      TimeIsLater q.now top.msTrigger_ = true ∧
      q.GetDelay = (top.msTrigger_ - q.now).toNat := by
  unfold GetDelay
  by_cases hmsgq : q.msgq_ = []
  · rw [if_neg (not_not.2 hmsgq)]
    cases hd : q.dmsgq_ with
    | nil => exact .inr (.inl ⟨hmsgq, rfl, rfl⟩)
    | cons top rest =>
      dsimp only
      cases hlater : TimeIsLater q.now top.msTrigger_ with
      | true =>
        rw [TimeDiff_of_later hlater, if_neg (by omega)]
        exact .inr (.inr ⟨top, rest, hmsgq, rfl, hlater, rfl⟩)
      | false =>
        have hdiff := TimeDiff_of_not_later hlater
        refine .inl ⟨.inr ⟨top, by simp [hd], hlater⟩, ?_⟩
        split_ifs <;> omega
  · exact .inl ⟨.inl hmsgq, if_pos hmsgq⟩

/-- `GetDelay` tells when `Get` returns a message. -/
structure DelayTold (q : MessageQueue) (cmsWait : Int) : Prop where
  now : q.GetDelay = 0 ↔ q.GetsNow cmsWait
  never : q.GetDelay = kForever ↔ q.pending = []
  first : q.GetDelay ≠ 0 → q.GetDelay ≠ kForever → ∃ d : UInt32, q.GetDelay = d.toNat ∧
    (∀ e < d, ¬GetsNow { q with now := q.now + e } cmsWait) ∧
    GetsNow { q with now := q.now + d } cmsWait

/-- Before the time of the message on top there is none, and then there is. -/
theorem gets_first {top : DelayedMessage} {rest : List DelayedMessage}
    (hdispose : ∀ m ∈ q.pending, m.message_id ≠ MQID_DISPOSE) (hpeek : q.fPeekKeep_ = false)
    (hmsgq : q.msgq_ = []) (hd : q.dmsgq_ = top :: rest)
    (hlater : TimeIsLater q.now top.msTrigger_ = true) (e : UInt32) (cmsWait : Int)
    (he : e ≤ top.msTrigger_ - q.now) :
    GetsNow { q with now := q.now + e } cmsWait ↔ e = top.msTrigger_ - q.now := by
  have hleft : top.msTrigger_ - (q.now + e) = top.msTrigger_ - q.now - e := by
    simp only [UInt32.sub_eq_add_neg, UInt32.neg_add, UInt32.add_assoc]
  have hsub := UInt32.toNat_sub_of_le _ _ he
  rw [TimeIsLater_iff] at hlater
  rw [getsNow_iff, ready_ne_nil (q := { q with now := q.now + e }) hdispose, TopDue]
  simp only [hpeek, hmsgq, hd, ne_eq, not_true, Bool.false_eq_true, false_or, List.head?_cons,
    Option.mem_some_iff, exists_eq_left', ← Bool.not_eq_true, TimeIsLater_iff, hleft, hsub,
    ← UInt32.toNat_inj]
  have := UInt32.le_iff_toNat_le.1 he
  omega

theorem pending_eq_nil :
    q.pending = [] ↔ q.fPeekKeep_ = false ∧ q.msgq_ = [] ∧ q.dmsgq_ = [] := by
  cases hpeek : q.fPeekKeep_ <;> simp [pending, peeked, hpeek]

/-- `GetDelay` tells of `Get` exactly if a message that `Peek` keeps is not all there is to get. -/
theorem getDelay_iff (q : MessageQueue) (hdispose : ∀ m ∈ q.pending, m.message_id ≠ MQID_DISPOSE)
    (cmsWait : Int) :
    q.DelayTold cmsWait ↔ (q.fPeekKeep_ = true → q.msgq_ ≠ [] ∨ q.TopDue) := by
  have hgets := (getsNow_iff q cmsWait).trans (ready_ne_nil hdispose)
  have hforever : kForever = -1 := rfl
  rcases getDelay_cases q with ⟨hnow, hdelay⟩ | ⟨hmsgq, hd, hdelay⟩ |
    ⟨top, rest, hmsgq, hd, hlater, hdelay⟩
  · refine iff_of_true ⟨iff_of_true hdelay (hgets.2 (.inr hnow)), ?_, fun hne => absurd hdelay hne⟩
      fun _ => hnow
    refine iff_of_false (by omega) fun hnil => ?_
    obtain ⟨-, hmsgq, hd⟩ := pending_eq_nil.1 hnil
    simp [TopDue, hmsgq, hd] at hnow
  · have hnow : ¬(q.msgq_ ≠ [] ∨ q.TopDue) := by simp [TopDue, hmsgq, hd]
    constructor
    · intro htold hpeek
      have := htold.now.2 (hgets.2 (.inl hpeek))
      omega
    · intro hkept
      have hpeek := Bool.eq_false_iff.2 (mt hkept hnow)
      refine ⟨iff_of_false (by omega) fun hget => ?_, ?_, fun _ hne => absurd hdelay hne⟩
      · exact (hgets.1 hget).elim (mt hkept hnow) hnow
      · exact iff_of_true hdelay (pending_eq_nil.2 ⟨hpeek, hmsgq, hd⟩)
  · have hnow : ¬(q.msgq_ ≠ [] ∨ q.TopDue) := by simp [TopDue, hmsgq, hd, hlater]
    have hpos := (TimeIsLater_iff.1 hlater).1
    constructor
    · intro htold hpeek
      have := htold.now.2 (hgets.2 (.inl hpeek))
      omega
    · intro hkept
      have hpeek := Bool.eq_false_iff.2 (mt hkept hnow)
      have hfirst := gets_first hdispose hpeek hmsgq hd hlater
      refine ⟨iff_of_false (by omega) fun hget => ?_, iff_of_false (by omega) fun hnil => ?_, ?_⟩
      · exact (hgets.1 hget).elim (mt hkept hnow) hnow
      · rw [(pending_eq_nil.1 hnil).2.2] at hd
        cases hd
      · refine fun _ _ => ⟨_, hdelay, fun e he => ?_, (hfirst _ cmsWait (UInt32.le_refl _)).2 rfl⟩
        exact fun hget => UInt32.ne_of_lt he ((hfirst e cmsWait (UInt32.le_of_lt he)).1 hget)

theorem getDelay_delayed :
    (MessageQueue.init.doDelayPost 100 none 1 none (.at 100)).DelayTold kForever :=
  (getDelay_iff _ (by decide) kForever).2 (fun hpeek => absurd hpeek (by decide))

/-- A message is posted and peeked at: there is nothing else. -/
theorem getDelay_peeked : ¬∀ c, messageQueue.Reaches (QueueRules ForwardClock) QueueConf.init c →
    (∀ m ∈ c.state.pending, m.message_id ≠ MQID_DISPOSE) →
      ∀ cmsWait, c.state.DelayTold cmsWait := by
  intro hall
  obtain ⟨c, hc, hp⟩ := exists_of_drive (G := QueueRules ForwardClock) (P := messageQueue)
    (n := 2) (c := QueueConf.init)
    (l := [.call (.post none 1 none false), .call (.peek 0)])
    (p := fun c => decide (c.state.GetDelay = kForever ∧ c.state.fPeekKeep_ = true ∧
      ∀ m ∈ c.state.pending, m.message_id ≠ MQID_DISPOSE)) (by decide)
  obtain ⟨hdelay, hpeek, hdispose⟩ := of_decide_eq_true hp
  have hnil := pending_eq_nil.1 ((hall c hc hdispose 0).never.1 hdelay)
  rw [hpeek] at hnil
  cases hnil.1

end MessageQueue

end Gxmpp.TalkBase
