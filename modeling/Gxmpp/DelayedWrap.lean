/-
Delayed messages when the clock wraps around.

`Get` decides with `TimeIsLater` whether a message is due, but the priority queue compares the
trigger times as numbers. After a wrap the smaller number is the later time: a message that is
not due can be the top and hide those that are.
-/
import Gxmpp.QueueConservation
import Mathlib.Data.List.Pairwise
import Mathlib.Data.List.TakeWhile

set_option autoImplicit false

namespace Gxmpp.TalkBase

open Reentrant

namespace MessageQueue

variable {q : MessageQueue} {t : UInt32}

/-- A `Get` that looks at the delayed messages at the time `t` makes ready those that are due, in
the order of their trigger times. -/
def MovesDue (q : MessageQueue) (t : UInt32) : Prop :=
  ∃ moved : List Message,
    (q.readyDelayed t q.dmsgq_).1.msgq_ = q.msgq_ ++ moved ∧
    (∀ d ∈ q.dmsgq_, TimeIsLater t d.msg_.posting.trigger = false → d.msg_ ∈ moved) ∧
    moved.Pairwise fun a b => TimeIsLater b.posting.trigger a.posting.trigger = false

/-- What the queue has before a message that is due is due, and its trigger time is not the
later one. -/
def OrdersDue (q : MessageQueue) (t : UInt32) : Prop :=
  ∀ b ∈ q.dmsgq_, TimeIsLater t b.msg_.posting.trigger = false →
    ∀ a ∈ q.dmsgq_, a.msg_.Before b.msg_ →
      TimeIsLater t a.msg_.posting.trigger = false ∧
        TimeIsLater b.msg_.posting.trigger a.msg_.posting.trigger = false

instance (q : MessageQueue) (t : UInt32) : Decidable (OrdersDue q t) :=
  inferInstanceAs (Decidable (∀ b ∈ q.dmsgq_, _ → ∀ a ∈ q.dmsgq_, _ → _))

end MessageQueue

theorem Message.Before.asymm {a b : Message} (h : a.Before b) : ¬b.Before a := by
  unfold Message.Before at *
  simp only [UInt32.lt_iff_toNat_lt, ← UInt32.toNat_inj] at *
  omega

namespace MessageQueue

variable {q : MessageQueue} {t : UInt32}

/-- In a list in order, the order of two members is the order of their positions. -/
theorem pairwise_before {l : List DelayedMessage} {R : DelayedMessage → DelayedMessage → Prop}
    (hsorted : l.Pairwise fun d e => d.msg_.Before e.msg_) (hl : l.Pairwise R)
    {a b : DelayedMessage} (ha : a ∈ l) (hb : b ∈ l) (hab : a.msg_.Before b.msg_) : R a b := by
  induction l with
  | nil => cases ha
  | cons d rest ih =>
    obtain ⟨hfirst, hrest⟩ := List.pairwise_cons.1 hsorted
    obtain ⟨hR, hRrest⟩ := List.pairwise_cons.1 hl
    rcases List.mem_cons.1 ha with rfl | ha
    · rcases List.mem_cons.1 hb with rfl | hb
      · exact absurd hab hab.asymm
      · exact hR b hb
    · rcases List.mem_cons.1 hb with hbd | hb
      · rw [hbd] at hab
        exact absurd hab (hfirst a ha).asymm
      · exact ih hrest hRrest ha hb

theorem movesDue_iff (h : Heaped q) : MovesDue q t ↔ OrdersDue q t := by
  have htrigger : ∀ d ∈ q.dmsgq_, d.msTrigger_ = d.msg_.posting.trigger := fun d hd =>
    (h.waiting d hd).2.1
  -- the queue, up to the first message that is not due, and from there
  generalize hdue : (fun d : DelayedMessage => !TimeIsLater t d.msTrigger_) = due
  have hdue' : ∀ d ∈ q.dmsgq_, due d = true ↔ TimeIsLater t d.msg_.posting.trigger = false := by
    intro d hd
    rw [← hdue, ← htrigger d hd, Bool.not_eq_true']
  have hsplit : q.dmsgq_.takeWhile due ++ q.dmsgq_.dropWhile due = q.dmsgq_ :=
    List.takeWhile_append_dropWhile
  have hmoved : (q.readyDelayed t q.dmsgq_).1.msgq_ =
      q.msgq_ ++ (q.dmsgq_.takeWhile due).map DelayedMessage.msg_ := by
    rw [readyDelayed_msgq, hdue]
  have hsorted := h.sorted
  rw [← hsplit] at hsorted
  obtain ⟨htake, hdrop, hcross⟩ := List.pairwise_append.1 hsorted
  have hmem : ∀ d, d ∈ q.dmsgq_ ↔ d ∈ q.dmsgq_.takeWhile due ∨ d ∈ q.dmsgq_.dropWhile due := by
    intro d
    rw [← List.mem_append, hsplit]
  constructor
  · rintro ⟨moved, hmsgq, hall, horder⟩ b hb hbdue a ha hab
    rw [hmoved] at hmsgq
    obtain rfl := List.append_cancel_left hmsgq
    have hbtake : b ∈ q.dmsgq_.takeWhile due := by
      refine ((hmem b).1 hb).resolve_right fun hbdrop => ?_
      obtain ⟨e, he, heb⟩ := List.mem_map.1 (hall b hb hbdue)
      have hbefore := hcross e he b hbdrop
      rw [heb] at hbefore
      exact hbefore.asymm hbefore
    have hatake : a ∈ q.dmsgq_.takeWhile due :=
      ((hmem a).1 ha).resolve_right fun hadrop => hab.asymm (hcross b hbtake a hadrop)
    refine ⟨(hdue' a ha).1 (List.mem_takeWhile_imp hatake), ?_⟩
    exact pairwise_before htake (List.pairwise_map.1 horder) hatake hbtake hab
  · intro hcond
    refine ⟨_, hmoved, fun d hd hddue => List.mem_map_of_mem ?_, ?_⟩
    · refine ((hmem d).1 hd).resolve_right fun hddrop => ?_
      -- the first one of the rest is not due, and comes before it
      cases hrest : q.dmsgq_.dropWhile due with
      | nil =>
        rw [hrest] at hddrop
        cases hddrop
      | cons e rest =>
        have he : e ∈ q.dmsgq_ := (hmem e).2 (Or.inr (by rw [hrest]; exact List.mem_cons_self))
        have hnot : ¬due e = true := by
          have hhead := List.head?_dropWhile_not due q.dmsgq_
          rw [hrest, List.head?_cons] at hhead
          exact Bool.eq_false_iff.1 hhead
        refine hnot ((hdue' e he).2 ?_)
        rw [hrest] at hddrop hdrop
        rcases List.mem_cons.1 hddrop with rfl | hddrop
        · exact hddue
        · exact (hcond d hd hddue e he ((List.pairwise_cons.1 hdrop).1 d hddrop)).1
    · refine List.pairwise_map.2 (htake.imp_of_mem fun ha hb hab => ?_)
      have ha' := (hmem _).2 (Or.inl ha)
      have hb' := (hmem _).2 (Or.inl hb)
      exact (hcond _ hb' ((hdue' _ hb').1 (List.mem_takeWhile_imp hb)) _ ha' hab).2

end MessageQueue

open MessageQueue

theorem moves_heaped {C : Clock} {q : MessageQueue} (h : Moves C MessageQueue.init q) :
    Heaped q := by
  induction h with
  | refl => exact ⟨nofun, List.Pairwise.nil⟩
  | tail _ hmove ih => exact hmove.heaped ih

/-- In every run and at every time, exactly when the order of the queue fits the wrap. -/
theorem delayed_wrap {c : QueueConf}
    (h : messageQueue.Reaches (QueueRules AnyClock) QueueConf.init c) (t : UInt32) :
    MovesDue c.state t ↔ OrdersDue c.state t :=
  movesDue_iff (moves_heaped (reaches_moves h).2)

/-- Shortly before the wrap, a message is to be returned in 20 ms; after it, one in 5 ms. -/
theorem delayed_wrap_after : ∃ c,
    messageQueue.Reaches (QueueRules AnyClock) QueueConf.init c ∧ MovesDue c.state 8 := by
  obtain ⟨c, hc, hp⟩ := exists_of_drive (G := QueueRules AnyClock) (P := messageQueue)
    (n := 10) (c := QueueConf.init)
    (l := [.call (.clock 4294967290), .call (.postDelayed 20 (some 1) 1 none),
      .call (.clock 3), .call (.postDelayed 5 (some 1) 2 none)])
    (p := fun c => decide (OrdersDue c.state 8)) (by decide +kernel)
  exact ⟨c, hc, (delayed_wrap hc 8).2 (of_decide_eq_true hp)⟩

/-- At 4294967290 one is to be returned in 3 ms and another one in 20 ms. The second trigger time
is 14, so it is the top of the queue; when the first one is due, nothing becomes ready. -/
theorem delayed_wrap_hidden : ¬∀ c,
    messageQueue.Reaches (QueueRules AnyClock) QueueConf.init c → ∀ t, MovesDue c.state t := by
  intro hall
  obtain ⟨c, hc, hp⟩ := exists_of_drive (G := QueueRules AnyClock) (P := messageQueue)
    (n := 10) (c := QueueConf.init)
    (l := [.call (.clock 4294967290), .call (.postDelayed 3 (some 1) 1 none),
      .call (.postDelayed 20 (some 1) 2 none)])
    (p := fun c => !decide (OrdersDue c.state 4294967293)) (by decide +kernel)
  have horders := (movesDue_iff (moves_heaped (reaches_moves hc).2)).1 (hall c hc 4294967293)
  rw [decide_eq_true horders] at hp
  cases hp

end Gxmpp.TalkBase
