/-
The moves of the messages of a queue.

A message is posted, becomes ready, is peeked at, returned, skipped or cleared. Every function
of the queue is a sequence of such moves (`Moves`), and what holds of the messages in every
run is shown one move at a time.
-/
import Gxmpp.MessageQueue
import Mathlib.Data.List.Perm.Basic

set_option autoImplicit false

namespace Gxmpp.TalkBase

open Reentrant

/-- When a message is to be returned, as the queue has it. -/
def Posting.trigger : Posting → UInt32
  | .immediate => 0
  | .delayed cmsDelay now => now + cmsDelay
  | .at tstamp => tstamp

/-- A message that was posted with a delay. -/
def Message.isDelayed (msg : Message) : Bool := msg.posting ≠ .immediate

namespace MessageQueue

variable {q q' : MessageQueue} {C : Clock}

/-! ## 1. The moves -/

/-- The message that was peeked at. -/
def peeked (q : MessageQueue) : List Message := if q.fPeekKeep_ then [q.msgPeek_] else []

/-- The messages that are in the queue. -/
def pending (q : MessageQueue) : List Message :=
  q.peeked ++ q.msgq_ ++ q.dmsgq_.map DelayedMessage.msg_

/-- What can happen to the messages at once. -/
inductive Move (C : Clock) (q : MessageQueue) : MessageQueue → Prop where
  | flags (fStop_ active_ destroyed : Bool) (now : UInt32) (h : now = q.now ∨ C q.now now) :
      Move C q { q with
        fStop_
        active_
        destroyed
        now }
  | posts (m : Message) (hseq : m.seq = q.posts) (himmediate : m.posting = .immediate) :
      Move C q { q with
        active_ := true
        msgq_ := q.msgq_ ++ [m]
        posts := q.posts + 1
        log := q.log ++ [.posted m] }
  | delays (d : DelayedMessage) (hseq : d.msg_.seq = q.posts)
      (hnum : d.num_ = q.dmsgq_next_num_) (hposting : d.msg_.posting ≠ .immediate)
      (htrigger : d.msTrigger_ = d.msg_.posting.trigger)
      (hdelay : ∀ cmsDelay now, d.msg_.posting = .delayed cmsDelay now →
        cmsDelay < HALF ∧ now = q.now) :
      Move C q { q with
        active_ := true
        dmsgq_ := q.dmsgq_.orderedInsert above d
        dmsgq_next_num_ := q.dmsgq_next_num_ + 1
        posts := q.posts + 1
        log := q.log ++ [.posted d.msg_] }
  | readies (d : DelayedMessage) (rest : List DelayedMessage) (h : q.dmsgq_ = d :: rest)
      (hdue : TimeIsLater q.now d.msTrigger_ = false) :
      Move C q { q with
        dmsgq_ := rest
        msgq_ := q.msgq_ ++ [d.msg_]
        log := q.log ++ [.readied d.msg_ q.now q.posts] }
  | drops (m : Message) (rest : List Message) (h : q.msgq_ = m :: rest)
      (hdispose : m.message_id = MQID_DISPOSE) :
      Move C q { q with
        msgq_ := rest
        log := q.log ++ [.dropped m] }
  | returns (m : Message) (rest : List Message) (h : q.msgq_ = m :: rest)
      (hpeek : q.fPeekKeep_ = false) (hdispose : m.message_id ≠ MQID_DISPOSE) :
      Move C q { q with
        msgq_ := rest
        log := q.log ++ [.returned m] }
  | peeks (m : Message) (rest : List Message) (h : q.msgq_ = m :: rest)
      (hpeek : q.fPeekKeep_ = false) (hdispose : m.message_id ≠ MQID_DISPOSE) :
      Move C q { q with
        msgq_ := rest
        msgPeek_ := m
        fPeekKeep_ := true }
  | returnsPeek (hpeek : q.fPeekKeep_ = true) :
      Move C q { q with
        fPeekKeep_ := false
        log := q.log ++ [.returned q.msgPeek_] }
  | clears (phandler : Handler) (id : UInt32) (removed : Bool) :
      Move C q (q.clear phandler id removed)

/-- A sequence of moves. -/
abbrev Moves (C : Clock) : MessageQueue → MessageQueue → Prop :=
  Relation.ReflTransGen (Move C)

/-- What `Clear` does. -/
theorem clear_eq (q : MessageQueue) (phandler : Handler) (id : UInt32) (removed : Bool) :
    (q.clear phandler id removed).peeked =
        q.peeked.filter (fun m => !m.Match phandler id) ∧
      q.clear phandler id removed = { q with
        fPeekKeep_ := (q.clear phandler id removed).fPeekKeep_
        msgq_ := q.msgq_.filter fun (m : Message) => !m.Match phandler id
        dmsgq_ := q.dmsgq_.filter fun (d : DelayedMessage) => !d.msg_.Match phandler id
        log := q.log ++ ((q.pending.filter fun m => m.Match phandler id).map
          (fun m => .removed m phandler id removed) ++ [.cleared phandler id q.posts]) } := by
  unfold clear
  dsimp only
  by_cases hpeek : (q.fPeekKeep_ && q.msgPeek_.Match phandler id) = true
  · obtain ⟨hkeep, hmatch⟩ := Bool.and_eq_true_iff.1 hpeek
    rw [if_pos hpeek]
    unfold pending peeked emit
    rw [hkeep]
    simp [hmatch, List.filter_map, Function.comp_def]
  · rw [if_neg hpeek]
    unfold pending peeked emit
    cases hkeep : q.fPeekKeep_ with
    | false => simp [List.filter_map, Function.comp_def]
    | true =>
      rw [hkeep, Bool.true_and] at hpeek
      have hmatch := Bool.eq_false_iff.2 hpeek
      simp [hmatch, List.filter_map, Function.comp_def]

theorem clear_pending (q : MessageQueue) (phandler : Handler) (id : UInt32) (removed : Bool) :
    (q.clear phandler id removed).pending = q.pending.filter fun m => !m.Match phandler id := by
  obtain ⟨hpeeked, heq⟩ := clear_eq q phandler id removed
  have hmsgq : (q.clear phandler id removed).msgq_ =
    q.msgq_.filter fun (m : Message) => !m.Match phandler id := by rw [heq]
  have hdmsgq : (q.clear phandler id removed).dmsgq_ =
    q.dmsgq_.filter fun (d : DelayedMessage) => !d.msg_.Match phandler id := by rw [heq]
  unfold pending
  rw [hpeeked, hmsgq, hdmsgq, List.filter_append, List.filter_append, List.filter_map]
  rfl

/-! ## 2. The functions, as moves -/

theorem post_moves (q : MessageQueue) (phandler : Handler) (id : UInt32)
    (pdata : Option MessageData) (time_sensitive : Bool) :
    Moves C q (q.post phandler id pdata time_sensitive) := by
  unfold post
  by_cases hstop : q.fStop_ = true
  · rw [if_pos hstop]
  · rw [if_neg hstop]
    exact .single (.posts _ rfl rfl)

theorem doDelayPost_moves (q : MessageQueue) {tstamp : UInt32} (phandler : Handler) (id : UInt32)
    (pdata : Option MessageData) {posting : Posting} (hposting : posting ≠ .immediate)
    (htrigger : tstamp = posting.trigger)
    (hdelay : ∀ cmsDelay now, posting = .delayed cmsDelay now → cmsDelay < HALF ∧ now = q.now) :
    Moves C q (q.doDelayPost tstamp phandler id pdata posting) := by
  unfold doDelayPost
  split_ifs
  · exact .refl
  · exact .single (.delays _ rfl rfl hposting htrigger hdelay)

theorem destroy_moves (q : MessageQueue) : Moves C q q.destroy := by
  have hflags : ∀ r : MessageQueue, Move C r { r with destroyed := true } := fun r =>
    .flags r.fStop_ r.active_ true r.now (Or.inl rfl)
  unfold destroy
  dsimp only
  split_ifs
  · exact (Relation.ReflTransGen.single (.clears none MQID_ANY false)).tail (hflags _)
  · exact .single (hflags q)

theorem readyDelayed_moves (l : List DelayedMessage) (q : MessageQueue) :
    Moves C { q with dmsgq_ := l } (q.readyDelayed q.now l).1 := by
  induction l generalizing q with
  | nil => exact .refl
  | cons d rest ih =>
    unfold readyDelayed
    split_ifs with hlater
    · exact .refl
    · refine Relation.ReflTransGen.head ?_ (ih _)
      exact .readies d rest rfl (Bool.eq_false_iff.2 hlater)

/-- The queue is left alone but for the message that is taken off. -/
theorem pull_moves (C : Clock) (l : List Message) (q : MessageQueue) :
    match q.pull l with
    | (some m, r) => m.message_id ≠ MQID_DISPOSE ∧
        Moves C { q with msgq_ := l } { r with msgq_ := m :: r.msgq_ } ∧
        r.fPeekKeep_ = q.fPeekKeep_
    | (none, r) => Moves C { q with msgq_ := l } r ∧ r.fPeekKeep_ = q.fPeekKeep_ := by
  induction l generalizing q with
  | nil => exact ⟨.refl, rfl⟩
  | cons m rest ih =>
    unfold pull
    by_cases hdispose : m.message_id = MQID_DISPOSE
    · rw [if_pos hdispose]
      have hdrop : Move C { q with msgq_ := m :: rest } { q with
          msgq_ := rest
          log := q.log ++ [.dropped m] } := .drops m rest rfl hdispose
      have hrec := ih (q.emit (.dropped m))
      generalize (q.emit (.dropped m)).pull rest = s at hrec
      obtain ⟨o, r⟩ := s
      cases o with
      | none => exact ⟨Relation.ReflTransGen.head hdrop hrec.1, hrec.2⟩
      | some m' => exact ⟨hrec.1, Relation.ReflTransGen.head hdrop hrec.2.1, hrec.2.2⟩
    · rw [if_neg hdispose]
      exact ⟨hdispose, .refl, rfl⟩

theorem readyDelayed_keeps (l : List DelayedMessage) (q : MessageQueue) (msCurrent : UInt32) :
    (q.readyDelayed msCurrent l).1.fPeekKeep_ = q.fPeekKeep_ ∧
      (q.readyDelayed msCurrent l).1.now = q.now := by
  induction l generalizing q with
  | nil => exact ⟨rfl, rfl⟩
  | cons d rest ih =>
    unfold readyDelayed
    split_ifs
    · exact ⟨rfl, rfl⟩
    · exact ih _

theorem getLoop_moves (q : MessageQueue) (peek : Bool) (cmsWait : Int) (msStart : UInt32)
    (hpeek : q.fPeekKeep_ = false) :
    Moves C q (q.getLoop peek cmsWait msStart q.now).1 := by
  have hready := readyDelayed_moves (C := C) q.dmsgq_ q
  have hkeeps := (readyDelayed_keeps q.dmsgq_ q q.now).1.trans hpeek
  unfold getLoop
  dsimp only
  generalize (q.readyDelayed q.now q.dmsgq_) = s at hready hkeeps
  have hpull := pull_moves C s.1.msgq_ s.1
  generalize s.1.pull s.1.msgq_ = u at hpull
  obtain ⟨o, r⟩ := u
  cases o with
  | none =>
    dsimp only
    split_ifs <;> exact hready.trans hpull.1
  | some m =>
    obtain ⟨hdispose, hmoves, hkeep⟩ := hpull
    refine (hready.trans hmoves).tail ?_
    have hpeek' : r.fPeekKeep_ = false := hkeep.trans hkeeps
    show Move C _ (r.deliver peek m)
    unfold deliver
    split_ifs
    · exact .peeks m r.msgq_ rfl hpeek' hdispose
    · exact .returns m r.msgq_ rfl hpeek' hdispose

/-- In a call that keeps to the rules. -/
theorem enter_moves {c : QueueConf} {m : QueueCall} (hG : QueueRules C c m) :
    Moves C c.state (c.state.enter m).1 := by
  obtain ⟨-, -, hcall⟩ := hG
  generalize c.state = q at *
  have hflags : ∀ (fStop_ : Bool) (now : UInt32), now = q.now ∨ C q.now now → Moves C q { q with
      fStop_
      now } := fun fStop_ now h =>
    .single (.flags fStop_ q.active_ q.destroyed now h)
  cases m with
  | post phandler id pdata time_sensitive => exact post_moves q phandler id pdata time_sensitive
  | postDelayed cmsDelay phandler id pdata =>
    refine doDelayPost_moves q phandler id pdata (by exact nofun) rfl fun cms now h => ?_
    obtain ⟨rfl, rfl⟩ := Posting.delayed.inj h
    exact ⟨hcall, rfl⟩
  | postAt tstamp phandler id pdata =>
    exact doDelayPost_moves q phandler id pdata (by exact nofun) rfl nofun
  | dispose doomed => exact post_moves q _ _ _ _
  | get cmsWait =>
    unfold enter
    dsimp only
    split_ifs with hpeek
    · exact .single (.returnsPeek hpeek)
    · exact .refl
  | peek cmsWait =>
    unfold enter
    dsimp only
    split_ifs <;> exact .refl
  | clear phandler id removed => exact .single (.clears phandler id removed)
  | quit => exact hflags true q.now (Or.inl rfl)
  | restart => exact hflags false q.now (Or.inl rfl)
  | clock now => exact hflags q.fStop_ now (Or.inr hcall)
  | destroy => exact destroy_moves q

theorem resume_moves (q : MessageQueue) (x : QueueStmt) (ok : Bool) :
    (q.resume x ok).1 = q := by
  cases x with
  | get peek cmsWait msStart msCurrent => rfl
  | wait peek cmsWait msStart next =>
    show (q.waited peek cmsWait msStart ok).1 = q
    unfold waited
    split_ifs <;> rfl

end MessageQueue

/-! ## 3. The runs -/

/-- `Get` is alone, nothing is peeked at when it goes on, and it goes on at once. -/
def Getting (c : QueueConf) : Prop :=
  ∀ x ∈ c.control, c.control = [x] ∧ c.state.fPeekKeep_ = false ∧
    ∀ peek cmsWait msStart msCurrent, x = .get peek cmsWait msStart msCurrent →
      msCurrent = c.state.now

namespace MessageQueue

/-- When `Get` goes on waiting, nothing is peeked at. -/
theorem getLoop_waits {q : MessageQueue} (peek : Bool) (cmsWait : Int) (msStart : UInt32)
    (hpeek : q.fPeekKeep_ = false) :
    (q.getLoop peek cmsWait msStart q.now).2 = [] ∨
      ((q.getLoop peek cmsWait msStart q.now).1.fPeekKeep_ = false ∧
        ∃ next, (q.getLoop peek cmsWait msStart q.now).2 = [.wait peek cmsWait msStart next]) := by
  have hkeeps := (readyDelayed_keeps q.dmsgq_ q q.now).1.trans hpeek
  unfold getLoop
  dsimp only
  generalize (q.readyDelayed q.now q.dmsgq_) = s at hkeeps
  have hpull := pull_moves AnyClock s.1.msgq_ s.1
  generalize s.1.pull s.1.msgq_ = u at hpull
  obtain ⟨o, r⟩ := u
  cases o with
  | none =>
    dsimp only
    split_ifs
    · exact Or.inl rfl
    · exact Or.inr ⟨hpull.2.trans hkeeps, _, rfl⟩
  | some m => exact Or.inl rfl

/-- While `Get` waits, no other call peeks. -/
theorem enter_keepsPeek {q : MessageQueue} {m : QueueCall} (hm : m.exclusive = false)
    (hpeek : q.fPeekKeep_ = false) :
    (q.enter m).1.fPeekKeep_ = false ∧ (q.enter m).2 = [] := by
  cases m with
  | post phandler id pdata time_sensitive =>
    refine ⟨?_, rfl⟩
    show (q.post phandler id pdata time_sensitive).fPeekKeep_ = false
    unfold post
    by_cases hstop : q.fStop_ = true
    · rw [if_pos hstop, hpeek]
    · rw [if_neg hstop]
      exact hpeek
  | postDelayed cmsDelay phandler id pdata =>
    refine ⟨?_, rfl⟩
    show (q.doDelayPost _ phandler id pdata _).fPeekKeep_ = false
    unfold doDelayPost
    split_ifs <;> exact hpeek
  | postAt tstamp phandler id pdata =>
    refine ⟨?_, rfl⟩
    show (q.doDelayPost tstamp phandler id pdata _).fPeekKeep_ = false
    unfold doDelayPost
    split_ifs <;> exact hpeek
  | dispose doomed =>
    refine ⟨?_, rfl⟩
    show (q.post none MQID_DISPOSE (some (.disposeData doomed)) false).fPeekKeep_ = false
    unfold post
    by_cases hstop : q.fStop_ = true
    · rw [if_pos hstop, hpeek]
    · rw [if_neg hstop]
      exact hpeek
  | clear phandler id removed =>
    refine ⟨?_, rfl⟩
    have hpeeked := (clear_eq q phandler id removed).1
    show (q.clear phandler id removed).fPeekKeep_ = false
    unfold peeked at hpeeked
    rw [hpeek] at hpeeked
    by_contra hkeep
    rw [Bool.not_eq_false] at hkeep
    rw [hkeep] at hpeeked
    cases hpeeked
  | quit | restart | clock => exact ⟨hpeek, rfl⟩
  | _ => cases hm

end MessageQueue

theorem Getting.step {C : Clock} {c c' : QueueConf} {a : Act QueueCall Bool} (h : Getting c)
    (hG : a.Allowed (QueueRules C) c) (hs : messageQueue.step c a = some c') :
    Getting c' ∧ MessageQueue.Moves C c.state c'.state := by
  rcases step_cases hs with ⟨x, rest, r, rfl, hc, hf, hr, rfl⟩ | ⟨m, rfl, hw, rfl⟩ |
    ⟨ok, x, rest, rfl, hc, hf, rfl⟩
  · obtain ⟨hone, hpeek, hnow⟩ := h x (by rw [hc]; exact List.mem_cons_self)
    obtain rfl : rest = [] := by
      rw [hc] at hone
      exact (List.cons.inj hone).2
    cases x with
    | wait peek cmsWait msStart next => cases hf
    | get peek cmsWait msStart msCurrent =>
      obtain rfl := hnow peek cmsWait msStart msCurrent rfl
      obtain rfl := Option.some.inj hr
      refine ⟨fun y hy => ?_, MessageQueue.getLoop_moves c.state peek cmsWait msStart hpeek⟩
      rw [List.append_nil] at hy ⊢
      rcases MessageQueue.getLoop_waits peek cmsWait msStart hpeek with hnil | ⟨hpeek', next, hwait⟩
      · rw [hnil] at hy
        cases hy
      · rw [hwait] at hy ⊢
        obtain rfl := List.mem_singleton.1 hy
        exact ⟨rfl, hpeek', nofun⟩
  · have hG' := hG m rfl
    refine ⟨?_, MessageQueue.enter_moves hG'⟩
    cases hm : m.exclusive with
    | true =>
      have hnil := hG'.2.1 hm
      intro y hy
      rw [hnil, List.append_nil] at hy ⊢
      have henter : messageQueue.enter c.state m = c.state.enter m := rfl
      rw [henter] at hy ⊢
      cases m with
      | get | peek =>
        unfold MessageQueue.enter at hy ⊢
        dsimp only at hy ⊢
        split_ifs at hy ⊢ with hpeek
        · cases hy
        · obtain rfl := List.mem_singleton.1 hy
          exact ⟨rfl, Bool.eq_false_iff.2 hpeek, fun _ _ _ _ he => (QueueStmt.get.inj he).2.2.2.symm⟩
      | destroy => cases hy
      | _ => cases hm
    | false =>
      intro y hy
      have hnone : (messageQueue.enter c.state m).2 = [] := by
        cases m <;> first | rfl | cases hm
      rw [hnone, List.nil_append] at hy ⊢
      obtain ⟨hone, hpeek, -⟩ := h y hy
      refine ⟨hone, (MessageQueue.enter_keepsPeek hm hpeek).1, ?_⟩
      rintro peek cmsWait msStart msCurrent rfl
      rw [Config.waiting, hone] at hw
      cases hw
  · obtain ⟨hone, hpeek, -⟩ := h x (by rw [hc]; exact List.mem_cons_self)
    obtain rfl : rest = [] := by
      rw [hc] at hone
      exact (List.cons.inj hone).2
    have hsame : (messageQueue.resume c.state x ok).1 = c.state :=
      MessageQueue.resume_moves c.state x ok
    rw [hsame]
    refine ⟨fun y hy => ?_, .refl⟩
    rw [List.append_nil] at hy ⊢
    cases x with
    | get peek cmsWait msStart msCurrent => cases hf
    | wait peek cmsWait msStart next =>
      have hresume : messageQueue.resume c.state (.wait peek cmsWait msStart next) ok =
        c.state.waited peek cmsWait msStart ok := rfl
      rw [hresume] at hy ⊢
      unfold MessageQueue.waited at hy ⊢
      split_ifs at hy ⊢
      · cases hy
      · cases hy
      · obtain rfl := List.mem_singleton.1 hy
        exact ⟨rfl, hpeek, fun _ _ _ _ he => (QueueStmt.get.inj he).2.2.2.symm⟩

/-- Every run is a sequence of moves. -/
theorem reaches_moves {C : Clock} {c : QueueConf}
    (h : messageQueue.Reaches (QueueRules C) QueueConf.init c) :
    Getting c ∧ MessageQueue.Moves C MessageQueue.init c.state := by
  refine Reaches.invariant (I := fun c => Getting c ∧ MessageQueue.Moves C MessageQueue.init c.state)
    h ⟨nofun, .refl⟩ fun c a c' _ hI hG hs => ?_
  obtain ⟨hgetting, hmoves⟩ := hI.1.step hG hs
  exact ⟨hgetting, hI.2.trans hmoves⟩

end Gxmpp.TalkBase
