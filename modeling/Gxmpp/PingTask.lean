/-
`talk/xmpp/pingtask.cc`: pings at regular times, and a signal when one is not answered.

The task keeps two times of the 32 bit clock, when the next ping is due and when the response to
the last one is. It compares them with the clock as numbers, and the deadline 0 says that there
is none. `talk/base/timeutils.cc` has comparisons that know of the wrap; they are not used here.

A wake-up takes one stanza from the queue. A response that was still there when a ping went out
is taken for its response.

Times are counted without a wrap, and `clock` is what `Time` returns.
-/
import Gxmpp.IqMatch
import Gxmpp.PublishResults
import Gxmpp.TaskRunner
import Mathlib.Data.List.Induction

set_option autoImplicit false

namespace Gxmpp

open TalkBase (STATE_BLOCKED STATE_ERROR)

def NS_PING : Str := str "urn:xmpp:ping"
def QN_PING : QName := ⟨NS_PING, str "ping"⟩

/-- `Time`, at a time in milliseconds. -/
def clock (time : Nat) : UInt32 := UInt32.ofNat time

/-! ## 1. The task -/

/-- `PingTask`, with what it has of `XmppTask`. -/
structure PingTask where
  task_id : Str
  stanza_queue_ : List XmlElement
  ping_period_millis_ : UInt32
  ping_timeout_millis_ : UInt32
  next_ping_time_ : UInt32
  ping_response_deadline_ : UInt32

/-- What `ProcessStart` does: whether it signals a timeout, what it sends, what it returns. -/
structure PingOutcome where
  timeout : Bool
  sent : Option XmlElement
  newstate : Int

namespace PingTask

/-- `PingTask::PingTask`. -/
def new (task_id : Str) (ping_period_millis ping_timeout_millis : UInt32) : PingTask :=
  { task_id
    stanza_queue_ := []
    ping_period_millis_ := ping_period_millis
    ping_timeout_millis_ := ping_timeout_millis
    next_ping_time_ := 0
    ping_response_deadline_ := 0 }

/-- Whether `PingTask::HandleStanza` takes the stanza. -/
def takes (t : PingTask) (me : Jid) (stanza : XmlElement) : Bool :=
  XmppTask.takesResponse me stanza Jid.empty t.task_id

/-- `PingTask::HandleStanza`. -/
def handleStanza (t : PingTask) (me : Jid) (stanza : XmlElement) : PingTask :=
  if t.takes me stanza then { t with stanza_queue_ := t.stanza_queue_ ++ [stanza] } else t

/-- The first part of `ProcessStart`: a response of some sort, if there is one. -/
def nextResponse (t : PingTask) : PingTask :=
  match t.stanza_queue_ with
  | [] => t
  | _ :: rest =>
    { t with
      stanza_queue_ := rest
      ping_response_deadline_ := 0 }

/-- The ping. -/
def makePing (t : PingTask) : XmlElement :=
  (makeIq (str "get") Jid.empty t.task_id).addElement (XmlElement.new QN_PING false)

/-- `PingTask::ProcessStart`. -/
def processStart (t : PingTask) (now : UInt32) : PingTask × PingOutcome :=
  if t.ping_period_millis_ < t.ping_timeout_millis_ then (t, ⟨false, none, STATE_ERROR⟩)
  else
    let t := t.nextResponse
    if t.ping_response_deadline_ ≠ 0 ∧ t.ping_response_deadline_ ≤ now then
      (t, ⟨true, none, STATE_ERROR⟩)
    else if t.next_ping_time_ ≤ now then
      ({ t with
          ping_response_deadline_ := now + t.ping_timeout_millis_
          next_ping_time_ := now + t.ping_period_millis_ },
        ⟨false, some t.makePing, STATE_BLOCKED⟩)
    else (t, ⟨false, none, STATE_BLOCKED⟩)

end PingTask

/-! ## 2. Runs -/

/-- What happens to the task: a stanza comes, when the client has this JID, or the task is
woken. -/
inductive PingEvent where
  | stanza (me : Jid) (stanza : XmlElement)
  | wake (time : Nat)

/-- The task in a run. Of what happened, it is remembered when the last ping was sent, whether a
response was received since, and how many were waiting at that time. -/
structure PingRun where
  task : PingTask
  done_ : Bool
  lastPing : Option Nat
  answered : Bool
  waiting : Nat

namespace PingRun

/-- The task as it is started. -/
def init (task_id : Str) (ping_period_millis ping_timeout_millis : UInt32) : PingRun :=
  ⟨.new task_id ping_period_millis ping_timeout_millis, false, none, false, 0⟩

/-- What the task does at a wake-up. -/
def outcome (s : PingRun) (time : Nat) : PingOutcome := (s.task.processStart (clock time)).2

/-- One thing happens. A task that returned `STATE_ERROR` does nothing more. -/
def happens (s : PingRun) : PingEvent → PingRun
  | .stanza me stanza =>
    if s.done_ then s
    else
      { s with
        task := s.task.handleStanza me stanza
        answered := s.answered || s.task.takes me stanza }
  | .wake time =>
    if s.done_ then s
    else
      let r := s.task.processStart (clock time)
      match r.2.sent with
      | some _ =>
        { task := r.1
          done_ := r.2.newstate = STATE_ERROR
          lastPing := some time
          answered := false
          waiting := r.1.stanza_queue_.length }
      | none =>
        { s with
          task := r.1
          done_ := r.2.newstate = STATE_ERROR }

/-- A run. -/
def run (s : PingRun) (events : List PingEvent) : PingRun := events.foldl happens s

/-- What a wake-up at this time is to do: it signals a timeout if the last ping was sent that long
ago and no response was received since. If it does not, it sends a ping if none was sent yet or
the last one was sent a period ago. -/
structure Right (s : PingRun) (time : Nat) : Prop where
  timeout : (s.outcome time).timeout = true ↔ ∃ sent, s.lastPing = some sent ∧
    sent + s.task.ping_timeout_millis_.toNat ≤ time ∧ s.answered = false
  ping : (s.outcome time).timeout = false → ((s.outcome time).sent.isSome = true ↔
    ∀ sent, s.lastPing = some sent → sent + s.task.ping_period_millis_.toNat ≤ time)

/-- The clock says of both times what the time says. While a response is awaited, the deadline
has come exactly if its clock value is one, if the clock is not below that, and if no response
was waiting when the ping was sent. Otherwise the next ping is due exactly if the clock is not
below its clock value. -/
structure ClockAgrees (s : PingRun) (time : Nat) : Prop where
  deadline : ∀ sent, s.lastPing = some sent → s.answered = false →
    (sent + s.task.ping_timeout_millis_.toNat ≤ time ↔ s.waiting = 0 ∧
      clock (sent + s.task.ping_timeout_millis_.toNat) ≠ 0 ∧
      clock (sent + s.task.ping_timeout_millis_.toNat) ≤ clock time)
  next : ∀ sent, s.lastPing = some sent →
    ¬(sent + s.task.ping_timeout_millis_.toNat ≤ time ∧ s.answered = false) →
      (sent + s.task.ping_period_millis_.toNat ≤ time ↔
        clock (sent + s.task.ping_period_millis_.toNat) ≤ clock time)

/-! ## 3. A wake-up -/

end PingRun

namespace PingTask

variable {t : PingTask}

/-- A wake-up leaves no deadline if a response was waiting. -/
theorem nextResponse_deadline (t : PingTask) :
    t.nextResponse.ping_response_deadline_
      = if t.stanza_queue_ = [] then t.ping_response_deadline_ else 0 := by
  unfold nextResponse
  cases t.stanza_queue_ with
  | nil => rw [if_pos rfl]
  | cons stanza rest => rw [if_neg (List.cons_ne_nil stanza rest)]

theorem nextResponse_next (t : PingTask) :
    t.nextResponse.next_ping_time_ = t.next_ping_time_ := by
  unfold nextResponse
  cases t.stanza_queue_ with
  | nil | cons => rfl

theorem nextResponse_periods (t : PingTask) :
    t.nextResponse.ping_timeout_millis_ = t.ping_timeout_millis_ ∧
      t.nextResponse.ping_period_millis_ = t.ping_period_millis_ := by
  unfold nextResponse
  cases t.stanza_queue_ with
  | nil | cons => exact ⟨rfl, rfl⟩

/-- The deadline is there and has come, as the clock has it. -/
def PastDeadline (t : PingTask) (now : UInt32) : Prop :=
  t.nextResponse.ping_response_deadline_ ≠ 0 ∧ t.nextResponse.ping_response_deadline_ ≤ now

theorem processStart_cases (h : t.ping_timeout_millis_ ≤ t.ping_period_millis_) (now : UInt32) :
    (t.PastDeadline now ∧ t.processStart now = (t.nextResponse, ⟨true, none, STATE_ERROR⟩)) ∨
    (¬t.PastDeadline now ∧ t.next_ping_time_ ≤ now ∧ t.processStart now =
      ({ t.nextResponse with
          ping_response_deadline_ := now + t.ping_timeout_millis_
          next_ping_time_ := now + t.ping_period_millis_ },
        ⟨false, some t.nextResponse.makePing, STATE_BLOCKED⟩)) ∨
    (¬t.PastDeadline now ∧ ¬t.next_ping_time_ ≤ now ∧
      t.processStart now = (t.nextResponse, ⟨false, none, STATE_BLOCKED⟩)) := by
  have hperiod : ¬t.ping_period_millis_ < t.ping_timeout_millis_ := UInt32.not_lt.2 h
  obtain ⟨htimeout, hperiods⟩ := t.nextResponse_periods
  unfold processStart
  rw [if_neg hperiod]
  dsimp only
  by_cases hdeadline : t.PastDeadline now
  · left
    exact ⟨hdeadline, if_pos hdeadline⟩
  · right
    have hnot := hdeadline
    unfold PastDeadline at hnot
    rw [if_neg hnot, nextResponse_next, htimeout, hperiods]
    by_cases hnext : t.next_ping_time_ ≤ now
    · left
      exact ⟨hdeadline, hnext, if_pos hnext⟩
    · right
      exact ⟨hdeadline, hnext, if_neg hnext⟩

end PingTask

namespace PingRun

variable {s : PingRun}

/-- The fields of a task that has not ended, in terms of what happened. -/
structure Follows (s : PingRun) : Prop where
  periods : s.task.ping_timeout_millis_ ≤ s.task.ping_period_millis_
  before : s.lastPing = none → s.task.next_ping_time_ = 0 ∧ s.task.ping_response_deadline_ = 0
  next : ∀ sent, s.lastPing = some sent →
    s.task.next_ping_time_ = clock (sent + s.task.ping_period_millis_.toNat)
  armed : ∀ sent, s.lastPing = some sent → s.answered = false → s.waiting = 0 →
    s.task.stanza_queue_ = [] ∧
      s.task.ping_response_deadline_ = clock (sent + s.task.ping_timeout_millis_.toNat)
  disarmed : s.answered = true ∨ s.waiting ≠ 0 →
    s.task.stanza_queue_ ≠ [] ∨ s.task.ping_response_deadline_ = 0

/-- The deadline that a wake-up looks at. -/
theorem Follows.deadline (h : Follows s) {sent : Nat} (hsent : s.lastPing = some sent) :
    s.task.nextResponse.ping_response_deadline_ =
      if s.answered = false ∧ s.waiting = 0 then
        clock (sent + s.task.ping_timeout_millis_.toNat)
      else 0 := by
  rw [PingTask.nextResponse_deadline]
  by_cases hawaited : s.answered = false ∧ s.waiting = 0
  · obtain ⟨hqueue, hdeadline⟩ := h.armed sent hsent hawaited.1 hawaited.2
    rw [if_pos hqueue, if_pos hawaited, hdeadline]
  · rw [if_neg hawaited]
    have hdisarmed : s.answered = true ∨ s.waiting ≠ 0 := by
      by_cases hanswered : s.answered = false
      · exact .inr fun hwaiting => hawaited ⟨hanswered, hwaiting⟩
      · exact .inl (eq_true_of_ne_false hanswered)
    rcases h.disarmed hdisarmed with hqueue | hzero
    · rw [if_neg hqueue]
    · rw [hzero, ite_self]

/-- A wake-up signals a timeout if no response came or was waiting, and the clock says that the
deadline has come. -/
theorem Follows.pastDeadline_iff (h : Follows s) {sent : Nat} (hsent : s.lastPing = some sent)
    (now : UInt32) : s.task.PastDeadline now ↔
      (s.answered = false ∧ s.waiting = 0) ∧
        clock (sent + s.task.ping_timeout_millis_.toNat) ≠ 0 ∧
        clock (sent + s.task.ping_timeout_millis_.toNat) ≤ now := by
  unfold PingTask.PastDeadline
  rw [h.deadline hsent]
  by_cases hawaited : s.answered = false ∧ s.waiting = 0
  · rw [if_pos hawaited]
    exact (and_iff_right hawaited).symm
  · rw [if_neg hawaited]
    exact ⟨fun hzero => absurd rfl hzero.1, fun hand => absurd hand.1 hawaited⟩

/-- Before the first ping there is no deadline. -/
theorem Follows.not_pastDeadline (h : Follows s) (hnone : s.lastPing = none) (now : UInt32) :
    ¬s.task.PastDeadline now := by
  rintro ⟨hdeadline, -⟩
  rw [PingTask.nextResponse_deadline, (h.before hnone).2, ite_self] at hdeadline
  exact hdeadline rfl

theorem Follows.timeout_iff (h : Follows s) (time : Nat) :
    (s.outcome time).timeout = true ↔ s.task.PastDeadline (clock time) := by
  unfold outcome
  rcases PingTask.processStart_cases h.periods (clock time) with
    ⟨hpast, heq⟩ | ⟨hpast, -, heq⟩ | ⟨hpast, -, heq⟩
  · rw [heq]
    exact iff_of_true rfl hpast
  · rw [heq]
    exact iff_of_false Bool.false_ne_true hpast
  · rw [heq]
    exact iff_of_false Bool.false_ne_true hpast

theorem Follows.sent_iff (h : Follows s) {time : Nat}
    (htimeout : (s.outcome time).timeout = false) :
    (s.outcome time).sent.isSome = true ↔ s.task.next_ping_time_ ≤ clock time := by
  unfold outcome at htimeout ⊢
  rcases PingTask.processStart_cases h.periods (clock time) with
    ⟨-, heq⟩ | ⟨-, hnext, heq⟩ | ⟨-, hnext, heq⟩
  · rw [heq] at htimeout
    cases htimeout
  · rw [heq]
    exact iff_of_true rfl hnext
  · rw [heq]
    exact iff_of_false Bool.false_ne_true hnext

/-- The first wake-up sends the first ping. -/
theorem Follows.right_of_none (h : Follows s) (hnone : s.lastPing = none) (time : Nat) :
    s.Right time := by
  refine ⟨?_, ?_⟩
  · rw [h.timeout_iff]
    refine iff_of_false (h.not_pastDeadline hnone _) ?_
    rintro ⟨sent, hsent, -⟩
    rw [hnone] at hsent
    cases hsent
  · intro htimeout
    rw [h.sent_iff htimeout, (h.before hnone).1]
    refine iff_of_true (UInt32.le_iff_toNat_le.2 (Nat.zero_le _)) ?_
    intro sent hsent
    rw [hnone] at hsent
    cases hsent

/-- A wake-up does what it is to do exactly if the clock agrees with the time. -/
theorem Follows.right_iff (h : Follows s) (time : Nat) : s.Right time ↔ s.ClockAgrees time := by
  cases hlast : s.lastPing with
  | none =>
    refine iff_of_true (h.right_of_none hlast time) ⟨?_, ?_⟩
    · intro sent hsent
      rw [hlast] at hsent
      cases hsent
    · intro sent hsent
      rw [hlast] at hsent
      cases hsent
  | some sent =>
    have htimeout := (h.timeout_iff time).trans (h.pastDeadline_iff hlast (clock time))
    have hdue : (∃ p, s.lastPing = some p ∧
        p + s.task.ping_timeout_millis_.toNat ≤ time ∧ s.answered = false) ↔
        sent + s.task.ping_timeout_millis_.toNat ≤ time ∧ s.answered = false := by
      rw [hlast]
      exact ⟨fun ⟨p, hp, hx⟩ => by obtain rfl := Option.some.inj hp; exact hx,
        fun hx => ⟨sent, rfl, hx⟩⟩
    have hsince : (∀ p, s.lastPing = some p → p + s.task.ping_period_millis_.toNat ≤ time) ↔
        sent + s.task.ping_period_millis_.toNat ≤ time := by
      rw [hlast]
      exact ⟨fun hx => hx sent rfl, fun hx p hp => by obtain rfl := Option.some.inj hp; exact hx⟩
    constructor
    · rintro ⟨hright, hping⟩
      rw [hdue] at hright
      rw [hsince] at hping
      refine ⟨?_, ?_⟩
      · intro p hp hanswered
        rw [hlast] at hp
        obtain rfl := Option.some.inj hp
        have hiff := htimeout.symm.trans hright
        constructor
        · intro hdue
          obtain ⟨⟨-, hwaiting⟩, hclock⟩ := hiff.2 ⟨hdue, hanswered⟩
          exact ⟨hwaiting, hclock⟩
        · rintro ⟨hwaiting, hclock⟩
          exact (hiff.1 ⟨⟨hanswered, hwaiting⟩, hclock⟩).1
      · intro p hp hnot
        rw [hlast] at hp
        obtain rfl := Option.some.inj hp
        have hquiet : (s.outcome time).timeout = false :=
          Bool.eq_false_iff.2 fun hx => hnot (hright.1 hx)
        rw [← hping hquiet, h.sent_iff hquiet, h.next sent hlast]
    · rintro ⟨hdeadline, hnext⟩
      have hdeadline := hdeadline sent hlast
      have hnext := hnext sent hlast
      have hright : (s.outcome time).timeout = true ↔
          sent + s.task.ping_timeout_millis_.toNat ≤ time ∧ s.answered = false := by
        rw [htimeout]
        constructor
        · rintro ⟨⟨hanswered, hwaiting⟩, hclock⟩
          exact ⟨(hdeadline hanswered).2 ⟨hwaiting, hclock⟩, hanswered⟩
        · rintro ⟨hdue, hanswered⟩
          obtain ⟨hwaiting, hclock⟩ := (hdeadline hanswered).1 hdue
          exact ⟨⟨hanswered, hwaiting⟩, hclock⟩
      refine ⟨?_, ?_⟩
      · rw [hdue]
        exact hright
      · intro hquiet
        have hnot : ¬(sent + s.task.ping_timeout_millis_.toNat ≤ time ∧ s.answered = false) :=
          fun hx => Bool.eq_false_iff.1 hquiet (hright.2 hx)
        rw [h.sent_iff hquiet, h.next sent hlast, hsince]
        exact (hnext hnot).symm

/-! ## 4. Every wake-up of a run -/

/-- A time after another, on the clock. -/
theorem clock_add (time : Nat) (millis : UInt32) :
    clock time + millis = clock (time + millis.toNat) := by
  unfold clock
  rw [UInt32.ofNat_add, UInt32.ofNat_toNat]

theorem follows_init (task_id : Str) {ping_period_millis ping_timeout_millis : UInt32}
    (h : ping_timeout_millis ≤ ping_period_millis) :
    Follows (init task_id ping_period_millis ping_timeout_millis) where
  periods := h
  before _ := ⟨rfl, rfl⟩
  next _ hsent := nomatch hsent
  armed _ hsent := nomatch hsent
  disarmed _ := .inr rfl

theorem Follows.stanza (h : Follows s) (me : Jid) (stanza : XmlElement) :
    Follows (s.happens (.stanza me stanza)) := by
  unfold happens
  dsimp only
  by_cases hdone : s.done_ = true
  · rw [if_pos hdone]
    exact h
  · rw [if_neg hdone]
    unfold PingTask.handleStanza
    by_cases htakes : s.task.takes me stanza = true
    · rw [if_pos htakes, htakes, Bool.or_true]
      refine ⟨h.periods, h.before, h.next, ?_, ?_⟩
      · intro sent _ hanswered
        cases hanswered
      · intro _
        exact .inl (List.append_ne_nil_of_right_ne_nil _ (List.cons_ne_nil stanza []))
    · rw [if_neg htakes, Bool.eq_false_iff.2 htakes, Bool.or_false]
      exact { h with }

/-- A wake-up at which no ping is sent. -/
theorem Follows.nextResponse (h : Follows s) (done : Bool) :
    Follows
      { s with
        task := s.task.nextResponse
        done_ := done } := by
  obtain ⟨htimeout, hperiod⟩ := s.task.nextResponse_periods
  refine ⟨?_, ?_, ?_, ?_, ?_⟩
  · show s.task.nextResponse.ping_timeout_millis_ ≤ s.task.nextResponse.ping_period_millis_
    rw [htimeout, hperiod]
    exact h.periods
  · intro hnone
    show s.task.nextResponse.next_ping_time_ = 0 ∧
      s.task.nextResponse.ping_response_deadline_ = 0
    rw [PingTask.nextResponse_next, PingTask.nextResponse_deadline, (h.before hnone).1,
      (h.before hnone).2, ite_self]
    exact ⟨rfl, rfl⟩
  · intro sent hsent
    show s.task.nextResponse.next_ping_time_ = clock (sent + _)
    rw [PingTask.nextResponse_next, hperiod]
    exact h.next sent hsent
  · intro sent hsent hanswered hwaiting
    obtain ⟨hqueue, hdeadline⟩ := h.armed sent hsent hanswered hwaiting
    -- nothing was in the queue, and the task is as it was
    have hsame : s.task.nextResponse = s.task := by
      unfold PingTask.nextResponse
      rw [hqueue]
    show s.task.nextResponse.stanza_queue_ = [] ∧ s.task.nextResponse.ping_response_deadline_ = _
    rw [hsame]
    exact ⟨hqueue, hdeadline⟩
  · intro hdisarmed
    right
    show s.task.nextResponse.ping_response_deadline_ = 0
    rw [PingTask.nextResponse_deadline]
    rcases h.disarmed hdisarmed with hqueue | hzero
    · rw [if_neg hqueue]
    · rw [hzero, ite_self]

/-- A wake-up at which a ping is sent. -/
theorem Follows.ping (h : Follows s) (time : Nat) (done : Bool) :
    Follows
      { task := { s.task.nextResponse with
          ping_response_deadline_ := clock time + s.task.ping_timeout_millis_
          next_ping_time_ := clock time + s.task.ping_period_millis_ }
        done_ := done
        lastPing := some time
        answered := false
        waiting := s.task.nextResponse.stanza_queue_.length } := by
  obtain ⟨htimeout, hperiod⟩ := s.task.nextResponse_periods
  refine ⟨?_, ?_, ?_, ?_, ?_⟩
  · show s.task.nextResponse.ping_timeout_millis_ ≤ s.task.nextResponse.ping_period_millis_
    rw [htimeout, hperiod]
    exact h.periods
  · intro hnone
    cases hnone
  · intro sent hsent
    obtain rfl := Option.some.inj hsent
    show clock time + s.task.ping_period_millis_ = clock (time + _)
    rw [hperiod]
    exact clock_add time _
  · intro sent hsent _ hwaiting
    obtain rfl := Option.some.inj hsent
    refine ⟨List.length_eq_zero_iff.1 hwaiting, ?_⟩
    show clock time + s.task.ping_timeout_millis_ = clock (time + _)
    rw [htimeout]
    exact clock_add time _
  · rintro (hanswered | hwaiting)
    · cases hanswered
    · exact .inl fun hnil => hwaiting (List.length_eq_zero_iff.2 hnil)

theorem Follows.wake (h : Follows s) (time : Nat) : Follows (s.happens (.wake time)) := by
  unfold happens
  dsimp only
  by_cases hdone : s.done_ = true
  · rw [if_pos hdone]
    exact h
  · rw [if_neg hdone]
    rcases PingTask.processStart_cases h.periods (clock time) with
      ⟨-, heq⟩ | ⟨-, -, heq⟩ | ⟨-, -, heq⟩
    · rw [heq]
      exact h.nextResponse _
    · rw [heq]
      exact h.ping time _
    · rw [heq]
      exact h.nextResponse _

theorem Follows.run (h : Follows s) (events : List PingEvent) : Follows (s.run events) := by
  induction events generalizing s with
  | nil => exact h
  | cons event events ih =>
    cases event with
    | stanza me stanza => exact ih (h.stanza me stanza)
    | wake time => exact ih (h.wake time)

/-- The times of the wake-ups. -/
def wakes (events : List PingEvent) : List Nat :=
  events.filterMap fun event =>
    match event with
    | .stanza _ _ => none
    | .wake time => some time

/-- Two wake-ups, 10 and 9 milliseconds before the clock wraps. -/
def lateWakes : List PingEvent := [.wake 4294967286, .wake 4294967287]

end PingRun

end Gxmpp
