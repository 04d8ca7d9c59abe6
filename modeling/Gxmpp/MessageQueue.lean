/-
`talk/base/messagequeue.cc`, with the time functions of `timeutils.cc` that it uses.

The queue is a component: its one long function, `Get`, waits in the socket server, and while it
does, messages are posted and cleared and time passes. `Get` and `Peek` are calls of the thread
that owns the queue, so they do not overlap.

The priority queue is a list in the order of its `top`s, and `Clear` takes its messages in that
order. The number of a delayed message (`VERIFY(0 != ++dmsgq_next_num_)`) does not wrap around.
-/
import Gxmpp.Reentrant
import Mathlib.Data.List.Sort

set_option autoImplicit false

namespace Gxmpp.TalkBase

open Reentrant

/-! ## 1. Times -/

def HALF : UInt32 := 0x80000000

/-- `TimeIsLater`, for times that wrap around. -/
def TimeIsLater (earlier later : UInt32) : Bool :=
  let diff : Int32 := (later - earlier).toInt32
  diff > 0 && diff.toUInt32 < HALF

/-- `TimeDiff`. -/
def TimeDiff (later earlier : UInt32) : Int := (later - earlier).toInt32.toInt

theorem TimeIsLater_iff {earlier later : UInt32} : TimeIsLater earlier later = true ↔
    0 < (later - earlier).toNat ∧ (later - earlier).toNat < 2 ^ 31 := by
  unfold TimeIsLater
  generalize later - earlier = d
  have hpos : (0 : Int32) < d.toInt32 ↔ 0 < d.toInt32.toInt := Int32.lt_iff_toInt_lt
  have hint : d.toInt32.toInt = d.toBitVec.toInt := rfl
  have hhalf : d < HALF ↔ d.toNat < 2 ^ 31 := UInt32.lt_iff_toNat_lt
  have hnat : d.toBitVec.toNat = d.toNat := rfl
  have hlt := d.toNat_lt
  simp only [gt_iff_lt, UInt32.toUInt32_toInt32, Bool.and_eq_true, decide_eq_true_eq, hpos, hhalf,
    hint, BitVec.toInt_eq_toNat_cond, hnat]
  split_ifs <;> omega

/-! ## 2. Messages -/

def MQID_ANY : UInt32 := 0xFFFFFFFF
def MQID_DISPOSE : UInt32 := 0xFFFFFFFE
def kForever : Int := -1
def kMaxMsgLatency : UInt32 := 150

/-- A `MessageHandler*`; NULL is `none`. -/
abbrev Handler := Option Nat

/-- A `MessageData` object. -/
inductive MessageData where
  | plain (object : Nat)
  /-- `DisposeData`, whose destructor deletes the doomed object -/
  | disposeData (doomed : Nat)
deriving DecidableEq

/-- How a message was posted, for stating properties. -/
inductive Posting where
  | immediate
  /-- by `PostDelayed`, at a time -/
  | delayed (cmsDelay now : UInt32)
  | at (tstamp : UInt32)
deriving DecidableEq

/-- `Message`. -/
structure Message where
  phandler : Handler
  message_id : UInt32
  pdata : Option MessageData
  ts_sensitive : UInt32
  /-- the number of messages that were posted before, for stating properties -/
  seq : Nat
  posting : Posting
deriving DecidableEq

/-- `Message::Match`. -/
def Message.Match (msg : Message) (handler : Handler) (id : UInt32) : Bool :=
  (handler = none || handler = msg.phandler) && (id = MQID_ANY || id = msg.message_id)

/-- `DelayedMessage`. -/
structure DelayedMessage where
  msTrigger_ : UInt32
  num_ : Nat
  msg_ : Message
deriving DecidableEq

/-- `DelayedMessage::operator<`: `dmsg` comes before it. -/
def DelayedMessage.lt (self dmsg : DelayedMessage) : Bool :=
  dmsg.msTrigger_ < self.msTrigger_ ||
    (dmsg.msTrigger_ = self.msTrigger_ && dmsg.num_ < self.num_)

/-- What happens to messages, for stating properties. -/
inductive QueueEvent where
  | posted (msg : Message)
  /-- `Get` finds a delayed message due at `msCurrent`, when `posts` messages have been posted -/
  | readied (msg : Message) (msCurrent : UInt32) (posts : Nat)
  /-- `Get` returns it -/
  | returned (msg : Message)
  /-- `Clear` takes it out, and hands it over or deletes its data -/
  | removed (msg : Message) (phandler : Handler) (id : UInt32) (handed : Bool)
  /-- `Get` skips a dispose message -/
  | dropped (msg : Message)
  /-- the end of a `Clear`, when `posts` messages have been posted -/
  | cleared (phandler : Handler) (id : UInt32) (posts : Nat)
deriving DecidableEq

/-- `MessageQueue`, with the clock. -/
structure MessageQueue where
  fStop_ : Bool
  fPeekKeep_ : Bool
  msgPeek_ : Message
  active_ : Bool
  msgq_ : List Message
  dmsgq_ : List DelayedMessage
  dmsgq_next_num_ : Nat
  /-- what `Time` says -/
  now : UInt32
  /-- the number of messages that were posted -/
  posts : Nat
  /-- the destructor has run -/
  destroyed : Bool
  log : List QueueEvent

/-- The points at which `Get` goes on. It is called by `Peek`, or by a client. -/
inductive QueueStmt where
  /-- the outer loop -/
  | get (peek : Bool) (cmsWait : Int) (msStart msCurrent : UInt32)
  /-- `Wait` runs -/
  | wait (peek : Bool) (cmsWait : Int) (msStart : UInt32) (cmsNext : Int)
deriving DecidableEq

/-- What can be called, and the passing of time. -/
inductive QueueCall where
  | post (phandler : Handler) (id : UInt32) (pdata : Option MessageData) (time_sensitive : Bool)
  | postDelayed (cmsDelay : UInt32) (phandler : Handler) (id : UInt32) (pdata : Option MessageData)
  | postAt (tstamp : UInt32) (phandler : Handler) (id : UInt32) (pdata : Option MessageData)
  | dispose (doomed : Nat)
  | get (cmsWait : Int)
  | peek (cmsWait : Int)
  | clear (phandler : Handler) (id : UInt32) (removed : Bool)
  | quit
  | restart
  | clock (now : UInt32)
  | destroy

/-- `Message()`. -/
def Message.null : Message where
  phandler := none
  message_id := 0
  pdata := none
  ts_sensitive := 0
  seq := 0
  posting := .immediate

namespace MessageQueue

/-- A new queue. -/
def init : MessageQueue where
  fStop_ := false
  fPeekKeep_ := false
  msgPeek_ := Message.null
  active_ := false
  msgq_ := []
  dmsgq_ := []
  dmsgq_next_num_ := 0
  now := 0
  posts := 0
  destroyed := false
  log := []

/-- Records an event. -/
def emit (q : MessageQueue) (ev : QueueEvent) : MessageQueue := { q with log := q.log ++ [ev] }

/-! ## 3. Posting and clearing -/

/-- The order of the priority queue: `a` may be above `b`. -/
abbrev above (a b : DelayedMessage) : Prop := ¬a.lt b = true

/-- `MessageQueue::Post`. -/
def post (q : MessageQueue) (phandler : Handler) (id : UInt32) (pdata : Option MessageData)
    (time_sensitive : Bool) : MessageQueue :=
  if q.fStop_ then q
  else
    let msg : Message :=
      { phandler
        message_id := id
        pdata
        ts_sensitive := if time_sensitive then q.now + kMaxMsgLatency else 0
        seq := q.posts
        posting := .immediate }
    { q with
      active_ := true
      msgq_ := q.msgq_ ++ [msg]
      posts := q.posts + 1
      log := q.log ++ [.posted msg] }

/-- `MessageQueue::DoDelayPost`. -/
def doDelayPost (q : MessageQueue) (tstamp : UInt32) (phandler : Handler) (id : UInt32)
    (pdata : Option MessageData) (posting : Posting) : MessageQueue :=
  if q.fStop_ then q
  else
    let msg : Message :=
      { phandler
        message_id := id
        pdata
        ts_sensitive := 0
        seq := q.posts
        posting }
    let dmsg : DelayedMessage := ⟨tstamp, q.dmsgq_next_num_, msg⟩
    { q with
      active_ := true
      dmsgq_ := q.dmsgq_.orderedInsert above dmsg
      dmsgq_next_num_ := q.dmsgq_next_num_ + 1
      posts := q.posts + 1
      log := q.log ++ [.posted msg] }

/-- `MessageQueue::Clear`. -/
def clear (q : MessageQueue) (phandler : Handler) (id : UInt32) (removed : Bool) :
    MessageQueue :=
  let take (msg : Message) : QueueEvent := .removed msg phandler id removed
  let q :=
    if q.fPeekKeep_ && q.msgPeek_.Match phandler id
    then { q.emit (take q.msgPeek_) with fPeekKeep_ := false } else q
  let q := { q with
    msgq_ := q.msgq_.filter fun (msg : Message) => !msg.Match phandler id
    log := q.log ++ (q.msgq_.filter fun (msg : Message) => msg.Match phandler id).map take }
  let q := { q with
    dmsgq_ := q.dmsgq_.filter fun (dmsg : DelayedMessage) => !dmsg.msg_.Match phandler id
    log := q.log ++ ((q.dmsgq_.filter fun (dmsg : DelayedMessage) => dmsg.msg_.Match phandler id).map
      fun (dmsg : DelayedMessage) => take dmsg.msg_) }
  q.emit (.cleared phandler id q.posts)

/-- `MessageQueue::~MessageQueue`. -/
def destroy (q : MessageQueue) : MessageQueue :=
  let q := if q.active_ then q.clear none MQID_ANY false else q
  { q with destroyed := true }

/-! ## 4. Getting -/

/-- The loop of `Get` over the delayed messages, and `cmsDelayNext`. -/
def readyDelayed (q : MessageQueue) (msCurrent : UInt32) :
    List DelayedMessage → MessageQueue × Int
  | [] => ({ q with dmsgq_ := [] }, kForever)
  | top :: rest =>
    if TimeIsLater msCurrent top.msTrigger_
    then ({ q with dmsgq_ := top :: rest }, TimeDiff top.msTrigger_ msCurrent)
    else
      let q := { q with msgq_ := q.msgq_ ++ [top.msg_] }
      (q.emit (.readied top.msg_ msCurrent q.posts)).readyDelayed msCurrent rest

/-- The inner loop of `Get`: the first message that is not a dispose message. -/
def pull (q : MessageQueue) : List Message → Option Message × MessageQueue
  | [] => (none, { q with msgq_ := [] })
  | msg :: rest =>
    if msg.message_id = MQID_DISPOSE then (q.emit (.dropped msg)).pull rest
    else (some msg, { q with msgq_ := rest })

/-- The time that `Get` lets the socket server wait. -/
def cmsNext (cmsWait cmsElapsed cmsDelayNext : Int) : Int :=
  if cmsWait = kForever then cmsDelayNext
  else
    let cmsNext := max 0 (cmsWait - cmsElapsed)
    if cmsDelayNext ≠ kForever && cmsDelayNext < cmsNext then cmsDelayNext else cmsNext

/-- What becomes of the message that `Get` takes off the queue. -/
def deliver (q : MessageQueue) (peek : Bool) (msg : Message) : MessageQueue :=
  if peek
  then
    { q with
      msgPeek_ := msg
      fPeekKeep_ := true }
  else q.emit (.returned msg)

/-- A round of the outer loop of `Get`. -/
def getLoop (q : MessageQueue) (peek : Bool) (cmsWait : Int) (msStart msCurrent : UInt32) :
    MessageQueue × List QueueStmt :=
  let ready := q.readyDelayed msCurrent q.dmsgq_
  match ready.1.pull ready.1.msgq_ with
  | (some msg, q) => (q.deliver peek msg, [])
  | (none, q) =>
    if q.fStop_ then (q, [])
    else
      let next := cmsNext cmsWait (TimeDiff msCurrent msStart) ready.2
      (q, [.wait peek cmsWait msStart next])

/-- `Get`, after `Wait`. -/
def waited (q : MessageQueue) (peek : Bool) (cmsWait : Int) (msStart : UInt32) (ok : Bool) :
    MessageQueue × List QueueStmt :=
  if !ok then (q, [])
  else if cmsWait ≠ kForever && TimeDiff q.now msStart ≥ cmsWait then (q, [])
  else (q, [.get peek cmsWait msStart q.now])

/-- Executes a statement. -/
def exec (q : MessageQueue) : QueueStmt → Option (MessageQueue × List QueueStmt)
  | .get peek cmsWait msStart msCurrent => some (q.getLoop peek cmsWait msStart msCurrent)
  | .wait _ _ _ _ => none

/-- Whether the socket server is waiting. -/
def foreign : QueueStmt → Bool
  | .wait _ _ _ _ => true
  | .get _ _ _ _ => false

/-- What becomes of the answer of `Wait`. -/
def resume (q : MessageQueue) : QueueStmt → Bool → MessageQueue × List QueueStmt
  | .wait peek cmsWait msStart _, ok => q.waited peek cmsWait msStart ok
  | .get _ _ _ _, _ => (q, [])

/-- The entry of a function. -/
def enter (q : MessageQueue) : QueueCall → MessageQueue × List QueueStmt
  | .post phandler id pdata time_sensitive => (q.post phandler id pdata time_sensitive, [])
  | .postDelayed cmsDelay phandler id pdata =>
    (q.doDelayPost (q.now + cmsDelay) phandler id pdata (.delayed cmsDelay q.now), [])
  | .postAt tstamp phandler id pdata => (q.doDelayPost tstamp phandler id pdata (.at tstamp), [])
  | .dispose doomed => (q.post none MQID_DISPOSE (some (.disposeData doomed)) false, [])
  | .get cmsWait =>
    if q.fPeekKeep_ then ({ q.emit (.returned q.msgPeek_) with fPeekKeep_ := false }, [])
    else (q, [.get false cmsWait q.now q.now])
  | .peek cmsWait =>
    if q.fPeekKeep_ then (q, []) else (q, [.get true cmsWait q.now q.now])
  | .clear phandler id removed => (q.clear phandler id removed, [])
  | .quit => ({ q with fStop_ := true }, [])
  | .restart => ({ q with fStop_ := false }, [])
  | .clock now => ({ q with now }, [])
  | .destroy => (q.destroy, [])

end MessageQueue

/-- The queue, as a component. The answers are those of `Wait`. -/
def messageQueue : Component MessageQueue QueueStmt QueueCall Bool where
  exec := MessageQueue.exec
  foreign := MessageQueue.foreign
  resume := MessageQueue.resume
  enter := MessageQueue.enter

/-- A configuration of the queue. -/
abbrev QueueConf := Config MessageQueue QueueStmt

/-- A new queue, at rest. -/
def QueueConf.init : QueueConf := ⟨MessageQueue.init, []⟩

/-- A call for which no other one may be in progress. -/
def QueueCall.exclusive : QueueCall → Bool
  | .get _ | .peek _ | .destroy => true
  | _ => false

/-- How the clock may go on. -/
abbrev Clock := UInt32 → UInt32 → Prop

/-- It may wrap around, or be set. -/
def AnyClock : Clock := fun _ _ => True

/-- It does not go back. -/
def ForwardClock : Clock := fun now now' => now ≤ now'

/-- The rules of a run: a queue that was destroyed is not used, `Get` and `Peek` do not
overlap, and a delay is what `TimeAfter` takes. -/
def QueueRules (C : Clock) : Rules MessageQueue QueueStmt QueueCall := fun c m =>
  c.state.destroyed = false ∧ (m.exclusive = true → c.control = []) ∧
    match m with
    | .postDelayed cmsDelay _ _ _ => cmsDelay < HALF
    | .clock now => C c.state.now now
    | _ => True

instance : ∀ now now' : UInt32, Decidable (AnyClock now now') := fun _ _ => .isTrue trivial

instance : ∀ now now' : UInt32, Decidable (ForwardClock now now') := fun now now' =>
  inferInstanceAs (Decidable (now ≤ now'))

instance (C : Clock) [∀ now now', Decidable (C now now')] (c : QueueConf) (m : QueueCall) :
    Decidable (QueueRules C c m) := by
  unfold QueueRules
  cases m <;> exact inferInstanceAs (Decidable (_ ∧ (_ → _) ∧ _))

end Gxmpp.TalkBase
