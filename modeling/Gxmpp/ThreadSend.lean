/-
`Send` between threads, in `talk/base/thread.cc`, over `MessageQueue::Get` and
`PhysicalSocketServer::Wait`.

A step of a thread is a critical section, a read or write of the pipe that wakes up a socket
server, a `select`, or code between these. A message that is sent has a number, which stands for
the address of the `ready` flag of its `Send`.

The `Signaler` is the first dispatcher of its socket server, so its event is the first one of a
pass. A pipe holds a byte exactly when `fSignaled_` is set. What sockets are ready, and when
`select` gives up waiting, is left to its answers.
-/
import Gxmpp.LockOrder

set_option autoImplicit false

namespace Gxmpp.TalkBase

open Reentrant Interleaving

/-- The number of a `Send`. -/
abbrev SendId := Nat

/-- `_SendMessage`. -/
structure SendMessage where
  thread : ThreadId
  msg : Message
  ready : SendId
deriving DecidableEq

/-- What happens to a message that is sent, for stating properties. -/
inductive SendEvent where
  | queued (n : SendId)
  | dispatched (n : SendId)
  /-- `OnMessage` returns -/
  | completed (n : SendId)
  /-- `Clear` takes it off the list -/
  | cleared (n : SendId)
  | readied (n : SendId)
  | returned (n : SendId)
deriving DecidableEq

/-- `Thread`, with the parts of its socket server that it waits with. -/
structure ThreadState where
  fStop_ : Bool
  msgq_ : List Message
  dmsgq_ : List DelayedMessage
  dmsgq_next_num_ : Nat
  has_sends_ : Bool
  sendlist_ : List SendMessage
  /-- `PhysicalSocketServer::fWait_` -/
  fWait_ : Bool
  /-- `EventDispatcher::fSignaled_` -/
  fSignaled_ : Bool
  /-- what the last `Wait` returned -/
  waitResult : Bool
  /-- a delayed message was posted since `Get` has last looked, for stating properties -/
  unexamined : Bool

/-- The threads, and the clock. -/
structure SendState where
  threads : ThreadId → ThreadState
  /-- the `ready` flags -/
  ready : SendId → Bool
  now : UInt32
  /-- the number of `Send`s so far, and who sends to whom, for stating properties -/
  sends : Nat
  sender : SendId → ThreadId
  target : SendId → ThreadId
  log : List SendEvent

/-- Who waits: `Get`, so many milliseconds, or a `Send`. -/
inductive Waiter where
  | get (cmsNext : Int)
  | send (n : SendId)
deriving DecidableEq

/-- The points at which the functions go on. -/
inductive SendStmt where
  /-- the critical section of `Post` -/
  | post (target : ThreadId) (msg : Message)
  /-- the critical section of `DoDelayPost` -/
  | doDelayPost (target : ThreadId) (tstamp : UInt32) (msg : Message)
  /-- the critical section of `Thread::Clear` -/
  | clear (target : ThreadId) (phandler : Handler) (id : UInt32)
  /-- the critical section of `Send` -/
  | pushSend (target : ThreadId) (smsg : SendMessage)
  /-- `WakeUp` -/
  | wakeUp (target : ThreadId)
  /-- the loop of `Send` -/
  | sendLoop (n : SendId) (waited : Bool)
  | receiveSends
  /-- the first critical section of `ReceiveSends` -/
  | receiveNext
  /-- `OnMessage` runs, for a message that was sent -/
  | onMessage (smsg : SendMessage)
  /-- the critical section after `OnMessage` -/
  | received (smsg : SendMessage)
  /-- `OnMessage` runs, called by a `Send` to the own thread -/
  | handler (msg : Message)
  /-- the outer loop of `Get` -/
  | getLoop (cmsWait : Int) (msStart msCurrent : UInt32)
  /-- a critical section of `Get` -/
  | pull (first_pass : Bool) (cmsDelayNext cmsWait : Int) (msStart msCurrent : UInt32)
  /-- `Get` has found no message -/
  | checkStop (cmsDelayNext cmsWait : Int) (msStart msCurrent : UInt32)
  /-- `Get`, after `Wait` -/
  | getWaited (cmsWait : Int) (msStart : UInt32)
  /-- `Wait` -/
  | wait (w : Waiter)
  /-- the loop of `Wait` -/
  | waitLoop (w : Waiter)
  /-- `select` waits -/
  | select (w : Waiter)
  /-- the pass over the dispatchers that are ready: the `Signaler`, and sockets -/
  | pass (signaled : Bool) (sockets : List Nat) (w : Waiter)
  /-- `Signaler::OnEvent` -/
  | onEvent
  /-- `OnEvent` of a socket runs -/
  | socketEvent (socket : Nat)
deriving DecidableEq

/-- What threads call, and the passing of time. -/
inductive SendCall where
  | post (target : ThreadId) (phandler : Handler) (id : UInt32) (pdata : Option MessageData)
      (time_sensitive : Bool)
  | postDelayed (target : ThreadId) (cmsDelay : UInt32) (phandler : Handler) (id : UInt32)
      (pdata : Option MessageData)
  | send (target : ThreadId) (phandler : Handler) (id : UInt32) (pdata : Option MessageData)
  | clear (target : ThreadId) (phandler : Handler) (id : UInt32)
  | quit (target : ThreadId)
  | get (cmsWait : Int)
  | clock (now : UInt32)

/-- What handlers and `select` answer. -/
inductive SendAns where
  | done
  /-- the time of `select` is up -/
  | timeout
  /-- `select` fails, or is interrupted by a signal -/
  | error (eintr : Bool)
  /-- some sockets are ready, besides the `Signaler` when it is -/
  | ready (sockets : List Nat)

/-- A message as a post or a send makes it. -/
def Message.make (phandler : Handler) (id : UInt32) (pdata : Option MessageData)
    (ts_sensitive : UInt32) : Message where
  phandler := phandler
  message_id := id
  pdata := pdata
  ts_sensitive := ts_sensitive
  seq := 0
  posting := .immediate

/-- A new thread. -/
def ThreadState.init : ThreadState where
  fStop_ := false
  msgq_ := []
  dmsgq_ := []
  dmsgq_next_num_ := 0
  has_sends_ := false
  sendlist_ := []
  fWait_ := false
  fSignaled_ := false
  waitResult := true
  unexamined := false

namespace SendState

def init : SendState where
  threads := fun _ => ThreadState.init
  ready := fun _ => false
  now := 0
  sends := 0
  sender := fun _ => 0
  target := fun _ => 0
  log := []

/-- Changes one thread. -/
def update (s : SendState) (t : ThreadId) (f : ThreadState → ThreadState) : SendState :=
  { s with threads := Function.update s.threads t (f (s.threads t)) }

/-- `PhysicalSocketServer::WakeUp`: `EventDispatcher::Signal`. -/
def wakeUp (s : SendState) (t : ThreadId) : SendState :=
  s.update t fun th => { th with fSignaled_ := true }

/-- Sets a `ready` flag, and wakes up the thread that waits for it. -/
def reply (s : SendState) (smsg : SendMessage) : SendState :=
  { s with
    ready := Function.update s.ready smsg.ready true
    log := s.log ++ [SendEvent.readied smsg.ready] }.wakeUp smsg.thread

/-! ## 1. Sending -/

/-- The loop of `ReceiveSends`, when the lock is held. -/
def receiveNext (s : SendState) (t : ThreadId) : SendState × List SendStmt :=
  match (s.threads t).sendlist_ with
  | [] => (s.update t fun th => { th with has_sends_ := false }, [])
  | smsg :: rest =>
    let s := s.update t fun th => { th with sendlist_ := rest }
    ({ s with log := s.log ++ [SendEvent.dispatched smsg.ready] }, [.onMessage smsg])

/-- `Thread::Clear` takes a message off the send list. -/
def clearSend (s : SendState) (smsg : SendMessage) : SendState :=
  { s with log := s.log ++ [SendEvent.cleared smsg.ready] }.reply smsg

/-- The critical section of `Thread::Clear`, with `MessageQueue::Clear`. -/
def clear (s : SendState) (target : ThreadId) (phandler : Handler) (id : UInt32) : SendState :=
  let keep (msg : Message) : Bool := !msg.Match phandler id
  let cleared := (s.threads target).sendlist_.filter fun smsg => smsg.msg.Match phandler id
  (cleared.foldl clearSend s).update target fun th => { th with
    sendlist_ := th.sendlist_.filter fun smsg => keep smsg.msg
    msgq_ := th.msgq_.filter keep
    dmsgq_ := th.dmsgq_.filter fun dmsg => keep dmsg.msg_ }

/-- The loop of `Thread::Send`. -/
def sendLoop (s : SendState) (t : ThreadId) (n : SendId) (waited : Bool) :
    SendState × List SendStmt :=
  if s.ready n
  then ({ s with log := s.log ++ [SendEvent.returned n] }, if waited then [.wakeUp t] else [])
  else (s, [.receiveSends, .wait (.send n), .sendLoop n true])

/-! ## 2. Getting and waiting -/

/-- The delayed messages that are due at `msCurrent` become ready. -/
def readyDelayed (th : ThreadState) (msCurrent : UInt32) : ThreadState :=
  let due (dmsg : DelayedMessage) : Bool := !TimeIsLater msCurrent dmsg.msTrigger_
  { th with
    msgq_ := th.msgq_ ++ (th.dmsgq_.takeWhile due).map DelayedMessage.msg_
    dmsgq_ := th.dmsgq_.dropWhile due
    unexamined := false }

/-- The time to the next delayed message. -/
def delayNext (th : ThreadState) (msCurrent : UInt32) : Int :=
  match th.dmsgq_ with
  | [] => kForever
  | top :: _ => TimeDiff top.msTrigger_ msCurrent

/-- A critical section of `Get`, and what it does with the message. -/
def pull (s : SendState) (t : ThreadId) (first_pass : Bool) (cmsDelayNext cmsWait : Int)
    (msStart msCurrent : UInt32) : SendState × List SendStmt :=
  let s := if first_pass then s.update t (readyDelayed · msCurrent) else s
  let cmsDelayNext := if first_pass then delayNext (s.threads t) msCurrent else cmsDelayNext
  match (s.threads t).msgq_ with
  | [] => (s, [.checkStop cmsDelayNext cmsWait msStart msCurrent])
  | msg :: rest =>
    (s.update t fun th => { th with msgq_ := rest },
      if msg.message_id = MQID_DISPOSE
      then [.pull false cmsDelayNext cmsWait msStart msCurrent] else [])

/-- `Get` stops, or waits. -/
def checkStop (s : SendState) (t : ThreadId) (cmsDelayNext cmsWait : Int)
    (msStart msCurrent : UInt32) : List SendStmt :=
  if (s.threads t).fStop_ then []
  else
    let cmsNext := MessageQueue.cmsNext cmsWait (TimeDiff msCurrent msStart) cmsDelayNext
    [.wait (.get cmsNext), .getWaited cmsWait msStart]

/-- `Get`, after `Wait`. -/
def getWaited (s : SendState) (t : ThreadId) (cmsWait : Int) (msStart : UInt32) :
    List SendStmt :=
  if !(s.threads t).waitResult then []
  else if cmsWait ≠ kForever && TimeDiff s.now msStart ≥ cmsWait then []
  else [.getLoop cmsWait msStart s.now]

/-- Executes a statement of the thread `t`. -/
def exec (t : ThreadId) (s : SendState) : SendStmt → Option (SendState × List SendStmt)
  | .post target msg =>
    some ((s.update target fun th => { th with msgq_ := th.msgq_ ++ [msg] }).wakeUp target, [])
  | .doDelayPost target tstamp msg =>
    some ((s.update target fun th => { th with
      dmsgq_ := th.dmsgq_.orderedInsert MessageQueue.above ⟨tstamp, th.dmsgq_next_num_, msg⟩
      dmsgq_next_num_ := th.dmsgq_next_num_ + 1
      unexamined := true }).wakeUp target, [])
  | .clear target phandler id => some (s.clear target phandler id, [])
  | .pushSend target smsg =>
    let s := s.update target fun th => { th with
      sendlist_ := th.sendlist_ ++ [smsg]
      has_sends_ := true }
    some ({ s with log := s.log ++ [SendEvent.queued smsg.ready] }, [])
  | .wakeUp target => some (s.wakeUp target, [])
  | .sendLoop n waited => some (s.sendLoop t n waited)
  | .receiveSends => some (s, if (s.threads t).has_sends_ then [.receiveNext] else [])
  | .receiveNext => some (s.receiveNext t)
  | .received smsg => some ((s.reply smsg).receiveNext t)
  | .getLoop cmsWait msStart msCurrent =>
    some (s, [.receiveSends, .pull true kForever cmsWait msStart msCurrent])
  | .pull first_pass cmsDelayNext cmsWait msStart msCurrent =>
    some (s.pull t first_pass cmsDelayNext cmsWait msStart msCurrent)
  | .checkStop cmsDelayNext cmsWait msStart msCurrent =>
    some (s, s.checkStop t cmsDelayNext cmsWait msStart msCurrent)
  | .getWaited cmsWait msStart => some (s, s.getWaited t cmsWait msStart)
  | .wait w => some (s.update t fun th => { th with fWait_ := true }, [.waitLoop w])
  | .waitLoop w =>
    if (s.threads t).fWait_ then some (s, [.select w])
    else some (s.update t fun th => { th with waitResult := true }, [])
  | .pass true sockets w =>
    some (s.update t fun th => { th with fSignaled_ := false }, [.onEvent, .pass false sockets w])
  | .pass false (socket :: rest) w => some (s, [.socketEvent socket, .pass false rest w])
  | .pass false [] w => some (s, [.waitLoop w])
  | .onEvent => some (s.update t fun th => { th with fWait_ := false }, [])
  | .select _ | .onMessage _ | .handler _ | .socketEvent _ => none

/-- The points at which a handler runs, or `select` waits. -/
def foreign : SendStmt → Bool
  | .select _ | .onMessage _ | .handler _ | .socketEvent _ => true
  | _ => false

/-- What is done after a handler or a `select`. -/
def resume (t : ThreadId) (s : SendState) : SendStmt → SendAns → SendState × List SendStmt
  | .onMessage smsg, _ =>
    ({ s with log := s.log ++ [SendEvent.completed smsg.ready] }, [.received smsg])
  | .select _, .timeout => (s.update t fun th => { th with waitResult := true }, [])
  | .select _, .error false => (s.update t fun th => { th with waitResult := false }, [])
  | .select w, .error true => (s, [.waitLoop w])
  | .select w, .ready sockets => (s, [.pass (s.threads t).fSignaled_ sockets w])
  | .select w, .done => (s, [.select w])
  | _, _ => (s, [])

/-- The entry of a function, in the thread `t`. -/
def enter (t : ThreadId) (s : SendState) : SendCall → SendState × List SendStmt
  | .post target phandler id pdata time_sensitive =>
    let ts_sensitive := if time_sensitive then s.now + kMaxMsgLatency else 0
    (s, if (s.threads target).fStop_ then []
      else [.post target (Message.make phandler id pdata ts_sensitive)])
  | .postDelayed target cmsDelay phandler id pdata =>
    (s, if (s.threads target).fStop_ then []
      else [.doDelayPost target (s.now + cmsDelay) (Message.make phandler id pdata 0)])
  | .send target phandler id pdata =>
    let msg := Message.make phandler id pdata 0
    if (s.threads target).fStop_ then (s, [])
    else if target = t then (s, [.handler msg])
    else
      ({ s with
        sends := s.sends + 1
        sender := Function.update s.sender s.sends t
        target := Function.update s.target s.sends target },
      [.pushSend target ⟨t, msg, s.sends⟩, .wakeUp target, .sendLoop s.sends false])
  | .clear target phandler id => (s, [.clear target phandler id])
  | .quit target => (s.update target fun th => { th with fStop_ := true }, [.wakeUp target])
  | .get cmsWait => (s, [.getLoop cmsWait s.now s.now])
  | .clock now => ({ s with now }, [])

/-! ## 3. The ways through a statement -/

/-- What a statement of the thread `t` does, one case for each way through `exec`. -/
inductive Executes (t : ThreadId) (s : SendState) :
    SendStmt → SendState → List SendStmt → Prop where
  | post (target : ThreadId) (msg : Message) : Executes t s (.post target msg)
      ((s.update target fun th => { th with msgq_ := th.msgq_ ++ [msg] }).wakeUp target) []
  | doDelayPost (target : ThreadId) (tstamp : UInt32) (msg : Message) :
    Executes t s (.doDelayPost target tstamp msg)
      ((s.update target fun th => { th with
        dmsgq_ := th.dmsgq_.orderedInsert MessageQueue.above ⟨tstamp, th.dmsgq_next_num_, msg⟩
        dmsgq_next_num_ := th.dmsgq_next_num_ + 1
        unexamined := true }).wakeUp target) []
  | clear (target : ThreadId) (phandler : Handler) (id : UInt32) :
    Executes t s (.clear target phandler id) (s.clear target phandler id) []
  | pushSend (target : ThreadId) (smsg : SendMessage) : Executes t s (.pushSend target smsg)
      { s.update target fun th => { th with
          sendlist_ := th.sendlist_ ++ [smsg]
          has_sends_ := true } with log := s.log ++ [SendEvent.queued smsg.ready] } []
  | wakeUp (target : ThreadId) : Executes t s (.wakeUp target) (s.wakeUp target) []
  | returned (n : SendId) (hready : s.ready n = true) : Executes t s (.sendLoop n false)
      { s with log := s.log ++ [SendEvent.returned n] } []
  | woken (n : SendId) (hready : s.ready n = true) : Executes t s (.sendLoop n true)
      { s with log := s.log ++ [SendEvent.returned n] } [.wakeUp t]
  | unready (n : SendId) (waited : Bool) (hready : ¬s.ready n = true) :
    Executes t s (.sendLoop n waited) s [.receiveSends, .wait (.send n), .sendLoop n true]
  | receiveSends (hsends : (s.threads t).has_sends_ = true) :
    Executes t s .receiveSends s [.receiveNext]
  | noSends (hsends : ¬(s.threads t).has_sends_ = true) : Executes t s .receiveSends s []
  | receiveNext : Executes t s .receiveNext (s.receiveNext t).1 (s.receiveNext t).2
  | received (smsg : SendMessage) : Executes t s (.received smsg)
      ((s.reply smsg).receiveNext t).1 ((s.reply smsg).receiveNext t).2
  | getLoop (cmsWait : Int) (msStart msCurrent : UInt32) :
    Executes t s (.getLoop cmsWait msStart msCurrent) s
      [.receiveSends, .pull true kForever cmsWait msStart msCurrent]
  | pull (first_pass : Bool) (cmsDelayNext cmsWait : Int) (msStart msCurrent : UInt32) :
    Executes t s (.pull first_pass cmsDelayNext cmsWait msStart msCurrent)
      (s.pull t first_pass cmsDelayNext cmsWait msStart msCurrent).1
      (s.pull t first_pass cmsDelayNext cmsWait msStart msCurrent).2
  | stopped (cmsDelayNext cmsWait : Int) (msStart msCurrent : UInt32)
      (hstop : (s.threads t).fStop_ = true) :
    Executes t s (.checkStop cmsDelayNext cmsWait msStart msCurrent) s []
  | running (cmsDelayNext cmsWait : Int) (msStart msCurrent : UInt32) (cmsNext : Int)
      (hstop : ¬(s.threads t).fStop_ = true) :
    Executes t s (.checkStop cmsDelayNext cmsWait msStart msCurrent) s
      [.wait (.get cmsNext), .getWaited cmsWait msStart]
  | gaveUp (cmsWait : Int) (msStart : UInt32) : Executes t s (.getWaited cmsWait msStart) s []
  | again (cmsWait : Int) (msStart : UInt32) :
    Executes t s (.getWaited cmsWait msStart) s [.getLoop cmsWait msStart s.now]
  | wait (w : Waiter) : Executes t s (.wait w)
      (s.update t fun th => { th with fWait_ := true }) [.waitLoop w]
  | waiting (w : Waiter) (hwait : (s.threads t).fWait_ = true) :
    Executes t s (.waitLoop w) s [.select w]
  | waited (w : Waiter) : Executes t s (.waitLoop w)
      (s.update t fun th => { th with waitResult := true }) []
  | signaled (sockets : List Nat) (w : Waiter) : Executes t s (.pass true sockets w)
      (s.update t fun th => { th with fSignaled_ := false }) [.onEvent, .pass false sockets w]
  | socket (socket : Nat) (rest : List Nat) (w : Waiter) :
    Executes t s (.pass false (socket :: rest) w) s [.socketEvent socket, .pass false rest w]
  | passed (w : Waiter) : Executes t s (.pass false [] w) s [.waitLoop w]
  | onEvent : Executes t s .onEvent (s.update t fun th => { th with fWait_ := false }) []

theorem exec_executes {t : ThreadId} {s s' : SendState} {x : SendStmt} {push : List SendStmt}
    (h : exec t s x = some (s', push)) : Executes t s x s' push := by
  cases x with
  | sendLoop n waited =>
    have hr : s.sendLoop t n waited = (s', push) := Option.some.inj h
    unfold sendLoop at hr
    split_ifs at hr with hready hwaited
    · obtain ⟨rfl, rfl⟩ := Prod.mk.inj hr
      rw [hwaited]
      exact .woken n hready
    · obtain ⟨rfl, rfl⟩ := Prod.mk.inj hr
      rw [Bool.eq_false_iff.2 hwaited]
      exact .returned n hready
    · obtain ⟨rfl, rfl⟩ := Prod.mk.inj hr
      exact .unready n waited hready
  | receiveSends =>
    obtain ⟨rfl, rfl⟩ := Prod.mk.inj (Option.some.inj h)
    split_ifs with hsends
    · exact .receiveSends hsends
    · exact .noSends hsends
  | checkStop cmsDelayNext cmsWait msStart msCurrent =>
    obtain ⟨rfl, rfl⟩ := Prod.mk.inj (Option.some.inj h)
    unfold checkStop
    split_ifs with hstop
    · exact .stopped cmsDelayNext cmsWait msStart msCurrent hstop
    · exact .running cmsDelayNext cmsWait msStart msCurrent _ hstop
  | getWaited cmsWait msStart =>
    obtain ⟨rfl, rfl⟩ := Prod.mk.inj (Option.some.inj h)
    unfold getWaited
    split_ifs
    · exact .gaveUp cmsWait msStart
    · exact .gaveUp cmsWait msStart
    · exact .again cmsWait msStart
  | waitLoop w =>
    unfold exec at h
    dsimp only at h
    split_ifs at h with hwait
    · obtain ⟨rfl, rfl⟩ := Prod.mk.inj (Option.some.inj h)
      exact .waiting w hwait
    · obtain ⟨rfl, rfl⟩ := Prod.mk.inj (Option.some.inj h)
      exact .waited w
  | pass signaled sockets w =>
    cases signaled with
    | true =>
      obtain ⟨rfl, rfl⟩ := Prod.mk.inj (Option.some.inj h)
      exact .signaled sockets w
    | false =>
      cases sockets with
      | nil =>
        obtain ⟨rfl, rfl⟩ := Prod.mk.inj (Option.some.inj h)
        exact .passed w
      | cons socket sockets =>
        obtain ⟨rfl, rfl⟩ := Prod.mk.inj (Option.some.inj h)
        exact .socket socket sockets w
  | select | onMessage | handler | socketEvent => cases h
  | _ =>
    obtain ⟨rfl, rfl⟩ := Prod.mk.inj (Option.some.inj h)
    constructor

end SendState

/-- The threads. -/
def sendThreads (t : ThreadId) : Component SendState SendStmt SendCall SendAns where
  exec := SendState.exec t
  foreign := SendState.foreign
  resume := SendState.resume t
  enter := SendState.enter t

/-- A configuration of the threads. -/
abbrev SendConf := Threads ThreadId SendState SendStmt

/-- At first no thread does anything. -/
def SendConf.init : SendConf := ⟨SendState.init, fun _ => []⟩

/-- `select` runs no code of the client. It is answered when the `Signaler` or a socket that it
waits for is ready, when its time is up, or with an error. -/
def SendRules (c : SendConf) (t : ThreadId) (a : Act SendCall SendAns) : Prop :=
  match (c.control t).head?, a with
  | some (.select _), .call _ => False
  | some (.select _), .ret .done => False
  | some (.select (.get cmsNext)), .ret .timeout => cmsNext ≠ kForever
  | some (.select (.send _)), .ret .timeout => False
  | some (.select (.get _)), .ret (.ready sockets) =>
    (c.state.threads t).fSignaled_ = true ∨ sockets ≠ []
  | some (.select (.send _)), .ret (.ready sockets) =>
    (c.state.threads t).fSignaled_ = true ∧ sockets = []
  | _, _ => True

instance (c : SendConf) (t : ThreadId) (a : Act SendCall SendAns) :
    Decidable (SendRules c t a) := by
  unfold SendRules
  split <;> infer_instance

end Gxmpp.TalkBase
