/-
The locks of the queues and of their manager, in `talk/base/messagequeue.cc` and `thread.cc`.

A post takes the lock of the queue and then, when it is the first one, the lock of the manager;
`MessageQueueManager::Clear` takes the lock of the manager and then that of each queue of its
list. They do not wait for each other in a circle, because a queue whose poster still waits for
the manager is not in the list yet.

The messages themselves are in the model of the queue; here only the send list is kept, which
decides how often `ReceiveSends` takes its lock. How often `Get` and `Send` go round is left to
the answers of the client, and a call that `fStop_` turns away takes no lock.
-/
import Gxmpp.Interleaving
import Gxmpp.MessageQueue

set_option autoImplicit false

namespace Gxmpp.TalkBase

open Reentrant Interleaving

abbrev ThreadId := Nat
abbrev QueueId := Nat

/-- A `CriticalSection`. -/
inductive Lock where
  /-- `MessageQueue::crit_` -/
  | queue (q : QueueId)
  /-- `MessageQueueManager::crit_`, of the instance with this number -/
  | manager (k : Nat)
deriving DecidableEq

/-- The queues, the instances of the manager, and the locks. -/
structure QueueLocks where
  /-- whether a queue is a `Thread` -/
  isThread : QueueId → Bool
  active_ : QueueId → Bool
  has_sends_ : QueueId → Bool
  sendlist_ : QueueId → List Message
  instance_ : Option Nat
  /-- the number of managers that were made -/
  instances : Nat
  message_queues_ : Nat → List QueueId
  /-- the owner of a lock, and how often it has entered it -/
  locks : Lock → Option (ThreadId × Nat)

/-- The points at which the functions go on. -/
inductive LockStmt where
  /-- `Enter` -/
  | enter (l : Lock)
  /-- `Leave` -/
  | leave (l : Lock)
  /-- `MessageQueue::EnsureActive` -/
  | ensureActive (q : QueueId)
  /-- what `MessageQueueManager::Add` does under its lock -/
  | pushBack (k : Nat) (q : QueueId)
  /-- what `MessageQueueManager::Remove` does under its lock -/
  | erase (k : Nat) (q : QueueId)
  /-- the last queue was removed -/
  | deleteInstance
  /-- the loop of `MessageQueueManager::Clear`, at the iterator `i` -/
  | clearFrom (k : Nat) (i : Nat) (phandler : Handler)
  /-- the virtual `Clear` of a queue -/
  | clear (q : QueueId) (phandler : Handler) (id : UInt32)
  /-- what `Thread::Clear` does to the send list -/
  | clearSends (q : QueueId) (phandler : Handler) (id : UInt32)
  /-- `MessageQueue::Clear` -/
  | clearQueue (q : QueueId)
  /-- what `Thread::Send` does under the lock of the receiver -/
  | pushSend (q : QueueId) (msg : Message)
  /-- the loop of `Send`, which waits -/
  | sendWait
  /-- `Thread::ReceiveSends` -/
  | receiveSends (q : QueueId)
  /-- its loop, under the lock -/
  | receiveNext (q : QueueId)
  /-- `OnMessage` runs -/
  | dispatch (msg : Message)
  /-- `ReceiveSends`, after `OnMessage` -/
  | received (q : QueueId)
  /-- the critical section of `Get` -/
  | pull (q : QueueId)
  /-- `Get` is between its critical sections, or waits -/
  | getWait (q : QueueId)
  /-- `MessageQueue::~MessageQueue` -/
  | destroyQueue (q : QueueId)
  /-- `SignalQueueDestroyed` -/
  | queueDestroyed (q : QueueId)
  /-- the rest of the destructor -/
  | unregister (q : QueueId)

/-- What threads call. -/
inductive LockCall where
  | post (q : QueueId)
  | doDelayPost (q : QueueId)
  | send (q : QueueId) (msg : Message)
  | get (q : QueueId)
  | clear (q : QueueId) (phandler : Handler) (id : UInt32)
  /-- `MessageQueueManager::Clear`, by the destructor of a `MessageHandler` -/
  | managerClear (phandler : Handler)
  | destroy (q : QueueId)

/-- How a wait goes on. -/
inductive LockAns where
  /-- with another round of the loop -/
  | again
  /-- with the next message, when `Get` has skipped one -/
  | next
  | done

namespace QueueLocks

/-- No queue is active. -/
def init (isThread : QueueId → Bool) : QueueLocks where
  isThread := isThread
  active_ := fun _ => false
  has_sends_ := fun _ => false
  sendlist_ := fun _ => []
  instance_ := none
  instances := 0
  message_queues_ := fun _ => []
  locks := fun _ => none

/-- `CriticalSection::Enter`, or `none` when another thread is the owner. -/
def enterLock (s : QueueLocks) (t : ThreadId) (l : Lock) : Option QueueLocks :=
  match s.locks l with
  | none => some { s with locks := Function.update s.locks l (some (t, 1)) }
  | some (owner, n) =>
    if owner = t then some { s with locks := Function.update s.locks l (some (t, n + 1)) }
    else none

/-- `CriticalSection::Leave`. -/
def leaveLock (s : QueueLocks) (l : Lock) : QueueLocks :=
  match s.locks l with
  | some (owner, n + 2) => { s with locks := Function.update s.locks l (some (owner, n + 1)) }
  | _ => { s with locks := Function.update s.locks l none }

/-- `MessageQueueManager::Instance`. -/
def manager (s : QueueLocks) : Nat × QueueLocks :=
  match s.instance_ with
  | some k => (k, s)
  | none => (s.instances, { s with
      instance_ := some s.instances
      instances := s.instances + 1 })

/-- Executes a statement of the thread `t`. -/
def exec (t : ThreadId) (s : QueueLocks) : LockStmt → Option (QueueLocks × List LockStmt)
  | .enter l => (s.enterLock t l).map fun s => (s, [])
  | .leave l => some (s.leaveLock l, [])
  | .ensureActive q =>
    if s.active_ q then some (s, [])
    else
      let (k, s) := s.manager
      some ({ s with active_ := Function.update s.active_ q true },
        [.enter (.manager k), .pushBack k q, .leave (.manager k)])
  | .pushBack k q =>
    some ({ s with message_queues_ :=
      Function.update s.message_queues_ k (s.message_queues_ k ++ [q]) }, [])
  | .erase k q =>
    let rest := (s.message_queues_ k).erase q
    some ({ s with message_queues_ := Function.update s.message_queues_ k rest },
      .leave (.manager k) :: if rest = [] then [.deleteInstance] else [])
  | .deleteInstance => some ({ s with instance_ := none }, [])
  | .clearFrom k i phandler =>
    match (s.message_queues_ k)[i]? with
    | some q => some (s, [.clear q phandler MQID_ANY, .clearFrom k (i + 1) phandler])
    | none => some (s, [])
  | .clear q phandler id =>
    if s.isThread q
    then some (s, [.enter (.queue q), .clearSends q phandler id, .clearQueue q,
      .leave (.queue q)])
    else some (s, [.clearQueue q])
  | .clearSends q phandler id =>
    let rest := (s.sendlist_ q).filter fun (msg : Message) => !msg.Match phandler id
    some ({ s with sendlist_ := Function.update s.sendlist_ q rest }, [])
  | .clearQueue q => some (s, [.enter (.queue q), .leave (.queue q)])
  | .pushSend q msg =>
    some ({ s with
      sendlist_ := Function.update s.sendlist_ q (s.sendlist_ q ++ [msg])
      has_sends_ := Function.update s.has_sends_ q true }, [])
  | .receiveSends q =>
    if s.has_sends_ q
    then some (s, [.enter (.queue q), .receiveNext q])
    else some (s, [])
  | .receiveNext q =>
    match s.sendlist_ q with
    | [] => some ({ s with has_sends_ := Function.update s.has_sends_ q false },
        [.leave (.queue q)])
    | msg :: rest => some ({ s with sendlist_ := Function.update s.sendlist_ q rest },
        [.leave (.queue q), .dispatch msg, .received q])
  | .received q => some (s, [.enter (.queue q), .receiveNext q])
  | .pull q => some (s, [.enter (.queue q), .leave (.queue q), .getWait q])
  | .destroyQueue q => some (s, [.queueDestroyed q, .unregister q])
  | .unregister q =>
    if s.active_ q
    then
      let (k, s) := s.manager
      some (s, [.enter (.manager k), .erase k q, .clearQueue q])
    else some (s, [])
  | .sendWait | .dispatch _ | .getWait _ | .queueDestroyed _ => none

/-- The points at which no lock is held, and handlers run or the thread waits. -/
def foreign : LockStmt → Bool
  | .sendWait | .dispatch _ | .getWait _ | .queueDestroyed _ => true
  | _ => false

/-- What is done after a wait or a handler, by a thread whose queue is `own`. -/
def resume (own : QueueId) (s : QueueLocks) : LockStmt → LockAns → QueueLocks × List LockStmt
  | .sendWait, .again => (s, [.receiveSends own, .sendWait])
  | .getWait q, .again => (s, [.receiveSends q, .pull q])
  | .getWait q, .next => (s, [.pull q])
  | _, _ => (s, [])

/-- The entry of a function, in a thread whose queue is `own`. -/
def enter (own : QueueId) (s : QueueLocks) : LockCall → QueueLocks × List LockStmt
  | .post q | .doDelayPost q =>
    (s, [.enter (.queue q), .ensureActive q, .leave (.queue q)])
  | .send q msg =>
    if q = own then (s, [.dispatch msg])
    else (s, [.enter (.queue q), .ensureActive q, .pushSend q msg, .leave (.queue q), .sendWait])
  | .get q => (s, [.receiveSends q, .pull q])
  | .clear q phandler id => (s, [.clear q phandler id])
  | .managerClear phandler =>
    let (k, s) := s.manager
    (s, [.enter (.manager k), .clearFrom k 0 phandler, .leave (.manager k)])
  | .destroy q =>
    (s, (if s.isThread q && s.active_ q then [.clear q none MQID_ANY] else []) ++
      [.destroyQueue q])

end QueueLocks

/-- The threads. The queue of a thread is its own number. -/
def queueLocks (t : ThreadId) : Component QueueLocks LockStmt LockCall LockAns where
  exec := QueueLocks.exec t
  foreign := QueueLocks.foreign
  resume := QueueLocks.resume t
  enter := QueueLocks.enter t

/-- A configuration of the threads. -/
abbrev LockConf := Threads ThreadId QueueLocks LockStmt

/-- At first no thread does anything. -/
def LockConf.init (isThread : QueueId → Bool) : LockConf := ⟨QueueLocks.init isThread, fun _ => []⟩

/-- Anything may be called at any time. -/
def anyStep (_ : LockConf) (_ : ThreadId) (_ : Act LockCall LockAns) : Prop := True

end Gxmpp.TalkBase
