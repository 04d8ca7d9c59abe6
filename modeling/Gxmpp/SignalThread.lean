/-
`SignalThread`, in `talk/base/signalthread.cc`: an object that runs work on a thread of its own,
reports to the main thread, and deletes itself.

The main thread and the worker take steps in any order. A scope of `EnterExit` is one step, apart
from the places at which it leaves the lock or calls out; `cs_` is recursive, and between steps only
the main thread holds it. What the object does after it is deleted is recorded (`touched`).

The hooks `OnWorkStart`, `OnWorkStop` and `OnWorkDone` do nothing here, and the main thread outlives
the object.
-/
import Gxmpp.Interleaving

set_option autoImplicit false

namespace Gxmpp.TalkBase

open Reentrant Interleaving

/-- `SignalThread::State`. -/
inductive WorkState where
  | kInit
  | kRunning
  | kReleasing
  | kComplete
  | kStopping
deriving DecidableEq

/-- Where the OS thread of the worker is. -/
inductive WorkerPhase where
  /-- there is none -/
  | idle
  /-- in `DoWork`, or about to enter the scope of `Run` -/
  | working
  /-- it has left the scope of `Run` -/
  | exiting
  | ended
deriving DecidableEq

structure SignalThread where
  state_ : WorkState
  refcount_ : Int
  /-- how often the main thread holds `cs_` -/
  depth : Nat
  /-- `worker_.started_` -/
  started_ : Bool
  worker : WorkerPhase
  /-- how many `ST_MSG_WORKER_DONE` are in the queue of the main thread -/
  posted : Nat
  /-- how often it was deleted -/
  deletes : Nat
  /-- something was done with it after it was deleted -/
  touched : Bool
  /-- how often `Start` has started a run, for stating properties -/
  starts : Nat
  /-- how many runs were completed when `Destroy` had not been called -/
  completions : Nat
  /-- how often `SignalWorkDone` was emitted before `Destroy` was called, and after it -/
  signals : Nat
  lateSignals : Nat
  /-- `Release` or `Destroy` was called -/
  released : Bool
  /-- `Destroy` was called -/
  destroyed : Bool
  /-- `Release` or `Destroy` has given up the reference of the owner -/
  given : Bool
deriving DecidableEq

/-- Points at which the main thread goes on. -/
inductive SignalStmt where
  /-- `worker_.Stop()` -/
  | stop
  /-- the end of `Destroy`, after the worker has stopped -/
  | stopped
  | emit
  /-- the handlers of `SignalWorkDone` run -/
  | handlers
  /-- the end of `OnMessage` -/
  | handled (do_delete : Bool)
deriving DecidableEq

/-- What the main thread calls, and what the worker does. -/
inductive SignalCall where
  | start
  | destroy (wait : Bool)
  | release
  /-- the main thread dispatches `ST_MSG_WORKER_DONE` -/
  | dispatch
  | continueWork
  /-- the scope of `Run` -/
  | run
  /-- the OS thread ends -/
  | finish
deriving DecidableEq

/-- The two threads. -/
inductive Side where
  | main
  | worker
deriving DecidableEq

namespace SignalThread

def init : SignalThread where
  state_ := .kInit
  refcount_ := 1
  depth := 0
  started_ := false
  worker := .idle
  posted := 0
  deletes := 0
  touched := false
  starts := 0
  completions := 0
  signals := 0
  lateSignals := 0
  released := false
  destroyed := false
  given := false

/-- Something is done with the object. -/
def touch (s : SignalThread) : SignalThread :=
  { s with touched := s.touched || decide (s.deletes ≠ 0) }

/-- `delete t_`: `~MessageHandler` takes its messages off the queue. -/
def delete (s : SignalThread) : SignalThread :=
  { s with
    deletes := s.deletes + 1
    posted := 0 }

/-- `EnterExit::EnterExit`. -/
def enterScope (s : SignalThread) : SignalThread :=
  { s.touch with
    depth := s.depth + 1
    refcount_ := s.refcount_ + 1 }

/-- `EnterExit::~EnterExit`. -/
def exitScope (s : SignalThread) : SignalThread :=
  let s' := { s.touch with
    depth := s.depth - 1
    refcount_ := s.refcount_ - 1 }
  if s'.refcount_ = 0 then s'.delete else s'

/-- `Thread::Start`. -/
def startWorker (s : SignalThread) : SignalThread :=
  if s.started_ then s
  else { s with
    started_ := true
    worker := .working }

def Start (s : SignalThread) : SignalThread :=
  let s := s.enterScope
  let s :=
    if s.state_ = .kInit ∨ s.state_ = .kComplete
    then { s with
      state_ := .kRunning
      starts := s.starts + 1 }.startWorker
    else s
  s.exitScope

def Release (s : SignalThread) : SignalThread :=
  let s := { s.enterScope with released := true }
  let s :=
    if s.state_ = .kComplete
    then { s with
      refcount_ := s.refcount_ - 1
      given := true }
    else if s.state_ = .kRunning then { s with state_ := .kReleasing }
    else s
  s.exitScope

/-- `Destroy`, to its end or to the place at which it leaves the lock. -/
def Destroy (s : SignalThread) (wait : Bool) : SignalThread × List SignalStmt :=
  let s := { s.enterScope with
    released := true
    destroyed := true }
  if s.state_ = .kInit ∨ s.state_ = .kComplete
  then ({ s with
    refcount_ := s.refcount_ - 1
    given := true }.exitScope, [])
  else if s.state_ = .kRunning ∨ s.state_ = .kReleasing then
    let s := { s with state_ := .kStopping }
    if wait then ({ s with depth := s.depth - 1 }, [.stop, .stopped]) else (s.exitScope, [])
  else (s.exitScope, [])

/-- `OnMessage`, for `ST_MSG_WORKER_DONE`, to the call of `worker_.Stop()`. -/
def OnMessage (s : SignalThread) : SignalThread × List SignalStmt :=
  let s := { s.enterScope with
    posted := s.posted - 1
    completions := if s.destroyed then s.completions else s.completions + 1 }
  let do_delete := decide (s.state_ ≠ .kRunning)
  let s := if s.state_ = .kRunning then { s with state_ := .kComplete } else s
  (s, if s.state_ ≠ .kStopping then [.stop, .emit, .handled do_delete] else [.handled do_delete])

/-- The statements of the main thread. -/
def exec (s : SignalThread) : SignalStmt → Option (SignalThread × List SignalStmt)
  | .stop =>
    if s.started_ ∧ s.worker ≠ .ended then none
    else some ({ s.touch with
      started_ := false
      worker := .idle }, [])
  | .stopped =>
    let s := { s.touch with
      depth := s.depth + 1
      refcount_ := s.refcount_ - 1 }
    some (s.exitScope, [])
  | .emit =>
    let s := s.touch
    some (if s.destroyed then { s with lateSignals := s.lateSignals + 1 }
      else { s with signals := s.signals + 1 }, [.handlers])
  | .handlers => none
  | .handled do_delete =>
    let s := if do_delete then { s with refcount_ := s.refcount_ - 1 } else s
    some (s.exitScope, [])

def foreign : SignalStmt → Bool
  | .handlers => true
  | _ => false

def enter (s : SignalThread) : SignalCall → SignalThread × List SignalStmt
  | .start => (s.Start, [])
  | .destroy wait => s.Destroy wait
  | .release => (s.Release, [])
  | .dispatch => s.OnMessage
  | .continueWork => (s.enterScope.exitScope, [])
  | .run =>
    let s := s.enterScope
    ({ s with
      posted := s.posted + 1
      worker := .exiting }.exitScope, [])
  | .finish => ({ s with worker := .ended }, [])

end SignalThread

/-- The two threads over the object. -/
def signalThread (_ : Side) : Component SignalThread SignalStmt SignalCall Unit where
  exec := SignalThread.exec
  foreign := SignalThread.foreign
  resume s _ _ := (s, [])
  enter := SignalThread.enter

/-- A configuration of the object and its two threads. -/
abbrev SignalConf := Threads Side SignalThread SignalStmt

def SignalConf.init : SignalConf := ⟨SignalThread.init, fun _ => []⟩

/-- What the assertions admit: calls of the main thread on an object that is not deleted, from
handlers of `SignalWorkDone` too. The main thread dispatches messages when it does nothing else, and
the worker waits for `cs_`. -/
def SignalRules (c : SignalConf) : Side → Act SignalCall Unit → Prop
  | .main, .call .start => c.state.deletes = 0 ∧
      (c.state.state_ = .kInit ∨ c.state.state_ = .kComplete)
  | .main, .call .release => c.state.deletes = 0 ∧
      (c.state.state_ = .kRunning ∨ c.state.state_ = .kComplete)
  | .main, .call (.destroy _) => c.state.deletes = 0 ∧ c.state.state_ ≠ .kStopping
  | .main, .call .dispatch => c.control .main = [] ∧ 0 < c.state.posted
  | .main, .tick | .main, .ret _ => True
  | .worker, .call .continueWork | .worker, .call .run =>
    c.state.worker = .working ∧ c.state.depth = 0
  | .worker, .call .finish => c.state.worker = .exiting
  | _, _ => False

end Gxmpp.TalkBase
