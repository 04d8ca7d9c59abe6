/-
`PhysicalSocketServer::Wait`, in `talk/base/physicalsocketserver.cc`, on POSIX.

A dispatcher is known by its descriptor and the events it requests. `Wait` is cut into statements at
`select`, where the operating system says what is ready, and at the handlers of the dispatchers,
which add and remove dispatchers and change what they request. `select` succeeds here, and the time
that is left to wait is not kept: it may return nothing at any time.
-/
import Mathlib.Data.Finset.Basic
import Mathlib.Data.Finset.Insert
import Gxmpp.History
import Gxmpp.PhysicalSocket

set_option autoImplicit false

namespace Gxmpp.TalkBase

open Reentrant

abbrev DispatcherId := Nat

/-- What happens to dispatchers. -/
inductive ServerEvent where
  | added (d : DispatcherId)
  | removed (d : DispatcherId)
  /-- `OnPreEvent` and `OnEvent` are called -/
  | event (d : DispatcherId) (ff : Finset DispatcherEvent)

structure PhysicalSocketServer where
  dispatchers_ : List DispatcherId
  /-- `GetDescriptor` -/
  descriptor : DispatcherId → Nat
  /-- `GetRequestedEvents` -/
  requested : DispatcherId → Finset DispatcherEvent
  signal_wakeup_ : DispatcherId
  fWait_ : Bool
  /-- the argument and the variables of `Wait` -/
  process_io : Bool
  fdsRead : Finset Nat
  fdsWrite : Finset Nat
  i : Nat
  /-- what has happened, for stating properties -/
  log : List ServerEvent
  /-- the dispatchers that the last `select` has reported, and those called since then -/
  reported : List DispatcherId
  received : List DispatcherId

/-- Where `Wait` is. -/
inductive ServerStmt where
  /-- the condition of the loop, and the loop that sets the descriptors -/
  | poll
  /-- `select` waits -/
  | select
  /-- the loop over the dispatchers after it -/
  | dispatch
  /-- `getsockopt` and `IsDescriptorClosed` are asked -/
  | examine (d : DispatcherId)
  /-- the handlers of an event run -/
  | handlers
  /-- the end of the loop over the dispatchers -/
  | dispatched
deriving DecidableEq

inductive ServerCall where
  | wait (process_io : Bool)
  /-- a dispatcher with this descriptor adds itself -/
  | add (d : DispatcherId) (fd : Nat)
  | remove (d : DispatcherId)
  | request (d : DispatcherId) (ff : Finset DispatcherEvent)
  /-- `OnEvent` of `signal_wakeup_` -/
  | wakeUp

/-- What the operating system says. -/
structure ServerReply where
  /-- what `select` leaves in the sets -/
  fdsRead : Finset Nat
  fdsWrite : Finset Nat
  /-- `SO_ERROR` is set -/
  errcode : Bool
  /-- `IsDescriptorClosed` -/
  closed : Bool

namespace PhysicalSocketServer

/-- The constructor: `signal_wakeup_` adds itself. -/
def init (signal_wakeup : DispatcherId) (descriptor : DispatcherId → Nat)
    (requested : DispatcherId → Finset DispatcherEvent) : PhysicalSocketServer where
  dispatchers_ := [signal_wakeup]
  descriptor := descriptor
  requested := requested
  signal_wakeup_ := signal_wakeup
  fWait_ := false
  process_io := false
  fdsRead := ∅
  fdsWrite := ∅
  i := 0
  log := [.added signal_wakeup]
  reported := []
  received := []

def Add (s : PhysicalSocketServer) (d : DispatcherId) : PhysicalSocketServer :=
  if d ∈ s.dispatchers_ then s
  else { s with
    dispatchers_ := s.dispatchers_ ++ [d]
    log := s.log ++ [.added d] }

/-- `Remove`; `iterators_` is empty on POSIX. -/
def Remove (s : PhysicalSocketServer) (d : DispatcherId) : PhysicalSocketServer :=
  { s with
    dispatchers_ := s.dispatchers_.erase d
    log := s.log ++ [.removed d] }

/-- `Wait` passes over the others when it does not process I/O. -/
def Polled (s : PhysicalSocketServer) (d : DispatcherId) : Prop :=
  s.process_io = true ∨ d = s.signal_wakeup_

instance (s : PhysicalSocketServer) (d : DispatcherId) : Decidable (s.Polled d) :=
  inferInstanceAs (Decidable (_ ∨ _))

/-- `ff & (DE_READ | DE_ACCEPT)`. -/
def WantsRead (s : PhysicalSocketServer) (d : DispatcherId) : Prop :=
  .read ∈ s.requested d ∨ .accept ∈ s.requested d

/-- `ff & (DE_WRITE | DE_CONNECT)`. -/
def WantsWrite (s : PhysicalSocketServer) (d : DispatcherId) : Prop :=
  .write ∈ s.requested d ∨ .connect ∈ s.requested d

instance (s : PhysicalSocketServer) (d : DispatcherId) : Decidable (s.WantsRead d) :=
  inferInstanceAs (Decidable (_ ∨ _))

instance (s : PhysicalSocketServer) (d : DispatcherId) : Decidable (s.WantsWrite d) :=
  inferInstanceAs (Decidable (_ ∨ _))

/-- One round of the loop that sets the descriptors. -/
def set (s : PhysicalSocketServer) (fds : Finset Nat × Finset Nat) (d : DispatcherId) :
    Finset Nat × Finset Nat :=
  if s.Polled d then
    (if s.WantsRead d then insert (s.descriptor d) fds.1 else fds.1,
      if s.WantsWrite d then insert (s.descriptor d) fds.2 else fds.2)
  else fds

/-- The loop that sets the descriptors. -/
def setAll (s : PhysicalSocketServer) : PhysicalSocketServer :=
  let fds := s.dispatchers_.foldl s.set (s.fdsRead, s.fdsWrite)
  { s with
    fdsRead := fds.1
    fdsWrite := fds.2 }

/-- The descriptor of a dispatcher is in a set. -/
def IsSet (s : PhysicalSocketServer) (d : DispatcherId) : Prop :=
  s.descriptor d ∈ s.fdsRead ∨ s.descriptor d ∈ s.fdsWrite

instance (s : PhysicalSocketServer) (d : DispatcherId) : Decidable (s.IsSet d) :=
  inferInstanceAs (Decidable (_ ∨ _))

/-- `select` has returned; false on a timeout. -/
def selected (s : PhysicalSocketServer) (reply : ServerReply) : PhysicalSocketServer × Bool :=
  let s := { s with
    fdsRead := reply.fdsRead
    fdsWrite := reply.fdsWrite
    i := 0
    received := [] }
  ({ s with reported := s.dispatchers_.filter fun d => s.IsSet d },
    decide (s.fdsRead.Nonempty ∨ s.fdsWrite.Nonempty))

/-- What is read from `fdsRead`. -/
def readEvents (s : PhysicalSocketServer) (d : DispatcherId) (reply : ServerReply) :
    Finset DispatcherEvent :=
  if s.descriptor d ∈ s.fdsRead then
    if .accept ∈ s.requested d then {.accept}
    else if reply.errcode || reply.closed then {.close}
    else {.read}
  else ∅

/-- What is read from `fdsWrite`. -/
def writeEvents (s : PhysicalSocketServer) (d : DispatcherId) (reply : ServerReply) :
    Finset DispatcherEvent :=
  if s.descriptor d ∈ s.fdsWrite then
    if .connect ∈ s.requested d then if reply.errcode then {.close} else {.connect}
    else {.write}
  else ∅

/-- One round of the loop over the dispatchers: the bits are cleared, and the dispatcher is told. -/
def tell (s : PhysicalSocketServer) (d : DispatcherId) (reply : ServerReply) :
    PhysicalSocketServer :=
  { s with
    fdsRead := s.fdsRead.erase (s.descriptor d)
    fdsWrite := s.fdsWrite.erase (s.descriptor d)
    log := s.log ++ [.event d (s.readEvents d reply ∪ s.writeEvents d reply)]
    received := d :: s.received }

def exec (s : PhysicalSocketServer) : ServerStmt → Option (PhysicalSocketServer × List ServerStmt)
  | .poll => some (if s.fWait_ then (s.setAll, [.select]) else (s, []))
  | .dispatch =>
    match s.dispatchers_[s.i]? with
    | none => some (s, [.dispatched])
    | some d =>
      some (if s.IsSet d then (s, [.examine d]) else ({ s with i := s.i + 1 }, [.dispatch]))
  | .dispatched => some (s, [.poll])
  | .select | .examine _ | .handlers => none

def foreign : ServerStmt → Bool
  | .select | .examine _ | .handlers => true
  | .poll | .dispatch | .dispatched => false

def resume (s : PhysicalSocketServer) :
    ServerStmt → ServerReply → PhysicalSocketServer × List ServerStmt
  | .select, reply =>
    let (s, ready) := s.selected reply
    (s, if ready then [.dispatch] else [])
  | .examine d, reply => (s.tell d reply, [.handlers])
  | .handlers, _ => ({ s with i := s.i + 1 }, [.dispatch])
  | .poll, _ | .dispatch, _ | .dispatched, _ => (s, [])

def enter (s : PhysicalSocketServer) : ServerCall → PhysicalSocketServer × List ServerStmt
  | .wait process_io => ({ s with
      fdsRead := ∅
      fdsWrite := ∅
      fWait_ := true
      process_io := process_io }, [.poll])
  | .add d fd => ({ s with descriptor := Function.update s.descriptor d fd }.Add d, [])
  | .remove d => (s.Remove d, [])
  | .request d ff => ({ s with requested := Function.update s.requested d ff }, [])
  | .wakeUp => ({ s with fWait_ := false }, [])

end PhysicalSocketServer

/-- The server between the dispatchers and the operating system. -/
def socketServer : Component PhysicalSocketServer ServerStmt ServerCall ServerReply where
  exec := PhysicalSocketServer.exec
  foreign := PhysicalSocketServer.foreign
  resume := PhysicalSocketServer.resume
  enter := PhysicalSocketServer.enter

abbrev ServerConf := Config PhysicalSocketServer ServerStmt

/-- What the dispatchers call: `Wait` when it does not run, and the rest then or from handlers. The
descriptor of a new dispatcher is not open yet, and it does not change while the dispatcher is one;
`Remove` asserts that it is one. -/
def ServerCallRules (c : ServerConf) : ServerCall → Prop
  | .wait _ => c.control = []
  | .add d fd => (c.control = [] ∨ c.control = [.handlers]) ∧
      if d ∈ c.state.dispatchers_ then fd = c.state.descriptor d
      else ∀ e ∈ c.state.dispatchers_, c.state.descriptor e ≠ fd
  | .remove d => (c.control = [] ∨ c.control = [.handlers]) ∧ d ∈ c.state.dispatchers_
  | .request _ _ | .wakeUp => c.control = [] ∨ c.control = [.handlers]

/-- And `select` leaves a subset of each set that it is given. -/
def ServerRules (c : ServerConf) : Act ServerCall ServerReply → Prop
  | .tick => True
  | .call m => ServerCallRules c m
  | .ret reply => c.control = [.select] →
      reply.fdsRead ⊆ c.state.fdsRead ∧ reply.fdsWrite ⊆ c.state.fdsWrite

end Gxmpp.TalkBase
